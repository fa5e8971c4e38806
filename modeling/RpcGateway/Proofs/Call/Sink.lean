import RpcGateway.Proofs.Call.Race
import RpcGateway.Proofs.Call.Sequence
import RpcGateway.Proofs.Metadata.Merging

/-!
# The metadata of a response, as a run changes it

The metadata of a response gathers in one place, whichever part of a call adds to it and through
whichever clone of the context.

**Changes.**  `changes` is what a run does to that metadata, in order: additions, and `none` where
all of it is taken.  Activities in sequence make the changes of both, and an activity that is cut
short makes those that it came to.

**Pending.**  What is there at the end of a run is the join of what was added and not taken since
(`outgoing_run`).
-/

namespace RpcGateway
namespace CallMetadata

theorem joined_concat
    (ms : List CallMetadata) (m : CallMetadata) :
    joined (ms ++ [m]) = (joined ms).merge m := by
  simp only [joined_eq_foldl, List.foldl_append, List.foldl_cons, List.foldl_nil]

/-- The pairs of the headers, in order. -/
def headerPairs (ms : List CallMetadata) : List (String × String) :=
  ms.flatMap fun m => m.header.pairs

/-- The pairs of the trailers, in order. -/
def trailerPairs (ms : List CallMetadata) : List (String × String) :=
  ms.flatMap fun m => m.trailer.pairs

theorem joined_eq_ofList
    (ms : List CallMetadata) :
    joined ms = ⟨.ofList (headerPairs ms), .ofList (trailerPairs ms)⟩ := by
  rw [joined, Metadata.join_eq_ofList, Metadata.join_eq_ofList, List.flatMap_map, List.flatMap_map]
  rfl

/-- What was added, earlier or by the changes, and not taken since. -/
def pending (earlier : List CallMetadata) : List (Option CallMetadata) → List CallMetadata
  | [] => earlier
  | some added :: later => pending (earlier ++ [added]) later
  | none :: later => pending [] later

/-- Changes leave the join of what is pending. -/
theorem after_joined
    (earlier : List CallMetadata) (changes : List (Option CallMetadata)) :
    (joined earlier).after changes = joined (pending earlier changes) := by
  induction changes generalizing earlier with
  | nil => rfl
  | cons change later ih =>
      cases change with
      | some added =>
          have hadded := ih (earlier ++ [added])
          rw [joined_concat] at hadded
          exact hadded
      | none => exact ih []

end CallMetadata

namespace Activity

variable {ω α β : Type} {bounds : Bounds} {a : Activity ω α} {r s : Run ω}

/-- What a run does to the metadata of the response. -/
def changes (bounds : Bounds) : Activity ω α → Run ω → List (Option CallMetadata)
  | done _, _ => []
  | wait span heeds next, r =>
      match Wake.next? bounds r.now span heeds with
      | some (t, .cancelled) => (next true).changes bounds (r.tell t)
      | some (t, .lapsed) => (next false).changes bounds { r with now := t }
      | _ => []
  | clock next, r => (next r.now).changes bounds r
  | record added next, r =>
      some added :: next.changes bounds { r with outgoing := r.outgoing.merge added }
  | take next, r => none :: (next r.outgoing).changes bounds { r with outgoing := .empty }
  | act change next, r => (next (change r.world)).changes bounds { r with world := change r.world }
  | watch change next, r => next.changes bounds { r with watchers := r.watchers ++ [change] }
  | note mark next, r => next.changes bounds (r.mark mark)

/-- The changes of what follows a run, if the run finished. -/
def laterChanges (bounds : Bounds) (f : α → Activity ω β) :
    Ending α × Run ω → List (Option CallMetadata)
  | (.finished value, r) => (f value).changes bounds r
  | _ => []

theorem changes_bind
    (bounds : Bounds) (a : Activity ω α) (f : α → Activity ω β) (r : Run ω) :
    (a.bind f).changes bounds r = a.changes bounds r ++ laterChanges bounds f (a.run bounds r) := by
  induction a generalizing r with
  | done value => rfl
  | wait span heeds next ih =>
      simp only [bind, changes, run]
      cases Wake.next? bounds r.now span heeds with
      | none => rfl
      | some due =>
          obtain ⟨t, wake⟩ := due
          cases wake with
          | cancelled => exact ih true _
          | lapsed => exact ih false _
          | departed => rfl
          | expired => rfl
  | clock next ih => exact ih _ r
  | record added next ih => exact congrArg (some added :: ·) (ih _)
  | take next ih => exact congrArg (none :: ·) (ih _ _)
  | act change next ih => exact ih _ _
  | watch change next ih => exact ih _
  | note mark next ih => exact ih _

theorem changes_bind_of_finished
    {value : α}
    (h : a.run bounds r = (.finished value, s)) (f : α → Activity ω β) :
    (a.bind f).changes bounds r = a.changes bounds r ++ (f value).changes bounds s := by
  rw [changes_bind, h]
  rfl

/-- A run leaves of the metadata what its changes leave of it. -/
theorem outgoing_run_eq_after
    (bounds : Bounds) (a : Activity ω α) (r : Run ω) :
    (a.run bounds r).2.outgoing = r.outgoing.after (a.changes bounds r) := by
  induction a generalizing r with
  | done value => rfl
  | wait span heeds next ih =>
      simp only [changes, run]
      cases Wake.next? bounds r.now span heeds with
      | none => rfl
      | some due =>
          obtain ⟨t, wake⟩ := due
          cases wake with
          | cancelled =>
              have htold := ih true (r.tell t)
              rw [Run.tell_outgoing] at htold
              exact htold
          | lapsed => exact ih false _
          | departed => rfl
          | expired => rfl
  | clock next ih => exact ih _ r
  | record added next ih => exact ih _
  | take next ih => exact ih _ _
  | act change next ih => exact ih _ _
  | watch change next ih => exact ih _
  | note mark next ih => exact ih _

/-- A run leaves the join of what is pending after its changes. -/
theorem outgoing_run
    {earlier : List CallMetadata}
    (h : r.outgoing = .joined earlier) (bounds : Bounds) (a : Activity ω α) :
    (a.run bounds r).2.outgoing = .joined (CallMetadata.pending earlier (a.changes bounds r)) := by
  rw [outgoing_run_eq_after, h, CallMetadata.after_joined]

end Activity
end RpcGateway
