import RpcGateway.Call.Activity

/-!
# Runs in sequence

A run of one activity and then another is a run of the first that goes on with the second, unless it
was cut short.
-/

namespace RpcGateway
namespace Activity

variable {ω α β : Type}

/-- What a run that has ended goes on with. -/
def proceed (bounds : Bounds) (f : α → Activity ω β) : Ending α × Run ω → Ending β × Run ω
  | (.finished value, r) => (f value).run bounds r
  | (.departed, r) => (.departed, r)
  | (.expired, r) => (.expired, r)
  | (.stalled, r) => (.stalled, r)

theorem run_bind
    (bounds : Bounds) (a : Activity ω α) (f : α → Activity ω β) (r : Run ω) :
    (a.bind f).run bounds r = proceed bounds f (a.run bounds r) := by
  induction a generalizing r with
  | done value => rfl
  | wait span heeds next ih =>
      simp only [bind, run]
      cases Wake.next? bounds r.now span heeds with
      | none => rfl
      | some x =>
          obtain ⟨t, wake⟩ := x
          cases wake with
          | cancelled => exact ih true _
          | lapsed => exact ih false _
          | departed => rfl
          | expired => rfl
  | clock next ih => exact ih _ r
  | record added next ih => exact ih _
  | take next ih => exact ih _ _
  | act change next ih => exact ih _ _
  | watch change next ih => exact ih _
  | note mark next ih => exact ih _

/-- A run of the first activity that finishes goes on with the second. -/
theorem run_bind_of_finished
    {bounds : Bounds} {a : Activity ω α} {r s : Run ω} {value : α}
    (h : a.run bounds r = (.finished value, s)) (f : α → Activity ω β) :
    (a.bind f).run bounds r = (f value).run bounds s := by
  rw [run_bind, h]
  rfl

/-- An activity finishes or is cut short. -/
theorem finished_or_cut
    (bounds : Bounds) (a : Activity ω α) (r : Run ω) :
    (∃ value s, a.run bounds r = (.finished value, s)) ∨ (a.run bounds r).1.value? = none := by
  rcases a.run bounds r with ⟨ending, s⟩
  cases ending with
  | finished value => exact .inl ⟨value, s, rfl⟩
  | departed => exact .inr rfl
  | expired => exact .inr rfl
  | stalled => exact .inr rfl

/-- What would follow does not happen if an activity is cut short. -/
theorem value?_bind_of_cut
    {bounds : Bounds} {a : Activity ω α} {r : Run ω}
    (h : (a.run bounds r).1.value? = none) (f : α → Activity ω β) :
    ((a.bind f).run bounds r).1.value? = none := by
  rw [run_bind]
  generalize a.run bounds r = done at h
  obtain ⟨ending, s⟩ := done
  cases ending with
  | finished value => cases h
  | departed => rfl
  | expired => rfl
  | stalled => rfl

end Activity
end RpcGateway
