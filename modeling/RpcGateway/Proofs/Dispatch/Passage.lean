import Mathlib.Data.List.Chain
import RpcGateway.Dispatch.Interceptor
import RpcGateway.Proofs.Call.Annotation
import RpcGateway.Proofs.Call.Recording

/-!
# The passage through a chain

How a call passes through a chain of interceptors and comes back.

**Chains.**  A stage goes `around` whatever comes behind it, so a chain is the right fold of its
stages over the innermost one.

**Watching.**  A `watched` stage records, beside the world, when it is entered, when it hands a
request on, when it is resumed with a reply and when it is left with one.  A `Passage` is what the
stages from a place on record; what makes it `Orderly` is proved by induction on it.

**Result.**  `chain_composes`: chains are folds and may be cut in two anywhere, every passage is
orderly, and the call log may stand at any place of a chain without making a difference.
-/

namespace RpcGateway

variable {ω : Type}

/-!
## Chains
-/

/-- What a verdict leads to before the rest of a chain. -/
def Verdict.settle (rest : Message → Activity ω Reply) : Verdict ω → Activity ω Reply
  | .answer reply => .done reply
  | .proceed request after => (rest request).bind after

namespace Interceptor

theorem chain_cons
    (c : Context) (innermost : Message → Activity ω Reply)
    (stage : Interceptor ω) (rest : List (Interceptor ω)) (request : Message) :
    chain c innermost (stage :: rest) request =
      .note (.entered stage.name)
        ((stage.enter c request).bind (Verdict.settle (chain c innermost rest))) := by
  rfl

/-- A stage around what comes behind it. -/
def around (c : Context) (stage : Interceptor ω) (behind : Message → Activity ω Reply)
    (request : Message) : Activity ω Reply :=
  .note (.entered stage.name) ((stage.enter c request).bind (Verdict.settle behind))

theorem chain_eq_foldr
    (c : Context) (innermost : Message → Activity ω Reply) (stages : List (Interceptor ω)) :
    chain c innermost stages = stages.foldr (around c) innermost := by
  induction stages with
  | nil => rfl
  | cons stage rest ih =>
      funext request
      rw [chain_cons, ih, List.foldr_cons, around]

end Interceptor

/-!
## Watching
-/

/-- One event in the passage of a call. -/
inductive PassageEvent
  /-- The stage at a place is entered with a request. -/
  | entered (place : Nat) (request : Message)
  /-- The stage lets the rest of the chain have a request. -/
  | handedOn (place : Nat) (request : Message)
  /-- The reply of the rest of the chain comes back to the stage. -/
  | resumed (place : Nat) (reply : Reply)
  /-- The stage is left with a reply. -/
  | left (place : Nat) (reply : Reply)
  /-- The innermost stage is called. -/
  | invoked (request : Message)
  /-- The innermost stage returns. -/
  | returned (reply : Reply)

/-- What watched stages act on. -/
abbrev Watched (ω : Type) := ω × List PassageEvent

/-- Records the reply that an activity comes to. -/
def Activity.thenRecording (event : Reply → PassageEvent) (a : Activity ω Reply) :
    Activity (Watched ω) Reply :=
  (a.beside _).bind fun reply => .recording (event reply) (.done reply)

def Verdict.watched (place : Nat) : Verdict ω → Activity (Watched ω) (Verdict (Watched ω))
  | .answer reply => .recording (.left place reply) (.done (.answer reply))
  | .proceed request after =>
      .recording (.handedOn place request)
        (.done (.proceed request fun reply =>
          .recording (.resumed place reply) ((after reply).thenRecording (.left place))))

/-- The stage at a place of a chain, with a record of how calls pass it. -/
def Interceptor.watched (stage : Interceptor ω) (place : Nat) : Interceptor (Watched ω) where
  name := stage.name
  enter c request :=
    .recording (.entered place request)
      (((stage.enter c request).beside _).bind (Verdict.watched place))

/-- The stages from a place on, with a record of how calls pass them. -/
def Interceptor.watchedFrom (place : Nat) (stages : List (Interceptor ω)) :
    List (Interceptor (Watched ω)) :=
  (stages.zipIdx place).map fun stage => stage.1.watched stage.2

/-- An innermost stage with a record of its calls. -/
def watchedInnermost (innermost : Message → Activity ω Reply) (request : Message) :
    Activity (Watched ω) Reply :=
  .recording (.invoked request) ((innermost request).thenRecording .returned)

/-- The passage through a number of stages from a place on: what is recorded, and the reply that the
call comes to unless it is cut short. -/
inductive Passage : Nat → Nat → Message → List PassageEvent → Option Reply → Prop
  | invoked (place : Nat) (request : Message) (reply? : Option Reply) :
      Passage 0 place request (.invoked request :: reply?.toList.map .returned) reply?
  /-- The stage does not hand on anything. -/
  | answered (stages place : Nat) (request : Message) (reply? : Option Reply) :
      Passage (stages + 1) place request
        (.entered place request :: reply?.toList.map (.left place)) reply?
  /-- The call is cut short behind the stage. -/
  | lost {stages place : Nat} {next : Message} {events : List PassageEvent}
      (inner : Passage stages (place + 1) next events none) (request : Message) :
      Passage (stages + 1) place request
        (.entered place request :: .handedOn place next :: events) none
  /-- The call comes back to the stage. -/
  | resumed {stages place : Nat} {next : Message} {events : List PassageEvent} {reply : Reply}
      (inner : Passage stages (place + 1) next events (some reply)) (request : Message)
      (reply? : Option Reply) :
      Passage (stages + 1) place request
        (.entered place request :: .handedOn place next ::
          (events ++ .resumed place reply :: reply?.toList.map (.left place))) reply?

namespace Activity

variable {bounds : Bounds}

theorem records_thenRecording
    (event : Reply → PassageEvent) (a : Activity ω Reply) (r : Run ω) :
    Records ((a.thenRecording event).run bounds) (a.run bounds) r
      ((a.run bounds r).1.value?.toList.map event) := by
  intro before
  rw [thenRecording, run_bind, run_beside]
  generalize a.run bounds r = done
  obtain ⟨ending, s⟩ := done
  cases ending with
  | finished reply => rfl
  | departed => exact congrArg (fun b => (_, s.beside b)) (List.append_nil before).symm
  | expired => exact congrArg (fun b => (_, s.beside b)) (List.append_nil before).symm
  | stalled => exact congrArg (fun b => (_, s.beside b)) (List.append_nil before).symm

end Activity

namespace Interceptor

variable {bounds : Bounds}

theorem chain_watchedFrom_cons
    (c : Context) (innermost : Message → Activity (Watched ω) Reply) (place : Nat)
    (stage : Interceptor ω) (rest : List (Interceptor ω)) (request : Message) :
    chain c innermost (watchedFrom place (stage :: rest)) request =
      .note (.entered stage.name) (.recording (.entered place request)
        (((stage.enter c request).beside _).bind fun verdict =>
          (verdict.watched place).bind
            (Verdict.settle (chain c innermost (watchedFrom (place + 1) rest))))) := by
  simp only [watchedFrom, List.zipIdx_cons, List.map_cons, chain_cons, watched, Activity.recording,
    Activity.bind, Activity.bind_assoc]

/-- What is recorded of a call that passes through stages is a passage. -/
theorem exists_passage
    (c : Context) (innermost : Message → Activity ω Reply) (stages : List (Interceptor ω))
    (place : Nat) (request : Message) (r : Run ω) :
    ∃ events,
      Passage stages.length place request events
        ((chain c innermost stages request).run bounds r).1.value? ∧
      Records ((chain c (watchedInnermost innermost) (watchedFrom place stages) request).run bounds)
        ((chain c innermost stages request).run bounds) r events := by
  induction stages generalizing place request r with
  | nil =>
      exact ⟨_, .invoked place request _,
        Activity.records_recording (Activity.records_thenRecording _ _ r) _⟩
  | cons stage rest ih =>
      rw [chain_watchedFrom_cons, chain_cons]
      have hentered := Activity.records_beside (ε := PassageEvent) bounds (stage.enter c request)
        (r.mark (.entered stage.name))
      rcases Activity.finished_or_cut bounds (stage.enter c request)
        (r.mark (.entered stage.name)) with ⟨verdict, s, henter⟩ | hcut
      · have hrun := Activity.run_bind_of_finished henter (Verdict.settle (chain c innermost rest))
        rw [Activity.run, hrun]
        cases verdict with
        | answer reply =>
            refine ⟨_, .answered _ place request (some reply), ?_⟩
            refine Activity.records_note (Activity.records_recording ?_ _)
            refine Activity.records_beside_bind henter ?_
            exact Activity.records_recording
              (Activity.records_beside bounds (.done reply : Activity ω Reply) s) _
        | proceed next after =>
            obtain ⟨events, hpassage, hrest⟩ := ih (place + 1) next s
            rcases Activity.finished_or_cut bounds (chain c innermost rest next) s with
              ⟨reply, t, hinner⟩ | hlost
            · rw [hinner] at hpassage
              rw [Verdict.settle, Activity.run_bind_of_finished hinner after]
              refine ⟨_, hpassage.resumed request _, ?_⟩
              refine Activity.records_note (Activity.records_recording ?_ _)
              refine Activity.records_beside_bind henter (Activity.records_recording ?_ _)
              exact Activity.records_bind_of_finished hrest hinner
                (Activity.records_recording (Activity.records_thenRecording _ (after reply) t) _)
            · rw [hlost] at hpassage
              rw [Verdict.settle, Activity.value?_bind_of_cut hlost after]
              refine ⟨_, hpassage.lost request, ?_⟩
              refine Activity.records_note (Activity.records_recording ?_ _)
              refine Activity.records_beside_bind henter (Activity.records_recording ?_ _)
              exact Activity.records_bind_of_cut hrest hlost _ _
      · -- the call ends in the stage
        have hnone := Activity.value?_bind_of_cut hcut (Verdict.settle (chain c innermost rest))
        rw [Activity.run, hnone]
        refine ⟨_, .answered _ place request none, ?_⟩
        refine Activity.records_note (Activity.records_recording ?_ _)
        exact Activity.records_bind_of_cut hentered hcut _ _

end Interceptor

/-!
## Order
-/

namespace PassageEvent

/-- The place of a stage that is entered. -/
def entry? : PassageEvent → Option Nat
  | .entered place _ => some place
  | _ => none

/-- The place of a stage that hands on a request. -/
def handover? : PassageEvent → Option Nat
  | .handedOn place _ => some place
  | _ => none

/-- The place of a stage that is left with a reply. -/
def exit? : PassageEvent → Option Nat
  | .left place _ => some place
  | _ => none

/-- The request that the innermost stage is called with. -/
def call? : PassageEvent → Option Message
  | .invoked request => some request
  | _ => none

/-- Whether a stage is at work behind an event. -/
def isAtWork : PassageEvent → Bool
  | .entered .. | .resumed .. | .invoked _ => true
  | .handedOn .. | .left .. | .returned _ => false

/-- What the passage through stages from a place on begins with. -/
def start : Nat → Nat → Message → PassageEvent
  | 0, _, request => .invoked request
  | _ + 1, place, request => .entered place request

/-- What the passage through stages from a place on ends with. -/
def finish : Nat → Nat → Reply → PassageEvent
  | 0, _, reply => .returned reply
  | _ + 1, place, reply => .left place reply

/-- What may come directly behind an event if there are so many stages. -/
inductive Follows (stages : Nat) : PassageEvent → PassageEvent → Prop
  | answer (place : Nat) (request : Message) (reply : Reply) :
      Follows stages (.entered place request) (.left place reply)
  | handOn (place : Nat) (request next : Message) :
      Follows stages (.entered place request) (.handedOn place next)
  | enter {place : Nat} (h : place + 1 < stages) (next : Message) :
      Follows stages (.handedOn place next) (.entered (place + 1) next)
  | invoke {place : Nat} (h : place + 1 = stages) (next : Message) :
      Follows stages (.handedOn place next) (.invoked next)
  | comeBack (request : Message) (reply : Reply) :
      Follows stages (.invoked request) (.returned reply)
  | resumeLast {place : Nat} (h : place + 1 = stages) (reply : Reply) :
      Follows stages (.returned reply) (.resumed place reply)
  | resume (place : Nat) (reply : Reply) :
      Follows stages (.left (place + 1) reply) (.resumed place reply)
  | leave (place : Nat) (inner reply : Reply) :
      Follows stages (.resumed place inner) (.left place reply)

end PassageEvent

open PassageEvent

/-- What the events of a passage through a number of stages from a place on look like, if the call
comes to a reply or is cut short. -/
structure Orderly (stages place : Nat) (request : Message) (events : List PassageEvent)
    (reply? : Option Reply) : Prop where
  /-- What is handed on and what comes back is what the neighbour is entered or resumed with. -/
  steps : events.IsChain (Follows (place + stages))
  first : events.head? = some (start stages place request)
  last : ∀ reply ∈ reply?, events.getLast? = some (finish stages place reply)
  /-- A call is cut short while a stage is at work. -/
  cut : reply? = none → ∃ event ∈ events.getLast?, event.isAtWork
  /-- The stages are entered in order, each at most once and none left out. -/
  entered : events.filterMap entry? <+: List.range' place stages
  /-- The innermost stage is called once if every stage hands on, else not at all. -/
  invoked : (events.filterMap call?).length =
    if events.filterMap handover? = List.range' place stages then 1 else 0
  /-- The stages are left in the opposite order. -/
  left : events.filterMap exit? <+: (events.filterMap entry?).reverse
  left_all : reply?.isSome → events.filterMap exit? = (events.filterMap entry?).reverse
  /-- Behind a stage that answers the call there is nothing. -/
  answered : ∀ spot reply, .left spot reply ∈ events → spot ∉ events.filterMap handover? →
    (events.filterMap entry?).getLast? = some spot ∧ events.filterMap call? = []

namespace Passage

variable {stages place : Nat} {request : Message} {events : List PassageEvent}
  {reply? : Option Reply}

theorem first
    (h : Passage stages place request events reply?) :
    events.head? = some (start stages place request) := by
  cases h <;> rfl

theorem last
    (h : Passage stages place request events reply?) :
    ∀ reply ∈ reply?, events.getLast? = some (finish stages place reply) := by
  rintro reply ⟨⟩
  cases h with
  | invoked => rfl
  | answered => rfl
  | resumed inner => simp [finish, List.getLast?_cons]

theorem cut
    (h : Passage stages place request events reply?) (hnone : reply? = none) :
    ∃ event ∈ events.getLast?, event.isAtWork := by
  induction h with
  | invoked place request =>
      subst hnone
      exact ⟨_, rfl, rfl⟩
  | answered stages place request =>
      subst hnone
      exact ⟨_, rfl, rfl⟩
  | lost inner request ih =>
      obtain ⟨event, hlast, hwork⟩ := ih rfl
      rw [Option.mem_def] at hlast
      exact ⟨event, by simp [List.getLast?_cons, hlast], hwork⟩
  | @resumed stages place next events reply inner request =>
      subst hnone
      exact ⟨.resumed place reply, by simp [List.getLast?_cons], rfl⟩

theorem entered
    (h : Passage stages place request events reply?) :
    events.filterMap entry? <+: List.range' place stages := by
  induction h with
  | invoked place request reply? => cases reply? <;> simp [List.filterMap_cons, entry?]
  | answered stages place request reply? =>
      cases reply? <;> simp [List.filterMap_cons, entry?, List.range'_succ]
  | lost inner request ih => simpa [List.filterMap_cons, entry?, List.range'_succ] using ih
  | resumed inner request reply? ih =>
      cases reply? <;> simpa [List.filterMap_cons, entry?, List.range'_succ] using ih

theorem invoked_length
    (h : Passage stages place request events reply?) :
    (events.filterMap call?).length =
      if events.filterMap handover? = List.range' place stages then 1 else 0 := by
  induction h with
  | invoked place request reply? =>
      cases reply? <;> simp [List.filterMap_cons, call?, handover?]
  | answered stages place request reply? =>
      cases reply? <;> simp [List.filterMap_cons, call?, handover?, List.range'_succ]
  | lost inner request ih =>
      simpa [List.filterMap_cons, call?, handover?, List.range'_succ] using ih
  | resumed inner request reply? ih =>
      cases reply? <;> simpa [List.filterMap_cons, call?, handover?, List.range'_succ] using ih

theorem left_all
    (h : Passage stages place request events reply?) (hreply : reply?.isSome) :
    events.filterMap exit? = (events.filterMap entry?).reverse := by
  induction h with
  | invoked place request reply? =>
      cases reply? <;> simp [List.filterMap_cons, exit?, entry?]
  | answered stages place request reply? =>
      obtain ⟨reply, rfl⟩ := Option.isSome_iff_exists.mp hreply
      simp [List.filterMap_cons, exit?, entry?]
  | lost inner request ih => simp at hreply
  | resumed inner request reply? ih =>
      obtain ⟨reply, rfl⟩ := Option.isSome_iff_exists.mp hreply
      simp [List.filterMap_cons, exit?, entry?, ih rfl]

theorem left
    (h : Passage stages place request events reply?) :
    events.filterMap exit? <+: (events.filterMap entry?).reverse := by
  induction h with
  | invoked place request reply? => cases reply? <;> simp [List.filterMap_cons, exit?, entry?]
  | answered stages place request reply? =>
      cases reply? <;> simp [List.filterMap_cons, exit?, entry?]
  | lost inner request ih =>
      simpa [List.filterMap_cons, exit?, entry?] using ih.trans (List.prefix_append _ _)
  | resumed inner request reply? ih =>
      -- the stages behind this one are left before it, all of them
      have hinner := inner.left_all rfl
      cases reply? <;> simp [List.filterMap_cons, exit?, entry?, hinner]

theorem answered_last
    (h : Passage stages place request events reply?) {spot : Nat} {reply : Reply}
    (hleft : .left spot reply ∈ events) (hkept : spot ∉ events.filterMap handover?) :
    (events.filterMap entry?).getLast? = some spot ∧ events.filterMap call? = [] := by
  induction h with
  | invoked place request reply? => cases reply? <;> simp at hleft
  | answered stages place request reply? =>
      cases reply? with
      | none => simp at hleft
      | some answer =>
          have hat : spot = place := by
            simp only [Option.toList_some, List.map_cons, List.map_nil, List.mem_cons, reduceCtorEq,
              List.not_mem_nil, or_false, false_or, PassageEvent.left.injEq] at hleft
            exact hleft.1
          simp [List.filterMap_cons, entry?, call?, hat]
  | lost inner request ih =>
      simp only [List.filterMap_cons, handover?, List.mem_cons, not_or, reduceCtorEq,
        false_or] at hkept hleft
      obtain ⟨hlast, hcalls⟩ := ih hleft hkept.2
      simp [List.filterMap_cons, entry?, call?, List.getLast?_cons, hlast, hcalls]
  | @resumed stages place next events inner _ request reply? ih =>
      have hother : spot ≠ place := by
        rintro rfl
        simp [List.filterMap_cons, handover?] at hkept
      have hinside : .left spot reply ∈ events := by
        cases reply? <;> simpa [hother] using hleft
      have hkept' : spot ∉ events.filterMap handover? := by
        intro hmem
        simp [List.filterMap_cons, handover?, hmem] at hkept
      obtain ⟨hlast, hcalls⟩ := ih hinside hkept'
      cases reply? <;>
        simp [List.filterMap_cons, entry?, call?, List.getLast?_cons, hlast, hcalls]

/-- What a stage hands on is what the next one is entered with. -/
theorem follows_start (stages place : Nat) (next : Message) :
    Follows (place + (stages + 1)) (.handedOn place next) (start stages (place + 1) next) := by
  cases stages with
  | zero => exact .invoke rfl next
  | succ n => exact .enter (by omega) next

/-- What a stage is left with is what the one before it is resumed with. -/
theorem finish_follows (stages place : Nat) (reply : Reply) :
    Follows (place + (stages + 1)) (finish stages (place + 1) reply) (.resumed place reply) := by
  cases stages with
  | zero => exact .resumeLast rfl reply
  | succ n => exact .resume place reply

/-- The reply that a stage at work comes to is recorded directly behind. -/
theorem isChain_report
    {stages : Nat} {before : PassageEvent} {event : Reply → PassageEvent}
    (h : ∀ reply, Follows stages before (event reply)) (reply? : Option Reply) :
    (before :: reply?.toList.map event).IsChain (Follows stages) := by
  cases reply? with
  | none => exact List.isChain_singleton _
  | some reply => exact List.isChain_pair.mpr (h reply)

theorem steps
    (h : Passage stages place request events reply?) :
    events.IsChain (Follows (place + stages)) := by
  induction h with
  | invoked place request reply? => exact isChain_report (.comeBack request) reply?
  | answered stages place request reply? => exact isChain_report (.answer place request) reply?
  | @lost stages place next events inner request ih =>
      rw [Nat.add_right_comm] at ih
      refine List.isChain_cons_cons.mpr ⟨.handOn place request next, ?_⟩
      refine List.isChain_cons.mpr ⟨fun event hevent => ?_, ih⟩
      cases hevent.symm.trans inner.first
      exact follows_start stages place next
  | @resumed stages place next events reply inner request reply? ih =>
      rw [Nat.add_right_comm] at ih
      have htail : List.IsChain (Follows (place + (stages + 1)))
          (.resumed place reply :: reply?.toList.map (.left place)) :=
        isChain_report (.leave place reply) reply?
      refine List.isChain_cons_cons.mpr ⟨.handOn place request next, ?_⟩
      rw [← List.cons_append]
      refine List.isChain_append.mpr ⟨List.isChain_cons.mpr ⟨fun event hevent => ?_, ih⟩, htail, ?_⟩
      · cases hevent.symm.trans inner.first
        exact follows_start stages place next
      · intro event hevent event' hevent'
        cases hevent'
        have hlast := inner.last reply rfl
        rw [List.getLast?_cons, hlast] at hevent
        cases hevent
        exact finish_follows stages place reply

theorem orderly
    (h : Passage stages place request events reply?) :
    Orderly stages place request events reply? where
  steps := h.steps
  first := h.first
  last := h.last
  cut := h.cut
  entered := h.entered
  invoked := h.invoked_length
  left := h.left
  left_all := h.left_all
  answered _ _ := h.answered_last

end Passage

namespace Interceptor

/-!
## The call log
-/

/-- What a chain does, its innermost stage may do with further entries in the journal. -/
theorem annotated_chain
    (c : Context) {innermost logged : Message → Activity ω Reply}
    (h : ∀ request, (innermost request).Annotated (logged request))
    (stages : List (Interceptor ω)) (request : Message) :
    (chain c innermost stages request).Annotated (chain c logged stages request) := by
  induction stages generalizing request with
  | nil => exact h request
  | cons stage rest ih =>
      rw [chain_cons, chain_cons]
      refine ((Activity.Annotated.refl _).bind fun verdict => ?_).note _
      cases verdict with
      | answer reply => exact .refl _
      | proceed next after => exact (ih next).bind fun reply => .refl _

/-- The call log changes nothing. -/
theorem annotated_callLog
    (c : Context) (innermost : Message → Activity ω Reply) (request : Message) :
    (innermost request).Annotated (chain c innermost [callLog] request) := by
  have hlogged : (innermost request).Annotated ((innermost request).bind fun reply =>
      .note (.logged ⟨c.requestId, c.method.fullMethod, news reply⟩) (.done reply)) := by
    have hbind := (Activity.Annotated.refl (innermost request)).bind fun reply =>
      (Activity.Annotated.refl (.done reply)).put
        (.logged ⟨c.requestId, c.method.fullMethod, news reply⟩)
    rw [Activity.bind_done] at hbind
    exact hbind
  exact (hlogged.put _).put _

/-!
## Result
-/

/-- How stages around an innermost one work together. -/
structure Composes (c : Context) (innermost : Message → Activity ω Reply)
    (stages : List (Interceptor ω)) : Prop where
  fold : chain c innermost stages = stages.foldr (around c) innermost
  /-- More stages behind these stand between them and the innermost one. -/
  append : ∀ inner,
    chain c innermost (stages ++ inner) = chain c (chain c innermost inner) stages
  /-- Watching changes nothing, and what is recorded is an orderly passage. -/
  passage : ∀ bounds request (r : Run ω), ∃ events,
    Records ((chain c (watchedInnermost innermost) (watchedFrom 0 stages) request).run bounds)
      ((chain c innermost stages request).run bounds) r events ∧
    Orderly stages.length 0 request events
      ((chain c innermost stages request).run bounds r).1.value?
  /-- With the call log anywhere among the stages, everything but the journal is the same. -/
  logged : ∀ outer inner, stages = outer ++ inner → ∀ request,
    (chain c innermost stages request).Annotated
      (chain c innermost (outer ++ callLog :: inner) request)

/-- **Chains of interceptors.**  A chain is the right fold of its stages over the innermost one, a
call passes it in order and comes back in the opposite order, and the call log makes no
difference. -/
theorem chain_composes
    (c : Context) (innermost : Message → Activity ω Reply) (stages : List (Interceptor ω)) :
    Composes c innermost stages where
  fold := chain_eq_foldr c innermost stages
  append inner := funext fun request => chain_append c innermost stages inner request
  passage bounds request r := by
    obtain ⟨events, hpassage, hrecords⟩ := exists_passage c innermost stages 0 request r
    exact ⟨events, hrecords, hpassage.orderly⟩
  logged := by
    rintro outer inner rfl request
    have hinsert : outer ++ callLog :: inner = outer ++ ([callLog] ++ inner) := rfl
    rw [hinsert, chain_append, chain_append]
    refine annotated_chain c (fun request => ?_) outer request
    rw [chain_append]
    exact annotated_callLog c (chain c innermost inner) request

end Interceptor
end RpcGateway
