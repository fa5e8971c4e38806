import Mathlib.Algebra.Order.Monoid.Unbundled.WithTop
import RpcGateway.Proofs.Call.Clock

/-!
# A call against the clock

A call that never looks whether it is cancelled runs as if it were alone, up to the moment at which
its caller leaves or its deadline passes.

**Waits.**  `Activity.Waits` says of what kind all waits of an activity are.  `Heedless` are those
that do not look.

**Alone.**  A call is left alone in a run without bounds.  `endsAt` is the moment at which it is
over then, `⊤` if it waits for ever, and `timeline` is what it does with the metadata of the
response, and when.

**Stops.**  `Bounds.stop?` is the moment at which a call is stopped that does not come to its end
before.

**Results.**
* `Heedless.run_eq_of_finished`: a call that ends in time ends as if it were alone;
* `Heedless.run_departed`: a call whose caller leaves first is cut short at that moment;
* `Heedless.run_expired`: a call whose deadline comes first is cut short when the timer of the
  deadline goes off, with the metadata that it has recorded by then.
-/

namespace RpcGateway

variable {ω α : Type}

namespace Timer

theorem le_due (time : Nat) : time ≤ due time := by
  unfold due
  omega

theorem le_lapse (now span : Nat) : now ≤ lapse now span := by
  unfold lapse
  split
  · exact Nat.le_refl _
  · exact Nat.le_trans (Nat.le_add_right _ _) (le_due _)

end Timer

/-- What stops a call, not before now, and when. -/
def Bounds.stop? (bounds : Bounds) (now : Nat) : Option (Nat × Wake) :=
  Wake.earlier (Wake.from? now .departed bounds.leavesAt)
    (Wake.from? now .expired (bounds.deadline.map Timer.due))

namespace Wake

variable {bounds : Bounds} {now time : Nat} {wake : Wake}

theorem earlier_eq_left
    {a : Nat × Wake} {b : Option (Nat × Wake)}
    (h : ∀ y, b = some y → a.1 ≤ y.1) :
    earlier (some a) b = some a := by
  cases b with
  | none => rfl
  | some y =>
      have hle : ¬ y.1 < a.1 := Nat.not_lt.mpr (h y rfl)
      simp only [earlier, if_neg hle]

theorem earlier_eq_right
    {a : Option (Nat × Wake)} {b : Nat × Wake}
    (h : ∀ x, a = some x → b.1 < x.1) :
    earlier a (some b) = some b := by
  cases a with
  | none => rfl
  | some x => simp only [earlier, if_pos (h x rfl)]

theorem next?_of_heedless (bounds : Bounds) (now : Nat) (span : Option Nat) :
    next? bounds now span false =
      earlier (from? now .lapsed (span.map (Timer.lapse now))) (bounds.stop? now) := by
  rfl

/-- A wait that heeds cancellation is ended by it or by what would end the wait anyway. -/
theorem next?_of_heeding (bounds : Bounds) (now : Nat) (span : Option Nat) :
    next? bounds now span true =
      earlier (from? now .cancelled bounds.cancelsAt) (next? bounds now span false) := by
  rfl

/-- A wait goes on whose span is over before anything stops it. -/
theorem next?_of_lapse_le
    {span : Nat}
    (h : ∀ t other, bounds.stop? now = some (t, other) → Timer.lapse now span ≤ t) :
    next? bounds now (some span) false = some (Timer.lapse now span, .lapsed) := by
  rw [next?_of_heedless, Option.map_some, from?, Option.map_some,
    Nat.max_eq_right (Timer.le_lapse now span)]
  exact earlier_eq_left fun y hy => h y.1 y.2 hy

theorem next?_of_lt_lapse
    {span : Option Nat}
    (hstop : bounds.stop? now = some (time, wake))
    (h : ∀ m, span = some m → time < Timer.lapse now m) :
    next? bounds now span false = some (time, wake) := by
  rw [next?_of_heedless, hstop]
  refine earlier_eq_right fun x hx => ?_
  rw [from?, Option.map_map] at hx
  obtain ⟨m, hm, rfl⟩ := Option.map_eq_some_iff.mp hx
  exact Nat.lt_of_lt_of_le (h m hm) (Nat.le_max_right _ _)

end Wake

namespace Bounds

variable {bounds : Bounds} {now time deadline : Nat}

theorem le_of_stop?
    {t : Nat} {wake : Wake}
    (hleaves : ∀ m, bounds.leavesAt = some m → time ≤ m)
    (hdeadline : ∀ d, bounds.deadline = some d → time ≤ Timer.due d)
    (h : bounds.stop? now = some (t, wake)) :
    time ≤ t := by
  rcases Wake.earlier_eq_some h with h | h
  · obtain ⟨m, hm, heq⟩ := Option.map_eq_some_iff.mp h
    cases heq
    exact Nat.le_trans (hleaves m hm) (Nat.le_max_right _ _)
  · rw [Wake.from?, Option.map_map] at h
    obtain ⟨d, hd, heq⟩ := Option.map_eq_some_iff.mp h
    cases heq
    exact Nat.le_trans (hdeadline d hd) (Nat.le_max_right _ _)

theorem stop?_of_leavesAt
    (hleaves : bounds.leavesAt = some time)
    (hdeadline : ∀ d, bounds.deadline = some d → time ≤ Timer.due d)
    (hnow : now ≤ time) :
    bounds.stop? now = some (time, .departed) := by
  rw [stop?, hleaves, Wake.from?, Option.map_some, Nat.max_eq_right hnow]
  refine Wake.earlier_eq_left fun y hy => ?_
  rw [Wake.from?, Option.map_map] at hy
  obtain ⟨d, hd, rfl⟩ := Option.map_eq_some_iff.mp hy
  exact Nat.le_trans (hdeadline d hd) (Nat.le_max_right _ _)

theorem stop?_of_deadline
    (hdeadline : bounds.deadline = some deadline)
    (hleaves : ∀ m, bounds.leavesAt = some m → Timer.due deadline < m)
    (hnow : now ≤ Timer.due deadline) :
    bounds.stop? now = some (Timer.due deadline, .expired) := by
  have hfrom : Wake.from? now .expired (bounds.deadline.map Timer.due) =
      some (Timer.due deadline, .expired) := by
    rw [hdeadline, Option.map_some, Wake.from?, Option.map_some, Nat.max_eq_right hnow]
  rw [stop?, hfrom]
  refine Wake.earlier_eq_right fun x hx => ?_
  obtain ⟨m, hm, rfl⟩ := Option.map_eq_some_iff.mp hx
  exact Nat.lt_of_lt_of_le (hleaves m hm) (Nat.le_max_right _ _)

end Bounds

/-- The metadata after changes: additions, and `none` where all of it was taken. -/
def CallMetadata.after (m : CallMetadata) (changes : List (Option CallMetadata)) : CallMetadata :=
  changes.foldl (fun m change => (change.map m.merge).getD .empty) m

namespace Activity

/-- An activity whose waits are all of a kind, which the span of a wait and whether it heeds
cancellation decide. -/
inductive Waits (kind : Option Nat → Bool → Prop) : Activity ω α → Prop
  | done (value : α) :
      Waits kind (.done value)
  | wait {span : Option Nat} {heeds : Bool} {next : Bool → Activity ω α}
      (hkind : kind span heeds) (h : ∀ cancelled, Waits kind (next cancelled)) :
      Waits kind (.wait span heeds next)
  | clock {next : Nat → Activity ω α}
      (h : ∀ now, Waits kind (next now)) :
      Waits kind (.clock next)
  | record {added : CallMetadata} {next : Activity ω α}
      (h : Waits kind next) :
      Waits kind (.record added next)
  | take {next : CallMetadata → Activity ω α}
      (h : ∀ metadata, Waits kind (next metadata)) :
      Waits kind (.take next)
  | act {change : ω → ω} {next : ω → Activity ω α}
      (h : ∀ world, Waits kind (next world)) :
      Waits kind (.act change next)
  | watch {change : ω → ω} {next : Activity ω α}
      (h : Waits kind next) :
      Waits kind (.watch change next)
  | note {mark : Mark} {next : Activity ω α}
      (h : Waits kind next) :
      Waits kind (.note mark next)

/-- An activity none of whose waits heeds cancellation. -/
abbrev Heedless (a : Activity ω α) : Prop :=
  a.Waits fun _ heeds => heeds = false

/-- When a call is over that is left alone; never, if it waits for ever. -/
def endsAt (a : Activity ω α) (r : Run ω) : WithTop Nat :=
  match a.run {} r with
  | (.finished _, s) => (s.now : WithTop Nat)
  | _ => ⊤

/-- What a call that is left alone does with the metadata of the response, and when. -/
def timeline : Activity ω α → Run ω → List (Nat × Option CallMetadata)
  | .done _, _ => []
  | .wait none _ _, _ => []
  | .wait (some span) _ next, r =>
      (next false).timeline { r with now := Timer.lapse r.now span }
  | .clock next, r => (next r.now).timeline r
  | .record added next, r =>
      (r.now, some added) :: next.timeline { r with outgoing := r.outgoing.merge added }
  | .take next, r => (r.now, none) :: (next r.outgoing).timeline { r with outgoing := .empty }
  | .act change next, r => (next (change r.world)).timeline { r with world := change r.world }
  | .watch change next, r => next.timeline { r with watchers := r.watchers ++ [change] }
  | .note mark next, r => next.timeline (r.mark mark)

/-- The metadata of the response at a time, if the call is left alone: what comes up at that very
time is a part of it. -/
def recordedBy (a : Activity ω α) (r : Run ω) (time : Nat) : CallMetadata :=
  r.outgoing.after (((a.timeline r).filter fun change => change.1 ≤ time).map (·.2))

/-- Left alone, a call waits as long as it wants to. -/
theorem run_wait_alone
    (span : Nat) (next : Bool → Activity ω α) (r : Run ω) :
    (wait (some span) false next).run {} r =
      (next false).run {} { r with now := Timer.lapse r.now span } := by
  have hnext : Wake.next? {} r.now (some span) false =
      some (Timer.lapse r.now span, .lapsed) := by
    refine Wake.next?_of_lapse_le ?_
    rintro t other ⟨⟩
  rw [run_wait hnext]
  rfl

theorem now_le_timeline
    (a : Activity ω α) (r : Run ω) :
    ∀ change ∈ a.timeline r, r.now ≤ change.1 := by
  induction a generalizing r with
  | done value => simp [timeline]
  | wait span heeds next ih =>
      cases span with
      | none => simp [timeline]
      | some span =>
          intro change hchange
          exact Nat.le_trans (Timer.le_lapse _ _) (ih false _ change hchange)
  | clock next ih => exact ih _ r
  | record added next ih =>
      intro change hchange
      rcases List.mem_cons.mp hchange with rfl | hchange
      · exact Nat.le_refl _
      · exact ih { r with outgoing := r.outgoing.merge added } change hchange
  | take next ih =>
      intro change hchange
      rcases List.mem_cons.mp hchange with rfl | hchange
      · exact Nat.le_refl _
      · exact ih r.outgoing { r with outgoing := .empty } change hchange
  | act change next ih => exact ih _ _
  | watch change next ih => exact ih _
  | note mark next ih => exact ih _

/-- Nothing is recorded before a wait is over. -/
theorem recordedBy_wait_of_lt
    {span : Option Nat} {heeds : Bool} {next : Bool → Activity ω α} {r : Run ω} {time : Nat}
    (h : ∀ m, span = some m → time < Timer.lapse r.now m) :
    (wait span heeds next).recordedBy r time = r.outgoing := by
  cases span with
  | none => rfl
  | some m =>
      have hnone : ((wait (some m) heeds next).timeline r).filter
          (fun change => change.1 ≤ time) = [] := by
        refine List.filter_eq_nil_iff.mpr fun change hchange => ?_
        have hle := now_le_timeline (next false) { r with now := Timer.lapse r.now m } change
          hchange
        have hlt := h m rfl
        simp only [decide_eq_true_eq, Nat.not_le]
        exact Nat.lt_of_lt_of_le hlt hle
      rw [recordedBy, hnone]
      rfl

theorem recordedBy_record
    (added : CallMetadata) (next : Activity ω α) {r : Run ω} {time : Nat} (hr : r.now ≤ time) :
    (record added next).recordedBy r time =
      next.recordedBy { r with outgoing := r.outgoing.merge added } time := by
  simp only [recordedBy, timeline, List.filter_cons, hr, decide_true, if_true]
  rfl

theorem recordedBy_take
    (next : CallMetadata → Activity ω α) {r : Run ω} {time : Nat} (hr : r.now ≤ time) :
    (take next).recordedBy r time =
      (next r.outgoing).recordedBy { r with outgoing := .empty } time := by
  simp only [recordedBy, timeline, List.filter_cons, hr, decide_true, if_true]
  rfl

/-- A call that ends before anything stops it ends as if it were alone. -/
theorem Heedless.run_eq_of_finished
    {bounds : Bounds} {a : Activity ω α} {r s : Run ω} {value : α}
    (h : a.Heedless) (halone : a.run {} r = (.finished value, s))
    (hleaves : ∀ m, bounds.leavesAt = some m → s.now ≤ m)
    (hdeadline : ∀ d, bounds.deadline = some d → s.now ≤ Timer.due d) :
    a.run bounds r = (.finished value, s) := by
  induction h generalizing r with
  | done value => exact halone
  | @wait span _ next hheeds _ ih =>
      subst hheeds
      cases span with
      | none => cases halone
      | some span =>
          rw [run_wait_alone] at halone
          have hend := now_le_run {} (next false) { r with now := Timer.lapse r.now span }
          rw [halone] at hend
          have hnext : Wake.next? bounds r.now (some span) false =
              some (Timer.lapse r.now span, .lapsed) :=
            Wake.next?_of_lapse_le fun t other hstop =>
              Nat.le_trans hend (Bounds.le_of_stop? hleaves hdeadline hstop)
          rw [run_wait hnext]
          exact ih false halone
  | clock _ ih => exact ih _ halone
  | record _ ih => exact ih halone
  | take _ ih => exact ih _ halone
  | act _ ih => exact ih _ halone
  | watch _ ih => exact ih halone
  | note _ ih => exact ih halone

/-- A call that does not end before it is stopped runs as if it were alone until then. -/
theorem Heedless.run_eq_of_stopped
    {bounds : Bounds} {a : Activity ω α} {r : Run ω} {time : Nat} {wake : Wake}
    {ending : Ending α}
    (h : a.Heedless)
    (hstop : ∀ now, now ≤ time → bounds.stop? now = some (time, wake))
    (hresume : ∀ (next : Bool → Activity ω α) (s : Run ω),
      resume bounds next s time wake = (ending, s.woken bounds time wake))
    (hr : r.now ≤ time) (hlasts : (time : WithTop Nat) < a.endsAt r) :
    ∃ s : Run ω,
      a.run bounds r = (ending, s.woken bounds time wake) ∧
      s.cancelled = r.cancelled ∧
      s.outgoing = a.recordedBy r time := by
  induction h generalizing r with
  | done value =>
      have hlt : time < r.now := WithTop.coe_lt_coe.mp hlasts
      exact absurd hr (Nat.not_le.mpr hlt)
  | @wait span _ next hheeds _ ih =>
      subst hheeds
      by_cases hover : ∃ m, span = some m ∧ Timer.lapse r.now m ≤ time
      · -- the wait is over first, and the rest of the call is stopped
        obtain ⟨m, rfl, hle⟩ := hover
        have hnext : Wake.next? bounds r.now (some m) false =
            some (Timer.lapse r.now m, .lapsed) := by
          refine Wake.next?_of_lapse_le fun t other ht => ?_
          rw [hstop r.now hr] at ht
          cases ht
          exact hle
        rw [run_wait hnext]
        refine ih false hle ?_
        rw [endsAt, run_wait_alone] at hlasts
        exact hlasts
      · have hlater : ∀ m, span = some m → time < Timer.lapse r.now m :=
          fun m hm => Nat.not_le.mp fun hle => hover ⟨m, hm, hle⟩
        have hnext := Wake.next?_of_lt_lapse (hstop r.now hr) hlater
        refine ⟨r, ?_, rfl, (recordedBy_wait_of_lt hlater).symm⟩
        rw [run_wait hnext, hresume]
  | clock _ ih => exact ih _ hr hlasts
  | @record added next _ ih =>
      rw [recordedBy_record added next hr]
      exact ih hr hlasts
  | @take next _ ih =>
      rw [recordedBy_take next hr]
      exact ih _ hr hlasts
  | act _ ih => exact ih _ hr hlasts
  | watch _ ih => exact ih hr hlasts
  | note _ ih => exact ih hr hlasts

theorem Heedless.run_departed
    {bounds : Bounds} {a : Activity ω α} {r : Run ω} {time : Nat}
    (h : a.Heedless)
    (hleaves : bounds.leavesAt = some time)
    (hdeadline : ∀ d, bounds.deadline = some d → time ≤ Timer.due d)
    (hr : r.now ≤ time) (hlasts : (time : WithTop Nat) < a.endsAt r) :
    ∃ s : Run ω, a.run bounds r = (.departed, s.leave time bounds) := by
  obtain ⟨s, hrun, -, -⟩ := h.run_eq_of_stopped
    (fun _ hnow => Bounds.stop?_of_leavesAt hleaves hdeadline hnow) (fun _ _ => rfl) hr hlasts
  exact ⟨s, hrun⟩

theorem Heedless.run_expired
    {bounds : Bounds} {a : Activity ω α} {r : Run ω} {deadline time : Nat}
    (h : a.Heedless)
    (hdeadline : bounds.deadline = some deadline) (htime : Timer.due deadline = time)
    (hleaves : ∀ m, bounds.leavesAt = some m → time < m)
    (hr : r.now ≤ time) (hlasts : (time : WithTop Nat) < a.endsAt r) :
    ∃ s : Run ω,
      a.run bounds r = (.expired, s) ∧
      s.now = time ∧
      s.cancelled = r.cancelled ∧
      s.outgoing = a.recordedBy r time := by
  have hstop : ∀ now, now ≤ time → bounds.stop? now = some (time, .expired) := by
    subst htime
    exact fun _ hnow => Bounds.stop?_of_deadline hdeadline hleaves hnow
  obtain ⟨s, hrun, hcancelled, houtgoing⟩ :=
    h.run_eq_of_stopped hstop (fun _ _ => rfl) hr hlasts
  exact ⟨_, hrun, Run.woken_now s bounds time .expired, hcancelled, houtgoing⟩

end Activity
end RpcGateway
