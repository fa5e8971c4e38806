import RpcGateway.Call.Activity

/-!
# Time in a run

Only a wait lets time pass, and only a wait can cut a run short.  This module says what may end a
wait, and carries that over to whole runs.

**Waits.**  `Due` lists the moments that compete for a wait; `next?` is the earliest of them.

**Runs.**  `run_invariant` is the induction over an activity for what depends on the time and on the
cancellation only, and `cut_run` says where a run that does not finish was cut short.

**Results.**
* `now_le_run`: no run goes back in time;
* `run_le_deadline`: no run goes on past its deadline;
* `unbounded_of_stalled`: only a run without bounds waits for ever;
* `attests_run`: for a caller that leaves only when it cancels, the run knows of the cancellation
  once its time has passed, and never before it has come.
-/

namespace RpcGateway

namespace Wake

/-- The moments that may end a wait, each with what ends it then. -/
inductive Due
    (bounds : Bounds) (now : Nat) (span : Option Nat) (heeds : Bool) :
    Nat → Wake → Prop
  | cancelled {m : Nat}
      (hheeds : heeds = true) (hm : bounds.cancelsAt = some m) :
      Due bounds now span heeds (max now m) .cancelled
  | lapsed {m : Nat}
      (hm : span = some m) :
      Due bounds now span heeds (max now (Timer.lapse now m)) .lapsed
  | departed {m : Nat}
      (hm : bounds.leavesAt = some m) :
      Due bounds now span heeds (max now m) .departed
  | expired {m : Nat}
      (hm : bounds.deadline = some m) :
      Due bounds now span heeds (max now (Timer.due m)) .expired

theorem earlier_eq_some
    {a b : Option (Nat × Wake)} {x : Nat × Wake}
    (h : earlier a b = some x) :
    a = some x ∨ b = some x := by
  cases a with
  | none => exact Or.inr h
  | some a =>
      cases b with
      | none => exact Or.inl h
      | some b =>
          simp only [earlier] at h
          split at h
          · exact Or.inr h
          · exact Or.inl h

/-- The earlier of two moments comes after neither. -/
theorem exists_earlier_le
    {a b : Option (Nat × Wake)} {y : Nat × Wake}
    (hy : a = some y ∨ b = some y) :
    ∃ x, earlier a b = some x ∧ x.1 ≤ y.1 := by
  cases a with
  | none =>
      rcases hy with hy | hy
      · cases hy
      · exact ⟨y, hy, Nat.le_refl _⟩
  | some a =>
      cases b with
      | none =>
          rcases hy with hy | hy
          · exact ⟨y, hy, Nat.le_refl _⟩
          · cases hy
      | some b =>
          simp only [Option.some.injEq] at hy
          by_cases hlt : b.1 < a.1
          · refine ⟨b, by simp [earlier, hlt], ?_⟩
            rcases hy with rfl | rfl <;> omega
          · refine ⟨a, by simp [earlier, hlt], ?_⟩
            rcases hy with rfl | rfl <;> omega

/-- Every moment that is offered to a wait is due. -/
theorem due_iff
    (bounds : Bounds) (now : Nat) (span : Option Nat) (heeds : Bool)
    (t : Nat) (wake : Wake) :
    Due bounds now span heeds t wake ↔
      (if heeds then from? now .cancelled bounds.cancelsAt else none) = some (t, wake) ∨
        from? now .lapsed (span.map (Timer.lapse now)) = some (t, wake) ∨
        from? now .departed bounds.leavesAt = some (t, wake) ∨
        from? now .expired (bounds.deadline.map Timer.due) = some (t, wake) := by
  constructor
  · intro h
    cases h with
    | cancelled hheeds hm => simp [from?, hheeds, hm]
    | lapsed hm => simp [from?, hm]
    | departed hm => simp [from?, hm]
    | expired hm => simp [from?, hm]
  · rintro (h | h | h | h)
    · cases heeds with
      | false => simp at h
      | true =>
          simp only [if_true, from?, Option.map_eq_some_iff, Prod.mk.injEq] at h
          obtain ⟨m, hm, rfl, rfl⟩ := h
          exact .cancelled rfl hm
    · simp only [from?, Option.map_map, Option.map_eq_some_iff, Function.comp_apply,
        Prod.mk.injEq] at h
      obtain ⟨m, hm, rfl, rfl⟩ := h
      exact .lapsed hm
    · simp only [from?, Option.map_eq_some_iff, Prod.mk.injEq] at h
      obtain ⟨m, hm, rfl, rfl⟩ := h
      exact .departed hm
    · simp only [from?, Option.map_map, Option.map_eq_some_iff, Function.comp_apply,
        Prod.mk.injEq] at h
      obtain ⟨m, hm, rfl, rfl⟩ := h
      exact .expired hm

theorem due_of_next?
    {bounds : Bounds} {now : Nat} {span : Option Nat} {heeds : Bool}
    {t : Nat} {wake : Wake}
    (h : next? bounds now span heeds = some (t, wake)) :
    Due bounds now span heeds t wake := by
  rw [due_iff]
  rcases earlier_eq_some h with h | h
  · exact Or.inl h
  rcases earlier_eq_some h with h | h
  · exact Or.inr (Or.inl h)
  · exact Or.inr (Or.inr (earlier_eq_some h))

/-- A wait that something is due for comes to an end, and not after it. -/
theorem exists_next?_le_of_due
    {bounds : Bounds} {now : Nat} {span : Option Nat} {heeds : Bool}
    {u : Nat} {other : Wake}
    (hdue : Due bounds now span heeds u other) :
    ∃ x, next? bounds now span heeds = some x ∧ x.1 ≤ u := by
  rw [due_iff] at hdue
  rcases hdue with h | h | h
  · exact exists_earlier_le (Or.inl h)
  · obtain ⟨y, hy, hle⟩ := exists_earlier_le (Or.inl h)
    obtain ⟨x, hx, hxy⟩ := exists_earlier_le (Or.inr hy)
    exact ⟨x, hx, Nat.le_trans hxy hle⟩
  · obtain ⟨z, hz, hle⟩ := exists_earlier_le h
    obtain ⟨y, hy, hyz⟩ := exists_earlier_le (Or.inr hz)
    obtain ⟨x, hx, hxy⟩ := exists_earlier_le (Or.inr hy)
    exact ⟨x, hx, Nat.le_trans hxy (Nat.le_trans hyz hle)⟩

theorem next?_le_of_due
    {bounds : Bounds} {now : Nat} {span : Option Nat} {heeds : Bool}
    {t u : Nat} {wake other : Wake}
    (h : next? bounds now span heeds = some (t, wake))
    (hdue : Due bounds now span heeds u other) :
    t ≤ u := by
  obtain ⟨x, hx, hle⟩ := exists_next?_le_of_due hdue
  rw [h] at hx
  cases hx
  exact hle

theorem now_le_of_due
    {bounds : Bounds} {now : Nat} {span : Option Nat} {heeds : Bool}
    {t : Nat} {wake : Wake}
    (h : Due bounds now span heeds t wake) :
    now ≤ t := by
  cases h <;> exact Nat.le_max_left _ _

end Wake

/-- A run after a wait that ended at a time. -/
def Run.woken {ω : Type} (r : Run ω) (bounds : Bounds) (time : Nat) : Wake → Run ω
  | .cancelled => r.tell time
  | .lapsed => { r with now := time }
  | .departed => r.leave time bounds
  | .expired => { r with now := time }

namespace Run

variable {ω : Type}

@[simp] theorem tell_now (r : Run ω) (time : Nat) : (r.tell time).now = time := by
  unfold tell
  split <;> rfl

@[simp] theorem tell_cancelled (r : Run ω) (time : Nat) : (r.tell time).cancelled = true := by
  unfold tell
  split <;> rfl

@[simp] theorem tell_outgoing (r : Run ω) (time : Nat) : (r.tell time).outgoing = r.outgoing := by
  unfold tell
  split <;> rfl

@[simp] theorem reach_now (r : Run ω) (s : RequestState) : (r.reach s).now = r.now := rfl

@[simp] theorem reach_cancelled (r : Run ω) (s : RequestState) :
    (r.reach s).cancelled = r.cancelled := rfl

theorem leave_cancelled
    (r : Run ω) {bounds : Bounds} {m time : Nat}
    (hm : bounds.cancelsAt = some m) (hle : m ≤ time) :
    (r.leave time bounds).cancelled = true := by
  simp [leave, hm, hle]

@[simp] theorem woken_now (r : Run ω) (bounds : Bounds) (time : Nat) (wake : Wake) :
    (r.woken bounds time wake).now = time := by
  cases wake <;> simp [woken, leave]

end Run

/-- Where a run was cut short, if it does not finish. -/
inductive Cut {ω α : Type} (bounds : Bounds) : Ending α → Run ω → Prop
  | finished (value : α) (r : Run ω) :
      Cut bounds (.finished value) r
  | departed {r : Run ω} {span : Option Nat} {heeds : Bool} {t : Nat}
      (h : Wake.next? bounds r.now span heeds = some (t, .departed)) :
      Cut bounds .departed (r.woken bounds t .departed)
  | expired {r : Run ω} {span : Option Nat} {heeds : Bool} {t : Nat}
      (h : Wake.next? bounds r.now span heeds = some (t, .expired)) :
      Cut bounds .expired (r.woken bounds t .expired)
  | stalled {r : Run ω} {span : Option Nat} {heeds : Bool}
      (h : Wake.next? bounds r.now span heeds = none) :
      Cut bounds .stalled r

namespace Activity

variable {ω α : Type}

/-- What follows a wait that ended at a time. -/
def resume (bounds : Bounds) (next : Bool → Activity ω α) (r : Run ω) (time : Nat) :
    Wake → Ending α × Run ω
  | .cancelled => (next true).run bounds (r.woken bounds time .cancelled)
  | .lapsed => (next false).run bounds (r.woken bounds time .lapsed)
  | .departed => (.departed, r.woken bounds time .departed)
  | .expired => (.expired, r.woken bounds time .expired)

/-- A wait goes on at the moment that ends it, or the run is cut short there. -/
theorem run_wait
    {bounds : Bounds} {span : Option Nat} {heeds : Bool} {r : Run ω}
    {t : Nat} {wake : Wake}
    (h : Wake.next? bounds r.now span heeds = some (t, wake))
    (next : Bool → Activity ω α) :
    (wait span heeds next).run bounds r = resume bounds next r t wake := by
  rw [run, h]
  cases wake <;> rfl

/-- What depends on the time and the cancellation only and outlasts every wait holds at the end of
a run. -/
theorem run_invariant
    {bounds : Bounds} {I : Nat → Bool → Prop}
    (hwake : ∀ (r : Run ω) (span : Option Nat) (heeds : Bool) (t : Nat) (wake : Wake),
      I r.now r.cancelled →
      Wake.next? bounds r.now span heeds = some (t, wake) →
      I (r.woken bounds t wake).now (r.woken bounds t wake).cancelled)
    (a : Activity ω α) (r : Run ω)
    (h : I r.now r.cancelled) :
    I (a.run bounds r).2.now (a.run bounds r).2.cancelled := by
  induction a generalizing r with
  | done value => exact h
  | wait span heeds next ih =>
      cases hn : Wake.next? bounds r.now span heeds with
      | none =>
          rw [run, hn]
          exact h
      | some x =>
          obtain ⟨t, wake⟩ := x
          have hw := hwake r span heeds t wake h hn
          rw [run_wait hn]
          cases wake with
          | cancelled => exact ih true _ hw
          | lapsed => exact ih false _ hw
          | departed => exact hw
          | expired => exact hw
  | clock next ih => exact ih _ r h
  | record added next ih => exact ih _ h
  | take next ih => exact ih _ _ h
  | act change next ih => exact ih _ _ h
  | watch change next ih => exact ih _ h
  | note mark next ih => exact ih _ h

/-- A run that does not finish is cut short in a wait. -/
theorem cut_run
    (bounds : Bounds) (a : Activity ω α) (r : Run ω) :
    Cut bounds (a.run bounds r).1 (a.run bounds r).2 := by
  induction a generalizing r with
  | done value => exact .finished value r
  | wait span heeds next ih =>
      cases hn : Wake.next? bounds r.now span heeds with
      | none =>
          rw [run, hn]
          exact .stalled hn
      | some x =>
          obtain ⟨t, wake⟩ := x
          rw [run_wait hn]
          cases wake with
          | cancelled => exact ih true _
          | lapsed => exact ih false _
          | departed => exact .departed hn
          | expired => exact .expired hn
  | clock next ih => exact ih _ r
  | record added next ih => exact ih _
  | take next ih => exact ih _ _
  | act change next ih => exact ih _ _
  | watch change next ih => exact ih _
  | note mark next ih => exact ih _

theorem now_le_run
    (bounds : Bounds) (a : Activity ω α) (r : Run ω) :
    r.now ≤ (a.run bounds r).2.now := by
  refine run_invariant (I := fun now _ => r.now ≤ now) ?_ a r (Nat.le_refl _)
  intro s span heeds t wake hs hn
  rw [Run.woken_now]
  exact Nat.le_trans hs (Wake.now_le_of_due (Wake.due_of_next? hn))

theorem run_le_deadline
    {bounds : Bounds} {deadline : Nat}
    (hd : bounds.deadline = some deadline)
    (a : Activity ω α) (r : Run ω) :
    (a.run bounds r).2.now ≤ max r.now (Timer.due deadline) := by
  refine run_invariant (I := fun now _ => now ≤ max r.now (Timer.due deadline)) ?_ a r
    (Nat.le_max_left _ _)
  intro s span heeds t wake hs hn
  have hle := Wake.next?_le_of_due hn (Wake.Due.expired hd)
  rw [Run.woken_now]
  omega

theorem unbounded_of_stalled
    {bounds : Bounds} {a : Activity ω α} {r s : Run ω}
    (h : a.run bounds r = (.stalled, s)) :
    bounds.leavesAt = none ∧ bounds.deadline = none := by
  have hcut := cut_run bounds a r
  rw [h] at hcut
  cases hcut with
  | @stalled _ span heeds hn =>
      have hnever : ∀ (u : Nat) (wake : Wake), ¬ Wake.Due bounds s.now span heeds u wake := by
        intro u wake hdue
        obtain ⟨x, hx, -⟩ := Wake.exists_next?_le_of_due hdue
        rw [hn] at hx
        cases hx
      constructor
      · cases hl : bounds.leavesAt with
        | none => rfl
        | some m => exact absurd (Wake.Due.departed hl) (hnever _ _)
      · cases hd : bounds.deadline with
        | none => rfl
        | some m => exact absurd (Wake.Due.expired hd) (hnever _ _)

/-!
## Callers that leave only by cancelling
-/

/-- What a run knows of a cancellation: it has come when the run knows of it, and the run knows of
it when its moment has passed. -/
structure Attests (moment : Option Nat) (now : Nat) (cancelled : Bool) : Prop where
  come : cancelled = true → ∃ t, moment = some t ∧ t ≤ now
  told : ∀ t, moment = some t → t < now → cancelled = true

/-- A wait that does not end by the cancellation ends no later than it comes. -/
theorem Attests.later
    {bounds : Bounds} {now : Nat} {span : Option Nat} {heeds : Bool} {cancelled : Bool}
    {t : Nat} {wake : Wake}
    (h : Attests bounds.cancelsAt now cancelled)
    (hleave : bounds.leavesAt = bounds.cancelsAt)
    (hn : Wake.next? bounds now span heeds = some (t, wake)) :
    Attests bounds.cancelsAt t cancelled := by
  have hnow := Wake.now_le_of_due (Wake.due_of_next? hn)
  constructor
  · intro hc
    obtain ⟨m, hm, hle⟩ := h.come hc
    exact ⟨m, hm, Nat.le_trans hle hnow⟩
  · intro m hm hlt
    have hmax := Wake.next?_le_of_due hn (Wake.Due.departed (hleave.trans hm))
    exact h.told m hm (by omega)

/-- What a run knows of the cancellation stays true. -/
theorem attests_run
    {bounds : Bounds}
    (hleave : bounds.leavesAt = bounds.cancelsAt)
    (a : Activity ω α) (r : Run ω)
    (h : Attests bounds.cancelsAt r.now r.cancelled) :
    Attests bounds.cancelsAt (a.run bounds r).2.now (a.run bounds r).2.cancelled := by
  refine run_invariant (I := Attests bounds.cancelsAt) ?_ a r h
  intro s span heeds t wake hs hn
  have hdue := Wake.due_of_next? hn
  have hlater := hs.later hleave hn
  rw [Run.woken_now]
  cases hdue with
  | @cancelled m _ hm =>
      refine ⟨fun _ => ⟨m, hm, Nat.le_max_right _ _⟩, fun _ _ _ => ?_⟩
      exact Run.tell_cancelled _ _
  | lapsed => exact hlater
  | @departed m hm =>
      rw [hleave] at hm
      refine ⟨fun _ => ⟨m, hm, Nat.le_max_right _ _⟩, fun _ _ _ => ?_⟩
      exact Run.leave_cancelled s hm (Nat.le_max_right _ _)
  | expired => exact hlater

theorem cancelled_of_departed
    {bounds : Bounds} {a : Activity ω α} {r s : Run ω}
    (hleave : bounds.leavesAt = bounds.cancelsAt)
    (h : a.run bounds r = (.departed, s)) :
    s.cancelled = true := by
  have hcut := cut_run bounds a r
  rw [h] at hcut
  cases hcut with
  | @departed s' span heeds t hn =>
      have hdue := Wake.due_of_next? hn
      cases hdue with
      | @departed m hm =>
          rw [hleave] at hm
          exact Run.leave_cancelled s' hm (Nat.le_max_right _ _)

end Activity
end RpcGateway
