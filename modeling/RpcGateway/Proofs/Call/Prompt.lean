import RpcGateway.Proofs.Call.Race
import RpcGateway.Proofs.Call.Sequence

/-!
# Activities that take no time

An activity is prompt if it never waits for more than no time.  Nothing can cut it short.

**Hanging.**  A hanging activity waits for the cancellation and is prompt otherwise.  Its first step
after the cancellation is an entry in the journal, by which one sees that it was told.

**Results.**
* `Prompt.run_finishes`: a prompt run ends at the time at which it begins, whatever its bounds;
* `Hanging.run_observes`: a hanging run ends when the call is cancelled, and makes its entry then.
-/

namespace RpcGateway

variable {ω α : Type}

namespace Run

/-- A run goes on to another without time passing and without a cancellation being forgotten. -/
structure Continues (r s : Run ω) : Prop where
  now : s.now = r.now
  cancelled : r.cancelled = true → s.cancelled = true
  journal : r.journal <+: s.journal

/-- A run goes on to another in which the call is cancelled, at a time, and makes an entry on the
way. -/
structure Observes (entry : Mark) (time : Nat) (r s : Run ω) : Prop where
  now : s.now = time
  cancelled : s.cancelled = true
  journal : ∃ before behind, s.journal = r.journal ++ before ++ entry :: behind

variable {r s t : Run ω}

theorem Continues.refl (r : Run ω) : r.Continues r where
  now := rfl
  cancelled h := h
  journal := List.prefix_rfl

theorem Continues.trans
    (h : r.Continues s) (h' : s.Continues t) :
    r.Continues t where
  now := h'.now.trans h.now
  cancelled hr := h'.cancelled (h.cancelled hr)
  journal := h.journal.trans h'.journal

/-- Only the time, the cancellation and the journal matter. -/
theorem Continues.of_eq
    (h : s.Continues t) (hnow : s.now = r.now) (hcancelled : s.cancelled = r.cancelled)
    (hjournal : s.journal = r.journal) :
    r.Continues t where
  now := h.now.trans hnow
  cancelled hr := h.cancelled (hcancelled.trans hr)
  journal := hjournal ▸ h.journal

theorem continues_mark (r : Run ω) (m : Mark) : r.Continues (r.mark m) where
  now := rfl
  cancelled h := h
  journal := List.prefix_append _ _

theorem tell_journal (r : Run ω) (time : Nat) : (r.tell time).journal = r.journal := by
  unfold tell
  split <;> rfl

theorem continues_tell (r : Run ω) : r.Continues (r.tell r.now) where
  now := r.tell_now r.now
  cancelled _ := r.tell_cancelled r.now
  journal := r.tell_journal r.now ▸ List.prefix_rfl

theorem Observes.of_continues
    {entry : Mark} {time : Nat}
    (h : r.Continues s) (h' : Observes entry time s t) :
    Observes entry time r t := by
  obtain ⟨added, hadded⟩ := h.journal
  obtain ⟨before, behind, hjournal⟩ := h'.journal
  refine ⟨h'.now, h'.cancelled, added ++ before, behind, ?_⟩
  simp only [hjournal, ← hadded, List.append_assoc]

theorem Observes.continues
    {entry : Mark} {time : Nat}
    (h : Observes entry time r s) (h' : s.Continues t) :
    Observes entry time r t := by
  obtain ⟨before, behind, hjournal⟩ := h.journal
  obtain ⟨added, hadded⟩ := h'.journal
  refine ⟨h'.now.trans h.now, h'.cancelled h.cancelled, before, behind ++ added, ?_⟩
  rw [← hadded, hjournal, List.append_assoc, List.cons_append]

end Run

namespace Wake

variable {bounds : Bounds} {now : Nat}

/-- Nothing ends a wait before it begins. -/
theorem now_le_of_next?
    {span : Option Nat} {heeds : Bool} {y : Nat × Wake}
    (h : next? bounds now span heeds = some y) :
    now ≤ y.1 := by
  obtain ⟨t, wake⟩ := y
  exact now_le_of_due (due_of_next? h)

/-- A token that has fired ends every wait that heeds it at once. -/
theorem next?_of_fired
    {time : Nat}
    (hcancels : bounds.cancelsAt = some time) (hfired : time ≤ now) (span : Option Nat) :
    next? bounds now span true = some (now, .cancelled) := by
  rw [next?_of_heeding, hcancels, from?, Option.map_some, Nat.max_eq_left hfired]
  exact earlier_eq_left fun y hy => now_le_of_next? hy

/-- A wait of no time is over at once, be it that the call is found cancelled. -/
theorem next?_zero
    (bounds : Bounds) (now : Nat) (heeds : Bool) :
    next? bounds now (some 0) heeds = some (now, .lapsed) ∨
    next? bounds now (some 0) heeds = some (now, .cancelled) := by
  have hlapsed : next? bounds now (some 0) false = some (now, .lapsed) := by
    refine next?_of_lapse_le fun t other hstop => ?_
    have hnext : next? bounds now none false = some (t, other) := hstop
    exact now_le_of_next? hnext
  cases heeds with
  | false => exact Or.inl hlapsed
  | true =>
      cases hcancels : bounds.cancelsAt with
      | none =>
          refine Or.inl ?_
          rw [next?_of_heeding, hcancels, hlapsed]
          rfl
      | some m =>
          by_cases hfired : m ≤ now
          · exact Or.inr (next?_of_fired hcancels hfired _)
          · refine Or.inl ?_
            rw [next?_of_heeding, hcancels, hlapsed]
            refine earlier_eq_right fun x hx => ?_
            obtain rfl := Option.some.inj hx
            exact Nat.lt_of_lt_of_le (Nat.not_le.mp hfired) (Nat.le_max_right _ _)

end Wake

namespace Activity

/-- An activity that never waits for more than no time. -/
abbrev Prompt (a : Activity ω α) : Prop :=
  a.Waits fun span _ => span = some 0

/-- An activity that waits until the call is cancelled, makes an entry then, and takes no time
before and after. -/
inductive Hanging (entry : Mark) : Activity ω α → Prop
  | behind {β : Type} {before : Activity ω β} {next : β → Bool → Activity ω α}
      (hbefore : before.Prompt)
      (h : ∀ value cancelled, (next value cancelled).Prompt) :
      Hanging entry
        (before.bind fun value =>
          .wait none true fun cancelled => .note entry (next value cancelled))

theorem hanging_wait
    {entry : Mark} {next : Bool → Activity ω α}
    (h : ∀ cancelled, (next cancelled).Prompt) :
    Hanging entry (.wait none true fun cancelled => .note entry (next cancelled)) := by
  have hbehind : ∀ (_ : Unit) cancelled, (next cancelled).Prompt := fun _ => h
  exact .behind (.done ()) hbehind

/-- A wait of no time goes on at once. -/
theorem exists_run_look
    (bounds : Bounds) (heeds : Bool) (next : Bool → Activity ω α) (r : Run ω) :
    ∃ cancelled s,
      r.Continues s ∧
      (wait (some 0) heeds next).run bounds r = (next cancelled).run bounds s := by
  rcases Wake.next?_zero bounds r.now heeds with hnext | hnext
  · refine ⟨false, r, .refl r, ?_⟩
    rw [run_wait hnext]
    rfl
  · refine ⟨true, r.tell r.now, r.continues_tell, ?_⟩
    rw [run_wait hnext]
    rfl

theorem Prompt.run_finishes
    {a : Activity ω α}
    (h : a.Prompt) (bounds : Bounds) (r : Run ω) :
    ∃ value s, a.run bounds r = (.finished value, s) ∧ r.Continues s := by
  induction h generalizing r with
  | done value => exact ⟨value, r, rfl, .refl r⟩
  | @wait span heeds next hspan _ ih =>
      subst hspan
      obtain ⟨cancelled, t, hstep, hrun⟩ := exists_run_look bounds heeds next r
      obtain ⟨value, s, hrest, hcontinues⟩ := ih cancelled t
      exact ⟨value, s, hrun.trans hrest, hstep.trans hcontinues⟩
  | clock _ ih => exact ih _ r
  | @record added _ _ ih =>
      obtain ⟨value, s, hrun, hcontinues⟩ := ih { r with outgoing := r.outgoing.merge added }
      exact ⟨value, s, hrun, hcontinues.of_eq rfl rfl rfl⟩
  | take _ ih =>
      obtain ⟨value, s, hrun, hcontinues⟩ := ih r.outgoing { r with outgoing := .empty }
      exact ⟨value, s, hrun, hcontinues.of_eq rfl rfl rfl⟩
  | @act change _ _ ih =>
      obtain ⟨value, s, hrun, hcontinues⟩ :=
        ih (change r.world) { r with world := change r.world }
      exact ⟨value, s, hrun, hcontinues.of_eq rfl rfl rfl⟩
  | @watch change _ _ ih =>
      obtain ⟨value, s, hrun, hcontinues⟩ := ih { r with watchers := r.watchers ++ [change] }
      exact ⟨value, s, hrun, hcontinues.of_eq rfl rfl rfl⟩
  | @note mark _ _ ih =>
      obtain ⟨value, s, hrun, hcontinues⟩ := ih (r.mark mark)
      exact ⟨value, s, hrun, (r.continues_mark mark).trans hcontinues⟩

theorem Hanging.run_observes
    {entry : Mark} {bounds : Bounds} {time : Nat} {a : Activity ω α}
    (h : a.Hanging entry)
    (hcancels : bounds.cancelsAt = some time) (hleaves : bounds.leavesAt = some time)
    (hdeadline : ∀ d, bounds.deadline = some d → time ≤ Timer.due d)
    (r : Run ω) (hr : r.now ≤ time) :
    ∃ value s, a.run bounds r = (.finished value, s) ∧ Run.Observes entry time r s := by
  obtain @⟨β, before, next, hbefore, hnext⟩ := h
  obtain ⟨value, s, hrun, hcontinues⟩ := hbefore.run_finishes bounds r
  have hs : s.now ≤ time := hcontinues.now ▸ hr
  have hwake : Wake.next? bounds s.now none true = some (time, .cancelled) := by
    rw [Wake.next?_of_heeding, hcancels, Wake.from?, Option.map_some, Nat.max_eq_right hs]
    refine Wake.earlier_eq_left fun y hy => ?_
    exact Bounds.le_of_stop? (fun m hm => (Option.some.inj (hleaves.symm.trans hm)).le)
      hdeadline hy
  have htold : Run.Observes entry time s ((s.tell time).mark entry) := by
    refine ⟨s.tell_now time, s.tell_cancelled time, [], [], ?_⟩
    simp [Run.mark, Run.tell_journal]
  obtain ⟨result, t, hrest, hbehind⟩ :=
    (hnext value true).run_finishes bounds ((s.tell time).mark entry)
  refine ⟨result, t, ?_, (htold.continues hbehind).of_continues hcontinues⟩
  rw [run_bind_of_finished hrun, run_wait hwake]
  exact hrest

end Activity
end RpcGateway
