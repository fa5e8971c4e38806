import RpcGateway.Proofs.Call.Sequence

/-!
# Annotated runs

An activity cannot read the journal, so entries that are put into it make no other difference.

**Annotation.**  A run is `Annotated` by one that has more entries in its journal and is otherwise
the same.  An activity is annotated by another if the other comes to the same end and leaves an
annotated run, whatever annotated run it is carried out on.

**Results.**  Every activity annotates itself, entries may be put in anywhere, and annotated
activities can be put in sequence.
-/

namespace RpcGateway

variable {ω α β : Type}

/-- A second run is as a first one, but for further entries in its journal. -/
def Run.Annotated (r s : Run ω) : Prop :=
  ∃ journal, r.journal.Sublist journal ∧ s = { r with journal := journal }

namespace Run

theorem annotated_mark (r : Run ω) (m : Mark) :
    r.Annotated (r.mark m) :=
  ⟨r.journal ++ [m], List.sublist_append_left _ _, rfl⟩

theorem Annotated.trans
    {r s t : Run ω}
    (h : r.Annotated s) (h' : s.Annotated t) :
    r.Annotated t := by
  obtain ⟨journal, hj, rfl⟩ := h
  obtain ⟨journal', hj', rfl⟩ := h'
  exact ⟨journal', hj.trans hj', rfl⟩

theorem Annotated.tell
    {r s : Run ω}
    (h : r.Annotated s) (time : Nat) :
    (r.tell time).Annotated (s.tell time) := by
  obtain ⟨journal, hj, rfl⟩ := h
  refine ⟨journal, ?_, ?_⟩
  · simp only [Run.tell]
    split
    · exact hj
    · exact hj
  · simp only [Run.tell]
    split
    · rfl
    · rfl

end Run

namespace Activity

/-- A second activity does what a first one does, and makes further entries in the journal. -/
def Annotated (a b : Activity ω α) : Prop :=
  ∀ bounds (r s : Run ω), r.Annotated s →
    (b.run bounds s).1 = (a.run bounds r).1 ∧ (a.run bounds r).2.Annotated (b.run bounds s).2

/-- The journal is not read. -/
theorem Annotated.refl (a : Activity ω α) : a.Annotated a := by
  intro bounds r s h
  induction a generalizing r s with
  | done value => exact ⟨rfl, h⟩
  | wait span heeds next ih =>
      have hnow : s.now = r.now := by
        obtain ⟨journal, -, rfl⟩ := h
        rfl
      simp only [run, hnow]
      cases Wake.next? bounds r.now span heeds with
      | none => exact ⟨rfl, h⟩
      | some due =>
          obtain ⟨t, wake⟩ := due
          cases wake with
          | cancelled => exact ih true _ _ (h.tell t)
          | lapsed =>
              obtain ⟨journal, hj, rfl⟩ := h
              exact ih false _ _ ⟨journal, hj, rfl⟩
          | departed =>
              obtain ⟨journal, hj, rfl⟩ := h
              exact ⟨rfl, journal, hj, rfl⟩
          | expired =>
              obtain ⟨journal, hj, rfl⟩ := h
              exact ⟨rfl, journal, hj, rfl⟩
  | clock next ih =>
      obtain ⟨journal, hj, rfl⟩ := h
      exact ih _ _ _ ⟨journal, hj, rfl⟩
  | record added next ih =>
      obtain ⟨journal, hj, rfl⟩ := h
      exact ih _ _ ⟨journal, hj, rfl⟩
  | take next ih =>
      obtain ⟨journal, hj, rfl⟩ := h
      exact ih _ _ _ ⟨journal, hj, rfl⟩
  | act change next ih =>
      obtain ⟨journal, hj, rfl⟩ := h
      exact ih _ _ _ ⟨journal, hj, rfl⟩
  | watch change next ih =>
      obtain ⟨journal, hj, rfl⟩ := h
      exact ih _ _ ⟨journal, hj, rfl⟩
  | note mark next ih =>
      obtain ⟨journal, hj, rfl⟩ := h
      exact ih _ _ ⟨journal ++ [mark], hj.append (List.Sublist.refl _), rfl⟩

theorem Annotated.note
    {a b : Activity ω α}
    (h : a.Annotated b) (mark : Mark) :
    (Activity.note mark a).Annotated (.note mark b) := by
  rintro bounds r _ ⟨journal, hj, rfl⟩
  exact h bounds _ _ ⟨journal ++ [mark], hj.append (List.Sublist.refl _), rfl⟩

/-- An entry may be put in. -/
theorem Annotated.put
    {a b : Activity ω α}
    (h : a.Annotated b) (mark : Mark) :
    a.Annotated (.note mark b) :=
  fun bounds r s hrs => h bounds r (s.mark mark) (hrs.trans (s.annotated_mark mark))

theorem Annotated.bind
    {a b : Activity ω α} {f g : α → Activity ω β}
    (h : a.Annotated b) (hf : ∀ value, (f value).Annotated (g value)) :
    (a.bind f).Annotated (b.bind g) := by
  intro bounds r s hrs
  obtain ⟨hending, hrun⟩ := h bounds r s hrs
  rw [run_bind, run_bind]
  generalize a.run bounds r = done at hending hrun ⊢
  generalize b.run bounds s = done' at hending hrun ⊢
  obtain ⟨ending, t⟩ := done
  obtain ⟨ending', t'⟩ := done'
  cases hending
  cases ending with
  | finished value => exact hf value bounds t t' hrun
  | departed => exact ⟨rfl, hrun⟩
  | expired => exact ⟨rfl, hrun⟩
  | stalled => exact ⟨rfl, hrun⟩

end Activity
end RpcGateway
