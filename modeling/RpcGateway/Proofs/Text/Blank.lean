import Mathlib.Data.List.DropRight
import RpcGateway.Text.Ascii
import RpcGateway.Text.Blank

/-!
# Trimmed text

**Trimming.**  A text is `Trimmed` if no blank stands at either end.  `trim_eq_iff` says that
trimming takes away the blanks at both ends and nothing else.

**Letter case.**  Lower case turns no character into a blank and no blank into anything else, so it
does not matter whether a text is trimmed or put into lower case first (`trim_map_toLower`).
-/

namespace RpcGateway
namespace Blank

/-- No blank stands at either end of a text. -/
structure Trimmed (cs : List Char) : Prop where
  first : ∀ c ∈ cs.head?, isBlank c = false
  last : ∀ c ∈ cs.getLast?, isBlank c = false

theorem trimStart_append
    {front : List Char}
    (h : ∀ c ∈ front, isBlank c = true) (cs : List Char) :
    trimStart (front ++ cs) = trimStart cs :=
  List.dropWhile_append_of_pos h

theorem trimEnd_append
    {behind : List Char}
    (h : ∀ c ∈ behind, isBlank c = true) (cs : List Char) :
    trimEnd (cs ++ behind) = trimEnd cs := by
  have hreverse : ∀ c ∈ behind.reverse, isBlank c = true := fun c hc =>
    h c (List.mem_reverse.mp hc)
  rw [trimEnd, trimEnd, List.reverse_append, List.dropWhile_append_of_pos hreverse]

theorem trimStart_of_first
    {cs : List Char}
    (h : ∀ c ∈ cs.head?, isBlank c = false) :
    trimStart cs = cs := by
  cases cs with
  | nil => rfl
  | cons c rest => simp [trimStart, h c rfl]

theorem trimEnd_of_last
    {cs : List Char}
    (h : ∀ c ∈ cs.getLast?, isBlank c = false) :
    trimEnd cs = cs := by
  have hfirst : ∀ c ∈ cs.reverse.head?, isBlank c = false := by
    rw [List.head?_reverse]
    exact h
  have hreverse : cs.reverse.dropWhile isBlank = cs.reverse := trimStart_of_first hfirst
  rw [trimEnd, hreverse, List.reverse_reverse]

/-- Blanks around a trimmed text are taken away, and nothing else. -/
theorem trim_of_blanks
    {front core behind : List Char}
    (hfront : ∀ c ∈ front, isBlank c = true) (hbehind : ∀ c ∈ behind, isBlank c = true)
    (h : Trimmed core) :
    trim (front ++ core ++ behind) = core := by
  rw [trim, List.append_assoc, trimStart_append hfront]
  cases core with
  | nil =>
      have hgone : trimStart behind = [] := List.dropWhile_eq_nil_iff.mpr hbehind
      rw [List.nil_append, hgone]
      rfl
  | cons c rest =>
      have hfirst : ∀ c' ∈ (c :: rest ++ behind).head?, isBlank c' = false := h.first
      rw [trimStart_of_first hfirst, trimEnd_append hbehind, trimEnd_of_last h.last]

/-- Whatever a text is, it is its trimmed form between blanks. -/
theorem exists_blanks_trim (cs : List Char) :
    Trimmed (trim cs) ∧ ∃ front behind,
      cs = front ++ trim cs ++ behind ∧
      (∀ c ∈ front, isBlank c = true) ∧ ∀ c ∈ behind, isBlank c = true := by
  have hend : trimStart cs = trim cs ++ (trimStart cs).rtakeWhile isBlank :=
    List.rdropWhile_append_rtakeWhile.symm
  refine ⟨⟨fun c hc => ?_, fun c hc => ?_⟩, cs.takeWhile isBlank,
    (trimStart cs).rtakeWhile isBlank, ?_, ?_, ?_⟩
  · -- what comes first is what comes first behind the blanks in front
    obtain ⟨rest, hrest⟩ := List.head?_eq_some_iff.mp hc
    rw [hrest, List.cons_append] at hend
    have hnot := List.head?_dropWhile_not isBlank cs
    rw [← trimStart, hend] at hnot
    simpa using hnot
  · obtain ⟨hne, rfl⟩ := List.mem_getLast?_eq_getLast hc
    exact Bool.eq_false_iff.mpr (List.rdropWhile_last_not isBlank (trimStart cs) hne)
  · rw [List.append_assoc, ← hend]
    exact List.takeWhile_append_dropWhile.symm
  · exact fun c hc => List.mem_takeWhile_imp hc
  · exact fun c hc => List.mem_rtakeWhile_imp hc

theorem trim_eq_iff
    {cs core : List Char} :
    trim cs = core ↔
      Trimmed core ∧ ∃ front behind,
        cs = front ++ core ++ behind ∧
        (∀ c ∈ front, isBlank c = true) ∧ ∀ c ∈ behind, isBlank c = true := by
  constructor
  · rintro rfl
    exact exists_blanks_trim cs
  · rintro ⟨htrimmed, front, behind, rfl, hfront, hbehind⟩
    exact trim_of_blanks hfront hbehind htrimmed

theorem isBlank_of_isAlpha
    {c : Char}
    (h : c.isAlpha = true) :
    isBlank c = false := by
  have hletter : (65 ≤ c.toNat ∧ c.toNat ≤ 90) ∨ (97 ≤ c.toNat ∧ c.toNat ≤ 122) := by
    rw [← Ascii.isUpper_iff, ← Ascii.isLower_iff]
    exact Bool.or_eq_true_iff.mp h
  simp only [isBlank, Bool.or_eq_false_iff, Bool.and_eq_false_iff, decide_eq_false_iff_not,
    beq_eq_false_iff_ne]
  omega

theorem isBlank_of_isDigit
    {c : Char}
    (h : c.isDigit = true) :
    isBlank c = false := by
  have hrange := Char.isDigit_iff_toNat.mp h
  have hzero : '0'.toNat = 48 := rfl
  have hnine : '9'.toNat = 57 := rfl
  simp only [isBlank, Bool.or_eq_false_iff, Bool.and_eq_false_iff, decide_eq_false_iff_not,
    beq_eq_false_iff_ne]
  omega

/-- Blanks have no letter case. -/
theorem isBlank_toLower (c : Char) : isBlank c.toLower = isBlank c := by
  rcases Ascii.toLower_cases c with ⟨hupper, hlower⟩ | ⟨-, hsame⟩
  · rw [isBlank_of_isAlpha (Bool.or_eq_true_iff.mpr (.inr hlower)),
      isBlank_of_isAlpha (Bool.or_eq_true_iff.mpr (.inl hupper))]
  · rw [hsame]

theorem trim_map_toLower (cs : List Char) :
    trim (cs.map Char.toLower) = (trim cs).map Char.toLower := by
  have hblank : (isBlank ∘ Char.toLower) = isBlank := funext isBlank_toLower
  simp only [trim, trimEnd, trimStart, List.dropWhile_map, ← List.map_reverse, hblank]

end Blank
end RpcGateway
