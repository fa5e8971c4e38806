import Mathlib.Data.List.TakeWhile
import RpcGateway.Http.Uri

/-!
# The path of a request target

A request target is a path, or a full URI with a scheme and an authority in front of the path.  A
query and a fragment stand behind the path and are no part of it.

**Splitting.**  Every part ends at the first character of a class (`takeWhile_of_split`), so a
target can be split in one way only.

**Result.**  `hasPath_iff`: every target has exactly one path, and `targetPath` gives it.
-/

namespace RpcGateway
namespace Uri

/-- What stands behind a path: a query or a fragment with its mark, or nothing. -/
def IsTail (cs : List Char) : Prop :=
  ∀ c ∈ cs.head?, endsPath c = true

/-- A text begins with a scheme and its mark, and has the rest of a full URI behind them. -/
def Full (cs rest : List Char) : Prop :=
  ∃ scheme, (∀ c ∈ scheme, isSchemeChar c = true) ∧ cs = scheme ++ ':' :: '/' :: '/' :: rest

/-- The path of a request target. -/
inductive HasPath : List Char → List Char → Prop
  | alone {path tail : List Char}
      (hfull : ∀ rest, ¬ Full (path ++ tail) rest) (hpath : ∀ c ∈ path, endsPath c = false)
      (htail : IsTail tail) :
      HasPath (path ++ tail) path
  | behind {target authority path tail : List Char}
      (hfull : Full target (authority ++ ('/' :: path ++ tail)))
      (hauthority : ∀ c ∈ authority, endsAuthority c = false)
      (hpath : ∀ c ∈ path, endsPath c = false) (htail : IsTail tail) :
      HasPath target ('/' :: path)
  /-- A full URI without a path has the root as its path. -/
  | root {target authority tail : List Char}
      (hfull : Full target (authority ++ tail))
      (hauthority : ∀ c ∈ authority, endsAuthority c = false) (htail : IsTail tail) :
      HasPath target ['/']

section Splitting

variable {stops : Char → Bool} {front behind : List Char}

theorem takeWhile_of_split
    (hfront : ∀ c ∈ front, stops c = false) (hbehind : ∀ c ∈ behind.head?, stops c = true) :
    (front ++ behind).takeWhile (fun c => !stops c) = front := by
  have hstop : behind.takeWhile (fun c => !stops c) = [] := by
    cases behind with
    | nil => rfl
    | cons c rest => simp [hbehind c rfl]
  rw [List.takeWhile_append_of_pos fun c hc => by simp [hfront c hc], hstop, List.append_nil]

theorem dropWhile_of_split
    (hfront : ∀ c ∈ front, stops c = false) (hbehind : ∀ c ∈ behind.head?, stops c = true) :
    (front ++ behind).dropWhile (fun c => !stops c) = behind := by
  rw [List.dropWhile_append_of_pos fun c hc => by simp [hfront c hc]]
  cases behind with
  | nil => rfl
  | cons c rest => simp [hbehind c rfl]

theorem exists_split (stops : Char → Bool) (cs : List Char) :
    ∃ front behind, cs = front ++ behind ∧
      (∀ c ∈ front, stops c = false) ∧ ∀ c ∈ behind.head?, stops c = true := by
  refine ⟨_, _, (List.takeWhile_append_dropWhile (p := fun c => !stops c)).symm,
    fun c hc => ?_, fun c hc => ?_⟩
  · simpa using List.mem_takeWhile_imp hc
  · have hnot := List.head?_dropWhile_not (fun c => !stops c) cs
    rw [hc] at hnot
    simpa using hnot

end Splitting

theorem afterScheme?_eq_some_iff
    {cs rest : List Char} :
    afterScheme? cs = some rest ↔ Full cs rest := by
  constructor
  · intro h
    unfold afterScheme? at h
    split at h
    next hmark =>
      cases h
      refine ⟨cs.takeWhile isSchemeChar, fun c hc => List.mem_takeWhile_imp hc, ?_⟩
      rw [← hmark, List.takeWhile_append_dropWhile]
    next => cases h
  · rintro ⟨scheme, hscheme, rfl⟩
    have hmark : isSchemeChar ':' = false := rfl
    simp [afterScheme?, List.dropWhile_append_of_pos hscheme, hmark]

/-- A text that begins with a path is no full URI. -/
theorem afterScheme?_slash (cs : List Char) :
    afterScheme? ('/' :: cs) = none := by
  have hslash : isSchemeChar '/' = false := rfl
  simp [afterScheme?, hslash]

theorem targetPath_of_full
    {target : String} {authority rest : List Char}
    (h : Full target.toList (authority ++ rest))
    (hauthority : ∀ c ∈ authority, endsAuthority c = false)
    (hrest : ∀ c ∈ rest.head?, endsAuthority c = true) :
    (targetPath target).toList = if pathOf rest = [] then ['/'] else pathOf rest := by
  have hafter := afterScheme?_eq_some_iff.mpr h
  have hslash : target.toList.head? ≠ some '/' := by
    intro hslash
    obtain ⟨cs, hcs⟩ := List.head?_eq_some_iff.mp hslash
    rw [hcs, afterScheme?_slash] at hafter
    cases hafter
  have hclass : (fun c => c != '/' && !endsPath c) = fun c => !endsAuthority c := by
    funext c
    simp [endsAuthority, bne]
  unfold targetPath
  simp only [if_neg hslash, hafter, hclass, dropWhile_of_split hauthority hrest]
  cases pathOf rest with
  | nil => rfl
  | cons c cs => simp

theorem targetPath_of_not_full
    {target : String}
    (h : ∀ rest, ¬ Full target.toList rest) :
    (targetPath target).toList = pathOf target.toList := by
  have hafter : afterScheme? target.toList = none := by
    cases hafter : afterScheme? target.toList with
    | none => rfl
    | some rest => exact absurd (afterScheme?_eq_some_iff.mp hafter) (h rest)
  unfold targetPath
  simp only [hafter, ite_self, String.toList_ofList]

theorem IsTail.endsAuthority
    {tail : List Char}
    (h : IsTail tail) :
    ∀ c ∈ tail.head?, endsAuthority c = true := by
  intro c hc
  simp [Uri.endsAuthority, h c hc]

/-- The path of a target is the only one that it has. -/
theorem HasPath.targetPath_eq
    {target : String} {path : List Char}
    (h : HasPath target.toList path) :
    (targetPath target).toList = path := by
  generalize htarget : target.toList = cs at h
  cases h with
  | alone hfull hpath htail =>
      rw [← htarget] at hfull
      rw [targetPath_of_not_full hfull, htarget]
      exact takeWhile_of_split hpath htail
  | @behind _ authority path tail hfull hauthority hpath htail =>
      have hsplit : pathOf ('/' :: path ++ tail) = '/' :: path := by
        refine takeWhile_of_split (fun c hc => ?_) htail
        rcases List.mem_cons.mp hc with rfl | hc
        · rfl
        · exact hpath c hc
      rw [targetPath_of_full (htarget ▸ hfull) hauthority (by simp [Uri.endsAuthority]), hsplit]
      rfl
  | @root _ authority tail hfull hauthority htail =>
      have hsplit : pathOf ([] ++ tail) = [] := takeWhile_of_split (by simp) htail
      rw [targetPath_of_full (htarget ▸ hfull) hauthority htail.endsAuthority]
      exact if_pos hsplit

theorem hasPath_targetPath (target : String) :
    HasPath target.toList (targetPath target).toList := by
  by_cases hfull : ∃ rest, Full target.toList rest
  · obtain ⟨rest, hfull⟩ := hfull
    obtain ⟨authority, rest, rfl, hauthority, hrest⟩ := exists_split endsAuthority rest
    rw [targetPath_of_full hfull hauthority hrest]
    obtain ⟨path, tail, rfl, hpath, htail⟩ := exists_split endsPath rest
    have hsplit : pathOf (path ++ tail) = path := takeWhile_of_split hpath htail
    rw [hsplit]
    cases path with
    | nil => exact .root hfull hauthority htail
    | cons c path =>
        have hslash : c = '/' := by
          have hends := hrest c rfl
          rw [endsAuthority, hpath c (List.mem_cons_self ..), Bool.or_false, beq_iff_eq] at hends
          exact hends
        subst hslash
        exact .behind hfull hauthority (fun c hc => hpath c (List.mem_cons_of_mem _ hc)) htail
  · rw [not_exists] at hfull
    rw [targetPath_of_not_full hfull]
    obtain ⟨path, tail, hsplit, hpath, htail⟩ := exists_split endsPath target.toList
    have hpathOf : pathOf target.toList = path := hsplit ▸ takeWhile_of_split hpath htail
    rw [hpathOf]
    rw [hsplit] at hfull ⊢
    exact .alone hfull hpath htail

/-- A request target has one path, which stands before the query. -/
theorem hasPath_iff
    {target path : String} :
    HasPath target.toList path.toList ↔ targetPath target = path := by
  constructor
  · exact fun h => String.toList_injective h.targetPath_eq
  · rintro rfl
    exact hasPath_targetPath target

end Uri
end RpcGateway
