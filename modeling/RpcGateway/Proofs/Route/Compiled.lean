import Mathlib.Tactic.Common
import RpcGateway.Proofs.Collection.Result
import RpcGateway.Route.Template

/-!
# Compiled templates

What the segments of every template that compiles are like: no name is bound twice, no literal holds
a slash, and a capture of everything that is left stands in the last place only.

**Induction.**  `compileSegments_cons_eq_ok` says what compiling one more segment takes.  The names
are distinct because those that are taken are carried along; the other two facts hold segment by
segment.
-/

namespace RpcGateway
namespace RouteTemplate

/-- What the segments of a compiled template are like. -/
structure Compiled (segments : List Segment) : Prop where
  distinct : (segments.filterMap Segment.name?).Nodup
  slashless : ∀ text, .literal text ∈ segments → '/' ∉ text.toList
  restLast : ∀ name, .captureRest name ∉ segments.dropLast

theorem not_mem_of_mem_splitOn
    {α : Type} [BEq α] [LawfulBEq α] {x : α} {xs piece : List α}
    (h : piece ∈ xs.splitOn x) :
    x ∉ piece := by
  induction xs generalizing piece with
  | nil =>
      rw [List.splitOn_nil, List.mem_singleton] at h
      simp [h]
  | cons y ys ih =>
      rw [List.splitOn_cons_eq_if_modifyHead] at h
      split at h
      case isTrue hy =>
        rcases List.mem_cons.mp h with rfl | h
        · simp
        · exact ih h
      case isFalse hy =>
        cases hpieces : ys.splitOn x with
        | nil => exact absurd hpieces (List.splitOn_ne_nil x ys)
        | cons first pieces =>
            rw [hpieces] at ih h
            rcases List.mem_cons.mp h with rfl | h
            · have hfirst := ih (List.mem_cons_self ..)
              have hne : x ≠ y := fun hxy => hy (beq_iff_eq.mpr hxy.symm)
              simp [hne, hfirst]
            · exact ih (List.mem_cons_of_mem _ h)

theorem eq_append_of_splitColon
    {depth : Nat} {cs before behind : List Char}
    (h : splitColon depth cs = some (before, behind)) :
    cs = before ++ ':' :: behind := by
  induction cs generalizing depth before with
  | nil => cases h
  | cons c cs ih =>
      simp only [splitColon] at h
      split at h
      · rename_i before' behind' hrest
        obtain ⟨rfl, rfl⟩ := Prod.mk.inj (Option.some.inj h)
        rw [ih hrest]
        rfl
      · split at h
        · rename_i hcolon
          obtain ⟨rfl, rfl⟩ := Prod.mk.inj (Option.some.inj h)
          rw [hcolon.1]
          rfl
        · cases h

/-- Splitting off the custom verb puts no slash into a segment. -/
theorem slashless_splitCustomVerb
    {segments raws : List (List Char)} {customVerb : Option String}
    (hsegments : ∀ raw ∈ segments, '/' ∉ raw)
    (h : splitCustomVerb segments = .ok (raws, customVerb)) :
    ∀ raw ∈ raws, '/' ∉ raw := by
  unfold splitCustomVerb at h
  split at h
  · obtain ⟨rfl, -⟩ := Prod.mk.inj (Except.ok.inj h)
    exact hsegments
  · rename_i last hlast
    split at h
    · obtain ⟨rfl, -⟩ := Prod.mk.inj (Except.ok.inj h)
      exact hsegments
    · rename_i before verb hcolon
      split_ifs at h
      obtain ⟨rfl, -⟩ := Prod.mk.inj (Except.ok.inj h)
      intro raw hraw
      rcases List.mem_append.mp hraw with hraw | hraw
      · exact hsegments raw (List.dropLast_subset _ hraw)
      · obtain rfl := List.mem_singleton.mp hraw
        have hmem := hsegments last (List.mem_of_getLast? hlast)
        rw [eq_append_of_splitColon hcolon, List.mem_append, not_or] at hmem
        exact hmem.1

/-- A segment compiles to a literal of its text, or to a capture, and to one of everything that is
left only in the last place. -/
theorem compileSegment_eq_ok
    {raw : List Char} {isLast : Bool} {segment : Segment}
    (h : compileSegment raw isLast = .ok segment) :
    segment = .literal (String.ofList raw) ∨ (∃ name, segment = .capture name) ∨
      isLast = true ∧ ∃ name, segment = .captureRest name := by
  have hcapture : ∀ inner, compileCapture inner isLast = .ok segment →
      (∃ name, segment = .capture name) ∨
        isLast = true ∧ ∃ name, segment = .captureRest name := by
    intro inner hinner
    unfold compileCapture at hinner
    simp only at hinner
    split at hinner
    · cases hinner
    split at hinner
    · exact Or.inl ⟨_, (Except.ok.inj hinner).symm⟩
    split_ifs at hinner with hone hrest hlast
    · exact Or.inl ⟨_, (Except.ok.inj hinner).symm⟩
    · exact Or.inr ⟨hlast, _, (Except.ok.inj hinner).symm⟩
  unfold compileSegment at h
  split at h
  · cases h
  split at h
  · split at h
    · split at h
      · cases h
      · exact Or.inr (hcapture _ h)
    · cases h
  split_ifs at h
  exact Or.inl (Except.ok.inj h).symm

theorem compiled_nil :
    Compiled [] :=
  ⟨by simp, by simp, by simp⟩

theorem Compiled.cons
    {segment : Segment} {segments : List Segment}
    (h : Compiled segments)
    (hnew : ∀ name, segment.name? = some name → name ∉ segments.filterMap Segment.name?)
    (hslash : ∀ text, segment = .literal text → '/' ∉ text.toList)
    (hrest : ∀ name, segment = .captureRest name → segments = []) :
    Compiled (segment :: segments) := by
  refine ⟨?_, ?_, ?_⟩
  · cases hname : segment.name? with
    | none =>
        rw [List.filterMap_cons_none hname]
        exact h.distinct
    | some name =>
        rw [List.filterMap_cons_some hname, List.nodup_cons]
        exact ⟨hnew name hname, h.distinct⟩
  · intro text htext
    rcases List.mem_cons.mp htext with heq | htext
    · exact hslash text heq.symm
    · exact h.slashless text htext
  · intro name hmem
    cases segments with
    | nil => cases hmem
    | cons next rest =>
        rw [List.dropLast_cons_cons] at hmem
        rcases List.mem_cons.mp hmem with heq | hmem
        · cases hrest name heq.symm
        · exact h.restLast name hmem

theorem Compiled.tail
    {segment : Segment} {segments : List Segment}
    (h : Compiled (segment :: segments)) :
    Compiled segments := by
  refine ⟨?_, fun text htext => h.slashless text (List.mem_cons_of_mem _ htext), ?_⟩
  · refine h.distinct.sublist ?_
    exact (List.sublist_cons_self segment segments).filterMap _
  · intro name hmem
    cases segments with
    | nil => cases hmem
    | cons next rest => exact h.restLast name (List.mem_cons_of_mem _ hmem)

/-- Nothing stands behind a capture of everything that is left. -/
theorem Compiled.eq_nil_of_captureRest
    {name : String} {segments : List Segment}
    (h : Compiled (.captureRest name :: segments)) :
    segments = [] := by
  cases segments with
  | nil => rfl
  | cons next rest => exact absurd (List.mem_cons_self ..) (h.restLast name)

/-- The first segment compiles, its name is not taken, and the others compile behind it. -/
theorem compileSegments_cons_eq_ok
    {seen : List String} {raw : List Char} {rest : List (List Char)} {segments : List Segment}
    (h : compileSegments seen (raw :: rest) = .ok segments) :
    ∃ segment tail, segments = segment :: tail ∧
      compileSegment raw rest.isEmpty = .ok segment ∧
      (∀ name, segment.name? = some name → name ∉ seen) ∧
      compileSegments (segment.name?.toList ++ seen) rest = .ok tail := by
  simp only [compileSegments] at h
  split at h
  · cases h
  rename_i segment hsegment
  split at h
  case h_1 name hname =>
    split at h
    · cases h
    rename_i hfree
    obtain ⟨tail, htail, rfl⟩ := exists_of_map_eq_ok h
    refine ⟨segment, tail, rfl, hsegment, ?_, ?_⟩
    · intro name' hname' hmem
      rw [hname] at hname'
      obtain rfl := Option.some.inj hname'
      exact hfree (List.contains_iff_mem.mpr hmem)
    · rw [hname]
      exact htail
  case h_2 hname =>
    obtain ⟨tail, htail, rfl⟩ := exists_of_map_eq_ok h
    refine ⟨segment, tail, rfl, hsegment, ?_, ?_⟩
    · intro name hname'
      rw [hname] at hname'
      cases hname'
    · rw [hname]
      exact htail

/-- The segments of slashless texts are compiled, and their names are not taken. -/
theorem compiled_of_compileSegments
    {seen : List String} {raws : List (List Char)} {segments : List Segment}
    (hraws : ∀ raw ∈ raws, '/' ∉ raw)
    (h : compileSegments seen raws = .ok segments) :
    Compiled segments ∧ ∀ name ∈ segments.filterMap Segment.name?, name ∉ seen := by
  induction raws generalizing seen segments with
  | nil =>
      obtain rfl := Except.ok.inj h
      exact ⟨compiled_nil, by simp⟩
  | cons raw rest ih =>
      obtain ⟨segment, tail, rfl, hsegment, hfree, htail⟩ := compileSegments_cons_eq_ok h
      have hrest : ∀ raw ∈ rest, '/' ∉ raw := fun raw hraw =>
        hraws raw (List.mem_cons_of_mem _ hraw)
      obtain ⟨hcompiled, hnames⟩ := ih hrest htail
      have hkind := compileSegment_eq_ok hsegment
      refine ⟨hcompiled.cons ?_ ?_ ?_, ?_⟩
      · intro name hname hmem
        apply hnames name hmem
        simp [hname]
      · rintro text rfl
        rcases hkind with hkind | ⟨name, hkind⟩ | ⟨-, name, hkind⟩
        · rw [Segment.literal.inj hkind, String.toList_ofList]
          exact hraws raw (List.mem_cons_self ..)
        · cases hkind
        · cases hkind
      · rintro name rfl
        rcases hkind with hkind | ⟨name, hkind⟩ | ⟨hempty, -⟩
        · cases hkind
        · cases hkind
        · rw [List.isEmpty_iff.mp hempty] at htail
          exact (Except.ok.inj htail).symm
      · intro name hmem hseen
        rcases List.mem_filterMap.mp hmem with ⟨segment', hsegment', hname⟩
        rcases List.mem_cons.mp hsegment' with rfl | hsegment'
        · exact hfree name hname hseen
        · have htaken := hnames name (List.mem_filterMap.mpr ⟨segment', hsegment', hname⟩)
          exact htaken (List.mem_append_right _ hseen)

/-- The segments of every template that compiles are compiled. -/
theorem compiled_of_compile
    {template verb : String} {t : RouteTemplate}
    (h : compile template verb = .ok t) :
    Compiled t.segments := by
  unfold compile compileParts compileBody at h
  split at h
  case h_2 => cases h
  rename_i t' hparts
  obtain rfl := Except.ok.inj h
  split at hparts
  · cases hparts
  split at hparts
  case h_2 => cases hparts
  rename_i body _
  split at hparts
  · cases hparts
  rename_i raw customVerb hsplit
  have hraw : ∀ piece ∈ raw, '/' ∉ piece :=
    slashless_splitCustomVerb (fun _ => not_mem_of_mem_splitOn) hsplit
  split at hparts
  · split at hparts
    · cases hparts
    · obtain rfl := Except.ok.inj hparts
      exact compiled_nil
  · obtain ⟨r, hr, rfl⟩ := exists_of_map_eq_ok hparts
    obtain ⟨segments, hsegments, rfl⟩ := exists_of_map_eq_ok hr
    exact (compiled_of_compileSegments hraw hsegments).1

/-- A compiled template keeps its verb, whatever its letter case, and its text. -/
theorem compile_eq_ok
    {template verb : String} {t : RouteTemplate}
    (h : compile template verb = .ok t) :
    t.verb.text.toList = verb.toList.flatMap Verb.upper ∧ t.source = template := by
  unfold compile compileParts at h
  split at h
  case h_2 => cases h
  rename_i t' hparts
  obtain rfl := Except.ok.inj h
  split at hparts
  · cases hparts
  rename_i v hverb
  split at hparts
  case h_2 => cases hparts
  obtain ⟨r, -, rfl⟩ := exists_of_map_eq_ok hparts
  exact ⟨Verb.ofText?_eq_some_iff.mp hverb, rfl⟩

end RouteTemplate
end RpcGateway
