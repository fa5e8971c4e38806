import RpcGateway.Proofs.Route.CustomVerb

/-!
# The grammar of templates

Which texts compile, and to what: exactly those of the grammar, and to exactly the segments that
they are written from.

**Grammar.**  `Reads` says how a whole template is written: a slash, the written forms of the
segments with slashes between them, and behind the last one a colon and a custom verb, if there is
one.  The braces of a written form are even, so a colon outside braces can only stand in a literal
or before the verb.
-/

namespace RpcGateway
namespace RouteTemplate

/-- The colon and the custom verb behind the last segment. -/
def verbSuffix (customVerb : Option String) : List Char :=
  customVerb.elim [] fun v => ':' :: v.toList

/-- A text is a template of segments, which are written as `raws`, and a custom verb. -/
structure Reads
    (text : List Char) (segments : List Segment) (customVerb : Option String)
    (raws : List (List Char)) : Prop where
  written : text = '/' :: (['/'].intercalate raws ++ verbSuffix customVerb)
  spelled : List.Forall₂ Spelled segments raws
  compiled : Compiled segments
  verb : ∀ v, customVerb = some v →
    segments ≠ [] ∧ v ≠ "" ∧ ∀ c ∈ v.toList, isCustomVerbChar c = true
  colonless : customVerb = none → ∀ last, raws.getLast? = some last →
    ∀ before behind, ¬ FreeColon 0 last before behind

/-- What compiles follows the grammar. -/
theorem exists_reads_of_compileBody
    {body : List Char} {segments : List Segment} {customVerb : Option String}
    (h : compileBody body = .ok (segments, customVerb)) :
    ∃ raws, Reads ('/' :: body) segments customVerb raws := by
  obtain ⟨front, last, hpieces⟩ : ∃ front last, body.splitOn '/' = front ++ [last] :=
    ⟨_, _, (List.dropLast_concat_getLast (List.splitOn_ne_nil '/' body)).symm⟩
  have hbody : body = ['/'].intercalate (front ++ [last]) := by
    rw [← hpieces, List.intercalate_splitOn]
  have hslashless : ∀ piece ∈ front ++ [last], '/' ∉ piece := by
    rw [← hpieces]
    exact fun _ => not_mem_of_mem_splitOn
  rw [compileBody, hpieces] at h
  cases hsplit : splitCustomVerb (front ++ [last]) with
  | error reason =>
      rw [hsplit] at h
      cases h
  | ok parts =>
      obtain ⟨raws, customVerb'⟩ := parts
      rw [hsplit] at h
      dsimp only at h
      have hraws := slashless_splitCustomVerb hslashless hsplit
      rw [splitCustomVerb_concat_eq_ok_iff] at hsplit
      split_ifs at h with hroot hverb
      · -- the root: nothing at all is behind the slash
        obtain ⟨rfl, rfl⟩ := Prod.mk.inj (Except.ok.inj h)
        obtain ⟨rfl, hlast, -⟩ | ⟨before, verb, rfl, -⟩ := hsplit
        · rw [← hlast, hroot, List.intercalate_singleton] at hbody
          exact ⟨[], by rw [hbody]; rfl, .nil, compiled_nil, by simp, by simp⟩
        · simp at hverb
      · obtain ⟨segments', hsegments, heq⟩ := exists_of_map_eq_ok h
        obtain ⟨rfl, rfl⟩ := Prod.mk.inj heq
        have hspelled := spelled_of_compileSegments hsegments
        have hcompiled := (compiled_of_compileSegments hraws hsegments).1
        refine ⟨raws, ?_, hspelled, hcompiled, ?_, ?_⟩
        · obtain ⟨rfl, rfl, -⟩ | ⟨before, verb, rfl, rfl, hlast, -⟩ := hsplit
          · rw [hbody, verbSuffix, Option.elim_none, List.append_nil]
          · rw [hbody, hlast.colon.split, intercalate_concat_append, verbSuffix, Option.elim_some,
              String.toList_ofList]
        · rintro v rfl
          obtain ⟨hnone, -⟩ | ⟨before, verb, hv, rfl, -, hsome, hverb⟩ := hsplit
          · cases hnone
          · obtain rfl := Option.some.inj hv
            rw [String.toList_ofList]
            refine ⟨?_, ?_, hverb⟩
            · rintro rfl
              cases hspelled.length_eq.trans (List.length_append ..)
            · intro hempty
              exact hsome (by simpa using congrArg String.toList hempty)
        · rintro rfl last' hlast'
          obtain ⟨-, rfl, hcolon⟩ | ⟨before, verb, hv, -⟩ := hsplit
          · rw [List.getLast?_concat] at hlast'
            obtain rfl := Option.some.inj hlast'
            exact hcolon
          · cases hv

/-- Only the root has no written forms. -/
theorem Reads.root
    {body : List Char} {segments : List Segment} {customVerb : Option String}
    (h : Reads ('/' :: body) segments customVerb []) :
    body = [] ∧ segments = [] ∧ customVerb = none := by
  obtain rfl : segments = [] := List.forall₂_nil_right_iff.mp h.spelled
  cases customVerb with
  | none => exact ⟨(List.cons.inj h.written).2, rfl, rfl⟩
  | some v => exact absurd rfl (h.verb v rfl).1

section LastWrittenForm

variable {body last : List Char} {segments : List Segment} {customVerb : Option String}
  {front : List (List Char)}

/-- The pieces between slashes are the written forms, the last one with the verb behind it. -/
theorem Reads.splitOn_eq
    (h : Reads ('/' :: body) segments customVerb (front ++ [last])) :
    body.splitOn '/' = front ++ [last ++ verbSuffix customVerb] := by
  have hslashless := slash_not_mem_of_spelled h.spelled h.compiled
  have hsuffix : '/' ∉ verbSuffix customVerb := by
    cases customVerb with
    | none => simp [verbSuffix]
    | some v =>
        rw [verbSuffix, Option.elim_some, List.mem_cons, not_or]
        exact ⟨by decide, not_mem_of_isCustomVerbChar (h.verb v rfl).2.2 (by decide)⟩
  have hpieces : ∀ piece ∈ front ++ [last ++ verbSuffix customVerb], '/' ∉ piece := by
    intro piece hpiece
    rcases List.mem_append.mp hpiece with hpiece | hpiece
    · exact hslashless piece (List.mem_append_left _ hpiece)
    · obtain rfl := List.mem_singleton.mp hpiece
      rw [List.mem_append, not_or]
      exact ⟨hslashless last (by simp), hsuffix⟩
  rw [(List.cons.inj h.written).2, ← intercalate_concat_append,
    List.splitOn_intercalate '/' hpieces (by simp)]

theorem Reads.splitCustomVerb_eq_ok
    (h : Reads ('/' :: body) segments customVerb (front ++ [last])) :
    splitCustomVerb (front ++ [last ++ verbSuffix customVerb]) =
      .ok (front ++ [last], customVerb) := by
  cases customVerb with
  | none =>
      rw [verbSuffix, Option.elim_none, List.append_nil]
      refine splitCustomVerb_concat_eq_ok_iff.mpr (.inl ⟨rfl, rfl, ?_⟩)
      exact h.colonless rfl last List.getLast?_concat
  | some v =>
      obtain ⟨-, hsome, hverb⟩ := h.verb v rfl
      obtain ⟨segment, -, hspelled⟩ : ∃ segment ∈ segments, Spelled segment last :=
        exists_spelled_of_mem h.spelled (by simp)
      have hlast := lastColon_append_verb hspelled.braces_eq_zero hverb
      refine splitCustomVerb_concat_eq_ok_iff.mpr (.inr ⟨last, v.toList, ?_, rfl, hlast, ?_, hverb⟩)
      · rw [String.ofList_toList]
      · simpa using hsome

end LastWrittenForm

/-- What follows the grammar compiles. -/
theorem Reads.compileBody_eq_ok
    {body : List Char} {segments : List Segment} {customVerb : Option String}
    {raws : List (List Char)}
    (h : Reads ('/' :: body) segments customVerb raws) :
    compileBody body = .ok (segments, customVerb) := by
  rcases List.eq_nil_or_concat raws with rfl | ⟨front, last, rfl⟩
  · obtain ⟨rfl, rfl, rfl⟩ := h.root
    rfl
  · rw [List.concat_eq_append] at h
    have hroot : front ++ [last] ≠ [[]] := by
      intro heq
      have hempty : [] ∈ front ++ [last] := heq ▸ List.mem_singleton_self _
      obtain ⟨segment, -, hspelled⟩ := exists_spelled_of_mem h.spelled hempty
      exact hspelled.ne_nil rfl
    have hsegments : compileSegments [] (front ++ [last]) = .ok segments :=
      compileSegments_of_spelled h.spelled h.compiled (by simp)
    rw [compileBody, h.splitOn_eq, h.splitCustomVerb_eq_ok]
    dsimp only
    rw [if_neg hroot, hsegments]
    rfl

/-- The custom verb is what stands behind the last colon outside braces in the last piece. -/
theorem Reads.customVerb_eq_some_iff
    {body : List Char} {segments : List Segment} {customVerb : Option String}
    {raws : List (List Char)}
    (h : Reads ('/' :: body) segments customVerb raws) (v : String) :
    customVerb = some v ↔ ∃ before, LastColon 0 (lastPiece body) before v.toList := by
  rcases List.eq_nil_or_concat raws with rfl | ⟨front, last, rfl⟩
  · obtain ⟨rfl, rfl, rfl⟩ := h.root
    simp only [reduceCtorEq, false_iff]
    rintro ⟨before, hlast⟩
    simpa [lastPiece] using hlast.colon.split
  · rw [List.concat_eq_append] at h
    have hpiece : lastPiece body = last ++ verbSuffix customVerb := by
      simp [lastPiece, h.splitOn_eq]
    rw [hpiece]
    obtain ⟨hnone, -, hcolon⟩ | ⟨before, verb, hsome, -, hlast, -⟩ :=
      splitCustomVerb_concat_eq_ok_iff.mp h.splitCustomVerb_eq_ok
    · subst hnone
      simp only [reduceCtorEq, false_iff]
      rintro ⟨before, hlast⟩
      exact hcolon before _ hlast.colon
    · constructor
      · intro hv
        rw [hsome] at hv
        obtain rfl := Option.some.inj hv
        exact ⟨before, by rw [String.toList_ofList]; exact hlast⟩
      · rintro ⟨before', hlast'⟩
        obtain ⟨-, rfl⟩ := hlast.unique hlast'
        rw [hsome, String.ofList_toList]

/-- A template compiles if and only if it follows the grammar, and then to what it is written
from. -/
theorem compile_eq_ok_iff_reads
    {template verb : String} {t : RouteTemplate} :
    compile template verb = .ok t ↔
      t.verb.text.toList = verb.toList.flatMap Verb.upper ∧ t.source = template ∧
        ∃ raws, Reads template.toList t.segments t.customVerb raws := by
  constructor
  · intro h
    obtain ⟨hverb, hsource⟩ := compile_eq_ok h
    refine ⟨hverb, hsource, ?_⟩
    unfold compile compileParts at h
    split at h
    case h_2 => cases h
    rename_i t' hparts
    obtain rfl := Except.ok.inj h
    split at hparts
    case h_1 => cases hparts
    split at hparts
    case h_2 => cases hparts
    rename_i body htemplate
    obtain ⟨parts, hbody, rfl⟩ := exists_of_map_eq_ok hparts
    rw [htemplate]
    exact exists_reads_of_compileBody hbody
  · rintro ⟨hverb, hsource, raws, h⟩
    obtain ⟨body, htemplate⟩ : ∃ body, template.toList = '/' :: body := ⟨_, h.written⟩
    rw [htemplate] at h
    obtain rfl := hsource
    simp only [compile, compileParts, Verb.ofText?_eq_some_iff.mpr hverb, htemplate,
      h.compileBody_eq_ok, Except.map]

/-- Only the last colon of the last segment introduces a custom verb. -/
example : compile "/a:b/c:d:e" "get" =
    .ok ⟨.get, [.literal "a:b", .literal "c:d"], some "e", "/a:b/c:d:e"⟩ := by
  decide

/-- **The grammar of templates.**  A template compiles for a verb if and only if the verb is one of
the seven, whatever its letter case, and the template follows the grammar, and then it compiles to
what it is written from.  The custom verb is what stands behind the last colon outside braces behind
the last slash.  All else is an invalid template, and is reported with its text.  The colon is found
at its offset, and the offsets at which the template is cut all lie between two characters. -/
theorem compile_follows_grammar
    (template verb : String) :
    (∀ t, compile template verb = .ok t ↔
      t.verb.text.toList = verb.toList.flatMap Verb.upper ∧ t.source = template ∧
        ∃ raws, Reads template.toList t.segments t.customVerb raws) ∧
    (∀ t body, compile template verb = .ok t → template.toList = '/' :: body →
      ∀ v, t.customVerb = some v ↔ ∃ before, LastColon 0 (lastPiece body) before v.toList) ∧
    (∀ fault, compile template verb = .error fault →
      ∃ reason, fault = .invalidTemplate template reason) ∧
    (∀ body, template.toList = '/' :: body →
      lastOffset? braces isFreeColon 0 0 none (lastPiece body) =
        (splitColon 0 (lastPiece body)).map (fun parts => size parts.1) ∧
      ∀ n ∈ cuts body, String.Pos.Raw.IsValid (String.ofList body) ⟨n⟩) := by
  refine ⟨fun t => compile_eq_ok_iff_reads, ?_, ?_, ?_⟩
  · intro t body h hbody v
    obtain ⟨-, -, raws, hreads⟩ := compile_eq_ok_iff_reads.mp h
    rw [hbody] at hreads
    exact hreads.customVerb_eq_some_iff v
  · intro fault h
    unfold compile at h
    split at h
    · cases h
    · next reason hreason => exact ⟨reason, (Except.error.inj h).symm⟩
  · intro body _
    refine ⟨?_, fun n hn => isValid_of_mem_cuts hn⟩
    simp only [lastOffset?_isFreeColon, Option.or_none, Nat.zero_add]

end RouteTemplate
end RpcGateway
