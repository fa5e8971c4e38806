import Mathlib.Data.List.Forall2
import RpcGateway.Proofs.Route.Compiled

/-!
# The written forms of segments

How a segment is written, and that compiling reads exactly these forms.

**Forms.**  `Spelled segment raw` says that a text is a written form of a segment.  A capture has
two: `{name}` and `{name=*}`.  A literal is any text without braces, the two anonymous wildcards
apart.

**Results.**  `compileSegment_eq_ok_iff` for one segment; `spelled_of_compileSegments` and
`compileSegments_of_spelled` for a list of them, where the names that are taken are carried along.
-/

namespace RpcGateway
namespace RouteTemplate

/-!
## Written forms
-/

/-- A letter or an underscore, and then letters, digits and underscores. -/
def Identifier (cs : List Char) : Prop :=
  ∃ c rest, cs = c :: rest ∧ (c.isAlpha = true ∨ c = '_') ∧
    ∀ d ∈ rest, d.isAlphanum = true ∨ d = '_'

/-- One or more identifiers with dots between them. -/
def ParamName (name : List Char) : Prop :=
  ∃ parts, parts ≠ [] ∧ (∀ part ∈ parts, Identifier part) ∧ name = ['.'].intercalate parts

/-- The texts from which a segment is read. -/
inductive Spelled : Segment → List Char → Prop
  | literal
      {cs : List Char}
      (some : cs ≠ []) (plain : ∀ c ∈ cs, isBrace c = false)
      (named : cs ≠ ['*'] ∧ cs ≠ ['*', '*']) :
      Spelled (.literal (String.ofList cs)) cs
  | capture
      {name : List Char}
      (h : ParamName name) :
      Spelled (.capture (String.ofList name)) ('\x7b' :: (name ++ ['\x7d']))
  | captureOne
      {name : List Char}
      (h : ParamName name) :
      Spelled (.capture (String.ofList name)) ('\x7b' :: (name ++ ['=', '*', '\x7d']))
  | captureRest
      {name : List Char}
      (h : ParamName name) :
      Spelled (.captureRest (String.ofList name)) ('\x7b' :: (name ++ ['=', '*', '*', '\x7d']))

/-!
## Names
-/

theorem isIdentifier_iff
    {cs : List Char} :
    isIdentifier cs = true ↔ Identifier cs := by
  cases cs with
  | nil => simp [isIdentifier, Identifier]
  | cons c rest => simp [isIdentifier, Identifier]

theorem Identifier.isCustomVerbChar
    {cs : List Char}
    (h : Identifier cs) :
    ∀ c ∈ cs, isCustomVerbChar c = true ∧ c ≠ '.' := by
  obtain ⟨first, rest, rfl, hfirst, hrest⟩ := h
  have hword : ∀ c : Char, c.isAlphanum = true ∨ c = '_' →
      RouteTemplate.isCustomVerbChar c = true ∧ c ≠ '.' := by
    intro c hc
    refine ⟨by rcases hc with hc | hc <;> simp [RouteTemplate.isCustomVerbChar, hc], ?_⟩
    rintro rfl
    exact absurd hc (by decide)
  intro c hc
  rcases List.mem_cons.mp hc with rfl | hc
  · exact hword c (hfirst.imp_left fun h => by simp [Char.isAlphanum, h])
  · exact hword c (hrest c hc)

theorem isParamName_iff
    {name : List Char} :
    isParamName name = true ↔ ParamName name := by
  rw [isParamName, List.all_eq_true]
  constructor
  · intro h
    refine ⟨name.splitOn '.', List.splitOn_ne_nil '.' name, fun part hpart => ?_, ?_⟩
    · exact isIdentifier_iff.mp (h part hpart)
    · exact (List.intercalate_splitOn '.').symm
  · rintro ⟨parts, hsome, hparts, rfl⟩
    have hdotless : ∀ part ∈ parts, '.' ∉ part := fun part hpart hmem =>
      ((hparts part hpart).isCustomVerbChar '.' hmem).2 rfl
    rw [List.splitOn_intercalate '.' hdotless hsome]
    exact fun part hpart => isIdentifier_iff.mpr (hparts part hpart)

theorem mem_or_eq_of_mem_intercalate
    {α : Type} {c x : α} {pieces : List (List α)}
    (h : c ∈ [x].intercalate pieces) :
    c = x ∨ ∃ piece ∈ pieces, c ∈ piece := by
  induction pieces with
  | nil => cases h
  | cons piece rest ih =>
      cases rest with
      | nil =>
          rw [List.intercalate_singleton] at h
          exact Or.inr ⟨piece, List.mem_singleton_self piece, h⟩
      | cons next rest =>
          rw [List.intercalate_cons_cons, List.mem_append, List.mem_append] at h
          rcases h with (h | h) | h
          · exact Or.inr ⟨piece, List.mem_cons_self .., h⟩
          · exact Or.inl (List.mem_singleton.mp h)
          · obtain hx | ⟨piece', hpiece', hc⟩ := ih h
            · exact Or.inl hx
            · exact Or.inr ⟨piece', List.mem_cons_of_mem _ hpiece', hc⟩

/-- A name holds no other characters than a custom verb may. -/
theorem ParamName.isCustomVerbChar
    {name : List Char}
    (h : ParamName name) :
    ∀ c ∈ name, isCustomVerbChar c = true := by
  obtain ⟨parts, -, hparts, rfl⟩ := h
  intro c hc
  obtain rfl | ⟨part, hpart, hc⟩ := mem_or_eq_of_mem_intercalate hc
  · rfl
  · exact ((hparts part hpart).isCustomVerbChar c hc).1

/-- None of the marks of the grammar may stand in a custom verb. -/
theorem not_mem_of_isCustomVerbChar
    {cs : List Char} {mark : Char}
    (h : ∀ c ∈ cs, isCustomVerbChar c = true) (hmark : isCustomVerbChar mark = false) :
    mark ∉ cs := by
  intro hmem
  rw [h mark hmem] at hmark
  cases hmark

/-!
## Segments
-/

/-- A name ends before the first equals sign. -/
theorem takeWhile_name_append
    {name pattern : List Char}
    (h : ParamName name) (hpattern : pattern = [] ∨ ∃ rest, pattern = '=' :: rest) :
    (name ++ pattern).takeWhile (· != '=') = name ∧
      (name ++ pattern).dropWhile (· != '=') = pattern := by
  have hname : ∀ c ∈ name, (c != '=') = true := fun c hc => bne_iff_ne.mpr fun heq =>
    not_mem_of_isCustomVerbChar h.isCustomVerbChar (by decide) (heq ▸ hc)
  rw [List.takeWhile_append_of_pos hname, List.dropWhile_append_of_pos hname]
  obtain rfl | ⟨rest, rfl⟩ := hpattern
  · simp
  · simp

/-- Between braces stands a capture if and only if the braces and what is between them are the
written form of one. -/
theorem compileCapture_eq_ok_iff
    {inner : List Char} {isLast : Bool} {segment : Segment} :
    compileCapture inner isLast = .ok segment ↔
      Spelled segment ('\x7b' :: (inner ++ ['\x7d'])) ∧
        ∀ name, segment = .captureRest name → isLast = true := by
  constructor
  · intro h
    have hinner : inner.takeWhile (· != '=') ++ inner.dropWhile (· != '=') = inner :=
      List.takeWhile_append_dropWhile
    unfold compileCapture at h
    simp only [Bool.not_eq_true'] at h
    split at h
    case isTrue => cases h
    case isFalse hname =>
      rw [Bool.not_eq_false, isParamName_iff] at hname
      split at h
      case h_1 hpattern =>
        obtain rfl := Except.ok.inj h
        rw [hpattern, List.append_nil] at hinner
        rw [hinner] at hname ⊢
        exact ⟨.capture hname, by simp⟩
      case h_2 mark pattern hpattern =>
        have hmark : mark = '=' := by
          have hhead := List.head?_dropWhile_not (· != '=') inner
          rw [hpattern] at hhead
          simpa using hhead
        rw [hpattern, hmark] at hinner
        generalize inner.takeWhile (· != '=') = name at hinner hname h
        subst hinner
        split_ifs at h with hone hrest hlast
        · obtain rfl := Except.ok.inj h
          rw [hone, List.append_assoc]
          exact ⟨.captureOne hname, by simp⟩
        · obtain rfl := Except.ok.inj h
          rw [hrest, List.append_assoc]
          exact ⟨.captureRest hname, fun _ _ => hlast⟩
  · rintro ⟨hspelled, hlast⟩
    generalize hraw : '\x7b' :: (inner ++ ['\x7d']) = raw at hspelled
    cases hspelled with
    | literal some plain named =>
        subst hraw
        exact absurd (plain '\x7b' (List.mem_cons_self ..)) (by decide)
    | @capture name h =>
        obtain rfl : inner = name ++ [] := by simpa using hraw
        obtain ⟨htake, hdrop⟩ := takeWhile_name_append h (.inl rfl)
        simp only [compileCapture, htake, hdrop, isParamName_iff.mpr h]
        rfl
    | @captureOne name h =>
        have hlist : inner ++ ['\x7d'] = name ++ ['=', '*'] ++ ['\x7d'] := by simpa using hraw
        obtain rfl := List.append_cancel_right hlist
        obtain ⟨htake, hdrop⟩ := takeWhile_name_append h (.inr ⟨['*'], rfl⟩)
        simp only [compileCapture, htake, hdrop, isParamName_iff.mpr h]
        rfl
    | @captureRest name h =>
        have hlist : inner ++ ['\x7d'] = name ++ ['=', '*', '*'] ++ ['\x7d'] := by
          simpa using hraw
        obtain rfl := List.append_cancel_right hlist
        obtain ⟨htake, hdrop⟩ := takeWhile_name_append h (.inr ⟨['*', '*'], rfl⟩)
        simp only [compileCapture, htake, hdrop, isParamName_iff.mpr h, hlast _ rfl]
        rfl

theorem isBrace_eq_false_of_isCustomVerbChar
    {c : Char}
    (h : isCustomVerbChar c = true) :
    isBrace c = false := by
  refine Bool.eq_false_iff.mpr fun hbrace => ?_
  rw [isBrace, Bool.or_eq_true, beq_iff_eq, beq_iff_eq] at hbrace
  rcases hbrace with rfl | rfl
  · exact absurd h (by decide)
  · exact absurd h (by decide)

/-- What starts with a brace ends with one, and there is no other between them. -/
theorem Spelled.braced
    {segment : Segment} {cs : List Char}
    (h : Spelled segment ('\x7b' :: cs)) :
    ∃ inner, cs = inner ++ ['\x7d'] ∧ ∀ c ∈ inner, isBrace c = false := by
  have hname : ∀ {name pattern : List Char}, ParamName name → (∀ c ∈ pattern, isBrace c = false) →
      ∀ c ∈ name ++ pattern, isBrace c = false := by
    intro name pattern hname hpattern c hc
    rcases List.mem_append.mp hc with hc | hc
    · exact isBrace_eq_false_of_isCustomVerbChar (hname.isCustomVerbChar c hc)
    · exact hpattern c hc
  generalize hraw : '\x7b' :: cs = raw at h
  cases h with
  | literal some plain named =>
      subst hraw
      exact absurd (plain '\x7b' (List.mem_cons_self ..)) (by decide)
  | @capture name h =>
      refine ⟨name ++ [], ?_, hname h (by simp)⟩
      rw [List.append_nil]
      exact (List.cons.inj hraw).2
  | @captureOne name h =>
      refine ⟨name ++ ['=', '*'], ?_, hname h (by simp [isBrace])⟩
      rw [List.append_assoc]
      exact (List.cons.inj hraw).2
  | @captureRest name h =>
      refine ⟨name ++ ['=', '*', '*'], ?_, hname h (by simp [isBrace])⟩
      rw [List.append_assoc]
      exact (List.cons.inj hraw).2

/-- What starts with no brace is a literal. -/
theorem spelled_cons_iff_of_ne
    {segment : Segment} {c : Char} {cs : List Char}
    (hc : c ≠ '\x7b') :
    Spelled segment (c :: cs) ↔
      segment = .literal (String.ofList (c :: cs)) ∧ (∀ d ∈ c :: cs, isBrace d = false) ∧
        c :: cs ≠ ['*'] ∧ c :: cs ≠ ['*', '*'] := by
  constructor
  · intro h
    generalize hraw : c :: cs = raw at h
    cases h with
    | literal some plain named => exact ⟨rfl, plain, named⟩
    | capture h => exact absurd (List.cons.inj hraw).1 hc
    | captureOne h => exact absurd (List.cons.inj hraw).1 hc
    | captureRest h => exact absurd (List.cons.inj hraw).1 hc
  · rintro ⟨rfl, hplain, hnamed⟩
    exact .literal (List.cons_ne_nil c cs) hplain hnamed

theorem any_isBrace_eq_false_iff
    {cs : List Char} :
    cs.any isBrace = false ↔ ∀ c ∈ cs, isBrace c = false := by
  simp

/-- A text compiles to a segment if and only if the segment is written so, and to a capture of
everything that is left only in the last place. -/
theorem compileSegment_eq_ok_iff
    {raw : List Char} {isLast : Bool} {segment : Segment} :
    compileSegment raw isLast = .ok segment ↔
      Spelled segment raw ∧ ∀ name, segment = .captureRest name → isLast = true := by
  cases raw with
  | nil =>
      simp only [compileSegment, reduceCtorEq, false_iff]
      rintro ⟨hspelled, -⟩
      cases hspelled with
      | literal some plain named => exact some rfl
  | cons c cs =>
      rw [compileSegment]
      by_cases hc : c = '\x7b'
      · rw [if_pos hc]
        subst hc
        by_cases hbraced : ∃ inner, cs = inner ++ ['\x7d'] ∧ ∀ c ∈ inner, isBrace c = false
        · obtain ⟨inner, rfl, hplain⟩ := hbraced
          simp only [List.getLast?_concat, List.dropLast_concat,
            any_isBrace_eq_false_iff.mpr hplain, Bool.false_eq_true, if_false]
          exact compileCapture_eq_ok_iff
        · have hnot : ¬ Spelled segment ('\x7b' :: cs) := fun h => hbraced h.braced
          simp only [hnot, false_and, iff_false]
          split
          · next hclosed =>
              obtain ⟨inner, rfl⟩ := List.getLast?_eq_some_iff.mp hclosed
              rw [List.dropLast_concat]
              have hbrace : inner.any isBrace = true := by
                refine Bool.not_eq_false _ ▸ fun hplain => ?_
                exact hbraced ⟨inner, rfl, any_isBrace_eq_false_iff.mp hplain⟩
              simp [hbrace]
          · simp
      · rw [if_neg hc, spelled_cons_iff_of_ne hc]
        constructor
        · intro h
          split_ifs at h with hbrace hstar
          obtain rfl := Except.ok.inj h
          rw [not_or] at hstar
          rw [Bool.not_eq_true, any_isBrace_eq_false_iff] at hbrace
          exact ⟨⟨rfl, hbrace, hstar⟩, by simp⟩
        · rintro ⟨⟨rfl, hplain, hnamed⟩, -⟩
          rw [any_isBrace_eq_false_iff.mpr hplain, if_neg Bool.false_ne_true,
            if_neg (not_or.mpr hnamed)]

/-!
## Lists of segments
-/

theorem spelled_of_compileSegments
    {seen : List String} {raws : List (List Char)} {segments : List Segment}
    (h : compileSegments seen raws = .ok segments) :
    List.Forall₂ Spelled segments raws := by
  induction raws generalizing seen segments with
  | nil =>
      obtain rfl := Except.ok.inj h
      exact .nil
  | cons raw rest ih =>
      obtain ⟨segment, tail, rfl, hsegment, -, htail⟩ := compileSegments_cons_eq_ok h
      exact .cons (compileSegment_eq_ok_iff.mp hsegment).1 (ih htail)

theorem compileSegments_cons_of_ok
    {seen : List String} {raw : List Char} {rest : List (List Char)} {segment : Segment}
    {tail : List Segment}
    (hsegment : compileSegment raw rest.isEmpty = .ok segment)
    (hfree : ∀ name, segment.name? = some name → name ∉ seen)
    (htail : compileSegments (segment.name?.toList ++ seen) rest = .ok tail) :
    compileSegments seen (raw :: rest) = .ok (segment :: tail) := by
  rw [compileSegments, hsegment]
  cases hname : segment.name? with
  | none =>
      rw [hname, Option.toList_none, List.nil_append] at htail
      simp [hname, htail, Except.map]
  | some name =>
      rw [hname, Option.toList_some, List.singleton_append] at htail
      simp [hname, hfree name hname, htail, Except.map]

/-- Written forms of segments compile to them, if none of their names is taken. -/
theorem compileSegments_of_spelled
    {seen : List String} {raws : List (List Char)} {segments : List Segment}
    (h : List.Forall₂ Spelled segments raws) (hc : Compiled segments)
    (hfree : ∀ name ∈ segments.filterMap Segment.name?, name ∉ seen) :
    compileSegments seen raws = .ok segments := by
  induction h generalizing seen with
  | nil => rfl
  | @cons segment raw segments raws hspelled hrest ih =>
      refine compileSegments_cons_of_ok (compileSegment_eq_ok_iff.mpr ⟨hspelled, ?_⟩) ?_ (ih hc.tail ?_)
      · rintro name rfl
        obtain rfl := hc.eq_nil_of_captureRest
        cases hrest
        rfl
      · intro name hname
        refine hfree name ?_
        rw [List.filterMap_cons_some hname]
        exact List.mem_cons_self ..
      · intro name hmem hseen
        have hdistinct := hc.distinct
        cases hname : segment.name? with
        | none =>
            rw [hname, Option.toList_none, List.nil_append] at hseen
            refine hfree name ?_ hseen
            rw [List.filterMap_cons_none hname]
            exact hmem
        | some first =>
            rw [List.filterMap_cons_some hname] at hfree hdistinct
            rw [hname, Option.toList_some, List.singleton_append] at hseen
            rcases List.mem_cons.mp hseen with rfl | hseen
            · exact (List.nodup_cons.mp hdistinct).1 hmem
            · exact hfree name (List.mem_cons_of_mem _ hmem) hseen

theorem Spelled.ne_nil
    {segment : Segment} {raw : List Char}
    (h : Spelled segment raw) :
    raw ≠ [] := by
  cases h with
  | literal some plain named => exact some
  | capture h => simp
  | captureOne h => simp
  | captureRest h => simp

/-- No slash stands in a written form, unless it stands in a literal. -/
theorem Spelled.slash_not_mem
    {segment : Segment} {raw : List Char}
    (h : Spelled segment raw) (hliteral : ∀ text, segment = .literal text → '/' ∉ text.toList) :
    '/' ∉ raw := by
  have hname : ∀ {name : List Char}, ParamName name → '/' ∉ name := fun hname =>
    not_mem_of_isCustomVerbChar hname.isCustomVerbChar (by decide)
  cases h with
  | literal some plain named => simpa using hliteral _ rfl
  | capture h => simp [hname h]
  | captureOne h => simp [hname h]
  | captureRest h => simp [hname h]

theorem exists_spelled_of_mem
    {raws : List (List Char)} {segments : List Segment} {raw : List Char}
    (h : List.Forall₂ Spelled segments raws) (hraw : raw ∈ raws) :
    ∃ segment ∈ segments, Spelled segment raw := by
  induction h with
  | nil => cases hraw
  | @cons segment first segments raws hspelled hrest ih =>
      rcases List.mem_cons.mp hraw with rfl | hraw
      · exact ⟨segment, List.mem_cons_self .., hspelled⟩
      · obtain ⟨segment', hsegment', hspelled'⟩ := ih hraw
        exact ⟨segment', List.mem_cons_of_mem _ hsegment', hspelled'⟩

theorem slash_not_mem_of_spelled
    {raws : List (List Char)} {segments : List Segment}
    (h : List.Forall₂ Spelled segments raws) (hc : Compiled segments) :
    ∀ raw ∈ raws, '/' ∉ raw := by
  intro raw hraw
  obtain ⟨segment, hmem, hspelled⟩ := exists_spelled_of_mem h hraw
  exact hspelled.slash_not_mem fun text htext => hc.slashless text (htext ▸ hmem)

end RouteTemplate
end RpcGateway
