import RpcGateway.Proofs.Route.Grammar
import RpcGateway.Route.Match

/-!
# Canonical texts

Every template has a canonical text, in which a capture of one segment is always written `{name}`.

**Results.**
* `Reads.canonical`: the canonical text follows the grammar and is written from the same segments, so
  it compiles to them again;
* `Reads.toList_canonical_eq`: it is the text of the template with each `=*` before a closing brace
  left out.  Such an ending can only belong to `{name=*}`, because a literal holds no braces and
  `{name=**}` has two asterisks before its brace.
-/

namespace RpcGateway
namespace RouteTemplate

/-- The texts of segments, as the canonical text has them. -/
def texts (segments : List Segment) : List (List Char) :=
  segments.map fun s => s.text.toList

/-- A text with `=*` left out before every closing brace. -/
def withoutStars : List Char → List Char
  | '=' :: '*' :: '\x7d' :: cs => '\x7d' :: withoutStars cs
  | c :: cs => c :: withoutStars cs
  | [] => []

theorem flatMap_slash
    {segments : List Segment}
    (h : segments ≠ []) :
    (segments.flatMap fun s => '/' :: s.text.toList) =
      '/' :: ['/'].intercalate (texts segments) := by
  induction segments with
  | nil => exact absurd rfl h
  | cons segment rest ih =>
      rcases eq_or_ne rest [] with rfl | hrest
      · simp [texts]
      · have htexts : texts rest ≠ [] := by simpa [texts] using hrest
        have hcons : texts (segment :: rest) = segment.text.toList :: texts rest := rfl
        rw [List.flatMap_cons, ih hrest, hcons, List.intercalate_cons_of_ne_nil htexts]
        simp

/-- The canonical text has the texts of the segments between slashes, and then the custom verb. -/
theorem toList_canonical
    (t : RouteTemplate) :
    t.canonical.toList =
      '/' :: (['/'].intercalate (texts t.segments) ++ verbSuffix t.customVerb) := by
  have hpath : (if t.segments.isEmpty then "/"
      else String.join (t.segments.map fun s => "/" ++ s.text)).toList =
        '/' :: ['/'].intercalate (texts t.segments) := by
    rcases eq_or_ne t.segments [] with hroot | hsome
    · rw [hroot]
      rfl
    · rw [if_neg (by simpa using hsome), String.toList_join, List.flatMap_map,
        ← flatMap_slash hsome]
      simp
  unfold canonical render
  cases t.customVerb with
  | none =>
      dsimp only
      rw [hpath, verbSuffix, Option.elim_none, List.append_nil]
  | some v =>
      dsimp only
      rw [String.toList_append, String.toList_append, hpath]
      simp [verbSuffix]

/-!
## The canonical text compiles
-/

/-- A segment can be written as its text. -/
theorem Spelled.text
    {segment : Segment} {raw : List Char}
    (h : Spelled segment raw) :
    Spelled segment segment.text.toList := by
  cases h with
  | literal some plain named => simpa [Segment.text] using Spelled.literal some plain named
  | capture h => simpa [Segment.text] using Spelled.capture h
  | captureOne h => simpa [Segment.text] using Spelled.capture h
  | captureRest h => simpa [Segment.text] using Spelled.captureRest h

/-- Only a literal can hold a colon, and it has one written form. -/
theorem Spelled.eq_text_of_colon
    {segment : Segment} {raw : List Char}
    (h : Spelled segment raw) (hcolon : ':' ∈ segment.text.toList) :
    raw = segment.text.toList := by
  have hname : ∀ {name : List Char}, ParamName name → ':' ∉ name := fun hname =>
    not_mem_of_isCustomVerbChar hname.isCustomVerbChar (by decide)
  cases h with
  | literal some plain named => simp [Segment.text]
  | capture h => simp [Segment.text, hname h] at hcolon
  | captureOne h => simp [Segment.text, hname h] at hcolon
  | captureRest h => simp [Segment.text, hname h] at hcolon

theorem forall₂_spelled_texts
    {segments : List Segment} {raws : List (List Char)}
    (h : List.Forall₂ Spelled segments raws) :
    List.Forall₂ Spelled segments (texts segments) := by
  induction h with
  | nil => exact .nil
  | cons hspelled hrest ih => exact .cons hspelled.text ih

/-- The last text belongs to the segment that the last written form belongs to. -/
theorem exists_spelled_last
    {segments : List Segment} {raws : List (List Char)} {last : List Char}
    (h : List.Forall₂ Spelled segments raws) (hlast : (texts segments).getLast? = some last) :
    ∃ segment raw, last = segment.text.toList ∧ raws.getLast? = some raw ∧ Spelled segment raw := by
  rw [texts, List.getLast?_map, Option.map_eq_some_iff] at hlast
  obtain ⟨segment, hsegment, rfl⟩ := hlast
  obtain ⟨front, rfl⟩ := List.getLast?_eq_some_iff.mp hsegment
  have hreverse := List.forall₂_reverse_iff.mpr h
  rw [List.reverse_append, List.reverse_singleton, List.singleton_append,
    List.forall₂_cons_left_iff] at hreverse
  obtain ⟨raw, rest, hspelled, -, hraws⟩ := hreverse
  refine ⟨segment, raw, rfl, ?_, hspelled⟩
  rw [← List.head?_reverse, hraws, List.head?_cons]

/-- The canonical text follows the grammar. -/
theorem Reads.canonical
    {text : List Char} {t : RouteTemplate} {raws : List (List Char)}
    (h : Reads text t.segments t.customVerb raws) :
    Reads t.canonical.toList t.segments t.customVerb (texts t.segments) := by
  refine ⟨toList_canonical t, forall₂_spelled_texts h.spelled, h.compiled, h.verb, ?_⟩
  intro hnone last hlast before behind hcolon
  obtain ⟨segment, raw, rfl, hraw, hspelled⟩ := exists_spelled_last h.spelled hlast
  have hmem : ':' ∈ segment.text.toList := by
    rw [hcolon.split]
    simp
  rw [← hspelled.eq_text_of_colon hmem] at hcolon
  exact h.colonless hnone raw hraw before behind hcolon

/-!
## What the canonical text leaves out
-/

theorem withoutStars_cons
    {c : Char} {cs : List Char}
    (h : ∀ rest, c = '=' → cs ≠ '*' :: '\x7d' :: rest) :
    withoutStars (c :: cs) = c :: withoutStars cs := by
  rw [withoutStars]
  exact fun rest hc hcs => h rest hc hcs

/-- Where no equals sign is, nothing is left out. -/
theorem withoutStars_append
    {cs : List Char} (rest : List Char)
    (h : '=' ∉ cs) :
    withoutStars (cs ++ rest) = cs ++ withoutStars rest := by
  induction cs with
  | nil => rfl
  | cons c cs ih =>
      rw [List.mem_cons, not_or] at h
      rw [List.cons_append, withoutStars_cons fun _ hc => absurd hc.symm h.1, ih h.2,
        List.cons_append]

/-- What stands behind a segment: nothing, a slash or a colon. -/
def Follows (rest : List Char) : Prop :=
  ∀ c ∈ rest.head?, c = '/' ∨ c = ':'

/-- Where no closing brace is, nothing is left out. -/
theorem withoutStars_append_of_follows
    {cs rest : List Char}
    (h : '\x7d' ∉ cs) (hrest : Follows rest) :
    withoutStars (cs ++ rest) = cs ++ withoutStars rest := by
  induction cs with
  | nil => rfl
  | cons c cs ih =>
      rw [List.mem_cons, not_or] at h
      rw [List.cons_append, withoutStars_cons ?_, ih h.2, List.cons_append]
      rintro tail - hcs
      -- the brace is not in the text, and what follows does not start with `*}` or a brace
      match cs, hcs with
      | [], hcs =>
          rw [List.nil_append] at hcs
          exact absurd (hrest '*' (by simp [hcs])) (by decide)
      | [_], hcs =>
          have hhead : rest = '\x7d' :: tail := (List.cons.inj hcs).2
          exact absurd (hrest '\x7d' (by simp [hhead])) (by decide)
      | _ :: d :: _, hcs =>
          obtain ⟨rfl, -⟩ := List.cons.inj (List.cons.inj hcs).2
          exact h.2 (by simp)

/-- A written form becomes the text of its segment. -/
theorem Spelled.withoutStars_append
    {segment : Segment} {raw rest : List Char}
    (h : Spelled segment raw) (hrest : Follows rest) :
    withoutStars (raw ++ rest) = segment.text.toList ++ withoutStars rest := by
  have hname : ∀ {name : List Char}, ParamName name → '=' ∉ '\x7b' :: name := by
    intro name hname
    rw [List.mem_cons, not_or]
    exact ⟨by decide, not_mem_of_isCustomVerbChar hname.isCustomVerbChar (by decide)⟩
  cases h with
  | literal some plain named =>
      have hbrace : '\x7d' ∉ raw := fun hmem => absurd (plain '\x7d' hmem) (by decide)
      rw [withoutStars_append_of_follows hbrace hrest, Segment.text, String.toList_ofList]
  | @capture name h =>
      have hraw : '=' ∉ '\x7b' :: (name ++ ['\x7d']) := by simpa using hname h
      rw [RouteTemplate.withoutStars_append rest hraw]
      simp [Segment.text]
  | @captureOne name h =>
      rw [← List.cons_append, List.append_assoc, RouteTemplate.withoutStars_append _ (hname h)]
      simp [Segment.text, withoutStars]
  | @captureRest name h =>
      have hpattern : withoutStars (['=', '*', '*', '\x7d'] ++ rest) =
          ['=', '*', '*', '\x7d'] ++ withoutStars rest := by
        have hbehind : '=' ∉ ['*', '*', '\x7d'] := by decide
        rw [List.cons_append, withoutStars_cons (by simp),
          RouteTemplate.withoutStars_append rest hbehind]
        rfl
      rw [← List.cons_append, List.append_assoc, RouteTemplate.withoutStars_append _ (hname h),
        hpattern]
      simp [Segment.text]

/-- The segments of a template are written as in its canonical text, the stars left out. -/
theorem withoutStars_intercalate
    {segments : List Segment} {raws : List (List Char)} {rest : List Char}
    (h : List.Forall₂ Spelled segments raws) (hrest : Follows rest) :
    withoutStars (['/'].intercalate raws ++ rest) =
      ['/'].intercalate (texts segments) ++ withoutStars rest := by
  induction h with
  | nil => rfl
  | @cons segment raw segments raws hspelled hmore ih =>
      have hcons : texts (segment :: segments) = segment.text.toList :: texts segments := rfl
      cases hmore with
      | nil =>
          have hone : texts [segment] = [segment.text.toList] := rfl
          rw [hone, List.intercalate_singleton, List.intercalate_singleton]
          exact hspelled.withoutStars_append hrest
      | @cons next raw' segments raws hnext hlater =>
          have hnexts : texts (next :: segments) = next.text.toList :: texts segments := rfl
          rw [hnexts] at ih
          have hslash : Follows ('/' :: (['/'].intercalate (raw' :: raws) ++ rest)) := by
            intro c hc
            exact Or.inl (Option.some.inj hc).symm
          rw [List.intercalate_cons_cons, List.append_assoc, List.append_assoc,
            List.singleton_append, hspelled.withoutStars_append hslash,
            withoutStars_cons (fun _ hc => absurd hc (by decide)), ih, hcons, hnexts,
            List.intercalate_cons_cons]
          simp

/-- The canonical text is the text of the template with the stars left out. -/
theorem Reads.toList_canonical_eq
    {text : List Char} {t : RouteTemplate} {raws : List (List Char)}
    (h : Reads text t.segments t.customVerb raws) :
    t.canonical.toList = withoutStars text := by
  have hfollows : Follows (verbSuffix t.customVerb) := by
    cases t.customVerb with
    | none => simp [verbSuffix, Follows]
    | some v => simp [verbSuffix, Follows]
  have hsuffix : withoutStars (verbSuffix t.customVerb) = verbSuffix t.customVerb := by
    have hequals : '=' ∉ verbSuffix t.customVerb := by
      cases hverb : t.customVerb with
      | none => simp [verbSuffix]
      | some v =>
          rw [verbSuffix, Option.elim_some, List.mem_cons, not_or]
          exact ⟨by decide, not_mem_of_isCustomVerbChar (h.verb v hverb).2.2 (by decide)⟩
    have happend := withoutStars_append [] hequals
    rwa [List.append_nil, withoutStars, List.append_nil] at happend
  rw [h.written, withoutStars_cons (fun _ hc => absurd hc (by decide)),
    withoutStars_intercalate h.spelled hfollows, hsuffix, toList_canonical]

/-!
## Templates with the same canonical text
-/

/-- The canonical text compiles to the same template, in whatever letter case the verb is given. -/
theorem compile_canonical_eq_ok
    {template verb called : String} {t : RouteTemplate}
    (h : compile template verb = .ok t)
    (hcalled : t.verb.text.toList = called.toList.flatMap Verb.upper) :
    compile t.canonical called = .ok { t with source := t.canonical } := by
  obtain ⟨-, -, raws, hreads⟩ := compile_eq_ok_iff_reads.mp h
  exact compile_eq_ok_iff_reads.mpr ⟨hcalled, rfl, _, hreads.canonical⟩

/-- Templates of one verb have the same canonical text if and only if they have the same segments
and the same custom verb. -/
theorem canonical_eq_iff
    {template verb other called : String} {t u : RouteTemplate}
    (ht : compile template verb = .ok t) (hu : compile other called = .ok u)
    (hverb : t.verb = u.verb) :
    t.canonical = u.canonical ↔ t.segments = u.segments ∧ t.customVerb = u.customVerb := by
  have hown : ∀ v : Verb, v.text.toList = v.text.toList.flatMap Verb.upper := fun v =>
    Verb.ofText?_eq_some_iff.mp (Verb.ofText?_text v)
  constructor
  · intro hcanonical
    have htext := compile_canonical_eq_ok ht (hown t.verb)
    have huText := compile_canonical_eq_ok hu (hown u.verb)
    rw [hcanonical, hverb, huText] at htext
    obtain ⟨-, hsegments, hcustom, -⟩ := RouteTemplate.mk.inj (Except.ok.inj htext)
    exact ⟨hsegments.symm, hcustom.symm⟩
  · rintro ⟨hsegments, hcustom⟩
    rw [canonical, canonical, hsegments, hcustom]

/-- What a template matches depends on its verb, its segments and its custom verb. -/
theorem match?_congr
    {t u : RouteTemplate}
    (hverb : t.verb = u.verb) (hsegments : t.segments = u.segments)
    (hcustom : t.customVerb = u.customVerb) (called path : String) :
    t.match? called path = u.match? called path := by
  rw [match?, match?, hverb, hsegments, hcustom]

/-- **Canonical texts are normal forms.**  The canonical text of a template compiles for the same
verb, to the same segments, custom verb and names, and is its own canonical text.  Two templates
have the same verb and the same canonical text if and only if they have the same verb, segments and
custom verb, and then they match the same requests with the same bindings.  The canonical text is
the text of the template with each `{name=*}` written as `{name}`. -/
theorem canonical_normal_form
    {template verb : String} {t : RouteTemplate}
    (h : compile template verb = .ok t) :
    (∃ u, compile t.canonical verb = .ok u ∧ u.verb = t.verb ∧ u.segments = t.segments ∧
      u.customVerb = t.customVerb ∧ u.paramNames = t.paramNames ∧ u.canonical = t.canonical) ∧
    (∀ other called u, compile other called = .ok u →
      (t.verb = u.verb ∧ t.canonical = u.canonical ↔
        t.verb = u.verb ∧ t.segments = u.segments ∧ t.customVerb = u.customVerb) ∧
      (t.verb = u.verb ∧ t.canonical = u.canonical →
        ∀ asked path, t.match? asked path = u.match? asked path)) ∧
    t.canonical.toList = withoutStars template.toList := by
  refine ⟨⟨_, compile_canonical_eq_ok h (compile_eq_ok h).1, rfl, rfl, rfl, rfl, rfl⟩, ?_, ?_⟩
  · intro other called u hu
    have hiff : t.verb = u.verb ∧ t.canonical = u.canonical ↔
        t.verb = u.verb ∧ t.segments = u.segments ∧ t.customVerb = u.customVerb :=
      and_congr_right fun hverb => canonical_eq_iff h hu hverb
    refine ⟨hiff, fun hsame => ?_⟩
    obtain ⟨hverb, hsegments, hcustom⟩ := hiff.mp hsame
    exact match?_congr hverb hsegments hcustom
  · obtain ⟨-, -, raws, hreads⟩ := compile_eq_ok_iff_reads.mp h
    exact hreads.toList_canonical_eq

/-- A template with colons in its literals and a capture that is written at length. -/
def taggedJob : RouteTemplate :=
  ⟨.post, [.literal "v1:a", .capture "job.id", .literal "x::y"], some "go",
    "/v1:a/\x7bjob.id=*\x7d/x::y:go"⟩

theorem canonical_normal_form_taggedJob :
    compile taggedJob.source "post" = .ok taggedJob ∧
      taggedJob.canonical = "/v1:a/\x7bjob.id\x7d/x::y:go" ∧
      ∃ u, compile taggedJob.canonical "post" = .ok u ∧ u.canonical = taggedJob.canonical ∧
        ∀ asked path, taggedJob.match? asked path = u.match? asked path := by
  have hcompile : compile taggedJob.source "post" = .ok taggedJob := by decide
  obtain ⟨⟨u, hu, hverb, hsegments, hcustom, -, hcanonical⟩, hothers, -⟩ :=
    canonical_normal_form hcompile
  refine ⟨hcompile, by decide, u, hu, hcanonical, ?_⟩
  exact (hothers _ _ u hu).2 ⟨hverb.symm, hcanonical.symm⟩

end RouteTemplate
end RpcGateway
