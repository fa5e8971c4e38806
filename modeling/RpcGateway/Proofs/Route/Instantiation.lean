import Mathlib.Data.List.Forall2
import RpcGateway.Proofs.Route.Compiled
import RpcGateway.Proofs.Route.PercentCoding

/-!
# Matching is instantiation

A path matches a template if and only if it is the template with its captures filled in.

**Instantiation.**  `Instantiates segments raws ps` says that raw segments fill in the segments of a
template and that this binds the parameters `ps`: a literal is itself, a capture is one non-empty
raw segment, a capture of everything that is left is at least one, none of them empty.  `Fills` says
the same of a whole path, with the leading slash, the separators and the custom verb.

**Filling in.**  `fill` writes a path from values for the captures.
-/

namespace RpcGateway
namespace RouteTemplate

open PercentCoding

/-- Raw segments that fill in the segments of a template, and what they bind. -/
inductive Instantiates : List Segment → List (List Char) → PathParams → Prop
  | nil :
      Instantiates [] [] []
  | literal
      {text : String} {segments : List Segment} {raws : List (List Char)} {ps : PathParams}
      (tail : Instantiates segments raws ps) :
      Instantiates (.literal text :: segments) (text.toList :: raws) ps
  | capture
      {name value : String} {raw : List Char}
      {segments : List Segment} {raws : List (List Char)} {ps : PathParams}
      (nonempty : raw ≠ []) (decodes : Decodes raw value)
      (tail : Instantiates segments raws ps) :
      Instantiates (.capture name :: segments) (raw :: raws) ((name, value) :: ps)
  | captureRest
      {name : String} {raws : List (List Char)} {values : List String}
      (some : raws ≠ []) (nonempty : ∀ raw ∈ raws, raw ≠ [])
      (decodes : List.Forall₂ Decodes raws values) :
      Instantiates [.captureRest name] raws [(name, "/".intercalate values)]

/-- A path that fills in a template, and what it binds. -/
def Fills (t : RouteTemplate) (path : String) (ps : PathParams) : Prop :=
  ∃ raws, (∀ raw ∈ raws, '/' ∉ raw) ∧ Instantiates t.segments raws ps ∧
    path.toList = '/' :: (['/'].intercalate raws ++ (t.customVerb.elim [] fun v => ':' :: v.toList))

theorem mapM_eq_some_iff_forall₂
    {α β : Type} {f : α → Option β} {xs : List α} {ys : List β} :
    xs.mapM f = some ys ↔ List.Forall₂ (fun x y => f x = some y) xs ys := by
  induction xs generalizing ys with
  | nil =>
      rw [List.mapM_nil, List.forall₂_nil_left_iff]
      simp [eq_comm]
  | cons x xs ih =>
      rw [List.mapM_cons, List.forall₂_cons_left_iff]
      simp only [Option.bind_eq_bind, Option.pure_def, Option.bind_eq_some_iff, Option.some.injEq]
      constructor
      · rintro ⟨y, hy, ys', hys, rfl⟩
        exact ⟨y, ys', hy, ih.mp hys, rfl⟩
      · rintro ⟨y, ys', hy, hys, rfl⟩
        exact ⟨y, hy, ys', ih.mpr hys, rfl⟩

theorem matchSegments_nil_right
    (segments : List Segment) :
    matchSegments segments [] = if segments = [] then some [] else none := by
  cases segments with
  | nil => rfl
  | cons segment segments => rfl

/-- A capture of everything that is left must be the last segment. -/
theorem matchSegments_captureRest_eq_some_iff
    {name : String} {segments : List Segment} {raws : List (List Char)} {ps : PathParams} :
    matchSegments (.captureRest name :: segments) raws = some ps ↔
      segments = [] ∧ raws ≠ [] ∧ (∀ raw ∈ raws, raw ≠ []) ∧
        ∃ values, List.Forall₂ Decodes raws values ∧ ps = [(name, "/".intercalate values)] := by
  have hdecode : (fun raw value => decode? raw = some value) = Decodes := by
    funext raw value
    exact propext decode?_eq_some_iff
  cases raws with
  | nil => simp [matchSegments]
  | cons raw raws =>
      rw [matchSegments]
      split
      case isTrue hempty =>
        obtain ⟨raw', hmem, hnil⟩ := List.any_eq_true.mp hempty
        simp only [reduceCtorEq, false_iff]
        rintro ⟨-, -, hfull, -⟩
        exact hfull raw' hmem (List.isEmpty_iff.mp hnil)
      case isFalse hempty =>
        have hfull : ∀ raw' ∈ raw :: raws, raw' ≠ [] := by
          intro raw' hmem hnil
          exact hempty (List.any_eq_true.mpr ⟨raw', hmem, List.isEmpty_iff.mpr hnil⟩)
        split
        case h_1 hnone =>
          simp only [reduceCtorEq, false_iff]
          rintro ⟨-, -, -, values, hvalues, -⟩
          rw [← hdecode, ← mapM_eq_some_iff_forall₂, hnone] at hvalues
          cases hvalues
        case h_2 values hsome =>
          rw [mapM_eq_some_iff_forall₂, hdecode] at hsome
          rw [matchSegments_nil_right]
          by_cases hlast : segments = []
          · subst hlast
            simp only [if_true, Option.map_some, Option.some.injEq]
            constructor
            · rintro rfl
              exact ⟨trivial, by simp, hfull, values, hsome, rfl⟩
            · rintro ⟨-, -, -, values', hvalues', rfl⟩
              rw [← hdecode, ← mapM_eq_some_iff_forall₂] at hsome hvalues'
              rw [hsome] at hvalues'
              rw [Option.some.inj hvalues']
          · simp [hlast]

/-- The raw segments of a path match if and only if they fill in the segments. -/
theorem matchSegments_eq_some_iff
    {segments : List Segment} {raws : List (List Char)} {ps : PathParams} :
    matchSegments segments raws = some ps ↔ Instantiates segments raws ps := by
  constructor
  · intro h
    induction segments generalizing raws ps with
    | nil =>
        cases raws with
        | nil =>
            obtain rfl := Option.some.inj h
            exact Instantiates.nil
        | cons raw raws => cases h
    | cons segment segments ih =>
        cases segment with
        | literal text =>
            cases raws with
            | nil => cases h
            | cons raw raws =>
                rw [matchSegments] at h
                split_ifs at h with heq
                subst heq
                exact Instantiates.literal (ih h)
        | capture name =>
            cases raws with
            | nil => cases h
            | cons raw raws =>
                rw [matchSegments] at h
                split_ifs at h with hempty
                split at h
                case h_1 => cases h
                case h_2 value hvalue =>
                  obtain ⟨qs, hqs, rfl⟩ := Option.map_eq_some_iff.mp h
                  have hraw : raw ≠ [] := fun hnil => hempty (List.isEmpty_iff.mpr hnil)
                  exact Instantiates.capture hraw (decode?_eq_some_iff.mp hvalue) (ih hqs)
        | captureRest name =>
            obtain ⟨rfl, hsome, hfull, values, hvalues, rfl⟩ :=
              matchSegments_captureRest_eq_some_iff.mp h
            exact Instantiates.captureRest hsome hfull hvalues
  · intro h
    induction h with
    | nil => rfl
    | literal tail ih => rw [matchSegments, if_pos rfl, ih]
    | capture nonempty decodes tail ih =>
        have hraw := List.isEmpty_eq_false_iff.mpr nonempty
        simp [matchSegments, hraw, decode?_eq_some_iff.mpr decodes, ih]
    | captureRest some nonempty decodes =>
        exact matchSegments_captureRest_eq_some_iff.mpr
          ⟨rfl, some, nonempty, _, decodes, rfl⟩

theorem Instantiates.names_eq
    {segments : List Segment} {raws : List (List Char)} {ps : PathParams}
    (h : Instantiates segments raws ps) :
    ps.map Prod.fst = segments.filterMap Segment.name? := by
  induction h with
  | nil => rfl
  | literal tail ih => exact ih
  | capture nonempty decodes tail ih => exact congrArg (_ :: ·) ih
  | captureRest some nonempty decodes => rfl

theorem Instantiates.raws_eq_nil_iff
    {segments : List Segment} {raws : List (List Char)} {ps : PathParams}
    (h : Instantiates segments raws ps) :
    raws = [] ↔ segments = [] := by
  cases h with
  | nil => simp
  | literal tail => simp
  | capture nonempty decodes tail => simp
  | captureRest some nonempty decodes => simp [some]

/-!
## Whole paths
-/

theorem withoutCustomVerb_eq_some_iff
    {customVerb : Option String} {cs before : List Char} :
    withoutCustomVerb customVerb cs = some before ↔
      cs = before ++ customVerb.elim [] fun v => ':' :: v.toList := by
  cases customVerb with
  | none => simp [withoutCustomVerb]
  | some v =>
      rw [withoutCustomVerb, List.isSuffixOf?_eq_some_iff_append_eq]
      exact eq_comm

/-- A path matches a template if and only if the verb is its verb and the path fills it in. -/
theorem match?_eq_some_iff
    {t : RouteTemplate} {verb path : String} {ps : PathParams} :
    t.match? verb path = some ps ↔ verb = t.verb.text ∧ t.Fills path ps := by
  unfold match?
  by_cases hverb : verb = t.verb.text
  · rw [if_neg (not_not_intro hverb)]
    simp only [hverb, true_and]
    constructor
    · intro h
      split at h
      case h_2 => cases h
      case h_1 rest hpath =>
        split at h
        case h_1 => cases h
        case h_2 before hbefore =>
          rw [withoutCustomVerb_eq_some_iff] at hbefore
          split_ifs at h with hroot hempty
          · obtain rfl := Option.some.inj h
            refine ⟨[], by simp, ?_, ?_⟩
            · rw [List.isEmpty_iff.mp hroot]
              exact Instantiates.nil
            · rw [hpath, hbefore, List.isEmpty_iff.mp hempty]
              rfl
          · refine ⟨before.splitOn '/', fun _ => not_mem_of_mem_splitOn,
              matchSegments_eq_some_iff.mp h, ?_⟩
            rw [List.intercalate_splitOn, hpath, hbefore]
    · rintro ⟨raws, hslash, hraws, hpath⟩
      rw [hpath]
      simp only [withoutCustomVerb_eq_some_iff.mpr rfl]
      by_cases hroot : t.segments = []
      · obtain rfl := hraws.raws_eq_nil_iff.mpr hroot
        rw [hroot] at hraws
        cases hraws
        simp [hroot]
      · have hsome : raws ≠ [] := fun hnil => hroot (hraws.raws_eq_nil_iff.mp hnil)
        rw [if_neg (by simpa using hroot), List.splitOn_intercalate '/' hslash hsome]
        exact matchSegments_eq_some_iff.mpr hraws
  · rw [if_pos hverb]
    simp [hverb]

/-!
## Filling in
-/

/-- The raw segments that values make of a segment.  The value of a name is given in parts: a single
capture takes them joined, a capture of everything that is left takes one after another. -/
def fillSegment (keep : UInt8 → Bool) (parts : String → List String) : Segment → List (List Char)
  | .literal text => [text.toList]
  | .capture name => [encodeWith keep ("/".intercalate (parts name))]
  | .captureRest name => (parts name).map (encodeWith keep)

/-- The path that values make of a template. -/
def fill (t : RouteTemplate) (keep : UInt8 → Bool) (parts : String → List String) : String :=
  String.ofList ('/' :: (['/'].intercalate (t.segments.flatMap (fillSegment keep parts)) ++
    t.customVerb.elim [] fun v => ':' :: v.toList))

/-- At least one part, and none empty. -/
def Nonempty (parts : List String) : Prop :=
  parts ≠ [] ∧ ∀ part ∈ parts, part ≠ ""

theorem Nonempty.intercalate_ne
    {parts : List String}
    (h : Nonempty parts) :
    "/".intercalate parts ≠ "" := by
  obtain ⟨hsome, hfull⟩ := h
  cases parts with
  | nil => exact absurd rfl hsome
  | cons part rest =>
      have hpart := hfull part (List.mem_cons_self ..)
      cases rest with
      | nil => simpa using hpart
      | cons next rest =>
          rw [String.intercalate_cons_cons]
          intro hempty
          have hlist := congrArg String.toList hempty
          simp at hlist

/-- Filling in a compiled template binds the values to the names. -/
theorem instantiates_fill
    {keep : UInt8 → Bool} {parts : String → List String} {segments : List Segment}
    (hk : Clear keep)
    (hc : Compiled segments)
    (hparts : ∀ name ∈ segments.filterMap Segment.name?, Nonempty (parts name)) :
    Instantiates segments (segments.flatMap (fillSegment keep parts))
      ((segments.filterMap Segment.name?).map fun name => (name, "/".intercalate (parts name))) := by
  induction segments with
  | nil => exact Instantiates.nil
  | cons segment segments ih =>
      cases segment with
      | literal text =>
          exact Instantiates.literal (ih hc.tail hparts)
      | capture name =>
          have hname := hparts name (List.mem_cons_self ..)
          refine Instantiates.capture (encodeWith_ne_nil hname.intercalate_ne)
            (decodes_encodeWith hk _) (ih hc.tail ?_)
          intro name' hname'
          exact hparts name' (List.mem_cons_of_mem _ hname')
      | captureRest name =>
          obtain rfl := hc.eq_nil_of_captureRest
          obtain ⟨hsome, hfull⟩ := hparts name (List.mem_cons_self ..)
          have hraws : [Segment.captureRest name].flatMap (fillSegment keep parts) =
              (parts name).map (encodeWith keep) := by
            simp [fillSegment]
          rw [hraws]
          refine Instantiates.captureRest (by simpa using hsome) ?_ ?_
          · intro raw hraw
            obtain ⟨part, hpart, rfl⟩ := List.mem_map.mp hraw
            exact encodeWith_ne_nil (hfull part hpart)
          · rw [List.forall₂_map_left_iff, List.forall₂_same]
            intro part _
            exact decodes_encodeWith hk part

theorem slash_not_mem_fillSegment
    {keep : UInt8 → Bool} {parts : String → List String} {segments : List Segment}
    (hk : Clear keep)
    (hc : Compiled segments) :
    ∀ raw ∈ segments.flatMap (fillSegment keep parts), '/' ∉ raw := by
  intro raw hraw
  obtain ⟨segment, hsegment, hraw⟩ := List.mem_flatMap.mp hraw
  cases segment with
  | literal text =>
      obtain rfl := List.mem_singleton.mp hraw
      exact hc.slashless text hsegment
  | capture name =>
      obtain rfl := List.mem_singleton.mp hraw
      exact slash_not_mem_encodeWith hk _
  | captureRest name =>
      obtain ⟨part, -, rfl⟩ := List.mem_map.mp hraw
      exact slash_not_mem_encodeWith hk part

/-- A compiled template matches a path if and only if the path fills it in; the parameters that this
binds have the names of the template, each once; and values that are filled in are read back. -/
theorem match?_iff_fills
    {template verb : String} {t : RouteTemplate}
    (h : compile template verb = .ok t) :
    (∀ called path ps, t.match? called path = some ps ↔
      called = t.verb.text ∧ t.Fills path ps) ∧
    (∀ path ps, t.Fills path ps → ps.map Prod.fst = t.paramNames ∧ t.paramNames.Nodup) ∧
    (∀ keep, Clear keep → ∀ parts, (∀ name ∈ t.paramNames, Nonempty (parts name)) →
      t.match? t.verb.text (t.fill keep parts) =
        some (t.paramNames.map fun name => (name, "/".intercalate (parts name)))) := by
  have hc := compiled_of_compile h
  refine ⟨fun called path ps => match?_eq_some_iff, ?_, ?_⟩
  · rintro path ps ⟨raws, -, hraws, -⟩
    exact ⟨hraws.names_eq, hc.distinct⟩
  · intro keep hk parts hparts
    rw [match?_eq_some_iff]
    refine ⟨rfl, _, slash_not_mem_fillSegment hk hc, instantiates_fill hk hc hparts, ?_⟩
    exact String.toList_ofList

/-- A template with all kinds of segments. -/
def cancelJob : RouteTemplate :=
  ⟨.post, [.literal "v1", .literal "jobs", .capture "id", .captureRest "path"], some "cancel",
    "/v1/jobs/\x7bid\x7d/\x7bpath=**\x7d:cancel"⟩

/-- Values for its captures, one of them with a slash, one of two parts. -/
def jobParts (name : String) : List String :=
  if name = "id" then ["a/b"] else ["x", "ÿ"]

theorem match?_iff_fills_cancelJob :
    compile cancelJob.source "POST" = .ok cancelJob ∧
      cancelJob.match? "POST" "/v1/jobs/a%2Fb/x/%C3%BF:cancel" =
        some [("id", "a/b"), ("path", "x/ÿ")] := by
  have hcompile : compile cancelJob.source "POST" = .ok cancelJob := by decide
  obtain ⟨-, -, hfill⟩ := match?_iff_fills hcompile
  have hparts : ∀ name ∈ cancelJob.paramNames, Nonempty (jobParts name) := by
    unfold Nonempty
    decide
  exact ⟨hcompile, hfill isPlain clear_isPlain jobParts hparts⟩

end RouteTemplate
end RpcGateway
