import Mathlib.Data.List.Forall2
import RpcGateway.Codec.Negotiation
import RpcGateway.Proofs.Text.Blank
import RpcGateway.Rehearsal.Codecs

/-!
# Content negotiation

A table of codecs is filled by registrations and asked by header lines.  This module says what it
answers in terms of the registrations, without the table.

**Names.**  A media type `Names` what stands in front of its first semicolon, without the blanks
around that.  The name is `Bare`: it names itself.

**Precedence.**  A media type `Selects` the codec that was the last to be registered under its name.
`Inbound` and `Outbound` say which codec is chosen: the one that is selected first, else the one
that comes next in the precedence.

**Results.**
* `negotiation_precedence`: the table answers by the precedence, so spellings, media types that
  select nothing and the order of different names make no difference;
* `negotiable_iff`: what is registered under a text is found under the same text if and only if the
  text is bare.  A registration under any other text changes nothing.
-/

namespace RpcGateway
namespace CodecTable

/-!
## The names of media types
-/

/-- A text without parameters and without blanks at its ends. -/
structure Bare (cs : List Char) : Prop where
  plain : ';' ∉ cs
  trimmed : Blank.Trimmed cs

/-- The name that a media type begins with: there may be blanks on both sides of it, and parameters
behind a semicolon. -/
structure Names (mediaType name : List Char) : Prop where
  bare : Bare name
  written : ∃ front behind params,
    mediaType = front ++ name ++ behind ++ params ∧
    (∀ c ∈ front, Blank.isBlank c = true) ∧
    (∀ c ∈ behind, Blank.isBlank c = true) ∧
    ∀ c ∈ params.head?, c = ';'

theorem names_iff
    {mediaType name : List Char} :
    Names mediaType name ↔ Blank.trim (mediaType.takeWhile (· != ';')) = name := by
  have hblank : ∀ c, Blank.isBlank c = true → c ≠ ';' := by
    rintro c hc rfl
    revert hc
    decide
  constructor
  · rintro ⟨⟨hplain, htrimmed⟩, front, behind, params, rfl, hfront, hbehind, hparams⟩
    have hall : ∀ c ∈ front ++ name ++ behind, (c != ';') = true := by
      intro c hc
      rw [bne_iff_ne]
      rintro rfl
      rcases List.mem_append.mp hc with hc | hc
      · rcases List.mem_append.mp hc with hc | hc
        · exact hblank _ (hfront _ hc) rfl
        · exact hplain hc
      · exact hblank _ (hbehind _ hc) rfl
    have hstop : params.takeWhile (· != ';') = [] := by
      cases params with
      | nil => rfl
      | cons c rest => simp [hparams c rfl]
    rw [List.takeWhile_append_of_pos hall, hstop, List.append_nil]
    exact Blank.trim_of_blanks hfront hbehind htrimmed
  · intro h
    obtain ⟨htrimmed, front, behind, heq, hfront, hbehind⟩ := Blank.trim_eq_iff.mp h
    refine ⟨⟨fun hmem => ?_, htrimmed⟩, front, behind, mediaType.dropWhile (· != ';'), ?_, hfront,
      hbehind, fun c hc => ?_⟩
    · have htaken : ';' ∈ mediaType.takeWhile (· != ';') := by
        rw [heq]
        simp [hmem]
      simpa using List.mem_takeWhile_imp htaken
    · rw [← heq, List.takeWhile_append_dropWhile]
    · have hnot := List.head?_dropWhile_not (· != ';') mediaType
      rw [hc] at hnot
      simpa using hnot

theorem exists_names (mediaType : List Char) :
    ∃ name, Names mediaType name :=
  ⟨_, names_iff.mpr rfl⟩

theorem Names.essence_eq
    {mediaType name : List Char}
    (h : Names mediaType name) :
    essence mediaType = Ascii.lower (String.ofList name) := by
  rw [essence, names_iff.mp h]

theorem Bare.names
    {cs : List Char}
    (h : Bare cs) :
    Names cs cs :=
  ⟨h, [], [], [], by simp, by simp, by simp, by simp⟩

/-- A text is looked up as it is registered, but for letter case, if and only if it is bare. -/
theorem essence_eq_lower_iff
    {s : String} :
    essence s.toList = Ascii.lower s ↔ Bare s.toList := by
  constructor
  · intro h
    obtain ⟨name, hname⟩ := exists_names s.toList
    obtain ⟨front, behind, params, hwritten, -, -, -⟩ := hname.written
    -- the name is as long as the text, so there is nothing around it
    have hlength : name.length = s.toList.length := by
      have hchars := congrArg String.toList (hname.essence_eq.symm.trans h)
      simpa using congrArg List.length hchars
    have hsame : name = s.toList := by
      have hparts := congrArg List.length hwritten
      simp only [List.length_append] at hparts
      have hfront : front = [] := List.eq_nil_of_length_eq_zero (by omega)
      have hbehind : behind = [] := List.eq_nil_of_length_eq_zero (by omega)
      have hparams : params = [] := List.eq_nil_of_length_eq_zero (by omega)
      simpa [hfront, hbehind, hparams] using hwritten.symm
    exact hsame ▸ hname.bare
  · intro h
    rw [h.names.essence_eq, String.ofList_toList]

/-- A media type, written in another way. -/
inductive Respelled : List Char → List Char → Prop
  | letterCase {cs ds : List Char}
      (h : cs.map Char.toLower = ds.map Char.toLower) :
      Respelled cs ds
  | blanks {front behind : List Char} (cs : List Char)
      (hfront : ∀ c ∈ front, Blank.isBlank c = true)
      (hbehind : ∀ c ∈ behind, Blank.isBlank c = true) :
      Respelled cs (front ++ cs ++ behind)
  | parameters (cs params : List Char) : Respelled cs (cs ++ ';' :: params)
  | symm {cs ds : List Char} (h : Respelled cs ds) : Respelled ds cs
  | trans {bs cs ds : List Char} (h : Respelled bs cs) (h' : Respelled cs ds) : Respelled bs ds

/-- Blanks around a media type do not change its name. -/
theorem Names.surrounded
    {front mediaType behind name : List Char}
    (h : Names mediaType name)
    (hfront : ∀ c ∈ front, Blank.isBlank c = true)
    (hbehind : ∀ c ∈ behind, Blank.isBlank c = true) :
    Names (front ++ mediaType ++ behind) name := by
  obtain ⟨hbare, inFront, inBehind, params, rfl, hinFront, hinBehind, hparams⟩ := h
  have hfronts : ∀ c ∈ front ++ inFront, Blank.isBlank c = true := by
    intro c hc
    exact (List.mem_append.mp hc).elim (hfront c) (hinFront c)
  cases params with
  | nil =>
      have hbehinds : ∀ c ∈ inBehind ++ behind, Blank.isBlank c = true := by
        intro c hc
        exact (List.mem_append.mp hc).elim (hinBehind c) (hbehind c)
      exact ⟨hbare, front ++ inFront, inBehind ++ behind, [], by simp, hfronts, hbehinds, by simp⟩
  | cons c rest =>
      -- behind the parameters the blanks are a part of them
      exact ⟨hbare, front ++ inFront, inBehind, c :: rest ++ behind, by simp, hfronts, hinBehind,
        hparams⟩

theorem Names.parametrized
    {mediaType name : List Char}
    (h : Names mediaType name) (more : List Char) :
    Names (mediaType ++ ';' :: more) name := by
  obtain ⟨hbare, front, behind, params, rfl, hfront, hbehind, hparams⟩ := h
  refine ⟨hbare, front, behind, params ++ ';' :: more, by simp, hfront, hbehind, ?_⟩
  cases params with
  | nil => simp
  | cons c rest => exact hparams

theorem essence_map_toLower (cs : List Char) :
    essence (cs.map Char.toLower) = essence cs := by
  have hsemicolon : ((· != ';') ∘ Char.toLower) = (· != ';') := by
    funext c
    rw [Function.comp_apply, Bool.eq_iff_iff, bne_iff_ne, bne_iff_ne, ne_eq, ne_eq,
      Ascii.toLower_eq_iff (by decide)]
  rw [essence, essence, List.takeWhile_map, hsemicolon, Blank.trim_map_toLower]
  apply String.toList_injective
  simp only [Ascii.toList_lower, String.toList_ofList, List.map_map, Function.comp_def,
    Ascii.toLower_toLower]

/-- All spellings of a media type have one name. -/
theorem Respelled.essence_eq
    {cs ds : List Char}
    (h : Respelled cs ds) :
    essence cs = essence ds := by
  induction h with
  | letterCase h => rw [← essence_map_toLower, h, essence_map_toLower]
  | blanks cs hfront hbehind =>
      obtain ⟨name, hname⟩ := exists_names cs
      rw [hname.essence_eq, (hname.surrounded hfront hbehind).essence_eq]
  | parameters cs params =>
      obtain ⟨name, hname⟩ := exists_names cs
      rw [hname.essence_eq, (hname.parametrized params).essence_eq]
  | symm _ ih => exact ih.symm
  | trans _ _ ih ih' => exact ih.trans ih'

/-!
## Registrations
-/

/-- A codec is the last that was registered under a name, in whatever letter case. -/
def LastUnder (rs : List (String × Codec)) (name : String) (codec : Codec) : Prop :=
  ∃ before own after, rs = before ++ (own, codec) :: after ∧
    Ascii.lower own = name ∧ ∀ r ∈ after, Ascii.lower r.1 ≠ name

/-- The registrations under a name. -/
def under (rs : List (String × Codec)) (name : String) : List (String × Codec) :=
  rs.filter fun r => Ascii.lower r.1 = name

theorem lastUnder_iff
    {rs : List (String × Codec)} {name : String} {codec : Codec} :
    LastUnder rs name codec ↔ ∃ own, (under rs name).getLast? = some (own, codec) := by
  constructor
  · rintro ⟨before, own, after, rfl, hown, hafter⟩
    have hnone : under after name = [] := by
      simpa [under, List.filter_eq_nil_iff] using fun n c hmem => hafter (n, c) hmem
    refine ⟨own, ?_⟩
    have hsplit : under (before ++ (own, codec) :: after) name =
        under before name ++ (own, codec) :: under after name := by
      simp [under, hown]
    rw [hsplit, hnone, List.getLast?_concat]
  · rintro ⟨own, hlast⟩
    obtain ⟨earlier, hunder⟩ := List.getLast?_eq_some_iff.mp hlast
    obtain ⟨before, rest, rfl, -, hrest⟩ := List.filter_eq_append_iff.mp hunder
    obtain ⟨skipped, after, rfl, -, hown, hafter⟩ := List.filter_eq_cons_iff.mp hrest
    refine ⟨before ++ skipped, own, after, by simp, by simpa using hown, fun r hr => ?_⟩
    simpa using List.filter_eq_nil_iff.mp hafter r hr

theorem lastUnder_concat
    (rs : List (String × Codec)) (own name : String) (added codec : Codec) :
    LastUnder (rs ++ [(own, added)]) name codec ↔
      if Ascii.lower own = name then added = codec else LastUnder rs name codec := by
  have hunder : under (rs ++ [(own, added)]) name =
      under rs name ++ if Ascii.lower own = name then [(own, added)] else [] := by
    by_cases h : Ascii.lower own = name <;> simp [under, h]
  rw [lastUnder_iff, lastUnder_iff, hunder]
  split
  · simp
  · simp

/-- The name of the fallback has no other spelling. -/
theorem lower_eq_any_iff (s : String) :
    Ascii.lower s = anyMediaType ↔ s = anyMediaType := by
  have hany : anyMediaType.toList = ['*'] := rfl
  rw [← String.toList_inj, ← String.toList_inj, Ascii.toList_lower, hany]
  cases s.toList with
  | nil => simp
  | cons c rest => simp [Ascii.toLower_eq_iff (d := '*') (by decide)]

/-- A media type selects the codec that was registered last under its name.  What is registered
under the name of the fallback is not selected by any. -/
def Selects (rs : List (String × Codec)) (mediaType : List Char) (codec : Codec) : Prop :=
  ∃ name, Names mediaType name ∧ String.ofList name ≠ anyMediaType ∧
    LastUnder rs (Ascii.lower (String.ofList name)) codec

/-- The codec that is used when no media type selects one: the last that was registered as the
fallback, else compact JSON. -/
def FallsBackTo (rs : List (String × Codec)) (codec : Codec) : Prop :=
  LastUnder rs anyMediaType codec ∨
  (∀ r ∈ rs, r.1 ≠ anyMediaType) ∧ codec = Codec.json false

theorem registerAll_concat
    (t : CodecTable) (rs : List (String × Codec)) (own : String) (added : Codec) :
    t.registerAll (rs ++ [(own, added)]) = (t.registerAll rs).register own added :=
  List.foldl_concat ..

/-- A registration is found under its own name, and leaves what is under other names alone. -/
theorem lookup_register
    {t : CodecTable} {own name : String} {added : Codec}
    (hown : own ≠ anyMediaType) :
    (t.register own added).entries.lookup name =
      if Ascii.lower own = name then some added else t.entries.lookup name := by
  rw [register, if_neg hown, List.lookup_cons]
  split
  · next h => rw [if_pos (eq_of_beq h).symm]
  · next h => rw [if_neg (Ne.symm (ne_of_beq_false h))]

theorem lookup_registerAll
    {rs : List (String × Codec)} {name : String} {codec : Codec} :
    (standard.registerAll rs).entries.lookup name = some codec ↔
      name ≠ anyMediaType ∧ LastUnder rs name codec := by
  induction rs using List.reverseRecOn with
  | nil => simp [registerAll, standard, lastUnder_iff, under]
  | append_singleton rs r ih =>
      obtain ⟨own, added⟩ := r
      rw [registerAll_concat, lastUnder_concat]
      by_cases hany : own = anyMediaType
      · have hlower := (lower_eq_any_iff own).mpr hany
        rw [register, if_pos hany, ih, hlower]
        exact and_congr_right fun hname => by rw [if_neg (Ne.symm hname)]
      · have hlower := mt (lower_eq_any_iff own).mp hany
        rw [lookup_register hany]
        by_cases hown : Ascii.lower own = name
        · subst hown
          simp [hlower]
        · rw [if_neg hown, if_neg hown]
          exact ih

/-- The table selects what was registered last. -/
theorem select?_registerAll
    {rs : List (String × Codec)} {mediaType : List Char} {codec : Codec} :
    (standard.registerAll rs).select? mediaType = some codec ↔ Selects rs mediaType codec := by
  rw [select?, lookup_registerAll]
  constructor
  · rintro ⟨hany, hlast⟩
    obtain ⟨name, hname⟩ := exists_names mediaType
    rw [hname.essence_eq] at hany hlast
    exact ⟨name, hname, mt (lower_eq_any_iff _).mpr hany, hlast⟩
  · rintro ⟨name, hname, hany, hlast⟩
    rw [hname.essence_eq]
    exact ⟨mt (lower_eq_any_iff _).mp hany, hlast⟩

theorem fallback_registerAll
    {rs : List (String × Codec)} {codec : Codec} :
    (standard.registerAll rs).fallback = codec ↔ FallsBackTo rs codec := by
  induction rs using List.reverseRecOn with
  | nil => simp [registerAll, standard, FallsBackTo, lastUnder_iff, under, eq_comm]
  | append_singleton rs r ih =>
      obtain ⟨own, added⟩ := r
      rw [registerAll_concat, FallsBackTo, lastUnder_concat, register]
      by_cases hany : own = anyMediaType
      · have hlower := (lower_eq_any_iff own).mpr hany
        rw [if_pos hany, if_pos hlower]
        have hthere : ¬ ∀ r ∈ rs ++ [(own, added)], r.1 ≠ anyMediaType := by
          simp [hany]
        simp only [hthere, false_and, or_false]
      · have hlower := mt (lower_eq_any_iff own).mp hany
        have hsame : (∀ r ∈ rs ++ [(own, added)], r.1 ≠ anyMediaType) ↔
            ∀ r ∈ rs, r.1 ≠ anyMediaType := by
          simp only [List.forall_mem_append, List.forall_mem_singleton]
          exact and_iff_left hany
        rw [if_neg hany, if_neg hlower, hsame]
        exact ih

/-!
## Precedence
-/

/-- The codec that is selected first by one of some media types, and another if none selects any. -/
def Chosen (selects : List Char → Codec → Prop) (mediaTypes : List (List Char))
    (otherwise : Codec → Prop) (codec : Codec) : Prop :=
  (∃ before mediaType after, mediaTypes = before ++ mediaType :: after ∧
    selects mediaType codec ∧ ∀ other ∈ before, ∀ c, ¬ selects other c) ∨
  (∀ other ∈ mediaTypes, ∀ c, ¬ selects other c) ∧ otherwise codec

theorem chosen_iff
    {select : List Char → Option Codec} {selects : List Char → Codec → Prop}
    {mediaTypes : List (List Char)} {other codec : Codec} {otherwise : Codec → Prop}
    (hselect : ∀ m c, select m = some c ↔ selects m c)
    (hother : ∀ c, other = c ↔ otherwise c) :
    (mediaTypes.findSome? select).getD other = codec ↔
      Chosen selects mediaTypes otherwise codec := by
  have hnone : ∀ m, select m = none ↔ ∀ c, ¬ selects m c := by
    intro m
    simp only [Option.eq_none_iff_forall_ne_some, ne_eq, hselect]
  cases hfound : mediaTypes.findSome? select with
  | none =>
      have hnothing : ∀ m ∈ mediaTypes, ∀ c, ¬ selects m c := fun m hm =>
        (hnone m).mp (List.findSome?_eq_none_iff.mp hfound m hm)
      refine (hother codec).trans ⟨fun h => .inr ⟨hnothing, h⟩, ?_⟩
      rintro (⟨before, m, after, rfl, hm, -⟩ | ⟨-, h⟩)
      · exact absurd hm (hnothing m (by simp) codec)
      · exact h
  | some found =>
      obtain ⟨before, m, after, rfl, hm, hbefore⟩ := List.findSome?_eq_some_iff.mp hfound
      have hchosen : ∀ c, selects m c → found = c := fun c hc =>
        Option.some.inj (hm.symm.trans ((hselect m c).mpr hc))
      constructor
      · rintro rfl
        exact .inl ⟨before, m, after, rfl, (hselect m _).mp hm, fun o ho =>
          (hnone o).mp (hbefore o ho)⟩
      · rintro (⟨before', m', after', heq, hm', hbefore'⟩ | ⟨hnothing, -⟩)
        · have hfound' := List.findSome?_eq_some_iff.mpr ⟨before', m', after', heq,
            (hselect m' codec).mpr hm', fun o ho => (hnone o).mpr (hbefore' o ho)⟩
          exact Option.some.inj (hfound.symm.trans hfound')
        · exact absurd ((hselect m found).mp hm) (hnothing m (by simp) found)

/-- The media types of the `Content-Type` lines that show as text. -/
def contentTypes (headers : HeaderMap) : List (List Char) :=
  (texts headers "content-type").map String.toList

/-- The entries of the `Accept` lines that show as text. -/
def accepted (headers : HeaderMap) : List (List Char) :=
  (texts headers "accept").flatMap fun v => v.toList.splitOn ','

/-- The codec for the body of a request, by the registrations. -/
def Inbound (rs : List (String × Codec)) (headers : HeaderMap) : Codec → Prop :=
  Chosen (Selects rs) (contentTypes headers) (FallsBackTo rs)

/-- The codec for the body of the response, by the registrations. -/
def Outbound (rs : List (String × Codec)) (headers : HeaderMap) : Codec → Prop :=
  Chosen (Selects rs) (accepted headers) (Inbound rs headers)

theorem inbound_iff
    {rs : List (String × Codec)} {headers : HeaderMap} {codec : Codec} :
    (standard.registerAll rs).inbound headers = codec ↔ Inbound rs headers codec := by
  rw [Inbound, ← chosen_iff (fun _ _ => select?_registerAll) (fun _ => fallback_registerAll),
    contentTypes, List.findSome?_map]
  rfl

theorem outbound_iff
    {rs : List (String × Codec)} {headers : HeaderMap} {codec : Codec} :
    (standard.registerAll rs).outbound headers = codec ↔ Outbound rs headers codec := by
  rw [Outbound, ← chosen_iff (fun _ _ => select?_registerAll) (fun _ => inbound_iff)]
  rfl

/-- Media types that are written in another way, between media types that select nothing. -/
inductive Restated (rs : List (String × Codec)) : List (List Char) → List (List Char) → Prop
  | nil : Restated rs [] []
  | respell {m m' : List Char} {ms ms' : List (List Char)}
      (h : Respelled m m') (rest : Restated rs ms ms') :
      Restated rs (m :: ms) (m' :: ms')
  | leaveOut {m : List Char} {ms ms' : List (List Char)}
      (h : ∀ codec, ¬ Selects rs m codec) (rest : Restated rs ms ms') :
      Restated rs (m :: ms) ms'
  | putIn {m : List Char} {ms ms' : List (List Char)}
      (h : ∀ codec, ¬ Selects rs m codec) (rest : Restated rs ms ms') :
      Restated rs ms (m :: ms')

theorem Restated.findSome?_eq
    {rs : List (String × Codec)} {ms ms' : List (List Char)}
    (h : Restated rs ms ms') :
    ms.findSome? (standard.registerAll rs).select? =
      ms'.findSome? (standard.registerAll rs).select? := by
  have hskip : ∀ m, (∀ codec, ¬ Selects rs m codec) →
      (standard.registerAll rs).select? m = none := by
    intro m hm
    exact Option.eq_none_iff_forall_ne_some.mpr fun codec hc => hm codec (select?_registerAll.mp hc)
  induction h with
  | nil => rfl
  | respell h _ ih =>
      rw [List.findSome?_cons, List.findSome?_cons, select?, h.essence_eq, ih, select?]
  | leaveOut h _ ih => rw [List.findSome?_cons, hskip _ h, ih]
  | putIn h _ ih => rw [List.findSome?_cons, hskip _ h, ih]

/-- The same registrations under each name.  Those under different names may come in another
order. -/
def SameByName (rs rs' : List (String × Codec)) : Prop :=
  ∀ name, under rs name = under rs' name

theorem SameByName.selects_eq
    {rs rs' : List (String × Codec)}
    (h : SameByName rs rs') :
    Selects rs = Selects rs' := by
  funext mediaType codec
  simp only [Selects, lastUnder_iff, h _]

theorem SameByName.fallsBackTo_eq
    {rs rs' : List (String × Codec)}
    (h : SameByName rs rs') :
    FallsBackTo rs = FallsBackTo rs' := by
  have hnone : ∀ rs : List (String × Codec),
      (∀ r ∈ rs, r.1 ≠ anyMediaType) ↔ under rs anyMediaType = [] := by
    intro rs
    simp [under, List.filter_eq_nil_iff, lower_eq_any_iff]
  funext codec
  simp only [FallsBackTo, lastUnder_iff, hnone, h _]

/-- What a table answers, for given registrations and header lines. -/
structure FollowsPrecedence (rs : List (String × Codec)) (headers : HeaderMap) : Prop where
  inbound : ∀ codec,
    (standard.registerAll rs).inbound headers = codec ↔ Inbound rs headers codec
  outbound : ∀ codec,
    (standard.registerAll rs).outbound headers = codec ↔ Outbound rs headers codec
  restated : ∀ headers',
    Restated rs (contentTypes headers) (contentTypes headers') →
    Restated rs (accepted headers) (accepted headers') →
    (standard.registerAll rs).inbound headers = (standard.registerAll rs).inbound headers' ∧
    (standard.registerAll rs).outbound headers = (standard.registerAll rs).outbound headers'
  reordered : ∀ rs', SameByName rs rs' →
    (standard.registerAll rs).inbound headers = (standard.registerAll rs').inbound headers ∧
    (standard.registerAll rs).outbound headers = (standard.registerAll rs').outbound headers
  accept : ∀ headers', headers.getAll "content-type" = headers'.getAll "content-type" →
    (standard.registerAll rs).inbound headers = (standard.registerAll rs).inbound headers'

/-- **Precedence.**  The inbound codec is the one that the first `Content-Type` line selects that
selects any, else the last fallback, else compact JSON; the outbound codec is the one that the first
entry of `Accept` selects that selects any, else the inbound codec. -/
theorem negotiation_precedence (rs : List (String × Codec)) (headers : HeaderMap) :
    FollowsPrecedence rs headers where
  inbound _ := inbound_iff
  outbound _ := outbound_iff
  restated headers' hcontent haccept := by
    have hinbound : (standard.registerAll rs).inbound headers =
        (standard.registerAll rs).inbound headers' := by
      have hfound := hcontent.findSome?_eq
      simp only [contentTypes, List.findSome?_map] at hfound
      exact congrArg (Option.getD · _) hfound
    refine ⟨hinbound, ?_⟩
    rw [CodecTable.outbound, CodecTable.outbound, hinbound]
    exact congrArg (Option.getD · _) haccept.findSome?_eq
  reordered rs' h := by
    have hinbound : Inbound rs headers = Inbound rs' headers := by
      rw [Inbound, Inbound, h.selects_eq, h.fallsBackTo_eq]
    have houtbound : Outbound rs headers = Outbound rs' headers := by
      rw [Outbound, Outbound, h.selects_eq, hinbound]
    exact ⟨inbound_iff.mpr (hinbound ▸ inbound_iff.mp rfl),
      outbound_iff.mpr (houtbound ▸ outbound_iff.mp rfl)⟩
  accept headers' h := by
    rw [CodecTable.inbound, CodecTable.inbound, texts, texts, h]

/-- As `Selects`, but the name of the fallback is like any other. -/
def SelectsByText (rs : List (String × Codec)) (mediaType : List Char) (codec : Codec) : Prop :=
  ∃ name, Names mediaType name ∧ LastUnder rs (Ascii.lower (String.ofList name)) codec

theorem selectsByText_iff
    {rs : List (String × Codec)} {mediaType : List Char} {codec : Codec} :
    (under rs (essence mediaType)).getLast?.map Prod.snd = some codec ↔
      SelectsByText rs mediaType codec := by
  obtain ⟨name, hname⟩ := exists_names mediaType
  constructor
  · intro h
    obtain ⟨r, hlast, rfl⟩ := Option.map_eq_some_iff.mp h
    exact ⟨name, hname, lastUnder_iff.mpr ⟨r.1, hname.essence_eq ▸ hlast⟩⟩
  · rintro ⟨name', hname', hlast⟩
    obtain ⟨own, hown⟩ := lastUnder_iff.mp hlast
    rw [hname'.essence_eq, hown]
    rfl

/-- The entries of all `Accept` lines, also of those that do not show as text. -/
def allEntries (headers : HeaderMap) : List (List Char) :=
  (headers.getAll "accept").flatMap fun v => (v.map fun b => Char.ofNat b.toNat).splitOn ','

/-- The name of the fallback selects nothing, and an entry in a line that does not show as text is
passed over. -/
theorem accept_entry_passed_over :
    (let rs := [("*", Rehearsal.taggedCodec), ("a/b", Rehearsal.labelledCodec "a/b")]
     let headers := (HeaderMap.empty.appendText "content-type" "a/b").appendText "accept" "*"
     ¬ Chosen (SelectsByText rs) (allEntries headers) (Inbound rs headers)
        ((standard.registerAll rs).outbound headers)) ∧
    (let rs := [("application/x-tagged", Rehearsal.taggedCodec)]
     let headers := HeaderMap.empty.append "accept" (Utf8.bytes "application/x-tagged, " ++ [0xff])
     ¬ Chosen (SelectsByText rs) (allEntries headers) (Inbound rs headers)
        ((standard.registerAll rs).outbound headers)) := by
  refine ⟨fun h => ?_, fun h => ?_⟩
  all_goals
    rw [← chosen_iff (fun _ _ => selectsByText_iff) (fun _ => inbound_iff)] at h
    exact absurd (congrArg Codec.contentType h) (by decide)

/-!
## What can be negotiated
-/

/-- **What is registered is found under the same text if and only if the text is bare**, or if it
would be used without the registration. -/
theorem negotiable_iff
    {mediaType : String} {headers : HeaderMap} {value : HeaderValue}
    (hname : mediaType ≠ anyMediaType)
    (honly : headers.getAll "content-type" = [value])
    (hvalue : HeaderValue.text? value = some mediaType)
    (t : CodecTable) (codec : Codec) :
    ((t.register mediaType codec).inbound headers = codec ↔
      Bare mediaType.toList ∨ t.inbound headers = codec) ∧
    (headers.getAll "accept" = [] →
      ((t.register mediaType codec).outbound headers = codec ↔
        Bare mediaType.toList ∨ t.outbound headers = codec)) := by
  have htexts : texts headers "content-type" = [mediaType] := by
    simp [texts, honly, hvalue]
  have hinbound : (t.register mediaType codec).inbound headers = codec ↔
      Bare mediaType.toList ∨ t.inbound headers = codec := by
    have hfallback : (t.register mediaType codec).fallback = t.fallback := by
      rw [register, if_neg hname]
    rw [inbound, inbound, htexts, List.findSome?_singleton, List.findSome?_singleton, select?,
      select?, lookup_register hname, hfallback, ← essence_eq_lower_iff]
    split
    · next hsame => simp [hsame]
    · next hother => simp [Ne.symm hother]
  refine ⟨hinbound, fun hnone => ?_⟩
  -- without `Accept` the outbound codec is the inbound one
  have houtbound : ∀ t : CodecTable, t.outbound headers = t.inbound headers := by
    intro t
    simp [outbound, texts, hnone]
  rw [houtbound, houtbound]
  exact hinbound

/-- The header lines of a request with a media type and nothing else. -/
def ofType (mediaType : String) : HeaderMap :=
  HeaderMap.empty.append "content-type" (Utf8.bytes mediaType)

theorem negotiable_iff_letter_case :
    "Application/X-Tagged" ≠ anyMediaType ∧
    HeaderValue.text? (Utf8.bytes "Application/X-Tagged") = some "Application/X-Tagged" ∧
    (ofType "Application/X-Tagged").getAll "accept" = [] ∧
    Bare "Application/X-Tagged".toList ∧
    (standard.register "Application/X-Tagged" Rehearsal.taggedCodec).inbound
      (ofType "Application/X-Tagged") = Rehearsal.taggedCodec ∧
    (standard.register "Application/X-Tagged" Rehearsal.taggedCodec).outbound
      (ofType "Application/X-Tagged") = Rehearsal.taggedCodec := by
  have hbare : Bare "Application/X-Tagged".toList :=
    essence_eq_lower_iff.mp (by decide)
  obtain ⟨hinbound, houtbound⟩ :=
    @negotiable_iff "Application/X-Tagged" (ofType "Application/X-Tagged")
      (Utf8.bytes "Application/X-Tagged") (by decide) (by decide) (by decide) standard
      Rehearsal.taggedCodec
  exact ⟨by decide, by decide, by decide, hbare, hinbound.mpr (.inl hbare),
    (houtbound (by decide)).mpr (.inl hbare)⟩

/-- What is registered with a parameter is not found. -/
theorem unnegotiable_with_parameter :
    "application/x-tagged; charset=utf-8" ≠ anyMediaType ∧
    HeaderValue.text? (Utf8.bytes "application/x-tagged; charset=utf-8") =
      some "application/x-tagged; charset=utf-8" ∧
    (standard.register "application/x-tagged; charset=utf-8" Rehearsal.taggedCodec).inbound
        (ofType "application/x-tagged; charset=utf-8") ≠ Rehearsal.taggedCodec ∧
    (standard.register "application/x-tagged; charset=utf-8" Rehearsal.taggedCodec).outbound
        (ofType "application/x-tagged; charset=utf-8") ≠ Rehearsal.taggedCodec := by
  refine ⟨by decide, by decide, fun h => ?_, fun h => ?_⟩
  all_goals exact absurd (congrArg Codec.contentType h) (by decide)

end CodecTable
end RpcGateway
