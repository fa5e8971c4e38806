import RpcGateway.Proofs.Metadata.Merging
import RpcGateway.Proofs.Transport.Metadata

/-!
# Metadata on the wire and back

What is left of metadata that is written as header lines and read again.

**Two filters.**  Writing leaves out keys that are no header names or are for binary values, and
values that no header line can carry.  Reading leaves out names that belong to the framing, and
values that do not show as text.  Each is a sifting of the entries (`groups_write`, `entries_read`),
and so are both together.

**Result.**  `survives_round_trip`: what comes back is the metadata restricted to the keys that
travel (`Travels`) and the values that show (`Visible`), in the same order, and after one round trip
nothing more is lost.
-/

namespace RpcGateway
namespace WireMetadata

/-- What is read of metadata that was written to a message without lines. -/
def roundTrip (m : Metadata) : Metadata :=
  read (write .empty m)

/-- A key is the name of a header line for text that does not belong to the framing. -/
structure Travels (key : String) : Prop where
  /-- It is a header name, in lower case. -/
  named : headerName? key = some key
  textual : ∀ front, key ≠ front ++ "-bin"
  /-- It is not among the names that the protocol keeps for itself. -/
  common : ∀ rest, key ≠ "grpc-" ++ rest
  undated : key ≠ "date"
  unreserved : key ∉ framingHeaders

/-- All characters of a value show in a header line. -/
def Visible (value : String) : Prop :=
  ∀ c ∈ value.toList, c = '\t' ∨ 32 ≤ c.toNat ∧ c.toNat ≤ 126

/-!
## Keys
-/

theorem isBinary_eq_false_iff
    {key : String} :
    isBinary key = false ↔ ∀ front, key ≠ front ++ "-bin" := by
  have hending : isBinary key = true ↔ ∃ front, key = front ++ "-bin" := by
    rw [isBinary, List.isSuffixOf_iff_suffix]
    constructor
    · rintro ⟨front, hfront⟩
      refine ⟨String.ofList front, String.toList_injective ?_⟩
      rw [String.toList_append, String.toList_ofList, ← hfront]
      rfl
    · rintro ⟨front, rfl⟩
      rw [String.toList_append]
      exact List.suffix_append _ _
  rw [← Bool.not_eq_true, hending, not_exists]

theorem isFraming_eq_false_iff
    {key : String} :
    isFraming key = false ↔
      (∀ rest, key ≠ "grpc-" ++ rest) ∧ key ≠ "date" ∧ key ∉ framingHeaders := by
  have hfront : "grpc-".toList.isPrefixOf key.toList = true ↔ ∃ rest, key = "grpc-" ++ rest := by
    rw [List.isPrefixOf_iff_prefix]
    constructor
    · rintro ⟨rest, hrest⟩
      refine ⟨String.ofList rest, String.toList_injective ?_⟩
      simp only [String.toList_append, String.toList_ofList]
      exact hrest.symm
    · rintro ⟨rest, rfl⟩
      rw [String.toList_append]
      exact List.prefix_append _ _
  rw [isFraming, Bool.or_eq_false_iff, Bool.or_eq_false_iff, ← Bool.not_eq_true, hfront, not_exists,
    beq_eq_false_iff_ne, List.contains_eq_mem, decide_eq_false_iff_not, and_assoc]

/-- A key in lower case travels if it is both written and read. -/
theorem travels_iff
    {key : String} :
    Travels key ↔ Ascii.lower key = key ∧ isWritable key = true ∧ isCarried key = true := by
  have hname : headerName? key = some key ↔
      Ascii.isToken key.toList = true ∧ Ascii.lower key = key := by
    rw [headerName?, Option.ite_none_right_eq_some, Option.some.injEq]
  rw [isWritable, isCarried, Bool.and_eq_true, Bool.not_eq_true', Bool.not_eq_true',
    Bool.or_eq_false_iff, isBinary_eq_false_iff, isFraming_eq_false_iff]
  constructor
  · rintro ⟨hnamed, htextual, hcommon, hundated, hfree⟩
    obtain ⟨htoken, hlower⟩ := hname.mp hnamed
    exact ⟨hlower, ⟨htoken, htextual⟩, htextual, hcommon, hundated, hfree⟩
  · rintro ⟨hlower, ⟨htoken, htextual⟩, -, hcommon, hundated, hfree⟩
    exact ⟨hname.mpr ⟨htoken, hlower⟩, htextual, hcommon, hundated, hfree⟩

instance (key : String) : Decidable (Travels key) :=
  decidable_of_iff _ travels_iff.symm

instance (value : String) : Decidable (Visible value) :=
  List.decidableBAll _ value.toList

/-!
## Values
-/

theorem isVisible_ofNat_iff
    {n : Nat}
    (h : n < 256) :
    Ascii.isVisible (UInt8.ofNat n) = true ↔ n = 9 ∨ 32 ≤ n ∧ n ≤ 126 := by
  simp only [Ascii.isVisible, Bool.or_eq_true, Bool.and_eq_true, decide_eq_true_eq, beq_iff_eq,
    UInt8.lt_iff_toNat_lt, UInt8.le_iff_toNat_le, ← UInt8.toNat_inj, UInt8.reduceToNat,
    Utf8.toNat_byte h]
  omega

/-- Only the visible characters of ASCII are written in visible bytes. -/
theorem all_isVisible_encodeChar_iff
    {c : Char} :
    (String.utf8EncodeChar c).all Ascii.isVisible = true ↔
      c = '\t' ∨ 32 ≤ c.toNat ∧ c.toNat ≤ 126 := by
  have htab : c = '\t' ↔ c.toNat = 9 := Char.toNat_inj.symm
  have hc := Utf8.toNat_lt_or_gt c
  by_cases h₁ : c.toNat ≤ 0x7f
  · rw [Utf8.encodeChar_one h₁, List.all_cons, List.all_nil, Bool.and_true,
      isVisible_ofNat_iff (by omega), htab]
  · -- the last byte of a longer character is no visible one
    have hlast : Ascii.isVisible (UInt8.ofNat (c.toNat % 64 + 0x80)) = false := by
      rw [← Bool.not_eq_true, isVisible_ofNat_iff (by omega)]
      omega
    have hends : ∃ front, String.utf8EncodeChar c =
        front ++ [UInt8.ofNat (c.toNat % 64 + 0x80)] := by
      by_cases h₂ : c.toNat ≤ 0x7ff
      · exact ⟨[_], Utf8.encodeChar_two (Nat.lt_of_not_le h₁) h₂⟩
      · by_cases h₃ : c.toNat ≤ 0xffff
        · exact ⟨[_, _], Utf8.encodeChar_three (Nat.lt_of_not_le h₂) h₃⟩
        · exact ⟨[_, _, _], Utf8.encodeChar_four (Nat.lt_of_not_le h₃)⟩
    obtain ⟨front, hfront⟩ := hends
    have hnone : (String.utf8EncodeChar c).all Ascii.isVisible = false := by
      rw [hfront, List.all_append, List.all_cons, hlast, Bool.false_and, Bool.and_false]
    rw [hnone, htab]
    simp only [Bool.false_eq_true, false_iff]
    omega

/-- A value that is written shows as text again if and only if all its characters do. -/
theorem text?_bytes
    (value : String) :
    HeaderValue.text? (Utf8.bytes value) = if Visible value then some value else none := by
  have hall : (Utf8.bytes value).all Ascii.isVisible = true ↔ Visible value := by
    rw [Utf8.bytes, Utf8.encode, List.all_flatMap, List.all_eq_true]
    simp only [all_isVisible_encodeChar_iff, Visible]
  by_cases h : Visible value
  · obtain ⟨text, htext⟩ : ∃ text, HeaderValue.text? (Utf8.bytes value) = some text :=
      ⟨_, if_pos (hall.mpr h)⟩
    rw [if_pos h, htext, Utf8.bytes_injective (HeaderValue.bytes_of_text? htext)]
  · rw [if_neg h]
    exact if_neg fun hvisible => h (hall.mp hvisible)

theorem bind_text?_ofText?
    (value : String) :
    (HeaderValue.ofText? value).bind HeaderValue.text? =
      if Visible value then some value else none := by
  rw [← text?_bytes]
  cases hshown : HeaderValue.text? (Utf8.bytes value) with
  | none =>
      rw [HeaderValue.ofText?]
      split
      case isTrue => exact hshown
      case isFalse => rfl
  | some text =>
      have hsame : text = value := Utf8.bytes_injective (HeaderValue.bytes_of_text? hshown)
      subst hsame
      rw [HeaderValue.ofText?_of_text? hshown]
      exact hshown

/-!
## Both ways
-/

/-- What a value becomes in a header line of its key. -/
def written? (key value : String) : Option HeaderValue :=
  if isWritable key then HeaderValue.ofText? value else none

/-- What is read of a value in a header line. -/
def shown? (name : String) (v : HeaderValue) : Option String :=
  if isCarried name then HeaderValue.text? v else none

theorem groups_writeKey
    (h : HeaderMap) (key : String) (values : List String) :
    (writeKey h key values).groups =
      Keyed.appendAll ((values.map fun x => (key, x)).filterMap fun p =>
        (written? p.1 p.2).map fun v => (Ascii.lower p.1, v)) h.groups := by
  have hpairs : (values.map fun x => (key, x)).filterMap
      (fun p => (written? p.1 p.2).map fun v => (Ascii.lower p.1, v)) =
        (values.filterMap (written? key)).map fun v => (Ascii.lower key, v) := by
    rw [List.filterMap_map, List.map_filterMap]
    rfl
  have hfold : ∀ (vs : List HeaderValue) (h : HeaderMap),
      (vs.foldl (fun h v => h.append (Ascii.lower key) v) h).groups =
        Keyed.appendAll (vs.map fun v => (Ascii.lower key, v)) h.groups := by
    intro vs
    induction vs with
    | nil => exact fun h => rfl
    | cons v vs ih => exact fun h => ih (h.append (Ascii.lower key) v)
  rw [hpairs, writeKey]
  unfold written?
  by_cases hkey : isWritable key = true
  · simp only [hkey, if_true]
    exact hfold _ h
  · simp only [hkey, Bool.false_eq_true, if_false, List.filterMap_none]
    rfl

/-- Writing sifts the entries. -/
theorem groups_write
    {m : Metadata}
    (h : m.Sound) :
    (write .empty m).groups = Keyed.sift written? m.entries := by
  have hfold : ∀ (es : Keyed (List String)) (lines : HeaderMap),
      (es.foldl (fun h e => writeKey h e.1 e.2) lines).groups =
        Keyed.appendAll ((Keyed.flatten es).filterMap fun p =>
          (written? p.1 p.2).map fun v => (Ascii.lower p.1, v)) lines.groups := by
    intro es
    induction es with
    | nil => exact fun lines => rfl
    | cons e es ih =>
        intro lines
        have hpairs : Keyed.flatten (e :: es) = (e.2.map fun x => (e.1, x)) ++ Keyed.flatten es :=
          rfl
        rw [List.foldl_cons, ih, hpairs, List.filterMap_append, Keyed.appendAll_concat]
        congr 1
        exact groups_writeKey lines e.1 e.2
  have hlower : ∀ p ∈ Keyed.flatten m.entries, Ascii.lower p.1 = p.1 := by
    intro p hp
    obtain ⟨e, he, hpe⟩ := List.mem_flatMap.mp hp
    obtain ⟨x, -, rfl⟩ := List.mem_map.mp hpe
    exact h.lower e.1 (List.mem_map_of_mem he)
  have hsift : ((Keyed.flatten m.entries).filterMap fun p =>
      (written? p.1 p.2).map fun v => (Ascii.lower p.1, v)) =
        Keyed.flatten (Keyed.sift written? m.entries) := by
    rw [Keyed.flatten_sift]
    exact List.filterMap_congr fun p hp => by rw [hlower p hp]
  rw [write, hfold, hsift]
  exact Keyed.appendAll_flatten_nil (h.keyed.sift written?)

/-- Reading sifts the groups of lines. -/
theorem entries_read
    {h : HeaderMap}
    (hsound : Keyed.Sound h.groups) (hlower : ∀ k ∈ Keyed.keys h.groups, Ascii.lower k = k) :
    (read h).entries = Keyed.sift shown? h.groups := by
  have hpairs : h.lines.filterMap pair? = Keyed.flatten (Keyed.sift shown? h.groups) := by
    rw [Keyed.flatten_sift]
    refine List.filterMap_congr fun line _ => ?_
    unfold pair? shown?
    split <;> rfl
  have hfolded : (Keyed.flatten (Keyed.sift shown? h.groups)).map Metadata.folded =
      Keyed.flatten (Keyed.sift shown? h.groups) := by
    refine Metadata.map_folded_eq_self fun p hp => ?_
    obtain ⟨e, he, hpe⟩ := List.mem_flatMap.mp hp
    obtain ⟨x, -, rfl⟩ := List.mem_map.mp hpe
    exact hlower e.1 ((Keyed.keys_sift_sublist shown? h.groups).subset (List.mem_map_of_mem he))
  rw [read_eq, hpairs, Metadata.ofList, Metadata.entries_appendAll, hfolded]
  exact Keyed.appendAll_flatten_nil (hsound.sift shown?)

/-- What becomes of a value that is written and read. -/
def kept? (key value : String) : Option String :=
  if Travels key ∧ Visible value then some value else none

theorem bind_shown?_written?
    {key : String}
    (h : Ascii.lower key = key) (value : String) :
    (written? key value).bind (shown? key) = kept? key value := by
  have htravels : Travels key ↔ isWritable key = true ∧ isCarried key = true := by
    rw [travels_iff, and_iff_right h]
  unfold written? shown? kept?
  by_cases hwritable : isWritable key = true
  · by_cases hcarried : isCarried key = true
    · have hkey : Travels key := htravels.mpr ⟨hwritable, hcarried⟩
      simp only [hwritable, hcarried, if_true, hkey, true_and]
      exact bind_text?_ofText? value
    · have hkey : ¬ Travels key := fun htravel => hcarried (htravels.mp htravel).2
      simp [hcarried, hkey]
  · have hkey : ¬ Travels key := fun htravel => hwritable (htravels.mp htravel).1
    simp [hwritable, hkey]

/-- Going there and back sifts the entries by both filters. -/
theorem entries_roundTrip
    {m : Metadata}
    (h : m.Sound) :
    (roundTrip m).entries = Keyed.sift kept? m.entries := by
  have hgroups := groups_write h
  have hsound : Keyed.Sound (write .empty m).groups := hgroups ▸ h.keyed.sift written?
  have hlower : ∀ k ∈ Keyed.keys (write .empty m).groups, Ascii.lower k = k := by
    rw [hgroups]
    exact fun k hk => h.lower k ((Keyed.keys_sift_sublist written? m.entries).subset hk)
  rw [roundTrip, entries_read hsound hlower, hgroups, Keyed.sift_sift h.keyed]
  refine Keyed.sift_congr fun k hk => funext fun value => ?_
  exact bind_shown?_written? (h.lower k hk) value

/-- Metadata restricted to the keys that travel and the values that show. -/
def restricted (m : Metadata) : Metadata :=
  ⟨m.entries.filterMap fun e =>
    if Travels e.1 ∧ e.2.filter (Visible ·) ≠ [] then some (e.1, e.2.filter (Visible ·)) else none⟩

theorem filterMap_kept?
    (key : String) (values : List String) :
    values.filterMap (kept? key) = if Travels key then values.filter (Visible ·) else [] := by
  by_cases h : Travels key
  · have hkept : kept? key = Option.guard fun value => decide (Visible value) := by
      funext value
      simp [kept?, h, Option.guard]
    rw [if_pos h, hkept, List.filterMap_eq_filter]
  · have hkept : kept? key = fun _ => none := by
      funext value
      simp [kept?, h]
    rw [if_neg h, hkept, List.filterMap_none]

theorem entries_restricted
    (m : Metadata) :
    (restricted m).entries = Keyed.sift kept? m.entries := by
  refine List.filterMap_congr fun e _ => ?_
  rw [filterMap_kept?]
  by_cases hkey : Travels e.1
  · by_cases hnone : e.2.filter (Visible ·) = [] <;> simp [hkey, hnone]
  · simp [hkey]

/-- **Round trip.**  What comes back of metadata is the metadata restricted to the keys that travel
and the values that show: each of these keys with just these values, in their order.  The rest is
lost on the first round trip, and nothing on a second. -/
theorem survives_round_trip
    {m : Metadata}
    (h : m.Built) :
    roundTrip m = restricted m ∧
    (∀ key, (roundTrip m).getAll key =
      if Travels (Ascii.lower key) then (m.getAll key).filter (Visible ·) else []) ∧
    roundTrip (roundTrip m) = roundTrip m := by
  have hsound := (Metadata.built_iff_sound m).mp h
  have hentries := entries_roundTrip hsound
  have hback : (roundTrip m).Sound := sound_read (write .empty m)
  have hagain : (roundTrip (roundTrip m)).entries = (roundTrip m).entries := by
    rw [entries_roundTrip hback, hentries, Keyed.sift_sift hsound.keyed]
    refine Keyed.sift_congr fun k _ => funext fun value => ?_
    by_cases hkept : Travels k ∧ Visible value <;> simp [kept?, hkept]
  refine ⟨congrArg Metadata.mk (hentries.trans (entries_restricted m).symm), fun key => ?_,
    congrArg Metadata.mk hagain⟩
  have hvalues := Keyed.values_sift hsound.keyed kept? (Ascii.lower key)
  rw [← hentries, filterMap_kept?] at hvalues
  exact hvalues

/-- Metadata of which a part is lost at each filter. -/
def mixed : Metadata :=
  .ofList [("X-Trace", "one"), ("bad key", "1"), ("x-trace", "é"), ("trace-bin", "2"),
    ("x-trace", "two"), ("grpc-x", "3"), ("Date", "4"), ("te", "5"), ("x-void", "\x01"),
    ("x-void", "ü")]

theorem survives_round_trip_mixed :
    mixed.Built ∧
    (roundTrip mixed = restricted mixed ∧
      (∀ key, (roundTrip mixed).getAll key =
        if Travels (Ascii.lower key) then (mixed.getAll key).filter (Visible ·) else []) ∧
      roundTrip (roundTrip mixed) = roundTrip mixed) ∧
    restricted mixed = .ofList [("x-trace", "one"), ("x-trace", "two")] := by
  have hbuilt : mixed.Built := .ofList _
  exact ⟨hbuilt, survives_round_trip hbuilt, by decide⟩

end WireMetadata
end RpcGateway
