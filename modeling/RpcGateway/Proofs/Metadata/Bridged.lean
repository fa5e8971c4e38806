import RpcGateway.Proofs.Metadata.Reserved

/-!
# The metadata of a request

What the bridge makes of the header lines of a request and of the address of the caller.

**Lines.**  `GoesTo` gives the rules by which a name becomes a key, each rule on its own;
`key?_eq_some_iff_goesTo` says that they are those of the bridge.  Several names can go to one key.
`sentTo` holds the texts of the lines that go to a key, in the order of the lines.

**Address.**  The bridge takes the key `x-forwarded-for` out and puts it back behind the others,
with the address in its last value (`entries_addAddress`).

**Result.**  `incoming_bridges` says of every key what the metadata holds for it.
-/

namespace RpcGateway
namespace HeaderBridge

/-!
## Where a line goes
-/

/-- The key to which the lines of a name go. -/
inductive GoesTo (b : HeaderBridge) : String → String → Prop
  | host : GoesTo b "host" "x-forwarded-host"
  | marked {k : String} :
      k ≠ "" → metadataMark ++ k ∉ b.reserved → GoesTo b (metadataMark ++ k) k
  | plain {name : String} :
      name ≠ "host" → name ∉ b.reserved → (∀ k, k ≠ "" → name ≠ metadataMark ++ k) →
        GoesTo b name name

theorem mark_append_ne_self
    (k : String) :
    metadataMark ++ k ≠ k := by
  intro h
  have hlength := congrArg (List.length ∘ String.toList) h
  simp only [metadataMark, Function.comp_apply, String.toList_append, List.length_append] at hlength
  simp at hlength

theorem unmarked_eq_self
    {name : String}
    (h : ∀ k, k ≠ "" → name ≠ metadataMark ++ k) :
    unmarked name = name := by
  rcases unmarked_eq_self_or name with hself | ⟨hmark, hleft⟩
  · exact hself
  · exact absurd hmark (h _ hleft)

theorem key?_eq_some_iff_goesTo
    {b : HeaderBridge} {name key : String} :
    b.key? name = some key ↔ b.GoesTo name key := by
  constructor
  · intro h
    unfold key? at h
    split at h
    case isTrue hhost =>
      obtain rfl := Option.some.inj h
      rw [hhost]
      exact GoesTo.host
    case isFalse hhost =>
      split at h
      case isTrue => cases h
      case isFalse hfree =>
        rw [List.contains_iff_mem] at hfree
        obtain rfl := Option.some.inj h
        rcases unmarked_eq_self_or name with hself | ⟨hmark, hleft⟩
        · rw [hself]
          refine GoesTo.plain hhost hfree ?_
          -- a marked name would have lost its mark
          rintro k hk rfl
          rw [unmarked_mark_append hk] at hself
          exact mark_append_ne_self k hself.symm
        · have hmarked := GoesTo.marked hleft (hmark ▸ hfree)
          rwa [← hmark] at hmarked
  · intro h
    unfold key?
    cases h with
    | host => rfl
    | marked hk hfree =>
        rw [← List.contains_iff_mem] at hfree
        rw [if_neg (mark_append_ne_host key), if_neg hfree, unmarked_mark_append hk]
    | plain hhost hfree hplain =>
        rw [← List.contains_iff_mem] at hfree
        rw [if_neg hhost, if_neg hfree, unmarked_eq_self hplain]

instance (b : HeaderBridge) (name key : String) : Decidable (b.GoesTo name key) :=
  decidable_of_iff _ key?_eq_some_iff_goesTo

/-- A name in lower case goes to a key in lower case. -/
theorem GoesTo.lower_eq
    {b : HeaderBridge} {name key : String}
    (h : b.GoesTo name key) (hname : Ascii.lower name = name) :
    Ascii.lower key = key := by
  have hmark : Ascii.lower metadataMark = metadataMark := by decide
  cases h with
  | host => decide
  | marked _ _ => exact (Ascii.lower_append_eq_self_iff hmark key).mp hname
  | plain _ _ _ => exact hname

/-- The texts of the lines that go to a key, in order; a value that does not show as text has
none. -/
def sentTo (b : HeaderBridge) (headers : HeaderMap) (key : String) : List String :=
  (headers.lines.filter fun line => b.GoesTo line.1 key).filterMap fun line =>
    HeaderValue.text? line.2

theorem valuesIn_filterMap_pair?
    (b : HeaderBridge) (lines : List (String × HeaderValue)) (k : String) :
    Keyed.valuesIn k (lines.filterMap b.pair?) =
      (lines.filter fun line => b.GoesTo line.1 k).filterMap fun line =>
        HeaderValue.text? line.2 := by
  induction lines with
  | nil => rfl
  | cons line lines ih =>
      rw [List.filterMap_cons, List.filter_cons]
      by_cases hgo : b.GoesTo line.1 k
      · have hkey := key?_eq_some_iff_goesTo.mpr hgo
        rw [if_pos (decide_eq_true hgo), List.filterMap_cons]
        cases htext : HeaderValue.text? line.2 with
        | none =>
            have hpair : b.pair? line = none := by simp [pair?, htext]
            simpa only [hpair] using ih
        | some value =>
            have hpair := pair?_eq_some_iff.mpr ⟨htext, hkey⟩
            simp only [hpair, Keyed.valuesIn_cons, if_true, ih, List.singleton_append]
      · rw [if_neg (by simpa using hgo), ← ih]
        cases hpair : b.pair? line with
        | none => rfl
        | some p =>
            have hother : p.1 ≠ k := by
              rintro rfl
              exact hgo (key?_eq_some_iff_goesTo.mp (pair?_eq_some_iff.mp hpair).2)
            simp only [Keyed.valuesIn_cons, if_neg hother, List.nil_append]

section Lines

variable {headers : HeaderMap}

/-- The keys of legal header lines are in lower case as they are. -/
theorem map_folded_filterMap_pair?
    (b : HeaderBridge) (hl : headers.Legal) :
    (headers.lines.filterMap b.pair?).map Metadata.folded = headers.lines.filterMap b.pair? := by
  refine Metadata.map_folded_eq_self ?_
  rintro ⟨key, value⟩ hp
  obtain ⟨line, hline, hpair⟩ := List.mem_filterMap.mp hp
  have hgo := key?_eq_some_iff_goesTo.mp (pair?_eq_some_iff.mp hpair).2
  exact hgo.lower_eq (hl.lower_eq hline)

theorem sound_incoming_none
    (b : HeaderBridge) (headers : HeaderMap) :
    (b.incoming headers none).Sound := by
  unfold incoming
  rw [Metadata.foldl_eq_appendAll b.copyLine_eq]
  exact Metadata.sound_empty.appendAll _

theorem getAll_incoming_none
    (b : HeaderBridge) (hl : headers.Legal) (k : String) :
    (b.incoming headers none).getAll k = b.sentTo headers (Ascii.lower k) := by
  unfold incoming
  rw [Metadata.foldl_eq_appendAll b.copyLine_eq, Metadata.getAll_appendAll,
    map_folded_filterMap_pair? b hl, valuesIn_filterMap_pair?, Metadata.getAll_empty,
    List.nil_append]
  rfl

theorem lower_eq_of_sentTo_ne_nil
    {b : HeaderBridge} {k : String}
    (hl : headers.Legal) (h : b.sentTo headers k ≠ []) :
    Ascii.lower k = k := by
  obtain ⟨value, hvalue⟩ := List.exists_mem_of_ne_nil _ h
  obtain ⟨line, hline, -⟩ := List.mem_filterMap.mp hvalue
  obtain ⟨hmem, hgo⟩ := List.mem_filter.mp hline
  exact (of_decide_eq_true hgo).lower_eq (hl.lower_eq hmem)

theorem mem_keys_incoming_none
    (b : HeaderBridge) (hl : headers.Legal) (k : String) :
    k ∈ (b.incoming headers none).keys ↔ b.sentTo headers k ≠ [] := by
  have hsound := b.sound_incoming_none headers
  constructor
  · intro hk
    have hvalues := hsound.getAll_ne_nil hk
    rwa [getAll_incoming_none b hl, hsound.lower k hk] at hvalues
  · intro hsent
    have hlower := lower_eq_of_sentTo_ne_nil hl hsent
    by_contra hk
    have hvalues : (b.incoming headers none).getAll (Ascii.lower k) = [] := by
      rw [Metadata.getAll_lower, Metadata.getAll, hlower]
      exact Keyed.values_eq_nil_of_not_mem hk
    rw [getAll_incoming_none b hl, Ascii.lower_lower, hlower] at hvalues
    exact hsent hvalues

end Lines

/-!
## The address of the caller
-/

theorem forwardedFor_ne_nil
    (a : String) (values : List String) :
    forwardedFor a values ≠ [] := by
  fun_cases forwardedFor a values <;> simp

/-- The address goes into the last value, and all others stay. -/
theorem forwardedFor_concat
    (a : String) (front : List String) (last : String) :
    forwardedFor a (front ++ [last]) = front ++ [last ++ ", " ++ a] := by
  induction front with
  | nil => rfl
  | cons v front ih =>
      have hmore : front ++ [last] ≠ [] := by simp
      obtain ⟨w, rest, hrest⟩ := List.exists_cons_of_ne_nil hmore
      rw [List.cons_append, List.cons_append, ← ih, hrest]
      rfl

/-- Read as one list of addresses, the values have the address of the caller behind all others. -/
theorem intercalate_forwardedFor
    (a : String) (values : List String) :
    String.intercalate ", " (forwardedFor a values) =
      String.intercalate ", " (values ++ [a]) := by
  fun_induction forwardedFor a values with
  | case1 => rfl
  | case2 v => simp [String.intercalate_cons_cons]
  | case3 v w rest ih =>
      obtain ⟨x, xs, hx⟩ := List.exists_cons_of_ne_nil (forwardedFor_ne_nil a (w :: rest))
      rw [hx] at ih ⊢
      rw [String.intercalate_cons_cons, ih]
      exact String.intercalate_cons_cons.symm

theorem entries_addAddress
    {m : Metadata}
    (h : m.Sound) (a : String) :
    (addAddress m a).entries =
      (m.entries.filter fun e => e.1 ≠ "x-forwarded-for") ++
        [("x-forwarded-for", forwardedFor a (m.getAll "x-forwarded-for"))] := by
  have hlower : Ascii.lower "x-forwarded-for" = "x-forwarded-for" := by decide
  have herase : (m.erase "x-forwarded-for").entries =
      m.entries.filter fun e => e.1 ≠ "x-forwarded-for" := by
    rw [Metadata.erase, hlower]
    exact Keyed.eraseP_eq_filter h.keyed.nodup _
  generalize hvalues : forwardedFor a (m.getAll "x-forwarded-for") = values
  have hfilled : values ≠ [] := hvalues ▸ forwardedFor_ne_nil a _
  have hsingle : Keyed.Sound [("x-forwarded-for", values)] :=
    ⟨by simp [Keyed.keys], by simpa using hfilled⟩
  have hpairs : (values.map fun v => ("x-forwarded-for", v)).map Metadata.folded =
      Keyed.flatten [("x-forwarded-for", values)] := by
    simp [Keyed.flatten, Metadata.folded, hlower]
  unfold addAddress
  rw [hvalues, Metadata.entries_appendAll, herase, hpairs]
  -- the key is out, so its values make an entry behind the others
  apply Keyed.appendAll_flatten_of_sound hsingle
  intro k hk hmem
  obtain rfl : k = "x-forwarded-for" := by simpa [Keyed.keys] using hk
  simp [Keyed.keys] at hmem

theorem getAll_addAddress
    {m : Metadata}
    (h : m.Sound) (a k : String) :
    (addAddress m a).getAll k =
      if Ascii.lower k = "x-forwarded-for" then forwardedFor a (m.getAll "x-forwarded-for")
      else m.getAll k := by
  have hnew : "x-forwarded-for" ∉ Keyed.keys
      (m.entries.filter fun e => e.1 ≠ "x-forwarded-for") := by
    simp [Keyed.keys]
  change Keyed.values (Ascii.lower k) (addAddress m a).entries = _
  rw [entries_addAddress h, Keyed.values_concat hnew,
    Keyed.values_filter (fun name => name ≠ "x-forwarded-for")]
  by_cases hk : Ascii.lower k = "x-forwarded-for"
  · rw [if_pos hk, if_pos hk]
  · rw [if_neg hk, if_neg hk, if_pos (decide_eq_true hk)]
    rfl

/-!
## The result
-/

/-- What the metadata of a request holds. -/
structure Bridges (b : HeaderBridge) (headers : HeaderMap) (address : Option String)
    (m : Metadata) : Prop where
  /-- Every key but that of the addresses has the texts of the lines that go to it, in order. -/
  values : ∀ k, Ascii.lower k ≠ "x-forwarded-for" →
    m.getAll k = b.sentTo headers (Ascii.lower k)
  /-- There is no key to which no line goes, that of the addresses apart. -/
  keys : ∀ k, k ∈ m.keys ↔
    b.sentTo headers k ≠ [] ∨ k = "x-forwarded-for" ∧ address.isSome
  /-- An unknown address changes nothing. -/
  unknown : address = none →
    m.getAll "x-forwarded-for" = b.sentTo headers "x-forwarded-for"
  /-- A known address is the only value if no line was sent. -/
  first : ∀ a, address = some a → b.sentTo headers "x-forwarded-for" = [] →
    m.getAll "x-forwarded-for" = [a]
  /-- A known address goes into the last value, and the earlier ones stay. -/
  last : ∀ a front value, address = some a →
    b.sentTo headers "x-forwarded-for" = front ++ [value] →
      m.getAll "x-forwarded-for" = front ++ [value ++ ", " ++ a]
  /-- The values list a known address once more than what was sent, and behind it. -/
  listed : ∀ a, address = some a →
    String.intercalate ", " (m.getAll "x-forwarded-for") =
      String.intercalate ", " (b.sentTo headers "x-forwarded-for" ++ [a])
  /-- No other key notices the address. -/
  apart : (m.entries.filter fun e => e.1 ≠ "x-forwarded-for") =
    (b.incoming headers none).entries.filter fun e => e.1 ≠ "x-forwarded-for"

theorem incoming_some
    (b : HeaderBridge) (headers : HeaderMap) (a : String) :
    b.incoming headers (some a) = addAddress (b.incoming headers none) a :=
  rfl

/-- The keys behind the address are those that were there, and its own. -/
theorem mem_keys_addAddress_iff
    {m : Metadata}
    (h : m.Sound) (a k : String) :
    k ∈ (addAddress m a).keys ↔ k ∈ m.keys ∨ k = "x-forwarded-for" := by
  by_cases hk : k = "x-forwarded-for"
  · subst hk
    simp [Metadata.keys, Keyed.keys, entries_addAddress h]
  · rw [mem_keys_addAddress hk]
    simp [hk]

/-- The metadata of a request is what its header lines and the address of its caller make of it. -/
theorem incoming_bridges
    (b : HeaderBridge) {headers : HeaderMap} (hl : headers.Legal) (address : Option String) :
    b.Bridges headers address (b.incoming headers address) := by
  have hlower : Ascii.lower "x-forwarded-for" = "x-forwarded-for" := by decide
  have hsent := getAll_incoming_none b hl "x-forwarded-for"
  have hkeys := mem_keys_incoming_none b hl
  rw [hlower] at hsent
  cases address with
  | none =>
      refine ⟨fun k _ => getAll_incoming_none b hl k, ?_, fun _ => hsent, ?_, ?_, ?_, rfl⟩
      · intro k
        simpa using hkeys k
      all_goals
        intros
        contradiction
  | some a =>
      have hsound := b.sound_incoming_none headers
      have hforwarded :
          (b.incoming headers (some a)).getAll "x-forwarded-for" =
            forwardedFor a (b.sentTo headers "x-forwarded-for") := by
        rw [incoming_some, getAll_addAddress hsound, if_pos hlower, hsent]
      refine ⟨?_, ?_, ?_, ?_, ?_, ?_, ?_⟩
      · intro k hk
        rw [incoming_some, getAll_addAddress hsound, if_neg hk, getAll_incoming_none b hl]
      · intro k
        rw [incoming_some, mem_keys_addAddress_iff hsound, hkeys]
        simp
      · intro hnone
        cases hnone
      · rintro _ ⟨⟩ hnothing
        rw [hforwarded, hnothing]
        rfl
      · rintro _ front value ⟨⟩ hvalues
        rw [hforwarded, hvalues, forwardedFor_concat]
      · rintro _ ⟨⟩
        rw [hforwarded, intercalate_forwardedFor]
      · rw [incoming_some, entries_addAddress hsound]
        simp

/-- Two names for one key, twice; a reserved name, a value that is no text, and two values of
`x-forwarded-for`. -/
def tangled : HeaderMap :=
  ⟨Keyed.appendAll
    [("host", [97]), ("te", [98]), ("grpc-metadata-x-forwarded-host", [99]), ("x-trace", [100]),
      ("grpc-metadata-x-trace", [101]), ("x-trace", [200]), ("grpc-metadata-", [102]),
      ("x-forwarded-for", [49]), ("x-forwarded-for", [50])] []⟩

theorem incoming_bridges_tangled :
    tangled.Legal ∧
      (standard.incoming tangled (some "3")).entries =
        [("x-forwarded-host", ["a", "c"]), ("x-trace", ["d", "e"]), ("grpc-metadata-", ["f"]),
          ("x-forwarded-for", ["1", "2, 3"])] ∧
      standard.Bridges tangled (some "3") (standard.incoming tangled (some "3")) := by
  have hl : tangled.Legal := HeaderMap.legal_empty.appendAll (by decide)
  exact ⟨hl, by decide, incoming_bridges standard hl (some "3")⟩

end HeaderBridge
end RpcGateway
