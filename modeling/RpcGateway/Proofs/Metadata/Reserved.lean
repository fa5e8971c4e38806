import RpcGateway.Metadata.Bridge
import RpcGateway.Proofs.Http.HeaderMap
import RpcGateway.Proofs.Metadata.Basic

/-!
# Reserved names in the metadata of a request

Which keys the bridge makes of the header lines of a request, and which of them are reserved.

**Order of the rules.**  The reserved names are left out before the mark of explicit metadata is
taken off.  So a reserved name is no key on its own account, but a marked one is, unless the marked
name is reserved as well: the line smuggles the reserved name in.

**Results.**  `mem_keys_incoming_iff` gives all keys, `mem_keys_iff_smuggles` the reserved ones.
`reserved_stay_out_iff` says exactly for which header maps no reserved name becomes a key.
-/

namespace RpcGateway
namespace HeaderBridge

/-!
## The mark
-/

theorem unmarked_mark_append
    {k : String}
    (h : k ≠ "") :
    unmarked (metadataMark ++ k) = k := by
  unfold unmarked
  rw [String.toList_append]
  have hlist : k.toList ≠ [] := by
    simpa [String.toList_eq_nil_iff] using h
  obtain ⟨c, rest, hk⟩ := List.exists_cons_of_ne_nil hlist
  have hmark :
      metadataMark.toList.isPrefixOf? (metadataMark.toList ++ k.toList) = some (c :: rest) := by
    rw [← hk]
    exact List.isPrefixOf?_eq_some_iff_append_eq.mpr rfl
  rw [hmark]
  change String.ofList (c :: rest) = k
  rw [← hk, String.ofList_toList]

/-- A name that the rule changes is marked, and more than the mark. -/
theorem unmarked_eq_self_or
    (name : String) :
    unmarked name = name ∨ name = metadataMark ++ unmarked name ∧ unmarked name ≠ "" := by
  unfold unmarked
  split
  · rename_i c rest hmark
    right
    have happend := List.isPrefixOf?_eq_some_iff_append_eq.mp hmark
    constructor
    · apply String.toList_injective
      rw [String.toList_append, String.toList_ofList, happend]
    · intro hempty
      have hlist := congrArg String.toList hempty
      simp at hlist
  · exact Or.inl rfl

/-!
## The keys of a request
-/

/-- The pair that a header line adds to the metadata. -/
def pair? (b : HeaderBridge) (line : String × HeaderValue) : Option (String × String) :=
  match HeaderValue.text? line.2, b.key? line.1 with
  | some value, some key => some (key, value)
  | _, _ => none

theorem pair?_eq_some_iff
    {b : HeaderBridge} {line : String × HeaderValue} {key value : String} :
    b.pair? line = some (key, value) ↔
      HeaderValue.text? line.2 = some value ∧ b.key? line.1 = some key := by
  unfold pair?
  split
  · rename_i value' key' htext hkey
    rw [htext, hkey]
    simp only [Option.some.injEq, Prod.mk.injEq]
    tauto
  · rename_i hnone
    constructor
    · intro h
      cases h
    · rintro ⟨htext, hkey⟩
      exact absurd hkey (hnone value key htext)

theorem copyLine_eq
    (b : HeaderBridge) (m : Metadata) (line : String × HeaderValue) :
    b.copyLine m line = m.appendAll (b.pair? line).toList := by
  unfold copyLine pair?
  cases HeaderValue.text? line.2 with
  | none => rfl
  | some value =>
      cases b.key? line.1 with
      | none => rfl
      | some key => rfl

theorem mem_keys_copied_iff
    (b : HeaderBridge) (headers : HeaderMap) (k : String) :
    k ∈ (headers.lines.foldl b.copyLine .empty).keys ↔
      ∃ line ∈ headers.lines, (HeaderValue.text? line.2).isSome ∧
        ∃ key, b.key? line.1 = some key ∧ Ascii.lower key = k := by
  rw [Metadata.foldl_eq_appendAll b.copyLine_eq, Metadata.mem_keys_appendAll]
  simp only [Metadata.keys, Metadata.empty, Keyed.keys, List.map_nil, List.not_mem_nil, false_or,
    List.mem_filterMap]
  constructor
  · rintro ⟨⟨key, value⟩, ⟨line, hline, hpair⟩, rfl⟩
    obtain ⟨htext, hkey⟩ := pair?_eq_some_iff.mp hpair
    exact ⟨line, hline, by simp [htext], key, hkey, rfl⟩
  · rintro ⟨line, hline, htext, key, hkey, rfl⟩
    obtain ⟨value, hvalue⟩ := Option.isSome_iff_exists.mp htext
    exact ⟨(key, value), ⟨line, hline, pair?_eq_some_iff.mpr ⟨hvalue, hkey⟩⟩, rfl⟩

/-- The address of the caller touches no key but its own. -/
theorem mem_keys_addAddress
    {m : Metadata} {address k : String}
    (h : k ≠ "x-forwarded-for") :
    k ∈ (addAddress m address).keys ↔ k ∈ m.keys := by
  have hlower : Ascii.lower "x-forwarded-for" = "x-forwarded-for" := by decide
  unfold addAddress
  rw [Metadata.mem_keys_appendAll, Metadata.mem_keys_erase (by rwa [hlower])]
  constructor
  · rintro (hmem | ⟨p, hp, rfl⟩)
    · exact hmem
    · obtain ⟨v, -, rfl⟩ := List.mem_map.mp hp
      exact absurd hlower h
  · exact Or.inl

/-- The keys of a request, that of the address apart. -/
theorem mem_keys_incoming_iff
    (b : HeaderBridge) (headers : HeaderMap) (address : Option String) {k : String}
    (h : k ≠ "x-forwarded-for") :
    k ∈ (b.incoming headers address).keys ↔
      ∃ line ∈ headers.lines, (HeaderValue.text? line.2).isSome ∧
        ∃ key, b.key? line.1 = some key ∧ Ascii.lower key = k := by
  rw [← mem_keys_copied_iff]
  cases address with
  | none => rfl
  | some a => exact mem_keys_addAddress h

/-!
## The reserved keys of a request
-/

/-- A line whose marked name is not reserved, but whose name without the mark is. -/
structure Smuggles (b : HeaderBridge) (headers : HeaderMap) (k : String) : Prop where
  named : k ≠ ""
  reserved : b.isReserved k = true
  overlooked : b.isReserved (metadataMark ++ k) = false
  sent : ∃ value, (metadataMark ++ k, value) ∈ headers.lines ∧ (HeaderValue.text? value).isSome

/-- A name in lower case is copied if it is not reserved, and `host` always is. -/
theorem key?_eq_some_iff
    {b : HeaderBridge} {name key : String}
    (hlower : Ascii.lower name = name) :
    b.key? name = some key ↔
      name = "host" ∧ key = "x-forwarded-host" ∨
        name ≠ "host" ∧ b.isReserved name = false ∧ key = unmarked name := by
  unfold key? isReserved
  rw [hlower]
  by_cases hhost : name = "host"
  · simp only [hhost, if_true, Option.some.injEq, ne_eq, not_true_eq_false, false_and, or_false,
      true_and]
    exact eq_comm
  · rw [if_neg hhost]
    by_cases hres : b.reserved.contains name = true
    · rw [if_pos hres, hres]
      simp [hhost]
    · rw [if_neg hres]
      simp only [hhost, hres, Option.some.injEq, ne_eq, not_false_eq_true, false_and, false_or,
        true_and]
      exact eq_comm

theorem mark_append_ne_host
    (k : String) :
    metadataMark ++ k ≠ "host" := by
  intro h
  have hlist := congrArg String.toList h
  simp [metadataMark] at hlist

/-- A reserved name is a key of the metadata if and only if a line smuggles it in. -/
theorem mem_keys_iff_smuggles
    (b : HeaderBridge) {headers : HeaderMap} (hl : headers.Legal) (address : Option String)
    {k : String} (hk : b.isReserved k = true)
    (hhost : k ≠ "x-forwarded-host") (hfor : k ≠ "x-forwarded-for") :
    k ∈ (b.incoming headers address).keys ↔ b.Smuggles headers k := by
  have hmarkLower : Ascii.lower metadataMark = metadataMark := by decide
  rw [mem_keys_incoming_iff b headers address hfor]
  constructor
  · rintro ⟨⟨name, value⟩, hline, htext, key, hkey, hlower⟩
    have hname := hl.lower_eq hline
    dsimp only at hname
    rcases (key?_eq_some_iff hname).mp hkey with ⟨-, rfl⟩ | ⟨-, hfree, rfl⟩
    · have hself : Ascii.lower "x-forwarded-host" = "x-forwarded-host" := by decide
      exact absurd (hlower.symm.trans hself) hhost
    · rcases unmarked_eq_self_or name with hself | ⟨hmark, hleft⟩
      · -- an unmarked name is its own key, and it was not reserved
        rw [hself, hname] at hlower
        rw [← hlower, hfree] at hk
        cases hk
      · have hleftLower : Ascii.lower (unmarked name) = unmarked name := by
          rw [← Ascii.lower_append_eq_self_iff hmarkLower, ← hmark, hname]
        rw [hleftLower] at hlower
        rw [hlower] at hmark hleft
        subst hmark
        exact ⟨hleft, hk, hfree, value, hline, htext⟩
  · rintro ⟨hnamed, -, hfree, value, hline, htext⟩
    have hname := hl.lower_eq hline
    dsimp only at hname
    have hlower := (Ascii.lower_append_eq_self_iff hmarkLower k).mp hname
    refine ⟨(metadataMark ++ k, value), hline, htext, k, ?_, hlower⟩
    rw [key?_eq_some_iff hname]
    exact Or.inr ⟨mark_append_ne_host k, hfree, (unmarked_mark_append hnamed).symm⟩

/-- The keys that the bridge writes of its own accord. -/
def Own (k : String) : Prop :=
  k = "x-forwarded-host" ∨ k = "x-forwarded-for"

/-- No reserved name becomes a key, the bridge's own keys apart, if and only if no line smuggles
one in. -/
theorem reserved_stay_out_iff
    (b : HeaderBridge) {headers : HeaderMap} (hl : headers.Legal) (address : Option String) :
    (∀ k ∈ (b.incoming headers address).keys, b.isReserved k = true → Own k) ↔
      ∀ k, b.Smuggles headers k → Own k := by
  constructor
  · intro h k hs
    by_contra hown
    obtain ⟨hhost, hfor⟩ := not_or.mp hown
    have hmem := (mem_keys_iff_smuggles b hl address hs.reserved hhost hfor).mpr hs
    exact hown (h k hmem hs.reserved)
  · intro h k hmem hres
    by_contra hown
    obtain ⟨hhost, hfor⟩ := not_or.mp hown
    exact hown (h k ((mem_keys_iff_smuggles b hl address hres hhost hfor).mp hmem))

/-- One line that smuggles in `te`. -/
def marked : HeaderMap :=
  HeaderMap.empty.append "grpc-metadata-te" [120]

/-- `te` is reserved, and the marked line makes it a key. -/
theorem te_smuggled_in :
    (standard.incoming marked none).keys = ["te"] ∧ standard.isReserved "te" = true ∧
      ¬ Own "te" := by
  refine ⟨by decide, by decide, ?_⟩
  unfold Own
  decide

theorem reserved_stay_out_iff_marked :
    marked.Legal ∧
      ((∀ k ∈ (standard.incoming marked none).keys, standard.isReserved k = true → Own k) ↔
        ∀ k, standard.Smuggles marked k → Own k) := by
  have hname : headerName? "grpc-metadata-te" = some "grpc-metadata-te" := by decide
  have hvalue : HeaderValue.isLegal [120] = true := by decide
  have hl : marked.Legal := HeaderMap.legal_empty.append hname hvalue
  exact ⟨hl, reserved_stay_out_iff standard hl none⟩

end HeaderBridge
end RpcGateway
