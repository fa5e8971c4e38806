import RpcGateway.Metadata.Basic
import RpcGateway.Proofs.Collection.Multimap

/-!
# Metadata as a multimap

The operations on metadata through two views: `keys`, and `getAll` for the values of a key.

**Soundness.**  Metadata is `Sound` if it is sound as a multimap and its keys are in lower case.
Whatever is built by additions from nothing is sound, and for sound metadata `getAll_extend` says
that merging puts the values of one map behind those of the other.  Sound metadata is a monoid under
merging (`Sound.extend_extend`), and so is the metadata of a call, which has two parts.
-/

namespace RpcGateway
namespace Metadata

/-- The keys, in order. -/
def keys (m : Metadata) : List String :=
  Keyed.keys m.entries

/-- A pair with its key in lower case. -/
def folded (p : String × String) : String × String :=
  (Ascii.lower p.1, p.2)

/-- Distinct keys in lower case, each with a value. -/
structure Sound (m : Metadata) : Prop where
  keyed : Keyed.Sound m.entries
  lower : ∀ k ∈ m.keys, Ascii.lower k = k

theorem entries_appendAll
    (m : Metadata) (ps : List (String × String)) :
    (m.appendAll ps).entries = Keyed.appendAll (ps.map folded) m.entries := by
  induction ps generalizing m with
  | nil => rfl
  | cons p ps ih => exact ih (m.append p.1 p.2)

/-- Steps that add at most one pair each add all of their pairs. -/
theorem foldl_eq_appendAll
    {γ : Type} {step : Metadata → γ → Metadata} {pair : γ → Option (String × String)}
    (h : ∀ m x, step m x = m.appendAll (pair x).toList) (xs : List γ) (m : Metadata) :
    xs.foldl step m = m.appendAll (xs.filterMap pair) := by
  induction xs generalizing m with
  | nil => rfl
  | cons x xs ih =>
      rw [List.foldl_cons, ih, h, List.filterMap_cons]
      cases pair x with
      | none => rfl
      | some p => rfl

theorem mem_keys_appendAll
    (m : Metadata) (ps : List (String × String)) (k : String) :
    k ∈ (m.appendAll ps).keys ↔ k ∈ m.keys ∨ ∃ p ∈ ps, Ascii.lower p.1 = k := by
  unfold keys
  rw [entries_appendAll, Keyed.mem_keys_appendAll]
  simp only [List.mem_map, exists_exists_and_eq_and, folded]

theorem getAll_appendAll
    (m : Metadata) (ps : List (String × String)) (k : String) :
    (m.appendAll ps).getAll k =
      m.getAll k ++ Keyed.valuesIn (Ascii.lower k) (ps.map folded) := by
  have h := Keyed.values_appendAll (ps.map folded) m.entries (Ascii.lower k)
  rw [← entries_appendAll] at h
  exact h

theorem mem_keys_erase
    {m : Metadata} {key k : String}
    (h : k ≠ Ascii.lower key) :
    k ∈ (m.erase key).keys ↔ k ∈ m.keys := by
  simp only [keys, Keyed.keys, erase, List.mem_map]
  have hmem : ∀ e : String × List String, e.1 = k →
      (e ∈ m.entries.eraseP (fun e => e.1 == Ascii.lower key) ↔ e ∈ m.entries) := by
    intro e he
    apply List.mem_eraseP_of_neg
    simpa [he] using h
  constructor
  · rintro ⟨e, he, rfl⟩
    exact ⟨e, (hmem e rfl).mp he, rfl⟩
  · rintro ⟨e, he, rfl⟩
    exact ⟨e, (hmem e rfl).mpr he, rfl⟩

@[simp] theorem getAll_empty (k : String) :
    empty.getAll k = [] :=
  rfl

theorem getAll_lower
    (m : Metadata) (k : String) :
    m.getAll (Ascii.lower k) = m.getAll k := by
  unfold getAll
  rw [Ascii.lower_lower]

/-!
## Soundness
-/

theorem sound_empty : empty.Sound :=
  ⟨Keyed.sound_nil, by simp [empty, keys, Keyed.keys]⟩

theorem Sound.appendAll
    {m : Metadata}
    (h : m.Sound) (ps : List (String × String)) :
    (m.appendAll ps).Sound := by
  constructor
  · rw [entries_appendAll]
    exact h.keyed.appendAll _
  · intro k hk
    rcases (m.mem_keys_appendAll ps k).mp hk with hk | ⟨p, -, rfl⟩
    · exact h.lower k hk
    · exact Ascii.lower_lower p.1

theorem sound_ofList
    (ps : List (String × String)) :
    (ofList ps).Sound :=
  sound_empty.appendAll ps

theorem Sound.extend
    {m : Metadata}
    (h : m.Sound) (other : Metadata) :
    (m.extend other).Sound :=
  h.appendAll other.pairs

/-- Pairs with keys in lower case stay as they are. -/
theorem map_folded_eq_self
    {ps : List (String × String)}
    (h : ∀ p ∈ ps, Ascii.lower p.1 = p.1) :
    ps.map folded = ps := by
  have hself : ∀ p ∈ ps, folded p = id p := by
    rintro ⟨k, v⟩ hp
    simp [folded, h _ hp]
  rw [List.map_congr_left hself, List.map_id]

theorem Sound.map_folded_pairs
    {m : Metadata}
    (h : m.Sound) :
    m.pairs.map folded = m.pairs := by
  refine map_folded_eq_self ?_
  rintro ⟨k, v⟩ hp
  simp only [pairs, List.mem_flatMap, List.mem_map, Prod.mk.injEq] at hp
  obtain ⟨e, he, -, -, rfl, -⟩ := hp
  exact h.lower e.1 (List.mem_map_of_mem he)

/-- Merging puts the added values behind those that were there. -/
theorem getAll_extend
    (m : Metadata) {other : Metadata}
    (h : other.Sound) (k : String) :
    (m.extend other).getAll k = m.getAll k ++ other.getAll k := by
  have hpairs : Keyed.valuesIn (Ascii.lower k) other.pairs = other.getAll k :=
    Keyed.valuesIn_flatten h.keyed.nodup (Ascii.lower k)
  unfold extend
  rw [getAll_appendAll, h.map_folded_pairs, hpairs]

/-- Merging what was built from pairs adds those pairs. -/
theorem extend_ofList
    (m : Metadata) (ps : List (String × String)) :
    m.extend (ofList ps) = m.appendAll ps := by
  have hbuilt := Keyed.appendAll_flatten_appendAll Keyed.sound_nil (ps.map folded) m.entries
  have hentries : (m.extend (ofList ps)).entries = (m.appendAll ps).entries := by
    rw [extend, entries_appendAll, entries_appendAll, (sound_ofList ps).map_folded_pairs]
    have hofList : (ofList ps).entries = Keyed.appendAll (ps.map folded) [] :=
      entries_appendAll empty ps
    have hpairs : (ofList ps).pairs = Keyed.flatten (Keyed.appendAll (ps.map folded) []) := by
      rw [← hofList]
      rfl
    rw [hpairs, hbuilt]
    rfl
  exact congrArg Metadata.mk hentries

theorem appendAll_append
    (m : Metadata) (ps qs : List (String × String)) :
    m.appendAll (ps ++ qs) = (m.appendAll ps).appendAll qs :=
  List.foldl_append

@[simp] theorem extend_empty
    (m : Metadata) :
    m.extend empty = m :=
  rfl

/-- Sound metadata is built from its pairs. -/
theorem Sound.ofList_pairs
    {m : Metadata}
    (h : m.Sound) :
    ofList m.pairs = m := by
  have hentries : (ofList m.pairs).entries = m.entries := by
    rw [ofList, entries_appendAll, h.map_folded_pairs]
    exact Keyed.appendAll_flatten_nil h.keyed
  exact congrArg Metadata.mk hentries

/-- Merging with what was merged is merging twice. -/
theorem Sound.extend_extend
    {added : Metadata}
    (h : added.Sound) (m other : Metadata) :
    m.extend (added.extend other) = (m.extend added).extend other := by
  have hboth : added.extend other = ofList (added.pairs ++ other.pairs) := by
    rw [ofList, appendAll_append, ← ofList, h.ofList_pairs]
    rfl
  rw [hboth, extend_ofList, appendAll_append]
  rfl

theorem Sound.getAll_ne_nil
    {m : Metadata} {k : String}
    (h : m.Sound) (hk : k ∈ m.keys) :
    m.getAll k ≠ [] := by
  obtain ⟨e, he, rfl⟩ := List.mem_map.mp hk
  have hvalues : m.getAll e.1 = Keyed.values e.1 m.entries := by
    rw [getAll, h.lower e.1 hk]
    rfl
  rw [hvalues, Keyed.values_of_mem h.keyed.nodup he]
  exact h.keyed.filled e he

theorem Sound.eq_empty_of_getAll
    {m : Metadata}
    (h : m.Sound) (hnone : ∀ k, m.getAll k = []) :
    m = empty := by
  obtain ⟨entries⟩ := m
  cases entries with
  | nil => rfl
  | cons e es => exact absurd (hnone e.1) (h.getAll_ne_nil (List.mem_cons_self ..))

end Metadata

/-!
## The metadata of a call
-/

namespace CallMetadata

/-- Both parts are sound. -/
structure Sound (m : CallMetadata) : Prop where
  header : m.header.Sound
  trailer : m.trailer.Sound

theorem sound_empty : empty.Sound :=
  ⟨Metadata.sound_empty, Metadata.sound_empty⟩

theorem Sound.merge
    {m : CallMetadata}
    (h : m.Sound) (added : CallMetadata) :
    (m.merge added).Sound :=
  ⟨h.header.extend added.header, h.trailer.extend added.trailer⟩

theorem Sound.merge_merge
    {added : CallMetadata}
    (h : added.Sound) (m other : CallMetadata) :
    m.merge (added.merge other) = (m.merge added).merge other := by
  simp only [CallMetadata.merge, h.header.extend_extend, h.trailer.extend_extend]

theorem Sound.empty_merge
    {m : CallMetadata}
    (h : m.Sound) :
    empty.merge m = m := by
  have hheader : Metadata.empty.extend m.header = m.header := h.header.ofList_pairs
  have htrailer : Metadata.empty.extend m.trailer = m.trailer := h.trailer.ofList_pairs
  simp only [CallMetadata.merge, empty, hheader, htrailer]

@[simp] theorem merge_empty
    (m : CallMetadata) :
    m.merge empty = m :=
  rfl

end CallMetadata
end RpcGateway
