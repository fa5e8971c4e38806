import Mathlib.Data.List.Perm.Basic
import RpcGateway.Proofs.Metadata.Basic

/-!
# Merging as a monoid

The metadata that can be built by the operations, and the laws of merging for it.

**Built.**  `Metadata.Built` closes the empty map under all operations, the removal of a key among
them; `CallMetadata.Built` does the same for the metadata of a call.  What can be built is what is
sound (`built_iff_sound`), so the laws need no other assumption.

**Laws.**  `Merging` lists the laws of a merge: it is associative, the empty metadata is its
identity on both sides, and the values of a key are put one behind the other.  All of them are
equations between maps, with the order of keys and of values.  `Joining` lists what follows for the
join of a list, and `Merging.joining` derives it, once for both kinds of metadata.

**Order.**  Merging in another order may change the order of the keys and of the values of a
key.  It changes no value and no multiplicity (`Joining.values_perm`).
-/

namespace RpcGateway

/-!
## What can be built
-/

namespace Metadata

/-- What the operations build from nothing. -/
inductive Built : Metadata → Prop
  | empty : Built .empty
  | append {m : Metadata} (key value : String) : Built m → Built (m.append key value)
  | erase {m : Metadata} (key : String) : Built m → Built (m.erase key)
  | extend {m other : Metadata} : Built m → Built other → Built (m.extend other)
  | join {ms : List Metadata} : (∀ m ∈ ms, Built m) → Built (join ms)
  | ofList (ps : List (String × String)) : Built (ofList ps)

theorem Sound.erase
    {m : Metadata}
    (h : m.Sound) (key : String) :
    (m.erase key).Sound := by
  have hsub : List.Sublist (m.erase key).entries m.entries := List.eraseP_sublist
  have hkeys : List.Sublist (m.erase key).keys m.keys := hsub.map Prod.fst
  refine ⟨⟨h.keyed.nodup.sublist hkeys, ?_⟩, ?_⟩
  · intro e he
    exact h.keyed.filled e (hsub.subset he)
  · intro k hk
    exact h.lower k (hkeys.subset hk)

/-- Joining maps adds the pairs of one after another. -/
theorem join_eq_ofList
    (ms : List Metadata) :
    join ms = ofList (ms.flatMap pairs) := by
  have hfold : ∀ m : Metadata, ms.foldl extend m = m.appendAll (ms.flatMap pairs) := by
    induction ms with
    | nil => exact fun m => rfl
    | cons m' ms ih =>
        intro m
        rw [List.foldl_cons, ih, List.flatMap_cons, appendAll_append, extend]
  exact hfold empty

theorem Sound.foldl_extend
    {m : Metadata}
    (h : m.Sound) (ms : List Metadata) :
    (ms.foldl Metadata.extend m).Sound := by
  induction ms generalizing m with
  | nil => exact h
  | cons m' ms ih => exact ih (h.extend m')

/-- The invariant of the multimap is all that the operations establish. -/
theorem built_iff_sound
    (m : Metadata) :
    m.Built ↔ m.Sound := by
  constructor
  · intro h
    induction h with
    | empty => exact sound_empty
    | append key value _ ih => exact ih.appendAll [(key, value)]
    | erase key _ ih => exact ih.erase key
    | extend _ _ ih _ => exact ih.extend _
    | join _ _ => exact sound_empty.foldl_extend _
    | ofList ps => exact sound_ofList ps
  · intro h
    rw [← h.ofList_pairs]
    exact Built.ofList m.pairs

end Metadata

namespace CallMetadata

/-- What the operations build from two maps that were built. -/
inductive Built : CallMetadata → Prop
  | parts {header trailer : Metadata} :
      header.Built → trailer.Built → Built ⟨header, trailer⟩
  | merge {m added : CallMetadata} : Built m → Built added → Built (m.merge added)
  | collapsed {m : CallMetadata} : Built m → Built m.collapsed

theorem built_iff_sound
    (m : CallMetadata) :
    m.Built ↔ m.Sound := by
  constructor
  · intro h
    induction h with
    | parts hh ht =>
        exact ⟨(Metadata.built_iff_sound _).mp hh, (Metadata.built_iff_sound _).mp ht⟩
    | merge _ _ ih _ => exact ih.merge _
    | collapsed _ ih => exact ⟨ih.header.extend _, Metadata.sound_empty⟩
  · intro h
    exact Built.parts ((Metadata.built_iff_sound _).mpr h.header)
      ((Metadata.built_iff_sound _).mpr h.trailer)

/-- The joins of the two parts. -/
def joined (ms : List CallMetadata) : CallMetadata :=
  ⟨Metadata.join (ms.map header), Metadata.join (ms.map trailer)⟩

/-- Joining the parts is merging one after another. -/
theorem joined_eq_foldl
    (ms : List CallMetadata) :
    joined ms = ms.foldl merge empty := by
  have hfold : ∀ m : CallMetadata,
      ms.foldl merge m =
        ⟨(ms.map header).foldl Metadata.extend m.header,
          (ms.map trailer).foldl Metadata.extend m.trailer⟩ := by
    induction ms with
    | nil => exact fun m => rfl
    | cons m' ms ih => exact fun m => ih (m.merge m')
  exact (hfold empty).symm

/-- One of the two parts. -/
inductive Part
  | header
  | trailer
  deriving DecidableEq, Repr

/-- The values of a key in one part. -/
def valuesAt (m : CallMetadata) : Part × String → List String
  | (.header, key) => m.header.getAll key
  | (.trailer, key) => m.trailer.getAll key

end CallMetadata

/-!
## The laws
-/

section Laws

variable {M K : Type}

/-- A merge of what was built is a monoid, and it adds up the values of every key. -/
structure Merging (Built : M → Prop) (empty : M) (merge : M → M → M)
    (values : M → K → List String) : Prop where
  built_empty : Built empty
  built_merge : ∀ a b, Built a → Built b → Built (merge a b)
  empty_merge : ∀ a, Built a → merge empty a = a
  merge_empty : ∀ a, Built a → merge a empty = a
  merge_assoc : ∀ a b c, Built a → Built b → Built c →
    merge (merge a b) c = merge a (merge b c)
  values_empty : ∀ k, values empty k = []
  values_merge : ∀ a b, Built a → Built b → ∀ k, values (merge a b) k = values a k ++ values b k

/-- The join of a list is the merge of its members, from either end. -/
structure Joining (Built : M → Prop) (empty : M) (merge : M → M → M) (join : List M → M)
    (values : M → K → List String) : Prop where
  built_join : ∀ as, (∀ a ∈ as, Built a) → Built (join as)
  eq_foldl : ∀ as, join as = as.foldl merge empty
  eq_foldr : ∀ as, (∀ a ∈ as, Built a) → join as = as.foldr merge empty
  join_append : ∀ as bs, (∀ a ∈ as, Built a) → (∀ b ∈ bs, Built b) →
    join (as ++ bs) = merge (join as) (join bs)
  values_join : ∀ as, (∀ a ∈ as, Built a) → ∀ k, values (join as) k = as.flatMap (values · k)
  values_perm : ∀ as bs, as.Perm bs → (∀ a ∈ as, Built a) →
    ∀ k, (values (join as) k).Perm (values (join bs) k)

namespace Merging

variable {Built : M → Prop} {empty : M} {merge : M → M → M} {values : M → K → List String}

theorem built_foldl
    (h : Merging Built empty merge values) {as : List M}
    (has : ∀ a ∈ as, Built a) {a : M} (ha : Built a) :
    Built (as.foldl merge a) := by
  induction as generalizing a with
  | nil => exact ha
  | cons b as ih =>
      obtain ⟨hb, has⟩ := List.forall_mem_cons.mp has
      exact ih has (h.built_merge a b ha hb)

/-- Merging a list behind something is merging its join behind it. -/
theorem foldl_eq_merge
    (h : Merging Built empty merge values) {as : List M}
    (has : ∀ a ∈ as, Built a) {a : M} (ha : Built a) :
    as.foldl merge a = merge a (as.foldl merge empty) := by
  induction as generalizing a with
  | nil => exact (h.merge_empty a ha).symm
  | cons b as ih =>
      obtain ⟨hb, has⟩ := List.forall_mem_cons.mp has
      have hrest := h.built_foldl has h.built_empty
      calc as.foldl merge (merge a b)
          = merge (merge a b) (as.foldl merge empty) := ih has (h.built_merge a b ha hb)
        _ = merge a (merge b (as.foldl merge empty)) := h.merge_assoc a b _ ha hb hrest
        _ = merge a (as.foldl merge b) := by rw [← ih has hb]
        _ = merge a (as.foldl merge (merge empty b)) := by rw [h.empty_merge b hb]

theorem foldl_eq_foldr
    (h : Merging Built empty merge values) {as : List M}
    (has : ∀ a ∈ as, Built a) :
    as.foldl merge empty = as.foldr merge empty := by
  induction as with
  | nil => rfl
  | cons a as ih =>
      obtain ⟨ha, has⟩ := List.forall_mem_cons.mp has
      rw [List.foldl_cons, List.foldr_cons, h.empty_merge a ha, h.foldl_eq_merge has ha, ih has]

theorem values_foldl
    (h : Merging Built empty merge values) {as : List M}
    (has : ∀ a ∈ as, Built a) {a : M} (ha : Built a) (k : K) :
    values (as.foldl merge a) k = values a k ++ as.flatMap (values · k) := by
  induction as generalizing a with
  | nil => simp
  | cons b as ih =>
      obtain ⟨hb, has⟩ := List.forall_mem_cons.mp has
      rw [List.foldl_cons, ih has (h.built_merge a b ha hb), h.values_merge a b ha hb,
        List.flatMap_cons, List.append_assoc]

/-- The laws of a join follow from those of the merge. -/
theorem joining
    (h : Merging Built empty merge values) {join : List M → M}
    (hjoin : ∀ as, join as = as.foldl merge empty) :
    Joining Built empty merge join values := by
  have hvalues : ∀ as, (∀ a ∈ as, Built a) → ∀ k,
      values (join as) k = as.flatMap (values · k) := by
    intro as has k
    rw [hjoin, h.values_foldl has h.built_empty, h.values_empty, List.nil_append]
  refine ⟨?_, hjoin, ?_, ?_, hvalues, ?_⟩
  · intro as has
    rw [hjoin]
    exact h.built_foldl has h.built_empty
  · intro as has
    rw [hjoin, h.foldl_eq_foldr has]
  · intro as bs has hbs
    rw [hjoin, hjoin as, hjoin bs, List.foldl_append,
      h.foldl_eq_merge hbs (h.built_foldl has h.built_empty)]
  · intro as bs hperm has k
    have hbs : ∀ b ∈ bs, Built b := fun b hb => has b (hperm.mem_iff.mpr hb)
    rw [hvalues as has, hvalues bs hbs]
    exact hperm.flatMap_right _

end Merging
end Laws

namespace Metadata

theorem merging : Merging Built empty extend getAll where
  built_empty := Built.empty
  built_merge _ _ ha hb := Built.extend ha hb
  empty_merge a ha := ((built_iff_sound a).mp ha).ofList_pairs
  merge_empty a _ := a.extend_empty
  merge_assoc a b c _ hb _ := (((built_iff_sound b).mp hb).extend_extend a c).symm
  values_empty := getAll_empty
  values_merge a b _ hb := a.getAll_extend ((built_iff_sound b).mp hb)

end Metadata

namespace CallMetadata

theorem merging : Merging Built empty merge valuesAt where
  built_empty := Built.parts Metadata.Built.empty Metadata.Built.empty
  built_merge _ _ ha hb := Built.merge ha hb
  empty_merge a ha := ((built_iff_sound a).mp ha).empty_merge
  merge_empty a _ := a.merge_empty
  merge_assoc a b c _ hb _ := (((built_iff_sound b).mp hb).merge_merge a c).symm
  values_empty := by
    rintro ⟨part, k⟩
    cases part <;> rfl
  values_merge := by
    rintro a b - hb ⟨part, k⟩
    have hsound := (built_iff_sound b).mp hb
    cases part with
    | header => exact a.header.getAll_extend hsound.header k
    | trailer => exact a.trailer.getAll_extend hsound.trailer k

end CallMetadata

/-- Metadata that was built is a monoid under merging, with exact equality, and so is the metadata
of a call.  A join merges a list from either end, the values of a key stand in the order of the
operands, and another order of the operands only permutes them. -/
theorem metadata_monoid :
    Merging Metadata.Built .empty Metadata.extend Metadata.getAll ∧
    Joining Metadata.Built .empty Metadata.extend Metadata.join Metadata.getAll ∧
    Merging CallMetadata.Built .empty CallMetadata.merge CallMetadata.valuesAt ∧
    Joining CallMetadata.Built .empty CallMetadata.merge CallMetadata.joined
      CallMetadata.valuesAt := by
  have hmap := Metadata.merging
  have hcall := CallMetadata.merging
  exact ⟨hmap, hmap.joining fun _ => rfl, hcall, hcall.joining CallMetadata.joined_eq_foldl⟩

end RpcGateway
