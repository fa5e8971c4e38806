import Mathlib.Data.Set.Card
import RpcGateway.Proofs.Metadata.Merging

/-!
# Metadata and its history

Maps of metadata are built by additions, removals, merges and joins.  What a map shows is decided by
the changes that were made to it, and by nothing else.

**Changes.**  A change adds a value under a key or removes a key, in any spelling of the key.  Of a
history of changes, `standing` are the additions that no removal of their key follows.  They say
what the values of a key are (`valuesOf`) and in which order the keys stand (`keysOf`).

**Programs.**  A program works with numbered maps, all of them empty at first.  Merging adds to the
history of a map what another map shows at that moment, key by key; a join and a map of pairs begin
a new history.

**Result.**  `maps_refine_histories`: after any program, every map shows what its history
says.  What is kept from step to step is that every map is built from what stands in its history
(`Tracked`).
-/

namespace RpcGateway

/-!
## Changes
-/

/-- A change of a map of metadata. -/
inductive MetadataChange
  | added (key value : String)
  | removed (key : String)
  deriving DecidableEq, Repr

namespace MetadataChange

/-- Whether a change removes a key, however it spells it. -/
def removes (key : String) : MetadataChange → Bool
  | added _ _ => false
  | removed k => Ascii.lower k == Ascii.lower key

/-- The additions that no removal of their key follows, with the keys in lower case. -/
def standing : List MetadataChange → List (String × String)
  | [] => []
  | added key value :: later =>
      if later.any (removes key) then standing later
      else (Ascii.lower key, value) :: standing later
  | removed _ :: later => standing later

/-- The values that were added under a key, in any spelling, since its last removal. -/
def valuesOf (key : String) (changes : List MetadataChange) : List String :=
  Keyed.valuesIn (Ascii.lower key) (standing changes)

/-- The keys in the order of the first addition of each since its last removal. -/
def keysOf (changes : List MetadataChange) : List String :=
  ((standing changes).map Prod.fst).eraseDups

/-- All pairs of a key and a value, key by key. -/
def pairsOf (changes : List MetadataChange) : List (String × String) :=
  (keysOf changes).flatMap fun k => (valuesOf k changes).map fun v => (k, v)

/-- The additions of some pairs. -/
def additions (ps : List (String × String)) : List MetadataChange :=
  ps.map fun p => added p.1 p.2

theorem standing_concat_added
    (changes : List MetadataChange) (key value : String) :
    standing (changes ++ [added key value]) = standing changes ++ [(Ascii.lower key, value)] := by
  induction changes with
  | nil => rfl
  | cons change later ih =>
      cases change with
      | added k v =>
          have hany : (later ++ [added key value]).any (removes k) = later.any (removes k) := by
            simp [removes]
          rw [List.cons_append, standing, standing, hany, ih]
          split <;> rfl
      | removed k => exact ih

theorem standing_additions
    (changes : List MetadataChange) (ps : List (String × String)) :
    standing (changes ++ additions ps) = standing changes ++ ps.map Metadata.folded := by
  induction ps generalizing changes with
  | nil => simp [additions]
  | cons p ps ih =>
      have hrest := ih (changes ++ [added p.1 p.2])
      rw [standing_concat_added, List.append_assoc, List.append_assoc] at hrest
      exact hrest

theorem standing_concat_removed
    (changes : List MetadataChange) (key : String) :
    standing (changes ++ [removed key]) =
      (standing changes).filter fun p => p.1 ≠ Ascii.lower key := by
  induction changes with
  | nil => rfl
  | cons change later ih =>
      cases change with
      | added k v =>
          have hany : (later ++ [removed key]).any (removes k) =
              (later.any (removes k) || Ascii.lower key == Ascii.lower k) := by
            simp [removes]
          rw [List.cons_append, standing, standing, hany, ih]
          by_cases hlater : later.any (removes k) = true
          · simp [hlater]
          · by_cases hkey : Ascii.lower k = Ascii.lower key
            · simp [hlater, hkey]
            · simp [hlater, hkey, Ne.symm hkey]
      | removed k => exact ih

/-- The pairs that stand have their keys in lower case. -/
theorem map_folded_standing
    (changes : List MetadataChange) :
    (standing changes).map Metadata.folded = standing changes := by
  refine Metadata.map_folded_eq_self ?_
  induction changes with
  | nil => simp [standing]
  | cons change later ih =>
      cases change with
      | added k v =>
          rw [standing]
          split
          · exact ih
          · exact List.forall_mem_cons.mpr ⟨Ascii.lower_lower k, ih⟩
      | removed k => exact ih

end MetadataChange

/-!
## Maps of pairs
-/

namespace Metadata

/-- It does not matter how the keys of added pairs are spelled. -/
theorem appendAll_map_folded
    (m : Metadata) (ps : List (String × String)) :
    m.appendAll (ps.map folded) = m.appendAll ps := by
  have hentries : (m.appendAll (ps.map folded)).entries = (m.appendAll ps).entries := by
    have hfolded : folded ∘ folded = folded := by
      funext p
      exact Prod.ext (Ascii.lower_lower p.1) rfl
    rw [entries_appendAll, entries_appendAll, List.map_map, hfolded]
  exact congrArg Metadata.mk hentries

/-- What more pairs do to a map that was built from pairs. -/
theorem ofList_append_map_folded
    (ps qs : List (String × String)) :
    ofList (ps ++ qs.map folded) = (ofList ps).appendAll qs := by
  rw [ofList, appendAll_append, appendAll_map_folded, ← ofList]

theorem keys_ofList
    (ps : List (String × String)) :
    (ofList ps).keys = ((ps.map folded).map Prod.fst).eraseDups := by
  rw [keys, ofList, entries_appendAll]
  exact Keyed.keys_appendAll_nil (ps.map folded)

theorem entries_erase
    {m : Metadata}
    (h : m.Sound) (key : String) :
    (m.erase key).entries = m.entries.filter fun e => e.1 ≠ Ascii.lower key :=
  Keyed.eraseP_eq_filter h.keyed.nodup (Ascii.lower key)

/-- A key is removed with all of its pairs. -/
theorem erase_ofList
    (ps : List (String × String)) (key : String) :
    (ofList ps).erase key = ofList ((ps.map folded).filter fun p => p.1 ≠ Ascii.lower key) := by
  have hkept : ((ps.map folded).filter fun p => p.1 ≠ Ascii.lower key).map folded =
      (ps.map folded).filter fun p => p.1 ≠ Ascii.lower key := by
    refine map_folded_eq_self fun p hp => ?_
    obtain ⟨q, -, rfl⟩ := List.mem_map.mp (List.mem_of_mem_filter hp)
    exact Ascii.lower_lower q.1
  have hentries : ((ofList ps).erase key).entries =
      (ofList ((ps.map folded).filter fun p => p.1 ≠ Ascii.lower key)).entries := by
    rw [entries_erase (sound_ofList ps), ofList, ofList, entries_appendAll, entries_appendAll,
      hkept]
    exact Keyed.filter_appendAll (Ascii.lower key) (ps.map folded) []
  exact congrArg Metadata.mk hentries

theorem Sound.getAll_erase_of_ne
    {m : Metadata} {key other : String}
    (h : m.Sound) (hne : Ascii.lower other ≠ Ascii.lower key) :
    (m.erase key).getAll other = m.getAll other := by
  have hfilter := Keyed.values_filter (fun k => decide (k ≠ Ascii.lower key)) (Ascii.lower other)
    m.entries
  rw [if_pos (decide_eq_true hne), ← entries_erase h] at hfilter
  exact hfilter

theorem Sound.keys_erase
    {m : Metadata}
    (h : m.Sound) (key : String) :
    (m.erase key).keys = m.keys.filter fun k => k ≠ Ascii.lower key := by
  rw [keys, entries_erase h, keys, Keyed.keys, Keyed.keys, List.filter_map]
  rfl

/-- The number of keys is the number of keys with a value. -/
theorem Sound.size_eq_ncard
    {m : Metadata}
    (h : m.Sound) :
    m.size = {key | Ascii.lower key = key ∧ m.getAll key ≠ []}.ncard := by
  have hset : {key | Ascii.lower key = key ∧ m.getAll key ≠ []} = ↑m.keys.toFinset := by
    ext key
    simp only [Set.mem_ofPred_eq, List.coe_toFinset]
    constructor
    · rintro ⟨hlower, hvalues⟩
      by_contra hnot
      refine hvalues ?_
      rw [getAll, hlower]
      exact Keyed.values_eq_nil_of_not_mem hnot
    · exact fun hkey => ⟨h.lower key hkey, h.getAll_ne_nil hkey⟩
  have hcard : m.keys.toFinset.card = m.keys.length :=
    List.toFinset_card_of_nodup h.keyed.nodup
  rw [hset, Set.ncard_coe_finset, hcard]
  exact (List.length_map ..).symm

end Metadata

/-- A map shows what its changes say. -/
structure Metadata.Refines (m : Metadata) (changes : List MetadataChange) : Prop where
  lower : ∀ key ∈ m.keys, Ascii.lower key = key
  nodup : m.keys.Nodup
  /-- No key is kept without values. -/
  filled : ∀ e ∈ m.entries, e.2 ≠ []
  getAll : ∀ key spelling, Ascii.lower spelling = Ascii.lower key →
    m.getAll spelling = MetadataChange.valuesOf key changes
  get? : ∀ key, m.get? key = (MetadataChange.valuesOf key changes).head?
  keys : m.keys = MetadataChange.keysOf changes
  size : m.size = {key | Ascii.lower key = key ∧ m.getAll key ≠ []}.ncard
  /-- What a removal gives, and what it leaves of the other keys. -/
  removed : ∀ key, (m.remove key).1 = MetadataChange.valuesOf key changes
  others : ∀ key other, Ascii.lower other ≠ Ascii.lower key →
    (m.remove key).2.getAll other = m.getAll other
  order : ∀ key, (m.remove key).2.keys = m.keys.filter fun k => k ≠ Ascii.lower key

/-!
## Programs
-/

/-- A step of a program that works with numbered maps. -/
inductive MetadataStep
  | append (target : Nat) (key value : String)
  | remove (target : Nat) (key : String)
  | extend (target source : Nat)
  /-- The join of some maps takes the place of a map. -/
  | join (target : Nat) (sources : List Nat)
  /-- The map of some pairs takes the place of a map. -/
  | ofList (target : Nat) (ps : List (String × String))
  deriving DecidableEq, Repr

namespace MetadataStep

open MetadataChange

/-- What a step makes of the maps. -/
def apply (maps : Nat → Metadata) : MetadataStep → Nat → Metadata
  | append i key value => Function.update maps i ((maps i).append key value)
  | remove i key => Function.update maps i ((maps i).remove key).2
  | extend i j => Function.update maps i ((maps i).extend (maps j))
  | join i js => Function.update maps i (Metadata.join (js.map maps))
  | ofList i ps => Function.update maps i (Metadata.ofList ps)

/-- What a step makes of the changes of the maps since they were empty. -/
def log (histories : Nat → List MetadataChange) : MetadataStep → Nat → List MetadataChange
  | append i key value => Function.update histories i (histories i ++ [added key value])
  | remove i key => Function.update histories i (histories i ++ [removed key])
  | extend i j => Function.update histories i (histories i ++ additions (pairsOf (histories j)))
  | join i js =>
      Function.update histories i (additions (js.flatMap fun j => pairsOf (histories j)))
  | ofList i ps => Function.update histories i (additions ps)

/-- The maps after steps, all of them being empty at first. -/
def maps (steps : List MetadataStep) : Nat → Metadata :=
  steps.foldl apply fun _ => .empty

def histories (steps : List MetadataStep) : Nat → List MetadataChange :=
  steps.foldl log fun _ => []

/-- Every map is what the changes in its history leave standing. -/
def Tracked (maps : Nat → Metadata) (histories : Nat → List MetadataChange) : Prop :=
  ∀ i, maps i = Metadata.ofList (standing (histories i))

theorem getAll_ofList_standing
    (changes : List MetadataChange) (key : String) :
    (Metadata.ofList (standing changes)).getAll key = valuesOf key changes := by
  rw [Metadata.ofList, Metadata.getAll_appendAll, map_folded_standing]
  rfl

theorem keys_ofList_standing
    (changes : List MetadataChange) :
    (Metadata.ofList (standing changes)).keys = keysOf changes := by
  rw [Metadata.keys_ofList, map_folded_standing]
  rfl

theorem pairs_ofList_standing
    (changes : List MetadataChange) :
    (Metadata.ofList (standing changes)).pairs = pairsOf changes := by
  have hsound := Metadata.sound_ofList (standing changes)
  have hpairs : (Metadata.ofList (standing changes)).pairs =
      (Metadata.ofList (standing changes)).keys.flatMap fun k =>
        (Keyed.values k (Metadata.ofList (standing changes)).entries).map fun v => (k, v) :=
    Keyed.flatten_eq_flatMap_keys hsound.keyed.nodup
  rw [hpairs, pairsOf, ← keys_ofList_standing]
  refine List.flatMap_congr fun k hk => ?_
  rw [← getAll_ofList_standing, Metadata.getAll, hsound.lower k hk]
  rfl

/-- What the changes leave standing shows what they say. -/
theorem refines_ofList_standing
    (changes : List MetadataChange) :
    (Metadata.ofList (standing changes)).Refines changes := by
  have hsound := Metadata.sound_ofList (standing changes)
  have hgetAll := getAll_ofList_standing changes
  exact {
    lower := hsound.lower
    nodup := hsound.keyed.nodup
    filled := hsound.keyed.filled
    getAll := fun key spelling hspelling => by rw [hgetAll, valuesOf, hspelling, valuesOf]
    get? := fun key => by rw [Metadata.get?, hgetAll]
    keys := keys_ofList_standing changes
    size := hsound.size_eq_ncard
    removed := fun key => by rw [Metadata.remove_eq, hgetAll]
    others := fun key other hother => by rw [Metadata.remove_eq, hsound.getAll_erase_of_ne hother]
    order := fun key => by rw [Metadata.remove_eq, hsound.keys_erase] }

theorem ofList_standing_additions
    (ps : List (String × String)) :
    Metadata.ofList (standing (additions ps)) = Metadata.ofList ps := by
  have hstanding := standing_additions [] ps
  rw [List.nil_append] at hstanding
  rw [hstanding]
  exact Metadata.appendAll_map_folded .empty ps

theorem Tracked.apply
    {maps : Nat → Metadata} {histories : Nat → List MetadataChange}
    (h : Tracked maps histories) (step : MetadataStep) :
    Tracked (step.apply maps) (step.log histories) := by
  -- only the target of the step changes
  have hupdate : ∀ (i : Nat) (m : Metadata) (changes : List MetadataChange),
      m = Metadata.ofList (standing changes) →
      Tracked (Function.update maps i m) (Function.update histories i changes) := by
    intro i m changes hm j
    by_cases hj : j = i
    · subst hj
      rw [Function.update_self, Function.update_self, hm]
    · rw [Function.update_of_ne hj, Function.update_of_ne hj, h j]
  have hpairs : ∀ j, (maps j).pairs = pairsOf (histories j) := fun j => by
    rw [h j, pairs_ofList_standing]
  cases step with
  | append i key value =>
      refine hupdate i _ _ ?_
      rw [h i, standing_concat_added]
      exact (Metadata.ofList_append_map_folded _ [(key, value)]).symm
  | remove i key =>
      refine hupdate i _ _ ?_
      rw [Metadata.remove_eq, h i, standing_concat_removed, Metadata.erase_ofList,
        map_folded_standing]
  | extend i j =>
      refine hupdate i _ _ ?_
      rw [Metadata.extend, hpairs, h i, standing_additions, Metadata.ofList_append_map_folded]
  | join i js =>
      refine hupdate i _ _ ?_
      have hjoined : (js.map maps).flatMap Metadata.pairs =
          js.flatMap fun j => pairsOf (histories j) := by
        rw [List.flatMap_map]
        exact List.flatMap_congr fun j _ => hpairs j
      rw [Metadata.join_eq_ofList, hjoined, ofList_standing_additions]
  | ofList i ps => exact hupdate i _ _ (ofList_standing_additions ps).symm

theorem tracked_run
    (steps : List MetadataStep) :
    Tracked (maps steps) (histories steps) := by
  have hrun : ∀ (maps : Nat → Metadata) (histories : Nat → List MetadataChange),
      Tracked maps histories →
      Tracked (steps.foldl apply maps) (steps.foldl log histories) := by
    induction steps with
    | nil => exact fun _ _ h => h
    | cons step rest ih => exact fun _ _ h => ih _ _ (h.apply step)
  exact hrun _ _ fun _ => rfl

/-- **Maps as ordered multimaps.**  Whatever is done with maps that are empty at first, every one of
them shows what the changes in its history say: under each key, however it is spelled, the values
that were added since its last removal, and the keys in the order of their first addition since. -/
theorem maps_refine_histories
    (steps : List MetadataStep) (i : Nat) :
    (maps steps i).Refines (histories steps i) := by
  rw [tracked_run steps i]
  exact refines_ofList_standing (histories steps i)

/-- A key that comes again after its removal stands behind the others. -/
example :
    (maps [.append 0 "A" "1", .append 0 "b" "2", .remove 0 "a", .append 0 "a" "3"] 0).pairs =
      [("b", "2"), ("a", "3")] := by
  decide

end MetadataStep
end RpcGateway
