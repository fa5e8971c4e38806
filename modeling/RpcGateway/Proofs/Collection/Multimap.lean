import Mathlib.Data.List.Induction
import Mathlib.Data.List.Nodup
import RpcGateway.Collection.Keyed

/-!
# Keyed lists as multimaps

A keyed list of lists is a multimap.  Its views are `keys`, the keys in order, `values`, the values
of a key in order, and `flatten`, all pairs of a key and a value.

**Soundness.**  A multimap is `Sound` if its keys are distinct and none of them is without values;
the empty one is, and `append` keeps it so.

**Results.**  `values_appendAll` and `mem_keys_appendAll` say what is found after any number of
additions, `keys_appendAll_nil` in which order the keys stand then, and `filter_appendAll` what is
left of them without a key; `valuesIn_flatten` reads a sound multimap back from its pairs, and
`appendAll_flatten_appendAll` says that the pairs of a multimap add what it was built from, in the
same order of keys, so a sound multimap is built from its own pairs (`appendAll_flatten_nil`).

**Sifting.**  `sift` changes the values of each key or takes them away, and a key that has none left
goes with them.  Sifting is sifting the pairs (`flatten_sift`).
-/

namespace RpcGateway
namespace Keyed

variable {α : Type}

/-- The keys, in order. -/
def keys (es : Keyed α) : List String :=
  es.map Prod.fst

/-- The values of a key, in order. -/
def values (key : String) (es : Keyed (List α)) : List α :=
  (es.lookup key).getD []

/-- All pairs of a key and a value, key by key. -/
def flatten (es : Keyed (List α)) : List (String × α) :=
  es.flatMap fun e => e.2.map fun v => (e.1, v)

/-- Adds pairs one after another. -/
def appendAll (ps : List (String × α)) (es : Keyed (List α)) : Keyed (List α) :=
  ps.foldl (fun es p => append p.1 p.2 es) es

/-- The values that pairs hold for a key, in order. -/
def valuesIn (key : String) (ps : List (String × α)) : List α :=
  (ps.filter fun p => p.1 = key).map Prod.snd

/-- Distinct keys, each with a value. -/
structure Sound (es : Keyed (List α)) : Prop where
  nodup : (keys es).Nodup
  filled : ∀ e ∈ es, e.2 ≠ []

/-!
## Keys
-/

theorem mem_keys_alter
    (key : String) (f : Option α → α) (es : Keyed α) (k : String) :
    k ∈ keys (alter key f es) ↔ k = key ∨ k ∈ keys es := by
  induction es with
  | nil => simp [alter, keys]
  | cons e rest ih =>
      obtain ⟨k', x⟩ := e
      by_cases h : k' = key
      · subst h
        simp [alter, keys]
      · simp only [keys] at ih
        simp only [alter, h, if_false, keys, List.map_cons, List.mem_cons, ih]
        tauto

theorem nodup_keys_alter
    {key : String} {f : Option α → α} {es : Keyed α}
    (h : (keys es).Nodup) :
    (keys (alter key f es)).Nodup := by
  induction es with
  | nil => simp [alter, keys]
  | cons e rest ih =>
      obtain ⟨k', x⟩ := e
      simp only [keys, List.map_cons, List.nodup_cons] at h
      by_cases hk : k' = key
      · simpa [alter, hk, keys] using h
      · have hrest := ih h.2
        have hnot : k' ∉ keys (alter key f rest) := by
          rw [mem_keys_alter]
          rintro (rfl | hmem)
          · exact hk rfl
          · exact h.1 hmem
        simp only [alter, hk, if_false, keys, List.map_cons, List.nodup_cons]
        exact ⟨hnot, hrest⟩

/-- A changed key keeps its place, and a new one goes behind the others. -/
theorem keys_alter
    (key : String) (f : Option α → α) (es : Keyed α) :
    keys (alter key f es) = if key ∈ keys es then keys es else keys es ++ [key] := by
  induction es with
  | nil => rfl
  | cons e rest ih =>
      obtain ⟨k, x⟩ := e
      by_cases hk : k = key
      · subst hk
        simp [alter, keys]
      · have hcons : keys (alter key f ((k, x) :: rest)) = k :: keys (alter key f rest) := by
          rw [alter, if_neg hk]
          rfl
        have hmem : key ∈ keys ((k, x) :: rest) ↔ key ∈ keys rest := by
          simp [keys, Ne.symm hk]
        rw [hcons, ih]
        by_cases hrest : key ∈ keys rest
        · rw [if_pos hrest, if_pos (hmem.mpr hrest)]
          rfl
        · rw [if_neg hrest, if_neg (mt hmem.mp hrest)]
          rfl

theorem mem_keys_append
    (key : String) (x : α) (es : Keyed (List α)) (k : String) :
    k ∈ keys (append key x es) ↔ k = key ∨ k ∈ keys es :=
  mem_keys_alter key _ es k

theorem mem_keys_appendAll
    (ps : List (String × α)) (es : Keyed (List α)) (k : String) :
    k ∈ keys (appendAll ps es) ↔ k ∈ keys es ∨ ∃ p ∈ ps, p.1 = k := by
  induction ps generalizing es with
  | nil => simp [appendAll]
  | cons p ps ih =>
      have hstep := ih (append p.1 p.2 es)
      rw [mem_keys_append] at hstep
      simp only [appendAll, List.foldl_cons] at hstep ⊢
      rw [hstep]
      simp only [List.mem_cons, exists_eq_or_imp]
      tauto

/-- The keys stand in the order of the first pair of each. -/
theorem keys_appendAll_nil
    (ps : List (String × α)) :
    keys (appendAll ps []) = (ps.map Prod.fst).eraseDups := by
  induction ps using List.reverseRecOn with
  | nil => rfl
  | append_singleton ps p ih =>
      have hmem : p.1 ∈ keys (appendAll ps []) ↔ p.1 ∈ ps.map Prod.fst := by
        rw [ih, List.mem_eraseDups]
      have hlast : appendAll (ps ++ [p]) [] = append p.1 p.2 (appendAll ps []) :=
        List.foldl_append
      rw [hlast, append, keys_alter, List.map_append, List.eraseDups_append]
      by_cases h : p.1 ∈ ps.map Prod.fst
      · rw [if_pos (hmem.mpr h), ih]
        simp [List.removeAll, h]
      · rw [if_neg (mt hmem.mp h), ih]
        simp [List.removeAll, h, List.eraseDups_cons]

/-!
## Values
-/

theorem values_cons
    (k : String) (e : String × List α) (es : Keyed (List α)) :
    values k (e :: es) = if k = e.1 then e.2 else values k es := by
  obtain ⟨k', xs⟩ := e
  by_cases h : k = k'
  · simp [values, h]
  · simp [values, List.lookup_cons, beq_eq_false_iff_ne.mpr h, h]

theorem values_append
    (key other : String) (x : α) (es : Keyed (List α)) :
    values other (append key x es) =
      if other = key then values key es ++ [x] else values other es := by
  unfold values
  rw [lookup_append]
  split <;> simp

theorem values_filter
    (p : String → Bool) (k : String) (es : Keyed (List α)) :
    values k (es.filter fun e => p e.1) = if p k then values k es else [] := by
  induction es with
  | nil => simp [values]
  | cons e es ih =>
      rw [List.filter_cons, values_cons]
      by_cases hk : k = e.1
      · subst hk
        cases hp : p e.1 with
        | true => simp [values_cons]
        | false => simpa [hp] using ih
      · cases hp : p e.1 with
        | true => simpa [values_cons, hk] using ih
        | false => simpa [hk] using ih

theorem values_appendAll
    (ps : List (String × α)) (es : Keyed (List α)) (k : String) :
    values k (appendAll ps es) = values k es ++ valuesIn k ps := by
  induction ps generalizing es with
  | nil => simp [appendAll, valuesIn]
  | cons p ps ih =>
      have hstep := ih (append p.1 p.2 es)
      rw [values_append] at hstep
      simp only [appendAll, List.foldl_cons] at hstep ⊢
      rw [hstep]
      by_cases h : p.1 = k
      · subst h
        simp [valuesIn]
      · simp [valuesIn, h, Ne.symm h]

theorem values_eq_nil_of_not_mem
    {k : String} {es : Keyed (List α)}
    (h : k ∉ keys es) :
    values k es = [] := by
  induction es with
  | nil => rfl
  | cons e rest ih =>
      simp only [keys, List.map_cons, List.mem_cons, not_or] at h
      have hrest := ih h.2
      rw [values_cons, if_neg h.1, hrest]

theorem values_of_mem
    {es : Keyed (List α)} {e : String × List α}
    (h : (keys es).Nodup) (he : e ∈ es) :
    values e.1 es = e.2 := by
  induction es with
  | nil => cases he
  | cons e' rest ih =>
      simp only [keys, List.map_cons, List.nodup_cons] at h
      rw [values_cons]
      rcases List.mem_cons.mp he with rfl | he
      · exact if_pos rfl
      · have hne : e.1 ≠ e'.1 := fun heq => h.1 (heq ▸ List.mem_map_of_mem he)
        rw [if_neg hne, ih h.2 he]

/-- An entry behind the others, under a key that they do not have. -/
theorem values_concat
    {key : String} {es : Keyed (List α)}
    (h : key ∉ keys es) (xs : List α) (k : String) :
    values k (es ++ [(key, xs)]) = if k = key then xs else values k es := by
  induction es with
  | nil => rw [List.nil_append, values_cons]
  | cons e rest ih =>
      simp only [keys, List.map_cons, List.mem_cons, not_or] at h
      have hrest := ih h.2
      rw [List.cons_append, values_cons, values_cons, hrest]
      by_cases hk : k = e.1
      · subst hk
        simp [Ne.symm h.1]
      · simp [hk]

/-- Looking at every entry for one key finds the values of that key. -/
theorem flatMap_eq_values
    {β : Type} {es : Keyed (List α)} {f : List α → List β} {k : String}
    (hnodup : (keys es).Nodup) (hnil : f [] = []) :
    (es.flatMap fun e => if e.1 = k then f e.2 else []) = f (values k es) := by
  induction es with
  | nil => exact hnil.symm
  | cons e rest ih =>
      simp only [keys, List.map_cons, List.nodup_cons] at hnodup
      have hrest := ih hnodup.2
      rw [List.flatMap_cons, hrest, values_cons]
      by_cases hk : e.1 = k
      · subst hk
        rw [values_eq_nil_of_not_mem hnodup.1, hnil]
        simp
      · simp [hk, Ne.symm hk]

/-- With distinct keys, the first entry of a key is the only one. -/
theorem eraseP_eq_filter
    {es : Keyed α}
    (h : (keys es).Nodup) (key : String) :
    es.eraseP (fun e => e.1 == key) = es.filter fun e => e.1 ≠ key := by
  induction es with
  | nil => rfl
  | cons e rest ih =>
      simp only [keys, List.map_cons, List.nodup_cons] at h
      have hrest := ih h.2
      by_cases hk : e.1 = key
      · subst hk
        have hothers : ∀ e' ∈ rest, e'.1 ≠ e.1 := fun e' he' heq =>
          h.1 (heq ▸ List.mem_map_of_mem he')
        rw [List.eraseP_cons_of_pos (by simp), List.filter_cons_of_neg (by simp)]
        exact (List.filter_eq_self.mpr (by simpa using hothers)).symm
      · simp [hk, hrest]

/-!
## Soundness
-/

theorem sound_nil : Sound ([] : Keyed (List α)) :=
  ⟨by simp [keys], by simp⟩

/-- An entry after a change was there, or it is the one that was changed. -/
theorem mem_alter
    {key : String} {f : Option α → α} {es : Keyed α} {e : String × α}
    (h : e ∈ alter key f es) :
    e ∈ es ∨ e.1 = key ∧ (e.2 = f none ∨ ∃ x, (key, x) ∈ es ∧ e.2 = f (some x)) := by
  induction es with
  | nil =>
      simp only [alter, List.mem_singleton] at h
      subst h
      exact Or.inr ⟨rfl, Or.inl rfl⟩
  | cons e' rest ih =>
      obtain ⟨k', x⟩ := e'
      by_cases hk : k' = key
      · subst hk
        simp only [alter, if_true, List.mem_cons] at h
        rcases h with rfl | h
        · exact Or.inr ⟨rfl, Or.inr ⟨x, List.mem_cons_self .., rfl⟩⟩
        · exact Or.inl (List.mem_cons_of_mem _ h)
      · simp only [alter, hk, if_false, List.mem_cons] at h
        rcases h with rfl | h
        · exact Or.inl (List.mem_cons_self ..)
        · rcases ih h with h | ⟨hkey, h | ⟨y, hy, h⟩⟩
          · exact Or.inl (List.mem_cons_of_mem _ h)
          · exact Or.inr ⟨hkey, Or.inl h⟩
          · exact Or.inr ⟨hkey, Or.inr ⟨y, List.mem_cons_of_mem _ hy, h⟩⟩

/-- A change that leaves values under its key keeps a multimap sound. -/
theorem Sound.alter
    {es : Keyed (List α)} {f : Option (List α) → List α}
    (h : Sound es) (key : String) (hf : ∀ x, f x ≠ []) :
    Sound (alter key f es) := by
  refine ⟨nodup_keys_alter h.nodup, ?_⟩
  intro e he
  rcases mem_alter he with he | ⟨-, hnew | ⟨x, -, hnew⟩⟩
  · exact h.filled e he
  · rw [hnew]
    exact hf none
  · rw [hnew]
    exact hf (some x)

theorem Sound.tail
    {e : String × List α} {es : Keyed (List α)}
    (h : Sound (e :: es)) :
    Sound es :=
  ⟨(List.nodup_cons.mp h.nodup).2, fun e' he' => h.filled e' (List.mem_cons_of_mem _ he')⟩

theorem Sound.append
    {es : Keyed (List α)}
    (h : Sound es) (key : String) (x : α) :
    Sound (append key x es) :=
  h.alter key fun xs => by simp

theorem Sound.appendAll
    {es : Keyed (List α)}
    (h : Sound es) (ps : List (String × α)) :
    Sound (appendAll ps es) := by
  induction ps generalizing es with
  | nil => exact h
  | cons p ps ih => exact ih (h.append p.1 p.2)

/-!
## Pairs
-/

theorem mem_valuesIn_iff
    {k : String} {x : α} {ps : List (String × α)} :
    x ∈ valuesIn k ps ↔ (k, x) ∈ ps := by
  simp [valuesIn]

theorem valuesIn_eq_nil
    {k : String} {ps : List (String × α)}
    (h : ∀ p ∈ ps, p.1 ≠ k) :
    valuesIn k ps = [] := by
  simpa [valuesIn] using h

theorem valuesIn_cons
    (k : String) (p : String × α) (ps : List (String × α)) :
    valuesIn k (p :: ps) = (if p.1 = k then [p.2] else []) ++ valuesIn k ps := by
  by_cases h : p.1 = k <;> simp [valuesIn, h]

theorem valuesIn_append
    (k : String) (ps qs : List (String × α)) :
    valuesIn k (ps ++ qs) = valuesIn k ps ++ valuesIn k qs := by
  simp [valuesIn]

theorem valuesIn_map_mk
    (k key : String) (xs : List α) :
    valuesIn k (xs.map fun x => (key, x)) = if key = k then xs else [] := by
  induction xs with
  | nil => simp [valuesIn]
  | cons x xs ih =>
      rw [List.map_cons, valuesIn_cons, ih]
      by_cases h : key = k <;> simp [h]

theorem valuesIn_flatten
    {es : Keyed (List α)}
    (h : (keys es).Nodup) (k : String) :
    valuesIn k (flatten es) = values k es := by
  have hsplit : valuesIn k (flatten es) = es.flatMap fun e => if e.1 = k then e.2 else [] := by
    clear h
    induction es with
    | nil => rfl
    | cons e rest ih =>
        rw [List.flatMap_cons, ← ih, ← valuesIn_map_mk, ← valuesIn_append]
        rfl
  rw [hsplit]
  exact flatMap_eq_values (f := id) h rfl

theorem flatten_eq_flatMap_keys
    {es : Keyed (List α)}
    (h : (keys es).Nodup) :
    flatten es = (keys es).flatMap fun k => (values k es).map fun v => (k, v) := by
  rw [keys, List.flatMap_map]
  refine List.flatMap_congr fun e he => ?_
  rw [values_of_mem h he]

/-!
## Without a key
-/

/-- Without a key, it does not matter what was changed under it. -/
theorem filter_alter
    (key other : String) (f : Option α → α) (es : Keyed α) :
    (alter key f es).filter (fun e => e.1 ≠ other) =
      if key = other then es.filter (fun e => e.1 ≠ other)
      else alter key f (es.filter fun e => e.1 ≠ other) := by
  induction es with
  | nil => by_cases h : key = other <;> simp [alter, h]
  | cons e rest ih =>
      obtain ⟨k, x⟩ := e
      by_cases hk : k = key
      · subst hk
        by_cases h : k = other <;> simp [alter, h]
      · rw [alter, if_neg hk, List.filter_cons, ih, List.filter_cons]
        by_cases h : key = other
        · simp [h]
        · by_cases ho : k = other <;> simp [h, ho, hk, alter]

theorem filter_appendAll
    (other : String) (ps : List (String × α)) (es : Keyed (List α)) :
    (appendAll ps es).filter (fun e => e.1 ≠ other) =
      appendAll (ps.filter fun p => p.1 ≠ other) (es.filter fun e => e.1 ≠ other) := by
  induction ps generalizing es with
  | nil => rfl
  | cons p ps ih =>
      have hfirst := filter_alter p.1 other (fun xs => xs.getD [] ++ [p.2]) es
      have hrest := ih (append p.1 p.2 es)
      simp only [appendAll, List.foldl_cons] at hrest ⊢
      rw [hrest, append, hfirst, List.filter_cons]
      by_cases h : p.1 = other
      · simp [h]
      · simp [h, append]

/-!
## Additions in another order
-/

/-- A change under a key that is there and one under another key can be made in either order. -/
theorem alter_comm
    {key other : String} {f g : Option α → α} {es : Keyed α}
    (h : key ∈ keys es) (hne : key ≠ other) :
    alter other g (alter key f es) = alter key f (alter other g es) := by
  induction es with
  | nil => cases h
  | cons e rest ih =>
      obtain ⟨k, x⟩ := e
      by_cases hk : k = key
      · subst hk
        simp [alter, hne]
      · have hrest : key ∈ keys rest := by
          simp only [keys, List.map_cons, List.mem_cons] at h
          rcases h with h | h
          · exact absurd h.symm hk
          · exact h
        by_cases ho : k = other
        · subst ho
          simp [alter, hk]
        · simp [alter, hk, ho, ih hrest]

/-- Pairs of other keys can be added before or after. -/
theorem appendAll_append_comm
    {key : String} {x : α} {ps : List (String × α)} {es : Keyed (List α)}
    (h : key ∈ keys es) (hne : ∀ p ∈ ps, p.1 ≠ key) :
    appendAll ps (append key x es) = append key x (appendAll ps es) := by
  induction ps generalizing es with
  | nil => rfl
  | cons p ps ih =>
      have hfirst := hne p (List.mem_cons_self ..)
      have hstill : key ∈ keys (append p.1 p.2 es) := (mem_keys_append ..).mpr (Or.inr h)
      have hrest := ih hstill fun q hq => hne q (List.mem_cons_of_mem _ hq)
      simp only [appendAll, List.foldl_cons] at hrest ⊢
      rw [← hrest]
      unfold append
      rw [alter_comm h (Ne.symm hfirst)]

theorem appendAll_concat
    (ps qs : List (String × α)) (es : Keyed (List α)) :
    appendAll (ps ++ qs) es = appendAll qs (appendAll ps es) :=
  List.foldl_append

/-- The pairs of a multimap with one more value add what its pairs add, and then the value. -/
theorem appendAll_flatten_append
    {key : String} {x : α} {added : Keyed (List α)}
    (h : Sound added) (es : Keyed (List α)) :
    appendAll (flatten (append key x added)) es =
      append key x (appendAll (flatten added) es) := by
  induction added generalizing es with
  | nil => rfl
  | cons e rest ih =>
      obtain ⟨k, xs⟩ := e
      by_cases hk : k = key
      · subst hk
        have hflat : flatten (append k x ((k, xs) :: rest)) =
            (xs.map fun v => (k, v)) ++ (k, x) :: flatten rest := by
          simp [append, alter, flatten]
        have hsplit : flatten ((k, xs) :: rest) = (xs.map fun v => (k, v)) ++ flatten rest := rfl
        have hthere : k ∈ keys (appendAll (xs.map fun v => (k, v)) es) := by
          rw [mem_keys_appendAll]
          obtain ⟨v, hv⟩ := List.exists_mem_of_ne_nil xs (h.filled _ (List.mem_cons_self ..))
          exact Or.inr ⟨(k, v), List.mem_map_of_mem hv, rfl⟩
        have hothers : ∀ p ∈ flatten rest, p.1 ≠ k := by
          intro p hp heq
          simp only [flatten, List.mem_flatMap, List.mem_map] at hp
          obtain ⟨e, he, v, -, rfl⟩ := hp
          have hmem : e.1 ∈ keys rest := List.mem_map_of_mem he
          exact (List.nodup_cons.mp h.nodup).1 (heq ▸ hmem)
        rw [hflat, hsplit, appendAll_concat, appendAll_concat,
          ← appendAll_append_comm hthere hothers]
        rfl
      · have hflat : flatten (append key x ((k, xs) :: rest)) =
            (xs.map fun v => (k, v)) ++ flatten (append key x rest) := by
          simp [append, alter, hk, flatten]
        have hsplit : flatten ((k, xs) :: rest) = (xs.map fun v => (k, v)) ++ flatten rest := rfl
        rw [hflat, hsplit, appendAll_concat, appendAll_concat, ih h.tail]

/-- The pairs of a multimap that was built from pairs add the same as those pairs. -/
theorem appendAll_flatten_appendAll
    {added : Keyed (List α)}
    (h : Sound added) (ps : List (String × α)) (es : Keyed (List α)) :
    appendAll (flatten (appendAll ps added)) es = appendAll ps (appendAll (flatten added) es) := by
  induction ps generalizing added with
  | nil => rfl
  | cons p ps ih =>
      have hrest := ih (h.append p.1 p.2)
      rw [appendAll_flatten_append h] at hrest
      exact hrest

/-!
## Multimaps from their pairs
-/

/-- A change under a key that is not there makes an entry behind the others. -/
theorem alter_append_of_not_mem
    {key : String} {f : Option α → α} {es : Keyed α}
    (h : key ∉ keys es) (rest : Keyed α) :
    alter key f (es ++ rest) = es ++ alter key f rest := by
  induction es with
  | nil => rfl
  | cons e es ih =>
      obtain ⟨k, x⟩ := e
      simp only [keys, List.map_cons, List.mem_cons, not_or] at h
      have hrest := ih h.2
      rw [List.cons_append, alter, if_neg (Ne.symm h.1), hrest]
      rfl

/-- Values of the last key go behind those that it has. -/
theorem appendAll_map_mk_concat
    {key : String} {es : Keyed (List α)}
    (h : key ∉ keys es) (xs ys : List α) :
    appendAll (ys.map fun y => (key, y)) (es ++ [(key, xs)]) = es ++ [(key, xs ++ ys)] := by
  induction ys generalizing xs with
  | nil => simp [appendAll]
  | cons y ys ih =>
      have hfirst : append key y (es ++ [(key, xs)]) = es ++ [(key, xs ++ [y])] := by
        rw [append, alter_append_of_not_mem h]
        simp [alter]
      have hrest := ih (xs ++ [y])
      simp only [appendAll, List.map_cons, List.foldl_cons] at hrest ⊢
      rw [hfirst, hrest, List.append_assoc, List.singleton_append]

/-- The pairs of a sound multimap add its entries behind those of other keys. -/
theorem appendAll_flatten_of_sound
    {es acc : Keyed (List α)}
    (hes : Sound es) (hdisjoint : ∀ k ∈ keys es, k ∉ keys acc) :
    appendAll (flatten es) acc = acc ++ es := by
  induction es generalizing acc with
  | nil => simp [flatten, appendAll]
  | cons e rest ih =>
      obtain ⟨k, xs⟩ := e
      have hnot : k ∉ keys acc := hdisjoint k (by simp [keys])
      obtain ⟨x, xs, rfl⟩ := List.exists_cons_of_ne_nil (hes.filled _ (List.mem_cons_self ..))
      have hnew : append k x acc = acc ++ [(k, [x])] := by
        have halter := alter_append_of_not_mem (f := fun xs => xs.getD [] ++ [x]) hnot []
        rw [List.append_nil] at halter
        rw [append, halter]
        rfl
      have hentry : appendAll ((x :: xs).map fun v => (k, v)) acc = acc ++ [(k, x :: xs)] := by
        have hmore := appendAll_map_mk_concat hnot [x] xs
        rw [← hnew] at hmore
        exact hmore
      have hlater : ∀ k' ∈ keys rest, k' ∉ keys (acc ++ [(k, x :: xs)]) := by
        intro k' hk' hmem
        simp only [keys, List.map_append, List.map_cons, List.map_nil, List.mem_append,
          List.mem_singleton] at hmem
        rcases hmem with hmem | rfl
        · exact hdisjoint k' (List.mem_cons_of_mem _ hk') hmem
        · exact (List.nodup_cons.mp hes.nodup).1 hk'
      have hflat : flatten ((k, x :: xs) :: rest) =
          ((x :: xs).map fun v => (k, v)) ++ flatten rest := rfl
      rw [hflat, appendAll_concat, hentry, ih hes.tail hlater, List.append_assoc,
        List.singleton_append]

/-- A sound multimap is built from its pairs. -/
theorem appendAll_flatten_nil
    {es : Keyed (List α)}
    (h : Sound es) :
    appendAll (flatten es) [] = es :=
  appendAll_flatten_of_sound h fun k _ => by simp [keys]

/-!
## Sifting
-/

variable {β γ : Type}

/-- What becomes of the values of each key; a key without values goes. -/
def sift (f : String → α → Option β) (es : Keyed (List α)) : Keyed (List β) :=
  es.filterMap fun e =>
    if e.2.filterMap (f e.1) = [] then none else some (e.1, e.2.filterMap (f e.1))

theorem sift_cons
    (f : String → α → Option β) (e : String × List α) (es : Keyed (List α)) :
    sift f (e :: es) =
      if e.2.filterMap (f e.1) = [] then sift f es
      else (e.1, e.2.filterMap (f e.1)) :: sift f es := by
  unfold sift
  rw [List.filterMap_cons]
  by_cases h : e.2.filterMap (f e.1) = []
  · rw [if_pos h, if_pos h]
  · rw [if_neg h, if_neg h]

theorem sift_congr
    {f g : String → α → Option β} {es : Keyed (List α)}
    (h : ∀ k ∈ keys es, f k = g k) :
    sift f es = sift g es := by
  refine List.filterMap_congr fun e he => ?_
  rw [h e.1 (List.mem_map_of_mem he)]

/-- Sifting takes the pairs one by one. -/
theorem flatten_sift
    (f : String → α → Option β) (es : Keyed (List α)) :
    flatten (sift f es) =
      (flatten es).filterMap fun p => (f p.1 p.2).map fun y => (p.1, y) := by
  induction es with
  | nil => rfl
  | cons e es ih =>
      have hfirst : (e.2.map fun x => (e.1, x)).filterMap
          (fun p => (f p.1 p.2).map fun y => (p.1, y)) =
            (e.2.filterMap (f e.1)).map fun y => (e.1, y) := by
        rw [List.filterMap_map, List.map_filterMap]
        rfl
      have hsplit : ∀ (e : String × List β) (es : Keyed (List β)),
          flatten (e :: es) = (e.2.map fun y => (e.1, y)) ++ flatten es := fun _ _ => rfl
      have hpairs : flatten (e :: es) = (e.2.map fun x => (e.1, x)) ++ flatten es := rfl
      rw [sift_cons, hpairs, List.filterMap_append, hfirst, ← ih]
      by_cases hnone : e.2.filterMap (f e.1) = []
      · rw [if_pos hnone, hnone, List.map_nil, List.nil_append]
      · rw [if_neg hnone, hsplit]

theorem keys_sift_sublist
    (f : String → α → Option β) (es : Keyed (List α)) :
    List.Sublist (keys (sift f es)) (keys es) := by
  induction es with
  | nil => exact List.Sublist.refl _
  | cons e es ih =>
      rw [sift_cons]
      split
      case isTrue => exact ih.cons e.1
      case isFalse => exact ih.cons_cons e.1

theorem Sound.sift
    {es : Keyed (List α)}
    (h : Sound es) (f : String → α → Option β) :
    Sound (sift f es) := by
  refine ⟨h.nodup.sublist (keys_sift_sublist f es), fun e he => ?_⟩
  obtain ⟨e', -, hsift⟩ := List.mem_filterMap.mp he
  rw [Option.ite_none_left_eq_some, Option.some.injEq] at hsift
  obtain ⟨hsome, rfl⟩ := hsift
  exact hsome

/-- The values of a key, sifted. -/
theorem values_sift
    {es : Keyed (List α)}
    (h : Sound es) (f : String → α → Option β) (k : String) :
    values k (sift f es) = (values k es).filterMap (f k) := by
  rw [← valuesIn_flatten (h.sift f).nodup, ← valuesIn_flatten h.nodup, flatten_sift]
  induction flatten es with
  | nil => rfl
  | cons p ps ih =>
      rw [List.filterMap_cons, valuesIn_cons, List.filterMap_append, ← ih]
      by_cases hk : p.1 = k
      · subst hk
        cases hf : f p.1 p.2 <;> simp [hf, valuesIn_cons]
      · cases f p.1 p.2 <;> simp [hk, valuesIn_cons]

/-- Sifting twice is sifting once by both. -/
theorem sift_sift
    {es : Keyed (List α)}
    (h : Sound es) (f : String → α → Option β) (g : String → β → Option γ) :
    sift g (sift f es) = sift (fun k x => (f k x).bind (g k)) es := by
  have hboth : flatten (sift g (sift f es)) =
      flatten (sift (fun k x => (f k x).bind (g k)) es) := by
    rw [flatten_sift, flatten_sift, flatten_sift, List.filterMap_filterMap]
    refine List.filterMap_congr fun p _ => ?_
    cases f p.1 p.2 <;> rfl
  rw [← appendAll_flatten_nil ((h.sift f).sift g), hboth, appendAll_flatten_nil (h.sift _)]

end Keyed
end RpcGateway
