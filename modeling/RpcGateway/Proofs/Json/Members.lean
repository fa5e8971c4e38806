import RpcGateway.Json.Basic

/-!
# The order of the members of an object

Setting keys one after another leaves the members in strictly increasing order of their keys.

**Results.**
* `sorted_ofList`: the order, whatever the keys are set to;
* `ofList_perm`: if no key is set twice, nothing is lost and nothing is added;
* `ofList_of_sorted`: members that are in order already stay as they are.
-/

namespace RpcGateway
namespace Json
namespace Members

variable {key : String} {value : Value} {m : String × Value} {ms : Members}

/-- The members stand in strictly increasing order of their keys. -/
def Sorted (ms : Members) : Prop :=
  ms.Pairwise fun m n => m.1 < n.1

theorem lt_of_not_lt_of_ne
    {a b : String}
    (hlt : ¬ a < b) (hne : a ≠ b) :
    b < a := by
  refine Decidable.byContradiction fun hge => ?_
  exact hne (String.le_antisymm (String.not_lt.mp hge) (String.not_lt.mp hlt))

theorem Sorted.nodup
    (h : Sorted ms) :
    (ms.map Prod.fst).Nodup := by
  refine List.pairwise_map.mpr (h.imp fun hlt heq => ?_)
  rw [heq] at hlt
  exact String.lt_irrefl _ hlt

/-- With distinct keys every member is found under its own. -/
theorem get?_of_mem
    (hnodup : (ms.map Prod.fst).Nodup) (hm : m ∈ ms) :
    get? m.1 ms = some m.2 := by
  induction ms with
  | nil => cases hm
  | cons n rest ih =>
      obtain ⟨hnew, hrest⟩ := List.nodup_cons.mp hnodup
      rcases List.mem_cons.mp hm with rfl | hm
      · simp [get?]
      · have hne : m.1 ≠ n.1 := by
          intro heq
          exact hnew (heq ▸ List.mem_map_of_mem hm)
        simpa [get?, hne] using ih hrest hm

/-!
## Setting one key
-/

theorem mem_put
    (h : m ∈ put key value ms) :
    m = (key, value) ∨ m ∈ ms := by
  induction ms with
  | nil => exact Or.inl (List.mem_singleton.mp h)
  | cons n rest ih =>
      obtain ⟨k, v⟩ := n
      unfold put at h
      split at h
      · exact List.mem_cons.mp h
      · split at h
        · rcases List.mem_cons.mp h with rfl | h
          · exact Or.inl rfl
          · exact Or.inr (List.mem_cons_of_mem _ h)
        · rcases List.mem_cons.mp h with rfl | h
          · exact Or.inr (List.mem_cons_self ..)
          · exact (ih h).imp_right (List.mem_cons_of_mem _)

theorem Sorted.put
    (h : Sorted ms) (key : String) (value : Value) :
    Sorted (put key value ms) := by
  induction ms with
  | nil => exact List.pairwise_singleton ..
  | cons n rest ih =>
      obtain ⟨k, v⟩ := n
      obtain ⟨hfirst, hrest⟩ := List.pairwise_cons.mp h
      unfold Members.put
      split
      next hlt =>
        refine List.pairwise_cons.mpr ⟨fun m hm => ?_, h⟩
        rcases List.mem_cons.mp hm with rfl | hm
        · exact hlt
        · exact String.lt_trans hlt (hfirst m hm)
      next hlt =>
        split
        next heq =>
          subst heq
          exact List.pairwise_cons.mpr ⟨hfirst, hrest⟩
        next hne =>
          refine List.pairwise_cons.mpr ⟨fun m hm => ?_, ih hrest⟩
          rcases mem_put hm with rfl | hm
          · exact lt_of_not_lt_of_ne hlt hne
          · exact hfirst m hm

/-- A new key is added to the members. -/
theorem put_perm
    (h : key ∉ ms.map Prod.fst) (value : Value) :
    (put key value ms).Perm ((key, value) :: ms) := by
  induction ms with
  | nil => exact .refl _
  | cons n rest ih =>
      obtain ⟨k, v⟩ := n
      obtain ⟨hne, hrest⟩ : key ≠ k ∧ key ∉ rest.map Prod.fst :=
        not_or.mp (mt List.mem_cons.mpr h)
      rw [put, if_neg hne]
      split
      · exact .refl _
      · exact ((ih hrest).cons _).trans (.swap ..)

/-- A key behind all others is added at the end. -/
theorem put_of_lt
    (h : ∀ m ∈ ms, m.1 < key) (value : Value) :
    put key value ms = ms ++ [(key, value)] := by
  induction ms with
  | nil => rfl
  | cons n rest ih =>
      obtain ⟨k, v⟩ := n
      obtain ⟨hfirst, hrest⟩ := List.forall_mem_cons.mp h
      have hne : key ≠ k := by
        rintro rfl
        exact String.lt_irrefl _ hfirst
      rw [put, if_neg (String.lt_asymm hfirst), if_neg hne, ih hrest, List.cons_append]

/-!
## Setting keys one after another
-/

theorem sorted_ofList
    (pairs : List (String × Value)) :
    Sorted (ofList pairs) := by
  suffices hfold : ∀ ms : Members, Sorted ms →
      Sorted (pairs.foldl (fun ms p => put p.1 p.2 ms) ms) from hfold [] List.Pairwise.nil
  induction pairs with
  | nil => exact fun _ h => h
  | cons p pairs ih => exact fun ms h => ih _ (h.put p.1 p.2)

/-- Keys that are set once each hold what they are set to, and there are no others. -/
theorem ofList_perm
    {pairs : List (String × Value)}
    (h : (pairs.map Prod.fst).Nodup) :
    (ofList pairs).Perm pairs := by
  suffices hfold : ∀ ms : Members, ((ms ++ pairs).map Prod.fst).Nodup →
      (pairs.foldl (fun ms p => put p.1 p.2 ms) ms).Perm (ms ++ pairs) from hfold [] h
  clear h
  induction pairs with
  | nil =>
      intro ms _
      rw [List.append_nil]
      exact .refl _
  | cons p pairs ih =>
      intro ms hnodup
      have hmiddle : (ms ++ p :: pairs).Perm (p :: (ms ++ pairs)) := List.perm_middle
      have hmoved := (hmiddle.map Prod.fst).nodup hnodup
      have hnew : p.1 ∉ ms.map Prod.fst := by
        intro hmem
        refine (List.nodup_cons.mp hmoved).1 ?_
        rw [List.map_append]
        exact List.mem_append_left _ hmem
      have hput := (put_perm hnew p.2).append_right pairs
      exact (ih _ ((hput.map Prod.fst).symm.nodup hmoved)).trans (hput.trans hmiddle.symm)

/-- Members that are in order stay as they are. -/
theorem ofList_of_sorted
    (h : Sorted ms) :
    ofList ms = ms := by
  suffices hfold : ∀ front : Members, Sorted (front ++ ms) →
      ms.foldl (fun ms p => put p.1 p.2 ms) front = front ++ ms from hfold [] h
  clear h
  induction ms with
  | nil =>
      intro front _
      exact (List.append_nil front).symm
  | cons p rest ih =>
      intro front hsorted
      have hlast : ∀ m ∈ front, m.1 < p.1 := fun m hm =>
        (List.pairwise_append.mp hsorted).2.2 m hm p (List.mem_cons_self ..)
      rw [List.append_cons] at hsorted
      rw [List.foldl_cons, put_of_lt hlast, ih _ hsorted, List.append_assoc, List.singleton_append]

end Members
end Json
end RpcGateway
