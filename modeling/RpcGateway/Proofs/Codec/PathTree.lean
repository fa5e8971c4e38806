import RpcGateway.Proofs.Codec.Frame

/-!
# The tree of the parameters

What is bound into an empty object is a tree of objects with strings at its ends.

**Keys.**  A parameter goes where its first key leads, and what is left of its path goes on from
there.  So under every key of the tree stands the tree of what is `behind` that key
(`exists_grow_object`), and a statement on all parameters can be proved from the statements on what
is behind each key (`Writes.induction`).
-/

namespace RpcGateway
namespace PathBinding

open Json

/-- Strings, each with the path to its place. -/
abbrev Writes := List (List String × String)

variable {key : String} {path : List String} {s : String} {ws : Writes}
  {v w : Value} {params : PathParams}

/-- The strings of parameters with the paths to their places, in the order of their names. -/
def writes (params : PathParams) : Writes :=
  (sorted params).map fun p => (keys p.1, p.2)

/-- Writes strings one after another. -/
def grow (ws : Writes) (v : Value) : Option Value :=
  ws.foldlM (fun v w => bindAt w.2 w.1 v) v

theorem grow_cons_eq_some_iff :
    grow ((path, s) :: ws) v = some w ↔ ∃ u, bindAt s path v = some u ∧ grow ws u = some w := by
  rw [grow, List.foldlM_cons]
  exact Option.bind_eq_some_iff

theorem foldlM_bind_eq_ok_iff
    {ps : PathParams} :
    ps.foldlM bind v = .ok w ↔ grow (ps.map fun p => (keys p.1, p.2)) v = some w := by
  induction ps generalizing v with
  | nil => exact ⟨fun h => congrArg some (Except.ok.inj h), fun h => congrArg _ (Option.some.inj h)⟩
  | cons p ps ih =>
      rw [List.map_cons, grow_cons_eq_some_iff, List.foldlM_cons]
      constructor
      · intro h
        obtain ⟨u, hu, hrun⟩ := exists_of_bind_eq_ok h
        exact ⟨u, bind_eq_ok_iff.mp hu, ih.mp hrun⟩
      · rintro ⟨u, hu, hrun⟩
        rw [bind_eq_ok_iff.mpr hu]
        exact ih.mpr hrun

theorem bindAll_eq_ok_iff :
    bindAll v params = .ok w ↔ grow (writes params) v = some w :=
  foldlM_bind_eq_ok_iff

theorem writes_eq_nil_iff :
    writes params = [] ↔ params = [] := by
  rw [writes, List.map_eq_nil_iff, sorted, ← List.length_eq_zero_iff, List.length_mergeSort,
    List.length_eq_zero_iff]

theorem forall_mem_writes_iff
    {motive : List String → Prop} :
    (∀ w ∈ writes params, motive w.1) ↔ ∀ p ∈ params, motive (keys p.1) := by
  rw [writes, List.forall_mem_map]
  exact forall_congr' fun p => by rw [sorted, List.mem_mergeSort]

/-!
## Behind a key
-/

/-- What is left of the paths that begin with a key. -/
def behind (key : String) (ws : Writes) : Writes :=
  ws.filterMap fun w =>
    match w.1 with
    | [] => none
    | first :: rest => if first = key then some (rest, w.2) else none

@[simp] theorem behind_nil
    (key : String) :
    behind key [] = [] :=
  rfl

@[simp] theorem behind_cons_self
    (key : String) (path : List String) (s : String) (ws : Writes) :
    behind key ((key :: path, s) :: ws) = (path, s) :: behind key ws := by
  simp [behind]

theorem behind_cons_of_ne
    {first : String}
    (hne : first ≠ key) (path : List String) (s : String) (ws : Writes) :
    behind key ((first :: path, s) :: ws) = behind key ws := by
  simp [behind, hne]

theorem mem_behind_iff :
    (path, s) ∈ behind key ws ↔ (key :: path, s) ∈ ws := by
  rw [behind, List.mem_filterMap]
  constructor
  · rintro ⟨⟨whole, s'⟩, hmem, hsome⟩
    cases whole with
    | nil => cases hsome
    | cons first rest =>
        obtain ⟨rfl, heq⟩ := Option.ite_none_right_eq_some.mp hsome
        cases heq
        exact hmem
  · intro hmem
    exact ⟨_, hmem, by simp⟩

/-- How many keys the paths have in all. -/
def Writes.size : Writes → Nat
  | [] => 0
  | w :: ws => w.1.length + Writes.size ws

theorem size_behind_add_length_le
    (key : String) (ws : Writes) :
    (behind key ws).size + (behind key ws).length ≤ ws.size := by
  induction ws with
  | nil => simp [Writes.size]
  | cons w ws ih =>
      obtain ⟨path, s⟩ := w
      cases path with
      | nil => simpa [behind, Writes.size] using ih
      | cons first rest =>
          by_cases hfirst : first = key
          · subst hfirst
            simp only [behind_cons_self, Writes.size, List.length_cons] at ih ⊢
            omega
          · rw [behind_cons_of_ne hfirst]
            simp only [Writes.size, List.length_cons] at ih ⊢
            omega

/-- What holds of paths if it holds of what is behind each of their first keys, holds of all. -/
theorem Writes.induction
    {motive : Writes → Prop}
    (step : ∀ ws, (∀ key, behind key ws ≠ [] → motive (behind key ws)) → motive ws)
    (ws : Writes) :
    motive ws :=
  step ws fun key hne => by
    have hsize := size_behind_add_length_le key ws
    have hlength := List.length_pos_of_ne_nil hne
    have hless : (behind key ws).size < ws.size := by omega
    exact Writes.induction step (behind key ws)
termination_by ws.size

/-- Under a key stands what grows from what is behind it; the other members stay. -/
theorem exists_grow_object
    {inner : String → Value} (ms : Members)
    (hpaths : ∀ w ∈ ws, w.1 ≠ [])
    (hinner : ∀ key,
      grow (behind key ws) ((Members.get? key ms).getD (.object [])) = some (inner key)) :
    ∃ ms', grow ws (.object ms) = some (.object ms') ∧
      (Members.Sorted ms → Members.Sorted ms') ∧
      ∀ key, Members.get? key ms' =
        if behind key ws = [] then Members.get? key ms else some (inner key) := by
  induction ws generalizing ms with
  | nil => exact ⟨ms, rfl, id, fun key => by simp⟩
  | cons w ws ih =>
      obtain ⟨hpath, hrest⟩ := List.forall_mem_cons.mp hpaths
      obtain ⟨path, s⟩ := w
      cases path with
      | nil => exact absurd rfl hpath
      | cons first rest =>
          have hfirst := hinner first
          rw [behind_cons_self, grow_cons_eq_some_iff] at hfirst
          obtain ⟨child, hchild, hgrow⟩ := hfirst
          have hlater : ∀ key, grow (behind key ws)
              ((Members.get? key (Members.put first child ms)).getD (.object [])) =
                some (inner key) := by
            intro key
            by_cases hkey : key = first
            · subst hkey
              rw [Members.get?_put_self, Option.getD_some, hgrow]
            · rw [Members.get?_put_of_ne hkey,
                ← behind_cons_of_ne (Ne.symm hkey) rest s ws, hinner key]
          obtain ⟨ms', hms', hsorted, hget⟩ := ih _ hrest hlater
          refine ⟨ms', ?_, fun h => hsorted (h.put first child), fun key => ?_⟩
          · refine grow_cons_eq_some_iff.mpr ⟨.object (Members.put first child ms), ?_, hms'⟩
            exact bindAt_cons_eq_some_iff.mpr ⟨ms, child, rfl, hchild, rfl⟩
          · rw [hget key]
            by_cases hkey : key = first
            · subst hkey
              rw [Members.get?_put_self, behind_cons_self, if_neg (List.cons_ne_nil _ _)]
              split
              next hnone =>
                -- nothing more is written here, so what was just written is all
                rw [hnone] at hgrow
                exact hgrow
              next => rfl
            · rw [Members.get?_put_of_ne hkey, behind_cons_of_ne (Ne.symm hkey)]

end PathBinding
end RpcGateway
