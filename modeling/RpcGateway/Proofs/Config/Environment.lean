import Mathlib.Data.List.Infix
import Mathlib.Data.List.Induction
import RpcGateway.Config.Environment
import RpcGateway.Proofs.Config.Layers

/-!
# Settings from the environment

**Names.**  The name of a variable counts in any letter case.  `Names` holds of a name and of a
plain key if the variables of that name, and no others, are the setting of the key.

**Layers.**  The settings of the environment are written one after another over those of a file.  Of
the variables of a name the last decides (`Names.tells_layered`), unless another variable has led
into the same key: then there is no scalar under it.
-/

namespace RpcGateway
namespace Environment

/-- The value of the last variable of a name, in any letter case. -/
def value? (vs : List (String × String)) (name : String) : Option String :=
  ((vs.filter fun v => Ascii.lower v.1 = Ascii.lower name).getLast?).map Prod.snd

theorem value?_concat
    (vs : List (String × String)) (v : String × String) (name : String) :
    value? (vs ++ [v]) name =
      if Ascii.lower v.1 = Ascii.lower name then some v.2 else value? vs name := by
  unfold value?
  rw [List.filter_append]
  by_cases h : Ascii.lower v.1 = Ascii.lower name <;> simp [h]

/-- A text that comes out without points is the one that went in. -/
theorem pointed_eq_self
    {cs : List Char}
    (h : '.' ∉ pointed cs) :
    pointed cs = cs := by
  induction cs using pointed.induct with
  | case1 cs ih => exact absurd (by simp [pointed]) h
  | case2 c cs hne ih =>
      rw [pointed] at h ⊢
      · rw [ih (List.not_mem_of_not_mem_cons h)]
      · exact hne
      · exact hne
  | case3 => rfl

theorem mem_pointed
    {c : Char} {cs : List Char}
    (h : c ∈ pointed cs) :
    c = '.' ∨ c ∈ cs := by
  induction cs using pointed.induct with
  | case1 cs ih =>
      rw [pointed, List.mem_cons] at h
      rcases h with rfl | h
      · exact .inl rfl
      · exact (ih h).imp_right fun h => List.mem_cons_of_mem _ (List.mem_cons_of_mem _ h)
  | case2 d cs hne ih =>
      rw [pointed, List.mem_cons] at h
      · rcases h with rfl | h
        · exact .inr (List.mem_cons_self ..)
        · exact (ih h).imp_right (List.mem_cons_of_mem _)
      · exact hne
  | case3 => exact .inr h

/-- The name of a setting is in lower case. -/
theorem lower_of_settingName?
    {variableName key : String}
    (h : settingName? variableName = some key) :
    Ascii.lower key = key := by
  unfold settingName? at h
  split at h
  · rename_i rest hrest
    cases h
    have happend := List.isPrefixOf?_eq_some_iff_append_eq.mp hrest
    have hlower : ∀ c ∈ pointed rest, c.toLower = c := by
      intro c hc
      rcases mem_pointed hc with rfl | hmem
      · rfl
      · have hin : c ∈ (Ascii.lower variableName).toList := by
          rw [← happend]
          exact List.mem_append_right _ hmem
        rw [Ascii.toList_lower] at hin
        obtain ⟨d, -, rfl⟩ := List.mem_map.mp hin
        exact Ascii.toLower_toLower d
    rw [Ascii.lower, String.toList_ofList, List.map_congr_left hlower, List.map_id']
  · cases h

/-- The variables of a name are the setting of a plain key. -/
structure Names (name key : String) : Prop where
  lower_eq : Ascii.lower name = mark ++ key
  plain : KeyPath.Plain key
  /-- The key leads into no table, neither by a point nor by two underscores. -/
  unpointed : '.' ∉ key.toList
  pointed_eq : pointed key.toList = key.toList

theorem Names.settingName?_iff
    {name key : String}
    (h : Names name key) (variableName : String) :
    settingName? variableName = some key ↔ Ascii.lower variableName = Ascii.lower name := by
  rw [h.lower_eq]
  constructor
  · intro hname
    unfold settingName? at hname
    split at hname
    · rename_i rest hrest
      have happend := List.isPrefixOf?_eq_some_iff_append_eq.mp hrest
      have hpointed : pointed rest = key.toList := by
        rw [← Option.some.inj hname, String.toList_ofList]
      have hsame : rest = key.toList := by
        rw [← hpointed]
        exact (pointed_eq_self (hpointed ▸ h.unpointed)).symm
      refine String.toList_injective ?_
      rw [← happend, hsame, String.toList_append]
    · cases hname
  · intro hlower
    have hrest : mark.toList.isPrefixOf? (Ascii.lower variableName).toList = some key.toList := by
      rw [List.isPrefixOf?_eq_some_iff_append_eq, hlower, String.toList_append]
    unfold settingName?
    simp only [hrest, h.pointed_eq, String.ofList_toList]

theorem setting?_of_settingName?
    {v : String × String} {key : String}
    (h : settingName? v.1 = some key) :
    setting? v = some (key, .scalar (some origin) (scalar v.2)) := by
  rw [setting?, h, Option.map_some]

/-- What is kept under a key is what a value of the environment is taken for, or no scalar. -/
def Tells (es : Setting.Entries) (key value : String) : Prop :=
  ∃ s, es.lookup key = some s ∧ ∀ v, s.scalar? = some v → v = scalar value

theorem layered_settings_concat
    (es : Setting.Entries) (vs : List (String × String)) (v : String × String) :
    Setting.layered es (settings (vs ++ [v])) =
      (setting? v).toList.foldl Setting.assign (Setting.layered es (settings vs)) := by
  simp only [Setting.layered, settings, List.filterMap_append, List.foldl_append]
  cases hsetting : setting? v <;> simp [hsetting]

namespace Names

variable {name key value : String} {vs : List (String × String)} {v : String × String}

/-- A variable of the name takes the place of what was there. -/
theorem tells_concat_self
    (h : Names name key) (hv : Ascii.lower v.1 = Ascii.lower name) (es : Setting.Entries)
    (vs : List (String × String)) :
    Tells (Setting.layered es (settings (vs ++ [v]))) key v.2 := by
  have hname := (h.settingName?_iff v.1).mpr hv
  rw [layered_settings_concat, setting?_of_settingName? hname]
  refine ⟨_, Setting.lookup_assign_self h.plain (lower_of_settingName? hname) _, fun w hw => ?_⟩
  exact (Option.some.inj hw).symm

/-- A variable of another name leaves what was there, or no scalar. -/
theorem tells_concat_of_ne
    {es : Setting.Entries}
    (h : Names name key) (hv : Ascii.lower v.1 ≠ Ascii.lower name)
    (htells : Tells (Setting.layered es (settings vs)) key value) :
    Tells (Setting.layered es (settings (vs ++ [v]))) key value := by
  rw [layered_settings_concat]
  cases hother : settingName? v.1 with
  | none =>
      have hnone : setting? v = none := by rw [setting?, hother, Option.map_none]
      rw [hnone]
      exact htells
  | some other =>
      have hne : Ascii.lower other ≠ key := by
        rw [lower_of_settingName? hother]
        rintro rfl
        exact hv ((h.settingName?_iff v.1).mp hother)
      obtain ⟨s, hs, hscalar⟩ := htells
      rw [setting?_of_settingName? hother]
      rcases Setting.lookup_assign_of_ne hne (.scalar (some origin) (scalar v.2))
        (Setting.layered es (settings vs)) with hkept | ⟨t, ht, hnone⟩
      · exact ⟨s, hkept.trans hs, hscalar⟩
      · refine ⟨t, ht, fun w hw => ?_⟩
        rw [hnone] at hw
        cases hw

/-- The last variable of the name decides. -/
theorem tells_layered
    (h : Names name key) (hvalue : value? vs name = some value) (es : Setting.Entries) :
    Tells (Setting.layered es (settings vs)) key value := by
  induction vs using List.reverseRecOn with
  | nil => cases hvalue
  | append_singleton vs v ih =>
      rw [value?_concat] at hvalue
      by_cases hv : Ascii.lower v.1 = Ascii.lower name
      · rw [if_pos hv] at hvalue
        cases hvalue
        exact h.tells_concat_self hv es vs
      · rw [if_neg hv] at hvalue
        exact h.tells_concat_of_ne hv (ih hvalue)

end Names

theorem names_id : Names "TETHER_ID" "id" :=
  ⟨by decide, by rfl, by decide, by rfl⟩

theorem names_listen : Names "TETHER_LISTEN_ADDR" "listen_addr" :=
  ⟨by decide, by rfl, by decide, by rfl⟩

theorem names_endpoint : Names "TETHER_UPSTREAM_ENDPOINT" "upstream_endpoint" :=
  ⟨by decide, by rfl, by decide, by rfl⟩

end Environment
end RpcGateway
