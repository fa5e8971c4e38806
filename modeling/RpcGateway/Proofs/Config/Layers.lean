import RpcGateway.Config.KeyPath
import RpcGateway.Config.Reading
import RpcGateway.Proofs.Collection.Result

/-!
# Settings under a plain key

A plain key leads into nothing: it names an entry of the outermost table.  What is kept there is
what was last written there as a whole, or something with settings inside.

**Scalars.**  `scalar?` is the scalar that a setting is.  What is written further in leaves a table
or a list (`scalar?_written`), and a text is read from a scalar only (`text?_of_readText`).
-/

namespace RpcGateway

namespace KeyPath

/-- A key leads into nothing. -/
def Plain (key : String) : Prop :=
  ofName key = (key, [])

/-- Only nothing spells no steps. -/
theorem eq_nil_of_steps?
    {fuel : Nat} {cs : List Char}
    (h : steps? fuel cs = some []) :
    cs = [] := by
  unfold steps? at h
  split at h
  · rfl
  · cases h
  · split at h
    · obtain ⟨steps, -, hsteps⟩ := Option.map_eq_some_iff.mp h
      cases hsteps
    · cases h
  · split at h
    · obtain ⟨steps, -, hsteps⟩ := Option.map_eq_some_iff.mp h
      cases hsteps
    · cases h
  · cases h

theorem key?_eq_some
    {cs rest : List Char} {key : String}
    (h : key? cs = some (key, rest)) :
    key = String.ofList (cs.takeWhile isKeyChar) ∧ cs.dropWhile isKeyChar = rest := by
  unfold key? at h
  simp only [Option.ite_none_left_eq_some, Option.some.injEq, Prod.mk.injEq] at h
  exact ⟨h.2.1.symm, h.2.2⟩

/-- A name without steps is the key. -/
theorem eq_of_ofName
    {name key : String}
    (h : ofName name = (key, [])) :
    name = key := by
  unfold ofName at h
  cases hkey : key? name.toList with
  | none =>
      rw [hkey] at h
      exact congrArg Prod.fst h
  | some found =>
      obtain ⟨front, rest⟩ := found
      simp only [hkey] at h
      cases hsteps : steps? rest.length rest with
      | none =>
          rw [hsteps] at h
          exact congrArg Prod.fst h
      | some steps =>
          rw [hsteps] at h
          obtain ⟨rfl, rfl⟩ := Prod.mk.inj h
          obtain rfl := eq_nil_of_steps? hsteps
          have hrest : name.toList.dropWhile isKeyChar = [] := (key?_eq_some hkey).2
          have hall := List.takeWhile_append_dropWhile (p := isKeyChar) (l := name.toList)
          rw [hrest, List.append_nil] at hall
          rw [(key?_eq_some hkey).1, hall, String.ofList_toList]

end KeyPath

namespace Setting

theorem layered_append (es first second : Entries) :
    layered es (first ++ second) = layered (layered es first) second :=
  List.foldl_append

/-- The scalar that a setting is. -/
def scalar? : Setting → Option Scalar
  | .scalar _ v => some v
  | _ => none

/-- What is written at the end of some steps leaves no scalar where they begin. -/
theorem scalar?_written
    {steps : List KeyStep}
    (h : steps ≠ []) (value : Setting) (old : Option Setting) :
    (written value steps old).scalar? = none := by
  cases steps with
  | nil => exact absurd rfl h
  | cons step rest =>
      cases step with
      | entry key =>
          rw [written]
          rfl
      | item n =>
          cases rest with
          | nil =>
              rw [written]
              rfl
          | cons step rest =>
              rw [written]
              · rfl

/-- A scalar that is written under a plain key is what is kept there. -/
theorem lookup_assign_self
    {key name : String} {origin : Option String} {v : Scalar}
    (hkey : KeyPath.Plain key) (hname : Ascii.lower name = key) (es : Entries) :
    (assign es (name, .scalar origin v)).lookup key = some (.scalar origin v) := by
  unfold assign
  rw [hname, hkey, Keyed.lookup_put, if_pos rfl, written, merged]

/-- What is written under another name leaves under a plain key what was there, or no scalar. -/
theorem lookup_assign_of_ne
    {key name : String}
    (hne : Ascii.lower name ≠ key) (value : Setting) (es : Entries) :
    (assign es (name, value)).lookup key = es.lookup key ∨
      ∃ s, (assign es (name, value)).lookup key = some s ∧ s.scalar? = none := by
  unfold assign
  cases hpath : KeyPath.ofName (Ascii.lower name) with
  | mk first steps =>
      simp only [Keyed.lookup_put]
      by_cases hfirst : key = first
      · have hsteps : steps ≠ [] := by
          rintro rfl
          exact hne ((KeyPath.eq_of_ofName hpath).trans hfirst.symm)
        rw [if_pos hfirst]
        exact .inr ⟨_, rfl, scalar?_written hsteps _ _⟩
      · rw [if_neg hfirst]
        exact .inl rfl

theorem text?_of_readText
    {key text : String} {s : Setting}
    (h : readText key s = .ok text) :
    ∃ v, s.scalar? = some v ∧ v.text? = some text := by
  cases s with
  | scalar origin v =>
      unfold readText at h
      cases htext : v.text? with
      | none => simp [htext] at h
      | some t =>
          simp only [htext, Except.ok.injEq] at h
          exact ⟨v, rfl, htext.trans (congrArg some h)⟩
  | array origin items => cases h
  | table origin entries => cases h

theorem text?_of_readOptionalText
    {key : String} {text : Option String} {s : Setting}
    (h : readOptionalText key s = .ok text) :
    ∃ v, s.scalar? = some v ∧ v.text? = text := by
  unfold readOptionalText at h
  split at h
  · cases h
    exact ⟨.nothing, rfl, rfl⟩
  · obtain ⟨t, ht, rfl⟩ := exists_of_map_eq_ok h
    exact text?_of_readText ht

/-- What is read from a setting that is there. -/
theorem read_of_readOr
    {α : Type} {es : Entries} {key : String} {read : String → Setting → Except String α}
    {absent value : α} {s : Setting}
    (h : readOr es key read absent = .ok value) (hs : es.lookup key = some s) :
    read key s = .ok value := by
  unfold readOr at h
  rw [hs] at h
  exact h

end Setting
end RpcGateway
