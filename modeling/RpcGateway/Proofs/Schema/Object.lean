import Mathlib.Data.List.Forall2
import Mathlib.Data.List.Nodup
import RpcGateway.Proofs.Collection.Result
import RpcGateway.Proofs.Json.Members
import RpcGateway.Schema.Tree

/-!
# Reading a record from an object

An object is read member by member in its own order, and the data of the record are then put
together in the order of the schema.  Neither order matters: every member of the schema gets what
the value under its key is read as, or what stands for a member that is missing.

**Result.**  `ofValue_object_eq_ok_iff`, for any schema and any object in which no key stands twice.
-/

namespace RpcGateway
namespace Schema

open Json

variable {ρ : Type} {schema : Schema ρ} {name : ρ} {ms : Members} {slots : Slots} {m : Member ρ}

/-- A member of a record that the members of an object are read as. -/
def Filled (schema : Schema ρ) (ms : Members) (m : Member ρ) (d : Datum) : Prop :=
  match Members.get? m.key ms with
  | some v => ofValue schema m.arity m.kind v = .ok d
  | none => m.absence = some d

theorem exists_rel_of_mem
    {α β : Type} {R : α → β → Prop} {xs : List α} {ys : List β} {x : α}
    (h : List.Forall₂ R xs ys) (hx : x ∈ xs) :
    ∃ y, R x y := by
  induction h with
  | nil => cases hx
  | cons hR _ ih =>
      rcases List.mem_cons.mp hx with rfl | hx
      · exact ⟨_, hR⟩
      · exact ih hx

theorem forall₂_congr_of_mem
    {α β : Type} {R S : α → β → Prop} {xs : List α} {ys : List β}
    (h : ∀ x ∈ xs, ∀ y, R x y ↔ S x y) :
    List.Forall₂ R xs ys ↔ List.Forall₂ S xs ys := by
  induction xs generalizing ys with
  | nil => simp
  | cons x xs ih =>
      obtain ⟨hx, hxs⟩ := List.forall_mem_cons.mp h
      cases ys with
      | nil => simp
      | cons y ys => simp [hx, ih hxs]

theorem member?_of_mem
    (hkeys : ((schema.members name).map (·.key)).Nodup) (hm : m ∈ schema.members name) :
    member? schema name m.key = some m := by
  cases hfound : member? schema name m.key with
  | none => simpa using List.find?_eq_none.mp hfound m hm
  | some n =>
      have hkey : n.key = m.key := by simpa using List.find?_some hfound
      have hn := List.mem_of_find?_eq_some hfound
      rw [List.inj_on_of_nodup_map hkeys hn hm hkey]

/-- What was read under a key is what the value under that key is read as. -/
theorem rel_of_ofMembers
    (h : ofMembers schema name ms = .ok slots) {key : String}
    (hm : member? schema name key = some m) :
    Option.Rel (fun v d => ofValue schema m.arity m.kind v = .ok d)
      (Members.get? key ms) (slots.get? key) := by
  induction ms generalizing slots with
  | nil =>
      rw [ofMembers] at h
      cases h
      exact .none
  | cons p rest ih =>
      obtain ⟨k, v⟩ := p
      rw [ofMembers] at h
      by_cases hk : key = k
      · subst hk
        rw [hm] at h
        dsimp only at h
        split at h
        · cases h
        · next d hd =>
            obtain ⟨slots, -, rfl⟩ := exists_of_map_eq_ok h
            simpa [Members.get?, Slots.get?] using Option.Rel.some hd
      · have hget : Members.get? key ((k, v) :: rest) = Members.get? key rest := by
          simp [Members.get?, hk]
        rw [hget]
        split at h
        · exact ih h
        · split at h
          · cases h
          · obtain ⟨slots, hslots, rfl⟩ := exists_of_map_eq_ok h
            have hlookup := ih hslots
            rwa [Slots.get?, List.lookup_cons, beq_eq_false_iff_ne.mpr hk]

theorem exists_ofMembers
    (h : ∀ p ∈ ms, ∀ m, member? schema name p.1 = some m →
      ∃ d, ofValue schema m.arity m.kind p.2 = .ok d) :
    ∃ slots, ofMembers schema name ms = .ok slots := by
  induction ms with
  | nil => exact ⟨[], by rw [ofMembers]⟩
  | cons p rest ih =>
      obtain ⟨hp, hrest⟩ := List.forall_mem_cons.mp h
      obtain ⟨slots, hslots⟩ := ih hrest
      cases hm : member? schema name p.1 with
      | none =>
          refine ⟨slots, ?_⟩
          rw [ofMembers, hm]
          exact hslots
      | some m =>
          obtain ⟨d, hd⟩ := hp m hm
          refine ⟨(p.1, d) :: slots, ?_⟩
          rw [ofMembers, hm]
          simp [hd, hslots, Except.map]

theorem complete_eq_ok_iff
    {members : List (Member ρ)} {ds : List Datum} :
    complete slots members = .ok ds ↔
      List.Forall₂ (fun m d => (slots.get? m.key).or m.absence = some d) members ds := by
  induction members generalizing ds with
  | nil => simp [complete, eq_comm]
  | cons m members ih =>
      rw [complete]
      constructor
      · intro h
        split at h
        next d hd =>
          obtain ⟨ds, hds, rfl⟩ := exists_of_map_eq_ok h
          exact .cons (by rw [hd, Option.some_or]) (ih.mp hds)
        next d hnone hd =>
          obtain ⟨ds, hds, rfl⟩ := exists_of_map_eq_ok h
          exact .cons (by rw [hnone, hd, Option.none_or]) (ih.mp hds)
        next => cases h
      · rintro (_ | ⟨hd, hds⟩)
        rw [ih.mpr hds]
        split
        next e he =>
          rw [he, Option.some_or] at hd
          cases hd
          rfl
        next e hnone he =>
          rw [hnone, he, Option.none_or] at hd
          cases hd
          rfl
        next hnone hmissing =>
          rw [hnone, hmissing] at hd
          cases hd

theorem ofValue_object_eq_ok_iff_exists
    {arity : Arity} {ds : List Datum}
    (harity : arity ≠ .list) :
    ofValue schema arity (.record name) (.object ms) = .ok (.record ds) ↔
      ∃ slots, ofMembers schema name ms = .ok slots ∧
        complete slots (schema.members name) = .ok ds := by
  have hread : ofValue schema arity (.record name) (.object ms) =
      (ofMembers schema name ms >>= fun slots =>
        (complete slots (schema.members name)).map .record) := by
    rw [ofValue.eq_def]
    cases arity with
    | list => exact absurd rfl harity
    | single | optional =>
        dsimp only
        cases ofMembers schema name ms <;> rfl
  rw [hread]
  constructor
  · intro h
    obtain ⟨slots, hslots, h⟩ := exists_of_bind_eq_ok h
    obtain ⟨es, hes, heq⟩ := exists_of_map_eq_ok h
    cases heq
    exact ⟨slots, hslots, hes⟩
  · rintro ⟨slots, hslots, hds⟩
    rw [hslots]
    change (complete slots (schema.members name)).map Datum.record = _
    rw [hds]
    rfl

/-- An object is read as a record whose members are each filled from it. -/
theorem ofValue_object_eq_ok_iff
    {arity : Arity} {ds : List Datum}
    (hkeys : ((schema.members name).map (·.key)).Nodup) (hnodup : (ms.map Prod.fst).Nodup)
    (harity : arity ≠ .list) :
    ofValue schema arity (.record name) (.object ms) = .ok (.record ds) ↔
      List.Forall₂ (Filled schema ms) (schema.members name) ds := by
  -- what is read under the key of a member decides whether the member is filled
  have hfilled : ∀ {slots}, ofMembers schema name ms = .ok slots →
      ∀ m ∈ schema.members name, ∀ d,
        Filled schema ms m d ↔ (slots.get? m.key).or m.absence = some d := by
    intro slots hslots m hm d
    have hrel := rel_of_ofMembers hslots (member?_of_mem hkeys hm)
    unfold Filled
    cases hvalue : Members.get? m.key ms with
    | none =>
        rw [hvalue] at hrel
        cases hslot : slots.get? m.key with
        | none => simp
        | some e =>
            rw [hslot] at hrel
            cases hrel
    | some v =>
        rw [hvalue] at hrel
        cases hslot : slots.get? m.key with
        | none =>
            rw [hslot] at hrel
            cases hrel
        | some e =>
            rw [hslot] at hrel
            cases hrel with
            | some he => simp [he]
  rw [ofValue_object_eq_ok_iff_exists harity]
  constructor
  · rintro ⟨slots, hslots, hds⟩
    exact (forall₂_congr_of_mem (hfilled hslots)).mpr (complete_eq_ok_iff.mp hds)
  · intro h
    obtain ⟨slots, hslots⟩ : ∃ slots, ofMembers schema name ms = .ok slots := by
      refine exists_ofMembers fun p hp m hm => ?_
      have hmem := List.mem_of_find?_eq_some hm
      have hkey : m.key = p.1 := by simpa using List.find?_some hm
      obtain ⟨d, hd⟩ := exists_rel_of_mem h hmem
      unfold Filled at hd
      rw [hkey, Members.get?_of_mem hnodup hp] at hd
      exact ⟨d, hd⟩
    exact ⟨slots, hslots, complete_eq_ok_iff.mpr ((forall₂_congr_of_mem (hfilled hslots)).mp h)⟩

theorem recordOfValue_eq_ok_iff
    {v : Json.Value} {ds : List Datum} :
    recordOfValue schema name v = .ok ds ↔
      ofValue schema .single (.record name) v = .ok (.record ds) := by
  unfold recordOfValue
  constructor
  · intro h
    split at h
    next fields hfields =>
      cases h
      exact hfields
    next => cases h
    next => cases h
  · intro h
    rw [h]

end Schema
end RpcGateway
