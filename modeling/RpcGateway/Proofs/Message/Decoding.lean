import RpcGateway.Codec.Body
import RpcGateway.Proofs.Collection.Result
import RpcGateway.Proofs.Message.WellFormed
import RpcGateway.Proofs.Schema.Object

/-!
# Decoded messages are well-formed

What is read from a value tree has a datum for every field, integers are within their bounds, and
what is missing is there as a zero value.

**Induction.**  `held_of_ofValue` and its companions are by induction on the value tree, with one
statement for each of the functions that read it.  An object is read member by member in its own
order; `held_of_complete` puts the data in the order of the fields.

**Result.**  `wellFormed_of_ofValue` for value trees, and `wellFormed_of_decodeMessage` for bodies
with path parameters.
-/

namespace RpcGateway

open Schema

namespace Schema

variable {inner : MessageType → List Datum → Prop} {kind : Kind MessageType} {arity : Arity}
  {d : Datum}

theorem Datum.Held.of_isOf
    (h : d.IsOf inner kind) (harity : arity ≠ .list) :
    d.Held inner arity kind := by
  cases arity with
  | single => exact .single h
  | optional => exact .present h
  | list => exact absurd rfl harity

theorem int64OfText_le
    {s : String} {n : Int}
    (h : int64OfText s = .ok n) :
    Decimal.minInt64 ≤ n ∧ n ≤ Decimal.maxInt64 := by
  unfold int64OfText at h
  split at h
  next i hi =>
    cases h
    have hbounds := (Option.filter_eq_some_iff.mp hi).2
    simpa using hbounds
  next => cases h

theorem int64OfNumber_le
    {number : Json.Number} {n : Int}
    (h : int64OfNumber number = .ok n) :
    Decimal.minInt64 ≤ n ∧ n ≤ Decimal.maxInt64 := by
  unfold int64OfNumber at h
  split at h
  · split at h
    · cases h
      assumption
    · cases h
  · split at h
    · split at h
      · cases h
        assumption
      · cases h
    · cases h

theorem integerOfNumber_le
    {title : String} {least greatest n : Int} {number : Json.Number}
    (h : integerOfNumber title least greatest number = .ok n) :
    least ≤ n ∧ n ≤ greatest := by
  unfold integerOfNumber at h
  split at h
  · split at h
    · cases h
      assumption
    · cases h
  · cases h

/-- A value that is no record is read as a datum of its kind. -/
theorem isOf_of_scalarOfValue
    {v : Json.Value}
    (h : scalarOfValue kind v = .ok d) (hany : kind ≠ .any) (hrecord : ∀ t, kind ≠ .record t) :
    d.IsOf inner kind := by
  cases kind with
  | any => exact absurd rfl hany
  | record t => exact absurd rfl (hrecord t)
  | text =>
      cases v <;> cases h
      exact .text _
  | flag =>
      cases v <;> cases h
      exact .flag _
  | integer title least greatest =>
      cases v with
      | number number =>
          obtain ⟨n, hn, rfl⟩ := exists_of_map_eq_ok h
          obtain ⟨hleast, hgreatest⟩ := integerOfNumber_le hn
          exact .integer hleast hgreatest
      | _ => cases h
  | int64 =>
      cases v with
      | null =>
          cases h
          exact .int64 (by decide) (by decide)
      | number number =>
          obtain ⟨n, hn, rfl⟩ := exists_of_map_eq_ok h
          obtain ⟨hleast, hgreatest⟩ := int64OfNumber_le hn
          exact .int64 hleast hgreatest
      | string s =>
          obtain ⟨n, hn, rfl⟩ := exists_of_map_eq_ok h
          obtain ⟨hleast, hgreatest⟩ := int64OfText_le hn
          exact .int64 hleast hgreatest
      | _ => cases h

end Schema

namespace MessageType

variable {t : MessageType} {f : MessageField} {ds : List Datum}

/-- The data of a message of a type, with any number of levels. -/
def FitsAny (t : MessageType) (ds : List Datum) : Prop :=
  ∃ levels, t.Fits levels ds

theorem kind_ne_any_of_mem
    (hf : f ∈ t.fields) :
    f.kind ≠ .any := by
  have hall : ∀ f ∈ t.fields, f.kind ≠ .any := by cases t <;> decide
  exact hall f hf

/-- A field that nothing was said about holds its zero value. -/
theorem held_zeroDatum
    {inner : MessageType → List Datum → Prop}
    (hf : f ∈ t.fields) :
    (zeroDatum f.arity f.kind).Held inner f.arity f.kind := by
  cases t <;> simp only [fields, List.mem_cons, List.not_mem_nil, or_false] at hf
  all_goals rcases hf with rfl | rfl | rfl | rfl | rfl | rfl | rfl
  all_goals first
    | exact .absent _
    | exact .list (by simp)
    | exact .single (.text _)
    | exact .single (.flag _)
    | exact .single (.int64 (by decide) (by decide))
    | exact .single (.integer (by decide) (by decide))

/-!
## Levels
-/

theorem exists_levels_of_isOf
    {kind : Kind MessageType} {d : Datum}
    (h : d.IsOf FitsAny kind) :
    ∃ levels, d.IsOf (Fits levels) kind := by
  cases h with
  | text s => exact ⟨0, .text s⟩
  | flag b => exact ⟨0, .flag b⟩
  | integer hleast hgreatest => exact ⟨0, .integer hleast hgreatest⟩
  | int64 hleast hgreatest => exact ⟨0, .int64 hleast hgreatest⟩
  | record h =>
      obtain ⟨levels, hfits⟩ := h
      exact ⟨levels, .record hfits⟩

theorem exists_levels_of_items
    {kind : Kind MessageType} {items : List Datum}
    (h : ∀ d ∈ items, d.IsOf FitsAny kind) :
    ∃ levels, ∀ d ∈ items, d.IsOf (Fits levels) kind := by
  induction items with
  | nil => exact ⟨0, by simp⟩
  | cons d rest ih =>
      obtain ⟨levels, hrest⟩ := ih fun e he => h e (List.mem_cons_of_mem _ he)
      obtain ⟨more, hd⟩ := exists_levels_of_isOf (h d (List.mem_cons_self ..))
      refine ⟨max more levels, fun e he => ?_⟩
      rcases List.mem_cons.mp he with rfl | he
      · exact hd.mono fun _ _ _ hfits => hfits.mono (Nat.le_max_left ..)
      · exact (hrest e he).mono fun _ _ _ hfits => hfits.mono (Nat.le_max_right ..)

theorem exists_levels_of_held
    {arity : Arity} {kind : Kind MessageType} {d : Datum}
    (h : d.Held FitsAny arity kind) :
    ∃ levels, d.Held (Fits levels) arity kind := by
  cases h with
  | single h =>
      obtain ⟨levels, h⟩ := exists_levels_of_isOf h
      exact ⟨levels, .single h⟩
  | absent => exact ⟨0, .absent kind⟩
  | present h =>
      obtain ⟨levels, h⟩ := exists_levels_of_isOf h
      exact ⟨levels, .present h⟩
  | list h =>
      obtain ⟨levels, h⟩ := exists_levels_of_items h
      exact ⟨levels, .list h⟩

/-- A message has one level more than any of the messages inside it. -/
theorem fitsAny_of_held
    (h : List.Forall₂ (fun f d => Datum.Held FitsAny f.arity f.kind d) t.fields ds) :
    t.FitsAny ds := by
  have hlevels : ∃ levels,
      List.Forall₂ (fun f d => Datum.Held (Fits levels) f.arity f.kind d) t.fields ds := by
    generalize t.fields = fs at h
    induction h with
    | nil => exact ⟨0, .nil⟩
    | cons hheld hrest ih =>
        obtain ⟨more, hheld⟩ := exists_levels_of_held hheld
        obtain ⟨levels, hrest⟩ := ih
        refine ⟨max more levels, .cons ?_ (hrest.imp fun f d hd => ?_)⟩
        · exact hheld.mono fun _ _ _ hfits => hfits.mono (Nat.le_max_left ..)
        · exact hd.mono fun _ _ _ hfits => hfits.mono (Nat.le_max_right ..)
  obtain ⟨levels, hfields⟩ := hlevels
  exact ⟨levels + 1, hfields⟩

/-!
## Members
-/

/-- A field as a member of a record. -/
def memberOf (t : MessageType) (f : MessageField) : Member MessageType :=
  ⟨f.key, f.kind, f.arity, if t.mayOmit then some (zeroDatum f.arity f.kind) else none⟩

theorem absence_memberOf
    {d : Datum}
    (h : (t.memberOf f).absence = some d) :
    d = zeroDatum f.arity f.kind := by
  unfold memberOf at h
  split at h
  · exact (Option.some.inj h).symm
  · cases h

theorem memberKeys_nodup
    (t : MessageType) :
    ((schema.members t).map (·.key)).Nodup := by
  have hkeys : (schema.members t).map (·.key) = t.fields.map (·.key) := List.map_map ..
  exact hkeys ▸ t.keys_nodup

theorem member?_eq_some
    (hf : f ∈ t.fields) :
    member? schema t f.key = some (t.memberOf f) :=
  member?_of_mem t.memberKeys_nodup (List.mem_map_of_mem hf)

theorem kind_ne_any_of_member?
    {key : String} {m : Member MessageType}
    (hm : member? schema t key = some m) :
    m.kind ≠ .any := by
  obtain ⟨f, hf, rfl⟩ := List.mem_map.mp (List.mem_of_find?_eq_some hm)
  exact kind_ne_any_of_mem hf

/-- Data that were read under the keys of a message type are what its fields hold. -/
def SlotsHeld (t : MessageType) (slots : Slots) : Prop :=
  ∀ key d, slots.get? key = some d →
    ∃ m, member? schema t key = some m ∧ d.Held FitsAny m.arity m.kind

theorem SlotsHeld.cons
    {slots : Slots} {key : String} {m : Member MessageType} {d : Datum}
    (h : t.SlotsHeld slots) (hm : member? schema t key = some m)
    (hd : d.Held FitsAny m.arity m.kind) :
    t.SlotsHeld ((key, d) :: slots) := by
  intro other e he
  rw [Slots.get?, List.lookup_cons] at he
  split at he
  next hkey =>
    cases he
    rw [eq_of_beq hkey]
    exact ⟨m, hm, hd⟩
  next => exact h other e he

theorem held_of_complete
    {slots : Slots} {fs : List MessageField}
    (hslots : t.SlotsHeld slots) (hfs : ∀ f ∈ fs, f ∈ t.fields)
    (h : complete slots (fs.map t.memberOf) = .ok ds) :
    List.Forall₂ (fun f d => Datum.Held FitsAny f.arity f.kind d) fs ds := by
  induction fs generalizing ds with
  | nil =>
      cases h
      exact .nil
  | cons f fs ih =>
      have hmem := hfs f (List.mem_cons_self ..)
      have hlater : ∀ g ∈ fs, g ∈ t.fields := fun g hg => hfs g (List.mem_cons_of_mem _ hg)
      rw [List.map_cons, complete] at h
      split at h
      next d hd =>
        -- keys are distinct, so what was read under the key was read for this field
        obtain ⟨ds, hds, rfl⟩ := exists_of_map_eq_ok h
        obtain ⟨m, hm, hheld⟩ := hslots f.key d hd
        rw [member?_eq_some hmem] at hm
        cases hm
        exact .cons hheld (ih hlater hds)
      next d _ hd =>
        obtain ⟨ds, hds, rfl⟩ := exists_of_map_eq_ok h
        rw [absence_memberOf hd]
        exact .cons (held_zeroDatum hmem) (ih hlater hds)
      next => cases h

theorem held_of_ofPositions_nil
    {fs : List MessageField} {read n : Nat}
    (hfs : ∀ f ∈ fs, f ∈ t.fields)
    (h : ofPositions schema t (fs.map t.memberOf) read [] = .ok (ds, n)) :
    List.Forall₂ (fun f d => Datum.Held FitsAny f.arity f.kind d) fs ds := by
  induction fs generalizing ds n with
  | nil =>
      rw [List.map_nil, ofPositions] at h
      cases h
      exact .nil
  | cons f fs ih =>
      rw [List.map_cons, ofPositions] at h
      split at h
      · cases h
      · next d hd =>
          obtain ⟨⟨ds, m⟩, hds, heq⟩ := exists_of_map_eq_ok h
          cases heq
          rw [absence_memberOf hd]
          exact .cons (held_zeroDatum (hfs f (List.mem_cons_self ..)))
            (ih (fun g hg => hfs g (List.mem_cons_of_mem _ hg)) hds)

/-!
## Value trees
-/

/-- A value with no values inside is read as a datum of its kind. -/
theorem held_of_leaf
    {inner : MessageType → List Datum → Prop} {arity : Arity} {kind : Kind MessageType} {d : Datum}
    (hkind : kind ≠ .any) {v : Json.Value} (hnull : v ≠ .null) (harray : ∀ vs, v ≠ .array vs)
    (hobject : ∀ ms, v ≠ .object ms) (h : ofValue schema arity kind v = .ok d) :
    d.Held inner arity kind := by
  rw [ofValue.eq_def] at h
  split at h
  · exact absurd rfl hnull
  · exact absurd rfl (harray _)
  · exact absurd rfl (hobject _)
  · split at h
    next => cases h
    next => cases h
    next harity hrecord => exact .of_isOf (isOf_of_scalarOfValue h hkind hrecord) harity

mutual

/-- A value is read as what a field of the arity and the kind holds. -/
theorem held_of_ofValue
    {arity : Arity} {kind : Kind MessageType} {d : Datum} (hkind : kind ≠ .any) :
    ∀ v, ofValue schema arity kind v = .ok d → d.Held FitsAny arity kind
  | .null, h => by
      rw [ofValue.eq_def] at h
      dsimp only at h
      split at h
      next =>
        cases h
        exact .absent kind
      next => cases h
      next => cases h
      next hrecord => exact .single (isOf_of_scalarOfValue h hkind hrecord)
  | .array items, h => by
      rw [ofValue.eq_def] at h
      dsimp only at h
      split at h
      next =>
        obtain ⟨ds, hds, rfl⟩ := exists_of_map_eq_ok h
        exact .list (held_of_ofItems hkind items hds)
      next t harity =>
        split at h
        next => cases h
        next ds read hds =>
          split at h
          · cases h
          · cases h
            exact .of_isOf (.record (fitsAny_of_held (held_of_ofPositions items _ (fun _ => id) hds)))
              harity
      next harity hrecord => exact .of_isOf (isOf_of_scalarOfValue h hkind hrecord) harity
  | .object ms, h => by
      rw [ofValue.eq_def] at h
      dsimp only at h
      split at h
      next => cases h
      next t harity =>
        split at h
        next => cases h
        next slots hslots =>
          obtain ⟨ds, hds, rfl⟩ := exists_of_map_eq_ok h
          have hheld := held_of_complete (slotsHeld_of_ofMembers ms hslots) (fun _ => id) hds
          exact .of_isOf (.record (fitsAny_of_held hheld)) harity
      next harity hrecord => exact .of_isOf (isOf_of_scalarOfValue h hkind hrecord) harity
  | .boolean b, h => held_of_leaf hkind (by simp) (by simp) (by simp) h
  | .number n, h => held_of_leaf hkind (by simp) (by simp) (by simp) h
  | .string s, h => held_of_leaf hkind (by simp) (by simp) (by simp) h

theorem held_of_ofItems
    {kind : Kind MessageType} {ds : List Datum} (hkind : kind ≠ .any) :
    ∀ items, ofItems schema kind items = .ok ds → ∀ d ∈ ds, d.IsOf FitsAny kind
  | [], h => by
      rw [ofItems] at h
      cases h
      simp
  | v :: rest, h => by
      rw [ofItems] at h
      split at h
      · cases h
      · next d hd =>
          obtain ⟨ds, hds, rfl⟩ := exists_of_map_eq_ok h
          intro e he
          rcases List.mem_cons.mp he with rfl | he
          · cases held_of_ofValue hkind v hd with
            | single h => exact h
          · exact held_of_ofItems hkind rest hds e he

theorem slotsHeld_of_ofMembers
    {t : MessageType} {slots : Slots} :
    ∀ ms, ofMembers schema t ms = .ok slots → t.SlotsHeld slots
  | [], h => by
      rw [ofMembers] at h
      cases h
      intro key d hd
      cases hd
  | (key, v) :: rest, h => by
      rw [ofMembers] at h
      split at h
      next => exact slotsHeld_of_ofMembers rest h
      next m hm =>
        split at h
        next => cases h
        next d hd =>
          obtain ⟨slots, hslots, rfl⟩ := exists_of_map_eq_ok h
          exact (slotsHeld_of_ofMembers rest hslots).cons hm
            (held_of_ofValue (kind_ne_any_of_member? hm) v hd)

theorem held_of_ofPositions
    {t : MessageType} {read n : Nat} {ds : List Datum} :
    ∀ items fs, (∀ f ∈ fs, f ∈ t.fields) →
      ofPositions schema t (fs.map t.memberOf) read items = .ok (ds, n) →
      List.Forall₂ (fun f d => Datum.Held FitsAny f.arity f.kind d) fs ds
  | [], fs, hfs, h => held_of_ofPositions_nil hfs h
  | v :: rest, [], hfs, h => by
      rw [List.map_nil, ofPositions] at h
      cases h
      exact .nil
  | v :: rest, f :: fs, hfs, h => by
      rw [List.map_cons, ofPositions] at h
      split at h
      · cases h
      next d hd =>
        obtain ⟨⟨ds, m⟩, hds, heq⟩ := exists_of_map_eq_ok h
        cases heq
        have hmem := hfs f (List.mem_cons_self ..)
        exact .cons (held_of_ofValue (kind_ne_any_of_mem hmem) v hd)
          (held_of_ofPositions rest fs (fun g hg => hfs g (List.mem_cons_of_mem _ hg)) hds)

end

end MessageType

namespace Message

variable {t : MessageType} {m : Message}

theorem wellFormed_zero (t : MessageType) : (zero t).WellFormed := by
  refine MessageType.fitsAny_of_held ?_
  have hfields : ∀ f ∈ t.fields, (MessageType.zeroDatum f.arity f.kind).Held MessageType.FitsAny
      f.arity f.kind := fun f hf => MessageType.held_zeroDatum hf
  exact List.forall₂_map_right_iff.mpr (List.forall₂_same.mpr hfields)

/-- A message that is read from a value tree is a well-formed message of its type. -/
theorem wellFormed_of_ofValue
    {v : Json.Value}
    (h : ofValue t v = .ok m) :
    m.type = t ∧ m.WellFormed := by
  obtain ⟨ds, hds, rfl⟩ := exists_of_map_eq_ok h
  refine ⟨rfl, ?_⟩
  cases MessageType.held_of_ofValue (by simp) v (recordOfValue_eq_ok_iff.mp hds) with
  | single h =>
      cases h with
      | record h => exact h

end Message

/-- A message that is read from a body and path parameters is a well-formed message of its type. -/
theorem Codec.wellFormed_of_decodeMessage
    {codec : Codec} {t : MessageType} {body : List UInt8} {params : PathParams} {m : Message}
    (h : codec.decodeMessage t body params = .ok m) :
    m.type = t ∧ m.WellFormed := by
  unfold decodeMessage at h
  split at h
  · cases h
    exact ⟨rfl, Message.wellFormed_zero t⟩
  · obtain ⟨v, -, h⟩ := exists_of_bind_eq_ok h
    obtain ⟨w, -, h⟩ := exists_of_bind_eq_ok h
    split at h
    next m hm =>
      cases h
      exact Message.wellFormed_of_ofValue hm
    next => cases h

end RpcGateway
