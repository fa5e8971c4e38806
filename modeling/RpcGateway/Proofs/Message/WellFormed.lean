import Mathlib.Data.List.Forall2
import RpcGateway.Message.Basic

/-!
# Well-formed messages

A message is well-formed if it has a datum for each of its fields and every datum is what the field
holds.

**Levels.**  Messages inside messages are counted: `Fits levels` allows so many levels, the message
itself among them.  A message of a service has two levels at most; a message that may contain itself
can have any number of them.
-/

namespace RpcGateway

open Schema

namespace Schema

/-- A datum is a value of a kind; `inner` says which data a message inside may have. -/
inductive Datum.IsOf (inner : MessageType → List Datum → Prop) : Kind MessageType → Datum → Prop
  | text (s : String) :
      IsOf inner .text (.text s)
  | flag (b : Bool) :
      IsOf inner .flag (.flag b)
  | integer {title : String} {least greatest n : Int}
      (hleast : least ≤ n) (hgreatest : n ≤ greatest) :
      IsOf inner (.integer title least greatest) (.whole n)
  | int64 {n : Int}
      (hleast : Decimal.minInt64 ≤ n) (hgreatest : n ≤ Decimal.maxInt64) :
      IsOf inner .int64 (.whole n)
  | record {t : MessageType} {ds : List Datum}
      (h : inner t ds) :
      IsOf inner (.record t) (.record ds)

/-- A datum is what a field holds. -/
inductive Datum.Held (inner : MessageType → List Datum → Prop) :
    Arity → Kind MessageType → Datum → Prop
  | single {kind : Kind MessageType} {d : Datum}
      (h : d.IsOf inner kind) :
      Held inner .single kind d
  | absent (kind : Kind MessageType) :
      Held inner .optional kind .absent
  | present {kind : Kind MessageType} {d : Datum}
      (h : d.IsOf inner kind) :
      Held inner .optional kind d
  | list {kind : Kind MessageType} {items : List Datum}
      (h : ∀ d ∈ items, d.IsOf inner kind) :
      Held inner .list kind (.list items)

variable {inner other : MessageType → List Datum → Prop} {kind : Kind MessageType} {arity : Arity}
  {d : Datum}

/-- Only the messages inside matter. -/
theorem Datum.IsOf.mono
    (h : d.IsOf inner kind)
    (hinner : ∀ t ds, kind = .record t → inner t ds → other t ds) :
    d.IsOf other kind := by
  cases h with
  | text s => exact .text s
  | flag b => exact .flag b
  | integer hleast hgreatest => exact .integer hleast hgreatest
  | int64 hleast hgreatest => exact .int64 hleast hgreatest
  | record h => exact .record (hinner _ _ rfl h)

theorem Datum.Held.mono
    (h : d.Held inner arity kind)
    (hinner : ∀ t ds, kind = .record t → inner t ds → other t ds) :
    d.Held other arity kind := by
  cases h with
  | single h => exact .single (h.mono hinner)
  | absent => exact .absent kind
  | present h => exact .present (h.mono hinner)
  | list h => exact .list fun d hd => (h d hd).mono hinner

end Schema

namespace MessageType

/-- The data of a message of a type, with so many levels of messages at most. -/
def Fits : Nat → MessageType → List Datum → Prop
  | 0, _, _ => False
  | levels + 1, t, ds =>
      List.Forall₂ (fun f d => Datum.Held (Fits levels) f.arity f.kind d) t.fields ds

/-- Whether a type belongs to a service. -/
def isService : MessageType → Bool
  | timeRange | event | getEventsRequest | getEventsResponse | getEventRequest | getEventResponse
  | fetchRequest | fetchResponse => true
  | item | filter | word | picky => false

/-- Whether no message is inside a message of a type. -/
def isFlat (t : MessageType) : Bool :=
  t.fields.all fun f => match f.kind with
    | .record _ => false
    | _ => true

variable {t : MessageType} {ds : List Datum} {levels more : Nat}

/-- Only the levels of the messages inside matter. -/
theorem Fits.imp
    (h : Fits (levels + 1) t ds)
    (hinside : ∀ f ∈ t.fields, ∀ u es, f.kind = .record u → Fits levels u es → Fits more u es) :
    Fits (more + 1) t ds := by
  unfold Fits at h ⊢
  generalize t.fields = fs at h hinside
  induction h with
  | nil => exact .nil
  | cons hheld hrest ih =>
      refine .cons (hheld.mono fun u es => hinside _ (List.mem_cons_self ..) u es) ?_
      exact ih fun f hf => hinside f (List.mem_cons_of_mem _ hf)

/-- A message with no messages inside has one level. -/
theorem fits_one_of_isFlat
    (hflat : t.isFlat = true) (h : Fits levels t ds) :
    Fits 1 t ds := by
  cases levels with
  | zero => cases h
  | succ levels =>
      refine h.imp fun f hf u es hkind _ => ?_
      have hfield := List.all_eq_true.mp hflat f hf
      rw [hkind] at hfield
      cases hfield

/-- A message inside a message of a service has no messages inside. -/
theorem isFlat_of_isService
    (h : t.isService = true) :
    ∀ f ∈ t.fields, ∀ u, f.kind = .record u → u.isFlat = true := by
  cases t <;> simp_all [isService, fields, isFlat, int32]

/-- A message of a service has two levels at most. -/
theorem fits_two_of_isService
    (hservice : t.isService = true) (h : Fits levels t ds) :
    Fits 2 t ds := by
  cases levels with
  | zero => cases h
  | succ levels =>
      refine h.imp fun f hf u es hkind hinside => ?_
      exact fits_one_of_isFlat (isFlat_of_isService hservice f hf u hkind) hinside

theorem Fits.mono
    (h : Fits levels t ds) (hle : levels ≤ more) :
    Fits more t ds := by
  induction more generalizing levels t ds with
  | zero =>
      obtain rfl := Nat.le_zero.mp hle
      exact h
  | succ more ih =>
      cases levels with
      | zero => cases h
      | succ levels =>
          exact h.imp fun f _ u es _ hinside => ih hinside (Nat.le_of_succ_le_succ hle)

end MessageType

/-- A message has the data of its type. -/
def Message.WellFormed (m : Message) : Prop :=
  ∃ levels, m.type.Fits levels m.fields

end RpcGateway
