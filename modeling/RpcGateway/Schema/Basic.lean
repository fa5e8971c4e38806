import RpcGateway.Json.Basic
import RpcGateway.Number.Shortest
import RpcGateway.Text.Quoted

/-!
# Schemas

A schema says which members a record has, what each member holds, and what stands for a member
that is missing.  Messages, error envelopes and the configuration are all records of a schema, so
one reader of value trees and one reader of text serve them all.

**Kinds and arities.**  A member holds one value of a kind, at most one, or a list of them.  A
record kind refers to another record of the same schema by its name, so a record may contain
itself.

**Data.**  A `Datum` is a value of a schema.  The data of a record stand in the order of its
members.
-/

namespace RpcGateway
namespace Schema

inductive Kind (ρ : Type)
  | text
  /-- A truth value. -/
  | flag
  /-- An integer within bounds; the title names its type in messages. -/
  | integer (title : String) (least greatest : Int)
  /-- A 64-bit integer that is written as a decimal string. -/
  | int64
  /-- Any JSON value. -/
  | any
  | record (name : ρ)
  deriving DecidableEq, Repr

/-- How many values a member holds. -/
inductive Arity
  | single
  | optional
  | list
  deriving DecidableEq, Repr

inductive Datum
  | text (s : String)
  | flag (b : Bool)
  | whole (n : Int)
  | json (v : Json.Value)
  | absent
  | list (items : List Datum)
  | record (fields : List Datum)
  deriving Repr, Inhabited

structure Member (ρ : Type) where
  key : String
  kind : Kind ρ
  /-- How many values it holds. -/
  arity : Arity := .single
  absence : Option Datum := none

end Schema

structure Schema (ρ : Type) where
  /-- The name of a record in messages. -/
  title : ρ → String
  /-- The members of a record, in order. -/
  members : ρ → List (Schema.Member ρ)

namespace Schema

/-- The data of a record before any member is read. -/
abbrev Slots := List (String × Datum)

/-- The greatest and least values of the fixed-width integers. -/
def int32 {ρ : Type} : Kind ρ := .integer "i32" (-2147483648) 2147483647

/-- A 32-bit unsigned integer. -/
def uint32 {ρ : Type} : Kind ρ := .integer "u32" 0 4294967295

/-- A 64-bit unsigned integer. -/
def uint64 {ρ : Type} : Kind ρ := .integer "u64" 0 18446744073709551615

/-- A count of bytes. -/
def size {ρ : Type} : Kind ρ := .integer "usize" 0 18446744073709551615

/-- What was found in the place of an expected value. -/
def numberPhrase : Json.Number → String
  | .integer n => s!"integer `{Decimal.text n}`"
  | .real x => s!"floating point `{String.ofList x.literal}`"

/-- What was found in the place of an expected value. -/
def phrase : Json.Value → String
  | .null => "null"
  | .boolean true => "boolean `true`"
  | .boolean false => "boolean `false`"
  | .number n => numberPhrase n
  | .string s => "string " ++ Quoted.quote s
  | .array _ => "sequence"
  | .object _ => "map"

/-- What is expected of a 64-bit integer member. -/
def int64Title : String :=
  "a 64-bit integer as a number or a decimal string"

/-- A value of another type than expected. -/
def invalidType (found expected : String) : String :=
  s!"invalid type: {found}, expected {expected}"

/-- A value of the expected type that is out of range. -/
def invalidValue (found expected : String) : String :=
  s!"invalid value: {found}, expected {expected}"

/-- A list of the wrong length. -/
def invalidLength (n : Nat) (expected : String) : String :=
  s!"invalid length {n}, expected {expected}"

/-- A record written as a list. -/
def recordTitle (title : String) (n : Nat) : String :=
  if n = 1 then s!"struct {title} with 1 element" else s!"struct {title} with {n} elements"

/-- Reads a 64-bit integer from a number; a floating-point number must be an integer. -/
def int64OfNumber (n : Json.Number) : Except String Int :=
  match n with
  | .integer i =>
      if Decimal.minInt64 ≤ i ∧ i ≤ Decimal.maxInt64 then .ok i
      else .error (invalidValue (numberPhrase n) int64Title)
  | .real x =>
      match x.toInt? with
      | some i =>
          if Decimal.minInt64 ≤ i ∧ i ≤ Decimal.maxInt64 then .ok i
          else .error (invalidValue (numberPhrase n) int64Title)
      | none => .error (invalidValue (numberPhrase n) int64Title)

/-- Reads a 64-bit integer from a decimal string. -/
def int64OfText (s : String) : Except String Int :=
  match Decimal.within? Decimal.minInt64 Decimal.maxInt64 s.toList with
  | some i => .ok i
  | none => .error (invalidValue ("string " ++ Quoted.quote s) int64Title)

/-- Reads an integer within bounds from a number. -/
def integerOfNumber (title : String) (least greatest : Int) (n : Json.Number) :
    Except String Int :=
  match n with
  | .integer i =>
      if least ≤ i ∧ i ≤ greatest then .ok i else .error (invalidValue (numberPhrase n) title)
  | .real _ => .error (invalidType (numberPhrase n) title)

/-- The datum of a key, if it was read. -/
def Slots.get? (slots : Slots) (key : String) : Option Datum :=
  slots.lookup key

/-- The data of a record from the members that were read, in order. -/
def complete {ρ : Type} (slots : Slots) : List (Member ρ) → Except String (List Datum)
  | [] => .ok []
  | m :: rest =>
      match slots.get? m.key, m.absence with
      | some d, _ => (complete slots rest).map (d :: ·)
      | none, some d => (complete slots rest).map (d :: ·)
      | none, none => .error s!"missing field `{m.key}`"

end Schema
end RpcGateway
