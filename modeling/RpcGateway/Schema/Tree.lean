import RpcGateway.Schema.Basic

/-!
# Reading a record from a value tree

A record is an object, whose unknown members are ignored, or a list of its members in order.  An
optional member takes a null; a list member does not.

**Faults.**  The members of an object are read in the order of their keys, and the first that does
not fit decides the message; only then are missing members noticed.  A fault in a tree has no
place.
-/

namespace RpcGateway
namespace Schema

variable {ρ : Type}

/-- Reads a value that is not a record. -/
def scalarOfValue : Kind ρ → Json.Value → Except String Datum
  | .text, .string s => .ok (.text s)
  | .text, v => .error (invalidType (phrase v) "a string")
  | .flag, .boolean b => .ok (.flag b)
  | .flag, v => .error (invalidType (phrase v) "a boolean")
  | .integer title least greatest, .number n =>
      (integerOfNumber title least greatest n).map .whole
  | .integer title _ _, v => .error (invalidType (phrase v) title)
  | .int64, .null => .ok (.whole 0)
  | .int64, .number n => (int64OfNumber n).map .whole
  | .int64, .string s => (int64OfText s).map .whole
  | .int64, v => .error (invalidType (phrase v) int64Title)
  | .any, v => .ok (.json v)
  | .record _, _ => .ok .absent

/-- The member of a record with the given key. -/
def member? (schema : Schema ρ) (name : ρ) (key : String) : Option (Member ρ) :=
  (schema.members name).find? (·.key == key)

mutual

/-- Reads a value of the given kind and arity. -/
def ofValue (schema : Schema ρ) (arity : Arity) (kind : Kind ρ) :
    Json.Value → Except String Datum
  | .null =>
      match arity, kind with
      | .optional, _ => .ok .absent
      | .list, _ => .error (invalidType "null" "a sequence")
      | .single, .record name => .error (invalidType "null" ("struct " ++ schema.title name))
      | .single, kind => scalarOfValue kind .null
  | .array items =>
      match arity, kind with
      | .list, kind => (ofItems schema kind items).map .list
      | _, .record name =>
          match ofPositions schema name (schema.members name) 0 items with
          | .error e => .error e
          | .ok (fields, read) =>
              if read < items.length then
                .error (invalidLength items.length "fewer elements in array")
              else .ok (.record fields)
      | _, kind => scalarOfValue kind (.array items)
  | .object ms =>
      match arity, kind with
      | .list, _ => .error (invalidType "map" "a sequence")
      | _, .record name =>
          match ofMembers schema name ms with
          | .error e => .error e
          | .ok slots => (complete slots (schema.members name)).map .record
      | _, kind => scalarOfValue kind (.object ms)
  | v =>
      match arity, kind with
      | .list, _ => .error (invalidType (phrase v) "a sequence")
      | _, .record name => .error (invalidType (phrase v) ("struct " ++ schema.title name))
      | _, kind => scalarOfValue kind v

def ofItems (schema : Schema ρ) (kind : Kind ρ) : List Json.Value → Except String (List Datum)
  | [] => .ok []
  | v :: rest =>
      match ofValue schema .single kind v with
      | .error e => .error e
      | .ok d => (ofItems schema kind rest).map (d :: ·)

/-- Reads the known members of an object. -/
def ofMembers (schema : Schema ρ) (name : ρ) :
    List (String × Json.Value) → Except String Slots
  | [] => .ok []
  | (key, v) :: rest =>
      match member? schema name key with
      | none => ofMembers schema name rest
      | some m =>
          match ofValue schema m.arity m.kind v with
          | .error e => .error e
          | .ok d => (ofMembers schema name rest).map ((key, d) :: ·)

/-- Reads the members of a record from a list; the count says how many items were read. -/
def ofPositions (schema : Schema ρ) (name : ρ) :
    List (Member ρ) → Nat → List Json.Value → Except String (List Datum × Nat)
  | [], read, _ => .ok ([], read)
  | m :: ms, read, [] =>
      match m.absence with
      | none =>
          .error (invalidLength read
            (recordTitle (schema.title name) (schema.members name).length))
      | some d => (ofPositions schema name ms read []).map fun r => (d :: r.1, r.2)
  | m :: ms, read, v :: rest =>
      match ofValue schema m.arity m.kind v with
      | .error e => .error e
      | .ok d => (ofPositions schema name ms (read + 1) rest).map fun r => (d :: r.1, r.2)

end

/-- Reads a whole record from a value tree. -/
def recordOfValue (schema : Schema ρ) (name : ρ) (v : Json.Value) :
    Except String (List Datum) :=
  match ofValue schema .single (.record name) v with
  | .ok (.record fields) => .ok fields
  | .ok _ => .error (invalidType (phrase v) ("struct " ++ schema.title name))
  | .error e => .error e

end Schema
end RpcGateway
