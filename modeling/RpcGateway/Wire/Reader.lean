import RpcGateway.Wire.Writer

/-!
# Reading the binary form

A message starts from its zero value and takes field after field from the bytes; a field that comes
again replaces a single value, is merged into a message, and is appended to a list.

**Unknown fields.**  They are stepped over, groups included.

**Nesting.**  A message inside a message is read from the bytes of the outer one up to its length;
it must end exactly there.  At most a hundred messages or groups nest.
-/

namespace RpcGateway
namespace Wire

open Schema

/-- How deep messages and groups may nest. -/
def maxDepth : Nat := 100

abbrev Step (α : Type) := Except Fault (α × List UInt8)

/-- Reads a number, or reports that none stands there. -/
def takeVarint (bytes : List UInt8) : Step Nat :=
  match readVarint bytes with
  | some r => .ok r
  | none => .error ⟨.invalidVarint, []⟩

/-- Reads the key of a field: its tag and the form of its value. -/
def takeKey (bytes : List UInt8) : Step (Nat × Form) :=
  match takeVarint bytes with
  | .error f => .error f
  | .ok (n, rest) =>
      if 4294967295 < n then .error ⟨.invalidKey n, []⟩
      else match Form.ofNat? (n % 8) with
        | none => .error ⟨.invalidForm (n % 8), []⟩
        | some form => if n / 8 = 0 then .error ⟨.invalidTag, []⟩ else .ok ((n / 8, form), rest)

/-- Goes on with `next` if the value is in the form that the field has. -/
def expectForm {α : Type} (found expected : Form) (next : Step α) : Step α :=
  if found = expected then next else .error ⟨.unexpectedForm found expected, []⟩

def dropBytes (n : Nat) (bytes : List UInt8) : Except Fault (List UInt8) :=
  if bytes.length < n then .error ⟨.bufferUnderflow, []⟩ else .ok (bytes.drop n)

mutual

/-- Steps over the value of an unknown field. -/
def skipField : Nat → Nat → Form → Nat → List UInt8 → Except Fault (List UInt8)
  | _, 0, _, _, _ => .error ⟨.tooDeep, []⟩
  | 0, _, _, _, _ => .error ⟨.invalidVarint, []⟩
  | fuel + 1, depth + 1, form, tag, bytes =>
      match form with
      | .varint => (takeVarint bytes).map (·.2)
      | .thirtyTwoBit => dropBytes 4 bytes
      | .sixtyFourBit => dropBytes 8 bytes
      | .lengthDelimited => (takeVarint bytes).bind fun r => dropBytes r.1 r.2
      | .startGroup => skipGroup fuel depth tag bytes
      | .endGroup => .error ⟨.unexpectedEndGroup, []⟩

/-- Steps over the fields of a group and its end. -/
def skipGroup : Nat → Nat → Nat → List UInt8 → Except Fault (List UInt8)
  | 0, _, _, _ => .error ⟨.invalidVarint, []⟩
  | fuel + 1, depth, tag, bytes =>
      match takeKey bytes with
      | .error f => .error f
      | .ok ((inner, form), rest) =>
          if form = .endGroup then
            if inner = tag then .ok rest else .error ⟨.unexpectedEndGroup, []⟩
          else
            match skipField fuel depth form inner rest with
            | .error f => .error f
            | .ok rest => skipGroup fuel depth tag rest

end

/-- Reads a text with its length in front. -/
def takeText (bytes : List UInt8) : Step Datum :=
  match takeVarint bytes with
  | .error f => .error f
  | .ok (n, rest) =>
      if rest.length < n then .error ⟨.bufferUnderflow, []⟩
      else match Utf8.text? (rest.take n) with
        | some s => .ok (.text s, rest.drop n)
        | none => .error ⟨.invalidText, []⟩

/-- The value of a kind that a number stands for. -/
def scalarOfVarint (kind : Kind MessageType) (n : Nat) : Datum :=
  match kind with
  | .flag => .flag (n != 0)
  | .int64 => .whole (signed 64 n)
  | .integer _ least _ => .whole (if least < 0 then signed 32 n else (n % 4294967296 : Nat))
  | _ => .absent

/-- Reads a number or truth value. -/
def takeScalar (kind : Kind MessageType) (bytes : List UInt8) : Step Datum :=
  (takeVarint bytes).map fun r => (scalarOfVarint kind r.1, r.2)

/-- Reads numbers until `limit` bytes are left. -/
def takeScalars (kind : Kind MessageType) (limit : Nat) : Nat → List UInt8 → Step (List Datum)
  | 0, bytes => .ok ([], bytes)
  | fuel + 1, bytes =>
      if bytes.length ≤ limit then .ok ([], bytes)
      else match takeScalar kind bytes with
        | .error f => .error f
        | .ok (d, rest) => (takeScalars kind limit fuel rest).map fun r => (d :: r.1, r.2)

/-- Reads a length and then, with `inside`, what it spans; that must end exactly there. -/
def takeSpan {α : Type} (inside : Nat → List UInt8 → Step α) (bytes : List UInt8) : Step α :=
  match takeVarint bytes with
  | .error f => .error f
  | .ok (n, rest) =>
      if rest.length < n then .error ⟨.bufferUnderflow, []⟩
      else
        let limit := rest.length - n
        match inside limit rest with
        | .error f => .error f
        | .ok (x, rest) =>
            if rest.length = limit then .ok (x, rest) else .error ⟨.lengthExceeded, []⟩

def itemsOf : Datum → List Datum
  | .list items => items
  | _ => []

/-- The fields of a message datum, or those of the zero message. -/
def fieldsOf (t : MessageType) : Datum → List Datum
  | .record ds => ds
  | _ => (Message.zero t).fields

/-- Reads the value of a field onto what the field holds; `message` reads a message that is not too
deep. -/
def takeField (message : MessageType → List Datum → List UInt8 → Step (List Datum))
    (f : MessageField) (form : Form) (held : Datum) (bytes : List UInt8) : Step Datum :=
  match f.kind, f.arity with
  | .text, .list =>
      expectForm form .lengthDelimited <|
        (takeText bytes).map fun r => (.list (itemsOf held ++ [r.1]), r.2)
  | .text, _ => expectForm form .lengthDelimited (takeText bytes)
  | .record t, .list =>
      expectForm form .lengthDelimited <|
        (message t (Message.zero t).fields bytes).map fun r =>
          (.list (itemsOf held ++ [.record r.1]), r.2)
  | .record t, _ =>
      expectForm form .lengthDelimited <|
        (message t (fieldsOf t held) bytes).map fun r => (.record r.1, r.2)
  | kind, .list =>
      if form = .lengthDelimited then
        (takeSpan (fun limit bs => takeScalars kind limit (bs.length + 1) bs) bytes).map fun r =>
          (.list (itemsOf held ++ r.1), r.2)
      else
        expectForm form .varint <|
          (takeScalar kind bytes).map fun r => (.list (itemsOf held ++ [r.1]), r.2)
  | kind, _ => expectForm form .varint (takeScalar kind bytes)

/-- Reads fields until `limit` bytes are left. -/
def takeFields : Nat → Nat → MessageType → Nat → List Datum → List UInt8 → Step (List Datum)
  | 0, _, _, _, fields, bytes => .ok (fields, bytes)
  | fuel + 1, depth, t, limit, fields, bytes =>
      if bytes.length ≤ limit then .ok (fields, bytes)
      else
        match takeKey bytes with
        | .error f => .error f
        | .ok ((tag, form), rest) =>
            match t.field? tag with
            | none =>
                match skipField (rest.length + 1) depth form tag rest with
                | .error f => .error f
                | .ok rest => takeFields fuel depth t limit fields rest
            | some (i, f) =>
                let message (u : MessageType) (held : List Datum) (bs : List UInt8) :
                    Step (List Datum) :=
                  if depth = 0 then .error ⟨.tooDeep, []⟩
                  else takeSpan (fun l bs => takeFields fuel (depth - 1) u l held bs) bs
                match takeField message f form (fields.getD i .absent) rest with
                | .error e => .error (e.within t f.name)
                | .ok (d, rest) => takeFields fuel depth t limit (fields.set i d) rest

end Wire

/-- Reads a message from its binary form. -/
def Message.ofWire (t : MessageType) (bytes : List UInt8) : Except Wire.Fault Message :=
  match Wire.takeFields (bytes.length + 1) Wire.maxDepth t 0 (Message.zero t).fields bytes with
  | .ok (fields, _) => .ok ⟨t, fields⟩
  | .error f => .error f

end RpcGateway
