import RpcGateway.Message.Basic
import RpcGateway.Wire.Format

/-!
# Writing the binary form

Fields are written in the order of their tags.  A field that holds its zero value is left out; a
message that is present is written even when it is empty.  The scores of a list of numbers share
one key, the items of any other list have a key each.
-/

namespace RpcGateway
namespace Wire

open Schema

/-- Bytes with their length in front. -/
def delimited (bytes : List UInt8) : List UInt8 :=
  varint bytes.length ++ bytes

/-- Whether the items of a list share one key. -/
def isPacked : Kind MessageType → Bool
  | .flag | .integer .. | .int64 => true
  | _ => false

/-- The varint of a number or truth value. -/
def scalarBytes : Datum → List UInt8
  | .whole n => varint (wrap64 n)
  | .flag b => varint (if b then 1 else 0)
  | _ => []

/-- Whether a datum is the zero value of a single field. -/
def isZero : Datum → Bool
  | .text s => s.isEmpty
  | .flag b => !b
  | .whole n => n == 0
  | .absent => true
  | _ => false

mutual

/-- The bytes of a single value with its key. -/
def writeDatum (tag : Nat) (kind : Kind MessageType) : Datum → List UInt8
  | .text s => key tag .lengthDelimited ++ delimited (Utf8.bytes s)
  | .flag b => key tag .varint ++ scalarBytes (.flag b)
  | .whole n => key tag .varint ++ scalarBytes (.whole n)
  | .record ds =>
      match kind with
      | .record t => key tag .lengthDelimited ++ delimited (writeFields t.fields ds)
      | _ => []
  | .list items =>
      if isPacked kind then
        match items with
        | [] => []
        | d :: ds => key tag .lengthDelimited ++ delimited ((d :: ds).flatMap scalarBytes)
      else writeItems tag kind items
  | .absent => []
  | .json _ => []

/-- The bytes of the items of a list, each with its key. -/
def writeItems (tag : Nat) (kind : Kind MessageType) : List Datum → List UInt8
  | [] => []
  | d :: ds => writeDatum tag kind d ++ writeItems tag kind ds

def writeFields : List MessageField → List Datum → List UInt8
  | f :: fs, d :: ds =>
      (if isZero d then [] else writeDatum f.tag f.kind d) ++ writeFields fs ds
  | _, _ => []

end

end Wire

/-- The binary form of a message. -/
def Message.toWire (m : Message) : List UInt8 :=
  Wire.writeFields m.type.fields m.fields

end RpcGateway
