import RpcGateway.Message.Type
import RpcGateway.Wire.Varint

/-!
# The binary form of messages

A message is written field by field.  A key holds the tag of the field and says how its value is
written; then comes the value.

**Faults.**  A fault has a cause and the fields around the place where it was noticed, innermost
first.
-/

namespace RpcGateway
namespace Wire

/-- How a value is written. -/
inductive Form
  | varint
  | sixtyFourBit
  | lengthDelimited
  | startGroup
  | endGroup
  | thirtyTwoBit
  deriving DecidableEq, Repr

namespace Form

def ofNat? : Nat → Option Form
  | 0 => some varint
  | 1 => some sixtyFourBit
  | 2 => some lengthDelimited
  | 3 => some startGroup
  | 4 => some endGroup
  | 5 => some thirtyTwoBit
  | _ => none

def toNat : Form → Nat
  | varint => 0
  | sixtyFourBit => 1
  | lengthDelimited => 2
  | startGroup => 3
  | endGroup => 4
  | thirtyTwoBit => 5

/-- The name of a form in messages. -/
def title : Form → String
  | varint => "Varint"
  | sixtyFourBit => "SixtyFourBit"
  | lengthDelimited => "LengthDelimited"
  | startGroup => "StartGroup"
  | endGroup => "EndGroup"
  | thirtyTwoBit => "ThirtyTwoBit"

end Form

/-- Why bytes are not a message. -/
inductive Cause
  | invalidVarint
  | bufferUnderflow
  | invalidTag
  | invalidForm (n : Nat)
  | invalidKey (n : Nat)
  | unexpectedForm (found expected : Form)
  | invalidText
  | unexpectedEndGroup
  | lengthExceeded
  | tooDeep
  deriving DecidableEq, Repr

def Cause.message : Cause → String
  | .invalidVarint => "invalid varint"
  | .bufferUnderflow => "buffer underflow"
  | .invalidTag => "invalid tag value: 0"
  | .invalidForm n => s!"invalid wire type value: {n}"
  | .invalidKey n => s!"invalid key value: {n}"
  | .unexpectedForm found expected =>
      s!"invalid wire type: {found.title} (expected {expected.title})"
  | .invalidText => "invalid string value: data is not UTF-8 encoded"
  | .unexpectedEndGroup => "unexpected end group tag"
  | .lengthExceeded => "delimited length exceeded"
  | .tooDeep => "recursion limit reached"

/-- A cause and the fields around it. -/
structure Fault where
  cause : Cause
  /-- Message and field names, innermost first. -/
  path : List (String × String) := []
  deriving DecidableEq, Repr

def Fault.message (f : Fault) : String :=
  f.path.foldl (fun s p => s ++ p.1 ++ "." ++ p.2 ++ ": ")
    "failed to decode Protobuf message: " ++ f.cause.message

/-- The fault seen from the field around it. -/
def Fault.within (t : MessageType) (field : String) (f : Fault) : Fault :=
  { f with path := f.path ++ [(t.title, field)] }

def key (tag : Nat) (form : Form) : List UInt8 :=
  varint (tag * 8 + form.toNat)

end Wire
end RpcGateway
