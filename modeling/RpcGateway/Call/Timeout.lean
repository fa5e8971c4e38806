import RpcGateway.Text.Blank
import RpcGateway.Text.Decimal
import RpcGateway.Text.Utf8

/-!
# Timeouts of calls

The `Grpc-Timeout` header gives the time that a caller is ready to wait: up to eight digits and one
letter for the unit.  Times are counted in nanoseconds.

**Words.**  The amount is a word of 64 bits, and so are the seconds that hours and minutes make.

**Cutting.**  The letter is cut off by its size in bytes, so the place has to lie between two
characters.
-/

namespace RpcGateway
namespace Timeout

def headerName : String := "grpc-timeout"

/-- The length of a unit in nanoseconds. -/
def unit? : Char → Option Nat
  | 'H' => some 3600000000000
  | 'M' => some 60000000000
  | 'S' => some 1000000000
  | 'm' => some 1000000
  | 'u' => some 1000
  | 'n' => some 1
  | _ => none

/-- The span of so many seconds. -/
def ofSeconds (seconds : UInt64) : Nat :=
  seconds.toNat * 1000000000

/-- The span of an amount of a unit. -/
def span? (amount : UInt64) : Char → Option Nat
  | 'H' => some (ofSeconds (amount * 3600))
  | 'M' => some (ofSeconds (amount * 60))
  | 'S' => some (ofSeconds amount)
  | 'm' => some (amount.toNat * 1000000)
  | 'u' => some (amount.toNat * 1000)
  | 'n' => some amount.toNat
  | _ => none

/-- What stands before the last character of a text, and that character; nothing if the bytes cannot
be cut where the character should begin. -/
def split? (cs : List Char) : Option (List Char × Char) :=
  match cs.getLast? with
  | none => none
  | some last =>
      let bytes := Utf8.encode cs
      (Utf8.text? (bytes.take (bytes.length - last.utf8Size))).map fun s => (s.toList, last)

/-- The amount that one to eight digits give. -/
def amount? (digits : List Char) : Option UInt64 :=
  if digits.isEmpty || 8 < (Utf8.encode digits).length || !digits.all Char.isDigit then none
  else (Decimal.unsigned? Decimal.maxUInt64 digits).map UInt64.ofNat

/-- The nanoseconds of a timeout without blanks around it. -/
def parseTrimmed? (cs : List Char) : Option Nat :=
  match split? cs with
  | none => none
  | some (digits, unit) =>
      match amount? digits with
      | none => none
      | some amount => span? amount unit

def parse? (s : String) : Option Nat :=
  parseTrimmed? (Blank.trim s.toList)

end Timeout
end RpcGateway
