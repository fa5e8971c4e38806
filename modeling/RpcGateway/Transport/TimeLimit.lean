import RpcGateway.Call.Timeout
import RpcGateway.Http.HeaderMap

/-!
# Time limits on the wire

The time that a remote call may take travels as a header line of at most eight digits and a unit.
It is written in the finest unit that fits, and a limit that cannot be read is no limit.
-/

namespace RpcGateway
namespace Timeout

/-- The units, the finest first. -/
def units : List Char :=
  ['n', 'u', 'm', 'S', 'M', 'H']

/-- The greatest number of units that fits into eight digits. -/
def greatest : Nat := 99999999

def textIn (span : Nat) (unit : Char) : Option String :=
  (unit? unit).bind fun length =>
    if span / length ≤ greatest then
      some (Decimal.text (span / length : Nat) ++ String.ofList [unit])
    else none

/-- The text of a span of time in the finest unit that fits. -/
def text? (span : Nat) : Option String :=
  units.findSome? (textIn span)

def limitOfText? (s : String) : Option Nat :=
  match split? s.toList with
  | none => none
  | some (digits, unit) =>
      if 8 < digits.length then none
      else
        match Decimal.unsigned? Decimal.maxUInt64 digits, unit? unit with
        | some n, some length => some (n * length)
        | _, _ => none

/-- The limit that header lines set. -/
def limit? (h : HeaderMap) : Option Nat :=
  ((h.get? headerName).bind HeaderValue.text?).bind limitOfText?

end Timeout
end RpcGateway
