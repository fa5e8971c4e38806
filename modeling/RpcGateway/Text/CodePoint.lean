import RpcGateway.Text.Ascii

/-!
# Character codes

An escape may give a character by its code: so many hexadecimal digits, as many as the kind of the
escape says.
-/

namespace RpcGateway
namespace CodePoint

def value? (digits : List Char) : Option Nat :=
  digits.foldlM (fun n c => (Ascii.hexValue? c).map fun d => n * 16 + d) 0

def char? (code : Nat) : Option Char :=
  if h : code.isValidChar then some (Char.ofNatAux code h) else none

/-- Reads a code of so many digits at the front of a text. -/
def read (count : Nat) (cs : List Char) : Option (Char × List Char) :=
  let digits := cs.take count
  if digits.length < count then none
  else ((value? digits).bind char?).map fun c => (c, cs.drop count)

end CodePoint
end RpcGateway
