import RpcGateway.Number.Binary64

/-!
# Floating-point numerals

The texts that stand for a floating-point number: decimal digits with an optional point, an optional
exponent and an optional sign, or one of the words for infinity and for a NaN in any letter case.

**Digits.**  A digit has to stand on one side of the point at least.
-/

namespace RpcGateway
namespace Numeral

/-- The digits at the front of a text, and what follows. -/
def digits (cs : List Char) : List Char × List Char :=
  (cs.takeWhile Char.isDigit, cs.dropWhile Char.isDigit)

/-- The digits behind a point at the front of a text, and what follows. -/
def fractionDigits : List Char → List Char × List Char
  | '.' :: cs => digits cs
  | cs => ([], cs)

/-- The exponent that is all of a text; none is zero. -/
def exponent? : List Char → Option Int
  | [] => some 0
  | c :: cs => if c = 'e' ∨ c = 'E' then Decimal.signed? cs else none

/-- The magnitude that a text without a sign stands for. -/
def magnitude? (cs : List Char) : Option Binary64 :=
  let (whole, rest) := digits cs
  let (fraction, rest) := fractionDigits rest
  match Decimal.digits? (whole ++ fraction), exponent? rest with
  | some n, some e => some (Binary64.ofDecimal n (e - fraction.length))
  | _, _ => none

/-- The number that a word in lower case stands for. -/
def word? (cs : List Char) : Option Binary64 :=
  let lower := String.ofList (cs.map Char.toLower)
  if lower = "inf" ∨ lower = "infinity" then some Binary64.infinity
  else if lower = "nan" then some Binary64.nan
  else none

/-- The number that a text without a sign stands for. -/
def unsigned? (cs : List Char) : Option Binary64 :=
  (magnitude? cs).orElse fun _ => word? cs

def number? : List Char → Option Binary64
  | '+' :: cs => unsigned? cs
  | '-' :: cs => (unsigned? cs).map Binary64.neg
  | cs => unsigned? cs

end Numeral
end RpcGateway
