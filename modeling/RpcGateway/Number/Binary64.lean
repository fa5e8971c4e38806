import RpcGateway.Text.Decimal

/-!
# Binary floating point in exact arithmetic

A 64-bit floating-point number is its word: a sign, eleven exponent bits and a 52-bit fraction.
All arithmetic here is exact arithmetic of natural numbers followed by one rounding, so nothing
depends on the machine's floating-point unit.

**Rounding.**  `ofRatio num den` is the number nearest to `num / den`, a tie going to the even
significand; what is too large becomes infinite.  Products and quotients round the exact result
once.

**Reading values.**  A finite number is `±significand · 2 ^ exponent`; `toInt?` gives the value
when it is an integer.
-/

namespace RpcGateway

/-- A 64-bit floating-point number, by its word. -/
structure Binary64 where
  /-- Sign, exponent and fraction. -/
  bits : UInt64
  deriving DecidableEq, Repr

namespace Binary64

/-- Whether the sign bit is set. -/
def isNegative (x : Binary64) : Bool :=
  decide (Nat.pow 2 63 ≤ x.bits.toNat)

/-- The eleven exponent bits. -/
def exponentField (x : Binary64) : Nat :=
  x.bits.toNat / Nat.pow 2 52 % 2048

/-- The 52 fraction bits. -/
def fraction (x : Binary64) : Nat :=
  x.bits.toNat % Nat.pow 2 52

/-- Neither infinite nor a NaN. -/
def isFinite (x : Binary64) : Bool :=
  x.exponentField != 2047

/-- Infinite, of either sign. -/
def isInfinite (x : Binary64) : Bool :=
  x.exponentField == 2047 && x.fraction == 0

def isNaN (x : Binary64) : Bool :=
  x.exponentField == 2047 && x.fraction != 0

/-- The integer that is scaled by `2 ^ exponent`. -/
def significand (x : Binary64) : Nat :=
  if x.exponentField = 0 then x.fraction else x.fraction + Nat.pow 2 52

/-- The power of two that scales the significand. -/
def exponent (x : Binary64) : Int :=
  (max x.exponentField 1 : Nat) - 1075

def zero : Binary64 := ⟨0⟩

def infinity : Binary64 := ⟨0x7FF0000000000000⟩

def nan : Binary64 := ⟨0x7FF8000000000000⟩

/-- The same magnitude with the other sign. -/
def neg (x : Binary64) : Binary64 :=
  ⟨x.bits ^^^ 0x8000000000000000⟩

/-- Division rounded to the nearest integer, a tie to the even one. -/
def roundDiv (num den : Nat) : Nat :=
  let q := num / den
  let r := num % den
  if den < 2 * r ∨ (2 * r = den ∧ q % 2 = 1) then q + 1 else q

/-- The power of two `e` with `2 ^ e ≤ num / den < 2 ^ (e + 1)`. -/
def binaryOrder (num den : Nat) : Int :=
  let e : Int := (Nat.log2 num : Int) - Nat.log2 den
  if num * Nat.pow 2 (-e).toNat < den * Nat.pow 2 e.toNat then e - 1 else e

/-- The nearest number to `num / den`. -/
def ofRatio (num den : Nat) : Binary64 :=
  if num = 0 then zero
  else
    let s : Int := max (binaryOrder num den - 52) (-1074)
    let q := roundDiv (num * Nat.pow 2 (-s).toNat) (den * Nat.pow 2 s.toNat)
    let word := (s + 1074).toNat * Nat.pow 2 52 + q
    if word < infinity.bits.toNat then ⟨UInt64.ofNat word⟩ else infinity

/-- The nearest number to a natural number. -/
def ofNat (n : Nat) : Binary64 :=
  ofRatio n 1

/-- The nearest number to an integer. -/
def ofInt : Int → Binary64
  | .ofNat n => ofNat n
  | .negSucc n => neg (ofNat (n + 1))

/-- The nearest number to `m · 2 ^ e`. -/
def ofScaled (m : Nat) (e : Int) : Binary64 :=
  ofRatio (m * Nat.pow 2 e.toNat) (Nat.pow 2 (-e).toNat)

/-- The rounded product of two magnitudes. -/
def mul (x y : Binary64) : Binary64 :=
  ofScaled (x.significand * y.significand) (x.exponent + y.exponent)

/-- The rounded quotient of two magnitudes, the second not zero. -/
def div (x y : Binary64) : Binary64 :=
  let e := x.exponent - y.exponent
  ofRatio (x.significand * Nat.pow 2 e.toNat) (y.significand * Nat.pow 2 (-e).toNat)

/-- The nearest number to a power of ten. -/
def powerOfTen (k : Nat) : Binary64 :=
  ofNat (Nat.pow 10 k)

/-- The nearest number to `digits · 10 ^ k`; far outside the range no power is computed. -/
def ofDecimal (digits : Nat) (k : Int) : Binary64 :=
  let order : Int := (Nat.toDigits 10 digits).length + k
  if digits = 0 then zero
  else if 400 < order then infinity
  else if order < -400 then zero
  else ofRatio (digits * Nat.pow 10 k.toNat) (Nat.pow 10 (-k).toNat)

/-- The magnitude as a fraction with a power of two as its denominator. -/
def magnitude (x : Binary64) : Nat × Nat :=
  (x.significand * Nat.pow 2 x.exponent.toNat, Nat.pow 2 (-x.exponent).toNat)

/-- The value, when it is finite and an integer. -/
def toInt? (x : Binary64) : Option Int :=
  if x.isFinite then
    let (num, den) := x.magnitude
    if num % den = 0 then
      some (if x.isNegative then -((num / den : Nat) : Int) else ((num / den : Nat) : Int))
    else none
  else none

/-- The magnitude of a finite number rounded to an integer, a half going up. -/
def roundMagnitude (x : Binary64) : Nat :=
  let (num, den) := x.magnitude
  (2 * num + den) / (2 * den)

end Binary64
end RpcGateway
