import RpcGateway.Number.Binary64

/-!
# The shortest decimal of a floating-point number

Every number whose nearest floating-point number is `x` lies in an interval around `x` (its ends
included when the significand is even).  The shortest decimal of `x` is the point of the coarsest
decimal grid that meets the interval; of two such points the nearer one, of two equally near ones
the even one.

**Forms.**
* `positional`: no exponent, and no point after an integer;
* `literal`: the form of a number in JSON text, with an exponent outside `1e-5 ≤ |x| < 1e16` and
  always with a fraction or an exponent.
-/

namespace RpcGateway
namespace Binary64

/-- A decimal `digits · 10 ^ exponent`. -/
structure Scientific where
  /-- The significant digits, as a number. -/
  digits : Nat
  /-- The power of ten that scales them. -/
  exponent : Int
  deriving DecidableEq, Repr

/-- The numbers that round to a given one, over a common denominator. -/
structure Interval where
  /-- Numerator of the lower end. -/
  low : Nat
  /-- Numerator of the number itself. -/
  value : Nat
  /-- Numerator of the upper end. -/
  high : Nat
  den : Nat
  /-- Whether the ends belong to the interval. -/
  closed : Bool

/-- The interval of a positive finite number. -/
def interval (x : Binary64) : Interval :=
  let m := x.significand
  let e := x.exponent - 2
  let scale := Nat.pow 2 e.toNat
  let below := if m = Nat.pow 2 52 ∧ 1 < x.exponentField then 1 else 2
  { low := (4 * m - below) * scale
    value := 4 * m * scale
    high := (4 * m + 2) * scale
    den := Nat.pow 2 (-e).toNat
    closed := m % 2 == 0 }

/-- Whether `g · 10 ^ k` lies in the interval. -/
def Interval.contains (i : Interval) (g : Nat) (k : Int) : Bool :=
  let point := g * Nat.pow 10 k.toNat * i.den
  let low := i.low * Nat.pow 10 (-k).toNat
  let high := i.high * Nat.pow 10 (-k).toNat
  if i.closed then low ≤ point && point ≤ high else low < point && point < high

/-- The point of the grid `10 ^ k` that stands for the interval, if one lies in it. -/
def Interval.gridPoint? (i : Interval) (k : Int) : Option Nat :=
  let num := i.value * Nat.pow 10 (-k).toNat
  let den := Nat.pow 10 k.toNat * i.den
  let g := num / den
  let r := num % den
  match decide (0 < g) && i.contains g k, i.contains (g + 1) k with
  | true, true =>
      if 2 * r < den then some g
      else if den < 2 * r then some (g + 1)
      else some (if g % 2 = 0 then g else g + 1)
  | true, false => some g
  | false, true => some (g + 1)
  | false, false => none

/-- The first grid, from `10 ^ k` downwards, with a point in the interval. -/
def Interval.coarsest (i : Interval) : Nat → Int → Scientific
  | 0, k => ⟨0, k⟩
  | fuel + 1, k =>
      match i.gridPoint? k with
      | some g => ⟨g, k⟩
      | none => i.coarsest fuel (k - 1)

/-- The shortest decimal of a positive finite number. -/
def shortest (x : Binary64) : Scientific :=
  let order : Int := (Nat.log2 x.significand : Int) + x.exponent + 1
  x.interval.coarsest 400 (order * 30103 / 100000 + 1)

/-- A digit string with a point `n` places from its front. -/
def withPoint (ds : List Char) (n : Nat) : List Char :=
  ds.take n ++ '.' :: ds.drop n

/-- The magnitude written without an exponent. -/
def positionalDigits (d : Scientific) : List Char :=
  let ds := Decimal.ofNat d.digits
  let places : Int := ds.length + d.exponent
  if 0 ≤ d.exponent then ds ++ List.replicate d.exponent.toNat '0'
  else if 0 < places then withPoint ds places.toNat
  else '0' :: '.' :: (List.replicate (-places).toNat '0' ++ ds)

/-- The text without an exponent; an integer has no point. -/
def positional (x : Binary64) : List Char :=
  if x.isNaN then "NaN".toList
  else
    let sign := if x.isNegative then ['-'] else []
    if x.isInfinite then sign ++ "inf".toList
    else if x.significand = 0 then sign ++ ['0']
    else sign ++ positionalDigits x.shortest

/-- The magnitude as it is written in JSON text. -/
def literalDigits (d : Scientific) : List Char :=
  let ds := Decimal.ofNat d.digits
  let places : Int := ds.length + d.exponent
  if -5 < places ∧ places ≤ 16 then
    if 0 ≤ d.exponent then positionalDigits d ++ ['.', '0'] else positionalDigits d
  else
    let head := if ds.length = 1 then ds else withPoint ds 1
    let e := places - 1
    head ++ 'e' :: (if 0 ≤ e then '+' :: Decimal.ofInt e else Decimal.ofInt e)

/-- The text of a finite number in JSON. -/
def literal (x : Binary64) : List Char :=
  let sign := if x.isNegative then ['-'] else []
  if x.significand = 0 then sign ++ ['0', '.', '0']
  else sign ++ literalDigits x.shortest

end Binary64
end RpcGateway
