/-!
# Decimal numerals

Writing natural numbers and integers in base ten, and reading them within a range.

**Reading.**  A signed numeral is an optional sign and at least one digit; an unsigned one may
carry a plus sign only.  Nothing else is accepted, not even a blank or a separator.
-/

namespace RpcGateway
namespace Decimal

/-- The digits of a natural number. -/
def ofNat (n : Nat) : List Char :=
  Nat.toDigits 10 n

/-- The numeral of an integer. -/
def ofInt : Int → List Char
  | .ofNat n => ofNat n
  | .negSucc n => '-' :: ofNat (n + 1)

def text (n : Int) : String :=
  String.ofList (ofInt n)

/-- The value of a non-empty digit string. -/
def digits? (cs : List Char) : Option Nat :=
  if !cs.isEmpty && cs.all Char.isDigit then some (Nat.ofDigitChars 10 cs 0) else none

/-- The value of a numeral with an optional sign. -/
def signed? : List Char → Option Int
  | '+' :: cs => (digits? cs).map Int.ofNat
  | '-' :: cs => (digits? cs).map fun n => -Int.ofNat n
  | cs => (digits? cs).map Int.ofNat

/-- The value of a signed numeral that lies between the bounds. -/
def within? (least greatest : Int) (cs : List Char) : Option Int :=
  (signed? cs).filter fun n => decide (least ≤ n) && decide (n ≤ greatest)

/-- The value of an unsigned numeral that is at most `greatest`. -/
def unsigned? (greatest : Nat) : List Char → Option Nat
  | '+' :: cs => (digits? cs).filter (· ≤ greatest)
  | cs => (digits? cs).filter (· ≤ greatest)

/-- The least and greatest 64-bit signed integers, and the greatest unsigned one. -/
def minInt64 : Int := -9223372036854775808

/-- The greatest 64-bit signed integer. -/
def maxInt64 : Int := 9223372036854775807

/-- The greatest 64-bit unsigned integer. -/
def maxUInt64 : Nat := 18446744073709551615

theorem digits?_ofNat (n : Nat) : digits? (ofNat n) = some n := by
  have hne : (ofNat n).isEmpty = false := by
    unfold ofNat
    cases h : Nat.toDigits 10 n with
    | nil => exact absurd h (by simp)
    | cons => rfl
  have hall : (ofNat n).all Char.isDigit = true := by
    rw [List.all_eq_true]
    intro c hc
    exact Nat.isDigit_of_mem_toDigits (by decide) (by decide) hc
  unfold digits?
  rw [hne, hall]
  simp [ofNat, Nat.ofDigitChars_toDigits]

end Decimal
end RpcGateway
