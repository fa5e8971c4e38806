import Mathlib.Algebra.Group.Nat.Defs
import RpcGateway.Wire.Varint

/-!
# Variable-length integers are read as they are written

A number below `2 ^ 64` takes ten bytes at most, and reading them gives it back.  Integers come back
from the numbers that stand for them.

**Bounds.**  The tenth byte holds one bit, so the bound on what `fuel + 1` bytes can hold is
`2 * 128 ^ fuel`, and not a power of 128.
-/

namespace RpcGateway
namespace Wire

theorem varintWithin_ne_nil
    (fuel n : Nat) :
    varintWithin (fuel + 1) n ≠ [] := by
  unfold varintWithin
  split <;> simp

theorem varint_length_pos
    (n : Nat) :
    0 < (varint n).length :=
  List.length_pos_iff.mpr (varintWithin_ne_nil 9 n)

theorem readVarintWithin_varintWithin
    {fuel n : Nat}
    (h : n < 2 * 128 ^ fuel) (rest : List UInt8) :
    readVarintWithin (fuel + 1) (varintWithin (fuel + 1) n ++ rest) = some (n, rest) := by
  induction fuel generalizing n with
  | zero =>
      have hsmall : n < 128 := by omega
      have hbyte : (UInt8.ofNat n).toNat = n := by
        rw [UInt8.toNat_ofNat', Nat.mod_eq_of_lt (by omega)]
      have hlast : ¬ 1 < n := by omega
      simp [varintWithin, hsmall, readVarintWithin, hbyte, hlast]
  | succ fuel ih =>
      by_cases hsmall : n < 128
      · have hbyte : (UInt8.ofNat n).toNat = n := by
          rw [UInt8.toNat_ofNat', Nat.mod_eq_of_lt (by omega)]
        simp [varintWithin, hsmall, readVarintWithin, hbyte]
      · have hbyte : (UInt8.ofNat (n % 128 + 128)).toNat = n % 128 + 128 := by
          rw [UInt8.toNat_ofNat', Nat.mod_eq_of_lt (by omega)]
        have hhigh : ¬ n % 128 + 128 < 128 := by omega
        have hshift : n / 128 < 2 * 128 ^ fuel := by
          rw [Nat.div_lt_iff_lt_mul (by decide)]
          rw [Nat.pow_succ] at h
          omega
        have hrest := ih hshift
        have hsum : n % 128 + 128 - 128 + 128 * (n / 128) = n := by omega
        rw [varintWithin, if_neg hsmall, List.cons_append, readVarintWithin, hbyte, if_neg hhigh,
          hrest]
        simp only [hsum]

/-- A 64-bit number is read as it was written. -/
theorem readVarint_varint
    {n : Nat}
    (h : n < 2 ^ 64) (rest : List UInt8) :
    readVarint (varint n ++ rest) = some (n, rest) := by
  have hbound : n < 2 * 128 ^ 9 := by omega
  exact readVarintWithin_varintWithin hbound rest

/-!
## Integers
-/

theorem cast_wrap64
    (n : Int) :
    (wrap64 n : Int) = n % 18446744073709551616 := by
  unfold wrap64
  omega

theorem wrap64_lt
    (n : Int) :
    wrap64 n < 2 ^ 64 := by
  have hwrap := cast_wrap64 n
  omega

theorem signed_of_lt
    {bits n : Nat}
    (h : n % 2 ^ bits < 2 ^ (bits - 1)) :
    signed bits n = (n % 2 ^ bits : Nat) :=
  if_pos h

theorem signed_of_not_lt
    {bits n : Nat}
    (h : ¬ n % 2 ^ bits < 2 ^ (bits - 1)) :
    signed bits n = (n % 2 ^ bits : Nat) - (2 ^ bits : Nat) :=
  if_neg h

theorem signed_wrap64
    {n : Int}
    (hleast : -9223372036854775808 ≤ n) (hgreatest : n ≤ 9223372036854775807) :
    signed 64 (wrap64 n) = n := by
  have hwrap := cast_wrap64 n
  by_cases h : wrap64 n % 2 ^ 64 < 2 ^ (64 - 1)
  · rw [signed_of_lt h]
    omega
  · rw [signed_of_not_lt h]
    omega

theorem signed_wrap32
    {n : Int}
    (hleast : -2147483648 ≤ n) (hgreatest : n ≤ 2147483647) :
    signed 32 (wrap64 n) = n := by
  have hwrap := cast_wrap64 n
  by_cases h : wrap64 n % 2 ^ 32 < 2 ^ (32 - 1)
  · rw [signed_of_lt h]
    omega
  · rw [signed_of_not_lt h]
    omega

theorem low_wrap64
    {n : Int}
    (hleast : 0 ≤ n) (hgreatest : n ≤ 4294967295) :
    ((wrap64 n % 4294967296 : Nat) : Int) = n := by
  have hwrap := cast_wrap64 n
  omega

end Wire
end RpcGateway
