/-!
# Variable-length integers

A number below `2 ^ 64` as bytes of seven bits each, lowest first; every byte but the last has its
high bit set.

**Reading.**  A number takes at most ten bytes, and the tenth may hold one bit only.  It need not be
written in the fewest bytes.
-/

namespace RpcGateway
namespace Wire

/-- The bytes of a number, at most `fuel` of them. -/
def varintWithin : Nat → Nat → List UInt8
  | 0, _ => []
  | fuel + 1, n =>
      if n < 128 then [UInt8.ofNat n]
      else UInt8.ofNat (n % 128 + 128) :: varintWithin fuel (n / 128)

/-- The bytes of a 64-bit number. -/
def varint (n : Nat) : List UInt8 :=
  varintWithin 10 n

/-- Reads a number of at most `fuel` bytes. -/
def readVarintWithin : Nat → List UInt8 → Option (Nat × List UInt8)
  | 0, _ => none
  | _ + 1, [] => none
  | fuel + 1, b :: bs =>
      if b.toNat < 128 then
        if fuel = 0 ∧ 1 < b.toNat then none else some (b.toNat, bs)
      else
        match readVarintWithin fuel bs with
        | some (n, rest) => some (b.toNat - 128 + 128 * n, rest)
        | none => none

/-- Reads a 64-bit number. -/
def readVarint (bytes : List UInt8) : Option (Nat × List UInt8) :=
  readVarintWithin 10 bytes

/-- The 64-bit number that stands for an integer: a negative one wraps around. -/
def wrap64 (n : Int) : Nat :=
  (n % 18446744073709551616).toNat

/-- The integer that the low `bits` bits of a number stand for. -/
def signed (bits : Nat) (n : Nat) : Int :=
  let low := n % Nat.pow 2 bits
  if low < Nat.pow 2 (bits - 1) then low else (low : Int) - Nat.pow 2 bits

end Wire
end RpcGateway
