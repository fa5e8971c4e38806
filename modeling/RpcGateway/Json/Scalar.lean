import RpcGateway.Json.Cursor
import RpcGateway.Text.Utf8

/-!
# Scalars of JSON text

Readers for string literals, numbers and the three words.

**Strings.**  `stringBytes` gathers the bytes between the quotes with the escapes resolved and
stops at the closing quote; the bytes must then be UTF-8, and the first that is not part of a
character is the place of the fault.  A surrogate pair written as two escapes is one character, a
lone surrogate is refused.

**Numbers.**  Up to 64 bits of digits are kept.  A number without fraction and exponent that fits
is an integer; otherwise the kept digits are rounded to floating point and then multiplied or
divided by a power of ten.  `-0` is the floating-point negative zero.
-/

namespace RpcGateway
namespace Json

/-- The value of a hexadecimal digit byte. -/
def hexDigit? (b : UInt8) : Option Nat :=
  if 48 ≤ b && b ≤ 57 then some (b.toNat - 48)
  else if 97 ≤ b && b ≤ 102 then some (b.toNat - 87)
  else if 65 ≤ b && b ≤ 70 then some (b.toNat - 55)
  else none

/-- The value of four hexadecimal digits. -/
def fourHexDigits? (a b c d : UInt8) : Option Nat := do
  let w ← hexDigit? a
  let x ← hexDigit? b
  let y ← hexDigit? c
  let z ← hexDigit? d
  some (((w * 16 + x) * 16 + y) * 16 + z)

/-- Reads the four digits of a numeric escape. -/
def hexEscape : Reader Nat := fun c =>
  match c.rest with
  | w :: x :: y :: z :: _ =>
      let after := c.advance.advance.advance.advance
      match fourHexDigits? w x y z with
      | some n => .ok (n, after)
      | none => .error (after.fail .invalidEscape)
  | _ => .error ((Cursor.skipWhile (fun _ => true) c.rest c.line c.column).fail .endInString)

/-- Reads the byte that must follow a leading surrogate. -/
def pairMark (expected : UInt8) (c : Cursor) : Except Fault Cursor :=
  match c.peek? with
  | none => .error (c.fail .endInString)
  | some b =>
      if b = expected then .ok c.advance
      else .error (c.advance.fail .unexpectedEndOfHexEscape)

/-- Reads a numeric escape behind its `u`, with a second one when the first is half a pair. -/
def unicodeEscape : Reader (List UInt8) := fun c => do
  let (high, c) ← hexEscape c
  if 0xDC00 ≤ high && high ≤ 0xDFFF then .error (c.fail .loneSurrogate)
  else if high < 0xD800 || 0xDBFF < high then .ok (String.utf8EncodeChar (Char.ofNat high), c)
  else
    let c ← pairMark 92 c
    let c ← pairMark 117 c
    let (low, c) ← hexEscape c
    if low < 0xDC00 || 0xDFFF < low then .error (c.fail .loneSurrogate)
    else
      let code := (high - 0xD800) * 1024 + (low - 0xDC00) + 0x10000
      .ok (String.utf8EncodeChar (Char.ofNat code), c)

/-- The byte that a one-letter escape stands for. -/
def shortEscape? (b : UInt8) : Option UInt8 :=
  if b = 34 || b = 92 || b = 47 then some b
  else if b = 98 then some 8
  else if b = 102 then some 12
  else if b = 110 then some 10
  else if b = 114 then some 13
  else if b = 116 then some 9
  else none

/-- Reads an escape behind its backslash. -/
def escape : Reader (List UInt8) := fun c =>
  match c.peek? with
  | none => .error (c.fail .endInString)
  | some b =>
      if b = 117 then unicodeEscape c.advance
      else match shortEscape? b with
        | some out => .ok ([out], c.advance)
        | none => .error (c.advance.fail .invalidEscape)

/-- Reads the inside of a string literal, up to its closing quote. -/
def stringBytes : Nat → Reader (List UInt8)
  | 0, c => .error (c.fail .endInString)
  | fuel + 1, c =>
      match c.peek? with
      | none => .error (c.fail .endInString)
      | some b =>
          if b = 34 then .ok ([], c)
          else if b = 92 then
            match escape c.advance with
            | .error f => .error f
            | .ok (bs, c) =>
                match stringBytes fuel c with
                | .error f => .error f
                | .ok (more, c) => .ok (bs ++ more, c)
          else if b < 32 then .error (c.advance.fail .controlCharacter)
          else
            match stringBytes fuel c.advance with
            | .error f => .error f
            | .ok (more, c) => .ok (b :: more, c)

/-- The fault behind the first byte that is not part of a character. -/
def illFormed (c : Cursor) : Fault :=
  match Utf8.decode c.rest with
  | .error f => ⟨.invalidCodePoint, c.line, c.column + f.index + 1⟩
  | .ok _ => c.fail .invalidCodePoint

/-- Reads a string literal behind its opening quote. -/
def stringLiteral : Reader String := fun c =>
  match stringBytes (c.rest.length + 1) c with
  | .error f => .error f
  | .ok (bs, behind) =>
      match Utf8.text? bs with
      | some s => .ok (s, behind.advance)
      | none => .error (illFormed c)

/-- Reads the bytes of a word, one by one. -/
def word : List UInt8 → Cursor → Except Fault Cursor
  | [], c => .ok c
  | b :: bs, c =>
      match c.peek? with
      | none => .error (c.fail .endInValue)
      | some next => if next = b then word bs c.advance else .error (c.advance.fail .expectedIdent)

/-- Reads digits behind `sum` as long as the number stays within `bound`. -/
def takeDigits (bound : Nat) : Nat → Nat → List UInt8 → Nat × Nat × List UInt8
  | sum, count, [] => (sum, count, [])
  | sum, count, b :: bs =>
      if Cursor.isDigit b && sum * 10 + (b.toNat - 48) ≤ bound then
        takeDigits bound (sum * 10 + (b.toNat - 48)) (count + 1) bs
      else (sum, count, b :: bs)

/-- The number of digits read, their value, and the place behind them. -/
def digitsBelow (bound sum : Nat) (c : Cursor) : Nat × Nat × Cursor :=
  match takeDigits bound sum 0 c.rest with
  | (value, count, rest) => (value, count, ⟨rest, c.line, c.column + count⟩)

def digitNext (c : Cursor) : Bool :=
  match c.peek? with
  | some b => Cursor.isDigit b
  | none => false

/-- A number times a power of ten, or nothing when it is too large. -/
def scaled? : Nat → Binary64 → Int → Option Binary64
  | 0, x, _ => some x
  | fuel + 1, x, e =>
      if e.natAbs ≤ 308 then
        if 0 ≤ e then
          let r := x.mul (Binary64.powerOfTen e.natAbs)
          if r.isInfinite then none else some r
        else some (x.div (Binary64.powerOfTen e.natAbs))
      else if x = Binary64.zero then some x
      else if 0 ≤ e then none
      else scaled? fuel (x.div (Binary64.powerOfTen 308)) (e + 308)

/-- The number with the given sign, digits and power of ten. -/
def ofParts (positive : Bool) (digits : Nat) (e : Int) : Reader Number := fun c =>
  match scaled? 8 (Binary64.ofNat digits) e with
  | some x => .ok (.real (if positive then x else x.neg), c)
  | none => .error (c.fail .numberOutOfRange)

/-- The greatest exponent that is read exactly. -/
def maxExponent : Nat := 2147483647

def exponentSign (c : Cursor) : Bool × Cursor :=
  match c.peek? with
  | some b => if b = 43 then (true, c.advance) else if b = 45 then (false, c.advance) else (true, c)
  | none => (true, c)

def signedZero (positive : Bool) : Binary64 :=
  if positive then .zero else Binary64.zero.neg

/-- Reads an exponent, from its letter on. -/
def exponentPart (positive : Bool) (digits : Nat) (start : Int) : Reader Number := fun c =>
  match exponentSign c.advance with
  | (up, c) =>
      match c.peek? with
      | none => .error (c.fail .endInValue)
      | some b =>
          if !Cursor.isDigit b then .error (c.advance.fail .invalidNumber)
          else
            match digitsBelow maxExponent 0 c with
            | (e, _, c) =>
                if digitNext c then
                  if digits ≠ 0 && up then .error (c.advance.fail .numberOutOfRange)
                  else .ok (.real (signedZero positive), c.skipDigits)
                else ofParts positive digits (if up then start + e else start - e) c

def exponentOrEnd (positive : Bool) (digits : Nat) (start : Int) : Reader Number := fun c =>
  match c.peek? with
  | some b =>
      if b = 101 || b = 69 then exponentPart positive digits start c
      else ofParts positive digits start c
  | none => ofParts positive digits start c

/-- Reads a fraction, from its point on. -/
def fractionPart (positive : Bool) (digits : Nat) (start : Int) : Reader Number := fun c =>
  match digitsBelow Decimal.maxUInt64 digits c.advance with
  | (all, count, c) =>
      if digitNext c then exponentOrEnd positive all (start - count) c.skipDigits
      else if count = 0 then
        match c.peek? with
        | some _ => .error (c.failNext .invalidNumber)
        | none => .error (c.failNext .endInValue)
      else exponentOrEnd positive all (start - count) c

/-- Reads what follows the digits before the point. -/
def afterInteger (positive : Bool) (digits : Nat) : Reader Number := fun c =>
  match c.peek? with
  | some b =>
      if b = 46 then fractionPart positive digits 0 c
      else if b = 101 || b = 69 then exponentPart positive digits 0 c
      else .ok (integerNumber positive digits, c)
  | none => .ok (integerNumber positive digits, c)
where
  /-- An integer of at most 64 bits, else the nearest floating-point number. -/
  integerNumber (positive : Bool) (digits : Nat) : Number :=
    if positive then .integer digits
    else if digits ≠ 0 && digits ≤ 9223372036854775808 then .integer (-digits)
    else .real (Binary64.ofNat digits).neg

/-- Reads the digits that no longer fit, and what follows them. -/
def afterLongInteger (positive : Bool) (digits : Nat) : Reader Number := fun c =>
  let behind := c.skipDigits
  let extra : Int := (behind.column : Int) - c.column
  match behind.peek? with
  | some b =>
      if b = 46 then fractionPart positive digits extra behind
      else exponentOrEnd positive digits extra behind
  | none => ofParts positive digits extra behind

/-- Reads a number behind its sign. -/
def unsignedNumber (positive : Bool) : Reader Number := fun c =>
  match c.peek? with
  | none => .error (c.fail .endInValue)
  | some b =>
      if b = 48 then
        let c := c.advance
        if digitNext c then .error (c.failNext .invalidNumber) else afterInteger positive 0 c
      else if Cursor.isDigit b then
        match digitsBelow Decimal.maxUInt64 0 c with
        | (digits, _, c) =>
            if digitNext c then afterLongInteger positive digits c
            else afterInteger positive digits c
      else .error (c.advance.fail .invalidNumber)

/-- Reads a number that starts with the byte `b`. -/
def number (b : UInt8) : Reader Number := fun c =>
  if b = 45 then unsignedNumber false c.advance else unsignedNumber true c

end Json
end RpcGateway
