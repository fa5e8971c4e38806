/-!
# UTF-8

Bytes to characters and back.

**Reading.**  `front` looks at the first character of a byte list.  It tells a character from an
ill-formed sequence (with its length) and from a sequence that the end of the input cuts short.
`decode` reads the whole list or reports where it stops being UTF-8.

**Writing.**  `encode` writes each character in its one to four bytes.
-/

namespace RpcGateway
namespace Utf8

/-- The first character of a byte list, or why there is none. -/
inductive Front
  /-- A character and the bytes after it. -/
  | char (c : Char) (rest : List UInt8)
  /-- An ill-formed sequence of `length` bytes. -/
  | broken (length : Nat) (rest : List UInt8)
  /-- The input ends inside a character. -/
  | cut
  deriving DecidableEq

/-- A continuation byte. -/
def isTail (b : UInt8) : Bool :=
  0x80 ≤ b && b ≤ 0xBF

/-- Whether `b` may follow the lead byte `a` of a three-byte character. -/
def isSecondOfThree (a b : UInt8) : Bool :=
  if a = 0xE0 then 0xA0 ≤ b && b ≤ 0xBF
  else if a = 0xED then 0x80 ≤ b && b ≤ 0x9F
  else isTail b

/-- Whether `b` may follow the lead byte `a` of a four-byte character. -/
def isSecondOfFour (a b : UInt8) : Bool :=
  if a = 0xF0 then 0x90 ≤ b && b ≤ 0xBF
  else if a = 0xF4 then 0x80 ≤ b && b ≤ 0x8F
  else isTail b

/-- The character after a two-byte lead. -/
def frontTwo (a : UInt8) : List UInt8 → Front
  | [] => .cut
  | b :: bs =>
      if isTail b then .char (Char.ofNat (a.toNat % 32 * 64 + b.toNat % 64)) bs
      else .broken 1 (b :: bs)

/-- The character after a three-byte lead. -/
def frontThree (a : UInt8) : List UInt8 → Front
  | [] => .cut
  | b :: bs =>
      if isSecondOfThree a b then
        match bs with
        | [] => .cut
        | c :: cs =>
            if isTail c then
              .char (Char.ofNat (a.toNat % 16 * 4096 + b.toNat % 64 * 64 + c.toNat % 64)) cs
            else .broken 2 (c :: cs)
      else .broken 1 (b :: bs)

/-- The character after a four-byte lead. -/
def frontFour (a : UInt8) : List UInt8 → Front
  | [] => .cut
  | b :: bs =>
      if isSecondOfFour a b then
        match bs with
        | [] => .cut
        | c :: cs =>
            if isTail c then
              match cs with
              | [] => .cut
              | d :: ds =>
                  if isTail d then
                    .char (Char.ofNat (a.toNat % 8 * 262144 + b.toNat % 64 * 4096 +
                      c.toNat % 64 * 64 + d.toNat % 64)) ds
                  else .broken 3 (d :: ds)
            else .broken 2 (c :: cs)
      else .broken 1 (b :: bs)

/-- The first character of a list that starts with the byte `a`. -/
def front (a : UInt8) (rest : List UInt8) : Front :=
  if a < 0x80 then .char (Char.ofNat a.toNat) rest
  else if 0xC2 ≤ a && a ≤ 0xDF then frontTwo a rest
  else if 0xE0 ≤ a && a ≤ 0xEF then frontThree a rest
  else if 0xF0 ≤ a && a ≤ 0xF4 then frontFour a rest
  else .broken 1 rest

/-- Where and how a byte list stops being UTF-8. -/
structure Fault where
  /-- The number of bytes before the ill-formed sequence. -/
  index : Nat
  /-- Its length, or nothing when the input ends inside a character. -/
  length : Option Nat
  deriving DecidableEq, Repr

def Fault.message (f : Fault) : String :=
  match f.length with
  | some n => s!"invalid utf-8 sequence of {n} bytes from index {f.index}"
  | none => s!"incomplete utf-8 byte sequence from index {f.index}"

/-- Reads at most `fuel` characters. -/
def decodeWithin (total : Nat) : Nat → List UInt8 → Except Fault (List Char)
  | 0, _ => .ok []
  | _ + 1, [] => .ok []
  | fuel + 1, b :: bs =>
      match front b bs with
      | .char c rest => (decodeWithin total fuel rest).map (c :: ·)
      | .broken n _ => .error ⟨total - (bs.length + 1), some n⟩
      | .cut => .error ⟨total - (bs.length + 1), none⟩

/-- All characters, or the first fault. -/
def decode (bs : List UInt8) : Except Fault (List Char) :=
  decodeWithin bs.length bs.length bs

/-- The text of a byte list that is UTF-8. -/
def text? (bs : List UInt8) : Option String :=
  match decode bs with
  | .ok cs => some (String.ofList cs)
  | .error _ => none

/-- The bytes of a character list. -/
def encode (cs : List Char) : List UInt8 :=
  cs.flatMap String.utf8EncodeChar

def bytes (s : String) : List UInt8 :=
  encode s.toList

@[simp] theorem encode_nil : encode [] = [] := rfl

@[simp] theorem encode_append (cs ds : List Char) :
    encode (cs ++ ds) = encode cs ++ encode ds := by
  simp [encode]

end Utf8
end RpcGateway
