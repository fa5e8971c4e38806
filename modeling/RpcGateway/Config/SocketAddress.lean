import RpcGateway.Text.Ascii
import RpcGateway.Text.Decimal

/-!
# Socket addresses

The texts that are an IP address with a socket number: `1.2.3.4:80` or `[::1]:80`.

**Version 4.**  Four numbers of at most three digits up to 255, without leading zeros.

**Version 6.**  Eight groups of at most four hexadecimal digits; one `::` stands for one group of
zeros or more, and the last two groups may be written as a version-4 address.  A scope number may
follow behind a percent sign.

**Text.**  Of the many texts of a version-6 address one is canonical: small digits, no leading
zeros, and `::` for the first of the longest runs of at least two zero groups.  A version-4 address
within a version-6 address keeps its points.

**Readers.**  Each reader takes the front of a text and gives what it has read with the rest.
-/

namespace RpcGateway

inductive IpAddress
  /-- Four numbers. -/
  | v4 (octets : List Nat)
  | v6 (groups : List Nat)
  deriving DecidableEq, Repr

namespace IpAddress

/-- The text of a version-4 address. -/
def dotted (octets : List Nat) : String :=
  String.intercalate "." (octets.map fun (n : Nat) => Decimal.text n)

def hexText (n : Nat) : String :=
  String.ofList (Nat.toDigits 16 n)

/-- The text of some groups. -/
def coloned (groups : List Nat) : String :=
  String.intercalate ":" (groups.map hexText)

/-- The number of zero groups at the front. -/
def leadingZeros (groups : List Nat) : Nat :=
  (groups.takeWhile (· == 0)).length

/-- The place and the length of the first of the longest runs of zero groups, the groups being
counted from a number on. -/
def longestZeros : Nat → List Nat → Nat × Nat
  | i, [] => (i, 0)
  | i, g :: gs =>
      let here := leadingZeros (g :: gs)
      let later := longestZeros (i + 1) gs
      if later.2 ≤ here then (i, here) else later

/-- The canonical text of eight groups. -/
def groupsText : List Nat → String
  | [0, 0, 0, 0, 0, 0xffff, high, low] =>
      "::ffff:" ++ dotted [high / 256, high % 256, low / 256, low % 256]
  | groups =>
      let (place, length) := longestZeros 0 groups
      if length ≤ 1 then coloned groups
      else coloned (groups.take place) ++ "::" ++ coloned (groups.drop (place + length))

def text : IpAddress → String
  | v4 octets => dotted octets
  | v6 groups => groupsText groups

end IpAddress

structure SocketAddress where
  ip : IpAddress
  number : Nat
  deriving DecidableEq, Repr

namespace SocketAddress

/-- Reads the front of a text. -/
abbrev Reader (α : Type) := List Char → Option (α × List Char)

/-- Drops a given character. -/
def char (expected : Char) : List Char → Option (List Char)
  | [] => none
  | c :: cs => if c = expected then some cs else none

/-- A decimal number up to `greatest`, of at most `digits` digits if that is limited. -/
def decimal (greatest : Nat) (digits : Option Nat) (zeros : Bool) : Reader Nat := fun cs =>
  let ds := cs.takeWhile Char.isDigit
  let n := Nat.ofDigitChars 10 ds 0
  if ds.isEmpty then none
  else if (digits.map fun n => decide (n < ds.length)) = some true then none
  else if !zeros && ds.head? = some '0' && 1 < ds.length then none
  else if greatest < n then none
  else some (n, cs.drop ds.length)

/-- The value of hexadecimal digits. -/
def hexValue (ds : List Char) : Nat :=
  ds.foldl (fun n c => n * 16 + (Ascii.hexValue? c).getD 0) 0

/-- A group of one to four hexadecimal digits. -/
def group : Reader Nat := fun cs =>
  let ds := cs.takeWhile fun c => (Ascii.hexValue? c).isSome
  if ds.isEmpty || 4 < ds.length then none else some (hexValue ds, cs.drop ds.length)

/-- One number of a version-4 address. -/
def octet : Reader Nat := decimal 255 (some 3) false

/-- The four numbers of a version-4 address. -/
def ipv4 : Reader (List Nat) := fun cs => do
  let (a, cs) ← octet cs
  let cs ← char '.' cs
  let (b, cs) ← octet cs
  let cs ← char '.' cs
  let (c, cs) ← octet cs
  let cs ← char '.' cs
  let (d, cs) ← octet cs
  return ([a, b, c, d], cs)

/-- The two groups that a version-4 address stands for. -/
def ipv4Groups : Reader (List Nat) := fun cs =>
  (ipv4 cs).map fun (octets, rest) =>
    ([octets.getD 0 0 * 256 + octets.getD 1 0, octets.getD 2 0 * 256 + octets.getD 3 0], rest)

/-- A text behind the colon in front of every group but the first. -/
def separator (first : Bool) (cs : List Char) : Option (List Char) :=
  if first then some cs else char ':' cs

/-- The groups at the front, at most the given number, and whether they end in a version-4
address. -/
def groups : Nat → Bool → List Char → List Nat × Bool × List Char
  | 0, _, cs => ([], false, cs)
  | n + 1, first, cs =>
      match if 0 < n then (separator first cs).bind ipv4Groups else none with
      | some (gs, rest) => (gs, true, rest)
      | none =>
          match (separator first cs).bind group with
          | none => ([], false, cs)
          | some (g, rest) =>
              match groups n false rest with
              | (gs, dotted, rest) => (g :: gs, dotted, rest)

/-- The eight groups of a version-6 address. -/
def ipv6 : Reader (List Nat) := fun cs =>
  match groups 8 true cs with
  | (front, dotted, rest) =>
      if front.length = 8 then some (front, rest)
      else if dotted then none
      else do
        let rest ← char ':' rest
        let rest ← char ':' rest
        let (back, _, rest) := groups (7 - front.length) true rest
        return (front ++ List.replicate (8 - front.length - back.length) 0 ++ back, rest)

/-- A text behind a scope number, if there is one. -/
def skipScope (cs : List Char) : List Char :=
  match (char '%' cs).bind (decimal 4294967295 none true) with
  | some (_, rest) => rest
  | none => cs

def colonNumber : Reader Nat := fun cs =>
  (char ':' cs).bind (decimal 65535 none true)

/-- A version-4 address with a socket number. -/
def socketV4 : Reader SocketAddress := fun cs => do
  let (octets, cs) ← ipv4 cs
  let (number, cs) ← colonNumber cs
  return (⟨.v4 octets, number⟩, cs)

/-- A version-6 address in brackets with a socket number. -/
def socketV6 : Reader SocketAddress := fun cs => do
  let cs ← char '[' cs
  let (groups, cs) ← ipv6 cs
  let cs ← char ']' (skipScope cs)
  let (number, cs) ← colonNumber cs
  return (⟨.v6 groups, number⟩, cs)

def ofText? (s : String) : Option SocketAddress :=
  match socketV4 s.toList, socketV6 s.toList with
  | some (a, []), _ => some a
  | _, some (a, []) => some a
  | _, _ => none

/-- Whether a text is an IP address with a socket number. -/
def isValid (s : String) : Bool :=
  (ofText? s).isSome

def host? (s : String) : Option String :=
  (ofText? s).map fun a => a.ip.text

end SocketAddress
end RpcGateway
