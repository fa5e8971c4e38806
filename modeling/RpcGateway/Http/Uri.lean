import RpcGateway.Text.Ascii
import RpcGateway.Text.Utf8

/-!
# URIs

Which texts are URIs, and which part of one is the path.

**Forms.**  A URI is `*`; or a path with an optional query; or an authority alone; or a scheme, an
authority and, if there is more, a path with an optional query.  A fragment may follow and is cut
off.

**Characters.**  A path and a query carry printable characters, a few delimiters apart, and anything
beyond ASCII.  An authority has characters of ASCII only; a percent sign may stand in its user
information or between brackets.
-/

namespace RpcGateway
namespace Uri

def isPathByte (b : UInt8) : Bool :=
  b == 0x21 || (0x24 ≤ b && b ≤ 0x3b) || b == 0x3d || (0x40 ≤ b && b ≤ 0x5f) ||
    (0x61 ≤ b && b ≤ 0x7e) || b == 0x22 || 0x7f ≤ b

def isQueryByte (b : UInt8) : Bool :=
  b == 0x21 || (0x24 ≤ b && b ≤ 0x3b) || b == 0x3d || (0x3f ≤ b)

/-- Whether a character ends a path. -/
def endsPath (c : Char) : Bool :=
  c == '?' || c == '#'

/-- The path at the front of a text that begins with a path. -/
def pathOf (cs : List Char) : List Char :=
  cs.takeWhile fun c => !endsPath c

/-- Whether all bytes of some characters are of a class. -/
def allBytes (p : UInt8 → Bool) (cs : List Char) : Bool :=
  (Utf8.encode cs).all p

/-- Whether a text is a path with an optional query and fragment, the leading slash apart. -/
def isPathAndQuery (cs : List Char) : Bool :=
  allBytes isPathByte (pathOf cs) &&
    match cs.dropWhile fun c => !endsPath c with
    | '?' :: query => allBytes isQueryByte (query.takeWhile (· != '#'))
    | _ => true

/-- Why a text is no path of a method. -/
inductive PathFault
  | empty
  | noSlash
  | badCharacter
  deriving DecidableEq, Repr

def PathFault.message : PathFault → String
  | .empty => "empty string"
  | .noSlash => "path does not start with slash"
  | .badCharacter => "invalid uri character"

/-- The path of a text that is to be a path with an optional query. -/
def path (s : String) : Except PathFault String :=
  match s.toList with
  | [] => .error .empty
  | c :: cs =>
      if c != '/' && c :: cs != ['*'] then .error .noSlash
      else if isPathAndQuery (c :: cs) then .ok (String.ofList (pathOf (c :: cs)))
      else .error .badCharacter

/-- Whether a character may stand in a scheme. -/
def isSchemeChar (c : Char) : Bool :=
  c.isAlphanum || c == '+' || c == '-' || c == '.' || c == '~'

/-- What follows the scheme of a full URI. -/
def afterScheme? (cs : List Char) : Option (List Char) :=
  match cs.dropWhile isSchemeChar with
  | ':' :: '/' :: '/' :: rest => some rest
  | _ => none

/-- The path of a request target: a path, or a full URI. -/
def targetPath (target : String) : String :=
  let cs := target.toList
  match if cs.head? = some '/' then none else afterScheme? cs with
  | none => String.ofList (pathOf cs)
  | some rest =>
      match pathOf (rest.dropWhile fun c => c != '/' && !endsPath c) with
      | [] => "/"
      | p => String.ofList p

/-!
## Authorities
-/

/-- What was seen of an authority so far. -/
structure AuthorityScan where
  /-- The colons since the last sign that made them part of something else. -/
  colons : Nat := 0
  /-- Whether a bracket was opened. -/
  opened : Bool := false
  /-- Whether a bracket was closed. -/
  closed : Bool := false
  /-- Whether there was a percent sign since the last sign that made it legal. -/
  percent : Bool := false
  /-- Whether the last character was an at sign. -/
  atEnd : Bool := false

/-- Whether a character of an authority needs no care. -/
def isPlainAuthorityChar (c : Char) : Bool :=
  c.isAlphanum || "!$&'()*+,-.;=_~".toList.contains c

/-- One more character of an authority. -/
def AuthorityScan.step (s : AuthorityScan) (c : Char) : Option AuthorityScan :=
  if c = ':' then
    if 8 ≤ s.colons then none else some { s with colons := s.colons + 1, atEnd := false }
  else if c = '[' then
    if s.percent || s.opened then none else some { s with opened := true, atEnd := false }
  else if c = ']' then
    if !s.opened || s.closed then none
    else some { s with closed := true, colons := 0, percent := false, atEnd := false }
  else if c = '@' then some { s with colons := 0, percent := false, atEnd := true }
  else if c = '%' then some { s with percent := true, atEnd := false }
  else if isPlainAuthorityChar c then some { s with atEnd := false }
  else none

/-- Whether a whole authority was seen. -/
def AuthorityScan.isComplete (s : AuthorityScan) : Bool :=
  s.opened == s.closed && s.colons ≤ 1 && !s.atEnd && !s.percent

/-- Whether a text is an authority, possibly an empty one. -/
def isAuthority (cs : List Char) : Bool :=
  match cs.foldlM AuthorityScan.step {} with
  | some s => s.isComplete
  | none => false

/-- Whether a character ends an authority. -/
def endsAuthority (c : Char) : Bool :=
  c == '/' || endsPath c

/-- Whether a text is a URI. -/
def isUri (s : String) : Bool :=
  let cs := s.toList
  if 65534 < s.utf8ByteSize then false
  else if cs = ['*'] then true
  else if cs.head? = some '/' then isPathAndQuery cs
  else
    match afterScheme? cs with
    | none => !cs.isEmpty && isAuthority cs
    | some rest =>
        let authority := rest.takeWhile fun c => !endsAuthority c
        !authority.isEmpty && isAuthority authority &&
          isPathAndQuery (rest.dropWhile fun c => !endsAuthority c)

end Uri
end RpcGateway
