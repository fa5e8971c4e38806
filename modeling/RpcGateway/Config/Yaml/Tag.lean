import RpcGateway.Config.Yaml.Spot
import RpcGateway.Text.CodePoint

/-!
# Names, tags and directives of YAML

A node may be named, repeated by its name, and tagged with a type.  Directives stand in front of a
document.

**Tags.**  A tag is a handle and a suffix.  A directive may give a handle a prefix; the handle `!!`
has one of its own.

**Escapes.**  A byte of a tag may be written by its code behind a percent sign.  The two bytes of a
character are taken for a code of sixteen bits, and longer characters cannot be written.
-/

namespace RpcGateway
namespace Yaml

def isWordChar (c : Char) : Bool :=
  c.isAlphanum || c == '_' || c == '-'

/-- A character of the name of a node. -/
def isNameChar (c : Char) : Bool :=
  !(isBlank c || c == '\n' || c == '\ufeff' || isFlowMark c)

/-- A character of an address. -/
def isUriChar (c : Char) : Bool :=
  c.isAlphanum || c == '-' || "#;/?:@&=+$,_.!~*'()[]%".toList.contains c

def isTagChar (c : Char) : Bool :=
  isUriChar c && !isFlowMark c && c != '!'

/-- Reads the name of a node behind its sign. -/
def nodeName? (s : Spot) : Option (String × Spot) :=
  let name := s.next.rest.takeWhile isNameChar
  if name.isEmpty then none else some (String.ofList name, s.next.advance name.length)

def escapedByte? : List Char → Option Nat
  | '%' :: high :: low :: _ =>
      match Ascii.hexValue? high, Ascii.hexValue? low with
      | some h, some l => some (16 * h + l)
      | _, _ => none
  | _ => none

/-- Reads an escaped character of one or two bytes. -/
def escapedChar? (s : Spot) : Option (Char × Spot) :=
  match escapedByte? s.rest with
  | none => none
  | some first =>
      if first < 0x80 then some (Char.ofNat first, s.advance 3)
      else if 0xc0 ≤ first ∧ first < 0xe0 then
        match escapedByte? (s.advance 3).rest with
        | none => none
        | some second =>
            if 0x80 ≤ second ∧ second < 0xc0 then
              (CodePoint.char? (256 * first + second)).map fun c => (c, s.advance 6)
            else none
      else none

/-- Reads characters of a class, some of them escaped, behind what was read. -/
def tagText? (p : Char → Bool) : Nat → List Char → Spot → Option (List Char × Spot)
  | 0, acc, s => some (acc, s)
  | fuel + 1, acc, s =>
      match s.rest with
      | [] => some (acc, s)
      | c :: _ =>
          if !p c then some (acc, s)
          else if c = '%' then
            match escapedChar? s with
            | some (c, t) => tagText? p fuel (acc ++ [c]) t
            | none => none
          else tagText? p fuel (acc ++ [c]) s.next

/-- Reads characters of a class, some of them escaped. -/
def uri? (p : Char → Bool) (s : Spot) : Option (List Char × Spot) :=
  tagText? p (s.rest.length + 1) [] s

structure Tag where
  handle : List Char
  suffix : List Char
  deriving DecidableEq, Repr

/-- Reads a handle: an exclamation mark, a word, and another exclamation mark if there is one. -/
def handle? (s : Spot) : Option (List Char × Spot) :=
  match s.rest with
  | '!' :: rest =>
      let word := rest.takeWhile isWordChar
      let t := s.next.advance word.length
      if t.rest.head? = some '!' then some ('!' :: (word ++ ['!']), t.next)
      else some ('!' :: word, t)
  | _ => none

/-- Whether a handle has an exclamation mark at both ends. -/
def isClosedHandle (handle : List Char) : Bool :=
  2 ≤ handle.length && handle.getLast? == some '!'

/-- Reads a tag that is written as an address between angle brackets. -/
def verbatimTag? (s : Spot) : Option (Tag × Spot) :=
  match uri? isUriChar (s.advance 2) with
  | none => none
  | some (suffix, t) => if t.rest.head? = some '>' then some (⟨[], suffix⟩, t.next) else none

/-- Reads a tag that is written with a handle. -/
def shorthandTag? (s : Spot) : Option (Tag × Spot) :=
  match handle? s with
  | none => none
  | some (handle, t) =>
      match uri? isTagChar t with
      | none => none
      | some (suffix, u) =>
          if isClosedHandle handle then
            if suffix.isEmpty then none else some (⟨handle, suffix⟩, u)
          else
            let suffix := handle.tail ++ suffix
            some (if suffix.isEmpty then ⟨[], ['!']⟩ else ⟨['!'], suffix⟩, u)

/-- Reads a tag, which a blank has to part from what follows. -/
def tag? (inFlow : Bool) (s : Spot) : Option (Tag × Spot) :=
  let r := if s.rest.tail.head? = some '<' then verbatimTag? s else shorthandTag? s
  r.filter fun r => blankNext r.2.rest || (inFlow && flowNext r.2.rest)

/-- A line in front of a document. -/
inductive Directive
  /-- States the version of the language. -/
  | version
  | tag (handle start : List Char)
  deriving DecidableEq, Repr

/-- Reads one to nine digits. -/
def versionNumber? (s : Spot) : Option Spot :=
  let digits := s.rest.takeWhile Char.isDigit
  if digits.isEmpty || 9 < digits.length then none else some (s.advance digits.length)

/-- Reads the version of the language. -/
def versionDirective? (s : Spot) : Option (Directive × Spot) :=
  match versionNumber? (s.skipWhile isBlank) with
  | none => none
  | some t =>
      if t.rest.head? = some '.' then (versionNumber? t.next).map fun u => (.version, u) else none

/-- Reads the prefix that a directive gives a handle. -/
def tagStart? (s : Spot) : Option (List Char × Spot) :=
  match s.rest with
  | '!' :: _ => (uri? isUriChar s.next).map fun r => ('!' :: r.1, r.2)
  | c :: _ => if isTagChar c then uri? isUriChar s else none
  | [] => none

/-- Reads a handle and its prefix. -/
def tagDirective? (s : Spot) : Option (Directive × Spot) :=
  match handle? (s.skipWhile isBlank) with
  | none => none
  | some (handle, t) =>
      if handle ≠ ['!'] ∧ handle.getLast? ≠ some '!' then none
      else
        match tagStart? (t.skipWhile isBlank) with
        | some (start, u) => if blankNext u.rest then some (.tag handle start, u) else none
        | none => none

/-- Reads a directive and the end of its line; one of another name gives no handle a prefix. -/
def directive? (s : Spot) : Option (Directive × Spot) :=
  let name := s.next.rest.takeWhile isWordChar
  let t := s.next.advance name.length
  if name.isEmpty || !blankNext t.rest then none
  else
    let r :=
      if name = "YAML".toList then versionDirective? t
      else if name = "TAG".toList then tagDirective? t
      else some (.tag [] [], t.skipComment)
    match r with
    | none => none
    | some (d, u) => u.emptyLine?.map fun v => (d, v.next)

end Yaml
end RpcGateway
