import RpcGateway.Config.Yaml.Spot
import RpcGateway.Text.CodePoint

/-!
# YAML scalars

Scalars are written plainly, between quotes, or as a block of lines.

**Folding.**  A line end within a plain or quoted scalar stands for a space, and every further one
for itself; blanks around line ends do not count.

**Margin.**  The lines on which a scalar goes on must not begin to the left of the margin that is in
force.
-/

namespace RpcGateway
namespace Yaml

/-- What line ends within a scalar stand for. -/
def fold (count : Nat) : List Char :=
  if count ≤ 1 then [' '] else List.replicate (count - 1) '\n'

/-!
## Quotes
-/

/-- Reads an escape behind its backslash. -/
def escape : List Char → Option (Char × List Char)
  | '0' :: rest => some ('\x00', rest)
  | 'a' :: rest => some ('\x07', rest)
  | 'b' :: rest => some ('\x08', rest)
  | 't' :: rest => some ('\t', rest)
  | '\t' :: rest => some ('\t', rest)
  | 'n' :: rest => some ('\n', rest)
  | 'v' :: rest => some ('\x0b', rest)
  | 'f' :: rest => some ('\x0c', rest)
  | 'r' :: rest => some ('\r', rest)
  | 'e' :: rest => some ('\x1b', rest)
  | ' ' :: rest => some (' ', rest)
  | '"' :: rest => some ('"', rest)
  | '/' :: rest => some ('/', rest)
  | '\\' :: rest => some ('\\', rest)
  | 'N' :: rest => some ('\u0085', rest)
  | '_' :: rest => some ('\u00a0', rest)
  | 'L' :: rest => some ('\u2028', rest)
  | 'P' :: rest => some ('\u2029', rest)
  | 'x' :: rest => CodePoint.read 2 rest
  | 'u' :: rest => CodePoint.read 4 rest
  | 'U' :: rest => CodePoint.read 8 rest
  | _ => none

/-- The kind of quotes around a scalar. -/
inductive Quotes
  /-- Single quotes; a quote inside is written twice. -/
  | single
  /-- Double quotes, with escapes. -/
  | double
  deriving DecidableEq, Repr

def Quotes.char : Quotes → Char
  | .single => '\''
  | .double => '"'

/-- Reads a word between quotes behind what was read in reverse; tells whether an escaped line end
ended it. -/
def quotedWord (q : Quotes) : Nat → List Char → Spot → Option (List Char × Bool × Spot)
  | 0, acc, s => some (acc, false, s)
  | fuel + 1, acc, s =>
      match s.rest with
      | [] => some (acc, false, s)
      | c :: rest =>
          if isBlank c || c == '\n' then some (acc, false, s)
          else if c == q.char then
            if q = .single ∧ rest.head? = some '\'' then
              quotedWord q fuel ('\'' :: acc) (s.advance 2)
            else some (acc, false, s)
          else if q = .double ∧ c = '\\' then
            if rest.head? = some '\n' then some (acc, true, s.advance 2)
            else
              match escape rest with
              | some (e, after) =>
                  quotedWord q fuel (e :: acc) (s.advance (1 + (rest.length - after.length)))
              | none => none
          else quotedWord q fuel (c :: acc) s.next

/-- The place behind blanks and line ends within quotes; no tab stands left of the margin. -/
def quotedFill? (margin : Int) : Nat → Spot → Option Spot
  | 0, s => some s
  | fuel + 1, s =>
      match s.rest with
      | '\t' :: _ => if s.column < margin then none else quotedFill? margin fuel s.next
      | ' ' :: _ => quotedFill? margin fuel s.next
      | '\n' :: _ => quotedFill? margin fuel s.next
      | _ => some s

/-- Reads what parts words between quotes, behind an escaped line end or not. -/
def quotedGap? (margin : Int) (joined : Bool) (s : Spot) : Option (List Char × Spot) :=
  let blanks := if joined then [] else s.rest.takeWhile isBlank
  let t := s.advance blanks.length
  if !joined && t.rest.head? != some '\n' then some (blanks, t)
  else
    (quotedFill? margin (t.rest.length + 1) t).map fun u =>
      let n := u.line - t.line
      (if joined then List.replicate n '\n' else fold n, u)

/-- Reads words up to the closing quote, behind what was read in reverse. -/
def quotedWords (q : Quotes) (margin : Int) :
    Nat → List Char → Spot → Option (List Char × Spot)
  | 0, _, _ => none
  | fuel + 1, acc, s =>
      if s.isAtBoundary || s.rest.isEmpty || s.column < margin then none
      else
        match quotedWord q (s.rest.length + 1) acc s with
        | none => none
        | some (acc, joined, t) =>
            if t.rest.head? = some q.char then some (acc.reverse, t.next)
            else
              match quotedGap? margin joined t with
              | some (gap, u) => quotedWords q margin fuel (gap.reverse ++ acc) u
              | none => none

/-- Whether a text may follow a scalar between quotes. -/
def mayFollowQuoted (inFlow sameLine : Bool) : List Char → Bool
  | [] => true
  | c :: _ =>
      c == '\n' || (c == ':' && (inFlow || sameLine)) ||
        (inFlow && (c == ',' || c == ']' || c == '\x7d'))

/-- Reads a scalar between quotes, and the blanks and the comment behind it. -/
def quoted? (q : Quotes) (inFlow : Bool) (margin : Int) (s : Spot) : Option (List Char × Spot) :=
  match quotedWords q margin (s.rest.length + 1) [] s.next with
  | none => none
  | some (cs, t) =>
      match t.behindBlanks? with
      | some u => if mayFollowQuoted inFlow (u.line == s.line) u.rest then some (cs, u) else none
      | none => none

/-!
## Plain scalars
-/

/-- Whether a text goes on a word of a plain scalar. -/
def plainNext (inFlow : Bool) : List Char → Bool
  | [] => false
  | c :: rest =>
      if isBlank c || c == '\n' then false
      else if c == ':' then !(blankNext rest || (inFlow && flowNext rest))
      else !(inFlow && isFlowMark c)

/-- The word of a plain scalar at the front of a text. -/
def plainWord (inFlow : Bool) : List Char → List Char
  | [] => []
  | c :: rest => if plainNext inFlow (c :: rest) then c :: plainWord inFlow rest else []

/-- The place behind blanks and line ends within a plain scalar, and the number of blank lines in
between, added to those before; a tab stands left of the margin only on a line without content. -/
def plainFill? (margin : Int) : Nat → Nat → Spot → Option (Nat × Spot)
  | 0, empty, s => some (empty, s)
  | fuel + 1, empty, s =>
      match s.rest with
      | '\t' :: _ =>
          if s.column < margin then s.emptyLine?.bind (plainFill? margin fuel empty)
          else plainFill? margin fuel empty s.next
      | ' ' :: _ => plainFill? margin fuel empty s.next
      | '\n' :: _ => plainFill? margin fuel (if s.fresh then empty + 1 else empty) s.next
      | _ => some (empty, s)

/-- Reads what parts the words of a plain scalar. -/
def plainGap? (margin : Int) (s : Spot) : Option (List Char × Spot) :=
  let blanks := s.rest.takeWhile isBlank
  let t := s.advance blanks.length
  if t.rest.head? = some '\n' then
    (plainFill? margin (t.rest.length + 1) 0 t).map fun (empty, u) => (fold (empty + 1), u)
  else some (blanks, t)

/-- Reads the words of a plain scalar behind what was read; `gap` parts them from it. -/
def plainWords (inFlow : Bool) (margin : Int) :
    Nat → List Char → List Char → Spot → Option (List Char × Spot)
  | 0, acc, _, s => some (acc, s)
  | fuel + 1, acc, gap, s =>
      if s.isAtBoundary || s.rest.head? == some '#' then some (acc, s)
      else if inFlow && s.rest.head? == some '-' && flowNext s.rest.tail then none
      else
        let word := plainWord inFlow s.rest
        if word.isEmpty then some (acc, s)
        else
          let acc := acc ++ gap ++ word
          let s := s.advance word.length
          if s.rest.isEmpty || !blankNext s.rest then some (acc, s)
          else
            match plainGap? margin s with
            | none => none
            | some (gap, t) =>
                if !inFlow && t.column < margin then some (acc, t)
                else plainWords inFlow margin fuel acc gap t

def plain? (inFlow : Bool) (margin : Int) (s : Spot) : Option (List Char × Spot) :=
  if inFlow && s.column < margin then none
  else plainWords inFlow margin (s.rest.length + 1) [] [] s

/-!
## Blocks of lines
-/

/-- What happens to the line ends at the end of a block. -/
inductive Chomping
  | strip
  | clip
  | keep
  deriving DecidableEq, Repr

/-- What the sign of a block is followed by. -/
structure BlockHeader where
  chomping : Chomping := .clip
  /-- By how much the lines are indented, if that is told. -/
  deeper : Option Nat := none

def Chomping.ofChar? : Char → Option Chomping
  | '+' => some .keep
  | '-' => some .strip
  | _ => none

/-- The indentation that a character stands for. -/
def digit? (c : Char) : Option Nat :=
  if c.isDigit then some (c.toNat - '0'.toNat) else none

/-- Reads the chomping and the indentation, in either order, and tells the number of characters. -/
def BlockHeader.ofChars? (cs : List Char) : Option (BlockHeader × Nat) :=
  let first := cs.head?
  let second := cs.tail.head?
  match first.bind Chomping.ofChar?, first.bind digit? with
  | some chomping, _ =>
      match second.bind digit? with
      | some 0 => none
      | some n => some (⟨chomping, some n⟩, 2)
      | none => some (⟨chomping, none⟩, 1)
  | none, some 0 => none
  | none, some n =>
      match second.bind Chomping.ofChar? with
      | some chomping => some (⟨chomping, some n⟩, 2)
      | none => some (⟨.clip, some n⟩, 1)
  | none, none => some ({}, 0)

/-- The place behind the spaces of an indentation and lines without content. -/
def blockFill (column : Nat) : Nat → Spot → Spot
  | 0, s => s
  | fuel + 1, s =>
      match s.rest with
      | ' ' :: _ => if s.column < column then blockFill column fuel s.next else s
      | '\n' :: _ => blockFill column fuel s.next
      | _ => s

/-- The deepest column that the spaces of lines without content and of the first line with content
reach, and the place there. -/
def blockDepth : Nat → Nat → Spot → Nat × Spot
  | 0, deepest, s => (deepest, s)
  | fuel + 1, deepest, s =>
      match s.rest with
      | ' ' :: _ => blockDepth fuel (max deepest (s.column + 1)) s.next
      | '\n' :: _ => blockDepth fuel deepest s.next
      | _ => (deepest, s)

structure BlockText where
  text : List Char := []
  /-- Whether a line end is due behind the text. -/
  ended : Bool := false
  /-- Whether the last line began with a blank. -/
  indented : Bool := false
  /-- The lines without content since then. -/
  blanks : Nat

def BlockText.add (folded : Bool) (b : BlockText) (line : List Char) : BlockText :=
  let indented := line.head?.any isBlank
  let gap :=
    if folded && b.ended && !b.indented && !indented then
      if b.blanks = 0 then [' '] else List.replicate b.blanks '\n'
    else List.replicate (b.blanks + if b.ended then 1 else 0) '\n'
  ⟨b.text ++ gap ++ line, false, indented, 0⟩

/-- Reads the lines of a block, which begin in a column. -/
def blockLines (folded : Bool) (column : Nat) : Nat → BlockText → Spot → BlockText × Spot
  | 0, b, s => (b, s)
  | fuel + 1, b, s =>
      if s.column ≠ column || s.rest.isEmpty || (column == 0 && s.isMarker "...") then (b, s)
      else
        let line := s.rest.takeWhile (· != '\n')
        let b := b.add folded line
        let s := s.advance line.length
        if s.rest.isEmpty then (b, s)
        else
          let t := blockFill column (s.rest.length + 1) s.next
          blockLines folded column fuel
            { b with ended := true, blanks := t.line - (s.line + 1) } t

/-- The text of a block that begins in a column and ends at a place, as the chomping wants it; where
the text ends within a line, that line is ended all the same. -/
def BlockText.finish (b : BlockText) (chomping : Chomping) (column : Nat) (s : Spot) : List Char :=
  if chomping = .strip then b.text
  else
    let ended := if b.ended then ['\n'] else []
    let cut := if s.rest.isEmpty && max column 1 ≤ s.column then ['\n'] else []
    let blanks := if chomping = .keep then List.replicate b.blanks '\n' else []
    b.text ++ ended ++ cut ++ blanks

/-- The text of a block without content at the end of the text; `started` tells whether its header
was ended, and `blanks` is the number of lines behind it. -/
def emptyBlock (chomping : Chomping) (started : Bool) (blanks : Nat) : List Char :=
  match chomping with
  | .strip => []
  | .clip => if started then ['\n'] else []
  | .keep => if started then List.replicate (max blanks 1) '\n' else []

/-- Reads the lines of a block behind its header, from the place where they begin. -/
def blockBody? (folded : Bool) (header : BlockHeader) (margin : Int) (started : Bool) (s : Spot) :
    Option (List Char × Spot) :=
  let fuel := s.rest.length + 1
  let (column, t) : Nat × Spot :=
    match header.deeper with
    | some n =>
        let column := (max margin 0).toNat + n
        (column, blockFill column fuel s)
    | none =>
        let (deepest, t) := blockDepth fuel 0 s
        (max deepest (margin + 1).toNat, t)
  let blanks := t.line - s.line
  if t.rest.isEmpty then some (emptyBlock header.chomping started blanks, t)
  else if t.column < column && margin < t.column then none
  else
    let (b, u) := blockLines folded column fuel { blanks := blanks } t
    some (b.finish header.chomping column u, u)

/-- Reads a block from its sign on. -/
def block? (margin : Int) (s : Spot) : Option (List Char × Spot) :=
  let folded := s.rest.head? == some '>'
  match BlockHeader.ofChars? s.next.rest with
  | none => none
  | some (header, n) =>
      match (s.next.advance n).emptyLine? with
      | none => none
      | some t =>
          let u := t.next
          if u.rest.head? = some '\t' then none
          else blockBody? folded header margin (u.line != s.line) u

end Yaml
end RpcGateway
