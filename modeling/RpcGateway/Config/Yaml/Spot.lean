/-!
# Places in a YAML text

Reading YAML means knowing the line and the column that were reached, and whether anything but
blanks stands before them on the line.

**Text.**  Line ends of all kinds are taken for one, and a text ends at its first NUL.

**Content.**  Blanks, comments and line ends separate content.  Tabs may part what stands on one
line, but they do not indent.
-/

namespace RpcGateway
namespace Yaml

/-- A blank within a line. -/
def isBlank (c : Char) : Bool :=
  c == ' ' || c == '\t'

/-- A character that means something within brackets and braces. -/
def isFlowMark (c : Char) : Bool :=
  c == ',' || c == '[' || c == ']' || c == '\x7b' || c == '\x7d'

/-- Whether a text begins with a blank or a line end, or is empty. -/
def blankNext : List Char → Bool
  | [] => true
  | c :: _ => isBlank c || c == '\n'

/-- Whether a text begins with a line end or is empty. -/
def endNext : List Char → Bool
  | [] => true
  | c :: _ => c == '\n'

/-- Whether a text begins with a character that means something within brackets and braces. -/
def flowNext : List Char → Bool
  | [] => false
  | c :: _ => isFlowMark c

/-- A text up to its first NUL, with one kind of line end. -/
def unified : List Char → List Char
  | '\r' :: '\n' :: cs => '\n' :: unified cs
  | '\r' :: cs => '\n' :: unified cs
  | '\x00' :: _ => []
  | c :: cs => c :: unified cs
  | [] => []

/-- A place in a text. -/
structure Spot where
  /-- The text from here on. -/
  rest : List Char
  /-- The line, counted from zero. -/
  line : Nat := 0
  /-- The column, counted from zero. -/
  column : Nat := 0
  /-- The number of characters before this place. -/
  index : Nat := 0
  /-- Whether only blanks stand before this place on its line. -/
  fresh : Bool := true

namespace Spot

/-- The place behind one character. -/
def next (s : Spot) : Spot :=
  match s.rest with
  | [] => s
  | '\n' :: rest => ⟨rest, s.line + 1, 0, s.index + 1, true⟩
  | c :: rest => ⟨rest, s.line, s.column + 1, s.index + 1, s.fresh && isBlank c⟩

/-- The place behind some characters. -/
def advance : Nat → Spot → Spot
  | 0, s => s
  | n + 1, s => advance n s.next

/-- The place behind the characters of a class. -/
def skipWhile (p : Char → Bool) (s : Spot) : Spot :=
  s.advance (s.rest.takeWhile p).length

/-- The place at the end of the line. -/
def skipComment (s : Spot) : Spot :=
  s.skipWhile (· != '\n')

/-- Whether a marker of three characters stands at the left margin here. -/
def isMarker (marker : String) (s : Spot) : Bool :=
  s.column == 0 &&
    match marker.toList.isPrefixOf? s.rest with
    | some rest => blankNext rest
    | none => false

/-- Whether a document begins or ends here. -/
def isAtBoundary (s : Spot) : Bool :=
  s.isMarker "---" || s.isMarker "..."

/-- The place behind blanks and a comment, on the same line; a comment has to be parted from what
stands before it. -/
def behindBlanks? (s : Spot) : Option Spot :=
  let t := s.skipWhile isBlank
  if t.rest.head? = some '#' then
    if t.index = s.index then none else some t.skipComment
  else some t

/-- The place at the end of a line that has no content but a comment, from a tab in front of it. -/
def emptyLine? (s : Spot) : Option Spot :=
  s.behindBlanks?.filter fun t => endNext t.rest

/-- The place of the next content; `indented` tells whether a tab must not indent content here. -/
def content? (indented : Spot → Bool) : Nat → Spot → Option Spot
  | 0, s => some s
  | fuel + 1, s =>
      match s.rest with
      | '\t' :: _ =>
          if s.fresh && indented s then s.emptyLine?.bind (content? indented fuel)
          else content? indented fuel s.next
      | ' ' :: _ => content? indented fuel s.next
      | '\n' :: _ => content? indented fuel s.next
      | '#' :: _ => content? indented fuel s.skipComment
      | _ => some s

/-- The place behind spaces, line ends and comments. -/
def skipSpace : Nat → Spot → Spot
  | 0, s => s
  | fuel + 1, s =>
      match s.rest with
      | ' ' :: _ => skipSpace fuel s.next
      | '\n' :: _ => skipSpace fuel s.next
      | '#' :: _ => skipSpace fuel s.skipComment
      | _ => s

end Spot
end Yaml
end RpcGateway
