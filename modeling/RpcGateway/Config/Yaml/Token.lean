import RpcGateway.Config.Yaml.Scalar
import RpcGateway.Config.Yaml.Tag

/-!
# YAML tokens

A YAML text is a sequence of tokens.  Indentation shows in it as tokens that begin and end lists and
tables.

**Margins.**  The lists and tables that are open line by line form a stack of margins.  A token to
the left of a margin closes what it belongs to.  What follows a key or a dash has a margin of its
own, one column further, that opens nothing.

**Keys.**  Only the colon behind it shows that something was a key.  The place where a key may begin
is noted, and the tokens that belong in front of it are put there when the colon comes.  Outside of
brackets a key is one line of at most 1024 characters.

**Pairs.**  A key in a list between brackets makes a table of one entry, whose braces are put into
the sequence.
-/

namespace RpcGateway
namespace Yaml

inductive Token
  /-- A line in front of a document. -/
  | directive (d : Directive)
  /-- Three dashes. -/
  | documentStart
  /-- Three points. -/
  | documentEnd
  /-- A list begins line by line. -/
  | listStart
  /-- A table begins line by line. -/
  | tableStart
  /-- A list or a table ends line by line. -/
  | blockEnd
  /-- An opening bracket. -/
  | flowListStart
  /-- A closing bracket. -/
  | flowListEnd
  /-- An opening brace. -/
  | flowTableStart
  /-- A closing brace. -/
  | flowTableEnd
  | dash
  | comma
  | key
  /-- The colon behind a key. -/
  | value
  /-- Repeats a named node. -/
  | alias (name : String)
  | anchor (name : String)
  | tag (t : Tag)
  /-- A scalar, written plainly or not. -/
  | scalar (plain : Bool) (text : List Char)
  deriving DecidableEq, Repr

structure Margin where
  column : Int
  /-- Whether a list or a table is open at it. -/
  opens : Bool

/-- A place where a key may begin. -/
structure KeyMark where
  spot : Spot
  /-- The number of tokens before it. -/
  position : Nat
  /-- Whether nothing but a key can stand there. -/
  required : Bool

/-- What has been read of a text. -/
structure Lexer where
  /-- The place that was reached. -/
  spot : Spot
  tokens : Array Token := #[]
  /-- The margins, the innermost first. -/
  margins : List Margin := []
  /-- Whether a key may begin here. -/
  keyAllowed : Bool := true
  /-- Where the key of the innermost bracket or brace may have begun. -/
  mark : Option KeyMark := none
  /-- The same for the brackets and braces around it. -/
  outerMarks : List (Option KeyMark) := []
  /-- For each open bracket, the innermost first, whether a pair is open in it. -/
  pairs : List Bool := []
  /-- Whether braces are written out, so that no pair begins here. -/
  braced : Bool := false
  /-- Where a colon needs no blank behind it. -/
  adjacentAt : Nat := 0

namespace Lexer

/-- The number of open brackets and braces. -/
def depth (l : Lexer) : Nat :=
  l.outerMarks.length

/-- Whether a bracket or a brace is open. -/
def inFlow (l : Lexer) : Bool :=
  !l.outerMarks.isEmpty

/-- The column of the innermost margin. -/
def margin (l : Lexer) : Int :=
  match l.margins with
  | m :: _ => m.column
  | [] => -1

/-- Whether a list or a table is open at the innermost margin. -/
def isOpen (l : Lexer) : Bool :=
  l.margins.head?.any Margin.opens

def push (l : Lexer) (t : Token) : Lexer :=
  { l with tokens := l.tokens.push t }

/-- Puts a token behind so many others. -/
def insert (l : Lexer) (position : Nat) (t : Token) : Lexer :=
  { l with tokens := l.tokens.insertIdxIfInBounds position t }

def goTo (l : Lexer) (s : Spot) : Lexer :=
  { l with spot := s }

/-- Moves on to the next content; behind a line end a key may begin. -/
def goToContent? (l : Lexer) : Option Lexer :=
  let indented (s : Spot) : Bool := !l.margins.isEmpty && s.column < l.margin
  (l.spot.content? indented (l.spot.rest.length + 1)).map fun s =>
    { l with spot := s, keyAllowed := l.keyAllowed || (!l.inFlow && l.spot.line < s.line) }

/-- Moves on behind blanks and a comment. -/
def goBehindBlanks? (l : Lexer) : Option Lexer :=
  l.spot.behindBlanks?.map l.goTo

/-!
## Margins
-/

def closeMargins (column : Int) : List Margin → Lexer → Lexer
  | [], l => { l with margins := [] }
  | m :: ms, l =>
      if column < m.column then
        closeMargins column ms (if m.opens then l.push .blockEnd else l)
      else { l with margins := m :: ms }

/-- Closes what is to the right of a column; brackets and braces keep everything open. -/
def closeTo (l : Lexer) (column : Int) : Lexer :=
  if l.inFlow then l else closeMargins column l.margins l

/-- Drops the margins that open nothing. -/
def dropLoose (l : Lexer) : Lexer :=
  { l with margins := l.margins.dropWhile fun m => !m.opens }

/-- Sets a margin that opens nothing, one column further, behind one that opens something. -/
def loosen (l : Lexer) : Lexer :=
  if !l.inFlow && l.isOpen then { l with margins := ⟨l.margin + 1, false⟩ :: l.margins } else l

/-- The margins without an innermost one that opens nothing and is not to the right of a column. -/
def marginsFor (l : Lexer) (column : Nat) : List Margin :=
  match l.margins with
  | m :: ms => if !m.opens && m.column ≤ column then ms else m :: ms
  | [] => []

/-- Opens a list or a table at a column, unless one is open there. -/
def openAt (l : Lexer) (column position : Nat) (t : Token) : Lexer :=
  if l.inFlow then l
  else
    let l := { l with margins := l.marginsFor column }
    if l.margin < (column : Int) then
      { l.insert position t with margins := ⟨column, true⟩ :: l.margins }
    else l

/-!
## Keys
-/

/-- Notes that a key may begin here. -/
def noteKey (l : Lexer) : Lexer :=
  if l.keyAllowed then
    let required := !l.inFlow && l.isOpen && l.margin == l.spot.column
    { l with mark := some ⟨l.spot, l.tokens.size, required⟩ }
  else l

/-- Forgets where a key may have begun, unless one is required. -/
def dropMark? (l : Lexer) : Option Lexer :=
  if l.mark.any KeyMark.required then none else some { l with mark := none }

/-- Forgets a key that would be too long, or go over several lines. -/
def dropStale? (l : Lexer) : Option Lexer :=
  let isStale (m : KeyMark) : Bool :=
    m.spot.line < l.spot.line || m.spot.index + 1024 < l.spot.index
  if !l.inFlow && l.mark.any isStale then l.dropMark? else some l

/-- Closes the pair that is open in the innermost bracket. -/
def closePair (l : Lexer) : Lexer :=
  match l.pairs with
  | true :: ps => { l.push .flowTableEnd with pairs := false :: ps, braced := false }
  | _ => l

/-!
## Tokens
-/

/-- Reads an opening bracket or brace. -/
def openFlow? (l : Lexer) (t : Token) : Option Lexer :=
  if 255 ≤ l.depth then none
  else
    let l := l.noteKey.loosen
    let l := { l with mark := none, outerMarks := l.mark :: l.outerMarks, keyAllowed := true }
    let l :=
      if t = .flowTableStart then { l with braced := true }
      else { l with pairs := false :: l.pairs }
    ((l.goTo l.spot.next).goBehindBlanks?).map (push · t)

/-- Reads a closing bracket or brace. -/
def closeFlow? (l : Lexer) (t : Token) : Option Lexer :=
  match l.dropMark? with
  | none => none
  | some l =>
      let l :=
        match l.outerMarks with
        | m :: ms => { l with mark := m, outerMarks := ms, keyAllowed := false }
        | [] => { l with keyAllowed := false }
      let l :=
        if t = .flowListEnd then { l.closePair with pairs := l.pairs.tail } else l
      ((l.goTo l.spot.next).goBehindBlanks?).map fun l =>
        { l.push t with adjacentAt := if l.inFlow then l.spot.index else l.adjacentAt }

def comma? (l : Lexer) : Option Lexer :=
  match l.dropMark? with
  | none => none
  | some l =>
      let l := { l.closePair with keyAllowed := true }
      ((l.goTo l.spot.next).goBehindBlanks?).map (push · .comma)

/-- Reads the dash of an item; no tab parts it from another. -/
def dash? (l : Lexer) : Option Lexer :=
  if l.inFlow || !l.keyAllowed then none
  else
    let behind := l.spot.next
    let tabbed := (behind.rest.takeWhile isBlank).contains '\t'
    match ((l.openAt l.spot.column l.tokens.size .listStart).goTo behind).goBehindBlanks? with
    | none => none
    | some l =>
        if tabbed && l.spot.rest.head? == some '-' && blankNext l.spot.rest.tail then none
        else
          let nothingFollows := l.spot.rest.head? == some '\n' || flowNext l.spot.rest
          let l := if nothingFollows then l.loosen else l
          l.dropMark?.map fun l => { l.push .dash with keyAllowed := true }

/-- Reads the question mark in front of a key; a space or a line end follows it, and no tab. -/
def question? (l : Lexer) : Option Lexer :=
  if !l.inFlow && !l.keyAllowed then none
  else
    let l :=
      if l.inFlow then { l with braced := true }
      else l.openAt l.spot.column l.tokens.size .tableStart
    match l.dropMark? with
    | none => none
    | some l =>
        let behind := l.spot.next
        let s := behind.skipSpace (behind.rest.length + 1)
        if s.index = behind.index || s.rest.head? = some '\t' then none
        else some { (l.goTo s).push .key with keyAllowed := !l.inFlow }

/-- Puts the tokens in front of a key that began at a mark. -/
def placeKey? (l : Lexer) (m : KeyMark) (paired : Bool) : Option Lexer :=
  if paired && m.spot.line < l.spot.line then none
  else
    let l := l.insert m.position .key
    let l := if paired then l.insert m.position .flowTableStart else l
    let l := (l.openAt m.spot.column m.position .tableStart).loosen
    some { l with mark := none, keyAllowed := false }

/-- Puts the tokens in front of a colon without a key, or behind a key with a question mark. -/
def placeNoKey? (l : Lexer) (paired : Bool) : Option Lexer :=
  let l := if paired then l.push .flowTableStart else l
  if l.inFlow then some { l.loosen with keyAllowed := false }
  else if l.keyAllowed then some (l.openAt l.spot.column l.tokens.size .tableStart).loosen
  else none

/-- The place behind a colon; only tabs do not part it from a word. -/
def behindColon? (s : Spot) : Option Spot :=
  let blanks := s.next.rest.takeWhile isBlank
  if blanks.head? ≠ some '\t' then some s.next
  else
    match s.next.behindBlanks? with
    | none => none
    | some t =>
        if !blanks.contains ' ' && t.rest.head?.any isWordChar then none else some t

/-- Reads the colon behind a key. -/
def colon? (l : Lexer) : Option Lexer :=
  let paired := !l.pairs.isEmpty && !l.braced
  let l := if paired then { l with pairs := true :: l.pairs.tail } else l
  match behindColon? l.spot with
  | none => none
  | some behind =>
      let placed? :=
        match l.mark with
        | some m => l.placeKey? m paired
        | none => l.placeNoKey? paired
      placed?.map fun l => (l.goTo behind).push .value

/-- Notes that a key may begin here, which does not begin behind it. -/
def noteNode (l : Lexer) : Lexer :=
  { l.noteKey with keyAllowed := false }

/-- Reads a scalar between quotes, and what parts it from the next content. -/
def quoted? (l : Lexer) (q : Quotes) : Option Lexer :=
  let l := l.noteNode
  match Yaml.quoted? q l.inFlow l.margin l.spot with
  | none => none
  | some (cs, s) =>
      (l.goTo s).goToContent?.map fun l =>
        { l.push (.scalar false cs) with adjacentAt := l.spot.index }

/-- Reads a plain scalar; a key may begin behind it on a line of its own. -/
def plain? (l : Lexer) : Option Lexer :=
  let l := l.noteNode.dropLoose
  (Yaml.plain? l.inFlow (l.margin + 1) l.spot).map fun (cs, s) =>
    { (l.goTo s).push (.scalar true cs) with keyAllowed := s.fresh }

/-- Reads a block of lines. -/
def block? (l : Lexer) : Option Lexer :=
  let l := { l.noteKey.dropLoose with keyAllowed := true }
  (Yaml.block? l.margin l.spot).map fun (cs, s) => (l.goTo s).push (.scalar false cs)

/-- Reads the name of a node, given to it or repeated. -/
def named? (l : Lexer) (token : String → Token) : Option Lexer :=
  let l := l.noteNode
  (nodeName? l.spot).map fun (name, s) => (l.goTo s).push (token name)

def tag? (l : Lexer) : Option Lexer :=
  let l := l.noteNode
  (Yaml.tag? l.inFlow l.spot).map fun (t, s) => (l.goTo s).push (.tag t)

/-- Closes everything in front of a directive or a marker. -/
def atBoundary? (l : Lexer) : Option Lexer :=
  (l.closeTo (-1)).dropMark?.map fun l => { l with keyAllowed := false }

def directive? (l : Lexer) : Option Lexer :=
  match l.atBoundary? with
  | none => none
  | some l => (Yaml.directive? l.spot).map fun (d, s) => (l.goTo s).push (.directive d)

/-- Reads the marker of the beginning of a document. -/
def documentStart? (l : Lexer) : Option Lexer :=
  l.atBoundary?.map fun l => (l.goTo (l.spot.advance 3)).push .documentStart

/-- Reads the marker of the end of a document, which nothing follows on its line. -/
def documentEnd? (l : Lexer) : Option Lexer :=
  match l.atBoundary? with
  | none => none
  | some l => ((l.spot.advance 3).emptyLine?).map fun s => (l.goTo s).push .documentEnd

/-- Reads what begins with a character. -/
def content? (l : Lexer) (c : Char) (rest : List Char) : Option Lexer :=
  let parted := blankNext rest
  if c = '[' then l.openFlow? .flowListStart
  else if c = '\x7b' then l.openFlow? .flowTableStart
  else if c = ']' then l.closeFlow? .flowListEnd
  else if c = '\x7d' then l.closeFlow? .flowTableEnd
  else if c = ',' then l.comma?
  else if c = '-' ∧ parted then l.dash?
  else if c = '?' ∧ parted then l.question?
  else if c = ':' ∧ (parted ∨ (l.inFlow ∧ (flowNext rest ∨ l.spot.index = l.adjacentAt))) then
    l.colon?
  else if c = '*' then l.named? .alias
  else if c = '&' then l.named? .anchor
  else if c = '!' then l.tag?
  else if (c = '|' ∨ c = '>') ∧ !l.inFlow then l.block?
  else if c = '\'' then l.quoted? .single
  else if c = '"' then l.quoted? .double
  else if c = '%' ∨ c = '@' ∨ c = '\x60' then none
  else l.plain?

/-- Reads what stands at the next content, unless the text has ended. -/
def next? (l : Lexer) : Option Lexer :=
  let s := l.spot
  let l := l.closeTo s.column
  if s.column = 0 ∧ s.rest.head? = some '%' then l.directive?
  else if s.isMarker "---" then l.documentStart?
  else if s.isMarker "..." then l.documentEnd?
  else if s.column < l.margin then none
  else
    match s.rest with
    | [] => none
    | c :: rest => l.content? c rest

/-- Closes everything at the end of the text. -/
def finish? (l : Lexer) : Option (List Token) :=
  if (l.mark :: l.outerMarks).any fun m => m.any KeyMark.required then none
  else some (l.closeTo (-1)).tokens.toList

/-- Reads to the end of the text. -/
def run? : Nat → Lexer → Option (List Token)
  | 0, _ => none
  | fuel + 1, l =>
      match l.goToContent?.bind dropStale? with
      | none => none
      | some l => if l.spot.rest.isEmpty then l.finish? else l.next?.bind (run? fuel)

end Lexer

def Token.ofText? (cs : List Char) : Option (List Token) :=
  Lexer.run? (cs.length + 1) { spot := { rest := unified cs } }

end Yaml
end RpcGateway
