import RpcGateway.Text.CodePoint

/-!
# TOML texts

The four kinds of TOML strings and the keys that are built from them.

**Quotes.**  A basic string has escapes, a literal string has none; each may be written between
single quotes of its kind or, over several lines, between triple ones.

**Readers.**  A reader takes the front of a text and gives what it has read with the rest.
-/

namespace RpcGateway
namespace Toml

abbrev Reader (α : Type) := List Char → Option (α × List Char)

/-- A character that may stand in a comment or a string. -/
def isPlain (c : Char) : Bool :=
  c == '\t' || (' ' ≤ c && c != '\x7f')

/-- A blank within a line. -/
def isSpace (c : Char) : Bool :=
  c == ' ' || c == '\t'

/-- A text without blanks at its front. -/
def skipSpaces (cs : List Char) : List Char :=
  cs.dropWhile isSpace

/-- The rest behind a line end, if one is next. -/
def newline? : List Char → Option (List Char)
  | '\n' :: rest => some rest
  | '\r' :: '\n' :: rest => some rest
  | _ => none

/-- Reads an escape behind its backslash. -/
def escape : Reader Char
  | 'b' :: rest => some ('\x08', rest)
  | 't' :: rest => some ('\t', rest)
  | 'n' :: rest => some ('\n', rest)
  | 'f' :: rest => some ('\x0c', rest)
  | 'r' :: rest => some ('\r', rest)
  | '"' :: rest => some ('"', rest)
  | '\\' :: rest => some ('\\', rest)
  | 'u' :: rest => CodePoint.read 4 rest
  | 'U' :: rest => CodePoint.read 8 rest
  | _ => none

/-- Reads the inside of a basic string and its closing quote. -/
def basic : Nat → Reader (List Char)
  | 0, _ => none
  | _ + 1, [] => none
  | fuel + 1, c :: rest =>
      if c = '"' then some ([], rest)
      else if c = '\\' then
        match escape rest with
        | none => none
        | some (e, rest) => (basic fuel rest).map fun r => (e :: r.1, r.2)
      else if isPlain c then (basic fuel rest).map fun r => (c :: r.1, r.2)
      else none

/-- Reads the inside of a literal string and its closing quote. -/
def literal : Reader (List Char)
  | [] => none
  | c :: rest =>
      if c = '\'' then some ([], rest)
      else if isPlain c then (literal rest).map fun r => (c :: r.1, r.2)
      else none

/-- The quotes at the front of a text, and what follows. -/
def quotes (q : Char) (cs : List Char) : Nat × List Char :=
  ((cs.takeWhile (· == q)).length, cs.dropWhile (· == q))

/-- Reads quotes within a string over several lines: either they are part of it, or they close it
and up to two before them are part of it. -/
def closing? (q : Char) (cs : List Char) : Option (List Char × List Char) :=
  let (n, _) := quotes q cs
  if n < 3 then none
  else
    let m := min n 5
    some (List.replicate (m - 3) q, cs.drop m)

/-- A text without blanks and line ends at its front. -/
def skipLines : Nat → List Char → List Char
  | 0, cs => cs
  | fuel + 1, cs =>
      let cs := skipSpaces cs
      match newline? cs with
      | some rest => skipLines fuel rest
      | none => cs

/-- The rest behind a backslash that joins lines, if it does. -/
def joined? (cs : List Char) : Option (List Char) :=
  (newline? (skipSpaces cs)).map fun rest => skipLines rest.length rest

/-- Reads the inside of a string over several lines and its closing quotes. -/
def multiline (q : Char) (escapes : Bool) : Nat → Reader (List Char)
  | 0, _ => none
  | _ + 1, [] => none
  | fuel + 1, c :: rest =>
      match if c = q then closing? q (c :: rest) else none with
      | some r => some r
      | none =>
          if escapes && c == '\\' then
            match joined? rest with
            | some rest => multiline q escapes fuel rest
            | none =>
                match escape rest with
                | none => none
                | some (e, rest) => (multiline q escapes fuel rest).map fun r => (e :: r.1, r.2)
          else
            match newline? (c :: rest) with
            | some rest => (multiline q escapes fuel rest).map fun r => ('\n' :: r.1, r.2)
            | none =>
                if isPlain c then (multiline q escapes fuel rest).map fun r => (c :: r.1, r.2)
                else none

/-- A text without a line end at its front. -/
def skipNewline (cs : List Char) : List Char :=
  (newline? cs).getD cs

def string : Reader (List Char)
  | '"' :: '"' :: '"' :: rest => multiline '"' true (rest.length + 1) (skipNewline rest)
  | '"' :: rest => basic (rest.length + 1) rest
  | '\'' :: '\'' :: '\'' :: rest => multiline '\'' false (rest.length + 1) (skipNewline rest)
  | '\'' :: rest => literal rest
  | _ => none

/-- A character of a key without quotes. -/
def isBareChar (c : Char) : Bool :=
  c.isAlphanum || c == '_' || c == '-'

def simpleKey : Reader String
  | '"' :: rest => (basic (rest.length + 1) rest).map fun r => (String.ofList r.1, r.2)
  | '\'' :: rest => (literal rest).map fun r => (String.ofList r.1, r.2)
  | cs =>
      let key := cs.takeWhile isBareChar
      if key.isEmpty then none else some (String.ofList key, cs.dropWhile isBareChar)

/-- Reads a key of parts with points between them, and the blanks around it. -/
def dottedKey : Nat → Reader (List String)
  | 0, _ => none
  | fuel + 1, cs =>
      match simpleKey (skipSpaces cs) with
      | none => none
      | some (key, rest) =>
          match skipSpaces rest with
          | '.' :: rest => (dottedKey fuel rest).map fun r => (key :: r.1, r.2)
          | rest => some ([key], rest)

/-- The greatest number of parts of a key. -/
def maxParts : Nat := 79

def key : Reader (List String) := fun cs =>
  (dottedKey (cs.length + 1) cs).filter fun r => decide (r.1.length ≤ maxParts)

end Toml
end RpcGateway
