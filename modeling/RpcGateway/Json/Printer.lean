import RpcGateway.Json.Basic
import RpcGateway.Number.Shortest
import RpcGateway.Text.Utf8

/-!
# Writing JSON text

`compact` writes a value without blanks, `pretty` with one member or item a line and two spaces
of indentation a level.

**Strings.**  A quote, a backslash and the control characters below the space are escaped, by a
letter where there is one and by four hexadecimal digits otherwise.  Everything else is written
as it is.
-/

namespace RpcGateway
namespace Json

/-- A character as it stands in a string literal. -/
def escapeChar (c : Char) : List Char :=
  if c = '"' then ['\\', '"']
  else if c = '\\' then ['\\', '\\']
  else if 32 ≤ c.toNat then [c]
  else if c.toNat = 8 then ['\\', 'b']
  else if c.toNat = 12 then ['\\', 'f']
  else if c.toNat = 10 then ['\\', 'n']
  else if c.toNat = 13 then ['\\', 'r']
  else if c.toNat = 9 then ['\\', 't']
  else ['\\', 'u', '0', '0', Nat.digitChar (c.toNat / 16), Nat.digitChar (c.toNat % 16)]

def stringText (s : String) : List Char :=
  '"' :: (s.toList.flatMap escapeChar ++ ['"'])

def Number.text : Number → List Char
  | .integer n => Decimal.ofInt n
  | .real x => if x.isFinite then x.literal else "null".toList

mutual

/-- The text of a value without blanks. -/
def compact : Value → List Char
  | .null => "null".toList
  | .boolean true => "true".toList
  | .boolean false => "false".toList
  | .number n => n.text
  | .string s => stringText s
  | .array items => '[' :: (compactItems items ++ [']'])
  | .object members => '\x7b' :: (compactMembers members ++ ['\x7d'])

/-- The items of a list, separated by commas. -/
def compactItems : List Value → List Char
  | [] => []
  | [v] => compact v
  | v :: w :: rest => compact v ++ ',' :: compactItems (w :: rest)

/-- The members of an object, separated by commas. -/
def compactMembers : List (String × Value) → List Char
  | [] => []
  | [(k, v)] => stringText k ++ ':' :: compact v
  | (k, v) :: w :: rest => stringText k ++ ':' :: (compact v ++ ',' :: compactMembers (w :: rest))

end

/-- A line break and the indentation of a level. -/
def newLine (level : Nat) : List Char :=
  '\n' :: List.replicate (2 * level) ' '

mutual

/-- The indented text of a value that stands at a level. -/
def prettyAt (level : Nat) : Value → List Char
  | .null => "null".toList
  | .boolean true => "true".toList
  | .boolean false => "false".toList
  | .number n => n.text
  | .string s => stringText s
  | .array [] => ['[', ']']
  | .array (v :: rest) => '[' :: (prettyItems (level + 1) (v :: rest) ++ newLine level ++ [']'])
  | .object [] => ['\x7b', '\x7d']
  | .object (m :: rest) =>
      '\x7b' :: (prettyMembers (level + 1) (m :: rest) ++ newLine level ++ ['\x7d'])

/-- The items of a list, each on a line of its own. -/
def prettyItems (level : Nat) : List Value → List Char
  | [] => []
  | [v] => newLine level ++ prettyAt level v
  | v :: w :: rest => newLine level ++ prettyAt level v ++ ',' :: prettyItems level (w :: rest)

/-- The members of an object, each on a line of its own. -/
def prettyMembers (level : Nat) : List (String × Value) → List Char
  | [] => []
  | [(k, v)] => newLine level ++ stringText k ++ ':' :: ' ' :: prettyAt level v
  | (k, v) :: w :: rest =>
      newLine level ++ stringText k ++ ':' :: ' ' :: (prettyAt level v ++
        ',' :: prettyMembers level (w :: rest))

end

/-- The indented text of a value. -/
def pretty (v : Value) : List Char :=
  prettyAt 0 v

/-- The bytes of a value's text. -/
def Value.bytes (indented : Bool) (v : Value) : List UInt8 :=
  Utf8.encode (if indented then pretty v else compact v)

/-- The text of a value without blanks. -/
def Value.text (v : Value) : String :=
  String.ofList (compact v)

end Json
end RpcGateway
