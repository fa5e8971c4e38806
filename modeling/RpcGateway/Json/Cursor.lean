import RpcGateway.Json.Basic

/-!
# Reading position and faults

A reader of JSON text walks over bytes and knows the line and column it has reached.  A fault is
placed either behind the last byte that was read (`Cursor.fail`) or behind the byte that is next
(`Cursor.failNext`).
-/

namespace RpcGateway
namespace Json

/-- Why a text is refused. -/
inductive Cause
  | endInList
  | endInObject
  | endInString
  | endInValue
  | expectedColon
  | expectedListCommaOrEnd
  | expectedObjectCommaOrEnd
  | expectedIdent
  | expectedValue
  | invalidEscape
  | invalidNumber
  | numberOutOfRange
  | invalidCodePoint
  | controlCharacter
  | keyMustBeString
  | loneSurrogate
  | trailingComma
  | trailingCharacters
  | unexpectedEndOfHexEscape
  | tooDeep
  /-- The text is well formed, but the value does not fit where it stands. -/
  | unfit (message : String)
  deriving DecidableEq, Repr

def Cause.message : Cause → String
  | .endInList => "EOF while parsing a list"
  | .endInObject => "EOF while parsing an object"
  | .endInString => "EOF while parsing a string"
  | .endInValue => "EOF while parsing a value"
  | .expectedColon => "expected `:`"
  | .expectedListCommaOrEnd => "expected `,` or `]`"
  | .expectedObjectCommaOrEnd => "expected `,` or `\x7d`"
  | .expectedIdent => "expected ident"
  | .expectedValue => "expected value"
  | .invalidEscape => "invalid escape"
  | .invalidNumber => "invalid number"
  | .numberOutOfRange => "number out of range"
  | .invalidCodePoint => "invalid unicode code point"
  | .controlCharacter =>
      "control character (\\u0000-\\u001F) found while parsing a string"
  | .keyMustBeString => "key must be a string"
  | .loneSurrogate => "lone leading surrogate in hex escape"
  | .trailingComma => "trailing comma"
  | .trailingCharacters => "trailing characters"
  | .unexpectedEndOfHexEscape => "unexpected end of hex escape"
  | .tooDeep => "recursion limit exceeded"
  | .unfit message => message

/-- A cause and the place where it was noticed. -/
structure Fault where
  cause : Cause
  /-- The line, counted from one. -/
  line : Nat
  /-- The number of bytes of the line that were read. -/
  column : Nat
  deriving DecidableEq, Repr

def Fault.message (f : Fault) : String :=
  s!"{f.cause.message} at line {f.line} column {f.column}"

/-- The bytes that are left, and the place that was reached. -/
structure Cursor where
  /-- The bytes that are left. -/
  rest : List UInt8
  line : Nat := 1
  /-- The bytes read of the current line. -/
  column : Nat := 0
  deriving DecidableEq, Repr

/-- A reader takes a value off the front of the text. -/
abbrev Reader (α : Type) := Cursor → Except Fault (α × Cursor)

namespace Cursor

def start (bytes : List UInt8) : Cursor :=
  { rest := bytes }

/-- The byte that is next. -/
def peek? (c : Cursor) : Option UInt8 :=
  c.rest.head?

/-- Steps over the next byte. -/
def advance (c : Cursor) : Cursor :=
  match c.rest with
  | [] => c
  | b :: bs => if b = 10 then ⟨bs, c.line + 1, 0⟩ else ⟨bs, c.line, c.column + 1⟩

/-- A fault behind the last byte that was read. -/
def fail (c : Cursor) (cause : Cause) : Fault :=
  ⟨cause, c.line, c.column⟩

/-- A fault behind the byte that is next. -/
def failNext (c : Cursor) (cause : Cause) : Fault :=
  c.advance.fail cause

/-- Steps over the leading bytes that satisfy `p`. -/
def skipWhile (p : UInt8 → Bool) : List UInt8 → Nat → Nat → Cursor
  | [], line, column => ⟨[], line, column⟩
  | b :: bs, line, column =>
      if p b then
        if b = 10 then skipWhile p bs (line + 1) 0 else skipWhile p bs line (column + 1)
      else ⟨b :: bs, line, column⟩

/-- The blanks between tokens. -/
def isGap (b : UInt8) : Bool :=
  b == 32 || b == 10 || b == 9 || b == 13

/-- Steps over the blanks between tokens. -/
def skipGap (c : Cursor) : Cursor :=
  skipWhile isGap c.rest c.line c.column

def isDigit (b : UInt8) : Bool :=
  48 ≤ b && b ≤ 57

/-- Steps over decimal digits. -/
def skipDigits (c : Cursor) : Cursor :=
  skipWhile isDigit c.rest c.line c.column

end Cursor

end Json
end RpcGateway
