import RpcGateway.Json.Scalar

/-!
# Reading JSON text

`parse` reads a whole text as one value; `skipValue` steps over a value without keeping it.

**Nesting.**  Containers nest at most 127 deep.  `value n` reads a value with at most `n` levels
of containers, so reading ends by recursion on `n`.

**Lists.**  `elements` and `members` read what stands between the brackets with a given reader;
they are shared by the reader of values and by the readers of typed messages.
-/

namespace RpcGateway
namespace Json

/-- How many containers may enclose a value. -/
def maxDepth : Nat := 127

/-- Steps to the next element of a list, or to its closing bracket. -/
def nextElement (first : Bool) (c : Cursor) : Except Fault (Bool × Cursor) :=
  let c := c.skipGap
  match c.peek? with
  | none => .error (c.failNext .endInList)
  | some b =>
      if b = 93 then .ok (false, c)
      else if first then .ok (true, c)
      else if b = 44 then
        let c := c.advance.skipGap
        match c.peek? with
        | none => .error (c.failNext .endInValue)
        | some b => if b = 93 then .error (c.failNext .trailingComma) else .ok (true, c)
      else .error (c.failNext .expectedListCommaOrEnd)

/-- Steps to the quote of the next key of an object, or to its closing brace. -/
def nextKey (first : Bool) (c : Cursor) : Except Fault (Bool × Cursor) :=
  let c := c.skipGap
  match c.peek? with
  | none => .error (c.failNext .endInObject)
  | some b =>
      if b = 125 then .ok (false, c)
      else if first then
        if b = 34 then .ok (true, c) else .error (c.failNext .keyMustBeString)
      else if b = 44 then
        let c := c.advance.skipGap
        match c.peek? with
        | none => .error (c.failNext .endInValue)
        | some b =>
            if b = 34 then .ok (true, c)
            else if b = 125 then .error (c.failNext .trailingComma)
            else .error (c.failNext .keyMustBeString)
      else .error (c.failNext .expectedObjectCommaOrEnd)

/-- Reads the colon behind a key. -/
def colon (c : Cursor) : Except Fault Cursor :=
  let c := c.skipGap
  match c.peek? with
  | none => .error (c.failNext .endInObject)
  | some b => if b = 58 then .ok c.advance else .error (c.failNext .expectedColon)

/-- The elements of a list, up to its closing bracket. -/
def elements {α : Type} (item : Reader α) : Nat → Bool → Reader (List α)
  | 0, _, c => .error (c.failNext .endInList)
  | fuel + 1, first, c =>
      match nextElement first c with
      | .error f => .error f
      | .ok (false, c) => .ok ([], c)
      | .ok (true, c) =>
          match item c with
          | .error f => .error f
          | .ok (x, c) =>
              match elements item fuel false c with
              | .error f => .error f
              | .ok (xs, c) => .ok (x :: xs, c)

/-- The members of an object, up to its closing brace. -/
def members {α : Type} (item : Reader α) : Nat → Bool → Reader (List (String × α))
  | 0, _, c => .error (c.failNext .endInObject)
  | fuel + 1, first, c =>
      match nextKey first c with
      | .error f => .error f
      | .ok (false, c) => .ok ([], c)
      | .ok (true, c) =>
          match stringLiteral c.advance with
          | .error f => .error f
          | .ok (key, c) =>
              match colon c with
              | .error f => .error f
              | .ok c =>
                  match item c with
                  | .error f => .error f
                  | .ok (x, c) =>
                      match members item fuel false c with
                      | .error f => .error f
                      | .ok (xs, c) => .ok ((key, x) :: xs, c)

/-- Reads a value whose containers are read by the given readers. -/
def valueWith (list object : Reader Value) : Reader Value := fun c =>
  let c := c.skipGap
  match c.peek? with
  | none => .error (c.failNext .endInValue)
  | some b =>
      if b = 110 then (word [117, 108, 108] c.advance).map fun c => (.null, c)
      else if b = 116 then (word [114, 117, 101] c.advance).map fun c => (.boolean true, c)
      else if b = 102 then (word [97, 108, 115, 101] c.advance).map fun c => (.boolean false, c)
      else if b = 45 || Cursor.isDigit b then (number b c).map fun r => (.number r.1, r.2)
      else if b = 34 then (stringLiteral c.advance).map fun r => (.string r.1, r.2)
      else if b = 91 then list c
      else if b = 123 then object c
      else .error (c.failNext .expectedValue)

/-- Refuses a container that stands too deep. -/
def tooDeep {α : Type} : Reader α := fun c =>
  .error (c.failNext .tooDeep)

/-- Reads a list whose items are read by `item`. -/
def listOf (item : Reader Value) : Reader Value := fun c =>
  match elements item (c.rest.length + 1) true c.advance with
  | .error f => .error f
  | .ok (xs, c) => .ok (.array xs, c.advance)

/-- Reads an object whose values are read by `item`; the last of equal keys counts. -/
def objectOf (item : Reader Value) : Reader Value := fun c =>
  match members item (c.rest.length + 1) true c.advance with
  | .error f => .error f
  | .ok (ms, c) => .ok (.object (Members.ofList ms), c.advance)

/-- Reads a value with at most the given levels of containers. -/
def value : Nat → Cursor → Except Fault (Value × Cursor)
  | 0, c => valueWith tooDeep tooDeep c
  | n + 1, c => valueWith (listOf (value n)) (objectOf (value n)) c

/-- Refuses whatever follows the value. -/
def atEnd (c : Cursor) : Except Fault Unit :=
  let c := c.skipGap
  match c.peek? with
  | none => .ok ()
  | some _ => .error (c.failNext .trailingCharacters)

/-- Reads the closing bracket of a list; on failure, the place that was reached is kept. -/
def closeList (c : Cursor) : Cursor × Option Fault :=
  let c := c.skipGap
  match c.peek? with
  | none => (c, some (c.failNext .endInList))
  | some b =>
      if b = 93 then (c.advance, none)
      else if b = 44 then
        let c := c.advance.skipGap
        if c.peek? = some 93 then (c, some (c.failNext .trailingComma))
        else (c, some (c.failNext .trailingCharacters))
      else (c, some (c.failNext .trailingCharacters))

/-- Reads the closing brace of an object; on failure, the place that was reached is kept. -/
def closeObject (c : Cursor) : Cursor × Option Fault :=
  let c := c.skipGap
  match c.peek? with
  | none => (c, some (c.failNext .endInObject))
  | some b =>
      if b = 125 then (c.advance, none)
      else if b = 44 then (c, some (c.failNext .trailingComma))
      else (c, some (c.failNext .trailingCharacters))

/-- Reads a whole text with the given reader. -/
def parseWith {α : Type} (reader : Reader α) (bytes : List UInt8) : Except Fault α :=
  match reader (Cursor.start bytes) with
  | .error f => .error f
  | .ok (x, c) => (atEnd c).map fun _ => x

/-- Reads a whole text as one value. -/
def parse (bytes : List UInt8) : Except Fault Value :=
  parseWith (value maxDepth) bytes

/-!
## Stepping over a value

A value that no field asks for is only checked: the digits of its numbers are not evaluated, its
strings may hold any bytes, and its nesting is not limited.
-/

/-- Steps over the inside of a string literal and its closing quote. -/
def skipString : Nat → Cursor → Except Fault Cursor
  | 0, c => .error (c.fail .endInString)
  | fuel + 1, c =>
      match c.peek? with
      | none => .error (c.fail .endInString)
      | some b =>
          if b = 34 then .ok c.advance
          else if b = 92 then
            let c := c.advance
            match c.peek? with
            | none => .error (c.fail .endInString)
            | some e =>
                if e = 117 then
                  match hexEscape c.advance with
                  | .error f => .error f
                  | .ok (_, c) => skipString fuel c
                else match shortEscape? e with
                  | some _ => skipString fuel c.advance
                  | none => .error (c.advance.fail .invalidEscape)
          else if b < 32 then .error (c.fail .controlCharacter)
          else skipString fuel c.advance

/-- Steps over an exponent, from its letter on. -/
def skipExponent (c : Cursor) : Except Fault Cursor :=
  let c := (exponentSign c.advance).2
  if digitNext c then .ok c.advance.skipDigits else .error (c.advance.fail .invalidNumber)

def skipExponentOrEnd (c : Cursor) : Except Fault Cursor :=
  match c.peek? with
  | some b => if b = 101 || b = 69 then skipExponent c else .ok c
  | none => .ok c

/-- Steps over what follows the digits before the point. -/
def skipFraction (c : Cursor) : Except Fault Cursor :=
  match c.peek? with
  | some b =>
      if b = 46 then
        let c := c.advance
        if digitNext c then skipExponentOrEnd c.skipDigits else .error (c.failNext .invalidNumber)
      else skipExponentOrEnd c
  | none => .ok c

/-- Steps over a number behind its sign. -/
def skipNumber (c : Cursor) : Except Fault Cursor :=
  match c.peek? with
  | none => .error (c.fail .invalidNumber)
  | some b =>
      if b = 48 then
        let c := c.advance
        if digitNext c then .error (c.failNext .invalidNumber) else skipFraction c
      else if Cursor.isDigit b then skipFraction c.skipDigits
      else .error (c.advance.fail .invalidNumber)

/-- A container that is open around the current place. -/
inductive Frame
  | list
  | object
  deriving DecidableEq

/-- What is expected next. -/
inductive Expectation
  | item
  /-- The first item of the innermost container, or its end. -/
  | first
  /-- A comma, or the end of the innermost container. -/
  | more
  /-- A key of the innermost object. -/
  | key
  deriving DecidableEq

/-- Steps over what is expected and everything up to the end of the outermost value. -/
def skip : Nat → Expectation → List Frame → Cursor → Except Fault Cursor
  | 0, _, _, c => .error (c.failNext .endInValue)
  | fuel + 1, .item, frames, c =>
      let c := c.skipGap
      match c.peek? with
      | none => .error (c.failNext .endInValue)
      | some b =>
          if b = 110 then (word [117, 108, 108] c.advance).bind (skip fuel .more frames)
          else if b = 116 then (word [114, 117, 101] c.advance).bind (skip fuel .more frames)
          else if b = 102 then (word [97, 108, 115, 101] c.advance).bind (skip fuel .more frames)
          else if b = 45 then (skipNumber c.advance).bind (skip fuel .more frames)
          else if Cursor.isDigit b then (skipNumber c).bind (skip fuel .more frames)
          else if b = 34 then
            (skipString (c.rest.length + 1) c.advance).bind (skip fuel .more frames)
          else if b = 91 then skip fuel .first (.list :: frames) c.advance
          else if b = 123 then skip fuel .first (.object :: frames) c.advance
          else .error (c.failNext .expectedValue)
  | _ + 1, .first, [], c => .ok c
  | fuel + 1, .first, frame :: frames, c =>
      let c := c.skipGap
      match c.peek?, frame with
      | none, .list => .error (c.failNext .endInList)
      | none, .object => .error (c.failNext .endInObject)
      | some b, .list =>
          if b = 93 then skip fuel .more frames c.advance
          else skip fuel .item (frame :: frames) c
      | some b, .object =>
          if b = 125 then skip fuel .more frames c.advance
          else skip fuel .key (frame :: frames) c
  | _ + 1, .more, [], c => .ok c
  | fuel + 1, .more, frame :: frames, c =>
      let c := c.skipGap
      match c.peek?, frame with
      | none, .list => .error (c.failNext .endInList)
      | none, .object => .error (c.failNext .endInObject)
      | some b, .list =>
          if b = 44 then skip fuel .item (frame :: frames) c.advance
          else if b = 93 then skip fuel .more frames c.advance
          else .error (c.failNext .expectedListCommaOrEnd)
      | some b, .object =>
          if b = 44 then skip fuel .key (frame :: frames) c.advance
          else if b = 125 then skip fuel .more frames c.advance
          else .error (c.failNext .expectedObjectCommaOrEnd)
  | fuel + 1, .key, frames, c =>
      let c := c.skipGap
      match c.peek? with
      | none => .error (c.failNext .endInObject)
      | some b =>
          if b = 34 then
            match skipString (c.rest.length + 1) c.advance with
            | .error f => .error f
            | .ok c =>
                match colon c with
                | .error f => .error f
                | .ok c => skip fuel .item frames c
          else .error (c.failNext .keyMustBeString)

def skipValue (c : Cursor) : Except Fault Cursor :=
  skip (4 * c.rest.length + 4) .item [] c

end Json
end RpcGateway
