import RpcGateway.Json.Parser
import RpcGateway.Schema.Tree

/-!
# Reading a record straight from text

The same schema as for value trees, but the text is read once from front to back, so a fault has
a place and the first fault in the text decides.

**Places.**  A value of a wrong type is noticed behind it, a list or an object in front of its
bracket.  When the members of a record do not fit together, the place is behind the closing
bracket if that is what comes next.

**Differences from trees.**  A key that occurs twice is refused, and a list with more items than
the record has members is refused at the first extra item.
-/

namespace RpcGateway
namespace Schema

open Json

variable {ρ : Type}

/-- Refuses a scalar that was read, behind it. -/
def unfit (message : String) (c : Cursor) : Fault :=
  c.fail (.unfit message)

/-- Refuses the value that is next because `expected` should stand there. -/
def refuse (expected : String) (c : Cursor) : Fault :=
  let after (found : String) : Except Fault Cursor → Fault
    | .error f => f
    | .ok c => unfit (invalidType found expected) c
  match c.peek? with
  | none => c.failNext .expectedValue
  | some b =>
      if b = 110 then after "null" (word [117, 108, 108] c.advance)
      else if b = 116 then after "boolean `true`" (word [114, 117, 101] c.advance)
      else if b = 102 then after "boolean `false`" (word [97, 108, 115, 101] c.advance)
      else if b = 45 || Cursor.isDigit b then
        match number b c with
        | .error f => f
        | .ok (n, c) => unfit (invalidType (numberPhrase n) expected) c
      else if b = 34 then
        match stringLiteral c.advance with
        | .error f => f
        | .ok (s, c) => unfit (invalidType ("string " ++ Quoted.quote s) expected) c
      else if b = 91 then unfit (invalidType "sequence" expected) c
      else if b = 123 then unfit (invalidType "map" expected) c
      else c.failNext .expectedValue

/-- Refuses a list as a whole, behind its bracket if nothing stands inside. -/
def refuseInList (message : String) (c : Cursor) : Fault :=
  unfit message (closeList c).1

/-- Refuses an object as a whole, behind its brace if that is what comes next. -/
def refuseInObject (message : String) (c : Cursor) : Fault :=
  unfit message (closeObject c).1

/-- A value that was read, or the refusal of it behind the place that was reached. -/
def settle {α : Type} (c : Cursor) : Except String α → Except Fault (α × Cursor)
  | .ok x => .ok (x, c)
  | .error message => .error (unfit message c)

def readText : Reader Datum := fun c =>
  if c.peek? = some 34 then (stringLiteral c.advance).map fun r => (.text r.1, r.2)
  else .error (refuse "a string" c)

/-- Reads a truth value. -/
def readFlag : Reader Datum := fun c =>
  if c.peek? = some 116 then (word [114, 117, 101] c.advance).map fun c => (.flag true, c)
  else if c.peek? = some 102 then
    (word [97, 108, 115, 101] c.advance).map fun c => (.flag false, c)
  else .error (refuse "a boolean" c)

/-- Reads an integer within bounds. -/
def readInteger (title : String) (least greatest : Int) : Reader Datum := fun c =>
  match c.peek? with
  | none => .error (refuse title c)
  | some b =>
      if b = 45 || Cursor.isDigit b then
        match number b c with
        | .error f => .error f
        | .ok (n, c) => settle c ((integerOfNumber title least greatest n).map .whole)
      else .error (refuse title c)

/-- Reads a 64-bit integer from a number, a string or a null; `deep` says whether a container may
stand here. -/
def readInt64 (deep : Bool) : Reader Datum := fun c =>
  match c.peek? with
  | none => .error (refuse int64Title c)
  | some b =>
      if b = 110 then (word [117, 108, 108] c.advance).map fun c => (.whole 0, c)
      else if b = 45 || Cursor.isDigit b then
        match number b c with
        | .error f => .error f
        | .ok (n, c) => settle c ((int64OfNumber n).map .whole)
      else if b = 34 then
        match stringLiteral c.advance with
        | .error f => .error f
        | .ok (s, c) => settle c ((int64OfText s).map .whole)
      else if b = 91 then
        if deep then .error (refuseInList (invalidType "sequence" int64Title) c.advance)
        else tooDeep c
      else if b = 123 then
        if deep then .error (refuseInObject (invalidType "map" int64Title) c.advance)
        else tooDeep c
      else .error (refuse int64Title c)

/-- Reads the members of a record from a list. -/
def readPositions (schema : Schema ρ) (name : ρ)
    (item : Arity → Kind ρ → Reader Datum) :
    List (Member ρ) → Nat → Reader (List Datum)
  | [], _, c => .ok ([], c)
  | m :: ms, read, c =>
      match nextElement (read == 0) c with
      | .error f => .error f
      | .ok (false, c) =>
          match complete [] (m :: ms) with
          | .ok fields => .ok (fields, c)
          | .error _ =>
              .error (refuseInList (invalidLength read
                (recordTitle (schema.title name) (schema.members name).length)) c)
      | .ok (true, c) =>
          match item m.arity m.kind c with
          | .error f => .error f
          | .ok (d, c) =>
              (readPositions schema name item ms (read + 1) c).map fun r => (d :: r.1, r.2)

/-- Reads the known members of an object, up to its closing brace. -/
def readMembers (schema : Schema ρ) (name : ρ)
    (item : Arity → Kind ρ → Reader Datum) :
    Nat → Bool → Slots → Reader Slots
  | 0, _, _, c => .error (c.failNext .endInObject)
  | fuel + 1, first, slots, c =>
      match nextKey first c with
      | .error f => .error f
      | .ok (false, c) => .ok (slots, c)
      | .ok (true, c) =>
          match stringLiteral c.advance with
          | .error f => .error f
          | .ok (key, c) =>
              match member? schema name key with
              | none =>
                  match (colon c).bind skipValue with
                  | .error f => .error f
                  | .ok c => readMembers schema name item fuel false slots c
              | some m =>
                  match slots.get? key with
                  | some _ => .error (refuseInObject s!"duplicate field `{key}`" c)
                  | none =>
                      match (colon c).bind (item m.arity m.kind) with
                      | .error f => .error f
                      | .ok (d, c) =>
                          readMembers schema name item fuel false (slots ++ [(key, d)]) c

/-- Reads a record from a list, behind its bracket. -/
def readRecordList (schema : Schema ρ) (name : ρ)
    (item : Arity → Kind ρ → Reader Datum) : Reader Datum := fun c =>
  match readPositions schema name item (schema.members name) 0 c with
  | .error f => .error f
  | .ok (fields, c) =>
      match closeList c with
      | (c, none) => .ok (.record fields, c)
      | (_, some f) => .error f

/-- Reads a record from an object, behind its brace. -/
def readRecordObject (schema : Schema ρ) (name : ρ)
    (item : Arity → Kind ρ → Reader Datum) : Reader Datum := fun c =>
  match readMembers schema name item (c.rest.length + 1) true [] c with
  | .error f => .error f
  | .ok (slots, c) =>
      match complete slots (schema.members name) with
      | .error message => .error (refuseInObject message c)
      | .ok fields =>
          match closeObject c with
          | (c, none) => .ok (.record fields, c)
          | (_, some f) => .error f

/-- Reads one value; `item?` reads what stands inside a container, if one may stand here. -/
def readSingle (schema : Schema ρ) (item? : Option (Arity → Kind ρ → Reader Datum))
    (any : Reader Json.Value) (kind : Kind ρ) : Reader Datum := fun c =>
  let c := c.skipGap
  if c.peek? = none then .error (c.failNext .endInValue)
  else match kind with
    | .text => readText c
    | .flag => readFlag c
    | .integer title least greatest => readInteger title least greatest c
    | .int64 => readInt64 item?.isSome c
    | .any => (any c).map fun r => (.json r.1, r.2)
    | .record name =>
        if c.peek? = some 91 then
          match item? with
          | some item => readRecordList schema name item c.advance
          | none => tooDeep c
        else if c.peek? = some 123 then
          match item? with
          | some item => readRecordObject schema name item c.advance
          | none => tooDeep c
        else .error (refuse ("struct " ++ schema.title name) c)

/-- Reads what a member holds; `item?` reads what stands inside a container, if one may. -/
def readWith (schema : Schema ρ) (item? : Option (Arity → Kind ρ → Reader Datum))
    (any : Reader Json.Value) : Arity → Kind ρ → Reader Datum
  | .single, kind, c => readSingle schema item? any kind c
  | .optional, kind, c =>
      let c := c.skipGap
      if c.peek? = some 110 then
        (word [117, 108, 108] c.advance).map fun c => (.absent, c)
      else readSingle schema item? any kind c
  | .list, kind, c =>
      let c := c.skipGap
      match c.peek? with
      | none => .error (c.failNext .endInValue)
      | some b =>
          if b = 91 then
            match item? with
            | none => tooDeep c
            | some item =>
                match elements (item .single kind) (c.rest.length + 1) true c.advance with
                | .error f => .error f
                | .ok (ds, c) => .ok (.list ds, c.advance)
          else .error (refuse "a sequence" c)

/-- Reads what a member holds, with at most the given levels of containers. -/
def readAt (schema : Schema ρ) : Nat → Arity → Kind ρ → Cursor → Except Fault (Datum × Cursor)
  | 0, arity, kind, c => readWith schema none (value 0) arity kind c
  | n + 1, arity, kind, c => readWith schema (some (readAt schema n)) (value (n + 1)) arity kind c

/-- Reads a whole text as a record. -/
def recordOfText (schema : Schema ρ) (name : ρ) (bytes : List UInt8) :
    Except Fault (List Datum) :=
  match parseWith (readAt schema maxDepth .single (.record name)) bytes with
  | .ok (.record fields) => .ok fields
  | .ok _ => .ok []
  | .error f => .error f

end Schema
end RpcGateway
