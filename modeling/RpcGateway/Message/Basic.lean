import RpcGateway.Json.Printer
import RpcGateway.Message.Type
import RpcGateway.Schema.Text

/-!
# Messages

A message is a value of a message type: one datum for every field, in order.

**JSON.**  `ofValue` and `ofText` read a message, `toJson` writes it.  Every field is written, an
absent message as a null and a 64-bit integer as a string.

**Listing.**  `listing` shows a message with the names of its fields, for logs.
-/

namespace RpcGateway

open Schema

/-- A value of a message type. -/
structure Message where
  type : MessageType
  /-- The data of its fields, in order. -/
  fields : List Datum

namespace Message

/-- The message that nothing was said about. -/
def zero (t : MessageType) : Message :=
  ⟨t, t.fields.map fun f => MessageType.zeroDatum f.arity f.kind⟩

/-- Reads a message from a value tree. -/
def ofValue (t : MessageType) (v : Json.Value) : Except String Message :=
  (recordOfValue MessageType.schema t v).map (⟨t, ·⟩)

/-- Reads a message straight from text. -/
def ofText (t : MessageType) (bytes : List UInt8) : Except Json.Fault Message :=
  (recordOfText MessageType.schema t bytes).map (⟨t, ·⟩)

/-- Why a message of this type with these data is not written, if it is not. -/
def refusal? : MessageType → List Datum → Option String
  | .picky, [.text "refuse"] => some "field refuses"
  | _, _ => none

mutual

/-- The JSON value of a datum; `arrange` puts the members of an object in order. -/
def datumJson (arrange : Json.Members → Json.Members) (kind : Kind MessageType) :
    Datum → Except String Json.Value
  | .text s => .ok (.string s)
  | .flag b => .ok (.boolean b)
  | .whole n =>
      match kind with
      | .int64 => .ok (.string (Decimal.text n))
      | _ => .ok (.int n)
  | .json v => .ok v
  | .absent => .ok .null
  | .list items => (itemsJson arrange kind items).map .array
  | .record ds =>
      match kind with
      | .record t =>
          match refusal? t ds with
          | some reason => .error reason
          | none => (fieldsJson arrange t.fields ds).map fun ms => .object (arrange ms)
      | _ => .ok .null

/-- The JSON values of the items of a list. -/
def itemsJson (arrange : Json.Members → Json.Members) (kind : Kind MessageType) :
    List Datum → Except String (List Json.Value)
  | [] => .ok []
  | d :: ds =>
      match datumJson arrange kind d with
      | .error e => .error e
      | .ok v => (itemsJson arrange kind ds).map (v :: ·)

def fieldsJson (arrange : Json.Members → Json.Members) :
    List MessageField → List Datum → Except String Json.Members
  | f :: fs, d :: ds =>
      match datumJson arrange f.kind d with
      | .error e => .error e
      | .ok v => (fieldsJson arrange fs ds).map ((f.key, v) :: ·)
  | _, _ => .ok []

end

def toJson (m : Message) : Except String Json.Value :=
  datumJson Json.Members.ofList (.record m.type) (.record m.fields)

/-- The JSON text of a message with its members in the order of the fields. -/
def toText (m : Message) : Except String String :=
  (datumJson id (.record m.type) (.record m.fields)).map Json.Value.text

mutual

def datumListing (arity : Arity) (kind : Kind MessageType) : Datum → String
  | .text s => Quoted.quote s
  | .flag b => if b then "true" else "false"
  | .whole n => Decimal.text n
  | .json v => v.text
  | .absent => "None"
  | .list items => "[" ++ itemsListing kind items ++ "]"
  | .record ds =>
      match kind with
      | .record t =>
          let body := fieldsListing t.fields ds
          let shown := if body.isEmpty then t.title else t.title ++ " \x7b " ++ body ++ " \x7d"
          match arity with
          | .optional => "Some(" ++ shown ++ ")"
          | _ => shown
      | _ => ""

def itemsListing (kind : Kind MessageType) : List Datum → String
  | [] => ""
  | [d] => datumListing .single kind d
  | d :: e :: ds => datumListing .single kind d ++ ", " ++ itemsListing kind (e :: ds)

def fieldsListing : List MessageField → List Datum → String
  | [f], d :: _ => f.name ++ ": " ++ datumListing f.arity f.kind d
  | f :: g :: fs, d :: ds =>
      f.name ++ ": " ++ datumListing f.arity f.kind d ++ ", " ++ fieldsListing (g :: fs) ds
  | _, _ => ""

end

def listing (m : Message) : String :=
  datumListing .single (.record m.type) (.record m.fields)

/-- The complaint about a message of another type than expected. -/
def typeMismatch (expected : MessageType) (m : Message) : String :=
  s!"message type mismatch: expected {expected.fullName}, found {m.type.fullName}"

end Message
end RpcGateway
