import RpcGateway.Codec.Basic
import RpcGateway.Schema.Text

/-!
# Call status

Why a call failed, and how that is told to an HTTP caller.

**Codes.**  Seventeen codes with a number, a name and an HTTP status each.  A number without a code
counts as `unknown`.

**Rendering.**  A status becomes an HTTP status and an error envelope in the codec of the response.
If the codec cannot write the envelope, a fixed body takes its place.
-/

namespace RpcGateway

inductive Code
  | ok
  | cancelled
  | unknown
  | invalidArgument
  | deadlineExceeded
  | notFound
  | alreadyExists
  | permissionDenied
  | resourceExhausted
  | failedPrecondition
  | aborted
  | outOfRange
  | unimplemented
  | internal
  | unavailable
  | dataLoss
  | unauthenticated
  deriving DecidableEq, Repr

namespace Code

/-- All codes, in the order of their numbers. -/
def all : List Code :=
  [ok, cancelled, unknown, invalidArgument, deadlineExceeded, notFound, alreadyExists,
    permissionDenied, resourceExhausted, failedPrecondition, aborted, outOfRange, unimplemented,
    internal, unavailable, dataLoss, unauthenticated]

def toNat : Code → Nat
  | ok => 0
  | cancelled => 1
  | unknown => 2
  | invalidArgument => 3
  | deadlineExceeded => 4
  | notFound => 5
  | alreadyExists => 6
  | permissionDenied => 7
  | resourceExhausted => 8
  | failedPrecondition => 9
  | aborted => 10
  | outOfRange => 11
  | unimplemented => 12
  | internal => 13
  | unavailable => 14
  | dataLoss => 15
  | unauthenticated => 16

def ofInt (n : Int) : Code :=
  (all.find? fun c => (c.toNat : Int) == n).getD unknown

def httpStatus : Code → Nat
  | ok => 200
  | cancelled => 499
  | unknown => 500
  | invalidArgument => 400
  | deadlineExceeded => 504
  | notFound => 404
  | alreadyExists => 409
  | permissionDenied => 403
  | resourceExhausted => 429
  | failedPrecondition => 400
  | aborted => 409
  | outOfRange => 400
  | unimplemented => 501
  | internal => 500
  | unavailable => 503
  | dataLoss => 500
  | unauthenticated => 401

def name : Code → String
  | ok => "OK"
  | cancelled => "CANCELLED"
  | unknown => "UNKNOWN"
  | invalidArgument => "INVALID_ARGUMENT"
  | deadlineExceeded => "DEADLINE_EXCEEDED"
  | notFound => "NOT_FOUND"
  | alreadyExists => "ALREADY_EXISTS"
  | permissionDenied => "PERMISSION_DENIED"
  | resourceExhausted => "RESOURCE_EXHAUSTED"
  | failedPrecondition => "FAILED_PRECONDITION"
  | aborted => "ABORTED"
  | outOfRange => "OUT_OF_RANGE"
  | unimplemented => "UNIMPLEMENTED"
  | internal => "INTERNAL"
  | unavailable => "UNAVAILABLE"
  | dataLoss => "DATA_LOSS"
  | unauthenticated => "UNAUTHENTICATED"

/-- Every code is read back from its number. -/
theorem ofInt_toNat (c : Code) : ofInt c.toNat = c := by
  cases c <;> rfl

end Code

/-- Why a call failed. -/
structure Status where
  code : Code
  message : String
  details : List Json.Value := []

namespace Status

/-- A status without details. -/
def of (code : Code) (message : String) : Status :=
  ⟨code, message, []⟩

/-- The status as one line of text. -/
def display (s : Status) : String :=
  s.code.name ++ ": " ++ s.message

end Status

/-- The body of an error response. -/
structure ErrorEnvelope where
  code : Int
  message : String
  details : List Json.Value

namespace ErrorEnvelope

def ofStatus (s : Status) : ErrorEnvelope :=
  ⟨s.code.toNat, s.message, s.details⟩

/-- The members of an envelope, in the order of its fields. -/
def fields (e : ErrorEnvelope) : Json.Members :=
  [("code", .int e.code), ("message", .string e.message), ("details", .array e.details)]

def toValue (e : ErrorEnvelope) : Json.Value :=
  .object (Json.Members.ofList e.fields)

/-- The text of an envelope with its members in the order of its fields. -/
def toText (e : ErrorEnvelope) : String :=
  Json.Value.text (.object e.fields)

/-- The envelope as a record: only the details may be missing. -/
def schema : Schema Unit where
  title _ := "ErrorEnvelope"
  members _ :=
    [⟨"code", Schema.int32, .single, none⟩,
      ⟨"message", .text, .single, none⟩,
      ⟨"details", .any, .list, some (.list [])⟩]

def values : List Schema.Datum → List Json.Value
  | [] => []
  | .json v :: ds => v :: values ds
  | _ :: ds => values ds

def ofData? : List Schema.Datum → Option ErrorEnvelope
  | [.whole code, .text message, .list details] => some ⟨code, message, values details⟩
  | _ => none

def ofText (bytes : List UInt8) : Except Json.Fault ErrorEnvelope :=
  match Schema.recordOfText schema () bytes with
  | .ok ds => .ok ((ofData? ds).getD ⟨0, "", []⟩)
  | .error f => .error f

end ErrorEnvelope

/-- The body that stands in for an envelope that cannot be written. -/
def fallbackBody : List UInt8 :=
  Utf8.bytes "\x7b\"code\":13,\"message\":\"failed to marshal error message\"\x7d"

/-- The HTTP status and the body of an error response. -/
def Status.render (s : Status) (codec : Codec) : Nat × List UInt8 :=
  match codec.encode (ErrorEnvelope.ofStatus s).toValue with
  | .ok body => (s.code.httpStatus, body)
  | .error _ => (500, fallbackBody)

end RpcGateway
