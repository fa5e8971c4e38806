import RpcGateway.Http.HeaderMap
import RpcGateway.Route.Match
import RpcGateway.Status

/-!
# The status of an answer on the wire

A peer says how a call went in header lines: the number of a code, and a percent-encoded message.
An answer without such lines is judged by its HTTP status.
-/

namespace RpcGateway
namespace WireStatus

def names : List String :=
  ["grpc-status", "grpc-message", "grpc-status-details-bin"]

/-- A map without the lines of some names. -/
def without (h : HeaderMap) (ns : List String) : HeaderMap :=
  ⟨h.groups.filter fun g => !ns.contains g.1⟩

def code (value : HeaderValue) : Code :=
  (Code.all.find? fun c => Utf8.bytes (Decimal.text c.toNat) == value).getD .unknown

/-- The message of a status, or why it cannot be read. -/
def message (h : HeaderMap) : Except String String :=
  match h.get? "grpc-message" with
  | none => .ok ""
  | some value =>
      match Utf8.decode (PercentCoding.decodeBytes value) with
      | .ok cs => .ok (String.ofList cs)
      | .error fault => .error s!"Error deserializing status message header: {fault.message}"

/-- The status that header lines state. -/
def read? (h : HeaderMap) : Option Status :=
  (h.get? "grpc-status").map fun value =>
    match message h with
    | .ok text => Status.of (code value) text
    | .error fault => Status.of .unknown fault

/-- The code that an HTTP status stands for, if it is not a success. -/
def codeOfHttp? : Nat → Option Code
  | 200 => none
  | 400 => some .internal
  | 401 => some .unauthenticated
  | 403 => some .permissionDenied
  | 404 => some .unimplemented
  | 429 | 502 | 503 | 504 => some .unavailable
  | _ => some .unknown

/-- The status of an answer that states none. -/
def ofHttp? (http : Nat) : Option Status :=
  (codeOfHttp? http).map fun c =>
    Status.of c
      s!"grpc-status header missing, mapped from HTTP status code {Decimal.text http}"

/-- A failed status and the lines that came with it. -/
abbrev Failure := Status × HeaderMap

/-- How the lines behind a message judge the call, given its HTTP status. -/
def judge (http : Nat) (trailers : Option HeaderMap) : Option Failure :=
  match trailers.bind fun t => (read? t).map fun s => (s, without t names) with
  | some (s, lines) => if s.code = .ok then none else some (s, lines)
  | none => (ofHttp? http).map fun s => (s, .empty)

end WireStatus
end RpcGateway
