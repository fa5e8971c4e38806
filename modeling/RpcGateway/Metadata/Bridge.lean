import RpcGateway.Http.HeaderMap
import RpcGateway.Metadata.Basic

/-!
# Request headers as metadata

The bridge copies the header lines of a request into the metadata of the call.

**Rules.**
* a value that does not show as text is left out;
* `host` becomes `x-forwarded-host`;
* a reserved name is left out;
* a name that begins with `grpc-metadata-` loses that beginning, unless nothing would be left;
* the address of the caller, when it is known, is added to the last `x-forwarded-for` value.
-/

namespace RpcGateway

/-- What the name of an explicit metadata header begins with. -/
def metadataMark : String := "grpc-metadata-"

/-- Headers that describe the framing of a message and not the call. -/
def framingHeaders : List String :=
  ["accept", "accept-encoding", "connection", "content-length", "content-type", "expect",
    "grpc-accept-encoding", "grpc-encoding", "grpc-message", "grpc-status", "grpc-timeout",
    "keep-alive", "proxy-connection", "te", "trailer", "transfer-encoding", "upgrade"]

/-- Copies request headers into metadata, reserved names apart. -/
structure HeaderBridge where
  /-- The reserved names, in lower case. -/
  reserved : List String := framingHeaders

namespace HeaderBridge

def standard : HeaderBridge := ⟨framingHeaders⟩

def reserve (b : HeaderBridge) (names : List String) : HeaderBridge :=
  ⟨b.reserved ++ names.map Ascii.lower⟩

def isReserved (b : HeaderBridge) (name : String) : Bool :=
  b.reserved.contains (Ascii.lower name)

/-- A name without the mark of explicit metadata. -/
def unmarked (name : String) : String :=
  match metadataMark.toList.isPrefixOf? name.toList with
  | some (c :: rest) => String.ofList (c :: rest)
  | _ => name

/-- The metadata key of a header name, if its lines are copied. -/
def key? (b : HeaderBridge) (name : String) : Option String :=
  if name = "host" then some "x-forwarded-host"
  else if b.reserved.contains name then none
  else some (unmarked name)

def copyLine (b : HeaderBridge) (m : Metadata) (line : String × HeaderValue) : Metadata :=
  match HeaderValue.text? line.2, b.key? line.1 with
  | some value, some key => m.append key value
  | _, _ => m

/-- The values of `x-forwarded-for` with an address behind the last. -/
def forwardedFor (address : String) : List String → List String
  | [] => [address]
  | [v] => [v ++ ", " ++ address]
  | v :: w :: rest => v :: forwardedFor address (w :: rest)

def addAddress (m : Metadata) (address : String) : Metadata :=
  let values := forwardedFor address (m.getAll "x-forwarded-for")
  (m.erase "x-forwarded-for").appendAll (values.map fun v => ("x-forwarded-for", v))

def incoming (b : HeaderBridge) (headers : HeaderMap) (address : Option String) : Metadata :=
  let m := headers.lines.foldl b.copyLine .empty
  match address with
  | none => m
  | some a => addAddress m a

end HeaderBridge
end RpcGateway
