import RpcGateway.Config.SocketAddress
import RpcGateway.Fault
import RpcGateway.Schema.Text
import RpcGateway.Text.Blank

/-!
# Gateway configuration

What the gateway must know before it serves its first request.

**Validation.**  `validate` makes five checks in a fixed order and reports the first that fails: the
id, the listen address, the endpoint for remote calls, the connect timeout and the body limit.

**Form.**  In a file or in JSON text the configuration is a record, each of whose members may be
missing.
-/

namespace RpcGateway

structure GatewayConfig where
  /-- The name of this gateway in logs. -/
  id : String := "tether-gateway"
  listenAddress : String := "0.0.0.0:8080"
  remoteEndpoint : Option String := none
  /-- The time limit of a call in milliseconds; zero for none. -/
  requestTimeoutMs : Nat := 30000
  /-- The time limit for connecting in milliseconds. -/
  connectTimeoutMs : Nat := 5000
  /-- The size of the largest body that is accepted. -/
  maxBodyBytes : Nat := 4194304
  /-- Whether JSON responses are indented. -/
  prettyJson : Bool := false
  /-- More headers that never become call metadata. -/
  reservedHeaders : List String := []
  deriving DecidableEq, Repr

namespace GatewayConfig

/-- The configuration that nothing was said about. -/
def standard : GatewayConfig := {}

/-- The time limit of a call in nanoseconds. -/
def requestTimeout (c : GatewayConfig) : Option Nat :=
  if c.requestTimeoutMs = 0 then none else some (c.requestTimeoutMs * 1000000)

/-- The time limit for connecting in nanoseconds. -/
def connectTimeout (c : GatewayConfig) : Nat :=
  c.connectTimeoutMs * 1000000

/-!
## Validation
-/

def withoutScheme? (endpoint : String) : Option (List Char) :=
  match "http://".toList.isPrefixOf? endpoint.toList with
  | some rest => some rest
  | none => "https://".toList.isPrefixOf? endpoint.toList

/-- Checks the endpoint for remote calls. -/
def validateEndpoint (endpoint : String) : Except SetupFault Unit :=
  match withoutScheme? endpoint with
  | none => .error (.invalidEndpoint endpoint "endpoint must start with http:// or https://")
  | some rest =>
      if rest.all (· == '/') then .error (.invalidEndpoint endpoint "endpoint has no host")
      else .ok ()

/-- Checks the configuration. -/
def validate (c : GatewayConfig) : Except SetupFault Unit := do
  if c.id.toList.all Blank.isBlank then throw .emptyGatewayId
  if !SocketAddress.isValid c.listenAddress then throw (.invalidListenAddress c.listenAddress)
  match c.remoteEndpoint with
  | some endpoint => validateEndpoint endpoint
  | none => pure ()
  if c.connectTimeoutMs = 0 then throw .invalidTimeout
  if c.maxBodyBytes = 0 then throw .invalidBodyLimit

/-!
## The record form
-/

/-- The configuration as a record. -/
def schema : Schema Unit where
  title _ := "GatewayConfig"
  members _ :=
    [⟨"id", .text, .single, some (.text standard.id)⟩,
      ⟨"listen_addr", .text, .single, some (.text standard.listenAddress)⟩,
      ⟨"upstream_endpoint", .text, .optional, some .absent⟩,
      ⟨"request_timeout_ms", Schema.uint64, .single, some (.whole standard.requestTimeoutMs)⟩,
      ⟨"connect_timeout_ms", Schema.uint64, .single, some (.whole standard.connectTimeoutMs)⟩,
      ⟨"max_body_bytes", Schema.size, .single, some (.whole standard.maxBodyBytes)⟩,
      ⟨"pretty_json", .flag, .single, some (.flag standard.prettyJson)⟩,
      ⟨"reserved_headers", .text, .list, some (.list [])⟩]

def texts : List Schema.Datum → List String
  | [] => []
  | .text s :: ds => s :: texts ds
  | _ :: ds => texts ds

def optionalText : Schema.Datum → Option String
  | .text s => some s
  | _ => none

/-- The configuration of the data of its record. -/
def ofData? : List Schema.Datum → Option GatewayConfig
  | [.text id, .text listen, endpoint, .whole request, .whole connect, .whole body, .flag pretty,
      .list reserved] =>
      some
        { id := id
          listenAddress := listen
          remoteEndpoint := optionalText endpoint
          requestTimeoutMs := request.toNat
          connectTimeoutMs := connect.toNat
          maxBodyBytes := body.toNat
          prettyJson := pretty
          reservedHeaders := texts reserved }
  | _ => none

/-- Reads a configuration from JSON text. -/
def ofText (bytes : List UInt8) : Except Json.Fault GatewayConfig :=
  (Schema.recordOfText schema () bytes).map fun ds => (ofData? ds).getD standard

/-- Reads a configuration from a value tree. -/
def ofValue (v : Json.Value) : Except String GatewayConfig :=
  (Schema.recordOfValue schema () v).map fun ds => (ofData? ds).getD standard

/-- The members of a configuration, in the order of its record. -/
def fields (c : GatewayConfig) : Json.Members :=
  [("id", .string c.id), ("listen_addr", .string c.listenAddress),
    ("upstream_endpoint", (c.remoteEndpoint.map Json.Value.string).getD .null),
    ("request_timeout_ms", .int c.requestTimeoutMs),
    ("connect_timeout_ms", .int c.connectTimeoutMs),
    ("max_body_bytes", .int c.maxBodyBytes), ("pretty_json", .boolean c.prettyJson),
    ("reserved_headers", .array (c.reservedHeaders.map Json.Value.string))]

/-- The value tree of a configuration. -/
def toValue (c : GatewayConfig) : Json.Value :=
  .object (Json.Members.ofList c.fields)

end GatewayConfig
end RpcGateway
