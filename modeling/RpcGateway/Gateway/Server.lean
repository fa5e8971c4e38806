import RpcGateway.Gateway.Lifecycle
import RpcGateway.Http.Uri
import RpcGateway.Text.Decimal

/-!
# The HTTP front door

The front door reads the body of a request up to a limit and hands the request to the gateway.  One
path is its own: `/health` tells that the process lives.

**Framing.**  Every response says how long its body is.  The answer to `HEAD` has the lines of the
answer that it stands for and no body.
-/

namespace RpcGateway

structure WebRequest where
  method : String
  /-- The target: a path with or without a query, or a full URI. -/
  target : String
  headers : HeaderMap := .empty
  body : List UInt8 := []
  /-- The IP address of the caller, if it is known. -/
  remoteAddress : Option String := none
  deriving DecidableEq, Repr

/-- A gateway and the largest body that it is handed. -/
structure Server (ω : Type) where
  gateway : Gateway ω
  /-- The size of the largest body. -/
  maxBodyBytes : Nat

namespace Server

variable {ω : Type}

/-- The path of the liveness probe. -/
def healthPath : String := "/health"

/-- A header line whose value is known to be legal. -/
def line (name value : String) : String × HeaderValue :=
  (name, Utf8.bytes value)

def headerLines (ls : List (String × HeaderValue)) : HeaderMap :=
  ls.foldl (fun h l => h.append l.1 l.2) .empty

/-- The answer to the liveness probe. -/
def alive : Response :=
  ⟨200, headerLines [line "content-type" "application/json"],
    Utf8.bytes "\x7b\"service\":\"tether-gateway\",\"status\":\"ok\"\x7d"⟩

/-- The answer to a probe with another verb. -/
def probeOnly : Response :=
  ⟨405, headerLines [line "allow" "GET,HEAD"], []⟩

/-- The answer to a request that the caller has given up. -/
def closed : Response :=
  ⟨499, .empty, []⟩

/-- The answer to a request whose body is too large. -/
def tooLarge : Response :=
  let status := Status.of .invalidArgument "failed to read request body: length limit exceeded"
  let (http, body) := status.render (Codec.json false)
  ⟨http, headerLines [line "content-type" "application/json"], body⟩

/-- Adds the length of the body, unless it is given, and drops the body of an answer to `HEAD`. -/
def framed (method : String) (r : Response) : Response :=
  let headers :=
    if (r.headers.get? "content-length").isSome then r.headers
    else r.headers.append "content-length" (Utf8.bytes (Decimal.text r.body.length))
  ⟨r.status, headers, if method = "HEAD" then [] else r.body⟩

def admitted (id : String) (request : WebRequest) : Request :=
  ⟨id, request.method, Uri.targetPath request.target, request.headers, request.body,
    request.remoteAddress⟩

/-- Serves a request; there is no answer if the caller left first or the call waits for ever. -/
def serve (s : Server ω) (id : String) (request : WebRequest) (leavesAt : Option Nat)
    (r : Run ω) : Option Response × Run ω :=
  if Uri.targetPath request.target = healthPath then
    let answer :=
      if request.method = "GET" ∨ request.method = "HEAD" then alive else probeOnly
    (some (framed request.method answer), r)
  else if s.maxBodyBytes < request.body.length then (some (framed request.method tooLarge), r)
  else
    match s.gateway.handle (admitted id request) (.leaving leavesAt) r with
    | (none, r) => (none, r.cancel)
    | (some ⟨.cancelled, _⟩, r) => (none, r.cancel)
    | (some o, r) => (some (framed request.method (o.response.getD closed)), r.cancel)

end Server
end RpcGateway
