import RpcGateway.Call.Context
import RpcGateway.Dispatch.Channel
import RpcGateway.Http.Uri
import RpcGateway.Transport.Exchange
import RpcGateway.Transport.Metadata
import RpcGateway.Transport.Status
import RpcGateway.Transport.TimeLimit

/-!
# Channels to a peer

A channel to a peer puts a remote call on the wire and reads the answer.

**Order.**  A call that is cancelled already is not sent.  Then the method must be a path.  While
the peer takes its time the call may be cancelled or run out of time.

**Metadata.**  All metadata of an answer arrives in the header part: the lines in front of the
message and those behind it, which replace lines of the same name.
-/

namespace RpcGateway
namespace PeerChannel

variable {ω : Type}

/-- The lines that belong to the transport and are never metadata of a request. -/
def ownLines : List String :=
  ["te", "content-type", "user-agent", "grpc-message", "grpc-message-type", "grpc-status",
    "connection", "keep-alive", "proxy-connection", "transfer-encoding", "upgrade"]

/-- Sets the time limit of a request. -/
def setLimit (h : HeaderMap) (timeout : Option Nat) : HeaderMap :=
  match timeout.bind Timeout.text? with
  | some text => h.insert Timeout.headerName (Utf8.bytes text)
  | none => h

def requestLines (call : RemoteCall) : HeaderMap :=
  WireStatus.without (setLimit (WireMetadata.write .empty call.metadata) call.timeout) ownLines

def replace (h : HeaderMap) (name : String) : List HeaderValue → HeaderMap
  | [] => h
  | v :: vs => vs.foldl (fun h v => h.append name v) (h.insert name v)

/-- Lines to which others are added; these replace the lines of their names. -/
def overridden (h later : HeaderMap) : HeaderMap :=
  later.groups.foldl (fun h g => replace h g.1 g.2) h

/-- The outcome of a failed call with the lines that came with it. -/
def failure (f : WireStatus.Failure) : RemoteOutcome :=
  ⟨.error f.1, ⟨WireMetadata.read f.2, .empty⟩⟩

/-- The outcome of a successful call. -/
def success (message : List UInt8) (lines : HeaderMap) : RemoteOutcome :=
  ⟨.ok message, ⟨WireMetadata.read lines, .empty⟩⟩

/-- The outcome of a call whose answer has no message. -/
def missing : RemoteOutcome :=
  .failure (Status.of .internal "Missing response message.")

/-- How a coding is shown that is no text. -/
def codingListing (coding : HeaderValue) : String :=
  match Utf8.text? coding with
  | some s => s
  | none => "[" ++ String.intercalate ", " (coding.map fun b => Decimal.text b.toNat) ++ "]"

/-- Why an answer in a coding cannot be read, if it cannot. -/
def codingFault? (headers : HeaderMap) : Option Status :=
  match headers.get? "grpc-encoding" with
  | none => none
  | some coding =>
      if coding = Utf8.bytes "identity" then none
      else some (Status.of .unimplemented
        s!"Content is compressed with `{codingListing coding}` which isn't supported")

/-- Reads an answer whose leading lines state no failure; `judgment` is what its trailing lines
make of the call. -/
def readMessage (r : WireResponse) (judgment : Option WireStatus.Failure) : RemoteOutcome :=
  match r.message, judgment with
  | none, some (status, lines) => failure (status, overridden lines r.headers)
  | none, none => missing
  | some _, some f => failure f
  | some m, none => success m (overridden r.headers (r.trailers.getD .empty))

def readAnswer (r : WireResponse) : RemoteOutcome :=
  match codingFault? r.headers with
  | some status => .failure status
  | none =>
      match WireStatus.read? r.headers with
      | none => readMessage r (WireStatus.judge r.status r.trailers)
      | some status =>
          if status.code = .ok then readMessage r none
          else failure (status, WireStatus.without r.headers WireStatus.names)

/-- Whether an answer comes within a limit; a limit of no time is always exceeded. -/
def inTime (delay limit : Option Nat) : Bool :=
  match delay, limit with
  | none, _ => false
  | some _, none => true
  | some d, some l => d ≤ l && 0 < l

/-- The outcome of a call that ran out of time. -/
def timedOut : RemoteOutcome :=
  .failure (Status.of .cancelled "Timeout expired")

/-- Waits for what comes of a request. -/
def await (limit : Option Nat) : Exchange → Activity ω RemoteOutcome
  | .refused reason => .done (.failure (Status.of .unavailable reason))
  | .answered delay response =>
      let answers := inTime delay limit
      .wait (if answers then delay else limit) true fun cancelled =>
        .done (if cancelled then .failure .cancellation
          else if answers then readAnswer response
          else timedOut)

/-- Puts a call on the wire. -/
def send (peer : Peer ω) (call : RemoteCall) : Activity ω RemoteOutcome :=
  match Uri.path call.method with
  | .error fault =>
      .done (.failure (Status.of .internal s!"invalid method path: {fault.message}"))
  | .ok path =>
      let lines := requestLines call
      (peer ⟨path, lines, framed call.payload⟩).bind (await (Timeout.limit? lines))

def channel (peer : Peer ω) : Channel ω := fun call =>
  Activity.isCancelled.bind fun cancelled =>
    if cancelled then .done (.failure .cancellation) else send peer call

end PeerChannel
end RpcGateway
