import RpcGateway.Call.Timeout
import RpcGateway.Gateway.Basic
import RpcGateway.Metadata.Lines

/-!
# The life of a request

A request is resolved to a route, its call gets a context and a message, the call is dispatched, the
hooks run, and one response is written.

**Early exits.**  Each of these steps may end the processing, and each exit leads to one terminal
state.  A caller that has cancelled by the end of the processing gets no response at all.

**Time.**  The call is bounded by the caller, who may cancel or leave, and by its deadline: the
timeout that the request brings, else the default of the gateway.
-/

namespace RpcGateway

/-- How the caller of a request behaves. -/
structure Caller where
  /-- Whether the caller has cancelled before the request is made. -/
  cancelled : Bool := false
  cancelsAt : Option Nat := none
  /-- When the caller leaves without waiting any more. -/
  leavesAt : Option Nat := none
  deriving DecidableEq, Repr

namespace Caller

/-- A caller who waits for the response. -/
def patient : Caller := {}

/-- A caller who cancels at a time, and is not waited for from then on. -/
def cancelling (time : Nat) : Caller := ⟨false, some time, some time⟩

/-- A caller who has cancelled by the time at which the request is made. -/
def gone (time : Nat) : Caller := ⟨true, some time, some time⟩

/-- A caller who leaves at a time, if ever, without cancelling. -/
def leaving (time : Option Nat) : Caller := ⟨false, none, time⟩

def bounds (c : Caller) (deadline : Option Nat) : Bounds :=
  ⟨c.cancelsAt, c.leavesAt, deadline⟩

end Caller

/-- What became of a request: its terminal state and the response, if one was written. -/
structure Outcome where
  state : RequestState
  response : Option Response
  deriving DecidableEq, Repr

/-- Why the processing of a request ended early. -/
inductive Exit
  /-- No route matches. -/
  | unmatched
  /-- The message could not be built. -/
  | decodeFailed (status : Status)
  | failed (status : Status) (metadata : CallMetadata)
  | departed
  /-- The call waits for ever. -/
  | stalled

/-- What a processed request is answered with. -/
structure Success where
  message : Message
  metadata : CallMetadata
  /-- The lines that the hooks added. -/
  headers : HeaderMap

namespace Gateway

variable {ω : Type}

/-- The time limit of a request, unless it brings one that cannot be read. -/
def timeout (g : Gateway ω) (headers : HeaderMap) : Except Status (Option Nat) :=
  match headers.get? Timeout.headerName with
  | none => .ok g.defaultTimeout
  | some raw =>
      match (HeaderValue.text? raw).bind Timeout.parse? with
      | some span => .ok (some span)
      | none =>
          .error (Status.of .invalidArgument
            s!"invalid {Timeout.headerName} header: {HeaderValue.listing raw}")

def context (g : Gateway ω) (request : Request) (route : Route) (params : PathParams)
    (now : Nat) (limit : Option Nat) : Context :=
  ⟨request.id, route.info, g.bridge.incoming request.headers request.remoteAddress, params,
    limit.map (now + ·)⟩

/-- The answer to a call that ran into its deadline. -/
def deadlineStatus : Status :=
  Status.of .deadlineExceeded "context deadline exceeded"

def call (g : Gateway ω) (c : Context) (message : Message) (caller : Caller) (r : Run ω) :
    Except Exit Dispatched × Run ω :=
  match (g.dispatcher.dispatch c message).run (caller.bounds c.deadline) r with
  | (.finished d, r) => (.ok d, r)
  | (.departed, r) => (.error .departed, r.cancel)
  | (.stalled, r) => (.error .stalled, r)
  | (.expired, r) =>
      (.error (.failed deadlineStatus (g.dispatcher.shape c.method.fullMethod r.outgoing)),
        { r.cancel with outgoing := .empty })

/-- Runs hooks in order until one fails. -/
def runHooks (c : Context) (message : Message) :
    List (ResponseHook ω) → HeaderMap → Run ω → Except Status HeaderMap × Run ω
  | [], headers, r => (.ok headers, r)
  | h :: hs, headers, r =>
      let r := r.mark (.hooked h.name)
      match h.run c message headers r.world with
      | (.ok headers, world) => runHooks c message hs headers { r with world := world }
      | (.error status, world) => (.error status, { r with world := world })

/-- Turns the result of a call into an answer. -/
def conclude (g : Gateway ω) (c : Context) (d : Dispatched) (r : Run ω) :
    Except Exit Success × Run ω :=
  let r := r.reach .dispatched
  match d.reply with
  | .error status => (.error (.failed status d.metadata), r.reach .failed)
  | .ok message =>
      match runHooks c message g.hooks .empty r with
      | (.error status, r) => (.error (.failed status d.metadata), r)
      | (.ok headers, r) => (.ok ⟨message, d.metadata, headers⟩, r.reach .succeeded)

/-- Processes a request up to its answer. -/
def process (g : Gateway ω) (request : Request) (codec : Codec) (caller : Caller) (r : Run ω) :
    Except Exit Success × Run ω :=
  match g.resolve request.method request.path with
  | none => (.error .unmatched, r)
  | some (route, params) =>
      let r := r.reach .matched
      match g.timeout request.headers with
      | .error status => (.error (.failed status .empty), r)
      | .ok limit =>
          let c := g.context request route params r.now limit
          match codec.decodeMessage route.request request.body params with
          | .error fault =>
              (.error (.decodeFailed (Status.of .invalidArgument fault.message)), r)
          | .ok message =>
              match g.call c message caller (r.reach .decoded) with
              | (.error exit, r) => (.error exit, r)
              | (.ok d, r) => g.conclude c d r

/-- Names the media type of a body. -/
def setContentType (headers : HeaderMap) (codec : Codec) : HeaderMap :=
  match HeaderValue.ofText? codec.contentType with
  | some value => headers.insert "content-type" value
  | none => headers

def writeError (state : RequestState) (status : Status) (metadata : CallMetadata) (codec : Codec)
    (r : Run ω) : Outcome × Run ω :=
  let (http, body) := status.render codec
  (⟨state, some ⟨http, setContentType (metadata.writeLines .empty) codec, body⟩⟩, r.reach state)

/-- The body of an answer, or why there is none. -/
def writeBody (codec : Codec) (message : Message) : Except String (List UInt8) :=
  match message.toJson with
  | .error reason => .error reason
  | .ok v =>
      match codec.encode v with
      | .error fault => .error fault.message
      | .ok body => .ok body

def forward (answer : Success) (codec : Codec) (r : Run ω) : Outcome × Run ω :=
  match writeBody codec answer.message with
  | .error reason =>
      writeError .errorWritten (Status.of .internal s!"failed to marshal response: {reason}")
        answer.metadata codec r
  | .ok body =>
      let headers := setContentType (answer.metadata.writeLines answer.headers) codec
      (⟨.forwarded, some ⟨200, headers, body⟩⟩, r.reach .forwarded)

/-- Writes the response to a processed request; a call that waits for ever never gets one. -/
def respond (result : Except Exit Success) (codec : Codec) (r : Run ω) : Option Outcome × Run ω :=
  match result with
  | .ok answer =>
      let (o, r) := forward answer codec r
      (some o, r)
  | .error .unmatched =>
      let (o, r) := writeError .unmatched (Status.of .notFound "Not Found") .empty codec
        (r.reach .unmatched)
      (some o, r)
  | .error (.decodeFailed status) =>
      let (o, r) := writeError .decodeFailed status .empty codec (r.reach .decodeFailed)
      (some o, r)
  | .error (.failed status metadata) =>
      let (o, r) := writeError .errorWritten status metadata codec r
      (some o, r)
  | .error .departed => (some ⟨.cancelled, none⟩, r)
  | .error .stalled => (none, r)

def handle (g : Gateway ω) (request : Request) (caller : Caller) (r : Run ω) :
    Option Outcome × Run ω :=
  let r := { r.reach .received with cancelled := caller.cancelled }
  let inbound := g.codecs.inbound request.headers
  let outbound := g.codecs.outbound request.headers
  match g.process request inbound caller r with
  | (.error .stalled, r) => (none, r)
  | (result, r) =>
      if r.cancelled then (some ⟨.cancelled, none⟩, r.reach .cancelled)
      else respond result outbound r

end Gateway
end RpcGateway
