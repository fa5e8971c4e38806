import RpcGateway.Rehearsal.Session
import RpcGateway.Service.Client

/-!
# Calls without a gateway

Calls of a dispatcher, of a service client and of a channel to a peer, each with the log that it
leaves.
-/

namespace RpcGateway
namespace Rehearsal

/-- A dispatched call and the metadata that was left behind. -/
structure DispatchResult where
  dispatched : Dispatched
  /-- The metadata that nobody took. -/
  left : CallMetadata

/-- A run in which some metadata was added before. -/
def prepared (w : World) (metadata : CallMetadata) : Run World :=
  { Run.start 0 w.turnPage with outgoing := CallMetadata.empty.merge metadata }

/-- Calls a dispatcher; `metadata` is in the response from the start. -/
def dispatch (d : Dispatcher World) (w : World) (c : Context) (request : Message)
    (metadata : CallMetadata) : Report (Option DispatchResult) × World :=
  let (ending, r) := (d.dispatch c request).run {} (prepared w metadata)
  let result := ending.value?.map fun value => DispatchResult.mk value r.outgoing
  (Report.ofRun result r, r.world)

def takeTwice (d : Dispatcher World) (c : Context) (metadata : CallMetadata) :
    Option (CallMetadata × CallMetadata) :=
  let (first, r) := (d.outgoing c).run {} (prepared {} metadata)
  let (second, _) := (d.outgoing c).run {} r
  match first, second with
  | .finished a, .finished b => some (a, b)
  | _, _ => none

/-- Calls a service over the scripted channel. -/
def callService (m : ServiceMethod) (w : World) (request : Message) (options : CallOptions)
    (cancelling : Cancelling) : Report (Option (Except Status ClientReply)) × World :=
  let (ending, r) := (m.call scriptedChannel request options).run
    ⟨cancelling.time? 0, none, none⟩ (Run.start 0 w.turnPage)
  (Report.ofRun ending.value? r, r.world)

/-- A peer that answers as it is told and keeps the requests that reached it. -/
def stagedPeer (exchange : Exchange) : Peer (List WireRequest) := fun request =>
  match exchange with
  | .refused reason => .done (.refused reason)
  | e => .act (· ++ [request]) fun _ => .done e

/-- Calls a staged peer, and shows what reached it. -/
def callPeer (exchange : Exchange) (call : RemoteCall) (cancelling : Cancelling) :
    Option RemoteOutcome × List WireRequest :=
  let (ending, r) := (PeerChannel.channel (stagedPeer exchange) call).run
    ⟨cancelling.time? 0, none, none⟩ (Run.start 0 [])
  (ending.value?, r.world)

end Rehearsal
end RpcGateway
