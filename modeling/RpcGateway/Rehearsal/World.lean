import RpcGateway.Call.Context
import RpcGateway.Dispatch.Channel

/-!
# The world of a rehearsal

A rehearsal runs a gateway with staged parts and keeps a log of what they saw.  The world holds that
log, what a scripted channel is to answer, the calls that reached it, and the data of the services
that live in memory.
-/

namespace RpcGateway
namespace Rehearsal

/-- What a staged part saw. -/
inductive Event
  | handler (label : String) (context : Context) (remaining : Option Nat) (request : Message)
  | handlerCancelled (label : String)
  /-- The call of a watching handler was cancelled. -/
  | watchCancelled (label : String)
  /-- A request entered an interceptor. -/
  | before (label fullMethod : String)
  /-- A reply left an interceptor. -/
  | after (label : String) (code : Code)
  /-- A hook saw a response. -/
  | hook (label method : String)
  /-- A call reached the scripted channel. -/
  | sent (call : RemoteCall)
  /-- A call came back from the scripted channel, which has seen a call cancelled. -/
  | sentCancelled

/-- What a scripted channel does with the calls of a method. -/
inductive Script
  | reply (payload : List UInt8) (metadata : CallMetadata)
  | fail (status : Status) (metadata : CallMetadata)
  /-- Waits until the call is cancelled. -/
  | hang

structure World where
  /-- What was seen, in order. -/
  log : List Event := []
  /-- What the channel does, the latest script first. -/
  scripts : List (String × Script) := []
  /-- The methods of the calls that reached the channel. -/
  history : List String := []
  /-- Whether a hanging call has been cancelled. -/
  hangSeen : Bool := false
  /-- The events of every audit service in memory, by the order of their making. -/
  audits : List (List Message) := []
  /-- How often every assets service in memory has fetched. -/
  fetches : List Nat := []

namespace World

/-- Adds to the log. -/
def see (w : World) (e : Event) : World :=
  { w with log := w.log ++ [e] }

/-- Empties the log. -/
def turnPage (w : World) : World :=
  { w with log := [] }

def script (w : World) (method : String) (s : Script) : World :=
  { w with scripts := (method, s) :: w.scripts }

/-- A call reaches the channel. -/
def receive (w : World) (call : RemoteCall) : World :=
  { w.see (.sent call) with history := w.history ++ [call.method] }

/-- A call leaves the channel. -/
def release (w : World) : World :=
  if w.hangSeen then w.see .sentCancelled else w

end World

def perform (call : RemoteCall) : Option Script → Activity World RemoteOutcome
  | some (.reply payload metadata) => .done ⟨.ok payload, metadata⟩
  | some (.fail status metadata) => .done ⟨.error status, metadata⟩
  | some .hang =>
      Activity.untilCancelled.bind fun _ =>
        .act (fun w => { w with hangSeen := true }) fun _ => .done (.failure .cancellation)
  | none => .done (.failure (Status.of .unimplemented s!"unknown method {call.method}"))

def scriptedChannel : Channel World := fun call =>
  .act (·.receive call) fun w =>
    (perform call (w.scripts.lookup call.method)).bind fun outcome =>
      .act World.release fun _ => .done outcome

end Rehearsal
end RpcGateway
