import RpcGateway.Call.Context
import RpcGateway.Dispatch.Channel
import RpcGateway.Wire.Reader

/-!
# Invokers

An invoker makes the call of a method, in one of two modes.

**In process.**  A handler is called directly.  What it adds to the metadata reaches the caller as
one set: the trailer becomes a part of the header.

**Remote.**  The request is encoded and sent over a channel with the metadata and the time that is
left; what comes back is decoded.  Header and trailer stay apart.
-/

namespace RpcGateway

/-- How a method is reached. -/
inductive InvocationMode
  | inProcess
  | remote
  deriving DecidableEq, Repr

namespace InvocationMode

def shape : InvocationMode → CallMetadata → CallMetadata
  | inProcess, m => m.collapsed
  | remote, m => m

end InvocationMode

/-- A handler of calls in process. -/
abbrev Handler (ω : Type) := Context → Message → Activity ω Reply

/-- A way to call a method. -/
structure Invoker (ω : Type) where
  mode : InvocationMode
  invoke : Context → Message → Activity ω Reply

namespace Invoker

variable {ω : Type}

/-- Calls a handler that takes requests of one type. -/
def inProcess (request : MessageType) (handler : Handler ω) : Invoker ω where
  mode := .inProcess
  invoke c m :=
    if m.type = request then handler c m
    else .done (.error (Status.of .internal (m.typeMismatch request)))

/-- The response of a type that a channel has brought back. -/
def readResponse (response : MessageType) (result : Except Status (List UInt8)) : Reply :=
  match result with
  | .error status => .error status
  | .ok payload =>
      match Message.ofWire response payload with
      | .ok m => .ok m
      | .error fault => .error (Status.of .internal s!"failed to decode response: {fault.message}")

/-- Sends requests over a channel and reads responses of one type. -/
def remote (channel : Channel ω) (response : MessageType) : Invoker ω where
  mode := .remote
  invoke c m := do
    let now ← Activity.now
    let outcome ← channel ⟨c.method.fullMethod, m.toWire, c.incoming, c.remaining now⟩
    Activity.addMetadata outcome.metadata
    return readResponse response outcome.result

end Invoker
end RpcGateway
