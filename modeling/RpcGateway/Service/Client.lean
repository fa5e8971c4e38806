import RpcGateway.Service.Method

/-!
# Calling services

A client calls a method of a service over a channel, without a gateway in between.
-/

namespace RpcGateway

structure CallOptions where
  metadata : Metadata := .empty
  /-- The time that the call may take. -/
  timeout : Option Nat := none
  deriving DecidableEq, Repr

/-- A response and the metadata that came with it. -/
structure ClientReply where
  message : Message
  metadata : CallMetadata

def ServiceMethod.call {ω : Type} (m : ServiceMethod) (channel : Channel ω) (request : Message)
    (options : CallOptions) : Activity ω (Except Status ClientReply) :=
  (channel ⟨m.fullMethod, request.toWire, options.metadata, options.timeout⟩).bind fun outcome =>
    match Invoker.readResponse m.response outcome.result with
    | .ok message => .done (.ok ⟨message, outcome.metadata⟩)
    | .error status => .done (.error status)

end RpcGateway
