import RpcGateway.Call.Activity

/-!
# Channels for remote calls

A channel carries an encoded request to a remote method and brings back its encoded response.  A
remote call heeds its own timeout and the cancellation of the call that it is a part of.
-/

namespace RpcGateway

structure RemoteCall where
  /-- The full name of the method. -/
  method : String
  /-- The encoded request. -/
  payload : List UInt8 := []
  metadata : Metadata := .empty
  /-- The time that the call may take. -/
  timeout : Option Nat := none
  deriving DecidableEq, Repr

structure RemoteOutcome where
  /-- The encoded response. -/
  result : Except Status (List UInt8)
  metadata : CallMetadata := .empty

/-- The outcome of a call that failed without metadata. -/
def RemoteOutcome.failure (status : Status) : RemoteOutcome :=
  ⟨.error status, .empty⟩

abbrev Channel (ω : Type) := RemoteCall → Activity ω RemoteOutcome

end RpcGateway
