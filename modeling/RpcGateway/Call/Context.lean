import RpcGateway.Call.Activity
import RpcGateway.Call.Method
import RpcGateway.Codec.PathBinding
import RpcGateway.Message.Basic

/-!
# The context of a call

What interceptors and invokers are told about a call besides its message.
-/

namespace RpcGateway

/-- How a call is answered. -/
abbrev Reply := Except Status Message

structure Context where
  requestId : String
  method : MethodInfo
  incoming : Metadata := .empty
  params : PathParams := []
  /-- The time by which the call has to be over. -/
  deadline : Option Nat := none
  deriving DecidableEq, Repr

/-- The time that is left to a call. -/
def Context.remaining (c : Context) (now : Nat) : Option Nat :=
  c.deadline.map (· - now)

/-- The answer to a call that gave up because it was cancelled. -/
def Status.cancellation : Status :=
  Status.of .cancelled "context canceled"

end RpcGateway
