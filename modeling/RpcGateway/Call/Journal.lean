import RpcGateway.Status

/-!
# The journal of a request

Everything that a gateway reports about a request, in order: the states that the request passes
through, and what takes part in its call.

**States.**  A request is received, matched, decoded and dispatched; then it succeeds and is
forwarded, or it fails and its error is written.  Five states are terminal.
-/

namespace RpcGateway

inductive RequestState
  | received
  | matched
  /-- The message of the request is built. -/
  | decoded
  | dispatched
  /-- The call and all hooks succeeded. -/
  | succeeded
  | failed
  /-- Terminal: the response message was written. -/
  | forwarded
  /-- Terminal: an error was written. -/
  | errorWritten
  /-- Terminal: no route matched. -/
  | unmatched
  /-- Terminal: the message could not be built. -/
  | decodeFailed
  /-- Terminal: the caller went away and nothing was written. -/
  | cancelled
  deriving DecidableEq, Repr

namespace RequestState

/-- Whether nothing follows a state. -/
def isTerminal : RequestState → Bool
  | .forwarded | .errorWritten | .unmatched | .decodeFailed | .cancelled => true
  | .received | .matched | .decoded | .dispatched | .succeeded | .failed => false

def name : RequestState → String
  | .received => "Received"
  | .matched => "Matched"
  | .decoded => "Decoded"
  | .dispatched => "Dispatched"
  | .succeeded => "Succeeded"
  | .failed => "Failed"
  | .forwarded => "Forwarded"
  | .errorWritten => "ErrorTranslated"
  | .unmatched => "Unmatched"
  | .decodeFailed => "DecodeFailed"
  | .cancelled => "Cancelled"

end RequestState

/-- What the call log says about a call. -/
inductive CallNews
  /-- The call begins. -/
  | begun
  /-- The call succeeded. -/
  | completed
  | failed (code : Code) (message : String)
  deriving DecidableEq, Repr

structure CallLine where
  requestId : String
  /-- The full name of the method. -/
  method : String
  news : CallNews
  deriving DecidableEq, Repr

inductive Mark
  | reached (state : RequestState)
  | entered (interceptor : String)
  /-- The call reached the invoker of its method. -/
  | invoked (method : String)
  /-- A response hook ran. -/
  | hooked (hook : String)
  /-- The call log has a new line. -/
  | logged (line : CallLine)
  deriving DecidableEq, Repr

namespace Mark

/-- The state that an entry reports. -/
def state? : Mark → Option RequestState
  | .reached s => some s
  | _ => none

/-- The line of the call log that an entry reports. -/
def callLine? : Mark → Option CallLine
  | .logged l => some l
  | _ => none

end Mark

/-- The entries of a journal, in order. -/
abbrev Journal := List Mark

namespace Journal

/-- The states that a request passed through. -/
def states (j : Journal) : List RequestState :=
  j.filterMap Mark.state?

def callLines (j : Journal) : List CallLine :=
  j.filterMap Mark.callLine?

end Journal
end RpcGateway
