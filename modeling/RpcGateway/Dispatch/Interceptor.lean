import RpcGateway.Call.Context

/-!
# Interceptors

Interceptors stand around the call of a method in the order of their declaration.  Each one is
entered with the request and decides: it answers the call itself, or it lets the rest of the chain
have a request, its own or another, and then has a last word on the reply.
-/

namespace RpcGateway

/-- What an interceptor decides on a request. -/
inductive Verdict (ω : Type)
  /-- The call is answered here. -/
  | answer (reply : Reply)
  /-- The rest of the chain gets a request; the reply comes back through `after`. -/
  | proceed (request : Message) (after : Reply → Activity ω Reply)

/-- A stage around the call of a method. -/
structure Interceptor (ω : Type) where
  name : String
  /-- Decides on a request. -/
  enter : Context → Message → Activity ω (Verdict ω)

namespace Interceptor

variable {ω : Type}

/-- Sends a request through stages to an innermost one. -/
def chain (c : Context) (innermost : Message → Activity ω Reply) :
    List (Interceptor ω) → Message → Activity ω Reply
  | [], request => innermost request
  | stage :: rest, request =>
      .note (.entered stage.name)
        ((stage.enter c request).bind fun verdict =>
          match verdict with
          | .answer reply => .done reply
          | .proceed request after => (chain c innermost rest request).bind after)

/-- Stages in two groups are the first group around the second. -/
theorem chain_append (c : Context) (innermost : Message → Activity ω Reply)
    (outer inner : List (Interceptor ω)) (request : Message) :
    chain c innermost (outer ++ inner) request
      = chain c (chain c innermost inner) outer request := by
  induction outer generalizing request with
  | nil => rfl
  | cons stage rest ih => simp [chain, ih]

/-- What the call log says about a reply. -/
def news : Reply → CallNews
  | .ok _ => .completed
  | .error status => .failed status.code status.message

/-- Writes the call log: a line before the call and one after it. -/
def callLog : Interceptor ω where
  name := "call-log"
  enter c request :=
    let line (news : CallNews) : Mark := .logged ⟨c.requestId, c.method.fullMethod, news⟩
    .note (line .begun)
      (.done (.proceed request fun reply => .note (line (news reply)) (.done reply)))

end Interceptor
end RpcGateway
