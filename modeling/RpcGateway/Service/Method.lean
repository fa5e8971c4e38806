import RpcGateway.Gateway.Registration

/-!
# Services

A service is a list of methods, each with a route, the type of its requests and the type of its
responses.

**Registration.**  The methods of a service are bound one after another, in process or over a
channel.  The first that cannot be bound ends the registration; those before it stay.
-/

namespace RpcGateway

structure ServiceMethod where
  fullMethod : String
  path : String
  request : MessageType
  response : MessageType
  deriving DecidableEq

namespace ServiceMethod

variable {ω : Type}

def bind (g : Gateway ω) (m : ServiceMethod) (invoker : Invoker ω) :
    Except SetupFault Unit × Gateway ω :=
  g.bind "POST" m.path m.fullMethod m.request invoker

/-- The answer of a server that does not have a method. -/
def unimplemented (m : ServiceMethod) : Handler ω := fun _ _ =>
  let bare := (MethodInfo.mk m.fullMethod "").method
  .done (.error (Status.of .unimplemented s!"method {bare} not implemented"))

end ServiceMethod

namespace Gateway

variable {ω : Type}

/-- Binds methods in order, up to the first that fails. -/
def bindAll (g : Gateway ω) :
    List (ServiceMethod × Invoker ω) → Except SetupFault Unit × Gateway ω
  | [] => (.ok (), g)
  | (m, invoker) :: rest =>
      match m.bind g invoker with
      | (.ok _, g) => bindAll g rest
      | (.error fault, g) => (.error fault, g)

def bindServer (g : Gateway ω) (ms : List (ServiceMethod × Handler ω)) :
    Except SetupFault Unit × Gateway ω :=
  g.bindAll (ms.map fun m => (m.1, .inProcess m.1.request m.2))

def bindChannel (g : Gateway ω) (ms : List ServiceMethod) (channel : Channel ω) :
    Except SetupFault Unit × Gateway ω :=
  g.bindAll (ms.map fun m => (m, .remote channel m.response))

end Gateway
end RpcGateway
