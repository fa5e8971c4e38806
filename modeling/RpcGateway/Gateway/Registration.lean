import RpcGateway.Gateway.Basic

/-!
# Registration

Routes and methods are registered before the gateway serves.  A registration gives its result and
the gateway that it leaves.

**Routes.**  No two routes have the same verb and the same template text.  Templates that differ in
the names of their parameters only are both accepted; the earlier one counts.

**Methods.**  `bind` registers a method together with its first route, `bindAdditional` adds a route
to a method that is registered already.
-/

namespace RpcGateway
namespace Gateway

variable {ω : Type}

/-- Whether a route has this verb and this template text. -/
def isTaken (g : Gateway ω) (template : RouteTemplate) : Bool :=
  g.routes.any fun r =>
    r.template.verb == template.verb && r.template.source == template.source

def newTemplate (g : Gateway ω) (verb template : String) : Except SetupFault RouteTemplate :=
  match RouteTemplate.compile template verb with
  | .error fault => .error fault
  | .ok t => if g.isTaken t then .error (.duplicateRoute t.verb.text t.source) else .ok t

def withRoute (g : Gateway ω) (route : Route) : Gateway ω :=
  { g with routes := g.routes ++ [route] }

/-- Whether a method has an invoker. -/
def hasMethod (g : Gateway ω) (fullMethod : String) : Bool :=
  (g.dispatcher.registry.find? fullMethod).isSome

/-- Registers a route to a method, whether the method is registered or not. -/
def addRoute (g : Gateway ω) (verb template : String) (info : MethodInfo) (request : MessageType) :
    Except SetupFault Unit × Gateway ω :=
  match g.newTemplate verb template with
  | .error fault => (.error fault, g)
  | .ok t => (.ok (), g.withRoute ⟨t, info, request⟩)

/-- Registers a method without a route. -/
def addMethod (g : Gateway ω) (info : MethodInfo) (invoker : Invoker ω) :
    Except SetupFault Unit × Gateway ω :=
  match g.dispatcher.register info invoker with
  | .error fault => (.error fault, g)
  | .ok d => (.ok (), { g with dispatcher := d })

def routedMethod (t : RouteTemplate) (template fullMethod : String) : MethodInfo :=
  ⟨fullMethod, t.verb.text ++ " " ++ template⟩

/-- Registers a method and a route to it; both are checked before either is added. -/
def bind (g : Gateway ω) (verb template fullMethod : String) (request : MessageType)
    (invoker : Invoker ω) : Except SetupFault Unit × Gateway ω :=
  match g.newTemplate verb template with
  | .error fault => (.error fault, g)
  | .ok t =>
      if g.hasMethod fullMethod then (.error (.duplicateMethod fullMethod), g)
      else
        let info := routedMethod t template fullMethod
        match g.addMethod info invoker with
        | (.error fault, g) => (.error fault, g)
        | (.ok _, g) => (.ok (), g.withRoute ⟨t, info, request⟩)

/-- Registers one more route to a method. -/
def bindAdditional (g : Gateway ω) (verb template fullMethod : String) (request : MessageType) :
    Except SetupFault Unit × Gateway ω :=
  match g.newTemplate verb template with
  | .error fault => (.error fault, g)
  | .ok t =>
      if g.hasMethod fullMethod then
        (.ok (), g.withRoute ⟨t, routedMethod t template fullMethod, request⟩)
      else (.error (.unknownMethod fullMethod), g)

end Gateway
end RpcGateway
