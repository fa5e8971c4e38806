import RpcGateway.Codec.Body
import RpcGateway.Codec.Negotiation
import RpcGateway.Config.Basic
import RpcGateway.Dispatch.Dispatcher
import RpcGateway.Http.Exchange
import RpcGateway.Metadata.Bridge
import RpcGateway.Route.Match

/-!
# Gateways

A gateway has routes, methods with interceptors around their calls, response hooks, codecs, a header
bridge, and a time limit for calls that bring none.

**Routes.**  A route leads from the verb and the path of a request to a method and says which type
of message the method takes.  Of several routes that match, the first counts.
-/

namespace RpcGateway

/-- A way from HTTP requests to a method. -/
structure Route where
  /-- The verb and the paths that it serves. -/
  template : RouteTemplate
  info : MethodInfo
  request : MessageType
  deriving DecidableEq

/-- What runs after a successful call and before the response is written.  It may add header lines
or fail the request. -/
structure ResponseHook (ω : Type) where
  name : String
  /-- Runs the hook on a response message and the lines that were added so far. -/
  run : Context → Message → HeaderMap → ω → Except Status HeaderMap × ω

/-- Everything that is needed to serve requests. -/
structure Gateway (ω : Type) where
  /-- The routes, in the order of their registration. -/
  routes : List Route := []
  /-- The methods and their interceptors. -/
  dispatcher : Dispatcher ω := .empty
  /-- The response hooks, in order. -/
  hooks : List (ResponseHook ω) := []
  codecs : CodecTable := .standard
  /-- The way of request headers into metadata. -/
  bridge : HeaderBridge := .standard
  /-- The time limit of a call that brings none. -/
  defaultTimeout : Option Nat := none

namespace Gateway

variable {ω : Type}

/-- The gateway without routes. -/
def empty : Gateway ω := {}

/-- The gateway without routes that a configuration describes. -/
def ofConfig (config : GatewayConfig) : Gateway ω :=
  let json := Codec.json config.prettyJson
  { codecs := (CodecTable.standard.register anyMediaType json).register Codec.jsonType json
    bridge := HeaderBridge.standard.reserve config.reservedHeaders
    defaultTimeout := config.requestTimeout }

/-- Adds an innermost interceptor. -/
def intercept (g : Gateway ω) (stage : Interceptor ω) : Gateway ω :=
  { g with dispatcher := g.dispatcher.intercept stage }

/-- Adds a hook behind the others. -/
def hook (g : Gateway ω) (h : ResponseHook ω) : Gateway ω :=
  { g with hooks := g.hooks ++ [h] }

/-- The first route that matches, and the bindings that it makes. -/
def resolve (g : Gateway ω) (verb path : String) : Option (Route × PathParams) :=
  g.routes.findSome? fun route => (route.template.match? verb path).map fun ps => (route, ps)

end Gateway
end RpcGateway
