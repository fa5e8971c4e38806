/-!
# Faults before serving

What can be wrong with a gateway before it serves its first request: a route template, a
registration, a value of the configuration, or what it needs from its surroundings.
-/

namespace RpcGateway

/-- Why a gateway cannot be set up as asked. -/
inductive SetupFault
  | emptyGatewayId
  /-- A route template is malformed. -/
  | invalidTemplate (template reason : String)
  /-- The verb and the template are registered already. -/
  | duplicateRoute (verb template : String)
  /-- The method has an invoker already. -/
  | duplicateMethod (method : String)
  | unknownMethod (method : String)
  | invalidListenAddress (address : String)
  /-- The endpoint for remote calls is unusable. -/
  | invalidEndpoint (endpoint reason : String)
  /-- The connect timeout is zero. -/
  | invalidTimeout
  | invalidBodyLimit
  deriving DecidableEq, Repr

def SetupFault.message : SetupFault → String
  | .emptyGatewayId => "gateway id cannot be empty"
  | .invalidTemplate template reason => s!"invalid route template '{template}': {reason}"
  | .duplicateRoute verb template => s!"route {verb} {template} is already registered"
  | .duplicateMethod method => s!"method '{method}' is already registered"
  | .unknownMethod method => s!"method '{method}' is not registered"
  | .invalidListenAddress address => s!"listen address '{address}' is invalid"
  | .invalidEndpoint endpoint reason => s!"upstream endpoint '{endpoint}' is invalid: {reason}"
  | .invalidTimeout => "connect timeout must be greater than 0 ms"
  | .invalidBodyLimit => "max body size must be greater than 0 bytes"

/-- Why a gateway cannot be started. -/
inductive StartFault
  /-- The endpoint for remote calls is no URI. -/
  | invalidEndpoint (endpoint reason : String)
  /-- The listen address cannot be had. -/
  | bind (address reason : String)
  /-- The gateway cannot be set up. -/
  | setup (fault : SetupFault)
  deriving DecidableEq, Repr

def StartFault.message : StartFault → String
  | .invalidEndpoint endpoint reason => s!"invalid upstream endpoint '{endpoint}': {reason}"
  | .bind address reason => s!"failed to bind {address}: {reason}"
  | .setup fault => fault.message

end RpcGateway
