import RpcGateway.Config.Load
import RpcGateway.Service.Assets
import RpcGateway.Service.Audit
import RpcGateway.Service.Endpoint

/-!
# Starting up

A gateway program loads its configuration, binds the audit and assets services to the endpoint for
remote calls, checks the configuration and binds its listen address.

**Refusals.**  A start that fails is reported in one line, which tells trouble with the
configuration from any other.
-/

namespace RpcGateway

/-- Why a gateway program does not start. -/
inductive Refusal
  /-- The configuration cannot be loaded. -/
  | configuration (fault : ConfigFault)
  | start (fault : StartFault)
  deriving DecidableEq, Repr

/-- The line that reports a refusal. -/
def Refusal.message : Refusal → String
  | .configuration fault => "Gateway configuration error: " ++ fault.message
  | .start fault => "Gateway error: " ++ fault.message

namespace Startup

variable {ω : Type}

/-- The variable of the environment that names the configuration file. -/
def pathVariable : String := "GATEWAY_CONFIG"

/-- What a configuration is loaded from, given an environment and the files that there are. -/
def sources (environment : List (String × String)) (files : Files) : ConfigSources :=
  ⟨environment.lookup pathVariable, files, environment⟩

/-- The gateway that a configuration asks for. -/
def gateway (config : GatewayConfig) (dial : String → Channel ω) :
    Except StartFault (Gateway ω) :=
  let g := (Gateway.ofConfig config).intercept .callLog
  match config.remoteEndpoint with
  | none => .ok g
  | some endpoint =>
      match g.bindEndpoint Audit.methods dial endpoint with
      | (.error fault, _) => .error fault
      | (.ok _, g) =>
          match g.bindChannel Assets.methods (dial endpoint) with
          | (.error fault, _) => .error (.setup fault)
          | (.ok _, g) => .ok g

/-- Loads the configuration and makes the gateway that it asks for. -/
def prepare (sources : ConfigSources) (dial : String → Channel ω) :
    Except Refusal (GatewayConfig × Gateway ω) :=
  match GatewayConfig.load sources with
  | .error fault => .error (.configuration fault)
  | .ok config =>
      match gateway config dial with
      | .error fault => .error (.start fault)
      | .ok g => .ok (config, g)

/-- Why an address that is in use cannot be had. -/
def addressInUse : String := "Address already in use (os error 98)"

/-- Checks what must hold before a gateway serves; `obstacle` says why its listen address cannot be
bound, if it cannot. -/
def check (config : GatewayConfig) (obstacle : Option String) : Except StartFault Unit :=
  match config.validate with
  | .error fault => .error (.setup fault)
  | .ok _ =>
      match obstacle with
      | some reason => .error (.bind config.listenAddress reason)
      | none => .ok ()

/-- What a start comes to, up to serving: the gateway that serves, or a refusal. -/
def run (sources : ConfigSources) (dial : String → Channel ω) (obstacle : Option String) :
    Except Refusal (GatewayConfig × Gateway ω) :=
  match prepare sources dial with
  | .error refusal => .error refusal
  | .ok (config, g) =>
      match check config obstacle with
      | .error fault => .error (.start fault)
      | .ok _ => .ok (config, g)

end Startup
end RpcGateway
