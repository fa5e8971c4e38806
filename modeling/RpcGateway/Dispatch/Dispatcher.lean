import RpcGateway.Dispatch.Interceptor
import RpcGateway.Dispatch.Registry

/-!
# The dispatcher

The dispatcher finds the invoker of a method and calls it through the interceptors.  The metadata
that was added on the way is handed over once, in the shape of the invocation mode.
-/

namespace RpcGateway

/-- The result of a dispatched call. -/
structure Dispatched where
  reply : Reply
  metadata : CallMetadata

/-- The methods and the interceptors around their calls. -/
structure Dispatcher (ω : Type) where
  registry : Registry ω := .empty
  /-- The interceptors, outermost first. -/
  interceptors : List (Interceptor ω) := []

namespace Dispatcher

variable {ω : Type}

/-- The dispatcher without methods and interceptors. -/
def empty : Dispatcher ω := ⟨.empty, []⟩

def register (d : Dispatcher ω) (info : MethodInfo) (invoker : Invoker ω) :
    Except SetupFault (Dispatcher ω) :=
  match d.registry.register info invoker with
  | .ok r => .ok { d with registry := r }
  | .error fault => .error fault

/-- Adds an innermost interceptor. -/
def intercept (d : Dispatcher ω) (stage : Interceptor ω) : Dispatcher ω :=
  { d with interceptors := d.interceptors ++ [stage] }

def shape (d : Dispatcher ω) (fullMethod : String) (m : CallMetadata) : CallMetadata :=
  match d.registry.find? fullMethod with
  | some entry => entry.invoker.mode.shape m
  | none => m.collapsed

def outgoing (d : Dispatcher ω) (c : Context) : Activity ω CallMetadata :=
  Activity.takeMetadata.bind fun m => .done (d.shape c.method.fullMethod m)

/-- The answer to a call of a method that nobody registered. -/
def unregistered (fullMethod : String) : Status :=
  Status.of .unimplemented s!"method {fullMethod} is not registered"

/-- Calls a method. -/
def dispatch (d : Dispatcher ω) (c : Context) (request : Message) : Activity ω Dispatched :=
  match d.registry.find? c.method.fullMethod with
  | none =>
      Activity.takeMetadata.bind fun m => .done ⟨.error (unregistered c.method.fullMethod), m⟩
  | some entry =>
      let innermost (m : Message) : Activity ω Reply :=
        .note (.invoked c.method.fullMethod) (entry.invoker.invoke c m)
      (Interceptor.chain c innermost d.interceptors request).bind fun reply =>
        (d.outgoing c).bind fun m => .done ⟨reply, m⟩

end Dispatcher
end RpcGateway
