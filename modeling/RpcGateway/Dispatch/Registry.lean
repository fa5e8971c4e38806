import RpcGateway.Dispatch.Invoker
import RpcGateway.Fault

/-!
# The registry of methods

Every method has at most one invoker, the first that was registered for it.
-/

namespace RpcGateway

structure MethodEntry (ω : Type) where
  info : MethodInfo
  invoker : Invoker ω

/-- The registered methods, in the order of their registration. -/
structure Registry (ω : Type) where
  entries : List (MethodEntry ω) := []

namespace Registry

variable {ω : Type}

/-- The registry without methods. -/
def empty : Registry ω := ⟨[]⟩

def find? (r : Registry ω) (fullMethod : String) : Option (MethodEntry ω) :=
  r.entries.find? fun e => e.info.fullMethod == fullMethod

def register (r : Registry ω) (info : MethodInfo) (invoker : Invoker ω) :
    Except SetupFault (Registry ω) :=
  if (r.find? info.fullMethod).isSome then .error (.duplicateMethod info.fullMethod)
  else .ok ⟨r.entries ++ [⟨info, invoker⟩]⟩

/-- The full names of the methods, sorted. -/
def names (r : Registry ω) : List String :=
  (r.entries.map fun e => e.info.fullMethod).mergeSort fun a b => decide (a ≤ b)

/-- The number of methods. -/
def size (r : Registry ω) : Nat :=
  r.entries.length

end Registry
end RpcGateway
