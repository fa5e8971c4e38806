/-!
# Methods

A method is called by its full name, `/package.Service/Method`, and is reached over a route.
-/

namespace RpcGateway

/-- A method that calls are routed to. -/
structure MethodInfo where
  fullMethod : String
  /-- The verb and the template of the route. -/
  pattern : String
  deriving DecidableEq, Repr

namespace MethodInfo

/-- What stands behind the last slash of a text, and what stands in front of it. -/
def splitLast (cs : List Char) : List Char × List Char :=
  let bare := (cs.reverse.takeWhile (· != '/')).reverse
  let front := cs.take (cs.length - bare.length - 1)
  (front, bare)

/-- The service and the bare name. -/
def split (m : MethodInfo) : List Char × List Char :=
  splitLast (m.fullMethod.toList.dropWhile (· == '/'))

/-- The service, with its package. -/
def service (m : MethodInfo) : String :=
  String.ofList m.split.1

/-- The bare name. -/
def method (m : MethodInfo) : String :=
  String.ofList m.split.2

end MethodInfo
end RpcGateway
