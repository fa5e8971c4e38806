import RpcGateway.Service.Method
import RpcGateway.Http.Uri

/-!
# Services at an endpoint

A service may be reached over a channel that is opened for an endpoint.  The endpoint has to be a
URI; whether something answers there shows with the first call only.
-/

namespace RpcGateway
namespace Gateway

variable {ω : Type}

/-- Binds methods to the channel that `dial` opens to an endpoint. -/
def bindEndpoint (g : Gateway ω) (ms : List ServiceMethod) (dial : String → Channel ω)
    (endpoint : String) : Except StartFault Unit × Gateway ω :=
  if Uri.isUri endpoint then
    match g.bindChannel ms (dial endpoint) with
    | (.ok _, g) => (.ok (), g)
    | (.error fault, g) => (.error (.setup fault), g)
  else (.error (.invalidEndpoint endpoint "invalid URI"), g)

end Gateway
end RpcGateway
