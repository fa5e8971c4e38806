import RpcGateway.Service.Method

/-!
# The assets service

`clutch.assets.v1.AssetsAPI` has one method, which takes and gives nothing.
-/

namespace RpcGateway
namespace Assets

def fetch : ServiceMethod :=
  ⟨"/clutch.assets.v1.AssetsAPI/Fetch", "/v1/assets/fetch", .fetchRequest, .fetchResponse⟩

def methods : List ServiceMethod :=
  [fetch]

structure Server (ω : Type) where
  fetch : Handler ω := Assets.fetch.unimplemented

def Server.handlers {ω : Type} (s : Server ω) : List (ServiceMethod × Handler ω) :=
  [(Assets.fetch, s.fetch)]

end Assets
end RpcGateway
