import RpcGateway.Service.Method

/-!
# The audit service

`clutch.audit.v1.AuditAPI` lists audited events and looks one up.
-/

namespace RpcGateway
namespace Audit

def getEvents : ServiceMethod :=
  ⟨"/clutch.audit.v1.AuditAPI/GetEvents", "/v1/audit/getEvents", .getEventsRequest,
    .getEventsResponse⟩

def getEvent : ServiceMethod :=
  ⟨"/clutch.audit.v1.AuditAPI/GetEvent", "/v1/audit/getEvent", .getEventRequest,
    .getEventResponse⟩

def methods : List ServiceMethod :=
  [getEvents, getEvent]

structure Server (ω : Type) where
  getEvents : Handler ω := Audit.getEvents.unimplemented
  getEvent : Handler ω := Audit.getEvent.unimplemented

def Server.handlers {ω : Type} (s : Server ω) : List (ServiceMethod × Handler ω) :=
  [(Audit.getEvents, s.getEvents), (Audit.getEvent, s.getEvent)]

end Audit
end RpcGateway
