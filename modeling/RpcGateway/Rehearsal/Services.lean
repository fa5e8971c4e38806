import RpcGateway.Rehearsal.World
import RpcGateway.Service.Assets
import RpcGateway.Service.Audit

/-!
# Services in memory

An audit service over a list of events and an assets service that counts its fetches.  A world may
hold several of each; every server knows its place among them.
-/

namespace RpcGateway
namespace Rehearsal

open Schema

/-- The integer that a field holds. -/
def wholeAt (m : Message) (index : Nat) : Int :=
  match m.fields[index]? with
  | some (.whole n) => n
  | _ => 0

def eventId (e : Message) : Int :=
  wholeAt e 0

/-- At most so many events; all of them, if the limit is zero. -/
def limited (limit : Nat) (events : List Message) : List Message :=
  if limit = 0 then events else events.take limit

def eventsResponse (events : List Message) : Message :=
  ⟨.getEventsResponse, [.list (events.map fun e => .record e.fields), .text ""]⟩

def eventResponse (event : Message) : Message :=
  ⟨.getEventResponse, [.record event.fields]⟩

def World.eventsOf (w : World) (index : Nat) : List Message :=
  (w.audits[index]?).getD []

def listEvents (index : Nat) : Handler World := fun _ request =>
  let limit := wholeAt request 3
  if limit < 0 then
    .done (.error (Status.of .invalidArgument "limit must not be negative"))
  else
    .record ⟨Metadata.ofList [("x-trace", "audit"), ("x-trace", "memory")],
        Metadata.ofList [("x-served-by", "in-memory")]⟩
      (.act id fun w => .done (.ok (eventsResponse (limited limit.toNat (w.eventsOf index)))))

/-- Looks up an event in memory. -/
def findEvent (index : Nat) : Handler World := fun _ request =>
  let wanted := wholeAt request 0
  .act id fun w =>
    match (w.eventsOf index).find? fun e => eventId e == wanted with
    | some e => .done (.ok (eventResponse e))
    | none =>
        .done (.error (Status.of .notFound s!"event {Decimal.text wanted} not found"))

def auditServer (index : Nat) : Audit.Server World :=
  ⟨listEvents index, findEvent index⟩

/-- Counts one fetch of the assets service at a place. -/
def World.fetch (w : World) (index : Nat) : World :=
  { w with fetches := w.fetches.modify index (· + 1) }

def assetsServer (index : Nat) : Assets.Server World :=
  ⟨fun _ _ => .act (·.fetch index) fun _ => .done (.ok ⟨.fetchResponse, []⟩)⟩

namespace World

def addAudit (w : World) (events : List Message) : World :=
  { w with audits := w.audits ++ [events] }

def addAssets (w : World) : World :=
  { w with fetches := w.fetches ++ [0] }

/-- Records an event in the latest audit service. -/
def recordEvent (w : World) (event : Message) : World :=
  { w with audits := w.audits.modify (w.audits.length - 1) (· ++ [event]) }

/-- How often the latest assets service has fetched. -/
def fetchCount (w : World) : Nat :=
  w.fetches.getLast?.getD 0

end World
end Rehearsal
end RpcGateway
