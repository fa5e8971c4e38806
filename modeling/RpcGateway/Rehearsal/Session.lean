import RpcGateway.Gateway.Server
import RpcGateway.Rehearsal.Parts
import RpcGateway.Rehearsal.Services
import RpcGateway.Service.Endpoint
import RpcGateway.Transport.Channel

/-!
# Gateway sessions

A session sets up a gateway with staged parts, step by step, and then serves requests one after
another in one world.

**Reports.**  A request is reported with what became of it, the log that its turn left, and its
journal.  A turn lasts until the caller has made good an announced cancellation.
-/

namespace RpcGateway
namespace Rehearsal

/-- A gateway in its world, and the time. -/
structure Session where
  gateway : Gateway World := {}
  world : World := {}
  now : Nat := 0

inductive Reach
  /-- By the server that has no methods. -/
  | unimplemented
  | channel
  | endpoint (uri : String)

inductive SetupStep
  | bind (verb template method : String) (type : MessageType) (handler : StagedHandler)
  /-- Binds a method to the scripted channel. -/
  | bindRemote (verb template method : String) (type : MessageType)
  /-- Adds a route to a method. -/
  | bindAdditional (verb template method : String) (type : MessageType)
  | route (verb template : String) (info : MethodInfo) (type : MessageType)
  | method (info : MethodInfo) (type : MessageType) (handler : StagedHandler)
  /-- Makes an audit service in memory and binds it. -/
  | auditServer (events : List Message)
  /-- Makes an assets service in memory and binds it. -/
  | assetsServer
  /-- Binds the audit service. -/
  | audit (reach : Reach)
  /-- Binds the assets service. -/
  | assets (reach : Reach)
  | callLog
  | interceptor (stage : StagedInterceptor)
  | hook (hook : StagedHook)
  | script (method : String) (script : Script)

namespace Session

/-- The session with what became of registrations. -/
def enrolled (s : Session) (r : Except SetupFault Unit × Gateway World) :
    Except StartFault Unit × Session :=
  match r.1 with
  | .ok _ => (.ok (), { s with gateway := r.2 })
  | .error fault => (.error (.setup fault), { s with gateway := r.2 })

def bindService (s : Session) (ms : List ServiceMethod) :
    Reach → Except StartFault Unit × Session
  | .unimplemented => s.enrolled (s.gateway.bindServer (ms.map fun m => (m, m.unimplemented)))
  | .channel => s.enrolled (s.gateway.bindChannel ms scriptedChannel)
  | .endpoint uri =>
      let r := s.gateway.bindEndpoint ms (fun _ => PeerChannel.channel Peer.silent) uri
      (r.1, { s with gateway := r.2 })

def setUp (s : Session) : SetupStep → Except StartFault Unit × Session
  | .bind verb template method type handler =>
      s.enrolled
        (s.gateway.bind verb template method type (.inProcess type handler.handle))
  | .bindRemote verb template method type =>
      s.enrolled (s.gateway.bind verb template method type (.remote scriptedChannel type))
  | .bindAdditional verb template method type =>
      s.enrolled (s.gateway.bindAdditional verb template method type)
  | .route verb template info type => s.enrolled (s.gateway.addRoute verb template info type)
  | .method info type handler =>
      s.enrolled (s.gateway.addMethod info (.inProcess type handler.handle))
  | .auditServer events =>
      let s := { s with world := s.world.addAudit events }
      s.enrolled (s.gateway.bindServer (auditServer (s.world.audits.length - 1)).handlers)
  | .assetsServer =>
      let s := { s with world := s.world.addAssets }
      s.enrolled
        (s.gateway.bindServer (Rehearsal.assetsServer (s.world.fetches.length - 1)).handlers)
  | .audit reach => s.bindService Audit.methods reach
  | .assets reach => s.bindService Assets.methods reach
  | .callLog => (.ok (), { s with gateway := s.gateway.intercept .callLog })
  | .interceptor stage => (.ok (), { s with gateway := s.gateway.intercept stage.stage })
  | .hook hook => (.ok (), { s with gateway := s.gateway.hook hook.hook })
  | .script method script => (.ok (), { s with world := s.world.script method script })

def after (s : Session) (r : Run World) : Session :=
  { s with world := r.world, now := r.now }

end Session

structure Report (α : Type) where
  /-- What became of the request. -/
  result : α
  log : List Event
  journal : Journal

namespace Report

def ofRun {α : Type} (result : α) (r : Run World) : Report α :=
  ⟨result, r.world.log, r.journal⟩

end Report

/-- When a caller cancels. -/
inductive Cancelling
  | never
  | before
  /-- Some milliseconds after. -/
  | afterMs (ms : Nat)

namespace Cancelling

/-- The time at which a caller cancels a request that is made now. -/
def time? (now : Nat) : Cancelling → Option Nat
  | never => none
  | before => some now
  | afterMs ms => some (now + ms * 1000000)

def caller (c : Cancelling) (now : Nat) : Caller :=
  match c with
  | never => .patient
  | before => .gone now
  | afterMs ms => .cancelling (now + ms * 1000000)

/-- A run in which the announced cancellation has taken place. -/
def awaited (c : Cancelling) (start : Nat) (r : Run World) : Run World :=
  match c.time? start with
  | none => r
  | some t => { r.cancel with now := max r.now t }

end Cancelling

namespace Session

def turn (s : Session) : Run World :=
  Run.start s.now s.world.turnPage

def request (s : Session) (request : Request) (cancelling : Cancelling) :
    Report (Option Outcome) × Session :=
  let (outcome, r) := s.gateway.handle request (cancelling.caller s.now) s.turn
  let r := cancelling.awaited s.now r
  (Report.ofRun outcome r, s.after r)

/-- Serves a request at the front door; there is no answer if the caller drops it first. -/
def serve (s : Session) (maxBodyBytes : Nat) (request : WebRequest) (dropAfterMs : Option Nat) :
    Report (Option Response) × Session :=
  let leavesAt := dropAfterMs.map fun ms => s.now + ms * 1000000
  let (answer, r) := Server.serve ⟨s.gateway, maxBodyBytes⟩ "" request leavesAt s.turn
  (Report.ofRun answer r, s.after r)

def script (s : Session) (method : String) (script : Script) : Session :=
  { s with world := s.world.script method script }

def recordEvent (s : Session) (event : Message) : Session :=
  { s with world := s.world.recordEvent event }

end Session
end Rehearsal
end RpcGateway
