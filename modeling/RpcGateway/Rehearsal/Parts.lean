import RpcGateway.Gateway.Basic
import RpcGateway.Rehearsal.World

/-!
# Staged parts

Handlers, interceptors and response hooks that do as they are told and log what they see.
-/

namespace RpcGateway
namespace Rehearsal

/-- Pairs of a key and a value. -/
abbrev Pairs := List (String × String)

/-- Adds headers and trailers to the metadata of the response. -/
def addPairs (headers trailers : Pairs) : Activity World Unit :=
  Activity.addMetadata ⟨Metadata.ofList headers, Metadata.ofList trailers⟩

/-- Sleeps for some milliseconds, if at all. -/
def rest : Option Nat → Activity World Unit
  | none => .done ()
  | some ms => Activity.sleep (ms * 1000000)

/-- Adds to the log. -/
def see (e : Event) : Activity World Unit :=
  Activity.change (·.see e)

/-- What a staged part adds to the response, and how long it takes. -/
structure Manner where
  label : String := ""
  /-- Headers that it adds at once. -/
  headers : Pairs := []
  /-- Trailers that it adds at once. -/
  trailers : Pairs := []
  sleepMs : Option Nat := none
  /-- Headers that it adds in the end. -/
  lateHeaders : Pairs := []
  /-- Trailers that it adds in the end. -/
  lateTrailers : Pairs := []

/-- A handler that answers with its request, unless it is told otherwise. -/
structure StagedHandler where
  /-- What it adds and how long it takes. -/
  manner : Manner := {}
  /-- Whether it watches for the cancellation of its call. -/
  watches : Bool := false
  /-- Whether it waits for the cancellation of its call. -/
  waits : Bool := false
  error : Option Status := none

namespace StagedHandler

def finish (h : StagedHandler) (request : Message) : Activity World Reply :=
  if h.waits then do
    Activity.untilCancelled
    see (.handlerCancelled h.manner.label)
    return .error .cancellation
  else
    match h.error with
    | some status => return .error status
    | none => return .ok request

def handle (h : StagedHandler) : Handler World := fun c request => do
  let now ← Activity.now
  see (.handler h.manner.label c (c.remaining now) request)
  addPairs h.manner.headers h.manner.trailers
  if h.watches then Activity.onCancel (·.see (.watchCancelled h.manner.label))
  rest h.manner.sleepMs
  addPairs h.manner.lateHeaders h.manner.lateTrailers
  h.finish request

end StagedHandler

inductive StageAct
  | pass
  | deny (status : Status)
  | shortCircuit (message : Message)
  /-- Gives the rest of the chain another request. -/
  | replaceRequest (message : Message)
  /-- Replaces the response of a successful call. -/
  | replaceResponse (message : Message)
  /-- Answers a failed call. -/
  | recover (message : Message)
  /-- Gives a failed call another code. -/
  | mapError (code : Code)

structure StagedInterceptor where
  /-- What it adds and how long it takes. -/
  manner : Manner := {}
  act : StageAct := .pass

namespace StagedInterceptor

def revise (label : String) : StageAct → Reply → Reply
  | .replaceResponse m, .ok _ => .ok m
  | .recover m, .error _ => .ok m
  | .mapError code, .error status => .error (Status.of code s!"{label}: {status.display}")
  | _, reply => reply

def codeOf : Reply → Code
  | .ok _ => .ok
  | .error status => status.code

def leave (i : StagedInterceptor) (reply : Reply) : Activity World Reply := do
  let reply := revise i.manner.label i.act reply
  addPairs i.manner.lateHeaders i.manner.lateTrailers
  see (.after i.manner.label (codeOf reply))
  return reply

def verdict (i : StagedInterceptor) (request : Message) : Activity World (Verdict World) :=
  match i.act with
  | .deny status => (i.leave (.error status)).bind fun reply => .done (.answer reply)
  | .shortCircuit m => (i.leave (.ok m)).bind fun reply => .done (.answer reply)
  | .replaceRequest m => .done (.proceed m i.leave)
  | _ => .done (.proceed request i.leave)

def stage (i : StagedInterceptor) : Interceptor World where
  name := i.manner.label
  enter c request := do
    see (.before i.manner.label c.method.fullMethod)
    addPairs i.manner.headers i.manner.trailers
    rest i.manner.sleepMs
    i.verdict request

end StagedInterceptor

structure StagedHook where
  label : String := ""
  failure : Option Status := none
  /-- The only type of response that it accepts. -/
  required : Option MessageType := none
  /-- Lines that it adds. -/
  appended : Pairs := []
  /-- Lines that replace those of their name. -/
  inserted : Pairs := []

namespace StagedHook

/-- Makes a line the only one of its name, if it can be a line. -/
def insertText (h : HeaderMap) (line : String × String) : HeaderMap :=
  match headerName? line.1, HeaderValue.ofText? line.2 with
  | some name, some value => h.insert name value
  | _, _ => h

/-- The lines after the hook, unless it fails. -/
def lines (s : StagedHook) (m : Message) (h : HeaderMap) : Except Status HeaderMap :=
  match s.failure with
  | some status => .error status
  | none =>
      if s.required.any (· != m.type) then
        .error (Status.of .internal "unexpected response")
      else
        let h := s.appended.foldl (fun h l => h.appendText l.1 l.2) h
        .ok (s.inserted.foldl insertText h)

def hook (s : StagedHook) : ResponseHook World where
  name := s.label
  run c m h w := (s.lines m h, w.see (.hook s.label c.method.method))

end StagedHook
end Rehearsal
end RpcGateway
