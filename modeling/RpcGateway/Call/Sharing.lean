import RpcGateway.Call.Context

/-!
# Contexts that are shared

A context may be cloned.  A clone shares the metadata of the response and the cancellation with the
context that it was made from, but it has a deadline of its own.

**Cancellation.**  Every context that is not a clone has a token of its own below one common parent.
Cancelling the parent cancels them all.

**Metadata.**  What is added through any clone is taken through any clone, once.
-/

namespace RpcGateway

structure SharedContext where
  /-- Which response its metadata belongs to, and which token cancels it. -/
  call : Nat
  deadline : Option Nat := none
  deriving DecidableEq, Repr

/-- A call that contexts take part in. -/
structure SharedCall where
  outgoing : CallMetadata := .empty
  /-- Whether its token was fired. -/
  cancelled : Bool := false
  deriving DecidableEq, Repr

/-- Contexts, the calls that they take part in, and the time. -/
structure ContextTable where
  contexts : List SharedContext := []
  calls : List SharedCall := []
  /-- Whether the common parent was cancelled. -/
  parentCancelled : Bool := false
  now : Nat := 0
  deriving DecidableEq, Repr

inductive ContextStep
  /-- Makes a context that takes part in a new call. -/
  | fresh (span : Option Nat)
  | clone (index : Nat)
  /-- Adds a value to the header metadata of the response. -/
  | setHeader (index : Nat) (key value : String)
  /-- Adds a value to the trailer metadata of the response. -/
  | setTrailer (index : Nat) (key value : String)
  /-- Adds metadata that a channel brought back. -/
  | record (index : Nat) (added : CallMetadata)
  /-- Takes the metadata of the response. -/
  | take (index : Nat)
  | cancel (index : Nat)
  | cancelParent
  /-- Lets time pass. -/
  | advance (span : Nat)
  | dropDeadline (index : Nat)
  deriving DecidableEq, Repr

namespace ContextTable

def empty : ContextTable := {}

def call? (t : ContextTable) (index : Nat) : Option Nat :=
  (t.contexts[index]?).map (·.call)

def modifyCall (t : ContextTable) (index : Nat) (f : SharedCall → SharedCall) : ContextTable :=
  match t.call? index with
  | some i => { t with calls := t.calls.modify i f }
  | none => t

/-- The metadata of the response of a context's call. -/
def outgoing (t : ContextTable) (index : Nat) : CallMetadata :=
  (((t.call? index).bind fun i => t.calls[i]?).map (·.outgoing)).getD .empty

/-- Takes a step, and gives the metadata that it took. -/
def step (t : ContextTable) : ContextStep → Option CallMetadata × ContextTable
  | .fresh span =>
      (none,
        { t with
          contexts := t.contexts ++ [⟨t.calls.length, span.map (t.now + ·)⟩]
          calls := t.calls ++ [{}] })
  | .clone index =>
      match t.contexts[index]? with
      | some c => (none, { t with contexts := t.contexts ++ [c] })
      | none => (none, t)
  | .setHeader index key value =>
      (none, t.modifyCall index fun c => { c with outgoing := c.outgoing.withHeader key value })
  | .setTrailer index key value =>
      (none, t.modifyCall index fun c => { c with outgoing := c.outgoing.withTrailer key value })
  | .record index added =>
      (none, t.modifyCall index fun c => { c with outgoing := c.outgoing.merge added })
  | .take index =>
      (some (t.outgoing index), t.modifyCall index fun c => { c with outgoing := .empty })
  | .cancel index => (none, t.modifyCall index fun c => { c with cancelled := true })
  | .cancelParent => (none, { t with parentCancelled := true })
  | .advance span => (none, { t with now := t.now + span })
  | .dropDeadline index =>
      (none, { t with contexts := t.contexts.modify index fun c => { c with deadline := none } })

def isCancelled (t : ContextTable) (c : SharedContext) : Bool :=
  t.parentCancelled || ((t.calls[c.call]?).map (·.cancelled)).getD false

/-- The time that is left to a context. -/
def remaining (t : ContextTable) (c : SharedContext) : Option Nat :=
  c.deadline.map (· - t.now)

end ContextTable
end RpcGateway
