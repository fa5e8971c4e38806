import RpcGateway.Call.Journal
import RpcGateway.Metadata.Basic

/-!
# Activities

An activity is what one call does, step by step: it waits, reads the clock, adds metadata to the
response, keeps a journal and acts on a world outside.  It is a value; `run` carries it out.

**Time.**  Nothing takes time but waiting.  Times are counted in nanoseconds, and timers go off on
whole milliseconds.

**Ends.**  A call finishes, is left by its caller, or runs into its deadline; a call that waits for
something that never comes is stalled.  When several things come due at once, the call itself goes
on first: it notices that it was cancelled, or its timer goes off; then its caller leaves; then its
deadline passes.

**Cancellation.**  A call learns that it is cancelled when it waits.  Watchers that were set up at
the moment of the cancellation act before the call goes on, the others when its turn is over.
-/

namespace RpcGateway

/-- What a call does in the world `ω` until it has a value of type `α`. -/
inductive Activity (ω α : Type) : Type
  | done (value : α)
  /-- Waits for a span of time, or for ever; if it heeds cancellation, that ends the waiting too.
  What follows is told whether the call was cancelled. -/
  | wait (span : Option Nat) (heeds : Bool) (next : Bool → Activity ω α)
  | clock (next : Nat → Activity ω α)
  | record (added : CallMetadata) (next : Activity ω α)
  /-- Takes the metadata of the response, leaving none. -/
  | take (next : CallMetadata → Activity ω α)
  /-- Changes the world and looks at it. -/
  | act (change : ω → ω) (next : ω → Activity ω α)
  /-- Arranges for a change of the world that happens if the call is cancelled. -/
  | watch (change : ω → ω) (next : Activity ω α)
  /-- Makes an entry in the journal. -/
  | note (mark : Mark) (next : Activity ω α)

namespace Activity

variable {ω α β : Type}

def bind : Activity ω α → (α → Activity ω β) → Activity ω β
  | done value, f => f value
  | wait span heeds next, f => wait span heeds fun cancelled => (next cancelled).bind f
  | clock next, f => clock fun now => (next now).bind f
  | record added next, f => record added (next.bind f)
  | take next, f => take fun metadata => (next metadata).bind f
  | act change next, f => act change fun world => (next world).bind f
  | watch change next, f => watch change (next.bind f)
  | note mark next, f => note mark (next.bind f)

instance : Monad (Activity ω) where
  pure := done
  bind := bind

/-- Waits for a span of time and heeds nothing; no time is no wait. -/
def sleep (span : Nat) : Activity ω Unit :=
  if span = 0 then done () else wait (some span) false fun _ => done ()

/-- Waits until the call is cancelled. -/
def untilCancelled : Activity ω Unit :=
  wait none true fun _ => done ()

/-- Whether the call is cancelled already. -/
def isCancelled : Activity ω Bool :=
  wait (some 0) true done

def now : Activity ω Nat :=
  clock done

def addMetadata (added : CallMetadata) : Activity ω Unit :=
  record added (done ())

def takeMetadata : Activity ω CallMetadata :=
  take done

def change (f : ω → ω) : Activity ω Unit :=
  act f fun _ => done ()

/-- Arranges for a change of the world that happens if the call is cancelled. -/
def onCancel (f : ω → ω) : Activity ω Unit :=
  watch f (done ())

/-- Makes an entry in the journal. -/
def mark (m : Mark) : Activity ω Unit :=
  note m (done ())

@[simp] theorem bind_done (a : Activity ω α) :
    a.bind done = a := by
  induction a with
  | done value => rfl
  | wait span heeds next ih => simp [bind, ih]
  | clock next ih => simp [bind, ih]
  | record added next ih => simp [bind, ih]
  | take next ih => simp [bind, ih]
  | act change next ih => simp [bind, ih]
  | watch change next ih => simp [bind, ih]
  | note mark next ih => simp [bind, ih]

theorem bind_assoc {γ : Type} (a : Activity ω α) (f : α → Activity ω β) (g : β → Activity ω γ) :
    (a.bind f).bind g = a.bind fun x => (f x).bind g := by
  induction a with
  | done value => rfl
  | wait span heeds next ih => simp [bind, ih]
  | clock next ih => simp [bind, ih]
  | record added next ih => simp [bind, ih]
  | take next ih => simp [bind, ih]
  | act change next ih => simp [bind, ih]
  | watch change next ih => simp [bind, ih]
  | note mark next ih => simp [bind, ih]

end Activity

/-- The moment at which a timer set for a time goes off: the first whole millisecond from then. -/
def Timer.due (time : Nat) : Nat :=
  (time + 999999) / 1000000 * 1000000

/-- The moment at which a span of time is over; no time is over at once. -/
def Timer.lapse (now span : Nat) : Nat :=
  if span = 0 then now else Timer.due (now + span)

/-- What ends a call from outside, and when. -/
structure Bounds where
  /-- When the call is told that it is cancelled. -/
  cancelsAt : Option Nat := none
  /-- When the caller leaves without waiting for the call any more. -/
  leavesAt : Option Nat := none
  deadline : Option Nat := none
  deriving DecidableEq, Repr

/-- What ends a wait. -/
inductive Wake
  | cancelled
  /-- The span of time is over. -/
  | lapsed
  /-- The caller left. -/
  | departed
  /-- The deadline passed. -/
  | expired
  deriving DecidableEq, Repr

namespace Wake

/-- The earlier of two moments; the first, if they are the same. -/
def earlier : Option (Nat × Wake) → Option (Nat × Wake) → Option (Nat × Wake)
  | none, b => b
  | a, none => a
  | some a, some b => if b.1 < a.1 then some b else some a

/-- What ends a wait, not before now, at a moment that may never come. -/
def from? (now : Nat) (wake : Wake) (moment : Option Nat) : Option (Nat × Wake) :=
  moment.map fun t => (max now t, wake)

/-- What ends a wait, and when. -/
def next? (bounds : Bounds) (now : Nat) (span : Option Nat) (heeds : Bool) :
    Option (Nat × Wake) :=
  earlier (if heeds then from? now .cancelled bounds.cancelsAt else none)
    (earlier (from? now .lapsed (span.map (Timer.lapse now)))
      (earlier (from? now .departed bounds.leavesAt)
        (from? now .expired (bounds.deadline.map Timer.due))))

end Wake

structure Run (ω : Type) where
  now : Nat
  outgoing : CallMetadata
  journal : Journal
  /-- Whether the call has been told that it is cancelled. -/
  cancelled : Bool
  /-- What happens to the world if the call is cancelled. -/
  watchers : List (ω → ω)
  world : ω

inductive Ending (α : Type)
  | finished (value : α)
  /-- The caller left. -/
  | departed
  /-- The deadline passed. -/
  | expired
  /-- The activity waits for ever. -/
  | stalled
  deriving DecidableEq, Repr

/-- The value that a run ends with, unless it is cut short. -/
def Ending.value? {α : Type} : Ending α → Option α
  | .finished value => some value
  | _ => none

namespace Run

variable {ω : Type}

/-- The run of a call that begins at a time. -/
def start (now : Nat) (world : ω) : Run ω :=
  ⟨now, .empty, [], false, [], world⟩

/-- Makes an entry in the journal. -/
def mark (r : Run ω) (m : Mark) : Run ω :=
  { r with journal := r.journal ++ [m] }

def reach (r : Run ω) (s : RequestState) : Run ω :=
  r.mark (.reached s)

/-- Tells the watchers that the call is cancelled. -/
def cancel (r : Run ω) : Run ω :=
  { r with watchers := [], world := r.watchers.foldl (fun w f => f w) r.world }

/-- Tells the call at a time that it is cancelled. -/
def tell (r : Run ω) (time : Nat) : Run ω :=
  let told := { r with now := time, cancelled := true }
  if r.cancelled || r.now < time then told else told.cancel

/-- The caller leaves at a time, having cancelled the call or not. -/
def leave (r : Run ω) (time : Nat) (bounds : Bounds) : Run ω :=
  { r with
    now := time, cancelled := r.cancelled || bounds.cancelsAt.any fun t => decide (t ≤ time) }

end Run

def Activity.run {ω α : Type} (bounds : Bounds) : Activity ω α → Run ω → Ending α × Run ω
  | .done value, r => (.finished value, r)
  | .wait span heeds next, r =>
      match Wake.next? bounds r.now span heeds with
      | none => (.stalled, r)
      | some (t, .cancelled) => (next true).run bounds (r.tell t)
      | some (t, .lapsed) => (next false).run bounds { r with now := t }
      | some (t, .departed) => (.departed, r.leave t bounds)
      | some (t, .expired) => (.expired, { r with now := t })
  | .clock next, r => (next r.now).run bounds r
  | .record added next, r => next.run bounds { r with outgoing := r.outgoing.merge added }
  | .take next, r => (next r.outgoing).run bounds { r with outgoing := .empty }
  | .act change next, r => (next (change r.world)).run bounds { r with world := change r.world }
  | .watch change next, r => next.run bounds { r with watchers := r.watchers ++ [change] }
  | .note mark next, r => next.run bounds (r.mark mark)

end RpcGateway
