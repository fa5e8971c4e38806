import RpcGateway.Proofs.Dispatch.Passage
import RpcGateway.Proofs.Gateway.Outcome

/-!
# The trace of a request

Which interceptors, invokers and hooks a request gets to, with which messages, and in which order.

**Trace.**  `Gateway.traced` is the gateway in which every interceptor, invoker and hook records
that it is called, beside the world and out of their sight.  `Gateway.trace` is what it has recorded
at the end of a request.

**Descent.**  A call goes down the chain stage by stage and stops at any of them, or it reaches the
invoker at the end.  `Descent` says so of the messages that the stages and the invoker are called
with.

**Hooks.**  `HooksRun` says how far the hooks get: to the first that fails, or to the end.

**Results.**  `handle_traced`: the record changes nothing, and the trace is `Gated`.  Nothing is
called for a request that has no message or no registered method; otherwise there is one descent, it
begins with the message of the request, and hooks run behind it only if the call has a response.
-/

namespace RpcGateway

variable {ω : Type}

/-- One event in the serving of a request. -/
inductive CallEvent
  /-- The interceptor at a place of the chain is entered. -/
  | entered (place : Nat) (request : Message)
  /-- The invoker of a method is called. -/
  | invoked (fullMethod : String) (request : Message)
  /-- The hook at a place has run on a response. -/
  | hooked (place : Nat) (response : Message) (failed : Bool)

/-- What a gateway with a record acts on. -/
abbrev Traced (ω : Type) := ω × List CallEvent

/-!
## Recording
-/

def Verdict.traced : Verdict ω → Verdict (Traced ω)
  | .answer reply => .answer reply
  | .proceed request after => .proceed request fun reply => (after reply).beside _

/-- The interceptor at a place of the chain, with a record of its calls. -/
def Interceptor.traced (stage : Interceptor ω) (place : Nat) : Interceptor (Traced ω) where
  name := stage.name
  enter c request :=
    .recording (.entered place request)
      (((stage.enter c request).beside _).bind fun verdict => .done verdict.traced)

def Invoker.traced (invoker : Invoker ω) (fullMethod : String) : Invoker (Traced ω) where
  mode := invoker.mode
  invoke c request := .recording (.invoked fullMethod request) ((invoker.invoke c request).beside _)

def MethodEntry.traced (entry : MethodEntry ω) : MethodEntry (Traced ω) :=
  ⟨entry.info, entry.invoker.traced entry.info.fullMethod⟩

def Registry.traced (r : Registry ω) : Registry (Traced ω) :=
  ⟨r.entries.map MethodEntry.traced⟩

/-- The interceptors from a place on, with a record of their calls. -/
def Interceptor.tracedFrom (place : Nat) (stages : List (Interceptor ω)) :
    List (Interceptor (Traced ω)) :=
  (stages.zipIdx place).map fun stage => stage.1.traced stage.2

def Dispatcher.traced (d : Dispatcher ω) : Dispatcher (Traced ω) :=
  ⟨d.registry.traced, Interceptor.tracedFrom 0 d.interceptors⟩

/-- The hook at a place, with a record of its calls. -/
def ResponseHook.traced (hook : ResponseHook ω) (place : Nat) : ResponseHook (Traced ω) where
  name := hook.name
  run c response headers world :=
    match hook.run c response headers world.1 with
    | (.ok headers, w) => (.ok headers, (w, world.2 ++ [.hooked place response false]))
    | (.error status, w) => (.error status, (w, world.2 ++ [.hooked place response true]))

/-- The hooks from a place on, with a record of their calls. -/
def ResponseHook.tracedFrom (place : Nat) (hooks : List (ResponseHook ω)) :
    List (ResponseHook (Traced ω)) :=
  (hooks.zipIdx place).map fun hook => hook.1.traced hook.2

namespace Gateway

/-- The gateway with a record of the calls that it makes. -/
def traced (g : Gateway ω) : Gateway (Traced ω) where
  routes := g.routes
  dispatcher := g.dispatcher.traced
  hooks := ResponseHook.tracedFrom 0 g.hooks
  codecs := g.codecs
  bridge := g.bridge
  defaultTimeout := g.defaultTimeout

/-- The calls that are made for a request, in order. -/
def trace (g : Gateway ω) (request : Request) (caller : Caller) (r : Run ω) : List CallEvent :=
  (g.traced.handle request caller (r.beside [])).2.world.2

end Gateway

/-!
## Descents
-/

/-- The events of a descent from a place on: the messages that stages are entered with, and those
that the invoker is called with. -/
def CallEvent.descent (place : Nat) (fullMethod : String) (entries calls : List Message) :
    List CallEvent :=
  ((entries.zipIdx place).map fun e => .entered e.2 e.1) ++ calls.map (.invoked fullMethod)

/-- What a descent through a number of stages is called with: a request first, every stage at most
once and no stage left out, and the invoker at most once and behind all stages. -/
structure Descent (stages : Nat) (request : Message) (entries calls : List Message) : Prop where
  entered_le : entries.length ≤ stages
  invoked_le : calls.length ≤ 1
  through : calls ≠ [] → entries.length = stages
  first : (entries ++ calls).head? = some request

namespace Descent

theorem invoked (request : Message) : Descent 0 request [] [request] where
  entered_le := Nat.le_refl 0
  invoked_le := Nat.le_refl 1
  through _ := rfl
  first := rfl

theorem answered (stages : Nat) (request : Message) :
    Descent (stages + 1) request [request] [] where
  entered_le := Nat.le_add_left 1 stages
  invoked_le := Nat.zero_le 1
  through h := absurd rfl h
  first := rfl

theorem cons
    {stages : Nat} {next : Message} {entries calls : List Message}
    (h : Descent stages next entries calls) (request : Message) :
    Descent (stages + 1) request (request :: entries) calls where
  entered_le := Nat.succ_le_succ h.entered_le
  invoked_le := h.invoked_le
  through hcalls := congrArg (· + 1) (h.through hcalls)
  first := rfl

end Descent

namespace Interceptor

theorem chain_tracedFrom_cons
    (c : Context) (innermost : Message → Activity (Traced ω) Reply) (place : Nat)
    (stage : Interceptor ω) (rest : List (Interceptor ω)) (request : Message) :
    chain c innermost (tracedFrom place (stage :: rest)) request =
      .note (.entered stage.name) (.recording (.entered place request)
        (((stage.enter c request).beside _).bind fun verdict =>
          verdict.traced.settle (chain c innermost (tracedFrom (place + 1) rest)))) := by
  simp only [tracedFrom, List.zipIdx_cons, List.map_cons, chain_cons, traced, Activity.recording,
    Activity.bind, Activity.bind_assoc]

/-- A call descends the chain, and the stages record it. -/
theorem records_chain
    {bounds : Bounds} (c : Context) (fullMethod : String)
    {innermost : Message → Activity ω Reply} {traced : Message → Activity (Traced ω) Reply}
    (hinner : ∀ request r,
      Records ((traced request).run bounds) ((innermost request).run bounds) r
        [.invoked fullMethod request])
    (stages : List (Interceptor ω)) (place : Nat) (request : Message) (r : Run ω) :
    ∃ entries calls,
      Descent stages.length request entries calls ∧
      Records ((chain c traced (tracedFrom place stages) request).run bounds)
        ((chain c innermost stages request).run bounds) r
        (CallEvent.descent place fullMethod entries calls) := by
  induction stages generalizing place request r with
  | nil => exact ⟨[], [request], .invoked request, hinner request r⟩
  | cons stage rest ih =>
      rw [chain_tracedFrom_cons, chain_cons]
      have hstage := Activity.records_beside (ε := CallEvent) bounds (stage.enter c request)
        (r.mark (.entered stage.name))
      rcases Activity.finished_or_cut bounds (stage.enter c request)
        (r.mark (.entered stage.name)) with ⟨verdict, s, henter⟩ | hcut
      · cases verdict with
        | answer reply =>
            refine ⟨[request], [], .answered _ request, ?_⟩
            refine Activity.records_note (Activity.records_recording ?_ _)
            exact Activity.records_beside_bind henter
              (Activity.records_beside bounds (.done reply) s)
        | proceed next after =>
            obtain ⟨entries, calls, hdescent, hrest⟩ := ih (place + 1) next s
            refine ⟨request :: entries, calls, hdescent.cons request, ?_⟩
            refine Activity.records_note (Activity.records_recording ?_ _)
            exact Activity.records_beside_bind henter
              (Activity.records_bind_beside hrest after)
      · -- the call ends in the stage
        refine ⟨[request], [], .answered _ request, ?_⟩
        refine Activity.records_note (Activity.records_recording ?_ _)
        exact Activity.records_bind_of_cut hstage hcut _ _

end Interceptor

namespace Registry

theorem find?_traced (r : Registry ω) (fullMethod : String) :
    r.traced.find? fullMethod = (r.find? fullMethod).map MethodEntry.traced := by
  simp only [find?, traced, List.find?_map]
  rfl

end Registry

namespace Dispatcher

variable {d : Dispatcher ω} {c : Context} {bounds : Bounds}

theorem shape_traced (d : Dispatcher ω) (fullMethod : String) (m : CallMetadata) :
    d.traced.shape fullMethod m = d.shape fullMethod m := by
  simp only [shape, traced, Registry.find?_traced]
  cases d.registry.find? fullMethod with
  | none => rfl
  | some entry => rfl

/-- Nobody hears of a call of a method that is not registered. -/
theorem records_dispatch_of_unregistered
    (h : d.registry.find? c.method.fullMethod = none) (request : Message) (r : Run ω) :
    Records ((d.traced.dispatch c request).run bounds) ((d.dispatch c request).run bounds) r
      [] := by
  have htraced : d.traced.registry.find? c.method.fullMethod = none := by
    simp only [traced, Registry.find?_traced, h, Option.map_none]
  have heq : d.traced.dispatch c request = (d.dispatch c request).beside (List CallEvent) := by
    simp only [dispatch, h, htraced]
    rfl
  rw [heq]
  exact Activity.records_beside bounds _ r

/-- A call of a registered method descends once. -/
theorem records_dispatch
    {entry : MethodEntry ω}
    (h : d.registry.find? c.method.fullMethod = some entry) (bounds : Bounds) (request : Message)
    (r : Run ω) :
    ∃ entries calls,
      Descent d.interceptors.length request entries calls ∧
      Records ((d.traced.dispatch c request).run bounds) ((d.dispatch c request).run bounds) r
        (CallEvent.descent 0 c.method.fullMethod entries calls) := by
  have hname : entry.info.fullMethod = c.method.fullMethod := by
    have hfound := List.find?_some h
    exact eq_of_beq hfound
  have htraced : d.traced.registry.find? c.method.fullMethod = some entry.traced := by
    simp only [traced, Registry.find?_traced, h, Option.map_some]
  have hinner : ∀ m s,
      Records
        ((Activity.note (.invoked c.method.fullMethod)
          (entry.traced.invoker.invoke c m)).run bounds)
        ((Activity.note (.invoked c.method.fullMethod) (entry.invoker.invoke c m)).run bounds) s
        [.invoked c.method.fullMethod m] := by
    intro m s
    rw [← hname]
    exact Activity.records_note (Activity.records_recording (Activity.records_beside bounds _ _) _)
  obtain ⟨entries, calls, hdescent, hchain⟩ :=
    Interceptor.records_chain c c.method.fullMethod hinner d.interceptors 0 request r
  refine ⟨entries, calls, hdescent, ?_⟩
  have hall := Activity.records_bind_beside hchain fun reply =>
    (d.outgoing c).bind fun m => .done (⟨reply, m⟩ : Dispatched)
  simp only [dispatch, h, htraced]
  have hshape : ∀ reply : Reply,
      ((d.traced.outgoing c).bind fun m => .done (⟨reply, m⟩ : Dispatched)) =
        ((d.outgoing c).bind fun m => .done (⟨reply, m⟩ : Dispatched)).beside
          (List CallEvent) := by
    intro reply
    simp only [outgoing, shape_traced]
    rfl
  simp only [hshape]
  exact hall

end Dispatcher

/-!
## Hooks
-/

/-- The events of hooks from a place on, by whether they fail. -/
def CallEvent.hooks (place : Nat) (response : Message) (failures : List Bool) : List CallEvent :=
  (failures.zipIdx place).map fun f => .hooked f.2 response f.1

/-- How far a number of hooks get: in order, to the first that fails or to the end. -/
structure HooksRun (hooks : Nat) (failures : List Bool) : Prop where
  ran_le : failures.length ≤ hooks
  stops : ∀ i, failures[i]? = some true → i + 1 = failures.length
  complete : true ∉ failures → failures.length = hooks

namespace HooksRun

theorem nil : HooksRun 0 [] where
  ran_le := Nat.le_refl 0
  stops i h := by simp at h
  complete _ := rfl

theorem failed (hooks : Nat) : HooksRun (hooks + 1) [true] where
  ran_le := Nat.le_add_left 1 hooks
  stops i h := by
    cases i with
    | zero => rfl
    | succ i => simp at h
  complete h := absurd (List.mem_singleton.mpr rfl) h

theorem cons
    {hooks : Nat} {failures : List Bool}
    (h : HooksRun hooks failures) :
    HooksRun (hooks + 1) (false :: failures) where
  ran_le := Nat.succ_le_succ h.ran_le
  stops i hi := by
    cases i with
    | zero => simp at hi
    | succ i => exact congrArg (· + 1) (h.stops i hi)
  complete hnot := congrArg (· + 1) (h.complete fun hmem => hnot (List.mem_cons_of_mem _ hmem))

end HooksRun

namespace Gateway

theorem records_runHooks
    (c : Context) (response : Message) (hooks : List (ResponseHook ω)) (place : Nat)
    (headers : HeaderMap) (r : Run ω) :
    ∃ failures,
      HooksRun hooks.length failures ∧
      Records (runHooks c response (ResponseHook.tracedFrom place hooks) headers)
        (runHooks c response hooks headers) r (CallEvent.hooks place response failures) := by
  induction hooks generalizing place headers r with
  | nil =>
      refine ⟨[], .nil, fun before => ?_⟩
      rw [CallEvent.hooks, List.zipIdx_nil, List.map_nil, List.append_nil]
      rfl
  | cons hook rest ih =>
      have htraced :
          ResponseHook.tracedFrom place (hook :: rest) =
            hook.traced place :: ResponseHook.tracedFrom (place + 1) rest := rfl
      cases hrun : hook.run c response headers r.world with
      | mk result world =>
          let s : Run ω := { r.mark (.hooked hook.name) with world := world }
          cases result with
          | error status =>
              -- the other hooks do not run
              refine ⟨[true], .failed _, fun before => ?_⟩
              have hhook : (hook.traced place).run c response headers (r.world, before) =
                  (.error status, (world, before ++ [.hooked place response true])) := by
                simp only [ResponseHook.traced, hrun]
              simp only [htraced, runHooks, Run.mark, Run.beside, hrun, hhook]
              rfl
          | ok more =>
              obtain ⟨failures, hhooks, hrest⟩ := ih (place + 1) more s
              refine ⟨false :: failures, hhooks.cons, fun before => ?_⟩
              have hhook : (hook.traced place).run c response headers (r.world, before) =
                  (.ok more, (world, before ++ [.hooked place response false])) := by
                simp only [ResponseHook.traced, hrun]
              have hall := hrest (before ++ [.hooked place response false])
              rw [List.append_assoc] at hall
              simp only [htraced, runHooks, Run.mark, Run.beside, hrun, hhook]
              exact hall

/-!
## Requests
-/

variable {g : Gateway ω} {request : Request} {caller : Caller} {r s : Run ω} {c : Context}
  {message : Message} {events later : List CallEvent}

theorem records_call
    (h : Records ((g.traced.dispatcher.dispatch c message).run (caller.bounds c.deadline))
      ((g.dispatcher.dispatch c message).run (caller.bounds c.deadline)) r events) :
    Records (g.traced.call c message caller) (g.call c message caller) r events := by
  intro before
  simp only [call, h before]
  cases (g.dispatcher.dispatch c message).run (caller.bounds c.deadline) r with
  | mk ending s =>
      cases ending with
      | finished d => rfl
      | departed => simp only [Run.cancel_beside]
      | stalled => rfl
      | expired =>
          have hshape := g.dispatcher.shape_traced c.method.fullMethod s.outgoing
          simp only [Run.cancel_beside]
          rw [← hshape]
          rfl

theorem records_conclude_of_refused
    {d : Dispatched} {status : Status}
    (h : d.reply = .error status) :
    Records (g.traced.conclude c d) (g.conclude c d) s [] := by
  intro before
  rw [List.append_nil]
  simp only [conclude, h]
  rfl

/-- A call with a response goes on with the hooks. -/
theorem records_conclude_of_reply
    {d : Dispatched} {reply : Message}
    (h : d.reply = .ok reply) :
    ∃ failures,
      HooksRun g.hooks.length failures ∧
      Records (g.traced.conclude c d) (g.conclude c d) s (CallEvent.hooks 0 reply failures) := by
  obtain ⟨failures, hfailures, hhooks⟩ :=
    records_runHooks c reply g.hooks 0 .empty (s.reach .dispatched)
  refine ⟨failures, hfailures, fun before => ?_⟩
  have hrun : runHooks c reply g.traced.hooks .empty ((s.beside before).reach .dispatched) = _ :=
    hhooks before
  simp only [conclude, h, hrun]
  generalize runHooks c reply g.hooks .empty (s.reach .dispatched) = done
  obtain ⟨result, t⟩ := done
  cases result with
  | error status => rfl
  | ok headers => rfl

theorem Ready.exists_callEnds
    (h : g.Ready request r.now c message) (caller : Caller) :
    ∃ ending s, g.CallEnds request caller r c message ending s :=
  ⟨_, _, h, rfl⟩

/-- What is recorded while the call of a request is made, and then while its result is turned into
an answer. -/
theorem records_process
    (hready : g.Ready request r.now c message)
    (hcall : Records (g.traced.call c message caller) (g.call c message caller)
      (r.calling caller) events)
    (hexit : ∀ exit s, g.call c message caller (r.calling caller) = (.error exit, s) → later = [])
    (hconclude : ∀ d s, g.call c message caller (r.calling caller) = (.ok d, s) →
      Records (g.traced.conclude c d) (g.conclude c d) s later) :
    Records (g.traced.process request (g.codecs.inbound request.headers) caller)
      (g.process request (g.codecs.inbound request.headers) caller) (r.received caller)
      (events ++ later) := by
  intro before
  have hready' : g.traced.Ready request (r.beside before).now c message := hready
  obtain ⟨_, _, hends⟩ := hready.exists_callEnds caller
  obtain ⟨_, _, hends'⟩ := hready'.exists_callEnds caller
  refine (process_of_ready hends').trans ?_
  rw [process_of_ready hends]
  have hbeside : (r.beside before).calling caller = (r.calling caller).beside before := rfl
  rw [hbeside, hcall before]
  cases hresult : g.call c message caller (r.calling caller) with
  | mk result s =>
      cases result with
      | error exit =>
          rw [hexit exit s hresult, List.append_nil]
      | ok d =>
          rw [← List.append_assoc]
          exact hconclude d s hresult (before ++ events)

/-- The response is written to a request whatever is recorded. -/
theorem records_respond
    (result : Except Exit Success) (codec : Codec) (r : Run ω) :
    Records (respond result codec) (respond result codec) r ([] : List CallEvent) := by
  intro before
  rw [List.append_nil]
  cases result with
  | error exit => cases exit <;> rfl
  | ok answer =>
      simp only [respond, forward]
      cases writeBody codec answer.message with
      | error reason => rfl
      | ok body => rfl

theorem records_handle
    (h : Records (g.traced.process request (g.codecs.inbound request.headers) caller)
      (g.process request (g.codecs.inbound request.headers) caller) (r.received caller) events) :
    Records (g.traced.handle request caller) (g.handle request caller) r events := by
  intro before
  have hcourse := course_process g request caller r
  have htraced : g.traced.Course request caller (r.beside before)
      (g.process request (g.codecs.inbound request.headers) caller (r.received caller)).1
      ((g.process request (g.codecs.inbound request.headers) caller (r.received caller)).2.beside
        (before ++ events)) := by
    have hprocess := course_process g.traced request caller (r.beside before)
    have heq : g.traced.process request (g.traced.codecs.inbound request.headers) caller
        ((r.beside before).received caller) = _ := h before
    rw [heq] at hprocess
    exact hprocess
  generalize g.process request (g.codecs.inbound request.headers) caller (r.received caller) =
    processed at hcourse htraced
  obtain ⟨result, s⟩ := processed
  by_cases hstalled : result = .error .stalled
  · subst hstalled
    rw [hcourse.handle_of_stalled, htraced.handle_of_stalled]
  · rw [hcourse.handle_eq hstalled, htraced.handle_eq hstalled, Run.beside_cancelled]
    cases s.cancelled with
    | true => rfl
    | false =>
        have hrespond := records_respond result (g.codecs.outbound request.headers) s
          (before ++ events)
        rw [List.append_nil] at hrespond
        exact hrespond

/-- What is called for a request, and in which order. -/
structure Gated (g : Gateway ω) (request : Request) (caller : Caller) (r : Run ω)
    (trace : List CallEvent) : Prop where
  /-- Nothing is called for a request that gets no further than to its message. -/
  rejected : g.Unrouted request ∨ ¬ request.headers.TimeoutReads ∨
    (∃ fault, g.Undecodable request fault) → trace = []
  /-- Nothing is called if nobody registered the method, and the call fails. -/
  unregistered : ∀ c message,
    g.Ready request r.now c message →
    g.dispatcher.registry.find? c.method.fullMethod = none →
    trace = [] ∧
    ∃ d s status,
      g.CallEnds request caller r c message (.finished d) s ∧
      d.reply = .error status ∧ status.code = .unimplemented
  /-- The call of a registered method descends the chain once, and the hooks run behind it if and
  only if the call has a response. -/
  registered : ∀ c message entry,
    g.Ready request r.now c message →
    g.dispatcher.registry.find? c.method.fullMethod = some entry →
    ∃ entries calls,
      Descent g.dispatcher.interceptors.length message entries calls ∧
      ((∃ d s reply failures,
          g.CallEnds request caller r c message (.finished d) s ∧
          d.reply = .ok reply ∧
          HooksRun g.hooks.length failures ∧
          trace = CallEvent.descent 0 c.method.fullMethod entries calls ++
            CallEvent.hooks 0 reply failures) ∨
        ((∀ d s reply,
            g.CallEnds request caller r c message (.finished d) s → d.reply ≠ .ok reply) ∧
          trace = CallEvent.descent 0 c.method.fullMethod entries calls))

/-- A course that ends before the call leaves no events. -/
theorem records_of_course
    {result : Except Exit Success}
    (h : g.Course request caller r result s)
    (htraced : ∀ before, g.traced.Course request caller (r.beside before) result
      (s.beside before)) :
    Records (g.traced.handle request caller) (g.handle request caller) r [] := by
  refine records_handle fun before => ?_
  rw [h.process_eq, List.append_nil]
  exact (htraced before).process_eq

theorem records_of_rejected
    (h : g.Unrouted request ∨ ¬ request.headers.TimeoutReads ∨
      ∃ fault, g.Undecodable request fault) :
    Records (g.traced.handle request caller) (g.handle request caller) r [] := by
  by_cases hunrouted : g.Unrouted request
  · exact records_of_course (.unrouted hunrouted) fun _ => .unrouted hunrouted
  rcases h with h | h | ⟨fault, h⟩
  · exact absurd h hunrouted
  · cases hresolve : g.resolve request.method request.path with
    | none => exact absurd (resolve_eq_none_iff.mp hresolve) hunrouted
    | some found =>
        have hlead := resolve_eq_some_iff.mp hresolve
        cases hlimit : g.timeout request.headers with
        | ok limit => exact absurd (timeout_eq_ok_iff.mp ⟨limit, hlimit⟩) h
        | error status =>
            exact records_of_course (.untimed hlead hlimit) fun _ => .untimed hlead hlimit
  · exact records_of_course (.undecoded h) fun _ => .undecoded h

theorem call_eq_ok_iff
    (hready : g.Ready request r.now c message) {d : Dispatched} :
    g.call c message caller (r.calling caller) = (.ok d, s) ↔
      g.CallEnds request caller r c message (.finished d) s := by
  constructor
  · intro h
    refine ⟨hready, ?_⟩
    unfold call at h
    split at h <;> cases h
    assumption
  · intro h
    rw [call, h.run_eq]

/-- The call of a method that is not registered fails at once. -/
theorem callEnds_of_unregistered
    (hready : g.Ready request r.now c message)
    (h : g.dispatcher.registry.find? c.method.fullMethod = none) (caller : Caller) :
    ∃ d s,
      g.CallEnds request caller r c message (.finished d) s ∧
      d.reply = .error (Dispatcher.unregistered c.method.fullMethod) := by
  refine ⟨⟨.error (Dispatcher.unregistered c.method.fullMethod), (r.calling caller).outgoing⟩,
    { r.calling caller with outgoing := .empty }, ⟨hready, ?_⟩, rfl⟩
  simp only [Dispatcher.dispatch, h]
  rfl

theorem records_of_unregistered
    (hready : g.Ready request r.now c message)
    (h : g.dispatcher.registry.find? c.method.fullMethod = none) :
    Records (g.traced.handle request caller) (g.handle request caller) r [] := by
  obtain ⟨d, s, hends, hreply⟩ := callEnds_of_unregistered hready h caller
  have hcall : Records (g.traced.call c message caller) (g.call c message caller)
      (r.calling caller) [] :=
    records_call (Dispatcher.records_dispatch_of_unregistered h message _)
  have hprocess := records_process hready hcall (fun _ _ _ => Eq.refl [])
  refine records_handle (hprocess ?_)
  intro e t hresult
  rw [(call_eq_ok_iff hready).mpr hends] at hresult
  cases hresult
  exact records_conclude_of_refused hreply

/-- The call of a registered method descends the chain, and hooks run behind it if it has a
response. -/
theorem records_of_registered
    {entry : MethodEntry ω}
    (hready : g.Ready request r.now c message)
    (h : g.dispatcher.registry.find? c.method.fullMethod = some entry) (caller : Caller) :
    ∃ entries calls,
      Descent g.dispatcher.interceptors.length message entries calls ∧
      ((∃ d s reply failures,
          g.CallEnds request caller r c message (.finished d) s ∧
          d.reply = .ok reply ∧
          HooksRun g.hooks.length failures ∧
          Records (g.traced.handle request caller) (g.handle request caller) r
            (CallEvent.descent 0 c.method.fullMethod entries calls ++
              CallEvent.hooks 0 reply failures)) ∨
        ((∀ d s reply,
            g.CallEnds request caller r c message (.finished d) s → d.reply ≠ .ok reply) ∧
          Records (g.traced.handle request caller) (g.handle request caller) r
            (CallEvent.descent 0 c.method.fullMethod entries calls))) := by
  obtain ⟨entries, calls, hdescent, hdispatch⟩ :=
    Dispatcher.records_dispatch h (caller.bounds c.deadline) message (r.calling caller)
  have hcall := records_call hdispatch
  refine ⟨entries, calls, hdescent, ?_⟩
  by_cases hanswered : ∃ d s reply,
      g.CallEnds request caller r c message (.finished d) s ∧ d.reply = .ok reply
  · left
    obtain ⟨d, s, reply, hends, hreply⟩ := hanswered
    have hok := (call_eq_ok_iff hready).mpr hends
    obtain ⟨failures, hfailures, hconclude⟩ :=
      records_conclude_of_reply (g := g) (c := c) (s := s) hreply
    refine ⟨d, s, reply, failures, hends, hreply, hfailures, ?_⟩
    refine records_handle (records_process hready hcall ?_ ?_)
    · intro exit t hresult
      rw [hok] at hresult
      cases hresult
    · intro e t hresult
      rw [hok] at hresult
      cases hresult
      exact hconclude
  · right
    refine ⟨fun d s reply hends hreply => hanswered ⟨d, s, reply, hends, hreply⟩, ?_⟩
    have hprocess := records_process hready hcall (fun _ _ _ => Eq.refl [])
    rw [List.append_nil] at hprocess
    refine records_handle (hprocess fun d s hresult => ?_)
    cases hreply : d.reply with
    | error status => exact records_conclude_of_refused hreply
    | ok reply =>
        exact absurd ⟨d, s, reply, (call_eq_ok_iff hready).mp hresult, hreply⟩ hanswered

/-- A request gets no further than to its message, or its call is ready. -/
theorem rejected_or_ready
    (g : Gateway ω) (request : Request) (now : Nat) :
    (g.Unrouted request ∨ ¬ request.headers.TimeoutReads ∨
      ∃ fault, g.Undecodable request fault) ∨
    ∃ c message, g.Ready request now c message := by
  cases hresolve : g.resolve request.method request.path with
  | none => exact Or.inl (Or.inl (resolve_eq_none_iff.mp hresolve))
  | some found =>
      obtain ⟨route, params⟩ := found
      have hlead := resolve_eq_some_iff.mp hresolve
      by_cases hreads : request.headers.TimeoutReads
      · obtain ⟨limit, hlimit⟩ := (timeout_eq_ok_iff (g := g)).mpr hreads
        cases hmessage : g.messageOf request route params with
        | error fault =>
            exact Or.inl (Or.inr (Or.inr ⟨fault, route, params, hlead, hreads, hmessage⟩))
        | ok message =>
            exact Or.inr ⟨_, message, route, params, limit, hlead, hlimit, hmessage, rfl⟩
      · exact Or.inl (Or.inr (Or.inl hreads))

/-- Every request leaves some events. -/
theorem exists_records
    (g : Gateway ω) (request : Request) (caller : Caller) (r : Run ω) :
    ∃ events, Records (g.traced.handle request caller) (g.handle request caller) r events := by
  rcases rejected_or_ready g request r.now with hrejected | ⟨c, message, hready⟩
  · exact ⟨[], records_of_rejected hrejected⟩
  cases hentry : g.dispatcher.registry.find? c.method.fullMethod with
  | none => exact ⟨[], records_of_unregistered hready hentry⟩
  | some entry =>
      obtain ⟨entries, calls, -, hanswered | hfailed⟩ :=
        records_of_registered hready hentry caller
      · obtain ⟨d, s, reply, failures, -, -, -, hrecords⟩ := hanswered
        exact ⟨_, hrecords⟩
      · exact ⟨_, hfailed.2⟩

theorem trace_eq_of_records
    (h : Records (g.traced.handle request caller) (g.handle request caller) r events) :
    g.trace request caller r = events := by
  rw [trace, h []]
  rfl

/-- **Gating and dispatch.**  A gateway with a record of its calls serves a request as the gateway
does, and the record is gated: one descent at most, with the message of the request, and the hooks
behind it. -/
theorem handle_traced
    (g : Gateway ω) (request : Request) (caller : Caller) (r : Run ω) :
    g.traced.handle request caller (r.beside []) =
      ((g.handle request caller r).1,
        (g.handle request caller r).2.beside (g.trace request caller r)) ∧
    g.Gated request caller r (g.trace request caller r) := by
  refine ⟨?_, ?_, ?_, ?_⟩
  · obtain ⟨events, hrecords⟩ := exists_records g request caller r
    rw [trace_eq_of_records hrecords]
    exact hrecords []
  · intro hrejected
    exact trace_eq_of_records (records_of_rejected hrejected)
  · intro c message hready hentry
    refine ⟨trace_eq_of_records (records_of_unregistered hready hentry), ?_⟩
    obtain ⟨d, s, hends, hreply⟩ := callEnds_of_unregistered hready hentry caller
    exact ⟨d, s, _, hends, hreply, rfl⟩
  · intro c message entry hready hentry
    obtain ⟨entries, calls, hdescent, hcases⟩ :=
      records_of_registered hready hentry caller
    refine ⟨entries, calls, hdescent, ?_⟩
    rcases hcases with hanswered | ⟨hnone, hrecords⟩
    · obtain ⟨d, s, reply, failures, hends, hreply, hfailures, hrecords⟩ := hanswered
      exact Or.inl
        ⟨d, s, reply, failures, hends, hreply, hfailures, trace_eq_of_records hrecords⟩
    · exact Or.inr ⟨hnone, trace_eq_of_records hrecords⟩

end Gateway
end RpcGateway
