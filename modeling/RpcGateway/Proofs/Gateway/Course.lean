import RpcGateway.Gateway.Lifecycle
import RpcGateway.Proofs.Call.Clock

/-!
# The course of a request

What can happen to a request until it is answered, said without the order in which the gateway finds
out.

**Stages.**
* `LeadsTo`: the route that serves the request, the first that matches;
* `TimeoutReads`: the request brings no timeout, or one that can be read;
* `Ready`: the context and the message of the call;
* `CallEnds`: the end of the call.

**Course.**  `Course` has one constructor for each way in which the processing ends.
`course_process` says that the processing takes one of them, and `Course.process_eq` that it takes
no other.
-/

namespace RpcGateway

variable {ω : Type}

/-- The header lines bring no timeout, or one that can be read. -/
def HeaderMap.TimeoutReads (h : HeaderMap) : Prop :=
  ∀ raw, h.get? Timeout.headerName = some raw →
    ∃ span, (HeaderValue.text? raw).bind Timeout.parse? = some span

/-- The run of a request that has just arrived. -/
def Run.received (r : Run ω) (caller : Caller) : Run ω :=
  { r.reach .received with cancelled := caller.cancelled }

/-- The run of a request whose call begins. -/
def Run.calling (r : Run ω) (caller : Caller) : Run ω :=
  ((r.received caller).reach .matched).reach .decoded

namespace Gateway

variable (g : Gateway ω) (request : Request)

/-- No route serves a request. -/
def Unrouted : Prop :=
  ∀ route ∈ g.routes, route.template.match? request.method request.path = none

/-- A route serves a request: it matches, and none before it does. -/
def LeadsTo (route : Route) (params : PathParams) : Prop :=
  ∃ before after,
    g.routes = before ++ route :: after ∧
    (∀ other ∈ before, other.template.match? request.method request.path = none) ∧
    route.template.match? request.method request.path = some params

/-- The message that a route makes of a request. -/
def messageOf (route : Route) (params : PathParams) : Except CodecFault Message :=
  (g.codecs.inbound request.headers).decodeMessage route.request request.body params

/-- A request has a route and no unreadable timeout, and its message cannot be built. -/
def Undecodable (fault : CodecFault) : Prop :=
  ∃ route params,
    g.LeadsTo request route params ∧
    request.headers.TimeoutReads ∧
    g.messageOf request route params = .error fault

/-- The context and the message of the call that a request makes at a time. -/
def Ready (now : Nat) (c : Context) (message : Message) : Prop :=
  ∃ route params limit,
    g.LeadsTo request route params ∧
    g.timeout request.headers = .ok limit ∧
    g.messageOf request route params = .ok message ∧
    c = g.context request route params now limit

/-- How the call of a request ends. -/
structure CallEnds (caller : Caller) (r : Run ω) (c : Context) (message : Message)
    (ending : Ending Dispatched) (s : Run ω) : Prop where
  ready : g.Ready request r.now c message
  run_eq :
    (g.dispatcher.dispatch c message).run (caller.bounds c.deadline) (r.calling caller) =
      (ending, s)

/-- How the processing of a request ends, one constructor for each way. -/
inductive Course (caller : Caller) (r : Run ω) : Except Exit Success → Run ω → Prop
  | unrouted
      (h : g.Unrouted request) :
      Course caller r (.error .unmatched) (r.received caller)
  | untimed {route : Route} {params : PathParams} {status : Status}
      (h : g.LeadsTo request route params)
      (hstatus : g.timeout request.headers = .error status) :
      Course caller r (.error (.failed status .empty)) ((r.received caller).reach .matched)
  | undecoded {fault : CodecFault}
      (h : g.Undecodable request fault) :
      Course caller r
        (.error (.decodeFailed (Status.of .invalidArgument fault.message)))
        ((r.received caller).reach .matched)
  | departed {c : Context} {message : Message} {s : Run ω}
      (h : g.CallEnds request caller r c message .departed s) :
      Course caller r (.error .departed) s.cancel
  | stalled {c : Context} {message : Message} {s : Run ω}
      (h : g.CallEnds request caller r c message .stalled s) :
      Course caller r (.error .stalled) s
  | expired {c : Context} {message : Message} {s : Run ω}
      (h : g.CallEnds request caller r c message .expired s) :
      Course caller r
        (.error (.failed deadlineStatus (g.dispatcher.shape c.method.fullMethod s.outgoing)))
        { s.cancel with outgoing := .empty }
  | refused {c : Context} {message : Message} {d : Dispatched} {s : Run ω} {status : Status}
      (h : g.CallEnds request caller r c message (.finished d) s)
      (hreply : d.reply = .error status) :
      Course caller r (.error (.failed status d.metadata)) ((s.reach .dispatched).reach .failed)
  | unhooked {c : Context} {message reply : Message} {d : Dispatched} {s t : Run ω}
      {status : Status}
      (h : g.CallEnds request caller r c message (.finished d) s)
      (hreply : d.reply = .ok reply)
      (hhooks : runHooks c reply g.hooks .empty (s.reach .dispatched) = (.error status, t)) :
      Course caller r (.error (.failed status d.metadata)) t
  | answered {c : Context} {message reply : Message} {d : Dispatched} {s t : Run ω}
      {headers : HeaderMap}
      (h : g.CallEnds request caller r c message (.finished d) s)
      (hreply : d.reply = .ok reply)
      (hhooks : runHooks c reply g.hooks .empty (s.reach .dispatched) = (.ok headers, t)) :
      Course caller r (.ok ⟨reply, d.metadata, headers⟩) (t.reach .succeeded)

variable {g request}

theorem resolve_eq_none_iff :
    g.resolve request.method request.path = none ↔ g.Unrouted request := by
  simp [resolve, Unrouted]

/-- The route that is found is the first that matches. -/
theorem resolve_eq_some_iff
    {route : Route} {params : PathParams} :
    g.resolve request.method request.path = some (route, params) ↔
      g.LeadsTo request route params := by
  simp only [resolve, LeadsTo, List.findSome?_eq_some_iff, Option.map_eq_some_iff,
    Option.map_eq_none_iff, Prod.mk.injEq]
  constructor
  · rintro ⟨before, other, after, hroutes, ⟨ps, hps, rfl, rfl⟩, hbefore⟩
    exact ⟨before, after, hroutes, hbefore, hps⟩
  · rintro ⟨before, after, hroutes, hbefore, hps⟩
    exact ⟨before, route, after, hroutes, ⟨params, hps, rfl, rfl⟩, hbefore⟩

theorem timeout_eq_ok_iff
    {headers : HeaderMap} :
    (∃ limit, g.timeout headers = .ok limit) ↔ headers.TimeoutReads := by
  unfold timeout HeaderMap.TimeoutReads
  cases hraw : headers.get? Timeout.headerName with
  | none => simp
  | some raw =>
      cases hspan : (HeaderValue.text? raw).bind Timeout.parse? with
      | none => simp [hspan]
      | some span => simp [hspan]

theorem Ready.unique
    {now : Nat} {c other : Context} {message message' : Message}
    (h : g.Ready request now c message) (h' : g.Ready request now other message') :
    c = other ∧ message = message' := by
  obtain ⟨route, params, limit, hlead, hlimit, hmessage, rfl⟩ := h
  obtain ⟨route', params', limit', hlead', hlimit', hmessage', rfl⟩ := h'
  have hroute := (resolve_eq_some_iff.mpr hlead).symm.trans (resolve_eq_some_iff.mpr hlead')
  cases hroute
  cases hlimit.symm.trans hlimit'
  cases hmessage.symm.trans hmessage'
  exact ⟨rfl, rfl⟩

/-- The call of a request in progress, whatever its end. -/
theorem process_of_ready
    {caller : Caller} {r s : Run ω} {c : Context} {message : Message}
    {ending : Ending Dispatched}
    (h : g.CallEnds request caller r c message ending s) :
    g.process request (g.codecs.inbound request.headers) caller (r.received caller) =
      match g.call c message caller (r.calling caller) with
      | (.error exit, r) => (.error exit, r)
      | (.ok d, r) => g.conclude c d r := by
  obtain ⟨route, params, limit, hlead, hlimit, hmessage, rfl⟩ := h.ready
  rw [messageOf] at hmessage
  rw [process, resolve_eq_some_iff.mpr hlead]
  simp only [hlimit, hmessage]
  rfl

theorem course_of_callEnds
    {caller : Caller} {r s : Run ω} {c : Context} {message : Message}
    {ending : Ending Dispatched}
    (h : g.CallEnds request caller r c message ending s) :
    g.Course request caller r
      (g.process request (g.codecs.inbound request.headers) caller (r.received caller)).1
      (g.process request (g.codecs.inbound request.headers) caller (r.received caller)).2 := by
  rw [process_of_ready h, call, h.run_eq]
  cases ending with
  | departed => exact .departed h
  | stalled => exact .stalled h
  | expired => exact .expired h
  | finished d =>
      simp only [conclude]
      cases hreply : d.reply with
      | error status => exact .refused h hreply
      | ok reply =>
          simp only
          cases hhooks : runHooks c reply g.hooks .empty (s.reach .dispatched) with
          | mk result t =>
              cases result with
              | error status => exact .unhooked h hreply hhooks
              | ok headers => exact .answered h hreply hhooks

theorem course_process
    (g : Gateway ω) (request : Request) (caller : Caller) (r : Run ω) :
    g.Course request caller r
      (g.process request (g.codecs.inbound request.headers) caller (r.received caller)).1
      (g.process request (g.codecs.inbound request.headers) caller (r.received caller)).2 := by
  cases hresolve : g.resolve request.method request.path with
  | none =>
      rw [process, hresolve]
      exact .unrouted (resolve_eq_none_iff.mp hresolve)
  | some found =>
      obtain ⟨route, params⟩ := found
      have hlead := resolve_eq_some_iff.mp hresolve
      cases hlimit : g.timeout request.headers with
      | error status =>
          rw [process, hresolve]
          simp only [hlimit]
          exact .untimed hlead hlimit
      | ok limit =>
          cases hmessage : g.messageOf request route params with
          | error fault =>
              have hreads := timeout_eq_ok_iff.mp ⟨limit, hlimit⟩
              have hundecodable : g.Undecodable request fault :=
                ⟨route, params, hlead, hreads, hmessage⟩
              rw [messageOf] at hmessage
              rw [process, hresolve]
              simp only [hlimit, hmessage]
              exact .undecoded hundecodable
          | ok message =>
              exact course_of_callEnds
                ⟨⟨route, params, limit, hlead, hlimit, hmessage, rfl⟩, rfl⟩

theorem Course.process_eq
    {caller : Caller} {r s : Run ω} {result : Except Exit Success}
    (h : g.Course request caller r result s) :
    g.process request (g.codecs.inbound request.headers) caller (r.received caller) =
      (result, s) := by
  cases h with
  | unrouted h => rw [process, resolve_eq_none_iff.mpr h]
  | untimed h hstatus =>
      rw [process, resolve_eq_some_iff.mpr h]
      simp only [hstatus]
  | undecoded h =>
      obtain ⟨route, params, hlead, hreads, hmessage⟩ := h
      obtain ⟨limit, hlimit⟩ := (timeout_eq_ok_iff (g := g)).mpr hreads
      rw [messageOf] at hmessage
      rw [process, resolve_eq_some_iff.mpr hlead]
      simp only [hlimit, hmessage]
  | departed h => rw [process_of_ready h, call, h.run_eq]
  | stalled h => rw [process_of_ready h, call, h.run_eq]
  | expired h => rw [process_of_ready h, call, h.run_eq]
  | refused h hreply =>
      rw [process_of_ready h, call, h.run_eq]
      simp only [conclude, hreply]
  | unhooked h hreply hhooks =>
      rw [process_of_ready h, call, h.run_eq]
      simp only [conclude, hreply, hhooks]
  | answered h hreply hhooks =>
      rw [process_of_ready h, call, h.run_eq]
      simp only [conclude, hreply, hhooks]

theorem Course.unique
    {caller : Caller} {r s t : Run ω} {result other : Except Exit Success}
    (h : g.Course request caller r result s)
    (h' : g.Course request caller r other t) :
    result = other ∧ s = t := by
  have heq := h.process_eq.symm.trans h'.process_eq
  exact Prod.mk.inj heq

end Gateway
end RpcGateway
