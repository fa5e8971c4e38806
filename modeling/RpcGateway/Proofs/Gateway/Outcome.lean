import RpcGateway.Proofs.Gateway.Course
import RpcGateway.Rehearsal.Codecs

/-!
# The outcome of a request

A request ends in one terminal state, with one response or none, and the state tells what happened.

**Callers.**  A caller holds a token that never fires, has fired before the request is made, or
fires some time after.  It leaves in no other way.

**States.**  `terminalState` is the state that the end of the processing leads to, unless the token
has fired by then.

**Results.**  `handle_truthful`: a request whose token has fired by the end of its processing is
cancelled and gets no response; any other gets one response in the state that its course calls for,
and the status of an error response is that of its `Cause`.  A request gets no outcome at all only
if its call waits for something that never comes, with no deadline and with a token that never
fires.
-/

namespace RpcGateway

variable {ω : Type}

/-- When the token of a caller fires. -/
inductive Firing
  | never
  /-- Before the request is made. -/
  | before
  /-- A span of time after the request is made. -/
  | after (span : Nat)

namespace Firing

/-- The time at which the token fires, if the request is made now. -/
def time? (now : Nat) : Firing → Option Nat
  | never => none
  | before => some now
  | after span => some (now + span)

/-- The caller of a request that is made now. -/
def caller (now : Nat) : Firing → Caller
  | never => .patient
  | before => .gone now
  | after span => .cancelling (now + span)

@[simp] theorem cancelsAt_bounds
    (firing : Firing) (now : Nat) (deadline : Option Nat) :
    ((firing.caller now).bounds deadline).cancelsAt = firing.time? now := by
  cases firing <;> rfl

theorem leavesAt_bounds
    (firing : Firing) (now : Nat) (deadline : Option Nat) :
    ((firing.caller now).bounds deadline).leavesAt =
      ((firing.caller now).bounds deadline).cancelsAt := by
  cases firing <;> rfl

theorem attests_received
    (firing : Firing) (r : Run ω) :
    Activity.Attests (firing.time? r.now) (r.received (firing.caller r.now)).now
      (r.received (firing.caller r.now)).cancelled := by
  cases firing with
  | never => exact ⟨by rintro ⟨⟩, by rintro t ⟨⟩⟩
  | before => exact ⟨fun _ => ⟨r.now, rfl, Nat.le_refl _⟩, fun _ _ _ => rfl⟩
  | after span =>
      refine ⟨by rintro ⟨⟩, fun t ht hlt => ?_⟩
      simp only [time?, Option.some.injEq] at ht
      change t < r.now at hlt
      omega

end Firing

namespace Gateway

variable {g : Gateway ω} {request : Request}

/-!
## What a run knows at the end of the processing
-/

/-- Hooks take no time and cancel nothing. -/
theorem runHooks_clock
    (c : Context) (message : Message) (hooks : List (ResponseHook ω))
    (headers : HeaderMap) (r : Run ω) :
    (runHooks c message hooks headers r).2.now = r.now ∧
    (runHooks c message hooks headers r).2.cancelled = r.cancelled := by
  induction hooks generalizing headers r with
  | nil => exact ⟨rfl, rfl⟩
  | cons h hs ih =>
      simp only [runHooks]
      split
      · exact ih _ _
      · exact ⟨rfl, rfl⟩

theorem CallEnds.punctual
    {caller : Caller} {r s : Run ω} {c : Context} {message : Message}
    {ending : Ending Dispatched}
    (h : g.CallEnds request caller r c message ending s)
    (deadline : Nat) (hd : c.deadline = some deadline) :
    s.now ≤ max r.now (Timer.due deadline) := by
  have hbounds : (caller.bounds c.deadline).deadline = some deadline := hd
  have hrun := Activity.run_le_deadline hbounds (g.dispatcher.dispatch c message)
    (r.calling caller)
  rw [h.run_eq] at hrun
  exact hrun

theorem CallEnds.attests
    {firing : Firing} {r s : Run ω} {c : Context} {message : Message}
    {ending : Ending Dispatched}
    (h : g.CallEnds request (firing.caller r.now) r c message ending s) :
    Activity.Attests (firing.time? r.now) s.now s.cancelled := by
  have hrun := Activity.attests_run
    (firing.leavesAt_bounds r.now c.deadline)
    (g.dispatcher.dispatch c message)
    (r.calling (firing.caller r.now))
  rw [Firing.cancelsAt_bounds, h.run_eq] at hrun
  exact hrun (firing.attests_received r)

/-- At the end of the processing it is known whether the token has fired. -/
theorem Course.attests
    {firing : Firing} {r s : Run ω} {result : Except Exit Success}
    (h : g.Course request (firing.caller r.now) r result s) :
    Activity.Attests (firing.time? r.now) s.now s.cancelled := by
  cases h with
  | unrouted => exact firing.attests_received r
  | untimed => exact firing.attests_received r
  | undecoded => exact firing.attests_received r
  | departed h => exact h.attests
  | stalled h => exact h.attests
  | expired h => exact h.attests
  | refused h => exact h.attests
  | @unhooked c _ reply _ s _ _ h _ hhooks =>
      have hclock := runHooks_clock c reply g.hooks .empty (s.reach .dispatched)
      rw [hhooks] at hclock
      rw [hclock.1, hclock.2]
      exact h.attests
  | @answered c _ reply _ s _ _ h _ hhooks =>
      have hclock := runHooks_clock c reply g.hooks .empty (s.reach .dispatched)
      rw [hhooks] at hclock
      rw [Run.reach_now, Run.reach_cancelled, hclock.1, hclock.2]
      exact h.attests

/-- A caller leaves only when its token has fired. -/
theorem Course.cancelled_of_departed
    {firing : Firing} {r s : Run ω}
    (h : g.Course request (firing.caller r.now) r (.error .departed) s) :
    s.cancelled = true := by
  cases h with
  | @departed _ _ t h =>
      have hcancelled : t.cancelled = true :=
        Activity.cancelled_of_departed (firing.leavesAt_bounds r.now _) h.run_eq
      exact hcancelled

/-!
## Terminal states
-/

/-- The state that the end of the processing leads to, unless the token has fired. -/
def terminalState (codec : Codec) : Except Exit Success → RequestState
  | .ok answer =>
      match writeBody codec answer.message with
      | .ok _ => .forwarded
      | .error _ => .errorWritten
  | .error .unmatched => .unmatched
  | .error (.decodeFailed _) => .decodeFailed
  | .error (.failed _ _) => .errorWritten
  | .error .departed => .cancelled
  | .error .stalled => .cancelled

/-- The call of a request succeeds before its deadline, all hooks succeed, and the response message
can be written. -/
def Served (g : Gateway ω) (request : Request) (caller : Caller) (r : Run ω) : Prop :=
  ∃ c message d s reply headers t body,
    g.CallEnds request caller r c message (.finished d) s ∧
    (∀ deadline, c.deadline = some deadline → s.now ≤ max r.now (Timer.due deadline)) ∧
    d.reply = .ok reply ∧
    runHooks c reply g.hooks .empty (s.reach .dispatched) = (.ok headers, t) ∧
    writeBody (g.codecs.outbound request.headers) reply = .ok body

theorem terminalState_eq_unmatched_iff
    (codec : Codec) (result : Except Exit Success) :
    terminalState codec result = .unmatched ↔ result = .error .unmatched := by
  cases result with
  | error exit => cases exit <;> simp [terminalState]
  | ok answer =>
      simp only [terminalState]
      split <;> simp

theorem terminalState_eq_decodeFailed_iff
    (codec : Codec) (result : Except Exit Success) :
    terminalState codec result = .decodeFailed ↔
      ∃ status, result = .error (.decodeFailed status) := by
  cases result with
  | error exit => cases exit <;> simp [terminalState]
  | ok answer =>
      simp only [terminalState]
      split <;> simp

theorem terminalState_eq_forwarded_iff
    (codec : Codec) (result : Except Exit Success) :
    terminalState codec result = .forwarded ↔
      ∃ answer body, result = .ok answer ∧ writeBody codec answer.message = .ok body := by
  cases result with
  | error exit => cases exit <;> simp [terminalState]
  | ok answer =>
      cases hbody : writeBody codec answer.message with
      | error reason => simp [terminalState, hbody]
      | ok body => simp [terminalState, hbody]

theorem Course.eq_unmatched_iff
    {caller : Caller} {r s : Run ω} {result : Except Exit Success}
    (h : g.Course request caller r result s) :
    result = .error .unmatched ↔ g.Unrouted request := by
  constructor
  · rintro rfl
    cases h with
    | unrouted h => exact h
  · intro hun
    exact (h.unique (.unrouted hun)).1

theorem Course.eq_decodeFailed_iff
    {caller : Caller} {r s : Run ω} {result : Except Exit Success}
    (h : g.Course request caller r result s) :
    (∃ status, result = .error (.decodeFailed status)) ↔
      ∃ fault, g.Undecodable request fault := by
  constructor
  · rintro ⟨status, rfl⟩
    cases h with
    | undecoded h => exact ⟨_, h⟩
  · rintro ⟨fault, hfault⟩
    exact ⟨_, (h.unique (.undecoded hfault)).1⟩

/-- The processing ends with an answer that can be written if and only if the request is served. -/
theorem Course.eq_answered_iff
    {caller : Caller} {r s : Run ω} {result : Except Exit Success}
    (h : g.Course request caller r result s) :
    (∃ answer body, result = .ok answer ∧
      writeBody (g.codecs.outbound request.headers) answer.message = .ok body) ↔
      g.Served request caller r := by
  constructor
  · rintro ⟨answer, body, rfl, hbody⟩
    cases h with
    | answered h hreply hhooks =>
        exact ⟨_, _, _, _, _, _, _, body, h, h.punctual, hreply, hhooks, hbody⟩
  · rintro ⟨c, message, d, s', reply, headers, t, body, hends, -, hreply, hhooks, hbody⟩
    exact ⟨_, body, (h.unique (.answered hends hreply hhooks)).1, hbody⟩

/-!
## Responses
-/

/-- Why a request gets an error response in a state. -/
inductive Cause (g : Gateway ω) (request : Request) (caller : Caller) (r : Run ω) :
    RequestState → Status → Prop
  | unrouted
      (h : g.Unrouted request) :
      Cause g request caller r .unmatched (Status.of .notFound "Not Found")
  | undecoded {fault : CodecFault}
      (h : g.Undecodable request fault) :
      Cause g request caller r .decodeFailed (Status.of .invalidArgument fault.message)
  | untimed {route : Route} {params : PathParams} {raw : HeaderValue}
      (h : g.LeadsTo request route params)
      (hraw : request.headers.get? Timeout.headerName = some raw)
      (hbad : (HeaderValue.text? raw).bind Timeout.parse? = none) :
      Cause g request caller r .errorWritten
        (Status.of .invalidArgument
          s!"invalid {Timeout.headerName} header: {HeaderValue.listing raw}")
  | expired {c : Context} {message : Message} {s : Run ω}
      (h : g.CallEnds request caller r c message .expired s) :
      Cause g request caller r .errorWritten
        (Status.of .deadlineExceeded "context deadline exceeded")
  | refused {c : Context} {message : Message} {d : Dispatched} {s : Run ω} {status : Status}
      (h : g.CallEnds request caller r c message (.finished d) s)
      (hreply : d.reply = .error status) :
      Cause g request caller r .errorWritten status
  | unhooked {c : Context} {message reply : Message} {d : Dispatched} {s t : Run ω}
      {status : Status}
      (h : g.CallEnds request caller r c message (.finished d) s)
      (hreply : d.reply = .ok reply)
      (hhooks : runHooks c reply g.hooks .empty (s.reach .dispatched) = (.error status, t)) :
      Cause g request caller r .errorWritten status
  | unwritten {c : Context} {message reply : Message} {d : Dispatched} {s t : Run ω}
      {headers : HeaderMap} {reason : String}
      (h : g.CallEnds request caller r c message (.finished d) s)
      (hreply : d.reply = .ok reply)
      (hhooks : runHooks c reply g.hooks .empty (s.reach .dispatched) = (.ok headers, t))
      (hbody : writeBody (g.codecs.outbound request.headers) reply = .error reason) :
      Cause g request caller r .errorWritten
        (Status.of .internal s!"failed to marshal response: {reason}")

/-- A response tells a status: its HTTP status is that of the code, and the fixed body with HTTP
status 500 takes its place if the codec cannot write the envelope. -/
def Tells (codec : Codec) (status : Status) (response : Response) : Prop :=
  (∃ body, codec.encode (ErrorEnvelope.ofStatus status).toValue = .ok body ∧
    response.status = status.code.httpStatus ∧ response.body = body) ∨
  (∃ fault, codec.encode (ErrorEnvelope.ofStatus status).toValue = .error fault ∧
    response.status = 500 ∧ response.body = fallbackBody)

theorem timeout_eq_error_iff
    {headers : HeaderMap} {status : Status} :
    g.timeout headers = .error status ↔
      ∃ raw, headers.get? Timeout.headerName = some raw ∧
        (HeaderValue.text? raw).bind Timeout.parse? = none ∧
        status = Status.of .invalidArgument
          s!"invalid {Timeout.headerName} header: {HeaderValue.listing raw}" := by
  unfold timeout
  cases hraw : headers.get? Timeout.headerName with
  | none => simp
  | some raw =>
      cases hspan : (HeaderValue.text? raw).bind Timeout.parse? with
      | none => simp [hspan, eq_comm]
      | some span =>
          simp only [hspan, reduceCtorEq, Option.some.injEq, false_iff]
          rintro ⟨raw', rfl, hbad, -⟩
          rw [hspan] at hbad
          cases hbad

/-- The response that an error is written as. -/
def errorResponse (codec : Codec) (status : Status) (metadata : CallMetadata) : Response :=
  ⟨(status.render codec).1, setContentType (metadata.writeLines .empty) codec,
    (status.render codec).2⟩

theorem tells_errorResponse
    (codec : Codec) (status : Status) (metadata : CallMetadata) :
    Tells codec status (errorResponse codec status metadata) := by
  unfold Tells errorResponse Status.render
  cases codec.encode (ErrorEnvelope.ofStatus status).toValue with
  | ok body => exact Or.inl ⟨body, rfl, rfl, rfl⟩
  | error fault => exact Or.inr ⟨fault, rfl, rfl, rfl⟩

/-- What a request is answered with in a state: its response message with HTTP status 200 if it is
forwarded, else the status of a cause. -/
def Answers (g : Gateway ω) (request : Request) (caller : Caller) (r : Run ω)
    (state : RequestState) (response : Response) : Prop :=
  (state = .forwarded ∧ response.status = 200) ∨
  (state ≠ .forwarded ∧ ∃ status,
    g.Cause request caller r state status ∧
    Tells (g.codecs.outbound request.headers) status response)

/-- An error response answers a request in the state of its cause. -/
theorem Cause.answers
    {caller : Caller} {r : Run ω} {state : RequestState} {status : Status}
    (h : g.Cause request caller r state status) (metadata : CallMetadata) :
    g.Answers request caller r state
      (errorResponse (g.codecs.outbound request.headers) status metadata) := by
  refine Or.inr ⟨?_, status, h, tells_errorResponse _ _ _⟩
  cases h <;> simp

/-- A caller that has not left gets a response in the state that the processing leads to. -/
theorem Course.respond_eq
    {caller : Caller} {r s : Run ω} {result : Except Exit Success}
    (h : g.Course request caller r result s)
    (hdeparted : result ≠ .error .departed) (hstalled : result ≠ .error .stalled) :
    ∃ response t,
      respond result (g.codecs.outbound request.headers) s =
        (some ⟨terminalState (g.codecs.outbound request.headers) result, some response⟩, t) ∧
      t.now = s.now ∧ t.cancelled = s.cancelled ∧
      g.Answers request caller r
        (terminalState (g.codecs.outbound request.headers) result) response := by
  cases h with
  | unrouted h => exact ⟨_, _, rfl, rfl, rfl, (Cause.unrouted h).answers _⟩
  | untimed h hstatus =>
      obtain ⟨raw, hraw, hbad, rfl⟩ := timeout_eq_error_iff.mp hstatus
      exact ⟨_, _, rfl, rfl, rfl, (Cause.untimed h hraw hbad).answers _⟩
  | undecoded h => exact ⟨_, _, rfl, rfl, rfl, (Cause.undecoded h).answers _⟩
  | departed => exact absurd rfl hdeparted
  | stalled => exact absurd rfl hstalled
  | expired h => exact ⟨_, _, rfl, rfl, rfl, (Cause.expired h).answers _⟩
  | refused h hreply => exact ⟨_, _, rfl, rfl, rfl, (Cause.refused h hreply).answers _⟩
  | unhooked h hreply hhooks =>
      exact ⟨_, _, rfl, rfl, rfl, (Cause.unhooked h hreply hhooks).answers _⟩
  | @answered _ _ reply _ _ _ _ h hreply hhooks =>
      simp only [respond, forward, terminalState]
      cases hbody : writeBody (g.codecs.outbound request.headers) reply with
      | ok body => exact ⟨_, _, rfl, rfl, rfl, Or.inl ⟨rfl, rfl⟩⟩
      | error reason =>
          exact ⟨_, _, rfl, rfl, rfl, (Cause.unwritten h hreply hhooks hbody).answers _⟩

/-!
## The outcome
-/

/-- The outcome of a request tells what happened to it: `s` is the run at its end. -/
structure Truthful (g : Gateway ω) (request : Request) (caller : Caller) (r : Run ω)
    (o : Outcome) (s : Run ω) : Prop where
  terminal : o.state.isTerminal = true
  silent_iff : o.response = none ↔ o.state = .cancelled
  cancelled_iff : o.state = .cancelled ↔ s.cancelled = true
  unmatched_iff : s.cancelled = false →
    (o.state = .unmatched ↔ g.Unrouted request)
  decodeFailed_iff : s.cancelled = false →
    (o.state = .decodeFailed ↔ ∃ fault, g.Undecodable request fault)
  forwarded_iff : s.cancelled = false →
    (o.state = .forwarded ↔ g.Served request caller r)
  errorWritten_iff : s.cancelled = false →
    (o.state = .errorWritten ↔
      ¬ g.Unrouted request ∧ ¬ (∃ fault, g.Undecodable request fault) ∧
        ¬ g.Served request caller r)
  answers : ∀ response, o.response = some response →
    g.Answers request caller r o.state response

/-- The call of a request waits for something that never comes: it has no deadline, and the token
of its caller never fires. -/
def Stalls (g : Gateway ω) (request : Request) (firing : Firing) (r : Run ω) : Prop :=
  firing = .never ∧
  ∃ c message s, c.deadline = none ∧
    g.CallEnds request (firing.caller r.now) r c message .stalled s

/-- A call that waits for ever is bounded by nothing. -/
theorem CallEnds.stalls
    {firing : Firing} {r s : Run ω} {c : Context} {message : Message}
    (h : g.CallEnds request (firing.caller r.now) r c message .stalled s) :
    g.Stalls request firing r := by
  obtain ⟨hleaves, hdeadline⟩ := Activity.unbounded_of_stalled h.run_eq
  refine ⟨?_, c, message, s, hdeadline, h⟩
  cases firing with
  | never => rfl
  | before => cases hleaves
  | after span => cases hleaves

theorem truthful_cancelled
    (g : Gateway ω) (request : Request) (caller : Caller) (r : Run ω) {s : Run ω}
    (h : s.cancelled = true) :
    g.Truthful request caller r ⟨.cancelled, none⟩ s where
  terminal := rfl
  silent_iff := by simp
  cancelled_iff := by simp [h]
  unmatched_iff := by simp [h]
  decodeFailed_iff := by simp [h]
  forwarded_iff := by simp [h]
  errorWritten_iff := by simp [h]
  answers := by simp

/-- A request that is not cancelled is answered in the state that its course calls for. -/
theorem Course.truthful
    {caller : Caller} {r s t : Run ω} {result : Except Exit Success} {response : Response}
    (h : g.Course request caller r result s)
    (hdeparted : result ≠ .error .departed) (hstalled : result ≠ .error .stalled)
    (hcancelled : t.cancelled = false)
    (hanswers : g.Answers request caller r
      (terminalState (g.codecs.outbound request.headers) result) response) :
    g.Truthful request caller r
      ⟨terminalState (g.codecs.outbound request.headers) result, some response⟩ t := by
  have hunmatched :=
    (terminalState_eq_unmatched_iff (g.codecs.outbound request.headers) result).trans
      h.eq_unmatched_iff
  have hdecode :=
    (terminalState_eq_decodeFailed_iff (g.codecs.outbound request.headers) result).trans
      h.eq_decodeFailed_iff
  have hforwarded :=
    (terminalState_eq_forwarded_iff (g.codecs.outbound request.headers) result).trans
      h.eq_answered_iff
  have hterminal :
      (terminalState (g.codecs.outbound request.headers) result).isTerminal = true ∧
      terminalState (g.codecs.outbound request.headers) result ≠ .cancelled := by
    cases result with
    | error exit => cases exit <;> simp_all [terminalState, RequestState.isTerminal]
    | ok answer =>
        simp only [terminalState]
        split <;> simp [RequestState.isTerminal]
  refine ⟨hterminal.1, by simp [hterminal.2], by simp [hterminal.2, hcancelled],
    fun _ => hunmatched, fun _ => hdecode, fun _ => hforwarded, fun _ => ?_, ?_⟩
  · -- four states are left, and the other three are excluded
    rw [← hunmatched, ← hdecode, ← hforwarded]
    revert hterminal
    cases terminalState (g.codecs.outbound request.headers) result <;>
      simp [RequestState.isTerminal]
  · rintro _ ⟨⟩
    exact hanswers

theorem Course.handle_of_stalled
    {caller : Caller} {r s : Run ω}
    (h : g.Course request caller r (.error .stalled) s) :
    g.handle request caller r = (none, s) := by
  have heq := h.process_eq
  unfold Run.received at heq
  simp only [handle, heq]

theorem Course.handle_eq
    {caller : Caller} {r s : Run ω} {result : Except Exit Success}
    (h : g.Course request caller r result s)
    (hstalled : result ≠ .error .stalled) :
    g.handle request caller r =
      if s.cancelled then (some ⟨.cancelled, none⟩, s.reach .cancelled)
      else respond result (g.codecs.outbound request.headers) s := by
  have heq := h.process_eq
  unfold Run.received at heq
  simp only [handle, heq]

/-- What is made of a call that has come back, unless its caller has cancelled. -/
theorem CallEnds.handle_of_finished
    {caller : Caller} {r s : Run ω} {c : Context} {message : Message} {d : Dispatched}
    (h : g.CallEnds request caller r c message (.finished d) s) :
    g.handle request caller r =
      if s.cancelled then (some ⟨.cancelled, none⟩, (g.conclude c d s).2.reach .cancelled)
      else respond (g.conclude c d s).1 (g.codecs.outbound request.headers)
        (g.conclude c d s).2 := by
  cases hreply : d.reply with
  | error status =>
      rw [(Course.refused h hreply).handle_eq (by simp)]
      simp only [conclude, hreply, Run.reach_cancelled]
      rfl
  | ok reply =>
      have hclock := runHooks_clock c reply g.hooks .empty (s.reach .dispatched)
      cases hhooks : runHooks c reply g.hooks .empty (s.reach .dispatched) with
      | mk result t =>
          rw [hhooks] at hclock
          have ht : t.cancelled = s.cancelled := hclock.2
          cases result with
          | error status =>
              rw [(Course.unhooked h hreply hhooks).handle_eq (by simp)]
              simp only [conclude, hreply, hhooks, ht]
          | ok headers =>
              rw [(Course.answered h hreply hhooks).handle_eq (by simp)]
              simp only [conclude, hreply, hhooks, Run.reach_cancelled, ht]

/-- **The outcome of a request.**  Unless its call waits for ever, a request ends in a terminal
state that tells what happened to it, and in one response or none. -/
theorem handle_truthful
    (g : Gateway ω) (request : Request) (firing : Firing) (r : Run ω) :
    let result := g.handle request (firing.caller r.now) r
    (result.1 = none ↔ g.Stalls request firing r) ∧
    Activity.Attests (firing.time? r.now) result.2.now result.2.cancelled ∧
    ∀ o, result.1 = some o → g.Truthful request (firing.caller r.now) r o result.2 := by
  have hcourse := course_process g request (firing.caller r.now) r
  generalize g.process request (g.codecs.inbound request.headers) (firing.caller r.now)
    (r.received (firing.caller r.now)) = processed at hcourse
  obtain ⟨result, s⟩ := processed
  have hattests := hcourse.attests
  -- a call that waits for ever, a token that has fired, and everything else
  by_cases hstalled : result = .error .stalled
  · subst hstalled
    simp only [hcourse.handle_of_stalled]
    cases hcourse with
    | stalled h => exact ⟨by simp [h.stalls], hattests, by simp⟩
  · have hnot : ¬ g.Stalls request firing r := by
      rintro ⟨-, c, message, t, -, hends⟩
      exact hstalled (hcourse.unique (.stalled hends)).1
    have heq := hcourse.handle_eq hstalled
    cases hcancelled : s.cancelled with
    | true =>
        rw [hcancelled, if_pos rfl] at heq
        rw [heq]
        refine ⟨by simp [hnot], hattests, ?_⟩
        rintro _ ⟨⟩
        exact truthful_cancelled g request _ r hcancelled
    | false =>
        have hdeparted : result ≠ .error .departed := by
          rintro rfl
          rw [hcourse.cancelled_of_departed] at hcancelled
          cases hcancelled
        obtain ⟨response, t, hrespond, hnow, hflag, hanswers⟩ :=
          hcourse.respond_eq hdeparted hstalled
        rw [hcancelled, if_neg Bool.false_ne_true, hrespond] at heq
        rw [heq]
        refine ⟨by simp [hnot], ?_, ?_⟩
        · rw [hnow, hflag]
          exact hattests
        · rintro _ ⟨⟩
          exact hcourse.truthful hdeparted hstalled (hflag.trans hcancelled) hanswers

/-- A gateway whose only codec writes nothing. -/
def mute : Gateway Unit :=
  { codecs := CodecTable.standard.register anyMediaType Rehearsal.brokenCodec }

/-- A gateway whose only method waits until it is cancelled. -/
def waiting : Gateway Unit :=
  { routes := [⟨⟨.get, [], none, "/"⟩, ⟨"/a.B/Wait", "GET /"⟩, .item⟩]
    dispatcher :=
      ⟨⟨[⟨⟨"/a.B/Wait", "GET /"⟩,
        .inProcess .item fun _ _ =>
          .wait none true fun _ => .done (.error Status.cancellation)⟩]⟩, []⟩ }

/-- A status whose envelope cannot be written is not told by the HTTP status of its code, and a
request whose call waits for ever has no outcome. -/
theorem unmatched_without_its_status :
    (∃ o response,
      (mute.handle ⟨"req", "GET", "/x", .empty, [], none⟩ .patient (Run.start 0 ())).1 = some o ∧
      o.state = .unmatched ∧ o.response = some response ∧
      response.status ≠ (Status.of .notFound "Not Found").code.httpStatus) ∧
    (waiting.handle ⟨"req", "GET", "/", .empty, [], none⟩ .patient (Run.start 0 ())).1 = none := by
  refine ⟨⟨_, _, rfl, rfl, rfl, by decide⟩, rfl⟩

end Gateway
end RpcGateway
