import RpcGateway.Proofs.Gateway.Outcome

/-!
# Failures and HTTP status

A request that is not forwarded is answered with an HTTP error status.  There is one way around
this: a code has an HTTP status, and that of `ok` is 200, whoever fails with it.

**Refusals.**  `Refused` holds of the statuses that the gateway passes on from others: what the call
was refused with, by an interceptor, a handler or a channel, and what a hook failed with.  Every
other status is the gateway's own, and its code is not `ok`.

**Results.**  `success_status_iff`: a response has an HTTP status of success if and only if its
request is forwarded or `Excused`, that is, refused with the code `ok` in a codec that can write the
envelope; every response but these has an HTTP status of at least 400.
-/

namespace RpcGateway

theorem Code.error_httpStatus
    {code : Code}
    (h : code ≠ .ok) :
    400 ≤ code.httpStatus := by
  cases code <;> first | exact absurd rfl h | decide

namespace Gateway

variable {ω : Type}

/-- The call of a request, or a hook after it, fails with a status. -/
inductive Refused (g : Gateway ω) (request : Request) (caller : Caller) (r : Run ω) :
    Status → Prop
  | byCall {c : Context} {message : Message} {d : Dispatched} {s : Run ω} {status : Status}
      (h : g.CallEnds request caller r c message (.finished d) s)
      (hreply : d.reply = .error status) :
      Refused g request caller r status
  | byHook {c : Context} {message reply : Message} {d : Dispatched} {s t : Run ω}
      {status : Status}
      (h : g.CallEnds request caller r c message (.finished d) s)
      (hreply : d.reply = .ok reply)
      (hhooks : runHooks c reply g.hooks .empty (s.reach .dispatched) = (.error status, t)) :
      Refused g request caller r status

/-- A request is refused with a status of the code `ok`, and its envelope can be written. -/
def Excused (g : Gateway ω) (request : Request) (caller : Caller) (r : Run ω) : Prop :=
  ∃ status body,
    g.Refused request caller r status ∧
    status.code = .ok ∧
    (g.codecs.outbound request.headers).encode (ErrorEnvelope.ofStatus status).toValue = .ok body

variable {g : Gateway ω} {request : Request} {caller : Caller} {r : Run ω}

/-- The processing of a refused request fails with the status of the refusal. -/
theorem Refused.course
    {status : Status}
    (h : g.Refused request caller r status) :
    ∃ metadata s, g.Course request caller r (.error (.failed status metadata)) s := by
  cases h with
  | byCall h hreply => exact ⟨_, _, .refused h hreply⟩
  | byHook h hreply hhooks => exact ⟨_, _, .unhooked h hreply hhooks⟩

/-- A status that the gateway does not pass on from others has an error code. -/
theorem Cause.code_ne_ok_or_refused
    {state : RequestState} {status : Status}
    (h : g.Cause request caller r state status) :
    status.code ≠ .ok ∨ g.Refused request caller r status := by
  cases h with
  | unrouted => exact Or.inl (by decide)
  | undecoded => exact Or.inl (by simp [Status.of])
  | untimed => exact Or.inl (by simp [Status.of])
  | expired => exact Or.inl (by decide)
  | refused h hreply => exact Or.inr (.byCall h hreply)
  | unhooked h hreply hhooks => exact Or.inr (.byHook h hreply hhooks)
  | unwritten => exact Or.inl (by simp [Status.of])

/-- A response that tells a status has an error status itself, unless the code is `ok`. -/
theorem Tells.error_status_or
    {codec : Codec} {status : Status} {response : Response}
    (h : Tells codec status response) :
    400 ≤ response.status ∨
      (status.code = .ok ∧
        ∃ body, codec.encode (ErrorEnvelope.ofStatus status).toValue = .ok body) := by
  rcases h with ⟨body, hbody, hstatus, -⟩ | ⟨fault, -, hstatus, -⟩
  · by_cases hcode : status.code = .ok
    · exact Or.inr ⟨hcode, body, hbody⟩
    · left
      rw [hstatus]
      exact Code.error_httpStatus hcode
  · left
    omega

/-- Every response answers its request, however the caller behaves. -/
theorem answers_of_handle
    {o : Outcome} {response : Response}
    (ho : (g.handle request caller r).1 = some o)
    (hresponse : o.response = some response) :
    g.Answers request caller r o.state response := by
  have hcourse := course_process g request caller r
  generalize g.process request (g.codecs.inbound request.headers) caller (r.received caller) =
    processed at hcourse
  obtain ⟨result, s⟩ := processed
  by_cases hstalled : result = .error .stalled
  · subst hstalled
    rw [hcourse.handle_of_stalled] at ho
    cases ho
  · rw [hcourse.handle_eq hstalled] at ho
    split at ho
    · cases ho
      cases hresponse
    · by_cases hdeparted : result = .error .departed
      · subst hdeparted
        cases ho
        cases hresponse
      · obtain ⟨written, t, hrespond, -, -, hanswers⟩ := hcourse.respond_eq hdeparted hstalled
        rw [hrespond] at ho
        cases ho
        cases hresponse
        exact hanswers

/-- An excused request is answered with HTTP status 200 although it failed. -/
theorem Excused.status_eq
    {o : Outcome} {response : Response}
    (h : g.Excused request caller r)
    (ho : (g.handle request caller r).1 = some o)
    (hresponse : o.response = some response) :
    o.state = .errorWritten ∧ response.status = 200 := by
  obtain ⟨status, body, hrefused, hcode, hbody⟩ := h
  obtain ⟨metadata, s, hcourse⟩ := hrefused.course
  rw [hcourse.handle_eq (by simp)] at ho
  split at ho
  · cases ho
    cases hresponse
  · have hrender : (status.render (g.codecs.outbound request.headers)).1 = 200 := by
      simp [Status.render, hbody, hcode, Code.httpStatus]
    cases ho
    cases hresponse
    exact ⟨rfl, hrender⟩

/-- **Failures are not told as successes.**  A response has an HTTP status of success if and only if
its request is forwarded or excused, and one of at least 400 otherwise. -/
theorem success_status_iff
    {o : Outcome} {response : Response}
    (ho : (g.handle request caller r).1 = some o)
    (hresponse : o.response = some response) :
    (o.state ≠ .forwarded → ¬ g.Excused request caller r → 400 ≤ response.status) ∧
    (200 ≤ response.status ∧ response.status < 300 ↔
      o.state = .forwarded ∨ g.Excused request caller r) ∧
    (o.state = .forwarded ∨ g.Excused request caller r → response.status = 200) := by
  have hanswers := answers_of_handle ho hresponse
  have herror : o.state ≠ .forwarded → ¬ g.Excused request caller r → 400 ≤ response.status := by
    intro hstate hnot
    rcases hanswers with ⟨hforwarded, -⟩ | ⟨-, status, hcause, htells⟩
    · exact absurd hforwarded hstate
    rcases htells.error_status_or with hle | ⟨hcode, body, hbody⟩
    · exact hle
    rcases hcause.code_ne_ok_or_refused with hne | hrefused
    · exact absurd hcode hne
    · exact absurd ⟨status, body, hrefused, hcode, hbody⟩ hnot
  have hsuccess : o.state = .forwarded ∨ g.Excused request caller r → response.status = 200 := by
    rintro (hstate | hexcused)
    · rcases hanswers with ⟨-, hstatus⟩ | ⟨hne, -⟩
      · exact hstatus
      · exact absurd hstate hne
    · exact (hexcused.status_eq ho hresponse).2
  -- the two bounds leave no response between 300 and 400
  refine ⟨herror, ⟨?_, ?_⟩, hsuccess⟩
  · rintro ⟨-, hlt⟩
    by_cases hstate : o.state = .forwarded
    · exact Or.inl hstate
    by_cases hexcused : g.Excused request caller r
    · exact Or.inr hexcused
    · have hle := herror hstate hexcused
      omega
  · intro h
    have hstatus := hsuccess h
    omega

/-- A gateway whose only method is refused with a code. -/
def refusing (code : Code) : Gateway Unit :=
  { routes := [⟨⟨.get, [], none, "/"⟩, ⟨"/a.B/Refuse", "GET /"⟩, .item⟩]
    dispatcher :=
      ⟨⟨[⟨⟨"/a.B/Refuse", "GET /"⟩,
        .inProcess .item fun _ _ => .done (.error (Status.of code "refused"))⟩]⟩, []⟩ }

/-- A request to the only method of `refusing`. -/
def refusedRequest : Request :=
  ⟨"req", "GET", "/", .empty, [], none⟩

theorem success_status_iff_notFound :
    ∃ o response,
      ((refusing .notFound).handle refusedRequest .patient (Run.start 0 ())).1 = some o ∧
      o.response = some response ∧ response.status = 404 ∧
      (200 ≤ response.status ∧ response.status < 300 ↔
        o.state = .forwarded ∨
          (refusing .notFound).Excused refusedRequest .patient (Run.start 0 ())) := by
  refine ⟨_, _, rfl, rfl, rfl, ?_⟩
  exact (success_status_iff rfl rfl).2.1

/-- A call that is refused with the code `ok` has an error written with HTTP status 200. -/
theorem refused_with_success :
    ∃ o response,
      ((refusing .ok).handle refusedRequest .patient (Run.start 0 ())).1 = some o ∧
      o.state = .errorWritten ∧ o.response = some response ∧ response.status = 200 :=
  ⟨_, _, rfl, rfl, rfl, rfl⟩

end Gateway
end RpcGateway
