import RpcGateway.Proofs.Gateway.Agreement
import RpcGateway.Proofs.Metadata.Split
import RpcGateway.Proofs.Transport.Trailers

/-!
# The header lines of a response

Three writers have a hand in the header lines of a response: the hooks, the metadata of the call,
and the media type of the body.

**Sources.**  `MadeOf` has one constructor for each way in which a response comes to be, and says
which call metadata and which lines of the hooks it is made of: the hooks count only if the request
is forwarded, and the metadata wherever the call has come to an end.

**Lines.**  `Composed` says what the lines are, name by name.

**Result.**  `handle_composed`: the lines of every response are composed of what it is made of.
-/

namespace RpcGateway

variable {ω : Type}

/-!
## Sound metadata
-/

theorem CallMetadata.Sound.collapsed
    {m : CallMetadata}
    (h : m.Sound) :
    m.collapsed.Sound :=
  ⟨h.header.extend m.trailer, Metadata.sound_empty⟩

namespace Run

theorem outgoing_woken
    (r : Run ω) (bounds : Bounds) (time : Nat) (wake : Wake) :
    (r.woken bounds time wake).outgoing = r.outgoing := by
  cases wake with
  | cancelled =>
      simp only [woken, tell]
      split <;> rfl
  | _ => rfl

end Run

/-- The metadata of a call stays sound while it runs. -/
theorem Activity.sound_run
    {α : Type} {r : Run ω}
    (h : r.outgoing.Sound) (bounds : Bounds) (a : Activity ω α) :
    (a.run bounds r).2.outgoing.Sound := by
  induction a generalizing r with
  | done value => exact h
  | wait span heeds next ih =>
      cases hnext : Wake.next? bounds r.now span heeds with
      | none =>
          rw [run, hnext]
          exact h
      | some due =>
          obtain ⟨t, wake⟩ := due
          have hwoken : (r.woken bounds t wake).outgoing.Sound := by
            rw [Run.outgoing_woken]
            exact h
          rw [run_wait hnext]
          cases wake with
          | cancelled => exact ih true hwoken
          | lapsed => exact ih false hwoken
          | departed => exact hwoken
          | expired => exact hwoken
  | clock next ih => exact ih _ h
  | record added next ih => exact ih (h.merge added)
  | take next ih => exact ih _ CallMetadata.sound_empty
  | act change next ih => exact ih _ h
  | watch change next ih => exact ih h
  | note mark next ih => exact ih h

namespace Dispatcher

variable {d : Dispatcher ω} {c : Context} {request : Message} {bounds : Bounds} {r s : Run ω}

theorem sound_shape
    {m : CallMetadata}
    (h : m.Sound) (d : Dispatcher ω) (fullMethod : String) :
    (d.shape fullMethod m).Sound := by
  unfold shape
  cases d.registry.find? fullMethod with
  | none => exact h.collapsed
  | some entry =>
      simp only
      cases entry.invoker.mode with
      | inProcess => exact h.collapsed
      | remote => exact h

/-- A call hands over sound metadata. -/
theorem sound_dispatch
    {made : Dispatched}
    (h : r.outgoing.Sound) (hrun : (d.dispatch c request).run bounds r = (.finished made, s)) :
    made.metadata.Sound := by
  unfold dispatch at hrun
  cases hfind : d.registry.find? c.method.fullMethod with
  | none =>
      rw [hfind] at hrun
      cases hrun
      exact h
  | some entry =>
      rw [hfind] at hrun
      simp only [Activity.run_bind] at hrun
      have hchain := Activity.sound_run h bounds
        (Interceptor.chain c
          (fun m => .note (.invoked c.method.fullMethod) (entry.invoker.invoke c m))
          d.interceptors request)
      generalize (Interceptor.chain c
        (fun m => .note (.invoked c.method.fullMethod) (entry.invoker.invoke c m))
        d.interceptors request).run bounds r = ran at hchain hrun
      obtain ⟨ending, t⟩ := ran
      cases ending with
      | finished reply =>
          rw [Activity.proceed, outgoing_bind_run] at hrun
          cases hrun
          exact sound_shape hchain d c.method.fullMethod
      | departed => cases hrun
      | expired => cases hrun
      | stalled => cases hrun

end Dispatcher

/-!
## Lines
-/

namespace CallMetadata

/-- The values of the trailer key that a name stands for. -/
def markedValues (m : CallMetadata) (name : String) : List String :=
  match trailerKey? name with
  | some k => m.trailer.getAll k
  | none => []

/-- A name of header lines has the lines that were there, then the legal values of the header key of
that name, then those of the trailer key that the name stands for. -/
theorem Sound.getAll_writeLines
    {m : CallMetadata} {name : String}
    (hm : m.Sound) (hname : headerName? name = some name) (h : HeaderMap) :
    (m.writeLines h).getAll name =
      h.getAll name ++ (m.header.getAll name).filterMap HeaderValue.ofText? ++
        (m.markedValues name).filterMap HeaderValue.ofText? := by
  unfold markedValues
  cases hkey : trailerKey? name with
  | none =>
      rw [getAll_writeLines_plain hm.header hname (trailerKey?_eq_none_iff.mp hkey)]
      simp
  | some k =>
      obtain rfl := trailerKey?_eq_some_iff.mp hkey
      exact getAll_writeLines_marked hm.header hm.trailer hname h

/-- What is not a name of header lines gets no lines. -/
theorem getAll_writeLines_of_no_name
    {m : CallMetadata} {name : String}
    (hname : headerName? name ≠ some name) (h : HeaderMap) :
    (m.writeLines h).getAll name = h.getAll name := by
  have hnone : ∀ line ∈ m.lines, line.1 ≠ name := by
    rintro line hline rfl
    rcases List.mem_append.mp hline with hline | hline
    · obtain ⟨p, -, hp⟩ := List.mem_filterMap.mp hline
      exact hname (Metadata.legal_of_line? hp).1
    · obtain ⟨p, -, hp⟩ := List.mem_filterMap.mp hline
      exact hname (Metadata.legal_of_line? hp).1
  rw [getAll_writeLines, Keyed.valuesIn_eq_nil hnone, List.append_nil]

end CallMetadata

namespace Gateway

/-- The header lines of a response, by the lines of the hooks, the metadata of the call and the
codec of the body. -/
structure Composed (headers hooked : HeaderMap) (m : CallMetadata) (codec : Codec) : Prop where
  /-- The lines of a name, one line for each value, in order. -/
  lines : ∀ name, headerName? name = some name → name ≠ "content-type" →
    headers.getAll name =
      hooked.getAll name ++ (m.header.getAll name).filterMap HeaderValue.ofText? ++
        (m.markedValues name).filterMap HeaderValue.ofText?
  /-- Metadata makes no lines with names that are none. -/
  strange : ∀ name, headerName? name ≠ some name → headers.getAll name = hooked.getAll name
  mediaType : ∀ value, HeaderValue.ofText? codec.contentType = some value →
    headers.getAll "content-type" = [value]
  legal : hooked.Legal → headers.Legal

theorem composed_setContentType
    {m : CallMetadata}
    (hm : m.Sound) (hooked : HeaderMap) (codec : Codec) :
    Composed (setContentType (m.writeLines hooked) codec) hooked m codec := by
  have hmedia : headerName? "content-type" = some "content-type" := by decide
  refine ⟨fun name hname hne => ?_, fun name hname => ?_, fun value hvalue => ?_, fun hl => ?_⟩
  · rw [getAll_setContentType _ _ hne, hm.getAll_writeLines hname]
  · have hne : name ≠ "content-type" := fun heq => hname (heq ▸ hmedia)
    rw [getAll_setContentType _ _ hne, CallMetadata.getAll_writeLines_of_no_name hname]
  · rw [setContentType, hvalue]
    exact (HeaderMap.getAll_insert ..).trans (if_pos rfl)
  · unfold setContentType
    split
    case h_1 value hvalue =>
      exact (m.legal_writeLines hl).insert hmedia (HeaderValue.isLegal_of_ofText? hvalue)
    case h_2 => exact m.legal_writeLines hl

/-!
## Sources
-/

/-- What the response to a request is made of: its state, the metadata of the call, and the lines
of the hooks. -/
inductive MadeOf (g : Gateway ω) (request : Request) (caller : Caller) (r : Run ω) :
    RequestState → CallMetadata → HeaderMap → Prop
  | unrouted
      (h : g.Unrouted request) :
      MadeOf g request caller r .unmatched .empty .empty
  | undecoded {fault : CodecFault}
      (h : g.Undecodable request fault) :
      MadeOf g request caller r .decodeFailed .empty .empty
  | untimed {route : Route} {params : PathParams} {status : Status}
      (h : g.LeadsTo request route params)
      (hstatus : g.timeout request.headers = .error status) :
      MadeOf g request caller r .errorWritten .empty .empty
  | expired {c : Context} {message : Message} {s : Run ω}
      (h : g.CallEnds request caller r c message .expired s) :
      MadeOf g request caller r .errorWritten
        (g.dispatcher.shape c.method.fullMethod s.outgoing) .empty
  | refused {c : Context} {message : Message} {d : Dispatched} {s : Run ω} {status : Status}
      (h : g.CallEnds request caller r c message (.finished d) s)
      (hreply : d.reply = .error status) :
      MadeOf g request caller r .errorWritten d.metadata .empty
  | unhooked {c : Context} {message reply : Message} {d : Dispatched} {s t : Run ω}
      {status : Status}
      (h : g.CallEnds request caller r c message (.finished d) s)
      (hreply : d.reply = .ok reply)
      (hhooks : runHooks c reply g.hooks .empty (s.reach .dispatched) = (.error status, t)) :
      MadeOf g request caller r .errorWritten d.metadata .empty
  | unwritten {c : Context} {message reply : Message} {d : Dispatched} {s t : Run ω}
      {headers : HeaderMap} {reason : String}
      (h : g.CallEnds request caller r c message (.finished d) s)
      (hreply : d.reply = .ok reply)
      (hhooks : runHooks c reply g.hooks .empty (s.reach .dispatched) = (.ok headers, t))
      (hbody : writeBody (g.codecs.outbound request.headers) reply = .error reason) :
      MadeOf g request caller r .errorWritten d.metadata .empty
  | forwarded {c : Context} {message reply : Message} {d : Dispatched} {s t : Run ω}
      {headers : HeaderMap} {body : List UInt8}
      (h : g.CallEnds request caller r c message (.finished d) s)
      (hreply : d.reply = .ok reply)
      (hhooks : runHooks c reply g.hooks .empty (s.reach .dispatched) = (.ok headers, t))
      (hbody : writeBody (g.codecs.outbound request.headers) reply = .ok body) :
      MadeOf g request caller r .forwarded d.metadata headers

variable {g : Gateway ω} {request : Request} {caller : Caller} {r s : Run ω}

/-- A call hands over sound metadata, when it comes back and when its deadline passes. -/
theorem MadeOf.sound
    {state : RequestState} {m : CallMetadata} {hooked : HeaderMap}
    (h : g.MadeOf request caller r state m hooked) (hsound : r.outgoing.Sound) :
    m.Sound := by
  cases h with
  | unrouted => exact CallMetadata.sound_empty
  | undecoded => exact CallMetadata.sound_empty
  | untimed => exact CallMetadata.sound_empty
  | @expired c message s h =>
      have hrun := Activity.sound_run (r := r.calling caller) hsound (caller.bounds c.deadline)
        (g.dispatcher.dispatch c message)
      rw [h.run_eq] at hrun
      exact Dispatcher.sound_shape hrun g.dispatcher c.method.fullMethod
  | refused h => exact Dispatcher.sound_dispatch (r := r.calling caller) hsound h.run_eq
  | unhooked h => exact Dispatcher.sound_dispatch (r := r.calling caller) hsound h.run_eq
  | unwritten h => exact Dispatcher.sound_dispatch (r := r.calling caller) hsound h.run_eq
  | forwarded h => exact Dispatcher.sound_dispatch (r := r.calling caller) hsound h.run_eq

theorem headers_of_errorResponse
    {o : Outcome} {response : Response} {state : RequestState} {status : Status}
    {m : CallMetadata} {codec : Codec}
    (ho : some ⟨state, some (errorResponse codec status m)⟩ = some o)
    (hresponse : o.response = some response) :
    o.state = state ∧ response.headers = setContentType (m.writeLines .empty) codec := by
  obtain rfl := Option.some.inj ho
  obtain rfl := Option.some.inj hresponse
  exact ⟨rfl, rfl⟩

/-- A response is written from what it is made of. -/
theorem Course.madeOf
    {result : Except Exit Success} {o : Outcome} {response : Response}
    (h : g.Course request caller r result s)
    (ho : (respond result (g.codecs.outbound request.headers) s).1 = some o)
    (hresponse : o.response = some response) :
    ∃ m hooked, g.MadeOf request caller r o.state m hooked ∧
      response.headers =
        setContentType (m.writeLines hooked) (g.codecs.outbound request.headers) := by
  cases h with
  | unrouted h =>
      obtain ⟨hstate, hheaders⟩ := headers_of_errorResponse ho hresponse
      exact ⟨_, _, hstate ▸ .unrouted h, hheaders⟩
  | untimed h hstatus =>
      obtain ⟨hstate, hheaders⟩ := headers_of_errorResponse ho hresponse
      exact ⟨_, _, hstate ▸ .untimed h hstatus, hheaders⟩
  | undecoded h =>
      obtain ⟨hstate, hheaders⟩ := headers_of_errorResponse ho hresponse
      exact ⟨_, _, hstate ▸ .undecoded h, hheaders⟩
  | departed =>
      cases ho
      cases hresponse
  | stalled => cases ho
  | expired h =>
      obtain ⟨hstate, hheaders⟩ := headers_of_errorResponse ho hresponse
      exact ⟨_, _, hstate ▸ .expired h, hheaders⟩
  | refused h hreply =>
      obtain ⟨hstate, hheaders⟩ := headers_of_errorResponse ho hresponse
      exact ⟨_, _, hstate ▸ .refused h hreply, hheaders⟩
  | unhooked h hreply hhooks =>
      obtain ⟨hstate, hheaders⟩ := headers_of_errorResponse ho hresponse
      exact ⟨_, _, hstate ▸ .unhooked h hreply hhooks, hheaders⟩
  | @answered _ _ reply _ _ _ _ h hreply hhooks =>
      simp only [respond, forward] at ho
      cases hbody : writeBody (g.codecs.outbound request.headers) reply with
      | error reason =>
          rw [hbody] at ho
          obtain ⟨hstate, hheaders⟩ := headers_of_errorResponse ho hresponse
          exact ⟨_, _, hstate ▸ .unwritten h hreply hhooks hbody, hheaders⟩
      | ok body =>
          rw [hbody] at ho
          obtain rfl := Option.some.inj ho
          obtain rfl := Option.some.inj hresponse
          exact ⟨_, _, .forwarded h hreply hhooks hbody, rfl⟩

/-- **The lines of a response.**  Whatever became of a request that got a response, the header lines
are composed of what the response is made of. -/
theorem handle_composed
    {o : Outcome} {response : Response}
    (hsound : r.outgoing.Sound)
    (ho : (g.handle request caller r).1 = some o)
    (hresponse : o.response = some response) :
    ∃ m hooked,
      g.MadeOf request caller r o.state m hooked ∧
      Composed response.headers hooked m (g.codecs.outbound request.headers) := by
  have hcourse := course_process g request caller r
  generalize g.process request (g.codecs.inbound request.headers) caller (r.received caller) =
    processed at hcourse
  obtain ⟨result, s⟩ := processed
  by_cases hstalled : result = .error .stalled
  · subst hstalled
    rw [hcourse.handle_of_stalled] at ho
    cases ho
  · rw [hcourse.handle_eq hstalled] at ho
    split at ho
    · cases ho
      cases hresponse
    · obtain ⟨m, hooked, hmade, hheaders⟩ := hcourse.madeOf ho hresponse
      refine ⟨m, hooked, hmade, ?_⟩
      rw [hheaders]
      exact composed_setContentType (hmade.sound hsound) hooked _

/-- A gateway with one method, whose peer sends header and trailer metadata, and one hook, which
adds a line of the same name. -/
def signposting : Gateway Unit where
  routes := [⟨⟨.get, [], none, "/"⟩, ⟨"/a.B/C", "GET /"⟩, .fetchRequest⟩]
  dispatcher :=
    ⟨⟨[⟨⟨"/a.B/C", "GET /"⟩,
      .remote (fun _ => .done ⟨.ok [],
        ⟨.ofList [("x-a", "1"), ("bad key", "2"), ("X-A", "3")], .ofList [("x-t", "4")]⟩⟩)
        .fetchResponse⟩]⟩, []⟩
  hooks := [⟨"label", fun _ _ headers world => (.ok (headers.append "x-a" [48]), world)⟩]

theorem handle_composed_signposting :
    ∃ o response m hooked,
      (signposting.handle ⟨"req", "GET", "/", .empty, [], none⟩ .patient (Run.start 0 ())).1 =
        some o ∧
      o.response = some response ∧
      o.state = .forwarded ∧
      response.headers.getAll "x-a" = [[48], [49], [51]] ∧
      response.headers.getAll (trailerMark ++ "x-t") = [[52]] ∧
      signposting.MadeOf ⟨"req", "GET", "/", .empty, [], none⟩ .patient (Run.start 0 ()) o.state m
        hooked ∧
      Composed response.headers hooked m (signposting.codecs.outbound .empty) := by
  obtain ⟨m, hooked, hmade, hcomposed⟩ :=
    @handle_composed Unit signposting ⟨"req", "GET", "/", .empty, [], none⟩ .patient
      (Run.start 0 ()) _ _ CallMetadata.sound_empty rfl rfl
  exact ⟨_, _, m, hooked, rfl, rfl, rfl, by decide, by decide, hmade, hcomposed⟩

end Gateway
end RpcGateway
