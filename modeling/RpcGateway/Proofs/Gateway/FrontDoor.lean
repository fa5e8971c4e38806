import RpcGateway.Gateway.Server
import RpcGateway.Proofs.Gateway.Cancellation
import RpcGateway.Proofs.Gateway.Failure
import RpcGateway.Proofs.Gateway.ResponseLines
import RpcGateway.Proofs.Http.Uri

/-!
# The front door and the gateway behind it

The front door is a layer of its own: it has a path that it answers itself, a limit for bodies, and
an error envelope that it writes without asking the gateway.

**Serving.**  Off the path of the probe there are four ways in which a request is served: it is
refused for its size, it is answered, its caller leaves first, or the gateway waits for ever.  There
is one equation for each (`serve_of_oversized` and those behind it).

**Reaching a route.**  That the gateway matches a request is read off the journal of the run, which
only grows (`Activity.journal_run`).

**Results.**
* `refines_gateway_iff`: apart from the liveness probe itself, the front door adds a limit for bodies
  to the gateway and nothing else if and only if the path is not that of the probe; a route of the
  gateway with that path is never reached;
* `error_negotiated_iff`: an error is written in the codec that the caller asked for, unless the
  body of the request is too large and that codec does not write as compact JSON does.
-/

namespace RpcGateway

variable {ω : Type}

/-- The journal of a run only grows. -/
theorem Activity.journal_run
    {α : Type} (bounds : Bounds) (a : Activity ω α) (r : Run ω) :
    r.journal <+: (a.run bounds r).2.journal := by
  induction a generalizing r with
  | done value => exact List.prefix_rfl
  | wait span heeds next ih =>
      cases hnext : Wake.next? bounds r.now span heeds with
      | none =>
          have hstays : (wait span heeds next).run bounds r = (.stalled, r) := by
            rw [run, hnext]
          exact hstays ▸ List.prefix_rfl
      | some due =>
          obtain ⟨t, wake⟩ := due
          rw [run_wait hnext]
          cases wake with
          | cancelled => exact r.tell_journal t ▸ ih true (r.tell t)
          | lapsed => exact ih false { r with now := t }
          | departed => exact List.prefix_rfl
          | expired => exact List.prefix_rfl
  | clock next ih => exact ih _ r
  | record added next ih => exact ih { r with outgoing := r.outgoing.merge added }
  | take next ih => exact ih r.outgoing { r with outgoing := .empty }
  | act change next ih => exact ih (change r.world) { r with world := change r.world }
  | watch change next ih => exact ih { r with watchers := r.watchers ++ [change] }
  | note mark next ih => exact (r.continues_mark mark).journal.trans (ih _)

namespace Gateway

variable {g : Gateway ω} {request : Request} {caller : Caller} {r s t : Run ω}

/-!
## Matched requests
-/

/-- The entries of a request that has been matched. -/
def matchedEntries : Journal :=
  [.reached .received, .reached .matched]

theorem CallEnds.after_matched
    {c : Context} {message : Message} {ending : Ending Dispatched}
    (h : g.CallEnds request caller r c message ending s) :
    r.journal ++ matchedEntries <+: s.journal := by
  have hgrows := Activity.journal_run (caller.bounds c.deadline) (g.dispatcher.dispatch c message)
    (r.calling caller)
  rw [h.run_eq] at hgrows
  have hcalling :
      (r.calling caller).journal = r.journal ++ matchedEntries ++ [.reached .decoded] := by
    simp [Run.calling, Run.received, Run.reach, Run.mark, matchedEntries]
  rw [hcalling] at hgrows
  exact (List.prefix_append _ _).trans hgrows

/-- A request that leads to a route is matched, whatever becomes of it. -/
theorem Course.after_matched
    {result : Except Exit Success} {route : Route} {params : PathParams}
    (h : g.Course request caller r result s) (hlead : g.LeadsTo request route params) :
    r.journal ++ matchedEntries <+: s.journal := by
  have hmatched :
      ((r.received caller).reach .matched).journal = r.journal ++ matchedEntries := by
    simp [Run.received, Run.reach, Run.mark, matchedEntries]
  cases h with
  | unrouted hun =>
      have hnone := resolve_eq_none_iff.mpr hun
      rw [resolve_eq_some_iff.mpr hlead] at hnone
      cases hnone
  | untimed => exact hmatched ▸ List.prefix_rfl
  | undecoded => exact hmatched ▸ List.prefix_rfl
  | departed h => exact h.after_matched
  | stalled h => exact h.after_matched
  | expired h => exact h.after_matched
  | @refused _ _ _ t _ h =>
      have hreach := Run.continues_mark (t.reach .dispatched) (.reached .failed)
      exact h.after_matched.trans ((t.continues_mark _).trans hreach).journal
  | @unhooked c _ reply _ t _ _ h _ hhooks =>
      have hrun := continues_runHooks c reply g.hooks .empty (t.reach .dispatched)
      rw [hhooks] at hrun
      exact h.after_matched.trans ((t.continues_mark _).trans hrun).journal
  | @answered c _ reply _ t _ _ h _ hhooks =>
      have hrun := continues_runHooks c reply g.hooks .empty (t.reach .dispatched)
      rw [hhooks] at hrun
      have hsucceeded := hrun.trans (Run.continues_mark _ (.reached .succeeded))
      exact h.after_matched.trans ((t.continues_mark _).trans hsucceeded).journal

theorem journal_respond
    (result : Except Exit Success) (codec : Codec) (r : Run ω) :
    r.journal <+: (respond result codec r).2.journal := by
  have hreach (state : RequestState) : r.Continues (r.reach state) := r.continues_mark _
  cases result with
  | ok answer =>
      simp only [respond, forward]
      cases writeBody codec answer.message with
      | error reason => exact (hreach _).journal
      | ok body => exact (hreach _).journal
  | error exit =>
      cases exit with
      | unmatched => exact ((hreach _).trans (Run.continues_mark _ _)).journal
      | decodeFailed status => exact ((hreach _).trans (Run.continues_mark _ _)).journal
      | failed status metadata => exact (hreach _).journal
      | departed => exact List.prefix_rfl
      | stalled => exact List.prefix_rfl

theorem handle_matches
    {route : Route} {params : PathParams}
    (h : g.LeadsTo request route params) (caller : Caller) (r : Run ω) :
    r.journal ++ matchedEntries <+: (g.handle request caller r).2.journal := by
  have hcourse := course_process g request caller r
  generalize g.process request (g.codecs.inbound request.headers) caller (r.received caller) =
    processed at hcourse
  obtain ⟨result, s⟩ := processed
  have hmatched := hcourse.after_matched h
  by_cases hstalled : result = .error .stalled
  · subst hstalled
    rw [hcourse.handle_of_stalled]
    exact hmatched
  · rw [hcourse.handle_eq hstalled]
    split
    · exact hmatched.trans (s.continues_mark _).journal
    · exact hmatched.trans (journal_respond _ _ _)

/-!
## Outcomes with a response
-/

/-- A request that is not cancelled is answered as its course calls for. -/
theorem exists_course_of_handle
    {o : Outcome}
    (ho : (g.handle request caller r).1 = some o) (hstate : o.state ≠ .cancelled) :
    ∃ result s,
      g.Course request caller r result s ∧
      result ≠ .error .departed ∧ result ≠ .error .stalled ∧
      (respond result (g.codecs.outbound request.headers) s).1 = some o := by
  have hcourse := course_process g request caller r
  generalize g.process request (g.codecs.inbound request.headers) caller (r.received caller) =
    processed at hcourse
  obtain ⟨result, s⟩ := processed
  have hstalled : result ≠ .error .stalled := by
    rintro rfl
    rw [hcourse.handle_of_stalled] at ho
    cases ho
  rw [hcourse.handle_eq hstalled] at ho
  split at ho
  · cases ho
    exact absurd rfl hstate
  · refine ⟨result, s, hcourse, ?_, hstalled, ho⟩
    rintro rfl
    cases ho
    exact hstate rfl

theorem exists_response_of_handle
    {o : Outcome}
    (ho : (g.handle request caller r).1 = some o) (hstate : o.state ≠ .cancelled) :
    ∃ response, o.response = some response := by
  obtain ⟨result, s, hcourse, hdeparted, hstalled, hrespond⟩ := exists_course_of_handle ho hstate
  obtain ⟨response, t, heq, -⟩ := hcourse.respond_eq hdeparted hstalled
  rw [heq] at hrespond
  cases hrespond
  exact ⟨response, rfl⟩

/-- Every response names the media type of the codec that the caller asked for. -/
theorem getAll_contentType_of_handle
    {o : Outcome} {response : Response} {value : HeaderValue}
    (ho : (g.handle request caller r).1 = some o) (hstate : o.state ≠ .cancelled)
    (hresponse : o.response = some response)
    (hvalue : HeaderValue.ofText? (g.codecs.outbound request.headers).contentType = some value) :
    response.headers.getAll "content-type" = [value] := by
  obtain ⟨result, s, hcourse, -, -, hrespond⟩ := exists_course_of_handle ho hstate
  obtain ⟨m, hooked, -, hheaders⟩ := hcourse.madeOf hrespond hresponse
  rw [hheaders, setContentType, hvalue]
  exact (HeaderMap.getAll_insert ..).trans (if_pos rfl)

theorem terminalState_ne_cancelled
    (codec : Codec) {result : Except Exit Success}
    (hdeparted : result ≠ .error .departed) (hstalled : result ≠ .error .stalled) :
    terminalState codec result ≠ .cancelled := by
  cases result with
  | error exit => cases exit <;> simp_all [terminalState]
  | ok answer =>
      simp only [terminalState]
      split <;> simp

/-- A request whose caller waits is not cancelled. -/
theorem state_ne_cancelled_of_patient
    {o : Outcome}
    (ho : (g.handle request .patient r).1 = some o) :
    o.state ≠ .cancelled := by
  have hcourse := course_process g request .patient r
  generalize g.process request (g.codecs.inbound request.headers) .patient
    (r.received .patient) = processed at hcourse
  obtain ⟨result, s⟩ := processed
  -- a caller who waits holds a token that never fires
  have hnever : g.Course request (Firing.never.caller r.now) r result s := hcourse
  have hcancelled : s.cancelled = false := by
    by_contra hfired
    obtain ⟨t, ht, -⟩ := hnever.attests.come (Bool.eq_true_of_not_eq_false hfired)
    cases ht
  have hdeparted : result ≠ .error .departed := by
    rintro rfl
    rw [hnever.cancelled_of_departed] at hcancelled
    cases hcancelled
  have hstalled : result ≠ .error .stalled := by
    rintro rfl
    rw [hcourse.handle_of_stalled] at ho
    cases ho
  obtain ⟨response, t, heq, -⟩ := hcourse.respond_eq hdeparted hstalled
  rw [hcourse.handle_eq hstalled, hcancelled, if_neg Bool.false_ne_true, heq] at ho
  cases ho
  exact terminalState_ne_cancelled _ hdeparted hstalled

/-!
## Error statuses
-/

theorem Tells.render_eq
    {codec : Codec} {status : Status} {response : Response}
    (h : Tells codec status response) :
    (response.status, response.body) = status.render codec := by
  rcases h with ⟨body, hbody, hstatus, rfl⟩ | ⟨fault, hfault, hstatus, hbody⟩
  · simp [Status.render, hbody, hstatus]
  · simp [Status.render, hfault, hstatus, hbody]

/-- The gateway does not know of methods that are not allowed. -/
theorem Answers.status_ne_notAllowed
    {state : RequestState} {response : Response}
    (h : g.Answers request caller r state response) :
    response.status ≠ 405 := by
  have hcode (code : Code) : code.httpStatus ≠ 405 := by
    cases code <;> decide
  rcases h with ⟨-, hstatus⟩ | ⟨-, status, -, htells⟩
  · simp [hstatus]
  · rcases htells with ⟨-, -, hstatus, -⟩ | ⟨-, -, hstatus, -⟩
    · exact hstatus ▸ hcode status.code
    · simp [hstatus]

end Gateway

namespace Server

variable {s : Server ω} {id : String} {request : WebRequest} {leavesAt : Option Nat} {r t : Run ω}
  {o : Outcome} {answer : Response}

/-!
## Framing
-/

/-- A response as the front door passes it on: it may add the length of the body. -/
structure Conveys (answer response : Response) : Prop where
  status : answer.status = response.status
  body : answer.body = response.body
  /-- Every line of the response is passed on. -/
  lines : ∀ name, response.headers.getAll name ≠ [] →
    answer.headers.getAll name = response.headers.getAll name
  /-- No other line is added. -/
  others : ∀ name, name ≠ "content-length" →
    answer.headers.getAll name = response.headers.getAll name

theorem conveys_framed
    {method : String}
    (hmethod : method ≠ "HEAD") (response : Response) :
    Conveys (framed method response) response := by
  have hlines : ∀ name,
      response.headers.getAll name ≠ [] ∨ name ≠ "content-length" →
        (framed method response).headers.getAll name = response.headers.getAll name := by
    intro name hname
    simp only [framed]
    split
    · rfl
    · next hnone =>
        rw [HeaderMap.getAll_append, if_neg]
        rintro rfl
        rcases hname with hsome | hne
        · exact hnone (by simpa [HeaderMap.get?, List.isSome_head?] using hsome)
        · exact hne rfl
  exact ⟨rfl, if_neg hmethod, fun name h => hlines name (.inl h),
    fun name h => hlines name (.inr h)⟩

/-!
## Serving
-/

/-- A request is handed on as it is, but that the gateway is asked for the path of its target. -/
structure HandsOn (id : String) (request : WebRequest) (asked : Request) : Prop where
  id : asked.id = id
  method : asked.method = request.method
  /-- The path stands before the query. -/
  path : Uri.HasPath request.target.toList asked.path.toList
  headers : asked.headers = request.headers
  body : asked.body = request.body
  /-- The IP address of the caller is handed on when it is known. -/
  remoteAddress : asked.remoteAddress = request.remoteAddress

/-- What is handed on is known from the request. -/
theorem handsOn_iff
    {asked : Request} :
    HandsOn id request asked ↔ asked = admitted id request := by
  constructor
  · intro h
    obtain ⟨askedId, method, path, headers, body, address⟩ := asked
    obtain ⟨rfl, rfl, hpath, rfl, rfl, rfl⟩ := h
    obtain rfl := Uri.hasPath_iff.mp hpath
    rfl
  · rintro rfl
    exact ⟨rfl, rfl, Uri.hasPath_iff.mpr rfl, rfl, rfl, rfl⟩

/-- What the gateway makes of a request that the front door lets through. -/
def handed (s : Server ω) (id : String) (request : WebRequest) (leavesAt : Option Nat)
    (r : Run ω) : Option Outcome × Run ω :=
  s.gateway.handle (admitted id request) (.leaving leavesAt) r

theorem serve_of_otherVerb
    (hpath : Uri.targetPath request.target = healthPath)
    (hget : request.method ≠ "GET") (hhead : request.method ≠ "HEAD")
    (s : Server ω) (id : String) (leavesAt : Option Nat) (r : Run ω) :
    s.serve id request leavesAt r = (some (framed request.method probeOnly), r) := by
  simp [serve, hpath, hget, hhead]

theorem serve_of_oversized
    (hpath : Uri.targetPath request.target ≠ healthPath)
    (hsize : s.maxBodyBytes < request.body.length)
    (id : String) (leavesAt : Option Nat) (r : Run ω) :
    s.serve id request leavesAt r = (some (framed request.method tooLarge), r) := by
  simp [serve, hpath, hsize]

theorem serve_of_stalled
    (hpath : Uri.targetPath request.target ≠ healthPath)
    (hsize : request.body.length ≤ s.maxBodyBytes)
    (h : s.handed id request leavesAt r = (none, t)) :
    s.serve id request leavesAt r = (none, t.cancel) := by
  rw [handed] at h
  simp [serve, hpath, Nat.not_lt.mpr hsize, h]

theorem serve_of_left
    (hpath : Uri.targetPath request.target ≠ healthPath)
    (hsize : request.body.length ≤ s.maxBodyBytes)
    (h : s.handed id request leavesAt r = (some o, t)) (hstate : o.state = .cancelled) :
    s.serve id request leavesAt r = (none, t.cancel) := by
  obtain ⟨state, response⟩ := o
  obtain rfl : state = .cancelled := hstate
  rw [handed] at h
  simp [serve, hpath, Nat.not_lt.mpr hsize, h]

theorem serve_of_answered
    (hpath : Uri.targetPath request.target ≠ healthPath)
    (hsize : request.body.length ≤ s.maxBodyBytes)
    (h : s.handed id request leavesAt r = (some o, t)) (hstate : o.state ≠ .cancelled) :
    s.serve id request leavesAt r =
      (some (framed request.method (o.response.getD closed)), t.cancel) := by
  obtain ⟨state, response⟩ := o
  rw [handed] at h
  cases state <;> first
    | exact absurd rfl hstate
    | simp [serve, hpath, Nat.not_lt.mpr hsize, h]

/-!
## The front door and its gateway
-/

/-- What a request is refused with whose body is too large. -/
def bodyRefusal : Status :=
  Status.of .invalidArgument "failed to read request body: length limit exceeded"

/-- The front door adds a limit for bodies to the gateway behind it, and nothing else. -/
structure Refines (s : Server ω) (id : String) (request : WebRequest) (leavesAt : Option Nat)
    (r : Run ω) : Prop where
  /-- A body above the limit is refused, and nothing runs. -/
  oversized : s.maxBodyBytes < request.body.length →
    ∃ answer, s.serve id request leavesAt r = (some answer, r) ∧
      answer.status = 400 ∧
      answer.body = (ErrorEnvelope.ofStatus bodyRefusal).toValue.bytes false
  /-- Any other request is answered with the response of the gateway, and with `closed` if there is
  none. -/
  answered : ∀ o t, request.body.length ≤ s.maxBodyBytes →
    s.handed id request leavesAt r = (some o, t) → o.state ≠ .cancelled →
    ∃ answer, s.serve id request leavesAt r = (some answer, t.cancel) ∧
      Conveys answer (o.response.getD closed)
  /-- Only a caller that has left gets no answer. -/
  left : ∀ o t, request.body.length ≤ s.maxBodyBytes →
    s.handed id request leavesAt r = (some o, t) → o.state = .cancelled →
    s.serve id request leavesAt r = (none, t.cancel) ∧ leavesAt ≠ none
  stalled : ∀ t, request.body.length ≤ s.maxBodyBytes →
    s.handed id request leavesAt r = (none, t) →
    s.serve id request leavesAt r = (none, t.cancel)
  /-- A request that leads to a route reaches it. -/
  reached : ∀ route params, request.body.length ≤ s.maxBodyBytes →
    s.gateway.LeadsTo (admitted id request) route params →
    r.journal ++ Gateway.matchedEntries <+: (s.serve id request leavesAt r).2.journal

/-- A caller that stays is not cancelled. -/
theorem leaves_of_cancelled
    (h : s.handed id request leavesAt r = (some o, t)) (hstate : o.state = .cancelled) :
    leavesAt ≠ none := by
  rintro rfl
  have ho : (s.gateway.handle (admitted id request) .patient r).1 = some o :=
    congrArg Prod.fst h
  exact Gateway.state_ne_cancelled_of_patient ho hstate

theorem serve_matches
    {route : Route} {params : PathParams}
    (hpath : Uri.targetPath request.target ≠ healthPath)
    (hsize : request.body.length ≤ s.maxBodyBytes)
    (hlead : s.gateway.LeadsTo (admitted id request) route params) :
    r.journal ++ Gateway.matchedEntries <+: (s.serve id request leavesAt r).2.journal := by
  have hmatched := Gateway.handle_matches hlead (.leaving leavesAt) r
  rcases hhanded : s.handed id request leavesAt r with ⟨outcome, t⟩
  rw [handed] at hhanded
  rw [hhanded] at hmatched
  cases outcome with
  | none =>
      rw [serve_of_stalled hpath hsize hhanded]
      exact hmatched
  | some o =>
      by_cases hstate : o.state = .cancelled
      · rw [serve_of_left hpath hsize hhanded hstate]
        exact hmatched
      · rw [serve_of_answered hpath hsize hhanded hstate]
        exact hmatched

/-- On every path but that of the probe the gateway decides. -/
theorem refines_of_path_ne
    (hmethod : request.method ≠ "HEAD") (hpath : Uri.targetPath request.target ≠ healthPath)
    (s : Server ω) (id : String) (leavesAt : Option Nat) (r : Run ω) :
    s.Refines id request leavesAt r where
  oversized hsize := by
    have hconveys := conveys_framed hmethod tooLarge
    exact ⟨_, serve_of_oversized hpath hsize id leavesAt r, hconveys.status, hconveys.body⟩
  answered o t hsize hhanded hstate :=
    ⟨_, serve_of_answered hpath hsize hhanded hstate, conveys_framed hmethod _⟩
  left o t hsize hhanded hstate :=
    ⟨serve_of_left hpath hsize hhanded hstate, leaves_of_cancelled hhanded hstate⟩
  stalled t hsize hhanded := serve_of_stalled hpath hsize hhanded
  reached route params hsize hlead := serve_matches hpath hsize hlead

/-- On the path of the probe the front door answers in place of the gateway, which never gives that
answer itself. -/
theorem not_refines_of_otherVerb
    (hpath : Uri.targetPath request.target = healthPath)
    (hget : request.method ≠ "GET") (hhead : request.method ≠ "HEAD") :
    ¬ s.Refines id request leavesAt r := by
  intro h
  have hserve := serve_of_otherVerb hpath hget hhead s id leavesAt r
  by_cases hsize : s.maxBodyBytes < request.body.length
  · obtain ⟨answer, heq, hstatus, -⟩ := h.oversized hsize
    rw [hserve] at heq
    cases heq
    simp [framed, probeOnly] at hstatus
  rw [Nat.not_lt] at hsize
  rcases hhanded : s.handed id request leavesAt r with ⟨outcome, t⟩
  cases outcome with
  | none =>
      have heq := h.stalled t hsize hhanded
      rw [hserve] at heq
      cases heq
  | some o =>
      by_cases hstate : o.state = .cancelled
      · have heq := (h.left o t hsize hhanded hstate).1
        rw [hserve] at heq
        cases heq
      · obtain ⟨answer, heq, hconveys⟩ := h.answered o t hsize hhanded hstate
        have ho : (s.gateway.handle (admitted id request) (.leaving leavesAt) r).1 = some o :=
          congrArg Prod.fst hhanded
        obtain ⟨response, hresponse⟩ := Gateway.exists_response_of_handle ho hstate
        have hanswers := Gateway.answers_of_handle ho hresponse
        rw [hserve] at heq
        cases heq
        rw [hresponse] at hconveys
        exact hanswers.status_ne_notAllowed hconveys.status.symm

/-- **The front door and its gateway.**  Every request is admitted with its method, its path without
the query, its headers, its body and the address of its caller.  Of every request but the probe
itself, the front door makes what the gateway makes of it, up to the limit for bodies, if and only
if its path is not that of the probe. -/
theorem refines_gateway_iff
    (hmethod : request.method ≠ "HEAD")
    (hprobe : ¬ (Uri.targetPath request.target = healthPath ∧ request.method = "GET")) :
    (∀ asked, HandsOn id request asked ↔ asked = admitted id request) ∧
    (s.Refines id request leavesAt r ↔ Uri.targetPath request.target ≠ healthPath) := by
  refine ⟨fun asked => handsOn_iff, ?_⟩
  constructor
  · intro h hpath
    have hget : request.method ≠ "GET" := fun hget => hprobe ⟨hpath, hget⟩
    exact not_refines_of_otherVerb hpath hget hmethod h
  · intro hpath
    exact refines_of_path_ne hmethod hpath s id leavesAt r

/-- A server with one method, which echoes its message, and one route to it. -/
def echoing (segment : String) : Server Unit where
  gateway :=
    { routes := [⟨⟨.post, [.literal segment], none, "/" ++ segment⟩, ⟨"/a.B/Echo", "POST"⟩, .item⟩]
      dispatcher :=
        ⟨⟨[⟨⟨"/a.B/Echo", "POST"⟩, .inProcess .item fun _ m => .done (.ok m)⟩]⟩, []⟩ }
  maxBodyBytes := 4

/-- A request with a query. -/
def querying : WebRequest where
  method := "POST"
  target := "/echo?a=b"

theorem refines_gateway_iff_echoing :
    HandsOn "req" querying ⟨"req", "POST", "/echo", .empty, [], none⟩ ∧
    (echoing "echo").Refines "req" querying none (Run.start 0 ()) := by
  have hboth :
      (∀ asked, HandsOn "req" querying asked ↔ asked = admitted "req" querying) ∧
      ((echoing "echo").Refines "req" querying none (Run.start 0 ()) ↔
        Uri.targetPath querying.target ≠ healthPath) :=
    refines_gateway_iff (by decide) (by decide)
  exact ⟨(hboth.1 _).mpr rfl, hboth.2.mpr (by decide)⟩

/-- A route of the gateway for another verb on the path of the probe is bound but not reached: the
gateway would serve the request, and the front door answers that the method is not allowed. -/
theorem probe_hides_route :
    let request : WebRequest := { method := "POST", target := healthPath }
    ∃ o response t answer,
      (echoing "health").handed "req" request none (Run.start 0 ()) = (some o, t) ∧
      o.state = .forwarded ∧ o.response = some response ∧ response.status = 200 ∧
      (echoing "health").serve "req" request none (Run.start 0 ()) =
        (some answer, Run.start 0 ()) ∧
      answer.status = 405 ∧
      ¬ (echoing "health").Refines "req" request none (Run.start 0 ()) :=
  ⟨_, _, _, _, rfl, rfl, rfl, rfl, rfl, rfl,
    not_refines_of_otherVerb (by decide) (by decide) (by decide)⟩

/-!
## Errors
-/

/-- A request fails with a status: its body is too large, or the gateway has a cause. -/
inductive FailsWith (s : Server ω) (id : String) (request : WebRequest) (leavesAt : Option Nat)
    (r : Run ω) : Status → Prop
  | oversized
      (hsize : s.maxBodyBytes < request.body.length) :
      FailsWith s id request leavesAt r bodyRefusal
  | caused {state : RequestState} {status : Status}
      (hsize : request.body.length ≤ s.maxBodyBytes)
      (h : s.gateway.Cause (admitted id request) (.leaving leavesAt) r state status) :
      FailsWith s id request leavesAt r status

/-- A request is answered with an error, by the front door or by the gateway. -/
def Errs (s : Server ω) (id : String) (request : WebRequest) (leavesAt : Option Nat)
    (r : Run ω) : Prop :=
  s.maxBodyBytes < request.body.length ∨
  ∃ o t, s.handed id request leavesAt r = (some o, t) ∧ o.state ≠ .forwarded

/-- An answer renders a status with a codec, and names the media type of the codec if the codec has
written the body. -/
structure WrittenBy (codec : Codec) (status : Status) (answer : Response) : Prop where
  rendered : (answer.status, answer.body) = status.render codec
  mediaType : ∀ body value,
    codec.encode (ErrorEnvelope.ofStatus status).toValue = .ok body →
    HeaderValue.ofText? codec.contentType = some value →
    answer.headers.getAll "content-type" = [value]

/-- A codec writes the refusal of a large body as compact JSON does. -/
structure PlainRefusal (codec : Codec) : Prop where
  rendered : bodyRefusal.render codec = bodyRefusal.render (Codec.json false)
  mediaType : ∀ body value,
    codec.encode (ErrorEnvelope.ofStatus bodyRefusal).toValue = .ok body →
    HeaderValue.ofText? codec.contentType = some value →
    value = Utf8.bytes Codec.jsonType

/-- The errors of the gateway are written in the codec that the caller asked for. -/
theorem writtenBy_of_answered
    (hmethod : request.method ≠ "HEAD") (hpath : Uri.targetPath request.target ≠ healthPath)
    (hsize : request.body.length ≤ s.maxBodyBytes)
    (hhanded : s.handed id request leavesAt r = (some o, t)) (hstate : o.state ≠ .cancelled)
    (hforwarded : o.state ≠ .forwarded)
    (hanswer : (s.serve id request leavesAt r).1 = some answer) :
    ∃ status, s.FailsWith id request leavesAt r status ∧
      WrittenBy (s.gateway.codecs.outbound request.headers) status answer := by
  have ho : (s.gateway.handle (admitted id request) (.leaving leavesAt) r).1 = some o :=
    congrArg Prod.fst hhanded
  obtain ⟨response, hresponse⟩ := Gateway.exists_response_of_handle ho hstate
  have hconveys : Conveys answer response := by
    rw [serve_of_answered hpath hsize hhanded hstate, hresponse] at hanswer
    cases hanswer
    exact conveys_framed hmethod response
  rcases Gateway.answers_of_handle ho hresponse with ⟨hforward, -⟩ | ⟨-, status, hcause, htells⟩
  · exact absurd hforward hforwarded
  refine ⟨status, .caused hsize hcause, ?_, fun body value _ hvalue => ?_⟩
  · rw [hconveys.status, hconveys.body]
    exact htells.render_eq
  · have hmedia := Gateway.getAll_contentType_of_handle ho hstate hresponse hvalue
    rw [hconveys.lines _ (hmedia ▸ List.cons_ne_nil _ _), hmedia]

/-- The front door writes the refusal of a large body as compact JSON, whatever the caller asked
for. -/
theorem writtenBy_iff_of_oversized
    {codec : Codec}
    (hmethod : request.method ≠ "HEAD") (hpath : Uri.targetPath request.target ≠ healthPath)
    (hsize : s.maxBodyBytes < request.body.length)
    (hanswer : (s.serve id request leavesAt r).1 = some answer) :
    WrittenBy codec bodyRefusal answer ↔ PlainRefusal codec := by
  have hconveys : Conveys answer tooLarge := by
    rw [serve_of_oversized hpath hsize] at hanswer
    cases hanswer
    exact conveys_framed hmethod tooLarge
  have hrendered : (answer.status, answer.body) = bodyRefusal.render (Codec.json false) := by
    rw [hconveys.status, hconveys.body]
    rfl
  have hlines : tooLarge.headers.getAll "content-type" = [Utf8.bytes Codec.jsonType] := rfl
  have hmedia : answer.headers.getAll "content-type" = [Utf8.bytes Codec.jsonType] := by
    rw [hconveys.lines _ (hlines ▸ List.cons_ne_nil _ _), hlines]
  constructor
  · intro h
    refine ⟨h.rendered.symm.trans hrendered, fun body value hbody hvalue => ?_⟩
    have hboth := h.mediaType body value hbody hvalue
    rw [hmedia] at hboth
    exact (List.cons.inj hboth).1.symm
  · intro h
    refine ⟨hrendered.trans h.rendered.symm, fun body value hbody hvalue => ?_⟩
    rw [hmedia, h.mediaType body value hbody hvalue]

/-- **Errors and content negotiation.**  An error is written with a status of its request, in the
codec that the caller asked for, if and only if the body of the request is not too large or that
codec writes the refusal as compact JSON does. -/
theorem error_negotiated_iff
    (hmethod : request.method ≠ "HEAD") (hpath : Uri.targetPath request.target ≠ healthPath)
    (hanswer : (s.serve id request leavesAt r).1 = some answer)
    (herrs : s.Errs id request leavesAt r) :
    (∃ status, s.FailsWith id request leavesAt r status ∧
      WrittenBy (s.gateway.codecs.outbound request.headers) status answer) ↔
    (s.maxBodyBytes < request.body.length →
      PlainRefusal (s.gateway.codecs.outbound request.headers)) := by
  by_cases hsize : s.maxBodyBytes < request.body.length
  · rw [imp_iff_right hsize, ← writtenBy_iff_of_oversized hmethod hpath hsize hanswer]
    constructor
    · rintro ⟨status, hfails, hwritten⟩
      cases hfails with
      | oversized => exact hwritten
      | caused hle => exact absurd hsize (Nat.not_lt.mpr hle)
    · intro hwritten
      exact ⟨bodyRefusal, .oversized hsize, hwritten⟩
  · refine iff_of_true ?_ (fun hlt => absurd hlt hsize)
    rcases herrs with hlt | ⟨o, t, hhanded, hforwarded⟩
    · exact absurd hlt hsize
    rw [Nat.not_lt] at hsize
    by_cases hstate : o.state = .cancelled
    · rw [serve_of_left hpath hsize hhanded hstate] at hanswer
      cases hanswer
    · exact writtenBy_of_answered hmethod hpath hsize hhanded hstate hforwarded hanswer

theorem error_negotiated_iff_unrouted :
    ∃ answer status,
      ((echoing "echo").serve "req" { method := "POST", target := "/x" } none
        (Run.start 0 ())).1 = some answer ∧
      answer.status = 404 ∧
      (echoing "echo").FailsWith "req" { method := "POST", target := "/x" } none (Run.start 0 ())
        status ∧
      WrittenBy (Codec.json false) status answer := by
  have herrs : (echoing "echo").Errs "req" { method := "POST", target := "/x" } none
      (Run.start 0 ()) :=
    .inr ⟨_, _, rfl, by decide⟩
  obtain ⟨status, hfails, hwritten⟩ :=
    (error_negotiated_iff (by decide) (by decide) rfl herrs).mpr (fun hlt => absurd hlt (by decide))
  exact ⟨_, status, rfl, rfl, hfails, hwritten⟩

/-- A server whose gateway writes indented JSON. -/
def indenting : Server Unit where
  gateway := { codecs := ⟨[], Codec.json true⟩ }
  maxBodyBytes := 4

/-- A refusal of a large body is not indented where every other error is. -/
theorem refusal_not_negotiated :
    let request : WebRequest :=
      { method := "POST", target := "/x", body := [120, 120, 120, 120, 120] }
    ∃ answer,
      (indenting.serve "req" request none (Run.start 0 ())).1 = some answer ∧
      answer.status = 400 ∧
      indenting.Errs "req" request none (Run.start 0 ()) ∧
      ¬ ∃ status, indenting.FailsWith "req" request none (Run.start 0 ()) status ∧
        WrittenBy (indenting.gateway.codecs.outbound request.headers) status answer := by
  refine ⟨_, rfl, rfl, .inl (by decide), ?_⟩
  rintro ⟨status, hfails, hwritten⟩
  cases hfails with
  | oversized =>
      have hbody := congrArg (fun x => x.2.length) hwritten.rendered
      revert hbody
      decide
  | caused hsize => exact absurd hsize (by decide)

end Server
end RpcGateway
