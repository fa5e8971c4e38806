import RpcGateway.Proofs.Metadata.Basic
import RpcGateway.Proofs.Transport.Arrival
import RpcGateway.Proofs.Wire.RoundTrip

/-!
# One implementation, served in two ways

An implementation answers a message without waiting, with a reply and with metadata.  It can be
called directly, or over a channel at whose other end it is called with what was sent.

**Reports.**  A handler reports its metadata bit by bit, a channel brings it back at once.
`merge_gather` says that both add the same, in the same order.

**Values.**  What is sent has to come back as it was, so the messages are values of the types that
the implementation is for.  `locally_run` and `remotely_run` say that for such messages the two ways
come to the same reply and the same metadata.
-/

namespace RpcGateway

/-- What an implementation reports besides its reply. -/
inductive Report
  | header (key value : String)
  | trailer (key value : String)

namespace Report

/-- Adds a report to call metadata. -/
def addTo (m : CallMetadata) : Report → CallMetadata
  | header key value => m.withHeader key value
  | trailer key value => m.withTrailer key value

/-- The call metadata that reports make. -/
def gather (reports : List Report) : CallMetadata :=
  reports.foldl addTo .empty

/-- What reports say about the header. -/
def headers : List Report → List (String × String)
  | [] => []
  | header key value :: rest => (key, value) :: headers rest
  | trailer _ _ :: rest => headers rest

/-- What reports say about the trailer. -/
def trailers : List Report → List (String × String)
  | [] => []
  | header _ _ :: rest => trailers rest
  | trailer key value :: rest => (key, value) :: trailers rest

theorem foldl_addTo
    (reports : List Report) (m : CallMetadata) :
    reports.foldl addTo m =
      ⟨m.header.appendAll (headers reports), m.trailer.appendAll (trailers reports)⟩ := by
  induction reports generalizing m with
  | nil => rfl
  | cons report rest ih =>
      rw [List.foldl_cons, ih]
      cases report <;> rfl

/-- One report after another adds what all of them add at once. -/
theorem merge_gather
    (m : CallMetadata) (reports : List Report) :
    m.merge (gather reports) = reports.foldl addTo m := by
  have hgather : gather reports =
      ⟨Metadata.ofList (headers reports), Metadata.ofList (trailers reports)⟩ :=
    foldl_addTo reports .empty
  rw [hgather, foldl_addTo, CallMetadata.merge, Metadata.extend_ofList, Metadata.extend_ofList]

theorem merge_addTo_empty
    (m : CallMetadata) (report : Report) :
    m.merge (addTo .empty report) = addTo m report :=
  merge_gather m [report]

end Report

/-- The answer of an implementation. -/
structure Answer where
  reply : Reply
  reports : List Report

/-- What answers a message that came with metadata. -/
abbrev Implementation := Metadata → Message → Answer

/-- Makes reports and goes on. -/
def Activity.reporting {ω α : Type} : List Report → Activity ω α → Activity ω α
  | [], next => next
  | report :: rest, next => .record (report.addTo .empty) (reporting rest next)

namespace Implementation

variable {ω : Type}

/-- The implementation as a handler. -/
def handler (h : Implementation) : Handler ω := fun c request =>
  .reporting (h c.incoming request).reports (.done (h c.incoming request).reply)

/-- A channel at whose other end the implementation is called; `refuse` answers what is not a
request. -/
def channel (h : Implementation) (request : MessageType) (refuse : Wire.Fault → RemoteOutcome) :
    Channel ω := fun call =>
  .done <| match Message.ofWire request call.payload with
    | .ok m =>
        ⟨(h call.metadata m).reply.map Message.toWire, Report.gather (h call.metadata m).reports⟩
    | .error fault => refuse fault

/-- Calls the implementation in process. -/
def locally (h : Implementation) (request : MessageType) : Invoker ω :=
  .inProcess request h.handler

/-- Calls the implementation over a channel. -/
def remotely (h : Implementation) (request response : MessageType)
    (refuse : Wire.Fault → RemoteOutcome) : Invoker ω :=
  .remote (h.channel request refuse) response

end Implementation

/-- A message is a value of a type that has a binary form. -/
structure Message.IsValue (t : MessageType) (m : Message) : Prop where
  type_eq : m.type = t
  wellFormed : m.WellFormed
  small : m.toWire.length < 2 ^ 64

/-- A value of a message type of a service comes back from its binary form. -/
theorem Message.IsValue.ofWire_toWire
    {t : MessageType} {m : Message}
    (h : m.IsValue t) (hservice : t.isService = true) :
    ofWire t m.toWire = .ok m := by
  obtain ⟨rfl, hwell, hsmall⟩ := h
  exact ofWire_toWire_of_isService hservice hwell hsmall

theorem Activity.run_reporting
    {ω α : Type} (bounds : Bounds) (reports : List Report) (next : Activity ω α) (r : Run ω) :
    (reporting reports next).run bounds r =
      next.run bounds { r with outgoing := reports.foldl Report.addTo r.outgoing } := by
  induction reports generalizing r with
  | nil => rfl
  | cons report rest ih =>
      rw [reporting, run, ih, Report.merge_addTo_empty]
      rfl

namespace Implementation

variable {ω : Type} {h : Implementation} {request response : MessageType} {c : Context}
  {m : Message}

/-- What a call of an implementation comes to: the reply, and the reports behind the metadata that
was there. -/
def answered (h : Implementation) (c : Context) (m : Message) (r : Run ω) :
    Ending Reply × Run ω :=
  (.finished (h c.incoming m).reply,
    { r with outgoing := r.outgoing.merge (Report.gather (h c.incoming m).reports) })

theorem locally_run
    (hm : m.IsValue request) (bounds : Bounds) (r : Run ω) :
    ((h.locally request).invoke c m).run bounds r = h.answered c m r := by
  rw [answered, Report.merge_gather, locally, Invoker.inProcess]
  simp only [if_pos hm.type_eq]
  rw [handler, Activity.run_reporting]
  rfl

theorem remotely_run
    (hm : m.IsValue request) (hrequest : request.isService = true)
    (hreply : ∀ reply, (h c.incoming m).reply = .ok reply → reply.IsValue response)
    (hresponse : response.isService = true) (refuse : Wire.Fault → RemoteOutcome)
    (bounds : Bounds) (r : Run ω) :
    ((h.remotely request response refuse).invoke c m).run bounds r = h.answered c m r := by
  have hchannel : (h.channel request refuse
      ⟨c.method.fullMethod, m.toWire, c.incoming, c.remaining r.now⟩).run bounds r =
      (.finished ⟨(h c.incoming m).reply.map Message.toWire,
        Report.gather (h c.incoming m).reports⟩, r) := by
    simp only [channel, hm.ofWire_toWire hrequest]
    rfl
  have hread : Invoker.readResponse response ((h c.incoming m).reply.map Message.toWire) =
      (h c.incoming m).reply := by
    cases hanswer : (h c.incoming m).reply with
    | error status => rfl
    | ok reply =>
        simp only [Except.map, Invoker.readResponse, (hreply reply hanswer).ofWire_toWire hresponse]
  refine (Invoker.remote_run hchannel).trans ?_
  rw [hread]
  rfl

end Implementation
end RpcGateway
