import RpcGateway.Proofs.Gateway.FrontDoor

/-!
# Who has written the body of a response

A body is written by the codec that the caller asked for, as a message or as the envelope of an
error.  An envelope that the codec cannot write has a stand-in, a fixed body of JSON.

**Writers.**  `Writes` has one constructor for each way in which a body comes to be.  A request
fails with one status only (`Cause.unique`), so every body has one writer.

**Result.**  `media_type_names_writer_iff`: the one content type of a response is that of the writer
of its body if and only if the codec has written the body or has the media type of JSON itself.  The
stand-in goes out under the media type of the codec that did not write it.
-/

namespace RpcGateway

/-- What has written the body of a response. -/
inductive BodyWriter
  /-- The codec that the caller asked for. -/
  | codec
  /-- No codec: the body is the fixed one. -/
  | standIn
  deriving DecidableEq, Repr

/-- The media type of what a writer writes. -/
def BodyWriter.mediaType (codec : Codec) : BodyWriter → String
  | .codec => codec.contentType
  | .standIn => Codec.jsonType

namespace Gateway

variable {ω : Type} {g : Gateway ω} {request : Request} {caller : Caller} {r : Run ω}

/-!
## The status of a failed request
-/

/-- The status that the end of the processing is told with, if it is told as an error. -/
def errorStatus (codec : Codec) : Except Exit Success → Option Status
  | .ok answer =>
      match writeBody codec answer.message with
      | .ok _ => none
      | .error reason => some (Status.of .internal s!"failed to marshal response: {reason}")
  | .error .unmatched => some (Status.of .notFound "Not Found")
  | .error (.decodeFailed status) => some status
  | .error (.failed status _) => some status
  | .error .departed => none
  | .error .stalled => none

/-- The processing of a request that fails for a cause ends with the status of the cause. -/
theorem Cause.exists_course
    {state : RequestState} {status : Status}
    (h : g.Cause request caller r state status) :
    ∃ result s, g.Course request caller r result s ∧
      errorStatus (g.codecs.outbound request.headers) result = some status := by
  cases h with
  | unrouted h => exact ⟨_, _, .unrouted h, rfl⟩
  | undecoded h => exact ⟨_, _, .undecoded h, rfl⟩
  | untimed h hraw hbad =>
      exact ⟨_, _, .untimed h (timeout_eq_error_iff.mpr ⟨_, hraw, hbad, rfl⟩), rfl⟩
  | expired h => exact ⟨_, _, .expired h, rfl⟩
  | refused h hreply => exact ⟨_, _, .refused h hreply, rfl⟩
  | unhooked h hreply hhooks => exact ⟨_, _, .unhooked h hreply hhooks, rfl⟩
  | unwritten h hreply hhooks hbody =>
      exact ⟨_, _, .answered h hreply hhooks, by simp only [errorStatus, hbody]⟩

/-- A request fails with one status only. -/
theorem Cause.unique
    {state state' : RequestState} {status status' : Status}
    (h : g.Cause request caller r state status) (h' : g.Cause request caller r state' status') :
    status = status' := by
  obtain ⟨result, s, hcourse, hstatus⟩ := h.exists_course
  obtain ⟨result', s', hcourse', hstatus'⟩ := h'.exists_course
  obtain ⟨rfl, -⟩ := hcourse.unique hcourse'
  exact Option.some.inj (hstatus.symm.trans hstatus')

theorem Cause.state_ne_forwarded
    {state : RequestState} {status : Status}
    (h : g.Cause request caller r state status) :
    state ≠ .forwarded := by
  cases h <;> simp

/-- A request that is answered is not cancelled. -/
theorem Answers.state_ne_cancelled
    {state : RequestState} {response : Response}
    (h : g.Answers request caller r state response) :
    state ≠ .cancelled := by
  rcases h with ⟨rfl, -⟩ | ⟨-, status, hcause, -⟩
  · simp
  · cases hcause <;> simp

/-!
## Writers
-/

/-- How the body of a response to a request comes to be, and who has written it. -/
inductive Writes (g : Gateway ω) (request : Request) (caller : Caller) (r : Run ω) :
    RequestState → Response → BodyWriter → Prop
  | message {c : Context} {message reply : Message} {d : Dispatched} {s t : Run ω}
      {headers : HeaderMap} {response : Response}
      (h : g.CallEnds request caller r c message (.finished d) s)
      (hreply : d.reply = .ok reply)
      (hhooks : runHooks c reply g.hooks .empty (s.reach .dispatched) = (.ok headers, t))
      (hbody : writeBody (g.codecs.outbound request.headers) reply = .ok response.body) :
      Writes g request caller r .forwarded response .codec
  | envelope {state : RequestState} {status : Status} {response : Response}
      (h : g.Cause request caller r state status)
      (hbody : (g.codecs.outbound request.headers).encode (ErrorEnvelope.ofStatus status).toValue =
        .ok response.body) :
      Writes g request caller r state response .codec
  | standIn {state : RequestState} {status : Status} {fault : CodecFault} {response : Response}
      (h : g.Cause request caller r state status)
      (hfault : (g.codecs.outbound request.headers).encode
        (ErrorEnvelope.ofStatus status).toValue = .error fault)
      (hbody : response.body = fallbackBody) :
      Writes g request caller r state response .standIn

/-- The message of a forwarded request is written by the codec. -/
theorem Course.writes_of_forwarded
    {result : Except Exit Success} {s : Run ω} {o : Outcome} {response : Response}
    (h : g.Course request caller r result s)
    (ho : (respond result (g.codecs.outbound request.headers) s).1 = some o)
    (hstate : o.state = .forwarded) (hresponse : o.response = some response) :
    g.Writes request caller r .forwarded response .codec := by
  cases h with
  | @answered _ _ reply _ _ _ _ h hreply hhooks =>
      simp only [respond, forward] at ho
      cases hbody : writeBody (g.codecs.outbound request.headers) reply with
      | error reason =>
          rw [hbody] at ho
          cases ho
          cases hstate
      | ok body =>
          rw [hbody] at ho
          cases ho
          cases hresponse
          exact .message h hreply hhooks hbody
  | stalled => cases ho
  | _ =>
      cases ho
      cases hstate

/-- Every body has a writer. -/
theorem exists_writes
    {o : Outcome} {response : Response}
    (ho : (g.handle request caller r).1 = some o) (hresponse : o.response = some response) :
    ∃ writer, g.Writes request caller r o.state response writer := by
  have hanswers := answers_of_handle ho hresponse
  obtain ⟨result, s, hcourse, -, -, hrespond⟩ :=
    exists_course_of_handle ho hanswers.state_ne_cancelled
  rcases hanswers with ⟨hstate, -⟩ | ⟨-, status, hcause, htells⟩
  · exact ⟨_, hstate ▸ hcourse.writes_of_forwarded hrespond hstate hresponse⟩
  · rcases htells with ⟨body, hbody, -, rfl⟩ | ⟨fault, hfault, -, hbody⟩
    · exact ⟨_, .envelope hcause hbody⟩
    · exact ⟨_, .standIn hcause hfault hbody⟩

/-- No body has two writers. -/
theorem Writes.unique
    {state : RequestState} {response : Response} {writer other : BodyWriter}
    (h : g.Writes request caller r state response writer)
    (h' : g.Writes request caller r state response other) :
    writer = other := by
  cases h with
  | message =>
      cases h' with
      | message => rfl
      | envelope => rfl
      | standIn hcause => exact absurd rfl hcause.state_ne_forwarded
  | envelope hcause hbody =>
      cases h' with
      | message => rfl
      | envelope => rfl
      | standIn hcause' hfault =>
          cases hcause.unique hcause'
          cases hbody.symm.trans hfault
  | standIn hcause hfault =>
      cases h' with
      | message => exact absurd rfl hcause.state_ne_forwarded
      | envelope hcause' hbody =>
          cases hcause.unique hcause'
          cases hbody.symm.trans hfault
      | standIn => rfl

/-- **The content type and the writer of the body.**  Every body has one writer, and the only
content type of the response is the media type of that writer if and only if the codec has written
the body or is a codec of JSON. -/
theorem media_type_names_writer_iff
    {o : Outcome} {response : Response} {value : HeaderValue}
    (ho : (g.handle request caller r).1 = some o)
    (hresponse : o.response = some response)
    (hvalue : HeaderValue.ofText? (g.codecs.outbound request.headers).contentType = some value) :
    ∃ writer,
      (∀ other, g.Writes request caller r o.state response other ↔ other = writer) ∧
      (response.headers.getAll "content-type" =
          [Utf8.bytes (writer.mediaType (g.codecs.outbound request.headers))] ↔
        writer = .codec ∨ (g.codecs.outbound request.headers).contentType = Codec.jsonType) := by
  obtain ⟨writer, hwrites⟩ := exists_writes ho hresponse
  have hlines := getAll_contentType_of_handle ho
    (answers_of_handle ho hresponse).state_ne_cancelled hresponse hvalue
  rw [← HeaderValue.bytes_of_ofText? hvalue] at hlines
  refine ⟨writer, fun other => ⟨fun hother => hother.unique hwrites, ?_⟩, ?_⟩
  · rintro rfl
    exact hwrites
  · rw [hlines]
    cases writer with
    | codec => simp [BodyWriter.mediaType]
    | standIn =>
        simp only [BodyWriter.mediaType, List.cons.injEq, and_true, reduceCtorEq, false_or]
        exact Utf8.bytes_injective.eq_iff

/-- A gateway whose only codec writes errors only. -/
def terse : Gateway Unit :=
  { codecs := CodecTable.standard.register anyMediaType Rehearsal.errorsOnlyCodec }

theorem media_type_names_writer_iff_unrouted :
    ∃ o response writer,
      (terse.handle ⟨"req", "GET", "/x", .empty, [], none⟩ .patient (Run.start 0 ())).1 = some o ∧
      o.response = some response ∧
      HeaderValue.ofText? Rehearsal.errorsOnlyCodec.contentType =
        some (Utf8.bytes "application/errors-only") ∧
      (∀ other, terse.Writes ⟨"req", "GET", "/x", .empty, [], none⟩ .patient (Run.start 0 ()) o.state
        response other ↔ other = writer) ∧
      (response.headers.getAll "content-type" =
          [Utf8.bytes (writer.mediaType Rehearsal.errorsOnlyCodec)] ↔
        writer = .codec ∨ Rehearsal.errorsOnlyCodec.contentType = Codec.jsonType) := by
  obtain ⟨writer, hwrites, hnames⟩ :=
    @media_type_names_writer_iff Unit terse ⟨"req", "GET", "/x", .empty, [], none⟩ .patient
      (Run.start 0 ()) _ _ _ rfl rfl rfl
  exact ⟨_, _, writer, rfl, rfl, rfl, hwrites, hnames⟩

/-- The stand-in for an envelope that the codec cannot write is JSON, and the response calls it
otherwise. -/
theorem stand_in_under_other_type :
    ∃ o response,
      (mute.handle ⟨"req", "GET", "/x", .empty, [], none⟩ .patient (Run.start 0 ())).1 = some o ∧
      o.response = some response ∧
      mute.Writes ⟨"req", "GET", "/x", .empty, [], none⟩ .patient (Run.start 0 ()) o.state response
        .standIn ∧
      response.body = fallbackBody ∧
      response.headers.getAll "content-type" = [Utf8.bytes "application/broken"] ∧
      response.headers.getAll "content-type" ≠ [Utf8.bytes Codec.jsonType] := by
  have hunrouted : mute.Unrouted ⟨"req", "GET", "/x", .empty, [], none⟩ := by
    simp [Unrouted, mute]
  exact ⟨_, _, rfl, rfl, .standIn (.unrouted hunrouted) rfl rfl, rfl, by decide, by decide⟩

end Gateway
end RpcGateway
