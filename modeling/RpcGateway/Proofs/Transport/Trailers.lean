import RpcGateway.Gateway.Lifecycle
import RpcGateway.Proofs.Metadata.Lines
import RpcGateway.Proofs.Transport.Arrival
import RpcGateway.Proofs.Transport.Reply

/-!
# The two parts of a reply's metadata

Where the metadata of a peer's reply ends up: with the caller of a method that is served remotely,
and in the header lines of the response that the gateway writes.

**Recording.**  A reply that arrives is recorded as one header, the trailer is empty whatever the
peer has sent.

**Result.**  `kept_apart_iff` says for which replies the two parts are kept apart all the same: for
those with nothing behind the message, if their header is kept at all.
-/

namespace RpcGateway

/-!
## Two parts
-/

/-- Call metadata has the values of `H` as its header and those of `T` as its trailer. -/
structure CallMetadata.Holds (m : CallMetadata) (H T : Metadata) : Prop where
  header : ∀ k, m.header.getAll k = H.getAll k
  trailer : ∀ k, m.trailer.getAll k = T.getAll k

/-- Header lines have the values of `H` under their own names, those of `T` under marked names, and
nothing else but the media type of a body. -/
structure HeaderMap.Shows (h : HeaderMap) (H T : Metadata) : Prop where
  header : ∀ name, headerName? name = some name → name ≠ "content-type" →
    (∀ k, name ≠ trailerMark ++ k) → h.getAll name = (H.getAll name).map Utf8.bytes
  trailer : ∀ k, headerName? (trailerMark ++ k) = some (trailerMark ++ k) →
    h.getAll (trailerMark ++ k) = (T.getAll k).map Utf8.bytes

theorem trailerMark_append_ne_contentType
    (k : String) :
    trailerMark ++ k ≠ "content-type" := by
  intro h
  have hprefix : trailerMark.toList <+: "content-type".toList := by
    rw [← h, String.toList_append]
    exact List.prefix_append _ _
  revert hprefix
  decide

/-- Only the values of other names than that of the media type matter. -/
theorem HeaderMap.Shows.congr
    {h h' : HeaderMap} {H T : Metadata}
    (hm : h.Shows H T) (heq : ∀ name, name ≠ "content-type" → h'.getAll name = h.getAll name) :
    h'.Shows H T := by
  refine ⟨fun name hname hmedia hplain => ?_, fun k hname => ?_⟩
  · rw [heq name hmedia]
    exact hm.header name hname hmedia hplain
  · rw [heq _ (trailerMark_append_ne_contentType k)]
    exact hm.trailer k hname

/-- Call metadata that was recorded from header lines: one header, and no trailer. -/
structure CallMetadata.Records (m : CallMetadata) (lines : HeaderMap) : Prop where
  legal : lines.Legal
  sound : m.header.Sound
  header : ∀ k, m.header.getAll k = (WireMetadata.read lines).getAll k
  trailer : m.trailer = .empty

/-- Nothing that is read off header lines has a marked name. -/
theorem WireMetadata.getAll_read_marked
    {h : HeaderMap}
    (hl : h.Legal) (k : String) :
    (read h).getAll (trailerMark ++ k) = [] := by
  have hmark : Ascii.lower (trailerMark ++ k) = "grpc-" ++ ("trailer-" ++ Ascii.lower k) := by
    rw [Ascii.lower_append, CallMetadata.lower_trailerMark, ← String.append_assoc]
    rfl
  apply getAll_read_of_not_carried hl
  rw [hmark]
  exact isCarried_grpc_append _

namespace CallMetadata.Records

variable {m : CallMetadata} {lines : HeaderMap} {H T : Metadata}

/-- What was recorded holds two parts if and only if the first is all of it. -/
theorem holds_iff
    (h : m.Records lines) (hT : T.Sound) :
    m.Holds H T ↔ T = .empty ∧ ∀ k, (WireMetadata.read lines).getAll k = H.getAll k := by
  constructor
  · intro hm
    refine ⟨hT.eq_empty_of_getAll fun k => ?_, fun k => ?_⟩
    · rw [← hm.trailer k, h.trailer]
      rfl
    · rw [← h.header, hm.header]
  · rintro ⟨rfl, hheader⟩
    refine ⟨fun k => ?_, fun k => ?_⟩
    · rw [h.header, hheader]
    · rw [h.trailer]

theorem getAll_toHeaders_plain
    (h : m.Records lines) {name : String}
    (hname : headerName? name = some name) (hplain : ∀ k, name ≠ trailerMark ++ k) :
    m.toHeaders.getAll name = ((WireMetadata.read lines).getAll name).map Utf8.bytes := by
  unfold CallMetadata.toHeaders
  rw [CallMetadata.getAll_writeLines_plain h.sound hname hplain, h.header, ← List.filterMap_eq_map]
  apply List.filterMap_congr
  intro value hvalue
  exact WireMetadata.ofText?_of_mem_getAll_read h.legal hvalue

theorem getAll_toHeaders_marked
    (h : m.Records lines) {k : String}
    (hname : headerName? (trailerMark ++ k) = some (trailerMark ++ k)) :
    m.toHeaders.getAll (trailerMark ++ k) = [] := by
  have htrailer : m.trailer.Sound := by
    rw [h.trailer]
    exact Metadata.sound_empty
  unfold CallMetadata.toHeaders
  rw [CallMetadata.getAll_writeLines_marked h.sound htrailer hname, h.header, h.trailer,
    WireMetadata.getAll_read_marked h.legal]
  rfl

/-- The lines of what was recorded show two parts if and only if the first is all of it. -/
theorem shows_iff
    (h : m.Records lines) {front behind : HeaderMap} (hfront : front.Legal)
    (hbehind : behind.Legal) :
    m.toHeaders.Shows (WireMetadata.read front) (WireMetadata.read behind) ↔
      WireMetadata.read behind = .empty ∧
        ∀ k, (WireMetadata.read lines).getAll k = (WireMetadata.read front).getAll k := by
  constructor
  · intro hm
    refine ⟨(WireMetadata.sound_read behind).eq_empty_of_getAll fun k => ?_, fun k => ?_⟩
    · by_contra hk
      have hname := headerName?_append CallMetadata.headerName?_trailerMark
        (WireMetadata.name_of_getAll_read_ne_nil hbehind hk)
      have hlines := hm.trailer (Ascii.lower k) hname
      rw [h.getAll_toHeaders_marked hname, Metadata.getAll_lower] at hlines
      exact hk (List.map_eq_nil_iff.mp hlines.symm)
    · -- a key is the name of a line without the mark, or it has no values at all
      by_cases hmarked : ∃ k', Ascii.lower k = trailerMark ++ k'
      · obtain ⟨k', hk'⟩ := hmarked
        rw [← Metadata.getAll_lower, ← Metadata.getAll_lower (WireMetadata.read front), hk',
          WireMetadata.getAll_read_marked h.legal, WireMetadata.getAll_read_marked hfront]
      by_cases hmedia : Ascii.lower k = "content-type"
      · have huncarried : WireMetadata.isCarried (Ascii.lower k) = false := by
          rw [hmedia]
          decide
        rw [WireMetadata.getAll_read_of_not_carried h.legal huncarried,
          WireMetadata.getAll_read_of_not_carried hfront huncarried]
      · have hplain : ∀ k', Ascii.lower k ≠ trailerMark ++ k' := fun k' hk' => hmarked ⟨k', hk'⟩
        by_cases hname : headerName? (Ascii.lower k) = some (Ascii.lower k)
        · have hlines := hm.header (Ascii.lower k) hname hmedia hplain
          rw [h.getAll_toHeaders_plain hname hplain, Metadata.getAll_lower,
            Metadata.getAll_lower] at hlines
          exact List.map_injective_iff.mpr Utf8.bytes_injective hlines
        · have hnone : ∀ {g : HeaderMap}, g.Legal → (WireMetadata.read g).getAll k = [] := by
            intro g hg
            by_contra hk
            exact hname (WireMetadata.name_of_getAll_read_ne_nil hg hk)
          rw [hnone h.legal, hnone hfront]
  · rintro ⟨hnone, hheader⟩
    refine ⟨fun name hname _ hplain => ?_, fun k hname => ?_⟩
    · rw [h.getAll_toHeaders_plain hname hplain, hheader]
    · rw [h.getAll_toHeaders_marked hname, hnone]
      rfl

end CallMetadata.Records

theorem CallMetadata.records_read
    {lines : HeaderMap}
    (hl : lines.Legal) :
    Records ⟨WireMetadata.read lines, .empty⟩ lines :=
  ⟨hl, WireMetadata.sound_read lines, fun _ => rfl, rfl⟩

/-- What is recorded first is recorded as it was read. -/
theorem CallMetadata.records_merge_empty
    {lines : HeaderMap}
    (hl : lines.Legal) :
    (empty.merge ⟨WireMetadata.read lines, .empty⟩).Records lines := by
  refine ⟨hl, Metadata.sound_empty.extend _, fun k => ?_, rfl⟩
  have hextend := Metadata.getAll_extend .empty (WireMetadata.sound_read lines) k
  rwa [Metadata.getAll_empty, List.nil_append] at hextend

namespace WireResponse

/-- A reply with nothing behind its message, and nothing in front of it that is discarded. -/
def HeaderOnly (reply : WireResponse) : Prop :=
  reply.trailer = .empty ∧ (reply.Discards → reply.header = .empty)

/-- What a reply delivers is its header, and nothing is behind its message, if and only if there is
a header only. -/
theorem Delivers.headerOnly_iff
    {reply : WireResponse} {lines : HeaderMap}
    (h : reply.Delivers lines) (ht : reply.Textual) :
    (reply.trailer = .empty ∧ ∀ k, (WireMetadata.read lines).getAll k = reply.header.getAll k) ↔
      reply.HeaderOnly := by
  refine and_congr_right fun hnone => ?_
  rcases h.getAll_read ht hnone with ⟨hdiscards, hread⟩ | ⟨hkept, hread⟩
  · constructor
    · intro hheader _
      refine (WireMetadata.sound_read reply.headers).eq_empty_of_getAll fun k => ?_
      exact (hheader k).symm.trans (hread k)
    · intro hheader k
      rw [hread, hheader hdiscards]
      rfl
  · exact ⟨fun _ hdiscards => absurd hdiscards hkept, fun _ => hread⟩

end WireResponse

/-!
## The response
-/

namespace Gateway

variable {ω : Type}

/-- A processed request is answered with call metadata, and the hooks have added no lines. -/
inductive AnsweredWith (m : CallMetadata) : Except Exit Success → Prop
  | reply (message : Message) :
      AnsweredWith m (.ok ⟨message, m, .empty⟩)
  | failure (status : Status) :
      AnsweredWith m (.error (.failed status m))

theorem respond_of_answeredWith
    {m : CallMetadata} {result : Except Exit Success}
    (h : AnsweredWith m result) (codec : Codec) (r : Run ω) :
    ∃ o response s,
      respond result codec r = (some o, s) ∧
      o.response = some response ∧
      response.headers = setContentType m.toHeaders codec := by
  cases h with
  | reply message =>
      simp only [respond, forward]
      cases writeBody codec message with
      | error reason => exact ⟨_, _, _, rfl, rfl, rfl⟩
      | ok body => exact ⟨_, _, _, rfl, rfl, rfl⟩
  | failure status => exact ⟨_, _, _, rfl, rfl, rfl⟩

theorem getAll_setContentType
    (h : HeaderMap) (codec : Codec) {name : String}
    (hname : name ≠ "content-type") :
    (setContentType h codec).getAll name = h.getAll name := by
  unfold setContentType
  split
  · rw [HeaderMap.getAll_insert, if_neg hname]
  · rfl

/-- The media type of a body hides none of the two parts. -/
theorem shows_setContentType_iff
    {h : HeaderMap} {H T : Metadata}
    (codec : Codec) :
    (setContentType h codec).Shows H T ↔ h.Shows H T := by
  constructor
  · intro hm
    exact hm.congr fun name hname => (getAll_setContentType h codec hname).symm
  · intro hm
    exact hm.congr fun name hname => getAll_setContentType h codec hname

end Gateway

namespace Invoker

/-- A remote call whose reply arrives records one header and no trailer.  That holds the two parts
of the reply, and the response of the gateway shows them, if and only if the reply has a header
only; nothing that follows in the gateway tells the two parts apart again. -/
theorem kept_apart_iff
    {ω : Type} {d : Dispatcher ω} {peer : Peer ω} {response : MessageType} {info : MethodInfo}
    {c : Context} {request : Message} {bounds : Bounds} {r s : Run ω} {t : Nat}
    {reply : WireResponse}
    (hfound : d.registry.find? c.method.fullMethod =
      some ⟨info, remote (PeerChannel.channel peer) response⟩)
    (harrives : PeerChannel.Arrives peer bounds
      ⟨c.method.fullMethod, request.toWire, c.incoming, c.remaining r.now⟩ reply r s t)
    (htext : reply.Textual) :
    ∃ m after,
      ((remote (PeerChannel.channel peer) response).invoke c request).run bounds r =
        (.finished (readResponse response (PeerChannel.readAnswer reply).result), after) ∧
      after.outgoing = r.outgoing.merge m ∧
      m.trailer = .empty ∧
      (m.Holds reply.header reply.trailer ↔ reply.HeaderOnly) ∧
      (d.outgoing c).run bounds after =
        (.finished after.outgoing, { after with outgoing := .empty }) ∧
      (r.outgoing = .empty → ∀ result codec (u : Run ω),
        Gateway.AnsweredWith after.outgoing result →
        ∃ o written v,
          Gateway.respond result codec u = (some o, v) ∧
          o.response = some written ∧
          (written.headers.Shows reply.header reply.trailer ↔ reply.HeaderOnly)) := by
  have hrun : ((remote (PeerChannel.channel peer) response).invoke c request).run bounds r = _ :=
    remote_run (PeerChannel.channel_run_of_arrives harrives)
  have houtgoing : s.outgoing = r.outgoing := harrives.untouched
  obtain ⟨lines, hdelivers, hmetadata⟩ := reply.exists_delivers
  have hl := hdelivers.legal htext
  refine ⟨_, _, hrun, congrArg (CallMetadata.merge · _) houtgoing, ?_, ?_,
    d.outgoing_run hfound bounds _, ?_⟩
  · rw [hmetadata]
  · rw [hmetadata, ← hdelivers.headerOnly_iff htext]
    exact (CallMetadata.records_read hl).holds_iff (WireMetadata.sound_read _)
  · intro hfresh result codec u hanswered
    dsimp only at hanswered
    rw [houtgoing, hfresh, hmetadata] at hanswered
    obtain ⟨o, written, v, hrespond, hwritten, hheaders⟩ :=
      Gateway.respond_of_answeredWith hanswered codec u
    refine ⟨o, written, v, hrespond, hwritten, ?_⟩
    rw [hheaders, Gateway.shows_setContentType_iff, ← hdelivers.headerOnly_iff htext]
    exact (CallMetadata.records_merge_empty hl).shows_iff htext.headers htext.trailers

/-- A reply with a line in front of its empty message and one behind it. -/
def twoParts : WireResponse where
  headers := HeaderMap.empty.append "x-h" [49]
  message := some []
  trailers := some ((HeaderMap.empty.append "grpc-status" [48]).append "x-t" [50])

theorem twoParts_textual :
    twoParts.Textual := by
  refine ⟨?_, ?_, by decide⟩
  · have hname : headerName? "x-h" = some "x-h" := by decide
    exact HeaderMap.legal_empty.append hname (by decide)
  · have hstatus : headerName? "grpc-status" = some "grpc-status" := by decide
    have hname : headerName? "x-t" = some "x-t" := by decide
    exact (HeaderMap.legal_empty.append hstatus (by decide)).append hname (by decide)

/-- A peer that always replies with `twoParts`. -/
def twoPartPeer : Peer Unit := fun _ =>
  .done (.answered (some 0) twoParts)

/-- A dispatcher with one method, which that peer serves. -/
def toTwoParts : Dispatcher Unit where
  registry := ⟨[⟨⟨"/a.B/C", "POST /c"⟩, remote (PeerChannel.channel twoPartPeer) .fetchResponse⟩]⟩

/-- A call of that method. -/
def callOfC : Context where
  requestId := "1"
  method := ⟨"/a.B/C", "POST /c"⟩

/-- The line behind the message comes out as one more header, under its own name. -/
theorem trailer_shown_as_header :
    ∃ made after,
      (toTwoParts.dispatch callOfC (.zero .fetchRequest)).run {} (.start 0 ()) =
        (.finished made, after) ∧
      ¬ made.metadata.Holds twoParts.header twoParts.trailer ∧
      made.metadata.toHeaders.getAll "x-t" = [[50]] ∧
      made.metadata.toHeaders.getAll (trailerMark ++ "x-t") = [] := by
  refine ⟨_, _, rfl, ?_, by decide, by decide⟩
  intro h
  have hvalues := h.trailer "x-t"
  revert hvalues
  decide

theorem kept_apart_iff_twoParts :
    toTwoParts.registry.find? callOfC.method.fullMethod =
        some ⟨callOfC.method, remote (PeerChannel.channel twoPartPeer) .fetchResponse⟩ ∧
      twoParts.Textual ∧
      ∃ m after,
        ((remote (PeerChannel.channel twoPartPeer) .fetchResponse).invoke callOfC
          (.zero .fetchRequest)).run {} (.start 0 ()) =
          (.finished (readResponse .fetchResponse (PeerChannel.readAnswer twoParts).result),
            after) ∧
        after.outgoing = CallMetadata.empty.merge m ∧
        (m.Holds twoParts.header twoParts.trailer ↔ twoParts.HeaderOnly) := by
  have hfound : toTwoParts.registry.find? callOfC.method.fullMethod =
      some ⟨callOfC.method, remote (PeerChannel.channel twoPartPeer) .fetchResponse⟩ := rfl
  have harrives : PeerChannel.Arrives twoPartPeer {}
      ⟨callOfC.method.fullMethod, (Message.zero .fetchRequest).toWire, callOfC.incoming,
        callOfC.remaining 0⟩ twoParts (.start 0 ()) (.start 0 ()) 0 :=
    ⟨rfl, ⟨"/a.B/C", 0, by decide, rfl, by decide, rfl⟩, rfl⟩
  obtain ⟨m, after, hrun, hmerge, -, hholds, -, -⟩ :=
    kept_apart_iff hfound harrives twoParts_textual
  exact ⟨hfound, twoParts_textual, m, after, hrun, hmerge, hholds⟩

end Invoker
end RpcGateway
