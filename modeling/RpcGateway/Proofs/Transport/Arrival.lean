import RpcGateway.Dispatch.Dispatcher
import RpcGateway.Proofs.Call.Clock
import RpcGateway.Proofs.Call.Sequence
import RpcGateway.Transport.Channel

/-!
# The run of a remote call

A call whose reply `Arrives` runs through to what is read of the reply.  The invoker records the
metadata of that and the dispatcher hands it over as it is.
-/

namespace RpcGateway
namespace PeerChannel

variable {ω : Type}

/-- The reply to a call arrives: the call is not cancelled when it is sent, the peer has no hand in
its metadata, and the reply comes in time and before anything ends the call; `s` is the run when the
peer has taken the call, and `t` the moment of arrival. -/
structure Arrives (peer : Peer ω) (bounds : Bounds) (call : RemoteCall) (reply : WireResponse)
    (r s : Run ω) (t : Nat) : Prop where
  uncancelled : Wake.next? bounds r.now (some 0) true = some (r.now, .lapsed)
  answered : ∃ path delay,
    Uri.path call.method = .ok path ∧
    (peer ⟨path, requestLines call, framed call.payload⟩).run bounds r =
      (.finished (.answered (some delay) reply), s) ∧
    inTime (some delay) (Timeout.limit? (requestLines call)) = true ∧
    Wake.next? bounds s.now (some delay) true = some (t, .lapsed)
  untouched : s.outgoing = r.outgoing

/-- A call whose reply arrives comes to what is read of the reply. -/
theorem channel_run_of_arrives
    {peer : Peer ω} {bounds : Bounds} {call : RemoteCall} {reply : WireResponse}
    {r s : Run ω} {t : Nat}
    (h : Arrives peer bounds call reply r s t) :
    (channel peer call).run bounds r = (.finished (readAnswer reply), { s with now := t }) := by
  obtain ⟨path, delay, hpath, hpeer, htime, hwake⟩ := h.answered
  have hcheck : (Activity.isCancelled : Activity ω Bool).run bounds r = (.finished false, r) := by
    unfold Activity.isCancelled
    rw [Activity.run_wait h.uncancelled]
    rfl
  have hawait : (await (Timeout.limit? (requestLines call)) (.answered (some delay) reply)).run
      bounds s = (.finished (readAnswer reply), { s with now := t }) := by
    unfold await
    simp only [htime, if_true]
    rw [Activity.run_wait hwake]
    rfl
  unfold channel
  rw [Activity.run_bind_of_finished hcheck]
  unfold send
  simp only [hpath, Bool.false_eq_true, if_false]
  rw [Activity.run_bind_of_finished hpeer, hawait]

end PeerChannel

/-- A remote call runs its channel with the time that is left as the timeout. -/
theorem Invoker.remote_run_eq
    {ω : Type} (channel : Channel ω) (response : MessageType) (c : Context) (request : Message)
    (bounds : Bounds) (r : Run ω) :
    ((Invoker.remote channel response).invoke c request).run bounds r =
      Activity.proceed bounds
        (fun outcome => .record outcome.metadata (.done (readResponse response outcome.result)))
        ((channel ⟨c.method.fullMethod, request.toWire, c.incoming, c.remaining r.now⟩).run
          bounds r) :=
  Activity.run_bind bounds
    (channel ⟨c.method.fullMethod, request.toWire, c.incoming, c.remaining r.now⟩)
    (fun outcome => .record outcome.metadata (.done (readResponse response outcome.result))) r

/-- A remote call records the metadata of its outcome. -/
theorem Invoker.remote_run
    {ω : Type} {channel : Channel ω} {response : MessageType} {c : Context} {request : Message}
    {bounds : Bounds} {r s : Run ω} {outcome : RemoteOutcome}
    (h : (channel ⟨c.method.fullMethod, request.toWire, c.incoming, c.remaining r.now⟩).run
      bounds r = (.finished outcome, s)) :
    ((Invoker.remote channel response).invoke c request).run bounds r =
      (.finished (readResponse response outcome.result),
        { s with outgoing := s.outgoing.merge outcome.metadata }) := by
  rw [remote_run_eq, h]
  rfl

/-- A call that comes to a reply hands over the metadata that is there, in the shape of its mode. -/
theorem Dispatcher.outgoing_bind_run
    {ω : Type} (d : Dispatcher ω) (c : Context) (reply : Reply) (bounds : Bounds) (r : Run ω) :
    ((d.outgoing c).bind fun m => .done (⟨reply, m⟩ : Dispatched)).run bounds r =
      (.finished ⟨reply, d.shape c.method.fullMethod r.outgoing⟩,
        { r with outgoing := .empty }) := by
  rfl

/-- For a method that is served remotely, what was recorded is handed over as it is. -/
theorem Dispatcher.outgoing_run
    {ω : Type} {d : Dispatcher ω} {channel : Channel ω} {response : MessageType} {info : MethodInfo}
    {c : Context}
    (hfound : d.registry.find? c.method.fullMethod = some ⟨info, .remote channel response⟩)
    (bounds : Bounds) (r : Run ω) :
    (d.outgoing c).run bounds r = (.finished r.outgoing, { r with outgoing := .empty }) := by
  have hshape : d.shape c.method.fullMethod r.outgoing = r.outgoing := by
    unfold shape
    rw [hfound]
    rfl
  change (Ending.finished (d.shape c.method.fullMethod r.outgoing), _) = _
  rw [hshape]

end RpcGateway
