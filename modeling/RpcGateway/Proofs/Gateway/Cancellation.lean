import RpcGateway.Proofs.Call.Prompt
import RpcGateway.Proofs.Call.Recording
import RpcGateway.Proofs.Gateway.Agreement

/-!
# Cancellation of remote calls

When the caller of a request cancels, the channel that carries the call is told before the request
is over.

**Interceptors.**  An interceptor that awaits nothing but the rest of the chain is prompt before and
after it.  It may hand on any message, or answer the call itself.

**Results.**  `cancellation_reaches_channel`: a channel that hangs until it is told of the
cancellation comes to its end behind such interceptors, and the request is cancelled without a
response.  A channel to a peer that is called with a token that has fired fails at once, and nothing
is sent.
-/

namespace RpcGateway

variable {ω : Type}

/-- An interceptor that takes no time of its own. -/
structure Interceptor.OnlyAwaitsNext (stage : Interceptor ω) : Prop where
  enter : ∀ c request, (stage.enter c request).Prompt
  after : ∀ bounds c request r next after s,
    (stage.enter c request).run bounds r = (.finished (.proceed next after), s) →
    ∀ reply, (after reply).Prompt

theorem Interceptor.onlyAwaitsNext_callLog :
    (callLog : Interceptor ω).OnlyAwaitsNext where
  enter _ _ := .note (.done _)
  after bounds c request r next after s h reply := by
    cases h
    exact .note (.done _)

/-- A run that finishes when the call is cancelled, with an entry that says so. -/
def EndsObserved {α : Type} (bounds : Bounds) (entry : Mark) (time : Nat) (a : Activity ω α)
    (r : Run ω) : Prop :=
  ∃ value s, a.run bounds r = (.finished value, s) ∧ Run.Observes entry time r s

section Calls

variable {bounds : Bounds} {entry : Mark} {time : Nat} {c : Context} {r s : Run ω}

theorem EndsObserved.bind
    {α β : Type} {a : Activity ω α} {f : α → Activity ω β}
    (h : EndsObserved bounds entry time a r)
    (hprompt : ∀ value s, a.run bounds r = (.finished value, s) → (f value).Prompt) :
    EndsObserved bounds entry time (a.bind f) r := by
  obtain ⟨value, s, hrun, hobserves⟩ := h
  obtain ⟨value', t, hrest, hcontinues⟩ := (hprompt value s hrun).run_finishes bounds s
  exact ⟨value', t, (Activity.run_bind_of_finished hrun f).trans hrest,
    hobserves.continues hcontinues⟩

theorem EndsObserved.note
    {α : Type} {a : Activity ω α} {mark : Mark}
    (h : EndsObserved bounds entry time a (r.mark mark)) :
    EndsObserved bounds entry time (.note mark a) r := by
  obtain ⟨value, s, hrun, hobserves⟩ := h
  exact ⟨value, s, hrun, hobserves.of_continues (r.continues_mark mark)⟩

/-- A call that is observed at the end of a chain is observed through the chain. -/
theorem Interceptor.endsObserved_chain
    {innermost : Message → Activity ω Reply} {stages : List (Interceptor ω)} {request : Message}
    (hstages : ∀ stage ∈ stages, stage.OnlyAwaitsNext)
    (hreached : reached bounds c stages request r ≠ [])
    (hr : r.now ≤ time)
    (hinner : ∀ m s, s.now ≤ time → EndsObserved bounds entry time (innermost m) s) :
    EndsObserved bounds entry time (chain c innermost stages request) r := by
  induction stages generalizing request r with
  | nil => exact hinner request r hr
  | cons stage rest ih =>
      obtain ⟨hstage, hrest⟩ := List.forall_mem_cons.mp hstages
      refine EndsObserved.note ?_
      obtain ⟨verdict, s, hrun, hcontinues⟩ :=
        (hstage.enter c request).run_finishes bounds (r.mark (.entered stage.name))
      rw [reached, hrun] at hreached
      cases verdict with
      | answer reply => exact absurd rfl hreached
      | proceed next after =>
          have hs : s.now ≤ time := by
            rw [hcontinues.now]
            exact hr
          obtain ⟨reply, t, hchain, hobserves⟩ :=
            (ih hrest hreached hs).bind fun reply _ _ => hstage.after _ _ _ _ _ _ _ hrun reply
          exact ⟨reply, t, (Activity.run_bind_of_finished hrun _).trans hchain,
            hobserves.of_continues hcontinues⟩

theorem Invoker.endsObserved_remote
    {channel : Channel ω} {response : MessageType}
    (hchannel : ∀ call, (channel call).Hanging entry)
    (hcancels : bounds.cancelsAt = some time) (hleaves : bounds.leavesAt = some time)
    (hdeadline : ∀ d, bounds.deadline = some d → time ≤ Timer.due d)
    (m : Message) (hr : r.now ≤ time) :
    EndsObserved bounds entry time ((remote channel response).invoke c m) r := by
  obtain ⟨outcome, s, hrun, hobserves⟩ :=
    (hchannel ⟨c.method.fullMethod, m.toWire, c.incoming, c.remaining r.now⟩).run_observes
      hcancels hleaves hdeadline r hr
  exact ⟨_, _, remote_run hrun, hobserves.continues (Run.Continues.of_eq (.refl _) rfl rfl rfl)⟩

theorem Dispatcher.endsObserved_dispatch
    {d : Dispatcher ω} {info : MethodInfo} {channel : Channel ω} {response : MessageType}
    {request : Message}
    (hentry : d.registry.find? c.method.fullMethod = some ⟨info, .remote channel response⟩)
    (hstages : ∀ stage ∈ d.interceptors, stage.OnlyAwaitsNext)
    (hreached : Interceptor.reached bounds c d.interceptors request r ≠ [])
    (hchannel : ∀ call, (channel call).Hanging entry)
    (hcancels : bounds.cancelsAt = some time) (hleaves : bounds.leavesAt = some time)
    (hdeadline : ∀ deadline, bounds.deadline = some deadline → time ≤ Timer.due deadline)
    (hr : r.now ≤ time) :
    EndsObserved bounds entry time (d.dispatch c request) r := by
  have hchain : EndsObserved bounds entry time
      (Interceptor.chain c
        (fun m => .note (.invoked c.method.fullMethod)
          ((Invoker.remote channel response).invoke c m)) d.interceptors request) r := by
    refine Interceptor.endsObserved_chain hstages hreached hr fun m s hs => ?_
    exact EndsObserved.note
      (Invoker.endsObserved_remote (r := s.mark _) hchannel hcancels hleaves hdeadline m hs)
  rw [dispatch, hentry]
  exact hchain.bind fun reply _ _ => .take fun m => .done _

end Calls

namespace Gateway

variable {g : Gateway ω} {request : Request} {r s : Run ω} {c : Context} {message : Message}

theorem continues_runHooks
    (c : Context) (reply : Message) (hooks : List (ResponseHook ω)) (headers : HeaderMap)
    (r : Run ω) :
    r.Continues (runHooks c reply hooks headers r).2 := by
  induction hooks generalizing headers r with
  | nil => exact .refl r
  | cons hook rest ih =>
      have hmark := r.continues_mark (.hooked hook.name)
      simp only [runHooks]
      split
      next more world _ =>
        exact hmark.trans ((ih more _).of_eq rfl rfl rfl)
      next => exact hmark.trans (Run.Continues.of_eq (.refl _) rfl rfl rfl)

theorem continues_conclude
    (g : Gateway ω) (c : Context) (d : Dispatched) (s : Run ω) :
    s.Continues (g.conclude c d s).2 := by
  have hreach := s.continues_mark (.reached .dispatched)
  simp only [conclude]
  cases hreply : d.reply with
  | error status => exact hreach.trans (Run.continues_mark _ _)
  | ok reply =>
      have hhooks := continues_runHooks c reply g.hooks .empty (s.reach .dispatched)
      cases hrun : runHooks c reply g.hooks .empty (s.reach .dispatched) with
      | mk result t =>
          rw [hrun] at hhooks
          simp only [hrun]
          cases result with
          | error status => exact hreach.trans hhooks
          | ok headers => exact hreach.trans (hhooks.trans (Run.continues_mark _ _))

/-- A hanging channel carries the call of a request, behind interceptors that let a message through
and take no time of their own. -/
structure Carries (g : Gateway ω) (request : Request) (caller : Caller) (r : Run ω) (c : Context)
    (message : Message) (channel : Channel ω) (entry : Mark) : Prop where
  ready : g.Ready request r.now c message
  bound : ∃ info response,
    g.dispatcher.registry.find? c.method.fullMethod = some ⟨info, .remote channel response⟩
  stages : ∀ stage ∈ g.dispatcher.interceptors, stage.OnlyAwaitsNext
  reached : Interceptor.reached (caller.bounds c.deadline) c g.dispatcher.interceptors message
    (r.calling caller) ≠ []
  hangs : ∀ call, (channel call).Hanging entry

/-- The call is not dropped when the caller cancels: it comes to its end. -/
theorem exists_callEnds_of_carries
    {span : Nat} {channel : Channel ω} {entry : Mark}
    (h : g.Carries request (.cancelling (r.now + span)) r c message channel entry)
    (hdeadline : ∀ deadline, c.deadline = some deadline → r.now + span < deadline) :
    ∃ d s,
      g.CallEnds request (.cancelling (r.now + span)) r c message (.finished d) s ∧
      Run.Observes entry (r.now + span) (r.calling (.cancelling (r.now + span))) s := by
  obtain ⟨info, response, hentry⟩ := h.bound
  have hlater : ∀ deadline,
      ((Caller.cancelling (r.now + span)).bounds c.deadline).deadline = some deadline →
      r.now + span ≤ Timer.due deadline :=
    fun deadline hd =>
      Nat.le_trans (Nat.le_of_lt (hdeadline deadline hd)) (Timer.le_due deadline)
  obtain ⟨d, s, hrun, hobserves⟩ := Dispatcher.endsObserved_dispatch hentry h.stages h.reached
    h.hangs rfl rfl hlater (Nat.le_add_right r.now span)
  exact ⟨d, s, ⟨h.ready, hrun⟩, hobserves⟩

end Gateway

namespace PeerChannel

/-- A call whose token has fired is not sent. -/
theorem channel_run_of_fired
    {bounds : Bounds} {time : Nat} {s : Run ω}
    (hcancels : bounds.cancelsAt = some time) (hfired : time ≤ s.now)
    (peer : Peer ω) (call : RemoteCall) :
    (channel peer call).run bounds s = (.finished (.failure .cancellation), s.tell s.now) := by
  have hnext := Wake.next?_of_fired hcancels hfired (some 0)
  unfold channel Activity.isCancelled
  rw [Activity.bind, Activity.run_wait hnext]
  rfl

end PeerChannel

/-- A peer that keeps the requests that reach it. -/
def Peer.recorded (peer : Peer ω) : Peer (ω × List WireRequest) := fun q =>
  .recording q ((peer q).beside _)

namespace Gateway

/-- **Cancellation.**  A caller that cancels while a hanging channel carries its call gets no
response, and the channel is told before.  A channel to a peer whose call has been cancelled before
it is made fails at once: no request reaches the peer, and which peer it is makes no difference. -/
theorem cancellation_reaches_channel
    (g : Gateway ω) (request : Request) (r : Run ω) :
    (∀ (span : Nat) (c : Context) (message : Message) (channel : Channel ω) (entry : Mark),
      g.Carries request (.cancelling (r.now + span)) r c message channel entry →
      (∀ deadline, c.deadline = some deadline → r.now + span < deadline) →
      (∃ d s, g.CallEnds request (.cancelling (r.now + span)) r c message (.finished d) s) ∧
      ∃ s before behind,
        g.handle request (.cancelling (r.now + span)) r = (some ⟨.cancelled, none⟩, s) ∧
        s.now = r.now + span ∧
        s.journal = (r.calling (.cancelling (r.now + span))).journal ++ before ++
          entry :: behind ++ [.reached .cancelled]) ∧
    (∀ (bounds : Bounds) (time : Nat) (peer : Peer ω) (call : RemoteCall) (s : Run ω)
        (seen : List WireRequest),
      bounds.cancelsAt = some time → time ≤ s.now →
      (PeerChannel.channel peer call).run bounds s =
        (.finished (.failure .cancellation), s.tell s.now) ∧
      ((PeerChannel.channel peer.recorded call).run bounds (s.beside seen)).2.world.2 = seen) ∧
    ∀ (fullMethod : String) (response : MessageType) (peer other : Peer ω),
      (g.rebind fullMethod (.remote (PeerChannel.channel peer) response)).handle request
          (.gone r.now) r =
        (g.rebind fullMethod (.remote (PeerChannel.channel other) response)).handle request
          (.gone r.now) r := by
  refine ⟨?_, ?_, ?_⟩
  · intro span c message channel entry h hdeadline
    obtain ⟨d, s, hends, hobserves⟩ := exists_callEnds_of_carries h hdeadline
    obtain ⟨before, behind, hjournal⟩ :=
      (hobserves.continues (g.continues_conclude c d s)).journal
    refine ⟨⟨d, s, hends⟩, (g.conclude c d s).2.reach .cancelled, before, behind, ?_, ?_, ?_⟩
    · rw [hends.handle_of_finished, hobserves.cancelled, if_pos rfl]
    · exact (g.continues_conclude c d s).now.trans hobserves.now
    · rw [← hjournal]
      rfl
  · intro bounds time peer call s seen hcancels hfired
    refine ⟨PeerChannel.channel_run_of_fired hcancels hfired peer call, ?_⟩
    rw [PeerChannel.channel_run_of_fired (s := s.beside seen) hcancels hfired, Run.beside_now,
      Run.tell_beside]
    rfl
  · intro fullMethod response peer other
    refine handle_rebind_congr rfl fun c _ _ _ m s hs => ?_
    have hcancels : ((Caller.gone r.now).bounds c.deadline).cancelsAt = some r.now := rfl
    rw [Invoker.remote_run_eq, Invoker.remote_run_eq,
      PeerChannel.channel_run_of_fired hcancels hs, PeerChannel.channel_run_of_fired hcancels hs]

/-- The line of the call log by which `attentive` says that it was told. -/
def told : Mark :=
  .logged ⟨"req", "/a.B/Get", .failed .cancelled "told"⟩

/-- A channel that waits until it is told of the cancellation, and then fails. -/
def attentive : Channel Unit := fun _ =>
  .wait none true fun _ => .note told (.done (.failure .cancellation))

/-- A gateway whose only method is called over `attentive`. -/
def carrying : Gateway Unit where
  routes := [⟨⟨.get, [], none, "/"⟩, ⟨"/a.B/Get", "GET /"⟩, .item⟩]
  dispatcher := ⟨⟨[⟨⟨"/a.B/Get", "GET /"⟩, .remote attentive .item⟩]⟩, [.callLog]⟩
  defaultTimeout := some 60000000

/-- A request to the only method of `carrying`. -/
def carried : Request :=
  ⟨"req", "GET", "/", .empty, [], none⟩

/-- The context of `carried`. -/
def carriedContext : Context :=
  carrying.context carried ⟨⟨.get, [], none, "/"⟩, ⟨"/a.B/Get", "GET /"⟩, .item⟩ [] 0
    (some 60000000)

theorem cancellation_reaches_channel_carrying :
    (∃ s before behind,
      carrying.handle carried (.cancelling 5000000) (Run.start 0 ()) =
        (some ⟨.cancelled, none⟩, s) ∧
      s.now = 5000000 ∧
      s.journal =
        ((Run.start 0 ()).calling (.cancelling 5000000)).journal ++ before ++
          told :: behind ++ [.reached .cancelled]) ∧
    ((PeerChannel.channel (Peer.silent (ω := Unit)).recorded ⟨"/a.B/Get", [], .empty, none⟩).run
      ⟨some 0, none, none⟩ ((Run.start 0 ()).beside [])).2.world.2 = [] := by
  obtain ⟨hhanging, hpeer, -⟩ := cancellation_reaches_channel carrying carried (Run.start 0 ())
  have hlead : carrying.LeadsTo carried
      ⟨⟨.get, [], none, "/"⟩, ⟨"/a.B/Get", "GET /"⟩, .item⟩ [] :=
    resolve_eq_some_iff.mp rfl
  have hcarries : carrying.Carries carried (.cancelling 5000000) (Run.start 0 ()) carriedContext
      (.zero .item) attentive told :=
    { ready := ⟨_, [], some 60000000, hlead, rfl, rfl, rfl⟩
      bound := ⟨_, _, rfl⟩
      stages := by
        intro stage hstage
        obtain rfl := List.mem_singleton.mp hstage
        exact Interceptor.onlyAwaitsNext_callLog
      reached := List.cons_ne_nil _ _
      hangs := fun _ => Activity.hanging_wait fun _ => .done _ }
  constructor
  · refine (hhanging 5000000 _ _ _ told hcarries ?_).2
    rintro deadline ⟨⟩
    decide
  · exact (hpeer ⟨some 0, none, none⟩ 0 .silent ⟨"/a.B/Get", [], .empty, none⟩ (Run.start 0 ()) []
      rfl (Nat.le_refl 0)).2

end Gateway
end RpcGateway
