import RpcGateway.Proofs.Call.Race
import RpcGateway.Proofs.Gateway.Agreement

/-!
# The race of a call

A call, its deadline and the cancellation of its caller race against each other.  The earliest of
the three decides what becomes of the request.

**Moments.**  `Activity.endsAt` is the moment at which the call would be over, `Context.expires`
that at which the timer of its deadline goes off, and `Firing.moment` that at which the token of the
caller fires.  `⊤` is never.

**Deadlines.**  `TimeLimit` is the time limit of a request.  The deadline is that much behind the
beginning of the call, and its timer goes off on the first whole millisecond from then.  What comes
up in the call at that very moment goes first: the call may still end, or add to its metadata.

**Results.**  `Race` says what becomes of the request in each of the three cases.  `deadline_race`
proves it of every call that does not heed cancellation, and that no channel is ever called with
another timeout than the time that is left.
-/

namespace RpcGateway

variable {ω : Type}

/-- A moment that may never come. -/
def moment : Option Nat → WithTop Nat
  | none => ⊤
  | some t => (t : WithTop Nat)

theorem moment_eq_coe_iff
    {m : Option Nat} {t : Nat} :
    moment m = (t : WithTop Nat) ↔ m = some t := by
  cases m with
  | none => exact iff_of_false WithTop.top_ne_coe nofun
  | some u => exact WithTop.coe_inj.trans Option.some_inj.symm

theorem le_of_le_moment
    {m : Option Nat} {t u : Nat}
    (h : (t : WithTop Nat) ≤ moment m) (hu : m = some u) :
    t ≤ u := by
  subst hu
  exact WithTop.coe_le_coe.mp h

theorem lt_of_lt_moment
    {m : Option Nat} {t u : Nat}
    (h : (t : WithTop Nat) < moment m) (hu : m = some u) :
    t < u := by
  subst hu
  exact WithTop.coe_lt_coe.mp h

/-- When the timer of the deadline goes off. -/
def Context.expires (c : Context) : WithTop Nat :=
  moment (c.deadline.map Timer.due)

/-- When the token fires, if the request is made now. -/
def Firing.moment (firing : Firing) (now : Nat) : WithTop Nat :=
  RpcGateway.moment (firing.time? now)

namespace Gateway

/-- The time limit of a request: what it brings, or else the default of the gateway. -/
inductive TimeLimit (g : Gateway ω) (headers : HeaderMap) : Option Nat → Prop
  | brought {raw : HeaderValue} {span : Nat}
      (hraw : headers.get? Timeout.headerName = some raw)
      (hspan : (HeaderValue.text? raw).bind Timeout.parse? = some span) :
      TimeLimit g headers (some span)
  | default
      (hnone : headers.get? Timeout.headerName = none) :
      TimeLimit g headers g.defaultTimeout

variable {g : Gateway ω} {request : Request} {firing : Firing} {r s : Run ω} {c : Context}
  {message : Message}

theorem TimeLimit.timeout_eq
    {headers : HeaderMap} {limit : Option Nat}
    (h : g.TimeLimit headers limit) :
    g.timeout headers = .ok limit := by
  cases h with
  | brought hraw hspan => simp only [timeout, hraw, hspan]
  | default hnone => simp only [timeout, hnone]

/-- The call of a request is cut short at a time, and everyone who waits for its cancellation is
told: `s` is the run at the end. -/
structure Stopped (g : Gateway ω) (request : Request) (caller : Caller) (r : Run ω) (c : Context)
    (message : Message) (ending : Ending Dispatched) (time : Nat) (s : Run ω) : Prop where
  now : s.now = time
  watchers : s.watchers = []
  world : ∃ cut : Run ω,
    g.CallEnds request caller r c message ending cut ∧
    s.world = cut.watchers.foldl (fun world change => change world) cut.world

/-- A response says that the deadline has passed and carries what was recorded, in the shape of the
invocation mode. -/
structure TellsExpiry (g : Gateway ω) (request : Request) (c : Context) (recorded : CallMetadata)
    (response : Response) : Prop where
  carries : ∃ entry,
    g.dispatcher.registry.find? c.method.fullMethod = some entry ∧
    response = errorResponse (g.codecs.outbound request.headers) deadlineStatus
      (entry.invoker.mode.shape recorded)
  status : ∀ body,
    (g.codecs.outbound request.headers).encode (ErrorEnvelope.ofStatus deadlineStatus).toValue =
      .ok body →
    response.status = 504 ∧ response.body = body

/-- What becomes of a request, by what comes first: the end of its call, the cancellation of its
caller or its deadline. -/
structure Race (g : Gateway ω) (request : Request) (firing : Firing) (r : Run ω) (c : Context)
    (message : Message) : Prop where
  /-- The call ends first or together with its deadline: it has its own result. -/
  finished : ∀ (d : Dispatched) (s : Run ω),
    (g.dispatcher.dispatch c message).run {} (r.calling (firing.caller r.now)) =
      (.finished d, s) →
    (s.now : WithTop Nat) ≤ c.expires →
    (s.now : WithTop Nat) < firing.moment r.now →
    g.handle request (firing.caller r.now) r =
      respond (g.conclude c d s).1 (g.codecs.outbound request.headers) (g.conclude c d s).2
  /-- The caller cancels first: there is no response. -/
  departed : ∀ time : Nat,
    firing.moment r.now = (time : WithTop Nat) →
    (time : WithTop Nat) <
      (g.dispatcher.dispatch c message).endsAt (r.calling (firing.caller r.now)) →
    (time : WithTop Nat) < c.expires →
    ∃ s : Run ω,
      g.handle request (firing.caller r.now) r = (some ⟨.cancelled, none⟩, s) ∧
      s.cancelled = true ∧
      g.Stopped request (firing.caller r.now) r c message .departed time s
  /-- The deadline comes first: the response says so, and the token of the caller is left alone. -/
  expired : ∀ time : Nat,
    c.expires = (time : WithTop Nat) →
    (time : WithTop Nat) <
      (g.dispatcher.dispatch c message).endsAt (r.calling (firing.caller r.now)) →
    (time : WithTop Nat) < firing.moment r.now →
    ∃ (response : Response) (s : Run ω),
      g.handle request (firing.caller r.now) r = (some ⟨.errorWritten, some response⟩, s) ∧
      g.TellsExpiry request c
        ((g.dispatcher.dispatch c message).recordedBy (r.calling (firing.caller r.now)) time)
        response ∧
      s.cancelled = false ∧
      g.Stopped request (firing.caller r.now) r c message .expired time s

/-!
## The end of the call comes first
-/

/-- A token that has not fired by the end of a call has not fired for the call. -/
theorem CallEnds.not_cancelled
    {ending : Ending Dispatched}
    (h : g.CallEnds request (firing.caller r.now) r c message ending s)
    (hlater : (s.now : WithTop Nat) < firing.moment r.now) :
    s.cancelled = false := by
  cases hcancelled : s.cancelled with
  | false => rfl
  | true =>
      obtain ⟨t, ht, hle⟩ := h.attests.come hcancelled
      exact absurd hle (Nat.not_le.mpr (lt_of_lt_moment hlater ht))

theorem leavesAt_eq
    (firing : Firing) (now : Nat) (deadline : Option Nat) :
    ((firing.caller now).bounds deadline).leavesAt = firing.time? now := by
  rw [firing.leavesAt_bounds, firing.cancelsAt_bounds]

theorem handle_of_heedless_finished
    {d : Dispatched}
    (hready : g.Ready request r.now c message)
    (hheedless : (g.dispatcher.dispatch c message).Heedless)
    (halone : (g.dispatcher.dispatch c message).run {} (r.calling (firing.caller r.now)) =
      (.finished d, s))
    (hexpires : (s.now : WithTop Nat) ≤ c.expires)
    (hfires : (s.now : WithTop Nat) < firing.moment r.now) :
    g.handle request (firing.caller r.now) r =
      respond (g.conclude c d s).1 (g.codecs.outbound request.headers) (g.conclude c d s).2 := by
  have hrun : (g.dispatcher.dispatch c message).run ((firing.caller r.now).bounds c.deadline)
      (r.calling (firing.caller r.now)) = (.finished d, s) := by
    refine hheedless.run_eq_of_finished halone ?_ ?_
    · intro m hm
      rw [leavesAt_eq] at hm
      exact Nat.le_of_lt (lt_of_lt_moment hfires hm)
    · intro deadline hdeadline
      have hd : c.deadline = some deadline := hdeadline
      exact le_of_le_moment hexpires (by rw [hd, Option.map_some])
  have hends : g.CallEnds request (firing.caller r.now) r c message (.finished d) s :=
    ⟨hready, hrun⟩
  rw [hends.handle_of_finished, hends.not_cancelled hfires, if_neg Bool.false_ne_true]

/-!
## The caller or the deadline comes first
-/

theorem now_le_of_time
    {time : Nat} (h : firing.time? r.now = some time) :
    r.now ≤ time := by
  cases firing with
  | never => cases h
  | before =>
      obtain rfl := Option.some.inj h
      exact Nat.le_refl _
  | after span =>
      obtain rfl := Option.some.inj h
      exact Nat.le_add_right _ _

theorem handle_of_heedless_departed
    {time : Nat}
    (hready : g.Ready request r.now c message)
    (hheedless : (g.dispatcher.dispatch c message).Heedless)
    (hfires : firing.moment r.now = (time : WithTop Nat))
    (hlasts : (time : WithTop Nat) <
      (g.dispatcher.dispatch c message).endsAt (r.calling (firing.caller r.now)))
    (hexpires : (time : WithTop Nat) < c.expires) :
    ∃ s : Run ω,
      g.handle request (firing.caller r.now) r = (some ⟨.cancelled, none⟩, s) ∧
      s.cancelled = true ∧
      g.Stopped request (firing.caller r.now) r c message .departed time s := by
  have htime : firing.time? r.now = some time := moment_eq_coe_iff.mp hfires
  have hnow : (r.calling (firing.caller r.now)).now ≤ time := now_le_of_time htime
  have hdeadline : ∀ deadline,
      ((firing.caller r.now).bounds c.deadline).deadline = some deadline →
      time ≤ Timer.due deadline := by
    intro deadline hd
    have hc : c.deadline = some deadline := hd
    exact Nat.le_of_lt (lt_of_lt_moment hexpires (by rw [hc, Option.map_some]))
  obtain ⟨cut, hrun⟩ := hheedless.run_departed
    ((leavesAt_eq firing r.now c.deadline).trans htime) hdeadline hnow hlasts
  have hends : g.CallEnds request (firing.caller r.now) r c message .departed _ := ⟨hready, hrun⟩
  have hcourse := Course.departed hends
  have hcancelled := hcourse.cancelled_of_departed
  refine ⟨(cut.leave time _).cancel.reach .cancelled, ?_, hcancelled, ⟨rfl, rfl, _, hends, rfl⟩⟩
  rw [hcourse.handle_eq (by simp), hcancelled, if_pos rfl]

/-- A method that nobody registered is answered at once. -/
theorem exists_entry_of_lt_endsAt
    {time : Nat} (hle : s.now ≤ time)
    (hlasts : (time : WithTop Nat) < (g.dispatcher.dispatch c message).endsAt s) :
    ∃ entry, g.dispatcher.registry.find? c.method.fullMethod = some entry := by
  cases hfind : g.dispatcher.registry.find? c.method.fullMethod with
  | some entry => exact ⟨entry, rfl⟩
  | none =>
      have hends : (g.dispatcher.dispatch c message).endsAt s = (s.now : WithTop Nat) := by
        simp only [Dispatcher.dispatch, hfind]
        rfl
      rw [hends] at hlasts
      exact absurd hle (Nat.not_le.mpr (WithTop.coe_lt_coe.mp hlasts))

theorem tellsExpiry_errorResponse
    {entry : MethodEntry ω}
    (hentry : g.dispatcher.registry.find? c.method.fullMethod = some entry)
    (request : Request) (recorded : CallMetadata) :
    g.TellsExpiry request c recorded
      (errorResponse (g.codecs.outbound request.headers) deadlineStatus
        (g.dispatcher.shape c.method.fullMethod recorded)) := by
  constructor
  · refine ⟨entry, hentry, ?_⟩
    simp only [Dispatcher.shape, hentry]
  · intro body hbody
    rcases tells_errorResponse (g.codecs.outbound request.headers) deadlineStatus
        (g.dispatcher.shape c.method.fullMethod recorded) with
      ⟨body', hbody', hstatus, hresponse⟩ | ⟨fault, hfault, -, -⟩
    · rw [hbody] at hbody'
      cases hbody'
      exact ⟨hstatus, hresponse⟩
    · rw [hbody] at hfault
      cases hfault

theorem handle_of_heedless_expired
    {time : Nat}
    (hready : g.Ready request r.now c message)
    (hheedless : (g.dispatcher.dispatch c message).Heedless)
    (hexpires : c.expires = (time : WithTop Nat))
    (hnow : (r.calling (firing.caller r.now)).now ≤ time)
    (hlasts : (time : WithTop Nat) <
      (g.dispatcher.dispatch c message).endsAt (r.calling (firing.caller r.now)))
    (hfires : (time : WithTop Nat) < firing.moment r.now) :
    ∃ (response : Response) (s : Run ω),
      g.handle request (firing.caller r.now) r = (some ⟨.errorWritten, some response⟩, s) ∧
      g.TellsExpiry request c
        ((g.dispatcher.dispatch c message).recordedBy (r.calling (firing.caller r.now)) time)
        response ∧
      s.cancelled = false ∧
      g.Stopped request (firing.caller r.now) r c message .expired time s := by
  obtain ⟨deadline, hdeadline, hdue⟩ :=
    Option.map_eq_some_iff.mp (moment_eq_coe_iff.mp hexpires)
  obtain ⟨entry, hentry⟩ := exists_entry_of_lt_endsAt hnow hlasts
  have hbound : ((firing.caller r.now).bounds c.deadline).deadline = some deadline := hdeadline
  have hleaves : ∀ m, ((firing.caller r.now).bounds c.deadline).leavesAt = some m → time < m := by
    intro m hm
    rw [leavesAt_eq] at hm
    exact lt_of_lt_moment hfires hm
  obtain ⟨cut, hrun, hcutnow, -, houtgoing⟩ :=
    hheedless.run_expired hbound hdue hleaves hnow hlasts
  have hends : g.CallEnds request (firing.caller r.now) r c message .expired cut :=
    ⟨hready, hrun⟩
  have hcancelled : cut.cancelled = false := by
    refine hends.not_cancelled ?_
    rw [hcutnow]
    exact hfires
  have hcourse := Course.expired hends
  rw [houtgoing] at hcourse
  refine ⟨_, { cut.cancel with outgoing := .empty }.reach .errorWritten, ?_,
    tellsExpiry_errorResponse hentry request _, hcancelled, ⟨hcutnow, rfl, cut, hends, rfl⟩⟩
  have hlive : cut.cancel.cancelled = false := hcancelled
  rw [hcourse.handle_eq (by simp), if_neg (by simp [hlive])]
  rfl

theorem race_of_heedless
    (hready : g.Ready request r.now c message)
    (hlater : ∀ deadline, c.deadline = some deadline → r.now ≤ deadline)
    (hheedless : (g.dispatcher.dispatch c message).Heedless) :
    g.Race request firing r c message := by
  constructor
  · intro d s halone hexpires hfires
    exact handle_of_heedless_finished hready hheedless halone hexpires hfires
  · intro time hfires hlasts hexpires
    exact handle_of_heedless_departed hready hheedless hfires hlasts hexpires
  · intro time hexpires hlasts hfires
    obtain ⟨deadline, hdeadline, hdue⟩ :=
      Option.map_eq_some_iff.mp (moment_eq_coe_iff.mp hexpires)
    have hnow : r.now ≤ time := by
      rw [← hdue]
      exact Nat.le_trans (hlater deadline hdeadline) (Timer.le_due deadline)
    exact handle_of_heedless_expired hready hheedless hexpires hnow hlasts hfires

/-!
## The timeout of a remote call
-/

/-- Two channels do the same on every call that is made from a time on with the time that is left as
its timeout, and no more than the limit. -/
def AlikeInTime (c : Context) (start : Nat) (limit : Option Nat) (bounds : Bounds)
    (channel other : Channel ω) : Prop :=
  ∀ (call : RemoteCall) (s : Run ω),
    start ≤ s.now →
    call.timeout = c.deadline.map (· - s.now) →
    (∀ most, limit = some most → ∃ left, call.timeout = some left ∧ left ≤ most) →
    (channel call).run bounds s = (other call).run bounds s

theorem remote_run_congr
    {start : Nat} {limit : Option Nat} {bounds : Bounds} {channel other : Channel ω}
    (hdeadline : c.deadline = limit.map (start + ·))
    (halike : AlikeInTime c start limit bounds channel other) (response : MessageType)
    (m : Message) (hs : start ≤ s.now) :
    ((Invoker.remote channel response).invoke c m).run bounds s =
      ((Invoker.remote other response).invoke c m).run bounds s := by
  have hcall :
      (channel ⟨c.method.fullMethod, m.toWire, c.incoming, c.remaining s.now⟩).run bounds s =
        (other ⟨c.method.fullMethod, m.toWire, c.incoming, c.remaining s.now⟩).run bounds s := by
    refine halike _ s hs rfl ?_
    rintro most rfl
    refine ⟨start + most - s.now, ?_, by omega⟩
    simp only [Context.remaining, hdeadline, Option.map_some]
  rw [Invoker.remote_run_eq, Invoker.remote_run_eq, hcall]

/-- **The race of a call.**  A call that does not heed cancellation has its own result, is cancelled
or runs into its deadline, by what comes first.  A channel is called with the time that is left as
its timeout: channels that do the same on such calls make no difference. -/
theorem deadline_race
    (g : Gateway ω) (request : Request) (firing : Firing) (r : Run ω)
    {route : Route} {params : PathParams} {limit : Option Nat} {message : Message}
    (hlead : g.LeadsTo request route params)
    (hlimit : g.TimeLimit request.headers limit)
    (hmessage : g.messageOf request route params = .ok message) :
    let c := g.context request route params r.now limit
    ((g.dispatcher.dispatch c message).Heedless → g.Race request firing r c message) ∧
    ∀ (channel other : Channel ω) (response : MessageType),
      AlikeInTime c r.now limit ((firing.caller r.now).bounds c.deadline) channel other →
      (g.rebind c.method.fullMethod (.remote channel response)).handle request
          (firing.caller r.now) r =
        (g.rebind c.method.fullMethod (.remote other response)).handle request
          (firing.caller r.now) r := by
  intro c
  have hready : g.Ready request r.now c message :=
    ⟨route, params, limit, hlead, hlimit.timeout_eq, hmessage, rfl⟩
  have hdeadline : c.deadline = limit.map (r.now + ·) := rfl
  refine ⟨race_of_heedless hready ?_, fun channel other response halike => ?_⟩
  · intro deadline hd
    rw [hdeadline] at hd
    obtain ⟨span, -, rfl⟩ := Option.map_eq_some_iff.mp hd
    exact Nat.le_add_right _ _
  · refine handle_rebind_congr rfl ?_
    intro c' message' hready' _ m s hs
    rw [(hready'.unique hready).1]
    exact remote_run_congr hdeadline halike response m hs

/-- A gateway whose only method waits, adds a line to the header, waits again and answers. -/
def pausing (first second limit : Nat) : Gateway Unit where
  routes := [⟨⟨.get, [], none, "/"⟩, ⟨"/a.B/Pause", "GET /"⟩, .item⟩]
  dispatcher :=
    ⟨⟨[⟨⟨"/a.B/Pause", "GET /"⟩,
      .inProcess .item fun _ m =>
        .wait (some first) false fun _ =>
          .record (CallMetadata.empty.withHeader "x-b" "1")
            (.wait (some second) false fun _ => .done (.ok m))⟩]⟩, []⟩
  defaultTimeout := some limit

/-- A request to the only method of `pausing`. -/
def pause : Request :=
  ⟨"req", "GET", "/", .empty, [], none⟩

/-- The context of `pause`. -/
def paused (limit : Nat) : Context :=
  (pausing 0 0 limit).context pause ⟨⟨.get, [], none, "/"⟩, ⟨"/a.B/Pause", "GET /"⟩, .item⟩ [] 0
    (some limit)

theorem heedless_pausing
    (first second limit : Nat) :
    ((pausing first second limit).dispatcher.dispatch (paused limit) (.zero .item)).Heedless := by
  exact .note (.wait rfl fun _ => .record (.wait rfl fun _ => .take fun _ => .done _))

/-- A channel that answers only in calls with a timeout of at most 30 ms. -/
def hasty : Channel Unit := fun call =>
  match call.timeout with
  | some left =>
      if left ≤ 30000000 then .done (.failure Status.cancellation)
      else .wait none true fun _ => .done (.failure Status.cancellation)
  | none => .wait none true fun _ => .done (.failure Status.cancellation)

theorem deadline_race_pausing :
    let g := pausing 20000000 20000000 30000000
    (∃ response s,
      g.handle pause .patient (Run.start 0 ()) = (some ⟨.errorWritten, some response⟩, s) ∧
      g.TellsExpiry pause (paused 30000000) (CallMetadata.empty.withHeader "x-b" "1") response ∧
      s.now = 30000000) ∧
    (∃ s,
      g.handle pause (.cancelling 5000000) (Run.start 0 ()) = (some ⟨.cancelled, none⟩, s) ∧
      s.now = 5000000) ∧
    (g.rebind "/a.B/Pause" (.remote hasty .item)).handle pause .patient (Run.start 0 ()) =
      (g.rebind "/a.B/Pause" (.remote (fun _ => .done (.failure Status.cancellation)) .item)).handle
        pause .patient (Run.start 0 ()) := by
  intro g
  have hlead : g.LeadsTo pause ⟨⟨.get, [], none, "/"⟩, ⟨"/a.B/Pause", "GET /"⟩, .item⟩ [] :=
    resolve_eq_some_iff.mp rfl
  have hexpires : (paused 30000000).expires = ((30000000 : Nat) : WithTop Nat) := by decide
  refine ⟨?_, ?_, ?_⟩
  · have hrace := (deadline_race g pause .never (Run.start 0 ()) hlead (.default rfl) rfl).1
      (heedless_pausing _ _ _)
    obtain ⟨response, s, hhandle, htells, -, hstopped⟩ := hrace.expired 30000000 hexpires
      (by decide) (WithTop.coe_lt_top _)
    have hrecorded : (g.dispatcher.dispatch (paused 30000000) (.zero .item)).recordedBy
        ((Run.start 0 ()).calling .patient) 30000000 =
        CallMetadata.empty.withHeader "x-b" "1" := by decide
    rw [← hrecorded]
    exact ⟨response, s, hhandle, htells, hstopped.now⟩
  · have hrace := (deadline_race g pause (.after 5000000) (Run.start 0 ()) hlead (.default rfl)
      rfl).1 (heedless_pausing _ _ _)
    obtain ⟨s, hhandle, -, hstopped⟩ := hrace.departed 5000000 (by decide) (by decide)
      (by decide)
    exact ⟨s, hhandle, hstopped.now⟩
  · refine (deadline_race g pause .never (Run.start 0 ()) hlead (.default rfl) rfl).2 hasty _ .item ?_
    intro call s _ _ hmost
    obtain ⟨left, hleft, hle⟩ := hmost 30000000 rfl
    simp only [hasty, hleft, if_pos hle]

/-- A deadline within a millisecond passes at its end, when the call is over, and metadata that is
recorded when the deadline passes is handed over. -/
theorem race_on_whole_milliseconds :
    (∃ d s response,
      ((pausing 1000000 0 500000).dispatcher.dispatch (paused 500000) (.zero .item)).run {}
        ((Run.start 0 ()).calling .patient) = (.finished d, s) ∧
      (pausing 1000000 0 500000).timeout pause.headers = .ok (some 500000) ∧
      500000 < s.now ∧
      ((pausing 1000000 0 500000).handle pause .patient (Run.start 0 ())).1 =
        some ⟨.forwarded, some response⟩ ∧
      response.status = 200) ∧
    ∃ response,
      ((pausing 50000000 20000000 50000000).dispatcher.dispatch (paused 50000000)
        (.zero .item)).timeline ((Run.start 0 ()).calling .patient) =
        [(50000000, some (CallMetadata.empty.withHeader "x-b" "1")), (70000000, none)] ∧
      ((pausing 50000000 20000000 50000000).handle pause .patient (Run.start 0 ())).1 =
        some ⟨.errorWritten, some response⟩ ∧
      response.headers.get? "x-b" = some (Utf8.bytes "1") := by
  refine ⟨⟨_, _, _, rfl, rfl, by decide, rfl, rfl⟩, ⟨_, rfl, rfl, rfl⟩⟩

end Gateway
end RpcGateway
