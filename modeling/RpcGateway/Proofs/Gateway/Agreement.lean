import RpcGateway.Proofs.Dispatch.Implementation
import RpcGateway.Proofs.Gateway.Outcome
import RpcGateway.Proofs.Message.Decoding

/-!
# An implementation behind a gateway

It makes no difference to a request whether the implementation of its method is called in process or
over a channel, but for one thing: in process, trailer lines come out as header lines.

**Rebinding.**  `Gateway.rebind` gives a method another invoker and leaves everything else.

**Chains.**  What gets through a chain to its end does not depend on what is there.  `reached` is
the message that does, if any; two chains run alike if their ends run alike on it.

**Result.**  `locally_remotely_agree` compares the two ways of calling an implementation on a
request for which nothing but values of the method's request type get through to its invoker, and
says when that is so: if the routes of the method read its request type and no interceptor hands on
anything else (`isValue_of_getsThrough`).  An interceptor that does makes a difference: in process
the types are compared, over a channel the bytes are read as another message.
-/

namespace RpcGateway

variable {ω : Type}

/-!
## Rebinding
-/

/-- Gives a method another invoker. -/
def Registry.rebind (r : Registry ω) (fullMethod : String) (invoker : Invoker ω) : Registry ω :=
  ⟨r.entries.map fun e =>
    if e.info.fullMethod = fullMethod then { e with invoker := invoker } else e⟩

def Dispatcher.rebind (d : Dispatcher ω) (fullMethod : String) (invoker : Invoker ω) :
    Dispatcher ω :=
  { d with registry := d.registry.rebind fullMethod invoker }

def Gateway.rebind (g : Gateway ω) (fullMethod : String) (invoker : Invoker ω) : Gateway ω :=
  { g with dispatcher := g.dispatcher.rebind fullMethod invoker }

theorem Registry.find?_rebind
    (r : Registry ω) (fullMethod : String) (invoker : Invoker ω) (name : String) :
    (r.rebind fullMethod invoker).find? name =
      (r.find? name).map fun e =>
        if name = fullMethod then { e with invoker := invoker } else e := by
  unfold find? rebind
  rw [List.find?_map]
  have hname : ((fun e : MethodEntry ω => e.info.fullMethod == name) ∘ fun e =>
      if e.info.fullMethod = fullMethod then { e with invoker := invoker } else e) =
      fun e => e.info.fullMethod == name := by
    funext e
    simp only [Function.comp_apply]
    split <;> rfl
  rw [hname]
  cases hfound : r.entries.find? fun e => e.info.fullMethod == name with
  | none => rfl
  | some e =>
      have heq : e.info.fullMethod = name := by simpa using List.find?_some hfound
      simp only [Option.map_some, heq]

namespace Interceptor

/-- What gets through stages, if anything does: the message that the last of them hands on. -/
def reached (bounds : Bounds) (c : Context) :
    List (Interceptor ω) → Message → Run ω → List Message
  | [], request, _ => [request]
  | stage :: rest, request, r =>
      match (stage.enter c request).run bounds (r.mark (.entered stage.name)) with
      | (.finished (.proceed next _), s) => reached bounds c rest next s
      | _ => []

/-- An interceptor that is entered with a message of a kind hands on nothing but such messages. -/
def Keeps (stage : Interceptor ω) (kind : Message → Prop) : Prop :=
  ∀ bounds c request r next after s,
    kind request →
    (stage.enter c request).run bounds r = (.finished (.proceed next after), s) →
    kind next

theorem reached_of_keeps
    {kind : Message → Prop} {bounds : Bounds} {c : Context} {stages : List (Interceptor ω)}
    {request m : Message} {r : Run ω}
    (hkeeps : ∀ stage ∈ stages, stage.Keeps kind) (hrequest : kind request)
    (hm : m ∈ reached bounds c stages request r) :
    kind m := by
  induction stages generalizing request r with
  | nil =>
      obtain rfl := List.mem_singleton.mp hm
      exact hrequest
  | cons stage rest ih =>
      rw [reached] at hm
      split at hm
      next next after s henter =>
        have hnext := hkeeps stage (List.mem_cons_self ..) _ _ _ _ _ _ _ hrequest henter
        exact ih (fun other hother => hkeeps other (List.mem_cons_of_mem _ hother)) hnext hm
      next => cases hm

/-- Chains run alike if their ends run alike on what gets through, whenever that is. -/
theorem chain_run_congr
    {bounds : Bounds} {c : Context} {a b : Message → Activity ω Reply}
    {stages : List (Interceptor ω)} {request : Message} {r : Run ω}
    (h : ∀ m ∈ reached bounds c stages request r, ∀ s, r.now ≤ s.now →
      (a m).run bounds s = (b m).run bounds s) :
    (chain c a stages request).run bounds r = (chain c b stages request).run bounds r := by
  induction stages generalizing request r with
  | nil => exact h request (List.mem_singleton.mpr rfl) r (Nat.le_refl _)
  | cons stage rest ih =>
      rw [reached] at h
      have hlater := Activity.now_le_run bounds (stage.enter c request)
        (r.mark (.entered stage.name))
      simp only [chain, Activity.run, Activity.run_bind]
      cases henter : (stage.enter c request).run bounds (r.mark (.entered stage.name)) with
      | mk ending s =>
          cases ending with
          | departed => rfl
          | expired => rfl
          | stalled => rfl
          | finished verdict =>
              cases verdict with
              | answer reply => rfl
              | proceed next after =>
                  rw [henter] at h hlater
                  have hrest := ih fun m hm t ht => h m hm t (Nat.le_trans hlater ht)
                  simp only [Activity.proceed, Activity.run_bind, hrest]

end Interceptor

/-!
## Calls
-/

def Dispatched.collapsed (d : Dispatched) : Dispatched :=
  ⟨d.reply, d.metadata.collapsed⟩

def Ending.map {α β : Type} (f : α → β) : Ending α → Ending β
  | .finished value => .finished (f value)
  | .departed => .departed
  | .expired => .expired
  | .stalled => .stalled

namespace Dispatcher

variable {d : Dispatcher ω} {c : Context} {fullMethod : String} {entry : MethodEntry ω}
  {here there : Invoker ω} {bounds : Bounds} {request : Message} {r : Run ω}

theorem shape_rebind
    (h : d.registry.find? fullMethod = some entry) (m : CallMetadata) :
    (d.rebind fullMethod here).shape fullMethod m = here.mode.shape m := by
  simp only [shape, rebind, Registry.find?_rebind, h, Option.map_some, if_true]

/-- Another method is called as before. -/
theorem dispatch_rebind_of_ne
    (hne : c.method.fullMethod ≠ fullMethod) :
    (d.rebind fullMethod here).dispatch c request = d.dispatch c request := by
  have hfind : (d.rebind fullMethod here).registry.find? c.method.fullMethod =
      d.registry.find? c.method.fullMethod := by
    simp only [rebind, Registry.find?_rebind, if_neg hne, Option.map_id']
  unfold dispatch outgoing shape
  rw [hfind]
  rfl

theorem shape_rebind_of_ne
    {name : String}
    (hne : name ≠ fullMethod) (m : CallMetadata) :
    (d.rebind fullMethod here).shape name m = d.shape name m := by
  simp only [shape, rebind, Registry.find?_rebind, if_neg hne, Option.map_id']

theorem dispatch_rebind
    (h : d.registry.find? c.method.fullMethod = some entry) :
    (d.rebind c.method.fullMethod here).dispatch c request =
      (Interceptor.chain c
        (fun m => .note (.invoked c.method.fullMethod) (here.invoke c m))
        d.interceptors request).bind fun reply =>
          ((d.rebind c.method.fullMethod here).outgoing c).bind fun m => .done ⟨reply, m⟩ := by
  simp only [dispatch, rebind, Registry.find?_rebind, h, Option.map_some, if_true]

/-- A method whose two invokers run alike on what gets through to them is called alike, but for the
shape of its metadata. -/
theorem dispatch_rebind_run
    (h : d.registry.find? c.method.fullMethod = some entry)
    (hhere : here.mode = .inProcess) (hthere : there.mode = .remote)
    (halike : ∀ m ∈ Interceptor.reached bounds c d.interceptors request r,
      ∀ s, (here.invoke c m).run bounds s = (there.invoke c m).run bounds s) :
    ((d.rebind c.method.fullMethod here).dispatch c request).run bounds r =
      ((((d.rebind c.method.fullMethod there).dispatch c request).run bounds r).1.map
        Dispatched.collapsed,
        (((d.rebind c.method.fullMethod there).dispatch c request).run bounds r).2) := by
  have hchain : (Interceptor.chain c
      (fun m => .note (.invoked c.method.fullMethod) (here.invoke c m))
      d.interceptors request).run bounds r =
      (Interceptor.chain c (fun m => .note (.invoked c.method.fullMethod) (there.invoke c m))
        d.interceptors request).run bounds r :=
    Interceptor.chain_run_congr fun m hm s _ =>
      halike m hm (s.mark (.invoked c.method.fullMethod))
  rw [dispatch_rebind h, dispatch_rebind h, Activity.run_bind, Activity.run_bind, hchain]
  generalize (Interceptor.chain c
    (fun m => .note (.invoked c.method.fullMethod) (there.invoke c m))
    d.interceptors request).run bounds r = done
  obtain ⟨ending, s⟩ := done
  cases ending with
  | departed => rfl
  | expired => rfl
  | stalled => rfl
  | finished reply =>
      simp only [Activity.proceed, outgoing_bind_run, shape_rebind h, hhere, hthere]
      rfl

theorem shape_rebind_congr
    (hmode : here.mode = there.mode) (m : CallMetadata) :
    (d.rebind fullMethod here).shape fullMethod m =
      (d.rebind fullMethod there).shape fullMethod m := by
  simp only [shape, rebind, Registry.find?_rebind, if_true]
  cases d.registry.find? fullMethod with
  | none => rfl
  | some entry => simp only [Option.map_some, hmode]

/-- A method is called alike through invokers of one mode that run alike from now on. -/
theorem dispatch_rebind_congr
    (hmode : here.mode = there.mode)
    (halike : ∀ m s, r.now ≤ s.now →
      (here.invoke c m).run bounds s = (there.invoke c m).run bounds s) :
    ((d.rebind c.method.fullMethod here).dispatch c request).run bounds r =
      ((d.rebind c.method.fullMethod there).dispatch c request).run bounds r := by
  cases hfind : d.registry.find? c.method.fullMethod with
  | none => simp only [dispatch, rebind, Registry.find?_rebind, hfind, Option.map_none]
  | some entry =>
      have hchain : (Interceptor.chain c
          (fun m => .note (.invoked c.method.fullMethod) (here.invoke c m))
          d.interceptors request).run bounds r =
          (Interceptor.chain c (fun m => .note (.invoked c.method.fullMethod) (there.invoke c m))
            d.interceptors request).run bounds r :=
        Interceptor.chain_run_congr fun m _ s hs =>
          halike m (s.mark (.invoked c.method.fullMethod)) hs
      rw [dispatch_rebind hfind, dispatch_rebind hfind, Activity.run_bind, Activity.run_bind,
        hchain]
      simp only [outgoing, shape_rebind_congr hmode]

end Dispatcher

/-!
## Requests
-/

namespace Gateway

/-- A message gets through to the invoker of a method when a request is served. -/
def GetsThrough (g : Gateway ω) (request : Request) (caller : Caller) (r : Run ω)
    (fullMethod : String) (m : Message) : Prop :=
  ∃ c message,
    g.Ready request r.now c message ∧
    c.method.fullMethod = fullMethod ∧
    m ∈ Interceptor.reached (caller.bounds c.deadline) c g.dispatcher.interceptors message
      (r.calling caller)

/-- Messages of the method's request type get through if its routes read them and every interceptor
hands on such messages. -/
theorem isValue_of_getsThrough
    {g : Gateway ω} {request : Request} {caller : Caller} {r : Run ω} {fullMethod : String}
    {requestType : MessageType} {m : Message}
    (hroutes : ∀ route ∈ g.routes, route.info.fullMethod = fullMethod → route.request = requestType)
    (hkeeps : ∀ stage ∈ g.dispatcher.interceptors,
      stage.Keeps fun m => m.type = requestType ∧ m.WellFormed)
    (h : g.GetsThrough request caller r fullMethod m) (hsmall : m.toWire.length < 2 ^ 64) :
    m.IsValue requestType := by
  obtain ⟨c, message, ⟨route, params, limit, hlead, -, hmessage, rfl⟩, hmethod, hm⟩ := h
  obtain ⟨before, after, hsplit, -, -⟩ := hlead
  have hroute : route.request = requestType :=
    hroutes route (hsplit ▸ List.mem_append_right _ (List.mem_cons_self ..)) hmethod
  have hread := hroute ▸ Codec.wellFormed_of_decodeMessage hmessage
  obtain ⟨htype, hwell⟩ := Interceptor.reached_of_keeps hkeeps hread hm
  exact ⟨htype, hwell, hsmall⟩

/-- Call metadata is what a request's call hands over. -/
inductive HandsOver (g : Gateway ω) (request : Request) (caller : Caller) (r : Run ω) :
    CallMetadata → Prop
  | finished {c : Context} {message : Message} {d : Dispatched} {s : Run ω}
      (h : g.CallEnds request caller r c message (.finished d) s) :
      HandsOver g request caller r d.metadata
  | expired {c : Context} {message : Message} {s : Run ω}
      (h : g.CallEnds request caller r c message .expired s) :
      HandsOver g request caller r (g.dispatcher.shape c.method.fullMethod s.outgoing)

/-- The lines that hooks have added when a request comes to a state; there are none, unless it is
forwarded. -/
def HookLines (g : Gateway ω) (state : RequestState) (lines : HeaderMap) : Prop :=
  (state ≠ .forwarded ∧ lines = .empty) ∨
    ∃ c reply s t, runHooks c reply g.hooks .empty s = (.ok lines, t)

/-- Two outcomes are the same, but that the metadata of the first is collapsed. -/
inductive Alike (g : Gateway ω) (codec : Codec) (metadata : CallMetadata → Prop) :
    Option Outcome → Option Outcome → Prop
  | stalled :
      Alike g codec metadata none none
  | silent (state : RequestState) :
      Alike g codec metadata (some ⟨state, none⟩) (some ⟨state, none⟩)
  | answered {md : CallMetadata} {state : RequestState} {lines : HeaderMap}
      (hmd : metadata md) (hlines : g.HookLines state lines) (status : Nat) (body : List UInt8) :
      Alike g codec metadata
        (some ⟨state,
          some ⟨status, setContentType (md.collapsed.writeLines lines) codec, body⟩⟩)
        (some ⟨state, some ⟨status, setContentType (md.writeLines lines) codec, body⟩⟩)

variable {g : Gateway ω} {request : Request} {caller : Caller} {r s : Run ω} {c : Context}
  {message : Message}

/-- With two invokers of a method a request is served alike: the runs are the same, and so are the
outcomes but for the metadata. -/
def ServedAlike (g : Gateway ω) (request : Request) (caller : Caller) (r : Run ω)
    (fullMethod : String) (here there : Invoker ω) : Prop :=
  ((g.rebind fullMethod here).handle request caller r).2 =
    ((g.rebind fullMethod there).handle request caller r).2 ∧
  Alike g (g.codecs.outbound request.headers)
    ((g.rebind fullMethod there).HandsOver request caller r)
    ((g.rebind fullMethod here).handle request caller r).1
    ((g.rebind fullMethod there).handle request caller r).1

section Rebound

variable {here there : Invoker ω} {entry : MethodEntry ω} {fullMethod : String}

/-- Two processings that end on the same run are compared by their responses. -/
theorem servedAlike_of_courses
    {result other : Except Exit Success}
    (hhere : (g.rebind fullMethod here).Course request caller r result s)
    (hthere : (g.rebind fullMethod there).Course request caller r other s)
    (hstalled : result ≠ .error .stalled) (hstalled' : other ≠ .error .stalled)
    (hrun : (respond result (g.codecs.outbound request.headers) s).2 =
      (respond other (g.codecs.outbound request.headers) s).2)
    (halike : Alike g (g.codecs.outbound request.headers)
      ((g.rebind fullMethod there).HandsOver request caller r)
      (respond result (g.codecs.outbound request.headers) s).1
      (respond other (g.codecs.outbound request.headers) s).1) :
    g.ServedAlike request caller r fullMethod here there := by
  unfold ServedAlike
  rw [hhere.handle_eq hstalled, hthere.handle_eq hstalled']
  cases s.cancelled with
  | true => exact ⟨rfl, .silent .cancelled⟩
  | false => exact ⟨hrun, halike⟩

theorem alike_failed
    {metadata : CallMetadata → Prop} {md : CallMetadata}
    (hmd : metadata md) (status : Status) (codec : Codec) (s : Run ω) :
    Alike g codec metadata (respond (.error (.failed status md.collapsed)) codec s).1
      (respond (.error (.failed status md)) codec s).1 :=
  .answered hmd (.inl ⟨by simp, rfl⟩) _ _

theorem alike_answered
    {metadata : CallMetadata → Prop} {md : CallMetadata} {reply : Message} {lines : HeaderMap}
    {t : Run ω}
    (hmd : metadata md) (hhooks : runHooks c reply g.hooks .empty s = (.ok lines, t))
    (codec : Codec) (u : Run ω) :
    (respond (.ok ⟨reply, md.collapsed, lines⟩) codec u).2 =
      (respond (.ok ⟨reply, md, lines⟩) codec u).2 ∧
    Alike g codec metadata (respond (.ok ⟨reply, md.collapsed, lines⟩) codec u).1
      (respond (.ok ⟨reply, md, lines⟩) codec u).1 := by
  simp only [respond, forward]
  cases writeBody codec reply with
  | error reason => exact ⟨rfl, .answered hmd (.inl ⟨by simp, rfl⟩) _ _⟩
  | ok body => exact ⟨rfl, .answered hmd (.inr ⟨_, _, _, _, hhooks⟩) _ _⟩

/-- A call that is over its deadline hands over what it has recorded so far. -/
theorem servedAlike_of_expired
    (hentry : g.dispatcher.registry.find? c.method.fullMethod = some entry)
    (hhere : here.mode = .inProcess) (hthere : there.mode = .remote)
    (h : (g.rebind c.method.fullMethod here).CallEnds request caller r c message .expired s)
    (h' : (g.rebind c.method.fullMethod there).CallEnds request caller r c message .expired s) :
    g.ServedAlike request caller r c.method.fullMethod here there := by
  have hshape : (g.dispatcher.rebind c.method.fullMethod here).shape c.method.fullMethod
      s.outgoing = s.outgoing.collapsed := by
    rw [Dispatcher.shape_rebind hentry, hhere]
    rfl
  have hshape' : (g.dispatcher.rebind c.method.fullMethod there).shape c.method.fullMethod
      s.outgoing = s.outgoing := by
    rw [Dispatcher.shape_rebind hentry, hthere]
    rfl
  have hcourse := Course.expired h
  have hcourse' := Course.expired h'
  have hmd := HandsOver.expired h'
  simp only [rebind, hshape, hshape'] at hcourse hcourse' hmd
  exact servedAlike_of_courses hcourse hcourse' (by simp) (by simp) rfl (alike_failed hmd _ _ _)

/-- A call that comes back goes on with the same reply. -/
theorem servedAlike_of_finished
    {d : Dispatched}
    (h : (g.rebind fullMethod here).CallEnds request caller r c message (.finished d.collapsed) s)
    (h' : (g.rebind fullMethod there).CallEnds request caller r c message (.finished d) s) :
    g.ServedAlike request caller r fullMethod here there := by
  have hmd := HandsOver.finished h'
  cases hreply : d.reply with
  | error status =>
      exact servedAlike_of_courses (.refused h hreply) (.refused h' hreply) (by simp) (by simp) rfl
        (alike_failed hmd _ _ _)
  | ok reply =>
      cases hhooks : runHooks c reply g.hooks .empty (s.reach .dispatched) with
      | mk result t =>
          cases result with
          | error status =>
              exact servedAlike_of_courses (.unhooked h hreply hhooks) (.unhooked h' hreply hhooks)
                (by simp) (by simp) rfl (alike_failed hmd _ _ _)
          | ok lines =>
              have hanswer := alike_answered (g := g) hmd hhooks
                (g.codecs.outbound request.headers) (t.reach .succeeded)
              exact servedAlike_of_courses (.answered h hreply hhooks) (.answered h' hreply hhooks)
                (by simp) (by simp) hanswer.1 hanswer.2

/-- A request that calls the method is served alike. -/
theorem servedAlike_of_ready
    (hready : g.Ready request r.now c message)
    (hentry : g.dispatcher.registry.find? c.method.fullMethod = some entry)
    (hhere : here.mode = .inProcess) (hthere : there.mode = .remote)
    (halike : ∀ m, g.GetsThrough request caller r c.method.fullMethod m →
      ∀ s, (here.invoke c m).run (caller.bounds c.deadline) s =
        (there.invoke c m).run (caller.bounds c.deadline) s) :
    g.ServedAlike request caller r c.method.fullMethod here there := by
  -- both calls end in the same way on the same run, so the processings go on side by side
  have hdispatch := Dispatcher.dispatch_rebind_run hentry hhere hthere
    fun m (hm : m ∈ Interceptor.reached _ c g.dispatcher.interceptors message (r.calling caller)) =>
      halike m ⟨c, message, hready, rfl, hm⟩
  cases hrun : ((g.dispatcher.rebind c.method.fullMethod there).dispatch c message).run
    (caller.bounds c.deadline) (r.calling caller) with
  | mk ending s =>
      rw [hrun] at hdispatch
      have hends : (g.rebind c.method.fullMethod there).CallEnds request caller r c message
          ending s := ⟨hready, hrun⟩
      have hends' : (g.rebind c.method.fullMethod here).CallEnds request caller r c message
          (ending.map Dispatched.collapsed) s := ⟨hready, hdispatch⟩
      cases ending with
      | stalled =>
          unfold ServedAlike
          rw [(Course.stalled hends').handle_of_stalled, (Course.stalled hends).handle_of_stalled]
          exact ⟨rfl, .stalled⟩
      | departed =>
          exact servedAlike_of_courses (.departed hends') (.departed hends) (by simp) (by simp) rfl
            (.silent .cancelled)
      | expired => exact servedAlike_of_expired hentry hhere hthere hends' hends
      | finished d => exact servedAlike_of_finished hends' hends

theorem CallEnds.rebind
    {ending : Ending Dispatched}
    (h : g.CallEnds request caller r c message ending s) (hne : c.method.fullMethod ≠ fullMethod)
    (here : Invoker ω) :
    (g.rebind fullMethod here).CallEnds request caller r c message ending s := by
  refine ⟨h.ready, ?_⟩
  have hdispatch : (g.rebind fullMethod here).dispatcher.dispatch c message =
      g.dispatcher.dispatch c message := Dispatcher.dispatch_rebind_of_ne hne
  rw [hdispatch]
  exact h.run_eq

/-- A request that does not call the method takes the same course. -/
theorem Course.rebind
    {result : Except Exit Success}
    (h : g.Course request caller r result s)
    (hne : ∀ c message, g.Ready request r.now c message → c.method.fullMethod ≠ fullMethod)
    (here : Invoker ω) :
    (g.rebind fullMethod here).Course request caller r result s := by
  cases h with
  | unrouted h => exact .unrouted h
  | untimed h hstatus => exact .untimed h hstatus
  | undecoded h => exact .undecoded h
  | departed h => exact .departed (h.rebind (hne _ _ h.ready) here)
  | stalled h => exact .stalled (h.rebind (hne _ _ h.ready) here)
  | @expired c message s h =>
      have hother := hne _ _ h.ready
      have hshape : (g.dispatcher.rebind fullMethod here).shape c.method.fullMethod s.outgoing =
          g.dispatcher.shape c.method.fullMethod s.outgoing :=
        Dispatcher.shape_rebind_of_ne hother s.outgoing
      have hcourse := Course.expired (h.rebind hother here)
      simp only [Gateway.rebind, hshape] at hcourse
      exact hcourse
  | refused h hreply => exact .refused (h.rebind (hne _ _ h.ready) here) hreply
  | unhooked h hreply hhooks =>
      exact .unhooked (h.rebind (hne _ _ h.ready) here) hreply hhooks
  | answered h hreply hhooks =>
      exact .answered (h.rebind (hne _ _ h.ready) here) hreply hhooks

/-- A request that does not call the method does not notice its invoker. -/
theorem handle_rebind_of_not_ready
    (hne : ∀ c message, g.Ready request r.now c message → c.method.fullMethod ≠ fullMethod)
    (here : Invoker ω) :
    (g.rebind fullMethod here).handle request caller r = g.handle request caller r := by
  have hcourse := course_process g request caller r
  generalize g.process request (g.codecs.inbound request.headers) caller (r.received caller) =
    processed at hcourse
  obtain ⟨result, s⟩ := processed
  have hcourse' := hcourse.rebind hne here
  by_cases hstalled : result = .error .stalled
  · subst hstalled
    rw [hcourse.handle_of_stalled, hcourse'.handle_of_stalled]
  · rw [hcourse.handle_eq hstalled, hcourse'.handle_eq hstalled]
    rfl

/-- A request does not tell invokers of one mode apart that run alike from its arrival on. -/
theorem handle_rebind_congr
    (hmode : here.mode = there.mode)
    (halike : ∀ c message, g.Ready request r.now c message → c.method.fullMethod = fullMethod →
      ∀ m s, r.now ≤ s.now →
        (here.invoke c m).run (caller.bounds c.deadline) s =
          (there.invoke c m).run (caller.bounds c.deadline) s) :
    (g.rebind fullMethod here).handle request caller r =
      (g.rebind fullMethod there).handle request caller r := by
  by_cases hready : ∃ c message, g.Ready request r.now c message ∧ c.method.fullMethod = fullMethod
  · obtain ⟨c, message, hready, rfl⟩ := hready
    have hdispatch :
        ((g.dispatcher.rebind c.method.fullMethod here).dispatch c message).run
            (caller.bounds c.deadline) (r.calling caller) =
          ((g.dispatcher.rebind c.method.fullMethod there).dispatch c message).run
            (caller.bounds c.deadline) (r.calling caller) :=
      Dispatcher.dispatch_rebind_congr hmode (halike c message hready rfl)
    have hcall : (g.rebind c.method.fullMethod here).call c message caller (r.calling caller) =
        (g.rebind c.method.fullMethod there).call c message caller (r.calling caller) := by
      simp only [call, rebind, hdispatch, Dispatcher.shape_rebind_congr hmode]
    have hends : (g.rebind c.method.fullMethod here).CallEnds request caller r c message _ _ :=
      ⟨hready, rfl⟩
    have hends' : (g.rebind c.method.fullMethod there).CallEnds request caller r c message _ _ :=
      ⟨hready, rfl⟩
    have hhere := process_of_ready hends
    have hthere := process_of_ready hends'
    rw [hcall] at hhere
    have hprocess := hhere.trans hthere.symm
    unfold Run.received at hprocess
    simp only [handle]
    rw [hprocess]
    rfl
  · have hne : ∀ c message, g.Ready request r.now c message → c.method.fullMethod ≠ fullMethod :=
      fun c message hc heq => hready ⟨c, message, hc, heq⟩
    rw [handle_rebind_of_not_ready hne, handle_rebind_of_not_ready hne]

end Rebound

/-- **An implementation called in process and over a channel.**  A request for which nothing but
values of the method's request type get through to its invoker leaves the same run either way.  If
it calls the method, its outcomes are the same but for the metadata, which is collapsed in process;
if it does not, they are the same.  Nothing else gets through if the routes of the method read its
request type and every interceptor that is given such a message hands on such a message. -/
theorem locally_remotely_agree
    (g : Gateway ω) (fullMethod : String) {requestType responseType : MessageType}
    (hrequest : requestType.isService = true) (hresponse : responseType.isService = true)
    (hbound : (g.dispatcher.registry.find? fullMethod).isSome = true)
    (h : Implementation) (refuse : Wire.Fault → RemoteOutcome)
    (hreplies : ∀ metadata m reply, m.IsValue requestType →
      (h metadata m).reply = .ok reply → reply.IsValue responseType)
    (request : Request) (caller : Caller) (r : Run ω) :
    let here := g.rebind fullMethod (h.locally requestType)
    let there := g.rebind fullMethod (h.remotely requestType responseType refuse)
    ((∀ m, g.GetsThrough request caller r fullMethod m → m.IsValue requestType) →
      (here.handle request caller r).2 = (there.handle request caller r).2 ∧
      ((∃ c message, g.Ready request r.now c message ∧ c.method.fullMethod = fullMethod) →
        Alike g (g.codecs.outbound request.headers) (there.HandsOver request caller r)
          (here.handle request caller r).1 (there.handle request caller r).1) ∧
      ((∀ c message, g.Ready request r.now c message → c.method.fullMethod ≠ fullMethod) →
        (here.handle request caller r).1 = (there.handle request caller r).1)) ∧
    ((∀ route ∈ g.routes, route.info.fullMethod = fullMethod → route.request = requestType) →
      (∀ stage ∈ g.dispatcher.interceptors,
        stage.Keeps fun m => m.type = requestType ∧ m.WellFormed) →
      ∀ m, g.GetsThrough request caller r fullMethod m → m.toWire.length < 2 ^ 64 →
        m.IsValue requestType) := by
  intro here there
  refine ⟨fun hvalues => ?_, fun hroutes hkeeps m hm hsmall =>
    isValue_of_getsThrough hroutes hkeeps hm hsmall⟩
  by_cases hready : ∃ c message, g.Ready request r.now c message ∧ c.method.fullMethod = fullMethod
  · obtain ⟨c, message, hready, rfl⟩ := hready
    obtain ⟨entry, hentry⟩ := Option.isSome_iff_exists.mp hbound
    have hruns : ∀ m, g.GetsThrough request caller r c.method.fullMethod m →
        ∀ s : Run ω, ((h.locally requestType).invoke c m).run (caller.bounds c.deadline) s =
          ((h.remotely requestType responseType refuse).invoke c m).run
            (caller.bounds c.deadline) s := by
      intro m hm s
      have hvalue : m.IsValue requestType := hvalues m hm
      rw [Implementation.locally_run hvalue, Implementation.remotely_run hvalue hrequest
        (fun reply hreply => hreplies _ m reply hvalue hreply) hresponse]
    have halike := servedAlike_of_ready hready hentry rfl rfl hruns
    exact ⟨halike.1, fun _ => halike.2, fun hne => absurd rfl (hne c message hready)⟩
  · have hne : ∀ c message, g.Ready request r.now c message → c.method.fullMethod ≠ fullMethod :=
      fun c message hc heq => hready ⟨c, message, hc, heq⟩
    have hsame : here.handle request caller r = there.handle request caller r := by
      rw [handle_rebind_of_not_ready hne, handle_rebind_of_not_ready hne]
    exact ⟨congrArg Prod.snd hsame, fun hc => absurd hc hready, fun _ => congrArg Prod.fst hsame⟩

/-- An implementation that finds no event, and says so in both parts of its metadata. -/
def eventless : Implementation := fun _ _ =>
  ⟨.ok (.zero .getEventResponse), [.header "x-h" "1", .trailer "x-t" "2"]⟩

/-- A gateway with one method, through some interceptors. -/
def lookingUp (stages : List (Interceptor Unit)) : Gateway Unit where
  routes := [⟨⟨.get, [], none, "/"⟩, ⟨"/a.B/Get", "GET /"⟩, .getEventRequest⟩]
  dispatcher :=
    ⟨⟨[⟨⟨"/a.B/Get", "GET /"⟩, eventless.locally .getEventRequest⟩]⟩, stages⟩

/-- A request that calls the method of `lookingUp`. -/
def lookUp : Request :=
  ⟨"req", "GET", "/", .empty, [], none⟩

/-- An interceptor that hands on a message of another type, whatever it is given. -/
def swapping : Interceptor Unit :=
  ⟨"swap", fun _ _ => .done (.proceed (.zero .fetchRequest) .done)⟩

theorem isValue_zero_getEventResponse :
    (Message.zero .getEventResponse).IsValue .getEventResponse :=
  ⟨rfl, ⟨1, .cons (.absent _) .nil⟩, by decide⟩

theorem locally_remotely_agree_lookUp :
    (∃ c message, (lookingUp []).Ready lookUp 0 c message ∧ c.method.fullMethod = "/a.B/Get") ∧
    Alike (lookingUp []) ((lookingUp []).codecs.outbound lookUp.headers)
      (((lookingUp []).rebind "/a.B/Get"
        (eventless.remotely .getEventRequest .getEventResponse fun _ =>
          .failure .cancellation)).HandsOver lookUp .patient (Run.start 0 ()))
      (((lookingUp []).rebind "/a.B/Get"
        (eventless.locally .getEventRequest)).handle lookUp .patient (Run.start 0 ())).1
      (((lookingUp []).rebind "/a.B/Get"
        (eventless.remotely .getEventRequest .getEventResponse fun _ =>
          .failure .cancellation)).handle lookUp .patient (Run.start 0 ())).1 := by
  have hcalls : ∃ c message,
      (lookingUp []).Ready lookUp 0 c message ∧ c.method.fullMethod = "/a.B/Get" :=
    ⟨_, _, ⟨_, _, _, resolve_eq_some_iff.mp rfl, rfl, rfl, rfl⟩, rfl⟩
  have hreplies : ∀ metadata m reply, m.IsValue .getEventRequest →
      (eventless metadata m).reply = .ok reply → reply.IsValue .getEventResponse := by
    intro metadata m reply _ hreply
    cases hreply
    exact isValue_zero_getEventResponse
  have hsmall : ∀ m, (lookingUp []).GetsThrough lookUp .patient (Run.start 0 ()) "/a.B/Get" m →
      m.toWire.length < 2 ^ 64 := by
    rintro m ⟨c, message, ⟨route, params, limit, hlead, -, hmessage, -⟩, -, hm⟩
    have hroute := resolve_eq_some_iff.mpr hlead
    cases hroute
    cases hmessage
    obtain rfl := List.mem_singleton.mp hm
    decide
  obtain ⟨hagree, hgets⟩ := locally_remotely_agree (lookingUp []) "/a.B/Get" rfl rfl rfl eventless
    (fun _ => .failure .cancellation) hreplies lookUp .patient (Run.start 0 ())
  have hvalues := fun m hm => hgets (by simp [lookingUp]) (by simp [lookingUp]) m hm (hsmall m hm)
  exact ⟨hcalls, (hagree hvalues).2.1 hcalls⟩

/-- An implementation that reports a content type. -/
def labelling : Implementation := fun _ _ =>
  ⟨.ok (.zero .getEventResponse), [.header "content-type" "x"]⟩

/-- A message of another type is refused in process and answered over a channel.  A content type
that is reported is not that of the response. -/
theorem agreement_limits :
    (∃ o response o' response',
      (((lookingUp [swapping]).rebind "/a.B/Get"
        (eventless.locally .getEventRequest)).handle lookUp .patient (Run.start 0 ())).1 =
          some o ∧
      (((lookingUp [swapping]).rebind "/a.B/Get"
        (eventless.remotely .getEventRequest .getEventResponse fun _ =>
          .failure .cancellation)).handle lookUp .patient (Run.start 0 ())).1 = some o' ∧
      o.state = .errorWritten ∧ o'.state = .forwarded ∧
      o.response = some response ∧ o'.response = some response' ∧
      response.status = 500 ∧ response'.status = 200) ∧
    ∃ o response md,
      (((lookingUp []).rebind "/a.B/Get"
        (labelling.locally .getEventRequest)).handle lookUp .patient (Run.start 0 ())).1 =
          some o ∧
      o.response = some response ∧
      ((lookingUp []).rebind "/a.B/Get"
        (labelling.locally .getEventRequest)).HandsOver lookUp .patient (Run.start 0 ()) md ∧
      md.header.getAll "content-type" = ["x"] ∧
      response.headers.getAll "content-type" = [Utf8.bytes "application/json"] := by
  refine ⟨⟨_, _, _, _, rfl, rfl, rfl, rfl, rfl, rfl, rfl, rfl⟩, ?_⟩
  refine ⟨_, _, _, rfl, rfl, .finished ⟨⟨_, _, _, resolve_eq_some_iff.mp rfl, rfl, rfl, rfl⟩, rfl⟩,
    ?_, ?_⟩
  · rfl
  · rfl

end Gateway
end RpcGateway
