import Mathlib.Data.List.Nodup
import RpcGateway.Gateway.Registration
import RpcGateway.Proofs.Route.Compiled

/-!
# Registrations in sequence

What a gateway holds after any sequence of registrations, whether they succeed or not.

**Calls.**  A `Registration` is one call.  `route?` and `entry?` are the route and the registered
method that it stands for.

**Obstacles.**  An `Obstacle` is a reason for which a call fails, with the fault that reports it.

**Results.**  `register_cases` is the step: a call either meets an obstacle and changes nothing, or
it meets none and adds what it stands for.  `Registered` relates the calls that have succeeded to
the tables of the gateway.  Every call keeps it (`Registered.register`), and so does a sequence
(`Registered.registerAll`).
-/

namespace RpcGateway

variable {ω : Type}

/-- A call that registers a route, a method or both. -/
inductive Registration (ω : Type)
  | route (verb template : String) (info : MethodInfo) (request : MessageType)
  | method (info : MethodInfo) (invoker : Invoker ω)
  | bind (verb template fullMethod : String) (request : MessageType) (invoker : Invoker ω)
  | bindAdditional (verb template fullMethod : String) (request : MessageType)

namespace Registration

/-- The verb and the template that a call names. -/
def path? : Registration ω → Option (String × String)
  | route verb template _ _ => some (verb, template)
  | method _ _ => none
  | bind verb template _ _ _ => some (verb, template)
  | bindAdditional verb template _ _ => some (verb, template)

/-- The method that a call binds to an invoker. -/
def binds? : Registration ω → Option String
  | route _ _ _ _ => none
  | method info _ => some info.fullMethod
  | bind _ _ fullMethod _ _ => some fullMethod
  | bindAdditional _ _ _ _ => none

/-- The method that a call takes for bound. -/
def joins? : Registration ω → Option String
  | bindAdditional _ _ fullMethod _ => some fullMethod
  | _ => none

/-- The route that a call stands for. -/
def route? : Registration ω → Option Route
  | route verb template info request =>
      (RouteTemplate.compile template verb).toOption.map fun t => ⟨t, info, request⟩
  | method _ _ => none
  | bind verb template fullMethod request _ =>
      (RouteTemplate.compile template verb).toOption.map fun t =>
        ⟨t, Gateway.routedMethod t template fullMethod, request⟩
  | bindAdditional verb template fullMethod request =>
      (RouteTemplate.compile template verb).toOption.map fun t =>
        ⟨t, Gateway.routedMethod t template fullMethod, request⟩

/-- The registered method that a call stands for. -/
def entry? : Registration ω → Option (MethodEntry ω)
  | route _ _ _ _ => none
  | method info invoker => some ⟨info, invoker⟩
  | bind verb template fullMethod _ invoker =>
      (RouteTemplate.compile template verb).toOption.map fun t =>
        ⟨Gateway.routedMethod t template fullMethod, invoker⟩
  | bindAdditional _ _ _ _ => none

/-- A call stands for all that it names. -/
structure Complete (call : Registration ω) : Prop where
  route : call.route?.isSome = call.path?.isSome
  entry : call.entry?.isSome = call.binds?.isSome

theorem compile_of_map_eq_some
    {verb template : String} {make : RouteTemplate → Route} {route : Route}
    (hmake : ∀ t, (make t).template = t)
    (h : (RouteTemplate.compile template verb).toOption.map make = some route) :
    RouteTemplate.compile template verb = .ok route.template := by
  cases hcompile : RouteTemplate.compile template verb with
  | error fault =>
      rw [hcompile] at h
      cases h
  | ok t =>
      rw [hcompile] at h
      obtain rfl := Option.some.inj h
      rw [hmake]

/-- The route of a call has the verb and the template that the call names. -/
theorem exists_path_of_route
    {call : Registration ω} {route : Route}
    (h : call.route? = some route) :
    ∃ verb template,
      call.path? = some (verb, template) ∧
      RouteTemplate.compile template verb = .ok route.template := by
  cases call with
  | method info invoker => cases h
  | route verb template info request =>
      exact ⟨verb, template, rfl, compile_of_map_eq_some (fun _ => rfl) h⟩
  | bind verb template fullMethod request invoker =>
      exact ⟨verb, template, rfl, compile_of_map_eq_some (fun _ => rfl) h⟩
  | bindAdditional verb template fullMethod request =>
      exact ⟨verb, template, rfl, compile_of_map_eq_some (fun _ => rfl) h⟩

theorem binds_of_entry
    {call : Registration ω} {entry : MethodEntry ω}
    (h : call.entry? = some entry) :
    call.binds? = some entry.info.fullMethod := by
  cases call with
  | route verb template info request => cases h
  | bindAdditional verb template fullMethod request => cases h
  | method info invoker =>
      obtain rfl := Option.some.inj h
      rfl
  | bind verb template fullMethod request invoker =>
      obtain ⟨t, -, rfl⟩ := Option.map_eq_some_iff.mp h
      rfl

/-- The route of a call that binds or joins a method leads to it. -/
theorem fullMethod_of_route
    {call : Registration ω} {route : Route} {name : String}
    (h : call.route? = some route)
    (hname : call.binds? = some name ∨ call.joins? = some name) :
    route.info.fullMethod = name := by
  cases call with
  | method info invoker => cases h
  | route verb template info request => rcases hname with hname | hname <;> cases hname
  | bind verb template fullMethod request invoker =>
      obtain ⟨t, -, rfl⟩ := Option.map_eq_some_iff.mp h
      rcases hname with hname | hname
      · exact Option.some.inj hname
      · cases hname
  | bindAdditional verb template fullMethod request =>
      obtain ⟨t, -, rfl⟩ := Option.map_eq_some_iff.mp h
      rcases hname with hname | hname
      · cases hname
      · exact Option.some.inj hname

end Registration

namespace Gateway

variable {g : Gateway ω} {call : Registration ω}

/-- Makes a call. -/
def register (g : Gateway ω) : Registration ω → Except SetupFault Unit × Gateway ω
  | .route verb template info request => g.addRoute verb template info request
  | .method info invoker => g.addMethod info invoker
  | .bind verb template fullMethod request invoker =>
      g.bind verb template fullMethod request invoker
  | .bindAdditional verb template fullMethod request =>
      g.bindAdditional verb template fullMethod request

/-- The gateway after calls, whether they succeed or not. -/
def registerAll (g : Gateway ω) : List (Registration ω) → Gateway ω
  | [] => g
  | call :: calls => (g.register call).2.registerAll calls

/-- The calls that succeed, out of calls that are made in order. -/
def accepted (g : Gateway ω) : List (Registration ω) → List (Registration ω)
  | [] => []
  | call :: calls =>
      match g.register call with
      | (.ok _, g) => call :: g.accepted calls
      | (.error _, g) => g.accepted calls

/-- The gateway with what a call stands for, behind what it has. -/
def extended (g : Gateway ω) (call : Registration ω) : Gateway ω :=
  { g with
    routes := g.routes ++ call.route?.toList
    dispatcher :=
      { g.dispatcher with registry := ⟨g.dispatcher.registry.entries ++ call.entry?.toList⟩ } }

/-- Why a call fails, and the fault that reports it. -/
inductive Obstacle (g : Gateway ω) (call : Registration ω) : SetupFault → Prop
  | malformed {verb template : String} {fault : SetupFault}
      (hpath : call.path? = some (verb, template))
      (hfault : RouteTemplate.compile template verb = .error fault) :
      Obstacle g call fault
  /-- A route has the same template and the verb, in whatever letter case it is given. -/
  | taken {verb template : String} {route : Route}
      (hpath : call.path? = some (verb, template))
      (hroute : route ∈ g.routes)
      (hverb : route.template.verb.text.toList = verb.toList.flatMap Verb.upper)
      (hsource : route.template.source = template) :
      Obstacle g call (.duplicateRoute route.template.verb.text template)
  | bound {name : String} {entry : MethodEntry ω}
      (hbinds : call.binds? = some name)
      (hentry : entry ∈ g.dispatcher.registry.entries)
      (hname : entry.info.fullMethod = name) :
      Obstacle g call (.duplicateMethod name)
  | unbound {name : String}
      (hjoins : call.joins? = some name)
      (hnone : ∀ entry ∈ g.dispatcher.registry.entries, entry.info.fullMethod ≠ name) :
      Obstacle g call (.unknownMethod name)

/-- What a call gives and the gateway that it leaves. -/
inductive Registers (g : Gateway ω) (call : Registration ω) :
    Except SetupFault Unit × Gateway ω → Prop
  | refused {fault : SetupFault}
      (h : g.Obstacle call fault) :
      Registers g call (.error fault, g)
  | accepted
      (hfree : ∀ fault, ¬ g.Obstacle call fault) (hcomplete : call.Complete) :
      Registers g call (.ok (), g.extended call)

/-!
## One call
-/

theorem hasMethod_iff
    {name : String} :
    g.hasMethod name = true ↔
      ∃ entry ∈ g.dispatcher.registry.entries, entry.info.fullMethod = name := by
  simp [hasMethod, Registry.find?, List.find?_isSome]

theorem isTaken_iff
    {verb template : String} {t : RouteTemplate}
    (ht : RouteTemplate.compile template verb = .ok t) :
    g.isTaken t = true ↔
      ∃ route ∈ g.routes,
        route.template.verb.text.toList = verb.toList.flatMap Verb.upper ∧
        route.template.source = template := by
  obtain ⟨hverb, hsource⟩ := RouteTemplate.compile_eq_ok ht
  simp only [isTaken, List.any_eq_true, Bool.and_eq_true, beq_iff_eq]
  constructor
  · rintro ⟨route, hroute, hv, hs⟩
    exact ⟨route, hroute, by rw [hv, hverb], hs.trans hsource⟩
  · rintro ⟨route, hroute, hv, hs⟩
    refine ⟨route, hroute, ?_, hs.trans hsource.symm⟩
    exact Verb.text_injective _ _ (String.toList_inj.mp (hv.trans hverb.symm))

/-- The template of a route that a call names either has an obstacle or is new. -/
theorem newTemplate_cases
    (g : Gateway ω) (call : Registration ω) {verb template : String}
    (hpath : call.path? = some (verb, template)) :
    (∃ fault, g.Obstacle call fault ∧ g.newTemplate verb template = .error fault) ∨
    ∃ t,
      RouteTemplate.compile template verb = .ok t ∧
      g.isTaken t = false ∧
      g.newTemplate verb template = .ok t := by
  cases hcompile : RouteTemplate.compile template verb with
  | error fault =>
      refine Or.inl ⟨fault, .malformed hpath hcompile, ?_⟩
      simp only [newTemplate, hcompile]
  | ok t =>
      obtain ⟨hverb, hsource⟩ := RouteTemplate.compile_eq_ok hcompile
      cases htaken : g.isTaken t with
      | false => exact Or.inr ⟨t, rfl, htaken, by simp [newTemplate, hcompile, htaken]⟩
      | true =>
          obtain ⟨route, hroute, hv, hs⟩ := (isTaken_iff hcompile).mp htaken
          have hsame : route.template.verb = t.verb :=
            Verb.text_injective _ _ (String.toList_inj.mp (hv.trans hverb.symm))
          refine Or.inl ⟨_, .taken hpath hroute hv hs, ?_⟩
          simp [newTemplate, hcompile, htaken, hsame, hsource]

theorem not_obstacle
    (hpath : ∀ verb template, call.path? = some (verb, template) →
      ∃ t, RouteTemplate.compile template verb = .ok t ∧ g.isTaken t = false)
    (hbinds : ∀ name, call.binds? = some name → g.hasMethod name = false)
    (hjoins : ∀ name, call.joins? = some name → g.hasMethod name = true)
    (fault : SetupFault) :
    ¬ g.Obstacle call fault := by
  intro h
  cases h with
  | malformed hp hfault =>
      obtain ⟨t, hcompile, -⟩ := hpath _ _ hp
      rw [hfault] at hcompile
      cases hcompile
  | taken hp hroute hverb hsource =>
      obtain ⟨t, hcompile, hfree⟩ := hpath _ _ hp
      rw [(isTaken_iff hcompile).mpr ⟨_, hroute, hverb, hsource⟩] at hfree
      cases hfree
  | bound hb hentry hname =>
      have hfree := hbinds _ hb
      rw [hasMethod_iff.mpr ⟨_, hentry, hname⟩] at hfree
      cases hfree
  | unbound hj hnone =>
      obtain ⟨entry, hentry, hname⟩ := hasMethod_iff.mp (hjoins _ hj)
      exact hnone entry hentry hname

theorem obstacle_of_hasMethod
    {name : String}
    (hbinds : call.binds? = some name) (h : g.hasMethod name = true) :
    g.Obstacle call (.duplicateMethod name) := by
  obtain ⟨entry, hentry, hname⟩ := hasMethod_iff.mp h
  exact .bound hbinds hentry hname

theorem obstacle_of_not_hasMethod
    {name : String}
    (hjoins : call.joins? = some name) (h : g.hasMethod name = false) :
    g.Obstacle call (.unknownMethod name) := by
  refine .unbound hjoins fun entry hentry hname => ?_
  rw [hasMethod_iff.mpr ⟨entry, hentry, hname⟩] at h
  cases h

theorem registers_addRoute
    (g : Gateway ω) (verb template : String) (info : MethodInfo) (request : MessageType) :
    g.Registers (.route verb template info request) (g.addRoute verb template info request) := by
  rcases newTemplate_cases g (.route verb template info request) rfl with
    ⟨fault, hobstacle, hnew⟩ | ⟨t, hcompile, hfree, hnew⟩
  · simp only [addRoute, hnew]
    exact .refused hobstacle
  · have heq : g.addRoute verb template info request =
        (.ok (), g.extended (.route verb template info request)) := by
      simp [addRoute, hnew, extended, withRoute, Registration.route?, Registration.entry?,
        hcompile, Except.toOption]
    rw [heq]
    refine .accepted (not_obstacle ?_ (by rintro _ ⟨⟩) (by rintro _ ⟨⟩)) ⟨?_, rfl⟩
    · rintro _ _ ⟨⟩
      exact ⟨t, hcompile, hfree⟩
    · simp [Registration.route?, Registration.path?, hcompile, Except.toOption]

theorem registers_addMethod
    (g : Gateway ω) (info : MethodInfo) (invoker : Invoker ω) :
    g.Registers (.method info invoker) (g.addMethod info invoker) := by
  cases hbound : g.hasMethod info.fullMethod with
  | true =>
      have heq : g.addMethod info invoker = (.error (.duplicateMethod info.fullMethod), g) := by
        rw [hasMethod] at hbound
        simp [addMethod, Dispatcher.register, Registry.register, hbound]
      rw [heq]
      exact .refused (obstacle_of_hasMethod rfl hbound)
  | false =>
      have heq : g.addMethod info invoker = (.ok (), g.extended (.method info invoker)) := by
        rw [hasMethod] at hbound
        simp [addMethod, Dispatcher.register, Registry.register, hbound, extended,
          Registration.route?, Registration.entry?]
      rw [heq]
      refine .accepted (not_obstacle (by rintro _ _ ⟨⟩) ?_ (by rintro _ ⟨⟩)) ⟨rfl, rfl⟩
      rintro _ ⟨⟩
      exact hbound

theorem registers_bind
    (g : Gateway ω) (verb template fullMethod : String) (request : MessageType)
    (invoker : Invoker ω) :
    g.Registers (.bind verb template fullMethod request invoker)
      (g.bind verb template fullMethod request invoker) := by
  rcases newTemplate_cases g (.bind verb template fullMethod request invoker) rfl with
    ⟨fault, hobstacle, hnew⟩ | ⟨t, hcompile, hfree, hnew⟩
  · simp only [bind, hnew]
    exact .refused hobstacle
  · cases hbound : g.hasMethod fullMethod with
    | true =>
        simp only [bind, hnew, hbound, if_true]
        exact .refused (obstacle_of_hasMethod rfl hbound)
    | false =>
        have heq : g.bind verb template fullMethod request invoker =
            (.ok (), g.extended (.bind verb template fullMethod request invoker)) := by
          have hfind := hbound
          rw [hasMethod] at hfind
          simp [bind, hnew, hbound, addMethod, Dispatcher.register, Registry.register,
            routedMethod, hfind, extended, withRoute, Registration.route?, Registration.entry?,
            hcompile, Except.toOption]
        rw [heq]
        refine .accepted (not_obstacle ?_ ?_ (by rintro _ ⟨⟩)) ⟨?_, ?_⟩
        · rintro _ _ ⟨⟩
          exact ⟨t, hcompile, hfree⟩
        · rintro _ ⟨⟩
          exact hbound
        · simp [Registration.route?, Registration.path?, hcompile, Except.toOption]
        · simp [Registration.entry?, Registration.binds?, hcompile, Except.toOption]

theorem registers_bindAdditional
    (g : Gateway ω) (verb template fullMethod : String) (request : MessageType) :
    g.Registers (.bindAdditional verb template fullMethod request)
      (g.bindAdditional verb template fullMethod request) := by
  rcases newTemplate_cases g (.bindAdditional verb template fullMethod request) rfl with
    ⟨fault, hobstacle, hnew⟩ | ⟨t, hcompile, hfree, hnew⟩
  · simp only [bindAdditional, hnew]
    exact .refused hobstacle
  · cases hbound : g.hasMethod fullMethod with
    | false =>
        have heq : g.bindAdditional verb template fullMethod request =
            (.error (.unknownMethod fullMethod), g) := by
          simp [bindAdditional, hnew, hbound]
        rw [heq]
        exact .refused (obstacle_of_not_hasMethod rfl hbound)
    | true =>
        have heq : g.bindAdditional verb template fullMethod request =
            (.ok (), g.extended (.bindAdditional verb template fullMethod request)) := by
          simp [bindAdditional, hnew, hbound, extended, withRoute, Registration.route?,
            Registration.entry?, hcompile, Except.toOption]
        rw [heq]
        refine .accepted (not_obstacle ?_ (by rintro _ ⟨⟩) ?_) ⟨?_, rfl⟩
        · rintro _ _ ⟨⟩
          exact ⟨t, hcompile, hfree⟩
        · rintro _ ⟨⟩
          exact hbound
        · simp [Registration.route?, Registration.path?, hcompile, Except.toOption]

/-- A call meets an obstacle and changes nothing, or it adds what it stands for. -/
theorem registers_register
    (g : Gateway ω) (call : Registration ω) :
    g.Registers call (g.register call) := by
  cases call with
  | route verb template info request => exact registers_addRoute g verb template info request
  | method info invoker => exact registers_addMethod g info invoker
  | bind verb template fullMethod request invoker =>
      exact registers_bind g verb template fullMethod request invoker
  | bindAdditional verb template fullMethod request =>
      exact registers_bindAdditional g verb template fullMethod request

/-!
## Sequences of calls
-/

/-- The tables of a gateway on which calls have succeeded, and no others. -/
structure Registered (calls : List (Registration ω)) (g : Gateway ω) : Prop where
  routes_eq : g.routes = calls.filterMap Registration.route?
  entries_eq : g.dispatcher.registry.entries = calls.filterMap Registration.entry?
  routes_distinct :
    (g.routes.map fun route => (route.template.verb, route.template.source)).Nodup
  methods_distinct :
    (g.dispatcher.registry.entries.map fun entry => entry.info.fullMethod).Nodup
  found : ∀ call ∈ calls, ∀ entry, call.entry? = some entry →
    g.dispatcher.registry.find? entry.info.fullMethod = some entry
  linked : ∀ call ∈ calls, ∀ route name, call.route? = some route →
    call.binds? = some name ∨ call.joins? = some name →
    route ∈ g.routes ∧ route.info.fullMethod = name ∧ g.hasMethod name = true
  complete : ∀ call ∈ calls, call.Complete

theorem hasMethod_extended
    {name : String} (h : g.hasMethod name = true) (call : Registration ω) :
    (g.extended call).hasMethod name = true := by
  obtain ⟨entry, hentry, hname⟩ := hasMethod_iff.mp h
  exact hasMethod_iff.mpr ⟨entry, List.mem_append_left _ hentry, hname⟩

/-- The method that a call binds or joins is there afterwards. -/
theorem hasMethod_extended_of_named
    {name : String}
    (hfree : ∀ fault, ¬ g.Obstacle call fault) (hcomplete : call.Complete)
    (hname : call.binds? = some name ∨ call.joins? = some name) :
    (g.extended call).hasMethod name = true := by
  rcases hname with hbinds | hjoins
  · have hsome := hcomplete.entry
    rw [hbinds, Option.isSome_some] at hsome
    obtain ⟨entry, hentry⟩ := Option.isSome_iff_exists.mp hsome
    have hsame := (Registration.binds_of_entry hentry).symm.trans hbinds
    refine hasMethod_iff.mpr ⟨entry, ?_, Option.some.inj hsame⟩
    exact List.mem_append_right _ (by simp [hentry])
  · cases hbound : g.hasMethod name with
    | true => exact hasMethod_extended hbound call
    | false => exact absurd (obstacle_of_not_hasMethod hjoins hbound) (hfree _)

/-- What is new under its key keeps the keys distinct. -/
theorem nodup_map_append_toList
    {α β : Type} {key : α → β} {xs : List α} {new : Option α}
    (h : (xs.map key).Nodup) (hnew : ∀ x, new = some x → ∀ y ∈ xs, key y ≠ key x) :
    ((xs ++ new.toList).map key).Nodup := by
  cases new with
  | none => simpa using h
  | some x =>
      rw [List.map_append, Option.toList_some, List.map_singleton]
      refine List.nodup_append.mpr ⟨h, List.nodup_singleton _, ?_⟩
      intro a ha b hb
      obtain ⟨y, hy, rfl⟩ := List.mem_map.mp ha
      obtain rfl := List.mem_singleton.mp hb
      exact hnew x rfl y hy

theorem routes_distinct_extended
    (hfree : ∀ fault, ¬ g.Obstacle call fault)
    (h : (g.routes.map fun route => (route.template.verb, route.template.source)).Nodup) :
    ((g.extended call).routes.map fun route =>
      (route.template.verb, route.template.source)).Nodup := by
  refine nodup_map_append_toList h fun route hroute other hother hsame => ?_
  obtain ⟨verb, template, hpath, hcompile⟩ := Registration.exists_path_of_route hroute
  obtain ⟨hverb, hsource⟩ := RouteTemplate.compile_eq_ok hcompile
  rw [Prod.mk.injEq] at hsame
  refine hfree _ (.taken hpath hother ?_ (hsame.2.trans hsource))
  rw [hsame.1, hverb]

theorem methods_distinct_extended
    (hfree : ∀ fault, ¬ g.Obstacle call fault)
    (h : (g.dispatcher.registry.entries.map fun entry => entry.info.fullMethod).Nodup) :
    ((g.extended call).dispatcher.registry.entries.map fun entry =>
      entry.info.fullMethod).Nodup := by
  refine nodup_map_append_toList h fun entry hentry other hother hsame => ?_
  exact hfree _ (.bound (Registration.binds_of_entry hentry) hother hsame)

/-- What a method is bound to stays. -/
theorem find?_extended_of_some
    {name : String} {entry : MethodEntry ω}
    (h : g.dispatcher.registry.find? name = some entry) (call : Registration ω) :
    (g.extended call).dispatcher.registry.find? name = some entry := by
  simp only [Registry.find?] at h
  simp [extended, Registry.find?, List.find?_append, h]

theorem find?_extended_of_entry
    {entry : MethodEntry ω}
    (hfree : ∀ fault, ¬ g.Obstacle call fault)
    (hentry : call.entry? = some entry) :
    (g.extended call).dispatcher.registry.find? entry.info.fullMethod = some entry := by
  have hnone : g.dispatcher.registry.entries.find?
      (fun e => e.info.fullMethod == entry.info.fullMethod) = none := by
    refine List.find?_eq_none.mpr fun other hother hsame => ?_
    exact hfree _ (.bound (Registration.binds_of_entry hentry) hother (eq_of_beq hsame))
  simp [extended, Registry.find?, List.find?_append, hentry, hnone]

/-- A call that succeeds keeps the tables in order. -/
theorem Registered.extended
    {calls : List (Registration ω)}
    (h : Registered calls g)
    (hfree : ∀ fault, ¬ g.Obstacle call fault) (hcomplete : call.Complete) :
    Registered (calls ++ [call]) (g.extended call) where
  routes_eq := by
    rw [List.filterMap_append, ← h.routes_eq]
    cases hroute : call.route? <;> simp [Gateway.extended, hroute]
  entries_eq := by
    rw [List.filterMap_append, ← h.entries_eq]
    cases hentry : call.entry? <;> simp [Gateway.extended, hentry]
  routes_distinct := routes_distinct_extended hfree h.routes_distinct
  methods_distinct := methods_distinct_extended hfree h.methods_distinct
  found other hother entry hentry := by
    rcases List.mem_append.mp hother with hold | hnew
    · exact find?_extended_of_some (h.found other hold entry hentry) call
    · obtain rfl := List.mem_singleton.mp hnew
      exact find?_extended_of_entry hfree hentry
  linked other hother route name hroute hname := by
    rcases List.mem_append.mp hother with hold | hnew
    · obtain ⟨hmem, hfull, hbound⟩ := h.linked other hold route name hroute hname
      exact ⟨List.mem_append_left _ hmem, hfull, hasMethod_extended hbound call⟩
    · obtain rfl := List.mem_singleton.mp hnew
      exact ⟨List.mem_append_right _ (by simp [hroute]),
        Registration.fullMethod_of_route hroute hname,
        hasMethod_extended_of_named hfree hcomplete hname⟩
  complete other hother := by
    rcases List.mem_append.mp hother with hold | hnew
    · exact h.complete other hold
    · obtain rfl := List.mem_singleton.mp hnew
      exact hcomplete

/-- Calls that fail leave no trace. -/
theorem Registered.registerAll
    {earlier : List (Registration ω)}
    (h : Registered earlier g) (calls : List (Registration ω)) :
    Registered (earlier ++ g.accepted calls) (g.registerAll calls) := by
  induction calls generalizing g earlier with
  | nil =>
      rw [accepted, List.append_nil]
      exact h
  | cons call calls ih =>
      have hstep := registers_register g call
      simp only [accepted, Gateway.registerAll]
      generalize g.register call = result at hstep
      cases hstep with
      | refused hobstacle => exact ih h
      | accepted hfree hcomplete =>
          have hall := ih (h.extended hfree hcomplete)
          rw [List.append_assoc] at hall
          exact hall

/-- **Registrations.**  Whatever is called on a new gateway, its tables are those of the calls that
succeeded, without two routes for one verb and template and without two invokers for one method.
The next call either meets an obstacle and changes nothing, or it adds what it names. -/
theorem registered_registerAll
    (g : Gateway ω)
    (hroutes : g.routes = []) (hmethods : g.dispatcher.registry.entries = [])
    (calls : List (Registration ω)) :
    Registered (g.accepted calls) (g.registerAll calls) ∧
    ∀ call, (g.registerAll calls).Registers call ((g.registerAll calls).register call) := by
  have hnew : Registered [] g := by
    constructor
    · exact hroutes
    · exact hmethods
    · rw [hroutes]
      exact List.nodup_nil
    · rw [hmethods]
      exact List.nodup_nil
    · simp
    · simp
    · simp
  refine ⟨?_, fun call => registers_register _ call⟩
  exact hnew.registerAll calls

/-- Two routes to a method that is bound once, among calls that fail. -/
def twoRoutes : List (Registration Unit) :=
  let handler : Invoker Unit := .inProcess .item fun _ m => .done (.ok m)
  let other : Invoker Unit := .inProcess .item fun _ _ => .done (.error Status.cancellation)
  [.bindAdditional "GET" "/b" "/a.B/Get" .item, .bind "post" "/a" "/a.B/Get" .item handler,
    .bind "POST" "/a" "/a.B/Put" .item handler, .method ⟨"/a.B/Get", ""⟩ other,
    .bindAdditional "GET" "/b" "/a.B/Get" .item]

theorem registered_twoRoutes :
    Registered (empty.accepted twoRoutes) (empty.registerAll twoRoutes) ∧
    (empty.accepted twoRoutes).map Registration.path? =
      [some ("post", "/a"), some ("GET", "/b")] ∧
    ((empty.registerAll twoRoutes).dispatcher.registry.entries.map fun entry =>
      entry.info.fullMethod) = ["/a.B/Get"] := by
  refine ⟨(registered_registerAll empty rfl rfl twoRoutes).1, ?_, ?_⟩
  · decide
  · decide

end Gateway
end RpcGateway
