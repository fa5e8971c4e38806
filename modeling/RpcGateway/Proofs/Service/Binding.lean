import RpcGateway.Proofs.Gateway.Registration
import RpcGateway.Service.Audit
import RpcGateway.Service.Endpoint

/-!
# Services bound method by method

What the registration of a service leaves when it fails.  Each method is bound as a whole or not at
all, but the methods of one service are bound one after another.

**Runs.**  `BindsUpTo` follows the methods up to the first that meets an obstacle; all before it
stay bound.

**Audit.**  The audit service has two methods.  `audit_unchanged_iff`: a registration that fails
leaves the gateway as it was if and only if the endpoint is no URI or the first method itself
cannot be bound.  Otherwise the first method stays.
-/

namespace RpcGateway

variable {ω : Type}

/-- The call that binds a method of a service. -/
def ServiceMethod.registration (m : ServiceMethod) (invoker : Invoker ω) : Registration ω :=
  .bind "POST" m.path m.fullMethod m.request invoker

namespace Gateway

variable {g s : Gateway ω}

/-- How the methods of a service are bound, and what is left of the gateway. -/
inductive BindsUpTo :
    Gateway ω → List (ServiceMethod × Invoker ω) → Except SetupFault Unit × Gateway ω → Prop
  | all (g : Gateway ω) :
      BindsUpTo g [] (.ok (), g)
  | refused {g : Gateway ω} {m : ServiceMethod} {invoker : Invoker ω}
      {rest : List (ServiceMethod × Invoker ω)} {fault : SetupFault}
      (h : g.Obstacle (m.registration invoker) fault) :
      BindsUpTo g ((m, invoker) :: rest) (.error fault, g)
  | bound {g : Gateway ω} {m : ServiceMethod} {invoker : Invoker ω}
      {rest : List (ServiceMethod × Invoker ω)} {result : Except SetupFault Unit × Gateway ω}
      (hfree : ∀ fault, ¬ g.Obstacle (m.registration invoker) fault)
      (hcomplete : (m.registration invoker).Complete)
      (h : BindsUpTo (g.extended (m.registration invoker)) rest result) :
      BindsUpTo g ((m, invoker) :: rest) result

theorem bindsUpTo_bindAll
    (g : Gateway ω) (ms : List (ServiceMethod × Invoker ω)) :
    BindsUpTo g ms (g.bindAll ms) := by
  induction ms generalizing g with
  | nil => exact .all g
  | cons m rest ih =>
      obtain ⟨m, invoker⟩ := m
      have hstep : g.Registers (m.registration invoker) (m.bind g invoker) :=
        registers_bind g "POST" m.path m.fullMethod m.request invoker
      rw [bindAll]
      generalize m.bind g invoker = result at hstep
      cases hstep with
      | refused hobstacle => exact .refused hobstacle
      | accepted hfree hcomplete => exact .bound hfree hcomplete (ih _)

/-- A call that names a route lengthens the list of routes. -/
theorem length_routes_extended
    {call : Registration ω}
    (hpath : call.path?.isSome = true) (hcomplete : call.Complete) :
    (g.extended call).routes.length = g.routes.length + 1 := by
  have hroute := hcomplete.route
  rw [hpath] at hroute
  obtain ⟨route, hroute⟩ := Option.isSome_iff_exists.mp hroute
  simp [extended, hroute]

theorem BindsUpTo.length_routes_le
    {ms : List (ServiceMethod × Invoker ω)} {result : Except SetupFault Unit × Gateway ω}
    (h : BindsUpTo g ms result) :
    g.routes.length ≤ result.2.routes.length := by
  induction h with
  | all => exact Nat.le_refl _
  | refused => exact Nat.le_refl _
  | bound _ hcomplete _ ih =>
      rw [length_routes_extended rfl hcomplete] at ih
      exact Nat.le_of_succ_le ih

/-- A registration that has bound its first method is not undone. -/
theorem BindsUpTo.unchanged_iff
    {m : ServiceMethod} {invoker : Invoker ω} {rest : List (ServiceMethod × Invoker ω)}
    {fault : SetupFault}
    (h : BindsUpTo g ((m, invoker) :: rest) (.error fault, s)) :
    s = g ↔ ∃ fault, g.Obstacle (m.registration invoker) fault := by
  cases h with
  | refused hobstacle => exact ⟨fun _ => ⟨fault, hobstacle⟩, fun _ => rfl⟩
  | bound hfree hcomplete hrest =>
      constructor
      · rintro rfl
        have hle := hrest.length_routes_le
        rw [length_routes_extended rfl hcomplete] at hle
        exact absurd hle (Nat.not_succ_le_self _)
      · rintro ⟨fault, hobstacle⟩
        exact absurd hobstacle (hfree fault)

/-- What the failed registration of a service leaves: the gateway as it was if and only if the
first method cannot be bound, else the gateway with that method. -/
structure LeavesFirst (g : Gateway ω) (first : Registration ω) (s : Gateway ω) : Prop where
  unchanged_iff : s = g ↔ ∃ fault, g.Obstacle first fault
  changed : s ≠ g → first.Complete ∧ s = g.extended first

theorem leavesFirst_of_two
    {m n : ServiceMethod} {invoker other : Invoker ω} {fault : SetupFault}
    (h : g.bindAll [(m, invoker), (n, other)] = (.error fault, s)) :
    g.LeavesFirst (m.registration invoker) s := by
  have hrun := bindsUpTo_bindAll g [(m, invoker), (n, other)]
  rw [h] at hrun
  refine ⟨hrun.unchanged_iff, fun hne => ?_⟩
  cases hrun with
  | refused => exact absurd rfl hne
  | bound _ hcomplete hrest =>
      cases hrest with
      | refused => exact ⟨hcomplete, rfl⟩
      | bound _ _ hnone => cases hnone

/-- **Registration of the audit service.**  By a server, over a channel, be it that of a client, or
at an endpoint: if the registration fails, the gateway is as it was unless the endpoint is a URI
and the first method could be bound, which then stays. -/
theorem audit_unchanged_iff
    (g : Gateway ω) (server : Audit.Server ω) (channel : Channel ω)
    (dial : String → Channel ω) (endpoint : String) :
    (∀ fault s, g.bindServer server.handlers = (.error fault, s) →
      g.LeavesFirst
        (Audit.getEvents.registration (.inProcess .getEventsRequest server.getEvents)) s) ∧
    (∀ fault s, g.bindChannel Audit.methods channel = (.error fault, s) →
      g.LeavesFirst (Audit.getEvents.registration (.remote channel .getEventsResponse)) s) ∧
    (∀ fault s, g.bindEndpoint Audit.methods dial endpoint = (.error fault, s) →
      (Uri.isUri endpoint = false ∧ s = g) ∨
      (Uri.isUri endpoint = true ∧
        g.LeavesFirst
          (Audit.getEvents.registration (.remote (dial endpoint) .getEventsResponse)) s)) := by
  refine ⟨fun fault s h => leavesFirst_of_two h, fun fault s h => leavesFirst_of_two h, ?_⟩
  intro fault s h
  unfold bindEndpoint at h
  cases huri : Uri.isUri endpoint with
  | false =>
      rw [huri, if_neg Bool.false_ne_true] at h
      exact Or.inl ⟨rfl, (Prod.mk.inj h).2.symm⟩
  | true =>
      rw [huri, if_pos rfl] at h
      refine Or.inr ⟨rfl, ?_⟩
      cases hbind : g.bindChannel Audit.methods (dial endpoint) with
      | mk result t =>
          rw [hbind] at h
          cases result with
          | ok value => cases h
          | error fault' =>
              cases h
              exact leavesFirst_of_two hbind

/-- A gateway in which another method has the route of the second method of the audit service. -/
def occupied : Gateway Unit :=
  (empty.bind "POST" Audit.getEvent.path "/a.B/Other" .item
    (.inProcess .item fun _ m => .done (.ok m))).2

/-- The route of the second method is refused, and that of the first stays. -/
theorem audit_left_halfway :
    ∃ s : Gateway Unit,
      occupied.bindServer (Audit.Server.handlers {}) =
        (.error (.duplicateRoute "POST" "/v1/audit/getEvent"), s) ∧
      occupied.routes.map (fun route => route.template.source) = ["/v1/audit/getEvent"] ∧
      s.routes.map (fun route => route.template.source) =
        ["/v1/audit/getEvent", "/v1/audit/getEvents"] ∧
      occupied.hasMethod Audit.getEvents.fullMethod = false ∧
      s.hasMethod Audit.getEvents.fullMethod = true := by
  refine ⟨(occupied.bindServer (Audit.Server.handlers {})).2, ?_, ?_, ?_, ?_, ?_⟩
  · rfl
  · decide
  · decide
  · decide
  · decide

/-- A channel whose calls all fail. -/
def failing : Channel Unit := fun _ =>
  .done (.failure Status.cancellation)

theorem audit_unchanged_iff_occupied :
    let taken : SetupFault := .duplicateRoute "POST" "/v1/audit/getEvent"
    let served := occupied.bindServer (Audit.Server.handlers {})
    let piped := occupied.bindChannel Audit.methods failing
    let dialled := occupied.bindEndpoint Audit.methods (fun _ => failing) "a.b"
    served = (.error taken, served.2) ∧
    occupied.LeavesFirst
      (Audit.getEvents.registration
        (.inProcess .getEventsRequest Audit.getEvents.unimplemented)) served.2 ∧
    piped = (.error taken, piped.2) ∧
    occupied.LeavesFirst
      (Audit.getEvents.registration (.remote failing .getEventsResponse)) piped.2 ∧
    dialled = (.error (.setup taken), dialled.2) ∧
    occupied.LeavesFirst
      (Audit.getEvents.registration (.remote failing .getEventsResponse)) dialled.2 := by
  intro taken served piped dialled
  have hserved : served = (.error taken, served.2) := rfl
  have hpiped : piped = (.error taken, piped.2) := rfl
  have hdialled : dialled = (.error (.setup taken), dialled.2) := rfl
  have huri : Uri.isUri "a.b" = true := by decide
  obtain ⟨hserver, hchannel, hendpoint⟩ :=
    audit_unchanged_iff occupied {} failing (fun _ => failing) "a.b"
  refine ⟨hserved, hserver _ _ hserved, hpiped, hchannel _ _ hpiped, hdialled, ?_⟩
  rcases hendpoint _ _ hdialled with hno | hyes
  · rw [huri] at hno
    cases hno.1
  · exact hyes.2

end Gateway
end RpcGateway
