import RpcGateway.Proofs.Gateway.Registration
import RpcGateway.Proofs.Route.Instantiation

/-!
# Which route a request resolves to

Templates may overlap, so a request may be served by many routes.  The route that was registered
first counts, and it goes on to count whatever is registered later.

**Serving.**  `Route.Serves` says that the method of a request is the verb of a route and that its
path fills in the template.  A raw segment that does not decode to UTF-8 fills in no capture, so
such a request is left to the routes behind.

**Order.**  `FirstServes` follows a list of routes up to the first that serves a request.  Calls
only ever add routes behind those that are there (`routes_registerAll`), and what is found in the
front of a list is found in the whole list.

**Result.**  `first_registered_wins`: a request resolves to the first route that serves it, in the
order of the calls that succeeded, and keeps resolving to it.
-/

namespace RpcGateway

variable {ω : Type}

/-- A route serves a request: the method is its verb, and the raw path fills in its template. -/
def Route.Serves (route : Route) (request : Request) (ps : PathParams) : Prop :=
  request.method = route.template.verb.text ∧ route.template.Fills request.path ps

theorem Route.match?_eq_some_iff_serves
    {route : Route} {request : Request} {ps : PathParams} :
    route.template.match? request.method request.path = some ps ↔ route.Serves request ps :=
  RouteTemplate.match?_eq_some_iff

theorem Route.match?_eq_none_iff_not_serves
    {route : Route} {request : Request} :
    route.template.match? request.method request.path = none ↔ ∀ ps, ¬ route.Serves request ps := by
  simp only [← match?_eq_some_iff_serves]
  exact Option.eq_none_iff_forall_ne_some

/-- A route is the first of a list that serves a request. -/
inductive FirstServes (request : Request) : List Route → Route → PathParams → Prop
  | here {route : Route} {rest : List Route} {ps : PathParams}
      (h : route.Serves request ps) :
      FirstServes request (route :: rest) route ps
  | behind {other route : Route} {rest : List Route} {ps : PathParams}
      (hother : ∀ qs, ¬ other.Serves request qs)
      (h : FirstServes request rest route ps) :
      FirstServes request (other :: rest) route ps

namespace FirstServes

variable {request : Request} {routes more : List Route} {route : Route} {ps : PathParams}

theorem append
    (h : FirstServes request routes route ps) (more : List Route) :
    FirstServes request (routes ++ more) route ps := by
  induction h with
  | here h => exact .here h
  | behind hother _ ih => exact .behind hother ih

/-- Routes that do not serve a request do not count. -/
theorem append_iff
    (h : ∀ other ∈ routes, ∀ qs, ¬ other.Serves request qs) :
    FirstServes request (routes ++ more) route ps ↔ FirstServes request more route ps := by
  induction routes with
  | nil => rfl
  | cons other rest ih =>
      obtain ⟨hother, hrest⟩ := List.forall_mem_cons.mp h
      rw [List.cons_append, ← ih hrest]
      constructor
      · intro hfirst
        cases hfirst with
        | here hserves => exact absurd hserves (hother _)
        | behind _ hlater => exact hlater
      · exact .behind hother

end FirstServes

namespace Gateway

variable {g : Gateway ω} {request : Request}

/-- A request resolves to the first route that serves it. -/
theorem resolve_eq_some_iff_firstServes
    {route : Route} {ps : PathParams} :
    g.resolve request.method request.path = some (route, ps) ↔
      FirstServes request g.routes route ps := by
  unfold resolve
  induction g.routes with
  | nil =>
      constructor
      · rintro ⟨⟩
      · rintro ⟨⟩
  | cons other rest ih =>
      rw [List.findSome?_cons]
      cases hmatch : other.template.match? request.method request.path with
      | some qs =>
          have hserves := Route.match?_eq_some_iff_serves.mp hmatch
          simp only [Option.map_some, Option.some.injEq, Prod.mk.injEq]
          constructor
          · rintro ⟨rfl, rfl⟩
            exact .here hserves
          · intro hfirst
            cases hfirst with
            | here h =>
                rw [Route.match?_eq_some_iff_serves.mpr h, Option.some.injEq] at hmatch
                exact ⟨rfl, hmatch.symm⟩
            | behind hother => exact absurd hserves (hother qs)
      | none =>
          have hnone := Route.match?_eq_none_iff_not_serves.mp hmatch
          simp only [Option.map_none, ih]
          constructor
          · exact .behind hnone
          · intro hfirst
            cases hfirst with
            | here h => exact absurd h (hnone _)
            | behind _ h => exact h

theorem resolve_eq_none_iff_not_serves :
    g.resolve request.method request.path = none ↔
      ∀ route ∈ g.routes, ∀ ps, ¬ route.Serves request ps := by
  simp [resolve, Route.match?_eq_none_iff_not_serves]

/-- Calls add the routes of those that succeed behind the routes that are there. -/
theorem routes_registerAll
    (g : Gateway ω) (calls : List (Registration ω)) :
    (g.registerAll calls).routes =
      g.routes ++ (g.accepted calls).filterMap Registration.route? := by
  induction calls generalizing g with
  | nil => exact (List.append_nil _).symm
  | cons call calls ih =>
      have hstep := registers_register g call
      simp only [registerAll, accepted]
      generalize g.register call = result at hstep
      cases hstep with
      | refused => exact ih g
      | accepted =>
          have hroutes : (g.extended call).routes = g.routes ++ call.route?.toList := rfl
          rw [ih, hroutes, List.append_assoc]
          cases hroute : call.route? <;> simp [hroute]

/-- **Precedence.**  After any calls, a request resolves to the first route that serves it, in the
order in which the calls that succeeded registered them.  Further calls, whether they succeed or
not, leave it at that, and give a request that had no route the first of the new ones. -/
theorem first_registered_wins
    (g : Gateway ω) (earlier later : List (Registration ω)) (request : Request) :
    let served := g.registerAll earlier
    (∀ route ps, served.resolve request.method request.path = some (route, ps) ↔
      FirstServes request (g.routes ++ (g.accepted earlier).filterMap Registration.route?)
        route ps) ∧
    (∀ found, served.resolve request.method request.path = some found →
      (served.registerAll later).resolve request.method request.path = some found) ∧
    (served.resolve request.method request.path = none → ∀ route ps,
      (served.registerAll later).resolve request.method request.path = some (route, ps) ↔
        FirstServes request ((served.accepted later).filterMap Registration.route?) route ps) := by
  intro served
  have hlater := routes_registerAll served later
  refine ⟨fun route ps => ?_, fun found hfound => ?_, fun hnone route ps => ?_⟩
  · rw [resolve_eq_some_iff_firstServes, routes_registerAll]
  · have hfirst := resolve_eq_some_iff_firstServes.mp hfound
    rw [resolve_eq_some_iff_firstServes, hlater]
    exact hfirst.append _
  · rw [resolve_eq_some_iff_firstServes, hlater]
    exact FirstServes.append_iff (resolve_eq_none_iff_not_serves.mp hnone)

/-- Routes of which all three serve some path in common, but for a segment that does not decode. -/
def overlapping : List (Registration Unit) :=
  [.route "GET" "/items/\x7bid\x7d" ⟨"/a.B/Get", ""⟩ .item,
    .route "get" "/items/%FF" ⟨"/a.B/Odd", ""⟩ .item,
    .route "GET" "/\x7bkind\x7d/%41" ⟨"/a.B/List", ""⟩ .item]

example :
    let found := fun path => ((empty.registerAll overlapping).resolve "GET" path).map fun r =>
      (r.1.info.fullMethod, r.2)
    found "/items/%41" = some ("/a.B/Get", [("id", "A")]) ∧
    found "/items/%FF" = some ("/a.B/Odd", []) ∧
    found "/books/%41" = some ("/a.B/List", [("kind", "books")]) := by
  decide

end Gateway
end RpcGateway
