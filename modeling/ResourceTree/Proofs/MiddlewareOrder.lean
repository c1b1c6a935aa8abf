import ResourceTree.Proofs.AncestorResolution
import ResourceTree.Proofs.BuildChecks
import ResourceTree.Proofs.LayerSteps

/-! # The order of the middlewares

A request passes the middlewares of a site from the top of the tree down to the owner of the route: at each node
those around all its routes, then those on its ID, then its resource is resolved for what lies below. It is let
in to the endpoint (`Site.LetsIn`), or some layer turns it away (`Site.TurnsAway`). Either way its answer leaves
just the middlewares that it has passed, the last one first. -/

namespace ResourceTree

variable {R : Type} {env : Env} {w w₁ : World R}

namespace Node

variable {parent : RoutePath} {ns : List (Node R)} {l : Layer R}

/-- The layers of a chain belong to the nodes of the chain. -/
theorem node_of_mem_chainLayers (h : l ∈ chainLayers parent ns) :
    ∃ nodes, nodes ≠ [] ∧ nodes <+: ns ∧ l.node = (parent.below nodes).names := by
  induction ns generalizing parent with
  | nil => cases h
  | cons n ns ih =>
      rw [chainLayers, List.mem_append] at h
      rcases h with h | h
      · exact ⟨[n], List.cons_ne_nil n [], ⟨ns, rfl⟩, (mem_layersAbove h).1⟩
      · obtain ⟨nodes, -, hprefix, hnode⟩ := ih h
        refine ⟨n :: nodes, List.cons_ne_nil n nodes, List.cons_prefix_cons.mpr ⟨rfl, hprefix⟩, ?_⟩
        rw [hnode, RoutePath.below_cons]

end Node

namespace Site

variable {site : Site R} {routes : List (Route R)} {request : Request} {taken : List (String × String)}

/-- **A request is let in** to the endpoint of a site: it makes the steps of all layers first, and nothing else
happens before the endpoint runs. A default handler always answers, and enters and leaves nothing. When the endpoint
has answered, the middlewares are left in reverse order. -/
structure LetsIn (site : Site R) (routes : List (Route R)) (request : Request)
    (taken : List (String × String)) (env : Env) (w : World R) (i : Inflight R) (w₁ : World R) : Prop where
  arrives : Layer.descend (site.route .root).layers (Router.dispatched request taken) env w
    = (.ok (.arrived i), w₁)
  steps : w₁.steps = w.steps ++ Layer.wayIn [] (site.route .root).layers
  only : w.LogsOnly (fun e => e.step?.isSome) w₁
  handles : ∀ c op, (site.route .root).endpoint? request.method = some (.operation c op) →
    ∃ response w₂, (site.route .root).reached request.method i env w₁ = (.ok response, w₂)
      ∧ w₁.LogsOnly (Event.Handling c.node) w₂
  leaves : ∀ response w₂, (site.route .root).reached request.method i env w₁ = (.ok response, w₂) →
    (Router.answer routes request env w).1
        = (site.route .root).dressed request.method (Layer.left (site.route .root).layers response)
      ∧ (Router.answer routes request env w).2.steps
        = w₂.steps ++ Step.back (Layer.wayIn [] (site.route .root).layers)
      ∧ w₂.LogsOnly (fun e => e.step?.isSome) (Router.answer routes request env w).2

/-- **A request is turned away** at a layer of a site: the layers outside let it in and this one does not. It makes
the steps of the layers outside, those up to where this layer stops it, and the steps back through the layers
outside, and nothing else happens. -/
structure TurnsAway (site : Site R) (routes : List (Route R)) (request : Request)
    (taken : List (String × String)) (env : Env) (w : World R) (outer : List (Layer R)) (layer : Layer R)
    (s : Layer.Stop R) : Prop where
  layers : ∃ inner, (site.route .root).layers = outer ++ layer :: inner
  stops : ∃ i w₁ w₂, Layer.descend outer (Router.dispatched request taken) env w = (.ok (.arrived i), w₁)
    ∧ layer.enter i env w₁ = (.ok (.stopped s), w₂)
  steps : (Router.answer routes request env w).2.steps
    = w.steps ++ s.wayIn (Router.decodeParams taken) [] layer outer ++ Step.back (Layer.wayIn [] outer)
  only : w.LogsOnly (fun e => e.step?.isSome) (Router.answer routes request env w).2
  answer : (Router.answer routes request env w).1
    = (site.route .root).dressed request.method (Layer.left outer s.response)

variable (hlookup : Route.lookup (routes.map fun r => (r.pattern, r)) request.path
  = some (site.route .root, taken))

include hlookup

/-- A request that arrives is let in. -/
theorem letsIn_of_arrived {i : Inflight R}
    (hdescend : Layer.descend (site.route .root).layers (Router.dispatched request taken) env w
      = (.ok (.arrived i), w₁))
    (hsteps : w₁.steps = w.steps ++ Layer.wayIn [] (site.route .root).layers) :
    site.LetsIn routes request taken env w i w₁ where
  arrives := hdescend
  steps := hsteps
  only := Layer.descend_isStep hdescend
  handles c op he := by
    obtain ⟨response, w₂, hrun, hhandling⟩ := Endpoint.run_events c op i env w₁
    refine ⟨response, w₂, ?_, hhandling⟩
    rw [Route.reached, he]
    exact hrun
  leaves response w₂ hreached := by
    obtain ⟨w', hascend⟩ := Layer.ascend_apply (site.route .root).layers response env w₂
    rw [Router.answer_eq_of_arrived hlookup hdescend hreached hascend]
    exact ⟨rfl, Layer.ascend_steps [] hascend, Layer.ascend_isStep hascend⟩

/-- A request that is stopped is turned away at the layer that stops it. -/
theorem turnsAway_of_stopped {outer : List (Layer R)} {s : Layer.Stop R} {steps : List Step}
    (hdescend : Layer.descend (site.route .root).layers (Router.dispatched request taken) env w
      = (.ok (.stopped outer s), w₁))
    (hsteps : w₁.steps = w.steps ++ steps)
    (htakes : (Layer.Descent.stopped outer s).Takes (Router.decodeParams taken) [] (site.route .root).layers
      steps) :
    ∃ layer, site.TurnsAway routes request taken env w outer layer s := by
  obtain ⟨layer, inner, hlayers, rfl⟩ := htakes
  obtain ⟨layer', inner', i, w₀, hlayers', harrives, hstops⟩ := Layer.descend_of_stopped hdescend
  obtain ⟨rfl, rfl⟩ := List.cons.inj (List.append_cancel_left (hlayers.symm.trans hlayers'))
  obtain ⟨w', hascend⟩ := Layer.ascend_apply outer s.response env w₁
  have hanswer := Router.answer_eq_of_stopped hlookup hdescend hascend
  refine ⟨layer, ⟨inner, hlayers⟩, ⟨i, w₀, w₁, harrives, hstops⟩, ?_, ?_, ?_⟩
  · rw [hanswer, Layer.ascend_steps [] hascend, hsteps]
  · rw [hanswer]
    exact (Layer.descend_isStep hdescend).trans (Layer.ascend_isStep hascend)
  · rw [hanswer]

end Site

section Tree

variable {n : Node R} {routes : List (Route R)} {request : Request} {route : Route R}
  {taken : List (String × String)}

/-- **The order of the middlewares.** The layers around a route are those that the nodes above its owner put around
what is below them, from the top of the tree down, and those that the owner puts around this spot. A request makes
the steps of these layers in order, and then it is handled, or a layer turns it away before. Its answer leaves just
the middlewares that it has passed, in reverse order. All layers belong to nodes from the top of the tree down to
the owner, and there are none around a route at an absolute path. -/
theorem middlewares_in_order (hn : n.router = .ok routes)
    (hlookup : Route.lookup (routes.map fun r => (r.pattern, r)) request.path = some (route, taken)) :
    ∃ site ∈ n.sites, route = site.route .root
      ∧ route.layers = Node.chainLayers .root site.above ++ site.spot.layers site.owner (site.path .root)
      ∧ (∀ layer ∈ route.layers, ∃ nodes, nodes ≠ [] ∧ nodes <+: site.chain
        ∧ layer.node = (RoutePath.root.below nodes).names)
      ∧ (site.spot.IsRoot → route.layers = [])
      ∧ ((∃ i w₁, site.LetsIn routes request taken env w i w₁)
        ∨ ∃ outer layer s, site.TurnsAway routes request taken env w outer layer s) := by
  obtain ⟨site, hsite, rfl, -⟩ := Node.site_of_lookup hn hlookup
  have hassembled := Node.router_ok hn
  refine ⟨site, hsite, rfl, rfl, fun layer hlayer => ?_, fun hroot => ?_, ?_⟩
  · exact Node.node_of_mem_chainLayers (site.layers_prefix.subset hlayer)
  · -- only the top of the tree has such routes, so there are no nodes above
    obtain ⟨r, hr⟩ := hroot
    rw [Site.route, (hassembled.atTop site hsite r hr).2, hr]
    rfl
  · obtain ⟨d, w₁, hdescend⟩ :=
      Layer.descend_apply (site.route .root).layers (Router.dispatched request taken) env w
    have hready := site.ready (hassembled.nodup .nil site hsite) request taken
    obtain ⟨steps, hsteps, htakes⟩ := Layer.descend_steps hready hdescend
    cases d with
    | arrived i =>
        subst htakes
        exact Or.inl ⟨i, w₁, site.letsIn_of_arrived hlookup hdescend hsteps⟩
    | stopped outer s =>
        obtain ⟨layer, haway⟩ := site.turnsAway_of_stopped hlookup hdescend hsteps htakes
        exact Or.inr ⟨outer, layer, s, haway⟩

end Tree

/-! ## A club -/

namespace Club

/-- A guard that wants to see a badge. -/
def members : Guard Record :=
  ⟨"members", fun ctx _ => if ctx.header? "badge" = some "m" then .ok () else .error .forbidden⟩

/-- What rooms have: a middleware and a guard on their IDs. -/
def roomService : Service Record where
  kind := Record.schemaless
  blank := Record.empty
  idMiddlewares := [.plain { tag := "carpet" }, .guard members]

/-- The lockers of a room. -/
def lockers : Node Record :=
  .api { name := "lockers", base := "/lockers", middlewares := [{ tag := "attendant" }] }
    { kind := Record.schemaless, blank := Record.empty }

/-- Rooms with lockers below. -/
def tree : Node Record :=
  .mk { name := "rooms", base := "/rooms", middlewares := [{ tag := "porter" }] } (some roomService) [lockers]

/-- The place of a locker in the tree. -/
def lockerSite : Site Record := ⟨[tree], lockers, .item⟩

/-- The routes of the club. -/
def routes : List (Route Record) := tree.sites.map (Site.route .root)

/-- A request for the second locker of the first room. -/
def lockerRequest (headers : List (String × String)) : Request :=
  ⟨.get, "/rooms/1/lockers/2", none, headers, .empty⟩

/-- What the parameters take from its path. -/
def lockerTaken : List (String × String) := [("rooms_id", "1"), ("lockers_id", "2")]

/-- A world in which the room and the locker are there. -/
def world : World Record :=
  (World.initial.setStore ["rooms"] (Store.empty.insert "1" ⟨⟨"1", none⟩, []⟩)).setStore ["rooms", "lockers"]
    (Store.empty.insert "2" ⟨⟨"2", none⟩, []⟩)

theorem router_tree : tree.router = .ok routes := Node.router_eq (by decide +kernel)

theorem lookup_locker : Route.lookup (routes.map fun r => (r.pattern, r)) "/rooms/1/lockers/2"
    = some (lockerSite.route .root, lockerTaken) := rfl

theorem mem_lockerSite : lockerSite ∈ tree.sites := List.mem_of_getElem? (rfl : tree.sites[3]? = some lockerSite)

end Club

open Club in
/-- With a badge the request for a locker is let in past the porter, the carpet, the guard and the attendant, and
its answer leaves the middlewares in reverse order. Without one it comes to the guard and no further. -/
theorem middlewares_in_order_club :
    (∃ i w₁, lockerSite.LetsIn routes (lockerRequest [("badge", "m")]) lockerTaken (Env.quiet "n") world i w₁
        ∧ w₁.steps = [.entered ["rooms"] "porter", .entered ["rooms"] "carpet", .loaded ["rooms"],
          .checked ["rooms"] "members", .entered ["rooms", "lockers"] "attendant"])
      ∧ (Router.answer routes (lockerRequest [("badge", "m")]) (Env.quiet "n") world).2.steps.drop 6
        = [.left ["rooms", "lockers"] "attendant", .left ["rooms"] "carpet", .left ["rooms"] "porter"]
      ∧ (∃ outer layer s, lockerSite.TurnsAway routes (lockerRequest []) lockerTaken (Env.quiet "n") world outer
        layer s)
      ∧ (Router.answer routes (lockerRequest []) (Env.quiet "n") world).2.steps
        = [.entered ["rooms"] "porter", .entered ["rooms"] "carpet", .loaded ["rooms"],
          .checked ["rooms"] "members", .left ["rooms"] "carpet", .left ["rooms"] "porter"] := by
  have horder (headers : List (String × String)) :
      (∃ i w₁, lockerSite.LetsIn routes (lockerRequest headers) lockerTaken (Env.quiet "n") world i w₁)
        ∨ ∃ outer layer s, lockerSite.TurnsAway routes (lockerRequest headers) lockerTaken (Env.quiet "n") world
          outer layer s := by
    have hlookup : Route.lookup (routes.map fun r => (r.pattern, r)) (lockerRequest headers).path
      = some (lockerSite.route .root, lockerTaken) := lookup_locker
    obtain ⟨site, hsite, hroute, -, -, -, hends⟩ := middlewares_in_order router_tree hlookup
    obtain rfl := Node.site_of_pattern router_tree mem_lockerSite hsite (congrArg Route.pattern hroute)
    exact hends
  refine ⟨?_, by cbv, ?_, by cbv⟩
  · rcases horder [("badge", "m")] with ⟨i, w₁, hin⟩ | ⟨outer, layer, s, haway⟩
    · refine ⟨i, w₁, hin, ?_⟩
      rw [hin.steps]
      cbv
    · -- the locker is shown, which is no step
      obtain ⟨events, hlog, hall⟩ := haway.only
      have hmem : Event.render ["rooms", "lockers"] ∈ events := by
        have hevents : events = (Router.answer routes (lockerRequest [("badge", "m")]) (Env.quiet "n") world).2.log :=
          hlog.symm
        rw [hevents]
        decide +kernel
      cases hall _ hmem
  · rcases horder [] with ⟨i, w₁, hin⟩ | haway
    · -- the attendant is not left
      obtain ⟨response, w₂, hreached, -⟩ := hin.handles _ _ rfl
      have hback := (hin.leaves response w₂ hreached).2.1
      have hleft : Step.left ["rooms", "lockers"] "attendant"
          ∈ (Router.answer routes (lockerRequest []) (Env.quiet "n") world).2.steps := by
        rw [hback]
        exact List.mem_append_right _ (by decide +kernel)
      exact absurd hleft (by decide +kernel)
    · exact haway

end ResourceTree
