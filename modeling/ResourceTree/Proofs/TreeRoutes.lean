import ResourceTree.Proofs.LayerPassage
import ResourceTree.Proofs.RouteMatching

/-! # The routes of a tree

A `Site` is a place in a tree where a route is: a node with the nodes above it, and one of the spots where a
node has routes. The pattern, the layers and the methods of the route follow from the site alone
(`Site.route`). `Node.router_ok` says that a tree is assembled into the routes of its sites, and that the nodes
of a site have different path parameters, by one induction over the tree. So a request that is dispatched comes
to a site (`Node.site_of_lookup`). -/

namespace ResourceTree

variable {R : Type}

/-! ## Sites -/

/-- A spot where a node has a route. -/
inductive Spot (R : Type) where
  | collection
  | item
  /-- A custom route below the base path. -/
  | custom (r : CustomRoute R)
  /-- A custom route below a resource's ID. -/
  | onId (r : CustomRoute R)
  /-- A custom route at an absolute path. -/
  | root (r : CustomRoute R)

/-- A place in a tree where a route is. -/
structure Site (R : Type) where
  /-- The nodes from the top of the tree down to the parent of the owner. -/
  above : List (Node R)
  owner : Node R
  spot : Spot R

namespace Node

/-- A node as a segment of a path. -/
def segment (n : Node R) : Segment := ⟨n.name, n.base, n.takesId⟩

/-- The resources of a node at a path, if it has any. -/
def collectionAt (n : Node R) (path : RoutePath) : Option (Collection R) :=
  n.service.map fun s => s.collection n.name path.names

/-- The middlewares around all routes of a node and below it. -/
def plainLayers (n : Node R) (path : RoutePath) : List (Layer R) :=
  n.frame.middlewares.map (.plain path.names)

/-- The layers around the routes on a resource's ID and below it. -/
def idLayers (n : Node R) (path : RoutePath) : List (Layer R) :=
  match n.service with
  | none => []
  | some s => s.idLayers (s.collection n.name path.names)

/-- The layer around the routes below a resource's ID only. -/
def resolveLayer (n : Node R) (path : RoutePath) : List (Layer R) :=
  match n.service with
  | none => []
  | some s => [.resolve (s.collection n.name path.names)]

/-- The layers that a node puts around the nodes below it. -/
def layersAbove (n : Node R) (path : RoutePath) : List (Layer R) :=
  n.plainLayers path ++ (n.idLayers path ++ n.resolveLayer path)

/-- The layers that a chain of nodes puts around what is below all of them. -/
def chainLayers (parent : RoutePath) : List (Node R) → List (Layer R)
  | [] => []
  | n :: ns => n.layersAbove (n.pathBelow parent) ++ chainLayers (n.pathBelow parent) ns

end Node

/-- A path extended by a chain of nodes. -/
def RoutePath.below (parent : RoutePath) (nodes : List (Node R)) : RoutePath :=
  ⟨parent.segments ++ nodes.map Node.segment⟩

@[simp] theorem RoutePath.below_nil (parent : RoutePath) : parent.below ([] : List (Node R)) = parent := by
  rw [below, List.map_nil, List.append_nil]

theorem RoutePath.below_cons (parent : RoutePath) (n : Node R) (ns : List (Node R)) :
    parent.below (n :: ns) = (n.pathBelow parent).below ns := by
  have hsegments : (n.pathBelow parent).segments = parent.segments ++ [n.segment] := rfl
  rw [below, below, hsegments, List.map_cons, List.append_assoc, List.singleton_append]

namespace Spot

/-- The pattern of the route at a spot of a node with this path. -/
def pattern (path : RoutePath) : Spot R → String
  | .collection => path.collectionPattern
  | .item => path.itemPattern
  | .custom r => joinPaths path.collectionPattern r.path
  | .onId r => joinPaths path.itemPattern r.path
  | .root r => joinPaths "/" r.path

/-- The layers that the owner puts around the route at a spot. -/
def layers (owner : Node R) (path : RoutePath) : Spot R → List (Layer R)
  | .collection | .custom _ => owner.plainLayers path
  | .item => owner.plainLayers path ++ owner.idLayers path
  | .onId _ => owner.layersAbove path
  | .root _ => []

/-- The default or standing-in endpoints of a node for some operations. -/
def operations (owner : Node R) (path : RoutePath) (ops : List Operation) : List (Method × Endpoint R) :=
  match owner.service with
  | none => []
  | some s => ops.map (s.endpoint (s.collection owner.name path.names))

/-- The methods of the route at a spot. -/
def methods (owner : Node R) (path : RoutePath) : Spot R → List (Method × Endpoint R)
  | .collection => operations owner path Operation.ofCollection
  | .item => operations owner path Operation.ofItem
  | .custom r | .onId r | .root r => r.methods.map fun m => (m, .custom path.names r.handler)

end Spot

namespace Site

/-- The nodes from the top of the tree down to the owner. -/
def chain (site : Site R) : List (Node R) := site.above ++ [site.owner]

/-- The path of the owner. -/
def path (parent : RoutePath) (site : Site R) : RoutePath := parent.below site.chain

/-- The route at a site of a tree that hangs below a path. -/
def route (parent : RoutePath) (site : Site R) : Route R where
  pattern := site.spot.pattern (site.path parent)
  layers := Node.chainLayers parent site.above ++ site.spot.layers site.owner (site.path parent)
  methods := site.spot.methods site.owner (site.path parent)

/-- A site with one more node above. -/
def under (n : Node R) (site : Site R) : Site R := { site with above := n :: site.above }

end Site

namespace Node

mutual

/-- The sites of a node and of all nodes below it, in the order of assembly. -/
def sites : Node R → List (Site R)
  | .mk frame none children =>
    frame.routes.map (fun r => ⟨[], .mk frame none children, .custom r⟩)
      ++ (sitesOf children).map (Site.under (.mk frame none children))
      ++ frame.rootRoutes.map fun r => ⟨[], .mk frame none children, .root r⟩
  | .mk frame (some service) children =>
    ⟨[], .mk frame (some service) children, .collection⟩
      :: frame.routes.map (fun r => ⟨[], .mk frame (some service) children, .custom r⟩)
      ++ ⟨[], .mk frame (some service) children, .item⟩
      :: service.idRoutes.map (fun r => ⟨[], .mk frame (some service) children, .onId r⟩)
      ++ (sitesOf children).map (Site.under (.mk frame (some service) children))
      ++ frame.rootRoutes.map fun r => ⟨[], .mk frame (some service) children, .root r⟩

/-- The sites of siblings, in order. -/
def sitesOf : List (Node R) → List (Site R)
  | [] => []
  | n :: ns => n.sites ++ sitesOf ns

end

end Node

/-! ## Assembly -/

/-- A chain of computations succeeds when both do. -/
theorem except_bind_eq_ok {ε α β : Type} {x : Except ε α} {f : α → Except ε β} {b : β}
    (h : (x >>= f) = .ok b) : ∃ a, x = .ok a ∧ f a = .ok b := by
  cases x with
  | error e => cases h
  | ok a => exact ⟨a, rfl, h⟩

/-- What an error is turned into does not count where there is none. -/
theorem except_mapError_eq_ok {ε ε' α : Type} {x : Except ε α} {f : ε → ε'} {a : α} (h : x.mapError f = .ok a) :
    x = .ok a := by
  cases x with
  | error e => cases h
  | ok b =>
      cases h
      rfl

namespace Router

/-- A route that the matcher takes makes a router of its own. -/
theorem mount_ok {r : Route R} {routes : List (Route R)} (h : mount r = .ok routes) : routes = [r] := by
  rw [mount] at h
  split at h
  · cases h
    rfl
  · cases h

/-- Routers that are merged keep their routes. -/
theorem merge_ok {routes more merged : List (Route R)} (h : merge routes more = .ok merged) :
    merged = routes ++ more := by
  rw [merge] at h
  split at h
  · cases h
  · cases h
    rfl

end Router

/-- The custom routes below a pattern, as they are added to those before. -/
theorem CustomRoute.assemble_ok {stem : String} {node : NodeKey} {customs : List (CustomRoute R)}
    {done : Assembly R} {table' : RouteTable} {routes : List (Route R)}
    (h : CustomRoute.assemble stem node done customs = .ok (routes, table')) :
    routes = done.1 ++ customs.map (CustomRoute.route stem node) := by
  induction customs generalizing done with
  | nil =>
      cases h
      rw [List.map_nil, List.append_nil]
  | cons r customs ih =>
      obtain ⟨table, -, h⟩ := except_bind_eq_ok h
      obtain ⟨mounted, hmount, h⟩ := except_bind_eq_ok h
      obtain ⟨merged, hmerge, h⟩ := except_bind_eq_ok h
      rw [ih h, Router.merge_ok hmerge, Router.mount_ok hmount, List.append_assoc, List.map_cons,
        List.singleton_append]

namespace Route

/-- A route without layers gets just those that it is put behind. -/
@[simp] theorem behind_bare (layers : List (Layer R)) (pattern : String) (methods : List (Method × Endpoint R)) :
    (⟨pattern, [], methods⟩ : Route R).behind layers = ⟨pattern, layers, methods⟩ := by
  rw [behind, List.append_nil]

end Route

namespace Node

/-- A node that is accepted below a path has another path parameter than all nodes above. -/
theorem checkChain_ok {name : String} {parent : RoutePath} {u : Unit}
    (h : checkChain name parent = .ok u) : idParam name ∉ parent.segments.map Segment.idParam := by
  intro hmem
  obtain ⟨s, hs, heq⟩ := List.mem_map.mp hmem
  rw [checkChain] at h
  cases hfind : parent.segments.find? fun s => s.idParam == idParam name with
  | some clash => simp [hfind] at h
  | none =>
      have hne := List.find?_eq_none.mp hfind s hs
      simp [heq] at hne

/-- The node's own middlewares are put around the routes below, and its root routes outside of them, which it
may only have at the top. -/
theorem enclose_ok {frame : Frame R} {parent : RoutePath} {node : NodeKey} {routes routes' : List (Route R)}
    {table table' : RouteTable} (h : enclose frame parent node routes table = .ok (routes', table')) :
    routes' = routes.map (Route.behind (frame.middlewares.map (Layer.plain node)))
        ++ frame.rootRoutes.map (CustomRoute.route "/" node)
      ∧ (frame.rootRoutes ≠ [] → parent.segments = []) := by
  rw [enclose] at h
  cases hroot : frame.rootRoutes with
  | nil =>
      simp only [hroot, List.isEmpty_nil, if_true] at h
      cases h
      simp
  | cons r rest =>
      simp only [hroot, List.isEmpty_cons, Bool.false_eq_true, if_false] at h
      split at h
      · cases h
      · obtain ⟨⟨rooted, table₁⟩, hrooted, h⟩ := except_bind_eq_ok h
        obtain ⟨merged, hmerge, h⟩ := except_bind_eq_ok h
        cases h
        refine ⟨by rw [Router.merge_ok hmerge, CustomRoute.assemble_ok hrooted, List.nil_append], fun _ => ?_⟩
        simp_all

end Node

namespace Site

variable (parent : RoutePath) (n : Node R) (site : Site R)

/-- A site's path below a node is its path below the node's path. -/
theorem path_under : (site.under n).path parent = site.path (n.pathBelow parent) :=
  RoutePath.below_cons parent n site.chain

/-- **A route below a node** is the route below the node's path, behind the layers of the node. -/
theorem route_under : (site.under n).route parent
    = (site.route (n.pathBelow parent)).behind (n.layersAbove (n.pathBelow parent)) := by
  rw [route, route, Route.behind, path_under]
  simp only [under, Node.chainLayers, List.append_assoc]

/-- The path parameters of the nodes of a site, with those of a path above. -/
def idParams : List String := (site.path parent).segments.map Segment.idParam

theorem idParams_under : (site.under n).idParams parent = site.idParams (n.pathBelow parent) := by
  rw [idParams, path_under, idParams]

end Site

namespace Node

/-- A node with a new path parameter keeps the parameters of a path different. -/
theorem nodup_pathBelow {parent : RoutePath} {n : Node R}
    (hparent : (parent.segments.map Segment.idParam).Nodup)
    (hnew : idParam n.name ∉ parent.segments.map Segment.idParam) :
    ((n.pathBelow parent).segments.map Segment.idParam).Nodup := by
  have hsegments : (n.pathBelow parent).segments = parent.segments ++ [n.segment] := rfl
  rw [hsegments, List.map_append, List.nodup_append]
  refine ⟨hparent, List.pairwise_singleton _ _, fun a ha b hb => ?_⟩
  rintro rfl
  rw [List.mem_singleton.mp hb] at ha
  exact hnew ha

/-- What is known of the routes assembled below a path, given the sites. -/
structure Assembled (parent : RoutePath) (sites : List (Site R)) (routes : List (Route R)) : Prop where
  eq : routes = sites.map (Site.route parent)
  nodup : (parent.segments.map Segment.idParam).Nodup → ∀ site ∈ sites, (site.idParams parent).Nodup
  atTop : ∀ site ∈ sites, ∀ r, site.spot = .root r → parent.segments = [] ∧ site.above = []

/-- A site of a node is at a spot of the node itself, or it is a site of a node below. -/
theorem mem_sites {n : Node R} {site : Site R} (h : site ∈ n.sites) :
    (∃ spot, site = ⟨[], n, spot⟩ ∧ ∀ r, spot = .root r → r ∈ n.frame.rootRoutes)
      ∨ ∃ inner ∈ sitesOf n.children, site = inner.under n := by
  cases n with
  | mk frame service children =>
      cases service with
      | none =>
          rw [sites] at h
          simp only [List.mem_append, List.mem_map] at h
          rcases h with (⟨r, -, rfl⟩ | ⟨inner, hinner, rfl⟩) | ⟨r, hr, rfl⟩
          · exact Or.inl ⟨.custom r, rfl, fun r' h => by cases h⟩
          · exact Or.inr ⟨inner, hinner, rfl⟩
          · exact Or.inl ⟨.root r, rfl, fun r' h => by cases h; exact hr⟩
      | some service =>
          rw [sites] at h
          simp only [List.mem_append, List.mem_cons, List.mem_map] at h
          rcases h with (((rfl | ⟨r, -, rfl⟩) | rfl | ⟨r, -, rfl⟩) | ⟨inner, hinner, rfl⟩) | ⟨r, hr, rfl⟩
          · exact Or.inl ⟨.collection, rfl, fun r' h => by cases h⟩
          · exact Or.inl ⟨.custom r, rfl, fun r' h => by cases h⟩
          · exact Or.inl ⟨.item, rfl, fun r' h => by cases h⟩
          · exact Or.inl ⟨.onId r, rfl, fun r' h => by cases h⟩
          · exact Or.inr ⟨inner, hinner, rfl⟩
          · exact Or.inl ⟨.root r, rfl, fun r' h => by cases h; exact hr⟩

/-- What is known of the routes below a node carries over to the node. -/
theorem Assembled.enclosed {n : Node R} {parent : RoutePath} {routes below : List (Route R)}
    (h : Assembled (n.pathBelow parent) (sitesOf n.children) below)
    (heq : routes = n.sites.map (Site.route parent))
    (hnew : idParam n.name ∉ parent.segments.map Segment.idParam)
    (hroot : n.frame.rootRoutes ≠ [] → parent.segments = []) : Assembled parent n.sites routes where
  eq := heq
  nodup hparent site hsite := by
    have hpath := nodup_pathBelow hparent hnew
    rcases mem_sites hsite with ⟨spot, rfl, -⟩ | ⟨inner, hinner, rfl⟩
    · exact hpath
    · rw [Site.idParams_under]
      exact h.nodup hpath inner hinner
  atTop site hsite r hr := by
    rcases mem_sites hsite with ⟨spot, rfl, hspot⟩ | ⟨inner, hinner, rfl⟩
    · exact ⟨hroot (List.ne_nil_of_mem (hspot r hr)), rfl⟩
    · -- the path below a node is not that of the top
      exact absurd (h.atTop inner hinner r hr).1 (by simp [pathBelow, RoutePath.child])

mutual

/-- **A tree is assembled into the routes of its sites**, by induction on the tree. -/
theorem assemble_ok {parent : RoutePath} {table table' : RouteTable} {routes : List (Route R)}
    (n : Node R) (h : assemble parent table n = .ok (routes, table')) :
    Assembled parent n.sites routes := by
  match n with
  | .mk frame none children =>
      rw [assemble] at h
      obtain ⟨_, hcheck, h⟩ := except_bind_eq_ok h
      obtain ⟨⟨custom, table₁⟩, hcustom, h⟩ := except_bind_eq_ok h
      obtain ⟨⟨below, table₂⟩, hbelow, h⟩ := except_bind_eq_ok h
      obtain ⟨merged, hmerge, h⟩ := except_bind_eq_ok h
      obtain ⟨added, hadded, hchildren⟩ := assembleAll_ok children hbelow
      rw [List.nil_append] at hadded
      obtain ⟨hroutes, hroot⟩ := enclose_ok h
      -- without a resource a node puts its own middlewares around what is below it
      have hlayers : (Node.mk frame none children).layersAbove
          ((Node.mk frame none children).pathBelow parent)
            = frame.middlewares.map (Layer.plain (parent.child frame.name frame.base false).names) :=
        List.append_nil _
      have hunder : (Site.route parent ∘ Site.under (.mk frame none children))
          = Route.behind (frame.middlewares.map (Layer.plain (parent.child frame.name frame.base false).names))
            ∘ Site.route (parent.child frame.name frame.base false) := by
        funext site
        rw [Function.comp_apply, Site.route_under, hlayers]
        rfl
      refine Assembled.enclosed hchildren ?_ (checkChain_ok (except_mapError_eq_ok hcheck)) hroot
      rw [hroutes, Router.merge_ok hmerge, CustomRoute.assemble_ok hcustom, List.nil_append, hadded, hchildren.eq,
        sites]
      simp only [List.map_append, List.map_map, hunder]
      simp only [Function.comp_def, CustomRoute.route, Route.behind_bare]
      rfl
  | .mk frame (some service) children =>
      rw [assemble] at h
      obtain ⟨_, hcheck, h⟩ := except_bind_eq_ok h
      obtain ⟨table₁, -, h⟩ := except_bind_eq_ok h
      obtain ⟨table₂, -, h⟩ := except_bind_eq_ok h
      obtain ⟨bare, hbare, h⟩ := except_bind_eq_ok h
      obtain ⟨⟨custom, table₃⟩, hcustom, h⟩ := except_bind_eq_ok h
      obtain ⟨collection, hcollection, h⟩ := except_bind_eq_ok h
      obtain ⟨⟨onId, table₄⟩, honId, h⟩ := except_bind_eq_ok h
      obtain ⟨⟨below, table₅⟩, hbelow, h⟩ := except_bind_eq_ok h
      obtain ⟨belowId, hbelowId, h⟩ := except_bind_eq_ok h
      obtain ⟨item, hitem, h⟩ := except_bind_eq_ok h
      obtain ⟨withId, hwithId, h⟩ := except_bind_eq_ok h
      obtain ⟨merged, hmerged, h⟩ := except_bind_eq_ok h
      obtain ⟨added, hadded, hchildren⟩ := assembleAll_ok children hbelow
      rw [List.nil_append] at hadded
      obtain ⟨hroutes, hroot⟩ := enclose_ok h
      -- an API adds the layers on the ID of its resource, and the one that resolves it
      have hlayers : (Node.mk frame (some service) children).layersAbove
          ((Node.mk frame (some service) children).pathBelow parent)
            = frame.middlewares.map (Layer.plain (parent.child frame.name frame.base true).names)
              ++ (service.idLayers
                  (service.collection frame.name (parent.child frame.name frame.base true).names)
                ++ [.resolve (service.collection frame.name (parent.child frame.name frame.base true).names)]) :=
        rfl
      refine Assembled.enclosed hchildren ?_ (checkChain_ok (except_mapError_eq_ok hcheck)) hroot
      -- the two routes of the API itself, each with what is added to it, side by side
      rw [hroutes, Router.merge_ok hmerged, Router.merge_ok hcollection, Router.mount_ok hbare,
        CustomRoute.assemble_ok hcustom, Router.merge_ok hwithId, Router.mount_ok hitem, Router.merge_ok hbelowId,
        CustomRoute.assemble_ok honId, hadded, hchildren.eq, sites]
      simp only [List.map_append, List.map_cons, List.map_nil, List.map_map]
      simp only [Function.comp_def, Site.route_under, hlayers, Route.behind, CustomRoute.route, List.append_assoc,
        List.cons_append, List.append_nil, List.nil_append]
      rfl

/-- Siblings add the routes of their sites to those before. -/
theorem assembleAll_ok {parent : RoutePath} {done : Assembly R} {table' : RouteTable} {routes : List (Route R)}
    (ns : List (Node R)) (h : assembleAll parent done ns = .ok (routes, table')) :
    ∃ added, routes = done.1 ++ added ∧ Assembled parent (sitesOf ns) added := by
  match ns with
  | [] =>
      cases h
      exact ⟨[], (List.append_nil _).symm, rfl, fun _ _ hsite => (List.not_mem_nil hsite).elim,
        fun _ hsite => (List.not_mem_nil hsite).elim⟩
  | n :: ns =>
      rw [assembleAll] at h
      obtain ⟨⟨first, table₁⟩, hfirst, h⟩ := except_bind_eq_ok h
      obtain ⟨merged, hmerge, h⟩ := except_bind_eq_ok h
      obtain ⟨more, hroutes, hmore, hnodups, hatTops⟩ := assembleAll_ok ns h
      obtain ⟨hfirst, hnodup, hatTop⟩ := assemble_ok n hfirst
      refine ⟨first ++ more, by rw [hroutes, Router.merge_ok hmerge, List.append_assoc], ?_, ?_, ?_⟩
      · rw [sitesOf, List.map_append, hfirst, hmore]
      · intro hparent site hsite
        rcases List.mem_append.mp hsite with hsite | hsite
        · exact hnodup hparent site hsite
        · exact hnodups hparent site hsite
      · intro site hsite
        rcases List.mem_append.mp hsite with hsite | hsite
        · exact hatTop site hsite
        · exact hatTops site hsite

end

/-- **The router of a tree** is the list of the routes of its sites. The nodes from the top down to any of them
have different path parameters, and only the top has root routes. -/
theorem router_ok {n : Node R} {routes : List (Route R)} (h : n.router = .ok routes) :
    Assembled .root n.sites routes := by
  rw [router] at h
  cases ha : assemble .root .empty n with
  | error e => simp [ha, Except.map] at h
  | ok assembly =>
      simp only [ha, Except.map, Except.ok.injEq] at h
      rw [← h]
      exact assemble_ok n ha

/-- The router of a tree that is not refused. -/
theorem router_eq {n : Node R} (h : n.router.isOk = true) :
    n.router = .ok (n.sites.map (Site.route .root)) := by
  cases hn : n.router with
  | error e =>
      rw [hn] at h
      cases h
  | ok routes => rw [(router_ok hn).eq]

/-- **A request that a tree's router dispatches** comes to the route of one of its sites, whose pattern the path
matches. -/
theorem site_of_lookup {n : Node R} {routes : List (Route R)} (hn : n.router = .ok routes) {path : String}
    {route : Route R} {taken : List (String × String)}
    (h : Route.lookup (routes.map fun r => (r.pattern, r)) path = some (route, taken)) :
    ∃ site ∈ n.sites, route = site.route .root ∧ ∃ texts,
      Route.Matches (Route.piecesOfPattern (site.route .root).pattern) (Text.splitOn '/' path.toList) texts
        ∧ taken = texts.map fun param => (param.1, String.ofList param.2) := by
  obtain ⟨pattern, hmem, texts, hmatch, htaken⟩ := Route.lookup_sound h
  obtain ⟨route', hroute, heq⟩ := List.mem_map.mp hmem
  cases heq
  rw [(router_ok hn).eq] at hroute
  obtain ⟨site, hsite, rfl⟩ := List.mem_map.mp hroute
  exact ⟨site, hsite, rfl, texts, hmatch, htaken⟩

end Node

/-! ## Endpoints -/

/-- What answers a method is registered on the route. -/
theorem Route.mem_of_endpoint {route : Route R} {m : Method} {e : Endpoint R}
    (h : route.endpoint? m = some e) : ∃ m', (m', e) ∈ route.methods := by
  have hmem {m' : Method} (h : route.methods.lookup m' = some e) : (m', e) ∈ route.methods := by
    obtain ⟨before, after, heq, -⟩ := List.lookup_eq_some_iff.mp h
    rw [heq]
    exact List.mem_append_right _ List.mem_cons_self
  cases hm : route.methods.lookup m with
  | some e' =>
      simp only [endpoint?, hm] at h
      cases h
      exact ⟨m, hmem hm⟩
  | none =>
      simp only [endpoint?, hm] at h
      split at h
      · exact ⟨.get, hmem h⟩
      · cases h

/-- **The default handlers of a site** work on the resources of its owner, on the path of the collection or on
that of one resource. -/
theorem Site.collection_of_endpoint {site : Site R} {m : Method} {c : Collection R} {op : Operation}
    (h : (site.route .root).endpoint? m = some (.operation c op)) :
    site.owner.collectionAt (site.path .root) = some c
      ∧ (site.spot = .collection ∨ site.spot = .item) := by
  obtain ⟨m', hmem⟩ := Route.mem_of_endpoint h
  have hservice {s : Service R} {ops : List Operation} (hs : site.owner.service = some s)
      (hmem : (m', Endpoint.operation c op)
        ∈ ops.map (s.endpoint (s.collection site.owner.name (site.path .root).names))) :
      site.owner.collectionAt (site.path .root) = some c := by
    obtain ⟨op', -, heq⟩ := List.mem_map.mp hmem
    rw [Service.endpoint] at heq
    rw [Node.collectionAt, hs]
    split at heq
    · cases heq
    · cases heq
      rfl
  have hoperations {ops : List Operation}
      (hmem : (m', Endpoint.operation c op) ∈ Spot.operations site.owner (site.path .root) ops) :
      site.owner.collectionAt (site.path .root) = some c := by
    rw [Spot.operations] at hmem
    cases hs : site.owner.service with
    | none => rw [hs] at hmem; cases hmem
    | some s => rw [hs] at hmem; exact hservice hs hmem
  have hcustom {r : CustomRoute R} {node : NodeKey}
      (hmem : (m', Endpoint.operation c op) ∈ r.methods.map fun m => (m, .custom node r.handler)) : False := by
    obtain ⟨m'', -, heq⟩ := List.mem_map.mp hmem
    cases heq
  rw [route] at hmem
  cases hspot : site.spot with
  | collection =>
      rw [hspot] at hmem
      exact ⟨hoperations hmem, Or.inl rfl⟩
  | item =>
      rw [hspot] at hmem
      exact ⟨hoperations hmem, Or.inr rfl⟩
  | custom r | onId r | root r =>
      rw [hspot] at hmem
      exact (hcustom hmem).elim

end ResourceTree
