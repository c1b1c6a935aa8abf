import ResourceTree.Api.Node
import ResourceTree.Route.Mounting
import ResourceTree.Route.Table

/-! # Routers

A tree is assembled into a list of routes, each with its pattern, the layers around it from the outside in,
and what it does for each method. Every pattern is claimed first, so that a tree with two routes of one shape is
refused, and then its route is mounted and merged with those before, where the matcher may give up. A request finds
the route that its path matches, passes through the layers, and reaches the endpoint for its method; what it finds
on the way down it keeps resolved. -/

namespace ResourceTree

/-- What a route does for a method. -/
inductive Endpoint (R : Type) where
  | operation (c : Collection R) (op : Operation)
  | custom (node : NodeKey) (handler : Handler R)

/-- Something around a route. -/
inductive Layer (R : Type) where
  | plain (node : NodeKey) (m : Middleware)
  /-- A check of the requested resource, which stays resolved. -/
  | guard (c : Collection R) (g : Guard R)
  /-- The requested resource is resolved for what lies below it. -/
  | resolve (c : Collection R)

/-- A route of a tree. -/
structure Route (R : Type) where
  pattern : String
  /-- The layers around the route, the outermost first. -/
  layers : List (Layer R)
  /-- The methods in the order in which they were registered. -/
  methods : List (Method × Endpoint R)

namespace Route

variable {R : Type}

/-- A route behind more layers. -/
def behind (layers : List (Layer R)) (r : Route R) : Route R := { r with layers := layers ++ r.layers }

end Route

/-! ## Routes side by side -/

namespace Router

variable {R : Type}

/-- The router of a single route. -/
def mount (r : Route R) : Except BuildError (List (Route R)) :=
  if Route.isMountable r.pattern then .ok [r] else .error .panicked

/-- A router with the routes of another one besides. -/
def merge (routes more : List (Route R)) : Except BuildError (List (Route R)) :=
  if Route.anyClash (routes.map Route.pattern) (more.map Route.pattern) then .error .panicked
  else .ok (routes ++ more)

end Router

/-! ## Assembling a tree -/

namespace Service

variable {R : Type}

/-- What answers an operation: the handler in the place of the default one, or the default one. -/
def endpoint (s : Service R) (c : Collection R) (op : Operation) : Method × Endpoint R :=
  match s.overrides.lookup op with
  | some handler => (op.method, .custom c.node handler)
  | none => (op.method, .operation c op)

/-- The layers on the routes below a resource's ID. -/
def idLayers (s : Service R) (c : Collection R) : List (Layer R) :=
  s.idMiddlewares.map fun
    | .plain m => .plain c.node m
    | .guard g => .guard c g

end Service

/-- The routes assembled so far, with their claims. -/
abbrev Assembly (R : Type) := List (Route R) × RouteTable

namespace RouteTable

/-- Claims a pattern for a tree, which is refused if it cannot be claimed. -/
def reserve (table : RouteTable) (pattern : String) : Except BuildError RouteTable :=
  (table.claim pattern).mapError .refused

end RouteTable

namespace CustomRoute

variable {R : Type}

/-- The route below a pattern. -/
def route (stem : String) (node : NodeKey) (custom : CustomRoute R) : Route R :=
  ⟨joinPaths stem custom.path, [], custom.methods.map fun m => (m, .custom node custom.handler)⟩

/-- Claims the custom routes below a pattern, and adds each to those before. -/
def assemble (stem : String) (node : NodeKey) (done : Assembly R) :
    List (CustomRoute R) → Except BuildError (Assembly R)
  | [] => .ok done
  | custom :: rest => do
    let (routes, table) := done
    let table ← table.reserve (joinPaths stem custom.path)
    let mounted ← Router.mount (custom.route stem node)
    let routes ← Router.merge routes mounted
    assemble stem node (routes, table) rest

end CustomRoute

namespace Node

variable {R : Type}

/-- Refuses a name whose path parameter is one of an ancestor's. -/
def checkChain (name : String) (parent : RoutePath) : Except ConfigError Unit :=
  match parent.segments.find? fun s => s.idParam == idParam name with
  | some clash => .error (.duplicateName clash.name name)
  | none => .ok ()

/-- The node's middlewares around its routes, and its root routes outside of them. -/
def enclose (frame : Frame R) (parent : RoutePath) (node : NodeKey) (routes : List (Route R))
    (table : RouteTable) : Except BuildError (Assembly R) := do
  let routes := routes.map (Route.behind (frame.middlewares.map (Layer.plain node)))
  -- root routes are left outside of the middlewares, and only the top may have them
  if frame.rootRoutes.isEmpty then return (routes, table)
  if !parent.segments.isEmpty then throw (.refused (.rootRouteOnChild frame.name))
  let (rootRoutes, table) ← CustomRoute.assemble "/" node ([], table) frame.rootRoutes
  let routes ← Router.merge routes rootRoutes
  return (routes, table)

mutual

/-- Claims and adds the routes of a node and of all nodes below it. -/
def assemble (parent : RoutePath) (table : RouteTable) : Node R → Except BuildError (Assembly R)
  | .mk frame none children => do
    (checkChain frame.name parent).mapError .refused
    let path := parent.child frame.name frame.base false
    let (custom, table) ← CustomRoute.assemble path.collectionPattern path.names ([], table) frame.routes
    let (below, table) ← assembleAll path ([], table) children
    let routes ← Router.merge custom below
    enclose frame parent path.names routes table
  | .mk frame (some service) children => do
    (checkChain frame.name parent).mapError .refused
    let path := parent.child frame.name frame.base true
    let c := service.collection frame.name path.names
    let table ← table.reserve path.collectionPattern
    let table ← table.reserve path.itemPattern
    let collection ← Router.mount
      ⟨path.collectionPattern, [], Operation.ofCollection.map (service.endpoint c)⟩
    let (custom, table) ← CustomRoute.assemble path.collectionPattern path.names ([], table) frame.routes
    let collection ← Router.merge collection custom
    let (onId, table) ← CustomRoute.assemble path.itemPattern path.names ([], table) service.idRoutes
    let (below, table) ← assembleAll path ([], table) children
    let belowId ← Router.merge onId below
    let item ← Router.mount ⟨path.itemPattern, [], Operation.ofItem.map (service.endpoint c)⟩
    -- the resource is resolved for what lies below its ID, and on the ID itself only if there is a guard
    let withId ← Router.merge item (belowId.map (Route.behind [.resolve c]))
    let routes ← Router.merge collection (withId.map (Route.behind (service.idLayers c)))
    enclose frame parent path.names routes table

/-- Claims the routes of siblings, in order, and adds those of each to those before. -/
def assembleAll (parent : RoutePath) (done : Assembly R) : List (Node R) → Except BuildError (Assembly R)
  | [] => .ok done
  | n :: ns => do
    let (routes, table) := done
    let (more, table) ← assemble parent table n
    let routes ← Router.merge routes more
    assembleAll parent (routes, table) ns

end

/-- The router of a tree with this node at its top. -/
def router (n : Node R) : Except BuildError (List (Route R)) :=
  (assemble .root .empty n).map Prod.fst

end Node

/-! ## Answering a request -/

/-- A request on its way to an endpoint. -/
structure Inflight (R : Type) where
  request : Request
  params : List (String × String)
  resolved : Fields (Resolved R)

namespace Inflight

variable {R : Type}

/-- The context of the request at this point. -/
def context (i : Inflight R) : Context R := .ofRequest i.request i.params i.resolved

/-- The request with the resource of a collection resolved. -/
def resolve (i : Inflight R) (c : Collection R) (r : R) : Inflight R :=
  { i with resolved := i.resolved.put c.name ⟨c.kind.name, r⟩ }

end Inflight

/-- How many bytes of a body are read. -/
def bodyLimit : Nat := 2097152

namespace Action

variable {R : Type}

/-- An action whose error is an answer. -/
def answered (x : Action R Response) : Action R Response := do
  match ← x.attempt with
  | .ok response => pure response
  | .error e => pure (.error e)

/-- An action that is given the body of a request, unless that is too long. -/
def withBody (request : Request) (f : ByteArray → Action R Response) : Action R Response :=
  if bodyLimit < request.body.size then
    pure (.plain 413 "Failed to buffer the request body: length limit exceeded")
  else f request.body

end Action

namespace Layer

variable {R : Type}

/-- A layer around the rest of the way. -/
def around (next : Inflight R → Action R Response) (i : Inflight R) : Layer R → Action R Response
  | .plain node m => do
    Action.emit (.enter node m.tag)
    match m.enter i.request with
    | .error response => pure response
    | .ok request => do
      let response ← next { i with request := request }
      let response := m.leave response
      Action.emit (.leave node m.tag response.status)
      pure response
  | .guard c g => do
    match ← (c.requested i.context).attempt with
    | .error e => pure (.error e)
    | .ok r => do
      Action.emit (.guard c.node g.tag (c.kind.id r))
      match g.check i.context r with
      | .error e => pure (.error e)
      | .ok () => next (i.resolve c r)
  | .resolve c =>
    if i.context.contains c.name then next i
    else do
      match ← (c.requested i.context).attempt with
      | .error e => pure (.error e)
      | .ok r => next (i.resolve c r)

/-- Layers around the rest of the way, the first one outermost. -/
def through (next : Inflight R → Action R Response) : List (Layer R) → Inflight R → Action R Response
  | [], i => next i
  | layer :: layers, i => layer.around (through next layers) i

end Layer

namespace Endpoint

variable {R : Type}

/-- What an endpoint answers. -/
def run (i : Inflight R) : Endpoint R → Action R Response
  | .operation c op =>
    if Collection.readsBody op then
      Action.withBody i.request fun body => (c.handle op i.context body).answered
    else (c.handle op i.context .empty).answered
  | .custom node handler =>
    Action.withBody i.request fun body => do
      Action.emit (.handler node handler.tag)
      (handler.run i.context body).answered

end Endpoint

namespace Route

variable {R : Type}

/-- The endpoint for a method. What answers GET also answers HEAD. -/
def endpoint? (r : Route R) (m : Method) : Option (Endpoint R) :=
  match r.methods.lookup m with
  | some e => some e
  | none => if m = .head then r.methods.lookup .get else none

/-- The methods that a registered method answers. -/
def answeredBy : Method → List String
  | .get => ["GET", "HEAD"]
  | m => [m.token]

/-- The methods of a route in the order of their registration. -/
def allowed (r : Route R) : List String :=
  (r.methods.flatMap fun m => answeredBy m.1).foldl
    (fun seen token => if seen.contains token then seen else seen ++ [token]) []

/-- What a route answers. A method that it does not have passes through the layers too. -/
def answer (r : Route R) (i : Inflight R) : Action R Response := do
  match r.endpoint? i.request.method with
  | some e => Layer.through e.run r.layers i
  | none => do
    let response ← Layer.through (fun _ => pure (.bare 405)) r.layers i
    pure (response.setHeader "allow" (String.intercalate "," r.allowed))

end Route

namespace Router

variable {R : Type}

/-- The decoded path parameters: none at all if one of them is not UTF-8. -/
def decodeParams (taken : List (String × String)) : List (String × String) :=
  (taken.mapM fun param => (Percent.decode? param.2).map fun value => (param.1, value)).getD []

/-- What a router answers to a request. -/
def serve (routes : List (Route R)) (request : Request) : Action R Response :=
  match Route.lookup (routes.map fun r => (r.pattern, r)) request.path with
  | none => pure (.bare 404)
  | some (route, taken) => do
    -- nothing is resolved yet when a request enters a route
    let response ← route.answer ⟨request, decodeParams taken, []⟩
    pure (if request.method = .head then response.withoutBody else response)

/-- What a router answers within the time that a request may take. -/
def answer (routes : List (Route R)) (request : Request) (env : Env) (w : World R) :
    Response × World R :=
  match serve routes request env w with
  | (.ok response, w) => (response, w)
  | (.error (.api e), w) => (.error e, w)
  | (.error .expired, w) => (.bare 408, w)

end Router

end ResourceTree
