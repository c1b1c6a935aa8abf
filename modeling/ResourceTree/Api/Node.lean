import ResourceTree.Api.Collection

/-! # Trees of APIs

A node of a tree is an API with resources of its own, or a group that only gathers nodes under a base path.
Siblings have different names. A node carries its middlewares and custom routes; an API also carries
everything its default handlers need, guards and other middlewares for the routes below a resource's ID, and
handlers that stand in for default ones. -/

namespace ResourceTree

/-- A middleware around routes: it lets a request in, perhaps changed, or answers it, and may change the answer
on its way out. -/
structure Middleware where
  tag : String
  enter : Request → Except Response Request := .ok
  leave : Response → Response := id

/-- A check of the requested resource. -/
structure Guard (R : Type) where
  tag : String
  check : Context R → R → Except ApiError Unit

/-- A middleware on the routes below a resource's ID. -/
inductive IdMiddleware (R : Type) where
  | plain (m : Middleware)
  | guard (g : Guard R)

/-- A handler that is no default one. -/
structure Handler (R : Type) where
  tag : String
  run : Context R → ByteArray → Action R Response

/-- A custom route below a base path. -/
structure CustomRoute (R : Type) where
  path : String
  methods : List Method
  handler : Handler R

/-- What every node has. -/
structure Frame (R : Type) where
  name : String
  base : String
  middlewares : List Middleware := []
  /-- Routes below the base path. -/
  routes : List (CustomRoute R) := []
  /-- Routes at absolute paths; only the top of a tree may have some. -/
  rootRoutes : List (CustomRoute R) := []

/-- What an API with resources of its own has besides. -/
structure Service (R : Type) where
  kind : Kind R
  blank : R
  hooks : Hooks R := {}
  codes : ResponseCodes := .standard
  /-- Handlers in the place of default ones. -/
  overrides : List (Operation × Handler R) := []
  /-- Routes below a resource's ID. -/
  idRoutes : List (CustomRoute R) := []
  idMiddlewares : List (IdMiddleware R) := []

/-- A node of a tree. A group is a node without a service. -/
inductive Node (R : Type) where
  | mk (frame : Frame R) (service : Option (Service R)) (children : List (Node R))

namespace Node

variable {R : Type}

/-- What every node has. -/
def frame : Node R → Frame R
  | .mk frame _ _ => frame

/-- What an API has besides. -/
def service : Node R → Option (Service R)
  | .mk _ service _ => service

/-- The nodes below a node, in the order in which they were nested. -/
def children : Node R → List (Node R)
  | .mk _ _ children => children

/-- The name of a node. -/
def name (n : Node R) : String := n.frame.name

/-- The base path of a node below its parent. -/
def base (n : Node R) : String := n.frame.base

/-- Whether the nodes below are addressed through an ID of this one. -/
def takesId (n : Node R) : Bool := n.service.isSome

/-- The status codes of a node's successful answers. -/
def codes (n : Node R) : ResponseCodes := (n.service.map Service.codes).getD .standard

/-- An API without nodes below it. -/
def api (frame : Frame R) (service : Service R) : Node R := .mk frame (some service) []

/-- A group without nodes below it. -/
def group (frame : Frame R) : Node R := .mk frame none []

/-- A node with another one nested below it, unless the name is taken by a sibling. -/
def nest (parent child : Node R) : Except ConfigError (Node R) :=
  if parent.children.any fun c => c.name == child.name then
    .error (.duplicateName parent.name child.name)
  else .ok (.mk parent.frame parent.service (parent.children ++ [child]))

/-- The path of a node below a path. -/
def pathBelow (n : Node R) (parent : RoutePath) : RoutePath := parent.child n.name n.base n.takesId

/-- The node below this one that a list of names leads to, with its path from the top, or the first name that
leads nowhere. -/
def follow (n : Node R) (path : RoutePath) : List String → Except String (Node R × RoutePath)
  | [] => .ok (n, path)
  | name :: names =>
    match n.children.find? fun c => c.name == name with
    | none => .error name
    | some child => follow child (child.pathBelow path) names

end Node

/-- The resources of the API that a service describes. -/
def Service.collection {R : Type} (s : Service R) (name : String) (node : NodeKey) : Collection R :=
  ⟨node, name, s.kind, s.blank, s.hooks, s.codes⟩

end ResourceTree
