import ResourceTree.Api.Router
import ResourceTree.Blueprint.Handlers

/-! # Trees that a blueprint describes

A description of a node is an object whose `children` describe the nodes below it. `tree` makes the tree;
`nodes` lists the descriptions with the places of their nodes, from which the resources that are stored in the
beginning and the storage calls that break down are taken. -/

namespace ResourceTree

namespace Json

/-- A member of an object is smaller than the object. -/
theorem sizeOf_lt_of_get? {doc value : Json} {key : String} (h : doc.get? key = some value) :
    sizeOf value < sizeOf doc := by
  cases doc with
  | obj members =>
    simp only [get?, Fields.get?, Option.map_eq_some_iff] at h
    obtain ⟨member, hfind, rfl⟩ := h
    have hmem := List.sizeOf_lt_of_mem (List.mem_of_find?_eq_some hfind)
    have hsize : sizeOf member = 1 + sizeOf member.1 + sizeOf member.2 := by cases member; rfl
    simp only [obj.sizeOf_spec]
    omega
  | _ => simp [get?] at h

/-- An item under a key is smaller than the object. -/
theorem sizeOf_lt_of_mem_itemsAt {doc item : Json} {key : String} (h : item ∈ doc.itemsAt key) :
    sizeOf item < sizeOf doc := by
  unfold itemsAt at h
  cases hget : doc.get? key with
  | none => simp [hget] at h
  | some value =>
    have hvalue := sizeOf_lt_of_get? hget
    cases value with
    | arr items =>
      have hitem := List.sizeOf_lt_of_mem (show item ∈ items by simpa [hget, items?] using h)
      simp only [arr.sizeOf_spec] at hvalue
      omega
    | _ => simp [hget, items?] at h

end Json

namespace Blueprint

/-! ## The parts of a node -/

/-- The kind of the resources of a node. -/
def kindAt (doc : Json) : Kind Record := (kindNamed (doc.textAt "type")).kind

/-- What request bodies of a node are laid over. -/
def blankAt (doc : Json) : Record :=
  match (kindAt doc).decode ((doc.get? "instance").getD (.obj [])) with
  | .ok r => r
  | .error _ => .empty

/-- The hooks of a node. -/
def hooksAt (doc : Json) : Hooks Record where
  filter := (doc.get? "filter").map (filter (kindAt doc))
  wrapper := (doc.get? "wrapper").map (wrapper (kindAt doc))
  listWrapper := (doc.get? "list_wrapper").map (listWrapper (kindAt doc))
  onSave := (doc.get? "on_save").map fun steps => onSave (kindAt doc) (steps.items?.getD [])
  beforeDelete := (doc.get? "before_delete").map deleteHook
  afterDelete := (doc.get? "after_delete").map deleteHook

/-- The status codes of a node. -/
def codesAt (doc : Json) : ResponseCodes :=
  (doc.membersAt "codes").foldl
    (fun codes member => codes.set (.ofToken member.1) (member.2.nat?.getD 200)) .standard

/-- The resources of a node. -/
def collectionAt (doc : Json) (node : NodeKey) : Collection Record :=
  ⟨node, doc.textAt "name", kindAt doc, blankAt doc, hooksAt doc, codesAt doc⟩

/-- What every node has. -/
def frameAt (doc : Json) (c : Collection Record) : Frame Record where
  name := doc.textAt "name"
  base := doc.textAt "base"
  middlewares := (doc.itemsAt "middlewares").map middleware
  routes := (doc.itemsAt "routes").map (customRoute c)
  rootRoutes := (doc.itemsAt "root_routes").map (customRoute c)

/-- What an API has besides. Of two handlers for one operation the later one counts. -/
def serviceAt (doc : Json) (c : Collection Record) : Service Record where
  kind := c.kind
  blank := c.blank
  hooks := c.hooks
  codes := c.codes
  overrides := (doc.itemsAt "handlers").reverse.filterMap fun description =>
    (operation? (description.textAt "op")).map fun op => (op, handler c description)
  idRoutes := (doc.itemsAt "id_routes").map (customRoute c)
  idMiddlewares := (doc.itemsAt "id_middlewares").map (idMiddleware c.kind)

/-- The node of a description without the nodes below it, at the place below these names. -/
def bareNode (above : NodeKey) (doc : Json) : Node Record :=
  let c := collectionAt doc (above ++ [doc.textAt "name"])
  if doc.textAt "kind" = "root" then .group (frameAt doc c) else .api (frameAt doc c) (serviceAt doc c)

/-! ## Trees -/

/-- The tree of a description at the place below these names. Every child is complete before it is nested. -/
def treeBelow (above : NodeKey) (doc : Json) : Except ConfigError (Node Record) :=
  (doc.itemsAt "children").attach.foldlM
    (fun parent child => do
      let child ← treeBelow (above ++ [doc.textAt "name"]) child.1
      parent.nest child)
    (bareNode above doc)
termination_by doc
decreasing_by exact Json.sizeOf_lt_of_mem_itemsAt child.2

/-- The tree of a description. -/
def tree (doc : Json) : Except ConfigError (Node Record) := treeBelow [] doc

/-- The descriptions of a node and all nodes below it, with the places of their nodes below these names. -/
def nodesBelow (above : NodeKey) (doc : Json) : List (NodeKey × Json) :=
  let node := above ++ [doc.textAt "name"]
  (node, doc) :: (doc.itemsAt "children").attach.flatMap fun child => nodesBelow node child.1
termination_by doc
decreasing_by exact Json.sizeOf_lt_of_mem_itemsAt child.2

/-- The descriptions of all nodes with the places of their nodes. -/
def nodes (doc : Json) : List (NodeKey × Json) := nodesBelow [] doc

/-! ## The storage of a tree -/

/-- Whether the storage of a node is one that shows its calls, keeps what it is seeded with and may break
down. -/
def isObserved (doc : Json) : Bool := doc.textAt "storage" != "default"

/-- The resources that a node has in the beginning. -/
def seedStore (doc : Json) : Store Record :=
  if isObserved doc then
    (doc.itemsAt "seed").foldl
      (fun store value =>
        match (kindAt doc).decode value with
        | .ok r => store.insert r.identity.id r
        | .error _ => store)
      .empty
  else .empty

/-- The world in which the first request arrives. -/
def initialWorld (doc : Json) : World Record :=
  (nodes doc).foldl (fun w node => w.setStore node.1 (seedStore node.2)) .initial

/-- The name of a storage call in a description. -/
def callName : StoreCall → String
  | .get _ => "get"
  | .set _ => "set"
  | .delete _ => "delete"
  | .list => "get_all"

/-- How a storage call on a node fails. -/
def outageAt (doc : Json) (c : StoreCall) : Option StorageError :=
  if isObserved doc then
    (doc.get? "storage_fail").bind fun failures =>
      (failures.get? (callName c)).map fun failure =>
        match failure with
        | .str reason => .failed reason
        | _ => .notFound
  else none

/-- How a storage call fails, by its place in the tree. -/
def outage (doc : Json) (node : NodeKey) (_ : Nat) (c : StoreCall) : Option StorageError :=
  ((nodes doc).lookup node).bind fun description => outageAt description c

end Blueprint

end ResourceTree
