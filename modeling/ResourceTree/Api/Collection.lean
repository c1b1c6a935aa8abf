import ResourceTree.Api.Payload

/-! # Collections and their default handlers

A collection is the resources of one API with everything its default handlers need: the kind of resources, the
blank resource that request bodies are laid over, the hooks and the status codes. Its six handlers list,
fetch, create, replace, merge and remove resources. Writing handlers read, bind and run their hooks first,
put the identity back in place after every hook, and then write once. -/

namespace ResourceTree

/-- The replaceable behaviour of an API. -/
structure Hooks (R : Type) where
  /-- Makes the predicate by which a list is selected. -/
  filter : Option (Context R → Except ApiError (R → Bool)) := none
  /-- Turns a resource into what is shown of it. -/
  wrapper : Option (Context R → R → Except ApiError View) := none
  /-- Turns the resources of a list into what is shown of them. -/
  listWrapper : Option (Context R → List R → Except ApiError View) := none
  /-- Runs right before a resource is stored. -/
  onSave : Option (Context R → R → Except ApiError R) := none
  /-- Runs before a delete and may cancel it. -/
  beforeDelete : Option (Context R → String → Except ApiError Unit) := none
  /-- Runs after a delete, which stays even if this fails. -/
  afterDelete : Option (Context R → String → Except ApiError Unit) := none

/-- The resources of one API. -/
structure Collection (R : Type) where
  node : NodeKey
  name : String
  kind : Kind R
  /-- What request bodies are laid over. -/
  blank : R
  hooks : Hooks R
  codes : ResponseCodes

/-- One of the six default handlers. -/
inductive Operation where
  | list
  | fetch
  | create
  | replace
  | merge
  | remove
  deriving DecidableEq, Repr

namespace Operation

/-- The method that an operation answers. -/
def method : Operation → Method
  | .list | .fetch => .get
  | .create => .post
  | .replace => .put
  | .merge => .patch
  | .remove => .delete

/-- Whether an operation is served on the path of one resource rather than on that of the collection. -/
def onItem : Operation → Bool
  | .list | .create => false
  | _ => true

/-- The operations on the path of the collection. -/
def ofCollection : List Operation := [.list, .create]

/-- The operations on the path of one resource. -/
def ofItem : List Operation := [.fetch, .replace, .merge, .remove]

end Operation

/-- What is wrong with a text that is not JSON. -/
def malformedJson : String := "malformed JSON text"

namespace Collection

variable {R : Type}

/-! ## Reading the request -/

/-- The value that a body is laid over. -/
def template (c : Collection R) : Except ApiError Json :=
  match c.kind.toValue c.blank with
  | .ok v => .ok v
  | .error reason => .error (.internal reason)

/-- A value with the members of an object over its own. -/
def overlay (target : Json) (members : List (String × Json)) : Json :=
  match target with
  | .obj existing => .obj (Fields.extend existing members)
  | _ => .obj members

/-- The value that a body stands for: the template, with the members of the body laid over it. A blank body
has none. -/
def bodyValue (target : Json) (body : ByteArray) : Except ApiError Json :=
  if body.toList.all Text.isAsciiBlank then .ok target
  else
    match Json.parseBytes? body with
    | none => .error (.invalidRequest malformedJson)
    | some (.obj members) => .ok (overlay target members)
    | some _ => .error (.invalidRequest "request body must be a JSON object")

/-- The resource that a body stands for. -/
def bindBody (c : Collection R) (body : ByteArray) : Except ApiError R := do
  let target ← c.template
  let value ← bodyValue target body
  match c.kind.decode value with
  | .ok r => .ok r
  | .error reason => .error (.invalidRequest reason)

/-- The ID in the path. -/
def pathId (c : Collection R) (ctx : Context R) : Except ApiError String :=
  match ctx.id? c.name with
  | some id => .ok id
  | none => .error .notFound

/-- A body may name the ID of the path or none. -/
def checkBodyId (c : Collection R) (r : R) (id : String) : Except ApiError Unit :=
  if c.kind.id r = "" ∨ c.kind.id r = id then .ok () else .error (.idMismatch (c.kind.id r) id)

/-! ## Stages of the handlers -/

/-- The bind hook. -/
def bind (c : Collection R) (ctx : Context R) (r : R) : Action R R := do
  Action.emit (.bind c.node)
  Action.lift (c.kind.bind ctx r)

/-- The merge of a partial update. -/
def patch (c : Collection R) (r partialUpdate : R) : Action R R := do
  Action.emit (.patch c.node)
  Action.lift (c.kind.patch r partialUpdate)

/-- The hook before storing. -/
def save (c : Collection R) (ctx : Context R) (r : R) : Action R R :=
  match c.hooks.onSave with
  | none => pure r
  | some hook => do
    Action.emit (.save c.node ctx.method (c.kind.id r))
    Action.lift (hook ctx r)

/-- Stores a resource under its ID. -/
def store (c : Collection R) (r : R) : Action R Unit :=
  Action.orFail (Action.set c.node (c.kind.id r) r)

/-- Fails if an ID is taken. -/
def checkUnused (c : Collection R) (id : String) : Action R Unit := do
  match ← Action.get c.node id with
  | .ok _ => Action.fail (.conflict id)
  | .error .notFound => pure ()
  | .error e => Action.fail (.ofStorage e)

/-- When the resource that is stored under an ID was created. -/
def createdAt (c : Collection R) (id : String) : Action R (Option Timestamp) := do
  match ← Action.get c.node id with
  | .ok r => pure (c.kind.identity r).createdAt
  | .error .notFound => pure none
  | .error e => Action.fail (.ofStorage e)

/-- The resource that a request asks for: the resolved one, or else the one stored under the ID of the
path. -/
def requested (c : Collection R) (ctx : Context R) : Action R R :=
  match ctx.resource? c.kind.name c.name with
  | some r => pure r
  | none => do
    let id ← Action.lift (c.pathId ctx)
    Action.orFail (Action.get c.node id)

/-- What is shown of a resource. -/
def present (c : Collection R) (ctx : Context R) (allowPage : Bool) (r : R) : Action R Payload :=
  match c.hooks.wrapper with
  | none => Payload.ofView ctx allowPage (.render c.node) (.page c.node) (c.kind.view ctx r)
  | some wrap => do
    Action.emit (.wrap c.node (c.kind.id r))
    Payload.ofView ctx allowPage (.renderView c.node) (.pageView c.node) (wrap ctx r)

/-- The answer that shows a resource. -/
def respond (c : Collection R) (ctx : Context R) (m : Method) (r : R) : Action R Response := do
  let payload ← c.present ctx true r
  return payload.toResponse (c.codes.get m)

/-- A delete hook. -/
def runDeleteHook (hook : Option (Context R → String → Except ApiError Unit)) (event : Event)
    (ctx : Context R) (id : String) : Action R Unit :=
  match hook with
  | none => pure ()
  | some hook => do
    Action.emit event
    Action.lift (hook ctx id)

/-! ## The handlers -/

/-- Makes the predicate by which a list is selected. -/
def selection (c : Collection R) (ctx : Context R) : Action R (R → Bool) :=
  match c.hooks.filter with
  | none => pure fun _ => true
  | some make => do
    Action.emit (.filter c.node)
    Action.lift (make ctx)

/-- The items that a list shows, one after another. -/
def presentAll (c : Collection R) (ctx : Context R) : List R → Action R (List Json)
  | [] => pure []
  | r :: rs => do
    let payload ← c.present ctx false r
    let items ← c.presentAll ctx rs
    return payload.toJson :: items

/-- The selected resources: wrapped, or each item shown as JSON under `items`. -/
def list (c : Collection R) (ctx : Context R) : Action R Response := do
  let p ← c.selection ctx
  let rs ← Action.orFail (Action.list c.node p)
  let payload ←
    match c.hooks.listWrapper with
    | some wrap => do
      Action.emit (.wrapList c.node rs.length)
      Payload.ofView ctx true (.renderView c.node) (.pageView c.node) (wrap ctx rs)
    | none => do
      let items ← c.presentAll ctx rs
      pure (.json (.obj [("items", .arr items)]))
  return payload.toResponse (c.codes.get .get)

/-- The requested resource. -/
def fetch (c : Collection R) (ctx : Context R) : Action R Response := do
  let r ← c.requested ctx
  c.respond ctx .get r

/-- A new resource, under the ID of the body if that is unused, or else under a fresh one. -/
def create (c : Collection R) (ctx : Context R) (body : ByteArray) : Action R Response := do
  let r ← Action.lift (c.bindBody body)
  let r ←
    if c.kind.id r = "" then do
      let id ← Action.freshId
      pure (c.kind.withId r id)
    else do
      c.checkUnused (c.kind.id r)
      pure r
  let t ← Action.now
  let identity : Identity := ⟨c.kind.id r, some t⟩
  -- the identity is settled here: whatever the hooks make of it is undone before storing
  let r ← c.bind ctx (c.kind.withIdentity r identity)
  let r ← c.save ctx r
  let r := c.kind.withIdentity r identity
  c.store r
  c.respond ctx .post r

/-- A resource under the ID of the path, in the place of the one that is there if there is one. -/
def replace (c : Collection R) (ctx : Context R) (body : ByteArray) : Action R Response := do
  let id ← Action.lift (c.pathId ctx)
  let r ← Action.lift (c.bindBody body)
  Action.lift (c.checkBodyId r id)
  -- a body without an ID is bound under that of the path
  let r ← c.bind ctx (c.kind.withId r id)
  let created ← c.createdAt id
  let t ←
    match created with
    | some t => pure t
    | none => Action.now
  -- a resource that is replaced keeps its time of creation
  let identity : Identity := ⟨id, some t⟩
  let r ← c.save ctx (c.kind.withIdentity r identity)
  let r := c.kind.withIdentity r identity
  c.store r
  c.respond ctx .put r

/-- The stored resource with a partial update merged into it. -/
def merge (c : Collection R) (ctx : Context R) (body : ByteArray) : Action R Response := do
  let id ← Action.lift (c.pathId ctx)
  let r ← Action.orFail (Action.get c.node id)
  let partialUpdate ← Action.lift (c.bindBody body)
  Action.lift (c.checkBodyId partialUpdate id)
  let partialUpdate ← c.bind ctx partialUpdate
  -- the stored identity, which neither the body nor the hooks can change
  let identity := c.kind.identity r
  let r ← c.patch r partialUpdate
  let r ← c.save ctx (c.kind.withIdentity r identity)
  let r := c.kind.withIdentity r identity
  c.store r
  c.respond ctx .patch r

/-- The resource under the ID of the path is deleted. -/
def remove (c : Collection R) (ctx : Context R) : Action R Response := do
  let id ← Action.lift (c.pathId ctx)
  runDeleteHook c.hooks.beforeDelete (.beforeDelete c.node id) ctx id
  Action.orFail (Action.delete c.node id)
  runDeleteHook c.hooks.afterDelete (.afterDelete c.node id) ctx id
  return .bare (c.codes.get .delete)

/-- Whether an operation reads the body of its request. -/
def readsBody : Operation → Bool
  | .create | .replace | .merge => true
  | _ => false

/-- The default handler of an operation. -/
def handle (c : Collection R) (op : Operation) (ctx : Context R) (body : ByteArray) : Action R Response :=
  match op with
  | .list => c.list ctx
  | .fetch => c.fetch ctx
  | .create => c.create ctx body
  | .replace => c.replace ctx body
  | .merge => c.merge ctx body
  | .remove => c.remove ctx

end Collection

end ResourceTree
