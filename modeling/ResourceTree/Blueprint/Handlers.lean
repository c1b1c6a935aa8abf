import ResourceTree.Blueprint.Hooks

/-! # Handlers that a blueprint describes

What the custom routes of a blueprint answer: an error, what the context shows, the body itself, a page, many
new resources at once, a resource with a flag set from the query, or a text. -/

namespace ResourceTree.Blueprint

/-- An object with a member for each of some names. -/
def memberPerName (names : List String) (f : String → Json) : Json :=
  .obj (Fields.ofList (names.map fun name => (name, f name)))

/-- What a context shows of what is asked for. -/
def contextAnswer (ask : Json) (ctx : Context Record) : Json :=
  Json.sorted <| .obj
    [("method", .str ctx.method.token),
     ("path", .str ctx.path),
     ("html", .bool ctx.acceptsHtml),
     ("resolved", .arr (ctx.resolved.map fun entry => .str entry.1)),
     ("resources", memberPerName (ask.textsAt "resources") (resolvedValue ctx)),
     ("ids", memberPerName (ask.textsAt "ids") fun api => .ofText? (ctx.id? api)),
     ("params", memberPerName (ask.textsAt "params") fun name => .ofText? (ctx.param? name)),
     ("query", memberPerName (ask.textsAt "query") fun name => .ofText? (ctx.query? name)),
     ("headers", memberPerName (ask.textsAt "headers") fun name =>
        .ofText? (ctx.header? (String.ofList (name.toList.map Char.toLower))))]

/-- The texts of a body that is a JSON array of texts. -/
def bulkTexts? (body : ByteArray) : Option (List String) := do
  let value ← Json.parseBytes? body
  let items ← value.items?
  items.mapM Json.text?

/-- Makes and stores a resource with one field given. -/
def storeNew (c : Collection Record) (field text : String) : Action Record Json := do
  let r ←
    match c.kind.decode (.obj [(field, .str text)]) with
    | .ok r => pure r
    | .error reason => Action.fail (.internal reason)
  let id ← Action.freshId
  let t ← Action.now
  let r := c.kind.withIdentity r ⟨id, some t⟩
  c.store r
  return c.kind.value r

/-- Makes and stores a resource for every text of the body. -/
def bulk (c : Collection Record) (status : Nat) (field : String) (body : ByteArray) :
    Action Record Response := do
  match bulkTexts? body with
  | none => Action.fail (.invalidRequest "bad bulk body")
  | some texts =>
    let values ← texts.mapM (storeNew c field)
    return .json status (.arr values)

/-- The flag that a text writes. -/
def readFlag (text : String) : Except ApiError Bool :=
  match text with
  | "true" => .ok true
  | "false" => .ok false
  | _ => .error (.invalidRequest "provided string was not `true` or `false`")

/-- Sets a field of the resolved resource to the flag of a query parameter. -/
def setFromQuery (c : Collection Record) (status : Nat) (param field : String) (ctx : Context Record) :
    Action Record Response := do
  let flag ← Action.lift <|
    match ctx.query? param with
    | some text => readFlag text
    | none => .error (.invalidRequest ("missing '" ++ param ++ "' parameter"))
  match ctx.resource? c.kind.name c.name with
  | none => Action.fail .notFound
  | some r =>
    let r ← Action.lift (setMember c.kind r field (.bool flag))
    c.store r
    return .json status (c.kind.value r)

/-- The part of a handler that comes after waiting. -/
def lateAnswer (c : Collection Record) (doc : Json) (status : Nat) (ctx : Context Record)
    (body : ByteArray) : Action Record Response :=
  match doc.textAt? "bulk", doc.pairAt? "set_from_query" with
  | some field, _ => bulk c status field body
  | none, some (param, field) => setFromQuery c status (param.text?.getD "") (field.text?.getD "") ctx
  | none, none =>
    let id := (ctx.id? c.name).getD ""
    pure (.plain status ((doc.textAt "text").replace "\x7bid\x7d" id))

/-- The handler of a description. -/
def handler (c : Collection Record) (doc : Json) : Handler Record where
  tag := doc.textAt "tag"
  run ctx body := do
    let status := doc.natAt "status" 200
    match doc.get? "error", doc.get? "context", doc.flagAt "echo", doc.textAt? "html" with
    | some e, _, _, _ => Action.fail (error e)
    | none, some ask, _, _ => return .json status (contextAnswer ask ctx)
    | none, none, true, _ => return .raw status body
    | none, none, false, some page =>
      if ctx.acceptsHtml then return .html status page else Action.fail .forbidden
    | none, none, false, none =>
      Action.sleep (doc.natAt "sleep_ms" 0)
      lateAnswer c doc status ctx body

/-- The custom route of a description. -/
def customRoute (c : Collection Record) (doc : Json) : CustomRoute Record where
  path := doc.textAt "path"
  methods :=
    match doc.get? "methods" with
    | some _ => (doc.textsAt "methods").map Method.ofToken
    | none => [.get]
  handler := handler c doc

/-- The operation of a name. -/
def operation? (name : String) : Option Operation :=
  match name with
  | "get_all" => some .list
  | "get" => some .fetch
  | "post" => some .create
  | "put" => some .replace
  | "patch" => some .merge
  | "delete" => some .remove
  | _ => none

end ResourceTree.Blueprint
