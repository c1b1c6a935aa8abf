import ResourceTree.Api.Node
import ResourceTree.Blueprint.Kinds
import ResourceTree.Number.Word

/-! # Hooks that a blueprint describes

A blueprint is a JSON document that describes a tree of APIs. This module turns the parts of it that describe
errors, filters, wrappers, hooks, middlewares and guards into the functions that a tree is made of. Absent
texts are empty, absent lists are empty and absent flags are off. -/

namespace ResourceTree

namespace Json

/-- The text under a key, or the empty text. -/
def textAt (doc : Json) (key : String) : String := ((doc.get? key).bind text?).getD ""

/-- The text under a key, if there is one. -/
def textAt? (doc : Json) (key : String) : Option String := (doc.get? key).bind text?

/-- The items under a key, or none. -/
def itemsAt (doc : Json) (key : String) : List Json := ((doc.get? key).bind items?).getD []

/-- The members under a key, or none. -/
def membersAt (doc : Json) (key : String) : List (String × Json) := ((doc.get? key).bind members?).getD []

/-- The texts under a key, or none. -/
def textsAt (doc : Json) (key : String) : List String := (doc.itemsAt key).filterMap text?

/-- The natural number under a key, or another one. -/
def natAt (doc : Json) (key : String) (absent : Nat) : Nat := ((doc.get? key).bind nat?).getD absent

/-- Whether the flag under a key is on. -/
def flagAt (doc : Json) (key : String) : Bool := (doc.getD key).isTrue

/-- The first two items under a key. -/
def pairAt? (doc : Json) (key : String) : Option (Json × Json) :=
  match doc.itemsAt key with
  | a :: b :: _ => some (a, b)
  | _ => none

end Json

namespace Blueprint

/-! ## Errors -/

/-- The error of a description, without the detail that is attached last. -/
def plainError (doc : Json) : ApiError :=
  match doc.textAt "kind" with
  | "not_found" => .notFound
  | "invalid" => .invalidRequest (doc.textAt "detail")
  | "method_not_allowed" => .methodNotAllowed (doc.textAt "detail")
  | "forbidden" => .forbidden
  | "storage_not_found" => .ofStorage .notFound
  | "storage_internal" => .ofStorage (.failed (doc.textAt "detail"))
  | "custom" => .custom (doc.natAt "status" 500) (doc.textAt "text") none
  | _ => .internal (doc.textAt "detail")

/-- The error of a description. -/
def error (doc : Json) : ApiError :=
  match doc.textAt? "with_detail" with
  | some detail => (plainError doc).withDetail detail
  | none => plainError doc

/-- Fails with the error under a key, if there is one. -/
def failAt (doc : Json) (key : String) : Except ApiError Unit :=
  match doc.get? key with
  | some e => .error (error e)
  | none => .ok ()

/-! ## Filters -/

/-- A number of 32 bits. -/
def readHalfWord (s : String) : Except Word.Fault Nat := Word.read maxHalfWord.toNat s

/-- The number that a filter compares with. -/
def filterNumber (doc : Json) (raw : Option String) : Except ApiError (Option Nat) :=
  match raw with
  | some text =>
    if doc.flagAt "number" then
      match readHalfWord text with
      | .ok n => .ok (some n)
      | .error fault => .error (.invalidRequest fault.message)
    else .ok none
  | none => .ok none

/-- The filter of a description. -/
def filter (kind : Kind Record) (doc : Json) (ctx : Context Record) : Except ApiError (Record → Bool) := do
  failAt doc "fail"
  let raw := ctx.query? (doc.textAt "param")
  let number ← filterNumber doc raw
  let value (r : Record) : Json := (kind.value r).getD (doc.textAt "field")
  return fun r =>
    match doc.textAt? "ancestor", number, raw with
    | some api, _, _ =>
      ((value r).text?.map fun s => ((ctx.id? api).getD "").toList.isPrefixOf s.toList).getD false
    | none, some n, _ =>
      if doc.flagAt "min" then ((value r).nat?.map fun m => decide (n ≤ m)).getD false
      else (value r).same (.nat n)
    | none, none, some text => (value r).same (.str text)
    | none, none, none => true

/-! ## Wrappers -/

/-- The rendered view of a wrapped answer. -/
def wrappedView (doc value : Json) : Except ApiError View := do
  failAt doc "fail"
  return ⟨.ok value, doc.textAt? "html"⟩

/-- The JSON value of the resource that was resolved for an API, or `null`. -/
def resolvedValue (ctx : Context Record) (api : String) : Json :=
  match ctx.resolved.get? api with
  | some entry => (kindNamed entry.kind).kind.value entry.resource
  | none => .null

/-- The wrapper of a description: a field of an ancestor may be added, and an envelope put around. -/
def wrapper (kind : Kind Record) (doc : Json) (ctx : Context Record) (r : Record) :
    Except ApiError View :=
  let value := kind.value r
  let value :=
    match doc.textAt? "ancestor" with
    | some api => value.set (doc.textAt "as") ((resolvedValue ctx api).getD (doc.textAt "field"))
    | none => value
  let value :=
    match doc.textAt? "envelope" with
    | some key => .obj [(key, value)]
    | none => value
  wrappedView doc value

/-- Values in the order of their compact texts. -/
def sortByText (values : List Json) : List Json :=
  values.mergeSort fun a b => decide (a.text ≤ b.text)

/-- The list wrapper of a description: the values of one field, or the number of resources. -/
def listWrapper (kind : Kind Record) (doc : Json) (_ : Context Record) (rs : List Record) :
    Except ApiError View :=
  wrappedView doc <|
    match doc.textAt? "pluck" with
    | some field => .obj [(field, .arr (sortByText (rs.map fun r => (kind.value r).getD field)))]
    | none => .obj [("count", .nat rs.length)]

/-! ## Hooks around writing -/

/-- A record with one member of its JSON value set. -/
def setMember (kind : Kind Record) (r : Record) (key : String) (value : Json) : Except ApiError Record :=
  match kind.toValue r with
  | .error reason => .error (.internal reason)
  | .ok v =>
    match kind.decode (v.set key value) with
    | .error reason => .error (.internal reason)
    | .ok r => .ok r

/-- The letters of ASCII in upper case. -/
def upperCase (s : String) : String := String.ofList (s.toList.map Char.toUpper)

/-- Whether a step of a save hook applies. -/
def stepApplies (kind : Kind Record) (doc : Json) (ctx : Context Record) (r : Record) : Bool :=
  ((doc.textAt? "method").map fun m => m == ctx.method.token).getD true
    && ((doc.pairAt? "if").map fun (field, value) =>
        ((kind.value r).getD (field.text?.getD "")).same value).getD true

/-- One step of a save hook. -/
def saveStep (kind : Kind Record) (ctx : Context Record) (r : Record) (doc : Json) :
    Except ApiError Record :=
  if !stepApplies kind doc ctx r then .ok r
  else do
    failAt doc "fail"
    let r ←
      match doc.pairAt? "set" with
      | some (field, value) => setMember kind r (field.text?.getD "") value
      | none => pure r
    let r ←
      match doc.textAt? "upper" with
      | some field =>
        match (kind.value r).getD field with
        | .str s => setMember kind r field (.str (upperCase s))
        | _ => pure r
      | none => pure r
    match doc.textAt? "move" with
    | some id => return { r with identity := .withId id }
    | none => return r

/-- The save hook of a description: its steps one after another. -/
def onSave (kind : Kind Record) (steps : List Json) (ctx : Context Record) (r : Record) :
    Except ApiError Record :=
  steps.foldlM (saveStep kind ctx) r

/-- The delete hook of a description. -/
def deleteHook (doc : Json) (ctx : Context Record) (_ : String) : Except ApiError Unit :=
  match doc.pairAt? "unless_query" with
  | some (param, value) =>
    if ctx.query? (param.text?.getD "") = value.text? ∧ value.text? ≠ none then .ok ()
    else failAt doc "fail"
  | none => failAt doc "fail"

/-! ## Middlewares and guards -/

/-- The middleware of a description. -/
def middleware (doc : Json) : Middleware where
  tag := doc.textAt "tag"
  enter request :=
    let blocked :=
      ((doc.textAt? "block_header").map fun name =>
        request.hasHeader (String.ofList (name.toList.map Char.toLower))).getD false
      || ((doc.textAt? "block_suffix").map fun ending =>
        ending.toList.isSuffixOf request.path.toList).getD false
    if blocked then .error (.error (error (doc.getD "else"))) else .ok request
  leave response :=
    match doc.textAt? "set_header" with
    | some value => response.setHeader "x-api" value
    | none => response

/-- The guard of a description. -/
def guard (kind : Kind Record) (doc : Json) : Guard Record where
  tag := doc.textAt "tag"
  check ctx r :=
    match doc.textAt? "field" with
    | none => .ok ()
    | some field =>
      let wanted :=
        match doc.textAt? "query" with
        | some param => .ofText? (ctx.query? param)
        | none => doc.getD "value"
      if ((kind.value r).getD field).same wanted then .ok () else .error (error (doc.getD "else"))

/-- The middleware or guard of a description. -/
def idMiddleware (kind : Kind Record) (doc : Json) : IdMiddleware Record :=
  if doc.flagAt "guard" then .guard (guard kind doc) else .plain (middleware doc)

end Blueprint

end ResourceTree
