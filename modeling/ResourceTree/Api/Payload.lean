import ResourceTree.Api.Action
import ResourceTree.Resource.Kind

/-! # Payloads

What an answer shows of a resource: a JSON value or a page. The render hook runs first; a page is only made if
the answer may be one, the request prefers it and there is one. -/

namespace ResourceTree

/-- A rendered value: the JSON form, if it has one, and the page, if it has one. -/
structure View where
  json : Except String Json
  page : Option String

/-- What an answer shows. -/
inductive Payload where
  | json (value : Json)
  | page (text : String)

namespace Payload

/-- The payload as an item of a list. -/
def toJson : Payload → Json
  | .json value => value
  | .page text => .str text

/-- The payload as an answer. -/
def toResponse (status : Nat) : Payload → Response
  | .json value => .json status value
  | .page text => .html status text

variable {R : Type}

/-- The payload of a rendered value. `rendered` and `asked` are the events that the render hook ran and that
the page was asked for. -/
def ofView (ctx : Context R) (allowPage : Bool) (rendered asked : Event) (view : Except ApiError View) :
    Action R Payload := do
  Action.emit rendered
  let view ← Action.lift view
  let page ←
    if allowPage && ctx.acceptsHtml then do
      Action.emit asked
      pure view.page
    else pure none
  match page with
  | some text => return .page text
  | none =>
    match view.json with
    | .ok value => return .json value.sorted
    | .error reason => Action.fail (.internal reason)

end Payload

/-- What a kind shows of a resource. -/
def Kind.view {R : Type} (kind : Kind R) (ctx : Context R) (r : R) : Except ApiError View :=
  (kind.render ctx r).map fun r => ⟨kind.encode r, kind.html ctx r⟩

end ResourceTree
