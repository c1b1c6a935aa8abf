import ResourceTree.Http.Message
import ResourceTree.Route.Path
import ResourceTree.Text.Blank
import ResourceTree.Url.Form

/-! # The context of a request

What a handler or hook may read about the current request: the request itself, the decoded path parameters
and query, and the resources that were resolved on the way down the tree. -/

namespace ResourceTree

/-- A resource that was resolved for the current request, with the name of its kind. -/
structure Resolved (R : Type) where
  kind : String
  resource : R
  deriving Repr

/-- The context of a request for resources of type `R`. -/
structure Context (R : Type) where
  method : Method
  path : String
  query : List (String × String)
  headers : List (String × String)
  params : List (String × String)
  /-- The resolved resources by the name of their API. -/
  resolved : Fields (Resolved R)

namespace Context

variable {R : Type}

/-- The context of a request with its path parameters. -/
def ofRequest (r : Request) (params : List (String × String)) (resolved : Fields (Resolved R)) :
    Context R where
  method := r.method
  path := r.path
  query := Form.decode (r.query.getD "")
  headers := r.headers
  params := params
  resolved := resolved

/-- A query parameter; of equal names the last one counts. -/
def query? (ctx : Context R) (name : String) : Option String := Form.lookup ctx.query name

/-- A path parameter; of equal names the last one counts. -/
def param? (ctx : Context R) (name : String) : Option String := Form.lookup ctx.params name

/-- The ID in the path for an API. -/
def id? (ctx : Context R) (api : String) : Option String := ctx.param? (idParam api)

/-- A header that is visible text. -/
def header? (ctx : Context R) (name : String) : Option String :=
  (ctx.headers.lookup name).bind visibleText?

/-- The resource of a kind that was resolved for an API. -/
def resource? (ctx : Context R) (kind api : String) : Option R :=
  match ctx.resolved.get? api with
  | some entry => if entry.kind = kind then some entry.resource else none
  | none => none

/-- Whether a resource was resolved for an API. -/
def contains (ctx : Context R) (api : String) : Bool := (ctx.resolved.get? api).isSome

/-- The context with a resource resolved for an API. -/
def withResource (ctx : Context R) (kind api : String) (resource : R) : Context R :=
  { ctx with resolved := ctx.resolved.put api ⟨kind, resource⟩ }

/-- The media types of an `Accept` header, without their parameters. -/
def mediaTypes (accept : String) : List String :=
  (Text.pieces ',' accept).map fun part => Text.trimmed (Text.cut ';' part).1

/-- Whether the request prefers a page over JSON: of the two media types, the page's comes first in its
`Accept` header. -/
def acceptsHtml (ctx : Context R) : Bool :=
  match ctx.header? "accept" with
  | none => false
  | some accept =>
    (mediaTypes accept).find? (fun media => media == "text/html" || media == "application/json")
      == some "text/html"

/-- A resolved resource is found again under its API and kind. -/
@[simp] theorem resource?_withResource (ctx : Context R) (kind api : String) (resource : R) :
    (ctx.withResource kind api resource).resource? kind api = some resource := by
  simp [resource?, withResource, Fields.get?_put]

/-- Resolving one API's resource leaves those of the others alone. -/
theorem resource?_withResource_of_ne (ctx : Context R) {kind api kind' api' : String} (resource : R)
    (h : api ≠ api') :
    (ctx.withResource kind api resource).resource? kind' api' = ctx.resource? kind' api' := by
  simp [resource?, withResource, Fields.get?_put, h]

end Context

end ResourceTree
