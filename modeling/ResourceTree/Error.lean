/-! # Errors of the server side

The causes for which a request, a storage call or the assembly of a tree fails. `ApiError` is what a client
gets to see: its status, its status text and, for some causes, a detail, which together form the error
envelope. -/

namespace ResourceTree

/-! ## Storage -/

/-- Why a storage call fails. -/
inductive StorageError where
  /-- Nothing is stored under the requested ID. -/
  | notFound
  /-- The backend failed. -/
  | failed (reason : String)
  deriving DecidableEq, Repr

/-- The text of a storage error. -/
def StorageError.message : StorageError → String
  | .notFound => "resource not found"
  | .failed reason => "storage failure: " ++ reason

/-! ## Requests -/

/-- Why a request fails. -/
inductive ApiError where
  /-- The requested resource or one of its ancestors does not exist. -/
  | notFound
  /-- The body or a parameter could not be bound. -/
  | invalidRequest (detail : String)
  /-- The resource refuses the method. -/
  | methodNotAllowed (detail : String)
  /-- Access was rejected. -/
  | forbidden
  /-- The storage or something unexpected failed. -/
  | internal (detail : String)
  /-- Any other status with a text of its own. -/
  | custom (status : Nat) (text : String) (detail : Option String)
  deriving DecidableEq, Repr

namespace ApiError

/-- The error that a storage error becomes in a request. -/
def ofStorage : StorageError → ApiError
  | .notFound => .notFound
  | .failed reason => .internal reason

/-- The error with a detail. Only a custom error takes one. -/
def withDetail (detail : String) : ApiError → ApiError
  | .custom status text _ => .custom status text (some detail)
  | e => e

/-- The status code of the answer. -/
def status : ApiError → Nat
  | .notFound => 404
  | .invalidRequest _ => 400
  | .methodNotAllowed _ => 405
  | .forbidden => 403
  | .internal _ => 500
  | .custom status _ _ => status

/-- The status text of the envelope. -/
def statusText : ApiError → String
  | .notFound => "Resource not found."
  | .invalidRequest _ => "Invalid request."
  | .methodNotAllowed _ => "Method not allowed."
  | .forbidden => "Forbidden"
  | .internal _ => "Internal server error."
  | .custom _ text _ => text

/-- The detail of the envelope. -/
def detail : ApiError → Option String
  | .invalidRequest detail | .methodNotAllowed detail | .internal detail => some detail
  | .custom _ _ detail => detail
  | .notFound | .forbidden => none

/-- The text of the error: its status text, and its detail if it has one. -/
def message (e : ApiError) : String :=
  match e.detail with
  | some detail => e.statusText ++ ": " ++ detail
  | none => e.statusText

/-- The refusal of a resource that cannot be merged with a partial update. -/
def patchUnsupported : ApiError := .methodNotAllowed "PATCH is not supported for this resource"

/-- The refusal to create a resource under an ID that is taken. -/
def conflict (id : String) : ApiError :=
  .custom 409 "Conflict." (some ("resource '" ++ id ++ "' already exists"))

/-- The refusal of a body whose ID is not the one of the path. -/
def idMismatch (bodyId pathId : String) : ApiError :=
  .invalidRequest ("id '" ++ bodyId ++ "' does not match the path id '" ++ pathId ++ "'")

end ApiError

/-! ## Configuration -/

/-- What is wrong with a tree or a configuration. -/
inductive ConfigError where
  /-- Two siblings, or an API and one of its ancestors, share a name. -/
  | duplicateName (parent name : String)
  /-- A nested API has root routes. -/
  | rootRouteOnChild (name : String)
  /-- Two routes would match the same requests. -/
  | routeConflict (path existing : String)
  /-- A setting has a value that cannot be read. -/
  | invalidValue (key value : String)
  /-- The configuration file could not be read. -/
  | unreadable (reason : String)
  /-- The configuration file does not have the expected form. -/
  | malformed (reason : String)
  deriving DecidableEq, Repr

/-- Why a tree has no router. -/
inductive BuildError where
  /-- Something is wrong with the tree, which is reported. -/
  | refused (e : ConfigError)
  /-- The matcher gives up on the patterns of the tree, which ends the program. -/
  | panicked
  deriving DecidableEq, Repr

/-- The text of a configuration error. -/
def ConfigError.message : ConfigError → String
  | .duplicateName parent name => "duplicate API name '" ++ name ++ "' under '" ++ parent ++ "'"
  | .rootRouteOnChild name =>
    "API '" ++ name ++ "' has custom root routes but is nested under another API"
  | .routeConflict path existing => "route '" ++ path ++ "' conflicts with '" ++ existing ++ "'"
  | .invalidValue key value => "invalid value '" ++ value ++ "' for '" ++ key ++ "'"
  | .unreadable reason => "failed to read configuration: " ++ reason
  | .malformed reason => "failed to parse configuration: " ++ reason

end ResourceTree
