import ResourceTree.Api.Collection
import ResourceTree.Route.Path

/-! # Errors of the client side

Why an operation of a client fails: before anything is sent, on the way, or because of what was answered. -/

namespace ResourceTree

/-- What a client is doing while an operation runs. -/
def Operation.activity : Operation → String
  | .list => "getting all resources"
  | .fetch => "getting resource"
  | .create => "posting resource"
  | .replace => "putting resource"
  | .merge => "patching resource"
  | .remove => "deleting resource"

/-- Why an operation of a client fails. -/
inductive ClientError where
  /-- One of the operations on resources failed. -/
  | operation (op : Operation) (cause : ClientError)
  /-- The answer has another status than the expected one. -/
  | unexpectedResponse (status : Nat) (text body : String)
  /-- The request could not be sent. -/
  | transport (url reason : String)
  /-- The body of the answer is not what was expected. -/
  | decode (url reason : String)
  /-- An answer that should have a body has none. -/
  | emptyBody (url : String)
  /-- The body of the request could not be written. -/
  | encode (reason : String)
  /-- The number of ancestor IDs is wrong. -/
  | path (e : PathError)
  /-- No API of the tree has this name. -/
  | unknownResource (name : String)
  /-- The API of this name serves another kind of resources. -/
  | typeMismatch (name : String)
  /-- A command cannot be read or lacks arguments. -/
  | invalidCommand (reason : String)
  /-- Two APIs of the tree share a name. -/
  | duplicateName (name : String)
  deriving DecidableEq, Repr

namespace ClientError

/-- The text of an error. -/
def message : ClientError → String
  | operation op cause => "error " ++ op.activity ++ ": " ++ cause.message
  | unexpectedResponse _ text _ => "unexpected response with text: " ++ text
  | transport url reason => "request to " ++ url ++ " failed: " ++ reason
  | decode url reason => "invalid response body from " ++ url ++ ": " ++ reason
  | emptyBody url => "empty response body from " ++ url
  | encode reason => "failed to encode request body: " ++ reason
  | path e => e.message
  | unknownResource name => "unknown resource '" ++ name ++ "'"
  | typeMismatch name => "resource '" ++ name ++ "' is served with a different type"
  | invalidCommand reason => "invalid command: " ++ reason
  | duplicateName name => "duplicate resource name '" ++ name ++ "'"

/-- The status of an unexpected answer, also of one that an operation failed because of. -/
def status : ClientError → Option Nat
  | operation _ cause => cause.status
  | unexpectedResponse status _ _ => some status
  | _ => none

/-- The status text of an answer: that of the envelope in its body, or else the body without blanks at its
ends. -/
def answerText (body : String) : String :=
  match ErrorEnvelope.parse? body with
  | some envelope => envelope.status
  | none => Text.trimmed body

/-- The error that an answer of an unexpected status is. -/
def unexpected (status : Nat) (body : String) : ClientError := .unexpectedResponse status (answerText body) body

end ClientError

end ResourceTree
