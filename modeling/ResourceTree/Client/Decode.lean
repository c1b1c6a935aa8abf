import ResourceTree.Api.Collection
import ResourceTree.Resource.Kind

/-! # Decoding answers

How the body of an answer becomes a value, a resource, or a list of resources. A resource is read from its
members as they are written, so that a repeated member is noticed; what other members a list has does not
matter. -/

namespace ResourceTree

/-- The value of a JSON text. -/
def Json.decodeText (text : String) : Except String Json :=
  match Json.parse? text with
  | some value => .ok value
  | none => .error malformedJson

namespace Kind

variable {R : Type}

/-- A resource of a written text whose containers are nested at most `depth` deep. -/
def decodeWritten (kind : Kind R) (depth : Nat) (w : Json.Written) : Except String R :=
  match w.outline? depth with
  | some value => kind.decode value
  | none => .error malformedJson

/-- The resource of a JSON text. -/
def decodeText (kind : Kind R) (text : String) : Except String R :=
  match Json.written? text with
  | some w => kind.decodeWritten Json.Written.maxDepth w
  | none => .error malformedJson

/-- The written items of a list of resources: the member `items` of an object, which may occur once, or the
only item of an array. -/
def writtenItems? : Json.Written → Option (List Json.Written)
  | .obj members => do
    let members ← members.mapM fun (key, value) => key.map fun key => (key, value)
    let member ← ErrorEnvelope.member? members "items"
    match member with
    | some (.arr items) => some items
    | _ => none
  | .arr [.arr items] => some items
  | _ => none

/-- The list of resources of a JSON text. -/
def decodeList (kind : Kind R) (text : String) : Except String (List R) :=
  match (Json.written? text).bind writtenItems? with
  | some items => items.mapM (kind.decodeWritten (Json.Written.maxDepth - 2))
  | none => .error malformedJson

end Kind

end ResourceTree
