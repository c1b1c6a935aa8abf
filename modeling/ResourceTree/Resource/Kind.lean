import ResourceTree.Context
import ResourceTree.Resource.Timestamp

/-! # Resources

A kind of resources is given by the operations that a tree needs of it: its identity, its JSON form, and the
hooks by which it binds a request's data, merges a partial update and renders itself. A tree may mix kinds,
all over one type `R` of values. -/

namespace ResourceTree

/-- The identity of a resource: its ID, empty before it is first stored, and the time of its creation. -/
structure Identity where
  id : String
  createdAt : Option Timestamp
  deriving DecidableEq, Repr, Inhabited

namespace Identity

/-- The identity of a resource that was not stored yet. -/
def blank : Identity := ⟨"", none⟩

/-- A fixed ID without a time of creation. -/
def withId (id : String) : Identity := ⟨id, none⟩

end Identity

/-- A kind of resources with values in `R`. -/
structure Kind (R : Type) where
  /-- The name that tells kinds apart. -/
  name : String
  identity : R → Identity
  withIdentity : R → Identity → R
  /-- Reads the JSON form; the text says what is wrong with it. -/
  decode : Json → Except String R
  /-- The JSON form, its members in the order of the kind; the text says why there is none. -/
  encode : R → Except String Json
  /-- Validates and completes data bound from a request, or refuses the method. -/
  bind : Context R → R → Except ApiError R := fun _ r => .ok r
  /-- Merges a partial update into a resource. -/
  patch : R → R → Except ApiError R := fun _ _ => .error .patchUnsupported
  /-- Removes or computes what an answer shows. -/
  render : Context R → R → Except ApiError R := fun _ r => .ok r
  /-- The page for a resource, if it has one. -/
  html : Context R → R → Option String := fun _ _ => none
  identity_withIdentity : ∀ r i, identity (withIdentity r i) = i
  withIdentity_identity : ∀ r, withIdentity r (identity r) = r
  withIdentity_withIdentity : ∀ r i j, withIdentity (withIdentity r i) j = withIdentity r j

attribute [simp] Kind.identity_withIdentity Kind.withIdentity_identity Kind.withIdentity_withIdentity

namespace Kind

variable {R : Type}

/-- The ID of a resource. -/
def id (kind : Kind R) (r : R) : String := (kind.identity r).id

/-- The resource with another ID. -/
def withId (kind : Kind R) (r : R) (id : String) : R :=
  kind.withIdentity r { kind.identity r with id := id }

/-- The resource with another time of creation. -/
def withCreatedAt (kind : Kind R) (r : R) (t : Option Timestamp) : R :=
  kind.withIdentity r { kind.identity r with createdAt := t }

/-- The JSON value of a resource, its members sorted. -/
def toValue (kind : Kind R) (r : R) : Except String Json := (kind.encode r).map Json.sorted

/-- The JSON value of a resource, or `null` if it has none. -/
def value (kind : Kind R) (r : R) : Json :=
  match kind.toValue r with
  | .ok v => v
  | .error _ => .null

@[simp] theorem id_withId (kind : Kind R) (r : R) (id : String) : kind.id (kind.withId r id) = id := by
  simp [Kind.id, withId]

end Kind

end ResourceTree
