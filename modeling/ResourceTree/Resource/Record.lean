import ResourceTree.Resource.Kind
import ResourceTree.Text.Quoted

/-! # Records

A record is an identity and named JSON values. It is the type of resources without a schema: the kind
`Record.schemaless` keeps every field as it is, and its partial updates replace whole fields. The decoders below
read one member after another and say what is wrong with the first that does not fit. -/

namespace ResourceTree

/-! ## What is wrong with a value -/

/-- How a message names a value of the wrong type. -/
def Json.described : Json → String
  | .null => "null"
  | .bool true => "boolean `true`"
  | .bool false => "boolean `false`"
  | .num (.whole n) => "integer `" ++ String.ofList (Number.text (.whole n)) ++ "`"
  | .num (.double d) => "floating point `" ++ String.ofList d.text ++ "`"
  | .str s => "string " ++ Text.quoted s
  | .arr _ => "sequence"
  | .obj _ => "map"

/-- The message that a value is of another type than expected. -/
def wrongType (value : Json) (expected : String) : String :=
  "invalid type: " ++ value.described ++ ", expected " ++ expected

/-- The message that a value is outside the range of the expected type. -/
def wrongValue (value : Json) (expected : String) : String :=
  "invalid value: " ++ value.described ++ ", expected " ++ expected

/-- A value that is a text. -/
def Json.asText : Json → Except String String
  | .str s => .ok s
  | v => .error (wrongType v "a string")

/-- A value that is a time or `null`. -/
def Json.asTime : Json → Except String (Option Timestamp)
  | .null => .ok none
  | .str s =>
    match Timestamp.parse s with
    | .ok t => .ok (some t)
    | .error fault => .error fault.message
  | v => .error (wrongType v "an RFC 3339 formatted date and time string")

/-! ## Identities among the members of an object -/

namespace Identity

/-- The keys of an object that belong to the identity. -/
def keys : List String := ["created_at", "id"]

/-- Whether the members of an object repeat a key of the identity, and which. -/
def repeated? (members : List (String × Json)) : Option String :=
  keys.find? fun key => decide (1 < (members.filter fun m => m.1 == key).length)

/-- Reads one member into an identity. -/
def read (identity : Identity) : String × Json → Except String Identity
  | (key, value) =>
    if key = "id" then do
      let id ← value.asText
      return { identity with id := id }
    else if key = "created_at" then do
      let t ← value.asTime
      return { identity with createdAt := t }
    else .ok identity

/-- The identity among the members of an object, taken in their order. -/
def ofMembers (members : List (String × Json)) : Except String Identity :=
  match repeated? members with
  | some key => .error ("duplicate field `" ++ key ++ "`")
  | none => members.foldlM read Identity.blank

/-- The members that an identity is written as. -/
def toMembers (i : Identity) : List (String × Json) :=
  ("id", .str i.id) :: (i.createdAt.map fun t => ("created_at", Json.str t.text)).toList

end Identity

/-! ## Records -/

/-- An identity with named values. -/
structure Record where
  identity : Identity
  fields : Fields Json
  deriving Inhabited, Repr

namespace Record

/-- The record without identity and fields. -/
def empty : Record := ⟨Identity.blank, []⟩

/-- The value of a field. The identity is no field. -/
def field? (r : Record) (name : String) : Option Json := r.fields.get? name

/-- A record of a JSON value: its identity, and every other member as a field. -/
def decode : Json → Except String Record
  | .obj members => do
    let identity ← Identity.ofMembers members
    let others := members.filter fun m => !Identity.keys.contains m.1
    return ⟨identity, Fields.ofList others⟩
  | v => .error (wrongType v "struct AnyResource")

/-- A record as a JSON value: the identity first, then the fields. -/
def encode (r : Record) : Json := .obj (r.identity.toMembers ++ r.fields)

/-- A record with the fields of another one put over its own. -/
def merge (r partialUpdate : Record) : Record :=
  { r with fields := r.fields.extend partialUpdate.fields }

/-- A record has the identity that was set. -/
theorem identity_set (r : Record) (i : Identity) : { r with identity := i }.identity = i := rfl

/-- Setting the identity that a record has changes nothing. -/
theorem set_identity (r : Record) : { r with identity := r.identity } = r := rfl

/-- Of two identities that are set the second one counts. -/
theorem set_set (r : Record) (i j : Identity) :
    { { r with identity := i } with identity := j } = { r with identity := j } := rfl

/-- The kind of records that keeps every field. -/
def schemaless : Kind Record where
  name := "AnyResource"
  identity := Record.identity
  withIdentity r i := { r with identity := i }
  decode := decode
  encode r := .ok r.encode
  patch r partialUpdate := .ok (r.merge partialUpdate)
  identity_withIdentity := identity_set
  withIdentity_identity := set_identity
  withIdentity_withIdentity := set_set

end Record

end ResourceTree
