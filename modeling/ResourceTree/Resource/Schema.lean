import ResourceTree.Resource.Record

/-! # Records with a schema

A schema lists the fields of a kind of records, each with the type of its values. Decoding checks every member
that is a field, gives absent fields their default and ignores other members; encoding writes the identity and
then the fields in the order of the schema. -/

namespace ResourceTree

/-- The type of a field's values. -/
inductive FieldType where
  | text
  /-- A natural number of 32 bits. -/
  | word
  | flag
  deriving DecidableEq, Repr

/-- A field of a schema. -/
structure Field where
  name : String
  type : FieldType
  /-- Whether the field may be `null`, which it then is by default. -/
  nullable : Bool := false
  /-- Whether a field that is `null` is left out. -/
  omitNull : Bool := false
  deriving DecidableEq, Repr

/-- The greatest number of 32 bits. -/
def maxHalfWord : Int := 4294967295

namespace Field

/-- The value of an absent field. -/
def default (f : Field) : Json :=
  if f.nullable then .null
  else
    match f.type with
    | .text => .str ""
    | .word => .int 0
    | .flag => .bool false

/-- Checks that a value is one of the field. -/
def check (f : Field) (value : Json) : Except String Unit :=
  if f.nullable && value.isNull then .ok ()
  else
    match f.type, value with
    | .text, .str _ => .ok ()
    | .text, v => .error (wrongType v "a string")
    | .word, .num (.whole n) =>
      if 0 ≤ n ∧ n ≤ maxHalfWord then .ok () else .error (wrongValue value "u32")
    | .word, v => .error (wrongType v "u32")
    | .flag, .bool _ => .ok ()
    | .flag, v => .error (wrongType v "a boolean")

end Field

/-- The fields of a kind of records. -/
structure Schema where
  /-- How messages name the type. -/
  title : String
  fields : List Field
  deriving DecidableEq, Repr

namespace Schema

/-- The fields of a record that has none set. -/
def defaults (s : Schema) : Fields Json := Fields.ofList (s.fields.map fun f => (f.name, f.default))

/-- The values of the schema's fields among the members of an object, taken in their order. -/
def readFields (s : Schema) (seen : List String) (values : Fields Json) :
    List (String × Json) → Except String (Fields Json)
  | [] => .ok values
  | (key, value) :: members =>
    match s.fields.find? fun f => f.name == key with
    | none => readFields s seen values members
    | some f => do
      if seen.contains key then throw ("duplicate field `" ++ key ++ "`")
      f.check value
      readFields s (key :: seen) (values.put key value) members

/-- A record of a JSON value. -/
def decode (s : Schema) : Json → Except String Record
  | .obj members => do
    let fields ← s.readFields [] s.defaults members
    let identity ← Identity.ofMembers members
    return ⟨identity, fields⟩
  | v => .error (wrongType v ("struct " ++ s.title))

/-- A record as a JSON value. -/
def encode (s : Schema) (r : Record) : Json :=
  .obj (r.identity.toMembers ++ s.fields.filterMap fun f =>
    let value := (r.field? f.name).getD f.default
    if f.omitNull && value.isNull then none else some (f.name, value))

end Schema

namespace Record

/-- The text of a field, or the empty text. -/
def text (r : Record) (name : String) : String := ((r.field? name).bind Json.text?).getD ""

/-- The record with a field set. -/
def setField (r : Record) (name : String) (value : Json) : Record :=
  { r with fields := r.fields.put name value }

/-- The record with a field taken over from another one. -/
def takeField (r other : Record) (name : String) : Record :=
  match other.field? name with
  | some value => r.setField name value
  | none => r

/-- The kind of records of a schema, without hooks. -/
def ofSchema (name : String) (s : Schema) : Kind Record where
  name := name
  identity := Record.identity
  withIdentity r i := { r with identity := i }
  decode := s.decode
  encode r := .ok (s.encode r)
  identity_withIdentity := identity_set
  withIdentity_identity := set_identity
  withIdentity_withIdentity := set_set

end Record

end ResourceTree
