import ResourceTree.Fields
import ResourceTree.Number.Literal

/-! # JSON values

The values that resources are encoded to and decoded from. The members of an object keep the order in which
they are written; `sorted` brings every object into the order of its keys, the form in which values are kept
and compared. -/

namespace ResourceTree

/-- A JSON value. -/
inductive Json where
  | null
  | bool (b : Bool)
  | num (n : Number)
  | str (s : String)
  | arr (items : List Json)
  | obj (members : List (String × Json))
  deriving Inhabited, Repr

namespace Json

/-- A whole number as a value. -/
def int (n : Int) : Json := .num (.whole n)

/-- A natural number as a value. -/
def nat (n : Nat) : Json := .num (.whole n)

/-- A text or `null`. -/
def ofText? : Option String → Json
  | none => .null
  | some s => .str s

/-- The member of an object under a key. -/
def get? : Json → String → Option Json
  | .obj members, key => Fields.get? members key
  | _, _ => none

/-- The member of an object under a key, or `null`. -/
def getD (value : Json) (key : String) : Json := (value.get? key).getD .null

/-- The text of a string value. -/
def text? : Json → Option String
  | .str s => some s
  | _ => none

/-- The items of an array value. -/
def items? : Json → Option (List Json)
  | .arr items => some items
  | _ => none

/-- The members of an object value. -/
def members? : Json → Option (List (String × Json))
  | .obj members => some members
  | _ => none

/-- The natural number that a value is. -/
def nat? : Json → Option Nat
  | .num (.whole n) => if 0 ≤ n then some n.toNat else none
  | _ => none

/-- Whether a value is the flag `true`. -/
def isTrue : Json → Bool
  | .bool b => b
  | _ => false

/-- Whether a value is `null`. -/
def isNull : Json → Bool
  | .null => true
  | _ => false

/-- An object with one member set. A value that is no object counts as an empty one. -/
def set (value : Json) (key : String) (member : Json) : Json :=
  .obj (Fields.put key member (value.members?.getD []))

mutual

/-- The value with the members of every object sorted by key, the last of equal keys kept. -/
def sorted : Json → Json
  | .arr items => .arr (sortedItems items)
  | .obj members => .obj (Fields.ofList (sortedMembers members))
  | value => value

/-- `sorted` on each item of an array. -/
def sortedItems : List Json → List Json
  | [] => []
  | item :: items => item.sorted :: sortedItems items

/-- `sorted` on the value of each member. -/
def sortedMembers : List (String × Json) → List (String × Json)
  | [] => []
  | (key, value) :: members => (key, value.sorted) :: sortedMembers members

end

mutual

/-- Equality of two sorted values, with the two zeros of the doubles being one number. -/
def same : Json → Json → Bool
  | .null, .null => true
  | .bool a, .bool b => a == b
  | .num a, .num b => a.same b
  | .str a, .str b => a == b
  | .arr a, .arr b => sameItems a b
  | .obj a, .obj b => sameMembers a b
  | _, _ => false

/-- `same` item by item. -/
def sameItems : List Json → List Json → Bool
  | [], [] => true
  | a :: as, b :: bs => a.same b && sameItems as bs
  | _, _ => false

/-- `same` member by member. -/
def sameMembers : List (String × Json) → List (String × Json) → Bool
  | [], [] => true
  | (k, a) :: as, (l, b) :: bs => k == l && a.same b && sameMembers as bs
  | _, _ => false

end

end Json

end ResourceTree
