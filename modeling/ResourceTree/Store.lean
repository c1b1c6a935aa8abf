import ResourceTree.Error

/-! # Stores

A store keeps resources under their IDs, in the order in which the IDs were first stored. `get?` is its view:
`get?_insert` and `get?_erase` say what the two writes do to it. -/

namespace ResourceTree

/-- Resources by ID, each ID once, in the order of first storing. -/
structure Store (R : Type) where
  rows : List (String × R)
  deriving Repr

namespace Store

variable {R : Type}

/-- The store without a resource. -/
def empty : Store R := ⟨[]⟩

instance : Inhabited (Store R) := ⟨empty⟩

/-- The resource under an ID, if there is one. -/
def get? (s : Store R) (id : String) : Option R := (s.rows.find? fun row => row.1 == id).map Prod.snd

/-- Rows with one resource set: in the place of the old one, or at the end. -/
def insertRow (id : String) (r : R) : List (String × R) → List (String × R)
  | [] => [(id, r)]
  | row :: rows => if row.1 = id then (id, r) :: rows else row :: insertRow id r rows

/-- The store with a resource set under an ID. -/
def insert (s : Store R) (id : String) (r : R) : Store R := ⟨insertRow id r s.rows⟩

/-- The store without an ID. -/
def erase (s : Store R) (id : String) : Store R := ⟨s.rows.filter fun row => row.1 != id⟩

/-- The number of stored resources. -/
def size (s : Store R) : Nat := s.rows.length

/-- The stored resources. -/
def toList (s : Store R) : List R := s.rows.map Prod.snd

/-- The stored IDs. -/
def ids (s : Store R) : List String := s.rows.map Prod.fst

@[simp] theorem get?_empty (id : String) : (empty : Store R).get? id = none := rfl

theorem get?_cons (row : String × R) (rows : List (String × R)) (id : String) :
    (⟨row :: rows⟩ : Store R).get? id = if row.1 = id then some row.2 else (⟨rows⟩ : Store R).get? id := by
  by_cases h : row.1 = id
  · simp [get?, h]
  · have hb : (row.1 == id) = false := by simp [h]
    simp [get?, List.find?, h, hb]

/-- Setting a resource changes what its ID gives and nothing else. -/
theorem get?_insert (s : Store R) (id other : String) (r : R) :
    (s.insert id r).get? other = if id = other then some r else s.get? other := by
  obtain ⟨rows⟩ := s
  induction rows with
  | nil => simp [insert, insertRow, get?_cons]
  | cons row rows ih =>
    simp only [insert] at ih
    by_cases h : row.1 = id
    · subst h
      by_cases ho : row.1 = other <;> simp [insert, insertRow, get?_cons, ho]
    · simp only [insert, insertRow, h, if_false, get?_cons, ih]
      by_cases ho : row.1 = other
      · subst ho
        simp [Ne.symm h]
      · simp [ho]

/-- Erasing an ID takes it away and changes nothing else. -/
theorem get?_erase (s : Store R) (id other : String) :
    (s.erase id).get? other = if id = other then none else s.get? other := by
  obtain ⟨rows⟩ := s
  induction rows with
  | nil => simp [erase, get?]
  | cons row rows ih =>
    simp only [erase] at ih
    by_cases h : row.1 = id
    · subst h
      by_cases ho : row.1 = other
      · subst ho
        simpa [erase] using ih
      · simpa [erase, get?_cons, ho] using ih
    · by_cases ho : row.1 = other
      · subst ho
        simp [erase, h, get?_cons, Ne.symm h]
      · simpa [erase, h, get?_cons, ho] using ih

/-! ## Calls that may fail -/

/-- The resource under an ID. -/
def get (s : Store R) (id : String) : Except StorageError R :=
  match s.get? id with
  | some r => .ok r
  | none => .error .notFound

/-- The store after an ID was deleted, which fails if nothing is stored under it. -/
def delete (s : Store R) (id : String) : Except StorageError (Store R) :=
  match s.get? id with
  | some _ => .ok (s.erase id)
  | none => .error .notFound

/-- The stored resources that a predicate selects, in the order of the store. -/
def select (s : Store R) (p : R → Bool) : List R := s.toList.filter p

end Store

end ResourceTree
