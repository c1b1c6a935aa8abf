/-! # Fields

Named values kept in the order of their names, each name once. `put` is the only way in, so a list built from
`[]` by `put` is sorted, and `get?_put` says that it behaves like a map. -/

namespace ResourceTree

/-- Named values, sorted by name when built with `Fields.put`. -/
abbrev Fields (α : Type) := List (String × α)

namespace Fields

variable {α : Type}

/-- The value under a name. -/
def get? (fields : Fields α) (name : String) : Option α :=
  (fields.find? fun field => field.1 == name).map Prod.snd

/-- The fields with one value set: in the place of the old one, or where its name belongs. -/
def put (name : String) (value : α) : Fields α → Fields α
  | [] => [(name, value)]
  | field :: rest =>
    if name = field.1 then (name, value) :: rest
    else if name < field.1 then (name, value) :: field :: rest
    else field :: put name value rest

/-- The fields with all the given ones set, a later one over an earlier one of its name. -/
def extend (fields : Fields α) (more : List (String × α)) : Fields α :=
  more.foldl (fun acc field => put field.1 field.2 acc) fields

/-- Fields from named values in any order; of equal names the last one counts. -/
def ofList (pairs : List (String × α)) : Fields α := extend [] pairs

@[simp] theorem get?_nil (name : String) : get? ([] : Fields α) name = none := rfl

theorem get?_cons (field : String × α) (rest : Fields α) (name : String) :
    get? (field :: rest) name = if field.1 = name then some field.2 else get? rest name := by
  by_cases h : field.1 = name
  · simp [get?, h]
  · have hb : (field.1 == name) = false := by simp [h]
    simp [get?, List.find?, h, hb]

/-- Setting a value changes what its own name gives and nothing else. -/
theorem get?_put (fields : Fields α) (name other : String) (value : α) :
    get? (put name value fields) other = if name = other then some value else get? fields other := by
  induction fields with
  | nil => simp [put, get?_cons]
  | cons field rest ih =>
    by_cases heq : name = field.1
    · subst heq
      by_cases h : field.1 = other <;> simp [put, get?_cons, h]
    · by_cases hlt : name < field.1
      · simp [put, heq, hlt, get?_cons]
      · simp only [put, heq, hlt, if_false, get?_cons, ih]
        by_cases h : field.1 = other
        · subst h
          simp [heq]
        · simp [h]

end Fields

end ResourceTree
