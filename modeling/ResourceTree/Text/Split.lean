/-! # Splitting and trimming text

Cutting a text at a separator character and putting the pieces back together, and removing a class of
characters from the ends. Everything is stated on `List Char`, with `String` versions on top.
`joinWith_splitOn` says that cutting and joining lose nothing. -/

namespace ResourceTree.Text

/-! ## Cutting at a separator -/

/-- The pieces of `cs` between the occurrences of `sep`. There is always at least one piece. -/
def splitOn (sep : Char) : List Char → List (List Char)
  | [] => [[]]
  | c :: cs =>
    if c = sep then [] :: splitOn sep cs
    else
      match splitOn sep cs with
      | [] => [[c]]
      | piece :: pieces => (c :: piece) :: pieces

/-- The pieces joined into one text, with `sep` between two of them. -/
def joinWith (sep : Char) : List (List Char) → List Char
  | [] => []
  | [piece] => piece
  | piece :: next :: pieces => piece ++ sep :: joinWith sep (next :: pieces)

@[simp] theorem splitOn_nil (sep : Char) : splitOn sep [] = [[]] := rfl

@[simp] theorem splitOn_cons_sep (sep : Char) (cs : List Char) :
    splitOn sep (sep :: cs) = [] :: splitOn sep cs := by
  simp [splitOn]

theorem splitOn_ne_nil (sep : Char) (cs : List Char) : splitOn sep cs ≠ [] := by
  cases cs with
  | nil => simp [splitOn]
  | cons c cs =>
    by_cases h : c = sep
    · simp [splitOn, h]
    · simp only [splitOn, h, if_false]
      split <;> simp

/-- Joining the pieces with the separator gives the text back. -/
theorem joinWith_splitOn (sep : Char) (cs : List Char) : joinWith sep (splitOn sep cs) = cs := by
  induction cs with
  | nil => rfl
  | cons c cs ih =>
    obtain ⟨piece, pieces, hp⟩ := List.exists_cons_of_ne_nil (splitOn_ne_nil sep cs)
    rw [hp] at ih
    by_cases h : c = sep
    · subst h
      simp [splitOn, hp, joinWith, ih]
    · cases pieces with
      | nil => simpa [splitOn, h, hp, joinWith] using ih
      | cons q qs => simpa [splitOn, h, hp, joinWith] using ih

/-- The text before the first `sep` and the text after it, if there is one. -/
def cutAt (sep : Char) : List Char → List Char × Option (List Char)
  | [] => ([], none)
  | c :: cs =>
    if c = sep then ([], some cs)
    else
      let (before, after) := cutAt sep cs
      (c :: before, after)

/-! ## Trimming -/

/-- `cs` without the characters of a class at its end. -/
def trimEnd (p : Char → Bool) (cs : List Char) : List Char :=
  (cs.reverse.dropWhile p).reverse

/-- `cs` without the characters of a class at either end. -/
def trim (p : Char → Bool) (cs : List Char) : List Char :=
  trimEnd p (cs.dropWhile p)

/-! ## The same on strings -/

/-- The pieces of a string between the occurrences of `sep`. -/
def pieces (sep : Char) (s : String) : List String :=
  (splitOn sep s.toList).map String.ofList

/-- The strings joined with `sep` between two of them. -/
def join (sep : Char) (parts : List String) : String :=
  String.ofList (joinWith sep (parts.map String.toList))

/-- Joining the pieces of a string gives it back. -/
@[simp] theorem join_pieces (sep : Char) (s : String) : join sep (pieces sep s) = s := by
  simp [join, pieces, List.map_map, Function.comp_def, joinWith_splitOn]

/-- A string cut at its first `sep`. -/
def cut (sep : Char) (s : String) : String × Option String :=
  let (before, after) := cutAt sep s.toList
  (String.ofList before, after.map String.ofList)

end ResourceTree.Text
