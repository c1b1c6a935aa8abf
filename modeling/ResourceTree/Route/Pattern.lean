import ResourceTree.Text.Split

/-! # Matching paths against patterns

A pattern is split at its slashes into segments. A segment is a literal text, or ends in a parameter that takes
the rest of the segment, or ends in a catch-all that takes the rest of the path. `search` finds the pattern for
a path among many: in every segment a literal comes first, then a parameter, then a catch-all, those behind
more literal text before the others; where a choice leads nowhere the next one is tried. -/

namespace ResourceTree.Route

/-- A segment of a pattern. -/
inductive Piece where
  | literal (text : List Char)
  /-- Literal text and a parameter that takes the rest of the segment. -/
  | param (lead : List Char) (name : String)
  /-- Literal text and a catch-all that takes the rest of the path. -/
  | rest (lead : List Char) (name : String)
  deriving DecidableEq, Repr

/-- Reads a segment of a pattern behind the literal text `lead`, given with its last character first. A
doubled brace is a literal one. -/
def Piece.read (lead : List Char) : List Char → Piece
  | [] => .literal lead.reverse
  | [c] => .literal (c :: lead).reverse
  | c :: d :: cs =>
    if (c = '{' ∧ d = '{') ∨ (c = '}' ∧ d = '}') then Piece.read (c :: lead) cs
    else if c = '{' then
      match (d :: cs).getLast? with
      | some '}' =>
        if d = '*' then .rest lead.reverse (String.ofList cs.dropLast)
        else .param lead.reverse (String.ofList (d :: cs).dropLast)
      | _ => .literal (lead.reverse ++ c :: d :: cs)
    else Piece.read (c :: lead) (d :: cs)

/-- The segments of a pattern. -/
def piecesOfPattern (pattern : String) : List Piece :=
  (Text.splitOn '/' pattern.toList).map (Piece.read [])

/-- A pattern part of which has been matched. -/
structure Candidate (α : Type) where
  /-- What is still to match. -/
  pieces : List Piece
  /-- The parameters so far. -/
  params : List (String × List Char)
  value : α

namespace Candidate

variable {α : Type}

/-- The candidate after a literal segment. -/
def literal? (segment : List Char) (c : Candidate α) : Option (Candidate α) :=
  match c.pieces with
  | .literal text :: pieces => if text = segment then some { c with pieces := pieces } else none
  | _ => none

/-- The candidate after a segment of `lead` and a parameter. -/
def param? (lead taken : List Char) (c : Candidate α) : Option (Candidate α) :=
  match c.pieces with
  | .param lead' name :: pieces =>
    if lead' = lead ∧ taken ≠ [] then some ⟨pieces, c.params ++ [(name, taken)], c.value⟩ else none
  | _ => none

/-- The candidate at the end of a path of `lead` and a catch-all. -/
def rest? (lead taken : List Char) (c : Candidate α) : Option (Candidate α) :=
  match c.pieces with
  | [.rest lead' name] =>
    if lead' = lead ∧ taken ≠ [] then some ⟨[], c.params ++ [(name, taken)], c.value⟩ else none
  | _ => none

end Candidate

/-- Finds the candidate for the segments of a path. -/
def search {α : Type} (candidates : List (Candidate α)) : List (List Char) → Option (Candidate α)
  | [] => candidates.find? fun c => c.pieces.isEmpty
  | segment :: segments =>
    let literals := candidates.filterMap (Candidate.literal? segment)
    let found := if literals.isEmpty then none else search literals segments
    found.orElse fun _ =>
      (List.range (segment.length + 1)).reverse.findSome? fun n =>
        let lead := segment.take n
        let taken := segment.drop n
        let params := candidates.filterMap (Candidate.param? lead taken)
        let found := if params.isEmpty then none else search params segments
        found.orElse fun _ =>
          (candidates.filterMap
            (Candidate.rest? lead (Text.joinWith '/' (taken :: segments)))).head?

/-- Finds the pattern that a path matches, with what its parameters take. -/
def lookup {α : Type} (patterns : List (String × α)) (path : String) :
    Option (α × List (String × String)) :=
  let candidates := patterns.map fun (pattern, value) => (⟨piecesOfPattern pattern, [], value⟩ : Candidate α)
  (search candidates (Text.splitOn '/' path.toList)).map fun c =>
    (c.value, c.params.map fun (name, taken) => (name, String.ofList taken))

end ResourceTree.Route
