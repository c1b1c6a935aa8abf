import ResourceTree.Text.Split
import ResourceTree.Url.Percent

/-! # Paths through a tree of APIs

A `RoutePath` is the chain of APIs from the top of a tree down to one of them. With IDs it gives the path of a
request, with placeholders it gives the pattern of a route; both go through `pieces`, so they always have the
same shape. -/

namespace ResourceTree

/-- One API in the chain. -/
structure Segment where
  name : String
  /-- The path below the parent, in any spelling of the slashes at its ends. -/
  base : String
  /-- Whether what lies below is addressed through an ID. -/
  takesId : Bool
  deriving DecidableEq, Repr

/-- The name of the path parameter that holds the ID for the API `name`: every character but an ASCII letter
or digit becomes an underscore. -/
def idParam (name : String) : String :=
  String.ofList (name.toList.map fun c => if c.isAlphanum then c else '_') ++ "_id"

/-- The name of the path parameter that holds the segment's ID. -/
def Segment.idParam (s : Segment) : String := ResourceTree.idParam s.name

/-- The parts of a base between its slashes; slashes at the ends do not count, and a base of slashes only has
no parts. -/
def basePieces (base : String) : List String :=
  match Text.trim (· == '/') base.toList with
  | [] => []
  | cs => Text.pieces '/' (String.ofList cs)

/-- The path made of these parts. -/
def absolutePath : List String → String
  | [] => "/"
  | parts => "/" ++ Text.join '/' parts

/-- The wrong number of ancestor IDs was given for a path. -/
structure PathError where
  resource : String
  expected : Nat
  actual : Nat
  deriving DecidableEq, Repr

/-- The text of a path error. -/
def PathError.message (e : PathError) : String :=
  "path for '" ++ e.resource ++ "' needs " ++ Nat.repr e.expected ++ " parent id(s), got "
    ++ Nat.repr e.actual

/-- The chain of APIs from the top of a tree, outermost first. -/
structure RoutePath where
  segments : List Segment
  deriving DecidableEq, Repr, Inhabited

namespace RoutePath

/-- The path of the server itself. -/
def root : RoutePath := ⟨[]⟩

/-- The path extended by one API. -/
def child (path : RoutePath) (name base : String) (takesId : Bool) : RoutePath :=
  ⟨path.segments ++ [⟨name, base, takesId⟩]⟩

/-- The last API of the chain. -/
def leaf? (path : RoutePath) : Option Segment := path.segments.getLast?

/-- The names of the chain, which tell the APIs of one tree apart. -/
def names (path : RoutePath) : List String := path.segments.map Segment.name

/-- The ancestors whose ID stands in the path, outermost first. -/
def idAncestors (path : RoutePath) : List Segment := path.segments.dropLast.filter Segment.takesId

/-- The parts of a path for a chain of segments, given a part for every ancestor that takes an ID and perhaps
one for the last segment. -/
def piecesOf : List Segment → List String → Option String → List String
  | [], _, _ => []
  | [s], _, leaf => basePieces s.base ++ leaf.toList
  | s :: next :: rest, ids, leaf =>
    match s.takesId, ids with
    | true, id :: ids => basePieces s.base ++ id :: piecesOf (next :: rest) ids leaf
    | _, ids => basePieces s.base ++ piecesOf (next :: rest) ids leaf

/-- The parts of the path with the given IDs, or the error that their number is wrong. -/
def pieces (path : RoutePath) (parents : List String) (leaf : Option String) :
    Except PathError (List String) :=
  let expected := path.idAncestors.length
  if parents.length = expected then .ok (piecesOf path.segments parents leaf)
  else .error ⟨(path.leaf?.map Segment.name).getD "", expected, parents.length⟩

/-- The path of the collection, or of one resource if `id` is given. Every ID becomes one percent-encoded
segment. -/
def render (path : RoutePath) (parents : List String) (id : Option String) : Except PathError String :=
  (path.pieces (parents.map Percent.encode) (id.map Percent.encode)).map absolutePath

/-- The placeholder for the ID of a segment. -/
def placeholder (s : Segment) : String := String.ofList ('{' :: s.idParam.toList ++ ['}'])

/-- The pattern with placeholders for the ancestors' IDs and perhaps one for the last segment; the path of the
server itself would stand in for one that cannot be composed. -/
def pattern (path : RoutePath) (leaf : Option Segment) : String :=
  match path.pieces (path.idAncestors.map placeholder) (leaf.map placeholder) with
  | .ok parts => absolutePath parts
  | .error _ => "/"

/-- There is a placeholder for every ancestor that takes an ID, so composing them cannot fail. -/
theorem pieces_placeholders (path : RoutePath) (leaf : Option Segment) :
    path.pieces (path.idAncestors.map placeholder) (leaf.map placeholder)
      = .ok (piecesOf path.segments (path.idAncestors.map placeholder) (leaf.map placeholder)) := by
  rw [pieces, List.length_map, if_pos rfl]

theorem pattern_eq (path : RoutePath) (leaf : Option Segment) :
    path.pattern leaf
      = absolutePath (piecesOf path.segments (path.idAncestors.map placeholder) (leaf.map placeholder)) := by
  rw [pattern, pieces_placeholders]

/-- The pattern of the collection. -/
def collectionPattern (path : RoutePath) : String := path.pattern none

/-- The pattern of one resource. -/
def itemPattern (path : RoutePath) : String := path.pattern path.leaf?

end RoutePath

/-- A route path below an absolute pattern. -/
def joinPaths (stem path : String) : String :=
  let stem := Text.trimEnd (· == '/') stem.toList
  match Text.trim (· == '/') path.toList, stem with
  | [], [] => "/"
  | [], stem => String.ofList stem
  | cs, stem => String.ofList (stem ++ '/' :: cs)

end ResourceTree
