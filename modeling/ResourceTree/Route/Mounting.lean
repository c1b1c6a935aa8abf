import ResourceTree.Route.Pattern

/-! # Mounting patterns

The matcher is given one pattern after another. It gives up on a pattern that is not well-formed (`isMountable`), and on
two patterns that stand in each other's way (`clash`): which match the same paths, or one of which takes a segment as a
parameter where the other takes the rest of the path. A literal comes before a parameter, and more literal text before
less, so patterns that differ in such text first can stand side by side. -/

namespace ResourceTree.Route

/-! ## Well-formed patterns -/

/-- Whether text is a name and the brace that closes it, with nothing behind. A doubled brace belongs to the name. -/
def isClosed : List Char → Bool
  | [] => false
  | [c] => c == '}'
  | c :: d :: cs =>
    if (c = '{' ∧ d = '{') ∨ (c = '}' ∧ d = '}') then isClosed cs
    else c != '*' && c != '}' && isClosed (d :: cs)

/-- Whether the text behind an opening brace makes a parameter, or in the last segment a catch-all, that ends the
segment. -/
def isHole (last : Bool) : List Char → Bool
  | [] => false
  | c :: cs => if c = '*' then last && cs != ['}'] && isClosed cs else c != '}' && isClosed (c :: cs)

/-- Whether a segment is well-formed: its braces are doubled, but for those around what ends it. -/
def isSegment (last : Bool) : List Char → Bool
  | [] => true
  | [c] => c != '{' && c != '}'
  | c :: d :: cs =>
    if (c = '{' ∧ d = '{') ∨ (c = '}' ∧ d = '}') then isSegment last cs
    else if c = '{' then isHole last (d :: cs)
    else c != '}' && isSegment last (d :: cs)

/-- Whether segments are well-formed up to the last one. None may begin with the marks that parameters and catch-alls
had in older patterns. -/
def areSegments : List (List Char) → Bool
  | [] => true
  | segment :: segments =>
    segment.head? != some ':' && segment.head? != some '*' && isSegment segments.isEmpty segment
      && areSegments segments

/-- Whether a piece is a parameter. -/
def Piece.isParam : Piece → Bool
  | .param _ _ => true
  | _ => false

/-- How many parameters a pattern may have. The matcher names them by letters, and stops at the last one. -/
def parameterLimit : Nat := 25

/-- Whether the matcher takes a pattern on its own. -/
def isMountable (pattern : String) : Bool :=
  match Text.splitOn '/' pattern.toList with
  | [] :: segment :: segments =>
    areSegments (segment :: segments) && (piecesOfPattern pattern).countP Piece.isParam ≤ parameterLimit
  | _ => false

/-! ## Patterns side by side -/

/-- Whether patterns stand in each other's way. The names of parameters do not count. -/
def clash : List Piece → List Piece → Bool
  | [], [] => true
  | .literal text :: ps, .literal text' :: qs => text == text' && clash ps qs
  | .param lead _ :: ps, .param lead' _ :: qs => lead == lead' && clash ps qs
  | .rest lead _ :: ps, .rest lead' _ :: qs => lead == lead' && clash ps qs
  | .param lead _ :: _, .rest lead' _ :: _ => lead == lead'
  | .rest lead _ :: _, .param lead' _ :: _ => lead == lead'
  | _, _ => false

/-- Whether one of some patterns stands in the way of one of some others. -/
def anyClash (patterns others : List String) : Bool :=
  patterns.any fun p => others.any fun q => clash (piecesOfPattern p) (piecesOfPattern q)

end ResourceTree.Route
