import ResourceTree.Error
import ResourceTree.Route.Path

/-! # Claimed routes

While a tree is assembled, every pattern is claimed in a table first. Two patterns of the same shape match the
same requests, so the second claim of a shape is refused. -/

namespace ResourceTree

/-- What a segment of a pattern matches, with the names of parameters forgotten. -/
inductive Shape where
  | literal (text : String)
  | param
  | rest
  deriving DecidableEq, Repr

/-- The shape of one segment of a pattern. -/
def Shape.ofSegment (segment : String) : Shape :=
  match segment.toList with
  | '{' :: '*' :: _ => .rest
  | '{' :: _ => .param
  | _ => .literal segment

/-- The shape of a pattern, segment by segment. -/
def routeShape (pattern : String) : List Shape := (Text.pieces '/' pattern).map Shape.ofSegment

/-- The patterns claimed so far, each with its shape. -/
structure RouteTable where
  claimed : List (List Shape × String)
  deriving Repr

namespace RouteTable

/-- The table without a claim. -/
def empty : RouteTable := ⟨[]⟩

/-- The pattern that was claimed with a shape. -/
def find? (table : RouteTable) (shape : List Shape) : Option String :=
  (table.claimed.find? fun claim => claim.1 == shape).map Prod.snd

/-- Claims a pattern, or fails if a pattern of the same shape was claimed before. -/
def claim (table : RouteTable) (pattern : String) : Except ConfigError RouteTable :=
  match table.find? (routeShape pattern) with
  | some existing => .error (.routeConflict pattern existing)
  | none => .ok ⟨table.claimed ++ [(routeShape pattern, pattern)]⟩

end RouteTable

end ResourceTree
