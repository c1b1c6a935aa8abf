import ResourceTree.Text.Split
import ResourceTree.Url.Percent

/-! # Form-encoded queries

The query of a URL as a list of named values: pairs are separated by `&`, a name ends at the first `=`, and
both are written with `+` for a space and percent codes for all but letters, digits and `*`, `-`, `.`, `_`.
Reading skips empty pairs and never fails. -/

namespace ResourceTree.Form

/-- A byte that stands for itself in a form. -/
def isPlain (b : UInt8) : Bool :=
  (0x30 ≤ b && b ≤ 0x39) || (0x41 ≤ b && b ≤ 0x5A) || (0x61 ≤ b && b ≤ 0x7A)
    || b == 0x2A || b == 0x2D || b == 0x2E || b == 0x5F

/-- A name or value as it is written in a form. -/
def encodeText (s : String) : List Char :=
  s.toUTF8.toList.flatMap fun b =>
    if b = 0x20 then ['+'] else if isPlain b then [Char.ofNat b.toNat] else Percent.code b

/-- A pair as it is written in a form. -/
def encodePair (pair : String × String) : List Char := encodeText pair.1 ++ '=' :: encodeText pair.2

/-- The pairs as a query. -/
def encode (pairs : List (String × String)) : String :=
  String.ofList (Text.joinWith '&' (pairs.map encodePair))

/-- A name or value as it was before it was written in a form. -/
def decodeText (cs : List Char) : String :=
  let bytes := (String.ofList cs).toUTF8.toList.map fun b => if b = 0x2B then 0x20 else b
  Text.decodeUtf8 (Percent.decodeBytes bytes)

/-- The pair that a piece of a query writes. -/
def decodePair (piece : List Char) : String × String :=
  let (name, value) := Text.cutAt '=' piece
  (decodeText name, decodeText (value.getD []))

/-- The pairs of a query, in order. -/
def decode (query : String) : List (String × String) :=
  ((Text.splitOn '&' query.toList).filter fun piece => !piece.isEmpty).map decodePair

/-- The value that a list of pairs gives a name: the last one. -/
def lookup (pairs : List (String × String)) (name : String) : Option String :=
  (pairs.reverse.find? fun pair => pair.1 == name).map Prod.snd

end ResourceTree.Form
