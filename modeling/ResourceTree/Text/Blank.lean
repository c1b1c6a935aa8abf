import ResourceTree.Text.Split

/-! # Blank characters

Two classes of blank characters: the `White_Space` property of Unicode, which trimming a text goes by, and
the five ASCII blanks by which a request body counts as empty. -/

namespace ResourceTree.Text

/-- A character with the Unicode property `White_Space`. -/
def isBlank (c : Char) : Bool :=
  let n := c.toNat
  (9 ≤ n && n ≤ 13) || n == 0x20 || n == 0x85 || n == 0xA0 || n == 0x1680
    || (0x2000 ≤ n && n ≤ 0x200A) || n == 0x2028 || n == 0x2029 || n == 0x202F || n == 0x205F
    || n == 0x3000

/-- A string without the blanks at its ends. -/
def trimmed (s : String) : String :=
  String.ofList (trim isBlank s.toList)

/-- An ASCII blank: tab, line feed, form feed, carriage return or space. -/
def isAsciiBlank (b : UInt8) : Bool :=
  b == 9 || b == 10 || b == 12 || b == 13 || b == 32

end ResourceTree.Text
