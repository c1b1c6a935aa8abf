import ResourceTree.Json.Basic

/-! # JSON text

The compact text of a value: no blanks, members in the order of the value, strings with the short escapes for
the quote, the backslash and five control characters, the long escape for the other control characters, and
every other character as itself. -/

namespace ResourceTree.Json

/-- A hexadecimal digit in lower case. -/
def hexDigit (n : Nat) : Char := Char.ofNat (if n < 10 then '0'.toNat + n else 'a'.toNat + (n - 10))

/-- A character as it stands inside a string literal. -/
def escape (c : Char) : List Char :=
  if c = '"' then ['\\', '"']
  else if c = '\\' then ['\\', '\\']
  else if c.toNat = 8 then ['\\', 'b']
  else if c.toNat = 12 then ['\\', 'f']
  else if c = '\n' then ['\\', 'n']
  else if c = '\r' then ['\\', 'r']
  else if c = '\t' then ['\\', 't']
  else if c.toNat < 32 then ['\\', 'u', '0', '0', hexDigit (c.toNat / 16), hexDigit (c.toNat % 16)]
  else [c]

/-- A string literal. -/
def quoted (s : String) : List Char := '"' :: (s.toList.flatMap escape ++ ['"'])

mutual

/-- The compact text of a value. -/
def chars : Json → List Char
  | .null => ['n', 'u', 'l', 'l']
  | .bool true => ['t', 'r', 'u', 'e']
  | .bool false => ['f', 'a', 'l', 's', 'e']
  | .num n => n.text
  | .str s => quoted s
  | .arr [] => ['[', ']']
  | .arr (item :: items) => '[' :: item.chars ++ itemChars items
  | .obj [] => ['{', '}']
  | .obj ((key, value) :: members) => '{' :: quoted key ++ ':' :: value.chars ++ memberChars members

/-- The items after the first one and the closing bracket. -/
def itemChars : List Json → List Char
  | [] => [']']
  | item :: items => ',' :: item.chars ++ itemChars items

/-- The members after the first one and the closing brace. -/
def memberChars : List (String × Json) → List Char
  | [] => ['}']
  | (key, value) :: members => ',' :: quoted key ++ ':' :: value.chars ++ memberChars members

end

/-- The compact text of a value. -/
def text (value : Json) : String := String.ofList value.chars

end ResourceTree.Json
