import ResourceTree.Text.Unprintable

/-! # Quoted text in messages

A text inside a message stands in double quotes, with a backslash before quotes and backslashes, short escapes
for four control characters, and the code point in hexadecimal for every other character that has no shape of
its own. -/

namespace ResourceTree.Text

/-- The hexadecimal digits of a number in lower case. -/
def hexDigits (n : Nat) : List Char := Nat.toDigits 16 n

/-- A character as it stands in a quoted text. -/
def quotedChar (c : Char) : List Char :=
  if c = '"' then ['\\', '"']
  else if c = '\\' then ['\\', '\\']
  else if c = '\n' then ['\\', 'n']
  else if c = '\r' then ['\\', 'r']
  else if c = '\t' then ['\\', 't']
  else if c.toNat = 0 then ['\\', '0']
  else if hasShape c then [c]
  else '\\' :: 'u' :: '{' :: hexDigits c.toNat ++ ['}']

/-- A text in quotes. -/
def quoted (s : String) : String := String.ofList ('"' :: (s.toList.flatMap quotedChar ++ ['"']))

end ResourceTree.Text
