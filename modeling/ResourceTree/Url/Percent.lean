import ResourceTree.Text.Utf8

/-! # Percent-encoding

An ID becomes one segment of a path by writing every byte of its UTF-8 form that is not an unreserved
character of URLs as `%` and two hexadecimal digits. Decoding leaves a `%` that begins no such code alone. -/

namespace ResourceTree.Percent

/-- An unreserved byte of URLs: an ASCII letter or digit, `-`, `.`, `_` or `~`. -/
def isUnreserved (b : UInt8) : Bool :=
  (0x30 ≤ b && b ≤ 0x39) || (0x41 ≤ b && b ≤ 0x5A) || (0x61 ≤ b && b ≤ 0x7A)
    || b == 0x2D || b == 0x2E || b == 0x5F || b == 0x7E

/-- A hexadecimal digit in upper case. -/
def hexDigit (n : Nat) : Char := Char.ofNat (if n < 10 then 0x30 + n else 0x37 + n)

/-- The code of a byte. -/
def code (b : UInt8) : List Char := ['%', hexDigit (b.toNat / 16), hexDigit (b.toNat % 16)]

/-- The bytes with all but the characters of `keep` written as codes. -/
def encodeBytes (keep : UInt8 → Bool) (bytes : List UInt8) : List Char :=
  bytes.flatMap fun b => if keep b then [Char.ofNat b.toNat] else code b

/-- An ID as one segment of a path. -/
def encode (id : String) : String := String.ofList (encodeBytes isUnreserved id.toUTF8.toList)

/-- The value of a byte that is a hexadecimal digit. -/
def hexValue? (b : UInt8) : Option UInt8 :=
  if 0x30 ≤ b && b ≤ 0x39 then some (b - 0x30)
  else if 0x41 ≤ b && b ≤ 0x46 then some (b - 0x37)
  else if 0x61 ≤ b && b ≤ 0x66 then some (b - 0x57)
  else none

/-- The bytes with every code replaced by its byte. -/
def decodeBytes : List UInt8 → List UInt8
  | [] => []
  | [b] => [b]
  | [b, c] => [b, c]
  | b :: c :: d :: bytes =>
    if b = 0x25 then
      match hexValue? c, hexValue? d with
      | some high, some low => (16 * high + low) :: decodeBytes bytes
      | _, _ => b :: decodeBytes (c :: d :: bytes)
    else b :: decodeBytes (c :: d :: bytes)

/-- A segment with its codes decoded, or `none` if that is not UTF-8. -/
def decode? (segment : String) : Option String :=
  String.fromUTF8? (decodeBytes segment.toUTF8.toList).toByteArray

end ResourceTree.Percent
