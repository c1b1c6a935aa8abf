/-! # UTF-8 and UTF-16 with replacement

Text that arrives as bytes is decoded without ever failing: where the bytes form no character, the longest
beginning of one that stands there is replaced by U+FFFD. The decoder takes one byte at a time. -/

namespace ResourceTree.Text

/-- The character that stands for bytes that form none. -/
def replacement : Char := Char.ofNat 0xFFFD

/-- The part of a character that has been read: its value so far, how many bytes are missing, and the bounds
of the next one. -/
structure Sequence where
  value : Nat
  missing : Nat
  low : Nat
  high : Nat
  deriving DecidableEq, Repr

/-- What a byte that begins a character gives: a character, the part of one, or neither. -/
inductive Lead where
  | char (c : Char)
  | part (s : Sequence)
  | invalid
  deriving DecidableEq, Repr

/-- The meaning of a byte at the beginning of a character. -/
def lead (b : Nat) : Lead :=
  if b < 0x80 then .char (Char.ofNat b)
  else if b < 0xC2 then .invalid
  else if b < 0xE0 then .part ⟨b - 0xC0, 1, 0x80, 0xBF⟩
  else if b = 0xE0 then .part ⟨0, 2, 0xA0, 0xBF⟩
  else if b = 0xED then .part ⟨0xD, 2, 0x80, 0x9F⟩
  else if b < 0xF0 then .part ⟨b - 0xE0, 2, 0x80, 0xBF⟩
  else if b = 0xF0 then .part ⟨0, 3, 0x90, 0xBF⟩
  else if b < 0xF4 then .part ⟨b - 0xF0, 3, 0x80, 0xBF⟩
  else if b = 0xF4 then .part ⟨4, 3, 0x80, 0x8F⟩
  else .invalid

/-- The state after a byte at the beginning of a character, added to the characters so far. -/
def afterLead (chars : List Char) (b : Nat) : List Char × Option Sequence :=
  match lead b with
  | .char c => (c :: chars, none)
  | .part s => (chars, some s)
  | .invalid => (replacement :: chars, none)

/-- Decodes the rest of a text; `chars` holds what came before, the last character first. -/
def decodeFrom (chars : List Char) (open? : Option Sequence) : List UInt8 → List Char
  | [] =>
    match open? with
    | none => chars.reverse
    | some _ => (replacement :: chars).reverse
  | byte :: bytes =>
    let b := byte.toNat
    match open? with
    | none =>
      let (chars, open?) := afterLead chars b
      decodeFrom chars open? bytes
    | some s =>
      if s.low ≤ b ∧ b ≤ s.high then
        let value := 64 * s.value + (b - 0x80)
        if s.missing = 1 then decodeFrom (Char.ofNat value :: chars) none bytes
        else decodeFrom chars (some ⟨value, s.missing - 1, 0x80, 0xBF⟩) bytes
      else
        let (chars, open?) := afterLead (replacement :: chars) b
        decodeFrom chars open? bytes

/-- The text of UTF-8 bytes, with U+FFFD where they form no character. -/
def decodeUtf8 (bytes : List UInt8) : String := String.ofList (decodeFrom [] none bytes)

/-- The code units of UTF-16 bytes; a byte left over at the end is half a unit. -/
def units (bigEndian : Bool) : List UInt8 → List (Option Nat)
  | [] => []
  | [_] => [none]
  | a :: b :: bytes =>
    (if bigEndian then some (a.toNat * 256 + b.toNat) else some (b.toNat * 256 + a.toNat))
      :: units bigEndian bytes

/-- What a code unit gives after no leading surrogate: the characters, and the leading surrogate it is. -/
def unitStart : Option Nat → List Char × Option Nat
  | none => ([replacement], none)
  | some n =>
    if 0xD800 ≤ n ∧ n < 0xDC00 then ([], some n)
    else if 0xDC00 ≤ n ∧ n < 0xE000 then ([replacement], none)
    else ([Char.ofNat n], none)

/-- What a code unit gives after a leading surrogate. -/
def unitAfter (high : Nat) (unit : Option Nat) : List Char × Option Nat :=
  let unpaired := (replacement :: (unitStart unit).1, (unitStart unit).2)
  match unit with
  | none => unpaired
  | some n =>
    if 0xDC00 ≤ n ∧ n < 0xE000 then ([Char.ofNat (0x10000 + (high - 0xD800) * 0x400 + (n - 0xDC00))], none)
    else unpaired

/-- The characters of UTF-16 code units that follow a leading surrogate or none, with U+FFFD for half a pair
and for half a unit. -/
def decodeUnits (leading : Option Nat) : List (Option Nat) → List Char
  | [] => if leading.isSome then [replacement] else []
  | unit :: rest =>
    let (chars, next) :=
      match leading with
      | none => unitStart unit
      | some high => unitAfter high unit
    chars ++ decodeUnits next rest

/-- The text of the bytes of a message. A byte order mark chooses the encoding and is dropped; without one it
is UTF-8. -/
def decodeMarked : List UInt8 → String
  | 0xEF :: 0xBB :: 0xBF :: bytes => decodeUtf8 bytes
  | 0xFE :: 0xFF :: bytes => String.ofList (decodeUnits none (units true bytes))
  | 0xFF :: 0xFE :: bytes => String.ofList (decodeUnits none (units false bytes))
  | bytes => decodeUtf8 bytes

end ResourceTree.Text
