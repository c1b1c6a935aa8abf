import ResourceTree.Number.Shortest

/-! # Numbers and their literals

A number of a document is a whole number of 64 bits or a double. A literal without fraction and exponent is a
whole number as long as it fits; `-0` and every other literal is a double. The double is computed from the
leading digits that fit an unsigned word of 64 bits, scaled by a power of ten, with one rounding for each of
the two steps. -/

namespace ResourceTree

/-- A number of a document. -/
inductive Number where
  /-- A whole number from `-2 ^ 63` to `2 ^ 64 - 1`. -/
  | whole (n : Int)
  | double (d : Binary64)
  deriving DecidableEq, Repr, Inhabited

namespace Number

/-- The greatest unsigned word of 64 bits. -/
def maxWord : Nat := 18446744073709551615

/-- Equality of numbers: whole numbers and doubles are never equal, and the two zeros are one double. -/
def same : Number → Number → Bool
  | .whole a, .whole b => a == b
  | .double a, .double b => a.same b
  | _, _ => false

/-- The written form of a number. -/
def text : Number → List Char
  | .whole n => if n < 0 then '-' :: Binary64.digitsOf n.natAbs else Binary64.digitsOf n.natAbs
  | .double d => d.text

/-! ## Reading a literal -/

/-- A literal cut into its parts: sign, whole digits, fraction digits and signed exponent digits. -/
structure Literal where
  negative : Bool
  whole : List Char
  fraction : List Char
  exponent : Option (Bool × List Char)
  deriving DecidableEq, Repr

/-- The exponent of a literal, which is everything after its digits. -/
def Literal.exponentPart? : List Char → Option (Option (Bool × List Char))
  | [] => some none
  | c :: cs =>
    if c = 'e' ∨ c = 'E' then
      let (sign, ds) :=
        match cs with
        | '-' :: ds => (true, ds)
        | '+' :: ds => (false, ds)
        | ds => (false, ds)
      if ds ≠ [] ∧ ds.all Char.isDigit then some (some (sign, ds)) else none
    else none

/-- A literal by the grammar: no leading zeros, and digits on both sides of the point and in the exponent. -/
def Literal.ofChars? (cs : List Char) : Option Literal := do
  let (negative, cs) :=
    match cs with
    | '-' :: rest => (true, rest)
    | rest => (false, rest)
  let whole := cs.takeWhile Char.isDigit
  let rest := cs.dropWhile Char.isDigit
  guard (whole ≠ [] ∧ (whole.length = 1 ∨ whole.head? ≠ some '0'))
  match rest with
  | '.' :: rest =>
    let fraction := rest.takeWhile Char.isDigit
    guard (fraction ≠ [])
    let exponent ← Literal.exponentPart? (rest.dropWhile Char.isDigit)
    return ⟨negative, whole, fraction, exponent⟩
  | rest =>
    let exponent ← Literal.exponentPart? rest
    return ⟨negative, whole, [], exponent⟩

/-- The value of a digit. -/
def digitValue (c : Char) : Nat := c.toNat - '0'.toNat

/-- The value of a hexadecimal digit. -/
def hexValue? (c : Char) : Option Nat :=
  if '0' ≤ c ∧ c ≤ '9' then some (c.toNat - '0'.toNat)
  else if 'a' ≤ c ∧ c ≤ 'f' then some (c.toNat - 'a'.toNat + 10)
  else if 'A' ≤ c ∧ c ≤ 'F' then some (c.toNat - 'A'.toNat + 10)
  else none

/-- The value of a string of digits. -/
def digitsValue (ds : List Char) : Nat := ds.foldl (fun n c => 10 * n + digitValue c) 0

/-- The value of the longest beginning of the digits that fits a word when read on from `n`, and how many
digits that beginning has. -/
def leadingWord (n : Nat) : List Char → Nat × Nat
  | [] => (n, 0)
  | c :: ds =>
    let next := 10 * n + digitValue c
    if maxWord < next then (n, 0)
    else
      let (value, count) := leadingWord next ds
      (value, count + 1)

/-- A word times a power of ten as a double, or `none` beyond the greatest double. A negative power beyond
`10 ^ -308` divides in steps of `10 ^ 308`. -/
def scaleByTen (fuel : Nat) (f : Binary64) (e : Int) : Option Binary64 :=
  if f.isZero then some f
  else if e.natAbs ≤ 308 then do
    let power ← Binary64.ofNat (Nat.pow 10 e.natAbs)
    if 0 ≤ e then f.mul power else f.div power
  else if 0 ≤ e then none
  else
    match fuel with
    | 0 => some (Binary64.zero false)
    | fuel + 1 => do
      let power ← Binary64.ofNat (Nat.pow 10 308)
      let f ← f.div power
      scaleByTen fuel f (e + 308)

/-- An exponent with more digits than this is beyond every number. -/
def exponentLimit : Nat := 2147483647

/-- The double that a literal stands for, or `none` if it is out of range. -/
def Literal.toBinary64? (l : Literal) : Option Binary64 := do
  let (word, used) := leadingWord 0 l.whole
  let dropped := l.whole.length - used
  let (word, usedFraction) := leadingWord word l.fraction
  let shift : Int := (dropped : Int) - (usedFraction : Int)
  let f ← Binary64.ofNat word
  let magnitude ←
    match l.exponent with
    | none => scaleByTen 8 f shift
    | some (down, ds) =>
      let e := digitsValue ds
      if exponentLimit < e then
        if word ≠ 0 ∧ down = false then none else some (Binary64.zero false)
      else if down then scaleByTen 8 f (shift - (e : Int)) else scaleByTen 8 f (shift + (e : Int))
  return if l.negative then magnitude.neg else magnitude

/-- The number that a literal stands for: `none` if the text is no literal, `some none` if the number is
out of range. -/
def ofChars? (cs : List Char) : Option (Option Number) :=
  match Literal.ofChars? cs with
  | none => none
  | some l =>
    let n := digitsValue l.whole
    if l.fraction = [] ∧ l.exponent = none then
      if l.negative then
        if n ≠ 0 ∧ n ≤ Nat.pow 2 63 then some (some (.whole (-(n : Int))))
        else some (l.toBinary64?.map .double)
      else if n ≤ maxWord then some (some (.whole n))
      else some (l.toBinary64?.map .double)
    else some (l.toBinary64?.map .double)

end Number

end ResourceTree
