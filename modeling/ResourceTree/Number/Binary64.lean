/-! # Double-precision numbers

The finite numbers of the IEEE 754 format `binary64`, written as a sign, a whole mantissa and an exponent of
two. Arithmetic is done on exact ratios of natural numbers and rounded once, to nearest with ties to the even
mantissa, so that every operation here is a total function on integers. -/

namespace ResourceTree

/-- A finite double `± mantissa · 2 ^ exponent`. A normal number has a mantissa of 53 bits; a subnormal one,
and zero, has the least exponent `-1074`. -/
structure Binary64 where
  negative : Bool
  mantissa : Nat
  exponent : Int
  deriving DecidableEq, Repr, Inhabited

namespace Binary64

/-- The least exponent, that of the subnormal numbers. -/
def minExponent : Int := -1074

/-- The greatest exponent of a finite number. -/
def maxExponent : Int := 971

/-- The least mantissa of a normal number, `2 ^ 52`. -/
def hiddenBit : Nat := 4503599627370496

/-- Zero with a sign. -/
def zero (negative : Bool) : Binary64 := ⟨negative, 0, minExponent⟩

/-- Whether a number is one of the two zeros. -/
def isZero (d : Binary64) : Bool := d.mantissa == 0

/-- The number with its sign changed. -/
def neg (d : Binary64) : Binary64 := { d with negative := !d.negative }

/-- Numeric equality, under which the two zeros are one number. -/
def same (a b : Binary64) : Bool := a == b || (a.isZero && b.isZero)

/-- `num / den` rounded to the nearest whole number, a half going to the even neighbour. -/
def roundHalfEven (num den : Nat) : Nat :=
  let q := num / den
  let r := num % den
  if 2 * r < den then q
  else if den < 2 * r then q + 1
  else if q % 2 == 0 then q else q + 1

/-- `num / den · 2 ^ (-e)` as a ratio of natural numbers. -/
def scaled (num den : Nat) (e : Int) : Nat × Nat :=
  if 0 ≤ e then (num, den * Nat.pow 2 e.toNat) else (num * Nat.pow 2 (-e).toNat, den)

/-- The exponent under which `num / den` has a mantissa of 53 bits, or the least one. -/
def exponentOf (num den : Nat) : Int :=
  let guess : Int := (Nat.log2 num : Int) - (Nat.log2 den : Int) - 53
  let (n, d) := scaled num den guess
  let e := if n / d < 2 * hiddenBit then guess else guess + 1
  max e minExponent

/-- The double nearest to `num / den`, or `none` if that is beyond the greatest one. -/
def ofRatio (negative : Bool) (num den : Nat) : Option Binary64 :=
  if num = 0 then some (zero negative)
  else
    let e := exponentOf num den
    let (n, d) := scaled num den e
    let m := roundHalfEven n d
    let (m, e) := if m = 2 * hiddenBit then (hiddenBit, e + 1) else (m, e)
    if maxExponent < e then none else some ⟨negative, m, e⟩

/-- The magnitude of a double as a ratio of natural numbers. -/
def ratio (d : Binary64) : Nat × Nat :=
  if 0 ≤ d.exponent then (d.mantissa * Nat.pow 2 d.exponent.toNat, 1)
  else (d.mantissa, Nat.pow 2 (-d.exponent).toNat)

/-- The product of two doubles, rounded once, or `none` on overflow. -/
def mul (a b : Binary64) : Option Binary64 :=
  ofRatio (a.negative != b.negative) (a.ratio.1 * b.ratio.1) (a.ratio.2 * b.ratio.2)

/-- The quotient of two doubles, rounded once, or `none` on overflow and for a zero divisor. -/
def div (a b : Binary64) : Option Binary64 :=
  if b.isZero then none
  else ofRatio (a.negative != b.negative) (a.ratio.1 * b.ratio.2) (a.ratio.2 * b.ratio.1)

/-- The double nearest to a natural number. -/
def ofNat (n : Nat) : Option Binary64 := ofRatio false n 1

end Binary64

end ResourceTree
