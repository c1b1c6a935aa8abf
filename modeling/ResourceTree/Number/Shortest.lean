import ResourceTree.Number.Binary64

/-! # Shortest decimal text of a double

A double is written with the fewest decimal digits that read back as the same double. The digits are found on
exact ratios: the numbers that round to a double fill an interval around it, and for one digit, two digits and
so on the two neighbours of the double on that decimal grid are tried; the first grid with a neighbour inside
the interval gives the digits, and of two such neighbours the nearer one is taken. -/

namespace ResourceTree.Binary64

/-- A decimal number `digits · 10 ^ exponent`. -/
structure Decimal where
  digits : Nat
  exponent : Int
  deriving DecidableEq, Repr

/-- The interval of numbers that round to a magnitude, as four times its lower end, four times the number and
four times its upper end, all over one denominator. Below a power of two the gap is half as wide. -/
def neighbourhood (d : Binary64) : (Nat × Nat × Nat) × Nat :=
  let m := d.mantissa
  let below := if m = hiddenBit ∧ minExponent < d.exponent then 1 else 2
  let (up, den) :=
    if 0 ≤ d.exponent then (Nat.pow 2 d.exponent.toNat, 4) else (1, 4 * Nat.pow 2 (-d.exponent).toNat)
  (((4 * m - below) * up, 4 * m * up, (4 * m + 2) * up), den)

/-- The greatest `p` with `10 ^ p ≤ num / den`, for a positive ratio. -/
def decimalExponent (num den : Nat) : Int :=
  let bits : Int := (Nat.log2 num : Int) - (Nat.log2 den : Int)
  let guess : Int := bits * 30103 / 100000
  let fits (p : Int) : Bool :=
    if 0 ≤ p then decide (den * Nat.pow 10 p.toNat ≤ num) else decide (den ≤ num * Nat.pow 10 (-p).toNat)
  if fits (guess + 1) then guess + 1
  else if fits guess then guess
  else guess - 1

/-- The digits that the grid of step `10 ^ p` offers for a double: the neighbour of the double on the grid
that rounds to it, the nearer of two, and the even one of two equally near. -/
def onGrid (d : Binary64) (p : Int) : Option Nat :=
  let ((low, mid, high), den) := d.neighbourhood
  let (scale, unit) := if 0 ≤ p then (1, den * Nat.pow 10 p.toNat) else (Nat.pow 10 (-p).toNat, den)
  let inside (n : Nat) : Bool :=
    let x := n * unit
    if d.mantissa % 2 == 0 then low * scale ≤ x && x ≤ high * scale
    else low * scale < x && x < high * scale
  let floor := mid * scale / unit
  let gapBelow := mid * scale - floor * unit
  let gapAbove := (floor + 1) * unit - mid * scale
  match inside floor, inside (floor + 1) with
  | true, true =>
    if gapBelow < gapAbove then some floor
    else if gapAbove < gapBelow then some (floor + 1)
    else some (if floor % 2 == 0 then floor else floor + 1)
  | true, false => some floor
  | false, true => some (floor + 1)
  | false, false => none

/-- The decimal without zeros at its end. -/
def Decimal.stripZeros : Nat → Decimal → Decimal
  | 0, x => x
  | fuel + 1, x =>
    if x.digits ≠ 0 ∧ x.digits % 10 = 0 then stripZeros fuel ⟨x.digits / 10, x.exponent + 1⟩ else x

/-- The shortest decimal that rounds to the magnitude of a non-zero double. Seventeen digits always do. -/
def shortest (d : Binary64) : Decimal :=
  let ((_, mid, _), den) := d.neighbourhood
  let top := decimalExponent mid den
  let grids := (List.range 17).map fun (k : Nat) => top - (k : Int)
  match grids.findSome? fun p => (d.onGrid p).map fun n => (⟨n, p⟩ : Decimal) with
  | some x => x.stripZeros 20
  | none => ⟨0, 0⟩

/-- The digits of a natural number. -/
def digitsOf (n : Nat) : List Char := (Nat.repr n).toList

/-- The text of an exponent. -/
def exponentText (e : Int) : List Char :=
  if e < 0 then '-' :: digitsOf e.natAbs else digitsOf e.natAbs

/-- The text of a magnitude: positional, with at least one decimal, from `10 ^ -5` up to below `10 ^ 16`, and
with an exponent beyond that. -/
def magnitudeText (x : Decimal) : List Char :=
  let ds := digitsOf x.digits
  let point : Int := ds.length + x.exponent
  if 0 ≤ x.exponent ∧ point ≤ 16 then
    ds ++ List.replicate x.exponent.toNat '0' ++ ['.', '0']
  else if 0 < point ∧ point ≤ 16 then
    ds.take point.toNat ++ '.' :: ds.drop point.toNat
  else if -5 < point ∧ point ≤ 0 then
    '0' :: '.' :: List.replicate (-point).toNat '0' ++ ds
  else
    match ds with
    | [] => []
    | [c] => c :: 'e' :: exponentText (point - 1)
    | c :: cs => c :: '.' :: cs ++ 'e' :: exponentText (point - 1)

/-- The shortest text that reads back as a double. -/
def text (d : Binary64) : List Char :=
  let magnitude := if d.isZero then ['0', '.', '0'] else magnitudeText d.shortest
  if d.negative then '-' :: magnitude else magnitude

end ResourceTree.Binary64
