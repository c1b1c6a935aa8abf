import ResourceTree.Number.Literal

/-! # Numbers of a fixed width

Decimal numbers of at most a given size, as they stand in queries and settings: ASCII digits, perhaps behind a
plus sign. The first character that does not fit decides what is wrong. -/

namespace ResourceTree.Word

/-- Why a text is no number of the width. -/
inductive Fault where
  | empty
  | invalidDigit
  | tooLarge
  deriving DecidableEq, Repr

/-- The text of a fault. -/
def Fault.message : Fault → String
  | .empty => "cannot parse integer from empty string"
  | .invalidDigit => "invalid digit found in string"
  | .tooLarge => "number too large to fit in target type"

/-- Reads on in a number of at most `limit`, digit by digit. -/
def readDigits (limit n : Nat) : List Char → Except Fault Nat
  | [] => .ok n
  | c :: cs =>
    if !c.isDigit then .error .invalidDigit
    else
      let n := 10 * n + Number.digitValue c
      if limit < n then .error .tooLarge else readDigits limit n cs

/-- A number of at most `limit`, perhaps with a plus sign. -/
def read (limit : Nat) (s : String) : Except Fault Nat :=
  match s.toList with
  | [] => .error .empty
  | ['+'] => .error .invalidDigit
  | '+' :: cs => readDigits limit 0 cs
  | cs => readDigits limit 0 cs

/-- A number of at most `limit`, or nothing if the text is none. -/
def read? (limit : Nat) (s : String) : Option Nat :=
  match read limit s with
  | .ok n => some n
  | .error _ => none

end ResourceTree.Word
