import ResourceTree.Number.Literal
import ResourceTree.Regex.Basic

/-! # Reading regular expressions

The usual notation: literals, escapes, classes in brackets, groups, alternatives and repetitions. A text that is
no expression is refused. Repetitions may be marked as reluctant, which makes no difference to a search. -/

namespace ResourceTree.Regex

/-! ## Escapes -/

/-- What an escape stands for: a set of characters, a single one, or a place. -/
inductive Escaped where
  | set (s : CharSet)
  | char (c : Char)
  | place (r : Regex)

/-- The character of a code point in hexadecimal digits. -/
def codePoint? (digits : List Char) : Option Char := do
  if digits.isEmpty then failure
  let n ← digits.foldlM (fun n c => (Number.hexValue? c).map fun d => 16 * n + d) 0
  if n.isValidChar then some (Char.ofNat n) else none

/-- Reads a code point of a fixed number of digits, or of any number in braces. -/
def readCodePoint? (width : Nat) : List Char → Option (Char × List Char)
  | '{' :: cs =>
    match cs.dropWhile (· != '}') with
    | _ :: rest => (codePoint? (cs.takeWhile (· != '}'))).map fun c => (c, rest)
    | [] => none
  | cs =>
    if (cs.take width).length = width then (codePoint? (cs.take width)).map fun c => (c, cs.drop width) else none

/-- Reads an escape behind its backslash. -/
def escape? : List Char → Option (Escaped × List Char)
  | [] => none
  | c :: cs =>
    match c with
    | 'd' => some (.set .digit, cs)
    | 'D' => some (.set (.complement .digit), cs)
    | 'w' => some (.set .word, cs)
    | 'W' => some (.set (.complement .word), cs)
    | 's' => some (.set .blank, cs)
    | 'S' => some (.set (.complement .blank), cs)
    | 'n' => some (.char '\n', cs)
    | 't' => some (.char '\t', cs)
    | 'r' => some (.char '\r', cs)
    | 'f' => some (.char (Char.ofNat 12), cs)
    | 'v' => some (.char (Char.ofNat 11), cs)
    | 'a' => some (.char (Char.ofNat 7), cs)
    | 'A' => some (.place .textStart, cs)
    | 'z' => some (.place .textEnd, cs)
    | 'b' => some (.place (.boundary false), cs)
    | 'B' => some (.place (.boundary true), cs)
    | 'x' => (readCodePoint? 2 cs).map fun r => (.char r.1, r.2)
    | 'u' => (readCodePoint? 4 cs).map fun r => (.char r.1, r.2)
    | 'U' => (readCodePoint? 8 cs).map fun r => (.char r.1, r.2)
    | c =>
      if c.toNat < 0x80 ∧ !c.isAlphanum ∧ c ≠ '<' ∧ c ≠ '>' then some (.char c, cs) else none

/-! ## Classes -/

/-- Reads one item of a class: a set, or a character that may begin a range. -/
def classItem? : List Char → Option ((CharSet ⊕ Char) × List Char)
  | [] | '[' :: _ => none
  | '\\' :: cs => do
    let (escaped, cs) ← escape? cs
    match escaped with
    | .set s => some (.inl s, cs)
    | .char c => some (.inr c, cs)
    | .place _ => none
  | c :: cs => some (.inr c, cs)

/-- Reads the items of a class up to its bracket. A bracket in the first place and a dash in the first or last
stand for themselves. -/
def classItems? (fuel : Nat) (first : Bool) (s : CharSet) (cs : List Char) : Option (CharSet × List Char) :=
  match fuel, cs with
  | 0, _ | _, [] => none
  | fuel + 1, c :: rest =>
    if c = ']' ∧ !first then some (s, rest)
    else do
      let (item, rest) ← classItem? (c :: rest)
      match item with
      | .inl t => classItems? fuel false (.union s t) rest
      | .inr low =>
        match rest with
        | '-' :: next :: _ =>
          if next = ']' then classItems? fuel false (.union s (.single low)) rest
          else
            let (item, rest) ← classItem? rest.tail
            match item with
            | .inr high =>
              if low ≤ high then classItems? fuel false (.union s (.range low high)) rest else none
            | .inl _ => none
        | _ => classItems? fuel false (.union s (.single low)) rest

/-- Reads a class behind its bracket. -/
def class? (cs : List Char) : Option (CharSet × List Char) :=
  match cs with
  | '^' :: cs => (classItems? (cs.length + 1) true .none cs).map fun r => (.complement r.1, r.2)
  | cs => classItems? (cs.length + 1) true .none cs

/-! ## Repetitions -/

/-- A number in decimal digits. -/
def number? (ds : List Char) : Option Nat :=
  if ds.isEmpty || !ds.all Char.isDigit then none else some (Number.digitsValue ds)

/-- The greatest number of copies that a repetition may ask for. -/
def maxCopies : Nat := 50000

/-- The expression that the bounds of a repetition make. -/
def bounded? (r : Regex) (bounds : List Char) : Option Regex :=
  match bounds.dropWhile (· != ',') with
  | [] => do
    let n ← number? bounds
    if n ≤ maxCopies then some (copies r n) else none
  | [_] => do
    let n ← number? (bounds.takeWhile (· != ','))
    if n ≤ maxCopies then some (seq (copies r n) (star r)) else none
  | _ :: most => do
    let low := bounds.takeWhile (· != ',')
    let n ← if low.isEmpty then some 0 else number? low
    let m ← number? most
    if n ≤ m ∧ m ≤ maxCopies then some (seq (copies r n) (upTo r (m - n))) else none

/-- Reads the repetitions behind an expression. -/
def repeated? (fuel : Nat) (r : Regex) (cs : List Char) : Option (Regex × List Char) :=
  let reluctant (cs : List Char) : List Char := if cs.head? = some '?' then cs.tail else cs
  match fuel, cs with
  | 0, _ => none
  | fuel + 1, '*' :: cs => repeated? fuel (star r) (reluctant cs)
  | fuel + 1, '+' :: cs => repeated? fuel (seq r (star r)) (reluctant cs)
  | fuel + 1, '?' :: cs => repeated? fuel (alt r empty) (reluctant cs)
  | fuel + 1, '{' :: cs =>
    match cs.dropWhile (· != '}') with
    | _ :: rest => do
      let r ← bounded? r (cs.takeWhile (· != '}'))
      repeated? fuel r (reluctant rest)
    | [] => none
  | _ + 1, cs => some (r, cs)

/-! ## Expressions -/

/-- What follows the beginning of a group: a mark that it has no number, or its name, is skipped. -/
def groupBody? : List Char → Option (List Char)
  | '?' :: ':' :: cs => some cs
  | '?' :: 'P' :: '<' :: cs | '?' :: '<' :: cs =>
    match cs.dropWhile (· != '>') with
    | _ :: rest => some rest
    | [] => none
  | '?' :: _ => none
  | cs => some cs

mutual

/-- Reads alternatives up to the end of a group or of the text. The fuel bounds how deep the parts are
nested. -/
def alternatives? (fuel : Nat) (cs : List Char) : Option (Regex × List Char) :=
  match fuel with
  | 0 => none
  | fuel + 1 => do
    let (first, rest) ← sequence? fuel empty cs
    match rest with
    | '|' :: rest => do
      let (second, rest) ← alternatives? fuel rest
      return (alt first second, rest)
    | rest => return (first, rest)

/-- Reads on in a sequence. -/
def sequence? (fuel : Nat) (before : Regex) (cs : List Char) : Option (Regex × List Char) :=
  match fuel, cs with
  | 0, _ => none
  | _ + 1, [] => some (before, [])
  | _ + 1, '|' :: cs => some (before, '|' :: cs)
  | _ + 1, ')' :: cs => some (before, ')' :: cs)
  | fuel + 1, cs => do
    let (r, rest) ← atom? fuel cs
    let (r, rest) ← repeated? (rest.length + 1) r rest
    sequence? fuel (seq before r) rest

/-- Reads an expression that a repetition applies to. -/
def atom? (fuel : Nat) (cs : List Char) : Option (Regex × List Char) :=
  match fuel, cs with
  | 0, _ | _, [] => none
  | _ + 1, '^' :: cs => some (textStart, cs)
  | _ + 1, '$' :: cs => some (textEnd, cs)
  | _ + 1, '.' :: cs => some (set .anyButNewline, cs)
  | _ + 1, '[' :: cs => (class? cs).map fun r => (set r.1, r.2)
  | _ + 1, '\\' :: cs =>
    (escape? cs).map fun r =>
      match r.1 with
      | .set s => (set s, r.2)
      | .char c => (set (.single c), r.2)
      | .place p => (p, r.2)
  | fuel + 1, '(' :: cs => do
    let cs ← groupBody? cs
    let (r, rest) ← alternatives? fuel cs
    match rest with
    | ')' :: rest => some (r, rest)
    | _ => none
  | _ + 1, c :: cs => if ['*', '+', '?', '{'].contains c then none else some (set (.single c), cs)

end

/-- The expression that a text writes, if it writes one. -/
def parse? (text : String) : Option Regex :=
  match alternatives? (2 * text.toList.length + 2) text.toList with
  | some (r, []) => some r
  | _ => none

end ResourceTree.Regex
