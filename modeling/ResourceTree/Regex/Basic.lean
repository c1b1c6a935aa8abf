import ResourceTree.Text.WordChars

/-! # Regular expressions

Regular expressions and the search for them in a text. A place in a text of `n` characters is one of the `n + 1`
gaps between its characters and at its ends. `reach` takes all places where a match may begin to all places
where it may end, so that a search looks at each alternative once and needs no backtracking. -/

namespace ResourceTree

/-- A set of characters. -/
inductive CharSet where
  | range (low high : Char)
  | digit
  | word
  | blank
  | complement (s : CharSet)
  | union (s t : CharSet)
  | none
  deriving DecidableEq, Repr

namespace CharSet

/-- Whether a character is in a set. -/
def contains : CharSet → Char → Bool
  | range low high, c => low ≤ c && c ≤ high
  | digit, c => Text.isDigit c
  | word, c => Text.isWordChar c
  | blank, c => Text.isBlank c
  | complement s, c => !s.contains c
  | union s t, c => s.contains c || t.contains c
  | none, _ => false

/-- The set of one character. -/
def single (c : Char) : CharSet := range c c

/-- All characters but the line feed. -/
def anyButNewline : CharSet := complement (single '\n')

end CharSet

/-- A regular expression. -/
inductive Regex where
  /-- Matches everywhere without taking a character. -/
  | empty
  | set (s : CharSet)
  | textStart
  | textEnd
  /-- Between a word character and another one, or, if negated, not there. -/
  | boundary (negated : Bool)
  | seq (r s : Regex)
  | alt (r s : Regex)
  | star (r : Regex)
  deriving DecidableEq, Repr

namespace Regex

/-- A set of places in a text, in their order. -/
abbrev Places := List Bool

/-- The places in both sets. -/
def Places.inter (p q : Places) : Places := List.zipWith (· && ·) p q

/-- The places in one of two sets. -/
def Places.union (p q : Places) : Places := List.zipWith (· || ·) p q

/-- All places of a text. -/
def Places.all (cs : List Char) : Places := List.replicate (cs.length + 1) true

/-- The places behind a word character, and those before one. -/
def besideWords (cs : List Char) : Places × Places :=
  (false :: cs.map Text.isWordChar, cs.map Text.isWordChar ++ [false])

/-- The places where a word begins or ends. -/
def boundaries (cs : List Char) : Places := List.zipWith (· != ·) (besideWords cs).1 (besideWords cs).2

/-- The places that `f` leads to from some places in any number of steps, at most `fuel` of them new. -/
def closure (f : Places → Places) : Nat → Places → Places
  | 0, p => p
  | fuel + 1, p =>
    let q := p.union (f p)
    if q = p then p else closure f fuel q

/-- The places where matches end that begin at some places of a text. -/
def reach (cs : List Char) : Regex → Places → Places
  | empty, p => p
  | set s, p => false :: List.zipWith (fun c here => here && s.contains c) cs p
  | textStart, p => p.inter (true :: List.replicate cs.length false)
  | textEnd, p => p.inter (List.replicate cs.length false ++ [true])
  | boundary negated, p => p.inter ((boundaries cs).map (· != negated))
  | seq r s, p => reach cs s (reach cs r p)
  | alt r s, p => (reach cs r p).union (reach cs s p)
  | star r, p => closure (reach cs r) (cs.length + 1) p

/-- Whether a text has a match somewhere. -/
def matches? (r : Regex) (text : String) : Bool :=
  (reach text.toList r (Places.all text.toList)).any id

/-- Some copies of an expression. -/
def copies (r : Regex) : Nat → Regex
  | 0 => empty
  | n + 1 => seq r (copies r n)

/-- Up to some copies of an expression. -/
def upTo (r : Regex) : Nat → Regex
  | 0 => empty
  | n + 1 => alt empty (seq r (upTo r n))

end Regex

end ResourceTree
