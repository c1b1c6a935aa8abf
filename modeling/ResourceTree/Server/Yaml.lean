import ResourceTree.Number.Literal
import ResourceTree.Text.Split

/-! # Settings documents

The part of YAML in which settings are written: one mapping, in block style (a key and its value on each line)
or in flow style (in braces), with plain and quoted scalars, comments, and markers around the document. Values
may be flow collections; what is nested below a key in block style is recognised as a collection and not looked
into. Every reader returns what follows the part it read. -/

namespace ResourceTree.Yaml

/-- A node of a document. -/
inductive Node where
  /-- A text, and whether it stands without quotes. -/
  | scalar (text : String) (plain : Bool)
  | seq
  | map (entries : List (Node × Node))
  deriving Inhabited, Repr

/-- The node that is not written. -/
def Node.absent : Node := .scalar "" true

/-! ## Blanks -/

/-- A blank within a line. -/
def isBlank (c : Char) : Bool := c == ' ' || c == '\t'

/-- A character of a flow collection's frame. -/
def isFlowMark (c : Char) : Bool := c == ',' || c == '[' || c == ']' || c == '{' || c == '}'

/-- The text after blanks, line ends and comments. -/
def skipGap (inComment : Bool) : List Char → List Char
  | [] => []
  | c :: cs =>
    if c = '\n' then skipGap false cs
    else if inComment then skipGap true cs
    else if c = '#' then skipGap true cs
    else if isBlank c then skipGap false cs
    else c :: cs

/-- Whether a text holds nothing but blanks and comments. -/
def isGap (cs : List Char) : Bool := (skipGap false cs).isEmpty

/-- A gap inside a scalar, given with its last character first: blanks stay, one line end becomes a blank, and
of more line ends all but one stay. -/
def fold (gap : List Char) : List Char :=
  match gap.count '\n' with
  | 0 => gap
  | 1 => [' ']
  | n + 2 => List.replicate (n + 1) '\n'

/-! ## Scalars -/

/-- A character that begins something else than a plain scalar. -/
def isIndicator (c : Char) : Bool :=
  ['#', '&', '*', '!', '|', '>', '\'', '"', '%', '@'].contains c || c.toNat == 0x60

/-- Whether a plain scalar may begin with a character that is followed by others. -/
def beginsPlain (inFlow : Bool) (c : Char) (rest : List Char) : Bool :=
  let blankNext := (rest.head?.map fun d => isBlank d || d == '\n').getD true
  if c == '-' then !blankNext
  else if c == '?' || c == ':' then !inFlow && !blankNext
  else !(isBlank c || c == '\n' || isFlowMark c || isIndicator c)

/-- Reads on in a plain scalar. `chars` and `gap` are given with their last character first. -/
def plain? (inFlow : Bool) (chars gap : List Char) : List Char → Option (List Char × List Char)
  | [] => some (chars.reverse, [])
  | c :: cs =>
    if isBlank c || c == '\n' then plain? inFlow chars (c :: gap) cs
    else if c == '#' && !gap.isEmpty then some (chars.reverse, c :: cs)
    else if inFlow && isFlowMark c then some (chars.reverse, c :: cs)
    else if c == ':' then
      match cs with
      | [] => some (chars.reverse, c :: cs)
      | d :: _ =>
        if isBlank d || d == '\n' then some (chars.reverse, c :: cs)
        else if inFlow && (isFlowMark d || d == '?') then none
        else plain? inFlow (c :: (fold gap ++ chars)) [] cs
    else plain? inFlow (c :: (fold gap ++ chars)) [] cs

/-- Reads on in a scalar in single quotes. -/
def single? (chars gap : List Char) : List Char → Option (List Char × List Char)
  | [] => none
  | c :: cs =>
    if c == '\'' then
      match cs with
      | '\'' :: cs => single? ('\'' :: (fold gap ++ chars)) [] cs
      | cs => some ((fold gap ++ chars).reverse, cs)
    else if isBlank c || c == '\n' then single? chars (c :: gap) cs
    else single? (c :: (fold gap ++ chars)) [] cs

/-- The character of a short escape. -/
def escaped? (c : Char) : Option Char :=
  match c with
  | '0' => some (Char.ofNat 0)
  | 'a' => some (Char.ofNat 7)
  | 'b' => some (Char.ofNat 8)
  | 't' | '\t' => some '\t'
  | 'n' => some '\n'
  | 'v' => some (Char.ofNat 11)
  | 'f' => some (Char.ofNat 12)
  | 'r' => some '\r'
  | 'e' => some (Char.ofNat 27)
  | ' ' => some ' '
  | '"' => some '"'
  | '/' => some '/'
  | '\\' => some '\\'
  | 'N' => some (Char.ofNat 0x85)
  | '_' => some (Char.ofNat 0xA0)
  | 'L' => some (Char.ofNat 0x2028)
  | 'P' => some (Char.ofNat 0x2029)
  | _ => none

/-- How many hexadecimal digits follow an escape. -/
def escapeWidth? (c : Char) : Option Nat :=
  match c with
  | 'x' => some 2
  | 'u' => some 4
  | 'U' => some 8
  | _ => none

/-- Where the reader stands in a scalar in double quotes. -/
inductive Mode where
  | text
  /-- After a backslash. -/
  | escape
  /-- In an escape with this value so far and this many digits to come. -/
  | code (value missing : Nat)
  /-- After an escaped line end, whose line's leading blanks do not count. -/
  | joined

/-- Reads on in a scalar in double quotes. -/
def double? (mode : Mode) (chars gap : List Char) : List Char → Option (List Char × List Char)
  | [] => none
  | c :: cs =>
    match mode with
    | .escape =>
      if c == '\n' then double? .joined chars [] cs
      else
        match escapeWidth? c with
        | some width => double? (.code 0 width) chars [] cs
        | none => (escaped? c).bind fun d => double? .text (d :: chars) [] cs
    | .code value missing =>
      (Number.hexValue? c).bind fun digit =>
        let value := 16 * value + digit
        if missing ≤ 1 then
          if value.isValidChar then double? .text (Char.ofNat value :: chars) [] cs else none
        else double? (.code value (missing - 1)) chars [] cs
    | .joined =>
      if isBlank c || c == '\n' then double? .joined chars [] cs
      else if c == '"' then some (chars.reverse, cs)
      else if c == '\\' then double? .escape chars [] cs
      else double? .text (c :: chars) [] cs
    | .text =>
      if c == '"' then some ((fold gap ++ chars).reverse, cs)
      else if c == '\\' then double? .escape (fold gap ++ chars) [] cs
      else if isBlank c || c == '\n' then double? .text chars (c :: gap) cs
      else double? .text (c :: (fold gap ++ chars)) [] cs

/-- Reads a scalar. -/
def scalar? (inFlow : Bool) : List Char → Option (Node × List Char)
  | '"' :: cs => (double? .text [] [] cs).map fun r => (.scalar (String.ofList r.1) false, r.2)
  | '\'' :: cs => (single? [] [] cs).map fun r => (.scalar (String.ofList r.1) false, r.2)
  | c :: cs =>
    if beginsPlain inFlow c cs then
      (plain? inFlow [c] [] cs).map fun r => (.scalar (String.ofList r.1) true, r.2)
    else none
  | [] => none

/-! ## Flow collections -/

mutual

/-- Reads a node of a flow collection. The fuel bounds the number of nodes. -/
def flowNode? (fuel : Nat) (cs : List Char) : Option (Node × List Char) :=
  match fuel, cs with
  | 0, _ => none
  | fuel + 1, '[' :: cs => (flowItems? fuel cs).map fun rest => (.seq, rest)
  | fuel + 1, '{' :: cs => (flowEntries? fuel [] cs).map fun r => (.map r.1.reverse, r.2)
  | _ + 1, cs => scalar? true cs

/-- Reads the value behind a key, if there is one. -/
def flowValue? (fuel : Nat) (cs : List Char) : Option (Node × List Char) :=
  match fuel, skipGap false cs with
  | 0, _ => none
  | fuel + 1, ':' :: cs =>
    match skipGap false cs with
    | [] => none
    | c :: cs => if c == ',' || c == ']' || c == '}' then some (.absent, c :: cs) else flowNode? fuel (c :: cs)
  | _ + 1, cs => some (.absent, cs)

/-- Reads the items of a sequence up to its bracket. -/
def flowItems? (fuel : Nat) (cs : List Char) : Option (List Char) :=
  match fuel, skipGap false cs with
  | 0, _ => none
  | _ + 1, ']' :: cs => some cs
  | fuel + 1, cs => do
    let (_, cs) ← flowNode? fuel cs
    let (_, cs) ← flowValue? fuel cs
    match skipGap false cs with
    | ',' :: cs => flowItems? fuel cs
    | ']' :: cs => some cs
    | _ => none

/-- Reads the entries of a mapping up to its brace, the last one first. -/
def flowEntries? (fuel : Nat) (entries : List (Node × Node)) (cs : List Char) :
    Option (List (Node × Node) × List Char) :=
  match fuel, skipGap false cs with
  | 0, _ => none
  | _ + 1, '}' :: cs => some (entries, cs)
  | fuel + 1, cs => do
    let (key, cs) ← if cs.head? == some ':' then some (.absent, cs) else flowNode? fuel cs
    let (value, cs) ← flowValue? fuel cs
    match skipGap false cs with
    | ',' :: cs => flowEntries? fuel ((key, value) :: entries) cs
    | '}' :: cs => some ((key, value) :: entries, cs)
    | _ => none

end

/-- Reads a node in flow style outside of any collection: nothing but a gap may follow. -/
def inlineNode? (cs : List Char) : Option Node :=
  let node :=
    match cs with
    | '[' :: _ | '{' :: _ => flowNode? (4 * cs.length + 4) cs
    | cs => scalar? false cs
  node.bind fun (node, rest) => if isGap rest then some node else none

/-! ## Lines -/

/-- The number of spaces at the beginning of a line. -/
def indent (line : List Char) : Nat := (line.takeWhile (· == ' ')).length

/-- What stands on a line behind its leading spaces. -/
def content (line : List Char) : List Char := line.dropWhile (· == ' ')

/-- Whether a line has no content. -/
def isIdle (line : List Char) : Bool := (content line).isEmpty || (content line).head? == some '#'

/-- Whether a line begins with a document marker. -/
def isMarker (mark : Char) (line : List Char) : Bool :=
  match line with
  | a :: b :: c :: rest => a == mark && b == mark && c == mark && (rest.head?.map isBlank).getD true
  | _ => false

/-- Reads a key and its colon at the beginning of a line's content. -/
def key? (cs : List Char) : Option (Node × List Char) :=
  let key :=
    match cs with
    | ':' :: _ => some (Node.absent, cs)
    | cs => scalar? false cs
  key.bind fun (key, rest) =>
    match rest.dropWhile isBlank with
    | ':' :: rest => if (rest.head?.map isBlank).getD true then some (key, rest) else none
    | _ => none

/-- Whether a line begins an item of a block sequence. -/
def isItem (line : List Char) : Bool :=
  match content line with
  | '-' :: rest => (rest.head?.map isBlank).getD true
  | _ => false

/-- The value of a key in block style: the rest of its line, and the deeper lines that follow. -/
def blockValue? (rest : List Char) (deeper : List (List Char)) : Option Node :=
  if isGap rest then
    match deeper.filter fun line => !isIdle line with
    | [] => some .absent
    | line :: lines =>
      if isItem line || (key? (content line)).isSome then some .seq
      else inlineNode? (content (Text.joinWith '\n' (line :: lines)))
  else inlineNode? (rest.dropWhile isBlank ++ '\n' :: Text.joinWith '\n' deeper)

/-- Whether a line belongs to the value of a key that stands at an indentation. -/
def isDeeper (column : Nat) (line : List Char) : Bool := isIdle line || column < indent line

/-- The entries of a block mapping at an indentation. The fuel bounds the number of lines. -/
def blockEntries? (fuel column : Nat) (lines : List (List Char)) : Option (List (Node × Node)) :=
  match fuel, lines.dropWhile isIdle with
  | _, [] => some []
  | 0, _ => none
  | fuel + 1, line :: lines => do
    if indent line ≠ column then none
    let (key, rest) ← key? (content line)
    let deeper := lines.takeWhile (isDeeper column)
    let lines := lines.dropWhile (isDeeper column)
    if isGap rest && deeper.all isIdle && (lines.head?.map isItem).getD false then
      let entries ← blockEntries? fuel column (lines.dropWhile fun line => isDeeper column line || isItem line)
      return (key, .seq) :: entries
    else
      let value ← blockValue? rest deeper
      let entries ← blockEntries? fuel column lines
      return (key, value) :: entries

/-! ## Documents -/

/-- A character that may stand in a document. -/
def isAllowed (c : Char) : Bool :=
  let n := c.toNat
  n == 9 || n == 10 || n == 13 || (0x20 ≤ n && n ≤ 0x7E) || n == 0x85 || (0xA0 ≤ n && n < 0xFEFF)
    || (0xFF00 ≤ n && n ≤ 0xFFFD) || 0x10000 ≤ n

/-- The text with every line end written as a line feed. -/
def plainLineEnds : List Char → List Char
  | [] => []
  | '\r' :: '\n' :: cs => '\n' :: plainLineEnds cs
  | c :: cs =>
    (if c == '\r' || c.toNat == 0x85 || c.toNat == 0x2028 || c.toNat == 0x2029 then '\n' else c)
      :: plainLineEnds cs

/-- The mapping that the lines of a document hold, or no entries if they hold nothing. -/
def entriesOf? (lines : List (List Char)) : Option (List (Node × Node)) :=
  match lines.dropWhile isIdle with
  | [] => some []
  | line :: rest =>
    if (content line).head? == some '{' then
      match inlineNode? (content (Text.joinWith '\n' (line :: rest))) with
      | some (.map entries) => some entries
      | _ => none
    else blockEntries? (rest.length + 1) (indent line) (line :: rest)

/-- The mapping of a document behind its marker, on the marker's line or on the lines below. -/
def marked? (beside : List Char) (below : List (List Char)) : Option (List (Node × Node)) :=
  if isGap beside then entriesOf? below
  else
    match inlineNode? (beside.dropWhile isBlank ++ '\n' :: Text.joinWith '\n' below) with
    | some (.map entries) => some entries
    | _ => none

/-- The entries of the mapping that is a document's content, or `none` if the text is no such document. A
document without content has no entries. -/
def entries? (text : String) : Option (List (Node × Node)) :=
  let chars :=
    match text.toList with
    | c :: cs => if c.toNat = 0xFEFF then cs else c :: cs
    | [] => []
  if !chars.all isAllowed then none
  else
    let lines := Text.splitOn '\n' (plainLineEnds chars)
    let isEnd line := isMarker '-' line || isMarker '.' line
    let lines := lines.dropWhile isIdle
    match lines with
    | [] => some []
    | first :: rest =>
      let (beside, below) := if isMarker '-' first then (first.drop 3, rest) else ([], lines)
      let rest := below.dropWhile fun line => !isEnd line
      match rest with
      | [] => marked? beside below
      | last :: after =>
        if isMarker '.' last && isGap (last.drop 3) && after.all isIdle then
          marked? beside (below.takeWhile fun line => !isEnd line)
        else none

end ResourceTree.Yaml
