import ResourceTree.Json.Basic

/-! # Reading JSON text

A reader takes a text one character at a time, keeping the containers that are still open in a list, so that
reading is a single pass with structural recursion on the text. Its result is the value *as written*: members
in the order of the text with repeated keys kept, and literals that have no value (a number out of range, a
string with half a surrogate pair) marked as such. Whether such a literal is an error depends on what the text
is read for: `Written.value?` refuses it anywhere, while a decoder that skips a member never looks. -/

namespace ResourceTree.Json

/-- A value as it is written. A string or number without a value is `none`. -/
inductive Written where
  | null
  | bool (b : Bool)
  | num (n : Option Number)
  | str (s : Option String)
  | arr (items : List Written)
  | obj (members : List (Option String × Written))
  deriving Inhabited, Repr

namespace Written

mutual

/-- The value of a written text whose containers are nested at most `depth` deep, with the last of equal keys
kept and the members sorted. -/
def value? (depth : Nat) : Written → Option Json
  | .null => some .null
  | .bool b => some (.bool b)
  | .num n => n.map .num
  | .str s => s.map .str
  | .arr items =>
    match depth with
    | 0 => none
    | depth + 1 => (items? depth items).map .arr
  | .obj members =>
    match depth with
    | 0 => none
    | depth + 1 => (members? depth members).map fun pairs => .obj (Fields.ofList pairs)

/-- The values of the items of an array. -/
def items? (depth : Nat) : List Written → Option (List Json)
  | [] => some []
  | item :: items => do
    let value ← value? depth item
    let values ← items? depth items
    return value :: values

/-- The values of the members of an object, in the order of the text. -/
def members? (depth : Nat) : List (Option String × Written) → Option (List (String × Json))
  | [] => some []
  | (key, member) :: members => do
    let key ← key
    let value ← value? depth member
    let values ← members? depth members
    return (key, value) :: values

end

/-- How deep the containers of a document may be nested. -/
def maxDepth : Nat := 127

/-- The value of a document. -/
def document? (w : Written) : Option Json := w.value? maxDepth

/-- The value of a written text, where an outermost object still has its members in the order of the text,
repeated keys included. -/
def outline? (depth : Nat) : Written → Option Json
  | .obj members =>
    match depth with
    | 0 => none
    | depth + 1 => (members? depth members).map .obj
  | w => w.value? depth

end Written

/-! ## Strings -/

/-- Where the reader stands inside a string literal. -/
inductive Escape where
  /-- Not in an escape. -/
  | none
  /-- After a backslash. -/
  | started
  /-- In a long escape, with this value of the digits so far and this many digits to come. -/
  | hex (value : Nat) (missing : Nat)
  deriving DecidableEq, Repr

/-- A string literal that is being read. -/
structure Literal where
  /-- The characters so far, the last one first. -/
  chars : List Char
  /-- A leading surrogate that waits for its other half. -/
  leading : Option Nat
  /-- Whether every surrogate so far had its other half. -/
  paired : Bool
  escape : Escape
  deriving DecidableEq, Repr

namespace Literal

/-- The literal right after its opening quote. -/
def start : Literal := ⟨[], none, true, .none⟩

/-- The literal with one more character, which leaves a waiting surrogate alone. -/
def push (l : Literal) (c : Char) : Literal :=
  ⟨c :: l.chars, none, l.paired && l.leading.isNone, .none⟩

/-- The literal with the code unit of a long escape. -/
def pushUnit (l : Literal) (n : Nat) : Literal :=
  let leading := 0xD800 ≤ n && n < 0xDC00
  let trailing := 0xDC00 ≤ n && n < 0xE000
  match l.leading with
  | some high =>
    if trailing then
      ⟨Char.ofNat (0x10000 + (high - 0xD800) * 0x400 + (n - 0xDC00)) :: l.chars, none, l.paired, .none⟩
    else ⟨l.chars, none, false, .none⟩
  | none =>
    if leading then ⟨l.chars, some n, l.paired, .none⟩
    else if trailing then ⟨l.chars, none, false, .none⟩
    else ⟨Char.ofNat n :: l.chars, none, l.paired, .none⟩

/-- The value of the literal at its closing quote. -/
def finish (l : Literal) : Option String :=
  if l.paired && l.leading.isNone then some (String.ofList l.chars.reverse) else none

end Literal

/-- The character that a short escape stands for. -/
def shortEscape? (c : Char) : Option Char :=
  match c with
  | '"' => some '"'
  | '\\' => some '\\'
  | '/' => some '/'
  | 'b' => some (Char.ofNat 8)
  | 'f' => some (Char.ofNat 12)
  | 'n' => some '\n'
  | 'r' => some '\r'
  | 't' => some '\t'
  | _ => none

/-! ## The reader -/

/-- A container that is still open, with what it holds so far, the last first. -/
inductive Frame where
  | arr (items : List Written)
  | obj (members : List (Option String × Written))
  /-- An object whose member of this key is being read. -/
  | member (members : List (Option String × Written)) (key : Option String)

/-- What the reader expects next. -/
inductive Mode where
  /-- A value, or the end of the array if it is still empty. -/
  | value (orEnd : Bool)
  /-- A key, or the end of the object if it is still empty. -/
  | key (orEnd : Bool)
  | colon (key : Option String)
  /-- More of a word or number, the last character first. -/
  | bare (chars : List Char)
  /-- More of a string, which is a key or a value. -/
  | literal (l : Literal) (isKey : Bool)
  /-- A comma or the end of the container. -/
  | comma
  /-- The end of the text. -/
  | finished (value : Written)

/-- A reader in the middle of a text. -/
structure Reader where
  frames : List Frame
  mode : Mode

namespace Reader

/-- The reader before the first character. -/
def start : Reader := ⟨[], .value false⟩

/-- The reader after a complete value. -/
def complete (frames : List Frame) (v : Written) : Option Reader :=
  match frames with
  | [] => some ⟨[], .finished v⟩
  | .arr items :: rest => some ⟨.arr (v :: items) :: rest, .comma⟩
  | .member members key :: rest => some ⟨.obj ((key, v) :: members) :: rest, .comma⟩
  | .obj _ :: _ => none

/-- The value of a word or number. -/
def bareValue? (chars : List Char) : Option Written :=
  match chars with
  | ['n', 'u', 'l', 'l'] => some .null
  | ['t', 'r', 'u', 'e'] => some (.bool true)
  | ['f', 'a', 'l', 's', 'e'] => some (.bool false)
  | cs => (Number.ofChars? cs).map .num

/-- A character that words and numbers are made of. -/
def isBare (c : Char) : Bool := c.isAlphanum || c == '-' || c == '+' || c == '.'

/-- A character that may stand between the parts of a text. -/
def isSpace (c : Char) : Bool := c == ' ' || c == '\t' || c == '\n' || c == '\r'

/-- The reader after a character where a value may begin. -/
def beginValue (frames : List Frame) (orEnd : Bool) (c : Char) : Option Reader :=
  if isSpace c then some ⟨frames, .value orEnd⟩
  else if c = '"' then some ⟨frames, .literal .start false⟩
  else if c = '[' then some ⟨.arr [] :: frames, .value true⟩
  else if c = '{' then some ⟨.obj [] :: frames, .key true⟩
  else if c = ']' ∧ orEnd then
    match frames with
    | .arr items :: rest => complete rest (.arr items.reverse)
    | _ => none
  else if isBare c then some ⟨frames, .bare [c]⟩
  else none

/-- The reader after a character where a key may begin. -/
def beginKey (frames : List Frame) (orEnd : Bool) (c : Char) : Option Reader :=
  if isSpace c then some ⟨frames, .key orEnd⟩
  else if c = '"' then some ⟨frames, .literal .start true⟩
  else if c = '}' ∧ orEnd then
    match frames with
    | .obj members :: rest => complete rest (.obj members.reverse)
    | _ => none
  else none

/-- The reader after a character that follows a complete value inside a container. -/
def continueContainer (frames : List Frame) (c : Char) : Option Reader :=
  if isSpace c then some ⟨frames, .comma⟩
  else
    match frames with
    | .arr items :: rest =>
      if c = ',' then some ⟨frames, .value false⟩
      else if c = ']' then complete rest (.arr items.reverse)
      else none
    | .obj members :: rest =>
      if c = ',' then some ⟨frames, .key false⟩
      else if c = '}' then complete rest (.obj members.reverse)
      else none
    | _ => none

/-- The reader after a character inside a string literal. -/
def continueLiteral (frames : List Frame) (l : Literal) (isKey : Bool) (c : Char) : Option Reader :=
  match l.escape with
  | .none =>
    if c = '"' then
      if isKey then some ⟨frames, .colon l.finish⟩ else complete frames (.str l.finish)
    else if c = '\\' then some ⟨frames, .literal { l with escape := .started } isKey⟩
    else if c.toNat < 32 then none
    else some ⟨frames, .literal (l.push c) isKey⟩
  | .started =>
    if c = 'u' then some ⟨frames, .literal { l with escape := .hex 0 4 } isKey⟩
    else (shortEscape? c).map fun c => ⟨frames, .literal (l.push c) isKey⟩
  | .hex value missing =>
    (Number.hexValue? c).map fun digit =>
      let value := 16 * value + digit
      if missing ≤ 1 then ⟨frames, .literal (l.pushUnit value) isKey⟩
      else ⟨frames, .literal { l with escape := .hex value (missing - 1) } isKey⟩

/-- The reader after a character that may follow a complete value. -/
def afterValue (r : Reader) (c : Char) : Option Reader :=
  match r.mode with
  | .comma => continueContainer r.frames c
  | .finished v => if isSpace c then some ⟨r.frames, .finished v⟩ else none
  | _ => none

/-- The reader after one more character, or `none` if no text goes on like this. -/
def step (r : Reader) (c : Char) : Option Reader :=
  match r.mode with
  | .value orEnd => beginValue r.frames orEnd c
  | .key orEnd => beginKey r.frames orEnd c
  | .colon key =>
    if isSpace c then some r
    else if c = ':' then
      match r.frames with
      | .obj members :: rest => some ⟨.member members key :: rest, .value false⟩
      | _ => none
    else none
  | .bare cs =>
    if isBare c then some ⟨r.frames, .bare (c :: cs)⟩
    else do
      let v ← bareValue? cs.reverse
      let r ← complete r.frames v
      r.afterValue c
  | .literal l isKey => continueLiteral r.frames l isKey c
  | .comma | .finished _ => r.afterValue c

/-- The reader after a text. -/
def run (r : Reader) : List Char → Option Reader
  | [] => some r
  | c :: cs =>
    match r.step c with
    | none => none
    | some r => run r cs

/-- What has been read at the end of the text. -/
def finish (r : Reader) : Option Written :=
  match r.mode, r.frames with
  | .finished v, _ => some v
  | .bare cs, [] => bareValue? cs.reverse
  | _, _ => none

end Reader

/-- The value that a text writes, or `none` if the text is not JSON. -/
def written? (text : String) : Option Written := do
  let r ← Reader.start.run text.toList
  r.finish

/-- The value of a JSON text. -/
def parse? (text : String) : Option Json := do
  let w ← written? text
  w.document?

/-- The value of a JSON text in UTF-8. -/
def parseBytes? (bytes : ByteArray) : Option Json := do
  let text ← String.fromUTF8? bytes
  parse? text

end ResourceTree.Json
