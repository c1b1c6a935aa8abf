import ResourceTree.Number.Word
import ResourceTree.Text.Split
import ResourceTree.Url.Form

/-! # URLs

The absolute URLs under which a client reaches a server, read as browsers read them: blanks around the text and
line ends in it do not count, letters of the scheme and the host are lower-cased, a host that looks like a
number is an IPv4 address, a port that the scheme implies is left out, dot segments are resolved, and characters
that may not stand in a URL are percent-encoded. User names and passwords are dropped; hosts are ASCII. -/

namespace ResourceTree

/-- An absolute URL with a host. -/
structure Url where
  scheme : String
  host : String
  /-- The port, unless it is the one that the scheme implies. -/
  port : Option Nat
  /-- The path, which begins with a slash. -/
  path : String
  query : Option String
  fragment : Option String
  deriving DecidableEq, Repr

namespace Url

/-- The scheme, host and port as they stand in a URL. -/
def origin (u : Url) : String :=
  u.scheme ++ "://" ++ u.host ++ ((u.port.map fun n => ":" ++ Nat.repr n).getD "")

/-- The path and query. -/
def target (u : Url) : String := u.path ++ ((u.query.map fun q => "?" ++ q).getD "")

/-- The URL as a text. -/
def text (u : Url) : String := u.origin ++ u.target ++ ((u.fragment.map fun f => "#" ++ f).getD "")

/-- The URL with more pairs in its query. A query without any pairs is left out. -/
def withPairs (u : Url) (pairs : List (String × String)) : Url :=
  let more := Form.encode pairs
  let query :=
    match u.query.getD "", more with
    | "", more => more
    | query, "" => query
    | query, more => query ++ "&" ++ more
  { u with query := if query = "" then none else some query }

/-! ## Schemes -/

/-- The schemes whose URLs always have a host, with the ports that they imply. -/
def hostSchemes : List (String × Nat) := [("http", 80), ("https", 443), ("ws", 80), ("wss", 443), ("ftp", 21)]

/-- Whether requests can be sent to a URL. -/
def isWeb (u : Url) : Bool := u.scheme == "http" || u.scheme == "https"

/-- Text in lower case. -/
def lower (cs : List Char) : List Char := cs.map Char.toLower

/-- The scheme of a text and what follows its colon. -/
def scheme? (cs : List Char) : Option (List Char × List Char) :=
  let isPart (c : Char) : Bool := c.isAlphanum || c == '+' || c == '-' || c == '.'
  match cs.dropWhile isPart with
  | ':' :: rest =>
    let scheme := cs.takeWhile isPart
    if (scheme.head?.map Char.isAlpha).getD false then some (lower scheme, rest) else none
  | _ => none

/-! ## Hosts -/

/-- The digits of a number to a base; no digits are zero. -/
def digitsOfBase? (base : Nat) (cs : List Char) : Option Nat :=
  cs.foldlM (fun n c => (Number.hexValue? c).bind fun d => if d < base then some (base * n + d) else none) 0

/-- A part of an IPv4 address: hexadecimal behind `0x`, octal behind `0`, or else decimal. -/
def addressPart? : List Char → Option Nat
  | [] => none
  | '0' :: 'x' :: cs => digitsOfBase? 16 cs
  | '0' :: c :: cs => digitsOfBase? 8 (c :: cs)
  | cs => digitsOfBase? 10 cs

/-- The parts of a host between its dots, a dot at its end left out. -/
def labels (host : List Char) : List (List Char) :=
  match (Text.splitOn '.' host).reverse with
  | [] :: label :: rest => (label :: rest).reverse
  | all => all.reverse

/-- Whether a host must be read as an IPv4 address. -/
def looksNumeric (host : List Char) : Bool :=
  match (labels host).getLast? with
  | none | some [] => false
  | some label =>
    label.all Char.isDigit
      || match label with
        | '0' :: 'x' :: cs => cs.all fun c => (Number.hexValue? c).isSome
        | _ => false

/-- An IPv4 address from its parts: all but the last are bytes, and the last fills the rest. -/
def address? (parts : List Nat) : Option (List Nat) :=
  match parts.reverse with
  | [] => none
  | last :: front =>
    if 4 < parts.length ∨ front.any (255 < ·) ∨ Nat.pow 256 (5 - parts.length) ≤ last then none
    else
      let filled := (List.range (5 - parts.length)).reverse.map fun i => last / Nat.pow 256 i % 256
      some (front.reverse ++ filled)

/-- Whether a character may stand in the name of a host. -/
def isHostChar (c : Char) : Bool :=
  32 < c.toNat && c.toNat < 127 && !("#/:<>?@[\\]^|%".toList.contains c)

/-- A host as it stands in a URL. -/
def host? (cs : List Char) : Option String :=
  match cs with
  | '[' :: rest =>
    match rest.reverse with
    | ']' :: inside =>
      if !inside.isEmpty && inside.all fun c => (Number.hexValue? c).isSome || c == ':' || c == '.' then
        some (String.ofList (lower cs))
      else none
    | _ => none
  | cs =>
    let host := lower (Text.decodeUtf8 (Percent.decodeBytes (String.ofList cs).toUTF8.toList)).toList
    if host.isEmpty || !host.all isHostChar then none
    else if looksNumeric host then do
      let parts ← (labels host).mapM addressPart?
      let bytes ← address? parts
      return String.intercalate "." (bytes.map Nat.repr)
    else some (String.ofList host)

/-- A host and perhaps a port. -/
def hostAndPort? (scheme : String) (cs : List Char) : Option (String × Option Nat) := do
  let (host, rest) :=
    match cs with
    | '[' :: _ => (cs.takeWhile (· != ']') ++ (cs.dropWhile (· != ']')).take 1, (cs.dropWhile (· != ']')).drop 1)
    | cs => (cs.takeWhile (· != ':'), cs.dropWhile (· != ':'))
  let host ← host? host
  match rest with
  | [] | [':'] => return (host, none)
  | ':' :: digits =>
    if !digits.all Char.isDigit then none
    let port ← Word.read? 65535 (String.ofList digits)
    return (host, if hostSchemes.lookup scheme = some port then none else some port)
  | _ => none

/-! ## Paths -/

/-- A byte that stands for itself in every part of a URL. -/
def isVisible (b : UInt8) : Bool := 0x20 < b && b < 0x7F && b != 0x22 && b != 0x3C && b != 0x3E

/-- A byte that stands for itself in a path. -/
def inPath (b : UInt8) : Bool :=
  isVisible b && b != 0x23 && b != 0x3F && b != 0x60 && b != 0x7B && b != 0x7D

/-- A byte that stands for itself in a query. -/
def inQuery (b : UInt8) : Bool := isVisible b && b != 0x23 && b != 0x27

/-- A byte that stands for itself in a fragment. -/
def inFragment (b : UInt8) : Bool := isVisible b && b != 0x60

/-- A text with the bytes of all other characters percent-encoded. -/
def encodePart (keep : UInt8 → Bool) (cs : List Char) : String :=
  String.ofList (Percent.encodeBytes keep (String.ofList cs).toUTF8.toList)

/-- A segment with the codes of dots replaced by dots. -/
def plainDots : List Char → List Char
  | '%' :: '2' :: c :: cs => if c = 'e' ∨ c = 'E' then '.' :: plainDots cs else '%' :: '2' :: plainDots (c :: cs)
  | c :: cs => c :: plainDots cs
  | [] => []

/-- A segment that stands for the segments before it. -/
def isSingleDot (segment : List Char) : Bool := plainDots segment == ['.']

/-- A segment that takes away the one before it. -/
def isDoubleDot (segment : List Char) : Bool := plainDots segment == ['.', '.']

/-- The segments of a path with its dot segments resolved. `before` holds the ones before, the last one
first. -/
def resolve (before : List (List Char)) : List (List Char) → List (List Char)
  | [] => before.reverse
  | [last] =>
    if isDoubleDot last then (([] : List Char) :: before.tail).reverse
    else if isSingleDot last then (([] : List Char) :: before).reverse
    else (last :: before).reverse
  | segment :: segments =>
    if isDoubleDot segment then resolve before.tail segments
    else if isSingleDot segment then resolve before segments
    else resolve (segment :: before) segments

/-- Segments that are no dot segments stay as they are. -/
theorem resolve_eq_self {before segments : List (List Char)}
    (h : ∀ s ∈ segments, isSingleDot s = false ∧ isDoubleDot s = false) :
    resolve before segments = before.reverse ++ segments := by
  fun_induction resolve before segments with
  | case1 => simp
  | case2 _ last hd => simp [(h last (by simp)).2] at hd
  | case3 _ last _ hs => simp [(h last (by simp)).1] at hs
  | case4 => simp
  | case5 _ s _ _ hd _ => simp [(h s (by simp)).2] at hd
  | case6 _ s _ _ _ hs _ => simp [(h s (by simp)).1] at hs
  | case7 before s segments _ _ _ ih =>
    rw [ih fun t ht => h t (List.mem_cons_of_mem _ ht)]
    simp

/-- A path as it stands in a URL, from what is written behind the host. -/
def pathOf (cs : List Char) : String :=
  let segments := Text.splitOn '/' (if cs.head? = some '/' then cs.tail else cs)
  encodePart inPath ('/' :: Text.joinWith '/' (resolve [] segments))

/-! ## Reading -/

/-- Whether a character does not count in a URL. -/
def isIgnored (c : Char) : Bool := c == '\t' || c == '\n' || c == '\r'

/-- What follows the scheme of a URL, read to its end. -/
def afterScheme? (scheme : String) (cs : List Char) : Option Url := do
  let special := (hostSchemes.lookup scheme).isSome
  let cs ←
    if special then some (cs.dropWhile fun c => c == '/' || c == '\\')
    else
      match cs with
      | '/' :: '/' :: cs => some cs
      | _ => none
  let (cs, fragment) := Text.cutAt '#' cs
  let (cs, query) := Text.cutAt '?' cs
  let cs := if special then cs.map fun c => if c = '\\' then '/' else c else cs
  let authority := cs.takeWhile (· != '/')
  let located := ((Text.splitOn '@' authority).getLast?).getD []
  let (host, port) ← hostAndPort? scheme located
  return {
    scheme := scheme
    host := host
    port := port
    path := pathOf (cs.dropWhile (· != '/'))
    query := query.map (encodePart inQuery)
    fragment := fragment.map (encodePart inFragment) }

/-- The URL that a text writes, if it is an absolute one with a host. -/
def parse? (s : String) : Option Url := do
  let cs := (Text.trim (fun c => c.toNat ≤ 32) s.toList).filter fun c => !isIgnored c
  let (scheme, rest) ← scheme? cs
  afterScheme? (String.ofList scheme) rest

end Url

end ResourceTree
