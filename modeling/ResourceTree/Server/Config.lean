import ResourceTree.Error
import ResourceTree.Json.Basic
import ResourceTree.Number.Word
import ResourceTree.Server.Yaml
import ResourceTree.Text.Blank

/-! # The configuration of a server

Where a server listens, how long a shutdown waits for requests that are still being answered, and how long a
request may take. A configuration is the standard one, with what a settings document says over it, with what
variables of the environment say over that. -/

namespace ResourceTree

/-- The configuration of a server. -/
structure ServerConfig where
  address : String
  /-- Seconds that a shutdown waits for requests. -/
  grace : Nat
  /-- Seconds that a request may take. -/
  timeout : Option Nat
  deriving DecidableEq, Repr

namespace ServerConfig

/-- The configuration unless something else is said. -/
def standard : ServerConfig := ⟨"0.0.0.0:8080", 10, none⟩

instance : Inhabited ServerConfig := ⟨standard⟩

/-- The milliseconds that a shutdown waits for requests. -/
def graceMillis (c : ServerConfig) : Nat := c.grace * 1000

/-- The milliseconds that a request may take. -/
def timeoutMillis (c : ServerConfig) : Option Nat := c.timeout.map (· * 1000)

/-! ## Variables -/

/-- The variable that sets the address. -/
def addressVariable : String := "NESTAPI_ADDRESS"

/-- The variable that sets the seconds of grace. -/
def graceVariable : String := "NESTAPI_SHUTDOWN_GRACE_SECS"

/-- The variable that sets the seconds that a request may take. -/
def timeoutVariable : String := "NESTAPI_REQUEST_TIMEOUT_SECS"

/-- The number that a variable holds. Blanks around it do not count. -/
def readVariable (name value : String) : Except ConfigError Nat :=
  match Word.read? Number.maxWord (Text.trimmed value) with
  | some n => .ok n
  | none => .error (.invalidValue name value)

/-- The configuration with the values of variables over it. -/
def override (c : ServerConfig) (lookup : String → Option String) : Except ConfigError ServerConfig := do
  let c := { c with address := (lookup addressVariable).getD c.address }
  let c ←
    match lookup graceVariable with
    | some value => do
      let n ← readVariable graceVariable value
      pure { c with grace := n }
    | none => pure c
  match lookup timeoutVariable with
  | some value => do
    let n ← readVariable timeoutVariable value
    return { c with timeout := some n }
  | none => return c

/-! ## Documents -/

/-- The digits of a number to a base, all of them or none. -/
def digitsOfBase? (base : Nat) (cs : List Char) : Option Nat :=
  if cs.isEmpty then none
  else cs.foldlM (fun n c => (Number.hexValue? c).bind fun d => if d < base then some (base * n + d) else none) 0

/-- The number that a plain scalar writes: to base 16, 8 or 2 behind its mark, or decimal without a leading
zero; perhaps behind a plus sign. -/
def scalarNumber? (s : String) : Option Nat :=
  let unsigned :=
    match s.toList with
    | '+' :: cs => cs
    | cs => cs
  let n :=
    match unsigned with
    | '0' :: 'x' :: cs => digitsOfBase? 16 cs
    | '0' :: 'o' :: cs => digitsOfBase? 8 cs
    | '0' :: 'b' :: cs => digitsOfBase? 2 cs
    | '0' :: _ :: _ => none
    | cs => digitsOfBase? 10 cs
  n.filter (· ≤ Number.maxWord)

/-- Whether a plain scalar stands for nothing. -/
def isNothing (s : String) : Bool := ["", "~", "null", "Null", "NULL"].contains s

/-- The number that a node is. -/
def numberOf? : Yaml.Node → Option Nat
  | .scalar s true => scalarNumber? s
  | _ => none

/-- The number that a node is, unless it stands for nothing. -/
def optionalNumberOf? : Yaml.Node → Option (Option Nat)
  | .scalar s true => if isNothing s then some none else (scalarNumber? s).map some
  | _ => none

/-- The text that a node is. -/
def textOf? : Yaml.Node → Option String
  | .scalar s _ => some s
  | _ => none

/-- The configuration with one entry of a document over it. Entries of other names do not matter. -/
def setEntry (c : ServerConfig) (key : String) (value : Yaml.Node) : Option ServerConfig :=
  match key with
  | "address" => (textOf? value).map fun s => { c with address := s }
  | "shutdown_grace_period_secs" => (numberOf? value).map fun n => { c with grace := n }
  | "request_timeout_secs" => (optionalNumberOf? value).map fun n => { c with timeout := n }
  | _ => some c

/-- The names of the entries that matter. -/
def entryNames : List String := ["address", "shutdown_grace_period_secs", "request_timeout_secs"]

/-- The configuration with the entries of a document over it, none of which may be repeated. -/
def ofEntries? (c : ServerConfig) (seen : List String) : List (Yaml.Node × Yaml.Node) → Option ServerConfig
  | [] => some c
  | (key, value) :: entries => do
    let key ← textOf? key
    if seen.contains key then none
    let c ← setEntry c key value
    ofEntries? c (if entryNames.contains key then key :: seen else seen) entries

/-- What is wrong with a document that does not hold a configuration. -/
def malformed : String := "malformed settings document"

/-- The configuration of a document. -/
def ofDocument (text : String) : Except ConfigError ServerConfig :=
  match (Yaml.entries? text).bind (ofEntries? standard []) with
  | some c => .ok c
  | none => .error (.malformed malformed)

/-- What is wrong with a file that cannot be read. -/
def missingFile : String := "no such file"

/-- The configuration of a file with this content, if it can be read. -/
def ofFile (content : Option String) : Except ConfigError ServerConfig :=
  match content with
  | some text => ofDocument text
  | none => .error (.unreadable missingFile)

/-- The configuration as a value: its settings by name, the timeout only if there is one. -/
def toJson (c : ServerConfig) : Json :=
  .obj <| [("address", .str c.address), ("shutdown_grace_period_secs", .nat c.grace)]
    ++ (c.timeout.map fun n => ("request_timeout_secs", Json.nat n)).toList

end ServerConfig

end ResourceTree
