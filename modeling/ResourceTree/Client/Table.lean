import ResourceTree.Client.Map
import ResourceTree.Regex.Parser

/-! # Table tests

A table test runs cases one after another against the clients of a tree. Each case runs a command and says what
must come of it. The data of the cases that passed is remembered by their names, so that a later case can make
its command from it. -/

namespace ResourceTree

/-! ## Cases -/

/-- What must come of a case. What is not set does not matter; without an error the command must succeed. -/
structure Expectation where
  /-- The status of the answer because of which the command fails, which only counts beside an error. -/
  status : Option Nat := none
  /-- All of the data. -/
  body : Option Json := none
  /-- A pattern that is found in the compact text of the data. -/
  pattern : Option String := none
  /-- The text of the error with which the command fails. -/
  error : Option String := none
  /-- Whether there must be no data. -/
  noBody : Bool := false

/-- The data of the cases that passed, by their names. -/
structure Responses where
  data : Fields Json

namespace Responses

/-- No data at all. -/
def empty : Responses := ⟨[]⟩

/-- The data of a case. -/
def get? (r : Responses) (name : String) : Option Json := r.data.get? name

/-- The data with that of a case remembered. -/
def remember (r : Responses) (name : String) (value : Json) : Responses := ⟨r.data.put name value⟩

/-- The ID in the data of a case. -/
def id? (r : Responses) (name : String) : Option String := do
  let value ← r.get? name
  let id ← value.get? "id"
  id.text?

end Responses

/-- A case of a table test. -/
structure Case where
  name : String
  /-- The command, made from what is remembered. -/
  command : Responses → Command
  expected : Expectation := {}
  /-- A check of the data, whose error says what is wrong. -/
  check : Option (Json → Except String Unit) := none

/-- A word of a command that may be made from what is remembered. -/
inductive WordTemplate where
  | fixed (word : String)
  /-- The ID in the data of a case, or the empty word. -/
  | idOf (name : String)
  deriving DecidableEq, Repr

/-- The word that a template makes. -/
def WordTemplate.fill (r : Responses) : WordTemplate → String
  | .fixed word => word
  | .idOf name => (r.id? name).getD ""

/-- The command that templates of its words make. -/
def Command.ofTemplates (verb : Verb) (resource : String) (parents args : List WordTemplate)
    (r : Responses) : Command :=
  ⟨verb, resource, parents.map (WordTemplate.fill r), args.map (WordTemplate.fill r)⟩

/-- The check that a field has a value. -/
def Case.fieldIs (field : String) (value : Json) (data : Json) : Except String Unit :=
  let actual := data.getD field
  if actual.same value then .ok () else .error ("field " ++ field ++ " is " ++ actual.text)

/-! ## What is wrong with a case -/

/-- How the outcome of a case differs from what was expected. -/
inductive CaseProblem where
  | failed (cause : ClientError)
  | succeeded (expected : String)
  | wrongError (expected actual : String)
  | wrongStatus (expected : Nat) (actual : Option Nat)
  | wrongBody (wanted actual : String)
  /-- The pattern is no regular expression. -/
  | pattern (reason : String)
  | assertion (message : String)
  deriving DecidableEq, Repr

/-- A case whose outcome differs from what was expected. -/
structure CaseError where
  case : String
  problem : CaseProblem
  deriving DecidableEq, Repr

/-- A status that may be missing. -/
def statusOption : Option Nat → String
  | some status => "Some(" ++ Nat.repr status ++ ")"
  | none => "None"

/-- The text of a problem. -/
def CaseProblem.message : CaseProblem → String
  | .failed cause => "command failed: " ++ cause.message
  | .succeeded expected => "expected error '" ++ expected ++ "', but the command succeeded"
  | .wrongError expected actual => "expected error '" ++ expected ++ "', got '" ++ actual ++ "'"
  | .wrongStatus expected actual =>
    "expected status " ++ statusLine expected ++ ", got " ++ statusOption actual
  | .wrongBody wanted actual => "expected body " ++ wanted ++ ", got " ++ actual
  | .pattern reason => "invalid body pattern: " ++ reason
  | .assertion message => message

/-- The text of an error. -/
def CaseError.message (e : CaseError) : String := e.case ++ ": " ++ e.problem.message

/-! ## Judging a case -/

/-- A language of patterns: a text that is one of its patterns is found in some texts. -/
abbrev PatternLanguage := String → Option (String → Bool)

/-- The language of regular expressions. -/
def Regex.language : PatternLanguage := fun pattern => (Regex.parse? pattern).map Regex.matches?

/-- What is wrong with a text that is no regular expression. -/
def malformedPattern : String := "malformed regular expression"

namespace Expectation

/-- Checks that there is no data if there must be none. -/
def checkNoBody (e : Expectation) (value : Json) : Except CaseProblem Unit :=
  if e.noBody && !value.isNull then .error (.wrongBody "no body" value.text) else .ok ()

/-- Checks the text of the data against the pattern. -/
def checkPattern (patterns : PatternLanguage) (e : Expectation) (value : Json) : Except CaseProblem Unit :=
  match e.pattern with
  | some pattern =>
    match patterns pattern with
    | some isFoundIn =>
      if isFoundIn value.text then .ok ()
      else .error (.wrongBody ("matching /" ++ pattern ++ "/") value.text)
    | none => .error (.pattern malformedPattern)
  | none => .ok ()

/-- Checks all of the data. -/
def checkWhole (e : Expectation) (value : Json) : Except CaseProblem Unit :=
  match e.body with
  | some body => if body.same value then .ok () else .error (.wrongBody body.text value.text)
  | none => .ok ()

/-- Checks the data of a command that succeeded. -/
def checkBody (patterns : PatternLanguage) (e : Expectation) (value : Json) : Except CaseProblem Unit := do
  e.checkNoBody value
  e.checkPattern patterns value
  e.checkWhole value

/-- Checks the error of a command that was to fail. -/
def checkError (e : Expectation) (text : String) (error : ClientError) : Except CaseProblem Unit :=
  if error.message ≠ text then .error (.wrongError text error.message)
  else
    match e.status with
    | some status => if error.status = some status then .ok () else .error (.wrongStatus status error.status)
    | none => .ok ()

end Expectation

namespace Case

/-- The data of a case with this outcome, `null` if it was to fail; or what is wrong. -/
def judge (patterns : PatternLanguage) (c : Case) (outcome : Except ClientError Json) :
    Except CaseProblem Json :=
  match outcome, c.expected.error with
  | .ok value, none => do
    c.expected.checkBody patterns value
    match c.check with
    | some check =>
      match check value with
      | .ok () => return value
      | .error message => throw (.assertion message)
    | none => return value
  | .error cause, none => .error (.failed cause)
  | .ok _, some text => .error (.succeeded text)
  | .error e, some text => (c.expected.checkError text e).map fun _ => .null

end Case

/-! ## Running cases -/

/-- The clients of a tree and what is remembered of the cases so far. -/
structure TableTest where
  clients : ClientMap
  responses : Responses := .empty
  /-- What the patterns of the cases are read as. -/
  patterns : PatternLanguage := Regex.language

namespace TableTest

variable {W : Type}

/-- Runs a case. Its data is remembered if it passes and was to succeed. -/
def run (t : TableTest) (net : Network W) (c : Case) (w : W) : Except CaseError Json × TableTest × W :=
  let (outcome, w) := t.clients.run net (c.command t.responses) w
  match c.judge t.patterns outcome with
  | .error problem => (.error ⟨c.name, problem⟩, t, w)
  | .ok value =>
    if c.expected.error.isSome then (.ok value, t, w)
    else (.ok value, { t with responses := t.responses.remember c.name value }, w)

/-- Runs cases one after another up to the first that does not pass. -/
def runAll (t : TableTest) (net : Network W) : List Case → W → Except CaseError Unit × TableTest × W
  | [], w => (.ok (), t, w)
  | c :: cs, w =>
    match t.run net c w with
    | (.error e, t, w) => (.error e, t, w)
    | (.ok _, t, w) => runAll t net cs w

end TableTest

end ResourceTree
