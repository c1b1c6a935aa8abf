import ResourceTree.Client.Error

/-! # Commands

A command applies a verb to a resource by name. `Command.ofWords` reads one from the words of a command line:
the verb, the name and the arguments, with the options `--parent` anywhere between them; everything after the
word `--` is taken as it is. The words are read from left to right, and the first that does not fit decides
what is wrong. -/

namespace ResourceTree

/-! ## Verbs -/

/-- What a command does. -/
inductive Verb where
  | get
  | list
  | post
  | put
  | patch
  | delete
  deriving DecidableEq, Repr

namespace Verb

/-- All verbs, in the order in which messages list them. -/
def all : List Verb := [.get, .list, .post, .put, .patch, .delete]

/-- The word for a verb. -/
def word : Verb → String
  | .get => "get"
  | .list => "list"
  | .post => "post"
  | .put => "put"
  | .patch => "patch"
  | .delete => "delete"

/-- A word with its ASCII letters in lower case. -/
def folded (s : String) : String := String.ofList (s.toList.map Char.toLower)

/-- The verb of a word, in any case of its ASCII letters. -/
def ofWord? (s : String) : Option Verb := all.find? fun v => v.word == folded s

/-- A word in lower case has the verb that it is the word for. -/
@[simp] theorem ofWord?_word (v : Verb) : ofWord? v.word = some v := by cases v <;> decide

/-- The verb of a word, or the error that it has none. -/
def parse (s : String) : Except ClientError Verb :=
  match ofWord? s with
  | some v => .ok v
  | none => .error (.invalidCommand ("unknown verb '" ++ s ++ "'"))

end Verb

/-! ## Commands -/

/-- A verb applied to a resource. -/
structure Command where
  verb : Verb
  resource : String
  /-- The IDs of the ancestors, outermost first. -/
  parents : List String
  args : List String
  deriving DecidableEq, Repr

/-- An argument of a command, or the error that it is missing. -/
def Command.arg (c : Command) (index : Nat) (what : String) : Except ClientError String :=
  match c.args[index]? with
  | some s => .ok s
  | none => .error (.invalidCommand ("'" ++ c.verb.word ++ "' needs a " ++ what ++ " argument"))

/-! ## Command lines -/

/-- What is wrong with a command line. -/
inductive LineError where
  /-- An option that is not known. -/
  | unexpected (option : String)
  /-- An option without its value. -/
  | missingParent
  /-- The verb is the empty word. -/
  | emptyVerb
  | invalidVerb (word : String)
  /-- The words end too early; the names of what is missing. -/
  | missing (names : List String)
  deriving DecidableEq, Repr

namespace LineError

/-- The line that lists the verbs. -/
def possibleVerbs : String :=
  "\n  [possible values: " ++ String.intercalate ", " (Verb.all.map Verb.word) ++ "]"

/-- The text of an error. -/
def message : LineError → String
  | unexpected option => "error: unexpected argument '" ++ option ++ "' found"
  | missingParent => "error: a value is required for '--parent <ID>' but none was supplied"
  | emptyVerb => "error: a value is required for '<VERB>' but none was supplied" ++ possibleVerbs
  | invalidVerb word => "error: invalid value '" ++ word ++ "' for '<VERB>'" ++ possibleVerbs
  | missing names =>
    "error: the following required arguments were not provided:"
      ++ String.join (names.map fun name => "\n  " ++ name)

end LineError

/-- A word of a command line before a lone `--`. -/
inductive LineWord where
  /-- The word `--`. -/
  | separator
  /-- An option with two dashes, and the value behind its `=`. -/
  | long (name : String) (value : Option String)
  /-- An option with one dash. -/
  | short (letter : Char)
  | plain

/-- What a word is. -/
def LineWord.of (word : String) : LineWord :=
  match word.toList with
  | ['-', '-'] => .separator
  | '-' :: '-' :: cs =>
    let (name, value) := Text.cutAt '=' cs
    .long (String.ofList name) (value.map String.ofList)
  | '-' :: c :: _ => .short c
  | _ => .plain

/-- A command line part of which has been read. -/
structure LineReader where
  /-- The words that belong to no option. -/
  words : List String := []
  parents : List String := []
  /-- Whether the last word was an option that needs a value. -/
  waiting : Bool := false
  /-- Whether the rest is taken as it is. -/
  literal : Bool := false
  deriving DecidableEq, Repr

namespace LineReader

/-- The verb of a word. -/
def verbOf (word : String) : Except LineError Verb :=
  if word.isEmpty then .error .emptyVerb
  else
    match Verb.ofWord? word with
    | some v => .ok v
    | none => .error (.invalidVerb word)

/-- Checks what was left open: an option must have its value, and a first word alone must be a verb. -/
def settle (r : LineReader) : Except LineError Unit :=
  if r.waiting then .error .missingParent
  else
    match r.words with
    | [verb] => (verbOf verb).map fun _ => ()
    | _ => .ok ()

/-- The reader after a word that belongs to no option. -/
def push (r : LineReader) (word : String) : Except LineError LineReader := do
  r.settle
  return { r with words := r.words ++ [word] }

/-- The reader after one more word. -/
def step (r : LineReader) (word : String) : Except LineError LineReader :=
  if r.literal then r.push word
  else
    match LineWord.of word with
    | .separator => .ok { r with literal := true }
    | .long "parent" value => do
      r.settle
      match value with
      | some id => return { r with parents := r.parents ++ [id] }
      | none => return { r with waiting := true }
    | .long name _ => .error (.unexpected ("--" ++ name))
    | .short c => .error (.unexpected (String.ofList ['-', c]))
    | .plain =>
      if r.waiting then .ok { r with parents := r.parents ++ [word], waiting := false } else r.push word

/-- The command at the end of the words. -/
def finish (r : LineReader) : Except LineError Command := do
  r.settle
  match r.words with
  | verb :: resource :: args =>
    let verb ← verbOf verb
    return ⟨verb, resource, r.parents, args⟩
  | [_] => .error (.missing ["<RESOURCE>"])
  | [] => .error (.missing ["<VERB>", "<RESOURCE>"])

end LineReader

/-- The command of the words of a command line. -/
def Command.ofWords (words : List String) : Except ClientError Command :=
  match words.foldlM LineReader.step {} >>= LineReader.finish with
  | .ok c => .ok c
  | .error e => .error (.invalidCommand e.message)

end ResourceTree
