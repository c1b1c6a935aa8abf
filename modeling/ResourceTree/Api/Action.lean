import ResourceTree.Error
import ResourceTree.Http.Status
import ResourceTree.Resource.Timestamp
import ResourceTree.Store

/-! # Actions

What happens while a request is answered, as a pure function. An action reads the supplies of the outside
(fresh IDs, the clock, which storage calls break down, how long a request may take) and changes a world: the
stores of all APIs of a tree, and the log of events. It ends with a value, with the error that is the answer,
or because its time is over; whatever it changed until then stays. -/

namespace ResourceTree

/-- A call on the store of an API. -/
inductive StoreCall where
  | get (id : String)
  | set (id : String)
  | delete (id : String)
  | list
  deriving DecidableEq, Repr

/-- An API of a tree, named by the names from the top of the tree down to it. -/
abbrev NodeKey := List String

/-- Something that happened while a request was answered. -/
inductive Event where
  /-- A call on the store of an API. -/
  | store (node : NodeKey) (call : StoreCall)
  /-- The bind hook of a resource. -/
  | bind (node : NodeKey)
  /-- The merge of a partial update. -/
  | patch (node : NodeKey)
  /-- The render hook of a resource. -/
  | render (node : NodeKey)
  /-- A resource was asked for its page. -/
  | page (node : NodeKey)
  /-- The filter of a list was made. -/
  | filter (node : NodeKey)
  /-- A resource was wrapped for the answer. -/
  | wrap (node : NodeKey) (id : String)
  /-- The resources of a list were wrapped for the answer. -/
  | wrapList (node : NodeKey) (count : Nat)
  /-- The render hook of a wrapped answer. -/
  | renderView (node : NodeKey)
  /-- A wrapped answer was asked for its page. -/
  | pageView (node : NodeKey)
  /-- The hook before a resource is stored. -/
  | save (node : NodeKey) (method : Method) (id : String)
  | beforeDelete (node : NodeKey) (id : String)
  | afterDelete (node : NodeKey) (id : String)
  /-- A guard was given the requested resource. -/
  | guard (node : NodeKey) (tag : String) (id : String)
  /-- A request entered a middleware. -/
  | enter (node : NodeKey) (tag : String)
  /-- An answer left a middleware. -/
  | leave (node : NodeKey) (tag : String) (status : Nat)
  /-- A handler of a custom route or in the place of a default one. -/
  | handler (node : NodeKey) (tag : String)
  deriving DecidableEq, Repr

/-- The supplies of the outside. -/
structure Env where
  /-- The generated IDs in the order of their use. -/
  freshId : Nat → String
  /-- What the clock shows at each look. -/
  now : Nat → Timestamp
  /-- The failure, if any, of a storage call, by the API and the number of calls before it. -/
  outage : NodeKey → Nat → StoreCall → Option StorageError
  /-- How many milliseconds a request may take. -/
  deadline : Option Nat

/-- Everything that a request can change. -/
structure World (R : Type) where
  stores : NodeKey → Store R
  idsUsed : Nat
  looksAtClock : Nat
  storeCalls : Nat
  /-- The milliseconds that the request has taken. -/
  elapsed : Nat
  /-- The events of the request, in order. -/
  log : List Event

namespace World

variable {R : Type}

/-- The world with nothing stored. -/
def initial : World R := ⟨fun _ => .empty, 0, 0, 0, 0, []⟩

instance : Inhabited (World R) := ⟨initial⟩

/-- The world at the beginning of another request. -/
def nextRequest (w : World R) : World R := { w with elapsed := 0, log := [] }

/-- The world with the store of one API changed. -/
def setStore (w : World R) (node : NodeKey) (s : Store R) : World R :=
  { w with stores := fun other => if other = node then s else w.stores other }

@[simp] theorem stores_setStore (w : World R) (node other : NodeKey) (s : Store R) :
    (w.setStore node s).stores other = if other = node then s else w.stores other := rfl

end World

/-- Why an action ends without a value. -/
inductive Failure where
  /-- This error is the answer. -/
  | api (e : ApiError)
  /-- The request took longer than it may. -/
  | expired
  deriving DecidableEq, Repr

/-- What happens while a request is answered. -/
def Action (R α : Type) := Env → World R → Except Failure α × World R

namespace Action

variable {R α β : Type}

/-- The action that does nothing. -/
protected def pure (a : α) : Action R α := fun _ w => (.ok a, w)

/-- One action after another; a failure ends both. -/
protected def bind (x : Action R α) (f : α → Action R β) : Action R β := fun env w =>
  match x env w with
  | (.ok a, w) => f a env w
  | (.error e, w) => (.error e, w)

instance : Monad (Action R) where
  pure := Action.pure
  bind := Action.bind

@[simp] theorem pure_apply (a : α) (env : Env) (w : World R) :
    (pure a : Action R α) env w = (.ok a, w) := rfl

theorem bind_apply (x : Action R α) (f : α → Action R β) (env : Env) (w : World R) :
    (x >>= f) env w =
      match x env w with
      | (.ok a, w) => f a env w
      | (.error e, w) => (.error e, w) := rfl

/-- The action that fails. -/
def fail (e : ApiError) : Action R α := fun _ w => (.error (.api e), w)

/-- The value of a computation, or its error as the failure. -/
def lift : Except ApiError α → Action R α
  | .ok a => pure a
  | .error e => fail e

/-- Adds an event to the log. -/
def emit (e : Event) : Action R Unit := fun _ w => (.ok (), { w with log := w.log ++ [e] })

/-- The next generated ID. -/
def freshId : Action R String := fun env w =>
  (.ok (env.freshId w.idsUsed), { w with idsUsed := w.idsUsed + 1 })

/-- The time now. -/
def now : Action R Timestamp := fun env w =>
  (.ok (env.now w.looksAtClock), { w with looksAtClock := w.looksAtClock + 1 })

/-- Waits; the request ends if its time is over before. -/
def sleep (ms : Nat) : Action R Unit := fun env w =>
  let w' := { w with elapsed := w.elapsed + ms }
  match env.deadline with
  | some limit => if limit < w'.elapsed then (.error .expired, w) else (.ok (), w')
  | none => (.ok (), w')

/-- The outcome of an action as a value; only the end of the time is still a failure. -/
def attempt (x : Action R α) : Action R (Except ApiError α) := fun env w =>
  match x env w with
  | (.ok a, w) => (.ok (.ok a), w)
  | (.error (.api e), w) => (.ok (.error e), w)
  | (.error .expired, w) => (.error .expired, w)

/-! ## Storage calls -/

/-- A call on the store of an API: it is logged, and may break down before it does anything. Otherwise it
gives a value and the store after it, or fails and changes nothing. -/
def call (node : NodeKey) (c : StoreCall) (f : Store R → Except StorageError (α × Store R)) :
    Action R (Except StorageError α) := fun env w =>
  let w' := { w with log := w.log ++ [.store node c], storeCalls := w.storeCalls + 1 }
  match env.outage node w.storeCalls c with
  | some e => (.ok (.error e), w')
  | none =>
    match f (w.stores node) with
    | .ok (a, s) => (.ok (.ok a), w'.setStore node s)
    | .error e => (.ok (.error e), w')

/-- Gets the resource under an ID. -/
def get (node : NodeKey) (id : String) : Action R (Except StorageError R) :=
  call node (.get id) fun s => (s.get id).map fun r => (r, s)

/-- Sets a resource under an ID. -/
def set (node : NodeKey) (id : String) (r : R) : Action R (Except StorageError Unit) :=
  call node (.set id) fun s => .ok ((), s.insert id r)

/-- Deletes an ID. -/
def delete (node : NodeKey) (id : String) : Action R (Except StorageError Unit) :=
  call node (.delete id) fun s => (s.delete id).map fun s => ((), s)

/-- Lists the resources that a predicate selects. -/
def list (node : NodeKey) (p : R → Bool) : Action R (Except StorageError (List R)) :=
  call node .list fun s => .ok (s.select p, s)

/-- The value of a storage call, or its error as the failure of the request. -/
def orFail (x : Action R (Except StorageError α)) : Action R α := do
  match ← x with
  | .ok a => pure a
  | .error e => fail (.ofStorage e)

end Action

end ResourceTree
