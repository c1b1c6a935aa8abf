import ResourceTree.Api.Node
import ResourceTree.Client.Basic
import ResourceTree.Client.Command
import ResourceTree.Resource.Record

/-! # The clients of a tree

For every API of a tree with resources of its own there is a client that knows nothing of the kind of the
resources. `ClientMap` holds them by name, and commands are run through it. A client for the API's own kind is
found by following names down the tree. -/

namespace ResourceTree

/-- A client for every API of a tree, by the API's name. -/
structure ClientMap where
  clients : List (String × Client Record)

namespace ClientMap

variable {R W : Type}

/-- The client of a name. -/
def get? (m : ClientMap) (name : String) : Option (Client Record) := m.clients.lookup name

/-- The names in their order. -/
def names (m : ClientMap) : List String := (m.clients.map Prod.fst).mergeSort

/-- The clients with one more, whose name must be new. -/
def add (m : ClientMap) (name : String) (c : Client Record) : Except ClientError ClientMap :=
  match m.get? name with
  | some _ => .error (.duplicateName name)
  | none => .ok ⟨m.clients ++ [(name, c)]⟩

mutual

/-- The clients with those of a node and of all nodes below it. -/
def collect (address : String) (parent : RoutePath) (m : ClientMap) :
    Node R → Except ClientError ClientMap
  | .mk frame service children => do
    let path := parent.child frame.name frame.base service.isSome
    let m ←
      match service with
      | some s => m.add frame.name (.forPath address path Record.schemaless s.codes)
      | none => pure m
    collectAll address path m children

/-- The clients with those of siblings, in order. -/
def collectAll (address : String) (parent : RoutePath) (m : ClientMap) :
    List (Node R) → Except ClientError ClientMap
  | [] => .ok m
  | n :: ns => do
    let m ← collect address parent m n
    collectAll address parent m ns

end

/-- The clients of a tree that is served at an address. -/
def ofNode (address : String) (n : Node R) : Except ClientError ClientMap :=
  collect address .root ⟨[]⟩ n

/-! ## Running commands -/

/-- The pair of a list argument, which is cut at its first `=`. -/
def queryPair (arg : String) : Except ClientError (String × String) :=
  match Text.cut '=' arg with
  | (key, some value) => .ok (key, value)
  | (_, none) => .error (.invalidCommand ("query argument '" ++ arg ++ "' is not key=value"))

/-- The resource of a body argument. -/
def bodyOf (arg : String) : Except ClientError Record :=
  match Record.schemaless.decodeText arg with
  | .ok r => .ok r
  | .error reason => .error (.invalidCommand ("invalid JSON body: " ++ reason))

/-- Runs a command with a client. -/
def runWith (client : Client Record) (net : Network W) (c : Command) : Exchange W Json :=
  match c.verb with
  | .get => do
    let id ← Exchange.lift (c.arg 0 "id")
    let r ← client.get net c.parents id
    return client.kind.value r
  | .list => do
    let pairs ← Exchange.lift (c.args.mapM queryPair)
    let rs ← client.list net c.parents pairs
    return .obj [("items", .arr (rs.map client.kind.value))]
  | .post => do
    let arg ← Exchange.lift (c.arg 0 "body")
    let body ← Exchange.lift (bodyOf arg)
    let r ← client.post net c.parents body
    return client.kind.value r
  | .put => do
    let arg ← Exchange.lift (c.arg 1 "body")
    let body ← Exchange.lift (bodyOf arg)
    let id ← Exchange.lift (c.arg 0 "id")
    let r ← client.put net c.parents id body
    return client.kind.value r
  | .patch => do
    let arg ← Exchange.lift (c.arg 1 "body")
    let body ← Exchange.lift (bodyOf arg)
    let id ← Exchange.lift (c.arg 0 "id")
    let r ← client.patch net c.parents id (client.kind.encode body)
    return client.kind.value r
  | .delete => do
    let id ← Exchange.lift (c.arg 0 "id")
    client.delete net c.parents id
    return .null

/-- Runs a command. -/
def run (m : ClientMap) (net : Network W) (c : Command) : Exchange W Json :=
  match m.get? c.resource with
  | some client => runWith client net c
  | none => Exchange.fail (.unknownResource c.resource)

end ClientMap

namespace Node

variable {R : Type}

/-- The client of the node for its own kind of resources, at the top of its tree. -/
def client? (n : Node R) (address : String) : Option (Client R) :=
  n.service.map fun s => .forPath address (n.pathBelow .root) s.kind s.codes

/-- The client for a kind of the API that a list of names leads to. -/
def nestedClient (n : Node R) (address kind : String) (names : List String) :
    Except ClientError (Client R) :=
  match n.follow (n.pathBelow .root) names with
  | .error name => .error (.unknownResource name)
  | .ok (target, path) =>
    match target.service with
    | some s =>
      if s.kind.name = kind then .ok (.forPath address path s.kind s.codes)
      else .error (.typeMismatch target.name)
    | none => .error (.typeMismatch target.name)

end Node

end ResourceTree
