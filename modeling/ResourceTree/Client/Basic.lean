import ResourceTree.Client.Decode
import ResourceTree.Client.Exchange

/-! # Clients

A client speaks to one API of a tree. It renders the same path from which the routes of the API were made,
and expects the status codes with which the API answers. Its operations take the IDs of the ancestors,
outermost first. -/

namespace ResourceTree

/-- A client of an API. -/
structure Client (R : Type) where
  /-- The address of the server, without slashes at its end. -/
  address : String
  path : RoutePath
  kind : Kind R
  codes : ResponseCodes

namespace Client

variable {R W : Type}

/-- An address without slashes at its end. -/
def trimAddress (address : String) : String := String.ofList (Text.trimEnd (· == '/') address.toList)

/-- A client of the API at a path on the server at an address. -/
def forPath (address : String) (path : RoutePath) (kind : Kind R) (codes : ResponseCodes) : Client R :=
  ⟨trimAddress address, path, kind, codes⟩

/-- The client with other expected codes. -/
def withCodes (c : Client R) (codes : ResponseCodes) : Client R := { c with codes := codes }

/-- A client of an API at a base below a resource of this one. -/
def sub (c : Client R) (kind : Kind R) (base : String) : Client R :=
  let name := String.ofList (Text.trim (· == '/') base.toList)
  ⟨c.address, c.path.child name base true, kind, .standard⟩

/-- The URL of the collection, or of one resource. -/
def url (c : Client R) (parents : List String) (id : Option String) : Except ClientError String :=
  match c.path.render parents id with
  | .ok path => .ok (c.address ++ path)
  | .error e => .error (.path e)

/-! ## Operations -/

/-- Sends a body and reads the resource that is answered. -/
def sendBody (c : Client R) (net : Network W) (op : Operation) (parents : List String) (id : Option String)
    (body : Except String Json) : Exchange W R :=
  Exchange.during op do
    let url ← Exchange.lift <| c.url parents id
    let body ← Exchange.lift (body.mapError ClientError.encode)
    let call : Call := { method := op.method, address := url, body := some body }
    let answer ← Exchange.perform net call (c.codes.get op.method) c.kind.decodeText
    Exchange.lift (Exchange.required url answer)

/-- Creates a resource. -/
def post (c : Client R) (net : Network W) (parents : List String) (r : R) : Exchange W R :=
  c.sendBody net .create parents none (c.kind.encode r)

/-- Creates or replaces the resource under an ID. -/
def put (c : Client R) (net : Network W) (parents : List String) (id : String) (r : R) : Exchange W R :=
  c.sendBody net .replace parents (some id) (c.kind.encode r)

/-- Merges a partial update into the resource under an ID. -/
def patch (c : Client R) (net : Network W) (parents : List String) (id : String)
    (update : Except String Json) : Exchange W R :=
  c.sendBody net .merge parents (some id) update

/-- Fetches the resource under an ID. -/
def get (c : Client R) (net : Network W) (parents : List String) (id : String) : Exchange W R :=
  Exchange.during .fetch do
    let url ← Exchange.lift <| c.url parents (some id)
    let answer ← Exchange.perform net { method := .get, address := url } (c.codes.get .get) c.kind.decodeText
    Exchange.lift (Exchange.required url answer)

/-- Lists the resources, with pairs as the query. -/
def list (c : Client R) (net : Network W) (parents : List String) (pairs : List (String × String)) :
    Exchange W (List R) :=
  Exchange.during .list do
    let url ← Exchange.lift <| c.url parents none
    let call : Call := { method := .get, address := url, pairs := some pairs }
    let answer ← Exchange.perform net call (c.codes.get .get) c.kind.decodeList
    Exchange.lift (Exchange.required url answer)

/-- Deletes the resource under an ID. -/
def delete (c : Client R) (net : Network W) (parents : List String) (id : String) : Exchange W Unit :=
  Exchange.during .remove do
    let url ← Exchange.lift <| c.url parents (some id)
    let call : Call := { method := .delete, address := url }
    let _ ← Exchange.perform net call (c.codes.get .delete) Json.decodeText
    return ()

end Client

end ResourceTree
