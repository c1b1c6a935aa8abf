import ResourceTree.Client.Error
import ResourceTree.Url.Basic

/-! # Exchanges

A client sends a request over a network and reads the answer. A network is what happens to a request that is
sent to a URL: it may change the world, and it is answered or nobody answers. -/

namespace ResourceTree

/-- What happens to a request that is sent to a URL. -/
abbrev Network (W : Type) := Url → Request → W → Option Response × W

/-- Something that a client does, which changes the world and may fail. -/
def Exchange (W α : Type) := W → Except ClientError α × W

/-- What a client reads of an answer. -/
structure Received where
  status : Nat
  contentType : Option String
  body : String
  deriving DecidableEq, Repr

namespace Received

/-- Whether an answer to a method with a status may have a body. -/
def mayHaveBody (m : Method) (status : Nat) : Bool :=
  m != .head && 200 ≤ status && status != 204 && status != 304

/-- What arrives of an answer. -/
def ofResponse (m : Method) (r : Response) : Received where
  status := r.status
  contentType := r.header? "content-type"
  body := if mayHaveBody m r.status then r.body.received else ""

end Received

/-- A request that a client wants to send. -/
structure Call where
  method : Method
  /-- Where the request goes, as it is written. -/
  address : String
  /-- The pairs to add to the query, if any are to be added. -/
  pairs : Option (List (String × String)) := none
  /-- The JSON text of the body. -/
  body : Option Json := none

namespace Call

/-- The URL of a call, if its address is one. -/
def url? (c : Call) : Option Url :=
  (Url.parse? c.address).map fun u =>
    match c.pairs with
    | some pairs => u.withPairs pairs
    | none => u

/-- The headers of a call: it asks for JSON, and says so if its body is JSON. -/
def headers (c : Call) : List (String × String) :=
  ("accept", "application/json") :: (c.body.map fun _ => ("content-type", "application/json")).toList

/-- The request as it arrives at the server of a URL. -/
def request (c : Call) (u : Url) : Request where
  method := c.method
  path := u.path
  query := u.query
  headers := c.headers
  body := ((c.body.map Json.text).getD "").toUTF8

end Call

/-- Why a request that has no URL is not sent. -/
def unusableUrl : String := "builder error"

/-- Why a request whose URL is of no use is not sent. -/
def unusableScheme (url : String) : String := "builder error for url (" ++ url ++ ")"

/-- Why a request that nobody answers fails. -/
def unanswered (url : String) : String := "error sending request for url (" ++ url ++ ")"

namespace Exchange

variable {W α β : Type}

/-- The exchange that does nothing. -/
protected def pure (a : α) : Exchange W α := fun w => (.ok a, w)

/-- One exchange after another; a failure ends both. -/
protected def bind (x : Exchange W α) (f : α → Exchange W β) : Exchange W β := fun w =>
  match x w with
  | (.ok a, w) => f a w
  | (.error e, w) => (.error e, w)

instance : Monad (Exchange W) where
  pure := Exchange.pure
  bind := Exchange.bind

@[simp] theorem pure_apply (a : α) (w : W) : (pure a : Exchange W α) w = (.ok a, w) := rfl

theorem bind_apply (x : Exchange W α) (f : α → Exchange W β) (w : W) :
    (x >>= f) w =
      match x w with
      | (.ok a, w) => f a w
      | (.error e, w) => (.error e, w) := rfl

/-- The exchange that fails. -/
def fail (e : ClientError) : Exchange W α := fun w => (.error e, w)

/-- The value of a computation, or its error as the failure. -/
def lift (x : Except ClientError α) : Exchange W α := fun w => (x, w)

/-- An exchange that is one of the operations on resources. -/
def during (op : Operation) (x : Exchange W α) : Exchange W α := fun w =>
  match x w with
  | (.ok a, w) => (.ok a, w)
  | (.error e, w) => (.error (.operation op e), w)

/-! ## Requests and answers -/

/-- Hands a request to the network. -/
def ask (net : Network W) (u : Url) (request : Request) : Exchange W (Option Response) := fun w =>
  let (answer, w) := net u request w
  (.ok answer, w)

/-- What a client reads of the answer to a call, with the URL that it went to. -/
def send (net : Network W) (c : Call) : Exchange W (String × Received) := do
  match c.url? with
  | none => fail (.transport "" unusableUrl)
  | some u =>
    if u.isWeb then
      match ← ask net u (c.request u) with
      | some response => return (u.text, .ofResponse c.method response)
      | none => fail (.transport u.text (unanswered u.text))
    else fail (.transport u.text (unusableScheme u.text))

/-- The data of an answer's body, if it has any. -/
def dataOf (decode : String → Except String α) (url body : String) : Except ClientError (Option α) :=
  if (Text.trimmed body).isEmpty then .ok none
  else
    match decode body with
    | .ok data => .ok (some data)
    | .error reason => .error (.decode url reason)

/-- Sends a call and requires an answer of the expected status, whose body is decoded if there is one. -/
def perform (net : Network W) (c : Call) (expected : Nat) (decode : String → Except String α) :
    Exchange W (Received × Option α) := do
  let (url, received) ← send net c
  if received.status = expected then
    let data ← lift (dataOf decode url received.body)
    return (received, data)
  else fail (.unexpected received.status received.body)

/-- The data of an answer that must have some. -/
def required (address : String) (answer : Received × Option α) : Except ClientError α :=
  match answer.2 with
  | some data => .ok data
  | none => .error (.emptyBody address)

end Exchange

end ResourceTree
