import ResourceTree.Api.Router
import ResourceTree.Server.Config
import ResourceTree.Text.Split

/-! # Servers

A server answers requests with the routes of a tree, each within the time that its configuration allows. It
can listen on the addresses of the machine itself. -/

namespace ResourceTree

/-! ## Addresses to listen on -/

/-- The four numbers of an address in dotted form. -/
def dottedParts? (host : String) : Option (List Nat) := do
  let parts ← (Text.pieces '.' host).mapM (Word.read? 255)
  if parts.length = 4 ∧ Text.join '.' (parts.map Nat.repr) = host then some parts else none

/-- Whether a host names the machine itself or all of its addresses. -/
def isOwnHost (host : String) : Bool :=
  match dottedParts? host with
  | some (first :: rest) => first == 127 || (first :: rest).all (· == 0)
  | _ => ["localhost", "[::1]", "[::]"].contains host

/-- Whether a server can listen on an address, which is a host and a port. -/
def canListen (address : String) : Bool :=
  match (Text.pieces ':' address).reverse with
  | port :: host :: hosts =>
    (Word.read? 65535 port).isSome && isOwnHost (Text.join ':' (host :: hosts).reverse)
  | _ => false

/-! ## Servers -/

/-- How a server ends. -/
inductive Outcome where
  /-- It was told to stop. -/
  | stopped
  /-- It could not listen on its address. -/
  | failed
  deriving DecidableEq, Repr

/-- A server: the routes that answer requests, and a configuration. -/
structure Server (R : Type) where
  routes : List (Route R)
  config : ServerConfig := .standard

namespace Server

variable {R : Type}

/-- The server for the tree with a node at its top. -/
def ofNode (n : Node R) : Except BuildError (Server R) := n.router.map fun routes => ⟨routes, .standard⟩

/-- The server with another configuration. -/
def withConfig (s : Server R) (config : ServerConfig) : Server R := { s with config := config }

/-- What a server answers to a request. -/
def answer (s : Server R) (request : Request) (env : Env) (w : World R) : Response × World R :=
  Router.answer s.routes request { env with deadline := s.config.timeoutMillis } w.nextRequest

/-- How a server ends that is told to stop at once. -/
def serveUntilStopped (s : Server R) : Outcome := if canListen s.config.address then .stopped else .failed

end Server

end ResourceTree
