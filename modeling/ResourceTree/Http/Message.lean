import ResourceTree.Error
import ResourceTree.Http.Status
import ResourceTree.Json.Printer
import ResourceTree.Json.Reader
import ResourceTree.Text.Split
import ResourceTree.Text.Utf8

/-! # Requests and answers

The messages that a server and its clients exchange, and the envelope in which an answer reports an error. -/

namespace ResourceTree

/-! ## Requests -/

/-- A request as it arrives: the path is neither decoded nor resolved. -/
structure Request where
  method : Method
  path : String
  query : Option String
  /-- Header names in lower case with their values. -/
  headers : List (String × String)
  body : ByteArray

namespace Request

/-- A request target without the scheme and host that it may begin with. -/
def afterHost (target : List Char) : List Char :=
  let isEnd (c : Char) : Bool := c == '/' || c == '?' || c == '#'
  match target.dropWhile (· != ':') with
  | ':' :: '/' :: '/' :: rest =>
    if (target.takeWhile (· != ':')).any isEnd then target else rest.dropWhile fun c => !isEnd c
  | _ => target

/-- The path and the query of a request target. A fragment is no part of either. -/
def splitTarget (target : String) : String × Option String :=
  let (target, _) := Text.cutAt '#' (afterHost target.toList)
  let (path, query) := Text.cutAt '?' target
  (if path.isEmpty then "/" else String.ofList path, query.map String.ofList)

/-- The first value of a header. -/
def header? (r : Request) (name : String) : Option String := r.headers.lookup name

/-- Whether a request has a header. -/
def hasHeader (r : Request) (name : String) : Bool := (r.header? name).isSome

end Request

/-- A header value as text: `none` unless it consists of visible ASCII characters, spaces and tabs. -/
def visibleText? (value : String) : Option String :=
  if value.toList.all fun c => (32 ≤ c.toNat && c.toNat < 127) || c == '\t' then some value else none

/-! ## Answers -/

/-- The body of an answer. -/
inductive Body where
  | empty
  /-- The compact text of a value, whose members are written in the order it has. -/
  | json (value : Json)
  | text (s : String)
  | bytes (data : ByteArray)

namespace Body

/-- The body as a client reads it. -/
def received : Body → String
  | .empty => ""
  | .json value => value.text
  | .text s => String.ofList (if s.toList.head? = some (Char.ofNat 0xFEFF) then s.toList.tail else s.toList)
  | .bytes data => Text.decodeMarked data.toList

/-- The bytes of the body as text, with U+FFFD where they are not UTF-8. -/
def shown : Body → String
  | .empty => ""
  | .json value => value.text
  | .text s => s
  | .bytes data => Text.decodeUtf8 data.toList

end Body

/-- An answer. -/
structure Response where
  status : Nat
  /-- Header names in lower case with their values, sorted by name. -/
  headers : Fields String
  body : Body

namespace Response

/-- An answer with neither body nor headers. -/
def bare (status : Nat) : Response := ⟨status, [], .empty⟩

/-- An answer with a body of a content type. -/
def withContent (status : Nat) (contentType : String) (body : Body) : Response :=
  ⟨status, [("content-type", contentType)], body⟩

/-- An answer that is a JSON value. -/
def json (status : Nat) (value : Json) : Response := withContent status "application/json" (.json value)

/-- An answer that is a page. -/
def html (status : Nat) (page : String) : Response :=
  withContent status "text/html; charset=utf-8" (.text page)

/-- An answer that is plain text. -/
def plain (status : Nat) (text : String) : Response :=
  withContent status "text/plain; charset=utf-8" (.text text)

/-- An answer that is raw data. -/
def raw (status : Nat) (data : ByteArray) : Response :=
  withContent status "application/octet-stream" (.bytes data)

/-- A header of the answer. -/
def header? (r : Response) (name : String) : Option String := r.headers.get? name

/-- The answer with a header set. -/
def setHeader (r : Response) (name value : String) : Response :=
  { r with headers := r.headers.put name value }

/-- The answer without its body. -/
def withoutBody (r : Response) : Response := { r with body := .empty }

end Response

/-! ## The error envelope -/

/-- What the body of an answer says about an error. -/
structure ErrorEnvelope where
  status : String
  detail : Option String
  deriving DecidableEq, Repr

namespace ErrorEnvelope

/-- The envelope of an error. -/
def ofError (e : ApiError) : ErrorEnvelope := ⟨e.statusText, e.detail⟩

/-- The envelope as a value: the status first, then the detail if there is one. -/
def toJson (e : ErrorEnvelope) : Json :=
  .obj (("status", .str e.status) :: (e.detail.map fun d => ("error", Json.str d)).toList)

/-- A written text that is a string. -/
def stringOf? : Json.Written → Option String
  | .str s => s
  | _ => none

/-- A written text that is a string or `null`. -/
def optionalOf? : Json.Written → Option (Option String)
  | .null => some none
  | .str s => s.map some
  | _ => none

/-- The value of a member that may occur once. -/
def member? (members : List (String × Json.Written)) (key : String) :
    Option (Option Json.Written) :=
  match members.filter fun m => m.1 == key with
  | [] => some none
  | [m] => some (some m.2)
  | _ => none

/-- The envelope that a text writes: an object with a string `status` and perhaps an `error`, both at most
once, or an array of the two. What other members hold does not matter. -/
def ofWritten? : Json.Written → Option ErrorEnvelope
  | .obj members => do
    let members ← members.mapM fun (key, value) => key.map fun key => (key, value)
    let status ← member? members "status"
    let status ← status
    let status ← stringOf? status
    let detail ← member? members "error"
    let detail ← (detail.map optionalOf?).getD (some none)
    return ⟨status, detail⟩
  | .arr [status] => do
    let status ← stringOf? status
    return ⟨status, none⟩
  | .arr [status, detail] => do
    let status ← stringOf? status
    let detail ← optionalOf? detail
    return ⟨status, detail⟩
  | _ => none

/-- The envelope that a body holds. -/
def parse? (body : String) : Option ErrorEnvelope := do
  let w ← Json.written? body
  ofWritten? w

end ErrorEnvelope

/-- The answer that reports an error. -/
def Response.error (e : ApiError) : Response := .json e.status (ErrorEnvelope.ofError e).toJson

end ResourceTree
