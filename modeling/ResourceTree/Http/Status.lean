import ResourceTree.Fields

/-! # Methods and status codes

Request methods, the reason phrases of status codes, and the table of codes with which an API answers a
successful request. Clients expect the codes of the same table. -/

namespace ResourceTree

/-- A request method. Methods are told apart by letter case. -/
inductive Method where
  | get
  | head
  | post
  | put
  | patch
  | delete
  | options
  | trace
  | connect
  | other (token : String)
  deriving DecidableEq, Repr

namespace Method

/-- The method as it stands in a request. -/
def token : Method → String
  | .get => "GET"
  | .head => "HEAD"
  | .post => "POST"
  | .put => "PUT"
  | .patch => "PATCH"
  | .delete => "DELETE"
  | .options => "OPTIONS"
  | .trace => "TRACE"
  | .connect => "CONNECT"
  | .other token => token

/-- The methods with a name of their own. -/
def known : List Method := [.get, .head, .post, .put, .patch, .delete, .options, .trace, .connect]

/-- The method that a token names. -/
def ofToken (token : String) : Method :=
  (known.find? fun m => m.token == token).getD (.other token)

end Method

/-- The reason phrases of the registered status codes. -/
def reasonPhrases : List (Nat × String) :=
  [(100, "Continue"), (101, "Switching Protocols"), (102, "Processing"), (103, "Early Hints"),
   (200, "OK"), (201, "Created"), (202, "Accepted"), (203, "Non Authoritative Information"),
   (204, "No Content"), (205, "Reset Content"), (206, "Partial Content"), (207, "Multi-Status"),
   (208, "Already Reported"), (226, "IM Used"), (300, "Multiple Choices"), (301, "Moved Permanently"),
   (302, "Found"), (303, "See Other"), (304, "Not Modified"), (305, "Use Proxy"),
   (307, "Temporary Redirect"), (308, "Permanent Redirect"), (400, "Bad Request"),
   (401, "Unauthorized"), (402, "Payment Required"), (403, "Forbidden"), (404, "Not Found"),
   (405, "Method Not Allowed"), (406, "Not Acceptable"), (407, "Proxy Authentication Required"),
   (408, "Request Timeout"), (409, "Conflict"), (410, "Gone"), (411, "Length Required"),
   (412, "Precondition Failed"), (413, "Payload Too Large"), (414, "URI Too Long"),
   (415, "Unsupported Media Type"), (416, "Range Not Satisfiable"), (417, "Expectation Failed"),
   (418, "I'm a teapot"), (421, "Misdirected Request"), (422, "Unprocessable Entity"), (423, "Locked"),
   (424, "Failed Dependency"), (425, "Too Early"), (426, "Upgrade Required"),
   (428, "Precondition Required"), (429, "Too Many Requests"),
   (431, "Request Header Fields Too Large"), (451, "Unavailable For Legal Reasons"),
   (500, "Internal Server Error"), (501, "Not Implemented"), (502, "Bad Gateway"),
   (503, "Service Unavailable"), (504, "Gateway Timeout"), (505, "HTTP Version Not Supported"),
   (506, "Variant Also Negotiates"), (507, "Insufficient Storage"), (508, "Loop Detected"),
   (510, "Not Extended"), (511, "Network Authentication Required")]

/-- A status code with its reason phrase. -/
def statusLine (status : Nat) : String :=
  Nat.repr status ++ " " ++ (reasonPhrases.lookup status).getD "<unknown status code>"

/-! ## The codes of successful answers -/

/-- The status code of a successful answer for each method. -/
structure ResponseCodes where
  table : Fields Nat
  deriving DecidableEq, Repr

namespace ResponseCodes

/-- The codes of an API unless they are changed. -/
def standard : ResponseCodes :=
  ⟨Fields.ofList [("GET", 200), ("POST", 201), ("PUT", 200), ("PATCH", 200), ("DELETE", 200)]⟩

instance : Inhabited ResponseCodes := ⟨standard⟩

/-- The code for a method: 200 if the table has none. -/
def get (codes : ResponseCodes) (m : Method) : Nat := (codes.table.get? m.token).getD 200

/-- The table with the code for one method changed. -/
def set (codes : ResponseCodes) (m : Method) (status : Nat) : ResponseCodes :=
  ⟨codes.table.put m.token status⟩

/-- Changing the code for one method leaves the others as they are. -/
theorem get_set (codes : ResponseCodes) (m n : Method) (status : Nat) :
    (codes.set m status).get n = if m.token = n.token then status else codes.get n := by
  unfold get set
  rw [Fields.get?_put]
  by_cases h : m.token = n.token <;> simp [h]

end ResponseCodes

end ResourceTree
