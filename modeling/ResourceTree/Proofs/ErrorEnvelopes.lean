import ResourceTree.Proofs.Errands
import ResourceTree.Proofs.JsonReading
import ResourceTree.Proofs.MiddlewareOrder
import ResourceTree.Server.Serve

/-! # Errors on the wire

An error tells a status, a status text and perhaps a detail (`ApiError.Tells`). The error with which a request ends is
answered as an envelope, which is read back as it was (`ErrorEnvelope.parse?_text`). `Route.Raises` lists the places
where an error can be raised on the way of a request through a route, and `errors_reach_client` says that whoever sent
the request gets to see the error's status, its status text and its detail, whatever the errand was. -/

namespace ResourceTree

variable {R A : Type}

/-- **An envelope survives the wire**: the text of its value is read as the envelope. -/
theorem ErrorEnvelope.parse?_text (envelope : ErrorEnvelope) : parse? envelope.toJson.text = some envelope := by
  rw [parse?, Json.written?_text]
  obtain ⟨status, detail⟩ := envelope
  cases detail <;> rfl

/-- **What an error tells**: its status, its status text, and its detail, which only some errors have. -/
inductive ApiError.Tells : ApiError → Nat → String → Option String → Prop
  | notFound : Tells .notFound 404 "Resource not found." none
  | forbidden : Tells .forbidden 403 "Forbidden" none
  | invalidRequest (detail : String) : Tells (.invalidRequest detail) 400 "Invalid request." (some detail)
  | methodNotAllowed (detail : String) : Tells (.methodNotAllowed detail) 405 "Method not allowed." (some detail)
  | internal (detail : String) : Tells (.internal detail) 500 "Internal server error." (some detail)
  | custom (status : Nat) (text : String) (detail : Option String) :
      Tells (.custom status text detail) status text detail

theorem ApiError.tells (e : ApiError) : e.Tells e.status e.statusText e.detail := by
  cases e <;> constructor

/-- The text of an operation's failure because of an unexpected response. -/
theorem ClientError.message_unexpectedResponse (op : Operation) (status : Nat) (text body : String) :
    (operation op (.unexpectedResponse status text body)).message
      = "error " ++ op.activity ++ ": unexpected response with text: " ++ text := by
  have hcolon : ": " ++ "unexpected response with text: " = ": unexpected response with text: " := by decide
  have hassoc (a b c d : String) : a ++ b ++ (c ++ d) = a ++ (b ++ c) ++ d := by
    simp only [String.append_assoc]
  exact (hassoc _ _ _ _).trans (congrArg (fun x => "error " ++ op.activity ++ x ++ text) hcolon)

/-! ## Where errors are raised -/

namespace Endpoint

/-- Whether an endpoint reads the body of its request. -/
def readsBody : Endpoint R → Bool
  | .operation _ op => Collection.readsBody op
  | .custom _ _ => true

/-- What an endpoint does before an error of it becomes an answer. -/
def attempt (i : Inflight R) : Endpoint R → Action R Response
  | .operation c op => c.handle op i.context (if Collection.readsBody op then i.request.body else .empty)
  | .custom node handler => do
    Action.emit (.handler node handler.tag)
    handler.run i.context i.request.body

/-- An endpoint that can read its body answers with what it does, or with its error. -/
theorem run_eq_answered {p : Endpoint R} {i : Inflight R}
    (h : p.readsBody = true → i.request.body.size ≤ bodyLimit) : p.run i = (p.attempt i).answered := by
  cases p with
  | operation c op =>
      rw [run, attempt]
      by_cases hreads : Collection.readsBody op = true
      · rw [if_pos hreads, if_pos hreads, Action.withBody, if_neg (Nat.not_lt.mpr (h hreads))]
      · rw [if_neg hreads, if_neg hreads]
  | custom node handler =>
      rw [run, Action.withBody, if_neg (Nat.not_lt.mpr (h rfl))]
      rfl

end Endpoint

namespace Route

/-- **The turning point of a request** in a route: this is answered there, and the answer leaves through these
layers. -/
inductive Turns (route : Route R) (m : Method) (i : Inflight R) (env : Env) (w : World R) :
    List (Layer R) → Response → Prop
  /-- A layer stops the request. -/
  | stopped {outer : List (Layer R)} {s : Layer.Stop R} {w₁ : World R}
    (hdescend : Layer.descend route.layers i env w = (.ok (.stopped outer s), w₁)) :
    Turns route m i env w outer s.response
  /-- The route answers it. -/
  | reached {i₁ : Inflight R} {response : Response} {w₁ w₂ : World R}
    (hdescend : Layer.descend route.layers i env w = (.ok (.arrived i₁), w₁))
    (hreached : route.reached m i₁ env w₁ = (.ok response, w₂)) :
    Turns route m i env w route.layers response

/-- **An error is raised** on the way of a request through a route, inside of these layers. -/
inductive Raises (route : Route R) (m : Method) (i : Inflight R) (env : Env) (w : World R) (e : ApiError) :
    List (Layer R) → Prop
  /-- A guard refuses the resource with it. -/
  | refused {outer : List (Layer R)} {w₁ : World R}
    (hdescend : Layer.descend route.layers i env w = (.ok (.stopped outer (.refused e)), w₁)) :
    Raises route m i env w e outer
  /-- The resource of an ancestor, or the one that is asked for, cannot be loaded. -/
  | missing {outer : List (Layer R)} {c : Collection R} {w₁ : World R}
    (hdescend : Layer.descend route.layers i env w = (.ok (.stopped outer (.missing c e)), w₁)) :
    Raises route m i env w e outer
  /-- A middleware answers with it. -/
  | answered {outer : List (Layer R)} {w₁ : World R}
    (hdescend : Layer.descend route.layers i env w = (.ok (.stopped outer (.answered (.error e))), w₁)) :
    Raises route m i env w e outer
  /-- A middleware turns the answer into it on the way out. -/
  | leaving {outer inner : List (Layer R)} {node : NodeKey} {middleware : Middleware} {response : Response}
    (hturns : route.Turns m i env w (outer ++ .plain node middleware :: inner) response)
    (hleave : middleware.leave (Layer.left inner response) = .error e) :
    Raises route m i env w e outer
  /-- The handler fails with it: when it reads the body or the ID, in a hook, a filter, a wrapper or the storage, or
  when the resource is bound, merged or rendered. -/
  | handler {i₁ : Inflight R} {p : Endpoint R} {w₁ w₂ : World R}
    (hdescend : Layer.descend route.layers i env w = (.ok (.arrived i₁), w₁))
    (hendpoint : route.endpoint? m = some p)
    (hbody : p.readsBody = true → i₁.request.body.size ≤ bodyLimit)
    (hfails : p.attempt i₁ env w₁ = (.error (.api e), w₂)) :
    Raises route m i env w e route.layers

end Route

theorem Layer.left_append (outer inner : List (Layer R)) (response : Response) :
    left (outer ++ inner) response = left outer (left inner response) := by
  induction outer with
  | nil => rfl
  | cons layer outer ih =>
      cases layer with
      | plain node m => exact congrArg m.leave ih
      | guard c g => exact ih
      | resolve c => exact ih

namespace Route

variable {route : Route R} {m : Method} {i : Inflight R} {env : Env} {w : World R} {e : ApiError}
  {outer : List (Layer R)}

/-- An error that is raised is the answer with which the request comes out to the layers outside. -/
theorem Raises.turns (h : route.Raises m i env w e outer) :
    ∃ inner response, route.Turns m i env w (outer ++ inner) response ∧ Layer.left inner response = .error e := by
  have hstopped {s : Layer.Stop R} {outer : List (Layer R)} {w₁ : World R}
      (hdescend : Layer.descend route.layers i env w = (.ok (.stopped outer s), w₁)) (hs : s.response = .error e) :
      ∃ inner response, route.Turns m i env w (outer ++ inner) response
        ∧ Layer.left inner response = .error e := by
    refine ⟨[], s.response, ?_, hs⟩
    rw [List.append_nil]
    exact .stopped hdescend
  cases h with
  | refused hdescend => exact hstopped hdescend rfl
  | missing hdescend => exact hstopped hdescend rfl
  | answered hdescend => exact hstopped hdescend rfl
  | leaving hturns hleave => exact ⟨_, _, hturns, hleave⟩
  | @handler i₁ p w₁ w₂ hdescend hendpoint hbody hfails =>
      have hreached : route.reached m i₁ env w₁ = (.ok (.error e), w₂) := by
        rw [reached, hendpoint]
        simp only [Endpoint.run_eq_answered hbody]
        exact Action.answered_of_error hfails
      refine ⟨[], .error e, ?_, rfl⟩
      rw [List.append_nil]
      exact .reached hdescend hreached

/-- **The answer of a router** is what is answered at the turning point, as the layers and the route let it out. -/
theorem Turns.answer {routes : List (Route R)} {request : Request} {taken : List (String × String)}
    {response : Response}
    (hlookup : Route.lookup (routes.map fun r => (r.pattern, r)) request.path = some (route, taken))
    (h : route.Turns request.method (Router.dispatched request taken) env w outer response) :
    (Router.answer routes request env w).1 = route.dressed request.method (Layer.left outer response) := by
  cases h with
  | stopped hdescend =>
      obtain ⟨w', hanswer, -⟩ := Router.answer_of_stopped hlookup hdescend
      rw [hanswer]
  | reached hdescend hreached =>
      obtain ⟨w', hanswer, -⟩ := Router.answer_of_arrived hlookup hdescend hreached
      rw [hanswer]

/-- A route leaves the status of an answer alone, and the body too unless only the head is asked for. -/
theorem dressed_status (route : Route R) (m : Method) (response : Response) :
    (route.dressed m response).status = response.status := by
  rw [dressed]
  cases route.endpoint? m <;> dsimp only <;> split <;> rfl

theorem dressed_body (route : Route R) {m : Method} (hm : m ≠ .head) (response : Response) :
    (route.dressed m response).body = response.body := by
  rw [dressed, if_neg hm]
  cases route.endpoint? m <;> rfl

end Route

namespace Server

/-- The network in which a server answers every request. -/
def network (server : Server R) (env : Env) : Network (World R) := fun _ request w =>
  (some (server.answer request env w).1, (server.answer request env w).2)

theorem network_apply (server : Server R) (env : Env) (u : Url) (request : Request) (w : World R) :
    server.network env u request w
      = (some (server.answer request env w).1, (server.answer request env w).2) := rfl

/-- **A request to a server ends with an error**: this is raised on the way of the request through its route, and the
layers outside leave the status and the body of its answer as they are. -/
def EndsWith (server : Server R) (request : Request) (env : Env) (w : World R) (e : ApiError) : Prop :=
  ∃ route taken outer,
    Route.lookup (server.routes.map fun r => (r.pattern, r)) request.path = some (route, taken)
      ∧ route.Raises request.method (Router.dispatched request taken)
        { env with deadline := server.config.timeoutMillis } w.nextRequest e outer
      ∧ (Layer.left outer (.error e)).status = (Response.error e).status
      ∧ (Layer.left outer (.error e)).body = (Response.error e).body

/-- Such a request is answered with the status and the envelope of the error. -/
theorem EndsWith.answer {server : Server R} {request : Request} {env : Env} {w : World R} {e : ApiError}
    (h : server.EndsWith request env w e) (hm : request.method ≠ .head) :
    (server.answer request env w).1.status = e.status
      ∧ (server.answer request env w).1.body = .json (ErrorEnvelope.ofError e).toJson := by
  obtain ⟨route, taken, outer, hlookup, hraises, hstatus, hbody⟩ := h
  obtain ⟨inner, response, hturns, hleft⟩ := hraises.turns
  rw [Server.answer, hturns.answer hlookup, Layer.left_append, hleft, Route.dressed_status, Route.dressed_body _ hm]
  exact ⟨hstatus, hbody⟩

end Server

/-! ## What the client gets to see -/

/-- **Errors survive the wire.** If a tree offers a client and the request of one of its errands ends with an error,
the errand fails with an unexpected response that has the status of the error and its status text. The body is the
envelope, with a member for the detail just if the error has one, and text and detail are read back from it. This is so
if the status may have a body and is not the one with which the API answers such an errand when it succeeds. -/
theorem errors_reach_client {n : Node R} {server : Server R} {address : String} {s : Service R} {client : Client A}
    {errand : Errand A} {call : Call} {u : Url} {env : Env} {w : World R} {e : ApiError}
    (hoffers : n.Offers address s client) (hcall : errand.call client = .ok call) (hurl : call.url? = some u)
    (hweb : u.isWeb = true) (hends : server.EndsWith (call.request u) env w e)
    (hbody : Received.mayHaveBody call.method e.status = true)
    (hstatus : e.status ≠ s.codes.get errand.operation.method) :
    ∃ detail body failure w', e.Tells e.status e.statusText detail
      ∧ errand.run client (server.network env) w = (.error failure, w')
      ∧ failure = .operation errand.operation (.unexpectedResponse e.status e.statusText body)
      ∧ body = (Json.obj (("status", .str e.statusText) :: (detail.map fun d => ("error", .str d)).toList)).text
      ∧ ErrorEnvelope.parse? body = some ⟨e.statusText, detail⟩
      ∧ failure.status = some e.status
      ∧ failure.message = "error " ++ errand.operation.activity
        ++ ": unexpected response with text: " ++ e.statusText := by
  have hmethod : call.method ≠ .head := by
    rintro hhead
    rw [hhead] at hbody
    cases hbody
  obtain ⟨hanswer, hjson⟩ := hends.answer hmethod
  have hreceived : Received.ofResponse call.method (server.answer (call.request u) env w).1
      = ⟨e.status, (server.answer (call.request u) env w).1.header? "content-type",
        (ErrorEnvelope.ofError e).toJson.text⟩ := by
    rw [Received.ofResponse, hanswer, if_pos hbody, hjson]
    rfl
  -- the status is none that the client expects, so it looks for an envelope
  have hunexpected : ClientError.unexpected e.status (ErrorEnvelope.ofError e).toJson.text
      = .unexpectedResponse e.status e.statusText (ErrorEnvelope.ofError e).toJson.text := by
    rw [ClientError.unexpected, ClientError.answerText, ErrorEnvelope.parse?_text]
    rfl
  have hrun : errand.run client (server.network env) w
      = (.error (.operation errand.operation
          (.unexpectedResponse e.status e.statusText (ErrorEnvelope.ofError e).toJson.text)),
        (server.answer (call.request u) env w).2) := by
    rw [← hoffers.codes] at hstatus
    rw [Errand.run_of_answered hcall hurl hweb (server.network_apply env u (call.request u) w), hreceived,
      Errand.outcome_of_unexpected _ _ hstatus, hunexpected, Except.mapError]
  exact ⟨e.detail, _, _, _, e.tells, hrun, rfl, rfl, ErrorEnvelope.parse?_text (.ofError e), rfl,
    ClientError.message_unexpectedResponse errand.operation e.status e.statusText _⟩

namespace Club

/-- The client for rooms. -/
def roomClient : Client Record :=
  .forPath "http://club" ⟨[⟨"rooms", "/rooms", true⟩]⟩ Record.schemaless .standard

/-- All clients of the club. -/
def clients : ClientMap :=
  ⟨[("rooms", roomClient), ("lockers", .forPath "http://club" ⟨[⟨"rooms", "/rooms", true⟩,
    ⟨"lockers", "/lockers", true⟩]⟩ Record.schemaless .standard)]⟩

theorem clients_tree : ClientMap.ofNode "http://club" tree = .ok clients := rfl

/-- The call for a new room with the ID of the first. -/
def roomCall : Call :=
  { method := .post, address := "http://club/rooms", body := some (.obj [("id", .str "1")]) }

/-- Where it goes. -/
def roomUrl : Url := ⟨"http", "club", none, "/rooms", none, none⟩

/-- The place of all rooms in the tree. -/
def roomsSite : Site Record := ⟨[], tree, .collection⟩

/-- What the club answers to the call: there is such a room. -/
def taken : ApiError := .custom 409 "Conflict." (some "resource '1' already exists")

theorem endsWith_taken :
    Server.EndsWith ⟨routes, .standard⟩ (roomCall.request roomUrl) (Env.quiet "n") world taken := by
  have hdescend : (Layer.descend (roomsSite.route .root).layers
      (Router.dispatched (roomCall.request roomUrl) []) (Env.quiet "n") world.nextRequest).1
        = .ok (.arrived (Router.dispatched (roomCall.request roomUrl) [])) := by cbv
  have hfails : ((Endpoint.operation (roomService.collection "rooms" ["rooms"]) .create).attempt
      (Router.dispatched (roomCall.request roomUrl) []) (Env.quiet "n")
      (Layer.descend (roomsSite.route .root).layers
        (Router.dispatched (roomCall.request roomUrl) []) (Env.quiet "n") world.nextRequest).2).1
        = .error (.api taken) := by cbv
  -- the porter is passed, and the handler looks for a room with the ID
  exact ⟨roomsSite.route .root, [], (roomsSite.route .root).layers, rfl,
    .handler (Prod.ext hdescend rfl) rfl (fun _ => by decide +kernel) (Prod.ext hfails rfl), rfl, rfl⟩

end Club

open Club in
/-- Whoever wants to add a room with an ID that is taken is told so, and which ID it is. -/
theorem errors_reach_client_club : ∃ body failure w',
    (Errand.create [] ⟨⟨"1", none⟩, []⟩).run roomClient (Server.network ⟨routes, .standard⟩ (Env.quiet "n")) world
        = (.error failure, w')
      ∧ failure = .operation .create (.unexpectedResponse 409 "Conflict." body)
      ∧ ErrorEnvelope.parse? body = some ⟨"Conflict.", some "resource '1' already exists"⟩
      ∧ failure.status = some 409
      ∧ failure.message
        = "error " ++ "posting resource" ++ ": unexpected response with text: " ++ "Conflict." := by
  have hget : clients.get? "rooms" = some roomClient := rfl
  obtain ⟨s, hoffers⟩ := Node.offers_of_get? clients_tree hget
  have hcall : (Errand.create [] ⟨⟨"1", none⟩, []⟩).call roomClient = .ok roomCall := by cbv
  have hurl : roomCall.url? = some roomUrl := by decide +kernel
  have hstatus : taken.status ≠ s.codes.get Operation.create.method := by
    rw [← hoffers.codes]
    decide
  obtain ⟨detail, body, failure, w', htells, hrun, hfailure, -, hparse, hrest⟩ :=
    errors_reach_client hoffers hcall hurl rfl endsWith_taken rfl hstatus
  cases htells with
  | custom => exact ⟨body, failure, w', hrun, hfailure, hparse, hrest⟩

end ResourceTree
