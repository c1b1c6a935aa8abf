import ResourceTree.Proofs.CommandErrands

/-! # What is sent

Whatever an errand is, running it makes its call, sends it and reads the outcome from what arrives (`Errand.run_eq`).
So a command sends nothing, and then changes nothing (`ClientMap.Refuses`), or it hands one request to the network and
makes its outcome of the answer alone (`ClientMap.SendsOnly`). Both are seen by a network that records what goes over
it (`ClientMap.sent`). -/

namespace ResourceTree

variable {A R W : Type}

/-- A failed computation has failed in its first part, or in the second. -/
theorem except_bind_eq_error {ε α β : Type} {x : Except ε α} {f : α → Except ε β} {e : ε}
    (h : x >>= f = .error e) : x = .error e ∨ ∃ a, x = .ok a ∧ f a = .error e := by
  cases x with
  | error e' =>
      cases h
      exact Or.inl rfl
  | ok a => exact Or.inr ⟨a, rfl, h⟩

/-! ## The parts of an errand -/

namespace Exchange

variable {α β : Type} {net : Network W} {call : Call} {u : Url} {w : W}

/-- A failure that comes first is all that happens. -/
theorem bind_of_failed {x : Except ClientError α} {e : ClientError} (h : x = .error e) (f : α → Exchange W β) :
    (lift x >>= f) w = (.error e, w) := by
  subst h
  rfl

/-- A call whose answer must have data is sent, and settled by what arrives. -/
theorem perform_required_eq (net : Network W) (call : Call) (expected : Nat) (decode : String → Except String α)
    (address : String) :
    (perform net call expected decode >>= fun answer => lift (required address answer))
      = send net call >>= fun sent => lift (settle expected decode sent.1 sent.2 >>= required address) := by
  funext w
  cases hsent : send net call w with
  | mk sent w' =>
      cases sent with
      | error e => simp only [perform, bind_apply, hsent]
      | ok sent =>
          rw [bind_of_ok hsent]
          exact perform_required hsent expected decode address

/-- So is one whose answer may have any data or none. -/
theorem perform_done_eq (net : Network W) (call : Call) (expected : Nat) (decode : String → Except String α) :
    (perform net call expected decode >>= fun _ => pure ())
      = send net call >>= fun sent => lift ((settle expected decode sent.1 sent.2).map fun _ => ()) := by
  funext w
  cases hsent : send net call w with
  | mk sent w' =>
      cases sent with
      | error e => simp only [perform, bind_apply, hsent]
      | ok sent =>
          rw [bind_of_ok hsent]
          exact perform_done hsent expected decode

/-- What a client makes of the answer to a call that went to a URL. -/
def answered (call : Call) (u : Url) : Option Response → Except ClientError (String × Received)
  | some response => .ok (u.text, .ofResponse call.method response)
  | none => .error (.transport u.text (unanswered u.text))

/-- **A call to a URL of the web is sent once**, and what is read depends on the answer alone. -/
theorem send_eq (hurl : call.url? = some u) (hweb : u.isWeb = true) (net : Network W) (w : W) :
    send net call w = (answered call u (net u (call.request u) w).1, (net u (call.request u) w).2) := by
  cases hnet : net u (call.request u) w with
  | mk answer w' => cases answer <;> simp [send, hurl, hweb, bind_apply, ask, hnet, answered, fail]

end Exchange

namespace Errand

variable {client : Client A} {errand : Errand A} {call : Call} {u : Url}

/-- **Running an errand** makes its call, sends it, and reads the outcome from what arrives. -/
theorem run_eq (client : Client A) (errand : Errand A) (net : Network W) :
    errand.run client net = Exchange.during errand.operation (Exchange.lift (errand.call client) >>= fun call =>
      Exchange.send net call >>= fun sent => Exchange.lift (errand.outcome client call.address sent.1 sent.2)) := by
  -- the address and the body are made first, and the rest is the same for all errands
  have hbody (op : Operation) (parents : List String) (id : Option String) (body : Except String Json) :
      client.sendBody net op parents id body = Exchange.during op (Exchange.lift (do
        let url ← client.url parents id
        let body ← (some body).mapM (Except.mapError ClientError.encode)
        return ({ method := op.method, address := url, body := body } : Call)) >>= fun call =>
          Exchange.send net call >>= fun sent =>
            Exchange.lift (client.answered op.method call.address sent.1 sent.2)) := by
    refine congrArg (Exchange.during op) ?_
    simp only [Exchange.perform_required_eq]
    cases client.url parents id with
    | error e => rfl
    | ok url => cases body <;> rfl
  cases errand with
  | list parents pairs =>
      refine congrArg (Exchange.during .list) ?_
      simp only [Exchange.perform_required_eq]
      rw [Errand.call, Errand.parents, Errand.id?]
      cases client.url parents none <;> rfl
  | fetch parents id =>
      refine congrArg (Exchange.during .fetch) ?_
      simp only [Exchange.perform_required_eq]
      rw [Errand.call, Errand.parents, Errand.id?]
      cases client.url parents (some id) <;> rfl
  | create parents r => exact hbody .create parents none _
  | replace parents id r => exact hbody .replace parents (some id) _
  | merge parents id update => exact hbody .merge parents (some id) _
  | remove parents id =>
      refine congrArg (Exchange.during .remove) ?_
      simp only [Exchange.perform_done_eq]
      rw [Errand.call, Errand.parents, Errand.id?]
      cases client.url parents (some id) <;> rfl

/-- An errand whose call cannot be made fails because of that, and nothing is sent. -/
theorem run_of_no_call {e : ClientError} (h : errand.call client = .error e) (net : Network W) (w : W) :
    errand.run client net w = (.error (.operation errand.operation e), w) := by
  rw [run_eq]
  exact Exchange.during_of (Exchange.bind_of_failed h _) errand.operation

/-- What an errand comes to when its call is answered like this, or not at all. -/
def result (client : Client A) (errand : Errand A) (call : Call) (u : Url) (answer : Option Response) :
    Except ClientError errand.Result :=
  (Exchange.answered call u answer >>= fun sent => errand.outcome client call.address sent.1 sent.2).mapError
    (.operation errand.operation)

/-- **An errand with a call to a URL of the web** sends one request, and its outcome depends on the answer alone. -/
theorem run_of_call (hcall : errand.call client = .ok call) (hurl : call.url? = some u) (hweb : u.isWeb = true)
    (net : Network W) (w : W) :
    errand.run client net w
      = (errand.result client call u (net u (call.request u) w).1, (net u (call.request u) w).2) := by
  rw [run_eq]
  refine Exchange.during_of ((Exchange.bind_of_lift hcall _).trans ?_) errand.operation
  rw [Exchange.bind_apply, Exchange.send_eq hurl hweb]
  cases Exchange.answered call u (net u (call.request u) w).1 <;> rfl

end Errand

/-! ## Recorded networks -/

/-- The network that also records what is sent over it, the latest request last. -/
def Network.recorded (net : Network W) : Network (W × List (Url × Request)) := fun u request w =>
  ((net u request w.1).1, (net u request w.1).2, w.2 ++ [(u, request)])

namespace ClientMap

/-- What is sent over a network when a command is run, and where to. -/
def sent (m : ClientMap) (net : Network W) (c : Command) (w : W) : List (Url × Request) :=
  (m.run net.recorded c (w, [])).2.2

/-- **A command is refused**: whatever the network, it fails with this error and nothing changes. -/
def Refuses (m : ClientMap) (c : Command) (e : ClientError) : Prop :=
  ∀ (W : Type) (net : Network W) (w : W), m.run net c w = (.error e, w)

/-- **A command sends one request** and no other: whatever the network, the request is handed to it once, and the
outcome is made of the answer alone. -/
def SendsOnly (m : ClientMap) (c : Command) (u : Url) (request : Request) : Prop :=
  ∃ finish : Option Response → Except ClientError Json, ∀ (W : Type) (net : Network W) (w : W),
    m.run net c w = (finish (net u request w).1, (net u request w).2)

variable {m : ClientMap} {c : Command} {client : Client Record} {errand : Errand Record} {call : Call} {u : Url}
  {request : Request} {e : ClientError}

/-- Over any network nothing is sent for a command that is refused. -/
theorem Refuses.sent (h : m.Refuses c e) (net : Network W) (w : W) : m.sent net c w = [] := by
  rw [ClientMap.sent, h]

/-- Over any network the request is sent, and no other. -/
theorem SendsOnly.sent (h : m.SendsOnly c u request) (net : Network W) (w : W) :
    m.sent net c w = [(u, request)] := by
  obtain ⟨finish, hrun⟩ := h
  rw [ClientMap.sent, hrun]
  rfl

/-- The clients of a tree are for resources of any kind, on the server at the address. -/
theorem client_of_get? {n : Node R} {address name : String} (h : ofNode address n = .ok m)
    (hget : m.get? name = some client) :
    client.kind = Record.schemaless ∧ client.address = Client.trimAddress address := by
  obtain ⟨site, -, hsite⟩ := (get?_eq_some_iff h).mp hget
  rw [Site.client?] at hsite
  split at hsite
  · cases hsite
    exact ⟨rfl, rfl⟩
  · cases hsite

/-- A command for an unknown resource is refused. -/
theorem refuses_of_unknown (h : m.get? c.resource = none) : m.Refuses c (.unknownResource c.resource) := by
  intro W net w
  rw [run, h]
  rfl

/-- So is a command that is no errand, because of an argument. -/
theorem refuses_of_no_errand (hget : m.get? c.resource = some client) (h : c.errand = .error e) : m.Refuses c e := by
  intro W net w
  rw [run, hget]
  rw [Command.errand] at h
  cases hverb : c.verb with
  | get | delete =>
      simp only [hverb] at h
      simp only [runWith, hverb]
      obtain harg | ⟨id, -, h⟩ := except_bind_eq_error h
      · exact Exchange.bind_of_failed harg _
      · cases h
  | list =>
      simp only [hverb] at h
      simp only [runWith, hverb]
      obtain hpairs | ⟨pairs, -, h⟩ := except_bind_eq_error h
      · exact Exchange.bind_of_failed hpairs _
      · cases h
  | post =>
      simp only [hverb] at h
      simp only [runWith, hverb]
      obtain harg | ⟨arg, harg, h⟩ := except_bind_eq_error h
      · exact Exchange.bind_of_failed harg _
      · refine (Exchange.bind_of_lift harg _).trans ?_
        obtain hr | ⟨r, -, h⟩ := except_bind_eq_error h
        · exact Exchange.bind_of_failed hr _
        · cases h
  | put | patch =>
      simp only [hverb] at h
      simp only [runWith, hverb]
      obtain harg | ⟨arg, harg, h⟩ := except_bind_eq_error h
      · exact Exchange.bind_of_failed harg _
      · refine (Exchange.bind_of_lift harg _).trans ?_
        obtain hr | ⟨r, hr, h⟩ := except_bind_eq_error h
        · exact Exchange.bind_of_failed hr _
        · refine (Exchange.bind_of_lift hr _).trans ?_
          obtain hid | ⟨id, -, h⟩ := except_bind_eq_error h
          · exact Exchange.bind_of_failed hid _
          · cases h

/-- And so is one whose errand has no call. -/
theorem refuses_of_no_call (hget : m.get? c.resource = some client) (hkind : client.kind = Record.schemaless)
    (herrand : c.errand = .ok errand) (h : errand.call client = .error e) :
    m.Refuses c (.operation errand.operation e) := by
  intro W net w
  have hrun := Errand.run_of_no_call h net w
  rw [run, hget]
  refine (runWith_of_errand hkind herrand net w).trans ?_
  rw [Exchange.bind_apply, hrun]

/-- **A command whose errand has a call** to a URL of the web sends the request of the call. -/
theorem sendsOnly_of_call (hget : m.get? c.resource = some client) (hkind : client.kind = Record.schemaless)
    (herrand : c.errand = .ok errand) (hcall : errand.call client = .ok call) (hurl : call.url? = some u)
    (hweb : u.isWeb = true) : m.SendsOnly c u (call.request u) := by
  refine ⟨fun answer => (errand.result client call u answer).map errand.shown, fun W net w => ?_⟩
  have hrun := Errand.run_of_call hcall hurl hweb net w
  rw [run, hget]
  refine (runWith_of_errand hkind herrand net w).trans ?_
  rw [Exchange.bind_apply, hrun]
  beta_reduce
  cases errand.result client call u (net u (call.request u) w).1 <;> rfl

end ClientMap

end ResourceTree
