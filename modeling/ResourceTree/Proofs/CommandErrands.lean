import Mathlib.Data.List.TakeWhile
import ResourceTree.Proofs.Errands
import ResourceTree.Proofs.JsonDocuments

/-! # Commands as errands

A command that a client can run is one of its errands (`Command.errand`), and running it shows what the errand gives:
`ClientMap.runWith_of_errand`. If the answer to the errand is a document whose resources carry their identity, what is
shown is the document itself (`Errand.exists_outcome`). -/

namespace ResourceTree

variable {W : Type}

/-! ## The errand of a command -/

/-- The errand that a command runs, if its arguments are there and can be read. -/
def Command.errand (c : Command) : Except ClientError (Errand Record) :=
  match c.verb with
  | .get => do
    let id ← c.arg 0 "id"
    return .fetch c.parents id
  | .list => do
    let pairs ← c.args.mapM ClientMap.queryPair
    return .list c.parents pairs
  | .post => do
    let arg ← c.arg 0 "body"
    let r ← ClientMap.bodyOf arg
    return .create c.parents r
  | .put => do
    let arg ← c.arg 1 "body"
    let r ← ClientMap.bodyOf arg
    let id ← c.arg 0 "id"
    return .replace c.parents id r
  | .patch => do
    let arg ← c.arg 1 "body"
    let r ← ClientMap.bodyOf arg
    let id ← c.arg 0 "id"
    return .merge c.parents id (Record.schemaless.encode r)
  | .delete => do
    let id ← c.arg 0 "id"
    return .remove c.parents id

/-- **A command runs an errand**: the verb says which one, and the arguments what it is about. -/
inductive Command.Runs (c : Command) : Errand Record → Prop
  | get {id : String} (hverb : c.verb = .get) (hid : c.arg 0 "id" = .ok id) : Runs c (.fetch c.parents id)
  | list {pairs : List (String × String)} (hverb : c.verb = .list)
    (hpairs : c.args.mapM ClientMap.queryPair = .ok pairs) : Runs c (.list c.parents pairs)
  | post {arg : String} {r : Record} (hverb : c.verb = .post) (harg : c.arg 0 "body" = .ok arg)
    (hr : ClientMap.bodyOf arg = .ok r) : Runs c (.create c.parents r)
  | put {arg : String} {r : Record} {id : String} (hverb : c.verb = .put) (harg : c.arg 1 "body" = .ok arg)
    (hr : ClientMap.bodyOf arg = .ok r) (hid : c.arg 0 "id" = .ok id) : Runs c (.replace c.parents id r)
  | patch {arg : String} {r : Record} {id : String} (hverb : c.verb = .patch) (harg : c.arg 1 "body" = .ok arg)
    (hr : ClientMap.bodyOf arg = .ok r) (hid : c.arg 0 "id" = .ok id) :
    Runs c (.merge c.parents id (Record.schemaless.encode r))
  | delete {id : String} (hverb : c.verb = .delete) (hid : c.arg 0 "id" = .ok id) : Runs c (.remove c.parents id)

theorem Command.runs_of_errand {c : Command} {errand : Errand Record} (h : c.errand = .ok errand) :
    c.Runs errand := by
  cases hverb : c.verb with
  | get =>
      simp only [Command.errand, hverb] at h
      obtain ⟨id, hid, h⟩ := except_bind_eq_ok h
      cases h
      exact .get hverb hid
  | list =>
      simp only [Command.errand, hverb] at h
      obtain ⟨pairs, hpairs, h⟩ := except_bind_eq_ok h
      cases h
      exact .list hverb hpairs
  | post =>
      simp only [Command.errand, hverb] at h
      obtain ⟨arg, harg, h⟩ := except_bind_eq_ok h
      obtain ⟨r, hr, h⟩ := except_bind_eq_ok h
      cases h
      exact .post hverb harg hr
  | put =>
      simp only [Command.errand, hverb] at h
      obtain ⟨arg, harg, h⟩ := except_bind_eq_ok h
      obtain ⟨r, hr, h⟩ := except_bind_eq_ok h
      obtain ⟨id, hid, h⟩ := except_bind_eq_ok h
      cases h
      exact .put hverb harg hr hid
  | patch =>
      simp only [Command.errand, hverb] at h
      obtain ⟨arg, harg, h⟩ := except_bind_eq_ok h
      obtain ⟨r, hr, h⟩ := except_bind_eq_ok h
      obtain ⟨id, hid, h⟩ := except_bind_eq_ok h
      cases h
      exact .patch hverb harg hr hid
  | delete =>
      simp only [Command.errand, hverb] at h
      obtain ⟨id, hid, h⟩ := except_bind_eq_ok h
      cases h
      exact .delete hverb hid

/-- The body of a command's errand can be sent. -/
theorem Command.exists_body {c : Command} {errand : Errand Record} (h : c.errand = .ok errand) :
    ∃ body, (errand.body? Record.schemaless).mapM (Except.mapError ClientError.encode) = .ok body := by
  cases c.runs_of_errand h with
  | get | list | delete => exact ⟨none, rfl⟩
  | post | put | patch => exact ⟨some (Record.encode _), rfl⟩

namespace Errand

/-- What is shown of the result of an errand. -/
def shown : (errand : Errand Record) → errand.Result → Json
  | .list _ _, rs => .obj [("items", .arr (List.map Record.schemaless.value rs))]
  | .remove _ _, () => .null
  | .fetch _ _, r | .create _ _, r | .replace _ _ _, r | .merge _ _ _, r => Record.schemaless.value r

end Errand

namespace ClientMap

/-- **A command with a client runs its errand** and shows the result. -/
theorem runWith_of_errand {client : Client Record} (hkind : client.kind = Record.schemaless) {c : Command}
    {errand : Errand Record} (h : c.errand = .ok errand) (net : Network W) (w : W) :
    runWith client net c w = (errand.run client net >>= fun result => pure (errand.shown result)) w := by
  cases c.runs_of_errand h with
  | get hverb hid =>
      simp only [runWith, hverb, hkind]
      exact Exchange.bind_of_lift hid _
  | list hverb hpairs =>
      simp only [runWith, hverb, hkind]
      exact Exchange.bind_of_lift hpairs _
  | post hverb harg hr =>
      simp only [runWith, hverb, hkind]
      exact (Exchange.bind_of_lift harg _).trans (Exchange.bind_of_lift hr _)
  | put hverb harg hr hid | patch hverb harg hr hid =>
      simp only [runWith, hverb, hkind]
      exact (Exchange.bind_of_lift harg _).trans ((Exchange.bind_of_lift hr _).trans (Exchange.bind_of_lift hid _))
  | delete hverb hid =>
      simp only [runWith, hverb]
      exact Exchange.bind_of_lift hid _

end ClientMap

/-! ## Reading the answer to an errand -/

/-- The text of an object is not blank. -/
theorem Json.trimmed_text_obj (members : List (String × Json)) :
    (Text.trimmed (Json.obj members).text).isEmpty = false := by
  obtain ⟨cs, hcs⟩ : ∃ cs, (Json.obj members).chars = '{' :: cs := by
    cases members with
    | nil => exact ⟨_, rfl⟩
    | cons member members => exact ⟨_, rfl⟩
  have hbrace : Text.isBlank '{' = false := by decide
  have hne : Text.trim Text.isBlank ('{' :: cs) ≠ [] := by
    rw [Text.trim, List.dropWhile_cons_of_neg (by rw [hbrace]; decide), Text.trimEnd, ne_eq, List.reverse_eq_nil_iff,
      List.dropWhile_eq_nil_iff]
    intro hall
    have hblank := hall '{' (List.mem_reverse.mpr List.mem_cons_self)
    rw [hbrace] at hblank
    cases hblank
  rw [Text.trimmed, Json.text, String.toList_ofList, hcs]
  exact String.isEmpty_eq_false_iff.mpr fun hempty => hne (String.ofList_eq_empty_iff.mp hempty)

/-- The values of resources in a document that an operation answers. -/
def Operation.resourcesIn (op : Operation) (v : Json) : List Json :=
  match op with
  | .list => ((v.get? "items").bind Json.items?).getD []
  | _ => [v]

namespace Exchange

variable {α : Type} {decode : String → Except String α} {url address : String} {received : Received} {a : α}

/-- What arrives with the expected status is decoded. -/
theorem settle_of_decoded (hblank : (Text.trimmed received.body).isEmpty = false)
    (hdecode : decode received.body = .ok a) (address : String) :
    (settle received.status decode url received >>= required address) = .ok a := by
  rw [settle, if_pos rfl, dataOf, hblank, hdecode]
  rfl

end Exchange

namespace Errand

variable {client : Client Record} {received : Received} {errand : Errand Record} {v : Json}

/-- **An answer of the expected status** whose document is read back, and whose resources carry their identity, comes
out as what shows the document. -/
theorem exists_outcome (hkind : client.kind = Record.schemaless)
    (hstatus : received.status = client.codes.get errand.operation.method) (hbody : received.body = v.text)
    (hparse : Json.parse? v.text = some v) (hremove : errand.operation ≠ .remove)
    (hlist : errand.operation = .list → ∃ items, v = .obj [("items", .arr items)])
    (hcarry : ∀ item ∈ errand.operation.resourcesIn v, item.CarriesIdentity) (address url : String) :
    ∃ result, errand.outcome client address url received = .ok result ∧ errand.shown result = v := by
  have hanswered {m : Method} (hstatus : received.status = client.codes.get m) (hcarries : v.CarriesIdentity) :
      ∃ r, client.answered m address url received = .ok r ∧ Record.schemaless.value r = v := by
    obtain ⟨r, hr, hvalue⟩ := Record.exists_decodeText hparse hcarries
    have hblank : (Text.trimmed received.body).isEmpty = false := by
      obtain ⟨i, hi, -⟩ := hcarries
      cases v with
      | obj members => exact hbody ▸ Json.trimmed_text_obj members
      | _ => cases hi.id
    refine ⟨r, ?_, hvalue⟩
    rw [Client.answered, ← hstatus, hkind]
    exact Exchange.settle_of_decoded hblank (hbody ▸ hr) address
  cases errand with
  | list parents pairs =>
      obtain ⟨items, rfl⟩ := hlist rfl
      obtain ⟨rs, hrs, hvalues⟩ := Record.exists_decodeList hparse hcarry
      refine ⟨rs, ?_, congrArg (fun vs => Json.obj [("items", .arr vs)]) hvalues⟩
      rw [outcome, hkind, ← show received.status = client.codes.get .get from hstatus]
      exact Exchange.settle_of_decoded (hbody ▸ Json.trimmed_text_obj _) (hbody ▸ hrs) address
  | fetch parents id => exact hanswered hstatus (hcarry v List.mem_cons_self)
  | create parents r => exact hanswered hstatus (hcarry v List.mem_cons_self)
  | replace parents id r => exact hanswered hstatus (hcarry v List.mem_cons_self)
  | merge parents id update => exact hanswered hstatus (hcarry v List.mem_cons_self)
  | remove parents id => exact absurd rfl hremove

/-- An empty answer of the expected status is all that a deletion needs. -/
theorem outcome_of_removed {parents : List String} {id : String}
    (hstatus : received.status = client.codes.get .delete) (hbody : received.body = "") (address url : String) :
    (Errand.remove parents id).outcome client address url received = .ok () := by
  rw [outcome, Exchange.settle, if_pos hstatus, hbody]
  rfl

end Errand

end ResourceTree
