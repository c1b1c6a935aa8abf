import ResourceTree.Proofs.ListQueries
import ResourceTree.Proofs.UrlAddresses
import ResourceTree.Proofs.WrittenRecords

/-! # The requests of commands

Before a command sends anything its resource, its arguments and the number of its parents are checked, in this order,
and the first check that fails is why it is refused (`Node.refusal?`). A command that passes all of them sends exactly
one request, which is what its verb makes of the arguments: `ClientMap.commands_send_once`. -/

namespace ResourceTree

variable {R : Type}

/-! ## Why a command is refused -/

namespace Verb

/-- The operation that a verb is the word for. -/
def operation : Verb → Operation
  | .get => .fetch
  | .list => .list
  | .post => .create
  | .put => .replace
  | .patch => .merge
  | .delete => .remove

/-- The last argument that a verb needs: its position, and what it is. -/
def needed? : Verb → Option (Nat × String)
  | .get | .delete => some (0, "id")
  | .post => some (0, "body")
  | .put | .patch => some (1, "body")
  | .list => none

/-- The position of the body among the arguments of a verb that takes one. -/
def body? : Verb → Option Nat
  | .post => some 0
  | .put | .patch => some 1
  | .get | .list | .delete => none

end Verb

namespace Command

/-- The fault that an argument is missing which the verb needs. -/
def missing? (c : Command) : Option ClientError :=
  c.verb.needed?.bind fun (position, what) =>
    match c.args[position]? with
    | some _ => none
    | none => some (.invalidCommand ("'" ++ c.verb.word ++ "' needs a " ++ what ++ " argument"))

/-- The fault that an argument of a list command has no `=`; it names the first one. -/
def unassigned? (c : Command) : Option ClientError :=
  if c.verb = .list then
    (c.args.find? fun arg => !arg.toList.contains '=').map fun arg =>
      .invalidCommand ("query argument '" ++ arg ++ "' is not key=value")
  else none

/-- The fault that a body cannot be decoded. -/
def bodyFault? (arg : String) : Option ClientError :=
  match Record.schemaless.decodeText arg with
  | .ok _ => none
  | .error reason => some (.invalidCommand ("invalid JSON body: " ++ reason))

/-- The fault that the body among the arguments cannot be decoded. -/
def undecoded? (c : Command) : Option ClientError :=
  (c.verb.body?.bind fun position => c.args[position]?).bind bodyFault?

/-- The first fault of the arguments of a command. -/
def faulty? (c : Command) : Option ClientError := c.missing?.or (c.unassigned?.or c.undecoded?)

/-- The fault that a command names more or fewer parents than there are ancestors with IDs. -/
def misplaced? (c : Command) (ancestors : Nat) : Option ClientError :=
  if c.parents.length = ancestors then none
  else some (.operation c.verb.operation (.path ⟨c.resource, ancestors, c.parents.length⟩))

end Command

/-- A site is that of the resources of a name. -/
def Site.isOf (name : String) (site : Site R) : Bool :=
  match site.spot with
  | .collection => site.owner.takesId && site.owner.name == name
  | _ => false

namespace Node

/-- Where the resources of a name are in a tree. -/
def resource? (n : Node R) (name : String) : Option (Site R) := n.sites.find? (Site.isOf name)

/-- **Why nothing is sent for a command** to the APIs of a tree: the first of these reasons that applies. -/
def refusal? (n : Node R) (c : Command) : Option ClientError :=
  match n.resource? c.resource with
  | none => some (.unknownResource c.resource)
  | some site => c.faulty?.or (c.misplaced? (site.above.filter Node.takesId).length)

end Node

/-! ## What a command asks for -/

/-- **What a command asks for**: perhaps the ID of a resource, pairs for the query, and a record for the body. -/
inductive Command.Asks (c : Command) : Option String → Option (List (String × String)) → Option Record → Prop
  | get {id : String} {rest : List String} (hverb : c.verb = .get) (hargs : c.args = id :: rest) :
    Asks c (some id) none none
  | list {pairs : List (String × String)} (hverb : c.verb = .list)
    (hargs : List.Forall₂ (fun arg pair => Assigns arg pair.1 pair.2) c.args pairs) : Asks c none (some pairs) none
  | post {body : String} {rest : List String} {r : Record} (hverb : c.verb = .post) (hargs : c.args = body :: rest)
    (hbody : Record.schemaless.decodeText body = .ok r) : Asks c none none (some r)
  | put {id body : String} {rest : List String} {r : Record} (hverb : c.verb = .put)
    (hargs : c.args = id :: body :: rest) (hbody : Record.schemaless.decodeText body = .ok r) :
    Asks c (some id) none (some r)
  | patch {id body : String} {rest : List String} {r : Record} (hverb : c.verb = .patch)
    (hargs : c.args = id :: body :: rest) (hbody : Record.schemaless.decodeText body = .ok r) :
    Asks c (some id) none (some r)
  | delete {id : String} {rest : List String} (hverb : c.verb = .delete) (hargs : c.args = id :: rest) :
    Asks c (some id) none none

/-- **An errand is what a command asks for.** -/
structure Command.Orders (c : Command) (errand : Errand Record) (record : Option Record) : Prop where
  asks : c.Asks errand.id? errand.pairs? record
  operation : errand.operation = c.verb.operation
  parents : errand.parents = c.parents
  body : errand.body? Record.schemaless = record.map fun r => .ok r.encode

/-- **A request is what was asked for**: it goes to this URL with the method of the operation, and its body is the text
of the record, if there is one. If all numbers of the record are whole, the record is decoded from this text. -/
structure Request.Brings (request : Request) (op : Operation) (u : Url) (record : Option Record) : Prop where
  method : request.method = op.method
  path : request.path = u.path
  query : request.query = u.query
  body : request.body = ((record.map fun r => r.encode.text).getD "").toUTF8
  decoded : ∀ r ∈ record, r.Exact → Record.schemaless.decodeText r.encode.text = .ok r

namespace Command

variable {c : Command} {e : ClientError}

theorem bodyOf_of_fault {arg : String} (h : bodyFault? arg = some e) : ClientMap.bodyOf arg = .error e := by
  rw [bodyFault?] at h
  rw [ClientMap.bodyOf]
  cases hdecode : Record.schemaless.decodeText arg with
  | ok r =>
      rw [hdecode] at h
      cases h
  | error reason =>
      rw [hdecode] at h
      cases h
      rfl

theorem exists_bodyOf {arg : String} (h : bodyFault? arg = none) :
    ∃ r, Record.schemaless.decodeText arg = .ok r ∧ ClientMap.bodyOf arg = .ok r := by
  rw [bodyFault?] at h
  rw [ClientMap.bodyOf]
  cases hdecode : Record.schemaless.decodeText arg with
  | ok r => exact ⟨r, rfl, rfl⟩
  | error reason =>
      rw [hdecode] at h
      cases h

/-- The fault of a list command is its first argument without an `=`. -/
theorem mapM_of_unassigned (hverb : c.verb = .list) (h : c.unassigned? = some e) :
    c.args.mapM ClientMap.queryPair = .error e := by
  rw [unassigned?, if_pos hverb] at h
  obtain ⟨arg, hfind, rfl⟩ := Option.map_eq_some_iff.mp h
  obtain ⟨harg, before, after, hcut, hbefore⟩ := List.find?_eq_some_iff_append.mp hfind
  rw [hcut]
  exact ClientMap.mapM_queryPair_of_first (fun other hother => by simpa using hbefore other hother)
    (by simpa using harg)

theorem forall_mem_of_assigned (hverb : c.verb = .list) (h : c.unassigned? = none) :
    ∀ arg ∈ c.args, '=' ∈ arg.toList := by
  rw [unassigned?, if_pos hverb] at h
  intro arg harg
  simpa using List.find?_eq_none.mp (Option.map_eq_none_iff.mp h) arg harg

/-- **A command with faulty arguments is no errand**, and the first fault is why. -/
theorem errand_of_faulty (h : c.faulty? = some e) : c.errand = .error e := by
  obtain ⟨verb, resource, parents, args⟩ := c
  cases verb with
  | get | delete =>
      cases args with
      | nil =>
          cases h
          rfl
      | cons id rest => cases h
  | list =>
      have hunassigned : unassigned? ⟨.list, resource, parents, args⟩ = some e := by
        rw [← h, faulty?, show undecoded? ⟨.list, resource, parents, args⟩ = none from rfl, Option.or_none]
        rfl
      have hpairs := mapM_of_unassigned rfl hunassigned
      simp only [errand, hpairs]
      rfl
  | post =>
      cases args with
      | nil =>
          cases h
          rfl
      | cons body rest =>
          have hbody : ClientMap.bodyOf body = .error e := bodyOf_of_fault h
          show (ClientMap.bodyOf body >>= _) = .error e
          rw [hbody]
          rfl
  | put | patch =>
      cases args with
      | nil =>
          cases h
          rfl
      | cons id rest =>
          cases rest with
          | nil =>
              cases h
              rfl
          | cons body rest =>
              have hbody : ClientMap.bodyOf body = .error e := bodyOf_of_fault h
              show (ClientMap.bodyOf body >>= _) = .error e
              rw [hbody]
              rfl

/-- **A command without faults is an errand**, which is what it asks for. -/
theorem exists_errand (h : c.faulty? = none) : ∃ errand record, c.errand = .ok errand ∧ c.Orders errand record := by
  obtain ⟨verb, resource, parents, args⟩ := c
  cases verb with
  | get =>
      cases args with
      | nil => cases h
      | cons id rest => exact ⟨.fetch parents id, none, rfl, .get rfl rfl, rfl, rfl, rfl⟩
  | delete =>
      cases args with
      | nil => cases h
      | cons id rest => exact ⟨.remove parents id, none, rfl, .delete rfl rfl, rfl, rfl, rfl⟩
  | list =>
      have hassigned : unassigned? ⟨.list, resource, parents, args⟩ = none :=
        (Option.or_eq_none_iff.mp (Option.or_eq_none_iff.mp h).2).1
      obtain ⟨pairs, hpairs, hassigns⟩ := ClientMap.mapM_queryPair_of_mem (forall_mem_of_assigned rfl hassigned)
      refine ⟨.list parents pairs, none, ?_, .list rfl hassigns, rfl, rfl, rfl⟩
      show (args.mapM ClientMap.queryPair >>= _) = .ok _
      rw [hpairs]
      rfl
  | post =>
      cases args with
      | nil => cases h
      | cons body rest =>
          have hfault : bodyFault? body = none := h
          obtain ⟨r, hdecode, hbody⟩ := exists_bodyOf hfault
          refine ⟨.create parents r, some r, ?_, .post rfl rfl hdecode, rfl, rfl, rfl⟩
          show (ClientMap.bodyOf body >>= _) = .ok _
          rw [hbody]
          rfl
  | put =>
      cases args with
      | nil => cases h
      | cons id rest =>
          cases rest with
          | nil => cases h
          | cons body rest =>
              have hfault : bodyFault? body = none := h
              obtain ⟨r, hdecode, hbody⟩ := exists_bodyOf hfault
              refine ⟨.replace parents id r, some r, ?_, .put rfl rfl hdecode, rfl, rfl, rfl⟩
              show (ClientMap.bodyOf body >>= _) = .ok _
              rw [hbody]
              rfl
  | patch =>
      cases args with
      | nil => cases h
      | cons id rest =>
          cases rest with
          | nil => cases h
          | cons body rest =>
              have hfault : bodyFault? body = none := h
              obtain ⟨r, hdecode, hbody⟩ := exists_bodyOf hfault
              refine ⟨.merge parents id (Record.schemaless.encode r), some r, ?_, .patch rfl rfl hdecode, rfl, rfl, rfl⟩
              show (ClientMap.bodyOf body >>= _) = .ok _
              rw [hbody]
              rfl

end Command

/-! ## The sites of clients -/

namespace ClientMap

variable {n : Node R} {address name : String} {m : ClientMap}

/-- **The client of a name** is for the path of its site. -/
theorem get?_of_resource {site : Site R} (hclients : ofNode address n = .ok m) (h : n.resource? name = some site) :
    site.owner.name = name
      ∧ ∃ codes, m.get? name = some (.forPath address (site.path .root) Record.schemaless codes) := by
  have hmem : site ∈ n.sites := List.mem_of_find?_eq_some h
  have hof : site.isOf name = true := List.find?_some h
  obtain ⟨above, owner, spot⟩ := site
  cases spot with
  | collection =>
      obtain ⟨htakes, hname⟩ := Bool.and_eq_true_iff.mp hof
      obtain ⟨s, hs⟩ := Option.isSome_iff_exists.mp htakes
      rw [beq_iff_eq] at hname
      refine ⟨hname, s.codes, (get?_eq_some_iff hclients).mpr ⟨_, hmem, ?_⟩⟩
      rw [Site.client?, hs]
      exact congrArg some (Prod.ext hname rfl)
  | _ => cases hof

theorem get?_of_no_resource (hclients : ofNode address n = .ok m) (h : n.resource? name = none) :
    m.get? name = none := by
  cases hget : m.get? name with
  | none => rfl
  | some client =>
      obtain ⟨site, hsite, hclient⟩ := (get?_eq_some_iff hclients).mp hget
      have hno := List.find?_eq_none.mp h site hsite
      rw [Site.client?] at hclient
      split at hclient
      · next s hspot hservice =>
          cases hclient
          rw [Site.isOf, hspot, Node.takesId, hservice] at hno
          simp at hno
      · cases hclient

end ClientMap

/-! ## Requests -/

/-- The ancestors of a site are the nodes above it that have resources. -/
theorem Site.length_idAncestors (site : Site R) :
    (site.path .root).idAncestors.length = (site.above.filter Node.takesId).length := by
  rw [RoutePath.idAncestors, segments_path, List.dropLast_concat, List.filter_map, List.length_map]
  rfl

/-- The path of a site is rendered for as many parents as it has ancestors. -/
theorem Site.render_eq_error {site : Site R} {parents : List String}
    (h : parents.length ≠ (site.above.filter Node.takesId).length) (id : Option String) :
    (site.path .root).render parents id
      = .error ⟨site.owner.name, (site.above.filter Node.takesId).length, parents.length⟩ := by
  have hleaf : ((site.path .root).leaf?.map Segment.name).getD "" = site.owner.name := by
    rw [RoutePath.leaf?, segments_path, List.getLast?_concat]
    rfl
  have herror : (site.path .root).render parents id = .error _ :=
    RoutePath.render_eq_error_iff.mpr ⟨by rwa [site.length_idAncestors], rfl⟩
  rw [herror, hleaf, site.length_idAncestors]

/-- An errand that has a URL has a call. -/
theorem Errand.call_of_url {client : Client Record} {errand : Errand Record} {record : Option Record} {text : String}
    (hurl : client.url errand.parents errand.id? = .ok text)
    (hbody : errand.body? client.kind = record.map fun r => .ok r.encode) :
    errand.call client = .ok ⟨errand.operation.method, text, errand.pairs?, record.map Record.encode⟩ := by
  rw [Errand.call, hurl, hbody]
  cases record <;> rfl

theorem Call.url?_eq {m : Method} {text : String} {pairs : Option (List (String × String))} {body : Option Json}
    {u : Url} (h : Url.parse? text = some u) :
    Call.url? ⟨m, text, pairs, body⟩ = some (pairs.elim u u.withPairs) := by
  rw [Call.url?, h]
  cases pairs <;> rfl

/-- The request of a call brings the record that is its body. -/
theorem Call.brings_request {call : Call} {op : Operation} {record : Option Record} {text : String}
    (hmethod : call.method = op.method) (hbody : call.body = record.map Record.encode)
    (hrecord : ∀ r ∈ record, Record.schemaless.decodeText text = .ok r) (u : Url) :
    (call.request u).Brings op u record where
  method := hmethod
  path := rfl
  query := rfl
  body := by
    rw [Call.request, hbody, Option.map_map]
    rfl
  decoded r hr := Record.decodeText_encode (hrecord r hr)

/-- The record that a command asks to send is decoded from one of its arguments. -/
theorem Command.Asks.decoded {c : Command} {leaf : Option String} {pairs : Option (List (String × String))}
    {record : Option Record} (h : c.Asks leaf pairs record) :
    ∃ text, ∀ r ∈ record, Record.schemaless.decodeText text = .ok r := by
  cases h with
  | get _ _ | list _ _ | delete _ _ => exact ⟨"", fun r hr => by cases hr⟩
  | @post text _ _ _ _ hbody | @put _ text _ _ _ _ hbody | @patch _ text _ _ _ _ hbody =>
      refine ⟨text, fun r hr => ?_⟩
      cases hr
      exact hbody

namespace ClientMap

variable {n : Node R} {address : String} {server : Url} {m : ClientMap} {c : Command} {e : ClientError}

/-- **A command that there is a reason to refuse** is refused for this reason. -/
theorem refuses_of_refusal (hclients : ofNode address n = .ok m) (h : n.refusal? c = some e) : m.Refuses c e := by
  rw [Node.refusal?] at h
  split at h
  · next hnone =>
      cases h
      exact refuses_of_unknown (get?_of_no_resource hclients hnone)
  · next site hsite =>
      obtain ⟨hname, codes, hget⟩ := get?_of_resource hclients hsite
      cases hfaulty : c.faulty? with
      | some fault =>
          rw [hfaulty] at h
          cases h
          exact refuses_of_no_errand hget (Command.errand_of_faulty hfaulty)
      | none =>
          obtain ⟨errand, record, herrand, horders⟩ := Command.exists_errand hfaulty
          rw [hfaulty, Option.none_or, Command.misplaced?] at h
          split at h
          · cases h
          · next hlength =>
              cases h
              rw [← horders.operation]
              refine refuses_of_no_call hget rfl herrand ?_
              rw [Errand.call, horders.parents, Client.url, Client.forPath, Site.render_eq_error hlength, hname]
              rfl

/-- **A command that there is no reason to refuse** sends the request for what it asks for. -/
theorem exists_request (hserver : Url.serverAt? address = some server) (hclients : ofNode address n = .ok m)
    (h : n.refusal? c = none) : ∃ site leaf pairs record path u request,
      n.resource? c.resource = some site ∧ c.Asks leaf pairs record
      ∧ (site.path .root).render c.parents leaf = .ok path
      ∧ Url.parse? (Client.trimAddress address ++ path) = some u ∧ u.server = server
      ∧ m.SendsOnly c (pairs.elim u u.withPairs) request
      ∧ request.Brings c.verb.operation (pairs.elim u u.withPairs) record := by
  rw [Node.refusal?] at h
  split at h
  · cases h
  · next site hsite =>
      obtain ⟨-, codes, hget⟩ := get?_of_resource hclients hsite
      obtain ⟨hfaulty, hplaced⟩ := Option.or_eq_none_iff.mp h
      obtain ⟨errand, record, herrand, horders⟩ := Command.exists_errand hfaulty
      have hlength : c.parents.length = (site.path .root).idAncestors.length := by
        rw [Command.misplaced?] at hplaced
        split at hplaced
        · next hlength => rw [hlength, site.length_idAncestors]
        · cases hplaced
      have hpath := RoutePath.render_eq hlength errand.id?
      have hslash : (absolutePath ((site.path .root).renderedParts c.parents errand.id?)).toList.head? = some '/' :=
        congrArg List.head? (absolutePath_eq _)
      obtain ⟨u, hparse, hweb, hsame⟩ := Url.exists_parse?_of_serverAt? hserver hslash
      obtain ⟨body, hrecord⟩ := horders.asks.decoded
      have htext : (Client.forPath address (site.path .root) Record.schemaless codes).url errand.parents errand.id?
          = .ok (Client.trimAddress address
            ++ absolutePath ((site.path .root).renderedParts c.parents errand.id?)) := by
        rw [horders.parents, Client.url, Client.forPath, hpath]
      have hweb' : (errand.pairs?.elim u u.withPairs).isWeb = true := by
        cases errand.pairs? <;> exact hweb
      have hmethod : errand.operation.method = c.verb.operation.method := by rw [horders.operation]
      exact ⟨site, errand.id?, errand.pairs?, record, _, u, _, hsite, horders.asks, hpath, hparse, hsame,
        sendsOnly_of_call hget rfl herrand (Errand.call_of_url htext horders.body) (Call.url?_eq hparse) hweb',
        Call.brings_request hmethod rfl hrecord _⟩

/-- **A command sends nothing or exactly one request.** Take the clients of a tree on a server, and any command. If
there is a reason to refuse it, the first one is its outcome over any network, and nothing has changed. If there is
none, one request is handed to the network: it has the method of the verb, it goes to the URL of the resource below the
given parents, with the ID and the query that were asked for, and if there is a body the record is decoded from it that
was given. So over any network nothing is sent just if there is a reason. -/
theorem commands_send_once {n : Node R} {address : String} {server : Url} {m : ClientMap}
    (hserver : Url.serverAt? address = some server) (hclients : ofNode address n = .ok m) (c : Command) :
    (∀ e, n.refusal? c = some e → m.Refuses c e)
    ∧ (n.refusal? c = none → ∃ site leaf pairs record path u request,
        n.resource? c.resource = some site ∧ c.Asks leaf pairs record
        ∧ (site.path .root).render c.parents leaf = .ok path
        ∧ Url.parse? (Client.trimAddress address ++ path) = some u ∧ u.server = server
        ∧ m.SendsOnly c (pairs.elim u u.withPairs) request
        ∧ request.Brings c.verb.operation (pairs.elim u u.withPairs) record)
    ∧ ∀ (W : Type) (net : Network W) (w : W), m.sent net c w = [] ↔ ∃ e, n.refusal? c = some e := by
  refine ⟨fun e he => refuses_of_refusal hclients he, exists_request hserver hclients, fun W net w => ?_⟩
  constructor
  · intro hsent
    cases hrefusal : n.refusal? c with
    | some e => exact ⟨e, rfl⟩
    | none =>
        obtain ⟨site, leaf, pairs, record, path, u, request, -, -, -, -, -, hsends, -⟩ :=
          exists_request hserver hclients hrefusal
        rw [hsends.sent] at hsent
        cases hsent
  · rintro ⟨e, he⟩
    exact (refuses_of_refusal hclients he).sent net w

end ClientMap

namespace Library

/-- An album as an argument. -/
def albumText : String := "\x7b\"title\": \"A\", \"year\": 1990\x7d"

/-- The command to put it where it belongs. -/
def putCommand : Command := ⟨.put, "albums", ["a 1"], ["x", albumText]⟩

/-- What it is decoded to. -/
def putAlbum : Record := ⟨Identity.blank, [("title", .str "A"), ("year", .nat 1990)]⟩

theorem decodeText_albumText : Record.schemaless.decodeText albumText = .ok putAlbum := by cbv

theorem exact_putAlbum : putAlbum.Exact := by
  intro field hfield
  rcases List.mem_cons.mp hfield with rfl | hfield
  · exact .str "A"
  · rw [List.mem_singleton.mp hfield]
    exact .whole 1990

end Library

namespace ClientMap

open Library in
/-- An album is put where it belongs, unless it is not said where, or there is no album. -/
theorem commands_send_once_library :
    (∃ request text, Library.clients.SendsOnly putCommand albumUrl request ∧ request.method = .put
      ∧ request.body = text.toUTF8 ∧ Record.schemaless.decodeText text = .ok putAlbum)
    ∧ Library.clients.Refuses ⟨.put, "albums", [], ["x", albumText]⟩ (.operation .replace (.path ⟨"albums", 1, 0⟩))
    ∧ Library.clients.Refuses ⟨.put, "albums", [], ["x"]⟩ (.invalidCommand "'put' needs a body argument") := by
  have hserver : Url.serverAt? "http://library/" = some ⟨"http", "library", none, "/", none, none⟩ := by decide +kernel
  have hsent := commands_send_once hserver clients_tree
  refine ⟨?_, (hsent _).1 _ (by decide +kernel), (hsent _).1 _ (by decide +kernel)⟩
  obtain ⟨site, leaf, pairs, record, path, u, request, hsite, hasks, hpath, hparse, -, hsends, hbrings⟩ :=
    (hsent putCommand).2.1 (by decide +kernel)
  have halbums : tree.resource? "albums" = some albumsSite := rfl
  cases halbums.symm.trans hsite
  cases hasks with
  | put _ hargs hbody =>
      cases hargs
      cases decodeText_albumText.symm.trans hbody
      have hrendered : (albumsSite.path .root).render ["a 1"] (some "x") = .ok "/artists/a%201/albums/x" := by
        decide +kernel
      cases hrendered.symm.trans hpath
      have hurl : Url.parse? (Client.trimAddress "http://library/" ++ "/artists/a%201/albums/x") = some albumUrl := by
        decide +kernel
      cases hurl.symm.trans hparse
      exact ⟨request, _, hsends, hbrings.method, hbrings.body, hbrings.decoded _ rfl exact_putAlbum⟩
  | get hverb _ => cases hverb
  | list hverb _ => cases hverb
  | post hverb _ _ => cases hverb
  | patch hverb _ _ => cases hverb
  | delete hverb _ => cases hverb

end ClientMap

end ResourceTree
