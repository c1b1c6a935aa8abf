import ResourceTree.Client.Map
import ResourceTree.Proofs.TreeRoutes

/-! # Errands of clients

An operation of a client with its arguments is an `Errand`. All six kinds go the same way: a call is made, the
network answers it, and the outcome is read from what arrives of the answer (`Errand.run_of_answered`). A client is
offered by a tree if it is made for the resources of one of its sites (`Node.Offers`), as are those of a
`ClientMap` and those found by names. -/

namespace ResourceTree

variable {A R W : Type}

/-- An operation of a client with its arguments. -/
inductive Errand (A : Type) where
  | list (parents : List String) (pairs : List (String × String))
  | fetch (parents : List String) (id : String)
  | create (parents : List String) (r : A)
  | replace (parents : List String) (id : String) (r : A)
  | merge (parents : List String) (id : String) (update : Except String Json)
  | remove (parents : List String) (id : String)

namespace Exchange

/-- The data of what arrived, if the status is the expected one. -/
def settle {α : Type} (expected : Nat) (decode : String → Except String α) (url : String) (received : Received) :
    Except ClientError (Received × Option α) :=
  if received.status = expected then (dataOf decode url received.body).map fun data => (received, data)
  else .error (.unexpected received.status received.body)

variable {α β : Type} {net : Network W} {call : Call} {w w' : W} {url : String} {received : Received}

theorem bind_of_ok {x : Exchange W α} {a : α} (h : x w = (.ok a, w')) (f : α → Exchange W β) :
    (x >>= f) w = f a w' := by rw [bind_apply, h]

theorem bind_of_lift {x : Except ClientError α} {a : α} (h : x = .ok a) (f : α → Exchange W β) :
    (lift x >>= f) w = f a w := by
  subst h
  exact bind_of_ok rfl f

theorem during_of {x : Exchange W α} {r : Except ClientError α} (h : x w = (r, w')) (op : Operation) :
    during op x w = (r.mapError (.operation op), w') := by
  rw [during, h]
  cases r <;> rfl

/-- A call that is answered is settled by what arrives. -/
theorem perform_of_sent (h : send net call w = (.ok (url, received), w')) (expected : Nat)
    (decode : String → Except String α) :
    perform net call expected decode w = (settle expected decode url received, w') := by
  rw [perform, bind_of_ok h, settle]
  by_cases hstatus : received.status = expected
  · simp only [if_pos hstatus]
    cases dataOf decode url received.body <;> rfl
  · simp only [if_neg hstatus]
    rfl

/-- So is one whose answer must have data. -/
theorem perform_required (h : send net call w = (.ok (url, received), w')) (expected : Nat)
    (decode : String → Except String α) (address : String) :
    (perform net call expected decode >>= fun answer => lift (required address answer)) w
      = (settle expected decode url received >>= required address, w') := by
  rw [bind_apply, perform_of_sent h]
  cases settle expected decode url received <;> rfl

/-- So is one whose answer may have any data or none. -/
theorem perform_done (h : send net call w = (.ok (url, received), w')) (expected : Nat)
    (decode : String → Except String α) :
    (perform net call expected decode >>= fun _ => pure ()) w
      = ((settle expected decode url received).map fun _ => (), w') := by
  rw [bind_apply, perform_of_sent h]
  cases settle expected decode url received <;> rfl

/-- What arrives of an answer. -/
theorem send_of_answered {u : Url} {response : Response} (hurl : call.url? = some u) (hweb : u.isWeb = true)
    (h : net u (call.request u) w = (some response, w')) :
    send net call w = (.ok (u.text, .ofResponse call.method response), w') := by
  simp [send, hurl, hweb, bind_apply, ask, h]

end Exchange

namespace Client

/-- The resource that arrives as the answer to a method. -/
def answered (client : Client A) (m : Method) (address url : String) (received : Received) :
    Except ClientError A :=
  Exchange.settle (client.codes.get m) client.kind.decodeText url received >>= Exchange.required address

/-- Sending a body comes out as what is read of the answer. -/
theorem sendBody_of_sent {client : Client A} {net : Network W} {op : Operation} {parents : List String}
    {id : Option String} {body : Except String Json} {value : Json} {address url : String} {received : Received}
    {w w' : W} (haddress : client.url parents id = .ok address)
    (hbody : body.mapError ClientError.encode = .ok value)
    (hsent : Exchange.send net { method := op.method, address := address, body := some value } w
      = (.ok (url, received), w')) :
    client.sendBody net op parents id body w
      = ((client.answered op.method address url received).mapError (.operation op), w') :=
  Exchange.during_of ((Exchange.bind_of_lift haddress _).trans ((Exchange.bind_of_lift hbody _).trans
    (Exchange.perform_required hsent _ client.kind.decodeText address))) op

end Client

namespace Errand

/-- Which of the six operations it is. -/
def operation : Errand A → Operation
  | .list _ _ => .list
  | .fetch _ _ => .fetch
  | .create _ _ => .create
  | .replace _ _ _ => .replace
  | .merge _ _ _ => .merge
  | .remove _ _ => .remove

/-- The IDs of the ancestors. -/
def parents : Errand A → List String
  | .list parents _ | .fetch parents _ | .create parents _ | .replace parents _ _ | .merge parents _ _
  | .remove parents _ => parents

/-- The ID of the resource that it is about, if it is about one. -/
def id? : Errand A → Option String
  | .list _ _ | .create _ _ => none
  | .fetch _ id | .replace _ id _ | .merge _ id _ | .remove _ id => some id

/-- The pairs that are added to the query. -/
def pairs? : Errand A → Option (List (String × String))
  | .list _ pairs => some pairs
  | _ => none

/-- The body that is sent, if one is. -/
def body? (kind : Kind A) : Errand A → Option (Except String Json)
  | .create _ r | .replace _ _ r => some (kind.encode r)
  | .merge _ _ update => some update
  | _ => none

/-- The call by which a client runs it. -/
def call (client : Client A) (errand : Errand A) : Except ClientError Call := do
  let url ← client.url errand.parents errand.id?
  let body ← (errand.body? client.kind).mapM (Except.mapError ClientError.encode)
  return { method := errand.operation.method, address := url, pairs := errand.pairs?, body := body }

/-- What it gives. -/
def Result : Errand A → Type
  | .list _ _ => List A
  | .remove _ _ => Unit
  | _ => A

/-- Runs it with a client. -/
def run (client : Client A) (net : Network W) : (errand : Errand A) → Exchange W errand.Result
  | .list parents pairs => client.list net parents pairs
  | .fetch parents id => client.get net parents id
  | .create parents r => client.post net parents r
  | .replace parents id r => client.put net parents id r
  | .merge parents id update => client.patch net parents id update
  | .remove parents id => client.delete net parents id

/-- What comes of it when this arrives of the answer to its call. -/
def outcome (client : Client A) (address url : String) (received : Received) :
    (errand : Errand A) → Except ClientError errand.Result
  | .list _ _ =>
    Exchange.settle (client.codes.get .get) client.kind.decodeList url received >>= Exchange.required address
  | .fetch _ _ => client.answered .get address url received
  | .create _ _ => client.answered .post address url received
  | .replace _ _ _ => client.answered .put address url received
  | .merge _ _ _ => client.answered .patch address url received
  | .remove _ _ =>
    (Exchange.settle (client.codes.get .delete) Json.decodeText url received).map fun _ => ()

variable {client : Client A} {errand : Errand A} {call : Call} {net : Network W} {u : Url} {response : Response}
  {w w' : W}

/-- The method of a call is that of the operation. -/
theorem method_of_call (h : errand.call client = .ok call) : call.method = errand.operation.method := by
  obtain ⟨url, -, hrest⟩ := except_bind_eq_ok h
  obtain ⟨body, -, hrest⟩ := except_bind_eq_ok hrest
  cases hrest
  rfl

theorem mapM_some_eq_ok {x : Except String Json} {body : Option Json}
    (h : (some x).mapM (Except.mapError ClientError.encode) = .ok body) :
    ∃ value, x.mapError ClientError.encode = .ok value ∧ body = some value := by
  cases x with
  | error reason => cases h
  | ok value =>
      cases h
      exact ⟨value, rfl, rfl⟩

/-- **An errand whose call is answered** comes out as what is read of the answer. -/
theorem run_of_answered (hcall : errand.call client = .ok call) (hurl : call.url? = some u)
    (hweb : u.isWeb = true) (hnet : net u (call.request u) w = (some response, w')) :
    errand.run client net w = ((errand.outcome client call.address u.text
      (.ofResponse call.method response)).mapError (.operation errand.operation), w') := by
  have hsent := Exchange.send_of_answered hurl hweb hnet
  obtain ⟨url, haddress, hrest⟩ := except_bind_eq_ok hcall
  obtain ⟨body, hbody, hrest⟩ := except_bind_eq_ok hrest
  cases errand with
  | list parents pairs =>
      cases hbody
      cases hrest
      exact Exchange.during_of ((Exchange.bind_of_lift haddress _).trans
        (Exchange.perform_required hsent _ client.kind.decodeList url)) .list
  | fetch parents id =>
      cases hbody
      cases hrest
      exact Exchange.during_of ((Exchange.bind_of_lift haddress _).trans
        (Exchange.perform_required hsent _ client.kind.decodeText url)) .fetch
  | create parents r =>
      obtain ⟨value, hvalue, rfl⟩ := mapM_some_eq_ok hbody
      cases hrest
      exact client.sendBody_of_sent haddress hvalue hsent
  | replace parents id r =>
      obtain ⟨value, hvalue, rfl⟩ := mapM_some_eq_ok hbody
      cases hrest
      exact client.sendBody_of_sent haddress hvalue hsent
  | merge parents id update =>
      obtain ⟨value, hvalue, rfl⟩ := mapM_some_eq_ok hbody
      cases hrest
      exact client.sendBody_of_sent haddress hvalue hsent
  | remove parents id =>
      cases hbody
      cases hrest
      exact Exchange.during_of ((Exchange.bind_of_lift haddress _).trans
        (Exchange.perform_done hsent _ Json.decodeText)) .remove

/-- **An answer of an unexpected status** is reported as such, whatever the errand. -/
theorem outcome_of_unexpected {received : Received} (address url : String)
    (h : received.status ≠ client.codes.get errand.operation.method) :
    errand.outcome client address url received = .error (.unexpected received.status received.body) := by
  have hsettle {α : Type} (decode : String → Except String α) :
      Exchange.settle (client.codes.get errand.operation.method) decode url received
        = .error (.unexpected received.status received.body) := if_neg h
  cases errand with
  | list parents pairs => exact congrArg (· >>= Exchange.required address) (hsettle client.kind.decodeList)
  | fetch parents id => exact congrArg (· >>= Exchange.required address) (hsettle client.kind.decodeText)
  | create parents r => exact congrArg (· >>= Exchange.required address) (hsettle client.kind.decodeText)
  | replace parents id r => exact congrArg (· >>= Exchange.required address) (hsettle client.kind.decodeText)
  | merge parents id update => exact congrArg (· >>= Exchange.required address) (hsettle client.kind.decodeText)
  | remove parents id => exact congrArg (Except.map fun _ => ()) (hsettle Json.decodeText)

end Errand

/-! ## Clients of a tree -/

/-- The client of a site where the resources of a node are, under the name of the node. -/
def Site.client? (address : String) (parent : RoutePath) (site : Site R) : Option (String × Client Record) :=
  match site.spot, site.owner.service with
  | .collection, some s =>
    some (site.owner.name, .forPath address (site.path parent) Record.schemaless s.codes)
  | _, _ => none

theorem Site.client?_under (address : String) (parent : RoutePath) (n : Node R) :
    Site.client? address parent ∘ Site.under n = Site.client? address (n.pathBelow parent) := by
  funext site
  rw [Function.comp_apply, client?, path_under]
  rfl

namespace ClientMap

/-- A client that is added comes last, and its name is new. -/
theorem add_ok {m m' : ClientMap} {name : String} {c : Client Record} (h : m.add name c = .ok m') :
    m'.clients = m.clients ++ [(name, c)] ∧ name ∉ m.clients.map Prod.fst := by
  rw [add] at h
  cases hget : m.get? name with
  | some c' => simp [hget] at h
  | none =>
      simp only [hget] at h
      cases h
      refine ⟨rfl, fun hmem => ?_⟩
      obtain ⟨entry, hentry, rfl⟩ := List.mem_map.mp hmem
      have hne := List.lookup_eq_none_iff.mp hget entry hentry
      simp at hne

/-- The clients of a map when those of some sites have been added to another one. -/
structure Collected (address : String) (parent : RoutePath) (sites : List (Site R)) (m m' : ClientMap) :
    Prop where
  clients : m'.clients = m.clients ++ sites.filterMap (Site.client? address parent)
  nodup : (m.clients.map Prod.fst).Nodup → (m'.clients.map Prod.fst).Nodup

/-- The clients of a node are its own one, if it is an API, and those of the nodes below. -/
theorem filterMap_sites (address : String) (parent : RoutePath) (n : Node R) :
    n.sites.filterMap (Site.client? address parent)
      = (n.service.map fun s =>
          (n.name, Client.forPath address (n.pathBelow parent) Record.schemaless s.codes)).toList
        ++ (Node.sitesOf n.children).filterMap (Site.client? address (n.pathBelow parent)) := by
  have hbare {α : Type} (rs : List α) (spot : α → Spot R) (h : ∀ r, spot r ≠ .collection) :
      (rs.map fun r => (⟨[], n, spot r⟩ : Site R)).filterMap (Site.client? address parent) = [] := by
    refine List.filterMap_eq_nil_iff.mpr fun site hsite => ?_
    obtain ⟨r, -, rfl⟩ := List.mem_map.mp hsite
    rw [Site.client?]
    split
    · next hspot _ => exact absurd hspot (h r)
    · rfl
  cases n with
  | mk frame service children =>
      have hcustom := hbare frame.routes Spot.custom fun r h => by cases h
      have hroot := hbare frame.rootRoutes Spot.root fun r h => by cases h
      cases service with
      | none =>
          rw [Node.sites]
          simp only [List.filterMap_append, hcustom, hroot, List.filterMap_map, Site.client?_under]
          rw [List.append_nil]
          rfl
      | some s =>
          have honId := hbare s.idRoutes Spot.onId fun r h => by cases h
          rw [Node.sites]
          simp only [List.filterMap_append, List.filterMap_cons, hcustom, hroot, honId, List.filterMap_map,
            Site.client?_under]
          rw [List.append_nil]
          rfl

mutual

/-- **The clients of a tree** are those of its sites, by induction on the tree. -/
theorem collect_ok {address : String} {parent : RoutePath} {m m' : ClientMap} (n : Node R)
    (h : collect address parent m n = .ok m') : Collected address parent n.sites m m' := by
  match n with
  | .mk frame none children =>
      rw [collect] at h
      have hchildren := collectAll_ok children h
      refine ⟨?_, hchildren.nodup⟩
      rw [hchildren.clients, filterMap_sites]
      rfl
  | .mk frame (some s) children =>
      rw [collect] at h
      obtain ⟨m₁, hadd, h⟩ := except_bind_eq_ok h
      obtain ⟨hclients, hnew⟩ := add_ok hadd
      have hchildren := collectAll_ok children h
      refine ⟨?_, fun hm => hchildren.nodup ?_⟩
      · rw [hchildren.clients, hclients, filterMap_sites, List.append_assoc]
        rfl
      · rw [hclients, List.map_append]
        refine List.nodup_append.mpr ⟨hm, List.pairwise_singleton _ _, fun name hname other hother => ?_⟩
        rintro rfl
        obtain rfl := List.mem_singleton.mp hother
        exact hnew hname

/-- The clients of siblings are those of their sites. -/
theorem collectAll_ok {address : String} {parent : RoutePath} {m m' : ClientMap} (ns : List (Node R))
    (h : collectAll address parent m ns = .ok m') : Collected address parent (Node.sitesOf ns) m m' := by
  match ns with
  | [] =>
      cases h
      exact ⟨(List.append_nil _).symm, id⟩
  | n :: ns =>
      rw [collectAll] at h
      obtain ⟨m₁, hfirst, h⟩ := except_bind_eq_ok h
      obtain ⟨hfirst, hnodup⟩ := collect_ok n hfirst
      obtain ⟨hmore, hnodups⟩ := collectAll_ok ns h
      refine ⟨?_, hnodups ∘ hnodup⟩
      rw [hmore, hfirst, Node.sitesOf, List.filterMap_append, List.append_assoc]

end

/-- **The client of a name** is that of the one site where an API of this name has its resources. -/
theorem get?_eq_some_iff {n : Node R} {address : String} {m : ClientMap} (h : ofNode address n = .ok m)
    {name : String} {c : Client Record} :
    m.get? name = some c ↔ ∃ site ∈ n.sites, site.client? address .root = some (name, c) := by
  obtain ⟨hclients, hnodup⟩ := collect_ok n h
  rw [List.nil_append] at hclients
  rw [← List.mem_filterMap, ← hclients, get?, List.lookup_eq_some_iff]
  constructor
  · rintro ⟨before, after, heq, -⟩
    rw [heq]
    exact List.mem_append_right _ List.mem_cons_self
  · intro hmem
    obtain ⟨before, after, heq⟩ := List.append_of_mem hmem
    refine ⟨before, after, heq, fun entry hentry => ?_⟩
    have hnames := hnodup List.nodup_nil
    rw [heq, List.map_append, List.nodup_append] at hnames
    have hne := hnames.2.2 _ (List.mem_map_of_mem hentry) _ (List.mem_map_of_mem List.mem_cons_self)
    simpa using hne.symm

end ClientMap

namespace Node

/-- **A tree offers a client** for the resources of an API if the client has the path of the API and expects the
status codes of its service, whatever kind of resources it decodes. -/
def Offers (n : Node R) (address : String) (s : Service R) (client : Client A) : Prop :=
  ∃ site ∈ n.sites, site.spot = .collection ∧ site.owner.service = some s
    ∧ ∃ kind, client = .forPath address (site.path .root) kind s.codes

variable {n target : Node R} {s : Service R} {address : String}

theorem Offers.codes {client : Client A} (h : n.Offers address s client) : client.codes = s.codes := by
  obtain ⟨site, -, -, -, kind, rfl⟩ := h
  rfl

/-- The clients of a map are offered by the tree. -/
theorem offers_of_get? {m : ClientMap} (h : ClientMap.ofNode address n = .ok m) {name : String}
    {c : Client Record} (hget : m.get? name = some c) : ∃ s, n.Offers address s c := by
  obtain ⟨site, hsite, hclient⟩ := (ClientMap.get?_eq_some_iff h).mp hget
  rw [Site.client?] at hclient
  split at hclient
  · next s hspot hservice =>
      cases hclient
      exact ⟨s, site, hsite, hspot, hservice, _, rfl⟩
  · cases hclient

/-- An API has a site for its resources. -/
theorem collection_mem_sites (h : n.service = some s) : ⟨[], n, .collection⟩ ∈ n.sites := by
  cases n with
  | mk frame service children =>
      cases h
      rw [sites]
      simp

theorem mem_sitesOf {ns : List (Node R)} {child : Node R} {site : Site R} (hchild : child ∈ ns)
    (h : site ∈ child.sites) : site ∈ sitesOf ns := by
  induction ns with
  | nil => cases hchild
  | cons first rest ih =>
      rw [sitesOf, List.mem_append]
      rcases List.mem_cons.mp hchild with rfl | hrest
      · exact Or.inl h
      · exact Or.inr (ih hrest)

theorem exists_of_mem_sitesOf {ns : List (Node R)} {site : Site R} (h : site ∈ sitesOf ns) :
    ∃ child ∈ ns, site ∈ child.sites := by
  induction ns with
  | nil => cases h
  | cons n ns ih =>
      rcases List.mem_append.mp h with h | h
      · exact ⟨n, List.mem_cons_self, h⟩
      · obtain ⟨child, hchild, h⟩ := ih h
        exact ⟨child, List.mem_cons_of_mem n hchild, h⟩

/-- The sites of the nodes below are among those of a node. -/
theorem under_mem_sites {child : Node R} {site : Site R} (hchild : child ∈ n.children) (h : site ∈ child.sites) :
    site.under n ∈ n.sites := by
  cases n with
  | mk frame service children =>
      have hmem := List.mem_map_of_mem (f := Site.under (.mk frame service children)) (mem_sitesOf hchild h)
      cases service with
      | none =>
          rw [sites]
          exact List.mem_append_left _ (List.mem_append_right _ hmem)
      | some s =>
          rw [sites]
          exact List.mem_append_left _ (List.mem_append_right _ hmem)

/-- A site without nodes above is one of the top. -/
theorem owner_of_mem_sites {owner : Node R} {spot : Spot R} (h : ⟨[], owner, spot⟩ ∈ n.sites) : owner = n := by
  rcases mem_sites h with ⟨spot', heq, -⟩ | ⟨inner, -, heq⟩
  · cases heq
    rfl
  · cases heq

/-- A site with nodes above is below the top, in the tree of one of the children. -/
theorem exists_child_of_mem_sites {top owner : Node R} {above : List (Node R)} {spot : Spot R}
    (h : ⟨top :: above, owner, spot⟩ ∈ n.sites) :
    top = n ∧ ∃ child ∈ n.children, ⟨above, owner, spot⟩ ∈ child.sites := by
  rcases mem_sites h with ⟨spot', heq, -⟩ | ⟨inner, hinner, heq⟩
  · cases heq
  · cases heq
    exact ⟨rfl, exists_of_mem_sitesOf hinner⟩

/-- Names lead from a node to a site where the resources of an API are. -/
theorem site_of_follow {parent path : RoutePath} {names : List String}
    (h : n.follow (n.pathBelow parent) names = .ok (target, path)) (hs : target.service = some s) :
    ∃ site ∈ n.sites, site.spot = .collection ∧ site.owner = target ∧ path = site.path parent := by
  induction names generalizing n parent with
  | nil =>
      cases h
      exact ⟨_, collection_mem_sites hs, rfl, rfl, rfl⟩
  | cons name names ih =>
      rw [follow] at h
      split at h
      · cases h
      · next child hfind =>
          obtain ⟨site, hsite, hspot, howner, hpath⟩ := ih h
          refine ⟨site.under n, under_mem_sites (List.mem_of_find?_eq_some hfind) hsite, hspot, howner, ?_⟩
          rw [hpath, Site.path_under]

/-- So is the client of the top of the tree for its own kind of resources. -/
theorem offers_of_client? {c : Client R} (h : n.client? address = some c) : ∃ s, n.Offers address s c := by
  obtain ⟨s, hs, rfl⟩ := Option.map_eq_some_iff.mp h
  exact ⟨s, _, collection_mem_sites hs, rfl, hs, s.kind, rfl⟩

/-- And so is a client for the kind of an API that names lead to. -/
theorem offers_of_nestedClient {kind : String} {names : List String} {c : Client R}
    (h : n.nestedClient address kind names = .ok c) : ∃ s, n.Offers address s c := by
  rw [nestedClient] at h
  split at h
  · cases h
  · next target path hfollow =>
      split at h
      · next s hs =>
          split at h
          · cases h
            obtain ⟨site, hsite, hspot, rfl, rfl⟩ := site_of_follow hfollow hs
            exact ⟨s, site, hsite, hspot, hs, s.kind, rfl⟩
          · cases h
      · cases h

end Node

end ResourceTree
