import ResourceTree.Proofs.AncestorResolution
import ResourceTree.Proofs.BuildChecks
import ResourceTree.Proofs.CommandErrands
import ResourceTree.Proofs.DefaultAnswers
import ResourceTree.Proofs.ErrorEnvelopes
import ResourceTree.Proofs.ServerUrls

/-! # Clients and servers agree

The client of an API and the routes of its tree are made from the same path. So the request of an errand is routed to
the operation that it is for, with the IDs that were given (`Site.receives`), and whatever the default handler answers
there is what the client shows, if the middlewares leave it as it is: `commands_agree`. A middleware that changes the
status or the body of an answer, or what the request accepts, comes in between: `commands_part`. -/

namespace ResourceTree

variable {A R W : Type}

/-! ## The request of an errand -/

/-- An ID that can be told from the places in a path: it is not empty, and no dot segment. -/
def IsProperId (id : String) : Prop := id ≠ "" ∧ id ≠ "." ∧ id ≠ ".."

instance (id : String) : Decidable (IsProperId id) := inferInstanceAs (Decidable (_ ∧ _))

namespace Errand

/-- The path of what an errand is about, below the server. -/
def target (errand : Errand A) (path : RoutePath) : String :=
  absolutePath (path.renderedParts errand.parents errand.id?)

end Errand

/-- The parts of a rendered path are left as they are by readers of URLs. -/
theorem RoutePath.steady_renderedParts {path : RoutePath} (hbases : ∀ s ∈ path.segments, IsPlainBase s.base)
    {parents : List String} {id : Option String} (hids : ∀ i ∈ parents ++ id.toList, IsProperId i) :
    ∀ part ∈ path.renderedParts parents id, Url.IsSteady part :=
  forall_renderedParts
    (fun s hs part hpart =>
      have ⟨hdot, hdots, hchars⟩ := hbases s hs part hpart
      .of_plain hdot hdots hchars)
    fun i hi => .encode (hids i hi).2.1 (hids i hi).2.2

/-- Pairs that are added to the query change nothing else. -/
theorem Call.url?_of_parse? {call : Call} {u : Url} (h : Url.parse? call.address = some u) :
    ∃ u', call.url? = some u' ∧ u'.scheme = u.scheme ∧ u'.path = u.path := by
  rw [url?, h]
  cases call.pairs with
  | none => exact ⟨_, rfl, rfl, rfl⟩
  | some pairs => exact ⟨_, rfl, rfl, rfl⟩

namespace Errand

variable {client : Client A} {errand : Errand A}

/-- **The call of an errand** goes to the path of what the errand is about, on the server of the client. -/
theorem exists_call {a : ServerAddress} (haddress : client.address = a.text)
    (hbases : ∀ s ∈ client.path.segments, IsPlainBase s.base)
    (hparents : errand.parents.length = client.path.idAncestors.length)
    (hids : ∀ id ∈ errand.parents ++ errand.id?.toList, IsProperId id)
    (hbody : ∃ body, (errand.body? client.kind).mapM (Except.mapError ClientError.encode) = .ok body) :
    ∃ call u, errand.call client = .ok call ∧ call.url? = some u ∧ u.isWeb = true
      ∧ u.path = errand.target client.path := by
  obtain ⟨body, hbody⟩ := hbody
  have hurl : client.url errand.parents errand.id? = .ok (a.text ++ errand.target client.path) := by
    rw [Client.url, RoutePath.render_eq hparents, haddress]
    rfl
  obtain ⟨call, hcall, hcalled⟩ : ∃ call, errand.call client = .ok call
      ∧ call.address = a.text ++ errand.target client.path := by
    rw [Errand.call, hurl]
    simp only [bind, Except.bind, hbody]
    exact ⟨_, rfl, rfl⟩
  have hparse : Url.parse? call.address = some (a.url (errand.target client.path)) := by
    rw [hcalled]
    exact ServerAddress.parse?_path (RoutePath.cuttable_renderedParts _ fun i hi => (hids i hi).1)
      (RoutePath.steady_renderedParts hbases hids)
  obtain ⟨u, hu, hscheme, hpath⟩ := Call.url?_of_parse? hparse
  refine ⟨call, u, hcall, hu, ?_, hpath⟩
  rw [Url.isWeb, hscheme]
  exact a.url_isWeb (errand.target client.path)

end Errand

/-! ## Where the request arrives -/

namespace Site

/-- The site of the same node where an operation is served. -/
def serving (site : Site R) (op : Operation) : Site R :=
  { site with spot := if op.onItem then .item else .collection }

/-- An API that has its resources at a site has a site for each of them. -/
theorem serving_mem_sites {n : Node R} {site : Site R} {s : Service R} (hsite : site ∈ n.sites)
    (hspot : site.spot = .collection) (hs : site.owner.service = some s) (op : Operation) :
    site.serving op ∈ n.sites := by
  obtain ⟨above, owner, spot⟩ := site
  subst hspot
  induction above generalizing n with
  | nil =>
      cases Node.owner_of_mem_sites hsite
      rw [serving]
      cases owner with
      | mk frame service children =>
          cases hs
          rw [Node.sites]
          split <;> simp
  | cons top above ih =>
      obtain ⟨rfl, child, hchild, hmem⟩ := Node.exists_child_of_mem_sites hsite
      exact Node.under_mem_sites hchild (ih hmem hs)

variable {site : Site R} {s : Service R}

/-- The segments of a site's path. -/
theorem segments_path (site : Site R) :
    (site.path .root).segments = site.above.map Node.segment ++ [site.owner.segment] := by
  rw [path, RoutePath.below, chain, List.map_append]
  rfl

/-- The pattern of an operation's route is that of the resources or that of one resource. -/
theorem pattern_serving (site : Site R) (op : Operation) :
    ((site.serving op).route .root).pattern
      = (site.path .root).pattern (if op.onItem then some site.owner.segment else none) := by
  have hleaf : (site.path .root).leaf? = some site.owner.segment := by
    rw [RoutePath.leaf?, segments_path, List.getLast?_concat]
  cases op with
  | list | create => rfl
  | fetch | replace | merge | remove => exact congrArg (site.path .root).pattern hleaf

/-- Without handlers in the place of default ones, the default handler answers the operation's method. -/
theorem endpoint_serving (hs : site.owner.service = some s) (hoverrides : s.overrides = []) (op : Operation) :
    ((site.serving op).route .root).endpoint? op.method
      = some (.operation (s.collection site.owner.name (site.path .root).names) op) := by
  have hendpoint (c : Collection R) (op : Operation) : s.endpoint c op = (op.method, .operation c op) := by
    rw [Service.endpoint, hoverrides]
    rfl
  have hmethods (ops : List Operation) : Spot.operations site.owner (site.path .root) ops
      = ops.map fun op => (op.method, .operation (s.collection site.owner.name (site.path .root).names) op) := by
    rw [Spot.operations, hs]
    exact List.map_congr_left fun op _ => hendpoint _ op
  have hlookup : ((site.serving op).route .root).methods.lookup op.method
      = some (.operation (s.collection site.owner.name (site.path .root).names) op) := by
    have hserved : ((site.serving op).route .root).methods = Spot.operations site.owner (site.path .root)
        (if op.onItem then Operation.ofItem else Operation.ofCollection) := by cases op <;> rfl
    rw [hserved, hmethods]
    cases op <;> rfl
  simp only [Route.endpoint?, hlookup]

/-- **A site receives a request for an operation**: the request is routed to the operation of the site's owner, and
whenever it passes the layers there, the context has these IDs, one for each ancestor that takes an ID and one for the
owner if the operation is on one resource. -/
structure Receives (site : Site R) (routes : List (Route R)) (request : Request) (taken : List (String × String))
    (c : Collection R) (op : Operation) (ids : List String) : Prop where
  lookup : Route.lookup (routes.map fun r => (r.pattern, r)) request.path
    = some ((site.serving op).route .root, taken)
  endpoint : ((site.serving op).route .root).endpoint? request.method = some (.operation c op)
  ids : ∀ {i : Inflight R} {env : Env} {w w' : World R},
    Layer.descend ((site.serving op).route .root).layers (Router.dispatched request taken) env w
        = (.ok (.arrived i), w')
      → ((site.path .root).addressed (if op.onItem then some site.owner.segment else none)).map
          (fun s => i.context.id? s.name) = ids.map some

/-- A path that matches no patterns of a router but those of the resources of a site. -/
def OnlyMatch (site : Site R) (routes : List (Route R)) (path : String) : Prop :=
  ∀ route ∈ routes, ∀ texts, Route.Matches (Route.piecesOfPattern route.pattern) (Text.splitOn '/' path.toList) texts →
    route.pattern = (site.path .root).collectionPattern ∨ route.pattern = (site.path .root).itemPattern

/-- The patterns that a path matches are found by searching for it in each of them alone. -/
theorem onlyMatch_of_search {routes : List (Route R)} {path : String}
    (h : ∀ route ∈ routes, (Route.search [(⟨Route.piecesOfPattern route.pattern, [], ()⟩ : Route.Candidate Unit)]
        (Text.splitOn '/' path.toList)).isSome = true →
      route.pattern = (site.path .root).collectionPattern ∨ route.pattern = (site.path .root).itemPattern) :
    site.OnlyMatch routes path := fun route hroute _ hmatch =>
  h route hroute (Route.search_complete List.mem_cons_self hmatch)

/-- Of the patterns of the resources of a site the path of a request matches only one. -/
theorem pattern_of_onlyMatch (site : Site R) (hbases : ∀ s ∈ (site.path .root).segments, IsPlainBase s.base)
    {op : Operation} {pattern : String} {segments : List (List Char)} {taken taken' : List (String × List Char)}
    (honly : pattern = (site.path .root).collectionPattern ∨ pattern = (site.path .root).itemPattern)
    (h : Route.Matches (Route.piecesOfPattern pattern) segments taken)
    (h' : Route.Matches (Route.piecesOfPattern ((site.serving op).route .root).pattern) segments taken') :
    pattern = ((site.serving op).route .root).pattern := by
  have hdisjoint {taken taken' : List (String × List Char)}
      (h : Route.Matches (Route.piecesOfPattern (site.path .root).collectionPattern) segments taken)
      (h' : Route.Matches (Route.piecesOfPattern (site.path .root).itemPattern) segments taken') : False :=
    RoutePath.not_matches_both (segments_path site) (fun s hs => (hbases s hs).braceless) h h'
  have hserving : ((site.serving op).route .root).pattern = (site.path .root).collectionPattern
      ∨ ((site.serving op).route .root).pattern = (site.path .root).itemPattern := by
    cases op <;> first | exact Or.inl rfl | exact Or.inr rfl
  rcases honly with rfl | rfl <;> rcases hserving with hserving | hserving
  · exact hserving.symm
  · exact (hdisjoint h (hserving ▸ h')).elim
  · exact (hdisjoint (hserving ▸ h') h).elim
  · exact hserving.symm

/-- **The request of an errand is received** at the site that the errand is about. -/
theorem receives {n : Node R} {routes : List (Route R)} {errand : Errand A} {request : Request}
    (hrouter : n.router = .ok routes) (hsite : site ∈ n.sites) (hspot : site.spot = .collection)
    (hs : site.owner.service = some s) (hoverrides : s.overrides = [])
    (hbases : ∀ s ∈ (site.path .root).segments, IsPlainBase s.base)
    (hparents : errand.parents.length = (site.path .root).idAncestors.length)
    (hids : ∀ id ∈ errand.parents ++ errand.id?.toList, id ≠ "")
    (honly : site.OnlyMatch routes (errand.target (site.path .root)))
    (hpath : request.path = errand.target (site.path .root)) (hmethod : request.method = errand.operation.method) :
    ∃ taken, site.Receives routes request taken (s.collection site.owner.name (site.path .root).names)
      errand.operation (errand.parents ++ errand.id?.toList) := by
  have hassembled := Node.router_ok hrouter
  have hserving := serving_mem_sites hsite hspot hs errand.operation
  have hleaf : (if errand.operation.onItem then some site.owner.segment else none)
      = errand.id?.map fun _ => site.owner.segment := by cases errand <;> rfl
  have hmatch := RoutePath.matches_render (segments_path site) (fun s hs => (hbases s hs).braceless) hparents hids
  rw [← hleaf, ← pattern_serving] at hmatch
  have halone : ∀ entry ∈ routes.map fun r => (r.pattern, r), ∀ texts, Route.Matches (Route.piecesOfPattern entry.1)
        (Text.splitOn '/' (errand.target (site.path .root)).toList) texts →
      entry = (((site.serving errand.operation).route .root).pattern, (site.serving errand.operation).route .root) := by
    intro entry hentry texts hentries
    obtain ⟨route, hroute, rfl⟩ := List.mem_map.mp hentry
    have hsame : route.pattern = ((site.serving errand.operation).route .root).pattern :=
      site.pattern_of_onlyMatch hbases (honly route hroute texts hentries) hentries hmatch
    rw [hassembled.eq] at hroute
    obtain ⟨site', hsite', rfl⟩ := List.mem_map.mp hroute
    rw [Node.site_of_pattern hrouter hsite' hserving hsame]
  have hmem : (((site.serving errand.operation).route .root).pattern, (site.serving errand.operation).route .root)
      ∈ routes.map fun r => (r.pattern, r) := by
    rw [hassembled.eq, List.map_map]
    exact List.mem_map.mpr ⟨_, hserving, rfl⟩
  have hlookup := Route.lookup_of_only hmem hmatch halone
  rw [← Errand.target, ← hpath] at hlookup
  refine ⟨_, hlookup, hmethod ▸ endpoint_serving hs hoverrides errand.operation, fun hdescend => ?_⟩
  -- each parameter holds the ID that was rendered at its place
  have hparams := Layer.descend_params hdescend
  simp only [Router.dispatched, Router.decodeParams_encoded, hleaf] at hparams
  have hnodup := RoutePath.nodup_addressed (segments_path site) (hassembled.nodup .nil site hsite) errand.id?
  have hlength : (((site.path .root).addressed (errand.id?.map fun _ => site.owner.segment)).map Segment.idParam).length
      = (errand.parents ++ errand.id?.toList).length := by
    rw [List.length_map, RoutePath.addressed, List.length_append, List.length_append, hparents]
    cases errand.id? <;> rfl
  have hvalues := Form.map_lookup_zip hlength hnodup []
  rw [List.nil_append, ← hparams, List.map_map] at hvalues
  rw [hleaf]
  exact hvalues

end Site

/-! ## What the handler answers -/

/-- **A request to a server succeeds**: it arrives like this at the handler of its route, which succeeds with this
answer, and so it leaves the layers of the route. -/
inductive Server.SucceedsWith (server : Server R) (request : Request) (env : Env) (w : World R) (i : Inflight R)
    (response left : Response) : Prop
  | served {route : Route R} {taken : List (String × String)} {p : Endpoint R} {w₁ w₂ : World R}
    (hlookup : Route.lookup (server.routes.map fun r => (r.pattern, r)) request.path = some (route, taken))
    (hdescend : Layer.descend route.layers (Router.dispatched request taken)
      { env with deadline := server.config.timeoutMillis } w.nextRequest = (.ok (.arrived i), w₁))
    (hendpoint : route.endpoint? request.method = some p)
    (hbody : p.readsBody = true → i.request.body.size ≤ bodyLimit)
    (hattempt : p.attempt i { env with deadline := server.config.timeoutMillis } w₁ = (.ok response, w₂))
    (hleft : Layer.left route.layers response = left)

/-- A client's request does not prefer pages. -/
theorem Call.acceptsHtml_request (call : Call) (u : Url) (taken : List (String × String)) :
    (Router.dispatched (call.request u) taken : Inflight R).context.acceptsHtml = false := by
  have hheader : (Router.dispatched (call.request u) taken : Inflight R).context.header? "accept"
      = some "application/json" := by
    have hvisible : visibleText? "application/json" = some "application/json" := by decide
    exact hvisible
  have hfirst : ((Context.mediaTypes "application/json").find?
      fun media => media == "text/html" || media == "application/json") = some "application/json" := by decide +kernel
  rw [Context.acceptsHtml, hheader]
  simp only [hfirst]
  decide

namespace Server.SucceedsWith

variable {server : Server R} {request : Request} {env : Env} {w : World R} {i : Inflight R}
  {response left : Response}

/-- What leaves the layers arrives. -/
theorem answer (h : server.SucceedsWith request env w i response left) (hm : request.method ≠ .head) :
    (server.answer request env w).1.status = left.status ∧ (server.answer request env w).1.body = left.body := by
  obtain @⟨route, taken, p, w₁, w₂, hlookup, hdescend, hendpoint, hbody, hattempt, rfl⟩ := h
  have hreached : route.reached request.method i { env with deadline := server.config.timeoutMillis } w₁
      = (.ok response, w₂) := by
    rw [Route.reached, hendpoint]
    simp only [Endpoint.run_eq_answered hbody]
    exact Action.answered_of_ok hattempt
  obtain ⟨w', hanswer, -⟩ := Router.answer_of_arrived hlookup hdescend hreached
  rw [Server.answer, hanswer]
  exact ⟨Route.dressed_status _ _ _, Route.dressed_body _ hm _⟩

/-- If the handler is a default one and there are no wrappers, its answer has the form of those. -/
theorem answers {site : Site R} {taken : List (String × String)} {c : Collection R} {op : Operation}
    {ids : List String} (h : server.SucceedsWith request env w i response left)
    (hreceives : site.Receives server.routes request taken c op ids) (hplain : c.ShowsPlainly)
    (hpage : i.context.acceptsHtml = false) : c.Answers op response := by
  obtain @⟨route, taken', p, w₁, w₂, hlookup, hdescend, hendpoint, hbody, hattempt, -⟩ := h
  cases hreceives.lookup.symm.trans hlookup
  cases hreceives.endpoint.symm.trans hendpoint
  exact c.handle_answers hplain hpage op _ _ _ _ _ hattempt

end Server.SucceedsWith

/-! ## The agreement -/

/-- **A handler's answer is what the client shows.** The answer has the expected status; if it is a document, its text
is read back, and the resources in it carry their identity. -/
theorem Errand.exists_result {client : Client Record} {errand : Errand Record} {c : Collection R}
    {response answer : Response} {m : Method} (hkind : client.kind = Record.schemaless)
    (hcodes : client.codes = c.codes)
    (hm : m = errand.operation.method) (hanswers : c.Answers errand.operation response)
    (hstatus : answer.status = response.status) (hbody : answer.body = response.body)
    (hallowed : errand.operation ≠ .remove → Received.mayHaveBody m (c.codes.get m) = true)
    (hread : ∀ v, response.body = .json v → Json.parse? v.text = some v
      ∧ ∀ item ∈ errand.operation.resourcesIn v, item.CarriesIdentity) (address url : String) :
    ∃ result, errand.outcome client address url (.ofResponse m answer) = .ok result
      ∧ if errand.operation = .remove then errand.shown result = .null
        else response.body = .json (errand.shown result) := by
  by_cases hremove : errand.operation = .remove
  · cases errand with
    | remove parents id =>
        have hbare := hanswers.bare
        rw [hbare] at hstatus hbody
        have hempty : (Received.ofResponse m answer).body = "" := by
          rw [Received.ofResponse, hbody]
          dsimp only
          split <;> rfl
        exact ⟨(), outcome_of_removed (hstatus.trans (hcodes ▸ rfl)) hempty address url, by rw [if_pos hremove]; rfl⟩
    | _ => cases hremove
  · obtain ⟨v, rfl, hlist⟩ := hanswers.document hremove
    obtain ⟨hparse, hcarry⟩ := hread v rfl
    -- the text of the document arrives as it is
    have hreceived : (Received.ofResponse m answer).body = v.text := by
      have hmay := hallowed hremove
      rw [hm] at hmay
      rw [Received.ofResponse, hstatus, hbody, hm]
      exact if_pos hmay
    obtain ⟨result, hresult, hshown⟩ :=
      exists_outcome hkind (hstatus.trans (hcodes ▸ rfl)) hreceived hparse hremove hlist hcarry address url
    exact ⟨result, hresult, by rw [if_neg hremove, hshown]; rfl⟩

/-- A service whose API is answered by the default handlers, which show its resources as they are. -/
structure Service.IsPlain (s : Service R) : Prop where
  overrides : s.overrides = []
  wrapper : s.hooks.wrapper = none
  listWrapper : s.hooks.listWrapper = none

/-- **Client and server agree on success.** Of a tree that has a router and clients, take a plain API, and a command
for it with as many IDs as there are ancestors to address, whose path matches no patterns but those of the API. The
client sends a request, and the request is received by the default handler for the command, with the IDs that were
given. Whenever that handler succeeds, with a status that allows a body if there is one to show, and the middlewares
leave alone whether the request prefers pages, and the status and the body of the answer, the command succeeds and shows
the value that the handler answered. -/
theorem commands_agree {n : Node R} {server : Server R} {m : ClientMap} {a : ServerAddress} {address : String}
    {site : Site R} {s : Service R} {c : Command} {errand : Errand Record}
    (hrouter : n.router = .ok server.routes) (hclients : ClientMap.ofNode address n = .ok m)
    (haddress : Client.trimAddress address = a.text) (hsite : site ∈ n.sites) (hspot : site.spot = .collection)
    (hs : site.owner.service = some s) (hplain : s.IsPlain) (hbases : ∀ node ∈ site.chain, IsPlainBase node.base)
    (hresource : c.resource = site.owner.name) (herrand : c.errand = .ok errand)
    (hparents : errand.parents.length = (site.path .root).idAncestors.length)
    (hids : ∀ id ∈ errand.parents ++ errand.id?.toList, IsProperId id)
    (honly : site.OnlyMatch server.routes (errand.target (site.path .root))) :
    ∃ client call u taken, m.get? c.resource = some client ∧ errand.call client = .ok call ∧ call.url? = some u
      ∧ u.isWeb = true
      ∧ site.Receives server.routes (call.request u) taken (s.collection site.owner.name (site.path .root).names)
          errand.operation (errand.parents ++ errand.id?.toList)
      ∧ ∀ env w i response left, server.SucceedsWith (call.request u) env w i response left →
          i.context.acceptsHtml = (Router.dispatched (call.request u) taken : Inflight R).context.acceptsHtml →
          left.status = response.status → left.body = response.body →
          (errand.operation ≠ .remove → Received.mayHaveBody call.method (s.codes.get call.method) = true) →
          (∀ v, response.body = .json v → Json.parse? v.text = some v
            ∧ ∀ item ∈ errand.operation.resourcesIn v, item.CarriesIdentity) →
          ∃ result w', errand.run client (server.network env) w = (.ok result, w')
            ∧ m.run (server.network env) c w = (.ok (errand.shown result), w')
            ∧ if errand.operation = .remove then errand.shown result = .null
              else response.body = .json (errand.shown result) := by
  have hsegments : ∀ segment ∈ (site.path .root).segments, IsPlainBase segment.base := by
    intro segment hsegment
    rw [Site.path, RoutePath.below, RoutePath.root, List.nil_append] at hsegment
    obtain ⟨node, hnode, rfl⟩ := List.mem_map.mp hsegment
    exact hbases node hnode
  have hget : m.get? c.resource
      = some (.forPath address (site.path .root) Record.schemaless s.codes) := by
    refine (ClientMap.get?_eq_some_iff hclients).mpr ⟨site, hsite, ?_⟩
    rw [Site.client?, hspot, hs, hresource]
  have hserver : (Client.forPath address (site.path .root) Record.schemaless s.codes).address = a.text := haddress
  have hkind : (Client.forPath address (site.path .root) Record.schemaless s.codes).kind = Record.schemaless := rfl
  have hcodes : (Client.forPath address (site.path .root) Record.schemaless s.codes).codes
      = (s.collection site.owner.name (site.path .root).names).codes := rfl
  obtain ⟨call, u, hcall, hurl, hweb, hpath⟩ :=
    Errand.exists_call hserver hsegments hparents hids (Command.exists_body herrand)
  have hmethod := Errand.method_of_call hcall
  have hrequest : (call.request u).method = errand.operation.method := hmethod
  obtain ⟨taken, hreceives⟩ := site.receives hrouter hsite hspot hs hplain.overrides hsegments hparents
    (fun id hid => (hids id hid).1) honly hpath hrequest
  refine ⟨_, call, u, taken, hget, hcall, hurl, hweb, hreceives,
    fun env w i response left hsucceeds haccept hstatus hbody hallowed hread => ?_⟩
  have hnothead : (call.request u).method ≠ .head := by
    rw [hrequest]
    cases errand.operation <;> decide
  -- what leaves the middlewares is what the handler answered, in all that the client looks at
  obtain ⟨hstatusLeft, hbodyLeft⟩ := hsucceeds.answer hnothead
  have hanswers := hsucceeds.answers hreceives ⟨hplain.wrapper, hplain.listWrapper⟩
    (haccept.trans (call.acceptsHtml_request u taken))
  obtain ⟨result, hresult, hshown⟩ := Errand.exists_result hkind hcodes hmethod hanswers (hstatusLeft.trans hstatus)
    (hbodyLeft.trans hbody) hallowed hread call.address u.text
  have hrun := Errand.run_of_answered hcall hurl hweb (server.network_apply env u (call.request u) w)
  rw [hresult] at hrun
  refine ⟨result, _, hrun, ?_, hshown⟩
  rw [ClientMap.run, hget]
  exact (ClientMap.runWith_of_errand hkind herrand (server.network env) w).trans (Exchange.bind_of_ok hrun _)

namespace Library

/-- The server of the library. -/
def server : Server Record := ⟨routes, .standard⟩

/-- Where it is. -/
def address : ServerAddress where
  scheme := "http"
  authority := ['l', 'i', 'b', 'r', 'a', 'r', 'y']
  host := "library"
  port := none
  isWeb := Or.inl rfl
  chars := by simp
  located := by decide +kernel

/-- The place of all albums in the tree. -/
def albumsSite : Site Record := ⟨[tree], albums, .collection⟩

theorem albumsSite_mem : albumsSite ∈ tree.sites := List.mem_of_getElem? (i := 3) rfl

/-- The client for albums. -/
def albumClient : Client Record :=
  .forPath "http://library/" ⟨[⟨"artists", "/artists", true⟩, ⟨"albums", "/albums", true⟩]⟩ Record.schemaless .standard

/-- The clients of the library. -/
def clients : ClientMap :=
  ⟨[("artists", .forPath "http://library/" ⟨[⟨"artists", "/artists", true⟩]⟩ Record.schemaless .standard),
    ("albums", albumClient)]⟩

theorem clients_tree : ClientMap.ofNode "http://library/" tree = .ok clients := rfl

/-- The command for the album `x` of the artist `a 1`. -/
def albumCommand : Command := ⟨.get, "albums", ["a 1"], ["x"]⟩

/-- What it is for. -/
def albumErrand : Errand Record := .fetch ["a 1"] "x"

theorem target_albumErrand : albumErrand.target (albumsSite.path .root) = "/artists/a%201/albums/x" := by
  decide +kernel

theorem onlyMatch_albums : albumsSite.OnlyMatch routes (albumErrand.target (albumsSite.path .root)) := by
  rw [target_albumErrand]
  exact Site.onlyMatch_of_search (by decide +kernel)

/-- The call that the client makes. -/
def albumCall : Call := { method := .get, address := "http://library/artists/a%201/albums/x" }

theorem call_albumErrand : albumErrand.call albumClient = .ok albumCall := by cbv

/-- Its URL. -/
def albumUrl : Url := ⟨"http", "library", none, "/artists/a%201/albums/x", none, none⟩

theorem url?_albumCall : albumCall.url? = some albumUrl := by decide +kernel

/-- An album. -/
def album : Record := ⟨⟨"x", some ⟨0, 0⟩⟩, [("title", .str "A")]⟩

/-- How it is shown. -/
def albumShown : Json := .obj [("created_at", .str "1970-01-01T00:00:00Z"), ("id", .str "x"), ("title", .str "A")]

theorem sorted_album : album.encode.sorted = albumShown := by cbv

theorem parse?_albumShown : Json.parse? albumShown.text = some albumShown := by cbv

theorem carriesIdentity_albumShown : albumShown.CarriesIdentity := by
  have hinstant : Timestamp.parse (Timestamp.text ⟨0, 0⟩) = .ok ⟨0, 0⟩ := by cbv
  exact ⟨album.identity, ⟨rfl, by cbv⟩, fun t ht => by cases ht; exact hinstant⟩

/-- A world with the artist and the album. -/
def shelved : World Record := (stocked "a 1").setStore ["artists", "albums"] (Store.empty.insert "x" album)

/-- What reaches the handler. -/
def albumInflight : Inflight Record :=
  ⟨albumCall.request albumUrl, [("artists_id", "a 1"), ("albums_id", "x")],
    [("artists", ⟨"AnyResource", ⟨⟨"a 1", none⟩, []⟩⟩)]⟩

/-- What reaches the handler if a middleware makes this of the request. -/
def inflightOf (request : Request) : Inflight Record := { albumInflight with request := request }

/-- The albums of an artist, as their handler knows them. -/
def albumCollection : Collection Record :=
  ({ kind := Record.schemaless, blank := Record.empty } : Service Record).collection "albums" ["artists", "albums"]

/-- A quiet server, with its deadline. -/
def quiet : Env := { Env.quiet "n" with deadline := server.config.timeoutMillis }

/-- The album is there, whatever becomes of it and of the request. -/
theorem requested_album (s : Service Record) (request : Request) {w : World Record}
    (hw : w.stores = shelved.stores) :
    ((s.collection "albums" ["artists", "albums"]).requested (inflightOf request).context quiet w).1 = .ok album := by
  have hunresolved : (inflightOf request).context.resource? s.kind.name "albums" = none := by
    rw [Context.resource?]
    rfl
  have hid : (inflightOf request).context.id? "albums" = some "x" := rfl
  simp only [Collection.requested, Collection.pathId, Service.collection, hunresolved, hid]
  cases w with
  | mk stores ids looks calls elapsed log =>
      cases hw
      rfl

/-- A request for the album that comes to its handler succeeds if the handler does, in all worlds in which nothing else
is stored. -/
theorem succeedsWith_shelved (site : Site Record) {routes : List (Route Record)} {c : Collection Record}
    {request : Request} {response left : Response}
    (hlookup : Route.lookup (routes.map fun r => (r.pattern, r)) "/artists/a%201/albums/x"
      = some (site.route .root, albumTaken))
    (hdescend : (Layer.descend (site.route .root).layers (Router.dispatched (albumCall.request albumUrl) albumTaken)
      quiet shelved.nextRequest).1 = .ok (.arrived (inflightOf request)))
    (hendpoint : (site.route .root).endpoint? .get = some (.operation c .fetch))
    (hattempt : ∀ w : World Record, w.stores = shelved.stores →
      ((Endpoint.operation c .fetch).attempt (inflightOf request) quiet w).1 = .ok response)
    (hleft : Layer.left (site.route .root).layers response = left) :
    Server.SucceedsWith ⟨routes, .standard⟩ (albumCall.request albumUrl) (Env.quiet "n") shelved (inflightOf request)
      response left := by
  have hstores := (Layer.descend_harmless (site.route .root).layers (P := fun _ => True) (fun _ _ _ _ => trivial)
    (Router.dispatched (albumCall.request albumUrl) albumTaken)).stores quiet shelved.nextRequest
  exact .served hlookup (Prod.ext hdescend rfl) hendpoint (fun h => by cases h)
    (Prod.ext (hattempt _ hstores) rfl) hleft

/-- The album is shown as a document. -/
theorem attempt_album {w : World Record} (hw : w.stores = shelved.stores) :
    ((Endpoint.operation albumCollection .fetch).attempt albumInflight quiet w).1 = .ok (.json 200 albumShown) := by
  rw [← sorted_album]
  exact congrArg Prod.fst (Action.bind_of_ok (Prod.ext (requested_album _ (albumCall.request albumUrl) hw) rfl) _)

/-- The album is found, below its artist. -/
theorem succeedsWith_album :
    server.SucceedsWith (albumCall.request albumUrl) (Env.quiet "n") shelved albumInflight (.json 200 albumShown)
      (.json 200 albumShown) :=
  succeedsWith_shelved albumSite rfl (by cbv) rfl (fun _ hw => attempt_album hw) rfl

end Library

open Library in
/-- The command for an album of an artist whose ID has a space: it shows the album. -/
theorem commands_agree_library :
    ∃ w, clients.run (server.network (Env.quiet "n")) albumCommand shelved = (.ok albumShown, w) := by
  have hagree := @commands_agree Record tree server clients address "http://library/" albumsSite _ albumCommand
    albumErrand router_tree clients_tree (by decide +kernel) albumsSite_mem rfl rfl ⟨rfl, rfl, rfl⟩ (by decide +kernel)
    rfl rfl rfl (by decide +kernel) onlyMatch_albums
  obtain ⟨client, call, u, taken, hclient, hcall, hurl, -, -, hrun⟩ := hagree
  cases hclient
  cases call_albumErrand.symm.trans hcall
  cases url?_albumCall.symm.trans hurl
  obtain ⟨result, w, -, hshows, hshown⟩ := hrun _ _ _ _ _ succeedsWith_album rfl rfl rfl (fun _ => rfl) fun v hv => by
    cases hv
    refine ⟨parse?_albumShown, fun item hitem => ?_⟩
    rw [List.mem_singleton.mp hitem]
    exact carriesIdentity_albumShown
  rw [if_neg (by decide)] at hshown
  exact ⟨w, hshows.trans (by rw [← Body.json.inj hshown])⟩

namespace Library

/-- Albums that have pages. -/
def pagedService : Service Record where
  kind := { Record.schemaless with html := fun _ r => some ("<p>" ++ r.identity.id ++ "</p>") }
  blank := Record.empty

/-- Artists with a middleware around them, and such albums below. -/
def retouched (m : Middleware) : Node Record :=
  .mk { name := "artists", base := "/artists", middlewares := [m] } (some artistService)
    [.api { name := "albums", base := "/albums" } pagedService]

/-- The server of this tree. -/
def retouching (m : Middleware) : Server Record := ⟨(retouched m).sites.map (Site.route .root), .standard⟩

/-- The place of an album in this tree. -/
def retouchedSite (m : Middleware) : Site Record :=
  ⟨[retouched m], .api { name := "albums", base := "/albums" } pagedService, .item⟩

/-- The albums of an artist, as their handler knows them. -/
def pagedCollection : Collection Record := pagedService.collection "albums" ["artists", "albums"]

/-- A middleware that says of all that it is only accepted. -/
def accepting : Middleware := { tag := "accepting", leave := fun r => { r with status := 202 } }

/-- A middleware that leaves nothing of a document. -/
def emptying : Middleware := { tag := "emptying", leave := fun r => { r with body := .json (.obj []) } }

/-- A request that prefers pages. -/
def pageRequest : Request := { albumCall.request albumUrl with headers := [("accept", "text/html")] }

/-- A middleware that makes requests prefer pages. -/
def paging : Middleware := { tag := "paging", enter := fun r => .ok { r with headers := [("accept", "text/html")] } }

/-- As a document, it is the one that the client asks for. -/
theorem attempt_document {w : World Record} (hw : w.stores = shelved.stores) :
    ((Endpoint.operation pagedCollection .fetch).attempt (inflightOf (albumCall.request albumUrl)) quiet w).1
      = .ok (.json 200 albumShown) := by
  rw [← sorted_album]
  exact congrArg Prod.fst (Action.bind_of_ok (Prod.ext (requested_album _ _ hw) rfl) _)

/-- As a page, it is none. -/
theorem attempt_page {w : World Record} (hw : w.stores = shelved.stores) :
    ((Endpoint.operation pagedCollection .fetch).attempt (inflightOf pageRequest) quiet w).1
      = .ok (.html 200 "<p>x</p>") :=
  congrArg Prod.fst (Action.bind_of_ok (Prod.ext (requested_album _ _ hw) rfl) _)

/-- What comes of the command for the album on the server of this tree. -/
def retouchedOutcome (m : Middleware) : Except ClientError Json :=
  (clients.run ((retouching m).network (Env.quiet "n")) albumCommand shelved).1

end Library

open Library in
/-- **Middlewares that come between a client and a server.** The album is found and shown, but a middleware changes the
status of the answer, and the command fails; or it changes the body, and the command shows that; or it has a page shown
in the place of the document, and the command fails. -/
theorem commands_part :
    ((retouched accepting).router = .ok (retouching accepting).routes
      ∧ ClientMap.ofNode "http://library/" (retouched accepting) = .ok clients
      ∧ (retouching accepting).SucceedsWith (albumCall.request albumUrl) (Env.quiet "n") shelved
        (inflightOf (albumCall.request albumUrl)) (.json 200 albumShown) (.json 202 albumShown)
      ∧ (retouchedOutcome accepting).isOk = false)
    ∧ ((retouched emptying).router = .ok (retouching emptying).routes
      ∧ ClientMap.ofNode "http://library/" (retouched emptying) = .ok clients
      ∧ (retouching emptying).SucceedsWith (albumCall.request albumUrl) (Env.quiet "n") shelved
        (inflightOf (albumCall.request albumUrl)) (.json 200 albumShown) (.json 200 (.obj []))
      ∧ (retouchedOutcome emptying).toOption.map Json.text = some "\x7b\"id\":\"\"\x7d")
    ∧ ((retouched paging).router = .ok (retouching paging).routes
      ∧ ClientMap.ofNode "http://library/" (retouched paging) = .ok clients
      ∧ (retouching paging).SucceedsWith (albumCall.request albumUrl) (Env.quiet "n") shelved (inflightOf pageRequest)
        (.html 200 "<p>x</p>") (.html 200 "<p>x</p>")
      ∧ (retouchedOutcome paging).isOk = false) := by
  refine ⟨⟨Node.router_eq (by decide +kernel), rfl, ?_, by decide +kernel⟩,
    ⟨Node.router_eq (by decide +kernel), rfl, ?_, by decide +kernel⟩,
    Node.router_eq (by decide +kernel), rfl, ?_, by decide +kernel⟩
  · exact succeedsWith_shelved (retouchedSite accepting) rfl (by cbv) rfl (fun _ hw => attempt_document hw) rfl
  · exact succeedsWith_shelved (retouchedSite emptying) rfl (by cbv) rfl (fun _ hw => attempt_document hw) rfl
  · exact succeedsWith_shelved (retouchedSite paging) rfl (by cbv) rfl (fun _ hw => attempt_page hw) rfl

end ResourceTree
