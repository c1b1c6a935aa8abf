import ResourceTree.Proofs.SeenEntries

/-! # Requests that commute

A request for one resource that a default handler answers sees no entry of its API but that of its own ID, and it
changes no other one. So two such requests for different IDs do not notice each other: in either order they get the same
answers and leave the same entries (`requests_commute`), whatever comes of them, and whatever is around their routes. -/

namespace ResourceTree

variable {R : Type}

/-! ## Supplies of a request -/

/-- **Supplies of one request**: the time at which it comes, and outages that do not depend on what has happened
before. -/
structure Env.Steady (env : Env) : Prop where
  now : ∀ n m, env.now n = env.now m
  outage : ∀ n m node call, env.outage node n call = env.outage node m call

/-- Supplies at a time, without a failure. -/
def Env.still (t : Timestamp) : Env where
  freshId _ := ""
  now _ := t
  outage _ _ _ := none
  deadline := none

theorem Env.still_steady (t : Timestamp) : (still t).Steady := ⟨fun _ _ => rfl, fun _ _ _ _ => rfl⟩

theorem Env.still_honest (t : Timestamp) : (still t).Honest := fun _ _ _ h => by cases h

/-- With such supplies worlds are alike if their entries are. -/
theorem Env.Steady.alike {env : Env} (h : env.Steady) {seen : NodeKey → String → Prop} {w w' : World R}
    (hentries : ∀ node id, seen node id → (w.stores node).get? id = (w'.stores node).get? id) :
    w.Alike env seen w' :=
  ⟨hentries, fun _ => h.now _ _, fun _ node call => h.outage _ _ node call⟩

/-! ## Layers at an API -/

/-- The key of an API has a name for each node on the way down to it. -/
theorem Node.length_key {n : Node R} {nodes : List (Node R)} {c : Collection R}
    (h : n.collectionAt (RoutePath.root.below nodes) = some c) : c.node.length = nodes.length := by
  rw [node_collectionAt h]
  simp [RoutePath.names, RoutePath.below, RoutePath.root]

namespace Site

variable {site : Site R} {c c' : Collection R} {m : Method} {op : Operation} {l : Layer R}

/-- A layer that loads resources stored at the API of a site loads resources of the API itself. -/
theorem loader_eq (hc : site.owner.collectionAt (site.path .root) = some c) (hl : l ∈ (site.route .root).layers)
    (hc' : l.loader? = some c') (hnode : c'.node = c.node) : c' = c := by
  obtain ⟨a, ha, rfl⟩ := Node.loader_chainLayers (site.layers_prefix.subset hl) hc'
  obtain ⟨before, n, after, hchain, hn, -⟩ := Node.mem_ancestors ha
  -- the key of the ancestor is as long as that of the owner, so the ancestor is the owner
  have hlength : (before ++ [n]).length = (before ++ n :: after).length := by
    rw [← Node.length_key hn, hnode, Node.length_key hc, hchain]
  have hafter : after = [] := by simpa using hlength
  rw [path, hchain, hafter] at hc
  obtain ⟨rfl, howner⟩ : before = site.above ∧ n = site.owner := by
    rw [hafter, chain] at hchain
    obtain ⟨habove, howner⟩ := List.append_inj' hchain rfl
    exact ⟨habove.symm, (List.cons.inj howner).1.symm⟩
  rw [← howner] at hc
  exact Option.some.inj (hn.symm.trans hc)

end Site

/-! ## Requests for one resource -/

/-- **A request for one resource** of an API, which one of the default handlers answers. It brings its own supplies. -/
structure ItemRequest (routes : List (Route R)) (c : Collection R) where
  request : Request
  env : Env
  route : Route R
  taken : List (String × String)
  op : Operation
  lookup : Route.lookup (routes.map fun r => (r.pattern, r)) request.path = some (route, taken)
  endpoint : route.endpoint? request.method = some (.operation c op)
  onItem : op.onItem = true
  steady : env.Steady
  honest : env.Honest

namespace ItemRequest

variable {routes : List (Route R)} {c : Collection R} (q q' : ItemRequest routes c) {w : World R}

/-- The ID of the resource. -/
def id? : Option String := Form.lookup (Router.decodeParams q.taken) (idParam c.name)

/-- The answer to the request, and the world after it. -/
def answer (w : World R) : Response × World R := Router.answer routes q.request q.env w.nextRequest

/-- What the request sees of the stores: of its own API no entry but that of its ID. -/
def Sees (node : NodeKey) (id : String) : Prop := node = c.node → q.id? = some id

/-- **The request stays within the frame of its operation.** -/
theorem framed (hkeyed : c.KeyedById (w.stores c.node)) : c.Framed q.id? w (q.answer w).2 q.op := by
  have hcreate : q.op ≠ .create := by
    intro hop
    have honItem := q.onItem
    rw [hop] at honItem
    cases honItem
  have hframed := Router.answer_framed (w := w.nextRequest) q.lookup q.endpoint q.honest (fun _ => hkeyed)
    fun hop => absurd hop hcreate
  exact hframed.congr rfl rfl

/-- Every entry that is not the one of the request's ID stays. -/
theorem get?_answer (hkeyed : c.KeyedById (w.stores c.node)) {node : NodeKey} {id : String}
    (h : node = c.node → q.id? ≠ some id) : ((q.answer w).2.stores node).get? id = (w.stores node).get? id := by
  by_cases hnode : node = c.node
  · subst hnode
    exact (q.framed hkeyed).get?_of_ne q.onItem (h rfl)
  · rw [(q.framed hkeyed).other hnode]

/-- Entries are stored under their own IDs afterwards too. -/
theorem keyed_answer (hkeyed : c.KeyedById (w.stores c.node)) : c.KeyedById ((q.answer w).2.stores c.node) :=
  (q.framed hkeyed).keyed hkeyed

variable {n : Node R} (hn : n.router = .ok routes)

include hn in
/-- **The request sees what it says**, with all layers around its route. -/
theorem answer_alike {w' : World R} (h : w.Alike q.env q.Sees w') :
    (q.answer w).1 = (q.answer w').1 ∧ (q.answer w).2.Alike q.env q.Sees (q.answer w').2 := by
  obtain ⟨site, -, hroute, -⟩ := Node.site_of_lookup hn q.lookup
  have hendpoint := q.endpoint
  rw [hroute] at hendpoint
  have hlayers : ∀ l ∈ q.route.layers, l.Sees q.Sees (Router.decodeParams q.taken) := by
    intro l hl c' hc' id hid hnode
    -- a layer at the API itself looks for the same ID as the handler
    rw [hroute] at hl
    cases Site.loader_eq (Site.collection_of_endpoint hendpoint).1 hl hc' hnode
    exact hid
  exact Router.answer_alike (Router.seesOnly_serve q.lookup q.endpoint q.onItem hlayers fun id hid _ => hid)
    ⟨h.entries, h.clock, h.outages⟩

include hn in
/-- **A request for another ID is not noticed.** -/
theorem answer_of_other (hids : ∀ id, q.id? = some id → q'.id? ≠ some id) (hkeyed : c.KeyedById (w.stores c.node)) :
    (q.answer (q'.answer w).2).1 = (q.answer w).1
      ∧ ∀ node id, q.Sees node id →
        ((q.answer (q'.answer w).2).2.stores node).get? id = ((q.answer w).2.stores node).get? id := by
  have halike : (q'.answer w).2.Alike q.env q.Sees w := by
    refine q.steady.alike fun node id hsees => q'.get?_answer hkeyed fun hnode => ?_
    exact hids id (hsees hnode)
  obtain ⟨hanswer, hafter⟩ := q.answer_alike hn halike
  exact ⟨hanswer, hafter.entries⟩

end ItemRequest

/-- **Requests for different IDs commute.** Two requests for resources of one API, each with its own time, get the same
answers in either order, and the same entries are left in all stores. It does not matter whether they succeed, nor at
which point they fail. The store of the API may hold anything under its own ID, as setting calls store it. -/
theorem requests_commute {routes : List (Route R)} {n : Node R} (hn : n.router = .ok routes) {c : Collection R}
    (q q' : ItemRequest routes c) (hids : ∀ id, q.id? = some id → q'.id? ≠ some id) {w : World R}
    (hkeyed : c.KeyedById (w.stores c.node)) :
    (q.answer (q'.answer w).2).1 = (q.answer w).1 ∧ (q'.answer (q.answer w).2).1 = (q'.answer w).1
      ∧ ∀ node id, ((q'.answer (q.answer w).2).2.stores node).get? id
        = ((q.answer (q'.answer w).2).2.stores node).get? id := by
  have hids' : ∀ id, q'.id? = some id → q.id? ≠ some id := fun id hid' hid => hids id hid hid'
  obtain ⟨hanswer, hsees⟩ := q.answer_of_other q' hn hids hkeyed
  obtain ⟨hanswer', hsees'⟩ := q'.answer_of_other q hn hids' hkeyed
  refine ⟨hanswer, hanswer', fun node id => ?_⟩
  -- an entry is that of one request, which comes to the same either way, and the other request leaves it
  by_cases hnode : node = c.node ∧ q.id? = some id
  · obtain ⟨rfl, hid⟩ := hnode
    rw [q'.get?_answer (q.keyed_answer hkeyed) fun _ => hids id hid, hsees c.node id fun _ => hid]
  · have hleft : ((q.answer (q'.answer w).2).2.stores node).get? id = ((q'.answer w).2.stores node).get? id :=
      q.get?_answer (q'.keyed_answer hkeyed) fun hcnode hid => hnode ⟨hcnode, hid⟩
    rw [hleft]
    by_cases hnode' : node = c.node ∧ q'.id? = some id
    · exact hsees' node id fun _ => hnode'.2
    · rw [q'.get?_answer (q.keyed_answer hkeyed) fun hcnode hid => hnode' ⟨hcnode, hid⟩,
        q'.get?_answer hkeyed fun hcnode hid => hnode' ⟨hcnode, hid⟩,
        q.get?_answer hkeyed fun hcnode hid => hnode ⟨hcnode, hid⟩]

namespace Notebook

/-- A request to replace the note `n`, one second after the beginning. -/
def replacing : ItemRequest routes notes where
  request := ⟨.put, "/notes/n", none, [], .empty⟩
  env := .still ⟨1, 0⟩
  route := Site.route .root ⟨[], tree, .item⟩
  taken := [("notes_id", "n")]
  op := .replace
  lookup := rfl
  endpoint := rfl
  onItem := rfl
  steady := Env.still_steady _
  honest := Env.still_honest _

/-- A request to delete the note `m`, which is not there, one second later. -/
def removing : ItemRequest routes notes where
  request := ⟨.delete, "/notes/m", none, [], .empty⟩
  env := .still ⟨2, 0⟩
  route := Site.route .root ⟨[], tree, .item⟩
  taken := [("notes_id", "m")]
  op := .remove
  lookup := rfl
  endpoint := rfl
  onItem := rfl
  steady := Env.still_steady _
  honest := Env.still_honest _

theorem keyed_world : notes.KeyedById (world.stores notes.node) := notes.keyedById_empty.insert taken

end Notebook

open Notebook in
/-- A note is replaced although another one cannot be deleted, in either order. -/
theorem requests_commute_notebook :
    (replacing.answer (removing.answer world).2).1 = (replacing.answer world).1
      ∧ (removing.answer (replacing.answer world).2).1.status = 404
      ∧ ((replacing.answer (removing.answer world).2).2.stores ["notes"]).get? "n"
        = some ⟨⟨"n", some ⟨0, 0⟩⟩, []⟩ := by
  have hids : ∀ id, replacing.id? = some id → removing.id? ≠ some id := by
    intro id hid hid'
    have hn : replacing.id? = some "n" := by decide +kernel
    have hm : removing.id? = some "m" := by decide +kernel
    rw [hn] at hid
    rw [hm, ← hid] at hid'
    exact absurd hid' (by decide)
  obtain ⟨hanswer, hanswer', hentries⟩ := requests_commute router_tree replacing removing hids keyed_world
  refine ⟨hanswer, ?_, ?_⟩
  · rw [hanswer']
    cbv
  · rw [← hentries]
    cbv

end ResourceTree
