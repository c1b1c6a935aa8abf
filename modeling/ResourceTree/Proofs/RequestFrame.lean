import ResourceTree.Proofs.CommitPoint
import ResourceTree.Proofs.TreeRoutes
import ResourceTree.Proofs.WrittenIdentity
import ResourceTree.Resource.Record
import Mathlib

/-! # What a request may touch

A request that reaches a default handler may change one entry of one store. `Collection.Framed` says which,
operation by operation; `handle_framed` proves it of the handlers on their own and `request_frame` of a whole
request, with the layers around its route. A creation in particular never overwrites: under an ID that is taken
it is refused before any hook runs. -/

namespace ResourceTree

variable {R : Type}

/-- The world after one write at most: a new entry for a creation, and else the entry of the path's ID. -/
def Collection.Framed (c : Collection R) (id? : Option String) (w w' : World R) : Operation → Prop
  | .list | .fetch => w'.stores = w.stores
  | .create => w'.stores = w.stores ∨ ∃ r, (w.stores c.node).get? (c.kind.id r) = none
      ∧ w'.stores = (w.setStore c.node ((w.stores c.node).insert (c.kind.id r) r)).stores
  | .replace | .merge => w'.stores = w.stores ∨ ∃ id r, id? = some id ∧ c.kind.id r = id
      ∧ w'.stores = (w.setStore c.node ((w.stores c.node).insert id r)).stores
  | .remove => w'.stores = w.stores ∨ ∃ id, id? = some id
      ∧ w'.stores = (w.setStore c.node ((w.stores c.node).erase id)).stores

namespace Collection

/-- Every entry of a store is stored under its own ID, so what a get call gives bears the ID that was asked
for. -/
def KeyedById (c : Collection R) (s : Store R) : Prop := ∀ id r, s.get? id = some r → c.kind.id r = id

variable {c : Collection R} {ctx : Context R} {body : ByteArray} {env : Env} {w w' : World R}

theorem keyedById_empty (c : Collection R) : c.KeyedById .empty := fun _ _ h => by cases h

theorem KeyedById.insert {s : Store R} (h : c.KeyedById s) (r : R) : c.KeyedById (s.insert (c.kind.id r) r) := by
  intro key stored hstored
  rw [Store.get?_insert] at hstored
  split at hstored
  · next hkey =>
      cases hstored
      exact hkey
  · exact h key stored hstored

theorem KeyedById.erase {s : Store R} (h : c.KeyedById s) (id : String) : c.KeyedById (s.erase id) := by
  intro key stored hstored
  rw [Store.get?_erase] at hstored
  split at hstored
  · cases hstored
  · exact h key stored hstored

/-- Only the stores before and after count. -/
theorem Framed.congr {id? : Option String} {op : Operation} {w₁ w₂ : World R}
    (h : c.Framed id? w₁ w₂ op) (hbefore : w.stores = w₁.stores) (hafter : w'.stores = w₂.stores) :
    c.Framed id? w w' op := by
  cases op <;> simp only [Framed, World.setStore, hbefore, hafter] at h ⊢ <;> exact h

theorem Framed.refl (c : Collection R) (id? : Option String) (w : World R) (op : Operation) :
    c.Framed id? w w op := by
  cases op with
  | list | fetch => rfl
  | create | replace | merge | remove => exact Or.inl rfl

/-- **Other stores are out of reach.** -/
theorem Framed.other {id? : Option String} {op : Operation} (h : c.Framed id? w w' op) {node : NodeKey}
    (hnode : node ≠ c.node) : w'.stores node = w.stores node := by
  have hset (s : Store R) : (w.setStore c.node s).stores node = w.stores node := by
    rw [World.stores_setStore, if_neg hnode]
  cases op with
  | list | fetch => exact congrFun h node
  | create =>
      rcases h with hsame | ⟨r, -, hstores⟩
      · exact congrFun hsame node
      · rw [hstores, hset]
  | replace | merge =>
      rcases h with hsame | ⟨id, r, -, -, hstores⟩
      · exact congrFun hsame node
      · rw [hstores, hset]
  | remove =>
      rcases h with hsame | ⟨id, -, hstores⟩
      · exact congrFun hsame node
      · rw [hstores, hset]

/-- **Other entries are out of reach** of an operation on one resource. -/
theorem Framed.get?_of_ne {id? : Option String} {op : Operation} (h : c.Framed id? w w' op)
    (hop : op.onItem = true) {key : String} (hkey : id? ≠ some key) :
    (w'.stores c.node).get? key = (w.stores c.node).get? key := by
  have hne {id : String} (hid : id? = some id) : id ≠ key := by
    rintro rfl
    exact hkey hid
  cases op with
  | list | create => cases hop
  | fetch => rw [show w'.stores = w.stores from h]
  | replace | merge =>
      rcases h with hsame | ⟨id, r, hid, -, hstores⟩
      · rw [hsame]
      · rw [hstores, World.stores_setStore, if_pos rfl, Store.get?_insert, if_neg (hne hid)]
  | remove =>
      rcases h with hsame | ⟨id, hid, hstores⟩
      · rw [hsame]
      · rw [hstores, World.stores_setStore, if_pos rfl, Store.get?_erase, if_neg (hne hid)]

/-- **Entries stay under their own IDs**, whatever the operation. -/
theorem Framed.keyed {id? : Option String} {op : Operation} (h : c.Framed id? w w' op)
    (hkeyed : c.KeyedById (w.stores c.node)) : c.KeyedById (w'.stores c.node) := by
  cases op with
  | list | fetch => rwa [show w'.stores = w.stores from h]
  | create =>
      rcases h with hsame | ⟨r, -, hstores⟩
      · rwa [hsame]
      · rw [hstores, World.stores_setStore, if_pos rfl]
        exact hkeyed.insert r
  | replace | merge =>
      rcases h with hsame | ⟨id, r, -, rfl, hstores⟩
      · rwa [hsame]
      · rw [hstores, World.stores_setStore, if_pos rfl]
        exact hkeyed.insert r
  | remove =>
      rcases h with hsame | ⟨id, -, hstores⟩
      · rwa [hsame]
      · rw [hstores, World.stores_setStore, if_pos rfl]
        exact hkeyed.erase id

/-- The ID of the path is what the context has for the API. -/
theorem id?_of_pathId {id : String} (h : c.pathId ctx = .ok id) : ctx.id? c.name = some id := by
  rw [pathId] at h
  cases hid : ctx.id? c.name with
  | none => simp [hid] at h
  | some id' => simp_all

/-- **The frame of the default handlers.** -/
theorem handle_framed (c : Collection R) (op : Operation) (ctx : Context R) (body : ByteArray) {env : Env}
    (hh : env.Honest) {w : World R} (hkeyed : op = .merge → c.KeyedById (w.stores c.node))
    (hfresh : op = .create → (w.stores c.node).get? (env.freshId w.idsUsed) = none) :
    ∃ response w', (c.handle op ctx body).answered env w = (.ok response, w')
      ∧ c.Framed (ctx.id? c.name) w w' op := by
  have hpathId {id : String} (h : c.pathId ctx = .ok id) : ctx.id? c.name = some id := id?_of_pathId h
  cases op with
  | list =>
      obtain ⟨response, w', hanswer⟩ := (c.list_harmless ctx).answers env w
      have hstores := ((c.list_harmless ctx).answered).stores env w
      rw [hanswer] at hstores
      exact ⟨response, w', hanswer, hstores⟩
  | fetch =>
      obtain ⟨response, w', hanswer⟩ := (c.fetch_harmless ctx).answers env w
      have hstores := ((c.fetch_harmless ctx).answered).stores env w
      rw [hanswer] at hstores
      exact ⟨response, w', hanswer, hstores⟩
  | create =>
      obtain ⟨response, w', hanswer, hwrites⟩ := c.handle_writes .create ctx body env w
      refine ⟨response, w', hanswer, ?_⟩
      rcases hwrites with ⟨wr, w₁, hpass, -, hstores⟩ | hsame
      · obtain ⟨posted, r, id, -, rfl, hidentity, hcase⟩ := create_passes hh hpass
        have hid : c.kind.id r = id := by rw [Kind.id, hidentity]
        -- the ID is fresh, or it is that of the body, which was found to be unused
        refine Or.inr ⟨r, ?_, hstores⟩
        rw [hid]
        rcases hcase with ⟨-, rfl⟩ | ⟨-, rfl, hnone⟩
        · exact hfresh rfl
        · exact hnone
      · exact Or.inl hsame
  | replace =>
      obtain ⟨response, w', hanswer, hwrites⟩ := c.handle_writes .replace ctx body env w
      refine ⟨response, w', hanswer, ?_⟩
      rcases hwrites with ⟨wr, w₁, hpass, -, hstores⟩ | hsame
      · obtain ⟨id, r, t, hpath, rfl, hidentity, -⟩ := replace_passes hh hpass
        -- whatever the hook did to it, what is stored bears the ID of the path
        have hid : c.kind.id r = id := by rw [Kind.id, hidentity]
        rw [Write.apply, hid] at hstores
        exact Or.inr ⟨id, r, hpathId hpath, hid, hstores⟩
      · exact Or.inl hsame
  | merge =>
      obtain ⟨response, w', hanswer, hwrites⟩ := c.handle_writes .merge ctx body env w
      refine ⟨response, w', hanswer, ?_⟩
      rcases hwrites with ⟨wr, w₁, hpass, -, hstores⟩ | hsame
      · obtain ⟨id, old, r, hpath, hold, rfl, hidentity⟩ := merge_passes hpass
        -- the merged resource bears the ID of the stored one, which is that of the path
        have hid : c.kind.id r = id := by
          rw [Kind.id, hidentity]
          exact hkeyed rfl id old hold
        rw [Write.apply, hid] at hstores
        exact Or.inr ⟨id, r, hpathId hpath, hid, hstores⟩
      · exact Or.inl hsame
  | remove =>
      obtain ⟨response, w', hanswer, hwrites⟩ := c.handle_writes .remove ctx body env w
      refine ⟨response, w', hanswer, ?_⟩
      rcases hwrites with ⟨wr, w₁, hpass, -, hstores⟩ | hsame
      · obtain ⟨id, hpath, rfl⟩ := remove_passes hpass
        exact Or.inr ⟨id, hpathId hpath, hstores⟩
      · exact Or.inl hsame

/-- **A creation under a taken ID is refused** before any hook runs: all that happens is one get call. -/
theorem create_taken {posted : R} (hposted : c.bindBody body = .ok posted) (hne : c.kind.id posted ≠ "")
    (htaken : (w.stores c.node).get? (c.kind.id posted) ≠ none)
    (hworks : env.outage c.node w.storeCalls (.get (c.kind.id posted)) = none) :
    c.create ctx body env w
      = (.error (.api (.conflict (c.kind.id posted))), w.called c.node (.get (c.kind.id posted))) := by
  obtain ⟨stored, hstored⟩ := Option.ne_none_iff_exists'.mp htaken
  have hfound : Action.found env w c.node (c.kind.id posted) = .ok stored := by
    rw [Action.found, hworks]
    simp only [Store.get, hstored]
  have hcheck : c.checkUnused (c.kind.id posted) env w
      = (.error (.api (.conflict (c.kind.id posted))), w.called c.node (.get (c.kind.id posted))) := by
    rw [checkUnused, Action.bind_apply, Action.get_apply, hfound]
    rfl
  rw [create, hposted, Action.lift_ok, pure_bind, if_neg hne, Action.bind_of_error hcheck]

end Collection

/-- **The frame of the endpoint of an operation**, which reads the body of the request if it needs one. -/
theorem Endpoint.run_framed (c : Collection R) (op : Operation) (i : Inflight R) {env : Env}
    (hh : env.Honest) {w : World R} (hkeyed : op = .merge → c.KeyedById (w.stores c.node))
    (hfresh : op = .create → (w.stores c.node).get? (env.freshId w.idsUsed) = none) :
    ∃ response w', (Endpoint.operation c op).run i env w = (.ok response, w')
      ∧ c.Framed (i.context.id? c.name) w w' op := by
  rw [Endpoint.run]
  split
  · rw [Action.withBody]
    split
    · exact ⟨_, w, rfl, Collection.Framed.refl c _ w op⟩
    · exact c.handle_framed op i.context i.request.body hh hkeyed hfresh
  · exact c.handle_framed op i.context .empty hh hkeyed hfresh

/-- Not a hook that runs before a resource is stored. -/
def Event.NoSave (e : Event) : Prop := ∀ node m id, e ≠ .bind node ∧ e ≠ .save node m id

/-- Around a route no hook runs that belongs to storing. -/
theorem Event.Passing.noSave {node : NodeKey} {e : Event} (h : e.Passing node) : e.NoSave := by
  intro node m id
  constructor
  · rintro rfl
    exact h
  · rintro rfl
    exact h

section Request

variable {routes : List (Route R)} {request : Request} {route : Route R} {taken : List (String × String)}
  {c : Collection R} {op : Operation} {env : Env} {w : World R}

/-- A request that a default handler answers stays within the frame of its operation. -/
theorem Router.answer_framed
    (hlookup : Route.lookup (routes.map fun r => (r.pattern, r)) request.path = some (route, taken))
    (hendpoint : route.endpoint? request.method = some (.operation c op))
    (hh : env.Honest) (hkeyed : op = .merge → c.KeyedById (w.stores c.node))
    (hfresh : op = .create → ∀ n, w.idsUsed ≤ n → (w.stores c.node).get? (env.freshId n) = none) :
    c.Framed (Form.lookup (decodeParams taken) (idParam c.name)) w (answer routes request env w).2 op := by
  obtain ⟨d, w₁, hdescend⟩ := Layer.descend_apply route.layers (dispatched request taken) env w
  have hharmless := Layer.descend_harmless route.layers (P := fun _ => True) (fun _ _ _ _ => trivial)
    (dispatched request taken)
  have hstores := hharmless.stores env w
  have hids := hharmless.ids env w
  rw [hdescend] at hstores hids
  cases d with
  | stopped outer s =>
      obtain ⟨w', hanswer, hout, -⟩ := answer_of_stopped hlookup hdescend
      rw [hanswer]
      exact (Collection.Framed.refl c _ w op).congr rfl (hout.trans hstores)
  | arrived i =>
      -- the way in changes no store, so what is assumed of the stores holds on arrival
      have hkeyed₁ : op = .merge → c.KeyedById (w₁.stores c.node) := by
        rw [hstores]
        exact hkeyed
      have hfresh₁ : op = .create → (w₁.stores c.node).get? (env.freshId w₁.idsUsed) = none := by
        intro hop
        rw [hstores]
        exact hfresh hop w₁.idsUsed hids
      obtain ⟨response, w₂, hrun, hframed⟩ := Endpoint.run_framed c op i hh hkeyed₁ hfresh₁
      have hreached : route.reached request.method i env w₁ = (.ok response, w₂) := by
        rw [Route.reached, hendpoint]
        exact hrun
      obtain ⟨w', hanswer, hout, -⟩ := answer_of_arrived hlookup hdescend hreached
      -- no middleware changes the path parameters, so the handler sees the ID of the path
      have hid : i.context.id? c.name = Form.lookup (decodeParams taken) (idParam c.name) := by
        have hparams : i.params = decodeParams taken := Layer.descend_params hdescend
        rw [← hparams]
        rfl
      rw [hid] at hframed
      rw [hanswer]
      exact hframed.congr hstores.symm hout

/-- **A request that would create under a taken ID is a conflict**: it changes nothing, and no hook runs. -/
theorem Router.answer_conflict
    (hlookup : Route.lookup (routes.map fun r => (r.pattern, r)) request.path = some (route, taken))
    (hendpoint : route.endpoint? request.method = some (.operation c .create))
    {i : Inflight R} {w₁ : World R} {posted : R}
    (hdescend : Layer.descend route.layers (dispatched request taken) env w = (.ok (.arrived i), w₁))
    (hsize : i.request.body.size ≤ bodyLimit) (hposted : c.bindBody i.request.body = .ok posted)
    (hne : c.kind.id posted ≠ "") (htaken : (w.stores c.node).get? (c.kind.id posted) ≠ none)
    (hworks : ∀ n, env.outage c.node n (.get (c.kind.id posted)) = none) :
    (answer routes request env w).1
        = route.dressed request.method (Layer.left route.layers (.error (.conflict (c.kind.id posted))))
      ∧ (answer routes request env w).2.stores = w.stores
      ∧ w.LogsOnly Event.NoSave (answer routes request env w).2 := by
  have hharmless := Layer.descend_harmless route.layers (P := Event.NoSave) (fun _ _ _ he => he.noSave)
    (dispatched request taken)
  have hstores := hharmless.stores env w
  have hlog := hharmless.log env w
  rw [hdescend] at hstores hlog
  have hcreate : c.create i.context i.request.body env w₁
      = (.error (.api (.conflict (c.kind.id posted))), w₁.called c.node (.get (c.kind.id posted))) :=
    Collection.create_taken hposted hne (by rw [hstores]; exact htaken) (hworks w₁.storeCalls)
  have hrun : route.reached request.method i = (c.create i.context i.request.body).answered := by
    have hreads : Collection.readsBody .create = true := rfl
    simp only [Route.reached, hendpoint]
    rw [Endpoint.run, if_pos hreads, Action.withBody, if_neg (Nat.not_lt.mpr hsize)]
    rfl
  have hreached : route.reached request.method i env w₁
      = (.ok (.error (.conflict (c.kind.id posted))), w₁.called c.node (.get (c.kind.id posted))) := by
    rw [hrun]
    exact Action.answered_of_error hcreate
  have hcalled : w₁.LogsOnly Event.NoSave (w₁.called c.node (.get (c.kind.id posted))) := by
    refine World.LogsOnly.called (fun node m id => ?_) w₁
    constructor
    · intro h
      cases h
    · intro h
      cases h
  obtain ⟨w', hanswer, hout, hleft⟩ := answer_of_arrived hlookup hdescend hreached
  rw [hanswer]
  refine ⟨rfl, ?_, ?_⟩
  · rw [hout, World.stores_called]
    exact hstores
  · refine (hlog.trans hcalled).trans (hleft.mono fun e he => ?_)
    obtain ⟨layer, -, hleaving⟩ := he
    exact hleaving.passing.noSave

/-- **The frame of a request** that a default handler of a tree answers, whatever layers and hooks there are. The
stores of the other APIs stay as they are, and so does every entry but the one that the path names; listing and
fetching change nothing. A creation changes nothing either, or it adds an entry under an unused ID. If the ID of
its body is taken, the answer is the conflict, no hook runs and nothing changes. -/
theorem request_frame {n : Node R} (hn : n.router = .ok routes)
    (hlookup : Route.lookup (routes.map fun r => (r.pattern, r)) request.path = some (route, taken))
    (hendpoint : route.endpoint? request.method = some (.operation c op))
    (hh : env.Honest) (hkeyed : op = .merge → c.KeyedById (w.stores c.node))
    (hfresh : op = .create → ∀ n, w.idsUsed ≤ n → (w.stores c.node).get? (env.freshId n) = none) :
    ∃ site ∈ n.sites, route = site.route .root ∧ site.owner.collectionAt (site.path .root) = some c
      ∧ (∀ node, node ≠ c.node → (Router.answer routes request env w).2.stores node = w.stores node)
      ∧ (op = .list ∨ op = .fetch → (Router.answer routes request env w).2.stores = w.stores)
      ∧ (op.onItem = true → ∀ key, Form.lookup (Router.decodeParams taken) (idParam c.name) ≠ some key →
        ((Router.answer routes request env w).2.stores c.node).get? key = (w.stores c.node).get? key)
      ∧ (op = .create → (Router.answer routes request env w).2.stores c.node = w.stores c.node
        ∨ ∃ r, (w.stores c.node).get? (c.kind.id r) = none
          ∧ (Router.answer routes request env w).2.stores c.node
            = (w.stores c.node).insert (c.kind.id r) r)
      ∧ (op = .create → ∀ i w₁ posted,
        Layer.descend route.layers (Router.dispatched request taken) env w = (.ok (.arrived i), w₁) →
        i.request.body.size ≤ bodyLimit → c.bindBody i.request.body = .ok posted →
        c.kind.id posted ≠ "" → (w.stores c.node).get? (c.kind.id posted) ≠ none →
        (∀ n, env.outage c.node n (.get (c.kind.id posted)) = none) →
        ∃ e : ApiError, e.status = 409 ∧ e.statusText = "Conflict."
          ∧ (Router.answer routes request env w).1
            = route.dressed request.method (Layer.left route.layers (.error e))
          ∧ (Router.answer routes request env w).2.stores = w.stores
          ∧ w.LogsOnly Event.NoSave (Router.answer routes request env w).2) := by
  obtain ⟨site, hsite, rfl, -⟩ := Node.site_of_lookup hn hlookup
  have hframed := Router.answer_framed hlookup hendpoint hh hkeyed hfresh
  refine ⟨site, hsite, rfl, (Site.collection_of_endpoint hendpoint).1, fun node hnode => hframed.other hnode,
    ?_, fun hop key hkey => hframed.get?_of_ne hop hkey, ?_, ?_⟩
  · rintro (rfl | rfl)
    · exact hframed
    · exact hframed
  · rintro rfl
    rcases hframed with hsame | ⟨r, hnone, hstores⟩
    · exact Or.inl (congrFun hsame c.node)
    · exact Or.inr ⟨r, hnone, by rw [hstores, World.stores_setStore, if_pos rfl]⟩
  · rintro rfl i w₁ posted hdescend hsize hposted hne htaken hworks
    obtain ⟨hresponse, hstores, hlog⟩ :=
      Router.answer_conflict hlookup hendpoint hdescend hsize hposted hne htaken hworks
    exact ⟨.conflict (c.kind.id posted), rfl, rfl, hresponse, hstores, hlog⟩

end Request

/-! ## A taken ID -/

namespace Notebook

/-- Notes whose hook moves whatever is stored to another ID. -/
def service : Service Record where
  kind := Record.schemaless
  blank := Record.empty
  hooks := { onSave := some fun _ r => .ok { r with identity := ⟨"elsewhere", none⟩ } }

/-- The only API of a tree. -/
def tree : Node Record := .api { name := "notes", base := "/notes" } service

/-- Its resources. -/
def notes : Collection Record := service.collection "notes" ["notes"]

/-- The routes of the tree. -/
def routes : List (Route Record) := tree.sites.map (Site.route .root)

/-- A request to create the note `n`. -/
def posting : Request := ⟨.post, "/notes", none, [], "\x7b\"id\":\"n\"\x7d".toUTF8⟩

/-- The note that is there already. -/
def taken : Record := ⟨⟨"n", some ⟨0, 0⟩⟩, [("text", .str "old")]⟩

/-- The world with this note. -/
def world : World Record := World.initial.setStore ["notes"] (Store.empty.insert "n" taken)

theorem router_tree : tree.router = .ok routes := Node.router_eq (by decide +kernel)

end Notebook

open Notebook in
/-- A note that is posted under a taken ID is a conflict, although the hook would move it elsewhere. -/
theorem request_frame_taken : ∃ e : ApiError, e.status = 409 ∧ e.statusText = "Conflict."
    ∧ (Router.answer routes posting (Env.quiet "m") world).1 = .error e
    ∧ (Router.answer routes posting (Env.quiet "m") world).2.stores = world.stores
    ∧ world.LogsOnly Event.NoSave (Router.answer routes posting (Env.quiet "m") world).2 := by
  have hlookup : Route.lookup (routes.map fun r => (r.pattern, r)) posting.path
      = some (Site.route .root ⟨[], tree, .collection⟩, []) := rfl
  have hfresh (k : Nat) : (world.stores notes.node).get? ((Env.quiet "m").freshId k) = none := by
    have hid : (Env.quiet "m").freshId k = "m" := rfl
    rw [hid]
    decide +kernel
  have hendpoint : (Site.route .root ⟨[], tree, .collection⟩).endpoint? posting.method
      = some (.operation notes .create) := rfl
  obtain ⟨-, -, -, -, -, -, -, -, hconflict⟩ := request_frame router_tree hlookup hendpoint
    (Env.quiet_honest "m") (fun hop => by cases hop) (fun _ k _ => hfresh k)
  have hposted : notes.bindBody posting.body = .ok ⟨⟨"n", none⟩, []⟩ := by cbv
  exact hconflict rfl _ _ _ rfl (by decide +kernel) hposted (by decide) (by decide +kernel) (fun _ => rfl)

end ResourceTree
