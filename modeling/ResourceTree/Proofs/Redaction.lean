import ResourceTree.Blueprint.Kinds
import ResourceTree.Proofs.CommutingRequests
import ResourceTree.Proofs.DefaultAnswers
import ResourceTree.Proofs.SortedFields

/-! # Redaction

What an API shows of a resource is made of what rendering leaves of it. So two stores whose resources are rendered alike
(`Collection.ShowsSame`) cannot be told apart by any fetch or list, be it answered as JSON or as a page:
`redaction_complete`. The layers around the route do not see the store at all, and the two handlers make the same answer
of both stores. -/

namespace ResourceTree

open ResourceTree.Action (SeesOnly)

variable {R : Type}

/-! ## Handlers -/

namespace Collection

/-- **Stores that are shown alike**: they have the same IDs in the same order, and rendering makes the same of the two
resources under an ID, or fails with the same error. -/
def ShowsSame (c : Collection R) (ctx : Context R) (s s' : Store R) : Prop :=
  List.Forall₂ (fun row row' => row.1 = row'.1 ∧ c.kind.render ctx row.2 = c.kind.render ctx row'.2) s.rows s'.rows

variable {c : Collection R} {ctx : Context R} {s s' : Store R} {env : Env} {seen : NodeKey → String → Prop}
  {w w' : World R}

/-- An ID gives nothing in both stores, or resources that are rendered alike. -/
theorem ShowsSame.get? (h : c.ShowsSame ctx s s') (id : String) :
    s.get? id = none ∧ s'.get? id = none
      ∨ ∃ r r', s.get? id = some r ∧ s'.get? id = some r' ∧ c.kind.render ctx r = c.kind.render ctx r' := by
  obtain ⟨rows⟩ := s
  obtain ⟨rows'⟩ := s'
  have hrows : List.Forall₂ (fun row row' => row.1 = row'.1 ∧ c.kind.render ctx row.2 = c.kind.render ctx row'.2)
      rows rows' := h
  induction hrows with
  | nil => exact Or.inl ⟨rfl, rfl⟩
  | @cons row row' rows rows' hrow hrest ih =>
      rw [Store.get?_cons, Store.get?_cons, ← hrow.1]
      by_cases hid : row.1 = id
      · rw [if_pos hid, if_pos hid]
        exact Or.inr ⟨row.2, row'.2, rfl, rfl, hrow.2⟩
      · rw [if_neg hid, if_neg hid]
        exact ih hrest

/-- The resources of both stores are rendered alike, one by one. -/
theorem ShowsSame.toList (h : c.ShowsSame ctx s s') :
    List.Forall₂ (fun r r' => c.kind.render ctx r = c.kind.render ctx r') s.toList s'.toList :=
  List.forall₂_map_left_iff.mpr (List.forall₂_map_right_iff.mpr (h.imp fun _ _ hrow => hrow.2))

/-- **Only what is rendered is shown.** -/
theorem present_of_render (hwrapper : c.hooks.wrapper = none) {r r' : R}
    (h : c.kind.render ctx r = c.kind.render ctx r') (allowPage : Bool) :
    c.present ctx allowPage r = c.present ctx allowPage r' := by
  rw [present, present, hwrapper]
  simp only [Kind.view, h]

theorem presentAll_of_render (hwrapper : c.hooks.wrapper = none) {rs rs' : List R}
    (h : List.Forall₂ (fun r r' => c.kind.render ctx r = c.kind.render ctx r') rs rs') :
    c.presentAll ctx rs = c.presentAll ctx rs' := by
  induction h with
  | nil => rfl
  | cons hr _ ih => rw [presentAll, presentAll, present_of_render hwrapper hr, ih]

theorem seesOnly_presentAll (c : Collection R) (ctx : Context R) (rs : List R) :
    SeesOnly env seen (c.presentAll ctx rs) := by
  induction rs with
  | nil => exact .pure []
  | cons r rs ih => exact .bind (c.seesOnly_present ctx false r) fun _ => .bind ih fun _ => .pure _

/-- Of both stores no resource can be had, for the same reason, or one that is rendered alike. -/
theorem requested_same (hw : w.Alike env seen w') (hsame : c.ShowsSame ctx (w.stores c.node) (w'.stores c.node)) :
    (∃ e w₁ w₁', c.requested ctx env w = (.error e, w₁) ∧ c.requested ctx env w' = (.error e, w₁'))
      ∨ ∃ r r' w₁ w₁', c.requested ctx env w = (.ok r, w₁) ∧ c.requested ctx env w' = (.ok r', w₁')
        ∧ c.kind.render ctx r = c.kind.render ctx r' ∧ w₁.Alike env seen w₁' := by
  rw [requested_apply, requested_apply]
  cases ctx.resource? c.kind.name c.name with
  | some r => exact Or.inr ⟨r, r, w, w', rfl, rfl, rfl, hw⟩
  | none =>
      cases ctx.id? c.name with
      | none => exact Or.inl ⟨_, w, w', rfl, rfl⟩
      | some id =>
          simp only [Action.found, hw.outage, Store.get]
          cases env.outage c.node w'.storeCalls (.get id) with
          | some e => exact Or.inl ⟨_, _, _, rfl, rfl⟩
          | none =>
              rcases hsame.get? id with ⟨hnone, hnone'⟩ | ⟨r, r', hr, hr', hrender⟩
              · rw [hnone, hnone']
                exact Or.inl ⟨_, _, _, rfl, rfl⟩
              · rw [hr, hr']
                exact Or.inr ⟨r, r', _, _, rfl, rfl, hrender, hw.called c.node (.get id)⟩

/-- **A fetch does not tell such stores apart.** -/
theorem fetch_same (hwrapper : c.hooks.wrapper = none) (hw : w.Alike env seen w')
    (hsame : c.ShowsSame ctx (w.stores c.node) (w'.stores c.node)) :
    (c.fetch ctx env w).1 = (c.fetch ctx env w').1 := by
  rw [fetch]
  rcases requested_same hw hsame with ⟨e, w₁, w₁', h, h'⟩ | ⟨r, r', w₁, w₁', h, h', hrender, halike⟩
  · rw [Action.bind_of_error h, Action.bind_of_error h']
  · rw [Action.bind_of_ok h, Action.bind_of_ok h', respond, respond, present_of_render hwrapper hrender]
    exact (c.seesOnly_respond ctx .get r').outcome w₁ w₁' halike

/-- **A list does not tell them apart either.** -/
theorem list_same (hplain : c.ShowsPlainly) (hfilter : c.hooks.filter = none) (hw : w.Alike env seen w')
    (hsame : c.ShowsSame ctx (w.stores c.node) (w'.stores c.node)) :
    (c.list ctx env w).1 = (c.list ctx env w').1 := by
  have hselect (s : Store R) : s.select (fun _ => true) = s.toList := List.filter_true s.toList
  have hlist := Action.list_apply c.node (fun _ => true) env w
  have hlist' := Action.list_apply c.node (fun _ => true) env w'
  rw [hw.outage] at hlist
  rw [list, selection, hfilter, pure_bind, hplain.listWrapper]
  cases houtage : env.outage c.node w'.storeCalls .list with
  | some e =>
      rw [houtage] at hlist hlist'
      rw [Action.orFail, bind_assoc, Action.bind_of_ok hlist, Action.bind_of_ok hlist']
      rfl
  | none =>
      rw [houtage] at hlist hlist'
      simp only [hselect] at hlist hlist'
      rw [Action.orFail, bind_assoc, Action.bind_of_ok hlist, Action.bind_of_ok hlist']
      simp only [pure_bind, presentAll_of_render hplain.wrapper hsame.toList]
      have hanswer : SeesOnly env seen (c.presentAll ctx (w'.stores c.node).toList >>= fun items =>
          pure ((Payload.json (.obj [("items", .arr items)])).toResponse (c.codes.get .get))) :=
        .bind (c.seesOnly_presentAll ctx _) fun _ => .pure _
      exact hanswer.outcome _ _ (hw.called c.node .list)

end Collection

/-! ## Routes -/

namespace Site

variable {site : Site R} {c c' : Collection R} {l : Layer R}

/-- What the nodes above an API load is not its own. -/
theorem node_ne_of_above {above : Collection R} (hc : site.owner.collectionAt (site.path .root) = some c)
    (hl : l ∈ Node.chainLayers .root site.above) (hload : l.loader? = some above) : above.node ≠ c.node := by
  -- all keys above the owner are shorter
  obtain ⟨a, ha, rfl⟩ := Node.loader_chainLayers hl hload
  obtain ⟨before, n, after, habove, hn, -⟩ := Node.mem_ancestors ha
  intro hnode
  have hlength := (Node.length_key hn).symm.trans ((congrArg List.length hnode).trans (Node.length_key hc))
  rw [chain, habove] at hlength
  simp at hlength

/-- What resolves resources for the nodes below is not around the routes of the API itself. -/
theorem resolve_not_mem (hspot : site.spot = .collection ∨ site.spot = .item)
    (hc : site.owner.collectionAt (site.path .root) = some c) : .resolve c ∉ (site.route .root).layers := by
  intro hl
  rw [route, List.mem_append] at hl
  rcases hl with hl | hl
  · exact node_ne_of_above hc hl rfl rfl
  · have hplain : .resolve c ∉ site.owner.plainLayers (site.path .root) := by
      intro h
      obtain ⟨m, -, hm⟩ := List.mem_map.mp h
      cases hm
    have hid : .resolve c ∉ site.owner.idLayers (site.path .root) := by
      intro h
      rw [Node.idLayers] at h
      cases hs : site.owner.service with
      | none => simp [hs] at h
      | some s =>
          rw [hs] at h
          obtain ⟨m, -, hm⟩ := List.mem_map.mp h
          cases m <;> cases hm
    rcases hspot with hspot | hspot
    · rw [hspot] at hl
      exact hplain hl
    · rw [hspot] at hl
      rcases List.mem_append.mp hl with hl | hl
      · exact hplain hl
      · exact hid hl

/-- **The layers of an API without guards do not see its store.** -/
theorem sees_others (hspot : site.spot = .collection ∨ site.spot = .item)
    (hc : site.owner.collectionAt (site.path .root) = some c) (hguards : ∀ g, .guard c g ∉ (site.route .root).layers)
    (params : List (String × String)) :
    ∀ l ∈ (site.route .root).layers, l.Sees (fun node _ => node ≠ c.node) params := by
  intro l hl c' hc' id _ hnode
  cases loader_eq hc hl hc' hnode
  cases l with
  | plain node m => cases hc'
  | guard c'' g =>
      cases hc'
      exact hguards g hl
  | resolve c'' =>
      cases hc'
      exact resolve_not_mem hspot hc hl

end Site

/-- **A route of an API without guards does not see its store** before the request arrives. -/
theorem Route.sees_others {routes : List (Route R)} {n : Node R} (hn : n.router = .ok routes) {request : Request}
    {route : Route R} {taken : List (String × String)}
    (hlookup : Route.lookup (routes.map fun r => (r.pattern, r)) request.path = some (route, taken))
    {c : Collection R} {op : Operation} (hendpoint : route.endpoint? request.method = some (.operation c op))
    (hguards : ∀ g, .guard c g ∉ route.layers) :
    ∀ l ∈ route.layers, l.Sees (fun node _ => node ≠ c.node) (Router.decodeParams taken) := by
  obtain ⟨site, -, rfl, -⟩ := Node.site_of_lookup hn hlookup
  obtain ⟨hc, hspot⟩ := Site.collection_of_endpoint hendpoint
  exact Site.sees_others hspot hc hguards (Router.decodeParams taken)

/-- Worlds that differ in one store are alike elsewhere. -/
theorem World.Alike.elsewhere (env : Env) (w : World R) (node : NodeKey) (s s' : Store R) :
    (w.setStore node s).Alike env (fun other _ => other ≠ node) (w.setStore node s') where
  entries other id hother := by rw [World.stores_setStore, World.stores_setStore, if_neg hother, if_neg hother]
  clock _ := rfl
  outages _ _ _ := rfl

/-- **Redaction is complete.** A fetch or a list of an API without wrappers, filter and guards is answered alike,
whatever headers it has, from any two stores that hold the same IDs in the same order and whose resources are rendered
alike as the request arrives: the answers have the same status, the same headers and the same body. -/
theorem redaction_complete {routes : List (Route R)} {n : Node R} (hn : n.router = .ok routes) {request : Request}
    {route : Route R} {taken : List (String × String)}
    (hlookup : Route.lookup (routes.map fun r => (r.pattern, r)) request.path = some (route, taken))
    {c : Collection R} {op : Operation} (hendpoint : route.endpoint? request.method = some (.operation c op))
    (hop : op = .list ∨ op = .fetch) (hplain : c.ShowsPlainly) (hfilter : c.hooks.filter = none)
    (hguards : ∀ g, .guard c g ∉ route.layers) {env : Env} {w : World R} {s s' : Store R}
    (hsame : ∀ i w₁, Layer.descend route.layers (Router.dispatched request taken) env (w.setStore c.node s)
      = (.ok (.arrived i), w₁) → c.ShowsSame i.context s s') :
    (Router.answer routes request env (w.setStore c.node s)).1
      = (Router.answer routes request env (w.setStore c.node s')).1 := by
  have halike := World.Alike.elsewhere env w c.node s s'
  refine Router.answer_same hlookup (Route.sees_others hn hlookup hendpoint hguards) halike
    fun i w₁ w₁' hdescend halike₁ hstores hstores' => ?_
  have hshown : c.ShowsSame i.context (w₁.stores c.node) (w₁'.stores c.node) := by
    rw [hstores, hstores', World.stores_setStore, World.stores_setStore, if_pos rfl, if_pos rfl]
    exact hsame i w₁ hdescend
  rw [Route.reached, hendpoint]
  rcases hop with rfl | rfl
  · show ((c.list i.context).answered env w₁).1 = ((c.list i.context).answered env w₁').1
    exact Action.answered_outcome (Collection.list_same hplain hfilter halike₁ hshown)
  · show ((c.fetch i.context).answered env w₁).1 = ((c.fetch i.context).answered env w₁').1
    exact Action.answered_outcome (Collection.fetch_same hplain.wrapper halike₁ hshown)

/-! ## Notes with a secret -/

namespace Diary

/-- **Rendering a note removes its secret**, and the secret has no say in whether the note can be rendered. -/
theorem render_setField_secret (ctx : Context Record) (r : Record) (secret : Json) :
    Blueprint.note.kind.render ctx (r.setField "secret" secret) = Blueprint.note.kind.render ctx r := by
  have htext : (r.setField "secret" secret).text "text" = r.text "text" := by
    simp [Record.text, Record.field?, Record.setField, Fields.get?_put]
  have hredacted : (r.setField "secret" secret).setField "secret" .null = r.setField "secret" .null := by
    simp only [Record.setField, Fields.put_put]
  show (if (r.setField "secret" secret).text "text" = "unrenderable" then _ else _)
    = (if r.text "text" = "unrenderable" then _ else _)
  rw [htext, hredacted]

/-- Notes that keep a secret. -/
def service : Service Record where
  kind := Blueprint.note.kind
  blank := Record.empty

/-- The only API of a tree. -/
def tree : Node Record := .api { name := "notes", base := "/notes" } service

/-- Its resources. -/
def notes : Collection Record := service.collection "notes" ["notes"]

/-- The routes of the tree. -/
def routes : List (Route Record) := tree.sites.map (Site.route .root)

theorem router_tree : tree.router = .ok routes := Node.router_eq (by decide +kernel)

/-- A request for a page with the note `n`. -/
def reading : Request := ⟨.get, "/notes/n", none, [("accept", "text/html")], .empty⟩

/-- A note. -/
def entry : Record := ⟨⟨"n", none⟩, [("text", .str "dear diary")]⟩

/-- A store with the note, which has this secret. -/
def keeping (secret : String) : Store Record := Store.empty.insert "n" (entry.setField "secret" (.str secret))

theorem showsSame_keeping (ctx : Context Record) (secret secret' : String) :
    notes.ShowsSame ctx (keeping secret) (keeping secret') :=
  .cons ⟨rfl, (render_setField_secret ctx entry (.str secret)).trans
    (render_setField_secret ctx entry (.str secret')).symm⟩ .nil

end Diary

open Diary in
/-- Notes with different secrets have the same page. -/
theorem redaction_complete_diary :
    keeping "a" ≠ keeping "b"
      ∧ (Router.answer routes reading (Env.quiet "m") (World.initial.setStore notes.node (keeping "a"))).1
        = (Router.answer routes reading (Env.quiet "m") (World.initial.setStore notes.node (keeping "b"))).1 := by
  have hlookup : Route.lookup (routes.map fun r => (r.pattern, r)) reading.path
      = some (Site.route .root ⟨[], tree, .item⟩, [("notes_id", "n")]) := rfl
  have hendpoint : (Site.route .root ⟨[], tree, .item⟩).endpoint? reading.method
      = some (.operation notes .fetch) := rfl
  have hlayers : (Site.route .root ⟨[], tree, .item⟩).layers = [] := rfl
  constructor
  · intro h
    have hget := congrArg (fun s => (s.get? "n").map fun r => r.text "secret") h
    exact absurd hget (by decide +kernel)
  · refine redaction_complete router_tree hlookup hendpoint (Or.inr rfl) ⟨rfl, rfl⟩ rfl (fun g hg => ?_)
      fun i _ _ => showsSame_keeping i.context _ _
    rw [hlayers] at hg
    cases hg

end ResourceTree
