import ResourceTree.Proofs.Ancestry
import ResourceTree.Proofs.RequestFrame

/-! # The entries that a request sees

Two worlds are alike for some entries of the stores if they agree on these entries and on all supplies that are left
(`World.Alike`). An action that sees no other entries comes to the same end in both, and leaves them alike again
(`Action.SeesOnly`); primitive actions are told apart by their storage calls, and everything else is built up from them.
So a request for one resource sees, besides what the layers around its route load, the entry of its own ID only:
`Router.seesOnly_answer`. -/

namespace ResourceTree

variable {R α β : Type}

/-- **Worlds that are alike** for some entries of the stores, and for the supplies that are left. -/
structure World.Alike (env : Env) (seen : NodeKey → String → Prop) (w w' : World R) : Prop where
  entries : ∀ node id, seen node id → (w.stores node).get? id = (w'.stores node).get? id
  clock : ∀ n, env.now (w.looksAtClock + n) = env.now (w'.looksAtClock + n)
  outages : ∀ n node call, env.outage node (w.storeCalls + n) call = env.outage node (w'.storeCalls + n) call

namespace World.Alike

variable {env : Env} {seen : NodeKey → String → Prop} {w w' : World R}

theorem symm (h : Alike env seen w w') : Alike env seen w' w where
  entries node id hseen := (h.entries node id hseen).symm
  clock n := (h.clock n).symm
  outages n node call := (h.outages n node call).symm

/-- The next storage call is hit by the same outage. -/
theorem outage (h : Alike env seen w w') (node : NodeKey) (call : StoreCall) :
    env.outage node w.storeCalls call = env.outage node w'.storeCalls call := h.outages 0 node call

theorem called (h : Alike env seen w w') (node : NodeKey) (call : StoreCall) :
    Alike env seen (w.called node call) (w'.called node call) where
  entries := h.entries
  clock := h.clock
  outages n node' call' := by
    have := h.outages (1 + n) node' call'
    rwa [← Nat.add_assoc, ← Nat.add_assoc] at this

/-- Stores that are changed in the same way stay alike. -/
theorem setStore (h : Alike env seen w w') (node : NodeKey) {s s' : Store R}
    (hs : ∀ id, seen node id → s.get? id = s'.get? id) :
    Alike env seen (w.setStore node s) (w'.setStore node s') where
  entries other id hseen := by
    rw [World.stores_setStore, World.stores_setStore]
    by_cases hother : other = node
    · subst hother
      rw [if_pos rfl, if_pos rfl]
      exact hs id hseen
    · rw [if_neg hother, if_neg hother]
      exact h.entries other id hseen
  clock := h.clock
  outages := h.outages

end World.Alike

/-! ## Actions -/

/-- An answer depends on nothing but the outcome. -/
theorem Action.answered_outcome {x : Action R Response} {env env' : Env} {w w' : World R}
    (h : (x env w).1 = (x env' w').1) : (x.answered env w).1 = (x.answered env' w').1 := by
  rw [Action.answered, bind_apply, bind_apply, Action.attempt, Action.attempt]
  rcases hxw : x env w with ⟨r, w₁⟩
  rcases hxw' : x env' w' with ⟨r', w₁'⟩
  rw [hxw, hxw'] at h
  obtain rfl : r = r' := h
  rcases r with (e | _) | response <;> rfl

/-- **An action that sees some entries only**: in worlds that are alike for them it comes to the same end, and it leaves
worlds that are alike. -/
structure Action.SeesOnly (env : Env) (seen : NodeKey → String → Prop) (x : Action R α) : Prop where
  outcome : ∀ w w', w.Alike env seen w' → (x env w).1 = (x env w').1
  after : ∀ w w', w.Alike env seen w' → (x env w).2.Alike env seen (x env w').2

namespace Action.SeesOnly

variable {env : Env} {seen : NodeKey → String → Prop}

/-- Both at once, for two worlds. -/
theorem of_both {x : Action R α} (h : ∀ w w', w.Alike env seen w' →
    (x env w).1 = (x env w').1 ∧ (x env w).2.Alike env seen (x env w').2) : SeesOnly env seen x :=
  ⟨fun w w' hw => (h w w' hw).1, fun w w' hw => (h w w' hw).2⟩

protected theorem pure (a : α) : SeesOnly env seen (pure a : Action R α) := ⟨fun _ _ _ => rfl, fun _ _ h => h⟩

theorem fail (e : ApiError) : SeesOnly env seen (fail e : Action R α) := ⟨fun _ _ _ => rfl, fun _ _ h => h⟩

theorem lift (x : Except ApiError α) : SeesOnly env seen (lift x : Action R α) := by
  cases x with
  | ok a => exact .pure a
  | error e => exact fail e

theorem emit (e : Event) : SeesOnly env seen (emit e : Action R Unit) :=
  ⟨fun _ _ _ => rfl, fun _ _ h => ⟨h.entries, h.clock, h.outages⟩⟩

theorem now : SeesOnly env seen (now : Action R Timestamp) where
  outcome w w' h := congrArg Except.ok (h.clock 0)
  after w w' h := by
    refine ⟨h.entries, fun n => ?_, h.outages⟩
    have := h.clock (1 + n)
    rwa [← Nat.add_assoc, ← Nat.add_assoc] at this

/-- What follows may rely on coming after the first action. -/
theorem bind_of_ok {x : Action R α} {f : α → Action R β} (hx : SeesOnly env seen x)
    (hf : ∀ a w w₁, x env w = (.ok a, w₁) → SeesOnly env seen (f a)) : SeesOnly env seen (x >>= f) := by
  refine of_both fun w w' h => ?_
  have houtcome := hx.outcome w w' h
  have hafter := hx.after w w' h
  rcases hxw : x env w with ⟨r, w₁⟩
  rcases hxw' : x env w' with ⟨r', w₁'⟩
  rw [hxw, hxw'] at houtcome hafter
  obtain rfl : r = r' := houtcome
  cases r with
  | error e =>
      rw [Action.bind_of_error hxw, Action.bind_of_error hxw']
      exact ⟨rfl, hafter⟩
  | ok a =>
      rw [Action.bind_of_ok hxw, Action.bind_of_ok hxw']
      have hrest := hf a w w₁ hxw
      exact ⟨hrest.outcome w₁ w₁' hafter, hrest.after w₁ w₁' hafter⟩

theorem bind {x : Action R α} {f : α → Action R β} (hx : SeesOnly env seen x) (hf : ∀ a, SeesOnly env seen (f a)) :
    SeesOnly env seen (x >>= f) := hx.bind_of_ok fun a _ _ _ => hf a

/-- Looking at the outcome shows nothing else. -/
theorem attempt {x : Action R α} (hx : SeesOnly env seen x) : SeesOnly env seen x.attempt := by
  refine of_both fun w w' h => ?_
  have houtcome := hx.outcome w w' h
  have hafter := hx.after w w' h
  rw [Action.attempt, Action.attempt]
  rcases hxw : x env w with ⟨r, w₁⟩
  rcases hxw' : x env w' with ⟨r', w₁'⟩
  rw [hxw, hxw'] at houtcome hafter
  obtain rfl : r = r' := houtcome
  rcases r with (e | _) | a
  · exact ⟨rfl, hafter⟩
  · exact ⟨rfl, hafter⟩
  · exact ⟨rfl, hafter⟩

theorem answered {x : Action R Response} (hx : SeesOnly env seen x) : SeesOnly env seen x.answered := by
  refine hx.attempt.bind fun outcome => ?_
  cases outcome with
  | ok response => exact .pure response
  | error e => exact .pure _

theorem orFail {x : Action R (Except StorageError α)} (hx : SeesOnly env seen x) :
    SeesOnly env seen (Action.orFail x) := by
  refine hx.bind fun outcome => ?_
  cases outcome with
  | ok a => exact .pure a
  | error e => exact fail _

theorem withBody {request : Request} {f : ByteArray → Action R Response} (hf : ∀ body, SeesOnly env seen (f body)) :
    SeesOnly env seen (Action.withBody request f) := by
  rw [Action.withBody]
  split
  · exact .pure _
  · exact hf _

/-! ### Storage calls -/

/-- A get call sees the entry that it asks for. -/
theorem get {node : NodeKey} {id : String} (h : seen node id) : SeesOnly env seen (get node id : Action R _) where
  outcome w w' hw := by
    rw [get_apply, get_apply, found, found, hw.outage, Store.get, Store.get, hw.entries node id h]
  after w w' hw := by
    rw [get_apply, get_apply]
    exact hw.called node _

/-- A set call sees nothing. -/
theorem set (node : NodeKey) (id : String) (r : R) : SeesOnly env seen (set node id r) := by
  refine of_both fun w w' hw => ?_
  rw [set_apply, set_apply, hw.outage]
  cases env.outage node w'.storeCalls (.set id) with
  | some e => exact ⟨rfl, hw.called node _⟩
  | none =>
      refine ⟨rfl, (hw.called node _).setStore node fun other hother => ?_⟩
      rw [Store.get?_insert, Store.get?_insert, hw.entries node other hother]

/-- A delete call sees whether there is an entry to delete. -/
theorem delete {node : NodeKey} {id : String} (h : seen node id) :
    SeesOnly env seen (delete node id : Action R _) := by
  refine of_both fun w w' hw => ?_
  rw [delete_apply, delete_apply, hw.outage, hw.entries node id h]
  cases env.outage node w'.storeCalls (.delete id) with
  | some e => exact ⟨rfl, hw.called node _⟩
  | none =>
      cases (w'.stores node).get? id with
      | none => exact ⟨rfl, hw.called node _⟩
      | some r =>
          refine ⟨rfl, (hw.called node _).setStore node fun other hother => ?_⟩
          rw [Store.get?_erase, Store.get?_erase, hw.entries node other hother]

end Action.SeesOnly

/-! ## Default handlers -/

open ResourceTree.Action (SeesOnly)

section Handlers

variable {env : Env} {seen : NodeKey → String → Prop} {c : Collection R} {ctx : Context R}

theorem Payload.seesOnly_ofView (ctx : Context R) (allowPage : Bool) (rendered asked : Event)
    (view : Except ApiError View) :
    SeesOnly env seen (ofView ctx allowPage rendered asked view : Action R Payload) := by
  have hpage (view : View) (page : Option String) : SeesOnly env seen (ofPage view page : Action R Payload) := by
    cases page with
    | some text => exact .pure _
    | none =>
        rw [ofPage]
        cases view.json with
        | ok value => exact .pure _
        | error reason => exact .fail _
  rw [ofView_eq]
  refine .bind (.emit _) fun _ => .bind (.lift view) fun view => ?_
  split
  · exact .bind (.emit _) fun _ => hpage _ _
  · exact hpage _ _

namespace Collection

theorem seesOnly_present (c : Collection R) (ctx : Context R) (allowPage : Bool) (r : R) :
    SeesOnly env seen (c.present ctx allowPage r) := by
  rw [present]
  cases c.hooks.wrapper with
  | none => exact Payload.seesOnly_ofView ctx allowPage _ _ _
  | some wrap => exact .bind (.emit _) fun _ => Payload.seesOnly_ofView ctx allowPage _ _ _

theorem seesOnly_respond (c : Collection R) (ctx : Context R) (m : Method) (r : R) :
    SeesOnly env seen (c.respond ctx m r) :=
  .bind (c.seesOnly_present ctx true r) fun _ => .pure _

/-- What follows upon the ID of the path may rely on it. -/
theorem seesOnly_pathId {f : String → Action R α} (hf : ∀ id, ctx.id? c.name = some id → SeesOnly env seen (f id)) :
    SeesOnly env seen (Action.lift (c.pathId ctx) >>= f) :=
  (SeesOnly.lift _).bind_of_ok fun id _ _ h => hf id (id?_of_pathId (Action.lift_eq_ok.mp h).1)

/-- The requested resource is the resolved one, or the entry of the ID of the path is seen. -/
theorem seesOnly_requested (h : ∀ id, ctx.id? c.name = some id → seen c.node id) :
    SeesOnly env seen (c.requested ctx) := by
  rw [requested]
  cases ctx.resource? c.kind.name c.name with
  | some r => exact .pure r
  | none => exact seesOnly_pathId fun id hid => .orFail (.get (h id hid))

theorem seesOnly_bind (c : Collection R) (ctx : Context R) (r : R) : SeesOnly env seen (c.bind ctx r) :=
  .bind (.emit _) fun _ => .lift _

theorem seesOnly_patch (c : Collection R) (r partialUpdate : R) : SeesOnly env seen (c.patch r partialUpdate) :=
  .bind (.emit _) fun _ => .lift _

theorem seesOnly_save (c : Collection R) (ctx : Context R) (r : R) : SeesOnly env seen (c.save ctx r) := by
  rw [save]
  cases c.hooks.onSave with
  | none => exact .pure r
  | some hook => exact .bind (.emit _) fun _ => .lift _

theorem seesOnly_store (c : Collection R) (r : R) : SeesOnly env seen (c.store r) := .orFail (.set _ _ r)

theorem seesOnly_deleteHook (hook : Option (Context R → String → Except ApiError Unit)) (event : Event)
    (ctx : Context R) (id : String) : SeesOnly env seen (runDeleteHook hook event ctx id) := by
  cases hook with
  | none => exact .pure ()
  | some hook => exact .bind (.emit _) fun _ => .lift _

theorem seesOnly_createdAt {id : String} (h : seen c.node id) : SeesOnly env seen (c.createdAt id) := by
  refine .bind (.get h) fun outcome => ?_
  rcases outcome with (_ | _) | r
  · exact .pure none
  · exact .fail _
  · exact .pure _

/-- **The default handlers for one resource** see the entry of the ID of the path. -/
theorem seesOnly_handle {op : Operation} (hop : op.onItem = true) (h : ∀ id, ctx.id? c.name = some id → seen c.node id)
    (body : ByteArray) : SeesOnly env seen (c.handle op ctx body) := by
  cases op with
  | list => cases hop
  | create => cases hop
  | fetch => exact .bind (seesOnly_requested h) fun r => c.seesOnly_respond ctx .get r
  | replace =>
      refine seesOnly_pathId fun id hid => .bind (.lift _) fun r => .bind (.lift _) fun _ =>
        .bind (c.seesOnly_bind ctx _) fun r => .bind (seesOnly_createdAt (h id hid)) fun created => ?_
      have hrest (t : Timestamp) : SeesOnly env seen (do
          let identity : Identity := ⟨id, some t⟩
          let r ← c.save ctx (c.kind.withIdentity r identity)
          let r := c.kind.withIdentity r identity
          c.store r
          c.respond ctx .put r) :=
        .bind (c.seesOnly_save ctx _) fun r => .bind (c.seesOnly_store _) fun _ => c.seesOnly_respond ctx .put _
      -- only a new resource is created now
      cases created with
      | some t => exact hrest t
      | none => exact .bind .now hrest
  | merge =>
      exact seesOnly_pathId fun id hid => .bind (.orFail (.get (h id hid))) fun r => .bind (.lift _) fun _ =>
        .bind (.lift _) fun _ => .bind (c.seesOnly_bind ctx _) fun _ => .bind (c.seesOnly_patch r _) fun _ =>
        .bind (c.seesOnly_save ctx _) fun _ => .bind (c.seesOnly_store _) fun _ => c.seesOnly_respond ctx .patch _
  | remove =>
      exact seesOnly_pathId fun id hid => .bind (seesOnly_deleteHook _ _ ctx id) fun _ =>
        .bind (.orFail (.delete (h id hid))) fun _ => .bind (seesOnly_deleteHook _ _ ctx id) fun _ => .pure _

end Collection

/-! ## Layers and routes -/

namespace Layer

/-- **A layer sees what it may load**: the entry of the ID that the path has for the collection of the layer. -/
def Sees (seen : NodeKey → String → Prop) (params : List (String × String)) (l : Layer R) : Prop :=
  ∀ c, l.loader? = some c → ∀ id, Form.lookup params (idParam c.name) = some id → seen c.node id

theorem seesOnly_enter {l : Layer R} {i : Inflight R} (h : l.Sees seen i.params) : SeesOnly env seen (l.enter i) := by
  cases l with
  | plain node m =>
      refine .bind (.emit _) fun _ => ?_
      cases m.enter i.request with
      | error response => exact .pure _
      | ok request => exact .pure _
  | guard c g =>
      have hown : ∀ id, i.context.id? c.name = some id → seen c.node id := h c rfl
      refine .bind (Collection.seesOnly_requested hown).attempt fun outcome => ?_
      cases outcome with
      | error e => exact .pure _
      | ok r =>
          refine .bind (.emit _) fun _ => ?_
          cases g.check i.context r with
          | error e => exact .pure _
          | ok u => exact .pure _
  | resolve c =>
      rw [enter]
      split
      · exact .pure _
      · have hown : ∀ id, i.context.id? c.name = some id → seen c.node id := h c rfl
        refine .bind (Collection.seesOnly_requested hown).attempt fun outcome => ?_
        cases outcome with
        | error e => exact .pure _
        | ok r => exact .pure _

/-- The way in sees what the layers may load, by induction on the layers. -/
theorem seesOnly_descend {layers : List (Layer R)} {i : Inflight R} (h : ∀ l ∈ layers, l.Sees seen i.params) :
    SeesOnly env seen (descend layers i) := by
  induction layers generalizing i with
  | nil => exact .pure _
  | cons layer layers ih =>
      refine (seesOnly_enter (h layer List.mem_cons_self)).bind_of_ok fun entry w w₁ henter => ?_
      cases entry with
      | stopped s => exact .pure _
      | passed i' =>
          -- the request behind the layer has the same path parameters
          refine .bind (ih fun l hl => ?_) fun d => .pure _
          rw [enter_params henter]
          exact h l (List.mem_cons_of_mem layer hl)

/-- The way in from a world that is alike comes to the same, and changes no store in either. -/
theorem descend_alike {layers : List (Layer R)} {i : Inflight R} (h : ∀ l ∈ layers, l.Sees seen i.params)
    {w w' w₁ : World R} (halike : w.Alike env seen w') {d : Descent R} (hdescend : descend layers i env w = (.ok d, w₁)) :
    ∃ w₁', descend layers i env w' = (.ok d, w₁') ∧ w₁.Alike env seen w₁' ∧ w₁.stores = w.stores
      ∧ w₁'.stores = w'.stores := by
  have hdescent : SeesOnly env seen (descend layers i) := seesOnly_descend h
  have houtcome := hdescent.outcome w w' halike
  have hafter := hdescent.after w w' halike
  obtain ⟨d', w₁', hdescend'⟩ := descend_apply layers i env w'
  rw [hdescend, hdescend'] at houtcome hafter
  obtain rfl : d = d' := Except.ok.inj houtcome
  exact ⟨w₁', hdescend', hafter, descend_stores hdescend, descend_stores hdescend'⟩

theorem seesOnly_ascend (layers : List (Layer R)) (response : Response) :
    SeesOnly env seen (ascend layers response) := by
  induction layers with
  | nil => exact .pure response
  | cons layer layers ih =>
      refine .bind ih fun response => ?_
      cases layer with
      | plain node m => exact .bind (.emit _) fun _ => .pure _
      | guard c g => exact .pure _
      | resolve c => exact .pure _

end Layer

namespace Router

variable {routes : List (Route R)} {request : Request} {route : Route R} {taken : List (String × String)}
  {op : Operation}

/-- A request for one resource sees what the layers of its route may load and the entry of its own ID. -/
theorem seesOnly_serve (hlookup : Route.lookup (routes.map fun r => (r.pattern, r)) request.path = some (route, taken))
    (hendpoint : route.endpoint? request.method = some (.operation c op)) (hop : op.onItem = true)
    (hlayers : ∀ l ∈ route.layers, l.Sees seen (decodeParams taken))
    (hid : ∀ id, Form.lookup (decodeParams taken) (idParam c.name) = some id → seen c.node id) :
    SeesOnly env seen (serve routes request) := by
  rw [serve_eq hlookup]
  refine (Layer.seesOnly_descend hlayers).bind_of_ok fun d w w₁ hdescend => ?_
  cases d with
  | stopped outer s => exact .bind (Layer.seesOnly_ascend outer _) fun _ => .pure _
  | arrived i =>
      have hparams : i.params = decodeParams taken := Layer.descend_params hdescend
      have hown : ∀ id, i.context.id? c.name = some id → seen c.node id := by
        rw [← hparams] at hid
        exact hid
      have hreached : SeesOnly env seen (route.reached request.method i) := by
        rw [Route.reached, hendpoint]
        show SeesOnly env seen (Endpoint.run i (.operation c op))
        rw [Endpoint.run]
        split
        · exact .withBody fun body => (Collection.seesOnly_handle hop hown body).answered
        · exact (Collection.seesOnly_handle hop hown .empty).answered
      exact .bind (.bind hreached fun response => Layer.seesOnly_ascend _ response) fun _ => .pure _

/-- What is answered is the outcome of serving. -/
theorem answer_outcome {w w' : World R} (h : (serve routes request env w).1 = (serve routes request env w').1) :
    (answer routes request env w).1 = (answer routes request env w').1 := by
  rw [answer, answer]
  rcases hw : serve routes request env w with ⟨r, w₁⟩
  rcases hw' : serve routes request env w' with ⟨r', w₁'⟩
  rw [hw, hw'] at h
  obtain rfl : r = r' := h
  rcases r with (e | _) | response <;> rfl

/-- Answering leaves the world that serving leaves. -/
theorem answer_world (w : World R) : (answer routes request env w).2 = (serve routes request env w).2 := by
  rw [answer]
  rcases serve routes request env w with ⟨(e | _) | response, w₁⟩ <;> rfl

/-- **What serving sees** decides the answer, and it leaves alike worlds alike. -/
theorem answer_alike (hserve : SeesOnly env seen (serve routes request)) {w w' : World R} (h : w.Alike env seen w') :
    (answer routes request env w).1 = (answer routes request env w').1
      ∧ (answer routes request env w).2.Alike env seen (answer routes request env w').2 := by
  refine ⟨answer_outcome (hserve.outcome w w' h), ?_⟩
  rw [answer_world, answer_world]
  exact hserve.after w w' h

/-- What leaves a route does not depend on the world. -/
theorem outcome_left (route : Route R) (m : Method) (outer : List (Layer R)) (response : Response) (env : Env)
    (w : World R) :
    ((Layer.ascend outer response >>= fun response => pure (route.dressed m response)) env w).1
      = .ok (route.dressed m (Layer.left outer response)) := by
  obtain ⟨w₁, hascend⟩ := Layer.ascend_apply outer response env w
  rw [Action.bind_of_ok hascend]
  rfl

/-- **The same answer from two worlds**: the layers of the route do not tell them apart, and what the route comes to is
the same in the worlds in which the request arrives. -/
theorem answer_same (hlookup : Route.lookup (routes.map fun r => (r.pattern, r)) request.path = some (route, taken))
    (hlayers : ∀ l ∈ route.layers, l.Sees seen (decodeParams taken)) {w w' : World R} (h : w.Alike env seen w')
    (hreached : ∀ i w₁ w₁', Layer.descend route.layers (dispatched request taken) env w = (.ok (.arrived i), w₁) →
      w₁.Alike env seen w₁' → w₁.stores = w.stores → w₁'.stores = w'.stores →
        (route.reached request.method i env w₁).1 = (route.reached request.method i env w₁').1) :
    (answer routes request env w).1 = (answer routes request env w').1 := by
  obtain ⟨d, w₁, hdescend⟩ := Layer.descend_apply route.layers (dispatched request taken) env w
  obtain ⟨w₁', hdescend', hafter, hstores, hstores'⟩ := Layer.descend_alike hlayers h hdescend
  refine answer_outcome ?_
  rw [serve_eq hlookup, Action.bind_of_ok hdescend, Action.bind_of_ok hdescend']
  cases d with
  | stopped outer s => exact (outcome_left route _ outer _ env w₁).trans (outcome_left route _ outer _ env w₁').symm
  | arrived i =>
      have hsame := hreached i w₁ w₁' hdescend hafter hstores hstores'
      rcases hr : route.reached request.method i env w₁ with ⟨r, w₂⟩
      rcases hr' : route.reached request.method i env w₁' with ⟨r', w₂'⟩
      rw [hr, hr'] at hsame
      obtain rfl : r = r' := hsame
      simp only [bind_assoc]
      cases r with
      | error e => rw [Action.bind_of_error hr, Action.bind_of_error hr']
      | ok response =>
          rw [Action.bind_of_ok hr, Action.bind_of_ok hr']
          exact (outcome_left route _ _ response env w₂).trans (outcome_left route _ _ response env w₂').symm

end Router

end Handlers

end ResourceTree
