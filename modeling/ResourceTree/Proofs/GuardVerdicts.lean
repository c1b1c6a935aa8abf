import ResourceTree.Proofs.MiddlewareOrder

/-! # The verdicts of guards

What the middlewares and guards on an ID decide about a request depends on nothing but the request and the
resource that is stored under the ID: `IdMiddleware.verdict` asks one after another, and every guard is given the
resource. A `Site.Gate` is an API whose ID stands in the pattern of a site. `guards_decide` says that no request
gets past a gate but by this verdict, and that one which is stopped there leaves no trace further in. The ID is that of
the path if a tree keeps the parameters of IDs apart and all parameters are UTF-8; otherwise a guard may be shown
nothing, or another resource: `guards_misled`. -/

namespace ResourceTree

variable {R : Type} {env : Env} {w w₁ : World R}

/-! ## Asking one after another -/

/-- What the middlewares on an ID decide about a request. -/
inductive Verdict (R : Type) where
  | admitted (i : Inflight R)
  /-- These have let it pass, and the next one stops it. -/
  | stopped (passed : List (IdMiddleware R)) (m : IdMiddleware R) (s : Layer.Stop R)

/-- The verdict behind one more middleware. -/
def Verdict.behind (m : IdMiddleware R) : Verdict R → Verdict R
  | .admitted i => .admitted i
  | .stopped passed m' s => .stopped (m :: passed) m' s

/-- What asking for the resource of a collection gives while it is not resolved. -/
def Collection.asked (params : List (String × String)) (env : Env) (w : World R) (c : Collection R) :
    Except ApiError R :=
  match Form.lookup params (idParam c.name) with
  | none => .error .notFound
  | some id => (Action.found env w c.node id).mapError .ofStorage

/-- It is what is found under the ID. -/
theorem Collection.asked_of_some {params : List (String × String)} {c : Collection R} {id : String}
    (h : Form.lookup params (idParam c.name) = some id) :
    c.asked params env w = (Action.found env w c.node id).mapError .ofStorage := by
  rw [asked, h]

/-- There is none if nothing is stored under the ID, or if there is no ID. -/
theorem Collection.asked_of_absent {params : List (String × String)} (c : Collection R)
    (h : ∀ id, Form.lookup params (idParam c.name) = some id → Action.found env w c.node id = .error .notFound) :
    c.asked params env w = .error .notFound := by
  rw [asked]
  cases hid : Form.lookup params (idParam c.name) with
  | none => rfl
  | some id =>
      simp only [h id hid]
      rfl

namespace IdMiddleware

/-- The layer of a middleware on the IDs of a collection. -/
def layer (c : Collection R) : IdMiddleware R → Layer R
  | .plain m => .plain c.node m
  | .guard g => .guard c g

/-- What one of them makes of a request, given the resource under the ID, or why there is none: a middleware
answers the request or passes it on, and a guard looks at the resource and accepts or refuses it. -/
def ask (c : Collection R) (found : Except ApiError R) (i : Inflight R) : IdMiddleware R → Layer.Entry R
  | .plain m =>
    match m.enter i.request with
    | .error response => .stopped (.answered response)
    | .ok request => .passed { i with request := request }
  | .guard g =>
    match found with
    | .error e => .stopped (.missing c e)
    | .ok r =>
      match g.check i.context r with
      | .error e => .stopped (.refused e)
      | .ok () => .passed (i.resolve c r)

/-- **What the middlewares on an ID decide**: they are asked in order until one does not let the request pass. -/
def verdict (c : Collection R) (found : Except ApiError R) : List (IdMiddleware R) → Inflight R → Verdict R
  | [], i => .admitted i
  | m :: ms, i =>
    match m.ask c found i with
    | .stopped s => .stopped [] m s
    | .passed i => (verdict c found ms i).behind m

variable {c : Collection R} {found : Except ApiError R} {ms before after passed : List (IdMiddleware R)}
  {m : IdMiddleware R} {i i' : Inflight R} {s : Layer.Stop R}

theorem verdict_of_stopped (h : m.ask c found i = .stopped s) :
    verdict c found (m :: ms) i = .stopped [] m s := by rw [verdict, h]

theorem verdict_of_passed (h : m.ask c found i = .passed i') :
    verdict c found (m :: ms) i = (verdict c found ms i').behind m := by rw [verdict, h]

theorem behind_eq_admitted {v : Verdict R} : v.behind m = .admitted i ↔ v = .admitted i := by
  cases v <;> simp [Verdict.behind]

theorem behind_eq_stopped {v : Verdict R} {first : IdMiddleware R} (h : v.behind first = .stopped passed m s) :
    ∃ passed', passed = first :: passed' ∧ v = .stopped passed' m s := by
  cases v with
  | admitted i => cases h
  | stopped passed' m' s' =>
      cases h
      exact ⟨passed', rfl, rfl⟩

/-- **Whoever is admitted was let pass by each**, by induction on those before. -/
theorem passed_of_admitted (h : verdict c found (before ++ m :: after) i = .admitted i') :
    ∃ i₁ i₂, verdict c found before i = .admitted i₁ ∧ m.ask c found i₁ = .passed i₂ := by
  induction before generalizing i with
  | nil =>
      cases hask : m.ask c found i with
      | stopped s =>
          rw [List.nil_append, verdict_of_stopped hask] at h
          cases h
      | passed i₂ => exact ⟨i, i₂, rfl, hask⟩
  | cons first before ih =>
      rw [List.cons_append] at h
      cases hask : first.ask c found i with
      | stopped s =>
          rw [verdict_of_stopped hask] at h
          cases h
      | passed i₀ =>
          rw [verdict_of_passed hask] at h ⊢
          obtain ⟨i₁, i₂, hbefore, hpassed⟩ := ih (behind_eq_admitted.mp h)
          exact ⟨i₁, i₂, behind_eq_admitted.mpr hbefore, hpassed⟩

/-- **Whoever is stopped** was let pass by those before, and the next one stops it, by induction on all. -/
theorem stopped_of_verdict (h : verdict c found ms i = .stopped passed m s) :
    ∃ rest i₁, ms = passed ++ m :: rest ∧ verdict c found passed i = .admitted i₁
      ∧ m.ask c found i₁ = .stopped s := by
  induction ms generalizing i passed with
  | nil => cases h
  | cons first ms ih =>
      cases hask : first.ask c found i with
      | stopped s' =>
          rw [verdict_of_stopped hask] at h
          cases h
          exact ⟨ms, i, rfl, rfl, hask⟩
      | passed i₀ =>
          rw [verdict_of_passed hask] at h
          obtain ⟨passed', rfl, hinner⟩ := behind_eq_stopped h
          obtain ⟨rest, i₁, rfl, hpassed, hstops⟩ := ih hinner
          refine ⟨rest, i₁, rfl, ?_, hstops⟩
          rw [verdict_of_passed hask]
          exact behind_eq_admitted.mpr hpassed

/-- A guard that has no resource to look at lets nothing pass. -/
theorem not_admitted_of_missing {e : ApiError} {g : Guard R} (hguard : .guard g ∈ ms) (i i' : Inflight R) :
    verdict c (.error e) ms i ≠ .admitted i' := by
  intro hv
  obtain ⟨before, after, rfl⟩ := List.append_of_mem hguard
  obtain ⟨i₁, i₂, -, hpassed⟩ := passed_of_admitted hv
  cases hpassed

/-- So no guard is passed if there is none to look at. -/
theorem stopped_of_missing {e : ApiError} (hguard : ∃ g, .guard g ∈ ms) (i : Inflight R) :
    ∃ passed m s, verdict c (.error e) ms i = .stopped passed m s ∧ (∀ g, .guard g ∉ passed)
      ∧ ((∃ response, s = .answered response) ∨ s = .missing c e) := by
  cases hv : verdict c (.error e) ms i with
  | admitted i' =>
      obtain ⟨g, hg⟩ := hguard
      exact absurd hv (not_admitted_of_missing hg i i')
  | stopped passed m s =>
      obtain ⟨rest, i₁, -, hpassed, hstops⟩ := stopped_of_verdict hv
      refine ⟨passed, m, s, rfl, fun g hg => not_admitted_of_missing hg i i₁ hpassed, ?_⟩
      cases m with
      | plain m =>
          rw [ask] at hstops
          split at hstops
          · cases hstops
            exact Or.inl ⟨_, rfl⟩
          · cases hstops
      | guard g =>
          cases hstops
          exact Or.inr rfl

/-! ## The verdict is what happens -/

/-- What becomes of a request by a verdict. -/
def descent (c : Collection R) : Verdict R → Layer.Descent R
  | .admitted i => .arrived i
  | .stopped passed _ s => .stopped (passed.map (layer c)) s

theorem descent_behind (v : Verdict R) : descent c (v.behind m) = (descent c v).behind (m.layer c) := by
  cases v <;> rfl

/-- A request has this resource of a collection before it: resolved, or by asking for it now. -/
def Faces (c : Collection R) (found : Except ApiError R) (env : Env) (w : World R) (i : Inflight R) : Prop :=
  (i.resolved.get? c.name = none ∧ c.asked i.params env w = found)
    ∨ ∃ r, i.resolved.get? c.name = some ⟨c.kind.name, r⟩ ∧ found = .ok r

/-- Asking for the resource gives it. -/
theorem Faces.attempt (h : Faces c found env w i) :
    ∃ w', (c.requested i.context).attempt env w = (.ok found, w') := by
  rcases h with ⟨hnone, rfl⟩ | ⟨r, hresolved, rfl⟩
  · rw [Action.attempt, Collection.requested_of_not_resolved hnone, Collection.asked]
    cases Form.lookup i.params (idParam c.name) with
    | none => exact ⟨w, rfl⟩
    | some id =>
        refine ⟨w.called c.node (.get id), ?_⟩
        cases hfound : Action.found env w c.node id <;> simp [hfound, Except.mapError]
  · exact ⟨w, Action.attempt_of_ok (Collection.requested_of_resolved hresolved)⟩

/-- **One layer does what its middleware decides**, and whoever passes has the same resource before it still. -/
theorem enter_layer (m : IdMiddleware R) (h : Faces c found env w i) :
    ∃ w', (m.layer c).enter i env w = (.ok (m.ask c found i), w')
      ∧ ∀ i', m.ask c found i = .passed i' → Faces c found env w' i' := by
  cases m with
  | plain m =>
      rw [layer, Layer.enter, Action.bind_of_ok (Action.emit_apply _ env w), ask]
      cases m.enter i.request with
      | error response => exact ⟨_, rfl, fun i' hpassed => by cases hpassed⟩
      | ok request =>
          refine ⟨_, rfl, fun i' hpassed => ?_⟩
          cases hpassed
          exact h
  | guard g =>
      obtain ⟨w₁, hattempt⟩ := h.attempt
      rw [layer, Layer.enter, Action.bind_of_ok hattempt]
      cases found with
      | error e => exact ⟨_, rfl, fun i' hpassed => by cases hpassed⟩
      | ok r =>
          simp only [Action.bind_of_ok (Action.emit_apply _ env w₁), ask]
          cases g.check i.context r with
          | error e => exact ⟨_, rfl, fun i' hpassed => by cases hpassed⟩
          | ok u =>
              refine ⟨_, rfl, fun i' hpassed => Or.inr ⟨r, ?_, rfl⟩⟩
              cases hpassed
              simp [Inflight.resolve, Fields.get?_put]

/-- **The layers of the middlewares on an ID carry out the verdict**, by induction on the middlewares. -/
theorem descend_layers (ms : List (IdMiddleware R)) (h : Faces c found env w i) : ∃ w',
    Layer.descend (ms.map (layer c)) i env w = (.ok (descent c (verdict c found ms i)), w') := by
  induction ms generalizing i w with
  | nil => exact ⟨w, rfl⟩
  | cons m ms ih =>
      obtain ⟨w₁, henter, hnext⟩ := enter_layer m h
      rw [List.map_cons, Layer.descend, Action.bind_of_ok henter]
      cases hask : m.ask c found i with
      | stopped s =>
          rw [verdict_of_stopped hask]
          exact ⟨w₁, rfl⟩
      | passed i' =>
          obtain ⟨w', hrest⟩ := ih (hnext i' hask)
          rw [verdict_of_passed hask, descent_behind]
          exact ⟨w', Action.bind_of_ok hrest _⟩

end IdMiddleware

/-! ## Gates -/

/-- The route stands on a resource's ID or below it. -/
def Spot.IsOnId : Spot R → Prop
  | .item | .onId _ => True
  | _ => False

/-- **A gate** on the way to a site is an API from the top of the tree down to the owner whose ID stands in the
pattern of the site: every one above the owner, and the owner itself if the route is on or below its ID. -/
structure Site.Gate (site : Site R) where
  before : List (Node R)
  node : Node R
  after : List (Node R)
  service : Service R
  chain_eq : site.chain = before ++ node :: after
  service_eq : node.service = some service
  onId : after ≠ [] ∨ site.spot.IsOnId

/-- The layers of a chain begin with those of its first nodes. -/
theorem Node.chainLayers_prefix {ns ms : List (Node R)} (h : ns <+: ms) (parent : RoutePath) :
    chainLayers parent ns <+: chainLayers parent ms := by
  induction ns generalizing ms parent with
  | nil => exact List.nil_prefix
  | cons n ns ih =>
      obtain ⟨rest, rfl⟩ := h
      exact (List.prefix_append_right_inj _).mpr (ih ⟨rest, rfl⟩ _)

/-- A node of a chain that has resources is an ancestor along the chain, by induction on the nodes before it. -/
theorem Node.ancestor_mem {before : List (Node R)} {n : Node R} {parent : RoutePath} {c : Collection R}
    (hc : n.collectionAt (parent.below (before ++ [n])) = some c) (after : List (Node R)) :
    (⟨c, (parent.below (before ++ [n])).idPlace⟩ : Ancestor R) ∈ ancestors parent (before ++ n :: after) := by
  induction before generalizing parent with
  | nil =>
      rw [List.nil_append, ancestors]
      refine List.mem_append_left _ (Option.mem_toList.mpr ?_)
      exact Option.map_eq_some_iff.mpr ⟨c, hc, rfl⟩
  | cons m before ih =>
      have hbelow : parent.below (m :: before ++ [n]) = (m.pathBelow parent).below (before ++ [n]) :=
        RoutePath.below_cons parent m (before ++ [n])
      rw [hbelow] at hc ⊢
      exact List.mem_append_right _ (ih hc)

/-- What the layers of a chain load is named after nodes of the chain. -/
theorem Node.name_of_loader_chainLayers {ns : List (Node R)} {parent : RoutePath} {l : Layer R} {c : Collection R}
    (h : l ∈ chainLayers parent ns) (hc : l.loader? = some c) : c.name ∈ ns.map Node.name := by
  obtain ⟨a, ha, rfl⟩ := loader_chainLayers h hc
  exact (names_ancestors parent ns).subset (List.mem_map_of_mem ha)

/-- A request that is ready for layers is ready for some of them. -/
theorem Layer.Ready.mono {outer layers : List (Layer R)} {seen : List String} {i : Inflight R}
    (h : Ready seen layers i) (hsub : ∀ l ∈ outer, l ∈ layers) : Ready seen outer i where
  seen_iff := h.seen_iff
  fits l hl := h.fits l (hsub l hl)
  agree l hl l' hl' := h.agree l (hsub l hl) l' (hsub l' hl')

namespace Site.Gate

variable {site : Site R} {taken : List (String × String)} {request : Request} {i : Inflight R}

/-- The path of the API. -/
def path (gate : site.Gate) : RoutePath := RoutePath.root.below (gate.before ++ [gate.node])

/-- Its resources. -/
def collection (gate : site.Gate) : Collection R :=
  gate.service.collection gate.node.name gate.path.names

/-- The resources with the place of their ID in the path. -/
def ancestor (gate : site.Gate) : Ancestor R := ⟨gate.collection, gate.path.idPlace⟩

/-- The layers further out. -/
def outer (gate : site.Gate) : List (Layer R) :=
  Node.chainLayers .root gate.before ++ gate.node.plainLayers gate.path

/-- The layers of the middlewares on the ID. -/
def layers (gate : site.Gate) : List (Layer R) :=
  gate.service.idMiddlewares.map (IdMiddleware.layer gate.collection)

/-- What the middlewares on the ID decide about a request that comes to the gate. -/
def verdict (gate : site.Gate) (taken : List (String × String)) (env : Env) (w : World R) (i : Inflight R) :
    Verdict R :=
  IdMiddleware.verdict gate.collection (gate.collection.asked (Router.decodeParams taken) env w)
    gate.service.idMiddlewares i

variable (gate : site.Gate)

theorem collectionAt_eq : gate.node.collectionAt gate.path = some gate.collection := by
  rw [Node.collectionAt, gate.service_eq]
  rfl

theorem idLayers_eq : gate.node.idLayers gate.path = gate.layers := by
  rw [Node.idLayers, gate.service_eq]
  exact List.map_congr_left fun m _ => by cases m <;> rfl

/-- **The layers of a gate are around the route**, behind the layers further out and before everything else. -/
theorem layers_eq : ∃ inner, (site.route .root).layers = gate.outer ++ (gate.layers ++ inner) := by
  have hchain : Node.chainLayers .root (gate.before ++ [gate.node])
      = gate.outer ++ (gate.layers ++ gate.node.resolveLayer gate.path) := by
    rw [Node.chainLayers_append, Node.layersAbove, outer, ← idLayers_eq, List.append_assoc]
    rfl
  have heq := gate.chain_eq
  rw [chain] at heq
  rcases List.eq_nil_or_concat gate.after with hafter | ⟨after, last, hafter⟩
  · -- the gate is the owner's own
    rw [hafter] at heq
    obtain ⟨habove, hlast⟩ := List.append_inj' heq rfl
    have howner : site.owner = gate.node := (List.cons.inj hlast).1
    have hpath : site.path .root = gate.path := by rw [Site.path, chain, habove, howner, path]
    rcases gate.onId with hne | honId
    · exact absurd hafter hne
    · rw [Site.route, habove, hpath, howner]
      cases hspot : site.spot with
      | collection | custom r | root r => rw [hspot] at honId; exact honId.elim
      | item =>
          refine ⟨[], ?_⟩
          rw [List.append_nil, ← idLayers_eq, outer, List.append_assoc]
          rfl
      | onId r =>
          refine ⟨gate.node.resolveLayer gate.path, ?_⟩
          rw [← hchain, Node.chainLayers_append]
          rfl
  · -- it is that of a node above
    rw [hafter, List.concat_eq_append, ← List.cons_append, ← List.append_assoc] at heq
    have habove := (List.append_inj' heq rfl).1
    have hprefix : gate.before ++ [gate.node] <+: site.above := by
      rw [habove, List.append_cons gate.before gate.node after]
      exact List.prefix_append _ _
    obtain ⟨rest, hrest⟩ := Node.chainLayers_prefix hprefix .root
    refine ⟨gate.node.resolveLayer gate.path
      ++ (rest ++ site.spot.layers site.owner (site.path .root)), ?_⟩
    rw [Site.route, ← hrest, hchain]
    simp only [List.append_assoc]

/-- What was resolved on the way to a gate has other names. -/
theorem not_resolved (hnodup : (site.idParams .root).Nodup)
    (harrives : Layer.descend gate.outer (Router.dispatched request taken) env w = (.ok (.arrived i), w₁)) :
    i.resolved.get? gate.collection.name = none := by
  obtain ⟨inner, hlayers⟩ := gate.layers_eq
  have hready : Layer.Ready [] gate.outer (Router.dispatched request taken) :=
    (site.ready hnodup request taken).mono fun l hl => by
      rw [hlayers]
      exact List.mem_append_left _ hl
  refine ((Layer.descend_loads hready harrives).keeps _ fun c hc hname => ?_).trans rfl
  -- a layer further out that loads something belongs to a node before
  obtain ⟨-, l, hl, hload⟩ := Layer.mem_toLoad hc
  rcases List.mem_append.mp hl with hl | hl
  · have hmem := Node.name_of_loader_chainLayers hl hload
    have hnames := Site.nodup_names hnodup
    rw [gate.chain_eq, List.map_append, List.nodup_append] at hnames
    exact hnames.2.2 _ hmem _ (List.mem_cons_self ..) hname
  · obtain ⟨m, -, rfl⟩ := List.mem_map.mp hl
    cases hload

/-- A request that comes to a gate has before it what asking for the resource gives. -/
theorem faces (hnodup : (site.idParams .root).Nodup)
    (harrives : Layer.descend gate.outer (Router.dispatched request taken) env w = (.ok (.arrived i), w₁)) :
    IdMiddleware.Faces gate.collection (gate.collection.asked (Router.decodeParams taken) env w₁) env w₁ i := by
  have hparams : i.params = Router.decodeParams taken := Layer.descend_params harrives
  exact Or.inl ⟨gate.not_resolved hnodup harrives, by rw [hparams]⟩

/-- A guarded gate is one of the ancestors that a request loads. -/
theorem mem_ancestry (hguarded : gate.service.isGuarded = true) : gate.ancestor ∈ site.ancestry := by
  have heq := gate.chain_eq
  rw [chain] at heq
  have hmem (rest : List (Node R)) :
      gate.ancestor ∈ Node.ancestors .root (gate.before ++ gate.node :: rest) :=
    Node.ancestor_mem gate.collectionAt_eq rest
  rw [ancestry]
  split
  · rw [gate.chain_eq]
    exact hmem gate.after
  · next hloads =>
      rcases List.eq_nil_or_concat gate.after with hafter | ⟨after, last, hafter⟩
      · -- a guard on the owner's own ID loads the owner
        rw [hafter] at heq
        have howner : site.owner = gate.node := (List.cons.inj (List.append_inj' heq rfl).2).1
        refine absurd ?_ hloads
        rw [howner]
        rcases gate.onId with hne | honId
        · exact absurd hafter hne
        · cases hspot : site.spot with
          | collection | custom r | root r => rw [hspot] at honId; exact honId.elim
          | item =>
              rw [Spot.loadsOwner, gate.service_eq]
              exact hguarded
          | onId r => rfl
      · rw [hafter, List.concat_eq_append, ← List.cons_append, ← List.append_assoc] at heq
        rw [(List.append_inj' heq rfl).1]
        exact hmem after

/-- **A gate is open** to a request: each of the middlewares and guards on the ID has let it pass, in order, and it
goes on behind them, with no store changed. -/
structure Opens (gate : site.Gate) (request : Request) (taken : List (String × String)) (env : Env)
    (w w₁ : World R) (i i' : Inflight R) : Prop where
  passed : ∀ before m after, gate.service.idMiddlewares = before ++ m :: after → ∃ i₁ i₂,
    IdMiddleware.verdict gate.collection (gate.collection.asked (Router.decodeParams taken) env w₁) before i
        = .admitted i₁
      ∧ m.ask gate.collection (gate.collection.asked (Router.decodeParams taken) env w₁) i₁ = .passed i₂
  goesOn : ∃ w₂, Layer.descend (gate.outer ++ gate.layers) (Router.dispatched request taken) env w
      = (.ok (.arrived i'), w₂)
    ∧ w₂.stores = w.stores ∧ w₂.steps = w.steps ++ Layer.wayIn [] (gate.outer ++ gate.layers)

/-- **A gate is closed** to a request: these middlewares and guards on the ID have let it pass, and the next one
stops it. The request is turned away there, so nothing further in is entered, no store has changed, and all that
has happened are events of the layers of this API and of those above. -/
structure Closes (gate : site.Gate) (routes : List (Route R)) (request : Request)
    (taken : List (String × String)) (env : Env) (w w₁ : World R) (i : Inflight R)
    (passed : List (IdMiddleware R)) (m : IdMiddleware R) (s : Layer.Stop R) : Prop where
  stops : ∃ rest i₁, gate.service.idMiddlewares = passed ++ m :: rest
    ∧ IdMiddleware.verdict gate.collection (gate.collection.asked (Router.decodeParams taken) env w₁) passed i
      = .admitted i₁
    ∧ m.ask gate.collection (gate.collection.asked (Router.decodeParams taken) env w₁) i₁ = .stopped s
  away : site.TurnsAway routes request taken env w
    (gate.outer ++ passed.map (IdMiddleware.layer gate.collection)) (m.layer gate.collection) s
  stores : (Router.answer routes request env w).2.stores = w.stores
  above : w.LogsOnly (fun e => ∃ node, node <+: gate.collection.node ∧ e.Passing node)
    (Router.answer routes request env w).2

/-- **A gate has nothing to show** to its guards: a middleware before them answers the request, or the first guard stops
it because there is no such resource. -/
def ShowsNothing (gate : site.Gate) (taken : List (String × String)) (env : Env) (w : World R) (i : Inflight R) :
    Prop :=
  ∃ passed m s, gate.verdict taken env w i = .stopped passed m s ∧ (∀ g, .guard g ∉ passed)
    ∧ ((∃ response, s = .answered response) ∨ s = .missing gate.collection .notFound ∧ s.response.status = 404)

/-- So it is if the resource is not found. -/
theorem showsNothing_of_missing (hguarded : gate.service.isGuarded = true) (i : Inflight R)
    (hasked : gate.collection.asked (Router.decodeParams taken) env w = .error .notFound) :
    gate.ShowsNothing taken env w i := by
  obtain ⟨m, hm, hguard⟩ := List.any_eq_true.mp hguarded
  cases m with
  | plain m => cases hguard
  | guard g =>
      obtain ⟨passed, m, s, hverdict, hplain, hs⟩ :=
        IdMiddleware.stopped_of_missing (c := gate.collection) (e := .notFound) ⟨g, hm⟩ i
      refine ⟨passed, m, s, by rw [verdict, hasked]; exact hverdict, hplain, hs.imp id ?_⟩
      rintro rfl
      exact ⟨rfl, rfl⟩

variable {routes : List (Route R)} {i' : Inflight R} {passed : List (IdMiddleware R)} {m : IdMiddleware R}
  {s : Layer.Stop R}

/-- A gate is open to whom its middlewares admit. -/
theorem opens_of_admitted (hnodup : (site.idParams .root).Nodup)
    (harrives : Layer.descend gate.outer (Router.dispatched request taken) env w = (.ok (.arrived i), w₁))
    (hverdict : gate.verdict taken env w₁ i = .admitted i') : gate.Opens request taken env w w₁ i i' where
  passed before m after heq := by
    rw [verdict, heq] at hverdict
    exact IdMiddleware.passed_of_admitted hverdict
  goesOn := by
    obtain ⟨w₂, hlayers⟩ := IdMiddleware.descend_layers gate.service.idMiddlewares
      (gate.faces hnodup harrives)
    rw [verdict] at hverdict
    rw [hverdict] at hlayers
    have hdescend := Layer.descend_append harrives hlayers
    obtain ⟨inner, hall⟩ := gate.layers_eq
    have hready : Layer.Ready [] (gate.outer ++ gate.layers) (Router.dispatched request taken) :=
      (site.ready hnodup request taken).mono fun l hl => by
        rw [hall, ← List.append_assoc]
        exact List.mem_append_left _ hl
    obtain ⟨steps, hsteps, rfl⟩ := Layer.descend_steps hready hdescend
    exact ⟨w₂, hdescend, Layer.descend_stores hdescend, hsteps⟩

/-- A gate is closed to whom its middlewares stop. -/
theorem closes_of_stopped (hnodup : (site.idParams .root).Nodup)
    (hlookup : Route.lookup (routes.map fun r => (r.pattern, r)) request.path
      = some (site.route .root, taken))
    (harrives : Layer.descend gate.outer (Router.dispatched request taken) env w = (.ok (.arrived i), w₁))
    (hverdict : gate.verdict taken env w₁ i = .stopped passed m s) :
    gate.Closes routes request taken env w w₁ i passed m s := by
  obtain ⟨rest, i₁, heq, hpassed, hstops⟩ := IdMiddleware.stopped_of_verdict hverdict
  obtain ⟨w₂, hlayers⟩ := IdMiddleware.descend_layers gate.service.idMiddlewares
    (gate.faces hnodup harrives)
  rw [verdict] at hverdict
  rw [hverdict] at hlayers
  obtain ⟨inner, hall⟩ := gate.layers_eq
  have hdescend : Layer.descend (site.route .root).layers (Router.dispatched request taken) env w
      = (.ok (.stopped (gate.outer ++ passed.map (IdMiddleware.layer gate.collection)) s), w₂) := by
    rw [hall, ← List.append_assoc]
    exact Layer.descend_append_of_stopped inner (Layer.descend_append harrives hlayers)
  -- the layer that stops the request is that of the middleware which does
  have hat : (site.route .root).layers = (gate.outer ++ passed.map (IdMiddleware.layer gate.collection))
      ++ m.layer gate.collection :: (rest.map (IdMiddleware.layer gate.collection) ++ inner) := by
    rw [hall, layers, heq, List.map_append, List.map_cons]
    simp only [List.append_assoc, List.cons_append]
  obtain ⟨steps, hsteps, htakes⟩ := Layer.descend_steps (site.ready hnodup request taken) hdescend
  obtain ⟨layer, haway⟩ := site.turnsAway_of_stopped hlookup hdescend hsteps htakes
  obtain ⟨inner', hat'⟩ := haway.layers
  obtain ⟨rfl, -⟩ := List.cons.inj (List.append_cancel_left (hat.symm.trans hat'))
  obtain ⟨hstores, habove⟩ := Router.above_of_stopped hlookup site.nested_layers hat hdescend
  refine ⟨⟨rest, i₁, heq, hpassed, hstops⟩, haway, hstores, ?_⟩
  have hnode : (m.layer gate.collection).node = gate.collection.node := by cases m <;> rfl
  rw [← hnode]
  exact habove

end Site.Gate

section Tree

variable {n : Node R} {routes : List (Route R)} {request : Request} {route : Route R}
  {taken : List (String × String)}

/-- **Guards cannot be bypassed.** On the way to a route whose pattern carries the ID of an API, the middlewares and
guards on that ID are around the route and everything below. A request that comes to them goes on only if each of
them lets it pass. Whoever is stopped leaves no trace further in and changes no store. Every guard is given the resource
that is stored under the ID. If there is none, no guard is passed, and the first one answers that there is none. The ID
is the one at its place in the path if the tree keeps the parameters of IDs apart and every parameter is UTF-8. If one
is not, there is no ID, and the same happens as if there was no resource. -/
theorem guards_decide (hn : n.router = .ok routes)
    (hlookup : Route.lookup (routes.map fun r => (r.pattern, r)) request.path = some (route, taken)) :
    ∃ site ∈ n.sites, route = site.route .root ∧ ∀ gate : site.Gate,
      (∃ inner, route.layers = gate.outer ++ (gate.layers ++ inner))
      ∧ (∀ i w₁, Layer.descend gate.outer (Router.dispatched request taken) env w = (.ok (.arrived i), w₁) →
        w₁.stores = w.stores
        ∧ (∀ i', gate.verdict taken env w₁ i = .admitted i' → gate.Opens request taken env w w₁ i i')
        ∧ (∀ passed m s, gate.verdict taken env w₁ i = .stopped passed m s →
          gate.Closes routes request taken env w w₁ i passed m s)
        ∧ (gate.service.isGuarded → gate.collection.asked (Router.decodeParams taken) env w₁ = .error .notFound →
          gate.ShowsNothing taken env w₁ i))
      ∧ (n.KeepsIdParams → (∀ param ∈ taken, (Percent.decode? param.2).isSome) → gate.service.isGuarded →
        ∃ id, gate.ancestor.id? request.path = some id
          ∧ ∀ w₁ : World R, gate.collection.asked (Router.decodeParams taken) env w₁
            = (Action.found env w₁ gate.collection.node id).mapError .ofStorage)
      ∧ ((∃ param ∈ taken, Percent.decode? param.2 = none) →
        ∀ w₁ : World R, gate.collection.asked (Router.decodeParams taken) env w₁ = .error .notFound) := by
  obtain ⟨site, hsite, rfl, texts, hmatch, htaken⟩ := Node.site_of_lookup hn hlookup
  have hnodup := (Node.router_ok hn).nodup .nil site hsite
  -- the gate and what it does come first, and which ID its guards look at in the end
  refine ⟨site, hsite, rfl, fun gate => ⟨gate.layers_eq, fun i w₁ harrives => ⟨?_, ?_, ?_, ?_⟩,
    fun hkeeps hutf8 hguarded => ?_, fun hundecodable w₁ => ?_⟩⟩
  · have hsame := (Layer.descend_harmless gate.outer (P := fun _ => True) (fun _ _ _ _ => trivial)
      (Router.dispatched request taken)).stores env w
    rw [harrives] at hsame
    exact hsame
  · exact fun i' hverdict => gate.opens_of_admitted hnodup harrives hverdict
  · exact fun passed m s hverdict => gate.closes_of_stopped hnodup hlookup harrives hverdict
  · exact fun hguarded hasked => gate.showsNothing_of_missing hguarded i hasked
  · obtain ⟨id, hid, hparam⟩ :=
      Router.lookup_ancestor hn hkeeps hsite hmatch htaken hutf8 (gate.mem_ancestry hguarded)
    exact ⟨id, hid, fun w₁ => Collection.asked_of_some hparam⟩
  · rw [Router.decodeParams_of_undecodable hundecodable]
    exact gate.collection.asked_of_absent fun id hid => by cases hid

end Tree

namespace Club

/-- The rooms on the way to a locker. -/
def roomGate : lockerSite.Gate where
  before := []
  node := tree
  after := [lockers]
  service := roomService
  chain_eq := rfl
  service_eq := rfl
  onId := Or.inl (List.cons_ne_nil lockers [])

/-- A request to put a locker into a room. -/
def putRequest : Request :=
  ⟨.put, "/rooms/1/lockers/2", none, [("badge", "m")], "\x7b\x7d".toUTF8⟩

end Club

open Club in
/-- A request for a locker without a badge is refused by the guard of the rooms. With a badge nothing can be put
into a room that is not there. The guard is given the room with the ID in the path. -/
theorem guards_decide_club :
    (∃ i w₁, roomGate.Closes routes (lockerRequest []) lockerTaken (Env.quiet "n") world w₁ i
        [.plain { tag := "carpet" }] (.guard members) (.refused .forbidden))
      ∧ (∃ i w₁, roomGate.Closes routes putRequest lockerTaken (Env.quiet "n") World.initial w₁ i
        [.plain { tag := "carpet" }] (.guard members) (.missing roomGate.collection .notFound))
      ∧ (Router.answer routes putRequest (Env.quiet "n") World.initial).1.status = 404
      ∧ ∃ id, roomGate.ancestor.id? putRequest.path = some id ∧ ∀ w₁,
        roomGate.collection.asked (Router.decodeParams lockerTaken) (Env.quiet "n") w₁
          = (Action.found (Env.quiet "n") w₁ roomGate.collection.node id).mapError .ofStorage := by
  have hlookup {request : Request} (hpath : request.path = "/rooms/1/lockers/2") :
      Route.lookup (routes.map fun r => (r.pattern, r)) request.path
        = some (lockerSite.route .root, lockerTaken) := by
    rw [hpath]
    exact lookup_locker
  have hgate {request : Request} {w : World Record} (hpath : request.path = "/rooms/1/lockers/2") :
      ∀ i w₁, Layer.descend roomGate.outer (Router.dispatched request lockerTaken) (Env.quiet "n") w
        = (.ok (.arrived i), w₁) → ∀ passed m s,
          roomGate.verdict lockerTaken (Env.quiet "n") w₁ i = .stopped passed m s →
            roomGate.Closes routes request lockerTaken (Env.quiet "n") w w₁ i passed m s := by
    obtain ⟨site, hsite, hroute, hgates⟩ := guards_decide router_tree (hlookup hpath)
    obtain rfl := Node.site_of_pattern router_tree mem_lockerSite hsite (congrArg Route.pattern hroute)
    exact fun i w₁ harrives => ((hgates roomGate).2.1 i w₁ harrives).2.2.1
  refine ⟨⟨_, _, hgate rfl _ _ rfl _ _ _ ?_⟩, ⟨_, _, hgate rfl _ _ rfl _ _ _ ?_⟩, by cbv, ?_⟩
  · have hroom (log : List Event) : roomGate.collection.asked (Router.decodeParams lockerTaken) (Env.quiet "n")
        { world with log := log } = .ok ⟨⟨"1", none⟩, []⟩ := by cbv
    exact congrArg (IdMiddleware.verdict _ · _ _) (hroom _)
  · exact congrArg (IdMiddleware.verdict _ · _ _) (Collection.asked_of_absent _ fun id _ => rfl)
  · have hkeeps : tree.KeepsIdParams := by
      unfold Node.KeepsIdParams Site.KeepsIdParams
      decide +kernel
    obtain ⟨site, hsite, hroute, hgates⟩ :=
      @guards_decide _ (Env.quiet "n") World.initial _ _ putRequest _ _ router_tree (hlookup rfl)
    obtain rfl := Node.site_of_pattern router_tree mem_lockerSite hsite (congrArg Route.pattern hroute)
    exact (hgates roomGate).2.2.1 hkeeps (by decide +kernel) rfl

namespace Library

/-- The artist of a tag. -/
def tagGate : tagSite.Gate where
  before := []
  node := tree
  after := []
  service := artistService
  chain_eq := rfl
  service_eq := rfl
  onId := Or.inr trivial

/-- Tags with the parameter of the artist. -/
def ownTags : CustomRoute Record := { tags with path := "/tags/{artists_id}" }

/-- Artists with such tags. -/
def confused : Node Record :=
  .api { name := "artists", base := "/artists" } { artistService with idRoutes := [ownTags] }

/-- A request for the tag `b` of the artist `a`. -/
def ownTagRequest : Request := ⟨.get, "/artists/a/tags/b", none, [], .empty⟩

end Library

open Library in
/-- **Guards that are misled.** The artist `a` is there, but a tag of this artist that is not UTF-8 is not found and no
guard is asked. Where tags use the parameter of artists again, the guards of the artist `a` look at the artist `b`, and
accept it although `a` is not there. -/
theorem guards_misled :
    (tree.router = .ok routes
      ∧ Route.lookup (routes.map fun r => (r.pattern, r)) tagRequest.path
        = some (tagSite.route .root, [("artists_id", "a"), ("tag", "%FF")])
      ∧ tagGate.ancestor.id? tagRequest.path = some "a"
      ∧ Action.found (Env.quiet "n") (stocked "a") tagGate.collection.node "a" = .ok ⟨⟨"a", none⟩, []⟩
      ∧ (Router.answer routes tagRequest (Env.quiet "n") (stocked "a")).1.status = 404
      ∧ (Router.answer routes tagRequest (Env.quiet "n") (stocked "a")).2.log = [])
    ∧ confused.router = .ok (confused.sites.map (Site.route .root))
      ∧ Action.found (Env.quiet "n") (stocked "b") artists.node "a" = .error .notFound
      ∧ (Router.answer (confused.sites.map (Site.route .root)) ownTagRequest (Env.quiet "n") (stocked "b")).1.status
        = 200
      ∧ (Router.answer (confused.sites.map (Site.route .root)) ownTagRequest (Env.quiet "n") (stocked "b")).2.log
        = [.store ["artists"] (.get "b"), .guard ["artists"] "welcome" "b", .guard ["artists"] "welcome" "b",
          .handler ["artists"] "tags"] :=
  ⟨⟨router_tree, rfl, by cbv, by cbv, by cbv, by cbv⟩, Node.router_eq (by decide +kernel), by cbv, by cbv, by cbv⟩

end ResourceTree
