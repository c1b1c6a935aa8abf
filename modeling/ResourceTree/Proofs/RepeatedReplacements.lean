import ResourceTree.Proofs.GuardVerdicts
import ResourceTree.Proofs.Replacements

/-! # Repeated replacements

A replacement that is made again finds the resource that it has stored, so it settles the same time of creation, comes
to the same write and changes nothing (`Collection.replace_again`). On its way it passes what it has passed before
(`Layer.descend_again`), up to the guards of its own API, which are given the new resource now: they may refuse it, and
they leave another resource in the context. `replace_repeats` says that nothing else can make a difference. -/

namespace ResourceTree

variable {R : Type}

/-- Storing what is stored already changes nothing. -/
theorem Store.insert_of_get? {s : Store R} {id : String} {r : R} (h : s.get? id = some r) : s.insert id r = s := by
  obtain ⟨rows⟩ := s
  refine congrArg Store.mk ?_
  induction rows with
  | nil => cases h
  | cons row rows ih =>
      rw [get?_cons] at h
      rw [insertRow]
      by_cases hid : row.1 = id
      · rw [if_pos hid] at h ⊢
        cases h
        rw [← hid]
      · rw [if_neg hid] at h ⊢
        rw [ih h]

/-- The stores work: no call on them breaks down. -/
def Env.Works (env : Env) : Prop := ∀ node n call, env.outage node n call = none

theorem Env.quiet_works (id : String) : (quiet id).Works := fun _ _ _ => rfl

namespace Action

/-- A store that works gives what it has. -/
theorem found_of_stored {env : Env} (hworks : env.Works) {w : World R} {node : NodeKey} {id : String} {r : R}
    (h : (w.stores node).get? id = some r) : found env w node id = .ok r := by
  rw [found, hworks]
  simp only [Store.get, h]

/-- What an attempt gives is what the action gives. -/
theorem ok_of_attempt {α : Type} {x : Action R α} {env : Env} {w w' : World R} {a : α}
    (h : x.attempt env w = (.ok (.ok a), w')) : x env w = (.ok a, w') := by
  rw [attempt] at h
  rcases hx : x env w with ⟨(e | _) | b, w₁⟩
  · rw [hx] at h
    cases h
  · rw [hx] at h
    cases h
  · rw [hx] at h
    cases h
    rfl

end Action

/-! ## Handlers -/

namespace Collection

variable {c : Collection R} {ctx : Context R} {body : ByteArray} {env env' : Env} {w w' w₁ : World R} {r : R}

/-- Settling the identity settles the time of creation. -/
theorem creationTime_of_identifyAt {id : String} {bound settled : R}
    (h : c.identifyAt id bound env w = (.ok settled, w')) :
    ∃ t, c.creationTime env w id = .ok t ∧ c.kind.identity settled = ⟨id, some t⟩ := by
  obtain ⟨w₁, happly, -⟩ := c.identifyAt_apply id bound env w
  obtain ⟨hsettled, -⟩ := Prod.mk.inj (happly.symm.trans h)
  cases ht : c.creationTime env w id with
  | error e =>
      rw [ht] at hsettled
      cases hsettled
  | ok t =>
      rw [ht] at hsettled
      cases hsettled
      exact ⟨t, rfl, Kind.identity_withIdentity ..⟩

/-- **What a committed replacement has settled**: the ID of the path, and a time of creation. -/
theorem Commits.settles (h : c.Commits .replace ctx body env w (.set r)) :
    ∃ t, ctx.id? c.name = some (c.kind.id r) ∧ (c.kind.identity r).createdAt = some t
      ∧ c.creationTime env w (c.kind.id r) = .ok t
      ∧ env.outage c.node (w.storeCalls + 1) (.set (c.kind.id r)) = none := by
  obtain ⟨w₂, w₁, hpass, hcommit⟩ := h
  have hpath := pathId_of_replace hpass
  -- the write is the second call, and it has worked
  have hworks : env.outage c.node (w.storeCalls + 1) (.set (c.kind.id r)) = none := by
    obtain ⟨outcome, w₃, w₃', hdraft, -, hcalls⟩ := draft_same (fun id _ => Eq.refl (c.creationTime env w id)) body
    obtain ⟨rfl, rfl⟩ := Prod.mk.inj (hdraft.symm.trans (Pipeline.run_of_passes hpass))
    rw [commit_set_apply, (hcalls _ rfl).1] at hcommit
    cases houtage : env.outage c.node (w.storeCalls + 1) (.set (c.kind.id r)) with
    | none => rfl
    | some e =>
        rw [houtage] at hcommit
        cases hcommit
  obtain ⟨id, w₃, hlift, hbody⟩ := hpass
  obtain ⟨posted, -, u, w₄, hcheck, bound, w₅, hbind, settled, w₆, hidentify, hooked, w₇, -, hrestored, -⟩ :=
    readBody_passes.mp hbody
  obtain ⟨t, htime, hidentity⟩ := creationTime_of_identifyAt hidentify
  obtain ⟨hid, hw₃⟩ := Action.lift_eq_ok.mp hlift
  obtain ⟨-, hw₄⟩ := Action.lift_eq_ok.mp hcheck
  cases hid.symm.trans hpath
  -- nothing that runs before the identity is settled matters for it
  obtain ⟨outcome, events, hscript⟩ := c.scripted_bind ctx (c.kind.withId posted (c.kind.id r))
  obtain ⟨-, hw₅⟩ := Prod.mk.inj ((hscript env w₄).symm.trans hbind)
  rw [← hw₅, hw₄, hw₃] at htime
  have hcreated : (c.kind.identity r).createdAt = some t := by
    rw [Write.set.inj hrestored, Kind.identity_withIdentity, hidentity]
  exact ⟨t, id?_of_pathId hpath, hcreated, htime, hworks⟩

/-- **A replacement that is made again** comes to the same end and to the same write, once what it has written is
stored and the store works. -/
theorem replace_again (h : c.Commits .replace ctx body env w (.set r))
    (hstored : (w'.stores c.node).get? (c.kind.id r) = some r) (hworks : env'.Works) :
    (c.handle .replace ctx body env w).1 = (c.handle .replace ctx body env' w').1
      ∧ c.Commits .replace ctx body env' w' (.set r) := by
  obtain ⟨t, hid, hcreated, htime, houtage⟩ := h.settles
  have htime' : c.creationTime env' w' (c.kind.id r) = .ok t := by
    rw [creationTime, Action.found_of_stored hworks hstored]
    simp only [hcreated, Option.getD_some]
  have hsame : (c.handle .replace ctx body env w).1 = (c.handle .replace ctx body env' w').1
      ∧ ∀ wr, c.Commits .replace ctx body env w wr ↔ c.Commits .replace ctx body env' w' wr := by
    refine replace_same (fun id hid' => ?_) (fun id hid' => ?_) body
    · cases hid.symm.trans hid'
      rw [htime, htime']
    · cases hid.symm.trans hid'
      rw [houtage, hworks]
  exact ⟨hsame.1, (hsame.2 _).mp h⟩

/-! ## The own resource in the context -/

/-- The context with a resource of the API itself in it, as a guard leaves it. -/
def guarded (c : Collection R) (ctx : Context R) (r : R) : Context R := ctx.withResource c.kind.name c.name r

/-- **Hooks that do not look at the resource of their own API** in the context. -/
structure IgnoresOwn (c : Collection R) : Prop where
  bind : ∀ ctx r r', c.kind.bind (c.guarded ctx r) = c.kind.bind (c.guarded ctx r')
  render : ∀ ctx r r', c.kind.render (c.guarded ctx r) = c.kind.render (c.guarded ctx r')
  html : ∀ ctx r r', c.kind.html (c.guarded ctx r) = c.kind.html (c.guarded ctx r')
  onSave : ∀ hook ∈ c.hooks.onSave, ∀ ctx r r', hook (c.guarded ctx r) = hook (c.guarded ctx r')
  wrapper : ∀ wrap ∈ c.hooks.wrapper, ∀ ctx r r', wrap (c.guarded ctx r) = wrap (c.guarded ctx r')

/-- A replacement with such hooks does the same whichever resource is in the context. -/
theorem IgnoresOwn.replace_eq (h : c.IgnoresOwn) (ctx : Context R) (r r' : R) (body : ByteArray) :
    c.handle .replace (c.guarded ctx r) body = c.handle .replace (c.guarded ctx r') body := by
  have hbind : c.bind (c.guarded ctx r) = c.bind (c.guarded ctx r') := by
    funext bound
    rw [Collection.bind, Collection.bind, h.bind ctx r r']
  have hsave : c.save (c.guarded ctx r) = c.save (c.guarded ctx r') := by
    funext bound
    rw [Collection.save, Collection.save]
    cases hhook : c.hooks.onSave with
    | none => rfl
    | some hook =>
        simp only [h.onSave hook hhook ctx r r']
        rfl
  have hrespond : c.respond (c.guarded ctx r) = c.respond (c.guarded ctx r') := by
    funext m shown
    rw [Collection.respond, Collection.respond, Collection.present, Collection.present]
    cases hwrap : c.hooks.wrapper with
    | none =>
        simp only [Kind.view, h.render ctx r r', h.html ctx r r']
        rfl
    | some wrap =>
        simp only [h.wrapper wrap hwrap ctx r r']
        rfl
  rw [handle, handle, replace, replace, hbind, hsave, hrespond]
  rfl

/-- A resource that was had can be had again, while its entry is the same and the stores work. -/
theorem requested_again (h : c.requested ctx env w = (.ok r, w₁))
    (hsame : ∀ id, ctx.id? c.name = some id → (w.stores c.node).get? id = (w'.stores c.node).get? id)
    (hworks : env'.Works) : ∃ w₁', c.requested ctx env' w' = (.ok r, w₁') := by
  rw [requested_apply] at h ⊢
  cases hresolved : ctx.resource? c.kind.name c.name with
  | some r' =>
      rw [hresolved] at h
      cases h
      exact ⟨w', rfl⟩
  | none =>
      rw [hresolved] at h
      cases hid : ctx.id? c.name with
      | none =>
          rw [hid] at h
          cases h
      | some id =>
          rw [hid] at h
          simp only at h ⊢
          cases hfound : Action.found env w c.node id with
          | error e =>
              rw [hfound] at h
              cases h
          | ok r' =>
              rw [hfound] at h
              cases h
              rw [Action.found_of_stored hworks ((hsame id hid).symm.trans (Action.found_ok hfound))]
              exact ⟨_, rfl⟩

end Collection

/-! ## The way in -/

namespace Layer

variable {l : Layer R} {layers : List (Layer R)} {i i' : Inflight R} {env env' : Env} {w w' w₁ : World R}

/-- **A request that a layer has let in is let in again**, while what the layer loads is the same and the stores
work. -/
theorem enter_again (h : l.enter i env w = (.ok (.passed i'), w₁))
    (hsees : l.Sees (fun node id => (w.stores node).get? id = (w'.stores node).get? id) i.params)
    (hworks : env'.Works) : ∃ w₁', l.enter i env' w' = (.ok (.passed i'), w₁') := by
  have hagain {c : Collection R} (hl : l.loader? = some c) {r : R} {w₂ : World R}
      (hx : (c.requested i.context).attempt env w = (.ok (.ok r), w₂)) :
      ∃ w₂', (c.requested i.context).attempt env' w' = (.ok (.ok r), w₂') := by
    obtain ⟨w₂', hx'⟩ := Collection.requested_again (Action.ok_of_attempt hx) (hsees c hl) hworks
    exact ⟨w₂', Action.attempt_of_ok hx'⟩
  cases l with
  | plain node m =>
      rw [enter, Action.bind_of_ok (Action.emit_apply _ env w)] at h
      rw [enter, Action.bind_of_ok (Action.emit_apply _ env' w')]
      cases hm : m.enter i.request with
      | error response =>
          rw [hm] at h
          cases h
      | ok request =>
          rw [hm] at h
          cases h
          exact ⟨_, rfl⟩
  | guard c g =>
      obtain ⟨outcome, w₂, hx, hrest⟩ := Action.bind_eq_ok.mp h
      cases outcome with
      | error e => cases hrest
      | ok r =>
          obtain ⟨w₂', hx'⟩ := hagain rfl hx
          obtain ⟨u, w₃, -, hrest⟩ := Action.bind_eq_ok.mp hrest
          rw [enter, Action.bind_of_ok hx']
          simp only [Action.bind_of_ok (Action.emit_apply _ env' w₂')]
          cases hg : g.check i.context r with
          | error e =>
              rw [hg] at hrest
              cases hrest
          | ok u =>
              rw [hg] at hrest
              cases hrest
              exact ⟨_, rfl⟩
  | resolve c =>
      rw [enter] at h ⊢
      split at h
      · next hcontains =>
          cases h
          rw [if_pos hcontains]
          exact ⟨_, rfl⟩
      · next hcontains =>
          obtain ⟨outcome, w₂, hx, hrest⟩ := Action.bind_eq_ok.mp h
          cases outcome with
          | error e => cases hrest
          | ok r =>
              obtain ⟨w₂', hx'⟩ := hagain rfl hx
              cases hrest
              rw [if_neg hcontains, Action.bind_of_ok hx']
              exact ⟨_, rfl⟩

/-- **A request that has arrived arrives again** in the same way, by induction on the layers. -/
theorem descend_again (h : descend layers i env w = (.ok (.arrived i'), w₁))
    (hsees : ∀ l ∈ layers, l.Sees (fun node id => (w.stores node).get? id = (w'.stores node).get? id) i.params)
    (hworks : env'.Works) : ∃ w₁', descend layers i env' w' = (.ok (.arrived i'), w₁') := by
  induction layers generalizing i w w' with
  | nil =>
      cases h
      exact ⟨w', rfl⟩
  | cons layer layers ih =>
      obtain ⟨entry, w₂, henter, hrest⟩ := Action.bind_eq_ok.mp h
      cases entry with
      | stopped s => cases hrest
      | passed i₁ =>
          obtain ⟨d, w₃, hdescend, hbehind⟩ := Action.bind_eq_ok.mp hrest
          cases d with
          | stopped outer s => cases hbehind
          | arrived i₂ =>
              cases hbehind
              obtain ⟨w₂', henter'⟩ := enter_again henter (hsees layer List.mem_cons_self) hworks
              have hinner : ∀ l ∈ layers,
                  l.Sees (fun node id => (w₂.stores node).get? id = (w₂'.stores node).get? id) i₁.params := by
                rw [enter_stores henter, enter_stores henter', enter_params henter]
                exact fun l hl => hsees l (List.mem_cons_of_mem layer hl)
              obtain ⟨w₃', hdescend'⟩ := ih hdescend hinner
              refine ⟨w₃', ?_⟩
              rw [descend, Action.bind_of_ok henter']
              exact Action.bind_of_ok hdescend' _

end Layer

/-! ## Guards -/

namespace IdMiddleware

variable {c : Collection R} {m : IdMiddleware R} {ms : List (IdMiddleware R)} {r r' : R} {i i' j : Inflight R}

/-- Without guards the stored resource has no say in the verdict. -/
theorem verdict_of_unguarded (h : ∀ g, .guard g ∉ ms) (found found' : Except ApiError R) (i : Inflight R) :
    verdict c found ms i = verdict c found' ms i := by
  induction ms generalizing i with
  | nil => rfl
  | cons m ms ih =>
      cases m with
      | guard g => exact absurd List.mem_cons_self (h g)
      | plain m =>
          have hrest := ih fun g hg => h g (List.mem_cons_of_mem _ hg)
          rw [verdict, verdict, ask, ask]
          cases m.enter i.request with
          | error response => rfl
          | ok request => simp only [hrest]

/-- **Twins**: the same request, but for the resource of the collection that guards have left in its context. -/
def Twins (c : Collection R) (r r' : R) (i i' : Inflight R) : Prop :=
  i' = i ∨ ∃ base : Inflight R, i = base.resolve c r ∧ i' = base.resolve c r'

theorem Twins.request_eq (h : Twins c r r' i i') : i'.request = i.request := by
  rcases h with rfl | ⟨base, rfl, rfl⟩
  · rfl
  · rfl

/-- Whoever lets one twin pass lets the other one pass, or is a guard that refuses it. -/
theorem Twins.ask (h : Twins c r r' i i') (hpassed : m.ask c (.ok r) i = .passed j) :
    (∃ g e, m = .guard g ∧ m.ask c (.ok r') i' = .stopped (.refused e))
      ∨ ∃ j', m.ask c (.ok r') i' = .passed j' ∧ Twins c r r' j j' := by
  cases m with
  | plain m =>
      rw [IdMiddleware.ask] at hpassed ⊢
      rw [h.request_eq]
      cases hm : m.enter i.request with
      | error response =>
          rw [hm] at hpassed
          cases hpassed
      | ok request =>
          rw [hm] at hpassed
          cases hpassed
          refine Or.inr ⟨_, rfl, ?_⟩
          rcases h with rfl | ⟨base, rfl, rfl⟩
          · exact Or.inl rfl
          · exact Or.inr ⟨{ base with request := request }, rfl, rfl⟩
  | guard g =>
      simp only [IdMiddleware.ask] at hpassed ⊢
      cases hg : g.check i.context r with
      | error e =>
          rw [hg] at hpassed
          cases hpassed
      | ok u =>
          rw [hg] at hpassed
          cases hpassed
          cases hg' : g.check i'.context r' with
          | error e => exact Or.inl ⟨g, e, rfl, rfl⟩
          | ok u =>
              refine Or.inr ⟨_, rfl, Or.inr ?_⟩
              rcases h with rfl | ⟨base, rfl, rfl⟩
              · exact ⟨_, rfl, rfl⟩
              · exact ⟨base, by simp only [Inflight.resolve, Fields.put_put],
                  by simp only [Inflight.resolve, Fields.put_put]⟩

/-- **If one twin is admitted, so is the other one, or a guard refuses it**, by induction on the middlewares. -/
theorem Twins.verdict (h : Twins c r r' i i') (hadmitted : verdict c (.ok r) ms i = .admitted j) :
    (∃ passed g e, IdMiddleware.verdict c (.ok r') ms i' = .stopped passed (.guard g) (.refused e))
      ∨ ∃ j', IdMiddleware.verdict c (.ok r') ms i' = .admitted j' ∧ Twins c r r' j j' := by
  induction ms generalizing i i' with
  | nil =>
      cases hadmitted
      exact Or.inr ⟨i', rfl, h⟩
  | cons m ms ih =>
      cases hask : m.ask c (.ok r) i with
      | stopped s =>
          rw [verdict_of_stopped hask] at hadmitted
          cases hadmitted
      | passed i₁ =>
          rw [verdict_of_passed hask] at hadmitted
          rcases h.ask hask with ⟨g, e, rfl, hstopped⟩ | ⟨i₁', hpassed, htwins⟩
          · exact Or.inl ⟨[], g, e, verdict_of_stopped hstopped⟩
          · rw [verdict_of_passed hpassed]
            rcases ih htwins (behind_eq_admitted.mp hadmitted) with ⟨passed, g, e, hstopped⟩ | ⟨j', hj', htwins'⟩
            · exact Or.inl ⟨m :: passed, g, e, by rw [hstopped]; rfl⟩
            · exact Or.inr ⟨j', behind_eq_admitted.mpr hj', htwins'⟩

/-- **The verdict on a request that has been admitted**, with another resource stored now: it is admitted again, as a
twin if there are guards, or a guard refuses it. -/
theorem verdict_again {found : Except ApiError R} (h : verdict c found ms i = .admitted j) (r : R) :
    (∃ passed g e, verdict c (.ok r) ms i = .stopped passed (.guard g) (.refused e))
      ∨ ∃ j', verdict c (.ok r) ms i = .admitted j'
        ∧ (j' = j ∨ ∃ g old, .guard g ∈ ms ∧ Twins c old r j j') := by
  by_cases hguarded : ∃ g, .guard g ∈ ms
  · obtain ⟨g, hg⟩ := hguarded
    cases found with
    | error e =>
        -- a guard has admitted the request, so it was given a resource
        exact absurd h (not_admitted_of_missing hg i j)
    | ok old =>
        have htwins : Twins c old r i i := Or.inl rfl
        refine (htwins.verdict h).imp id fun hadmitted => ?_
        obtain ⟨j', hadmitted, htwins⟩ := hadmitted
        exact ⟨j', hadmitted, Or.inr ⟨g, old, hg, htwins⟩⟩
  · rw [verdict_of_unguarded (fun g hg => hguarded ⟨g, hg⟩) found (.ok r)] at h
    exact Or.inr ⟨j, h, Or.inl rfl⟩

/-- With hooks that ignore the own resource twins come to the same. -/
theorem Twins.handle_eq (h : Twins c r r' i i') (hignores : c.IgnoresOwn) (body : ByteArray) :
    c.handle .replace i'.context body = c.handle .replace i.context body := by
  rcases h with rfl | ⟨base, rfl, rfl⟩
  · rfl
  · exact hignores.replace_eq base.context r' r body

end IdMiddleware

namespace Site

variable {site : Site R} {taken : List (String × String)} {request : Request} {j : Inflight R}
  {env : Env} {w w₁ : World R}

/-- An operation on one resource is served on the path of that resource. -/
theorem item_of_endpoint {m : Method} {c : Collection R} {op : Operation}
    (h : (site.route .root).endpoint? m = some (.operation c op)) (hop : op.onItem = true) : site.spot = .item := by
  refine (collection_of_endpoint h).2.resolve_left fun hspot => ?_
  obtain ⟨m', hmem⟩ := Route.mem_of_endpoint h
  rw [route, hspot] at hmem
  simp only [Spot.methods, Spot.operations] at hmem
  cases hs : site.owner.service with
  | none =>
      rw [hs] at hmem
      cases hmem
  | some s =>
      rw [hs] at hmem
      obtain ⟨op', hop', heq⟩ := List.mem_map.mp hmem
      rw [Service.endpoint] at heq
      split at heq
      · cases heq
      · cases heq
        rcases List.mem_cons.mp hop' with rfl | hop'
        · cases hop
        · cases List.mem_singleton.mp hop'
          cases hop

/-- **The gate of an API itself**: the path of its resources lies right behind it, and nothing further out loads
anything of the API. -/
theorem exists_gate {m : Method} {c : Collection R} {op : Operation}
    (h : (site.route .root).endpoint? m = some (.operation c op)) (hop : op.onItem = true) :
    ∃ gate : site.Gate, gate.collection = c ∧ (site.route .root).layers = gate.outer ++ gate.layers
      ∧ ∀ l ∈ gate.outer, ∀ c', l.loader? = some c' → c'.node ≠ c.node := by
  have hspot := item_of_endpoint h hop
  obtain ⟨hc, -⟩ := collection_of_endpoint h
  cases hservice : site.owner.service with
  | none =>
      rw [Node.collectionAt, hservice] at hc
      cases hc
  | some service =>
      let gate : site.Gate :=
        ⟨site.above, site.owner, [], service, rfl, hservice, Or.inr (by rw [hspot]; trivial)⟩
      refine ⟨gate, Option.some.inj (gate.collectionAt_eq.symm.trans hc), ?_, fun l hl c' hc' => ?_⟩
      · rw [← Gate.idLayers_eq, route, hspot, Gate.outer, List.append_assoc]
        rfl
      · rcases List.mem_append.mp hl with hl | hl
        · exact node_ne_of_above hc hl hc'
        · obtain ⟨m, -, rfl⟩ := List.mem_map.mp hl
          cases hc'

/-- What has arrived behind a gate was admitted there. -/
theorem Gate.admitted_of_arrived (gate : site.Gate) (hnodup : (site.idParams .root).Nodup)
    (h : Layer.descend (gate.outer ++ gate.layers) (Router.dispatched request taken) env w
      = (.ok (.arrived j), w₁)) :
    ∃ i w₀, Layer.descend gate.outer (Router.dispatched request taken) env w = (.ok (.arrived i), w₀)
      ∧ gate.verdict taken env w₀ i = .admitted j := by
  obtain ⟨d, w₀, houter⟩ := Layer.descend_apply gate.outer (Router.dispatched request taken) env w
  cases d with
  | stopped outer s => cases (Layer.descend_append_of_stopped gate.layers houter).symm.trans h
  | arrived i =>
      obtain ⟨w₂, hlayers⟩ := IdMiddleware.descend_layers gate.service.idMiddlewares (gate.faces hnodup houter)
      have hdescend := (Layer.descend_append houter hlayers).symm.trans h
      refine ⟨i, w₀, houter, ?_⟩
      rw [Gate.verdict]
      cases hv : IdMiddleware.verdict gate.collection (gate.collection.asked (Router.decodeParams taken) env w₀)
          gate.service.idMiddlewares i with
      | admitted j' =>
          rw [hv] at hdescend
          cases hdescend
          rfl
      | stopped passed m s =>
          rw [hv] at hdescend
          cases hdescend

end Site

/-! ## Requests -/

/-- **A guard of an API refuses a request** for the sake of a resource: the request comes to the guard, which is given
the resource, and the error is the answer. -/
def Route.Refuses (route : Route R) (c : Collection R) (routes : List (Route R)) (request : Request)
    (taken : List (String × String)) (env : Env) (w : World R) (r : R) : Prop :=
  ∃ outer g inner i w₁ e, route.layers = outer ++ .guard c g :: inner
    ∧ Layer.descend outer (Router.dispatched request taken) env w = (.ok (.arrived i), w₁)
    ∧ g.check i.context r = .error e
    ∧ (Router.answer routes request env w).1 = route.dressed request.method (Layer.left outer (.error e))

section Requests

variable {routes : List (Route R)} {request : Request} {route : Route R} {taken : List (String × String)}
  {c : Collection R} {env env' : Env} {w w' w₁ w₁' : World R} {r : R} {j j' : Inflight R}

/-- A replacement that arrives again has the same answer and changes nothing. -/
theorem Router.answer_again
    (hlookup : Route.lookup (routes.map fun r => (r.pattern, r)) request.path = some (route, taken))
    (hendpoint : route.endpoint? request.method = some (.operation c .replace))
    (hdescend : Layer.descend route.layers (dispatched request taken) env w = (.ok (.arrived j), w₁))
    (hsize : j.request.body.size ≤ bodyLimit)
    (hcommits : c.Commits .replace j.context j.request.body env w₁ (.set r))
    (hdescend' : Layer.descend route.layers (dispatched request taken) env' w' = (.ok (.arrived j'), w₁'))
    (hrequest : j'.request = j.request)
    (hhandle : c.handle .replace j'.context j.request.body = c.handle .replace j.context j.request.body)
    (hstored : (w'.stores c.node).get? (c.kind.id r) = some r) (hworks : env'.Works) :
    (answer routes request env' w').2.stores = w'.stores
      ∧ (answer routes request env' w').1 = (answer routes request env w).1 := by
  have hstores := Layer.descend_stores hdescend'
  rw [← hstores] at hstored
  obtain ⟨hsame, hcommits'⟩ := Collection.replace_again hcommits hstored hworks
  obtain ⟨response, w₂, hanswer, -⟩ := c.handle_ending .replace j.context j.request.body env w₁
  obtain ⟨response', w₂', hanswer', hending'⟩ := c.handle_ending .replace j.context j.request.body env' w₁'
  have hresponse := Action.answered_outcome hsame
  rw [show Operation.replace = Writing.operation .replace from rfl, hanswer, hanswer'] at hresponse
  cases hresponse
  have hrun : route.reached request.method j env w₁ = (.ok response, w₂) := by
    rw [Route.reached_replace hendpoint, Action.withBody, if_neg (Nat.not_lt.mpr hsize)]
    exact hanswer
  have hrun' : route.reached request.method j' env' w₁' = (.ok response, w₂') := by
    rw [Route.reached_replace hendpoint, Action.withBody, hrequest, if_neg (Nat.not_lt.mpr hsize), hhandle]
    exact hanswer'
  obtain ⟨w₃, hfirst, -⟩ := answer_of_arrived hlookup hdescend hrun
  obtain ⟨w₃', hsecond, hout, -⟩ := answer_of_arrived hlookup hdescend' hrun'
  rw [hfirst, hsecond]
  refine ⟨?_, rfl⟩
  -- what is written is there already
  rw [hout, (hending'.written hcommits').2, Write.apply, Store.insert_of_get? hstored, World.setStore_self, hstores]

/-- A request comes to a gate again as it has come before, if nothing but the store of the API behind it has changed,
and there it finds what is stored now. -/
theorem Site.Gate.arrives_again {site : Site R} (gate : site.Gate)
    (houter : ∀ l ∈ gate.outer, ∀ c', l.loader? = some c' → c'.node ≠ gate.collection.node)
    (hin : Layer.descend gate.outer (Router.dispatched request taken) env w = (.ok (.arrived j), w₁)) {s : Store R}
    (hlater : w'.stores = (w.setStore gate.collection.node s).stores) {id : String}
    (hpath : Form.lookup (Router.decodeParams taken) (idParam gate.collection.name) = some id)
    (hstored : (w'.stores gate.collection.node).get? id = some r) (hworks : env'.Works) :
    ∃ w₁', Layer.descend gate.outer (Router.dispatched request taken) env' w' = (.ok (.arrived j), w₁')
      ∧ gate.collection.asked (Router.decodeParams taken) env' w₁' = .ok r := by
  have hsees : ∀ l ∈ gate.outer, l.Sees (fun node id => (w.stores node).get? id = (w'.stores node).get? id)
      (Router.decodeParams taken) := by
    intro l hl c' hc' id _
    rw [hlater, World.stores_setStore, if_neg (houter l hl c' hc')]
  obtain ⟨w₁', hin'⟩ := Layer.descend_again hin hsees hworks
  refine ⟨w₁', hin', ?_⟩
  have hfound : Action.found env' w₁' gate.collection.node id = .ok r :=
    Action.found_of_stored hworks (by rw [Layer.descend_stores hin', hstored])
  rw [Collection.asked, hpath]
  simp only [hfound]
  rfl

/-- A guard that stops a request refuses it, and no store changes. -/
theorem Site.Gate.refuses_of_stopped {site : Site R} (gate : site.Gate) (hnodup : (site.idParams .root).Nodup)
    (hlookup : Route.lookup (routes.map fun r => (r.pattern, r)) request.path = some (site.route .root, taken))
    (hin : Layer.descend gate.outer (Router.dispatched request taken) env w = (.ok (.arrived j), w₁))
    (hasked : gate.collection.asked (Router.decodeParams taken) env w₁ = .ok r) {passed : List (IdMiddleware R)}
    {g : Guard R} {e : ApiError} (hstopped : IdMiddleware.verdict gate.collection (.ok r) gate.service.idMiddlewares j
      = .stopped passed (.guard g) (.refused e)) :
    (site.route .root).Refuses gate.collection routes request taken env w r
      ∧ (Router.answer routes request env w).2.stores = w.stores := by
  rw [← hasked] at hstopped
  have hcloses := gate.closes_of_stopped hnodup hlookup hin hstopped
  obtain ⟨rest, i, -, hpassed, hasks⟩ := hcloses.stops
  obtain ⟨inner, hlayers⟩ := hcloses.away.layers
  obtain ⟨w₂, hown⟩ := IdMiddleware.descend_layers passed (gate.faces hnodup hin)
  rw [hpassed] at hown
  have hrefuses : g.check i.context r = .error e := by
    rw [hasked] at hasks
    simp only [IdMiddleware.ask] at hasks
    cases hg : g.check i.context r with
    | error e' =>
        rw [hg] at hasks
        cases hasks
        rfl
    | ok u =>
        rw [hg] at hasks
        cases hasks
  exact ⟨⟨_, g, inner, i, w₂, e, hlayers, Layer.descend_append hin hown, hrefuses, hcloses.away.answer⟩,
    hcloses.stores⟩

end Requests

/-- **Replacing is idempotent**, up to the guards. If a request to replace a resource has committed, then the same
request at any later time leaves the stores exactly as the first one has left them, and it is answered alike, be the
answer a resource or an error that came up after the write, unless a guard of the API itself refuses the resource that
the first request has stored. If there is such a guard, the hooks must not look at the resource that it leaves in the
context. -/
theorem replace_repeats {routes : List (Route R)} {n : Node R} (hn : n.router = .ok routes) {request : Request}
    {route : Route R} {taken : List (String × String)}
    (hlookup : Route.lookup (routes.map fun r => (r.pattern, r)) request.path = some (route, taken))
    {c : Collection R} (hendpoint : route.endpoint? request.method = some (.operation c .replace))
    (hignores : ∀ g, .guard c g ∈ route.layers → c.IgnoresOwn) {env env' : Env} {w w' : World R} {r : R}
    (hreplaces : route.Replaces c request taken env w r)
    (hlater : w'.stores = (Router.answer routes request env w).2.stores) (hworks : env'.Works) :
    (Router.answer routes request env' w').2.stores = w'.stores
      ∧ ((Router.answer routes request env' w').1 = (Router.answer routes request env w).1
        ∨ route.Refuses c routes request taken env' w' r) := by
  obtain ⟨site, hsite, rfl, -⟩ := Node.site_of_lookup hn hlookup
  have hnodup := (Node.router_ok hn).nodup .nil site hsite
  obtain ⟨gate, rfl, hlayers, houter⟩ := Site.exists_gate hendpoint rfl
  obtain ⟨hpath, hstores⟩ := hreplaces.stores hlookup hendpoint
  obtain ⟨j, w₁, hdescend, hsize, hcommits⟩ := hreplaces
  obtain ⟨i, w₀, hin, hverdict⟩ := gate.admitted_of_arrived hnodup (hlayers ▸ hdescend)
  have hstored : (w'.stores gate.collection.node).get? (gate.collection.kind.id r) = some r := by
    rw [hlater, hstores, World.stores_setStore, if_pos rfl, Store.get?_insert, if_pos rfl]
  obtain ⟨w₀', hin', hasked⟩ := gate.arrives_again houter hin (hlater.trans hstores) hpath hstored hworks
  rcases IdMiddleware.verdict_again hverdict r with ⟨passed, g, e, hstopped⟩ | ⟨j', hadmitted, hj'⟩
  · obtain ⟨hrefuses, hsame⟩ := gate.refuses_of_stopped hnodup hlookup hin' hasked hstopped
    exact ⟨hsame, Or.inr hrefuses⟩
  · -- whoever is admitted again comes to the same
    have hsame : j'.request = j.request ∧ gate.collection.handle .replace j'.context j.request.body
        = gate.collection.handle .replace j.context j.request.body := by
      rcases hj' with rfl | ⟨g, old, hg, htwins⟩
      · exact ⟨rfl, rfl⟩
      · have hlayer : .guard gate.collection g ∈ (site.route .root).layers := by
          rw [hlayers]
          exact List.mem_append_right _ (List.mem_map_of_mem hg)
        exact ⟨htwins.request_eq, htwins.handle_eq (hignores g hlayer) _⟩
    rw [← hasked] at hadmitted
    obtain ⟨w₁', hdescend', -⟩ := (gate.opens_of_admitted hnodup hin' hadmitted).goesOn
    exact (Router.answer_again hlookup hendpoint hdescend hsize hcommits (hlayers ▸ hdescend') hsame.1 hsame.2 hstored
      hworks).imp id Or.inl

namespace Ledger

/-- Entries, with a guard that is given what is stored. -/
def service (hooks : Hooks Record) (accepts : Record → Bool) : Service Record where
  kind := Record.schemaless
  blank := Record.empty
  hooks := hooks
  idMiddlewares := [.guard { tag := "seal", check := fun _ r => if accepts r then .ok () else .error .forbidden }]

/-- The only API of a tree. -/
def tree (s : Service Record) : Node Record := .api { name := "entries", base := "/entries" } s

/-- The routes of the tree. -/
def routes (s : Service Record) : List (Route Record) := (tree s).sites.map (Site.route .root)

/-- The route of an entry. -/
def item (s : Service Record) : Route Record := Site.route .root ⟨[], tree s, .item⟩

/-- The resources of the tree. -/
def entries (s : Service Record) : Collection Record := s.collection "entries" ["entries"]

/-- Hooks that show the title of the entry that the guard was given. -/
def showing : Hooks Record where
  wrapper := some fun ctx _ =>
    .ok ⟨.ok (((ctx.resource? "AnyResource" "entries").bind (·.field? "title")).getD .null), none⟩

/-- Entries that are shown so. -/
def remembered : Service Record := service showing fun _ => true

/-- Entries that are shown so, and that cannot be changed any more once they have a time of creation. -/
def sealed : Service Record := service showing fun r => r.identity.createdAt.isNone

/-- Entries without hooks, which anybody may change. -/
def unsealed : Service Record := service {} fun _ => true

/-- A request to close an entry. -/
def closing : Request := ⟨.put, "/entries/e", none, [], "\x7b\"title\":\"closed\"\x7d".toUTF8⟩

/-- An open entry without a time of creation. -/
def opened : Record := ⟨⟨"e", none⟩, [("title", .str "open")]⟩

/-- The closed entry. -/
def closed : Record := ⟨⟨"e", some ⟨0, 0⟩⟩, [("title", .str "closed")]⟩

/-- The world with the open entry. -/
def world : World Record := World.initial.setStore ["entries"] (Store.empty.insert "e" opened)

/-- The request as it arrives behind the guard. -/
def arrived (s : Service Record) : Inflight Record :=
  (Router.dispatched closing [("entries_id", "e")]).resolve (entries s) opened

/-- The world as the request arrives. -/
def passed : World Record :=
  { world.called ["entries"] (.get "e") with log := [.store ["entries"] (.get "e"), .guard ["entries"] "seal" "e"] }

/-- The answer to the request, and the world after it. -/
def first (s : Service Record) : Response × World Record := Router.answer (routes s) closing (Env.quiet "m") world

/-- The answer to the same request again, and the world after that. -/
def again (s : Service Record) : Response × World Record :=
  Router.answer (routes s) closing (Env.quiet "m") (first s).2.nextRequest

/-- A guard that accepts the open entry lets the request in. -/
theorem descend_item {hooks : Hooks Record} {accepts : Record → Bool} (haccepts : accepts opened = true) :
    Layer.descend (item (service hooks accepts)).layers (Router.dispatched closing [("entries_id", "e")])
      (Env.quiet "m") world = (.ok (.arrived (arrived (service hooks accepts))), passed) := by
  have hid : (Router.dispatched (R := Record) closing [("entries_id", "e")]).context.id? "entries" = some "e" := by cbv
  have hrequested : (entries (service hooks accepts)).requested (Router.dispatched closing [("entries_id", "e")]).context
      (Env.quiet "m") world = (.ok opened, world.called ["entries"] (.get "e")) := by
    rw [Collection.requested_apply, show (entries (service hooks accepts)).name = "entries" from rfl, hid]
    rfl
  have hlayers : (item (service hooks accepts)).layers = [.guard (entries (service hooks accepts))
      { tag := "seal", check := fun _ r => if accepts r then .ok () else .error .forbidden }] := rfl
  rw [hlayers, Layer.descend, Layer.enter, bind_assoc, Action.bind_of_ok (Action.attempt_of_ok hrequested)]
  simp only [haccepts, if_true]
  rfl

end Ledger

open Ledger in
/-- An entry without a time of creation gets one as it is closed. It keeps it when it is closed again, at a later
time. -/
theorem replace_repeats_unsealed :
    ((first unsealed).2.stores ["entries"]).get? "e" = some closed
      ∧ (again unsealed).2.stores = (first unsealed).2.stores ∧ (again unsealed).1 = (first unsealed).1 := by
  have hlookup : Route.lookup ((routes unsealed).map fun r => (r.pattern, r)) closing.path
      = some (item unsealed, [("entries_id", "e")]) := rfl
  have hendpoint : (item unsealed).endpoint? closing.method = some (.operation (entries unsealed) .replace) := rfl
  have hreplaces : (item unsealed).Replaces (entries unsealed) closing [("entries_id", "e")] (Env.quiet "m") world
      closed :=
    ⟨_, _, descend_item rfl, by decide +kernel, _, _, Pipeline.passes_of_run (by cbv), by cbv⟩
  have hignores : (entries unsealed).IgnoresOwn :=
    ⟨fun _ _ _ => rfl, fun _ _ _ => rfl, fun _ _ _ => rfl, fun _ h => (Option.not_mem_none _ h).elim,
      fun _ h => (Option.not_mem_none _ h).elim⟩
  have hstored := (hreplaces.stores hlookup hendpoint).2
  have hlater : (first unsealed).2.nextRequest.stores
      = (Router.answer (routes unsealed) closing (Env.quiet "m") world).2.stores := rfl
  refine ⟨?_, ?_⟩
  · have hnode : ["entries"] = (entries unsealed).node := rfl
    rw [first, hstored, hnode, World.stores_setStore, if_pos rfl]
    cbv
  · obtain ⟨hsame, hanswer | ⟨outer, g, inner, i, w₁, e, hlayers, -, hrefuses, -⟩⟩ :=
      replace_repeats (Node.router_eq (by decide +kernel)) hlookup hendpoint (fun _ _ => hignores) hreplaces hlater
        (Env.quiet_works "m")
    · exact ⟨hsame, hanswer⟩
    · -- the only guard accepts whatever is stored
      have hmem : Layer.guard (entries unsealed) g ∈ (item unsealed).layers := by
        rw [hlayers]
        exact List.mem_append_right outer List.mem_cons_self
      cases List.mem_singleton.mp hmem
      cases hrefuses

open Ledger in
/-- **A guard makes a difference for a repeated replacement**: it may refuse what the first one has stored, and it may
show it to the hooks. -/
theorem replace_differs :
    ((item sealed).Replaces (entries sealed) closing [("entries_id", "e")] (Env.quiet "m") world closed
        ∧ (first sealed).1 = .json 200 (.str "open") ∧ (again sealed).1 = .error .forbidden)
      ∧ (item remembered).Replaces (entries remembered) closing [("entries_id", "e")] (Env.quiet "m") world closed
        ∧ (first remembered).1 = .json 200 (.str "open") ∧ (again remembered).1 = .json 200 (.str "closed") :=
  ⟨⟨⟨_, _, descend_item rfl, by decide +kernel, _, _, Pipeline.passes_of_run (by cbv), by cbv⟩, by cbv, by cbv⟩,
    ⟨_, _, descend_item rfl, by decide +kernel, _, _, Pipeline.passes_of_run (by cbv), by cbv⟩, by cbv, by cbv⟩

end ResourceTree
