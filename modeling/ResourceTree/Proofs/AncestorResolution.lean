import ResourceTree.Proofs.AncestorIds
import ResourceTree.Proofs.OwnContext
import ResourceTree.Proofs.WrittenIdentity
import ResourceTree.Resource.Record
import Mathlib

/-! # The resolution of ancestors

A request on its way down a tree loads the ancestors of its route one after another, each by one get call with
the ID that stands at its place in the path. It ends at the first ancestor that is not found, and nothing below
that one takes notice of it (`Router.EndsAt`); or it comes to the endpoint of its route, with every ancestor
resolved (`Site.Reaches`). -/

namespace ResourceTree

variable {R : Type} {env : Env} {w w' : World R}

/-! ## Where a request is stopped -/

namespace Layer

variable {layer : Layer R} {layers outer : List (Layer R)} {i : Inflight R} {s : Stop R} {c : Collection R}

/-- A layer that asks for a resource belongs to the API of the resource. -/
theorem node_of_loader (h : layer.loader? = some c) : layer.node = c.node := by
  cases layer with
  | plain node m => cases h
  | guard c' g => cases h; rfl
  | resolve c' => cases h; rfl

/-- A layer that lets every request pass that finds its resource. -/
def IsOpen : Layer R → Prop
  | .plain _ m => ∀ request, ∃ request', m.enter request = .ok request'
  | .guard _ g => ∀ ctx r, g.check ctx r = .ok ()
  | .resolve _ => True

/-- **How a layer stops a request**: a resource is missing that it asks for, or it is not open. -/
theorem stopped_of_enter (h : layer.enter i env w = (.ok (.stopped s), w')) :
    (∃ c e, s = .missing c e ∧ layer.loader? = some c) ∨ s.IsRefusal ∧ ¬layer.IsOpen := by
  cases layer with
  | plain node m =>
      obtain ⟨_, w₁, -, hrest⟩ := Action.bind_eq_ok.mp h
      cases hm : m.enter i.request with
      | ok request => simp [hm, Prod.ext_iff] at hrest
      | error response =>
          rw [hm] at hrest
          cases hrest
          refine Or.inr ⟨trivial, fun hopen => ?_⟩
          obtain ⟨request, hok⟩ := hopen i.request
          cases hm.symm.trans hok
  | guard c g =>
      obtain ⟨outcome, w₁, -, hrest⟩ := Action.bind_eq_ok.mp h
      cases outcome with
      | error e =>
          cases hrest
          exact Or.inl ⟨c, e, rfl, rfl⟩
      | ok r =>
          obtain ⟨_, w₂, -, hrest⟩ := Action.bind_eq_ok.mp hrest
          cases hg : g.check i.context r with
          | ok u => simp [hg, Prod.ext_iff] at hrest
          | error e =>
              rw [hg] at hrest
              cases hrest
              exact Or.inr ⟨trivial, fun hopen => by cases hg.symm.trans (hopen i.context r)⟩
  | resolve c =>
      rw [enter] at h
      split at h
      · cases h
      · obtain ⟨outcome, w₁, -, hrest⟩ := Action.bind_eq_ok.mp h
        cases outcome with
        | error e =>
            cases hrest
            exact Or.inl ⟨c, e, rfl, rfl⟩
        | ok r => cases hrest

/-- **A request that is stopped** has touched the layers outside and the one that stops it, and no others. -/
theorem descend_stopped (h : descend layers i env w = (.ok (.stopped outer s), w')) :
    ∃ layer rest, layers = outer ++ layer :: rest
      ∧ w.LogsOnly (fun e => ∃ l ∈ outer ++ [layer], e.Passing l.node) w'
      ∧ ((∃ c e, s = .missing c e ∧ layer.loader? = some c) ∨ s.IsRefusal ∧ ¬layer.IsOpen) := by
  induction layers generalizing i outer w with
  | nil => cases h
  | cons layer layers ih =>
      obtain ⟨entry, w₁, henter, hrest⟩ := Action.bind_eq_ok.mp h
      have hlog := (layer.enter_harmless i).log env w
      rw [henter] at hlog
      cases entry with
      | stopped s' =>
          cases hrest
          exact ⟨layer, layers, rfl, hlog.mono fun e he => ⟨layer, List.mem_singleton.mpr rfl, he⟩,
            stopped_of_enter henter⟩
      | passed i₁ =>
          obtain ⟨d, w₂, hdescend, hbehind⟩ := Action.bind_eq_ok.mp hrest
          cases d with
          | arrived i₂ => cases hbehind
          | stopped outer' s' =>
              cases hbehind
              obtain ⟨last, rest, rfl, hmore, hcause⟩ := ih hdescend
              refine ⟨last, rest, rfl, (hlog.mono fun e he => ?_).trans (hmore.mono fun e he => ?_), hcause⟩
              · exact ⟨layer, List.mem_append_left _ List.mem_cons_self, he⟩
              · obtain ⟨l, hl, he⟩ := he
                exact ⟨l, List.mem_cons_of_mem layer hl, he⟩

end Layer

/-- No middleware answers the request on its way in, and no guard refuses it. -/
def Route.Admits (route : Route R) (request : Request) (taken : List (String × String)) (env : Env)
    (w : World R) : Prop :=
  ∀ outer s w', Layer.descend route.layers (Router.dispatched request taken) env w = (.ok (.stopped outer s), w') →
    ¬s.IsRefusal

/-- Middlewares that pass every request on and guards that accept turn no request away. -/
theorem Route.admits_of_open {route : Route R} (h : ∀ l ∈ route.layers, l.IsOpen) (request : Request)
    (taken : List (String × String)) (env : Env) (w : World R) : route.Admits request taken env w := by
  intro outer s w' hdescend hrefusal
  obtain ⟨layer, rest, hlayers, -, ⟨c, e, rfl, -⟩ | ⟨-, hclosed⟩⟩ := Layer.descend_stopped hdescend
  · exact hrefusal
  · exact hclosed (h layer (by simp [hlayers]))

section Request

variable {routes : List (Route R)} {route : Route R} {request : Request} {taken : List (String × String)}

/-- **A request ends at a collection**: the answer is the error, as the layers outside let it out, no store has
changed, these calls were made, and all that has happened are events of the layers of this API and those above. -/
structure Router.EndsAt (routes : List (Route R)) (route : Route R) (request : Request) (env : Env)
    (w : World R) (c : Collection R) (e : ApiError) (calls : List Event) : Prop where
  answer : ∃ outer, outer <+: route.layers ∧ (Router.answer routes request env w).1
    = route.dressed request.method (Layer.left outer (.error e))
  stores : (Router.answer routes request env w).2.stores = w.stores
  calls : (Router.answer routes request env w).2.calls = w.calls ++ calls
  above : w.LogsOnly (fun event => ∃ node, node <+: c.node ∧ event.Passing node)
    (Router.answer routes request env w).2

/-- **A request that is stopped leaves no trace further in**: no store has changed, and all that has happened are
events of the layers of the API that stops it and of those above. -/
theorem Router.above_of_stopped
    (hlookup : Route.lookup (routes.map fun r => (r.pattern, r)) request.path = some (route, taken))
    (hnested : route.layers.Pairwise fun l l' => l.node <+: l'.node) {outer inner : List (Layer R)}
    {layer : Layer R} {s : Layer.Stop R} {w₁ : World R} (hlayers : route.layers = outer ++ layer :: inner)
    (hdescend : Layer.descend route.layers (Router.dispatched request taken) env w = (.ok (.stopped outer s), w₁)) :
    (Router.answer routes request env w).2.stores = w.stores
      ∧ w.LogsOnly (fun event => ∃ node, node <+: layer.node ∧ event.Passing node)
        (Router.answer routes request env w).2 := by
  obtain ⟨w', hanswer, hstores, hleft⟩ := Router.answer_of_stopped hlookup hdescend
  obtain ⟨layer', inner', hlayers', hlog, -⟩ := Layer.descend_stopped hdescend
  obtain ⟨rfl, rfl⟩ := List.cons.inj (List.append_cancel_left (hlayers.symm.trans hlayers'))
  -- the layers outside belong to the same API or to ones above
  have habove {l : Layer R} (hl : l ∈ outer ++ [layer]) : l.node <+: layer.node := by
    rcases List.mem_append.mp hl with hl | hl
    · rw [hlayers] at hnested
      exact (List.pairwise_append.mp hnested).2.2 l hl layer List.mem_cons_self
    · obtain rfl := List.mem_singleton.mp hl
      exact List.prefix_rfl
  rw [hanswer]
  refine ⟨hstores.trans (Layer.descend_stores hdescend), ?_⟩
  have hway : w.LogsOnly (fun event => ∃ node, node <+: layer.node ∧ event.Passing node) w₁ := by
    refine hlog.mono fun event hevent => ?_
    obtain ⟨l, hl, he⟩ := hevent
    exact ⟨l.node, habove hl, he⟩
  have hback : w₁.LogsOnly (fun event => ∃ node, node <+: layer.node ∧ event.Passing node) w' := by
    refine hleft.mono fun event hevent => ?_
    obtain ⟨l, hl, he⟩ := hevent
    exact ⟨l.node, habove (List.mem_append_left _ hl), he.passing⟩
  exact hway.trans hback

/-- A request that is stopped for want of a resource ends at the collection. -/
theorem Router.endsAt_of_missing
    (hlookup : Route.lookup (routes.map fun r => (r.pattern, r)) request.path = some (route, taken))
    (hnested : route.layers.Pairwise fun l l' => l.node <+: l'.node) {outer : List (Layer R)}
    {c : Collection R} {e : ApiError} {w₁ : World R}
    (hdescend : Layer.descend route.layers (Router.dispatched request taken) env w
      = (.ok (.stopped outer (.missing c e)), w₁))
    {calls : List Event} (hcalls : w₁.calls = w.calls ++ calls) :
    Router.EndsAt routes route request env w c e calls := by
  obtain ⟨w', hanswer, -, hleft⟩ := Router.answer_of_stopped hlookup hdescend
  obtain ⟨layer, inner, hlayers, -, hcause⟩ := Layer.descend_stopped hdescend
  obtain ⟨hstores, habove⟩ := Router.above_of_stopped hlookup hnested hlayers hdescend
  have hnode : layer.node = c.node := by
    rcases hcause with ⟨c', e', hs, hloader⟩ | ⟨hrefusal, -⟩
    · cases hs
      exact Layer.node_of_loader hloader
    · exact hrefusal.elim
  constructor
  · exact ⟨outer, ⟨layer :: inner, hlayers.symm⟩, by rw [hanswer]; rfl⟩
  · exact hstores
  · rw [hanswer, ← hcalls]
    refine hleft.calls_eq fun event hevent => ?_
    obtain ⟨l, -, he⟩ := hevent
    cases event with
    | store node call => exact he.elim
    | _ => rfl
  · rw [← hnode]
    exact habove

end Request

/-! ## What is loaded of an ancestor -/

namespace Ancestor

variable {a : Ancestor R} {params : List (String × String)} {path : String} {p : Nat}

/-- The parameter of an ancestor has the ID that stands at its place in the path. -/
def Named (params : List (String × String)) (path : String) (a : Ancestor R) : Prop :=
  ∃ id, a.id? path = some id ∧ Form.lookup params (idParam a.c.name) = some id

theorem Named.call_eq (h : a.Named params path) : a.c.loading params = a.call path := by
  obtain ⟨id, hid, hparam⟩ := h
  rw [call, Collection.loading, hid, hparam]

theorem Named.loads_iff (h : a.Named params path) {r : R} :
    a.c.Loads env w params p r ↔ a.loaded env w path p = .ok r := by
  obtain ⟨id, hid, hparam⟩ := h
  rw [loaded, hid, Option.getD_some]
  constructor
  · rintro ⟨id', hparam', hfound⟩
    cases hparam.symm.trans hparam'
    exact hfound
  · exact fun hfound => ⟨id, hparam, hfound⟩

theorem Named.misses_iff (h : a.Named params path) {e : ApiError} :
    a.c.Misses env w params p e ↔ ∃ err, a.loaded env w path p = .error err ∧ e = .ofStorage err := by
  obtain ⟨id, hid, hparam⟩ := h
  rw [loaded, hid, Option.getD_some]
  constructor
  · rintro (⟨hnone, -⟩ | ⟨id', err, hparam', hfound, rfl⟩)
    · cases hparam.symm.trans hnone
    · cases hparam.symm.trans hparam'
      exact ⟨err, hfound, rfl⟩
  · rintro ⟨err, hfound, rfl⟩
    exact Or.inr ⟨id, err, hparam, hfound, rfl⟩

end Ancestor

/-! ## The way to a site -/

namespace Site

variable {site : Site R} {routes : List (Route R)} {request : Request} {taken : List (String × String)}
  {params : List (String × String)} {path : String}

/-- Loading the ancestors fails first at this one: the call for it fails, and those before succeed. -/
structure Lacks (site : Site R) (path : String) (env : Env) (w : World R) (p : Nat) (a : Ancestor R)
    (err : StorageError) : Prop where
  at_place : site.ancestry[p]? = some a
  fails : a.loaded env w path p = .error err
  before : ∀ q b, q < p → site.ancestry[q]? = some b → ∃ r, b.loaded env w path q = .ok r

/-- Every ancestor is there. -/
def HasAll (site : Site R) (path : String) (env : Env) (w : World R) : Prop :=
  ∀ (p : Nat) (a : Ancestor R), site.ancestry[p]? = some a → ∃ r, a.loaded env w path p = .ok r

/-- The context shows for every ancestor the resource that was loaded for it. -/
def ShownIn (site : Site R) (path : String) (env : Env) (w : World R) (ctx : Context R) : Prop :=
  ∀ (p : Nat) (a : Ancestor R) (r : R), site.ancestry[p]? = some a → a.loaded env w path p = .ok r →
    ctx.resource? a.c.kind.name a.c.name = some r

/-- There is only one ancestor at which loading fails first. -/
theorem Lacks.unique {p q : Nat} {a b : Ancestor R} {err err' : StorageError}
    (h : site.Lacks path env w p a err) (h' : site.Lacks path env w q b err') : p = q ∧ a = b ∧ err = err' := by
  rcases Nat.lt_trichotomy p q with hlt | rfl | hlt
  · obtain ⟨r, hr⟩ := h'.before p a hlt h.at_place
    cases hr.symm.trans h.fails
  · obtain rfl := Option.some.inj (h.at_place.symm.trans h'.at_place)
    cases h.fails.symm.trans h'.fails
    exact ⟨rfl, rfl, rfl⟩
  · obtain ⟨r, hr⟩ := h.before q b hlt h'.at_place
    cases hr.symm.trans h'.fails

/-- **What a request to a site loads on its way in** are the ancestors of the site. -/
theorem fared (hnodup : (site.idParams .root).Nodup) {d : Layer.Descent R}
    (h : Layer.descend (site.route .root).layers (Router.dispatched request taken) env w = (.ok d, w')) :
    Layer.Fared env w (Router.dispatched request taken) (site.ancestry.map Ancestor.c) w' d := by
  rw [← toLoad_layers hnodup]
  exact Layer.descend_loads (ready hnodup request taken) h

section Named

variable (hnamed : ∀ a ∈ site.ancestry, a.Named params path) {i i' : Inflight R}

include hnamed

/-- The calls for some of the ancestors. -/
theorem calls_eq {as : List (Ancestor R)} (hsub : ∀ a ∈ as, a ∈ site.ancestry) :
    (as.map Ancestor.c).map (Collection.loading params) = as.map (Ancestor.call path) := by
  rw [List.map_map]
  exact List.map_congr_left fun a ha => (hnamed a (hsub a ha)).call_eq

/-- On arrival every ancestor was loaded and is shown. -/
theorem shown_of_arrival (hparams : i.params = params)
    (h : Layer.Arrival env w i (site.ancestry.map Ancestor.c) i' w') :
    w'.calls = w.calls ++ site.ancestry.map (Ancestor.call path) ∧ site.HasAll path env w
      ∧ site.ShownIn path env w i'.context := by
  subst hparams
  have hloads {p : Nat} {a : Ancestor R} (ha : site.ancestry[p]? = some a) :
      ∃ r, a.loaded env w path p = .ok r ∧ i'.resolved.get? a.c.name = some ⟨a.c.kind.name, r⟩ := by
    obtain ⟨r, hr, hresolved⟩ := h.loads p a.c (by rw [List.getElem?_map, ha]; rfl)
    exact ⟨r, (hnamed a (List.mem_of_getElem? ha)).loads_iff.mp hr, hresolved⟩
  refine ⟨?_, fun p a ha => ?_, fun p a r ha hr => ?_⟩
  · rw [h.calls, calls_eq hnamed fun _ ha => ha]
  · obtain ⟨r, hr, -⟩ := hloads ha
    exact ⟨r, hr⟩
  · obtain ⟨r', hr', hresolved⟩ := hloads ha
    cases hr.symm.trans hr'
    simp [Context.resource?, Inflight.context, Context.ofRequest, hresolved]

/-- A request that ends at a collection ends at the ancestor at which loading fails first. -/
theorem lacks_of_absence (hparams : i.params = params) {c : Collection R} {e : ApiError}
    (h : Layer.Absence env w i (site.ancestry.map Ancestor.c) c e w') :
    ∃ p a err, site.Lacks path env w p a err ∧ c = a.c ∧ e = .ofStorage err
      ∧ w'.calls = w.calls ++ (site.ancestry.take (p + 1)).map (Ancestor.call path) := by
  subst hparams
  obtain ⟨before, after, heq, hloads, hmisses, hcalls⟩ := h
  obtain ⟨as, bs, hancestry, rfl, hbs⟩ := List.map_eq_append_iff.mp heq
  obtain ⟨a, bs, rfl, rfl, -⟩ := List.map_eq_cons_iff.mp hbs
  have hplace : site.ancestry[as.length]? = some a := by rw [hancestry]; simp
  have ha := hnamed a (List.mem_of_getElem? hplace)
  rw [List.length_map] at hmisses
  obtain ⟨err, hfails, rfl⟩ := ha.misses_iff.mp hmisses
  refine ⟨as.length, a, err, ⟨hplace, hfails, fun q b hq hb => ?_⟩, rfl, rfl, ?_⟩
  · rw [hancestry, List.getElem?_append_left hq] at hb
    obtain ⟨r, hr⟩ := hloads q b.c (by rw [List.getElem?_map, hb]; rfl)
    refine ⟨r, (hnamed b ?_).loads_iff.mp hr⟩
    rw [hancestry]
    exact List.mem_append_left _ (List.mem_of_getElem? hb)
  · obtain ⟨id, -, hparam⟩ := ha
    have htake : site.ancestry.take (as.length + 1) = as ++ [a] := by
      rw [hancestry, List.append_cons]
      exact List.take_left' (by simp)
    have hsub (b) (hb : b ∈ as ++ [a]) : b ∈ site.ancestry := by
      rw [hancestry, List.append_cons]
      exact List.mem_append_left _ hb
    rw [hcalls, hparam, htake, ← calls_eq hnamed hsub]
    simp

end Named

/-- **A request reaches the endpoint of a site** with all ancestors resolved: each was loaded by one call, the
endpoint runs in a context that shows them and runs everything in such a context, and a default handler calls no
store but its own from there. -/
structure Reaches (site : Site R) (routes : List (Route R)) (request : Request)
    (taken : List (String × String)) (env : Env) (w : World R) (i : Inflight R) (w₁ : World R) : Prop where
  arrives : Layer.descend (site.route .root).layers (Router.dispatched request taken) env w
    = (.ok (.arrived i), w₁)
  stores : w₁.stores = w.stores
  calls : w₁.calls = w.calls ++ site.ancestry.map (Ancestor.call request.path)
  shown : site.ShownIn request.path env w i.context
  answer : ∀ response w₂, (site.route .root).reached request.method i env w₁ = (.ok response, w₂) →
    (Router.answer routes request env w).1
      = (site.route .root).dressed request.method (Layer.left (site.route .root).layers response)
  sees : ∀ e e' : Endpoint R, (site.route .root).endpoint? request.method = some e →
    (∀ ctx, site.ShownIn request.path env w ctx → e.seenIn ctx = e'.seenIn ctx) →
    (site.route .root).reached request.method i = e'.run i
  own : ∀ c op, (site.route .root).endpoint? request.method = some (.operation c op) →
    c.node = (site.path .root).names
      ∧ w₁.LogsOnly (fun event => event.isCall = true → event.node = c.node)
        (Router.answer routes request env w).2

/-- A request that arrives with all ancestors shown has reached the endpoint. -/
theorem reaches_of_arrived
    (hlookup : Route.lookup (routes.map fun r => (r.pattern, r)) request.path
      = some (site.route .root, taken)) {i : Inflight R} {w₁ : World R}
    (hdescend : Layer.descend (site.route .root).layers (Router.dispatched request taken) env w
      = (.ok (.arrived i), w₁))
    (hcalls : w₁.calls = w.calls ++ site.ancestry.map (Ancestor.call request.path))
    (hshown : site.ShownIn request.path env w i.context) :
    site.Reaches routes request taken env w i w₁ := by
  refine ⟨hdescend, Layer.descend_stores hdescend, hcalls, hshown, fun response w₂ hreached => ?_,
    fun e e' he halike => ?_, fun c op he => ?_⟩
  · obtain ⟨w', hanswer, -, -⟩ := Router.answer_of_arrived hlookup hdescend hreached
    rw [hanswer]
  · simp only [Route.reached, he]
    exact Endpoint.run_congr (halike i.context hshown)
  · refine ⟨Node.node_collectionAt (collection_of_endpoint he).1, ?_⟩
    obtain ⟨response, w₂, hrun, hown⟩ := Endpoint.run_events c op i env w₁
    have hreached : (site.route .root).reached request.method i env w₁ = (.ok response, w₂) := by
      rw [Route.reached, he]
      exact hrun
    obtain ⟨w', hanswer, -, hleft⟩ := Router.answer_of_arrived hlookup hdescend hreached
    rw [hanswer]
    have hrun : w₁.LogsOnly (fun event => event.isCall = true → event.node = c.node) w₂ :=
      hown.mono fun _ hhandling _ => hhandling.node_eq
    refine hrun.trans (hleft.mono fun event hevent hcall => ?_)
    obtain ⟨l, -, he⟩ := hevent
    cases event with
    | store node call => exact he.elim
    | _ => cases hcall

end Site

section Tree

variable {n : Node R} {routes : List (Route R)} {request : Request} {route : Route R}
  {taken : List (String × String)} {site : Site R}

/-- Without parameters nothing is loaded: a request that is not refused ends at the outermost ancestor. -/
theorem Site.endsAt_first (hnodup : (site.idParams .root).Nodup)
    (hlookup : Route.lookup (routes.map fun r => (r.pattern, r)) request.path
      = some (site.route .root, taken))
    (hundecodable : ∃ param ∈ taken, Percent.decode? param.2 = none)
    (hadmits : (site.route .root).Admits request taken env w) {a : Ancestor R} {rest : List (Ancestor R)}
    (hancestry : site.ancestry = a :: rest) :
    Router.EndsAt routes (site.route .root) request env w a.c .notFound [] := by
  obtain ⟨d, w₁, hdescend⟩ :=
    Layer.descend_apply (site.route .root).layers (Router.dispatched request taken) env w
  have hfared := Site.fared hnodup hdescend
  have hparams : (Router.dispatched (R := R) request taken).params = [] :=
    Router.decodeParams_of_undecodable hundecodable
  have hno (c : Collection R) :
      Form.lookup (Router.dispatched (R := R) request taken).params (idParam c.name) = none := by
    rw [hparams]
    rfl
  cases d with
  | arrived i =>
      -- it would have loaded the outermost ancestor, for which it has no ID
      obtain ⟨r, ⟨id, hid, -⟩, -⟩ := hfared.loads 0 a.c (by rw [hancestry]; rfl)
      cases (hno a.c).symm.trans hid
  | stopped outer s =>
      cases s with
      | answered response => exact absurd trivial (hadmits _ _ _ hdescend)
      | refused e => exact absurd trivial (hadmits _ _ _ hdescend)
      | missing c e =>
          obtain ⟨before, after, heq, hloads, hmisses, hcalls⟩ := hfared
          cases before with
          | cons b before =>
              -- the same holds of whatever it would have loaded before
              obtain ⟨r, id, hid, -⟩ := hloads 0 b rfl
              cases (hno b).symm.trans hid
          | nil =>
              rw [hancestry] at heq
              cases heq
              rcases hmisses with ⟨-, rfl⟩ | ⟨id, err, hid, -⟩
              · refine Router.endsAt_of_missing hlookup site.nested_layers hdescend ?_
                rw [hcalls, hno]
                rfl
              · cases (hno a.c).symm.trans hid

/-- A request whose parameters name the ancestors ends at the first ancestor that is not found, or reaches the
endpoint of its site. -/
theorem Site.endsAt_or_reaches (hnodup : (site.idParams .root).Nodup)
    (hlookup : Route.lookup (routes.map fun r => (r.pattern, r)) request.path
      = some (site.route .root, taken))
    (hnamed : ∀ a ∈ site.ancestry, a.Named (Router.decodeParams taken) request.path)
    (hadmits : (site.route .root).Admits request taken env w) :
    (∃ p a err, site.Lacks request.path env w p a err
        ∧ Router.EndsAt routes (site.route .root) request env w a.c (.ofStorage err)
          ((site.ancestry.take (p + 1)).map (Ancestor.call request.path)))
      ∨ site.HasAll request.path env w ∧ ∃ i w₁, site.Reaches routes request taken env w i w₁ := by
  obtain ⟨d, w₁, hdescend⟩ :=
    Layer.descend_apply (site.route .root).layers (Router.dispatched request taken) env w
  have hfared := Site.fared hnodup hdescend
  cases d with
  | arrived i =>
      obtain ⟨hcalls, hall, hshown⟩ := Site.shown_of_arrival hnamed rfl hfared
      exact Or.inr ⟨hall, i, w₁, Site.reaches_of_arrived hlookup hdescend hcalls hshown⟩
  | stopped outer s =>
      cases s with
      | answered response => exact absurd trivial (hadmits _ _ _ hdescend)
      | refused e => exact absurd trivial (hadmits _ _ _ hdescend)
      | missing c e =>
          obtain ⟨p, a, err, hlacks, rfl, rfl, hcalls⟩ := Site.lacks_of_absence hnamed rfl hfared
          exact Or.inl ⟨p, a, err, hlacks,
            Router.endsAt_of_missing hlookup site.nested_layers hdescend hcalls⟩

/-- **The resolution of ancestors.** A request that no middleware and no guard turns away, in a tree that keeps
the parameters of IDs apart, loads the ancestors of its route from the outside in, each by one get call with the
percent-decoded segment at its place. It ends at the first one whose call fails, with that failure and without a
trace below; if all are found it reaches the endpoint of its route with all of them resolved. If a parameter is
not UTF-8, nothing is loaded, and the outermost ancestor is not found. -/
theorem ancestors_resolved (hn : n.router = .ok routes) (hkeeps : n.KeepsIdParams)
    (hlookup : Route.lookup (routes.map fun r => (r.pattern, r)) request.path = some (route, taken))
    (hadmits : route.Admits request taken env w) :
    ∃ site ∈ n.sites, route = site.route .root
      ∧ ((∀ param ∈ taken, (Percent.decode? param.2).isSome) →
        (∀ a ∈ site.ancestry, (a.id? request.path).isSome)
          ∧ (∀ p a err, site.Lacks request.path env w p a err →
            Router.EndsAt routes route request env w a.c (.ofStorage err)
                ((site.ancestry.take (p + 1)).map (Ancestor.call request.path))
              ∧ (ApiError.ofStorage err).status = if err = .notFound then 404 else 500)
          ∧ (site.HasAll request.path env w → ∃ i w₁, site.Reaches routes request taken env w i w₁))
      ∧ ((∃ param ∈ taken, Percent.decode? param.2 = none) → ∀ a rest, site.ancestry = a :: rest →
        Router.EndsAt routes route request env w a.c .notFound []) := by
  obtain ⟨site, hsite, rfl, texts, hmatch, htaken⟩ := Node.site_of_lookup hn hlookup
  have hnodup := (Node.router_ok hn).nodup .nil site hsite
  refine ⟨site, hsite, rfl, fun hutf8 => ?_, fun hundecodable a rest hancestry =>
    Site.endsAt_first hnodup hlookup hundecodable hadmits hancestry⟩
  have hnamed (a) (ha : a ∈ site.ancestry) : a.Named (Router.decodeParams taken) request.path :=
    Router.lookup_ancestor hn hkeeps hsite hmatch htaken hutf8 ha
  refine ⟨fun a ha => ?_, fun p a err hlacks => ⟨?_, ?_⟩, fun hall => ?_⟩
  · obtain ⟨id, hid, -⟩ := hnamed a ha
    rw [hid]
    rfl
  · rcases Site.endsAt_or_reaches hnodup hlookup hnamed hadmits with ⟨q, b, err', hfirst, hends⟩ | ⟨hall, -⟩
    · obtain ⟨rfl, rfl, rfl⟩ := hlacks.unique hfirst
      exact hends
    · obtain ⟨r, hr⟩ := hall p a hlacks.at_place
      cases hr.symm.trans hlacks.fails
  · cases err with
    | notFound => rfl
    | failed reason => rfl
  · rcases Site.endsAt_or_reaches hnodup hlookup hnamed hadmits with ⟨p, a, err, hlacks, -⟩ | ⟨-, hreaches⟩
    · obtain ⟨r, hr⟩ := hall p a hlacks.at_place
      cases hr.symm.trans hlacks.fails
    · exact hreaches

end Tree

/-! ## A library -/

namespace Library

/-- A guard that accepts. -/
def welcome : Guard Record := ⟨"welcome", fun _ _ => .ok ()⟩

/-- The tags of an artist. -/
def tags : CustomRoute Record := ⟨"/tags/{tag}", [.get], ⟨"tags", fun _ _ => pure (.plain 200 "ok")⟩⟩

/-- What artists have: two guards on their IDs, and a custom route below them. -/
def artistService : Service Record where
  kind := Record.schemaless
  blank := Record.empty
  idRoutes := [tags]
  idMiddlewares := [.guard welcome, .guard welcome]

/-- The albums of an artist. -/
def albums : Node Record :=
  .api { name := "albums", base := "/albums" } { kind := Record.schemaless, blank := Record.empty }

/-- Artists with albums below. -/
def tree : Node Record := .mk { name := "artists", base := "/artists" } (some artistService) [albums]

/-- The resources of the artists. -/
def artists : Collection Record := artistService.collection "artists" ["artists"]

/-- A request for an album of the artist `a 1`. -/
def albumRequest : Request := ⟨.get, "/artists/a%201/albums/x", none, [], .empty⟩

/-- What the parameters take from its path. -/
def albumTaken : List (String × String) := [("artists_id", "a%201"), ("albums_id", "x")]

/-- The place of albums in the tree. -/
def albumSite : Site Record := ⟨[tree], albums, .item⟩

/-- A request for a tag of the artist `a` that is not UTF-8. -/
def tagRequest : Request := ⟨.get, "/artists/a/tags/%FF", none, [], .empty⟩

/-- The place of tags in the tree. -/
def tagSite : Site Record := ⟨[], tree, .onId tags⟩

/-- A world in which there is an artist. -/
def stocked (id : String) : World Record :=
  World.initial.setStore ["artists"] (Store.empty.insert id ⟨⟨id, none⟩, []⟩)

/-- The routes of the library. -/
def routes : List (Route Record) := tree.sites.map (Site.route .root)

theorem router_tree : tree.router = .ok routes := Node.router_eq (by decide +kernel)

theorem keepsIdParams_tree : tree.KeepsIdParams := by
  unfold Node.KeepsIdParams Site.KeepsIdParams
  decide +kernel

/-- A route of the library with the pattern of albums is that of the albums. -/
theorem eq_albumSite {site : Site Record} (hsite : site ∈ tree.sites)
    (h : albumSite.route .root = site.route .root) : site = albumSite := by
  have hpattern : (site.route .root).pattern = "/artists/{artists_id}/albums/{albums_id}" := by
    rw [← h]
    rfl
  have hsites : tree.sites = [⟨[], tree, .collection⟩, ⟨[], tree, .item⟩, tagSite,
    ⟨[tree], albums, .collection⟩, albumSite] := rfl
  rw [hsites] at hsite
  simp only [List.mem_cons, List.not_mem_nil, or_false] at hsite
  rcases hsite with rfl | rfl | rfl | rfl | rfl
  · exact absurd hpattern (by decide +kernel)
  · exact absurd hpattern (by decide +kernel)
  · exact absurd hpattern (by decide +kernel)
  · exact absurd hpattern (by decide +kernel)
  · rfl

theorem admits_album (w : World Record) :
    (albumSite.route .root).Admits albumRequest albumTaken (Env.quiet "n") w := by
  refine Route.admits_of_open ?_ _ _ _ _
  simp [albumSite, Site.route, Node.chainLayers, Node.layersAbove, Node.plainLayers, Node.idLayers,
    Node.resolveLayer, Spot.layers, Layer.IsOpen, Node.service, tree, albums, Node.api, artistService,
    Service.idLayers, welcome, Node.frame]

end Library

open Library in
/-- The album of an artist who is not there: the artist is asked for once, although there are two guards, and
the answer is that there is none. If the artist is there, the request reaches the albums. -/
theorem ancestors_resolved_library :
    Router.EndsAt routes (albumSite.route .root) albumRequest (Env.quiet "n") World.initial artists .notFound
        [.store ["artists"] (.get "a 1")]
      ∧ ∃ i w₁, albumSite.Reaches routes albumRequest albumTaken (Env.quiet "n") (stocked "a 1") i w₁
        ∧ w₁.calls = [.store ["artists"] (.get "a 1")] := by
  have hlookup : Route.lookup (routes.map fun r => (r.pattern, r)) albumRequest.path
      = some (albumSite.route .root, albumTaken) := rfl
  have hutf8 : ∀ param ∈ albumTaken, (Percent.decode? param.2).isSome := by decide +kernel
  have hancestry : albumSite.ancestry = [⟨artists, 2⟩] := by cbv
  constructor
  · obtain ⟨site, hsite, hroute, hresolved, -⟩ :=
      ancestors_resolved router_tree keepsIdParams_tree hlookup (admits_album World.initial)
    obtain rfl := eq_albumSite hsite hroute
    have hlacks : albumSite.Lacks albumRequest.path (Env.quiet "n") World.initial 0 ⟨artists, 2⟩ .notFound :=
      ⟨by rw [hancestry]; rfl, by cbv, fun q b hq => absurd hq (Nat.not_lt_zero q)⟩
    have hcalls : (albumSite.ancestry.take 1).map (Ancestor.call albumRequest.path)
        = [.store ["artists"] (.get "a 1")] := by cbv
    rw [← hcalls]
    exact ((hresolved hutf8).2.1 _ _ _ hlacks).1
  · obtain ⟨site, hsite, hroute, hresolved, -⟩ :=
      ancestors_resolved router_tree keepsIdParams_tree hlookup (admits_album (stocked "a 1"))
    obtain rfl := eq_albumSite hsite hroute
    have hall : albumSite.HasAll albumRequest.path (Env.quiet "n") (stocked "a 1") := by
      intro p a ha
      rw [hancestry] at ha
      cases p with
      | zero =>
          cases ha
          exact ⟨⟨⟨"a 1", none⟩, []⟩, by cbv⟩
      | succ p => cases ha
    obtain ⟨i, w₁, hreaches⟩ := (hresolved hutf8).2.2 hall
    refine ⟨i, w₁, hreaches, ?_⟩
    rw [hreaches.calls, hancestry]
    cbv

open Library in
/-- A tag that is not UTF-8 hides the artist from the guards: no call is made and the answer is that there is
none, although the ID of the artist can be read from the path and the artist is there. -/
theorem undecodable_tag_hides_artist :
    tree.router = .ok routes ∧ tree.KeepsIdParams
      ∧ Route.lookup (routes.map fun r => (r.pattern, r)) tagRequest.path
        = some (tagSite.route .root, [("artists_id", "a"), ("tag", "%FF")])
      ∧ tagSite.ancestry = [⟨artists, 2⟩]
      ∧ (⟨artists, 2⟩ : Ancestor Record).id? tagRequest.path = some "a"
      ∧ (⟨artists, 2⟩ : Ancestor Record).loaded (Env.quiet "n") (stocked "a") tagRequest.path 0
        = .ok ⟨⟨"a", none⟩, []⟩
      ∧ (Router.answer routes tagRequest (Env.quiet "n") (stocked "a")).1.status = 404
      ∧ (Router.answer routes tagRequest (Env.quiet "n") (stocked "a")).2.log = [] :=
  ⟨router_tree, keepsIdParams_tree, rfl, by cbv, by cbv, by cbv, by cbv, by cbv⟩

end ResourceTree
