import ResourceTree.Proofs.LayerPassage

/-! # Loading on the way down

Guards and resolving layers ask for the resource of their collection. The first that asks loads it, and it stays
resolved for the others, so a request loads each collection once, in the order in which the layers first ask
(`Layer.toLoad`). `descend_loads` says which calls that makes, what is resolved on arrival, and at which
collection a request ends that is not let in for want of a resource. -/

namespace ResourceTree

variable {R : Type}

/-! ## What is called and found -/

/-- A call on a store. -/
def Event.isCall : Event → Bool
  | .store _ _ => true
  | _ => false

/-- The logged calls on stores. -/
def World.calls (w : World R) : List Event := w.log.filter Event.isCall

@[simp] theorem World.calls_called (w : World R) (node : NodeKey) (call : StoreCall) :
    (w.called node call).calls = w.calls ++ [.store node call] := by
  rw [World.calls, World.log_called, List.filter_append]
  rfl

/-- A logged event that is no call leaves the calls as they are. -/
theorem World.calls_log {w w' : World R} {e : Event} (he : e.isCall = false)
    (h : w'.log = w.log ++ [e]) : w'.calls = w.calls := by
  rw [World.calls, h, List.filter_append, List.filter_cons_of_neg (by simp [he]), List.filter_nil,
    List.append_nil]
  rfl

/-- A log that goes on without calls leaves the calls as they are. -/
theorem World.LogsOnly.calls_eq {P : Event → Prop} {w w' : World R} (h : w.LogsOnly P w')
    (hP : ∀ e, P e → e.isCall = false) : w'.calls = w.calls := by
  obtain ⟨events, hlog, hall⟩ := h
  have hnone : events.filter Event.isCall = [] :=
    List.filter_eq_nil_iff.mpr fun e he => by simp [hP e (hall e he)]
  rw [World.calls, hlog, List.filter_append, hnone, List.append_nil]
  rfl

/-- The call that loads the resource of a collection whose ID is among the path parameters. -/
def Collection.loading (params : List (String × String)) (c : Collection R) : Event :=
  .store c.node (.get ((Form.lookup params (idParam c.name)).getD ""))

/-- Loading the resource of a collection gives this resource, as the storage call with number `p` from here. -/
def Collection.Loads (env : Env) (w : World R) (params : List (String × String)) (p : Nat)
    (c : Collection R) (r : R) : Prop :=
  ∃ id, Form.lookup params (idParam c.name) = some id
    ∧ Action.found env { w with storeCalls := w.storeCalls + p } c.node id = .ok r

/-- Loading the resource of a collection fails with this error: there is no ID for it, or the storage call with
number `p` from here fails. -/
def Collection.Misses (env : Env) (w : World R) (params : List (String × String)) (p : Nat)
    (c : Collection R) (e : ApiError) : Prop :=
  (Form.lookup params (idParam c.name) = none ∧ e = .notFound)
    ∨ ∃ id err, Form.lookup params (idParam c.name) = some id
      ∧ Action.found env { w with storeCalls := w.storeCalls + p } c.node id = .error err
      ∧ e = .ofStorage err

/-- What is resolved of a collection is of its kind. -/
def Inflight.Fits (i : Inflight R) (c : Collection R) : Prop :=
  ∀ entry, i.resolved.get? c.name = some entry → entry.kind = c.kind.name

namespace Collection

variable {c : Collection R} {i : Inflight R} {env : Env} {w w' : World R}
  {params : List (String × String)} {p q : Nat}

/-- What a collection loads depends on the stores and on how many calls were made before. -/
theorem Loads.congr {r : R} (h : c.Loads env w params p r) (hstores : w.stores = w'.stores)
    (hcalls : w.storeCalls + p = w'.storeCalls + q) : c.Loads env w' params q r := by
  obtain ⟨id, hid, hfound⟩ := h
  refine ⟨id, hid, ?_⟩
  rw [← hfound, Action.found, Action.found]
  simp only [hstores, hcalls]

theorem Misses.congr {e : ApiError} (h : c.Misses env w params p e) (hstores : w.stores = w'.stores)
    (hcalls : w.storeCalls + p = w'.storeCalls + q) : c.Misses env w' params q e := by
  rcases h with h | ⟨id, err, hid, hfound, he⟩
  · exact Or.inl h
  · refine Or.inr ⟨id, err, hid, ?_, he⟩
    rw [← hfound, Action.found, Action.found]
    simp only [hstores, hcalls]

/-- A resolved resource is found at once. -/
theorem requested_of_resolved {r : R} (h : i.resolved.get? c.name = some ⟨c.kind.name, r⟩) :
    c.requested i.context env w = (.ok r, w) := by
  have hresource : i.context.resource? c.kind.name c.name = some r := by
    simp [Context.resource?, Inflight.context, Context.ofRequest, h]
  rw [requested_apply, hresource]

/-- A resource that is not resolved is loaded with the ID of the path. -/
theorem requested_of_not_resolved (h : i.resolved.get? c.name = none) :
    c.requested i.context env w = match Form.lookup i.params (idParam c.name) with
      | none => (.error (.api .notFound), w)
      | some id => ((Action.found env w c.node id).mapError (.api ∘ .ofStorage),
          w.called c.node (.get id)) := by
  have hresource : i.context.resource? c.kind.name c.name = none := by
    simp [Context.resource?, Inflight.context, Context.ofRequest, h]
  rw [requested_apply, hresource]
  rfl

/-- **Asking for a resource** that is not resolved either loads it with one call, or fails. -/
theorem requested_loads (h : i.resolved.get? c.name = none) {outcome : Except Failure R}
    (hx : c.requested i.context env w = (outcome, w')) :
    (∃ r, outcome = .ok r ∧ c.Loads env w i.params 0 r
        ∧ w' = w.called c.node (.get ((Form.lookup i.params (idParam c.name)).getD "")))
      ∨ ∃ e, outcome = .error (.api e) ∧ c.Misses env w i.params 0 e
        ∧ w'.calls = w.calls
          ++ if (Form.lookup i.params (idParam c.name)).isSome then [c.loading i.params] else [] := by
  rw [requested_of_not_resolved h] at hx
  cases hid : Form.lookup i.params (idParam c.name) with
  | none =>
      rw [hid] at hx
      cases hx
      exact Or.inr ⟨.notFound, rfl, Or.inl ⟨hid, rfl⟩, by simp⟩
  | some id =>
      simp only [hid, Prod.mk.injEq] at hx
      obtain ⟨rfl, rfl⟩ := hx
      cases hfound : Action.found env w c.node id with
      | ok r => exact Or.inl ⟨r, rfl, ⟨id, hid, hfound⟩, rfl⟩
      | error err =>
          refine Or.inr ⟨.ofStorage err, rfl, Or.inr ⟨id, err, hid, hfound, rfl⟩, ?_⟩
          rw [World.calls_called, loading, hid]
          rfl

end Collection

namespace Layer

/-- The collection whose resource a layer asks for. -/
def loader? : Layer R → Option (Collection R)
  | .plain _ _ => none
  | .guard c _ | .resolve c => some c

/-- The collections that layers load, the first to ask first, if those of some names are resolved already. -/
def toLoad (seen : List String) : List (Layer R) → List (Collection R)
  | [] => []
  | layer :: layers =>
    match layer.loader? with
    | none => toLoad seen layers
    | some c => if c.name ∈ seen then toLoad seen layers else c :: toLoad (c.name :: seen) layers

variable {layer : Layer R} {i : Inflight R} {env : Env} {w w' : World R} {entry : Entry R}

/-- **What a middleware does** to a request and the world: nothing that loading depends on. -/
theorem enter_of_plain (hl : layer.loader? = none) (h : layer.enter i env w = (.ok entry, w')) :
    w'.stores = w.stores ∧ w'.storeCalls = w.storeCalls ∧ w'.calls = w.calls
      ∧ ((∃ response, entry = .stopped (.answered response))
        ∨ ∃ request, entry = .passed { i with request := request }) := by
  cases layer with
  | guard c g => cases hl
  | resolve c => cases hl
  | plain node m =>
      rw [enter, Action.bind_of_ok (Action.emit_apply _ env w)] at h
      cases hm : m.enter i.request with
      | error response =>
          rw [hm] at h
          cases h
          exact ⟨rfl, rfl, World.calls_log rfl rfl, Or.inl ⟨response, rfl⟩⟩
      | ok request =>
          rw [hm] at h
          cases h
          exact ⟨rfl, rfl, World.calls_log rfl rfl, Or.inr ⟨request, rfl⟩⟩

/-- **What a guard or a resolving layer does** to a request and the world: it asks for the resource, and if there
is one the request goes on with it resolved, unless a guard refuses it. -/
theorem enter_of_loader {c : Collection R} (hl : layer.loader? = some c) (hfits : i.Fits c)
    (h : layer.enter i env w = (.ok entry, w')) :
    (∃ e, c.requested i.context env w = (.error (.api e), w') ∧ entry = .stopped (.missing c e))
      ∨ ∃ r w₁, c.requested i.context env w = (.ok r, w₁)
        ∧ w'.stores = w₁.stores ∧ w'.storeCalls = w₁.storeCalls ∧ w'.calls = w₁.calls
        ∧ ((∃ e, entry = .stopped (.refused e))
          ∨ ∃ i', entry = .passed i' ∧ i'.params = i.params ∧ ∀ name,
            i'.resolved.get? name
              = if c.name = name then some ⟨c.kind.name, r⟩ else i.resolved.get? name) := by
  have hresolve (r : R) (name : String) : (i.resolve c r).resolved.get? name
      = if c.name = name then some ⟨c.kind.name, r⟩ else i.resolved.get? name := Fields.get?_put ..
  have htime := (c.harmless_requested (P := fun _ => True) (fun _ => trivial) i.context).inTime env w
  cases layer with
  | plain node m => cases hl
  | guard c' g =>
      cases hl
      rcases hx : c.requested i.context env w with ⟨(e | _) | r, w₁⟩
      · rw [enter, Action.bind_of_ok (Action.attempt_of_error hx)] at h
        cases h
        exact Or.inl ⟨e, rfl, rfl⟩
      · rw [hx] at htime
        exact absurd rfl htime
      · rw [enter, Action.bind_of_ok (Action.attempt_of_ok hx)] at h
        simp only [Action.bind_of_ok (Action.emit_apply _ env w₁)] at h
        cases hg : g.check i.context r with
        | error e =>
            rw [hg] at h
            cases h
            exact Or.inr ⟨r, w₁, rfl, rfl, rfl, World.calls_log rfl rfl, Or.inl ⟨e, rfl⟩⟩
        | ok u =>
            rw [hg] at h
            cases h
            exact Or.inr ⟨r, w₁, rfl, rfl, rfl, World.calls_log rfl rfl,
              Or.inr ⟨_, rfl, rfl, hresolve r⟩⟩
  | resolve c' =>
      cases hl
      cases hold : i.resolved.get? c.name with
      | some found =>
          obtain ⟨kind, r⟩ := found
          -- what is resolved under the name is a resource of the collection, so the layer finds it
          have hkind : kind = c.kind.name := hfits _ hold
          subst hkind
          have hcontains : i.context.contains c.name = true := by
            simp [Context.contains, Inflight.context, Context.ofRequest, hold]
          rw [enter, if_pos hcontains] at h
          cases h
          refine Or.inr ⟨r, w, Collection.requested_of_resolved hold, rfl, rfl, rfl,
            Or.inr ⟨i, rfl, rfl, fun name => ?_⟩⟩
          split
          · next heq => rw [← heq, hold]
          · rfl
      | none =>
          have hcontains : ¬i.context.contains c.name = true := by
            simp [Context.contains, Inflight.context, Context.ofRequest, hold]
          rw [enter, if_neg hcontains] at h
          rcases hx : c.requested i.context env w with ⟨(e | _) | r, w₁⟩
          · rw [Action.bind_of_ok (Action.attempt_of_error hx)] at h
            cases h
            exact Or.inl ⟨e, rfl, rfl⟩
          · rw [hx] at htime
            exact absurd rfl htime
          · rw [Action.bind_of_ok (Action.attempt_of_ok hx)] at h
            cases h
            exact Or.inr ⟨r, _, rfl, rfl, rfl, rfl, Or.inr ⟨_, rfl, rfl, hresolve r⟩⟩

/-! ## The whole way down -/

/-- **A request has arrived** and these collections were loaded on the way: one call each, in order, and each
is resolved to what its call gave. -/
structure Arrival (env : Env) (w : World R) (i : Inflight R) (cs : List (Collection R)) (i' : Inflight R)
    (w' : World R) : Prop where
  calls : w'.calls = w.calls ++ cs.map (Collection.loading i.params)
  loads : ∀ (p : Nat) (c : Collection R), cs[p]? = some c → ∃ r, c.Loads env w i.params p r
    ∧ i'.resolved.get? c.name = some ⟨c.kind.name, r⟩
  keeps : ∀ name, (∀ c ∈ cs, c.name ≠ name) → i'.resolved.get? name = i.resolved.get? name

/-- **A request has ended at a collection** whose resource could not be loaded: those before it were loaded, and
no others were asked for. -/
structure Absence (env : Env) (w : World R) (i : Inflight R) (cs : List (Collection R)) (c : Collection R)
    (e : ApiError) (w' : World R) : Prop where
  absent : ∃ before after, cs = before ++ c :: after
    ∧ (∀ (p : Nat) (b : Collection R), before[p]? = some b → ∃ r, b.Loads env w i.params p r)
    ∧ c.Misses env w i.params before.length e
    ∧ w'.calls = w.calls ++ (before.map (Collection.loading i.params)
      ++ if (Form.lookup i.params (idParam c.name)).isSome then [c.loading i.params] else [])

/-- How a request that was not refused has fared on its way in. -/
def Fared (env : Env) (w : World R) (i : Inflight R) (cs : List (Collection R)) (w' : World R) :
    Descent R → Prop
  | .arrived i' => Arrival env w i cs i' w'
  | .stopped _ (.missing c e) => Absence env w i cs c e w'
  | .stopped _ _ => True

/-- One more layer outside changes nothing. -/
theorem Fared.behind {cs : List (Collection R)} {d : Descent R} (layer : Layer R)
    (h : Fared env w i cs w' d) : Fared env w i cs w' (d.behind layer) := by
  cases d with
  | arrived i' => exact h
  | stopped outer s => cases s <;> exact h

/-- A request has fared the same if nothing was loaded and resolved before. -/
theorem Fared.after_nothing {cs : List (Collection R)} {d : Descent R} {i₁ : Inflight R} {w₁ : World R}
    (h : Fared env w₁ i₁ cs w' d) (hstores : w₁.stores = w.stores) (hcount : w₁.storeCalls = w.storeCalls)
    (hcalls : w₁.calls = w.calls) (hparams : i₁.params = i.params)
    (hresolved : ∀ name, i₁.resolved.get? name = i.resolved.get? name) : Fared env w i cs w' d := by
  -- no call was made, so all calls from here have the numbers they would have had before
  have hnext (p : Nat) : w₁.storeCalls + p = w.storeCalls + p := by rw [hcount]
  cases d with
  | arrived i' =>
      obtain ⟨hlog, hloads, hkeeps⟩ := h
      rw [hcalls, hparams] at hlog
      rw [hparams] at hloads
      refine ⟨hlog, fun p c hc => ?_, fun name hname => (hkeeps name hname).trans (hresolved name)⟩
      obtain ⟨r, hr, hresolved⟩ := hloads p c hc
      exact ⟨r, hr.congr hstores (hnext p), hresolved⟩
  | stopped outer s =>
      cases s with
      | answered response => trivial
      | refused e => trivial
      | missing c e =>
          obtain ⟨before, after, hcs, hloads, hmisses, hlog⟩ := h
          rw [hcalls, hparams] at hlog
          rw [hparams] at hloads hmisses
          refine ⟨before, after, hcs, fun p b hb => ?_, hmisses.congr hstores (hnext _), hlog⟩
          obtain ⟨r, hr⟩ := hloads p b hb
          exact ⟨r, hr.congr hstores (hnext p)⟩

/-- A request has fared alike, one place further on, if one collection was loaded before. -/
theorem Fared.after_load {cs : List (Collection R)} {d : Descent R} {i₁ : Inflight R} {w₁ : World R}
    {c : Collection R} {r : R} (h : Fared env w₁ i₁ cs w' d) (hload : c.Loads env w i.params 0 r)
    (hstores : w₁.stores = w.stores) (hcount : w₁.storeCalls = w.storeCalls + 1)
    (hcalls : w₁.calls = w.calls ++ [c.loading i.params]) (hparams : i₁.params = i.params)
    (hresolved : ∀ name, i₁.resolved.get? name
      = if c.name = name then some ⟨c.kind.name, r⟩ else i.resolved.get? name)
    (hnew : ∀ c' ∈ cs, c'.name ≠ c.name) : Fared env w i (c :: cs) w' d := by
  -- one call was made, so all calls from here have numbers one less than before
  have hnext (p : Nat) : w₁.storeCalls + p = w.storeCalls + (p + 1) := by omega
  cases d with
  | arrived i' =>
      obtain ⟨hlog, hloads, hkeeps⟩ := h
      rw [hcalls, hparams] at hlog
      rw [hparams] at hloads
      refine ⟨?_, fun p c' hc' => ?_, fun name hname => ?_⟩
      · rw [hlog, List.map_cons, List.append_assoc, List.singleton_append]
      · cases p with
        | zero =>
            cases hc'
            refine ⟨r, hload, ?_⟩
            rw [hkeeps c.name hnew, hresolved, if_pos rfl]
        | succ p =>
            obtain ⟨r', hr', hresolved'⟩ := hloads p c' hc'
            exact ⟨r', hr'.congr hstores (hnext p), hresolved'⟩
      · rw [hkeeps name fun c' hc' => hname c' (List.mem_cons_of_mem c hc'), hresolved,
          if_neg (hname c List.mem_cons_self)]
  | stopped outer s =>
      cases s with
      | answered response => trivial
      | refused e => trivial
      | missing c' e =>
          obtain ⟨before, after, hcs, hloads, hmisses, hlog⟩ := h
          rw [hcalls, hparams] at hlog
          rw [hparams] at hloads hmisses
          refine ⟨c :: before, after, by rw [hcs, List.cons_append], fun p b hb => ?_,
            hmisses.congr hstores (hnext _), ?_⟩
          · cases p with
            | zero =>
                cases hb
                exact ⟨r, hload⟩
            | succ p =>
                obtain ⟨r', hr'⟩ := hloads p b hb
                exact ⟨r', hr'.congr hstores (hnext p)⟩
          · rw [hlog, List.map_cons, List.append_assoc, List.singleton_append, List.cons_append]

/-- Layers agree on their collections: of one name there is only one. -/
def Agree (layers : List (Layer R)) : Prop :=
  ∀ l ∈ layers, ∀ l' ∈ layers, ∀ c c', l.loader? = some c → l'.loader? = some c' → c.name = c'.name → c = c'

/-- Only layers decide what is loaded, and nothing is that is resolved already. -/
theorem mem_toLoad {layers : List (Layer R)} {seen : List String} {c : Collection R}
    (h : c ∈ toLoad seen layers) : c.name ∉ seen ∧ ∃ l ∈ layers, l.loader? = some c := by
  induction layers generalizing seen with
  | nil => cases h
  | cons layer layers ih =>
      have hstep {seen : List String} (h : c ∈ toLoad seen layers) :
          c.name ∉ seen ∧ ∃ l ∈ layer :: layers, l.loader? = some c := by
        obtain ⟨hnew, l, hl, hc⟩ := ih h
        exact ⟨hnew, l, List.mem_cons_of_mem layer hl, hc⟩
      cases hl : layer.loader? with
      | none =>
          simp only [toLoad, hl] at h
          exact hstep h
      | some c' =>
          simp only [toLoad, hl] at h
          split at h
          · exact hstep h
          · next hnew =>
              rcases List.mem_cons.mp h with rfl | h
              · exact ⟨hnew, layer, List.mem_cons_self, hl⟩
              · obtain ⟨hnotin, hmem⟩ := hstep h
                exact ⟨fun hin => hnotin (List.mem_cons_of_mem _ hin), hmem⟩

/-- **A request is ready for layers**: the names are those of what it has resolved, each of these is of the kind
that the layers take it for, and the layers agree. -/
structure Ready (seen : List String) (layers : List (Layer R)) (i : Inflight R) : Prop where
  seen_iff : ∀ name, name ∈ seen ↔ (i.resolved.get? name).isSome
  fits : ∀ l ∈ layers, ∀ c, l.loader? = some c → i.Fits c
  agree : Agree layers

namespace Ready

variable {seen : List String} {layers : List (Layer R)} {i' : Inflight R} {c : Collection R} {r : R}

/-- What is resolved remains so, and the request is ready for the layers further in. -/
theorem same (h : Ready seen (layer :: layers) i)
    (hsame : ∀ name, i'.resolved.get? name = i.resolved.get? name) : Ready seen layers i' where
  seen_iff name := by rw [h.seen_iff, hsame]
  fits l hl c hc entry he := h.fits l (List.mem_cons_of_mem layer hl) c hc entry (by rw [← hsame, he])
  agree l hl l' hl' := h.agree l (List.mem_cons_of_mem layer hl) l' (List.mem_cons_of_mem layer hl')

/-- One more resource is resolved, and the request is ready for the layers further in. -/
theorem loaded (h : Ready seen (layer :: layers) i) (hl : layer.loader? = some c)
    (hresolved : ∀ name, i'.resolved.get? name
      = if c.name = name then some ⟨c.kind.name, r⟩ else i.resolved.get? name) :
    Ready (c.name :: seen) layers i' where
  seen_iff name := by
    rw [List.mem_cons, hresolved, h.seen_iff]
    by_cases heq : c.name = name
    · simp [heq]
    · simp [heq, Ne.symm heq]
  fits l hl' c' hc' entry he := by
    rw [hresolved] at he
    by_cases heq : c.name = c'.name
    · -- the layers agree, so it is the resource that was just resolved
      have hsame : c = c' :=
        h.agree layer List.mem_cons_self l (List.mem_cons_of_mem layer hl') c c' hl hc' heq
      rw [if_pos heq] at he
      cases he
      rw [hsame]
    · rw [if_neg heq] at he
      exact h.fits l (List.mem_cons_of_mem layer hl') c' hc' entry he
  agree l hl l' hl' := h.agree l (List.mem_cons_of_mem layer hl) l' (List.mem_cons_of_mem layer hl')

end Ready

/-- **One layer on the way in**: the request is stopped and has fared as it should, or it is ready for the layers
further in, and however it fares there it has fared from here. -/
inductive Onward (env : Env) (w : World R) (i : Inflight R) (seen : List String) (layer : Layer R)
    (layers : List (Layer R)) : Entry R → World R → Prop where
  | stopped {s : Stop R} {w₁ : World R} (fared : Fared env w i (toLoad seen (layer :: layers)) w₁ (.stopped [] s)) :
      Onward env w i seen layer layers (.stopped s) w₁
  | passed {i₁ : Inflight R} {w₁ : World R} (seen' : List String) (ready : Ready seen' layers i₁)
      (fared : ∀ d w', Fared env w₁ i₁ (toLoad seen' layers) w' d
        → Fared env w i (toLoad seen (layer :: layers)) w' d) :
      Onward env w i seen layer layers (.passed i₁) w₁

section Step

variable {seen : List String} {layers : List (Layer R)} {w₁ : World R} {c : Collection R}

/-- A middleware loads nothing. -/
theorem onward_of_plain (h : Ready seen (layer :: layers) i) (hl : layer.loader? = none)
    (henter : layer.enter i env w = (.ok entry, w₁)) : Onward env w i seen layer layers entry w₁ := by
  obtain ⟨hstores, hcount, hcalls, hentry⟩ := enter_of_plain hl henter
  rcases hentry with ⟨response, rfl⟩ | ⟨request, rfl⟩
  · exact .stopped trivial
  · refine .passed seen (h.same fun _ => rfl) fun d w' hfared => ?_
    simp only [toLoad, hl]
    exact hfared.after_nothing hstores hcount hcalls rfl fun _ => rfl

/-- A layer that asks for a resolved resource loads nothing either. -/
theorem onward_of_seen (h : Ready seen (layer :: layers) i) (hl : layer.loader? = some c)
    (hin : c.name ∈ seen) (henter : layer.enter i env w = (.ok entry, w₁)) :
    Onward env w i seen layer layers entry w₁ := by
  have hfits : i.Fits c := h.fits layer List.mem_cons_self c hl
  obtain ⟨⟨kind, old⟩, hold⟩ := Option.isSome_iff_exists.mp ((h.seen_iff c.name).mp hin)
  obtain rfl : kind = c.kind.name := hfits _ hold
  -- the resource is found at once, without a call
  have hfound : c.requested i.context env w = (.ok old, w) := Collection.requested_of_resolved hold
  rcases enter_of_loader hl hfits henter with ⟨e, hreq, rfl⟩ | ⟨r, w₀, hreq, hstores, hcount, hcalls, hentry⟩
  · cases hfound.symm.trans hreq
  · cases hfound.symm.trans hreq
    rcases hentry with ⟨e, rfl⟩ | ⟨i₁, rfl, hparams, hresolved⟩
    · exact .stopped trivial
    · -- resolving it once more puts in its place what is there
      have hsame (name : String) : i₁.resolved.get? name = i.resolved.get? name := by
        rw [hresolved]
        by_cases heq : c.name = name
        · rw [if_pos heq, ← heq, hold]
        · rw [if_neg heq]
      refine .passed seen (h.same hsame) fun d w' hfared => ?_
      simp only [toLoad, hl, if_pos hin]
      exact hfared.after_nothing hstores hcount hcalls hparams hsame

/-- A layer that is the first to ask for a resource loads it. -/
theorem onward_of_new (h : Ready seen (layer :: layers) i) (hl : layer.loader? = some c)
    (hnew : c.name ∉ seen) (henter : layer.enter i env w = (.ok entry, w₁)) :
    Onward env w i seen layer layers entry w₁ := by
  have hnone : i.resolved.get? c.name = none := by
    rw [← Option.not_isSome_iff_eq_none, ← h.seen_iff]
    exact hnew
  have hload : toLoad seen (layer :: layers) = c :: toLoad (c.name :: seen) layers := by
    simp only [toLoad, hl, if_neg hnew]
  rcases enter_of_loader hl (h.fits layer List.mem_cons_self c hl) henter with
    ⟨e, hreq, rfl⟩ | ⟨r, w₀, hreq, hstores, hcount, hcalls, hentry⟩
  · rcases Collection.requested_loads hnone hreq with ⟨r, hok, -⟩ | ⟨e', herr, hmisses, hlog⟩
    · cases hok
    · cases herr
      refine .stopped ?_
      rw [hload]
      exact ⟨[], _, rfl, fun p b hb => by simp at hb, hmisses, hlog⟩
  · rcases Collection.requested_loads hnone hreq with ⟨r', hok, hloads, rfl⟩ | ⟨e', herr, -⟩
    · cases hok
      rcases hentry with ⟨e, rfl⟩ | ⟨i₁, rfl, hparams, hresolved⟩
      · exact .stopped trivial
      · refine .passed (c.name :: seen) (h.loaded hl hresolved) fun d w' hfared => ?_
        rw [hload]
        refine hfared.after_load hloads hstores hcount ?_ hparams hresolved fun c' hc' heq => ?_
        · rw [hcalls, World.calls_called]
          rfl
        · exact (mem_toLoad hc').1 (heq ▸ List.mem_cons_self)
    · cases herr

/-- **What one layer loads.** -/
theorem enter_onward (h : Ready seen (layer :: layers) i) (henter : layer.enter i env w = (.ok entry, w₁)) :
    Onward env w i seen layer layers entry w₁ := by
  cases hl : layer.loader? with
  | none => exact onward_of_plain h hl henter
  | some c =>
      by_cases hin : c.name ∈ seen
      · exact onward_of_seen h hl hin henter
      · exact onward_of_new h hl hin henter

end Step

/-- **What is loaded on the way in**, by induction on the layers. -/
theorem descend_loads {layers : List (Layer R)} {seen : List String} (hready : Ready seen layers i)
    {d : Descent R} (h : descend layers i env w = (.ok d, w')) :
    Fared env w i (toLoad seen layers) w' d := by
  induction layers generalizing i seen w d with
  | nil =>
      cases h
      exact ⟨by simp [toLoad], by simp [toLoad], fun _ _ => rfl⟩
  | cons layer layers ih =>
      obtain ⟨entry, w₁, henter, hrest⟩ := Action.bind_eq_ok.mp h
      cases enter_onward hready henter with
      | stopped hfared =>
          cases hrest
          exact hfared
      | passed seen' hready' hfared =>
          obtain ⟨d', w₂, hdescend, hbehind⟩ := Action.bind_eq_ok.mp hrest
          cases hbehind
          exact (hfared d' _ (ih hready' hdescend)).behind layer

end Layer

end ResourceTree
