import ResourceTree.Proofs.Reading

/-! # The passage through the layers of a route

A request passes the layers around a route from the outside in, and its answer passes them on the way out.
`Layer.through` interleaves the two with what lies inside. Here they are taken apart: `Layer.descend` is the
way in, which arrives or is stopped at a layer, `Layer.ascend` the way out, and `through_eq` says that passing
through is the one, then what lies inside, then the other. Both ways are harmless. -/

namespace ResourceTree

variable {R : Type}

/-- Events of the layers around a route. -/
def Event.Passing (node : NodeKey) : Event → Prop
  | .store node' (.get _) | .guard node' _ _ | .enter node' _ | .leave node' _ _ => node' = node
  | _ => False

/-- Events of an answer on its way out. -/
def Event.Leaving (node : NodeKey) : Event → Prop
  | .leave node' _ _ => node' = node
  | _ => False

theorem Event.Leaving.passing {node : NodeKey} {e : Event} (h : e.Leaving node) : e.Passing node := by
  cases e with
  | leave node' tag status => exact h
  | _ => exact False.elim h

namespace Layer

/-! ## One layer -/

/-- The API that a layer belongs to. -/
def node : Layer R → NodeKey
  | .plain node _ => node
  | .guard c _ | .resolve c => c.node

/-- Why a layer does not let a request in. -/
inductive Stop (R : Type) where
  /-- A middleware answers it. -/
  | answered (response : Response)
  /-- A guard refuses it. -/
  | refused (e : ApiError)
  /-- The resource that it asks for is not found in a collection. -/
  | missing (c : Collection R) (e : ApiError)

namespace Stop

/-- The answer to a request that a layer does not let in. -/
def response : Stop R → Response
  | .answered response => response
  | .refused e | .missing _ e => .error e

/-- A middleware or a guard has stopped the request. -/
def IsRefusal : Stop R → Prop
  | .missing _ _ => False
  | _ => True

end Stop

/-- What becomes of a request at a layer. -/
inductive Entry (R : Type) where
  | passed (i : Inflight R)
  | stopped (s : Stop R)

/-- The way in through a layer. -/
def enter (i : Inflight R) : Layer R → Action R (Entry R)
  | .plain node m => do
    Action.emit (.enter node m.tag)
    match m.enter i.request with
    | .error response => pure (.stopped (.answered response))
    | .ok request => pure (.passed { i with request := request })
  | .guard c g => do
    match ← (c.requested i.context).attempt with
    | .error e => pure (.stopped (.missing c e))
    | .ok r => do
      Action.emit (.guard c.node g.tag (c.kind.id r))
      match g.check i.context r with
      | .error e => pure (.stopped (.refused e))
      | .ok () => pure (.passed (i.resolve c r))
  | .resolve c =>
    if i.context.contains c.name then pure (.passed i)
    else do
      match ← (c.requested i.context).attempt with
      | .error e => pure (.stopped (.missing c e))
      | .ok r => pure (.passed (i.resolve c r))

/-- The way out through a layer. -/
def leave (response : Response) : Layer R → Action R Response
  | .plain node m => do
    Action.emit (.leave node m.tag (m.leave response).status)
    pure (m.leave response)
  | _ => pure response

/-- What is around is the way in, what lies inside, and the way out. -/
theorem around_eq (next : Inflight R → Action R Response) (i : Inflight R) (layer : Layer R) :
    layer.around next i = (do
      match ← layer.enter i with
      | .passed i => next i >>= fun response => layer.leave response
      | .stopped s => pure s.response) := by
  cases layer with
  | plain node m =>
      rw [around, enter, bind_assoc]
      refine bind_congr fun _ => ?_
      cases m.enter i.request with
      | error response => rfl
      | ok request => rfl
  | guard c g =>
      rw [around, enter, bind_assoc]
      refine bind_congr fun outcome => ?_
      cases outcome with
      | error e => rfl
      | ok r =>
          simp only [bind_assoc]
          refine bind_congr fun _ => ?_
          cases g.check i.context r with
          | error e => rfl
          | ok u =>
              simp only [pure_bind, leave, bind_pure]
  | resolve c =>
      rw [around, enter]
      by_cases h : i.context.contains c.name = true
      · simp only [if_pos h, pure_bind, leave, bind_pure]
      · rw [if_neg h, if_neg h, bind_assoc]
        refine bind_congr fun outcome => ?_
        cases outcome with
        | error e => rfl
        | ok r => simp only [pure_bind, leave, bind_pure]

/-- The way in through a layer is harmless. -/
theorem enter_harmless (i : Inflight R) (layer : Layer R) :
    (layer.enter i).Harmless (Event.Passing layer.node) := by
  cases layer with
  | plain node m =>
      refine (Action.Harmless.emit ?_).bind fun _ => ?_
      · rfl
      · cases m.enter i.request with
        | error response => exact Action.Harmless.pure _
        | ok request => exact Action.Harmless.pure _
  | guard c g =>
      refine (c.harmless_requested (fun _ => rfl) i.context).attempt.bind fun outcome => ?_
      cases outcome with
      | error e => exact Action.Harmless.pure _
      | ok r =>
          refine (Action.Harmless.emit ?_).bind fun _ => ?_
          · rfl
          · cases g.check i.context r with
            | error e => exact Action.Harmless.pure _
            | ok u => exact Action.Harmless.pure _
  | resolve c =>
      rw [enter]
      split
      · exact Action.Harmless.pure _
      · refine (c.harmless_requested (fun _ => rfl) i.context).attempt.bind fun outcome => ?_
        cases outcome with
        | error e => exact Action.Harmless.pure _
        | ok r => exact Action.Harmless.pure _

/-- A layer lets a request in or stops it; there is no third way. -/
theorem enter_apply (i : Inflight R) (layer : Layer R) (env : Env) (w : World R) :
    ∃ entry w', layer.enter i env w = (.ok entry, w') := by
  cases layer with
  | plain node m =>
      rw [enter, Action.bind_of_ok (Action.emit_apply _ env w)]
      cases m.enter i.request with
      | error response => exact ⟨_, _, rfl⟩
      | ok request => exact ⟨_, _, rfl⟩
  | guard c g =>
      obtain ⟨outcome, w₁, hx⟩ :=
        (c.harmless_requested (fun _ => trivial) i.context : Action.Harmless (fun _ => True) _).attempts env w
      rw [enter, Action.bind_of_ok hx]
      cases outcome with
      | error e => exact ⟨_, _, rfl⟩
      | ok r =>
          simp only [Action.bind_of_ok (Action.emit_apply _ env w₁)]
          cases g.check i.context r with
          | error e => exact ⟨_, _, rfl⟩
          | ok u => exact ⟨_, _, rfl⟩
  | resolve c =>
      rw [enter]
      split
      · exact ⟨_, _, rfl⟩
      · obtain ⟨outcome, w₁, hx⟩ :=
          (c.harmless_requested (fun _ => trivial) i.context : Action.Harmless (fun _ => True) _).attempts env w
        rw [Action.bind_of_ok hx]
        cases outcome with
        | error e => exact ⟨_, _, rfl⟩
        | ok r => exact ⟨_, _, rfl⟩

/-- The way out through a layer is harmless. -/
theorem leave_harmless (response : Response) (layer : Layer R) :
    (layer.leave response).Harmless (Event.Leaving layer.node) := by
  cases layer with
  | plain node m =>
      refine (Action.Harmless.emit ?_).bind fun _ => Action.Harmless.pure _
      rfl
  | guard c g => exact Action.Harmless.pure response
  | resolve c => exact Action.Harmless.pure response

/-! ## All layers -/

/-- What becomes of a request on its way in. -/
inductive Descent (R : Type) where
  /-- It has passed all layers. -/
  | arrived (i : Inflight R)
  /-- It has passed the outer layers and was stopped at the next one. -/
  | stopped (outer : List (Layer R)) (s : Stop R)

/-- What becomes of a request behind one more layer. -/
def Descent.behind (layer : Layer R) : Descent R → Descent R
  | .arrived i => .arrived i
  | .stopped outer s => .stopped (layer :: outer) s

/-- The way in, through the layers from the outside. -/
def descend : List (Layer R) → Inflight R → Action R (Descent R)
  | [], i => pure (.arrived i)
  | layer :: layers, i => do
    match ← layer.enter i with
    | .passed i => do
      let d ← descend layers i
      pure (d.behind layer)
    | .stopped s => pure (.stopped [] s)

/-- The way out, through the layers from the inside. -/
def ascend : List (Layer R) → Response → Action R Response
  | [], response => pure response
  | layer :: layers, response => ascend layers response >>= fun response => layer.leave response

/-- What the layers make of an answer on its way out. -/
def left : List (Layer R) → Response → Response
  | [], response => response
  | .plain _ m :: layers, response => m.leave (left layers response)
  | _ :: layers, response => left layers response

/-- **Passing through the layers** is the way in, then what lies inside if the request arrives there, and the
way out through the layers that it has passed. -/
theorem through_eq (next : Inflight R → Action R Response) (layers : List (Layer R)) (i : Inflight R) :
    through next layers i = (do
      match ← descend layers i with
      | .arrived i => next i >>= fun response => ascend layers response
      | .stopped outer s => ascend outer s.response) := by
  induction layers generalizing i with
  | nil => simp only [through, descend, ascend, pure_bind, bind_pure]
  | cons layer layers ih =>
      -- the layer is taken apart, and the rest of the way by induction
      rw [through, around_eq, descend, bind_assoc]
      refine bind_congr fun entry => ?_
      cases entry with
      | stopped s => rfl
      | passed i =>
          simp only [ih, bind_assoc]
          refine bind_congr fun d => ?_
          cases d with
          | arrived i => simp only [bind_assoc, pure_bind, Descent.behind, ascend]
          | stopped outer s => rfl

variable {P : Event → Prop}

/-- **The way in is harmless.** -/
theorem descend_harmless (layers : List (Layer R))
    (h : ∀ layer ∈ layers, ∀ e, Event.Passing layer.node e → P e) (i : Inflight R) :
    (descend layers i).Harmless P := by
  induction layers generalizing i with
  | nil => exact Action.Harmless.pure _
  | cons layer layers ih =>
      refine ((layer.enter_harmless i).mono (h layer List.mem_cons_self)).bind fun entry => ?_
      cases entry with
      | stopped s => exact Action.Harmless.pure _
      | passed i =>
          exact (ih (fun l hl => h l (List.mem_cons_of_mem layer hl)) i).bind fun d =>
            Action.Harmless.pure _

/-- The way in through a layer changes no store. -/
theorem enter_stores {layer : Layer R} {i : Inflight R} {outcome : Except Failure (Entry R)} {env : Env}
    {w w' : World R} (h : layer.enter i env w = (outcome, w')) : w'.stores = w.stores := by
  have hstores := (layer.enter_harmless i).stores env w
  rwa [h] at hstores

/-- **The way in changes no store.** -/
theorem descend_stores {layers : List (Layer R)} {i : Inflight R} {outcome : Except Failure (Descent R)} {env : Env}
    {w w' : World R} (h : descend layers i env w = (outcome, w')) : w'.stores = w.stores := by
  have hstores := (descend_harmless layers (P := fun _ => True) (fun _ _ _ _ => trivial) i).stores env w
  rwa [h] at hstores

/-- **The way out is harmless.** -/
theorem ascend_harmless (layers : List (Layer R))
    (h : ∀ layer ∈ layers, ∀ e, Event.Leaving layer.node e → P e) (response : Response) :
    (ascend layers response).Harmless P := by
  induction layers with
  | nil => exact Action.Harmless.pure response
  | cons layer layers ih =>
      refine (ih fun l hl => h l (List.mem_cons_of_mem layer hl)).bind fun response => ?_
      exact (layer.leave_harmless response).mono (h layer List.mem_cons_self)

/-- The way in always comes to an end. -/
theorem descend_apply (layers : List (Layer R)) (i : Inflight R) (env : Env) (w : World R) :
    ∃ d w', descend layers i env w = (.ok d, w') := by
  induction layers generalizing i w with
  | nil => exact ⟨.arrived i, w, rfl⟩
  | cons layer layers ih =>
      obtain ⟨entry, w₁, henter⟩ := layer.enter_apply i env w
      rw [descend, Action.bind_of_ok henter]
      cases entry with
      | stopped s => exact ⟨_, _, rfl⟩
      | passed i =>
          obtain ⟨d, w₂, hdescend⟩ := ih i w₁
          exact ⟨d.behind layer, w₂, Action.bind_of_ok hdescend _⟩

/-- What becomes of a request behind more layers. -/
def Descent.below (above : List (Layer R)) : Descent R → Descent R
  | .arrived i => .arrived i
  | .stopped outer s => .stopped (above ++ outer) s

/-- **The way in through some layers and then others** is the way through all of them. -/
theorem descend_append {above layers : List (Layer R)} {i i' : Inflight R} {d : Descent R} {env : Env}
    {w w₁ w₂ : World R} (h : descend above i env w = (.ok (.arrived i'), w₁))
    (h' : descend layers i' env w₁ = (.ok d, w₂)) :
    descend (above ++ layers) i env w = (.ok (d.below above), w₂) := by
  induction above generalizing i w with
  | nil =>
      cases h
      rw [List.nil_append, h']
      cases d <;> rfl
  | cons layer above ih =>
      obtain ⟨entry, w₀, henter, hrest⟩ := Action.bind_eq_ok.mp h
      rw [List.cons_append, descend, Action.bind_of_ok henter]
      cases entry with
      | stopped s => cases hrest
      | passed i₀ =>
          obtain ⟨d₀, w₁', hdescend, hbehind⟩ := Action.bind_eq_ok.mp hrest
          cases d₀ with
          | stopped outer s => cases hbehind
          | arrived i₁ =>
              cases hbehind
              refine (Action.bind_of_ok (ih hdescend) _).trans ?_
              cases d <;> rfl

/-- Layers that stop a request stop it whatever lies below them. -/
theorem descend_append_of_stopped {above outer : List (Layer R)} {i : Inflight R} {s : Stop R} {env : Env}
    {w w' : World R} (layers : List (Layer R)) (h : descend above i env w = (.ok (.stopped outer s), w')) :
    descend (above ++ layers) i env w = (.ok (.stopped outer s), w') := by
  induction above generalizing i outer w with
  | nil => cases h
  | cons layer above ih =>
      obtain ⟨entry, w₁, henter, hrest⟩ := Action.bind_eq_ok.mp h
      rw [List.cons_append, descend, Action.bind_of_ok henter]
      cases entry with
      | stopped s' => exact hrest
      | passed i₁ =>
          obtain ⟨d, w₂, hdescend, hbehind⟩ := Action.bind_eq_ok.mp hrest
          cases d with
          | arrived i₂ => cases hbehind
          | stopped outer' s' =>
              cases hbehind
              exact Action.bind_of_ok (ih hdescend) _

/-- **A request that is stopped** has arrived behind the outer layers, and the next one does not let it in. -/
theorem descend_of_stopped {layers outer : List (Layer R)} {i : Inflight R} {s : Stop R} {env : Env}
    {w w' : World R} (h : descend layers i env w = (.ok (.stopped outer s), w')) :
    ∃ layer inner i' w₁, layers = outer ++ layer :: inner
      ∧ descend outer i env w = (.ok (.arrived i'), w₁) ∧ layer.enter i' env w₁ = (.ok (.stopped s), w') := by
  induction layers generalizing i outer w with
  | nil => cases h
  | cons layer layers ih =>
      obtain ⟨entry, w₁, henter, hrest⟩ := Action.bind_eq_ok.mp h
      cases entry with
      | stopped s' =>
          cases hrest
          exact ⟨layer, layers, i, w, rfl, rfl, henter⟩
      | passed i₁ =>
          obtain ⟨d, w₂, hdescend, hbehind⟩ := Action.bind_eq_ok.mp hrest
          cases d with
          | arrived i₂ => cases hbehind
          | stopped outer' s' =>
              cases hbehind
              obtain ⟨last, inner, i₂, w₃, rfl, harrives, hstops⟩ := ih hdescend
              refine ⟨last, inner, i₂, w₃, rfl, ?_, hstops⟩
              rw [descend, Action.bind_of_ok henter]
              exact Action.bind_of_ok harrives _

/-- The way out never fails, and its answer does not depend on the world. -/
theorem ascend_apply (layers : List (Layer R)) (response : Response) (env : Env) (w : World R) :
    ∃ w', ascend layers response env w = (.ok (left layers response), w') := by
  induction layers with
  | nil => exact ⟨w, rfl⟩
  | cons layer layers ih =>
      obtain ⟨w₁, hinner⟩ := ih
      rw [ascend, Action.bind_of_ok hinner]
      cases layer with
      | plain node m => exact ⟨_, rfl⟩
      | guard c g => exact ⟨_, rfl⟩
      | resolve c => exact ⟨_, rfl⟩

/-- A request keeps its path parameters at every layer. -/
theorem enter_params {layer : Layer R} {i i' : Inflight R} {env : Env} {w w' : World R}
    (h : layer.enter i env w = (.ok (.passed i'), w')) : i'.params = i.params := by
  cases layer with
  | plain node m =>
      obtain ⟨_, w₁, -, hrest⟩ := Action.bind_eq_ok.mp h
      cases hm : m.enter i.request with
      | error response => simp [hm, Prod.ext_iff] at hrest
      | ok request =>
          rw [hm] at hrest
          cases hrest
          rfl
  | guard c g =>
      obtain ⟨outcome, w₁, -, hrest⟩ := Action.bind_eq_ok.mp h
      cases outcome with
      | error e => simp [Prod.ext_iff] at hrest
      | ok r =>
          obtain ⟨_, w₂, -, hrest⟩ := Action.bind_eq_ok.mp hrest
          cases hg : g.check i.context r with
          | error e => simp [hg, Prod.ext_iff] at hrest
          | ok u =>
              rw [hg] at hrest
              cases hrest
              rfl
  | resolve c =>
      rw [enter] at h
      split at h
      · cases h
        rfl
      · obtain ⟨outcome, w₁, -, hrest⟩ := Action.bind_eq_ok.mp h
        cases outcome with
        | error e => simp [Prod.ext_iff] at hrest
        | ok r =>
            cases hrest
            rfl

/-- A request that arrives has its path parameters still. -/
theorem descend_params {layers : List (Layer R)} {i i' : Inflight R} {env : Env} {w w' : World R}
    (h : descend layers i env w = (.ok (.arrived i'), w')) : i'.params = i.params := by
  induction layers generalizing i w with
  | nil =>
      cases h
      rfl
  | cons layer layers ih =>
      obtain ⟨entry, w₁, henter, hrest⟩ := Action.bind_eq_ok.mp h
      cases entry with
      | stopped s => cases hrest
      | passed i₁ =>
          obtain ⟨d, w₂, hdescend, hbehind⟩ := Action.bind_eq_ok.mp hrest
          cases d with
          | stopped outer s => cases hbehind
          | arrived i₂ =>
              cases hbehind
              rw [ih hdescend, enter_params henter]

end Layer

/-! ## Routes -/

namespace Route

/-- What a route does with a request that has passed its layers. -/
def reached (r : Route R) (m : Method) (i : Inflight R) : Action R Response :=
  match r.endpoint? m with
  | some e => e.run i
  | none => pure (.bare 405)

/-- An answer on its way out of a route, outside of the layers. -/
def dressed (r : Route R) (m : Method) (response : Response) : Response :=
  let response :=
    match r.endpoint? m with
    | some _ => response
    | none => response.setHeader "allow" (String.intercalate "," r.allowed)
  if m = .head then response.withoutBody else response

end Route

namespace Router

/-- The request on its way to a route, with what the parameters of the route's pattern take. -/
def dispatched (request : Request) (taken : List (String × String)) : Inflight R :=
  ⟨request, decodeParams taken, []⟩

/-- **Serving a request** that some route matches is the way in through the layers of that route, what the
route does, and the way out. -/
theorem serve_eq {routes : List (Route R)} {request : Request} {route : Route R}
    {taken : List (String × String)}
    (h : Route.lookup (routes.map fun r => (r.pattern, r)) request.path = some (route, taken)) :
    serve routes request = (do
      match ← Layer.descend route.layers (dispatched request taken) with
      | .arrived i =>
        route.reached request.method i >>= Layer.ascend route.layers >>= fun response =>
          pure (route.dressed request.method response)
      | .stopped outer s =>
        Layer.ascend outer s.response >>= fun response =>
          pure (route.dressed request.method response)) := by
  rw [serve, h]
  simp only [Route.answer]
  cases he : route.endpoint? request.method with
  | some e =>
      simp only [dispatched, Layer.through_eq, bind_assoc]
      refine bind_congr fun d => ?_
      cases d with
      | arrived i => simp only [Route.reached, Route.dressed, he, bind_assoc]
      | stopped outer s => simp only [Route.dressed, he]
  | none =>
      simp only [dispatched, Layer.through_eq, bind_assoc]
      refine bind_congr fun d => ?_
      cases d with
      | arrived i => simp only [Route.reached, Route.dressed, he, pure_bind]
      | stopped outer s => simp only [Route.dressed, he, pure_bind]

variable {routes : List (Route R)} {request : Request} {route : Route R}
  {taken : List (String × String)} {env : Env} {w w₁ w₂ : World R}

/-- The answer to a request that arrives, and the world after its way out. -/
theorem answer_eq_of_arrived {i : Inflight R} {response response' : Response} {w' : World R}
    (h : Route.lookup (routes.map fun r => (r.pattern, r)) request.path = some (route, taken))
    (hdescend : Layer.descend route.layers (dispatched request taken) env w = (.ok (.arrived i), w₁))
    (hreached : route.reached request.method i env w₁ = (.ok response, w₂))
    (hascend : Layer.ascend route.layers response env w₂ = (.ok response', w')) :
    answer routes request env w = (route.dressed request.method response', w') := by
  -- the route's answer goes out through all layers that let the request in
  have hout := Action.bind_of_ok hreached (Layer.ascend route.layers)
  rw [answer, serve_eq h, Action.bind_of_ok hdescend]
  simp only [Action.bind_of_ok (hout.trans hascend), Action.pure_apply]

/-- The answer to a request that is stopped, and the world after its way out. -/
theorem answer_eq_of_stopped {outer : List (Layer R)} {s : Layer.Stop R} {response' : Response} {w' : World R}
    (h : Route.lookup (routes.map fun r => (r.pattern, r)) request.path = some (route, taken))
    (hdescend : Layer.descend route.layers (dispatched request taken) env w = (.ok (.stopped outer s), w₁))
    (hascend : Layer.ascend outer s.response env w₁ = (.ok response', w')) :
    answer routes request env w = (route.dressed request.method response', w') := by
  rw [answer, serve_eq h, Action.bind_of_ok hdescend]
  simp only [Action.bind_of_ok hascend, Action.pure_apply]

/-- A request that arrives gets the answer of its route, as the layers and the route let it out. -/
theorem answer_of_arrived {i : Inflight R} {response : Response}
    (h : Route.lookup (routes.map fun r => (r.pattern, r)) request.path = some (route, taken))
    (hdescend : Layer.descend route.layers (dispatched request taken) env w = (.ok (.arrived i), w₁))
    (hreached : route.reached request.method i env w₁ = (.ok response, w₂)) :
    ∃ w', answer routes request env w
        = (route.dressed request.method (Layer.left route.layers response), w')
      ∧ w'.stores = w₂.stores
      ∧ w₂.LogsOnly (fun e => ∃ layer ∈ route.layers, e.Leaving layer.node) w' := by
  obtain ⟨w', hascend⟩ := Layer.ascend_apply route.layers response env w₂
  have hharmless := Layer.ascend_harmless route.layers
    (P := fun e => ∃ layer ∈ route.layers, e.Leaving layer.node) (fun l hl e he => ⟨l, hl, he⟩) response
  have hstores := hharmless.stores env w₂
  have hlog := hharmless.log env w₂
  rw [hascend] at hstores hlog
  exact ⟨w', answer_eq_of_arrived h hdescend hreached hascend, hstores, hlog⟩

/-- A request that is stopped at a layer gets the answer of that layer, as the outer ones and the route let it
out. -/
theorem answer_of_stopped {outer : List (Layer R)} {s : Layer.Stop R}
    (h : Route.lookup (routes.map fun r => (r.pattern, r)) request.path = some (route, taken))
    (hdescend : Layer.descend route.layers (dispatched request taken) env w = (.ok (.stopped outer s), w₁)) :
    ∃ w', answer routes request env w = (route.dressed request.method (Layer.left outer s.response), w')
      ∧ w'.stores = w₁.stores
      ∧ w₁.LogsOnly (fun e => ∃ layer ∈ outer, e.Leaving layer.node) w' := by
  obtain ⟨w', hascend⟩ := Layer.ascend_apply outer s.response env w₁
  have hharmless := Layer.ascend_harmless outer
    (P := fun e => ∃ layer ∈ outer, e.Leaving layer.node) (fun l hl e he => ⟨l, hl, he⟩) s.response
  have hstores := hharmless.stores env w₁
  have hlog := hharmless.log env w₁
  rw [hascend] at hstores hlog
  exact ⟨w', answer_eq_of_stopped h hdescend hascend, hstores, hlog⟩

end Router

end ResourceTree
