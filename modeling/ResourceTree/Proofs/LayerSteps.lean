import ResourceTree.Proofs.Ancestry

/-! # The steps through the layers of a route

What can be seen from outside of a request that passes through layers is a list of steps: it enters middlewares,
resources are loaded and given to guards, and its answer leaves middlewares. `Layer.wayIn` reads off the layers
which steps a request makes on its way in, and `Step.back` which ones answer to them on the way out.
`descend_steps` and `ascend_steps` say that these steps are made, and `descend_steps` also where they break off
if a layer stops the request. -/

namespace ResourceTree

variable {R : Type}

/-- A step of a request through the layers of a route. -/
inductive Step where
  | entered (node : NodeKey) (tag : String)
  /-- The store of an API was asked for a resource. -/
  | loaded (node : NodeKey)
  /-- A guard was given the resource. -/
  | checked (node : NodeKey) (tag : String)
  | left (node : NodeKey) (tag : String)
  deriving DecidableEq, Repr

/-- The API or group that a step belongs to. -/
def Step.node : Step → NodeKey
  | .entered node _ | .loaded node | .checked node _ | .left node _ => node

/-- The step out through a middleware that was entered. -/
def Step.exit? : Step → Option Step
  | .entered node tag => some (.left node tag)
  | _ => none

/-- The way out that answers to a way in: what was entered is left, and what was entered last is left first. -/
def Step.back (steps : List Step) : List Step := steps.reverse.filterMap Step.exit?

@[simp] theorem Step.back_append (steps steps' : List Step) :
    back (steps ++ steps') = back steps' ++ back steps := by
  rw [back, List.reverse_append, List.filterMap_append]
  rfl

/-- The step that an event is. -/
def Event.step? : Event → Option Step
  | .enter node tag => some (.entered node tag)
  | .store node (.get _) => some (.loaded node)
  | .guard node tag _ => some (.checked node tag)
  | .leave node tag _ => some (.left node tag)
  | _ => none

namespace World

/-- The logged steps. -/
def steps (w : World R) : List Step := w.log.filterMap Event.step?

/-- The steps after one more event was logged. -/
theorem steps_log (w : World R) (e : Event) {w' : World R} (h : w'.log = w.log ++ [e]) :
    w'.steps = w.steps ++ e.step?.toList := by
  rw [steps, h, List.filterMap_append, steps]
  cases he : e.step? <;> simp [he]

end World

namespace Collection

variable {c : Collection R} {i : Inflight R} {seen : List String} {env : Env} {w w₁ : World R}

/-- Asking for a resource is a step unless it is resolved already. -/
def loadStep (seen : List String) (c : Collection R) : List Step :=
  if c.name ∈ seen then [] else [.loaded c.node]

/-- The step of asking in vain for a resource: there is none without an ID. -/
def missStep (params : List (String × String)) (c : Collection R) : List Step :=
  if (Form.lookup params (idParam c.name)).isSome then [.loaded c.node] else []

/-- The steps of asking for a resource. -/
def askSteps {ε : Type} (params : List (String × String)) (seen : List String) (c : Collection R) :
    Except ε R → List Step
  | .ok _ => c.loadStep seen
  | .error _ => c.missStep params

/-- **The steps of asking for a resource.** Only what is not resolved is asked for in vain. -/
theorem requested_steps (hseen : c.name ∈ seen ↔ (i.resolved.get? c.name).isSome) (hfits : i.Fits c)
    {outcome : Except Failure R} (hx : c.requested i.context env w = (outcome, w₁)) :
    w₁.steps = w.steps ++ c.askSteps i.params seen outcome := by
  cases hold : i.resolved.get? c.name with
  | some found =>
      obtain ⟨kind, r⟩ := found
      obtain rfl : kind = c.kind.name := hfits _ hold
      rw [requested_of_resolved hold] at hx
      cases hx
      have hin : c.name ∈ seen := hseen.mpr (by rw [hold]; rfl)
      simp [askSteps, loadStep, hin]
  | none =>
      have hnew : c.name ∉ seen := fun hin => by simp [hold] at hseen; exact hseen hin
      rw [requested_of_not_resolved hold] at hx
      cases hid : Form.lookup i.params (idParam c.name) with
      | none =>
          rw [hid] at hx
          cases hx
          simp [askSteps, missStep, hid]
      | some id =>
          simp only [hid, Prod.mk.injEq] at hx
          obtain ⟨rfl, rfl⟩ := hx
          rw [World.steps_log w _ (World.log_called ..)]
          cases Action.found env w c.node id with
          | error err => simp [Except.mapError, askSteps, missStep, hid, Event.step?]
          | ok r => simp [Except.mapError, askSteps, loadStep, hnew, Event.step?]

end Collection

namespace Layer

variable {layer : Layer R} {layers outer : List (Layer R)} {seen : List String} {i i' : Inflight R} {env : Env}
  {w w' : World R}

/-! ## What the layers say -/

/-- The steps in through one layer, if the resources of some collections are resolved already. -/
def stepsIn (seen : List String) : Layer R → List Step
  | .plain node m => [.entered node m.tag]
  | .guard c g => c.loadStep seen ++ [.checked c.node g.tag]
  | .resolve c => c.loadStep seen

/-- The names of the collections whose resources are resolved behind a layer. -/
def seenBehind (seen : List String) (layer : Layer R) : List String :=
  match layer.loader? with
  | none => seen
  | some c => seen.insert c.name

/-- The steps in through layers, the outermost first. -/
def wayIn (seen : List String) : List (Layer R) → List Step
  | [] => []
  | layer :: layers => layer.stepsIn seen ++ wayIn (layer.seenBehind seen) layers

/-- The steps of a request at a layer that stops it. -/
def Stop.stepsAt (params : List (String × String)) (seen : List String) (layer : Layer R) : Stop R → List Step
  | .missing c _ => c.missStep params
  | _ => layer.stepsIn seen

/-- The steps of a request at a layer. -/
def Entry.stepsAt (params : List (String × String)) (seen : List String) (layer : Layer R) :
    Entry R → List Step
  | .passed _ => layer.stepsIn seen
  | .stopped s => s.stepsAt params seen layer

/-- The steps in of a request that has passed the outer layers and is stopped at the next one. -/
def Stop.wayIn (params : List (String × String)) (seen : List String) (layer : Layer R) (s : Stop R) :
    List (Layer R) → List Step
  | [] => s.stepsAt params seen layer
  | outermost :: outer => outermost.stepsIn seen ++ s.wayIn params (outermost.seenBehind seen) layer outer

/-! ## The way in -/

/-- A request that a layer lets in is ready for the layers further in. -/
theorem Ready.onward (h : Ready seen (layer :: layers) i)
    (henter : layer.enter i env w = (.ok (.passed i'), w')) : Ready (layer.seenBehind seen) layers i' := by
  cases enter_onward h henter with
  | passed seen' hready _ =>
      refine ⟨fun name => ?_, hready.fits, hready.agree⟩
      cases hl : layer.loader? with
      | none =>
          obtain ⟨-, -, -, ⟨response, hstop⟩ | ⟨request, hpass⟩⟩ := enter_of_plain hl henter
          · cases hstop
          · cases hpass
            simp only [seenBehind, hl]
            exact h.seen_iff name
      | some c =>
          rcases enter_of_loader hl (h.fits layer List.mem_cons_self c hl) henter with
            ⟨e, -, hstop⟩ | ⟨r, w₁, -, -, -, -, ⟨e, hstop⟩ | ⟨i₁, hpass, -, hresolved⟩⟩
          · cases hstop
          · cases hstop
          · cases hpass
            simp only [seenBehind, hl, List.mem_insert_iff]
            rw [hresolved, h.seen_iff]
            by_cases heq : c.name = name
            · simp [heq]
            · simp [heq, Ne.symm heq]

/-- **The steps at one layer.** -/
theorem enter_steps (h : Ready seen (layer :: layers) i) {entry : Entry R}
    (henter : layer.enter i env w = (.ok entry, w')) :
    w'.steps = w.steps ++ entry.stepsAt i.params seen layer := by
  have hasks {c : Collection R} (hl : layer.loader? = some c) {outcome : Except ApiError R} {w₁ : World R}
      (hx : (c.requested i.context).attempt env w = (.ok outcome, w₁)) :
      w₁.steps = w.steps ++ c.askSteps i.params seen outcome := by
    have hfits : i.Fits c := h.fits layer List.mem_cons_self c hl
    rcases hreq : c.requested i.context env w with ⟨(e | _) | r, w₂⟩
    · cases (Action.attempt_of_error hreq).symm.trans hx
      exact Collection.requested_steps (h.seen_iff c.name) hfits hreq
    · rw [Action.attempt, hreq] at hx
      cases hx
    · cases (Action.attempt_of_ok hreq).symm.trans hx
      exact Collection.requested_steps (h.seen_iff c.name) hfits hreq
  cases layer with
  | plain node m =>
      rw [enter, Action.bind_of_ok (Action.emit_apply _ env w)] at henter
      cases hm : m.enter i.request with
      | error response =>
          rw [hm] at henter
          cases henter
          exact World.steps_log w (.enter node m.tag) rfl
      | ok request =>
          rw [hm] at henter
          cases henter
          exact World.steps_log w (.enter node m.tag) rfl
  | guard c g =>
      obtain ⟨outcome, w₁, hx, hrest⟩ := Action.bind_eq_ok.mp henter
      have hload := hasks rfl hx
      cases outcome with
      | error e =>
          cases hrest
          exact hload
      | ok r =>
          -- the guard is given the resource, and lets the request in or refuses it
          obtain ⟨u, w₂, hemit, hrest⟩ := Action.bind_eq_ok.mp hrest
          have hchecked : w₂.steps = w₁.steps ++ [.checked c.node g.tag] := by
            cases hemit
            exact World.steps_log w₁ (.guard c.node g.tag (c.kind.id r)) rfl
          cases hg : g.check i.context r with
          | error e =>
              rw [hg] at hrest
              cases hrest
              rw [hchecked, hload, List.append_assoc]
              rfl
          | ok u =>
              rw [hg] at hrest
              cases hrest
              rw [hchecked, hload, List.append_assoc]
              rfl
  | resolve c =>
      rw [enter] at henter
      split at henter
      · next hcontains =>
          cases henter
          have hin : c.name ∈ seen := (h.seen_iff c.name).mpr hcontains
          simp [Entry.stepsAt, stepsIn, Collection.loadStep, hin]
      · obtain ⟨outcome, w₁, hx, hrest⟩ := Action.bind_eq_ok.mp henter
        have hload := hasks rfl hx
        cases outcome with
        | error e =>
            cases hrest
            exact hload
        | ok r =>
            cases hrest
            exact hload

/-- What becomes of a request takes these steps: one that arrives makes those of all layers, and one that is
stopped those of the outer layers and its steps at the one that stops it. -/
def Descent.Takes (params : List (String × String)) (seen : List String) (layers : List (Layer R))
    (steps : List Step) : Descent R → Prop
  | .arrived _ => steps = wayIn seen layers
  | .stopped outer s => ∃ layer rest, layers = outer ++ layer :: rest
    ∧ steps = s.wayIn params seen layer outer

/-- **The steps in**, by induction on the layers. -/
theorem descend_steps (hready : Ready seen layers i) {d : Descent R}
    (h : descend layers i env w = (.ok d, w')) :
    ∃ steps, w'.steps = w.steps ++ steps ∧ d.Takes i.params seen layers steps := by
  induction layers generalizing i seen w d with
  | nil =>
      cases h
      exact ⟨[], (List.append_nil _).symm, rfl⟩
  | cons layer layers ih =>
      obtain ⟨entry, w₁, henter, hrest⟩ := Action.bind_eq_ok.mp h
      have hsteps := enter_steps hready henter
      cases entry with
      | stopped s =>
          cases hrest
          exact ⟨_, hsteps, layer, layers, rfl, rfl⟩
      | passed i₁ =>
          obtain ⟨d', w₂, hdescend, hbehind⟩ := Action.bind_eq_ok.mp hrest
          cases hbehind
          obtain ⟨steps, hinner, htakes⟩ := ih (hready.onward henter) hdescend
          refine ⟨layer.stepsIn seen ++ steps, ?_, ?_⟩
          · rw [hinner, hsteps, List.append_assoc]
            rfl
          · cases d' with
            | arrived i₂ => exact congrArg _ htakes
            | stopped outer s =>
                obtain ⟨last, rest, rfl, rfl⟩ := htakes
                refine ⟨last, rest, rfl, ?_⟩
                rw [enter_params henter]
                rfl

/-- What layers log are steps. -/
theorem isStep_of_passing {node : NodeKey} {e : Event} (h : e.Passing node) : e.step?.isSome := by
  unfold Event.Passing at h
  split at h
  all_goals first | rfl | exact h.elim

/-- The events on the way in are steps. -/
theorem descend_isStep {outcome : Except Failure (Descent R)}
    (h : descend layers i env w = (outcome, w')) : w.LogsOnly (fun e => e.step?.isSome) w' := by
  have hlog := (descend_harmless layers (P := fun e => e.step?.isSome)
    (fun _ _ _ he => isStep_of_passing he) i).log env w
  rw [h] at hlog
  exact hlog

/-! ## The way out -/

/-- **The steps out** answer to the steps in through the same layers, by induction on the layers. -/
theorem ascend_steps (seen : List String) {response : Response} {outcome : Except Failure Response}
    (h : ascend layers response env w = (outcome, w')) :
    w'.steps = w.steps ++ Step.back (wayIn seen layers) := by
  induction layers generalizing seen outcome w' with
  | nil =>
      cases h
      exact (List.append_nil _).symm
  | cons layer layers ih =>
      obtain ⟨w₁, hinner⟩ := ascend_apply layers response env w
      rw [ascend, Action.bind_of_ok hinner] at h
      have hback := ih (layer.seenBehind seen) hinner
      have hload (c : Collection R) : Step.back (c.loadStep seen) = [] := by
        rw [Collection.loadStep]
        split <;> rfl
      rw [wayIn, Step.back_append, ← List.append_assoc, ← hback]
      cases layer with
      | plain node m =>
          cases h
          exact World.steps_log w₁ (.leave node m.tag _) rfl
      | guard c g =>
          cases h
          rw [stepsIn, Step.back_append, hload]
          exact (List.append_nil _).symm
      | resolve c =>
          cases h
          rw [stepsIn, hload, List.append_nil]

/-- The events on the way out are steps. -/
theorem ascend_isStep {response : Response} {outcome : Except Failure Response}
    (h : ascend layers response env w = (outcome, w')) : w.LogsOnly (fun e => e.step?.isSome) w' := by
  have hlog := (ascend_harmless layers (P := fun e => e.step?.isSome)
    (fun _ _ _ he => isStep_of_passing he.passing) response).log env w
  rw [h] at hlog
  exact hlog

end Layer

end ResourceTree
