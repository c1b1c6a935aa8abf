import ResourceTree.Proofs.CommitPoint

/-! # What a default handler has to do with

A default handler keeps to itself in two ways. Whatever happens while it runs is an event of its own API
(`handle_events`), so it calls no other store. And its hooks run in the context that it was given and in no
other: `Collection.seenIn` holds all hooks fast in one context, and `handle_seenIn` says that the handler does
not notice. -/

namespace ResourceTree

variable {R : Type}

/-! ## Its own events -/

/-- Events of a default handler: they are about its API, and belong neither to the layers around a route nor to a
custom handler. -/
def Event.Handling (node : NodeKey) : Event → Prop
  | .guard _ _ _ | .enter _ _ | .leave _ _ _ | .handler _ _ => False
  | e => e.node = node

theorem Event.Handling.node_eq {node : NodeKey} {e : Event} (h : e.Handling node) : e.node = node := by
  unfold Event.Handling at h
  split at h
  all_goals first | exact h | exact False.elim h

theorem Event.Reading.handling {node : NodeKey} {e : Event} (h : e.Reading node) : e.Handling node := by
  unfold Event.Reading at h
  split at h
  all_goals first | exact h | exact False.elim h

theorem Event.Preparatory.handling {node : NodeKey} {e : Event} (h : e.Preparatory node) :
    e.Handling node := by
  unfold Event.Preparatory at h
  split at h
  all_goals first | exact h | exact False.elim h

theorem Event.Closing.handling {node : NodeKey} {e : Event} (h : e.Closing node) : e.Handling node := by
  unfold Event.Closing at h
  split at h
  all_goals first | exact h | exact False.elim h

namespace Collection

variable {c : Collection R} {k : Writing} {ctx : Context R} {body : ByteArray} {env : Env}
  {w w' : World R}

/-- A committed request has logged events of its API. -/
theorem CommitsTo.events {wr : Write R} (h : c.CommitsTo k ctx body env w wr w') :
    w.LogsOnly (Event.Handling c.node) w' := by
  obtain ⟨-, -, w₁, hbefore, hlog⟩ := h.spec
  refine (hbefore.mono fun _ => Event.Preparatory.handling).trans ⟨_, hlog, fun e he => ?_⟩
  rw [List.mem_singleton.mp he]
  rfl

/-- However a writing handler ends, it has logged events of its API. -/
theorem Ending.events {response : Response} (h : c.Ending k ctx body env w response w') :
    w.LogsOnly (Event.Handling c.node) w' := by
  cases h with
  | refused stage fails before => exact before.mono fun _ => Event.Preparatory.handling
  | @unwritten wr w₁ _ e passes before fails call =>
      rw [call]
      refine (before.mono fun _ => Event.Preparatory.handling).trans (World.LogsOnly.called ?_ w₁)
      rfl
  | unanswered commits stage fails after =>
      exact commits.events.trans (after.mono fun _ => Event.Closing.handling)
  | answered commits passes after =>
      exact commits.events.trans (after.mono fun _ => Event.Closing.handling)

/-- **A default handler answers, and all it logs are events of its own API.** -/
theorem handle_events (c : Collection R) (op : Operation) (ctx : Context R) (body : ByteArray) (env : Env)
    (w : World R) : ∃ response w', (c.handle op ctx body).answered env w = (.ok response, w')
      ∧ w.LogsOnly (Event.Handling c.node) w' := by
  have hreads {x : Action R Response} (hx : x.Harmless (Event.Reading c.node)) :
      ∃ response w', x.answered env w = (.ok response, w') ∧ w.LogsOnly (Event.Handling c.node) w' := by
    obtain ⟨response, w', hanswer⟩ := hx.answers env w
    have hlog := hx.answered.log env w
    rw [hanswer] at hlog
    exact ⟨response, w', hanswer, hlog.mono fun _ => Event.Reading.handling⟩
  have hwrites (k : Writing) : ∃ response w',
      (c.handle k.operation ctx body).answered env w = (.ok response, w')
        ∧ w.LogsOnly (Event.Handling c.node) w' := by
    obtain ⟨response, w', hanswer, hending⟩ := c.handle_ending k ctx body env w
    exact ⟨response, w', hanswer, hending.events⟩
  cases op with
  | list => exact hreads (c.list_harmless ctx)
  | fetch => exact hreads (c.fetch_harmless ctx)
  | create => exact hwrites .create
  | replace => exact hwrites .replace
  | merge => exact hwrites .merge
  | remove => exact hwrites .remove

end Collection

/-- The endpoint of an operation answers, and all it logs are events of its own API. -/
theorem Endpoint.run_events (c : Collection R) (op : Operation) (i : Inflight R) (env : Env) (w : World R) :
    ∃ response w', (Endpoint.operation c op).run i env w = (.ok response, w')
      ∧ w.LogsOnly (Event.Handling c.node) w' := by
  rw [run]
  split
  · rw [Action.withBody]
    split
    · exact ⟨_, w, rfl, World.LogsOnly.refl _ w⟩
    · exact c.handle_events op i.context i.request.body env w
  · exact c.handle_events op i.context .empty env w

/-! ## Its own context -/

/-- A kind whose hooks run in this context, whichever they are given. -/
def Kind.seenIn (ctx : Context R) (kind : Kind R) : Kind R :=
  { kind with
    bind := fun _ => kind.bind ctx
    render := fun _ => kind.render ctx
    html := fun _ => kind.html ctx }

/-- Hooks that run in this context, whichever they are given. -/
def Hooks.seenIn (ctx : Context R) (hooks : Hooks R) : Hooks R where
  filter := hooks.filter.map fun make _ => make ctx
  wrapper := hooks.wrapper.map fun wrap _ => wrap ctx
  listWrapper := hooks.listWrapper.map fun wrap _ => wrap ctx
  onSave := hooks.onSave.map fun hook _ => hook ctx
  beforeDelete := hooks.beforeDelete.map fun hook _ => hook ctx
  afterDelete := hooks.afterDelete.map fun hook _ => hook ctx

/-- A collection whose hooks run in this context, whichever they are given. -/
def Collection.seenIn (ctx : Context R) (c : Collection R) : Collection R :=
  { c with kind := c.kind.seenIn ctx, hooks := c.hooks.seenIn ctx }

/-- A handler that runs in this context, whichever it is given. -/
def Handler.seenIn (ctx : Context R) (handler : Handler R) : Handler R :=
  { handler with run := fun _ => handler.run ctx }

/-- An endpoint that runs everything in this context, whichever it is given. -/
def Endpoint.seenIn (ctx : Context R) : Endpoint R → Endpoint R
  | .operation c op => .operation (c.seenIn ctx) op
  | .custom node handler => .custom node (handler.seenIn ctx)

namespace Collection

variable (c : Collection R) (ctx : Context R)

theorem save_seenIn (r : R) : (c.seenIn ctx).save ctx r = c.save ctx r := by
  rw [save, save, seenIn, Hooks.seenIn]
  cases c.hooks.onSave <;> rfl

theorem present_seenIn (allowPage : Bool) (r : R) :
    (c.seenIn ctx).present ctx allowPage r = c.present ctx allowPage r := by
  rw [present, present, seenIn, Hooks.seenIn]
  cases c.hooks.wrapper <;> rfl

theorem respond_seenIn (m : Method) (r : R) : (c.seenIn ctx).respond ctx m r = c.respond ctx m r := by
  rw [respond, respond, present_seenIn]
  rfl

theorem selection_seenIn : (c.seenIn ctx).selection ctx = c.selection ctx := by
  rw [selection, selection, seenIn, Hooks.seenIn]
  cases c.hooks.filter <;> rfl

theorem presentAll_seenIn (rs : List R) : (c.seenIn ctx).presentAll ctx rs = c.presentAll ctx rs := by
  induction rs with
  | nil => rfl
  | cons r rs ih => rw [presentAll, presentAll, present_seenIn, ih]

theorem list_seenIn : (c.seenIn ctx).list ctx = c.list ctx := by
  rw [list, list, selection_seenIn]
  simp only [presentAll_seenIn]
  simp only [seenIn, Hooks.seenIn]
  cases c.hooks.listWrapper <;> rfl

theorem runDeleteHook_seenIn (hook : Option (Context R → String → Except ApiError Unit)) (event : Event)
    (id : String) :
    runDeleteHook (hook.map fun hook _ => hook ctx) event ctx id = runDeleteHook hook event ctx id := by
  cases hook <;> rfl

/-- **A default handler runs its hooks in the context that it was given**, and in no other. -/
theorem handle_seenIn (op : Operation) (body : ByteArray) :
    (c.seenIn ctx).handle op ctx body = c.handle op ctx body := by
  cases op with
  | list => exact c.list_seenIn ctx
  | fetch =>
      rw [handle, handle, fetch, fetch]
      simp only [respond_seenIn]
      rfl
  | create =>
      rw [handle, handle, create, create]
      simp only [save_seenIn, respond_seenIn]
      rfl
  | replace =>
      rw [handle, handle, replace, replace]
      simp only [save_seenIn, respond_seenIn]
      rfl
  | merge =>
      rw [handle, handle, merge, merge]
      simp only [save_seenIn, respond_seenIn]
      rfl
  | remove =>
      rw [handle, handle, remove, remove]
      simp only [seenIn, Hooks.seenIn, runDeleteHook_seenIn]
      rfl

end Collection

/-- **An endpoint runs in the context of its request**, and in no other. -/
theorem Endpoint.run_seenIn (i : Inflight R) (e : Endpoint R) : (e.seenIn i.context).run i = e.run i := by
  cases e with
  | operation c op =>
      rw [seenIn, run, run]
      simp only [Collection.handle_seenIn]
  | custom node handler => rfl

/-- Two endpoints that are alike in the context of a request do the same. -/
theorem Endpoint.run_congr {i : Inflight R} {e e' : Endpoint R}
    (h : e.seenIn i.context = e'.seenIn i.context) : e.run i = e'.run i := by
  rw [← e.run_seenIn, h, e'.run_seenIn]

end ResourceTree
