import ResourceTree.Proofs.Reading

/-! # The stages of the writing handlers

A `Pipeline` is a chain of named stages, each of which passes what it finds to the rest. A writing handler is
one such chain up to its write (`Collection.draft`), the write itself (`Collection.commit`), and another chain
for its answer (`Collection.finish`): `handle_eq_stages`. `Pipeline.Passes` and `Pipeline.FailsAt` say how a
chain ends: with all its stages done, or at the first one that fails, after which no other runs. -/

namespace ResourceTree

/-- A stage of a writing handler that may fail. -/
inductive Stage where
  /-- The ID is taken from the path. -/
  | pathId
  /-- The stored resource is read. -/
  | read
  /-- The blank instance is written as a value. -/
  | template
  /-- The body is parsed and laid over the template. -/
  | body
  /-- The resource is read from the value. -/
  | decode
  /-- The ID of the body is compared with that of the path. -/
  | bodyId
  /-- The identity is settled: an unused ID, and a time of creation. -/
  | identify
  | bind
  | patch
  /-- The hook before storing. -/
  | save
  | beforeDelete
  /-- The stored resource is wrapped and rendered. -/
  | render
  /-- The rendered value is written as JSON or as a page. -/
  | serialize
  | afterDelete
  deriving DecidableEq, Repr

/-! ## Chains of stages -/

/-- A chain of stages. -/
inductive Pipeline (R α : Type) : Type 1 where
  | done (a : α)
  | stage {β : Type} (s : Stage) (x : Action R β) (rest : β → Pipeline R α)

namespace Pipeline

variable {R α β : Type}

/-- The stages one after another, as an action. -/
def run : Pipeline R α → Action R α
  | .done a => pure a
  | .stage _ x rest => x >>= fun b => (rest b).run

/-- All stages succeed, with this value and this world at the end. -/
def Passes (env : Env) : Pipeline R α → World R → α → World R → Prop
  | .done b, w, a, w' => a = b ∧ w' = w
  | .stage _ x rest, w, a, w' => ∃ b w₁, x env w = (.ok b, w₁) ∧ (rest b).Passes env w₁ a w'

/-- The stages before `s` succeed, and `s` fails with this error and leaves this world. -/
def FailsAt (env : Env) : Pipeline R α → World R → Stage → ApiError → World R → Prop
  | .done _, _, _, _, _ => False
  | .stage s' x rest, w, s, e, w' =>
    (s = s' ∧ x env w = (.error (.api e), w'))
      ∨ ∃ b w₁, x env w = (.ok b, w₁) ∧ (rest b).FailsAt env w₁ s e w'

/-- The stages are these, in this order, whatever they pass on. -/
def Follows : Pipeline R α → List Stage → Prop
  | .done _, order => order = []
  | .stage s _ rest, order => ∃ more, order = s :: more ∧ ∀ b, (rest b).Follows more

/-- Every stage is harmless. -/
def Harmless (P : Event → Prop) : Pipeline R α → Prop
  | .done _ => True
  | .stage _ x rest => x.Harmless P ∧ ∀ b, (rest b).Harmless P

/-- Every value that the chain can come to is of a class. -/
def Gives (Q : α → Prop) : Pipeline R α → Prop
  | .done a => Q a
  | .stage _ _ rest => ∀ b, (rest b).Gives Q

/-- A chain that passes gives a value of its class. -/
theorem Passes.gives {Q : α → Prop} {env : Env} {p : Pipeline R α} (hp : p.Gives Q) {w w' : World R}
    {a : α} (h : p.Passes env w a w') : Q a := by
  induction p generalizing w with
  | done b =>
      obtain ⟨rfl, -⟩ := h
      exact hp
  | stage s x rest ih =>
      obtain ⟨b, w₁, -, hrest⟩ := h
      exact ih b (hp b) hrest

/-- A chain whose stages all succeed runs to its value. -/
theorem run_of_passes {env : Env} {p : Pipeline R α} {w w' : World R} {a : α}
    (h : p.Passes env w a w') : p.run env w = (.ok a, w') := by
  induction p generalizing w with
  | done b =>
      obtain ⟨rfl, rfl⟩ := h
      rfl
  | stage s x rest ih =>
      obtain ⟨b, w₁, hx, hrest⟩ := h
      rw [run, Action.bind_of_ok hx]
      exact ih b hrest

/-- A chain that runs to a value has passed all its stages. -/
theorem passes_of_run {env : Env} {p : Pipeline R α} {w w' : World R} {a : α}
    (h : p.run env w = (.ok a, w')) : p.Passes env w a w' := by
  induction p generalizing w with
  | done b =>
      cases h
      exact ⟨rfl, rfl⟩
  | stage s x rest ih =>
      obtain ⟨b, w₁, hx, hrest⟩ := Action.bind_eq_ok.mp h
      exact ⟨b, w₁, hx, ih b hrest⟩

/-- **The first failing stage ends a chain** with its error: no later stage changes the world. -/
theorem run_of_failsAt {env : Env} {p : Pipeline R α} {w w' : World R} {s : Stage} {e : ApiError}
    (h : p.FailsAt env w s e w') : p.run env w = (.error (.api e), w') := by
  induction p generalizing w with
  | done b => exact h.elim
  | stage s' x rest ih =>
      rcases h with ⟨-, hx⟩ | ⟨b, w₁, hx, hrest⟩
      · rw [run, Action.bind_of_error hx]
      · rw [run, Action.bind_of_ok hx]
        exact ih b hrest

/-- The failing stage is one of those that the chain consists of. -/
theorem FailsAt.mem {env : Env} {p : Pipeline R α} {order : List Stage} {w w' : World R} {s : Stage}
    {e : ApiError} (h : p.FailsAt env w s e w') (horder : p.Follows order) : s ∈ order := by
  induction p generalizing w order with
  | done b => exact h.elim
  | stage s' x rest ih =>
      obtain ⟨more, rfl, hmore⟩ := horder
      rcases h with ⟨rfl, -⟩ | ⟨b, w₁, -, hrest⟩
      · exact List.mem_cons_self
      · exact List.mem_cons_of_mem s' (ih b hrest (hmore b))

/-- **A chain of harmless stages passes or fails at a stage**; it does not run out of time. -/
theorem passes_or_failsAt {P : Event → Prop} {p : Pipeline R α} (hp : p.Harmless P) (env : Env)
    (w : World R) : (∃ a w', p.Passes env w a w') ∨ ∃ s e w', p.FailsAt env w s e w' := by
  induction p generalizing w with
  | done b => exact Or.inl ⟨b, w, rfl, rfl⟩
  | stage s x rest ih =>
      obtain ⟨hx, hrest⟩ := hp
      have htime := hx.inTime env w
      -- the stage fails, runs out of time, or gives something to the rest
      rcases h : x env w with ⟨(e | _) | b, w₁⟩
      · exact Or.inr ⟨s, e, w₁, Or.inl ⟨rfl, h⟩⟩
      · rw [h] at htime
        exact absurd rfl htime
      · rcases ih b (hrest b) w₁ with ⟨a, w', hpass⟩ | ⟨s', e, w', hfail⟩
        · exact Or.inl ⟨a, w', b, w₁, h, hpass⟩
        · exact Or.inr ⟨s', e, w', Or.inr ⟨b, w₁, h, hfail⟩⟩

/-- A chain of harmless stages is a harmless action. -/
theorem harmless_run {P : Event → Prop} {p : Pipeline R α} (hp : p.Harmless P) : p.run.Harmless P := by
  induction p with
  | done b => exact Action.Harmless.pure b
  | stage s x rest ih => exact hp.1.bind fun b => ih b (hp.2 b)

/-- A chain of harmless stages that passes leaves every store as it is and logs only their events. -/
theorem Passes.harmless {P : Event → Prop} {env : Env} {p : Pipeline R α} (hp : p.Harmless P)
    {w w' : World R} {a : α} (h : p.Passes env w a w') : w'.stores = w.stores ∧ w.LogsOnly P w' := by
  have hstores := (harmless_run hp).stores env w
  have hlog := (harmless_run hp).log env w
  rw [run_of_passes h] at hstores hlog
  exact ⟨hstores, hlog⟩

/-- The same of a chain that fails at a stage. -/
theorem FailsAt.harmless {P : Event → Prop} {env : Env} {p : Pipeline R α} (hp : p.Harmless P)
    {w w' : World R} {s : Stage} {e : ApiError} (h : p.FailsAt env w s e w') :
    w'.stores = w.stores ∧ w.LogsOnly P w' := by
  have hstores := (harmless_run hp).stores env w
  have hlog := (harmless_run hp).log env w
  rw [run_of_failsAt h] at hstores hlog
  exact ⟨hstores, hlog⟩

end Pipeline

/-! ## Classes of events -/

namespace Event

/-- Events of the stages before a write: the API's store is read and its hooks run. -/
def Preparatory (node : NodeKey) : Event → Prop
  | .store node' (.get _) | .bind node' | .patch node' | .save node' _ _ | .beforeDelete node' _ =>
    node' = node
  | _ => False

/-- Events of the stages after a write: the answer is made. -/
def Closing (node : NodeKey) : Event → Prop
  | .wrap node' _ | .render node' | .renderView node' | .page node' | .pageView node'
  | .afterDelete node' _ => node' = node
  | _ => False

end Event

/-! ## The handlers as chains -/

/-- The operations that write. -/
inductive Writing where
  | create
  | replace
  | merge
  | remove
  deriving DecidableEq, Repr

namespace Writing

/-- The operation. -/
def operation : Writing → Operation
  | .create => .create
  | .replace => .replace
  | .merge => .merge
  | .remove => .remove

/-- The stages before the write, in order. -/
def stagesBefore : Writing → List Stage
  | .create => [.template, .body, .decode, .identify, .bind, .save]
  | .replace => [.pathId, .template, .body, .decode, .bodyId, .bind, .identify, .save]
  | .merge => [.pathId, .read, .template, .body, .decode, .bodyId, .bind, .patch, .save]
  | .remove => [.pathId, .beforeDelete]

/-- The stages after the write, in order. -/
def stagesAfter : Writing → List Stage
  | .create | .replace | .merge => [.render, .serialize]
  | .remove => [.afterDelete]

end Writing

/-- A write on a store. A writing handler does one. -/
inductive Write (R : Type) where
  | set (r : R)
  | delete (id : String)

namespace Write

variable {R : Type}

/-- The ID that a write is about. -/
def id (kind : Kind R) : Write R → String
  | .set r => kind.id r
  | .delete id => id

/-- The call that a write makes. -/
def call (kind : Kind R) : Write R → StoreCall
  | .set r => .set (kind.id r)
  | .delete id => .delete id

/-- Only a deletion deletes, and the others store a resource. -/
def Suits : Write R → Writing → Prop
  | .set _, k => k ≠ .remove
  | .delete _, k => k = .remove

/-- A store with a write applied. -/
def apply (kind : Kind R) (s : Store R) : Write R → Store R
  | .set r => s.insert (kind.id r) r
  | .delete id => s.erase id

end Write

namespace Collection

variable {R α : Type}

/-- The resource that a value stands for. -/
def decodeValue (c : Collection R) (value : Json) : Except ApiError R :=
  match c.kind.decode value with
  | .ok r => .ok r
  | .error reason => .error (.invalidRequest reason)

/-- The stages that read the body, and those that go on with the resource. -/
def readBody (c : Collection R) (body : ByteArray) (rest : R → Pipeline R α) : Pipeline R α :=
  .stage .template (Action.lift c.template) fun target =>
  .stage .body (Action.lift (bodyValue target body)) fun value =>
  .stage .decode (Action.lift (c.decodeValue value)) rest

/-- A new resource with its identity: its own ID if that is unused, or else a fresh one, created now. -/
def identifyNew (c : Collection R) (r : R) : Action R R := do
  let r ←
    if c.kind.id r = "" then do
      let id ← Action.freshId
      pure (c.kind.withId r id)
    else do
      c.checkUnused (c.kind.id r)
      pure r
  let t ← Action.now
  pure (c.kind.withIdentity r ⟨c.kind.id r, some t⟩)

/-- A resource for an ID with its identity: created when the stored one was, or else now. -/
def identifyAt (c : Collection R) (id : String) (r : R) : Action R R := do
  let created ← c.createdAt id
  let t ←
    match created with
    | some t => pure t
    | none => Action.now
  pure (c.kind.withIdentity r ⟨id, some t⟩)

/-- The resource that is stored in the end: what the hook made of it, with its identity put back. -/
def restored (c : Collection R) (r hooked : R) : Write R :=
  .set (c.kind.withIdentity hooked (c.kind.identity r))

/-- **The stages before the write**, which come to the write. -/
def draft (c : Collection R) (ctx : Context R) (body : ByteArray) : Writing → Pipeline R (Write R)
  | .create =>
    c.readBody body fun r =>
    .stage .identify (c.identifyNew r) fun r =>
    .stage .bind (c.bind ctx r) fun bound =>
    .stage .save (c.save ctx bound) fun hooked =>
    .done (c.restored r hooked)
  | .replace =>
    .stage .pathId (Action.lift (c.pathId ctx)) fun id =>
    c.readBody body fun r =>
    .stage .bodyId (Action.lift (c.checkBodyId r id)) fun _ =>
    .stage .bind (c.bind ctx (c.kind.withId r id)) fun bound =>
    .stage .identify (c.identifyAt id bound) fun r =>
    .stage .save (c.save ctx r) fun hooked =>
    .done (c.restored r hooked)
  | .merge =>
    .stage .pathId (Action.lift (c.pathId ctx)) fun id =>
    .stage .read (Action.orFail (Action.get c.node id)) fun r =>
    c.readBody body fun partialUpdate =>
    .stage .bodyId (Action.lift (c.checkBodyId partialUpdate id)) fun _ =>
    .stage .bind (c.bind ctx partialUpdate) fun partialUpdate =>
    .stage .patch (c.patch r partialUpdate) fun merged =>
    .stage .save (c.save ctx (c.kind.withIdentity merged (c.kind.identity r))) fun hooked =>
    .done (c.restored r hooked)
  | .remove =>
    .stage .pathId (Action.lift (c.pathId ctx)) fun id =>
    .stage .beforeDelete (runDeleteHook c.hooks.beforeDelete (.beforeDelete c.node id) ctx id) fun _ =>
    .done (.delete id)

/-- **The write.** -/
def commit (c : Collection R) : Write R → Action R Unit
  | .set r => c.store r
  | .delete id => Action.orFail (Action.delete c.node id)

/-- What is shown of a resource, before it is written down. -/
def rendered (c : Collection R) (ctx : Context R) (r : R) : Action R View :=
  match c.hooks.wrapper with
  | none => do
    Action.emit (.render c.node)
    Action.lift (c.kind.view ctx r)
  | some wrap => do
    Action.emit (.wrap c.node (c.kind.id r))
    Action.emit (.renderView c.node)
    Action.lift (wrap ctx r)

/-- The payload that a rendered value is written as. -/
def serialized (c : Collection R) (ctx : Context R) (view : View) : Action R Payload :=
  if ctx.acceptsHtml then do
    Action.emit (if c.hooks.wrapper.isSome then .pageView c.node else .page c.node)
    Payload.ofPage view view.page
  else Payload.ofPage view none

/-- **The stages after the write**, which come to the answer. -/
def finish (c : Collection R) (k : Writing) (ctx : Context R) : Write R → Pipeline R Response
  | .set r =>
    .stage .render (c.rendered ctx r) fun view =>
    .stage .serialize (c.serialized ctx view) fun payload =>
    .done (payload.toResponse (c.codes.get k.operation.method))
  | .delete id =>
    .stage .afterDelete (runDeleteHook c.hooks.afterDelete (.afterDelete c.node id) ctx id) fun _ =>
    .done (.bare (c.codes.get .delete))

/-- The body is read in its three stages. -/
theorem run_readBody (c : Collection R) (body : ByteArray) (rest : R → Pipeline R α) :
    (c.readBody body rest).run = Action.lift (c.bindBody body) >>= fun r => (rest r).run := by
  have h : c.bindBody body = c.template >>= fun target => bodyValue target body >>= c.decodeValue := rfl
  simp only [readBody, Pipeline.run, h, Action.lift_bind, bind_assoc]

/-- The answer that shows a resource is made in its two stages. -/
theorem run_finish_set (c : Collection R) (k : Writing) (ctx : Context R) (r : R) :
    (c.finish k ctx (.set r)).run = c.respond ctx k.operation.method r := by
  cases h : c.hooks.wrapper with
  | none =>
      simp only [finish, Pipeline.run, respond, present, Payload.ofView_eq, rendered, serialized, h,
        bind_assoc, Bool.true_and]
      rfl
  | some wrap =>
      simp only [finish, Pipeline.run, respond, present, Payload.ofView_eq, rendered, serialized, h,
        bind_assoc, Bool.true_and]
      rfl

/-- **A writing handler is its stages before the write, the write, and its stages after it.** -/
theorem handle_eq_stages (c : Collection R) (k : Writing) (ctx : Context R) (body : ByteArray) :
    c.handle k.operation ctx body = (do
      let wr ← (c.draft ctx body k).run
      c.commit wr
      (c.finish k ctx wr).run) := by
  cases k with
  | create =>
      simp only [Writing.operation, handle, create, draft, run_readBody, Pipeline.run, bind_assoc,
        pure_bind, commit, restored, run_finish_set, identifyNew]
      refine bind_congr fun r => ?_
      -- the handler settles the ID and the time in two steps, the stage in one
      by_cases hid : c.kind.id r = ""
      · simp only [if_pos hid, bind_assoc, pure_bind, Kind.identity_withIdentity]
        rfl
      · simp only [if_neg hid, bind_assoc, pure_bind, Kind.identity_withIdentity]
        rfl
  | replace =>
      simp only [Writing.operation, handle, replace, draft, run_readBody, Pipeline.run, bind_assoc,
        pure_bind, commit, restored, run_finish_set, identifyAt]
      refine bind_congr fun id => bind_congr fun r => bind_congr fun _ => bind_congr fun bound =>
        bind_congr fun created => ?_
      cases created with
      | some t =>
          simp only [pure_bind, Kind.identity_withIdentity]
          rfl
      | none =>
          simp only [bind_assoc, pure_bind, Kind.identity_withIdentity]
          rfl
  | merge =>
      simp only [Writing.operation, handle, merge, draft, run_readBody, Pipeline.run, bind_assoc,
        pure_bind, commit, restored, run_finish_set]
      rfl
  | remove =>
      simp only [Writing.operation, handle, remove, draft, Pipeline.run, bind_assoc, pure_bind,
        commit, finish]

/-! ## Order of the stages -/

/-- The stages of reading a body come before those of the rest. -/
theorem readBody_follows (c : Collection R) (body : ByteArray) {rest : R → Pipeline R α}
    {more : List Stage} (h : ∀ r, (rest r).Follows more) :
    (c.readBody body rest).Follows (.template :: .body :: .decode :: more) :=
  ⟨_, rfl, fun _ => ⟨_, rfl, fun _ => ⟨more, rfl, h⟩⟩⟩

/-- **The stages before the write are in their order**, whatever the request and the hooks do. -/
theorem draft_follows (c : Collection R) (ctx : Context R) (body : ByteArray) (k : Writing) :
    (c.draft ctx body k).Follows k.stagesBefore := by
  cases k with
  | create =>
      refine c.readBody_follows body fun r => ?_
      exact ⟨_, rfl, fun _ => ⟨_, rfl, fun _ => ⟨_, rfl, fun _ => rfl⟩⟩⟩
  | replace =>
      refine ⟨_, rfl, fun id => c.readBody_follows body fun r => ?_⟩
      exact ⟨_, rfl, fun _ => ⟨_, rfl, fun _ => ⟨_, rfl, fun _ => ⟨_, rfl, fun _ => rfl⟩⟩⟩⟩
  | merge =>
      refine ⟨_, rfl, fun id => ⟨_, rfl, fun stored => c.readBody_follows body fun r => ?_⟩⟩
      exact ⟨_, rfl, fun _ => ⟨_, rfl, fun _ => ⟨_, rfl, fun _ => ⟨_, rfl, fun _ => rfl⟩⟩⟩⟩
  | remove => exact ⟨_, rfl, fun _ => ⟨_, rfl, fun _ => rfl⟩⟩

/-- The stages before the write come to a write that suits the operation. -/
theorem draft_gives (c : Collection R) (ctx : Context R) (body : ByteArray) (k : Writing) :
    (c.draft ctx body k).Gives fun wr => wr.Suits k := by
  cases k with
  | create => exact fun _ _ _ _ _ _ => Writing.noConfusion
  | replace => exact fun _ _ _ _ _ _ _ _ => Writing.noConfusion
  | merge => exact fun _ _ _ _ _ _ _ _ _ => Writing.noConfusion
  | remove => exact fun _ _ => rfl

/-- **The stages after the write are in their order.** -/
theorem finish_follows (c : Collection R) {k : Writing} (ctx : Context R) {wr : Write R}
    (h : wr.Suits k) : (c.finish k ctx wr).Follows k.stagesAfter := by
  cases wr with
  | set r =>
      cases k with
      | remove => exact absurd rfl h
      | _ => exact ⟨_, rfl, fun _ => ⟨_, rfl, fun _ => rfl⟩⟩
  | delete id =>
      subst h
      exact ⟨_, rfl, fun _ => rfl⟩

/-! ## The stages around the write are harmless -/

theorem harmless_bind (c : Collection R) (ctx : Context R) (r : R) :
    (c.bind ctx r).Harmless (Event.Preparatory c.node) := by
  refine Action.Harmless.announced ?_ _
  rfl

theorem harmless_patch (c : Collection R) (r partialUpdate : R) :
    (c.patch r partialUpdate).Harmless (Event.Preparatory c.node) := by
  refine Action.Harmless.announced ?_ _
  rfl

theorem harmless_save (c : Collection R) (ctx : Context R) (r : R) :
    (c.save ctx r).Harmless (Event.Preparatory c.node) := by
  rw [save]
  cases c.hooks.onSave with
  | none => exact Action.Harmless.pure r
  | some hook =>
      refine Action.Harmless.announced ?_ _
      rfl

/-- The store of the API is read. -/
theorem harmless_get (c : Collection R) (id : String) :
    (Action.get c.node id : Action R _).Harmless (Event.Preparatory c.node) :=
  Action.Harmless.get rfl

theorem harmless_checkUnused (c : Collection R) (id : String) :
    (c.checkUnused id).Harmless (Event.Preparatory c.node) := by
  refine (c.harmless_get id).bind fun outcome => ?_
  rcases outcome with (_ | _) | r
  · exact Action.Harmless.pure ()
  · exact Action.Harmless.fail _
  · exact Action.Harmless.fail _

theorem harmless_createdAt (c : Collection R) (id : String) :
    (c.createdAt id).Harmless (Event.Preparatory c.node) := by
  refine (c.harmless_get id).bind fun outcome => ?_
  rcases outcome with (_ | _) | r
  · exact Action.Harmless.pure none
  · exact Action.Harmless.fail _
  · exact Action.Harmless.pure _

theorem harmless_identifyNew (c : Collection R) (r : R) :
    (c.identifyNew r).Harmless (Event.Preparatory c.node) := by
  have htime (r : R) : Action.Harmless (Event.Preparatory c.node) (do
      let t ← Action.now
      pure (c.kind.withIdentity r ⟨c.kind.id r, some t⟩) : Action R R) :=
    Action.Harmless.now.bind fun t => Action.Harmless.pure _
  rw [identifyNew]
  split
  · exact Action.Harmless.freshId.bind fun id => (Action.Harmless.pure _).bind htime
  · exact (c.harmless_checkUnused _).bind fun _ => (Action.Harmless.pure r).bind htime

theorem harmless_identifyAt (c : Collection R) (id : String) (r : R) :
    (c.identifyAt id r).Harmless (Event.Preparatory c.node) := by
  refine (c.harmless_createdAt id).bind fun created => ?_
  cases created with
  | some t => exact Action.Harmless.pure _
  | none => exact Action.Harmless.now.bind fun t => Action.Harmless.pure _

theorem harmless_runDeleteHook {P : Event → Prop} {event : Event} (h : P event)
    (hook : Option (Context R → String → Except ApiError Unit)) (ctx : Context R) (id : String) :
    (runDeleteHook hook event ctx id).Harmless P := by
  cases hook with
  | none => exact Action.Harmless.pure ()
  | some hook => exact Action.Harmless.announced h _

theorem harmless_readBody {P : Event → Prop} (c : Collection R) (body : ByteArray)
    {rest : R → Pipeline R α} (h : ∀ r, (rest r).Harmless P) : (c.readBody body rest).Harmless P :=
  ⟨Action.Harmless.lift _, fun _ => ⟨Action.Harmless.lift _, fun _ => ⟨Action.Harmless.lift _, h⟩⟩⟩

/-- **Nothing is written before the write**: the stages up to there only read the store of their API. -/
theorem draft_harmless (c : Collection R) (ctx : Context R) (body : ByteArray) (k : Writing) :
    (c.draft ctx body k).Harmless (Event.Preparatory c.node) := by
  cases k with
  | create =>
      refine c.harmless_readBody body fun r => ⟨c.harmless_identifyNew r, fun r => ?_⟩
      exact ⟨c.harmless_bind ctx r, fun r => ⟨c.harmless_save ctx r, fun _ => trivial⟩⟩
  | replace =>
      refine ⟨Action.Harmless.lift _, fun id => c.harmless_readBody body fun r => ?_⟩
      refine ⟨Action.Harmless.lift _, fun _ => ⟨c.harmless_bind ctx _, fun r => ?_⟩⟩
      exact ⟨c.harmless_identifyAt id r, fun r => ⟨c.harmless_save ctx r, fun _ => trivial⟩⟩
  | merge =>
      refine ⟨Action.Harmless.lift _, fun id => ⟨(c.harmless_get id).orFail, fun stored => ?_⟩⟩
      refine c.harmless_readBody body fun r => ⟨Action.Harmless.lift _, fun _ => ?_⟩
      refine ⟨c.harmless_bind ctx r, fun r => ⟨c.harmless_patch stored r, fun merged => ?_⟩⟩
      exact ⟨c.harmless_save ctx _, fun _ => trivial⟩
  | remove =>
      refine ⟨Action.Harmless.lift _, fun id => ⟨harmless_runDeleteHook ?_ _ ctx id, fun _ => trivial⟩⟩
      rfl

theorem harmless_rendered (c : Collection R) (ctx : Context R) (r : R) :
    (c.rendered ctx r).Harmless (Event.Closing c.node) := by
  rw [rendered]
  cases c.hooks.wrapper with
  | none =>
      refine Action.Harmless.announced ?_ _
      rfl
  | some wrap =>
      refine (Action.Harmless.emit ?_).bind fun _ => Action.Harmless.announced ?_ _
      · rfl
      · rfl

theorem harmless_serialized (c : Collection R) (ctx : Context R) (view : View) :
    (c.serialized ctx view).Harmless (Event.Closing c.node) := by
  rw [serialized]
  split
  · refine (Action.Harmless.emit ?_).bind fun _ => Payload.harmless_ofPage view view.page
    split <;> rfl
  · exact Payload.harmless_ofPage view none

/-- **Nothing is written after the write**: the stages from there only make the answer. -/
theorem finish_harmless (c : Collection R) (k : Writing) (ctx : Context R) (wr : Write R) :
    (c.finish k ctx wr).Harmless (Event.Closing c.node) := by
  cases wr with
  | set r =>
      exact ⟨c.harmless_rendered ctx r, fun view => ⟨c.harmless_serialized ctx view, fun _ => trivial⟩⟩
  | delete id =>
      refine ⟨harmless_runDeleteHook ?_ _ ctx id, fun _ => trivial⟩
      rfl

/-! ## The write -/

/-- The world right after a write. -/
def written (c : Collection R) (wr : Write R) (w : World R) : World R :=
  (w.called c.node (wr.call c.kind)).setStore c.node (wr.apply c.kind (w.stores c.node))

/-- **The write** is one logged call: it is applied to the store of its API, or it fails and changes no
store. -/
theorem commit_cases (c : Collection R) (wr : Write R) (env : Env) (w : World R) :
    c.commit wr env w = (.ok (), c.written wr w)
      ∨ ∃ e, c.commit wr env w = (.error (.api (.ofStorage e)), w.called c.node (wr.call c.kind)) := by
  cases wr with
  | set r =>
      rw [commit, store, Action.orFail, Action.bind_apply, Action.set_apply]
      cases h : env.outage c.node w.storeCalls (.set (c.kind.id r)) with
      | some e => exact Or.inr ⟨e, by simp [Write.call]⟩
      | none => exact Or.inl rfl
  | delete id =>
      rw [commit, Action.orFail, Action.bind_apply, Action.delete_apply]
      cases h : env.outage c.node w.storeCalls (.delete id) with
      | some e => exact Or.inr ⟨e, by simp [Write.call]⟩
      | none =>
          cases h' : (w.stores c.node).get? id with
          | some r => exact Or.inl rfl
          | none => exact Or.inr ⟨.notFound, by simp [Write.call]⟩

/-- Storing a resource is one set call, whose outage is the error of the write. -/
theorem commit_set_apply (c : Collection R) (r : R) (env : Env) (w : World R) :
    c.commit (.set r) env w = match env.outage c.node w.storeCalls (.set (c.kind.id r)) with
      | some e => (.error (.api (.ofStorage e)), w.called c.node (.set (c.kind.id r)))
      | none => (.ok (), c.written (.set r) w) := by
  rw [commit, store, Action.orFail, Action.bind_apply, Action.set_apply]
  cases env.outage c.node w.storeCalls (.set (c.kind.id r)) <;> rfl

end Collection

end ResourceTree
