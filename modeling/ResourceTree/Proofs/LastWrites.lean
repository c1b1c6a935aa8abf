import ResourceTree.Proofs.IdentityRuns
import ResourceTree.Proofs.RequestFrame

/-! # Reads after writes

A request that asks for JSON is answered with the document of a resource (`Kind.document`), whether it has just stored
the resource or fetches it. Along a run of requests to one API the store holds, under every ID, what the last committed
write on the ID has left there (`Collection.Serves.last_write`), since the committed writes are the history of the store
(`Collection.Serves.history`). So a fetch answers what the last writer has answered: `Collection.reads_last_write`. -/

namespace ResourceTree

variable {R : Type}

/-! ## Documents -/

/-- The JSON document that shows a resource: the value of what is rendered of it, with its members sorted. -/
def Kind.document (kind : Kind R) (ctx : Context R) (r : R) : Except ApiError Json :=
  kind.render ctx r >>= fun shown => (kind.toValue shown).mapError .internal

/-- The answer that is a document, or the error that there is none. -/
def Response.ofDocument (status : Nat) : Except ApiError Json → Response
  | .ok v => .json status v
  | .error e => .error e

namespace Collection

variable {c : Collection R} {ctx : Context R} {env : Env} {w w' : World R}

theorem answered_of_document {x : Action R Response} {status : Nat} {document : Except ApiError Json}
    (h : x env w = ((document.map (.json status)).mapError .api, w')) :
    x.answered env w = (.ok (.ofDocument status document), w') := by
  cases document with
  | ok v => exact Action.answered_of_ok h
  | error e => exact Action.answered_of_error h

/-- **An API without a wrapper shows documents** to requests that do not prefer pages. -/
theorem respond_document (hwrapper : c.hooks.wrapper = none) (hpage : ctx.acceptsHtml = false) (m : Method) (r : R)
    (env : Env) (w : World R) : c.respond ctx m r env w
      = (((c.kind.document ctx r).map (.json (c.codes.get m))).mapError .api,
        { w with log := w.log ++ [.render c.node] }) := by
  rw [respond, present, hwrapper]
  simp only [Payload.ofView_eq, hpage, Bool.and_false, Bool.false_eq_true, if_false, bind_assoc]
  refine (Action.bind_of_ok (Action.emit_apply _ env w) _).trans ?_
  rw [Kind.view, Kind.document]
  cases c.kind.render ctx r with
  | error e => rfl
  | ok shown =>
      have hvalue : ((Except.ok shown : Except ApiError R) >>= fun shown => (c.kind.toValue shown).mapError .internal)
          = ((c.kind.encode shown).map Json.sorted).mapError .internal := rfl
      rw [hvalue]
      simp only [Except.map, Action.lift_ok, pure_bind, Payload.ofPage]
      cases c.kind.encode shown <;> rfl

/-- A fetch shows the resource that is stored under the ID of the path, or says that there is none. -/
theorem fetch_document (hwrapper : c.hooks.wrapper = none) (hpage : ctx.acceptsHtml = false) {id : String}
    (hid : ctx.id? c.name = some id) (hresolved : ctx.resource? c.kind.name c.name = none)
    (hworks : env.outage c.node w.storeCalls (.get id) = none) :
    ∃ w', (c.fetch ctx).answered env w = (.ok (match (w.stores c.node).get? id with
      | some r => .ofDocument (c.codes.get .get) (c.kind.document ctx r)
      | none => .error .notFound), w') := by
  have hrequested : c.requested ctx env w
      = ((Action.found env w c.node id).mapError (.api ∘ .ofStorage), w.called c.node (.get id)) := by
    rw [requested_apply, hresolved, hid]
  rw [Action.found, hworks, Store.get] at hrequested
  cases hstored : (w.stores c.node).get? id with
  | none =>
      rw [hstored] at hrequested
      exact ⟨_, Action.answered_of_error (Action.bind_of_error hrequested _)⟩
  | some r =>
      rw [hstored] at hrequested
      exact ⟨_, answered_of_document
        ((Action.bind_of_ok hrequested _).trans (respond_document hwrapper hpage .get r env _))⟩

/-- **A request that has stored a resource shows it**, whatever else its hooks have done before. -/
theorem Commits.answer {k : Writing} {body : ByteArray} {r : R} (h : c.Commits k ctx body env w (.set r))
    (hwrapper : c.hooks.wrapper = none) (hpage : ctx.acceptsHtml = false) :
    ∃ w', (c.handle k.operation ctx body).answered env w
      = (.ok (.ofDocument (c.codes.get k.operation.method) (c.kind.document ctx r)), w') := by
  obtain ⟨w₂, w₁, hpass, hcommit⟩ := h
  have hrun : c.handle k.operation ctx body env w = c.respond ctx k.operation.method r env w₂ := by
    rw [handle_eq_stages, Action.bind_of_ok (Pipeline.run_of_passes hpass), Action.bind_of_ok hcommit, run_finish_set]
  exact ⟨_, answered_of_document (hrun.trans (respond_document hwrapper hpage k.operation.method r env w₂))⟩

/-- A replacement writes under the ID of the path. -/
theorem pathId_of_replace {body : ByteArray} {wr : Write R} (h : (c.draft ctx body .replace).Passes env w wr w') :
    c.pathId ctx = .ok (wr.id c.kind) := by
  obtain ⟨id, w₁, hid, hbody⟩ := h
  obtain ⟨hpath, rfl⟩ := Action.lift_eq_ok.mp hid
  obtain ⟨posted, -, u, w₂, -, bound, w₃, -, r, w₄, hidentify, hooked, w₅, -, rfl, -⟩ := readBody_passes.mp hbody
  -- whenever the resource was created, it is identified by the ID
  have hr : c.kind.id r = id := by
    obtain ⟨created, w₆, -, htime⟩ := Action.bind_eq_ok.mp hidentify
    cases created with
    | some t =>
        cases htime
        rw [Kind.id, Kind.identity_withIdentity]
    | none =>
        cases htime
        rw [Kind.id, Kind.identity_withIdentity]
  rw [hpath, restored, Write.id, Kind.id, Kind.identity_withIdentity, ← hr, Kind.id]

/-! ## Requests to one API -/

/-- **An API and a variant of it** that may have other hooks, and may bind and patch in another way. -/
structure Variant (c d : Collection R) : Prop where
  node : d.node = c.node
  identity : d.kind.identity = c.kind.identity
  render : d.kind.render = c.kind.render
  encode : d.kind.encode = c.kind.encode
  wrapper : d.hooks.wrapper = none

variable {d : Collection R}

theorem Variant.id_eq (h : c.Variant d) (r : R) : d.kind.id r = c.kind.id r := by rw [Kind.id, Kind.id, h.identity]

theorem Variant.writeId_eq (h : c.Variant d) (wr : Write R) : wr.id d.kind = wr.id c.kind := by
  cases wr with
  | set r => exact h.id_eq r
  | delete id => rfl

theorem Variant.apply_eq (h : c.Variant d) (s : Store R) (wr : Write R) : wr.apply d.kind s = wr.apply c.kind s := by
  cases wr with
  | set r => rw [Write.apply, Write.apply, h.id_eq]
  | delete id => rfl

/-- A variant shows the same documents, in the context of any request if rendering does not depend on it. -/
theorem Variant.document_eq (h : c.Variant d) (hrender : ∀ ctx ctx' r, c.kind.render ctx r = c.kind.render ctx' r)
    (ctx ctx' : Context R) (r : R) : d.kind.document ctx r = c.kind.document ctx' r := by
  have hvalue : d.kind.toValue = c.kind.toValue := by
    funext shown
    rw [Kind.toValue, Kind.toValue, h.encode]
  rw [Kind.document, Kind.document, hvalue, h.render, hrender ctx ctx']

/-- **Requests to an API** that has nothing stored at first. They may come with their own hooks, since what a hook does
may differ from one request to another. -/
structure Serves (c : Collection R) (w₀ : World R) (visits : List (Visit R)) : Prop where
  empty : w₀.stores c.node = .empty
  variant : ∀ v ∈ visits, c.Variant v.api

end Collection

/-! ## Committed writes -/

/-- The answer to a request. -/
def Visit.Answers (v : Visit R) (env : Env) (w : World R) (response : Response) : Prop :=
  ∃ w', (v.api.handle v.op v.ctx v.body).answered env w.nextRequest = (.ok response, w')

/-- The write that a request commits. -/
def Visit.Commits (v : Visit R) (env : Env) (w : World R) (wr : Write R) : Prop :=
  ∃ k : Writing, v.op = k.operation ∧ v.api.Commits k v.ctx v.body env w.nextRequest wr

theorem Writing.operation_injective {k k' : Writing} (h : k.operation = k'.operation) : k = k' := by
  cases k <;> cases k' <;> first | rfl | cases h

namespace Visit

variable {c : Collection R} {v : Visit R} {env : Env} {w : World R} {wr wr' : Write R}

theorem Commits.unique (h : v.Commits env w wr) (h' : v.Commits env w wr') : wr = wr' := by
  obtain ⟨k, hop, hcommits⟩ := h
  obtain ⟨k', hop', hcommits'⟩ := h'
  cases Writing.operation_injective (hop.symm.trans hop')
  exact hcommits.unique hcommits'

/-- A writing operation changes the store by the write that it commits, if any. -/
theorem stores_after_writing (h : c.Variant v.api) {k : Writing} (hop : v.op = k.operation) (env : Env) (w : World R) :
    (∃ wr, v.Commits env w wr ∧ (v.after env w).stores c.node = wr.apply c.kind (w.stores c.node))
      ∨ (∀ wr, ¬v.Commits env w wr) ∧ (v.after env w).stores c.node = w.stores c.node := by
  obtain ⟨response, w', hanswer, hending⟩ := v.api.handle_ending k v.ctx v.body env w.nextRequest
  have hafter : v.after env w = w' := by rw [after, hop, hanswer]
  rw [hafter]
  rcases hending.stores with ⟨wr, hcommits, hstores⟩ | ⟨hnone, hstores⟩
  · refine Or.inl ⟨wr, ⟨k, hop, hcommits⟩, ?_⟩
    rw [hstores, ← h.apply_eq, ← h.node, World.stores_setStore, if_pos rfl]
    rfl
  · refine Or.inr ⟨fun wr hcommits => ?_, by rw [hstores]; rfl⟩
    obtain ⟨k', hop', hcommits⟩ := hcommits
    cases Writing.operation_injective (hop.symm.trans hop')
    exact hnone ⟨wr, hcommits⟩

/-- A reading operation commits nothing. -/
theorem stores_after_reading (hreads : ∀ k : Writing, v.op ≠ k.operation)
    (hharmless : (v.api.handle v.op v.ctx v.body).Harmless (Event.Reading v.api.node)) (env : Env) (w : World R) :
    (∀ wr, ¬v.Commits env w wr) ∧ (v.after env w).stores c.node = w.stores c.node := by
  refine ⟨fun wr hcommits => ?_, congrFun (hharmless.answered.stores env w.nextRequest) c.node⟩
  obtain ⟨k, hop, -⟩ := hcommits
  exact hreads k hop

/-- **A request changes the store of its API by the write that it commits**, and not at all if it commits none. -/
theorem stores_after (h : c.Variant v.api) (env : Env) (w : World R) :
    (∃ wr, v.Commits env w wr ∧ (v.after env w).stores c.node = wr.apply c.kind (w.stores c.node))
      ∨ (∀ wr, ¬v.Commits env w wr) ∧ (v.after env w).stores c.node = w.stores c.node := by
  cases hop : v.op with
  | list =>
      refine Or.inr (stores_after_reading (fun k => ?_) (by rw [hop]; exact v.api.list_harmless v.ctx) env w)
      cases k <;> simp [hop, Writing.operation]
  | fetch =>
      refine Or.inr (stores_after_reading (fun k => ?_) (by rw [hop]; exact v.api.fetch_harmless v.ctx) env w)
      cases k <;> simp [hop, Writing.operation]
  | create => exact stores_after_writing h (k := .create) hop env w
  | replace => exact stores_after_writing h (k := .replace) hop env w
  | merge => exact stores_after_writing h (k := .merge) hop env w
  | remove => exact stores_after_writing h (k := .remove) hop env w

/-- **A request for one resource writes under the ID of its path**, if every entry is stored under its own ID. -/
theorem Commits.pathId (h : v.Commits env w wr) (hitem : v.op.onItem = true)
    (hkeyed : v.api.KeyedById (w.stores v.api.node)) : v.ctx.id? v.api.name = some (wr.id v.api.kind) := by
  obtain ⟨k, hop, w₂, w₁, hpass, -⟩ := h
  rw [hop] at hitem
  cases k with
  | create => cases hitem
  | replace => exact Collection.id?_of_pathId (Collection.pathId_of_replace hpass)
  | merge =>
      obtain ⟨id, old, r, hpath, hold, rfl, hidentity⟩ := Collection.merge_passes hpass
      have hid : v.api.kind.id r = id := by
        rw [Kind.id, hidentity]
        exact hkeyed id old hold
      rw [Collection.id?_of_pathId hpath, Write.id, hid]
  | remove =>
      obtain ⟨id, hpath, rfl⟩ := Collection.remove_passes hpass
      exact Collection.id?_of_pathId hpath

end Visit

/-! ## Last writes -/

/-- The write that is committed by the request number `k` of a run. -/
def CommitsAt (env : Env) (w₀ : World R) (visits : List (Visit R)) (k : Nat) (wr : Write R) : Prop :=
  ∃ v, visits[k]? = some v ∧ v.Commits env (stateAt env w₀ visits k) wr

/-- **The last write on an ID** among those that the first `n` requests of a run commit. -/
structure LastWrite (kind : Kind R) (env : Env) (w₀ : World R) (visits : List (Visit R)) (id : String) (n k : Nat)
    (wr : Write R) : Prop where
  before : k < n
  commits : CommitsAt env w₀ visits k wr
  on : wr.id kind = id
  last : ∀ m wr', k < m → m < n → CommitsAt env w₀ visits m wr' → wr'.id kind ≠ id

section Runs

variable {c : Collection R} {env : Env} {w₀ : World R} {visits : List (Visit R)} {id : String} {n k : Nat}
  {wr : Write R}

theorem CommitsAt.unique {wr' : Write R} (h : CommitsAt env w₀ visits k wr) (h' : CommitsAt env w₀ visits k wr') :
    wr = wr' := by
  obtain ⟨v, hv, hcommits⟩ := h
  obtain ⟨v', hv', hcommits'⟩ := h'
  cases hv.symm.trans hv'
  exact hcommits.unique hcommits'

/-- The last write is the newest of those that are committed. -/
theorem lastWrite_iff_newest {kind : Kind R} :
    LastWrite kind env w₀ visits id n k wr ↔ Newest kind (CommitsAt env w₀ visits) id n k wr :=
  ⟨fun h => ⟨h.before, h.commits, h.on, h.last⟩, fun h => ⟨h.before, h.happens, h.on, h.last⟩⟩

namespace Collection.Serves

/-- One request more changes the store by the write that it commits. -/
theorem step (h : c.Serves w₀ visits) (env : Env) (k : Nat) :
    (∃ wr, CommitsAt env w₀ visits k wr
        ∧ (stateAt env w₀ visits (k + 1)).stores c.node = wr.apply c.kind ((stateAt env w₀ visits k).stores c.node))
      ∨ (∀ wr, ¬CommitsAt env w₀ visits k wr)
        ∧ (stateAt env w₀ visits (k + 1)).stores c.node = (stateAt env w₀ visits k).stores c.node := by
  cases hv : visits[k]? with
  | none =>
      refine Or.inr ⟨fun wr hcommits => ?_, by rw [stateAt_succ_of_none hv]⟩
      obtain ⟨v, hv', -⟩ := hcommits
      cases hv.symm.trans hv'
  | some v =>
      rw [stateAt_succ hv]
      rcases v.stores_after (h.variant v (List.mem_of_getElem? hv)) env (stateAt env w₀ visits k) with
        ⟨wr, hcommits, hstore⟩ | ⟨hnone, hstore⟩
      · exact Or.inl ⟨wr, ⟨v, hv, hcommits⟩, hstore⟩
      · refine Or.inr ⟨fun wr hcommits => ?_, hstore⟩
        obtain ⟨v', hv', hcommits⟩ := hcommits
        cases hv.symm.trans hv'
        exact hnone wr hcommits

/-- **The committed writes are the history of the store.** -/
theorem history (h : c.Serves w₀ visits) (env : Env) :
    Store.History c.kind (CommitsAt env w₀ visits) fun n => (stateAt env w₀ visits n).stores c.node where
  empty := h.empty
  unique _ _ _ hcommits hcommits' := hcommits.unique hcommits'
  step k := h.step env k

/-- The store holds what the last write has left. -/
theorem last_write (h : c.Serves w₀ visits) (env : Env) (id : String) (n : Nat) :
    (∃ k wr, LastWrite c.kind env w₀ visits id n k wr
        ∧ ((stateAt env w₀ visits n).stores c.node).get? id = wr.resource?)
      ∨ (∀ k wr, k < n → CommitsAt env w₀ visits k wr → wr.id c.kind ≠ id)
        ∧ ((stateAt env w₀ visits n).stores c.node).get? id = none := by
  simp only [lastWrite_iff_newest]
  exact (h.history env).newest_or_never id n

/-- Every entry is stored under its own ID. -/
theorem keyed (h : c.Serves w₀ visits) (env : Env) (n : Nat) :
    c.KeyedById ((stateAt env w₀ visits n).stores c.node) :=
  fun _ _ hr => (((h.history env).keyedBy n).get?_eq_some_iff.mp hr).2

/-- The last write on an ID says what is stored there. -/
theorem get?_of_last (h : c.Serves w₀ visits) (hlast : LastWrite c.kind env w₀ visits id n k wr) :
    ((stateAt env w₀ visits n).stores c.node).get? id = wr.resource? :=
  (h.history env).get?_of_newest (lastWrite_iff_newest.mp hlast)

/-- Nothing is stored where no resource was ever written. -/
theorem get?_of_never (h : c.Serves w₀ visits)
    (hnever : ∀ k r, k < n → CommitsAt env w₀ visits k (.set r) → c.kind.id r ≠ id) :
    ((stateAt env w₀ visits n).stores c.node).get? id = none :=
  (h.history env).get?_eq_none fun k r hnewest => hnever k r hnewest.before hnewest.happens hnewest.on

/-- An ID was never written, or the last write on it has deleted or stored a resource. -/
theorem gone_or_stored (h : c.Serves w₀ visits) (env : Env) (id : String) (n : Nat) :
    (∀ k r, k < n → CommitsAt env w₀ visits k (.set r) → c.kind.id r ≠ id)
      ∨ (∃ k, LastWrite c.kind env w₀ visits id n k (.delete id))
      ∨ ∃ k r, LastWrite c.kind env w₀ visits id n k (.set r) := by
  rcases h.last_write env id n with ⟨k, wr, hlast, -⟩ | ⟨hnever, -⟩
  · cases wr with
    | set r => exact Or.inr (Or.inr ⟨k, r, hlast⟩)
    | delete other =>
        cases hlast.on
        exact Or.inr (Or.inl ⟨k, hlast⟩)
  · exact Or.inl fun k r hk hcommits => hnever k _ hk hcommits

/-- The request that has stored a resource has answered its document, in whatever context it is read later. -/
theorem writer_answers (h : c.Serves w₀ visits) (hrender : ∀ ctx ctx' r, c.kind.render ctx r = c.kind.render ctx' r)
    {r : R} (hcommits : CommitsAt env w₀ visits k (.set r)) (ctx : Context R) {v : Visit R} (hv : visits[k]? = some v)
    (hjson : v.ctx.acceptsHtml = false) :
    v.Answers env (stateAt env w₀ visits k) (.ofDocument (v.api.codes.get v.op.method) (c.kind.document ctx r)) := by
  obtain ⟨v', hv', writing, hop, hcommits⟩ := hcommits
  cases hv.symm.trans hv'
  have hvariant := h.variant v (List.mem_of_getElem? hv)
  rw [Visit.Answers, hop, ← hvariant.document_eq hrender v.ctx ctx r]
  exact hcommits.answer hvariant.wrapper hjson

/-- A request on one resource writes under the ID of its path. -/
theorem writes_pathId (h : c.Serves w₀ visits) {v : Visit R} (hv : visits[k]? = some v)
    (hcommits : CommitsAt env w₀ visits k wr) (hitem : v.op.onItem = true) :
    v.ctx.id? v.api.name = some (wr.id c.kind) := by
  obtain ⟨v', hv', hcommits⟩ := hcommits
  cases hv.symm.trans hv'
  have hvariant := h.variant v (List.mem_of_getElem? hv)
  rw [← hvariant.writeId_eq]
  refine hcommits.pathId hitem fun id r hr => ?_
  rw [hvariant.node] at hr
  rw [hvariant.id_eq]
  exact h.keyed env k id r hr

end Collection.Serves

/-- **Reads give the last committed write.** Any requests are made to an API without a wrapper whose rendering does not
depend on the request, from nothing stored on. Then a fetch that asks for JSON says that there is no resource, if none
was ever written under the ID or if the last write on it has deleted one. If the last write has stored one, the fetch
answers its document, which the request that has stored it has answered too if it asked for JSON, or both answer the
error that there is no document. There is no other case. A committed request on one resource has written under the ID of
its path. -/
theorem Collection.reads_last_write (hwrapper : c.hooks.wrapper = none)
    (hrender : ∀ ctx ctx' r, c.kind.render ctx r = c.kind.render ctx' r) (hserves : c.Serves w₀ visits) (n : Nat)
    {ctx : Context R} (hid : ctx.id? c.name = some id) (hpage : ctx.acceptsHtml = false)
    (hresolved : ctx.resource? c.kind.name c.name = none)
    (hworks : env.outage c.node (stateAt env w₀ visits n).storeCalls (.get id) = none) (body : ByteArray) :
    ((∀ k r, k < n → CommitsAt env w₀ visits k (.set r) → c.kind.id r ≠ id)
        ∨ (∃ k, LastWrite c.kind env w₀ visits id n k (.delete id)) →
      Visit.Answers ⟨c, .fetch, ctx, body⟩ env (stateAt env w₀ visits n) (.error .notFound))
    ∧ (∀ k r, LastWrite c.kind env w₀ visits id n k (.set r) →
      Visit.Answers ⟨c, .fetch, ctx, body⟩ env (stateAt env w₀ visits n)
          (.ofDocument (c.codes.get .get) (c.kind.document ctx r))
        ∧ ∀ v, visits[k]? = some v → v.ctx.acceptsHtml = false →
          v.Answers env (stateAt env w₀ visits k)
            (.ofDocument (v.api.codes.get v.op.method) (c.kind.document ctx r)))
    ∧ ((∀ k r, k < n → CommitsAt env w₀ visits k (.set r) → c.kind.id r ≠ id)
      ∨ (∃ k, LastWrite c.kind env w₀ visits id n k (.delete id))
      ∨ ∃ k r, LastWrite c.kind env w₀ visits id n k (.set r))
    ∧ ∀ k v wr, visits[k]? = some v → CommitsAt env w₀ visits k wr → v.op.onItem = true →
      v.ctx.id? v.api.name = some (wr.id c.kind) := by
  have hfetch := fetch_document (w := (stateAt env w₀ visits n).nextRequest) hwrapper hpage hid hresolved hworks
  refine ⟨fun hgone => ?_, fun k r hlast => ⟨?_, fun v => hserves.writer_answers hrender hlast.commits ctx⟩,
    hserves.gone_or_stored env id n, fun k v wr => hserves.writes_pathId⟩
  · have hnone : ((stateAt env w₀ visits n).nextRequest.stores c.node).get? id = none := by
      rcases hgone with hnever | ⟨k, hlast⟩
      · exact hserves.get?_of_never hnever
      · exact hserves.get?_of_last hlast
    rw [hnone] at hfetch
    exact hfetch
  · have hstored : ((stateAt env w₀ visits n).nextRequest.stores c.node).get? id = some r :=
      hserves.get?_of_last hlast
    rw [hstored] at hfetch
    exact hfetch

end Runs

/-- A request for the note `n`. -/
def noteContext : Context Record := .ofRequest ⟨.get, "/notes/n", none, [], .empty⟩ [("notes_id", "n")] []

/-- The note that is left by two requests whose hook would move it elsewhere is the one that a fetch shows. -/
theorem Collection.reads_last_write_usurped :
    LastWrite usurped.kind (Env.quiet "n") World.initial usurpedVisits "n" 2 1 (.set ⟨⟨"n", some ⟨0, 0⟩⟩, []⟩)
      ∧ Visit.Answers ⟨usurped, .fetch, noteContext, .empty⟩ (Env.quiet "n")
        (stateAt (Env.quiet "n") World.initial usurpedVisits 2)
        (.ofDocument 200 (usurped.kind.document noteContext ⟨⟨"n", some ⟨0, 0⟩⟩, []⟩)) := by
  have hserves : usurped.Serves World.initial usurpedVisits :=
    { empty := rfl
      variant := by
        intro v hv
        simp only [usurpedVisits, List.mem_cons, List.not_mem_nil, or_false] at hv
        rcases hv with rfl | rfl
        · exact ⟨rfl, rfl, rfl, rfl, rfl⟩
        · exact ⟨rfl, rfl, rfl, rfl, rfl⟩ }
  have hlast : LastWrite usurped.kind (Env.quiet "n") World.initial usurpedVisits "n" 2 1
      (.set ⟨⟨"n", some ⟨0, 0⟩⟩, []⟩) :=
    { before := by decide
      commits := ⟨_, rfl, .replace, rfl, _, _, Pipeline.passes_of_run (by cbv), rfl⟩
      on := rfl
      last := fun m wr' hkm hm => by omega }
  have hid : noteContext.id? usurped.name = some "n" := rfl
  have hworks : (Env.quiet "n").outage usurped.node
      (stateAt (Env.quiet "n") World.initial usurpedVisits 2).storeCalls (.get "n") = none := rfl
  obtain ⟨-, hreads, -⟩ :=
    Collection.reads_last_write rfl (fun _ _ _ => rfl) hserves 2 hid rfl rfl hworks .empty
  exact ⟨hlast, (hreads 1 _ hlast).1⟩

end ResourceTree
