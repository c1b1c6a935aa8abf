import ResourceTree.Proofs.LastWrites
import ResourceTree.Proofs.Redaction

/-! # What a replacement reads

A replacement reads the entry that it replaces, but for one thing only: when that was created. Everything else that it
does runs by a script (`Action.Scripted`), which does not know what is stored. So with the same times of creation two
replacements come to the same end and to the same write (`Collection.replace_same`), and nothing of a replaced resource
but its time of creation is left in the answer or in the store: `replace_forgets`. -/

namespace ResourceTree

variable {R α β : Type}

/-! ## Scripts -/

namespace Action

/-- **An action that runs by a script**: whatever is stored, it comes to the same outcome and logs the same events, and
it touches nothing else. -/
def Scripted (x : Action R α) : Prop :=
  ∃ outcome events, ∀ env w, x env w = (outcome, { w with log := w.log ++ events })

namespace Scripted

protected theorem pure (a : α) : Scripted (pure a : Action R α) := ⟨.ok a, [], fun env w => by simp⟩

theorem fail (e : ApiError) : Scripted (fail e : Action R α) := ⟨.error (.api e), [], fun env w => by simp⟩

theorem lift (x : Except ApiError α) : Scripted (lift x : Action R α) := by
  cases x with
  | ok a => exact .pure a
  | error e => exact fail e

theorem emit (e : Event) : Scripted (emit e : Action R Unit) := ⟨.ok (), [e], fun _ _ => rfl⟩

theorem bind {x : Action R α} {f : α → Action R β} (hx : Scripted x) (hf : ∀ a, Scripted (f a)) :
    Scripted (x >>= f) := by
  obtain ⟨outcome, events, hx⟩ := hx
  cases outcome with
  | error e => exact ⟨.error e, events, fun env w => bind_of_error (hx env w) f⟩
  | ok a =>
      obtain ⟨outcome, more, hf⟩ := hf a
      refine ⟨outcome, events ++ more, fun env w => ?_⟩
      rw [bind_of_ok (hx env w), hf, List.append_assoc]

/-- A script comes to the same end everywhere, and so does what it follows upon if that comes to the same end. -/
theorem bind_outcome {x : Action R α} {f : α → Action R β} (hf : ∀ a, Scripted (f a)) {env env' : Env} {w w' : World R}
    (hx : (x env w).1 = (x env' w').1) : ((x >>= f) env w).1 = ((x >>= f) env' w').1 := by
  rcases hxw : x env w with ⟨outcome, w₁⟩
  rcases hxw' : x env' w' with ⟨outcome', w₁'⟩
  rw [hxw, hxw'] at hx
  obtain rfl : outcome = outcome' := hx
  cases outcome with
  | error e => rw [bind_of_error hxw, bind_of_error hxw']
  | ok a =>
      obtain ⟨outcome, events, hf⟩ := hf a
      rw [bind_of_ok hxw, bind_of_ok hxw', hf, hf]

end Scripted

end Action

open ResourceTree.Action (Scripted)

theorem Payload.scripted_ofView (ctx : Context R) (allowPage : Bool) (rendered asked : Event)
    (view : Except ApiError View) : Scripted (ofView ctx allowPage rendered asked view : Action R Payload) := by
  have hpage (view : View) (page : Option String) : Scripted (ofPage view page : Action R Payload) := by
    cases page with
    | some text => exact .pure _
    | none =>
        rw [ofPage]
        cases view.json with
        | ok value => exact .pure _
        | error reason => exact .fail _
  rw [ofView_eq]
  refine .bind (.emit _) fun _ => .bind (.lift view) fun view => ?_
  split
  · exact .bind (.emit _) fun _ => hpage _ _
  · exact hpage _ _

namespace Collection

variable {c : Collection R} {ctx : Context R} {body : ByteArray} {env env' : Env} {w w' : World R}

theorem scripted_bind (c : Collection R) (ctx : Context R) (r : R) : Scripted (c.bind ctx r) :=
  .bind (.emit _) fun _ => .lift _

theorem scripted_save (c : Collection R) (ctx : Context R) (r : R) : Scripted (c.save ctx r) := by
  rw [save]
  cases c.hooks.onSave with
  | none => exact .pure r
  | some hook => exact .bind (.emit _) fun _ => .lift _

/-- What follows upon the write is a script. -/
theorem scripted_finish (c : Collection R) (k : Writing) (ctx : Context R) (wr : Write R) :
    Scripted (c.finish k ctx wr).run := by
  cases wr with
  | set r =>
      have hpresent : Scripted (c.present ctx true r) := by
        rw [present]
        cases c.hooks.wrapper with
        | none => exact Payload.scripted_ofView ctx true _ _ _
        | some wrap => exact .bind (.emit _) fun _ => Payload.scripted_ofView ctx true _ _ _
      rw [run_finish_set]
      exact hpresent.bind fun _ => .pure _
  | delete id =>
      have hhook : Scripted (runDeleteHook c.hooks.afterDelete (.afterDelete c.node id) ctx id) := by
        cases c.hooks.afterDelete with
        | none => exact .pure ()
        | some hook => exact .bind (.emit _) fun _ => .lift _
      exact hhook.bind fun _ => .pure _

/-! ## Times of creation -/

/-- **The time of creation that a replacement settles**: that of the stored resource, or now. -/
def creationTime (c : Collection R) (env : Env) (w : World R) (id : String) : Except ApiError Timestamp :=
  match Action.found env w c.node id with
  | .ok old => .ok ((c.kind.identity old).createdAt.getD (env.now w.looksAtClock))
  | .error .notFound => .ok (env.now w.looksAtClock)
  | .error e => .error (.ofStorage e)

/-- Settling the identity is one call, which comes to the time of creation. -/
theorem identifyAt_apply (c : Collection R) (id : String) (bound : R) (env : Env) (w : World R) :
    ∃ w₁, c.identifyAt id bound env w = (((c.creationTime env w id).map fun t =>
        c.kind.withIdentity bound ⟨id, some t⟩).mapError .api, w₁)
      ∧ w₁.stores = w.stores ∧ w₁.storeCalls = w.storeCalls + 1 := by
  have hget := Action.get_apply c.node id env w
  rw [creationTime, identifyAt, createdAt, bind_assoc, Action.bind_of_ok hget]
  rcases Action.found env w c.node id with (_ | e) | old
  · exact ⟨{ w.called c.node (.get id) with looksAtClock := w.looksAtClock + 1 }, rfl, rfl, rfl⟩
  · exact ⟨w.called c.node (.get id), rfl, rfl, rfl⟩
  · simp only [pure_bind]
    cases ht : (c.kind.identity old).createdAt with
    | none => exact ⟨{ w.called c.node (.get id) with looksAtClock := w.looksAtClock + 1 }, rfl, rfl, rfl⟩
    | some t => exact ⟨w.called c.node (.get id), rfl, rfl, rfl⟩

/-! ## Two replacements -/

/-- What a replacement does before it reads what is stored: it binds a resource for the ID of the path. -/
def boundFor (c : Collection R) (ctx : Context R) (body : ByteArray) : Action R (String × R) := do
  let id ← Action.lift (c.pathId ctx)
  let r ← Action.lift (c.bindBody body)
  Action.lift (c.checkBodyId r id)
  let bound ← c.bind ctx (c.kind.withId r id)
  return (id, bound)

theorem scripted_boundFor (c : Collection R) (ctx : Context R) (body : ByteArray) : Scripted (c.boundFor ctx body) :=
  .bind (.lift _) fun _ => .bind (.lift _) fun _ => .bind (.lift _) fun _ => (c.scripted_bind ctx _).bind fun _ =>
    .pure _

theorem id?_of_boundFor {id : String} {bound : R} (h : c.boundFor ctx body env w = (.ok (id, bound), w')) :
    ctx.id? c.name = some id := by
  obtain ⟨id', w₁, hid, h⟩ := Action.bind_eq_ok.mp h
  obtain ⟨r, w₂, -, h⟩ := Action.bind_eq_ok.mp h
  obtain ⟨u, w₃, -, h⟩ := Action.bind_eq_ok.mp h
  obtain ⟨bound', w₄, -, h⟩ := Action.bind_eq_ok.mp h
  cases h
  exact id?_of_pathId (Action.lift_eq_ok.mp hid).1

/-- **A replacement reads what is stored between two scripts**, to settle the identity. -/
theorem run_draft_replace (c : Collection R) (ctx : Context R) (body : ByteArray) :
    (c.draft ctx body .replace).run = (do
      let (id, bound) ← c.boundFor ctx body
      let r ← c.identifyAt id bound
      let hooked ← c.save ctx r
      return c.restored r hooked) := by
  simp only [draft, Pipeline.run, run_readBody, boundFor, bind_assoc, pure_bind]

/-- **With the same times of creation two drafts come to the same write**, or fail with the same error. -/
theorem draft_same (htime : ∀ id, ctx.id? c.name = some id → c.creationTime env w id = c.creationTime env' w' id)
    (body : ByteArray) :
    ∃ outcome w₁ w₁', (c.draft ctx body .replace).run env w = (outcome, w₁)
      ∧ (c.draft ctx body .replace).run env' w' = (outcome, w₁')
      ∧ ∀ wr, outcome = .ok wr → w₁.storeCalls = w.storeCalls + 1 ∧ w₁'.storeCalls = w'.storeCalls + 1 := by
  rw [run_draft_replace]
  obtain ⟨outcome, events, hbound⟩ := c.scripted_boundFor ctx body
  cases outcome with
  | error e => exact ⟨_, _, _, Action.bind_of_error (hbound env w) _, Action.bind_of_error (hbound env' w') _, nofun⟩
  | ok bound =>
      obtain ⟨id, bound⟩ := bound
      have hid := id?_of_boundFor (hbound env w)
      rw [Action.bind_of_ok (hbound env w), Action.bind_of_ok (hbound env' w')]
      obtain ⟨w₁, hidentify, -, hcalls⟩ := c.identifyAt_apply id bound env { w with log := w.log ++ events }
      obtain ⟨w₁', hidentify', -, hcalls'⟩ := c.identifyAt_apply id bound env' { w' with log := w'.log ++ events }
      -- the log does not matter for the time of creation
      have hsettled : c.creationTime env { w with log := w.log ++ events } id
          = c.creationTime env' { w' with log := w'.log ++ events } id := htime id hid
      rw [hsettled] at hidentify
      cases ht : c.creationTime env' { w' with log := w'.log ++ events } id with
      | error e =>
          rw [ht] at hidentify hidentify'
          exact ⟨_, _, _, Action.bind_of_error hidentify _, Action.bind_of_error hidentify' _, nofun⟩
      | ok t =>
          rw [ht] at hidentify hidentify'
          obtain ⟨outcome, more, hsave⟩ := c.scripted_save ctx (c.kind.withIdentity bound ⟨id, some t⟩)
          refine ⟨outcome.map (c.restored (c.kind.withIdentity bound ⟨id, some t⟩)), { w₁ with log := w₁.log ++ more },
            { w₁' with log := w₁'.log ++ more }, ?_, ?_, fun wr _ => ⟨hcalls, hcalls'⟩⟩
          · refine (Action.bind_of_ok hidentify _).trans ?_
            cases outcome with
            | error e => exact Action.bind_of_error (hsave env w₁) _
            | ok hooked => exact Action.bind_of_ok (hsave env w₁) _
          · refine (Action.bind_of_ok hidentify' _).trans ?_
            cases outcome with
            | error e => exact Action.bind_of_error (hsave env' w₁') _
            | ok hooked => exact Action.bind_of_ok (hsave env' w₁') _

theorem commits_iff_of_run {k : Writing} {outcome : Except Failure (Write R)} {w₁ : World R}
    (hrun : (c.draft ctx body k).run env w = (outcome, w₁)) (wr : Write R) :
    c.Commits k ctx body env w wr ↔ outcome = .ok wr ∧ (c.commit wr env w₁).1 = .ok () := by
  constructor
  · rintro ⟨w₂, w₀, hpass, hcommit⟩
    cases hrun.symm.trans (Pipeline.run_of_passes hpass)
    exact ⟨rfl, congrArg Prod.fst hcommit⟩
  · rintro ⟨rfl, hcommit⟩
    exact ⟨_, w₁, Pipeline.passes_of_run hrun, Prod.ext hcommit rfl⟩

/-- **Replacements that settle the same time of creation do the same**: they come to the same end, and they commit the
same write or none. -/
theorem replace_same (htime : ∀ id, ctx.id? c.name = some id → c.creationTime env w id = c.creationTime env' w' id)
    (houtage : ∀ id, ctx.id? c.name = some id →
      env.outage c.node (w.storeCalls + 1) (.set id) = env'.outage c.node (w'.storeCalls + 1) (.set id))
    (body : ByteArray) : (c.handle .replace ctx body env w).1 = (c.handle .replace ctx body env' w').1
      ∧ ∀ wr, c.Commits .replace ctx body env w wr ↔ c.Commits .replace ctx body env' w' wr := by
  obtain ⟨outcome, w₁, w₁', hrun, hrun', hcalls⟩ := draft_same htime body
  -- the write is one call in both
  have hcommit : ∀ wr, outcome = .ok wr → (c.commit wr env w₁).1 = (c.commit wr env' w₁').1 := by
    rintro wr rfl
    have hpass := Pipeline.passes_of_run hrun
    obtain ⟨hw₁, hw₁'⟩ := hcalls wr rfl
    cases wr with
    | delete id => cases hpass.gives (c.draft_gives ctx body .replace)
    | set r =>
        have hsame : env.outage c.node (w.storeCalls + 1) (.set (c.kind.id r)) = _ :=
          houtage _ (id?_of_pathId (pathId_of_replace hpass))
        rw [commit_set_apply, commit_set_apply, hw₁, hw₁', hsame]
        cases env'.outage c.node (w'.storeCalls + 1) (.set (c.kind.id r)) <;> rfl
  refine ⟨?_, fun wr => ?_⟩
  · have hstages : c.handle .replace ctx body = _ := c.handle_eq_stages .replace ctx body
    rw [hstages]
    cases outcome with
    | error e => rw [Action.bind_of_error hrun, Action.bind_of_error hrun']
    | ok wr =>
        rw [Action.bind_of_ok hrun, Action.bind_of_ok hrun']
        exact Scripted.bind_outcome (fun _ => c.scripted_finish .replace ctx wr) (hcommit wr rfl)
  · rw [commits_iff_of_run hrun, commits_iff_of_run hrun']
    exact and_congr_right fun houtcome => by rw [hcommit wr houtcome]

/-! ## Stores with one time of creation -/

/-- **Two stores that hold an ID with one time of creation**, whatever else they hold there and elsewhere. -/
def SameCreation (c : Collection R) (id : String) (s s' : Store R) : Prop :=
  ∃ old old' t, s.get? id = some old ∧ s'.get? id = some old'
    ∧ (c.kind.identity old).createdAt = some t ∧ (c.kind.identity old').createdAt = some t

theorem SameCreation.symm {id : String} {s s' : Store R} (h : c.SameCreation id s s') : c.SameCreation id s' s := by
  obtain ⟨old, old', t, hold, hold', ht, ht'⟩ := h
  exact ⟨old', old, t, hold', hold, ht', ht⟩

/-- Such stores give the same time of creation, also when the store does not work or the clock is asked. -/
theorem SameCreation.creationTime {id : String} {seen : NodeKey → String → Prop}
    (h : c.SameCreation id (w.stores c.node) (w'.stores c.node)) (halike : w.Alike env seen w') :
    c.creationTime env w id = c.creationTime env w' id := by
  obtain ⟨old, old', t, hold, hold', ht, ht'⟩ := h
  have hclock : env.now w.looksAtClock = env.now w'.looksAtClock := halike.clock 0
  rw [Collection.creationTime, Collection.creationTime, Action.found, Action.found, halike.outage, hclock]
  cases env.outage c.node w'.storeCalls (.get id) with
  | some e => rfl
  | none => simp only [Store.get, hold, hold', ht, ht', Option.getD_some]

end Collection

/-! ## Requests -/

/-- **A request that replaces by a resource**: it arrives, and its replacement stores this resource. -/
def Route.Replaces (route : Route R) (c : Collection R) (request : Request) (taken : List (String × String)) (env : Env)
    (w : World R) (r : R) : Prop :=
  ∃ i w₁, Layer.descend route.layers (Router.dispatched request taken) env w = (.ok (.arrived i), w₁)
    ∧ i.request.body.size ≤ bodyLimit ∧ c.Commits .replace i.context i.request.body env w₁ (.set r)

section Requests

variable {routes : List (Route R)} {request : Request} {route : Route R} {taken : List (String × String)}
  {c : Collection R} {env : Env} {w : World R} {r : R}

/-- What a request for a replacement comes to. -/
theorem Route.reached_replace (hendpoint : route.endpoint? request.method = some (.operation c .replace))
    (i : Inflight R) : route.reached request.method i
      = Action.withBody i.request fun body => (c.handle .replace i.context body).answered := by
  rw [Route.reached, hendpoint]
  rfl

/-- **What a request has replaced is stored** under the ID of its path, and nothing else has changed. -/
theorem Route.Replaces.stores (h : route.Replaces c request taken env w r)
    (hlookup : Route.lookup (routes.map fun r => (r.pattern, r)) request.path = some (route, taken))
    (hendpoint : route.endpoint? request.method = some (.operation c .replace)) :
    Form.lookup (Router.decodeParams taken) (idParam c.name) = some (c.kind.id r)
      ∧ (Router.answer routes request env w).2.stores
        = (w.setStore c.node ((w.stores c.node).insert (c.kind.id r) r)).stores := by
  obtain ⟨i, w₁, hdescend, hsize, hcommits⟩ := h
  have hparams : i.params = Router.decodeParams taken := Layer.descend_params hdescend
  obtain ⟨response, w₂, hanswer, hending⟩ := c.handle_ending .replace i.context i.request.body env w₁
  have hreached : route.reached request.method i env w₁ = (.ok response, w₂) := by
    rw [Route.reached_replace hendpoint, Action.withBody, if_neg (Nat.not_lt.mpr hsize)]
    exact hanswer
  obtain ⟨w', hresponse, hout, -⟩ := Router.answer_of_arrived hlookup hdescend hreached
  refine ⟨?_, ?_⟩
  · obtain ⟨w₃, w₄, hpass, -⟩ := hcommits
    rw [← hparams]
    exact Collection.id?_of_pathId (Collection.pathId_of_replace hpass)
  · rw [hresponse, hout, (hending.written hcommits).2, World.setStore, World.setStore, Layer.descend_stores hdescend]
    rfl

/-- A request that replaces in one world replaces in another with the same time of creation. -/
theorem Route.Replaces.of_alike {seen : NodeKey → String → Prop}
    (hlayers : ∀ l ∈ route.layers, l.Sees seen (Router.decodeParams taken)) {w' : World R} (halike : w.Alike env seen w')
    (hcreation : ∀ id, Form.lookup (Router.decodeParams taken) (idParam c.name) = some id →
      c.SameCreation id (w.stores c.node) (w'.stores c.node)) (h : route.Replaces c request taken env w r) :
    route.Replaces c request taken env w' r := by
  obtain ⟨i, w₁, hdescend, hsize, hcommits⟩ := h
  have hparams : i.params = Router.decodeParams taken := Layer.descend_params hdescend
  obtain ⟨w₁', hdescend', halike₁, hstores, hstores'⟩ := Layer.descend_alike hlayers halike hdescend
  refine ⟨i, w₁', hdescend', hsize, ((Collection.replace_same (fun id hid => ?_) (fun id _ => ?_) _).2 _).mp hcommits⟩
  · rw [← hstores, ← hstores', ← hparams] at hcreation
    exact (hcreation id hid).creationTime halike₁
  · exact halike₁.outages 1 c.node (.set id)

/-- Such a request is answered alike. -/
theorem Router.answer_of_sameCreation {seen : NodeKey → String → Prop}
    (hlookup : Route.lookup (routes.map fun r => (r.pattern, r)) request.path = some (route, taken))
    (hendpoint : route.endpoint? request.method = some (.operation c .replace))
    (hlayers : ∀ l ∈ route.layers, l.Sees seen (decodeParams taken)) {w' : World R} (halike : w.Alike env seen w')
    (hcreation : ∀ id, Form.lookup (decodeParams taken) (idParam c.name) = some id →
      c.SameCreation id (w.stores c.node) (w'.stores c.node)) :
    (answer routes request env w).1 = (answer routes request env w').1 := by
  refine answer_same hlookup hlayers halike fun i w₁ w₁' hdescend halike₁ hstores hstores' => ?_
  have hparams : i.params = decodeParams taken := Layer.descend_params hdescend
  rw [Route.reached_replace hendpoint, Action.withBody]
  split
  · rfl
  · refine Action.answered_outcome (Collection.replace_same (fun id hid => ?_) (fun id _ => ?_) _).1
    · rw [← hstores, ← hstores', ← hparams] at hcreation
      exact (hcreation id hid).creationTime halike₁
    · exact halike₁.outages 1 c.node (.set id)

end Requests

/-- **A replacement forgets what it replaces.** If two stores hold the ID of the path with one time of creation, then a
request to replace it is answered alike from both, whatever else they hold there and under other IDs. It stores a
resource in one of them if it stores the same one in the other. So of a replaced resource nothing is left but its time
of creation. -/
theorem replace_forgets {routes : List (Route R)} {n : Node R} (hn : n.router = .ok routes) {request : Request}
    {route : Route R} {taken : List (String × String)}
    (hlookup : Route.lookup (routes.map fun r => (r.pattern, r)) request.path = some (route, taken))
    {c : Collection R} (hendpoint : route.endpoint? request.method = some (.operation c .replace))
    (hguards : ∀ g, .guard c g ∉ route.layers) {id : String}
    (hid : Form.lookup (Router.decodeParams taken) (idParam c.name) = some id) {s s' : Store R}
    (hcreation : c.SameCreation id s s') (env : Env) (w : World R) :
    (Router.answer routes request env (w.setStore c.node s)).1
        = (Router.answer routes request env (w.setStore c.node s')).1
      ∧ ∀ r, (route.Replaces c request taken env (w.setStore c.node s) r
          ↔ route.Replaces c request taken env (w.setStore c.node s') r)
        ∧ (route.Replaces c request taken env (w.setStore c.node s) r →
          ((Router.answer routes request env (w.setStore c.node s)).2.stores c.node).get? id = some r
            ∧ ((Router.answer routes request env (w.setStore c.node s')).2.stores c.node).get? id = some r) := by
  have hlayers := Route.sees_others hn hlookup hendpoint hguards
  have halike := World.Alike.elsewhere env w c.node s s'
  have hown : ∀ id, Form.lookup (Router.decodeParams taken) (idParam c.name) = some id →
      c.SameCreation id ((w.setStore c.node s).stores c.node) ((w.setStore c.node s').stores c.node) := by
    intro id' hid'
    cases hid.symm.trans hid'
    rw [World.stores_setStore, World.stores_setStore, if_pos rfl, if_pos rfl]
    exact hcreation
  have hreplaces (r : R) : route.Replaces c request taken env (w.setStore c.node s) r
      ↔ route.Replaces c request taken env (w.setStore c.node s') r :=
    ⟨fun h => h.of_alike hlayers halike hown,
      fun h => h.of_alike hlayers halike.symm fun id hid => (hown id hid).symm⟩
  have hstored {w : World R} {r : R} (h : route.Replaces c request taken env w r) :
      ((Router.answer routes request env w).2.stores c.node).get? id = some r := by
    obtain ⟨hpath, hstores⟩ := h.stores hlookup hendpoint
    cases hid.symm.trans hpath
    rw [hstores, World.stores_setStore, if_pos rfl, Store.get?_insert, if_pos rfl]
  exact ⟨Router.answer_of_sameCreation hlookup hendpoint hlayers halike hown,
    fun r => ⟨hreplaces r, fun h => ⟨hstored h, hstored ((hreplaces r).mp h)⟩⟩⟩

namespace Diary

/-- A request to replace the note `n`. -/
def replacing : Request := ⟨.put, "/notes/n", none, [], "\x7b\"text\":\"new\"\x7d".toUTF8⟩

/-- A note with a time of creation and this secret. -/
def dated (secret : String) : Record :=
  ⟨⟨"n", some ⟨0, 0⟩⟩, [("secret", .str secret), ("text", .str "dear diary")]⟩

/-- The note that the request comes to. -/
def replaced : Record := ⟨⟨"n", some ⟨0, 0⟩⟩, [("secret", .null), ("text", .str "new")]⟩

/-- A store with the note. -/
def before : Store Record := Store.empty.insert "n" (dated "a")

/-- A store with another secret in the note, and with another note. -/
def beside : Store Record := (Store.empty.insert "m" entry).insert "n" (dated "b")

end Diary

open Diary in
/-- A note is replaced by the same one, whatever its secret was and whether there is another note. -/
theorem replace_forgets_diary :
    ((Router.answer routes replacing (Env.quiet "m") (World.initial.setStore notes.node before)).2.stores
        notes.node).get? "n" = some replaced
      ∧ ((Router.answer routes replacing (Env.quiet "m") (World.initial.setStore notes.node beside)).2.stores
        notes.node).get? "n" = some replaced := by
  have hlookup : Route.lookup (routes.map fun r => (r.pattern, r)) replacing.path
      = some (Site.route .root ⟨[], tree, .item⟩, [("notes_id", "n")]) := rfl
  have hendpoint : (Site.route .root ⟨[], tree, .item⟩).endpoint? replacing.method
      = some (.operation notes .replace) := rfl
  have hlayers : (Site.route .root ⟨[], tree, .item⟩).layers = [] := rfl
  have hreplaces : (Site.route .root ⟨[], tree, .item⟩).Replaces notes replacing [("notes_id", "n")] (Env.quiet "m")
      (World.initial.setStore notes.node before) replaced :=
    ⟨_, _, rfl, by decide +kernel, _, _, Pipeline.passes_of_run (by cbv), by cbv⟩
  have hcreation : notes.SameCreation "n" before beside :=
    ⟨dated "a", dated "b", ⟨0, 0⟩, by cbv, by cbv, by cbv, by cbv⟩
  obtain ⟨-, hboth⟩ := replace_forgets router_tree hlookup hendpoint (fun g hg => by rw [hlayers] at hg; cases hg)
    (by cbv) hcreation (Env.quiet "m") World.initial
  exact (hboth replaced).2 hreplaces

end ResourceTree
