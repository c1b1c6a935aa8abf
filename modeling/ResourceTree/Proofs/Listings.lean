import ResourceTree.Proofs.LastWrites
import ResourceTree.Proofs.Redaction

/-! # Listings

A list shows the selected resources as a fetch would show each of them to a request that prefers JSON.
`Collection.item` is what is shown of one resource; it is the payload of an item whatever the request prefers
(`present_item`), and that of a fetch that does not prefer a page. `Collection.Lists` says what the items of a list are,
or which error is answered in their place, and `list_agrees` that the list handler answers just this, and that the
fetches agree with it. Stores are those that storage calls can produce: every ID once, and every entry under its own
(`Collection.Keeps`). -/

namespace ResourceTree

variable {R : Type}

/-! ## Kept stores -/

namespace Collection

/-- **A store that storage calls can produce**: every ID once, and every entry under its own. -/
structure Keeps (c : Collection R) (s : Store R) : Prop where
  nodup : s.ids.Nodup
  keyed : ∀ row ∈ s.rows, c.kind.id row.2 = row.1

namespace Keeps

variable {c : Collection R} {s : Store R} {id : String} {r : R}

theorem iff_keyedBy : c.Keeps s ↔ s.KeyedBy c.kind := ⟨fun h => ⟨h.nodup, h.keyed⟩, fun h => ⟨h.nodup, h.keyed⟩⟩

theorem empty (c : Collection R) : c.Keeps .empty := iff_keyedBy.mpr (.empty c.kind)

/-- Set calls keep a store so. -/
theorem insert (h : c.Keeps s) (r : R) : c.Keeps (s.insert (c.kind.id r) r) :=
  iff_keyedBy.mpr ((iff_keyedBy.mp h).insert r)

/-- And so do delete calls. -/
theorem erase (h : c.Keeps s) (id : String) : c.Keeps (s.erase id) := iff_keyedBy.mpr ((iff_keyedBy.mp h).erase id)

/-- The resources are listed under the IDs of the store. -/
theorem map_id (h : c.Keeps s) : s.toList.map c.kind.id = s.ids := (iff_keyedBy.mp h).map_id

/-- **An ID gives the stored resource that bears it.** -/
theorem get?_eq_some_iff (h : c.Keeps s) : s.get? id = some r ↔ r ∈ s.toList ∧ c.kind.id r = id :=
  (iff_keyedBy.mp h).get?_eq_some_iff

/-- **What an ID gives is listed at one place**, and nothing else with the ID is listed. -/
theorem exists_place (h : c.Keeps s) (hget : s.get? id = some r) :
    ∃ k : Nat, s.toList[k]? = some r ∧ ∀ k' : Nat, (s.toList[k']?).map c.kind.id = some id ↔ k' = k := by
  obtain ⟨hmem, hid⟩ := h.get?_eq_some_iff.mp hget
  obtain ⟨k, hk⟩ := List.getElem?_of_mem hmem
  refine ⟨k, hk, fun (k' : Nat) => ⟨fun hk' => ?_, fun heq => by rw [heq, hk, ← hid]; rfl⟩⟩
  have hids (j : Nat) : (s.toList[j]?).map c.kind.id = s.ids[j]? := by rw [← h.map_id, List.getElem?_map]
  rw [hids] at hk'
  have hsame : s.ids[k']? = s.ids[k]? := by rw [hk', ← hids, hk, ← hid]; rfl
  exact List.getElem?_inj (List.getElem?_eq_some_iff.mp hk').1 h.nodup |>.mp hsame

end Keeps

/-! ## What is shown of a resource -/

end Collection

/-- The JSON value of what is shown, or the error that there is none. -/
def View.value (view : View) : Except ApiError Json := (view.json.map Json.sorted).mapError .internal

/-- Where there may be no page, a view is written down as its value. -/
theorem Payload.ofView_value {ctx : Context R} {allowPage : Bool} (hpage : (allowPage && ctx.acceptsHtml) = false)
    (rendered asked : Event) (view : Except ApiError View) (env : Env) (w : World R) :
    ofView ctx allowPage rendered asked view env w
      = (((view >>= View.value).map Payload.json).mapError .api, { w with log := w.log ++ [rendered] }) := by
  rw [ofView_eq, hpage]
  refine (Action.bind_of_ok (Action.emit_apply _ env w) _).trans ?_
  cases view with
  | error e => rfl
  | ok view =>
      have hvalue : (Except.ok view >>= View.value) = view.value := rfl
      rw [hvalue, View.value]
      simp only [Action.lift_ok, pure_bind, Bool.false_eq_true, if_false, ofPage]
      cases view.json <;> rfl

namespace Collection

/-- What is shown of a resource, before it is written down. -/
def shown (c : Collection R) (ctx : Context R) (r : R) : Except ApiError View :=
  match c.hooks.wrapper with
  | none => c.kind.view ctx r
  | some wrap => wrap ctx r

/-- **The JSON that is shown of a resource**, with its members sorted. -/
def item (c : Collection R) (ctx : Context R) (r : R) : Except ApiError Json := c.shown ctx r >>= View.value

/-- The events of showing a resource as JSON. -/
def showing (c : Collection R) (r : R) : List Event :=
  match c.hooks.wrapper with
  | none => [.render c.node]
  | some _ => [.wrap c.node (c.kind.id r), .renderView c.node]

variable {c : Collection R} {ctx ctx' : Context R} {env : Env} {w w' : World R}

/-- **What is shown where there may be no page**: the JSON, whatever the request prefers. -/
theorem present_item {allowPage : Bool} (hpage : (allowPage && ctx.acceptsHtml) = false) (r : R) (env : Env)
    (w : World R) : c.present ctx allowPage r env w
      = (((c.item ctx r).map Payload.json).mapError .api, { w with log := w.log ++ c.showing r }) := by
  cases hwrapper : c.hooks.wrapper with
  | none => simp only [present, item, shown, showing, hwrapper, Payload.ofView_value hpage]
  | some wrap =>
      simp only [present, item, shown, showing, hwrapper]
      refine (Action.bind_of_ok (Action.emit_apply _ env w) _).trans ?_
      rw [Payload.ofView_value hpage]
      simp only [List.append_assoc, List.cons_append, List.nil_append]

/-- The answer that shows a resource to a request that does not prefer a page. -/
theorem respond_item (hpage : ctx.acceptsHtml = false) (m : Method) (r : R) (env : Env) (w : World R) :
    c.respond ctx m r env w = (((c.item ctx r).map (.json (c.codes.get m))).mapError .api,
      { w with log := w.log ++ c.showing r }) := by
  have hallowed : (true && ctx.acceptsHtml) = false := hpage
  have hpresent := c.present_item hallowed r env w
  rw [respond]
  cases hitem : c.item ctx r with
  | error e =>
      rw [hitem] at hpresent
      exact Action.bind_of_error hpresent _
  | ok v =>
      rw [hitem] at hpresent
      exact Action.bind_of_ok hpresent _

/-- Two contexts in which an API shows the same JSON of every resource: its wrapper and its render hook read nothing
in which the contexts differ. -/
structure ShowsAlike (c : Collection R) (ctx ctx' : Context R) : Prop where
  render : ∀ r, c.kind.render ctx' r = c.kind.render ctx r
  wrapper : ∀ wrap ∈ c.hooks.wrapper, ∀ r, (wrap ctx' r).map View.json = (wrap ctx r).map View.json

theorem ShowsAlike.item_eq (h : c.ShowsAlike ctx ctx') (r : R) : c.item ctx' r = c.item ctx r := by
  have hvalue {x y : Except ApiError View} (hxy : x.map View.json = y.map View.json) :
      x >>= View.value = y >>= View.value := by
    have hjson (z : Except ApiError View) :
        z >>= View.value = z.map View.json >>= fun json => (json.map Json.sorted).mapError .internal := by
      cases z <;> rfl
    rw [hjson, hjson, hxy]
  rw [item, item, shown, shown]
  cases hwrapper : c.hooks.wrapper with
  | none =>
      refine hvalue ?_
      rw [Kind.view, Kind.view, h.render]
      cases c.kind.render ctx r <;> rfl
  | some wrap => exact hvalue (h.wrapper wrap hwrapper r)

end Collection

/-- A lifted computation comes to what the computation does, and touches nothing. -/
theorem Action.lift_apply {α : Type} (x : Except ApiError α) (env : Env) (w : World R) :
    lift x env w = (x.mapError .api, w) := by
  cases x <;> rfl

namespace Collection

variable {c : Collection R} {ctx ctx' : Context R} {env : Env} {w w' : World R}

/-! ## The items of a list -/

/-- The predicate by which a list is selected. -/
def predicate (c : Collection R) (ctx : Context R) : Except ApiError (R → Bool) :=
  match c.hooks.filter with
  | none => .ok fun _ => true
  | some make => make ctx

/-- The document of a list. -/
def itemsDocument (items : List Json) : Json := .obj [("items", .arr items)]

/-- **Resources are shown one after another**: as one item each, in order, or the first that cannot be shown is the
error. -/
inductive Shows (c : Collection R) (ctx : Context R) : List R → Except ApiError (List Json) → Prop
  | all {rs : List R} {items : List Json} (shown : List.Forall₂ (fun r v => c.item ctx r = .ok v) rs items) :
    Shows c ctx rs (.ok items)
  | upTo {before after : List R} {r : R} {e : ApiError} (shown : ∀ b ∈ before, ∃ v, c.item ctx b = .ok v)
    (fails : c.item ctx r = .error e) : Shows c ctx (before ++ r :: after) (.error e)

/-- If each of them can be shown, all are. -/
theorem Shows.eq_of_all {rs : List R} {items : List Json} {outcome : Except ApiError (List Json)}
    (h : c.Shows ctx rs outcome) (hall : List.Forall₂ (fun r v => c.item ctx r = .ok v) rs items) :
    outcome = .ok items := by
  cases h with
  | all shown =>
      refine congrArg _ (List.right_unique_forall₂' (fun r v v' hv hv' => ?_) shown hall)
      exact Except.ok.inj (hv.symm.trans hv')
  | @upTo before after r e shown fails =>
      -- the one that cannot be shown would have to be
      exfalso
      induction before generalizing items with
      | nil =>
          cases hall with
          | cons hv _ => cases fails.symm.trans hv
      | cons b before ih =>
          cases hall with
          | cons _ hrest => exact ih (fun b' hb' => shown b' (List.mem_cons_of_mem b hb')) hrest

/-- **What a list is**: there is an error if no predicate can be made, if the store breaks down, or if one of the
selected resources cannot be shown; and otherwise there is one item for each stored resource that is selected, in the
order of the store. -/
inductive Lists (c : Collection R) (ctx : Context R) (env : Env) (w : World R) : Except ApiError (List Json) → Prop
  | unselected {e : ApiError} (filter : c.predicate ctx = .error e) : Lists c ctx env w (.error e)
  | unread {p : R → Bool} {e : StorageError} (filter : c.predicate ctx = .ok p)
    (outage : env.outage c.node w.storeCalls .list = some e) : Lists c ctx env w (.error (.ofStorage e))
  | listed {p : R → Bool} {outcome : Except ApiError (List Json)} (filter : c.predicate ctx = .ok p)
    (outage : env.outage c.node w.storeCalls .list = Option.none)
    (shows : c.Shows ctx ((w.stores c.node).toList.filter p) outcome) : Lists c ctx env w outcome

/-- Without a filter every resource is listed. -/
theorem Lists.all {items : List Json} (h : c.Lists ctx env w (.ok items)) (hfilter : c.hooks.filter = none) :
    List.Forall₂ (fun r v => c.item ctx r = .ok v) (w.stores c.node).toList items := by
  cases h with
  | listed filter outage shows =>
      rw [predicate, hfilter] at filter
      cases filter
      rw [List.filter_true] at shows
      generalize (w.stores c.node).toList = rs at shows
      cases shows with
      | all shown => exact shown

/-- **Showing resources one after another**, by induction on the resources. -/
theorem presentAll_shows (c : Collection R) (ctx : Context R) (rs : List R) (env : Env) (w : World R) :
    ∃ outcome w', c.presentAll ctx rs env w = (outcome.mapError .api, w') ∧ c.Shows ctx rs outcome := by
  induction rs generalizing w with
  | nil => exact ⟨.ok [], w, rfl, .all .nil⟩
  | cons r rs ih =>
      have hpage : (false && ctx.acceptsHtml) = false := rfl
      have hpresent := c.present_item hpage r env w
      rw [presentAll]
      cases hitem : c.item ctx r with
      | error e =>
          rw [hitem] at hpresent
          have hnone : ∀ b ∈ ([] : List R), ∃ v, c.item ctx b = .ok v := fun b hb => by cases hb
          exact ⟨.error e, _, Action.bind_of_error hpresent _, .upTo hnone hitem⟩
      | ok v =>
          rw [hitem] at hpresent
          obtain ⟨outcome, w', hrest, hshows⟩ := ih { w with log := w.log ++ c.showing r }
          rw [Action.bind_of_ok hpresent]
          cases hshows with
          | all shown => exact ⟨_, _, Action.bind_of_ok hrest _, .all (.cons hitem shown)⟩
          | @upTo before after failing e shown fails =>
              have hbefore : ∀ b ∈ r :: before, ∃ v, c.item ctx b = .ok v :=
                List.forall_mem_cons.mpr ⟨⟨v, hitem⟩, shown⟩
              exact ⟨_, _, Action.bind_of_error hrest _, .upTo hbefore fails⟩

/-- Making the predicate is logged, and counts as no call. -/
theorem selection_apply (c : Collection R) (ctx : Context R) (env : Env) (w : World R) :
    ∃ w', c.selection ctx env w = ((c.predicate ctx).mapError .api, w') ∧ w'.stores = w.stores
      ∧ w'.storeCalls = w.storeCalls := by
  rw [selection, predicate]
  cases c.hooks.filter with
  | none => exact ⟨w, rfl, rfl, rfl⟩
  | some make =>
      exact ⟨_, (Action.bind_of_ok (Action.emit_apply _ env w) _).trans (Action.lift_apply _ env _), rfl, rfl⟩

/-- **The list handler answers the list.** -/
theorem list_lists (hwrap : c.hooks.listWrapper = none) (ctx : Context R) (env : Env) (w : World R) :
    ∃ outcome w', (c.list ctx).answered env w
        = (.ok (.ofDocument (c.codes.get .get) (outcome.map itemsDocument)), w')
      ∧ c.Lists ctx env w outcome := by
  have hrun : c.list ctx = (do
      let p ← c.selection ctx
      let rs ← Action.orFail (Action.list c.node p)
      let items ← c.presentAll ctx rs
      pure (.json (c.codes.get .get) (itemsDocument items))) := by
    rw [list, hwrap]
    rfl
  obtain ⟨w₁, hselection, hstores, hcalls⟩ := c.selection_apply ctx env w
  rw [hrun]
  cases hpredicate : c.predicate ctx with
  | error e =>
      rw [hpredicate] at hselection
      exact ⟨.error e, _, Action.answered_of_error (Action.bind_of_error hselection _), .unselected hpredicate⟩
  | ok p =>
      rw [hpredicate] at hselection
      have hlist := Action.list_apply c.node p env w₁
      rw [hcalls, hstores] at hlist
      cases houtage : env.outage c.node w.storeCalls .list with
      | some e =>
          rw [houtage] at hlist
          have hread : Action.orFail (Action.list c.node p) env w₁
              = (.error (.api (.ofStorage e)), w₁.called c.node .list) := Action.bind_of_ok hlist _
          exact ⟨.error (.ofStorage e), _, Action.answered_of_error
            ((Action.bind_of_ok hselection _).trans (Action.bind_of_error hread _)), .unread hpredicate houtage⟩
      | none =>
          rw [houtage] at hlist
          have hread : Action.orFail (Action.list c.node p) env w₁
              = (.ok ((w.stores c.node).select p), w₁.called c.node .list) := Action.bind_of_ok hlist _
          obtain ⟨outcome, w', hpresent, hshows⟩ :=
            c.presentAll_shows ctx ((w.stores c.node).select p) env (w₁.called c.node .list)
          refine ⟨outcome, w', answered_of_document ?_, .listed hpredicate houtage hshows⟩
          refine (Action.bind_of_ok hselection _).trans ((Action.bind_of_ok hread _).trans ?_)
          cases outcome with
          | error e => exact Action.bind_of_error hpresent _
          | ok items => exact Action.bind_of_ok hpresent _

/-! ## Agreement with fetching -/

/-- A request for the JSON of the resource under an ID, with nothing resolved for it but what is stored there. -/
structure LooksUp (c : Collection R) (s : Store R) (ctx : Context R) (id : String) : Prop where
  path : ctx.id? c.name = some id
  resolved : ∀ r, ctx.resource? c.kind.name c.name = some r → s.get? id = some r
  json : ctx.acceptsHtml = false

/-- **A fetch that succeeds shows the stored resource.** -/
theorem LooksUp.fetch_ok {id : String} {response : Response} (h : c.LooksUp (w.stores c.node) ctx id)
    (hfetch : c.fetch ctx env w = (.ok response, w')) :
    ∃ r v, (w.stores c.node).get? id = some r ∧ c.item ctx r = .ok v ∧ response = .json (c.codes.get .get) v := by
  obtain ⟨r, w₁, hrequested, hrespond⟩ := Action.bind_eq_ok.mp hfetch
  have hstored : (w.stores c.node).get? id = some r := by
    rw [requested_apply, h.path] at hrequested
    cases hresolved : ctx.resource? c.kind.name c.name with
    | some r' =>
        rw [hresolved] at hrequested
        cases hrequested
        exact h.resolved r hresolved
    | none =>
        rw [hresolved] at hrequested
        simp only [Prod.mk.injEq] at hrequested
        refine Action.found_ok (?_ : Action.found env w c.node id = .ok r)
        cases hfound : Action.found env w c.node id with
        | error e =>
            rw [hfound] at hrequested
            cases hrequested.1
        | ok r' =>
            rw [hfound] at hrequested
            cases hrequested.1
            rfl
  rw [respond_item h.json] at hrespond
  cases hitem : c.item ctx r with
  | error e =>
      rw [hitem] at hrespond
      cases hrespond
  | ok v =>
      rw [hitem] at hrespond
      cases hrespond
      exact ⟨r, v, hstored, hitem, rfl⟩

/-- A fetch shows the stored resource, unless its get call breaks down. -/
theorem LooksUp.answered {id : String} {r : R} (h : c.LooksUp (w.stores c.node) ctx id)
    (hstored : (w.stores c.node).get? id = some r)
    (hworks : ctx.resource? c.kind.name c.name = none → env.outage c.node w.storeCalls (.get id) = none) :
    ∃ w', (c.fetch ctx).answered env w = (.ok (.ofDocument (c.codes.get .get) (c.item ctx r)), w') := by
  have hrequested : ∃ w₁, c.requested ctx env w = (.ok r, w₁) := by
    rw [requested_apply, h.path]
    cases hresolved : ctx.resource? c.kind.name c.name with
    | some r' =>
        cases hstored.symm.trans (h.resolved r' hresolved)
        exact ⟨w, rfl⟩
    | none =>
        refine ⟨w.called c.node (.get id), ?_⟩
        simp only [Action.found, hworks hresolved, Store.get, hstored]
        rfl
  obtain ⟨w₁, hrequested⟩ := hrequested
  exact ⟨_, answered_of_document ((Action.bind_of_ok hrequested _).trans (respond_item h.json .get r env w₁))⟩

/-- **A list is exact and agrees with fetching.** For an API without a list wrapper, whatever the request prefers, the
answer to a list is what `Lists` says: one JSON item for each stored resource that is selected, in the order of the
store, or else the first error. Under a wrapper and a render hook that read nothing in which the requests differ, a
fetch that prefers JSON shows of every stored resource what the list shows of it. If nothing is filtered, whatever
can be fetched is listed, at one place. -/
theorem list_agrees (hwrap : c.hooks.listWrapper = none) (ctx : Context R) (body : ByteArray) (env : Env)
    (w : World R) :
    ∃ outcome w', (c.handle .list ctx body).answered env w
        = (.ok (.ofDocument (c.codes.get .get) (outcome.map itemsDocument)), w')
      ∧ w'.stores = w.stores
      ∧ c.Lists ctx env w outcome
      ∧ (c.Keeps (w.stores c.node) → ∀ ctx' env' w₁ id, w₁.stores c.node = w.stores c.node →
        c.ShowsAlike ctx ctx' → c.LooksUp (w.stores c.node) ctx' id →
          (∀ r ∈ (w.stores c.node).toList, c.kind.id r = id →
            (ctx'.resource? c.kind.name c.name = none → env'.outage c.node w₁.storeCalls (.get id) = none) →
            ∃ w₂, (c.handle .fetch ctx' body).answered env' w₁
              = (.ok (.ofDocument (c.codes.get .get) (c.item ctx r)), w₂))
          ∧ ∀ items response w₂, outcome = .ok items → c.hooks.filter = none →
            c.handle .fetch ctx' body env' w₁ = (.ok response, w₂) →
            ∃ (k : Nat) (v : Json), response = .json (c.codes.get .get) v ∧ items[k]? = some v
              ∧ ∀ k' : Nat, ((w.stores c.node).toList[k']?).map c.kind.id = some id ↔ k' = k) := by
  obtain ⟨outcome, w', hanswer, hlists⟩ := c.list_lists hwrap ctx env w
  have hstores := (c.list_harmless ctx).answered.stores env w
  rw [hanswer] at hstores
  refine ⟨outcome, w', hanswer, hstores, hlists, fun hkept ctx' env' w₁ id hsame halike hlooks => ⟨?_, ?_⟩⟩
  · intro r hr hid hworks
    rw [← hsame] at hlooks
    obtain ⟨w₂, hfetch⟩ := hlooks.answered (by rw [hsame]; exact hkept.get?_eq_some_iff.mpr ⟨hr, hid⟩) hworks
    rw [halike.item_eq] at hfetch
    exact ⟨w₂, hfetch⟩
  · intro items response w₂ hitems hfilter hfetch
    rw [← hsame] at hlooks
    obtain ⟨r, v, hstored, hitem, rfl⟩ := hlooks.fetch_ok hfetch
    rw [hsame] at hstored
    rw [halike.item_eq] at hitem
    obtain ⟨k, hk, hplace⟩ := hkept.exists_place hstored
    refine ⟨k, v, rfl, ?_, hplace⟩
    subst hitems
    -- the items stand at the places of their resources
    obtain ⟨hlength, hitems⟩ := List.forall₂_iff_get.mp (hlists.all hfilter)
    obtain ⟨hlt, hr⟩ := List.getElem?_eq_some_iff.mp hk
    have hv := hitems k hlt (hlength ▸ hlt)
    rw [List.get_eq_getElem, hr, hitem] at hv
    rw [List.getElem?_eq_getElem (hlength ▸ hlt)]
    cases hv
    rfl

end Collection

namespace Diary

/-- A diary with one note. -/
def world : World Record := World.initial.setStore notes.node (keeping "a")

/-- The context of a request for a page with all notes. -/
def browsing : Context Record :=
  (Router.dispatched ⟨.get, "/notes", none, [("accept", "text/html")], .empty⟩ []).context

/-- The context of a request for the JSON of the note. -/
def looking : Context Record := (Router.dispatched ⟨.get, "/notes/n", none, [], .empty⟩ [("notes_id", "n")]).context

/-- Notes are shown alike in all contexts. -/
theorem showsAlike (ctx ctx' : Context Record) : notes.ShowsAlike ctx ctx' :=
  ⟨fun _ => rfl, fun _ h => (Option.not_mem_none _ h).elim⟩

end Diary

open Diary Collection in
/-- The list of a diary has one item, which is what a fetch of the note shows. -/
theorem list_agrees_diary : ∃ v w₁ w₂,
    (notes.handle .list browsing .empty).answered (Env.quiet "m") world
        = (.ok (.json 200 (itemsDocument [v])), w₁)
      ∧ (notes.handle .fetch looking .empty).answered (Env.quiet "m") world = (.ok (.json 200 v), w₂) := by
  have hkept : notes.Keeps (world.stores notes.node) := (Keeps.empty notes).insert (entry.setField "secret" (.str "a"))
  have hlooks : notes.LooksUp (world.stores notes.node) looking "n" := ⟨by decide +kernel, fun r h => (by cases h), rfl⟩
  obtain ⟨outcome, w₁, hlist, -, hlists, hagrees⟩ := list_agrees (c := notes) rfl browsing .empty (Env.quiet "m") world
  obtain ⟨hfetches, -⟩ := hagrees hkept looking (Env.quiet "m") world "n" rfl (showsAlike _ _) hlooks
  obtain ⟨w₂, hfetch⟩ := hfetches (entry.setField "secret" (.str "a")) (List.mem_singleton.mpr rfl) rfl fun _ => rfl
  obtain ⟨v, hitem⟩ : ∃ v, notes.item browsing (entry.setField "secret" (.str "a")) = .ok v := ⟨_, rfl⟩
  rw [hitem] at hfetch
  refine ⟨v, w₁, w₂, ?_, hfetch⟩
  rw [hlist]
  cases hlists with
  | unselected filter => cases filter
  | unread _ outage => cases outage
  | listed filter _ shows =>
      cases filter
      obtain rfl := shows.eq_of_all (.cons hitem .nil)
      rfl

end ResourceTree
