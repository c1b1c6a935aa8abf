import ResourceTree.Proofs.RepeatedReplacements

/-! # How often a guarded resource is loaded

`World.sought` lists the IDs that the store of an API was asked for, and `World.Seeks` counts how often that was
between two worlds. Counts add up along chains of actions (`Action.Seeks.bind`) and along the layers of a route, which
ask for the resource of an API once at most, however many guards it has (`Layer.descend_seeks`). The handlers that
fetch and remove do not ask again behind a guard. Those that replace and merge do: they do not look at what is
resolved, so `guarded_loads` gives them one call more. -/

namespace ResourceTree

variable {R α β : Type} {node : NodeKey} {id? : Option String}

/-! ## What a store is asked for -/

/-- The ID that an event asks the store of an API for. -/
def Event.sought? (node : NodeKey) : Event → Option String
  | .store node' (.get id) => if node' = node then some id else none
  | _ => none

/-- Only calls ask for something. -/
theorem Event.sought?_of_not_call {e : Event} (h : e.isCall = false) : e.sought? node = none := by
  cases e with
  | store node' call => cases h
  | _ => rfl

namespace World

variable {w w₁ w' : World R} {k k' : Nat}

/-- The IDs that the store of an API was asked for, in order. -/
def sought (w : World R) (node : NodeKey) : List String := w.log.filterMap (Event.sought? node)

/-- They can be read off the calls. -/
theorem sought_eq_calls (w : World R) (node : NodeKey) : w.sought node = w.calls.filterMap (Event.sought? node) := by
  rw [sought, calls, List.filterMap_filter]
  refine List.filterMap_congr fun e _ => ?_
  cases he : e.isCall with
  | true => rfl
  | false => exact Event.sought?_of_not_call he

/-- **The store of an API is asked `k` times** between two worlds, for this ID each time. -/
def Seeks (node : NodeKey) (id? : Option String) (k : Nat) (w w' : World R) : Prop :=
  ∃ ids, w'.sought node = w.sought node ++ ids ∧ ids.length = k ∧ ∀ id ∈ ids, id? = some id

theorem Seeks.of_eq (h : w'.sought node = w.sought node) : Seeks node id? 0 w w' :=
  ⟨[], by rw [h, List.append_nil], rfl, fun _ hid => (List.not_mem_nil hid).elim⟩

/-- Counts add up. -/
theorem Seeks.trans (h : Seeks node id? k w w₁) (h' : Seeks node id? k' w₁ w') : Seeks node id? (k + k') w w' := by
  obtain ⟨ids, hids, hlength, hall⟩ := h
  obtain ⟨more, hmore, hlength', hall'⟩ := h'
  refine ⟨ids ++ more, by rw [hmore, hids, List.append_assoc], by rw [List.length_append, hlength, hlength'], ?_⟩
  intro id hid
  rcases List.mem_append.mp hid with hid | hid
  · exact hall id hid
  · exact hall' id hid

/-- One more call counts if it asks this store for the ID, and does not if it asks for nothing here. -/
theorem Seeks.of_call {e : Event} (h : w'.calls = w.calls ++ [e])
    (hid : ∀ id, e.sought? node = some id → id? = some id) :
    Seeks node id? (e.sought? node).toList.length w w' := by
  refine ⟨(e.sought? node).toList, ?_, rfl, fun id hmem => hid id (Option.mem_toList.mp hmem)⟩
  rw [sought_eq_calls, sought_eq_calls, h, List.filterMap_append]
  cases he : e.sought? node <;> simp [he]

/-- Between worlds with the same calls nothing is asked for. -/
theorem Seeks.of_calls (h : w'.calls = w.calls) : Seeks node id? 0 w w' :=
  .of_eq (by rw [sought_eq_calls, sought_eq_calls, h])

/-- Events that ask for nothing do not count. -/
theorem LogsOnly.seeks {P : Event → Prop} (h : w.LogsOnly P w') (hP : ∀ e, P e → e.sought? node = none) :
    Seeks node id? 0 w w' := by
  obtain ⟨events, hlog, hall⟩ := h
  refine .of_eq ?_
  have hnone : events.filterMap (Event.sought? node) = [] :=
    List.filterMap_eq_nil_iff.mpr fun e he => hP e (hall e he)
  rw [sought, hlog, List.filterMap_append, hnone, List.append_nil]
  rfl

/-- On its way out an answer asks for nothing. -/
theorem Seeks.of_leaving {layers : List (Layer R)}
    (h : w.LogsOnly (fun e => ∃ layer ∈ layers, e.Leaving layer.node) w') : Seeks node id? 0 w w' := by
  refine h.seeks fun e he => ?_
  obtain ⟨layer, -, he⟩ := he
  cases e with
  | store node call => exact he.elim
  | _ => rfl

end World

namespace Action

/-- **An action asks the store of an API** for this ID at least `lo` and at most `hi` times, and for no other. -/
def Seeks (node : NodeKey) (id? : Option String) (lo hi : Nat) (x : Action R α) : Prop :=
  ∀ env w, ∃ k, lo ≤ k ∧ k ≤ hi ∧ World.Seeks node id? k w (x env w).2

variable {x : Action R α} {lo hi hi' : Nat}

/-- A harmless action without such calls does not ask. -/
theorem Seeks.of_harmless {P : Event → Prop} (h : x.Harmless P) (hP : ∀ e, P e → e.sought? node = none) :
    x.Seeks node id? 0 0 :=
  fun env w => ⟨0, Nat.le_refl 0, Nat.le_refl 0, (h.log env w).seeks hP⟩

theorem Seeks.lift (x : Except ApiError α) : (lift x : Action R α).Seeks node id? 0 0 :=
  .of_harmless (Harmless.lift (P := fun _ => False) x) fun _ h => h.elim

theorem Seeks.pure (a : α) : (pure a : Action R α).Seeks node id? 0 0 := Seeks.lift (.ok a)

/-- A logged computation does not ask if its event is no call. -/
theorem Seeks.announced {e : Event} (he : e.isCall = false) (x : Except ApiError α) :
    (do Action.emit e; Action.lift x : Action R α).Seeks node id? 0 0 :=
  .of_harmless (Harmless.announced (P := fun e => e.isCall = false) he x) fun _ => Event.sought?_of_not_call

/-- **Counts add up along a chain.** Nothing is known of the rest, which may not be reached, but how often it asks at
most. -/
theorem Seeks.bind {f : α → Action R β} (hx : x.Seeks node id? lo hi) (hf : ∀ a, (f a).Seeks node id? 0 hi') :
    (x >>= f).Seeks node id? lo (hi + hi') := by
  intro env w
  obtain ⟨k, hlo, hhi, hseeks⟩ := hx env w
  rw [bind_apply]
  rcases h : x env w with ⟨e | a, w₁⟩ <;> rw [h] at hseeks
  · exact ⟨k, hlo, Nat.le_add_right_of_le hhi, hseeks⟩
  · obtain ⟨k', -, hhi', hseeks'⟩ := hf a env w₁
    exact ⟨k + k', Nat.le_add_right_of_le hlo, Nat.add_le_add hhi hhi', hseeks.trans hseeks'⟩

/-- A get call asks once. -/
theorem seeks_get {id : String} (h : id? = some id) : (get node id : Action R _).Seeks node id? 1 1 := by
  intro env w
  refine ⟨1, Nat.le_refl 1, Nat.le_refl 1, ?_⟩
  rw [get_apply]
  have hseeks : World.Seeks node id? _ w _ := .of_call (World.calls_called w node (.get id)) fun id' h' => by
    rw [Event.sought?, if_pos rfl] at h'
    rw [h, ← h']
  rwa [Event.sought?, if_pos rfl] at hseeks

/-- What does not ask before a chain changes no count of the rest. -/
theorem Seeks.before {f : α → Action R β} (hx : x.Seeks node id? 0 0) (hf : ∀ a, (f a).Seeks node id? 0 hi) :
    (x >>= f).Seeks node id? 0 hi := by
  have h := hx.bind hf
  rwa [Nat.zero_add] at h

/-- Nor does a rest that does not ask. -/
theorem Seeks.after {f : α → Action R β} (hx : x.Seeks node id? lo hi) (hf : ∀ a, (f a).Seeks node id? 0 0) :
    (x >>= f).Seeks node id? lo hi :=
  hx.bind hf

/-- At least nothing is asked for. -/
theorem Seeks.atMost (h : x.Seeks node id? lo hi) : x.Seeks node id? 0 hi := by
  intro env w
  obtain ⟨k, -, hk⟩ := h env w
  exact ⟨k, Nat.zero_le k, hk⟩

theorem Seeks.orFail {x : Action R (Except StorageError α)} (h : x.Seeks node id? lo hi) :
    (orFail x).Seeks node id? lo hi := by
  refine h.after fun outcome => ?_
  cases outcome with
  | ok a => exact Seeks.pure a
  | error e => exact Seeks.lift (.error (.ofStorage e))

/-- An answer asks as often as the action that is answered. -/
theorem Seeks.answered {x : Action R Response} (h : x.Seeks node id? lo hi) : x.answered.Seeks node id? lo hi := by
  have hattempt : x.attempt.Seeks node id? lo hi := by
    intro env w
    have hx := h env w
    unfold Action.attempt
    rcases heq : x env w with ⟨(e | _) | a, w₁⟩ <;> rw [heq] at hx <;> exact hx
  refine hattempt.after fun outcome => ?_
  cases outcome with
  | ok response => exact Seeks.pure response
  | error e => exact Seeks.pure _

end Action

/-! ## The handlers -/

/-- How often the handler of an operation on one resource asks for it behind a guard. -/
def Operation.reloads : Operation → Nat
  | .replace | .merge => 1
  | _ => 0

namespace Collection

variable {c : Collection R} {ctx : Context R} {id : String}

/-- Making an answer asks for nothing. -/
theorem seeks_respond (c : Collection R) (ctx : Context R) (m : Method) (r : R) :
    (c.respond ctx m r).Seeks node id? 0 0 := by
  have hpresent : (c.present ctx true r).Harmless fun e => e.isCall = false := by
    rw [present]
    cases c.hooks.wrapper with
    | none =>
        refine Payload.harmless_ofView ?_ ?_ ctx true _
        · rfl
        · rfl
    | some wrap =>
        refine (Action.Harmless.emit ?_).bind fun _ => Payload.harmless_ofView ?_ ?_ ctx true _
        · rfl
        · rfl
        · rfl
  exact .of_harmless (hpresent.bind fun _ => Action.Harmless.pure _) fun _ => Event.sought?_of_not_call

/-- Nor does the bind hook. -/
theorem seeks_bind (c : Collection R) (ctx : Context R) (r : R) : (c.bind ctx r).Seeks node id? 0 0 :=
  .announced rfl _

theorem seeks_save (c : Collection R) (ctx : Context R) (r : R) : (c.save ctx r).Seeks node id? 0 0 := by
  rw [save]
  cases c.hooks.onSave with
  | none => exact .pure r
  | some hook => exact .announced rfl _

theorem seeks_runDeleteHook {event : Event} (h : event.isCall = false)
    (hook : Option (Context R → String → Except ApiError Unit)) (ctx : Context R) (id : String) :
    (runDeleteHook hook event ctx id).Seeks node id? 0 0 := by
  cases hook with
  | none => exact .pure ()
  | some hook => exact .announced h _

/-- A write is no question. -/
theorem seeks_commit (c : Collection R) (wr : Write R) : (c.commit wr).Seeks node id? 0 0 := by
  intro env w
  refine ⟨0, Nat.le_refl 0, Nat.le_refl 0, .of_eq ?_⟩
  have hcalled : (w.called c.node (wr.call c.kind)).sought node = w.sought node := by
    rw [World.sought, World.log_called, List.filterMap_append]
    cases wr <;> exact List.append_nil _
  rcases c.commit_cases wr env w with h | ⟨e, h⟩
  · rw [h]
    exact hcalled
  · rw [h]
    exact hcalled

/-- A fetch shows the resolved resource and does not ask for it. -/
theorem seeks_fetch {r : R} (h : ctx.resource? c.kind.name c.name = some r) : (c.fetch ctx).Seeks node id? 0 0 := by
  have hrequested : c.requested ctx = pure r := by rw [requested, h]
  rw [fetch, hrequested, pure_bind]
  exact c.seeks_respond ctx .get r

/-- **A writing handler asks as often as the stages before its write.** -/
theorem seeks_writing {k : Writing} {body : ByteArray} {lo hi : Nat}
    (h : (c.draft ctx body k).run.Seeks node id? lo hi) : (c.handle k.operation ctx body).Seeks node id? lo hi := by
  have hfinish (wr : Write R) : (c.finish k ctx wr).run.Seeks node id? 0 0 := by
    refine .of_harmless (Pipeline.harmless_run (c.finish_harmless k ctx wr)) fun e he => ?_
    cases e with
    | store node' call => exact he.elim
    | _ => rfl
  rw [handle_eq_stages]
  exact h.after fun wr => (c.seeks_commit wr).after fun _ => hfinish wr

/-- A removal does not ask for what it deletes. -/
theorem seeks_remove (c : Collection R) (ctx : Context R) (body : ByteArray) :
    (c.handle .remove ctx body).Seeks node id? 0 0 := by
  refine seeks_writing (k := .remove) ?_
  rw [draft, Pipeline.run]
  exact (Action.Seeks.lift _).after fun id => (seeks_runDeleteHook rfl _ ctx id).after fun _ => .pure _

/-- A replacement asks for the time of creation, once it comes to that. -/
theorem seeks_replace (h : ctx.id? c.name = some id) (body : ByteArray) :
    (c.handle .replace ctx body).Seeks c.node (some id) 0 1 := by
  have hpath : c.pathId ctx = .ok id := by rw [pathId, h]
  have hidentify (r : R) : (c.identifyAt id r).Seeks c.node (some id) 0 1 := by
    have hcreated : (c.createdAt id).Seeks c.node (some id) 1 1 := by
      refine (Action.seeks_get rfl).after fun outcome => ?_
      rcases outcome with (_ | _) | r
      · exact .pure none
      · exact .lift (.error _)
      · exact .pure _
    refine hcreated.atMost.after fun created => ?_
    cases created with
    | some t => exact .pure _
    | none => exact .of_harmless (Action.Harmless.now.bind fun t => .pure _) fun _ (h : False) => h.elim
  refine seeks_writing (k := .replace) ?_
  simp only [draft, run_readBody, Pipeline.run, hpath, Action.lift_ok, pure_bind]
  exact (Action.Seeks.lift _).before fun r => (Action.Seeks.lift _).before fun _ => (c.seeks_bind ctx _).before fun r =>
    (hidentify r).after fun r => (c.seeks_save ctx r).after fun _ => .pure _

/-- A merge asks for what it merges into, whatever is resolved. -/
theorem seeks_merge (h : ctx.id? c.name = some id) (body : ByteArray) :
    (c.handle .merge ctx body).Seeks c.node (some id) 1 1 := by
  have hpath : c.pathId ctx = .ok id := by rw [pathId, h]
  refine seeks_writing (k := .merge) ?_
  simp only [draft, run_readBody, Pipeline.run, hpath, Action.lift_ok, pure_bind]
  exact (Action.seeks_get rfl).orFail.after fun stored => (Action.Seeks.lift _).after fun r =>
    (Action.Seeks.lift _).after fun _ => (c.seeks_bind ctx _).after fun r => (Action.Seeks.announced rfl _).after
      fun merged => (c.seeks_save ctx _).after fun _ => .pure _

end Collection

/-- **How often the default handlers ask behind a guard**: those that write a resource ask once more. -/
theorem Endpoint.seeks_run {c : Collection R} {op : Operation} {i : Inflight R} {r : R} {id : String}
    (hop : op.onItem = true) (hid : Form.lookup i.params (idParam c.name) = some id)
    (hresolved : i.resolved.get? c.name = some ⟨c.kind.name, r⟩) :
    ((Endpoint.operation c op).run i).Seeks c.node (some id) 0 op.reloads
      ∧ (op = .merge → i.request.body.size ≤ bodyLimit →
        ((Endpoint.operation c op).run i).Seeks c.node (some id) 1 1) := by
  have hpath : i.context.id? c.name = some id := hid
  have hresource : i.context.resource? c.kind.name c.name = some r := by
    simp [Context.resource?, Inflight.context, Context.ofRequest, hresolved]
  -- a body that is too long is refused without asking
  have hbody {f : ByteArray → Action R Response} (h : ∀ body, (f body).Seeks c.node (some id) 0 1) :
      (Action.withBody i.request f).Seeks c.node (some id) 0 1 := by
    rw [Action.withBody]
    split
    · intro env w
      exact ⟨0, Nat.le_refl 0, Nat.zero_le 1, .of_eq rfl⟩
    · exact h _
  cases op with
  | list | create => cases hop
  | fetch => exact ⟨(Collection.seeks_fetch hresource).answered, fun h => by cases h⟩
  | remove => exact ⟨(c.seeks_remove i.context .empty).answered, fun h => by cases h⟩
  | replace => exact ⟨hbody fun body => (Collection.seeks_replace hpath body).answered, fun h => by cases h⟩
  | merge =>
      refine ⟨hbody fun body => (Collection.seeks_merge hpath body).answered.atMost, fun _ hsize => ?_⟩
      have hreads : Collection.readsBody .merge = true := rfl
      rw [run, if_pos hreads, Action.withBody, if_neg (Nat.not_lt.mpr hsize)]
      exact (Collection.seeks_merge hpath _).answered

/-- So a run of a default handler asks as often as it reloads at most, and to merge it does. -/
theorem Endpoint.exists_seeks {c : Collection R} {op : Operation} {i : Inflight R} {r : R} {id : String} {env : Env}
    {w w' : World R} {response : Response} (hop : op.onItem = true)
    (hid : Form.lookup i.params (idParam c.name) = some id)
    (hresolved : i.resolved.get? c.name = some ⟨c.kind.name, r⟩)
    (hrun : (Endpoint.operation c op).run i env w = (.ok response, w')) :
    ∃ k ≤ op.reloads, (op = .merge → i.request.body.size ≤ bodyLimit → k = 1)
      ∧ World.Seeks c.node (some id) k w w' := by
  obtain ⟨hruns, hmerges⟩ := seeks_run hop hid hresolved
  by_cases hmerge : op = .merge ∧ i.request.body.size ≤ bodyLimit
  · obtain ⟨k, hlo, hhi, hk⟩ := hmerges hmerge.1 hmerge.2 env w
    rw [hrun] at hk
    exact ⟨k, by rwa [hmerge.1], fun _ _ => Nat.le_antisymm hhi hlo, hk⟩
  · obtain ⟨k, -, hhi, hk⟩ := hruns env w
    rw [hrun] at hk
    exact ⟨k, hhi, fun h hsize => absurd ⟨h, hsize⟩ hmerge, hk⟩

/-! ## The layers -/

namespace Layer

variable {layer : Layer R} {layers : List (Layer R)} {seen : List String} {i : Inflight R} {env : Env} {w w' : World R}
  {c : Collection R}

/-- **The call of one layer**: none, or that for the resource of its collection if this is not resolved. -/
theorem enter_calls (h : Ready seen (layer :: layers) i) {entry : Entry R}
    (henter : layer.enter i env w = (.ok entry, w')) :
    w'.calls = w.calls ∨ ∃ c, layer.loader? = some c ∧ c.name ∉ seen
      ∧ (Form.lookup i.params (idParam c.name)).isSome ∧ w'.calls = w.calls ++ [c.loading i.params] := by
  cases hl : layer.loader? with
  | none => exact Or.inl (enter_of_plain hl henter).2.2.1
  | some c =>
      have hfits : i.Fits c := h.fits layer List.mem_cons_self c hl
      have hcalls : ∃ outcome w₁, c.requested i.context env w = (outcome, w₁) ∧ w'.calls = w₁.calls := by
        rcases enter_of_loader hl hfits henter with ⟨e, hreq, -⟩ | ⟨r, w₁, hreq, -, -, hcalls, -⟩
        · exact ⟨_, _, hreq, rfl⟩
        · exact ⟨_, _, hreq, hcalls⟩
      obtain ⟨outcome, w₁, hreq, hcalls⟩ := hcalls
      rw [hcalls]
      cases hold : i.resolved.get? c.name with
      | some found =>
          obtain ⟨kind, r⟩ := found
          obtain rfl : kind = c.kind.name := hfits _ hold
          cases (Collection.requested_of_resolved hold).symm.trans hreq
          exact Or.inl rfl
      | none =>
          have hnew : c.name ∉ seen := fun hin => by simpa [hold] using (h.seen_iff c.name).mp hin
          rw [Collection.requested_of_not_resolved hold] at hreq
          cases hid : Form.lookup i.params (idParam c.name) with
          | none =>
              rw [hid] at hreq
              cases hreq
              exact Or.inl rfl
          | some id =>
              simp only [hid, Prod.mk.injEq] at hreq
              obtain ⟨-, rfl⟩ := hreq
              refine Or.inr ⟨c, rfl, hnew, by rw [hid]; rfl, ?_⟩
              rw [World.calls_called, Collection.loading, hid]
              rfl

/-- How often layers may still ask for the resource of a collection. -/
def toSeek (seen : List String) (c : Collection R) : Nat := if c.name ∈ seen then 0 else 1

/-- **One layer asks for a resource only if it may**, and then the layers further in may not. -/
theorem enter_seeks (h : Ready seen (layer :: layers) i)
    (hown : ∀ c', layer.loader? = some c' → c'.node = c.node → c' = c) {entry : Entry R}
    (henter : layer.enter i env w = (.ok entry, w')) :
    ∃ k, World.Seeks c.node (Form.lookup i.params (idParam c.name)) k w w'
      ∧ k + toSeek (layer.seenBehind seen) c ≤ toSeek seen c := by
  -- what is resolved stays so
  have hless : toSeek (layer.seenBehind seen) c ≤ toSeek seen c := by
    unfold toSeek
    split
    · exact Nat.zero_le _
    · next hnot =>
        rw [if_neg fun hin => hnot ?_]
        rw [seenBehind]
        cases layer.loader? with
        | none => exact hin
        | some c' => exact List.mem_insert_of_mem hin
  rcases enter_calls h henter with hcalls | ⟨c', hl, hnew, hid, hcalls⟩
  · exact ⟨0, .of_calls hcalls, by rwa [Nat.zero_add]⟩
  · obtain ⟨id, hid⟩ := Option.isSome_iff_exists.mp hid
    have hloading : c'.loading i.params = .store c'.node (.get id) := by rw [Collection.loading, hid]; rfl
    rw [hloading] at hcalls
    by_cases hnode : c'.node = c.node
    · obtain rfl := hown c' hl hnode
      have hsought : (Event.store c'.node (.get id)).sought? c'.node = some id := if_pos rfl
      have hseeks : World.Seeks c'.node (Form.lookup i.params (idParam c'.name)) _ _ _ :=
        .of_call hcalls fun id' h' => by rw [hid, ← hsought, h']
      rw [hsought] at hseeks
      refine ⟨1, hseeks, ?_⟩
      have hbehind : c'.name ∈ layer.seenBehind seen := by
        rw [seenBehind, hl]
        exact List.mem_insert_self
      rw [toSeek, toSeek, if_pos hbehind, if_neg hnew]
    · -- another store is asked
      have hsought : (Event.store c'.node (.get id)).sought? c.node = none := if_neg hnode
      have hseeks : World.Seeks c.node (Form.lookup i.params (idParam c.name)) _ _ _ :=
        .of_call hcalls fun id' h' => by rw [hsought] at h'; cases h'
      rw [hsought] at hseeks
      exact ⟨0, hseeks, by rwa [Nat.zero_add]⟩

/-- **Layers ask for a resource once at most**, by induction on the layers. -/
theorem descend_seeks (h : Ready seen layers i)
    (hown : ∀ l ∈ layers, ∀ c', l.loader? = some c' → c'.node = c.node → c' = c) {d : Descent R}
    (hdescend : descend layers i env w = (.ok d, w')) :
    ∃ k ≤ toSeek seen c, World.Seeks c.node (Form.lookup i.params (idParam c.name)) k w w' := by
  induction layers generalizing i seen w d with
  | nil =>
      cases hdescend
      exact ⟨0, Nat.zero_le _, .of_eq rfl⟩
  | cons layer layers ih =>
      obtain ⟨entry, w₁, henter, hrest⟩ := Action.bind_eq_ok.mp hdescend
      obtain ⟨k, hseeks, hk⟩ := enter_seeks h (hown layer List.mem_cons_self) henter
      cases entry with
      | stopped s =>
          cases hrest
          exact ⟨k, by omega, hseeks⟩
      | passed i₁ =>
          obtain ⟨d', w₂, hinner, hbehind⟩ := Action.bind_eq_ok.mp hrest
          cases hbehind
          obtain ⟨k', hk', hseeks'⟩ := ih (h.onward henter) (fun l hl => hown l (List.mem_cons_of_mem layer hl)) hinner
          rw [enter_params henter] at hseeks'
          exact ⟨k + k', by omega, hseeks.trans hseeks'⟩

/-- What a layer asks for is loaded if it is not resolved already, by induction on the layers. -/
theorem mem_toLoad_of_mem (hagree : Agree layers) (hl : layer ∈ layers) (hc : layer.loader? = some c)
    (hnew : c.name ∉ seen) : c ∈ toLoad seen layers := by
  induction layers generalizing seen with
  | nil => cases hl
  | cons first layers ih =>
      have hrest : Agree layers := fun l hl l' hl' =>
        hagree l (List.mem_cons_of_mem first hl) l' (List.mem_cons_of_mem first hl')
      rcases List.mem_cons.mp hl with rfl | hl
      · rw [toLoad, hc]
        simp only [if_neg hnew, List.mem_cons_self]
      · rw [toLoad]
        cases hfirst : first.loader? with
        | none => exact ih hrest hl hnew
        | some c' =>
            by_cases hin : c'.name ∈ seen
            · simp only [if_pos hin]
              exact ih hrest hl hnew
            · simp only [if_neg hin, List.mem_cons]
              by_cases hname : c.name = c'.name
              · exact Or.inl (hagree layer (List.mem_cons_of_mem first hl) first List.mem_cons_self c c' hc hfirst hname)
              · exact Or.inr (ih hrest hl fun h => (List.mem_cons.mp h).elim hname hnew)

/-- A request that arrives behind a layer that asks for a resource has it resolved, and its store was asked. -/
theorem sought_of_arrived (h : Ready seen layers i) (hload : c ∈ toLoad seen layers) {i' : Inflight R}
    (hdescend : descend layers i env w = (.ok (.arrived i'), w')) {k : Nat}
    (hseeks : World.Seeks c.node (Form.lookup i.params (idParam c.name)) k w w') :
    1 ≤ k ∧ ∃ id r, Form.lookup i.params (idParam c.name) = some id
      ∧ i'.resolved.get? c.name = some ⟨c.kind.name, r⟩ := by
  obtain ⟨hcalls, hloads, -⟩ := descend_loads h hdescend
  obtain ⟨p, hp⟩ := List.getElem?_of_mem hload
  obtain ⟨r, ⟨id, hid, -⟩, hresolved⟩ := hloads p c hp
  refine ⟨?_, id, r, hid, hresolved⟩
  obtain ⟨ids, hids, rfl, -⟩ := hseeks
  -- the call for the resource is among those that were made
  have hloading : c.loading i.params = .store c.node (.get id) := by rw [Collection.loading, hid]; rfl
  rw [World.sought_eq_calls, World.sought_eq_calls, hcalls, List.filterMap_append, List.append_cancel_left_eq] at hids
  have hmem : id ∈ ids := by
    rw [← hids]
    exact List.mem_filterMap.mpr ⟨_, List.mem_map_of_mem hload, by rw [hloading]; exact if_pos rfl⟩
  exact List.length_pos_of_mem hmem

end Layer

/-! ## Requests -/

section Tree

variable {n : Node R} {routes : List (Route R)} {request : Request} {route : Route R}
  {taken : List (String × String)} {c : Collection R} {op : Operation} {env : Env} {w : World R}

/-- **How often a guarded resource is loaded.** On the way to a default handler of one resource whose API has guards,
the store of the API is asked for the resource under the ID of the path, and for no other. A request that is stopped
has asked for it once at most. One that arrives has it resolved, and nobody asks for it again to fetch or to remove it.
The handlers that replace and merge do not look at what is resolved: the one asks once more for the time of creation,
and the other always does, for what it merges into. -/
theorem guarded_loads (hn : n.router = .ok routes)
    (hlookup : Route.lookup (routes.map fun r => (r.pattern, r)) request.path = some (route, taken))
    (hendpoint : route.endpoint? request.method = some (.operation c op)) (hop : op.onItem = true)
    (hguarded : ∃ g, Layer.guard c g ∈ route.layers) :
    ∃ d w₁ k, Layer.descend route.layers (Router.dispatched request taken) env w = (.ok d, w₁)
      ∧ World.Seeks c.node (Form.lookup (Router.decodeParams taken) (idParam c.name)) k w
        (Router.answer routes request env w).2
      ∧ match d with
        | .stopped _ _ => k ≤ 1
        | .arrived i => 1 ≤ k ∧ k ≤ 1 + op.reloads ∧ (op = .merge → i.request.body.size ≤ bodyLimit → k = 2) := by
  obtain ⟨site, hsite, rfl, -⟩ := Node.site_of_lookup hn hlookup
  have hready := site.ready ((Node.router_ok hn).nodup .nil site hsite) request taken
  have hc := (Site.collection_of_endpoint hendpoint).1
  have hown : ∀ l ∈ (site.route .root).layers, ∀ c', l.loader? = some c' → c'.node = c.node → c' = c :=
    fun l hl c' hc' hnode => Site.loader_eq hc hl hc' hnode
  obtain ⟨d, w₁, hdescend⟩ := Layer.descend_apply (site.route .root).layers (Router.dispatched request taken) env w
  obtain ⟨k, hk, hseeks⟩ := Layer.descend_seeks hready hown hdescend
  have hk : k ≤ 1 := hk
  cases d with
  | stopped outer s =>
      obtain ⟨w', hanswer, -, hleaves⟩ := Router.answer_of_stopped hlookup hdescend
      refine ⟨_, w₁, k, hdescend, ?_, hk⟩
      rw [hanswer]
      exact hseeks.trans (.of_leaving hleaves)
  | arrived i =>
      obtain ⟨g, hg⟩ := hguarded
      have hload := Layer.mem_toLoad_of_mem hready.agree hg rfl List.not_mem_nil
      obtain ⟨hone, id, r, hid, hresolved⟩ := Layer.sought_of_arrived hready hload hdescend hseeks
      have hparams : i.params = Router.decodeParams taken := Layer.descend_params hdescend
      have hid' : Form.lookup i.params (idParam c.name) = some id := by rw [hparams]; exact hid
      obtain ⟨response, w₂, hrun, -⟩ := Endpoint.run_events c op i env w₁
      have hreached : (site.route .root).reached request.method i env w₁ = (.ok response, w₂) := by
        rw [Route.reached, hendpoint]
        exact hrun
      obtain ⟨w', hanswer, -, hleaves⟩ := Router.answer_of_arrived hlookup hdescend hreached
      obtain ⟨k', hk', hmerge, hmore⟩ := Endpoint.exists_seeks hop hid' hresolved hrun
      rw [← show Form.lookup (Router.decodeParams taken) (idParam c.name) = some id from hid] at hmore
      refine ⟨_, w₁, k + k', hdescend, ?_, by omega, by omega, fun h hsize => ?_⟩
      · rw [hanswer]
        exact (hseeks.trans hmore).trans (.of_leaving hleaves)
      · have hagain := hmerge h hsize
        omega

end Tree

namespace Ledger

/-- A request to look at an entry. -/
def looking : Request := ⟨.get, "/entries/e", none, [], .empty⟩

/-- A request to merge nothing into an entry. -/
def touching : Request := ⟨.patch, "/entries/e", none, [], "\x7b\x7d".toUTF8⟩

end Ledger

open Ledger in
/-- An entry is loaded once at most by who looks at it, and no more than twice by who changes it. -/
theorem guarded_loads_ledger :
    (∃ k ≤ 1, World.Seeks ["entries"] (some "e") k world
        (Router.answer (routes sealed) looking (Env.quiet "m") world).2)
      ∧ ∃ k ≤ 2, World.Seeks ["entries"] (some "e") k world
        (Router.answer (routes sealed) touching (Env.quiet "m") world).2 := by
  have hid : Form.lookup (Router.decodeParams [("entries_id", "e")]) (idParam (entries sealed).name) = some "e" := by
    cbv
  have hguarded : ∃ g, Layer.guard (entries sealed) g ∈ (item sealed).layers := ⟨_, List.mem_cons_self⟩
  have hrouter : (tree sealed).router = .ok (routes sealed) := Node.router_eq (by decide +kernel)
  refine ⟨?_, ?_⟩
  · have hlookup : Route.lookup ((routes sealed).map fun r => (r.pattern, r)) looking.path
        = some (item sealed, [("entries_id", "e")]) := rfl
    have hendpoint : (item sealed).endpoint? looking.method = some (.operation (entries sealed) .fetch) := rfl
    obtain ⟨d, w₁, k, -, hseeks, hk⟩ : ∃ d w₁ k, Layer.descend (item sealed).layers _ (Env.quiet "m") world
        = (.ok d, w₁) ∧ _ := guarded_loads hrouter hlookup hendpoint rfl hguarded
    rw [hid] at hseeks
    refine ⟨k, ?_, hseeks⟩
    cases d with
    | stopped outer s => exact hk
    | arrived i => exact hk.2.1
  · have hlookup : Route.lookup ((routes sealed).map fun r => (r.pattern, r)) touching.path
        = some (item sealed, [("entries_id", "e")]) := rfl
    have hendpoint : (item sealed).endpoint? touching.method = some (.operation (entries sealed) .merge) := rfl
    obtain ⟨d, w₁, k, -, hseeks, hk⟩ : ∃ d w₁ k, Layer.descend (item sealed).layers _ (Env.quiet "m") world
        = (.ok d, w₁) ∧ _ := guarded_loads hrouter hlookup hendpoint rfl hguarded
    rw [hid] at hseeks
    refine ⟨k, ?_, hseeks⟩
    cases d with
    | stopped outer s => exact Nat.le_succ_of_le hk
    | arrived i => exact hk.2.1

open Ledger in
/-- **To replace or to merge, a guarded resource is loaded again** behind the guard that has accepted it. -/
theorem writes_load_again :
    (∃ g, Layer.guard (entries unsealed) g ∈ (item unsealed).layers)
      ∧ (item unsealed).endpoint? closing.method = some (.operation (entries unsealed) .replace)
      ∧ (Router.answer (routes unsealed) closing (Env.quiet "m") world).2.sought ["entries"] = ["e", "e"]
      ∧ (item unsealed).endpoint? touching.method = some (.operation (entries unsealed) .merge)
      ∧ (Router.answer (routes unsealed) touching (Env.quiet "m") world).2.sought ["entries"] = ["e", "e"] :=
  ⟨⟨_, List.mem_cons_self⟩, rfl, by decide +kernel, rfl, by decide +kernel⟩

end ResourceTree
