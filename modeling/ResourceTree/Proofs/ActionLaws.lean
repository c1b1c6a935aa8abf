import ResourceTree.Api.Router

/-! # Laws of actions

Actions form a lawful monad, so a handler may be regrouped into its stages. Most of what a request does is
*harmless*: it leaves every store as it is, logs only events of a known class, gives back no generated ID and
does not run out of time.
`Action.Harmless` says so of one action and is kept by sequencing (`Harmless.bind`). It holds of every
primitive but the two writes, for which `set_apply` and `delete_apply` say exactly what happens. -/

namespace ResourceTree

/-- The API that an event is about. -/
def Event.node : Event → NodeKey
  | .store node _ | .bind node | .patch node | .render node | .page node | .filter node | .wrap node _
  | .wrapList node _ | .renderView node | .pageView node | .save node _ _ | .beforeDelete node _
  | .afterDelete node _ | .guard node _ _ | .enter node _ | .leave node _ _ | .handler node _ => node

namespace World

variable {R : Type}

/-- The world after a call on the store of an API was logged and counted. -/
def called (w : World R) (node : NodeKey) (c : StoreCall) : World R :=
  { w with log := w.log ++ [.store node c], storeCalls := w.storeCalls + 1 }

@[simp] theorem stores_called (w : World R) (node : NodeKey) (c : StoreCall) :
    (w.called node c).stores = w.stores := rfl

@[simp] theorem log_called (w : World R) (node : NodeKey) (c : StoreCall) :
    (w.called node c).log = w.log ++ [.store node c] := rfl

@[simp] theorem idsUsed_called (w : World R) (node : NodeKey) (c : StoreCall) :
    (w.called node c).idsUsed = w.idsUsed := rfl

/-- Putting a store back in its own place changes nothing. -/
@[simp] theorem setStore_self (w : World R) (node : NodeKey) :
    w.setStore node (w.stores node) = w := by
  have h : (fun other => if other = node then w.stores node else w.stores other) = w.stores := by
    funext other
    by_cases ho : other = node
    · rw [if_pos ho, ho]
    · rw [if_neg ho]
  rw [setStore, h]

/-- The second world has the log of the first with events of a class behind it. -/
def LogsOnly (P : Event → Prop) (w w' : World R) : Prop :=
  ∃ events, w'.log = w.log ++ events ∧ ∀ e ∈ events, P e

theorem LogsOnly.refl (P : Event → Prop) (w : World R) : LogsOnly P w w :=
  ⟨[], (List.append_nil w.log).symm, by simp⟩

theorem LogsOnly.trans {P : Event → Prop} {w w₁ w₂ : World R} (h : LogsOnly P w w₁)
    (h' : LogsOnly P w₁ w₂) : LogsOnly P w w₂ := by
  obtain ⟨events, hlog, hall⟩ := h
  obtain ⟨more, hmore, hallMore⟩ := h'
  refine ⟨events ++ more, ?_, ?_⟩
  · rw [hmore, hlog, List.append_assoc]
  · intro e he
    rcases List.mem_append.mp he with he | he
    · exact hall e he
    · exact hallMore e he

/-- A call is one event. -/
theorem LogsOnly.called {P : Event → Prop} {node : NodeKey} {call : StoreCall} (h : P (.store node call))
    (w : World R) : LogsOnly P w (w.called node call) := by
  refine ⟨_, log_called w node call, fun e he => ?_⟩
  rw [List.mem_singleton.mp he]
  exact h

theorem LogsOnly.mono {P Q : Event → Prop} {w w' : World R} (h : LogsOnly P w w')
    (hpq : ∀ e, P e → Q e) : LogsOnly Q w w' := by
  obtain ⟨events, hlog, hall⟩ := h
  exact ⟨events, hlog, fun e he => hpq e (hall e he)⟩

end World

namespace Action

variable {R α β γ : Type}

/-! ## Sequencing -/

/-- After a success the rest of a chain goes on from the world that the first action left. -/
theorem bind_of_ok {x : Action R α} {env : Env} {w w₁ : World R} {a : α}
    (h : x env w = (.ok a, w₁)) (f : α → Action R β) : (x >>= f) env w = f a env w₁ := by
  rw [bind_apply, h]

/-- A failure ends a chain: nothing of the rest runs. -/
theorem bind_of_error {x : Action R α} {env : Env} {w w₁ : World R} {e : Failure}
    (h : x env w = (.error e, w₁)) (f : α → Action R β) : (x >>= f) env w = (.error e, w₁) := by
  rw [bind_apply, h]

/-- **Sequencing of actions is a lawful monad.** -/
instance : LawfulMonad (Action R) := LawfulMonad.mk' (Action R)
  (fun x => by
    funext env w
    change (match x env w with | (.ok a, w) => (.ok a, w) | (.error e, w) => (.error e, w)) = x env w
    rcases x env w with ⟨_ | _, _⟩ <;> rfl)
  (fun _ _ => rfl)
  (fun x f g => by
    funext env w
    simp only [bind_apply]
    rcases x env w with ⟨_ | _, _⟩ <;> rfl)

@[simp] theorem fail_apply (e : ApiError) (env : Env) (w : World R) :
    (fail e : Action R α) env w = (.error (.api e), w) := rfl

@[simp] theorem lift_ok (a : α) : (lift (.ok a) : Action R α) = pure a := rfl

@[simp] theorem lift_error (e : ApiError) : (lift (.error e) : Action R α) = fail e := rfl

@[simp] theorem emit_apply (e : Event) (env : Env) (w : World R) :
    emit e env w = (.ok (), { w with log := w.log ++ [e] }) := rfl

@[simp] theorem freshId_apply (env : Env) (w : World R) :
    freshId env w = (.ok (env.freshId w.idsUsed), { w with idsUsed := w.idsUsed + 1 }) := rfl

@[simp] theorem now_apply (env : Env) (w : World R) :
    now env w = (.ok (env.now w.looksAtClock), { w with looksAtClock := w.looksAtClock + 1 }) := rfl

/-- Lifting a chain of computations is chaining the lifted ones. -/
theorem lift_bind (x : Except ApiError α) (f : α → Except ApiError β) :
    (lift (x >>= f) : Action R β) = lift x >>= fun a => lift (f a) := by
  cases x <;> rfl

/-- A lifted computation succeeds with what the computation gives, and touches nothing. -/
theorem lift_eq_ok {x : Except ApiError α} {env : Env} {w w' : World R} {a : α} :
    lift x env w = (.ok a, w') ↔ x = .ok a ∧ w' = w := by
  cases x with
  | error e => simp [Prod.ext_iff]
  | ok b => simp [Prod.ext_iff, eq_comm]

/-- Chaining actions succeeds when both do. -/
theorem bind_eq_ok {x : Action R α} {f : α → Action R β} {env : Env} {w w' : World R} {b : β} :
    (x >>= f) env w = (.ok b, w') ↔ ∃ a w₁, x env w = (.ok a, w₁) ∧ f a env w₁ = (.ok b, w') := by
  rw [bind_apply]
  rcases x env w with ⟨e | a, w₁⟩
  · constructor
    · intro h
      cases h
    · rintro ⟨a, w₂, h, -⟩
      cases h
  · constructor
    · intro h
      exact ⟨a, w₁, rfl, h⟩
    · rintro ⟨a', w₂, h, h'⟩
      cases h
      exact h'

/-! ## Outcomes as answers -/

/-- The outcome of an action that succeeds is what it gives. -/
theorem attempt_of_ok {x : Action R α} {env : Env} {w w₁ : World R} {a : α}
    (h : x env w = (.ok a, w₁)) : x.attempt env w = (.ok (.ok a), w₁) := by
  simp [attempt, h]

/-- The outcome of an action that fails is its error. -/
theorem attempt_of_error {x : Action R α} {env : Env} {w w₁ : World R} {e : ApiError}
    (h : x env w = (.error (.api e), w₁)) : x.attempt env w = (.ok (.error e), w₁) := by
  simp [attempt, h]

/-- An action that succeeds is answered with what it gives. -/
theorem answered_of_ok {x : Action R Response} {env : Env} {w w₁ : World R} {r : Response}
    (h : x env w = (.ok r, w₁)) : x.answered env w = (.ok r, w₁) :=
  bind_of_ok (attempt_of_ok h) _

/-- An action that fails is answered with its error. -/
theorem answered_of_error {x : Action R Response} {env : Env} {w w₁ : World R} {e : ApiError}
    (h : x env w = (.error (.api e), w₁)) : x.answered env w = (.ok (.error e), w₁) :=
  bind_of_ok (attempt_of_error h) _

/-! ## Storage calls -/

/-- What a get call comes to: the outage that hits it, or else what the store has. -/
def found (env : Env) (w : World R) (node : NodeKey) (id : String) : Except StorageError R :=
  match env.outage node w.storeCalls (.get id) with
  | some e => .error e
  | none => (w.stores node).get id

/-- Every call is logged; it breaks down if an outage hits it, and else does to the store what it says. -/
theorem call_apply (node : NodeKey) (c : StoreCall)
    (f : Store R → Except StorageError (α × Store R)) (env : Env) (w : World R) :
    call node c f env w = match env.outage node w.storeCalls c with
      | some e => (.ok (.error e), w.called node c)
      | none =>
        match f (w.stores node) with
        | .ok (a, s) => (.ok (.ok a), (w.called node c).setStore node s)
        | .error e => (.ok (.error e), w.called node c) := rfl

/-- **A get call** is logged and changes no store. -/
theorem get_apply (node : NodeKey) (id : String) (env : Env) (w : World R) :
    get node id env w = (.ok (found env w node id), w.called node (.get id)) := by
  rw [get, call_apply, found]
  cases env.outage node w.storeCalls (.get id) with
  | some e => rfl
  | none =>
      cases (w.stores node).get id with
      | error e => rfl
      | ok r => exact congrArg _ ((w.called node (.get id)).setStore_self node)

/-- A list call is logged and changes no store. -/
theorem list_apply (node : NodeKey) (p : R → Bool) (env : Env) (w : World R) :
    list node p env w = (.ok (match env.outage node w.storeCalls .list with
      | some e => .error e
      | none => .ok ((w.stores node).select p)), w.called node .list) := by
  rw [list, call_apply]
  cases env.outage node w.storeCalls .list with
  | some e => rfl
  | none => exact congrArg _ ((w.called node .list).setStore_self node)

/-- **A set call** is logged; unless it breaks down, the store has the resource under the ID then. -/
theorem set_apply (node : NodeKey) (id : String) (r : R) (env : Env) (w : World R) :
    set node id r env w = match env.outage node w.storeCalls (.set id) with
      | some e => (.ok (.error e), w.called node (.set id))
      | none => (.ok (.ok ()), (w.called node (.set id)).setStore node ((w.stores node).insert id r)) :=
  rfl

/-- **A delete call** is logged; unless it breaks down or nothing is stored there, the ID is erased. -/
theorem delete_apply (node : NodeKey) (id : String) (env : Env) (w : World R) :
    delete node id env w = match env.outage node w.storeCalls (.delete id) with
      | some e => (.ok (.error e), w.called node (.delete id))
      | none =>
        match (w.stores node).get? id with
        | some _ =>
          (.ok (.ok ()), (w.called node (.delete id)).setStore node ((w.stores node).erase id))
        | none => (.ok (.error .notFound), w.called node (.delete id)) := by
  rw [delete, call_apply]
  cases env.outage node w.storeCalls (.delete id) with
  | some e => rfl
  | none =>
      simp only [Store.delete]
      cases (w.stores node).get? id <;> rfl

/-! ## Harmless actions -/

/-- An action that leaves every store as it is, logs only events of a class, gives back no generated ID, and ends
in time. -/
structure Harmless (P : Event → Prop) (x : Action R α) : Prop where
  stores : ∀ env w, (x env w).2.stores = w.stores
  log : ∀ (env : Env) (w : World R), w.LogsOnly P (x env w).2
  ids : ∀ env w, w.idsUsed ≤ (x env w).2.idsUsed
  inTime : ∀ env w, (x env w).1 ≠ .error .expired

namespace Harmless

variable {P Q : Event → Prop}

/-- A harmless action stays so for a larger class of events. -/
theorem mono {x : Action R α} (h : Harmless P x) (hpq : ∀ e, P e → Q e) : Harmless Q x where
  stores := h.stores
  log env w := (h.log env w).mono hpq
  ids := h.ids
  inTime := h.inTime

/-- Actions that change nothing but supplies and counters are harmless. -/
theorem of_silent {x : Action R α} (hstores : ∀ env w, (x env w).2.stores = w.stores)
    (hlog : ∀ env w, (x env w).2.log = w.log) (hids : ∀ env w, w.idsUsed ≤ (x env w).2.idsUsed)
    (htime : ∀ env w, (x env w).1 ≠ .error .expired) : Harmless P x where
  stores := hstores
  log env w := ⟨[], by rw [hlog, List.append_nil], by simp⟩
  ids := hids
  inTime := htime

theorem pure (a : α) : Harmless P (pure a : Action R α) :=
  of_silent (fun _ _ => rfl) (fun _ _ => rfl) (fun _ _ => Nat.le_refl _) (fun _ _ => by simp)

theorem fail (e : ApiError) : Harmless P (fail e : Action R α) :=
  of_silent (fun _ _ => rfl) (fun _ _ => rfl) (fun _ _ => Nat.le_refl _) (fun _ _ => by simp)

theorem lift (x : Except ApiError α) : Harmless P (lift x : Action R α) := by
  cases x with
  | error e => exact fail e
  | ok a => exact pure a

theorem freshId : Harmless P (freshId : Action R String) :=
  of_silent (fun _ _ => rfl) (fun _ _ => rfl) (fun _ w => Nat.le_succ w.idsUsed) (fun _ _ => by simp)

theorem now : Harmless P (now : Action R Timestamp) :=
  of_silent (fun _ _ => rfl) (fun _ _ => rfl) (fun _ _ => Nat.le_refl _) (fun _ _ => by simp)

/-- Logging an event of the class is harmless. -/
theorem emit {e : Event} (h : P e) : Harmless P (emit e : Action R Unit) where
  stores _ _ := rfl
  log _ _ := ⟨[e], rfl, by simpa using h⟩
  ids _ _ := Nat.le_refl _
  inTime _ _ := by simp

/-- **Sequencing keeps actions harmless.** -/
theorem bind {x : Action R α} {f : α → Action R β} (hx : Harmless P x)
    (hf : ∀ a, Harmless P (f a)) : Harmless P (x >>= f) where
  stores env w := by
    have hs := hx.stores env w
    rw [bind_apply]
    rcases h : x env w with ⟨e | a, w₁⟩ <;> rw [h] at hs
    · exact hs
    · exact ((hf a).stores env w₁).trans hs
  log env w := by
    have hl := hx.log env w
    rw [bind_apply]
    rcases h : x env w with ⟨e | a, w₁⟩ <;> rw [h] at hl
    · exact hl
    · exact hl.trans ((hf a).log env w₁)
  ids env w := by
    have hi := hx.ids env w
    rw [bind_apply]
    rcases h : x env w with ⟨e | a, w₁⟩ <;> rw [h] at hi
    · exact hi
    · exact Nat.le_trans hi ((hf a).ids env w₁)
  inTime env w := by
    have ht := hx.inTime env w
    rw [bind_apply]
    rcases h : x env w with ⟨e | a, w₁⟩ <;> rw [h] at ht
    · simpa using ht
    · exact (hf a).inTime env w₁

/-- A logged computation is harmless where its event belongs to the class. -/
theorem announced {e : Event} (h : P e) (x : Except ApiError α) :
    Harmless P (do Action.emit e; Action.lift x : Action R α) :=
  (emit h).bind fun _ => lift x

/-- A get call is harmless where such calls belong to the class. -/
theorem get {node : NodeKey} {id : String} (h : P (.store node (.get id))) :
    Harmless P (get node id : Action R (Except StorageError R)) where
  stores env w := by rw [get_apply, World.stores_called]
  log env w := ⟨[.store node (.get id)], by rw [get_apply, World.log_called], by simpa using h⟩
  ids env w := Nat.le_of_eq (by rw [get_apply, World.idsUsed_called])
  inTime env w := by simp [get_apply]

/-- A list call is harmless where such calls belong to the class. -/
theorem list {node : NodeKey} {p : R → Bool} (h : P (.store node .list)) :
    Harmless P (list node p : Action R (Except StorageError (List R))) where
  stores env w := by rw [list_apply, World.stores_called]
  log env w := ⟨[.store node .list], by rw [list_apply, World.log_called], by simpa using h⟩
  ids env w := Nat.le_of_eq (by rw [list_apply, World.idsUsed_called])
  inTime env w := by simp [list_apply]

theorem orFail {x : Action R (Except StorageError α)} (h : Harmless P x) : Harmless P (orFail x) := by
  refine h.bind fun outcome => ?_
  cases outcome with
  | ok a => exact pure a
  | error e => exact fail (.ofStorage e)

/-- The outcome of a harmless action may be looked at as a value. -/
theorem attempt {x : Action R α} (h : Harmless P x) : Harmless P (attempt x) where
  stores env w := by
    have hs := h.stores env w
    unfold Action.attempt
    rcases hx : x env w with ⟨(e | _) | a, w₁⟩ <;> rw [hx] at hs <;> exact hs
  log env w := by
    have hl := h.log env w
    unfold Action.attempt
    rcases hx : x env w with ⟨(e | _) | a, w₁⟩ <;> rw [hx] at hl <;> exact hl
  ids env w := by
    have hi := h.ids env w
    unfold Action.attempt
    rcases hx : x env w with ⟨(e | _) | a, w₁⟩ <;> rw [hx] at hi <;> exact hi
  inTime env w := by
    have ht := h.inTime env w
    unfold Action.attempt
    rcases hx : x env w with ⟨(e | _) | a, w₁⟩ <;> rw [hx] at ht <;> simp_all

/-- Looking at the outcome of a harmless action always gives one. -/
theorem attempts {x : Action R α} (h : Harmless P x) (env : Env) (w : World R) :
    ∃ outcome w', x.attempt env w = (.ok outcome, w') := by
  have ht := h.inTime env w
  unfold Action.attempt
  rcases hx : x env w with ⟨(e | _) | a, w'⟩
  · exact ⟨.error e, w', rfl⟩
  · rw [hx] at ht
    exact absurd rfl ht
  · exact ⟨.ok a, w', rfl⟩

/-- The error of a harmless action may be its answer. -/
theorem answered {x : Action R Response} (h : Harmless P x) : Harmless P x.answered := by
  refine h.attempt.bind fun outcome => ?_
  cases outcome with
  | ok response => exact pure response
  | error e => exact pure (Response.error e)

/-- **A harmless action always answers.** -/
theorem answers {x : Action R Response} (h : Harmless P x) (env : Env) (w : World R) :
    ∃ response w', x.answered env w = (.ok response, w') := by
  obtain ⟨outcome, w', hx⟩ := h.attempts env w
  unfold Action.answered
  rw [bind_of_ok hx]
  cases outcome with
  | ok response => exact ⟨response, w', rfl⟩
  | error e => exact ⟨_, w', rfl⟩

end Harmless

end Action

end ResourceTree
