import ResourceTree.Proofs.Stages

/-! # The identity of what is written

Whatever binding, patching and the hook before storing do to a resource, the write that a draft comes to bears
the identity that the handler settled: `create_passes`, `replace_passes`, `merge_passes` and `remove_passes`
say which one, in terms of the request and of the store before it. They hold of every hook, since each draft
puts the identity back last (`Collection.restored`). -/

namespace ResourceTree

variable {R α : Type}

/-- No storage call breaks down by claiming that the resource is not there: only the store says so. -/
def Env.Honest (env : Env) : Prop := ∀ node n call, env.outage node n call ≠ some .notFound

/-- Supplies without a failure: all generated IDs are this one, and the clock ticks once a second. -/
def Env.quiet (id : String) : Env where
  freshId _ := id
  now n := ⟨n, 0⟩
  outage _ _ _ := none
  deadline := none

theorem Env.quiet_honest (id : String) : (quiet id).Honest := fun _ _ _ h => by cases h

namespace Action

/-- A get call that succeeds gives what is stored. -/
theorem found_ok {env : Env} {w : World R} {node : NodeKey} {id : String} {r : R}
    (h : found env w node id = .ok r) : (w.stores node).get? id = some r := by
  rw [found] at h
  cases ho : env.outage node w.storeCalls (.get id) with
  | some e => simp [ho] at h
  | none =>
      simp only [ho, Store.get] at h
      cases hs : (w.stores node).get? id with
      | some r' => simp_all
      | none => simp [hs] at h

/-- If the backend is honest, a get call that finds nothing tells the truth. -/
theorem found_notFound {env : Env} (hh : env.Honest) {w : World R} {node : NodeKey} {id : String}
    (h : found env w node id = .error .notFound) : (w.stores node).get? id = none := by
  rw [found] at h
  cases ho : env.outage node w.storeCalls (.get id) with
  | some e =>
      simp only [ho, Except.error.injEq] at h
      exact absurd (h ▸ ho) (hh node w.storeCalls (.get id))
  | none =>
      simp only [ho, Store.get] at h
      cases hs : (w.stores node).get? id with
      | some r => simp [hs] at h
      | none => rfl

/-- A storage call whose error ends the request goes on with what it gives. -/
theorem orFail_eq_ok {x : Action R (Except StorageError α)} {env : Env} {w w' : World R} {a : α} :
    orFail x env w = (.ok a, w') ↔ x env w = (.ok (.ok a), w') := by
  rw [orFail, bind_eq_ok]
  constructor
  · rintro ⟨outcome, w₁, hx, h⟩
    cases outcome with
    | error e => cases h
    | ok b =>
        cases h
        exact hx
  · intro hx
    exact ⟨.ok a, w', hx, rfl⟩

/-- A logged computation that succeeds adds its event to the log, and that is all. -/
theorem announced_eq_ok {e : Event} {x : Except ApiError α} {env : Env} {w w' : World R} {a : α} :
    (do emit e; lift x : Action R α) env w = (.ok a, w')
      ↔ x = .ok a ∧ w' = { w with log := w.log ++ [e] } := by
  rw [bind_eq_ok]
  constructor
  · rintro ⟨_, w₁, hemit, hx⟩
    cases hemit
    exact lift_eq_ok.mp hx
  · rintro ⟨hx, rfl⟩
    exact ⟨(), _, rfl, lift_eq_ok.mpr ⟨hx, rfl⟩⟩

end Action

namespace Collection

variable {c : Collection R} {ctx : Context R} {body : ByteArray} {env : Env} {w w' : World R}

/-- Reading a body goes on with the resource that it stands for, in the same world. -/
theorem readBody_passes {rest : R → Pipeline R α} {a : α} :
    (c.readBody body rest).Passes env w a w'
      ↔ ∃ r, c.bindBody body = .ok r ∧ (rest r).Passes env w a w' := by
  constructor
  · intro h
    have hrun := Pipeline.run_of_passes h
    rw [run_readBody] at hrun
    obtain ⟨r, w₁, hlift, hrest⟩ := Action.bind_eq_ok.mp hrun
    obtain ⟨hr, rfl⟩ := Action.lift_eq_ok.mp hlift
    exact ⟨r, hr, Pipeline.passes_of_run hrest⟩
  · rintro ⟨r, hr, hrest⟩
    refine Pipeline.passes_of_run ?_
    rw [run_readBody]
    exact Action.bind_eq_ok.mpr ⟨r, w, Action.lift_eq_ok.mpr ⟨hr, rfl⟩, Pipeline.run_of_passes hrest⟩

/-- The bind hook touches nothing but the log. -/
theorem bind_ok {r bound : R} (h : c.bind ctx r env w = (.ok bound, w')) :
    w' = { w with log := w.log ++ [.bind c.node] } :=
  (Action.announced_eq_ok.mp h).2

/-- An ID passes as unused only if the store has nothing under it. -/
theorem checkUnused_ok (hh : env.Honest) {id : String} {u : Unit}
    (h : c.checkUnused id env w = (.ok u, w')) :
    (w.stores c.node).get? id = none ∧ w' = w.called c.node (.get id) := by
  obtain ⟨outcome, w₁, hget, hrest⟩ := Action.bind_eq_ok.mp h
  rw [Action.get_apply] at hget
  obtain ⟨hfound, rfl⟩ := Prod.mk.inj hget
  have hfound := Except.ok.inj hfound
  rcases outcome with (_ | _) | r
  · cases hrest
    exact ⟨Action.found_notFound hh hfound, rfl⟩
  · cases hrest
  · cases hrest

/-- **A new resource gets a fresh ID or its own unused one**, and is created now. -/
theorem identifyNew_ok (hh : env.Honest) {posted r : R}
    (h : c.identifyNew posted env w = (.ok r, w')) :
    ∃ id, c.kind.identity r = ⟨id, some (env.now w.looksAtClock)⟩
      ∧ (c.kind.id posted = "" ∧ id = env.freshId w.idsUsed
        ∨ c.kind.id posted ≠ "" ∧ id = c.kind.id posted ∧ (w.stores c.node).get? id = none) := by
  -- either way the time is looked up in the end
  have htime {named : R} {w₁ : World R} (ht : (do
      let t ← Action.now
      pure (c.kind.withIdentity named ⟨c.kind.id named, some t⟩) : Action R R) env w₁ = (.ok r, w')) :
      c.kind.identity r = ⟨c.kind.id named, some (env.now w₁.looksAtClock)⟩ := by
    cases ht
    simp
  rw [identifyNew] at h
  by_cases hid : c.kind.id posted = ""
  · rw [if_pos hid] at h
    obtain ⟨id, w₁, hfresh, hrest⟩ := Action.bind_eq_ok.mp h
    cases hfresh
    refine ⟨env.freshId w.idsUsed, ?_, Or.inl ⟨hid, rfl⟩⟩
    rw [htime hrest, Kind.id_withId]
  · rw [if_neg hid] at h
    obtain ⟨u, w₁, hunused, hrest⟩ := Action.bind_eq_ok.mp h
    obtain ⟨hnone, rfl⟩ := checkUnused_ok hh hunused
    have hidentity := htime hrest
    exact ⟨c.kind.id posted, hidentity, Or.inr ⟨hid, rfl, hnone⟩⟩

/-- **A resource for an ID keeps the time of creation that is stored there**, and is created now only if there
is none. -/
theorem identifyAt_ok (hh : env.Honest) {id : String} {bound r : R}
    (h : c.identifyAt id bound env w = (.ok r, w')) :
    ∃ t, c.kind.identity r = ⟨id, some t⟩
      ∧ ((w.stores c.node).get? id = none ∧ t = env.now w.looksAtClock
        ∨ ∃ old, (w.stores c.node).get? id = some old
          ∧ t = (c.kind.identity old).createdAt.getD (env.now w.looksAtClock)) := by
  obtain ⟨created, w₁, hcreated, htime⟩ := Action.bind_eq_ok.mp h
  obtain ⟨outcome, w₂, hget, hrest⟩ := Action.bind_eq_ok.mp hcreated
  rw [Action.get_apply] at hget
  obtain ⟨hfound, rfl⟩ := Prod.mk.inj hget
  have hfound := Except.ok.inj hfound
  rcases outcome with (_ | _) | old
  · cases hrest
    cases htime
    refine ⟨env.now w.looksAtClock, by simp [World.called], Or.inl ⟨?_, rfl⟩⟩
    exact Action.found_notFound hh hfound
  · cases hrest
  · cases hrest
    have hold := Action.found_ok hfound
    cases htold : (c.kind.identity old).createdAt with
    | some t =>
        rw [htold] at htime
        cases htime
        exact ⟨t, by simp, Or.inr ⟨old, hold, by simp [htold]⟩⟩
    | none =>
        rw [htold] at htime
        cases htime
        exact ⟨env.now w.looksAtClock, by simp [World.called], Or.inr ⟨old, hold, by simp [htold]⟩⟩

/-! ## The writes of the four handlers -/

variable {wr : Write R}

/-- **What a creation writes**: a resource created now, under a fresh ID if the body names none, and else
under the ID of the body, which was unused. -/
theorem create_passes (hh : env.Honest) (h : (c.draft ctx body .create).Passes env w wr w') :
    ∃ posted r id, c.bindBody body = .ok posted ∧ wr = .set r
      ∧ c.kind.identity r = ⟨id, some (env.now w.looksAtClock)⟩
      ∧ (c.kind.id posted = "" ∧ id = env.freshId w.idsUsed
        ∨ c.kind.id posted ≠ "" ∧ id = c.kind.id posted ∧ (w.stores c.node).get? id = none) := by
  -- what the hooks give is of no account: the settled identity is put back on it
  obtain ⟨posted, hposted, r, w₁, hidentify, bound, w₂, hbind, hooked, w₃, hsave, rfl, hw⟩ :=
    readBody_passes.mp h
  obtain ⟨id, hidentity, hcase⟩ := identifyNew_ok hh hidentify
  exact ⟨posted, _, id, hposted, rfl, by rw [Kind.identity_withIdentity, hidentity], hcase⟩

/-- **What a replacement writes**: a resource under the ID of the path, created when the stored one was, or
else now. -/
theorem replace_passes (hh : env.Honest) (h : (c.draft ctx body .replace).Passes env w wr w') :
    ∃ id r t, c.pathId ctx = .ok id ∧ wr = .set r ∧ c.kind.identity r = ⟨id, some t⟩
      ∧ ((w.stores c.node).get? id = none ∧ t = env.now w.looksAtClock
        ∨ ∃ old, (w.stores c.node).get? id = some old
          ∧ t = (c.kind.identity old).createdAt.getD (env.now w.looksAtClock)) := by
  obtain ⟨id, w₁, hid, hbody⟩ := h
  obtain ⟨hpath, rfl⟩ := Action.lift_eq_ok.mp hid
  obtain ⟨posted, -, u, w₂, hcheck, bound, w₃, hbind, r, w₄, hidentify, hooked, w₅, -, rfl, -⟩ :=
    readBody_passes.mp hbody
  obtain ⟨-, rfl⟩ := Action.lift_eq_ok.mp hcheck
  -- binding looks at no clock and leaves the stores, so the time is settled as at the start
  cases bind_ok hbind
  obtain ⟨t, hidentity, hcase⟩ := identifyAt_ok hh hidentify
  exact ⟨id, _, t, hpath, rfl, by rw [Kind.identity_withIdentity, hidentity], hcase⟩

/-- **What a merge writes**: a resource with the identity of the one stored under the ID of the path. -/
theorem merge_passes (h : (c.draft ctx body .merge).Passes env w wr w') :
    ∃ id old r, c.pathId ctx = .ok id ∧ (w.stores c.node).get? id = some old ∧ wr = .set r
      ∧ c.kind.identity r = c.kind.identity old := by
  obtain ⟨id, w₁, hid, old, w₂, hread, hbody⟩ := h
  obtain ⟨hpath, rfl⟩ := Action.lift_eq_ok.mp hid
  have hget := Action.orFail_eq_ok.mp hread
  rw [Action.get_apply] at hget
  have hold := Action.found_ok (Except.ok.inj (Prod.mk.inj hget).1)
  obtain ⟨posted, -, u, w₃, -, bound, w₄, -, merged, w₅, -, hooked, w₆, -, rfl, -⟩ :=
    readBody_passes.mp hbody
  exact ⟨id, old, _, hpath, hold, rfl, Kind.identity_withIdentity _ _ _⟩

/-- **What a deletion deletes**: the ID of the path. -/
theorem remove_passes (h : (c.draft ctx body .remove).Passes env w wr w') :
    ∃ id, c.pathId ctx = .ok id ∧ wr = .delete id := by
  obtain ⟨id, w₁, hid, u, w₂, -, rfl, -⟩ := h
  exact ⟨id, (Action.lift_eq_ok.mp hid).1, rfl⟩

end Collection

end ResourceTree
