import ResourceTree.Proofs.CommitPoint
import ResourceTree.Proofs.StoreHistories
import ResourceTree.Proofs.WrittenIdentity
import ResourceTree.Resource.Record
import Mathlib

/-! # Identities along a run of requests

A run is a list of visits to one API, each with its own request and its own hooks. `Visit.change` says all
that a visit can do to the store: nothing, create an entry now, put an entry in the place of one with the same
identity, or delete one. From that alone follow the invariant that every entry is stored under its own ID
(`Store.WellKept`) and what becomes of the time of creation (`Change.forth`, `Change.back`), one step at a time
and then, by induction on the number of visits, along the whole run. -/

namespace ResourceTree

variable {R : Type}

/-! ## Well-kept stores -/

namespace Store

/-- Every entry is stored under its own ID, which is not empty, and bears a time of creation. -/
def WellKept (identity : R → Identity) (s : Store R) : Prop :=
  ∀ row ∈ s.rows, (identity row.2).id = row.1 ∧ row.1 ≠ "" ∧ (identity row.2).createdAt.isSome

theorem wellKept_empty (identity : R → Identity) : (empty : Store R).WellKept identity := by
  intro row h
  cases h

/-- Inserting a resource under its own ID keeps a store well. -/
theorem WellKept.insert {identity : R → Identity} {s : Store R} (h : s.WellKept identity) {id : String}
    {r : R} (hid : (identity r).id = id) (hne : id ≠ "") (ht : (identity r).createdAt.isSome) :
    (s.insert id r).WellKept identity := by
  intro row hrow
  rcases mem_insertRow hrow with rfl | hrow
  · exact ⟨hid, hne, ht⟩
  · exact h row hrow

theorem WellKept.erase {identity : R → Identity} {s : Store R} (h : s.WellKept identity) (id : String) :
    (s.erase id).WellKept identity :=
  fun row hrow => h row (List.mem_filter.mp hrow).1

end Store

/-! ## One visit -/

/-- A request to an API, answered by one of its default handlers. -/
structure Visit (R : Type) where
  api : Collection R
  op : Operation
  ctx : Context R
  body : ByteArray

namespace Visit

/-- The world after a visit. -/
def after (v : Visit R) (env : Env) (w : World R) : World R :=
  ((v.api.handle v.op v.ctx v.body).answered env w.nextRequest).2

/-- A visit deletes an ID: the storage has done so, whatever the answer is. -/
def Deletes (v : Visit R) (env : Env) (w : World R) (id : String) : Prop :=
  v.op = .remove ∧ v.api.Commits .remove v.ctx v.body env w.nextRequest (.delete id)

end Visit

/-- **What a visit may do to a store.** -/
inductive Change (identity : R → Identity) (v : Visit R) (env : Env) (w : World R) (s : Store R) :
    Store R → Prop where
  | unchanged : Change identity v env w s s
  /-- An entry appears under an unused ID; it was created at this visit. -/
  | created {id : String} {r : R} (op : v.op = .create ∨ v.op = .replace) (unused : s.get? id = none)
      (nonempty : id ≠ "") (stamped : identity r = ⟨id, some (env.now w.looksAtClock)⟩) :
      Change identity v env w s (s.insert id r)
  /-- An entry is replaced by one with its identity. -/
  | replaced {id : String} {old r : R} (stored : s.get? id = some old)
      (same : identity r = identity old) : Change identity v env w s (s.insert id r)
  | deleted {id : String} (deletes : v.Deletes env w id) : Change identity v env w s (s.erase id)

namespace Change

variable {identity : R → Identity} {v : Visit R} {env : Env} {w : World R} {s s' : Store R}

/-- **Every change keeps a store well.** -/
theorem wellKept (h : Change identity v env w s s') (hs : s.WellKept identity) :
    s'.WellKept identity := by
  cases h with
  | unchanged => exact hs
  | created op unused nonempty stamped =>
      exact hs.insert (by rw [stamped]) nonempty (by rw [stamped]; rfl)
  | replaced stored same =>
      obtain ⟨hid, hne, ht⟩ := hs _ (Store.mem_rows_of_get? stored)
      exact hs.insert (by rw [same]; exact hid) hne (by rw [same]; exact ht)
  | deleted deletes => exact hs.erase _

/-- **An entry outlives a change with its time of creation**, unless it is deleted. -/
theorem forth (h : Change identity v env w s s') {id : String} {r : R} (hr : s.get? id = some r)
    (hkeep : ¬v.Deletes env w id) :
    ∃ r', s'.get? id = some r' ∧ (identity r').createdAt = (identity r).createdAt := by
  cases h with
  | unchanged => exact ⟨r, hr, rfl⟩
  | @created other new op unused nonempty stamped =>
      have hne : other ≠ id := by
        rintro rfl
        rw [unused] at hr
        cases hr
      exact ⟨r, by rw [Store.get?_insert, if_neg hne, hr], rfl⟩
  | @replaced other old new stored same =>
      by_cases heq : other = id
      · subst heq
        rw [stored] at hr
        cases hr
        exact ⟨new, by rw [Store.get?_insert, if_pos rfl], by rw [same]⟩
      · exact ⟨r, by rw [Store.get?_insert, if_neg heq, hr], rfl⟩
  | @deleted other deletes =>
      have hne : other ≠ id := by
        rintro rfl
        exact hkeep deletes
      exact ⟨r, by rw [Store.get?_erase, if_neg hne, hr], rfl⟩

/-- **Where an entry comes from**: it was there with its time of creation, or this visit created it now. -/
theorem back (h : Change identity v env w s s') {id : String} {r' : R} (hr : s'.get? id = some r') :
    (∃ r, s.get? id = some r ∧ (identity r').createdAt = (identity r).createdAt)
      ∨ (v.op = .create ∨ v.op = .replace) ∧ s.get? id = none
        ∧ (identity r').createdAt = some (env.now w.looksAtClock) := by
  cases h with
  | unchanged => exact Or.inl ⟨r', hr, rfl⟩
  | @created other new op unused nonempty stamped =>
      rw [Store.get?_insert] at hr
      by_cases heq : other = id
      · subst heq
        rw [if_pos rfl] at hr
        cases hr
        exact Or.inr ⟨op, unused, by rw [stamped]⟩
      · rw [if_neg heq] at hr
        exact Or.inl ⟨r', hr, rfl⟩
  | @replaced other old new stored same =>
      rw [Store.get?_insert] at hr
      by_cases heq : other = id
      · subst heq
        rw [if_pos rfl] at hr
        cases hr
        exact Or.inl ⟨old, stored, by rw [same]⟩
      · rw [if_neg heq] at hr
        exact Or.inl ⟨r', hr, rfl⟩
  | @deleted other deletes =>
      rw [Store.get?_erase] at hr
      by_cases heq : other = id
      · rw [if_pos heq] at hr
        cases hr
      · rw [if_neg heq] at hr
        exact Or.inl ⟨r', hr, rfl⟩

end Change

namespace Visit

variable {v : Visit R} {env : Env} {w : World R}

/-- A visit that writes either leaves the stores or applies the write that its draft has come to. -/
theorem after_writing {k : Writing} (hop : v.op = k.operation) :
    (∃ wr w₁, (v.api.draft v.ctx v.body k).Passes env w.nextRequest wr w₁
        ∧ v.api.Commits k v.ctx v.body env w.nextRequest wr
        ∧ (v.after env w).stores v.api.node = wr.apply v.api.kind (w.stores v.api.node))
      ∨ (v.after env w).stores = w.stores := by
  obtain ⟨response, w', hanswer, hwrites⟩ := v.api.handle_writes k v.ctx v.body env w.nextRequest
  have hafter : v.after env w = w' := by
    rw [after, hop, hanswer]
  rw [hafter]
  rcases hwrites with ⟨wr, w₁, hpass, hcommits, hstores⟩ | hstores
  · refine Or.inl ⟨wr, w₁, hpass, hcommits, ?_⟩
    rw [hstores, World.stores_setStore, if_pos rfl]
    rfl
  · exact Or.inr hstores

/-- **What a visit does to the store of its API** is one of the four changes. -/
theorem change (hh : env.Honest) (hids : ∀ n, env.freshId n ≠ "")
    (hfresh : v.op = .create → (w.stores v.api.node).get? (env.freshId w.idsUsed) = none)
    (hpath : v.ctx.id? v.api.name ≠ some "")
    (hkept : (w.stores v.api.node).WellKept v.api.kind.identity) :
    Change v.api.kind.identity v env w (w.stores v.api.node) ((v.after env w).stores v.api.node) := by
  -- paths bear no empty ID
  have hpathId {id : String} (h : v.api.pathId v.ctx = .ok id) : id ≠ "" := by
    rintro rfl
    rw [Collection.pathId] at h
    cases hid : v.ctx.id? v.api.name with
    | none => simp [hid] at h
    | some id => simp_all
  cases hop : v.op with
  | list =>
      have hstores := (Action.Harmless.answered (v.api.list_harmless v.ctx)).stores env w.nextRequest
      rw [after, hop, Collection.handle, hstores]
      exact .unchanged
  | fetch =>
      have hstores := (Action.Harmless.answered (v.api.fetch_harmless v.ctx)).stores env w.nextRequest
      rw [after, hop, Collection.handle, hstores]
      exact .unchanged
  | create =>
      rcases after_writing (k := .create) hop with ⟨wr, w₁, hpass, -, hstore⟩ | hsame
      · obtain ⟨posted, r, id, -, rfl, hidentity, hcase⟩ := Collection.create_passes hh hpass
        have hid : v.api.kind.id r = id := by rw [Kind.id, hidentity]
        rw [hstore, Write.apply, hid]
        rcases hcase with ⟨-, rfl⟩ | ⟨hne, rfl, hnone⟩
        · exact .created (Or.inl hop) (hfresh hop) (hids _) hidentity
        · exact .created (Or.inl hop) hnone hne hidentity
      · rw [hsame]
        exact .unchanged
  | replace =>
      rcases after_writing (k := .replace) hop with ⟨wr, w₁, hpass, -, hstore⟩ | hsame
      · obtain ⟨id, r, t, hid, rfl, hidentity, hcase⟩ := Collection.replace_passes hh hpass
        rw [hstore, Write.apply, Kind.id, hidentity]
        rcases hcase with ⟨hnone, rfl⟩ | ⟨old, hold, rfl⟩
        · exact .created (Or.inr hop) hnone (hpathId hid) hidentity
        · obtain ⟨hown, -, hstamped⟩ := hkept _ (Store.mem_rows_of_get? hold)
          -- a well-kept entry has a time to keep and the ID of the path, so its identity stays
          obtain ⟨t, ht⟩ := Option.isSome_iff_exists.mp hstamped
          have hid : (v.api.kind.identity old).id = id := hown
          refine .replaced hold ?_
          rw [hidentity, ht, Option.getD_some, ← hid, ← ht]
      · rw [hsame]
        exact .unchanged
  | merge =>
      rcases after_writing (k := .merge) hop with ⟨wr, w₁, hpass, -, hstore⟩ | hsame
      · obtain ⟨id, old, r, -, hold, rfl, hidentity⟩ := Collection.merge_passes hpass
        -- the merged resource bears the identity of the stored one, which stands under its own ID
        obtain ⟨hown, -, -⟩ := hkept _ (Store.mem_rows_of_get? hold)
        have hid : v.api.kind.id r = id := by rw [Kind.id, hidentity, hown]
        rw [hstore, Write.apply, hid]
        exact .replaced hold hidentity
      · rw [hsame]
        exact .unchanged
  | remove =>
      rcases after_writing (k := .remove) hop with ⟨wr, w₁, hpass, hcommits, hstore⟩ | hsame
      · obtain ⟨id, -, rfl⟩ := Collection.remove_passes hpass
        rw [hstore, Write.apply]
        exact .deleted ⟨hop, hcommits⟩
      · rw [hsame]
        exact .unchanged

end Visit

/-! ## Runs -/

/-- The world after the first `k` visits. -/
def stateAt (env : Env) (w₀ : World R) (visits : List (Visit R)) (k : Nat) : World R :=
  (visits.take k).foldl (fun w v => v.after env w) w₀

variable {env : Env} {w₀ : World R} {visits : List (Visit R)}

@[simp] theorem stateAt_zero : stateAt env w₀ visits 0 = w₀ := rfl

/-- Behind the last visit nothing happens any more. -/
theorem stateAt_succ_of_none {k : Nat} (h : visits[k]? = none) :
    stateAt env w₀ visits (k + 1) = stateAt env w₀ visits k := by
  rw [stateAt, stateAt, List.take_add_one, h, Option.toList_none, List.append_nil]

theorem stateAt_succ {k : Nat} {v : Visit R} (h : visits[k]? = some v) :
    stateAt env w₀ visits (k + 1) = v.after env (stateAt env w₀ visits k) := by
  rw [stateAt, stateAt, List.take_add_one, h, Option.toList_some, List.foldl_append]
  rfl

/-- **A run of visits to one API**, from nothing stored. The visits may differ in all but their store and in
where their resources keep the identity. The backend says that a resource is not there only if so, paths bear
no empty ID, and generated IDs are not empty and not in use yet. -/
structure IsRun (node : NodeKey) (identity : R → Identity) (env : Env) (w₀ : World R)
    (visits : List (Visit R)) : Prop where
  empty : w₀.stores node = .empty
  node_eq : ∀ v ∈ visits, v.api.node = node
  identity_eq : ∀ v ∈ visits, v.api.kind.identity = identity
  pathId_ne : ∀ v ∈ visits, v.ctx.id? v.api.name ≠ some ""
  honest : env.Honest
  freshId_ne : ∀ n, env.freshId n ≠ ""
  freshId_unused : ∀ k v, visits[k]? = some v → v.op = .create →
    ((stateAt env w₀ visits k).stores node).get? (env.freshId (stateAt env w₀ visits k).idsUsed) = none

namespace IsRun

variable {node : NodeKey} {identity : R → Identity}

/-- Each visit of a run makes one of the four changes to a well-kept store. -/
theorem change (h : IsRun node identity env w₀ visits) {k : Nat} {v : Visit R}
    (hv : visits[k]? = some v) (hkept : ((stateAt env w₀ visits k).stores node).WellKept identity) :
    Change identity v env (stateAt env w₀ visits k) ((stateAt env w₀ visits k).stores node)
      ((stateAt env w₀ visits (k + 1)).stores node) := by
  have hmem : v ∈ visits := List.mem_of_getElem? hv
  have hfresh := h.freshId_unused k v hv
  rw [stateAt_succ hv]
  rw [← h.node_eq v hmem] at hfresh hkept ⊢
  rw [← h.identity_eq v hmem] at hkept ⊢
  exact v.change h.honest h.freshId_ne hfresh (h.pathId_ne v hmem) hkept

/-- **The store is well kept all along**, by induction on the number of visits. -/
theorem wellKept (h : IsRun node identity env w₀ visits) (k : Nat) :
    ((stateAt env w₀ visits k).stores node).WellKept identity := by
  induction k with
  | zero =>
      rw [stateAt_zero, h.empty]
      exact Store.wellKept_empty identity
  | succ k ih =>
      cases hv : visits[k]? with
      | none =>
          rw [stateAt_succ_of_none hv]
          exact ih
      | some v => exact (h.change hv ih).wellKept ih

/-- **An entry lives on with its time of creation** as long as nothing deletes it. -/
theorem createdAt_lasts (h : IsRun node identity env w₀ visits) {i : Nat} {id : String} {r : R}
    (hr : ((stateAt env w₀ visits i).stores node).get? id = some r) (n : Nat)
    (hkeep : ∀ k v, i ≤ k → k < i + n → visits[k]? = some v → ¬v.Deletes env (stateAt env w₀ visits k) id) :
    ∃ r', ((stateAt env w₀ visits (i + n)).stores node).get? id = some r'
      ∧ (identity r').createdAt = (identity r).createdAt := by
  induction n with
  | zero => exact ⟨r, hr, rfl⟩
  | succ n ih =>
      obtain ⟨r₁, hr₁, ht₁⟩ := ih fun k v hik hkn => hkeep k v hik (by omega)
      cases hv : visits[i + n]? with
      | none => exact ⟨r₁, by rw [← Nat.add_assoc, stateAt_succ_of_none hv, hr₁], ht₁⟩
      | some v =>
          have hnot := hkeep (i + n) v (by omega) (by omega) hv
          -- every state is well kept, so the change at this visit is one of the four
          obtain ⟨r₂, hr₂, ht₂⟩ := (h.change hv (h.wellKept (i + n))).forth hr₁ hnot
          exact ⟨r₂, hr₂, ht₂.trans ht₁⟩

/-- **Every entry was created by a visit** before, has been there ever since, and bears the time of that
visit. -/
theorem exists_creation (h : IsRun node identity env w₀ visits) {i : Nat} {id : String} {r : R}
    (hr : ((stateAt env w₀ visits i).stores node).get? id = some r) :
    ∃ k v, k < i ∧ visits[k]? = some v ∧ (v.op = .create ∨ v.op = .replace)
      ∧ ((stateAt env w₀ visits k).stores node).get? id = none
      ∧ (∀ m, k < m → m ≤ i → ((stateAt env w₀ visits m).stores node).get? id ≠ none)
      ∧ (identity r).createdAt = some (env.now (stateAt env w₀ visits k).looksAtClock) := by
  induction i generalizing r with
  | zero =>
      rw [stateAt_zero, h.empty] at hr
      cases hr
  | succ i ih =>
      -- the entry was there one visit earlier, or the last visit created it
      have hstep : (∃ r₁, ((stateAt env w₀ visits i).stores node).get? id = some r₁
            ∧ (identity r).createdAt = (identity r₁).createdAt)
          ∨ ∃ v, visits[i]? = some v ∧ (v.op = .create ∨ v.op = .replace)
            ∧ ((stateAt env w₀ visits i).stores node).get? id = none
            ∧ (identity r).createdAt = some (env.now (stateAt env w₀ visits i).looksAtClock) := by
        cases hv : visits[i]? with
        | none =>
            rw [stateAt_succ_of_none hv] at hr
            exact Or.inl ⟨r, hr, rfl⟩
        | some v =>
            rcases (h.change hv (h.wellKept i)).back hr with hold | hnew
            · exact Or.inl hold
            · exact Or.inr ⟨v, rfl, hnew⟩
      rcases hstep with ⟨r₁, hr₁, ht₁⟩ | ⟨v, hv, hop, hnone, ht⟩
      · obtain ⟨k, v, hki, hv, hop, hnone, hsince, ht⟩ := ih hr₁
        refine ⟨k, v, by omega, hv, hop, hnone, fun m hkm hmi => ?_, ht₁.trans ht⟩
        rcases Nat.lt_or_eq_of_le hmi with hlt | rfl
        · exact hsince m hkm (by omega)
        · simp [hr]
      · refine ⟨i, v, by omega, hv, hop, hnone, fun m hkm hmi => ?_, ht⟩
        have hm : m = i + 1 := by omega
        simp [hm, hr]

end IsRun

/-- **Identities along a run.** In every state every entry is stored under its own ID, which is not empty, and
bears a time of creation. That time is the same in any two states between which the entry is not deleted: it is
the time of the creation or replacement that brought the entry in. -/
theorem identities_last {node : NodeKey} {identity : R → Identity}
    (h : IsRun node identity env w₀ visits) :
    (∀ k, ∀ row ∈ ((stateAt env w₀ visits k).stores node).rows,
        (identity row.2).id = row.1 ∧ row.1 ≠ "" ∧ (identity row.2).createdAt.isSome)
      ∧ (∀ i j id r r', i ≤ j → ((stateAt env w₀ visits i).stores node).get? id = some r →
        ((stateAt env w₀ visits j).stores node).get? id = some r' →
        (∀ k v, i ≤ k → k < j → visits[k]? = some v → ¬v.Deletes env (stateAt env w₀ visits k) id) →
        (identity r).createdAt = (identity r').createdAt)
      ∧ ∀ i id r, ((stateAt env w₀ visits i).stores node).get? id = some r →
        ∃ k v, k < i ∧ visits[k]? = some v ∧ (v.op = .create ∨ v.op = .replace)
          ∧ ((stateAt env w₀ visits k).stores node).get? id = none
          ∧ (∀ m, k < m → m ≤ i → ((stateAt env w₀ visits m).stores node).get? id ≠ none)
          ∧ (identity r).createdAt = some (env.now (stateAt env w₀ visits k).looksAtClock) := by
  refine ⟨h.wellKept, ?_, fun i id r hr => h.exists_creation hr⟩
  intro i j id r r' hij hr hr' hkeep
  obtain ⟨n, rfl⟩ := Nat.exists_eq_add_of_le hij
  obtain ⟨r₁, hr₁, ht⟩ := h.createdAt_lasts hr n hkeep
  rw [hr'] at hr₁
  cases hr₁
  exact ht.symm

/-- An API whose hook puts another identity on everything before it is stored. -/
def usurped : Collection Record where
  node := ["notes"]
  name := "notes"
  kind := Record.schemaless
  blank := Record.empty
  hooks := { onSave := some fun _ r => .ok { r with identity := ⟨"usurped", none⟩ } }
  codes := .standard

/-- A note is created, and then replaced. -/
def usurpedVisits : List (Visit Record) :=
  [⟨usurped, .create, .ofRequest ⟨.post, "/notes", none, [], .empty⟩ [] [], .empty⟩,
    ⟨usurped, .replace, .ofRequest ⟨.put, "/notes/n", none, [], .empty⟩ [("notes_id", "n")] [], .empty⟩]

/-- The note stays under its ID, created at the first visit, although the hook puts another identity on it
each time. -/
theorem identities_last_usurped :
    IsRun ["notes"] Record.identity (Env.quiet "n") World.initial usurpedVisits
      ∧ ((stateAt (Env.quiet "n") World.initial usurpedVisits 1).stores ["notes"]).get? "n"
        = some ⟨⟨"n", some ⟨0, 0⟩⟩, []⟩
      ∧ ((stateAt (Env.quiet "n") World.initial usurpedVisits 2).stores ["notes"]).get? "n"
        = some ⟨⟨"n", some ⟨0, 0⟩⟩, []⟩
      ∧ ∃ k v, k < 2 ∧ usurpedVisits[k]? = some v ∧ (v.op = .create ∨ v.op = .replace)
        ∧ ((stateAt (Env.quiet "n") World.initial usurpedVisits k).stores ["notes"]).get? "n" = none
        ∧ some (⟨0, 0⟩ : Timestamp) = some ((Env.quiet "n").now
          (stateAt (Env.quiet "n") World.initial usurpedVisits k).looksAtClock) := by
  have hrun : IsRun ["notes"] Record.identity (Env.quiet "n") World.initial usurpedVisits :=
    { empty := rfl
      node_eq := by simp [usurpedVisits, usurped]
      identity_eq := by simp [usurpedVisits, usurped, Record.schemaless]
      pathId_ne := by decide +kernel
      honest := Env.quiet_honest "n"
      freshId_ne := fun _ => by simp [Env.quiet]
      freshId_unused := by
        intro k v hv hop
        rcases k with _ | _ | k
        · rfl
        · cases hv
          cases hop
        · cases hv }
  have hstored : ((stateAt (Env.quiet "n") World.initial usurpedVisits 2).stores ["notes"]).get? "n"
      = some ⟨⟨"n", some ⟨0, 0⟩⟩, []⟩ := by cbv
  obtain ⟨k, v, hk, hv, hop, hnone, -, ht⟩ := (identities_last hrun).2.2 2 "n" _ hstored
  exact ⟨hrun, by cbv, hstored, k, v, hk, hv, hop, hnone, ht⟩

end ResourceTree
