import ResourceTree.Proofs.StoreHistories
import ResourceTree.Resource.Record
import ResourceTree.Storage

/-! # Storages behind handles

A program makes storages, clones handles of them, and sets and deletes resources through these (`Storages.Step`). The
handles of one storage are the one that is made with it and the clones of its handles (`Storages.HandleOf`), and these
are just the ones that point to its place (`Storages.handleOf_iff`). So the calls that are made through any of them are
the history of its store (`Storages.history`), whatever the program does with other storages in between, and
`Storages.clones_keep_last_sets` says what they find in it. -/

namespace ResourceTree.Storages

variable {R : Type}

/-! ## Programs -/

/-- A step of a program that works with storages. A handle goes by the number of the step that has made it. -/
inductive Step (R : Type) where
  /-- Makes a storage, and with it a handle. -/
  | make
  /-- Clones a handle. -/
  | clone (h : Nat)
  /-- Sets a resource, or deletes an ID, through a handle. -/
  | call (h : Nat) (wr : Write R)

/-- What a step gives. -/
inductive Result where
  | handle (p : Handle)
  | returned (outcome : Except StorageError Unit)
  /-- There is no such handle as the step names. -/
  | nothing

/-- What the steps of a program have given so far, and the memory after them. -/
structure Progress (R : Type) where
  results : List Result
  memory : Storages R

/-- The handle that a step has made. -/
def Progress.handle? (x : Progress R) (k : Nat) : Option Handle :=
  match x.results[k]? with
  | some (.handle p) => some p
  | _ => none

/-- A write through a handle. -/
def write (kind : Kind R) (s : Storages R) (p : Handle) : Write R → Except StorageError Unit × Storages R
  | .set r => s.set kind p r
  | .delete id => s.delete p id

/-- What a step gives, and the memory after it. -/
def Step.run (kind : Kind R) (x : Progress R) : Step R → Result × Storages R
  | .make => (.handle x.memory.make.1, x.memory.make.2)
  | .clone h =>
    match x.handle? h with
    | some p => (.handle p.clone, x.memory)
    | none => (.nothing, x.memory)
  | .call h wr =>
    match x.handle? h with
    | some p => (.returned (x.memory.write kind p wr).1, (x.memory.write kind p wr).2)
    | none => (.nothing, x.memory)

/-- One step more. -/
def Progress.next (kind : Kind R) (x : Progress R) (step : Step R) : Progress R :=
  ⟨x.results ++ [(step.run kind x).1], (step.run kind x).2⟩

/-- A program that begins with no storage. -/
def progress (kind : Kind R) (steps : List (Step R)) : Progress R := steps.foldl (Progress.next kind) ⟨[], .empty⟩

variable {kind : Kind R} {steps : List (Step R)} {step : Step R} {a h k : Nat} {p q : Handle} {wr : Write R}

theorem progress_concat (kind : Kind R) (steps : List (Step R)) (step : Step R) :
    progress kind (steps ++ [step]) = (progress kind steps).next kind step := by
  rw [progress, List.foldl_append]
  rfl

theorem progress_take_succ (h : steps[k]? = some step) :
    progress kind (steps.take (k + 1)) = (progress kind (steps.take k)).next kind step := by
  rw [List.take_add_one, h, Option.toList_some, progress_concat]

/-- There is one result for each step. -/
theorem length_results (kind : Kind R) (steps : List (Step R)) :
    (progress kind steps).results.length = steps.length := by
  induction steps using List.reverseRecOn with
  | nil => rfl
  | append_singleton steps step ih =>
      rw [progress_concat, Progress.next, List.length_append, List.length_append, ih]
      rfl

/-- Later steps leave the results of the earlier ones. -/
theorem results_append (kind : Kind R) (steps later : List (Step R)) (hk : k < steps.length) :
    (progress kind (steps ++ later)).results[k]? = (progress kind steps).results[k]? := by
  induction later using List.reverseRecOn with
  | nil => rw [List.append_nil]
  | append_singleton later step ih =>
      rw [← List.append_assoc, progress_concat, Progress.next, ← ih]
      refine List.getElem?_append_left ?_
      rw [length_results, List.length_append]
      omega

/-- A step gives what it comes to after the steps before it. -/
theorem result_of_step (hstep : steps[k]? = some step) :
    (progress kind steps).results[k]? = some (step.run kind (progress kind (steps.take k))).1 := by
  obtain ⟨hk, -⟩ := List.getElem?_eq_some_iff.mp hstep
  have hlength : (steps.take (k + 1)).length = k + 1 := List.length_take_of_le hk
  have hresults := results_append kind (steps.take (k + 1)) (steps.drop (k + 1)) (by rw [hlength]; exact k.lt_succ_self)
  rw [List.take_append_drop] at hresults
  rw [hresults, progress_take_succ hstep, Progress.next]
  have hbefore : (progress kind (steps.take k)).results.length = k := by
    rw [length_results, List.length_take_of_le hk.le]
  rw [List.getElem?_append_right hbefore.le, hbefore, Nat.sub_self]
  rfl

/-- A handle that was made before a step is the same ever after. -/
theorem handle?_take (hk : k ≤ steps.length) (hlt : h < k) :
    (progress kind (steps.take k)).handle? h = (progress kind steps).handle? h := by
  have hresults := results_append kind (steps.take k) (steps.drop k) (by rw [List.length_take_of_le hk]; exact hlt)
  rw [List.take_append_drop] at hresults
  rw [Progress.handle?, Progress.handle?, hresults]

/-- No handle has been made by a step that is still to come. -/
theorem handle?_of_length_le (hle : steps.length ≤ h) : (progress kind steps).handle? h = none := by
  have hnone : (progress kind steps).results[h]? = none := by
    refine List.getElem?_eq_none ?_
    rw [length_results]
    exact hle
  rw [Progress.handle?, hnone]

theorem handle?_take_of_le (hle : k ≤ h) : (progress kind (steps.take k)).handle? h = none :=
  handle?_of_length_le ((List.length_take_le k steps).trans hle)

/-! ## Writes and places -/

/-- A write through a handle is applied to its storage, or fails and changes nothing. -/
theorem write_cases (kind : Kind R) (s : Storages R) (p : Handle) (wr : Write R) :
    ((s.write kind p wr).1 = .ok () ∧ (s.write kind p wr).2 = s.put p (wr.apply kind (s.store p)))
      ∨ ∃ e, (s.write kind p wr).1 = .error e ∧ (s.write kind p wr).2 = s := by
  cases wr with
  | set r => exact Or.inl ⟨rfl, rfl⟩
  | delete id =>
      rw [write, delete, Store.delete]
      cases (s.store p).get? id with
      | none => exact Or.inr ⟨_, rfl, rfl⟩
      | some r => exact Or.inl ⟨rfl, rfl⟩

/-- A write leaves what other handles point to. -/
theorem store_write_of_ne (hne : p ≠ q) (kind : Kind R) (s : Storages R) (wr : Write R) :
    (s.write kind q wr).2.store p = s.store p := by
  rcases s.write_cases kind q wr with ⟨-, happly⟩ | ⟨e, -, hsame⟩
  · rw [happly, store_put, if_neg hne]
  · rw [hsame]

/-- No step gives a place back. -/
theorem made_le_next (kind : Kind R) (x : Progress R) (step : Step R) :
    x.memory.made ≤ (x.next kind step).memory.made := by
  rw [Progress.next]
  cases step with
  | make => exact x.memory.made.le_succ
  | clone h =>
      rw [Step.run]
      cases x.handle? h <;> exact le_rfl
  | call h wr =>
      rw [Step.run]
      cases x.handle? h with
      | none => exact le_rfl
      | some p =>
          rcases x.memory.write_cases kind p wr with ⟨-, happly⟩ | ⟨e, -, hsame⟩
          · simp only [happly, made_put, le_rfl]
          · simp only [hsame, le_rfl]

/-- Places are taken one after another. -/
theorem made_monotone (kind : Kind R) (steps : List (Step R)) :
    Monotone fun k => (progress kind (steps.take k)).memory.made := by
  refine monotone_nat_of_le_succ fun k => ?_
  cases hstep : steps[k]? with
  | none => rw [List.take_add_one, hstep, Option.toList_none, List.append_nil]
  | some step =>
      rw [progress_take_succ hstep]
      exact made_le_next kind _ step

/-- The place of a storage is taken when the storage is made. -/
theorem made_lt (kind : Kind R) (hmake : steps[a]? = some .make) (hlt : a < k) :
    (progress kind (steps.take a)).memory.made < (progress kind (steps.take k)).memory.made := by
  have hmade : (progress kind (steps.take (a + 1))).memory.made = (progress kind (steps.take a)).memory.made + 1 := by
    rw [progress_take_succ hmake]
    rfl
  have hle : (progress kind (steps.take (a + 1))).memory.made ≤ (progress kind (steps.take k)).memory.made :=
    made_monotone kind steps hlt
  omega

/-- Two storages are never made at one place. -/
theorem eq_of_made_eq (kind : Kind R) {b : Nat} (hmake : steps[a]? = some .make) (hmake' : steps[b]? = some .make)
    (hsame : (progress kind (steps.take a)).memory.made = (progress kind (steps.take b)).memory.made) : a = b := by
  rcases Nat.lt_trichotomy a b with hlt | heq | hgt
  · exact absurd hsame (made_lt kind hmake hlt).ne
  · exact heq
  · exact absurd hsame (made_lt kind hmake' hgt).ne'

/-! ## Handles -/

/-- The first handle of a storage points to the place at which the storage is made. -/
theorem handle?_of_make (kind : Kind R) (hstep : steps[k]? = some .make) :
    (progress kind steps).handle? k = some ⟨(progress kind (steps.take k)).memory.made⟩ := by
  rw [Progress.handle?, result_of_step hstep]
  rfl

/-- A clone points to the place to which the handle points that is cloned. -/
theorem handle?_of_clone (hstep : steps[k]? = some (.clone h)) :
    (progress kind steps).handle? k = (progress kind (steps.take k)).handle? h := by
  rw [Progress.handle?, result_of_step hstep, Step.run]
  cases (progress kind (steps.take k)).handle? h with
  | none => rfl
  | some p => rfl

/-- A call makes no handle. -/
theorem handle?_of_call (hstep : steps[k]? = some (.call h wr)) : (progress kind steps).handle? k = none := by
  rw [Progress.handle?, result_of_step hstep, Step.run]
  cases (progress kind (steps.take k)).handle? h with
  | none => rfl
  | some p => rfl

/-- **The handles of a storage**: the one that is made with the storage, and every clone of one of them. -/
inductive HandleOf (steps : List (Step R)) (a : Nat) : Nat → Prop
  | first (make : steps[a]? = some .make) : HandleOf steps a a
  | clone {h k : Nat} (clones : steps[k]? = some (.clone h)) (before : h < k) (of : HandleOf steps a h) :
    HandleOf steps a k

/-- The handles of a storage are not made before it. -/
theorem HandleOf.le (hof : HandleOf steps a h) : a ≤ h := by
  induction hof with
  | first make => exact le_rfl
  | clone clones before of ih => exact ih.trans before.le

/-- All handles of a storage point to its place. -/
theorem HandleOf.handle?_eq (hof : HandleOf steps a h) :
    (progress kind steps).handle? h = (progress kind steps).handle? a := by
  induction hof with
  | first make => rfl
  | @clone h k clones before of ih =>
      obtain ⟨hk, -⟩ := List.getElem?_eq_some_iff.mp clones
      rw [handle?_of_clone clones, handle?_take hk.le before, ih]

/-- **The handles of a storage are those that point to its place**, by induction on the number of the handle. -/
theorem handleOf_iff (kind : Kind R) (hmake : steps[a]? = some .make) :
    HandleOf steps a h ↔ (progress kind steps).handle? h = (progress kind steps).handle? a := by
  refine ⟨HandleOf.handle?_eq, ?_⟩
  induction h using Nat.strong_induction_on with
  | _ h ih =>
      intro hsame
      have hplace := handle?_of_make kind hmake
      rw [hplace] at hsame ih
      -- the step either has made the storage itself or has cloned an earlier handle
      match hstep : steps[h]? with
      | none =>
          rw [handle?_of_length_le (List.getElem?_eq_none_iff.mp hstep)] at hsame
          cases hsame
      | some .make =>
          rw [handle?_of_make kind hstep] at hsame
          have hmade := congrArg Handle.place (Option.some.inj hsame)
          rw [eq_of_made_eq kind hstep hmake hmade]
          exact .first hmake
      | some (.clone g) =>
          rw [handle?_of_clone hstep] at hsame
          obtain ⟨hh, -⟩ := List.getElem?_eq_some_iff.mp hstep
          rcases Nat.lt_or_ge g h with hlt | hge
          · rw [handle?_take hh.le hlt] at hsame
            exact .clone hstep hlt (ih g hlt hsame)
          · rw [handle?_take_of_le hge] at hsame
            cases hsame
      | some (.call g wr) =>
          rw [handle?_of_call hstep] at hsame
          cases hsame

/-! ## The history of a storage -/

/-- A call on a storage is made at a step: through one of the handles that the storage has by then. -/
def Calls (steps : List (Step R)) (a k : Nat) (wr : Write R) : Prop :=
  ∃ h < k, steps[k]? = some (.call h wr) ∧ HandleOf steps a h

/-- A call on a storage is made at a step, and succeeds. -/
structure Succeeds (kind : Kind R) (steps : List (Step R)) (a k : Nat) (wr : Write R) : Prop where
  calls : Calls steps a k wr
  ok : (progress kind steps).results[k]? = some (.returned (.ok ()))

theorem Calls.lt_length (hcalls : Calls steps a k wr) : k < steps.length := by
  obtain ⟨h, -, hstep, -⟩ := hcalls
  exact (List.getElem?_eq_some_iff.mp hstep).1

/-- A storage is made before it is called. -/
theorem Calls.made_before (hcalls : Calls steps a k wr) : a < k := by
  obtain ⟨h, hlt, -, hof⟩ := hcalls
  exact hof.le.trans_lt hlt

theorem Calls.unique {wr' : Write R} (hcalls : Calls steps a k wr) (hcalls' : Calls steps a k wr') : wr = wr' := by
  obtain ⟨h, -, hstep, -⟩ := hcalls
  obtain ⟨h', -, hstep', -⟩ := hcalls'
  cases hstep.symm.trans hstep'
  rfl

/-- A call returns what the write through its handle returns. -/
theorem result_of_call (hstep : steps[k]? = some (.call h wr))
    (hhandle : (progress kind (steps.take k)).handle? h = some q) : (progress kind steps).results[k]?
      = some (.returned ((progress kind (steps.take k)).memory.write kind q wr).1) := by
  rw [result_of_step hstep, Step.run, hhandle]

/-- The memory after a call is what the write through its handle leaves. -/
theorem memory_of_call (hstep : steps[k]? = some (.call h wr))
    (hhandle : (progress kind (steps.take k)).handle? h = some q) :
    (progress kind (steps.take (k + 1))).memory = ((progress kind (steps.take k)).memory.write kind q wr).2 := by
  rw [progress_take_succ hstep, Progress.next, Step.run, hhandle]

/-- **A call is one on a storage if its handle points to the place of the storage** by then. -/
theorem calls_iff (hmake : steps[a]? = some .make) (hplace : (progress kind steps).handle? a = some p)
    (hstep : steps[k]? = some (.call h wr)) :
    Calls steps a k wr ↔ (progress kind (steps.take k)).handle? h = some p := by
  have hk : k ≤ steps.length := (List.getElem?_eq_some_iff.mp hstep).1.le
  constructor
  · rintro ⟨h', hlt, hstep', hof⟩
    cases hstep.symm.trans hstep'
    rw [handle?_take hk hlt, hof.handle?_eq, hplace]
  · intro hhandle
    have hlt : h < k := by
      by_contra hge
      rw [handle?_take_of_le (Nat.le_of_not_lt hge)] at hhandle
      cases hhandle
    rw [handle?_take hk hlt, ← hplace] at hhandle
    exact ⟨h, hlt, hstep, (handleOf_iff kind hmake).mpr hhandle⟩

/-- A set call on a storage succeeds. -/
theorem Calls.succeeds_set {r : R} (hmake : steps[a]? = some .make) (hcalls : Calls steps a k (.set r)) :
    Succeeds kind steps a k (.set r) := by
  obtain ⟨h, -, hstep, -⟩ := id hcalls
  exact ⟨hcalls, result_of_call hstep ((calls_iff hmake (handle?_of_make kind hmake) hstep).mp hcalls)⟩

/-- What a storage holds after the first steps: nothing as long as it is not made. -/
def contents (kind : Kind R) (steps : List (Step R)) (a : Nat) (p : Handle) (k : Nat) : Store R :=
  if k ≤ a then .empty else (progress kind (steps.take k)).memory.store p

theorem contents_of_lt (hlt : a < k) :
    contents kind steps a p k = (progress kind (steps.take k)).memory.store p := if_neg (Nat.not_le_of_lt hlt)

/-- **A call changes a storage** if it is one on it and succeeds, and otherwise leaves it as it is. -/
theorem store_of_call (hmake : steps[a]? = some .make) (hplace : (progress kind steps).handle? a = some p)
    (hstep : steps[k]? = some (.call h wr)) :
    (Succeeds kind steps a k wr ∧ (progress kind (steps.take (k + 1))).memory.store p
        = wr.apply kind ((progress kind (steps.take k)).memory.store p))
      ∨ ¬Succeeds kind steps a k wr
        ∧ (progress kind (steps.take (k + 1))).memory.store p = (progress kind (steps.take k)).memory.store p := by
  have hcalls := calls_iff hmake hplace hstep
  cases hhandle : (progress kind (steps.take k)).handle? h with
  | none =>
      refine Or.inr ⟨fun hsucceeds => ?_, by rw [progress_take_succ hstep, Progress.next, Step.run, hhandle]⟩
      cases hhandle.symm.trans (hcalls.mp hsucceeds.calls)
  | some q =>
      have hmemory := memory_of_call hstep hhandle
      have hresult := result_of_call hstep hhandle
      by_cases hq : p = q
      · -- the call is one on the storage, and may still fail
        subst hq
        rcases (progress kind (steps.take k)).memory.write_cases kind p wr with ⟨hok, happly⟩ | ⟨e, herror, hsame⟩
        · rw [hok] at hresult
          exact Or.inl ⟨⟨hcalls.mpr hhandle, hresult⟩, by rw [hmemory, happly, store_put, if_pos rfl]⟩
        · refine Or.inr ⟨fun hsucceeds => ?_, by rw [hmemory, hsame]⟩
          rw [hsucceeds.ok, herror] at hresult
          cases hresult
      · refine Or.inr ⟨fun hsucceeds => ?_, by rw [hmemory, store_write_of_ne hq]⟩
        exact hq (Option.some.inj ((hcalls.mp hsucceeds.calls).symm.trans hhandle))

/-- Making another storage or cloning a handle leaves a storage as it is. -/
theorem store_of_no_call (hmake : steps[a]? = some .make) (hplace : (progress kind steps).handle? a = some p)
    (hlt : a < k) (hnone : ∀ h wr, steps[k]? ≠ some (.call h wr)) :
    (progress kind (steps.take (k + 1))).memory.store p = (progress kind (steps.take k)).memory.store p := by
  match hstep : steps[k]? with
  | none => rw [List.take_add_one, hstep, Option.toList_none, List.append_nil]
  | some .make =>
      -- the new storage takes another place
      rw [progress_take_succ hstep, Progress.next, Step.run, store_make, if_neg]
      rw [handle?_of_make kind hmake] at hplace
      cases hplace
      exact fun heq => (made_lt kind hmake hlt).ne (congrArg Handle.place heq)
  | some (.clone g) =>
      rw [progress_take_succ hstep, Progress.next, Step.run]
      cases (progress kind (steps.take k)).handle? g <;> rfl
  | some (.call g wr) => exact absurd hstep (hnone g wr)

/-- **What one step does to a storage** that is made: a call that succeeds is applied to it, and nothing else changes
it. -/
theorem store_succ (hmake : steps[a]? = some .make) (hplace : (progress kind steps).handle? a = some p) (hlt : a < k) :
    (∃ wr, Succeeds kind steps a k wr ∧ (progress kind (steps.take (k + 1))).memory.store p
        = wr.apply kind ((progress kind (steps.take k)).memory.store p))
      ∨ (∀ wr, ¬Succeeds kind steps a k wr)
        ∧ (progress kind (steps.take (k + 1))).memory.store p = (progress kind (steps.take k)).memory.store p := by
  by_cases hcall : ∃ h wr, steps[k]? = some (.call h wr)
  · obtain ⟨h, wr, hstep⟩ := hcall
    rcases store_of_call hmake hplace hstep with ⟨hsucceeds, hstore⟩ | ⟨hnot, hstore⟩
    · exact Or.inl ⟨wr, hsucceeds, hstore⟩
    · refine Or.inr ⟨fun wr' hsucceeds => ?_, hstore⟩
      obtain ⟨h', -, hstep', -⟩ := hsucceeds.calls
      cases hstep.symm.trans hstep'
      exact hnot hsucceeds
  · refine Or.inr ⟨fun wr hsucceeds => ?_, store_of_no_call hmake hplace hlt fun h wr hstep => hcall ⟨h, wr, hstep⟩⟩
    obtain ⟨h, -, hstep, -⟩ := hsucceeds.calls
    exact hcall ⟨h, wr, hstep⟩

/-- **The calls that succeed through any of its handles are the history of a storage.** -/
theorem history (hmake : steps[a]? = some .make) (hplace : (progress kind steps).handle? a = some p) :
    Store.History kind (Succeeds kind steps a) (contents kind steps a p) where
  empty := if_pos a.zero_le
  unique _ _ _ hsucceeds hsucceeds' := hsucceeds.calls.unique hsucceeds'.calls
  step k := by
    -- before the storage is made there is no call on it
    have hearly (hle : k ≤ a) (wr : Write R) (hsucceeds : Succeeds kind steps a k wr) : False :=
      Nat.not_lt_of_le hle hsucceeds.calls.made_before
    rcases Nat.lt_trichotomy k a with hlt | rfl | hgt
    · refine Or.inr ⟨hearly hlt.le, ?_⟩
      have hnot : contents kind steps a p (k + 1) = .empty := if_pos hlt
      rw [hnot, contents, if_pos hlt.le]
    · refine Or.inr ⟨hearly le_rfl, ?_⟩
      rw [contents_of_lt k.lt_succ_self, contents, if_pos le_rfl, progress_take_succ hmake, Progress.next, Step.run,
        store_make, if_pos]
      rw [handle?_of_make kind hmake] at hplace
      exact (Option.some.inj hplace).symm
    · rw [contents_of_lt hgt, contents_of_lt (Nat.lt_succ_of_lt hgt)]
      exact store_succ hmake hplace hgt

/-! ## What the handles find -/

/-- **The last set call of an ID** on a storage. -/
structure LastSet (kind : Kind R) (steps : List (Step R)) (a : Nat) (id : String) (k : Nat) (r : R) : Prop where
  calls : Calls steps a k (.set r)
  on : kind.id r = id
  last : ∀ m r', k < m → Calls steps a m (.set r') → kind.id r' ≠ id

variable {id : String} {r : R}

/-- The last set call of an ID is the newest write on it, if no delete call succeeds afterwards. -/
theorem LastSet.newest (hmake : steps[a]? = some .make) (hlast : LastSet kind steps a id k r)
    (hkept : ∀ m, k < m → ¬Succeeds kind steps a m (.delete id)) :
    Newest kind (Succeeds kind steps a) id steps.length k (.set r) where
  before := hlast.calls.lt_length
  happens := hlast.calls.succeeds_set hmake
  on := hlast.on
  last m wr hkm _ hsucceeds := by
    cases wr with
    | set r' => exact hlast.last m r' hkm hsucceeds.calls
    | delete other =>
        rintro rfl
        exact hkept m hkm hsucceeds

/-- A set call that is the newest write on an ID is the last one, and no delete call succeeds afterwards. -/
theorem lastSet_of_newest (hmake : steps[a]? = some .make)
    (hnewest : Newest kind (Succeeds kind steps a) id steps.length k (.set r)) :
    LastSet kind steps a id k r ∧ ∀ m, k < m → ¬Succeeds kind steps a m (.delete id) := by
  refine ⟨⟨hnewest.happens.calls, hnewest.on, fun m r' hkm hcalls => ?_⟩, fun m hkm hsucceeds => ?_⟩
  · exact hnewest.last m _ hkm hcalls.lt_length (hcalls.succeeds_set hmake)
  · exact hnewest.last m _ hkm hsucceeds.calls.lt_length hsucceeds rfl

/-! ## Calls on a keyed store -/

variable {s : Storages R}

theorem get_eq_ok_iff : s.get p id = .ok r ↔ (s.store p).get? id = some r := by
  rw [get, Store.get]
  cases (s.store p).get? id <;> simp

theorem get_of_none (hnone : (s.store p).get? id = none) : s.get p id = .error .notFound := by
  rw [get, Store.get, hnone]

/-- **Deleting succeeds just where getting does**, and changes nothing where it fails. -/
theorem delete_eq_ok_iff (s : Storages R) (p : Handle) (id : String) :
    ((s.delete p id).1 = .ok () ↔ ∃ r, s.get p id = .ok r)
      ∧ ∀ e, (s.delete p id).1 = .error e → (s.delete p id).2 = s := by
  rw [delete, Store.delete, get, Store.get]
  cases (s.store p).get? id with
  | none => simp
  | some r => simp

/-- **What a handle finds in its storage**, which was made at the step number `a` of a program. -/
structure MapsIds (kind : Kind R) (steps : List (Step R)) (a : Nat) (s : Storages R) (p : Handle) : Prop where
  /-- An ID gives the resource of its last set call, if no delete call of the ID has succeeded after that. -/
  stored : ∀ id k r, LastSet kind steps a id k r → (∀ m, k < m → ¬Succeeds kind steps a m (.delete id)) →
    s.get p id = .ok r
  /-- Otherwise nothing is found. -/
  missing : ∀ id, (∀ k r, LastSet kind steps a id k r → ∃ m, k < m ∧ Succeeds kind steps a m (.delete id)) →
    s.get p id = .error .notFound
  delete_iff : ∀ id, (s.delete p id).1 = .ok () ↔ ∃ r, s.get p id = .ok r
  delete_fails : ∀ id e, (s.delete p id).1 = .error e → (s.delete p id).2 = s
  /-- The size is the number of IDs that give a resource. -/
  size_eq : ∃ ids : Finset String, (∀ id, id ∈ ids ↔ ∃ r, s.get p id = .ok r) ∧ s.size p = ids.card
  /-- A resource with the wanted property that some ID gives is selected once, and nothing else is selected. -/
  selects : ∀ wanted : R → Bool, (s.select p wanted).Nodup
    ∧ ∀ r, r ∈ s.select p wanted ↔ wanted r = true ∧ ∃ id, s.get p id = .ok r

/-- **A storage is a map keyed by the IDs of its resources.** A program makes storages, clones their handles, and sets
and deletes resources through these, in any order. Then all the handles of a storage, and no others, point to one place,
and they find there what the calls through any of them have left: of every ID the resource that was set last, unless it
was deleted since. -/
theorem clones_keep_last_sets (kind : Kind R) {steps : List (Step R)} {a : Nat} (hmake : steps[a]? = some .make) :
    ∃ p, (∀ h, HandleOf steps a h ↔ (progress kind steps).handle? h = some p)
      ∧ MapsIds kind steps a (progress kind steps).memory p := by
  obtain ⟨p, hplace⟩ : ∃ p, (progress kind steps).handle? a = some p := ⟨_, handle?_of_make kind hmake⟩
  have hhistory := history hmake hplace
  have hcontents : contents kind steps a p steps.length = (progress kind steps).memory.store p := by
    rw [contents_of_lt (List.getElem?_eq_some_iff.mp hmake).1, List.take_length]
  have hkeyed := hhistory.keyedBy steps.length
  rw [hcontents] at hkeyed
  refine ⟨p, fun h => by rw [handleOf_iff kind hmake, hplace], ?_⟩
  exact
    { stored := by
        intro id k r hlast hkept
        have hstored := hhistory.get?_of_newest (hlast.newest hmake hkept)
        rw [hcontents] at hstored
        exact get_eq_ok_iff.mpr hstored
      missing := by
        intro id hgone
        have hnone : (contents kind steps a p steps.length).get? id = none := by
          refine hhistory.get?_eq_none fun k r hnewest => ?_
          obtain ⟨hlast, hkept⟩ := lastSet_of_newest hmake hnewest
          obtain ⟨m, hkm, hsucceeds⟩ := hgone k r hlast
          exact hkept m hkm hsucceeds
        rw [hcontents] at hnone
        exact get_of_none hnone
      delete_iff := fun id => (delete_eq_ok_iff _ p id).1
      delete_fails := fun id => (delete_eq_ok_iff _ p id).2
      size_eq := by
        refine ⟨((progress kind steps).memory.store p).ids.toFinset, fun id => ?_, hkeyed.card_ids.symm⟩
        rw [List.mem_toFinset, hkeyed.mem_ids_iff]
        simp only [get_eq_ok_iff]
      selects := by
        intro wanted
        refine ⟨hkeyed.nodup_toList.filter wanted, fun r => ?_⟩
        simp only [get_eq_ok_iff]
        exact hkeyed.mem_select_iff }

/-- A book on a shelf, with its title. -/
def book (id title : String) : Record := ⟨⟨id, none⟩, [("title", .str title)]⟩

/-- A program with a shelf, a second handle of it, a third one that is cloned late, and another shelf beside it. -/
def shelves : List (Step Record) :=
  [.make, .clone 0, .call 0 (.set (book "a" "Old")), .make, .call 1 (.set (book "a" "New")),
    .call 3 (.set (book "a" "Other")), .call 0 (.set (book "b" "Lent")), .clone 1, .call 7 (.delete "b"),
    .call 3 (.delete "a")]

/-- The handle that is cloned late finds the book that was set anew, although it was deleted from the other shelf, and
does not find the book that was deleted. -/
theorem clones_keep_last_sets_shelves : shelves[0]? = some .make
    ∧ ∃ p, (progress Record.schemaless shelves).handle? 7 = some p
      ∧ (progress Record.schemaless shelves).memory.get p "a" = .ok (book "a" "New")
      ∧ (progress Record.schemaless shelves).memory.get p "b" = .error .notFound := by
  have hmake : shelves[0]? = some .make := rfl
  obtain ⟨p, hhandles, hmaps⟩ := clones_keep_last_sets Record.schemaless hmake
  have hclone : HandleOf shelves 0 1 := .clone rfl Nat.zero_lt_one (.first hmake)
  have hlate : HandleOf shelves 0 7 := .clone rfl (by decide) hclone
  have hother : ¬HandleOf shelves 0 3 := by
    rintro (_ | ⟨clones, -, -⟩)
    cases clones
  have hnew : LastSet Record.schemaless shelves 0 "a" 4 (book "a" "New") :=
    { calls := ⟨1, by decide, rfl, hclone⟩
      on := rfl
      last := by
        rintro m r' hm ⟨h, -, hstep, hof⟩
        have hlt : m < 10 := (List.getElem?_eq_some_iff.mp hstep).1
        interval_cases m <;> simp [shelves] at hstep
        · exact absurd (hstep.1 ▸ hof) hother
        · rw [← hstep.2]
          decide }
  have hkept : ∀ m, 4 < m → ¬Succeeds Record.schemaless shelves 0 m (.delete "a") := by
    rintro m hm ⟨⟨h, -, hstep, hof⟩, -⟩
    have hlt : m < 10 := (List.getElem?_eq_some_iff.mp hstep).1
    interval_cases m <;> simp [shelves] at hstep
    exact hother (hstep ▸ hof)
  have hlent : Succeeds Record.schemaless shelves 0 8 (.delete "b") := ⟨⟨7, by decide, rfl, hlate⟩, rfl⟩
  refine ⟨hmake, p, (hhandles 7).mp hlate, hmaps.stored "a" 4 _ hnew hkept, hmaps.missing "b" fun k r hlast => ?_⟩
  -- there is no set call after the deletion
  refine ⟨8, ?_, hlent⟩
  obtain ⟨h, -, hstep, -⟩ := hlast.calls
  have hlt : k < 10 := (List.getElem?_eq_some_iff.mp hstep).1
  by_contra hge
  interval_cases k <;> cases hstep

end ResourceTree.Storages
