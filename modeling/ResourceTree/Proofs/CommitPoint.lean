import ResourceTree.Proofs.Stages

/-! # The commit point of the writing handlers

A writing handler changes the stores at one point only. `Collection.Commits` says that a request gets past this
point, `Collection.Ending` lists the four ways in which the handler may end, and `handle_commits_once` puts
them together: before the write the stores are as they were, and whatever goes wrong after it the write stays. -/

namespace ResourceTree.Collection

variable {R : Type} {c : Collection R} {k : Writing} {ctx : Context R} {body : ByteArray} {env : Env}
  {w : World R}

/-- All stages before the write succeed, and so does the write, which leaves this world. -/
def CommitsTo (c : Collection R) (k : Writing) (ctx : Context R) (body : ByteArray) (env : Env)
    (w : World R) (wr : Write R) (w₂ : World R) : Prop :=
  ∃ w₁, (c.draft ctx body k).Passes env w wr w₁ ∧ c.commit wr env w₁ = (.ok (), w₂)

/-- All stages before the write succeed, and so does the write. -/
def Commits (c : Collection R) (k : Writing) (ctx : Context R) (body : ByteArray) (env : Env)
    (w : World R) (wr : Write R) : Prop :=
  ∃ w₂, c.CommitsTo k ctx body env w wr w₂

/-- **The ways in which a writing handler ends**, with its answer and the world after it. -/
inductive Ending (c : Collection R) (k : Writing) (ctx : Context R) (body : ByteArray) (env : Env)
    (w : World R) : Response → World R → Prop where
  /-- A stage before the write fails. -/
  | refused {s : Stage} {e : ApiError} {w' : World R} (stage : s ∈ k.stagesBefore)
      (fails : (c.draft ctx body k).FailsAt env w s e w')
      (before : w.LogsOnly (Event.Preparatory c.node) w') : Ending c k ctx body env w (.error e) w'
  /-- The write fails. -/
  | unwritten {wr : Write R} {w₁ w' : World R} {e : StorageError}
      (passes : (c.draft ctx body k).Passes env w wr w₁)
      (before : w.LogsOnly (Event.Preparatory c.node) w₁)
      (fails : c.commit wr env w₁ = (.error (.api (.ofStorage e)), w'))
      (call : w' = w₁.called c.node (wr.call c.kind)) :
      Ending c k ctx body env w (.error (.ofStorage e)) w'
  /-- A stage after the write fails. -/
  | unanswered {wr : Write R} {w₂ w' : World R} {s : Stage} {e : ApiError}
      (commits : c.CommitsTo k ctx body env w wr w₂) (stage : s ∈ k.stagesAfter)
      (fails : (c.finish k ctx wr).FailsAt env w₂ s e w')
      (after : w₂.LogsOnly (Event.Closing c.node) w') : Ending c k ctx body env w (.error e) w'
  /-- Nothing fails. -/
  | answered {wr : Write R} {w₂ w' : World R} {response : Response}
      (commits : c.CommitsTo k ctx body env w wr w₂)
      (passes : (c.finish k ctx wr).Passes env w₂ response w')
      (after : w₂.LogsOnly (Event.Closing c.node) w') : Ending c k ctx body env w response w'

/-- The stages before the write come to one write at most, in one world. -/
theorem passes_unique {α : Type} {p : Pipeline R α} {a b : α} {w₁ w₂ : World R}
    (h : p.Passes env w a w₁) (h' : p.Passes env w b w₂) : a = b ∧ w₁ = w₂ := by
  have heq := (Pipeline.run_of_passes h).symm.trans (Pipeline.run_of_passes h')
  cases heq
  exact ⟨rfl, rfl⟩

/-- **What a committed request has done so far**: the stages before the write have read, and the write is one
call, applied to the store of the API. -/
theorem CommitsTo.spec {wr : Write R} {w₂ : World R} (h : c.CommitsTo k ctx body env w wr w₂) :
    wr.Suits k ∧ w₂.stores = (w.setStore c.node (wr.apply c.kind (w.stores c.node))).stores
      ∧ ∃ w₁, w.LogsOnly (Event.Preparatory c.node) w₁
        ∧ w₂.log = w₁.log ++ [.store c.node (wr.call c.kind)] := by
  obtain ⟨w₁, hpass, hcommit⟩ := h
  obtain ⟨hstores, hlog⟩ := hpass.harmless (c.draft_harmless ctx body k)
  refine ⟨hpass.gives (c.draft_gives ctx body k), ?_, w₁, hlog, ?_⟩
  · rcases c.commit_cases wr env w₁ with hok | ⟨e, herr⟩
    · cases hok.symm.trans hcommit
      rw [written, World.setStore, World.setStore, World.stores_called, hstores]
    · cases herr.symm.trans hcommit
  · rcases c.commit_cases wr env w₁ with hok | ⟨e, herr⟩
    · cases hok.symm.trans hcommit
      rfl
    · cases herr.symm.trans hcommit

/-- A writing handler ends in one of the four ways. -/
theorem handle_ending (c : Collection R) (k : Writing) (ctx : Context R) (body : ByteArray) (env : Env)
    (w : World R) : ∃ response w',
      (c.handle k.operation ctx body).answered env w = (.ok response, w')
        ∧ c.Ending k ctx body env w response w' := by
  -- first the stages before the write, then the write, and then the stages after it
  rcases Pipeline.passes_or_failsAt (c.draft_harmless ctx body k) env w with
    ⟨wr, w₁, hpass⟩ | ⟨s, e, w₁, hfail⟩
  · obtain ⟨hstores, hlog⟩ := hpass.harmless (c.draft_harmless ctx body k)
    have hrun : (c.handle k.operation ctx body) env w =
        (c.commit wr >>= fun _ => (c.finish k ctx wr).run) env w₁ := by
      rw [c.handle_eq_stages, Action.bind_of_ok (Pipeline.run_of_passes hpass)]
    rcases c.commit_cases wr env w₁ with hok | ⟨e, herr⟩
    · have hcommits : c.CommitsTo k ctx body env w wr (c.written wr w₁) := ⟨w₁, hpass, hok⟩
      rw [Action.bind_of_ok hok] at hrun
      rcases Pipeline.passes_or_failsAt (c.finish_harmless k ctx wr) env (c.written wr w₁) with
        ⟨response, w', hdone⟩ | ⟨s, e, w', hfail⟩
      · refine ⟨response, w', Action.answered_of_ok (hrun.trans (Pipeline.run_of_passes hdone)), ?_⟩
        exact .answered hcommits hdone (hdone.harmless (c.finish_harmless k ctx wr)).2
      · refine ⟨_, w', Action.answered_of_error (hrun.trans (Pipeline.run_of_failsAt hfail)), ?_⟩
        refine .unanswered hcommits ?_ hfail (hfail.harmless (c.finish_harmless k ctx wr)).2
        exact hfail.mem (c.finish_follows ctx (hpass.gives (c.draft_gives ctx body k)))
    · rw [Action.bind_of_error herr] at hrun
      exact ⟨_, _, Action.answered_of_error hrun, .unwritten hpass hlog herr rfl⟩
  · have hrun : (c.handle k.operation ctx body) env w = (.error (.api e), w₁) := by
      rw [c.handle_eq_stages, Action.bind_of_error (Pipeline.run_of_failsAt hfail)]
    refine ⟨_, w₁, Action.answered_of_error hrun, .refused ?_ hfail ?_⟩
    · exact hfail.mem (c.draft_follows ctx body k)
    · exact (hfail.harmless (c.draft_harmless ctx body k)).2

/-- **The two outcomes for the stores**: the write applied, or nothing changed. -/
theorem Ending.stores {response : Response} {w' : World R} (h : c.Ending k ctx body env w response w') :
    (∃ wr, c.Commits k ctx body env w wr
        ∧ w'.stores = (w.setStore c.node (wr.apply c.kind (w.stores c.node))).stores)
      ∨ (¬∃ wr, c.Commits k ctx body env w wr) ∧ w'.stores = w.stores := by
  cases h with
  | refused stage fails before =>
      refine Or.inr ⟨?_, (fails.harmless (c.draft_harmless ctx body k)).1⟩
      -- stages that fail cannot also come to a write
      rintro ⟨wr, w₂, w₁, hpass, -⟩
      cases (Pipeline.run_of_failsAt fails).symm.trans (Pipeline.run_of_passes hpass)
  | @unwritten wr w₁ _ e passes before fails call =>
      refine Or.inr ⟨?_, ?_⟩
      · rintro ⟨wr', w₂, w₁', hpass, hok⟩
        -- they would come to the same write in the same world, where it has failed
        obtain ⟨rfl, rfl⟩ := passes_unique passes hpass
        cases fails.symm.trans hok
      · rw [call, World.stores_called]
        exact (passes.harmless (c.draft_harmless ctx body k)).1
  | @unanswered wr w₂ _ s e commits stage fails after =>
      refine Or.inl ⟨wr, ⟨w₂, commits⟩, ?_⟩
      rw [(fails.harmless (c.finish_harmless k ctx wr)).1, commits.spec.2.1]
  | @answered wr w₂ _ _ commits passes after =>
      refine Or.inl ⟨wr, ⟨w₂, commits⟩, ?_⟩
      rw [(passes.harmless (c.finish_harmless k ctx wr)).1, commits.spec.2.1]

/-- A writing handler answers, and either the write that its draft has come to is applied or no store
changes. -/
theorem handle_writes (c : Collection R) (k : Writing) (ctx : Context R) (body : ByteArray) (env : Env)
    (w : World R) : ∃ response w', (c.handle k.operation ctx body).answered env w = (.ok response, w')
      ∧ ((∃ wr w₁, (c.draft ctx body k).Passes env w wr w₁ ∧ c.Commits k ctx body env w wr
          ∧ w'.stores = (w.setStore c.node (wr.apply c.kind (w.stores c.node))).stores)
        ∨ w'.stores = w.stores) := by
  obtain ⟨response, w', hanswer, hending⟩ := c.handle_ending k ctx body env w
  refine ⟨response, w', hanswer, ?_⟩
  rcases hending.stores with ⟨wr, ⟨w₂, w₁, hpass, hcommit⟩, hstores⟩ | ⟨-, hstores⟩
  · exact Or.inl ⟨wr, w₁, hpass, ⟨w₂, w₁, hpass, hcommit⟩, hstores⟩
  · exact Or.inr hstores

/-- A request commits one write at most. -/
theorem Commits.unique {wr wr' : Write R} (h : c.Commits k ctx body env w wr)
    (h' : c.Commits k ctx body env w wr') : wr = wr' := by
  obtain ⟨w₂, w₁, hpass, -⟩ := h
  obtain ⟨w₂', w₁', hpass', -⟩ := h'
  exact (passes_unique hpass hpass').1

/-- What a request commits is what has been written when it ends, in whatever way. -/
theorem Ending.written {wr : Write R} {response : Response} {w' : World R}
    (h : c.Ending k ctx body env w response w') (hcommits : c.Commits k ctx body env w wr) :
    wr.Suits k ∧ w'.stores = (w.setStore c.node (wr.apply c.kind (w.stores c.node))).stores := by
  obtain ⟨w₂, hto⟩ := hcommits
  refine ⟨hto.spec.1, ?_⟩
  rcases h.stores with ⟨wr', hcommits', hstores⟩ | ⟨hno, -⟩
  · rw [hstores, hcommits'.unique ⟨w₂, hto⟩]
  · exact absurd ⟨wr, w₂, hto⟩ hno

/-- **The commit point.** A writing handler always answers, in one of the four ways of `Ending`. The stores
afterwards are those before with the one write applied if the request commits, and else exactly those
before. -/
theorem handle_commits_once (c : Collection R) (k : Writing) (ctx : Context R) (body : ByteArray)
    (env : Env) (w : World R) : ∃ response w',
      (c.handle k.operation ctx body).answered env w = (.ok response, w')
        ∧ c.Ending k ctx body env w response w'
        ∧ (∀ wr, c.Commits k ctx body env w wr → wr.Suits k
          ∧ w'.stores = (w.setStore c.node (wr.apply c.kind (w.stores c.node))).stores)
        ∧ ((¬∃ wr, c.Commits k ctx body env w wr) → w'.stores = w.stores) := by
  obtain ⟨response, w', hanswer, hending⟩ := c.handle_ending k ctx body env w
  refine ⟨response, w', hanswer, hending, fun wr => hending.written, fun hno => ?_⟩
  rcases hending.stores with ⟨wr, hcommits, -⟩ | ⟨-, hstores⟩
  · exact absurd ⟨wr, hcommits⟩ hno
  · exact hstores

end ResourceTree.Collection
