import ResourceTree.Proofs.Stages

/-! # What default handlers answer

A default handler that succeeds answers with the status code of its method. Without wrappers, and unless the request
prefers a page, its answer is the JSON value of one resource, or an object with the values of some under `items`, or
empty after a deletion: `Collection.handle_answers`. -/

namespace ResourceTree

variable {R α β : Type}

/-! ## What an action can give -/

namespace Action

/-- Every value that an action can come to is of a class. -/
def Gives (Q : α → Prop) (x : Action R α) : Prop := ∀ env w a w', x env w = (.ok a, w') → Q a

namespace Gives

variable {Q : β → Prop}

theorem pure {b : β} (h : Q b) : Gives Q (Pure.pure b : Action R β) := fun env w b' w' heq => by
  cases heq
  exact h

theorem fail (e : ApiError) : Gives Q (fail e : Action R β) := fun env w b w' heq => by cases heq

/-- What comes last decides. -/
theorem bind_last {f : α → Action R β} (x : Action R α) (h : ∀ a, Gives Q (f a)) : Gives Q (x >>= f) :=
  fun env w b w' heq => by
    obtain ⟨a, w₁, -, hf⟩ := bind_eq_ok.mp heq
    exact h a env w₁ b w' hf

theorem bind {P : α → Prop} {x : Action R α} {f : α → Action R β} (hx : Gives P x) (h : ∀ a, P a → Gives Q (f a)) :
    Gives Q (x >>= f) := fun env w b w' heq => by
  obtain ⟨a, w₁, hfirst, hf⟩ := bind_eq_ok.mp heq
  exact h a (hx env w a w₁ hfirst) env w₁ b w' hf

end Gives

end Action

/-! ## Answers without pages -/

/-- A request that does not prefer pages is answered with a JSON value. -/
theorem Payload.ofView_gives {ctx : Context R} (hpage : ctx.acceptsHtml = false) (allowPage : Bool)
    (rendered asked : Event) (view : Except ApiError View) :
    (ofView ctx allowPage rendered asked view).Gives fun payload => ∃ v, payload = .json v := by
  rw [ofView, hpage, Bool.and_false]
  refine .bind_last _ fun _ => .bind_last _ fun view => ?_
  simp only [Bool.false_eq_true, if_false, pure_bind]
  cases view.json with
  | ok v => exact .pure ⟨v.sorted, rfl⟩
  | error reason => exact .fail _

namespace Collection

/-- An API shows its resources as they are, without wrappers. -/
structure ShowsPlainly (c : Collection R) : Prop where
  wrapper : c.hooks.wrapper = none
  listWrapper : c.hooks.listWrapper = none

/-- **The answers of default handlers** to requests that do not prefer pages. -/
inductive Answers (c : Collection R) : Operation → Response → Prop
  /-- The values of some resources. -/
  | list (items : List Json) : Answers c .list (.json (c.codes.get .get) (.obj [("items", .arr items)]))
  /-- The value of one resource. -/
  | resource {op : Operation} (v : Json) (hlist : op ≠ .list) (hremove : op ≠ .remove) :
    Answers c op (.json (c.codes.get op.method) v)
  /-- Nothing but the status. -/
  | removed : Answers c .remove (.bare (c.codes.get .delete))

variable {c : Collection R} {ctx : Context R}

/-- All but deletions are answered with a document, which holds the items of a list. -/
theorem Answers.document {op : Operation} {response : Response} (h : c.Answers op response) (hremove : op ≠ .remove) :
    ∃ v, response = .json (c.codes.get op.method) v ∧ (op = .list → ∃ items, v = .obj [("items", .arr items)]) := by
  cases h with
  | list items => exact ⟨_, rfl, fun _ => ⟨items, rfl⟩⟩
  | resource v hlist _ => exact ⟨v, rfl, fun h => absurd h hlist⟩
  | removed => exact absurd rfl hremove

theorem Answers.bare {response : Response} (h : c.Answers .remove response) :
    response = .bare (c.codes.get .delete) := by
  cases h with
  | resource v _ hremove => exact absurd rfl hremove
  | removed => rfl

theorem present_gives (hplain : c.ShowsPlainly) (hpage : ctx.acceptsHtml = false) (allowPage : Bool) (r : R) :
    (c.present ctx allowPage r).Gives fun payload => ∃ v, payload = .json v := by
  rw [present, hplain.wrapper]
  exact Payload.ofView_gives hpage allowPage _ _ _

/-- The answer that shows a resource. -/
theorem respond_gives (hplain : c.ShowsPlainly) (hpage : ctx.acceptsHtml = false) {op : Operation} (hlist : op ≠ .list)
    (hremove : op ≠ .remove) (r : R) : (c.respond ctx op.method r).Gives (c.Answers op) := by
  refine .bind (present_gives hplain hpage true r) fun payload hpayload => .pure ?_
  obtain ⟨v, rfl⟩ := hpayload
  exact .resource v hlist hremove

/-- After the write, the stored resource is shown, or nothing. -/
theorem finish_gives (hplain : c.ShowsPlainly) (hpage : ctx.acceptsHtml = false) {k : Writing} {wr : Write R}
    (hsuits : wr.Suits k) : (c.finish k ctx wr).run.Gives (c.Answers k.operation) := by
  cases wr with
  | set r =>
      rw [run_finish_set]
      refine respond_gives hplain hpage ?_ ?_ r <;> cases k <;> first | exact absurd rfl hsuits | decide
  | delete id =>
      cases hsuits
      exact .bind_last _ fun _ => .pure .removed

/-- **A default handler that succeeds gives such an answer.** -/
theorem handle_answers (hplain : c.ShowsPlainly) (hpage : ctx.acceptsHtml = false) (op : Operation) (body : ByteArray) :
    (c.handle op ctx body).Gives (c.Answers op) := by
  have hwriting (k : Writing) : (c.handle k.operation ctx body).Gives (c.Answers k.operation) := by
    rw [handle_eq_stages]
    refine .bind (P := fun wr => wr.Suits k) (fun env w wr w' h => ?_) fun wr hsuits =>
      .bind_last _ fun _ => finish_gives hplain hpage hsuits
    exact (Pipeline.passes_of_run h).gives (c.draft_gives ctx body k)
  cases op with
  | list =>
      rw [handle, list, hplain.listWrapper]
      refine .bind_last _ fun p => .bind_last _ fun rs => ?_
      simp only [pure_bind]
      exact .bind_last _ fun items => .pure (.list items)
  | fetch => exact .bind_last _ fun r => respond_gives hplain hpage (by decide) (by decide) r
  | create => exact hwriting .create
  | replace => exact hwriting .replace
  | merge => exact hwriting .merge
  | remove => exact hwriting .remove

end Collection

end ResourceTree
