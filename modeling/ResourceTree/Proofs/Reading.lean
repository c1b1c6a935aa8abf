import ResourceTree.Proofs.ActionLaws

/-! # The reading handlers

Listing and fetching never change a store: `list_harmless` and `fetch_harmless`. Fetching goes through
`Collection.requested`, which the layers around a route use too. -/

namespace ResourceTree

/-- Events of the handlers that list or fetch: the API's store is read and an answer is made. -/
def Event.Reading (node : NodeKey) : Event → Prop
  | .store node' (.get _) | .store node' .list | .filter node' | .wrapList node' _ | .wrap node' _
  | .render node' | .renderView node' | .page node' | .pageView node' => node' = node
  | _ => False

namespace Payload

variable {R : Type}

/-- The payload that is left to choose once it is known whether there is a page. -/
def ofPage (view : View) : Option String → Action R Payload
  | some text => pure (.page text)
  | none =>
    match view.json with
    | .ok value => pure (.json value.sorted)
    | .error reason => Action.fail (.internal reason)

/-- A payload is made in three steps: rendering, asking for a page, and choosing. -/
theorem ofView_eq (ctx : Context R) (allowPage : Bool) (rendered asked : Event)
    (view : Except ApiError View) : (ofView ctx allowPage rendered asked view : Action R Payload) = (do
      Action.emit rendered
      let view ← Action.lift view
      if allowPage && ctx.acceptsHtml then do
        Action.emit asked
        ofPage view view.page
      else ofPage view none) := by
  rw [ofView]
  refine bind_congr fun _ => bind_congr fun view => ?_
  by_cases h : (allowPage && ctx.acceptsHtml) = true
  · rw [if_pos h, if_pos h]
    rfl
  · rw [if_neg h, if_neg h]
    rfl

theorem harmless_ofPage {P : Event → Prop} (view : View) (page : Option String) :
    (ofPage view page : Action R Payload).Harmless P := by
  cases page with
  | some text => exact Action.Harmless.pure _
  | none =>
      rw [ofPage]
      cases view.json with
      | ok value => exact Action.Harmless.pure _
      | error reason => exact Action.Harmless.fail _

/-- Making a payload is harmless where both of its events belong to the class. -/
theorem harmless_ofView {P : Event → Prop} {rendered asked : Event} (hr : P rendered) (ha : P asked)
    (ctx : Context R) (allowPage : Bool) (view : Except ApiError View) :
    (ofView ctx allowPage rendered asked view).Harmless P := by
  rw [ofView_eq]
  refine (Action.Harmless.emit hr).bind fun _ => (Action.Harmless.lift view).bind fun view => ?_
  split
  · exact (Action.Harmless.emit ha).bind fun _ => harmless_ofPage view view.page
  · exact harmless_ofPage view none

end Payload

namespace Collection

variable {R : Type}

theorem harmless_present (c : Collection R) (ctx : Context R) (allowPage : Bool) (r : R) :
    (c.present ctx allowPage r).Harmless (Event.Reading c.node) := by
  rw [present]
  cases c.hooks.wrapper with
  | none =>
      refine Payload.harmless_ofView ?_ ?_ ctx allowPage _
      · rfl
      · rfl
  | some wrap =>
      refine (Action.Harmless.emit ?_).bind fun _ => Payload.harmless_ofView ?_ ?_ ctx allowPage _
      · rfl
      · rfl
      · rfl

theorem harmless_respond (c : Collection R) (ctx : Context R) (m : Method) (r : R) :
    (c.respond ctx m r).Harmless (Event.Reading c.node) :=
  (c.harmless_present ctx true r).bind fun _ => Action.Harmless.pure _

/-- **How the requested resource is found**: it is the resolved one, or else what one get call with the ID of
the path gives. -/
theorem requested_apply (c : Collection R) (ctx : Context R) (env : Env) (w : World R) :
    c.requested ctx env w = match ctx.resource? c.kind.name c.name with
      | some r => (.ok r, w)
      | none =>
        match ctx.id? c.name with
        | none => (.error (.api .notFound), w)
        | some id => ((Action.found env w c.node id).mapError (.api ∘ .ofStorage),
            w.called c.node (.get id)) := by
  rw [requested]
  cases ctx.resource? c.kind.name c.name with
  | some r => rfl
  | none =>
      cases hid : ctx.id? c.name with
      | none =>
          simp only [pathId, hid]
          rfl
      | some id =>
          simp only [pathId, hid, Action.lift_ok, pure_bind]
          rw [Action.orFail, Action.bind_apply, Action.get_apply]
          cases Action.found env w c.node id <;> rfl

/-- The requested resource is found without a change, by one get call at most. -/
theorem harmless_requested {P : Event → Prop} (c : Collection R)
    (h : ∀ id, P (.store c.node (.get id))) (ctx : Context R) : (c.requested ctx).Harmless P := by
  rw [requested]
  cases ctx.resource? c.kind.name c.name with
  | some r => exact Action.Harmless.pure r
  | none => exact (Action.Harmless.lift _).bind fun id => (Action.Harmless.get (h id)).orFail

/-- **Fetching changes nothing.** -/
theorem fetch_harmless (c : Collection R) (ctx : Context R) :
    (c.fetch ctx).Harmless (Event.Reading c.node) :=
  (c.harmless_requested (fun _ => rfl) ctx).bind fun r => c.harmless_respond ctx .get r

theorem harmless_selection (c : Collection R) (ctx : Context R) :
    (c.selection ctx).Harmless (Event.Reading c.node) := by
  rw [selection]
  cases c.hooks.filter with
  | none => exact Action.Harmless.pure _
  | some make =>
      refine Action.Harmless.announced ?_ _
      rfl

/-- Showing the items one after another is harmless, by induction on the items. -/
theorem harmless_presentAll (c : Collection R) (ctx : Context R) (rs : List R) :
    (c.presentAll ctx rs).Harmless (Event.Reading c.node) := by
  induction rs with
  | nil => exact Action.Harmless.pure []
  | cons r rs ih =>
      exact (c.harmless_present ctx false r).bind fun _ => ih.bind fun _ => Action.Harmless.pure _

/-- **Listing changes nothing.** -/
theorem list_harmless (c : Collection R) (ctx : Context R) :
    (c.list ctx).Harmless (Event.Reading c.node) := by
  have hlist (p : R → Bool) :
      (Action.orFail (Action.list c.node p)).Harmless (Event.Reading c.node) := by
    refine (Action.Harmless.list ?_).orFail
    rfl
  have hanswer (payload : Payload) : (pure (payload.toResponse (c.codes.get .get)) :
      Action R Response).Harmless (Event.Reading c.node) := Action.Harmless.pure _
  refine (c.harmless_selection ctx).bind fun p => (hlist p).bind fun rs => ?_
  cases c.hooks.listWrapper with
  | none =>
      refine (c.harmless_presentAll ctx rs).bind fun _ => ?_
      exact (Action.Harmless.pure _).bind hanswer
  | some wrap =>
      refine (Action.Harmless.emit ?_).bind fun _ =>
        (Payload.harmless_ofView ?_ ?_ ctx true _).bind hanswer
      · rfl
      · rfl
      · rfl

end Collection

end ResourceTree
