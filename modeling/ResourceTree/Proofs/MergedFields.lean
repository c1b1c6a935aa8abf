import ResourceTree.Proofs.JsonDocuments
import ResourceTree.Proofs.LastWrites

/-! # Fields of merged records

A partial update is not just what its body names: the body is laid over the blank resource of the API, so what the
blank resource has and the body does not name is part of the update too (`Collection.bound?`). A merge of records sets
the fields of the update and leaves all others and the identity: `Collection.merge_sets`. So an API whose blank resource
has no fields changes the fields that the body names and nothing else, and another one puts the fields of its blank
resource over stored ones (`Collection.merge_overwrites`). -/

namespace ResourceTree

namespace Collection

variable {c : Collection Record} {ctx : Context Record} {env : Env} {w : World Record} {body : ByteArray}
  {named : Fields Json} {id : String} {r : Record}

/-! ## What a body stands for -/

/-- **The members that a body names**; a blank body names none. -/
inductive Names (body : ByteArray) : Fields Json → Prop
  | blank (h : body.toList.all Text.isAsciiBlank = true) : Names body []
  | object {named : Fields Json} (h : body.toList.all Text.isAsciiBlank = false)
      (hnamed : Json.parseBytes? body = some (.obj named)) : Names body named

theorem Names.isSorted (h : Names body named) : Fields.IsSorted named := by
  cases h with
  | blank => exact List.Pairwise.nil
  | object _ hnamed =>
      obtain ⟨text, -, hparse⟩ := Option.bind_eq_some_iff.mp hnamed
      obtain ⟨written, -, hvalue⟩ := Option.bind_eq_some_iff.mp hparse
      exact (Json.sorted_of_obj hvalue).1

/-- The members of the value that bodies are laid over. -/
def preset (c : Collection Record) : Fields Json :=
  Fields.ofList (Json.sortedMembers (c.blank.identity.toMembers ++ c.blank.fields))

theorem template_eq (hkind : c.kind = Record.schemaless) : c.template = .ok (.obj c.preset) := by
  rw [template, hkind]
  rfl

/-- **What a body that names these members is bound with**: its own value, or else that of the blank resource. -/
def bound? (c : Collection Record) (named : Fields Json) (name : String) : Option Json :=
  (Fields.get? named name).or (Fields.get? c.preset name)

/-- The members of the value that a body stands for. -/
def boundMembers (c : Collection Record) (named : Fields Json) : Fields Json := Fields.extend c.preset named

theorem isSorted_boundMembers (c : Collection Record) (named : Fields Json) :
    Fields.IsSorted (c.boundMembers named) :=
  (Fields.isSorted_ofList _).extend named

theorem get?_boundMembers (hnames : Names body named) (name : String) :
    Fields.get? (c.boundMembers named) name = c.bound? named name :=
  Fields.get?_extend hnames.isSorted.nodup name

theorem bodyValue_of_names (hnames : Names body named) :
    bodyValue (.obj c.preset) body = .ok (.obj (c.boundMembers named)) := by
  cases hnames with
  | blank h => rw [bodyValue, if_pos h]; rfl
  | object h hnamed => simp only [bodyValue, h, hnamed, overlay, boundMembers]; rfl

/-- A blank resource without fields presets nothing but its identity. -/
theorem get?_preset (hblank : c.blank.fields = []) {name : String} (hname : Identity.keys.contains name = false) :
    Fields.get? c.preset name = none := by
  have hsorted : Json.sortedMembers c.blank.identity.toMembers = c.blank.identity.toMembers :=
    Json.sortedMembers_eq_self fun member hmember => (Identity.mem_toMembers hmember).2
  rw [preset, hblank, List.append_nil, hsorted, Fields.get?_ofList (Identity.nodup_toMembers _)]
  refine Fields.get?_eq_none fun hmem => ?_
  obtain ⟨member, hmember, rfl⟩ := List.mem_map.mp hmem
  rw [(Identity.mem_toMembers hmember).1] at hname
  cases hname

/-! ## The update -/

/-- The fields that a merge sets: those of the value that a body stands for, without the identity. -/
def update (c : Collection Record) (named : Fields Json) : Fields Json :=
  Fields.ofList ((c.boundMembers named).filter fun m => !Identity.keys.contains m.1)

theorem get?_update (hnames : Names body named) (name : String) :
    Fields.get? (c.update named) name = if Identity.keys.contains name then none else c.bound? named name := by
  have hsorted : Fields.IsSorted ((c.boundMembers named).filter fun m => !Identity.keys.contains m.1) :=
    (c.isSorted_boundMembers named).sublist List.filter_sublist
  rw [update, Fields.ofList_eq_self hsorted, Fields.get?_filter (fun key => !Identity.keys.contains key),
    get?_boundMembers hnames]
  cases Identity.keys.contains name <;> rfl

/-- **A body is accepted** if the ID that it is bound with is empty or that of the path, and if the time of creation
that it is bound with, if any, is one. -/
structure Accepts (c : Collection Record) (named : Fields Json) (id : String) : Prop where
  id : ∀ v, c.bound? named "id" = some v → v = .str "" ∨ v = .str id
  createdAt : ∀ v, c.bound? named "created_at" = some v → ∃ t, v.asTime = .ok t

/-- **An accepted body is bound** as a record with the fields of the update. -/
theorem bindBody_of_accepts (hkind : c.kind = Record.schemaless) (hnames : Names body named)
    (haccepts : c.Accepts named id) :
    ∃ i : Identity, c.bindBody body = .ok ⟨i, c.update named⟩ ∧ (i.id = "" ∨ i.id = id) := by
  -- the identity is the one that the members carry, as far as they do
  obtain ⟨boundId, hid, hcase⟩ : ∃ boundId, (∀ v, c.bound? named "id" = some v → v = .str boundId)
      ∧ (boundId = "" ∨ boundId = id) ∧ (c.bound? named "id" = none → "" = boundId) := by
    cases hbound : c.bound? named "id" with
    | none => exact ⟨"", nofun, Or.inl rfl, fun _ => rfl⟩
    | some v =>
        rcases haccepts.id v hbound with rfl | rfl
        · exact ⟨"", fun v h => (Option.some.inj h).symm, Or.inl rfl, nofun⟩
        · exact ⟨id, fun v h => (Option.some.inj h).symm, Or.inr rfl, nofun⟩
  obtain ⟨boundTime, htime, hnoTime⟩ : ∃ boundTime,
      (∀ v, c.bound? named "created_at" = some v → v.asTime = .ok boundTime)
        ∧ (c.bound? named "created_at" = none → none = boundTime) := by
    cases hbound : c.bound? named "created_at" with
    | none => exact ⟨none, nofun, fun _ => rfl⟩
    | some v =>
        obtain ⟨t, ht⟩ := haccepts.createdAt v hbound
        exact ⟨t, fun v' h => Option.some.inj h ▸ ht, nofun⟩
  have hidentity : Identity.ofMembers (c.boundMembers named) = .ok ⟨boundId, boundTime⟩ := by
    rw [Identity.ofMembers, Identity.repeated?_eq_none (c.isSorted_boundMembers named).nodup]
    refine Identity.foldlM_read (c.isSorted_boundMembers named).nodup ?_ ?_ ?_ ?_
    all_goals rw [get?_boundMembers hnames]
    · intro v hv
      rw [hid v hv, Json.asText]
    · exact hcase.2
    · exact htime
    · exact hnoTime
  refine ⟨⟨boundId, boundTime⟩, ?_, hcase.1⟩
  have hdecode : c.kind.decode (.obj (c.boundMembers named)) = .ok ⟨⟨boundId, boundTime⟩, c.update named⟩ := by
    rw [hkind]
    simp only [Record.schemaless, Record.decode, hidentity]
    rfl
  have hstages : c.bindBody body = c.template >>= fun target => bodyValue target body >>= c.decodeValue := rfl
  calc c.bindBody body
      = (bodyValue (.obj c.preset) body >>= c.decodeValue) := by rw [hstages, template_eq hkind]; rfl
    _ = c.decodeValue (.obj (c.boundMembers named)) := by rw [bodyValue_of_names hnames]; rfl
    _ = .ok ⟨⟨boundId, boundTime⟩, c.update named⟩ := by rw [decodeValue, hdecode]

/-- A record with the fields of an update set. -/
def merged (c : Collection Record) (named : Fields Json) (r : Record) : Record :=
  { r with fields := r.fields.extend (c.update named) }

theorem field?_merged (hnames : Names body named) (r : Record) (name : String) :
    (c.merged named r).field? name =
      if Identity.keys.contains name then r.field? name else (c.bound? named name).or (r.field? name) := by
  have hsorted : Fields.IsSorted (c.update named) := Fields.isSorted_ofList _
  rw [Record.field?, merged, Fields.get?_extend hsorted.nodup, get?_update hnames]
  cases Identity.keys.contains name <;> rfl

/-- An update without fields leaves a record as it is. -/
theorem merged_eq_self (hnames : Names body named)
    (hbound : ∀ name, Identity.keys.contains name = false → c.bound? named name = none) (r : Record) :
    c.merged named r = r := by
  have hupdate : c.update named = [] := by
    have hsorted : Fields.IsSorted (c.update named) := Fields.isSorted_ofList _
    refine hsorted.ext List.Pairwise.nil fun name => ?_
    rw [get?_update hnames, Fields.get?_nil]
    cases hname : Identity.keys.contains name with
    | true => rfl
    | false => exact hbound name hname
  rw [merged, hupdate]
  rfl

/-- **An accepted body is merged** into the stored record, by an API without a hook before storing. -/
theorem merge_commits (hkind : c.kind = Record.schemaless) (hsave : c.hooks.onSave = none)
    (hworks : ∀ n call, env.outage c.node n call = none) (hid : ctx.id? c.name = some id)
    (hstored : (w.stores c.node).get? id = some r) (hnames : Names body named) (haccepts : c.Accepts named id) :
    c.Commits .merge ctx body env w (.set (c.merged named r)) := by
  obtain ⟨i, hbody, hi⟩ := bindBody_of_accepts hkind hnames haccepts
  have hpath : c.pathId ctx = .ok id := by rw [pathId, hid]
  have hread : Action.orFail (Action.get c.node id) env w = (.ok r, w.called c.node (.get id)) := by
    rw [Action.orFail_eq_ok, Action.get_apply, Action.found, hworks, Store.get, hstored]
  have hcheck : c.checkBodyId ⟨i, c.update named⟩ id = .ok () := by
    rw [checkBodyId, hkind]
    exact if_pos hi
  have hbound (w : World Record) : c.bind ctx ⟨i, c.update named⟩ env w
      = (.ok ⟨i, c.update named⟩, { w with log := w.log ++ [.bind c.node] }) := by
    rw [bind, hkind]
    rfl
  have hmerged (w : World Record) : c.patch r ⟨i, c.update named⟩ env w
      = (.ok (c.merged named r), { w with log := w.log ++ [.patch c.node] }) := by
    rw [patch, hkind]
    rfl
  have hsaved (w : World Record) : c.save ctx (c.kind.withIdentity (c.merged named r) (c.kind.identity r)) env w
      = (.ok (c.merged named r), w) := by
    rw [save, hsave, hkind]
    rfl
  have hrestored : c.restored r (c.merged named r) = .set (c.merged named r) := by
    rw [restored, hkind]
    rfl
  have hrun : ∃ w₁, (c.draft ctx body .merge).run env w = (.ok (.set (c.merged named r)), w₁) := by
    simp only [draft, Pipeline.run, hpath, Action.lift_ok, pure_bind, run_readBody, hbody, hcheck]
    rw [Action.bind_of_ok hread, Action.bind_of_ok (hbound _), Action.bind_of_ok (hmerged _),
      Action.bind_of_ok (hsaved _), hrestored]
    exact ⟨_, rfl⟩
  obtain ⟨w₁, hrun⟩ := hrun
  have hcommit : c.commit (.set (c.merged named r)) env w₁ = (.ok (), c.written (.set (c.merged named r)) w₁) := by
    rw [commit_set_apply, hworks]
  exact ⟨_, w₁, Pipeline.passes_of_run hrun, hcommit⟩

/-- An API without a wrapper shows a record of the schemaless kind as its value, even to requests that prefer pages,
since there is no page for it. -/
theorem respond_record (hkind : c.kind = Record.schemaless) (hwrapper : c.hooks.wrapper = none)
    (ctx : Context Record) (m : Method) (r : Record) (env : Env) (w : World Record) :
    ∃ w', (c.respond ctx m r env w) = (.ok (.json (c.codes.get m) (Record.schemaless.value r)), w') := by
  cases hpage : ctx.acceptsHtml with
  | false =>
      have hdocument : c.kind.document ctx r = .ok (Record.schemaless.value r) := by
        rw [hkind]
        rfl
      rw [respond_document hwrapper hpage, hdocument]
      exact ⟨_, rfl⟩
  | true =>
      rw [respond, present, hwrapper, hkind]
      simp only [Payload.ofView_eq, hpage, Bool.and_true, if_true, bind_assoc]
      exact ⟨_, rfl⟩

/-- **A merge sets the fields of the update and nothing else.** An API of records without hooks answers an accepted
body with a record, which it has stored in the place of the one that was there. The record has the identity that was
stored. Under every other name there is what the body names, or else what the blank resource of the API has, or else
what was stored. So if the blank resource has no fields, what the body does not name stays, and a body that names
nothing leaves the record as it is. -/
theorem merge_sets (hkind : c.kind = Record.schemaless) (hhooks : c.hooks = {})
    (hworks : ∀ n call, env.outage c.node n call = none) (hid : ctx.id? c.name = some id)
    (hstored : (w.stores c.node).get? id = some r) (hkeyed : r.identity.id = id) (hnames : Names body named)
    (haccepts : c.Accepts named id) :
    ∃ r' w', (c.handle .merge ctx body).answered env w
        = (.ok (.json (c.codes.get .patch) (Record.schemaless.value r')), w')
      ∧ w'.stores = (w.setStore c.node ((w.stores c.node).insert id r')).stores
      ∧ r'.identity = r.identity
      ∧ (∀ name, r'.field? name =
        if Identity.keys.contains name then r.field? name else (c.bound? named name).or (r.field? name))
      ∧ (c.blank.fields = [] →
        (∀ name, Identity.keys.contains name = false → r'.field? name = (named.get? name).or (r.field? name))
          ∧ (named = [] → r' = r)) := by
  have hsave : c.hooks.onSave = none := by rw [hhooks]
  have hwrapper : c.hooks.wrapper = none := by rw [hhooks]
  have hcommits := merge_commits hkind hsave hworks hid hstored hnames haccepts
  -- the answer shows the record that is stored
  obtain ⟨response, w', hanswer, hending⟩ := c.handle_ending .merge ctx body env w
  obtain ⟨-, hstores⟩ := hending.written hcommits
  obtain ⟨w₂, w₁, hpass, hcommit⟩ := hcommits
  obtain ⟨w₃, hrespond⟩ := respond_record hkind hwrapper ctx .patch (c.merged named r) env w₂
  have hrun : c.handle .merge ctx body env w = c.respond ctx .patch (c.merged named r) env w₂ := by
    rw [show Operation.merge = Writing.operation .merge from rfl, handle_eq_stages,
      Action.bind_of_ok (Pipeline.run_of_passes hpass), Action.bind_of_ok hcommit, run_finish_set]
    rfl
  have hresponse := hanswer.symm.trans (Action.answered_of_ok (hrun.trans hrespond))
  obtain ⟨hresponse, -⟩ := Prod.mk.inj hresponse
  rw [Except.ok.inj hresponse] at hanswer
  have happly : (Write.set (c.merged named r)).apply c.kind (w.stores c.node)
      = (w.stores c.node).insert id (c.merged named r) := by
    rw [Write.apply, hkind, ← hkeyed]
    rfl
  refine ⟨c.merged named r, w', hanswer, by rw [hstores, happly], rfl, field?_merged hnames r, fun hblank => ⟨?_, ?_⟩⟩
  · intro name hname
    rw [field?_merged hnames, hname, if_neg Bool.false_ne_true, bound?, get?_preset hblank hname, Option.or_none]
  · rintro rfl
    refine merged_eq_self hnames (fun name hname => ?_) r
    rw [bound?, get?_preset hblank hname, Fields.get?_nil, Option.or_none]

end Collection

namespace Drafts

open Collection

/-- An API of albums whose blank resource has a title and a year. -/
def albums : Collection Record where
  node := ["albums"]
  name := "albums"
  kind := Record.schemaless
  blank := ⟨Identity.blank, [("title", .str "Template"), ("year", .int 2000)]⟩
  hooks := {}
  codes := .standard

/-- An album of an artist. -/
def stored : Record := ⟨⟨"s", some ⟨0, 0⟩⟩, [("artist", .str "A"), ("title", .str "S")]⟩

/-- The world with this album. -/
def world : World Record := World.initial.setStore ["albums"] (Store.empty.insert "s" stored)

/-- A request to merge a body into the album. -/
def context (body : ByteArray) : Context Record :=
  .ofRequest ⟨.patch, "/albums/s", none, [], body⟩ [("albums_id", "s")] []

/-- A body that names nothing. -/
def nothing : ByteArray := "\x7b\x7d".toUTF8

/-- A body that names a title. -/
def title : ByteArray := "\x7b\"title\":\"T\"\x7d".toUTF8

theorem names_nothing : Names nothing [] := .object (by cbv) (by cbv)

theorem names_title : Names title [("title", .str "T")] := .object (by cbv) (by cbv)

theorem accepts (named : Fields Json) (hid : named.get? "id" = none) (htime : named.get? "created_at" = none) :
    albums.Accepts named "s" where
  id v hv := by
    rw [bound?, hid] at hv
    have hblank : Fields.get? albums.preset "id" = some (.str "") := by cbv
    exact Or.inl (Option.some.inj (hv.symm.trans hblank))
  createdAt v hv := by
    rw [bound?, htime] at hv
    have hblank : Fields.get? albums.preset "created_at" = none := by cbv
    cases hv.symm.trans hblank

end Drafts

open Drafts in
/-- A body with a title: the artist stays, and the year comes from the blank resource. -/
theorem Collection.merge_sets_title :
    ∃ r' w', (albums.handle .merge (context title) title).answered (.quiet "") world
        = (.ok (.json 200 (Record.schemaless.value r')), w')
      ∧ (w'.stores ["albums"]).get? "s" = some r'
      ∧ r'.field? "artist" = some (.str "A") ∧ r'.field? "title" = some (.str "T")
      ∧ r'.field? "year" = some (.int 2000) := by
  have hid : (context title).id? albums.name = some "s" := by cbv
  have hworks (n : Nat) (call : StoreCall) : (Env.quiet "").outage albums.node n call = none := rfl
  have hstored : (world.stores albums.node).get? "s" = some stored := rfl
  obtain ⟨r', w', hanswer, hstores, -, hfield, -⟩ :=
    merge_sets rfl rfl hworks hid hstored rfl names_title (accepts _ rfl rfl)
  refine ⟨r', w', hanswer, ?_, ?_, ?_, ?_⟩
  · have hnode : ["albums"] = albums.node := rfl
    rw [hstores, World.stores_setStore, if_pos hnode, Store.get?_insert, if_pos rfl]
  · rw [hfield]
    cbv
  · rw [hfield]
    cbv
  · rw [hfield]
    cbv

open Drafts in
/-- **A body that names nothing changes an album**: the title of the blank resource is put over the stored one, and its
year is added. -/
theorem Collection.merge_overwrites :
    Names nothing [] ∧ (world.stores ["albums"]).get? "s" = some stored
      ∧ ∃ w', (albums.handle .merge (context nothing) nothing).answered (.quiet "") world
        = (.ok (.json 200 (Record.schemaless.value ⟨stored.identity,
          [("artist", .str "A"), ("title", .str "Template"), ("year", .int 2000)]⟩)), w')
      ∧ (w'.stores ["albums"]).get? "s" = some ⟨stored.identity,
          [("artist", .str "A"), ("title", .str "Template"), ("year", .int 2000)]⟩ :=
  ⟨names_nothing, rfl, _, by cbv, by cbv⟩

end ResourceTree
