import ResourceTree.Client.Decode
import ResourceTree.Proofs.JsonReading
import ResourceTree.Proofs.SortedFields
import ResourceTree.Resource.Record

/-! # JSON documents that are read back

A value that is read back from its own text is sorted, and it is read as it is even where the order of members counts
(`Json.ReadsBack.outline`). If it carries an identity it is read as a record, and the record shows the same value:
`Record.exists_decodeText`, and `Record.exists_decodeList` for a list of such values. -/

namespace ResourceTree

namespace Json

/-! ## Sorted values -/

theorem sortedItems_eq_self {items : List Json} (h : ∀ item ∈ items, item.sorted = item) :
    sortedItems items = items := by
  induction items with
  | nil => rfl
  | cons item items ih =>
      rw [sortedItems, h item List.mem_cons_self, ih fun v hv => h v (List.mem_cons_of_mem item hv)]

theorem sortedMembers_eq_self {members : List (String × Json)} (h : ∀ member ∈ members, member.2.sorted = member.2) :
    sortedMembers members = members := by
  induction members with
  | nil => rfl
  | cons member members ih =>
      rw [sortedMembers, h member List.mem_cons_self, ih fun m hm => h m (List.mem_cons_of_mem member hm)]

/-- An object is sorted if its members are. -/
theorem sorted_obj {members : List (String × Json)} (h : Fields.IsSorted members)
    (hvalues : ∀ member ∈ members, member.2.sorted = member.2) : (obj members).sorted = obj members := by
  rw [sorted, sortedMembers_eq_self hvalues, Fields.ofList_eq_self h]

mutual

/-- **Whatever is read is sorted**, by induction on what is written. -/
theorem sorted_of_value? {w : Written} {depth : Nat} {v : Json} (h : w.value? depth = some v) : v.sorted = v := by
  match w, depth with
  | .null, _ =>
      cases h
      rfl
  | .bool b, _ =>
      cases h
      rfl
  | .num n, _ =>
      obtain ⟨n', -, rfl⟩ := Option.map_eq_some_iff.mp h
      rfl
  | .str s, _ =>
      obtain ⟨s', -, rfl⟩ := Option.map_eq_some_iff.mp h
      rfl
  | .arr ws, 0 => cases h
  | .arr ws, depth + 1 =>
      obtain ⟨items, hitems, rfl⟩ := Option.map_eq_some_iff.mp h
      rw [sorted, sortedItems_eq_self (sorted_of_items? hitems)]
  | .obj ws, 0 => cases h
  | .obj ws, depth + 1 =>
      obtain ⟨pairs, hpairs, rfl⟩ := Option.map_eq_some_iff.mp h
      exact sorted_obj (Fields.isSorted_ofList pairs) fun member hmember =>
        sorted_of_members? hpairs member (Fields.mem_ofList hmember)

theorem sorted_of_items? {ws : List Written} {depth : Nat} {items : List Json}
    (h : Written.items? depth ws = some items) : ∀ item ∈ items, item.sorted = item := by
  match ws with
  | [] =>
      cases h
      exact fun item hitem => by cases hitem
  | w :: ws =>
      rw [Written.items?] at h
      obtain ⟨value, hvalue, h⟩ := Option.bind_eq_some_iff.mp h
      obtain ⟨values, hvalues, h⟩ := Option.bind_eq_some_iff.mp h
      cases h
      intro item hitem
      rcases List.mem_cons.mp hitem with rfl | hitem
      · exact sorted_of_value? hvalue
      · exact sorted_of_items? hvalues item hitem

theorem sorted_of_members? {ws : List (Option String × Written)} {depth : Nat} {pairs : List (String × Json)}
    (h : Written.members? depth ws = some pairs) : ∀ pair ∈ pairs, pair.2.sorted = pair.2 := by
  match ws with
  | [] =>
      cases h
      exact fun pair hpair => by cases hpair
  | (key, w) :: ws =>
      rw [Written.members?] at h
      obtain ⟨key', -, h⟩ := Option.bind_eq_some_iff.mp h
      obtain ⟨value, hvalue, h⟩ := Option.bind_eq_some_iff.mp h
      obtain ⟨values, hvalues, h⟩ := Option.bind_eq_some_iff.mp h
      cases h
      intro pair hpair
      rcases List.mem_cons.mp hpair with rfl | hpair
      · exact sorted_of_value? hvalue
      · exact sorted_of_members? hvalues pair hpair

end

/-! ## Values that are read back -/

/-- **A value is read back** from what its own text writes, where containers may be nested this deep. -/
structure ReadsBack (depth : Nat) (v : Json) (w : Written) : Prop where
  written : v.reread = some w
  value : w.value? depth = some v

/-- A document that is read back from its text. -/
theorem readsBack_of_parse? {v : Json} (h : parse? v.text = some v) :
    ∃ w, written? v.text = some w ∧ ReadsBack Written.maxDepth v w := by
  obtain ⟨w, hw, h⟩ := Option.bind_eq_some_iff.mp h
  exact ⟨w, hw, (written?_text v).symm.trans hw, h⟩

/-- The keys of members stay as they are written and read. -/
theorem keys_rereadMembers {members : List (String × Json)} {ws : List (Option String × Written)}
    (h : rereadMembers members = some ws) : ws.map Prod.fst = members.map fun m => some m.1 := by
  induction members generalizing ws with
  | nil =>
      cases h
      rfl
  | cons member members ih =>
      rw [rereadMembers] at h
      obtain ⟨w, -, h⟩ := Option.bind_eq_some_iff.mp h
      obtain ⟨rest, hrest, h⟩ := Option.bind_eq_some_iff.mp h
      cases h
      rw [List.map_cons, ih hrest, List.map_cons]

theorem keys_members? {depth : Nat} {ws : List (Option String × Written)} {pairs : List (String × Json)}
    (h : Written.members? depth ws = some pairs) : ws.map Prod.fst = pairs.map fun m => some m.1 := by
  induction ws generalizing pairs with
  | nil =>
      cases h
      rfl
  | cons w ws ih =>
      rw [Written.members?] at h
      obtain ⟨key, hkey, h⟩ := Option.bind_eq_some_iff.mp h
      obtain ⟨value, -, h⟩ := Option.bind_eq_some_iff.mp h
      obtain ⟨rest, hrest, h⟩ := Option.bind_eq_some_iff.mp h
      cases h
      rw [List.map_cons, ih hrest, List.map_cons, hkey]

/-- The members of an object that is read back are read in the same order. -/
theorem members?_of_readsBack {depth : Nat} {members : List (String × Json)} {ws : List (Option String × Written)}
    (h : ReadsBack (depth + 1) (obj members) (.obj ws)) :
    rereadMembers members = some ws ∧ Written.members? depth ws = some members := by
  obtain ⟨hws, hvalue⟩ := h
  obtain ⟨ws', hws, heq⟩ := Option.map_eq_some_iff.mp hws
  cases heq
  obtain ⟨pairs, hpairs, heq⟩ := Option.map_eq_some_iff.mp hvalue
  obtain rfl : Fields.ofList pairs = members := by
    cases heq
    rfl
  -- the pairs have the keys of the sorted members, so they are sorted already
  have hkeys : pairs.map Prod.fst = (Fields.ofList pairs).map Prod.fst := by
    have hkeys := congrArg (List.filterMap id) ((keys_members? hpairs).symm.trans (keys_rereadMembers hws))
    simpa [List.filterMap_map, Function.comp_def, List.filterMap_eq_map'] using hkeys
  have hsorted : Fields.IsSorted pairs := by
    have hofList := Fields.isSorted_ofList pairs
    rw [Fields.IsSorted] at hofList ⊢
    rw [← List.pairwise_map (f := Prod.fst) (R := (· < ·))] at hofList ⊢
    rwa [hkeys]
  rw [Fields.ofList_eq_self hsorted] at hws ⊢
  exact ⟨hws, hpairs⟩

/-- A value that is read back is read as it is even if the order of its members counts. -/
theorem ReadsBack.outline {depth : Nat} {v : Json} {w : Written} (h : ReadsBack depth v w) :
    w.outline? depth = some v := by
  cases w with
  | obj ws =>
      cases depth with
      | zero => cases h.value
      | succ depth =>
          obtain ⟨members, -, rfl⟩ := Option.map_eq_some_iff.mp h.value
          rw [Written.outline?, (members?_of_readsBack h).2]
          rfl
  | _ => exact h.value

/-- The items of an array are read back one by one. -/
theorem ReadsBack.items {depth : Nat} {items : List Json} {ws : List Written}
    (h : ReadsBack (depth + 1) (arr items) (.arr ws)) : List.Forall₂ (ReadsBack depth) items ws := by
  obtain ⟨ws', hws, heq⟩ := Option.map_eq_some_iff.mp h.written
  cases heq
  obtain ⟨items', hitems, heq⟩ := Option.map_eq_some_iff.mp h.value
  cases heq
  clear h
  induction items generalizing ws with
  | nil =>
      cases hws
      exact .nil
  | cons item items ih =>
      rw [rereadItems] at hws
      obtain ⟨w, hw, hws⟩ := Option.bind_eq_some_iff.mp hws
      obtain ⟨rest, hrest, hws⟩ := Option.bind_eq_some_iff.mp hws
      cases hws
      rw [Written.items?] at hitems
      obtain ⟨value, hvalue, hitems⟩ := Option.bind_eq_some_iff.mp hitems
      obtain ⟨values, hvalues, hitems⟩ := Option.bind_eq_some_iff.mp hitems
      cases hitems
      exact .cons ⟨hw, hvalue⟩ (ih hrest hvalues)

/-- The only member of an object is read back, one level below it. -/
theorem ReadsBack.member {depth : Nat} {key : String} {v : Json} {w : Written}
    (h : ReadsBack depth (obj [(key, v)]) w) :
    ∃ inner w', depth = inner + 1 ∧ w = .obj [(some key, w')] ∧ ReadsBack inner v w' := by
  obtain ⟨ws, hws, rfl⟩ := Option.map_eq_some_iff.mp h.written
  rw [rereadMembers] at hws
  obtain ⟨w', hw', hws⟩ := Option.bind_eq_some_iff.mp hws
  cases hws
  cases depth with
  | zero => cases h.value
  | succ inner =>
      have hmembers := (members?_of_readsBack h).2
      rw [Written.members?] at hmembers
      obtain ⟨_, hkey, hmembers⟩ := Option.bind_eq_some_iff.mp hmembers
      obtain ⟨value, hvalue, hmembers⟩ := Option.bind_eq_some_iff.mp hmembers
      cases hkey
      cases hmembers
      exact ⟨inner, w', rfl, rfl, hw', hvalue⟩

/-- The members of an object that is read are sorted, and so are their values. -/
theorem sorted_of_obj {members : List (String × Json)} {depth : Nat} {w : Written}
    (h : w.value? depth = some (obj members)) :
    Fields.IsSorted members ∧ ∀ member ∈ members, member.2.sorted = member.2 := by
  cases w with
  | obj ws =>
      cases depth with
      | zero => cases h
      | succ depth =>
          obtain ⟨pairs, hpairs, heq⟩ := Option.map_eq_some_iff.mp h
          cases heq
          exact ⟨Fields.isSorted_ofList pairs, fun member hmember =>
            sorted_of_members? hpairs member (Fields.mem_ofList hmember)⟩
  | null => cases h
  | bool b => cases h
  | num n => obtain ⟨_, -, heq⟩ := Option.map_eq_some_iff.mp h; cases heq
  | str s => obtain ⟨_, -, heq⟩ := Option.map_eq_some_iff.mp h; cases heq
  | arr ws =>
      cases depth with
      | zero => cases h
      | succ depth => obtain ⟨_, -, heq⟩ := Option.map_eq_some_iff.mp h; cases heq

end Json

/-! ## Values that carry an identity -/

/-- **A value carries an identity**: its ID, and its time of creation if it has one. -/
structure Json.Carries (v : Json) (i : Identity) : Prop where
  id : v.get? "id" = some (.str i.id)
  createdAt : v.get? "created_at" = i.createdAt.map fun t => .str t.text

/-- A value carries some identity, whose time of creation is read back from its text. -/
def Json.CarriesIdentity (v : Json) : Prop :=
  ∃ i : Identity, v.Carries i ∧ ∀ t ∈ i.createdAt, Timestamp.parse t.text = .ok t

namespace Identity

variable {members : List (String × Json)} {i : Identity}

/-- Among members with different keys none of the identity is repeated. -/
theorem repeated?_eq_none (h : (members.map Prod.fst).Nodup) : repeated? members = none := by
  refine List.find?_eq_none.mpr fun key _ => ?_
  have hcount := List.nodup_iff_count_le_one.mp h key
  rw [List.count, List.countP_map, List.countP_eq_length_filter] at hcount
  simpa [Function.comp_def] using hcount

/-- The members of an identity are read one by one, by induction on the members. -/
theorem foldlM_read {start : Identity} (hnodup : (members.map Prod.fst).Nodup)
    (hid : ∀ v ∈ Fields.get? members "id", v.asText = .ok i.id)
    (hstartId : Fields.get? members "id" = none → start.id = i.id)
    (htime : ∀ v ∈ Fields.get? members "created_at", v.asTime = .ok i.createdAt)
    (hstartTime : Fields.get? members "created_at" = none → start.createdAt = i.createdAt) :
    members.foldlM read start = .ok i := by
  induction members generalizing start with
  | nil =>
      obtain ⟨id, createdAt⟩ := start
      cases hstartId rfl
      cases hstartTime rfl
      rfl
  | cons member members ih =>
      obtain ⟨key, value⟩ := member
      obtain ⟨hnew, hrest⟩ := List.nodup_cons.mp hnodup
      have hgone : Fields.get? members key = none := Fields.get?_eq_none hnew
      simp only [Fields.get?_cons] at hid hstartId htime hstartTime
      rw [List.foldlM_cons, read]
      by_cases hkey : key = "id"
      · subst hkey
        have hother : ¬("id" = "created_at") := by decide
        simp only [if_neg hother] at htime hstartTime
        rw [if_pos rfl, hid value rfl]
        exact ih hrest (fun v hv => by rw [hgone] at hv; cases hv) (fun _ => rfl) htime hstartTime
      · rw [if_neg hkey]
        simp only [if_neg hkey] at hid hstartId
        by_cases hcreated : key = "created_at"
        · subst hcreated
          rw [if_pos rfl, htime value rfl]
          exact ih hrest hid hstartId (fun v hv => by rw [hgone] at hv; cases hv) fun _ => rfl
        · rw [if_neg hcreated]
          simp only [if_neg hcreated] at htime hstartTime
          exact ih hrest hid hstartId htime hstartTime

/-- **An identity is read back** from the members of an object that carries it. -/
theorem ofMembers_of_carries (hnodup : (members.map Prod.fst).Nodup) (h : (Json.obj members).Carries i)
    (htime : ∀ t ∈ i.createdAt, Timestamp.parse t.text = .ok t) : ofMembers members = .ok i := by
  have hid : Fields.get? members "id" = some (.str i.id) := h.id
  have hcreated : Fields.get? members "created_at" = i.createdAt.map fun t => .str t.text := h.createdAt
  rw [ofMembers, repeated?_eq_none hnodup]
  refine foldlM_read hnodup (fun v hv => ?_) (fun hnone => ?_) (fun v hv => ?_) fun hnone => ?_
  · cases hid.symm.trans hv
    rfl
  · cases hid.symm.trans hnone
  · obtain ⟨t, ht, rfl⟩ := Option.map_eq_some_iff.mp (hcreated.symm.trans hv)
    rw [Json.asTime, htime t ht, ht]
  · exact (Option.map_eq_none_iff.mp (hcreated.symm.trans hnone)).symm

/-- The members that an identity is written as are those of any object that carries it. -/
theorem get?_toMembers (h : (Json.obj members).Carries i) (key : String) :
    Fields.get? i.toMembers key = if keys.contains key then Fields.get? members key else none := by
  have hid : Fields.get? members "id" = some (.str i.id) := h.id
  have hcreated : Fields.get? members "created_at" = i.createdAt.map fun t => .str t.text := h.createdAt
  rw [toMembers, Fields.get?_cons]
  by_cases hkey : key = "id"
  · subst hkey
    rw [if_pos rfl, hid]
    rfl
  · rw [if_neg (Ne.symm hkey)]
    by_cases htime : key = "created_at"
    · subst htime
      rw [hcreated]
      cases i.createdAt <;> rfl
    · have hother : keys.contains key = false := by simp [keys, hkey, htime]
      rw [hother]
      cases i.createdAt with
      | none => rfl
      | some t => exact (Fields.get?_cons _ _ _).trans (if_neg (Ne.symm htime))

theorem mem_toMembers {member : String × Json} (h : member ∈ i.toMembers) :
    keys.contains member.1 = true ∧ member.2.sorted = member.2 := by
  rw [toMembers] at h
  rcases List.mem_cons.mp h with rfl | h
  · exact ⟨rfl, rfl⟩
  · obtain ⟨t, -, rfl⟩ := Option.map_eq_some_iff.mp (Option.mem_toList.mp h)
    exact ⟨rfl, rfl⟩

theorem nodup_toMembers (i : Identity) : (i.toMembers.map Prod.fst).Nodup := by
  obtain ⟨id, createdAt⟩ := i
  cases createdAt <;> simp [toMembers]

end Identity

namespace Record

variable {members : List (String × Json)} {i : Identity}

/-- **An object that carries an identity is decoded to a record that shows it.** -/
theorem exists_decode_of_carries (hsorted : Fields.IsSorted members)
    (hvalues : ∀ member ∈ members, member.2.sorted = member.2) (h : (Json.obj members).Carries i)
    (htime : ∀ t ∈ i.createdAt, Timestamp.parse t.text = .ok t) :
    ∃ r, schemaless.decode (.obj members) = .ok r ∧ schemaless.value r = .obj members := by
  have hothers : Fields.IsSorted (members.filter fun m => !Identity.keys.contains m.1) :=
    hsorted.sublist List.filter_sublist
  refine ⟨⟨i, members.filter fun m => !Identity.keys.contains m.1⟩, ?_, ?_⟩
  · simp only [schemaless, decode, Identity.ofMembers_of_carries hsorted.nodup h htime,
      Fields.ofList_eq_self hothers]
    rfl
  · have hwritten : ∀ member ∈ i.toMembers ++ members.filter fun m => !Identity.keys.contains m.1,
        member.2.sorted = member.2 := by
      intro member hmember
      rcases List.mem_append.mp hmember with hmember | hmember
      · exact (Identity.mem_toMembers hmember).2
      · exact hvalues member (List.mem_filter.mp hmember).1
    have hkeys : ((i.toMembers ++ members.filter fun m => !Identity.keys.contains m.1).map Prod.fst).Nodup := by
      rw [List.map_append]
      refine (Identity.nodup_toMembers i).append hothers.nodup fun key hkey hother => ?_
      obtain ⟨member, hmember, rfl⟩ := List.mem_map.mp hkey
      obtain ⟨other, hmem, heq⟩ := List.mem_map.mp hother
      have hno := (List.mem_filter.mp hmem).2
      rw [heq, (Identity.mem_toMembers hmember).1] at hno
      cases hno
    have hvalue : Fields.ofList (i.toMembers ++ members.filter fun m => !Identity.keys.contains m.1) = members := by
      refine (Fields.isSorted_ofList _).ext hsorted fun name => ?_
      rw [Fields.get?_ofList hkeys, Fields.get?_append, Identity.get?_toMembers h,
        Fields.get?_filter (fun key => !Identity.keys.contains key)]
      cases Identity.keys.contains name <;> simp
    simp only [Kind.value, Kind.toValue, schemaless, encode, Except.map, Json.sorted,
      Json.sortedMembers_eq_self hwritten, hvalue]

/-- A value that is read back and carries an identity is read as a record that shows it. -/
theorem exists_decodeWritten {depth : Nat} {v : Json} {w : Json.Written} (h : Json.ReadsBack depth v w)
    (hcarries : v.Carries i) (htime : ∀ t ∈ i.createdAt, Timestamp.parse t.text = .ok t) :
    ∃ r, schemaless.decodeWritten depth w = .ok r ∧ schemaless.value r = v := by
  cases v with
  | obj members =>
      obtain ⟨hsorted, hvalues⟩ := Json.sorted_of_obj h.value
      obtain ⟨r, hr, hvalue⟩ := exists_decode_of_carries hsorted hvalues hcarries htime
      refine ⟨r, ?_, hvalue⟩
      rw [Kind.decodeWritten, h.outline]
      exact hr
  | _ => cases hcarries.id

/-- **A document that carries an identity** is decoded to a record that shows it. -/
theorem exists_decodeText {v : Json} (h : Json.parse? v.text = some v) (hcarries : v.CarriesIdentity) :
    ∃ r, schemaless.decodeText v.text = .ok r ∧ schemaless.value r = v := by
  obtain ⟨i, hcarries, htime⟩ := hcarries
  obtain ⟨w, hw, h⟩ := Json.readsBack_of_parse? h
  obtain ⟨r, hr, hvalue⟩ := exists_decodeWritten h hcarries htime
  refine ⟨r, ?_, hvalue⟩
  rw [Kind.decodeText, hw]
  exact hr

/-- Values that are read back one by one are read as records that show them. -/
theorem exists_mapM {depth : Nat} {items : List Json} {ws : List Json.Written}
    (h : List.Forall₂ (Json.ReadsBack depth) items ws) (hcarry : ∀ item ∈ items, item.CarriesIdentity) :
    ∃ rs, ws.mapM (schemaless.decodeWritten depth) = .ok rs ∧ rs.map schemaless.value = items := by
  induction h with
  | nil => exact ⟨[], rfl, rfl⟩
  | @cons item w items ws hback _ ih =>
      obtain ⟨i, hcarries, htime⟩ := hcarry item List.mem_cons_self
      obtain ⟨r, hr, hvalue⟩ := exists_decodeWritten hback hcarries htime
      obtain ⟨rs, hrs, hvalues⟩ := ih fun v hv => hcarry v (List.mem_cons_of_mem item hv)
      refine ⟨r :: rs, ?_, by rw [List.map_cons, hvalue, hvalues]⟩
      rw [List.mapM_cons, hr, hrs]
      rfl

/-- **A list of values that carry identities** is decoded to records that show them. -/
theorem exists_decodeList {items : List Json} (h : Json.parse? (Json.obj [("items", .arr items)]).text
      = some (.obj [("items", .arr items)])) (hcarry : ∀ item ∈ items, item.CarriesIdentity) :
    ∃ rs, schemaless.decodeList (Json.obj [("items", .arr items)]).text = .ok rs
      ∧ rs.map schemaless.value = items := by
  obtain ⟨w, hw, h⟩ := Json.readsBack_of_parse? h
  obtain ⟨inner, w', hdepth, rfl, h⟩ := h.member
  cases hdepth
  obtain ⟨ws, -, rfl⟩ := Option.map_eq_some_iff.mp h.written
  have hitems : Kind.writtenItems? (.obj [(some "items", .arr ws)]) = some ws := rfl
  rw [Kind.decodeList, hw, Option.bind_some, hitems]
  exact exists_mapM h.items hcarry

end Record

end ResourceTree
