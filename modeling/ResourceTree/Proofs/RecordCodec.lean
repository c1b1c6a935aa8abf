import ResourceTree.Proofs.SpelledTimes
import ResourceTree.Proofs.WrittenRecords

/-! # The JSON form of records

The identity of a record and its fields share one object. Nothing is lost on the way there or back: a record is decoded
from its value, and an object that carries an identity is the value of what it is decoded to. What is not decoded is no
object, or has a member of the identity that does not fit (`Json.IsNoRecord`, `Record.decode_fails_iff`); which texts
are times is said by their grammar. -/

namespace ResourceTree

namespace Json

variable {members : List (String × Json)} {v : Json}

/-! ## Sorted objects -/

theorem sortedMembers_eq_map (members : List (String × Json)) :
    sortedMembers members = members.map fun member => (member.1, member.2.sorted) := by
  induction members with
  | nil => rfl
  | cons member members ih => rw [sortedMembers, ih, List.map_cons]

/-- The members of a sorted object are sorted, and so are their values. -/
theorem members_of_sorted (h : (obj members).sorted = obj members) :
    Fields.IsSorted members ∧ ∀ member ∈ members, member.2.sorted = member.2 := by
  have hmembers : Fields.ofList (sortedMembers members) = members := obj.inj h
  have hsorted : Fields.IsSorted members := hmembers ▸ Fields.isSorted_ofList _
  have hkeys : Fields.IsSorted (sortedMembers members) := by
    rw [sortedMembers_eq_map]
    exact List.pairwise_map.mpr hsorted
  rw [Fields.ofList_eq_self hkeys, sortedMembers_eq_map] at hmembers
  refine ⟨hsorted, fun member hmember => ?_⟩
  have hsame := List.map_inj_left.mp (hmembers.trans members.map_id.symm) member hmember
  exact congrArg Prod.snd hsame

/-! ## Members that fit -/

theorem exists_asText_iff : (∃ s, v.asText = .ok s) ↔ ∃ s, v = .str s := by
  constructor
  · rintro ⟨s, h⟩
    cases v with
    | str s => exact ⟨s, rfl⟩
    | _ => cases h
  · rintro ⟨s, rfl⟩
    exact ⟨s, rfl⟩

theorem exists_asTime_iff : (∃ t, v.asTime = .ok t) ↔ v = .null ∨ ∃ s, v = .str s ∧ Timestamp.IsTime s := by
  constructor
  · rintro ⟨t, h⟩
    cases v with
    | null => exact .inl rfl
    | str s =>
        rw [asTime] at h
        split at h
        · next t' hparse => exact .inr ⟨s, rfl, Timestamp.exists_parse_iff.mp ⟨t', hparse⟩⟩
        · cases h
    | _ => cases h
  · rintro (rfl | ⟨s, rfl, hs⟩)
    · exact ⟨none, rfl⟩
    · obtain ⟨t, ht⟩ := Timestamp.exists_parse_iff.mpr hs
      exact ⟨some t, by rw [asTime, ht]⟩

/-- **Why a value is no record**, if these texts are times: it is no object, its ID is no text, or its time of creation
is neither `null` nor a time. -/
inductive IsNoRecord (isTime : String → Prop) (v : Json) : Prop
  | noObject (h : v.members? = none)
  | id {id : Json} (h : v.get? "id" = some id) (hno : id.text? = none)
  | createdAt {time : Json} (h : v.get? "created_at" = some time) (hnull : time ≠ .null)
      (hno : ∀ s, time.text? = some s → ¬isTime s)

theorem text?_eq_some_iff {s : String} : v.text? = some s ↔ v = .str s := by
  cases v <;> simp [text?]

/-- The members of the identity fit unless the object is no record. -/
theorem not_isNoRecord_iff {isTime : String → Prop} :
    ¬(obj members).IsNoRecord isTime
      ↔ (∀ id ∈ Fields.get? members "id", ∃ s, id = .str s)
        ∧ ∀ time ∈ Fields.get? members "created_at", time = .null ∨ ∃ s, time = .str s ∧ isTime s := by
  constructor
  · intro hrecord
    refine ⟨fun id hid => ?_, fun time htime => ?_⟩
    · cases htext : id.text? with
      | none => exact absurd (.id hid htext) hrecord
      | some s => exact ⟨s, text?_eq_some_iff.mp htext⟩
    · by_contra hno
      rw [not_or, not_exists] at hno
      exact hrecord (.createdAt htime hno.1 fun s hs h => hno.2 s ⟨text?_eq_some_iff.mp hs, h⟩)
  · rintro ⟨hid, htime⟩ (hno | ⟨hget, hno⟩ | ⟨hget, hnull, hno⟩)
    · cases hno
    · obtain ⟨s, rfl⟩ := hid _ hget
      cases hno
    · obtain hnull' | ⟨s, rfl, hs⟩ := htime _ hget
      · exact hnull hnull'
      · exact hno s rfl hs

/-- No key of an object occurs twice. -/
def HasDistinctKeys (v : Json) : Prop := ∀ members, v.members? = some members → (members.map Prod.fst).Nodup

end Json

namespace Identity

variable {members : List (String × Json)} {i j : Identity}

/-- If all members are read, each of them is. -/
theorem read_of_foldlM (h : members.foldlM read i = .ok j) {member : String × Json} (hmember : member ∈ members) :
    ∃ before after, read before member = .ok after := by
  induction members generalizing i with
  | nil => cases hmember
  | cons first members ih =>
      rw [List.foldlM_cons] at h
      obtain ⟨next, hnext, hrest⟩ := except_bind_eq_ok h
      rcases List.mem_cons.mp hmember with rfl | hmember
      · exact ⟨i, next, hnext⟩
      · exact ih hrest hmember

/-- **An identity is read just if its members fit.** -/
theorem exists_ofMembers_iff (hnodup : (members.map Prod.fst).Nodup) :
    (∃ i, ofMembers members = .ok i)
      ↔ (∀ v ∈ Fields.get? members "id", ∃ s, v.asText = .ok s)
        ∧ ∀ v ∈ Fields.get? members "created_at", ∃ t, v.asTime = .ok t := by
  rw [ofMembers, repeated?_eq_none hnodup]
  constructor
  · rintro ⟨i, h⟩
    have hread {key : String} {v : Json} (hv : v ∈ Fields.get? members key) :
        ∃ before after, read before (key, v) = .ok after :=
      read_of_foldlM h ((Fields.get?_eq_some_iff hnodup).mp hv)
    refine ⟨fun v hv => ?_, fun v hv => ?_⟩
    · obtain ⟨before, after, hafter⟩ := hread hv
      obtain ⟨s, hs, -⟩ := except_bind_eq_ok hafter
      exact ⟨s, hs⟩
    · obtain ⟨before, after, hafter⟩ := hread hv
      obtain ⟨t, ht, -⟩ := except_bind_eq_ok hafter
      exact ⟨t, ht⟩
  · rintro ⟨hid, htime⟩
    -- a member that is absent leaves what the blank identity has
    obtain ⟨id, hidRead, hidNone⟩ : ∃ id, (∀ v ∈ Fields.get? members "id", v.asText = .ok id)
        ∧ (Fields.get? members "id" = none → blank.id = id) := by
      cases hget : Fields.get? members "id" with
      | none => exact ⟨"", fun v hv => (by cases hv), fun _ => rfl⟩
      | some v =>
          obtain ⟨s, hs⟩ := hid v hget
          exact ⟨s, fun w hw => (by cases hw; exact hs), fun h => (by cases h)⟩
    obtain ⟨time, htimeRead, htimeNone⟩ : ∃ time, (∀ v ∈ Fields.get? members "created_at", v.asTime = .ok time)
        ∧ (Fields.get? members "created_at" = none → blank.createdAt = time) := by
      cases hget : Fields.get? members "created_at" with
      | none => exact ⟨none, fun v hv => (by cases hv), fun _ => rfl⟩
      | some v =>
          obtain ⟨t, ht⟩ := htime v hget
          exact ⟨t, fun w hw => (by cases hw; exact ht), fun h => (by cases h)⟩
    exact ⟨⟨id, time⟩, foldlM_read (i := ⟨id, time⟩) hnodup hidRead hidNone htimeRead htimeNone⟩

end Identity

namespace Record

variable {r : Record} {members : List (String × Json)} {v : Json}

/-! ## What is decoded -/

/-- An object is decoded just if its identity is read. -/
theorem exists_decode_obj_iff : (∃ r, decode (.obj members) = .ok r) ↔ ∃ i, Identity.ofMembers members = .ok i := by
  constructor
  · rintro ⟨r, h⟩
    obtain ⟨i, hi, -⟩ := except_bind_eq_ok h
    exact ⟨i, hi⟩
  · rintro ⟨i, hi⟩
    exact ⟨_, by rw [decode, hi]; rfl⟩

theorem decode_fails : (∃ e, decode v = .error e) ↔ ¬∃ r, decode v = .ok r := by
  cases h : decode v with
  | error e => simp
  | ok r => simp

/-- **A value is not decoded just if it is no record.** -/
theorem decode_fails_iff (hkeys : v.HasDistinctKeys) :
    (∃ e, decode v = .error e) ↔ v.IsNoRecord Timestamp.IsTime := by
  cases v with
  | obj members =>
      have hnodup : (members.map Prod.fst).Nodup := hkeys members rfl
      rw [decode_fails, exists_decode_obj_iff, Identity.exists_ofMembers_iff hnodup]
      simp only [Json.exists_asText_iff, Json.exists_asTime_iff]
      rw [← Json.not_isNoRecord_iff, not_not]
  | _ => exact ⟨fun _ => .noObject rfl, fun _ => ⟨_, rfl⟩⟩

/-! ## Both directions -/

/-- The value of a record: its object with the members of the identity among the fields. -/
theorem value_eq (hvalues : ∀ field ∈ r.fields, field.2.sorted = field.2) :
    schemaless.value r = .obj (Fields.ofList (r.identity.toMembers ++ r.fields)) := by
  have hall : ∀ member ∈ r.identity.toMembers ++ r.fields, member.2.sorted = member.2 := by
    intro member hmember
    rcases List.mem_append.mp hmember with hmember | hmember
    · exact (Identity.mem_toMembers hmember).2
    · exact hvalues member hmember
  simp only [Kind.value, Kind.toValue, schemaless, encode, Except.map, Json.sorted, Json.sortedMembers_eq_self hall]

/-- **A record is decoded from its value.** -/
theorem IsDecoded.decode_value (h : r.IsDecoded) (hvalues : ∀ field ∈ r.fields, field.2.sorted = field.2) :
    decode (schemaless.value r) = .ok r := by
  -- the value has the members of the object in another order, so it gives the same under each name
  have hall : Fields.IsSorted (Fields.ofList (r.identity.toMembers ++ r.fields)) := Fields.isSorted_ofList _
  have hget (name : String) : Fields.get? (Fields.ofList (r.identity.toMembers ++ r.fields)) name
      = Fields.get? (r.identity.toMembers ++ r.fields) name := Fields.get?_ofList h.nodup_members name
  have hcarries : (Json.obj (Fields.ofList (r.identity.toMembers ++ r.fields))).Carries r.identity :=
    ⟨(hget "id").trans h.carries_encode.id, (hget "created_at").trans h.carries_encode.createdAt⟩
  have hothers : Fields.IsSorted
      ((Fields.ofList (r.identity.toMembers ++ r.fields)).filter fun m => !Identity.keys.contains m.1) :=
    hall.sublist List.filter_sublist
  have hfields : (Fields.ofList (r.identity.toMembers ++ r.fields)).filter (fun m => !Identity.keys.contains m.1)
      = r.fields := by
    refine hothers.ext h.sorted fun name => ?_
    rw [Fields.get?_filter (fun key => !Identity.keys.contains key), hget, Fields.get?_append,
      Identity.get?_toMembers h.carries_encode]
    cases hkey : Identity.keys.contains name with
    | false => rfl
    | true =>
        have hno : name ∉ r.fields.map Prod.fst := fun hname => by
          obtain ⟨field, hfield, rfl⟩ := List.mem_map.mp hname
          rw [h.others field hfield] at hkey
          cases hkey
        exact (Fields.get?_eq_none hno).symm
  rw [value_eq hvalues, decode, Identity.ofMembers_of_carries hall.nodup hcarries h.readable, hfields]
  show Except.ok ⟨r.identity, Fields.ofList r.fields⟩ = Except.ok r
  rw [Fields.ofList_eq_self h.sorted]

/-- The names of the identity are not among the fields of a record. -/
theorem isDecoded_of_field? (hsorted : Fields.IsSorted r.fields) (hid : r.field? "id" = none)
    (htime : r.field? "created_at" = none) (hreadable : r.identity.IsReadable) : r.IsDecoded := by
  refine ⟨hsorted, fun field hfield => ?_, hreadable⟩
  have hget : r.field? field.1 = some field.2 := (Fields.get?_eq_some_iff hsorted.nodup).mpr hfield
  cases hkey : Identity.keys.contains field.1 with
  | false => rfl
  | true =>
      have hname : field.1 = "created_at" ∨ field.1 = "id" := by simpa [Identity.keys] using hkey
      rcases hname with hname | hname
      · rw [hname, htime] at hget
        cases hget
      · rw [hname, hid] at hget
        cases hget

/-- A sorted value that carries an identity is the value of the record that it is decoded to. -/
theorem exists_decode_of_sorted {i : Identity} (hsorted : v.sorted = v) (h : v.Carries i) (htime : i.IsReadable) :
    ∃ r, decode v = .ok r ∧ schemaless.value r = v := by
  cases v with
  | obj members =>
      obtain ⟨hmembers, hvalues⟩ := Json.members_of_sorted hsorted
      exact exists_decode_of_carries hmembers hvalues h htime
  | _ => cases h.id

/-- **The JSON form of records loses nothing.** A record that has no member of the identity among its fields is decoded
from its value, and from its object as it is written. A value that carries an ID and perhaps a time of creation, as it
is written, is the value of the record that it is decoded to. A value is not decoded just if it is no object, has an ID
that is no text, or a time of creation that is neither `null` nor the text of a time; every date-time of RFC 3339 is
the text of a time. -/
theorem codec_loses_nothing :
    (∀ r : Record, Fields.IsSorted r.fields → (∀ field ∈ r.fields, field.2.sorted = field.2) →
      r.field? "id" = none → r.field? "created_at" = none → r.identity.IsReadable →
      decode (schemaless.value r) = .ok r ∧ decode r.encode = .ok r)
    ∧ (∀ (v : Json) (i : Identity), v.sorted = v → v.Carries i → i.IsReadable →
      ∃ r, decode v = .ok r ∧ schemaless.value r = v)
    ∧ (∀ v : Json, v.HasDistinctKeys → ((∃ e, decode v = .error e) ↔ v.IsNoRecord Timestamp.IsTime))
    ∧ ∀ s, Timestamp.IsInternetTime s → Timestamp.IsTime s := by
  refine ⟨fun r hsorted hvalues hid htime hreadable => ?_, fun v i => exists_decode_of_sorted,
    fun v => decode_fails_iff, fun s => Timestamp.IsInternetTime.isTime⟩
  have hdecoded := isDecoded_of_field? hsorted hid htime hreadable
  exact ⟨hdecoded.decode_value hvalues, hdecoded.decode_encode⟩

/-- A record with a time of creation and nested fields, one of which has the name of an ID inside. -/
def pressed : Record where
  identity := ⟨"k1", some ⟨978307200, 0⟩⟩
  fields := [("tags", .arr [.null, .obj [("id", .int 7)]]), ("title", .str "Kid A")]

/-- The value of the record. -/
def pressedValue : Json :=
  .obj [("created_at", .str "2001-01-01T00:00:00Z"), ("id", .str "k1"),
    ("tags", .arr [.null, .obj [("id", .int 7)]]), ("title", .str "Kid A")]

theorem isReadable_pressed : pressed.identity.IsReadable := by
  intro t ht
  obtain rfl : ⟨978307200, 0⟩ = t := Option.some.inj ht
  decide +kernel

/-- The record comes back from its value and the value from the record; an ID that is `null` is not decoded. -/
theorem codec_loses_nothing_pressed :
    decode (schemaless.value pressed) = .ok pressed
      ∧ (∃ r, decode pressedValue = .ok r ∧ schemaless.value r = pressedValue)
      ∧ (∃ e, decode (.obj [("id", .null), ("title", .str "Kid A")]) = .error e)
      ∧ Timestamp.IsTime "2001-01-01T00:00:00Z" := by
  obtain ⟨hrecords, hvalues, hfailures, htimes⟩ := codec_loses_nothing
  refine ⟨?_, ?_, ?_, ?_⟩
  · refine (hrecords pressed ?_ ?_ rfl rfl isReadable_pressed).1
    · unfold Fields.IsSorted pressed
      decide +kernel
    · intro field hfield
      rcases List.mem_cons.mp hfield with rfl | hfield
      · rfl
      · obtain rfl := List.mem_singleton.mp hfield
        rfl
  · exact hvalues pressedValue pressed.identity rfl ⟨rfl, rfl⟩ isReadable_pressed
  · refine (hfailures _ ?_).mpr (.id rfl rfl)
    rintro members ⟨⟩
    decide
  · refine htimes _ ⟨⟨2001, 1, 1, 0, 0, 0, 0, 0⟩, ?_, ?_⟩
    · have htwo {a b : Char} {n : Nat} (ha : a.isDigit = true) (hb : b.isDigit = true)
          (hn : Nat.ofDigitChars 10 [a, b] 0 = n) : Timestamp.IsPadded 2 [a, b] n :=
        ⟨⟨by simp [ha, hb], by simp, hn⟩, rfl⟩
      have hyear : Timestamp.IsPadded 4 ['2', '0', '0', '1'] 2001 := ⟨⟨by simp, by simp, rfl⟩, rfl⟩
      have hone : Timestamp.IsPadded 2 ['0', '1'] 1 := htwo rfl rfl rfl
      have hzero : Timestamp.IsPadded 2 ['0', '0'] 0 := htwo rfl rfl rfl
      exact .intro hyear hone hone (.inl rfl) hzero hzero hzero .absent (.zulu (.inl rfl))
    · exact ⟨by decide, by decide, by decide, by decide, by decide⟩

/-- The time of creation need not be a date-time of RFC 3339: fields of one digit are read too. -/
theorem relaxed_time_decoded :
    (∃ r, decode (.obj [("created_at", .str "2001-1-1T0:0:0Z")]) = .ok r)
      ∧ (Json.obj [("created_at", .str "2001-1-1T0:0:0Z")]).IsNoRecord Timestamp.IsInternetTime := by
  have hparse : Timestamp.parse "2001-1-1T0:0:0Z" = .ok ⟨978307200, 0⟩ := by decide +kernel
  constructor
  · refine exists_decode_obj_iff.mpr ((Identity.exists_ofMembers_iff (by decide)).mpr ?_)
    refine ⟨fun v hv => (by cases hv), ?_⟩
    rintro v ⟨⟩
    exact ⟨some ⟨978307200, 0⟩, by rw [Json.asTime, hparse]⟩
  · refine .createdAt rfl (by simp) ?_
    rintro s hs ⟨f, hwritten, -⟩
    obtain rfl : "2001-1-1T0:0:0Z" = s := Option.some.inj hs
    exact absurd hwritten.length_le (by decide)

end Record

end ResourceTree
