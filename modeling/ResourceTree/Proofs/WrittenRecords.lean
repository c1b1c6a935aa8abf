import ResourceTree.Proofs.WrittenTimes
import ResourceTree.Proofs.WrittenValues

/-! # Records that are written again

A record that was decoded is encoded to an object that is decoded to the same record (`Record.decode_encode`), and if
its numbers are whole this holds of the texts as well: `Record.decodeText_encode`. -/

namespace ResourceTree

namespace Identity

variable {members : List (String × Json)} {i j : Identity}

/-- The time of creation, if there is one, is read from its text. -/
def IsReadable (i : Identity) : Prop := ∀ t ∈ i.createdAt, Timestamp.parse t.text = .ok t

theorem isReadable_of_asTime {v : Json} {time : Option Timestamp} (h : v.asTime = .ok time) (id : String) :
    IsReadable ⟨id, time⟩ := by
  intro t ht
  obtain rfl : time = some t := ht
  cases v with
  | str s =>
      rw [Json.asTime] at h
      split at h
      · next t' hparse =>
          cases h
          exact Timestamp.parse_text_of_parse hparse
      · cases h
  | _ => cases h

/-- A member that is read keeps it so. -/
theorem IsReadable.read {member : String × Json} (h : i.IsReadable) (hread : i.read member = .ok j) :
    j.IsReadable := by
  obtain ⟨key, value⟩ := member
  rw [Identity.read] at hread
  split at hread
  · obtain ⟨id, -, hj⟩ := except_bind_eq_ok hread
    cases hj
    exact h
  · split at hread
    · obtain ⟨time, htime, hj⟩ := except_bind_eq_ok hread
      cases hj
      exact isReadable_of_asTime htime i.id
    · cases hread
      exact h

/-- So do all of them, by induction on the members. -/
theorem IsReadable.foldlM (h : i.IsReadable) (hread : members.foldlM Identity.read i = .ok j) : j.IsReadable := by
  induction members generalizing i with
  | nil =>
      cases hread
      exact h
  | cons member members ih =>
      rw [List.foldlM_cons] at hread
      obtain ⟨next, hnext, hrest⟩ := except_bind_eq_ok hread
      exact ih (h.read hnext) hrest

/-- **An identity that was read has a time that is read from its text.** -/
theorem isReadable_of_ofMembers (h : ofMembers members = .ok i) : i.IsReadable := by
  have hblank : blank.IsReadable := fun t ht => by cases ht
  rw [ofMembers] at h
  split at h
  · cases h
  · exact hblank.foldlM h

end Identity

namespace Record

/-! ## Decoded records -/

/-- **What holds of every record that was decoded**: its fields are sorted, none of them is a member of the identity,
and its time of creation is read from its text. -/
structure IsDecoded (r : Record) : Prop where
  sorted : Fields.IsSorted r.fields
  others : ∀ field ∈ r.fields, Identity.keys.contains field.1 = false
  readable : r.identity.IsReadable

variable {r : Record} {members : List (String × Json)}

/-- A record that was decoded comes from the members of an object: its fields are among them. -/
theorem isDecoded_of_decode {v : Json} (h : decode v = .ok r) :
    r.IsDecoded ∧ ∃ members, v = .obj members ∧ ∀ field ∈ r.fields, field ∈ members := by
  cases v with
  | obj members =>
      obtain ⟨identity, hidentity, hr⟩ := except_bind_eq_ok h
      cases hr
      have hfields {field : String × Json}
          (hfield : field ∈ Fields.ofList (members.filter fun m => !Identity.keys.contains m.1)) :
          field ∈ members ∧ (!Identity.keys.contains field.1) = true :=
        List.mem_filter.mp (Fields.mem_ofList hfield)
      refine ⟨⟨Fields.isSorted_ofList _, fun field hfield => ?_, Identity.isReadable_of_ofMembers hidentity⟩,
        members, rfl, fun field hfield => (hfields hfield).1⟩
      exact (Bool.not_eq_true' _).mp (hfields hfield).2
  | _ => cases h

namespace IsDecoded

/-- The members of the identity are no fields. -/
theorem nodup_members (h : r.IsDecoded) : ((r.identity.toMembers ++ r.fields).map Prod.fst).Nodup := by
  rw [List.map_append]
  refine (Identity.nodup_toMembers r.identity).append h.sorted.nodup fun key hkey hother => ?_
  obtain ⟨member, hmember, rfl⟩ := List.mem_map.mp hkey
  obtain ⟨field, hfield, heq⟩ := List.mem_map.mp hother
  have hno := h.others field hfield
  rw [heq, (Identity.mem_toMembers hmember).1] at hno
  cases hno

/-- The object that a record is encoded to carries its identity. -/
theorem carries_encode (h : r.IsDecoded) : r.encode.Carries r.identity := by
  have hmem {key : String} {v : Json} (hv : (key, v) ∈ r.identity.toMembers) : r.encode.get? key = some v :=
    (Fields.get?_eq_some_iff h.nodup_members).mpr (List.mem_append_left _ hv)
  refine ⟨hmem List.mem_cons_self, ?_⟩
  cases htime : r.identity.createdAt with
  | some t => exact hmem (List.mem_cons_of_mem _ (by rw [htime]; exact List.mem_singleton.mpr rfl))
  | none =>
      have hfield : "created_at" ∉ r.fields.map Prod.fst := fun hkey => by
        obtain ⟨field, hfield, heq⟩ := List.mem_map.mp hkey
        have hno := h.others field hfield
        rw [heq] at hno
        cases hno
      refine Fields.get?_eq_none fun hkey => ?_
      rw [Identity.toMembers, htime, List.map_append, List.mem_append] at hkey
      refine hkey.elim (fun hkey => ?_) hfield
      have hid : "created_at" = "id" := List.mem_singleton.mp hkey
      exact absurd hid (by decide)

/-- **A decoded record is decoded from what it is encoded to.** -/
theorem decode_encode (h : r.IsDecoded) : decode r.encode = .ok r := by
  have hidentity : Identity.ofMembers (r.identity.toMembers ++ r.fields) = .ok r.identity :=
    Identity.ofMembers_of_carries h.nodup_members h.carries_encode h.readable
  have hnone : r.identity.toMembers.filter (fun m => !Identity.keys.contains m.1) = [] :=
    List.filter_eq_nil_iff.mpr fun member hmember => by rw [(Identity.mem_toMembers hmember).1]; decide
  have hall : r.fields.filter (fun m => !Identity.keys.contains m.1) = r.fields :=
    List.filter_eq_self.mpr fun field hfield => by rw [h.others field hfield]; rfl
  simp only [encode, decode, hidentity, List.filter_append, hnone, hall, List.nil_append,
    Fields.ofList_eq_self h.sorted]
  rfl

end IsDecoded

/-! ## Texts of records -/

/-- All numbers in the fields of a record are whole. -/
def Exact (r : Record) : Prop := ∀ field ∈ r.fields, field.2.Exact

/-- The members of an identity are texts, which are read back. -/
theorem readsBack_toMembers {i : Identity} {member : String × Json} (h : member ∈ i.toMembers) (depth : Nat) :
    ∃ w, Json.ReadsBack depth member.2 w := by
  rw [Identity.toMembers] at h
  rcases List.mem_cons.mp h with rfl | h
  · exact ⟨_, rfl, rfl⟩
  · obtain ⟨t, -, rfl⟩ := Option.map_eq_some_iff.mp (Option.mem_toList.mp h)
    exact ⟨_, rfl, rfl⟩

/-- An object is what an object is written for, even where the order of members counts. -/
theorem members?_of_outline? {w : Json.Written} {depth : Nat} {members : List (String × Json)}
    (h : w.outline? (depth + 1) = some (.obj members)) :
    ∃ ws, w = .obj ws ∧ Json.Written.members? depth ws = some members := by
  cases w with
  | obj ws =>
      obtain ⟨members', hmembers, heq⟩ := Option.map_eq_some_iff.mp h
      cases heq
      exact ⟨ws, rfl, hmembers⟩
  | arr ws =>
      obtain ⟨items, -, heq⟩ := Option.map_eq_some_iff.mp h
      cases heq
  | num n =>
      obtain ⟨n', -, heq⟩ := Option.map_eq_some_iff.mp h
      cases heq
  | str s =>
      obtain ⟨s', -, heq⟩ := Option.map_eq_some_iff.mp h
      cases heq
  | null => cases h
  | bool b => cases h

/-- The fields of a record that was decoded from a text are read back, one level below the outermost. -/
theorem readsBack_fields {w : Json.Written} {depth : Nat} (hfits : w.Fits)
    (h : schemaless.decodeWritten (depth + 1) w = .ok r) (hexact : r.Exact) :
    r.IsDecoded ∧ ∀ field ∈ r.fields, ∃ w', Json.ReadsBack depth field.2 w' := by
  rw [Kind.decodeWritten] at h
  split at h
  · next v hv =>
      obtain ⟨hdecoded, members, rfl, hfields⟩ := isDecoded_of_decode h
      obtain ⟨ws, rfl, hmembers⟩ := members?_of_outline? hv
      cases hfits with
      | obj hws =>
          exact ⟨hdecoded, fun field hfield =>
            Json.exists_readsBack_members hws hmembers field (hfields field hfield) (hexact field hfield)⟩
  · cases h

/-- **A record that was decoded from a text is decoded from its own text**, if its numbers are whole. -/
theorem decodeText_encode {text : String} (h : schemaless.decodeText text = .ok r) (hexact : r.Exact) :
    schemaless.decodeText r.encode.text = .ok r := by
  rw [Kind.decodeText] at h
  split at h
  · next w hw =>
      obtain ⟨hdecoded, hfields⟩ := readsBack_fields (Json.fits_of_written? hw) h hexact
      have hmembers : ∀ member ∈ r.identity.toMembers ++ r.fields, ∃ w', Json.ReadsBack 126 member.2 w' := by
        intro member hmember
        rcases List.mem_append.mp hmember with hmember | hmember
        · exact readsBack_toMembers hmember 126
        · exact hfields member hmember
      obtain ⟨ws, hws, hvalues⟩ := Json.exists_rereadMembers hmembers
      have hwritten : Json.written? r.encode.text = some (.obj ws) := by
        rw [Json.written?_text, encode, Json.reread, hws]
        rfl
      have houtline : (Json.Written.obj ws).outline? Json.Written.maxDepth = some r.encode := by
        rw [Json.Written.maxDepth, Json.Written.outline?, hvalues]
        rfl
      rw [Kind.decodeText, hwritten]
      show schemaless.decodeWritten Json.Written.maxDepth (.obj ws) = .ok r
      rw [Kind.decodeWritten, houtline]
      exact hdecoded.decode_encode
  · cases h

end Record

end ResourceTree
