import Mathlib.Data.List.Sort
import Mathlib.Data.String.Basic
import ResourceTree.Fields

/-! # Sorted fields

Fields are kept in the order of their names, each name once: `Fields.IsSorted` is an invariant of setting values.
Under it fields are determined by what they give for each name (`Fields.IsSorted.ext`), so named values that are
sorted already are the fields made of them (`Fields.ofList_eq_self`). -/

namespace ResourceTree

namespace Fields

variable {α : Type} {fields more : Fields α} {name : String} {value : α}

/-- Fields in the order of their names, each name once. -/
def IsSorted (fields : Fields α) : Prop := fields.Pairwise fun a b => a.1 < b.1

theorem IsSorted.nodup (h : IsSorted fields) : (fields.map Prod.fst).Nodup :=
  List.pairwise_map.mpr (h.imp ne_of_lt)

/-- A name that occurs once gives the value behind it. -/
theorem get?_eq_some_iff (h : (fields.map Prod.fst).Nodup) :
    get? fields name = some value ↔ (name, value) ∈ fields := by
  induction fields with
  | nil => simp
  | cons field rest ih =>
      obtain ⟨first, value'⟩ := field
      obtain ⟨hnew, hrest⟩ := List.nodup_cons.mp h
      rw [get?_cons, List.mem_cons, Prod.mk.injEq]
      by_cases hname : first = name
      · subst hname
        have habsent : (first, value) ∉ rest := fun hmem => hnew (List.mem_map.mpr ⟨_, hmem, rfl⟩)
        simp [habsent, eq_comm]
      · rw [if_neg hname, ih hrest]
        simp [Ne.symm hname]

/-- A name that does not occur gives nothing. -/
theorem get?_eq_none (h : name ∉ fields.map Prod.fst) : get? fields name = none := by
  rw [get?, Option.map_eq_none_iff, List.find?_eq_none]
  intro field hfield heq
  exact h (List.mem_map.mpr ⟨field, hfield, beq_iff_eq.mp heq⟩)

theorem get?_append (fields more : Fields α) (name : String) :
    get? (fields ++ more) name = (get? fields name).or (get? more name) := by
  rw [get?, get?, get?, List.find?_append]
  cases fields.find? fun field => field.1 == name <;> rfl

/-- Fields that are selected by their names give what they gave. -/
theorem get?_filter (p : String → Bool) (fields : Fields α) (name : String) :
    get? (fields.filter fun field => p field.1) name = if p name then get? fields name else none := by
  induction fields with
  | nil => simp
  | cons field rest ih =>
      rw [get?_cons]
      by_cases hp : p field.1 = true
      · rw [List.filter_cons, if_pos hp, get?_cons, ih]
        by_cases hname : field.1 = name
        · rw [if_pos hname, if_pos hname, if_pos (hname ▸ hp)]
        · rw [if_neg hname, if_neg hname]
      · rw [List.filter_cons, if_neg hp, ih]
        by_cases hname : field.1 = name
        · rw [if_neg (hname ▸ hp), if_neg (hname ▸ hp)]
        · rw [if_neg hname]

/-- **Sorted fields are determined by what they give.** -/
theorem IsSorted.ext {others : Fields α} (h : IsSorted fields) (h' : IsSorted others)
    (heq : ∀ name, get? fields name = get? others name) : fields = others := by
  have hperm : fields.Perm others := by
    refine (List.perm_ext_iff_of_nodup h.nodup.of_map h'.nodup.of_map).mpr fun field => ?_
    rw [← get?_eq_some_iff h.nodup, ← get?_eq_some_iff h'.nodup, heq]
  exact hperm.eq_of_pairwise (fun _ _ _ _ hlt hgt => absurd (lt_trans hlt hgt) (lt_irrefl _)) h h'

/-! ## Setting values -/

theorem mem_put {field : String × α} (h : field ∈ put name value fields) :
    field = (name, value) ∨ field ∈ fields := by
  induction fields with
  | nil => exact Or.inl (List.mem_singleton.mp h)
  | cons first rest ih =>
      rw [put] at h
      split at h
      · exact (List.mem_cons.mp h).imp_right (List.mem_cons_of_mem first)
      · split at h
        · exact List.mem_cons.mp h
        · rcases List.mem_cons.mp h with rfl | h
          · exact Or.inr List.mem_cons_self
          · exact (ih h).imp_right (List.mem_cons_of_mem first)

/-- Of two values set under a name, the later one stays. -/
theorem put_put (name : String) (value value' : α) (fields : Fields α) :
    put name value (put name value' fields) = put name value fields := by
  induction fields with
  | nil => simp [put]
  | cons first rest ih =>
      by_cases heq : name = first.1
      · simp [put, heq]
      · by_cases hlt : name < first.1
        · simp [put, heq, hlt]
        · simp [put, heq, hlt, ih]

/-- Setting a value keeps the order. -/
theorem IsSorted.put (h : IsSorted fields) (name : String) (value : α) : IsSorted (put name value fields) := by
  induction fields with
  | nil => exact List.pairwise_singleton _ _
  | cons first rest ih =>
      obtain ⟨hfirst, hrest⟩ := List.pairwise_cons.mp h
      rw [Fields.put]
      split
      · next heq => exact List.pairwise_cons.mpr ⟨heq ▸ hfirst, hrest⟩
      · next hne =>
          split
          · next hlt =>
              refine List.pairwise_cons.mpr ⟨fun field hfield => ?_, h⟩
              rcases List.mem_cons.mp hfield with rfl | hfield
              · exact hlt
              · exact lt_trans hlt (hfirst field hfield)
          · next hge =>
              refine List.pairwise_cons.mpr ⟨fun field hfield => ?_, ih hrest⟩
              rcases mem_put hfield with rfl | hfield
              · exact lt_of_le_of_ne (not_lt.mp hge) (Ne.symm hne)
              · exact hfirst field hfield

theorem mem_extend {field : String × α} {more : List (String × α)} (h : field ∈ extend fields more) :
    field ∈ more ∨ field ∈ fields := by
  induction more generalizing fields with
  | nil => exact Or.inr h
  | cons first more ih =>
      rcases ih h with h | h
      · exact Or.inl (List.mem_cons_of_mem first h)
      · rcases mem_put h with rfl | h
        · exact Or.inl List.mem_cons_self
        · exact Or.inr h

/-- Fields made of named values are some of these. -/
theorem mem_ofList {field : String × α} {pairs : List (String × α)} (h : field ∈ ofList pairs) : field ∈ pairs :=
  (mem_extend h).resolve_right List.not_mem_nil

theorem IsSorted.extend (h : IsSorted fields) (more : List (String × α)) : IsSorted (extend fields more) := by
  induction more generalizing fields with
  | nil => exact h
  | cons field more ih => exact ih (h.put field.1 field.2)

/-- Fields made of named values are sorted. -/
theorem isSorted_ofList (pairs : List (String × α)) : IsSorted (ofList pairs) :=
  IsSorted.extend List.Pairwise.nil pairs

/-- Fields that others are put over give what these have, and what they had besides. -/
theorem get?_extend (h : (more.map Prod.fst).Nodup) (name : String) :
    get? (extend fields more) name = (get? more name).or (get? fields name) := by
  induction more generalizing fields with
  | nil => rfl
  | cons field more ih =>
      obtain ⟨hnew, hmore⟩ := List.nodup_cons.mp h
      have hextend : extend fields (field :: more) = extend (put field.1 field.2 fields) more := rfl
      rw [hextend, ih hmore, get?_put, get?_cons]
      by_cases hname : field.1 = name
      · rw [get?_eq_none (hname ▸ hnew), if_pos hname, if_pos hname]
        rfl
      · rw [if_neg hname, if_neg hname]

theorem get?_ofList (h : (more.map Prod.fst).Nodup) (name : String) : get? (ofList more) name = get? more name := by
  rw [ofList, get?_extend h, get?_nil, Option.or_none]

/-- Sorted fields stay as they are. -/
theorem ofList_eq_self (h : IsSorted fields) : ofList fields = fields :=
  (isSorted_ofList fields).ext h (get?_ofList h.nodup)

end Fields

end ResourceTree
