import ResourceTree.Proofs.Stages
import Mathlib

/-! # Stores and the writes that led to them

A store to which only writes are applied keeps every entry once and under its own ID (`Store.KeyedBy`), so that looking
up an ID, listing the resources and counting them agree. What it holds under an ID is what the newest write on the ID
has left there (`Store.History.newest_or_never`), by induction on the length of its history. -/

namespace ResourceTree

variable {R : Type}

namespace Store

/-! ## Rows -/

theorem mem_insertRow {id : String} {r : R} {row : String × R} {rows : List (String × R)}
    (h : row ∈ insertRow id r rows) : row = (id, r) ∨ row ∈ rows := by
  induction rows with
  | nil => exact Or.inl (List.mem_singleton.mp h)
  | cons first rows ih =>
      rw [insertRow] at h
      split at h
      · rcases List.mem_cons.mp h with h | h
        · exact Or.inl h
        · exact Or.inr (List.mem_cons_of_mem first h)
      · rcases List.mem_cons.mp h with h | h
        · exact Or.inr (h ▸ List.mem_cons_self)
        · exact (ih h).imp_right (List.mem_cons_of_mem first)

variable {kind : Kind R} {s : Store R} {id : String} {r : R}

/-- What an ID gives stands in a row of the store. -/
theorem mem_rows_of_get? (h : s.get? id = some r) : (id, r) ∈ s.rows := by
  obtain ⟨row, hfind, rfl⟩ := Option.map_eq_some_iff.mp h
  have hid : row.1 = id := by simpa using List.find?_some hfind
  exact hid ▸ List.mem_of_find?_eq_some hfind

/-- Setting a resource adds its ID behind the others, unless it is one of them. -/
theorem ids_insert (s : Store R) (id : String) (r : R) :
    (s.insert id r).ids = if id ∈ s.ids then s.ids else s.ids ++ [id] := by
  obtain ⟨rows⟩ := s
  induction rows with
  | nil => rfl
  | cons row rows ih =>
      simp only [ids, insert, List.map_cons] at ih ⊢
      rw [insertRow]
      by_cases h : row.1 = id
      · simp [h]
      · rw [if_neg h, List.map_cons, ih]
        by_cases hmem : id ∈ rows.map Prod.fst
        · simp [hmem]
        · simp [hmem, Ne.symm h]

/-- With every ID once, a row of a store is what its ID gives. -/
theorem get?_of_mem (hnodup : s.ids.Nodup) (h : (id, r) ∈ s.rows) : s.get? id = some r := by
  obtain ⟨rows⟩ := s
  induction rows with
  | nil => cases h
  | cons row rows ih =>
      simp only [ids, List.map_cons, List.nodup_cons] at hnodup
      rw [get?_cons]
      rcases List.mem_cons.mp h with rfl | h
      · exact if_pos rfl
      · have hne : row.1 ≠ id := fun heq => hnodup.1 (List.mem_map.mpr ⟨(id, r), h, heq.symm⟩)
        rw [if_neg hne]
        exact ih hnodup.2 h

/-! ## Keyed stores -/

/-- **A store that keeps every entry once**, under the ID of its resource. -/
structure KeyedBy (kind : Kind R) (s : Store R) : Prop where
  nodup : s.ids.Nodup
  keyed : ∀ row ∈ s.rows, kind.id row.2 = row.1

namespace KeyedBy

theorem empty (kind : Kind R) : (Store.empty : Store R).KeyedBy kind :=
  ⟨List.nodup_nil, fun _ h => (List.not_mem_nil h).elim⟩

/-- Setting a resource keeps a store so. -/
theorem insert (h : s.KeyedBy kind) (r : R) : (s.insert (kind.id r) r).KeyedBy kind where
  nodup := by
    rw [ids_insert]
    split
    · exact h.nodup
    · next hnew =>
        refine List.nodup_append.mpr ⟨h.nodup, List.nodup_singleton _, fun id hid id' hid' => ?_⟩
        rintro rfl
        exact hnew (List.mem_singleton.mp hid' ▸ hid)
  keyed row hrow := by
    rcases mem_insertRow hrow with rfl | hrow
    · rfl
    · exact h.keyed row hrow

/-- And so does deleting an ID. -/
theorem erase (h : s.KeyedBy kind) (id : String) : (s.erase id).KeyedBy kind where
  nodup := h.nodup.sublist (List.filter_sublist.map Prod.fst)
  keyed row hrow := h.keyed row (List.mem_filter.mp hrow).1

/-- The resources are listed under the IDs of the store. -/
theorem map_id (h : s.KeyedBy kind) : s.toList.map kind.id = s.ids := by
  rw [toList, ids, List.map_map]
  exact List.map_congr_left fun row hrow => h.keyed row hrow

/-- No resource is listed twice. -/
theorem nodup_toList (h : s.KeyedBy kind) : s.toList.Nodup :=
  List.Nodup.of_map kind.id (by rw [h.map_id]; exact h.nodup)

/-- **An ID gives the stored resource that bears it.** -/
theorem get?_eq_some_iff (h : s.KeyedBy kind) : s.get? id = some r ↔ r ∈ s.toList ∧ kind.id r = id := by
  constructor
  · intro hget
    have hrow := mem_rows_of_get? hget
    exact ⟨List.mem_map_of_mem hrow, h.keyed _ hrow⟩
  · rintro ⟨hmem, rfl⟩
    obtain ⟨row, hrow, rfl⟩ := List.mem_map.mp hmem
    refine get?_of_mem h.nodup ?_
    rw [h.keyed row hrow]
    exact hrow

/-- The stored IDs are those that give a resource. -/
theorem mem_ids_iff (h : s.KeyedBy kind) : id ∈ s.ids ↔ ∃ r, s.get? id = some r := by
  rw [← h.map_id, List.mem_map]
  exact exists_congr fun r => h.get?_eq_some_iff.symm

/-- Selecting gives the resources with the property, whatever their IDs are. -/
theorem mem_select_iff (h : s.KeyedBy kind) {p : R → Bool} :
    r ∈ s.select p ↔ p r = true ∧ ∃ id, s.get? id = some r := by
  rw [select, List.mem_filter, and_comm]
  refine and_congr_right fun _ => ⟨fun hmem => ⟨kind.id r, h.get?_eq_some_iff.mpr ⟨hmem, rfl⟩⟩, ?_⟩
  rintro ⟨id, hget⟩
  exact (h.get?_eq_some_iff.mp hget).1

/-- The size of a store is the number of its IDs. -/
theorem card_ids (h : s.KeyedBy kind) : s.ids.toFinset.card = s.size := by
  rw [List.toFinset_card_of_nodup h.nodup, ids, List.length_map, size]

end KeyedBy

end Store

/-! ## Writes -/

namespace Write

/-- The resource that a write leaves under its ID. -/
def resource? : Write R → Option R
  | .set r => some r
  | .delete _ => none

/-- **A write changes what its ID gives** and nothing else. -/
theorem get?_apply (kind : Kind R) (s : Store R) (wr : Write R) (id : String) :
    (wr.apply kind s).get? id = if wr.id kind = id then wr.resource? else s.get? id := by
  cases wr with
  | set r => exact Store.get?_insert s _ id r
  | delete other => exact Store.get?_erase s other id

/-- Every write keeps the entries once, and under their own IDs. -/
theorem keyedBy_apply {kind : Kind R} {s : Store R} (h : s.KeyedBy kind) (wr : Write R) :
    (wr.apply kind s).KeyedBy kind := by
  cases wr with
  | set r => exact h.insert r
  | delete id => exact h.erase id

end Write

/-! ## Histories -/

/-- **The newest write on an ID** before the time `n`, where `done` says which writes are done at which time. -/
structure Newest (kind : Kind R) (done : Nat → Write R → Prop) (id : String) (n k : Nat) (wr : Write R) : Prop where
  before : k < n
  happens : done k wr
  on : wr.id kind = id
  last : ∀ m wr', k < m → m < n → done m wr' → wr'.id kind ≠ id

/-- **The history of a store**: nothing is stored at first, and at every time one write is done on the store or none. -/
structure Store.History (kind : Kind R) (done : Nat → Write R → Prop) (state : Nat → Store R) : Prop where
  empty : state 0 = .empty
  unique : ∀ k wr wr', done k wr → done k wr' → wr = wr'
  step : ∀ k, (∃ wr, done k wr ∧ state (k + 1) = wr.apply kind (state k))
    ∨ (∀ wr, ¬done k wr) ∧ state (k + 1) = state k

section

variable {kind : Kind R} {done : Nat → Write R → Prop} {state : Nat → Store R} {id : String} {n k : Nat} {wr : Write R}

/-- What is done at the last time is the newest. -/
theorem Newest.of_done (h : done n wr) (hon : wr.id kind = id) : Newest kind done id (n + 1) n wr :=
  ⟨Nat.lt_succ_self n, h, hon, fun m _ hnm hm => by omega⟩

/-- At a time at which no write is done on an ID the newest write on it stays so, or there is none still. -/
theorem Newest.or_never_succ {stored : Option R} (hother : ∀ wr, done n wr → wr.id kind ≠ id)
    (h : (∃ k wr, Newest kind done id n k wr ∧ stored = wr.resource?)
      ∨ (∀ k wr, k < n → done k wr → wr.id kind ≠ id) ∧ stored = none) :
    (∃ k wr, Newest kind done id (n + 1) k wr ∧ stored = wr.resource?)
      ∨ (∀ k wr, k < n + 1 → done k wr → wr.id kind ≠ id) ∧ stored = none := by
  rcases h with ⟨k, wr, hnewest, hstored⟩ | ⟨hnever, hstored⟩
  · have hbefore : k < n + 1 := Nat.lt_succ_of_lt hnewest.before
    refine Or.inl ⟨k, wr, ⟨hbefore, hnewest.happens, hnewest.on, fun m wr' hkm hm => ?_⟩, hstored⟩
    rcases Nat.lt_succ_iff_lt_or_eq.mp hm with hm | rfl
    · exact hnewest.last m wr' hkm hm
    · exact hother wr'
  · refine Or.inr ⟨fun k wr hk => ?_, hstored⟩
    rcases Nat.lt_succ_iff_lt_or_eq.mp hk with hk | rfl
    · exact hnever k wr hk
    · exact hother wr

namespace Store.History

/-- A store with a history keeps every entry once, under its own ID. -/
theorem keyedBy (h : History kind done state) (n : Nat) : (state n).KeyedBy kind := by
  induction n with
  | zero =>
      rw [h.empty]
      exact .empty kind
  | succ n ih =>
      rcases h.step n with ⟨wr, -, hstate⟩ | ⟨-, hstate⟩
      · rw [hstate]
        exact wr.keyedBy_apply ih
      · rw [hstate]
        exact ih

/-- **A store holds what the newest write has left**, by induction on the length of its history. -/
theorem newest_or_never (h : History kind done state) (id : String) (n : Nat) :
    (∃ k wr, Newest kind done id n k wr ∧ (state n).get? id = wr.resource?)
      ∨ (∀ k wr, k < n → done k wr → wr.id kind ≠ id) ∧ (state n).get? id = none := by
  induction n with
  | zero =>
      refine Or.inr ⟨fun k wr hk => absurd hk (Nat.not_lt_zero k), ?_⟩
      rw [h.empty]
      rfl
  | succ n ih =>
      rcases h.step n with ⟨wr, hdone, hstate⟩ | ⟨hnone, hstate⟩
      · rw [hstate, Write.get?_apply]
        by_cases hon : wr.id kind = id
        · rw [if_pos hon]
          exact Or.inl ⟨n, wr, .of_done hdone hon, rfl⟩
        · rw [if_neg hon]
          exact Newest.or_never_succ (fun wr' hdone' => h.unique n wr wr' hdone hdone' ▸ hon) ih
      · rw [hstate]
        exact Newest.or_never_succ (fun wr hdone => absurd hdone (hnone wr)) ih

/-- There is one newest write on an ID at most. -/
theorem newest_unique (h : History kind done state) {k' : Nat} {wr' : Write R} (hnewest : Newest kind done id n k wr)
    (hnewest' : Newest kind done id n k' wr') : wr = wr' := by
  rcases Nat.lt_trichotomy k k' with hlt | rfl | hgt
  · exact absurd hnewest'.on (hnewest.last k' wr' hlt hnewest'.before hnewest'.happens)
  · exact h.unique k wr wr' hnewest.happens hnewest'.happens
  · exact absurd hnewest.on (hnewest'.last k wr hgt hnewest.before hnewest.happens)

/-- The newest write on an ID says what is stored there. -/
theorem get?_of_newest (h : History kind done state) (hnewest : Newest kind done id n k wr) :
    (state n).get? id = wr.resource? := by
  rcases h.newest_or_never id n with ⟨k', wr', hnewest', hstored⟩ | ⟨hnever, -⟩
  · rw [hstored, h.newest_unique hnewest' hnewest]
  · exact absurd hnewest.on (hnever k wr hnewest.before hnewest.happens)

/-- Nothing is stored under an ID unless the newest write on it has set a resource. -/
theorem get?_eq_none (h : History kind done state) (hnone : ∀ k r, ¬Newest kind done id n k (.set r)) :
    (state n).get? id = none := by
  rcases h.newest_or_never id n with ⟨k, wr, hnewest, hstored⟩ | ⟨-, hstored⟩
  · cases wr with
    | set r => exact absurd hnewest (hnone k r)
    | delete other => exact hstored
  · exact hstored

end Store.History

end

end ResourceTree
