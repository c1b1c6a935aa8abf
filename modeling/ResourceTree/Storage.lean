import ResourceTree.Resource.Kind
import ResourceTree.Store

/-! # Storages in memory

A storage is a store in memory that is reached through handles. A clone of a handle points to the same place, so what is
stored through one of them is there for all of them. Every call is done in one go: it finds the store as the call before
has left it, and gives a value, or an error, and the memory after it. -/

namespace ResourceTree

/-- A handle of a storage: the place in memory that it points to. -/
structure Handle where
  place : Nat
  deriving DecidableEq, Repr

/-- Another handle of the same storage. -/
def Handle.clone (h : Handle) : Handle := ⟨h.place⟩

/-- A memory with storages. -/
structure Storages (R : Type) where
  /-- How many storages were made. -/
  made : Nat
  /-- What is stored at a place. -/
  stores : Nat → Store R

namespace Storages

variable {R : Type}

/-- The memory without a storage. -/
def empty : Storages R := ⟨0, fun _ => .empty⟩

/-- What is stored in the storage of a handle. -/
def store (s : Storages R) (h : Handle) : Store R := s.stores h.place

/-- The memory with the storage of a handle changed. -/
def put (s : Storages R) (h : Handle) (t : Store R) : Storages R :=
  { s with stores := fun place => if place = h.place then t else s.stores place }

@[simp] theorem store_put (s : Storages R) (h other : Handle) (t : Store R) :
    (s.put h t).store other = if other = h then t else s.store other := by
  obtain ⟨place⟩ := h
  obtain ⟨place'⟩ := other
  simp only [put, store, Handle.mk.injEq]

@[simp] theorem made_put (s : Storages R) (h : Handle) (t : Store R) : (s.put h t).made = s.made := rfl

/-- Makes a storage, which is empty, at a new place. -/
def make (s : Storages R) : Handle × Storages R :=
  (⟨s.made⟩, { s.put ⟨s.made⟩ .empty with made := s.made + 1 })

/-- A new storage is empty, and the others are as they were. -/
theorem store_make (s : Storages R) (h : Handle) :
    s.make.2.store h = if h = s.make.1 then .empty else s.store h := s.store_put ⟨s.made⟩ h .empty

/-! ## Calls -/

/-- The resource under an ID. -/
def get (s : Storages R) (h : Handle) (id : String) : Except StorageError R := (s.store h).get id

/-- Sets a resource under its ID. -/
def set (kind : Kind R) (s : Storages R) (h : Handle) (r : R) : Except StorageError Unit × Storages R :=
  (.ok (), s.put h ((s.store h).insert (kind.id r) r))

/-- Deletes an ID. -/
def delete (s : Storages R) (h : Handle) (id : String) : Except StorageError Unit × Storages R :=
  match (s.store h).delete id with
  | .ok t => (.ok (), s.put h t)
  | .error e => (.error e, s)

/-- The number of stored resources. -/
def size (s : Storages R) (h : Handle) : Nat := (s.store h).size

/-- The stored resources that a predicate selects. -/
def select (s : Storages R) (h : Handle) (p : R → Bool) : List R := (s.store h).select p

end Storages

end ResourceTree
