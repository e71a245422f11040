import Mathlib.Data.List.Nodup

/-!
# Tables under a primary key

A table that is read and written a row at a time: the row of a key, if there is one, and the
keys that have been used, so that the rows can be listed.

* `Keyed.set`, `Keyed.updateRow` — a row is written.
* `Keyed.mapRows` — every row is.
* `Keyed.rows` — the rows; `mem_rows`.
-/

universe u v

/-- A table by key. -/
structure Keyed (κ : Type u) (α : Type v) where
  row : κ → Option α
  keys : List κ
  nodup : keys.Nodup
  complete : ∀ k, k ∉ keys → row k = none

namespace Keyed

open Function

variable {κ : Type u} {α : Type v}

def empty : Keyed κ α := ⟨fun _ => none, [], List.nodup_nil, fun _ _ => rfl⟩

@[simp] theorem row_empty (k : κ) : (empty : Keyed κ α).row k = none := rfl

theorem mem_keys {t : Keyed κ α} {k : κ} {x : α} (h : t.row k = some x) : k ∈ t.keys := by
  by_contra hk
  rw [t.complete k hk] at h
  cases h

section Write

variable [DecidableEq κ]

/-- The row of a key after a write. -/
def set (t : Keyed κ α) (k : κ) (x : α) : Keyed κ α where
  row := update t.row k (some x)
  keys := if k ∈ t.keys then t.keys else k :: t.keys
  nodup := by
    split
    · exact t.nodup
    · rename_i h
      exact List.nodup_cons.2 ⟨h, t.nodup⟩
  complete := by
    intro k' hk'
    have hne : k' ≠ k := by
      rintro rfl
      split at hk'
      · rename_i h
        exact hk' h
      · exact hk' List.mem_cons_self
    rw [update_of_ne hne]
    refine t.complete k' ?_
    intro h
    split at hk'
    · exact hk' h
    · exact hk' (List.mem_cons_of_mem k h)

/-- `UPDATE … SET f WHERE key = k`. -/
def updateRow (t : Keyed κ α) (k : κ) (f : α → α) : Keyed κ α :=
  match t.row k with
  | none => t
  | some x => t.set k (f x)

variable {t : Keyed κ α} {k k' : κ} {x : α} {f : α → α}

@[simp] theorem row_set_self : (t.set k x).row k = some x := update_self ..

theorem row_set_of_ne (h : k' ≠ k) : (t.set k x).row k' = t.row k' := update_of_ne h ..

@[simp] theorem row_updateRow_self : (t.updateRow k f).row k = (t.row k).map f := by
  unfold updateRow
  split
  · rename_i h
    rw [h]
    rfl
  · rename_i x h
    rw [h, row_set_self]
    rfl

theorem row_updateRow_of_ne (h : k' ≠ k) : (t.updateRow k f).row k' = t.row k' := by
  unfold updateRow
  split
  · rfl
  · exact row_set_of_ne h

end Write

/-- `UPDATE … SET f` of every row. -/
def mapRows (t : Keyed κ α) (f : α → α) : Keyed κ α where
  row k := (t.row k).map f
  keys := t.keys
  nodup := t.nodup
  complete := fun k hk => by rw [t.complete k hk, Option.map_none]

@[simp] theorem row_mapRows {t : Keyed κ α} {f : α → α} {k : κ} :
    (t.mapRows f).row k = (t.row k).map f := rfl

/-- The rows, in the order of their keys. -/
def rows (t : Keyed κ α) : List α := t.keys.filterMap t.row

theorem mem_rows {t : Keyed κ α} {x : α} : x ∈ t.rows ↔ ∃ k, t.row k = some x := by
  rw [rows, List.mem_filterMap]
  constructor
  · rintro ⟨k, -, h⟩
    exact ⟨k, h⟩
  · rintro ⟨k, h⟩
    exact ⟨k, mem_keys h, h⟩

end Keyed
