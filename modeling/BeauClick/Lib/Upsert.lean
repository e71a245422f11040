import Mathlib.Data.List.Sort

/-!
# Upserts

`INSERT … ON CONFLICT (key) DO UPDATE` on a table with a unique key: a row takes the place of the
row of its key, or is added.

* `rowAt` — the row of a key.
* `upsert`, `upsertAll` — one row is written, several are, one after the other.
* `rowAt_upsertAll_of_mem`, `rowAt_upsertAll_of_notMem` — what is there afterwards.
* `upsertAll_of_mem` — writing rows that are there changes nothing.
-/

namespace Upsert

open List

universe u v

variable {ρ : Type u} {κ : Type v} [DecidableEq κ]

/-- The row of a key. -/
def rowAt (key : ρ → κ) (table : List ρ) (k : κ) : Option ρ := table.find? fun r => key r = k

/-- `INSERT … ON CONFLICT (key) DO UPDATE`. -/
def upsert (key : ρ → κ) : List ρ → ρ → List ρ
  | [], row => [row]
  | r :: table, row => if key r = key row then row :: table else r :: upsert key table row

/-- Several rows, one after the other. -/
def upsertAll (key : ρ → κ) (table rows : List ρ) : List ρ := rows.foldl (upsert key) table

variable {key : ρ → κ} {table rows : List ρ} {row r : ρ} {k : κ}

theorem rowAt_cons :
    rowAt key (r :: table) k = if key r = k then some r else rowAt key table k := by
  rw [rowAt, find?_cons]
  by_cases h : key r = k
  · rw [decide_eq_true h, if_pos h]
  · rw [decide_eq_false h, if_neg h, rowAt]

theorem key_of_rowAt (h : rowAt key table k = some r) : key r = k := by
  simpa using find?_some h

theorem mem_of_rowAt (h : rowAt key table k = some r) : r ∈ table := mem_of_find?_eq_some h

theorem rowAt_upsert :
    rowAt key (upsert key table row) k = if key row = k then some row else rowAt key table k := by
  induction table with
  | nil => exact rowAt_cons
  | cons r table ih =>
    rw [upsert]
    by_cases hr : key r = key row
    · rw [if_pos hr, rowAt_cons, rowAt_cons, hr]
      by_cases hk : key row = k
      · rw [if_pos hk, if_pos hk]
      · rw [if_neg hk, if_neg hk, if_neg hk]
    · rw [if_neg hr, rowAt_cons, ih, rowAt_cons]
      by_cases hk : key row = k
      · rw [if_pos hk, if_neg fun h => hr (h.trans hk.symm), if_pos hk]
      · rw [if_neg hk, if_neg hk]

theorem mem_upsert (h : r ∈ upsert key table row) : r = row ∨ r ∈ table := by
  induction table with
  | nil => exact Or.inl (mem_singleton.1 h)
  | cons x table ih =>
    rw [upsert] at h
    split at h
    · exact (mem_cons.1 h).imp_right (mem_cons_of_mem x)
    · rcases mem_cons.1 h with rfl | h
      · exact Or.inr mem_cons_self
      · exact (ih h).imp_right (mem_cons_of_mem x)

theorem nodup_upsert (h : (table.map key).Nodup) : ((upsert key table row).map key).Nodup := by
  induction table with
  | nil => exact nodup_singleton _
  | cons r table ih =>
    obtain ⟨hnot, hrest⟩ := nodup_cons.1 h
    rw [upsert]
    by_cases hr : key r = key row
    · rw [if_pos hr, map_cons, ← hr]
      exact h
    · rw [if_neg hr]
      refine nodup_cons.2 ⟨?_, ih hrest⟩
      intro hmem
      obtain ⟨_, hx, hkey⟩ := mem_map.1 hmem
      rcases mem_upsert hx with rfl | hx
      · exact hr hkey.symm
      · exact hnot (hkey ▸ mem_map_of_mem hx)

/-- With unique keys the row of a key is the one that is in the table. -/
theorem rowAt_eq_some_iff (hnodup : (table.map key).Nodup) :
    rowAt key table k = some r ↔ r ∈ table ∧ key r = k := by
  refine ⟨fun h => ⟨mem_of_rowAt h, key_of_rowAt h⟩, ?_⟩
  rintro ⟨hmem, rfl⟩
  induction table with
  | nil => cases hmem
  | cons x table ih =>
    obtain ⟨hnot, hrest⟩ := nodup_cons.1 hnodup
    rw [rowAt_cons]
    rcases mem_cons.1 hmem with rfl | hmem
    · rw [if_pos rfl]
    · have hne : key x ≠ key r := by
        intro h
        rw [h] at hnot
        exact hnot (mem_map_of_mem hmem)
      rw [if_neg hne, ih hrest hmem]

theorem upsertAll_append (rows' : List ρ) :
    upsertAll key table (rows ++ rows') = upsertAll key (upsertAll key table rows) rows' := by
  rw [upsertAll, foldl_append, upsertAll, upsertAll]

theorem nodup_upsertAll (h : (table.map key).Nodup) :
    ((upsertAll key table rows).map key).Nodup := by
  induction rows generalizing table with
  | nil => exact h
  | cons row rows ih => exact ih (nodup_upsert h)

theorem mem_upsertAll (h : r ∈ upsertAll key table rows) : r ∈ rows ∨ r ∈ table := by
  induction rows generalizing table with
  | nil => exact Or.inr h
  | cons row rows ih =>
    rcases ih h with h | h
    · exact Or.inl (mem_cons_of_mem row h)
    · rcases mem_upsert h with rfl | h
      · exact Or.inl mem_cons_self
      · exact Or.inr h

/-- Rows of other keys leave a key as it is. -/
theorem rowAt_upsertAll_of_notMem (h : ∀ row ∈ rows, key row ≠ k) :
    rowAt key (upsertAll key table rows) k = rowAt key table k := by
  induction rows generalizing table with
  | nil => rfl
  | cons row rows ih =>
    refine (ih fun x hx => h x (mem_cons_of_mem row hx)).trans ?_
    rw [rowAt_upsert, if_neg (h row mem_cons_self)]

/-- The only row of its key is what is there afterwards. -/
theorem rowAt_upsertAll_of_mem (hmem : row ∈ rows) (hone : ∀ r ∈ rows, key r = key row → r = row) :
    rowAt key (upsertAll key table rows) (key row) = some row := by
  induction rows generalizing table with
  | nil => cases hmem
  | cons x rows ih =>
    have hrest : ∀ r ∈ rows, key r = key row → r = row := fun r hr =>
      hone r (mem_cons_of_mem x hr)
    by_cases hlater : row ∈ rows
    · exact ih hlater hrest
    · obtain rfl : x = row := ((mem_cons.1 hmem).resolve_right hlater).symm
      have hnone : ∀ r ∈ rows, key r ≠ key x := fun r hr heq => hlater (hrest r hr heq ▸ hr)
      refine (rowAt_upsertAll_of_notMem hnone).trans ?_
      rw [rowAt_upsert, if_pos rfl]

theorem upsert_of_rowAt (h : rowAt key table (key row) = some row) :
    upsert key table row = table := by
  induction table with
  | nil => cases h
  | cons r table ih =>
    rw [rowAt_cons] at h
    rw [upsert]
    by_cases hr : key r = key row
    · rw [if_pos hr] at h
      rw [if_pos hr, Option.some.inj h]
    · rw [if_neg hr] at h
      rw [if_neg hr, ih h]

/-- Writing rows that are there already changes nothing. -/
theorem upsertAll_of_rowAt (h : ∀ row ∈ rows, rowAt key table (key row) = some row) :
    upsertAll key table rows = table := by
  induction rows with
  | nil => rfl
  | cons row rows ih =>
    refine Eq.trans ?_ (ih fun x hx => h x (mem_cons_of_mem row hx))
    rw [upsertAll, foldl_cons, upsert_of_rowAt (h row mem_cons_self), upsertAll]

/-! ## Order -/

section Ordered

variable {ι : Type*} [LinearOrder ι] {xs ys : List ρ} {rank : ρ → ι}

/-- `ORDER BY`. -/
def orderBy (rank : ρ → ι) (xs : List ρ) : List ρ := xs.insertionSort fun x y => rank x ≤ rank y

theorem mem_orderBy : r ∈ orderBy rank xs ↔ r ∈ xs := mem_insertionSort _

/-- Rows of different ranks come in increasing order. -/
theorem orderBy_increasing (hnodup : (xs.map rank).Nodup) :
    (orderBy rank xs).Pairwise fun x y => rank x < rank y := by
  have hle : (orderBy rank xs).Pairwise fun x y => rank x ≤ rank y :=
    pairwise_insertionSort (fun x y => rank x ≤ rank y) xs
  have hne : (orderBy rank xs).Pairwise fun x y => rank x ≠ rank y :=
    pairwise_map.1 (((perm_insertionSort _ xs).map rank).nodup_iff.2 hnodup)
  exact (hle.and hne).imp fun h => lt_of_le_of_ne h.1 h.2

/-- Two series in increasing order with the same entries are equal. -/
theorem eq_of_increasing (hx : xs.Pairwise fun x y => rank x < rank y)
    (hy : ys.Pairwise fun x y => rank x < rank y) (hmem : ∀ r, r ∈ xs ↔ r ∈ ys) : xs = ys := by
  exact hx.eq_of_mem_iff hy hmem

end Ordered

end Upsert
