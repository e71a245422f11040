import BeauClick.Lib.ReadCommitted

/-!
# Tables whose rows transactions delete

A row that has been deleted is kept without its content, so that a deletion that is not committed
yet makes others wait as any other version does.

* `Removable` — the table; `find` is what a transaction reads, `there` what is committed.
* `insertOrIgnore` — `INSERT … ON CONFLICT DO NOTHING`; `remove` — `DELETE` of one row.
* `rows` — what a transaction reads of all rows.
-/

set_option linter.unusedSectionVars false

namespace ReadCommitted

open Versioned Option

universe u v w

/-- A table by key; nothing stands under a key where a row has been deleted. -/
abbrev Removable (ι : Type u) (κ : Type v) (α : Type w) := Versioned ι κ (Option α)

namespace Removable

variable {ι : Type u} {κ : Type v} {α : Type w}

/-- The committed row, unless it is a deleted one. -/
def there (t : Removable ι κ α) (k : κ) : Option α := (t.committed k).join

section Decidable

variable [DecidableEq ι] [DecidableEq κ]

/-- What the transaction reads of a row. -/
def find (t : Removable ι κ α) (p : ι) (k : κ) : Option α := (t.get p k).join

/-- The rows that the transaction reads, with their keys. -/
def rows (t : Removable ι κ α) (p : ι) : List (κ × α) :=
  t.keys.filterMap fun k => (t.find p k).map fun x => (k, x)

/-- What a statement on a row comes to. -/
inductive Change (ι : Type u) (κ : Type v) (α : Type w) where
  /-- Another transaction has the row. -/
  | waits
  /-- The row is there already, or is not there. -/
  | ignored
  | done (table : Removable ι κ α)

/-- `INSERT … ON CONFLICT DO NOTHING`. -/
def insertOrIgnore (t : Removable ι κ α) (p : ι) (k : κ) (x : α) : Change ι κ α :=
  if (t.row k).Locked p then .waits
  else if (t.find p k).isSome then .ignored
  else .done (t.write p k (some x))

/-- `DELETE … WHERE id = k`. -/
def remove (t : Removable ι κ α) (p : ι) (k : κ) : Change ι κ α :=
  if (t.find p k).isSome then
    if (t.row k).Locked p then .waits else .done (t.write p k none)
  else .ignored

variable {t t' : Removable ι κ α} {p q : ι} {k k' : κ} {x : α}

@[simp] theorem there_empty : there (Versioned.empty : Removable ι κ α) k = none := rfl

theorem get_of_find (h : t.find p k = some x) : t.get p k = some (some x) :=
  join_eq_some_iff.1 h

theorem committed_of_there (h : t.there k = some x) : t.committed k = some (some x) :=
  join_eq_some_iff.1 h

theorem mem_rows {kx : κ × α} : kx ∈ t.rows p ↔ t.find p kx.1 = some kx.2 := by
  obtain ⟨k, _⟩ := kx
  constructor
  · intro h
    obtain ⟨_, -, hk'⟩ := List.mem_filterMap.1 h
    obtain ⟨_, hy, heq⟩ := map_eq_some_iff.1 hk'
    cases heq
    exact hy
  · intro h
    refine List.mem_filterMap.2 ⟨k, mem_keys (version_of_get (get_of_find h)), ?_⟩
    rw [h]
    rfl

theorem map_fst_rows : (t.rows p).map Prod.fst = t.keys.filter fun k => (t.find p k).isSome := by
  unfold rows
  induction t.keys with
  | nil => rfl
  | cons k ks ih =>
    rw [List.filterMap_cons, List.filter_cons]
    cases t.find p k with
    | none => exact ih
    | some => exact congrArg (k :: ·) ih

/-- No row is read twice. -/
theorem nodup_rows (t : Removable ι κ α) (p : ι) : ((t.rows p).map Prod.fst).Nodup := by
  rw [map_fst_rows]
  exact t.nodup.filter _

theorem find_of_untouched (h : t.Untouched p) : t.find p k = t.there k :=
  congrArg Option.join h.get_eq

/-- A commit leaves what its transaction reads. -/
theorem there_commit : there (t.commit p) k = t.find p k :=
  congrArg Option.join committed_commit

theorem there_rollback : there (t.rollback p) k = t.there k :=
  congrArg Option.join (congrFun committed_rollback k)

theorem there_write {o : Option α} : there (t.write p k o) k' = t.there k' :=
  congrArg Option.join (congrFun committed_write k')

theorem insertOrIgnore_done (h : t.insertOrIgnore p k x = .done t') :
    t' = t.write p k (some x) ∧ ¬(t.row k).Locked p ∧ t.find p k = none := by
  unfold insertOrIgnore at h
  split_ifs at h with hlock hfind
  cases h
  exact ⟨rfl, hlock, not_isSome_iff_eq_none.1 hfind⟩

theorem remove_done (h : t.remove p k = .done t') :
    t' = t.write p k none ∧ ¬(t.row k).Locked p := by
  unfold remove at h
  split_ifs at h with hfind hlock
  cases h
  exact ⟨rfl, hlock⟩

theorem find_of_remove_done (h : t.remove p k = .done t') : ∃ x, t.find p k = some x := by
  unfold remove at h
  split_ifs at h with hfind
  exact isSome_iff_exists.1 hfind

end Decidable

end Removable

end ReadCommitted
