import Mathlib.Data.List.Basic
import Mathlib.Data.List.Pairwise

/-!
# Tables under unique and exclusion constraints

What a table's primary key, unique and exclusion constraints forbid together is a relation: two
rows that stand in it may not be there at once.  The table carries the proof that no two of its
rows do, and a row that would conflict with one of them is refused.

* `Constrained R` — the table; `Constrained.insert`, `Constrained.delete`, `Constrained.replace`.
* `mem_of_insert`, `mem_delete`, `mem_of_replace` — the rows after a statement.
* `insert_isSome`, `replace_isSome` — when a row is accepted.
* `filter_of_insert`, `filter_delete`, `filter_of_replace` — rows that a statement leaves alone.
* `eq_of_conflict`, `find_eq_of_mem` — conflicting rows are one row.
-/

universe u

/-- A table no two rows of which conflict. -/
structure Constrained {α : Type u} (R : α → α → Prop) where
  rows : List α
  apart : rows.Pairwise fun x y => ¬R x y

namespace Constrained

open List

variable {α : Type u} {R : α → α → Prop}

/-- The table without rows. -/
def empty : Constrained R := ⟨[], List.Pairwise.nil⟩

variable {t t' : Constrained R} {x y : α} {p : α → Bool}

/-- Two rows that conflict are one. -/
theorem eq_of_conflict (hsymm : ∀ x y, R x y → R y x) (t : Constrained R) (hx : x ∈ t.rows)
    (hy : y ∈ t.rows) (h : R x y) : x = y := by
  by_contra hne
  have : Std.Symm fun x y => ¬R x y := ⟨fun x y hxy hyx => hxy (hsymm y x hyx)⟩
  exact t.apart.forall hx hy hne h

/-- The row a condition selects that no two rows meet. -/
theorem find_eq_of_mem (hsymm : ∀ x y, R x y → R y x) (t : Constrained R) (hx : x ∈ t.rows)
    (hp : p x) (hone : ∀ y, p y → R y x) : t.rows.find? p = some x := by
  cases hfind : t.rows.find? p with
  | none => exact absurd hp (find?_eq_none.1 hfind x hx)
  | some y =>
    have hy : p y := find?_some hfind
    exact congrArg some (t.eq_of_conflict hsymm (mem_of_find?_eq_some hfind) hx (hone y hy))

/-- `DELETE … WHERE p`. -/
def delete (t : Constrained R) (p : α → Bool) : Constrained R :=
  ⟨t.rows.filter fun x => !p x, t.apart.filter _⟩

@[simp] theorem mem_delete : y ∈ (t.delete p).rows ↔ y ∈ t.rows ∧ ¬p y := by
  simp [delete]

/-- Rows that a `DELETE` does not select. -/
theorem filter_delete {q : α → Bool} (h : ∀ x ∈ t.rows, q x → ¬p x) :
    (t.delete p).rows.filter q = t.rows.filter q := by
  rw [delete, filter_filter]
  refine filter_congr ?_
  intro x hx
  cases hq : q x with
  | false => rfl
  | true => simp [h x hx hq]

section Insert

variable [DecidableRel R] {p q : α → Bool}

/-- `INSERT`, refused where the row conflicts with one that is there. -/
def insert (t : Constrained R) (x : α) : Option (Constrained R) :=
  if h : ∀ y ∈ t.rows, ¬R y x then
    some
      { rows := t.rows ++ [x]
        apart := pairwise_append.2 ⟨t.apart, pairwise_singleton _ _, fun y hy z hz => by
          rw [mem_singleton.1 hz]
          exact h y hy⟩ }
  else none

/-- `UPDATE … WHERE p` of one row: the new version of the row comes in the place of the old. -/
def replace (t : Constrained R) (p : α → Bool) (x : α) : Option (Constrained R) :=
  (t.delete p).insert x

theorem insert_isSome : (t.insert x).isSome ↔ ∀ y ∈ t.rows, ¬R y x := by
  unfold insert
  split
  · rename_i h
    exact iff_of_true rfl h
  · rename_i h
    exact iff_of_false Bool.false_ne_true h

theorem replace_isSome : (t.replace p x).isSome ↔ ∀ y ∈ t.rows, ¬p y → ¬R y x := by
  rw [replace, insert_isSome]
  simp only [mem_delete, and_imp]

theorem rows_of_insert (h : t.insert x = some t') : t'.rows = t.rows ++ [x] := by
  unfold insert at h
  split at h
  · cases h
    rfl
  · cases h

theorem mem_of_insert (h : t.insert x = some t') : y ∈ t'.rows ↔ y ∈ t.rows ∨ y = x := by
  rw [rows_of_insert h, mem_append, mem_singleton]

theorem mem_of_replace (h : t.replace p x = some t') : y ∈ t'.rows ↔ y ∈ t.rows ∧ ¬p y ∨ y = x := by
  rw [mem_of_insert h, mem_delete]

/-- Rows that the new one is not among. -/
theorem filter_of_insert (h : t.insert x = some t') (hx : ¬q x) :
    t'.rows.filter q = t.rows.filter q := by
  rw [rows_of_insert h, filter_append, filter_singleton, Bool.eq_false_iff.2 hx]
  exact append_nil _

/-- Rows that the old one is not among, nor the new one. -/
theorem filter_of_replace (h : t.replace p x = some t') (hold : ∀ y ∈ t.rows, q y → ¬p y)
    (hx : ¬q x) : t'.rows.filter q = t.rows.filter q := by
  rw [filter_of_insert h hx, filter_delete hold]

end Insert

end Constrained
