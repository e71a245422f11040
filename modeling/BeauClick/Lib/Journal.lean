import Mathlib.Data.List.Basic

/-!
# A table that transactions only append to

An outbox, a log: rows under ids of their own, so that no two inserts are in each other's way.

* `Journal` — what is committed, in the order of the commits, and what each transaction has
  appended.
* `Journal.append`, `Journal.commit`, `Journal.rollback`.
* `committed_commit` — a commit appends what its transaction has written.
-/

namespace ReadCommitted

open Function (update update_self update_of_ne)

universe u v

/-- The committed rows, and those of the transactions at work. -/
structure Journal (ι : Type u) (α : Type v) where
  committed : List α
  pending : ι → List α

namespace Journal

variable {ι : Type u} {α : Type v}

def empty : Journal ι α := ⟨[], fun _ => []⟩

@[simp] theorem committed_empty : (empty : Journal ι α).committed = [] := rfl

@[simp] theorem pending_empty (p : ι) : (empty : Journal ι α).pending p = [] := rfl

variable [DecidableEq ι]

def append (j : Journal ι α) (p : ι) (x : α) : Journal ι α :=
  { j with pending := update j.pending p (j.pending p ++ [x]) }

/-- The end of a transaction that keeps what it has written. -/
def commit (j : Journal ι α) (p : ι) : Journal ι α where
  committed := j.committed ++ j.pending p
  pending := update j.pending p []

/-- The end of a transaction that drops what it has written. -/
def rollback (j : Journal ι α) (p : ι) : Journal ι α :=
  { j with pending := update j.pending p [] }

variable {j : Journal ι α} {p q : ι} {x : α}

@[simp] theorem committed_append : (j.append p x).committed = j.committed := rfl

@[simp] theorem committed_commit : (j.commit p).committed = j.committed ++ j.pending p := rfl

@[simp] theorem committed_rollback : (j.rollback p).committed = j.committed := rfl

@[simp] theorem pending_append_self : (j.append p x).pending p = j.pending p ++ [x] :=
  update_self ..

@[simp] theorem pending_commit_self : (j.commit p).pending p = [] := update_self ..

@[simp] theorem pending_rollback_self : (j.rollback p).pending p = [] := update_self ..

theorem pending_append_ne (h : q ≠ p) : (j.append p x).pending q = j.pending q :=
  update_of_ne h ..

theorem pending_commit_ne (h : q ≠ p) : (j.commit p).pending q = j.pending q :=
  update_of_ne h ..

theorem pending_rollback_ne (h : q ≠ p) : (j.rollback p).pending q = j.pending q :=
  update_of_ne h ..

theorem rollback_of_nil (h : j.pending p = []) : j.rollback p = j := by
  unfold rollback
  rw [← h, Function.update_eq_self]

/-- What is committed stays. -/
theorem mem_committed_commit (h : x ∈ j.committed) : x ∈ (j.commit p).committed :=
  List.mem_append_left _ h

end Journal

end ReadCommitted
