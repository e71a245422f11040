import Mathlib.Data.List.Basic

/-!
# Locks that are held until a transaction ends

Locks by key, shared or exclusive.  A lock is granted when it is compatible with those that
other holders have, so an incompatible pair is never held.

* `LockTable` — the locks that are held.
* `LockTable.Grants` — the lock need not be waited for.
* `mem_acquire`, `mem_release` — what is held after a lock is taken, and after its holder's end.
-/

set_option linter.unusedSectionVars false

namespace Locks

universe u v

/-- The modes of a lock. -/
inductive LockMode where
  | shared
  | exclusive
  deriving DecidableEq

/-- A lock, who holds it and how. -/
structure Lock (ι : Type u) (κ : Type v) where
  key : κ
  holder : ι
  mode : LockMode

/-- Two locks on one key are one holder's, or both shared. -/
def Lock.Compatible {ι : Type u} {κ : Type v} (a b : Lock ι κ) : Prop :=
  a.key = b.key → a.holder ≠ b.holder → a.mode = .shared ∧ b.mode = .shared

instance {ι : Type u} {κ : Type v} [DecidableEq ι] [DecidableEq κ] (a b : Lock ι κ) :
    Decidable (a.Compatible b) := inferInstanceAs (Decidable (_ → _ → _))

theorem Lock.Compatible.symm {ι : Type u} {κ : Type v} {a b : Lock ι κ} (h : a.Compatible b) :
    b.Compatible a :=
  fun hkey hne => (h hkey.symm hne.symm).symm

/-- The locks that are held, no two of them incompatible. -/
structure LockTable (ι : Type u) (κ : Type v) where
  held : List (Lock ι κ)
  compatible : ∀ a ∈ held, ∀ b ∈ held, a.Compatible b

namespace LockTable

variable {ι : Type u} {κ : Type v} [DecidableEq ι] [DecidableEq κ]

def empty : LockTable ι κ := ⟨[], fun _ ha => absurd ha List.not_mem_nil⟩

/-- The lock is compatible with those that are held. -/
def Grants (t : LockTable ι κ) (l : Lock ι κ) : Prop := ∀ a ∈ t.held, a.Compatible l

instance (t : LockTable ι κ) (l : Lock ι κ) : Decidable (t.Grants l) :=
  inferInstanceAs (Decidable (∀ a ∈ t.held, _))

/-- The lock joins those that are held. -/
def acquire (t : LockTable ι κ) (l : Lock ι κ) (h : t.Grants l) : LockTable ι κ where
  held := l :: t.held
  compatible := by
    intro a ha b hb
    rcases List.mem_cons.1 ha with rfl | ha' <;> rcases List.mem_cons.1 hb with rfl | hb'
    · exact fun _ hne => absurd rfl hne
    · exact (h b hb').symm
    · exact h a ha'
    · exact t.compatible a ha' b hb'

/-- All locks of a holder are released, at the end of its transaction. -/
def release (t : LockTable ι κ) (p : ι) : LockTable ι κ where
  held := t.held.filter fun l => l.holder ≠ p
  compatible := by
    intro a ha b hb
    exact t.compatible a (List.mem_of_mem_filter ha) b (List.mem_of_mem_filter hb)

variable {t : LockTable ι κ} {l : Lock ι κ} {p : ι}

theorem mem_acquire {h : t.Grants l} {a : Lock ι κ} :
    a ∈ (t.acquire l h).held ↔ a = l ∨ a ∈ t.held := List.mem_cons

theorem mem_release {a : Lock ι κ} : a ∈ (t.release p).held ↔ a ∈ t.held ∧ a.holder ≠ p := by
  simp [release]

end LockTable

end Locks
