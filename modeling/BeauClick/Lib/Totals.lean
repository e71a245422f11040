import Mathlib.Algebra.BigOperators.Group.List.Basic
import Mathlib.Algebra.GroupWithZero.Nat
import BeauClick.Lib.ReadCommitted

/-!
# Totals of a table

`SUM` over the rows of a table: each row has a weight.

* `Versioned.total` — the total of the rows that a transaction reads.
* `Versioned.committedTotal` — the total of the committed rows.
* `committedTotal_commit_of_new` — the commit of a new row adds its weight.
-/

set_option linter.unusedSectionVars false

namespace ReadCommitted

universe u v w

namespace Versioned

variable {ι : Type u} {κ : Type v} {α : Type w} [DecidableEq ι] [DecidableEq κ]

/-- What a row adds to the total: nothing where there is none. -/
def weight (weigh : α → ℕ) (x : Option α) : ℕ := (x.map weigh).getD 0

/-- The total of the rows that the transaction reads. -/
def total (t : Versioned ι κ α) (p : ι) (weigh : α → ℕ) : ℕ :=
  (t.keys.map fun k => weight weigh (t.get p k)).sum

/-- The total of the committed rows. -/
def committedTotal (t : Versioned ι κ α) (weigh : α → ℕ) : ℕ :=
  (t.keys.map fun k => weight weigh (t.committed k)).sum

variable {t : Versioned ι κ α} {p : ι} {k : κ} {x : α} {weigh : α → ℕ}

@[simp] theorem weight_none : weight weigh none = 0 := rfl

@[simp] theorem weight_some : weight weigh (some x) = weigh x := rfl

@[simp] theorem committedTotal_empty : (empty : Versioned ι κ α).committedTotal weigh = 0 := rfl

/-- Two tables with the same keys and the same weights at all keys but one. -/
theorem sum_of_eq_off {f g : κ → ℕ} {ks : List κ} (hnodup : ks.Nodup) (hk : k ∈ ks)
    (hoff : ∀ k' ≠ k, f k' = g k') : (ks.map f).sum + g k = (ks.map g).sum + f k := by
  have herase : (ks.erase k).map f = (ks.erase k).map g := by
    refine List.map_congr_left ?_
    intro k' hk'
    exact hoff k' (hnodup.mem_erase_iff.1 hk').1
  have hf := List.sum_map_erase f hk
  have hg := List.sum_map_erase g hk
  rw [herase] at hf
  omega

/-- A transaction that has written nothing reads what is committed. -/
theorem total_of_untouched (h : t.Untouched p) : t.total p weigh = t.committedTotal weigh := by
  unfold total committedTotal
  simp only [h.get_eq]

/-- A transaction that has written one new row reads it beside what is committed. -/
theorem total_of_new (hwrote : t.Wrote p k x) (honly : t.OnlyAt p k) (hnew : t.committed k = none) :
    t.total p weigh = t.committedTotal weigh + weigh x := by
  have hsum := sum_of_eq_off (f := fun k => weight weigh (t.get p k))
    (g := fun k => weight weigh (t.committed k)) t.nodup (mem_keys (Or.inr ⟨p, hwrote⟩)) ?_
  · simpa [total, committedTotal, hnew, hwrote.get_eq] using hsum
  · intro k' hk'
    rw [get_of_not fun hw => hk' (honly k' hw)]

theorem committedTotal_write : (t.write p k x).committedTotal weigh = t.committedTotal weigh := by
  unfold committedTotal
  rw [committed_write]
  by_cases hk : k ∈ t.keys
  · have hkeys : (t.write p k x).keys = t.keys := if_pos hk
    rw [hkeys]
  · have hkeys : (t.write p k x).keys = k :: t.keys := if_neg hk
    have hnone : t.committed k = none := by
      rw [committed, t.complete k hk]
      rfl
    rw [hkeys, List.map_cons, List.sum_cons, hnone, weight_none, zero_add]

theorem committedTotal_rollback :
    (t.rollback p).committedTotal weigh = t.committedTotal weigh := by
  unfold committedTotal
  rw [committed_rollback]
  rfl

/-- A commit leaves the total that its transaction has read. -/
theorem committedTotal_commit : (t.commit p).committedTotal weigh = t.total p weigh := by
  unfold committedTotal total
  simp only [committed_commit]
  rfl

theorem committedTotal_commit_of_untouched (h : t.Untouched p) :
    (t.commit p).committedTotal weigh = t.committedTotal weigh :=
  committedTotal_commit.trans (total_of_untouched h)

/-- The commit of a new row adds its weight. -/
theorem committedTotal_commit_of_new (hwrote : t.Wrote p k x) (honly : t.OnlyAt p k)
    (hnew : t.committed k = none) :
    (t.commit p).committedTotal weigh = t.committedTotal weigh + weigh x :=
  committedTotal_commit.trans (total_of_new hwrote honly hnew)

end Versioned

end ReadCommitted
