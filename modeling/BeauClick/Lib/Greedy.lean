import Mathlib.Algebra.Order.Group.Unbundled.Basic
import Mathlib.Algebra.Order.BigOperators.Group.List
import Mathlib.Algebra.Order.Monoid.Unbundled.MinMax

/-!
# A ceiling spent in order

Asks on one ceiling, served one after the other: each is granted what it asks for, as far as the
asks before it have left that much.

* `mem_zip_grants` — a grant is between nothing and its ask.
* `sum_grants` — together they take all that is asked for, or the whole ceiling.
* `getElem_grants` — each takes the smaller of its ask and what is left.
-/

namespace BeauClick

open List

variable {α : Type*} [AddCommGroup α] [LinearOrder α]

/-- What each ask is granted, in order. -/
def grants (ceiling : α) : List α → List α
  | [] => []
  | ask :: asks => min ask ceiling :: grants (ceiling - min ask ceiling) asks

@[simp] theorem grants_nil (ceiling : α) : grants ceiling [] = [] := rfl

@[simp] theorem grants_cons (ceiling ask : α) (asks : List α) :
    grants ceiling (ask :: asks) =
      min ask ceiling :: grants (ceiling - min ask ceiling) asks := rfl

@[simp] theorem length_grants (ceiling : α) (asks : List α) :
    (grants ceiling asks).length = asks.length := by
  induction asks generalizing ceiling with
  | nil => rfl
  | cons ask asks ih => simp [ih]

/-- Each ask is granted the smaller of what it asks for and what the ones before it left. -/
theorem getElem_grants (ceiling : α) (asks : List α) (i : ℕ) (h : i < asks.length)
    (h' : i < (grants ceiling asks).length) :
    (grants ceiling asks)[i] = min asks[i] (ceiling - ((grants ceiling asks).take i).sum) := by
  induction asks generalizing ceiling i with
  | nil => cases h
  | cons ask asks ih =>
    cases i with
    | zero => simp
    | succ i =>
      have hi : i < asks.length := Nat.lt_of_succ_lt_succ h
      simp only [grants_cons, getElem_cons_succ, take_succ_cons, sum_cons]
      rw [ih _ _ hi, sub_sub]

variable [IsOrderedAddMonoid α]

theorem left_nonneg {ceiling ask : α} : 0 ≤ ceiling - min ask ceiling :=
  sub_nonneg.2 (min_le_right _ _)

/-- No ask is granted more than it asks for, nor less than nothing. -/
theorem mem_zip_grants {ceiling : α} {asks : List α} (hceil : 0 ≤ ceiling)
    (hasks : ∀ ask ∈ asks, 0 ≤ ask) :
    ∀ p ∈ asks.zip (grants ceiling asks), 0 ≤ p.2 ∧ p.2 ≤ p.1 := by
  induction asks generalizing ceiling with
  | nil => simp
  | cons ask asks ih =>
    obtain ⟨hask, hasks⟩ := forall_mem_cons.1 hasks
    refine forall_mem_cons.2 ⟨⟨le_min hask hceil, min_le_left _ _⟩, ?_⟩
    exact ih left_nonneg hasks

/-- The asks together take all they ask for, or the whole ceiling. -/
theorem sum_grants {ceiling : α} {asks : List α} (hceil : 0 ≤ ceiling)
    (hasks : ∀ ask ∈ asks, 0 ≤ ask) : (grants ceiling asks).sum = min asks.sum ceiling := by
  induction asks generalizing ceiling with
  | nil => simp [hceil]
  | cons ask asks ih =>
    obtain ⟨-, hasks⟩ := forall_mem_cons.1 hasks
    rw [grants_cons, sum_cons, sum_cons, ih left_nonneg hasks]
    rcases le_total ask ceiling with h | h
    · rw [min_eq_left h, ← min_add_add_left, add_sub_cancel]
    · have hrest : 0 ≤ asks.sum := sum_nonneg hasks
      rw [min_eq_right h, sub_self, min_eq_right hrest, add_zero,
        min_eq_right (le_add_of_le_of_nonneg h hrest)]

end BeauClick
