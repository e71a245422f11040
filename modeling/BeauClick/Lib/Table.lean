import Mathlib.Algebra.Order.BigOperators.Group.List
import Mathlib.Data.List.Nodup
import Mathlib.Data.List.MinMax
import Mathlib.Tactic.Linarith
import Mathlib.Tactic.Ring

/-!
# Tables as lists of rows

A table is the list of its rows in insertion order.  The file has the two
statements a service uses besides inserting and reading: an `UPDATE … WHERE` and
a conditional sum.

* `updateWhere p f` — every row that satisfies `p` is replaced by `f` of it.
* `sumWhere p v` — the sum of `v` over the rows that satisfy `p`.
* `map_updateWhere` — a column the update does not write keeps its values.
* `filter_updateWhere` — a selection by columns the update does not write.
* `sumWhere_updateWhere_le` — an update that lowers every contribution lowers
  the sum.
-/

namespace Table

open List

universe u v

variable {α : Type u} {κ : Type v}

/-- A row that is inserted keeps a column a function of the key, if it agrees with the rows under
its key. -/
theorem determined_concat {ν : Type*} {key : α → κ} {val : α → ν} {xs : List α} {x : α}
    (h : ∀ a ∈ xs, ∀ b ∈ xs, key a = key b → val a = val b)
    (hnew : ∀ a ∈ xs, key a = key x → val a = val x) :
    ∀ a ∈ xs ++ [x], ∀ b ∈ xs ++ [x], key a = key b → val a = val b := by
  intro a ha b hb hab
  rcases mem_append.1 ha with ha | ha <;> rcases mem_append.1 hb with hb | hb
  · exact h a ha b hb hab
  · rw [mem_singleton.1 hb] at hab ⊢
    exact hnew a ha hab
  · rw [mem_singleton.1 ha] at hab ⊢
    exact (hnew b hb hab.symm).symm
  · rw [mem_singleton.1 ha, mem_singleton.1 hb]

/-! ## Updates -/

/-- `UPDATE … SET f WHERE p`. -/
def updateWhere (p : α → Prop) [DecidablePred p] (f : α → α) (xs : List α) : List α :=
  xs.map fun x => if p x then f x else x

section Update

variable {p : α → Prop} [DecidablePred p] {f : α → α} {xs : List α}

theorem mem_updateWhere {y : α} :
    y ∈ updateWhere p f xs ↔ ∃ x ∈ xs, y = if p x then f x else x := by
  simp only [updateWhere, mem_map]
  constructor
  · rintro ⟨x, hx, rfl⟩
    exact ⟨x, hx, rfl⟩
  · rintro ⟨x, hx, rfl⟩
    exact ⟨x, hx, rfl⟩

/-- A row is one that the update has written, or one that it has left. -/
theorem written_or_left {y : α} (hy : y ∈ updateWhere p f xs) :
    (∃ x ∈ xs, p x ∧ f x = y) ∨ y ∈ xs ∧ ¬p y := by
  obtain ⟨x, hx, rfl⟩ := mem_updateWhere.1 hy
  by_cases h : p x
  · rw [if_pos h]
    exact Or.inl ⟨x, hx, h, rfl⟩
  · rw [if_neg h]
    exact Or.inr ⟨hx, h⟩

/-- What holds of every row the update can produce, holds of every row after it. -/
theorem forall_mem_updateWhere {P : α → Prop} (hkeep : ∀ x ∈ xs, ¬p x → P x)
    (hset : ∀ x ∈ xs, p x → P (f x)) : ∀ y ∈ updateWhere p f xs, P y := by
  intro y hy
  rcases written_or_left hy with ⟨x, hx, h, rfl⟩ | ⟨hy, h⟩
  · exact hset x hx h
  · exact hkeep y hy h

/-- A column that the update does not write keeps its values. -/
theorem map_updateWhere {g : α → κ} (hg : ∀ x, g (f x) = g x) :
    (updateWhere p f xs).map g = xs.map g := by
  rw [updateWhere, map_map]
  refine map_congr_left ?_
  intro x _
  by_cases h : p x <;> simp [h, hg]

/-- A row that does not match is still there. -/
theorem mem_updateWhere_of_not {x : α} (hx : x ∈ xs) (h : ¬p x) : x ∈ updateWhere p f xs :=
  mem_updateWhere.2 ⟨x, hx, by rw [if_neg h]⟩

/-- A row that matches is there as the update writes it. -/
theorem mem_updateWhere_of {x : α} (hx : x ∈ xs) (h : p x) : f x ∈ updateWhere p f xs :=
  mem_updateWhere.2 ⟨x, hx, by rw [if_pos h]⟩

/-- Rows told apart by a relation before the update are told apart by it after the
update, when the update never makes two rows related. -/
theorem eq_of_mem_updateWhere {R : α → α → Prop}
    (heq : ∀ x ∈ xs, ∀ y ∈ xs, R x y → x = y)
    (hback : ∀ x ∈ xs, ∀ y ∈ xs,
      R (if p x then f x else x) (if p y then f y else y) → R x y) :
    ∀ x ∈ updateWhere p f xs, ∀ y ∈ updateWhere p f xs, R x y → x = y := by
  intro x' hx' y' hy' hR
  obtain ⟨x, hx, rfl⟩ := mem_updateWhere.1 hx'
  obtain ⟨y, hy, rfl⟩ := mem_updateWhere.1 hy'
  have hxy : x = y := heq x hx y hy (hback x hx y hy hR)
  rw [hxy]

/-- A selection by columns the update does not write comes before or after it. -/
theorem filter_updateWhere {q : α → Bool} (hq : ∀ x, q (f x) = q x) :
    (updateWhere p f xs).filter q = updateWhere p f (xs.filter q) := by
  rw [updateWhere, filter_map]
  refine congrArg _ (filter_congr fun x _ => ?_)
  show q (if p x then f x else x) = q x
  split
  · exact hq x
  · rfl

theorem updateWhere_eq_self (h : ∀ x ∈ xs, ¬p x) : updateWhere p f xs = xs := by
  conv_rhs => rw [← map_id xs]
  refine map_congr_left ?_
  intro x hx
  simp [h x hx]

end Update

/-! ## Conditional sums -/

/-- `SELECT COALESCE(SUM(v), 0) … WHERE p`. -/
def sumWhere (p : α → Prop) [DecidablePred p] (v : α → ℤ) (xs : List α) : ℤ :=
  (xs.map fun x => if p x then v x else 0).sum

section Sum

variable {p q : α → Prop} [DecidablePred p] [DecidablePred q] {v : α → ℤ} {f : α → α}
  {xs ys : List α}

@[simp] theorem sumWhere_nil : sumWhere p v [] = 0 := rfl

@[simp] theorem sumWhere_cons (x : α) :
    sumWhere p v (x :: xs) = (if p x then v x else 0) + sumWhere p v xs := by
  simp [sumWhere]

@[simp] theorem sumWhere_append : sumWhere p v (xs ++ ys) = sumWhere p v xs + sumWhere p v ys := by
  simp [sumWhere]

theorem sumWhere_eq_zero (h : ∀ x ∈ xs, ¬p x) : sumWhere p v xs = 0 := by
  induction xs with
  | nil => rfl
  | cons x xs ih =>
    have hx : ¬p x := h x mem_cons_self
    rw [sumWhere_cons, if_neg hx, zero_add]
    exact ih fun y hy => h y (mem_cons_of_mem x hy)

theorem sumWhere_nonneg (h : ∀ x ∈ xs, p x → 0 ≤ v x) : 0 ≤ sumWhere p v xs := by
  refine sum_nonneg ?_
  intro y hy
  obtain ⟨x, hx, rfl⟩ := mem_map.1 hy
  by_cases hp : p x
  · simpa [hp] using h x hx hp
  · simp [hp]

/-- Rows a second condition lets through as well contribute as much to it. -/
theorem sumWhere_congr (h : ∀ x ∈ xs, (p x ↔ q x)) : sumWhere p v xs = sumWhere q v xs := by
  rw [sumWhere]
  congr 1
  refine map_congr_left ?_
  intro x hx
  simp only [h x hx]

/-- When one more row matches, the sum grows by its value. -/
theorem sumWhere_one_more {x : α} (hnodup : xs.Nodup) (hx : x ∈ xs) (hnot : ¬p x)
    (hq : ∀ y ∈ xs, (q y ↔ p y ∨ y = x)) : sumWhere q v xs = sumWhere p v xs + v x := by
  induction xs with
  | nil => simp at hx
  | cons y ys ih =>
    rw [nodup_cons] at hnodup
    rw [sumWhere_cons, sumWhere_cons]
    by_cases hxy : x = y
    · subst hxy
      have hqx : q x := (hq x mem_cons_self).2 (Or.inr rfl)
      have hrest : sumWhere q v ys = sumWhere p v ys := by
        refine sumWhere_congr ?_
        intro z hz
        have hzx : z ≠ x := fun h => hnodup.1 (h ▸ hz)
        simpa [hzx] using hq z (mem_cons_of_mem x hz)
      rw [if_pos hqx, if_neg hnot, hrest]
      ring
    · have hmem : x ∈ ys := (mem_cons.1 hx).resolve_left hxy
      have hsame : q y ↔ p y := by
        have hyx : y ≠ x := fun h => hxy h.symm
        simpa [hyx] using hq y mem_cons_self
      rw [ih hnodup.2 hmem fun z hz => hq z (mem_cons_of_mem y hz)]
      simp only [hsame]
      ring

/-- An update that lowers what every matching row contributes lowers the sum. -/
theorem sumWhere_updateWhere_le
    (h : ∀ x ∈ xs, q x → (if p (f x) then v (f x) else 0) ≤ if p x then v x else 0) :
    sumWhere p v (updateWhere q f xs) ≤ sumWhere p v xs := by
  rw [sumWhere, updateWhere, map_map]
  refine sum_le_sum ?_
  intro x hx
  by_cases hq : q x
  · simpa [hq] using h x hx hq
  · simp [hq]

end Sum

/-! ## Reads -/

/-- The rows by position, after one more. -/
theorem getElem?_concat_eq_some {x y : α} {xs : List α} {i : ℕ} :
    (xs ++ [x])[i]? = some y ↔ xs[i]? = some y ∨ (i = xs.length ∧ x = y) := by
  rcases lt_trichotomy i xs.length with hlt | heq | hgt
  · rw [getElem?_append_left hlt]
    exact ⟨Or.inl, fun h => h.resolve_right fun h => absurd h.1 hlt.ne⟩
  · subst heq
    simp
  · rw [getElem?_eq_none (by simp; omega)]
    constructor
    · intro h
      cases h
    · rintro (h | ⟨h, -⟩)
      · rw [getElem?_eq_none hgt.le] at h
        cases h
      · omega

/-- `SELECT … WHERE p ORDER BY k DESC LIMIT 1`. -/
def latestWhere (p : α → Prop) [DecidablePred p] (k : α → ℕ) (xs : List α) : Option α :=
  (xs.filter fun x => decide (p x)).argmax k

theorem latestWhere_eq_some {p : α → Prop} [DecidablePred p] {k : α → ℕ} {xs : List α} {x : α}
    (h : latestWhere p k xs = some x) : x ∈ xs ∧ p x := by
  have hmem : x ∈ xs.filter fun x => decide (p x) := argmax_mem h
  simpa using hmem

section Latest

variable {p q : α → Prop} [DecidablePred p] [DecidablePred q] {k : α → ℕ} {xs : List α} {x : α}

/-- No matching row has a larger key than the latest one. -/
theorem le_of_latestWhere {y : α} (h : latestWhere p k xs = some x) (hy : y ∈ xs) (hp : p y) :
    k y ≤ k x := by
  have hmem : y ∈ xs.filter fun x => decide (p x) := by simpa using ⟨hy, hp⟩
  exact le_of_mem_argmax hmem h

theorem latestWhere_eq_none (h : latestWhere p k xs = none) : ∀ y ∈ xs, ¬p y := by
  intro y hy hp
  have hmem : y ∈ xs.filter fun x => decide (p x) := by simpa using ⟨hy, hp⟩
  rw [latestWhere, argmax_eq_none] at h
  rw [h] at hmem
  simp at hmem

/-- A row with a larger key than every matching row becomes the latest one. -/
theorem latestWhere_append_of_lt (hp : p x) (hlt : ∀ y ∈ xs, p y → k y < k x) :
    latestWhere p k (xs ++ [x]) = some x := by
  rw [latestWhere, filter_append]
  have hx : [x].filter (fun x => decide (p x)) = [x] := by simp [hp]
  rw [hx, argmax_concat]
  cases hmax : (xs.filter fun x => decide (p x)).argmax k with
  | none => rfl
  | some y =>
    obtain ⟨hy, hpy⟩ := latestWhere_eq_some hmax
    simp [hlt y hy hpy]

/-- A row that does not match changes nothing. -/
theorem latestWhere_append_of_not (hp : ¬p x) :
    latestWhere p k (xs ++ [x]) = latestWhere p k xs := by
  simp [latestWhere, filter_append, hp]

theorem latestWhere_congr (h : ∀ y ∈ xs, (p y ↔ q y)) :
    latestWhere p k xs = latestWhere q k xs := by
  rw [latestWhere]
  congr 1
  refine filter_congr ?_
  intro y hy
  simp only [h y hy]

end Latest

end Table
