import Mathlib.Algebra.Order.BigOperators.Group.List
import Mathlib.Data.List.Dedup

/-!
# Sums by groups

`GROUP BY`: the rows of a list fall into groups by a key, and the sums of the groups make up the
sum of the list.

* `sum_groups` — over any keys among which every row has its own.
* `sum_dedup_groups` — over the keys that occur.
* `groupBy` — the groups themselves, each under its key.
-/

namespace Grouped

open List

universe u v w

variable {α : Type u} {κ : Type v} {M : Type w} [DecidableEq κ] [AddCommMonoid M]

/-- Of keys that are all different, one has a value. -/
theorem sum_single {ks : List κ} (hnodup : ks.Nodup) {k : κ} (hk : k ∈ ks) (x : M) :
    (ks.map fun k' => if k = k' then x else 0).sum = x := by
  induction ks with
  | nil => cases hk
  | cons k₀ ks ih =>
    obtain ⟨hnot, hrest⟩ := nodup_cons.1 hnodup
    rw [map_cons, sum_cons]
    by_cases heq : k = k₀
    · have hzero : (ks.map fun k' => if k = k' then x else 0).sum = 0 := by
        refine sum_eq_zero ?_
        intro y hy
        obtain ⟨_, hk', rfl⟩ := mem_map.1 hy
        refine if_neg ?_
        rintro rfl
        exact hnot (heq ▸ hk')
      rw [if_pos heq, hzero, add_zero]
    · rw [if_neg heq, zero_add]
      exact ih hrest ((mem_cons.1 hk).resolve_left heq)

/-- The sums of the groups make up the sum. -/
theorem sum_groups (f : α → κ) (weigh : α → M) {ks : List κ} (hnodup : ks.Nodup) (xs : List α)
    (hkeys : ∀ x ∈ xs, f x ∈ ks) :
    (ks.map fun k => ((xs.filter fun x => f x = k).map weigh).sum).sum = (xs.map weigh).sum := by
  induction xs with
  | nil =>
    refine sum_eq_zero ?_
    intro y hy
    obtain ⟨k, -, rfl⟩ := mem_map.1 hy
    rfl
  | cons x xs ih =>
    have hsplit : ∀ k, (((x :: xs).filter fun x => f x = k).map weigh).sum =
        (if f x = k then weigh x else 0) + ((xs.filter fun x => f x = k).map weigh).sum := by
      intro k
      by_cases hk : f x = k
      · rw [filter_cons_of_pos (by simpa using hk), if_pos hk, map_cons, sum_cons]
      · rw [filter_cons_of_neg (by simpa using hk), if_neg hk, zero_add]
    simp only [hsplit, sum_map_add]
    rw [sum_single hnodup (hkeys x mem_cons_self),
      ih fun y hy => hkeys y (mem_cons_of_mem x hy), map_cons, sum_cons]

/-- Over the keys that occur. -/
theorem sum_dedup_groups (f : α → κ) (weigh : α → M) (xs : List α) :
    ((xs.map f).dedup.map fun k => ((xs.filter fun x => f x = k).map weigh).sum).sum =
      (xs.map weigh).sum :=
  sum_groups f weigh (nodup_dedup _) xs fun _ hx =>
    mem_dedup.2 (mem_map_of_mem hx)

/-- The groups, each under its key. -/
def groupBy (f : α → κ) (xs : List α) : List (κ × List α) :=
  (xs.map f).dedup.map fun k => (k, xs.filter fun x => f x = k)

/-- There is one group for the key of each row. -/
theorem mem_groupBy {f : α → κ} {xs : List α} {g : κ × List α} :
    g ∈ groupBy f xs ↔ ∃ x ∈ xs, g = (f x, xs.filter fun y => f y = f x) := by
  rw [groupBy, mem_map]
  constructor
  · rintro ⟨_, hk, rfl⟩
    obtain ⟨x, hx, rfl⟩ := mem_map.1 (mem_dedup.1 hk)
    exact ⟨x, hx, rfl⟩
  · rintro ⟨x, hx, rfl⟩
    exact ⟨f x, mem_dedup.2 (mem_map_of_mem hx), rfl⟩

theorem nodup_groupBy {f : α → κ} {xs : List α} : ((groupBy f xs).map Prod.fst).Nodup := by
  rw [groupBy, map_map]
  exact (map_id _).symm ▸ nodup_dedup _

end Grouped
