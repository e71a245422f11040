import Mathlib.Algebra.BigOperators.Group.List.Basic
import Mathlib.Algebra.Order.Ring.Int
import Mathlib.Data.List.Induction

/-!
# Counters clamped at zero

A count and a total that follow a sequence of changes, neither allowed below zero, and the
total set to zero whenever the count is.  Clamping does not commute with adding, so what the
pair ends at depends on the order of the changes.

* `Clamped.count_le` — the count is never below the true one, and equal only if no prefix of
  the changes takes the true count below zero.
* `Clamped.total_eq` — the total is the true one less the lowest it has been since the count
  was last zero.
* `Clamped.exact_iff` — when the pair ends at the true count and total.
-/

namespace Clamped

open List

/-- A change of the count and of the total. -/
structure Change where
  count : ℤ
  total : ℤ

/-- A total and a count. -/
@[ext] structure Counters where
  count : ℤ
  total : ℤ
  deriving DecidableEq

/-- The counters after a change. -/
def apply (k : Counters) (x : Change) : Counters :=
  let count := max 0 (k.count + x.count)
  ⟨count, if count = 0 then 0 else max 0 (k.total + x.total)⟩

/-- The counters after a sequence of changes. -/
def run (xs : List Change) : Counters := xs.foldl apply ⟨0, 0⟩

/-- The true count. -/
def count (xs : List Change) : ℤ := (xs.map (·.count)).sum

/-- The true total. -/
def total (xs : List Change) : ℤ := (xs.map (·.total)).sum

/-- No prefix of the changes takes the count below zero. -/
def NeverNegative (xs : List Change) : Prop := ∀ pre, pre <+: xs → 0 ≤ count pre

/-- `m` is the least total since the count was last zero. -/
def Lowest (xs : List Change) (m : ℤ) : Prop :=
  ∃ pre post, xs = pre ++ post ∧ count pre = 0 ∧
    (∀ mid, mid ≠ [] → mid <+: post → count (pre ++ mid) ≠ 0) ∧
    (∀ mid, mid <+: post → m ≤ total (pre ++ mid)) ∧ ∃ mid, mid <+: post ∧ m = total (pre ++ mid)

variable {xs pre : List Change} {x : Change} {m m' : ℤ}

@[simp] theorem count_nil : count [] = 0 := rfl

@[simp] theorem total_nil : total [] = 0 := rfl

@[simp] theorem count_concat : count (xs ++ [x]) = count xs + x.count := by simp [count]

@[simp] theorem total_concat : total (xs ++ [x]) = total xs + x.total := by simp [total]

@[simp] theorem run_nil : run [] = ⟨0, 0⟩ := rfl

@[simp] theorem run_concat : run (xs ++ [x]) = apply (run xs) x := by simp [run]

/-! ## The count -/

theorem neverNegative_concat :
    NeverNegative (xs ++ [x]) ↔ NeverNegative xs ∧ 0 ≤ count (xs ++ [x]) := by
  constructor
  · intro h
    refine ⟨?_, h _ prefix_rfl⟩
    exact fun pre hpre => h pre (hpre.trans (prefix_append xs [x]))
  · rintro ⟨h, hlast⟩ pre hpre
    rcases prefix_concat_iff.1 hpre with rfl | hpre
    · exact hlast
    · exact h pre hpre

/-- The count is never too low. -/
theorem count_le (xs : List Change) : count xs ≤ (run xs).count := by
  induction xs using List.reverseRecOn with
  | nil => exact le_rfl
  | append_singleton =>
    rw [run_concat, count_concat]
    exact le_trans (by omega) (le_max_right 0 _)

/-- The count is right exactly when it has not been clamped. -/
theorem count_eq_iff : (run xs).count = count xs ↔ NeverNegative xs := by
  induction xs using List.reverseRecOn with
  | nil =>
    refine iff_of_true rfl ?_
    intro pre hpre
    rw [prefix_nil.1 hpre]
    exact le_rfl
  | append_singleton xs x ih =>
    rw [neverNegative_concat, ← ih, run_concat]
    have hle := count_le xs
    show max 0 ((run xs).count + x.count) = _ ↔ _
    rw [count_concat]
    constructor
    · intro h
      omega
    · rintro ⟨heq, hpos⟩
      rw [heq]
      exact max_eq_right hpos

/-! ## The total -/

/-- When the count comes back to zero, the total is the lowest since. -/
theorem lowest_of_zero (h : count xs = 0) : Lowest xs (total xs) := by
  refine ⟨xs, [], (append_nil xs).symm, h, ?_, ?_, [], prefix_rfl, ?_⟩
  · intro mid hne hmid
    exact absurd (prefix_nil.1 hmid) hne
  · intro mid hmid
    rw [prefix_nil.1 hmid, append_nil]
  · rw [append_nil]

/-- While the count is not zero, the lowest total is kept up to date. -/
theorem Lowest.concat (h : Lowest xs m) (hne : count (xs ++ [x]) ≠ 0) :
    Lowest (xs ++ [x]) (min m (total (xs ++ [x]))) := by
  obtain ⟨pre, post, rfl, hzero, hnonzero, hlow, mid, hmid, heq⟩ := h
  rw [append_assoc] at hne ⊢
  refine ⟨pre, post ++ [x], rfl, hzero, ?_, ?_, ?_⟩
  · intro mid' hne' hmid'
    rcases prefix_concat_iff.1 hmid' with rfl | hmid'
    · exact hne
    · exact hnonzero mid' hne' hmid'
  · intro mid' hmid'
    rcases prefix_concat_iff.1 hmid' with rfl | hmid'
    · exact min_le_right _ _
    · exact (min_le_left _ _).trans (hlow mid' hmid')
  · rcases min_choice m (total (pre ++ (post ++ [x]))) with h | h
    · exact ⟨mid, hmid.trans (prefix_append post [x]), h.trans heq⟩
    · exact ⟨post ++ [x], prefix_rfl, h⟩

/-- There is one lowest total. -/
theorem Lowest.eq (h : Lowest xs m) (h' : Lowest xs m') : m = m' := by
  obtain ⟨pre, post, rfl, hzero, hnonzero, hlow, mid, hmid, rfl⟩ := h
  obtain ⟨pre', post', heq, hzero', hnonzero', hlow', mid', hmid', rfl⟩ := h'
  have hpre : pre = pre' ∧ post = post' := by
    rcases append_eq_append_iff.1 heq with ⟨ext, rfl, rfl⟩ | ⟨ext, rfl, rfl⟩
    · by_cases hext : ext = []
      · simp [hext]
      · exact absurd hzero' (hnonzero ext hext (prefix_append _ _))
    · by_cases hext : ext = []
      · simp [hext]
      · exact absurd hzero (hnonzero' ext hext (prefix_append _ _))
  obtain ⟨rfl, rfl⟩ := hpre
  exact le_antisymm (hlow mid' hmid') (hlow' mid hmid)

/-- While the count is right, the total is the true one less the lowest. -/
theorem total_eq (h : NeverNegative xs) : ∃ m, Lowest xs m ∧ (run xs).total = total xs - m := by
  induction xs using List.reverseRecOn with
  | nil => exact ⟨0, lowest_of_zero rfl, rfl⟩
  | append_singleton xs x ih =>
    obtain ⟨hxs, hpos⟩ := neverNegative_concat.1 h
    obtain ⟨m, hm, _⟩ := ih hxs
    have hcnt : max 0 ((run xs).count + x.count) = count (xs ++ [x]) := by
      rw [count_eq_iff.2 hxs, ← count_concat]
      exact max_eq_right hpos
    have hrun : (run (xs ++ [x])).total =
        if count (xs ++ [x]) = 0 then 0 else max 0 ((run xs).total + x.total) := by
      rw [run_concat, ← hcnt]
      rfl
    by_cases hzero : count (xs ++ [x]) = 0
    · refine ⟨total (xs ++ [x]), lowest_of_zero hzero, ?_⟩
      rw [hrun, if_pos hzero, sub_self]
    · refine ⟨min m (total (xs ++ [x])), hm.concat hzero, ?_⟩
      rw [total_concat]
      omega

/-- The counters end at the true ones exactly when the count is never clamped and the total is
zero at the lowest since the count last was. -/
theorem exact_iff : run xs = ⟨count xs, total xs⟩ ↔ NeverNegative xs ∧ Lowest xs 0 := by
  constructor
  · intro h
    have hxs : NeverNegative xs := count_eq_iff.1 (congrArg Counters.count h)
    have htot : (run xs).total = total xs := congrArg Counters.total h
    obtain ⟨m, hm, heq⟩ := total_eq hxs
    have hzero : m = 0 := by omega
    exact ⟨hxs, hzero ▸ hm⟩
  · rintro ⟨hxs, hlow⟩
    obtain ⟨_, hm, heq⟩ := total_eq hxs
    rw [hm.eq hlow, sub_zero] at heq
    exact Counters.ext (count_eq_iff.2 hxs) heq

end Clamped
