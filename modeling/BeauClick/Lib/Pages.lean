import Mathlib.Data.List.Sort

/-!
# Pages of sorted rows

Rows in descending order of a key, a page at a time.  Every page is cut from an order of its own:
nothing says how rows with one key stand to each other.

* `Pages.sat_iff` — where a sorted list stops to satisfy what its larger keys satisfy.
* `Pages.mem_page` — the page of a place.
* `Pages.pages_iff` — every row is on a page, exactly when no page ends between rows with one key.
-/

universe u v

namespace Pages

open List

variable {α : Type u} {β : Type v} [LinearOrder β] {key : α → β} {rows l : List α} {size p : ℕ}

/-- The rows of a page; the first page is page zero. -/
def page (size p : ℕ) (l : List α) : List α := (l.drop (p * size)).take size

/-- The list has the rows in descending order. -/
def Sorts (key : α → β) (rows l : List α) : Prop :=
  l.Perm rows ∧ l.Pairwise fun a b => key b ≤ key a

/-- No page ends between two rows with one key. -/
def Untied (key : α → β) (size : ℕ) (rows : List α) : Prop :=
  ∀ v p, p * size ≤ rows.countP (fun x => v < key x) ∨ rows.countP (fun x => v ≤ key x) ≤ p * size

theorem sat_iff {P : α → Prop} [DecidablePred P] (hmono : l.Pairwise fun a b => P b → P a) {i : ℕ}
    {x : α} (hx : l[i]? = some x) : P x ↔ i < l.countP P := by
  induction l generalizing i with
  | nil => cases hx
  | cons a l ih =>
    obtain ⟨hhead, htail⟩ := pairwise_cons.1 hmono
    by_cases ha : P a
    · rw [countP_cons_of_pos (by simpa using ha)]
      cases i with
      | zero =>
        obtain rfl : a = x := Option.some.inj hx
        simpa using ha
      | succ => simpa using ih htail hx
    · have hnone : ∀ b ∈ l, ¬P b := fun b hb hP => ha (hhead b hb hP)
      rw [countP_cons_of_neg (by simpa using ha),
        countP_eq_zero.2 fun b hb => by simpa using hnone b hb]
      rcases mem_cons.1 (mem_of_getElem? hx) with rfl | hmem
      · simpa using ha
      · simpa using hnone x hmem

theorem mem_page (hsize : 0 < size) {x : α} :
    x ∈ page size p l ↔ ∃ i, l[i]? = some x ∧ i / size = p := by
  simp only [page, mem_iff_getElem?, getElem?_take, getElem?_drop,
    Option.ite_none_right_eq_some]
  constructor
  · rintro ⟨j, hj, hx⟩
    refine ⟨p * size + j, hx, ?_⟩
    rw [Nat.mul_comm, Nat.mul_add_div hsize, Nat.div_eq_of_lt hj, Nat.add_zero]
  · rintro ⟨i, _, rfl⟩
    exact ⟨i % size, Nat.mod_lt i hsize, by rwa [Nat.div_add_mod']⟩

namespace Sorts

section

variable (h : Sorts key rows l)
include h

theorem lt_iff (v : β) {i : ℕ} {x : α} (hx : l[i]? = some x) :
    v < key x ↔ i < rows.countP fun x => v < key x := by
  rw [← h.1.countP_eq]
  exact sat_iff (P := fun x => v < key x) (h.2.imp fun hle hlt => lt_of_lt_of_le hlt hle) hx

theorem le_iff (v : β) {i : ℕ} {x : α} (hx : l[i]? = some x) :
    v ≤ key x ↔ i < rows.countP fun x => v ≤ key x := by
  rw [← h.1.countP_eq]
  exact sat_iff (P := fun x => v ≤ key x) (h.2.imp fun hle hv => le_trans hv hle) hx

theorem eq_of_getElem? (hnodup : rows.Nodup) {i j : ℕ} {x : α}
    (hi : l[i]? = some x) (hj : l[j]? = some x) : i = j :=
  (List.getElem?_inj (List.getElem?_eq_some_iff.1 hi).1 (h.1.nodup_iff.2 hnodup)).1
    (hi.trans hj.symm)

/-- Two neighbours with one key may change places. -/
theorem swap {i : ℕ} {x y : α} (hx : l[i]? = some x)
    (hy : l[i + 1]? = some y) (hkey : key x = key y) :
    ∃ l', Sorts key rows l' ∧ l'[i]? = some y := by
  obtain ⟨hi, rfl⟩ := List.getElem?_eq_some_iff.1 hx
  obtain ⟨_, rfl⟩ := List.getElem?_eq_some_iff.1 hy
  have hl : l = l.take i ++ l[i] :: l[i + 1] :: l.drop (i + 2) := by simp
  refine ⟨l.take i ++ l[i + 1] :: l[i] :: l.drop (i + 2), ⟨?_, ?_⟩, ?_⟩
  · refine ((List.Perm.swap ..).append_left _).trans ?_
    rw [← hl]
    exact h.1
  · have hsort := h.2
    grind
  · simp [hi.le]

end

end Sorts

theorem exists_sorts (key : α → β) (rows : List α) : ∃ l, Sorts key rows l :=
  ⟨rows.mergeSort fun a b => key b ≤ key a, mergeSort_perm .., by
    simpa using @pairwise_mergeSort α (fun a b => decide (key b ≤ key a))
      (fun a b c hab hbc => by simp_all; exact hbc.trans hab)
      (fun a b => by simp [le_total]) rows⟩

/-- Whatever order each page is cut from, every row is on one of the pages, exactly when rows with
one key are never on two of them. -/
theorem pages_iff (hnodup : rows.Nodup) (hsize : 0 < size) :
    (∀ order : ℕ → List α, (∀ p, Sorts key rows (order p)) →
      ∀ x ∈ rows, ∃ p, x ∈ page size p (order p)) ↔ Untied key size rows := by
  simp only [mem_page hsize]
  constructor
  · intro h v p
    by_contra hnot
    rw [not_or, not_le, not_le] at hnot
    obtain ⟨hbef, hafter⟩ := hnot
    obtain ⟨n, hn⟩ : ∃ n, p * size = n + 1 := Nat.exists_eq_succ_of_ne_zero (by omega)
    rw [hn] at hbef hafter
    obtain ⟨l, hl⟩ := exists_sorts key rows
    have hlen : n + 1 < l.length := hl.1.length_eq ▸ hafter.trans_le countP_le_length
    have hx : l[n]? = some l[n] := getElem?_eq_getElem _
    have hy : l[n + 1]? = some l[n + 1] := getElem?_eq_getElem hlen
    -- the rows on the two sides of the end have the key `v`
    have hkey : key l[n] = key l[n + 1] := by
      have := hl.lt_iff v hx
      have := hl.le_iff v hx
      have := hl.lt_iff v hy
      have := hl.le_iff v hy
      grind
    obtain ⟨l', hl', hy'⟩ := hl.swap hx hy hkey
    -- page `p` is cut from the order in which they have changed places
    obtain ⟨q, i, hi, hq⟩ := h (fun q => if q = p then l' else l) (fun q => by split <;> assumption)
      l[n + 1] (hl.1.mem_iff.1 (getElem_mem hlen))
    have hle := Nat.div_mul_le_self i size
    by_cases hqp : q = p
    · rw [if_pos hqp] at hi
      obtain rfl := hl'.eq_of_getElem? hnodup hi hy'
      rw [hq, hqp] at hle
      omega
    · rw [if_neg hqp] at hi
      obtain rfl := hl.eq_of_getElem? hnodup hi hy
      rw [← hn, Nat.mul_div_cancel _ hsize] at hq
      exact hqp hq.symm
  · intro h order hsorts x hx
    -- those of its key begin on one page and end on it
    refine ⟨rows.countP (fun y => key x < key y) / size, ?_⟩
    generalize hcnt : rows.countP (fun y => key x < key y) = first
    have hs := hsorts (first / size)
    obtain ⟨i, hi⟩ := mem_iff_getElem?.1 (hs.1.mem_iff.2 hx)
    have hlow : first ≤ i := hcnt ▸ not_lt.1 (mt (hs.lt_iff (key x) hi).2 (lt_irrefl _))
    have hhigh := (hs.le_iff (key x) hi).1 le_rfl
    refine ⟨i, hi, le_antisymm (not_lt.1 fun hlt => ?_) (Nat.div_le_div_right hlow)⟩
    have hend : (first / size + 1) * size ≤ i :=
      (Nat.mul_le_mul_right size hlt).trans (Nat.div_mul_le_self i size)
    rcases h (key x) (first / size + 1) with hfew | hmany
    · have := Nat.lt_mul_div_succ first hsize
      grind
    · omega

end Pages
