import Mathlib.Data.List.Nodup
import Mathlib.Data.List.Pairwise
import Mathlib.Data.Set.Insert

/-!
# Rows as the versions that transactions insert and delete

A table under READ COMMITTED, version by version: an update deletes the version it finds and
inserts the next one, and either counts for other transactions from the commit on.  A version
that a transaction has inserted and deleted again still makes others wait.

* `Heap` — the versions of the rows of a table, under its unique indexes.
* `Heap.insertRow`, `Heap.update` — the statements; `Heap.commit`, `Heap.rollback`.
* `Heap.eq_of_visible`, `Heap.eq_of_committed`, `Heap.length_filter_rows_le_one` — the indexes hold
  of what is read, and of what is committed.
* `Heap.touched` — what a transaction has inserted or deleted; others leave it.
-/

set_option linter.unusedSectionVars false

namespace Mvcc

open List

universe u v w

/-- A version of a row, and the transactions at work that have inserted and deleted it. -/
structure Tuple (ι : Type u) (α : Type v) where
  row : α
  insertedBy : Option ι
  deletedBy : Option ι
  deriving DecidableEq

namespace Tuple

variable {ι : Type u} {α : Type v}

/-- The transaction reads the version. -/
def Visible (t : Tuple ι α) (p : ι) : Prop :=
  (t.insertedBy = none ∨ t.insertedBy = some p) ∧ t.deletedBy ≠ some p

/-- The transaction has inserted or deleted the version. -/
def Touched (t : Tuple ι α) (p : ι) : Prop := t.insertedBy = some p ∨ t.deletedBy = some p

/-- Only a committed version is deleted by another transaction than its own. -/
def Owned (t : Tuple ι α) : Prop :=
  ∀ p, t.deletedBy = some p → t.insertedBy = none ∨ t.insertedBy = some p

/-- The version has been deleted. -/
def delete (t : Tuple ι α) (p : ι) : Tuple ι α := { t with deletedBy := some p }

theorem Owned.delete {t : Tuple ι α} {p : ι} (h : t.Visible p) : (t.delete p).Owned := by
  intro q hq
  cases hq
  exact h.1

/-- One transaction at most has touched a version. -/
theorem Owned.touched_unique {t : Tuple ι α} {p q : ι} (h : t.Owned) (hp : t.Touched p)
    (hq : t.Touched q) : p = q := by
  have hcross : ∀ p q, t.insertedBy = some p → t.deletedBy = some q → p = q := by
    intro p q hins hdel
    rcases h q hdel with hcomm | hown
    · cases hcomm.symm.trans hins
    · exact Option.some.inj (hins.symm.trans hown)
  rcases hp with hp | hp <;> rcases hq with hq | hq
  · exact Option.some.inj (hp.symm.trans hq)
  · exact hcross p q hp hq
  · exact (hcross q p hq hp).symm
  · exact Option.some.inj (hp.symm.trans hq)

variable [DecidableEq ι]

instance (t : Tuple ι α) (p : ι) : Decidable (t.Visible p) := inferInstanceAs (Decidable (_ ∧ _))

/-- The version when its transaction has committed. -/
def commit (t : Tuple ι α) (p : ι) : Tuple ι α :=
  { t with insertedBy := if t.insertedBy = some p then none else t.insertedBy }

/-- The version when the transaction that has deleted it is rolled back. -/
def rollback (t : Tuple ι α) (p : ι) : Tuple ι α :=
  { t with deletedBy := if t.deletedBy = some p then none else t.deletedBy }

variable {t : Tuple ι α} {p q : ι}

theorem commit_of_ne (h : t.insertedBy ≠ some p) : t.commit p = t := by
  simp [commit, h]

theorem rollback_of_ne (h : t.deletedBy ≠ some p) : t.rollback p = t := by
  simp [rollback, h]

theorem Owned.commit (h : t.Owned) : (t.commit p).Owned := by
  intro q hq
  by_cases hp : t.insertedBy = some p
  · left
    simp [Tuple.commit, hp]
  · rw [commit_of_ne hp]
    exact h q hq

theorem Owned.rollback (h : t.Owned) : (t.rollback p).Owned := by
  intro q hq
  by_cases hp : t.deletedBy = some p
  · simp [Tuple.rollback, hp] at hq
  · rw [rollback_of_ne hp] at hq
    exact h q hq

end Tuple

variable {ι : Type u} {α : Type v} {β : Type w}

/-- Two rows come under the same key of a unique index. -/
def Shares (keys : α → List β) (x y : α) : Prop := ∃ b ∈ keys x, b ∈ keys y

instance [DecidableEq β] (keys : α → List β) (x y : α) : Decidable (Shares keys x y) :=
  inferInstanceAs (Decidable (∃ b ∈ keys x, b ∈ keys y))

theorem Shares.symm {keys : α → List β} {x y : α} (h : Shares keys x y) : Shares keys y x := by
  obtain ⟨b, hx, hy⟩ := h
  exact ⟨b, hy, hx⟩

/-- Two versions under one key: a transaction has deleted the one and inserted the other. -/
def Apart (keys : α → List β) (t t' : Tuple ι α) : Prop :=
  Shares keys t.row t'.row → ∃ p, (t.deletedBy = some p ∧ t'.insertedBy = some p) ∨
    (t'.deletedBy = some p ∧ t.insertedBy = some p)

theorem Apart.symm {keys : α → List β} {t t' : Tuple ι α} (h : Apart keys t t') :
    Apart keys t' t := by
  intro hs
  obtain ⟨p, hp⟩ := h hs.symm
  exact ⟨p, hp.symm⟩

instance (keys : α → List β) : Std.Symm (Apart keys (ι := ι)) := ⟨fun _ _ => Apart.symm⟩

/-- The versions of the rows of a table; `keys` are those of a row in the unique indexes. -/
structure Heap (ι : Type u) (α : Type v) {β : Type w} (keys : α → List β) where
  tuples : List (Tuple ι α)
  owned : ∀ t ∈ tuples, t.Owned
  unique : tuples.Pairwise (Apart keys)

namespace Heap

variable {keys : α → List β}

def empty : Heap ι α keys := ⟨[], by simp, List.Pairwise.nil⟩

/-- The committed rows. -/
def rows (h : Heap ι α keys) : List α :=
  (h.tuples.filter fun t => t.insertedBy.isNone).map (·.row)

theorem mem_rows {h : Heap ι α keys} {x : α} :
    x ∈ h.rows ↔ ∃ t ∈ h.tuples, t.insertedBy = none ∧ t.row = x := by
  simp [rows, and_assoc]

section Statements

variable [DecidableEq ι]

/-- The rows that a statement of the transaction reads. -/
def sees (h : Heap ι α keys) (p : ι) : List α :=
  (h.tuples.filter fun t => t.Visible p).map (·.row)

theorem mem_sees {h : Heap ι α keys} {p : ι} {x : α} :
    x ∈ h.sees p ↔ ∃ t ∈ h.tuples, t.Visible p ∧ t.row = x := by
  simp [sees, and_assoc]

/-- What a statement comes to. -/
inductive Outcome (ι : Type u) (α : Type v) {β : Type w} (keys : α → List β) where
  | waits
  /-- A unique index refuses the row. -/
  | violated
  | done (affected : ℕ) (heap : Heap ι α keys)

/-- Nothing stands in the way of a row: what has one of its keys the transaction has deleted. -/
def Free (h : Heap ι α keys) (p : ι) (x : α) : Prop :=
  ∀ t ∈ h.tuples, Shares keys x t.row → t.deletedBy = some p

instance [DecidableEq β] (h : Heap ι α keys) (p : ι) (x : α) : Decidable (h.Free p x) :=
  inferInstanceAs (Decidable (∀ t ∈ h.tuples, _))

/-- A row that is there to stay has one of the keys of the row. -/
def Blocked (h : Heap ι α keys) (p : ι) (x : α) : Prop :=
  ∃ t ∈ h.tuples, Shares keys x t.row ∧ t.Visible p ∧ t.deletedBy = none

instance [DecidableEq β] (h : Heap ι α keys) (p : ι) (x : α) : Decidable (h.Blocked p x) :=
  inferInstanceAs (Decidable (∃ t ∈ h.tuples, _))

/-- The table with one row more. -/
def add (h : Heap ι α keys) (p : ι) (x : α) (hfree : h.Free p x) : Heap ι α keys where
  tuples := ⟨x, some p, none⟩ :: h.tuples
  owned := by
    intro t ht
    rcases mem_cons.1 ht with rfl | ht
    · intro q hq
      cases hq
    · exact h.owned t ht
  unique := by
    refine pairwise_cons.2 ⟨?_, h.unique⟩
    intro t ht hs
    exact ⟨p, Or.inr ⟨hfree t ht hs, rfl⟩⟩

/-- The insertion waits for a key that an open transaction holds. -/
def insertRow [DecidableEq β] (h : Heap ι α keys) (p : ι) (x : α) : Outcome ι α keys :=
  if h.Blocked p x then .violated
  else if hfree : h.Free p x then .done 1 (h.add p x hfree)
  else .waits

/-- The versions that an update finds. -/
def matched (h : Heap ι α keys) (p : ι) (where' : α → Prop) [DecidablePred where'] :
    List (Tuple ι α) :=
  h.tuples.filter fun t => t.Visible p ∧ where' t.row

/-- A version that the update finds is deleted. -/
def mark (p : ι) (where' : α → Prop) [DecidablePred where'] (t : Tuple ι α) : Tuple ι α :=
  if t.Visible p ∧ where' t.row then t.delete p else t

section Unique

variable {h : Heap ι α keys} {p : ι} {where' : α → Prop} [DecidablePred where'] {t t' : Tuple ι α}

theorem mem_matched : t ∈ h.matched p where' ↔ t ∈ h.tuples ∧ t.Visible p ∧ where' t.row := by
  simp [matched]

@[simp] theorem row_mark : (mark p where' t).row = t.row := by
  unfold mark
  split <;> rfl

@[simp] theorem insertedBy_mark : (mark p where' t).insertedBy = t.insertedBy := by
  unfold mark
  split <;> rfl

theorem mark_of_not (hnot : ¬(t.Visible p ∧ where' t.row)) : mark p where' t = t := if_neg hnot

theorem mark_of_match (hmatch : t.Visible p ∧ where' t.row) : mark p where' t = t.delete p :=
  if_pos hmatch

/-- A version under a key of one that the transaction reads and nobody deletes is deleted by the
transaction. -/
theorem deletedBy_of_shares (hapart : Apart keys t t') (hs : Shares keys t.row t'.row)
    (hvis : t.Visible p) (hnone : t.deletedBy = none) : t'.deletedBy = some p := by
  obtain ⟨_, ⟨hdel, -⟩ | ⟨hdel, hins⟩⟩ := hapart hs
  · cases hnone.symm.trans hdel
  · rcases hvis.1 with hcomm | hown
    · cases hcomm.symm.trans hins
    · rw [hdel, ← hins, hown]

theorem apart_of_mem (h : Heap ι α keys) (ht : t ∈ h.tuples) (ht' : t' ∈ h.tuples) (hne : t ≠ t') :
    Apart keys t t' :=
  h.unique.forall ht ht' hne

section

variable (hfree : ∀ t ∈ h.matched p where', t.deletedBy = none)
include hfree

/-- Versions stay apart when those that are found are deleted. -/
theorem apart_mark (ht : t ∈ h.tuples) (ht' : t' ∈ h.tuples) (hapart : Apart keys t t') :
    Apart keys (mark p where' t) (mark p where' t') := by
  have hkept : ∀ u ∈ h.tuples, ∀ q, u.deletedBy = some q →
      (mark p where' u).deletedBy = some q := by
    intro u hu q hq
    rw [mark_of_not]
    · exact hq
    · intro hmatch
      cases (hfree u (mem_matched.2 ⟨hu, hmatch⟩)).symm.trans hq
  intro hs
  rw [row_mark, row_mark] at hs
  obtain ⟨q, hq⟩ := hapart hs
  refine ⟨q, ?_⟩
  rw [insertedBy_mark, insertedBy_mark]
  exact hq.imp (fun hq => ⟨hkept t ht q hq.1, hq.2⟩) fun hq => ⟨hkept t' ht' q hq.1, hq.2⟩

/-- The next version of a row is apart from what is there. -/
theorem apart_next {x : α} (hkeys : keys x ⊆ keys t.row) (ht : t ∈ h.matched p where')
    (ht' : t' ∈ h.tuples) : Apart keys ⟨x, some p, none⟩ (mark p where' t') := by
  rintro ⟨b, hb, hb'⟩
  rw [row_mark] at hb'
  obtain ⟨hmem, hmatch⟩ := mem_matched.1 ht
  refine ⟨p, Or.inr ⟨?_, rfl⟩⟩
  by_cases hmatch' : t'.Visible p ∧ where' t'.row
  · rw [mark_of_match hmatch']
    rfl
  · rw [mark_of_not hmatch']
    have hne : t ≠ t' := by
      rintro rfl
      exact hmatch' hmatch
    exact deletedBy_of_shares (h.apart_of_mem hmem ht' hne) ⟨b, hkeys hb, hb'⟩ hmatch.1 (hfree t ht)

end

end Unique

/-- The table with the next versions of the rows that an update finds. -/
def replace (h : Heap ι α keys) (p : ι) (where' : α → Prop) [DecidablePred where'] (f : α → α)
    (hkeys : ∀ x, keys (f x) ⊆ keys x) (hfree : ∀ t ∈ h.matched p where', t.deletedBy = none) :
    Heap ι α keys where
  tuples := (h.matched p where').map (fun t => ⟨f t.row, some p, none⟩) ++
    h.tuples.map (mark p where')
  owned := by
    intro t ht
    rcases mem_append.1 ht with ht | ht
    · obtain ⟨t, -, rfl⟩ := mem_map.1 ht
      intro q hq
      cases hq
    · obtain ⟨t, hmem, rfl⟩ := mem_map.1 ht
      by_cases hmatch : t.Visible p ∧ where' t.row
      · rw [mark_of_match hmatch]
        exact Tuple.Owned.delete hmatch.1
      · rw [mark_of_not hmatch]
        exact h.owned t hmem
  unique := by
    refine pairwise_append.2 ⟨?_, ?_, ?_⟩
    · refine pairwise_map.2 ((h.unique.sublist filter_sublist).imp_of_mem ?_)
      rintro t t' ht ht' hapart ⟨b, hb, hb'⟩
      have hdel := deletedBy_of_shares hapart ⟨b, hkeys _ hb, hkeys _ hb'⟩
        (mem_matched.1 ht).2.1 (hfree t ht)
      cases (hfree t' ht').symm.trans hdel
    · refine pairwise_map.2 (h.unique.imp_of_mem ?_)
      exact fun ht ht' hapart => apart_mark hfree ht ht' hapart
    · intro a ha b hb
      obtain ⟨t, ht, rfl⟩ := mem_map.1 ha
      obtain ⟨t', ht', rfl⟩ := mem_map.1 hb
      exact apart_next hfree (hkeys t.row) ht ht'

/-- `UPDATE … SET f`, of columns that put no row under a new key: it waits for the rows that
another transaction has deleted. -/
def update (h : Heap ι α keys) (p : ι) (where' : α → Prop) [DecidablePred where'] (f : α → α)
    (hkeys : ∀ x, keys (f x) ⊆ keys x) : Outcome ι α keys :=
  if hfree : ∀ t ∈ h.matched p where', t.deletedBy = none then
    .done (h.matched p where').length (h.replace p where' f hkeys hfree)
  else .waits

/-- The versions that are kept stay apart when what parts them is kept. -/
theorem pairwise_apart (h : Heap ι α keys) {kept : Tuple ι α → Bool} {f : Tuple ι α → Tuple ι α}
    (hrow : ∀ t, (f t).row = t.row)
    (hapart : ∀ u v q, kept u = true → kept v = true → u.deletedBy = some q →
      v.insertedBy = some q → (f u).deletedBy = some q ∧ (f v).insertedBy = some q) :
    ((h.tuples.filter kept).map f).Pairwise (Apart keys) := by
  refine pairwise_map.2 ((h.unique.sublist filter_sublist).imp_of_mem ?_)
  intro t t' ht ht' hbef hs
  have hkept := (mem_filter.1 ht).2
  have hkept' := (mem_filter.1 ht').2
  rw [hrow, hrow] at hs
  obtain ⟨q, hq⟩ := hbef hs
  exact ⟨q, hq.imp (fun hq => hapart t t' q hkept hkept' hq.1 hq.2)
    fun hq => hapart t' t q hkept' hkept hq.1 hq.2⟩

/-- The end of a transaction that keeps what it has written. -/
def commit (h : Heap ι α keys) (p : ι) : Heap ι α keys where
  tuples := (h.tuples.filter fun t => t.deletedBy ≠ some p).map (·.commit p)
  owned := by
    intro t ht
    obtain ⟨t, hmem, rfl⟩ := mem_map.1 ht
    exact (h.owned t (mem_filter.1 hmem).1).commit
  unique := by
    refine h.pairwise_apart (fun _ => rfl) fun u v q hkept _ hdel hins => ⟨hdel, ?_⟩
    rw [Tuple.commit_of_ne]
    · exact hins
    · rw [hins, ← hdel]
      simpa using hkept

/-- The end of a transaction that drops what it has written. -/
def rollback (h : Heap ι α keys) (p : ι) : Heap ι α keys where
  tuples := (h.tuples.filter fun t => t.insertedBy ≠ some p).map (·.rollback p)
  owned := by
    intro t ht
    obtain ⟨t, hmem, rfl⟩ := mem_map.1 ht
    exact (h.owned t (mem_filter.1 hmem).1).rollback
  unique := by
    refine h.pairwise_apart (fun _ => rfl) fun u v q _ hkept hdel hins => ⟨?_, hins⟩
    rw [Tuple.rollback_of_ne]
    · exact hdel
    · rw [hdel, ← hins]
      simpa using hkept

/-! ## The unique indexes -/

section Indexes

variable {h : Heap ι α keys} {p q : ι} {x y : α} {t t' : Tuple ι α}

/-- Of the versions under one key the transaction reads one. -/
theorem eq_of_visible (ht : t ∈ h.tuples) (ht' : t' ∈ h.tuples) (hs : Shares keys t.row t'.row)
    (hvis : t.Visible p) (hvis' : t'.Visible p) : t = t' := by
  by_contra hne
  obtain ⟨_, ⟨hdel, hins⟩ | ⟨hdel, hins⟩⟩ := h.apart_of_mem ht ht' hne hs
  · rcases hvis'.1 with hnone | hown
    · cases hnone.symm.trans hins
    · exact hvis.2 (by rw [hdel, ← hins, hown])
  · rcases hvis.1 with hnone | hown
    · cases hnone.symm.trans hins
    · exact hvis'.2 (by rw [hdel, ← hins, hown])

/-- Of the versions under one key one is committed. -/
theorem eq_of_committed (ht : t ∈ h.tuples) (ht' : t' ∈ h.tuples) (hs : Shares keys t.row t'.row)
    (hcomm : t.insertedBy = none) (hcomm' : t'.insertedBy = none) : t = t' := by
  by_contra hne
  obtain ⟨_, ⟨-, hins⟩ | ⟨-, hins⟩⟩ := h.apart_of_mem ht ht' hne hs
  · cases hcomm'.symm.trans hins
  · cases hcomm.symm.trans hins

/-- Of the rows that come under one key there is at most one. -/
theorem length_filter_rows_le_one (h : Heap ι α keys) {where' : α → Prop} [DecidablePred where']
    (hshares : ∀ x ∈ h.rows, ∀ y ∈ h.rows, where' x → where' y → Shares keys x y) :
    (h.rows.filter fun x => where' x).length ≤ 1 := by
  have hpairwise : (h.rows.filter fun x => where' x).Pairwise fun _ _ => False := by
    rw [rows, filter_map, pairwise_map]
    refine ((h.unique.sublist filter_sublist).sublist filter_sublist).imp_of_mem ?_
    intro t t' ht ht' hapart
    obtain ⟨hmem, hwhere⟩ := mem_filter.1 ht
    obtain ⟨hmem', hwhere'⟩ := mem_filter.1 ht'
    obtain ⟨hin, hcomm⟩ := mem_filter.1 hmem
    obtain ⟨hin', hcomm'⟩ := mem_filter.1 hmem'
    have hnone := Option.isNone_iff_eq_none.1 hcomm
    have hnone' := Option.isNone_iff_eq_none.1 hcomm'
    obtain ⟨_, ⟨-, hins⟩ | ⟨-, hins⟩⟩ := hapart
      (hshares t.row (mem_rows.2 ⟨t, hin, hnone, rfl⟩) t'.row (mem_rows.2 ⟨t', hin', hnone', rfl⟩)
        (by simpa using hwhere) (by simpa using hwhere'))
    · cases hnone'.symm.trans hins
    · cases hnone.symm.trans hins
  generalize (h.rows.filter fun x => where' x) = l at hpairwise
  match l, hpairwise with
  | [], _ => exact Nat.zero_le 1
  | [_], _ => exact le_rfl
  | _ :: y :: _, hpairwise => exact ((pairwise_cons.1 hpairwise).1 y (by simp)).elim

end Indexes

/-! ## What a statement does -/

section Effects

variable {h h' : Heap ι α keys} {p q : ι} {x y : α} {n : ℕ} {t u : Tuple ι α} {where' : α → Prop}
  [DecidablePred where'] {f : α → α} {hkeys : ∀ x, keys (f x) ⊆ keys x}

theorem insertRow_eq_done [DecidableEq β] (hins : h.insertRow p x = .done n h') :
    ∃ hfree : h.Free p x, h' = h.add p x hfree := by
  unfold insertRow at hins
  split_ifs at hins with hblocked hfree
  cases hins
  exact ⟨hfree, rfl⟩

theorem insertRow_eq_violated [DecidableEq β] (hins : h.insertRow p x = .violated) :
    h.Blocked p x := by
  unfold insertRow at hins
  split_ifs at hins with hblocked hfree
  exact hblocked

theorem update_eq_done (hupd : h.update p where' f hkeys = .done n h') :
    n = (h.matched p where').length ∧ ∃ hnone, h' = h.replace p where' f hkeys hnone := by
  unfold update at hupd
  split_ifs at hupd with hnone
  cases hupd
  exact ⟨rfl, hnone, rfl⟩

theorem update_ne_violated : h.update p where' f hkeys ≠ .violated := by
  unfold update
  split_ifs <;> rintro ⟨⟩

theorem mem_add (hfree : h.Free p x) :
    t ∈ (h.add p x hfree).tuples ↔ t = ⟨x, some p, none⟩ ∨ t ∈ h.tuples :=
  mem_cons

theorem mem_replace (hkeys : ∀ x, keys (f x) ⊆ keys x)
    (hnone : ∀ t ∈ h.matched p where', t.deletedBy = none) :
    t ∈ (h.replace p where' f hkeys hnone).tuples ↔
    (∃ u ∈ h.matched p where', ⟨f u.row, some p, none⟩ = t) ∨
      ∃ u ∈ h.tuples, mark p where' u = t := by
  simp only [replace, mem_append, mem_map]

theorem mem_commit : t ∈ (h.commit p).tuples ↔
    ∃ u ∈ h.tuples, u.deletedBy ≠ some p ∧ u.commit p = t := by
  simp only [commit, mem_map, mem_filter, decide_eq_true_eq, and_assoc]

theorem mem_rollback : t ∈ (h.rollback p).tuples ↔
    ∃ u ∈ h.tuples, u.insertedBy ≠ some p ∧ u.rollback p = t := by
  simp only [rollback, mem_map, mem_filter, decide_eq_true_eq, and_assoc]

theorem mem_rows_add (hfree : h.Free p x) : y ∈ (h.add p x hfree).rows ↔ y ∈ h.rows := Iff.rfl

theorem mem_rows_replace (hkeys : ∀ x, keys (f x) ⊆ keys x)
    (hnone : ∀ t ∈ h.matched p where', t.deletedBy = none) :
    y ∈ (h.replace p where' f hkeys hnone).rows ↔ y ∈ h.rows := by
  rw [mem_rows, mem_rows]
  constructor
  · rintro ⟨t, ht, hcomm, hrow⟩
    rcases (mem_replace hkeys hnone).1 ht with ⟨u, -, rfl⟩ | ⟨u, hu, rfl⟩
    · cases hcomm
    rw [insertedBy_mark] at hcomm
    rw [row_mark] at hrow
    exact ⟨u, hu, hcomm, hrow⟩
  · rintro ⟨t, ht, hcomm, hrow⟩
    refine ⟨mark p where' t, (mem_replace hkeys hnone).2 (Or.inr ⟨t, ht, rfl⟩), ?_, ?_⟩
    · rw [insertedBy_mark, hcomm]
    · rw [row_mark, hrow]

/-- What the transaction has read at its commit is committed. -/
theorem mem_rows_commit : y ∈ (h.commit p).rows ↔ y ∈ h.sees p := by
  rw [mem_rows, mem_sees]
  constructor
  · rintro ⟨t, ht, hcomm, hrow⟩
    obtain ⟨u, hu, hdel, rfl⟩ := mem_commit.1 ht
    refine ⟨u, hu, ⟨?_, hdel⟩, hrow⟩
    by_cases hown : u.insertedBy = some p
    · exact Or.inr hown
    · rw [Tuple.commit_of_ne hown] at hcomm
      exact Or.inl hcomm
  · rintro ⟨t, ht, ⟨hins, hdel⟩, hrow⟩
    refine ⟨t.commit p, mem_commit.2 ⟨t, ht, hdel, rfl⟩, ?_, hrow⟩
    rcases hins with hcomm | hown
    · simp [Tuple.commit, hcomm]
    · simp [Tuple.commit, hown]

theorem mem_rows_rollback : y ∈ (h.rollback p).rows ↔ y ∈ h.rows := by
  rw [mem_rows, mem_rows]
  constructor
  · rintro ⟨t, ht, hcomm, hrow⟩
    obtain ⟨u, hu, -, rfl⟩ := mem_rollback.1 ht
    exact ⟨u, hu, hcomm, hrow⟩
  · rintro ⟨t, ht, hcomm, hrow⟩
    refine ⟨t.rollback p, mem_rollback.2 ⟨t, ht, ?_, rfl⟩, hcomm, hrow⟩
    rw [hcomm]
    exact (Option.some_ne_none p).symm

/-! ## What a transaction has written -/

/-- The versions that a transaction has inserted or deleted. -/
def touched (h : Heap ι α keys) (p : ι) : Set (Tuple ι α) := {t | t ∈ h.tuples ∧ t.Touched p}

theorem mem_touched : t ∈ h.touched p ↔ t ∈ h.tuples ∧ t.Touched p := Iff.rfl

theorem not_touched (hvis : t.Visible p) (hne : q ≠ p)
    (hdel : t.deletedBy = none) : ¬t.Touched q := by
  rintro (hins | hdel')
  · rcases hvis.1 with hcomm | hown
    · cases hcomm.symm.trans hins
    · exact hne (Option.some.inj (hins.symm.trans hown))
  · cases hdel.symm.trans hdel'

theorem touched_add (hfree : h.Free p x) :
    (h.add p x hfree).touched p = insert ⟨x, some p, none⟩ (h.touched p) := by
  ext t
  simp only [mem_touched, Set.mem_insert_iff, mem_add hfree]
  constructor
  · rintro ⟨rfl | ht, htouch⟩
    · exact Or.inl rfl
    · exact Or.inr ⟨ht, htouch⟩
  · rintro (rfl | ⟨ht, htouch⟩)
    · exact ⟨Or.inl rfl, Or.inl rfl⟩
    · exact ⟨Or.inr ht, htouch⟩

theorem touched_add_of_ne (hfree : h.Free p x) (hne : q ≠ p) :
    (h.add p x hfree).touched q = h.touched q := by
  ext t
  simp only [mem_touched, mem_add hfree]
  constructor
  · rintro ⟨rfl | ht, htouch⟩
    · rcases htouch with hins | hdel
      · exact absurd (Option.some.inj hins).symm hne
      · cases hdel
    · exact ⟨ht, htouch⟩
  · rintro ⟨ht, htouch⟩
    exact ⟨Or.inr ht, htouch⟩

section

variable (hnone : ∀ t ∈ h.matched p where', t.deletedBy = none)
include hnone

/-- An update that has found one version. -/
theorem touched_replace (hkeys : ∀ x, keys (f x) ⊆ keys x)
    (hone : ∀ t, t ∈ h.matched p where' ↔ t = u) :
    (h.replace p where' f hkeys hnone).touched p =
      insert ⟨f u.row, some p, none⟩ (insert (u.delete p) (h.touched p \ {u})) := by
  have hu := mem_matched.1 ((hone u).2 rfl)
  have hother : ∀ t ∈ h.tuples, t ≠ u → mark p where' t = t :=
    fun t ht hne => mark_of_not fun hmatch => hne ((hone t).1 (mem_matched.2 ⟨ht, hmatch⟩))
  ext t
  simp only [mem_touched, Set.mem_insert_iff, Set.mem_sdiff, Set.mem_singleton_iff,
    mem_replace hkeys hnone]
  constructor
  · rintro ⟨⟨v, hv, rfl⟩ | ⟨v, hv, rfl⟩, htouch⟩
    · rw [(hone v).1 hv]
      exact Or.inl rfl
    · by_cases hvu : v = u
      · rw [hvu, mark_of_match hu.2]
        exact Or.inr (Or.inl rfl)
      · rw [hother v hv hvu] at htouch ⊢
        exact Or.inr (Or.inr ⟨⟨hv, htouch⟩, hvu⟩)
  · rintro (rfl | rfl | ⟨⟨ht, htouch⟩, hne⟩)
    · exact ⟨Or.inl ⟨u, (hone u).2 rfl, rfl⟩, Or.inl rfl⟩
    · exact ⟨Or.inr ⟨u, hu.1, mark_of_match hu.2⟩, Or.inr rfl⟩
    · exact ⟨Or.inr ⟨t, ht, hother t ht hne⟩, htouch⟩

theorem touched_replace_of_ne (hkeys : ∀ x, keys (f x) ⊆ keys x) (hne : q ≠ p) :
    (h.replace p where' f hkeys hnone).touched q = h.touched q := by
  have hmark : ∀ t ∈ h.tuples, t.Visible p ∧ where' t.row →
      ¬t.Touched q ∧ ¬(mark p where' t).Touched q := by
    intro t ht hmatch
    have hdel := hnone t (mem_matched.2 ⟨ht, hmatch⟩)
    have hnot : ¬t.Touched q := not_touched hmatch.1 hne hdel
    refine ⟨hnot, ?_⟩
    rw [mark_of_match hmatch]
    rintro (hins | hdel')
    · exact hnot (Or.inl hins)
    · exact hne (Option.some.inj hdel').symm
  ext t
  simp only [mem_touched, mem_replace hkeys hnone]
  constructor
  · rintro ⟨⟨v, -, rfl⟩ | ⟨v, hv, rfl⟩, htouch⟩
    · rcases htouch with hins | hdel
      · exact absurd (Option.some.inj hins).symm hne
      · cases hdel
    · by_cases hmatch : v.Visible p ∧ where' v.row
      · exact absurd htouch (hmark v hv hmatch).2
      · rw [mark_of_not hmatch] at htouch ⊢
        exact ⟨hv, htouch⟩
  · rintro ⟨ht, htouch⟩
    refine ⟨Or.inr ⟨t, ht, mark_of_not ?_⟩, htouch⟩
    exact fun hmatch => (hmark t ht hmatch).1 htouch

end

theorem touched_commit : (h.commit p).touched p = ∅ := by
  ext t
  simp only [mem_touched, mem_commit, Set.mem_empty_iff_false, iff_false]
  rintro ⟨⟨u, -, hdel, rfl⟩, hins | hdel'⟩
  · by_cases hown : u.insertedBy = some p
    · simp [Tuple.commit, hown] at hins
    · rw [Tuple.commit_of_ne hown] at hins
      exact hown hins
  · exact hdel hdel'

/-- What another transaction has touched its end leaves. -/
theorem kept_of_touched (ht : t ∈ h.tuples) (htouch : t.Touched q) (hne : q ≠ p) :
    (t.deletedBy ≠ some p ∧ t.commit p = t) ∧ t.insertedBy ≠ some p ∧ t.rollback p = t := by
  have hins : t.insertedBy ≠ some p :=
    fun hp => hne ((h.owned t ht).touched_unique htouch (Or.inl hp))
  have hdel : t.deletedBy ≠ some p :=
    fun hp => hne ((h.owned t ht).touched_unique htouch (Or.inr hp))
  exact ⟨⟨hdel, Tuple.commit_of_ne hins⟩, hins, Tuple.rollback_of_ne hdel⟩

theorem touched_commit_of_ne (hne : q ≠ p) : (h.commit p).touched q = h.touched q := by
  ext t
  simp only [mem_touched, mem_commit]
  constructor
  · rintro ⟨⟨u, hu, -, rfl⟩, htouch⟩
    have htouch' : u.Touched q := by
      rcases htouch with hins | hdel
      · by_cases hown : u.insertedBy = some p
        · simp [Tuple.commit, hown] at hins
        · rw [Tuple.commit_of_ne hown] at hins
          exact Or.inl hins
      · exact Or.inr hdel
    rw [(kept_of_touched hu htouch' hne).1.2]
    exact ⟨hu, htouch'⟩
  · rintro ⟨ht, htouch⟩
    obtain ⟨hdel, heq⟩ := (kept_of_touched ht htouch hne).1
    exact ⟨⟨t, ht, hdel, heq⟩, htouch⟩

theorem touched_rollback : (h.rollback p).touched p = ∅ := by
  ext t
  simp only [mem_touched, mem_rollback, Set.mem_empty_iff_false, iff_false]
  rintro ⟨⟨u, -, hins, rfl⟩, hins' | hdel⟩
  · exact hins hins'
  · by_cases hown : u.deletedBy = some p
    · simp [Tuple.rollback, hown] at hdel
    · rw [Tuple.rollback_of_ne hown] at hdel
      exact hown hdel

theorem touched_rollback_of_ne (hne : q ≠ p) : (h.rollback p).touched q = h.touched q := by
  ext t
  simp only [mem_touched, mem_rollback]
  constructor
  · rintro ⟨⟨u, hu, -, rfl⟩, htouch⟩
    have htouch' : u.Touched q := by
      rcases htouch with hins | hdel
      · exact Or.inl hins
      · by_cases hown : u.deletedBy = some p
        · simp [Tuple.rollback, hown] at hdel
        · rw [Tuple.rollback_of_ne hown] at hdel
          exact Or.inr hdel
    rw [(kept_of_touched hu htouch' hne).2.2]
    exact ⟨hu, htouch'⟩
  · rintro ⟨ht, htouch⟩
    obtain ⟨hins, heq⟩ := (kept_of_touched ht htouch hne).2
    exact ⟨⟨t, ht, hins, heq⟩, htouch⟩

/-- A transaction reads what is committed and what it has not deleted, and its own versions. -/
theorem mem_sees_iff : y ∈ h.sees p ↔
    (∃ t ∈ h.tuples, t.insertedBy = none ∧ t ∉ h.touched p ∧ t.row = y) ∨
      ∃ t ∈ h.touched p, t.deletedBy ≠ some p ∧ t.row = y := by
  rw [mem_sees]
  constructor
  · rintro ⟨t, ht, ⟨hins, hdel⟩, hrow⟩
    rcases hins with hcomm | hown
    · refine Or.inl ⟨t, ht, hcomm, ?_, hrow⟩
      rintro ⟨-, hins | hdel'⟩
      · cases hcomm.symm.trans hins
      · exact hdel hdel'
    · exact Or.inr ⟨t, ⟨ht, Or.inl hown⟩, hdel, hrow⟩
  · rintro (⟨t, ht, hcomm, htouch, hrow⟩ | ⟨t, ⟨ht, htouch⟩, hdel, hrow⟩)
    · exact ⟨t, ht, ⟨Or.inl hcomm, fun hdel => htouch ⟨ht, Or.inr hdel⟩⟩, hrow⟩
    · exact ⟨t, ht, ⟨Or.inr (htouch.resolve_right hdel), hdel⟩, hrow⟩

end Effects

end Statements

end Heap

end Mvcc
