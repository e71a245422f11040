import Mathlib.Algebra.Order.BigOperators.Group.List
import Mathlib.Algebra.Order.Ring.Int
import Mathlib.Data.List.Induction
import Mathlib.Data.List.Perm.Subperm
import Mathlib.Data.List.Nodup
import Mathlib.Data.List.Pairwise

/-!
# At-least-once delivery

A consumer sees each event of a set at least once, in any order and any number of
times.  What it should end up with depends on the set only, so a proof keeps the
distinct events seen so far beside the consumer's state.

* `remember x seen` — the distinct events after one more delivery.
* `sum_le_of_subset` — the distinct events never weigh more than the set.
* `sum_eq_of_covers` — once every event was seen they weigh as much.
* `insertOnce`, `receive`, `receiveAll` — a table that takes one row of each key.
* `insertAll` — several rows at once; `mem_insertAll_keys`, `nodup_insertAll`.
* `Separates` — the keys tell the events apart; `receiveAll_perm_iff`,
  `receiveAll_owners_perm_iff` — exactly then every delivery leaves one row of each event.
-/

namespace Delivery

open List

universe u

variable {α : Type u}

/-- The distinct events seen, after `x` was delivered. -/
def remember [DecidableEq α] (x : α) (seen : List α) : List α :=
  if x ∈ seen then seen else seen ++ [x]

section Remember

variable [DecidableEq α] {x y : α} {seen : List α}

theorem remember_of_mem (h : x ∈ seen) : remember x seen = seen := if_pos h

theorem remember_of_notMem (h : x ∉ seen) : remember x seen = seen ++ [x] := if_neg h

theorem mem_remember : y ∈ remember x seen ↔ y ∈ seen ∨ y = x := by
  by_cases h : x ∈ seen
  · rw [remember_of_mem h]
    constructor
    · exact Or.inl
    · rintro (hy | rfl)
      · exact hy
      · exact h
  · simp [remember_of_notMem h]

theorem nodup_remember (h : seen.Nodup) : (remember x seen).Nodup := by
  by_cases hx : x ∈ seen
  · rwa [remember_of_mem hx]
  · rw [remember_of_notMem hx, ← concat_eq_append]
    exact h.concat hx

/-- Remembering adds an event at most. -/
theorem sum_remember (f : α → ℤ) :
    ((remember x seen).map f).sum = (seen.map f).sum + if x ∈ seen then 0 else f x := by
  by_cases h : x ∈ seen
  · simp [remember_of_mem h, h]
  · simp [remember_of_notMem h, h]

end Remember

/-- Distinct events of a set weigh at most as much as the set. -/
theorem sum_le_of_subset {seen all : List α} {f : α → ℤ} (hseen : seen.Nodup)
    (hsub : ∀ x ∈ seen, x ∈ all) (hf : ∀ x ∈ all, 0 ≤ f x) :
    (seen.map f).sum ≤ (all.map f).sum := by
  obtain ⟨_, hperm, hpart⟩ := subperm_of_subset hseen hsub
  rw [← (hperm.map f).sum_eq]
  refine (hpart.map f).sum_le_sum ?_
  intro y hy
  obtain ⟨x, hx, rfl⟩ := mem_map.1 hy
  exact hf x hx

/-- Once every event of the set has been seen, the distinct events weigh as much as
the set. -/
theorem sum_eq_of_covers {seen all : List α} {f : α → ℤ} (hseen : seen.Nodup) (hall : all.Nodup)
    (hsub : ∀ x ∈ seen, x ∈ all) (hcovers : ∀ x ∈ all, x ∈ seen) :
    (seen.map f).sum = (all.map f).sum := by
  have hperm : seen.Perm all := by
    refine (perm_ext_iff_of_nodup hseen hall).2 ?_
    intro x
    exact ⟨hsub x, hcovers x⟩
  exact (hperm.map f).sum_eq

/-! ## One row of a key -/

section Once

variable {ε ρ κ : Type*} [DecidableEq κ]

/-- `INSERT … ON CONFLICT DO NOTHING`. -/
def insertOnce (key : ρ → κ) (table : List ρ) (row : ρ) : List ρ :=
  if ∃ r ∈ table, key r = key row then table else table ++ [row]

/-- A consumer that writes at most one row of an event. -/
def receive (key : ρ → κ) (rowOf : ε → Option ρ) (table : List ρ) (e : ε) : List ρ :=
  match rowOf e with
  | none => table
  | some row => insertOnce key table row

/-- The table after deliveries. -/
def receiveAll (key : ρ → κ) (rowOf : ε → Option ρ) (deliveries : List ε) : List ρ :=
  deliveries.foldl (receive key rowOf) []

/-- No two events have rows of one key. -/
def Separates (key : ρ → κ) (rowOf : ε → Option ρ) (events : List ε) : Prop :=
  ∀ e ∈ events, ∀ e' ∈ events, ∀ r ∈ rowOf e, ∀ r' ∈ rowOf e', key r = key r' → e = e'

variable {key : ρ → κ} {rowOf : ε → Option ρ} {events deliveries : List ε} {e : ε}
  {table rows : List ρ} {r : ρ}

theorem receiveAll_append :
    receiveAll key rowOf (deliveries ++ [e]) =
      receive key rowOf (receiveAll key rowOf deliveries) e := by
  rw [receiveAll, foldl_append]
  rfl

theorem nodup_insertOnce (h : (table.map key).Nodup) (row : ρ) :
    ((insertOnce key table row).map key).Nodup := by
  rw [insertOnce]
  split
  · exact h
  · rename_i hnew
    rw [map_append, nodup_append]
    refine ⟨h, nodup_singleton _, ?_⟩
    intro k hk k' hk' heq
    obtain ⟨r, hr, rfl⟩ := mem_map.1 hk
    rw [map_singleton, mem_singleton] at hk'
    exact hnew ⟨r, hr, heq.trans hk'⟩

/-- A key is of one row. -/
theorem nodup_receiveAll (key : ρ → κ) (rowOf : ε → Option ρ) (deliveries : List ε) :
    ((receiveAll key rowOf deliveries).map key).Nodup := by
  induction deliveries using List.reverseRecOn with
  | nil => exact nodup_nil
  | append_singleton deliveries e ih =>
    rw [receiveAll_append, receive]
    split
    · exact ih
    · exact nodup_insertOnce ih _

theorem receiveAll_sublist (key : ρ → κ) (rowOf : ε → Option ρ) (deliveries : List ε) :
    (receiveAll key rowOf deliveries).Sublist (deliveries.filterMap rowOf) := by
  induction deliveries using List.reverseRecOn with
  | nil => exact List.Sublist.refl _
  | append_singleton deliveries e ih =>
    rw [receiveAll_append, filterMap_append, receive]
    split
    · exact ih.trans (sublist_append_left ..)
    · rename_i row hrow
      rw [filterMap_cons_some hrow, insertOnce]
      split
      · exact ih.trans (sublist_append_left ..)
      · exact ih.append (List.Sublist.refl _)

/-- The rows are those of delivered events, and every delivered event's key is there. -/
theorem mem_receiveAll (hsep : Separates key rowOf deliveries) :
    r ∈ receiveAll key rowOf deliveries ↔ ∃ e ∈ deliveries, r ∈ rowOf e := by
  induction deliveries using List.reverseRecOn generalizing r with
  | nil => simp [receiveAll]
  | append_singleton deliveries e ih =>
    have hbef : Separates key rowOf deliveries := fun x hx y hy =>
      hsep x (mem_append_left _ hx) y (mem_append_left _ hy)
    have hex : (∃ x ∈ deliveries ++ [e], r ∈ rowOf x) ↔
        (∃ x ∈ deliveries, r ∈ rowOf x) ∨ r ∈ rowOf e := by
      simp [or_and_right, exists_or]
    rw [receiveAll_append, hex, ← ih hbef, receive]
    split
    · rename_i hrow
      simp [hrow]
    · rename_i row hrow
      rw [hrow, Option.mem_some, insertOnce]
      split
      · rename_i hthere
        -- the row that is there is the event's own, delivered before
        obtain ⟨r', hr', hkey⟩ := hthere
        obtain ⟨x, hx, hrx⟩ := (ih hbef).1 hr'
        have hsame : x = e := hsep x (mem_append_left _ hx) e
          (mem_append_right _ (mem_singleton_self e)) r' hrx row hrow hkey
        subst hsame
        have hrow' : r' = row := Option.some.inj (hrx.symm.trans hrow)
        constructor
        · exact Or.inl
        · rintro (hr | rfl)
          · exact hr
          · exact hrow' ▸ hr'
      · rw [mem_append, mem_singleton, eq_comm (a := r)]

/-- `INSERT … ON CONFLICT DO NOTHING` of several rows. -/
def insertAll (key : ρ → κ) (table rows : List ρ) : List ρ := rows.foldl (insertOnce key) table

theorem insertAll_append {rows' : List ρ} :
    insertAll key table (rows ++ rows') = insertAll key (insertAll key table rows) rows' :=
  foldl_append

/-- Rows whose keys are there change nothing. -/
theorem insertAll_of_mem (h : ∀ r ∈ rows, key r ∈ table.map key) :
    insertAll key table rows = table := by
  induction rows with
  | nil => rfl
  | cons row rows ih =>
    obtain ⟨r, hr, hkey⟩ := mem_map.1 (h row mem_cons_self)
    rw [insertAll, foldl_cons, insertOnce, if_pos ⟨r, hr, hkey⟩]
    exact ih fun r hr => h r (mem_cons_of_mem _ hr)

theorem mem_of_mem_insertOnce {row : ρ} (h : r ∈ insertOnce key table row) :
    r ∈ table ∨ r = row := by
  rw [insertOnce] at h
  split at h
  · exact Or.inl h
  · exact (mem_append.1 h).imp_right mem_singleton.1

theorem mem_of_mem_insertAll (h : r ∈ insertAll key table rows) : r ∈ table ∨ r ∈ rows := by
  induction rows generalizing table with
  | nil => exact Or.inl h
  | cons row rows ih =>
    rcases ih h with hr | hr
    · rcases mem_of_mem_insertOnce hr with hr | rfl
      · exact Or.inl hr
      · exact Or.inr mem_cons_self
    · exact Or.inr (mem_cons_of_mem _ hr)

theorem mem_insertOnce_keys {row : ρ} {k : κ} :
    k ∈ (insertOnce key table row).map key ↔ k ∈ table.map key ∨ k = key row := by
  rw [insertOnce]
  split
  · rename_i hthere
    constructor
    · exact Or.inl
    · rintro (hk | rfl)
      · exact hk
      · exact mem_map.2 hthere
  · rw [map_append, mem_append, map_singleton, mem_singleton]

/-- The keys of the table are those that were there or came. -/
theorem mem_insertAll_keys {k : κ} :
    k ∈ (insertAll key table rows).map key ↔ k ∈ table.map key ∨ k ∈ rows.map key := by
  induction rows generalizing table with
  | nil => simp [insertAll]
  | cons row rows ih =>
    rw [insertAll, foldl_cons, ← insertAll, ih, mem_insertOnce_keys, map_cons,
      mem_cons, or_assoc]

theorem nodup_insertAll (h : (table.map key).Nodup) :
    ((insertAll key table rows).map key).Nodup := by
  induction rows generalizing table with
  | nil => exact h
  | cons row rows ih => exact ih (nodup_insertOnce h row)

omit [DecidableEq κ] in
/-- Events are told apart when no key is of two of their rows. -/
theorem separates_iff_nodup (hnodup : events.Nodup) :
    Separates key rowOf events ↔ ((events.filterMap rowOf).map key).Nodup := by
  rw [List.Nodup, pairwise_map, pairwise_filterMap]
  constructor
  · intro h
    refine hnodup.pairwise_of_forall_ne fun e he e' he' hne r hr r' hr' hkey => ?_
    exact hne (h e he e' he' r hr r' hr' hkey)
  · intro h e he e' he' r hr r' hr' hkey
    by_contra hne
    have hsymm : Std.Symm fun e e' : ε =>
        ∀ r, rowOf e = some r → ∀ r', rowOf e' = some r' → key r ≠ key r' :=
      ⟨fun _ _ hxy r hr r' hr' heq => hxy r' hr' r hr heq.symm⟩
    exact h.forall he he' hne r hr r' hr' hkey

/-- Once every event with a row was delivered, the table holds one row of each. -/
theorem receiveAll_perm (hsep : Separates key rowOf deliveries) (hnodup : events.Nodup)
    (hcovers : ∀ e, ∀ r ∈ rowOf e, (e ∈ deliveries ↔ e ∈ events)) :
    (receiveAll key rowOf deliveries).Perm (events.filterMap rowOf) := by
  have hsep' : Separates key rowOf events := fun x hx y hy r hr r' hr' =>
    hsep x ((hcovers x r hr).2 hx) y ((hcovers y r' hr').2 hy) r hr r' hr'
  refine (perm_ext_iff_of_nodup (nodup_receiveAll key rowOf deliveries).of_map
    ((separates_iff_nodup hnodup).1 hsep').of_map).2 fun r => ?_
  rw [mem_receiveAll hsep, mem_filterMap]
  constructor
  · rintro ⟨e, he, hr⟩
    exact ⟨e, (hcovers e r hr).1 he, hr⟩
  · rintro ⟨e, he, hr⟩
    exact ⟨e, (hcovers e r hr).2 he, hr⟩

/-- Every delivery of the events leaves one row of each exactly when the keys tell them apart. -/
theorem receiveAll_perm_iff (hnodup : events.Nodup) :
    (∀ deliveries, (∀ e, e ∈ deliveries ↔ e ∈ events) →
      (receiveAll key rowOf deliveries).Perm (events.filterMap rowOf)) ↔
        Separates key rowOf events := by
  constructor
  · intro h
    have hperm := (h events fun _ => Iff.rfl).map key
    exact (separates_iff_nodup hnodup).2 (hperm.nodup_iff.1 (nodup_receiveAll key rowOf events))
  · intro hsep deliveries hcovers
    refine receiveAll_perm ?_ hnodup fun e _ _ => hcovers e
    exact fun x hx y hy => hsep x ((hcovers x).1 hx) y ((hcovers y).1 hy)

omit [DecidableEq κ] in
/-- A part of a list that has as many entries of every owner is the whole list. -/
theorem eq_of_sublist_of_owners {β : Type*} [DecidableEq β] (owner : ρ → β) {part whole : List ρ}
    (hpart : part.Sublist whole)
    (h : ∀ c, (whole.filter (owner · = c)).length ≤ (part.filter (owner · = c)).length) :
    part = whole := by
  classical
  refine hpart.eq_of_length (List.Perm.length_eq (perm_iff_count.2 fun r => ?_))
  have hsame : part.filter (owner · = owner r) = whole.filter (owner · = owner r) :=
    (hpart.filter _).eq_of_length_le (h (owner r))
  have hcnt : ∀ l : List ρ, (l.filter (owner · = owner r)).count r = l.count r :=
    fun l => count_filter (decide_eq_true rfl)
  rw [← hcnt part, hsame, hcnt whole]

/-- The same of what the rows of each owner say. -/
theorem receiveAll_owners_perm_iff {β γ : Type*} [DecidableEq β] (owner : ρ → β) (f : ρ → γ)
    (hnodup : events.Nodup) :
    (∀ deliveries, (∀ e, e ∈ deliveries ↔ e ∈ events) → ∀ c,
      (((receiveAll key rowOf deliveries).filter (owner · = c)).map f).Perm
        (((events.filterMap rowOf).filter (owner · = c)).map f)) ↔
      Separates key rowOf events := by
  constructor
  · intro h
    have hsame : receiveAll key rowOf events = events.filterMap rowOf := by
      refine eq_of_sublist_of_owners owner (receiveAll_sublist key rowOf events) ?_
      intro c
      have hlen := (h events (fun _ => Iff.rfl) c).length_eq
      rw [length_map, length_map] at hlen
      exact hlen.ge
    rw [separates_iff_nodup hnodup, ← hsame]
    exact nodup_receiveAll key rowOf events
  · intro hsep deliveries hcovers c
    exact (((receiveAll_perm_iff hnodup).2 hsep deliveries hcovers).filter _).map f

end Once

end Delivery
