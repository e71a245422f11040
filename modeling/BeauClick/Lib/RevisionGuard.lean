import Mathlib.Data.List.Basic
import Mathlib.Data.List.Induction
import Mathlib.Data.List.TakeWhile

/-!
# Two writers under one revision

A record with a left and a right part, each written by changes of its own kind, and one
revision that guards both.  A left change makes the record, and applies when it is newer; a
right change applies when it is not older, and is dropped when there is no record yet.

* `Revision.InTime` — a delivery finds nothing newer applied, and a record to apply to.
* `Revision.reflects` — the record shows, of each kind, the newest change delivered in time.
-/

universe u v

namespace Revision

open List

/-- A change of one of the two parts. -/
structure Change (α : Type u) (β : Type v) where
  revision : ℕ
  content : α ⊕ β

/-- The record, and the revision it was last written at. -/
structure Record (α : Type u) (β : Type v) where
  revision : ℕ
  left : α
  right : β

variable {α : Type u} {β : Type v}

/-- A change is delivered; `initial` is the right part of a new record. -/
def deliver (initial : β) (g : Option (Record α β)) (c : Change α β) : Option (Record α β) :=
  match g, c.content with
  | none, .inl a => some ⟨c.revision, a, initial⟩
  | none, .inr _ => none
  | some g, .inl a => if g.revision < c.revision then some ⟨c.revision, a, g.right⟩ else some g
  | some g, .inr b =>
    if g.revision ≤ c.revision then some ⟨max g.revision c.revision, g.left, b⟩ else some g

/-- The record after some deliveries. -/
def delivered (initial : β) (ds : List (Change α β)) : Option (Record α β) :=
  ds.foldl (deliver initial) none

/-- The deliveries since the record was made. -/
def live (ds : List (Change α β)) : List (Change α β) := ds.dropWhile (·.content.isRight)

/-- Some delivery of the change comes before everything newer that could apply, and, if it is
a right change, finds a record. -/
def InTime (ds : List (Change α β)) (c : Change α β) : Prop :=
  ∃ pre post, ds = pre ++ c :: post ∧ (c.content.isRight → live pre ≠ []) ∧
    ∀ f ∈ live pre, f.revision < c.revision

/-- A change that no change of the same kind delivered in time is newer than. -/
def Newest (ds : List (Change α β)) (c : Change α β) : Prop :=
  InTime ds c ∧ ∀ f, InTime ds f → f.content.isLeft = c.content.isLeft → f.revision ≤ c.revision

variable {initial : β} {ds : List (Change α β)} {c e : Change α β}

/-! ## Live deliveries -/

theorem live_concat_of_ne_nil (h : live ds ≠ []) : live (ds ++ [c]) = live ds ++ [c] := by
  unfold live at h ⊢
  rw [dropWhile_append]
  have hne : (ds.dropWhile (·.content.isRight)).isEmpty = false := by
    rwa [isEmpty_eq_false_iff]
  rw [hne]
  rfl

theorem live_concat_of_nil (h : live ds = []) :
    live (ds ++ [c]) = if c.content.isRight then [] else [c] := by
  unfold live at h ⊢
  rw [dropWhile_append, h]
  by_cases hc : c.content.isRight = true
  · simp [hc]
  · simp [hc]

theorem live_ne_nil_iff : live ds ≠ [] ↔ ∃ e ∈ ds, e.content.isLeft := by
  rw [live, ne_eq, dropWhile_eq_nil_iff]
  constructor
  · intro h
    by_contra hnone
    refine h fun e he => ?_
    cases hc : e.content with
    | inl => exact absurd ⟨e, he, by rw [hc]; rfl⟩ hnone
    | inr => rfl
  · rintro ⟨e, he, hleft⟩ h
    have hright := h e he
    cases hc : e.content with
    | inl => simp [hc] at hright
    | inr => simp [hc] at hleft

/-- A change is in time when it already was, or when its last delivery is. -/
theorem inTime_concat : InTime (ds ++ [c]) e ↔
    InTime ds e ∨
      e = c ∧ (c.content.isRight → live ds ≠ []) ∧ ∀ f ∈ live ds, f.revision < c.revision := by
  constructor
  · rintro ⟨pre, post, hds, hlive, hlt⟩
    rcases eq_nil_or_concat post with rfl | ⟨post', _, rfl⟩
    · obtain ⟨rfl, hc⟩ := append_inj' hds rfl
      obtain rfl : c = e := singleton_injective hc
      exact Or.inr ⟨rfl, hlive, hlt⟩
    · left
      rw [concat_eq_append, ← cons_append, ← append_assoc] at hds
      obtain ⟨rfl, -⟩ := append_inj' hds rfl
      exact ⟨pre, post', rfl, hlive, hlt⟩
  · rintro (⟨pre, post, rfl, hlive, hlt⟩ | ⟨rfl, hlive, hlt⟩)
    · exact ⟨pre, post ++ [c], by simp, hlive, hlt⟩
    · exact ⟨ds, [], rfl, hlive, hlt⟩

theorem InTime.mem (h : InTime ds e) : e ∈ ds := by
  obtain ⟨_, _, rfl, -, -⟩ := h
  simp

theorem live_subset_concat : ∀ f ∈ live ds, f ∈ live (ds ++ [c]) := by
  intro f hf
  rw [live_concat_of_ne_nil (ne_nil_of_mem hf)]
  exact mem_append_left _ hf

theorem InTime.mem_live (h : InTime ds e) : e ∈ live ds := by
  induction ds using List.reverseRecOn with
  | nil => cases h.mem
  | append_singleton ds c ih =>
    rcases inTime_concat.1 h with h | ⟨rfl, hlive, -⟩
    · exact live_subset_concat e (ih h)
    · by_cases hds : live ds = []
      · have hleft : ¬ e.content.isRight := fun hright => hlive hright hds
        rw [live_concat_of_nil hds, if_neg hleft]
        exact mem_singleton_self e
      · rw [live_concat_of_ne_nil hds]
        simp

/-! ## The newest changes -/

/-- A newest change survives a delivery of the other kind. -/
theorem Newest.concat_of_ne (h : Newest ds e) (hne : e.content.isLeft ≠ c.content.isLeft) :
    Newest (ds ++ [c]) e := by
  refine ⟨inTime_concat.2 (Or.inl h.1), ?_⟩
  intro f hf hkind
  rcases inTime_concat.1 hf with hf | ⟨rfl, -⟩
  · exact h.2 f hf hkind
  · exact absurd hkind.symm hne

/-- A newest change survives a delivery that is too late. -/
theorem Newest.concat_of_late (h : Newest ds e) (hlate : ¬ ∀ f ∈ live ds, f.revision < c.revision) :
    Newest (ds ++ [c]) e := by
  refine ⟨inTime_concat.2 (Or.inl h.1), ?_⟩
  intro f hf hkind
  rcases inTime_concat.1 hf with hf | ⟨rfl, -, hlt⟩
  · exact h.2 f hf hkind
  · exact absurd hlt hlate

/-- A delivery in time is the newest change when nothing newer was. -/
theorem newest_concat_self (h : InTime (ds ++ [c]) c)
    (hle : ∀ f ∈ live ds, f.revision ≤ c.revision) :
    Newest (ds ++ [c]) c := by
  refine ⟨h, ?_⟩
  intro f hf _
  rcases inTime_concat.1 hf with hf | ⟨rfl, -⟩
  · exact hle f hf.mem_live
  · exact le_rfl

/-! ## The record and the deliveries -/

/-- What a record shows of the deliveries that made it. -/
structure Reflects (initial : β) (ds : List (Change α β)) (g : Record α β) : Prop where
  bound : ∀ f ∈ live ds, f.revision ≤ g.revision
  reached : ∃ f, InTime ds f ∧ f.revision = g.revision
  left : ∃ e, Newest ds e ∧ e.content = .inl g.left
  right : (∃ e, Newest ds e ∧ e.content = .inr g.right) ∨
    (∀ e, InTime ds e → e.content.isLeft) ∧ g.right = initial

variable {g : Record α β} {a : α} {b : β}

theorem Reflects.live_ne_nil (h : Reflects initial ds g) : live ds ≠ [] := by
  obtain ⟨_, hf, -⟩ := h.reached
  exact ne_nil_of_mem hf.mem_live

theorem Reflects.bound_concat (h : Reflects initial ds g) :
    ∀ f ∈ live (ds ++ [c]), f.revision ≤ max g.revision c.revision := by
  intro f hf
  rw [live_concat_of_ne_nil h.live_ne_nil, mem_append, mem_singleton] at hf
  rcases hf with hf | rfl
  · exact (h.bound f hf).trans (Nat.le_max_left _ _)
  · exact Nat.le_max_right _ _

/-- The first left change makes the record. -/
theorem reflects_of_made (hds : live ds = []) (hc : c.content = .inl a) :
    Reflects initial (ds ++ [c]) ⟨c.revision, a, initial⟩ := by
  have hlive : live (ds ++ [c]) = [c] := by rw [live_concat_of_nil hds, hc]; rfl
  have htime : InTime (ds ++ [c]) c := by
    refine inTime_concat.2 (Or.inr ⟨rfl, ?_, by simp [hds]⟩)
    simp [hc]
  refine ⟨?_, ⟨c, htime, rfl⟩, ⟨c, newest_concat_self htime (by simp [hds]), hc⟩, Or.inr ⟨?_, rfl⟩⟩
  · intro f hf
    rw [hlive, mem_singleton] at hf
    exact hf ▸ le_rfl
  · intro e he
    have hmem := he.mem_live
    rw [hlive, mem_singleton] at hmem
    rw [hmem, hc]
    rfl

section

variable (h : Reflects initial ds g)
include h

/-- A newer left change replaces the left part. -/
theorem Reflects.left_applies (hc : c.content = .inl a)
    (hlt : g.revision < c.revision) : Reflects initial (ds ++ [c]) ⟨c.revision, a, g.right⟩ := by
  have htime : InTime (ds ++ [c]) c := by
    refine inTime_concat.2 (Or.inr ⟨rfl, fun _ => h.live_ne_nil, ?_⟩)
    exact fun f hf => (h.bound f hf).trans_lt hlt
  refine ⟨?_, ⟨c, htime, rfl⟩, ⟨c, newest_concat_self htime ?_, hc⟩, ?_⟩
  · intro f hf
    exact (h.bound_concat f hf).trans (max_le hlt.le le_rfl)
  · exact fun f hf => (h.bound f hf).trans hlt.le
  · rcases h.right with ⟨e, he, hr⟩ | ⟨hnone, hr⟩
    · refine Or.inl ⟨e, he.concat_of_ne ?_, hr⟩
      simp [hr, hc]
    · refine Or.inr ⟨?_, hr⟩
      intro e he
      rcases inTime_concat.1 he with he | ⟨rfl, -⟩
      · exact hnone e he
      · rw [hc]
        rfl

/-- A late change of either kind leaves the record as it is. -/
theorem Reflects.late
    (hlate : ¬ ∀ f ∈ live ds, f.revision < c.revision) (hle : c.revision ≤ g.revision) :
    Reflects initial (ds ++ [c]) g := by
  obtain ⟨f, hf, hrev⟩ := h.reached
  refine ⟨?_, ⟨f, inTime_concat.2 (Or.inl hf), hrev⟩, ?_, ?_⟩
  · intro f hf
    exact (h.bound_concat f hf).trans (max_le le_rfl hle)
  · obtain ⟨e, he, hl⟩ := h.left
    exact ⟨e, he.concat_of_late hlate, hl⟩
  · rcases h.right with ⟨e, he, hr⟩ | ⟨hnone, hr⟩
    · exact Or.inl ⟨e, he.concat_of_late hlate, hr⟩
    · refine Or.inr ⟨?_, hr⟩
      intro e he
      rcases inTime_concat.1 he with he | ⟨rfl, -, hlt⟩
      · exact hnone e he
      · exact absurd hlt hlate

/-- A right change that is in time replaces the right part. -/
theorem Reflects.right_applies (hc : c.content = .inr b)
    (hle : g.revision ≤ c.revision) (htime : InTime (ds ++ [c]) c) :
    Reflects initial (ds ++ [c]) ⟨max g.revision c.revision, g.left, b⟩ := by
  refine ⟨h.bound_concat, ⟨c, htime, (max_eq_right hle).symm⟩, ?_,
    Or.inl ⟨c, newest_concat_self htime ?_, hc⟩⟩
  · obtain ⟨e, he, hl⟩ := h.left
    refine ⟨e, he.concat_of_ne ?_, hl⟩
    simp [hl, hc]
  · exact fun f hf => (h.bound f hf).trans hle

end

/-- Changes are told apart by their revisions. -/
def Distinct (ds : List (Change α β)) : Prop :=
  ∀ x ∈ ds, ∀ y ∈ ds, x.revision = y.revision → x = y

theorem Distinct.concat (h : Distinct (ds ++ [c])) : Distinct ds :=
  fun x hx y hy => h x (mem_append_left _ hx) y (mem_append_left _ hy)

/-- There is one newest change of each kind. -/
theorem Newest.eq (hc : Newest ds c) (h : Distinct ds) (he : Newest ds e)
    (hkind : c.content.isLeft = e.content.isLeft) : c = e := by
  refine h c hc.1.mem e he.1.mem (le_antisymm ?_ ?_)
  · exact he.2 c hc.1 hkind
  · exact hc.2 e he.1 hkind.symm

/-- After any deliveries there is no record, and no left change was delivered, or the record
reflects them. -/
theorem reflects (initial : β) (h : Distinct ds) :
    (delivered initial ds = none ∧ live ds = []) ∨
      ∃ g, delivered initial ds = some g ∧ Reflects initial ds g := by
  induction ds using List.reverseRecOn with
  | nil => exact Or.inl ⟨rfl, rfl⟩
  | append_singleton ds c ih =>
    have hstep : delivered initial (ds ++ [c]) = deliver initial (delivered initial ds) c := by
      simp [delivered]
    rw [hstep]
    rcases ih h.concat with ⟨hg, hds⟩ | ⟨g, hg, hrefl⟩
    · rw [hg]
      cases hc : c.content with
      | inl a =>
        refine Or.inr ⟨⟨c.revision, a, initial⟩, ?_, reflects_of_made hds hc⟩
        simp [deliver, hc]
      | inr =>
        refine Or.inl ⟨?_, ?_⟩
        · simp [deliver, hc]
        · rw [live_concat_of_nil hds, hc]
          rfl
    · rw [hg]
      right
      obtain ⟨f, hf, hrev⟩ := hrefl.reached
      by_cases hlt : g.revision < c.revision
      · cases hc : c.content with
        | inl a =>
          refine ⟨⟨c.revision, a, g.right⟩, ?_, hrefl.left_applies hc hlt⟩
          simp [deliver, hc, hlt]
        | inr b =>
          refine ⟨⟨max g.revision c.revision, g.left, b⟩, ?_,
            hrefl.right_applies hc hlt.le (inTime_concat.2 (Or.inr ⟨rfl, ?_, ?_⟩))⟩
          · simp [deliver, hc, hlt.le]
          · exact fun _ => hrefl.live_ne_nil
          · exact fun f hf => (hrefl.bound f hf).trans_lt hlt
      · have hle : c.revision ≤ g.revision := not_lt.1 hlt
        have hlate : ¬ ∀ f ∈ live ds, f.revision < c.revision := by
          intro hall
          exact absurd (hall f hf.mem_live) (not_lt.2 (hrev ▸ hle))
        cases hc : c.content with
        | inl =>
          refine ⟨g, ?_, hrefl.late hlate hle⟩
          simp [deliver, hc, hlt]
        | inr b =>
          by_cases heq : g.revision ≤ c.revision
          · -- the same revision: this is the change the record was last written by
            have hsame : f = c := by
              refine h f (mem_append_left _ hf.mem) c (by simp) ?_
              rw [hrev]
              exact le_antisymm heq hle
            subst hsame
            refine ⟨⟨max g.revision f.revision, g.left, b⟩, ?_,
              hrefl.right_applies hc heq (inTime_concat.2 (Or.inl hf))⟩
            simp [deliver, hc, heq]
          · refine ⟨g, ?_, hrefl.late hlate hle⟩
            simp [deliver, hc, heq]

end Revision
