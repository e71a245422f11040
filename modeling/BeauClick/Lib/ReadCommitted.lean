import Mathlib.Data.List.Count
import Mathlib.Data.List.Dedup

/-!
# Tables whose rows transactions write and commit

A table under the isolation level READ COMMITTED: of a row there is what is committed and
what one transaction has written, and whoever has written a row keeps it until its commit
or its rollback.

* `Row` — the two versions of a row; the writer is at most one.
* `Versioned.ofRows` — a table that nobody is at work on.
* `Versioned.update`, `Versioned.insert` — a statement on one row: it waits for the row.
* `Versioned.updateAll` — a statement on the rows with a property.
* `Versioned.commit`, `Versioned.rollback` — the end of a transaction.
* `Versioned.settle` — what is left when every transaction at work is rolled back.
* `Versioned.writeChecked`, `Apart` — a constraint on pairs of rows, and that it is kept.
* `Others` — what a transaction leaves to another one.
-/

set_option linter.unusedSectionVars false

namespace ReadCommitted

open List Option

open Function (update_self update_of_ne)

universe u v w

/-- A row: what is committed, and what a transaction has written. -/
structure Row (ι : Type u) (α : Type v) where
  committed : Option α
  written : Option (ι × α)

namespace Row

variable {ι : Type u} {α : Type v}

/-- No transaction has inserted the row. -/
def empty : Row ι α := ⟨none, none⟩

/-- A version of the row, committed or not. -/
def Version (r : Row ι α) (x : α) : Prop := r.committed = some x ∨ ∃ p, r.written = some (p, x)

/-- The transaction has written the row. -/
def WrittenBy (r : Row ι α) (p : ι) : Prop := ∃ x, r.written = some (p, x)

/-- Another transaction has written the row. -/
def Locked (r : Row ι α) (p : ι) : Prop := ∃ q x, r.written = some (q, x) ∧ q ≠ p

/-- Some version of the row has a property. -/
def HasVersion (r : Row ι α) (P : α → Prop) : Prop := ∃ x, r.Version x ∧ P x

instance (P : α → Prop) [DecidablePred P] : ∀ r : Row ι α, Decidable (r.HasVersion P)
  | ⟨none, none⟩ => isFalse (by simp [HasVersion, Version])
  | ⟨some c, none⟩ => decidable_of_iff (P c) (by simp [HasVersion, Version])
  | ⟨none, some w⟩ => decidable_of_iff (P w.2) (by
      obtain ⟨p, x⟩ := w
      simp [HasVersion, Version])
  | ⟨some c, some w⟩ => decidable_of_iff (P c ∨ P w.2) (by
      obtain ⟨p, x⟩ := w
      simp [HasVersion, Version, or_and_right, exists_or])

variable [DecidableEq ι]

instance : ∀ (r : Row ι α) (p : ι), Decidable (r.Locked p)
  | ⟨_, none⟩, _ => isFalse (by simp [Locked])
  | ⟨_, some w⟩, p => decidable_of_iff (w.1 ≠ p) (by
      obtain ⟨q, x⟩ := w
      simp [Locked])

instance : ∀ (r : Row ι α) (p : ι), Decidable (r.WrittenBy p)
  | ⟨_, none⟩, _ => isFalse (by simp [WrittenBy])
  | ⟨_, some w⟩, p => decidable_of_iff (w.1 = p) (by
      obtain ⟨q, x⟩ := w
      simp [WrittenBy])

/-- What the transaction reads: what it has written itself, else what is committed. -/
def seenBy (r : Row ι α) (p : ι) : Option α :=
  match r.written with
  | some (q, x) => if q = p then some x else r.committed
  | none => r.committed

def write (r : Row ι α) (p : ι) (x : α) : Row ι α := ⟨r.committed, some (p, x)⟩

/-- The row after the transaction's commit. -/
def commit (r : Row ι α) (p : ι) : Row ι α :=
  match r.written with
  | some (q, x) => if q = p then ⟨some x, none⟩ else r
  | none => r

/-- The row after the transaction's rollback. -/
def rollback (r : Row ι α) (p : ι) : Row ι α :=
  match r.written with
  | some (q, _) => if q = p then ⟨r.committed, none⟩ else r
  | none => r

variable {r : Row ι α} {p q : ι} {x : α}

theorem seenBy_of_written (h : r.written = some (p, x)) : r.seenBy p = some x := by
  simp [seenBy, h]

theorem seenBy_of_not (h : ¬r.WrittenBy p) : r.seenBy p = r.committed := by
  unfold seenBy
  split
  · rename_i q y hw
    rw [if_neg]
    rintro rfl
    exact h ⟨y, hw⟩
  · rfl

theorem commit_of_written (h : r.written = some (p, x)) : r.commit p = ⟨some x, none⟩ := by
  simp [commit, h]

theorem commit_of_not (h : ¬r.WrittenBy p) : r.commit p = r := by
  unfold commit
  split
  · rename_i q y hw
    rw [if_neg]
    rintro rfl
    exact h ⟨y, hw⟩
  · rfl

theorem rollback_of_written (h : r.written = some (p, x)) : r.rollback p = ⟨r.committed, none⟩ := by
  simp [rollback, h]

theorem rollback_of_not (h : ¬r.WrittenBy p) : r.rollback p = r := by
  unfold rollback
  split
  · rename_i q y hw
    rw [if_neg]
    rintro rfl
    exact h ⟨y, hw⟩
  · rfl

/-- What a commit makes of a row: the version written by the transaction, if there is one. -/
theorem committed_commit : (r.commit p).committed = r.seenBy p := by
  by_cases h : r.WrittenBy p
  · obtain ⟨_, hx⟩ := h
    rw [commit_of_written hx, seenBy_of_written hx]
  · rw [commit_of_not h, seenBy_of_not h]

@[simp] theorem committed_rollback : (r.rollback p).committed = r.committed := by
  by_cases h : r.WrittenBy p
  · obtain ⟨_, hx⟩ := h
    rw [rollback_of_written hx]
  · rw [rollback_of_not h]

theorem not_writtenBy_commit : ¬(r.commit p).WrittenBy p := by
  by_cases h : r.WrittenBy p
  · obtain ⟨_, hx⟩ := h
    rw [commit_of_written hx]
    simp [WrittenBy]
  · rwa [commit_of_not h]

theorem not_writtenBy_rollback : ¬(r.rollback p).WrittenBy p := by
  by_cases h : r.WrittenBy p
  · obtain ⟨_, hx⟩ := h
    rw [rollback_of_written hx]
    simp [WrittenBy]
  · rwa [rollback_of_not h]

theorem version_of_commit (h : (r.commit p).Version x) : r.Version x := by
  by_cases hw : r.WrittenBy p
  · obtain ⟨_, hy⟩ := hw
    rw [commit_of_written hy] at h
    simp [Version] at h
    exact Or.inr ⟨p, h ▸ hy⟩
  · rwa [commit_of_not hw] at h

theorem version_of_rollback (h : (r.rollback p).Version x) : r.Version x := by
  by_cases hw : r.WrittenBy p
  · obtain ⟨_, hy⟩ := hw
    rw [rollback_of_written hy] at h
    simp [Version] at h
    exact Or.inl h
  · rwa [rollback_of_not hw] at h

theorem writtenBy_unique (hp : r.WrittenBy p) (hq : r.WrittenBy q) : p = q := by
  obtain ⟨_, hx⟩ := hp
  obtain ⟨_, hy⟩ := hq
  rw [hx] at hy
  exact congrArg Prod.fst (some.inj hy)

theorem not_writtenBy_of_not_locked (h : ¬r.Locked p) (hq : q ≠ p) : ¬r.WrittenBy q := by
  rintro ⟨x, hx⟩
  exact h ⟨q, x, hx, hq⟩

end Row

/-- A table by key; the keys are those that have been used. -/
structure Versioned (ι : Type u) (κ : Type v) (α : Type w) where
  row : κ → Row ι α
  keys : List κ
  nodup : keys.Nodup
  complete : ∀ k, k ∉ keys → row k = Row.empty

namespace Versioned

variable {ι : Type u} {κ : Type v} {α : Type w}

def empty : Versioned ι κ α := ⟨fun _ => Row.empty, [], nodup_nil, fun _ _ => rfl⟩

/-- The table with some rows, all of them committed; of two rows under one key it is the first. -/
def ofRows [DecidableEq κ] (rows : List (κ × α)) : Versioned ι κ α where
  row k := ⟨(rows.find? fun r => r.1 = k).map Prod.snd, none⟩
  keys := (rows.map Prod.fst).dedup
  nodup := nodup_dedup _
  complete := by
    intro k hk
    rw [mem_dedup] at hk
    rw [find?_eq_none.2]
    · rfl
    intro r hr heq
    exact hk (of_decide_eq_true heq ▸ mem_map_of_mem hr)

/-- The committed row under a key. -/
def committed (t : Versioned ι κ α) (k : κ) : Option α := (t.row k).committed

/-- The version of a row that the transaction has written. -/
def Wrote (t : Versioned ι κ α) (p : ι) (k : κ) (x : α) : Prop := (t.row k).written = some (p, x)

@[simp] theorem committed_empty (k : κ) : (empty : Versioned ι κ α).committed k = none := rfl

open Row

theorem mem_keys {t : Versioned ι κ α} {k : κ} {x : α} (h : (t.row k).Version x) : k ∈ t.keys := by
  by_contra hk
  rw [t.complete k hk] at h
  simp [Row.Version, Row.empty] at h

theorem mem_keys_of_committed {t : Versioned ι κ α} {k : κ} {x : α} (h : t.committed k = some x) :
    k ∈ t.keys := mem_keys (Or.inl h)

section Decidable

variable [DecidableEq ι] [DecidableEq κ]

/-- What the transaction reads of a row. -/
def get (t : Versioned ι κ α) (p : ι) (k : κ) : Option α := (t.row k).seenBy p

/-- The keys of the rows that the transaction reads with a property. -/
def select (t : Versioned ι κ α) (p : ι) (P : α → Bool) : List κ :=
  t.keys.filter fun k => ((t.get p k).map P).getD false

/-- A row replaced; the table keeps its key. -/
def setRow (t : Versioned ι κ α) (k : κ) (r : Row ι α) : Versioned ι κ α where
  row := Function.update t.row k r
  keys := if k ∈ t.keys then t.keys else k :: t.keys
  nodup := by
    split
    · exact t.nodup
    · rename_i h
      exact nodup_cons.2 ⟨h, t.nodup⟩
  complete := by
    intro k' hk'
    have hne : k' ≠ k := by
      rintro rfl
      split at hk'
      · rename_i h
        exact hk' h
      · exact hk' mem_cons_self
    rw [update_of_ne hne]
    refine t.complete k' ?_
    intro h
    split at hk'
    · exact hk' h
    · exact hk' (mem_cons_of_mem k h)

/-- The transaction writes a row. -/
def write (t : Versioned ι κ α) (p : ι) (k : κ) (x : α) : Versioned ι κ α :=
  t.setRow k ((t.row k).write p x)

/-- A committed row is deleted, in a transaction of its own. -/
def delete (t : Versioned ι κ α) (k : κ) : Versioned ι κ α := t.setRow k Row.empty

/-- The end of a transaction that keeps what it has written. -/
def commit (t : Versioned ι κ α) (p : ι) : Versioned ι κ α where
  row k := (t.row k).commit p
  keys := t.keys
  nodup := t.nodup
  complete := by
    intro k hk
    rw [t.complete k hk]
    rfl

/-- The end of a transaction that drops what it has written. -/
def rollback (t : Versioned ι κ α) (p : ι) : Versioned ι κ α where
  row k := (t.row k).rollback p
  keys := t.keys
  nodup := t.nodup
  complete := by
    intro k hk
    rw [t.complete k hk]
    rfl

/-- The table when every transaction at work is rolled back. -/
def settle (t : Versioned ι κ α) : Versioned ι κ α where
  row k := ⟨(t.row k).committed, none⟩
  keys := t.keys
  nodup := t.nodup
  complete := by
    intro k hk
    rw [t.complete k hk]
    rfl

/-- What a statement on a row comes to. -/
inductive Outcome (ι : Type u) (κ : Type v) (α : Type w) where
  /-- Another transaction has the row, or a row that may come into conflict with it. -/
  | waits
  /-- The statement matches no row. -/
  | unmatched
  /-- A constraint refuses the row. -/
  | violated
  /-- The row as it is written, and the table. -/
  | done (row : α) (table : Versioned ι κ α)

/-- A row comes into conflict with another one: at once with a version that is there to stay,
or once another transaction has committed. -/
def writeChecked (t : Versioned ι κ α) (p : ι) (k : κ) (x : α) (conflict : α → Prop)
    [DecidablePred conflict] : Outcome ι κ α :=
  if ∃ k' ∈ t.keys, k' ≠ k ∧ ¬(t.row k').Locked p ∧ (t.row k').HasVersion conflict then .violated
  else if ∃ k' ∈ t.keys, k' ≠ k ∧ (t.row k').HasVersion conflict then .waits
  else .done x (t.write p k x)

/-- `INSERT` of a row under a primary key and a constraint. -/
def insert (t : Versioned ι κ α) (p : ι) (k : κ) (x : α) (conflict : α → Prop)
    [DecidablePred conflict] : Outcome ι κ α :=
  if (t.row k).Locked p then .waits
  else if (t.get p k).isSome then .violated
  else t.writeChecked p k x conflict

/-- `UPDATE … SET f WHERE id = k AND p`, on columns that no constraint is about. -/
def update (t : Versioned ι κ α) (p : ι) (k : κ) (where' : α → Prop) [DecidablePred where']
    (f : α → α) : Outcome ι κ α :=
  match t.get p k with
  | none => .unmatched
  | some x =>
    if where' x then
      if (t.row k).Locked p then .waits else .done (f x) (t.write p k (f x))
    else .unmatched

/-- The same under a constraint. -/
def updateChecked (t : Versioned ι κ α) (p : ι) (k : κ) (where' : α → Prop)
    [DecidablePred where'] (f : α → α) (conflict : α → α → Prop)
    [∀ x y, Decidable (conflict x y)] : Outcome ι κ α :=
  match t.get p k with
  | none => .unmatched
  | some x =>
    if where' x then
      if (t.row k).Locked p then .waits
      else t.writeChecked p k (f x) (conflict (f x))
    else .unmatched

/-- The rows of some keys, as the transaction writes them one after the other. -/
def writeAll (t : Versioned ι κ α) (p : ι) (f : α → α) : List κ → Versioned ι κ α
  | [] => t
  | k :: ks =>
    match t.get p k with
    | some x => (t.write p k (f x)).writeAll p f ks
    | none => t.writeAll p f ks

/-- What a statement on the rows with a property comes to. -/
inductive SetOutcome (ι : Type u) (κ : Type v) (α : Type w) where
  | waits
  /-- The keys of the rows that are written, and the table. -/
  | done (rows : List κ) (table : Versioned ι κ α)

/-- `UPDATE … SET f WHERE p`, on columns that no constraint is about. -/
def updateAll (t : Versioned ι κ α) (p : ι) (where' : α → Bool) (f : α → α) :
    SetOutcome ι κ α :=
  if ∃ k ∈ t.select p where', (t.row k).Locked p then .waits
  else .done (t.select p where') (t.writeAll p f (t.select p where'))

/-! ## What a statement does -/

section Statement

variable {t t' : Versioned ι κ α} {p q : ι} {k k' : κ} {x y : α} {o : Option α}
  {conflict where' : α → Prop} {f : α → α} {rows : List (κ × α)}

@[simp] theorem row_write_self : (t.write p k x).row k = (t.row k).write p x :=
  update_self ..

theorem row_write_ne (h : k' ≠ k) : (t.write p k x).row k' = t.row k' :=
  update_of_ne h _ _

@[simp] theorem row_delete_self : (t.delete k).row k = Row.empty := update_self ..

theorem row_delete_ne (h : k' ≠ k) : (t.delete k).row k' = t.row k' :=
  update_of_ne h _ _

@[simp] theorem row_commit : (t.commit p).row k = (t.row k).commit p := rfl

@[simp] theorem row_rollback : (t.rollback p).row k = (t.row k).rollback p := rfl

theorem wrote_write_self : (t.write p k x).Wrote p k x := by
  simp [Wrote, Row.write]

/-- What is written is read. -/
theorem get_write_self : (t.write p k x).get p k = some x := by
  simp [get, Row.write, Row.seenBy]

theorem get_write_ne (h : k' ≠ k) : (t.write p k x).get q k' = t.get q k' := by
  rw [get, row_write_ne h, get]

/-- A write commits nothing. -/
@[simp] theorem committed_write : (t.write p k x).committed = t.committed := by
  funext k'
  by_cases h : k' = k
  · subst h
    simp [committed, Row.write]
  · simp [committed, row_write_ne h]

@[simp] theorem committed_rollback : (t.rollback p).committed = t.committed := by
  funext k'
  exact Row.committed_rollback

theorem committed_commit : (t.commit p).committed k = t.get p k := Row.committed_commit

theorem Wrote.committed_commit (h : t.Wrote p k x) : (t.commit p).committed k = some x := by
  rw [Versioned.committed_commit, get, seenBy_of_written h]

theorem committed_commit_of_not (h : ¬(t.row k).WrittenBy p) :
    (t.commit p).committed k = t.committed k := by
  rw [committed_commit, get, seenBy_of_not h, committed]

theorem wrote_of_row (h : t.row k = ⟨o, some (p, x)⟩) : t.Wrote p k x := by
  rw [Wrote, h]

theorem committed_of_row (h : t.row k = ⟨o, some (p, x)⟩) : t.committed k = o := by
  rw [committed, h]

theorem Wrote.writtenBy (h : t.Wrote p k x) : (t.row k).WrittenBy p := ⟨x, h⟩

theorem Wrote.unique (h : t.Wrote p k x) (h' : t.Wrote p k y) : x = y := by
  rw [Wrote, h] at h'
  cases h'
  rfl

theorem get_of_not (h : ¬(t.row k).WrittenBy p) : t.get p k = t.committed k :=
  seenBy_of_not h

theorem Wrote.get_eq (h : t.Wrote p k x) : t.get p k = some x := seenBy_of_written h

theorem version_of_get (h : t.get p k = some x) : (t.row k).Version x := by
  by_cases hw : (t.row k).WrittenBy p
  · obtain ⟨_, hy⟩ := hw
    rw [Wrote.get_eq hy] at h
    exact Or.inr ⟨p, some.inj h ▸ hy⟩
  · rw [get_of_not hw] at h
    exact Or.inl h

/-- A row that a transaction does not see, and that no other one has, has no version. -/
theorem not_version_of_free (hlock : ¬(t.row k).Locked p) (hget : t.get p k = none) :
    ¬(t.row k).Version y := by
  have hw : ¬(t.row k).WrittenBy p := by
    rintro ⟨_, hx⟩
    rw [Wrote.get_eq hx] at hget
    cases hget
  rw [get_of_not hw] at hget
  rintro (h | ⟨q, h⟩)
  · exact absurd (hget.symm.trans h) (by simp)
  · by_cases hq : q = p
    · exact hw ⟨y, hq ▸ h⟩
    · exact hlock ⟨q, y, h, hq⟩

/-- An accepted row is in conflict with no version of another one. -/
theorem writeChecked_eq_done [DecidablePred conflict]
    (h : t.writeChecked p k x conflict = .done y t') :
    y = x ∧ t' = t.write p k x ∧ ∀ k' ≠ k, ∀ v, (t.row k').Version v → ¬conflict v := by
  unfold writeChecked at h
  split at h
  · cases h
  split at h
  · cases h
  rename_i hfree
  injection h with hy ht
  refine ⟨hy.symm, ht.symm, ?_⟩
  intro k' hk' v hv hc
  exact hfree ⟨k', mem_keys hv, hk', v, hv, hc⟩

theorem insert_eq_done [DecidablePred conflict] (h : t.insert p k x conflict = .done y t') :
    y = x ∧ t' = t.write p k x ∧ ¬(t.row k).Locked p ∧ t.get p k = none ∧
      ∀ k' ≠ k, ∀ v, (t.row k').Version v → ¬conflict v := by
  unfold insert at h
  split at h
  · cases h
  rename_i hlock
  split at h
  · cases h
  rename_i hnone
  obtain ⟨rfl, rfl, hfree⟩ := writeChecked_eq_done h
  exact ⟨rfl, rfl, hlock, by simpa using hnone, hfree⟩

theorem update_eq_done [DecidablePred where'] (h : t.update p k where' f = .done y t') :
    ∃ x, t.get p k = some x ∧ where' x ∧ ¬(t.row k).Locked p ∧ y = f x ∧
      t' = t.write p k (f x) := by
  unfold update at h
  split at h
  · cases h
  rename_i x hx
  split at h
  · rename_i hw
    split at h
    · cases h
    rename_i hlock
    injection h with hy ht
    exact ⟨x, hx, hw, hlock, hy.symm, ht.symm⟩
  · cases h

theorem update_eq_unmatched [DecidablePred where'] (h : t.update p k where' f = .unmatched) :
    ∀ x, t.get p k = some x → ¬where' x := by
  intro x hx hw
  unfold update at h
  rw [hx] at h
  dsimp only at h
  rw [if_pos hw] at h
  split at h <;> cases h

theorem get_eq_none_of_unmatched (h : t.update p k (fun _ => True) f = .unmatched) :
    t.get p k = none := by
  cases hget : t.get p k with
  | none => rfl
  | some x => exact absurd trivial (update_eq_unmatched h x hget)

theorem updateAll_eq_done {where' : α → Bool} {ks : List κ}
    (h : t.updateAll p where' f = .done ks t') :
    ks = t.select p where' ∧ t' = t.writeAll p f ks ∧ ∀ k ∈ ks, ¬(t.row k).Locked p := by
  unfold updateAll at h
  split at h
  · cases h
  rename_i hfree
  cases h
  exact ⟨rfl, rfl, fun k hk hlock => hfree ⟨k, hk, hlock⟩⟩

/-- Of one row it is the one write. -/
theorem writeAll_singleton (hget : t.get p k = some x) :
    t.writeAll p f [k] = t.write p k (f x) := by
  simp only [writeAll, hget]

theorem insert_ne_unmatched [DecidablePred conflict] : t.insert p k x conflict ≠ .unmatched := by
  intro h
  unfold insert at h
  split at h
  · cases h
  split at h
  · cases h
  unfold writeChecked at h
  split at h
  · cases h
  split at h <;> cases h

/-- An insert that neither waits nor is done violates a constraint. -/
theorem insert_eq_violated [DecidablePred conflict] (hwaits : t.insert p k x conflict ≠ .waits)
    (hdone : ∀ y t', t.insert p k x conflict ≠ .done y t') :
    t.insert p k x conflict = .violated := by
  cases hins : t.insert p k x conflict with
  | waits => exact absurd hins hwaits
  | unmatched => exact absurd hins insert_ne_unmatched
  | done y t' => exact absurd hins (hdone y t')
  | violated => rfl

theorem updateChecked_eq_unmatched [DecidablePred where'] {conflict : α → α → Prop}
    [∀ x y, Decidable (conflict x y)] (h : t.updateChecked p k where' f conflict = .unmatched) :
    ∀ x, t.get p k = some x → ¬where' x := by
  intro x hx hw
  unfold updateChecked at h
  rw [hx] at h
  dsimp only at h
  rw [if_pos hw] at h
  split at h
  · cases h
  unfold writeChecked at h
  split at h
  · cases h
  split at h <;> cases h

theorem get_eq_none_of_updateChecked {conflict : α → α → Prop} [∀ x y, Decidable (conflict x y)]
    (h : t.updateChecked p k (fun _ => True) f conflict = .unmatched) : t.get p k = none := by
  cases hget : t.get p k with
  | none => rfl
  | some x => exact absurd trivial (updateChecked_eq_unmatched h x hget)

theorem updateChecked_eq_done [DecidablePred where'] {conflict : α → α → Prop}
    [∀ x y, Decidable (conflict x y)] (h : t.updateChecked p k where' f conflict = .done y t') :
    ∃ x, t.get p k = some x ∧ where' x ∧ ¬(t.row k).Locked p ∧ y = f x ∧
      t' = t.write p k (f x) ∧ ∀ k' ≠ k, ∀ v, (t.row k').Version v → ¬conflict (f x) v := by
  unfold updateChecked at h
  split at h
  · cases h
  rename_i x hx
  split at h
  · rename_i hw
    split at h
    · cases h
    rename_i hlock
    obtain ⟨rfl, rfl, hfree⟩ := writeChecked_eq_done h
    exact ⟨x, hx, hw, hlock, rfl, rfl, hfree⟩
  · cases h

/-! ## When a statement does not wait -/

theorem update_eq_of_get [DecidablePred where'] (hget : t.get p k = some x) (hw : where' x)
    (hlock : ¬(t.row k).Locked p) : t.update p k where' f = .done (f x) (t.write p k (f x)) := by
  unfold update
  rw [hget]
  dsimp only
  rw [if_pos hw, if_neg hlock]

/-- An update of a row that the transaction reads may only have to wait. -/
theorem update_waits_or_done (where' : α → Prop) [DecidablePred where'] (f : α → α)
    (hget : t.get p k = some x) (hw : where' x) :
    t.update p k where' f = .waits ∨ t.update p k where' f = .done (f x) (t.write p k (f x)) := by
  by_cases hlock : (t.row k).Locked p
  · left
    unfold update
    rw [hget]
    dsimp only
    rw [if_pos hw, if_pos hlock]
  · exact Or.inr (update_eq_of_get hget hw hlock)

/-- A row that is in conflict with no version of another one is accepted. -/
theorem writeChecked_of_free [DecidablePred conflict]
    (hfree : ∀ k' ≠ k, ∀ v, (t.row k').Version v → ¬conflict v) :
    t.writeChecked p k x conflict = .done x (t.write p k x) := by
  unfold writeChecked
  rw [if_neg, if_neg]
  · rintro ⟨k', -, hne, v, hv, hc⟩
    exact hfree k' hne v hv hc
  · rintro ⟨k', -, hne, -, v, hv, hc⟩
    exact hfree k' hne v hv hc

/-- A row that is in conflict with a version that nobody else holds is refused. -/
theorem writeChecked_of_conflict [DecidablePred conflict] (hne : k' ≠ k)
    (hlock : ¬(t.row k').Locked p) (hv : (t.row k').Version y) (hc : conflict y) :
    t.writeChecked p k x conflict = .violated := by
  unfold writeChecked
  rw [if_pos ⟨k', mem_keys hv, hne, hlock, y, hv, hc⟩]

theorem writeChecked_eq_violated [DecidablePred conflict]
    (h : t.writeChecked p k x conflict = .violated) :
    ∃ k' ≠ k, ¬(t.row k').Locked p ∧ ∃ v, (t.row k').Version v ∧ conflict v := by
  unfold writeChecked at h
  split at h
  · rename_i hc
    obtain ⟨k', -, hne, hlock, v, hv, hc⟩ := hc
    exact ⟨k', hne, hlock, v, hv, hc⟩
  · split at h <;> cases h

theorem insert_eq_of_get [DecidablePred conflict] (hlock : ¬(t.row k).Locked p)
    (hget : t.get p k = none) : t.insert p k x conflict = t.writeChecked p k x conflict := by
  unfold insert
  rw [if_neg hlock, hget]
  rfl

theorem updateChecked_eq_violated [DecidablePred where'] {conflict : α → α → Prop}
    [∀ x y, Decidable (conflict x y)] (h : t.updateChecked p k where' f conflict = .violated) :
    ∃ x, t.get p k = some x ∧ where' x ∧ ∃ k' ≠ k, ¬(t.row k').Locked p ∧
      ∃ v, (t.row k').Version v ∧ conflict (f x) v := by
  unfold updateChecked at h
  split at h
  · cases h
  rename_i x hget
  split at h
  · rename_i hw
    split at h
    · cases h
    exact ⟨x, hget, hw, writeChecked_eq_violated h⟩
  · cases h

theorem update_ne_violated [DecidablePred where'] : t.update p k where' f ≠ .violated := by
  intro h
  unfold update at h
  split at h
  · cases h
  split at h
  · split at h <;> cases h
  · cases h

@[simp] theorem committed_settle : t.settle.committed = t.committed := rfl

theorem not_writtenBy_settle : ¬(t.settle.row k).WrittenBy p := by
  rintro ⟨_, hx⟩
  cases hx

theorem not_locked_settle : ¬(t.settle.row k).Locked p := by
  rintro ⟨_, _, hx, -⟩
  cases hx

@[simp] theorem get_settle : t.settle.get p k = t.committed k := get_of_not not_writtenBy_settle

theorem version_settle (h : (t.settle.row k).Version x) : t.committed k = some x := by
  rcases h with h | ⟨_, h⟩
  · exact h
  · cases h

/-! ## What one transaction leaves to another -/

/-- The rows a transaction has written are as they were, and it has written no more. -/
def Others (p : ι) (t t' : Versioned ι κ α) : Prop :=
  ∀ k, (t.row k).WrittenBy p ∨ (t'.row k).WrittenBy p → t'.row k = t.row k

theorem Others.refl : Others p t t := fun _ _ => rfl

section

variable (h : Others p t t')
include h

theorem Others.row_eq (hw : (t.row k).WrittenBy p) : t'.row k = t.row k :=
  h k (Or.inl hw)

theorem Others.row_of (hrow : t.row k = ⟨o, some (p, x)⟩) :
    t'.row k = ⟨o, some (p, x)⟩ := by
  rw [h.row_eq ⟨x, by rw [hrow]⟩, hrow]

theorem Others.wrote_iff : t'.Wrote p k x ↔ t.Wrote p k x := by
  constructor
  · intro hw
    rw [Wrote, h k (Or.inr ⟨x, hw⟩)] at hw
    exact hw
  · intro hw
    rw [Wrote, h k (Or.inl ⟨x, hw⟩)]
    exact hw

theorem Others.writtenBy_iff :
    (t'.row k).WrittenBy p ↔ (t.row k).WrittenBy p :=
  exists_congr fun _ => h.wrote_iff

/-- Where nothing is committed, a transaction reads what it has read. -/
theorem Others.get_eq (hc : t'.committed = t.committed) :
    t'.get p k = t.get p k := by
  by_cases hw : (t.row k).WrittenBy p
  · rw [get, h.row_eq hw, get]
  · rw [get_of_not hw, get_of_not fun hw' => hw (h.writtenBy_iff.1 hw'), hc]

end

theorem others_write (hq : p ≠ q) (hlock : ¬(t.row k).Locked q) : Others p t (t.write q k x) := by
  intro k' hk'
  by_cases h : k' = k
  · subst h
    rcases hk' with hw | hw
    · exact absurd hw (Row.not_writtenBy_of_not_locked hlock hq)
    obtain ⟨_, hy⟩ := hw
    simp [Row.write] at hy
    exact absurd hy.1 hq.symm
  · exact row_write_ne h

theorem others_commit (hq : p ≠ q) : Others p t (t.commit q) := by
  intro k hk
  by_cases h : (t.row k).WrittenBy q
  · rcases hk with hw | ⟨_, hy⟩
    · exact absurd (writtenBy_unique hw h) hq
    obtain ⟨_, hx⟩ := h
    rw [row_commit, commit_of_written hx] at hy
    cases hy
  · exact commit_of_not h

theorem others_rollback (hq : p ≠ q) : Others p t (t.rollback q) := by
  intro k hk
  by_cases h : (t.row k).WrittenBy q
  · rcases hk with hw | ⟨_, hy⟩
    · exact absurd (writtenBy_unique hw h) hq
    obtain ⟨_, hx⟩ := h
    rw [row_rollback, rollback_of_written hx] at hy
    cases hy
  · exact rollback_of_not h

theorem others_delete (hlock : ¬(t.row k).WrittenBy p) : Others p t (t.delete k) := by
  intro k' hk'
  by_cases h : k' = k
  · subst h
    rcases hk' with hw | hw
    · exact absurd hw hlock
    rw [row_delete_self] at hw
    obtain ⟨_, hy⟩ := hw
    cases hy
  · exact row_delete_ne h

/-! ## What one transaction has written -/

/-- The transaction has written nothing. -/
def Untouched (t : Versioned ι κ α) (p : ι) : Prop := ∀ k, ¬(t.row k).WrittenBy p

/-- The transaction has written one row at most. -/
def OnlyAt (t : Versioned ι κ α) (p : ι) (k : κ) : Prop := ∀ k', (t.row k').WrittenBy p → k' = k

theorem untouched_empty : (empty : Versioned ι κ α).Untouched p := by
  rintro k ⟨_, hx⟩
  cases hx

theorem untouched_commit : (t.commit p).Untouched p := fun _ => not_writtenBy_commit

theorem untouched_rollback : (t.rollback p).Untouched p := fun _ => not_writtenBy_rollback

theorem Untouched.rollback_eq (h : t.Untouched p) : t.rollback p = t := by
  have hrow : (fun k => (t.row k).rollback p) = t.row := funext fun k => rollback_of_not (h k)
  unfold rollback
  simp only [hrow]

theorem untouched_settle : t.settle.Untouched p := fun _ => not_writtenBy_settle

theorem untouched_ofRows : (ofRows rows : Versioned ι κ α).Untouched p := by
  rintro k ⟨_, hx⟩
  cases hx

theorem mem_of_committed_ofRows (h : (ofRows rows : Versioned ι κ α).committed k = some x) :
    (k, x) ∈ rows := by
  obtain ⟨⟨k', _⟩, hfind, rfl⟩ := map_eq_some_iff.1 h
  have hat := find?_some hfind
  have hk : k' = k := of_decide_eq_true hat
  rw [← hk]
  exact mem_of_find?_eq_some hfind

theorem committed_ofRows_eq_none :
    (ofRows rows : Versioned ι κ α).committed k = none ↔ ∀ r ∈ rows, r.1 ≠ k := by
  rw [show (ofRows rows : Versioned ι κ α).committed k =
    (rows.find? fun r => r.1 = k).map Prod.snd from rfl, map_eq_none_iff,
    find?_eq_none]
  simp only [decide_eq_true_eq, ne_eq]

theorem Others.untouched (h : Others p t t') (hu : t.Untouched p) : t'.Untouched p :=
  fun k hk => hu k (h.writtenBy_iff.1 hk)

theorem Others.onlyAt (h : Others p t t') (ho : t.OnlyAt p k) : t'.OnlyAt p k :=
  fun k' hk' => ho k' (h.writtenBy_iff.1 hk')

theorem Untouched.onlyAt (h : t.Untouched p) : t.OnlyAt p k := fun k' hk' => absurd hk' (h k')

theorem writtenBy_write (h : ((t.write p k x).row k').WrittenBy p) :
    k' = k ∨ (t.row k').WrittenBy p := by
  by_cases hk : k' = k
  · exact Or.inl hk
  · rw [row_write_ne hk] at h
    exact Or.inr h

theorem OnlyAt.write (h : t.OnlyAt p k) : (t.write p k x).OnlyAt p k :=
  fun k' hk' => (writtenBy_write hk').elim id (h k')

theorem Untouched.get_eq (h : t.Untouched p) : t.get p k = t.committed k := get_of_not (h k)

/-- A transaction that has not written the table selects the committed rows. -/
theorem mem_select {P : α → Bool} (h : t.Untouched p) :
    k ∈ t.select p P ↔ ∃ x, t.committed k = some x ∧ P x = true := by
  rw [select, mem_filter, h.get_eq]
  cases hc : t.committed k with
  | none => simp
  | some => simp [mem_keys_of_committed hc]

theorem nodup_select (t : Versioned ι κ α) (p : ι) (P : α → Bool) : (t.select p P).Nodup :=
  t.nodup.filter _

theorem Untouched.committed_commit (h : t.Untouched p) : (t.commit p).committed = t.committed :=
  funext fun k => committed_commit_of_not (h k)

/-- A transaction that has written one row commits that row. -/
theorem committed_commit_of_onlyAt (hw : t.Wrote p k x) (honly : t.OnlyAt p k) :
    (t.commit p).committed = Function.update t.committed k (some x) := by
  funext k'
  by_cases hk : k' = k
  · subst hk
    rw [update_self]
    exact hw.committed_commit
  · rw [update_of_ne hk]
    exact committed_commit_of_not fun hw' => hk (honly k' hw')

/-- A write in a transaction of its own. -/
def put (t : Versioned ι κ α) (p : ι) (k : κ) (x : α) : Versioned ι κ α := (t.write p k x).commit p

theorem row_put_self : (t.put p k x).row k = ⟨some x, none⟩ := by
  rw [put, row_commit, row_write_self]
  exact commit_of_written rfl

theorem row_put_ne (h : t.Untouched p) (hne : k' ≠ k) : (t.put p k x).row k' = t.row k' := by
  rw [put, row_commit, row_write_ne hne]
  exact commit_of_not (h k')

theorem committed_put (h : t.Untouched p) :
    (t.put p k x).committed = Function.update t.committed k (some x) := by
  funext k'
  by_cases hk : k' = k
  · rw [hk, update_self, committed, row_put_self]
  · rw [update_of_ne hk, committed, row_put_ne h hk, committed]

theorem untouched_put : (t.put p k x).Untouched p := untouched_commit

/-- A row that nobody else has can be written beside the other transactions. -/
theorem others_put (hq : p ≠ q) (hu : t.Untouched q) (hlock : ¬(t.row k).Locked q) :
    Others p t (t.put q k x) := by
  intro k' hk'
  by_cases hk : k' = k
  · subst hk
    rcases hk' with hw | hw
    · exact absurd hw (not_writtenBy_of_not_locked hlock hq)
    rw [row_put_self] at hw
    obtain ⟨_, hy⟩ := hw
    cases hy
  · exact row_put_ne hu hk

/-- A first write to a row leaves what is committed beside it. -/
theorem row_write (h : ¬(t.row k).WrittenBy p) :
    (t.write p k x).row k = ⟨t.get p k, some (p, x)⟩ := by
  rw [row_write_self, Row.write, get_of_not h, committed]

/-! ## Constraints on pairs of rows -/

/-- No two rows have versions that are in conflict. -/
def Apart (R : α → α → Prop) (t : Versioned ι κ α) : Prop :=
  ∀ k k' x x', (t.row k).Version x → (t.row k').Version x' → R x x' → k = k'

section Apart

variable {R : α → α → Prop}

theorem Apart.committed (h : Apart R t) {x' : α} (hx : t.committed k = some x)
    (hx' : t.committed k' = some x') (hR : R x x') : k = k' :=
  h k k' x x' (Or.inl hx) (Or.inl hx') hR

theorem version_write (h : ((t.write p k x).row k').Version y) :
    (t.row k').Version y ∨ k' = k ∧ y = x := by
  by_cases hk : k' = k
  · subst hk
    rw [row_write_self] at h
    rcases h with h | ⟨_, h⟩
    · exact Or.inl (Or.inl h)
    · simp [Row.write] at h
      exact Or.inr ⟨rfl, h.2.symm⟩
  · rw [row_write_ne hk] at h
    exact Or.inl h

section

variable (h : Apart R t)
include h

/-- A row that passed the check keeps the constraint. -/
theorem Apart.write (hsymm : ∀ x y, R x y → R y x)
    (hfree : ∀ k' ≠ k, ∀ v, (t.row k').Version v → ¬R x v) : Apart R (t.write p k x) := by
  intro k₁ k₂ x₁ x₂ h₁ h₂ hR
  rcases version_write h₁ with hv₁ | ⟨hk₁, hx₁⟩ <;> rcases version_write h₂ with hv₂ | ⟨hk₂, hx₂⟩
  · exact h k₁ k₂ x₁ x₂ hv₁ hv₂ hR
  · by_contra hne
    exact hfree k₁ (hk₂ ▸ hne) x₁ hv₁ (hsymm _ _ (hx₂ ▸ hR))
  · by_contra hne
    exact hfree k₂ (hk₁ ▸ Ne.symm hne) x₂ hv₂ (hx₁ ▸ hR)
  · rw [hk₁, hk₂]

/-- A write that brings a row into no conflict it was not in keeps the constraint. -/
theorem Apart.write_of_imp (hsymm : ∀ x y, R x y → R y x)
    (hy : (t.row k).Version y) (himp : ∀ v, R x v → R y v) : Apart R (t.write p k x) := by
  refine h.write hsymm ?_
  intro k' hk' v hv hR
  exact hk' (h k k' y v hy hv (himp v hR)).symm

theorem Apart.commit : Apart R (t.commit p) := by
  intro k₁ k₂ x₁ x₂ h₁ h₂ hR
  exact h k₁ k₂ x₁ x₂ (version_of_commit h₁) (version_of_commit h₂) hR

theorem Apart.rollback : Apart R (t.rollback p) := by
  intro k₁ k₂ x₁ x₂ h₁ h₂ hR
  exact h k₁ k₂ x₁ x₂ (version_of_rollback h₁) (version_of_rollback h₂) hR

theorem Apart.delete : Apart R (t.delete k) := by
  have hver : ∀ k' y, ((t.delete k).row k').Version y → (t.row k').Version y := by
    intro k' y hv
    by_cases hk : k' = k
    · subst hk
      simp [Row.Version, Row.empty] at hv
    · rwa [row_delete_ne hk] at hv
  intro k₁ k₂ x₁ x₂ h₁ h₂ hR
  exact h k₁ k₂ x₁ x₂ (hver k₁ x₁ h₁) (hver k₂ x₂ h₂) hR

theorem Apart.settle : Apart R t.settle := by
  intro k₁ k₂ x₁ x₂ h₁ h₂ hR
  exact h.committed (version_settle h₁) (version_settle h₂) hR

end

theorem apart_empty : Apart R (empty : Versioned ι κ α) := by
  intro k k' x x' hx
  simp [Row.Version, empty, Row.empty] at hx

end Apart

end Statement

end Decidable

end Versioned

end ReadCommitted
