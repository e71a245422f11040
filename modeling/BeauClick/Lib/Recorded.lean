import BeauClick.Lib.Transactions

/-!
# A record kept beside a service

What a property is about is not always stored where the calls run.  A record is written beside
the statements of a service and never read by them.

* `Next.map` — a statement as part of a larger service.
* `Recorder` — what is written when a statement goes on, and when a transaction ends.
* `Service.recorded` — the service with the record.
-/

namespace Transactions

open Locks

universe u v w x y z

/-- What is written beside a statement, and at the end of a transaction. -/
structure Recorder (δ : Type u) (γ : Type z) (π : Type w) (ε : Type y) where
  goes : ε → δ → ℕ → π → γ → γ
  commit : γ → ℕ → γ
  rollback : γ → ℕ → γ

variable {δ : Type u} {γ : Type z} {κ : Type v} {π : Type w} {ρ : Type x} {ε : Type y}

/-! ## Statements in a larger service -/

section Map

universe u' w'

variable {δ' : Type u'} {π' : Type w'}

/-- What a statement comes to, where the database and the places are parts of larger ones. -/
def Next.map (f : δ → δ') (g : π → π') : Next δ κ π → Next δ' κ π'
  | .waits => .waits
  | .goes db place => .goes (f db) (g place)
  | .locks key mode place => .locks key mode (g place)
  | .commits place => .commits (g place)
  | .throws place => .throws (g place)

theorem Next.Meets.map {f : δ → δ'} {g : π → π'} {n : Next δ κ π} {goes : δ' → π' → Prop}
    {locks : κ → LockMode → π' → Prop} {commits throws : π' → Prop}
    (h : n.Meets (fun db place => goes (f db) (g place)) (fun key mode place => locks key mode (g place))
      (fun place => commits (g place)) fun place => throws (g place)) :
    (n.map f g).Meets goes locks commits throws := by
  cases n with
  | _ => exact h

end Map

/-! ## The record -/

/-- What a statement comes to, with the record. -/
def Next.record (record : γ) : Next δ κ π → Next (δ × γ) κ π := Next.map (fun db => (db, record)) id

section Record

variable {n : Next δ κ π} {record : γ} {place : π}

theorem Next.record_eq_goes {db : δ × γ} (h : n.record record = .goes db place) :
    n = .goes db.1 place ∧ db.2 = record := by
  cases n with
  | goes =>
    cases h
    exact ⟨rfl, rfl⟩
  | _ => cases h

theorem Next.record_eq_locks {key : κ} {mode : LockMode}
    (h : n.record record = .locks key mode place) : n = .locks key mode place := by
  cases n with
  | locks =>
    cases h
    rfl
  | _ => cases h

theorem Next.record_eq_commits (h : n.record record = .commits place) : n = .commits place := by
  cases n with
  | commits =>
    cases h
    rfl
  | _ => cases h

theorem Next.record_eq_throws (h : n.record record = .throws place) : n = .throws place := by
  cases n with
  | throws =>
    cases h
    rfl
  | _ => cases h

end Record

/-- The service with the record. -/
def Service.recorded (S : Service δ κ π ρ ε) (R : Recorder δ γ π ε) :
    Service (δ × γ) κ π ρ ε where
  commit db pid := (S.commit db.1 pid, R.commit db.2 pid)
  rollback db pid := (S.rollback db.1 pid, R.rollback db.2 pid)
  idle := S.idle
  failed := S.failed
  running := S.running
  first := S.first
  statement env db pid place :=
    (S.statement env db.1 pid place).record (R.goes env db.1 pid place db.2)

end Transactions
