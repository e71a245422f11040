import BeauClick.Lib.Locks
import BeauClick.Lib.Runs

/-!
# Calls that take locks and run transactions

A service: any number of calls at work at the same time on a database, each of them a sequence
of statements.  A statement may take a lock, which the call keeps until its transaction ends.

* `Service.step` — a call starts, takes a statement, or dies.
* `Service.Took` — what a step has done, case by case.
* `Service.calls_of_not_mem` — a call that takes no step.
* `Service.run_without` — a call whose steps leave the database, left out of the run.
* `Outline` — what a call may rely on at a place, and the locks it holds there.
* `Proof` — each statement keeps what the others rely on whose locks are compatible with its own.
* `FreeProof` — the same where no locks are taken.
* `Proof.holds_run` — then all of it holds in every reachable state.
-/

set_option linter.unusedSectionVars false

namespace Transactions

open Locks Runs
open Function (update update_self update_of_ne)

universe u v w x y

/-- What a statement comes to. -/
inductive Next (δ : Type u) (κ : Type v) (π : Type w) where
  | waits
  | goes (db : δ) (place : π)
  /-- A lock is taken; until it is granted, the statement waits. -/
  | locks (key : κ) (mode : LockMode) (place : π)
  | commits (place : π)
  | throws (place : π)

/-- What is shown of a statement, by what it comes to. -/
def Next.Meets {δ : Type u} {κ : Type v} {π : Type w} (goes : δ → π → Prop)
    (locks : κ → LockMode → π → Prop) (commits throws : π → Prop) : Next δ κ π → Prop
  | .waits => True
  | .goes db place => goes db place
  | .locks key mode place => locks key mode place
  | .commits place => commits place
  | .throws place => throws place

/-- What is shown where no lock is taken. -/
abbrev Next.Ends {δ : Type u} {κ : Type v} {π : Type w} (goes : δ → π → Prop)
    (commits throws : π → Prop) : Next δ κ π → Prop :=
  Next.Meets goes (fun _ _ _ => False) commits throws

namespace Next.Meets

variable {δ : Type u} {κ : Type v} {π : Type w} {next : Next δ κ π} {goes : δ → π → Prop}
  {locks : κ → LockMode → π → Prop} {commits throws : π → Prop} {place : π}

section

variable (h : next.Meets goes locks commits throws)
include h

theorem of_goes {db : δ} (hst : next = .goes db place) :
    goes db place := by
  subst hst
  exact h

theorem of_locks {key : κ} {mode : LockMode}
    (hst : next = .locks key mode place) : locks key mode place := by
  subst hst
  exact h

theorem of_commits (hst : next = .commits place) :
    commits place := by
  subst hst
  exact h

theorem of_throws (hst : next = .throws place) :
    throws place := by
  subst hst
  exact h

theorem mono {goes' : δ → π → Prop} {locks' : κ → LockMode → π → Prop} {commits' throws' : π → Prop}
    (hgoes : ∀ db place, goes db place → goes' db place)
    (hlocks : ∀ key mode place, locks key mode place → locks' key mode place)
    (hcmt : ∀ place, commits place → commits' place)
    (hthrows : ∀ place, throws place → throws' place) :
    next.Meets goes' locks' commits' throws' := by
  cases next with
  | waits => trivial
  | goes db place => exact hgoes db place h
  | locks key mode place => exact hlocks key mode place h
  | commits place => exact hcmt place h
  | throws place => exact hthrows place h

theorem and {goes' : δ → π → Prop} {locks' : κ → LockMode → π → Prop} {commits' throws' : π → Prop}
    (h' : next.Meets goes' locks' commits' throws') :
    next.Meets (fun db place => goes db place ∧ goes' db place)
      (fun key mode place => locks key mode place ∧ locks' key mode place)
      (fun place => commits place ∧ commits' place) fun place => throws place ∧ throws' place := by
  cases next with
  | waits => trivial
  | _ => exact ⟨h, h'⟩

end

end Next.Meets

/-- A database, and the calls on it: their requests, and their statements place by place. -/
structure Service (δ : Type u) (κ : Type v) (π : Type w) (ρ : Type x) (ε : Type y) where
  commit : δ → ℕ → δ
  rollback : δ → ℕ → δ
  idle : π
  failed : π
  running : π → Bool
  first : ρ → π
  statement : ε → δ → ℕ → π → Next δ κ π

/-- The database, the locks that are held, and the places of the calls. -/
structure System (δ : Type u) (κ : Type v) (π : Type w) where
  db : δ
  locks : LockTable ℕ κ
  calls : ℕ → π

/-- What happens to a call. -/
inductive Action (ρ : Type x) (ε : Type y) where
  | start (request : ρ)
  | statement (env : ε)
  /-- The connection is lost, or the caller rolls back. -/
  | die

/-- A step of one call. -/
structure Step (ρ : Type x) (ε : Type y) where
  pid : ℕ
  action : Action ρ ε

variable {δ : Type u} {κ : Type v} {π : Type w} {ρ : Type x} {ε : Type y}

namespace System

variable [DecidableEq κ]

/-- A call moves on over what it has written. -/
def goes (s : System δ κ π) (pid : ℕ) (db : δ) (place : π) : System δ κ π :=
  { s with
    db := db
    calls := update s.calls pid place }

/-- The call takes a lock, and moves on. -/
def locked (s : System δ κ π) (pid : ℕ) (l : Lock ℕ κ) (h : s.locks.Grants l) (place : π) :
    System δ κ π :=
  { s with
    locks := s.locks.acquire l h
    calls := update s.calls pid place }

/-- The transaction of the call ends. -/
def ends (s : System δ κ π) (pid : ℕ) (db : δ) (place : π) : System δ κ π where
  db := db
  locks := s.locks.release pid
  calls := update s.calls pid place

end System

namespace Service

variable [DecidableEq κ] [DecidableEq π] {S : Service δ κ π ρ ε} {e : Step ρ ε}

/-- The state after a step, where it can be taken. -/
def step (S : Service δ κ π ρ ε) (s : System δ κ π) (e : Step ρ ε) : Option (System δ κ π) :=
  match e.action with
  | .start request =>
    if s.calls e.pid = S.idle then some (s.goes e.pid s.db (S.first request)) else none
  | .die =>
    if S.running (s.calls e.pid) then some (s.ends e.pid (S.rollback s.db e.pid) S.failed) else none
  | .statement env =>
    match S.statement env s.db e.pid (s.calls e.pid) with
    | .waits => none
    | .goes db place => some (s.goes e.pid db place)
    | .locks key mode place =>
      if h : s.locks.Grants ⟨key, e.pid, mode⟩ then
        some (s.locked e.pid ⟨key, e.pid, mode⟩ h place)
      else none
    | .commits place => some (s.ends e.pid (S.commit s.db e.pid) place)
    | .throws place => some (s.ends e.pid (S.rollback s.db e.pid) place)

/-- What a step has done: it starts a call, takes one of its statements, or ends it. -/
inductive Took (S : Service δ κ π ρ ε) (s : System δ κ π) : Step ρ ε → System δ κ π → Prop where
  | starts (pid : ℕ) (request : ρ) (hidle : s.calls pid = S.idle) :
    Took S s ⟨pid, .start request⟩ (s.goes pid s.db (S.first request))
  | goes (pid : ℕ) (env : ε) (db : δ) (place : π)
    (hst : S.statement env s.db pid (s.calls pid) = .goes db place) :
    Took S s ⟨pid, .statement env⟩ (s.goes pid db place)
  | locks (pid : ℕ) (env : ε) (key : κ) (mode : LockMode) (place : π)
    (hst : S.statement env s.db pid (s.calls pid) = .locks key mode place)
    (hgrants : s.locks.Grants ⟨key, pid, mode⟩) :
    Took S s ⟨pid, .statement env⟩ (s.locked pid ⟨key, pid, mode⟩ hgrants place)
  | commits (pid : ℕ) (env : ε) (place : π)
    (hst : S.statement env s.db pid (s.calls pid) = .commits place) :
    Took S s ⟨pid, .statement env⟩ (s.ends pid (S.commit s.db pid) place)
  | throws (pid : ℕ) (env : ε) (place : π)
    (hst : S.statement env s.db pid (s.calls pid) = .throws place) :
    Took S s ⟨pid, .statement env⟩ (s.ends pid (S.rollback s.db pid) place)
  | dies (pid : ℕ) (hrunning : S.running (s.calls pid) = true) :
    Took S s ⟨pid, .die⟩ (s.ends pid (S.rollback s.db pid) S.failed)

theorem took_of_step {s s' : System δ κ π} (h : S.step s e = some s') : Took S s e s' := by
  obtain ⟨pid, action⟩ := e
  cases action with
  | start request =>
    simp only [step] at h
    split at h
    · rename_i hidle
      cases h
      exact .starts pid request hidle
    · cases h
  | die =>
    simp only [step] at h
    split at h
    · rename_i hrun
      cases h
      exact .dies pid hrun
    · cases h
  | statement env =>
    simp only [step] at h
    split at h
    · cases h
    · rename_i db place hst
      cases h
      exact .goes pid env db place hst
    · rename_i key mode place hst
      split at h
      · rename_i hgrants
        cases h
        exact .locks pid env key mode place hst hgrants
      · cases h
    · rename_i place hst
      cases h
      exact .commits pid env place hst
    · rename_i place hst
      cases h
      exact .throws pid env place hst

theorem Took.step {s s' : System δ κ π} (h : Took S s e s') : S.step s e = some s' := by
  cases h with
  | starts pid request hidle => exact if_pos hidle
  | goes pid env db place hst => simp only [Service.step, hst]
  | locks pid env key mode place hst hgrants => simp only [Service.step, hst, dif_pos hgrants]
  | commits pid env place hst => simp only [Service.step, hst]
  | throws pid env place hst => simp only [Service.step, hst]
  | dies pid hrun => exact if_pos hrun

/-- One call has moved on. -/
theorem Took.calls {s s' : System δ κ π} (h : Took S s e s') :
    ∃ place, s'.calls = update s.calls e.pid place := by
  cases h with
  | _ => exact ⟨_, rfl⟩

/-- A call at the place has come to an end. -/
structure Ended (S : Service δ κ π ρ ε) (place : π) : Prop where
  idle : place ≠ S.idle
  running : S.running place = false
  waits : ∀ env db pid, S.statement env db pid place = .waits

/-- A call that has come to an end takes no step. -/
theorem Took.not_ended {s s' : System δ κ π} (h : Took S s e s') : ¬S.Ended (s.calls e.pid) := by
  intro hended
  cases h with
  | starts pid request hidle => exact hended.idle hidle
  | goes pid env db place hst => cases (hended.waits env s.db pid).symm.trans hst
  | locks pid env key mode place hst => cases (hended.waits env s.db pid).symm.trans hst
  | commits pid env place hst => cases (hended.waits env s.db pid).symm.trans hst
  | throws pid env place hst => cases (hended.waits env s.db pid).symm.trans hst
  | dies pid hrun => exact absurd (hended.running.symm.trans hrun) Bool.false_ne_true

/-- Where a call has come to an end, it stays. -/
theorem Took.calls_of_ended {s s' : System δ κ π} {q : ℕ} (h : Took S s e s')
    (hended : S.Ended (s.calls q)) : s'.calls q = s.calls q := by
  obtain ⟨_, hcalls⟩ := h.calls
  rw [hcalls, update_of_ne]
  rintro rfl
  exact h.not_ended hended

/-- A call that takes no step stays where it is. -/
theorem calls_of_not_mem (pid : ℕ) {s t : System δ κ π} {es : List (Step ρ ε)}
    (hes : ∀ e ∈ es, e.pid ≠ pid) (hrun : runFrom S.step s es = some t) :
    t.calls pid = s.calls pid := by
  induction es generalizing s with
  | nil =>
    cases hrun
    rfl
  | cons e es ih =>
    obtain ⟨_, hstep, hrest⟩ := runFrom_cons_eq_some.1 hrun
    rw [ih (fun e' he' => hes e' (List.mem_cons_of_mem e he')) hrest]
    obtain ⟨_, hcalls⟩ := (took_of_step hstep).calls
    rw [hcalls, update_of_ne (hes e List.mem_cons_self).symm]

/-- A call whose own steps leave the database might as well not have run, where no locks are
taken. -/
theorem run_without (pid : ℕ)
    (hfree : ∀ env db p place key mode place', S.statement env db p place ≠ .locks key mode place')
    {s s₁ t : System δ κ π} {es : List (Step ρ ε)} (hdb : s₁.db = s.db)
    (hcalls : ∀ q ≠ pid, s₁.calls q = s.calls q) (hstill : Along S.step
      (fun s e => e.pid = pid → ∀ s', S.step s e = some s' → s'.db = s.db) s es)
    (hrun : runFrom S.step s es = some t) :
    ∃ t₁, runFrom S.step s₁ (es.filter fun e => e.pid ≠ pid) = some t₁ ∧ t₁.db = t.db := by
  induction es generalizing s s₁ with
  | nil =>
    cases hrun
    exact ⟨s₁, rfl, hdb⟩
  | cons e es ih =>
    obtain ⟨s', hstep, hrest⟩ := runFrom_cons_eq_some.1 hrun
    by_cases hpid : e.pid = pid
    · rw [List.filter_cons_of_neg (by simpa using hpid)]
      refine ih (hdb.trans (hstill.1 hpid s' hstep).symm) ?_ (hstill.2 s' hstep) hrest
      intro q hq
      rw [hcalls q hq]
      have hone : runFrom S.step s [e] = some s' := runFrom_cons_eq_some.2 ⟨s', hstep, rfl⟩
      exact (calls_of_not_mem q (by simpa [hpid] using hq.symm) hone).symm
    · rw [List.filter_cons_of_pos (by simpa using hpid)]
      -- the two states take the same step
      obtain ⟨s₁', hstep₁, hdb₁, hcalls₁⟩ : ∃ s₁', S.step s₁ e = some s₁' ∧ s₁'.db = s'.db ∧
          ∀ q ≠ pid, s₁'.calls q = s'.calls q := by
        have hupd : ∀ (place : π) (q : ℕ), q ≠ pid →
            update s₁.calls e.pid place q = update s.calls e.pid place q := by
          intro place q hq
          by_cases hqe : q = e.pid
          · rw [hqe, update_self, update_self]
          · rw [update_of_ne hqe, update_of_ne hqe, hcalls q hq]
        have hcall := hcalls e.pid hpid
        cases took_of_step hstep with
        | starts p request hidle =>
          exact ⟨_, (Took.starts p request (hcall.trans hidle)).step, hdb, hupd _⟩
        | goes p env db place hst =>
          rw [← hdb, ← hcall] at hst
          exact ⟨_, (Took.goes p env db place hst).step, rfl, hupd _⟩
        | locks p env key mode place hst => exact absurd hst (hfree _ _ _ _ _ _ _)
        | commits p env place hst =>
          rw [← hdb, ← hcall] at hst
          exact ⟨_, (Took.commits p env place hst).step, congrArg (S.commit · p) hdb, hupd _⟩
        | throws p env place hst =>
          rw [← hdb, ← hcall] at hst
          exact ⟨_, (Took.throws p env place hst).step, congrArg (S.rollback · p) hdb, hupd _⟩
        | dies p hrunning =>
          rw [← hcall] at hrunning
          exact ⟨_, (Took.dies p hrunning).step, congrArg (S.rollback · p) hdb, hupd _⟩
      obtain ⟨t₁, hrun₁, ht₁⟩ := ih hdb₁ hcalls₁ (hstill.2 s' hstep) hrest
      exact ⟨t₁, runFrom_cons_eq_some.2 ⟨s₁', hstep₁, hrun₁⟩, ht₁⟩

/-- Every call is idle and nothing is locked. -/
def start (S : Service δ κ π ρ ε) (db : δ) : System δ κ π := ⟨db, .empty, fun _ => S.idle⟩

end Service

/-! ## What calls may rely on -/

/-- The locks of two places may be held at the same time. -/
def Together (holds : π → κ → LockMode → Prop) (p q : π) : Prop :=
  ∀ k m n, holds p k m → holds q k n → m = .shared ∧ n = .shared

/-- What holds of the database and how a step may change it, what a call may rely on and which
locks it holds at a place, and what is assumed where a statement is taken. -/
structure Outline (δ : Type u) (κ : Type v) (π : Type w) (ε : Type y) where
  Assumes : ε → δ → ℕ → π → Prop
  Sound : δ → Prop
  Guarantee : δ → δ → Prop
  Work : δ → ℕ → π → Prop
  holds : π → κ → LockMode → Prop

/-- A step from one database to the next keeps what holds and what is guaranteed, and leaves the
other calls what they rely on, when their locks may be held together with those of the call that
takes it. -/
structure Outline.Keeps (O : Outline δ κ π ε) (db : δ) (pid : ℕ) (place : π) (db' : δ) : Prop where
  sound : O.Sound db'
  guarantee : O.Guarantee db db'
  others : ∀ q place', q ≠ pid → Together O.holds place place' → O.Work db q place' →
    O.Work db' q place'

/-- The statements of a service keep an outline.  Where nothing is guaranteed, or no locks are
held, there is nothing to say of it. -/
structure Proof (S : Service δ κ π ρ ε) (O : Outline δ κ π ε) : Prop where
  refl : ∀ db, O.Guarantee db db := by exact fun _ => trivial
  trans : ∀ db db' db'', O.Guarantee db db' → O.Guarantee db' db'' → O.Guarantee db db'' := by
    exact fun _ _ _ _ _ => trivial
  idle_holds : ∀ k m, ¬O.holds S.idle k m := by exact fun _ _ h => h
  first : ∀ db pid request, O.Work db pid S.idle →
    O.Work db pid (S.first request) ∧ ∀ k m, ¬O.holds (S.first request) k m
  goes : ∀ env db pid place db' place', O.Assumes env db pid place →
    O.Sound db → O.Work db pid place → S.statement env db pid place = .goes db' place' →
    O.Keeps db pid place db' ∧ O.Work db' pid place' ∧
      ∀ k m, O.holds place' k m → O.holds place k m
  locks : ∀ env db pid place key mode place', O.Assumes env db pid place →
    O.Sound db → O.Work db pid place → S.statement env db pid place = .locks key mode place' →
    O.Work db pid place' ∧
      ∀ k m, O.holds place' k m → O.holds place k m ∨ k = key ∧ m = mode
  commits : ∀ env db pid place place', O.Assumes env db pid place →
    O.Sound db → O.Work db pid place → S.statement env db pid place = .commits place' →
    O.Keeps db pid place (S.commit db pid) ∧ O.Work (S.commit db pid) pid place' ∧
      ∀ k m, ¬O.holds place' k m
  throws : ∀ env db pid place place', O.Assumes env db pid place →
    O.Sound db → O.Work db pid place → S.statement env db pid place = .throws place' →
    O.Keeps db pid place (S.rollback db pid) ∧ O.Work (S.rollback db pid) pid place' ∧
      ∀ k m, ¬O.holds place' k m
  dies : ∀ db pid place, S.running place = true → O.Sound db → O.Work db pid place →
    O.Keeps db pid place (S.rollback db pid) ∧ O.Work (S.rollback db pid) pid S.failed ∧
      ∀ k m, ¬O.holds S.failed k m

/-- A call that comes to a place has kept the outline, and may rely on what is said there. -/
structure Outline.Moves (O : Outline δ κ π ε) (db : δ) (pid : ℕ) (place : π) (db' : δ)
    (place' : π) : Prop where
  keeps : O.Keeps db pid place db'
  work : O.Work db' pid place'

/-- The statements of a service keep an outline that says nothing of locks. -/
structure FreeProof (S : Service δ κ π ρ ε) (O : Outline δ κ π ε) : Prop where
  refl : ∀ db, O.Guarantee db db := by exact fun _ => trivial
  trans : ∀ db db' db'', O.Guarantee db db' → O.Guarantee db' db'' → O.Guarantee db db'' := by
    exact fun _ _ _ _ _ => trivial
  free : ∀ place k m, ¬O.holds place k m := by exact fun _ _ _ h => h
  first : ∀ db pid request, O.Work db pid S.idle → O.Work db pid (S.first request)
  statement : ∀ env db pid place, O.Assumes env db pid place → O.Sound db → O.Work db pid place →
    (S.statement env db pid place).Meets (O.Moves db pid place) (fun _ _ => O.Work db pid)
      (O.Moves db pid place (S.commit db pid)) (O.Moves db pid place (S.rollback db pid))
  dies : ∀ db pid place, S.running place = true → O.Sound db → O.Work db pid place →
    O.Moves db pid place (S.rollback db pid) S.failed

theorem FreeProof.proof {S : Service δ κ π ρ ε} {O : Outline δ κ π ε} (h : FreeProof S O) :
    Proof S O where
  refl := h.refl
  trans := h.trans
  idle_holds := h.free S.idle
  first := fun db pid request hw => ⟨h.first db pid request hw, h.free _⟩
  goes := by
    intro env db pid place db' place' hm hs hw hst
    have hmoves := (h.statement env db pid place hm hs hw).of_goes hst
    exact ⟨hmoves.keeps, hmoves.work, fun k m hk => (h.free place' k m hk).elim⟩
  locks := by
    intro env db pid place key mode place' hm hs hw hst
    exact ⟨(h.statement env db pid place hm hs hw).of_locks hst,
      fun k m hk => (h.free place' k m hk).elim⟩
  commits := by
    intro env db pid place place' hm hs hw hst
    have hmoves := (h.statement env db pid place hm hs hw).of_commits hst
    exact ⟨hmoves.keeps, hmoves.work, h.free place'⟩
  throws := by
    intro env db pid place place' hm hs hw hst
    have hmoves := (h.statement env db pid place hm hs hw).of_throws hst
    exact ⟨hmoves.keeps, hmoves.work, h.free place'⟩
  dies := by
    intro db pid place hrun hs hw
    have hmoves := h.dies db pid place hrun hs hw
    exact ⟨hmoves.keeps, hmoves.work, h.free S.failed⟩

/-- What is assumed of a step. -/
def Outline.Meets (O : Outline δ κ π ε) (s : System δ κ π) (e : Step ρ ε) : Prop :=
  match e.action with
  | .statement env => O.Assumes env s.db e.pid (s.calls e.pid)
  | _ => True

instance (O : Outline δ κ π ε) [∀ env db pid place, Decidable (O.Assumes env db pid place)]
    (s : System δ κ π) (e : Step ρ ε) : Decidable (O.Meets s e) :=
  match e with
  | ⟨_, .start _⟩ => isTrue trivial
  | ⟨pid, .statement env⟩ => inferInstanceAs (Decidable (O.Assumes env s.db pid (s.calls pid)))
  | ⟨_, .die⟩ => isTrue trivial

/-- The outline holds of a state: of its database, of its locks and of every call. -/
structure Outline.Holds (O : Outline δ κ π ε) (s : System δ κ π) : Prop where
  sound : O.Sound s.db
  locked : ∀ pid k m, O.holds (s.calls pid) k m → ⟨k, pid, m⟩ ∈ s.locks.held
  work : ∀ pid, O.Work s.db pid (s.calls pid)

section Rule

variable [DecidableEq κ] [DecidableEq π] {S : Service δ κ π ρ ε} {O : Outline δ κ π ε}
  {s s' : System δ κ π} {pid : ℕ} {db : δ} {place : π}

section

variable (h : O.Holds s)
include h

/-- The locks of different calls may be held together: they are. -/
theorem Outline.Holds.together {p q : ℕ} (hne : q ≠ p) :
    Together O.holds (s.calls p) (s.calls q) := by
  intro k m n hp hq
  exact s.locks.compatible _ (h.locked p k m hp) _ (h.locked q k n hq) rfl fun heq => hne heq.symm

/-- The call has moved on, and the others are where they were. -/
theorem Outline.Holds.work_update (hk : O.Keeps s.db pid (s.calls pid) db)
    (hw : O.Work db pid place) (q : ℕ) : O.Work db q (update s.calls pid place q) := by
  by_cases hq : q = pid
  · rw [hq, update_self]
    exact hw
  · rw [update_of_ne hq]
    exact hk.others q (s.calls q) hq (h.together hq) (h.work q)

theorem Outline.Holds.goes (hk : O.Keeps s.db pid (s.calls pid) db)
    (hw : O.Work db pid place) (hlock : ∀ k m, O.holds place k m → O.holds (s.calls pid) k m) :
    O.Holds (s.goes pid db place) where
  sound := hk.sound
  work := h.work_update hk hw
  locked := by
    intro q k m hq
    by_cases hqp : q = pid
    · subst hqp
      have hat : O.holds place k m := by simpa [System.goes] using hq
      exact h.locked q k m (hlock k m hat)
    · have hat : O.holds (s.calls q) k m := by simpa [System.goes, hqp] using hq
      exact h.locked q k m hat

/-- A call moves on, and nothing changes for the others. -/
theorem Proof.keeps_refl (P : Proof S O) :
    O.Keeps s.db pid (s.calls pid) s.db :=
  ⟨h.sound, P.refl s.db, fun _ _ _ _ hq => hq⟩

theorem Outline.Holds.takes {key : κ} {mode : LockMode} {hgrants : s.locks.Grants ⟨key, pid, mode⟩}
    (hk : O.Keeps s.db pid (s.calls pid) s.db) (hw : O.Work s.db pid place)
    (hlock : ∀ k m, O.holds place k m → O.holds (s.calls pid) k m ∨ k = key ∧ m = mode) :
    O.Holds (s.locked pid ⟨key, pid, mode⟩ hgrants place) where
  sound := h.sound
  work := h.work_update hk hw
  locked := by
    intro q k m hq
    refine (LockTable.mem_acquire (h := hgrants)).2 ?_
    by_cases hqp : q = pid
    · subst hqp
      have hat : O.holds place k m := by simpa [System.locked] using hq
      rcases hlock k m hat with hbef | ⟨rfl, rfl⟩
      · exact Or.inr (h.locked q k m hbef)
      · exact Or.inl rfl
    · have hat : O.holds (s.calls q) k m := by simpa [System.locked, hqp] using hq
      exact Or.inr (h.locked q k m hat)

theorem Outline.Holds.ends (hk : O.Keeps s.db pid (s.calls pid) db)
    (hw : O.Work db pid place) (hlock : ∀ k m, ¬O.holds place k m) :
    O.Holds (s.ends pid db place) where
  sound := hk.sound
  work := h.work_update hk hw
  locked := by
    intro q k m hq
    by_cases hqp : q = pid
    · subst hqp
      have hat : O.holds place k m := by simpa [System.ends] using hq
      exact absurd hat (hlock k m)
    · have hat : O.holds (s.calls q) k m := by simpa [System.ends, hqp] using hq
      exact LockTable.mem_release.2 ⟨h.locked q k m hat, hqp⟩

end

theorem Proof.holds_start (P : Proof S O) (hs : O.Sound db) (hw : ∀ pid, O.Work db pid S.idle) :
    O.Holds (S.start db) where
  sound := hs
  work := hw
  locked := fun _ k m h => absurd h (P.idle_holds k m)

/-- What every statement keeps, every step keeps. -/
theorem Proof.holds_step (P : Proof S O) (h : O.Holds s) {e : Step ρ ε} (hm : O.Meets s e)
    (hs : S.step s e = some s') : O.Holds s' ∧ O.Guarantee s.db s'.db := by
  have hrefl : O.Keeps s.db e.pid (s.calls e.pid) s.db := P.keeps_refl h
  cases Service.took_of_step hs with
  | starts pid request hidle =>
    have hwork := h.work pid
    rw [hidle] at hwork
    obtain ⟨hw, hlock⟩ := P.first s.db pid request hwork
    exact ⟨h.goes hrefl hw fun k m hk => absurd hk (hlock k m), hrefl.guarantee⟩
  | goes pid env db place hst =>
    obtain ⟨hk, hw, hlock⟩ := P.goes env s.db pid _ db place hm h.sound (h.work pid) hst
    exact ⟨h.goes hk hw hlock, hk.guarantee⟩
  | locks pid env key mode place hst =>
    obtain ⟨hw, hlock⟩ := P.locks env s.db pid _ key mode place hm h.sound (h.work pid) hst
    exact ⟨h.takes hrefl hw hlock, hrefl.guarantee⟩
  | commits pid env place hst =>
    obtain ⟨hk, hw, hlock⟩ := P.commits env s.db pid _ place hm h.sound (h.work pid) hst
    exact ⟨h.ends hk hw hlock, hk.guarantee⟩
  | throws pid env place hst =>
    obtain ⟨hk, hw, hlock⟩ := P.throws env s.db pid _ place hm h.sound (h.work pid) hst
    exact ⟨h.ends hk hw hlock, hk.guarantee⟩
  | dies pid hrun =>
    obtain ⟨hk, hw, hlock⟩ := P.dies s.db pid (s.calls pid) hrun h.sound (h.work pid)
    exact ⟨h.ends hk hw hlock, hk.guarantee⟩

/-- And every run does whose steps meet what is assumed. -/
theorem Proof.holds_run (P : Proof S O) (h : O.Holds s) {es : List (Step ρ ε)}
    (hm : Along S.step O.Meets s es) (hs : runFrom S.step s es = some s') :
    O.Holds s' ∧ O.Guarantee s.db s'.db := by
  refine runFrom_invariant_along (I := fun t => O.Holds t ∧ O.Guarantee s.db t.db) ?_
    ⟨h, P.refl s.db⟩ hm hs
  intro t e t' ht hmeets hstep
  obtain ⟨hholds, hguarantee⟩ := P.holds_step ht.1 hmeets hstep
  exact ⟨hholds, P.trans _ _ _ ht.2 hguarantee⟩

section

variable (h : ∀ env db pid place, O.Assumes env db pid place)
include h

theorem Outline.meets (s : System δ κ π) (e : Step ρ ε) : O.Meets s e := by
  unfold Outline.Meets
  split
  · exact h _ _ _ _
  · trivial

/-- Where nothing is assumed, every run is such a run. -/
theorem along_meets (es : List (Step ρ ε)) :
    Along S.step O.Meets s es :=
  along_of_invariant (fun _ _ _ _ _ => trivial) (fun s e _ => O.meets h s e) trivial es

end

end Rule

end Transactions
