import BeauClick.Referral.Codes

/-!
# One code, one attribution

What the tables say of themselves holds of their uncommitted rows too (`ClaimSound`); a call relies
on what it has written itself, and on a code that is there to stay (`Stored`).
-/

namespace BeauClick.Referral

open Locks ReadCommitted ReadCommitted.Versioned Runs Transactions Option
open Function (update update_self update_of_ne)

namespace Claiming

variable {config : ClaimConfig} {env : ClaimEnv} {db db' : ClaimDb} {p q : ℕ}
  {place place' : ClaimPlace} {i : ClaimInput} {codeRow : ReferralCodeEntity} {now : Instant}
  {ownerUserId : Uuid} {view : ReferralCodeView} {key : Uuid × Instant}

/-! ## What holds of the tables -/

/-- The rows are under their keys, no code is given twice, nobody is their own referrer, and the
counters count the attempts that pass. -/
structure ClaimSound (db : ClaimDb) : Prop where
  codes : ∀ k row, (db.codes.row k).Version row → row.ownerUserId = k
  apart : Apart SameCode db.codes
  referrals : ∀ k x, (db.referrals.row k).Version x →
    x.refereeUserId = k ∧ x.referrerUserId ≠ x.refereeUserId
  count : ∀ key, db.passes.committed.countP (fun pass => pass.2 = key) =
    (db.claimAttempts.committed key).getD 0
  bound : ∀ key, (db.claimAttempts.committed key).getD 0 ≤ referralClaimAttemptsPerHour

/-! ## What a call relies on -/

/-- The call has written nothing. -/
structure Fresh (db : ClaimDb) (p : ℕ) : Prop where
  codes : db.codes.Untouched p
  referrals : db.referrals.Untouched p
  claimAttempts : db.claimAttempts.Untouched p
  passes : db.passes.pending p = []

/-- The owner has the code that is shown. -/
def Stored (config : ClaimConfig) (db : ClaimDb) (ownerUserId : Uuid) (view : ReferralCodeView) :
    Prop :=
  ∃ row, db.codes.committed ownerUserId = some row ∧ row.ownerUserId = ownerUserId ∧
    view = config.toView row

/-- The call has passed the throttle. -/
def HasPassed (db : ClaimDb) (p : ℕ) (i : ClaimInput) : Prop :=
  ∃ bucket, (p, i.refereeUserId, bucket) ∈ db.passes.committed

/-- The call has written a code, and nothing else. -/
structure Coded (db : ClaimDb) (p : ℕ) (row : ReferralCodeEntity) : Prop where
  wrote : db.codes.row row.ownerUserId = ⟨none, some (p, row)⟩
  only : db.codes.OnlyAt p row.ownerUserId
  referrals : db.referrals.Untouched p
  claimAttempts : db.claimAttempts.Untouched p
  passes : db.passes.pending p = []

/-- The call has counted its attempt, within the limit. -/
structure Counted (db : ClaimDb) (p : ℕ) (key : Uuid × Instant) : Prop where
  wrote : db.claimAttempts.Wrote p key ((db.claimAttempts.committed key).getD 0 + 1)
  only : db.claimAttempts.OnlyAt p key
  bound : (db.claimAttempts.committed key).getD 0 + 1 ≤ referralClaimAttemptsPerHour
  passes : db.passes.pending p = [(p, key)]
  codes : db.codes.Untouched p
  referrals : db.referrals.Untouched p

/-- The call has written its attribution, where there was none. -/
structure Attributing (db : ClaimDb) (p : ℕ) (i : ClaimInput) : Prop where
  wrote : ∃ x, db.referrals.row i.refereeUserId = ⟨none, some (p, x)⟩
  only : db.referrals.OnlyAt p i.refereeUserId
  codes : db.codes.Untouched p
  claimAttempts : db.claimAttempts.Untouched p
  passes : db.passes.pending p = []

/-- What a call has read and written, place by place. -/
def ClaimWork (config : ClaimConfig) (db : ClaimDb) (p : ℕ) : ClaimPlace → Prop
  | .returned ownerUserId view => Fresh db p ∧ Stored config db ownerUserId view
  | .exhausted _ => False
  | .create _ attempt => Fresh db p ∧ attempt ≤ maxCodeAttempts
  | .created row => Coded db p row
  | .findWinner ownerUserId _ => Fresh db p ∧ db.codes.committed ownerUserId ≠ none
  | .threw i .refused => Fresh db p ∧ HasPassed db p i
  | .threw _ (.throttled limit) => Fresh db p ∧ limit = referralClaimAttemptsPerHour
  | .threw _ .queryFailed => False
  | .charged i => ∃ bucket, Counted db p (i.refereeUserId, bucket)
  | .transaction i | .lookup i | .claimed i _ => Fresh db p ∧ HasPassed db p i
  | .prior i codeRow | .account i codeRow _ | .booking i codeRow _ | .insert i codeRow _ =>
    Fresh db p ∧ HasPassed db p i ∧ codeRow.ownerUserId ≠ i.refereeUserId
  | .attributed i _ => Attributing db p i ∧ HasPassed db p i
  | _ => Fresh db p

/-- The condition where a statement is taken. -/
def FewAt (env : ClaimEnv) (db : ClaimDb) (p : ℕ) (place : ClaimPlace) : Prop :=
  ∀ ownerUserId, place = .create ownerUserId maxCodeAttempts → ¬CollidesAt env db p ownerUserId

/-- What holds of the tables, and what a call relies on. -/
def claimOutline (config : ClaimConfig) : Outline ClaimDb Uuid ClaimPlace ClaimEnv where
  Assumes := FewAt
  Sound := ClaimSound
  Guarantee := fun _ _ => True
  Work := ClaimWork config
  holds := fun _ _ _ => False

/-! ## What a step leaves to the calls beside it -/

/-- What the step of another call leaves to a call. -/
structure Beside (q : ℕ) (db db' : ClaimDb) : Prop where
  codes : Others q db.codes db'.codes
  referrals : Others q db.referrals db'.referrals
  claimAttempts : Others q db.claimAttempts db'.claimAttempts
  pending : db'.passes.pending q = db.passes.pending q
  grows : ∀ k row, db.codes.committed k = some row → db'.codes.committed k = some row
  passed : ∀ pass ∈ db.passes.committed, pass ∈ db'.passes.committed

theorem Fresh.beside (h : Fresh db q) (hb : Beside q db db') : Fresh db' q :=
  ⟨hb.codes.untouched h.codes, hb.referrals.untouched h.referrals,
    hb.claimAttempts.untouched h.claimAttempts, hb.pending.trans h.passes⟩

theorem Stored.grows (h : Stored config db ownerUserId view)
    (hgrows : ∀ k row, db.codes.committed k = some row → db'.codes.committed k = some row) :
    Stored config db' ownerUserId view := by
  obtain ⟨row, hrow, hview⟩ := h
  exact ⟨row, hgrows _ row hrow, hview⟩

theorem HasPassed.grows (h : HasPassed db q i)
    (hpassed : ∀ pass ∈ db.passes.committed, pass ∈ db'.passes.committed) : HasPassed db' q i := by
  obtain ⟨bucket, hmem⟩ := h
  exact ⟨bucket, hpassed _ hmem⟩

theorem Coded.beside (h : Coded db q codeRow) (hb : Beside q db db') : Coded db' q codeRow :=
  ⟨hb.codes.row_of h.wrote, hb.codes.onlyAt h.only, hb.referrals.untouched h.referrals,
    hb.claimAttempts.untouched h.claimAttempts, hb.pending.trans h.passes⟩

theorem Counted.beside (h : Counted db q key) (hb : Beside q db db') : Counted db' q key := by
  have hcomm : db'.claimAttempts.committed key = db.claimAttempts.committed key :=
    congrArg Row.committed (hb.claimAttempts.row_eq h.wrote.writtenBy)
  refine ⟨?_, hb.claimAttempts.onlyAt h.only, ?_, hb.pending.trans h.passes,
    hb.codes.untouched h.codes, hb.referrals.untouched h.referrals⟩
  · rw [hcomm]
    exact hb.claimAttempts.wrote_iff.2 h.wrote
  · rw [hcomm]
    exact h.bound

theorem Attributing.beside (h : Attributing db q i) (hb : Beside q db db') :
    Attributing db' q i :=
  ⟨h.wrote.imp fun _ => hb.referrals.row_of, hb.referrals.onlyAt h.only, hb.codes.untouched h.codes,
    hb.claimAttempts.untouched h.claimAttempts, hb.pending.trans h.passes⟩

theorem work_beside (h : ClaimWork config db q place) (hb : Beside q db db') :
    ClaimWork config db' q place := by
  cases place with
  | returned => exact ⟨h.1.beside hb, h.2.grows hb.grows⟩
  | exhausted => exact h
  | create => exact ⟨h.1.beside hb, h.2⟩
  | created => exact Coded.beside h hb
  | findWinner =>
    obtain ⟨row, hrow⟩ := ne_none_iff_exists'.1 h.2
    exact ⟨h.1.beside hb, by simp [hb.grows _ row hrow]⟩
  | threw i error =>
    cases error with
    | refused => exact ⟨h.1.beside hb, h.2.grows hb.passed⟩
    | throttled => exact ⟨h.1.beside hb, h.2⟩
    | queryFailed => exact h
  | charged =>
    obtain ⟨bucket, hcnt⟩ := h
    exact ⟨bucket, hcnt.beside hb⟩
  | transaction | lookup | claimed => exact ⟨h.1.beside hb, h.2.grows hb.passed⟩
  | prior | account | booking | insert => exact ⟨h.1.beside hb, h.2.1.grows hb.passed, h.2.2⟩
  | attributed => exact ⟨h.1.beside hb, h.2.grows hb.passed⟩
  | _ => exact Fresh.beside h hb

theorem keeps_of_beside (hs : ClaimSound db') (hb : ∀ q ≠ p, Beside q db db') :
    (claimOutline config).Keeps db p place db' where
  sound := hs
  guarantee := trivial
  others := fun q _ hq _ hw => work_beside hw (hb q hq)

/-! ## Statements that commit nothing -/

/-- What a statement keeps. -/
structure Passes (config : ClaimConfig) (db : ClaimDb) (p : ℕ) (db' : ClaimDb)
    (place' : ClaimPlace) : Prop where
  sound : ClaimSound db'
  beside : ∀ q ≠ p, Beside q db db'
  work : ClaimWork config db' p place'

theorem beside_refl : Beside q db db :=
  ⟨.refl, .refl, .refl, rfl, fun _ _ h => h, fun _ h => h⟩

theorem Passes.of_work (hs : ClaimSound db) (hw : ClaimWork config db p place') :
    Passes config db p db place' := ⟨hs, fun _ _ => beside_refl, hw⟩

theorem violates_reported (hviol : db.codes.insert p ownerUserId (env.codeRow ownerUserId)
    (SameCode (env.codeRow ownerUserId)) = .violated) :
    Violates db p (env.codeRow ownerUserId)
      (uniqueViolationConstraint env db p (env.codeRow ownerUserId)) := by
  have hor : Violates db p (env.codeRow ownerUserId) .owner ∨
      Violates db p (env.codeRow ownerUserId) .code := by
    unfold Versioned.insert at hviol
    split_ifs at hviol with hlock hsome
    · exact Or.inl hsome
    · obtain ⟨k, -, hlock', row, hrow, hsame⟩ := writeChecked_eq_violated hviol
      exact Or.inr ⟨k, mem_keys hrow, hlock', row, hrow, hsame⟩
  unfold uniqueViolationConstraint
  split
  · assumption
  · rename_i hfirst
    split
    · rename_i hcode
      rw [hcode] at hfirst
      exact hor.resolve_right hfirst
    · rename_i hcode
      have howner : env.checkedFirst = .owner := by
        cases hchk : env.checkedFirst with
        | owner => rfl
        | code => exact absurd hchk hcode
      rw [howner] at hfirst
      exact hor.resolve_left hfirst

theorem passes_created (hs : ClaimSound db) (hw : Fresh db p)
    {t : Versioned ℕ Uuid ReferralCodeEntity} {row : ReferralCodeEntity}
    (hins : db.codes.insert p ownerUserId (env.codeRow ownerUserId)
      (SameCode (env.codeRow ownerUserId)) = .done row t) :
    Passes config db p { db with codes := t } (.created (env.codeRow ownerUserId)) := by
  obtain ⟨-, rfl, hlock, hget, hfree⟩ := insert_eq_done hins
  rw [hw.codes.get_eq] at hget
  refine ⟨⟨?_, ?_, hs.referrals, hs.count, hs.bound⟩, ?_, ?_⟩
  · intro k row' hrow'
    rcases version_write hrow' with hrow' | ⟨rfl, rfl⟩
    · exact hs.codes k row' hrow'
    · rfl
  · exact hs.apart.write (fun _ _ h => h.symm) hfree
  · intro q hq
    refine ⟨others_write hq hlock, .refl, .refl, rfl, ?_, fun _ h => h⟩
    rw [committed_write]
    exact fun _ _ h => h
  · refine ⟨?_, hw.codes.onlyAt.write, hw.referrals, hw.claimAttempts, hw.passes⟩
    show (db.codes.write p ownerUserId _).row ownerUserId = _
    rw [row_write (hw.codes _), hw.codes.get_eq, hget]

/-- From where a call commits, and where it comes to. -/
inductive Commits (config : ClaimConfig) (db : ClaimDb) (p : ℕ) :
    ClaimPlace → ClaimPlace → Prop where
  | found (ownerUserId : Uuid) (row : ReferralCodeEntity)
    (hget : db.codes.get p ownerUserId = some row) :
    Commits config db p (.find ownerUserId) (.returned ownerUserId (config.toView row))
  | created (row : ReferralCodeEntity) :
    Commits config db p (.created row) (.returned row.ownerUserId (config.toView row))
  | won (ownerUserId : Uuid) (attempt : ℕ) (row : ReferralCodeEntity)
    (hget : db.codes.get p ownerUserId = some row) :
    Commits config db p (.findWinner ownerUserId attempt)
      (.returned ownerUserId (config.toView row))
  | charged (i : ClaimInput) : Commits config db p (.charged i) (.transaction i)
  | attributed (i : ClaimInput) (now : Instant) (result : ReferralClaimResult) :
    Commits config db p (.attributed i now) (.claimed i result)

/-- What a statement may come to: a call that fails relies on what is left after its rollback. -/
abbrev Shown (config : ClaimConfig) (db : ClaimDb) (p : ℕ) (place : ClaimPlace) :
    Next ClaimDb Uuid ClaimPlace → Prop :=
  Next.Ends (Passes config db p) (Commits config db p place) (ClaimWork config (db.rollback p) p)

theorem shown_codeFor (config : ClaimConfig) (env : ClaimEnv) (hm : FewAt env db p place)
    (hs : ClaimSound db) (hw : ClaimWork config db p place) :
    Shown config db p place (codeForStatement config env db p place) := by
  cases place with
  | find ownerUserId =>
    dsimp only [codeForStatement]
    split
    · rename_i hget
      exact .found ownerUserId _ hget
    · exact .of_work hs ⟨hw, by decide⟩
  | create ownerUserId attempt =>
    obtain ⟨hfresh, _⟩ := hw
    dsimp only [codeForStatement]
    split
    · split
      · trivial
      · rename_i hins
        exact passes_created hs hfresh hins
      · rename_i hne hdone
        have hreported := violates_reported (insert_eq_violated hne hdone)
        split
        · rename_i hcode
          dsimp only [nextAttempt]
          split
          · rename_i hlt
            exact .of_work hs ⟨hfresh, hlt⟩
          · rename_i hlast
            have hmax : attempt = maxCodeAttempts := by omega
            subst hmax
            rw [hcode] at hreported
            exact absurd ⟨hreported, hcode⟩ (hm ownerUserId rfl)
        · rename_i howner
          rw [howner] at hreported
          have hsome : (db.codes.get p ownerUserId).isSome := hreported
          rw [hfresh.codes.get_eq, isSome_iff_ne_none] at hsome
          exact .of_work hs ⟨hfresh, hsome⟩
    · trivial
  | created row => exact .created row
  | findWinner ownerUserId attempt =>
    obtain ⟨hfresh, hthere⟩ := hw
    dsimp only [codeForStatement]
    split
    · rename_i hget
      exact .won ownerUserId attempt _ hget
    · rename_i hget
      rw [hfresh.codes.get_eq] at hget
      exact absurd hget hthere
  | _ => trivial

/-! ## How a call fails -/

theorem fresh_rollback : Fresh (db.rollback p) p :=
  ⟨untouched_rollback, untouched_rollback, untouched_rollback, Journal.pending_rollback_self⟩

/-! ## An attempt -/

theorem shown_charge (config : ClaimConfig) (hs : ClaimSound db)
    (hw : ClaimWork config db p place) :
    Shown config db p place (chargeStatement db p place) := by
  cases place with
  | charge =>
    have hfresh : Fresh db p := hw
    dsimp only [chargeStatement]
    split
    · trivial
    rename_i hlock
    split
    · rename_i hlt
      rw [hfresh.claimAttempts.get_eq] at hlt ⊢
      refine ⟨⟨hs.codes, hs.apart, hs.referrals, ?_, ?_⟩, ?_, hourBucket db.clock, ?_⟩
      · intro key
        rw [committed_write]
        exact hs.count key
      · intro key
        rw [committed_write]
        exact hs.bound key
      · intro q hq
        exact ⟨.refl, .refl, others_write hq hlock, Journal.pending_append_ne hq,
          fun _ _ h => h, fun _ h => h⟩
      · refine ⟨?_, hfresh.claimAttempts.onlyAt.write, ?_, ?_, hfresh.codes, hfresh.referrals⟩
        · rw [committed_write]
          exact wrote_write_self
        · rw [committed_write]
          exact hlt
        · rw [Journal.pending_append_self, hfresh.passes, List.nil_append]
    · exact ⟨fresh_rollback, rfl⟩
  | charged i => exact .charged i
  | _ => trivial

/-! ## A claim -/

theorem passes_attributed {x : ClaimedAttribution} {t : Versioned ℕ Uuid ClaimedAttribution}
    (hs : ClaimSound db) (hw : Fresh db p) (hpassed : HasPassed db p i)
    (hallow : (i.attribution codeRow env.uuid now).Allowed)
    (hins : db.referrals.insert p i.refereeUserId (i.attribution codeRow env.uuid now)
      (fun _ => False) = .done x t) :
    Passes config db p { db with referrals := t } (.attributed i now) := by
  obtain ⟨-, rfl, hlock, hget, -⟩ := insert_eq_done hins
  refine ⟨⟨hs.codes, hs.apart, ?_, hs.count, hs.bound⟩, ?_, ?_, hpassed⟩
  · intro k x hx
    rcases version_write hx with hx | ⟨rfl, rfl⟩
    · exact hs.referrals k x hx
    · exact ⟨rfl, hallow.1⟩
  · intro q hq
    exact ⟨.refl, others_write hq hlock, .refl, rfl, fun _ _ h => h, fun _ h => h⟩
  · refine ⟨⟨i.attribution codeRow env.uuid now, ?_⟩, hw.referrals.onlyAt.write, hw.codes,
      hw.claimAttempts, hw.passes⟩
    rw [row_write (hw.referrals _), hget]

theorem attribution_allowed (hne : codeRow.ownerUserId ≠ i.refereeUserId) :
    (i.attribution codeRow env.uuid now).Allowed := by
  refine ⟨hne, ?_⟩
  exact Int.lt_add_of_pos_right now (by decide)

theorem shown_claim (config : ClaimConfig) (env : ClaimEnv) (hs : ClaimSound db)
    (hw : ClaimWork config db p place) :
    Shown config db p place (attributeStatement config env db p place) := by
  cases place with
  | transaction =>
    dsimp only [attributeStatement]
    split
    · exact .of_work hs hw
    · exact ⟨fresh_rollback, hw.2⟩
  | lookup =>
    dsimp only [attributeStatement]
    split
    · exact ⟨fresh_rollback, hw.2⟩
    · split
      · exact ⟨fresh_rollback, hw.2⟩
      · rename_i hne
        exact .of_work hs ⟨hw.1, hw.2, hne⟩
  | prior =>
    dsimp only [attributeStatement]
    split
    · exact ⟨fresh_rollback, hw.2.1⟩
    · exact .of_work hs hw
  | account =>
    dsimp only [attributeStatement]
    split
    · exact ⟨fresh_rollback, hw.2.1⟩
    · split
      · exact ⟨fresh_rollback, hw.2.1⟩
      · exact .of_work hs hw
  | booking =>
    dsimp only [attributeStatement]
    split
    · exact ⟨fresh_rollback, hw.2.1⟩
    · exact .of_work hs hw
  | insert i codeRow now =>
    have hallow : (i.attribution codeRow env.uuid now).Allowed := attribution_allowed hw.2.2
    dsimp only [attributeStatement]
    rw [if_pos hallow]
    split
    · trivial
    · rename_i hins
      exact passes_attributed hs hw.1 hw.2.1 hallow hins
    · exact ⟨fresh_rollback, hw.2.1⟩
  | attributed i now => exact .attributed i now _
  | _ => trivial

/-- What each statement of a call keeps. -/
theorem shown_statement (hm : FewAt env db p place) (hs : ClaimSound db)
    (hw : ClaimWork config db p place) :
    Shown config db p place (claimStatement config env db p place) := by
  cases place with
  | completing | waiting =>
    have hfresh : Fresh db p := hw
    exact ⟨⟨hs.codes, hs.apart, hs.referrals, hs.count, hs.bound⟩,
      fun _ _ => ⟨.refl, .refl, .refl, rfl, fun _ _ h => h, fun _ h => h⟩,
      hfresh.codes, hfresh.referrals, hfresh.claimAttempts, hfresh.passes⟩
  | find | create | created | findWinner => exact shown_codeFor config env hm hs hw
  | charge | charged => exact shown_charge config hs hw
  | _ => exact shown_claim config env hs hw

/-! ## How a call ends -/

theorem sound_commit (hs : ClaimSound db)
    (hcnt : ∀ key, (db.commit p).passes.committed.countP (fun pass => pass.2 = key) =
      ((db.commit p).claimAttempts.committed key).getD 0)
    (hbound : ∀ key, ((db.commit p).claimAttempts.committed key).getD 0 ≤
      referralClaimAttemptsPerHour) : ClaimSound (db.commit p) where
  codes := fun k row hrow => hs.codes k row (Row.version_of_commit hrow)
  apart := hs.apart.commit
  referrals := fun k x hx => hs.referrals k x (Row.version_of_commit hx)
  count := hcnt
  bound := hbound

theorem sound_commit_of_untouched (hs : ClaimSound db) (hatts : db.claimAttempts.Untouched p)
    (hpasses : db.passes.pending p = []) : ClaimSound (db.commit p) := by
  have hcomm : (db.commit p).claimAttempts.committed = db.claimAttempts.committed :=
    hatts.committed_commit
  have hsame : (db.commit p).passes.committed = db.passes.committed := by
    show db.passes.committed ++ db.passes.pending p = _
    rw [hpasses, List.append_nil]
  refine sound_commit hs ?_ ?_
  · rw [hcomm, hsame]
    exact hs.count
  · rw [hcomm]
    exact hs.bound

theorem beside_commit
    (hgrows : ∀ k row, db.codes.committed k = some row →
      (db.commit p).codes.committed k = some row) (hq : q ≠ p) : Beside q db (db.commit p) where
  codes := others_commit hq
  referrals := others_commit hq
  claimAttempts := others_commit hq
  pending := Journal.pending_commit_ne hq
  grows := hgrows
  passed := fun _ h => Journal.mem_committed_commit h

theorem codes_commit (h : db.codes.Untouched p) (k : Uuid) (row : ReferralCodeEntity)
    (hrow : db.codes.committed k = some row) : (db.commit p).codes.committed k = some row :=
  (congrFun h.committed_commit k).trans hrow

theorem fresh_commit : Fresh (db.commit p) p :=
  ⟨untouched_commit, untouched_commit, untouched_commit, Journal.pending_commit_self⟩

/-- What the end of a transaction keeps. -/
structure Ends (config : ClaimConfig) (db : ClaimDb) (p : ℕ) (db' : ClaimDb) (place' : ClaimPlace) :
    Prop where
  sound : ClaimSound db'
  beside : ∀ q ≠ p, Beside q db db'
  work : ClaimWork config db' p place'

theorem ends_found (hs : ClaimSound db) (hw : Fresh db p)
    (hget : db.codes.get p ownerUserId = some codeRow) :
    Ends config db p (db.commit p) (.returned ownerUserId (config.toView codeRow)) := by
  rw [hw.codes.get_eq] at hget
  exact ⟨sound_commit_of_untouched hs hw.claimAttempts hw.passes,
    fun q hq => beside_commit (codes_commit hw.codes) hq, fresh_commit, codeRow,
    codes_commit hw.codes _ _ hget, hs.codes _ _ (Or.inl hget), rfl⟩

theorem ends_commits (hs : ClaimSound db) (hw : ClaimWork config db p place)
    (h : Commits config db p place place') : Ends config db p (db.commit p) place' := by
  cases h with
  | found ownerUserId row hget => exact ends_found hs hw hget
  | won ownerUserId attempt row hget => exact ends_found hs hw.1 hget
  | created row =>
    have hcoded : Coded db p row := hw
    have hcodes : (db.commit p).codes.committed =
        update db.codes.committed row.ownerUserId (some row) :=
      committed_commit_of_onlyAt (wrote_of_row hcoded.wrote) hcoded.only
    refine ⟨sound_commit_of_untouched hs hcoded.claimAttempts hcoded.passes, ?_, fresh_commit, row,
      ?_, rfl, rfl⟩
    · refine fun q hq => beside_commit ?_ hq
      intro k row' hrow'
      rw [hcodes, update_of_ne]
      · exact hrow'
      · rintro rfl
        cases (committed_of_row hcoded.wrote).symm.trans hrow'
    · rw [hcodes, update_self]
  | charged i =>
    obtain ⟨bucket, hcnt⟩ := hw
    have hatts : (db.commit p).claimAttempts.committed =
        update db.claimAttempts.committed (i.refereeUserId, bucket)
          (some ((db.claimAttempts.committed (i.refereeUserId, bucket)).getD 0 + 1)) :=
      committed_commit_of_onlyAt hcnt.wrote hcnt.only
    have hpasses : (db.commit p).passes.committed =
        db.passes.committed ++ [(p, i.refereeUserId, bucket)] := by
      show db.passes.committed ++ db.passes.pending p = _
      rw [hcnt.passes]
    refine ⟨sound_commit hs ?_ ?_, fun q hq => beside_commit (codes_commit hcnt.codes) hq,
      fresh_commit, bucket, ?_⟩
    · intro key
      rw [hatts, hpasses, List.countP_append, hs.count key]
      by_cases hkey : key = (i.refereeUserId, bucket)
      · rw [hkey]
        simp
      · rw [update_of_ne hkey]
        simp [Ne.symm hkey]
    · intro key
      rw [hatts]
      by_cases hkey : key = (i.refereeUserId, bucket)
      · rw [hkey, update_self]
        exact hcnt.bound
      · rw [update_of_ne hkey]
        exact hs.bound key
    · rw [hpasses]
      exact List.mem_append_right _ (List.mem_singleton.2 rfl)
  | attributed =>
    obtain ⟨hattributing, hpassed⟩ := hw
    exact ⟨sound_commit_of_untouched hs hattributing.claimAttempts hattributing.passes,
      fun q hq => beside_commit (codes_commit hattributing.codes) hq, fresh_commit,
      hpassed.grows fun _ h => Journal.mem_committed_commit h⟩

theorem keeps_rollback (hs : ClaimSound db) :
    (claimOutline config).Keeps db p place (db.rollback p) := by
  have hcodes : (db.rollback p).codes.committed = db.codes.committed := committed_rollback
  have hatts : (db.rollback p).claimAttempts.committed = db.claimAttempts.committed :=
    committed_rollback
  refine keeps_of_beside ⟨?_, hs.apart.rollback, ?_, ?_, ?_⟩ ?_
  · exact fun k row hrow => hs.codes k row (Row.version_of_rollback hrow)
  · exact fun k x hx => hs.referrals k x (Row.version_of_rollback hx)
  · rw [hatts]
    exact hs.count
  · rw [hatts]
    exact hs.bound
  · intro q hq
    refine ⟨others_rollback hq, others_rollback hq, others_rollback hq,
      Journal.pending_rollback_ne hq, ?_, fun _ h => h⟩
    rw [hcodes]
    exact fun _ _ h => h

/-- Each statement keeps codes and attributions single. -/
theorem claimProof (config : ClaimConfig) :
    FreeProof (claimService config) (claimOutline config) where
  first := by
    intro db p request hw
    cases request with
    | _ => exact hw
  statement := by
    intro env db p place hm hs hw
    refine (shown_statement hm hs hw).mono (fun db' place' h => ?_) (fun _ _ _ h => h.elim)
      (fun place' h => ?_) fun place' h => ⟨keeps_rollback hs, h⟩
    · exact ⟨keeps_of_beside h.sound h.beside, h.work⟩
    · have hends := ends_commits hs hw h
      exact ⟨keeps_of_beside hends.sound hends.beside, hends.work⟩
  dies := fun db p place _ hs _ => ⟨keeps_rollback hs, fresh_rollback⟩

/-! ## Every run -/

/-- What holds after every step: an attribution is of a claim that has succeeded. -/
structure Steady (config : ClaimConfig) (s : System ClaimDb Uuid ClaimPlace) : Prop where
  holds : (claimOutline config).Holds s
  claimed : ∀ k x, s.db.referrals.committed k = some x →
    ∃ pid i result, s.calls pid = .claimed i result ∧ i.refereeUserId = x.refereeUserId

/-- No statement commits an attribution by itself, turns the clock back or takes back a booking. -/
structure Onward (db db' : ClaimDb) : Prop where
  referrals : db'.referrals.committed = db.referrals.committed
  clock : db.clock ≤ db'.clock
  completed : ∀ userId ∈ db.completedBookings, userId ∈ db'.completedBookings

theorem onward_goes (hst : claimStatement config env db p place = .goes db' place') :
    Onward db db' := by
  have hsame : ∀ {db'' : ClaimDb}, db''.referrals.committed = db.referrals.committed →
      db''.clock = db.clock → db''.completedBookings = db.completedBookings → Onward db db'' := by
    intro db'' hrefls hclock hcompl
    refine ⟨hrefls, le_of_eq hclock.symm, ?_⟩
    rw [hcompl]
    exact fun _ h => h
  cases place with
  | completing =>
    cases hst
    exact ⟨rfl, le_refl _, fun _ h => List.mem_cons_of_mem _ h⟩
  | waiting =>
    cases hst
    exact ⟨rfl, Int.le_add_of_nonneg_right (Int.natCast_nonneg _), fun _ h => h⟩
  | insert =>
    dsimp only [claimStatement, attributeStatement] at hst
    split at hst
    · split at hst
      · cases hst
      · rename_i hins
        cases hst
        obtain ⟨-, rfl, -⟩ := insert_eq_done hins
        exact hsame committed_write rfl rfl
      · cases hst
    · cases hst
  | _ =>
    dsimp only [claimStatement, codeForStatement, nextAttempt, chargeStatement,
      attributeStatement] at hst
    repeat' split at hst
    all_goals cases hst
    all_goals exact hsame rfl rfl rfl

section Run

variable {s s' : System ClaimDb Uuid ClaimPlace} {e : Step ClaimRequest ClaimEnv}

theorem singleValued_of_steady (h : Steady config s) : SingleValued config s := by
  have hsound : ClaimSound s.db := h.holds.sound
  have hwork : ∀ pid, ClaimWork config s.db pid (s.calls pid) := h.holds.work
  refine ⟨?_, ?_, ?_, ?_, ?_, ?_, ?_, ?_⟩
  · intro k k' row row' hrow hrow' hsame
    have hk : k = k' := by
      rcases hsame with howner | hcode
      · exact (hsound.codes k row (Or.inl hrow)).symm.trans
          (howner.trans (hsound.codes k' row' (Or.inl hrow')))
      · exact hsound.apart.committed hrow hrow' hcode
    subst hk
    exact some.inj (hrow.symm.trans hrow')
  · intro pid ownerUserId view hret
    have hw := hwork pid
    rw [hret] at hw
    exact hw.2
  · intro pid ownerUserId hexhausted
    have hw := hwork pid
    rw [hexhausted] at hw
    exact hw
  · intro k k' x x' hx hx' hsame
    have hk : k = k' := (hsound.referrals k x (Or.inl hx)).1.symm.trans
      (hsame.trans (hsound.referrals k' x' (Or.inl hx')).1)
    subst hk
    exact some.inj (hx.symm.trans hx')
  · intro k x hx
    exact ⟨(hsound.referrals k x (Or.inl hx)).2, h.claimed k x hx⟩
  · intro pid i hpassed
    have hw := hwork pid
    generalize s.calls pid = place at hpassed hw
    cases place with
    | threw i error =>
      cases error with
      | refused =>
        cases hpassed
        exact hw.2
      | throttled => cases hpassed
      | queryFailed => exact hw.elim
    | transaction | lookup | claimed =>
      cases hpassed
      exact hw.2
    | prior | account | booking | insert =>
      cases hpassed
      exact hw.2.1
    | attributed =>
      cases hpassed
      exact hw.2
    | _ => cases hpassed
  · intro claimant bucket
    rw [hsound.count]
    exact hsound.bound _
  · intro pid i error hthrew
    have hw := hwork pid
    rw [hthrew] at hw
    cases error with
    | refused => exact Or.inl rfl
    | throttled =>
      obtain ⟨-, rfl⟩ := hw
      exact Or.inr rfl
    | queryFailed => exact hw.elim

/-- What a call commits leaves the attributions as they were, or adds that of its claim. -/
theorem referrals_commits {pid : ℕ} (hwork : ClaimWork config s.db pid (s.calls pid))
    (hends : Commits config s.db pid (s.calls pid) place') (k : Uuid) :
    (s.db.commit pid).referrals.committed k = s.db.referrals.committed k ∨
      s.db.referrals.committed k = none ∧
        ∃ i result, place' = .claimed i result ∧ i.refereeUserId = k := by
  have hold : ¬(s.db.referrals.row k).WrittenBy pid →
      (s.db.commit pid).referrals.committed k = s.db.referrals.committed k :=
    committed_commit_of_not
  generalize s.calls pid = place at hwork hends
  cases hends with
  | found => exact Or.inl (hold (Fresh.referrals hwork k))
  | won => exact Or.inl (hold (hwork.1.referrals k))
  | created => exact Or.inl (hold (Coded.referrals hwork k))
  | charged =>
    obtain ⟨_, hcnt⟩ := hwork
    exact Or.inl (hold (hcnt.referrals k))
  | attributed i now result =>
    by_cases hwrit : (s.db.referrals.row k).WrittenBy pid
    · obtain rfl := hwork.1.only k hwrit
      obtain ⟨_, hrow⟩ := hwork.1.wrote
      exact Or.inr ⟨committed_of_row hrow, i, result, rfl, rfl⟩
    · exact Or.inl (hold hwrit)

theorem meets_of_few (h : FewCollisions s e) : (claimOutline config).Meets s e := by
  obtain ⟨_, action⟩ := e
  cases action with
  | _ => exact h

/-- A step leaves the attributions as they were, or commits that of a claim. -/
theorem referrals_step (h : Steady config s) (hm : FewCollisions s e)
    (hstep : (claimService config).step s e = some s') (k : Uuid) :
    s'.db.referrals.committed k = s.db.referrals.committed k ∨
      s.db.referrals.committed k = none ∧
        ∃ pid i result, s'.calls pid = .claimed i result ∧ i.refereeUserId = k := by
  have hshown : ∀ {pid env}, FewAt env s.db pid (s.calls pid) → Shown config s.db pid (s.calls pid)
      (claimStatement config env s.db pid (s.calls pid)) :=
    fun hm => shown_statement hm h.holds.sound (h.holds.work _)
  have hrollback : ∀ pid, (s.db.rollback pid).referrals.committed = s.db.referrals.committed :=
    fun pid => committed_rollback
  cases Service.took_of_step hstep with
  | starts => exact Or.inl rfl
  | goes pid env db place hst => exact Or.inl (congrFun (onward_goes hst).referrals k)
  | locks pid env key mode place hst => exact ((hshown hm).of_locks hst).elim
  | commits pid env place hst =>
    obtain hsame | ⟨hnone, i, result, rfl, hreferee⟩ :=
      referrals_commits (h.holds.work pid) ((hshown hm).of_commits hst) k
    · exact Or.inl hsame
    · exact Or.inr ⟨hnone, pid, i, result, update_self .., hreferee⟩
  | throws pid => exact Or.inl (congrFun (hrollback pid) k)
  | dies pid => exact Or.inl (congrFun (hrollback pid) k)

theorem claimed_step (hstep : (claimService config).step s e = some s') {pid : ℕ} {i : ClaimInput}
    {result : ReferralClaimResult} (hclaim : s.calls pid = .claimed i result) :
    s'.calls pid = .claimed i result := by
  rw [← hclaim]
  refine (Service.took_of_step hstep).calls_of_ended ?_
  rw [hclaim]
  exact ⟨by rintro ⟨⟩, rfl, fun _ _ _ => rfl⟩

/-- A step keeps what is single and who has claimed. -/
theorem steady_step (h : Steady config s) (hm : FewCollisions s e)
    (hstep : (claimService config).step s e = some s') : Steady config s' := by
  have hholds := ((claimProof config).proof.holds_step h.holds (meets_of_few hm) hstep).1
  refine ⟨hholds, fun k x hx => ?_⟩
  obtain hsame | ⟨-, pid, i, result, hclaim, hreferee⟩ := referrals_step h hm hstep k
  · obtain ⟨pid, i, result, hclaim, hreferee⟩ := h.claimed k x (hsame.symm.trans hx)
    exact ⟨pid, i, result, claimed_step hstep hclaim, hreferee⟩
  · exact ⟨pid, i, result, hclaim, hreferee.trans (hholds.sound.referrals k x (Or.inl hx)).1.symm⟩

/-- An attribution stays as it is. -/
theorem stays_step (h : Steady config s) (hm : FewCollisions s e)
    (hstep : (claimService config).step s e = some s') {k : Uuid} {x : ClaimedAttribution}
    (hx : s.db.referrals.committed k = some x) : s'.db.referrals.committed k = some x := by
  obtain hsame | ⟨hnone, -⟩ := referrals_step h hm hstep k
  · exact hsame.trans hx
  · cases hnone.symm.trans hx

theorem stays_run {s₀ : System ClaimDb Uuid ClaimPlace} {es : List (Step ClaimRequest ClaimEnv)}
    (h : Steady config s₀) (hfew : Along (claimService config).step FewCollisions s₀ es) :
    AttributionsStay config es s₀ := by
  intro before after s t k x hsplit hbef hafter hx
  subst hsplit
  have hs : Steady config s := runFrom_invariant_along
    (fun _ _ _ h hm hstep => steady_step h hm hstep) h hfew.of_append hbef
  exact (runFrom_invariant_along
    (I := fun u => Steady config u ∧ u.db.referrals.committed k = some x)
    (fun _ _ _ h hm hstep => ⟨steady_step h.1 hm hstep, stays_step h.1 hm hstep h.2⟩) ⟨hs, hx⟩
    (hfew.at_append hbef) hafter).2

theorem steady_start (config : ClaimConfig) (clock : Instant) :
    Steady config ((claimService config).start (.empty clock)) where
  holds := by
    refine (claimProof config).proof.holds_start ⟨?_, apart_empty, ?_, ?_, ?_⟩ fun p => ?_
    · rintro k row (hrow | ⟨q, hrow⟩)
      · cases hrow
      cases hrow
    · rintro k x (hx | ⟨_, hx⟩)
      · cases hx
      cases hx
    · exact fun key => rfl
    · exact fun key => Nat.zero_le _
    · exact ⟨untouched_empty, untouched_empty, untouched_empty, rfl⟩
  claimed := by
    intro k x hx
    cases hx

end Run

/-! ## Who has claimed -/

/-- The clock has gone on, and bookings have been completed. -/
def Later (db₀ db : ClaimDb) : Prop :=
  db₀.clock ≤ db.clock ∧ ∀ userId ∈ db₀.completedBookings, userId ∈ db.completedBookings

/-- The account was within the age limit. -/
def Young (config : ClaimConfig) (db₀ : ClaimDb) (userId : Uuid) : Prop :=
  ∃ createdAt, config.accountCreatedAt userId = some createdAt ∧
    accountAgeCutoff db₀.clock referralClaimMaxAccountAgeDays ≤ createdAt

/-- What a claim has found out, since its transaction began, about what was so then. -/
def FoundOut (config : ClaimConfig) (db₀ : ClaimDb) (i : ClaimInput) : ClaimPlace → Prop
  | .transaction i' | .lookup i' | .prior i' _ => i' = i
  | .account i' _ now => i' = i ∧ db₀.clock ≤ now
  | .booking i' _ _ => i' = i ∧ Young config db₀ i.refereeUserId
  | .insert i' _ _ | .attributed i' _ | .claimed i' _ =>
    i' = i ∧ Eligible config db₀ i.refereeUserId
  | .threw .. | .failed => True
  | _ => False

section FoundOut

variable {db₀ : ClaimDb}

theorem foundOut_statement (p : ℕ) (hlater : Later db₀ db) (h : FoundOut config db₀ i place) :
    (claimStatement config env db p place).Ends (fun _ => FoundOut config db₀ i)
      (FoundOut config db₀ i) (FoundOut config db₀ i) := by
  cases place with
  | account i' codeRow now =>
    obtain ⟨rfl, hnow⟩ := h
    dsimp only [claimStatement, attributeStatement]
    split
    · trivial
    rename_i createdAt hcre
    split
    · trivial
    rename_i hyoung
    refine ⟨rfl, createdAt, hcre, ?_⟩
    -- who is young enough now was so before
    have hcutoff : accountAgeCutoff db₀.clock referralClaimMaxAccountAgeDays ≤
        accountAgeCutoff now referralClaimMaxAccountAgeDays := Int.sub_le_sub_right hnow _
    exact hcutoff.trans (not_lt.1 hyoung)
  | booking =>
    obtain ⟨rfl, hyoung⟩ := h
    dsimp only [claimStatement, attributeStatement]
    split
    · trivial
    rename_i hnone
    exact ⟨rfl, fun hbef => hnone (hlater.2 _ hbef), hyoung⟩
  | prior =>
    dsimp only [claimStatement, attributeStatement]
    split
    · trivial
    exact ⟨h, hlater.1⟩
  | transaction | lookup | insert =>
    dsimp only [claimStatement, attributeStatement]
    repeat' split
    all_goals trivial
  | attributed => exact h
  | claimed | threw | failed => trivial
  | _ => exact h.elim

/-- The call of the claim, after its transaction has begun. -/
structure Since (config : ClaimConfig) (db₀ : ClaimDb) (pid : ℕ) (i : ClaimInput)
    (s : System ClaimDb Uuid ClaimPlace) : Prop where
  later : Later db₀ s.db
  found : FoundOut config db₀ i (s.calls pid)

theorem since_step {pid : ℕ} {s s' : System ClaimDb Uuid ClaimPlace}
    {e : Step ClaimRequest ClaimEnv} (h : Since config db₀ pid i s)
    (hstep : (claimService config).step s e = some s') : Since config db₀ pid i s' := by
  -- another call's step leaves the call where it is
  have hcall : ∀ {q place}, (q = pid → FoundOut config db₀ i place) →
      FoundOut config db₀ i (update s.calls q place pid) := by
    intro q place hplace
    by_cases hq : pid = q
    · rw [hq, update_self]
      exact hplace hq.symm
    · rw [update_of_ne hq]
      exact h.found
  cases Service.took_of_step hstep with
  | starts q request hidle =>
    refine ⟨h.later, hcall ?_⟩
    rintro rfl
    have hfound := h.found
    rw [hidle] at hfound
    exact hfound.elim
  | goes q env db place hst =>
    have honward := onward_goes hst
    refine ⟨⟨h.later.1.trans honward.clock, fun u hu => honward.completed u (h.later.2 u hu)⟩,
      hcall ?_⟩
    rintro rfl
    exact (foundOut_statement _ h.later h.found).of_goes hst
  | locks q env key mode place hst =>
    refine ⟨h.later, hcall ?_⟩
    rintro rfl
    exact ((foundOut_statement _ h.later h.found).of_locks hst).elim
  | commits q env place hst =>
    refine ⟨h.later, hcall ?_⟩
    rintro rfl
    exact (foundOut_statement _ h.later h.found).of_commits hst
  | throws q env place hst =>
    refine ⟨h.later, hcall ?_⟩
    rintro rfl
    exact (foundOut_statement _ h.later h.found).of_throws hst
  | dies => exact ⟨h.later, hcall fun _ => trivial⟩

end FoundOut

theorem eligible_start (config : ClaimConfig) (s₀ : System ClaimDb Uuid ClaimPlace)
    (es : List (Step ClaimRequest ClaimEnv)) : EligibleAtStart config es s₀ := by
  intro before after s t pid i result _ _ hat hrun hclaim
  have hsince : Since config s.db pid i s := by
    refine ⟨⟨le_refl _, fun _ h => h⟩, ?_⟩
    rw [hat]
    rfl
  have hafter := (runFrom_invariant (fun _ _ _ h hstep => since_step h hstep) hsince hrun).found
  rw [hclaim] at hafter
  exact hafter.2

end Claiming

/-- Whoever asks for codes and claims them at the same time: as long as no call collides at its
last attempt, there is one code for an owner and one attribution of a referee, which stays; and an
attribution is of a user who was eligible when the transaction of the claim began. -/
theorem singleValued_run (config : ClaimConfig) (clock : Instant)
    (es : List (Step ClaimRequest ClaimEnv))
    (hfew : Along (claimService config).step FewCollisions
      ((claimService config).start (.empty clock)) es) :
    Throughout (claimService config).step (SingleValued config)
        ((claimService config).start (.empty clock)) es ∧
      AttributionsStay config es ((claimService config).start (.empty clock)) ∧
      EligibleAtStart config es ((claimService config).start (.empty clock)) :=
  ⟨throughout_of_along (I := Claiming.Steady config)
    (fun _ h => Claiming.singleValued_of_steady h)
    (fun _ _ _ h hm hstep => Claiming.steady_step h hm hstep)
    (Claiming.steady_start config clock) hfew,
    Claiming.stays_run (Claiming.steady_start config clock) hfew,
    Claiming.eligible_start config _ es⟩

/-! ## Two at once -/

namespace AtOnce

/-- Every account was created at the beginning. -/
def config : ClaimConfig := ⟨"https://beauclick.example/", fun _ => some 0⟩

/-- The code that is drawn. -/
def draws (uuid : Uuid) (code : String) : ClaimEnv := ⟨uuid, code, .code⟩

/-- Statements of a call that draw the same code. -/
def takes (pid n : ℕ) (code : String) : List (Step ClaimRequest ClaimEnv) :=
  List.replicate n ⟨pid, .statement (draws pid code)⟩

/-- Two owners draw the same code, the second one draws again, and a user claims it twice. -/
def sameCode : List (Step ClaimRequest ClaimEnv) :=
  [⟨0, .start (.codeFor 7)⟩, ⟨1, .start (.codeFor 8)⟩] ++ takes 0 1 "ABCDEFGHJK" ++
    takes 1 1 "ABCDEFGHJK" ++ takes 0 2 "ABCDEFGHJK" ++ takes 1 1 "ABCDEFGHJK" ++
    takes 1 2 "ABCDEFGHJM" ++
    [⟨2, .start (.claim ⟨9, "ABCDEFGHJK"⟩)⟩, ⟨3, .start (.claim ⟨9, "ABCDEFGHJM"⟩)⟩] ++
    takes 2 7 "" ++ takes 3 7 "" ++ takes 2 2 "" ++ takes 3 1 ""

end AtOnce

instance (env : ClaimEnv) (db : ClaimDb) (pid : ℕ) (ownerUserId : Uuid) :
    Decidable (CollidesAt env db pid ownerUserId) :=
  inferInstanceAs (Decidable (_ ∧ _))

instance (env : ClaimEnv) (db : ClaimDb) (pid : ℕ) (place : ClaimPlace) :
    Decidable (Claiming.FewAt env db pid place) := by
  cases place with
  | create ownerUserId attempt =>
    exact decidable_of_iff (attempt = maxCodeAttempts → ¬CollidesAt env db pid ownerUserId)
      ⟨by rintro h _ ⟨rfl, rfl⟩; exact h rfl, by rintro h rfl; exact h _ rfl⟩
  | _ => exact isTrue (by rintro _ ⟨⟩)

instance (s : System ClaimDb Uuid ClaimPlace) (e : Step ClaimRequest ClaimEnv) :
    Decidable (FewCollisions s e) :=
  match e with
  | ⟨_, .start _⟩ => isTrue trivial
  | ⟨_, .die⟩ => isTrue trivial
  | ⟨pid, .statement env⟩ =>
    inferInstanceAs (Decidable (Claiming.FewAt env s.db pid (s.calls pid)))

theorem singleValued_run_sameCode :
    Throughout (claimService AtOnce.config).step (SingleValued AtOnce.config)
        ((claimService AtOnce.config).start (.empty 0)) AtOnce.sameCode ∧
      AttributionsStay AtOnce.config AtOnce.sameCode
        ((claimService AtOnce.config).start (.empty 0)) ∧
      EligibleAtStart AtOnce.config AtOnce.sameCode
        ((claimService AtOnce.config).start (.empty 0)) :=
  singleValued_run AtOnce.config 0 AtOnce.sameCode (by decide +kernel)

end BeauClick.Referral
