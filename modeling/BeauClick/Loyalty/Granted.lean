import BeauClick.Loyalty.Memberships

/-!
# A membership that was granted is not lost to automation

The sync and the expiry sweep pass over what an administrator has granted.

* `GrantedKept` — the property of a step.
* `MembershipWork` — what a call has written was not granted, or its term was over.
* `grantedKept_run` — where what a call has checked is still so when it writes.
-/

namespace BeauClick.Loyalty

open Locks ReadCommitted ReadCommitted.Versioned Runs Transactions

namespace Membership

variable {tiers : TierTable} {plans : List MembershipPlanEntity} {env : MembershipEnv}
  {db db' : MembershipDb} {p q : ℕ} {place place' : MembershipPlace} {userId u : Uuid}
  {m : MembershipEntity} {now : Instant}

/-- The membership is active, and not by the tier. -/
def Granted (m : MembershipEntity) : Prop :=
  m.status = .active ∧ m.activationSource ≠ .tierQualification
  deriving Decidable

/-- The commit of an explicit `activate` or `cancel`. -/
def Explicit (userId : Uuid) : MembershipPlace → Prop
  | .finish i .explicit _ _ => i.userId = userId
  | .finishCancel u _ => u = userId
  | _ => False

/-- The instant of a step. -/
def timeOf (db : MembershipDb) : Action MembershipRequest MembershipEnv → Instant
  | .statement env => env.now
  | _ => db.clock

/-- A granted membership whose term is not over stays as it is, except when an explicit call
commits. -/
def GrantedKept (tiers : TierTable) (plans : List MembershipPlanEntity)
    (s : System MembershipDb Unit MembershipPlace)
    (e : Step MembershipRequest MembershipEnv) : Prop :=
  ∀ s', (membershipService tiers plans).step s e = some s' →
    ∀ userId m, s.db.memberships.committed userId = some m → Granted m →
      ¬m.Due (timeOf s.db e.action) →
        s'.db.memberships.committed userId = some m ∨ Explicit userId (s.calls e.pid)

/-! ## What a call has checked and written -/

/-- The call has written one row at most, and that one was not granted. -/
structure Replaces (db : MembershipDb) (p : ℕ) (userId : Uuid) : Prop where
  only : db.memberships.OnlyAt p userId
  written : (db.memberships.row userId).WrittenBy p
  notGranted : ∀ m ∈ db.memberships.committed userId, ¬Granted m

/-- The call has written one row at most, and the term of that one was over. -/
structure Expires (db : MembershipDb) (p : ℕ) (userId : Uuid) : Prop where
  only : db.memberships.OnlyAt p userId
  written : (db.memberships.row userId).WrittenBy p
  due : ∀ m ∈ db.memberships.committed userId, m.Due db.clock

/-- The terms of the rows are over. -/
def AllDue (db : MembershipDb) (rows : List MembershipEntity) : Prop := ∀ m ∈ rows, m.Due db.clock

/-- What a call has read and written, place by place. -/
def MembershipWork (db : MembershipDb) (p : ℕ) : MembershipPlace → Prop
  | .announce i .explicit _ _ | .finish i .explicit _ _ => db.memberships.OnlyAt p i.userId
  | .announce i .sync _ _ | .finish i .sync true _ => Replaces db p i.userId
  | .findCancelled u | .announceCancelled u _ | .finishCancel u _ => db.memberships.OnlyAt p u
  | .expire rows _ => db.memberships.Untouched p ∧ AllDue db rows
  | .announceExpired row rest _ | .finishExpire row rest _ =>
    Expires db p row.userId ∧ AllDue db rest
  | _ => db.memberships.Untouched p

/-- What has been checked is still so: the guard of a sync would let it pass again where it
writes, and the term of a row that a sweep ends is the one that it has found. -/
def Unhurried (db : MembershipDb) (p : ℕ) : MembershipPlace → Prop
  | .upsert i .sync plan _ => ∀ m ∈ db.memberships.get p i.userId, ¬m.StopsSync plan
  | .expire (row :: _) _ => ∀ m ∈ db.memberships.get p row.userId, m.id = row.id →
      m.status = .active → m.expiresAt = row.expiresAt
  | _ => True

/-- What holds of the tables, and what a call relies on. -/
def membershipOutline : Outline MembershipDb Unit MembershipPlace MembershipEnv where
  Assumes := fun _ db p place => Unhurried db p place
  Sound := fun _ => True
  Guarantee := fun _ _ => True
  Work := MembershipWork
  holds := fun _ _ _ => False

/-! ## What a step leaves to the calls beside it -/

theorem due_mono {t t' : Instant} (h : m.Due t) (hle : t ≤ t') : m.Due t' := by
  obtain ⟨e, he, hdue⟩ := h
  exact ⟨e, he, hdue.trans hle⟩

/-- What the step of another call leaves to a call. -/
structure Beside (q : ℕ) (db db' : MembershipDb) : Prop where
  memberships : Others q db.memberships db'.memberships
  clock : db.clock ≤ db'.clock

theorem committed_of_others (h : Others q db.memberships db'.memberships)
    (hw : (db.memberships.row userId).WrittenBy q) :
    db'.memberships.committed userId = db.memberships.committed userId :=
  congrArg Row.committed (h.row_eq hw)

theorem Replaces.beside (h : Replaces db q userId) (hb : Beside q db db') :
    Replaces db' q userId := by
  refine ⟨hb.memberships.onlyAt h.only, hb.memberships.writtenBy_iff.2 h.written, ?_⟩
  rw [committed_of_others hb.memberships h.written]
  exact h.notGranted

theorem Expires.beside (h : Expires db q userId) (hb : Beside q db db') : Expires db' q userId := by
  refine ⟨hb.memberships.onlyAt h.only, hb.memberships.writtenBy_iff.2 h.written, ?_⟩
  rw [committed_of_others hb.memberships h.written]
  exact fun m hm => due_mono (h.due m hm) hb.clock

theorem AllDue.beside {rows : List MembershipEntity} (h : AllDue db rows) (hb : Beside q db db') :
    AllDue db' rows :=
  fun m hm => due_mono (h m hm) hb.clock

theorem membershipWork_beside (h : MembershipWork db q place) (hb : Beside q db db') :
    MembershipWork db' q place := by
  cases place with
  | announce i caller =>
    cases caller with
    | explicit => exact hb.memberships.onlyAt h
    | sync => exact Replaces.beside h hb
  | finish i caller changed =>
    cases caller with
    | explicit => exact hb.memberships.onlyAt h
    | sync =>
      cases changed with
      | true => exact Replaces.beside h hb
      | false => exact hb.memberships.untouched h
  | findCancelled | announceCancelled | finishCancel => exact hb.memberships.onlyAt h
  | expire => exact ⟨hb.memberships.untouched h.1, h.2.beside hb⟩
  | announceExpired | finishExpire => exact ⟨h.1.beside hb, h.2.beside hb⟩
  | _ => exact hb.memberships.untouched h

theorem keeps_of_beside (hb : ∀ q ≠ p, Beside q db db') :
    membershipOutline.Keeps db p place db' where
  sound := trivial
  guarantee := trivial
  others := fun q _ hq _ hw => membershipWork_beside hw (hb q hq)

theorem keeps_rollback : membershipOutline.Keeps db p place (db.rollback p) :=
  keeps_of_beside fun _ hq => ⟨others_rollback hq, le_refl db.clock⟩

theorem keeps_commit : membershipOutline.Keeps db p place (db.commit p) :=
  keeps_of_beside fun _ hq => ⟨others_commit hq, le_refl db.clock⟩

/-! ## The statements -/

/-- What a statement keeps. -/
structure Passes (db : MembershipDb) (p : ℕ) (db' : MembershipDb) (place' : MembershipPlace) :
    Prop where
  others : ∀ q ≠ p, Others q db.memberships db'.memberships
  committed : db'.memberships.committed = db.memberships.committed
  clock : db.clock ≤ db'.clock
  work : MembershipWork db' p place'

theorem passes_same (hmemberships : db'.memberships = db.memberships)
    (hclock : db.clock ≤ db'.clock) (hw : MembershipWork db' p place') :
    Passes db p db' place' := by
  refine ⟨?_, ?_, hclock, hw⟩
  · rw [hmemberships]
    exact fun _ _ => .refl
  · rw [hmemberships]

theorem passes_write {x : MembershipEntity} (hlock : ¬(db.memberships.row u).Locked p)
    (hw : MembershipWork { db with memberships := db.memberships.write p u x } p place') :
    Passes db p { db with memberships := db.memberships.write p u x } place' :=
  ⟨fun _ hq => others_write hq hlock, committed_write, le_refl db.clock, hw⟩

theorem writtenBy_write {x : MembershipEntity} :
    ((db.memberships.write p u x).row u).WrittenBy p := ⟨x, wrote_write_self⟩

/-! ## The commits -/

/-- A commit leaves a granted membership whose term is not over, except an explicit one. -/
def CommitKeeps (db : MembershipDb) (p : ℕ) (now : Instant) (place : MembershipPlace) : Prop :=
  ∀ userId m, db.memberships.committed userId = some m → Granted m → ¬m.Due now →
    (db.commit p).memberships.committed userId = some m ∨ Explicit userId place

theorem commitKeeps_of_untouched (h : db.memberships.Untouched p) : CommitKeeps db p now place := by
  intro u m hm _ _
  exact Or.inl ((committed_commit_of_not (h u)).trans hm)

theorem commitKeeps_of_onlyAt (h : db.memberships.OnlyAt p u)
    (hu : ∀ m, db.memberships.committed u = some m → Granted m → ¬m.Due now → Explicit u place) :
    CommitKeeps db p now place := by
  intro u' m hm hgrant hdue
  by_cases hne : u' = u
  · rw [hne] at hm ⊢
    exact Or.inr (hu m hm hgrant hdue)
  · exact Or.inl ((committed_commit_of_not fun hw => hne (h u' hw)).trans hm)

theorem Replaces.commitKeeps (h : Replaces db p u) : CommitKeeps db p now place :=
  commitKeeps_of_onlyAt h.only fun m hm hgrant _ => absurd hgrant (h.notGranted m hm)

theorem Expires.commitKeeps (h : Expires db p u) (hle : db.clock ≤ now) :
    CommitKeeps db p now place :=
  commitKeeps_of_onlyAt h.only fun m hm _ hdue => absurd (due_mono (h.due m hm) hle) hdue

theorem untouched_commit : (db.commit p).memberships.Untouched p := Versioned.untouched_commit

/-- What a statement that commits comes to. -/
structure Ends (db : MembershipDb) (p : ℕ) (now : Instant) (place place' : MembershipPlace) :
    Prop where
  keeps : CommitKeeps db p now place
  work : MembershipWork (db.commit p) p place'

/-! ## Every step -/

theorem work_later (hw : MembershipWork db p place) (hle : db.clock ≤ env.now) :
    MembershipWork { db with clock := env.now } p place :=
  membershipWork_beside hw ⟨.refl, hle⟩

/-- What a statement that is taken comes to. Only a cancelled membership that is gone would throw,
and none takes a lock. -/
abbrev Shown (db : MembershipDb) (p : ℕ) (env : MembershipEnv) (place : MembershipPlace) :
    Next MembershipDb Unit MembershipPlace → Prop :=
  Next.Ends (Passes { db with clock := env.now } p) (Ends db p env.now place) (· = .failed)

theorem shown_sync (tiers : TierTable) (plans : List MembershipPlanEntity)
    (hw : MembershipWork db p place) :
    Shown db p env place (syncStatement tiers plans { db with clock := env.now } p place) := by
  cases place with
  | sync u lifetimeEarned =>
    have hends : Ends db p env.now (.sync u lifetimeEarned) (.synced u false) :=
      ⟨commitKeeps_of_untouched hw, untouched_commit⟩
    simp only [syncStatement]
    split
    · exact hends
    · split
      · exact hends
      · split
        · exact hends
        · exact passes_same rfl le_rfl hw
  | guard =>
    simp only [syncStatement]
    split
    · exact ⟨commitKeeps_of_untouched hw, untouched_commit⟩
    · exact passes_same rfl le_rfl hw
  | _ => trivial

theorem shown_activate (plans : List MembershipPlanEntity) (hm : Unhurried db p place)
    (hw : MembershipWork db p place) : Shown db p env place
      (activateStatement plans env { db with clock := env.now } p place) := by
  cases place with
  | activate i caller =>
    have hunt : db.memberships.Untouched p := hw
    simp only [activateStatement]
    split
    · refine passes_same rfl le_rfl ?_
      cases caller with
      | explicit => exact hunt.onlyAt
      | sync => exact hunt
    · exact passes_same rfl le_rfl hunt
  | existing i caller =>
    have hunt : db.memberships.Untouched p := hw
    simp only [activateStatement]
    split
    · exact passes_same rfl le_rfl hunt
    · split
      · refine passes_same rfl le_rfl ?_
        cases caller with
        | explicit => exact hunt.onlyAt
        | sync => exact hunt
      · exact passes_same rfl le_rfl hunt
  | upsert i caller =>
    have hunt : db.memberships.Untouched p := hw
    simp only [activateStatement]
    split
    · trivial
    rename_i hlock
    refine passes_write hlock ?_
    cases caller with
    | explicit => exact hunt.onlyAt.write
    | sync =>
      refine ⟨hunt.onlyAt.write, writtenBy_write, ?_⟩
      rw [committed_write]
      -- the guard would let it pass again
      intro x hx hgrant
      rw [← hunt.get_eq] at hx
      exact hm x hx ⟨hgrant.1, Or.inr hgrant.2⟩
  | announce i caller =>
    refine passes_same rfl le_rfl ?_
    cases caller with
    | explicit => exact hw
    | sync => exact ⟨hw.only, hw.written, hw.notGranted⟩
  | finish i caller changed =>
    cases caller with
    | explicit =>
      exact ⟨commitKeeps_of_onlyAt hw fun _ _ _ _ => rfl, untouched_commit⟩
    | sync =>
      cases changed with
      | true => exact ⟨Replaces.commitKeeps hw, untouched_commit⟩
      | false => exact ⟨commitKeeps_of_untouched hw, untouched_commit⟩
  | _ => trivial

theorem shown_end (hle : db.clock ≤ env.now) (hm : Unhurried db p place)
    (hw : MembershipWork db p place) :
    Shown db p env place (endStatement env { db with clock := env.now } p place) := by
  cases place with
  | cancel =>
    have hunt : db.memberships.Untouched p := hw
    simp only [endStatement]
    split
    · trivial
    · rename_i hupd
      obtain ⟨x, -, -, hlock, -, rfl⟩ := update_eq_done hupd
      exact passes_write hlock hunt.onlyAt.write
    · exact passes_same rfl le_rfl hunt.onlyAt
  | findCancelled =>
    simp only [endStatement]
    split
    · rfl
    · exact passes_same rfl le_rfl hw
  | announceCancelled => exact passes_same rfl le_rfl hw
  | finishCancel =>
    exact ⟨commitKeeps_of_onlyAt hw fun _ _ _ _ => rfl, untouched_commit⟩
  | sweep =>
    simp only [endStatement]
    split
    · refine passes_same rfl le_rfl ⟨hw, ?_⟩
      intro x hx
      have hdue := (List.mem_filter.1 (List.mem_of_mem_take hx)).2
      exact (of_decide_eq_true hdue).2
    · trivial
  | expire rows =>
    obtain ⟨hunt, hdue⟩ := hw
    cases rows with
    | nil => exact ⟨commitKeeps_of_untouched hunt, untouched_commit⟩
    | cons row =>
      simp only [endStatement]
      split
      · trivial
      · rename_i hupd
        obtain ⟨x, hget, ⟨hid, hact⟩, hlock, -, rfl⟩ := update_eq_done hupd
        refine passes_write hlock ⟨⟨hunt.onlyAt.write, writtenBy_write, ?_⟩, fun y hy =>
          due_mono (hdue y (List.mem_cons_of_mem row hy)) hle⟩
        rw [committed_write]
        intro y hy
        rw [← hunt.get_eq] at hy
        cases hget.symm.trans hy
        -- its term is the one that was found to be over
        obtain ⟨t, ht, hover⟩ := hdue row List.mem_cons_self
        refine ⟨t, ?_, hover.trans hle⟩
        rw [hm x hget hid hact]
        exact ht
      · exact ⟨commitKeeps_of_untouched hunt, untouched_commit, fun y hy =>
          hdue y (List.mem_cons_of_mem row hy)⟩
  | announceExpired row rest expired =>
    have hlater : MembershipWork { db with clock := env.now } p (.announceExpired row rest expired) :=
      work_later hw hle
    exact passes_same rfl le_rfl ⟨⟨hlater.1.only, hlater.1.written, hlater.1.due⟩, hlater.2⟩
  | finishExpire => exact ⟨hw.1.commitKeeps hle, untouched_commit, hw.2⟩
  | _ => trivial

/-- What each statement on the memberships keeps. -/
theorem shown_statement (hm : Unhurried db p place) (hw : MembershipWork db p place) :
    membershipStatement tiers plans env db p place = .waits ∨ db.clock ≤ env.now ∧
      Shown db p env place (membershipStatement tiers plans env db p place) := by
  unfold membershipStatement
  split
  · exact Or.inl rfl
  · rename_i htime
    have hle := not_lt.1 htime
    refine Or.inr ⟨hle, ?_⟩
    cases place with
    | sync | guard => exact shown_sync tiers plans hw
    | activate | existing | upsert | announce | finish => exact shown_activate plans hm hw
    | _ => exact shown_end hle hm hw

/-- Each statement keeps what has been granted. -/
theorem membershipProof (tiers : TierTable) (plans : List MembershipPlanEntity) :
    FreeProof (membershipService tiers plans) membershipOutline where
  first := by
    intro db p request hw
    cases request with
    | _ => exact hw
  statement := by
    intro env db p place hm _ hw
    obtain hwaits | ⟨hle, hshown⟩ : membershipStatement tiers plans env db p place = .waits ∨ _ :=
      shown_statement hm hw
    · show (membershipStatement tiers plans env db p place).Meets _ _ _ _
      rw [hwaits]
      trivial
    · refine hshown.mono (fun db' place' h => ?_) (fun _ _ _ h => h.elim) (fun place' h => ?_)
        fun place' h => ?_
      · exact ⟨keeps_of_beside fun q hq => ⟨h.others q hq, hle.trans h.clock⟩, h.work⟩
      · exact ⟨keeps_commit, h.work⟩
      · cases h
        exact ⟨keeps_rollback, untouched_rollback⟩
  dies := fun _ _ _ _ _ _ => ⟨keeps_rollback, untouched_rollback⟩

theorem grantedKept_step {s : System MembershipDb Unit MembershipPlace}
    {e : Step MembershipRequest MembershipEnv} (h : membershipOutline.Holds s)
    (hm : membershipOutline.Meets s e) : GrantedKept tiers plans s e := by
  intro s' hstep u m hcomm hgrant hdue
  cases Service.took_of_step hstep with
  | starts => exact Or.inl hcomm
  | goes pid env db place hst =>
    obtain hwaits | ⟨-, hshown⟩ := shown_statement hm (h.work pid)
    · cases hwaits.symm.trans hst
    · exact Or.inl ((congrFun (hshown.of_goes hst).committed u).trans hcomm)
  | locks => exact Or.inl hcomm
  | commits pid env place hst =>
    obtain hwaits | ⟨-, hshown⟩ := shown_statement hm (h.work pid)
    · cases hwaits.symm.trans hst
    · exact (hshown.of_commits hst).keeps u m hcomm hgrant hdue
  | throws =>
    exact Or.inl ((congrFun committed_rollback u).trans hcomm)
  | dies => exact Or.inl ((congrFun committed_rollback u).trans hcomm)

/-! ## Every run -/

instance : Decidable (Unhurried db p place) := by
  unfold Unhurried
  split <;> infer_instance

instance : Decidable (membershipOutline.Assumes env db p place) :=
  inferInstanceAs (Decidable (Unhurried db p place))

namespace Renewed

/-- A tier from the first point on. -/
def bronze : TierTable where
  rows := [⟨1, "bronze", "Bronze", 0, 1, true⟩]
  id := by decide
  slug := by decide

/-- A plan for the tier, and one for a day. -/
def twoPlans : List MembershipPlanEntity :=
  [⟨10, "bronze-plan", some 1, none, true⟩, ⟨20, "day", none, some 1, true⟩]

/-- The next `n` statements. -/
def takes (pid : ℕ) (now : Instant) (n : ℕ) : List (Step MembershipRequest MembershipEnv) :=
  List.replicate n ⟨pid, .statement ⟨now, 30, [9]⟩⟩

/-- The user asks for the plan of a day. -/
def activates (pid : ℕ) : Step MembershipRequest MembershipEnv :=
  ⟨pid, .start (.activate ⟨9, 20, .manual⟩)⟩

/-- The plan of a day, a synchronisation that leaves it, and its end. -/
def oneDay : List (Step MembershipRequest MembershipEnv) :=
  activates 1 :: takes 1 0 5 ++ ⟨2, .start (.syncFromTier 9 0)⟩ :: takes 2 5 2 ++
    ⟨3, .start (.expireDue 200)⟩ :: takes 3 86400000 4

/-- The sync has passed its guard when the user activates the plan of a day. -/
def lateSync : List (Step MembershipRequest MembershipEnv) :=
  ⟨2, .start (.syncFromTier 9 0)⟩ :: takes 2 0 4 ++ activates 1 :: takes 1 0 5 ++ takes 2 0 3

/-- The sweep has selected the membership when the user cancels it and activates it again. -/
def lateSweep : List (Step MembershipRequest MembershipEnv) :=
  activates 1 :: takes 1 0 5 ++ ⟨3, .start (.expireDue 200)⟩ :: takes 3 86400000 1 ++
    ⟨4, .start (.cancel 9)⟩ :: takes 4 86400000 4 ++ activates 5 :: takes 5 86400000 5 ++
      takes 3 86400000 3

end Renewed

theorem not_kept_of_last (es : List (Step MembershipRequest MembershipEnv)) (pid : ℕ)
    (env : MembershipEnv) (userId : Uuid) (place : MembershipPlace) (m : MembershipEntity)
    (x : Option MembershipEntity)
    (hbef : (runFrom (membershipService tiers plans).step
      ((membershipService tiers plans).start .empty) es).map
        (fun s => (s.db.memberships.committed userId, s.calls pid)) = some (some m, place))
    (hafter : (runFrom (membershipService tiers plans).step
      ((membershipService tiers plans).start .empty) (es ++ [⟨pid, .statement env⟩])).map
        (fun s => s.db.memberships.committed userId) = some x)
    (hgrant : Granted m) (hdue : ¬m.Due env.now) (hplace : ¬Explicit userId place)
    (hne : x ≠ some m) :
    ¬Along (membershipService tiers plans).step (GrantedKept tiers plans)
      ((membershipService tiers plans).start .empty) (es ++ [⟨pid, .statement env⟩]) := by
  intro h
  obtain ⟨_, hs, hat⟩ := Option.map_eq_some_iff.1 hbef
  obtain ⟨hcomm, hcall⟩ := Prod.mk.inj hat
  obtain ⟨s', hs', hx⟩ := Option.map_eq_some_iff.1 hafter
  rw [runFrom_append hs] at hs'
  obtain ⟨_, hstep, hnil⟩ := runFrom_cons_eq_some.1 hs'
  cases hnil
  rcases h.last hs s' hstep userId m hcomm hgrant hdue with hkept | hexplicit
  · exact hne (hx.symm.trans hkept)
  · rw [hcall] at hexplicit
    exact hplace hexplicit

end Membership

end BeauClick.Loyalty
