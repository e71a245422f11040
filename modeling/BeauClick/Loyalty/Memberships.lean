import BeauClick.Lib.Journal
import BeauClick.Lib.ReadCommitted
import BeauClick.Lib.Transactions
import BeauClick.Loyalty.Tiers

/-!
# Memberships

`MembershipService` (`services/loyalty/src/membership.service.ts`), statement by statement.

The plans and the tiers stay as they are.
-/

namespace BeauClick.Loyalty

open ReadCommitted Transactions

/-! ## Rows and events -/

/-- A row of `loyalty.membership_plans`. -/
structure MembershipPlanEntity where
  id : Uuid
  slug : String
  tierId : Option Uuid
  billingPeriodDays : Option ℕ
  isActive : Bool
  deriving DecidableEq

/-- The states of a membership. -/
inductive MembershipStatus where
  | active
  | expired
  | cancelled
  deriving DecidableEq

/-- By what a membership is active. -/
inductive ActivationSource where
  | manual
  | tierQualification
  deriving DecidableEq

/-- A row of `loyalty.memberships`. -/
structure MembershipEntity where
  id : Uuid
  userId : Uuid
  planId : Uuid
  status : MembershipStatus
  activationSource : ActivationSource
  startedAt : Instant
  expiresAt : Option Instant
  deriving DecidableEq

/-- `expiresAt: LessThanOrEqual(new Date())`. -/
def MembershipEntity.Due (now : Instant) (m : MembershipEntity) : Prop := ∃ t ∈ m.expiresAt, t ≤ now
  deriving Decidable

/-- What the guard of `syncFromTier` leaves alone. -/
def MembershipEntity.StopsSync (plan : MembershipPlanEntity) (m : MembershipEntity) : Prop :=
  m.status = .active ∧ (m.planId = plan.id ∨ m.activationSource ≠ .tierQualification)
  deriving Decidable

/-- `reason` of a `MembershipEnded`. -/
inductive EndReason where
  | cancelled
  | expired

/-- The events of the outbox. -/
inductive MembershipEvent where
  | activated (userId membershipId planId : Uuid) (planSlug : String) (source : ActivationSource)
      (activatedAt : Instant) (expiresAt : Option Instant)
  | ended (userId membershipId planId : Uuid) (reason : EndReason) (endedAt : Instant)

/-- The tables, and the time of the last statement. -/
structure MembershipDb where
  /-- By user: `UNIQUE (user_id)`. -/
  memberships : Versioned ℕ Uuid MembershipEntity
  outbox : Journal ℕ MembershipEvent
  clock : Instant

namespace MembershipDb

/-- No rows yet. -/
def empty : MembershipDb := ⟨.empty, .empty, 0⟩

/-- Transaction `pid` commits. -/
def commit (db : MembershipDb) (pid : ℕ) : MembershipDb where
  memberships := db.memberships.commit pid
  outbox := db.outbox.commit pid
  clock := db.clock

/-- Transaction `pid` rolls back. -/
def rollback (db : MembershipDb) (pid : ℕ) : MembershipDb where
  memberships := db.memberships.rollback pid
  outbox := db.outbox.rollback pid
  clock := db.clock

end MembershipDb

/-! ## Calls -/

/-- The arguments of `activate`. -/
structure ActivateInput where
  userId : Uuid
  planId : Uuid
  source : ActivationSource
  deriving DecidableEq

/-- What a call is asked for. -/
inductive MembershipRequest where
  | activate (input : ActivateInput)
  | syncFromTier (userId : Uuid) (lifetimeEarned : ℕ)
  | cancel (userId : Uuid)
  | expireDue (limit : ℕ)

/-- What a statement finds outside the tables: the clock, the next `uuidv7`, and the order in
which a query comes upon the rows. -/
structure MembershipEnv where
  now : Instant
  uuid : Uuid
  order : List Uuid

/-- Who has called `activate`. -/
inductive Caller where
  | explicit
  | sync
  deriving DecidableEq

/-- Where a call stands. -/
inductive MembershipPlace where
  | idle
  | failed
  | activated (i : ActivateInput) (changed : Bool) (membershipId : Option Uuid)
  | synced (userId : Uuid) (activated : Bool)
  | cancelled (userId : Uuid) (done : Bool)
  | swept (expired : ℕ)
  | activate (i : ActivateInput) (caller : Caller)
  | existing (i : ActivateInput) (caller : Caller) (plan : MembershipPlanEntity)
  | upsert (i : ActivateInput) (caller : Caller) (plan : MembershipPlanEntity)
      (m : MembershipEntity)
  | announce (i : ActivateInput) (caller : Caller) (plan : MembershipPlanEntity)
      (m : MembershipEntity)
  | finish (i : ActivateInput) (caller : Caller) (changed : Bool) (membershipId : Option Uuid)
  | sync (userId : Uuid) (lifetimeEarned : ℕ)
  | guard (userId : Uuid) (plan : MembershipPlanEntity)
  | cancel (userId : Uuid)
  | findCancelled (userId : Uuid)
  | announceCancelled (userId : Uuid) (m : MembershipEntity)
  | finishCancel (userId : Uuid) (done : Bool)
  | sweep (limit : ℕ)
  | expire (rows : List MembershipEntity) (expired : ℕ)
  | announceExpired (row : MembershipEntity) (rest : List MembershipEntity) (expired : ℕ)
  | finishExpire (row : MembershipEntity) (rest : List MembershipEntity) (expired : ℕ)
  deriving DecidableEq

/-- `plan.billingPeriodDays ? new Date(…) : null`. -/
def MembershipPlanEntity.expiresAt (plan : MembershipPlanEntity) (now : Instant) : Option Instant :=
  match plan.billingPeriodDays with
  | none => none
  | some days => if days = 0 then none else some (now + days * 86400000)

/-- The values of the upsert. -/
def ActivateInput.membership (i : ActivateInput) (plan : MembershipPlanEntity) (id : Uuid)
    (now : Instant) : MembershipEntity where
  id := id
  userId := i.userId
  planId := i.planId
  status := .active
  activationSource := i.source
  startedAt := now
  expiresAt := plan.expiresAt now

/-- What `orUpdate` makes of the row that is there. -/
def MembershipEntity.overwrite (old new : MembershipEntity) : MembershipEntity :=
  { new with
    id := old.id
    userId := old.userId }

/-- Where a call to `activate` returns. -/
def Caller.returns (i : ActivateInput) (changed : Bool) (membershipId : Option Uuid) :
    Caller → MembershipPlace
  | .explicit => .activated i changed membershipId
  | .sync => .synced i.userId changed

section Statement

variable (tiers : TierTable) (plans : List MembershipPlanEntity) (env : MembershipEnv)
  (db : MembershipDb) (pid : ℕ)

/-- `syncFromTier` up to its call of `activate`. -/
def syncStatement : MembershipPlace → Next MembershipDb Unit MembershipPlace
  | .sync userId lifetimeEarned =>
    match tiers.tierSlugForPoints lifetimeEarned with
    | none => .commits (.synced userId false)
    | some slug =>
      match tiers.findBySlug slug with
      | none => .commits (.synced userId false)
      | some tier =>
        match plans.find? fun plan => plan.tierId = some tier.id ∧ plan.isActive with
        | none => .commits (.synced userId false)
        | some plan => .goes db (.guard userId plan)
  | .guard userId plan =>
    if ∃ m ∈ db.memberships.get pid userId, m.StopsSync plan then .commits (.synced userId false)
    else .goes db (.activate ⟨userId, plan.id, .tierQualification⟩ .sync)
  | _ => .waits

/-- `activate`. -/
def activateStatement : MembershipPlace → Next MembershipDb Unit MembershipPlace
  | .activate i caller =>
    match plans.find? fun plan => plan.id = i.planId ∧ plan.isActive with
    | none => .goes db (.finish i caller false none)
    | some plan => .goes db (.existing i caller plan)
  | .existing i caller plan =>
    match db.memberships.get pid i.userId with
    | none => .goes db (.upsert i caller plan (i.membership plan env.uuid env.now))
    | some m =>
      if m.status = .active ∧ m.planId = i.planId then .goes db (.finish i caller false (some m.id))
      else .goes db (.upsert i caller plan (i.membership plan m.id env.now))
  | .upsert i caller plan m =>
    if (db.memberships.row i.userId).Locked pid then .waits
    else
      let row := ((db.memberships.get pid i.userId).map fun old => old.overwrite m).getD m
      .goes { db with memberships := db.memberships.write pid i.userId row }
        (.announce i caller plan m)
  | .announce i caller plan m =>
    let event := .activated i.userId m.id i.planId plan.slug i.source m.startedAt m.expiresAt
    .goes { db with outbox := db.outbox.append pid event } (.finish i caller true (some m.id))
  | .finish i caller changed membershipId => .commits (caller.returns i changed membershipId)
  | _ => .waits

/-- `cancel`, and `expireDue`, which has a transaction for each row. -/
def endStatement : MembershipPlace → Next MembershipDb Unit MembershipPlace
  | .cancel userId =>
    match db.memberships.update pid userId (fun m => m.status = .active) fun m =>
        { m with status := .cancelled } with
    | .waits => .waits
    | .done _ t => .goes { db with memberships := t } (.findCancelled userId)
    | _ => .goes db (.finishCancel userId false)
  | .findCancelled userId =>
    match db.memberships.get pid userId with
    | none => .throws .failed
    | some m => .goes db (.announceCancelled userId m)
  | .announceCancelled userId m =>
    let event := .ended userId m.id m.planId .cancelled env.now
    .goes { db with outbox := db.outbox.append pid event } (.finishCancel userId true)
  | .finishCancel userId done => .commits (.cancelled userId done)
  | .sweep limit =>
    if env.order.Perm db.memberships.keys then
      let due := (env.order.filterMap (db.memberships.get pid)).filter fun m =>
        m.status = .active ∧ m.Due env.now
      .goes db (.expire (due.take limit) 0)
    else .waits
  | .expire [] expired => .commits (.swept expired)
  | .expire (row :: rest) expired =>
    match db.memberships.update pid row.userId (fun m => m.id = row.id ∧ m.status = .active)
        fun m => { m with status := .expired } with
    | .waits => .waits
    | .done _ t => .goes { db with memberships := t } (.announceExpired row rest expired)
    | _ => .commits (.expire rest expired)
  | .announceExpired row rest expired =>
    let event := .ended row.userId row.id row.planId .expired env.now
    .goes { db with outbox := db.outbox.append pid event } (.finishExpire row rest expired)
  | .finishExpire _ rest expired => .commits (.expire rest (expired + 1))
  | _ => .waits

/-- The statement of a call at its place. -/
def statementAt : MembershipPlace → Next MembershipDb Unit MembershipPlace
  | .sync userId lifetimeEarned =>
    syncStatement tiers plans db pid (.sync userId lifetimeEarned)
  | .guard userId plan => syncStatement tiers plans db pid (.guard userId plan)
  | .activate i caller => activateStatement plans env db pid (.activate i caller)
  | .existing i caller plan => activateStatement plans env db pid (.existing i caller plan)
  | .upsert i caller plan m => activateStatement plans env db pid (.upsert i caller plan m)
  | .announce i caller plan m => activateStatement plans env db pid (.announce i caller plan m)
  | .finish i caller changed membershipId =>
    activateStatement plans env db pid (.finish i caller changed membershipId)
  | place => endStatement env db pid place

/-- Time goes on from one statement to the next. -/
def membershipStatement (place : MembershipPlace) : Next MembershipDb Unit MembershipPlace :=
  if env.now < db.clock then .waits
  else statementAt tiers plans env { db with clock := env.now } pid place

end Statement

/-- A call there still runs. -/
def MembershipPlace.running : MembershipPlace → Bool
  | .idle | .failed | .activated .. | .synced .. | .cancelled .. | .swept _ => false
  | _ => true

/-- Where a call starts. -/
def MembershipRequest.first : MembershipRequest → MembershipPlace
  | .activate input => .activate input .explicit
  | .syncFromTier userId lifetimeEarned => .sync userId lifetimeEarned
  | .cancel userId => .cancel userId
  | .expireDue limit => .sweep limit

/-- The calls on memberships. -/
def membershipService (tiers : TierTable) (plans : List MembershipPlanEntity) :
    Service MembershipDb Unit MembershipPlace MembershipRequest MembershipEnv where
  commit := MembershipDb.commit
  rollback := MembershipDb.rollback
  idle := .idle
  failed := .failed
  running := MembershipPlace.running
  first := MembershipRequest.first
  statement := membershipStatement tiers plans

end BeauClick.Loyalty
