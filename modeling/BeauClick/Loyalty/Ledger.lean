import BeauClick.Lib.Totals
import BeauClick.Lib.Transactions
import BeauClick.Loyalty.Tiers
import BeauClick.Referral.Schema

/-!
# The points ledger

`LoyaltyLedgerService` (`services/loyalty/src/loyalty-ledger.service.ts`), statement by statement,
where the tier is told by the lifetime points (`LOYALTY_TIER_BASIS` is `lifetime`).

The benefits of a user are other tables; what is read there is given with the statement.
-/

namespace BeauClick.Loyalty

open ReadCommitted Transactions

/-! ## The policy -/

/-- `LOYALTY_REASONS`. -/
inductive LoyaltyReason where
  | bookingCompleted
  | reviewSubmitted
  | orderCompleted
  | referralReferrerReward
  | referralRefereeReward
  | referralReferrerReversal
  | referralRefereeReversal
  | manualAdjustment
  deriving DecidableEq

/-- `LoyaltyPolicy`, with the defaults of `LOYALTY_POLICY_DEFAULTS`. -/
structure LoyaltyPolicy where
  pointsBookingCompleted : ℕ := 10
  pointsReviewSubmitted : ℕ := 5
  pointsOrderCompleted : ℕ := 10
  pointsReferralReferrer : ℕ := 0
  pointsReferralReferee : ℕ := 0

/-- The points each reason is worth. -/
def LoyaltyPolicy.pointsFor (p : LoyaltyPolicy) : LoyaltyReason → ℕ
  | .bookingCompleted => p.pointsBookingCompleted
  | .reviewSubmitted => p.pointsReviewSubmitted
  | .orderCompleted => p.pointsOrderCompleted
  | .referralReferrerReward => p.pointsReferralReferrer
  | .referralRefereeReward => p.pointsReferralReferee
  | _ => 0

/-! ## Rows and events -/

/-- `uq_points_entries_reference_once`: `reference_type`, `reference_id`, `reason`. -/
abbrev Reference : Type := String × Uuid × LoyaltyReason

/-- A row of `loyalty.points_entries`. -/
structure PointsEntryEntity where
  userId : Uuid
  points : ℤ
  basePoints : ℤ
  multiplierBp : ℕ
  deriving DecidableEq

/-- What the row adds to the lifetime points: negative rows add nothing. -/
def PointsEntryEntity.earned (e : PointsEntryEntity) : ℕ := e.points.toNat

/-- `user_id = … AND points > 0`, of `SUM(points)`. -/
def earnedBy (userId : Uuid) (e : PointsEntryEntity) : ℕ :=
  if e.userId = userId then e.earned else 0

/-- The row that `reverse` inserts. -/
def PointsEntryEntity.reversal (original : PointsEntryEntity) : PointsEntryEntity :=
  { original with
    points := -original.points
    basePoints := -original.basePoints }

/-- `Math.round((basePoints * multiplierBp) / 10000)`. -/
def creditedPoints (basePoints : ℤ) (multiplierBp : ℕ) : ℤ :=
  (basePoints * multiplierBp + 5000) / 10000

/-- A row of `loyalty.tier_crossings`. -/
structure TierCrossingEntity where
  userId : Uuid
  fromTierSlug : Option String
  toTierSlug : Option String
  lifetimeEarned : ℕ
  deriving DecidableEq

/-- `uq_tier_crossings_once`: `user_id`, `COALESCE(to_tier_slug, '')`, `lifetime_earned`. -/
def TierCrossingEntity.key (x : TierCrossingEntity) : Uuid × String × ℕ :=
  (x.userId, x.toTierSlug.getD "", x.lifetimeEarned)

/-- The events of `loyalty.outbox_events`. -/
inductive LoyaltyEvent where
  | pointsEarned (userId : Uuid) (points : ℤ) (reason : LoyaltyReason) (referenceType : String)
      (referenceId : Uuid) (lifetimeEarned : ℕ) (earnedAt : Instant)
  | tierChanged (crossing : TierCrossingEntity) (changedAt : Instant)

/-- The crossing that a `LoyaltyTierChanged` tells of. -/
def LoyaltyEvent.crossing? : LoyaltyEvent → Option TierCrossingEntity
  | .pointsEarned .. => none
  | .tierChanged crossing _ => some crossing

/-- The tables of the points. -/
structure LoyaltyDb where
  pointsEntries : Versioned ℕ Reference PointsEntryEntity
  tierCrossings : Versioned ℕ (Uuid × String × ℕ) TierCrossingEntity
  outbox : Journal ℕ LoyaltyEvent

namespace LoyaltyDb

/-- No rows yet. -/
def empty : LoyaltyDb := ⟨.empty, .empty, .empty⟩

/-- Transaction `pid` commits. -/
def commit (db : LoyaltyDb) (pid : ℕ) : LoyaltyDb where
  pointsEntries := db.pointsEntries.commit pid
  tierCrossings := db.tierCrossings.commit pid
  outbox := db.outbox.commit pid

/-- Transaction `pid` rolls back. -/
def rollback (db : LoyaltyDb) (pid : ℕ) : LoyaltyDb where
  pointsEntries := db.pointsEntries.rollback pid
  tierCrossings := db.tierCrossings.rollback pid
  outbox := db.outbox.rollback pid

/-- `lifetimeEarned`, as a transaction reads it. -/
def lifetimeEarned (db : LoyaltyDb) (pid : ℕ) (userId : Uuid) : ℕ :=
  db.pointsEntries.total pid (earnedBy userId)

/-- The user's lifetime points. -/
def lifetimePoints (db : LoyaltyDb) (userId : Uuid) : ℕ :=
  db.pointsEntries.committedTotal (earnedBy userId)

end LoyaltyDb

/-! ## Calls -/

/-- What `award` is given. -/
structure AwardInput where
  userId : Uuid
  reason : LoyaltyReason
  referenceType : String
  referenceId : Uuid
  overridePoints : Option ℤ
  deriving DecidableEq

/-- The reference under which the award is entered. -/
def AwardInput.reference (i : AwardInput) : Reference := (i.referenceType, i.referenceId, i.reason)

/-- `input.overridePoints ?? this.config.pointsFor(input.reason)`. -/
def AwardInput.basePoints (policy : LoyaltyPolicy) (i : AwardInput) : ℤ :=
  i.overridePoints.getD (policy.pointsFor i.reason)

/-- The row that `award` inserts. -/
def AwardInput.entry (policy : LoyaltyPolicy) (i : AwardInput) (multiplierBp : ℕ) :
    PointsEntryEntity where
  userId := i.userId
  points := creditedPoints (i.basePoints policy) multiplierBp
  basePoints := i.basePoints policy
  multiplierBp := multiplierBp

/-- What `reverse` is given. -/
structure ReverseInput where
  referenceType : String
  referenceId : Uuid
  originalReason : LoyaltyReason
  reversalReason : LoyaltyReason
  expectedBasePoints : Option ℤ
  deriving DecidableEq

/-- What `award` answers. -/
structure AwardResult where
  awarded : Bool
  points : ℤ
  lifetimeEarned : ℕ
  tierChanged : Bool
  deriving DecidableEq

/-- What `reverse` answers. -/
structure ReverseResult where
  reversed : Bool
  points : ℤ
  deriving DecidableEq

/-- What a call is asked for. -/
inductive LoyaltyRequest where
  | award (input : AwardInput)
  | reverse (input : ReverseInput)

/-- What a statement finds outside the tables: the clock, and the multipliers of the user's
benefits. -/
structure LoyaltyEnv where
  now : Instant
  multipliers : List ℕ

/-- Where a call is.  `before` is the total that `tierBefore` has been computed from. -/
inductive LoyaltyPlace where
  | idle
  | failed
  | awarded (i : AwardInput) (result : AwardResult)
  | reversed (i : ReverseInput) (result : ReverseResult)
  /-- The error of the cross-check. -/
  | disagrees (i : ReverseInput)
  | award (i : AwardInput)
  | unawarded (i : AwardInput)
  | tierBefore (i : AwardInput) (multiplierBp : ℕ)
  | insert (i : AwardInput) (e : PointsEntryEntity) (before : ℕ)
  | total (i : AwardInput) (e : PointsEntryEntity) (before : ℕ)
  | announce (i : AwardInput) (e : PointsEntryEntity) (before lifetimeEarned : ℕ)
  | cross (i : AwardInput) (e : PointsEntryEntity) (before lifetimeEarned : ℕ)
  | announceTier (i : AwardInput) (e : PointsEntryEntity) (before lifetimeEarned : ℕ)
  | finish (i : AwardInput) (e : PointsEntryEntity) (before lifetimeEarned : ℕ)
      (tierChanged : Bool)
  | find (i : ReverseInput)
  | takeBack (i : ReverseInput) (original : PointsEntryEntity)
  | finishReverse (i : ReverseInput) (result : ReverseResult)
  deriving DecidableEq

/-- The crossing that an award records. -/
def crossing (tiers : TierTable) (userId : Uuid) (before lifetimeEarned : ℕ) :
    TierCrossingEntity where
  userId := userId
  fromTierSlug := tiers.tierSlugForPoints before
  toTierSlug := tiers.tierSlugForPoints lifetimeEarned
  lifetimeEarned := lifetimeEarned

section Statement

variable (policy : LoyaltyPolicy) (tiers : TierTable) (env : LoyaltyEnv) (db : LoyaltyDb) (pid : ℕ)

/-- `award`. -/
def awardStatement : LoyaltyPlace → Next LoyaltyDb Unit LoyaltyPlace
  | .award i =>
    if i.basePoints policy = 0 then .goes db (.unawarded i)
    else .goes db (.tierBefore i (Referral.pointsMultiplierBp env.multipliers))
  | .unawarded i => .commits (.awarded i ⟨false, 0, db.lifetimeEarned pid i.userId, false⟩)
  | .tierBefore i multiplierBp =>
    .goes db (.insert i (i.entry policy multiplierBp) (db.lifetimeEarned pid i.userId))
  | .insert i e before =>
    match db.pointsEntries.insert pid i.reference e (fun _ => False) with
    | .waits => .waits
    | .done _ t => .goes { db with pointsEntries := t } (.total i e before)
    | _ => .goes db (.unawarded i)
  | .total i e before => .goes db (.announce i e before (db.lifetimeEarned pid i.userId))
  | .announce i e before lifetimeEarned =>
    let event := .pointsEarned i.userId e.points i.reason i.referenceType i.referenceId
      lifetimeEarned env.now
    .goes { db with outbox := db.outbox.append pid event } (.cross i e before lifetimeEarned)
  | .cross i e before lifetimeEarned =>
    if tiers.tierSlugForPoints lifetimeEarned = tiers.tierSlugForPoints before then
      .goes db (.finish i e before lifetimeEarned false)
    else
      let x := crossing tiers i.userId before lifetimeEarned
      match db.tierCrossings.insert pid x.key x (fun _ => False) with
      | .waits => .waits
      | .done _ t => .goes { db with tierCrossings := t } (.announceTier i e before lifetimeEarned)
      | _ => .goes db (.finish i e before lifetimeEarned false)
  | .announceTier i e before lifetimeEarned =>
    let event := .tierChanged (crossing tiers i.userId before lifetimeEarned) env.now
    .goes { db with outbox := db.outbox.append pid event } (.finish i e before lifetimeEarned true)
  | .finish i e _ lifetimeEarned tierChanged =>
    .commits (.awarded i ⟨true, e.points, lifetimeEarned, tierChanged⟩)
  | _ => .waits

/-- `reverse`. -/
def reverseStatement : LoyaltyPlace → Next LoyaltyDb Unit LoyaltyPlace
  | .find i =>
    match db.pointsEntries.get pid (i.referenceType, i.referenceId, i.originalReason) with
    | none => .goes db (.finishReverse i ⟨false, 0⟩)
    | some original =>
      if ∃ expected ∈ i.expectedBasePoints, expected ≠ original.basePoints then
        .throws (.disagrees i)
      else .goes db (.takeBack i original)
  | .takeBack i original =>
    match db.pointsEntries.insert pid (i.referenceType, i.referenceId, i.reversalReason)
        original.reversal (fun _ => False) with
    | .waits => .waits
    | .done _ t =>
      .goes { db with pointsEntries := t } (.finishReverse i ⟨true, original.points⟩)
    | _ => .goes db (.finishReverse i ⟨false, 0⟩)
  | .finishReverse i result => .commits (.reversed i result)
  | _ => .waits

/-- The statement of a call at its place. -/
def loyaltyStatement : LoyaltyPlace → Next LoyaltyDb Unit LoyaltyPlace
  | .find i => reverseStatement db pid (.find i)
  | .takeBack i original => reverseStatement db pid (.takeBack i original)
  | .finishReverse i result => reverseStatement db pid (.finishReverse i result)
  | place => awardStatement policy tiers env db pid place

end Statement

/-- A call there still runs. -/
def LoyaltyPlace.running : LoyaltyPlace → Bool
  | .idle | .failed | .awarded .. | .reversed .. | .disagrees _ => false
  | _ => true

/-- Where a call starts. -/
def LoyaltyRequest.first : LoyaltyRequest → LoyaltyPlace
  | .award input => .award input
  | .reverse input => .find input

/-- Any number of awards and reversals on the tables. -/
def loyaltyService (policy : LoyaltyPolicy) (tiers : TierTable) :
    Service LoyaltyDb Unit LoyaltyPlace LoyaltyRequest LoyaltyEnv where
  commit := LoyaltyDb.commit
  rollback := LoyaltyDb.rollback
  idle := .idle
  failed := .failed
  running := LoyaltyPlace.running
  first := LoyaltyRequest.first
  statement := loyaltyStatement policy tiers

end BeauClick.Loyalty
