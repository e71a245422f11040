import BeauClick.Lib.Journal
import BeauClick.Lib.ReadCommitted
import BeauClick.Referral.Calendar

/-!
# The tables of the referral reward

`services/referral/src/entities/referral.entities.ts`, the `referral` entries of
`loyalty.points_entries`, and the orders with their outbox.
-/

namespace BeauClick.Referral

open Commerce Money ReadCommitted

def referralMonthlyCap : ℕ := 10

/-- `ReferralRewardSide`. -/
inductive RewardSide where
  | referrer
  | referee
  deriving DecidableEq

/-- `ReferralRewardOutcome`. -/
inductive RewardOutcome where
  | awarded
  | disabledZero
  | capped
  deriving DecidableEq

/-- `ReferralReversalOutcome`. -/
inductive ReversalOutcome where
  | reversed
  | nothingToReverse
  deriving DecidableEq

/-- The reasons under which the ledger refers to a referral. -/
inductive LoyaltyReason where
  | referralReferrerReward
  | referralRefereeReward
  | referralReferrerReversal
  | referralRefereeReversal
  deriving DecidableEq

/-- `LEDGER_REASON_BY_SIDE`, `REWARD_REASON_BY_SIDE`. -/
def rewardReasonBySide : RewardSide → LoyaltyReason
  | .referrer => .referralReferrerReward
  | .referee => .referralRefereeReward

/-- Each side's reward is reversed for its own reason. -/
def reversalReasonBySide : RewardSide → LoyaltyReason
  | .referrer => .referralReferrerReversal
  | .referee => .referralRefereeReversal

theorem rewardReasonBySide_inj {a b : RewardSide}
    (h : rewardReasonBySide a = rewardReasonBySide b) : a = b := by
  cases a <;> cases b <;> simp_all [rewardReasonBySide]

theorem reversalReasonBySide_inj {a b : RewardSide}
    (h : reversalReasonBySide a = reversalReasonBySide b) : a = b := by
  cases a <;> cases b <;> simp_all [reversalReasonBySide]

theorem reward_ne_reversal (a b : RewardSide) : rewardReasonBySide a ≠ reversalReasonBySide b := by
  cases a <;> cases b <;> simp [rewardReasonBySide, reversalReasonBySide]

/-! ## A referral -/

/-- `status`, with the columns that `ck_referrals_qualification_complete` and
`ck_referrals_reversal_complete` ask for under it. -/
inductive ReferralState where
  | pending
  | qualified (qualifiedAt : Instant) (qualifyingBookingId : Uuid)
  | reversed (qualifiedAt : Instant) (qualifyingBookingId : Uuid) (reversedAt : Instant)
      (reversalOrderId : Uuid)
  deriving DecidableEq

/-- The booking that qualified the attribution. -/
def ReferralState.qualifyingBookingId : ReferralState → Option Uuid
  | .pending => none
  | .qualified _ bookingId => some bookingId
  | .reversed _ bookingId _ _ => some bookingId

/-- `status = 'reversed'`. -/
def ReferralState.IsReversed : ReferralState → Prop
  | .reversed .. => True
  | _ => False

/-- A row of `referral.referrals`, which has one row for a referee. -/
structure ReferralAttributionEntity where
  id : Uuid
  referrerUserId : Uuid
  refereeUserId : Uuid
  attributedAt : Instant
  expiresAt : Instant
  state : ReferralState
  deriving DecidableEq

namespace ReferralAttributionEntity

/-- `ck_referrals_qualified_after_attribution`, `ck_referrals_reversed_after_qualified`. -/
def Checked (x : ReferralAttributionEntity) : Prop :=
  match x.state with
  | .pending => True
  | .qualified qualifiedAt _ => x.attributedAt ≤ qualifiedAt
  | .reversed qualifiedAt _ reversedAt _ => x.attributedAt ≤ qualifiedAt ∧ qualifiedAt ≤ reversedAt

instance : DecidablePred Checked := fun x => by
  unfold Checked
  split <;> infer_instance

/-- `status = 'pending' AND expires_at > now`. -/
def Live (now : Instant) (x : ReferralAttributionEntity) : Prop :=
  x.state = .pending ∧ now < x.expiresAt
  deriving Decidable

/-- The row as the qualification sets it. -/
def qualify (x : ReferralAttributionEntity) (now : Instant) (bookingId : Uuid) :
    ReferralAttributionEntity :=
  { x with state := .qualified now bookingId }

/-- `qualifying_booking_id = … AND status = 'qualified'`. -/
def qualifiedBy (bookingId : Uuid) (x : ReferralAttributionEntity) : Bool :=
  match x.state with
  | .qualified _ b => b = bookingId
  | _ => false

/-- The row as the reversal sets it. -/
def reverse (x : ReferralAttributionEntity) (now : Instant) (orderId : Uuid) :
    ReferralAttributionEntity :=
  match x.state with
  | .qualified qualifiedAt bookingId =>
    { x with state := .reversed qualifiedAt bookingId now orderId }
  | _ => x

/-- The user on a side. -/
def recipient (x : ReferralAttributionEntity) : RewardSide → Uuid
  | .referrer => x.referrerUserId
  | .referee => x.refereeUserId

end ReferralAttributionEntity

/-! ## Its grants, ledger entries and reversals -/

/-- A row of `referral.reward_grants`, which has one row for a referral and a side. -/
structure RewardGrantEntity where
  recipientUserId : Uuid
  outcome : RewardOutcome
  points : ℕ
  ledgerReason : LoyaltyReason
  grantedAt : Instant

/-- `ck_reward_grants_outcome_matches_points`, `ck_reward_grants_only_referrer_capped`. -/
def RewardGrantEntity.Checked (side : RewardSide) (g : RewardGrantEntity) : Prop :=
  (g.outcome = .awarded → 0 < g.points) ∧ (g.outcome = .disabledZero → g.points = 0) ∧
    (g.outcome = .capped → side = .referrer)
  deriving Decidable

/-- A row of `loyalty.points_entries` under the reference type `referral`, which has one row for a
referral and a reason. -/
structure PointsEntryEntity where
  userId : Uuid
  points : ℤ
  basePoints : ℤ
  multiplierBp : ℕ
  deriving DecidableEq

/-- `pointsMultiplierBp`, of the multipliers of the user's benefits. -/
def pointsMultiplierBp (multipliers : List ℕ) : ℕ := multipliers.foldl max 10000

/-- `Math.round((basePoints * multiplierBp) / 10000)`. -/
def creditedPoints (basePoints multiplierBp : ℕ) : ℕ := (basePoints * multiplierBp + 5000) / 10000

/-- The row that `award` inserts. -/
def awardEntry (userId : Uuid) (basePoints multiplierBp : ℕ) : PointsEntryEntity where
  userId := userId
  points := creditedPoints basePoints multiplierBp
  basePoints := basePoints
  multiplierBp := multiplierBp

/-- The row that `reverse` of the ledger inserts. -/
def PointsEntryEntity.reversal (original : PointsEntryEntity) : PointsEntryEntity :=
  { original with
    points := -original.points
    basePoints := -original.basePoints }

theorem le_pointsMultiplierBp (multipliers : List ℕ) : 10000 ≤ pointsMultiplierBp multipliers := by
  have hmono : ∀ (ms : List ℕ) (m : ℕ), m ≤ ms.foldl max m := by
    intro ms
    induction ms with
    | nil => exact fun m => le_refl m
    | cons n ms ih => exact fun m => (le_max_left m n).trans (ih (max m n))
  exact hmono multipliers 10000

theorem creditedPoints_pos {basePoints multiplierBp : ℕ} (hbase : 0 < basePoints)
    (hmult : 10000 ≤ multiplierBp) : 0 < creditedPoints basePoints multiplierBp := by
  have hprod : 1 * 10000 ≤ basePoints * multiplierBp := Nat.mul_le_mul hbase hmult
  unfold creditedPoints
  omega

/-- A row of `referral.reward_reversals`, which has one row for a referral and a side. -/
structure RewardReversalEntity where
  recipientUserId : Uuid
  outcome : ReversalOutcome
  points : ℤ
  ledgerReason : LoyaltyReason
  reversedAt : Instant

/-- `ck_reward_reversals_outcome_matches_points`. -/
def RewardReversalEntity.Checked (r : RewardReversalEntity) : Prop :=
  (r.outcome = .reversed → 0 < r.points) ∧ (r.outcome = .nothingToReverse → r.points = 0)
  deriving Decidable

/-! ## The events -/

/-- The payload of `ReferralQualified`. -/
structure Qualification where
  referralId : Uuid
  referrerUserId : Uuid
  refereeUserId : Uuid
  qualifyingBookingId : Uuid
  qualifiedAt : Instant
  referrerOutcome : RewardOutcome
  referrerPoints : ℕ
  refereeOutcome : RewardOutcome
  refereePoints : ℕ
  deriving DecidableEq

namespace Qualification

/-- `recipientUserId` of a side's decision. -/
def recipient (q : Qualification) : RewardSide → Uuid
  | .referrer => q.referrerUserId
  | .referee => q.refereeUserId

/-- `outcome` of a side's decision. -/
def outcome (q : Qualification) : RewardSide → RewardOutcome
  | .referrer => q.referrerOutcome
  | .referee => q.refereeOutcome

/-- `points` of a side's decision. -/
def points (q : Qualification) : RewardSide → ℕ
  | .referrer => q.referrerPoints
  | .referee => q.refereePoints

/-- The row that `recordGrant` inserts. -/
def grant (q : Qualification) (side : RewardSide) : RewardGrantEntity where
  recipientUserId := q.recipient side
  outcome := q.outcome side
  points := q.points side
  ledgerReason := rewardReasonBySide side
  grantedAt := q.qualifiedAt

end Qualification

/-- What is taken back of one side. -/
structure SideReversal where
  recipientUserId : Uuid
  outcome : ReversalOutcome
  points : ℤ
  deriving DecidableEq

/-- The events of `referral.outbox_events`. -/
inductive ReferralEvent where
  | qualified (q : Qualification)
  | reversed (referralId referrerUserId refereeUserId reversalOrderId : Uuid)
      (reversedAt : Instant) (referrer referee : SideReversal)

/-- The qualification that an event states. -/
def ReferralEvent.qualification? : ReferralEvent → Option Qualification
  | .qualified q => some q
  | .reversed .. => none

/-! ## The orders -/

/-- What `insert` gives a new order's columns. -/
structure NewOrder where
  id : Uuid
  sourceType : OrderSourceType
  sourceId : Uuid
  customerId : Uuid
  sellerPartyType : SellerPartyType
  sellerPartyId : Uuid
  totalToman : ℤ
  schedule : Option OrderPaymentScheduleEntity
  deriving DecidableEq

/-- A new order, which no event is about. -/
def NewOrder.store (n : NewOrder) : OrderStore where
  order := some
    { id := n.id
      sourceType := n.sourceType
      sourceId := n.sourceId
      customerId := n.customerId
      sellerPartyType := n.sellerPartyType
      sellerPartyId := n.sellerPartyId
      status := .pending
      totalToman := n.totalToman
      refundedTotalToman := 0
      collectedTotalToman := 0
      paidAt := none
      cancelledAt := none }
  schedule := n.schedule
  outbox := []

/-- The order has a source: `UNIQUE (source_type, source_id)`. -/
def HasSource (sourceType : OrderSourceType) (sourceId : Uuid) (s : OrderStore) : Prop :=
  ∃ o ∈ s.order, o.sourceType = sourceType ∧ o.sourceId = sourceId

instance (sourceType : OrderSourceType) (sourceId : Uuid) :
    DecidablePred (HasSource sourceType sourceId) := fun s =>
  match h : s.order with
  | none => isFalse (by simp [HasSource, h])
  | some o => decidable_of_iff (o.sourceType = sourceType ∧ o.sourceId = sourceId)
      (by simp [HasSource, h])

/-- A statement of the order service on an order that has been placed. -/
inductive OrderOperation where
  | recordVerifiedCapture (verifiedAmountToman : JsNumber) (now : Instant)
  | confirmNoOnlineCollection
  | cancel (reason : String) (now : Instant)
  | recordRefund (amountToman : JsNumber) (refundId : Uuid) (now : Instant)
  deriving DecidableEq

/-- The order after the statement, with the events about it. -/
def OrderOperation.run (op : OrderOperation) (s : OrderStore) : Except OrderError OrderStore :=
  match op with
  | .recordVerifiedCapture amount now => (s.recordVerifiedCapture amount now).map (·.2)
  | .confirmNoOnlineCollection => s.confirmNoOnlineCollection.map (·.2)
  | .cancel reason now => .ok (s.cancel reason now).2
  | .recordRefund amount refundId now => (s.recordRefund amount refundId now).map (·.2)

/-- The event is an `OrderRefunded`. -/
def isOrderRefunded : CommerceEvent → Bool
  | .orderRefunded .. => true
  | _ => false

/-! ## The database -/

/-- The tables.  An event of an order's outbox is known by the order and its place there. -/
structure ReferralDb where
  /-- By referee: `uq_referrals_referee`. -/
  referrals : Versioned ℕ Uuid ReferralAttributionEntity
  /-- `qualified_count`, by referrer and period. -/
  referrerCounters : Versioned ℕ (Uuid × Period) ℕ
  /-- By referral and side: `uq_reward_grants_referral_side`. -/
  rewardGrants : Versioned ℕ (Uuid × RewardSide) RewardGrantEntity
  /-- By referral and reason: `uq_points_entries_reference_once`. -/
  pointsEntries : Versioned ℕ (Uuid × LoyaltyReason) PointsEntryEntity
  /-- By referral and side: `uq_reward_reversals_referral_side`. -/
  rewardReversals : Versioned ℕ (Uuid × RewardSide) RewardReversalEntity
  outbox : Journal ℕ ReferralEvent
  orders : Versioned ℕ Uuid OrderStore
  /-- The bookings that a `BookingCompleted` event is about. -/
  completed : List Uuid

namespace ReferralDb

/-- No rows yet. -/
def empty : ReferralDb := ⟨.empty, .empty, .empty, .empty, .empty, .empty, .empty, []⟩

/-- Transaction `pid` commits. -/
def commit (db : ReferralDb) (pid : ℕ) : ReferralDb where
  referrals := db.referrals.commit pid
  referrerCounters := db.referrerCounters.commit pid
  rewardGrants := db.rewardGrants.commit pid
  pointsEntries := db.pointsEntries.commit pid
  rewardReversals := db.rewardReversals.commit pid
  outbox := db.outbox.commit pid
  orders := db.orders.commit pid
  completed := db.completed

/-- Transaction `pid` rolls back. -/
def rollback (db : ReferralDb) (pid : ℕ) : ReferralDb where
  referrals := db.referrals.rollback pid
  referrerCounters := db.referrerCounters.rollback pid
  rewardGrants := db.rewardGrants.rollback pid
  pointsEntries := db.pointsEntries.rollback pid
  rewardReversals := db.rewardReversals.rollback pid
  outbox := db.outbox.rollback pid
  orders := db.orders.rollback pid
  completed := db.completed

/-- The qualifications that have been recorded, in the order of their commits. -/
def qualifications (db : ReferralDb) : List Qualification :=
  db.outbox.committed.filterMap ReferralEvent.qualification?

end ReferralDb

end BeauClick.Referral
