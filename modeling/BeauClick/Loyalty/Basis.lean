import BeauClick.Loyalty.Ledger
import BeauClick.Loyalty.Memberships
import Mathlib.Algebra.Order.BigOperators.Group.List

/-!
# The qualification basis

`LoyaltyLedgerService.lifetimeEarned` sums the entries that `LOYALTY_TIER_BASIS` counts, and
`TierService.lifetimeEarnedFor` sums them all (`services/loyalty/src`).  An award asks the second
one for the tier before it and for the benefits, the first one for the tier after it and for the
tier that the customer is shown.

* `OneTier` — the two agree, and so do what an award records and applies.
* `oneTier_iff` — exactly when no threshold lies between the two sums.
-/

namespace BeauClick.Loyalty

/-! ## The tables -/

/-- What a tier is reckoned on. -/
inductive TierQualificationBasis where
  | lifetime
  | rolling365
  deriving DecidableEq

/-- A row of `loyalty.points_entries`, with its reference and `created_at`. -/
structure LedgerRow where
  reference : Reference
  entry : PointsEntryEntity
  createdAt : Instant
  deriving DecidableEq

/-- `source_type` of a benefit. -/
inductive BenefitSource where
  | tier
  | membershipPlan
  deriving DecidableEq

/-- The kinds of a benefit. -/
inductive BenefitType where
  | bonusPointsMultiplier
  | discountPercentage
  | descriptive
  deriving DecidableEq

/-- A row of `loyalty.benefits`; of its `config`, the multiplier. -/
structure BenefitEntity where
  id : Uuid
  sourceType : BenefitSource
  sourceId : Uuid
  benefitType : BenefitType
  label : String
  multiplierBp : Option ℕ
  isActive : Bool
  sortOrder : ℤ
  deriving DecidableEq

/-- The tables, as a transaction finds them. -/
structure LoyaltyTables where
  tiers : TierTable
  entries : List LedgerRow
  crossings : List TierCrossingEntity
  outbox : List LoyaltyEvent
  benefits : List BenefitEntity
  memberships : List MembershipEntity

/-- `interval '365 days'`, in milliseconds. -/
def rollingWindow : Instant := 365 * 86400000

/-- The entry is summed: always, or while it is in the window. -/
def TierQualificationBasis.Counts (now : Instant) : TierQualificationBasis → LedgerRow → Prop
  | .lifetime, _ => True
  | .rolling365, row => now - rollingWindow ≤ row.createdAt

instance (now : Instant) (basis : TierQualificationBasis) : DecidablePred (basis.Counts now) :=
  fun row =>
    match basis with
    | .lifetime => inferInstanceAs (Decidable True)
    | .rolling365 => inferInstanceAs (Decidable (now - rollingWindow ≤ row.createdAt))

/-- The positive points of a user. -/
def sumEarned (userId : Uuid) (rows : List LedgerRow) : ℕ :=
  (rows.map fun row => earnedBy userId row.entry).sum

def maxInt : ℕ := 2147483647

namespace LoyaltyTables

/-! ## The two sums -/

/-- The points that a basis counts. -/
def lifetimeEarned (t : LoyaltyTables) (basis : TierQualificationBasis) (now : Instant)
    (userId : Uuid) : ℕ := sumEarned userId (t.entries.filter (basis.Counts now ·))

/-- `TierService.lifetimeEarnedFor`; the cast to `int` throws when the sum is none. -/
def lifetimeEarnedFor (t : LoyaltyTables) (userId : Uuid) : Option ℕ :=
  let total := sumEarned userId t.entries
  if total ≤ maxInt then some total else none

/-- The tier of a user's total. -/
def currentTierSlug (t : LoyaltyTables) (userId : Uuid) : Option (Option String) :=
  (t.lifetimeEarnedFor userId).map t.tiers.tierSlugForPoints

/-- The tier of `lifetimeEarned`, which `progressFor` shows the customer. -/
def shownTierSlug (t : LoyaltyTables) (basis : TierQualificationBasis) (now : Instant)
    (userId : Uuid) : Option String :=
  t.tiers.tierSlugForPoints (t.lifetimeEarned basis now userId)

/-! ## Benefits and awards -/

/-- What `benefitsForUser` finds for a tier. -/
def benefitsOf (t : LoyaltyTables) (userId : Uuid) (tierSlug : Option String) :
    List BenefitEntity :=
  let tier := (tierSlug.filter (· ≠ "")).bind t.tiers.findBySlug
  let membership := t.memberships.find? fun m => m.userId = userId
  let plan := (membership.filter (·.status = .active)).map (·.planId)
  let rows := t.benefits.filter fun b => b.isActive ∧
    ((b.sourceType = .tier ∧ tier.map (·.id) = some b.sourceId) ∨
      (b.sourceType = .membershipPlan ∧ plan = some b.sourceId))
  rows.insertionSort fun b c => b.sortOrder ≤ c.sortOrder

/-- What the tier of a user gives. -/
def benefitsForUser (t : LoyaltyTables) (userId : Uuid) : Option (List BenefitEntity) :=
  (t.currentTierSlug userId).map (t.benefitsOf userId)

/-- The multiplier of the tier's benefits, in basis points. -/
def pointsMultiplierBp (t : LoyaltyTables) (userId : Uuid) : Option ℕ :=
  (t.benefitsForUser userId).map fun benefits =>
    Referral.pointsMultiplierBp ((benefits.filter (·.benefitType = .bonusPointsMultiplier)).map
      fun b => b.multiplierBp.getD 10000)

/-- A crossing is recorded when the tier is another one. -/
def recordTierCrossingIfChanged (t : LoyaltyTables) (now : Instant) (userId : Uuid)
    (fromTierSlug : Option String) (lifetimeEarned : ℕ) : LoyaltyTables × Bool :=
  let x : TierCrossingEntity :=
    ⟨userId, fromTierSlug, t.tiers.tierSlugForPoints lifetimeEarned, lifetimeEarned⟩
  if x.toTierSlug = fromTierSlug ∨ ∃ y ∈ t.crossings, y.key = x.key then (t, false)
  else
    ({ t with
      crossings := t.crossings ++ [x]
      outbox := t.outbox ++ [.tierChanged x now] }, true)

/-- The tables after `award` has inserted its entry. -/
def insertEntry (t : LoyaltyTables) (policy : LoyaltyPolicy) (now : Instant) (i : AwardInput)
    (multiplierBp : ℕ) : LoyaltyTables :=
  { t with entries := t.entries ++ [⟨i.reference, i.entry policy multiplierBp, now⟩] }

/-- `award`; nothing is left of it when it throws. -/
def award (t : LoyaltyTables) (policy : LoyaltyPolicy) (basis : TierQualificationBasis)
    (now : Instant) (i : AwardInput) : Option (LoyaltyTables × AwardResult) :=
  if i.basePoints policy = 0 then
    some (t, ⟨false, 0, t.lifetimeEarned basis now i.userId, false⟩)
  else
    match t.pointsMultiplierBp i.userId, t.currentTierSlug i.userId with
    | some multiplierBp, some tierBefore =>
      if ∃ row ∈ t.entries, row.reference = i.reference then
        some (t, ⟨false, 0, t.lifetimeEarned basis now i.userId, false⟩)
      else
        let inserted := t.insertEntry policy now i multiplierBp
        let points := (i.entry policy multiplierBp).points
        let lifetimeEarned := inserted.lifetimeEarned basis now i.userId
        let earned := .pointsEarned i.userId points i.reason i.referenceType i.referenceId
          lifetimeEarned now
        let crossed := { inserted with outbox := inserted.outbox ++ [earned] }
          |>.recordTierCrossingIfChanged now i.userId tierBefore lifetimeEarned
        some (crossed.1, ⟨true, points, lifetimeEarned, crossed.2⟩)
    | _, _ => none

/-! ## The property -/

/-- One tier: what `currentTierSlug` computes is the tier that the customer is shown; an award that
leaves the shown tier records no crossing; the benefits of an award are those of the shown tier. -/
structure OneTier (t : LoyaltyTables) (basis : TierQualificationBasis) (now : Instant)
    (userId : Uuid) : Prop where
  computed : t.currentTierSlug userId = some (t.shownTierSlug basis now userId)
  unchanged : ∀ policy i t' result, i.userId = userId →
    t.award policy basis now i = some (t', result) →
      t'.shownTierSlug basis now userId = t.shownTierSlug basis now userId →
        t'.crossings = t.crossings
  benefits : t.benefitsForUser userId = some (t.benefitsOf userId (t.shownTierSlug basis now userId))

variable {t t' : LoyaltyTables} {basis : TierQualificationBasis} {now : Instant} {userId : Uuid}

theorem lifetimeEarned_le : t.lifetimeEarned basis now userId ≤ sumEarned userId t.entries :=
  (List.filter_sublist.map _).sum_le_sum fun _ _ => Nat.zero_le _

theorem award_crossings {policy : LoyaltyPolicy} {i : AwardInput} {result : AwardResult}
    (h : t.award policy basis now i = some (t', result)) :
    t'.crossings = t.crossings ∨
      ∃ tierBefore, t.currentTierSlug i.userId = some tierBefore ∧
        t'.shownTierSlug basis now i.userId ≠ tierBefore := by
  unfold award at h
  split at h
  · cases h
    exact Or.inl rfl
  · split at h
    · rename_i multiplierBp tierBefore hmult hbef
      split at h
      · cases h
        exact Or.inl rfl
      · cases h
        unfold recordTierCrossingIfChanged
        dsimp only
        split_ifs with hsame
        · exact Or.inl rfl
        · exact Or.inr ⟨tierBefore, hbef, fun heq => hsame (Or.inl heq)⟩
    · cases h

theorem currentTierSlug_eq_iff :
    t.currentTierSlug userId = some (t.shownTierSlug basis now userId) ↔
      sumEarned userId t.entries ≤ maxInt ∧ ∀ tier ∈ t.tiers.activeTiers,
        t.lifetimeEarned basis now userId < tier.thresholdPoints →
          sumEarned userId t.entries < tier.thresholdPoints := by
  unfold currentTierSlug lifetimeEarnedFor shownTierSlug
  rw [← t.tiers.tierSlugForPoints_eq_iff lifetimeEarned_le]
  dsimp only
  split_ifs with hint
  · rw [Option.map_some, Option.some_inj]
    exact ⟨fun h => ⟨hint, h.symm⟩, fun h => h.2.symm⟩
  · exact iff_of_false (by simp) fun h => hint h.1

/-- **One tier.**  The components agree exactly when what was earned is an `int` and no threshold
of an active tier lies above what the basis counts and within all that was earned. -/
theorem oneTier_iff (t : LoyaltyTables) (basis : TierQualificationBasis) (now : Instant)
    (userId : Uuid) :
    t.OneTier basis now userId ↔
      sumEarned userId t.entries ≤ maxInt ∧ ∀ tier ∈ t.tiers.activeTiers,
        t.lifetimeEarned basis now userId < tier.thresholdPoints →
          sumEarned userId t.entries < tier.thresholdPoints := by
  rw [← currentTierSlug_eq_iff]
  refine ⟨OneTier.computed, fun hcomputed => ⟨hcomputed, ?_, ?_⟩⟩
  · rintro policy i t' result rfl haward hshown
    rcases award_crossings haward with hnone | ⟨_, hbef, hne⟩
    · exact hnone
    · cases hcomputed.symm.trans hbef
      exact absurd hshown hne
  · unfold benefitsForUser
    rw [hcomputed, Option.map_some]

/-! ## Points of the year before -/

/-- Sixty points were earned on the first day, and gold is at fifty. -/
def longAgo : LoyaltyTables where
  tiers := ⟨[⟨1, "gold", "Gold", 50, 0, true⟩], by decide, by decide⟩
  entries := [⟨("booking", 10, .bookingCompleted), ⟨7, 60, 60, 10000⟩, 0⟩]
  crossings := []
  outbox := []
  benefits := []
  memberships := []

/-- A year later the customer is shown no tier, and gold is what awards go by. -/
theorem oneTier_longAgo_fails :
    ¬∀ t basis now userId, OneTier t basis now userId := by
  intro h
  have hcomputed := (h longAgo .rolling365 (400 * 86400000) 7).computed
  exact absurd hcomputed (by decide +kernel)

end LoyaltyTables

end BeauClick.Loyalty
