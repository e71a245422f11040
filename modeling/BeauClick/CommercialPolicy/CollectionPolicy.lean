import BeauClick.Commerce.Order

/-!
# Collection policies

What `CollectionPolicyResolutionService.resolveForParty` does with the assignment it
has locked (`services/commercial-policy/src/collection-policy-assignment/`), and the
contract validators it calls
(`packages/commercial-policy-contract/src/booking-collection-policy-contract.ts`).

Numbers come from integer columns, so the checks that a value is a safe integer are
the bounds they add.  An instant of the database always has an ISO text, so
`resolvedAt` never fails its check.
-/

namespace BeauClick.CommercialPolicy

/-- `CATALOGUE_LIFECYCLE_STATES`. -/
inductive LifecycleState where
  | draft
  | published
  | retired
  deriving DecidableEq

/-- `POLICY_KEY_PATTERN`, which is `BOOKING_OUTCOME_KEY_PATTERN` too. -/
def matchesKeyPattern (key : String) : Bool :=
  match key.toList with
  | [] => false
  | c :: cs =>
    c.isAlpha && cs.length ≤ 63 && cs.all fun c => c.isAlphanum || c = '_' || c = '-'

/-- What stands in the version's window at an instant. -/
def activeAt (lifecycleState : LifecycleState) (activationStartsAt activationEndsAt : Option Instant)
    (now : Instant) : Bool :=
  lifecycleState = .published && activationStartsAt.any (· ≤ now) &&
    activationEndsAt.all (now < ·)

/-! ## The contract -/

/-- `BOOKING_COLLECTION_MODES`. -/
inductive BookingCollectionMode where
  | payAtVenue
  | depositOnlineBalanceAtVenue
  | fullPaymentOnline
  deriving DecidableEq

/-- `BOOKING_COLLECTION_PERCENTAGE_BASES`. -/
inductive PercentageBase where
  | serviceSubtotal
  | serviceTotal
  deriving DecidableEq

/-- The deposit of a collection policy. -/
inductive CollectionDepositRule where
  | none
  | fixed (amountToman : ℤ)
  | percentage (basisPoints : ℤ) (percentageBase : Option PercentageBase) (minimumToman : ℤ)
      (maximumToman : Option ℤ)
  deriving DecidableEq

/-- `BookingCollectionTermsV1`. -/
structure CollectionTerms where
  contractVersion : ℤ
  collectionMode : BookingCollectionMode
  deposit : CollectionDepositRule

/-- `BookingCollectionPolicySnapshotV1`. -/
structure CollectionSnapshot where
  policyKey : String
  policyVersion : ℤ
  resolvedAt : Instant
  terms : CollectionTerms

/-- `BOOKING_COLLECTION_POLICY_CONTRACT_VERSION`. -/
def collectionContractVersion : ℤ := 1

def maxCollectionAmountToman : ℤ := 10000000000000

def isBoundedAmount (value : ℤ) : Bool := 0 ≤ value && value ≤ maxCollectionAmountToman

/-- The message, when the check failed. -/
def problem (failed : Bool) (message : String) : List String := if failed then [message] else []

/-- The part of `validateBookingCollectionTermsV1` that looks at the deposit rule. -/
def CollectionDepositRule.problems : CollectionDepositRule → List String
  | .none => []
  | .fixed amountToman =>
    problem (!isBoundedAmount amountToman || amountToman = 0)
      "fixed deposit amountToman must be a positive integer no greater than 10000000000000"
  | .percentage basisPoints percentageBase minimumToman maximumToman =>
    problem (basisPoints < 1 || 10000 < basisPoints)
      "percentage deposit basisPoints must be an integer between 1 and 10000" ++
    problem percentageBase.isNone
      "percentage deposit percentageBase must be service_subtotal or service_total" ++
    problem (!isBoundedAmount minimumToman)
      "percentage deposit minimumToman must be a non-negative integer within the amount bound" ++
    problem (maximumToman.any fun maximum => !isBoundedAmount maximum)
      "percentage deposit maximumToman must be null or a non-negative integer within the amount bound" ++
    problem (maximumToman.any fun maximum =>
        0 ≤ minimumToman && 0 ≤ maximum && maximum < minimumToman)
      "percentage deposit maximumToman must not be below minimumToman"

/-- `validateBookingCollectionTermsV1`. -/
def CollectionTerms.problems (terms : CollectionTerms) : List String :=
  problem (terms.contractVersion ≠ collectionContractVersion) "contractVersion must be 1" ++
  problem (terms.collectionMode = .depositOnlineBalanceAtVenue && terms.deposit = .none)
    "deposit collection mode requires a deposit rule" ++
  problem (terms.collectionMode ≠ .depositOnlineBalanceAtVenue && terms.deposit ≠ .none)
    "a deposit rule is only valid in deposit_online_balance_at_venue mode" ++
  terms.deposit.problems

/-- `validateBookingCollectionPolicySnapshotV1`. -/
def CollectionSnapshot.problems (snapshot : CollectionSnapshot) : List String :=
  snapshot.terms.problems ++
  problem (!matchesKeyPattern snapshot.policyKey)
    "policyKey must be 1-64 characters of [A-Za-z0-9_-] starting with a letter" ++
  problem (snapshot.policyVersion < 1) "policyVersion must be a positive safe integer"

/-! ## The catalogue -/

/-- `BOOKING_COLLECTION_DEPOSIT_KINDS`. -/
inductive DepositKind where
  | none
  | fixed
  | percentage

/-- The columns of `commercial.booking_collection_policy_versions` that are read. -/
structure CollectionVersionRow where
  policyKey : String
  version : ℤ
  lifecycleState : LifecycleState
  activationStartsAt : Option Instant
  activationEndsAt : Option Instant
  collectionMode : BookingCollectionMode
  depositKind : DepositKind
  depositAmountToman : Option ℤ
  depositBasisPoints : Option ℤ
  depositMinimumToman : Option ℤ
  depositMaximumToman : Option ℤ
  percentageBase : Option PercentageBase

/-- `depositFrom`.  `Number(null)` is zero. -/
def depositFrom (row : CollectionVersionRow) : CollectionDepositRule :=
  match row.depositKind with
  | .fixed => .fixed (row.depositAmountToman.getD 0)
  | .percentage =>
    .percentage (row.depositBasisPoints.getD 0) row.percentageBase
      (row.depositMinimumToman.getD 0) row.depositMaximumToman
  | .none => .none

def termsFrom (row : CollectionVersionRow) : CollectionTerms where
  contractVersion := collectionContractVersion
  collectionMode := row.collectionMode
  deposit := depositFrom row

/-- The versions of the key that are published and active. -/
def activeCollectionVersions (versions : List CollectionVersionRow) (policyKey : String)
    (now : Instant) : List CollectionVersionRow :=
  versions.filter fun v => v.policyKey = policyKey &&
    activeAt v.lifecycleState v.activationStartsAt v.activationEndsAt now

/-- `CollectionPolicyUnresolvableError`, by its cause. -/
inductive CollectionUnresolvable where
  | noActiveVersion
  | ambiguousVersion
  | invalidSnapshot

/-- `resolveForParty` after its two locking reads: the assignment's key and the versions
that were active. -/
def resolveCollection (policyKey : String) (versions : List CollectionVersionRow) (now : Instant) :
    Except CollectionUnresolvable CollectionSnapshot :=
  match versions with
  | [] => .error .noActiveVersion
  | [version] =>
    let snapshot : CollectionSnapshot := {
      policyKey := policyKey
      policyVersion := version.version
      resolvedAt := now
      terms := termsFrom version }
    if snapshot.problems = [] then .ok snapshot else .error .invalidSnapshot
  | _ => .error .ambiguousVersion

theorem resolveCollection_eq_ok {policyKey : String} {versions : List CollectionVersionRow}
    {now : Instant} {snapshot : CollectionSnapshot}
    (h : resolveCollection policyKey versions now = .ok snapshot) :
    snapshot.policyKey = policyKey ∧ snapshot.problems = [] := by
  unfold resolveCollection at h
  split at h
  · cases h
  · dsimp only at h
    split at h
    · rename_i hval
      cases h
      exact ⟨rfl, hval⟩
    · cases h
  · cases h

end BeauClick.CommercialPolicy
