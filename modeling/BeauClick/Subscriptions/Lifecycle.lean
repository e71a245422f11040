import BeauClick.CommercialPolicy.CollectionPolicy
import BeauClick.Lib.Heap
import BeauClick.Lib.Transactions

/-!
# The subscriptions of a seller

`SellerSubscriptionService` and `BookingCreditGrantService`
(`services/commercial-policy/src/subscription/`): ensures, selections and cancellations at the
same time, each of them a transaction on the versions of the rows.

The catalogue and the eligibility of a party are read as they are at each statement; they are
written elsewhere.
-/

namespace BeauClick.Subscriptions

open Commerce CommercialPolicy Mvcc Transactions

/-! ## The catalogue -/

/-- A row of `commercial.plan_versions`. -/
structure PlanVersion where
  id : Uuid
  planKey : String
  version : ℕ
  lifecycleState : LifecycleState
  billingTermDays : Option ℕ
  includedBookingCredits : ℕ
  staffSeats : ℕ
  includedLocations : ℕ
  capabilityKeys : List String
  priceScheduleVersionId : Uuid
  bookingCreditScheduleKey : Option String
  autoAssignable : Bool
  activationStartsAt : Instant
  activationEndsAt : Option Instant
  deriving DecidableEq

/-- A row of `commercial.price_schedule_versions`. -/
structure PriceScheduleVersion where
  id : Uuid
  currencyCode : String

/-- A row of `commercial.price_tiers`. -/
structure PriceTier where
  scheduleVersionId : Uuid
  minQuantity : ℕ
  maxQuantity : Option ℕ
  unitPriceToman : ℤ

/-- The plan versions and their prices. -/
structure Catalogue where
  versions : List PlanVersion
  scheduleVersions : List PriceScheduleVersion
  tiers : List PriceTier

/-- What a call fails with. -/
inductive SubscriptionFailure where
  | sellerNotEligible
  | planNotSelectable
  | paidActivationUnavailable
  | changedConcurrently
  | notConfigured (detail : String)
  /-- A `QueryFailedError` of a unique index. -/
  | uniqueViolation
  | foreignKeyViolation
  | connectionLost
  deriving DecidableEq

/-- Published, and inside its activation window. -/
def PlanVersion.Current (v : PlanVersion) (now : Instant) : Prop :=
  v.lifecycleState = .published ∧ v.activationStartsAt ≤ now ∧
    ∀ ends ∈ v.activationEndsAt, now < ends
  deriving Decidable

namespace Catalogue

variable (catalogue : Catalogue) (now : Instant)

/-- The current version that sellers get by themselves. -/
def requireAutoAssignableVersion : Except SubscriptionFailure PlanVersion :=
  match catalogue.versions.find? fun v => v.autoAssignable ∧ v.Current now with
  | some found => .ok found
  | none => .error (.notConfigured
      "no automatically assignable published plan version is active at this instant")

/-- The version a seller asks for, when it is on offer. -/
def requireSelectableVersion (planKey : String) (version : ℕ) :
    Except SubscriptionFailure PlanVersion :=
  match catalogue.versions.find? fun v =>
      v.planKey = planKey ∧ v.version = version ∧ v.Current now with
  | some found => .ok found
  | none => .error .planNotSelectable

/-- The price that a subscription is snapshotted at, and its currency. -/
def snapshotPriceOf (version : PlanVersion) : Except SubscriptionFailure (String × ℤ) :=
  match catalogue.scheduleVersions.find? fun s => s.id = version.priceScheduleVersionId with
  | none => .error (.notConfigured "the plan version references no price schedule version")
  | some scheduleVersion =>
    let tiers := catalogue.tiers.filter fun t =>
      t.scheduleVersionId = version.priceScheduleVersionId
    match tiers.filter fun t => t.minQuantity ≤ 1 ∧ ∀ m ∈ t.maxQuantity, 1 ≤ m with
    | [covering] =>
      if covering.unitPriceToman ≠ 0 then .error .paidActivationUnavailable
      else .ok (scheduleVersion.currencyCode, covering.unitPriceToman)
    | _ => .error (.notConfigured
        "the plan version’s price schedule does not price a single subscription exactly once")

end Catalogue

/-! ## Rows -/

/-- A party that may subscribe. -/
structure OwnedSubscriberParty where
  partyType : SellerPartyType
  partyId : Uuid
  deriving DecidableEq

/-- The states of a subscription. -/
inductive SellerSubscriptionState where
  | active
  | superseded
  | cancelled
  deriving DecidableEq

/-- The terms that are copied from the plan version. -/
structure Snapshot where
  planKey : String
  version : ℕ
  billingTermDays : Option ℕ
  includedBookingCredits : ℕ
  staffSeats : ℕ
  includedLocations : ℕ
  capabilityKeys : List String
  currencyCode : String
  unitPriceToman : ℤ
  priceScheduleVersionId : Uuid
  bookingCreditScheduleKey : Option String
  deriving DecidableEq

/-- A row of `commercial.seller_subscriptions`. -/
structure SellerSubscription where
  id : Uuid
  subscriber : OwnedSubscriberParty
  planVersionId : Uuid
  lifecycleState : SellerSubscriptionState
  snapshot : Snapshot
  effectiveAt : Instant
  createdByUserId : Option Uuid
  createdByLabel : Option String
  supersededAt : Option Instant
  supersededById : Option Uuid
  cancelledAt : Option Instant
  cancelledByUserId : Option Uuid
  cancelledByLabel : Option String
  deriving DecidableEq

/-- Where a grant comes from. -/
inductive BookingCreditGrantSource where
  | planIncluded
  deriving DecidableEq

/-- A row of `commercial.booking_credit_grants`. -/
structure BookingCreditGrant where
  id : Uuid
  subscriptionId : Uuid
  planVersionId : Uuid
  subscriber : OwnedSubscriberParty
  source : BookingCreditGrantSource
  quantity : ℕ
  periodIndex : ℕ
  grantedAt : Instant

def initialGrantPeriodIndex : ℕ := 0

def systemActorLabel : String := "system"

/-- The keys of a subscription in the unique indexes of the table. -/
inductive SubscriptionKey where
  | id (id : Uuid)
  /-- `uq_seller_subscriptions_one_active_per_party`. -/
  | activeParty (party : OwnedSubscriberParty)
  deriving DecidableEq

/-- The unique keys of a subscription's row. -/
def subscriptionKeys (x : SellerSubscription) : List SubscriptionKey :=
  match x.lifecycleState with
  | .active => [.id x.id, .activeParty x.subscriber]
  | _ => [.id x.id]

/-- The keys of a grant. -/
inductive GrantKey where
  | id (id : Uuid)
  /-- `uq_booking_credit_grants_once`. -/
  | once (subscriptionId : Uuid) (source : BookingCreditGrantSource) (periodIndex : ℕ)
  deriving DecidableEq

/-- The unique keys of a grant's row. -/
def grantKeys (g : BookingCreditGrant) : List GrantKey :=
  [.id g.id, .once g.subscriptionId g.source g.periodIndex]

/-- The tables, and who has made an id. -/
structure SubscriptionDb where
  subscriptions : Heap ℕ SellerSubscription subscriptionKeys
  grants : Heap ℕ BookingCreditGrant grantKeys
  generated : Uuid → Option ℕ

namespace SubscriptionDb

/-- No rows yet. -/
def empty : SubscriptionDb := ⟨.empty, .empty, fun _ => none⟩

/-- Transaction `pid` commits. -/
def commit (db : SubscriptionDb) (pid : ℕ) : SubscriptionDb :=
  { db with
    subscriptions := db.subscriptions.commit pid
    grants := db.grants.commit pid }

/-- Transaction `pid` rolls back. -/
def rollback (db : SubscriptionDb) (pid : ℕ) : SubscriptionDb :=
  { db with
    subscriptions := db.subscriptions.rollback pid
    grants := db.grants.rollback pid }

/-- `uuidv7`, which makes no id twice. -/
def generate (db : SubscriptionDb) (pid : ℕ) (id : Uuid) : SubscriptionDb :=
  { db with generated := Function.update db.generated id (some pid) }

/-- The active subscription of a party. -/
def findActive (db : SubscriptionDb) (pid : ℕ) (party : OwnedSubscriberParty) :
    Option SellerSubscription :=
  (db.subscriptions.sees pid).find? fun x => x.subscriber = party ∧ x.lifecycleState = .active

end SubscriptionDb

/-- The row of a newly activated subscription. -/
def SellerSubscription.activated (id : Uuid) (party : OwnedSubscriberParty) (version : PlanVersion)
    (price : String × ℤ) (actorUserId : Option Uuid) (now : Instant) : SellerSubscription where
  id := id
  subscriber := party
  planVersionId := version.id
  lifecycleState := .active
  snapshot :=
    { planKey := version.planKey
      version := version.version
      billingTermDays := version.billingTermDays
      includedBookingCredits := version.includedBookingCredits
      staffSeats := version.staffSeats
      includedLocations := version.includedLocations
      capabilityKeys := version.capabilityKeys
      currencyCode := price.1
      unitPriceToman := price.2
      priceScheduleVersionId := version.priceScheduleVersionId
      bookingCreditScheduleKey := version.bookingCreditScheduleKey }
  effectiveAt := now
  createdByUserId := actorUserId
  createdByLabel := if actorUserId.isSome then none else some systemActorLabel
  supersededAt := none
  supersededById := none
  cancelledAt := none
  cancelledByUserId := none
  cancelledByLabel := none

/-- The patch of `supersede`. -/
def SellerSubscription.supersede (successorId : Uuid) (now : Instant) (x : SellerSubscription) :
    SellerSubscription :=
  { x with
    lifecycleState := .superseded
    supersededAt := some now
    supersededById := some successorId }

/-- The patch of `applyCancellation`. -/
def SellerSubscription.cancel (actorUserId : Uuid) (now : Instant) (x : SellerSubscription) :
    SellerSubscription :=
  { x with
    lifecycleState := .cancelled
    cancelledAt := some now
    cancelledByUserId := some actorUserId
    cancelledByLabel := none }

/-- The grant of `issueForActivation`. -/
def BookingCreditGrant.included (id : Uuid) (x : SellerSubscription) (now : Instant) :
    BookingCreditGrant where
  id := id
  subscriptionId := x.id
  planVersionId := x.planVersionId
  subscriber := x.subscriber
  source := .planIncluded
  quantity := x.snapshot.includedBookingCredits
  periodIndex := initialGrantPeriodIndex
  grantedAt := now

theorem keys_supersede {successorId : Uuid} {now : Instant} (x : SellerSubscription) :
    subscriptionKeys (x.supersede successorId now) ⊆ subscriptionKeys x := by
  have hkeys : subscriptionKeys (x.supersede successorId now) = [.id x.id] := rfl
  rw [hkeys]
  unfold subscriptionKeys
  split <;> simp

theorem keys_cancel {actorUserId : Uuid} {now : Instant} (x : SellerSubscription) :
    subscriptionKeys (x.cancel actorUserId now) ⊆ subscriptionKeys x := by
  have hkeys : subscriptionKeys (x.cancel actorUserId now) = [.id x.id] := rfl
  rw [hkeys]
  unfold subscriptionKeys
  split <;> simp

/-! ## Calls -/

/-- What a call answers. -/
inductive SubscriptionOutcome where
  | ensured
  | selected
  | alreadyApplied
  | cancelled
  | alreadyBase
  deriving DecidableEq

/-- What is done with the subscription that `ensureBaseSubscriptionWithin` returns. -/
inductive Purpose where
  | ensure
  | select (planKey : String) (version : ℕ) (actorUserId : Uuid) (existing : Bool)
  deriving DecidableEq

/-- What is done after the grant of an activated subscription. -/
inductive Activation where
  | base (purpose : Purpose)
  | change (outcome : SubscriptionOutcome)
  deriving DecidableEq

/-- Where a call stands. -/
inductive SubscriptionPlace where
  | idle
  | findingActive (party : OwnedSubscriberParty) (purpose : Purpose)
  | checkingEligible (party : OwnedSubscriberParty) (purpose : Purpose)
  | resolvingBase (party : OwnedSubscriberParty) (purpose : Purpose)
  | insertingBase (party : OwnedSubscriberParty) (purpose : Purpose) (version : PlanVersion)
  | rereading (party : OwnedSubscriberParty) (purpose : Purpose)
  | selecting (party : OwnedSubscriberParty) (planKey : String) (version : ℕ) (actorUserId : Uuid)
  | findingExisting (party : OwnedSubscriberParty) (planKey : String) (version : ℕ)
      (actorUserId : Uuid)
  | targeting (party : OwnedSubscriberParty) (planKey : String) (version : ℕ) (actorUserId : Uuid)
      (existing : Bool) (current : SellerSubscription)
  | superseding (party : OwnedSubscriberParty) (current : SellerSubscription) (target : PlanVersion)
      (actorUserId successorId : Uuid)
  | insertingSuccessor (party : OwnedSubscriberParty) (target : PlanVersion)
      (actorUserId successorId : Uuid)
  | findingCurrent (party : OwnedSubscriberParty) (actorUserId : Uuid)
  | checkingBase (party : OwnedSubscriberParty) (actorUserId : Uuid) (current : SellerSubscription)
  | cancelling (party : OwnedSubscriberParty) (actorUserId : Uuid) (current : SellerSubscription)
  | resolvingRestored (party : OwnedSubscriberParty)
  | insertingRestored (party : OwnedSubscriberParty) (version : PlanVersion)
  | findingGrant (party : OwnedSubscriberParty) (subscription : SellerSubscription)
      (activation : Activation)
  | insertingGrant (party : OwnedSubscriberParty) (subscription : SellerSubscription)
      (activation : Activation)
  | committing (party : OwnedSubscriberParty) (outcome : SubscriptionOutcome)
      (subscription : SellerSubscription)
  | returned (party : OwnedSubscriberParty) (outcome : SubscriptionOutcome)
      (subscription : SellerSubscription)
  | threw (failure : SubscriptionFailure)
  deriving DecidableEq

/-- A call there still runs. -/
def SubscriptionPlace.running : SubscriptionPlace → Bool
  | idle | returned .. | threw _ => false
  | _ => true

/-- What a call is asked for. -/
inductive SubscriptionCall where
  | ensureBaseSubscription (party : OwnedSubscriberParty)
  | applyPlanSelection (party : OwnedSubscriberParty) (planKey : String) (version : ℕ)
      (actorUserId : Uuid)
  | applyCancellation (party : OwnedSubscriberParty) (actorUserId : Uuid)

/-- The clock, a new id, the catalogue, and the answer of `isEligible`. -/
structure SubscriptionEnv where
  now : Instant
  newId : Uuid
  catalogue : Catalogue
  eligible : Bool

abbrev SubscriptionNext := Next SubscriptionDb Unit SubscriptionPlace

/-- Where `ensureBaseSubscriptionWithin` returns to. -/
def afterEnsure (party : OwnedSubscriberParty) (current : SellerSubscription) :
    Purpose → SubscriptionPlace
  | .ensure => .committing party .ensured current
  | .select planKey version actorUserId existing =>
    .targeting party planKey version actorUserId existing current

/-- Where `activate` returns to. -/
def afterGrant (party : OwnedSubscriberParty) (subscription : SellerSubscription) :
    Activation → SubscriptionPlace
  | .base purpose => afterEnsure party subscription purpose
  | .change outcome => .committing party outcome subscription

section Statements

variable (env : SubscriptionEnv) (db : SubscriptionDb) (pid : ℕ)

/-- The first read of `ensureBaseSubscriptionWithin`. -/
def findExisting (party : OwnedSubscriberParty) (purpose : Purpose) : SubscriptionNext :=
  match db.findActive pid party with
  | some existing => .goes db (afterEnsure party existing purpose)
  | none => .goes db (.checkingEligible party purpose)

/-- `requireAutoAssignableVersion`. -/
def resolveBase (next : PlanVersion → SubscriptionPlace) : SubscriptionNext :=
  match env.catalogue.requireAutoAssignableVersion env.now with
  | .ok version => .goes db (next version)
  | .error failure => .throws (.threw failure)

/-- `activate` with `ON CONFLICT DO NOTHING`. -/
def insertBase (party : OwnedSubscriberParty) (purpose : Purpose) (version : PlanVersion) :
    SubscriptionNext :=
  match env.catalogue.snapshotPriceOf version with
  | .error failure => .throws (.threw failure)
  | .ok price =>
    if db.generated env.newId ≠ none then .waits
    else
      let x := SellerSubscription.activated env.newId party version price none env.now
      match db.subscriptions.insertRow pid x with
      | .waits => .waits
      | .violated => .goes (db.generate pid env.newId) (.rereading party purpose)
      | .done _ subscriptions =>
        .goes { db.generate pid env.newId with subscriptions := subscriptions }
          (.findingGrant party x (.base purpose))

/-- The read of the winner. -/
def reread (party : OwnedSubscriberParty) (purpose : Purpose) : SubscriptionNext :=
  match db.findActive pid party with
  | some winner => .goes db (afterEnsure party winner purpose)
  | none => .throws (.threw (.notConfigured
      "the base workspace could not be assigned and no active subscription exists for this party"))

/-- `requireSelectableVersion`, and the id of the successor. -/
def resolveTarget (party : OwnedSubscriberParty) (planKey : String) (version : ℕ)
    (actorUserId : Uuid) (existing : Bool) (current : SellerSubscription) : SubscriptionNext :=
  match env.catalogue.requireSelectableVersion env.now planKey version with
  | .error failure => .throws (.threw failure)
  | .ok target =>
    if current.planVersionId = target.id then
      .goes db (.committing party (if existing then .alreadyApplied else .selected) current)
    else if db.generated env.newId ≠ none then .waits
    else .goes (db.generate pid env.newId) (.superseding party current target actorUserId env.newId)

/-- The row is patched, if it is still the active one. -/
def transition (current : SellerSubscription) (patch : SellerSubscription → SellerSubscription)
    (hkeys : ∀ x, subscriptionKeys (patch x) ⊆ subscriptionKeys x) (next : SubscriptionPlace) :
    SubscriptionNext :=
  match db.subscriptions.update pid (fun x => x.id = current.id ∧ x.lifecycleState = .active) patch
      hkeys with
  | .waits => .waits
  | .violated => .throws (.threw .uniqueViolation)
  | .done affected subscriptions =>
    if affected = 1 then .goes { db with subscriptions := subscriptions } next
    else .throws (.threw .changedConcurrently)

/-- `activate` with `INSERT`. -/
def insertActive (id : Uuid) (party : OwnedSubscriberParty) (version : PlanVersion)
    (actorUserId : Option Uuid) (outcome : SubscriptionOutcome) : SubscriptionNext :=
  match env.catalogue.snapshotPriceOf version with
  | .error failure => .throws (.threw failure)
  | .ok price =>
    let x := SellerSubscription.activated id party version price actorUserId env.now
    match db.subscriptions.insertRow pid x with
    | .waits => .waits
    | .violated => .throws (.threw .uniqueViolation)
    | .done _ subscriptions =>
      .goes { db with subscriptions := subscriptions } (.findingGrant party x (.change outcome))

/-- The restored base workspace gets its id when it is inserted. -/
def insertRestored (party : OwnedSubscriberParty) (version : PlanVersion) : SubscriptionNext :=
  if db.generated env.newId ≠ none then .waits
  else insertActive env (db.generate pid env.newId) pid env.newId party version none .cancelled

/-- A subscription to the version that sellers get by themselves. -/
def isBaseSubscription (subscription : SellerSubscription) : Bool :=
  (env.catalogue.versions.find? fun v => v.id = subscription.planVersionId).any (·.autoAssignable)

/-- The first read of `issueForActivation`. -/
def findGrant (party : OwnedSubscriberParty) (subscription : SellerSubscription)
    (activation : Activation) : SubscriptionNext :=
  match (db.grants.sees pid).find? fun g => g.subscriptionId = subscription.id ∧
      g.source = .planIncluded ∧ g.periodIndex = initialGrantPeriodIndex with
  | some _ => .goes db (afterGrant party subscription activation)
  | none => .goes db (.insertingGrant party subscription activation)

/-- The credits of a period, once. -/
def insertGrant (party : OwnedSubscriberParty) (subscription : SellerSubscription)
    (activation : Activation) : SubscriptionNext :=
  if db.generated env.newId ≠ none then .waits
  else
    match db.grants.insertRow pid (.included env.newId subscription env.now) with
    | .waits => .waits
    | .violated => .throws (.threw .uniqueViolation)
    | .done _ grants =>
      .goes { db.generate pid env.newId with grants := grants }
        (afterGrant party subscription activation)

/-- The foreign key on `superseded_by_id` is checked at the commit. -/
def Referenced : Prop :=
  ∀ x ∈ db.subscriptions.sees pid, ∀ successorId ∈ x.supersededById,
    ∃ y ∈ db.subscriptions.sees pid, y.id = successorId
  deriving Decidable

/-- The statement of a call at its place. -/
def subscriptionStatement (place : SubscriptionPlace) : SubscriptionNext :=
  match place with
  | .findingActive party purpose => findExisting db pid party purpose
  | .checkingEligible party purpose =>
    if env.eligible then .goes db (.resolvingBase party purpose)
    else .throws (.threw .sellerNotEligible)
  | .resolvingBase party purpose => resolveBase env db (.insertingBase party purpose)
  | .insertingBase party purpose version => insertBase env db pid party purpose version
  | .rereading party purpose => reread db pid party purpose
  | .selecting party planKey version actorUserId =>
    if env.eligible then .goes db (.findingExisting party planKey version actorUserId)
    else .throws (.threw .sellerNotEligible)
  | .findingExisting party planKey version actorUserId =>
    .goes db (.findingActive party
      (.select planKey version actorUserId (db.findActive pid party).isSome))
  | .targeting party planKey version actorUserId existing current =>
    resolveTarget env db pid party planKey version actorUserId existing current
  | .superseding party current target actorUserId successorId =>
    transition db pid current (.supersede successorId env.now) keys_supersede
      (.insertingSuccessor party target actorUserId successorId)
  | .insertingSuccessor party target actorUserId successorId =>
    insertActive env db pid successorId party target (some actorUserId) .selected
  | .findingCurrent party actorUserId =>
    match db.findActive pid party with
    | some current => .goes db (.checkingBase party actorUserId current)
    | none => .throws (.threw .sellerNotEligible)
  | .checkingBase party actorUserId current =>
    if isBaseSubscription env current then .goes db (.committing party .alreadyBase current)
    else .goes db (.cancelling party actorUserId current)
  | .cancelling party actorUserId current =>
    transition db pid current (.cancel actorUserId env.now) keys_cancel (.resolvingRestored party)
  | .resolvingRestored party => resolveBase env db (.insertingRestored party)
  | .insertingRestored party version => insertRestored env db pid party version
  | .findingGrant party subscription activation => findGrant db pid party subscription activation
  | .insertingGrant party subscription activation =>
    insertGrant env db pid party subscription activation
  | .committing party outcome subscription =>
    if Referenced db pid then .commits (.returned party outcome subscription)
    else .throws (.threw .foreignKeyViolation)
  | _ => .waits

end Statements

/-- Where a call starts. -/
def SubscriptionCall.place : SubscriptionCall → SubscriptionPlace
  | ensureBaseSubscription party => .findingActive party .ensure
  | applyPlanSelection party planKey version actorUserId =>
    .selecting party planKey version actorUserId
  | applyCancellation party actorUserId => .findingCurrent party actorUserId

/-- Ensures, selections and cancellations at work. -/
def subscriptionService :
    Service SubscriptionDb Unit SubscriptionPlace SubscriptionCall SubscriptionEnv where
  commit := SubscriptionDb.commit
  rollback := SubscriptionDb.rollback
  idle := .idle
  failed := .threw .connectionLost
  running := SubscriptionPlace.running
  first := SubscriptionCall.place
  statement := subscriptionStatement

end BeauClick.Subscriptions
