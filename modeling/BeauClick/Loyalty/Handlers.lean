import BeauClick.Lib.Recorded
import BeauClick.Loyalty.Crossings
import BeauClick.Loyalty.Memberships

/-!
# The handlers that award points

`BookingCompletedLoyaltyHandler` and `OrderPaidLoyaltyHandler`
(`apps/api/src/events/loyalty-journey.handlers.ts`): an award in a transaction of its own, and then
`syncFromTier` in another one.
-/

namespace BeauClick.Loyalty

open Commerce ReadCommitted Transactions

/-! ## Events -/

/-- What `BookingCompleted` and `OrderPaid` tell a handler. -/
inductive EarningEvent where
  | bookingCompleted (bookingId customerId : Uuid)
  | orderPaid (sourceType : OrderSourceType) (orderId customerId : Uuid)
  deriving DecidableEq

/-- The award that a handler asks for; the payment of a booking earns nothing by itself. -/
def EarningEvent.input : EarningEvent → Option AwardInput
  | .bookingCompleted bookingId customerId =>
    some ⟨customerId, .bookingCompleted, "booking", bookingId, none⟩
  | .orderPaid .booking _ _ => none
  | .orderPaid .direct orderId customerId =>
    some ⟨customerId, .orderCompleted, "order", orderId, none⟩

/-- The events of a run: a booking is completed once and an order is paid once. -/
structure EarningEvents where
  events : List EarningEvent
  own : ∀ e ∈ events, ∀ e' ∈ events, ∀ i ∈ e.input, ∀ i' ∈ e'.input,
    i.reference = i'.reference → e = e'

/-! ## Deliveries -/

/-- The tables of the two services. -/
structure HandlerDb where
  ledger : LoyaltyDb
  members : MembershipDb

namespace HandlerDb

/-- Transaction `pid` commits. -/
def commit (db : HandlerDb) (pid : ℕ) : HandlerDb where
  ledger := db.ledger.commit pid
  members := db.members.commit pid

/-- Transaction `pid` rolls back. -/
def rollback (db : HandlerDb) (pid : ℕ) : HandlerDb where
  ledger := db.ledger.rollback pid
  members := db.members.rollback pid

end HandlerDb

/-- What the statements find outside their tables. -/
structure HandlerEnv where
  ledger : LoyaltyEnv
  members : MembershipEnv

/-- Where a delivery is; a sync is about the total that its award returned. -/
inductive HandlerPlace where
  | idle
  | failed
  | awarding (e : EarningEvent) (place : LoyaltyPlace)
  | syncing (e : EarningEvent) (lifetimeEarned : ℕ) (place : MembershipPlace)
  | returned (e : EarningEvent)
  deriving DecidableEq

namespace HandlerPlace

/-- After a statement of `award`: `if (!result.awarded) return`, and else the sync. -/
def afterAward (e : EarningEvent) : LoyaltyPlace → HandlerPlace
  | .awarded i result =>
    if result.awarded then
      .syncing e result.lifetimeEarned (.sync i.userId result.lifetimeEarned)
    else .returned e
  | place => .awarding e place

/-- After a statement of `syncFromTier`. -/
def afterSync (e : EarningEvent) (lifetimeEarned : ℕ) : MembershipPlace → HandlerPlace
  | .synced _ _ => .returned e
  | place => .syncing e lifetimeEarned place

/-- The delivery is at work. -/
def running : HandlerPlace → Bool
  | .awarding .. | .syncing .. => true
  | _ => false

/-- The event that a delivery at work is about. -/
def at? : HandlerPlace → Option EarningEvent
  | .awarding e _ | .syncing e _ _ => some e
  | _ => none

end HandlerPlace

/-- The first place of a delivery. -/
def EarningEvent.first (e : EarningEvent) : HandlerPlace :=
  match e.input with
  | none => .returned e
  | some i => .awarding e (.award i)

/-- What a delivery does at its place. -/
def handlerStatement (policy : LoyaltyPolicy) (tiers : TierTable)
    (plans : List MembershipPlanEntity) (env : HandlerEnv) (db : HandlerDb) (pid : ℕ) :
    HandlerPlace → Next HandlerDb Unit HandlerPlace
  | .awarding e place =>
    (awardStatement policy tiers env.ledger db.ledger pid place).map
      (fun ledger => { db with ledger := ledger }) (HandlerPlace.afterAward e)
  | .syncing e lifetimeEarned place =>
    (membershipStatement tiers plans env.members db.members pid place).map
      (fun members => { db with members := members }) (HandlerPlace.afterSync e lifetimeEarned)
  | _ => .waits

/-- Any number of deliveries of the events, and of redeliveries. -/
def handlerService (policy : LoyaltyPolicy) (tiers : TierTable)
    (plans : List MembershipPlanEntity) (E : EarningEvents) :
    Service HandlerDb Unit HandlerPlace { e : EarningEvent // e ∈ E.events } HandlerEnv where
  commit := HandlerDb.commit
  rollback := HandlerDb.rollback
  idle := .idle
  failed := .failed
  running := HandlerPlace.running
  first e := e.1.first
  statement := handlerStatement policy tiers plans

/-- No points, and some memberships. -/
def HandlerDb.before (memberships : List (Uuid × MembershipEntity)) : HandlerDb where
  ledger := .empty
  members := ⟨.ofRows memberships, .empty, 0⟩

/-! ## Convergence -/

/-- The active plan that is linked to the tier of a number of points. -/
def linkedPlan (tiers : TierTable) (plans : List MembershipPlanEntity) (lifetimeEarned : ℕ) :
    Option MembershipPlanEntity :=
  match tiers.tierSlugForPoints lifetimeEarned with
  | none => none
  | some slug =>
    match tiers.findBySlug slug with
    | none => none
    | some tier => plans.find? fun plan => plan.tierId = some tier.id ∧ plan.isActive

/-- The user's membership is active and on the plan, or it is one of another source. -/
def SettledOn (plan : MembershipPlanEntity) (membership : Option MembershipEntity) : Prop :=
  ∃ m ∈ membership, m.StopsSync plan

instance (plan : MembershipPlanEntity) (membership : Option MembershipEntity) :
    Decidable (SettledOn plan membership) :=
  inferInstanceAs (Decidable (∃ _ ∈ _, _))

/-- The award has its entry. -/
def Entry (db : HandlerDb) (i : AwardInput) : Prop :=
  ∃ row, db.ledger.pointsEntries.committed i.reference = some row ∧ row.userId = i.userId

/-- Once every event of a user has a delivery that returned, each of them has its entry, and the
user's membership is on the plan of the tier of their points. -/
def Converged (tiers : TierTable) (plans : List MembershipPlanEntity) (E : EarningEvents)
    (s : System HandlerDb Unit HandlerPlace) : Prop :=
  ∀ userId, (∃ e ∈ E.events, ∃ i ∈ e.input, i.userId = userId) →
    (∀ e ∈ E.events, ∀ i ∈ e.input, i.userId = userId → ∃ pid, s.calls pid = .returned e) →
      (∀ e ∈ E.events, ∀ i ∈ e.input, i.userId = userId → Entry s.db i) ∧
        ∀ plan ∈ linkedPlan tiers plans (s.db.ledger.lifetimePoints userId),
          SettledOn plan (s.db.members.memberships.committed userId)

end BeauClick.Loyalty
