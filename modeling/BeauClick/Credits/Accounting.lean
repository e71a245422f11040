import BeauClick.Commerce.Order
import BeauClick.Lib.ReadCommitted
import BeauClick.Lib.Transactions
import Mathlib.Data.List.Sort

/-!
# The booking-credit ledger

`subscription/booking-credit-accounting.service.ts` and `booking-credit-grant.service.ts`: any
number of calls at work at the same time, one statement after the other, each in a transaction
of its own.  A consumption is decided under an advisory lock on the charged party, which is
held until the commit; a return is not.
-/

namespace BeauClick.Credits

open Commerce ReadCommitted ReadCommitted.Versioned Transactions

/-! ## Rows -/

/-- A party that has credits. -/
structure PartyRef where
  partyType : SellerPartyType
  partyId : Uuid
  deriving DecidableEq

/-- `commercial.seller_subscriptions`, what an activation grants from. -/
structure SellerSubscriptionEntity where
  id : Uuid
  subscriber : PartyRef
  snapshotIncludedBookingCredits : ℕ
  deriving DecidableEq

/-- `commercial.booking_credit_grants`; the source is always `plan_included`. -/
structure BookingCreditGrantEntity where
  subscriptionId : Uuid
  subscriber : PartyRef
  quantity : ℕ
  periodIndex : ℕ
  grantedAt : Instant
  deriving DecidableEq

/-- `commercial.booking_credit_consumptions`. -/
structure BookingCreditConsumptionEntity where
  bookingId : Uuid
  grantId : Uuid
  subscriptionId : Uuid
  periodIndex : ℕ
  subscriber : PartyRef

/-- `BOOKING_CREDIT_RETURN_CAUSES`. -/
inductive BookingCreditReturnCause where
  | sellerCancelled
  | platformCancelled
  deriving DecidableEq

/-- `commercial.booking_credit_returns`. -/
structure BookingCreditReturnEntity where
  consumptionId : Uuid
  returnCause : BookingCreditReturnCause

def initialGrantPeriodIndex : ℕ := 0

/-- `uq_booking_credit_grants_once`. -/
def SameTerm (g h : BookingCreditGrantEntity) : Prop :=
  g.subscriptionId = h.subscriptionId ∧ g.periodIndex = h.periodIndex
  deriving Decidable

/-- `uq_bcc_booking_once`. -/
def SameBooking (c d : BookingCreditConsumptionEntity) : Prop := c.bookingId = d.bookingId
  deriving Decidable

/-- `uq_bcr_consumption_once`. -/
def SameConsumption (r r' : BookingCreditReturnEntity) : Prop :=
  r.consumptionId = r'.consumptionId
  deriving Decidable

/-! ## The tables -/

/-- The tables of the ledger. -/
structure CreditDb where
  grants : Versioned ℕ Uuid BookingCreditGrantEntity
  consumptions : Versioned ℕ Uuid BookingCreditConsumptionEntity
  returns : Versioned ℕ Uuid BookingCreditReturnEntity

namespace CreditDb

/-- No rows yet. -/
def empty : CreditDb := ⟨.empty, .empty, .empty⟩

/-- Transaction `pid` commits. -/
def commit (db : CreditDb) (pid : ℕ) : CreditDb where
  grants := db.grants.commit pid
  consumptions := db.consumptions.commit pid
  returns := db.returns.commit pid

/-- Transaction `pid` rolls back. -/
def rollback (db : CreditDb) (pid : ℕ) : CreditDb where
  grants := db.grants.rollback pid
  consumptions := db.consumptions.rollback pid
  returns := db.returns.rollback pid

end CreditDb

abbrev Grant := Uuid × BookingCreditGrantEntity

section Reads

variable (db : CreditDb) (pid : ℕ)

/-- The consumption of a booking. -/
def consumptionOf (bookingId : Uuid) : Option Uuid :=
  (db.consumptions.select pid fun c => c.bookingId = bookingId).head?

/-- The consumption has been returned. -/
def isReturned (consumptionId : Uuid) : Bool :=
  db.returns.select pid (fun r => r.consumptionId = consumptionId) ≠ []

/-- The grants of a party, by `granted_at` and id. -/
def grantsOf (party : PartyRef) : List Grant :=
  ((db.grants.select pid fun g => g.subscriber = party).filterMap fun id =>
      (db.grants.get pid id).map fun g => (id, g)).insertionSort
    fun a b => a.2.grantedAt < b.2.grantedAt ∨ a.2.grantedAt = b.2.grantedAt ∧ a.1 ≤ b.1

/-- The credits a party has spent and not got back. -/
def activeConsumptionCount (party : PartyRef) : ℕ :=
  ((db.consumptions.select pid fun c => c.subscriber = party).filter
    fun id => ¬isReturned db pid id).length

/-- The same, out of one grant. -/
def activeConsumptionCountByGrant (party : PartyRef) (grantId : Uuid) : ℕ :=
  ((db.consumptions.select pid fun c => c.subscriber = party ∧ c.grantId = grantId).filter
    fun id => ¬isReturned db pid id).length

end Reads

/-- The grants that confer something. -/
def positiveGrants (grants : List Grant) : List Grant := grants.filter fun g => 0 < g.2.quantity

/-- What the grants confer together. -/
def granted (grants : List Grant) : ℕ := (grants.map fun g => g.2.quantity).sum

/-- The oldest grant with room. -/
def chooseGrant (grants : List Grant) (perGrant : Uuid → ℕ) : Option Grant :=
  grants.find? fun g => perGrant g.1 < g.2.quantity

/-! ## Calls -/

/-- What a call has come to. -/
inductive CreditOutcome where
  | granted (grantId : Uuid)
  | consumed (consumptionId grantId : Uuid)
  | alreadyConsumed (consumptionId : Uuid)
  | notConfigured
  | insufficientCredit
  | returned (returnId : Uuid)
  | alreadyReturned
  | nothingConsumed
  deriving DecidableEq

/-- A call of one of the services. -/
inductive CreditRequest where
  /-- `issueForActivation`. -/
  | issue (subscription : SellerSubscriptionEntity)
  | consume (bookingId : Uuid) (party : PartyRef)
  | giveBack (bookingId : Uuid) (cause : BookingCreditReturnCause)

/-- Where a call stands. -/
inductive CreditPlace where
  | idle
  | findGrant (subscription : SellerSubscriptionEntity)
  | insertGrant (subscription : SellerSubscriptionEntity)
  | commitGrant (grantId : Uuid)
  | takeLock (bookingId : Uuid) (party : PartyRef)
  | findExisting (bookingId : Uuid) (party : PartyRef)
  | findGrants (bookingId : Uuid) (party : PartyRef)
  /-- The party's positive grants have been read. -/
  | countSpent (bookingId : Uuid) (party : PartyRef) (grants : List Grant)
  /-- Less is spent than was granted. -/
  | searchGrant (bookingId : Uuid) (party : PartyRef) (grants : List Grant)
  | insertConsumption (bookingId : Uuid) (party : PartyRef) (chosen : Grant)
  | commitConsumption (party : PartyRef) (consumptionId grantId : Uuid)
  /-- Nothing is written, and the transaction of the caller goes on under the lock. -/
  | commitLocked (party : PartyRef) (outcome : CreditOutcome)
  | findConsumption (bookingId : Uuid) (cause : BookingCreditReturnCause)
  | findReturn (consumptionId : Uuid) (cause : BookingCreditReturnCause)
  | insertReturn (consumptionId : Uuid) (cause : BookingCreditReturnCause)
  | commitReturn (returnId : Uuid)
  | returned (outcome : CreditOutcome)
  | failed
  deriving DecidableEq

/-- A call there still runs. -/
def CreditPlace.running : CreditPlace → Bool
  | idle => false
  | returned _ => false
  | failed => false
  | _ => true

/-- The party whose lock a call has taken. -/
def CreditPlace.lockedParty : CreditPlace → Option PartyRef
  | findExisting _ party | findGrants _ party | countSpent _ party _ | searchGrant _ party _
  | insertConsumption _ party _ | commitConsumption party _ _ | commitLocked party _ => some party
  | _ => none

/-- What a statement is given from outside. -/
structure CreditEnv where
  now : Instant
  newId : Uuid

/-- The grant that an activation issues. -/
def grantFor (subscription : SellerSubscriptionEntity) (now : Instant) :
    BookingCreditGrantEntity where
  subscriptionId := subscription.id
  subscriber := subscription.subscriber
  quantity := subscription.snapshotIncludedBookingCredits
  periodIndex := initialGrantPeriodIndex
  grantedAt := now

/-- The consumption of a booking, against a grant. -/
def consumptionFor (bookingId : Uuid) (chosen : Grant) : BookingCreditConsumptionEntity where
  bookingId := bookingId
  grantId := chosen.1
  subscriptionId := chosen.2.subscriptionId
  periodIndex := chosen.2.periodIndex
  subscriber := chosen.2.subscriber

/-! ## Statements -/

/-- What a statement comes to; a lock is taken on the hash of a party. -/
abbrev CreditNext := Next CreditDb ℤ CreditPlace

section Statements

variable (hashtext : PartyRef → ℤ) (env : CreditEnv) (db : CreditDb) (pid : ℕ)

/-- The read of `issueForActivation`. -/
def findGrant (subscription : SellerSubscriptionEntity) : CreditNext :=
  match (db.grants.select pid fun g => g.subscriptionId = subscription.id ∧
      g.periodIndex = initialGrantPeriodIndex).head? with
  | some grantId => .commits (.returned (.granted grantId))
  | none => .goes db (.insertGrant subscription)

/-- The insert of `issueForActivation`. -/
def insertGrant (subscription : SellerSubscriptionEntity) : CreditNext :=
  match db.grants.insert pid env.newId (grantFor subscription env.now)
      (SameTerm (grantFor subscription env.now)) with
  | .waits => .waits
  | .unmatched => .throws .failed
  | .violated => .throws .failed
  | .done _ grants => .goes { db with grants := grants } (.commitGrant env.newId)

/-- The booking was charged before. -/
def findExisting (bookingId : Uuid) (party : PartyRef) : CreditNext :=
  match consumptionOf db pid bookingId with
  | some consumptionId => .goes db (.commitLocked party (.alreadyConsumed consumptionId))
  | none => .goes db (.findGrants bookingId party)

/-- The party's grants: whether it was ever configured. -/
def findGrants (bookingId : Uuid) (party : PartyRef) : CreditNext :=
  match positiveGrants (grantsOf db pid party) with
  | [] => .goes db (.commitLocked party .notConfigured)
  | grants => .goes db (.countSpent bookingId party grants)

/-- What the party has spent: whether anything is left. -/
def countSpent (bookingId : Uuid) (party : PartyRef) (grants : List Grant) : CreditNext :=
  if granted grants ≤ activeConsumptionCount db pid party then
    .goes db (.commitLocked party .insufficientCredit)
  else .goes db (.searchGrant bookingId party grants)

/-- The search for a grant with room. -/
def searchGrant (bookingId : Uuid) (party : PartyRef) (grants : List Grant) : CreditNext :=
  match chooseGrant grants (activeConsumptionCountByGrant db pid party) with
  | none => .goes db (.commitLocked party .insufficientCredit)
  | some chosen => .goes db (.insertConsumption bookingId party chosen)

/-- The insert of the consumption, under `uq_bcc_booking_once`. -/
def insertConsumption (bookingId : Uuid) (party : PartyRef) (chosen : Grant) : CreditNext :=
  match db.consumptions.insert pid env.newId (consumptionFor bookingId chosen)
      (SameBooking (consumptionFor bookingId chosen)) with
  | .waits => .waits
  | .unmatched => .throws .failed
  | .violated => .throws .failed
  | .done _ consumptions => .goes { db with consumptions := consumptions }
      (.commitConsumption party env.newId chosen.1)

/-- The first read of `returnForCancellation`. -/
def findConsumption (bookingId : Uuid) (cause : BookingCreditReturnCause) : CreditNext :=
  match consumptionOf db pid bookingId with
  | none => .commits (.returned .nothingConsumed)
  | some consumptionId => .goes db (.findReturn consumptionId cause)

/-- The second one. -/
def findReturn (consumptionId : Uuid) (cause : BookingCreditReturnCause) : CreditNext :=
  if isReturned db pid consumptionId then .commits (.returned .alreadyReturned)
  else .goes db (.insertReturn consumptionId cause)

/-- The insert of the return: `ON CONFLICT (consumption_id) DO NOTHING`. -/
def insertReturn (consumptionId : Uuid) (cause : BookingCreditReturnCause) : CreditNext :=
  match db.returns.insert pid env.newId ⟨consumptionId, cause⟩
      (SameConsumption ⟨consumptionId, cause⟩) with
  | .waits => .waits
  | .unmatched => .throws .failed
  | .violated => .commits (.returned .alreadyReturned)
  | .done _ returns => .goes { db with returns := returns } (.commitReturn env.newId)

/-- The next statement of a call at a place; `hashtext` is the database's hash of a party's
key. -/
def creditStatement : CreditPlace → CreditNext
  | .idle => .waits
  | .findGrant subscription => findGrant db pid subscription
  | .insertGrant subscription => insertGrant env db pid subscription
  | .commitGrant grantId => .commits (.returned (.granted grantId))
  | .takeLock bookingId party =>
    .locks (hashtext party) .exclusive (.findExisting bookingId party)
  | .findExisting bookingId party => findExisting db pid bookingId party
  | .findGrants bookingId party => findGrants db pid bookingId party
  | .countSpent bookingId party grants => countSpent db pid bookingId party grants
  | .searchGrant bookingId party grants => searchGrant db pid bookingId party grants
  | .insertConsumption bookingId party chosen => insertConsumption env db pid bookingId party chosen
  | .commitConsumption _ consumptionId grantId =>
    .commits (.returned (.consumed consumptionId grantId))
  | .commitLocked _ outcome => .commits (.returned outcome)
  | .findConsumption bookingId cause => findConsumption db pid bookingId cause
  | .findReturn consumptionId cause => findReturn db pid consumptionId cause
  | .insertReturn consumptionId cause => insertReturn env db pid consumptionId cause
  | .commitReturn returnId => .commits (.returned (.returned returnId))
  | .returned _ => .waits
  | .failed => .waits

end Statements

/-! ## The service -/

/-- Where a call starts. -/
def CreditRequest.place : CreditRequest → CreditPlace
  | issue subscription => .findGrant subscription
  | consume bookingId party => .takeLock bookingId party
  | giveBack bookingId cause => .findConsumption bookingId cause

/-- Calls at work on the ledger. -/
def bookingCredits (hashtext : PartyRef → ℤ) :
    Service CreditDb ℤ CreditPlace CreditRequest CreditEnv where
  commit := CreditDb.commit
  rollback := CreditDb.rollback
  idle := .idle
  failed := .failed
  running := CreditPlace.running
  first := CreditRequest.place
  statement := creditStatement hashtext

end BeauClick.Credits
