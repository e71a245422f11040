import BeauClick.Confirmation.Entitlement
import BeauClick.Scheduling.Calls

/-!
# Confirmations that spend a credit

The two transactions that confirm a booking (`apps/api/src/checkout/checkout.service.ts`), that of
a callback from the gateway and that of an order nothing is collected for.  Each moves the order,
asks the entitlement hook, which may spend a credit, and confirms the booking.  Beside them
bookings are made, cancelled, moved and expire, orders are cancelled, and grants are issued.
-/

namespace BeauClick.Confirmation

open Commerce Credits Enforcement ReadCommitted ReadCommitted.Versioned Transactions
open Scheduling (BookingActor BookingConfig BookingDb BookingHistoryEntity CreateBookingInput)

/-! ## The tables -/

/-- The tables of a confirmation. -/
structure ConfirmationDb where
  orders : Versioned ℕ Uuid OrderEntity
  schedules : Versioned ℕ Uuid OrderPaymentScheduleEntity
  bookings : BookingDb
  history : Versioned ℕ Uuid BookingHistoryEntity
  credits : CreditDb

namespace ConfirmationDb

/-- No rows yet. -/
def empty : ConfirmationDb := ⟨.empty, .empty, .empty, .empty, .empty⟩

/-- Transaction `pid` commits. -/
def commit (db : ConfirmationDb) (pid : ℕ) : ConfirmationDb where
  orders := db.orders.commit pid
  schedules := db.schedules.commit pid
  bookings := db.bookings.commit pid
  history := db.history.commit pid
  credits := db.credits.commit pid

/-- Transaction `pid` rolls back. -/
def rollback (db : ConfirmationDb) (pid : ℕ) : ConfirmationDb where
  orders := db.orders.rollback pid
  schedules := db.schedules.rollback pid
  bookings := db.bookings.rollback pid
  history := db.history.rollback pid
  credits := db.credits.rollback pid

/-- The order and its schedule, as a transaction reads them. -/
def orderStore (db : ConfirmationDb) (pid : ℕ) (orderId : Uuid) : OrderStore where
  order := db.orders.get pid orderId
  schedule := db.schedules.get pid orderId
  outbox := []

end ConfirmationDb

/-! ## Calls -/

/-- What a checkout has resolved about the order of a new booking. -/
structure OrderTerms where
  orderId : Uuid
  sellerPartyType : SellerPartyType
  sellerPartyId : Uuid
  totalToman : ℤ
  platformCollectibleToman : ℤ
  deriving DecidableEq

/-- The order that `createForBooking` inserts. -/
def OrderTerms.order (terms : OrderTerms) (bookingId customerId : Uuid) : OrderEntity where
  id := terms.orderId
  sourceType := .booking
  sourceId := bookingId
  customerId := customerId
  sellerPartyType := terms.sellerPartyType
  sellerPartyId := terms.sellerPartyId
  status := .pending
  totalToman := terms.totalToman
  refundedTotalToman := 0
  collectedTotalToman := 0
  paidAt := none
  cancelledAt := none

/-- Its schedule. -/
def OrderTerms.schedule (terms : OrderTerms) : OrderPaymentScheduleEntity where
  serviceTotalToman := terms.totalToman
  platformCollectibleToman := terms.platformCollectibleToman
  venueBalanceToman := terms.totalToman - terms.platformCollectibleToman

/-- Two orders for the same source. -/
def SameSource (o o' : OrderEntity) : Prop :=
  o.sourceType = o'.sourceType ∧ o.sourceId = o'.sourceId
  deriving Decidable

/-- The transaction that confirms. -/
inductive ConfirmationPath where
  | callback
  | zeroCollection
  deriving DecidableEq

/-- A confirmation: of which booking, in which transaction. -/
structure Confirming where
  path : ConfirmationPath
  orderId : Uuid
  bookingId : Uuid
  deriving DecidableEq

/-- What a call is asked for. -/
inductive ConfirmationRequest where
  /-- The transaction of `checkout`: a booking and its order. -/
  | checkout (input : CreateBookingInput) (terms : OrderTerms)
  /-- The transaction of `handleCallback`, when the gateway has verified a capture. -/
  | callback (orderId : Uuid) (verifiedAmountToman : ℤ)
  /-- `confirmWithoutOnlineCollection`. -/
  | zeroCollection (orderId bookingId : Uuid)
  | cancel (bookingId : Uuid) (actor : BookingActor) (reason : Option String)
  | reschedule (input : Scheduling.RescheduleInput)
  | expireStaleHolds (limit : ℕ)
  | createSlot (input : Scheduling.CreateSlotInput)
  | cancelOrder (orderId : Uuid) (reason : String)
  | issueGrant (subscription : SellerSubscriptionEntity)

/-- Where a call stands. -/
inductive ConfirmationPlace where
  | idle
  /-- A call of the booking services, beside the confirmations. -/
  | booking (place : Scheduling.Place)
  | commitBooking (place : Scheduling.Place)
  /-- History rows are inserted. -/
  | recordHistory (rows : List BookingHistoryEntity) (next : ConfirmationPlace)
  | checkout (terms : OrderTerms) (place : Scheduling.Place)
  /-- `create` has thrown in the transaction of `checkout`, and looks its key up. -/
  | refused (terms : OrderTerms) (input : CreateBookingInput)
  /-- The first read of `createForBooking`. -/
  | findSource (terms : OrderTerms) (bookingId : Uuid)
  | insertOrder (terms : OrderTerms) (bookingId customerId : Uuid)
  | insertSchedule (terms : OrderTerms)
  | issuing (place : CreditPlace)
  | cancelOrder (orderId : Uuid) (reason : String)
  | cancelling (place : Scheduling.Place)
  /-- The credit of a cancelled booking is given back. -/
  | returning (place : CreditPlace)
  | capture (orderId : Uuid) (verifiedAmountToman : ℤ)
  | findOrder (orderId : Uuid)
  | moveOrder (c : Confirming)
  /-- The hook has been asked. -/
  | findBookingOrder (c : Confirming)
  | readControl (c : Confirming) (party : PartyRef)
  | lockGovernance (c : Confirming) (party : PartyRef)
  | findGovernance (c : Confirming) (party : PartyRef)
  | crediting (c : Confirming) (governed : Bool) (place : CreditPlace)
  /-- The hook permits, and may have spent a credit. -/
  | confirming (c : Confirming) (spent : Option Uuid) (place : Scheduling.Place)
  | commitConfirmed (c : Confirming) (spent : Option Uuid)
  /-- A callback whose booking is not confirmed commits the capture. -/
  | commitUnavailable (c : Confirming) (spent : Option Uuid)
  /-- The transaction has no more statements. -/
  | commits
  | returned
  | threw
  deriving DecidableEq

/-- A call there still runs. -/
def ConfirmationPlace.running : ConfirmationPlace → Bool
  | idle => false
  | booking (.returned _) => false
  | booking (.threw _) => false
  | returned => false
  | threw => false
  | _ => true

/-- What a statement is given from outside; the control row and the governance row are those
that it reads. -/
structure ConfirmationEnv where
  booking : Scheduling.Env
  control : Option BookingCreditEnforcementControlEntity
  governance : Option BookingCreditPartyGovernanceEntity

/-- What a statement of the ledger is given. -/
def ConfirmationEnv.credit (env : ConfirmationEnv) : CreditEnv :=
  ⟨env.booking.now, env.booking.newId⟩

/-! ## Statements -/

abbrev ConfirmationNext := Next ConfirmationDb ℤ ConfirmationPlace

/-- A statement of the booking services. -/
def ofBooking (db : ConfirmationDb) (next : Scheduling.Next)
    (goes : Scheduling.Place → ConfirmationPlace)
    (commits : Scheduling.Record → Scheduling.Place → ConfirmationNext)
    (failed : Scheduling.Failure → ConfirmationPlace) : ConfirmationNext :=
  match next with
  | .waits => .waits
  | .goes bookings place => .goes { db with bookings := bookings } (goes place)
  | .commits record place => commits record place
  | .throws failure => .throws (failed failure)

/-- A statement of the ledger. -/
def ofCredits (db : ConfirmationDb) (next : CreditNext) (goes : CreditPlace → ConfirmationPlace)
    (commits : CreditPlace → ConfirmationNext) : ConfirmationNext :=
  match next with
  | .waits => .waits
  | .goes credits place => .goes { db with credits := credits } (goes place)
  | .locks key mode place => .locks key mode (goes place)
  | .commits place => commits place
  | .throws _ => .throws .threw

section Statements

variable (config : BookingConfig) (hashtext : PartyRef → ℤ) (env : ConfirmationEnv)
  (db : ConfirmationDb) (pid : ℕ)

/-- A history row is inserted. -/
def recordHistory (rows : List BookingHistoryEntity) (next : ConfirmationPlace) :
    ConfirmationNext :=
  match rows with
  | [] => .goes db next
  | row :: rest =>
    match db.history.insert pid env.booking.newId row (fun _ => False) with
    | .waits => .waits
    | .unmatched => .throws .threw
    | .violated => .throws .threw
    | .done _ history => .goes { db with history := history } (.recordHistory rest next)

/-- The booking of `checkout` has been made, and its order is next. -/
def afterCreate (terms : OrderTerms) (record : Scheduling.Record) : ConfirmationNext :=
  match record with
  | .created _ claim => .goes db (.recordHistory record.history (.findSource terms claim.bookingId))
  | _ => .throws .threw

/-- `create` in the transaction of `checkout`: what it throws itself leaves what it has written. -/
def createForCheckout (terms : OrderTerms) (place : Scheduling.Place) : ConfirmationNext :=
  match place, Scheduling.statement config env.booking db.bookings pid place, place.creating with
  | .returned (.booking bookingId), _, _ => .goes db (.findSource terms bookingId)
  | _, .throws failure, some input =>
    if failure.thrown then
      .goes { db with bookings := (Scheduling.leftBy config env.booking db.bookings pid place).1 }
        (.refused terms input)
    else .throws .threw
  | _, next, _ => ofBooking db next (.checkout terms) (fun record _ => afterCreate db terms record)
      fun _ => .threw

/-- The lookup of the key, on another connection. -/
def refused (terms : OrderTerms) (input : CreateBookingInput) : ConfirmationNext :=
  match Scheduling.findByIdempotencyKey (db.bookings.rollback pid) pid input with
  | some bookingId => .goes db (.findSource terms bookingId)
  | none => .throws .threw

/-- The reads of `createForBooking`: a booking that has an order keeps it. -/
def findSource (terms : OrderTerms) (bookingId : Uuid) : ConfirmationNext :=
  match db.orders.select pid fun o => o.sourceType = .booking ∧ o.sourceId = bookingId with
  | _ :: _ => .commits .returned
  | [] =>
    match db.bookings.bookings.get pid bookingId with
    | none => .throws .threw
    | some b => .goes db (.insertOrder terms bookingId b.customerId)

/-- The insert of `createForBooking`. -/
def insertOrder (terms : OrderTerms) (bookingId customerId : Uuid) : ConfirmationNext :=
  match db.orders.insert pid terms.orderId (terms.order bookingId customerId)
      (SameSource (terms.order bookingId customerId)) with
  | .waits => .waits
  | .unmatched => .throws .threw
  | .violated => .throws .threw
  | .done _ orders => .goes { db with orders := orders } (.insertSchedule terms)

/-- The insert of its schedule. -/
def insertSchedule (terms : OrderTerms) : ConfirmationNext :=
  match db.schedules.insert pid terms.orderId terms.schedule (fun _ => False) with
  | .waits => .waits
  | .unmatched => .throws .threw
  | .violated => .throws .threw
  | .done _ schedules => .goes { db with schedules := schedules } .commits

/-- An `UPDATE` of an order, whose `WHERE` clause has matched. -/
def writeOrder (orderId : Uuid) (order : Option OrderEntity) (next : ConfirmationPlace) :
    ConfirmationNext :=
  match order with
  | none => .throws .threw
  | some o =>
    match db.orders.update pid orderId (fun _ => True) (fun _ => o) with
    | .waits => .waits
    | .unmatched => .throws .threw
    | .violated => .throws .threw
    | .done _ orders => .goes { db with orders := orders } next

/-- `OrderService.cancel`. -/
def cancelOrder (orderId : Uuid) (reason : String) : ConfirmationNext :=
  match (db.orderStore pid orderId).cancel reason env.booking.now with
  | (true, store) => writeOrder db pid orderId store.order .commits
  | (false, _) => .commits .returned

/-- A booking is cancelled: the hook gives its credit back, when it is one that is given back. -/
def afterCancel (record : Scheduling.Record) : ConfirmationNext :=
  match record with
  | .transitioned m =>
    .goes db (.recordHistory record.history
      (match m.transition with
      | .cancel bookingId actor _ before =>
        match returnCause actor.type (before.status = .confirmed) with
        | some cause => .returning (.findConsumption bookingId cause)
        | none => .commits
      | _ => .commits))
  | _ => .commits .returned

/-- `recordVerifiedCapture`, and what `handleCallback` does with its outcome. -/
def capture (orderId : Uuid) (verifiedAmountToman : ℤ) : ConfirmationNext :=
  match (db.orderStore pid orderId).recordVerifiedCapture (.ofInt verifiedAmountToman)
      env.booking.now with
  | .error _ => .throws .threw
  | .ok (.refused _, _) => .throws .threw
  | .ok (.already _ _, _) => .commits .returned
  | .ok (.captured _ _, store) => writeOrder db pid orderId store.order (.findOrder orderId)

/-- The order of a callback: one that is for a booking goes on to the hook. -/
def findOrder (orderId : Uuid) : ConfirmationNext :=
  match db.orders.get pid orderId with
  | none => .commits .returned
  | some o =>
    if o.sourceType = .booking then
      .goes db (.findBookingOrder ⟨.callback, orderId, o.sourceId⟩)
    else .commits .returned

/-- `confirmNoOnlineCollection`, and what `confirmWithoutOnlineCollection` does with its outcome. -/
def moveOrder (c : Confirming) : ConfirmationNext :=
  match (db.orderStore pid c.orderId).confirmNoOnlineCollection with
  | .error _ => .throws .threw
  | .ok (.ineligible _, _) => .throws .threw
  | .ok (.already, _) => .commits .returned
  | .ok (.transitioned, store) => writeOrder db pid c.orderId store.order (.findBookingOrder c)

/-- The booking is not confirmed: a callback keeps what was captured, a confirmation that
collects nothing is rolled back. -/
def notConfirmed (c : Confirming) (spent : Option Uuid) : ConfirmationNext :=
  match c.path with
  | .callback => .goes db (.commitUnavailable c spent)
  | .zeroCollection => .throws .threw

/-- The first read of the hook: the order of the booking. -/
def findBookingOrder (c : Confirming) : ConfirmationNext :=
  match (db.orders.select pid fun o =>
      o.sourceType = .booking ∧ o.sourceId = c.bookingId).head? with
  | none => notConfirmed db c none
  | some orderId =>
    match db.orders.get pid orderId with
    | none => notConfirmed db c none
    | some o => .goes db (.readControl c ⟨o.sellerPartyType, o.sellerPartyId⟩)

/-- The control row decides how the confirmation goes on. -/
def readControl (c : Confirming) (party : PartyRef) : ConfirmationNext :=
  match env.control with
  | none => .throws .threw
  | some control =>
    match decideBeforeLedger control with
    | .refuse => notConfirmed db c none
    | .legacy => .goes db (.crediting c false (.takeLock c.bookingId party))
    | .active => .goes db (.lockGovernance c party)
    | .malformed => .throws .threw

/-- The governance row, under the lock of the party. -/
def findGovernance (c : Confirming) (party : PartyRef) : ConfirmationNext :=
  match decideGovernance env.governance with
  | .refuse => notConfirmed db c none
  | .legacy => .goes db (.crediting c false (.takeLock c.bookingId party))
  | .governed => .goes db (.crediting c true (.takeLock c.bookingId party))

/-- The credit that an answer of the ledger has spent. -/
def spentBy : CreditOutcome → Option Uuid
  | .consumed consumptionId _ => some consumptionId
  | _ => none

/-- The answer of the ledger: the hook permits, and the booking is confirmed next. -/
def afterLedger (c : Confirming) (governed : Bool) (place : CreditPlace) : ConfirmationNext :=
  match place with
  | .returned outcome =>
    match entitlementOf governed outcome with
    | .permitted => .goes db (.confirming c (spentBy outcome)
        (.findCurrent (.confirm c.bookingId Scheduling.systemActor)))
    | _ => notConfirmed db c (spentBy outcome)
  | _ => .throws .threw

/-- `confirm` has moved the booking, or has not. -/
def afterConfirm (c : Confirming) (spent : Option Uuid) (record : Scheduling.Record) :
    ConfirmationNext :=
  match record with
  | .transitioned _ => .goes db (.recordHistory record.history (.commitConfirmed c spent))
  | _ => notConfirmed db c spent

/-- The statement of a call at its place. -/
def confirmationStatement : ConfirmationPlace → ConfirmationNext
  | .idle => .waits
  | .booking place =>
    ofBooking db (Scheduling.statement config env.booking db.bookings pid place) .booking
      (fun record place => .goes db (.recordHistory record.history (.commitBooking place)))
      (fun failure => .booking (place.failed failure))
  | .commitBooking place => .commits (.booking place)
  | .recordHistory rows next => recordHistory env db pid rows next
  | .checkout terms place => createForCheckout config env db pid terms place
  | .refused terms input => refused db pid terms input
  | .findSource terms bookingId => findSource db pid terms bookingId
  | .insertOrder terms bookingId customerId => insertOrder db pid terms bookingId customerId
  | .insertSchedule terms => insertSchedule db pid terms
  | .issuing place =>
    ofCredits db (creditStatement hashtext env.credit db.credits pid place) .issuing
      (fun _ => .commits .returned)
  | .cancelOrder orderId reason => cancelOrder env db pid orderId reason
  | .cancelling place =>
    ofBooking db (Scheduling.statement config env.booking db.bookings pid place) .cancelling
      (fun record _ => afterCancel db record) (fun _ => .threw)
  | .returning place =>
    ofCredits db (creditStatement hashtext env.credit db.credits pid place) .returning
      (fun _ => .goes db .commits)
  | .capture orderId verifiedAmountToman => capture env db pid orderId verifiedAmountToman
  | .findOrder orderId => findOrder db pid orderId
  | .moveOrder c => moveOrder db pid c
  | .findBookingOrder c => findBookingOrder db pid c
  | .readControl c party => readControl env db c party
  | .lockGovernance c party => .locks (hashtext party) .exclusive (.findGovernance c party)
  | .findGovernance c party => findGovernance env db c party
  | .crediting c governed place =>
    ofCredits db (creditStatement hashtext env.credit db.credits pid place) (.crediting c governed)
      (afterLedger db c governed)
  | .confirming c spent place =>
    ofBooking db (Scheduling.statement config env.booking db.bookings pid place)
      (.confirming c spent) (fun record _ => afterConfirm db c spent record) (fun _ => .threw)
  | .commitConfirmed _ _ => .commits .returned
  | .commitUnavailable _ _ => .commits .returned
  | .commits => .commits .returned
  | .returned => .waits
  | .threw => .waits

end Statements

/-! ## The service -/

/-- Where a call starts. -/
def ConfirmationRequest.place : ConfirmationRequest → ConfirmationPlace
  | .checkout input terms => .checkout terms (Scheduling.Request.create input).place
  | .callback orderId verifiedAmountToman => .capture orderId verifiedAmountToman
  | .zeroCollection orderId bookingId => .moveOrder ⟨.zeroCollection, orderId, bookingId⟩
  | .cancel bookingId actor reason => .cancelling (.findBefore bookingId actor reason)
  | .reschedule input => .booking (.findBooking input)
  | .expireStaleHolds limit => .booking (.findStale limit)
  | .createSlot input => .booking (.findOverlap input)
  | .cancelOrder orderId reason => .cancelOrder orderId reason
  | .issueGrant subscription => .issuing (.findGrant subscription)

/-- The calls that confirm and cancel bookings. -/
def confirmations (config : BookingConfig) (hashtext : PartyRef → ℤ) :
    Service ConfirmationDb ℤ ConfirmationPlace ConfirmationRequest ConfirmationEnv where
  commit := ConfirmationDb.commit
  rollback := ConfirmationDb.rollback
  idle := .idle
  failed := .threw
  running := ConfirmationPlace.running
  first := ConfirmationRequest.place
  statement := confirmationStatement config hashtext

end BeauClick.Confirmation
