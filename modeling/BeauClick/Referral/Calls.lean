import BeauClick.Lib.Transactions
import BeauClick.Referral.Schema

/-!
# The handlers that reward a referral and take the reward back

`services/referral/src/referral-qualification.service.ts`, `referral-reversal.service.ts`,
`apps/api/src/events/referral-qualification.handlers.ts`, `referral-reversal.handlers.ts` and
`apps/api/src/composition/referral-order.adapter.ts`, statement by statement, on one database with
the transactions that attribute referrals, place, move and refund orders and complete bookings.

A statement that a database error ends is a call that dies there.
-/

namespace BeauClick.Referral

open Commerce Locks ReadCommitted Transactions

/-! ## Calls -/

/-- An event of the outbox: a completed booking, or an event of an order at its place. -/
inductive Delivery where
  | bookingCompleted (bookingId : Uuid)
  | orderRefunded (orderId : Uuid) (index : ℕ)
  deriving DecidableEq

/-- What a call is asked for. -/
inductive ReferralRequest where
  | attribute (referral : ReferralAttributionEntity)
  | placeOrder (order : NewOrder)
  | completeBooking (bookingId : Uuid)
  | order (orderId : Uuid) (op : OrderOperation)
  | deliver (event : Delivery)

/-- What a statement finds outside the tables: the clock, the configured rewards, and the
multipliers of the recipient's benefits. -/
structure ReferralEnv where
  now : Instant
  referrerPoints : ℕ
  refereePoints : ℕ
  multipliers : List ℕ

/-- The referral that the compare-and-swap of a qualification has won. -/
structure Won where
  referralId : Uuid
  referrerUserId : Uuid
  refereeUserId : Uuid
  bookingId : Uuid
  now : Instant
  deriving DecidableEq

/-- `awarded` or `disabled_zero`, by the configured value. -/
def payable (points : ℕ) : RewardOutcome := if 0 < points then .awarded else .disabledZero

/-- The decision on both sides, before either is written. -/
def Won.decide (w : Won) (withinCap : Bool) (referrerPoints refereePoints : ℕ) :
    Qualification where
  referralId := w.referralId
  referrerUserId := w.referrerUserId
  refereeUserId := w.refereeUserId
  qualifyingBookingId := w.bookingId
  qualifiedAt := w.now
  referrerOutcome := if withinCap then payable referrerPoints else .capped
  referrerPoints := referrerPoints
  refereeOutcome := payable refereePoints
  refereePoints := refereePoints

/-- The transaction that a reversal is part of. -/
inductive Handling where
  | completed (q : Qualification)
  | refunded (orderId : Uuid) (index : ℕ)
  deriving DecidableEq

/-- The event that is handled. -/
def Handling.delivery : Handling → Delivery
  | .completed q => .bookingCompleted q.qualifyingBookingId
  | .refunded orderId index => .orderRefunded orderId index

/-- The referral that the compare-and-swap of a reversal has won. -/
structure Reversing where
  referralId : Uuid
  referrerUserId : Uuid
  refereeUserId : Uuid
  orderId : Uuid
  now : Instant
  deriving DecidableEq

/-- `recipients[side]`. -/
def Reversing.recipient (v : Reversing) : RewardSide → Uuid
  | .referrer => v.referrerUserId
  | .referee => v.refereeUserId

/-- The side whose turn it is, after the decision on the referrer's. -/
inductive Turn where
  | first
  | second (referrer : SideReversal)
  deriving DecidableEq

/-- `SIDES`. -/
def Turn.side : Turn → RewardSide
  | .first => .referrer
  | .second _ => .referee

/-- The row that `recordReversal` inserts. -/
def Reversing.record (v : Reversing) (side : RewardSide) (d : SideReversal) :
    RewardReversalEntity where
  recipientUserId := d.recipientUserId
  outcome := d.outcome
  points := d.points
  ledgerReason := reversalReasonBySide side
  reversedAt := v.now

/-- Where a call stands. -/
inductive ReferralPlace where
  | idle
  | failed
  | ended
  | done (event : Delivery)
  | attribute (referral : ReferralAttributionEntity)
  | placeOrder (order : NewOrder)
  | completeBooking (bookingId : Uuid)
  | order (orderId : Uuid) (op : OrderOperation)
  | orderLocked (orderId : Uuid) (op : OrderOperation)
  | orderWritten (orderId : Uuid)
  | deliver (event : Delivery)
  | qualify (bookingId : Uuid)
  | charge (won : Won)
  | grant (q : Qualification) (side : RewardSide)
  | award (q : Qualification) (side : RewardSide)
  | emitQualified (q : Qualification)
  | findBookingOrder (q : Qualification)
  | readBookingOrder (q : Qualification) (orderId : Uuid)
  | findOrder (orderId : Uuid) (index : ℕ)
  | readOrder (orderId : Uuid) (index : ℕ)
  | reverse (handling : Handling) (bookingId orderId : Uuid)
  | sideGrant (handling : Handling) (v : Reversing) (turn : Turn)
  | sideOriginal (handling : Handling) (v : Reversing) (turn : Turn) (expectedBasePoints : ℕ)
  | sideClawback (handling : Handling) (v : Reversing) (turn : Turn)
      (original : PointsEntryEntity)
  | sideRecord (handling : Handling) (v : Reversing) (turn : Turn) (d : SideReversal)
  | emitReversed (handling : Handling) (v : Reversing) (referrer referee : SideReversal)
  /-- Commits, and has written nothing. -/
  | nothing (event : Delivery)
  /-- Commits the qualification; the order is the one that was read, and not refunded. -/
  | rewarded (q : Qualification) (orderId : Option Uuid)
  /-- Commits the reversal. -/
  | reversed (handling : Handling) (v : Reversing)
  deriving DecidableEq

/-! ## The statements -/

/-- What the conditional statement on the counter comes to. -/
inductive Charge where
  | waits
  | charged (withinCap : Bool) (table : Versioned ℕ (Uuid × Period) ℕ)

/-- `chargeReferrerCap`.  The conflicting row is locked also where `WHERE` refuses it. -/
def chargeReferrerCap (t : Versioned ℕ (Uuid × Period) ℕ) (pid : ℕ) (key : Uuid × Period) :
    Charge :=
  if (t.row key).Locked pid then .waits
  else
    match t.get pid key with
    | none => .charged true (t.write pid key 1)
    | some n =>
      if n < referralMonthlyCap then .charged true (t.write pid key (n + 1))
      else .charged false (t.write pid key n)

/-- What an insert comes to that does nothing on a conflict. -/
inductive Once (κ α : Type) where
  | waits
  | lost
  | won (table : Versioned ℕ κ α)

/-- An insertion that does nothing on a conflict. -/
def insertOnce {κ α : Type} [DecidableEq κ] (t : Versioned ℕ κ α) (pid : ℕ) (k : κ) (x : α) :
    Once κ α :=
  match t.insert pid k x fun _ => False with
  | .waits => .waits
  | .done _ t' => .won t'
  | _ => .lost

/-- The relay has read the event from its outbox. -/
def Delivery.Emitted (db : ReferralDb) : Delivery → Prop
  | .bookingCompleted bookingId => bookingId ∈ db.completed
  | .orderRefunded orderId index =>
    ∃ s ∈ db.orders.committed orderId, ∃ e ∈ s.outbox[index]?, isOrderRefunded e = true

instance (db : ReferralDb) : DecidablePred (Delivery.Emitted db)
  | .bookingCompleted bookingId => inferInstanceAs (Decidable (bookingId ∈ db.completed))
  | .orderRefunded orderId index =>
    inferInstanceAs (Decidable (∃ s ∈ db.orders.committed orderId, ∃ e ∈ s.outbox[index]?, _))

/-- The first statement of an event's handler. -/
def Delivery.first : Delivery → ReferralPlace
  | .bookingCompleted bookingId => .qualify bookingId
  | .orderRefunded orderId index => .findOrder orderId index

/-- After a side's award, the other side or the event. -/
def Qualification.next (q : Qualification) : RewardSide → ReferralPlace
  | .referrer => .grant q .referee
  | .referee => .emitQualified q

/-- After a side's reversal, the other side or the event. -/
def Turn.next (h : Handling) (v : Reversing) (d : SideReversal) : Turn → ReferralPlace
  | .first => .sideGrant h v (.second d)
  | .second referrer => .emitReversed h v referrer d

/-- A reversal that has won no referral. -/
def Handling.unreversed (orderId : Uuid) : Handling → ReferralPlace
  | .completed q => .rewarded q (some orderId)
  | .refunded orderId index => .nothing (.orderRefunded orderId index)

/-- A side that nothing is taken back from. -/
def Reversing.nothing (v : Reversing) (side : RewardSide) : SideReversal :=
  ⟨v.recipient side, .nothingToReverse, 0⟩

def FullyRefunded (s : OrderStore) : Prop := ∃ o ∈ s.order, o.status = .refunded

instance : DecidablePred FullyRefunded := fun s =>
  match h : s.order with
  | none => isFalse (by simp [FullyRefunded, h])
  | some o => decidable_of_iff (o.status = .refunded) (by simp [FullyRefunded, h])

section Statement

variable (month : Instant → Option Period) (customer : Uuid → Uuid) (env : ReferralEnv)
  (db : ReferralDb) (pid : ℕ)

/-- The transactions around the rewards.  A booking's order is placed with the booking. -/
def orderStatement : ReferralPlace → Next ReferralDb Uuid ReferralPlace
  | .attribute x =>
    match db.referrals.insert pid x.refereeUserId { x with state := .pending }
        fun y => y.id = x.id with
    | .waits => .waits
    | .done _ t => .goes { db with referrals := t.commit pid } .ended
    | _ => .throws .failed
  | .placeOrder n =>
    if n.sourceType = .booking ∧ n.sourceId ∈ db.completed then .throws .failed
    else
      match db.orders.insert pid n.id n.store (HasSource n.sourceType n.sourceId) with
      | .waits => .waits
      | .done _ t => .goes { db with orders := t.commit pid } .ended
      | _ => .throws .failed
  | .completeBooking bookingId => .goes { db with completed := bookingId :: db.completed } .ended
  | .order orderId op =>
    match db.orders.get pid orderId with
    | none => .throws .failed
    | some s =>
      match op.run s with
      | .error _ => .throws .failed
      | .ok s' =>
        if s' = s then .commits .ended else .locks orderId .exclusive (.orderLocked orderId op)
  | .orderLocked orderId op =>
    match db.orders.get pid orderId with
    | none => .throws .failed
    | some s =>
      match op.run s with
      | .error _ => .throws .failed
      | .ok s' =>
        match db.orders.update pid orderId (fun _ => True) fun _ => s' with
        | .waits => .waits
        | .done _ t => .goes { db with orders := t } (.orderWritten orderId)
        | _ => .throws .failed
  | .orderWritten _ => .commits .ended
  | _ => .waits

/-- `ReferralQualificationService.qualify`. -/
def qualifyStatement : ReferralPlace → Next ReferralDb Uuid ReferralPlace
  | .qualify bookingId =>
    match db.referrals.update pid (customer bookingId) (ReferralAttributionEntity.Live env.now)
        fun x => x.qualify env.now bookingId with
    | .waits => .waits
    | .unmatched => .goes db (.nothing (.bookingCompleted bookingId))
    | .violated => .throws .failed
    | .done x t =>
      if x.Checked then
        .goes { db with referrals := t }
          (.charge ⟨x.id, x.referrerUserId, customer bookingId, bookingId, env.now⟩)
      else .throws .failed
  | .charge w =>
    match month w.now with
    | none => .throws .failed
    | some period =>
      match chargeReferrerCap db.referrerCounters pid (w.referrerUserId, period) with
      | .waits => .waits
      | .charged withinCap t =>
        .goes { db with referrerCounters := t }
          (.grant (w.decide withinCap env.referrerPoints env.refereePoints) .referrer)
  | .grant q side =>
    if (q.grant side).Checked side then
      match db.rewardGrants.insert pid (q.referralId, side) (q.grant side) fun _ => False with
      | .waits => .waits
      | .done _ t => .goes { db with rewardGrants := t } (.award q side)
      | _ => .throws .failed
    else .throws .failed
  | .award q side =>
    if q.outcome side = .awarded ∧ q.points side ≠ 0 then
      match insertOnce db.pointsEntries pid (q.referralId, rewardReasonBySide side)
          (awardEntry (q.recipient side) (q.points side) (pointsMultiplierBp env.multipliers)) with
      | .waits => .waits
      | .lost => .goes db (q.next side)
      | .won t => .goes { db with pointsEntries := t } (q.next side)
    else .goes db (q.next side)
  | .emitQualified q =>
    .goes { db with outbox := db.outbox.append pid (.qualified q) } (.findBookingOrder q)
  | _ => .waits

/-- The two reads of the order: `findBookingOrder`, `findOrderById`, both `FOR SHARE`. -/
def lookupStatement : ReferralPlace → Next ReferralDb Uuid ReferralPlace
  | .findBookingOrder q =>
    match db.orders.select pid fun s => HasSource .booking q.qualifyingBookingId s with
    | [] => .goes db (.rewarded q none)
    | orderId :: _ => .locks orderId .shared (.readBookingOrder q orderId)
  | .readBookingOrder q orderId =>
    if ∃ s ∈ db.orders.get pid orderId, FullyRefunded s then
      .goes db (.reverse (.completed q) q.qualifyingBookingId orderId)
    else .goes db (.rewarded q (some orderId))
  | .findOrder orderId index =>
    match db.orders.get pid orderId with
    | none => .goes db (.nothing (.orderRefunded orderId index))
    | some _ => .locks orderId .shared (.readOrder orderId index)
  | .readOrder orderId index =>
    match (db.orders.get pid orderId).bind (·.order) with
    | none => .goes db (.nothing (.orderRefunded orderId index))
    | some o =>
      if o.status = .refunded ∧ o.sourceType = .booking then
        .goes db (.reverse (.refunded orderId index) o.sourceId orderId)
      else .goes db (.nothing (.orderRefunded orderId index))
  | _ => .waits

/-- `ReferralReversalService.reverse`, `reverseSide`, `recordReversal`. -/
def reverseStatement : ReferralPlace → Next ReferralDb Uuid ReferralPlace
  | .reverse h bookingId orderId =>
    match db.referrals.updateAll pid (ReferralAttributionEntity.qualifiedBy bookingId)
        fun x => x.reverse env.now orderId with
    | .waits => .waits
    | .done ks t =>
      match ks with
      | [] => .goes db (h.unreversed orderId)
      | k :: _ =>
        match t.get pid k with
        | none => .throws .failed
        | some x =>
          if x.Checked then
            .goes { db with referrals := t }
              (.sideGrant h ⟨x.id, x.referrerUserId, x.refereeUserId, orderId, env.now⟩ .first)
          else .throws .failed
  | .sideGrant h v turn =>
    match db.rewardGrants.get pid (v.referralId, turn.side) with
    | none => .goes db (.sideRecord h v turn (v.nothing turn.side))
    | some g =>
      if g.outcome = .awarded then .goes db (.sideOriginal h v turn g.points)
      else .goes db (.sideRecord h v turn (v.nothing turn.side))
  | .sideOriginal h v turn expectedBasePoints =>
    match db.pointsEntries.get pid (v.referralId, rewardReasonBySide turn.side) with
    | none => .goes db (.sideRecord h v turn (v.nothing turn.side))
    | some original =>
      if (expectedBasePoints : ℤ) = original.basePoints then
        .goes db (.sideClawback h v turn original)
      else .throws .failed
  | .sideClawback h v turn original =>
    match insertOnce db.pointsEntries pid (v.referralId, reversalReasonBySide turn.side)
        original.reversal with
    | .waits => .waits
    | .lost => .goes db (.sideRecord h v turn (v.nothing turn.side))
    | .won t =>
      .goes { db with pointsEntries := t }
        (.sideRecord h v turn ⟨v.recipient turn.side, .reversed, original.points⟩)
  | .sideRecord h v turn d =>
    if (v.record turn.side d).Checked then
      match db.rewardReversals.insert pid (v.referralId, turn.side) (v.record turn.side d)
          fun _ => False with
      | .waits => .waits
      | .done _ t => .goes { db with rewardReversals := t } (turn.next h v d)
      | _ => .throws .failed
    else .throws .failed
  | .emitReversed h v referrer referee =>
    .goes { db with outbox := db.outbox.append pid (.reversed v.referralId v.referrerUserId
      v.refereeUserId v.orderId v.now referrer referee) } (.reversed h v)
  | _ => .waits

/-- The statement of a call at its place. -/
def statement : ReferralPlace → Next ReferralDb Uuid ReferralPlace
  | .idle | .failed | .ended | .done _ => .waits
  | .deliver event => if event.Emitted db then .goes db event.first else .waits
  | .nothing event => .commits (.done event)
  | .rewarded q _ => .commits (.done (.bookingCompleted q.qualifyingBookingId))
  | .reversed h _ => .commits (.done h.delivery)
  | .attribute x => orderStatement db pid (.attribute x)
  | .placeOrder n => orderStatement db pid (.placeOrder n)
  | .completeBooking bookingId => orderStatement db pid (.completeBooking bookingId)
  | .order orderId op => orderStatement db pid (.order orderId op)
  | .orderLocked orderId op => orderStatement db pid (.orderLocked orderId op)
  | .orderWritten orderId => orderStatement db pid (.orderWritten orderId)
  | .qualify bookingId => qualifyStatement month customer env db pid (.qualify bookingId)
  | .charge w => qualifyStatement month customer env db pid (.charge w)
  | .grant q side => qualifyStatement month customer env db pid (.grant q side)
  | .award q side => qualifyStatement month customer env db pid (.award q side)
  | .emitQualified q => qualifyStatement month customer env db pid (.emitQualified q)
  | .findBookingOrder q => lookupStatement db pid (.findBookingOrder q)
  | .readBookingOrder q orderId => lookupStatement db pid (.readBookingOrder q orderId)
  | .findOrder orderId index => lookupStatement db pid (.findOrder orderId index)
  | .readOrder orderId index => lookupStatement db pid (.readOrder orderId index)
  | place => reverseStatement env db pid place

end Statement

/-- Where a call starts. -/
def ReferralRequest.first : ReferralRequest → ReferralPlace
  | .attribute x => .attribute x
  | .placeOrder n => .placeOrder n
  | .completeBooking bookingId => .completeBooking bookingId
  | .order orderId op => .order orderId op
  | .deliver e => .deliver e

/-- A call there still runs. -/
def ReferralPlace.running : ReferralPlace → Bool
  | .idle | .failed | .ended | .done _ => false
  | _ => true

/-- The handlers and the transactions around them.  `wallClockIn` reads the clock in Tehran, and
`customer` is the customer of a booking. -/
def referralRewards (wallClockIn : Instant → ZonedWallClock) (customer : Uuid → Uuid) :
    Service ReferralDb Uuid ReferralPlace ReferralRequest ReferralEnv where
  commit := ReferralDb.commit
  rollback := ReferralDb.rollback
  idle := .idle
  failed := .failed
  running := ReferralPlace.running
  first := ReferralRequest.first
  statement := statement (tehranCalendarMonth wallClockIn) customer

end BeauClick.Referral
