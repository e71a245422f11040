import BeauClick.Money.Amount

/-!
# The order row and the operations that move its money

`services/commerce/src/order/order.service.ts`.  Every statement below names
one order by its id, so the model is the part of the database about one order:
its row, its immutable payment schedule, and the outbox rows written about it.

An operation that throws rolls its transaction back, so it returns an error and
no store.  The `*_cases` lemmas say what each operation can do; later files cite
these and do not unfold the operations.
-/

namespace BeauClick

/-- A `uuid` column.  `uuidv7` ids sort in creation order, as these do. -/
abbrev Uuid := ℕ

/-- A `timestamptz` column or a clock reading. -/
abbrev Instant := ℤ

namespace Commerce

open Money

/-! ## Rows -/

/-- `ORDER_STATUSES`. -/
inductive OrderStatus where
  | pending
  | paid
  | partiallyRefunded
  | refunded
  | cancelled
  | onlineCollectionNotRequired
  | onlineCollectionCompleted
  deriving DecidableEq

/-- `ORDER_SOURCE_TYPES`. -/
inductive OrderSourceType where
  | booking
  | direct
  deriving DecidableEq

/-- The kinds of a seller. -/
inductive SellerPartyType where
  | professional
  | business
  deriving DecidableEq

/-- The columns of `commerce.orders` that the operations read, write or copy
into an event. -/
structure OrderEntity where
  id : Uuid
  sourceType : OrderSourceType
  sourceId : Uuid
  customerId : Uuid
  sellerPartyType : SellerPartyType
  sellerPartyId : Uuid
  status : OrderStatus
  totalToman : ℤ
  refundedTotalToman : ℤ
  collectedTotalToman : ℤ
  paidAt : Option Instant
  cancelledAt : Option Instant
  deriving DecidableEq

/-- `commerce.order_payment_schedules`, which is never updated. -/
structure OrderPaymentScheduleEntity where
  serviceTotalToman : ℤ
  platformCollectibleToman : ℤ
  venueBalanceToman : ℤ
  deriving DecidableEq

/-- The payloads commerce writes to its outbox about an order. -/
inductive CommerceEvent where
  | orderPaid (orderId : Uuid) (sourceType : OrderSourceType) (sourceId customerId : Uuid)
      (sellerPartyType : SellerPartyType) (sellerPartyId : Uuid) (totalToman : ℤ) (paidAt : Instant)
  | orderCollectionCaptured (orderId : Uuid) (sourceType : OrderSourceType)
      (sourceId customerId : Uuid) (sellerPartyType : SellerPartyType) (sellerPartyId : Uuid)
      (serviceTotalToman platformCollectedToman venueBalanceToman : ℤ) (capturedAt : Instant)
  | orderCancelled (orderId : Uuid) (cancelledAt : Instant) (reason : String)
  | orderRefunded (orderId refundId : Uuid) (refundAmountToman refundedTotalToman : ℤ)
      (refundedAt : Instant)
  deriving DecidableEq

/-- The event says that money was captured: `OrderPaid` or `OrderCollectionCaptured`. -/
def CommerceEvent.isCapture : CommerceEvent → Bool
  | .orderPaid .. => true
  | .orderCollectionCaptured .. => true
  | _ => false

/-- One order's part of the commerce schema. -/
structure OrderStore where
  order : Option OrderEntity
  schedule : Option OrderPaymentScheduleEntity
  outbox : List CommerceEvent
  deriving DecidableEq

/-- What the operations throw. -/
inductive OrderError where
  | money (err : MoneyError)
  | orderNotFound
  | missingOrderPaymentSchedule
  | refundExceedsOrder

/-- `reason` of a refused capture. -/
inductive CaptureRefusal where
  | missing
  | nonPositiveAmount
  | amountNotCollectible
  | collectibleExceedsTotal

/-- What `markCollectionCaptured` answers. -/
inductive CaptureOutcome where
  | captured (status : OrderStatus) (collectedToman : ℤ)
  | already (status : OrderStatus) (collectedToman : ℤ)
  | refused (reason : CaptureRefusal)

/-- `reason` of an ineligible zero-collectible confirmation. -/
inductive ZeroCollectibleRefusal where
  | missing
  | positiveCollectible
  | notTransitionable

/-- What an order with nothing to collect comes to. -/
inductive ZeroCollectibleTransition where
  | transitioned
  | already
  | ineligible (reason : ZeroCollectibleRefusal)

def cancellableStatuses : List OrderStatus := [.pending, .onlineCollectionNotRequired]

def refundableStatuses : List OrderStatus := [.paid, .partiallyRefunded, .onlineCollectionCompleted]

namespace OrderStore

/-! ## Recording a verified capture -/

/-- The `UPDATE … FROM commerce.order_payment_schedules` of the capture: the row it
writes, or `none` when no row matches its `WHERE` clause. -/
def captureUpdate (s : OrderStore) (amount : ℤ) (now : Instant) : Option OrderEntity :=
  match s.order, s.schedule with
  | some o, some sch =>
    if o.status = .pending ∧ o.collectedTotalToman = 0 ∧ 0 < amount ∧
        amount = sch.platformCollectibleToman ∧ amount ≤ o.totalToman then
      some { o with
        collectedTotalToman := amount
        status := if amount = o.totalToman then .paid else .onlineCollectionCompleted
        paidAt := some now }
    else none
  | _, _ => none

/-- The one capture event of a captured order. -/
def captureEvent (o : OrderEntity) (sch : OrderPaymentScheduleEntity) (now : Instant) :
    CommerceEvent :=
  let capturedAt := o.paidAt.getD now
  if o.status = .paid then
    .orderPaid o.id o.sourceType o.sourceId o.customerId o.sellerPartyType o.sellerPartyId
      o.totalToman capturedAt
  else
    .orderCollectionCaptured o.id o.sourceType o.sourceId o.customerId o.sellerPartyType
      o.sellerPartyId sch.serviceTotalToman o.collectedTotalToman sch.venueBalanceToman capturedAt

/-- `explainCaptureRefusal`: why the capture statement affected no row. -/
def explainCaptureRefusal (s : OrderStore) (amount : ℤ) : Except OrderError CaptureOutcome :=
  match s.order with
  | none => .ok (.refused .missing)
  | some o =>
    if o.status ≠ .pending ∨ 0 < o.collectedTotalToman then
      .ok (.already o.status o.collectedTotalToman)
    else
      match s.schedule with
      | none => .error .missingOrderPaymentSchedule
      | some sch =>
        if amount ≤ 0 then .ok (.refused .nonPositiveAmount)
        else if amount ≠ sch.platformCollectibleToman then .ok (.refused .amountNotCollectible)
        else .ok (.refused .collectibleExceedsTotal)

/-- The capture is written, when its amount is the order's own. -/
def recordVerifiedCapture (s : OrderStore) (verifiedAmountToman : JsNumber) (now : Instant) :
    Except OrderError (CaptureOutcome × OrderStore) :=
  match assertNonNegativeAmount verifiedAmountToman with
  | .error err => .error (.money err)
  | .ok amount =>
    match s.captureUpdate amount now, s.schedule with
    | some o, some sch =>
      .ok (.captured o.status o.collectedTotalToman,
        { s with order := some o, outbox := s.outbox ++ [captureEvent o sch now] })
    | _, _ =>
      match s.explainCaptureRefusal amount with
      | .error err => .error err
      | .ok outcome => .ok (outcome, s)

/-! ## Orders nothing is collected for -/

/-- An order that collects nothing online is confirmed as such. -/
def confirmNoOnlineCollection (s : OrderStore) :
    Except OrderError (ZeroCollectibleTransition × OrderStore) :=
  match s.order, s.schedule with
  | none, _ => .ok (.ineligible .missing, s)
  | some o, schedule =>
    if o.status = .pending ∧ schedule.map (·.platformCollectibleToman) = some 0 then
      .ok (.transitioned, { s with order := some { o with status := .onlineCollectionNotRequired } })
    else if o.status = .onlineCollectionNotRequired then .ok (.already, s)
    else
      match schedule with
      | none => .error .missingOrderPaymentSchedule
      | some sch =>
        if 0 < sch.platformCollectibleToman then .ok (.ineligible .positiveCollectible, s)
        else .ok (.ineligible .notTransitionable, s)

def cancel (s : OrderStore) (reason : String) (now : Instant) : Bool × OrderStore :=
  match s.order with
  | none => (false, s)
  | some o =>
    if o.status ∈ cancellableStatuses then
      (true, { s with
        order := some { o with status := .cancelled, cancelledAt := some now }
        outbox := s.outbox ++ [.orderCancelled o.id now reason] })
    else (false, s)

/-! ## Recording a refund -/

/-- A refund is counted while the total leaves room for it. -/
def recordRefundWithin (s : OrderStore) (amountToman : ℤ) (refundId : Uuid) (now : Instant) :
    Except OrderError (Bool × OrderStore) :=
  match s.order with
  | none => .error .orderNotFound
  | some o =>
    let refundedTotal := o.refundedTotalToman + amountToman
    if o.status ∈ refundableStatuses ∧ refundedTotal ≤ o.collectedTotalToman then
      let status := if o.collectedTotalToman ≤ refundedTotal then .refunded else .partiallyRefunded
      .ok (true, { s with
        order := some { o with refundedTotalToman := refundedTotal, status := status }
        outbox := s.outbox ++ [.orderRefunded o.id refundId amountToman refundedTotal now] })
    else if o.collectedTotalToman < refundedTotal then .error .refundExceedsOrder
    else .ok (false, s)

def recordRefund (s : OrderStore) (amountToman : JsNumber) (refundId : Uuid) (now : Instant) :
    Except OrderError (Bool × OrderStore) :=
  match assertNonNegativeAmount amountToman with
  | .error err => .error (.money err)
  | .ok amount =>
    if amount = 0 then .ok (false, s) else s.recordRefundWithin amount refundId now

/-! ## What each operation can do -/

variable {s s' : OrderStore} {now : Instant}

/-- A capture that captured wrote the one matching row and its one event; any other leaves
the store alone. -/
theorem recordVerifiedCapture_cases {verified : JsNumber} {outcome : CaptureOutcome}
    (h : s.recordVerifiedCapture verified now = .ok (outcome, s')) :
    (s' = s ∧ ∀ status collected, outcome ≠ .captured status collected) ∨
      ∃ amount o sch, assertNonNegativeAmount verified = .ok amount ∧ s.order = some o ∧
        s.schedule = some sch ∧ o.status = .pending ∧ o.collectedTotalToman = 0 ∧ 0 < amount ∧
        amount = sch.platformCollectibleToman ∧ amount ≤ o.totalToman ∧
        ∃ o', o' = { o with
            collectedTotalToman := amount
            status := if amount = o.totalToman then .paid else .onlineCollectionCompleted
            paidAt := some now } ∧
          outcome = .captured o'.status amount ∧
          s' = { s with order := some o', outbox := s.outbox ++ [captureEvent o' sch now] } := by
  unfold recordVerifiedCapture at h
  split at h
  · cases h
  rename_i amount hamt
  split at h
  · rename_i o' sch hup hsch
    right
    unfold captureUpdate at hup
    split at hup
    · rename_i o sch' ho hsch'
      split at hup
      · rename_i hg
        obtain ⟨h1, h2, h3, h4, h5⟩ := hg
        cases hsch'.symm.trans hsch
        cases hup
        cases h
        exact ⟨amount, o, sch, hamt, ho, hsch, h1, h2, h3, h4, h5, _, rfl, rfl, rfl⟩
      · cases hup
    · cases hup
  · left
    split at h
    · cases h
    rename_i outcome' hexplain
    injection h with h
    injection h with houtcome hs
    subst houtcome hs
    refine ⟨rfl, ?_⟩
    rintro status collected rfl
    unfold explainCaptureRefusal at hexplain
    split at hexplain
    · cases hexplain
    split at hexplain
    · cases hexplain
    split at hexplain
    · cases hexplain
    split_ifs at hexplain <;> cases hexplain

theorem recordVerifiedCapture_amount {verified : JsNumber} {r : CaptureOutcome × OrderStore}
    (h : s.recordVerifiedCapture verified now = .ok r) :
    ∃ amount, assertNonNegativeAmount verified = .ok amount := by
  unfold recordVerifiedCapture at h
  split at h
  · cases h
  rename_i amount hamt
  exact ⟨amount, hamt⟩

/-- A zero-collectible confirmation either leaves the store alone or moves a
pending order with nothing to collect. -/
theorem confirmNoOnlineCollection_cases {outcome : ZeroCollectibleTransition}
    (h : s.confirmNoOnlineCollection = .ok (outcome, s')) :
    s' = s ∨ ∃ o, s.order = some o ∧ o.status = .pending ∧
      s' = { s with order := some { o with status := .onlineCollectionNotRequired } } := by
  unfold confirmNoOnlineCollection at h
  split at h
  · cases h; exact Or.inl rfl
  · rename_i o ho
    split at h
    · rename_i hg
      cases h
      exact Or.inr ⟨o, ho, hg.1, rfl⟩
    · split at h
      · cases h; exact Or.inl rfl
      · split at h
        · cases h
        split at h <;> · cases h; exact Or.inl rfl

theorem cancel_cases (s : OrderStore) (reason : String) (now : Instant) :
    (s.cancel reason now).2 = s ∨ ∃ o, s.order = some o ∧ o.status ∈ cancellableStatuses ∧
      (s.cancel reason now).2 = { s with
        order := some { o with status := .cancelled, cancelledAt := some now }
        outbox := s.outbox ++ [.orderCancelled o.id now reason] } := by
  unfold cancel
  split
  · exact Or.inl rfl
  · rename_i o ho
    split
    · rename_i hmem
      exact Or.inr ⟨o, ho, hmem, rfl⟩
    · exact Or.inl rfl

/-- A refund either leaves the store alone or adds its amount to a refundable
order within the collected amount. -/
theorem recordRefundWithin_cases {amount : ℤ} {refundId : Uuid} {b : Bool}
    (h : s.recordRefundWithin amount refundId now = .ok (b, s')) :
    s' = s ∨ ∃ o, s.order = some o ∧ o.status ∈ refundableStatuses ∧
      o.refundedTotalToman + amount ≤ o.collectedTotalToman ∧
      s' = { s with
        order := some { o with
          refundedTotalToman := o.refundedTotalToman + amount
          status := if o.collectedTotalToman ≤ o.refundedTotalToman + amount then .refunded
            else .partiallyRefunded }
        outbox := s.outbox ++
          [.orderRefunded o.id refundId amount (o.refundedTotalToman + amount) now] } := by
  unfold recordRefundWithin at h
  split at h
  · cases h
  rename_i o ho
  dsimp only at h
  split at h
  · rename_i hg
    cases h
    exact Or.inr ⟨o, ho, hg.1, hg.2, rfl⟩
  · split at h
    · cases h
    cases h; exact Or.inl rfl

theorem recordRefund_cases {amount : JsNumber} {refundId : Uuid} {b : Bool}
    (h : s.recordRefund amount refundId now = .ok (b, s')) :
    s' = s ∨ ∃ n, 0 < n ∧ s.recordRefundWithin n refundId now = .ok (b, s') := by
  unfold recordRefund at h
  split at h
  · cases h
  rename_i n hn
  split at h
  · cases h; exact Or.inl rfl
  · rename_i hne
    have hpos : 0 ≤ n := assertNonNegativeAmount_nonneg hn
    exact Or.inr ⟨n, by omega, h⟩

end OrderStore

end Commerce

end BeauClick
