import BeauClick.Commerce.Order
import BeauClick.Lib.Table
import BeauClick.Lib.Utf16

/-!
# The payment schema and its transactions

`services/payment/src/payment.service.ts` and the entities beside it.  The
store is the three tables and the outbox; each definition below is one statement
or one transaction of the service, and the interleavings of the calls that use
them are in the files that follow.
-/

namespace BeauClick.Payment

open Money Table

/-! ## Rows -/

/-- `PAYMENT_INTENT_STATUSES`. -/
inductive PaymentIntentStatus where
  | created
  | pending
  | succeeded
  | failed
  | cancelled
  | expired
  deriving DecidableEq

/-- `LIVE_INTENT_STATUSES`, the predicate of `uq_payment_intents_live_order`. -/
def liveIntentStatuses : List PaymentIntentStatus := [.created, .pending, .succeeded]

/-- `PAYMENT_ATTEMPT_STATUSES`. -/
inductive PaymentAttemptStatus where
  | initiated
  | succeeded
  | failed
  deriving DecidableEq

/-- `REFUND_STATUSES`. -/
inductive RefundStatus where
  | pending
  | succeeded
  | failed
  | manualRequired
  deriving DecidableEq

/-- `REFUND_KINDS`. -/
inductive RefundKind where
  | order
  | duplicateCharge
  deriving DecidableEq

/-- `requestKey`, by the template that builds it: `booking-cancelled:<booking>`,
`booking-unconfirmable:<order>`, `duplicate-charge:<attempt>`, or another text. -/
inductive RequestKey where
  | bookingCancelled (bookingId : Uuid)
  | bookingUnconfirmable (orderId : Uuid)
  | duplicateCharge (attemptId : Uuid)
  | other (text : String)
  deriving DecidableEq

/-- `actorType` of a refund request. -/
inductive RefundActorType where
  | customer
  | professional
  | system
  | admin
  deriving DecidableEq

/-- `payment.payment_intents`. -/
structure PaymentIntentEntity where
  id : Uuid
  orderId : Uuid
  customerId : Uuid
  amountToman : ℤ
  currency : String
  status : PaymentIntentStatus
  providerKey : String
  expiresAt : Instant
  succeededAt : Option Instant
  failureCode : Option String
  deriving DecidableEq

/-- `payment.payment_attempts`. -/
structure PaymentAttemptEntity where
  id : Uuid
  paymentIntentId : Uuid
  providerKey : String
  providerReference : String
  status : PaymentAttemptStatus
  requestedAmountToman : ℤ
  verifiedAmountToman : Option ℤ
  redirectUrl : Option String
  providerTransactionId : Option String
  failureCode : Option String
  verifiedAt : Option Instant
  deriving DecidableEq

/-- `payment.refunds`. -/
structure RefundEntity where
  id : Uuid
  orderId : Uuid
  paymentIntentId : Uuid
  paymentAttemptId : Option Uuid
  requestKey : RequestKey
  amountToman : ℤ
  status : RefundStatus
  kind : RefundKind
  providerRefundReference : Option String
  failureCode : Option String
  reason : String
  requestedByActorType : RefundActorType
  requestedByActorId : Option Uuid
  completedAt : Option Instant

/-- The payloads payment writes to its outbox. -/
inductive PaymentEvent where
  | paymentInitiated (paymentIntentId paymentAttemptId orderId : Uuid) (provider : String)
      (amountToman : ℤ) (currency : String)
  | paymentSucceeded (paymentIntentId paymentAttemptId orderId customerId : Uuid)
      (provider : String) (amountToman : ℤ) (currency : String)
      (providerTransactionId failureCode : Option String)
  | paymentFailed (paymentIntentId paymentAttemptId orderId customerId : Uuid)
      (provider : String) (amountToman : ℤ) (currency : String)
      (providerTransactionId failureCode : Option String)
  | refundCompleted (refundId paymentIntentId orderId : Uuid) (amountToman : ℤ)
      (kind : RefundKind) (providerRefundReference : Option String) (completedAt : Instant)

/-- The tables of the payments. -/
structure PaymentStore where
  intents : List PaymentIntentEntity
  attempts : List PaymentAttemptEntity
  refunds : List RefundEntity
  outbox : List PaymentEvent

/-- What the provider says. -/
inductive VerifyOutcome where
  | succeeded
  | failed
  | unknown
  deriving DecidableEq

/-- `VerifyPaymentResult`: what a gateway says about an attempt. -/
structure VerifyPaymentResult where
  outcome : VerifyOutcome
  paidAmountToman : Option ℤ
  paidCurrency : Option String
  providerTransactionId : Option String
  failureCode : Option String
  deriving DecidableEq

/-- What a verification has read. -/
structure PreparedVerification where
  attempt : PaymentAttemptEntity
  intent : PaymentIntentEntity
  providerResult : Option VerifyPaymentResult
  alreadyProcessed : Bool
  deriving DecidableEq

/-- `status` of a `VerificationOutcome`. -/
inductive VerificationStatus where
  | succeeded
  | failed
  | replayed
  | unresolved
  deriving DecidableEq

/-- What a verification answers. -/
structure VerificationOutcome where
  status : VerificationStatus
  orderId : Uuid
  customerId : Uuid
  intentId : Uuid
  attemptId : Uuid
  amountToman : ℤ
  providerTransactionId : Option String
  failureCode : Option String

/-- `RequestRefundInput`, with `kind` defaulted as `refund` defaults it. -/
structure RequestRefundInput where
  orderId : Uuid
  amountToman : JsNumber
  reason : String
  requestKey : RequestKey
  actorType : RefundActorType
  actorId : Option Uuid
  kind : RefundKind
  paymentAttemptId : Option Uuid
  deriving DecidableEq

/-- A provider's text, cut to what its column holds. -/
def fitToColumn (value : Option String) (maxLength : ℕ) : Option String :=
  value.map fun text =>
    if Utf16.length text.toList ≤ maxLength then text
    else .ofList (Utf16.slice maxLength text.toList)

/-- What is written fits its column, which counts characters. -/
theorem length_fitToColumn {value : Option String} {maxLength : ℕ} :
    ∀ text ∈ fitToColumn value maxLength, text.toList.length ≤ maxLength := by
  intro text htext
  obtain ⟨_, -, rfl⟩ := Option.map_eq_some_iff.1 htext
  split_ifs with hfits
  · exact (Utf16.length_le _).trans hfits
  · rw [String.toList_ofList]
    exact Utf16.length_slice_le ..

namespace PaymentStore

/-! ## Reads -/

/-- `intents.findOne({ id })`. -/
def findIntent (s : PaymentStore) (intentId : Uuid) : Option PaymentIntentEntity :=
  s.intents.find? fun i => i.id = intentId

/-- `intents.findOne({ orderId, status: 'succeeded' })`. -/
def findSucceededIntent (s : PaymentStore) (orderId : Uuid) : Option PaymentIntentEntity :=
  s.intents.find? fun i => i.orderId = orderId ∧ i.status = .succeeded

/-- `attempts.findOne({ id })`. -/
def findAttempt (s : PaymentStore) (attemptId : Uuid) : Option PaymentAttemptEntity :=
  s.attempts.find? fun a => a.id = attemptId

/-- The attempt a refund is about: the one it names, else the latest succeeded one
of the intent. -/
def refundAttempt (s : PaymentStore) (input : RequestRefundInput) (intent : PaymentIntentEntity) :
    Option PaymentAttemptEntity :=
  match input.paymentAttemptId with
  | some attemptId => s.findAttempt attemptId
  | none =>
    latestWhere (fun a => a.paymentIntentId = intent.id ∧ a.status = .succeeded) (·.id) s.attempts

/-- `findOpenAttemptForIntent`. -/
def findOpenAttempt (s : PaymentStore) (intentId : Uuid) : Option PaymentAttemptEntity :=
  latestWhere (fun a => a.paymentIntentId = intentId ∧ a.status = .initiated) (·.id) s.attempts

/-- `refunds.findOne({ orderId, requestKey })`. -/
def findRefund (s : PaymentStore) (orderId : Uuid) (requestKey : RequestKey) : Option RefundEntity :=
  s.refunds.find? fun r => r.orderId = orderId ∧ r.requestKey = requestKey

/-! ## Opening a payment -/

/-- The insert of `createIntentForOrder`, which `uq_payment_intents_live_order`
refuses while the order has a live intent. -/
def insertIntent (s : PaymentStore) (intent : PaymentIntentEntity) : Option PaymentStore :=
  if (∃ i ∈ s.intents, i.id = intent.id) ∨ intent.amountToman < 0 ∨
      ∃ i ∈ s.intents, i.orderId = intent.orderId ∧ i.status ∈ liveIntentStatuses then none
  else some { s with intents := s.intents ++ [intent] }

/-- The update of `initiate` that expires a lapsed intent. -/
def expireIntent (s : PaymentStore) (intentId : Uuid) : PaymentStore :=
  { s with
    intents := updateWhere
      (fun i => i.id = intentId ∧ i.status ∈ [.created, .pending, .failed])
      (fun i => { i with status := .expired }) s.intents }

/-- The update of `initiate` that opens an intent it has sent to the gateway. -/
def openIntent (s : PaymentStore) (intentId : Uuid) : PaymentStore :=
  { s with
    intents := updateWhere (fun i => i.id = intentId ∧ i.status ∈ [.created, .failed])
      (fun i => { i with status := .pending }) s.intents }

/-- Whether the row violates one of the unique indices of `payment_attempts`. -/
def attemptConflict (s : PaymentStore) (attempt : PaymentAttemptEntity) : Prop :=
  ∃ a ∈ s.attempts, a.id = attempt.id ∨
    (a.providerKey = attempt.providerKey ∧ a.providerReference = attempt.providerReference) ∨
    (a.paymentIntentId = attempt.paymentIntentId ∧ a.status = .initiated)

instance (s : PaymentStore) (attempt : PaymentAttemptEntity) :
    Decidable (s.attemptConflict attempt) :=
  inferInstanceAs (Decidable (∃ a ∈ s.attempts, _))

/-- Opening an intent is refused by `uq_payment_intents_live_order` when it would
be the second live intent of its order: another intent became live after this
one had failed. -/
def openConflict (s : PaymentStore) (intent : PaymentIntentEntity) : Prop :=
  (∃ i ∈ s.intents, i.id = intent.id ∧ i.status = .failed) ∧
    ∃ i ∈ s.intents, i.id ≠ intent.id ∧ i.orderId = intent.orderId ∧ i.status ∈ liveIntentStatuses
  deriving Decidable

/-- The transaction of `initiate`: the attempt, the intent's move to `pending` and
the event; `none` when a unique index refuses it. -/
def insertAttempt (s : PaymentStore) (intent : PaymentIntentEntity)
    (attempt : PaymentAttemptEntity) : Option PaymentStore :=
  if s.attemptConflict attempt ∨ s.openConflict intent then none
  else
    let s' := s.openIntent intent.id
    some { s' with
      attempts := s.attempts ++ [attempt]
      outbox := s.outbox ++ [.paymentInitiated intent.id attempt.id intent.orderId
        attempt.providerKey intent.amountToman intent.currency] }

/-! ## Recording a verification -/

/-- The gateway says that the whole amount was paid, in the intent's currency. -/
def amountMatches (intent : PaymentIntentEntity) (result : VerifyPaymentResult) : Bool :=
  result.outcome = .succeeded ∧ result.paidCurrency = some intent.currency ∧
    result.paidAmountToman = some intent.amountToman

/-- The failure code recorded for an answer. -/
def verificationFailureCode (intent : PaymentIntentEntity) (result : VerifyPaymentResult) :
    Option String :=
  fitToColumn
    (if amountMatches intent result then none
    else if result.outcome = .failed then result.failureCode
    else some "amount_mismatch") 60

/-- The attempt row an answer writes. -/
def verifiedAttempt (intent : PaymentIntentEntity) (result : VerifyPaymentResult) (now : Instant)
    (a : PaymentAttemptEntity) : PaymentAttemptEntity :=
  { a with
    status := if amountMatches intent result then .succeeded else .failed
    verifiedAmountToman := result.paidAmountToman
    providerTransactionId := fitToColumn result.providerTransactionId 128
    failureCode := verificationFailureCode intent result
    verifiedAt := some now }

/-- The intent row an answer writes. -/
def verifiedIntent (intent : PaymentIntentEntity) (result : VerifyPaymentResult) (now : Instant)
    (i : PaymentIntentEntity) : PaymentIntentEntity :=
  if amountMatches intent result then
    { i with status := .succeeded, succeededAt := some now, failureCode := none }
  else { i with status := .failed, failureCode := verificationFailureCode intent result }

/-- The event an answer publishes. -/
def verificationEvent (prepared : PreparedVerification) (result : VerifyPaymentResult) :
    PaymentEvent :=
  let intent := prepared.intent
  let attempt := prepared.attempt
  let failureCode := verificationFailureCode intent result
  if amountMatches intent result then
    .paymentSucceeded intent.id attempt.id intent.orderId intent.customerId attempt.providerKey
      intent.amountToman intent.currency result.providerTransactionId failureCode
  else
    .paymentFailed intent.id attempt.id intent.orderId intent.customerId attempt.providerKey
      intent.amountToman intent.currency result.providerTransactionId failureCode

/-- The three writes of an answer that won its attempt. -/
def recordVerification (s : PaymentStore) (prepared : PreparedVerification)
    (result : VerifyPaymentResult) (now : Instant) : PaymentStore :=
  { s with
    attempts := updateWhere (fun a => a.id = prepared.attempt.id ∧ a.status = .initiated)
      (verifiedAttempt prepared.intent result now) s.attempts
    intents := updateWhere (fun i => i.id = prepared.intent.id ∧ i.status ∈ [.created, .pending])
      (verifiedIntent prepared.intent result now) s.intents
    outbox := s.outbox ++ [verificationEvent prepared result] }

/-- The attempt is still open, so the answer's compare-and-swap affects its row. -/
def claims (s : PaymentStore) (attemptId : Uuid) : Prop :=
  ∃ a ∈ s.attempts, a.id = attemptId ∧ a.status = .initiated
  deriving Decidable

/-- The provider's answer is written to the attempt. -/
def applyVerification (s : PaymentStore) (prepared : PreparedVerification) (now : Instant) :
    VerificationOutcome × PaymentStore :=
  let answer (status : VerificationStatus) (providerTransactionId failureCode : Option String) :
      VerificationOutcome :=
    { status := status, orderId := prepared.intent.orderId
      customerId := prepared.intent.customerId, intentId := prepared.intent.id
      attemptId := prepared.attempt.id, amountToman := prepared.intent.amountToman
      providerTransactionId := providerTransactionId, failureCode := failureCode }
  match prepared.alreadyProcessed, prepared.providerResult with
  | false, some result =>
    if result.outcome = .unknown then (answer .unresolved none result.failureCode, s)
    else if s.claims prepared.attempt.id then
      (answer (if amountMatches prepared.intent result then .succeeded else .failed)
        result.providerTransactionId (verificationFailureCode prepared.intent result),
        s.recordVerification prepared result now)
    else
      let current := (s.findAttempt prepared.attempt.id).getD prepared.attempt
      (answer .replayed current.providerTransactionId current.failureCode, s)
  | _, _ =>
    (answer .replayed prepared.attempt.providerTransactionId prepared.attempt.failureCode, s)

/-! ## Refunds -/

/-- What an attempt charged: its verified amount once it has succeeded. -/
def chargedToman (a : PaymentAttemptEntity) : ℤ :=
  if a.status = .succeeded then a.verifiedAmountToman.getD 0 else 0

/-- The ceiling of `assertWithinCaptured`, from the rows the call has read. -/
def capturedToman (intent : PaymentIntentEntity) (attempt : Option PaymentAttemptEntity) :
    RefundKind → ℤ
  | .order => intent.amountToman
  | .duplicateCharge =>
    match attempt with
    | some a => chargedToman a
    | none => 0

/-- The refunds of an order that count against a kind's ceiling.  In SQL a
comparison with a `null` attempt id is never true. -/
def Counts (orderId : Uuid) (attempt : Option PaymentAttemptEntity) (kind : RefundKind)
    (r : RefundEntity) : Prop :=
  r.orderId = orderId ∧ r.kind = kind ∧ r.status ≠ .failed ∧
    (kind = .duplicateCharge → ∃ a ∈ attempt, r.paymentAttemptId = some a.id)

instance (orderId : Uuid) (attempt : Option PaymentAttemptEntity) (kind : RefundKind) :
    DecidablePred (Counts orderId attempt kind) := fun _ =>
  inferInstanceAs (Decidable (_ ∧ _ ∧ _ ∧ (_ → _)))

/-- What refunds of the kind are already committed to. -/
def committedToman (s : PaymentStore) (orderId : Uuid) (attempt : Option PaymentAttemptEntity)
    (kind : RefundKind) : ℤ :=
  sumWhere (Counts orderId attempt kind) (·.amountToman) s.refunds

/-- `assertWithinCaptured` does not throw. -/
def withinCaptured (s : PaymentStore) (intent : PaymentIntentEntity)
    (attempt : Option PaymentAttemptEntity) (kind : RefundKind) (orderId : Uuid)
    (amountToman : ℤ) : Bool :=
  amountToman ≤ capturedToman intent attempt kind - s.committedToman orderId attempt kind

/-- The row `refund` inserts. -/
def pendingRefund (input : RequestRefundInput) (amountToman : ℤ) (intent : PaymentIntentEntity)
    (attempt : Option PaymentAttemptEntity) (refundId : Uuid) : RefundEntity where
  id := refundId
  orderId := input.orderId
  paymentIntentId := intent.id
  paymentAttemptId := attempt.map (·.id)
  requestKey := input.requestKey
  amountToman := amountToman
  status := .pending
  kind := input.kind
  providerRefundReference := none
  failureCode := none
  reason := input.reason
  requestedByActorType := input.actorType
  requestedByActorId := input.actorId
  completedAt := none

/-- What the insert of a refund row ends in. -/
inductive RefundInsert where
  | inserted (s : PaymentStore)
  | uniqueViolation
  | checkViolation

/-- The insert of a refund row, under `ck_refunds_amount` and
`uq_refunds_order_request_key`. -/
def insertRefund (s : PaymentStore) (r : RefundEntity) : RefundInsert :=
  if r.amountToman ≤ 0 then .checkViolation
  else if ∃ r' ∈ s.refunds, r'.id = r.id ∨
      (r'.orderId = r.orderId ∧ r'.requestKey = r.requestKey) then .uniqueViolation
  else .inserted { s with refunds := s.refunds ++ [r] }

/-- The refund row a completion writes. -/
def completedRefund (status : RefundStatus) (providerRefundReference failureCode : Option String)
    (now : Instant) (r : RefundEntity) : RefundEntity :=
  { r with
    status := status
    providerRefundReference := providerRefundReference
    failureCode := failureCode
    completedAt := some now }

/-- The provider's answer is written to the refund. -/
def completeRefund (s : PaymentStore) (refundId : Uuid) (status : RefundStatus)
    (providerRefundReference failureCode : Option String) (now : Instant) : PaymentStore :=
  match s.refunds.find? fun r => r.id = refundId ∧ r.status = .pending with
  | none => s
  | some r =>
    { s with
      refunds := updateWhere (fun r => r.id = refundId ∧ r.status = .pending)
        (completedRefund status providerRefundReference failureCode now) s.refunds
      outbox :=
        if status = .succeeded then
          s.outbox ++ [.refundCompleted r.id r.paymentIntentId r.orderId r.amountToman r.kind
            providerRefundReference now]
        else s.outbox }

/-! ## What the writes of a refund do -/

section Refunds

variable {s s' : PaymentStore}

theorem insertRefund_eq_inserted {r : RefundEntity} :
    s.insertRefund r = .inserted s' ↔ 0 < r.amountToman ∧ (∀ r' ∈ s.refunds, r'.id ≠ r.id ∧
      ¬(r'.orderId = r.orderId ∧ r'.requestKey = r.requestKey)) ∧
      s' = { s with refunds := s.refunds ++ [r] } := by
  unfold insertRefund
  constructor
  · intro h
    split_ifs at h with hpos hconfl
    injection h with h
    refine ⟨not_le.1 hpos, ?_, h.symm⟩
    intro r' hr'
    exact ⟨fun hid => hconfl ⟨r', hr', Or.inl hid⟩, fun hkey => hconfl ⟨r', hr', Or.inr hkey⟩⟩
  · rintro ⟨hpos, hnew, rfl⟩
    rw [if_neg (not_le.2 hpos), if_neg]
    rintro ⟨r', hr', hid | hkey⟩
    · exact (hnew r' hr').1 hid
    · exact (hnew r' hr').2 hkey

variable (s) (refundId : Uuid) (status : RefundStatus)
  (providerRefundReference failureCode : Option String) (now : Instant)

theorem completeRefund_refunds :
    (s.completeRefund refundId status providerRefundReference failureCode now).refunds =
      updateWhere (fun r => r.id = refundId ∧ r.status = .pending)
        (completedRefund status providerRefundReference failureCode now) s.refunds := by
  unfold completeRefund
  split
  · rename_i hnone
    refine (updateWhere_eq_self ?_).symm
    simpa using List.find?_eq_none.1 hnone
  · rfl

@[simp] theorem completeRefund_intents :
    (s.completeRefund refundId status providerRefundReference failureCode now).intents =
      s.intents := by
  unfold completeRefund
  split <;> rfl

@[simp] theorem completeRefund_attempts :
    (s.completeRefund refundId status providerRefundReference failureCode now).attempts =
      s.attempts := by
  unfold completeRefund
  split <;> rfl

end Refunds

/-! ## What the constraints of the schema keep -/

/-- The primary keys, the check constraints and `uq_payment_intents_live_order`. -/
structure Constraints (s : PaymentStore) : Prop where
  intentId : ∀ i ∈ s.intents, ∀ j ∈ s.intents, i.id = j.id → i = j
  liveIntent : ∀ i ∈ s.intents, ∀ j ∈ s.intents,
    (i.orderId = j.orderId ∧ i.status ∈ liveIntentStatuses ∧ j.status ∈ liveIntentStatuses) → i = j
  intentAmount : ∀ i ∈ s.intents, 0 ≤ i.amountToman
  attemptId : ∀ a ∈ s.attempts, ∀ b ∈ s.attempts, a.id = b.id → a = b
  verified : ∀ a ∈ s.attempts, a.status = .succeeded →
    ∃ v, a.verifiedAmountToman = some v ∧ 0 ≤ v

variable {s : PaymentStore} {prepared : PreparedVerification}

theorem Constraints.chargedToman_nonneg (h : s.Constraints) {a : PaymentAttemptEntity}
    (ha : a ∈ s.attempts) : 0 ≤ chargedToman a := by
  by_cases hs : a.status = .succeeded
  · obtain ⟨_, hv, hv0⟩ := h.verified a ha hs
    simpa [chargedToman, hs, hv] using hv0
  · simp [chargedToman, hs]

/-- An answer that is not recorded changes nothing; one that is recorded is a
definite answer about an attempt that was still open. -/
theorem applyVerification_cases (s : PaymentStore) (prepared : PreparedVerification)
    (now : Instant) :
    ((s.applyVerification prepared now).2 = s ∧
        (s.applyVerification prepared now).1.status ∈
          [VerificationStatus.replayed, VerificationStatus.unresolved]) ∨
      ∃ result, prepared.alreadyProcessed = false ∧ prepared.providerResult = some result ∧
        result.outcome ≠ .unknown ∧ s.claims prepared.attempt.id ∧
        (s.applyVerification prepared now).1.status =
          (if amountMatches prepared.intent result then .succeeded else .failed) ∧
        (s.applyVerification prepared now).2 = s.recordVerification prepared result now := by
  unfold applyVerification
  split
  · rename_i result hdone hres
    by_cases hunknown : result.outcome = .unknown
    · left; simp [hunknown]
    · by_cases hclaims : s.claims prepared.attempt.id
      · right
        refine ⟨result, hdone, hres, hunknown, hclaims, ?_, ?_⟩ <;> simp [hunknown, hclaims]
      · left; simp [hunknown, hclaims]
  · left; simp

theorem applyVerification_outcome (s : PaymentStore) (prepared : PreparedVerification)
    (now : Instant) :
    (s.applyVerification prepared now).1.orderId = prepared.intent.orderId ∧
      (s.applyVerification prepared now).1.attemptId = prepared.attempt.id ∧
      (s.applyVerification prepared now).1.amountToman = prepared.intent.amountToman := by
  unfold applyVerification
  split
  · split_ifs <;> exact ⟨rfl, rfl, rfl⟩
  · exact ⟨rfl, rfl, rfl⟩

variable (intent : PaymentIntentEntity)

variable (result : VerifyPaymentResult)

variable (now : Instant)

variable (i : PaymentIntentEntity)

@[simp] theorem verifiedIntent_id :
    (verifiedIntent intent result now i).id = i.id := by
  unfold verifiedIntent; split <;> rfl

@[simp] theorem verifiedIntent_orderId :
    (verifiedIntent intent result now i).orderId = i.orderId := by
  unfold verifiedIntent; split <;> rfl

@[simp] theorem verifiedIntent_amountToman :
    (verifiedIntent intent result now i).amountToman = i.amountToman := by
  unfold verifiedIntent; split <;> rfl

theorem attemptId_recordVerification (h : ∀ a ∈ s.attempts, ∀ b ∈ s.attempts, a.id = b.id → a = b) :
    ∀ a ∈ (s.recordVerification prepared result now).attempts,
      ∀ b ∈ (s.recordVerification prepared result now).attempts, a.id = b.id → a = b := by
  refine eq_of_mem_updateWhere (R := fun a b : PaymentAttemptEntity => a.id = b.id) h ?_
  intro a _ b _ hab
  split at hab <;> split at hab <;> simpa [verifiedAttempt] using hab

theorem Constraints.recordVerification
    (h : s.Constraints) (hamt : 0 ≤ prepared.intent.amountToman) :
    (s.recordVerification prepared result now).Constraints where
  intentId := by
    refine eq_of_mem_updateWhere (R := fun i j : PaymentIntentEntity => i.id = j.id) h.intentId ?_
    intro i _ j _ hij
    split at hij <;> split at hij <;> simpa using hij
  liveIntent := by
    refine eq_of_mem_updateWhere (R := fun i j : PaymentIntentEntity => i.orderId = j.orderId ∧
      i.status ∈ liveIntentStatuses ∧ j.status ∈ liveIntentStatuses) h.liveIntent ?_
    -- a row the update writes was `created` or `pending`, so it was live before
    have hlive : ∀ i : PaymentIntentEntity, i.status ∈ [.created, .pending] →
        i.status ∈ liveIntentStatuses := by
      intro i hi
      simp only [List.mem_cons, List.not_mem_nil, or_false] at hi
      rcases hi with hi | hi <;> simp [liveIntentStatuses, hi]
    rintro i _ j _ ⟨hord, hi, hj⟩
    refine ⟨?_, ?_, ?_⟩
    · split at hord <;> split at hord <;> simpa using hord
    · split at hi
      · rename_i hp; exact hlive i hp.2
      · exact hi
    · split at hj
      · rename_i hp; exact hlive j hp.2
      · exact hj
  intentAmount := by
    refine forall_mem_updateWhere (fun i hi _ => h.intentAmount i hi) ?_
    intro i hi _
    simpa using h.intentAmount i hi
  attemptId := attemptId_recordVerification result now h.attemptId
  verified := by
    refine forall_mem_updateWhere (fun a ha _ => h.verified a ha) ?_
    intro a _ _ hsucc
    have hmatch : amountMatches prepared.intent result = true := by
      by_contra hne
      simp [verifiedAttempt, hne] at hsucc
    refine ⟨prepared.intent.amountToman, ?_, hamt⟩
    simp only [amountMatches, decide_eq_true_eq] at hmatch
    exact hmatch.2.2

end PaymentStore

end BeauClick.Payment
