import BeauClick.Booking.Booking
import BeauClick.CommercialPolicy.Evaluation
import BeauClick.Payment.RefundRequest

/-!
# The cancellation decision and the customer's remedy

The transactions of `BookingOutcomeOrchestrator` (`apps/api/src/outcome/`) and of
`CustomerRemedyResolutionService` over the rows they share: one booking, its order with the
terms it accepted, its refunds, its live decision of the kind `cancellation`, and its remedy
choice.
-/

namespace BeauClick.Outcome

open Money Table Commerce Payment Booking CommercialPolicy

/-! ## Rows -/

/-- `BookingOutcomeExecutionStatus`. -/
inductive ExecutionStatus where
  | pending
  | executed
  | manualRequired
  | failed
  deriving DecidableEq

/-- What a refund's status means for the decision. -/
def executionStatusOf : RefundStatus → ExecutionStatus
  | .succeeded => .executed
  | .manualRequired => .manualRequired
  | .failed => .failed
  | .pending => .pending

/-- `bookingOutcomeCauseForActor`. -/
def causeForActor : BookingActorType → OutcomeCause
  | .customer => .customer
  | .professional => .seller
  | .admin => .platform
  | .system => .platform

/-- The columns of `commerce.order_outcome_terms` a decision reads. -/
structure OrderOutcomeTerms where
  policyKey : String
  policyVersion : ℤ
  cutoffHours : ℤ
  lateCancellationRetention : RetentionRule
  noShowRetention : RetentionRule
  legalCap : Option RetentionRule

/-- A row of `commerce.booking_outcome_decisions` of the kind `cancellation`. -/
structure BookingOutcomeDecision where
  id : Uuid
  bookingId : Uuid
  orderId : Uuid
  cause : OutcomeCause
  eventInstant : Instant
  bookingWasConfirmed : Bool
  policyKey : Option String
  policyVersion : Option ℤ
  cutoffInstant : Option Instant
  timely : Option Bool
  collectedRemainingToman : ℤ
  policyAmountToman : ℤ
  legalCapToman : Option ℤ
  legalCapState : LegalCapState
  retainedToman : ℤ
  refundToman : ℤ
  basis : OutcomeBasis
  executionStatus : ExecutionStatus
  refundRequestKey : RequestKey
  deriving DecidableEq

/-- `CustomerRemedyChoiceOption`. -/
inductive RemedyOption where
  | refund
  | reschedule
  deriving DecidableEq

/-- `CustomerRemedyResolvedBy`. -/
inductive RemedyResolvedBy where
  | customer
  | byDefault
  deriving DecidableEq

/-- A row of `commerce.customer_remedy_choices`. -/
structure RemedyChoice where
  chosen : Option RemedyOption
  resolvedBy : RemedyResolvedBy

/-- The rows about one booking and its order that decisions read and write. -/
structure OutcomeStore where
  booking : BookingStore
  order : OrderStore
  payment : PaymentStore
  terms : Option OrderOutcomeTerms
  /-- The booking's live decision. -/
  decision : Option BookingOutcomeDecision
  remedy : Option RemedyChoice

/-! ## The cancellation decision -/

def neverCollectedStatuses : List OrderStatus := [.pending, .onlineCollectionNotRequired]

def bookingCancellationRefundReason : String := "رزرو مرتبط لغو شد — بازگشت خودکار وجه."

/-- The refund `executeDecision` asks for. -/
def executionRefund (decision : BookingOutcomeDecision) : RequestRefundInput where
  orderId := decision.orderId
  amountToman := .ofInt decision.refundToman
  reason := bookingCancellationRefundReason
  requestKey := decision.refundRequestKey
  actorType := .system
  actorId := none
  kind := .order
  paymentAttemptId := none

/-- The causes that offer the customer a remedy. -/
def remedyCauses : List OutcomeCause := [.seller, .platform, .provider]

/-- `legalCapState` of `termsFor`: the evidence is only asked about a cap there is. -/
def OrderOutcomeTerms.legalCapState (terms : OrderOutcomeTerms) (evidence : LegalCapState) :
    LegalCapState :=
  if terms.legalCap.isNone then .absent else evidence

/-- What the evaluator is asked. -/
def evaluationInput (terms : Option OrderOutcomeTerms) (evidence : LegalCapState)
    (facts : BookingCancellationFacts) (collectedRemainingToman : ℤ) : EvaluationInput where
  cause := causeForActor facts.cancelledByActorType
  bookingWasConfirmed := facts.wasConfirmed
  timely := terms.bind fun _ => facts.timely
  collectedRemainingToman := collectedRemainingToman
  terms := terms.map fun t => ⟨t.lateCancellationRetention, t.noShowRetention, t.legalCap⟩
  legalCapState := (terms.map (·.legalCapState evidence)).getD .absent

/-- The decision on a cancellation, as it is stored. -/
def cancellationRow (decisionId bookingId : Uuid) (order : OrderEntity)
    (terms : Option OrderOutcomeTerms) (facts : BookingCancellationFacts)
    (collectedRemainingToman : ℤ) (evaluation : Evaluation) (retainedToman refundToman : ℤ)
    (basis : OutcomeBasis) (executionStatus : ExecutionStatus) : BookingOutcomeDecision where
  id := decisionId
  bookingId := bookingId
  orderId := order.id
  cause := causeForActor facts.cancelledByActorType
  eventInstant := facts.eventInstant
  bookingWasConfirmed := facts.wasConfirmed
  policyKey := terms.map (·.policyKey)
  policyVersion := terms.map (·.policyVersion)
  cutoffInstant := terms.bind fun _ => facts.cutoffInstant
  timely := terms.bind fun _ => facts.timely
  collectedRemainingToman := collectedRemainingToman
  policyAmountToman := evaluation.policyAmountToman
  legalCapToman := evaluation.legalCapToman
  legalCapState := evaluation.legalCapState
  retainedToman := retainedToman
  refundToman := refundToman
  basis := basis
  executionStatus := executionStatus
  refundRequestKey := .bookingCancelled bookingId

/-- What is collected and neither refunded nor committed to a refund. -/
def collectedRemaining (order : OrderEntity) (otherCommittedToman : ℤ) : ℤ :=
  let committed :=
    if order.refundedTotalToman > otherCommittedToman then order.refundedTotalToman
    else otherCommittedToman
  if order.collectedTotalToman > committed then order.collectedTotalToman - committed else 0

/-- What is to be refunded by the order's kept terms. -/
def evaluateCancellation (decisionId bookingId : Uuid) (order : OrderEntity)
    (terms : Option OrderOutcomeTerms) (evidence : LegalCapState)
    (facts : BookingCancellationFacts) (otherCommittedToman : ℤ) :
    Option BookingOutcomeDecision :=
  let remaining := collectedRemaining order otherCommittedToman
  match evaluateBookingOutcome (evaluationInput terms evidence facts remaining) with
  | none => none
  | some evaluation =>
    some (cancellationRow decisionId bookingId order terms facts remaining evaluation
      evaluation.retainedToman evaluation.refundToman evaluation.basis
      (if 0 < evaluation.refundToman then .pending else .executed))

/-- A refund that is there already is taken over. -/
def adoptExistingRefund (decisionId bookingId : Uuid) (order : OrderEntity)
    (terms : Option OrderOutcomeTerms) (evidence : LegalCapState)
    (facts : BookingCancellationFacts) (keyRefund : RefundEntity) :
    Option BookingOutcomeDecision :=
  match evaluateBookingOutcome (evaluationInput terms evidence facts keyRefund.amountToman) with
  | none => none
  | some evaluation =>
    some (cancellationRow decisionId bookingId order terms facts keyRefund.amountToman evaluation
      0 keyRefund.amountToman .preExistingRefund
      (if 0 < keyRefund.amountToman then executionStatusOf keyRefund.status else .executed))

def lockOrderForBooking (s : OrderStore) (bookingId : Uuid) : Option OrderEntity :=
  match s.order with
  | some o => if o.sourceType = .booking ∧ o.sourceId = bookingId then some o else none
  | none => none

/-- The refund of `orderRefundCommitments` under the key. -/
def keyRefund (s : PaymentStore) (orderId : Uuid) (requestKey : RequestKey) :
    Option RefundEntity :=
  s.refunds.find? fun r => r.orderId = orderId ∧ r.kind = .order ∧ r.requestKey = requestKey

/-- `otherCommittedToman` of `orderRefundCommitments`. -/
def otherCommittedToman (s : PaymentStore) (orderId : Uuid) (requestKey : RequestKey) : ℤ :=
  sumWhere (fun r => r.orderId = orderId ∧ r.kind = .order ∧ r.requestKey ≠ requestKey ∧
    r.status ≠ .failed) (·.amountToman) s.refunds

namespace OutcomeStore

/-- The decision the facts give. -/
def newDecision (s : OutcomeStore) (bookingId decisionId : Uuid) (order : OrderEntity)
    (evidence : LegalCapState) (facts : BookingCancellationFacts) :
    Option BookingOutcomeDecision :=
  match keyRefund s.payment order.id (.bookingCancelled bookingId) with
  | some r => adoptExistingRefund decisionId bookingId order s.terms evidence facts r
  | none => evaluateCancellation decisionId bookingId order s.terms evidence facts
      (otherCommittedToman s.payment order.id (.bookingCancelled bookingId))

/-- The writes of a new decision: the row, an order that never collected, the remedy. -/
def writeDecision (s : OutcomeStore) (order : OrderEntity) (decision : BookingOutcomeDecision)
    (now : Instant) : OutcomeStore :=
  { s with
    decision := some decision
    order :=
      if order.status ∈ neverCollectedStatuses then
        (s.order.cancel ("booking_cancelled:" ++ toString decision.bookingId) now).2
      else s.order
    remedy :=
      if decision.cause ∈ remedyCauses then some (s.remedy.getD ⟨none, .byDefault⟩)
      else s.remedy }

/-- `decideCancellation`: the decision, if there is one, and the store; `none` when it
throws. -/
def decideCancellation (s : OutcomeStore) (bookingId decisionId : Uuid)
    (evidence : LegalCapState) (now : Instant) :
    Option (Option BookingOutcomeDecision × OutcomeStore) :=
  match lockOrderForBooking s.order bookingId with
  | none => some (none, s)
  | some order =>
    match s.decision with
    | some live => some (some live, s)
    | none =>
      match s.booking.cancellationFacts (s.terms.map (·.cutoffHours)) with
      | none => some (none, s)
      | some facts =>
        match s.newDecision bookingId decisionId order evidence facts with
        | none => none
        | some decision => some (some decision, s.writeDecision order decision now)

/-- `recordExecution`: a compare-and-swap from `pending`. -/
def recordExecution (s : OutcomeStore) (decisionId : Uuid) (status : ExecutionStatus) :
    OutcomeStore :=
  { s with
    decision := s.decision.map fun d =>
      if d.id = decisionId ∧ d.executionStatus = .pending then { d with executionStatus := status }
      else d }

/-- The remedy was resolved to a reschedule. -/
def rescheduled (s : OutcomeStore) : Bool :=
  s.remedy.any fun choice => choice.chosen = some .reschedule

/-! ## The remedy -/

/-- The states that a decision may still leave. -/
def escapableExecutionStatuses : List ExecutionStatus := [.pending, .manualRequired]

/-- What the checks of `resolve` end in. -/
inductive RemedyCheck where
  | threw
  | unchanged
  | reschedule (newSlotId : Uuid)

/-- `resolve` up to the reschedule, holding the choice row. -/
def resolveRemedy (s : OutcomeStore) (bookingId : Uuid) (choice : RemedyOption)
    (newSlotId : Option Uuid) : RemedyCheck :=
  match lockOrderForBooking s.order bookingId, s.remedy with
  | some _, some current =>
    if current.resolvedBy = .customer ∨ choice ≠ .reschedule then .unchanged
    else
      match newSlotId, s.decision with
      | some newSlotId, some decision =>
        if decision.executionStatus ∈ escapableExecutionStatuses then .reschedule newSlotId
        else .threw
      | _, _ => .threw
  | _, _ => .threw

def resolveReschedule (choice : RemedyChoice) : RemedyChoice :=
  if choice.resolvedBy = .byDefault then ⟨some .reschedule, .customer⟩ else choice

/-- The rest of `resolve`: the move to a claimed slot and the resolution, or an exception. -/
def rescheduleRemedy (s : OutcomeStore) (slot : Option ClaimedSlot) (now : Instant) :
    Option OutcomeStore :=
  match s.booking.reschedule slot .customer true true now with
  | none => none
  | some booking => some { s with
      booking := booking
      remedy := s.remedy.map resolveReschedule }

/-! ## What each can do -/

variable {s s' : OutcomeStore} {bookingId decisionId : Uuid} {order : OrderEntity}
  {evidence : LegalCapState} {facts : BookingCancellationFacts} {now : Instant}

theorem decideCancellation_cases {decision : Option BookingOutcomeDecision}
    (h : s.decideCancellation bookingId decisionId evidence now = some (decision, s')) :
    (s' = s ∧ decision = none ∧ lockOrderForBooking s.order bookingId = none) ∨
      (s' = s ∧ decision = s.decision ∧ s.decision ≠ none) ∨
      (s' = s ∧ decision = none ∧ s.decision = none ∧
        s.booking.cancellationFacts (s.terms.map (·.cutoffHours)) = none) ∨
      ∃ order facts d, lockOrderForBooking s.order bookingId = some order ∧ s.decision = none ∧
        s.booking.cancellationFacts (s.terms.map (·.cutoffHours)) = some facts ∧
        s.newDecision bookingId decisionId order evidence facts = some d ∧
        decision = some d ∧ s' = s.writeDecision order d now := by
  unfold decideCancellation at h
  split at h
  · rename_i hlock
    cases h
    exact Or.inl ⟨rfl, rfl, hlock⟩
  · rename_i order hlock
    split at h
    · rename_i live hlive
      cases h
      exact Or.inr (Or.inl ⟨rfl, hlive.symm, by rw [hlive]; simp⟩)
    · rename_i hnone
      split at h
      · rename_i hfacts
        cases h
        exact Or.inr (Or.inr (Or.inl ⟨rfl, rfl, hnone, hfacts⟩))
      · rename_i facts hfacts
        split at h
        · cases h
        rename_i d hd
        cases h
        exact Or.inr (Or.inr (Or.inr ⟨order, facts, d, hlock, hnone, hfacts, hd, rfl, rfl⟩))

theorem collectedRemaining_unrefunded (hzero : order.refundedTotalToman = 0)
    (hpos : 0 < order.collectedTotalToman) :
    collectedRemaining order 0 = order.collectedTotalToman := by
  simp [collectedRemaining, hzero, hpos]

/-- The decision about an order nothing was refunded of: it splits what was collected, and
refunds all of it when it was not the customer who cancelled. -/
theorem newDecision_unrefunded {d : BookingOutcomeDecision}
    (h : s.newDecision bookingId decisionId order evidence facts = some d)
    (hrefs : s.payment.refunds = []) (hzero : order.refundedTotalToman = 0)
    (hpos : 0 < order.collectedTotalToman) :
    d.orderId = order.id ∧ d.refundRequestKey = .bookingCancelled bookingId ∧
      d.cause = causeForActor facts.cancelledByActorType ∧ 0 ≤ d.refundToman ∧
      (0 < d.refundToman → d.executionStatus = .pending) ∧
      (facts.cancelledByActorType ≠ .customer →
        d.refundToman = order.collectedTotalToman ∧ d.basis ≠ .capApplied) := by
  have hkey : keyRefund s.payment order.id (.bookingCancelled bookingId) = none := by
    simp [keyRefund, hrefs]
  have hother : otherCommittedToman s.payment order.id (.bookingCancelled bookingId) = 0 := by
    simp [otherCommittedToman, hrefs]
  rw [newDecision, hkey] at h
  rw [hother] at h
  unfold evaluateCancellation at h
  dsimp only at h
  split at h
  · cases h
  rename_i evaluation heval
  cases h
  have hremaining := collectedRemaining_unrefunded hzero hpos
  refine ⟨rfl, rfl, rfl, evaluate_refund_nonneg heval, ?_, ?_⟩
  · intro hrefund
    exact if_pos hrefund
  · intro hactor
    have hcust : causeForActor facts.cancelledByActorType ≠ .customer := by
      cases hcase : facts.cancelledByActorType <;> simp [causeForActor, hcase] at hactor ⊢
    have hnoShow : causeForActor facts.cancelledByActorType ≠ .noShow := by
      cases facts.cancelledByActorType <;> simp [causeForActor]
    obtain ⟨hrefund, hbasis⟩ := evaluate_nonCustomer heval hcust hnoShow
    exact ⟨hrefund.trans hremaining, hbasis⟩

theorem rescheduleRemedy_none (s : OutcomeStore) (now : Instant) :
    s.rescheduleRemedy none now = none := by
  unfold rescheduleRemedy BookingStore.reschedule
  cases s.booking.booking <;> rfl

theorem rescheduleRemedy_eq_some {slot : Option ClaimedSlot}
    (h : s.rescheduleRemedy slot now = some s') :
    ∃ booking, s.booking.reschedule slot .customer true true now = some booking ∧
      s' = { s with
        booking := booking
        remedy := s.remedy.map resolveReschedule } := by
  unfold rescheduleRemedy at h
  split at h
  · cases h
  rename_i booking hbook
  injection h with h
  exact ⟨booking, hbook, h.symm⟩

end OutcomeStore

end BeauClick.Outcome
