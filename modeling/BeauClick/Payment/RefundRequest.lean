import BeauClick.Payment.Store

/-!
# Asking for a refund

`PaymentService.refund` as the two transactions that write: the one that inserts the row
and the one that completes it.  What a call reads before it takes the lock (the key's
refund, the succeeded intent, the attempt) is never taken back, and the lock covers the
rest, so a caller may take each phase as one step.
-/

namespace BeauClick.Payment

open Money Table

/-- What the first phase of `refund` ends in. -/
inductive RefundRequest where
  | existing (r : RefundEntity)
  | inserted (s : PaymentStore) (r : RefundEntity)
  | threw

/-- What a gateway answers a refund with. -/
inductive RefundAnswer where
  | noRefundApi
  | answered (succeeded : Bool) (providerRefundReference failureCode : Option String)

/-- The status the answer completes the refund with. -/
def RefundAnswer.status : RefundAnswer → RefundStatus
  | .noRefundApi => .manualRequired
  | .answered true _ _ => .succeeded
  | .answered false _ _ => .failed

namespace PaymentStore

/-- The first phase of `refund`, `refundId` being the id it draws. -/
def requestRefund (s : PaymentStore) (input : RequestRefundInput) (refundId : Uuid) :
    RefundRequest :=
  match assertNonNegativeAmount input.amountToman with
  | .error _ => .threw
  | .ok amountToman =>
    match s.findRefund input.orderId input.requestKey with
    | some r => .existing r
    | none =>
      match s.findSucceededIntent input.orderId with
      | none => .threw
      | some intent =>
        let attempt := s.refundAttempt input intent
        let row := pendingRefund input amountToman intent attempt refundId
        if s.withinCaptured intent attempt input.kind input.orderId amountToman then
          match s.insertRefund row with
          | .inserted s' => .inserted s' row
          | .uniqueViolation | .checkViolation => .threw
        else .threw

/-- The last phase of `refund`, with what the gateway answered. -/
def recordAnswer (s : PaymentStore) (refundId : Uuid) (answer : RefundAnswer) (now : Instant) :
    PaymentStore :=
  match answer with
  | .noRefundApi =>
    s.completeRefund refundId answer.status none (some "gateway_has_no_refund_api") now
  | .answered _ providerRefundReference failureCode =>
    s.completeRefund refundId answer.status (fitToColumn providerRefundReference 128)
      (fitToColumn failureCode 60) now

variable {s s' : PaymentStore} {input : RequestRefundInput} {amountToman : ℤ}
  {refundId orderId : Uuid} {requestKey : RequestKey} {intent : PaymentIntentEntity}

/-! ## What each phase can do -/

theorem findRefund_eq_some {r : RefundEntity} (h : s.findRefund orderId requestKey = some r) :
    r ∈ s.refunds ∧ r.orderId = orderId ∧ r.requestKey = requestKey := by
  have hmatch := List.find?_some h
  rw [decide_eq_true_eq] at hmatch
  exact ⟨List.mem_of_find?_eq_some h, hmatch⟩

theorem findRefund_eq_none :
    s.findRefund orderId requestKey = none ↔
      ∀ r ∈ s.refunds, r.orderId = orderId → r.requestKey ≠ requestKey := by
  rw [findRefund, List.find?_eq_none]
  simp only [decide_eq_true_eq, not_and]

theorem findSucceededIntent_eq_some (h : s.findSucceededIntent orderId = some intent) :
    intent ∈ s.intents ∧ intent.orderId = orderId ∧ intent.status = .succeeded := by
  have hmatch := List.find?_some h
  rw [decide_eq_true_eq] at hmatch
  exact ⟨List.mem_of_find?_eq_some h, hmatch⟩

theorem requestRefund_cases {request : RefundRequest}
    (h : s.requestRefund input refundId = request) :
    request = .threw ∨
      (∃ r, request = .existing r ∧ s.findRefund input.orderId input.requestKey = some r) ∨
      ∃ amount intent, assertNonNegativeAmount input.amountToman = .ok amount ∧
        s.findRefund input.orderId input.requestKey = none ∧
        s.findSucceededIntent input.orderId = some intent ∧
        request = .inserted
          { s with refunds := s.refunds ++
              [pendingRefund input amount intent (s.refundAttempt input intent) refundId] }
          (pendingRefund input amount intent (s.refundAttempt input intent) refundId) := by
  subst h
  unfold requestRefund
  split
  · exact Or.inl rfl
  · rename_i amount hamt
    split
    · rename_i r hr
      exact Or.inr (Or.inl ⟨r, rfl, hr⟩)
    · rename_i hnone
      split
      · exact Or.inl rfl
      · rename_i intent hintent
        dsimp only
        split
        · split
          · rename_i s' hins
            right; right
            refine ⟨amount, intent, hamt, hnone, hintent, ?_⟩
            rw [(insertRefund_eq_inserted.1 hins).2.2]
          · exact Or.inl rfl
          · exact Or.inl rfl
        · exact Or.inl rfl

theorem requestRefund_eq_inserted
    (hamt : assertNonNegativeAmount input.amountToman = .ok amountToman) (hpos : 0 < amountToman)
    (hfresh : ∀ r ∈ s.refunds, r.id ≠ refundId)
    (hfind : s.findRefund input.orderId input.requestKey = none)
    (hintent : s.findSucceededIntent input.orderId = some intent)
    (hwithin : s.withinCaptured intent (s.refundAttempt input intent) input.kind input.orderId
      amountToman = true) :
    s.requestRefund input refundId = .inserted
      { s with refunds := s.refunds ++
          [pendingRefund input amountToman intent (s.refundAttempt input intent) refundId] }
      (pendingRefund input amountToman intent (s.refundAttempt input intent) refundId) := by
  have hrow : s.insertRefund (pendingRefund input amountToman intent
      (s.refundAttempt input intent) refundId) = .inserted { s with refunds := s.refunds ++
        [pendingRefund input amountToman intent (s.refundAttempt input intent) refundId] } := by
    refine insertRefund_eq_inserted.2 ⟨hpos, ?_, rfl⟩
    intro r hr
    exact ⟨hfresh r hr, fun hkey => findRefund_eq_none.1 hfind r hr hkey.1 hkey.2⟩
  simp only [requestRefund, hamt, hfind, hintent, hwithin, if_true, hrow]

@[simp] theorem recordAnswer_intents (answer : RefundAnswer) (now : Instant) :
    (s.recordAnswer refundId answer now).intents = s.intents := by
  cases answer <;> simp [recordAnswer]

@[simp] theorem recordAnswer_attempts (answer : RefundAnswer) (now : Instant) :
    (s.recordAnswer refundId answer now).attempts = s.attempts := by
  cases answer <;> simp [recordAnswer]

theorem recordAnswer_refunds (s : PaymentStore) (refundId : Uuid) (answer : RefundAnswer)
    (now : Instant) :
    ∃ providerRefundReference failureCode, (s.recordAnswer refundId answer now).refunds =
      updateWhere (fun r => r.id = refundId ∧ r.status = .pending)
        (completedRefund answer.status providerRefundReference failureCode now) s.refunds := by
  cases answer with
  | noRefundApi | answered => exact ⟨_, _, completeRefund_refunds ..⟩

end PaymentStore

end BeauClick.Payment
