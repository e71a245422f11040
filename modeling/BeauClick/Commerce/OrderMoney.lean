import BeauClick.Lib.Runs
import BeauClick.Commerce.Order

/-!
# The money state machine of an order

Four operations write `status`, `collected_total_toman` and
`refunded_total_toman`.  This file runs them in any order and proves that the
status always says what the two amounts say.
-/

namespace BeauClick.Commerce

open Money Runs

/-- One call of an operation on the order, with all its arguments. -/
inductive OrderOp where
  | recordVerifiedCapture (verifiedAmountToman : JsNumber) (now : Instant)
  | confirmNoOnlineCollection
  | cancel (reason : String) (now : Instant)
  | recordRefund (amountToman : JsNumber) (refundId : Uuid) (now : Instant)

/-- The store after an operation: what it committed, or what it was when the
operation threw. -/
def OrderStore.committed {α : Type} (s : OrderStore) :
    Except OrderError (α × OrderStore) → OrderStore
  | .ok (_, s') => s'
  | .error _ => s

/-- One operation on the store. -/
def OrderStore.apply (s : OrderStore) : OrderOp → OrderStore
  | .recordVerifiedCapture verified now => s.committed (s.recordVerifiedCapture verified now)
  | .confirmNoOnlineCollection => s.committed s.confirmNoOnlineCollection
  | .cancel reason now => (s.cancel reason now).2
  | .recordRefund amount refundId now => s.committed (s.recordRefund amount refundId now)

/-- Running operations one after the other. -/
def OrderStore.step (s : OrderStore) (op : OrderOp) : Option OrderStore := some (s.apply op)

/-! ## The correspondence -/

/-- The number of capture events published about the order. -/
def captureCount (outbox : List CommerceEvent) : ℕ := outbox.countP CommerceEvent.isCapture

@[simp] theorem captureCount_append (xs ys : List CommerceEvent) :
    captureCount (xs ++ ys) = captureCount xs + captureCount ys := List.countP_append ..

open OrderStore

theorem captureCount_captureEvent (o : OrderEntity) (sch : OrderPaymentScheduleEntity)
    (now : Instant) : captureCount [OrderStore.captureEvent o sch now] = 1 := by
  unfold captureEvent
  split <;> rfl

/-- What the status of an order says about its amounts, and back. -/
structure MoneyState (o : OrderEntity) (sch : OrderPaymentScheduleEntity)
    (outbox : List CommerceEvent) : Prop where
  /-- Refunds never exceed the collection, nor the collection the total. -/
  bounds : 0 ≤ o.refundedTotalToman ∧ o.refundedTotalToman ≤ o.collectedTotalToman ∧
    o.collectedTotalToman ≤ o.totalToman
  /-- Only the scheduled amount is ever collected. -/
  collected : o.collectedTotalToman = 0 ∨ o.collectedTotalToman = sch.platformCollectibleToman
  paid : o.status = .paid ↔
    o.collectedTotalToman = o.totalToman ∧ o.refundedTotalToman = 0 ∧ o.collectedTotalToman ≠ 0
  completed : o.status = .onlineCollectionCompleted ↔
    0 < o.collectedTotalToman ∧ o.collectedTotalToman < o.totalToman ∧ o.refundedTotalToman = 0
  partiallyRefunded : o.status = .partiallyRefunded ↔
    0 < o.refundedTotalToman ∧ o.refundedTotalToman < o.collectedTotalToman
  refunded : o.status = .refunded ↔
    0 < o.refundedTotalToman ∧ o.refundedTotalToman = o.collectedTotalToman
  /-- Every other status means that no money moved. -/
  untouched : o.status ∉ [.paid, .onlineCollectionCompleted, .partiallyRefunded, .refunded] →
    o.collectedTotalToman = 0 ∧ o.refundedTotalToman = 0
  /-- At most one capture event, so never both kinds. -/
  published : captureCount outbox ≤ 1

/-- The status as a function of the amounts, for an order that collected something. -/
def collectedStatus (collected refunded total : ℤ) : OrderStatus :=
  if refunded = 0 then
    if collected = total then .paid else .onlineCollectionCompleted
  else if refunded = collected then .refunded else .partiallyRefunded

/-- The invariant of the run: nothing has been collected and the status is one
of the three that say so, or the scheduled amount was collected once and the status
is the one the amounts determine. -/
inductive MoneyInv (sch : OrderPaymentScheduleEntity) (o : OrderEntity)
    (outbox : List CommerceEvent) : Prop
  | uncollected (htotal : 0 ≤ o.totalToman) (hcollected : o.collectedTotalToman = 0)
      (hrefunded : o.refundedTotalToman = 0)
      (hstatus : o.status ∈ [.pending, .cancelled, .onlineCollectionNotRequired])
      (hcount : captureCount outbox = 0)
  | collected (hpos : 0 < o.collectedTotalToman) (htotal : o.collectedTotalToman ≤ o.totalToman)
      (hsch : o.collectedTotalToman = sch.platformCollectibleToman)
      (hlow : 0 ≤ o.refundedTotalToman) (hhigh : o.refundedTotalToman ≤ o.collectedTotalToman)
      (hstatus : o.status =
        collectedStatus o.collectedTotalToman o.refundedTotalToman o.totalToman)
      (hcount : captureCount outbox = 1)

variable {sch : OrderPaymentScheduleEntity} {o : OrderEntity} {now : Instant}

theorem MoneyInv.moneyState {outbox : List CommerceEvent} (h : MoneyInv sch o outbox) :
    MoneyState o sch outbox := by
  cases h with
  | uncollected htot hc hr hstat =>
    have hne : o.status ∉ [.paid, .onlineCollectionCompleted, .partiallyRefunded, .refunded] := by
      simp only [List.mem_cons, List.not_mem_nil, or_false] at hstat
      rcases hstat with h | h | h <;> rw [h] <;> decide
    simp only [List.mem_cons, List.not_mem_nil, or_false, not_or] at hne
    obtain ⟨h1, h2, h3, h4⟩ := hne
    refine ⟨by omega, Or.inl hc, ?_, ?_, ?_, ?_, fun _ => ⟨hc, hr⟩, by omega⟩
    · exact ⟨fun h => absurd h h1, fun h => absurd hc h.2.2⟩
    · exact ⟨fun h => absurd h h2, fun h => by omega⟩
    · exact ⟨fun h => absurd h h3, fun h => by omega⟩
    · exact ⟨fun h => absurd h h4, fun h => by omega⟩
  | collected hpos htot hsch hlow hhigh hstat =>
    have hcase : ∀ st : OrderStatus, o.status = st ↔
        collectedStatus o.collectedTotalToman o.refundedTotalToman o.totalToman = st := by
      intro st; rw [hstat]
    refine ⟨⟨hlow, hhigh, htot⟩, Or.inr hsch, ?_, ?_, ?_, ?_, fun hne => ?_, by omega⟩
    · rw [hcase, collectedStatus]; split_ifs <;> simp <;> omega
    · rw [hcase, collectedStatus]; split_ifs <;> simp <;> omega
    · rw [hcase, collectedStatus]; split_ifs <;> simp <;> omega
    · rw [hcase, collectedStatus]; split_ifs <;> simp <;> omega
    · exfalso
      rw [hstat, collectedStatus] at hne
      split_ifs at hne <;> simp at hne

/-! ## The step and the run -/

/-- The store holds one order under its schedule, and the invariant holds of them. -/
def StoreInv (s : OrderStore) : Prop :=
  ∃ o sch, s.order = some o ∧ s.schedule = some sch ∧ MoneyInv sch o s.outbox

variable {s s' : OrderStore}

section

variable (hinv : StoreInv s)
include hinv

theorem storeInv_capture {verified : JsNumber} {outcome : CaptureOutcome}
    (h : s.recordVerifiedCapture verified now = .ok (outcome, s')) : StoreInv s' := by
  obtain ⟨o, sch, ho, hsch, hm⟩ := hinv
  rcases recordVerifiedCapture_cases h with ⟨rfl, -⟩ | hcap
  · exact ⟨o, sch, ho, hsch, hm⟩
  · obtain ⟨_, _, _, -, ho₁, hsch₁, _, _, hpos, heq, hle, o', ho', -, rfl⟩ := hcap
    cases ho.symm.trans ho₁
    cases hsch.symm.trans hsch₁
    -- A pending order has collected nothing, so this is its first capture.
    cases hm with
    | collected => omega
    | uncollected htot hc hr hstat hcnt =>
      refine ⟨o', sch, rfl, hsch, ?_⟩
      subst ho'
      refine .collected hpos hle heq (by simp [hr]) (by simp [hr]; omega) ?_ ?_
      · simp [collectedStatus, hr]
      · simp [hcnt, captureCount_captureEvent]

theorem storeInv_confirm {outcome : ZeroCollectibleTransition}
    (h : s.confirmNoOnlineCollection = .ok (outcome, s')) : StoreInv s' := by
  obtain ⟨o, sch, ho, hsch, hm⟩ := hinv
  rcases confirmNoOnlineCollection_cases h with rfl | ⟨_, ho₁, hpend, rfl⟩
  · exact ⟨o, sch, ho, hsch, hm⟩
  · cases ho.symm.trans ho₁
    cases hm with
    | collected hpos _ _ _ _ hstat =>
      rw [hpend, collectedStatus] at hstat
      split_ifs at hstat
    | uncollected htot hc hr _ hcnt =>
      exact ⟨_, sch, rfl, hsch, .uncollected htot hc hr (by simp) hcnt⟩

theorem storeInv_cancel (reason : String) (now : Instant) :
    StoreInv (s.cancel reason now).2 := by
  obtain ⟨o, sch, ho, hsch, hm⟩ := hinv
  rcases cancel_cases s reason now with h | ⟨_, ho₁, hmem, h⟩ <;> rw [h]
  · exact ⟨o, sch, ho, hsch, hm⟩
  · cases ho.symm.trans ho₁
    cases hm with
    | collected hpos _ _ _ _ hstat =>
      rw [hstat, collectedStatus] at hmem
      split_ifs at hmem <;> simp [cancellableStatuses] at hmem
    | uncollected htot hc hr _ hcnt =>
      refine ⟨_, sch, rfl, hsch, .uncollected htot hc hr (by simp) ?_⟩
      simpa [captureCount, CommerceEvent.isCapture] using hcnt

theorem storeInv_refund {amount : ℤ} {refundId : Uuid} {b : Bool}
    (hpos : 0 < amount) (h : s.recordRefundWithin amount refundId now = .ok (b, s')) :
    StoreInv s' := by
  obtain ⟨o, sch, ho, hsch, hm⟩ := hinv
  rcases recordRefundWithin_cases h with rfl | ⟨_, ho₁, -, hroom, rfl⟩
  · exact ⟨o, sch, ho, hsch, hm⟩
  · cases ho.symm.trans ho₁
    cases hm with
    | uncollected => omega
    | collected hcpos htot hcol hlow hhigh _ hcnt =>
      refine ⟨_, sch, rfl, hsch, .collected hcpos htot hcol (by dsimp only; omega) hroom ?_ ?_⟩
      · dsimp only
        rw [collectedStatus, if_neg (by omega : o.refundedTotalToman + amount ≠ 0)]
        by_cases hfull : o.collectedTotalToman ≤ o.refundedTotalToman + amount
        · rw [if_pos hfull, if_pos (by omega)]
        · rw [if_neg hfull, if_neg (by omega)]
      · simpa [captureCount, CommerceEvent.isCapture] using hcnt

end

theorem OrderStore.committed_keeps {α : Type} {P : OrderStore → Prop}
    {r : Except OrderError (α × OrderStore)} (h0 : P s) (hok : ∀ a s', r = .ok (a, s') → P s') :
    P (s.committed r) := by
  cases r with
  | ok r => exact hok r.1 r.2 rfl
  | error => exact h0

theorem storeInv_apply (op : OrderOp) (hinv : StoreInv s) : StoreInv (s.apply op) := by
  cases op with
  | recordVerifiedCapture =>
    exact committed_keeps hinv fun _ _ h => storeInv_capture hinv h
  | confirmNoOnlineCollection =>
    exact committed_keeps hinv fun _ _ h => storeInv_confirm hinv h
  | cancel reason now => exact storeInv_cancel hinv reason now
  | recordRefund =>
    refine committed_keeps hinv fun b s' h => ?_
    rcases recordRefund_cases h with rfl | ⟨_, hpos, hw⟩
    · exact hinv
    · exact storeInv_refund hinv hpos hw

/-- The row of an order that was just created, under its schedule. -/
structure Created (s : OrderStore) (o : OrderEntity) (sch : OrderPaymentScheduleEntity) : Prop where
  order : s.order = some o
  schedule : s.schedule = some sch
  pending : o.status = .pending
  total : 0 ≤ o.totalToman
  uncollected : o.collectedTotalToman = 0
  unrefunded : o.refundedTotalToman = 0
  unpublished : captureCount s.outbox = 0

theorem Created.storeInv (h : Created s o sch) : StoreInv s :=
  ⟨o, sch, h.order, h.schedule,
    .uncollected h.total h.uncollected h.unrefunded (by simp [h.pending]) h.unpublished⟩

theorem schedule_apply (s : OrderStore) (op : OrderOp) : (s.apply op).schedule = s.schedule := by
  cases op with
  | recordVerifiedCapture =>
    refine committed_keeps (P := fun t => t.schedule = s.schedule) rfl fun _ s' h => ?_
    rcases recordVerifiedCapture_cases h with ⟨heq, -⟩ | hcap
    · rw [heq]
    · obtain ⟨_, _, _, _, _, _, _, _, _, _, _, _, _, _, heq⟩ := hcap
      rw [heq]
  | confirmNoOnlineCollection =>
    refine committed_keeps (P := fun t => t.schedule = s.schedule) rfl fun _ s' h => ?_
    rcases confirmNoOnlineCollection_cases h with heq | ⟨_, _, _, heq⟩ <;> rw [heq]
  | cancel reason now =>
    rcases cancel_cases s reason now with h | ⟨_, _, _, h⟩ <;>
      rw [apply, h]
  | recordRefund =>
    refine committed_keeps (P := fun t => t.schedule = s.schedule) rfl fun _ s' h => ?_
    rcases recordRefund_cases h with heq | ⟨_, _, hw⟩
    · rw [heq]
    · rcases recordRefundWithin_cases hw with heq | ⟨_, _, _, _, heq⟩ <;> rw [heq]

/-- **The status of an order always says what its amounts say.**  After any run
of the four operations on a created order, the order is still there, the
correspondence holds against the schedule it was created with, and at most one
capture event was published. -/
theorem moneyState_run {s s' : OrderStore} {o : OrderEntity} {sch : OrderPaymentScheduleEntity}
    {ops : List OrderOp} (hnew : Created s o sch) (hrun : runFrom OrderStore.step s ops = some s') :
    ∃ o', s'.order = some o' ∧ MoneyState o' sch s'.outbox := by
  have hkeep : StoreInv s' ∧ s'.schedule = some sch := by
    refine runFrom_invariant (I := fun t => StoreInv t ∧ t.schedule = some sch) ?_
      ⟨hnew.storeInv, hnew.schedule⟩ hrun
    rintro t op t' ⟨hinv, hsch⟩ ht
    cases ht
    exact ⟨storeInv_apply op hinv, by rw [schedule_apply, hsch]⟩
  obtain ⟨⟨o', _, ho', hsch', hm⟩, hsch⟩ := hkeep
  cases hsch'.symm.trans hsch
  exact ⟨o', ho', hm.moneyState⟩

/-- An order of 100 Toman, of which 40 are collected online. -/
def sampleOrder : OrderEntity where
  id := 1
  sourceType := .booking
  sourceId := 2
  customerId := 3
  sellerPartyType := .professional
  sellerPartyId := 4
  status := .pending
  totalToman := 100
  refundedTotalToman := 0
  collectedTotalToman := 0
  paidAt := none
  cancelledAt := none

theorem sampleOrder_created :
    Created ⟨some sampleOrder, some ⟨100, 40, 60⟩, []⟩ sampleOrder ⟨100, 40, 60⟩ where
  order := rfl
  schedule := rfl
  pending := rfl
  total := by decide
  uncollected := rfl
  unrefunded := rfl
  unpublished := rfl

/-- A deposit captured, replayed, and refunded in two parts. -/
def sampleOps : List OrderOp :=
  [.recordVerifiedCapture (.ofInt 40) 10, .recordVerifiedCapture (.ofInt 40) 11,
    .recordRefund (.ofInt 15) 7 12, .recordRefund (.ofInt 25) 8 13]

theorem moneyState_run_sample :
    ∃ s' o', runFrom OrderStore.step ⟨some sampleOrder, some ⟨100, 40, 60⟩, []⟩ sampleOps =
        some s' ∧ s'.order = some o' ∧ MoneyState o' ⟨100, 40, 60⟩ s'.outbox := by
  obtain ⟨s', hrun⟩ : ∃ s', runFrom OrderStore.step
      ⟨some sampleOrder, some ⟨100, 40, 60⟩, []⟩ sampleOps = some s' := ⟨_, rfl⟩
  obtain ⟨o', ho', hm⟩ := moneyState_run sampleOrder_created hrun
  exact ⟨s', o', hrun, ho', hm⟩

end BeauClick.Commerce
