import BeauClick.Commerce.OrderMoney

/-!
# What the events of an order tell

A consumer of the outbox knows an order by its events only.

* `OrderView.apply` — what one event adds to what is known.
* `told_run` — every event follows from those before it, and together they tell the row.
-/

namespace BeauClick.Commerce

open Money Runs OrderStore

/-- What is known of an order. -/
structure OrderView where
  collected : ℤ
  refunded : ℤ
  cancelled : Bool

namespace OrderView

/-- What one event does to the view of an order. -/
def apply (v : OrderView) : CommerceEvent → OrderView
  | .orderPaid _ _ _ _ _ _ totalToman _ => { v with collected := v.collected + totalToman }
  | .orderCollectionCaptured _ _ _ _ _ _ _ platformCollectedToman _ _ =>
    { v with collected := v.collected + platformCollectedToman }
  | .orderCancelled .. => { v with cancelled := true }
  | .orderRefunded _ _ refundAmountToman _ _ =>
    { v with refunded := v.refunded + refundAmountToman }

def initial : OrderView := ⟨0, 0, false⟩

/-- The event can come next: money is captured once and not after a cancellation, and a refund
is within it and has the right sum. -/
def Fits (v : OrderView) : CommerceEvent → Prop
  | .orderPaid _ _ _ _ _ _ totalToman _ => v = initial ∧ 0 < totalToman
  | .orderCollectionCaptured _ _ _ _ _ _ _ platformCollectedToman _ _ =>
    v = initial ∧ 0 < platformCollectedToman
  | .orderCancelled .. => v = initial
  | .orderRefunded _ _ refundAmountToman refundedTotalToman _ =>
    v.cancelled = false ∧ 0 < refundAmountToman ∧
      refundedTotalToman = v.refunded + refundAmountToman ∧ refundedTotalToman ≤ v.collected

/-- Each of the events can come next. -/
def Follows (v : OrderView) : List CommerceEvent → Prop
  | [] => True
  | e :: es => v.Fits e ∧ (v.apply e).Follows es

theorem follows_concat (v : OrderView) (es : List CommerceEvent) (e : CommerceEvent) :
    v.Follows (es ++ [e]) ↔ v.Follows es ∧ (es.foldl apply v).Fits e := by
  induction es generalizing v with
  | nil => simp [Follows]
  | cons e' es ih => simp [Follows, ih, and_assoc]

end OrderView

open OrderView

def OrderEntity.view (o : OrderEntity) : OrderView :=
  ⟨o.collectedTotalToman, o.refundedTotalToman, o.status = .cancelled⟩

/-- The events tell the row. -/
def Tells (outbox : List CommerceEvent) (o : OrderEntity) : Prop :=
  initial.Follows outbox ∧ outbox.foldl OrderView.apply initial = o.view

variable {o o' : OrderEntity} {sch : OrderPaymentScheduleEntity} {outbox : List CommerceEvent}
  {e : CommerceEvent} {s s' : OrderStore} {now : Instant}

theorem Tells.concat (h : Tells outbox o) (hfits : o.view.Fits e)
    (hview : o.view.apply e = o'.view) : Tells (outbox ++ [e]) o' := by
  refine ⟨(follows_concat ..).2 ⟨h.1, ?_⟩, ?_⟩
  · rw [h.2]
    exact hfits
  · rw [List.foldl_append, h.2]
    exact hview

theorem MoneyInv.view_eq (h : MoneyInv sch o outbox) (hstat : o.status ∈ cancellableStatuses) :
    o.view = initial := by
  have hunt := h.moneyState.untouched
  simp only [cancellableStatuses, List.mem_cons, List.not_mem_nil, or_false] at hstat
  rcases hstat with hstat | hstat
  all_goals
    rw [hstat] at hunt
    obtain ⟨hcoll, hrefd⟩ := hunt (by decide)
    simp [OrderEntity.view, initial, hcoll, hrefd, hstat]

/-- The store holds an order that its events tell. -/
def Told (s : OrderStore) : Prop := ∃ o, s.order = some o ∧ Tells s.outbox o

section

variable (hinv : StoreInv s) (htold : Told s)
include hinv htold

theorem told_capture {verified : JsNumber} {outcome : CaptureOutcome}
    (h : s.recordVerifiedCapture verified now = .ok (outcome, s')) : Told s' := by
  obtain ⟨o, ho, htells⟩ := htold
  obtain ⟨_, _, ho₁, -, hmoney⟩ := hinv
  cases ho.symm.trans ho₁
  rcases recordVerifiedCapture_cases h with ⟨rfl, -⟩ | hcap
  · exact ⟨o, ho, htells⟩
  obtain ⟨amount, _, _, -, ho₂, -, hpend, -, hpos, -, -, o', ho', -, rfl⟩ := hcap
  cases ho.symm.trans ho₂
  have hview := hmoney.view_eq (by simp [hpend, cancellableStatuses])
  have hrefd : o.refundedTotalToman = 0 := congrArg OrderView.refunded hview
  refine ⟨o', rfl, htells.concat ?_ ?_⟩ <;> rw [hview, captureEvent] <;> subst ho' <;>
    by_cases hall : amount = o.totalToman
  · simpa [hall, Fits] using hall ▸ hpos
  · simpa [hall, Fits] using hpos
  · simp [hall, OrderView.apply, OrderEntity.view, initial, hrefd]
  · simp [hall, OrderView.apply, OrderEntity.view, initial, hrefd]

theorem told_confirm {outcome : ZeroCollectibleTransition}
    (h : s.confirmNoOnlineCollection = .ok (outcome, s')) : Told s' := by
  obtain ⟨o, ho, htells⟩ := htold
  rcases confirmNoOnlineCollection_cases h with rfl | ⟨_, ho₁, hpend, rfl⟩
  · exact ⟨o, ho, htells⟩
  · cases ho.symm.trans ho₁
    exact ⟨_, rfl, htells.1, htells.2.trans (by simp [OrderEntity.view, hpend])⟩

theorem told_cancel (reason : String) (now : Instant) : Told (s.cancel reason now).2 := by
  obtain ⟨o, ho, htells⟩ := htold
  obtain ⟨_, _, ho₁, -, hmoney⟩ := hinv
  cases ho.symm.trans ho₁
  rcases cancel_cases s reason now with h | ⟨_, ho₂, hmem, h⟩ <;> rw [h]
  · exact ⟨o, ho, htells⟩
  · cases ho.symm.trans ho₂
    have hview := hmoney.view_eq hmem
    refine ⟨_, rfl, htells.concat hview ?_⟩
    have hcoll : o.collectedTotalToman = 0 := congrArg OrderView.collected hview
    have hrefd : o.refundedTotalToman = 0 := congrArg OrderView.refunded hview
    simp [OrderView.apply, OrderEntity.view, hcoll, hrefd]

theorem told_refund {amount : ℤ} {refundId : Uuid} {b : Bool} (hpos : 0 < amount)
    (h : s.recordRefundWithin amount refundId now = .ok (b, s')) : Told s' := by
  obtain ⟨o, ho, htells⟩ := htold
  rcases recordRefundWithin_cases h with rfl | ⟨_, ho₁, hmem, hroom, rfl⟩
  · exact ⟨o, ho, htells⟩
  · cases ho.symm.trans ho₁
    have hlive : o.status ≠ .cancelled := by
      rintro hcanc
      rw [hcanc] at hmem
      exact absurd hmem (by decide)
    refine ⟨_, rfl, htells.concat ⟨decide_eq_false hlive, hpos, rfl, hroom⟩ ?_⟩
    simp only [OrderView.apply, OrderEntity.view, hlive, OrderView.mk.injEq, true_and]
    split_ifs <;> simp

theorem told_apply (op : OrderOp) : Told (s.apply op) := by
  cases op with
  | recordVerifiedCapture =>
    exact committed_keeps htold fun _ _ h => told_capture hinv htold h
  | confirmNoOnlineCollection =>
    exact committed_keeps htold fun _ _ h => told_confirm hinv htold h
  | cancel reason now => exact told_cancel hinv htold reason now
  | recordRefund =>
    refine committed_keeps htold fun b s' h => ?_
    rcases recordRefund_cases h with rfl | ⟨_, hpos, hw⟩
    · exact htold
    · exact told_refund hinv htold hpos hw

end

/-- After any run of the operations on a created order, its events follow one from another and add
up to the row. -/
theorem told_run {ops : List OrderOp} (hnew : Created s o sch) (hempty : s.outbox = [])
    (hrun : runFrom OrderStore.step s ops = some s') :
    ∃ o', s'.order = some o' ∧ initial.Follows s'.outbox ∧
      s'.outbox.foldl OrderView.apply initial = o'.view := by
  have htold : Told s := by
    refine ⟨o, hnew.order, ?_⟩
    rw [hempty]
    refine ⟨trivial, ?_⟩
    simp [OrderEntity.view, initial, hnew.uncollected, hnew.unrefunded, hnew.pending]
  refine (runFrom_invariant (I := fun t => StoreInv t ∧ Told t) ?_ ⟨hnew.storeInv, htold⟩ hrun).2
  rintro t op t' ⟨hinv, ht⟩ hstep
  cases hstep
  exact ⟨storeInv_apply op hinv, told_apply hinv ht op⟩

theorem told_run_sample : ∃ s' o', runFrom OrderStore.step
      ⟨some sampleOrder, some ⟨100, 40, 60⟩, []⟩ sampleOps = some s' ∧ s'.order = some o' ∧
    initial.Follows s'.outbox ∧ s'.outbox.foldl OrderView.apply initial = o'.view := by
  obtain ⟨s', hrun⟩ : ∃ s', runFrom OrderStore.step
      ⟨some sampleOrder, some ⟨100, 40, 60⟩, []⟩ sampleOps = some s' := ⟨_, rfl⟩
  obtain ⟨o', ho', htells⟩ := told_run sampleOrder_created rfl hrun
  exact ⟨s', o', hrun, ho', htells⟩

end BeauClick.Commerce
