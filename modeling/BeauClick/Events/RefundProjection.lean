import BeauClick.Commerce.OrderMoney
import BeauClick.Lib.Delivery

/-!
# The order's refund projection

`RefundCompletedCommerceHandler` in
`apps/api/src/events/financial-projection.handlers.ts` counts completed refunds on
the order.  The outbox relay delivers each `RefundCompleted` at least once, in any
order, and again whenever a row was not marked published.
-/

namespace BeauClick.Events

open Money Commerce Runs Delivery

/-- `kind` of the event. -/
inductive RefundCompletedKind where
  | order
  | duplicateCharge
  deriving DecidableEq

/-- The payload of `RefundCompleted`. -/
structure RefundCompleted where
  refundId : Uuid
  orderId : Uuid
  amountToman : ℤ
  kind : RefundCompletedKind
  deriving DecidableEq

/-- The order counts the refund of the event. -/
def RefundCompleted.handle (payload : RefundCompleted) (s : OrderStore) (now : Instant) :
    Except OrderError OrderStore :=
  if payload.kind = .duplicateCharge then .ok s
  else
    match s.order with
    | none => .ok s
    | some o =>
      if o.collectedTotalToman ≤ o.refundedTotalToman then .ok s
      else
        match s.recordRefund (.ofInt payload.amountToman) payload.refundId now with
        | .error err => .error err
        | .ok (_, s') => .ok s'

/-! ## Deliveries -/

/-- The order, and the distinct refunds whose event has been delivered. -/
structure RefundProjection where
  store : OrderStore
  delivered : List RefundCompleted

/-- A refund event as it is delivered. -/
structure RefundDelivery where
  payload : RefundCompleted
  now : Instant

/-- One delivery of an event of `refunds`.  A handler that throws writes nothing,
and its row stays unpublished. -/
def RefundProjection.step (refunds : List RefundCompleted) (s : RefundProjection)
    (d : RefundDelivery) : Option RefundProjection :=
  if d.payload ∈ refunds then
    some {
      store :=
        match d.payload.handle s.store d.now with
        | .ok store => store
        | .error _ => s.store
      delivered := remember d.payload s.delivered }
  else none

/-- What the distinct refunds delivered so far amount to. -/
def RefundProjection.deliveredToman (s : RefundProjection) : ℤ :=
  (s.delivered.map (·.amountToman)).sum

/-- The order has counted the distinct refunds delivered so far, and its status is
the one that sum implies. -/
def RefundProjection.Projected (s : RefundProjection) : Prop :=
  ∃ o, s.store.order = some o ∧ o.refundedTotalToman = s.deliveredToman ∧
    o.status = collectedStatus o.collectedTotalToman o.refundedTotalToman o.totalToman

/-- **The condition.**  A refund that was delivered before finds no room on the
order: counting it again would exceed what was collected. -/
def RefundProjection.NoRoomForRedelivery (s : RefundProjection) (d : RefundDelivery) : Prop :=
  d.payload ∈ s.delivered → ∀ o, s.store.order = some o →
    o.collectedTotalToman < o.refundedTotalToman + d.payload.amountToman

/-- The succeeded order refunds of an order: different rows, positive amounts that
`refund` let through, and together no more than the collection. -/
structure SucceededRefunds (collectedToman : ℤ) (refunds : List RefundCompleted) : Prop where
  distinct : refunds.Nodup
  kind : ∀ r ∈ refunds, r.kind = .order
  positive : ∀ r ∈ refunds, 0 < r.amountToman
  bounded : ∀ r ∈ refunds, r.amountToman ≤ maxAmountToman
  ceiling : (refunds.map (·.amountToman)).sum ≤ collectedToman

/-- An order that collected its money and has counted no refund yet. -/
structure Collected (s : OrderStore) (o : OrderEntity) : Prop where
  order : s.order = some o
  positive : 0 < o.collectedTotalToman
  unrefunded : o.refundedTotalToman = 0
  status : o.status = collectedStatus o.collectedTotalToman 0 o.totalToman

/-! ## One delivery -/

variable {s : RefundProjection} {o : OrderEntity}

/-- What the handler does with an order refund: nothing once everything is refunded,
else what `recordRefund` does with it. -/
theorem handle_eq {payload : RefundCompleted} {s : OrderStore} (now : Instant)
    (hord : s.order = some o) (hkind : payload.kind = .order) (hpos : 0 < payload.amountToman)
    (hmax : payload.amountToman ≤ maxAmountToman)
    (hopen : o.refundedTotalToman < o.collectedTotalToman → o.status ∈ refundableStatuses) :
    (o.collectedTotalToman < o.refundedTotalToman + payload.amountToman ∧
        (match payload.handle s now with
          | .ok store => store
          | .error _ => s) = s) ∨
      (o.refundedTotalToman + payload.amountToman ≤ o.collectedTotalToman ∧
        ∃ store, payload.handle s now = .ok store ∧ store.order = some { o with
          refundedTotalToman := o.refundedTotalToman + payload.amountToman
          status := if o.collectedTotalToman ≤ o.refundedTotalToman + payload.amountToman then
            .refunded else .partiallyRefunded }) := by
  have hamt := assertNonNegativeAmount_ofInt hpos.le hmax
  have hne : payload.amountToman ≠ 0 := by omega
  by_cases hroom : o.refundedTotalToman + payload.amountToman ≤ o.collectedTotalToman
  · right
    have hfull : ¬o.collectedTotalToman ≤ o.refundedTotalToman := by omega
    have hstat := hopen (by omega)
    simp [RefundCompleted.handle, hkind, hord, hfull, OrderStore.recordRefund, hamt, hne,
      OrderStore.recordRefundWithin, hstat, hroom]
  · left
    refine ⟨by omega, ?_⟩
    by_cases hfull : o.collectedTotalToman ≤ o.refundedTotalToman
    · simp [RefundCompleted.handle, hkind, hord, hfull]
    · have hover : o.collectedTotalToman < o.refundedTotalToman + payload.amountToman := by omega
      simp [RefundCompleted.handle, hkind, hord, hfull, OrderStore.recordRefund, hamt, hne,
        OrderStore.recordRefundWithin, hroom, hover]

/-- The invariant of the deliveries. -/
structure ProjectionInv (collectedToman : ℤ) (refunds : List RefundCompleted)
    (s : RefundProjection) : Prop where
  distinct : s.delivered.Nodup
  ofSet : ∀ r ∈ s.delivered, r ∈ refunds
  order : ∃ o, s.store.order = some o ∧ o.collectedTotalToman = collectedToman ∧
    o.refundedTotalToman = s.deliveredToman ∧
    o.status = collectedStatus o.collectedTotalToman o.refundedTotalToman o.totalToman

theorem ProjectionInv.projected {collectedToman : ℤ} {refunds : List RefundCompleted}
    (h : ProjectionInv collectedToman refunds s) : s.Projected := by
  obtain ⟨o, hord, -, hsum, hstat⟩ := h.order
  exact ⟨o, hord, hsum, hstat⟩

theorem refundable_of_collectedStatus
    (hstat : o.status = collectedStatus o.collectedTotalToman o.refundedTotalToman o.totalToman)
    (hlt : o.refundedTotalToman < o.collectedTotalToman) : o.status ∈ refundableStatuses := by
  rw [hstat, collectedStatus]
  have hne : o.refundedTotalToman ≠ o.collectedTotalToman := by omega
  split_ifs <;> simp [refundableStatuses]

theorem collectedStatus_refunded {collected refunded total : ℤ} (hpos : 0 < refunded)
    (hle : refunded ≤ collected) :
    (if collected ≤ refunded then OrderStatus.refunded else .partiallyRefunded) =
      collectedStatus collected refunded total := by
  have hne : refunded ≠ 0 := by omega
  rw [collectedStatus, if_neg hne]
  by_cases h : collected ≤ refunded
  · have heq : refunded = collected := by omega
    rw [if_pos h, if_pos heq]
  · have hlt : refunded ≠ collected := by omega
    rw [if_neg h, if_neg hlt]

variable {collectedToman : ℤ} {refunds : List RefundCompleted}

section

variable (hset : SucceededRefunds collectedToman refunds)
include hset

section

variable (h : ProjectionInv collectedToman refunds s)
include h

theorem ProjectionInv.deliveredToman_nonneg : 0 ≤ s.deliveredToman := by
  refine List.sum_nonneg ?_
  intro a ha
  obtain ⟨r, hr, rfl⟩ := List.mem_map.1 ha
  exact (hset.positive r (h.ofSet r hr)).le

open RefundProjection

theorem projectionInv_step {s' : RefundProjection} {d : RefundDelivery}
    (hroom : s.NoRoomForRedelivery d) (hs : s.step refunds d = some s') :
    ProjectionInv collectedToman refunds s' := by
  unfold step at hs
  split at hs
  · rename_i hmem
    injection hs with hs
    obtain ⟨o, hord, hcoll, hsum, hstat⟩ := h.order
    have hpos := hset.positive _ hmem
    have hsub : ∀ r ∈ remember d.payload s.delivered, r ∈ refunds := by
      intro r hr
      rcases mem_remember.1 hr with hr | rfl
      · exact h.ofSet r hr
      · exact hmem
    have hnodup : (remember d.payload s.delivered).Nodup := nodup_remember h.distinct
    have hnonneg := h.deliveredToman_nonneg hset
    have hcases := handle_eq d.now hord (hset.kind _ hmem) hpos (hset.bounded _ hmem)
      (refundable_of_collectedStatus hstat)
    by_cases hagain : d.payload ∈ s.delivered
    · -- a redelivery: the condition says that there is no room
      have hover := hroom hagain o hord
      rcases hcases with ⟨-, hstore⟩ | ⟨hle, -⟩
      · rw [hstore, remember_of_mem hagain] at hs
        rw [← hs]
        exact h
      · omega
    · have hsum' : ((remember d.payload s.delivered).map (·.amountToman)).sum =
          s.deliveredToman + d.payload.amountToman := by
        rw [sum_remember, if_neg hagain]
        rfl
      have hle := sum_le_of_subset (f := fun r => r.amountToman) hnodup hsub
        fun r hr => (hset.positive r hr).le
      have hceil := hset.ceiling
      rcases hcases with ⟨_, -⟩ | ⟨hle', _, hstore, hstored⟩
      · omega
      · rw [hstore] at hs
        subst hs
        refine ⟨hnodup, hsub, _, hstored, hcoll, ?_, ?_⟩
        · rw [deliveredToman, hsum', hsum]
        · exact collectedStatus_refunded (by omega) hle'
  · cases hs

theorem noRoom_of_projected {s' : RefundProjection} {d : RefundDelivery}
    (hs : s.step refunds d = some s') (hprojected : s'.Projected) : s.NoRoomForRedelivery d := by
  intro hagain o hord
  by_contra hroom
  unfold step at hs
  have hmem := h.ofSet _ hagain
  rw [if_pos hmem] at hs
  injection hs with hs
  obtain ⟨_, horder₁, -, hsum, hstat⟩ := h.order
  cases hord.symm.trans horder₁
  have hpos := hset.positive _ hmem
  rcases handle_eq d.now hord (hset.kind _ hmem) hpos (hset.bounded _ hmem)
      (refundable_of_collectedStatus hstat) with ⟨hover, -⟩ | ⟨-, store, hstore, hstored⟩
  · exact hroom hover
  · rw [hstore, remember_of_mem hagain] at hs
    subst hs
    obtain ⟨_, hord', hsum', -⟩ := hprojected
    cases hord'.symm.trans hstored
    simp only [deliveredToman] at hsum hsum'
    omega

end

end

theorem delivered_run {t : RefundProjection} {ds : List RefundDelivery}
    (hrun : runFrom (RefundProjection.step refunds) s ds = some t) :
    (∀ r ∈ s.delivered, r ∈ t.delivered) ∧ ∀ d ∈ ds, d.payload ∈ t.delivered := by
  induction ds generalizing s with
  | nil =>
    cases hrun
    simp
  | cons d ds ih =>
    obtain ⟨s', hs, hrest⟩ := runFrom_cons_eq_some.1 hrun
    have hd : s'.delivered = remember d.payload s.delivered := by
      unfold RefundProjection.step at hs
      split at hs
      · injection hs with hs
        rw [← hs]
      · cases hs
    obtain ⟨hkept, hrestd⟩ := ih hrest
    constructor
    · intro r hr
      exact hkept r (hd ▸ mem_remember.2 (Or.inl hr))
    · intro d' hd'
      rcases List.mem_cons.1 hd' with rfl | hd'
      · exact hkept _ (hd ▸ mem_remember.2 (Or.inr rfl))
      · exact hrestd d' hd'

theorem projectionInv_collected {s : OrderStore} (h : Collected s o) :
    ProjectionInv o.collectedTotalToman refunds ⟨s, []⟩ where
  distinct := List.nodup_nil
  ofSet := by simp
  order := ⟨o, h.order, rfl, h.unrefunded, by rw [h.unrefunded]; exact h.status⟩

/-- **The refund projection under at-least-once delivery.**  Whatever is delivered,
in whatever order and how often: after each delivery the order has counted the
distinct refunds delivered so far exactly when no redelivered refund finds room.
Deliveries of that kind that cover the set leave the order with its whole sum. -/
theorem projected_iff {s : OrderStore} {o : OrderEntity} (hnew : Collected s o)
    (hset : SucceededRefunds o.collectedTotalToman refunds) (ds : List RefundDelivery) :
    (Throughout (RefundProjection.step refunds) RefundProjection.Projected ⟨s, []⟩ ds ↔
        Along (RefundProjection.step refunds) RefundProjection.NoRoomForRedelivery ⟨s, []⟩ ds) ∧
      ∀ t, Along (RefundProjection.step refunds) RefundProjection.NoRoomForRedelivery ⟨s, []⟩ ds →
        runFrom (RefundProjection.step refunds) ⟨s, []⟩ ds = some t →
        (∀ r ∈ refunds, ∃ d ∈ ds, d.payload = r) →
        ∃ o', t.store.order = some o' ∧
          o'.refundedTotalToman = (refunds.map (·.amountToman)).sum ∧
          o'.status = collectedStatus o'.collectedTotalToman o'.refundedTotalToman
            o'.totalToman := by
  have h0 : ProjectionInv o.collectedTotalToman refunds ⟨s, []⟩ := projectionInv_collected hnew
  constructor
  · refine throughout_iff_along (I := ProjectionInv o.collectedTotalToman refunds)
      (fun _ h => h.projected) (fun _ _ _ h hroom hs => projectionInv_step hset h hroom hs)
      (fun _ _ _ h hs hp => noRoom_of_projected hset h hs hp) ?_ h0 ds
    intro u d hu hs hagain
    simp [RefundProjection.step, hu.ofSet _ hagain] at hs
  · intro t halong hrun hcovers
    have hinv : ProjectionInv o.collectedTotalToman refunds t :=
      runFrom_invariant_along (fun _ _ _ h hroom hs => projectionInv_step hset h hroom hs) h0
        halong hrun
    obtain ⟨o', hord, -, hsum, hstat⟩ := hinv.order
    refine ⟨o', hord, ?_, hstat⟩
    rw [hsum]
    refine sum_eq_of_covers hinv.distinct hset.distinct hinv.ofSet ?_
    intro r hr
    obtain ⟨d, hd, rfl⟩ := hcovers r hr
    exact (delivered_run hrun).2 d hd

/-! ## A partial refund delivered twice -/

/-- The sample order after its 40 Toman were collected. -/
def collectedOrder : OrderEntity :=
  { sampleOrder with
    status := .onlineCollectionCompleted
    collectedTotalToman := 40
    paidAt := some 10 }

/-- A refund of 15 of them. -/
def partialRefund : RefundCompleted where
  refundId := 7
  orderId := 1
  amountToman := 15
  kind := .order

theorem collectedOrder_collected :
    Collected ⟨some collectedOrder, some ⟨100, 40, 60⟩, []⟩ collectedOrder where
  order := rfl
  positive := by decide
  unrefunded := rfl
  status := by decide

theorem partialRefund_succeeded :
    SucceededRefunds collectedOrder.collectedTotalToman [partialRefund] where
  distinct := by simp
  kind := by simp [partialRefund]
  positive := by simp [partialRefund]
  bounded := by simp [partialRefund, maxAmountToman]
  ceiling := by decide

theorem projected_iff_partialRefund :
    Throughout (RefundProjection.step [partialRefund]) RefundProjection.Projected
        ⟨⟨some collectedOrder, some ⟨100, 40, 60⟩, []⟩, []⟩ [⟨partialRefund, 20⟩] ↔
      Along (RefundProjection.step [partialRefund]) RefundProjection.NoRoomForRedelivery
        ⟨⟨some collectedOrder, some ⟨100, 40, 60⟩, []⟩, []⟩ [⟨partialRefund, 20⟩] :=
  (projected_iff collectedOrder_collected partialRefund_succeeded _).1

/-- The handler counts the redelivered refund a second time. -/
theorem projected_redelivery_fails :
    ∃ t o, runFrom (RefundProjection.step [partialRefund])
        ⟨⟨some collectedOrder, some ⟨100, 40, 60⟩, []⟩, []⟩
        [⟨partialRefund, 20⟩, ⟨partialRefund, 21⟩] = some t ∧ t.store.order = some o ∧
      o.refundedTotalToman = 30 ∧ o.refundedTotalToman ≠ partialRefund.amountToman :=
  ⟨_, _, rfl, rfl, by decide, by decide⟩

end BeauClick.Events
