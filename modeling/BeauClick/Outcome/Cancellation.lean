import BeauClick.Lib.Runs
import BeauClick.Outcome.Decision

/-!
# Cancellations, their handlers and the remedy at the same time

`BookingCancelledRefundHandler` (`apps/api/src/events/financial-projection.handlers.ts`) is
delivered every `BookingCancelled` at least once: it decides in one transaction and executes
in several.  `CustomerRemedyResolutionService.resolve` runs beside it under a lock on the
choice row that the handler does not take, and the booking moves on meanwhile.
-/

namespace BeauClick.Outcome

open Money Table Runs Commerce Payment Booking CommercialPolicy PaymentStore List Option Function

/-! ## The parties -/

/-- The next transaction of a delivery of the event at a place of booking's outbox. -/
inductive Delivery where
  | idle
  | decide (event : ℕ) (bookingId : Uuid)
  /-- `executeCancellation`: reads the remedy's resolution. -/
  | readResolution (event : ℕ) (decision : BookingOutcomeDecision)
  | executeDecision (event : ℕ) (decision : BookingOutcomeDecision)
  | refundProvider (event : ℕ) (decision : BookingOutcomeDecision) (refundId : Uuid)
  | recordExecution (event : ℕ) (decision : BookingOutcomeDecision) (status : RefundStatus)
  | handled
  | threw
  deriving DecidableEq

/-- The delivery is about to ask for a refund. -/
def Delivery.asks : Delivery → Bool
  | .executeDecision _ decision => decision.executionStatus = .pending ∧ 0 < decision.refundToman
  | _ => false

/-- The next transaction of a call of `resolve`. -/
inductive Resolver where
  | idle
  /-- The checks have passed, and the call holds the choice row. -/
  | locked (newSlotId : Uuid)
  | returned
  | threw
  deriving DecidableEq

/-- The rows, the deliveries and the calls of `resolve` at work on them. -/
structure OutcomeSystem where
  store : OutcomeStore
  deliveries : ℕ → Delivery
  resolvers : ℕ → Resolver
  /-- The call that holds `FOR UPDATE` on the choice row. -/
  lockedBy : Option ℕ
  /-- The events of booking's outbox that have been consumed. -/
  handled : List ℕ

/-- One step, with what the system does not choose itself: the clock, new ids, the slots that
can be claimed, the state of the legal evidence and the answers of the gateway. -/
inductive OutcomeStep where
  | cancel (actor : BookingActorType) (now : Instant)
  | reschedule (slot : ClaimedSlot) (actor : BookingActorType) (permitted : Bool) (now : Instant)
  | deliver (pid event : ℕ)
  | decide (pid : ℕ) (decisionId : Uuid) (evidence : LegalCapState) (now : Instant)
  | readResolution (pid : ℕ)
  | executeDecision (pid : ℕ) (refundId : Uuid)
  | refunded (pid : ℕ) (answer : RefundAnswer) (now : Instant)
  | recordExecution (pid : ℕ)
  | projectRefund (refundId : Uuid) (now : Instant)
  | resolve (pid : ℕ) (bookingId : Uuid) (choice : RemedyOption) (newSlotId : Option Uuid)
  | commitRemedy (pid : ℕ) (startAt : Option Instant) (now : Instant)
  | die (pid : ℕ)
  | dieResolver (pid : ℕ)

/-- The step is a gateway's refusal of a refund. -/
def OutcomeStep.refuses : OutcomeStep → Bool
  | .refunded _ answer _ => answer.status = .failed
  | _ => false

namespace OutcomeSystem

def setDelivery (s : OutcomeSystem) (pid : ℕ) (delivery : Delivery) : OutcomeSystem :=
  { s with deliveries := update s.deliveries pid delivery }

/-- The delivery moves on after it wrote. -/
def commit (s : OutcomeSystem) (pid : ℕ) (delivery : Delivery) (store : OutcomeStore) :
    OutcomeSystem :=
  { s with
    store := store
    deliveries := update s.deliveries pid delivery }

/-- The handler returns: the event is consumed. -/
def finish (s : OutcomeSystem) (pid event : ℕ) (store : OutcomeStore) : OutcomeSystem :=
  { s with
    store := store
    deliveries := update s.deliveries pid .handled
    handled := event :: s.handled }

/-- The call of `resolve` moves on without the choice row. -/
def release (s : OutcomeSystem) (pid : ℕ) (resolver : Resolver) (store : OutcomeStore) :
    OutcomeSystem :=
  { s with
    store := store
    resolvers := update s.resolvers pid resolver
    lockedBy := if s.lockedBy = some pid then none else s.lockedBy }

/-- The transaction of `decideCancellation`. -/
def decideStep (s : OutcomeSystem) (pid : ℕ) (decisionId : Uuid) (evidence : LegalCapState)
    (now : Instant) : Option OutcomeSystem :=
  match s.deliveries pid with
  | .decide event bookingId =>
    match s.store.decideCancellation bookingId decisionId evidence now with
    | none => some (s.setDelivery pid .threw)
    | some (none, store) => some (s.finish pid event store)
    | some (some decision, store) => some (s.commit pid (.readResolution event decision) store)
  | _ => none

/-- `executeCancellation` up to the refund: skipped for a remedy that was a reschedule. -/
def readStep (s : OutcomeSystem) (pid : ℕ) : Option OutcomeSystem :=
  match s.deliveries pid with
  | .readResolution event decision =>
    if s.store.rescheduled then some (s.finish pid event s.store)
    else some (s.setDelivery pid (.executeDecision event decision))
  | _ => none

/-- `executeDecision` up to the gateway. -/
def executeStep (s : OutcomeSystem) (pid : ℕ) (refundId : Uuid) : Option OutcomeSystem :=
  match s.deliveries pid with
  | .executeDecision event decision =>
    if decision.executionStatus ≠ .pending ∨ decision.refundToman ≤ 0 then
      some (s.finish pid event s.store)
    else if ∃ r ∈ s.store.payment.refunds, r.id = refundId then none
    else
      match s.store.payment.requestRefund (executionRefund decision) refundId with
      | .existing r => some (s.setDelivery pid (.recordExecution event decision r.status))
      | .inserted payment r =>
        some (s.commit pid (.refundProvider event decision r.id) { s.store with payment := payment })
      | .threw => some (s.setDelivery pid .threw)
  | _ => none

/-- The gateway's answer is recorded, and the refund is read again. -/
def answerStep (s : OutcomeSystem) (pid : ℕ) (answer : RefundAnswer) (now : Instant) :
    Option OutcomeSystem :=
  match s.deliveries pid with
  | .refundProvider event decision refundId =>
    let payment := s.store.payment.recordAnswer refundId answer now
    match payment.refunds.find? fun r => r.id = refundId with
    | none => some (s.commit pid .threw { s.store with payment := payment })
    | some r =>
      some (s.commit pid (.recordExecution event decision r.status)
        { s.store with payment := payment })
  | _ => none

/-- The end of `executeDecision`. -/
def recordStep (s : OutcomeSystem) (pid : ℕ) : Option OutcomeSystem :=
  match s.deliveries pid with
  | .recordExecution event decision status =>
    if executionStatusOf status = .pending then some (s.finish pid event s.store)
    else some (s.finish pid event
      (s.store.recordExecution decision.id (executionStatusOf status)))
  | _ => none

/-- `resolve` up to the reschedule; it waits for the choice row. -/
def resolveStep (s : OutcomeSystem) (pid : ℕ) (bookingId : Uuid) (choice : RemedyOption)
    (newSlotId : Option Uuid) : Option OutcomeSystem :=
  if s.resolvers pid = .idle ∧ s.lockedBy = none then
    match s.store.resolveRemedy bookingId choice newSlotId with
    | .threw => some (s.release pid .threw s.store)
    | .unchanged => some (s.release pid .returned s.store)
    | .reschedule newSlotId => some { s with
        resolvers := update s.resolvers pid (.locked newSlotId)
        lockedBy := some pid }
  else none

/-- The reschedule of `resolve` and its commit; `startAt` is there when the slot can be
claimed. -/
def commitStep (s : OutcomeSystem) (pid : ℕ) (startAt : Option Instant) (now : Instant) :
    Option OutcomeSystem :=
  match s.resolvers pid with
  | .locked newSlotId =>
    match s.store.rescheduleRemedy (startAt.map fun t => ⟨newSlotId, t⟩) now with
    | none => some (s.release pid .threw s.store)
    | some store => some (s.release pid .returned store)
  | _ => none

/-- The delivery is of a `BookingCancelled` of booking's outbox. -/
def deliverStep (s : OutcomeSystem) (pid event : ℕ) : Option OutcomeSystem :=
  if s.deliveries pid = .idle then
    match s.store.booking.outbox[event]? with
    | some (.bookingCancelled bookingId _ _) => some (s.setDelivery pid (.decide event bookingId))
    | _ => none
  else none

/-- A completed refund is projected onto the order. -/
def projectStep (s : OutcomeSystem) (refundId : Uuid) (now : Instant) : Option OutcomeSystem :=
  match s.store.payment.refunds.find? fun r => r.id = refundId ∧ r.status = .succeeded with
  | none => none
  | some r =>
    match s.store.order.recordRefund (.ofInt r.amountToman) refundId now with
    | .error _ => none
    | .ok (_, order) => some { s with store := { s.store with order := order } }

/-- One step.  A handler and a call of `resolve` can die, or throw, between any two. -/
def step (s : OutcomeSystem) : OutcomeStep → Option OutcomeSystem
  | .cancel actor now =>
    some { s with store := { s.store with booking := (s.store.booking.cancel actor now).2 } }
  | .reschedule slot actor permitted now =>
    match s.store.booking.reschedule (some slot) actor false permitted now with
    | none => none
    | some booking => some { s with store := { s.store with booking := booking } }
  | .deliver pid event => s.deliverStep pid event
  | .decide pid decisionId evidence now => s.decideStep pid decisionId evidence now
  | .readResolution pid => s.readStep pid
  | .executeDecision pid refundId => s.executeStep pid refundId
  | .refunded pid answer now => s.answerStep pid answer now
  | .recordExecution pid => s.recordStep pid
  | .projectRefund refundId now => s.projectStep refundId now
  | .resolve pid bookingId choice newSlotId => s.resolveStep pid bookingId choice newSlotId
  | .commitRemedy pid startAt now => s.commitStep pid startAt now
  | .die pid => some (s.setDelivery pid .threw)
  | .dieResolver pid => some (s.release pid .threw s.store)

/-! ## What the properties are about -/

/-- A `BookingCancelled` is not consumed yet. -/
def Unhandled (s : OutcomeSystem) : Prop :=
  ∃ event ∉ s.handled, ∃ bookingId previousStatus actorType,
    s.store.booking.outbox[event]? = some (.bookingCancelled bookingId previousStatus actorType)

/-- The order has a refund that has not failed under the booking's cancellation key. -/
def Refunded (s : OutcomeSystem) : Prop :=
  ∃ o b, s.store.order.order = some o ∧ s.store.booking.booking = some b ∧
    ∃ r ∈ s.store.payment.refunds, r.orderId = o.id ∧
      r.requestKey = .bookingCancelled b.id ∧ r.status ≠ .failed

/-- The booking is cancelled, and it was not the customer who cancelled it. -/
def CancelledByOther (s : OutcomeSystem) : Prop :=
  ∃ b, s.store.booking.booking = some b ∧ b.status = .cancelled ∧
    b.cancelledByActorType ≠ some .customer

/-- The gateway has refused no refund. -/
def NoneFailed (s : OutcomeSystem) : Prop := ∀ r ∈ s.store.payment.refunds, r.status ≠ .failed

instance (s : OutcomeSystem) : Decidable s.CancelledByOther :=
  match h : s.store.booking.booking with
  | none => isFalse (by simp [CancelledByOther, h])
  | some b => decidable_of_iff (b.status = .cancelled ∧ b.cancelledByActorType ≠ some .customer)
      (by simp [CancelledByOther, h])

instance (s : OutcomeSystem) : Decidable s.Refunded :=
  match ho : s.store.order.order, hb : s.store.booking.booking with
  | some o, some b => decidable_of_iff (∃ r ∈ s.store.payment.refunds, r.orderId = o.id ∧
      r.requestKey = .bookingCancelled b.id ∧ r.status ≠ .failed) (by simp [Refunded, ho, hb])
  | none, _ => isFalse (by simp [Refunded, ho])
  | some _, none => isFalse (by simp [Refunded, hb])

/-- The booking of an order that has collected, before any cancellation. -/
structure Start (s : OutcomeSystem) : Prop where
  order : ∃ o b, s.store.order.order = some o ∧ s.store.booking.booking = some b ∧
    o.sourceType = .booking ∧ o.sourceId = b.id ∧ 0 < o.collectedTotalToman ∧
    o.refundedTotalToman = 0 ∧ b.status ∈ slotHoldingStatuses
  outbox : ∀ event ∈ s.store.booking.outbox, ∀ bookingId previousStatus actorType,
    event ≠ .bookingCancelled bookingId previousStatus actorType
  refunds : s.store.payment.refunds = []
  decision : s.store.decision = none
  remedy : s.store.remedy = none
  deliveries : ∀ pid, s.deliveries pid = .idle
  resolvers : ∀ pid, s.resolvers pid = .idle
  handled : s.handled = []

end OutcomeSystem

/-! ## What holds of the rows -/

namespace OutcomeStore

/-- The place of booking's outbox holds a cancellation of the booking. -/
def IsCancellation (s : OutcomeStore) (event : ℕ) (bookingId : Uuid) : Prop :=
  ∃ previousStatus actorType,
    s.booking.outbox[event]? = some (.bookingCancelled bookingId previousStatus actorType)

/-- Nothing was decided: nothing was refunded or offered, and a cancellation that was published
stands. -/
structure Undecided (s : OutcomeStore) (o : OrderEntity) (b : BookingEntity) : Prop where
  remedy : s.remedy = none
  refunds : s.payment.refunds = []
  refunded : o.refundedTotalToman = 0
  stands : ∀ event bookingId, s.IsCancellation event bookingId → b.status = .cancelled

/-- The decision: the customer's own cancellation is final; any other refunds what was
collected; and there is one refund of it at most. -/
structure Decided (s : OutcomeStore) (o : OrderEntity) (b : BookingEntity)
    (d : BookingOutcomeDecision) : Prop where
  orderId : d.orderId = o.id
  key : d.refundRequestKey = .bookingCancelled b.id
  nonneg : 0 ≤ d.refundToman
  customer : d.cause = .customer →
    s.remedy = none ∧ b.status = .cancelled ∧ b.cancelledByActorType = some .customer
  other : d.cause ≠ .customer → d.refundToman = o.collectedTotalToman ∧ d.basis ≠ .capApplied
  executed : d.executionStatus ≠ .pending → d.refundToman ≤ 0 ∨ s.payment.refunds ≠ []
  refunds : s.payment.refunds = [] ∨ ∃ r, s.payment.refunds = [r] ∧ r.orderId = o.id ∧
    r.requestKey = .bookingCancelled b.id ∧ r.amountToman = d.refundToman

/-- The rows of a booking and of its order, which has collected. -/
structure Rows (s : OutcomeStore) (o : OrderEntity) (b : BookingEntity) : Prop where
  order : s.order.order = some o
  booking : s.booking.booking = some b
  source : o.sourceType = .booking ∧ o.sourceId = b.id
  collected : 0 < o.collectedTotalToman
  cancelled : b.status = .cancelled →
    b.cancelledByActorType ≠ none ∧ ∃ h ∈ s.booking.history, h.event = .cancelled
  published : ∀ event bookingId, s.IsCancellation event bookingId → bookingId = b.id
  undecided : s.decision = none → s.Undecided o b
  decided : ∀ d, s.decision = some d → s.Decided o b d

/-- A delivery holds a copy of the decision, its status as it was read. -/
def IsCopy (s : OutcomeStore) (copy : BookingOutcomeDecision) : Prop :=
  ∃ d, s.decision = some d ∧ copy.id = d.id ∧ copy.orderId = d.orderId ∧
    copy.refundRequestKey = d.refundRequestKey ∧ copy.refundToman = d.refundToman ∧
    (copy.executionStatus ≠ .pending → d.refundToman ≤ 0 ∨ s.payment.refunds ≠ [])

/-- What holds of a delivery in each of its places. -/
def DeliveryInv (s : OutcomeStore) : Delivery → Prop
  | .decide event id => s.IsCancellation event id
  | .readResolution event copy | .executeDecision event copy =>
    event < s.booking.outbox.length ∧ s.IsCopy copy
  | .refundProvider event copy _ | .recordExecution event copy _ =>
    event < s.booking.outbox.length ∧ s.IsCopy copy ∧ s.payment.refunds ≠ []
  | .idle | .handled | .threw => True

/-- Events, refunds and decisions are only added. -/
structure Grows (s s' : OutcomeStore) : Prop where
  events : ∀ event bookingId, s.IsCancellation event bookingId → s'.IsCancellation event bookingId
  outbox : s.booking.outbox.length ≤ s'.booking.outbox.length
  refunds : s.payment.refunds ≠ [] → s'.payment.refunds ≠ []
  decision : ∀ d, s.decision = some d → ∃ d', s'.decision = some d' ∧ d'.id = d.id ∧
    d'.orderId = d.orderId ∧ d'.refundRequestKey = d.refundRequestKey ∧
    d'.refundToman = d.refundToman
  remedy : s.remedy ≠ none → s'.remedy ≠ none

variable {s s' : OutcomeStore} {o : OrderEntity} {b : BookingEntity} {event : ℕ}

theorem Grows.refl (s : OutcomeStore) : s.Grows s :=
  ⟨fun _ _ => id, le_rfl, id, fun d hd => ⟨d, hd, rfl, rfl, rfl, rfl⟩, id⟩

theorem IsCopy.mono {copy : BookingOutcomeDecision} (hg : s.Grows s') (h : s.IsCopy copy) :
    s'.IsCopy copy := by
  obtain ⟨d, hd, hid, hord, hkey, hrefund, hexec⟩ := h
  obtain ⟨d', hd', hid', hord', hkey', hrefund'⟩ := hg.decision d hd
  refine ⟨d', hd', hid.trans hid'.symm, hord.trans hord'.symm, hkey.trans hkey'.symm,
    hrefund.trans hrefund'.symm, fun hne => ?_⟩
  rcases hexec hne with hzero | hne
  · exact Or.inl (hrefund' ▸ hzero)
  · exact Or.inr (hg.refunds hne)

theorem DeliveryInv.mono {delivery : Delivery} (hg : s.Grows s') (h : s.DeliveryInv delivery) :
    s'.DeliveryInv delivery := by
  cases delivery with
  | idle | handled | threw => trivial
  | decide event id => exact hg.events event id h
  | readResolution event copy | executeDecision event copy =>
    exact ⟨lt_of_lt_of_le h.1 hg.outbox, h.2.mono hg⟩
  | refundProvider event copy _ | recordExecution event copy _ =>
    exact ⟨lt_of_lt_of_le h.1 hg.outbox, h.2.1.mono hg, hg.refunds h.2.2⟩

end OutcomeStore

namespace OutcomeSystem

open OutcomeStore

/-- The invariant, of the order and the booking as they are. -/
structure Ledger (s : OutcomeSystem) (o : OrderEntity) (b : BookingEntity) : Prop where
  rows : s.store.Rows o b
  handled : ∀ event ∈ s.handled, event < s.store.booking.outbox.length
  unhandled : s.store.decision = none → s.handled = []
  deliveries : ∀ pid, s.store.DeliveryInv (s.deliveries pid)
  locked : ∀ pid newSlotId, s.resolvers pid = .locked newSlotId → s.store.remedy ≠ none

/-- What one step can write of the refunds and of the choice. -/
inductive Writes (s : OutcomeSystem) (e : OutcomeStep) (s' : OutcomeSystem) : Prop where
  | neither (hrefunds : s'.store.payment.refunds = s.store.payment.refunds)
      (hremedy : s'.store.rescheduled = true → s.store.rescheduled = true)
  /-- `resolve` chooses a reschedule, to a slot that can be claimed. -/
  | reschedules (pid : ℕ) (startAt now : Instant) (he : e = .commitRemedy pid (some startAt) now)
      (hrefunds : s'.store.payment.refunds = s.store.payment.refunds)
  /-- A delivery that asks for a refund inserts it. -/
  | asks (pid : ℕ) (refundId : Uuid) (r : RefundEntity) (he : e = .executeDecision pid refundId)
      (hasks : (s.deliveries pid).asks = true) (hpending : r.status = .pending)
      (hrefunds : s'.store.payment.refunds = s.store.payment.refunds ++ [r])
      (hremedy : s'.store.rescheduled = s.store.rescheduled)
  /-- The gateway has answered. -/
  | answers (pid : ℕ) (answer : RefundAnswer) (now : Instant) (refundId : Uuid)
      (ref code : Option String) (he : e = .refunded pid answer now)
      (hrefunds : s'.store.payment.refunds = updateWhere
        (fun r => r.id = refundId ∧ r.status = .pending)
        (PaymentStore.completedRefund answer.status ref code now) s.store.payment.refunds)
      (hremedy : s'.store.rescheduled = s.store.rescheduled)

/-- What one step can do to what a cancellation leaves behind: refunds and reschedules stay,
a cancellation and a decision leave an event to consume, and an event is consumed when there
is a refund, when nothing is to be refunded, or when the handler is skipped for a reschedule. -/
structure Effect (s : OutcomeSystem) (e : OutcomeStep) (s' : OutcomeSystem) : Prop where
  writes : Writes s e s'
  rescheduled : s.store.rescheduled = true → s'.store.rescheduled = true
  cancelled : s'.CancelledByOther → s.CancelledByOther ∨ s'.Unhandled
  decision : ∀ d', s'.store.decision = some d' →
    s'.Unhandled ∨ ∃ d, s.store.decision = some d ∧ d.refundToman = d'.refundToman
  unhandled : s.Unhandled → s'.Unhandled ∨ s'.store.payment.refunds ≠ [] ∨
    (∃ d, s'.store.decision = some d ∧ d.refundToman ≤ 0) ∨
    ((∃ pid, e = .readResolution pid) ∧ s.store.rescheduled = true ∧ s'.store = s.store)

variable {s s' : OutcomeSystem} {o : OrderEntity} {b : BookingEntity} {pid event : ℕ}
  {e : OutcomeStep} {store : OutcomeStore} {delivery : Delivery} {d : BookingOutcomeDecision}
  {now : Instant} {refundId decisionId bookingId : Uuid} {actor : BookingActorType}
  {booking : BookingStore} {evidence : LegalCapState} {permitted : Bool}
  {remedy : Option RemedyChoice}

open OutcomeStore

theorem Writes.of_eq (hrefs : s'.store.payment.refunds = s.store.payment.refunds)
    (hremedy : s'.store.remedy = s.store.remedy) : Writes s e s' :=
  .neither hrefs (by rw [rescheduled, hremedy]; exact id)

theorem Effect.refunds (h : Effect s e s') (hne : s.store.payment.refunds ≠ []) :
    s'.store.payment.refunds ≠ [] := by
  cases h.writes with
  | neither hrefs | reschedules _ _ _ _ hrefs => rwa [hrefs]
  | asks _ _ _ _ _ _ hrefs => simp [hrefs]
  | answers _ _ _ _ _ _ _ hrefs => simpa [hrefs, updateWhere] using hne

theorem Start.ledger (h : Start s) : ∃ o b, s.Ledger o b := by
  obtain ⟨o, b, ho, hb, htype, hid, hpos, hzero, hstat⟩ := h.order
  have hnone : ∀ event bookingId, ¬s.store.IsCancellation event bookingId := by
    rintro event bookingId ⟨previousStatus, actorType, hev⟩
    exact h.outbox _ (mem_of_getElem? hev) bookingId previousStatus actorType rfl
  refine ⟨o, b, ⟨ho, hb, ⟨htype, hid⟩, hpos, ?_, ?_, ?_, ?_⟩, ?_, fun _ => h.handled, ?_, ?_⟩
  · intro hcanc
    rw [hcanc] at hstat
    simp [slotHoldingStatuses] at hstat
  · exact fun event bookingId hev => absurd hev (hnone event bookingId)
  · exact fun _ => ⟨h.remedy, h.refunds, hzero,
      fun event bookingId hev => absurd hev (hnone event bookingId)⟩
  · intro d hd
    rw [h.decision] at hd
    cases hd
  · rw [h.handled]; simp
  · intro pid
    rw [h.deliveries pid]
    trivial
  · intro pid newSlotId hlocked
    rw [h.resolvers pid] at hlocked
    cases hlocked

/-! ## Steps of a delivery -/

theorem Ledger.commit (h : s.Ledger o b) {o' : OrderEntity} (hrows : store.Rows o' b)
    (hg : s.store.Grows store) (hdec : store.decision = none → s.store.decision = none)
    (hdeliv : store.DeliveryInv delivery) : (s.commit pid delivery store).Ledger o' b where
  rows := hrows
  handled event hev := lt_of_lt_of_le (h.handled event hev) hg.outbox
  unhandled hnone := h.unhandled (hdec hnone)
  deliveries := (forall_update_iff s.deliveries fun _ => store.DeliveryInv).2
    ⟨hdeliv, fun q _ => (h.deliveries q).mono hg⟩
  locked q newSlotId hq := hg.remedy (h.locked q newSlotId hq)

theorem Ledger.setDelivery (h : s.Ledger o b) (hdeliv : s.store.DeliveryInv delivery) :
    (s.setDelivery pid delivery).Ledger o b :=
  h.commit h.rows (.refl s.store) id hdeliv

theorem Ledger.finish (h : s.Ledger o b) (hrows : store.Rows o b) (hg : s.store.Grows store)
    (hdec : store.decision ≠ none) (hev : event < s.store.booking.outbox.length) :
    (s.finish pid event store).Ledger o b where
  rows := hrows
  handled event' hev' := by
    rcases mem_cons.1 hev' with rfl | hold
    · exact lt_of_lt_of_le hev hg.outbox
    · exact lt_of_lt_of_le (h.handled event' hold) hg.outbox
  unhandled hnone := absurd hnone hdec
  deliveries := (forall_update_iff s.deliveries fun _ => store.DeliveryInv).2
    ⟨trivial, fun q _ => (h.deliveries q).mono hg⟩
  locked q newSlotId hq := hg.remedy (h.locked q newSlotId hq)

theorem Effect.of_store (hstore : s'.store = s.store) (hhandled : s'.handled = s.handled) :
    Effect s e s' where
  writes := .of_eq (by rw [hstore]) (by rw [hstore])
  rescheduled := by rw [hstore]; exact id
  cancelled := by
    unfold CancelledByOther
    rw [hstore]
    exact Or.inl
  decision d' hd' := by
    rw [hstore] at hd'
    exact Or.inr ⟨d', hd', rfl⟩
  unhandled := by
    unfold Unhandled
    rw [hstore, hhandled]
    exact Or.inl

/-- A step on the rows beside booking's and the choice's that keeps what is refunded and what
is to be refunded. -/
theorem Effect.of_booking (hwrites : Writes s e s') (hbook : s'.store.booking = s.store.booking)
    (hremedy : s'.store.remedy = s.store.remedy)
    (hdec : ∀ d', s'.store.decision = some d' →
      ∃ d, s.store.decision = some d ∧ d.refundToman = d'.refundToman)
    (hunhandled : s.Unhandled → s'.Unhandled ∨ s'.store.payment.refunds ≠ [] ∨
      (∃ d, s'.store.decision = some d ∧ d.refundToman ≤ 0)) : Effect s e s' where
  writes := hwrites
  rescheduled := by unfold OutcomeStore.rescheduled; rw [hremedy]; exact id
  cancelled := by
    unfold CancelledByOther
    rw [hbook]
    exact Or.inl
  decision d' hd' := Or.inr (hdec d' hd')
  unhandled h := by
    rcases hunhandled h with h | h | h
    · exact Or.inl h
    · exact Or.inr (Or.inl h)
    · exact Or.inr (Or.inr (Or.inl h))

theorem rows_writeDecision {s : OutcomeStore} {facts : BookingCancellationFacts}
    {cutoffHours : Option ℤ} (h : s.Rows o b) (hnone : s.decision = none) (hid : bookingId = b.id)
    (hfacts : s.booking.cancellationFacts cutoffHours = some facts)
    (hd : s.newDecision bookingId decisionId o evidence facts = some d) (now : Instant) :
    ∃ o', (s.writeDecision o d now).Rows o' b := by
  obtain ⟨hremedy, hrefs, hzero, -⟩ := h.undecided hnone
  obtain ⟨horderId, hkey, hcause, hnonneg, hpend, hother⟩ :=
    newDecision_unrefunded hd hrefs hzero h.collected
  obtain ⟨_, hb', hstat, hactor⟩ := BookingStore.cancellationFacts_eq_some hfacts
  cases h.booking.symm.trans hb'
  have hord : ∃ o', (s.writeDecision o d now).order.order = some o' ∧ o'.id = o.id ∧
      o'.sourceType = o.sourceType ∧ o'.sourceId = o.sourceId ∧
      o'.collectedTotalToman = o.collectedTotalToman := by
    unfold writeDecision
    split
    · rcases s.order.cancel_cases ("booking_cancelled:" ++ toString d.bookingId) now with
        heq | ⟨o₁, ho₁, -, heq⟩
      · rw [heq]
        exact ⟨o, h.order, rfl, rfl, rfl, rfl⟩
      · cases h.order.symm.trans ho₁
        rw [heq]
        exact ⟨_, rfl, rfl, rfl, rfl, rfl⟩
    · exact ⟨o, h.order, rfl, rfl, rfl, rfl⟩
  obtain ⟨o', ho', ho'id, htype, hsrc, hcoll⟩ := hord
  refine ⟨o', ho', h.booking, by rw [htype, hsrc]; exact h.source,
    by rw [hcoll]; exact h.collected, h.cancelled, h.published, ?_, ?_⟩
  · intro hnone'
    cases hnone'
  · intro d' hd'
    injection hd' with hd'
    subst hd'
    refine ⟨horderId.trans ho'id.symm, by rw [hkey, hid], hnonneg, ?_, ?_, ?_, Or.inl hrefs⟩
    · intro hcust
      refine ⟨?_, hstat, ?_⟩
      · show (if d.cause ∈ remedyCauses then _ else s.remedy) = none
        rw [hcust, if_neg (by decide), hremedy]
      · rw [hactor]
        rw [hcause] at hcust
        cases hcase : facts.cancelledByActorType <;> simp [causeForActor, hcase] at hcust ⊢
    · intro hnot
      rw [hcoll]
      refine hother fun hcust => hnot ?_
      rw [hcause, hcust]
      rfl
    · intro hstat
      refine Or.inl (not_lt.1 fun hpos => hstat (hpend hpos))

theorem grows_writeDecision {s : OutcomeStore} (h : s.Rows o b) (hnone : s.decision = none)
    (now : Instant) : s.Grows (s.writeDecision o d now) where
  events _ _ := id
  outbox := le_rfl
  refunds := id
  decision d hd := by rw [hnone] at hd; cases hd
  remedy hne := absurd (h.undecided hnone).remedy hne

theorem rescheduled_writeDecision {s : OutcomeStore}
    (h : (s.writeDecision o d now).rescheduled = true) : s.rescheduled = true := by
  unfold rescheduled writeDecision at h
  unfold rescheduled
  dsimp only at h
  split at h
  · cases hremedy : s.remedy <;> simp [hremedy] at h ⊢
    exact h
  · exact h

theorem ledger_decide (h : s.Ledger o b) (hs : s.decideStep pid decisionId evidence now = some s') :
    (∃ o b, s'.Ledger o b) ∧ Effect s e s' := by
  unfold decideStep at hs
  split at hs
  · rename_i event bookingId hpid
    have hev : s.store.IsCancellation event bookingId := by
      have hdeliv := h.deliveries pid
      rw [hpid] at hdeliv
      exact hdeliv
    have hid : bookingId = b.id := h.rows.published event bookingId hev
    have hlt : event < s.store.booking.outbox.length := by
      obtain ⟨previousStatus, actorType, hget⟩ := hev
      exact (List.getElem?_eq_some_iff.1 hget).1
    have hlock : lockOrderForBooking s.store.order bookingId = some o := by
      rw [lockOrderForBooking, h.rows.order]
      exact if_pos ⟨h.rows.source.1, h.rows.source.2.trans hid.symm⟩
    cases hdecide : s.store.decideCancellation bookingId decisionId evidence now with
    | none =>
      rw [hdecide] at hs
      cases hs
      exact ⟨⟨o, b, h.setDelivery trivial⟩, .of_store rfl rfl⟩
    | some result =>
      obtain ⟨_, store⟩ := result
      rw [hdecide] at hs
      rcases decideCancellation_cases hdecide with ⟨-, -, hnolock⟩ | ⟨hsame, hlive, hsome⟩ |
        ⟨-, -, hnone, hnofacts⟩ | ⟨o₁, facts, d, hlock₁, hnone, hfacts, hd, heq, hstore⟩
      · rw [hlock] at hnolock
        cases hnolock
      · obtain ⟨d, hd⟩ := ne_none_iff_exists'.1 hsome
        rw [hd] at hlive
        subst hsame hlive
        cases hs
        exact ⟨⟨o, b, h.setDelivery ⟨hlt, d, hd, rfl, rfl, rfl, rfl,
          (h.rows.decided d hd).executed⟩⟩, .of_store rfl rfl⟩
      · -- a published cancellation stands until it is decided, so its facts are there
        have hstat := (h.rows.undecided hnone).stands event bookingId hev
        obtain ⟨hactor, hrow⟩ := h.rows.cancelled hstat
        exact absurd hnofacts
          (BookingStore.cancellationFacts_ne_none _ h.rows.booking hstat hactor hrow)
      · cases hlock.symm.trans hlock₁
        subst heq hstore
        cases hs
        obtain ⟨o', hrows⟩ := rows_writeDecision h.rows hnone hid hfacts hd now
        have hg := grows_writeDecision (d := d) h.rows hnone now
        have hunhandled : (s.commit pid (.readResolution event d)
            (s.store.writeDecision o d now)).Unhandled := by
          obtain ⟨previousStatus, actorType, hget⟩ := hev
          refine ⟨event, ?_, bookingId, previousStatus, actorType, hget⟩
          show event ∉ s.handled
          rw [h.unhandled hnone]
          exact List.not_mem_nil
        refine ⟨⟨o', b, h.commit hrows hg (fun hnot => by cases hnot) ⟨hlt, d, rfl, rfl, rfl, rfl,
          rfl, (hrows.decided d rfl).executed⟩⟩, .neither rfl rescheduled_writeDecision, ?_, Or.inl,
          fun _ _ => Or.inl hunhandled, fun _ => Or.inl hunhandled⟩
        intro hresched
        rw [rescheduled, (h.rows.undecided hnone).remedy] at hresched
        cases hresched
  · cases hs

theorem ledger_readResolution (h : s.Ledger o b) (hs : s.readStep pid = some s') :
    (∃ o b, s'.Ledger o b) ∧ Effect s (.readResolution pid) s' := by
  unfold readStep at hs
  split at hs
  · rename_i event copy hpid
    have hdeliv := h.deliveries pid
    rw [hpid] at hdeliv
    split at hs
    · rename_i hresched
      cases hs
      obtain ⟨hlt, _, hd, -⟩ := hdeliv
      refine ⟨⟨o, b, h.finish h.rows (.refl _) (by rw [hd]; simp) hlt⟩, .of_eq rfl rfl, id, Or.inl,
        fun d' hd' => Or.inr ⟨d', hd', rfl⟩, fun _ => ?_⟩
      exact Or.inr (Or.inr (Or.inr ⟨⟨pid, rfl⟩, hresched, rfl⟩))
    · cases hs
      exact ⟨⟨o, b, h.setDelivery hdeliv⟩, .of_store rfl rfl⟩
  · cases hs

theorem rows_insertRefund {s : OutcomeStore} {copy : BookingOutcomeDecision}
    {payment : PaymentStore} {r : RefundEntity} (h : s.Rows o b) (hcopy : s.IsCopy copy)
    (hreq : s.payment.requestRefund (executionRefund copy) refundId = .inserted payment r) :
    ({ s with payment := payment } : OutcomeStore).Rows o b ∧ r.status = .pending ∧
      payment.refunds = s.payment.refunds ++ [r] ∧
      ({ s with payment := payment } : OutcomeStore).IsCopy copy ∧
      s.Grows { s with payment := payment } := by
  obtain ⟨d, hd, hid, hord, hkey, hrefund, -⟩ := hcopy
  rcases requestRefund_cases hreq with heq | ⟨r', heq, -⟩ |
    ⟨n, intent, hn, hnone, -, heq⟩
  · cases heq
  · cases heq
  · injection heq with hpay hr
    have hdec := h.decided d hd
    have hempty : s.payment.refunds = [] := by
      rcases hdec.refunds with hempty | ⟨r', hr', hr'order, hr'key, -⟩
      · exact hempty
      · -- the refund that is there has the key, so the request would have found it
        exfalso
        refine findRefund_eq_none.1 hnone r' (by rw [hr']; exact mem_cons_self)
          ?_ ?_
        · exact hr'order.trans (hord.trans hdec.orderId).symm
        · exact hr'key.trans (hkey.trans hdec.key).symm
    have happend : payment.refunds = s.payment.refunds ++ [r] := by rw [hpay, hr]
    have hrefs : payment.refunds = [r] := by rw [happend, hempty, nil_append]
    have hne : payment.refunds ≠ [] := by rw [hrefs]; simp
    have hamt : n = d.refundToman := by
      rw [← hrefund]
      exact assertNonNegativeAmount_ofInt_eq hn
    refine ⟨⟨h.order, h.booking, h.source, h.collected, h.cancelled, h.published, ?_, ?_⟩,
      by rw [hr]; rfl, happend, ⟨d, hd, hid, hord, hkey, hrefund, fun _ => Or.inr hne⟩, fun _ _ => id, le_rfl,
      fun _ => hne, fun d' hd' => ⟨d', hd', rfl, rfl, rfl, rfl⟩, id⟩
    · intro hnodecision
      rw [hd] at hnodecision
      cases hnodecision
    · intro d' hd'
      cases hd.symm.trans hd'
      refine ⟨hdec.orderId, hdec.key, hdec.nonneg, hdec.customer, hdec.other,
        fun _ => Or.inr hne, Or.inr ⟨r, hrefs, ?_, ?_, ?_⟩⟩
      · rw [hr]
        exact hord.trans hdec.orderId
      · rw [hr]
        exact hkey.trans hdec.key
      · rw [hr, ← hamt]
        rfl

theorem ledger_executeDecision (h : s.Ledger o b) (hs : s.executeStep pid refundId = some s') :
    (∃ o b, s'.Ledger o b) ∧ Effect s (.executeDecision pid refundId) s' := by
  unfold executeStep at hs
  split at hs
  · rename_i event copy hpid
    have hdeliv := h.deliveries pid
    rw [hpid] at hdeliv
    obtain ⟨hlt, hcopy⟩ := hdeliv
    split at hs
    · rename_i hdone
      cases hs
      obtain ⟨d, hd, -, -, -, hrefund, hexec⟩ := hcopy
      refine ⟨⟨o, b, h.finish h.rows (.refl _) (by rw [hd]; simp) hlt⟩,
        .of_booking (.of_eq rfl rfl) rfl rfl (fun d' hd' => ⟨d', hd', rfl⟩) fun _ => Or.inr ?_⟩
      rcases hdone with hstat | hzero
      · rcases hexec hstat with hzero | hne
        · exact Or.inr ⟨d, hd, hzero⟩
        · exact Or.inl hne
      · exact Or.inr ⟨d, hd, hrefund ▸ hzero⟩
    · rename_i hasks
      rw [not_or, not_not, not_le] at hasks
      split at hs
      · cases hs
      cases hreq : s.store.payment.requestRefund (executionRefund copy) refundId with
      | existing =>
        rw [hreq] at hs
        cases hs
        have hne : s.store.payment.refunds ≠ [] := by
          rcases requestRefund_cases hreq with heq | ⟨_, heq, hfind⟩ |
            ⟨n, intent, -, -, -, heq⟩
          · cases heq
          · exact ne_nil_of_mem (findRefund_eq_some hfind).1
          · cases heq
        exact ⟨⟨o, b, h.setDelivery ⟨hlt, hcopy, hne⟩⟩, .of_store rfl rfl⟩
      | inserted payment r =>
        rw [hreq] at hs
        cases hs
        obtain ⟨hrows, hpend, happend, hcopy', hg⟩ := rows_insertRefund h.rows hcopy hreq
        have hne : payment.refunds ≠ [] := by rw [happend]; simp
        have hwrites : (s.deliveries pid).asks = true := by
          rw [hpid, Delivery.asks, decide_eq_true_eq]
          exact hasks
        exact ⟨⟨o, b, h.commit hrows hg id ⟨hlt, hcopy', hne⟩⟩,
          .of_booking (.asks pid refundId r rfl hwrites hpend happend rfl) rfl rfl
            (fun d' hd' => ⟨d', hd', rfl⟩) fun _ => Or.inr (Or.inl hne)⟩
      | threw =>
        rw [hreq] at hs
        cases hs
        exact ⟨⟨o, b, h.setDelivery trivial⟩, .of_store rfl rfl⟩
  · cases hs

theorem rows_recordAnswer {s : OutcomeStore} (h : s.Rows o b) (hne : s.payment.refunds ≠ [])
    (refundId : Uuid) (answer : RefundAnswer) (now : Instant) :
    ({ s with payment := s.payment.recordAnswer refundId answer now } : OutcomeStore).Rows o b ∧
      (s.payment.recordAnswer refundId answer now).refunds ≠ [] := by
  obtain ⟨ref, code, hrefs⟩ := s.payment.recordAnswer_refunds refundId answer now
  have hne' : (s.payment.recordAnswer refundId answer now).refunds ≠ [] := by
    rw [hrefs, updateWhere]
    simpa using hne
  refine ⟨⟨h.order, h.booking, h.source, h.collected, h.cancelled, h.published, ?_, ?_⟩, hne'⟩
  · exact fun hnone => absurd (h.undecided hnone).refunds hne
  · intro d hd
    have hdec := h.decided d hd
    refine ⟨hdec.orderId, hdec.key, hdec.nonneg, hdec.customer, hdec.other,
      fun _ => Or.inr hne', Or.inr ?_⟩
    obtain ⟨r, hr, hord, hkey, hamt⟩ := hdec.refunds.resolve_left hne
    have hsingle : (s.payment.recordAnswer refundId answer now).refunds =
        [if r.id = refundId ∧ r.status = .pending then
          completedRefund answer.status ref code now r else r] := by
      rw [hrefs, hr]
      rfl
    refine ⟨_, hsingle, ?_⟩
    split_ifs <;> exact ⟨hord, hkey, hamt⟩

theorem ledger_refunded (h : s.Ledger o b) {answer : RefundAnswer}
    (hs : s.answerStep pid answer now = some s') :
    (∃ o b, s'.Ledger o b) ∧ Effect s (.refunded pid answer now) s' := by
  unfold answerStep at hs
  split at hs
  · rename_i event copy refundId hpid
    have hdeliv := h.deliveries pid
    rw [hpid] at hdeliv
    obtain ⟨hlt, hcopy, hne⟩ := hdeliv
    obtain ⟨hrows, hne'⟩ := rows_recordAnswer h.rows hne refundId answer now
    have hg : s.store.Grows
        { s.store with payment := s.store.payment.recordAnswer refundId answer now } :=
      ⟨fun _ _ => id, le_rfl, fun _ => hne', fun d hd => ⟨d, hd, rfl, rfl, rfl, rfl⟩, id⟩
    obtain ⟨ref, code, hrefs⟩ := s.store.payment.recordAnswer_refunds refundId answer now
    have heff : ∀ delivery, Effect s (.refunded pid answer now) (s.commit pid delivery
        { s.store with payment := s.store.payment.recordAnswer refundId answer now }) :=
      fun delivery => .of_booking (.answers pid answer now refundId ref code rfl hrefs rfl) rfl
        rfl (fun d' hd' => ⟨d', hd', rfl⟩) fun _ => Or.inr (Or.inl hne')
    dsimp only at hs
    split at hs <;> cases hs
    · exact ⟨⟨o, b, h.commit hrows hg id trivial⟩, heff _⟩
    · exact ⟨⟨o, b, h.commit hrows hg id ⟨hlt, hcopy.mono hg, hne'⟩⟩, heff _⟩
  · cases hs

theorem rows_recordExecution {s : OutcomeStore} (h : s.Rows o b) (hne : s.payment.refunds ≠ [])
    (decisionId : Uuid) (status : ExecutionStatus) :
    (s.recordExecution decisionId status).Rows o b ∧
      s.Grows (s.recordExecution decisionId status) := by
  have hmap : ∀ d', (s.recordExecution decisionId status).decision = some d' →
      ∃ d, s.decision = some d ∧ (d' = d ∨ d' = { d with executionStatus := status }) := by
    intro d' hd'
    obtain ⟨d, hd, heq⟩ := map_eq_some_iff.1 hd'
    refine ⟨d, hd, ?_⟩
    split_ifs at heq
    · exact Or.inr heq.symm
    · exact Or.inl heq.symm
  refine ⟨⟨h.order, h.booking, h.source, h.collected, h.cancelled, h.published, ?_, ?_⟩,
    fun _ _ => id, le_rfl, id, ?_, id⟩
  · exact fun hnone => absurd (h.undecided (map_eq_none_iff.1 hnone)).refunds hne
  · intro d' hd'
    obtain ⟨d, hd, heq | heq⟩ := hmap d' hd'
    all_goals
      have hdec := h.decided d hd
      subst heq
      exact ⟨hdec.orderId, hdec.key, hdec.nonneg, hdec.customer, hdec.other,
        fun _ => Or.inr hne, hdec.refunds⟩
  · intro d hd
    have hd' : (s.recordExecution decisionId status).decision =
        some (if d.id = decisionId ∧ d.executionStatus = .pending then
          { d with executionStatus := status } else d) := by
      rw [recordExecution, hd]
      rfl
    refine ⟨_, hd', ?_⟩
    split_ifs <;> exact ⟨rfl, rfl, rfl, rfl⟩

theorem ledger_recordExecution (h : s.Ledger o b) (hs : s.recordStep pid = some s') :
    (∃ o b, s'.Ledger o b) ∧ Effect s e s' := by
  unfold recordStep at hs
  split at hs
  · rename_i event copy status hpid
    have hdeliv := h.deliveries pid
    rw [hpid] at hdeliv
    obtain ⟨hlt, ⟨d, hd, -⟩, hne⟩ := hdeliv
    split at hs <;> cases hs
    · exact ⟨⟨o, b, h.finish h.rows (.refl _) (by rw [hd]; simp) hlt⟩, .of_booking (.of_eq rfl rfl)
        rfl rfl (fun d' hd' => ⟨d', hd', rfl⟩) fun _ => Or.inr (Or.inl hne)⟩
    · obtain ⟨hrows, hg⟩ := rows_recordExecution h.rows hne copy.id (executionStatusOf status)
      have hdec : (s.store.recordExecution copy.id (executionStatusOf status)).decision ≠
          none := by
        obtain ⟨d', hd', -⟩ := hg.decision d hd
        rw [hd']
        simp
      refine ⟨⟨o, b, h.finish hrows hg hdec hlt⟩, .of_booking (.of_eq rfl rfl) rfl rfl ?_
        fun _ => Or.inr (Or.inl hne)⟩
      intro d' hd'
      obtain ⟨_, hd'', -, -, -, hrefund⟩ := hg.decision d hd
      cases hd'.symm.trans hd''
      exact ⟨d, hd, hrefund.symm⟩
  · cases hs

theorem ledger_deliver (h : s.Ledger o b) (hs : s.deliverStep pid event = some s') :
    (∃ o b, s'.Ledger o b) ∧ Effect s e s' := by
  unfold deliverStep at hs
  split at hs
  · split at hs
    · rename_i bookingId previousStatus actorType hget
      cases hs
      exact ⟨⟨o, b, h.setDelivery ⟨previousStatus, actorType, hget⟩⟩, .of_store rfl rfl⟩
    · cases hs
  · cases hs

theorem ledger_projectRefund (h : s.Ledger o b) (hs : s.projectStep refundId now = some s') :
    (∃ o b, s'.Ledger o b) ∧ Effect s e s' := by
  unfold projectStep at hs
  split at hs
  · cases hs
  rename_i r hfind
  have hne : s.store.payment.refunds ≠ [] :=
    ne_nil_of_mem (mem_of_find?_eq_some hfind)
  split at hs
  · cases hs
  rename_i projected order hproject
  cases hs
  have hord : ∃ o', order.order = some o' ∧ o'.id = o.id ∧ o'.sourceType = o.sourceType ∧
      o'.sourceId = o.sourceId ∧ o'.collectedTotalToman = o.collectedTotalToman := by
    rcases OrderStore.recordRefund_cases hproject with heq | ⟨_, -, hwithin⟩
    · exact ⟨o, by rw [heq]; exact h.rows.order, rfl, rfl, rfl, rfl⟩
    · rcases OrderStore.recordRefundWithin_cases hwithin with heq | ⟨_, ho₁, -, -, heq⟩
      · exact ⟨o, by rw [heq]; exact h.rows.order, rfl, rfl, rfl, rfl⟩
      · cases h.rows.order.symm.trans ho₁
        subst heq
        exact ⟨_, rfl, rfl, rfl, rfl, rfl⟩
  obtain ⟨o', ho', hid, htype, hsrc, hcoll⟩ := hord
  refine ⟨⟨o', b, ⟨ho', h.rows.booking, by rw [htype, hsrc]; exact h.rows.source,
    by rw [hcoll]; exact h.rows.collected, h.rows.cancelled, h.rows.published, ?_, ?_⟩,
    h.handled, h.unhandled, h.deliveries, h.locked⟩,
    .of_booking (.of_eq rfl rfl) rfl rfl (fun d' hd' => ⟨d', hd', rfl⟩) Or.inl⟩
  · exact fun hnone => absurd (h.rows.undecided hnone).refunds hne
  · intro d hd
    obtain ⟨horderId, hkey, hnonneg, hcust, hother, hexec, hrefs⟩ :=
      h.rows.decided d hd
    refine ⟨horderId.trans hid.symm, hkey, hnonneg, hcust, ?_, hexec, ?_⟩
    · rw [hcoll]; exact hother
    · rw [hid]; exact hrefs

/-! ## Steps of the booking and of the remedy -/

theorem rows_reschedule {s : OutcomeStore} {slot : Option ClaimedSlot} {remedyBypass : Bool}
    (h : s.Rows o b)
    (hmove : s.booking.reschedule slot actor remedyBypass permitted now = some booking)
    (hremedy : s.remedy = none ↔ remedy = none) (hbypass : remedyBypass = true → s.remedy ≠ none) :
    ∃ b', b'.status ≠ .cancelled ∧
      ({ s with
        booking := booking
        remedy := remedy } : OutcomeStore).Rows o b' ∧
      s.Grows { s with
        booking := booking
        remedy := remedy } := by
  obtain ⟨_, b', hb₁, hb', hid, -, hstat, _, published, -, -, hout, hnot⟩ :=
    BookingStore.reschedule_eq_some hmove
  cases h.booking.symm.trans hb₁
  have hlive : b'.status ≠ .cancelled := by
    rcases hstat with ⟨hmem, heq⟩ | ⟨-, -, heq⟩
    · rw [heq]
      intro hcanc
      rw [hcanc] at hmem
      simp [slotHoldingStatuses] at hmem
    · rw [heq]
      simp
  -- a booking that was cancelled is only revived for a remedy that was offered
  have hrevived : b.status = .cancelled → s.remedy ≠ none := by
    intro hcanc
    rcases hstat with ⟨hmem, -⟩ | ⟨hbyp, -, -⟩
    · rw [hcanc] at hmem
      simp [slotHoldingStatuses] at hmem
    · exact hbypass hbyp
  have hevents : ∀ event bookingId,
      ({ s with
        booking := booking
        remedy := remedy } : OutcomeStore).IsCancellation event bookingId ↔
        s.IsCancellation event bookingId := by
    intro event bookingId
    unfold OutcomeStore.IsCancellation
    simp only [hout, getElem?_concat_eq_some]
    constructor
    · rintro ⟨p, a, hold | ⟨-, heq⟩⟩
      · exact ⟨p, a, hold⟩
      · exact absurd heq (hnot bookingId p a)
    · rintro ⟨p, a, hold⟩
      exact ⟨p, a, Or.inl hold⟩
  refine ⟨b', hlive, ⟨h.order, hb', by rw [hid]; exact h.source, h.collected,
    fun hcanc => absurd hcanc hlive, ?_, ?_, ?_⟩, ?_⟩
  · intro event bookingId hev
    rw [hid]
    exact h.published event bookingId ((hevents event bookingId).1 hev)
  · intro hnone
    have hundecided := h.undecided hnone
    refine ⟨hremedy.1 hundecided.remedy, hundecided.refunds, hundecided.refunded, ?_⟩
    intro event bookingId hev
    have hcanc := hundecided.stands event bookingId ((hevents event bookingId).1 hev)
    exact absurd hundecided.remedy (hrevived hcanc)
  · intro d hd
    have hdec := h.decided d hd
    refine ⟨hdec.orderId, by rw [hid]; exact hdec.key, hdec.nonneg, ?_, hdec.other,
      hdec.executed, by rw [hid]; exact hdec.refunds⟩
    intro hcust
    obtain ⟨hnone, hcanc, -⟩ := hdec.customer hcust
    exact absurd hnone (hrevived hcanc)
  · refine ⟨fun event bookingId => (hevents event bookingId).2, ?_, id,
      fun d hd => ⟨d, hd, rfl, rfl, rfl, rfl⟩, fun hne hnone => hne (hremedy.2 hnone)⟩
    rw [hout, length_append]
    omega

theorem Effect.of_move (hwrites : Writes s e s') (hstore : s'.store = { s.store with
      booking := booking
      remedy := remedy }) (hhandled : s'.handled = s.handled)
    (hlive : ∀ b, booking.booking = some b → b.status ≠ .cancelled) (hg : s.store.Grows s'.store)
    (hresched : s.store.rescheduled = true → s'.store.rescheduled = true) : Effect s e s' where
  writes := hwrites
  rescheduled := hresched
  cancelled := by
    rintro ⟨b, hb, hstat, -⟩
    rw [hstore] at hb
    exact absurd hstat (hlive b hb)
  decision d' hd' := by
    rw [hstore] at hd'
    exact Or.inr ⟨d', hd', rfl⟩
  unhandled := by
    rintro ⟨event, hev, bookingId, previousStatus, actorType, hget⟩
    obtain ⟨p, a, hget'⟩ := hg.events event bookingId ⟨previousStatus, actorType, hget⟩
    exact Or.inl ⟨event, by rw [hhandled]; exact hev, bookingId, p, a, hget'⟩

theorem Ledger.release (h : s.Ledger o b) {b' : BookingEntity} {resolver : Resolver}
    (hrows : store.Rows o b') (hg : s.store.Grows store)
    (hdec : store.decision = none → s.store.decision = none)
    (hresolver : ∀ newSlotId, resolver ≠ .locked newSlotId) :
    (s.release pid resolver store).Ledger o b' where
  rows := hrows
  handled event hev := lt_of_lt_of_le (h.handled event hev) hg.outbox
  unhandled hnone := h.unhandled (hdec hnone)
  deliveries q := (h.deliveries q).mono hg
  locked q newSlotId hq := by
    have hq' : update s.resolvers pid resolver q = .locked newSlotId := hq
    by_cases hpq : q = pid
    · rw [hpq, update_self] at hq'
      exact absurd hq' (hresolver newSlotId)
    · rw [update_of_ne hpq] at hq'
      exact hg.remedy (h.locked q newSlotId hq')

theorem ledger_resolve (h : s.Ledger o b) {choice : RemedyOption} {newSlotId : Option Uuid}
    (hs : s.resolveStep pid bookingId choice newSlotId = some s') :
    (∃ o b, s'.Ledger o b) ∧ Effect s e s' := by
  unfold resolveStep at hs
  split at hs
  · cases hcheck : s.store.resolveRemedy bookingId choice newSlotId with
    | threw | unchanged =>
      rw [hcheck] at hs
      cases hs
      exact ⟨⟨o, b, h.release h.rows (.refl _) id (by simp)⟩, .of_store rfl rfl⟩
    | reschedule =>
      rw [hcheck] at hs
      cases hs
      have hremedy : s.store.remedy ≠ none := by
        intro hnone
        unfold resolveRemedy at hcheck
        split at hcheck
        · rename_i hsome
          rw [hnone] at hsome
          cases hsome
        · cases hcheck
      exact ⟨⟨o, b, h.rows, h.handled, h.unhandled, h.deliveries, fun _ _ _ => hremedy⟩,
        .of_store rfl rfl⟩
  · cases hs

theorem rescheduled_resolveReschedule {s : OutcomeStore} (h : s.rescheduled = true) :
    ({ s with
      booking := booking
      remedy := s.remedy.map resolveReschedule } : OutcomeStore).rescheduled = true := by
  unfold rescheduled at h ⊢
  cases hremedy : s.remedy with
  | none =>
    rw [hremedy] at h
    cases h
  | some =>
    rw [hremedy] at h
    simp only [map_some, any_some, decide_eq_true_eq, resolveReschedule] at h ⊢
    split_ifs
    · rfl
    · exact h

theorem ledger_commitRemedy (h : s.Ledger o b) {startAt : Option Instant}
    (hs : s.commitStep pid startAt now = some s') :
    (∃ o b, s'.Ledger o b) ∧ Effect s (.commitRemedy pid startAt now) s' := by
  unfold commitStep at hs
  split at hs
  · rename_i newSlotId hpid
    have hremedy := h.locked pid newSlotId hpid
    cases hcommit : s.store.rescheduleRemedy (startAt.map fun t => ⟨newSlotId, t⟩) now with
    | none =>
      rw [hcommit] at hs
      cases hs
      exact ⟨⟨o, b, h.release h.rows (.refl _) id (by simp)⟩, .of_store rfl rfl⟩
    | some store =>
      rw [hcommit] at hs
      cases hs
      obtain ⟨booking, hmove, hstore⟩ := rescheduleRemedy_eq_some hcommit
      subst hstore
      obtain ⟨startAt, rfl⟩ : ∃ t, startAt = some t := by
        cases startAt with
        | none =>
          rw [map_none, rescheduleRemedy_none] at hcommit
          cases hcommit
        | some startAt => exact ⟨startAt, rfl⟩
      obtain ⟨b', hlive, hrows, hg⟩ := rows_reschedule h.rows hmove
        map_eq_none_iff.symm (fun _ => hremedy)
      refine ⟨⟨o, b', h.release hrows hg id (by simp)⟩,
        .of_move (.reschedules pid startAt now rfl rfl) rfl rfl ?_ hg rescheduled_resolveReschedule⟩
      intro b₁ hb₁
      cases hrows.booking.symm.trans hb₁
      exact hlive
  · cases hs

theorem ledger_reschedule (h : s.Ledger o b) {slot : ClaimedSlot}
    (hs : s.step (.reschedule slot actor permitted now) = some s') :
    (∃ o b, s'.Ledger o b) ∧ Effect s e s' := by
  simp only [step] at hs
  split at hs
  · cases hs
  rename_i booking hmove
  cases hs
  obtain ⟨b', hlive, hrows, hg⟩ := rows_reschedule h.rows hmove
    (Iff.refl (s.store.remedy = none)) (fun hnot => by cases hnot)
  refine ⟨⟨o, b', hrows, fun event hev => lt_of_lt_of_le (h.handled event hev) hg.outbox,
    h.unhandled, fun q => (h.deliveries q).mono hg, h.locked⟩,
    .of_move (.of_eq rfl rfl) rfl rfl ?_ hg id⟩
  intro b₁ hb₁
  cases hrows.booking.symm.trans hb₁
  exact hlive

theorem ledger_cancel (h : s.Ledger o b) (hs : s.step (.cancel actor now) = some s') :
    (∃ o b, s'.Ledger o b) ∧ Effect s e s' := by
  cases hs
  rcases s.store.booking.cancel_cases actor now with heq | ⟨_, hb₁, hmem, heq⟩
  · rw [heq]
    exact ⟨⟨o, b, h⟩, .of_store rfl rfl⟩
  · cases h.rows.booking.symm.trans hb₁
    rw [heq]
    have hnot : b.status ≠ .cancelled := by
      intro hcanc
      rw [hcanc] at hmem
      simp at hmem
    have hg : s.store.Grows { s.store with booking := {
        booking := some { b with
          status := .cancelled
          cancelledByActorType := some actor
          cancelledAt := some now }
        history := s.store.booking.history ++ [⟨.cancelled, b.status, .cancelled, actor, now⟩]
        outbox := s.store.booking.outbox ++ [.bookingCancelled b.id b.status actor] } } := by
      refine ⟨?_, ?_, id, fun d hd => ⟨d, hd, rfl, rfl, rfl, rfl⟩, id⟩
      · rintro event bookingId ⟨p, a, hget⟩
        exact ⟨p, a, getElem?_concat_eq_some.2 (Or.inl hget)⟩
      · rw [length_append]
        omega
    refine ⟨⟨o, { b with
        status := .cancelled
        cancelledByActorType := some actor
        cancelledAt := some now }, ⟨h.rows.order, rfl, h.rows.source, h.rows.collected, ?_, ?_, ?_,
        ?_⟩, fun event hev => lt_of_lt_of_le (h.handled event hev) hg.outbox, h.unhandled,
        fun q => (h.deliveries q).mono hg, h.locked⟩, .of_eq rfl rfl, id, ?_,
        fun d' hd' => Or.inr ⟨d', hd', rfl⟩, ?_⟩
    · intro _
      exact ⟨by simp, _, mem_append_right _ mem_cons_self, rfl⟩
    · rintro event bookingId ⟨p, a, hget⟩
      rcases getElem?_concat_eq_some.1 hget with hold | ⟨-, hnew⟩
      · exact h.rows.published event bookingId ⟨p, a, hold⟩
      · injection hnew with hid
        exact hid.symm
    · intro hnone
      have hundecided := h.rows.undecided hnone
      exact ⟨hundecided.remedy, hundecided.refunds, hundecided.refunded, fun _ _ _ => rfl⟩
    · intro d hd
      have hdec := h.rows.decided d hd
      exact ⟨hdec.orderId, hdec.key, hdec.nonneg,
        fun hcust => absurd (hdec.customer hcust).2.1 hnot, hdec.other,
        hdec.executed, hdec.refunds⟩
    · -- the event that this cancellation publishes is new
      intro _
      refine Or.inr ⟨s.store.booking.outbox.length, ?_, b.id, b.status, actor,
        getElem?_concat_eq_some.2 (Or.inr ⟨rfl, rfl⟩)⟩
      intro hmem
      exact absurd (h.handled _ hmem) (lt_irrefl _)
    · rintro ⟨event, hev, bookingId, p, a, hget⟩
      exact Or.inl ⟨event, hev, bookingId, p, a, getElem?_concat_eq_some.2 (Or.inl hget)⟩

/-! ## The step -/

theorem ledger_step (h : s.Ledger o b) (hs : s.step e = some s') :
    (∃ o b, s'.Ledger o b) ∧ Effect s e s' := by
  cases e with
  | cancel => exact ledger_cancel h hs
  | reschedule => exact ledger_reschedule h hs
  | deliver => exact ledger_deliver h hs
  | decide => exact ledger_decide h hs
  | readResolution => exact ledger_readResolution h hs
  | executeDecision => exact ledger_executeDecision h hs
  | refunded => exact ledger_refunded h hs
  | recordExecution => exact ledger_recordExecution h hs
  | projectRefund => exact ledger_projectRefund h hs
  | resolve => exact ledger_resolve h hs
  | commitRemedy => exact ledger_commitRemedy h hs
  | die =>
    cases hs
    exact ⟨⟨o, b, h.setDelivery trivial⟩, .of_store rfl rfl⟩
  | dieResolver =>
    cases hs
    exact ⟨⟨o, b, h.release h.rows (.refl _) id (by simp)⟩, .of_store rfl rfl⟩

/-! ## No refund fails -/

theorem Start.noneFailed (h : Start s) : s.NoneFailed := by
  intro r hr
  rw [h.refunds] at hr
  cases hr

theorem Writes.noneFailed (hw : Writes s e s') (h : s.NoneFailed) (he : e.refuses = false) :
    s'.NoneFailed := by
  unfold NoneFailed
  cases hw with
  | neither hrefs | reschedules _ _ _ _ hrefs =>
    rw [hrefs]
    exact h
  | asks _ _ r _ _ hpend hrefs =>
    intro r' hr'
    rw [hrefs] at hr'
    rcases mem_append.1 hr' with hr' | hr'
    · exact h r' hr'
    · rw [mem_singleton.1 hr', hpend]
      simp
  | answers _ answer _ _ _ _ hev hrefs =>
    subst hev
    rw [hrefs]
    refine forall_mem_updateWhere (fun r hr _ => h r hr) ?_
    intro r _ _
    rw [OutcomeStep.refuses, decide_eq_false_iff_not] at he
    exact he

theorem Ledger.refunded_iff (h : s.Ledger o b) (hnone : s.NoneFailed) :
    s.Refunded ↔ s.store.payment.refunds ≠ [] := by
  constructor
  · rintro ⟨-, -, -, -, r, hr, -⟩
    exact ne_nil_of_mem hr
  · intro hne
    cases hdec : s.store.decision with
    | none => exact absurd (h.rows.undecided hdec).refunds hne
    | some d =>
      obtain ⟨r, hr, hord, hkey, -⟩ := (h.rows.decided d hdec).refunds.resolve_left hne
      have hmem : r ∈ s.store.payment.refunds := by
        rw [hr]
        exact mem_cons_self
      exact ⟨o, b, h.rows.order, h.rows.booking, r, hmem, hord, hkey, hnone r hmem⟩

/-- A booking that somebody other than the customer cancelled and that was decided about: all
that was collected is to be refunded, and nothing is retained. -/
theorem Ledger.decided_other (h : s.Ledger o b) (hother : s.CancelledByOther)
    (hd : s.store.decision = some d) :
    d.refundToman = o.collectedTotalToman ∧ d.basis ≠ .capApplied := by
  obtain ⟨_, hb', -, hactor⟩ := hother
  cases h.rows.booking.symm.trans hb'
  refine (h.rows.decided d hd).other ?_
  intro hcust
  exact hactor ((h.rows.decided d hd).customer hcust).2.2

/-! ## A paid booking -/

/-- A confirmed booking whose order collected its 500. -/
def paidBooking : OutcomeSystem where
  store := {
    booking := ⟨some ⟨2, .confirmed, 6, 900, 0, none, none⟩, [], []⟩
    order := {
      order := some {
        id := 1
        sourceType := .booking
        sourceId := 2
        customerId := 3
        sellerPartyType := .professional
        sellerPartyId := 4
        status := .paid
        totalToman := 500
        refundedTotalToman := 0
        collectedTotalToman := 500
        paidAt := some 10
        cancelledAt := none }
      schedule := some ⟨500, 500, 0⟩
      outbox := [] }
    payment := {
      intents := [⟨7, 1, 3, 500, "IRT", .succeeded, "gateway", 100, some 10, none⟩]
      attempts := [⟨8, 7, "gateway", "reference", .succeeded, 500, some 500, some "redirect",
        some "transaction", none, some 10⟩]
      refunds := []
      outbox := [] }
    terms := none
    decision := none
    remedy := none }
  deliveries := fun _ => .idle
  resolvers := fun _ => .idle
  lockedBy := none
  handled := []

theorem paidBooking_start : Start paidBooking where
  order := ⟨_, _, rfl, rfl, rfl, rfl, by decide, rfl, by decide⟩
  outbox := by simp [paidBooking]
  refunds := rfl
  decision := rfl
  remedy := rfl
  deliveries _ := rfl
  resolvers _ := rfl
  handled := rfl

/-- The seller cancels, and the cancellation is decided. -/
def sellerCancels : List OutcomeStep :=
  [.cancel .professional 20, .deliver 0 0, .decide 0 11 .absent 21]

/-- The customer chooses another slot. -/
def customerReschedules : List OutcomeStep :=
  [.resolve 0 2 .reschedule (some 12), .commitRemedy 0 (some 950) 30]

end OutcomeSystem

end BeauClick.Outcome
