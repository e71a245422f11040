import BeauClick.Booking.Booking
import BeauClick.Commerce.OrderMoney
import Mathlib.Data.List.Nodup
import Mathlib.Data.List.Range

/-!
# The events that are published about a customer

The operations of `booking.service.ts`, those of an order, the tier crossings of the points
ledger and the activations of a membership, each with the event it writes to the outbox in its
own transaction.

`BookingCreated` and the events that nothing below consumes are left out.
-/

namespace BeauClick.Events

open Booking Commerce OrderStore List
open Function (update update_self update_of_ne)

/-! ## Events -/

/-- What a booking event says besides the booking and its two parties. -/
inductive BookingFactKind where
  | confirmed (confirmedAt : Instant)
  | cancelled (slotId : Uuid) (previousStatus : BookingStatus) (cancelledAt : Instant)
      (actorType : BookingActorType) (actorId : Option Uuid) (reason : Option String)
  | completed (serviceId : Option Uuid) (completedAt : Instant)
  | expired (expiredAt : Instant)
  | noShowDeclared (declaredAt objectionWindowEndsAt : Instant)
  | rescheduled (oldSlotId newSlotId : Uuid) (oldStartAt newStartAt : Instant)
      (rescheduleCount : ℕ)
  deriving DecidableEq

/-- The type of a booking event. -/
inductive BookingFactType where
  | confirmed | cancelled | completed | expired | noShowDeclared | rescheduled
  deriving DecidableEq

/-- The type of the event. -/
def BookingFactKind.type : BookingFactKind → BookingFactType
  | .confirmed .. => .confirmed
  | .cancelled .. => .cancelled
  | .completed .. => .completed
  | .expired .. => .expired
  | .noShowDeclared .. => .noShowDeclared
  | .rescheduled .. => .rescheduled

/-- The payload of a booking event. -/
structure BookingFact where
  bookingId : Uuid
  professionalId : Uuid
  customerId : Uuid
  kind : BookingFactKind
  deriving DecidableEq

/-- The payload of a published event. -/
inductive DomainEvent where
  | booking (fact : BookingFact)
  | order (event : CommerceEvent)
  | tierChanged (userId : Uuid) (fromTierSlug toTierSlug : Option String) (changedAt : Instant)
  | membershipActivated (membershipId userId : Uuid) (planSlug source : String)
      (activatedAt : Instant)
  deriving DecidableEq

/-- A row of the outbox. -/
structure OutboxRow where
  id : Uuid
  event : DomainEvent
  occurredAt : Instant
  deriving DecidableEq

/-- The event is of the type and about the booking. -/
def DomainEvent.isFact (id : Uuid) (type : BookingFactType) : DomainEvent → Bool
  | .booking fact => fact.bookingId = id ∧ fact.kind.type = type
  | _ => false

/-- The order that an event is about. -/
def orderIdOf : CommerceEvent → Uuid
  | .orderPaid orderId .. => orderId
  | .orderCollectionCaptured orderId .. => orderId
  | .orderCancelled orderId .. => orderId
  | .orderRefunded orderId .. => orderId

/-- The event says that money was captured for the order. -/
def DomainEvent.isCaptureOf (id : Uuid) : DomainEvent → Bool
  | .order event => event.isCapture ∧ orderIdOf event = id
  | _ => false

/-! ## Bookings -/

/-- The columns of `booking.bookings` that the operations read, write or publish. -/
structure BookingRow where
  professionalId : Uuid
  customerId : Uuid
  serviceId : Option Uuid
  slotId : Uuid
  slotStart : Instant
  status : BookingStatus
  rescheduleCount : ℕ

/-- A call of a booking operation.  `permitted` is what the guards that can only refuse answer;
`governed` says whether the order carries outcome terms. -/
inductive BookingOp where
  | create (professionalId customerId : Uuid) (serviceId : Option Uuid) (slot : ClaimedSlot)
  | confirm
  | cancel (actorType : BookingActorType) (actorId : Option Uuid) (reason : Option String)
  | complete
  | expire
  | markNoShow (governed permitted : Bool) (objectionWindowEndsAt : Instant)
  | reschedule (slot : Option ClaimedSlot) (remedyBypass permitted : Bool)

namespace BookingRow

/-- `transition`: the compare-and-swap of the status. -/
def transition (b : BookingRow) (allowedFrom : List BookingStatus) (toStatus : BookingStatus)
    (fact : Option BookingFactKind) : Option (BookingRow × Option BookingFactKind) :=
  if b.status ∈ allowedFrom then some ({ b with status := toStatus }, fact) else none

/-- `reschedule`: a move to a claimed slot; a remedy's move revives a cancelled booking. -/
def reschedule (b : BookingRow) (slot : Option ClaimedSlot) (remedyBypass permitted : Bool) :
    Option (BookingRow × Option BookingFactKind) :=
  match slot with
  | none => none
  | some slot =>
    if b.status ∈ BookingStore.eligibleStatuses remedyBypass ∧
        (remedyBypass = true ∨ permitted = true) ∧ slot.id ≠ b.slotId then
      some ({ b with
          status := BookingStore.targetStatus remedyBypass b.status
          slotId := slot.id
          slotStart := slot.startAt
          rescheduleCount := b.rescheduleCount + 1 },
        some (.rescheduled b.slotId slot.id b.slotStart slot.startAt (b.rescheduleCount + 1)))
    else none

/-- An operation on a booking: the row it leaves and the fact it publishes, or `none` when it
writes nothing. -/
def apply (now : Instant) : Option BookingRow → BookingOp →
    Option (BookingRow × Option BookingFactKind)
  | none, .create professionalId customerId serviceId slot =>
    some (⟨professionalId, customerId, serviceId, slot.id, slot.startAt, .pending, 0⟩, none)
  | some b, .confirm => b.transition [.pending] .confirmed (some (.confirmed now))
  | some b, .cancel actorType actorId reason =>
    b.transition [.pending, .confirmed] .cancelled
      (some (.cancelled b.slotId b.status now actorType actorId reason))
  | some b, .complete => b.transition [.confirmed] .completed (some (.completed b.serviceId now))
  | some b, .expire => b.transition [.pending] .expired (some (.expired now))
  | some b, .markNoShow governed permitted objectionWindowEndsAt =>
    if permitted then
      b.transition [.confirmed] .noShow
        (if governed then some (.noShowDeclared now objectionWindowEndsAt) else none)
    else none
  | some b, .reschedule slot remedyBypass permitted => b.reschedule slot remedyBypass permitted
  | _, _ => none

end BookingRow

/-! ## The platform -/

/-- The bookings, the orders, and what was published. -/
structure Platform where
  bookings : Uuid → Option BookingRow
  orders : Uuid → OrderStore
  outbox : List OutboxRow

/-- A call of an operation. -/
inductive PlatformCall where
  | booking (id : Uuid) (op : BookingOp)
  | placeOrder (id : Uuid) (order : OrderEntity) (schedule : OrderPaymentScheduleEntity)
  | order (id : Uuid) (op : OrderOp)
  | changeTier (userId : Uuid) (fromTierSlug toTierSlug : Option String)
  | activateMembership (membershipId userId : Uuid) (planSlug source : String)

/-- A call and when it commits. -/
structure PlatformOp where
  now : Instant
  call : PlatformCall

namespace Platform

def start : Platform where
  bookings _ := none
  orders _ := ⟨none, none, []⟩
  outbox := []

/-- `emitEvent`. -/
def emit (s : Platform) (now : Instant) (event : DomainEvent) : Platform :=
  { s with outbox := s.outbox ++ [⟨s.outbox.length, event, now⟩] }

/-- A new order as `insertOrder` writes it. -/
def placed (id : Uuid) (order : OrderEntity) : OrderEntity :=
  { order with
    id := id
    status := .pending
    refundedTotalToman := 0
    collectedTotalToman := 0
    paidAt := none
    cancelledAt := none }

/-- The platform after an operation. -/
def apply (s : Platform) (op : PlatformOp) : Platform :=
  match op.call with
  | .booking id bookingOp =>
    match BookingRow.apply op.now (s.bookings id) bookingOp with
    | none => s
    | some (b, fact) =>
      let s' := { s with bookings := update s.bookings id (some b) }
      match fact with
      | none => s'
      | some kind => s'.emit op.now (.booking ⟨id, b.professionalId, b.customerId, kind⟩)
  | .placeOrder id order schedule =>
    if (s.orders id).order = none ∧ 0 ≤ order.totalToman then
      { s with orders := update s.orders id ⟨some (placed id order), some schedule, []⟩ }
    else s
  | .order id orderOp =>
    let store := (s.orders id).apply orderOp
    let s' := { s with orders := update s.orders id store }
    match store.outbox.drop (s.orders id).outbox.length with
    | [] => s'
    | event :: _ => s'.emit op.now (.order event)
  | .changeTier userId fromTierSlug toTierSlug =>
    s.emit op.now (.tierChanged userId fromTierSlug toTierSlug op.now)
  | .activateMembership membershipId userId planSlug source =>
    s.emit op.now (.membershipActivated membershipId userId planSlug source op.now)

/-- One operation after the other. -/
def step (s : Platform) (op : PlatformOp) : Option Platform := some (s.apply op)

/-- An event of the type was published about the booking. -/
def HasFact (s : Platform) (id : Uuid) (type : BookingFactType) : Prop :=
  ∃ x ∈ s.outbox, x.event.isFact id type = true

/-- A capture of the order was published. -/
def HasCapture (s : Platform) (id : Uuid) : Prop :=
  ∃ x ∈ s.outbox, x.event.isCaptureOf id = true

end Platform

/-! ## What a booking operation can do -/

namespace BookingRow

variable {b b' : BookingRow} {now : Instant} {op : BookingOp} {fact : Option BookingFactKind}

theorem transition_eq_some {allowedFrom : List BookingStatus} {toStatus : BookingStatus}
    {f : Option BookingFactKind} (h : b.transition allowedFrom toStatus f = some (b', fact)) :
    b.status ∈ allowedFrom ∧ b' = { b with status := toStatus } ∧ fact = f := by
  rw [transition] at h
  split at h
  · rename_i hmem
    cases h
    exact ⟨hmem, rfl, rfl⟩
  · cases h

/-- What the statuses before and after an operation say about the fact it publishes. -/
inductive Moves (b b' : BookingRow) : BookingOp → Option BookingFactKind → Prop
  | confirm {now : Instant} (hfrom : b.status = .pending) (hto : b'.status = .confirmed) :
      Moves b b' .confirm (some (.confirmed now))
  | cancel {actorType : BookingActorType} {actorId : Option Uuid} {reason : Option String}
      {now : Instant} (hfrom : b.status ∈ [.pending, .confirmed]) (hto : b'.status = .cancelled) :
      Moves b b' (.cancel actorType actorId reason)
        (some (.cancelled b.slotId b.status now actorType actorId reason))
  | complete {now : Instant} (hfrom : b.status = .confirmed) (hto : b'.status = .completed) :
      Moves b b' .complete (some (.completed b.serviceId now))
  | expire {now : Instant} (hfrom : b.status = .pending) (hto : b'.status = .expired) :
      Moves b b' .expire (some (.expired now))
  | declare {governed permitted : Bool} {now endsAt : Instant} {fact : Option BookingFactKind}
      (hfrom : b.status = .confirmed) (hto : b'.status = .noShow)
      (hfact : fact = if governed then some (.noShowDeclared now endsAt) else none) :
      Moves b b' (.markNoShow governed permitted endsAt) fact
  | move {slot : Option ClaimedSlot} {remedyBypass permitted : Bool} {newSlotId : Uuid}
      {newStartAt : Instant} {count : ℕ}
      (hfrom : b.status ∈ BookingStore.eligibleStatuses remedyBypass)
      (hto : b'.status = BookingStore.targetStatus remedyBypass b.status) :
      Moves b b' (.reschedule slot remedyBypass permitted)
        (some (.rescheduled b.slotId newSlotId b.slotStart newStartAt count))

theorem moves_of_apply (h : apply now (some b) op = some (b', fact)) :
    b'.professionalId = b.professionalId ∧ b'.customerId = b.customerId ∧ Moves b b' op fact := by
  cases op with
  | create => cases h
  | confirm =>
    obtain ⟨hfrom, rfl, rfl⟩ := transition_eq_some h
    exact ⟨rfl, rfl, .confirm (mem_singleton.1 hfrom) rfl⟩
  | cancel =>
    obtain ⟨hfrom, rfl, rfl⟩ := transition_eq_some h
    exact ⟨rfl, rfl, .cancel hfrom rfl⟩
  | complete =>
    obtain ⟨hfrom, rfl, rfl⟩ := transition_eq_some h
    exact ⟨rfl, rfl, .complete (mem_singleton.1 hfrom) rfl⟩
  | expire =>
    obtain ⟨hfrom, rfl, rfl⟩ := transition_eq_some h
    exact ⟨rfl, rfl, .expire (mem_singleton.1 hfrom) rfl⟩
  | markNoShow governed permitted =>
    cases permitted with
    | false => cases h
    | true =>
      obtain ⟨hfrom, rfl, rfl⟩ := transition_eq_some h
      exact ⟨rfl, rfl, .declare (mem_singleton.1 hfrom) rfl rfl⟩
  | reschedule slot =>
    cases slot with
    | none => cases h
    | some =>
      rw [apply, reschedule] at h
      split at h
      · rename_i hguard
        cases h
        exact ⟨rfl, rfl, .move hguard.1 rfl⟩
      · cases h

theorem Moves.status (h : Moves b b' op fact) :
    b.status ≠ .completed ∧ b.status ≠ .noShow ∧ (b'.status = .pending → b.status = .pending) := by
  cases h with
  | confirm hfrom => simp [hfrom]
  | cancel hfrom hto =>
    simp only [mem_cons, not_mem_nil, or_false] at hfrom
    rcases hfrom with hfrom | hfrom <;> simp [hfrom, hto]
  | complete hfrom hto => simp [hfrom, hto]
  | expire hfrom => simp [hfrom]
  | declare hfrom hto => simp [hfrom, hto]
  | move hfrom hto =>
    rcases BookingStore.targetStatus_cases hfrom with ⟨hmem, htarget⟩ | ⟨-, hstat, htarget⟩
    · rw [htarget] at hto
      simp only [slotHoldingStatuses, mem_cons, not_mem_nil, or_false] at hmem
      rcases hmem with hmem | hmem <;> simp [hmem, hto]
    · rw [htarget] at hto
      simp [hstat, hto]

end BookingRow

/-! ## What an operation publishes -/

/-- An order is left alone, or rewritten under its id, with one event about it at most. -/
inductive OrderMoves (s : OrderStore) : OrderStore → Prop
  | stay : OrderMoves s s
  | quiet {t : OrderStore} {row row' : OrderEntity} (hrow : s.order = some row)
      (hrow' : t.order = some row') (hid : row'.id = row.id) (houtbox : t.outbox = s.outbox) :
      OrderMoves s t
  | publish {t : OrderStore} {row row' : OrderEntity} {event : CommerceEvent}
      (hrow : s.order = some row) (hrow' : t.order = some row') (hid : row'.id = row.id)
      (hevent : orderIdOf event = row.id) (houtbox : t.outbox = s.outbox ++ [event]) :
      OrderMoves s t

theorem orderMoves_apply (s : OrderStore) (op : OrderOp) : OrderMoves s (s.apply op) := by
  cases op with
  | recordVerifiedCapture =>
    refine committed_keeps .stay fun _ s' h => ?_
    rcases recordVerifiedCapture_cases h with ⟨rfl, -⟩ | hcaptured
    · exact .stay
    · obtain ⟨_, row, _, _, hord, _, _, _, _, _, _, _, rfl, _, rfl⟩ := hcaptured
      refine .publish hord rfl rfl ?_ rfl
      split <;> rfl
  | confirmNoOnlineCollection =>
    refine committed_keeps .stay fun _ s' h => ?_
    rcases confirmNoOnlineCollection_cases h with rfl | ⟨row, hord, _, rfl⟩
    · exact .stay
    · exact .quiet hord rfl rfl rfl
  | cancel reason now =>
    rw [apply]
    rcases cancel_cases s reason now with h | ⟨row, hord, _, h⟩
    · rw [h]
      exact .stay
    · rw [h]
      exact .publish hord rfl rfl rfl rfl
  | recordRefund =>
    refine committed_keeps .stay fun _ s' h => ?_
    rcases recordRefund_cases h with rfl | ⟨_, _, hwithin⟩
    · exact .stay
    · rcases recordRefundWithin_cases hwithin with rfl | ⟨_, hord, _, _, rfl⟩
      · exact .stay
      · exact .publish hord rfl rfl rfl rfl

theorem OrderMoves.id_eq {s t : OrderStore} {id : Uuid} (h : OrderMoves s t)
    (hs : ∀ row, s.order = some row → row.id = id) (row : OrderEntity) (hrow : t.order = some row) :
    row.id = id := by
  cases h with
  | stay => exact hs row hrow
  | quiet hbef hafter hid =>
    cases hafter.symm.trans hrow
    exact hid.trans (hs _ hbef)
  | publish hbef hafter hid =>
    cases hafter.symm.trans hrow
    exact hid.trans (hs _ hbef)

theorem OrderMoves.eq_of_none {s t : OrderStore} (h : OrderMoves s t) (hs : s.order = none) :
    t = s := by
  cases h with
  | stay => rfl
  | quiet hbef => cases hs.symm.trans hbef
  | publish hbef => cases hs.symm.trans hbef

namespace Platform

variable {s : Platform} {op : PlatformOp} {event : DomainEvent} {now : Instant} {id : Uuid}

/-- The event an operation publishes. -/
inductive Emits (s : Platform) : PlatformOp → DomainEvent → Prop
  | booking {id : Uuid} {bookingOp : BookingOp} {now : Instant} {b b' : BookingRow}
      {kind : BookingFactKind} (hb : s.bookings id = some b)
      (hop : BookingRow.apply now (some b) bookingOp = some (b', some kind)) :
      Emits s ⟨now, .booking id bookingOp⟩
        (.booking ⟨id, b'.professionalId, b'.customerId, kind⟩)
  | order {id : Uuid} {orderOp : OrderOp} {now : Instant} {row : OrderEntity}
      {event : CommerceEvent} (hrow : (s.orders id).order = some row)
      (hid : orderIdOf event = row.id)
      (hop : ((s.orders id).apply orderOp).outbox = (s.orders id).outbox ++ [event]) :
      Emits s ⟨now, .order id orderOp⟩ (.order event)
  | tier {userId : Uuid} {fromTierSlug toTierSlug : Option String} {now : Instant} :
      Emits s ⟨now, .changeTier userId fromTierSlug toTierSlug⟩
        (.tierChanged userId fromTierSlug toTierSlug now)
  | membership {membershipId userId : Uuid} {planSlug source : String} {now : Instant} :
      Emits s ⟨now, .activateMembership membershipId userId planSlug source⟩
        (.membershipActivated membershipId userId planSlug source now)

theorem published_cases (store : OrderStore) (op : OrderOp) :
    (store.apply op).outbox.drop store.outbox.length = [] ∨ ∃ row event,
      store.order = some row ∧ orderIdOf event = row.id ∧
      (store.apply op).outbox = store.outbox ++ [event] ∧
      (store.apply op).outbox.drop store.outbox.length = [event] := by
  have hmoves := orderMoves_apply store op
  generalize store.apply op = t at hmoves ⊢
  cases hmoves with
  | stay => exact Or.inl drop_length
  | quiet hrow hrow' hid hout =>
    rw [hout]
    exact Or.inl drop_length
  | publish hrow hrow' hid hev hout =>
    rw [hout, drop_left]
    exact Or.inr ⟨_, _, hrow, hev, rfl, rfl⟩

theorem apply_cases (s : Platform) (op : PlatformOp) :
    (s.apply op).outbox = s.outbox ∨ ∃ event, Emits s op event ∧
      (s.apply op).outbox = s.outbox ++ [⟨s.outbox.length, event, op.now⟩] := by
  obtain ⟨now, call⟩ := op
  cases call with
  | booking id bookingOp =>
    rw [apply]
    dsimp only
    cases hop : BookingRow.apply now (s.bookings id) bookingOp with
    | none => exact Or.inl rfl
    | some written =>
      obtain ⟨_, fact⟩ := written
      cases fact with
      | none => exact Or.inl rfl
      | some =>
        cases hb : s.bookings id with
        | none =>
          rw [hb] at hop
          cases bookingOp <;> cases hop
        | some =>
          rw [hb] at hop
          exact Or.inr ⟨_, .booking hb hop, rfl⟩
  | placeOrder =>
    rw [apply]
    dsimp only
    split <;> exact Or.inl rfl
  | order id orderOp =>
    rw [apply]
    dsimp only
    rcases published_cases (s.orders id) orderOp with h | ⟨_, _, hrow, hid, hout, h⟩
    · rw [h]
      exact Or.inl rfl
    · rw [h]
      exact Or.inr ⟨_, .order hrow hid hout, rfl⟩
  | changeTier => exact Or.inr ⟨_, .tier, rfl⟩
  | activateMembership => exact Or.inr ⟨_, .membership, rfl⟩

theorem outbox_of_emits (h : Emits s op event) :
    (s.apply op).outbox = s.outbox ++ [⟨s.outbox.length, event, op.now⟩] := by
  cases h with
  | booking hb hop =>
    rw [apply]
    dsimp only
    rw [hb, hop]
    rfl
  | order hrow hid hop =>
    rw [apply]
    dsimp only
    rw [hop, drop_left]
    rfl
  | tier | membership => rfl

/-! ## What holds of the platform -/

/-- An order's part holds nothing yet, or the order under its id, with its money in order. -/
inductive Stored (id : Uuid) (store : OrderStore) : Prop
  | missing (horder : store.order = none) (houtbox : store.outbox = [])
  | there (hinv : StoreInv store) (hid : ∀ row, store.order = some row → row.id = id)

/-- An event has an id of its own and names the booking's customer; a booking is confirmed,
expired, completed and declared a no-show once; an order is captured once. -/
structure Lawful (s : Platform) : Prop where
  ids : s.outbox.map (·.id) = List.range s.outbox.length
  parties : ∀ x ∈ s.outbox, ∀ fact, x.event = .booking fact →
    ∃ b, s.bookings fact.bookingId = some b ∧ b.customerId = fact.customerId
  confirmed : ∀ id, s.HasFact id .confirmed → ∃ b, s.bookings id = some b ∧ b.status ≠ .pending
  expired : ∀ id, s.HasFact id .expired → ∃ b, s.bookings id = some b ∧ b.status ≠ .pending
  completed : ∀ id, s.HasFact id .completed → ∃ b, s.bookings id = some b ∧ b.status = .completed
  declared : ∀ id, s.HasFact id .noShowDeclared → ∃ b, s.bookings id = some b ∧ b.status = .noShow
  stored : ∀ id, Stored id (s.orders id)
  captured : ∀ id, s.HasCapture id → captureCount (s.orders id).outbox ≠ 0

theorem lawful_start : Lawful start where
  ids := rfl
  parties := by rintro x hx; cases hx
  confirmed := by rintro id ⟨x, hx, -⟩; cases hx
  expired := by rintro id ⟨x, hx, -⟩; cases hx
  completed := by rintro id ⟨x, hx, -⟩; cases hx
  declared := by rintro id ⟨x, hx, -⟩; cases hx
  stored := fun _ => .missing rfl rfl
  captured := by rintro id ⟨x, hx, -⟩; cases hx

theorem Lawful.nodup (hs : Lawful s) : s.outbox.Nodup := by
  refine List.Nodup.of_map (·.id) ?_
  rw [hs.ids]
  exact nodup_range

theorem Lawful.id_ne (hs : Lawful s) {x : OutboxRow} (hx : x ∈ s.outbox) :
    x.id ≠ s.outbox.length := by
  have hmem : x.id ∈ s.outbox.map (·.id) := mem_map_of_mem hx
  rw [hs.ids, mem_range] at hmem
  exact hmem.ne

/-! ## Every operation keeps it -/

theorem hasFact_emit {type : BookingFactType} :
    (s.emit now event).HasFact id type ↔ s.HasFact id type ∨ event.isFact id type = true := by
  simp [HasFact, emit, or_and_right, exists_or]

theorem hasCapture_emit :
    (s.emit now event).HasCapture id ↔ s.HasCapture id ∨ event.isCaptureOf id = true := by
  simp [HasCapture, emit, or_and_right, exists_or]

theorem ids_emit (h : s.outbox.map (·.id) = List.range s.outbox.length) :
    (s.emit now event).outbox.map (·.id) = List.range (s.emit now event).outbox.length := by
  simp [emit, h, range_succ]

theorem mem_emit {x : OutboxRow} :
    x ∈ (s.emit now event).outbox ↔ x ∈ s.outbox ∨ x = ⟨s.outbox.length, event, now⟩ := by
  rw [emit, mem_append, mem_singleton]

theorem parties_emit (hs : Lawful s) (hnew : ∀ fact, event = .booking fact →
      ∃ b, s.bookings fact.bookingId = some b ∧ b.customerId = fact.customerId) :
    ∀ x ∈ (s.emit now event).outbox, ∀ fact, x.event = .booking fact →
      ∃ b, s.bookings fact.bookingId = some b ∧ b.customerId = fact.customerId := by
  intro x hx fact hfact
  rcases mem_emit.1 hx with hx | rfl
  · exact hs.parties x hx fact hfact
  · exact hnew fact hfact

theorem not_isFact {type : BookingFactType} (h : ∀ fact, event ≠ .booking fact) :
    ¬event.isFact id type = true := by
  cases event with
  | booking fact => exact absurd rfl (h fact)
  | _ => exact Bool.false_ne_true

theorem Lawful.emit (hs : Lawful s) (now : Instant) (hbook : ∀ fact, event ≠ .booking fact)
    (hcap : ∀ id, event.isCaptureOf id = false) : Lawful (s.emit now event) where
  ids := ids_emit hs.ids
  parties := parties_emit hs fun fact h => absurd h (hbook fact)
  confirmed := fun id h => hs.confirmed id ((hasFact_emit.1 h).resolve_right (not_isFact hbook))
  expired := fun id h => hs.expired id ((hasFact_emit.1 h).resolve_right (not_isFact hbook))
  completed := fun id h => hs.completed id ((hasFact_emit.1 h).resolve_right (not_isFact hbook))
  declared := fun id h => hs.declared id ((hasFact_emit.1 h).resolve_right (not_isFact hbook))
  stored := hs.stored
  captured := fun id h => hs.captured id ((hasCapture_emit.1 h).resolve_right (by simp [hcap]))

section BookingCall

variable {now : Instant} {id : Uuid} {bookingOp : BookingOp} {b' : BookingRow}
  {fact : Option BookingFactKind}

/-- The platform after a booking operation that wrote something. -/
def written (s : Platform) (now : Instant) (id : Uuid) (b : BookingRow)
    (fact : Option BookingFactKind) : Platform :=
  let s' := { s with bookings := update s.bookings id (some b) }
  match fact with
  | none => s'
  | some kind => s'.emit now (.booking ⟨id, b.professionalId, b.customerId, kind⟩)

theorem hasFact_written {id' : Uuid} {type : BookingFactType} :
    (s.written now id b' fact).HasFact id' type ↔
      s.HasFact id' type ∨ id' = id ∧ ∃ kind, fact = some kind ∧ kind.type = type := by
  cases fact with
  | none => simp [written, HasFact]
  | some =>
    rw [written, hasFact_emit]
    refine or_congr Iff.rfl ?_
    simp only [DomainEvent.isFact, decide_eq_true_eq, Option.some.injEq, exists_eq_left']
    exact and_congr_left fun _ => eq_comm

theorem bookings_written :
    (s.written now id b' fact).bookings = update s.bookings id (some b') := by
  cases fact <;> rfl

section

variable (hop : BookingRow.apply now (s.bookings id) bookingOp = some (b', fact))
include hop

/-- What a published fact says of its booking, an operation keeps, if it keeps it of a row and its
own fact says it too. -/
theorem keeps_fact {P : BookingRow → Prop} {type : BookingFactType}
    (h : ∀ id, s.HasFact id type → ∃ b, s.bookings id = some b ∧ P b)
    (hstay : ∀ b, P b → BookingRow.Moves b b' bookingOp fact → P b')
    (hnew : ∀ b kind, fact = some kind → kind.type = type →
      BookingRow.Moves b b' bookingOp fact → P b') (id' : Uuid)
    (hfact : (s.written now id b' fact).HasFact id' type) :
    ∃ b, (s.written now id b' fact).bookings id' = some b ∧ P b := by
  rw [bookings_written]
  by_cases hid : id' = id
  · subst hid
    rw [update_self]
    refine ⟨b', rfl, ?_⟩
    cases hb : s.bookings id' with
    | none =>
      -- a booking that is created has no facts, and publishes none
      rw [hb] at hop
      have hnone : fact = none := by
        cases bookingOp with
        | create => cases hop; rfl
        | _ => cases hop
      rcases hasFact_written.1 hfact with hbef | ⟨-, kind, hkind, -⟩
      · obtain ⟨b, hb', -⟩ := h id' hbef
        cases hb.symm.trans hb'
      · cases hnone.symm.trans hkind
    | some b =>
      rw [hb] at hop
      have hmoves := (BookingRow.moves_of_apply hop).2.2
      rcases hasFact_written.1 hfact with hbef | ⟨-, kind, hkind, htype⟩
      · obtain ⟨_, hb₀, hP⟩ := h id' hbef
        cases hb.symm.trans hb₀
        exact hstay b hP hmoves
      · exact hnew b kind hkind htype hmoves
  · rw [update_of_ne hid]
    exact h id' ((hasFact_written.1 hfact).resolve_right fun hown => hid hown.1)

theorem parties_written (hs : Lawful s) (x : OutboxRow)
    (hx : x ∈ (s.written now id b' fact).outbox) (f : BookingFact) (hf : x.event = .booking f) :
    ∃ b, (s.written now id b' fact).bookings f.bookingId = some b ∧
      b.customerId = f.customerId := by
  rw [bookings_written]
  have hold : x ∈ s.outbox → ∃ b, update s.bookings id (some b') f.bookingId = some b ∧
      b.customerId = f.customerId := by
    intro hx
    obtain ⟨b, hb, hcust⟩ := hs.parties x hx f hf
    by_cases hid : f.bookingId = id
    · rw [hid] at hb ⊢
      rw [hb] at hop
      rw [update_self]
      exact ⟨b', rfl, (BookingRow.moves_of_apply hop).2.1.trans hcust⟩
    · rw [update_of_ne hid]
      exact ⟨b, hb, hcust⟩
  cases fact with
  | none => exact hold hx
  | some =>
    rcases mem_emit.1 hx with hx | rfl
    · exact hold hx
    · cases hf
      rw [update_self]
      exact ⟨b', rfl, rfl⟩

theorem Lawful.written (hs : Lawful s) :
    Lawful (s.written now id b' fact) where
  ids := by
    cases fact with
    | none => exact hs.ids
    | some => exact ids_emit hs.ids
  parties := parties_written hop hs
  confirmed := by
    refine keeps_fact hop hs.confirmed (fun b hb hmoves hpend => ?_) ?_
    · exact hb (hmoves.status.2.2 hpend)
    · rintro b kind rfl htype hmoves
      cases hmoves with
      | confirm hfrom hto => rw [hto]; decide
      | declare hfrom hto => rw [hto]; decide
      | _ => cases htype
  expired := by
    refine keeps_fact hop hs.expired (fun b hb hmoves hpend => ?_) ?_
    · exact hb (hmoves.status.2.2 hpend)
    · rintro b kind rfl htype hmoves
      cases hmoves with
      | expire hfrom hto => rw [hto]; decide
      | declare hfrom hto => rw [hto]; decide
      | _ => cases htype
  completed := by
    refine keeps_fact hop hs.completed (fun b hb hmoves => absurd hb hmoves.status.1) ?_
    rintro b kind rfl htype hmoves
    cases hmoves with
    | complete hfrom hto => exact hto
    | declare hfrom hto hfact =>
      split at hfact
      · cases hfact
        cases htype
      · cases hfact
    | _ => cases htype
  declared := by
    refine keeps_fact hop hs.declared (fun b hb hmoves => absurd hb hmoves.status.2.1) ?_
    rintro b kind rfl htype hmoves
    cases hmoves with
    | declare hfrom hto => exact hto
    | _ => cases htype
  stored := by
    cases fact <;> exact hs.stored
  captured := by
    cases fact with
    | none => exact hs.captured
    | some =>
      intro o h
      rcases hasCapture_emit.1 h with hbef | hnew
      · exact hs.captured o hbef
      · cases hnew

end

end BookingCall

section OrderCall

variable {now : Instant} {id : Uuid} {store : OrderStore}

/-- The platform with an order's part rewritten. -/
def withOrder (s : Platform) (id : Uuid) (store : OrderStore) : Platform :=
  { s with orders := update s.orders id store }

theorem orders_withOrder_self : (s.withOrder id store).orders id = store :=
  update_self ..

theorem orders_withOrder_of_ne {id' : Uuid} (h : id' ≠ id) :
    (s.withOrder id store).orders id' = s.orders id' :=
  update_of_ne h ..

theorem Lawful.withOrder (hs : Lawful s) (hstore : Stored id store)
    (hcaptures : s.HasCapture id → captureCount store.outbox ≠ 0) :
    Lawful (s.withOrder id store) where
  ids := hs.ids
  parties := hs.parties
  confirmed := hs.confirmed
  expired := hs.expired
  completed := hs.completed
  declared := hs.declared
  stored := by
    intro id'
    by_cases hid : id' = id
    · subst hid
      rw [orders_withOrder_self]
      exact hstore
    · rw [orders_withOrder_of_ne hid]
      exact hs.stored id'
  captured := by
    intro id' h
    by_cases hid : id' = id
    · subst hid
      rw [orders_withOrder_self]
      exact hcaptures h
    · rw [orders_withOrder_of_ne hid]
      exact hs.captured id' h

theorem Lawful.emitOrder (hs : Lawful s) (now : Instant) {event : CommerceEvent}
    (hev : event.isCapture = true →
      captureCount (s.orders (orderIdOf event)).outbox ≠ 0) :
    Lawful (s.emit now (.order event)) where
  ids := ids_emit hs.ids
  parties := parties_emit hs fun fact h => by cases h
  confirmed := fun id h => hs.confirmed id ((hasFact_emit.1 h).resolve_right Bool.false_ne_true)
  expired := fun id h => hs.expired id ((hasFact_emit.1 h).resolve_right Bool.false_ne_true)
  completed := fun id h => hs.completed id ((hasFact_emit.1 h).resolve_right Bool.false_ne_true)
  declared := fun id h => hs.declared id ((hasFact_emit.1 h).resolve_right Bool.false_ne_true)
  stored := hs.stored
  captured := by
    intro id h
    rcases hasCapture_emit.1 h with hbef | hnew
    · exact hs.captured id hbef
    · obtain ⟨hcap, rfl⟩ := of_decide_eq_true hnew
      exact hev hcap

theorem captureCount_ne_zero_of_mem {outbox : List CommerceEvent} {event : CommerceEvent}
    (hmem : event ∈ outbox) (hcap : event.isCapture = true) : captureCount outbox ≠ 0 := by
  have hpos : 0 < outbox.countP CommerceEvent.isCapture :=
    countP_pos_iff.2 ⟨event, hmem, hcap⟩
  exact hpos.ne'

theorem Lawful.orderCall (hs : Lawful s) (now : Instant) (id : Uuid) (op : OrderOp) :
    Lawful (s.apply ⟨now, .order id op⟩) := by
  have hmoves := orderMoves_apply (s.orders id) op
  have hstore : Stored id ((s.orders id).apply op) := by
    cases hs.stored id with
    | missing hord hout =>
      rw [hmoves.eq_of_none hord]
      exact .missing hord hout
    | there hinv hid => exact .there (storeInv_apply op hinv) (hmoves.id_eq hid)
  have hkept : s.HasCapture id → captureCount ((s.orders id).apply op).outbox ≠ 0 := by
    intro h
    have hbef := hs.captured id h
    generalize (s.orders id).apply op = t at hmoves ⊢
    cases hmoves with
    | stay => exact hbef
    | quiet hrow hrow' hid hout => rwa [hout]
    | publish hrow hrow' hid hev hout =>
      rw [hout, captureCount_append]
      exact fun h => hbef (Nat.add_eq_zero_iff.1 h).1
  have hwith := hs.withOrder hstore hkept
  rw [apply]
  dsimp only
  rcases published_cases (s.orders id) op with h | ⟨row, event, hrow, hid, hout, h⟩
  · rw [h]
    exact hwith
  · rw [h]
    refine hwith.emitOrder now fun hcap => ?_
    have hrowId : row.id = id := by
      cases hs.stored id with
      | missing hord => cases hord.symm.trans hrow
      | there _ hown => exact hown row hrow
    rw [hid, hrowId, orders_withOrder_self, hout]
    exact captureCount_ne_zero_of_mem (mem_append_right _ (mem_singleton_self event))
      hcap

theorem Lawful.placeOrder (hs : Lawful s) (now : Instant) (id : Uuid) (order : OrderEntity)
    (schedule : OrderPaymentScheduleEntity) :
    Lawful (s.apply ⟨now, .placeOrder id order schedule⟩) := by
  rw [apply]
  dsimp only
  split
  · rename_i hguard
    refine hs.withOrder (.there ?_ ?_) ?_
    · exact Created.storeInv ⟨rfl, rfl, rfl, hguard.2, rfl, rfl, rfl⟩
    · rintro row ⟨⟩
      rfl
    · -- nothing was captured of an order that is not there
      intro h
      refine absurd ?_ (hs.captured id h)
      cases hs.stored id with
      | missing _ hout => rw [hout]; rfl
      | there hinv =>
        obtain ⟨_, _, hrow, -⟩ := hinv
        cases hguard.1.symm.trans hrow
  · exact hs

end OrderCall

theorem lawful_apply (hs : Lawful s) (op : PlatformOp) : Lawful (s.apply op) := by
  obtain ⟨now, call⟩ := op
  cases call with
  | booking =>
    rw [apply]
    dsimp only
    split
    · exact hs
    · rename_i b' fact hop
      have hwrit := hs.written hop
      cases fact <;> exact hwrit
  | placeOrder id order schedule => exact hs.placeOrder now id order schedule
  | order id orderOp => exact hs.orderCall now id orderOp
  | changeTier | activateMembership =>
    exact hs.emit now (fun _ h => by cases h) fun _ => rfl

end Platform

end BeauClick.Events
