import BeauClick.Lib.Journal
import BeauClick.Lib.Transactions
import BeauClick.Scheduling.Schema

/-!
# The waitlist

`WaitlistService` (`services/waitlist/src/waitlist.service.ts`), `WaitlistAcceptanceService` and
`WaitlistMatcherHandler` (`apps/api/src/waitlist`), statement by statement.
-/

namespace BeauClick.Waitlist

open ReadCommitted Transactions
open Scheduling (AvailabilitySlotEntity)

/-! ## Rows and events -/

/-- `WAITLIST_STATUSES`. -/
inductive WaitlistStatus where
  | waiting
  | offered
  | accepted
  | declined
  | expired
  | missed
  | removed
  deriving DecidableEq

/-- A row of `waitlist.entries`. -/
structure WaitlistEntryEntity where
  customerId : Uuid
  professionalId : Uuid
  serviceId : Option Uuid
  status : WaitlistStatus
  offeredSlotId : Option Uuid
  offeredAt : Option Instant
  offerExpiresAt : Option Instant
  resultingBookingId : Option Uuid
  createdAt : Instant
  deriving DecidableEq

/-- `uq_waitlist_active_offer_slot`. -/
def SameOffer (x y : WaitlistEntryEntity) : Prop :=
  x.status = .offered ∧ y.status = .offered ∧ x.offeredSlotId ≠ none ∧
    x.offeredSlotId = y.offeredSlotId
  deriving Decidable

/-- What an acceptance stores of a row of `booking.bookings`. -/
structure BookingEntity where
  customerId : Uuid
  professionalId : Uuid
  serviceId : Option Uuid
  slotId : Uuid
  holdExpiresAt : Instant

/-- The events that the matcher consumes and the waitlist emits.  `reopened` is a
`BookingCancelled` or a `BookingExpired`. -/
inductive WaitlistEvent where
  | reopened (professionalId slotId : Uuid)
  | offered (entryId customerId professionalId : Uuid) (slotId : Option Uuid)
      (offerExpiresAt : Instant)
  | accepted (entryId customerId professionalId : Uuid) (slotId : Option Uuid) (bookingId : Uuid)
  | declined (entryId customerId professionalId : Uuid) (slotId : Option Uuid)
  | expired (entryId customerId professionalId : Uuid) (slotId : Option Uuid)

/-- `SlotReopenedPayload`, of the event types for which there is a `WaitlistMatcherHandler`. -/
def WaitlistEvent.reopens : WaitlistEvent → Option (Uuid × Option Uuid)
  | .reopened professionalId slotId => some (professionalId, some slotId)
  | .declined _ _ professionalId slotId => some (professionalId, slotId)
  | .expired _ _ professionalId slotId => some (professionalId, slotId)
  | _ => none

/-- The entry that an event offers a slot. -/
def WaitlistEvent.offeredTo : WaitlistEvent → Option Uuid
  | .offered entryId .. => some entryId
  | _ => none

/-- The tables.  An event is known by its place in the outbox. -/
structure WaitlistDb where
  entries : Versioned ℕ Uuid WaitlistEntryEntity
  slots : Versioned ℕ Uuid AvailabilitySlotEntity
  bookings : Versioned ℕ Uuid BookingEntity
  /-- `booking_idempotency_keys`: by owner, and by the entry of the key `waitlist:…`. -/
  idempotencyKeys : Versioned ℕ (Uuid × Uuid) Uuid
  outbox : Journal ℕ WaitlistEvent
  /-- The events that a handler has consumed. -/
  published : List ℕ

namespace WaitlistDb

/-- Transaction `pid` commits. -/
def commit (db : WaitlistDb) (pid : ℕ) : WaitlistDb where
  entries := db.entries.commit pid
  slots := db.slots.commit pid
  bookings := db.bookings.commit pid
  idempotencyKeys := db.idempotencyKeys.commit pid
  outbox := db.outbox.commit pid
  published := db.published

/-- Transaction `pid` rolls back. -/
def rollback (db : WaitlistDb) (pid : ℕ) : WaitlistDb where
  entries := db.entries.rollback pid
  slots := db.slots.rollback pid
  bookings := db.bookings.rollback pid
  idempotencyKeys := db.idempotencyKeys.rollback pid
  outbox := db.outbox.rollback pid
  published := db.published

end WaitlistDb

/-! ## Calls -/

/-- `entryId` and `customerId` of a call. -/
structure EntryCall where
  entryId : Uuid
  customerId : Uuid
  deriving DecidableEq

/-- The slot that the handler of an event offers. -/
structure Offer where
  event : ℕ
  professionalId : Uuid
  slotId : Option Uuid
  serviceId : Option Uuid
  deriving DecidableEq

/-- What a call is asked for. -/
inductive WaitlistRequest where
  /-- An event is delivered, for the first time or again. -/
  | handle (event : ℕ)
  | accept (call : EntryCall)
  | decline (call : EntryCall)
  | markMissed (entryId : Uuid)
  | expireStaleOffers (limit : ℕ)
  /-- The slot is claimed by somebody else. -/
  | claim (slotId : Uuid)
  /-- A booking of the slot is cancelled, or expires. -/
  | reopen (slotId : Uuid)

/-- What a statement finds outside the tables: the clock, the next `uuidv7`, the row that a query
comes upon first and the order in which one comes upon the rows, and whether `create` finds a hold
left for the customer, and a resource that is free and no other booking of the slot. -/
structure WaitlistEnv where
  now : Instant
  uuid : Uuid
  first : Option Uuid
  order : List Uuid
  holdLeft : Bool
  resourceFree : Bool

/-- `WaitlistConfig` and `holdMinutes`. -/
structure WaitlistConfig where
  offerWindowMinutes : ℤ
  holdMinutes : ℤ

/-- Where a call stands. -/
inductive WaitlistPlace where
  | idle
  | failed
  | handle (event : ℕ)
  | already (o : Offer)
  | select (o : Offer)
  | offer (o : Offer) (entryId : Uuid)
  | announceOffer (o : Offer) (entryId : Uuid) (offerExpiresAt : Instant)
  | finishOffer (o : Offer) (entryId : Uuid)
  /-- The handler has returned; the event is marked as published. -/
  | publish (event : ℕ)
  | handled (event : ℕ)
  | claimOffer (i : EntryCall)
  | accept (i : EntryCall)
  | create (i : EntryCall) (e : WaitlistEntryEntity)
  | claimSlot (i : EntryCall) (e : WaitlistEntryEntity)
  | insertBooking (i : EntryCall) (e : WaitlistEntryEntity) (slot : AvailabilitySlotEntity)
      (holdExpiresAt : Instant)
  | record (i : EntryCall) (bookingId : Uuid)
  | announceAccepted (i : EntryCall) (bookingId : Uuid)
  | finishAccept (i : EntryCall) (bookingId : Uuid)
  | accepted (i : EntryCall) (bookingId : Uuid)
  /-- `OfferNotAvailableException`, or the refusal of `create`. -/
  | refused (i : EntryCall)
  | markMissed (entryId : Uuid)
  | missed (entryId : Uuid)
  | readEntry (i : EntryCall)
  | decline (i : EntryCall) (e : WaitlistEntryEntity)
  | announceDeclined (i : EntryCall) (e : WaitlistEntryEntity)
  | finishDecline (i : EntryCall) (done : Bool)
  | declined (i : EntryCall) (done : Bool)
  | sweep (limit : ℕ)
  | expire (rows : List (Uuid × WaitlistEntryEntity)) (count : ℕ)
  | announceExpired (row : Uuid × WaitlistEntryEntity) (rest : List (Uuid × WaitlistEntryEntity))
      (count : ℕ)
  | finishExpire (row : Uuid × WaitlistEntryEntity) (rest : List (Uuid × WaitlistEntryEntity))
      (count : ℕ)
  | swept (count : ℕ)
  | claim (slotId : Uuid)
  | reopen (slotId : Uuid)
  | moved (slotId : Uuid)
  deriving DecidableEq

namespace WaitlistEntryEntity

/-- `professional_id = $1 AND (service_id IS NULL OR $2 IS NULL OR service_id = $2)`. -/
def Wants (x : WaitlistEntryEntity) (professionalId : Uuid) (serviceId : Option Uuid) : Prop :=
  x.professionalId = professionalId ∧
    (x.serviceId = none ∨ serviceId = none ∨ x.serviceId = serviceId)

instance (x : WaitlistEntryEntity) (professionalId : Uuid) (serviceId : Option Uuid) :
    Decidable (x.Wants professionalId serviceId) :=
  inferInstanceAs (Decidable (_ ∧ _))

/-- And `status = 'waiting'`. -/
def WaitsFor (x : WaitlistEntryEntity) (professionalId : Uuid) (serviceId : Option Uuid) : Prop :=
  x.status = .waiting ∧ x.Wants professionalId serviceId

instance (x : WaitlistEntryEntity) (professionalId : Uuid) (serviceId : Option Uuid) :
    Decidable (x.WaitsFor professionalId serviceId) :=
  inferInstanceAs (Decidable (_ ∧ _))

/-- The row as the matcher sets it. -/
def offer (x : WaitlistEntryEntity) (slotId : Option Uuid) (now offerExpiresAt : Instant) :
    WaitlistEntryEntity :=
  { x with
    status := .offered
    offeredSlotId := slotId
    offeredAt := some now
    offerExpiresAt := some offerExpiresAt }

/-- The row with another status. -/
def become (x : WaitlistEntryEntity) (status : WaitlistStatus) : WaitlistEntryEntity :=
  { x with status := status }

@[simp] theorem become_status {x : WaitlistEntryEntity} {status : WaitlistStatus} :
    (x.become status).status = status := rfl

@[simp] theorem offer_status {x : WaitlistEntryEntity} {slotId : Option Uuid}
    {now offerExpiresAt : Instant} : (x.offer slotId now offerExpiresAt).status = .offered := rfl

/-- `offerExpiresAt` has passed. -/
def Stale (x : WaitlistEntryEntity) (now : Instant) : Prop := ∃ t ∈ x.offerExpiresAt, t < now
  deriving Decidable

end WaitlistEntryEntity

/-- What `claimSlot` asks of a slot. -/
def Claimable (professionalId : Uuid) (now : Instant) (slot : AvailabilitySlotEntity) : Prop :=
  slot.professionalId = professionalId ∧ now < slot.startAt ∧
    (slot.status = .open ∨ slot.status = .held ∧ ∃ t ∈ slot.heldUntil, t < now)
  deriving Decidable

/-- The slot as a claim sets it. -/
def hold (slot : AvailabilitySlotEntity) (bookingId : Uuid) (holdExpiresAt : Instant) :
    AvailabilitySlotEntity :=
  { slot with
    status := .held
    heldUntil := some holdExpiresAt
    heldByBookingId := some bookingId }

/-- The slot as the end of a booking sets it. -/
def release (slot : AvailabilitySlotEntity) : AvailabilitySlotEntity :=
  { slot with
    status := .open
    heldUntil := none
    heldByBookingId := none }

/-- The slot of a query whose `where` leaves out an id that is null. -/
def slotWhere (db : WaitlistDb) (pid : ℕ) (first : Option Uuid) :
    Option Uuid → Option AvailabilitySlotEntity
  | some slotId => db.slots.get pid slotId
  | none => first.bind (db.slots.get pid)

section Statement

variable (config : WaitlistConfig) (env : WaitlistEnv) (db : WaitlistDb) (pid : ℕ)

/-- The entries that wait for the slot and are not skipped. -/
def candidates (o : Offer) : List Uuid :=
  (db.entries.select pid fun x => x.WaitsFor o.professionalId o.serviceId).filter fun k =>
    ¬(db.entries.row k).Locked pid

/-- No candidate is older. -/
def Earliest (ks : List Uuid) (k : Uuid) : Prop :=
  ∀ k' ∈ ks, ∀ x ∈ db.entries.get pid k, ∀ x' ∈ db.entries.get pid k', x.createdAt ≤ x'.createdAt
  deriving Decidable

/-- `handle` and `offerNextFor`. -/
def matchStatement : WaitlistPlace → Next WaitlistDb Unit WaitlistPlace
  | .handle event =>
    match db.outbox.committed[event]?.bind WaitlistEvent.reopens with
    | none => .waits
    | some (professionalId, slotId) =>
      match slotWhere db pid env.first slotId with
      | none => .goes db (.publish event)
      | some slot =>
        if slot.status = .open then
          .goes db (.already ⟨event, professionalId, slotId, slot.serviceId⟩)
        else .goes db (.publish event)
  | .already o =>
    if db.entries.select pid
        (fun x => x.status = .offered ∧ (o.slotId = none ∨ x.offeredSlotId = o.slotId)) ≠ [] then
      .commits (.publish o.event)
    else .goes db (.select o)
  | .select o =>
    let ks := candidates db pid o
    if ks = [] then .commits (.publish o.event)
    else
      match env.first with
      | none => .waits
      | some k =>
        if k ∈ ks ∧ Earliest db pid ks k then
          match db.entries.get pid k with
          | none => .waits
          | some x => .goes { db with entries := db.entries.write pid k x } (.offer o k)
        else .waits
  | .offer o k =>
    let offerExpiresAt := env.now + config.offerWindowMinutes * 60000
    match db.entries.updateChecked pid k (fun x => x.status = .waiting)
        (fun x => x.offer o.slotId env.now offerExpiresAt) SameOffer with
    | .waits => .waits
    | .done _ t => .goes { db with entries := t } (.announceOffer o k offerExpiresAt)
    | .unmatched => .commits (.publish o.event)
    | .violated => .throws (.publish o.event)
  | .announceOffer o k offerExpiresAt =>
    match db.entries.get pid k with
    | none => .throws .failed
    | some x =>
      let event := .offered k x.customerId o.professionalId o.slotId offerExpiresAt
      .goes { db with outbox := db.outbox.append pid event } (.finishOffer o k)
  | .finishOffer o _ => .commits (.publish o.event)
  | .publish event => .goes { db with published := event :: db.published } (.handled event)
  | _ => .waits

/-- `accept`, and `markMissed`. -/
def acceptStatement : WaitlistPlace → Next WaitlistDb Unit WaitlistPlace
  | .claimOffer i =>
    match db.entries.get pid i.entryId with
    | none => .throws (.refused i)
    | some e =>
      if e.customerId ≠ i.customerId ∨ e.status ≠ .offered ∨ e.offeredSlotId = none ∨
          e.Stale env.now then .throws (.refused i)
      else .goes db (.accept i)
  | .accept i =>
    match db.entries.update pid i.entryId (fun x => x.status = .offered) (·.become .accepted) with
    | .waits => .waits
    | .done e t => .goes { db with entries := t } (.create i e)
    | _ => .throws (.refused i)
  | .create i e =>
    match db.idempotencyKeys.committed (i.customerId, i.entryId) with
    | some bookingId => .goes db (.record i bookingId)
    | none => if env.holdLeft then .goes db (.claimSlot i e) else .throws (.refused i)
  | .claimSlot i e =>
    match e.offeredSlotId with
    | none => .throws (.markMissed i.entryId)
    | some slotId =>
      let holdExpiresAt := env.now + config.holdMinutes * 60000
      match db.slots.update pid slotId (Claimable e.professionalId env.now)
          (hold · env.uuid holdExpiresAt) with
      | .waits => .waits
      | .done slot t =>
        .goes { db with slots := t } (.insertBooking i e slot holdExpiresAt)
      | _ => .throws (.markMissed i.entryId)
  | .insertBooking i e slot holdExpiresAt =>
    match slot.heldByBookingId, e.offeredSlotId with
    | some bookingId, some slotId =>
      if (∃ s ∈ slot.serviceId, ∃ s' ∈ e.serviceId, s ≠ s') ∨ env.resourceFree = false then
        .throws (.markMissed i.entryId)
      else
        let b : BookingEntity :=
          ⟨i.customerId, e.professionalId, e.serviceId.or slot.serviceId, slotId, holdExpiresAt⟩
        match db.bookings.insert pid bookingId b (fun _ => False) with
        | .waits => .waits
        | .done _ t =>
          match db.idempotencyKeys.insert pid (i.customerId, i.entryId) bookingId
              (fun _ => False) with
          | .waits => .waits
          | .done _ t' =>
            .goes { db with bookings := t, idempotencyKeys := t' } (.record i bookingId)
          | _ => .throws (.markMissed i.entryId)
        | _ => .waits
    | _, _ => .throws .failed
  | .record i bookingId =>
    match db.entries.update pid i.entryId (fun _ => True) fun x =>
        { x with resultingBookingId := some bookingId } with
    | .waits => .waits
    | .done _ t => .goes { db with entries := t } (.announceAccepted i bookingId)
    | _ => .throws .failed
  | .announceAccepted i bookingId =>
    match db.entries.get pid i.entryId with
    | none => .throws .failed
    | some x =>
      let event := .accepted i.entryId x.customerId x.professionalId x.offeredSlotId bookingId
      .goes { db with outbox := db.outbox.append pid event } (.finishAccept i bookingId)
  | .finishAccept i bookingId => .commits (.accepted i bookingId)
  | .markMissed entryId =>
    match db.entries.update pid entryId (fun x => x.status = .offered) (·.become .missed) with
    | .waits => .waits
    | .done _ t => .goes { db with entries := t.commit pid } (.missed entryId)
    | _ => .goes db (.missed entryId)
  | _ => .waits

/-- `decline` and `expireStaleOffers`. -/
def endStatement : WaitlistPlace → Next WaitlistDb Unit WaitlistPlace
  | .readEntry i =>
    match db.entries.get pid i.entryId with
    | none => .goes db (.finishDecline i false)
    | some e =>
      if e.customerId ≠ i.customerId then .goes db (.finishDecline i false)
      else .goes db (.decline i e)
  | .decline i e =>
    match db.entries.update pid i.entryId
        (fun x => x.customerId = i.customerId ∧ x.status = .offered) (·.become .declined) with
    | .waits => .waits
    | .done _ t => .goes { db with entries := t } (.announceDeclined i e)
    | _ => .goes db (.finishDecline i false)
  | .announceDeclined i e =>
    let event := .declined i.entryId i.customerId e.professionalId e.offeredSlotId
    .goes { db with outbox := db.outbox.append pid event } (.finishDecline i true)
  | .finishDecline i done => .commits (.declined i done)
  | .sweep limit =>
    if env.order.Perm db.entries.keys then
      let stale := env.order.filterMap fun k =>
        match db.entries.get pid k with
        | some x => if x.status = .offered ∧ x.Stale env.now then some (k, x) else none
        | none => none
      .goes db (.expire (stale.take limit) 0)
    else .waits
  | .expire [] count => .commits (.swept count)
  | .expire (row :: rest) count =>
    match db.entries.update pid row.1 (fun x => x.status = .offered) (·.become .expired) with
    | .waits => .waits
    | .done _ t => .goes { db with entries := t } (.announceExpired row rest count)
    | _ => .commits (.expire rest count)
  | .announceExpired row rest count =>
    let event := .expired row.1 row.2.customerId row.2.professionalId row.2.offeredSlotId
    .goes { db with outbox := db.outbox.append pid event } (.finishExpire row rest count)
  | .finishExpire _ rest count => .commits (.expire rest (count + 1))
  | _ => .waits

/-- The claim of a slot by somebody else, and the end of a booking, with its event. -/
def slotStatement : WaitlistPlace → Next WaitlistDb Unit WaitlistPlace
  | .claim slotId =>
    match db.slots.update pid slotId (fun s => Claimable s.professionalId env.now s)
        (hold · env.uuid env.now) with
    | .waits => .waits
    | .done _ t => .goes { db with slots := t.commit pid } (.moved slotId)
    | _ => .throws (.moved slotId)
  | .reopen slotId =>
    match db.slots.update pid slotId (fun s => s.status ≠ .open) release with
    | .waits => .waits
    | .done slot t =>
      let event := .reopened slot.professionalId slotId
      .goes
        { db with
          slots := t.commit pid
          outbox := (db.outbox.append pid event).commit pid }
        (.moved slotId)
    | _ => .throws (.moved slotId)
  | _ => .waits

/-- The statement of a call at its place. -/
def waitlistStatement : WaitlistPlace → Next WaitlistDb Unit WaitlistPlace
  | .claimOffer i => acceptStatement config env db pid (.claimOffer i)
  | .accept i => acceptStatement config env db pid (.accept i)
  | .create i e => acceptStatement config env db pid (.create i e)
  | .claimSlot i e => acceptStatement config env db pid (.claimSlot i e)
  | .insertBooking i e slot t => acceptStatement config env db pid (.insertBooking i e slot t)
  | .record i bookingId => acceptStatement config env db pid (.record i bookingId)
  | .announceAccepted i bookingId =>
    acceptStatement config env db pid (.announceAccepted i bookingId)
  | .finishAccept i bookingId => acceptStatement config env db pid (.finishAccept i bookingId)
  | .markMissed entryId => acceptStatement config env db pid (.markMissed entryId)
  | .readEntry i => endStatement env db pid (.readEntry i)
  | .decline i e => endStatement env db pid (.decline i e)
  | .announceDeclined i e => endStatement env db pid (.announceDeclined i e)
  | .finishDecline i done => endStatement env db pid (.finishDecline i done)
  | .sweep limit => endStatement env db pid (.sweep limit)
  | .expire rows count => endStatement env db pid (.expire rows count)
  | .announceExpired row rest count => endStatement env db pid (.announceExpired row rest count)
  | .finishExpire row rest count => endStatement env db pid (.finishExpire row rest count)
  | .claim slotId => slotStatement env db pid (.claim slotId)
  | .reopen slotId => slotStatement env db pid (.reopen slotId)
  | place => matchStatement config env db pid place

end Statement

/-- A call there still runs. -/
def WaitlistPlace.running : WaitlistPlace → Bool
  | .idle | .failed | .handled _ | .accepted .. | .refused _ | .missed _ | .declined .. | .swept _
  | .moved _ => false
  | _ => true

/-- Where a call starts. -/
def WaitlistRequest.first : WaitlistRequest → WaitlistPlace
  | .handle event => .handle event
  | .accept call => .claimOffer call
  | .decline call => .readEntry call
  | .markMissed entryId => .markMissed entryId
  | .expireStaleOffers limit => .sweep limit
  | .claim slotId => .claim slotId
  | .reopen slotId => .reopen slotId

/-- The calls on the waiting lists. -/
def waitlistService (config : WaitlistConfig) :
    Service WaitlistDb Unit WaitlistPlace WaitlistRequest WaitlistEnv where
  commit := WaitlistDb.commit
  rollback := WaitlistDb.rollback
  idle := .idle
  failed := .failed
  running := WaitlistPlace.running
  first := WaitlistRequest.first
  statement := waitlistStatement config

end BeauClick.Waitlist
