import BeauClick.Lib.Runs
import BeauClick.Scheduling.Schema
import Mathlib.Data.List.Sort

/-!
# The calls of the booking services

`services/booking/src/booking/booking.service.ts` and `availability/availability.service.ts`:
any number of calls at work at the same time, one statement after the other, in transactions of
their own or (`runInTransaction`) in their caller's.  What `create` throws itself it catches: in
its caller's transaction nothing is rolled back then, and when it finds its key, the caller goes on
and commits.
-/

namespace BeauClick.Scheduling

open ReadCommitted ReadCommitted.Versioned Runs Booking
open Function (update update_self)

/-! ## Requests -/

/-- `CreateBookingInput`, and whether `create` is given a manager; the key is trimmed, and a blank
one is none. -/
structure CreateBookingInput where
  customerId : Uuid
  professionalId : Uuid
  serviceId : Option Uuid
  slotId : Uuid
  idempotencyKey : Option String
  manager : Bool
  deriving DecidableEq

/-- The arguments of `reschedule`. -/
structure RescheduleInput where
  bookingId : Uuid
  newSlotId : Uuid
  actor : BookingActor
  reason : Option String
  remedyBypass : Bool
  deriving DecidableEq

/-- The arguments of `createSlot`. -/
structure CreateSlotInput where
  professionalId : Uuid
  startAt : Instant
  endAt : Instant
  serviceId : Option Uuid
  deriving DecidableEq

/-- A call of one of the services. -/
inductive Request where
  | create (input : CreateBookingInput)
  | confirm (bookingId : Uuid) (actor : BookingActor)
  | cancel (bookingId : Uuid) (actor : BookingActor) (reason : Option String)
  | reschedule (input : RescheduleInput)
  | expireStaleHolds (limit : ℕ)
  | createSlot (input : CreateSlotInput)
  /-- The candidates that the pattern materialises into. -/
  | bulkGenerate (candidates : List (Uuid × AvailabilitySlotEntity))
  | deleteSlot (professionalId slotId : Uuid)

/-! ## Places -/

/-- A slot claimed for a booking, as `claimSlot` returns it. -/
structure Claim where
  bookingId : Uuid
  slotId : Uuid
  slot : AvailabilitySlotEntity
  holdExpiresAt : Instant
  deriving DecidableEq

/-- A reschedule, with the booking as it was read. -/
structure Move where
  input : RescheduleInput
  booking : BookingEntity
  governed : Bool
  deriving DecidableEq

/-- What `syncResourceAssignment` is called for. -/
inductive Purpose where
  | create (input : CreateBookingInput)
  | reschedule (move : Move)
  deriving DecidableEq

/-- What `transition` is called for, with what was read before it. -/
inductive Transition where
  | confirm (bookingId : Uuid) (actor : BookingActor)
  | cancel (bookingId : Uuid) (actor : BookingActor) (reason : Option String)
      (before : BookingEntity)
  /-- A row of the sweep, the rows after it, and how many have expired. -/
  | expire (bookingId : Uuid) (row : BookingEntity) (rest : List (Uuid × BookingEntity))
      (expired : ℕ)
  deriving DecidableEq

/-- A transition after its compare-and-set: the status `transition` had read, and the status
that the row held when it was set. -/
structure Moved where
  transition : Transition
  current : BookingStatus
  replaced : BookingStatus
  deriving DecidableEq

/-- `RescheduleNotAllowedException`. -/
inductive RescheduleRefusal where
  | status
  | maxReached
  | tooClose
  | sameSlot
  | invalidSlot
  | consequence
  deriving DecidableEq

/-- Why a call fails. -/
inductive Failure where
  | tooManyActiveHolds
  | slotUnavailable
  | rescheduleNotAllowed (refusal : RescheduleRefusal)
  | slotOverlaps
  | slotInvalid
  | slotNotReleasable
  /-- An error of the database that is mapped to nothing. -/
  | uniqueViolation
  | other
  deriving DecidableEq

/-- What `create` throws itself; after an error of the database the transaction is aborted. -/
def Failure.thrown : Failure → Bool
  | tooManyActiveHolds => true
  | slotUnavailable => true
  | _ => false

/-- What a call answers. -/
inductive Result where
  | booking (bookingId : Uuid)
  | moved (done : Bool)
  | expired (count : ℕ)
  | slots
  deriving DecidableEq

/-- Where a call stands. -/
inductive Place where
  | idle
  | findKey (input : CreateBookingInput)
  | countHolds (input : CreateBookingInput)
  | claimSlot (input : CreateBookingInput)
  | insertBooking (input : CreateBookingInput) (claim : Claim)
  | findAssignment (purpose : Purpose) (claim : Claim)
  | releaseExisting (purpose : Purpose) (claim : Claim)
  | tryResource (purpose : Purpose) (claim : Claim) (existing : Bool) (candidates : List Uuid)
  | insertKey (input : CreateBookingInput) (claim : Claim)
  | commitCreate (input : CreateBookingInput) (claim : Claim)
  /-- `create` has caught a failure, and its transaction was rolled back. -/
  | findKeyAgain (input : CreateBookingInput) (failure : Failure)
  /-- `create` has caught what it threw, and what it has written is still there. -/
  | refused (input : CreateBookingInput) (failure : Failure) (claim : Option Claim)
  /-- `create` has found its key, and the caller commits. -/
  | replays (input : CreateBookingInput) (bookingId : Uuid) (claim : Option Claim)
  /-- The first read of `cancel`. -/
  | findBefore (bookingId : Uuid) (actor : BookingActor) (reason : Option String)
  | findCurrent (transition : Transition)
  | compareAndSet (transition : Transition) (current : BookingStatus)
  | bookSlot (moved : Moved)
  | releaseSlot (moved : Moved)
  | releaseAssignment (moved : Moved)
  | commitTransition (moved : Moved)
  | findStale (limit : ℕ)
  | findBooking (input : RescheduleInput)
  | findNewSlot (move : Move)
  | claimNewSlot (move : Move)
  | moveBooking (move : Move) (claim : Claim)
  | bookNewSlot (move : Move) (claim : Claim)
  | releaseOldSlot (move : Move) (claim : Claim)
  | commitMove (move : Move) (claim : Claim)
  | findOverlap (input : CreateSlotInput)
  | insertSlot (slotId : Uuid) (slot : AvailabilitySlotEntity)
  | insertCandidates (candidates : List (Uuid × AvailabilitySlotEntity))
  | commitSlots
  | deleteSlot (professionalId slotId : Uuid)
  | returned (result : Result)
  | threw (failure : Failure)
  deriving DecidableEq

/-- What a statement is given from outside: the clock, a new id, and the answers of the
directories and of the governance seam. -/
structure Env where
  now : Instant
  newId : Uuid
  /-- `eligibleResourcesFor`. -/
  eligible : Option (List Uuid)
  deliveryLocation : Option Uuid
  /-- `governReschedule` finds accepted terms. -/
  governed : Bool
  /-- A governed reschedule has no consequence that is refused. -/
  permitted : Bool

/-! ## What the statements write -/

/-- The instant until which a hold that is taken now lasts. -/
def BookingConfig.holdUntil (config : BookingConfig) (now : Instant) : Instant :=
  now + config.holdMinutes * 60000

namespace AvailabilitySlotEntity

/-- The predicate of `claimSlot`. -/
def Claimable (slot : AvailabilitySlotEntity) (professionalId : Uuid) (now : Instant) : Prop :=
  slot.professionalId = professionalId ∧ now < slot.startAt ∧
    (slot.status = .open ∨ slot.status = .held ∧ ∃ t ∈ slot.heldUntil, t < now)

instance (slot : AvailabilitySlotEntity) (professionalId : Uuid) (now : Instant) :
    Decidable (slot.Claimable professionalId now) := inferInstanceAs (Decidable (_ ∧ _ ∧ _))

/-- The slot held for a booking. -/
def heldFor (slot : AvailabilitySlotEntity) (bookingId : Uuid) (holdExpiresAt : Instant) :
    AvailabilitySlotEntity :=
  { slot with
    status := .held
    heldUntil := some holdExpiresAt
    heldByBookingId := some bookingId }

/-- The slot booked by a booking. -/
def bookedBy (slot : AvailabilitySlotEntity) (bookingId : Uuid) : AvailabilitySlotEntity :=
  { slot with
    status := .booked
    heldUntil := none
    heldByBookingId := some bookingId }

/-- The slot open again. -/
def opened (slot : AvailabilitySlotEntity) : AvailabilitySlotEntity :=
  { slot with
    status := .open
    heldUntil := none
    heldByBookingId := none }

end AvailabilitySlotEntity

/-- The booking that `createWithin` inserts. -/
def newBooking (input : CreateBookingInput) (claim : Claim) : BookingEntity where
  customerId := input.customerId
  professionalId := input.professionalId
  serviceId := input.serviceId.or claim.slot.serviceId
  slotId := claim.slotId
  slotStart := claim.slot.startAt
  slotEnd := claim.slot.endAt
  status := .pending
  holdExpiresAt := some claim.holdExpiresAt
  rescheduleCount := 0
  cancellationReason := none
  cancelledByActorType := none
  cancelledByActorId := none
  confirmedAt := none
  completedAt := none
  cancelledAt := none

/-- The slot that `createSlot` inserts. -/
def newSlot (input : CreateSlotInput) (deliveryLocationId : Option Uuid) :
    AvailabilitySlotEntity where
  professionalId := input.professionalId
  serviceId := input.serviceId
  startAt := input.startAt
  endAt := input.endAt
  status := .open
  heldUntil := none
  heldByBookingId := none
  deliveryLocationId := deliveryLocationId

/-- Both are published for a service, and it is not the same. -/
def ServiceMismatch (a b : Option Uuid) : Prop := a ≠ none ∧ b ≠ none ∧ a ≠ b
  deriving Decidable

namespace Transition

/-- The booking that is moved. -/
def bookingId : Transition → Uuid
  | confirm id _ => id
  | cancel id _ _ _ => id
  | expire id _ _ _ => id

/-- The status it is moved to. -/
def toStatus : Transition → BookingStatus
  | confirm .. => .confirmed
  | cancel .. => .cancelled
  | expire .. => .expired

/-- The statuses it may be moved from. -/
def allowedFrom : Transition → List BookingStatus
  | confirm .. => [.pending]
  | cancel .. => [.pending, .confirmed]
  | expire .. => [.pending]

/-- The row after the compare-and-set. -/
def set (t : Transition) (now : Instant) (b : BookingEntity) : BookingEntity :=
  match t with
  | confirm .. => { b with
      status := .confirmed
      confirmedAt := some now
      holdExpiresAt := none }
  | cancel _ actor reason _ => { b with
      status := .cancelled
      cancellationReason := reason
      cancelledByActorType := some actor.type
      cancelledByActorId := actor.id
      cancelledAt := some now
      holdExpiresAt := none }
  | expire .. => { b with
      status := .expired
      holdExpiresAt := none }

/-- The history row of the transition. -/
def history (t : Transition) (current : BookingStatus) : BookingHistoryEntity :=
  match t with
  | confirm id actor => ⟨id, .confirmed, some current, .confirmed, actor, none⟩
  | cancel id actor reason _ => ⟨id, .cancelled, some current, .cancelled, actor, reason⟩
  | expire id _ _ _ => ⟨id, .expired, some current, .expired, systemActor, some "hold_expired"⟩

/-- The slot that a cancellation or an expiry releases: that of the row it had read. -/
def releasedSlot : Transition → Option Uuid
  | confirm .. => none
  | cancel _ _ _ before => some before.slotId
  | expire _ row _ _ => some row.slotId

end Transition

/-- The sweep goes on with its next row. -/
def nextRow (rows : List (Uuid × BookingEntity)) (expired : ℕ) : Place :=
  match rows with
  | [] => .returned (.expired expired)
  | (id, row) :: rest => .findCurrent (.expire id row rest expired)

/-- Where a call goes on after its transition has moved the booking, or has not. -/
def Transition.next (t : Transition) (done : Bool) : Place :=
  match t with
  | .confirm .. => .returned (.moved done)
  | .cancel .. => .returned (.moved done)
  | .expire _ _ rest expired => nextRow rest (if done then expired + 1 else expired)

/-- The statement after the compare-and-set. -/
def Moved.afterSet (m : Moved) : Place :=
  match m.transition with
  | .confirm .. => .bookSlot m
  | _ => .releaseSlot m

/-- The statement after the release of the slot. -/
def Moved.afterRelease (m : Moved) : Place :=
  match m.transition with
  | .cancel .. => .releaseAssignment m
  | _ => .commitTransition m

namespace Move

/-- The statuses a booking may be moved in. -/
def eligibleStatuses (input : RescheduleInput) : List BookingStatus :=
  if input.remedyBypass then slotHoldingStatuses ++ [.cancelled] else slotHoldingStatuses

/-- The status the move ends in. -/
def targetStatus (m : Move) : BookingStatus :=
  if m.input.remedyBypass ∧ m.booking.status = .cancelled then .confirmed else m.booking.status

/-- The booking after the move. -/
def set (m : Move) (claim : Claim) (b : BookingEntity) : BookingEntity :=
  { b with
    slotId := claim.slotId
    slotStart := claim.slot.startAt
    slotEnd := claim.slot.endAt
    rescheduleCount := m.booking.rescheduleCount + 1
    holdExpiresAt := if m.targetStatus = .pending then some claim.holdExpiresAt else none
    status := m.targetStatus }

end Move

/-! ## Committed transactions -/

/-- What a committed transaction was. -/
inductive Record where
  | created (input : CreateBookingInput) (claim : Claim)
  | transitioned (moved : Moved)
  | rescheduled (move : Move) (claim : Claim)
  /-- What a creation had written that was refused after its claim, and found its key. -/
  | left (input : CreateBookingInput) (claim : Claim)
  | slots
  /-- It has read only. -/
  | nothing
  deriving DecidableEq

/-- The history rows of a transaction. -/
def Record.history : Record → List BookingHistoryEntity
  | created input claim =>
    [⟨claim.bookingId, .created, none, .pending, ⟨.customer, some input.customerId⟩, none⟩]
  | transitioned m => [m.transition.history m.current]
  | rescheduled m _ => [⟨m.input.bookingId, .rescheduled, some m.booking.status, m.targetStatus,
      m.input.actor, m.input.reason⟩]
  | left _ _ => []
  | slots => []
  | nothing => []

/-! ## Statements -/

/-- What a statement comes to. -/
inductive Next where
  | waits
  | goes (db : BookingDb) (place : Place)
  | commits (record : Record) (place : Place)
  | throws (failure : Failure)

section Statements

variable (config : BookingConfig) (env : Env) (db : BookingDb) (pid : ℕ)

/-- The booking a key was used for. -/
def findByIdempotencyKey (input : CreateBookingInput) : Option Uuid :=
  match input.idempotencyKey with
  | none => none
  | some key =>
    match db.idempotencyKeys.get pid (input.customerId, key) with
    | none => none
    | some bookingId => (db.bookings.get pid bookingId).map fun _ => bookingId

/-- The count of `createWithin`. -/
def countHolds (input : CreateBookingInput) : Next :=
  if config.maxConcurrentHoldsPerCustomer ≤ (db.bookings.select pid fun b =>
      b.customerId = input.customerId ∧ b.status = .pending).length then
    .throws .tooManyActiveHolds
  else .goes db (.claimSlot input)

/-- The slot is held, if it is free at that instant. -/
def claimSlot (slotId professionalId bookingId : Uuid) :
    Outcome ℕ Uuid AvailabilitySlotEntity :=
  db.slots.update pid slotId (·.Claimable professionalId env.now)
    (·.heldFor bookingId (config.holdUntil env.now))

/-- The claim of `createWithin`, and the check of the service after it. -/
def claimForCreate (input : CreateBookingInput) : Next :=
  -- `uuidv7` gives no id that is in use
  if ¬db.Unused env.newId then .waits
  else
    match claimSlot config env db pid input.slotId input.professionalId env.newId with
    | .waits => .waits
    | .unmatched => .throws .slotUnavailable
    | .violated => .throws .uniqueViolation
    | .done slot slots =>
      if ServiceMismatch slot.serviceId input.serviceId then .throws .slotUnavailable
      else .goes { db with slots := slots }
        (.insertBooking input ⟨env.newId, input.slotId, slot, config.holdUntil env.now⟩)

/-- The insert of the booking, under `uq_bookings_active_slot`. -/
def insertBooking (input : CreateBookingInput) (claim : Claim) : Next :=
  match db.bookings.insert pid claim.bookingId (newBooking input claim)
      (SameActiveSlot (newBooking input claim)) with
  | .waits => .waits
  | .unmatched => .throws .other
  | .violated => .throws .uniqueViolation
  | .done _ bookings => .goes { db with bookings := bookings } (.findAssignment (.create input) claim)

/-- Where a call goes on after `syncResourceAssignment`. -/
def Purpose.next (purpose : Purpose) (claim : Claim) : Place :=
  match purpose with
  | .create input =>
    match input.idempotencyKey with
    | none => .commitCreate input claim
    | some _ => .insertKey input claim
  | .reschedule m => .moveBooking m claim

/-- The reads of `syncResourceAssignment`. -/
def findAssignment (purpose : Purpose) (claim : Claim) : Next :=
  let existing := db.assignments.get pid claim.bookingId
  match env.eligible with
  | none =>
    if existing.map (·.status) = some .active then .goes db (.releaseExisting purpose claim)
    else .goes db (purpose.next claim)
  | some [] => .throws .slotUnavailable
  | some ids => .goes db (.tryResource purpose claim existing.isSome (ids.insertionSort (· ≤ ·)))

/-- `UPDATE … SET status = 'released'`. -/
def BookingResourceAssignmentEntity.release (a : BookingResourceAssignmentEntity) :
    BookingResourceAssignmentEntity :=
  { a with status := .released }

/-- The assignment is not needed any more. -/
def releaseExisting (purpose : Purpose) (claim : Claim) : Next :=
  match db.assignments.update pid claim.bookingId (fun _ => True) (·.release) with
  | .waits => .waits
  | .unmatched => .goes db (purpose.next claim)
  | .violated => .throws .other
  | .done _ assignments => .goes { db with assignments := assignments } (purpose.next claim)

/-- The assignment of a resource for a claimed slot. -/
def newAssignment (claim : Claim) (resourceId : Uuid) : BookingResourceAssignmentEntity :=
  ⟨resourceId, claim.slot.startAt, claim.slot.endAt, .active⟩

/-- One candidate, when it is still eligible, under a savepoint. -/
def tryResource (purpose : Purpose) (claim : Claim) (existing : Bool) (candidates : List Uuid) :
    Next :=
  match candidates with
  | [] => .throws .slotUnavailable
  | resourceId :: rest =>
    if resourceId ∉ env.eligible.getD [] then .goes db (.tryResource purpose claim existing rest)
    else
      match (if existing then
          db.assignments.updateChecked pid claim.bookingId (fun _ => True)
            (fun _ => newAssignment claim resourceId) AssignmentConflict
        else db.assignments.insert pid claim.bookingId (newAssignment claim resourceId)
          (AssignmentConflict (newAssignment claim resourceId))) with
      | .waits => .waits
      | .unmatched => .goes db (purpose.next claim)
      | .violated => .goes db (.tryResource purpose claim existing rest)
      | .done _ assignments => .goes { db with assignments := assignments } (purpose.next claim)

/-- The insert of the idempotency key, under `uq_booking_idempotency_keys`. -/
def insertKey (input : CreateBookingInput) (claim : Claim) : Next :=
  match input.idempotencyKey with
  | none => .goes db (.commitCreate input claim)
  | some key =>
    match db.idempotencyKeys.insert pid (input.customerId, key) claim.bookingId
        (fun _ => False) with
    | .waits => .waits
    | .unmatched => .throws .other
    | .violated => .throws .uniqueViolation
    | .done _ keys => .goes { db with idempotencyKeys := keys } (.commitCreate input claim)

/-- The first read of `cancel`. -/
def findBefore (bookingId : Uuid) (actor : BookingActor) (reason : Option String) : Next :=
  match db.bookings.get pid bookingId with
  | none => .commits .nothing (.returned (.moved false))
  | some before => .goes db (.findCurrent (.cancel bookingId actor reason before))

/-- The read of `transition`, which reports an illegal move. -/
def findCurrent (t : Transition) : Next :=
  match db.bookings.get pid t.bookingId with
  | none => .commits .nothing (t.next false)
  | some b =>
    if b.status ∈ t.allowedFrom then .goes db (.compareAndSet t b.status)
    else .commits .nothing (t.next false)

/-- The compare-and-set of `transition`. -/
def compareAndSet (t : Transition) (current : BookingStatus) : Next :=
  match db.bookings.get pid t.bookingId with
  | none => .commits .nothing (t.next false)
  | some b =>
    match db.bookings.update pid t.bookingId (·.status ∈ t.allowedFrom) (t.set env.now) with
    | .waits => .waits
    | .unmatched => .commits .nothing (t.next false)
    | .violated => .throws .uniqueViolation
    | .done _ bookings =>
      .goes { db with bookings := bookings } (Moved.afterSet ⟨t, current, b.status⟩)

/-- `UPDATE … SET status = 'booked'`, of the slot of a booking that is confirmed. -/
def bookSlotOf (slotId bookingId : Uuid) (place : Place) : Next :=
  match db.slots.update pid slotId (fun _ => True) (·.bookedBy bookingId) with
  | .waits => .waits
  | .unmatched => .goes db place
  | .violated => .throws .other
  | .done _ slots => .goes { db with slots := slots } place

/-- `releaseSlot`. -/
def releaseSlotOf (slotId bookingId : Uuid) (place : Place) : Next :=
  match db.slots.update pid slotId
      (fun slot => slot.heldByBookingId = some bookingId ∨ slot.heldByBookingId = none)
      (·.opened) with
  | .waits => .waits
  | .unmatched => .goes db place
  | .violated => .throws .other
  | .done _ slots => .goes { db with slots := slots } place

/-- `confirm` after the transition: it reads the booking, and books its slot. -/
def bookSlot (m : Moved) : Next :=
  match db.bookings.get pid m.transition.bookingId with
  | none => .throws .other
  | some b => bookSlotOf db pid b.slotId m.transition.bookingId (.commitTransition m)

/-- `cancel` and `expireStaleHolds` release the slot of the row they had read. -/
def releaseSlot (m : Moved) : Next :=
  match m.transition.releasedSlot with
  | some slotId => releaseSlotOf db pid slotId m.transition.bookingId m.afterRelease
  | none => .throws .other

/-- `releaseResourceAssignment`. -/
def releaseAssignment (m : Moved) : Next :=
  match db.assignments.update pid m.transition.bookingId (·.status = .active)
      (·.release) with
  | .waits => .waits
  | .unmatched => .goes db (.commitTransition m)
  | .violated => .throws .other
  | .done _ assignments => .goes { db with assignments := assignments } (.commitTransition m)

/-- The holds that `expireStaleHolds` finds, the longest lapsed first. -/
def staleHolds (limit : ℕ) : List (Uuid × BookingEntity) :=
  let stale := (db.bookings.select pid fun b =>
    b.status = .pending ∧ ∃ t ∈ b.holdExpiresAt, t < env.now).filterMap
      fun id => (db.bookings.get pid id).map fun b => (id, b)
  (stale.insertionSort fun a b => a.2.holdExpiresAt.getD 0 ≤ b.2.holdExpiresAt.getD 0).take limit

/-- The checks of `reschedule` on the booking it has read. -/
def rescheduleRefusal (input : RescheduleInput) (governed : Bool) (b : BookingEntity) :
    Option RescheduleRefusal :=
  if b.status ∉ Move.eligibleStatuses input then some .status
  else if ¬governed ∧ ¬input.remedyBypass ∧
      config.maxReschedulesPerBooking ≤ b.rescheduleCount then some .maxReached
  else if ¬governed ∧ ¬input.remedyBypass ∧
      b.slotStart - env.now < config.rescheduleMinHoursBefore * 3600000 then some .tooClose
  else if input.newSlotId = b.slotId then some .sameSlot
  else none

/-- The first read of `reschedule`: under `FOR UPDATE` when it is governed. -/
def findBooking (input : RescheduleInput) : Next :=
  let governed := env.governed && !input.remedyBypass && input.actor.type = .customer
  if governed then
    match db.bookings.update pid input.bookingId (fun _ => True) id with
    | .waits => .waits
    | .unmatched => .throws .other
    | .violated => .throws .other
    | .done b bookings =>
      match rescheduleRefusal config env input governed b with
      | some refusal => .throws (.rescheduleNotAllowed refusal)
      | none => .goes { db with bookings := bookings } (.findNewSlot ⟨input, b, governed⟩)
  else
    match db.bookings.get pid input.bookingId with
    | none => .throws .other
    | some b =>
      match rescheduleRefusal config env input governed b with
      | some refusal => .throws (.rescheduleNotAllowed refusal)
      | none => .goes db (.findNewSlot ⟨input, b, governed⟩)

/-- The checks of `reschedule` on the new slot, and on the consequence. -/
def findNewSlot (m : Move) : Next :=
  match db.slots.get pid m.input.newSlotId with
  | none => .throws (.rescheduleNotAllowed .invalidSlot)
  | some slot =>
    if slot.professionalId ≠ m.booking.professionalId ∨
        ServiceMismatch m.booking.serviceId slot.serviceId then
      .throws (.rescheduleNotAllowed .invalidSlot)
    else if m.governed ∧ ¬env.permitted then .throws (.rescheduleNotAllowed .consequence)
    else .goes db (.claimNewSlot m)

/-- The claim of `reschedule`. -/
def claimForMove (m : Move) : Next :=
  match claimSlot config env db pid m.input.newSlotId m.booking.professionalId
      m.input.bookingId with
  | .waits => .waits
  | .unmatched => .throws .slotUnavailable
  | .violated => .throws .uniqueViolation
  | .done slot slots => .goes { db with slots := slots } (.findAssignment (.reschedule m)
      ⟨m.input.bookingId, m.input.newSlotId, slot, config.holdUntil env.now⟩)

/-- The compare-and-set of `reschedule`, under `uq_bookings_active_slot`. -/
def moveBooking (m : Move) (claim : Claim) : Next :=
  match db.bookings.updateChecked pid m.input.bookingId
      (fun b => b.status = m.booking.status ∧ b.rescheduleCount = m.booking.rescheduleCount)
      (m.set claim) SameActiveSlot with
  | .waits => .waits
  | .unmatched => .throws (.rescheduleNotAllowed .status)
  | .violated => .throws .uniqueViolation
  | .done _ bookings => .goes { db with bookings := bookings }
      (if m.targetStatus = .confirmed then .bookNewSlot m claim else .releaseOldSlot m claim)

/-- `assertValidRange` and the check of the past, and then the read of `overlaps`. -/
def findOverlap (input : CreateSlotInput) : Next :=
  if input.endAt ≤ input.startAt ∨ input.startAt < env.now ∨
      input.endAt - input.startAt < config.minSlotMinutes * 60000 ∨
      config.maxSlotMinutes * 60000 < input.endAt - input.startAt then
    .throws .slotInvalid
  else if (db.slots.select pid fun slot => slot.professionalId = input.professionalId ∧
      Overlaps slot.startAt slot.endAt input.startAt input.endAt) ≠ [] then
    .throws .slotOverlaps
  else .goes db (.insertSlot env.newId (newSlot input env.deliveryLocation))

/-- The insert of `createSlot`, under the constraints on slots. -/
def insertSlot (slotId : Uuid) (slot : AvailabilitySlotEntity) : Next :=
  match db.slots.insert pid slotId slot (SlotConflict slot) with
  | .waits => .waits
  | .unmatched => .throws .other
  | .violated => .throws .slotOverlaps
  | .done _ slots => .goes { db with slots := slots } .commitSlots

/-- The insert of `bulkGenerate`, candidate by candidate: `ON CONFLICT DO NOTHING`. -/
def insertCandidates (candidates : List (Uuid × AvailabilitySlotEntity)) : Next :=
  match candidates with
  | [] => .goes db .commitSlots
  | (slotId, slot) :: rest =>
    let slot := slot.opened
    if slot.endAt ≤ slot.startAt then .throws .other
    else
      match db.slots.insert pid slotId slot (SlotConflict slot) with
      | .waits => .waits
      | .unmatched => .throws .other
      | .violated => .goes db (.insertCandidates rest)
      | .done _ slots => .goes { db with slots := slots } (.insertCandidates rest)

/-- `deleteSlot`, under the foreign key of `bookings.slot_id`. -/
def deleteSlot (professionalId slotId : Uuid) : Next :=
  match db.slots.get pid slotId with
  | none => .throws .slotNotReleasable
  | some slot =>
    if slot.professionalId = professionalId ∧ slot.status = .open then
      if (db.slots.row slotId).Locked pid then .waits
      else if ∃ id ∈ db.bookings.keys, (db.bookings.row id).HasVersion (·.slotId = slotId) then
        .throws .other
      else .goes { db with slots := db.slots.delete slotId } (.returned .slots)
    else .throws .slotNotReleasable

/-- The statement of a call at its place. -/
def statement : Place → Next
  | .idle => .waits
  | .findKey input =>
    match findByIdempotencyKey db pid input with
    | some bookingId => .goes db (.returned (.booking bookingId))
    | none => .goes db (.countHolds input)
  | .countHolds input => countHolds config db pid input
  | .claimSlot input => claimForCreate config env db pid input
  | .insertBooking input claim => insertBooking db pid input claim
  | .findAssignment purpose claim => findAssignment env db pid purpose claim
  | .releaseExisting purpose claim => releaseExisting db pid purpose claim
  | .tryResource purpose claim existing candidates =>
    tryResource env db pid purpose claim existing candidates
  | .insertKey input claim => insertKey db pid input claim
  | .commitCreate input claim =>
    .commits (.created input claim) (.returned (.booking claim.bookingId))
  | .findKeyAgain input failure =>
    match findByIdempotencyKey db pid input with
    | some bookingId => .goes db (.returned (.booking bookingId))
    | none => .goes db
        (.threw (if failure = .uniqueViolation then .slotUnavailable else failure))
  | .refused input failure claim =>
    -- another connection does not see what the transaction has written
    match findByIdempotencyKey (db.rollback pid) pid input with
    | some bookingId => .goes db (.replays input bookingId claim)
    | none => .throws failure
  | .replays _ bookingId none => .commits .nothing (.returned (.booking bookingId))
  | .replays input bookingId (some claim) =>
    .commits (.left input claim) (.returned (.booking bookingId))
  | .findBefore bookingId actor reason => findBefore db pid bookingId actor reason
  | .findCurrent t => findCurrent db pid t
  | .compareAndSet t current => compareAndSet env db pid t current
  | .bookSlot m => bookSlot db pid m
  | .releaseSlot m => releaseSlot db pid m
  | .releaseAssignment m => releaseAssignment db pid m
  | .commitTransition m => .commits (.transitioned m) (m.transition.next true)
  | .findStale limit => .goes db (nextRow (staleHolds env db pid limit) 0)
  | .findBooking input => findBooking config env db pid input
  | .findNewSlot m => findNewSlot env db pid m
  | .claimNewSlot m => claimForMove config env db pid m
  | .moveBooking m claim => moveBooking db pid m claim
  | .bookNewSlot m claim =>
    bookSlotOf db pid claim.slotId m.input.bookingId (.releaseOldSlot m claim)
  | .releaseOldSlot m claim =>
    releaseSlotOf db pid m.booking.slotId m.input.bookingId (.commitMove m claim)
  | .commitMove m claim =>
    .commits (.rescheduled m claim) (.returned (.booking m.input.bookingId))
  | .findOverlap input => findOverlap config env db pid input
  | .insertSlot slotId slot => insertSlot db pid slotId slot
  | .insertCandidates candidates => insertCandidates db pid candidates
  | .commitSlots => .commits .slots (.returned .slots)
  | .deleteSlot professionalId slotId => deleteSlot db pid professionalId slotId
  | .returned _ => .waits
  | .threw _ => .waits

/-- The claim of a call that is in `createWithin`. -/
def Place.claim : Place → Option Claim
  | insertBooking _ claim => some claim
  | findAssignment _ claim => some claim
  | releaseExisting _ claim => some claim
  | tryResource _ claim _ _ => some claim
  | insertKey _ claim => some claim
  | commitCreate _ claim => some claim
  | _ => none

/-- What a call of `create` has written when it throws, and the claim in it: a slot that turns out
to be for another service has been claimed. -/
def leftBy : Place → BookingDb × Option Claim
  | .claimSlot input =>
    match claimSlot config env db pid input.slotId input.professionalId env.newId with
    | .done slot slots => ({ db with slots := slots },
        some ⟨env.newId, input.slotId, slot, config.holdUntil env.now⟩)
    | _ => (db, none)
  | place => (db, place.claim)

end Statements

/-! ## The system -/

/-- Where a call starts. -/
def Request.place : Request → Place
  | create input =>
    match input.idempotencyKey with
    | none => .countHolds input
    | some _ => .findKey input
  | confirm bookingId actor => .findCurrent (.confirm bookingId actor)
  | cancel bookingId actor reason => .findBefore bookingId actor reason
  | reschedule input => .findBooking input
  | expireStaleHolds limit => .findStale limit
  | createSlot input => .findOverlap input
  | bulkGenerate candidates => .insertCandidates candidates
  | deleteSlot professionalId slotId => .deleteSlot professionalId slotId

/-- The input of `createWithin`, of a call that is in it. -/
def Place.creating : Place → Option CreateBookingInput
  | countHolds input => some input
  | claimSlot input => some input
  | insertBooking input _ => some input
  | findAssignment (.create input) _ => some input
  | releaseExisting (.create input) _ => some input
  | tryResource (.create input) _ _ _ => some input
  | insertKey input _ => some input
  | commitCreate input _ => some input
  | _ => none

/-- The input of a call of `create` that catches its failures: with a manager the commit is the
caller's. -/
def Place.catching : Place → Option CreateBookingInput
  | commitCreate input _ => if input.manager then none else some input
  | place => place.creating

/-- The input of a call of `create` that has caught a failure with nothing rolled back. -/
def Place.refusing (place : Place) (failure : Failure) : Option CreateBookingInput :=
  place.catching.filter fun input => input.manager && failure.thrown

/-- Where a call is after a failure has rolled it back: `create` looks its key up again. -/
def Place.failed (place : Place) (failure : Failure) : Place :=
  match place.catching with
  | none => .threw failure
  | some input =>
    match input.idempotencyKey with
    | some _ => .findKeyAgain input failure
    | none => .threw (if failure = .uniqueViolation then .slotUnavailable else failure)

/-- A call there still runs. -/
def Place.running : Place → Bool
  | idle => false
  | returned _ => false
  | threw _ => false
  | _ => true

/-- The tables, the calls at work on them and what they were asked, and the transactions that
have committed. -/
structure BookingSystem where
  db : BookingDb
  calls : ℕ → Place
  asked : ℕ → Option Request
  log : List Record

/-- What a step does. -/
inductive Action where
  | start (request : Request)
  | statement (env : Env)
  /-- The connection is lost, or an outer caller rolls back. -/
  | die

/-- A step of one call. -/
structure BookingStep where
  pid : ℕ
  action : Action

namespace BookingSystem

def start : BookingSystem := ⟨.empty, fun _ => .idle, fun _ => none, []⟩

/-- The rows of `booking_history`. -/
def history (s : BookingSystem) : List BookingHistoryEntity := s.log.flatMap Record.history

/-- A call starts on a request. -/
def begins (s : BookingSystem) (pid : ℕ) (request : Request) : BookingSystem :=
  { s with
    calls := update s.calls pid request.place
    asked := update s.asked pid (some request) }

/-- A call moves on over what it has written. -/
def goes (s : BookingSystem) (pid : ℕ) (db : BookingDb) (place : Place) : BookingSystem :=
  { s with
    db := db
    calls := update s.calls pid place }

/-- A call commits and is logged. -/
def commits (s : BookingSystem) (pid : ℕ) (record : Record) (place : Place) : BookingSystem :=
  { s with
    db := s.db.commit pid
    calls := update s.calls pid place
    log := s.log ++ [record] }

/-- The call is rolled back. -/
def fails (s : BookingSystem) (pid : ℕ) (failure : Failure) : BookingSystem :=
  { s with
    db := s.db.rollback pid
    calls := update s.calls pid ((s.calls pid).failed failure) }

/-- The call has caught what it threw, in its caller's transaction. -/
def refuses (s : BookingSystem) (config : BookingConfig) (pid : ℕ) (env : Env)
    (input : CreateBookingInput) (failure : Failure) : BookingSystem :=
  s.goes pid (leftBy config env s.db pid (s.calls pid)).1
    (.refused input failure (leftBy config env s.db pid (s.calls pid)).2)

variable (s : BookingSystem)

@[simp] theorem calls_begins (pid : ℕ) (request : Request) :
    (s.begins pid request).calls pid = request.place := update_self ..

@[simp] theorem calls_goes (pid : ℕ) (db : BookingDb) (place : Place) :
    (s.goes pid db place).calls pid = place := update_self ..

@[simp] theorem calls_commits (pid : ℕ) (record : Record) (place : Place) :
    (s.commits pid record place).calls pid = place := update_self ..

@[simp] theorem calls_fails (pid : ℕ) (failure : Failure) :
    (s.fails pid failure).calls pid = (s.calls pid).failed failure := update_self ..

/-- A call starts, takes a statement or dies. -/
def step (config : BookingConfig) (s : BookingSystem) (e : BookingStep) : Option BookingSystem :=
  match e.action with
  | .start request =>
    if s.calls e.pid = .idle ∧ s.asked e.pid = none then some (s.begins e.pid request) else none
  | .die => if (s.calls e.pid).running then some (s.fails e.pid .other) else none
  | .statement env =>
    match statement config env s.db e.pid (s.calls e.pid) with
    | .waits => none
    | .goes db place => some (s.goes e.pid db place)
    | .commits record place => some (s.commits e.pid record place)
    | .throws failure =>
      match (s.calls e.pid).refusing failure with
      | none => some (s.fails e.pid failure)
      | some input => some (s.refuses config e.pid env input failure)

end BookingSystem

end BeauClick.Scheduling
