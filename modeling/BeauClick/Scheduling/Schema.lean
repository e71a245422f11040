import BeauClick.Booking.Booking
import BeauClick.Lib.ReadCommitted

/-!
# The booking schema

The tables of `database/migrations/booking` that `BookingService` and `AvailabilityService`
write, under their constraints.  A table is by its primary key, which is no column of the
row; resource assignments, of which a booking has at most one, are by booking.
-/

namespace BeauClick.Scheduling

open ReadCommitted Booking

/-! ## Rows -/

/-- `SLOT_STATUSES`. -/
inductive SlotStatus where
  | open
  | held
  | booked
  deriving DecidableEq

/-- `booking.availability_slots`. -/
structure AvailabilitySlotEntity where
  professionalId : Uuid
  serviceId : Option Uuid
  startAt : Instant
  endAt : Instant
  status : SlotStatus
  heldUntil : Option Instant
  heldByBookingId : Option Uuid
  deliveryLocationId : Option Uuid
  deriving DecidableEq

/-- `booking.bookings`. -/
structure BookingEntity where
  customerId : Uuid
  professionalId : Uuid
  serviceId : Option Uuid
  slotId : Uuid
  slotStart : Instant
  slotEnd : Instant
  status : BookingStatus
  holdExpiresAt : Option Instant
  rescheduleCount : ℕ
  cancellationReason : Option String
  cancelledByActorType : Option BookingActorType
  cancelledByActorId : Option Uuid
  confirmedAt : Option Instant
  completedAt : Option Instant
  cancelledAt : Option Instant
  deriving DecidableEq

/-- The statuses of a resource assignment. -/
inductive AssignmentStatus where
  | active
  | released
  deriving DecidableEq

/-- `booking.booking_resource_assignments`. -/
structure BookingResourceAssignmentEntity where
  resourceId : Uuid
  startAt : Instant
  endAt : Instant
  status : AssignmentStatus

/-- `BOOKING_HISTORY_EVENTS`, those that the operations record. -/
inductive BookingHistoryEvent where
  | created
  | confirmed
  | cancelled
  | expired
  | rescheduled
  deriving DecidableEq

/-- Who changes a booking. -/
structure BookingActor where
  type : BookingActorType
  id : Option Uuid
  deriving DecidableEq

def systemActor : BookingActor := ⟨.system, none⟩

/-- `booking.booking_history`. -/
structure BookingHistoryEntity where
  bookingId : Uuid
  event : BookingHistoryEvent
  fromStatus : Option BookingStatus
  toStatus : BookingStatus
  actor : BookingActor
  reason : Option String
  deriving DecidableEq

/-! ## Constraints -/

/-- `[a, b)` and `[c, d)` have an instant in common, when neither is empty. -/
def Overlaps (a b c d : Instant) : Prop := a < d ∧ c < b
  deriving Decidable

/-- Two slots that a professional cannot have both. -/
def SlotConflict (v w : AvailabilitySlotEntity) : Prop :=
  v.professionalId = w.professionalId ∧
    (v.startAt = w.startAt ∨ Overlaps v.startAt v.endAt w.startAt w.endAt)
  deriving Decidable

/-- Two bookings that are pending or confirmed on one slot. -/
def SameActiveSlot (b c : BookingEntity) : Prop :=
  b.status ∈ slotHoldingStatuses ∧ c.status ∈ slotHoldingStatuses ∧ b.slotId = c.slotId
  deriving Decidable

/-- Two active assignments of one resource at the same time. -/
def AssignmentConflict (a b : BookingResourceAssignmentEntity) : Prop :=
  a.status = .active ∧ b.status = .active ∧ a.resourceId = b.resourceId ∧
    Overlaps a.startAt a.endAt b.startAt b.endAt
  deriving Decidable

theorem Overlaps.symm {a b c d : Instant} (h : Overlaps a b c d) : Overlaps c d a b := ⟨h.2, h.1⟩

theorem slotConflict_symm : ∀ v w, SlotConflict v w → SlotConflict w v :=
  fun _ _ h => ⟨h.1.symm, h.2.imp Eq.symm Overlaps.symm⟩

theorem sameActiveSlot_symm : ∀ b c, SameActiveSlot b c → SameActiveSlot c b :=
  fun _ _ h => ⟨h.2.1, h.1, h.2.2.symm⟩

theorem assignmentConflict_symm : ∀ a b, AssignmentConflict a b → AssignmentConflict b a :=
  fun _ _ h => ⟨h.2.1, h.1, h.2.2.1.symm, h.2.2.2.symm⟩

/-! ## The tables -/

/-- The tables of the schema.  A key of `idempotencyKeys` is the owner and his key; the scope
is always `booking.create`. -/
structure BookingDb where
  slots : Versioned ℕ Uuid AvailabilitySlotEntity
  bookings : Versioned ℕ Uuid BookingEntity
  assignments : Versioned ℕ Uuid BookingResourceAssignmentEntity
  idempotencyKeys : Versioned ℕ (Uuid × String) Uuid

namespace BookingDb

/-- No rows yet. -/
def empty : BookingDb := ⟨.empty, .empty, .empty, .empty⟩

def writeSlot (db : BookingDb) (pid : ℕ) (slotId : Uuid) (slot : AvailabilitySlotEntity) :
    BookingDb :=
  { db with slots := db.slots.write pid slotId slot }

/-- A call writes a booking. -/
def writeBooking (db : BookingDb) (pid : ℕ) (bookingId : Uuid) (b : BookingEntity) : BookingDb :=
  { db with bookings := db.bookings.write pid bookingId b }

/-- A call writes the assignment of a booking. -/
def writeAssignment (db : BookingDb) (pid : ℕ) (bookingId : Uuid)
    (a : BookingResourceAssignmentEntity) : BookingDb :=
  { db with assignments := db.assignments.write pid bookingId a }

/-- A call writes an idempotency key. -/
def writeKey (db : BookingDb) (pid : ℕ) (key : Uuid × String) (bookingId : Uuid) : BookingDb :=
  { db with idempotencyKeys := db.idempotencyKeys.write pid key bookingId }

/-- Transaction `pid` commits. -/
def commit (db : BookingDb) (pid : ℕ) : BookingDb where
  slots := db.slots.commit pid
  bookings := db.bookings.commit pid
  assignments := db.assignments.commit pid
  idempotencyKeys := db.idempotencyKeys.commit pid

/-- Transaction `pid` rolls back. -/
def rollback (db : BookingDb) (pid : ℕ) : BookingDb where
  slots := db.slots.rollback pid
  bookings := db.bookings.rollback pid
  assignments := db.assignments.rollback pid
  idempotencyKeys := db.idempotencyKeys.rollback pid

/-- No booking has the id, and no slot is held for it. -/
def Unused (db : BookingDb) (bookingId : Uuid) : Prop :=
  db.bookings.committed bookingId = none ∧
    ∀ k ∈ db.slots.keys, ¬(db.slots.row k).HasVersion (·.heldByBookingId = some bookingId)
  deriving Decidable

end BookingDb

/-- `BookingConfig`, at whole numbers; the getter falls back where one is not positive. -/
structure BookingConfig where
  holdMinutes : ℕ
  maxConcurrentHoldsPerCustomer : ℕ
  maxReschedulesPerBooking : ℕ
  rescheduleMinHoursBefore : ℕ
  minSlotMinutes : ℕ
  maxSlotMinutes : ℕ
  maxAvailabilityWindowDays : ℕ
  holdMinutes_pos : 0 < holdMinutes
  maxConcurrentHoldsPerCustomer_pos : 0 < maxConcurrentHoldsPerCustomer

def BookingConfig.default : BookingConfig where
  holdMinutes := 15
  maxConcurrentHoldsPerCustomer := 5
  maxReschedulesPerBooking := 2
  rescheduleMinHoursBefore := 6
  minSlotMinutes := 10
  maxSlotMinutes := 480
  maxAvailabilityWindowDays := 62
  holdMinutes_pos := by decide
  maxConcurrentHoldsPerCustomer_pos := by decide

end BeauClick.Scheduling
