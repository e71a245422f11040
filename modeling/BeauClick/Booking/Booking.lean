import BeauClick.Commerce.Order

/-!
# The booking row

`services/booking/src/booking/booking.service.ts`, for one booking: its row, its history
and the outbox rows about it.  Slots, resources and the guards that can only refuse a
move are the callers' answers; an instant is in milliseconds.
-/

namespace BeauClick.Booking

/-- `BOOKING_STATUSES`. -/
inductive BookingStatus where
  | pending
  | confirmed
  | completed
  | cancelled
  | expired
  | noShow
  deriving DecidableEq

/-- The statuses in which a booking holds its slot. -/
def slotHoldingStatuses : List BookingStatus := [.pending, .confirmed]

/-- `BOOKING_ACTOR_TYPES`. -/
inductive BookingActorType where
  | customer
  | professional
  | system
  | admin
  deriving DecidableEq

/-- `BOOKING_HISTORY_EVENTS`, those that the operations below record. -/
inductive BookingHistoryEvent where
  | confirmed
  | completed
  | cancelled
  | expired
  | noShow
  | rescheduled
  deriving DecidableEq

/-- The columns of `booking.bookings` that the operations read or write. -/
structure BookingEntity where
  id : Uuid
  status : BookingStatus
  slotId : Uuid
  slotStart : Instant
  rescheduleCount : ℕ
  cancelledByActorType : Option BookingActorType
  cancelledAt : Option Instant

/-- `booking.booking_history`. -/
structure BookingHistoryEntity where
  event : BookingHistoryEvent
  fromStatus : BookingStatus
  toStatus : BookingStatus
  actorType : BookingActorType
  createdAt : Instant

/-- The payloads booking writes to its outbox. -/
inductive BookingEvent where
  | bookingConfirmed (bookingId : Uuid)
  | bookingCancelled (bookingId : Uuid) (previousStatus : BookingStatus)
      (actorType : BookingActorType)
  | bookingExpired (bookingId : Uuid)
  | bookingCompleted (bookingId : Uuid)
  | bookingNoShowDeclared (bookingId : Uuid)
  | bookingRescheduled (bookingId oldSlotId newSlotId : Uuid) (rescheduleCount : ℕ)
  deriving DecidableEq

/-- One booking's part of the booking schema. -/
structure BookingStore where
  booking : Option BookingEntity
  history : List BookingHistoryEntity
  outbox : List BookingEvent

/-- What a cancellation is judged on. -/
structure BookingCancellationFacts where
  cancelledByActorType : BookingActorType
  wasConfirmed : Bool
  eventInstant : Instant
  cutoffInstant : Option Instant
  timely : Option Bool

/-- A slot that `claimSlot` could claim. -/
structure ClaimedSlot where
  id : Uuid
  startAt : Instant

namespace BookingStore

def status (s : BookingStore) : Option BookingStatus := s.booking.map (·.status)

/-- `transition`, reporting an illegal move: the row as `set` leaves it, and its history. -/
def transition (s : BookingStore) (event : BookingHistoryEvent)
    (toStatus : BookingStatus) (allowedFrom : List BookingStatus) (actor : BookingActorType)
    (now : Instant) (set : BookingEntity → BookingEntity) (published : BookingEntity → BookingEvent) :
    Bool × BookingStore :=
  match s.booking with
  | none => (false, s)
  | some b =>
    if b.status ∈ allowedFrom then
      (true, {
        booking := some (set { b with status := toStatus })
        history := s.history ++ [⟨event, b.status, toStatus, actor, now⟩]
        outbox := s.outbox ++ [published b] })
    else (false, s)

def confirm (s : BookingStore) (actor : BookingActorType) (now : Instant) : Bool × BookingStore :=
  s.transition .confirmed .confirmed [.pending] actor now id fun b => .bookingConfirmed b.id

def cancel (s : BookingStore) (actor : BookingActorType) (now : Instant) : Bool × BookingStore :=
  s.transition .cancelled .cancelled [.pending, .confirmed] actor now
    (fun b => { b with
      cancelledByActorType := some actor
      cancelledAt := some now })
    fun b => .bookingCancelled b.id b.status actor

/-- One booking of `expireStaleHolds`. -/
def expire (s : BookingStore) (now : Instant) : Bool × BookingStore :=
  s.transition .expired .expired [.pending] .system now id fun b => .bookingExpired b.id

/-- The statuses a booking may be moved in. -/
def eligibleStatuses (remedyBypass : Bool) : List BookingStatus :=
  if remedyBypass then slotHoldingStatuses ++ [.cancelled] else slotHoldingStatuses

/-- The status a move ends in: a remedy's move revives a cancelled booking. -/
def targetStatus (remedyBypass : Bool) (status : BookingStatus) : BookingStatus :=
  if remedyBypass && status = .cancelled then .confirmed else status

/-- `reschedule` to a claimed slot; `none` when it throws.  `permitted` is the answer of the
governance, count and notice guards, which a remedy's move does not ask. -/
def reschedule (s : BookingStore) (slot : Option ClaimedSlot) (actor : BookingActorType)
    (remedyBypass permitted : Bool) (now : Instant) : Option BookingStore :=
  match s.booking, slot with
  | some b, some slot =>
    if b.status ∉ eligibleStatuses remedyBypass then none
    else if !remedyBypass && !permitted then none
    else if slot.id = b.slotId then none
    else
      some {
        booking := some { b with
          status := targetStatus remedyBypass b.status
          slotId := slot.id
          slotStart := slot.startAt
          rescheduleCount := b.rescheduleCount + 1 }
        history := s.history ++ [⟨.rescheduled, b.status, targetStatus remedyBypass b.status, actor, now⟩]
        outbox := s.outbox ++
          [.bookingRescheduled b.id b.slotId slot.id (b.rescheduleCount + 1)] }
  | _, _ => none

/-- `cancellationFacts`: nothing unless the booking is cancelled; the instant and the earlier
status are those of its first cancellation. -/
def cancellationFacts (s : BookingStore) (cutoffHours : Option ℤ) :
    Option BookingCancellationFacts :=
  match s.booking, s.history.find? fun h => h.event = .cancelled with
  | some b, some h =>
    match b.status, b.cancelledByActorType with
    | .cancelled, some actorType =>
      some {
        cancelledByActorType := actorType
        wasConfirmed := h.fromStatus = .confirmed
        eventInstant := h.createdAt
        cutoffInstant := cutoffHours.map fun hours => b.slotStart - hours * 3600000
        timely := cutoffHours.map fun hours => h.createdAt ≤ b.slotStart - hours * 3600000 }
    | _, _ => none
  | _, _ => none

/-! ## What each operation can do -/

variable {s : BookingStore} {actor : BookingActorType} {now : Instant} {remedyBypass : Bool}

/-- A transition moves a booking that stands in one of the allowed statuses, or reports that
it did not. -/
theorem transition_cases {event : BookingHistoryEvent} {toStatus : BookingStatus}
    {allowedFrom : List BookingStatus} {set : BookingEntity → BookingEntity}
    {published : BookingEntity → BookingEvent} :
    s.transition event toStatus allowedFrom actor now set published = (false, s) ∨
      ∃ b, s.booking = some b ∧ b.status ∈ allowedFrom ∧
        s.transition event toStatus allowedFrom actor now set published = (true, {
          booking := some (set { b with status := toStatus })
          history := s.history ++ [⟨event, b.status, toStatus, actor, now⟩]
          outbox := s.outbox ++ [published b] }) := by
  unfold transition
  split
  · exact Or.inl rfl
  · rename_i b hb
    split
    · rename_i hmem
      exact Or.inr ⟨b, hb, hmem, rfl⟩
    · exact Or.inl rfl

theorem confirm_cases (s : BookingStore) (actor : BookingActorType) (now : Instant) :
    s.confirm actor now = (false, s) ∨
      ∃ b, s.booking = some b ∧ b.status = .pending ∧
        s.confirm actor now = (true, {
          booking := some { b with status := .confirmed }
          history := s.history ++ [⟨.confirmed, b.status, .confirmed, actor, now⟩]
          outbox := s.outbox ++ [.bookingConfirmed b.id] }) := by
  rcases transition_cases with h | ⟨b, hb, hmem, h⟩
  · exact Or.inl h
  · exact Or.inr ⟨b, hb, List.mem_singleton.1 hmem, h⟩

theorem cancel_cases (s : BookingStore) (actor : BookingActorType) (now : Instant) :
    s.cancel actor now = (false, s) ∨
      ∃ b, s.booking = some b ∧ b.status ∈ [.pending, .confirmed] ∧
        s.cancel actor now = (true, {
          booking := some { b with
            status := .cancelled
            cancelledByActorType := some actor
            cancelledAt := some now }
          history := s.history ++ [⟨.cancelled, b.status, .cancelled, actor, now⟩]
          outbox := s.outbox ++ [.bookingCancelled b.id b.status actor] }) :=
  transition_cases

theorem expire_cases (s : BookingStore) (now : Instant) :
    s.expire now = (false, s) ∨
      ∃ b, s.booking = some b ∧ b.status = .pending ∧
        s.expire now = (true, {
          booking := some { b with status := .expired }
          history := s.history ++ [⟨.expired, b.status, .expired, .system, now⟩]
          outbox := s.outbox ++ [.bookingExpired b.id] }) := by
  rcases transition_cases with h | ⟨b, hb, hmem, h⟩
  · exact Or.inl h
  · exact Or.inr ⟨b, hb, List.mem_singleton.1 hmem, h⟩

theorem targetStatus_cases {status : BookingStatus} (h : status ∈ eligibleStatuses remedyBypass) :
    (status ∈ slotHoldingStatuses ∧ targetStatus remedyBypass status = status) ∨
      (remedyBypass = true ∧ status = .cancelled ∧ targetStatus remedyBypass status = .confirmed) := by
  cases remedyBypass with
  | false => exact Or.inl ⟨h, rfl⟩
  | true => cases status <;> simp_all [eligibleStatuses, slotHoldingStatuses, targetStatus]

/-- A reschedule keeps the status, or, for a remedy, revives a cancelled booking; it is not
a cancellation. -/
theorem reschedule_eq_some {s' : BookingStore} {slot : Option ClaimedSlot} {permitted : Bool}
    (h : s.reschedule slot actor remedyBypass permitted now = some s') :
    ∃ b b', s.booking = some b ∧ s'.booking = some b' ∧ b'.id = b.id ∧
      b'.cancelledByActorType = b.cancelledByActorType ∧
      ((b.status ∈ slotHoldingStatuses ∧ b'.status = b.status) ∨
        (remedyBypass = true ∧ b.status = .cancelled ∧ b'.status = .confirmed)) ∧
      ∃ row event, s'.history = s.history ++ [row] ∧ row.event = .rescheduled ∧
        s'.outbox = s.outbox ++ [event] ∧ ∀ i p a, event ≠ .bookingCancelled i p a := by
  unfold reschedule at h
  split at h
  · rename_i b slot hb
    split at h
    · cases h
    rename_i helig
    split at h
    · cases h
    split at h
    · cases h
    cases h
    have hcases := targetStatus_cases (not_not.1 helig)
    exact ⟨b, _, hb, rfl, rfl, rfl, hcases, _, _, rfl, rfl, rfl, by simp⟩
  · cases h

theorem cancellationFacts_eq_some {cutoffHours : Option ℤ} {facts : BookingCancellationFacts}
    (h : s.cancellationFacts cutoffHours = some facts) :
    ∃ b, s.booking = some b ∧ b.status = .cancelled ∧
      b.cancelledByActorType = some facts.cancelledByActorType := by
  unfold cancellationFacts at h
  split at h
  · rename_i b row hb hrow
    split at h
    · rename_i actorType hstat hactor
      cases h
      exact ⟨b, hb, hstat, hactor⟩
    · cases h
  · cases h

theorem cancellationFacts_ne_none {b : BookingEntity} (cutoffHours : Option ℤ)
    (hb : s.booking = some b) (hstat : b.status = .cancelled)
    (hactor : b.cancelledByActorType ≠ none) (hrow : ∃ h ∈ s.history, h.event = .cancelled) :
    s.cancellationFacts cutoffHours ≠ none := by
  obtain ⟨_, hactor⟩ := Option.ne_none_iff_exists'.1 hactor
  obtain ⟨row, hmem, hev⟩ := hrow
  cases hfind : s.history.find? fun h => h.event = .cancelled with
  | none =>
    have hnot := List.find?_eq_none.1 hfind row hmem
    simp [hev] at hnot
  | some first =>
    simp [cancellationFacts, hb, hfind, hstat, hactor]

end BookingStore

end BeauClick.Booking
