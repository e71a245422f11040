import BeauClick.Scheduling.Statements

/-!
# What holds of the booking store

Whatever calls are at work, and in whatever order their statements are taken.
-/

namespace BeauClick.Scheduling

open ReadCommitted ReadCommitted.Versioned Runs Booking

/-! ## The committed tables -/

/-- The status of the slot of a pending and of a confirmed booking. -/
def slotStatusFor : BookingStatus → SlotStatus
  | .pending => .held
  | _ => .booked

/-- The booking has the professional and the interval of the slot. -/
structure CopiedFrom (b : BookingEntity) (v : AvailabilitySlotEntity) : Prop where
  professional : b.professionalId = v.professionalId
  start : b.slotStart = v.startAt
  «end» : b.slotEnd = v.endAt

/-- The slot is kept for the booking. -/
structure KeptFor (id : Uuid) (b : BookingEntity) (v : AvailabilitySlotEntity) : Prop where
  held : v.heldByBookingId = some id
  status : v.status = slotStatusFor b.status

/-- The slot of a pending booking is held for a booking that there is not. -/
structure TakenFrom (bookings : Uuid → Option BookingEntity) (b : BookingEntity)
    (v : AvailabilitySlotEntity) : Prop where
  pending : b.status = .pending
  held : v.status = .held
  nobody : ∃ x, v.heldByBookingId = some x ∧ bookings x = none

/-- What holds of the committed tables, and the constraints. -/
structure Sound (db : BookingDb) : Prop where
  hold : ∀ k v, db.slots.committed k = some v → (v.heldByBookingId = none ↔ v.status = .open)
  /-- A slot that is kept for a booking is that of the booking. -/
  holder : ∀ k v id b, db.slots.committed k = some v → v.heldByBookingId = some id →
    db.bookings.committed id = some b → b.slotId = k
  active : ∀ id b, db.bookings.committed id = some b → b.status ∈ slotHoldingStatuses →
    ∃ v, db.slots.committed b.slotId = some v ∧
      (KeptFor id b v ∨ TakenFrom db.bookings.committed b v)
  copied : ∀ id b, db.bookings.committed id = some b →
    ∃ v, db.slots.committed b.slotId = some v ∧ CopiedFrom b v
  assigned : ∀ id a, db.assignments.committed id = some a →
    ∃ b, db.bookings.committed id = some b
  slotsApart : db.slots.Apart SlotConflict
  bookingsApart : db.bookings.Apart SameActiveSlot
  assignmentsApart : db.assignments.Apart AssignmentConflict

/-- How far a status is from the first one. -/
def stage : BookingStatus → ℕ
  | .pending => 0
  | .confirmed => 1
  | _ => 2

theorem stage_le (status : BookingStatus) : stage status ≤ 2 := by
  cases status <;> decide

/-- How far a booking has come: a move counts for more than any change of its status. -/
def BookingEntity.rank (b : BookingEntity) : ℕ := 3 * b.rescheduleCount + stage b.status

/-- A booking that has been read, and what has become of it. -/
def Later (b b' : BookingEntity) : Prop := b.rank < b'.rank

/-- What a step leaves to the calls that have read: a booking only goes on, and as long as it
stays the same its assignment does, and it is given no slot. -/
structure Evolves (db db' : BookingDb) : Prop where
  bookings : ∀ id b, db.bookings.committed id = some b →
    ∃ b', db'.bookings.committed id = some b' ∧ (b' = b ∨ Later b b')
  assignments : ∀ id b, db.bookings.committed id = some b → db'.bookings.committed id = some b →
    db'.assignments.committed id = db.assignments.committed id
  holders : ∀ id b, db.bookings.committed id = some b → db'.bookings.committed id = some b →
    ∀ k v', db'.slots.committed k = some v' → v'.heldByBookingId = some id →
      ∃ v, db.slots.committed k = some v ∧ v.heldByBookingId = some id

/-- What the step of another call leaves to a call. -/
structure LeavesTo (pid : ℕ) (db db' : BookingDb) : Prop where
  slots : db.slots.Others pid db'.slots
  bookings : db.bookings.Others pid db'.bookings
  assignments : db.assignments.Others pid db'.assignments
  keys : db.idempotencyKeys.Others pid db'.idempotencyKeys

/-- A step of a call gives a slot to a booking that there is, or to an id that is new; and a
booking comes to be there under an id that the call holds a slot for. -/
structure Gives (pid : ℕ) (db db' : BookingDb) : Prop where
  slots : ∀ k v id, (db'.slots.row k).Version v → v.heldByBookingId = some id →
    (∃ w, (db.slots.row k).Version w ∧ w.heldByBookingId = some id) ∨
      (∃ b, db.bookings.committed id = some b) ∨
      ∀ k' w, (db.slots.row k').Version w → w.heldByBookingId ≠ some id
  bookings : ∀ id b, db.bookings.committed id = none → db'.bookings.committed id = some b →
    ∃ k v, db.slots.Wrote pid k v ∧ v.heldByBookingId = some id

/-! ## A commit -/

/-- What a call has written of a slot when it commits: the slot is open, and was no other
booking's; or it is the booking's; or it was claimed for a booking that was not made. -/
inductive SlotReady (db : BookingDb) (pid : ℕ) (id k : Uuid) (v : AvailabilitySlotEntity) : Prop
  | opened (hopen : v.status = .open) (hnone : v.heldByBookingId = none)
      (hwas : ∀ c x, db.slots.committed k = some c → c.heldByBookingId = some x →
        x = id ∧ (db.bookings.row id).WrittenBy pid ∧ db.bookings.committed id ≠ none)
      (hother : ∀ b, db.bookings.Wrote pid id b → b.status ∈ slotHoldingStatuses → b.slotId ≠ k)
  | own (hheld : v.heldByBookingId = some id) (b : BookingEntity)
      (hb : db.bookings.Wrote pid id b) (hslot : b.slotId = k)
      (hactive : b.status ∈ slotHoldingStatuses) (hstatus : v.status = slotStatusFor b.status)
  | left (hheld : v.heldByBookingId = some id) (hstatus : v.status = .held)
      (habsent : db.bookings.committed id = none) (hnot : ¬(db.bookings.row id).WrittenBy pid)
      (hfree : ∀ c, db.slots.committed k = some c → c.status ≠ .booked)

/-- What a call has written when it commits, all of it for one booking. -/
structure Ready (db : BookingDb) (pid : ℕ) (id : Uuid) : Prop where
  only : db.bookings.OnlyAt pid id
  slot : ∀ k v, db.slots.Wrote pid k v → SlotReady db pid id k v
  same : ∀ k v c, db.slots.Wrote pid k v → db.slots.committed k = some c →
    v.professionalId = c.professionalId ∧ v.startAt = c.startAt ∧ v.endAt = c.endAt
  active : ∀ b, db.bookings.Wrote pid id b → b.status ∈ slotHoldingStatuses →
    (db.slots.row b.slotId).WrittenBy pid
  held : ∀ b, db.bookings.Wrote pid id b → ∀ k v, db.slots.committed k = some v →
    v.heldByBookingId = some id →
      (k = b.slotId ∧ db.bookings.committed id ≠ none) ∨ (db.slots.row k).WrittenBy pid
  copied : ∀ b, db.bookings.Wrote pid id b →
    ∃ v, db.slots.get pid b.slotId = some v ∧ CopiedFrom b v
  assigned : ∀ x a, db.assignments.Wrote pid x a → x = id ∧ (db.bookings.row id).WrittenBy pid
  later : ∀ b b', db.bookings.committed id = some b → db.bookings.Wrote pid id b' → Later b b'

theorem Later.ne {b b' : BookingEntity} (h : Later b b') : b' ≠ b := by
  rintro rfl
  exact lt_irrefl _ h

theorem slotHoldingStatuses_pending {b : BookingStatus} (h : b = .pending) :
    b ∈ slotHoldingStatuses := by simp [slotHoldingStatuses, h]

theorem pending_of_not_booked {status : BookingStatus} (h : status ∈ slotHoldingStatuses)
    (hne : slotStatusFor status ≠ .booked) : status = .pending := by
  cases status <;> simp_all [slotHoldingStatuses, slotStatusFor]

section Commit

variable {db : BookingDb} {pid : ℕ} {id x : Uuid} {b : BookingEntity} {v : AvailabilitySlotEntity}

theorem commit_bookings (hready : Ready db pid id)
    (h : (db.commit pid).bookings.committed x = some b) :
    (x = id ∧ db.bookings.Wrote pid id b) ∨
      (¬(db.bookings.row x).WrittenBy pid ∧ db.bookings.committed x = some b) := by
  by_cases hw : (db.bookings.row x).WrittenBy pid
  · obtain rfl := hready.only x hw
    obtain ⟨b', hb'⟩ := hw
    have hcommit : (db.bookings.commit pid).committed x = some b' :=
      (Wrote.committed_commit hb')
    rw [show (db.commit pid).bookings = db.bookings.commit pid from rfl, hcommit] at h
    cases h
    exact Or.inl ⟨rfl, hb'⟩
  · exact Or.inr ⟨hw, (committed_commit_of_not hw).symm.trans h⟩

theorem commit_slots {k : Uuid} (h : (db.commit pid).slots.committed k = some v) :
    db.slots.Wrote pid k v ∨ (¬(db.slots.row k).WrittenBy pid ∧ db.slots.committed k = some v) := by
  by_cases hw : (db.slots.row k).WrittenBy pid
  · obtain ⟨v', hv'⟩ := hw
    have hcommit : (db.slots.commit pid).committed k = some v' := Wrote.committed_commit hv'
    rw [show (db.commit pid).slots = db.slots.commit pid from rfl, hcommit] at h
    cases h
    exact Or.inl hv'
  · exact Or.inr ⟨hw, (committed_commit_of_not hw).symm.trans h⟩

section

variable (hs : Sound db)
include hs

section

variable (hready : Ready db pid id)
include hready

theorem commit_hold (k : Uuid)
    (v : AvailabilitySlotEntity) (h : (db.commit pid).slots.committed k = some v) :
    v.heldByBookingId = none ↔ v.status = .open := by
  rcases commit_slots h with hw | ⟨-, hv⟩
  · cases hready.slot k v hw with
    | opened hopen hnone => simp [hopen, hnone]
    | own hheld b _ _ _ hstat =>
      have hne : slotStatusFor b.status ≠ .open := by
        cases b.status <;> simp [slotStatusFor]
      simp [hheld, hstat, hne]
    | left hheld hstat => simp [hheld, hstat]
  · exact hs.hold k v hv

theorem commit_holder (k : Uuid) (v : AvailabilitySlotEntity) (x : Uuid) (b : BookingEntity)
    (h : (db.commit pid).slots.committed k = some v) (hheld : v.heldByBookingId = some x)
    (hb : (db.commit pid).bookings.committed x = some b) : b.slotId = k := by
  rcases commit_slots h with hw | ⟨hnot, hv⟩
  · cases hready.slot k v hw with
    | opened _ hnone =>
      rw [hnone] at hheld
      cases hheld
    | own hid b' hb' hslot =>
      rw [hid] at hheld
      cases hheld
      rw [← hslot]
      rcases commit_bookings hready hb with ⟨-, hb⟩ | ⟨hnot, -⟩
      · rw [hb.unique hb']
      · exact absurd hb'.writtenBy hnot
    | left hid _ habs hnot =>
      rw [hid] at hheld
      cases hheld
      rcases commit_bookings hready hb with ⟨-, hb⟩ | ⟨-, hb⟩
      · exact absurd hb.writtenBy hnot
      rw [habs] at hb
      cases hb
  · rcases commit_bookings hready hb with ⟨rfl, hb⟩ | ⟨-, hb⟩
    · exact ((hready.held b hb k v hv hheld).resolve_right hnot).1.symm
    · exact hs.holder k v x b hv hheld hb

theorem commit_active_written
    (hb : db.bookings.committed x = some b) (hnot : ¬(db.bookings.row x).WrittenBy pid)
    (hactive : b.status ∈ slotHoldingStatuses) (hw : db.slots.Wrote pid b.slotId v) :
    TakenFrom (db.commit pid).bookings.committed b v := by
  obtain ⟨c, hc, hkept⟩ := hs.active x b hb hactive
  cases hready.slot b.slotId v hw with
  | opened _ _ hwas =>
    exfalso
    rcases hkept with hkept | ⟨-, -, y, hheld, hnone⟩
    · obtain ⟨rfl, hwrit, -⟩ := hwas c x hc hkept.held
      exact hnot hwrit
    · obtain ⟨rfl, -, hthere⟩ := hwas c y hc hheld
      exact hthere hnone
  | own _ b' hb' hslot hact =>
    -- the slot is given to a booking, and the unique index has kept it from this one
    have hx : id = x := hs.bookingsApart id x b' b (Or.inr ⟨pid, hb'⟩) (Or.inl hb)
      ⟨hact, hactive, hslot⟩
    exact absurd ⟨b', hx ▸ hb'⟩ hnot
  | left hheld hstat habs hunwr hfree =>
    refine ⟨?_, hstat, id, hheld, (committed_commit_of_not hunwr).trans habs⟩
    rcases hkept with hkept | htaken
    · exact pending_of_not_booked hactive (hkept.status ▸ hfree c hc)
    · exact htaken.pending

theorem commit_active (x : Uuid) (b : BookingEntity)
    (h : (db.commit pid).bookings.committed x = some b) (hact : b.status ∈ slotHoldingStatuses) :
    ∃ v, (db.commit pid).slots.committed b.slotId = some v ∧
      (KeptFor x b v ∨ TakenFrom (db.commit pid).bookings.committed b v) := by
  rcases commit_bookings hready h with ⟨rfl, hb⟩ | ⟨hnot, hb⟩
  · obtain ⟨v, hv⟩ := hready.active b hb hact
    refine ⟨v, Wrote.committed_commit hv, ?_⟩
    cases hready.slot b.slotId v hv with
    | opened _ _ _ hother => exact absurd rfl (hother b hb hact)
    | own hheld b' hb' _ _ hstat => exact Or.inl ⟨hheld, hb.unique hb' ▸ hstat⟩
    | left _ _ _ hnot => exact absurd hb.writtenBy hnot
  · by_cases hw : (db.slots.row b.slotId).WrittenBy pid
    · obtain ⟨v, hv⟩ := hw
      exact ⟨v, Wrote.committed_commit hv,
        Or.inr (commit_active_written hs hready hb hnot hact hv)⟩
    · obtain ⟨v, hv, hkept⟩ := hs.active x b hb hact
      refine ⟨v, (committed_commit_of_not hw).trans hv, hkept.imp_right ?_⟩
      rintro ⟨hpend, hheld, y, hy, hnone⟩
      refine ⟨hpend, hheld, y, hy, ?_⟩
      -- no booking is made under the id that the slot is held for
      by_contra hsome
      obtain ⟨b', hb'⟩ := Option.ne_none_iff_exists'.1 hsome
      rcases commit_bookings hready hb' with ⟨rfl, hb'⟩ | ⟨-, hb'⟩
      · rcases hready.held b' hb' b.slotId v hv hy with ⟨-, hthere⟩ | hwrit
        · exact hthere hnone
        · exact hw hwrit
      · rw [hnone] at hb'
        cases hb'

theorem commit_copied (x : Uuid) (b : BookingEntity)
    (h : (db.commit pid).bookings.committed x = some b) :
    ∃ v, (db.commit pid).slots.committed b.slotId = some v ∧ CopiedFrom b v := by
  rcases commit_bookings hready h with ⟨rfl, hb⟩ | ⟨-, hb⟩
  · obtain ⟨v, hv, hcopied⟩ := hready.copied b hb
    exact ⟨v, committed_commit.trans hv, hcopied⟩
  · obtain ⟨v, hv, hcopied⟩ := hs.copied x b hb
    by_cases hw : (db.slots.row b.slotId).WrittenBy pid
    · obtain ⟨v', hv'⟩ := hw
      obtain ⟨hprof, hstart, hend⟩ := hready.same b.slotId v' v hv' hv
      refine ⟨v', Wrote.committed_commit hv', ?_⟩
      exact ⟨hcopied.professional.trans hprof.symm, hcopied.start.trans hstart.symm,
        hcopied.end.trans hend.symm⟩
    · exact ⟨v, (committed_commit_of_not hw).trans hv, hcopied⟩

theorem commit_assigned (x : Uuid) (a : BookingResourceAssignmentEntity)
    (h : (db.commit pid).assignments.committed x = some a) :
    ∃ b, (db.commit pid).bookings.committed x = some b := by
  have hbook : (db.bookings.row x).WrittenBy pid ∨ ∃ b, db.bookings.committed x = some b := by
    by_cases hw : (db.assignments.row x).WrittenBy pid
    · obtain ⟨a', ha'⟩ := hw
      obtain ⟨rfl, hb⟩ := hready.assigned x a' ha'
      exact Or.inl hb
    · exact Or.inr (hs.assigned x a ((committed_commit_of_not hw).symm.trans h))
  rcases hbook with ⟨b, hb⟩ | ⟨b, hb⟩
  · exact ⟨b, Wrote.committed_commit hb⟩
  · by_cases hw : (db.bookings.row x).WrittenBy pid
    · obtain ⟨b', hb'⟩ := hw
      exact ⟨b', Wrote.committed_commit hb'⟩
    · exact ⟨b, (committed_commit_of_not hw).trans hb⟩

theorem sound_commit : Sound (db.commit pid) where
  hold := commit_hold hs hready
  holder := commit_holder hs hready
  active := commit_active hs hready
  copied := commit_copied hs hready
  assigned := commit_assigned hs hready
  slotsApart := hs.slotsApart.commit
  bookingsApart := hs.bookingsApart.commit
  assignmentsApart := hs.assignmentsApart.commit

end

end

theorem evolves_commit (hready : Ready db pid id) : Evolves db (db.commit pid) where
  bookings := by
    intro x b hb
    by_cases hw : (db.bookings.row x).WrittenBy pid
    · obtain rfl := hready.only x hw
      obtain ⟨b', hb'⟩ := hw
      exact ⟨b', Wrote.committed_commit hb', Or.inr (hready.later b b' hb hb')⟩
    · exact ⟨b, (committed_commit_of_not hw).trans hb, Or.inl rfl⟩
  assignments := by
    intro x b hb hb'
    refine committed_commit_of_not ?_
    rintro ⟨a, ha⟩
    obtain ⟨rfl, b', hw⟩ := hready.assigned x a ha
    have hcommit : (db.bookings.commit pid).committed x = some b' := Wrote.committed_commit hw
    rw [show (db.commit pid).bookings = db.bookings.commit pid from rfl, hcommit] at hb'
    cases hb'
    exact (hready.later b b hb hw).ne rfl
  holders := by
    intro x b hb hb' k v hv hheld
    rcases commit_slots hv with hw | ⟨-, hv⟩
    · cases hready.slot k v hw with
      | opened _ hnone =>
        rw [hnone] at hheld
        cases hheld
      | own hid b₁ hb₁ =>
        rw [hid] at hheld
        cases hheld
        have hcommit : (db.bookings.commit pid).committed id = some b₁ :=
          hb₁.committed_commit
        rw [show (db.commit pid).bookings = db.bookings.commit pid from rfl, hcommit] at hb'
        cases hb'
        exact absurd rfl (hready.later b b hb hb₁).ne
      | left hid _ habs =>
        rw [hid] at hheld
        cases hheld
        rw [habs] at hb
        cases hb
    · exact ⟨v, hv, hheld⟩

end Commit

end BeauClick.Scheduling
