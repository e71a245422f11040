import BeauClick.Scheduling.Work

/-!
# The invariant of the booking store

* `invariant_run` — the store is sound, and every call has done the work of its place.
* `bookingsAdvance_run` — bookings only go on.
-/

namespace BeauClick.Scheduling

open ReadCommitted ReadCommitted.Versioned Runs Booking Transition BookingEntity List Function

/-! ## At a commit -/

section Ready

variable {db : BookingDb} {pid : ℕ} {claim : Claim} {m : Move} {moved : Moved} {b : BookingEntity}
  {input : CreateBookingInput} {v : AvailabilitySlotEntity} {place next : Place} {record : Record}

theorem Claimed.same (h : Claimed db pid claim) (k : Uuid) (v c : AvailabilitySlotEntity)
    (hv : db.slots.Wrote pid k v) (hc : db.slots.committed k = some c) :
    v.professionalId = c.professionalId ∧ v.startAt = c.startAt ∧ v.endAt = c.endAt := by
  obtain ⟨_, hrow, hslot⟩ := h.slot
  obtain rfl := h.only k hv.writtenBy
  obtain rfl := hv.unique (wrote_of_row hrow)
  rw [committed_of_row hrow] at hc
  cases hc
  rw [hslot]
  exact ⟨rfl, rfl, rfl⟩

theorem ready_of_create (h : CreateWork db pid input claim)
    (ha : AssignWork db pid claim) : Ready db pid claim.bookingId where
  only := h.only
  slot := by
    intro k v hv
    obtain ⟨c, hrow, hslot⟩ := h.claimed.slot
    obtain rfl := h.claimed.only k hv.writtenBy
    obtain rfl := hv.unique (wrote_of_row hrow)
    refine .own (by rw [hslot]; rfl) (newBooking input claim) (wrote_of_row h.booking) rfl
      (slotHoldingStatuses_pending rfl) ?_
    rw [hslot]
    rfl
  same := h.claimed.same
  active := by
    intro b hb _
    obtain ⟨c, hrow, -⟩ := h.claimed.slot
    rw [hb.unique (wrote_of_row h.booking)]
    exact (wrote_of_row hrow).writtenBy
  held := by
    intro b hb k v hv hheld
    obtain rfl := h.own.slots k v (Or.inl hv) hheld
    exact Or.inr h.claimed.wrote.1.writtenBy
  copied := by
    intro b hb
    obtain ⟨_, hrow, -⟩ := h.claimed.slot
    rw [hb.unique (wrote_of_row h.booking)]
    exact ⟨claim.slot, (wrote_of_row hrow).get_eq, h.professional.symm, rfl, rfl⟩
  assigned := by
    intro x a hx
    exact ⟨ha.only x hx.writtenBy, (wrote_of_row h.booking).writtenBy⟩
  later := by
    intro b b' hb
    rw [committed_of_row h.booking] at hb
    cases hb

theorem ready_of_claim (h : ClaimWork db pid input claim)
    (ha : db.assignments.Untouched pid) : Ready db pid claim.bookingId where
  only := h.bookings.onlyAt
  slot := by
    intro k v hv
    obtain ⟨_, hrow, hslot⟩ := h.claimed.slot
    obtain rfl := h.claimed.only k hv.writtenBy
    obtain rfl := hv.unique (wrote_of_row hrow)
    refine .left h.claimed.wrote.2 ?_ h.own.absent (h.bookings _) h.claimed.free
    rw [hslot]
    rfl
  same := h.claimed.same
  active := fun b hb => absurd hb.writtenBy (h.bookings _)
  held := fun b hb => absurd hb.writtenBy (h.bookings _)
  copied := fun b hb => absurd hb.writtenBy (h.bookings _)
  assigned := fun x a hx => absurd hx.writtenBy (ha x)
  later := fun b b' _ hb => absurd hb.writtenBy (h.bookings _)

theorem assignWork_of_untouched (ha : db.assignments.Untouched pid) : AssignWork db pid claim :=
  ⟨ha.onlyAt, fun _ h => absurd h.writtenBy (ha claim.bookingId)⟩

theorem ready_of_left (h : LeftWork db pid input claim) : Ready db pid claim.bookingId := by
  obtain ⟨hclaim | hcreate, ha, -⟩ := h
  · exact ready_of_claim hclaim ha
  · exact ready_of_create hcreate (assignWork_of_untouched ha)

variable (t : Transition)

section

variable (now : Instant)
include now

theorem set_slotId : (t.set now b).slotId = b.slotId := by
  cases t <;> rfl

theorem set_status : (t.set now b).status = t.toStatus := by
  cases t <;> rfl

theorem set_copied (h : CopiedFrom b v) :
    CopiedFrom (t.set now b) v := by
  cases t <;> exact ⟨h.professional, h.start, h.end⟩

theorem set_later (h : b.status ∈ t.allowedFrom) :
    Later b (t.set now b) := by
  cases t with
  | confirm =>
    have hb : b.status = .pending := by simpa [Transition.allowedFrom] using h
    simp [Later, rank, Transition.set, stage, hb]
  | cancel =>
    have hb : b.status = .pending ∨ b.status = .confirmed := by
      simpa [Transition.allowedFrom] using h
    rcases hb with hb | hb <;> simp [Later, rank, Transition.set, stage, hb]
  | expire =>
    have hb : b.status = .pending := by simpa [Transition.allowedFrom] using h
    simp [Later, rank, Transition.set, stage, hb]

end

theorem allowedFrom_active {t : Transition} {status : BookingStatus}
    (h : status ∈ t.allowedFrom) : status ∈ slotHoldingStatuses := by
  cases t <;> simp_all [allowedFrom, slotHoldingStatuses]

section

variable (h : SetWork db pid moved b)
include h

theorem SetWork.held (hs : Sound db) {b' : BookingEntity}
    (hb' : db.bookings.Wrote pid moved.transition.bookingId b') {k : Uuid}
    (hv : db.slots.committed k = some v)
    (hheld : v.heldByBookingId = some moved.transition.bookingId) :
    k = b'.slotId ∧ db.bookings.committed moved.transition.bookingId ≠ none := by
  obtain ⟨_, hrow⟩ := h.booking
  rw [hb'.unique (wrote_of_row hrow), set_slotId, h.committed]
  exact ⟨(hs.holder k v _ b hv hheld h.committed).symm, by simp⟩

theorem ready_of_confirm (hs : Sound db)
    (hnone : moved.transition.toStatus = .confirmed) (hrow : db.slots.row b.slotId =
      ⟨some v, some (pid, v.bookedBy moved.transition.bookingId)⟩)
    (honly : db.slots.OnlyAt pid b.slotId) (ha : db.assignments.Untouched pid) :
    Ready db pid moved.transition.bookingId := by
  obtain ⟨_, hbrow⟩ := h.booking
  refine ⟨h.only, ?_, ?_, ?_, ?_, ?_, ?_, ?_⟩
  · intro k v' hv'
    obtain rfl := honly k hv'.writtenBy
    obtain rfl := hv'.unique (wrote_of_row hrow)
    refine .own rfl _ (wrote_of_row hbrow) (set_slotId _ _) ?_ ?_
    · rw [set_status, hnone]
      decide
    · rw [set_status, hnone]
      rfl
  · intro k v' c hv' hc
    obtain rfl := honly k hv'.writtenBy
    obtain rfl := hv'.unique (wrote_of_row hrow)
    rw [committed_of_row hrow] at hc
    cases hc
    exact ⟨rfl, rfl, rfl⟩
  · intro b' hb' _
    rw [hb'.unique (wrote_of_row hbrow), set_slotId]
    exact (wrote_of_row hrow).writtenBy
  · intro b' hb' k v' hv' hheld
    exact Or.inl (h.held hs hb' hv' hheld)
  · intro b' hb'
    obtain ⟨c, hc, hcopied⟩ := hs.copied _ b h.committed
    rw [committed_of_row hrow] at hc
    cases hc
    rw [hb'.unique (wrote_of_row hbrow), set_slotId]
    exact ⟨_, (wrote_of_row hrow).get_eq, set_copied _ _
      ⟨hcopied.professional, hcopied.start, hcopied.end⟩⟩
  · intro x a hx
    exact absurd hx.writtenBy (ha x)
  · intro c b' hc hb'
    rw [h.committed] at hc
    cases hc
    rw [hb'.unique (wrote_of_row hbrow)]
    exact set_later _ _ h.allowed

theorem ready_of_release (hs : Sound db)
    (hinact : moved.transition.toStatus ∉ slotHoldingStatuses) {slotId : Uuid}
    (hr : ReleaseWork db pid moved slotId)
    (ha : db.assignments.OnlyAt pid moved.transition.bookingId) :
    Ready db pid moved.transition.bookingId := by
  obtain ⟨_, hbrow⟩ := h.booking
  have hstat : ∀ b', db.bookings.Wrote pid moved.transition.bookingId b' →
      b'.status ∉ slotHoldingStatuses := by
    intro b' hb'
    rw [hb'.unique (wrote_of_row hbrow), set_status]
    exact hinact
  refine ⟨h.only, ?_, ?_, ?_, ?_, ?_, ?_, ?_⟩
  · intro k v hv
    obtain rfl := hr.only k hv.writtenBy
    obtain ⟨c, hc, rfl, hheld⟩ := hr.released.written v hv
    refine .opened rfl rfl ?_ fun b' hb' hact => absurd hact (hstat b' hb')
    intro c' x hc' hx
    rw [hc] at hc'
    cases hc'
    rcases hheld with hheld | hheld
    · rw [hheld] at hx
      cases hx
      exact ⟨rfl, (wrote_of_row hbrow).writtenBy, by simp [h.committed]⟩
    · rw [hheld] at hx
      cases hx
  · intro k v c hv hc
    obtain rfl := hr.only k hv.writtenBy
    obtain ⟨c', hc', rfl, -⟩ := hr.released.written v hv
    rw [hc] at hc'
    cases hc'
    exact ⟨rfl, rfl, rfl⟩
  · intro b' hb' hact
    exact absurd hact (hstat b' hb')
  · intro b' hb' k v hv hheld
    exact Or.inl (h.held hs hb' hv hheld)
  · intro b' hb'
    obtain ⟨c, hc, hcopied⟩ := hs.copied _ b h.committed
    rw [hb'.unique (wrote_of_row hbrow), set_slotId]
    by_cases hw : (db.slots.row b.slotId).WrittenBy pid
    · obtain ⟨v, hv⟩ := hw
      have hk : b.slotId = slotId := hr.only b.slotId ⟨v, hv⟩
      obtain ⟨_, hc', rfl, -⟩ := hr.released.written v (hk ▸ hv)
      rw [← hk, hc] at hc'
      cases hc'
      exact ⟨_, Wrote.get_eq hv, set_copied _ _
        ⟨hcopied.professional, hcopied.start, hcopied.end⟩⟩
    · exact ⟨c, (get_of_not hw).trans hc, set_copied _ _ hcopied⟩
  · intro x a hx
    exact ⟨ha x hx.writtenBy, (wrote_of_row hbrow).writtenBy⟩
  · intro c b' hc hb'
    rw [h.committed] at hc
    cases hc
    rw [hb'.unique (wrote_of_row hbrow)]
    exact set_later _ _ h.allowed

end

theorem targetStatus_active (h : m.booking.status ∈ Move.eligibleStatuses m.input) :
    m.targetStatus ∈ slotHoldingStatuses := by
  unfold Move.targetStatus
  split
  · decide
  · rename_i hnot
    unfold Move.eligibleStatuses at h
    split at h
    · rename_i hremedy
      rw [mem_append, mem_singleton] at h
      exact h.resolve_right fun hc => hnot ⟨hremedy, hc⟩
    · exact h

theorem move_later (m : Move) (claim : Claim) : Later m.booking (m.set claim m.booking) := by
  have hcnt : (m.set claim m.booking).rescheduleCount = m.booking.rescheduleCount + 1 := rfl
  have hstage := stage_le m.booking.status
  unfold Later rank
  omega

theorem ready_of_move (hs : Sound db) (h : MoveWork db pid m claim) (hnew : NewSlot db pid m claim)
    (honly : ∀ k, (db.slots.row k).WrittenBy pid → k = claim.slotId ∨ k = m.booking.slotId)
    (hr : Released db pid m.input.bookingId m.booking.slotId) :
    Ready db pid m.input.bookingId := by
  obtain ⟨_, v, hrow, hprof, hstart, hend, hprof', hstart', hend', hheld, hstat⟩ := hnew
  have hne : claim.slotId ≠ m.booking.slotId := h.slotId ▸ h.other
  refine ⟨h.only, ?_, ?_, ?_, ?_, ?_, ?_, ?_⟩
  · intro k v' hv'
    rcases honly k hv'.writtenBy with rfl | rfl
    · obtain rfl := hv'.unique (wrote_of_row hrow)
      exact .own hheld _ (wrote_of_row h.booking) rfl (targetStatus_active h.eligible) hstat
    · obtain ⟨c', hc', rfl, hwas⟩ := hr.written v' hv'
      refine .opened rfl rfl ?_ ?_
      · intro c'' x hc'' hx
        rw [hc'] at hc''
        cases hc''
        rcases hwas with hwas | hwas
        · rw [hwas] at hx
          cases hx
          exact ⟨rfl, (wrote_of_row h.booking).writtenBy, by simp [committed_of_row h.booking]⟩
        · rw [hwas] at hx
          cases hx
      · intro b' hb' _
        rw [hb'.unique (wrote_of_row h.booking)]
        exact hne
  · intro k v' c' hv' hc'
    rcases honly k hv'.writtenBy with rfl | rfl
    · obtain rfl := hv'.unique (wrote_of_row hrow)
      rw [committed_of_row hrow] at hc'
      cases hc'
      exact ⟨hprof, hstart, hend⟩
    · obtain ⟨_, hc'', rfl, -⟩ := hr.written v' hv'
      rw [hc'] at hc''
      cases hc''
      exact ⟨rfl, rfl, rfl⟩
  · intro b' hb' _
    rw [hb'.unique (wrote_of_row h.booking)]
    exact (wrote_of_row hrow).writtenBy
  · intro b' hb' k v' hv' hheld'
    refine Or.inr ?_
    obtain rfl := hs.holder k v' _ _ hv' hheld' (committed_of_row h.booking)
    by_contra hnot
    exact hr.left hnot v' hv' hheld'
  · intro b' hb'
    rw [hb'.unique (wrote_of_row h.booking)]
    exact ⟨v, (wrote_of_row hrow).get_eq,
      h.professional.symm.trans (hprof'.trans hprof.symm), hstart'.trans hstart.symm,
      hend'.trans hend.symm⟩
  · intro x a hx
    exact ⟨h.bookingId ▸ h.assigned.only x hx.writtenBy, (wrote_of_row h.booking).writtenBy⟩
  · intro c' b' hc' hb'
    rw [committed_of_row h.booking] at hc'
    cases hc'
    rw [hb'.unique (wrote_of_row h.booking)]
    exact move_later m claim

theorem ready_of_slots (h : SlotsWork db pid) (id : Uuid) : Ready db pid id where
  only := h.bookings.onlyAt
  slot := by
    intro k v hv
    obtain ⟨hnone, hopen, hheld⟩ := h.inserted k v hv
    refine .opened hopen hheld ?_ fun b hb => absurd hb.writtenBy (h.bookings id)
    intro c x hc
    rw [hnone] at hc
    cases hc
  same := by
    intro k v c hv hc
    rw [(h.inserted k v hv).1] at hc
    cases hc
  active := fun b hb => absurd hb.writtenBy (h.bookings id)
  held := fun b hb => absurd hb.writtenBy (h.bookings id)
  copied := fun b hb => absurd hb.writtenBy (h.bookings id)
  assigned := fun x a hx => absurd hx.writtenBy (h.assignments x)
  later := fun b b' _ hb => absurd hb.writtenBy (h.bookings id)

theorem NoWork.slotsWork (h : NoWork db pid) : SlotsWork db pid :=
  ⟨fun k _ hv => absurd hv.writtenBy (h.slots k), h.bookings, h.assignments, h.keys⟩

theorem ready_of_transition (hs : Sound db) (hset : SetWork db pid moved b)
    (hwork : TransitionWork db pid moved b) : Ready db pid moved.transition.bookingId := by
  unfold TransitionWork at hwork
  split at hwork
  · rename_i id actor hm
    obtain ⟨_, hrow, honly, ha⟩ := hwork
    have hid : moved.transition.bookingId = id := by rw [hm]; rfl
    exact ready_of_confirm hset hs (by rw [hm]; rfl) (hid ▸ hrow) honly ha
  · rename_i id actor reason before hm
    obtain ⟨⟨slotId, hr⟩, ha⟩ := hwork
    refine ready_of_release hset hs ?_ hr ?_
    · simp [hm, toStatus, slotHoldingStatuses]
    · rw [hm]
      exact ha.only
  · rename_i id row rest expired hm
    obtain ⟨⟨_, hr⟩, ha⟩ := hwork
    refine ready_of_release hset hs ?_ hr ha.onlyAt
    simp [hm, toStatus, slotHoldingStatuses]

theorem ready_of_commits (hs : Sound db) (hwork : Work db pid place)
    (hc : Commits place record next) : ∃ id, Ready db pid id := by
  cases hc with
  | create input claim => exact ⟨claim.bookingId, ready_of_create hwork.1 hwork.2.1⟩
  | transition m =>
    obtain ⟨_, hset, hwork⟩ := hwork
    exact ⟨m.transition.bookingId, ready_of_transition hs hset hwork⟩
  | move m =>
    exact ⟨m.input.bookingId, ready_of_move hs hwork.1 hwork.2.1 hwork.2.2.1 hwork.2.2.2⟩
  | leaves input bookingId claim => exact ⟨claim.bookingId, ready_of_left hwork⟩
  | replays => exact ⟨0, ready_of_slots (NoWork.slotsWork hwork) 0⟩
  | slots => exact ⟨0, ready_of_slots hwork 0⟩
  | absent | unmoved | lost => exact ⟨0, ready_of_slots (NoWork.slotsWork hwork) 0⟩

theorem gives_of_commits (hwork : Work db pid place) (hc : Commits place record next) :
    Gives pid db (db.commit pid) where
  slots := fun k v id hv hheld => Or.inl ⟨v, Row.version_of_commit hv, hheld⟩
  bookings := by
    intro id b hnone hb
    have hwrote : db.bookings.Wrote pid id b := by
      by_cases hw : (db.bookings.row id).WrittenBy pid
      · obtain ⟨b', hb'⟩ := hw
        have hcommit : (db.bookings.commit pid).committed id = some b' :=
          (Wrote.committed_commit hb')
        cases hcommit.symm.trans hb
        exact hb'
      · have hcommit : (db.bookings.commit pid).committed id = none :=
          (committed_commit_of_not hw).trans hnone
        cases hcommit.symm.trans hb
    have hcre : ∀ {input : CreateBookingInput} {claim : Claim},
        CreateWork db pid input claim →
          ∃ k v, db.slots.Wrote pid k v ∧ v.heldByBookingId = some id := by
      intro input claim hcreate
      obtain rfl := hcreate.only id hwrote.writtenBy
      exact ⟨_, _, hcreate.claimed.wrote⟩
    cases hc with
    | create => exact hcre hwork.1
    | leaves =>
      rcases hwork.1 with hclaim | hcreate
      · exact absurd hwrote.writtenBy (hclaim.bookings id)
      · exact hcre hcreate
    | transition =>
      obtain ⟨_, hset, -⟩ := hwork
      obtain rfl := hset.only id hwrote.writtenBy
      rw [hset.committed] at hnone
      cases hnone
    | move =>
      obtain rfl := hwork.1.only id hwrote.writtenBy
      rw [committed_of_row hwork.1.booking] at hnone
      cases hnone
    | replays | slots | absent | unmoved | lost => exact absurd hwrote.writtenBy (hwork.bookings id)

end Ready

/-! ## At any other statement -/

/-- The committed tables are as they were. -/
structure SameCommitted (db db' : BookingDb) : Prop where
  slots : db'.slots.committed = db.slots.committed
  bookings : db'.bookings.committed = db.bookings.committed
  assignments : db'.assignments.committed = db.assignments.committed
  keys : db'.idempotencyKeys.committed = db.idempotencyKeys.committed

/-- What a statement that does not commit can do to the committed tables: a slot is deleted. -/
structure Quiet (db db' : BookingDb) : Prop where
  slots : ∀ k v, db'.slots.committed k = some v → db.slots.committed k = some v
  bookings : db'.bookings.committed = db.bookings.committed
  assignments : db'.assignments.committed = db.assignments.committed
  keys : db'.idempotencyKeys.committed = db.idempotencyKeys.committed

/-- The store stays sound, the call has done its work, and the other calls are left theirs. -/
structure Kept (db db' : BookingDb) (pid : ℕ) (place : Place) : Prop where
  sound : Sound db'
  work : Work db' pid place
  leaves : ∀ q, q ≠ pid → LeavesTo q db db'
  quiet : Quiet db db'
  gives : Gives pid db db'

section Kept

variable {config : BookingConfig} {env : Env} {db db' : BookingDb} {pid : ℕ} {place at' : Place}
  {k id slotId professionalId : Uuid} {v slot c : AvailabilitySlotEntity} {b : BookingEntity}
  {a : BookingResourceAssignmentEntity} {input : CreateBookingInput} {claim : Claim}
  {purpose : Purpose} {m : Move} {key : Uuid × String} {until' : Instant} {failure : Failure}

theorem SameCommitted.refl : SameCommitted db db := ⟨rfl, rfl, rfl, rfl⟩

theorem sameCommitted_writeSlot : SameCommitted db (db.writeSlot pid k v) :=
  ⟨committed_write, rfl, rfl, rfl⟩

theorem sameCommitted_writeBooking : SameCommitted db (db.writeBooking pid k b) :=
  ⟨rfl, committed_write, rfl, rfl⟩

theorem sameCommitted_writeAssignment : SameCommitted db (db.writeAssignment pid k a) :=
  ⟨rfl, rfl, committed_write, rfl⟩

theorem sameCommitted_writeKey : SameCommitted db (db.writeKey pid key id) :=
  ⟨rfl, rfl, rfl, committed_write⟩

theorem SameCommitted.quiet (h : SameCommitted db db') : Quiet db db' :=
  ⟨fun k v hv => by rwa [h.slots] at hv, h.bookings, h.assignments, h.keys⟩

theorem Quiet.evolves (h : Quiet db db') : Evolves db db' where
  bookings := by
    intro id b hb
    exact ⟨b, by rw [h.bookings, hb], Or.inl rfl⟩
  assignments := by
    intro id b _ _
    rw [h.assignments]
  holders := by
    intro id b _ _ k v hv hheld
    exact ⟨v, h.slots k v hv, hheld⟩

theorem SameCommitted.sound (h : SameCommitted db db') (hs : Sound db)
    (hslots : db'.slots.Apart SlotConflict) (hbooks : db'.bookings.Apart SameActiveSlot)
    (hassignments : db'.assignments.Apart AssignmentConflict) : Sound db' where
  hold := by
    rw [h.slots]
    exact hs.hold
  holder := by
    rw [h.slots, h.bookings]
    exact hs.holder
  active := by
    rw [h.slots, h.bookings]
    exact hs.active
  copied := by
    rw [h.slots, h.bookings]
    exact hs.copied
  assigned := by
    rw [h.assignments, h.bookings]
    exact hs.assigned
  slotsApart := hslots
  bookingsApart := hbooks
  assignmentsApart := hassignments

theorem LeavesTo.refl : LeavesTo pid db db := ⟨.refl, .refl, .refl, .refl⟩

theorem gives_of_slots (hslots : ∀ k v, (db'.slots.row k).Version v → (db.slots.row k).Version v)
    (hbooks : db'.bookings.committed = db.bookings.committed) : Gives pid db db' where
  slots := fun k v id hv hheld => Or.inl ⟨v, hslots k v hv, hheld⟩
  bookings := by
    intro id b hnone hb
    rw [hbooks, hnone] at hb
    cases hb

/-- Whom a slot may be given to: whoever had it, a booking that there is, or a new id. -/
def GivenTo (db : BookingDb) (k id : Uuid) : Prop :=
  (∃ w, (db.slots.row k).Version w ∧ w.heldByBookingId = some id) ∨
    (∃ b, db.bookings.committed id = some b) ∨
    ∀ k' w, (db.slots.row k').Version w → w.heldByBookingId ≠ some id

theorem gives_writeSlot (hgiven : ∀ id, v.heldByBookingId = some id → GivenTo db k id) :
    Gives pid db (db.writeSlot pid k v) where
  slots := by
    intro k' w id hw hheld
    rcases version_write hw with hw | ⟨rfl, rfl⟩
    · exact Or.inl ⟨w, hw, hheld⟩
    · exact hgiven id hheld
  bookings := by
    intro id b hnone hb
    rw [sameCommitted_writeSlot.bookings, hnone] at hb
    cases hb

theorem givenTo_of_unused (h : db.Unused id) : GivenTo db k id := by
  refine Or.inr (Or.inr ?_)
  intro k' w hw hheld
  exact h.2 k' (mem_keys hw) ⟨w, hw, hheld⟩

theorem givenTo_of_none (h : v.heldByBookingId = none) (id : Uuid)
    (hheld : v.heldByBookingId = some id) : GivenTo db k id := by
  rw [h] at hheld
  cases hheld

theorem givenTo_of_booking (hown : v.heldByBookingId = some id)
    (hb : db.bookings.committed id = some b) (x : Uuid) (hheld : v.heldByBookingId = some x) :
    GivenTo db k x := by
  cases hown.symm.trans hheld
  exact Or.inr (Or.inl ⟨b, hb⟩)

section

variable (hs : Sound db)
include hs

theorem kept_here (hw : Work db pid place) : Kept db db pid place :=
  ⟨hs, hw, fun _ _ => .refl, SameCommitted.refl.quiet, gives_of_slots (fun _ _ h => h) rfl⟩

theorem kept_writeSlot (hlock : ¬(db.slots.row k).Locked pid)
    (hapart : (db.slots.write pid k v).Apart SlotConflict)
    (hgiven : ∀ id, v.heldByBookingId = some id → GivenTo db k id)
    (hw : Work (db.writeSlot pid k v) pid place) : Kept db (db.writeSlot pid k v) pid place :=
  ⟨sameCommitted_writeSlot.sound hs hapart hs.bookingsApart hs.assignmentsApart, hw,
    fun _ hq => ⟨others_write hq hlock, .refl, .refl, .refl⟩,
    sameCommitted_writeSlot.quiet, gives_writeSlot hgiven⟩

theorem kept_writeBooking (hlock : ¬(db.bookings.row k).Locked pid)
    (hapart : (db.bookings.write pid k b).Apart SameActiveSlot)
    (hw : Work (db.writeBooking pid k b) pid place) :
    Kept db (db.writeBooking pid k b) pid place :=
  ⟨sameCommitted_writeBooking.sound hs hs.slotsApart hapart hs.assignmentsApart, hw,
    fun _ hq => ⟨.refl, others_write hq hlock, .refl, .refl⟩,
    sameCommitted_writeBooking.quiet,
    gives_of_slots (fun _ _ h => h) sameCommitted_writeBooking.bookings⟩

theorem kept_writeAssignment (hlock : ¬(db.assignments.row k).Locked pid)
    (hapart : (db.assignments.write pid k a).Apart AssignmentConflict)
    (hw : Work (db.writeAssignment pid k a) pid place) :
    Kept db (db.writeAssignment pid k a) pid place :=
  ⟨sameCommitted_writeAssignment.sound hs hs.slotsApart hs.bookingsApart hapart, hw,
    fun _ hq => ⟨.refl, .refl, others_write hq hlock, .refl⟩,
    sameCommitted_writeAssignment.quiet,
    gives_of_slots (fun _ _ h => h) sameCommitted_writeAssignment.bookings⟩

theorem kept_writeKey (hlock : ¬(db.idempotencyKeys.row key).Locked pid)
    (hw : Work (db.writeKey pid key id) pid place) : Kept db (db.writeKey pid key id) pid place :=
  ⟨sameCommitted_writeKey.sound hs hs.slotsApart hs.bookingsApart hs.assignmentsApart, hw,
    fun _ hq => ⟨.refl, .refl, .refl, others_write hq hlock⟩,
    sameCommitted_writeKey.quiet,
    gives_of_slots (fun _ _ h => h) sameCommitted_writeKey.bookings⟩

theorem slotsApart_write (hget : db.slots.get pid k = some c)
    (hprof : v.professionalId = c.professionalId) (hstart : v.startAt = c.startAt)
    (hend : v.endAt = c.endAt) : (db.slots.write pid k v).Apart SlotConflict := by
  refine hs.slotsApart.write_of_imp slotConflict_symm (version_of_get hget) ?_
  intro w hw
  unfold SlotConflict at hw ⊢
  rwa [← hprof, ← hstart, ← hend]

theorem assignmentsApart_release :
    (db.assignments.write pid k a.release).Apart AssignmentConflict := by
  refine hs.assignmentsApart.write assignmentConflict_symm ?_
  intro k' _ a' _ hconfl
  cases hconfl.1

end

/-! ### Creation -/

theorem claimed_write {bookingId : Uuid} {now : Instant} (hu : db.slots.Untouched pid)
    (hget : db.slots.get pid slotId = some c) (hfree : c.Claimable professionalId now) :
    Claimed (db.writeSlot pid slotId (c.heldFor bookingId until')) pid
      ⟨bookingId, slotId, c.heldFor bookingId until', until'⟩ where
  slot := by
    refine ⟨c, ?_, rfl⟩
    rw [← hget]
    exact row_write (hu slotId)
  free := by
    intro c' hc' hbooked
    rw [sameCommitted_writeSlot.slots, ← hu.get_eq, hget] at hc'
    cases hc'
    rcases hfree.2.2 with hopen | ⟨hheld, -⟩
    · cases hopen.symm.trans hbooked
    · cases hheld.symm.trans hbooked
  only := hu.onlyAt.write

section

variable (hget : db.slots.get pid input.slotId = some slot)
include hget

theorem claimWork_write (hw : NoWork db pid) (hfree : slot.Claimable input.professionalId env.now)
    (hunused : db.Unused env.newId) (until' : Instant) :
    ClaimWork (db.writeSlot pid input.slotId (slot.heldFor env.newId until')) pid input
      ⟨env.newId, input.slotId, slot.heldFor env.newId until', until'⟩ where
  claimed := claimed_write hw.slots hget hfree
  professional := hfree.1
  own := by
    refine ⟨?_, hunused.1⟩
    intro k v hv hheld
    rcases version_write hv with hv | ⟨rfl, -⟩
    · exact absurd ⟨v, hv, hheld⟩ (hunused.2 k (mem_keys hv))
    · rfl
  bookings := hw.bookings

theorem kept_claim (hs : Sound db)
    (hlock : ¬(db.slots.row input.slotId).Locked pid) (hunused : db.Unused env.newId)
    (hw : Work (db.writeSlot pid input.slotId (slot.heldFor env.newId until')) pid place) :
    Kept db (db.writeSlot pid input.slotId (slot.heldFor env.newId until')) pid place := by
  refine kept_writeSlot hs hlock (slotsApart_write hs hget rfl rfl rfl) ?_ hw
  intro id hheld
  obtain rfl : env.newId = id := Option.some.inj hheld
  exact givenTo_of_unused hunused

end

theorem kept_claimForCreate (hs : Sound db) (hw : NoWork db pid)
    (h : claimForCreate config env db pid input = .goes db' place) : Kept db db' pid place := by
  obtain ⟨_, hget, hfree, hlock, hunused, rfl, rfl⟩ := claimForCreate_eq_goes h
  exact kept_claim hget hs hlock hunused
    ⟨claimWork_write hget hw hfree hunused _, hw.assignments, hw.keys⟩

theorem kept_insertBooking (hs : Sound db) (hw : Work db pid (.insertBooking input claim))
    (h : insertBooking db pid input claim = .goes db' place) : Kept db db' pid place := by
  obtain ⟨⟨hclaim, hprof, hown, hb⟩, ha, hk⟩ := hw
  obtain ⟨hlock, hget, hfree, rfl, rfl⟩ := insertBooking_eq_goes h
  refine kept_writeBooking hs hlock (hs.bookingsApart.write sameActiveSlot_symm hfree) ?_
  refine ⟨⟨⟨hclaim.slot, hclaim.free, hclaim.only⟩, hprof, ⟨hown.slots, ?_⟩, ?_,
    hb.onlyAt.write⟩, ha, hk⟩
  · rw [sameCommitted_writeBooking.bookings]
    exact hown.absent
  · rw [← hget]
    exact row_write (hb claim.bookingId)

section

variable (hp : purpose.Work db pid claim)
include hp

theorem work_next (ha : AssignWork db pid claim)
    (hu : Unneeded db pid claim.bookingId) (hk : db.idempotencyKeys.Untouched pid) :
    Work db pid (purpose.next claim) := by
  cases purpose with
  | create =>
    unfold Purpose.next
    dsimp only
    split
    · rename_i hnone
      refine ⟨hp, ha, ?_⟩
      unfold KeyWork
      rw [hnone]
      exact hk
    · exact ⟨hp, ha, hk⟩
  | reschedule => exact ⟨hp, ha, fun _ => hp.bookingId ▸ hu, hk⟩

theorem Purpose.Work.writeAssignment :
    purpose.Work (db.writeAssignment pid k a) pid claim := by
  cases purpose with
  | create => exact ⟨⟨hp.claimed.slot, hp.claimed.free, hp.claimed.only⟩, hp.professional,
      ⟨hp.own.slots, hp.own.absent⟩, hp.booking, hp.only⟩
  | reschedule =>
    exact ⟨⟨hp.read.read, hp.read.lock, hp.read.eligible, hp.read.other⟩,
      ⟨hp.claimed.slot, hp.claimed.free, hp.claimed.only⟩, hp.bookingId, hp.slotId,
      hp.professional⟩

theorem kept_findAssignment (hs : Sound db)
    (ha : db.assignments.Untouched pid) (hk : db.idempotencyKeys.Untouched pid)
    (h : findAssignment env db pid purpose claim = .goes db' place) : Kept db db' pid place := by
  obtain ⟨rfl, rfl | ⟨rfl, hinact⟩ | ⟨_, _, rfl⟩⟩ := findAssignment_eq_goes h
  · exact kept_here hs ⟨hp, ha, hk⟩
  · refine kept_here hs (work_next hp (assignWork_of_untouched ha) ?_ hk)
    intro _ a hcomm
    exact hinact a (ha.get_eq.trans hcomm)
  · exact kept_here hs ⟨hp, ha, hk⟩

theorem work_next_write (ha : db.assignments.Untouched pid) (hk : db.idempotencyKeys.Untouched pid)
    (hint : a.status = .active → a.startAt = claim.slot.startAt ∧ a.endAt = claim.slot.endAt) :
    Work (db.writeAssignment pid claim.bookingId a) pid (purpose.next claim) := by
  have hwrote : (db.assignments.write pid claim.bookingId a).Wrote pid claim.bookingId a :=
    wrote_write_self
  refine work_next hp.writeAssignment ⟨ha.onlyAt.write, ?_⟩ ?_ hk
  · intro a' ha'
    rw [ha'.unique hwrote]
    exact hint
  · intro hnot
    exact absurd hwrote.writtenBy hnot

theorem work_next_none (ha : db.assignments.Untouched pid) (hk : db.idempotencyKeys.Untouched pid)
    (hnone : db.assignments.get pid claim.bookingId = none) :
    Work db pid (purpose.next claim) := by
  refine work_next hp (assignWork_of_untouched ha) ?_ hk
  intro _ a hcomm
  rw [← ha.get_eq, hnone] at hcomm
  cases hcomm

end

section

variable (hs : Sound db)
include hs

theorem kept_releaseExisting (hp : purpose.Work db pid claim)
    (ha : db.assignments.Untouched pid) (hk : db.idempotencyKeys.Untouched pid)
    (h : releaseExisting db pid purpose claim = .goes db' place) : Kept db db' pid place := by
  obtain ⟨rfl, ⟨rfl, hnone⟩ | ⟨_, hlock, -, rfl⟩⟩ := releaseExisting_eq_goes h
  · exact kept_here hs (work_next_none hp ha hk hnone)
  · refine kept_writeAssignment hs hlock (assignmentsApart_release hs)
      (work_next_write hp ha hk ?_)
    intro hact
    cases hact

theorem kept_tryResource {existing : Bool} {candidates : List Uuid} (hp : purpose.Work db pid claim)
    (ha : db.assignments.Untouched pid) (hk : db.idempotencyKeys.Untouched pid)
    (h : tryResource env db pid purpose claim existing candidates = .goes db' place) :
    Kept db db' pid place := by
  rcases tryResource_eq_goes h with ⟨rfl, _, rfl⟩ | ⟨rfl, ⟨rfl, hnone⟩ | ⟨_, hlock, hfree, rfl⟩⟩
  · exact kept_here hs ⟨hp, ha, hk⟩
  · exact kept_here hs (work_next_none hp ha hk hnone)
  · exact kept_writeAssignment hs hlock
      (hs.assignmentsApart.write assignmentConflict_symm hfree)
      (work_next_write hp ha hk fun _ => ⟨rfl, rfl⟩)

theorem kept_insertKey (hw : Work db pid (.insertKey input claim))
    (h : insertKey db pid input claim = .goes db' place) : Kept db db' pid place := by
  obtain ⟨hcreate, ha, hk⟩ := hw
  obtain ⟨rfl, ⟨hnone, rfl⟩ | ⟨_, hkey, hlock, hget, rfl⟩⟩ := insertKey_eq_goes h
  · refine kept_here hs ⟨hcreate, ha, ?_⟩
    unfold KeyWork
    rw [hnone]
    exact hk
  · refine kept_writeKey hs hlock ⟨⟨⟨hcreate.claimed.slot, hcreate.claimed.free,
      hcreate.claimed.only⟩, hcreate.professional, ⟨hcreate.own.slots, hcreate.own.absent⟩,
      hcreate.booking, hcreate.only⟩, ⟨ha.only, ha.interval⟩, ?_⟩
    unfold KeyWork
    rw [hkey]
    refine ⟨?_, hk.onlyAt.write⟩
    rw [← hget]
    exact row_write (hk _)

/-! ### Transitions -/

theorem bookingsApart_write {c : BookingEntity}
    (hget : db.bookings.get pid k = some c) (hslot : b.slotId = c.slotId)
    (hact : b.status ∈ slotHoldingStatuses → c.status ∈ slotHoldingStatuses) :
    (db.bookings.write pid k b).Apart SameActiveSlot := by
  refine hs.bookingsApart.write_of_imp sameActiveSlot_symm (version_of_get hget) ?_
  intro c' hc'
  exact ⟨hact hc'.1, hc'.2.1, hslot.symm.trans hc'.2.2⟩

theorem kept_compareAndSet {t : Transition} {current : BookingStatus}
    (hw : NoWork db pid) (h : compareAndSet env db pid t current = .goes db' place) :
    Kept db db' pid place := by
  obtain ⟨b, hget, hallow, hlock, rfl, rfl⟩ := compareAndSet_eq_goes h
  have hset : SetWork (db.writeBooking pid t.bookingId (t.set env.now b)) pid
      ⟨t, current, b.status⟩ b := by
    refine ⟨⟨env.now, ?_⟩, hw.bookings.onlyAt.write, rfl, hallow, hw.keys⟩
    rw [← hget]
    exact row_write (hw.bookings _)
  refine kept_writeBooking hs hlock
    (bookingsApart_write hs hget (set_slotId _ _) fun _ => allowedFrom_active hallow) ?_
  cases t with
  | confirm => exact ⟨rfl, ⟨b, hset⟩, hw.slots, hw.assignments⟩
  | cancel | expire => exact ⟨⟨b, hset⟩, hw.slots, hw.assignments⟩

theorem kept_bookSlot {m : Moved} (hw : Work db pid (.bookSlot m))
    (h : bookSlot db pid m = .goes db' place) : Kept db db' pid place := by
  obtain ⟨hnone, ⟨b, hset⟩, hslots, ha⟩ := hw
  obtain ⟨b', hget', h⟩ := bookSlot_eq_goes h
  obtain ⟨_, hrow⟩ := hset.booking
  have hslotId : b'.slotId = b.slotId := by
    rw [(wrote_of_row hrow).get_eq] at hget'
    cases hget'
    exact set_slotId _ _
  obtain ⟨_, hv, -⟩ := hs.copied _ b hset.committed
  rw [hslotId] at h
  obtain ⟨rfl, ⟨-, hmiss⟩ | ⟨slot, hget, hlock, rfl⟩⟩ := bookSlotOf_eq_goes h
  · rw [hslots.get_eq, hv] at hmiss
    cases hmiss
  · refine kept_writeSlot hs hlock (slotsApart_write hs hget rfl rfl rfl)
      (givenTo_of_booking rfl hset.committed)
      ⟨b, ⟨hset.booking, hset.only, hset.replaced, hset.allowed, hset.keys⟩, ?_⟩
    obtain ⟨t, _, _⟩ := m
    cases t with
    | confirm =>
      refine ⟨slot, ?_, hslots.onlyAt.write, ha⟩
      rw [← hget]
      exact row_write (hslots _)
    | cancel | expire => cases hnone

end

theorem released_of_releaseSlotOf {next : Place} (hnot : ¬(db.slots.row slotId).WrittenBy pid)
    (h : releaseSlotOf db pid slotId id next = .goes db' place) :
    place = next ∧ Released db' pid id slotId ∧ (db' = db ∨
      ∃ slot, db.slots.get pid slotId = some slot ∧ ¬(db.slots.row slotId).Locked pid ∧
        db' = db.writeSlot pid slotId slot.opened) := by
  obtain ⟨rfl, ⟨rfl, hother⟩ | ⟨slot, hget, hlock, hheld, rfl⟩⟩ := releaseSlotOf_eq_goes h
  · refine ⟨rfl, ⟨fun v hv => absurd hv.writtenBy hnot, ?_⟩, Or.inl rfl⟩
    intro _ c hc
    exact hother c ((get_of_not hnot).trans hc)
  · refine ⟨rfl, ⟨?_, ?_⟩, Or.inr ⟨slot, hget, hlock, rfl⟩⟩
    · intro v hv
      refine ⟨slot, ?_, hv.unique wrote_write_self, hheld⟩
      rw [sameCommitted_writeSlot.slots, ← hget, get_of_not hnot]
    · intro hnot'
      exact absurd (Wrote.writtenBy wrote_write_self) hnot'

theorem kept_releaseSlot {m : Moved} (hs : Sound db) (hw : Work db pid (.releaseSlot m))
    (h : releaseSlot db pid m = .goes db' place) : Kept db db' pid place := by
  obtain ⟨⟨b, hset⟩, hslots, ha⟩ := hw
  obtain ⟨slotId, hread, h⟩ := releaseSlot_eq_goes h
  obtain ⟨rfl, hreleased, hdb⟩ := released_of_releaseSlotOf (hslots slotId) h
  -- the work of the place after the release, over the tables as they are then
  have hwork : SetWork db' pid m b → db'.slots.OnlyAt pid slotId →
      db'.assignments.Untouched pid → Work db' pid m.afterRelease := by
    intro hset' honly ha'
    have hrelease : ReleaseWork db' pid m slotId := ⟨hread, honly, hreleased⟩
    obtain ⟨t, _, replaced⟩ := m
    cases t with
    | confirm => cases hread
    | cancel => exact ⟨⟨b, hset'⟩, rfl, ⟨slotId, hrelease⟩, ha'⟩
    | expire => exact ⟨b, hset', ⟨slotId, hrelease⟩, ha'⟩
  rcases hdb with rfl | ⟨_, hget, hlock, rfl⟩
  · exact kept_here hs (hwork hset hslots.onlyAt ha)
  · exact kept_writeSlot hs hlock (slotsApart_write hs hget rfl rfl rfl) (givenTo_of_none rfl)
      (hwork ⟨hset.booking, hset.only, hset.replaced, hset.allowed, hset.keys⟩
        hslots.onlyAt.write ha)

theorem kept_releaseAssignment {m : Moved} (hs : Sound db) (hw : Work db pid (.releaseAssignment m))
    (h : releaseAssignment db pid m = .goes db' place) : Kept db db' pid place := by
  obtain ⟨⟨b, hset⟩, hcancel, ⟨slotId, hslot⟩, ha⟩ := hw
  have hwork : ∀ {db₁ : BookingDb}, SetWork db₁ pid m b → ReleaseWork db₁ pid m slotId →
      AssignmentReleased db₁ pid m.transition.bookingId → Work db₁ pid (.commitTransition m) := by
    intro db₁ hset' hslot' ha'
    refine ⟨b, hset', ?_⟩
    obtain ⟨t, _, replaced⟩ := m
    cases t with
    | confirm => cases hcancel
    | cancel => exact ⟨⟨slotId, hslot'⟩, ha'⟩
    | expire => cases hcancel
  obtain ⟨rfl, ⟨rfl, hinact⟩ | ⟨a, hlock, -, rfl⟩⟩ := releaseAssignment_eq_goes h
  · refine kept_here hs (hwork hset hslot ⟨ha.onlyAt, ?_, ?_⟩)
    · intro a hwrote
      exact absurd hwrote.writtenBy (ha _)
    · intro _ a hc
      exact hinact a (ha.get_eq.trans hc)
  · refine kept_writeAssignment hs hlock (assignmentsApart_release hs)
      (hwork ⟨hset.booking, hset.only, hset.replaced, hset.allowed, hset.keys⟩
        ⟨hslot.read, hslot.only, ⟨hslot.released.written, hslot.released.left⟩⟩
        ⟨ha.onlyAt.write, ?_, ?_⟩)
    · intro a' ha'
      rw [ha'.unique wrote_write_self]
      rfl
    · intro hnot
      exact absurd (Wrote.writtenBy wrote_write_self) hnot

theorem noWork_next (t : Transition) (done : Bool) (hw : NoWork db pid) :
    Work db pid (t.next done) := by
  cases t with
  | confirm | cancel => exact hw
  | expire id row rest =>
    cases rest with
    | nil | cons => exact hw

/-! ### Moves -/

theorem kept_findBooking {input : RescheduleInput} (hs : Sound db) (hw : NoWork db pid)
    (h : findBooking config env db pid input = .goes db' place) : Kept db db' pid place := by
  obtain ⟨m, rfl, rfl, hget, helig, hother, hlocked⟩ := findBooking_eq_goes h
  have hcomm : db.bookings.committed m.input.bookingId = some m.booking :=
    hw.bookings.get_eq.symm.trans hget
  rcases hlocked with ⟨-, rfl⟩ | ⟨-, hlock, rfl⟩
  · exact kept_here hs ⟨⟨⟨m.booking, hcomm, Or.inl rfl⟩, Or.inl hw.bookings, helig,
      hother⟩, hw.slots, hw.assignments, hw.keys⟩
  · refine kept_writeBooking hs hlock (bookingsApart_write hs hget rfl id) ⟨⟨⟨m.booking, ?_,
      Or.inl rfl⟩, Or.inr ⟨?_, hw.bookings.onlyAt.write⟩, helig, hother⟩,
      hw.slots, hw.assignments, hw.keys⟩
    · rw [sameCommitted_writeBooking.bookings]
      exact hcomm
    · have hrow := row_write (t := db.bookings) (k := m.input.bookingId) (x := m.booking)
        (hw.bookings m.input.bookingId)
      rwa [hget] at hrow

theorem kept_claimForMove (hs : Sound db) (hw : Work db pid (.claimNewSlot m))
    (h : claimForMove config env db pid m = .goes db' place) : Kept db db' pid place := by
  obtain ⟨hread, hslots, ha, hk⟩ := hw
  obtain ⟨_, hget, hfree, hlock, rfl, rfl⟩ := claimForMove_eq_goes h
  obtain ⟨_, hb, -⟩ := hread.read
  exact kept_writeSlot hs hlock (slotsApart_write hs hget rfl rfl rfl) (givenTo_of_booking rfl hb)
    ⟨⟨⟨hread.read, hread.lock, hread.eligible, hread.other⟩, claimed_write hslots hget hfree, rfl,
      rfl, hfree.1⟩, ha, hk⟩

theorem MoveRead.eq_of_get (h : MoveRead db pid m)
    (hget : db.bookings.get pid m.input.bookingId = some b) (hstat : b.status = m.booking.status)
    (hcnt : b.rescheduleCount = m.booking.rescheduleCount) :
    b = m.booking ∧ db.bookings.committed m.input.bookingId = some m.booking := by
  rcases h.lock with hu | ⟨hrow, -⟩
  · obtain ⟨_, hb', hsame⟩ := h.read
    rw [hu.get_eq, hb'] at hget
    cases hget
    rcases hsame with rfl | hlater
    · exact ⟨rfl, hb'⟩
    · unfold Later rank at hlater
      rw [hstat, hcnt] at hlater
      exact absurd hlater (lt_irrefl _)
  · rw [(wrote_of_row hrow).get_eq] at hget
    cases hget
    exact ⟨rfl, committed_of_row hrow⟩

theorem kept_moveBooking (hs : Sound db) (hw : Work db pid (.moveBooking m claim))
    (h : moveBooking db pid m claim = .goes db' place) : Kept db db' pid place := by
  obtain ⟨hclaim, ha, hunneeded, hk⟩ := hw
  obtain ⟨_, hget, hstat, hcnt, hlock, hfree, rfl, rfl⟩ := moveBooking_eq_goes h
  obtain ⟨rfl, hcomm⟩ := hclaim.read.eq_of_get hget hstat hcnt
  refine kept_writeBooking hs hlock (hs.bookingsApart.write sameActiveSlot_symm hfree) ?_
  have honly : db.bookings.OnlyAt pid m.input.bookingId :=
    hclaim.read.lock.elim Untouched.onlyAt And.right
  have hmove : MoveWork (db.writeBooking pid m.input.bookingId (m.set claim m.booking)) pid m
      claim := by
    refine ⟨?_, honly.write, hclaim.read.eligible, hclaim.read.other, hclaim.bookingId,
      hclaim.slotId, hclaim.professional, ⟨ha.only, ha.interval⟩, hunneeded hcomm, hk⟩
    rw [← hcomm]
    exact row_write_self
  obtain ⟨c, hrow, hslot⟩ := hclaim.claimed.slot
  split
  · rename_i htarget
    exact ⟨hmove, ⟨⟨c, hrow, hslot⟩, hclaim.claimed.free, hclaim.claimed.only⟩, htarget⟩
  · rename_i htarget
    have hpend : m.targetStatus = .pending := by
      have hact := targetStatus_active hclaim.read.eligible
      simp only [slotHoldingStatuses, mem_cons, not_mem_nil, or_false] at hact
      exact hact.resolve_right htarget
    refine ⟨hmove, ⟨c, claim.slot, hrow, ?_⟩, hclaim.claimed.only⟩
    rw [hslot, hpend]
    exact ⟨rfl, rfl, rfl, rfl, rfl, rfl, congrArg some hclaim.bookingId, rfl⟩

theorem MoveWork.writeSlot (h : MoveWork db pid m claim) :
    MoveWork (db.writeSlot pid k v) pid m claim :=
  { h with
    assigned := ⟨h.assigned.only, h.assigned.interval⟩ }

theorem kept_bookNewSlot (hs : Sound db) (hw : Work db pid (.bookNewSlot m claim))
    (h : bookSlotOf db pid claim.slotId m.input.bookingId (.releaseOldSlot m claim) =
      .goes db' place) : Kept db db' pid place := by
  obtain ⟨hmove, hclaim, htarget⟩ := hw
  obtain ⟨c, hrow, hslot⟩ := hclaim.slot
  have hown : db.slots.get pid claim.slotId = some claim.slot := (wrote_of_row hrow).get_eq
  obtain ⟨rfl, ⟨-, hmiss⟩ | ⟨slot, hget, hlock, rfl⟩⟩ := bookSlotOf_eq_goes h
  · rw [hown] at hmiss
    cases hmiss
  · rw [hown] at hget
    cases hget
    refine kept_writeSlot hs hlock (slotsApart_write hs hown rfl rfl rfl)
      (givenTo_of_booking rfl (committed_of_row hmove.booking)) ⟨hmove.writeSlot,
        ⟨c, claim.slot.bookedBy m.input.bookingId, ?_, ?_⟩, hclaim.only.write⟩
    · rw [← committed_of_row hrow]
      exact row_write_self
    · rw [hslot, htarget]
      exact ⟨rfl, rfl, rfl, rfl, rfl, rfl, rfl, rfl⟩

theorem kept_releaseOldSlot (hs : Sound db) (hw : Work db pid (.releaseOldSlot m claim))
    (h : releaseSlotOf db pid m.booking.slotId m.input.bookingId (.commitMove m claim) =
      .goes db' place) : Kept db db' pid place := by
  obtain ⟨hmove, ⟨c, v, hrow, hnew⟩, honly⟩ := hw
  have hne : claim.slotId ≠ m.booking.slotId := hmove.slotId ▸ hmove.other
  have hnot : ¬(db.slots.row m.booking.slotId).WrittenBy pid := fun hw => hne (honly _ hw).symm
  obtain ⟨rfl, hreleased, rfl | ⟨_, hget, hlock, rfl⟩⟩ := released_of_releaseSlotOf hnot h
  · exact kept_here hs ⟨hmove, ⟨c, v, hrow, hnew⟩, fun k hk => Or.inl (honly k hk), hreleased⟩
  · refine kept_writeSlot hs hlock (slotsApart_write hs hget rfl rfl rfl) (givenTo_of_none rfl)
      ⟨hmove.writeSlot, ⟨c, v, ?_, hnew⟩, ?_, hreleased⟩
    · exact (row_write_ne hne).trans hrow
    · intro k hk
      exact (writtenBy_write hk).elim Or.inr fun hk => Or.inl (honly k hk)

/-! ### Slots -/

theorem kept_insertSlot (hs : Sound db) (hw : Work db pid (.insertSlot slotId slot))
    (h : insertSlot db pid slotId slot = .goes db' place) : Kept db db' pid place := by
  obtain ⟨hno, hopen, hheld⟩ := hw
  obtain ⟨hlock, hget, hfree, rfl, rfl⟩ := insertSlot_eq_goes h
  refine kept_writeSlot hs hlock (hs.slotsApart.write slotConflict_symm hfree)
    (givenTo_of_none hheld) ⟨?_, hno.bookings, hno.assignments, hno.keys⟩
  intro k v hv
  obtain rfl := hno.slots.onlyAt.write k hv.writtenBy
  obtain rfl := hv.unique wrote_write_self
  rw [sameCommitted_writeSlot.slots, ← hno.slots.get_eq]
  exact ⟨hget, hopen, hheld⟩

theorem kept_insertCandidates {candidates : List (Uuid × AvailabilitySlotEntity)} (hs : Sound db)
    (hw : SlotsWork db pid) (h : insertCandidates db pid candidates = .goes db' place) :
    Kept db db' pid place := by
  rcases insertCandidates_eq_goes h with ⟨rfl, rfl⟩ | ⟨slotId, slot, _, rfl, hdb⟩
  · exact kept_here hs hw
  · rcases hdb with rfl | ⟨hlock, hget, hfree, rfl⟩
    · exact kept_here hs hw
    · refine kept_writeSlot hs hlock (hs.slotsApart.write slotConflict_symm hfree)
        (givenTo_of_none rfl) ⟨?_, hw.bookings, hw.assignments, hw.keys⟩
      have hnot : ¬(db.slots.row slotId).WrittenBy pid := by
        rintro ⟨v, hv⟩
        rw [Wrote.get_eq hv] at hget
        cases hget
      intro k v hv
      rw [sameCommitted_writeSlot.slots]
      by_cases hk : k = slotId
      · subst hk
        obtain rfl := hv.unique wrote_write_self
        exact ⟨(get_of_not hnot).symm.trans hget, rfl, rfl⟩
      · refine hw.inserted k v ?_
        have hrow : (db.writeSlot pid slotId slot.opened).slots.row k = db.slots.row k :=
          row_write_ne hk
        rw [Wrote, hrow] at hv
        exact hv

theorem committed_delete_of_ne (h : k ≠ slotId) :
    (db.slots.delete slotId).committed k = db.slots.committed k :=
  congrArg Row.committed (row_delete_ne h)

theorem committed_delete_some (h : (db.slots.delete slotId).committed k = some v) :
    k ≠ slotId ∧ db.slots.committed k = some v := by
  by_cases hk : k = slotId
  · subst hk
    simp [committed, Row.empty] at h
  · exact ⟨hk, (committed_delete_of_ne hk).symm.trans h⟩

theorem sound_delete (hs : Sound db)
    (href : ∀ id b, (db.bookings.row id).Version b → b.slotId ≠ slotId) :
    Sound { db with slots := db.slots.delete slotId } where
  hold := fun k v hv => hs.hold k v (committed_delete_some hv).2
  holder := fun k v id b hv => hs.holder k v id b (committed_delete_some hv).2
  active := by
    intro id b hb hact
    obtain ⟨v, hv, hrest⟩ := hs.active id b hb hact
    exact ⟨v, (committed_delete_of_ne (href id b (Or.inl hb))).trans hv, hrest⟩
  copied := by
    intro id b hb
    obtain ⟨v, hv, hrest⟩ := hs.copied id b hb
    exact ⟨v, (committed_delete_of_ne (href id b (Or.inl hb))).trans hv, hrest⟩
  assigned := hs.assigned
  slotsApart := hs.slotsApart.delete
  bookingsApart := hs.bookingsApart
  assignmentsApart := hs.assignmentsApart

theorem kept_deleteSlot (hs : Sound db) (hw : NoWork db pid)
    (h : deleteSlot db pid professionalId slotId = .goes db' place) : Kept db db' pid place := by
  obtain ⟨hlock, href, rfl, rfl⟩ := deleteSlot_eq_goes h
  refine ⟨sound_delete hs href, ⟨?_, hw.bookings, hw.assignments, hw.keys⟩, ?_, ?_,
    gives_of_slots ?_ rfl⟩
  · rintro k ⟨v, hv⟩
    by_cases hk : k = slotId
    · subst hk
      rw [row_delete_self] at hv
      cases hv
    · rw [row_delete_ne hk] at hv
      exact hw.slots k ⟨v, hv⟩
  · intro q hq
    exact ⟨others_delete (Row.not_writtenBy_of_not_locked hlock hq), .refl, .refl, .refl⟩
  · exact ⟨fun k v hv => (committed_delete_some hv).2, rfl, rfl, rfl⟩
  · intro k v hv
    by_cases hk : k = slotId
    · subst hk
      rw [row_delete_self] at hv
      rcases hv with hv | ⟨_, hv⟩ <;> cases hv
    · rwa [row_delete_ne hk] at hv

/-! ### All of them -/

theorem kept_statement (hs : Sound db) (hw : Work db pid at')
    (h : statement config env db pid at' = .goes db' place) : Kept db db' pid place := by
  cases at' with
  | findKey | findKeyAgain =>
    unfold statement at h
    dsimp only at h
    split at h <;> cases h <;> exact kept_here hs hw
  | refused input failure claim =>
    unfold statement at h
    dsimp only at h
    split at h
    · cases h
      cases claim <;> exact kept_here hs hw
    · cases h
  | countHolds =>
    obtain ⟨rfl, rfl, -⟩ := countHolds_eq_goes h
    exact kept_here hs hw
  | claimSlot => exact kept_claimForCreate hs hw h
  | insertBooking => exact kept_insertBooking hs hw h
  | findAssignment => exact kept_findAssignment hw.1 hs hw.2.1 hw.2.2 h
  | releaseExisting => exact kept_releaseExisting hs hw.1 hw.2.1 hw.2.2 h
  | tryResource =>
    exact kept_tryResource hs hw.1 hw.2.1 hw.2.2 h
  | insertKey => exact kept_insertKey hs hw h
  | findBefore =>
    obtain ⟨rfl, _, -, rfl⟩ := findBefore_eq_goes h
    exact kept_here hs hw
  | findCurrent =>
    obtain ⟨rfl, _, -, -, rfl⟩ := findCurrent_eq_goes h
    exact kept_here hs hw
  | compareAndSet => exact kept_compareAndSet hs hw h
  | bookSlot => exact kept_bookSlot hs hw h
  | releaseSlot => exact kept_releaseSlot hs hw h
  | releaseAssignment => exact kept_releaseAssignment hs hw h
  | findStale limit =>
    cases h
    refine kept_here hs ?_
    cases staleHolds env db pid limit with
    | nil | cons => exact hw
  | findBooking => exact kept_findBooking hs hw h
  | findNewSlot =>
    obtain ⟨rfl, rfl⟩ := findNewSlot_eq_goes h
    exact kept_here hs hw
  | claimNewSlot => exact kept_claimForMove hs hw h
  | moveBooking => exact kept_moveBooking hs hw h
  | bookNewSlot => exact kept_bookNewSlot hs hw h
  | releaseOldSlot => exact kept_releaseOldSlot hs hw h
  | findOverlap =>
    obtain ⟨rfl, rfl⟩ := findOverlap_eq_goes h
    exact kept_here hs ⟨hw, rfl, rfl⟩
  | insertSlot => exact kept_insertSlot hs hw h
  | insertCandidates => exact kept_insertCandidates hs hw h
  | deleteSlot => exact kept_deleteSlot hs hw h
  | idle | commitCreate | commitTransition | commitMove | commitSlots => cases h
  | replays input bookingId claim => cases claim <;> cases h
  | returned | threw => cases h

section

variable (h : statement config env db pid at' = .throws failure)
include h

theorem kept_refuses (hs : Sound db) (hw : Work db pid at')
    (hrefusing : at'.refusing failure = some input) :
    Kept db (leftBy config env db pid at').1 pid
      (.refused input failure (leftBy config env db pid at').2) := by
  rcases refusing_cases h hrefusing with ⟨hleft, rfl | rfl⟩ |
    ⟨slot, rfl, hget, hfree, hlock, hunused, hleft⟩ | ⟨claim, hleft, rfl | ⟨_, _, rfl⟩⟩
  · exact kept_here hs hw
  · rw [hleft]
    exact kept_here hs hw
  · rw [hleft]
    exact kept_claim hget hs hlock hunused
      ⟨Or.inl (claimWork_write hget hw hfree hunused _), hw.assignments, hw.keys⟩
  · exact kept_here hs ⟨Or.inr hw.1, hw.2⟩
  · exact kept_here hs ⟨Or.inr hw.1, hw.2⟩

theorem sameCommitted_refuses (hrefusing : at'.refusing failure = some input) :
    SameCommitted db (leftBy config env db pid at').1 := by
  rcases refusing_cases h hrefusing with ⟨hleft, -⟩ | ⟨_, -, -, -, -, -, hleft⟩ |
    ⟨claim, hleft, -⟩
  · rw [hleft]
    exact .refl
  · rw [hleft]
    exact sameCommitted_writeSlot
  · rw [hleft]
    exact .refl

end

end Kept

/-! ## Steps and runs -/

namespace BookingSystem

/-- The store is sound, and every call has done the work of its place. -/
structure Invariant (s : BookingSystem) : Prop where
  sound : Sound s.db
  work : ∀ pid, Work s.db pid (s.calls pid)

theorem invariant_start : Invariant start := by
  have hempty : ∀ pid, NoWork BookingDb.empty pid := fun pid =>
    ⟨untouched_empty, untouched_empty, untouched_empty, untouched_empty⟩
  refine ⟨⟨?_, ?_, ?_, ?_, ?_, apart_empty, apart_empty, apart_empty⟩, hempty⟩
  · intro k v hv
    cases hv
  · intro k v id b hv
    cases hv
  · intro id b hb
    cases hb
  · intro id b hb
    cases hb
  · intro id a ha
    cases ha

section Step

variable {config : BookingConfig} {s s' t : BookingSystem} {e : BookingStep} {db : BookingDb}
  {pid : ℕ} {place : Place} {es : List BookingStep}

theorem running_of_statement {env : Env} (h : statement config env db pid place ≠ .waits) :
    place.running = true := by
  cases place with
  | idle | returned | threw => exact absurd rfl h
  | _ => rfl

theorem step_cases (h : step config s e = some s') :
    (∃ request, s.calls e.pid = .idle ∧ s.asked e.pid = none ∧ s' = s.begins e.pid request) ∨
    (∃ env db place, e.action = .statement env ∧
      statement config env s.db e.pid (s.calls e.pid) = .goes db place ∧
      s' = s.goes e.pid db place) ∨
    (∃ env record place, e.action = .statement env ∧ Commits (s.calls e.pid) record place ∧
      s' = s.commits e.pid record place) ∨
    (∃ failure, (s.calls e.pid).running = true ∧ s' = s.fails e.pid failure) ∨
    ∃ env failure input, e.action = .statement env ∧
      statement config env s.db e.pid (s.calls e.pid) = .throws failure ∧
      (s.calls e.pid).refusing failure = some input ∧
      s' = s.refuses config e.pid env input failure := by
  unfold step at h
  split at h
  · rename_i request hact
    split at h
    · rename_i hidle
      injection h with h
      exact Or.inl ⟨request, hidle.1, hidle.2, h.symm⟩
    · cases h
  · split at h
    · rename_i hrun
      injection h with h
      exact Or.inr (Or.inr (Or.inr (Or.inl ⟨_, hrun, h.symm⟩)))
    · cases h
  · rename_i env hact
    split at h
    · cases h
    · rename_i db place hstmt
      injection h with h
      exact Or.inr (Or.inl ⟨env, db, place, hact, hstmt, h.symm⟩)
    · rename_i record place hstmt
      injection h with h
      exact Or.inr (Or.inr (Or.inl
        ⟨env, record, place, hact, statement_eq_commits hstmt, h.symm⟩))
    · rename_i failure hstmt
      split at h
      · injection h with h
        have hrun := running_of_statement (hstmt.trans_ne (by simp))
        exact Or.inr (Or.inr (Or.inr (Or.inl ⟨failure, hrun, h.symm⟩)))
      · rename_i input hrefusing
        injection h with h
        exact Or.inr (Or.inr (Or.inr (Or.inr
          ⟨env, failure, input, hact, hstmt, hrefusing, h.symm⟩)))

theorem work_start (request : Request) (hw : NoWork db pid) : Work db pid request.place := by
  cases request with
  | create =>
    unfold Request.place
    dsimp only
    split <;> exact hw
  | bulkGenerate => exact hw.slotsWork
  | _ => exact hw

theorem noWork_commit (db : BookingDb) (pid : ℕ) : NoWork (db.commit pid) pid :=
  ⟨untouched_commit, untouched_commit, untouched_commit, untouched_commit⟩

theorem noWork_rollback (db : BookingDb) (pid : ℕ) : NoWork (db.rollback pid) pid :=
  ⟨untouched_rollback, untouched_rollback, untouched_rollback, untouched_rollback⟩

theorem work_commits {next : Place} {record : Record} (hc : Commits place record next)
    (hw : NoWork db pid) : Work db pid next := by
  cases hc with
  | transition m => exact noWork_next m.transition true hw
  | unmoved t => exact noWork_next t false hw
  | lost t => exact noWork_next t false hw
  | _ => exact hw

theorem work_failed (place : Place) (failure : Failure) (hw : NoWork db pid) :
    Work db pid (place.failed failure) := by
  unfold Place.failed
  split
  · exact hw
  · split <;> exact hw

theorem work_update (hw : ∀ q, Work s.db q (s.calls q)) (hown : Work db pid place)
    (hl : ∀ q, q ≠ pid → LeavesTo q s.db db) (he : Evolves s.db db) (hg : Gives pid s.db db)
    (q : ℕ) : Work db q (update s.calls pid place q) := by
  by_cases hq : q = pid
  · subst hq
    rwa [update_self]
  · rw [update_of_ne hq]
    exact (hw q).frame (hl q hq) he (Ne.symm hq) hg

theorem sameCommitted_rollback (db : BookingDb) (pid : ℕ) : SameCommitted db (db.rollback pid) :=
  ⟨committed_rollback, committed_rollback, committed_rollback, committed_rollback⟩

theorem invariant_step (hi : Invariant s) (h : step config s e = some s') : Invariant s' := by
  rcases step_cases h with ⟨request, hidle, -, rfl⟩ | ⟨env, db, place, -, hstmt, rfl⟩ |
    ⟨env, record, place, -, hcmt, rfl⟩ | ⟨failure, -, rfl⟩ |
    ⟨env, failure, input, -, hstmt, hrefusing, rfl⟩
  · have hw : Work s.db e.pid (s.calls e.pid) := hi.work e.pid
    rw [hidle] at hw
    exact ⟨hi.sound, work_update hi.work (work_start request hw) (fun _ _ => .refl)
      SameCommitted.refl.quiet.evolves (gives_of_slots (fun _ _ h => h) rfl)⟩
  · have hkept := kept_statement hi.sound (hi.work e.pid) hstmt
    exact ⟨hkept.sound, work_update hi.work hkept.work hkept.leaves hkept.quiet.evolves
      hkept.gives⟩
  · obtain ⟨_, hready⟩ := ready_of_commits hi.sound (hi.work e.pid) hcmt
    refine ⟨sound_commit hi.sound hready, work_update hi.work
      (work_commits hcmt (noWork_commit _ _)) ?_ (evolves_commit hready)
      (gives_of_commits (hi.work e.pid) hcmt)⟩
    intro q hq
    exact ⟨others_commit hq, others_commit hq, others_commit hq,
      others_commit hq⟩
  · refine ⟨(sameCommitted_rollback _ _).sound hi.sound hi.sound.slotsApart.rollback
      hi.sound.bookingsApart.rollback hi.sound.assignmentsApart.rollback,
      work_update hi.work (work_failed _ _ (noWork_rollback _ _)) ?_
        (sameCommitted_rollback _ _).quiet.evolves
        (gives_of_slots (fun _ _ h => Row.version_of_rollback h)
          (sameCommitted_rollback _ _).bookings)⟩
    intro q hq
    exact ⟨others_rollback hq, others_rollback hq, others_rollback hq,
      others_rollback hq⟩
  · have hkept := kept_refuses hstmt hi.sound (hi.work e.pid) hrefusing
    exact ⟨hkept.sound, work_update hi.work hkept.work hkept.leaves hkept.quiet.evolves
      hkept.gives⟩

theorem invariant_run (h : runFrom (step config) start es = some s) : Invariant s :=
  runFrom_invariant (fun _ _ _ hi hs => invariant_step hi hs) invariant_start h

/-- A step that does not commit is quiet. -/
theorem quiet_or_commits (hi : Invariant s) (h : step config s e = some s') :
    Quiet s.db s'.db ∨ ∃ env record place, e.action = .statement env ∧
      Commits (s.calls e.pid) record place ∧ s' = s.commits e.pid record place := by
  rcases step_cases h with ⟨_, -, -, rfl⟩ | ⟨env, _, _, -, hstmt, rfl⟩ | hcmt |
    ⟨failure, -, rfl⟩ | ⟨env, failure, input, -, hstmt, hrefusing, rfl⟩
  · exact Or.inl SameCommitted.refl.quiet
  · exact Or.inl (kept_statement hi.sound (hi.work e.pid) hstmt).quiet
  · exact Or.inr hcmt
  · exact Or.inl (sameCommitted_rollback _ _).quiet
  · exact Or.inl (kept_refuses hstmt hi.sound (hi.work e.pid) hrefusing).quiet

theorem evolves_step (hi : Invariant s) (h : step config s e = some s') : Evolves s.db s'.db := by
  rcases quiet_or_commits hi h with hquiet | ⟨_, _, _, -, hcmt, rfl⟩
  · exact hquiet.evolves
  · obtain ⟨_, hready⟩ := ready_of_commits hi.sound (hi.work e.pid) hcmt
    exact evolves_commit hready

/-- A booking stays, and between two moves its status only goes on: no row is ever there again that
has been changed. -/
theorem bookingsAdvance_run {id : Uuid} {b : BookingEntity} {es' : List BookingStep}
    (hrun : runFrom (step config) start es = some s) (hb : s.db.bookings.committed id = some b)
    (hrest : runFrom (step config) s es' = some t) :
    ∃ b', t.db.bookings.committed id = some b' ∧ (b' = b ∨
      b.rescheduleCount < b'.rescheduleCount ∨
      b'.rescheduleCount = b.rescheduleCount ∧ stage b.status < stage b'.status) := by
  have hlater : Invariant t ∧ ∃ b', t.db.bookings.committed id = some b' ∧ (b' = b ∨ Later b b') :=
    runFrom_invariant (I := fun u => Invariant u ∧
        ∃ b', u.db.bookings.committed id = some b' ∧ (b' = b ∨ Later b b'))
      (fun u e u' hu hstep => by
        obtain ⟨hi, b', hb', hle⟩ := hu
        obtain ⟨b'', hb'', hle'⟩ := (evolves_step hi hstep).bookings id b' hb'
        refine ⟨invariant_step hi hstep, b'', hb'', ?_⟩
        rcases hle' with rfl | hlater
        · exact hle
        · refine Or.inr ?_
          rcases hle with rfl | hle
          · exact hlater
          · exact lt_trans hle hlater)
      ⟨invariant_run hrun, b, hb, Or.inl rfl⟩ hrest
  obtain ⟨-, b', hb', rfl | hlater⟩ := hlater
  · exact ⟨b', hb', Or.inl rfl⟩
  · have hstage' := stage_le b'.status
    rw [Later, rank, rank] at hlater
    exact ⟨b', hb', Or.inr (by omega)⟩

theorem calls_of_notMem (h : runFrom (step config) s es = some t) (hpid : ∀ e ∈ es, e.pid ≠ pid) :
    t.calls pid = s.calls pid := by
  induction es generalizing s with
  | nil => cases h; rfl
  | cons e es ih =>
    obtain ⟨_, hs, hrun⟩ := runFrom_cons_eq_some.1 h
    have hne : pid ≠ e.pid := (hpid e mem_cons_self).symm
    rw [ih hrun fun e' he' => hpid e' (mem_cons_of_mem e he')]
    rcases step_cases hs with ⟨_, -, -, rfl⟩ | ⟨env, _, place, -, -, rfl⟩ |
      ⟨env, record, place, -, -, rfl⟩ | ⟨failure, -, rfl⟩ | ⟨env, failure, input, -, -, -, rfl⟩ <;>
      exact update_of_ne hne _ _

theorem along_of_idle (pids : List ℕ) {G H : BookingSystem → BookingStep → Prop}
    (himp : ∀ s e, (∀ q, q ∉ pids → s.calls q = .idle) → H s e → G s e)
    (hpids : ∀ e ∈ es, e.pid ∈ pids) (hidle : ∀ q, q ∉ pids → s.calls q = .idle)
    (h : Along (step config) H s es) : Along (step config) G s es := by
  induction es generalizing s with
  | nil => trivial
  | cons e es ih =>
    refine ⟨himp s e hidle h.1, ?_⟩
    intro s' hs
    refine ih (fun e' he' => hpids e' (mem_cons_of_mem e he')) ?_ (h.2 s' hs)
    intro q hq
    have hrun : runFrom (step config) s [e] = some s' := by
      rw [runFrom_cons_eq_some]
      exact ⟨s', hs, rfl⟩
    rw [calls_of_notMem hrun, hidle q hq]
    intro e' he' hpid
    obtain rfl := mem_singleton.1 he'
    exact hq (hpid ▸ hpids e' mem_cons_self)

/-- No call is at work: every transaction has committed, or was rolled back. -/
def Quiescent (s : BookingSystem) : Prop := ∀ pid, (s.calls pid).running = false

theorem quiescent_of_run (h : runFrom (step config) start es = some t)
    (hdone : ∀ e ∈ es, (t.calls e.pid).running = false) : t.Quiescent := by
  intro pid
  by_cases hpid : ∃ e ∈ es, e.pid = pid
  · obtain ⟨e, he, rfl⟩ := hpid
    exact hdone e he
  · rw [calls_of_notMem h fun e he hep => hpid ⟨e, he, hep⟩]
    rfl

end Step

/-! ## Calls as lists of steps -/

/-- The next statement of a call, where no resource is needed and nothing is governed. -/
def takes (pid : ℕ) (now : Instant) (newId : Uuid) : BookingStep :=
  ⟨pid, .statement ⟨now, newId, none, none, false, true⟩⟩

/-- A call starts and takes a number of statements. -/
def call (pid : ℕ) (request : Request) (statements : ℕ) (now : Instant) (newId : Uuid) :
    List BookingStep :=
  ⟨pid, .start request⟩ :: List.replicate statements (takes pid now newId)

/-- A slot of an hour, published for any service. -/
def publishes (pid : ℕ) (slotId professionalId : Uuid) (startAt : Instant) : List BookingStep :=
  call pid (.createSlot ⟨professionalId, startAt, startAt + 3600000, none⟩) 3 0 slotId

/-- A customer books a slot of professional 7, without an idempotency key. -/
def books (pid : ℕ) (customerId slotId bookingId : Uuid) (now : Instant) : List BookingStep :=
  call pid (.create ⟨customerId, 7, none, slotId, none, false⟩) 5 now bookingId

theorem bookingsAdvance_run_booked : ∃ s t b,
    runFrom (step .default) start (publishes 0 1 7 100000000 ++ books 1 5 1 50 0) = some s ∧
    s.db.bookings.committed 50 = some b ∧
    runFrom (step .default) s (call 2 (.confirm 50 ⟨.customer, some 5⟩) 4 0 0) = some t ∧
    ∃ b', t.db.bookings.committed 50 = some b' ∧ (b' = b ∨
      b.rescheduleCount < b'.rescheduleCount ∨
      b'.rescheduleCount = b.rescheduleCount ∧ stage b.status < stage b'.status) := by
  obtain ⟨s, t, b, hs, hb, ht⟩ : ∃ s t b,
      runFrom (step .default) start (publishes 0 1 7 100000000 ++ books 1 5 1 50 0) = some s ∧
      s.db.bookings.committed 50 = some b ∧
      runFrom (step .default) s (call 2 (.confirm 50 ⟨.customer, some 5⟩) 4 0 0) = some t :=
    ⟨_, _, _, rfl, rfl, rfl⟩
  exact ⟨s, t, b, hs, hb, ht, bookingsAdvance_run hs hb ht⟩

/-- The customer of a booking. -/
def theCustomer : BookingActor := ⟨.customer, some 5⟩

end BookingSystem

end BeauClick.Scheduling
