import BeauClick.Scheduling.Soundness

/-!
# What a call has written, place by place

Slots, bookings, assignments and idempotency keys, written before the commit.

* `ClaimWork`, `CreateWork`, `MoveWork` — a creation and a reschedule.
* `TransitionWork`, `ReleaseWork` — a transition, and what it gives free.
* `Work` — all places.
-/

namespace BeauClick.Scheduling

open ReadCommitted ReadCommitted.Versioned Runs Booking

/-- The call has written nothing. -/
structure NoWork (db : BookingDb) (pid : ℕ) : Prop where
  slots : db.slots.Untouched pid
  bookings : db.bookings.Untouched pid
  assignments : db.assignments.Untouched pid
  keys : db.idempotencyKeys.Untouched pid

/-- The call has claimed a slot, and written no other one. -/
structure Claimed (db : BookingDb) (pid : ℕ) (claim : Claim) : Prop where
  slot : ∃ c, db.slots.row claim.slotId = ⟨some c, some (pid, claim.slot)⟩ ∧
    claim.slot = c.heldFor claim.bookingId claim.holdExpiresAt
  free : ∀ c, db.slots.committed claim.slotId = some c → c.status ≠ .booked
  only : db.slots.OnlyAt pid claim.slotId

/-- The booking of a claim is not there yet, and no other slot is held for it. -/
structure OwnId (db : BookingDb) (claim : Claim) : Prop where
  slots : ∀ k v, (db.slots.row k).Version v → v.heldByBookingId = some claim.bookingId →
    k = claim.slotId
  absent : db.bookings.committed claim.bookingId = none

/-- `createWithin` has claimed the slot. -/
structure ClaimWork (db : BookingDb) (pid : ℕ) (input : CreateBookingInput) (claim : Claim) :
    Prop where
  claimed : Claimed db pid claim
  professional : claim.slot.professionalId = input.professionalId
  own : OwnId db claim
  bookings : db.bookings.Untouched pid

/-- `createWithin` has claimed the slot and inserted the booking. -/
structure CreateWork (db : BookingDb) (pid : ℕ) (input : CreateBookingInput) (claim : Claim) :
    Prop where
  claimed : Claimed db pid claim
  professional : claim.slot.professionalId = input.professionalId
  own : OwnId db claim
  booking : db.bookings.row claim.bookingId = ⟨none, some (pid, newBooking input claim)⟩
  only : db.bookings.OnlyAt pid claim.bookingId

/-- Of assignments, the call has written that of its booking, for the slot it has claimed. -/
structure AssignWork (db : BookingDb) (pid : ℕ) (claim : Claim) : Prop where
  only : db.assignments.OnlyAt pid claim.bookingId
  interval : ∀ a, db.assignments.Wrote pid claim.bookingId a → a.status = .active →
    a.startAt = claim.slot.startAt ∧ a.endAt = claim.slot.endAt

/-- Where the call has not written the booking's assignment, it is not active. -/
def Unneeded (db : BookingDb) (pid : ℕ) (id : Uuid) : Prop :=
  ¬(db.assignments.row id).WrittenBy pid →
    ∀ a, db.assignments.committed id = some a → a.status ≠ .active

/-- The call has inserted the idempotency key, when there is one. -/
def KeyWork (db : BookingDb) (pid : ℕ) (input : CreateBookingInput) (claim : Claim) : Prop :=
  match input.idempotencyKey with
  | none => db.idempotencyKeys.Untouched pid
  | some key =>
    db.idempotencyKeys.row (input.customerId, key) = ⟨none, some (pid, claim.bookingId)⟩ ∧
      db.idempotencyKeys.OnlyAt pid (input.customerId, key)

/-- `reschedule` has read the booking, and may hold it. -/
structure MoveRead (db : BookingDb) (pid : ℕ) (m : Move) : Prop where
  read : ∃ b, db.bookings.committed m.input.bookingId = some b ∧
    (b = m.booking ∨ Later m.booking b)
  lock : db.bookings.Untouched pid ∨
    db.bookings.row m.input.bookingId = ⟨some m.booking, some (pid, m.booking)⟩ ∧
      db.bookings.OnlyAt pid m.input.bookingId
  eligible : m.booking.status ∈ Move.eligibleStatuses m.input
  other : m.input.newSlotId ≠ m.booking.slotId

/-- `reschedule` has claimed the new slot. -/
structure MoveClaim (db : BookingDb) (pid : ℕ) (m : Move) (claim : Claim) : Prop where
  read : MoveRead db pid m
  claimed : Claimed db pid claim
  bookingId : claim.bookingId = m.input.bookingId
  slotId : claim.slotId = m.input.newSlotId
  professional : claim.slot.professionalId = m.booking.professionalId

/-- `reschedule` has moved the booking, which was still as it had been read. -/
structure MoveWork (db : BookingDb) (pid : ℕ) (m : Move) (claim : Claim) : Prop where
  booking : db.bookings.row m.input.bookingId =
    ⟨some m.booking, some (pid, m.set claim m.booking)⟩
  only : db.bookings.OnlyAt pid m.input.bookingId
  eligible : m.booking.status ∈ Move.eligibleStatuses m.input
  other : m.input.newSlotId ≠ m.booking.slotId
  bookingId : claim.bookingId = m.input.bookingId
  slotId : claim.slotId = m.input.newSlotId
  professional : claim.slot.professionalId = m.booking.professionalId
  assigned : AssignWork db pid claim
  unneeded : Unneeded db pid m.input.bookingId
  keys : db.idempotencyKeys.Untouched pid

/-- The new slot is held for the booking, or booked by it, as the move ends. -/
def NewSlot (db : BookingDb) (pid : ℕ) (m : Move) (claim : Claim) : Prop :=
  ∃ c v, db.slots.row claim.slotId = ⟨some c, some (pid, v)⟩ ∧
    v.professionalId = c.professionalId ∧ v.startAt = c.startAt ∧ v.endAt = c.endAt ∧
    claim.slot.professionalId = c.professionalId ∧ claim.slot.startAt = c.startAt ∧
    claim.slot.endAt = c.endAt ∧
    v.heldByBookingId = some m.input.bookingId ∧ v.status = slotStatusFor m.targetStatus

/-- The slot has been released for the booking, as far as it was the booking's. -/
structure Released (db : BookingDb) (pid : ℕ) (id slotId : Uuid) : Prop where
  written : ∀ v, db.slots.Wrote pid slotId v → ∃ c, db.slots.committed slotId = some c ∧
    v = c.opened ∧ (c.heldByBookingId = some id ∨ c.heldByBookingId = none)
  left : ¬(db.slots.row slotId).WrittenBy pid → ∀ c, db.slots.committed slotId = some c →
    c.heldByBookingId ≠ some id

/-- `transition` has set the booking. -/
structure SetWork (db : BookingDb) (pid : ℕ) (m : Moved) (b : BookingEntity) : Prop where
  booking : ∃ now, db.bookings.row m.transition.bookingId =
    ⟨some b, some (pid, m.transition.set now b)⟩
  only : db.bookings.OnlyAt pid m.transition.bookingId
  replaced : b.status = m.replaced
  allowed : b.status ∈ m.transition.allowedFrom
  keys : db.idempotencyKeys.Untouched pid

/-- A cancellation or an expiry has released the slot that it had read. -/
structure ReleaseWork (db : BookingDb) (pid : ℕ) (m : Moved) (slotId : Uuid) : Prop where
  read : m.transition.releasedSlot = some slotId
  only : db.slots.OnlyAt pid slotId
  released : Released db pid m.transition.bookingId slotId

/-- Of assignments, the call has released that of its booking. -/
structure AssignmentReleased (db : BookingDb) (pid : ℕ) (id : Uuid) : Prop where
  only : db.assignments.OnlyAt pid id
  released : ∀ a, db.assignments.Wrote pid id a → a.status = .released
  unneeded : Unneeded db pid id

/-- What the call has written of slots and assignments when it commits a transition. -/
def TransitionWork (db : BookingDb) (pid : ℕ) (m : Moved) (b : BookingEntity) : Prop :=
  match m.transition with
  | .confirm id _ => ∃ v, db.slots.row b.slotId = ⟨some v, some (pid, v.bookedBy id)⟩ ∧
      db.slots.OnlyAt pid b.slotId ∧ db.assignments.Untouched pid
  | .cancel id _ _ _ => (∃ slotId, ReleaseWork db pid m slotId) ∧ AssignmentReleased db pid id
  | .expire .. => (∃ slotId, ReleaseWork db pid m slotId) ∧ db.assignments.Untouched pid

/-- The call has inserted slots, all of them open. -/
structure SlotsWork (db : BookingDb) (pid : ℕ) : Prop where
  inserted : ∀ k v, db.slots.Wrote pid k v →
    db.slots.committed k = none ∧ v.status = .open ∧ v.heldByBookingId = none
  bookings : db.bookings.Untouched pid
  assignments : db.assignments.Untouched pid
  keys : db.idempotencyKeys.Untouched pid

/-- What the call has written when it assigns a resource. -/
def Purpose.Work (db : BookingDb) (pid : ℕ) (claim : Claim) : Purpose → Prop
  | create input => CreateWork db pid input claim
  | reschedule m => MoveClaim db pid m claim

/-- What a creation has written that was refused after its claim. -/
def LeftWork (db : BookingDb) (pid : ℕ) (input : CreateBookingInput) (claim : Claim) : Prop :=
  (ClaimWork db pid input claim ∨ CreateWork db pid input claim) ∧
    db.assignments.Untouched pid ∧ db.idempotencyKeys.Untouched pid

/-- What a call has written when it stands at a place, and what it relies on. -/
def Work (db : BookingDb) (pid : ℕ) : Place → Prop
  | .insertBooking input claim => ClaimWork db pid input claim ∧
      db.assignments.Untouched pid ∧ db.idempotencyKeys.Untouched pid
  | .refused input _ (some claim) | .replays input _ (some claim) => LeftWork db pid input claim
  | .findAssignment purpose claim | .releaseExisting purpose claim
  | .tryResource purpose claim _ _ => purpose.Work db pid claim ∧
      db.assignments.Untouched pid ∧ db.idempotencyKeys.Untouched pid
  | .insertKey input claim => CreateWork db pid input claim ∧ AssignWork db pid claim ∧
      db.idempotencyKeys.Untouched pid
  | .commitCreate input claim => CreateWork db pid input claim ∧ AssignWork db pid claim ∧
      KeyWork db pid input claim
  | .findNewSlot m | .claimNewSlot m => MoveRead db pid m ∧ db.slots.Untouched pid ∧
      db.assignments.Untouched pid ∧ db.idempotencyKeys.Untouched pid
  | .moveBooking m claim => MoveClaim db pid m claim ∧ AssignWork db pid claim ∧
      (db.bookings.committed m.input.bookingId = some m.booking →
        Unneeded db pid m.input.bookingId) ∧ db.idempotencyKeys.Untouched pid
  | .bookNewSlot m claim => MoveWork db pid m claim ∧ Claimed db pid claim ∧
      m.targetStatus = .confirmed
  | .releaseOldSlot m claim => MoveWork db pid m claim ∧ NewSlot db pid m claim ∧
      db.slots.OnlyAt pid claim.slotId
  | .commitMove m claim => MoveWork db pid m claim ∧ NewSlot db pid m claim ∧
      (∀ k, (db.slots.row k).WrittenBy pid → k = claim.slotId ∨ k = m.booking.slotId) ∧
      Released db pid m.input.bookingId m.booking.slotId
  | .bookSlot m => m.transition.releasedSlot = none ∧ (∃ b, SetWork db pid m b) ∧
      db.slots.Untouched pid ∧ db.assignments.Untouched pid
  | .releaseSlot m => (∃ b, SetWork db pid m b) ∧ db.slots.Untouched pid ∧
      db.assignments.Untouched pid
  | .releaseAssignment m => (∃ b, SetWork db pid m b) ∧ m.afterRelease = .releaseAssignment m ∧
      (∃ slotId, ReleaseWork db pid m slotId) ∧ db.assignments.Untouched pid
  | .commitTransition m => ∃ b, SetWork db pid m b ∧ TransitionWork db pid m b
  | .insertSlot _ slot => NoWork db pid ∧ slot.status = .open ∧ slot.heldByBookingId = none
  | .insertCandidates _ | .commitSlots => SlotsWork db pid
  | _ => NoWork db pid

/-! ## A step of another call -/

section Frame

variable {db db' : BookingDb} {pid q : ℕ} {id : Uuid} {claim : Claim} {m : Move} {moved : Moved}
  {b : BookingEntity} {input : CreateBookingInput}

theorem NoWork.frame (h : NoWork db pid) (hl : LeavesTo pid db db') : NoWork db' pid :=
  ⟨hl.slots.untouched h.slots, hl.bookings.untouched h.bookings,
    hl.assignments.untouched h.assignments, hl.keys.untouched h.keys⟩

theorem Claimed.frame (h : Claimed db pid claim) (hl : LeavesTo pid db db') :
    Claimed db' pid claim := by
  obtain ⟨c, hrow, hslot⟩ := h.slot
  refine ⟨⟨c, hl.slots.row_of hrow, hslot⟩, ?_, hl.slots.onlyAt h.only⟩
  rw [committed_of_row (hl.slots.row_of hrow), ← committed_of_row hrow]
  exact h.free

theorem Claimed.wrote (h : Claimed db pid claim) :
    db.slots.Wrote pid claim.slotId claim.slot ∧
      claim.slot.heldByBookingId = some claim.bookingId := by
  obtain ⟨_, hrow, hslot⟩ := h.slot
  exact ⟨wrote_of_row hrow, by rw [hslot]; rfl⟩

theorem OwnId.frame (h : OwnId db claim) (hclaim : Claimed db pid claim) (hq : q ≠ pid)
    (hg : Gives q db db') : OwnId db' claim where
  slots := by
    intro k v hv hheld
    obtain ⟨hwrote, hown⟩ := hclaim.wrote
    rcases hg.slots k v _ hv hheld with ⟨w, hw, hheld⟩ | ⟨b, hb⟩ | hnew
    · exact h.slots k w hw hheld
    · rw [h.absent] at hb
      cases hb
    · exact absurd hown (hnew _ _ (Or.inr ⟨pid, hwrote⟩))
  absent := by
    by_contra hsome
    obtain ⟨b, hb⟩ := Option.ne_none_iff_exists'.1 hsome
    obtain ⟨k, v, hv, hheld⟩ := hg.bookings _ b h.absent hb
    obtain rfl := h.slots k v (Or.inr ⟨q, hv⟩) hheld
    exact hq (Row.writtenBy_unique hv.writtenBy hclaim.wrote.1.writtenBy)

section

variable (hl : LeavesTo pid db db')
include hl

theorem ClaimWork.frame (h : ClaimWork db pid input claim)
    (hq : q ≠ pid) (hg : Gives q db db') : ClaimWork db' pid input claim :=
  ⟨h.claimed.frame hl, h.professional, h.own.frame h.claimed hq hg,
    hl.bookings.untouched h.bookings⟩

theorem CreateWork.frame (h : CreateWork db pid input claim)
    (hq : q ≠ pid) (hg : Gives q db db') : CreateWork db' pid input claim :=
  ⟨h.claimed.frame hl, h.professional, h.own.frame h.claimed hq hg,
    hl.bookings.row_of h.booking, hl.bookings.onlyAt h.only⟩

theorem LeftWork.frame (h : LeftWork db pid input claim)
    (hq : q ≠ pid) (hg : Gives q db db') : LeftWork db' pid input claim :=
  ⟨h.1.imp (·.frame hl hq hg) (·.frame hl hq hg), hl.assignments.untouched h.2.1,
    hl.keys.untouched h.2.2⟩

theorem AssignWork.frame (h : AssignWork db pid claim) :
    AssignWork db' pid claim :=
  ⟨hl.assignments.onlyAt h.only, fun a ha => h.interval a (hl.assignments.wrote_iff.1 ha)⟩

theorem KeyWork.frame (h : KeyWork db pid input claim) :
    KeyWork db' pid input claim := by
  unfold KeyWork at h ⊢
  split at h
  · exact hl.keys.untouched h
  · exact ⟨hl.keys.row_of h.1, hl.keys.onlyAt h.2⟩

theorem Unneeded.frame (h : Unneeded db pid id)
    (he : Evolves db db') (hb : db.bookings.committed id = some b)
    (hb' : db'.bookings.committed id = some b) : Unneeded db' pid id := by
  intro hnot a ha
  rw [he.assignments id b hb hb'] at ha
  exact h (fun hw => hnot (hl.assignments.writtenBy_iff.2 hw)) a ha

theorem Released.frame {slotId : Uuid} (h : Released db pid id slotId) (he : Evolves db db')
    (hb : db.bookings.committed id = some b) (hb' : db'.bookings.committed id = some b) :
    Released db' pid id slotId where
  written := by
    intro v hv
    have hw : db.slots.Wrote pid slotId v := hl.slots.wrote_iff.1 hv
    obtain ⟨c, hc, hopened⟩ := h.written v hw
    refine ⟨c, ?_, hopened⟩
    rw [committed, hl.slots.row_eq hw.writtenBy]
    exact hc
  left := by
    intro hnot c hc hheld
    obtain ⟨v, hv, hvheld⟩ := he.holders id b hb hb' slotId c hc hheld
    exact h.left (fun hw => hnot (hl.slots.writtenBy_iff.2 hw)) v hv hvheld

theorem MoveRead.frame (h : MoveRead db pid m) (he : Evolves db db') : MoveRead db' pid m where
  read := by
    obtain ⟨b, hb, hsame⟩ := h.read
    obtain ⟨b', hb', hlater⟩ := he.bookings m.input.bookingId b hb
    refine ⟨b', hb', ?_⟩
    rcases hlater with rfl | hlater
    · exact hsame
    · rcases hsame with rfl | hsame
      · exact Or.inr hlater
      · exact Or.inr (lt_trans hsame hlater)
  lock := h.lock.imp hl.bookings.untouched fun hrow =>
    ⟨hl.bookings.row_of hrow.1, hl.bookings.onlyAt hrow.2⟩
  eligible := h.eligible
  other := h.other

theorem MoveClaim.frame (h : MoveClaim db pid m claim)
    (he : Evolves db db') : MoveClaim db' pid m claim :=
  ⟨h.read.frame hl he, h.claimed.frame hl, h.bookingId, h.slotId, h.professional⟩

theorem MoveWork.frame (h : MoveWork db pid m claim)
    (he : Evolves db db') : MoveWork db' pid m claim :=
  { h with
    booking := hl.bookings.row_of h.booking
    only := hl.bookings.onlyAt h.only
    assigned := h.assigned.frame hl
    unneeded := h.unneeded.frame hl he (committed_of_row h.booking)
      (committed_of_row (hl.bookings.row_of h.booking))
    keys := hl.keys.untouched h.keys }

theorem NewSlot.frame (h : NewSlot db pid m claim) :
    NewSlot db' pid m claim := by
  obtain ⟨c, v, hrow, hrest⟩ := h
  exact ⟨c, v, hl.slots.row_of hrow, hrest⟩

theorem SetWork.frame (h : SetWork db pid moved b) :
    SetWork db' pid moved b := by
  obtain ⟨now, hrow⟩ := h.booking
  exact ⟨⟨now, hl.bookings.row_of hrow⟩, hl.bookings.onlyAt h.only, h.replaced, h.allowed,
    hl.keys.untouched h.keys⟩

end

theorem SetWork.committed (h : SetWork db pid moved b) :
    db.bookings.committed moved.transition.bookingId = some b := by
  obtain ⟨_, hrow⟩ := h.booking
  exact committed_of_row hrow

theorem ReleaseWork.frame {slotId : Uuid} (h : ReleaseWork db pid moved slotId)
    (hset : SetWork db pid moved b) (hl : LeavesTo pid db db') (he : Evolves db db') :
    ReleaseWork db' pid moved slotId :=
  ⟨h.read, hl.slots.onlyAt h.only,
    h.released.frame hl he hset.committed (hset.frame hl).committed⟩

theorem AssignmentReleased.frame (h : AssignmentReleased db pid id) (hl : LeavesTo pid db db')
    (he : Evolves db db') (hb : db.bookings.committed id = some b)
    (hb' : db'.bookings.committed id = some b) : AssignmentReleased db' pid id :=
  ⟨hl.assignments.onlyAt h.only, fun a ha => h.released a (hl.assignments.wrote_iff.1 ha),
    h.unneeded.frame hl he hb hb'⟩

theorem TransitionWork.frame (h : TransitionWork db pid moved b) (hset : SetWork db pid moved b)
    (hl : LeavesTo pid db db') (he : Evolves db db') : TransitionWork db' pid moved b := by
  have hb := hset.committed
  have hb' := (hset.frame hl).committed
  unfold TransitionWork at h ⊢
  split at h
  · obtain ⟨v, hrow, honly, hassign⟩ := h
    exact ⟨v, hl.slots.row_of hrow, hl.slots.onlyAt honly, hl.assignments.untouched hassign⟩
  · rename_i id actor reason before hm
    obtain ⟨⟨slotId, hslot⟩, hassign⟩ := h
    rw [hm] at hb hb'
    exact ⟨⟨slotId, hslot.frame hset hl he⟩, hassign.frame hl he hb hb'⟩
  · obtain ⟨⟨slotId, hslot⟩, hassign⟩ := h
    exact ⟨⟨slotId, hslot.frame hset hl he⟩, hl.assignments.untouched hassign⟩

theorem SlotsWork.frame (h : SlotsWork db pid) (hl : LeavesTo pid db db') : SlotsWork db' pid where
  inserted := by
    intro k v hv
    have hw : db.slots.Wrote pid k v := hl.slots.wrote_iff.1 hv
    rw [ReadCommitted.Versioned.committed, hl.slots.row_eq hw.writtenBy]
    exact h.inserted k v hw
  bookings := hl.bookings.untouched h.bookings
  assignments := hl.assignments.untouched h.assignments
  keys := hl.keys.untouched h.keys

theorem Purpose.Work.frame {purpose : Purpose} (h : purpose.Work db pid claim)
    (hl : LeavesTo pid db db') (he : Evolves db db') (hq : q ≠ pid) (hg : Gives q db db') :
    purpose.Work db' pid claim := by
  cases purpose with
  | create => exact CreateWork.frame hl h hq hg
  | reschedule => exact MoveClaim.frame hl h he

/-- The read a move relies on: while the booking is as it was read, so is what was found of
its assignment. -/
theorem moveUnneeded_frame (hread : MoveRead db pid m)
    (h : db.bookings.committed m.input.bookingId = some m.booking →
      Unneeded db pid m.input.bookingId)
    (hl : LeavesTo pid db db') (he : Evolves db db') :
    db'.bookings.committed m.input.bookingId = some m.booking →
      Unneeded db' pid m.input.bookingId := by
  intro hb'
  obtain ⟨b, hb, hsame⟩ := hread.read
  obtain ⟨_, hb₁, hlater⟩ := he.bookings m.input.bookingId b hb
  rw [hb'] at hb₁
  cases hb₁
  rcases hsame with rfl | hsame
  · exact (h hb).frame hl he hb hb'
  · rcases hlater with rfl | hlater
    · exact (h hb).frame hl he hb hb'
    · exact absurd (lt_trans hsame hlater) (lt_irrefl _)

theorem Work.frame {place : Place} (h : Work db pid place) (hl : LeavesTo pid db db')
    (he : Evolves db db') (hq : q ≠ pid) (hg : Gives q db db') : Work db' pid place := by
  cases place with
  | insertBooking =>
    exact ⟨h.1.frame hl hq hg, hl.assignments.untouched h.2.1, hl.keys.untouched h.2.2⟩
  | refused input failure claim =>
    cases claim with
    | none => exact NoWork.frame h hl
    | some => exact LeftWork.frame hl h hq hg
  | replays input bookingId claim =>
    cases claim with
    | none => exact NoWork.frame h hl
    | some => exact LeftWork.frame hl h hq hg
  | findAssignment | releaseExisting | tryResource =>
    exact ⟨h.1.frame hl he hq hg, hl.assignments.untouched h.2.1, hl.keys.untouched h.2.2⟩
  | insertKey =>
    exact ⟨h.1.frame hl hq hg, h.2.1.frame hl, hl.keys.untouched h.2.2⟩
  | commitCreate => exact ⟨h.1.frame hl hq hg, h.2.1.frame hl, h.2.2.frame hl⟩
  | findNewSlot | claimNewSlot =>
    exact ⟨h.1.frame hl he, hl.slots.untouched h.2.1, hl.assignments.untouched h.2.2.1,
      hl.keys.untouched h.2.2.2⟩
  | moveBooking =>
    obtain ⟨hclaim, hassign, hunneeded, hk⟩ := h
    exact ⟨hclaim.frame hl he, hassign.frame hl,
      moveUnneeded_frame hclaim.read hunneeded hl he, hl.keys.untouched hk⟩
  | bookNewSlot => exact ⟨h.1.frame hl he, h.2.1.frame hl, h.2.2⟩
  | releaseOldSlot => exact ⟨h.1.frame hl he, h.2.1.frame hl, hl.slots.onlyAt h.2.2⟩
  | commitMove =>
    obtain ⟨hmove, hnew, honly, hreleased⟩ := h
    exact ⟨hmove.frame hl he, hnew.frame hl,
      fun k hk => honly k (hl.slots.writtenBy_iff.1 hk),
      hreleased.frame hl he (committed_of_row hmove.booking)
        (committed_of_row (hmove.frame hl he).booking)⟩
  | bookSlot =>
    obtain ⟨hnone, ⟨b, hset⟩, hs, ha⟩ := h
    exact ⟨hnone, ⟨b, hset.frame hl⟩, hl.slots.untouched hs, hl.assignments.untouched ha⟩
  | releaseSlot =>
    obtain ⟨⟨b, hset⟩, hs, ha⟩ := h
    exact ⟨⟨b, hset.frame hl⟩, hl.slots.untouched hs, hl.assignments.untouched ha⟩
  | releaseAssignment =>
    obtain ⟨⟨b, hset⟩, hnext, ⟨slotId, hslot⟩, ha⟩ := h
    exact ⟨⟨b, hset.frame hl⟩, hnext, ⟨slotId, hslot.frame hset hl he⟩,
      hl.assignments.untouched ha⟩
  | commitTransition =>
    obtain ⟨b, hset, hwork⟩ := h
    exact ⟨b, hset.frame hl, hwork.frame hset hl he⟩
  | insertSlot => exact ⟨h.1.frame hl, h.2⟩
  | insertCandidates | commitSlots => exact SlotsWork.frame h hl
  | _ => exact NoWork.frame h hl

end Frame

end BeauClick.Scheduling
