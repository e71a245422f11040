import BeauClick.Scheduling.Invariant

/-!
# Slots and bookings agree

A pending booking's slot is held for it and a confirmed booking's slot is booked by it.  A slot
leaks when a cancellation or the sweep releases a slot that is not the booking's any more, and it is
taken from a pending booking whose hold has lapsed when a creation leaves its claim there.
-/

namespace BeauClick.Scheduling

open ReadCommitted ReadCommitted.Versioned Runs Booking Option

namespace BookingSystem

/-! ## No double booking -/

/-- Two active bookings of one professional, on one slot or at one time. -/
structure DoubleBooked (b c : BookingEntity) : Prop where
  professional : b.professionalId = c.professionalId
  active : b.status ∈ slotHoldingStatuses ∧ c.status ∈ slotHoldingStatuses
  meet : b.slotId = c.slotId ∨
    ∃ t, (b.slotStart ≤ t ∧ t < b.slotEnd) ∧ c.slotStart ≤ t ∧ t < c.slotEnd

theorem DoubleBooked.slotId_eq {db : BookingDb} (hs : Sound db) {id id' : Uuid}
    {b c : BookingEntity} (hb : db.bookings.committed id = some b)
    (hc : db.bookings.committed id' = some c) (h : DoubleBooked b c) : b.slotId = c.slotId := by
  rcases h.meet with hslot | ⟨_, ⟨hbt, htb⟩, hct, htc⟩
  · exact hslot
  · obtain ⟨_, hv, hbv⟩ := hs.copied id b hb
    obtain ⟨_, hw, hcw⟩ := hs.copied id' c hc
    refine hs.slotsApart.committed hv hw ⟨?_, Or.inr ⟨?_, ?_⟩⟩
    · rw [← hbv.professional, ← hcw.professional, h.professional]
    · rw [← hbv.start, ← hcw.end]
      exact lt_of_le_of_lt hbt htc
    · rw [← hcw.start, ← hbv.end]
      exact lt_of_le_of_lt hct htb

/-- In every reachable state no two active bookings of a professional are double booked, and an
active booking has the interval of its slot. -/
theorem noDoubleBooking {config : BookingConfig} {es : List BookingStep} {s : BookingSystem}
    (h : runFrom (step config) start es = some s) :
    (∀ id id' b c, s.db.bookings.committed id = some b → s.db.bookings.committed id' = some c →
      DoubleBooked b c → id = id') ∧
    ∀ id b, s.db.bookings.committed id = some b → b.status ∈ slotHoldingStatuses →
      ∃ v, s.db.slots.committed b.slotId = some v ∧ b.slotStart = v.startAt ∧
        b.slotEnd = v.endAt := by
  have hs : Sound s.db := (invariant_run h).sound
  constructor
  · intro id id' b c hb hc hdouble
    have hslot : b.slotId = c.slotId := hdouble.slotId_eq hs hb hc
    exact hs.bookingsApart.committed hb hc ⟨hdouble.active.1, hdouble.active.2, hslot⟩
  · intro id b hb _
    obtain ⟨v, hv, hcopied⟩ := hs.copied id b hb
    exact ⟨v, hv, hcopied.start, hcopied.end⟩

/-- Two slots of a professional are booked by two customers, and the first booking is moved. -/
def twoBookings : List BookingStep :=
  publishes 0 1 7 100000000 ++ publishes 1 2 7 103600000 ++ publishes 2 3 7 107200000 ++
    books 3 5 1 50 0 ++ books 4 6 2 60 0 ++ call 5 (.confirm 50 systemActor) 4 0 0 ++
    call 6 (.reschedule ⟨50, 3, theCustomer, none, false⟩) 8 0 0

theorem noDoubleBooking_twoBookings : ∃ s, runFrom (step .default) start twoBookings = some s ∧
    (∀ id id' b c, s.db.bookings.committed id = some b → s.db.bookings.committed id' = some c →
      DoubleBooked b c → id = id') ∧
    ∀ id b, s.db.bookings.committed id = some b → b.status ∈ slotHoldingStatuses →
      ∃ v, s.db.slots.committed b.slotId = some v ∧ b.slotStart = v.startAt ∧
        b.slotEnd = v.endAt := by
  have hrun : (runFrom (step .default) start twoBookings).isSome = true := by decide +kernel
  obtain ⟨s, hs⟩ := isSome_iff_exists.1 hrun
  exact ⟨s, hs, noDoubleBooking hs⟩

/-! ## Agreement -/

/-- Slots and bookings agree. -/
structure Agree (s : BookingSystem) : Prop where
  pending : ∀ id b, s.db.bookings.committed id = some b → b.status = .pending →
    ∃ v, s.db.slots.committed b.slotId = some v ∧ v.status = .held ∧ v.heldByBookingId = some id
  confirmed : ∀ id b, s.db.bookings.committed id = some b → b.status = .confirmed →
    ∃ v, s.db.slots.committed b.slotId = some v ∧ v.status = .booked ∧
      v.heldByBookingId = some id
  ended : ∀ k v id b, s.db.slots.committed k = some v → v.heldByBookingId = some id →
    s.db.bookings.committed id = some b → b.status ≠ .cancelled ∧ b.status ≠ .expired

/-- No slot is kept for a booking that has ended. -/
def NoLeak (db : BookingDb) : Prop :=
  ∀ k v id b, db.slots.committed k = some v → v.heldByBookingId = some id →
    db.bookings.committed id = some b → b.status ≠ .cancelled ∧ b.status ≠ .expired

/-- The slot of every active booking is kept for it. -/
def NoneTaken (db : BookingDb) : Prop :=
  ∀ id b, db.bookings.committed id = some b → b.status ∈ slotHoldingStatuses →
    ∃ v, db.slots.committed b.slotId = some v ∧ KeptFor id b v

theorem agree_of_noLeak {s : BookingSystem} (htaken : NoneTaken s.db) (h : NoLeak s.db) :
    Agree s where
  pending := by
    intro id b hb hpend
    obtain ⟨v, hv, hheld, hstat⟩ := htaken id b hb (by simp [hpend, slotHoldingStatuses])
    exact ⟨v, hv, by rw [hstat, hpend]; rfl, hheld⟩
  confirmed := by
    intro id b hb hconf
    obtain ⟨v, hv, hheld, hstat⟩ :=
      htaken id b hb (by simp [hconf, slotHoldingStatuses])
    exact ⟨v, hv, by rw [hstat, hconf]; rfl, hheld⟩
  ended := h

/-- A cancellation or an expiry that commits has released the slot that the booking has. -/
def ReleasesItsSlot (s : BookingSystem) (e : BookingStep) : Prop :=
  ∀ env m slotId b, e.action = .statement env → s.calls e.pid = .commitTransition m →
    m.transition.releasedSlot = some slotId →
      s.db.bookings.committed m.transition.bookingId = some b → b.slotId = slotId

/-- A claim that a refused creation leaves is of a slot that no pending booking is on. -/
def LeavesVacant (s : BookingSystem) (e : BookingStep) : Prop :=
  ∀ env input bookingId claim id b, e.action = .statement env →
    s.calls e.pid = .replays input bookingId (some claim) →
      s.db.bookings.committed id = some b → b.status = .pending → b.slotId ≠ claim.slotId

section Step

variable {config : BookingConfig} {s s' : BookingSystem} {e : BookingStep} {db db' : BookingDb}
  {pid : ℕ} {id : Uuid} {m : Moved} {b : BookingEntity} {place next : Place} {record : Record}

theorem noLeak_commit (h : NoLeak db) (hready : Ready db pid id)
    (hended : ∀ b, db.bookings.Wrote pid id b → b.status ∉ slotHoldingStatuses →
      ∀ k v, db.slots.committed k = some v → v.heldByBookingId = some id →
        (db.slots.row k).WrittenBy pid) : NoLeak (db.commit pid) := by
  intro k v x b hv hheld hb
  have hactive : b.status ∈ slotHoldingStatuses → b.status ≠ .cancelled ∧ b.status ≠ .expired := by
    intro hmem
    constructor <;> intro hstat <;> simp [hstat, slotHoldingStatuses] at hmem
  rcases commit_slots hv with hw | ⟨hnot, hv⟩
  · cases hready.slot k v hw with
    | opened _ hnone =>
      rw [hnone] at hheld
      cases hheld
    | own hid b' hb' _ hact =>
      rw [hid] at hheld
      cases hheld
      rcases commit_bookings hready hb with ⟨-, hb⟩ | ⟨hnot, -⟩
      · exact hb'.unique hb ▸ hactive (hb.unique hb' ▸ hact)
      · exact absurd hb'.writtenBy hnot
    | left hid _ habs hnot =>
      rw [hid] at hheld
      cases hheld
      rcases commit_bookings hready hb with ⟨-, hb⟩ | ⟨-, hb⟩
      · exact absurd hb.writtenBy hnot
      rw [habs] at hb
      cases hb
  · rcases commit_bookings hready hb with ⟨rfl, hb⟩ | ⟨-, hb⟩
    · by_contra hend
      exact hnot (hended b hb (fun hmem => hend (hactive hmem)) k v hv hheld)
    · exact h k v x b hv hheld hb

section

variable (hs : Sound db)
include hs

theorem noneTaken_commit (h : NoneTaken db) (hready : Ready db pid id)
    (hleft : ∀ k v, db.slots.Wrote pid k v → v.heldByBookingId = some id →
      db.bookings.committed id = none → ¬(db.bookings.row id).WrittenBy pid →
        ∀ x b, db.bookings.committed x = some b → b.status = .pending → b.slotId ≠ k) :
    NoneTaken (db.commit pid) := by
  intro x b hb hact
  obtain ⟨v, hv, hkept | ⟨hpend, -, y, hy, hnone⟩⟩ := commit_active hs hready x b hb hact
  · exact ⟨v, hv, hkept⟩
  exfalso
  rcases commit_slots hv with hw | ⟨hnot, hv⟩
  · cases hready.slot b.slotId v hw with
    | opened _ hopen =>
      rw [hopen] at hy
      cases hy
    | own hid b' hb' =>
      rw [hid] at hy
      cases hy
      have hthere : (db.commit pid).bookings.committed id = some b' := hb'.committed_commit
      rw [hthere] at hnone
      cases hnone
    | left hid _ habs hunwr =>
      rcases commit_bookings hready hb with ⟨rfl, hb⟩ | ⟨-, hb⟩
      · exact hunwr hb.writtenBy
      · exact hleft b.slotId v hw hid habs hunwr x b hb hpend rfl
  · rcases commit_bookings hready hb with ⟨rfl, hb⟩ | ⟨-, hb'⟩
    · exact hnot (hready.active b hb hact)
    · obtain ⟨v', hv', hheld, -⟩ := h x b hb' hact
      obtain rfl : v' = v := some.inj (hv'.symm.trans hv)
      obtain rfl : x = y := some.inj (hheld.symm.trans hy)
      rw [hb] at hnone
      cases hnone

theorem released_all {slotId : Uuid} (hset : SetWork db pid m b)
    (hr : ReleaseWork db pid m slotId) (hslot : b.slotId = slotId) {k : Uuid}
    {v : AvailabilitySlotEntity} (hv : db.slots.committed k = some v)
    (hheld : v.heldByBookingId = some m.transition.bookingId) : (db.slots.row k).WrittenBy pid := by
  obtain rfl := hs.holder k v _ b hv hheld hset.committed
  by_contra hnot
  rw [hslot] at hnot hv
  exact hr.released.left hnot v hv hheld

theorem noLeak_transition (h : NoLeak db) (hset : SetWork db pid m b)
    (hwork : TransitionWork db pid m b)
    (hgood : ∀ slotId, m.transition.releasedSlot = some slotId → b.slotId = slotId) :
    NoLeak (db.commit pid) := by
  refine noLeak_commit h (ready_of_transition hs hset hwork) ?_
  intro b' hb' hended k v hv hheld
  unfold TransitionWork at hwork
  split at hwork
  · rename_i id actor hm
    obtain ⟨_, hrow⟩ := hset.booking
    have hstat : b'.status = .confirmed := by
      rw [hb'.unique (wrote_of_row hrow), hm]
      rfl
    exact absurd (by simp [hstat, slotHoldingStatuses]) hended
  · obtain ⟨⟨slotId, hr⟩, -⟩ := hwork
    exact released_all hs hset hr (hgood slotId hr.read) hv hheld
  · obtain ⟨⟨slotId, hr⟩, -⟩ := hwork
    exact released_all hs hset hr (hgood slotId hr.read) hv hheld

theorem noLeak_commits (h : NoLeak db) (hwork : Work db pid place)
    (hc : Commits place record next) (hgood : ∀ m slotId b, place = .commitTransition m →
      m.transition.releasedSlot = some slotId →
        db.bookings.committed m.transition.bookingId = some b → b.slotId = slotId) :
    NoLeak (db.commit pid) := by
  have hslots : SlotsWork db pid → NoLeak (db.commit pid) := by
    intro hw
    exact noLeak_commit h (ready_of_slots hw 0) fun b hb => absurd hb.writtenBy (hw.bookings 0)
  cases hc with
  | create =>
    refine noLeak_commit h (ready_of_create hwork.1 hwork.2.1) ?_
    intro b hb hended
    rw [hb.unique (wrote_of_row hwork.1.booking)] at hended
    exact absurd (slotHoldingStatuses_pending rfl) hended
  | leaves =>
    refine noLeak_commit h (ready_of_left hwork) ?_
    intro b hb hended
    rcases hwork.1 with hclaim | hcreate
    · exact absurd hb.writtenBy (hclaim.bookings _)
    rw [hb.unique (wrote_of_row hcreate.booking)] at hended
    exact absurd (slotHoldingStatuses_pending rfl) hended
  | replays => exact hslots (NoWork.slotsWork hwork)
  | transition m =>
    obtain ⟨b, hset, hwork⟩ := hwork
    exact noLeak_transition hs h hset hwork fun slotId hread =>
      hgood m slotId b rfl hread hset.committed
  | move =>
    refine noLeak_commit h (ready_of_move hs hwork.1 hwork.2.1 hwork.2.2.1 hwork.2.2.2) ?_
    intro b hb hended
    rw [hb.unique (wrote_of_row hwork.1.booking)] at hended
    exact absurd (targetStatus_active hwork.1.eligible) hended
  | slots => exact hslots hwork
  | absent | unmoved | lost => exact hslots (NoWork.slotsWork hwork)

theorem noneTaken_commits (h : NoneTaken db) (hwork : Work db pid place)
    (hc : Commits place record next)
    (hgood : ∀ input bookingId claim x b, place = .replays input bookingId (some claim) →
      db.bookings.committed x = some b → b.status = .pending → b.slotId ≠ claim.slotId) :
    NoneTaken (db.commit pid) := by
  have hslots : SlotsWork db pid → NoneTaken (db.commit pid) := by
    intro hw
    refine noneTaken_commit hs h (ready_of_slots hw 0) ?_
    intro k v hv hheld
    rw [(hw.inserted k v hv).2.2] at hheld
    cases hheld
  cases hc with
  | create =>
    refine noneTaken_commit hs h (ready_of_create hwork.1 hwork.2.1) ?_
    intro k v _ _ _ hnot
    exact absurd (wrote_of_row hwork.1.booking).writtenBy hnot
  | transition =>
    obtain ⟨b, hset, hwork⟩ := hwork
    refine noneTaken_commit hs h (ready_of_transition hs hset hwork) ?_
    intro k v _ _ hnone
    rw [hset.committed] at hnone
    cases hnone
  | move =>
    refine noneTaken_commit hs h (ready_of_move hs hwork.1 hwork.2.1 hwork.2.2.1 hwork.2.2.2) ?_
    intro k v _ _ _ hnot
    exact absurd (wrote_of_row hwork.1.booking).writtenBy hnot
  | leaves input bookingId claim =>
    refine noneTaken_commit hs h (ready_of_left hwork) ?_
    intro k v hv hheld _ _ x b hb hpend
    have hown : OwnId db claim := hwork.1.elim (·.own) (·.own)
    obtain rfl := hown.slots k v (Or.inr ⟨pid, hv⟩) hheld
    exact hgood input bookingId claim x b rfl hb hpend
  | replays => exact hslots (NoWork.slotsWork hwork)
  | slots => exact hslots hwork
  | absent | unmoved | lost => exact hslots (NoWork.slotsWork hwork)

end

theorem noneTaken_quiet (hs' : Sound db') (h : NoneTaken db) (hq : Quiet db db') :
    NoneTaken db' := by
  intro id b hb hact
  have hb' := hb
  rw [hq.bookings] at hb'
  obtain ⟨v, hv, hkept⟩ := h id b hb' hact
  obtain ⟨v', hv', -⟩ := hs'.copied id b hb
  obtain rfl : v = v' := some.inj (hv.symm.trans (hq.slots _ _ hv'))
  exact ⟨v, hv', hkept⟩

theorem noLeak_quiet (h : NoLeak db) (hq : Quiet db db') : NoLeak db' := by
  intro k v id b hv hheld hb
  rw [hq.bookings] at hb
  exact h k v id b (hq.slots k v hv) hheld hb

section

variable (hs : step config s e = some s')
include hs

section

variable (hi : Invariant s)
include hi

theorem noLeak_step (h : NoLeak s.db) (hgood : ReleasesItsSlot s e) : NoLeak s'.db := by
  rcases quiet_or_commits hi hs with hquiet | ⟨env, _, _, hact, hcmt, rfl⟩
  · exact noLeak_quiet h hquiet
  · refine noLeak_commits hi.sound h (hi.work e.pid) hcmt ?_
    intro m slotId b hplace hread hb
    exact hgood env m slotId b hact hplace hread hb

theorem noneTaken_step (h : NoneTaken s.db) (hgood : LeavesVacant s e) : NoneTaken s'.db := by
  have hsound : Sound s'.db := (invariant_step hi hs).sound
  rcases quiet_or_commits hi hs with hquiet | ⟨env, _, _, hact, hcmt, rfl⟩
  · exact noneTaken_quiet hsound h hquiet
  · refine noneTaken_commits hi.sound h (hi.work e.pid) hcmt ?_
    intro input bookingId claim x b hplace hb hpend
    exact hgood env input bookingId claim x b hact hplace hb hpend

theorem releasesItsSlot_of_noLeak (htaken : NoneTaken s.db) (h : NoLeak s'.db) :
    ReleasesItsSlot s e := by
  intro env m slotId b hact hplace hread hb
  have hstep : s' = s.commits e.pid (.transitioned m) (m.transition.next true) := by
    unfold step at hs
    rw [hact, hplace] at hs
    exact (some.inj hs).symm
  subst hstep
  have hwork : Work s.db e.pid (s.calls e.pid) := hi.work e.pid
  rw [hplace] at hwork
  obtain ⟨b', hset, htrans⟩ := hwork
  obtain rfl : b' = b := some.inj (hset.committed.symm.trans hb)
  obtain ⟨now, hrow⟩ := hset.booking
  obtain ⟨v, hv, hheld, -⟩ := htaken _ b' hb (allowedFrom_active hset.allowed)
  by_contra hne
  -- the booking's slot is not the one that was read: nothing has been written to it
  have hnot : ∀ slotId', ReleaseWork s.db e.pid m slotId' →
      ¬(s.db.slots.row b'.slotId).WrittenBy e.pid := by
    intro slotId' hr hw
    have hslot : slotId' = slotId := some.inj (hr.read.symm.trans hread)
    exact hne (hslot ▸ hr.only _ hw)
  have hleak : ∀ slotId', ReleaseWork s.db e.pid m slotId' →
      m.transition.toStatus ≠ .cancelled ∧ m.transition.toStatus ≠ .expired := by
    intro slotId' hr
    have hslot := (committed_commit_of_not (hnot slotId' hr)).trans hv
    have hbook : (s.db.commit e.pid).bookings.committed m.transition.bookingId =
        some (m.transition.set now b') := (wrote_of_row hrow).committed_commit
    have hended := h _ v _ _ hslot hheld hbook
    rwa [set_status] at hended
  unfold TransitionWork at htrans
  split at htrans
  · rename_i id actor hm
    rw [hm] at hread
    cases hread
  · rename_i id actor reason before hm
    obtain ⟨⟨slotId', hr⟩, -⟩ := htrans
    exact (hleak slotId' hr).1 (by rw [hm]; rfl)
  · rename_i id row rest expired hm
    obtain ⟨⟨slotId', hr⟩, -⟩ := htrans
    exact (hleak slotId' hr).2 (by rw [hm]; rfl)

theorem leavesVacant_of_agree (h : Agree s') : LeavesVacant s e := by
  rintro env input bookingId claim id b hact hplace hb hpend hslot
  have hstep : s' = s.commits e.pid (.left input claim) (.returned (.booking bookingId)) := by
    unfold step at hs
    rw [hact, hplace] at hs
    exact (some.inj hs).symm
  subst hstep
  have hwork : Work s.db e.pid (s.calls e.pid) := hi.work e.pid
  rw [hplace] at hwork
  have hclaim : Claimed s.db e.pid claim := hwork.1.elim (·.claimed) (·.claimed)
  have hown : OwnId s.db claim := hwork.1.elim (·.own) (·.own)
  have honly : s.db.bookings.OnlyAt e.pid claim.bookingId :=
    hwork.1.elim (·.bookings.onlyAt) (·.only)
  have hne : id ≠ claim.bookingId := by
    rintro rfl
    rw [hown.absent] at hb
    cases hb
  have hnot : ¬(s.db.bookings.row id).WrittenBy e.pid := fun hw => hne (honly id hw)
  obtain ⟨_, hv, -, hheld⟩ := h.pending id b ((committed_commit_of_not hnot).trans hb) hpend
  have hslots : (s.db.commit e.pid).slots.committed claim.slotId = some claim.slot :=
    hclaim.wrote.1.committed_commit
  cases hslots.symm.trans (hslot ▸ hv)
  exact hne (some.inj (hheld.symm.trans hclaim.wrote.2))

end

end

theorem releasesItsSlot_of_stuck (hs : step config s e = none) : ReleasesItsSlot s e := by
  intro env m slotId b hact hplace
  unfold step at hs
  rw [hact, hplace] at hs
  cases hs

theorem leavesVacant_of_stuck (hs : step config s e = none) : LeavesVacant s e := by
  intro env input bookingId claim id b hact hplace
  unfold step at hs
  rw [hact, hplace] at hs
  cases hs

end Step

/-- A run keeps slots and bookings in agreement exactly when every cancellation and every expiry
that commits has read the slot that its booking has, and every claim that is left is of a slot that
no pending booking is on. -/
theorem agree_throughout_iff (config : BookingConfig) (es : List BookingStep) :
    Throughout (step config) Agree start es ↔
      Along (step config) (fun s e => ReleasesItsSlot s e ∧ LeavesVacant s e) start es := by
  refine throughout_iff_along (I := fun s => Invariant s ∧ NoLeak s.db ∧ NoneTaken s.db) ?_ ?_ ?_
    ?_ ⟨invariant_start, ?_, ?_⟩ es
  · rintro s ⟨-, h, htaken⟩
    exact agree_of_noLeak htaken h
  · rintro s e s' ⟨hi, h, htaken⟩ ⟨hreleases, hleaves⟩ hs
    exact ⟨invariant_step hi hs, noLeak_step hs hi h hreleases,
      noneTaken_step hs hi htaken hleaves⟩
  · rintro s e s' ⟨hi, -, htaken⟩ hs hagree
    exact ⟨releasesItsSlot_of_noLeak hs hi htaken hagree.ended, leavesVacant_of_agree hs hi hagree⟩
  · rintro s e - hs
    exact ⟨releasesItsSlot_of_stuck hs, leavesVacant_of_stuck hs⟩
  · intro k v id b hv
    cases hv
  · intro id b hb
    cases hb

/-- A cancellation has read the booking, which is then moved, and goes on. -/
def movedAway : List BookingStep :=
  publishes 0 1 7 100000000 ++ publishes 1 2 7 103600000 ++ books 2 5 1 50 0 ++
    call 3 (.cancel 50 theCustomer none) 1 0 0 ++
    call 4 (.reschedule ⟨50, 2, theCustomer, none, false⟩) 7 0 0 ++
    List.replicate 5 (takes 3 0 0)

/-- The slot that the booking was moved to stays held for a booking that is cancelled. -/
theorem agree_movedAway_fails : ∃ s, runFrom (step .default) start movedAway = some s ∧
    s.Quiescent ∧ ¬s.Agree := by
  obtain ⟨s, hs, hdone, ⟨v, hv, hheld⟩, b, hb, hstat⟩ :
      ∃ s ∈ runFrom (step .default) start movedAway,
        (∀ e ∈ movedAway, (s.calls e.pid).running = false) ∧
        (∃ v ∈ s.db.slots.committed 2, v.heldByBookingId = some 50) ∧
        ∃ b ∈ s.db.bookings.committed 50, b.status = .cancelled := by
    decide +kernel
  exact ⟨s, hs, quiescent_of_run hs hdone, fun hagree =>
    (hagree.ended 2 v 50 b hv hheld hb).1 hstat⟩

end BookingSystem

end BeauClick.Scheduling
