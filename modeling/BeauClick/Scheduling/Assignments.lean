import BeauClick.Scheduling.Agreement

/-!
# Resource assignments follow their booking

Creation, a move and a cancellation write the booking's assignment in the transaction that
writes the booking; the sweep does not.
-/

namespace BeauClick.Scheduling

open ReadCommitted ReadCommitted.Versioned Runs Booking

/-- The assignment is at the booking's time, and the booking has not ended. -/
structure FollowedBy (b : BookingEntity) (a : BookingResourceAssignmentEntity) : Prop where
  status : b.status ≠ .cancelled ∧ b.status ≠ .expired
  start : a.startAt = b.slotStart
  «end» : a.endAt = b.slotEnd

/-- An active assignment follows its booking, and no resource is assigned twice at one time. -/
structure Follows (db : BookingDb) : Prop where
  booking : ∀ id a, db.assignments.committed id = some a → a.status = .active →
    ∃ b, db.bookings.committed id = some b ∧ FollowedBy b a
  apart : ∀ id id' a a', db.assignments.committed id = some a →
    db.assignments.committed id' = some a' → a.status = .active → a'.status = .active →
    a.resourceId = a'.resourceId →
    (∃ t, (a.startAt ≤ t ∧ t < a.endAt) ∧ a'.startAt ≤ t ∧ t < a'.endAt) → id = id'

/-- Active assignments are with their bookings. -/
def AllFollow (db : BookingDb) : Prop :=
  ∀ id a, db.assignments.committed id = some a → a.status = .active →
    ∃ b, db.bookings.committed id = some b ∧ FollowedBy b a

theorem follows_of_allFollow {db : BookingDb} (hs : Sound db) (h : AllFollow db) : Follows db where
  booking := h
  apart := by
    rintro id id' a a' ha ha' hact hact' hresource ⟨_, ⟨hat, hta⟩, ha't, hta'⟩
    exact hs.assignmentsApart.committed ha ha' ⟨hact, hact', hresource,
      lt_of_le_of_lt hat hta', lt_of_le_of_lt ha't hta⟩

section Commit

variable {db : BookingDb} {pid : ℕ} {id : Uuid} {input : CreateBookingInput} {claim : Claim}

section

variable (h : AllFollow db)
include h

/-- A commit keeps assignments with their bookings when the booking that it writes has not
ended, or has no active assignment left. -/
theorem allFollow_commit (hready : Ready db pid id)
    (hown : ∀ b a, db.bookings.Wrote pid id b → db.assignments.get pid id = some a →
      a.status = .active → FollowedBy b a) : AllFollow (db.commit pid) := by
  intro x a ha hact
  have hget : db.assignments.get pid x = some a := committed_commit.symm.trans ha
  by_cases hw : (db.bookings.row x).WrittenBy pid
  · obtain rfl := hready.only x hw
    obtain ⟨b, hb⟩ := hw
    exact ⟨b, Wrote.committed_commit hb, hown b a hb hget hact⟩
  · have hnot : ¬(db.assignments.row x).WrittenBy pid := by
      rintro ⟨a', ha'⟩
      obtain ⟨rfl, hwrit⟩ := hready.assigned x a' ha'
      exact hw hwrit
    obtain ⟨b, hb, hfollow⟩ := h x a ((get_of_not hnot).symm.trans hget) hact
    exact ⟨b, (committed_commit_of_not hw).trans hb, hfollow⟩

section

variable (hs : Sound db)
include hs

theorem allFollow_create (hcreate : CreateWork db pid input claim) (ha : AssignWork db pid claim) :
    AllFollow (db.commit pid) := by
  refine allFollow_commit h (ready_of_create hcreate ha) ?_
  intro b a hb hget hact
  obtain rfl := hb.unique (wrote_of_row hcreate.booking)
  by_cases hw : (db.assignments.row claim.bookingId).WrittenBy pid
  · obtain ⟨_, ha'⟩ := hw
    rw [Wrote.get_eq ha'] at hget
    cases hget
    obtain ⟨hstart, hend⟩ := ha.interval a ha' hact
    exact ⟨⟨by simp [newBooking], by simp [newBooking]⟩, hstart, hend⟩
  · rw [get_of_not hw] at hget
    obtain ⟨_, hb'⟩ := hs.assigned _ a hget
    rw [committed_of_row hcreate.booking] at hb'
    cases hb'

theorem allFollow_left (hleft : LeftWork db pid input claim) :
    AllFollow (db.commit pid) := by
  have hcommit := ready_of_left hleft
  obtain ⟨hclaim | hcreate, ha, -⟩ := hleft
  · exact allFollow_commit h hcommit fun b a hb => absurd hb.writtenBy (hclaim.bookings _)
  · exact allFollow_create h hs hcreate (assignWork_of_untouched ha)

theorem allFollow_move {m : Move}
    (hwork : Work db pid (.commitMove m claim)) : AllFollow (db.commit pid) := by
  obtain ⟨hmove, hnew, honly, hreleased⟩ := hwork
  refine allFollow_commit h (ready_of_move hs hmove hnew honly hreleased) ?_
  intro b a hb hget hact
  obtain rfl := hb.unique (wrote_of_row hmove.booking)
  by_cases hw : (db.assignments.row m.input.bookingId).WrittenBy pid
  · obtain ⟨_, ha'⟩ := hw
    rw [Wrote.get_eq ha'] at hget
    cases hget
    obtain ⟨hstart, hend⟩ := hmove.assigned.interval a (hmove.bookingId ▸ ha') hact
    have hmem : m.targetStatus ∈ slotHoldingStatuses := targetStatus_active hmove.eligible
    have hset : (m.set claim m.booking).status = m.targetStatus := rfl
    refine ⟨?_, hstart, hend⟩
    rw [hset]
    constructor <;> intro hstat <;> simp [hstat, slotHoldingStatuses] at hmem
  · rw [get_of_not hw] at hget
    exact absurd hact (hmove.unneeded hw a hget)

theorem allFollow_transition {m : Moved} {b : BookingEntity}
    (hset : SetWork db pid m b) (hwork : TransitionWork db pid m b)
    (hgood : m.transition.toStatus = .expired →
      ∀ a, db.assignments.committed m.transition.bookingId = some a → a.status ≠ .active) :
    AllFollow (db.commit pid) := by
  refine allFollow_commit h (ready_of_transition hs hset hwork) ?_
  intro b' a hb' hget hact
  obtain ⟨_, hrow⟩ := hset.booking
  obtain rfl := hb'.unique (wrote_of_row hrow)
  unfold TransitionWork at hwork
  split at hwork
  · rename_i id actor hm
    obtain ⟨_, -, -, ha⟩ := hwork
    obtain ⟨c, hc, hfollow⟩ := h _ a (ha.get_eq.symm.trans hget) hact
    obtain rfl : c = b := Option.some.inj (hc.symm.trans hset.committed)
    rw [hm]
    exact ⟨⟨by simp [Transition.set], by simp [Transition.set]⟩, hfollow.start, hfollow.end⟩
  · rename_i id actor reason before hm
    obtain ⟨-, ha⟩ := hwork
    have hid : m.transition.bookingId = id := by rw [hm]; rfl
    rw [hid] at hget
    by_cases hw : (db.assignments.row id).WrittenBy pid
    · obtain ⟨_, ha'⟩ := hw
      rw [Wrote.get_eq ha'] at hget
      cases hget
      rw [ha.released a ha'] at hact
      cases hact
    · rw [get_of_not hw] at hget
      exact absurd hact (ha.unneeded hw a hget)
  · rename_i id row rest expired hm
    obtain ⟨-, ha⟩ := hwork
    rw [ha.get_eq] at hget
    exact absurd hact (hgood (by rw [hm]; rfl) a hget)

theorem allFollow_commits {place next : Place} {record : Record} (hwork : Work db pid place)
    (hc : Commits place record next)
    (hgood : ∀ m, place = .commitTransition m → m.transition.toStatus = .expired →
      ∀ a, db.assignments.committed m.transition.bookingId = some a → a.status ≠ .active) :
    AllFollow (db.commit pid) := by
  have hslots : SlotsWork db pid → AllFollow (db.commit pid) := by
    intro hw
    exact allFollow_commit h (ready_of_slots hw 0) fun b a hb =>
      absurd hb.writtenBy (hw.bookings 0)
  cases hc with
  | create => exact allFollow_create h hs hwork.1 hwork.2.1
  | transition m =>
    obtain ⟨_, hset, hwork⟩ := hwork
    exact allFollow_transition h hs hset hwork (hgood m rfl)
  | move => exact allFollow_move h hs hwork
  | leaves => exact allFollow_left h hs hwork
  | replays => exact hslots (NoWork.slotsWork hwork)
  | slots => exact hslots hwork
  | absent | unmoved | lost => exact hslots (NoWork.slotsWork hwork)

end

theorem allFollow_quiet {db' : BookingDb} (hq : Quiet db db') :
    AllFollow db' := by
  intro id a ha hact
  rw [hq.assignments] at ha
  rw [hq.bookings]
  exact h id a ha hact

end

end Commit

namespace BookingSystem

/-- An expiry that commits is of a booking without an active assignment. -/
def ExpiresUnassigned (s : BookingSystem) (e : BookingStep) : Prop :=
  ∀ env m a, e.action = .statement env → s.calls e.pid = .commitTransition m →
    m.transition.toStatus = .expired →
      s.db.assignments.committed m.transition.bookingId = some a → a.status ≠ .active

section Step

variable {config : BookingConfig} {s s' : BookingSystem} {e : BookingStep}

theorem allFollow_step (hi : Invariant s) (h : AllFollow s.db) (hgood : ExpiresUnassigned s e)
    (hs : step config s e = some s') : AllFollow s'.db := by
  rcases quiet_or_commits hi hs with hquiet | ⟨env, _, _, hact, hcmt, rfl⟩
  · exact allFollow_quiet h hquiet
  · refine allFollow_commits h hi.sound (hi.work e.pid) hcmt ?_
    intro m hplace hexp a ha
    exact hgood env m a hact hplace hexp ha

theorem expiresUnassigned_of_follows (hi : Invariant s) (hs : step config s e = some s')
    (h : Follows s'.db) : ExpiresUnassigned s e := by
  intro env m a hact hplace hexp ha hactive
  have hstep : s' = s.commits e.pid (.transitioned m) (m.transition.next true) := by
    unfold step at hs
    rw [hact, hplace] at hs
    exact (Option.some.inj hs).symm
  subst hstep
  have hwork : Work s.db e.pid (s.calls e.pid) := hi.work e.pid
  rw [hplace] at hwork
  obtain ⟨b, hset, htrans⟩ := hwork
  obtain ⟨now, hrow⟩ := hset.booking
  have hunt : s.db.assignments.Untouched e.pid := by
    unfold TransitionWork at htrans
    split at htrans
    · rename_i hm
      rw [hm] at hexp
      cases hexp
    · rename_i hm
      rw [hm] at hexp
      cases hexp
    · exact htrans.2
  obtain ⟨_, hb', hfollow⟩ := h.booking m.transition.bookingId a
    ((committed_commit_of_not (hunt _)).trans ha) hactive
  have hbook : (s.db.commit e.pid).bookings.committed m.transition.bookingId =
      some (m.transition.set now b) := (wrote_of_row hrow).committed_commit
  cases hbook.symm.trans hb'
  exact hfollow.status.2 ((set_status _ _).trans hexp)

theorem expiresUnassigned_of_stuck (hs : step config s e = none) : ExpiresUnassigned s e := by
  intro env m a hact hplace
  unfold step at hs
  rw [hact, hplace] at hs
  cases hs

end Step

/-- A run keeps assignments with their bookings exactly when every expiry that commits is of a
booking that has no active assignment. -/
theorem follows_throughout_iff (config : BookingConfig) (es : List BookingStep) :
    Throughout (step config) (fun s => Follows s.db) start es ↔
      Along (step config) ExpiresUnassigned start es := by
  refine throughout_iff_along (I := fun s => Invariant s ∧ AllFollow s.db) ?_ ?_ ?_ ?_
    ⟨invariant_start, fun id a ha => by cases ha⟩ es
  · rintro s ⟨hi, h⟩
    exact follows_of_allFollow hi.sound h
  · rintro s e s' ⟨hi, h⟩ hgood hs
    exact ⟨invariant_step hi hs, allFollow_step hi h hgood hs⟩
  · rintro s e s' ⟨hi, -⟩ hs hfoll
    exact expiresUnassigned_of_follows hi hs hfoll
  · rintro s e - hs
    exact expiresUnassigned_of_stuck hs

/-- A call that resolves resource 9 where it asks. -/
def resolves (pid : ℕ) (request : Request) (statements : ℕ) (now : Instant) (newId : Uuid) :
    List BookingStep :=
  ⟨pid, .start request⟩ ::
    List.replicate statements ⟨pid, .statement ⟨now, newId, some [9], none, false, true⟩⟩

/-- A hold lapses and is swept, and another customer books the slot that is open again. -/
def sweptHold : List BookingStep :=
  publishes 0 1 7 100000000 ++ resolves 1 (.create ⟨5, 7, none, 1, none, false⟩) 6 0 50 ++
    call 2 (.expireStaleHolds 100) 5 1000000 0 ++
    resolves 3 (.create ⟨6, 7, none, 1, none, false⟩) 6 1000000 60

/-- The resource stays with the booking that has expired, and the other one is refused. -/
theorem follows_sweptHold_fails : ∃ s, runFrom (step .default) start sweptHold = some s ∧
    s.Quiescent ∧ ¬Follows s.db ∧ s.calls 3 = .threw .slotUnavailable := by
  obtain ⟨s, hs, hdone, href, ⟨a, ha, hact⟩, b, hb, hexp⟩ :
      ∃ s ∈ runFrom (step .default) start sweptHold,
        (∀ e ∈ sweptHold, (s.calls e.pid).running = false) ∧
        s.calls 3 = .threw .slotUnavailable ∧
        (∃ a ∈ s.db.assignments.committed 50, a.status = .active) ∧
        ∃ b ∈ s.db.bookings.committed 50, b.status = .expired := by
    decide +kernel
  refine ⟨s, hs, quiescent_of_run hs hdone, ?_, href⟩
  intro hfoll
  obtain ⟨_, hb', hfollow⟩ := hfoll.booking 50 a ha hact
  cases hb.symm.trans hb'
  exact hfollow.status.2 hexp

end BookingSystem

end BeauClick.Scheduling
