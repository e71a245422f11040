import BeauClick.Scheduling.Calls

/-!
# What each statement can do

One lemma for a statement says all that it can have done when the call goes on after it: the
guard it found to hold, the row it wrote, and the next place.
-/

namespace BeauClick.Scheduling

open ReadCommitted ReadCommitted.Versioned Runs Booking

section Statements

variable {config : BookingConfig} {env : Env} {db db' : BookingDb} {pid : ℕ} {place next : Place}
  {input : CreateBookingInput} {claim : Claim} {purpose : Purpose} {bookingId slotId : Uuid}
  {m : Moved}

/-! ## Creation -/

theorem countHolds_eq_goes (h : countHolds config db pid input = .goes db' place) :
    db' = db ∧ place = .claimSlot input ∧
      (db.bookings.select pid fun b =>
        b.customerId = input.customerId ∧ b.status = .pending).length <
        config.maxConcurrentHoldsPerCustomer := by
  unfold countHolds at h
  split at h
  · cases h
  rename_i hcap
  cases h
  exact ⟨rfl, rfl, not_le.1 hcap⟩

theorem claimForCreate_eq_goes (h : claimForCreate config env db pid input = .goes db' place) :
    ∃ slot, db.slots.get pid input.slotId = some slot ∧
      slot.Claimable input.professionalId env.now ∧ ¬(db.slots.row input.slotId).Locked pid ∧
      db.Unused env.newId ∧
      db' = db.writeSlot pid input.slotId
        (slot.heldFor env.newId (config.holdUntil env.now)) ∧
      place = .insertBooking input ⟨env.newId, input.slotId,
        slot.heldFor env.newId (config.holdUntil env.now), config.holdUntil env.now⟩ := by
  unfold claimForCreate at h
  split at h
  · cases h
  rename_i hunused
  split at h
  · cases h
  · cases h
  · cases h
  rename_i row slots hclaim
  split at h
  · cases h
  obtain ⟨slot, hget, hfree, hlock, rfl, rfl⟩ := update_eq_done hclaim
  cases h
  exact ⟨slot, hget, hfree, hlock, not_not.1 hunused, rfl, rfl⟩

theorem insertBooking_eq_goes (h : insertBooking db pid input claim = .goes db' place) :
    ¬(db.bookings.row claim.bookingId).Locked pid ∧
      db.bookings.get pid claim.bookingId = none ∧
      (∀ id ≠ claim.bookingId, ∀ b, (db.bookings.row id).Version b →
        ¬SameActiveSlot (newBooking input claim) b) ∧
      db' = db.writeBooking pid claim.bookingId (newBooking input claim) ∧
      place = .findAssignment (.create input) claim := by
  unfold insertBooking at h
  split at h
  · cases h
  · cases h
  · cases h
  rename_i row bookings hins
  obtain ⟨rfl, rfl, hlock, hget, hfree⟩ := insert_eq_done hins
  cases h
  exact ⟨hlock, hget, hfree, rfl, rfl⟩

theorem findAssignment_eq_goes (h : findAssignment env db pid purpose claim = .goes db' place) :
    db' = db ∧ (place = .releaseExisting purpose claim ∨
      place = purpose.next claim ∧
        (∀ a, db.assignments.get pid claim.bookingId = some a → a.status ≠ .active) ∨
      ∃ existing candidates, place = .tryResource purpose claim existing candidates) := by
  unfold findAssignment at h
  dsimp only at h
  split at h
  · split at h
    · cases h
      exact ⟨rfl, Or.inl rfl⟩
    · rename_i hnot
      cases h
      refine ⟨rfl, Or.inr (Or.inl ⟨rfl, ?_⟩)⟩
      intro a ha hact
      exact hnot (by rw [ha, Option.map_some, hact])
  · cases h
  · cases h
    exact ⟨rfl, Or.inr (Or.inr ⟨_, _, rfl⟩)⟩

theorem releaseExisting_eq_goes (h : releaseExisting db pid purpose claim = .goes db' place) :
    place = purpose.next claim ∧
      (db' = db ∧ db.assignments.get pid claim.bookingId = none ∨
      ∃ a, ¬(db.assignments.row claim.bookingId).Locked pid ∧
        db.assignments.get pid claim.bookingId = some a ∧
        db' = db.writeAssignment pid claim.bookingId a.release) := by
  unfold releaseExisting at h
  split at h
  · cases h
  · rename_i hnone
    cases h
    refine ⟨rfl, Or.inl ⟨rfl, ?_⟩⟩
    cases hget : db.assignments.get pid claim.bookingId with
    | none => rfl
    | some a => exact absurd trivial (update_eq_unmatched hnone a hget)
  · cases h
  · rename_i row assignments hupd
    obtain ⟨a, hget, -, hlock, rfl, rfl⟩ := update_eq_done hupd
    cases h
    exact ⟨rfl, Or.inr ⟨a, hlock, hget, rfl⟩⟩

theorem tryResource_eq_goes {existing : Bool} {candidates : List Uuid}
    (h : tryResource env db pid purpose claim existing candidates = .goes db' place) :
    (db' = db ∧ ∃ rest, place = .tryResource purpose claim existing rest) ∨
      place = purpose.next claim ∧
        (db' = db ∧ db.assignments.get pid claim.bookingId = none ∨
        ∃ resourceId, ¬(db.assignments.row claim.bookingId).Locked pid ∧
          (∀ id ≠ claim.bookingId, ∀ a, (db.assignments.row id).Version a →
            ¬AssignmentConflict (newAssignment claim resourceId) a) ∧
          db' = db.writeAssignment pid claim.bookingId (newAssignment claim resourceId)) := by
  cases candidates with
  | nil => simp [tryResource] at h
  | cons resourceId rest =>
    unfold tryResource at h
    dsimp only at h
    split at h
    · cases h
      exact Or.inl ⟨rfl, rest, rfl⟩
    · split at h
      · cases h
      · rename_i hnone
        cases h
        refine Or.inr ⟨rfl, Or.inl ⟨rfl, ?_⟩⟩
        cases existing with
        | true => exact get_eq_none_of_updateChecked hnone
        | false => exact absurd hnone insert_ne_unmatched
      · cases h
        exact Or.inl ⟨rfl, rest, rfl⟩
      · rename_i row assignments hwrite
        cases h
        refine Or.inr ⟨rfl, Or.inr ⟨resourceId, ?_⟩⟩
        cases existing with
        | true =>
          obtain ⟨_, -, -, hlock, -, rfl, hfree⟩ := updateChecked_eq_done hwrite
          exact ⟨hlock, hfree, rfl⟩
        | false =>
          obtain ⟨-, rfl, hlock, -, hfree⟩ := insert_eq_done hwrite
          exact ⟨hlock, hfree, rfl⟩

theorem insertKey_eq_goes (h : insertKey db pid input claim = .goes db' place) :
    place = .commitCreate input claim ∧
      (input.idempotencyKey = none ∧ db' = db ∨
      ∃ key, input.idempotencyKey = some key ∧
        ¬(db.idempotencyKeys.row (input.customerId, key)).Locked pid ∧
        db.idempotencyKeys.get pid (input.customerId, key) = none ∧
        db' = db.writeKey pid (input.customerId, key) claim.bookingId) := by
  unfold insertKey at h
  split at h
  · rename_i hnone
    cases h
    exact ⟨rfl, Or.inl ⟨hnone, rfl⟩⟩
  · rename_i key hkey
    split at h
    · cases h
    · cases h
    · cases h
    rename_i row keys hins
    obtain ⟨rfl, rfl, hlock, hget, -⟩ := insert_eq_done hins
    cases h
    exact ⟨rfl, Or.inr ⟨key, hkey, hlock, hget, rfl⟩⟩

/-! ## Transitions -/

theorem findBefore_eq_goes {actor : BookingActor} {reason : Option String}
    (h : findBefore db pid bookingId actor reason = .goes db' place) :
    db' = db ∧ ∃ before, db.bookings.get pid bookingId = some before ∧
      place = .findCurrent (.cancel bookingId actor reason before) := by
  unfold findBefore at h
  split at h
  · cases h
  rename_i before hget
  cases h
  exact ⟨rfl, before, hget, rfl⟩

theorem findCurrent_eq_goes {t : Transition} (h : findCurrent db pid t = .goes db' place) :
    db' = db ∧ ∃ b, db.bookings.get pid t.bookingId = some b ∧ b.status ∈ t.allowedFrom ∧
      place = .compareAndSet t b.status := by
  unfold findCurrent at h
  split at h
  · cases h
  rename_i b hget
  split at h
  · rename_i hallow
    cases h
    exact ⟨rfl, b, hget, hallow, rfl⟩
  · cases h

theorem compareAndSet_eq_goes {t : Transition} {current : BookingStatus}
    (h : compareAndSet env db pid t current = .goes db' place) :
    ∃ b, db.bookings.get pid t.bookingId = some b ∧ b.status ∈ t.allowedFrom ∧
      ¬(db.bookings.row t.bookingId).Locked pid ∧
      db' = db.writeBooking pid t.bookingId (t.set env.now b) ∧
      place = Moved.afterSet ⟨t, current, b.status⟩ := by
  unfold compareAndSet at h
  split at h
  · cases h
  rename_i b hget
  split at h
  · cases h
  · cases h
  · cases h
  rename_i row bookings hupd
  obtain ⟨_, hget', hallow, hlock, rfl, rfl⟩ := update_eq_done hupd
  rw [hget] at hget'
  cases hget'
  cases h
  exact ⟨b, hget, hallow, hlock, rfl, rfl⟩

theorem bookSlotOf_eq_goes (h : bookSlotOf db pid slotId bookingId next = .goes db' place) :
    place = next ∧
      (db' = db ∧ db.slots.get pid slotId = none ∨
      ∃ slot, db.slots.get pid slotId = some slot ∧ ¬(db.slots.row slotId).Locked pid ∧
        db' = db.writeSlot pid slotId (slot.bookedBy bookingId)) := by
  unfold bookSlotOf at h
  split at h
  · cases h
  · rename_i hnone
    cases h
    exact ⟨rfl, Or.inl ⟨rfl, get_eq_none_of_unmatched hnone⟩⟩
  · cases h
  · rename_i row slots hupd
    obtain ⟨slot, hget, -, hlock, rfl, rfl⟩ := update_eq_done hupd
    cases h
    exact ⟨rfl, Or.inr ⟨slot, hget, hlock, rfl⟩⟩

theorem releaseSlotOf_eq_goes (h : releaseSlotOf db pid slotId bookingId next = .goes db' place) :
    place = next ∧
      (db' = db ∧ (∀ slot, db.slots.get pid slotId = some slot →
        slot.heldByBookingId ≠ some bookingId) ∨
      ∃ slot, db.slots.get pid slotId = some slot ∧ ¬(db.slots.row slotId).Locked pid ∧
        (slot.heldByBookingId = some bookingId ∨ slot.heldByBookingId = none) ∧
        db' = db.writeSlot pid slotId slot.opened) := by
  unfold releaseSlotOf at h
  split at h
  · cases h
  · rename_i hnone
    cases h
    refine ⟨rfl, Or.inl ⟨rfl, ?_⟩⟩
    intro slot hget hheld
    exact update_eq_unmatched hnone slot hget (Or.inl hheld)
  · cases h
  · rename_i row slots hupd
    obtain ⟨slot, hget, hheld, hlock, rfl, rfl⟩ := update_eq_done hupd
    cases h
    exact ⟨rfl, Or.inr ⟨slot, hget, hlock, hheld, rfl⟩⟩

theorem bookSlot_eq_goes (h : bookSlot db pid m = .goes db' place) :
    ∃ b, db.bookings.get pid m.transition.bookingId = some b ∧
      bookSlotOf db pid b.slotId m.transition.bookingId (.commitTransition m) =
        .goes db' place := by
  unfold bookSlot at h
  split at h
  · cases h
  rename_i b hget
  exact ⟨b, hget, h⟩

theorem releaseSlot_eq_goes (h : releaseSlot db pid m = .goes db' place) :
    ∃ slotId, m.transition.releasedSlot = some slotId ∧
      releaseSlotOf db pid slotId m.transition.bookingId m.afterRelease = .goes db' place := by
  unfold releaseSlot at h
  split at h
  · rename_i slotId hslot
    exact ⟨slotId, hslot, h⟩
  · cases h

theorem releaseAssignment_eq_goes (h : releaseAssignment db pid m = .goes db' place) :
    place = .commitTransition m ∧
      (db' = db ∧ (∀ a, db.assignments.get pid m.transition.bookingId = some a →
        a.status ≠ .active) ∨
      ∃ a, ¬(db.assignments.row m.transition.bookingId).Locked pid ∧
        db.assignments.get pid m.transition.bookingId = some a ∧
        db' = db.writeAssignment pid m.transition.bookingId a.release) := by
  unfold releaseAssignment at h
  split at h
  · cases h
  · rename_i hnone
    cases h
    exact ⟨rfl, Or.inl ⟨rfl, update_eq_unmatched hnone⟩⟩
  · cases h
  · rename_i row assignments hupd
    obtain ⟨a, hget, -, hlock, rfl, rfl⟩ := update_eq_done hupd
    cases h
    exact ⟨rfl, Or.inr ⟨a, hlock, hget, rfl⟩⟩

/-! ## Moves -/

theorem rescheduleRefusal_eq_none {input : RescheduleInput} {governed : Bool} {b : BookingEntity}
    (h : rescheduleRefusal config env input governed b = none) :
    b.status ∈ Move.eligibleStatuses input ∧ input.newSlotId ≠ b.slotId := by
  unfold rescheduleRefusal at h
  split at h
  · cases h
  rename_i hstat
  split at h
  · cases h
  split at h
  · cases h
  split at h
  · cases h
  rename_i hslot
  exact ⟨not_not.1 hstat, hslot⟩

theorem findBooking_eq_goes {input : RescheduleInput}
    (h : findBooking config env db pid input = .goes db' place) :
    ∃ m : Move, m.input = input ∧ place = .findNewSlot m ∧
      db.bookings.get pid input.bookingId = some m.booking ∧
      m.booking.status ∈ Move.eligibleStatuses input ∧ input.newSlotId ≠ m.booking.slotId ∧
      (m.governed = false ∧ db' = db ∨
        m.governed = true ∧ ¬(db.bookings.row input.bookingId).Locked pid ∧
          db' = db.writeBooking pid input.bookingId m.booking) := by
  unfold findBooking at h
  dsimp only at h
  split at h
  · rename_i hgoverned
    split at h
    · cases h
    · cases h
    · cases h
    rename_i b bookings hupd
    obtain ⟨_, hget, -, hlock, hb, rfl⟩ := update_eq_done hupd
    subst hb
    split at h
    · cases h
    rename_i hnone
    obtain ⟨hstat, hslot⟩ := rescheduleRefusal_eq_none hnone
    cases h
    exact ⟨⟨input, b, _⟩, rfl, rfl, hget, hstat, hslot,
      Or.inr ⟨hgoverned, hlock, rfl⟩⟩
  · rename_i hgoverned
    split at h
    · cases h
    rename_i b hget
    split at h
    · cases h
    rename_i hnone
    obtain ⟨hstat, hslot⟩ := rescheduleRefusal_eq_none hnone
    cases h
    exact ⟨⟨input, b, _⟩, rfl, rfl, hget, hstat, hslot,
      Or.inl ⟨by simpa using hgoverned, rfl⟩⟩

theorem findNewSlot_eq_goes {m : Move} (h : findNewSlot env db pid m = .goes db' place) :
    db' = db ∧ place = .claimNewSlot m := by
  unfold findNewSlot at h
  split at h
  · cases h
  split at h
  · cases h
  split at h
  · cases h
  cases h
  exact ⟨rfl, rfl⟩

theorem claimForMove_eq_goes {m : Move} (h : claimForMove config env db pid m = .goes db' place) :
    ∃ slot, db.slots.get pid m.input.newSlotId = some slot ∧
      slot.Claimable m.booking.professionalId env.now ∧
      ¬(db.slots.row m.input.newSlotId).Locked pid ∧
      db' = db.writeSlot pid m.input.newSlotId
        (slot.heldFor m.input.bookingId (config.holdUntil env.now)) ∧
      place = .findAssignment (.reschedule m) ⟨m.input.bookingId, m.input.newSlotId,
        slot.heldFor m.input.bookingId (config.holdUntil env.now), config.holdUntil env.now⟩ := by
  unfold claimForMove at h
  split at h
  · cases h
  · cases h
  · cases h
  rename_i row slots hclaim
  obtain ⟨slot, hget, hfree, hlock, rfl, rfl⟩ := update_eq_done hclaim
  cases h
  exact ⟨slot, hget, hfree, hlock, rfl, rfl⟩

theorem moveBooking_eq_goes {m : Move} (h : moveBooking db pid m claim = .goes db' place) :
    ∃ b, db.bookings.get pid m.input.bookingId = some b ∧ b.status = m.booking.status ∧
      b.rescheduleCount = m.booking.rescheduleCount ∧
      ¬(db.bookings.row m.input.bookingId).Locked pid ∧
      (∀ id ≠ m.input.bookingId, ∀ c, (db.bookings.row id).Version c →
        ¬SameActiveSlot (m.set claim b) c) ∧
      db' = db.writeBooking pid m.input.bookingId (m.set claim b) ∧
      place = if m.targetStatus = .confirmed then .bookNewSlot m claim
        else .releaseOldSlot m claim := by
  unfold moveBooking at h
  split at h
  · cases h
  · cases h
  · cases h
  rename_i row bookings hupd
  obtain ⟨b, hget, ⟨hstat, hcnt⟩, hlock, rfl, rfl, hfree⟩ := updateChecked_eq_done hupd
  cases h
  exact ⟨b, hget, hstat, hcnt, hlock, hfree, rfl, rfl⟩

/-! ## Slots -/

theorem findOverlap_eq_goes {input : CreateSlotInput}
    (h : findOverlap config env db pid input = .goes db' place) :
    db' = db ∧ place = .insertSlot env.newId (newSlot input env.deliveryLocation) := by
  unfold findOverlap at h
  split at h
  · cases h
  split at h
  · cases h
  cases h
  exact ⟨rfl, rfl⟩

theorem insertSlot_eq_goes {slot : AvailabilitySlotEntity}
    (h : insertSlot db pid slotId slot = .goes db' place) :
    ¬(db.slots.row slotId).Locked pid ∧ db.slots.get pid slotId = none ∧
      (∀ id ≠ slotId, ∀ v, (db.slots.row id).Version v → ¬SlotConflict slot v) ∧
      db' = db.writeSlot pid slotId slot ∧ place = .commitSlots := by
  unfold insertSlot at h
  split at h
  · cases h
  · cases h
  · cases h
  rename_i row slots hins
  obtain ⟨rfl, rfl, hlock, hget, hfree⟩ := insert_eq_done hins
  cases h
  exact ⟨hlock, hget, hfree, rfl, rfl⟩

theorem insertCandidates_eq_goes {candidates : List (Uuid × AvailabilitySlotEntity)}
    (h : insertCandidates db pid candidates = .goes db' place) :
    (db' = db ∧ place = .commitSlots) ∨
      ∃ slotId slot rest, place = .insertCandidates rest ∧
        (db' = db ∨ ¬(db.slots.row slotId).Locked pid ∧ db.slots.get pid slotId = none ∧
          (∀ id ≠ slotId, ∀ v, (db.slots.row id).Version v →
            ¬SlotConflict (AvailabilitySlotEntity.opened slot) v) ∧
          db' = db.writeSlot pid slotId slot.opened) := by
  cases candidates with
  | nil =>
    cases h
    exact Or.inl ⟨rfl, rfl⟩
  | cons c rest =>
    obtain ⟨slotId, slot⟩ := c
    refine Or.inr ⟨slotId, slot, rest, ?_⟩
    unfold insertCandidates at h
    dsimp only at h
    split at h
    · cases h
    split at h
    · cases h
    · cases h
    · cases h
      exact ⟨rfl, Or.inl rfl⟩
    · rename_i row slots hins
      obtain ⟨rfl, rfl, hlock, hget, hfree⟩ := insert_eq_done hins
      cases h
      exact ⟨rfl, Or.inr ⟨hlock, hget, hfree, rfl⟩⟩

theorem deleteSlot_eq_goes {professionalId : Uuid}
    (h : deleteSlot db pid professionalId slotId = .goes db' place) :
    ¬(db.slots.row slotId).Locked pid ∧
      (∀ id b, (db.bookings.row id).Version b → b.slotId ≠ slotId) ∧
      db' = { db with slots := db.slots.delete slotId } ∧ place = .returned .slots := by
  unfold deleteSlot at h
  split at h
  · cases h
  split at h
  · split at h
    · cases h
    rename_i hlock
    split at h
    · cases h
    rename_i href
    cases h
    refine ⟨hlock, ?_, rfl, rfl⟩
    intro id b hb hslot
    exact href ⟨id, mem_keys hb, b, hb, hslot⟩
  · cases h

/-! ## Commits -/

/-- A place whose statement commits, what the transaction was, and where the call goes on. -/
inductive Commits : Place → Record → Place → Prop where
  | create (input : CreateBookingInput) (claim : Claim) : Commits (.commitCreate input claim)
      (.created input claim) (.returned (.booking claim.bookingId))
  | transition (m : Moved) :
      Commits (.commitTransition m) (.transitioned m) (m.transition.next true)
  | move (m : Move) (claim : Claim) : Commits (.commitMove m claim)
      (.rescheduled m claim) (.returned (.booking m.input.bookingId))
  | leaves (input : CreateBookingInput) (bookingId : Uuid) (claim : Claim) :
      Commits (.replays input bookingId (some claim)) (.left input claim)
        (.returned (.booking bookingId))
  | replays (input : CreateBookingInput) (bookingId : Uuid) :
      Commits (.replays input bookingId none) .nothing (.returned (.booking bookingId))
  | slots : Commits .commitSlots .slots (.returned .slots)
  | absent (bookingId : Uuid) (actor : BookingActor) (reason : Option String) :
      Commits (.findBefore bookingId actor reason) .nothing (.returned (.moved false))
  | unmoved (t : Transition) : Commits (.findCurrent t) .nothing (t.next false)
  | lost (t : Transition) (current : BookingStatus) :
      Commits (.compareAndSet t current) .nothing (t.next false)

theorem statement_eq_commits {record : Record}
    (h : statement config env db pid place = .commits record next) : Commits place record next := by
  cases place with
  | commitCreate input claim => cases h; exact .create input claim
  | commitTransition m => cases h; exact .transition m
  | commitMove m claim => cases h; exact .move m claim
  | commitSlots => cases h; exact .slots
  | replays input bookingId claim =>
    cases claim with
    | none => cases h; exact .replays input bookingId
    | some claim => cases h; exact .leaves input bookingId claim
  | findBefore bookingId actor reason =>
    simp only [statement, findBefore] at h
    split at h
    · cases h; exact .absent bookingId actor reason
    · cases h
  | findCurrent t =>
    simp only [statement, findCurrent] at h
    split at h
    · cases h; exact .unmoved t
    · split at h
      · cases h
      cases h; exact .unmoved t
  | compareAndSet t current =>
    simp only [statement, compareAndSet] at h
    split at h
    · cases h; exact .lost t current
    · split at h
      · cases h
      · cases h; exact .lost t current
      · cases h
      · cases h
  | tryResource purpose claim existing candidates =>
    cases candidates with
    | _ =>
      simp only [statement, tryResource] at h
      repeat' split at h
      all_goals cases h
  | insertCandidates candidates =>
    cases candidates with
    | _ =>
      simp only [statement, insertCandidates] at h
      repeat' split at h
      all_goals cases h
  | _ =>
    -- every other statement waits, goes on or throws
    simp only [statement, countHolds, claimForCreate, insertBooking, insertKey, findAssignment,
      releaseExisting, bookSlot, bookSlotOf, releaseSlot, releaseSlotOf, releaseAssignment,
      findBooking, findNewSlot, claimForMove, moveBooking, findOverlap, insertSlot,
      deleteSlot] at h
    repeat' split at h
    all_goals cases h

/-! ## Refusals -/

/-- What a call of `create` with a manager has written when it throws: nothing, or its claim, or
its claim and its booking. -/
theorem refusing_cases {failure : Failure} (h : statement config env db pid place = .throws failure)
    (hrefusing : place.refusing failure = some input) :
    (leftBy config env db pid place = (db, none) ∧
      (place = .countHolds input ∨ place = .claimSlot input)) ∨
    (∃ slot, place = .claimSlot input ∧ db.slots.get pid input.slotId = some slot ∧
      slot.Claimable input.professionalId env.now ∧ ¬(db.slots.row input.slotId).Locked pid ∧
      db.Unused env.newId ∧ leftBy config env db pid place =
        (db.writeSlot pid input.slotId (slot.heldFor env.newId (config.holdUntil env.now)),
          some ⟨env.newId, input.slotId, slot.heldFor env.newId (config.holdUntil env.now),
            config.holdUntil env.now⟩)) ∨
    ∃ claim, leftBy config env db pid place = (db, some claim) ∧
      (place = .findAssignment (.create input) claim ∨ ∃ existing candidates,
        place = .tryResource (.create input) claim existing candidates) := by
  obtain ⟨hcatch, hthrown⟩ := Option.filter_eq_some_iff.1 hrefusing
  replace hthrown : failure.thrown = true := (Bool.and_eq_true_iff.1 hthrown).2
  cases place with
  | countHolds =>
    cases hcatch
    exact Or.inl ⟨rfl, Or.inl rfl⟩
  | claimSlot =>
    cases hcatch
    unfold leftBy
    dsimp only
    split
    · rename_i row slots hclaim
      obtain ⟨slot, hget, hfree, hlock, rfl, rfl⟩ := update_eq_done hclaim
      refine Or.inr (Or.inl ⟨slot, rfl, hget, hfree, hlock, ?_, rfl⟩)
      unfold statement claimForCreate at h
      dsimp only at h
      split at h
      · cases h
      rename_i hunused
      exact not_not.1 hunused
    · exact Or.inl ⟨rfl, Or.inr rfl⟩
  | findAssignment purpose claim =>
    cases purpose with
    | create =>
      cases hcatch
      exact Or.inr (Or.inr ⟨claim, rfl, Or.inl rfl⟩)
    | reschedule => cases hcatch
  | tryResource purpose claim existing candidates =>
    cases purpose with
    | create =>
      cases hcatch
      exact Or.inr (Or.inr ⟨claim, rfl, Or.inr ⟨existing, candidates, rfl⟩⟩)
    | reschedule => cases hcatch
  | insertBooking =>
    unfold statement insertBooking at h
    dsimp only at h
    split at h <;> cases h <;> cases hthrown
  | releaseExisting =>
    unfold statement releaseExisting at h
    dsimp only at h
    split at h
    all_goals
      cases h
      try cases hthrown
  | insertKey =>
    unfold statement insertKey at h
    dsimp only at h
    repeat' split at h
    all_goals
      cases h
      try cases hthrown
  | commitCreate => cases h
  | _ => cases hcatch

/-! ## Where a call goes on -/

/-- A place, and where its statement can take the call. -/
inductive GoesOn : Place → Place → Prop where
  | found (input : CreateBookingInput) (bookingId : Uuid) :
      GoesOn (.findKey input) (.returned (.booking bookingId))
  | unused (input : CreateBookingInput) : GoesOn (.findKey input) (.countHolds input)
  | foundAgain (input : CreateBookingInput) (failure : Failure) (bookingId : Uuid) :
      GoesOn (.findKeyAgain input failure) (.returned (.booking bookingId))
  | rethrows (input : CreateBookingInput) (failure thrown : Failure) :
      GoesOn (.findKeyAgain input failure) (.threw thrown)
  | replays (input : CreateBookingInput) (failure : Failure) (claim : Option Claim)
      (bookingId : Uuid) : GoesOn (.refused input failure claim) (.replays input bookingId claim)
  | counted (input : CreateBookingInput) : GoesOn (.countHolds input) (.claimSlot input)
  | claimed (input : CreateBookingInput) (claim : Claim) :
      GoesOn (.claimSlot input) (.insertBooking input claim)
  | inserted (input : CreateBookingInput) (claim : Claim) :
      GoesOn (.insertBooking input claim) (.findAssignment (.create input) claim)
  | unneeded (purpose : Purpose) (claim : Claim) :
      GoesOn (.findAssignment purpose claim) (.releaseExisting purpose claim)
  | unassigned (purpose : Purpose) (claim : Claim) :
      GoesOn (.findAssignment purpose claim) (purpose.next claim)
  | tries (purpose : Purpose) (claim : Claim) (existing : Bool) (candidates : List Uuid) :
      GoesOn (.findAssignment purpose claim) (.tryResource purpose claim existing candidates)
  | released (purpose : Purpose) (claim : Claim) :
      GoesOn (.releaseExisting purpose claim) (purpose.next claim)
  | triesOn (purpose : Purpose) (claim : Claim) (existing : Bool) (candidates rest : List Uuid) :
      GoesOn (.tryResource purpose claim existing candidates)
        (.tryResource purpose claim existing rest)
  | assigned (purpose : Purpose) (claim : Claim) (existing : Bool) (candidates : List Uuid) :
      GoesOn (.tryResource purpose claim existing candidates) (purpose.next claim)
  | keyed (input : CreateBookingInput) (claim : Claim) :
      GoesOn (.insertKey input claim) (.commitCreate input claim)
  | before (bookingId : Uuid) (actor : BookingActor) (reason : Option String)
      (before : BookingEntity) :
      GoesOn (.findBefore bookingId actor reason)
        (.findCurrent (.cancel bookingId actor reason before))
  | current (t : Transition) (status : BookingStatus) :
      GoesOn (.findCurrent t) (.compareAndSet t status)
  | set (t : Transition) (current replaced : BookingStatus) :
      GoesOn (.compareAndSet t current) (Moved.afterSet ⟨t, current, replaced⟩)
  | booked (m : Moved) : GoesOn (.bookSlot m) (.commitTransition m)
  | opened (m : Moved) : GoesOn (.releaseSlot m) m.afterRelease
  | freed (m : Moved) : GoesOn (.releaseAssignment m) (.commitTransition m)
  | stale (limit : ℕ) (rows : List (Uuid × BookingEntity)) :
      GoesOn (.findStale limit) (nextRow rows 0)
  | read (m : Move) : GoesOn (.findBooking m.input) (.findNewSlot m)
  | allowed (m : Move) : GoesOn (.findNewSlot m) (.claimNewSlot m)
  | reclaimed (m : Move) (claim : Claim) :
      GoesOn (.claimNewSlot m) (.findAssignment (.reschedule m) claim)
  | revived (m : Move) (claim : Claim) : GoesOn (.moveBooking m claim) (.bookNewSlot m claim)
  | moved (m : Move) (claim : Claim) : GoesOn (.moveBooking m claim) (.releaseOldSlot m claim)
  | rebooked (m : Move) (claim : Claim) : GoesOn (.bookNewSlot m claim) (.releaseOldSlot m claim)
  | left (m : Move) (claim : Claim) : GoesOn (.releaseOldSlot m claim) (.commitMove m claim)
  | free (input : CreateSlotInput) (slotId : Uuid) (slot : AvailabilitySlotEntity) :
      GoesOn (.findOverlap input) (.insertSlot slotId slot)
  | slot (slotId : Uuid) (slot : AvailabilitySlotEntity) :
      GoesOn (.insertSlot slotId slot) .commitSlots
  | slots (candidates : List (Uuid × AvailabilitySlotEntity)) :
      GoesOn (.insertCandidates candidates) .commitSlots
  | candidate (candidates rest : List (Uuid × AvailabilitySlotEntity)) :
      GoesOn (.insertCandidates candidates) (.insertCandidates rest)
  | deleted (professionalId slotId : Uuid) :
      GoesOn (.deleteSlot professionalId slotId) (.returned .slots)

/-- A statement after which the call goes on takes it along. -/
theorem goesOn_of_goes (h : statement config env db pid place = .goes db' next) :
    GoesOn place next := by
  cases place with
  | findKey input =>
    unfold statement at h
    dsimp only at h
    split at h <;> cases h
    · exact .found input _
    · exact .unused input
  | findKeyAgain input failure =>
    unfold statement at h
    dsimp only at h
    split at h <;> cases h
    · exact .foundAgain input failure _
    · exact .rethrows input failure _
  | refused input failure claim =>
    unfold statement at h
    dsimp only at h
    split at h <;> cases h
    exact .replays input failure claim _
  | countHolds input =>
    obtain ⟨-, rfl, -⟩ := countHolds_eq_goes h
    exact .counted input
  | claimSlot input =>
    obtain ⟨slot, -, -, -, -, -, rfl⟩ := claimForCreate_eq_goes h
    exact .claimed input _
  | insertBooking input claim =>
    obtain ⟨-, -, -, -, rfl⟩ := insertBooking_eq_goes h
    exact .inserted input claim
  | findAssignment purpose claim =>
    obtain ⟨-, rfl | ⟨rfl, -⟩ | ⟨existing, candidates, rfl⟩⟩ := findAssignment_eq_goes h
    · exact .unneeded purpose claim
    · exact .unassigned purpose claim
    · exact .tries purpose claim existing candidates
  | releaseExisting purpose claim =>
    obtain ⟨rfl, -⟩ := releaseExisting_eq_goes h
    exact .released purpose claim
  | tryResource purpose claim existing candidates =>
    rcases tryResource_eq_goes h with ⟨-, rest, rfl⟩ | ⟨rfl, -⟩
    · exact .triesOn purpose claim existing candidates rest
    · exact .assigned purpose claim existing candidates
  | insertKey input claim =>
    obtain ⟨rfl, -⟩ := insertKey_eq_goes h
    exact .keyed input claim
  | findBefore bookingId actor reason =>
    obtain ⟨-, before, -, rfl⟩ := findBefore_eq_goes h
    exact .before bookingId actor reason before
  | findCurrent t =>
    obtain ⟨-, b, -, -, rfl⟩ := findCurrent_eq_goes h
    exact .current t b.status
  | compareAndSet t current =>
    obtain ⟨b, -, -, -, -, rfl⟩ := compareAndSet_eq_goes h
    exact .set t current b.status
  | bookSlot m =>
    obtain ⟨_, -, h⟩ := bookSlot_eq_goes h
    obtain ⟨rfl, -⟩ := bookSlotOf_eq_goes h
    exact .booked m
  | releaseSlot m =>
    obtain ⟨slotId, -, h⟩ := releaseSlot_eq_goes h
    obtain ⟨rfl, -⟩ := releaseSlotOf_eq_goes h
    exact .opened m
  | releaseAssignment m =>
    obtain ⟨rfl, -⟩ := releaseAssignment_eq_goes h
    exact .freed m
  | findStale limit =>
    cases h
    exact .stale limit _
  | findBooking =>
    obtain ⟨m, rfl, rfl, -⟩ := findBooking_eq_goes h
    exact .read m
  | findNewSlot m =>
    obtain ⟨-, rfl⟩ := findNewSlot_eq_goes h
    exact .allowed m
  | claimNewSlot m =>
    obtain ⟨slot, -, -, -, -, rfl⟩ := claimForMove_eq_goes h
    exact .reclaimed m _
  | moveBooking m claim =>
    obtain ⟨_, -, -, -, -, -, -, rfl⟩ := moveBooking_eq_goes h
    split
    · exact .revived m claim
    · exact .moved m claim
  | bookNewSlot m claim =>
    obtain ⟨rfl, -⟩ := bookSlotOf_eq_goes h
    exact .rebooked m claim
  | releaseOldSlot m claim =>
    obtain ⟨rfl, -⟩ := releaseSlotOf_eq_goes h
    exact .left m claim
  | findOverlap input =>
    obtain ⟨-, rfl⟩ := findOverlap_eq_goes h
    exact .free input _ _
  | insertSlot slotId slot =>
    obtain ⟨-, -, -, -, rfl⟩ := insertSlot_eq_goes h
    exact .slot slotId slot
  | insertCandidates candidates =>
    rcases insertCandidates_eq_goes h with ⟨-, rfl⟩ | ⟨slotId, _, rest, rfl, -⟩
    · exact .slots candidates
    · exact .candidate candidates rest
  | deleteSlot professionalId slotId =>
    obtain ⟨-, -, -, rfl⟩ := deleteSlot_eq_goes h
    exact .deleted professionalId slotId
  | replays input bookingId claim => cases claim <;> cases h
  | idle | commitCreate | commitTransition | commitMove | commitSlots | returned | threw => cases h

/-- Only a refused call comes to replay a booking. -/
theorem goesOn_replays {claim : Option Claim} (h : GoesOn place next)
    (hnext : next = .replays input bookingId claim) :
    ∃ failure, place = .refused input failure claim := by
  cases h with
  | replays i failure =>
    cases hnext
    exact ⟨failure, rfl⟩
  | unassigned purpose | released purpose | assigned purpose =>
    cases purpose with
    | create =>
      unfold Purpose.next at hnext
      dsimp only at hnext
      split at hnext <;> cases hnext
    | reschedule => cases hnext
  | set t => cases t <;> cases hnext
  | opened =>
    unfold Moved.afterRelease at hnext
    split at hnext <;> cases hnext
  | stale limit rows => cases rows <;> cases hnext
  | _ => cases hnext

theorem goes_replays {claim : Option Claim}
    (h : statement config env db pid place = .goes db' (.replays input bookingId claim)) :
    ∃ failure, place = .refused input failure claim ∧
      findByIdempotencyKey (db.rollback pid) pid input = some bookingId := by
  obtain ⟨failure, rfl⟩ := goesOn_replays (goesOn_of_goes h) rfl
  refine ⟨failure, rfl, ?_⟩
  unfold statement at h
  dsimp only at h
  split at h
  · rename_i id hfound
    cases h
    exact hfound
  · cases h

end Statements

end BeauClick.Scheduling
