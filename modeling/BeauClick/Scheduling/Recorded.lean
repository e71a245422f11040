import BeauClick.Scheduling.Agreement

/-!
# The status that a cancellation replaces

`cancel` reads the booking twice before its compare-and-set, which accepts two statuses.  The
history row has the status of the second read, and the entitlement hook is told about the first.
-/

namespace BeauClick.Scheduling

open ReadCommitted ReadCommitted.Versioned Runs Booking Option Function

/-- What `onBookingCancellation` is told: that the booking had been confirmed. -/
def Transition.wasConfirmed : Transition → Option Bool
  | .cancel _ _ _ before => some (decide (before.status = .confirmed))
  | _ => none

/-- The booking that a call confirms when it commits. -/
def Place.confirms : Place → Option Uuid
  | commitTransition ⟨.confirm id _, _, _⟩ => some id
  | commitMove m _ =>
    if m.targetStatus = .confirmed ∧ m.booking.status ≠ .confirmed then some m.input.bookingId
    else none
  | _ => none

/-- The booking that a call is about to cancel, which it has read once or twice. -/
def Place.cancelling : Place → Option Uuid
  | findCurrent (.cancel id _ _ _) => some id
  | compareAndSet (.cancel id _ _ _) _ => some id
  | _ => none

/-- The cancellation has read the status that it has replaced, both times. -/
def Moved.Truthful (m : Moved) : Prop :=
  ∀ id actor reason before, m.transition = .cancel id actor reason before →
    m.current = m.replaced ∧ before.status = m.replaced

/-- The booking still has the status that was read, if it can be cancelled. -/
def StillAs (db : BookingDb) (id : Uuid) (before : BookingEntity) : Prop :=
  ∃ b, db.bookings.committed id = some b ∧
    (b.status ∈ slotHoldingStatuses → b.status = before.status)

/-- What a call that cancels relies on at a place. -/
def Reads (db : BookingDb) : Place → Prop
  | .findCurrent (.cancel id _ _ before) => StillAs db id before
  | .compareAndSet (.cancel id _ _ before) current =>
    StillAs db id before ∧ current = before.status
  | .bookSlot m | .releaseSlot m | .releaseAssignment m | .commitTransition m => m.Truthful
  | _ => True

section Statement

variable {config : BookingConfig} {env : Env} {db db' : BookingDb} {pid : ℕ} {place : Place}

theorem reads_purpose (purpose : Purpose) (claim : Claim) : Reads db (purpose.next claim) := by
  cases purpose with
  | create =>
    unfold Purpose.next
    dsimp only
    split <;> trivial
  | reschedule => trivial

theorem reads_nextRow (rows : List (Uuid × BookingEntity)) (expired : ℕ) :
    Reads db (nextRow rows expired) := by
  cases rows <;> trivial

theorem reads_next (t : Transition) (done : Bool) : Reads db (t.next done) := by
  cases t with
  | expire id row rest => exact reads_nextRow rest _
  | _ => trivial

theorem reads_afterSet {m : Moved} (h : m.Truthful) : Reads db m.afterSet := by
  unfold Moved.afterSet
  split <;> exact h

theorem reads_afterRelease {m : Moved} (h : m.Truthful) : Reads db m.afterRelease := by
  unfold Moved.afterRelease
  split <;> exact h

theorem reads_findBefore {bookingId : Uuid} {actor : BookingActor} {reason : Option String}
    (hw : NoWork db pid) (h : findBefore db pid bookingId actor reason = .goes db' place) :
    Reads db' place := by
  obtain ⟨rfl, before, hget, rfl⟩ := findBefore_eq_goes h
  exact ⟨before, hw.bookings.get_eq.symm.trans hget, fun _ => rfl⟩

theorem reads_findCurrent {t : Transition} (hw : NoWork db pid) (hr : Reads db (.findCurrent t))
    (h : findCurrent db pid t = .goes db' place) : Reads db' place := by
  obtain ⟨rfl, b, hget, hallow, rfl⟩ := findCurrent_eq_goes h
  cases t with
  | cancel =>
    obtain ⟨b', hb', hsame⟩ := hr
    have hb : b' = b := by
      rw [hw.bookings.get_eq] at hget
      exact some.inj (hb'.symm.trans hget)
    exact ⟨⟨b', hb', hsame⟩, hb ▸ hsame (hb ▸ allowedFrom_active hallow)⟩
  | _ => trivial

theorem reads_compareAndSet {t : Transition} {current : BookingStatus} (hw : NoWork db pid)
    (hr : Reads db (.compareAndSet t current))
    (h : compareAndSet env db pid t current = .goes db' place) : Reads db' place := by
  obtain ⟨b, hget, hallow, -, rfl, rfl⟩ := compareAndSet_eq_goes h
  refine reads_afterSet ?_
  intro id actor reason before ht
  obtain rfl : t = .cancel id actor reason before := ht
  obtain ⟨⟨b', hb', hsame⟩, hcur⟩ := hr
  have hb : b' = b := by
    rw [hw.bookings.get_eq] at hget
    exact some.inj (hb'.symm.trans hget)
  have hstat : b.status = before.status := hb ▸ hsame (hb ▸ allowedFrom_active hallow)
  exact ⟨hcur.trans hstat.symm, hstat.symm⟩

theorem reads_statement {at' : Place} (hw : Work db pid at') (hr : Reads db at')
    (h : statement config env db pid at' = .goes db' place) : Reads db' place := by
  cases goesOn_of_goes h with
  | before => exact reads_findBefore hw h
  | current => exact reads_findCurrent hw hr h
  | set => exact reads_compareAndSet hw hr h
  | unassigned purpose claim | released purpose claim | assigned purpose claim =>
    exact reads_purpose purpose claim
  | booked | freed => exact hr
  | opened => exact reads_afterRelease hr
  | stale limit rows => exact reads_nextRow rows 0
  | _ => trivial

/-! ## What another call's commit does to what was read -/

theorem stillAs_commit {at' next : Place} {record : Record} {id : Uuid} {before : BookingEntity}
    (hwork : Work db pid at') (hc : Commits at' record next)
    (hgood : at'.confirms ≠ some id) (h : StillAs db id before) :
    StillAs (db.commit pid) id before := by
  obtain ⟨b, hb, hsame⟩ := h
  by_cases hw : (db.bookings.row id).WrittenBy pid
  · obtain ⟨b', hb'⟩ : ∃ b', db.bookings.Wrote pid id b' := hw
    refine ⟨b', hb'.committed_commit, ?_⟩
    intro hact
    cases hc with
    | create =>
      obtain rfl := hwork.1.only id hb'.writtenBy
      rw [committed_of_row hwork.1.booking] at hb
      cases hb
    | leaves =>
      rcases hwork.1 with hclaim | hcreate
      · exact absurd hb'.writtenBy (hclaim.bookings id)
      obtain rfl := hcreate.only id hb'.writtenBy
      rw [committed_of_row hcreate.booking] at hb
      cases hb
    | replays => exact absurd hb'.writtenBy (hwork.bookings id)
    | transition m =>
      obtain ⟨_, hset, -⟩ := hwork
      obtain rfl := hset.only id hb'.writtenBy
      obtain ⟨_, hrow⟩ := hset.booking
      rw [hb'.unique (wrote_of_row hrow), set_status] at hact
      obtain ⟨t, _, _⟩ := m
      cases t with
      | confirm => exact absurd rfl hgood
      | cancel | expire =>
        simp [Transition.toStatus, slotHoldingStatuses] at hact
    | move m claim =>
      obtain rfl := hwork.1.only id hb'.writtenBy
      obtain rfl := hb'.unique (wrote_of_row hwork.1.booking)
      rw [committed_of_row hwork.1.booking] at hb
      cases hb
      have htarget : (m.set claim m.booking).status = m.targetStatus := rfl
      have hkeeps : m.targetStatus = m.booking.status := by
        unfold Place.confirms at hgood
        dsimp only at hgood
        by_cases hrevived : m.targetStatus = .confirmed ∧ m.booking.status ≠ .confirmed
        · rw [if_pos hrevived] at hgood
          exact absurd rfl hgood
        · by_contra hne
          unfold Move.targetStatus at hne hrevived
          split at hne
          · rename_i hcanc
            rw [if_pos hcanc, hcanc.2] at hrevived
            exact hrevived ⟨rfl, by decide⟩
          · exact hne rfl
      rw [htarget, hkeeps] at hact ⊢
      exact hsame hact
    | slots | absent | unmoved | lost => exact absurd hb'.writtenBy (hwork.bookings id)
  · exact ⟨b, (committed_commit_of_not hw).trans hb, hsame⟩

theorem reads_frame {at' : Place} (hr : Reads db at')
    (h : ∀ id before, at'.cancelling = some id → StillAs db id before → StillAs db' id before) :
    Reads db' at' := by
  unfold Reads at hr ⊢
  split
  · exact h _ _ rfl hr
  · exact ⟨h _ _ rfl hr.1, hr.2⟩
  · exact hr
  · exact hr
  · exact hr
  · exact hr
  · trivial

end Statement

namespace BookingSystem

/-- Every cancellation that has committed has recorded the status that it replaced, and has told
the entitlement hook about it. -/
def RecordedTruly (s : BookingSystem) : Prop :=
  ∀ m, Record.transitioned m ∈ s.log → m.transition.toStatus = .cancelled →
    (m.transition.history m.current).fromStatus = some m.replaced ∧
      m.transition.wasConfirmed = some (decide (m.replaced = .confirmed))

/-- No booking is confirmed while a cancellation of it is between its first read and its
compare-and-set. -/
def NoneOverlooked (s : BookingSystem) (e : BookingStep) : Prop :=
  ∀ env id q, e.action = .statement env → (s.calls e.pid).confirms = some id →
    (s.calls q).cancelling ≠ some id

/-- Every call has read what it relies on, and what was recorded is true. -/
structure Truthful (s : BookingSystem) : Prop where
  invariant : Invariant s
  reads : ∀ pid, Reads s.db (s.calls pid)
  log : ∀ m, Record.transitioned m ∈ s.log → m.Truthful

section Step

variable {config : BookingConfig} {s s' : BookingSystem} {e : BookingStep}

theorem reads_start (request : Request) (db : BookingDb) : Reads db request.place := by
  cases request with
  | create =>
    unfold Request.place
    dsimp only
    split <;> trivial
  | _ => trivial

theorem reads_failed (place : Place) (failure : Failure) (db : BookingDb) :
    Reads db (place.failed failure) := by
  unfold Place.failed
  split
  · trivial
  split <;> trivial

theorem reads_commits {place next : Place} {record : Record} (db : BookingDb)
    (hc : Commits place record next) : Reads db next := by
  cases hc with
  | transition m => exact reads_next m.transition true
  | unmoved t => exact reads_next t false
  | lost t => exact reads_next t false
  | _ => trivial

theorem reads_update {db : BookingDb} {pid : ℕ} {place : Place}
    (hr : ∀ q, Reads s.db (s.calls q)) (hown : Reads db place)
    (h : ∀ q id before, (s.calls q).cancelling = some id → StillAs s.db id before →
      StillAs db id before) (q : ℕ) : Reads db (update s.calls pid place q) := by
  by_cases hq : q = pid
  · subst hq
    rwa [update_self]
  · rw [update_of_ne hq]
    exact reads_frame (hr q) (h q)

theorem stillAs_of_bookings {db db' : BookingDb} {id : Uuid} {before : BookingEntity}
    (hq : db'.bookings.committed = db.bookings.committed) (h : StillAs db id before) :
    StillAs db' id before := by
  unfold StillAs at h ⊢
  rwa [hq]

theorem truthful_step (h : Truthful s) (hgood : NoneOverlooked s e)
    (hs : step config s e = some s') : Truthful s' := by
  have hi := invariant_step h.invariant hs
  rcases step_cases hs with ⟨_, -, -, rfl⟩ | ⟨env, _, place, -, hstmt, rfl⟩ |
    ⟨env, record, place, hact, hcmt, rfl⟩ | ⟨failure, -, rfl⟩ |
    ⟨env, failure, input, -, hstmt, hrefusing, rfl⟩
  · exact ⟨hi, reads_update h.reads (reads_start _ _) fun _ _ _ _ hstill => hstill, h.log⟩
  · have hkept := kept_statement h.invariant.sound (h.invariant.work e.pid) hstmt
    exact ⟨hi, reads_update h.reads
      (reads_statement (h.invariant.work e.pid) (h.reads e.pid) hstmt)
      fun _ _ _ _ => stillAs_of_bookings hkept.quiet.bookings, h.log⟩
  · refine ⟨hi, reads_update h.reads (reads_commits _ hcmt) ?_, ?_⟩
    · intro q id before hcancelling
      refine stillAs_commit (h.invariant.work e.pid) hcmt ?_
      intro hconf
      exact hgood env id q hact hconf hcancelling
    · intro m hm
      rcases List.mem_append.1 hm with hm | hm
      · exact h.log m hm
      · -- the transition that commits now: its call stood at the commit
        obtain rfl := List.mem_singleton.1 hm
        have hreads := h.reads e.pid
        generalize s.calls e.pid = at' at hcmt hreads
        cases hcmt
        exact hreads
  · exact ⟨hi, reads_update h.reads (reads_failed _ _ _)
      fun _ _ _ _ => stillAs_of_bookings (sameCommitted_rollback _ _).bookings, h.log⟩
  · have hkept := kept_refuses hstmt h.invariant.sound (h.invariant.work e.pid) hrefusing
    exact ⟨hi, reads_update h.reads trivial
      fun _ _ _ _ => stillAs_of_bookings hkept.quiet.bookings, h.log⟩

theorem truthful_start : Truthful start :=
  ⟨invariant_start, fun _ => trivial, fun m hm => by cases hm⟩

theorem Truthful.recordedTruly (h : Truthful s) : RecordedTruly s := by
  rintro ⟨t, _, _⟩ hm hcanc
  cases t with
  | cancel id actor reason before =>
    obtain ⟨hcur, hbef⟩ := h.log _ hm id actor reason before rfl
    refine ⟨congrArg some hcur, ?_⟩
    unfold Transition.wasConfirmed
    dsimp only
    rw [hbef]
  | confirm | expire => cases hcanc

end Step

/-- In a run in which no booking is confirmed under a cancellation that has read it, every
cancellation is recorded with the status that it has replaced. -/
theorem recorded_run {config : BookingConfig} {es : List BookingStep} {s : BookingSystem}
    (hgood : Along (step config) NoneOverlooked start es)
    (h : runFrom (step config) start es = some s) : RecordedTruly s :=
  (runFrom_invariant_along (I := Truthful) (fun _ _ _ ht hg hs => truthful_step ht hg hs)
    truthful_start hgood h).recordedTruly

/-- A booking is confirmed, and then cancelled. -/
def confirmedThenCancelled : List BookingStep :=
  publishes 0 1 7 100000000 ++ books 1 5 1 50 0 ++ call 2 (.confirm 50 systemActor) 4 0 0 ++
    call 3 (.cancel 50 theCustomer none) 6 0 0

theorem recorded_run_confirmedThenCancelled :
    ∃ s, runFrom (step .default) start confirmedThenCancelled = some s ∧ RecordedTruly s := by
  have hrun : (runFrom (step .default) start confirmedThenCancelled).isSome = true := by
    decide +kernel
  have hgood : Along (step .default) (fun s e => ∀ q ∈ [0, 1, 2, 3],
      ∀ id ∈ (s.calls e.pid).confirms, (s.calls q).cancelling ≠ some id) start
      confirmedThenCancelled := by
    decide +kernel
  obtain ⟨s, hs⟩ := isSome_iff_exists.1 hrun
  refine ⟨s, hs, recorded_run (along_of_idle [0, 1, 2, 3] ?_ ?_ ?_ hgood) hs⟩
  · intro s e hidle hamong env id q _ hconf
    by_cases hq : q ∈ [0, 1, 2, 3]
    · exact hamong q hq id hconf
    · rw [hidle q hq]
      exact fun h => by cases h
  · decide
  · exact fun _ _ => rfl

/-- A cancellation has read a pending booking twice, which is then confirmed. -/
def confirmedMeanwhile : List BookingStep :=
  publishes 0 1 7 100000000 ++ books 1 5 1 50 0 ++
    call 2 (.cancel 50 theCustomer none) 2 0 0 ++ call 3 (.confirm 50 systemActor) 4 0 0 ++
    List.replicate 4 (takes 2 0 0)

/-- The booking as the cancellation has read it. -/
def pendingBooking : BookingEntity where
  customerId := 5
  professionalId := 7
  serviceId := none
  slotId := 1
  slotStart := 100000000
  slotEnd := 103600000
  status := .pending
  holdExpiresAt := some 900000
  rescheduleCount := 0
  cancellationReason := none
  cancelledByActorType := none
  cancelledByActorId := none
  confirmedAt := none
  completedAt := none
  cancelledAt := none

/-- The confirmed booking is recorded as cancelled from pending, and the hook is told so. -/
theorem recorded_confirmedMeanwhile_fails :
    ∃ s, runFrom (step .default) start confirmedMeanwhile = some s ∧ s.Quiescent ∧
      ¬RecordedTruly s := by
  obtain ⟨s, hs, hdone, hlog⟩ : ∃ s ∈ runFrom (step .default) start confirmedMeanwhile,
      (∀ e ∈ confirmedMeanwhile, (s.calls e.pid).running = false) ∧
      Record.transitioned ⟨.cancel 50 theCustomer none pendingBooking, .pending, .confirmed⟩ ∈
        s.log := by
    decide +kernel
  refine ⟨s, hs, quiescent_of_run hs hdone, ?_⟩
  intro htruly
  have hstat := (htruly _ hlog rfl).1
  cases hstat

end BookingSystem

end BeauClick.Scheduling
