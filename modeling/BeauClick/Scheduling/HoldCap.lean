import BeauClick.Scheduling.Agreement
import Mathlib.Data.Finset.Card

/-!
# The hold cap

`createWithin` counts the customer's pending bookings and inserts one more some statements later;
what other calls have counted meanwhile is not seen.
-/

namespace BeauClick.Scheduling

open ReadCommitted ReadCommitted.Versioned Runs Booking Option
open Function (update_of_ne)

/-- The committed bookings of a customer that are pending. -/
def pendingOf (db : BookingDb) (customerId : Uuid) : Finset Uuid :=
  db.bookings.keys.toFinset.filter fun id => ∃ b ∈ db.bookings.committed id,
    b.customerId = customerId ∧ b.status = .pending

/-- Those whose hold has not lapsed. -/
def holdsOf (db : BookingDb) (customerId : Uuid) (now : Instant) : Finset Uuid :=
  (pendingOf db customerId).filter fun id => ∃ b ∈ db.bookings.committed id,
    ∃ t ∈ b.holdExpiresAt, now ≤ t

/-- The customer of a call of `create` that has counted, and has not ended. -/
def Place.counted : Place → Option Uuid
  | countHolds _ => none
  | refused input _ (some _) => some input.customerId
  | replays input _ (some _) => some input.customerId
  | place => place.creating.map (·.customerId)

section Pending

variable {db db' : BookingDb} {pid : ℕ} {customerId : Uuid} {id : Uuid} {input : CreateBookingInput}
  {claim : Claim}

theorem mem_pendingOf : id ∈ pendingOf db customerId ↔ ∃ b, db.bookings.committed id = some b ∧
    b.customerId = customerId ∧ b.status = .pending := by
  unfold pendingOf
  rw [Finset.mem_filter, List.mem_toFinset]
  constructor
  · rintro ⟨-, b, hb, h⟩
    exact ⟨b, hb, h⟩
  · rintro ⟨b, hb, h⟩
    exact ⟨mem_keys_of_committed hb, b, hb, h⟩

theorem pendingOf_congr (h : db'.bookings.committed = db.bookings.committed) :
    pendingOf db' customerId = pendingOf db customerId := by
  ext id
  rw [mem_pendingOf, mem_pendingOf, h]

theorem holdsOf_card_le (now : Instant) :
    (holdsOf db customerId now).card ≤ (pendingOf db customerId).card :=
  Finset.card_le_card (Finset.filter_subset _ _)

theorem select_length_eq (hu : db.bookings.Untouched pid) :
    (db.bookings.select pid fun b => b.customerId = customerId ∧ b.status = .pending).length =
      (pendingOf db customerId).card := by
  rw [← List.toFinset_card_of_nodup (nodup_select _ _ _)]
  congr 1
  ext id
  simp [mem_select hu, mem_pendingOf]

theorem pendingOf_commit_subset (hready : Ready db pid id)
    (hold : ∀ b, db.bookings.Wrote pid id b → b.status = .pending →
      ∃ b', db.bookings.committed id = some b' ∧ b'.customerId = b.customerId ∧
        b'.status = .pending) :
    pendingOf (db.commit pid) customerId ⊆ pendingOf db customerId := by
  intro x hx
  obtain ⟨b, hb, hcust, hpend⟩ := mem_pendingOf.1 hx
  refine mem_pendingOf.2 ?_
  rcases commit_bookings hready hb with ⟨rfl, hw⟩ | ⟨-, hb⟩
  · obtain ⟨b', hb', hsame, hpend'⟩ := hold b hw hpend
    exact ⟨b', hb', hsame.trans hcust, hpend'⟩
  · exact ⟨b, hb, hcust, hpend⟩

theorem pendingOf_create_subset (hcreate : CreateWork db pid input claim)
    (ha : AssignWork db pid claim) :
    pendingOf (db.commit pid) customerId ⊆
      if input.customerId = customerId then insert claim.bookingId (pendingOf db customerId)
      else pendingOf db customerId := by
  intro x hx
  obtain ⟨b, hb, hcust, hpend⟩ := mem_pendingOf.1 hx
  rcases commit_bookings (ready_of_create hcreate ha) hb with ⟨rfl, hw⟩ | ⟨-, hb⟩
  · obtain rfl := hw.unique (wrote_of_row hcreate.booking)
    have hin : input.customerId = customerId := hcust
    rw [if_pos hin]
    exact Finset.mem_insert_self _ _
  · have hmem : x ∈ pendingOf db customerId := mem_pendingOf.2 ⟨b, hb, hcust, hpend⟩
    split
    · exact Finset.mem_insert_of_mem hmem
    · exact hmem

theorem pendingOf_left_subset (hleft : LeftWork db pid input claim) :
    pendingOf (db.commit pid) customerId ⊆
      if input.customerId = customerId then insert claim.bookingId (pendingOf db customerId)
      else pendingOf db customerId := by
  have hready := ready_of_left hleft
  obtain ⟨hclaim | hcreate, ha, -⟩ := hleft
  · have hsubset : pendingOf (db.commit pid) customerId ⊆ pendingOf db customerId :=
      pendingOf_commit_subset hready fun b hb => absurd hb.writtenBy (hclaim.bookings _)
    split
    · exact hsubset.trans (Finset.subset_insert _ _)
    · exact hsubset
  · exact pendingOf_create_subset hcreate (assignWork_of_untouched ha)

theorem pendingOf_commits_subset {place next : Place} {record : Record} (hs : Sound db)
    (hwork : Work db pid place) (hc : Commits place record next)
    (hnot : place.counted ≠ some customerId) :
    pendingOf (db.commit pid) customerId ⊆ pendingOf db customerId := by
  have hslots : SlotsWork db pid →
      pendingOf (db.commit pid) customerId ⊆ pendingOf db customerId := by
    intro hw
    exact pendingOf_commit_subset (ready_of_slots hw 0) fun b hb =>
      absurd hb.writtenBy (hw.bookings 0)
  cases hc with
  | create =>
    have hsubset : pendingOf (db.commit pid) customerId ⊆ _ :=
      pendingOf_create_subset hwork.1 hwork.2.1
    rwa [if_neg fun heq => hnot (congrArg some heq)] at hsubset
  | leaves =>
    have hsubset : pendingOf (db.commit pid) customerId ⊆ _ := pendingOf_left_subset hwork
    rwa [if_neg fun heq => hnot (congrArg some heq)] at hsubset
  | replays => exact hslots (NoWork.slotsWork hwork)
  | transition m =>
    obtain ⟨_, hset, hwork⟩ := hwork
    refine pendingOf_commit_subset (ready_of_transition hs hset hwork) ?_
    intro b' hb' hpend
    obtain ⟨_, hrow⟩ := hset.booking
    rw [hb'.unique (wrote_of_row hrow), set_status] at hpend
    cases hm : m.transition <;> simp [hm, Transition.toStatus] at hpend
  | move m =>
    obtain ⟨hmove, hnew, honly, hreleased⟩ := hwork
    refine pendingOf_commit_subset (ready_of_move hs hmove hnew honly hreleased) ?_
    intro b' hb' hpend
    obtain rfl := hb'.unique (wrote_of_row hmove.booking)
    refine ⟨m.booking, committed_of_row hmove.booking, rfl, ?_⟩
    have htarget : m.targetStatus = .pending := hpend
    unfold Move.targetStatus at htarget
    split at htarget
    · cases htarget
    exact htarget
  | slots => exact hslots hwork
  | absent | unmoved | lost => exact hslots (NoWork.slotsWork hwork)

end Pending

namespace BookingSystem

/-- No customer has more holds than the cap, at any instant. -/
def HoldCapKept (config : BookingConfig) (s : BookingSystem) : Prop :=
  ∀ customerId now, (holdsOf s.db customerId now).card ≤ config.maxConcurrentHoldsPerCustomer

/-- Calls of `create` that have counted the customer's bookings, and have not ended. -/
def LetThrough (s : BookingSystem) (customerId : Uuid) (pids : Finset ℕ) : Prop :=
  ∀ p ∈ pids, (s.calls p).counted = some customerId

/-- A call whose count lets it through leaves room for those that were let through before it. -/
def SeesAll (config : BookingConfig) (s : BookingSystem) (e : BookingStep) : Prop :=
  ∀ env input pids, e.action = .statement env → s.calls e.pid = .countHolds input →
    s.LetThrough input.customerId pids →
    (pendingOf s.db input.customerId).card < config.maxConcurrentHoldsPerCustomer →
    (pendingOf s.db input.customerId).card + pids.card < config.maxConcurrentHoldsPerCustomer

/-- Those that were let through have room. -/
structure Capped (config : BookingConfig) (s : BookingSystem) : Prop where
  invariant : Invariant s
  room : ∀ customerId pids, s.LetThrough customerId pids →
    (pendingOf s.db customerId).card + pids.card ≤ config.maxConcurrentHoldsPerCustomer

section Step

variable {config : BookingConfig} {s s' t : BookingSystem} {e : BookingStep} {pid : ℕ}
  {customerId : Uuid} {pids : Finset ℕ} {env : Env} {db : BookingDb} {place at' : Place}
  {record : Record} {input : CreateBookingInput}

theorem capped_start : Capped config start where
  invariant := invariant_start
  room := by
    intro customerId pids h
    have hpids : pids = ∅ := by
      refine Finset.eq_empty_of_forall_notMem ?_
      intro p hp
      cases h p hp
    subst hpids
    exact Nat.zero_le _

theorem Capped.holdCapKept (h : Capped config s) : HoldCapKept config s := by
  intro customerId now
  calc (holdsOf s.db customerId now).card
      ≤ (pendingOf s.db customerId).card := holdsOf_card_le now
    _ ≤ config.maxConcurrentHoldsPerCustomer :=
        h.room customerId ∅ fun p hp => absurd hp (Finset.notMem_empty p)

theorem letThrough_erase (hothers : ∀ q, q ≠ pid → t.calls q = s.calls q)
    (h : t.LetThrough customerId pids) : s.LetThrough customerId (pids.erase pid) := by
  intro q hq
  rw [← hothers q (Finset.ne_of_mem_erase hq)]
  exact h q (Finset.mem_of_mem_erase hq)

theorem letThrough_of_moved (pid : ℕ) (hothers : ∀ q, q ≠ pid → t.calls q = s.calls q)
    (hown : (t.calls pid).counted = some customerId → (s.calls pid).counted = some customerId)
    (h : t.LetThrough customerId pids) : s.LetThrough customerId pids := by
  intro q hq
  by_cases hpid : q = pid
  · subst hpid
    exact hown (h q hq)
  · rw [← hothers q hpid]
    exact h q hq

theorem counted_next {purpose : Purpose} {claim : Claim}
    (h : (purpose.next claim).counted = some customerId) :
    (Place.findAssignment purpose claim).counted = some customerId := by
  cases purpose with
  | create =>
    unfold Purpose.next at h
    dsimp only at h
    split at h <;> exact h
  | reschedule => cases h

theorem counted_nextRow {rows : List (Uuid × BookingEntity)} {expired : ℕ} :
    (nextRow rows expired).counted = none := by
  cases rows <;> rfl

theorem counted_goesOn (h : GoesOn at' place) (hcnt : ∀ input, at' ≠ .countHolds input)
    (hplace : place.counted = some customerId) : at'.counted = some customerId := by
  cases h with
  | counted input => exact absurd rfl (hcnt input)
  | replays input failure claim => cases claim <;> exact hplace
  | claimed | inserted | keyed => exact hplace
  | unneeded purpose | tries purpose | triesOn purpose => cases purpose <;> exact hplace
  | unassigned => exact counted_next hplace
  | released purpose | assigned purpose =>
    have := counted_next hplace
    cases purpose <;> exact this
  | set t => cases t <;> cases hplace
  | opened =>
    unfold Moved.afterRelease at hplace
    split at hplace <;> cases hplace
  | stale =>
    rw [counted_nextRow] at hplace
    cases hplace
  | _ => cases hplace

theorem counted_request (request : Request) : request.place.counted = none := by
  cases request with
  | create =>
    unfold Request.place
    dsimp only
    split <;> rfl
  | _ => rfl

theorem counted_transition_next (t : Transition) (done : Bool) : (t.next done).counted = none := by
  cases t with
  | expire => exact counted_nextRow
  | _ => rfl

theorem counted_commits {next : Place} (hc : Commits place record next) : next.counted = none := by
  cases hc with
  | transition m => exact counted_transition_next m.transition true
  | unmoved t => exact counted_transition_next t false
  | lost t => exact counted_transition_next t false
  | _ => rfl

theorem counted_failed (place : Place) (failure : Failure) :
    (place.failed failure).counted = none := by
  unfold Place.failed
  split
  · rfl
  · split <;> rfl

theorem counted_refuses {failure : Failure} (h : statement config env db pid at' = .throws failure)
    (hrefusing : at'.refusing failure = some input)
    (hcnt : (Place.refused input failure (leftBy config env db pid at').2).counted =
      some customerId) : at'.counted = some customerId := by
  rcases refusing_cases h hrefusing with ⟨hleft, rfl | rfl⟩ |
    ⟨slot, rfl, -, -, -, -, hleft⟩ | ⟨claim, hleft, rfl | ⟨_, _, rfl⟩⟩
  · cases hcnt
  · rw [hleft] at hcnt
    cases hcnt
  · rw [hleft] at hcnt
    exact hcnt
  · exact hcnt
  · exact hcnt

theorem room_count (h : Capped config s) (hgood : SeesAll config s e)
    (hact : e.action = .statement env) (hat : s.calls e.pid = .countHolds input)
    (hstmt : countHolds config s.db e.pid input = .goes db place)
    (hpids : (s.goes e.pid db place).LetThrough input.customerId pids) :
    (pendingOf s.db input.customerId).card + pids.card ≤ config.maxConcurrentHoldsPerCustomer := by
  obtain ⟨rfl, rfl, hcnt⟩ := countHolds_eq_goes hstmt
  have hwork : Work s.db e.pid (s.calls e.pid) := h.invariant.work e.pid
  rw [hat] at hwork
  rw [select_length_eq hwork.bookings] at hcnt
  have herase : s.LetThrough input.customerId (pids.erase e.pid) :=
    letThrough_erase (fun q hq => update_of_ne hq _ _) hpids
  have hroom := hgood env input _ hact hat herase hcnt
  have hcard : pids.card ≤ (pids.erase e.pid).card + 1 := by
    have := Finset.pred_card_le_card_erase (s := pids) (a := e.pid)
    omega
  omega

theorem room_commit (h : Capped config s) (hcmt : Commits (s.calls e.pid) record place)
    (hpids : (s.commits e.pid record place).LetThrough customerId pids) :
    (pendingOf (s.db.commit e.pid) customerId).card + pids.card ≤
      config.maxConcurrentHoldsPerCustomer := by
  have hwork : Work s.db e.pid (s.calls e.pid) := h.invariant.work e.pid
  have hnot : e.pid ∉ pids := by
    intro hmem
    have hcnt := hpids e.pid hmem
    rw [calls_commits, counted_commits hcmt] at hcnt
    cases hcnt
  have hbef : s.LetThrough customerId pids :=
    letThrough_of_moved e.pid (fun q hq => update_of_ne hq _ _)
      (fun hcnt => by rw [calls_commits, counted_commits hcmt] at hcnt; cases hcnt)
      hpids
  by_cases hown : (s.calls e.pid).counted = some customerId
  · -- it is `create` that commits: its call was among those that were let through
    have hins : s.LetThrough customerId (insert e.pid pids) := by
      intro q hq
      rcases Finset.mem_insert.1 hq with rfl | hq
      · exact hown
      · exact hbef q hq
    have hroom := h.room customerId _ hins
    rw [Finset.card_insert_of_notMem hnot] at hroom
    have hcard : (pendingOf (s.db.commit e.pid) customerId).card ≤
        (pendingOf s.db customerId).card + 1 := by
      generalize s.calls e.pid = at' at hcmt hwork hown
      cases hcmt with
      | create =>
        refine le_trans (Finset.card_le_card (pendingOf_create_subset hwork.1 hwork.2.1)) ?_
        rw [if_pos (some.inj hown)]
        exact Finset.card_insert_le _ _
      | leaves =>
        refine le_trans (Finset.card_le_card (pendingOf_left_subset hwork)) ?_
        rw [if_pos (some.inj hown)]
        exact Finset.card_insert_le _ _
      | _ => cases hown
    omega
  · have hsubset := pendingOf_commits_subset h.invariant.sound hwork hcmt hown
    exact le_trans (Nat.add_le_add_right (Finset.card_le_card hsubset) _)
      (h.room customerId pids hbef)

theorem capped_step (h : Capped config s) (hgood : SeesAll config s e)
    (hs : step config s e = some s') : Capped config s' := by
  refine ⟨invariant_step h.invariant hs, ?_⟩
  intro customerId pids hpids
  rcases step_cases hs with ⟨_, -, -, rfl⟩ | ⟨env, db, place, hact, hstmt, rfl⟩ |
    ⟨env, record, place, -, hcmt, rfl⟩ | ⟨failure, -, rfl⟩ |
    ⟨env, failure, input, -, hstmt, hrefusing, rfl⟩
  · refine h.room customerId pids (letThrough_of_moved e.pid
      (fun q hq => update_of_ne hq _ _) ?_ hpids)
    intro hcnt
    rw [calls_begins, counted_request] at hcnt
    cases hcnt
  · have hsame : pendingOf db customerId = pendingOf s.db customerId :=
      pendingOf_congr (kept_statement h.invariant.sound (h.invariant.work e.pid)
        hstmt).quiet.bookings
    show (pendingOf db customerId).card + pids.card ≤ _
    rw [hsame]
    by_cases hcount : ∃ input, s.calls e.pid = .countHolds input ∧ input.customerId = customerId
    · obtain ⟨input, hat, rfl⟩ := hcount
      rw [hat] at hstmt
      exact room_count h hgood hact hat hstmt hpids
    · refine h.room customerId pids (letThrough_of_moved e.pid
        (fun q hq => update_of_ne hq _ _) ?_ hpids)
      intro hcnt
      rw [calls_goes] at hcnt
      by_cases hany : ∃ input, s.calls e.pid = .countHolds input
      · obtain ⟨input, hat⟩ := hany
        rw [hat] at hstmt
        obtain ⟨-, rfl, -⟩ := countHolds_eq_goes hstmt
        exact absurd ⟨input, hat, some.inj hcnt⟩ hcount
      · exact counted_goesOn (goesOn_of_goes hstmt) (fun input hat => hany ⟨input, hat⟩) hcnt
  · exact room_commit h hcmt hpids
  · have hsame : pendingOf (s.db.rollback e.pid) customerId = pendingOf s.db customerId :=
      pendingOf_congr (sameCommitted_rollback _ _).bookings
    show (pendingOf (s.db.rollback e.pid) customerId).card + pids.card ≤ _
    rw [hsame]
    refine h.room customerId pids (letThrough_of_moved e.pid
      (fun q hq => update_of_ne hq _ _) ?_ hpids)
    intro hcnt
    rw [calls_fails, counted_failed] at hcnt
    cases hcnt
  · have hsame : pendingOf (leftBy config env s.db e.pid (s.calls e.pid)).1 customerId =
        pendingOf s.db customerId :=
      pendingOf_congr (kept_refuses hstmt h.invariant.sound (h.invariant.work e.pid)
        hrefusing).quiet.bookings
    show (pendingOf (leftBy config env s.db e.pid (s.calls e.pid)).1 customerId).card +
      pids.card ≤ _
    rw [hsame]
    refine h.room customerId pids (letThrough_of_moved e.pid
      (fun q hq => update_of_ne hq _ _) ?_ hpids)
    intro hcnt
    rw [refuses, calls_goes] at hcnt
    exact counted_refuses hstmt hrefusing hcnt

end Step

/-- In a run in which whoever is let through leaves room for those that were let through before
him, no customer ever has more holds than the cap. -/
theorem holdCap_run {config : BookingConfig} {es : List BookingStep} {s : BookingSystem}
    (hgood : Along (step config) (SeesAll config) start es)
    (h : runFrom (step config) start es = some s) : HoldCapKept config s :=
  (runFrom_invariant_along (I := Capped config) (fun _ _ _ hc hg hs => capped_step hc hg hs)
    capped_start hgood h).holdCapKept

/-- A customer books two slots, one after the other. -/
def oneAfterTheOther : List BookingStep :=
  publishes 0 1 7 100000000 ++ publishes 1 2 7 103600000 ++ books 2 5 1 50 0 ++ books 3 5 2 51 0

theorem holdCap_run_oneAfterTheOther :
    ∃ s, runFrom (step .default) start oneAfterTheOther = some s ∧ HoldCapKept .default s := by
  have hrun : (runFrom (step .default) start oneAfterTheOther).isSome = true := by decide +kernel
  have hgood : Along (step .default) (fun s e => (s.calls e.pid).counted = none →
      ∀ q ∈ [0, 1, 2, 3], (s.calls q).counted = none) start oneAfterTheOther := by
    decide +kernel
  obtain ⟨s, hs⟩ := isSome_iff_exists.1 hrun
  refine ⟨s, hs, holdCap_run (along_of_idle [0, 1, 2, 3] ?_ ?_ ?_ hgood) hs⟩
  · intro s e hidle hnone env input pids _ hat hpids hcount
    have hempty : pids = ∅ := by
      refine Finset.eq_empty_of_forall_notMem ?_
      intro q hq
      have hcnt := hpids q hq
      by_cases hmem : q ∈ [0, 1, 2, 3]
      · rw [hnone (by rw [hat]; rfl) q hmem] at hcnt
        cases hcnt
      · rw [hidle q hmem] at hcnt
        cases hcnt
    rwa [hempty]
  · decide
  · exact fun _ _ => rfl

/-- A customer has four holds, and asks for two slots more at the same time. -/
def twoAtOnce : List BookingStep :=
  publishes 0 1 7 100000000 ++ publishes 1 2 7 103600000 ++ publishes 2 3 7 107200000 ++
    publishes 3 4 7 110800000 ++ publishes 4 8 7 114400000 ++ publishes 5 9 7 118000000 ++
    books 6 5 1 51 0 ++ books 7 5 2 52 0 ++ books 8 5 3 53 0 ++ books 9 5 4 54 0 ++
    call 10 (.create ⟨5, 7, none, 8, none, false⟩) 1 0 55 ++ books 11 5 9 56 0 ++
    List.replicate 4 (takes 10 0 55)

/-- Both counts let the customer through: he has six holds, and the cap is five. -/
theorem holdCap_twoAtOnce_fails : ∃ s, runFrom (step .default) start twoAtOnce = some s ∧
    ¬HoldCapKept .default s := by
  obtain ⟨s, hs, hcard⟩ : ∃ s ∈ runFrom (step .default) start twoAtOnce,
      (holdsOf s.db 5 0).card = 6 := by
    decide +kernel
  refine ⟨s, hs, fun h => ?_⟩
  have hle : (holdsOf s.db 5 0).card ≤ 5 := h 5 0
  omega

end BookingSystem

end BeauClick.Scheduling
