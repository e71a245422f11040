import BeauClick.Scheduling.Invariant
import Mathlib.Data.Fintype.EquivFin

/-!
# What is listed can be claimed

`AvailabilityService.listClaimableSlots`, and what becomes of a call of `create` or `reschedule`
on a slot that it returns, when no other call is at work.
-/

namespace BeauClick.Scheduling

open ReadCommitted ReadCommitted.Versioned Runs Booking List Option Function

/-! ## The listing -/

/-- A window in which slots may be claimed. -/
structure AvailabilityWindow where
  «from» : Instant
  «to» : Instant

/-- `clampWindow`; it throws on a window that ends before it begins. -/
def clampWindow (config : BookingConfig) (window : AvailabilityWindow) :
    Option AvailabilityWindow :=
  let maxTo := window.from + config.maxAvailabilityWindowDays * 86400000
  let upTo := if maxTo < window.«to» then maxTo else window.«to»
  if upTo < window.from then none else some ⟨window.from, upTo⟩

/-- The predicate of `listClaimableSlots`. -/
def Listable (now : Instant) (professionalId : Uuid) (window : AvailabilityWindow)
    (serviceId : Option Uuid) (slot : AvailabilitySlotEntity) : Prop :=
  window.from ≤ slot.startAt ∧ slot.startAt ≤ window.«to» ∧ slot.Claimable professionalId now ∧
    (serviceId = none ∨ slot.serviceId = none ∨ slot.serviceId = serviceId)

instance (now : Instant) (professionalId : Uuid) (window : AvailabilityWindow)
    (serviceId : Option Uuid) (slot : AvailabilitySlotEntity) :
    Decidable (Listable now professionalId window serviceId slot) :=
  inferInstanceAs (Decidable (_ ∧ _ ∧ _ ∧ _))

/-- The committed slots that the predicate accepts. -/
def listable (db : BookingDb) (now : Instant) (professionalId : Uuid)
    (window : AvailabilityWindow) (serviceId : Option Uuid) :
    List (Uuid × AvailabilitySlotEntity) :=
  db.slots.keys.filterMap fun k => (db.slots.committed k).bind fun slot =>
    if Listable now professionalId window serviceId slot then some (k, slot) else none

/-- The free slots of a window, the earliest five hundred. -/
def listClaimableSlots (config : BookingConfig) (db : BookingDb) (now : Instant)
    (professionalId : Uuid) (window : AvailabilityWindow) (serviceId : Option Uuid) :
    Option (List (Uuid × AvailabilitySlotEntity)) :=
  (clampWindow config window).map fun window =>
    ((listable db now professionalId window serviceId).insertionSort
      fun a b => a.2.startAt ≤ b.2.startAt).take 500

variable {db : BookingDb} {now : Instant} {professionalId k : Uuid} {v : AvailabilitySlotEntity}
  {window : AvailabilityWindow} {serviceId : Option Uuid}

theorem mem_listable : (k, v) ∈ listable db now professionalId window serviceId ↔
      db.slots.committed k = some v ∧ Listable now professionalId window serviceId v := by
  unfold listable
  rw [mem_filterMap]
  constructor
  · rintro ⟨_, -, h⟩
    obtain ⟨_, hv', h⟩ := bind_eq_some_iff.1 h
    split at h
    · rename_i hlist
      cases h
      exact ⟨hv', hlist⟩
    · cases h
  · rintro ⟨hv, hlist⟩
    refine ⟨k, mem_keys_of_committed hv, ?_⟩
    rw [hv, bind_some, if_pos hlist]

theorem nodup_listable (db : BookingDb) (now : Instant) (professionalId : Uuid)
    (window : AvailabilityWindow) (serviceId : Option Uuid) :
    (listable db now professionalId window serviceId).Nodup := by
  refine List.Nodup.filterMap ?_ db.slots.nodup
  intro k k' e he he'
  obtain ⟨_, -, hv⟩ := bind_eq_some_iff.1 he
  obtain ⟨_, -, hv'⟩ := bind_eq_some_iff.1 he'
  split at hv
  · split at hv'
    · cases hv
      cases hv'
      rfl
    · cases hv'
  · cases hv

theorem claimable_of_listed {config : BookingConfig} {slots : List (Uuid × AvailabilitySlotEntity)}
    (h : listClaimableSlots config db now professionalId window serviceId = some slots)
    (hmem : (k, v) ∈ slots) : db.slots.committed k = some v ∧ v.Claimable v.professionalId now := by
  obtain ⟨_, -, rfl⟩ := map_eq_some_iff.1 h
  have hlist := (mem_insertionSort _).1 (mem_of_mem_take hmem)
  obtain ⟨hv, -, -, hclaim, -⟩ := mem_listable.1 hlist
  refine ⟨hv, ?_⟩
  rwa [hclaim.1]

/-- A slot that the claim's predicate accepts is listed in the window of its start, where the
exclusion constraint admits no other one of the professional. -/
theorem listed_of_claimable (config : BookingConfig) (hapart : db.slots.Apart SlotConflict)
    (hv : db.slots.committed k = some v) (hclaim : v.Claimable v.professionalId now) :
    ∃ slots, listClaimableSlots config db now v.professionalId ⟨v.startAt, v.startAt⟩ none =
      some slots ∧ (k, v) ∈ slots := by
  have hclamp : clampWindow config ⟨v.startAt, v.startAt⟩ = some ⟨v.startAt, v.startAt⟩ := by
    have hmax : ¬v.startAt + config.maxAvailabilityWindowDays * 86400000 < v.startAt :=
      not_lt.2 (le_add_of_nonneg_right (by positivity))
    simp [clampWindow, hmax]
  refine ⟨((listable db now v.professionalId ⟨v.startAt, v.startAt⟩ none).insertionSort
    fun a b => a.2.startAt ≤ b.2.startAt).take 500, by rw [listClaimableSlots, hclamp]; rfl, ?_⟩
  have hmem : (k, v) ∈ listable db now v.professionalId ⟨v.startAt, v.startAt⟩ none :=
    mem_listable.2 ⟨hv, le_rfl, le_rfl, hclaim, Or.inl rfl⟩
  -- the constraint leaves one row, so the limit cuts nothing off
  have hall : ∀ e ∈ listable db now v.professionalId ⟨v.startAt, v.startAt⟩ none, e = (k, v) := by
    rintro ⟨k', _⟩ he
    obtain ⟨hv', hfrom, hto, hclaim', -⟩ := mem_listable.1 he
    obtain rfl : k' = k :=
      hapart.committed hv' hv ⟨hclaim'.1, Or.inl (le_antisymm hto hfrom)⟩
    rw [some.inj (hv'.symm.trans hv)]
  have hlen : (listable db now v.professionalId ⟨v.startAt, v.startAt⟩ none).length ≤ 1 := by
    have hnodup := nodup_listable db now v.professionalId ⟨v.startAt, v.startAt⟩ none
    rw [eq_replicate_of_mem hall] at hnodup
    exact nodup_replicate.1 hnodup
  rw [take_of_length_le (by rw [length_insertionSort]; omega)]
  exact (mem_insertionSort _).2 hmem

/-! ## A call that is alone -/

/-- The tables when every call at work is rolled back. -/
def BookingDb.settle (db : BookingDb) : BookingDb where
  slots := db.slots.settle
  bookings := db.bookings.settle
  assignments := db.assignments.settle
  idempotencyKeys := db.idempotencyKeys.settle

theorem sound_settle (hs : Sound db) : Sound db.settle := by
  have hsame : SameCommitted db db.settle := ⟨rfl, rfl, rfl, rfl⟩
  exact hsame.sound hs hs.slotsApart.settle hs.bookingsApart.settle hs.assignmentsApart.settle

theorem noWork_settle (db : BookingDb) (pid : ℕ) : NoWork db.settle pid :=
  ⟨untouched_settle, untouched_settle, untouched_settle, untouched_settle⟩

namespace BookingSystem

/-- Every call at work is rolled back, and new calls may start. -/
def settle (s : BookingSystem) : BookingSystem where
  db := s.db.settle
  calls _ := .idle
  asked _ := none
  log := s.log

theorem invariant_settle {s : BookingSystem} (hi : Invariant s) : Invariant s.settle :=
  ⟨sound_settle hi.sound, noWork_settle s.db⟩

/-- The call comes to a place by taking its statements, while no other call takes any. -/
def Leads (config : BookingConfig) (env : Env) (pid : ℕ) (s : BookingSystem) (place : Place) :
    Prop :=
  ∃ n t, runFrom (step config) s (List.replicate n ⟨pid, .statement env⟩) = some t ∧
    t.calls pid = place

section Leads

variable {config : BookingConfig} {env : Env} {pid : ℕ} {s : BookingSystem} {place next : Place}

theorem leads_iff : Leads config env pid s place ↔ s.calls pid = place ∨
    ∃ s', step config s ⟨pid, .statement env⟩ = some s' ∧ Leads config env pid s' place := by
  constructor
  · rintro ⟨n, t, hrun, ht⟩
    cases n with
    | zero =>
      cases hrun
      exact Or.inl ht
    | succ n =>
      obtain ⟨s', hs, hrest⟩ := runFrom_cons_eq_some.1 hrun
      exact Or.inr ⟨s', hs, n, t, hrest, ht⟩
  · rintro (h | ⟨s', hs, n, t, hrest, ht⟩)
    · exact ⟨0, s, rfl, h⟩
    · exact ⟨n + 1, t, runFrom_cons_eq_some.2 ⟨s', hs, hrest⟩, ht⟩

theorem step_of_goes (h : statement config env s.db pid (s.calls pid) = .goes db next) :
    step config s ⟨pid, .statement env⟩ = some (s.goes pid db next) := by
  simp [step, h]

theorem step_of_commits {record : Record}
    (h : statement config env s.db pid (s.calls pid) = .commits record next) :
    step config s ⟨pid, .statement env⟩ = some (s.commits pid record next) := by
  simp [step, h]

theorem step_of_throws {failure : Failure}
    (h : statement config env s.db pid (s.calls pid) = .throws failure)
    (hrefusing : (s.calls pid).refusing failure = none) :
    step config s ⟨pid, .statement env⟩ = some (s.fails pid failure) := by
  simp [step, h, hrefusing]

theorem step_of_waits (h : statement config env s.db pid (s.calls pid) = .waits) :
    step config s ⟨pid, .statement env⟩ = none := by
  simp [step, h]

theorem leads_of_goes {at' : Place} {db' : BookingDb} (hdb : s.db = db) (hat : s.calls pid = at')
    (h : statement config env db pid at' = .goes db' next)
    (hrest : Leads config env pid (s.goes pid db' next) place) : Leads config env pid s place := by
  subst hdb hat
  exact leads_iff.2 (Or.inr ⟨_, step_of_goes h, hrest⟩)

end Leads

end BookingSystem

/-! ## A customer who may book -/

/-- A customer asks for the slot: he is below the cap, his request is for the slot's service, and
when that needs a resource one of the eligible ones is free; key and id are new. -/
structure MayBook (config : BookingConfig) (db : BookingDb) (pid : ℕ) (slotId : Uuid)
    (slot : AvailabilitySlotEntity) (now : Instant) (input : CreateBookingInput) (env : Env) :
    Prop where
  slotId : input.slotId = slotId
  professional : input.professionalId = slot.professionalId
  service : ¬ServiceMismatch slot.serviceId input.serviceId
  belowCap : (db.bookings.select pid fun b =>
    b.customerId = input.customerId ∧ b.status = .pending).length <
    config.maxConcurrentHoldsPerCustomer
  unused : ∀ key, input.idempotencyKey = some key →
    db.idempotencyKeys.committed (input.customerId, key) = none
  now : env.now = now
  newId : db.Unused env.newId
  resource : ∀ ids, env.eligible = some ids → ∃ resourceId ∈ ids,
    ∀ id a, db.assignments.committed id = some a →
      ¬AssignmentConflict ⟨resourceId, slot.startAt, slot.endAt, .active⟩ a

namespace BookingSystem

/-- Who may book a slot is given a booking, and no move onto it fails with a database error. -/
structure Honoured (config : BookingConfig) (s : BookingSystem) (now : Instant) (slotId : Uuid)
    (slot : AvailabilitySlotEntity) : Prop where
  create : ∀ pid input env, MayBook config s.settle.db pid slotId slot now input env →
    Leads config env pid (s.settle.begins pid (.create input)) (.returned (.booking env.newId))
  reschedule : ∀ pid (input : RescheduleInput) (envs : List Env) t, input.newSlotId = slotId →
    runFrom (step config) (s.settle.begins pid (.reschedule input))
      (envs.map fun env => ⟨pid, .statement env⟩) = some t →
    t.calls pid ≠ .threw .uniqueViolation

/-- Every slot that is listed is honoured. -/
def ListedHonoured (config : BookingConfig) (s : BookingSystem) (now : Instant) : Prop :=
  ∀ professionalId window serviceId slots,
    listClaimableSlots config s.db now professionalId window serviceId = some slots →
      ∀ slotId slot, (slotId, slot) ∈ slots → Honoured config s now slotId slot

/-- No pending booking is on a slot of the future whose hold has lapsed. -/
def NoneLapsed (db : BookingDb) (now : Instant) : Prop :=
  ∀ id b v, db.bookings.committed id = some b → b.status = .pending →
    db.slots.committed b.slotId = some v → now < v.startAt → ∀ t ∈ v.heldUntil, now ≤ t

end BookingSystem

/-! ## A slot that no active booking is on -/

/-- No pending or confirmed booking is on the slot. -/
def Vacant (db : BookingDb) (slotId : Uuid) : Prop :=
  ∀ id b, db.bookings.committed id = some b → b.status ∈ slotHoldingStatuses → b.slotId ≠ slotId

/-- A slot that the claim's predicate accepts is vacant, unless its hold has lapsed under a
booking that is still pending. -/
theorem vacant_of_claimable {slotId : Uuid} {slot : AvailabilitySlotEntity} (hs : Sound db)
    (h : BookingSystem.NoneLapsed db now) (hslot : db.slots.committed slotId = some slot)
    (hclaim : slot.Claimable professionalId now) : Vacant db slotId := by
  rintro id b hb hact rfl
  obtain ⟨v, hv, hkept⟩ := hs.active id b hb hact
  obtain rfl : v = slot := some.inj (hv.symm.trans hslot)
  obtain ⟨-, hfuture, hopen | ⟨hheldStatus, t, ht, hlapsed⟩⟩ := hclaim
  · have hnone := (hs.hold _ v hv).2 hopen
    rcases hkept with hkept | ⟨-, -, _, hheld, -⟩
    · cases hnone.symm.trans hkept.held
    · cases hnone.symm.trans hheld
  · have hpend : b.status = .pending := by
      rcases hkept with hkept | htaken
      · exact pending_of_not_booked hact (hkept.status ▸ hheldStatus ▸ by decide)
      · exact htaken.pending
    exact not_lt.2 (h id b v hb hpend hv hfuture t ht) hlapsed

section Statements

variable {config : BookingConfig} {env : Env} {db : BookingDb} {pid : ℕ}
  {input : CreateBookingInput} {claim : Claim}

theorem countHolds_of_lt (h : (db.bookings.select pid fun b =>
    b.customerId = input.customerId ∧ b.status = .pending).length <
    config.maxConcurrentHoldsPerCustomer) :
    countHolds config db pid input = .goes db (.claimSlot input) := by
  unfold countHolds
  rw [if_neg (not_le.2 h)]

/-- The slot as `create` claims it. -/
def claimOf (config : BookingConfig) (env : Env) (slotId : Uuid) (slot : AvailabilitySlotEntity) :
    Claim :=
  ⟨env.newId, slotId, slot.heldFor env.newId (config.holdUntil env.now), config.holdUntil env.now⟩

theorem claimForCreate_of_claimable {slot : AvailabilitySlotEntity}
    (hget : db.slots.get pid input.slotId = some slot)
    (hclaim : slot.Claimable input.professionalId env.now)
    (hlock : ¬(db.slots.row input.slotId).Locked pid)
    (hsvc : ¬ServiceMismatch slot.serviceId input.serviceId) (hunused : db.Unused env.newId) :
    claimForCreate config env db pid input =
      .goes (db.writeSlot pid input.slotId (claimOf config env input.slotId slot).slot)
        (.insertBooking input (claimOf config env input.slotId slot)) := by
  unfold claimForCreate claimSlot
  rw [if_neg (not_not.2 hunused), update_eq_of_get hget hclaim hlock]
  exact if_neg hsvc

section

variable (hget : db.bookings.get pid claim.bookingId = none)
include hget

theorem insertBooking_of_vacant (hlock : ¬(db.bookings.row claim.bookingId).Locked pid)
    (hfree : ∀ id ≠ claim.bookingId, ∀ b, (db.bookings.row id).Version b →
      b.status ∈ slotHoldingStatuses → b.slotId ≠ claim.slotId) :
    insertBooking db pid input claim =
      .goes (db.writeBooking pid claim.bookingId (newBooking input claim))
        (.findAssignment (.create input) claim) := by
  unfold insertBooking
  rw [insert_eq_of_get hlock hget, writeChecked_of_free]
  · rfl
  rintro id hid b hb ⟨-, hact, hslot⟩
  exact hfree id hid b hb hact hslot.symm

theorem insertBooking_of_taken {id : Uuid} {b : BookingEntity}
    (hlocks : ∀ id, ¬(db.bookings.row id).Locked pid) (hne : id ≠ claim.bookingId)
    (hb : (db.bookings.row id).Version b) (hact : b.status ∈ slotHoldingStatuses)
    (hslot : b.slotId = claim.slotId) :
    insertBooking db pid input claim = .throws .uniqueViolation := by
  unfold insertBooking
  rw [insert_eq_of_get (hlocks _) hget, writeChecked_of_conflict hne (hlocks id) hb
    ⟨slotHoldingStatuses_pending rfl, hact, hslot.symm⟩]

end

theorem insertKey_of_unused (claim : Claim)
    (hlocks : ∀ key, ¬(db.idempotencyKeys.row key).Locked pid)
    (hunused : ∀ key, input.idempotencyKey = some key →
      db.idempotencyKeys.get pid (input.customerId, key) = none) :
    ∃ db', insertKey db pid input claim = .goes db' (.commitCreate input claim) := by
  unfold insertKey
  split
  · exact ⟨db, rfl⟩
  · rename_i key hkey
    rw [insert_eq_of_get (hlocks _) (hunused key hkey), writeChecked_of_free]
    · exact ⟨_, rfl⟩
    · exact fun _ _ _ _ h => h

theorem tryResource_cons (purpose : Purpose) {resourceId : Uuid} (rest : List Uuid)
    (hlocks : ∀ id, ¬(db.assignments.row id).Locked pid)
    (hnone : db.assignments.get pid claim.bookingId = none)
    (helig : resourceId ∈ env.eligible.getD []) :
    (∃ assignments, tryResource env db pid purpose claim false (resourceId :: rest) =
      .goes { db with assignments := assignments } (purpose.next claim)) ∨
    tryResource env db pid purpose claim false (resourceId :: rest) =
      .goes db (.tryResource purpose claim false rest) ∧
    ∃ id a, (db.assignments.row id).Version a ∧
      AssignmentConflict (newAssignment claim resourceId) a := by
  have hins : db.assignments.insert pid claim.bookingId (newAssignment claim resourceId)
      (AssignmentConflict (newAssignment claim resourceId)) =
      db.assignments.writeChecked pid claim.bookingId (newAssignment claim resourceId)
        (AssignmentConflict (newAssignment claim resourceId)) :=
    insert_eq_of_get (hlocks claim.bookingId) hnone
  by_cases hc : ∃ id ≠ claim.bookingId, ∃ a, (db.assignments.row id).Version a ∧
      AssignmentConflict (newAssignment claim resourceId) a
  · obtain ⟨id, hne, a, ha, hconfl⟩ := hc
    rw [writeChecked_of_conflict hne (hlocks id) ha hconfl] at hins
    refine Or.inr ⟨?_, id, a, ha, hconfl⟩
    unfold tryResource
    dsimp only
    rw [if_neg (not_not.2 helig), if_neg (by decide), hins]
  · rw [writeChecked_of_free fun id hne a ha hconfl => hc ⟨id, hne, a, ha, hconfl⟩] at hins
    refine Or.inl ⟨db.assignments.write pid claim.bookingId (newAssignment claim resourceId), ?_⟩
    unfold tryResource
    dsimp only
    rw [if_neg (not_not.2 helig), if_neg (by decide), hins]

end Statements

namespace BookingSystem

section Create

variable {config : BookingConfig} {env : Env} {pid : ℕ} {s : BookingSystem} {place : Place}
  {input : CreateBookingInput} {claim : Claim} {db : BookingDb}

theorem leads_next (claim : Claim) (hlocks : ∀ key, ¬(s.db.idempotencyKeys.row key).Locked pid)
    (hunused : ∀ key, input.idempotencyKey = some key →
      s.db.idempotencyKeys.get pid (input.customerId, key) = none)
    (hat : s.calls pid = (Purpose.create input).next claim) :
    Leads config env pid s (.returned (.booking claim.bookingId)) := by
  have hcommit : ∀ t : BookingSystem, t.calls pid = .commitCreate input claim →
      Leads config env pid t (.returned (.booking claim.bookingId)) := by
    intro t ht
    have hstmt : statement config env t.db pid (t.calls pid) =
        .commits (.created input claim) (.returned (.booking claim.bookingId)) := by
      rw [ht]
      rfl
    refine leads_iff.2 (Or.inr ⟨_, step_of_commits hstmt, ?_⟩)
    exact leads_iff.2 (Or.inl (calls_commits ..))
  unfold Purpose.next at hat
  dsimp only at hat
  split at hat
  · exact hcommit s hat
  · obtain ⟨_, hkey⟩ := insertKey_of_unused claim hlocks hunused
    exact leads_of_goes rfl hat hkey (hcommit _ (calls_goes ..))

section

variable (hnone : db.assignments.get pid claim.bookingId = none)
include hnone

theorem leads_tryResource {candidates : List Uuid}
    (hlocks : ∀ id, ¬(db.assignments.row id).Locked pid)
    (hfree : ∃ resourceId ∈ candidates, resourceId ∈ env.eligible.getD [] ∧
      ∀ id a, (db.assignments.row id).Version a →
        ¬AssignmentConflict (newAssignment claim resourceId) a)
    (hrest : ∀ t : BookingSystem, t.db.idempotencyKeys = db.idempotencyKeys →
      t.calls pid = (Purpose.create input).next claim → Leads config env pid t place)
    (hdb : s.db = db) (hat : s.calls pid = .tryResource (.create input) claim false candidates) :
    Leads config env pid s place := by
  induction candidates generalizing s with
  | nil =>
    obtain ⟨resourceId, hmem, -⟩ := hfree
    cases hmem
  | cons first rest ih =>
    by_cases helig : first ∈ env.eligible.getD []
    · rcases tryResource_cons (.create input) rest hlocks hnone helig with
        ⟨assignments, hdone⟩ | ⟨hnext, id, a, ha, hconfl⟩
      · exact leads_of_goes hdb hat hdone (hrest _ rfl (calls_goes ..))
      · refine leads_of_goes hdb hat hnext (ih ?_ rfl (calls_goes ..))
        obtain ⟨resourceId, hmem, hother, hapart⟩ := hfree
        rcases mem_cons.1 hmem with rfl | hmem
        · exact absurd hconfl (hapart id a ha)
        · exact ⟨resourceId, hmem, hother, hapart⟩
    · have hskip : tryResource env db pid (.create input) claim false (first :: rest) =
          .goes db (.tryResource (.create input) claim false rest) := if_pos helig
      refine leads_of_goes hdb hat hskip (ih ?_ rfl (calls_goes ..))
      obtain ⟨resourceId, hmem, hother, hapart⟩ := hfree
      rcases mem_cons.1 hmem with rfl | hmem
      · exact absurd hother helig
      exact ⟨resourceId, hmem, hother, hapart⟩

theorem leads_findAssignment (hdb : s.db = db)
    (hat : s.calls pid = .findAssignment (.create input) claim)
    (hlocks : ∀ id, ¬(db.assignments.row id).Locked pid)
    (hfree : ∀ ids, env.eligible = some ids → ∃ resourceId ∈ ids,
      ∀ id a, (db.assignments.row id).Version a →
        ¬AssignmentConflict (newAssignment claim resourceId) a)
    (hrest : ∀ t : BookingSystem, t.db.idempotencyKeys = db.idempotencyKeys →
      t.calls pid = (Purpose.create input).next claim → Leads config env pid t place) :
    Leads config env pid s place := by
  cases helig : env.eligible with
  | none =>
    have hgoes : findAssignment env db pid (.create input) claim =
        .goes db ((Purpose.create input).next claim) := by
      unfold findAssignment
      rw [helig, hnone]
      rfl
    exact leads_of_goes hdb hat hgoes (hrest _ rfl (calls_goes ..))
  | some ids =>
    obtain ⟨resourceId, hmem, hapart⟩ := hfree ids helig
    have hgoes : findAssignment env db pid (.create input) claim =
        .goes db (.tryResource (.create input) claim false (ids.insertionSort (· ≤ ·))) := by
      unfold findAssignment
      rw [helig, hnone]
      cases ids with
      | nil => cases hmem
      | cons => rfl
    refine leads_of_goes hdb hat hgoes (leads_tryResource hnone hlocks ?_ hrest rfl
      (calls_goes ..))
    refine ⟨resourceId, (mem_insertionSort _).2 hmem, ?_, hapart⟩
    rwa [helig]

end

theorem begins_create_leads (hkey : ∀ key, input.idempotencyKey = some key →
      s.db.idempotencyKeys.get pid (input.customerId, key) = none)
    (hrest : ∀ t : BookingSystem, t.db = s.db → t.calls pid = .countHolds input →
      Leads config env pid t place) :
    Leads config env pid (s.begins pid (.create input)) place := by
  have hcalls := calls_begins s pid (.create input)
  unfold Request.place at hcalls
  dsimp only at hcalls
  split at hcalls
  · exact hrest _ rfl hcalls
  · rename_i key hsome
    have hfind : statement config env s.db pid (.findKey input) = .goes s.db (.countHolds input) := by
      have hnone : findByIdempotencyKey s.db pid input = none := by
        unfold findByIdempotencyKey
        rw [hsome]
        dsimp only
        rw [hkey key hsome]
      unfold statement
      dsimp only
      rw [hnone]
    exact leads_of_goes rfl hcalls hfind (hrest _ rfl (calls_goes ..))

theorem create_of_vacant {slotId : Uuid} {slot : AvailabilitySlotEntity} (hs : Sound s.db)
    (hvacant : Vacant s.db slotId) (hslot : s.db.slots.committed slotId = some slot)
    (hclaim : slot.Claimable slot.professionalId now)
    (hmay : MayBook config s.settle.db pid slotId slot now input env) :
    Leads config env pid (s.settle.begins pid (.create input)) (.returned (.booking env.newId)) := by
  obtain ⟨rfl, hprof, hsvc, hcap, hunused, rfl, hnew, hresource⟩ := hmay
  refine begins_create_leads (fun key hkey => get_settle.trans (hunused key hkey)) ?_
  intro t₀ hdb₀ hat₀
  refine leads_of_goes hdb₀ hat₀ (countHolds_of_lt hcap) ?_
  refine leads_of_goes rfl (calls_goes ..) (claimForCreate_of_claimable
    (get_settle.trans hslot) (hprof ▸ hclaim) not_locked_settle hsvc hnew) ?_
  refine leads_of_goes rfl (calls_goes ..) (insertBooking_of_vacant (get_settle.trans hnew.1)
    not_locked_settle fun id _ b hb hact => hvacant id b (version_settle hb) hact) ?_
  have hnone : s.settle.db.assignments.get pid env.newId = none := by
    cases ha : s.db.assignments.committed env.newId with
    | none => exact get_settle.trans ha
    | some a =>
      obtain ⟨_, hb⟩ := hs.assigned _ a ha
      exact absurd (hb.symm.trans hnew.1) (by simp)
  refine leads_findAssignment hnone rfl (calls_goes ..) (fun _ => not_locked_settle)
    ?_ ?_
  · intro ids hids
    obtain ⟨resourceId, hmem, hapart⟩ := hresource ids hids
    exact ⟨resourceId, hmem, fun id a ha => hapart id a (version_settle ha)⟩
  · intro t hkeys hat
    refine leads_next (claimOf config env input.slotId slot) ?_ ?_ hat
    · intro key
      rw [hkeys]
      exact not_locked_settle
    · intro key hkey
      rw [hkeys]
      exact get_settle.trans (hunused key hkey)

end Create

end BookingSystem

/-! ## A move onto a vacant slot -/

/-- The places of a `reschedule` onto a slot; it has not failed with a database error. -/
def MovesOnto (slotId : Uuid) : Place → Prop
  | .findBooking input => input.newSlotId = slotId
  | .findNewSlot m | .claimNewSlot m | .moveBooking m _ => m.input.newSlotId = slotId
  | .findAssignment purpose _ | .releaseExisting purpose _ | .tryResource purpose _ _ _ =>
    ∃ m, purpose = .reschedule m ∧ m.input.newSlotId = slotId
  | .bookNewSlot .. | .releaseOldSlot .. | .commitMove .. | .returned _ => True
  | .threw failure => failure ≠ .uniqueViolation
  | _ => False

section Move

variable {config : BookingConfig} {env : Env} {db db' : BookingDb} {pid : ℕ} {place at' : Place}
  {slotId : Uuid}

theorem movesOnto_next {purpose : Purpose} (claim : Claim)
    (h : ∃ m, purpose = .reschedule m ∧ m.input.newSlotId = slotId) :
    MovesOnto slotId (purpose.next claim) := by
  obtain ⟨_, rfl, hm⟩ := h
  exact hm

theorem movesOnto_goesOn (hat : MovesOnto slotId at') (h : GoesOn at' place) :
    MovesOnto slotId place := by
  cases h with
  | read | allowed | unneeded | tries | triesOn => exact hat
  | reclaimed m => exact ⟨m, rfl, hat⟩
  | unassigned purpose claim | released purpose claim | assigned purpose claim =>
    exact movesOnto_next claim hat
  | revived | moved | rebooked | left => trivial
  | _ => exact hat.elim

section

variable (halone : ∀ q, q ≠ pid → db.bookings.Untouched q)
include halone

theorem moveBooking_ne_violation {m : Move} {claim : Claim} (hvacant : Vacant db slotId)
    (hat : m.input.newSlotId = slotId) (hclaim : MoveClaim db pid m claim) :
    moveBooking db pid m claim ≠ .throws .uniqueViolation := by
  intro h
  unfold moveBooking at h
  split at h
  · cases h
  · cases h
  · rename_i hviol
    obtain ⟨_, -, -, id, hne, -, b, hb, -, hact, hslot⟩ := updateChecked_eq_violated hviol
    have hbslot : b.slotId = slotId := by
      rw [← hat, ← hclaim.slotId]
      exact hslot.symm
    rcases hb with hb | ⟨q, hb⟩
    · exact hvacant id b hb hact hbslot
    · by_cases hq : q = pid
      · subst hq
        rcases hclaim.read.lock with hu | ⟨-, honly⟩
        · exact hu id ⟨b, hb⟩
        · exact hne (honly id ⟨b, hb⟩)
      · exact halone q hq id ⟨b, hb⟩
  · cases h

theorem movesOnto_ne_violation (hat : MovesOnto slotId at') (hvacant : Vacant db slotId)
    (hw : Work db pid at') :
    statement config env db pid at' ≠ .throws .uniqueViolation := by
  intro h
  cases at' with
  | findBooking =>
    unfold statement findBooking at h
    dsimp only at h
    repeat' split at h
    all_goals cases h
  | findNewSlot =>
    unfold statement findNewSlot at h
    dsimp only at h
    repeat' split at h
    all_goals cases h
  | claimNewSlot =>
    unfold statement claimForMove at h
    dsimp only at h
    split at h
    · cases h
    · cases h
    · rename_i hviol
      exact update_ne_violated hviol
    · cases h
  | findAssignment =>
    unfold statement findAssignment at h
    dsimp only at h
    repeat' split at h
    all_goals cases h
  | releaseExisting =>
    unfold statement releaseExisting at h
    dsimp only at h
    split at h <;> cases h
  | tryResource =>
    unfold statement tryResource at h
    dsimp only at h
    repeat' split at h
    all_goals cases h
  | moveBooking => exact moveBooking_ne_violation halone hvacant hat hw.1 h
  | bookNewSlot =>
    unfold statement bookSlotOf at h
    dsimp only at h
    split at h <;> cases h
  | releaseOldSlot =>
    unfold statement releaseSlotOf at h
    dsimp only at h
    split at h <;> cases h
  | commitMove | returned | threw => cases h
  | _ => exact hat.elim

end

end Move

namespace BookingSystem

/-- A call is alone, and is moving a booking onto a slot; as long as it is at work, no active
booking is on the slot. -/
structure MovingAlone (s : BookingSystem) (pid : ℕ) (slotId : Uuid) : Prop where
  invariant : Invariant s
  alone : ∀ q, q ≠ pid → s.calls q = .idle
  moves : MovesOnto slotId (s.calls pid)
  vacant : (s.calls pid).running = true → Vacant s.db slotId

section Moving

variable {config : BookingConfig} {env : Env} {s s' : BookingSystem} {pid : ℕ} {slotId : Uuid}

theorem update_alone {place : Place} (h : ∀ q, q ≠ pid → s.calls q = .idle) (q : ℕ)
    (hq : q ≠ pid) : update s.calls pid place q = .idle := by
  rw [update_of_ne hq]
  exact h q hq

theorem movingAlone_step (h : MovingAlone s pid slotId)
    (hs : step config s ⟨pid, .statement env⟩ = some s') : MovingAlone s' pid slotId := by
  have hi : Invariant s' := invariant_step h.invariant hs
  cases hstmt : statement config env s.db pid (s.calls pid) with
  | waits =>
    rw [step_of_waits hstmt] at hs
    cases hs
  | goes db =>
    cases (step_of_goes hstmt).symm.trans hs
    have hrun := running_of_statement (hstmt.trans_ne (by simp))
    have hquiet := (kept_statement h.invariant.sound (h.invariant.work pid) hstmt).quiet
    refine ⟨hi, update_alone h.alone, ?_, ?_⟩
    · rw [calls_goes]
      exact movesOnto_goesOn h.moves (goesOn_of_goes hstmt)
    · intro _ id b hb
      have hsame : db.bookings.committed = s.db.bookings.committed := hquiet.bookings
      exact h.vacant hrun id b (hsame ▸ hb)
  | commits record place =>
    cases (step_of_commits hstmt).symm.trans hs
    have hplace : ∃ result, place = .returned result := by
      have hmoves := h.moves
      have hcmt := statement_eq_commits hstmt
      generalize s.calls pid = at' at hcmt hmoves
      cases hcmt with
      | move => exact ⟨_, rfl⟩
      | _ => exact hmoves.elim
    obtain ⟨_, rfl⟩ := hplace
    refine ⟨hi, update_alone h.alone, ?_, ?_⟩
    · rw [calls_commits]
      trivial
    · rw [calls_commits]
      intro hrun
      cases hrun
  | throws failure =>
    have hcatch : (s.calls pid).catching = none := by
      have hmoves := h.moves
      generalize s.calls pid = at' at hmoves
      cases at' with
      | findAssignment => obtain ⟨m, rfl, -⟩ := hmoves; rfl
      | releaseExisting => obtain ⟨m, rfl, -⟩ := hmoves; rfl
      | tryResource => obtain ⟨m, rfl, -⟩ := hmoves; rfl
      | _ => first | rfl | exact hmoves.elim
    have hrefusing : (s.calls pid).refusing failure = none := by
      rw [Place.refusing, hcatch]
      rfl
    cases (step_of_throws hstmt hrefusing).symm.trans hs
    have hnext : (s.fails pid failure).calls pid = .threw failure := by
      rw [calls_fails, Place.failed, hcatch]
    refine ⟨hi, update_alone h.alone, ?_, ?_⟩
    · rw [hnext]
      rintro rfl
      have hrun := running_of_statement (hstmt.trans_ne (by simp))
      refine movesOnto_ne_violation ?_ h.moves (h.vacant hrun) (h.invariant.work pid) hstmt
      intro q hq
      have hwork : Work s.db q (s.calls q) := h.invariant.work q
      rw [h.alone q hq] at hwork
      exact hwork.bookings
    · rw [hnext]
      intro hrun
      cases hrun

theorem movingAlone_run {envs : List Env} {t : BookingSystem} (h : MovingAlone s pid slotId)
    (hrun : runFrom (step config) s (envs.map fun env => ⟨pid, .statement env⟩) = some t) :
    MovingAlone t pid slotId := by
  induction envs generalizing s with
  | nil =>
    cases hrun
    exact h
  | cons env envs ih =>
    obtain ⟨_, hs, hrest⟩ := runFrom_cons_eq_some.1 hrun
    exact ih (movingAlone_step h hs) hrest

end Moving

/-! ## The listing is honoured -/

section Honoured

variable {config : BookingConfig} {s : BookingSystem} {now : Instant} {slotId : Uuid}
  {slot : AvailabilitySlotEntity} {env : Env} {pid : ℕ}

theorem honoured_of_vacant (hi : Invariant s) (hvacant : Vacant s.db slotId)
    (hslot : s.db.slots.committed slotId = some slot)
    (hclaim : slot.Claimable slot.professionalId now) : Honoured config s now slotId slot where
  create := fun pid input env hmay => create_of_vacant hi.sound hvacant hslot hclaim hmay
  reschedule := by
    intro pid input envs t hnew hrun
    have hself : (s.settle.begins pid (.reschedule input)).calls pid = .findBooking input :=
      calls_begins s.settle pid (.reschedule input)
    have hother : ∀ q, q ≠ pid → (s.settle.begins pid (.reschedule input)).calls q = .idle :=
      fun q hq => update_of_ne hq _ _
    have hbegin : MovingAlone (s.settle.begins pid (.reschedule input)) pid slotId := by
      refine ⟨?_, hother, ?_, fun _ => hvacant⟩
      · refine ⟨(invariant_settle hi).sound, fun q => ?_⟩
        by_cases hq : q = pid
        · subst hq
          rw [hself]
          exact noWork_settle s.db q
        · rw [hother q hq]
          exact noWork_settle s.db q
      · rw [hself]
        exact hnew
    intro hthrew
    have hmoves := (movingAlone_run hbegin hrun).moves
    rw [hthrew] at hmoves
    exact hmoves rfl

theorem not_leads_of_violation {input : CreateBookingInput} {claim : Claim} {bookingId : Uuid}
    (hkey : input.idempotencyKey = none) (hat : s.calls pid = .insertBooking input claim)
    (hviol : insertBooking s.db pid input claim = .throws .uniqueViolation) :
    ¬Leads config env pid s (.returned (.booking bookingId)) := by
  intro hleads
  have hstmt : statement config env s.db pid (s.calls pid) = .throws .uniqueViolation := by
    rw [hat]
    exact hviol
  have hself : (s.fails pid .uniqueViolation).calls pid = .threw .slotUnavailable := by
    rw [calls_fails, hat]
    simp [Place.failed, Place.catching, Place.creating, hkey]
  have hrefusing : (s.calls pid).refusing .uniqueViolation = none := by
    rw [hat]
    simp [Place.refusing, Place.catching, Place.creating, Failure.thrown, Option.filter]
  rcases leads_iff.1 hleads with h | ⟨_, hs, hrest⟩
  · rw [hat] at h
    cases h
  · cases (step_of_throws hstmt hrefusing).symm.trans hs
    rcases leads_iff.1 hrest with h | ⟨_, hs', -⟩
    · rw [hself] at h
      cases h
    · rw [step_of_waits (by rw [hself]; rfl)] at hs'
      cases hs'

theorem goes_of_leads {at' next place : Place} {db' : BookingDb} (hdb : s.db = db)
    (hat : s.calls pid = at') (hne : at' ≠ place)
    (h : statement config env db pid at' = .goes db' next) (hl : Leads config env pid s place) :
    Leads config env pid (s.goes pid db' next) place := by
  subst hdb hat
  rcases leads_iff.1 hl with heq | ⟨_, hs, hrest⟩
  · exact absurd heq hne
  cases (step_of_goes h).symm.trans hs
  exact hrest

theorem exists_newcomer (db : BookingDb) : ∃ customerId newId, db.settle.Unused newId ∧
    ∀ id b, db.bookings.committed id = some b → b.customerId ≠ customerId := by
  obtain ⟨customerId, hcust⟩ := Infinite.exists_notMem_finset
    (db.bookings.keys.filterMap fun id => (db.bookings.committed id).map (·.customerId)).toFinset
  obtain ⟨newId, hnew⟩ := Infinite.exists_notMem_finset (db.bookings.keys ++
    db.slots.keys.filterMap fun k => (db.slots.committed k).bind (·.heldByBookingId)).toFinset
  rw [List.mem_toFinset, mem_append, not_or] at hnew
  refine ⟨customerId, newId, ⟨?_, ?_⟩, ?_⟩
  · show db.bookings.committed newId = none
    rw [committed, db.bookings.complete newId hnew.1]
    rfl
  · rintro k - ⟨v, hv, hheld⟩
    have hcomm : db.slots.committed k = some v := version_settle hv
    refine hnew.2 (mem_filterMap.2 ⟨k, mem_keys_of_committed hcomm, ?_⟩)
    rw [hcomm]
    exact hheld
  · rintro id b hb rfl
    refine hcust (List.mem_toFinset.2 (mem_filterMap.2 ⟨id, mem_keys_of_committed hb, ?_⟩))
    rw [hb, map_some]

theorem not_honoured_of_pending {id : Uuid} {b : BookingEntity}
    (hb : s.db.bookings.committed id = some b) (hpend : b.status = .pending)
    (hslot : s.db.slots.committed b.slotId = some slot)
    (hclaim : slot.Claimable slot.professionalId now) :
    ¬Honoured config s now b.slotId slot := by
  intro h
  obtain ⟨customerId, newId, hnew, hcust⟩ := exists_newcomer s.db
  let input : CreateBookingInput := ⟨customerId, slot.professionalId, none, b.slotId, none,
    false⟩
  let env : Env := ⟨now, newId, none, none, false, true⟩
  have hcap : (s.settle.db.bookings.select 0 fun x =>
      x.customerId = input.customerId ∧ x.status = .pending).length <
      config.maxConcurrentHoldsPerCustomer := by
    have hnone : s.settle.db.bookings.select 0 (fun x =>
        x.customerId = input.customerId ∧ x.status = .pending) = [] := by
      refine filter_eq_nil_iff.2 ?_
      intro k _
      have hget : s.settle.db.bookings.get 0 k = s.db.bookings.committed k := get_settle
      rw [hget]
      cases hk : s.db.bookings.committed k with
      | none => simp
      | some x => simp [input, hcust k x hk]
    rw [hnone]
    exact config.maxConcurrentHoldsPerCustomer_pos
  have hmay : MayBook config s.settle.db 0 b.slotId slot now input env := by
    refine ⟨rfl, rfl, ?_, hcap, ?_, rfl, hnew, ?_⟩
    · rintro ⟨-, hnone, -⟩
      exact hnone rfl
    · intro key hkey
      cases hkey
    · intro ids hids
      cases hids
  have hleads := h.create 0 input env hmay
  have hat : (s.settle.begins 0 (.create input)).calls 0 = .countHolds input :=
    calls_begins s.settle 0 (.create input)
  have hcnt : statement config env s.settle.db 0 (.countHolds input) =
      .goes s.settle.db (.claimSlot input) := countHolds_of_lt hcap
  have hclaimed : statement config env s.settle.db 0 (.claimSlot input) =
      .goes (s.settle.db.writeSlot 0 b.slotId (claimOf config env b.slotId slot).slot)
        (.insertBooking input (claimOf config env b.slotId slot)) :=
    claimForCreate_of_claimable (get_settle.trans hslot) hclaim not_locked_settle
      (fun hmismatch => hmismatch.2.1 rfl) hnew
  have hleads₁ := goes_of_leads rfl hat (by simp) hcnt hleads
  have hleads₂ := goes_of_leads rfl (calls_goes ..) (by simp) hclaimed hleads₁
  refine not_leads_of_violation rfl (calls_goes ..) ?_ hleads₂
  -- the booking that is pending still has the slot
  have hne : id ≠ newId := by
    rintro rfl
    cases hnew.1.symm.trans hb
  exact insertBooking_of_taken (get_settle.trans hnew.1) (fun _ => not_locked_settle) hne
    (Or.inl hb) (slotHoldingStatuses_pending hpend) rfl

end Honoured

/-- In every reachable state and at every instant, what is listed is honoured exactly when no
pending booking is on a slot of the future whose hold has lapsed. -/
theorem listedHonoured_iff {config : BookingConfig} {es : List BookingStep} {s : BookingSystem}
    (h : runFrom (step config) start es = some s) (now : Instant) :
    ListedHonoured config s now ↔ NoneLapsed s.db now := by
  have hi : Invariant s := invariant_run h
  constructor
  · intro hlisted id b v hb hpend hv hfuture t ht
    by_contra hlapsed
    have hheld : v.status = .held := by
      obtain ⟨v', hv', hkept⟩ := hi.sound.active id b hb (slotHoldingStatuses_pending hpend)
      obtain rfl : v = v' := some.inj (hv.symm.trans hv')
      rcases hkept with hkept | htaken
      · rw [hkept.status, hpend]
        rfl
      · exact htaken.held
    have hclaim : v.Claimable v.professionalId now :=
      ⟨rfl, hfuture, Or.inr ⟨hheld, t, ht, not_le.1 hlapsed⟩⟩
    obtain ⟨slots, hslots, hmem⟩ := listed_of_claimable config hi.sound.slotsApart hv
      hclaim
    exact not_honoured_of_pending hb hpend hv hclaim
      (hlisted _ _ _ slots hslots b.slotId v hmem)
  · intro hnone professionalId window serviceId slots hslots slotId slot hmem
    obtain ⟨hslot, hclaim⟩ := claimable_of_listed hslots hmem
    exact honoured_of_vacant hi (vacant_of_claimable hi.sound hnone hslot hclaim) hslot hclaim

/-- A slot is published, and nobody has booked it. -/
theorem listedHonoured_iff_published : ∃ s,
    runFrom (step .default) start (publishes 0 1 7 100000000) = some s ∧
      (ListedHonoured .default s 0 ↔ NoneLapsed s.db 0) := by
  have hrun : (runFrom (step .default) start (publishes 0 1 7 100000000)).isSome = true := by
    decide +kernel
  obtain ⟨s, hs⟩ := isSome_iff_exists.1 hrun
  exact ⟨s, hs, listedHonoured_iff hs 0⟩

/-- Two slots are booked, and the hold of the first one lapses before the sweep has run. -/
def unsweptHold : List BookingStep :=
  publishes 0 1 7 100000000 ++ publishes 1 2 7 103600000 ++ books 2 5 1 50 0 ++ books 3 6 2 60 500000

/-- The second booking is moved onto the first slot. -/
def ontoUnswept : RescheduleInput := ⟨60, 1, theCustomer, none, false⟩

/-- The slot is listed, and moving the other booking onto it fails with a database error. -/
theorem listedHonoured_unsweptHold_fails : ∃ s,
    runFrom (step .default) start unsweptHold = some s ∧ ¬ListedHonoured .default s 1000000 := by
  let envs : List Env := List.replicate 5 ⟨1000000, 0, none, none, false, true⟩
  obtain ⟨s, hs, ⟨slots, hslots, ⟨slotId, slot⟩, hslot, hkey⟩, t, ht, hthrew⟩ :
      ∃ s ∈ runFrom (step .default) start unsweptHold,
        (∃ slots ∈ listClaimableSlots .default s.db 1000000 7 ⟨0, 200000000⟩ none,
          ∃ slot ∈ slots, slot.1 = 1) ∧
        ∃ t ∈ runFrom (step .default) (s.settle.begins 9 (.reschedule ontoUnswept))
          (envs.map fun env => ⟨9, .statement env⟩), t.calls 9 = .threw .uniqueViolation := by
    decide +kernel
  subst hkey
  exact ⟨s, hs, fun h => (h 7 ⟨0, 200000000⟩ none slots hslots 1 slot hslot).reschedule 9
    ontoUnswept envs t rfl ht hthrew⟩

end BookingSystem

end BeauClick.Scheduling
