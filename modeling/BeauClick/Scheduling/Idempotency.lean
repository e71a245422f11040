import BeauClick.Scheduling.Invariant

/-!
# A booking is created once for a key

The key is inserted under a unique index in the transaction that inserts the booking, and a call
that fails looks its key up again.  In its caller's transaction, a call that finds the key then has
the claim committed that it was refused with.
-/

namespace BeauClick.Scheduling

open ReadCommitted ReadCommitted.Versioned Runs Booking List Option
open Function (update update_self update_of_ne)

/-- The transaction has created a booking under a key. -/
def Record.createdFor (customerId : Uuid) (key : String) : Record → Bool
  | created input _ => input.customerId = customerId ∧ input.idempotencyKey = some key
  | _ => false

theorem createdFor_iff {customerId : Uuid} {key : String} {r : Record} :
    r.createdFor customerId key = true ↔ ∃ input claim, r = .created input claim ∧
      input.customerId = customerId ∧ input.idempotencyKey = some key := by
  constructor
  · intro h
    cases r with
    | created input claim => exact ⟨input, claim, rfl, by simpa [Record.createdFor] using h⟩
    | _ => cases h
  · rintro ⟨_, _, rfl, h⟩
    simpa [Record.createdFor] using h

/-- What a call of `create` returns is the booking of its key. -/
def Returns (db : BookingDb) (input : CreateBookingInput) (result : Result) : Prop :=
  ∃ bookingId, result = .booking bookingId ∧ ∀ key, input.idempotencyKey = some key →
    db.idempotencyKeys.committed (input.customerId, key) = some bookingId

/-- The places of a call of `create`. -/
def Creates (db : BookingDb) (input : CreateBookingInput) : Place → Prop
  | .findKey i | .countHolds i | .claimSlot i | .insertBooking i _ | .insertKey i _
  | .commitCreate i _ | .findKeyAgain i _ | .refused i _ _ => i = input
  | .replays i bookingId _ => i = input ∧ Returns db input (.booking bookingId)
  | .findAssignment purpose _ | .releaseExisting purpose _ | .tryResource purpose _ _ _ =>
    purpose = .create input
  | .returned result => Returns db input result
  | .threw _ => True
  | _ => False

section Statement

variable {config : BookingConfig} {env : Env} {db db' : BookingDb} {pid : ℕ}
  {place at' next : Place} {input : CreateBookingInput} {record : Record}

theorem creates_next (claim : Claim) : Creates db input ((Purpose.create input).next claim) := by
  unfold Purpose.next
  dsimp only
  split <;> rfl

theorem returns_of_find {bookingId : Uuid} (hw : NoWork db pid)
    (h : findByIdempotencyKey db pid input = some bookingId) :
    Returns db input (.booking bookingId) := by
  refine ⟨bookingId, rfl, ?_⟩
  intro key hkey
  unfold findByIdempotencyKey at h
  rw [hkey] at h
  dsimp only at h
  split at h
  · cases h
  rename_i id hid
  obtain ⟨_, -, rfl⟩ := map_eq_some_iff.1 h
  exact hw.keys.get_eq.symm.trans hid

theorem creates_statement (hw : Work db pid at') (hc : Creates db input at')
    (h : statement config env db pid at' = .goes db' place) :
    SameCommitted db db' ∧ Creates db' input place := by
  cases at' with
  | findKey i =>
    obtain rfl : i = input := hc
    unfold statement at h
    dsimp only at h
    split at h
    · rename_i bookingId hfound
      cases h
      exact ⟨.refl, returns_of_find hw hfound⟩
    · cases h
      exact ⟨.refl, rfl⟩
  | findKeyAgain i =>
    obtain rfl : i = input := hc
    unfold statement at h
    dsimp only at h
    split at h
    · rename_i bookingId hfound
      cases h
      exact ⟨.refl, returns_of_find hw hfound⟩
    · cases h
      exact ⟨.refl, trivial⟩
  | refused i =>
    obtain rfl : i = input := hc
    unfold statement at h
    dsimp only at h
    split at h
    · rename_i bookingId hfound
      cases h
      obtain ⟨id, hid, hkey⟩ := returns_of_find (BookingSystem.noWork_rollback db pid) hfound
      refine ⟨.refl, rfl, id, hid, fun key hk => ?_⟩
      exact (congrFun (BookingSystem.sameCommitted_rollback db pid).keys _).symm.trans (hkey key hk)
    · cases h
  | countHolds =>
    obtain ⟨rfl, rfl, -⟩ := countHolds_eq_goes h
    exact ⟨.refl, hc⟩
  | claimSlot =>
    obtain ⟨_, -, -, -, -, rfl, rfl⟩ := claimForCreate_eq_goes h
    exact ⟨sameCommitted_writeSlot, hc⟩
  | insertBooking =>
    obtain ⟨-, -, -, rfl, rfl⟩ := insertBooking_eq_goes h
    exact ⟨sameCommitted_writeBooking, congrArg Purpose.create hc⟩
  | findAssignment purpose claim =>
    obtain rfl : purpose = .create input := hc
    obtain ⟨rfl, rfl | ⟨rfl, -⟩ | ⟨_, _, rfl⟩⟩ := findAssignment_eq_goes h
    · exact ⟨.refl, rfl⟩
    · exact ⟨.refl, creates_next claim⟩
    · exact ⟨.refl, rfl⟩
  | releaseExisting purpose claim =>
    obtain rfl : purpose = .create input := hc
    obtain ⟨rfl, ⟨rfl, -⟩ | ⟨_, -, -, rfl⟩⟩ := releaseExisting_eq_goes h
    · exact ⟨.refl, creates_next claim⟩
    · exact ⟨sameCommitted_writeAssignment, creates_next claim⟩
  | tryResource purpose claim =>
    obtain rfl : purpose = .create input := hc
    rcases tryResource_eq_goes h with ⟨rfl, _, rfl⟩ | ⟨rfl, ⟨rfl, -⟩ | ⟨_, -, -, rfl⟩⟩
    · exact ⟨.refl, rfl⟩
    · exact ⟨.refl, creates_next claim⟩
    · exact ⟨sameCommitted_writeAssignment, creates_next claim⟩
  | insertKey =>
    obtain ⟨rfl, ⟨-, rfl⟩ | ⟨_, -, -, -, rfl⟩⟩ := insertKey_eq_goes h
    · exact ⟨.refl, hc⟩
    · exact ⟨sameCommitted_writeKey, hc⟩
  | returned | threw | commitCreate => cases h
  | replays i bookingId claim => cases claim <;> cases h
  | _ => exact hc.elim

/-- Once a key is committed, it stays what it is. -/
def KeysKept (db db' : BookingDb) : Prop :=
  ∀ key id, db.idempotencyKeys.committed key = some id →
    db'.idempotencyKeys.committed key = some id

theorem Returns.kept {result : Result} (h : Returns db input result) (hk : KeysKept db db') :
    Returns db' input result := by
  obtain ⟨bookingId, hres, hkey⟩ := h
  exact ⟨bookingId, hres, fun key h => hk _ _ (hkey key h)⟩

theorem Creates.kept (hc : Creates db input at') (hk : KeysKept db db') :
    Creates db' input at' := by
  cases at' with
  | returned => exact Returns.kept hc hk
  | replays => exact ⟨hc.1, hc.2.kept hk⟩
  | _ => exact hc

section

variable (hcommits : Commits at' record next)
include hcommits

theorem commit_keys (hw : Work db pid at') (key : Uuid × String) :
    (db.commit pid).idempotencyKeys.committed key = db.idempotencyKeys.committed key ∨
      ∃ input claim, record = .created input claim ∧
        key.1 = input.customerId ∧ input.idempotencyKey = some key.2 ∧
        db.idempotencyKeys.committed key = none ∧
        (db.commit pid).idempotencyKeys.committed key = some claim.bookingId := by
  by_cases hwrote : (db.idempotencyKeys.row key).WrittenBy pid
  · have habsurd : db.idempotencyKeys.Untouched pid → False := fun hu => hu key hwrote
    cases hcommits with
    | create input claim =>
      have hkeys := hw.2.2
      unfold KeyWork at hkeys
      split at hkeys
      · exact (habsurd hkeys).elim
      rename_i k hkey
      obtain rfl := hkeys.2 key hwrote
      exact Or.inr ⟨input, claim, rfl, rfl, hkey, committed_of_row hkeys.1,
        (wrote_of_row hkeys.1).committed_commit⟩
    | transition =>
      obtain ⟨_, hset, -⟩ := hw
      exact (habsurd hset.keys).elim
    | move => exact (habsurd hw.1.keys).elim
    | leaves => exact (habsurd hw.2.2).elim
    | replays | slots | absent | unmoved | lost => exact (habsurd hw.keys).elim
  · exact Or.inl (committed_commit_of_not hwrote)

theorem keysKept_commit (hw : Work db pid at') :
    KeysKept db (db.commit pid) := by
  intro key id hid
  rcases commit_keys hcommits hw key with hsame | ⟨_, _, -, -, -, hnone, -⟩
  · exact hsame.trans hid
  · rw [hnone] at hid
    cases hid

theorem creates_commits (hw : Work db pid at') (hc : Creates db input at') :
    ∃ result, next = .returned result ∧ Creates (db.commit pid) input next := by
  have hkept : KeysKept db (db.commit pid) := keysKept_commit hcommits hw
  cases hcommits with
  | create i claim =>
    obtain rfl : i = input := hc
    refine ⟨_, rfl, claim.bookingId, rfl, ?_⟩
    intro key hkey
    have hkeys := hw.2.2
    unfold KeyWork at hkeys
    rw [hkey] at hkeys
    exact (wrote_of_row hkeys.1).committed_commit
  | leaves | replays => exact ⟨_, rfl, hc.2.kept hkept⟩
  | _ => exact hc.elim

end

theorem creates_failed (failure : Failure) (hc : Creates db input place) :
    Creates db' input (place.failed failure) := by
  have hnone : place.catching = none → Creates db' input (place.failed failure) := by
    intro h
    unfold Place.failed
    rw [h]
    trivial
  have hsome : place.catching = some input → Creates db' input (place.failed failure) := by
    intro h
    unfold Place.failed
    rw [h]
    dsimp only
    split
    · rfl
    · trivial
  cases place with
  | findAssignment purpose =>
    obtain rfl : purpose = .create input := hc
    exact hsome rfl
  | releaseExisting purpose =>
    obtain rfl : purpose = .create input := hc
    exact hsome rfl
  | tryResource purpose =>
    obtain rfl : purpose = .create input := hc
    exact hsome rfl
  | findKey | findKeyAgain | returned | threw => exact hnone rfl
  | countHolds | claimSlot | insertBooking | insertKey => exact hsome (congrArg some hc)
  | commitCreate i =>
    obtain rfl : i = input := hc
    by_cases hmanager : i.manager = true
    · exact hnone (if_pos hmanager)
    · exact hsome (if_neg hmanager)
  | refused | replays => exact hnone rfl
  | _ => exact hc.elim

theorem input_of_refusing {failure : Failure} {i : CreateBookingInput} (hc : Creates db input place)
    (h : place.refusing failure = some i) : i = input := by
  have hcatch : place.catching = some i := eq_some_of_filter_eq_some h
  cases place with
  | findAssignment purpose =>
    obtain rfl : purpose = .create input := hc
    cases hcatch
    rfl
  | releaseExisting purpose =>
    obtain rfl : purpose = .create input := hc
    cases hcatch
    rfl
  | tryResource purpose =>
    obtain rfl : purpose = .create input := hc
    cases hcatch
    rfl
  | countHolds | claimSlot | insertBooking | insertKey => cases hcatch; exact hc
  | commitCreate =>
    unfold Place.catching at hcatch
    dsimp only at hcatch
    split at hcatch
    · cases hcatch
    cases hcatch
    exact hc
  | _ => cases hcatch

theorem keysKept_of_eq (h : db'.idempotencyKeys.committed = db.idempotencyKeys.committed) :
    KeysKept db db' := by
  intro key id hid
  rw [h]
  exact hid

end Statement

namespace BookingSystem

/-! ## The property -/

/-- The claim was committed by a call with the key: its booking was created, or it was left. -/
def ClaimedFor (s : BookingSystem) (customerId : Uuid) (key : String) (claim : Claim) : Prop :=
  ∃ input, input.customerId = customerId ∧ input.idempotencyKey = some key ∧
    (Record.created input claim ∈ s.log ∨ Record.left input claim ∈ s.log)

/-- Slots, bookings and the history are as they were. -/
structure AsIs (s s' : BookingSystem) : Prop where
  slots : s'.db.slots.committed = s.db.slots.committed
  bookings : s'.db.bookings.committed = s.db.bookings.committed
  history : s'.history = s.history

/-- A step, if it is one of the call, leaves everything as it was. -/
def LeavesAsIs (config : BookingConfig) (pid : ℕ) (s : BookingSystem) (e : BookingStep) : Prop :=
  e.pid = pid → ∀ s', step config s e = some s' → AsIs s s'

/-- What holds of a key of a customer after a run. -/
structure Idempotent (config : BookingConfig) (es : List BookingStep) (s : BookingSystem)
    (customerId : Uuid) (key : String) : Prop where
  created : (s.log.filter (·.createdFor customerId key)).length ≤ 1
  booking : ∀ claim claim' b b', s.ClaimedFor customerId key claim →
    s.ClaimedFor customerId key claim' → s.db.bookings.committed claim.bookingId = some b →
      s.db.bookings.committed claim'.bookingId = some b' → claim.bookingId = claim'.bookingId
  slot : ∀ claim claim' k k' v v', s.ClaimedFor customerId key claim →
    s.ClaimedFor customerId key claim' → s.db.slots.committed k = some v →
      s.db.slots.committed k' = some v' → v.heldByBookingId = some claim.bookingId →
        v'.heldByBookingId = some claim'.bookingId → k = k'
  returned : ∀ pid input result, s.asked pid = some (.create input) →
    input.customerId = customerId → input.idempotencyKey = some key →
      s.calls pid = .returned result → ∃ claim b, s.ClaimedFor customerId key claim ∧
        result = .booking claim.bookingId ∧ s.db.bookings.committed claim.bookingId = some b
  failed : ∀ pid input failure, s.asked pid = some (.create input) →
    s.calls pid = .threw failure → Along (step config) (LeavesAsIs config pid) start es

/-- The input of a call that was refused after it had claimed a slot in its caller's transaction. -/
def refusedWithClaim : Place → Option CreateBookingInput
  | .refused input _ (some _) => some input
  | _ => none

/-- **The condition.**  A call that was refused with a claim does not find its key. -/
def RefusedWithoutBooking (s : BookingSystem) (e : BookingStep) : Prop :=
  match e.action with
  | .statement _ => ∀ input ∈ refusedWithClaim (s.calls e.pid),
      findByIdempotencyKey (s.db.rollback e.pid) e.pid input = none
  | _ => True

instance (s : BookingSystem) (e : BookingStep) : Decidable (RefusedWithoutBooking s e) :=
  match h : e.action with
  | .statement _ =>
    decidable_of_iff (∀ input ∈ refusedWithClaim (s.calls e.pid),
      findByIdempotencyKey (s.db.rollback e.pid) e.pid input = none) (by
        simp only [RefusedWithoutBooking, h])
  | .start _ => isTrue (by simp only [RefusedWithoutBooking, h])
  | .die => isTrue (by simp only [RefusedWithoutBooking, h])

/-! ## The invariant -/

/-- The keys are those of the bookings that were created, each of them once, every call of `create`
is at one of its places, and no claim was left. -/
structure Keyed (s : BookingSystem) : Prop where
  invariant : Invariant s
  asked : ∀ pid, s.asked pid = none → s.calls pid = .idle
  creates : ∀ pid input, s.asked pid = some (.create input) → Creates s.db input (s.calls pid)
  unclaimed : ∀ pid input bookingId claim, s.calls pid ≠ .replays input bookingId (some claim)
  left : ∀ input claim, Record.left input claim ∉ s.log
  logged : ∀ input claim key, Record.created input claim ∈ s.log →
    input.idempotencyKey = some key →
      s.db.idempotencyKeys.committed (input.customerId, key) = some claim.bookingId
  once : ∀ customerId key, (s.log.filter (·.createdFor customerId key)).length ≤ 1
  stored : ∀ customerId key id, s.db.idempotencyKeys.committed (customerId, key) = some id →
    ∃ input claim, Record.created input claim ∈ s.log ∧ input.customerId = customerId ∧
      input.idempotencyKey = some key ∧ claim.bookingId = id
  /-- The booking of a key is there. -/
  found : ∀ key id, s.db.idempotencyKeys.committed key = some id →
    ∃ b, s.db.bookings.committed id = some b

section Keyed

variable {config : BookingConfig} {s s' t : BookingSystem} {e : BookingStep} {db : BookingDb}
  {pid : ℕ} {place : Place} {es : List BookingStep} {input : CreateBookingInput} {request : Request}
  {result : Result} {customerId : Uuid} {key : String}

theorem keyed_start : Keyed start where
  invariant := invariant_start
  asked := fun _ _ => rfl
  creates := by
    intro pid input h
    cases h
  unclaimed := by
    intro pid input bookingId claim h
    cases h
  left := by
    intro input claim h
    cases h
  logged := by
    intro input claim key h
    cases h
  once := fun _ _ => Nat.zero_le 1
  stored := by
    intro customerId key id h
    cases h
  found := by
    intro key id h
    cases h

theorem creates_request (db : BookingDb) (input : CreateBookingInput) :
    Creates db input (Request.create input).place := by
  unfold Request.place
  dsimp only
  split <;> rfl

theorem creates_update {asked : ℕ → Option Request} (hk : KeysKept s.db db)
    (hc : ∀ q input, s.asked q = some (.create input) → Creates s.db input (s.calls q))
    (hsame : ∀ q, q ≠ pid → asked q = s.asked q)
    (hown : ∀ input, asked pid = some (.create input) → Creates db input place) (q : ℕ)
    (input : CreateBookingInput) (hq : asked q = some (.create input)) :
    Creates db input (update s.calls pid place q) := by
  by_cases hqp : q = pid
  · subst hqp
    rw [update_self]
    exact hown input hq
  · rw [update_of_ne hqp]
    exact (hc q input ((hsame q hqp).symm.trans hq)).kept hk

theorem asked_update (h : Keyed s) (hne : s.calls pid ≠ .idle) (q : ℕ) (hq : s.asked q = none) :
    update s.calls pid place q = .idle := by
  have hqp : q ≠ pid := by
    rintro rfl
    exact hne (h.asked q hq)
  rw [update_of_ne hqp]
  exact h.asked q hq

theorem unclaimed_update (h : Keyed s)
    (hplace : ∀ input bookingId claim, place ≠ .replays input bookingId (some claim)) (q : ℕ)
    (input : CreateBookingInput) (bookingId : Uuid) (claim : Claim) :
    update s.calls pid place q ≠ .replays input bookingId (some claim) := by
  by_cases hqp : q = pid
  · subst hqp
    rw [update_self]
    exact hplace input bookingId claim
  · rw [update_of_ne hqp]
    exact h.unclaimed q input bookingId claim

theorem Keyed.moves (h : Keyed s) (hi : Invariant (s.goes pid db place)) (hq : Quiet s.db db)
    (hne : s.calls pid ≠ .idle)
    (hplace : ∀ input bookingId claim, place ≠ .replays input bookingId (some claim))
    (hown : ∀ input, s.asked pid = some (.create input) → Creates db input place) :
    Keyed (s.goes pid db place) where
  invariant := hi
  asked := asked_update h hne
  creates := creates_update (keysKept_of_eq hq.keys) h.creates (fun _ _ => rfl) hown
  unclaimed := unclaimed_update h hplace
  left := h.left
  logged := by
    show ∀ input claim key, Record.created input claim ∈ s.log → _ →
      db.idempotencyKeys.committed _ = _
    rw [hq.keys]
    exact h.logged
  once := h.once
  stored := by
    show ∀ customerId key id, db.idempotencyKeys.committed (customerId, key) = some id → _
    rw [hq.keys]
    exact h.stored
  found := by
    show ∀ key id, db.idempotencyKeys.committed key = some id → ∃ b, db.bookings.committed id = _
    rw [hq.keys, hq.bookings]
    exact h.found

theorem transition_next_ne {bookingId : Uuid} {claim : Option Claim} (t : Transition)
    (done : Bool) : t.next done ≠ .replays input bookingId claim := by
  cases t with
  | expire id row rest => cases rest <;> simp [Transition.next, nextRow]
  | _ => simp [Transition.next]

theorem place_ne_replays (request : Request) (input : CreateBookingInput) (bookingId : Uuid)
    (claim : Claim) : request.place ≠ .replays input bookingId (some claim) := by
  cases request with
  | create =>
    unfold Request.place
    dsimp only
    split <;> simp
  | _ => simp [Request.place]

theorem failed_ne_replays (place : Place) (failure : Failure) (input : CreateBookingInput)
    (bookingId : Uuid) (claim : Claim) :
    place.failed failure ≠ .replays input bookingId (some claim) := by
  unfold Place.failed
  split
  · simp
  · split <;> simp

theorem replays_unclaimed {env : Env} (hgood : RefusedWithoutBooking s e)
    (hact : e.action = .statement env)
    (hstmt : statement config env s.db e.pid (s.calls e.pid) = .goes db place)
    (input : CreateBookingInput) (bookingId : Uuid) (claim : Claim) :
    place ≠ .replays input bookingId (some claim) := by
  rintro rfl
  obtain ⟨_, hat, hfound⟩ := goes_replays hstmt
  unfold RefusedWithoutBooking at hgood
  rw [hact, hat] at hgood
  have hnone := hgood input rfl
  rw [hfound] at hnone
  cases hnone

/-- Under a key that is not there nothing has been created. -/
theorem Keyed.once_append (h : Keyed s) {record : Record}
    (hnone : ∀ input claim key, record = .created input claim → input.idempotencyKey = some key →
      s.db.idempotencyKeys.committed (input.customerId, key) = none) (customerId : Uuid)
    (key : String) : ((s.log ++ [record]).filter (·.createdFor customerId key)).length ≤ 1 := by
  rw [filter_append]
  by_cases hcre : record.createdFor customerId key = true
  · obtain ⟨input, claim, rfl, rfl, hkey⟩ := createdFor_iff.1 hcre
    have hempty : s.log.filter (·.createdFor input.customerId key) = [] := by
      rw [filter_eq_nil_iff]
      intro r hr hcre
      obtain ⟨input', claim', rfl, hcust, hkey'⟩ := createdFor_iff.1 hcre
      have hlogged := h.logged input' claim' key hr hkey'
      rw [hcust, hnone input claim key rfl hkey] at hlogged
      cases hlogged
    rw [hempty]
    simp [hcre]
  · have hempty : [record].filter (·.createdFor customerId key) = [] := by simp [hcre]
    rw [hempty]
    simpa using h.once customerId key

theorem keyed_commits {record : Record} (h : Keyed s) (hi : Invariant (s.commits pid record place))
    (hcommits : Commits (s.calls pid) record place) : Keyed (s.commits pid record place) := by
  have hw : Work s.db pid (s.calls pid) := h.invariant.work pid
  have hkept : KeysKept s.db (s.db.commit pid) := keysKept_commit hcommits hw
  have hne : s.calls pid ≠ .idle := by
    intro hidle
    rw [hidle] at hcommits
    cases hcommits
  obtain ⟨id, hready⟩ := ready_of_commits h.invariant.sound hw hcommits
  have hcreates : ∀ input, s.asked pid = some (.create input) →
      Creates (s.db.commit pid) input place := by
    intro input hasked
    obtain ⟨-, -, hret⟩ := creates_commits hcommits hw (h.creates pid input hasked)
    exact hret
  have hunclaimed := h.unclaimed pid
  generalize s.calls pid = at' at hw hcommits hunclaimed
  refine ⟨hi, asked_update h hne, creates_update hkept h.creates (fun _ _ => rfl) hcreates,
    unclaimed_update h ?_, ?_, ?_, ?_, ?_, ?_⟩
  · intro input bookingId claim
    cases hcommits with
    | transition m => exact transition_next_ne m.transition true
    | unmoved t => exact transition_next_ne t false
    | lost t => exact transition_next_ne t false
    | _ => simp
  · intro input claim hmem
    rcases mem_append.1 hmem with hmem | hmem
    · exact h.left input claim hmem
    · obtain rfl := mem_singleton.1 hmem
      cases hcommits
      exact hunclaimed _ _ _ rfl
  · intro input claim key hmem hkey
    rcases mem_append.1 hmem with hmem | hmem
    · exact hkept _ _ (h.logged input claim key hmem hkey)
    · obtain rfl := mem_singleton.1 hmem
      cases hcommits
      have hkeys := hw.2.2
      unfold KeyWork at hkeys
      rw [hkey] at hkeys
      exact (wrote_of_row hkeys.1).committed_commit
  · refine h.once_append ?_
    rintro input claim key rfl hkey
    cases hcommits
    have hkeys := hw.2.2
    unfold KeyWork at hkeys
    rw [hkey] at hkeys
    exact committed_of_row hkeys.1
  · intro customerId key id hid
    rcases commit_keys hcommits hw (customerId, key) with hsame |
      ⟨input, claim, rfl, hcust, hkey, -, hcomm⟩
    · obtain ⟨input, claim, hmem, hrest⟩ := h.stored customerId key id (hsame.symm.trans hid)
      exact ⟨input, claim, mem_append_left _ hmem, hrest⟩
    · have hclaim : claim.bookingId = id := some.inj (hcomm.symm.trans hid)
      exact ⟨input, claim, mem_append_right _ (mem_singleton_self _), hcust.symm,
        hkey, hclaim⟩
  · intro key id hid
    rcases commit_keys hcommits hw key with hsame | ⟨_, claim, rfl, -, -, -, hcomm⟩
    · obtain ⟨b, hb⟩ := h.found key id (hsame.symm.trans hid)
      obtain ⟨b', hb', -⟩ := (evolves_commit hready).bookings id b hb
      exact ⟨b', hb'⟩
    · obtain rfl : claim.bookingId = id := some.inj (hcomm.symm.trans hid)
      cases hcommits
      exact ⟨_, (wrote_of_row hw.1.booking).committed_commit⟩

theorem keyed_step (h : Keyed s) (hgood : RefusedWithoutBooking s e)
    (hs : step config s e = some s') : Keyed s' := by
  have hi : Invariant s' := invariant_step h.invariant hs
  have hw : Work s.db e.pid (s.calls e.pid) := h.invariant.work e.pid
  rcases step_cases hs with ⟨request, hidle, hasked, rfl⟩ | ⟨env, db, place, hact, hstmt,
    rfl⟩ | ⟨env, record, place, -, hcommits, rfl⟩ | ⟨failure, hrun, rfl⟩ |
    ⟨env, failure, input, -, hstmt, hrefusing, rfl⟩
  · refine ⟨hi, ?_, ?_, unclaimed_update h (place_ne_replays request), h.left, h.logged, h.once,
      h.stored, h.found⟩
    · intro q hq
      have hqp : q ≠ e.pid := by
        rintro rfl
        simp [begins] at hq
      have hnone : s.asked q = none := (update_of_ne hqp _ _).symm.trans hq
      exact (update_of_ne hqp _ _).trans (h.asked q hnone)
    · refine creates_update (fun _ _ hid => hid) h.creates
        (fun q hq => update_of_ne hq _ _) ?_
      intro input hr
      have hreq : (s.begins e.pid request).asked e.pid = some request :=
        update_self ..
      rw [hreq] at hr
      cases hr
      exact creates_request s.db input
  · refine h.moves hi (kept_statement h.invariant.sound hw hstmt).quiet ?_ ?_ ?_
    · intro hidle
      rw [hidle] at hstmt
      cases hstmt
    · exact replays_unclaimed hgood hact hstmt
    · intro input hasked
      exact (creates_statement hw (h.creates e.pid input hasked) hstmt).2
  · exact keyed_commits h hi hcommits
  · refine h.moves hi (sameCommitted_rollback _ _).quiet ?_ (failed_ne_replays _ _) ?_
    · intro hidle
      rw [hidle] at hrun
      cases hrun
    · exact fun input hasked => creates_failed failure (h.creates e.pid input hasked)
  · refine h.moves hi (kept_refuses hstmt h.invariant.sound hw hrefusing).quiet ?_ ?_ ?_
    · intro hidle
      rw [hidle] at hstmt
      cases hstmt
    · simp
    · intro i hasked
      exact input_of_refusing (h.creates e.pid i hasked) hrefusing

theorem keyed_run (hgood : Along (step config) RefusedWithoutBooking start es)
    (h : runFrom (step config) start es = some s) : Keyed s :=
  runFrom_invariant_along (fun _ _ _ hk hg hs => keyed_step hk hg hs) keyed_start hgood h

/-! ## A call that fails -/

theorem asked_step (hasked : s.asked pid = some request) (hs : step config s e = some s') :
    s'.asked pid = some request := by
  rcases step_cases hs with ⟨_, -, hnone, rfl⟩ | ⟨env, _, place, -, -, rfl⟩ |
    ⟨env, record, place, -, -, rfl⟩ | ⟨failure, -, rfl⟩ | ⟨env, failure, input, -, -, -, rfl⟩
  · have hpid : pid ≠ e.pid := by
      rintro rfl
      rw [hnone] at hasked
      cases hasked
    exact (update_of_ne hpid _ _).trans hasked
  all_goals exact hasked

theorem asked_run (hasked : s.asked pid = some request) (h : runFrom (step config) s es = some t) :
    t.asked pid = some request :=
  runFrom_invariant (I := fun s => s.asked pid = some request)
    (fun _ _ _ ha hs => asked_step ha hs) hasked h

theorem returned_step (h : s.calls pid = .returned result) (hs : step config s e = some s') :
    s'.calls pid = .returned result := by
  by_cases hpid : pid = e.pid
  · subst hpid
    rcases step_cases hs with ⟨request, hidle, -, rfl⟩ | ⟨env, db, place, -, hstmt, rfl⟩ |
      ⟨env, record, place, -, hcommits, rfl⟩ | ⟨failure, hrun, rfl⟩ |
      ⟨env, failure, input, -, hstmt, -, rfl⟩
    · rw [h] at hidle
      cases hidle
    · rw [h] at hstmt
      cases hstmt
    · rw [h] at hcommits
      cases hcommits
    · rw [h] at hrun
      cases hrun
    · rw [h] at hstmt
      cases hstmt
  · rcases step_cases hs with ⟨_, -, -, rfl⟩ | ⟨env, _, place, -, -, rfl⟩ |
      ⟨env, record, place, -, -, rfl⟩ | ⟨failure, -, rfl⟩ | ⟨env, failure, input, -, -, -, rfl⟩ <;>
      exact (update_of_ne hpid _ _).trans h

theorem returned_run (h : s.calls pid = .returned result)
    (hrun : runFrom (step config) s es = some t) : t.calls pid = .returned result :=
  runFrom_invariant (I := fun s => s.calls pid = .returned result)
    (fun _ _ _ hr hs => returned_step hr hs) h hrun

theorem asIs_or_returned (hk : Keyed s)
    (hasked : s.asked e.pid = none ∨ ∃ input, s.asked e.pid = some (.create input))
    (hs : step config s e = some s') : AsIs s s' ∨ ∃ result, s'.calls e.pid = .returned result := by
  have hw : Work s.db e.pid (s.calls e.pid) := hk.invariant.work e.pid
  have hcreates : s.calls e.pid = .idle ∨ ∃ input, Creates s.db input (s.calls e.pid) := by
    rcases hasked with hnone | ⟨input, hasked⟩
    · exact Or.inl (hk.asked e.pid hnone)
    · exact Or.inr ⟨input, hk.creates e.pid input hasked⟩
  rcases step_cases hs with ⟨_, hidle, -, rfl⟩ | ⟨env, db, place, -, hstmt, rfl⟩ |
    ⟨env, record, place, -, hcommits, rfl⟩ | ⟨failure, hrun, rfl⟩ |
    ⟨env, failure, input, -, hstmt, hrefusing, rfl⟩
  · exact Or.inl ⟨rfl, rfl, rfl⟩
  · rcases hcreates with hidle | ⟨input, hc⟩
    · rw [hidle] at hstmt
      cases hstmt
    · obtain ⟨hsame, -⟩ := creates_statement hw hc hstmt
      exact Or.inl ⟨hsame.slots, hsame.bookings, rfl⟩
  · rcases hcreates with hidle | ⟨_, hc⟩
    · rw [hidle] at hcommits
      cases hcommits
    · obtain ⟨result, hres, -⟩ := creates_commits hcommits hw hc
      exact Or.inr ⟨result, (calls_commits ..).trans hres⟩
  · have hsame := sameCommitted_rollback s.db e.pid
    exact Or.inl ⟨hsame.slots, hsame.bookings, rfl⟩
  · have hsame := sameCommitted_refuses hstmt hrefusing
    exact Or.inl ⟨hsame.slots, hsame.bookings, rfl⟩

theorem failed_leaves {failure : Failure} (hk : Keyed s)
    (hgood : Along (step config) RefusedWithoutBooking s es)
    (h : runFrom (step config) s es = some t) (hasked : t.asked pid = some (.create input))
    (hthrew : t.calls pid = .threw failure) : Along (step config) (LeavesAsIs config pid) s es := by
  induction es generalizing s with
  | nil => trivial
  | cons e es ih =>
    obtain ⟨s', hs, hrun⟩ := runFrom_cons_eq_some.1 h
    constructor
    · rintro rfl s'' hs''
      obtain rfl : s' = s'' := some.inj (hs.symm.trans hs'')
      have hbef : s.asked e.pid = none ∨ ∃ input, s.asked e.pid = some (.create input) := by
        cases hsome : s.asked e.pid with
        | none => exact Or.inl rfl
        | some r =>
          have hr : r = .create input := some.inj ((asked_run hsome h).symm.trans hasked)
          exact Or.inr ⟨input, by rw [hr]⟩
      rcases asIs_or_returned hk hbef hs with has | ⟨_, hret⟩
      · exact has
      · cases (returned_run hret hrun).symm.trans hthrew
    · intro s'' hs''
      obtain rfl : s' = s'' := some.inj (hs.symm.trans hs'')
      exact ih (keyed_step hk hgood.1 hs) (hgood.2 s' hs) hrun

/-! ## Runs -/

theorem Keyed.claimed_eq (h : Keyed s) {claim : Claim} (hc : s.ClaimedFor customerId key claim) :
    s.db.idempotencyKeys.committed (customerId, key) = some claim.bookingId := by
  obtain ⟨input, rfl, hkey, hmem | hmem⟩ := hc
  · exact h.logged input claim key hmem hkey
  · exact absurd hmem (h.left input claim)

theorem Keyed.claim_unique (h : Keyed s) {claim claim' : Claim}
    (hc : s.ClaimedFor customerId key claim) (hc' : s.ClaimedFor customerId key claim') :
    claim.bookingId = claim'.bookingId :=
  some.inj ((h.claimed_eq hc).symm.trans (h.claimed_eq hc'))

end Keyed

/-- In every run in which no call that is refused with a claim in its caller's transaction finds
its key, at most one booking is created for a key of a customer, and at most one slot is held for
it, every call with the key that succeeds returns that booking, and a call that fails has left
slots, bookings and the history as they were. -/
theorem idempotent_run {config : BookingConfig} {es : List BookingStep} {s : BookingSystem}
    (hgood : Along (step config) RefusedWithoutBooking start es)
    (h : runFrom (step config) start es = some s) (customerId : Uuid) (key : String) :
    Idempotent config es s customerId key := by
  have hk := keyed_run hgood h
  have hs : Sound s.db := hk.invariant.sound
  refine ⟨hk.once customerId key, ?_, ?_, ?_, ?_⟩
  · exact fun claim claim' b b' hc hc' _ _ => hk.claim_unique hc hc'
  · intro claim claim' k k' v v' hc hc' hv hv' hheld hheld'
    rw [← hk.claim_unique hc hc'] at hheld'
    obtain ⟨b, hb⟩ := hk.found _ _ (hk.claimed_eq hc)
    exact (hs.holder k v _ b hv hheld hb).symm.trans (hs.holder k' v' _ b hv' hheld' hb)
  · rintro pid input result hasked rfl hkey hat
    have hcreates := hk.creates pid input hasked
    rw [hat] at hcreates
    obtain ⟨bookingId, rfl, hcomm⟩ := hcreates
    have hid := hcomm key hkey
    obtain ⟨input', claim, hmem, hcust, hkey', rfl⟩ := hk.stored _ key bookingId hid
    obtain ⟨b, hb⟩ := hk.found _ claim.bookingId hid
    exact ⟨claim, b, ⟨input', hcust, hkey', Or.inl hmem⟩, rfl, hb⟩
  · intro pid input failure hasked hthrew
    exact failed_leaves keyed_start hgood h hasked hthrew

/-- Two calls with one key, for two slots, in the transactions of their callers: the first has
made its booking when the second has counted. -/
def sameKey : List BookingStep :=
  call 2 (.create ⟨5, 7, some 8, 1, some "k", true⟩) 3 0 50 ++
    call 3 (.create ⟨5, 7, some 8, 2, some "k", true⟩) 2 0 60 ++ List.replicate 4 (takes 2 0 50)

/-- The second call is refused by the unique index, and finds the booking of the first. -/
def retried : List BookingStep :=
  publishes 0 1 7 100000000 ++ publishes 1 2 7 103600000 ++ sameKey ++
    List.replicate 5 (takes 3 0 60)

theorem idempotent_run_retried : ∃ s, runFrom (step .default) start retried = some s ∧
    (s.calls 2 = .returned (.booking 50) ∧ s.calls 3 = .returned (.booking 50)) ∧
    Idempotent .default retried s 5 "k" := by
  obtain ⟨s, hs, hcalls⟩ : ∃ s ∈ runFrom (step .default) start retried,
      s.calls 2 = .returned (.booking 50) ∧ s.calls 3 = .returned (.booking 50) := by
    decide +kernel
  have hgood : Along (step .default) RefusedWithoutBooking start retried := by decide +kernel
  exact ⟨s, hs, hcalls, idempotent_run hgood hs 5 "k"⟩

/-- The second call has claimed its slot when it finds that the slot is for another service; it
finds the booking of the first, and its caller commits. -/
def otherService : List BookingStep :=
  publishes 0 1 7 100000000 ++ call 1 (.createSlot ⟨7, 103600000, 107200000, some 9⟩) 3 0 2 ++
    sameKey ++ List.replicate 3 (takes 3 0 60)

/-- The claim of a slot of professional 7 at the start. -/
def claimAtStart (bookingId slotId : Uuid) (serviceId : Option Uuid) (startAt : Instant) : Claim :=
  ⟨bookingId, slotId, ⟨7, serviceId, startAt, startAt + 3600000, .held, some 900000,
    some bookingId, none⟩, 900000⟩

/-- Two slots are held on behalf of the key, one of them for a booking that was never made. -/
theorem idempotent_otherService_fails :
    ∃ s, runFrom (step .default) start otherService = some s ∧
      ¬Idempotent .default otherService s 5 "k" := by
  obtain ⟨s, hs, hcre, hleft, ⟨v, hv, hheld⟩, w, hw, hheld'⟩ :
      ∃ s ∈ runFrom (step .default) start otherService,
        Record.created ⟨5, 7, some 8, 1, some "k", true⟩ (claimAtStart 50 1 none 100000000) ∈
          s.log ∧
        Record.left ⟨5, 7, some 8, 2, some "k", true⟩ (claimAtStart 60 2 (some 9) 103600000) ∈
          s.log ∧
        (∃ v ∈ s.db.slots.committed 1, v.heldByBookingId = some 50) ∧
        ∃ w ∈ s.db.slots.committed 2, w.heldByBookingId = some 60 := by
    decide +kernel
  refine ⟨s, hs, fun h => ?_⟩
  have hsame : (1 : Uuid) = 2 := h.slot _ _ 1 2 v w ⟨_, rfl, rfl, Or.inl hcre⟩
    ⟨_, rfl, rfl, Or.inr hleft⟩ hv hw hheld hheld'
  cases hsame

end BookingSystem

end BeauClick.Scheduling
