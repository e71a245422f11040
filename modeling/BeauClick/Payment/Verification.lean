import BeauClick.Lib.Runs
import BeauClick.Payment.Store

/-!
# Initiations and callbacks at the same time

`PaymentService.initiate` sends a customer to the gateway and expires an intent
whose time is over; `prepareVerification` and `applyVerification` record what the
gateway says when the customer comes back.  Each is several statements, and the
calls of any number of requests interleave.
-/

namespace BeauClick.Payment

open Money Table Runs PaymentStore List Function

/-! ## Calls -/

/-- The next statement of a request. -/
inductive PaymentCall where
  | idle
  /-- `initiate`: reads the intent. -/
  | loadIntent (intentId : Uuid)
  | expireIntent (intentId : Uuid)
  | findOpenAttempt (intent : PaymentIntentEntity)
  | initiateProvider (intent : PaymentIntentEntity)
  | insertAttempt (intent : PaymentIntentEntity) (attempt : PaymentAttemptEntity)
  /-- `prepareVerification`: reads the attempt. -/
  | loadAttempt (providerKey providerReference : String)
  | loadAttemptIntent (attempt : PaymentAttemptEntity)
  | verifyProvider (attempt : PaymentAttemptEntity) (intent : PaymentIntentEntity)
  | applyVerification (prepared : PreparedVerification)
  | returned
  | threw
  deriving DecidableEq

/-- The payment schema and the requests at work on it. -/
structure PaymentSystem where
  store : PaymentStore
  calls : ℕ → PaymentCall

/-- One step, with what the system does not choose itself: the clock, new ids and
the answers of the gateways. -/
inductive PaymentStep where
  | createIntent (intent : PaymentIntentEntity)
  | initiate (pid : ℕ) (intentId : Uuid)
  | callback (pid : ℕ) (providerKey providerReference : String)
  | advance (pid : ℕ) (now : Instant)
  | initiated (pid : ℕ) (attemptId : Uuid) (providerReference redirectUrl : String)
  | verified (pid : ℕ) (result : VerifyPaymentResult)
  | die (pid : ℕ)

/-- `live?.redirectUrl` is truthy. -/
def hasRedirect (attempt : PaymentAttemptEntity) : Bool :=
  attempt.redirectUrl.any fun url => url ≠ ""

/-- The answer `prepareVerification` gives itself for an intent whose time is over. -/
def intentExpired : VerifyPaymentResult where
  outcome := .failed
  paidAmountToman := none
  paidCurrency := none
  providerTransactionId := none
  failureCode := some "intent_expired"

/-- The attempt row `initiate` inserts. -/
def initiatedAttempt (intent : PaymentIntentEntity) (attemptId : Uuid)
    (providerReference redirectUrl : String) : PaymentAttemptEntity where
  id := attemptId
  paymentIntentId := intent.id
  providerKey := intent.providerKey
  providerReference := providerReference
  status := .initiated
  requestedAmountToman := intent.amountToman
  verifiedAmountToman := none
  redirectUrl := some redirectUrl
  providerTransactionId := none
  failureCode := none
  verifiedAt := none

namespace PaymentSystem

def setCall (s : PaymentSystem) (pid : ℕ) (call : PaymentCall) : PaymentSystem :=
  { s with calls := update s.calls pid call }

/-- The call moves on after it wrote. -/
def commit (s : PaymentSystem) (pid : ℕ) (call : PaymentCall) (store : PaymentStore) :
    PaymentSystem where
  store := store
  calls := update s.calls pid call

/-- What `initiate` does with the intent it read. -/
def afterLoadIntent (intent : PaymentIntentEntity) (now : Instant) : PaymentCall :=
  if intent.status = .succeeded then .threw
  else if intent.status ∉ liveIntentStatuses ∧ intent.status ≠ .failed then .threw
  else if intent.expiresAt ≤ now then .expireIntent intent.id
  else .findOpenAttempt intent

/-- What `prepareVerification` does with the rows it read. -/
def afterLoadAttempt (attempt : PaymentAttemptEntity) (intent : PaymentIntentEntity)
    (now : Instant) : PaymentCall :=
  if attempt.status ≠ .initiated then .applyVerification ⟨attempt, intent, none, true⟩
  else if intent.expiresAt ≤ now ∧ intent.status ≠ .succeeded then
    .applyVerification ⟨attempt, intent, some intentExpired, false⟩
  else .verifyProvider attempt intent

/-- A call takes its next transaction. -/
def advance (s : PaymentSystem) (pid : ℕ) (now : Instant) : Option PaymentSystem :=
  match s.calls pid with
  | .loadIntent intentId =>
    match s.store.findIntent intentId with
    | none => some (s.setCall pid .threw)
    | some intent => some (s.setCall pid (afterLoadIntent intent now))
  | .expireIntent intentId => some (s.commit pid .threw (s.store.expireIntent intentId))
  | .findOpenAttempt intent =>
    if (s.store.findOpenAttempt intent.id).any hasRedirect then some (s.setCall pid .returned)
    else some (s.setCall pid (.initiateProvider intent))
  | .insertAttempt intent attempt =>
    match s.store.insertAttempt intent attempt with
    | none => some (s.setCall pid .returned)
    | some store => some (s.commit pid .returned store)
  | .loadAttempt providerKey providerReference =>
    match s.store.attempts.find? fun a =>
        a.providerKey = providerKey ∧ a.providerReference = providerReference with
    | none => some (s.setCall pid .threw)
    | some attempt => some (s.setCall pid (.loadAttemptIntent attempt))
  | .loadAttemptIntent attempt =>
    match s.store.findIntent attempt.paymentIntentId with
    | none => some (s.setCall pid .threw)
    | some intent => some (s.setCall pid (afterLoadAttempt attempt intent now))
  | .applyVerification prepared =>
    some (s.commit pid .returned (s.store.applyVerification prepared now).2)
  | _ => none

/-- One step.  A request can die, or throw, between any two statements; the second
half of `initiate` after a unique violation only reads, so it ends the call. -/
def step (s : PaymentSystem) : PaymentStep → Option PaymentSystem
  | .createIntent intent =>
    if intent.status = .created then
      match s.store.insertIntent intent with
      | none => none
      | some store => some { s with store := store }
    else none
  | .initiate pid intentId =>
    if s.calls pid = .idle then some (s.setCall pid (.loadIntent intentId)) else none
  | .callback pid providerKey providerReference =>
    if s.calls pid = .idle then some (s.setCall pid (.loadAttempt providerKey providerReference))
    else none
  | .advance pid now => s.advance pid now
  | .initiated pid attemptId providerReference redirectUrl =>
    match s.calls pid with
    | .initiateProvider intent =>
      if 128 < providerReference.length then some (s.setCall pid .threw)
      else some (s.setCall pid (.insertAttempt intent
        (initiatedAttempt intent attemptId providerReference redirectUrl)))
    | _ => none
  | .verified pid result =>
    match s.calls pid with
    | .verifyProvider attempt intent =>
      some (s.setCall pid (.applyVerification ⟨attempt, intent, some result, false⟩))
    | _ => none
  | .die pid => some (s.setCall pid .threw)

/-! ## The property and the condition -/

/-- The event says that the intent was paid. -/
def isSuccessOf (intentId : Uuid) : PaymentEvent → Bool
  | .paymentSucceeded paymentIntentId .. => paymentIntentId = intentId
  | _ => false

/-- A succeeded attempt belongs to a succeeded intent, and no intent was announced
as paid twice. -/
structure Settled (s : PaymentSystem) : Prop where
  belongs : ∀ a ∈ s.store.attempts, a.status = .succeeded →
    ∃ i ∈ s.store.intents, i.id = a.paymentIntentId ∧ i.status = .succeeded
  once : ∀ intentId, s.store.outbox.countP (isSuccessOf intentId) ≤ 1

/-- The step records a full payment for an attempt that is still open. -/
def Pays (s : PaymentSystem) (e : PaymentStep) (prepared : PreparedVerification) : Prop :=
  ∃ pid now result, e = .advance pid now ∧ s.calls pid = .applyVerification prepared ∧
    prepared.alreadyProcessed = false ∧ prepared.providerResult = some result ∧
    amountMatches prepared.intent result = true ∧ s.store.claims prepared.attempt.id

/-- **The condition.**  When a full payment is about to be recorded for an open
attempt, the intent is still `created` or `pending`. -/
def IntentOpen (s : PaymentSystem) (e : PaymentStep) : Prop :=
  ∀ prepared, s.Pays e prepared →
    ∃ i ∈ s.store.intents, i.id = prepared.intent.id ∧ i.status ∈ [.created, .pending]

end PaymentSystem

/-! ## The invariant -/

/-- The intent has succeeded. -/
def Paid (s : PaymentStore) (intentId : Uuid) : Prop :=
  ∃ i ∈ s.intents, i.id = intentId ∧ i.status = .succeeded
  deriving Decidable

/-- What holds of the tables: an intent was announced as paid exactly when it has
succeeded. -/
structure PaymentRows (s : PaymentStore) : Prop where
  intentId : ∀ i ∈ s.intents, ∀ j ∈ s.intents, i.id = j.id → i = j
  attemptId : ∀ a ∈ s.attempts, ∀ b ∈ s.attempts, a.id = b.id → a = b
  belongs : ∀ a ∈ s.attempts, a.status = .succeeded → Paid s a.paymentIntentId
  published : ∀ intentId, s.outbox.countP (PaymentSystem.isSuccessOf intentId) =
    if Paid s intentId then 1 else 0

/-- The attempt a call has read is still there, for the same intent. -/
def HasAttempt (s : PaymentStore) (attempt : PaymentAttemptEntity) : Prop :=
  ∃ a ∈ s.attempts, a.id = attempt.id ∧ a.paymentIntentId = attempt.paymentIntentId

/-- What a call knows of the attempt it has read. -/
def PaymentCallInv (s : PaymentStore) : PaymentCall → Prop
  | .insertAttempt intent attempt =>
    attempt.paymentIntentId = intent.id ∧ attempt.status = .initiated
  | .loadAttemptIntent attempt => HasAttempt s attempt
  | .verifyProvider attempt intent => HasAttempt s attempt ∧ intent.id = attempt.paymentIntentId
  | .applyVerification prepared =>
    HasAttempt s prepared.attempt ∧ prepared.intent.id = prepared.attempt.paymentIntentId
  | _ => True

/-- What holds after every step. -/
structure PaymentInv (s : PaymentSystem) : Prop where
  rows : PaymentRows s.store
  calls : ∀ pid, PaymentCallInv s.store (s.calls pid)

theorem PaymentRows.settled {s : PaymentSystem} (h : PaymentRows s.store) : s.Settled where
  belongs := h.belongs
  once := by
    intro intentId
    rw [h.published intentId]
    split <;> omega

/-- No attempt is ever deleted or moved to another intent. -/
def KeepsAttempts (s s' : PaymentStore) : Prop := ∀ a, HasAttempt s a → HasAttempt s' a

variable {s s' : PaymentStore} {call : PaymentCall} {pid : ℕ} {intent : PaymentIntentEntity}
  {now : Instant} {e : PaymentStep} {p : PaymentIntentEntity → Prop}
  {f : PaymentIntentEntity → PaymentIntentEntity} {attempt : PaymentAttemptEntity}
  {prepared : PreparedVerification} {result : VerifyPaymentResult}

theorem PaymentCallInv.mono (hkeep : KeepsAttempts s s') (h : PaymentCallInv s call) :
    PaymentCallInv s' call := by
  cases call with
  | loadAttemptIntent => exact hkeep _ h
  | verifyProvider | applyVerification => exact ⟨hkeep _ h.1, h.2⟩
  | _ => exact h

theorem PaymentInv.commit {s : PaymentSystem} {store : PaymentStore} (h : PaymentInv s)
    (hrows : PaymentRows store) (hkeep : KeepsAttempts s.store store)
    (hcall : PaymentCallInv store call) : PaymentInv (s.commit pid call store) where
  rows := hrows
  calls := (forall_update_iff s.calls fun _ => PaymentCallInv store).2
    ⟨hcall, fun q _ => (h.calls q).mono hkeep⟩

theorem PaymentInv.setCall {s : PaymentSystem} (h : PaymentInv s)
    (hcall : PaymentCallInv s.store call) : PaymentInv (s.setCall pid call) :=
  h.commit h.rows (fun _ ha => ha) hcall

/-! ## Writes that leave the paid intents alone -/

theorem paid_updateWhere_iff [DecidablePred p] (hintents : s'.intents = updateWhere p f s.intents)
    (hbef : ∀ i, p i → i.status ≠ .succeeded) (hafter : ∀ i, p i → (f i).status ≠ .succeeded)
    (intentId : Uuid) : Paid s' intentId ↔ Paid s intentId := by
  constructor
  · rintro ⟨i', hi', hid', hs'⟩
    rw [hintents] at hi'
    rcases written_or_left hi' with ⟨i, -, hp, rfl⟩ | ⟨hi, -⟩
    · exact absurd hs' (hafter i hp)
    · exact ⟨i', hi, hid', hs'⟩
  · rintro ⟨i, hi, hid', hs⟩
    refine ⟨i, ?_, hid', hs⟩
    rw [hintents]
    exact mem_updateWhere_of_not hi fun hp => hbef i hp hs

/-- Such an update, with attempts that succeeded before and events that announce
nothing, keeps what holds of the tables. -/
theorem PaymentRows.of_paid_iff (h : PaymentRows s)
    (hpaid : ∀ intentId, Paid s' intentId ↔ Paid s intentId)
    (hintentId : ∀ i ∈ s'.intents, ∀ j ∈ s'.intents, i.id = j.id → i = j)
    (hattemptId : ∀ a ∈ s'.attempts, ∀ b ∈ s'.attempts, a.id = b.id → a = b)
    (hatts : ∀ a ∈ s'.attempts, a.status = .succeeded → a ∈ s.attempts)
    (hout : ∀ intentId, s'.outbox.countP (PaymentSystem.isSuccessOf intentId) =
      s.outbox.countP (PaymentSystem.isSuccessOf intentId)) : PaymentRows s' where
  intentId := hintentId
  attemptId := hattemptId
  belongs := by
    intro a ha hs
    rw [hpaid]
    exact h.belongs a (hatts a ha hs) hs
  published := by
    intro intentId
    rw [hout, h.published]
    simp only [hpaid]

theorem intentId_updateWhere [DecidablePred p] {xs : List PaymentIntentEntity}
    (h : ∀ i ∈ xs, ∀ j ∈ xs, i.id = j.id → i = j) (hid : ∀ i, (f i).id = i.id) :
    ∀ i ∈ updateWhere p f xs, ∀ j ∈ updateWhere p f xs, i.id = j.id → i = j := by
  refine eq_of_mem_updateWhere (R := fun i j : PaymentIntentEntity => i.id = j.id) h ?_
  intro i _ j _ hij
  split at hij <;> split at hij <;> simpa [hid] using hij

theorem PaymentRows.insertIntent (h : PaymentRows s) (hcre : intent.status = .created)
    (hs : s.insertIntent intent = some s') : PaymentRows s' ∧ KeepsAttempts s s' := by
  unfold PaymentStore.insertIntent at hs
  split at hs
  · cases hs
  rename_i hfree
  cases hs
  refine ⟨h.of_paid_iff ?_ ?_ h.attemptId (fun a ha _ => ha) fun _ => rfl, fun _ ha => ha⟩
  · intro intentId
    constructor
    · rintro ⟨i, hi, hid, hs⟩
      rcases mem_append.1 hi with hi | hi
      · exact ⟨i, hi, hid, hs⟩
      · rw [mem_singleton.1 hi, hcre] at hs
        cases hs
    · rintro ⟨i, hi, hid, hs⟩
      exact ⟨i, mem_append_left _ hi, hid, hs⟩
  · have hnew : ∀ i ∈ s.intents, i.id ≠ intent.id := fun i hi hid => hfree (Or.inl ⟨i, hi, hid⟩)
    exact determined_concat h.intentId fun i hi hid => absurd hid (hnew i hi)

theorem PaymentRows.expireIntent (h : PaymentRows s) (intentId : Uuid) :
    PaymentRows (s.expireIntent intentId) ∧ KeepsAttempts s (s.expireIntent intentId) := by
  refine ⟨h.of_paid_iff (paid_updateWhere_iff rfl ?_ fun _ _ => by simp)
    (intentId_updateWhere h.intentId fun _ => rfl) h.attemptId (fun a ha _ => ha) fun _ => rfl,
    fun _ ha => ha⟩
  rintro i ⟨-, hi⟩ hs
  simp [hs] at hi

open PaymentSystem

theorem PaymentRows.insertAttempt (h : PaymentRows s) (hinit : attempt.status = .initiated)
    (hs : s.insertAttempt intent attempt = some s') : PaymentRows s' ∧ KeepsAttempts s s' := by
  unfold PaymentStore.insertAttempt at hs
  split at hs
  · cases hs
  rename_i hfree
  cases hs
  refine ⟨h.of_paid_iff (paid_updateWhere_iff rfl ?_ fun _ _ => by simp)
    (intentId_updateWhere h.intentId fun _ => rfl) ?_ ?_ ?_, ?_⟩
  · rintro i ⟨-, hi⟩ hs
    simp [hs] at hi
  · have hnew : ∀ a ∈ s.attempts, a.id ≠ attempt.id :=
      fun a ha hid => hfree (Or.inl ⟨a, ha, Or.inl hid⟩)
    exact determined_concat h.attemptId fun a ha hid => absurd hid (hnew a ha)
  · intro a ha hs
    rcases mem_append.1 ha with ha | ha
    · exact ha
    · rw [mem_singleton.1 ha, hinit] at hs
      cases hs
  · intro intentId
    simp [isSuccessOf]
  · rintro a ⟨b, hb, hab⟩
    exact ⟨b, mem_append_left _ hb, hab⟩

/-! ## Recording an answer -/

theorem keepsAttempts_recordVerification (s : PaymentStore) (prepared : PreparedVerification)
    (result : VerifyPaymentResult) (now : Instant) :
    KeepsAttempts s (s.recordVerification prepared result now) := by
  rintro attempt ⟨a, ha, hid, hintent⟩
  by_cases hp : a.id = prepared.attempt.id ∧ a.status = .initiated
  · exact ⟨_, mem_updateWhere_of ha hp, hid, hintent⟩
  · exact ⟨a, mem_updateWhere_of_not ha hp, hid, hintent⟩

theorem PaymentRows.recordFailure (h : PaymentRows s)
    (hfail : amountMatches prepared.intent result = false) :
    PaymentRows (s.recordVerification prepared result now) := by
  refine h.of_paid_iff (paid_updateWhere_iff rfl ?_ ?_)
    (intentId_updateWhere h.intentId fun i => verifiedIntent_id ..)
    (attemptId_recordVerification result now h.attemptId) ?_ ?_
  · rintro i ⟨-, hi⟩ hs
    simp [hs] at hi
  · intro i _
    simp [verifiedIntent, hfail]
  · intro a' ha' hs
    rcases written_or_left ha' with ⟨_, -, -, rfl⟩ | ⟨ha, -⟩
    · simp [verifiedAttempt, hfail] at hs
    · exact ha
  · intro intentId
    simp [recordVerification, verificationEvent, hfail, isSuccessOf]

theorem PaymentRows.recordPayment (h : PaymentRows s) (hatt : HasAttempt s prepared.attempt)
    (hintent : prepared.intent.id = prepared.attempt.paymentIntentId)
    (hmatch : amountMatches prepared.intent result = true)
    (hopen : ∃ i ∈ s.intents, i.id = prepared.intent.id ∧ i.status ∈ [.created, .pending]) :
    PaymentRows (s.recordVerification prepared result now) := by
  obtain ⟨i, hi, hid, hstat⟩ := hopen
  have hnotPaid : ¬Paid s prepared.intent.id := by
    rintro ⟨j, hj, hjid, hjs⟩
    have hsame : j = i := h.intentId j hj i hi (hjid.trans hid.symm)
    rw [hsame] at hjs
    simp [hjs] at hstat
  have hpaid : Paid (s.recordVerification prepared result now) prepared.intent.id := by
    refine ⟨_, mem_updateWhere_of hi ⟨hid, hstat⟩, by simpa using hid, ?_⟩
    simp [verifiedIntent, hmatch]
  have hpaidIff : ∀ intentId, Paid (s.recordVerification prepared result now) intentId ↔
      Paid s intentId ∨ intentId = prepared.intent.id := by
    intro intentId
    constructor
    · rintro ⟨j', hj', hjid, hjs⟩
      rcases written_or_left hj' with ⟨j, -, hp, rfl⟩ | ⟨hj, -⟩
      · rw [verifiedIntent_id] at hjid
        exact Or.inr (hjid.symm.trans hp.1)
      · exact Or.inl ⟨j', hj, hjid, hjs⟩
    · rintro (⟨j, hj, hjid, hjs⟩ | rfl)
      · refine ⟨j, mem_updateWhere_of_not hj ?_, hjid, hjs⟩
        rintro ⟨-, hopen⟩
        simp [hjs] at hopen
      · exact hpaid
  refine ⟨intentId_updateWhere h.intentId fun i => verifiedIntent_id ..,
    attemptId_recordVerification result now h.attemptId, ?_, ?_⟩
  · intro a' ha' hs
    rcases written_or_left ha' with ⟨a, ha, hp, rfl⟩ | ⟨ha, -⟩
    · obtain ⟨b, hb, hbid, hbintent⟩ := hatt
      have hsame : a = b := h.attemptId a ha b hb (hp.1.trans hbid.symm)
      have hpid : a.paymentIntentId = prepared.intent.id := by rw [hsame, hbintent, hintent]
      show Paid _ a.paymentIntentId
      rw [hpid]
      exact hpaid
    · exact (hpaidIff _).2 (Or.inl (h.belongs a' ha hs))
  · intro intentId
    have hcnt : (s.recordVerification prepared result now).outbox.countP
          (isSuccessOf intentId) =
        s.outbox.countP (isSuccessOf intentId) +
          if prepared.intent.id = intentId then 1 else 0 := by
      simp [recordVerification, verificationEvent, hmatch, isSuccessOf,
        countP_append]
    rw [hcnt, h.published intentId]
    by_cases hsame : prepared.intent.id = intentId
    · rw [← hsame, if_pos rfl, if_neg hnotPaid, if_pos hpaid]
    · have hiff : Paid (s.recordVerification prepared result now) intentId ↔ Paid s intentId := by
        rw [hpaidIff]
        exact or_iff_left fun h => hsame h.symm
      simp only [if_neg hsame, hiff, add_zero]

/-! ## The step -/

theorem hasAttempt_of_mem {a : PaymentAttemptEntity} (ha : a ∈ s.attempts) :
    HasAttempt s a := ⟨a, ha, rfl, rfl⟩

theorem paymentCallInv_afterLoadAttempt (hatt : HasAttempt s attempt)
    (hintent : intent.id = attempt.paymentIntentId) (now : Instant) :
    PaymentCallInv s (PaymentSystem.afterLoadAttempt attempt intent now) := by
  unfold afterLoadAttempt
  split
  · exact ⟨hatt, hintent⟩
  · split
    · exact ⟨hatt, hintent⟩
    · exact ⟨hatt, hintent⟩

/-- The call has read nothing that it still needs. -/
def PaymentCall.plain : PaymentCall → Bool
  | .insertAttempt .. | .loadAttemptIntent _ | .verifyProvider .. | .applyVerification _ => false
  | _ => true

/-- A step that writes nothing, its call, and where the call goes on. -/
inductive PaymentSystem.Moves (s : PaymentSystem) : PaymentStep → ℕ → PaymentCall → Prop where
  | goes (e : PaymentStep) (pid : ℕ) (call : PaymentCall) (hplain : call.plain = true) :
    Moves s e pid call
  | opens (pid attemptId : ℕ) (reference url : String) (intent : PaymentIntentEntity) :
    Moves s (.initiated pid attemptId reference url) pid
      (.insertAttempt intent (initiatedAttempt intent attemptId reference url))
  | finds (pid : ℕ) (now : Instant) (attempt : PaymentAttemptEntity)
      (hmem : attempt ∈ s.store.attempts) :
    Moves s (.advance pid now) pid (.loadAttemptIntent attempt)
  | prepares (pid : ℕ) (now : Instant) (attempt : PaymentAttemptEntity)
      (intent : PaymentIntentEntity) (hat : s.calls pid = .loadAttemptIntent attempt)
      (hmem : intent ∈ s.store.intents) (hid : intent.id = attempt.paymentIntentId) :
    Moves s (.advance pid now) pid (afterLoadAttempt attempt intent now)
  | hears (pid : ℕ) (result : VerifyPaymentResult) (attempt : PaymentAttemptEntity)
      (intent : PaymentIntentEntity) (hat : s.calls pid = .verifyProvider attempt intent) :
    Moves s (.verified pid result) pid (.applyVerification ⟨attempt, intent, some result, false⟩)

/-- What a step has done. -/
inductive PaymentSystem.Took (s : PaymentSystem) : PaymentStep → PaymentSystem → Prop where
  | opens (intent : PaymentIntentEntity) (store : PaymentStore) (hcreated : intent.status = .created)
      (hinsert : s.store.insertIntent intent = some store) :
    Took s (.createIntent intent) { s with store := store }
  | moves (e : PaymentStep) (pid : ℕ) (call : PaymentCall) (hmoves : s.Moves e pid call) :
    Took s e (s.setCall pid call)
  | expires (pid : ℕ) (now : Instant) (intentId : Uuid) :
    Took s (.advance pid now) (s.commit pid .threw (s.store.expireIntent intentId))
  | inserts (pid : ℕ) (now : Instant) (intent : PaymentIntentEntity)
      (attempt : PaymentAttemptEntity) (store : PaymentStore)
      (hat : s.calls pid = .insertAttempt intent attempt)
      (hinsert : s.store.insertAttempt intent attempt = some store) :
    Took s (.advance pid now) (s.commit pid .returned store)
  | applies (pid : ℕ) (now : Instant) (prepared : PreparedVerification)
      (hat : s.calls pid = .applyVerification prepared) :
    Took s (.advance pid now)
      (s.commit pid .returned (s.store.applyVerification prepared now).2)

theorem PaymentSystem.took_of_advance {s s' : PaymentSystem} (hs : s.advance pid now = some s') :
    s.Took (.advance pid now) s' := by
  unfold advance at hs
  split at hs
  · split at hs <;> cases hs
    · exact .moves _ pid _ (.goes _ pid _ rfl)
    · refine .moves _ pid _ (.goes _ pid _ ?_)
      unfold afterLoadIntent
      repeat' split
      all_goals rfl
  · cases hs
    exact .expires pid now _
  · split at hs <;> cases hs
    · exact .moves _ pid _ (.goes _ pid _ rfl)
    · exact .moves _ pid _ (.goes _ pid _ rfl)
  · rename_i intent attempt hat
    split at hs <;> cases hs
    · exact .moves _ pid _ (.goes _ pid _ rfl)
    · rename_i store hins
      exact .inserts pid now intent attempt store hat hins
  · split at hs <;> cases hs
    · exact .moves _ pid _ (.goes _ pid _ rfl)
    · rename_i attempt hfind
      exact .moves _ pid _ (.finds pid now attempt (mem_of_find?_eq_some hfind))
  · rename_i attempt hat
    split at hs <;> cases hs
    · exact .moves _ pid _ (.goes _ pid _ rfl)
    · rename_i intent hfind
      have hid := find?_some hfind
      simp only [decide_eq_true_eq] at hid
      exact .moves _ pid _
        (.prepares pid now attempt intent hat (mem_of_find?_eq_some hfind) hid)
  · rename_i prepared hat
    cases hs
    exact .applies pid now prepared hat
  · cases hs

theorem PaymentSystem.took_of_step {s s' : PaymentSystem} (hs : s.step e = some s') :
    s.Took e s' := by
  cases e with
  | createIntent intent =>
    simp only [step] at hs
    split at hs
    · rename_i hcre
      split at hs
      · cases hs
      rename_i store hins
      cases hs
      exact .opens intent store hcre hins
    · cases hs
  | initiate pid | callback pid =>
    simp only [step] at hs
    split at hs
    · cases hs
      exact .moves _ pid _ (.goes _ pid _ rfl)
    · cases hs
  | advance => exact took_of_advance hs
  | initiated pid attemptId reference url =>
    simp only [step] at hs
    split at hs
    · rename_i intent _
      split at hs <;> cases hs
      · exact .moves _ pid _ (.goes _ pid _ rfl)
      · exact .moves _ pid _ (.opens pid attemptId reference url intent)
    · cases hs
  | verified pid result =>
    simp only [step] at hs
    split at hs
    · rename_i attempt intent hat
      cases hs
      exact .moves _ pid _ (.hears pid result attempt intent hat)
    · cases hs
  | die pid =>
    cases hs
    exact .moves _ pid _ (.goes _ pid _ rfl)

theorem paymentInv_step {s s' : PaymentSystem} (h : PaymentInv s) (hopen : s.IntentOpen e)
    (hs : s.step e = some s') : PaymentInv s' := by
  cases took_of_step hs with
  | opens intent store hcre hins =>
    obtain ⟨hrows, hkeep⟩ := h.rows.insertIntent hcre hins
    exact ⟨hrows, fun q => (h.calls q).mono hkeep⟩
  | moves _ pid call hmoves =>
    refine h.setCall ?_
    cases hmoves with
    | goes _ _ _ hplain =>
      cases call with
      | insertAttempt | loadAttemptIntent | verifyProvider | applyVerification => cases hplain
      | _ => trivial
    | opens => exact ⟨rfl, rfl⟩
    | finds _ _ attempt hmem => exact hasAttempt_of_mem hmem
    | prepares _ now attempt intent hat _ hid =>
      have hcall := h.calls pid
      rw [hat] at hcall
      exact paymentCallInv_afterLoadAttempt hcall hid now
    | hears _ result attempt intent hat =>
      have hcall := h.calls pid
      rw [hat] at hcall
      exact hcall
  | expires pid now intentId =>
    obtain ⟨hrows, hkeep⟩ := h.rows.expireIntent intentId
    exact h.commit hrows hkeep trivial
  | inserts pid now intent attempt store hat hins =>
    have hcall := h.calls pid
    rw [hat] at hcall
    obtain ⟨hrows, hkeep⟩ := h.rows.insertAttempt hcall.2 hins
    exact h.commit hrows hkeep trivial
  | applies pid now prepared hat =>
    have hcall := h.calls pid
    rw [hat] at hcall
    rcases applyVerification_cases s.store prepared now with ⟨heq, -⟩ | hrec
    · rw [heq]
      exact h.setCall trivial
    · obtain ⟨result, hdone, hres, -, hclaims, -, heq⟩ := hrec
      rw [heq]
      have hkeep := keepsAttempts_recordVerification s.store prepared result now
      by_cases hmatch : amountMatches prepared.intent result = true
      · have hpays : s.Pays (.advance pid now) prepared :=
          ⟨pid, now, result, rfl, hat, hdone, hres, hmatch, hclaims⟩
        exact h.commit (h.rows.recordPayment hcall.1 hcall.2 hmatch (hopen prepared hpays)) hkeep
          trivial
      · have hfail : amountMatches prepared.intent result = false := by simpa using hmatch
        exact h.commit (h.rows.recordFailure hfail) hkeep trivial

/-- A step that does not meet the condition leaves the property: the attempt
succeeds, and its intent either has not succeeded or was announced before. -/
theorem intentOpen_of_settled {s s' : PaymentSystem} (h : PaymentInv s) (hs : s.step e = some s')
    (hsettle : s'.Settled) : s.IntentOpen e := by
  rintro prepared ⟨pid, now, result, rfl, hpc, hdone, hres, hmatch, hclaims⟩
  have hcall := h.calls pid
  rw [hpc] at hcall
  obtain ⟨⟨b, hb, hbid, hbintent⟩, hintent⟩ := hcall
  by_contra hclosed
  have hstep : s.step (.advance pid now) =
      some (s.commit pid .returned (s.store.recordVerification prepared result now)) := by
    have hknown : result.outcome ≠ .unknown := by
      simp only [amountMatches, decide_eq_true_eq] at hmatch
      simp [hmatch.1]
    simp [step, advance, hpc, applyVerification, hdone, hres, hknown,
      hclaims]
  rw [hstep] at hs
  cases hs
  obtain ⟨a, ha, haid, hastatus⟩ := hclaims
  have hsame : a = b := h.rows.attemptId a ha b hb (haid.trans hbid.symm)
  -- the attempt has succeeded, so its intent was succeeded before the step
  have hmem : verifiedAttempt prepared.intent result now a ∈
      (s.store.recordVerification prepared result now).attempts :=
    mem_updateWhere_of ha ⟨haid, hastatus⟩
  obtain ⟨i', hi', hid', hs'⟩ := hsettle.belongs _ hmem (by simp [verifiedAttempt, hmatch])
  have hpid : (verifiedAttempt prepared.intent result now a).paymentIntentId =
      prepared.intent.id := by
    show a.paymentIntentId = prepared.intent.id
    rw [hsame, hbintent, hintent]
  rw [hpid] at hid'
  have hi : i' ∈ s.store.intents := by
    rcases written_or_left hi' with ⟨i, hi, hp, -⟩ | ⟨hi, -⟩
    · exact absurd ⟨i, hi, hp⟩ hclosed
    · exact hi
  have hpaid : Paid s.store prepared.intent.id := ⟨i', hi, hid', hs'⟩
  have hcnt := h.rows.published prepared.intent.id
  rw [if_pos hpaid] at hcnt
  -- and so it is announced for the second time
  have honce := hsettle.once prepared.intent.id
  simp [commit, recordVerification, verificationEvent, hmatch,
    isSuccessOf, hcnt] at honce

/-- No request yet, and tables in which succeeded intents and events agree. -/
structure PaymentSystem.Fresh (s : PaymentSystem) : Prop where
  rows : PaymentRows s.store
  calls : ∀ pid, s.calls pid = .idle

theorem PaymentSystem.Fresh.paymentInv {s : PaymentSystem} (h : s.Fresh) : PaymentInv s where
  rows := h.rows
  calls := by
    intro pid
    rw [h.calls]
    trivial

/-- **Succeeded attempts and their intents.**  A run of initiations and callbacks
keeps every succeeded attempt with a succeeded intent, and announces each intent
at most once, exactly when every full payment it records finds the intent open. -/
theorem settled_throughout_iff {s : PaymentSystem} (hnew : s.Fresh) (es : List PaymentStep) :
    Throughout PaymentSystem.step PaymentSystem.Settled s es ↔
      Along PaymentSystem.step PaymentSystem.IntentOpen s es := by
  refine throughout_iff_along (I := PaymentInv) (fun s h => h.rows.settled)
    (fun _ _ _ h hopen hs => paymentInv_step h hopen hs)
    (fun _ _ _ h hs hsettle => intentOpen_of_settled h hs hsettle) ?_ hnew.paymentInv es
  rintro s e - hs prepared ⟨_, _, _, rfl, hpc, -⟩
  simp [PaymentSystem.step, PaymentSystem.advance, hpc] at hs

/-! ## An intent that expires while its gateway answers -/

/-- An empty payment schema. -/
def noPayments : PaymentSystem where
  store := ⟨[], [], [], []⟩
  calls := fun _ => .idle

theorem noPayments_fresh : noPayments.Fresh where
  rows := by
    refine ⟨?_, ?_, ?_, ?_⟩ <;> simp [noPayments, Paid]
  calls := fun _ => rfl

/-- An intent of 100 Toman, payable until instant 50. -/
def shortIntent : PaymentIntentEntity where
  id := 10
  orderId := 1
  customerId := 2
  amountToman := 100
  currency := "IRT"
  status := .created
  providerKey := "sandbox"
  expiresAt := 50
  succeededAt := none
  failureCode := none

/-- The gateway says that the whole amount was paid. -/
def paidInFull : VerifyPaymentResult where
  outcome := .succeeded
  paidAmountToman := some 100
  paidCurrency := some "IRT"
  providerTransactionId := none
  failureCode := none

/-- A callback asks the gateway at instant 49; a second tap on "pay" expires the
intent at instant 50; the answer is recorded at instant 51. -/
def expiryRace : List PaymentStep :=
  [.createIntent shortIntent, .initiate 0 10, .advance 0 1, .advance 0 1,
    .initiated 0 20 "ref" "url", .advance 0 1,
    .callback 1 "sandbox" "ref", .advance 1 49, .advance 1 49, .verified 1 paidInFull,
    .initiate 2 10, .advance 2 50, .advance 2 50, .advance 1 51]

theorem settled_throughout_iff_expiryRace :
    Throughout PaymentSystem.step PaymentSystem.Settled noPayments expiryRace ↔
      Along PaymentSystem.step PaymentSystem.IntentOpen noPayments expiryRace :=
  settled_throughout_iff noPayments_fresh expiryRace

/-- The attempt of the expired intent succeeds. -/
theorem settled_expiryRace_fails :
    ∃ t, runFrom PaymentSystem.step noPayments expiryRace = some t ∧ ¬t.Settled := by
  have hrun : (runFrom PaymentSystem.step noPayments expiryRace).map (fun t =>
      decide (∃ a ∈ t.store.attempts, a.status = .succeeded ∧ ¬Paid t.store a.paymentIntentId)) =
        some true := by decide
  obtain ⟨t, ht, hbad⟩ := Option.map_eq_some_iff.1 hrun
  obtain ⟨a, ha, hs, hnot⟩ := of_decide_eq_true hbad
  exact ⟨t, ht, fun hsettle => hnot (hsettle.belongs a ha hs)⟩

end BeauClick.Payment
