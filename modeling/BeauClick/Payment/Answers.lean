import BeauClick.Payment.Verification

/-!
# What callbacks can make of an attempt

Any number of callbacks ask the gateway about an attempt and record what it says, in any order.

* `Answered` — in a run, the gateway gives an answer to a callback of the attempt.
* `Grows` — what no write takes back: the amount of an intent, and an attempt that has ended.
* `AnswersInv` — succeeded attempts, their events and the callbacks at work agree.
* `verifiedOnce_run` — an attempt succeeds on an answer about its whole amount, ends once and is
  announced once.
-/

namespace BeauClick.Payment

open Money Table Runs PaymentStore List Option

/-! ## The property -/

/-- `unresolvedVerification`: what stands for the answer of a gateway that cannot be asked. -/
def unresolvedVerification (failureCode : String) : VerifyPaymentResult where
  outcome := .unknown
  paidAmountToman := none
  paidCurrency := none
  providerTransactionId := none
  failureCode := some failureCode

/-- The step is the answer of a gateway to a callback of the attempt. -/
def Hears (s : PaymentSystem) (e : PaymentStep) (attemptId : Uuid) (result : VerifyPaymentResult) :
    Prop :=
  ∃ pid attempt intent, e = .verified pid result ∧ s.calls pid = .verifyProvider attempt intent ∧
    attempt.id = attemptId

/-- So is a step of the run. -/
inductive Answered : PaymentSystem → List PaymentStep → Uuid → VerifyPaymentResult → Prop where
  | now {s : PaymentSystem} {e : PaymentStep} {attemptId : Uuid} {result : VerifyPaymentResult}
      (es : List PaymentStep) (h : Hears s e attemptId result) :
    Answered s (e :: es) attemptId result
  | later {s s' : PaymentSystem} {e : PaymentStep} {es : List PaymentStep} {attemptId : Uuid}
      {result : VerifyPaymentResult} (hstep : s.step e = some s')
      (h : Answered s' es attemptId result) : Answered s (e :: es) attemptId result

/-- One of the answers says that the whole amount of the intent was paid, in its currency. -/
def PaidFor (answers : Uuid → VerifyPaymentResult → Prop) (s : PaymentStore)
    (a : PaymentAttemptEntity) : Prop :=
  ∃ result, answers a.id result ∧
    ∃ i ∈ s.intents, i.id = a.paymentIntentId ∧ amountMatches i result = true

/-- The event says that the attempt has succeeded. -/
def isSuccessFor (attemptId : Uuid) : PaymentEvent → Bool
  | .paymentSucceeded _ paymentAttemptId .. => paymentAttemptId = attemptId
  | _ => false

/-- A callback is about to record that nobody knows. -/
def PreparedVerification.Ambiguous (prepared : PreparedVerification) : Prop :=
  prepared.alreadyProcessed = false ∧
    ∃ result ∈ prepared.providerResult, result.outcome = .unknown

/-- What a callback reports is what is stored. -/
def VerificationOutcome.Reports (outcome : VerificationOutcome) (a : PaymentAttemptEntity) : Prop :=
  outcome.status = .replayed ∧ outcome.providerTransactionId = a.providerTransactionId ∧
    outcome.failureCode = a.failureCode

/-- What holds of an attempt after a run, and of the callbacks that are about to record an answer.
`late`: a callback that finds its attempt ended is not ambiguous. -/
structure VerifiedOnce (es : List PaymentStep) (s : PaymentSystem) (attemptId : Uuid) : Prop where
  paid : ∀ a ∈ s.store.attempts, a.id = attemptId → a.status = .succeeded →
    PaidFor (Answered noPayments es) s.store a
  ambiguous : ∀ pid now prepared, s.calls pid = .applyVerification prepared →
    prepared.Ambiguous → (s.store.applyVerification prepared now).2 = s.store ∧
      (s.store.applyVerification prepared now).1.status = .unresolved
  final : ∀ a ∈ s.store.attempts, a.id = attemptId → a.status ≠ .initiated → ∀ es' t,
    runFrom PaymentSystem.step s es' = some t →
      a ∈ t.store.attempts ∧ ∀ b ∈ t.store.attempts, b.id = attemptId → b = a
  once : s.store.outbox.countP (isSuccessFor attemptId) ≤ 1
  replays : ∀ a ∈ s.store.attempts, a.id = attemptId → a.status ≠ .initiated →
    ∀ pid now prepared, s.calls pid = .applyVerification prepared →
      prepared.attempt.id = attemptId → (s.store.applyVerification prepared now).2 = s.store ∧
        (¬prepared.Ambiguous → (s.store.applyVerification prepared now).1.Reports a)
  late : ∀ attempt intent now prepared, attempt.status ≠ .initiated →
    PaymentSystem.afterLoadAttempt attempt intent now = .applyVerification prepared →
      ¬prepared.Ambiguous

/-! ## What no write takes back -/

/-- Intents keep their amounts, and attempts that have ended stay as they are. -/
structure Grows (s s' : PaymentStore) : Prop where
  intent : ∀ i ∈ s.intents, ∃ i' ∈ s'.intents, i'.id = i.id ∧ i'.amountToman = i.amountToman ∧
    i'.currency = i.currency
  attempt : ∀ a ∈ s.attempts, ∃ a' ∈ s'.attempts, a'.id = a.id ∧
    a'.paymentIntentId = a.paymentIntentId ∧ (a.status ≠ .initiated → a' = a)

variable {s s' : PaymentStore} {answers answers' : Uuid → VerifyPaymentResult → Prop}
  {intent : PaymentIntentEntity} {t : PaymentSystem} {attempt : PaymentAttemptEntity}
  {call : PaymentCall}

theorem grows_updateWhere {p : PaymentIntentEntity → Prop} [DecidablePred p]
    {f : PaymentIntentEntity → PaymentIntentEntity}
    (hintents : s'.intents = updateWhere p f s.intents)
    (hf : ∀ i, (f i).id = i.id ∧ (f i).amountToman = i.amountToman ∧ (f i).currency = i.currency)
    (hatt : ∀ a ∈ s.attempts, ∃ a' ∈ s'.attempts, a'.id = a.id ∧
      a'.paymentIntentId = a.paymentIntentId ∧ (a.status ≠ .initiated → a' = a)) :
    Grows s s' := by
  refine ⟨fun i hi => ?_, hatt⟩
  rw [hintents]
  by_cases hp : p i
  · exact ⟨f i, mem_updateWhere_of hi hp, hf i⟩
  · exact ⟨i, mem_updateWhere_of_not hi hp, rfl, rfl, rfl⟩

theorem grows_insertIntent (hs : s.insertIntent intent = some s') :
    Grows s s' ∧ s'.attempts = s.attempts ∧ s'.outbox = s.outbox := by
  unfold PaymentStore.insertIntent at hs
  split at hs
  · cases hs
  cases hs
  refine ⟨⟨fun i hi => ?_, fun a ha => ⟨a, ha, rfl, rfl, fun _ => rfl⟩⟩, rfl, rfl⟩
  exact ⟨i, mem_append_left _ hi, rfl, rfl, rfl⟩

theorem grows_expireIntent (intentId : Uuid) : Grows s (s.expireIntent intentId) :=
  grows_updateWhere rfl (fun _ => ⟨rfl, rfl, rfl⟩) fun a ha => ⟨a, ha, rfl, rfl, fun _ => rfl⟩

theorem grows_insertAttempt (hs : s.insertAttempt intent attempt = some s') :
    Grows s s' ∧ (∀ a ∈ s.attempts, a.id ≠ attempt.id) ∧ s'.attempts = s.attempts ++ [attempt] ∧
      ∀ attemptId, s'.outbox.countP (isSuccessFor attemptId) =
        s.outbox.countP (isSuccessFor attemptId) := by
  unfold PaymentStore.insertAttempt at hs
  split at hs
  · cases hs
  rename_i hfree
  cases hs
  refine ⟨grows_updateWhere rfl (fun _ => ⟨rfl, rfl, rfl⟩) fun a ha => ?_, fun a ha hid => ?_, rfl,
    fun attemptId => by simp [isSuccessFor]⟩
  · exact ⟨a, mem_append_left _ ha, rfl, rfl, fun _ => rfl⟩
  · exact hfree (Or.inl ⟨a, ha, Or.inl hid⟩)

theorem grows_recordVerification (prepared : PreparedVerification) (result : VerifyPaymentResult)
    (now : Instant) : Grows s (s.recordVerification prepared result now) := by
  refine grows_updateWhere rfl (fun i => ?_) fun a ha => ?_
  · unfold verifiedIntent
    split <;> exact ⟨rfl, rfl, rfl⟩
  · by_cases hp : a.id = prepared.attempt.id ∧ a.status = .initiated
    · exact ⟨_, mem_updateWhere_of ha hp, rfl, rfl, fun hended => absurd hp.2 hended⟩
    · exact ⟨a, mem_updateWhere_of_not ha hp, rfl, rfl, fun _ => rfl⟩

theorem Grows.refl : Grows s s :=
  ⟨fun i hi => ⟨i, hi, rfl, rfl, rfl⟩, fun a ha => ⟨a, ha, rfl, rfl, fun _ => rfl⟩⟩

theorem grows_step {t' : PaymentSystem} {e : PaymentStep} (hs : t.step e = some t') :
    Grows t.store t'.store := by
  cases PaymentSystem.took_of_step hs with
  | opens intent store _ hins => exact (grows_insertIntent hins).1
  | moves => exact .refl
  | expires pid now intentId => exact grows_expireIntent intentId
  | inserts pid now intent attempt store _ hins => exact (grows_insertAttempt hins).1
  | applies pid now prepared =>
    rcases applyVerification_cases t.store prepared now with ⟨heq, -⟩ | ⟨result, -, -, -, -, -, heq⟩
    · rw [heq]
      exact .refl
    · rw [heq]
      exact grows_recordVerification prepared result now

/-! ## The invariant -/

/-- Succeeded attempts were paid for and announced. -/
structure AnswerRows (answers : Uuid → VerifyPaymentResult → Prop) (s : PaymentStore) : Prop where
  attemptId : ∀ a ∈ s.attempts, ∀ b ∈ s.attempts, a.id = b.id → a = b
  paid : ∀ a ∈ s.attempts, a.status = .succeeded → PaidFor answers s a
  announced : ∀ attemptId, s.outbox.countP (isSuccessFor attemptId) =
    if ∃ a ∈ s.attempts, a.id = attemptId ∧ a.status = .succeeded then 1 else 0

/-- The attempt that was read is there, and has not changed once it has ended. -/
def Read (s : PaymentStore) (attempt : PaymentAttemptEntity) : Prop :=
  ∃ a ∈ s.attempts, a.id = attempt.id ∧ a.paymentIntentId = attempt.paymentIntentId ∧
    (attempt.status ≠ .initiated → a = attempt)

/-- The intent that was read for it is there, with its amount. -/
def ReadIntent (s : PaymentStore) (attempt : PaymentAttemptEntity)
    (intent : PaymentIntentEntity) : Prop :=
  ∃ i ∈ s.intents, i.id = attempt.paymentIntentId ∧ i.amountToman = intent.amountToman ∧
    i.currency = intent.currency

/-- What a call knows of the provider's answers. -/
def AnswerCall (answers : Uuid → VerifyPaymentResult → Prop) (s : PaymentStore) :
    PaymentCall → Prop
  | .insertAttempt _ attempt => attempt.status = .initiated
  | .loadAttemptIntent attempt => Read s attempt
  | .verifyProvider attempt intent => Read s attempt ∧ ReadIntent s attempt intent
  | .applyVerification prepared =>
    Read s prepared.attempt ∧ ReadIntent s prepared.attempt prepared.intent ∧
      if prepared.alreadyProcessed then prepared.attempt.status ≠ .initiated
      else ∃ result, prepared.providerResult = some result ∧
        (result.outcome = .succeeded → answers prepared.attempt.id result)
  | _ => True

/-- What holds after every step. -/
structure AnswersInv (answers : Uuid → VerifyPaymentResult → Prop) (t : PaymentSystem) : Prop where
  rows : AnswerRows answers t.store
  calls : ∀ pid, AnswerCall answers t.store (t.calls pid)

section

variable (hanswers : ∀ id r, answers id r → answers' id r)
include hanswers

theorem PaidFor.mono {a : PaymentAttemptEntity} (h : PaidFor answers s a) (hgrows : Grows s s') :
    PaidFor answers' s' a := by
  obtain ⟨result, hres, i, hi, hid, hmatch⟩ := h
  obtain ⟨i', hi', hid', hamt, hcurrency⟩ := hgrows.intent i hi
  refine ⟨result, hanswers _ _ hres, i', hi', hid'.trans hid, ?_⟩
  unfold amountMatches at hmatch ⊢
  rwa [hamt, hcurrency]

theorem AnswerCall.mono (h : AnswerCall answers s call) (hgrows : Grows s s') :
    AnswerCall answers' s' call := by
  have hread : ∀ attempt, Read s attempt → Read s' attempt := by
    rintro attempt ⟨a, ha, hid, hintent, hended⟩
    obtain ⟨a', ha', hid', hintent', hsame⟩ := hgrows.attempt a ha
    refine ⟨a', ha', hid'.trans hid, hintent'.trans hintent, fun hterminal => ?_⟩
    obtain rfl := hended hterminal
    exact hsame hterminal
  have hreadIntent : ∀ attempt intent, ReadIntent s attempt intent →
      ReadIntent s' attempt intent := by
    rintro attempt intent ⟨i, hi, hid, hamt, hcurrency⟩
    obtain ⟨i', hi', hid', hamt', hcurrency'⟩ := hgrows.intent i hi
    exact ⟨i', hi', hid'.trans hid, hamt'.trans hamt, hcurrency'.trans hcurrency⟩
  cases call with
  | loadAttemptIntent attempt => exact hread attempt h
  | verifyProvider attempt intent => exact ⟨hread attempt h.1, hreadIntent attempt intent h.2⟩
  | applyVerification =>
    refine ⟨hread _ h.1, hreadIntent _ _ h.2.1, ?_⟩
    have hres := h.2.2
    split at hres
    · rename_i hprocessed
      rw [if_pos hprocessed]
      exact hres
    · rename_i hprocessed
      rw [if_neg hprocessed]
      obtain ⟨result, hsome, hans⟩ := hres
      exact ⟨result, hsome, fun hsucceeded => hanswers _ _ (hans hsucceeded)⟩
  | _ => exact h

theorem AnswersInv.mono (h : AnswersInv answers t) : AnswersInv answers' t where
  rows := ⟨h.rows.attemptId, fun a ha hs => (h.rows.paid a ha hs).mono hanswers .refl,
    h.rows.announced⟩
  calls := fun pid => (h.calls pid).mono hanswers .refl

end

theorem AnswersInv.commit {pid : ℕ} (h : AnswersInv answers t) (hrows : AnswerRows answers s')
    (hgrows : Grows t.store s') (hcall : AnswerCall answers s' call) :
    AnswersInv answers (t.commit pid call s') where
  rows := hrows
  calls := (Function.forall_update_iff t.calls fun _ => AnswerCall answers s').2
    ⟨hcall, fun q _ => (h.calls q).mono (fun _ _ hr => hr) hgrows⟩

section

variable (h : AnswerRows answers s)
include h

theorem AnswerRows.of_quiet (hgrows : Grows s s')
    (hid : ∀ a ∈ s'.attempts, ∀ b ∈ s'.attempts, a.id = b.id → a = b)
    (hback : ∀ a ∈ s'.attempts, a.status = .succeeded → a ∈ s.attempts)
    (hout : ∀ attemptId, s'.outbox.countP (isSuccessFor attemptId) =
      s.outbox.countP (isSuccessFor attemptId)) : AnswerRows answers s' where
  attemptId := hid
  paid := fun a ha hs => (h.paid a (hback a ha hs) hs).mono (fun _ _ hr => hr) hgrows
  announced := by
    intro attemptId
    rw [hout, h.announced]
    refine if_congr ⟨?_, ?_⟩ rfl rfl
    · rintro ⟨a, ha, hid, hs⟩
      obtain ⟨a', ha', -, -, hsame⟩ := hgrows.attempt a ha
      obtain rfl := hsame (by simp [hs])
      exact ⟨a', ha', hid, hs⟩
    · rintro ⟨a, ha, hid, hs⟩
      exact ⟨a, hback a ha hs, hid, hs⟩

theorem AnswerRows.insertAttempt
    (hinit : attempt.status = .initiated) (hs : s.insertAttempt intent attempt = some s') :
    AnswerRows answers s' := by
  obtain ⟨hgrows, hnew, hatts, hout⟩ := grows_insertAttempt hs
  refine h.of_quiet hgrows ?_ ?_ hout
  · rw [hatts]
    exact determined_concat h.attemptId fun a ha hid => absurd hid (hnew a ha)
  · intro a ha hs
    rw [hatts] at ha
    rcases mem_append.1 ha with ha | ha
    · exact ha
    · rw [mem_singleton.1 ha, hinit] at hs
      cases hs

theorem AnswerRows.record {prepared : PreparedVerification} {result : VerifyPaymentResult}
    {now : Instant} (hclaims : s.claims prepared.attempt.id)
    (hread : Read s prepared.attempt) (hintent : ReadIntent s prepared.attempt prepared.intent)
    (hans : result.outcome = .succeeded → answers prepared.attempt.id result) :
    AnswerRows answers (s.recordVerification prepared result now) := by
  have hgrows := grows_recordVerification (s := s) prepared result now
  obtain ⟨a, ha, haid, hopen⟩ := hclaims
  cases hmatch : amountMatches prepared.intent result with
  | false =>
    refine h.of_quiet hgrows (attemptId_recordVerification result now h.attemptId) ?_
      fun attemptId => ?_
    · intro b' hb' hs
      rcases written_or_left hb' with ⟨b, -, -, rfl⟩ | ⟨hb, -⟩
      · simp [verifiedAttempt, hmatch] at hs
      · exact hb
    · simp [recordVerification, verificationEvent, hmatch, isSuccessFor]
  | true =>
    have hpaid : amountMatches prepared.intent result = true := hmatch
    obtain ⟨hsucceeded, -, -⟩ := of_decide_eq_true hmatch
    refine ⟨attemptId_recordVerification result now h.attemptId, ?_, fun attemptId => ?_⟩
    · intro b' hb' hs
      rcases written_or_left hb' with ⟨b, hb, hp, rfl⟩ | ⟨hb, -⟩
      · refine PaidFor.mono (fun _ _ hr => hr) ?_ hgrows
        obtain ⟨c, hc, hcid, hcintent, -⟩ := hread
        obtain ⟨i, hi, hiid, hiamount, hicurrency⟩ := hintent
        obtain rfl := h.attemptId b hb c hc (hp.1.trans hcid.symm)
        refine ⟨result, hcid ▸ hans hsucceeded, i, hi, hiid.trans hcintent.symm, ?_⟩
        unfold amountMatches
        rw [hiamount, hicurrency]
        exact hmatch
      · exact (h.paid b' hb hs).mono (fun _ _ hr => hr) hgrows
    · have hcnt : (s.recordVerification prepared result now).outbox.countP
            (isSuccessFor attemptId) = s.outbox.countP (isSuccessFor attemptId) +
              if prepared.attempt.id = attemptId then 1 else 0 := by
        simp [recordVerification, verificationEvent, hpaid, isSuccessFor, countP_append]
      rw [hcnt, h.announced]
      by_cases hsame : prepared.attempt.id = attemptId
      · subst hsame
        rw [if_pos rfl, if_neg, if_pos]
        · exact ⟨_, mem_updateWhere_of ha ⟨haid, hopen⟩, haid, by simp [verifiedAttempt, hpaid]⟩
        · rintro ⟨b, hb, hbid, hs⟩
          rw [h.attemptId b hb a ha (hbid.trans haid.symm), hopen] at hs
          cases hs
      · rw [if_neg hsame]
        refine if_congr ⟨?_, ?_⟩ rfl rfl
        · rintro ⟨b, hb, hbid, hs⟩
          refine ⟨b, mem_updateWhere_of_not hb fun hp => ?_, hbid, hs⟩
          exact hsame (hp.1.symm.trans hbid)
        · rintro ⟨b', hb', hbid, hs⟩
          rcases written_or_left hb' with ⟨_, -, hp, rfl⟩ | ⟨hb, -⟩
          · exact absurd (hp.1.symm.trans hbid) hsame
          · exact ⟨b', hb, hbid, hs⟩

end

/-! ## Runs -/

section Run

variable {t t' : PaymentSystem} {e : PaymentStep} {es : List PaymentStep} {a : PaymentAttemptEntity}

theorem answerCall_afterLoadAttempt {attempt : PaymentAttemptEntity} (hread : Read s attempt)
    (hintent : ReadIntent s attempt intent) (now : Instant) :
    AnswerCall answers s (PaymentSystem.afterLoadAttempt attempt intent now) := by
  unfold PaymentSystem.afterLoadAttempt
  split
  · rename_i hended
    exact ⟨hread, hintent, hended⟩
  · split
    · exact ⟨hread, hintent, intentExpired, rfl, by rintro ⟨⟩⟩
    · exact ⟨hread, hintent⟩

theorem answersInv_step (h : AnswersInv answers t)
    (hhears : ∀ id r, Hears t e id r → answers id r) (hs : t.step e = some t') :
    AnswersInv answers t' := by
  have hgrows := grows_step hs
  cases PaymentSystem.took_of_step hs with
  | opens intent store _ hins =>
    obtain ⟨-, hatts, hout⟩ := grows_insertIntent hins
    refine ⟨h.rows.of_quiet hgrows ?_ ?_ ?_, fun q => (h.calls q).mono (fun _ _ hr => hr) hgrows⟩
    · rw [hatts]
      exact h.rows.attemptId
    · rw [hatts]
      exact fun a ha _ => ha
    · intro attemptId
      rw [hout]
  | moves _ pid call hmoves =>
    refine h.commit h.rows hgrows ?_
    cases hmoves with
    | goes _ _ _ hplain =>
      cases call with
      | insertAttempt | loadAttemptIntent | verifyProvider | applyVerification => cases hplain
      | _ => trivial
    | opens => rfl
    | finds _ _ attempt hmem => exact ⟨attempt, hmem, rfl, rfl, fun _ => rfl⟩
    | prepares _ now attempt intent hat hmem hid =>
      have hcall := h.calls pid
      rw [hat] at hcall
      exact answerCall_afterLoadAttempt hcall ⟨intent, hmem, hid, rfl, rfl⟩ now
    | hears _ result attempt intent hat =>
      have hcall := h.calls pid
      rw [hat] at hcall
      exact ⟨hcall.1, hcall.2, result, rfl,
        fun _ => hhears _ _ ⟨pid, attempt, intent, rfl, hat, rfl⟩⟩
  | expires =>
    exact h.commit (h.rows.of_quiet hgrows h.rows.attemptId (fun a ha _ => ha) fun _ => rfl) hgrows
      trivial
  | inserts pid now intent attempt store hat hins =>
    have hcall := h.calls pid
    rw [hat] at hcall
    exact h.commit (h.rows.insertAttempt hcall hins) hgrows trivial
  | applies pid now prepared hat =>
    have hcall := h.calls pid
    rw [hat] at hcall
    refine h.commit ?_ hgrows trivial
    rcases applyVerification_cases t.store prepared now with ⟨heq, -⟩ | hrecs
    · rw [heq]
      exact h.rows
    · obtain ⟨_, hprocessed, hres, -, hclaims, -, heq⟩ := hrecs
      rw [heq]
      obtain ⟨hread, hintent, hans⟩ := hcall
      rw [hprocessed] at hans
      obtain ⟨_, hres', hans⟩ := hans
      cases hres.symm.trans hres'
      exact h.rows.record hclaims hread hintent hans

theorem answersInv_run (h : AnswersInv answers t)
    (hrun : runFrom PaymentSystem.step t es = some t') :
    AnswersInv (fun id r => answers id r ∨ Answered t es id r) t' := by
  induction es generalizing t answers with
  | nil =>
    cases hrun
    exact h.mono fun _ _ => Or.inl
  | cons e es ih =>
    obtain ⟨t₁, hs, hrest⟩ := runFrom_cons_eq_some.1 hrun
    have hstep : AnswersInv (fun id r => answers id r ∨ Hears t e id r) t₁ :=
      answersInv_step (h.mono fun _ _ => Or.inl) (fun _ _ => Or.inr) hs
    refine (ih hstep hrest).mono ?_
    rintro id r ((hold | hhears) | hlater)
    · exact Or.inl hold
    · exact Or.inr (.now es hhears)
    · exact Or.inr (.later hs hlater)

theorem noPayments_answersInv : AnswersInv answers noPayments where
  rows := by
    refine ⟨?_, ?_, ?_⟩ <;> simp [noPayments]
  calls := fun _ => trivial

theorem mem_run (ha : a ∈ t.store.attempts) (hended : a.status ≠ .initiated)
    (hrun : runFrom PaymentSystem.step t es = some t') : a ∈ t'.store.attempts := by
  refine runFrom_invariant (I := fun t : PaymentSystem => a ∈ t.store.attempts) ?_ ha hrun
  intro t e t' ha hs
  obtain ⟨_, _, -, -, hsame⟩ := (grows_step hs).attempt a ha
  rwa [← hsame hended]

theorem AnswersInv.replays {pid : ℕ} {now : Instant} {prepared : PreparedVerification}
    (h : AnswersInv answers t) (ha : a ∈ t.store.attempts) (hended : a.status ≠ .initiated)
    (hat : t.calls pid = .applyVerification prepared) (hid : prepared.attempt.id = a.id) :
    (t.store.applyVerification prepared now).2 = t.store ∧
      (¬prepared.Ambiguous → (t.store.applyVerification prepared now).1.Reports a) := by
  have hcall := h.calls pid
  rw [hat] at hcall
  obtain ⟨⟨b, hb, hbid, -, hsame⟩, -, hres⟩ := hcall
  obtain rfl := h.rows.attemptId b hb a ha (hbid.trans hid)
  have hclosed : ¬t.store.claims prepared.attempt.id := by
    rintro ⟨c, hc, hcid, hopen⟩
    rw [h.rows.attemptId c hc b ha (hcid.trans hid)] at hopen
    exact hended hopen
  cases hprocessed : prepared.alreadyProcessed with
  | true =>
    rw [if_pos hprocessed] at hres
    obtain rfl := hsame hres
    simp [applyVerification, hprocessed, VerificationOutcome.Reports]
  | false =>
    rw [if_neg (by simp [hprocessed])] at hres
    obtain ⟨result, hsome, -⟩ := hres
    by_cases hunknown : result.outcome = .unknown
    · refine ⟨by simp [applyVerification, hprocessed, hsome, hunknown], fun hnot => ?_⟩
      exact absurd ⟨hprocessed, result, hsome, hunknown⟩ hnot
    · have hfind : t.store.findAttempt prepared.attempt.id = some b := by
        obtain ⟨c, hc⟩ : ∃ c, t.store.findAttempt prepared.attempt.id = some c :=
          isSome_iff_exists.1 (find?_isSome.2 ⟨b, ha, by simp [hid]⟩)
        have hcid := find?_some hc
        simp only [decide_eq_true_eq] at hcid
        rw [hc, h.rows.attemptId c (mem_of_find?_eq_some hc) b ha (hcid.trans hid)]
      simp [applyVerification, hprocessed, hsome, hunknown, hclosed, hfind,
        VerificationOutcome.Reports]

end Run

/-- **One outcome.**  Whatever the gateways answer and however the callbacks of an attempt
interleave, the attempt succeeds only on an answer about its whole amount, ends at most once and is
announced at most once, and nothing is written after its end, nor for an answer that is unknown. -/
theorem verifiedOnce_run {es : List PaymentStep} {t : PaymentSystem}
    (hrun : runFrom PaymentSystem.step noPayments es = some t) (attemptId : Uuid) :
    VerifiedOnce es t attemptId := by
  have hstart : AnswersInv (fun _ _ => False) noPayments := noPayments_answersInv
  have h : AnswersInv (Answered noPayments es) t :=
    (answersInv_run hstart hrun).mono fun _ _ hr => hr.resolve_left id
  refine ⟨fun a ha _ hs => h.rows.paid a ha hs, ?_, ?_, ?_, ?_, ?_⟩
  · rintro pid now prepared - ⟨hprocessed, _, hres, hunknown⟩
    rw [mem_def] at hres
    simp [applyVerification, hprocessed, hres, hunknown]
  · intro a ha hid hended es' t' hrun'
    have hmem := mem_run ha hended hrun'
    refine ⟨hmem, fun b hb hbid => ?_⟩
    exact (answersInv_run h hrun').rows.attemptId b hb a hmem (hbid.trans hid.symm)
  · rw [h.rows.announced]
    split <;> omega
  · intro a ha hid hended pid now prepared hat hat'
    exact h.replays ha hended hat (hat'.trans hid.symm)
  · rintro attempt intent now prepared hended hprepares ⟨hprocessed, -⟩
    rw [PaymentSystem.afterLoadAttempt, if_pos hended] at hprepares
    cases hprepares
    cases hprocessed

/-! ## A gateway that does not answer in time -/

/-- Two callbacks ask about one attempt; the first is told that it was paid, and the second one's
gateway times out after that is recorded. -/
def lateTimeout : List PaymentStep :=
  [.createIntent shortIntent, .initiate 0 10, .advance 0 1, .advance 0 1,
    .initiated 0 20 "ref" "url", .advance 0 1, .callback 1 "sandbox" "ref", .advance 1 2,
    .advance 1 2, .callback 2 "sandbox" "ref", .advance 2 2, .advance 2 2,
    .verified 1 paidInFull, .advance 1 3,
    .verified 2 (unresolvedVerification "verification_timeout")]

theorem verifiedOnce_run_lateTimeout :
    ∃ t, runFrom PaymentSystem.step noPayments lateTimeout = some t ∧
      VerifiedOnce lateTimeout t 20 := by
  have hrun : (runFrom PaymentSystem.step noPayments lateTimeout).isSome := by decide
  obtain ⟨t, ht⟩ := isSome_iff_exists.1 hrun
  exact ⟨t, ht, verifiedOnce_run ht 20⟩

/-- The second callback is not told that the attempt has succeeded. -/
theorem reports_lateTimeout_fails :
    ¬ ∀ (es : List PaymentStep) (t : PaymentSystem),
      runFrom PaymentSystem.step noPayments es = some t → ∀ a ∈ t.store.attempts,
        a.status ≠ .initiated → ∀ pid now prepared, t.calls pid = .applyVerification prepared →
          prepared.attempt.id = a.id → (t.store.applyVerification prepared now).1.Reports a := by
  intro h
  have hrun : (runFrom PaymentSystem.step noPayments lateTimeout).map (fun t =>
      (t.calls 2, t.store.attempts.map fun a => (a.id, decide (a.status = .succeeded)))) =
        some (.applyVerification ⟨initiatedAttempt shortIntent 20 "ref" "url",
          { shortIntent with status := .pending },
          some (unresolvedVerification "verification_timeout"), false⟩, [(20, true)]) := by decide
  obtain ⟨t, ht, hstate⟩ := map_eq_some_iff.1 hrun
  obtain ⟨hat, hatts⟩ := Prod.mk.inj hstate
  have hmem : (20, true) ∈ t.store.attempts.map fun a => (a.id, decide (a.status = .succeeded)) := by
    rw [hatts]
    exact mem_singleton_self _
  obtain ⟨a, ha, heq⟩ := mem_map.1 hmem
  obtain ⟨hid, hsucceeded⟩ := Prod.mk.inj heq
  have hs : a.status = .succeeded := of_decide_eq_true hsucceeded
  have hreps := h lateTimeout t ht a ha (by simp [hs]) 2 4 _ hat hid.symm
  simp [VerificationOutcome.Reports, applyVerification, unresolvedVerification] at hreps

end BeauClick.Payment
