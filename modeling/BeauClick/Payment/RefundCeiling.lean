import BeauClick.Lib.Runs
import BeauClick.Payment.Store

/-!
# Concurrent refunds of one payment

`PaymentService.refund` is three transactions with a gateway call between them,
and any number of calls run at once.  A call is modelled statement by statement;
the row lock on the intent is the only thing that keeps two calls apart.
-/

namespace BeauClick.Payment

open Money Table Runs PaymentStore List Option
open Function (update update_of_ne)

/-! ## Calls -/

/-- What a call has read before it takes the lock. -/
structure RefundWork where
  input : RequestRefundInput
  amountToman : ℤ
  intent : PaymentIntentEntity
  attempt : Option PaymentAttemptEntity
  deriving DecidableEq

/-- The next statement of a call of `refund`. -/
inductive RefundCall where
  | idle
  | findExisting (input : RequestRefundInput) (amountToman : ℤ)
  | findIntent (input : RequestRefundInput) (amountToman : ℤ)
  | findAttempt (input : RequestRefundInput) (amountToman : ℤ) (intent : PaymentIntentEntity)
  | lockIntent (work : RefundWork)
  | reread (work : RefundWork)
  | assertWithinCaptured (work : RefundWork)
  | insert (work : RefundWork)
  | settle (input : RequestRefundInput)
  | provider (refundId : Uuid)
  | awaiting (refundId : Uuid)
  | complete (refundId : Uuid) (status : RefundStatus)
      (providerRefundReference failureCode : Option String)
  | returned
  | threw
  deriving DecidableEq

/-- The calls on the refunds of one order and everything they share. -/
structure RefundSystem where
  store : PaymentStore
  /-- The call that holds `FOR UPDATE` on an intent row. -/
  lockedBy : Uuid → Option ℕ
  calls : ℕ → RefundCall
  /-- The refund rows the gateway was asked for, in order. -/
  asked : List Uuid

/-- One step of one call, or of something beside the calls. -/
inductive RefundEvent where
  | refund (pid : ℕ) (input : RequestRefundInput)
  | advance (pid : ℕ)
  | insert (pid : ℕ) (refundId : Uuid)
  | askProvider (pid : ℕ) (supportsAutomaticRefund : Bool)
  | answer (pid : ℕ) (succeeded : Bool) (providerRefundReference failureCode : Option String)
  | complete (pid : ℕ) (now : Instant)
  | die (pid : ℕ)
  | completeRefund (refundId : Uuid) (status : RefundStatus)
      (providerRefundReference failureCode : Option String) (now : Instant)
  | applyVerification (prepared : PreparedVerification) (now : Instant)

namespace RefundSystem

def setCall (s : RefundSystem) (pid : ℕ) (call : RefundCall) : RefundSystem :=
  { s with calls := update s.calls pid call }

/-- The call moves on and its transaction ends. -/
def release (s : RefundSystem) (pid : ℕ) (intentId : Uuid) (call : RefundCall) : RefundSystem :=
  { s with
    calls := update s.calls pid call
    lockedBy := update s.lockedBy intentId none }

/-- The next read of a call. -/
def advance (s : RefundSystem) (pid : ℕ) : Option RefundSystem :=
  match s.calls pid with
  | .findExisting input amountToman =>
    match s.store.findRefund input.orderId input.requestKey with
    | some _ => some (s.setCall pid .returned)
    | none => some (s.setCall pid (.findIntent input amountToman))
  | .findIntent input amountToman =>
    match s.store.findSucceededIntent input.orderId with
    | none => some (s.setCall pid .threw)
    | some intent => some (s.setCall pid (.findAttempt input amountToman intent))
  | .findAttempt input amountToman intent =>
    some (s.setCall pid
      (.lockIntent ⟨input, amountToman, intent, s.store.refundAttempt input intent⟩))
  | .lockIntent work =>
    match s.lockedBy work.intent.id with
    | some _ => none
    | none =>
      some { s with
        calls := update s.calls pid (.reread work)
        lockedBy := update s.lockedBy work.intent.id (some pid) }
  | .reread work =>
    match s.store.findRefund work.input.orderId work.input.requestKey with
    | some _ => some (s.release pid work.intent.id .returned)
    | none => some (s.setCall pid (.assertWithinCaptured work))
  | .assertWithinCaptured work =>
    if s.store.withinCaptured work.intent work.attempt work.input.kind work.input.orderId
        work.amountToman then
      some (s.setCall pid (.insert work))
    else some (s.release pid work.intent.id .threw)
  | .settle input =>
    match s.store.findRefund input.orderId input.requestKey with
    | some _ => some (s.setCall pid .returned)
    | none => some (s.setCall pid .threw)
  | _ => none

/-- The insert of the refund row and the commit. -/
def insertStep (s : RefundSystem) (pid : ℕ) (refundId : Uuid) : Option RefundSystem :=
  match s.calls pid with
  | .insert work =>
    match s.store.insertRefund
        (pendingRefund work.input work.amountToman work.intent work.attempt refundId) with
    | .inserted store => some { s.release pid work.intent.id (.provider refundId) with store := store }
    | .uniqueViolation => some (s.release pid work.intent.id (.settle work.input))
    | .checkViolation => some (s.release pid work.intent.id .threw)
  | _ => none

/-- One step.  `refund` opens calls for the order `orderId`; a process can die, or
throw, between any two steps. -/
def step (orderId : Uuid) (s : RefundSystem) : RefundEvent → Option RefundSystem
  | .refund pid input =>
    if s.calls pid = .idle ∧ input.orderId = orderId then
      match assertNonNegativeAmount input.amountToman with
      | .error _ => some (s.setCall pid .threw)
      | .ok amountToman => some (s.setCall pid (.findExisting input amountToman))
    else none
  | .advance pid => s.advance pid
  | .insert pid refundId => s.insertStep pid refundId
  | .askProvider pid supportsAutomaticRefund =>
    match s.calls pid with
    | .provider refundId =>
      if supportsAutomaticRefund then
        some { s.setCall pid (.awaiting refundId) with asked := s.asked ++ [refundId] }
      else
        some (s.setCall pid
          (.complete refundId .manualRequired none (some "gateway_has_no_refund_api")))
    | _ => none
  | .answer pid succeeded providerRefundReference failureCode =>
    match s.calls pid with
    | .awaiting refundId =>
      some (s.setCall pid (.complete refundId (if succeeded then .succeeded else .failed)
        (fitToColumn providerRefundReference 128) (fitToColumn failureCode 60)))
    | _ => none
  | .complete pid now =>
    match s.calls pid with
    | .complete refundId status providerRefundReference failureCode =>
      some { s.setCall pid .returned with
        store := s.store.completeRefund refundId status providerRefundReference failureCode now }
    | _ => none
  | .die pid =>
    match s.calls pid with
    | .reread work | .assertWithinCaptured work | .insert work =>
      some (s.release pid work.intent.id .threw)
    | _ => some (s.setCall pid .threw)
  | .completeRefund refundId status providerRefundReference failureCode now =>
    some { s with
      store := s.store.completeRefund refundId status providerRefundReference failureCode now }
  | .applyVerification prepared now =>
    if 0 ≤ prepared.intent.amountToman then
      some { s with store := (s.store.applyVerification prepared now).2 }
    else none

end RefundSystem

/-! ## The invariant -/

/-- The intent may be refunded: it is the succeeded intent of the order. -/
def Payable (orderId : Uuid) (s : PaymentStore) (intent : PaymentIntentEntity) : Prop :=
  intent ∈ s.intents ∧ intent.orderId = orderId ∧ intent.status = .succeeded

/-- What a call has read is still true: succeeded rows are never written again. -/
structure WorkInv (orderId : Uuid) (s : PaymentStore) (work : RefundWork) : Prop where
  input : work.input.orderId = orderId
  intent : Payable orderId s work.intent
  attempt : ∀ a, work.attempt = some a → a.status = .succeeded → a ∈ s.attempts

/-- What a call knows of the rows it has read. -/
def CallInv (orderId : Uuid) (s : RefundSystem) (pid : ℕ) : RefundCall → Prop
  | .findExisting input _ => input.orderId = orderId
  | .findIntent input _ => input.orderId = orderId
  | .findAttempt input _ intent => input.orderId = orderId ∧ Payable orderId s.store intent
  | .lockIntent work => WorkInv orderId s.store work
  | .reread work => WorkInv orderId s.store work ∧ s.lockedBy work.intent.id = some pid
  | .assertWithinCaptured work =>
    WorkInv orderId s.store work ∧ s.lockedBy work.intent.id = some pid
  | .insert work =>
    WorkInv orderId s.store work ∧ s.lockedBy work.intent.id = some pid ∧
      work.amountToman + s.store.committedToman orderId work.attempt work.input.kind ≤
        capturedToman work.intent work.attempt work.input.kind
  | .provider refundId => (∃ r ∈ s.store.refunds, r.id = refundId) ∧ refundId ∉ s.asked
  | _ => True

/-- What the rows say of one another. -/
structure RefundRows (orderId : Uuid) (s : PaymentStore) : Prop where
  constraints : s.Constraints
  ofOrder : ∀ r ∈ s.refunds, r.orderId = orderId
  ofIntent : ∀ r ∈ s.refunds, ∃ i, Payable orderId s i ∧ i.id = r.paymentIntentId
  positive : ∀ r ∈ s.refunds, 0 < r.amountToman
  ids : (s.refunds.map (·.id)).Nodup
  keys : (s.refunds.map fun r => (r.orderId, r.requestKey)).Nodup
  orderCeiling : ∀ i, Payable orderId s i → s.committedToman orderId none .order ≤ i.amountToman
  duplicateCeiling : ∀ a ∈ s.attempts,
    s.committedToman orderId (some a) .duplicateCharge ≤ chargedToman a

/-- What holds after every step. -/
structure RefundInv (orderId : Uuid) (s : RefundSystem) : Prop where
  rows : RefundRows orderId s.store
  calls : ∀ pid, CallInv orderId s pid (s.calls pid)
  asked : s.asked.Nodup
  askedRows : ∀ id ∈ s.asked, ∃ r ∈ s.store.refunds, r.id = id
  oneProvider : ∀ p q id, s.calls p = .provider id → s.calls q = .provider id → p = q

/-! ## What a step may change under another call -/

/-- Everything another call `q` relies on is still there. -/
structure Frame (orderId : Uuid) (s s' : RefundSystem) (q : ℕ) : Prop where
  intents : ∀ i, Payable orderId s.store i → Payable orderId s'.store i
  attempts : ∀ a ∈ s.store.attempts, a.status = .succeeded → a ∈ s'.store.attempts
  locks : ∀ id, s.lockedBy id = some q → s'.lockedBy id = some q
  refunds : ∀ r ∈ s.store.refunds, ∃ r' ∈ s'.store.refunds, r'.id = r.id
  asked : ∀ id, s.calls q = .provider id → id ∈ s'.asked → id ∈ s.asked
  committed : ∀ work, s.calls q = .insert work →
    s'.store.committedToman orderId work.attempt work.input.kind ≤
      s.store.committedToman orderId work.attempt work.input.kind

variable {orderId refundId intentId : Uuid} {s s' : PaymentStore} {work : RefundWork} {q pid : ℕ}
  {call : RefundCall} {now : Instant} {prepared : PreparedVerification}
  {result : VerifyPaymentResult} {intent i : PaymentIntentEntity} {a : PaymentAttemptEntity}

theorem WorkInv.frame (h : WorkInv orderId s work)
    (hintents : ∀ i, Payable orderId s i → Payable orderId s' i)
    (hatts : ∀ a ∈ s.attempts, a.status = .succeeded → a ∈ s'.attempts) :
    WorkInv orderId s' work where
  input := h.input
  intent := hintents _ h.intent
  attempt := fun a ha hs => hatts a (h.attempt a ha hs) hs

theorem CallInv.frame {s s' : RefundSystem} (hcall : s.calls q = call)
    (h : CallInv orderId s q call) (hf : Frame orderId s s' q) : CallInv orderId s' q call := by
  cases call with
  | findAttempt => exact ⟨h.1, hf.intents _ h.2⟩
  | lockIntent => exact WorkInv.frame h hf.intents hf.attempts
  | reread | assertWithinCaptured => exact ⟨h.1.frame hf.intents hf.attempts, hf.locks _ h.2⟩
  | insert work =>
    obtain ⟨hwork, hlock, _⟩ := h
    have hle := hf.committed work hcall
    exact ⟨hwork.frame hf.intents hf.attempts, hf.locks _ hlock, by linarith⟩
  | provider refundId =>
    obtain ⟨⟨r, hr, hid⟩, hnew⟩ := h
    obtain ⟨r', hr', hid'⟩ := hf.refunds r hr
    exact ⟨⟨r', hr', hid'.trans hid⟩, fun hmem => hnew (hf.asked refundId hcall hmem)⟩
  | _ => exact h

theorem Frame.of_store_eq {s s' : RefundSystem} (hstore : s'.store = s.store)
    (hasked : s'.asked = s.asked)
    (hlocks : ∀ id, s.lockedBy id = some q → s'.lockedBy id = some q) : Frame orderId s s' q where
  intents := by rw [hstore]; exact fun _ h => h
  attempts := by rw [hstore]; exact fun _ h _ => h
  locks := hlocks
  refunds := by rw [hstore]; exact fun r hr => ⟨r, hr, rfl⟩
  asked := by rw [hasked]; exact fun _ _ h => h
  committed := by rw [hstore]; exact fun _ _ => le_refl _

/-! ## Steps of one call -/

theorem RefundInv.moved {s s' : RefundSystem} (h : RefundInv orderId s)
    (hcalls : s'.calls = update s.calls pid call) (hrows : RefundRows orderId s'.store)
    (hcall : CallInv orderId s' pid call) (hframe : ∀ q, q ≠ pid → Frame orderId s s' q)
    (hasked : s'.asked.Nodup) (haskedRows : ∀ id ∈ s'.asked, ∃ r ∈ s'.store.refunds, r.id = id)
    (hprov : ∀ id, call = .provider id → ∀ q, s.calls q ≠ .provider id) :
    RefundInv orderId s' where
  rows := hrows
  calls := by
    rw [hcalls]
    exact (Function.forall_update_iff s.calls (CallInv orderId s')).2
      ⟨hcall, fun q hq => CallInv.frame rfl (h.calls q) (hframe q hq)⟩
  asked := hasked
  askedRows := haskedRows
  oneProvider := by
    rw [hcalls]
    exact alone_update (R := fun call id => call = RefundCall.provider id) h.oneProvider
      fun id hid q _ => hprov id hid q

theorem RefundInv.setCall {s : RefundSystem} (h : RefundInv orderId s)
    (hcall : CallInv orderId s pid call) (hprov : ∀ id, call ≠ .provider id) :
    RefundInv orderId (s.setCall pid call) := by
  refine h.moved rfl h.rows ?_ ?_ h.asked h.askedRows ?_
  · cases call <;> exact hcall
  · intro q _
    exact Frame.of_store_eq rfl rfl fun _ hl => hl
  · intro id hid
    exact absurd hid (hprov id)

theorem RefundSystem.release_locks {s : RefundSystem} {id : Uuid}
    (hlock : s.lockedBy intentId = some pid) (hq : q ≠ pid) (hl : s.lockedBy id = some q) :
    update s.lockedBy intentId none id = some q := by
  have hne : id ≠ intentId := by
    intro heq
    rw [heq, hlock] at hl
    exact hq (some.inj hl).symm
  rw [update_of_ne hne, hl]

open RefundSystem

theorem RefundInv.release {s : RefundSystem} (h : RefundInv orderId s)
    (hlock : s.lockedBy intentId = some pid) (hcall : ∀ t, CallInv orderId t pid call)
    (hprov : ∀ id, call ≠ .provider id) : RefundInv orderId (s.release pid intentId call) := by
  refine h.moved rfl h.rows (hcall _) ?_ h.asked h.askedRows ?_
  · intro q hq
    exact Frame.of_store_eq rfl rfl fun _ hl => release_locks hlock hq hl
  · intro id hid
    exact absurd hid (hprov id)

theorem RefundInv.takeLock {s : RefundSystem} (h : RefundInv orderId s)
    (hwork : WorkInv orderId s.store work) (hfree : s.lockedBy work.intent.id = none) :
    RefundInv orderId { s with
      calls := update s.calls pid (.reread work)
      lockedBy := update s.lockedBy work.intent.id (some pid) } := by
  refine h.moved rfl h.rows ⟨hwork, by simp⟩ ?_ h.asked h.askedRows ?_
  · intro q _
    refine Frame.of_store_eq rfl rfl ?_
    intro id hl
    have hne : id ≠ work.intent.id := by
      intro heq
      rw [heq, hfree] at hl
      cases hl
    dsimp only
    rw [update_of_ne hne, hl]
  · intro id hid
    cases hid

/-! ## Reading -/

theorem payable_of_findSucceededIntent (h : s.findSucceededIntent orderId = some intent) :
    Payable orderId s intent := by
  have hmem := mem_of_find?_eq_some h
  have hp := find?_some h
  simp only [decide_eq_true_eq] at hp
  exact ⟨hmem, hp.1, hp.2⟩

theorem mem_of_refundAttempt {input : RequestRefundInput}
    (h : s.refundAttempt input intent = some a) : a ∈ s.attempts := by
  unfold refundAttempt at h
  split at h
  · exact mem_of_find?_eq_some h
  · exact (latestWhere_eq_some h).1

theorem committedToman_order (s : PaymentStore) (orderId : Uuid)
    (attempt : Option PaymentAttemptEntity) :
    s.committedToman orderId attempt .order = s.committedToman orderId none .order := by
  refine sumWhere_congr ?_
  intro r _
  simp [Counts]

theorem refundInv_advance {s s' : RefundSystem} (h : RefundInv orderId s)
    (hs : s.advance pid = some s') : RefundInv orderId s' := by
  have hcall := h.calls pid
  unfold advance at hs
  split at hs
  · rename_i input amountToman hpc
    rw [hpc] at hcall
    split at hs <;> cases hs
    · exact h.setCall trivial (by simp)
    · exact h.setCall hcall (by simp)
  · rename_i input amountToman hpc
    rw [hpc] at hcall
    split at hs <;> cases hs
    · exact h.setCall trivial (by simp)
    · rename_i intent hfind
      have hpay : Payable input.orderId s.store intent := payable_of_findSucceededIntent hfind
      rw [show input.orderId = orderId from hcall] at hpay
      exact h.setCall ⟨hcall, hpay⟩ (by simp)
  · rename_i input amountToman intent hpc
    rw [hpc] at hcall
    cases hs
    refine h.setCall ⟨hcall.1, hcall.2, ?_⟩ (by simp)
    intro a ha _
    exact mem_of_refundAttempt ha
  · rename_i work hpc
    rw [hpc] at hcall
    split at hs
    · cases hs
    rename_i hfree
    cases hs
    exact h.takeLock hcall hfree
  · rename_i work hpc
    rw [hpc] at hcall
    split at hs <;> cases hs
    · exact h.release hcall.2 (fun _ => trivial) (by simp)
    · exact h.setCall hcall (by simp)
  · rename_i work hpc
    rw [hpc] at hcall
    split at hs
    · rename_i hwithin
      cases hs
      refine h.setCall ⟨hcall.1, hcall.2, ?_⟩ (by simp)
      simp only [withinCaptured, decide_eq_true_eq, hcall.1.input] at hwithin
      linarith
    · cases hs
      exact h.release hcall.2 (fun _ => trivial) (by simp)
  · split at hs <;> cases hs
    · exact h.setCall trivial (by simp)
    · exact h.setCall trivial (by simp)
  · cases hs

/-! ## Reserving -/

theorem nodup_map_concat {α β : Type} {g : α → β} {xs : List α} {y : α} (h : (xs.map g).Nodup)
    (hnew : ∀ x ∈ xs, g x ≠ g y) : ((xs ++ [y]).map g).Nodup := by
  rw [map_append]
  refine List.Nodup.append h (by simp) ?_
  intro b hb hb'
  obtain ⟨x, hx, rfl⟩ := mem_map.1 hb
  simp only [map_cons, map_nil, mem_singleton] at hb'
  exact hnew x hx hb'

theorem committedToman_nonneg (orderId : Uuid) (hpos : ∀ r ∈ s.refunds, 0 < r.amountToman)
    (attempt : Option PaymentAttemptEntity) (kind : RefundKind) :
    0 ≤ s.committedToman orderId attempt kind :=
  sumWhere_nonneg fun r hr _ => (hpos r hr).le

section

variable (h : RefundRows orderId s) (hwork : WorkInv orderId s work)
  (hroom : work.amountToman + s.committedToman orderId work.attempt work.input.kind ≤
    capturedToman work.intent work.attempt work.input.kind)
include h hwork hroom

theorem RefundRows.duplicateCeiling_insert (hamt : 0 < work.amountToman) :
    ∀ a ∈ s.attempts, { s with
        refunds := s.refunds ++ [pendingRefund work.input work.amountToman work.intent work.attempt
          refundId] }.committedToman orderId (some a) .duplicateCharge ≤ chargedToman a := by
  intro a ha
  have hold := h.duplicateCeiling a ha
  simp only [committedToman, sumWhere_append, sumWhere_cons, sumWhere_nil, add_zero]
  split
  · rename_i hcounts
    have hkind : work.input.kind = .duplicateCharge := hcounts.2.1
    obtain ⟨_, ha', hid⟩ := hcounts.2.2.2 rfl
    rw [mem_some_iff] at ha'
    subst ha'
    simp only [pendingRefund, map_eq_some_iff] at hid
    obtain ⟨b, hb, hba⟩ := hid
    -- room for a positive amount means that the attempt the call read had succeeded
    have hroom' := hroom
    rw [hkind, hb] at hroom'
    have hnonneg := committedToman_nonneg orderId h.positive (some b)
      .duplicateCharge
    have hsucc : b.status = .succeeded := by
      by_contra hne
      simp only [capturedToman, chargedToman, if_neg hne] at hroom'
      linarith
    have hbmem := hwork.attempt b hb hsucc
    have hsame : b = a := h.constraints.attemptId b hbmem a ha hba
    subst hsame
    simp only [pendingRefund]
    simpa [committedToman, capturedToman, add_comm] using hroom'
  · simpa [committedToman] using hold

theorem RefundRows.insert
    (hs' : s.insertRefund (pendingRefund work.input work.amountToman work.intent work.attempt
      refundId) = .inserted s') : RefundRows orderId s' := by
  obtain ⟨hpos, hnew, rfl⟩ := insertRefund_eq_inserted.1 hs'
  have hamt : 0 < work.amountToman := hpos
  refine ⟨⟨h.constraints.intentId, h.constraints.liveIntent, h.constraints.intentAmount,
    h.constraints.attemptId, h.constraints.verified⟩, ?_, ?_, ?_, ?_, ?_, ?_, ?_⟩
  · intro r hr
    rcases mem_append.1 hr with hr | hr
    · exact h.ofOrder r hr
    · rw [mem_singleton.1 hr]
      exact hwork.input
  · intro r hr
    rcases mem_append.1 hr with hr | hr
    · exact h.ofIntent r hr
    · rw [mem_singleton.1 hr]
      exact ⟨work.intent, hwork.intent, rfl⟩
  · intro r hr
    rcases mem_append.1 hr with hr | hr
    · exact h.positive r hr
    · rw [mem_singleton.1 hr]
      exact hpos
  · exact nodup_map_concat h.ids fun r hr => (hnew r hr).1
  · exact nodup_map_concat h.keys fun r hr hkey => (hnew r hr).2 (Prod.mk.inj hkey)
  · intro i hi
    -- the order has one succeeded intent, so the room was measured against this one
    have hsame : i = work.intent := by
      refine h.constraints.liveIntent i hi.1 _ hwork.intent.1 ⟨?_, ?_, ?_⟩
      · rw [hi.2.1, hwork.intent.2.1]
      · simp [liveIntentStatuses, hi.2.2]
      · simp [liveIntentStatuses, hwork.intent.2.2]
    have hold := h.orderCeiling i hi
    simp only [committedToman, sumWhere_append, sumWhere_cons, sumWhere_nil, add_zero]
    split
    · rename_i hcounts
      have hkind : work.input.kind = .order := hcounts.2.1
      rw [hkind, committedToman_order] at hroom
      rw [hsame]
      simp only [capturedToman] at hroom
      simp only [committedToman] at hroom
      simp only [pendingRefund]
      linarith
    · simpa [committedToman] using hold
  · exact h.duplicateCeiling_insert hwork hroom hamt

end

theorem refundInv_insertStep {s s' : RefundSystem} (h : RefundInv orderId s)
    (hs : s.insertStep pid refundId = some s') : RefundInv orderId s' := by
  have hcall := h.calls pid
  unfold insertStep at hs
  split at hs
  · rename_i work hpc
    rw [hpc] at hcall
    obtain ⟨hwork, hlock, hroom⟩ := hcall
    split at hs
    · rename_i store hins
      cases hs
      have hrows : RefundRows orderId store := h.rows.insert hwork hroom hins
      obtain ⟨-, hnew, hstore⟩ := insertRefund_eq_inserted.1 hins
      have hmem : pendingRefund work.input work.amountToman work.intent work.attempt refundId ∈
          store.refunds := by
        rw [hstore]; simp
      have hold : ∀ r ∈ s.store.refunds, r ∈ store.refunds := by
        intro r hr
        rw [hstore]
        exact mem_append_left _ hr
      -- the id is new, so nobody was asked for it and no call is about to ask
      have hunasked : refundId ∉ s.asked := by
        intro hasked
        obtain ⟨r, hr, hid⟩ := h.askedRows refundId hasked
        exact (hnew r hr).1 hid
      refine h.moved rfl hrows ⟨⟨_, hmem, rfl⟩, hunasked⟩ ?_ h.asked ?_ ?_
      · intro q hq
        refine ⟨?_, ?_, ?_, ?_, fun _ _ h => h, ?_⟩
        · intro i hi
          rw [hstore]
          exact hi
        · intro a ha _
          rw [hstore]
          exact ha
        · intro id hl
          exact release_locks hlock hq hl
        · intro r hr
          exact ⟨r, hold r hr, rfl⟩
        · intro work' hpc'
          -- the other call would hold the lock of the same intent
          have hcall' := h.calls q
          rw [hpc'] at hcall'
          have hsame : work'.intent = work.intent := by
            refine h.rows.constraints.liveIntent _ hcall'.1.intent.1 _ hwork.intent.1 ⟨?_, ?_, ?_⟩
            · rw [hcall'.1.intent.2.1, hwork.intent.2.1]
            · simp [liveIntentStatuses, hcall'.1.intent.2.2]
            · simp [liveIntentStatuses, hwork.intent.2.2]
          have hlock' := hcall'.2.1
          rw [hsame, hlock] at hlock'
          exact absurd (some.inj hlock').symm hq
      · intro id hid
        obtain ⟨r, hr, hrid⟩ := h.askedRows id hid
        exact ⟨r, hold r hr, hrid⟩
      · intro id hid q hq
        have hq' := h.calls q
        rw [hq] at hq'
        obtain ⟨⟨r, hr, hrid⟩, -⟩ := hq'
        injection hid with hid
        exact (hnew r hr).1 (hrid.trans hid.symm)
    · cases hs
      exact h.release hlock (fun _ => trivial) (by simp)
    · cases hs
      exact h.release hlock (fun _ => trivial) (by simp)
  · cases hs

/-! ## Completing -/

theorem committedToman_completeRefund_le (orderId : Uuid) (s : PaymentStore)
    (attempt : Option PaymentAttemptEntity) (kind : RefundKind) (refundId : Uuid)
    (status : RefundStatus) (providerRefundReference failureCode : Option String) (now : Instant)
    (hpos : ∀ r ∈ s.refunds, 0 < r.amountToman) :
    (s.completeRefund refundId status providerRefundReference failureCode now).committedToman
      orderId attempt kind ≤ s.committedToman orderId attempt kind := by
  have hrefs :=
    completeRefund_refunds s refundId status providerRefundReference failureCode now
  rw [committedToman, hrefs]
  refine sumWhere_updateWhere_le ?_
  intro r hr hpend
  have hr0 := hpos r hr
  by_cases hcounts : Counts orderId attempt kind r
  · split
    · exact le_refl _
    · exact hr0.le
  · -- a pending row already counted, so one that does not count now did not count then
    have hstill : ¬Counts orderId attempt kind
        (completedRefund status providerRefundReference failureCode now r) := by
      rintro ⟨h1, h2, -, h4⟩
      exact hcounts ⟨h1, h2, by rw [hpend.2]; decide, h4⟩
    rw [if_neg hcounts, if_neg hstill]

theorem RefundRows.completeRefund (h : RefundRows orderId s) (refundId : Uuid)
    (status : RefundStatus) (providerRefundReference failureCode : Option String) (now : Instant) :
    RefundRows orderId
      (s.completeRefund refundId status providerRefundReference failureCode now) := by
  have hintents :=
    completeRefund_intents s refundId status providerRefundReference failureCode now
  have hatts :=
    completeRefund_attempts s refundId status providerRefundReference failureCode now
  have hrefs :=
    completeRefund_refunds s refundId status providerRefundReference failureCode now
  have hle := fun attempt kind => committedToman_completeRefund_le orderId s attempt kind refundId
    status providerRefundReference failureCode now h.positive
  refine ⟨?_, ?_, ?_, ?_, ?_, ?_, ?_, ?_⟩
  · refine ⟨?_, ?_, ?_, ?_, ?_⟩
    · rw [hintents]; exact h.constraints.intentId
    · rw [hintents]; exact h.constraints.liveIntent
    · rw [hintents]; exact h.constraints.intentAmount
    · rw [hatts]; exact h.constraints.attemptId
    · rw [hatts]; exact h.constraints.verified
  · rw [hrefs]
    exact forall_mem_updateWhere (fun r hr _ => h.ofOrder r hr) fun r hr _ => h.ofOrder r hr
  · simp only [Payable, hintents]
    rw [hrefs]
    exact forall_mem_updateWhere (fun r hr _ => h.ofIntent r hr) fun r hr _ => h.ofIntent r hr
  · rw [hrefs]
    exact forall_mem_updateWhere (fun r hr _ => h.positive r hr) fun r hr _ => h.positive r hr
  · rw [hrefs, map_updateWhere]
    · exact h.ids
    · intro r; rfl
  · rw [hrefs, map_updateWhere]
    · exact h.keys
    · intro r; rfl
  · intro i hi
    simp only [Payable, hintents] at hi
    exact (hle none .order).trans (h.orderCeiling i hi)
  · intro a ha
    rw [hatts] at ha
    exact (hle (some a) .duplicateCharge).trans (h.duplicateCeiling a ha)

theorem Frame.completeRefund {s s' : RefundSystem} {status : RefundStatus}
    {providerRefundReference failureCode : Option String} (hrows : RefundRows orderId s.store)
    (hlocked : s'.lockedBy = s.lockedBy) (hasked : s'.asked = s.asked) (hstore : s'.store =
      s.store.completeRefund refundId status providerRefundReference failureCode now) :
    Frame orderId s s' q := by
  have hintents :=
    completeRefund_intents s.store refundId status providerRefundReference failureCode now
  have hatts :=
    completeRefund_attempts s.store refundId status providerRefundReference failureCode now
  have hrefs :=
    completeRefund_refunds s.store refundId status providerRefundReference failureCode now
  refine ⟨?_, ?_, ?_, ?_, ?_, ?_⟩
  · intro i hi
    rw [Payable, hstore, hintents]
    exact hi
  · rw [hstore, hatts]
    exact fun _ ha _ => ha
  · rw [hlocked]
    exact fun _ hl => hl
  · intro r hr
    rw [hstore, hrefs]
    by_cases hp : r.id = refundId ∧ r.status = .pending
    · exact ⟨_, mem_updateWhere_of hr hp, rfl⟩
    · exact ⟨_, mem_updateWhere_of_not hr hp, rfl⟩
  · rw [hasked]
    exact fun _ _ h => h
  · intro work _
    rw [hstore]
    exact committedToman_completeRefund_le orderId s.store _ _ refundId status _ _ now
      hrows.positive

theorem askedRows_completeRefund {asked : List Uuid} (h : ∀ id ∈ asked, ∃ r ∈ s.refunds, r.id = id)
    (refundId : Uuid) (status : RefundStatus) (providerRefundReference failureCode : Option String)
    (now : Instant) :
    ∀ id ∈ asked, ∃ r ∈ (s.completeRefund refundId status providerRefundReference failureCode
      now).refunds, r.id = id := by
  have hrefs :=
    completeRefund_refunds s refundId status providerRefundReference failureCode now
  intro id hid
  obtain ⟨r, hr, hrid⟩ := h id hid
  rw [hrefs]
  by_cases hp : r.id = refundId ∧ r.status = .pending
  · exact ⟨_, mem_updateWhere_of hr hp, hrid⟩
  · exact ⟨_, mem_updateWhere_of_not hr hp, hrid⟩

/-! ## Verifications recorded beside the refunds -/

theorem Payable.recordVerification (h : Payable orderId s i) :
    Payable orderId (s.recordVerification prepared result now) i := by
  refine ⟨mem_updateWhere_of_not h.1 ?_, h.2⟩
  rintro ⟨-, hstat⟩
  simp [h.2.2] at hstat

theorem succeeded_recordVerification (ha : a ∈ s.attempts) (hs : a.status = .succeeded) :
    a ∈ (s.recordVerification prepared result now).attempts := by
  refine mem_updateWhere_of_not ha ?_
  rintro ⟨-, hstat⟩
  simp [hs] at hstat

/-- Recording an answer keeps what holds of the refunds: an order whose intent only
now succeeds has no refunds, and an attempt that only now succeeds has none either. -/
theorem RefundRows.recordVerification (h : RefundRows orderId s)
    (hamt : 0 ≤ prepared.intent.amountToman) :
    RefundRows orderId (s.recordVerification prepared result now) := by
  have hc := h.constraints.recordVerification result now hamt
  refine ⟨hc, h.ofOrder, ?_, h.positive, h.ids, h.keys, ?_, ?_⟩
  · intro r hr
    obtain ⟨i, hi, hid⟩ := h.ofIntent r hr
    exact ⟨i, hi.recordVerification, hid⟩
  · intro i hi
    show s.committedToman orderId none .order ≤ i.amountToman
    by_cases hempty : s.refunds = []
    · simp only [committedToman, hempty, sumWhere_nil]
      exact hc.intentAmount i hi.1
    · obtain ⟨r, hr⟩ := exists_mem_of_ne_nil _ hempty
      obtain ⟨j, hj, -⟩ := h.ofIntent r hr
      have hj' : Payable orderId (s.recordVerification prepared result now) j :=
        hj.recordVerification
      have hsame : i = j := by
        refine hc.liveIntent i hi.1 j hj'.1 ⟨?_, ?_, ?_⟩
        · rw [hi.2.1, hj'.2.1]
        · simp [liveIntentStatuses, hi.2.2]
        · simp [liveIntentStatuses, hj'.2.2]
      rw [hsame]
      exact h.orderCeiling j hj
  · intro a' ha'
    have hnonneg : 0 ≤ chargedToman a' := hc.chargedToman_nonneg ha'
    rcases written_or_left ha' with ⟨a, ha, hp, hset⟩ | ⟨ha, -⟩
    · have hold := h.duplicateCeiling a ha
      have hzero : chargedToman a = 0 := by simp [chargedToman, hp.2]
      have hcongr : s.committedToman orderId (some a') .duplicateCharge =
          s.committedToman orderId (some a) .duplicateCharge := by
        refine sumWhere_congr ?_
        intro r _
        simp [Counts, ← hset, verifiedAttempt]
      show s.committedToman orderId (some a') .duplicateCharge ≤ _
      linarith
    · exact h.duplicateCeiling a' ha

/-! ## The step and the run -/

section

variable {s s' : RefundSystem}

theorem refundInv_askProvider {supportsAutomaticRefund : Bool} (h : RefundInv orderId s)
    (hs : s.step orderId (.askProvider pid supportsAutomaticRefund) = some s') :
    RefundInv orderId s' := by
  have hcall := h.calls pid
  simp only [step] at hs
  split at hs
  · rename_i refundId hpc
    rw [hpc] at hcall
    obtain ⟨hrow, hnew⟩ := hcall
    split at hs <;> cases hs
    · refine h.moved rfl h.rows trivial ?_ ?_ ?_ (by simp)
      · intro q hq
        refine ⟨fun _ h => h, fun _ h _ => h, fun _ h => h, fun r hr => ⟨r, hr, rfl⟩, ?_,
          fun _ _ => le_refl _⟩
        intro id hid hmem
        rcases mem_append.1 hmem with hmem | hmem
        · exact hmem
        · -- two calls never hold the same refund
          rw [mem_singleton.1 hmem] at hid
          exact absurd (h.oneProvider q pid refundId hid hpc) hq
      · have hconcat : (s.asked ++ [refundId]).Nodup := by
          rw [← concat_eq_append]
          exact h.asked.concat hnew
        exact hconcat
      · intro id hid
        rcases mem_append.1 hid with hid | hid
        · exact h.askedRows id hid
        · rw [mem_singleton.1 hid]
          exact hrow
    · exact h.setCall trivial (by simp)
  · cases hs

theorem refundInv_die (h : RefundInv orderId s) (hs : s.step orderId (.die pid) = some s') :
    RefundInv orderId s' := by
  have hcall := h.calls pid
  simp only [step] at hs
  split at hs <;> cases hs
  · rename_i work hpc
    rw [hpc] at hcall
    exact h.release hcall.2 (fun _ => trivial) (by simp)
  · rename_i work hpc
    rw [hpc] at hcall
    exact h.release hcall.2 (fun _ => trivial) (by simp)
  · rename_i work hpc
    rw [hpc] at hcall
    exact h.release hcall.2.1 (fun _ => trivial) (by simp)
  · exact h.setCall trivial (by simp)

theorem refundInv_step {e : RefundEvent} (h : RefundInv orderId s)
    (hs : s.step orderId e = some s') : RefundInv orderId s' := by
  cases e with
  | refund =>
    simp only [step] at hs
    split at hs
    · rename_i hstart
      split at hs <;> cases hs
      · exact h.setCall trivial (by simp)
      · exact h.setCall hstart.2 (by simp)
    · cases hs
  | advance => exact refundInv_advance h hs
  | insert => exact refundInv_insertStep h hs
  | askProvider => exact refundInv_askProvider h hs
  | answer =>
    simp only [step] at hs
    split at hs
    · cases hs
      exact h.setCall trivial (by simp)
    · cases hs
  | complete =>
    simp only [step] at hs
    split at hs
    · rename_i refundId status providerRefundReference failureCode hpc
      cases hs
      refine h.moved rfl (h.rows.completeRefund ..) trivial ?_ h.asked
        (askedRows_completeRefund h.askedRows _ _ _ _ _) (by simp)
      intro q _
      exact Frame.completeRefund h.rows rfl rfl rfl
    · cases hs
  | die => exact refundInv_die h hs
  | completeRefund =>
    cases hs
    refine ⟨h.rows.completeRefund .., ?_, h.asked,
      askedRows_completeRefund h.askedRows _ _ _ _ _, h.oneProvider⟩
    intro q
    exact CallInv.frame (s := s) rfl (h.calls q) (Frame.completeRefund h.rows rfl rfl rfl)
  | applyVerification prepared now =>
    simp only [step] at hs
    split at hs
    · rename_i hamt
      cases hs
      rcases applyVerification_cases s.store prepared now with ⟨heq, -⟩ | hrec
      · simpa only [heq] using h
      · obtain ⟨_, -, -, -, -, -, heq⟩ := hrec
        rw [heq]
        refine ⟨h.rows.recordVerification hamt, ?_, h.asked, h.askedRows, h.oneProvider⟩
        intro q
        refine CallInv.frame (s := s) rfl (h.calls q) ⟨fun _ hi => hi.recordVerification,
          fun _ ha hsucc => succeeded_recordVerification ha hsucc, fun _ hl => hl,
          fun r hr => ⟨r, hr, rfl⟩, fun _ _ hmem => hmem, fun _ _ => le_refl _⟩
    · cases hs

/-- The tables before the first refund, and nobody at work. -/
structure RefundSystem.Fresh (s : RefundSystem) : Prop where
  constraints : s.store.Constraints
  refunds : s.store.refunds = []
  calls : ∀ pid, s.calls pid = .idle
  asked : s.asked = []

theorem RefundSystem.Fresh.refundInv (h : s.Fresh) : RefundInv orderId s := by
  have hzero : ∀ attempt kind, s.store.committedToman orderId attempt kind = 0 := by
    intro attempt kind
    simp [committedToman, h.refunds]
  refine ⟨⟨h.constraints, ?_, ?_, ?_, ?_, ?_, ?_, ?_⟩, ?_, ?_, ?_, ?_⟩
  · simp [h.refunds]
  · simp [h.refunds]
  · simp [h.refunds]
  · simp [h.refunds]
  · simp [h.refunds]
  · intro i hi
    rw [hzero]
    exact h.constraints.intentAmount i hi.1
  · intro a ha
    rw [hzero]
    exact h.constraints.chargedToman_nonneg ha
  · intro pid
    rw [h.calls]
    trivial
  · simp [h.asked]
  · simp [h.asked]
  · intro p q id hp
    rw [h.calls] at hp
    cases hp

end

/-- The non-failed `order` refunds of an intent. -/
def orderRefunds (s : PaymentStore) (intentId : Uuid) : ℤ :=
  sumWhere (fun r => r.paymentIntentId = intentId ∧ r.kind = .order ∧ r.status ≠ .failed)
    (·.amountToman) s.refunds

/-- The non-failed duplicate-charge refunds of an attempt. -/
def duplicateRefunds (s : PaymentStore) (attemptId : Uuid) : ℤ :=
  sumWhere (fun r => r.paymentAttemptId = some attemptId ∧ r.kind = .duplicateCharge ∧
    r.status ≠ .failed) (·.amountToman) s.refunds

theorem RefundRows.orderRefunds_le (h : RefundRows orderId s) (hi : i ∈ s.intents) :
    orderRefunds s i.id ≤ i.amountToman := by
  by_cases hpay : Payable orderId s i
  · refine le_trans (le_of_eq ?_) (h.orderCeiling i hpay)
    refine sumWhere_congr ?_
    intro r hr
    obtain ⟨j, hj, hid⟩ := h.ofIntent r hr
    have hsame : j = i := by
      refine h.constraints.liveIntent j hj.1 i hi ⟨?_, ?_, ?_⟩
      · rw [hj.2.1, hpay.2.1]
      · simp [liveIntentStatuses, hj.2.2]
      · simp [liveIntentStatuses, hpay.2.2]
    have hord := h.ofOrder r hr
    have hintent : r.paymentIntentId = i.id := by rw [← hid, hsame]
    simp [Counts, hord, hintent]
  · have hzero : orderRefunds s i.id = 0 := by
      refine sumWhere_eq_zero ?_
      rintro r hr ⟨hintent, -, -⟩
      obtain ⟨j, hj, hid⟩ := h.ofIntent r hr
      have hsame : j = i := h.constraints.intentId j hj.1 i hi (hid.trans hintent)
      exact hpay (hsame ▸ hj)
    rw [hzero]
    exact h.constraints.intentAmount i hi

theorem RefundRows.duplicateRefunds_eq (h : RefundRows orderId s) (a : PaymentAttemptEntity) :
    duplicateRefunds s a.id = s.committedToman orderId (some a) .duplicateCharge := by
  refine sumWhere_congr ?_
  intro r hr
  have hord := h.ofOrder r hr
  simp only [Counts, hord, mem_some_iff]
  constructor
  · rintro ⟨h1, h2, h3⟩
    exact ⟨trivial, h2, h3, fun _ => ⟨a, rfl, h1⟩⟩
  · rintro ⟨-, h2, h3, h4⟩
    obtain ⟨_, rfl, hb⟩ := h4 trivial
    exact ⟨hb, h2, h3⟩

/-- **The refund ceiling.**  In every state that any interleaving of refunds of an
order, completions and verifications reaches: the order refunds of an intent stay
within its amount, the duplicate-charge refunds of an attempt within its verified
amount (and an attempt that did not succeed has none), no request key has two
rows, and no refund row was sent to the gateway twice. -/
theorem refund_ceiling {orderId : Uuid} {s t : RefundSystem} {es : List RefundEvent}
    (hnew : s.Fresh) (hrun : runFrom (RefundSystem.step orderId) s es = some t) :
    (∀ i ∈ t.store.intents, orderRefunds t.store i.id ≤ i.amountToman) ∧
      (∀ a ∈ t.store.attempts,
        (∀ v, a.status = .succeeded → a.verifiedAmountToman = some v →
          duplicateRefunds t.store a.id ≤ v) ∧
        (a.status ≠ .succeeded → duplicateRefunds t.store a.id = 0)) ∧
      (t.store.refunds.map fun r => (r.orderId, r.requestKey)).Nodup ∧
      t.asked.Nodup ∧ ∀ id ∈ t.asked, ∃ r ∈ t.store.refunds, r.id = id := by
  have hinv : RefundInv orderId t :=
    runFrom_invariant (fun _ _ _ h hs => refundInv_step h hs) hnew.refundInv hrun
  refine ⟨fun i hi => hinv.rows.orderRefunds_le hi, ?_, hinv.rows.keys, hinv.asked,
    hinv.askedRows⟩
  intro a ha
  rw [hinv.rows.duplicateRefunds_eq]
  have hceil := hinv.rows.duplicateCeiling a ha
  have hnonneg := committedToman_nonneg orderId hinv.rows.positive (some a)
    .duplicateCharge
  constructor
  · intro v hs hv
    simpa [chargedToman, hs, hv] using hceil
  · intro hs
    simp only [chargedToman, if_neg hs] at hceil
    exact le_antisymm hceil hnonneg

/-- A paid intent of 100 Toman. -/
def paidIntent : PaymentIntentEntity where
  id := 10
  orderId := 1
  customerId := 2
  amountToman := 100
  currency := "IRT"
  status := .succeeded
  providerKey := "sandbox"
  expiresAt := 1000
  succeededAt := some 5
  failureCode := none

/-- The attempt that paid it. -/
def paidAttempt : PaymentAttemptEntity where
  id := 20
  paymentIntentId := 10
  providerKey := "sandbox"
  providerReference := "ref"
  status := .succeeded
  requestedAmountToman := 100
  verifiedAmountToman := some 100
  redirectUrl := none
  providerTransactionId := none
  failureCode := none
  verifiedAt := some 5

/-- A request to give 60 Toman of it back. -/
def refundOfSixty (requestKey : RequestKey) : RequestRefundInput where
  orderId := 1
  amountToman := .ofInt 60
  reason := "cancelled"
  requestKey := requestKey
  actorType := .system
  actorId := none
  kind := .order
  paymentAttemptId := none

/-- Nobody has asked for a refund of the paid intent yet. -/
def paidSystem : RefundSystem where
  store := ⟨[paidIntent], [paidAttempt], [], []⟩
  lockedBy := fun _ => none
  calls := fun _ => .idle
  asked := []

/-- Two refunds of 60 Toman: the second waits for the lock and is refused. -/
def twoRefunds : List RefundEvent :=
  [.refund 0 (refundOfSixty (.bookingCancelled 3)), .refund 1 (refundOfSixty (.other "again")),
    .advance 0, .advance 1, .advance 0, .advance 1, .advance 0, .advance 1,
    .advance 0, .advance 0, .advance 0, .insert 0 30, .advance 1, .advance 1, .advance 1,
    .askProvider 0 true, .answer 0 true none none, .complete 0 7]

theorem paidSystem_fresh : paidSystem.Fresh where
  constraints := by
    refine ⟨?_, ?_, ?_, ?_, ?_⟩ <;> simp [paidSystem, paidIntent, paidAttempt]
  refunds := rfl
  calls := fun _ => rfl
  asked := rfl

theorem refund_ceiling_twoRefunds :
    ∃ t, runFrom (RefundSystem.step 1) paidSystem twoRefunds = some t ∧
      t.calls 1 = .threw ∧ ∀ i ∈ t.store.intents, orderRefunds t.store i.id ≤ i.amountToman := by
  obtain ⟨t, hrun, hthrew⟩ : ∃ t, runFrom (RefundSystem.step 1) paidSystem twoRefunds = some t ∧
      t.calls 1 = .threw := ⟨_, rfl, rfl⟩
  have hceil := refund_ceiling paidSystem_fresh hrun
  exact ⟨t, hrun, hthrew, hceil.1⟩

end BeauClick.Payment
