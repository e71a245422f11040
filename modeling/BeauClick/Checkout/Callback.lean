import BeauClick.Outcome.Decision
import BeauClick.Payment.Verification

/-!
# Callbacks from the gateway

`CheckoutService.handleCallback` (`apps/api/src/checkout/checkout.service.ts`) for the
attempts of one order.  A callback asks the gateway, records the answer in one transaction
over payment, commerce and booking, and asks for the refund that transaction decided on
afterwards.  Any number of callbacks run at once, and each can die between two of its steps.
-/

namespace BeauClick.Checkout

open Money Table Runs Commerce Payment Booking PaymentStore List Option
open Function (update update_self update_of_ne)

/-! ## Callbacks -/

/-- The next statement of a callback. -/
inductive Callback where
  | idle
  /-- `prepareVerification`: reads the attempt, then its intent. -/
  | loadAttempt (providerKey providerReference : String)
  | loadAttemptIntent (attempt : PaymentAttemptEntity)
  | verifyProvider (attempt : PaymentAttemptEntity) (intent : PaymentIntentEntity)
  | record (prepared : PreparedVerification)
  /-- The recording has committed; the refund it decided on is not asked for yet. -/
  | owing (attemptId : Uuid) (input : RequestRefundInput)
  | refundProvider (attemptId refundId : Uuid)
  | returned (attemptId : Uuid)
  | threw
  deriving DecidableEq

/-- The attempt a callback is at work on. -/
def Callback.attemptId : Callback → Option Uuid
  | .loadAttemptIntent attempt | .verifyProvider attempt _ => some attempt.id
  | .record prepared => some prepared.attempt.id
  | .owing attemptId _ | .refundProvider attemptId _ => some attemptId
  | .idle | .loadAttempt .. | .returned _ | .threw => none

/-- The callback has committed a recording and still owes the refund. -/
def Callback.owes : Callback → Bool
  | .owing _ _ => true
  | _ => false

/-- The three schemas as far as they are about the order, and the callbacks at work. -/
structure CheckoutSystem where
  payment : PaymentStore
  order : OrderStore
  booking : BookingStore
  callbacks : ℕ → Callback
  /-- The attempt whose verification the order's capture was recorded for. -/
  capturedBy : Option Uuid

/-- One step, with what the system does not choose itself: the clock, new ids, the answers
of the gateway and of the entitlement hook. -/
inductive CheckoutStep where
  | createIntent (intent : PaymentIntentEntity)
  | expireIntent (intentId : Uuid)
  | insertAttempt (intentId attemptId : Uuid) (providerReference redirectUrl : String)
  | cancelOrder (reason : String) (now : Instant)
  | cancelBooking (actor : BookingActorType) (now : Instant)
  | expireHold (now : Instant)
  | callback (pid : ℕ) (providerKey providerReference : String)
  | advance (pid : ℕ) (now : Instant)
  | verified (pid : ℕ) (result : VerifyPaymentResult)
  | record (pid : ℕ) (permitted : Bool) (now : Instant)
  | requestRefund (pid : ℕ) (refundId : Uuid)
  | refunded (pid : ℕ) (answer : RefundAnswer) (now : Instant)
  | die (pid : ℕ)

/-! ## The two compensations -/

/-- The refund of a second charge, keyed by its attempt. -/
def duplicateChargeRefund (outcome : VerificationOutcome) : RequestRefundInput where
  orderId := outcome.orderId
  amountToman := .ofInt outcome.amountToman
  reason := "پرداخت تکراری برای همین سفارش — بازگشت خودکار وجه."
  requestKey := .duplicateCharge outcome.attemptId
  actorType := .system
  actorId := none
  kind := .duplicateCharge
  paymentAttemptId := some outcome.attemptId

/-- The refund of a capture whose booking could not be confirmed: under the cancellation's
key when it was cancelled, under the order's key otherwise. -/
def bookingUnavailableRefund (outcome : VerificationOutcome) (cancelledBookingId : Option Uuid) :
    RequestRefundInput where
  orderId := outcome.orderId
  amountToman := .ofInt outcome.amountToman
  reason :=
    match cancelledBookingId with
    | some _ => Outcome.bookingCancellationRefundReason
    | none => "زمان رزرو پیش از تکمیل پرداخت منقضی شد — بازگشت خودکار وجه."
  requestKey :=
    match cancelledBookingId with
    | some bookingId => .bookingCancelled bookingId
    | none => .bookingUnconfirmable outcome.orderId
  actorType := .system
  actorId := none
  kind := .order
  paymentAttemptId := none

/-- What the recording transaction ends in. -/
inductive Recorded where
  | rolledBack
  | committed (s : CheckoutSystem) (owed : Option RequestRefundInput)

namespace CheckoutSystem

def setCallback (s : CheckoutSystem) (pid : ℕ) (callback : Callback) : CheckoutSystem :=
  { s with callbacks := update s.callbacks pid callback }

/-- The booking's id, when it is cancelled. -/
def cancelledBookingId (s : CheckoutSystem) : Option Uuid :=
  match s.booking.booking with
  | some b => if b.status = .cancelled then some b.id else none
  | none => none

/-- What the transaction does after a capture: the booking is confirmed, or the captured
amount is owed back. -/
def confirmBooking (s : CheckoutSystem) (outcome : VerificationOutcome) (permitted : Bool)
    (now : Instant) : CheckoutSystem × Option RequestRefundInput :=
  match s.order.order with
  | none => (s, none)
  | some o =>
    if o.sourceType ≠ .booking then (s, none)
    else if !permitted then (s, some (bookingUnavailableRefund outcome none))
    else
      let confirmed := s.booking.confirm .system now
      if confirmed.1 then ({ s with booking := confirmed.2 }, none)
      else (s, some (bookingUnavailableRefund outcome s.cancelledBookingId))

/-- The recording transaction of `handleCallback`. -/
def record (s : CheckoutSystem) (prepared : PreparedVerification) (permitted : Bool)
    (now : Instant) : Recorded :=
  let verified := s.payment.applyVerification prepared now
  let outcome := verified.1
  if outcome.status ≠ .succeeded then .committed { s with payment := verified.2 } none
  else
    match s.order.recordVerifiedCapture (.ofInt outcome.amountToman) now with
    | .error _ => .rolledBack
    | .ok (.refused _, _) => .rolledBack
    | .ok (.already _ _, order) =>
      .committed { s with
        payment := verified.2
        order := order } (some (duplicateChargeRefund outcome))
    | .ok (.captured _ _, order) =>
      let captured := { s with
        payment := verified.2
        order := order
        capturedBy := some outcome.attemptId }
      let confirmed := captured.confirmBooking outcome permitted now
      .committed confirmed.1 confirmed.2

/-- What `prepareVerification` does with the rows it read. -/
def afterLoadAttempt (attempt : PaymentAttemptEntity) (intent : PaymentIntentEntity)
    (now : Instant) : Callback :=
  if attempt.status ≠ .initiated then .record ⟨attempt, intent, none, true⟩
  else if intent.expiresAt ≤ now ∧ intent.status ≠ .succeeded then
    .record ⟨attempt, intent, some intentExpired, false⟩
  else .verifyProvider attempt intent

/-- The reads of a callback. -/
def advance (s : CheckoutSystem) (pid : ℕ) (now : Instant) : Option CheckoutSystem :=
  match s.callbacks pid with
  | .loadAttempt providerKey providerReference =>
    match s.payment.attempts.find? fun a =>
        a.providerKey = providerKey ∧ a.providerReference = providerReference with
    | none => some (s.setCallback pid .threw)
    | some attempt => some (s.setCallback pid (.loadAttemptIntent attempt))
  | .loadAttemptIntent attempt =>
    match s.payment.findIntent attempt.paymentIntentId with
    | none => some (s.setCallback pid .threw)
    | some intent => some (s.setCallback pid (afterLoadAttempt attempt intent now))
  | _ => none

/-- The recording of a callback, and where it goes on. -/
def recordStep (s : CheckoutSystem) (pid : ℕ) (permitted : Bool) (now : Instant) :
    Option CheckoutSystem :=
  match s.callbacks pid with
  | .record prepared =>
    match s.record prepared permitted now with
    | .rolledBack => some (s.setCallback pid .threw)
    | .committed s' none => some (s'.setCallback pid (.returned prepared.attempt.id))
    | .committed s' (some input) => some (s'.setCallback pid (.owing prepared.attempt.id input))
  | _ => none

/-- The refund a callback asks for. -/
def requestStep (s : CheckoutSystem) (pid : ℕ) (refundId : Uuid) : Option CheckoutSystem :=
  match s.callbacks pid with
  | .owing attemptId input =>
    if ∃ r ∈ s.payment.refunds, r.id = refundId then none
    else
      match s.payment.requestRefund input refundId with
      | .existing _ => some (s.setCallback pid (.returned attemptId))
      | .inserted payment r =>
        some { s with
          payment := payment
          callbacks := update s.callbacks pid (.refundProvider attemptId r.id) }
      | .threw => some (s.setCallback pid .threw)
  | _ => none

/-- The gateway is asked for what the order's schedule collects: `checkout` opens an intent
for that amount, and none when it is zero. -/
def Charges (s : CheckoutSystem) (intent : PaymentIntentEntity) : Prop :=
  intent.amountToman ≠ 0 ∧ s.order.order.map (·.id) = some intent.orderId ∧
    s.order.schedule.map (·.platformCollectibleToman) = some intent.amountToman
  deriving Decidable

/-- One step.  Beside the callbacks, payments of the order are opened and lapse, the order is
cancelled, and the booking, while it is not confirmed, is cancelled or its hold lapses. -/
def step (s : CheckoutSystem) : CheckoutStep → Option CheckoutSystem
  | .createIntent intent =>
    if intent.status = .created ∧ s.Charges intent then
      match s.payment.insertIntent intent with
      | none => none
      | some payment => some { s with payment := payment }
    else none
  | .expireIntent intentId => some { s with payment := s.payment.expireIntent intentId }
  | .insertAttempt intentId attemptId providerReference redirectUrl =>
    match s.payment.findIntent intentId with
    | none => none
    | some intent =>
      match s.payment.insertAttempt intent
          (initiatedAttempt intent attemptId providerReference redirectUrl) with
      | none => none
      | some payment => some { s with payment := payment }
  | .cancelOrder reason now => some { s with order := (s.order.cancel reason now).2 }
  | .cancelBooking actor now =>
    if s.booking.status = some .pending then
      some { s with booking := (s.booking.cancel actor now).2 }
    else none
  | .expireHold now => some { s with booking := (s.booking.expire now).2 }
  | .callback pid providerKey providerReference =>
    if s.callbacks pid = .idle then
      some (s.setCallback pid (.loadAttempt providerKey providerReference))
    else none
  | .advance pid now => s.advance pid now
  | .verified pid result =>
    match s.callbacks pid with
    | .verifyProvider attempt intent =>
      some (s.setCallback pid (.record ⟨attempt, intent, some result, false⟩))
    | _ => none
  | .record pid permitted now => s.recordStep pid permitted now
  | .requestRefund pid refundId => s.requestStep pid refundId
  | .refunded pid answer now =>
    match s.callbacks pid with
    | .refundProvider attemptId refundId =>
      some { s with
        payment := s.payment.recordAnswer refundId answer now
        callbacks := update s.callbacks pid (.returned attemptId) }
    | _ => none
  | .die pid => some (s.setCallback pid .threw)

/-! ## The property and the condition -/

/-- The attempt is the capture recorded on the order, with the booking confirmed. -/
def Applied (s : CheckoutSystem) (a : PaymentAttemptEntity) : Prop :=
  s.capturedBy = some a.id ∧ ∃ o, s.order.order = some o ∧
    a.verifiedAmountToman = some o.collectedTotalToman ∧
    (o.sourceType = .booking → s.booking.status = some .confirmed)

/-- The refund is of the attempt: it gives a second charge back and names it, or it gives the
order's capture back and the attempt is the one that was captured. -/
def RefundOf (s : CheckoutSystem) (attemptId : Uuid) (r : RefundEntity) : Prop :=
  match r.kind with
  | .order => s.capturedBy = some attemptId
  | .duplicateCharge => r.paymentAttemptId = some attemptId

/-- The attempt has a refund that has not failed, of its verified amount. -/
def GivenBack (s : CheckoutSystem) (a : PaymentAttemptEntity) : Prop :=
  ∃ r ∈ s.payment.refunds, s.RefundOf a.id r ∧ r.status ≠ .failed ∧
    a.verifiedAmountToman = some r.amountToman

/-- A callback has run to its end for the attempt, and none is at work on it. -/
def Final (s : CheckoutSystem) (attemptId : Uuid) : Prop :=
  (∃ pid, s.callbacks pid = .returned attemptId) ∧
    ∀ pid, (s.callbacks pid).attemptId ≠ some attemptId

/-- Once a final callback has returned, a succeeded attempt is applied or given back. -/
def Settled (s : CheckoutSystem) : Prop :=
  ∀ a ∈ s.payment.attempts, a.status = .succeeded → s.Final a.id → s.Applied a ∨ s.GivenBack a

/-- The order the callback owes a refund for, if it owes one, has a succeeded intent. -/
def CanAsk (s : CheckoutSystem) : Callback → Prop
  | .owing _ input => (s.payment.findSucceededIntent input.orderId).isSome = true
  | _ => True

instance (s : CheckoutSystem) : DecidablePred s.CanAsk := fun callback =>
  match callback with
  | .owing _ _ => inferInstanceAs (Decidable (_ = true))
  | .idle | .loadAttempt .. | .loadAttemptIntent _ | .verifyProvider .. | .record _
  | .refundProvider .. | .returned _ | .threw => inferInstanceAs (Decidable True)

/-- **The condition.**  No callback dies between the recording and the refund it owes; a refund
is asked for an order that has a succeeded intent; the gateway refuses none. -/
def NothingLost (s : CheckoutSystem) : CheckoutStep → Prop
  | .die pid => (s.callbacks pid).owes = false
  | .requestRefund pid _ => s.CanAsk (s.callbacks pid)
  | .refunded _ answer _ => answer.status ≠ .failed
  | _ => True

instance (s : CheckoutSystem) : DecidablePred s.NothingLost := fun e =>
  match e with
  | .die _ => inferInstanceAs (Decidable (_ = _))
  | .requestRefund pid _ => inferInstanceAs (Decidable (s.CanAsk (s.callbacks pid)))
  | .refunded .. => inferInstanceAs (Decidable (_ ≠ _))
  | .createIntent _ | .expireIntent _ | .insertAttempt .. | .cancelOrder .. | .cancelBooking ..
  | .expireHold _ | .callback .. | .advance .. | .verified .. | .record .. =>
    inferInstanceAs (Decidable True)

/-- Nothing has been paid, and no callback has arrived. -/
structure Start (s : CheckoutSystem) : Prop where
  intents : s.payment.intents = []
  attempts : s.payment.attempts = []
  refunds : s.payment.refunds = []
  capturedBy : s.capturedBy = none
  callbacks : ∀ pid, s.callbacks pid = .idle

/-! ## The invariant -/

/-- The attempt has succeeded. -/
def Succeeded (s : CheckoutSystem) (attemptId : Uuid) : Prop :=
  ∃ a ∈ s.payment.attempts, a.id = attemptId ∧ a.status = .succeeded

/-- The intent is for what the schedule collects, and the amount is one. -/
def Charged (s : CheckoutSystem) (intent : PaymentIntentEntity) : Prop :=
  s.Charges intent ∧ 0 ≤ intent.amountToman

/-- A callback holds intents of the order only. -/
def CallbackInv (s : CheckoutSystem) : Callback → Prop
  | .verifyProvider _ intent => s.Charged intent
  | .record prepared => s.Charged prepared.intent
  | _ => True

/-- A refund is of a succeeded attempt, and its key says which. -/
structure RefundRow (s : CheckoutSystem) (r : RefundEntity) : Prop where
  keyed : match r.requestKey with
    | .duplicateCharge attemptId =>
      r.kind = .duplicateCharge ∧ r.paymentAttemptId = some attemptId
    | _ => r.kind = .order
  about : ∃ attemptId, s.RefundOf attemptId r ∧ s.Succeeded attemptId

/-- What a callback owes: the verified amount of its attempt, not asked for yet. -/
structure Owes (s : CheckoutSystem) (attemptId : Uuid) (input : RequestRefundInput) : Prop where
  amount : ∃ n, assertNonNegativeAmount input.amountToman = .ok n ∧ 0 < n ∧
    s.order.schedule.map (·.platformCollectibleToman) = some n ∧
    ∃ a ∈ s.payment.attempts, a.id = attemptId ∧ a.status = .succeeded ∧
      a.verifiedAmountToman = some n
  keyed : match input.kind with
    | .order => s.capturedBy = some attemptId ∧ ∀ other, input.requestKey ≠ .duplicateCharge other
    | .duplicateCharge =>
      input.requestKey = .duplicateCharge attemptId ∧ input.paymentAttemptId = some attemptId
  unasked : ∀ r ∈ s.payment.refunds, ¬s.RefundOf attemptId r

/-- A callback owes the attempt's refund. -/
def Owed (s : CheckoutSystem) (attemptId : Uuid) : Prop :=
  ∃ pid input, s.callbacks pid = .owing attemptId input

/-- The invariant: a succeeded attempt is applied, given back or owed, and owed once. -/
structure Inv (s : CheckoutSystem) : Prop where
  attemptId : ∀ a ∈ s.payment.attempts, ∀ b ∈ s.payment.attempts, a.id = b.id → a = b
  intents : ∀ i ∈ s.payment.intents, s.Charged i
  callbacks : ∀ pid, s.CallbackInv (s.callbacks pid)
  refunds : ∀ r ∈ s.payment.refunds, s.RefundRow r
  captured : ∀ attemptId, s.capturedBy = some attemptId →
    ∃ o, s.order.order = some o ∧ o.collectedTotalToman ≠ 0
  owes : ∀ pid attemptId input, s.callbacks pid = .owing attemptId input → s.Owes attemptId input
  once : ∀ p q attemptId i j, s.callbacks p = .owing attemptId i →
    s.callbacks q = .owing attemptId j → p = q
  settled : ∀ a ∈ s.payment.attempts, a.status = .succeeded →
    s.Applied a ∨ s.GivenBack a ∨ s.Owed a.id

variable {s s' t : CheckoutSystem} {pid : ℕ} {attemptId : Uuid} {input : RequestRefundInput}
  {intent : PaymentIntentEntity} {n : ℤ} {next : Callback}

theorem RefundOf.unique {r : RefundEntity} {x y : Uuid} (hx : s.RefundOf x r)
    (hy : s.RefundOf y r) : x = y := by
  unfold RefundOf at hx hy
  cases hkind : r.kind <;> rw [hkind] at hx hy <;>
    exact some_injective _ (hx.symm.trans hy)

theorem Owes.succeeded (h : s.Owes attemptId input) : s.Succeeded attemptId := by
  obtain ⟨_, -, -, -, a, ha, hid, hstat, -⟩ := h.amount
  exact ⟨a, ha, hid, hstat⟩

theorem Owes.setCallback (h : s.Owes attemptId input) :
    (s.setCallback pid next).Owes attemptId input :=
  ⟨h.amount, h.keyed, h.unasked⟩

theorem Inv.findRefund_eq_none (h : Inv s) (howes : s.Owes attemptId input) :
    s.payment.findRefund input.orderId input.requestKey = none := by
  rw [PaymentStore.findRefund_eq_none]
  intro r hr _ hkey
  refine howes.unasked r hr ?_
  have hrow := (h.refunds r hr).keyed
  have howed := howes.keyed
  unfold RefundOf
  cases hkind : input.kind with
  | order =>
    rw [hkind] at howed
    have hord : r.kind = .order := by
      rw [hkey] at hrow
      cases hreq : input.requestKey with
      | duplicateCharge other => exact absurd hreq (howed.2 other)
      | _ => rw [hreq] at hrow; exact hrow
    rw [hord]
    exact howed.1
  | duplicateCharge =>
    rw [hkind] at howed
    rw [hkey, howed.1] at hrow
    obtain ⟨hdup, hatt⟩ := hrow
    rw [hdup]
    exact hatt

theorem Inv.settled_of (h : Inv s) : s.Settled := by
  intro a ha hstat hfinal
  rcases h.settled a ha hstat with happlied | hback | ⟨pid, _, howing⟩
  · exact Or.inl happlied
  · exact Or.inr hback
  · exact absurd (by rw [howing]; rfl) (hfinal.2 pid)

/-! ## Steps that record no capture and ask for no refund -/

/-- The rows of two refunds agree in what a completion does not write. -/
def SameRefund (r r' : RefundEntity) : Prop :=
  r'.kind = r.kind ∧ r'.paymentAttemptId = r.paymentAttemptId ∧ r'.requestKey = r.requestKey ∧
    r'.amountToman = r.amountToman

/-- Nothing is lost that an attempt is applied, given back or owed by. -/
structure Keeps (s s' : CheckoutSystem) : Prop where
  attempts : ∀ a, a.status = .succeeded → (a ∈ s'.payment.attempts ↔ a ∈ s.payment.attempts)
  refunds : ∀ r' ∈ s'.payment.refunds, ∃ r ∈ s.payment.refunds, SameRefund r r'
  kept : ∀ r ∈ s.payment.refunds, r.status ≠ .failed →
    ∃ r' ∈ s'.payment.refunds, SameRefund r r' ∧ r'.status ≠ .failed
  capturedBy : s'.capturedBy = s.capturedBy
  order : s'.order.order.map (fun o => (o.id, o.sourceType, o.collectedTotalToman)) =
    s.order.order.map (fun o => (o.id, o.sourceType, o.collectedTotalToman))
  schedule : s'.order.schedule = s.order.schedule
  booking : s.booking.status = some .confirmed → s'.booking.status = some .confirmed
  owing : ∀ pid attemptId input,
    s'.callbacks pid = .owing attemptId input ↔ s.callbacks pid = .owing attemptId input

theorem SameRefund.refl (r : RefundEntity) : SameRefund r r := ⟨rfl, rfl, rfl, rfl⟩

namespace Keeps

variable {a : PaymentAttemptEntity}

section

variable (hk : Keeps s s')
include hk

theorem refundOf {r r' : RefundEntity} (hsame : SameRefund r r') :
    s'.RefundOf attemptId r' ↔ s.RefundOf attemptId r := by
  obtain ⟨hkind, hatt, -, -⟩ := hsame
  unfold RefundOf
  rw [hkind, hatt, hk.capturedBy]

theorem succeeded (h : s.Succeeded attemptId) : s'.Succeeded attemptId := by
  obtain ⟨a, ha, hid, hstat⟩ := h
  exact ⟨a, (hk.attempts a hstat).2 ha, hid, hstat⟩

theorem findOrder {o : OrderEntity} (ho : s.order.order = some o) :
    ∃ o', s'.order.order = some o' ∧ o'.sourceType = o.sourceType ∧
      o'.collectedTotalToman = o.collectedTotalToman := by
  have hord := hk.order
  rw [ho, map_some, map_eq_some_iff] at hord
  obtain ⟨o', ho', heq⟩ := hord
  injection heq with _ heq
  injection heq with hsrc hcoll
  exact ⟨o', ho', hsrc, hcoll⟩

theorem charged (h : s.Charged intent) : s'.Charged intent := by
  obtain ⟨⟨hne, hord, hsched⟩, hnonneg⟩ := h
  refine ⟨⟨hne, ?_, by rw [hk.schedule]; exact hsched⟩, hnonneg⟩
  have hids := congrArg (Option.map (·.1)) hk.order
  rw [Option.map_map, Option.map_map] at hids
  exact hids.trans hord

theorem applied (h : s.Applied a) : s'.Applied a := by
  obtain ⟨hcaptured, _, ho, hamt, hbook⟩ := h
  obtain ⟨o', ho', hsrc, hcoll⟩ := hk.findOrder ho
  refine ⟨hk.capturedBy.trans hcaptured, o', ho', by rw [hcoll]; exact hamt, ?_⟩
  intro hs
  exact hk.booking (hbook (hsrc ▸ hs))

theorem givenBack (h : s.GivenBack a) : s'.GivenBack a := by
  obtain ⟨r, hr, hof, hstat, hamt⟩ := h
  obtain ⟨r', hr', hsame, hstat'⟩ := hk.kept r hr hstat
  exact ⟨r', hr', (hk.refundOf hsame).2 hof, hstat', by rw [hsame.2.2.2]; exact hamt⟩

theorem owes (h : s.Owes attemptId input) : s'.Owes attemptId input where
  amount := by
    obtain ⟨n, hn, hpos, hsched, a, ha, hid, hstat, hamt⟩ := h.amount
    refine ⟨n, hn, hpos, by rw [hk.schedule]; exact hsched, a, ?_, hid, hstat, hamt⟩
    exact (hk.attempts a hstat).2 ha
  keyed := by rw [hk.capturedBy]; exact h.keyed
  unasked := by
    intro r' hr' hof
    obtain ⟨r, hr, hsame⟩ := hk.refunds r' hr'
    exact h.unasked r hr ((hk.refundOf hsame).1 hof)

theorem refundRow {r r' : RefundEntity} (hsame : SameRefund r r')
    (h : s.RefundRow r) : s'.RefundRow r' where
  keyed := by rw [hsame.2.2.1, hsame.1, hsame.2.1]; exact h.keyed
  about := by
    obtain ⟨x, hof, hsucceeded⟩ := h.about
    exact ⟨x, (hk.refundOf hsame).2 hof, hk.succeeded hsucceeded⟩

theorem inv (h : Inv s)
    (hid : ∀ a ∈ s'.payment.attempts, ∀ b ∈ s'.payment.attempts, a.id = b.id → a = b)
    (hintents : ∀ i ∈ s'.payment.intents, s.Charged i)
    (hcallbacks : ∀ pid, s.CallbackInv (s'.callbacks pid)) : Inv s' where
  attemptId := hid
  intents i hi := hk.charged (hintents i hi)
  callbacks pid := by
    have hcallback := hcallbacks pid
    unfold CallbackInv at hcallback ⊢
    split <;> first | trivial | exact hk.charged (by simpa [*] using hcallback)
  refunds r' hr' := by
    obtain ⟨r, hr, hsame⟩ := hk.refunds r' hr'
    exact hk.refundRow hsame (h.refunds r hr)
  captured x hx := by
    obtain ⟨_, ho, hne⟩ := h.captured x (hk.capturedBy ▸ hx)
    obtain ⟨o', ho', -, hcoll⟩ := hk.findOrder ho
    exact ⟨o', ho', by rw [hcoll]; exact hne⟩
  owes pid x input howing := hk.owes (h.owes pid x input ((hk.owing pid x input).1 howing))
  once p q x i j hp hq := h.once p q x i j ((hk.owing p x i).1 hp) ((hk.owing q x j).1 hq)
  settled a ha hstat := by
    rcases h.settled a ((hk.attempts a hstat).1 ha) hstat with happlied | hback | howed
    · exact Or.inl (hk.applied happlied)
    · exact Or.inr (Or.inl (hk.givenBack hback))
    · obtain ⟨pid, input, howing⟩ := howed
      exact Or.inr (Or.inr ⟨pid, input, (hk.owing pid a.id input).2 howing⟩)

end

theorem setCallback {next : Callback} (hbef : (s.callbacks pid).owes = false)
    (hafter : next.owes = false) : Keeps s (s.setCallback pid next) where
  attempts _ _ := Iff.rfl
  refunds r hr := ⟨r, hr, .refl r⟩
  kept r hr hstat := ⟨r, hr, .refl r, hstat⟩
  capturedBy := rfl
  order := rfl
  schedule := rfl
  booking h := h
  owing q x i := by
    show update s.callbacks pid next q = _ ↔ _
    by_cases hq : q = pid
    · subst hq
      rw [update_self]
      constructor <;> intro h
      · rw [h] at hafter
        cases hafter
      · rw [h] at hbef
        cases hbef
    · rw [update_of_ne hq]

theorem stores {payment : PaymentStore} {order : OrderStore} {booking : BookingStore}
    (hatts : ∀ a, a.status = .succeeded → (a ∈ payment.attempts ↔ a ∈ s.payment.attempts))
    (hrefs : payment.refunds = s.payment.refunds)
    (hord : order.order.map (fun o => (o.id, o.sourceType, o.collectedTotalToman)) =
      s.order.order.map (fun o => (o.id, o.sourceType, o.collectedTotalToman)))
    (hsched : order.schedule = s.order.schedule)
    (hbook : s.booking.status = some .confirmed → booking.status = some .confirmed) :
    Keeps s { s with payment := payment, order := order, booking := booking } where
  attempts := hatts
  refunds r hr := ⟨r, hrefs ▸ hr, .refl r⟩
  kept r hr hstat := ⟨r, hrefs.symm ▸ hr, .refl r, hstat⟩
  capturedBy := rfl
  order := hord
  schedule := hsched
  booking := hbook
  owing _ _ _ := Iff.rfl

end Keeps

section

variable (h : Inv s)
include h

theorem Inv.setCallback (hbef : (s.callbacks pid).owes = false)
    (hafter : next.owes = false) (hnext : s.CallbackInv next) : Inv (s.setCallback pid next) := by
  refine (Keeps.setCallback hbef hafter).inv h h.attemptId h.intents ?_
  exact (Function.forall_update_iff s.callbacks fun _ => s.CallbackInv).2
    ⟨hnext, fun q _ => h.callbacks q⟩

/-- A step of payment keeps the invariant when it neither succeeds an attempt nor touches a
refund, and its intents are for what the order collects. -/
theorem Inv.payment {payment : PaymentStore}
    (hatts : ∀ a, a.status = .succeeded → (a ∈ payment.attempts ↔ a ∈ s.payment.attempts))
    (hrefs : payment.refunds = s.payment.refunds)
    (hid : ∀ a ∈ payment.attempts, ∀ b ∈ payment.attempts, a.id = b.id → a = b)
    (hintents : ∀ i ∈ payment.intents, s.Charged i) : Inv { s with payment := payment } :=
  (Keeps.stores hatts hrefs rfl rfl id).inv h hid hintents h.callbacks

theorem Inv.createIntent {payment : PaymentStore} (hcharges : s.Charges intent)
    (hins : s.payment.insertIntent intent = some payment) :
    Inv { s with payment := payment } := by
  unfold insertIntent at hins
  split_ifs at hins with href
  cases hins
  rw [not_or, not_or] at href
  refine h.payment (fun _ _ => Iff.rfl) rfl h.attemptId ?_
  intro i hi
  rcases mem_append.1 hi with hi | hi
  · exact h.intents i hi
  · rw [mem_singleton.1 hi]
    exact ⟨hcharges, not_lt.1 href.2.1⟩

theorem Inv.charged_updateWhere {p : PaymentIntentEntity → Prop} [DecidablePred p]
    {f : PaymentIntentEntity → PaymentIntentEntity} (hord : ∀ i, (f i).orderId = i.orderId)
    (hamt : ∀ i, (f i).amountToman = i.amountToman) :
    ∀ i ∈ updateWhere p f s.payment.intents, s.Charged i := by
  refine forall_mem_updateWhere (fun i hi _ => h.intents i hi) ?_
  intro i hi _
  have hi := h.intents i hi
  unfold Charged Charges at hi ⊢
  rw [hord, hamt]
  exact hi

theorem Inv.expireIntent (intentId : Uuid) :
    Inv { s with payment := s.payment.expireIntent intentId } :=
  h.payment (fun _ _ => Iff.rfl) rfl h.attemptId
    (h.charged_updateWhere (fun _ => rfl) fun _ => rfl)

theorem Inv.insertAttempt {attempt : PaymentAttemptEntity} {payment : PaymentStore}
    (hstat : attempt.status = .initiated)
    (hins : s.payment.insertAttempt intent attempt = some payment) :
    Inv { s with payment := payment } := by
  unfold PaymentStore.insertAttempt at hins
  split_ifs at hins with href
  cases hins
  rw [not_or] at href
  have hfresh : ∀ a ∈ s.payment.attempts, a.id ≠ attempt.id := by
    intro a ha hid
    exact href.1 ⟨a, ha, Or.inl hid⟩
  refine h.payment ?_ rfl ?_ (h.charged_updateWhere (fun _ => rfl) fun _ => rfl)
  · intro a ha
    rw [mem_append, mem_singleton]
    refine ⟨?_, Or.inl⟩
    rintro (hmem | rfl)
    · exact hmem
    · rw [hstat] at ha
      cases ha
  · exact determined_concat h.attemptId fun a ha hid => absurd hid (hfresh a ha)

theorem Inv.recordAnswer (refundId : Uuid) {answer : RefundAnswer} (now : Instant)
    (hans : answer.status ≠ .failed) :
    Inv { s with payment := s.payment.recordAnswer refundId answer now } := by
  obtain ⟨_, _, hrefs⟩ := s.payment.recordAnswer_refunds refundId answer now
  have hk : Keeps s { s with payment := s.payment.recordAnswer refundId answer now } := {
    attempts := fun a _ => by rw [recordAnswer_attempts]
    refunds := by
      rw [hrefs]
      refine forall_mem_updateWhere (fun r hr _ => ⟨r, hr, .refl r⟩) ?_
      intro r hr _
      exact ⟨r, hr, rfl, rfl, rfl, rfl⟩
    kept := by
      intro r hr hstat
      rw [hrefs]
      by_cases hmatch : r.id = refundId ∧ r.status = .pending
      · exact ⟨_, mem_updateWhere_of hr hmatch, ⟨rfl, rfl, rfl, rfl⟩, hans⟩
      · exact ⟨r, mem_updateWhere_of_not hr hmatch, .refl r, hstat⟩
    capturedBy := rfl
    order := rfl
    schedule := rfl
    booking := fun h => h
    owing := fun _ _ _ => Iff.rfl }
  refine hk.inv h ?_ ?_ h.callbacks
  · rw [recordAnswer_attempts]
    exact h.attemptId
  · rw [recordAnswer_intents]
    exact h.intents

theorem Inv.cancelOrder (reason : String) (now : Instant) :
    Inv { s with order := (s.order.cancel reason now).2 } := by
  refine (Keeps.stores (fun _ _ => Iff.rfl) rfl ?_ ?_ id).inv h h.attemptId h.intents h.callbacks
  · rcases s.order.cancel_cases reason now with heq | ⟨_, ho, -, heq⟩
    · rw [heq]
    · rw [heq, ho]
      rfl
  · rcases s.order.cancel_cases reason now with heq | ⟨_, -, -, heq⟩ <;> rw [heq]

theorem Inv.booking {booking : BookingStore}
    (hbook : s.booking.status = some .confirmed → booking.status = some .confirmed) :
    Inv { s with booking := booking } :=
  (Keeps.stores (fun _ _ => Iff.rfl) rfl rfl rfl hbook).inv h h.attemptId h.intents h.callbacks

end

/-! ## The recording of a payment -/

/-- The state a recorded payment of `n` by an open attempt leaves: the attempt succeeds, and
the capture is recorded for it or was recorded before. -/
structure Recording (s t : CheckoutSystem) (attemptId : Uuid) (n : ℤ) : Prop where
  unsucceeded : ¬s.Succeeded attemptId
  kept : ∀ a ∈ s.payment.attempts, a.status = .succeeded → a ∈ t.payment.attempts
  back : ∀ a ∈ t.payment.attempts, a.status = .succeeded →
    a ∈ s.payment.attempts ∨ (a.id = attemptId ∧ a.verifiedAmountToman = some n)
  recorded : ∃ a ∈ t.payment.attempts, a.id = attemptId ∧ a.status = .succeeded ∧
    a.verifiedAmountToman = some n
  attemptId : ∀ a ∈ t.payment.attempts, ∀ b ∈ t.payment.attempts, a.id = b.id → a = b
  intents : ∀ i ∈ t.payment.intents, s.Charged i
  refunds : t.payment.refunds = s.payment.refunds
  callbacks : t.callbacks = s.callbacks
  refundOf : ∀ r ∈ s.payment.refunds, ∀ x, t.RefundOf x r ↔ s.RefundOf x r
  applied : ∀ a, s.Applied a → t.Applied a
  capturedBy : ∀ x, s.capturedBy = some x → t.capturedBy = some x
  captured : ∀ x, t.capturedBy = some x → ∃ o, t.order.order = some o ∧ o.collectedTotalToman ≠ 0
  orderId : t.order.order.map (·.id) = s.order.order.map (·.id)
  schedule : t.order.schedule = s.order.schedule

namespace Recording

variable {n : ℤ} {intent : PaymentIntentEntity} {x : Uuid} {outcome : VerificationOutcome}

section

variable (hr : Recording s t attemptId n)
include hr

theorem charged (h : s.Charged intent) : t.Charged intent := by
  obtain ⟨⟨hne, hord, hsched⟩, hnonneg⟩ := h
  exact ⟨⟨hne, hr.orderId.trans hord, by rw [hr.schedule]; exact hsched⟩, hnonneg⟩

theorem succeeded (h : s.Succeeded x) : t.Succeeded x := by
  obtain ⟨a, ha, hid, hstat⟩ := h
  exact ⟨a, hr.kept a ha hstat, hid, hstat⟩

theorem owes (h : s.Owes x input) : t.Owes x input where
  amount := by
    obtain ⟨m, hm, hpos, hsched, a, ha, hid, hstat, hamt⟩ := h.amount
    exact ⟨m, hm, hpos, by rw [hr.schedule]; exact hsched, a, hr.kept a ha hstat, hid, hstat,
      hamt⟩
  keyed := by
    have hkeyed := h.keyed
    cases hkind : input.kind with
    | order => rw [hkind] at hkeyed; exact ⟨hr.capturedBy x hkeyed.1, hkeyed.2⟩
    | duplicateCharge => rw [hkind] at hkeyed; exact hkeyed
  unasked := by
    intro r hmem hof
    rw [hr.refunds] at hmem
    exact h.unasked r hmem ((hr.refundOf r hmem x).1 hof)

theorem givenBack {a : PaymentAttemptEntity} (h : s.GivenBack a) : t.GivenBack a := by
  obtain ⟨r, hmem, hof, hstat, hamt⟩ := h
  exact ⟨r, hr.refunds.symm ▸ hmem, (hr.refundOf r hmem a.id).2 hof, hstat, hamt⟩

theorem unasked (h : Inv s) :
    ∀ r ∈ t.payment.refunds, ¬t.RefundOf attemptId r := by
  intro r hmem hof
  rw [hr.refunds] at hmem
  obtain ⟨x, hx, hsucceeded⟩ := (h.refunds r hmem).about
  have heq : attemptId = x := RefundOf.unique ((hr.refundOf r hmem attemptId).1 hof) hx
  exact hr.unsucceeded (heq ▸ hsucceeded)

theorem amount (hok : assertNonNegativeAmount (.ofInt n) = .ok n) (hcharge : s.Charged intent)
    (hn : intent.amountToman = n) (hin : input.amountToman = .ofInt n) :
    ∃ m, assertNonNegativeAmount input.amountToman = .ok m ∧ 0 < m ∧
      t.order.schedule.map (·.platformCollectibleToman) = some m ∧
      ∃ a ∈ t.payment.attempts, a.id = attemptId ∧ a.status = .succeeded ∧
        a.verifiedAmountToman = some m := by
  obtain ⟨⟨_, -, hsched⟩, _⟩ := hcharge
  refine ⟨n, by rw [hin]; exact hok, by omega, ?_, hr.recorded⟩
  rw [hr.schedule, hsched, hn]

theorem owes_duplicateCharge (h : Inv s)
    (hok : assertNonNegativeAmount (.ofInt n) = .ok n) (hcharge : s.Charged intent)
    (hn : intent.amountToman = n) (hatt : outcome.attemptId = attemptId)
    (hamt : outcome.amountToman = n) : t.Owes attemptId (duplicateChargeRefund outcome) where
  amount := hr.amount hok hcharge hn (by rw [← hamt]; rfl)
  keyed := by
    show RequestKey.duplicateCharge outcome.attemptId = _ ∧ some outcome.attemptId = _
    rw [hatt]
    exact ⟨rfl, rfl⟩
  unasked := hr.unasked h

theorem owes_bookingUnavailable (h : Inv s)
    (hok : assertNonNegativeAmount (.ofInt n) = .ok n) (hcharge : s.Charged intent)
    (hn : intent.amountToman = n) (hcaptured : t.capturedBy = some attemptId)
    (hamt : outcome.amountToman = n) (cancelled : Option Uuid) :
    t.Owes attemptId (bookingUnavailableRefund outcome cancelled) where
  amount := hr.amount hok hcharge hn (by rw [← hamt]; rfl)
  keyed := by
    refine ⟨hcaptured, ?_⟩
    intro other
    cases cancelled <;> simp [bookingUnavailableRefund]
  unasked := hr.unasked h

/-- The recording keeps the invariant when its attempt is applied, or when the callback goes on
to owe its amount. -/
theorem inv (h : Inv s) {next : Callback}
    {prepared : PreparedVerification} (hpid : s.callbacks pid = .record prepared)
    (hnext : t.CallbackInv next)
    (hfate : (next.owes = false ∧
        ∀ a, a.id = attemptId → a.verifiedAmountToman = some n → t.Applied a) ∨
      ∃ input, next = .owing attemptId input ∧ t.Owes attemptId input) :
    Inv (t.setCallback pid next) := by
  have hother : ∀ q, q ≠ pid → (t.setCallback pid next).callbacks q = s.callbacks q := by
    intro q hq
    show update t.callbacks pid next q = _
    rw [update_of_ne hq, hr.callbacks]
  have hself : (t.setCallback pid next).callbacks pid = next := update_self ..
  -- what is owed after the step is owed before it, or is the new debt
  have howing : ∀ q x i, (t.setCallback pid next).callbacks q = .owing x i →
      s.callbacks q = .owing x i ∨ (q = pid ∧ x = attemptId ∧ t.Owes x i) := by
    intro q x i hq
    by_cases hpq : q = pid
    · subst hpq
      rw [hself] at hq
      rcases hfate with ⟨hnot, -⟩ | ⟨input, hnew, howes⟩
      · rw [hq] at hnot
        cases hnot
      · rw [hnew] at hq
        injection hq with hx hi
        subst hx hi
        exact Or.inr ⟨rfl, rfl, howes⟩
    · exact Or.inl (by rw [← hother q hpq]; exact hq)
  have hnone : ∀ q i, s.callbacks q ≠ .owing attemptId i := fun q i hq =>
    hr.unsucceeded (h.owes q attemptId i hq).succeeded
  refine ⟨hr.attemptId, fun i hi => hr.charged (hr.intents i hi), ?_, ?_, hr.captured, ?_, ?_, ?_⟩
  · intro q
    by_cases hpq : q = pid
    · rw [hpq, hself]; exact hnext
    · rw [hother q hpq]
      have hcallback := h.callbacks q
      unfold CallbackInv at hcallback ⊢
      split <;> first | trivial | exact hr.charged (by simpa [*] using hcallback)
  · intro r hmem
    have hmem' : r ∈ s.payment.refunds := hr.refunds ▸ hmem
    obtain ⟨x, hof, hsucceeded⟩ := (h.refunds r hmem').about
    exact ⟨(h.refunds r hmem').keyed, x, (hr.refundOf r hmem' x).2 hof, hr.succeeded hsucceeded⟩
  · intro q x i hq
    rcases howing q x i hq with hold | ⟨-, -, howes⟩
    · exact (hr.owes (h.owes q x i hold)).setCallback
    · exact howes.setCallback
  · intro p q x i j hp hq
    rcases howing p x i hp with hp | ⟨hp, hx, -⟩ <;> rcases howing q x j hq with hq | ⟨hq, hy, -⟩
    · exact h.once p q x i j hp hq
    · exact absurd (hy ▸ hp) (hnone p i)
    · exact absurd (hx ▸ hq) (hnone q j)
    · rw [hp, hq]
  · intro a ha hstat
    rcases hr.back a ha hstat with hold | ⟨hid, hamt⟩
    · rcases h.settled a hold hstat with happlied | hback | ⟨q, input, hq⟩
      · exact Or.inl (hr.applied a happlied)
      · exact Or.inr (Or.inl (hr.givenBack hback))
      · have hpq : q ≠ pid := by
          rintro rfl
          rw [hpid] at hq
          cases hq
        exact Or.inr (Or.inr ⟨q, input, by rw [hother q hpq]; exact hq⟩)
    · rcases hfate with ⟨-, happlied⟩ | ⟨input, hnew, -⟩
      · exact Or.inl (happlied a hid hamt)
      · exact Or.inr (Or.inr ⟨pid, input, by rw [hself, hnew, hid]⟩)

end

end Recording

theorem Inv.recordVerification (h : Inv s) {prepared : PreparedVerification}
    {result : VerifyPaymentResult} (now : Instant)
    (hmatch : PaymentStore.amountMatches prepared.intent result = true)
    (hclaims : s.payment.claims prepared.attempt.id) :
    let payment := s.payment.recordVerification prepared result now
    ¬s.Succeeded prepared.attempt.id ∧
      (∀ a ∈ s.payment.attempts, a.status = .succeeded → a ∈ payment.attempts) ∧
      (∀ a ∈ payment.attempts, a.status = .succeeded → a ∈ s.payment.attempts ∨
        (a.id = prepared.attempt.id ∧
          a.verifiedAmountToman = some prepared.intent.amountToman)) ∧
      (∃ a ∈ payment.attempts, a.id = prepared.attempt.id ∧ a.status = .succeeded ∧
        a.verifiedAmountToman = some prepared.intent.amountToman) := by
  obtain ⟨a₀, ha₀, hid₀, hopen⟩ := hclaims
  have hpaid : result.paidAmountToman = some prepared.intent.amountToman := by
    simp only [amountMatches, decide_eq_true_eq] at hmatch
    exact hmatch.2.2
  refine ⟨?_, ?_, ?_, ?_⟩
  · rintro ⟨a, ha, hid, hstat⟩
    have heq : a = a₀ := h.attemptId a ha a₀ ha₀ (hid.trans hid₀.symm)
    rw [heq, hopen] at hstat
    cases hstat
  · intro a ha hstat
    refine mem_updateWhere_of_not ha ?_
    rintro ⟨-, hinit⟩
    rw [hinit] at hstat
    cases hstat
  · refine forall_mem_updateWhere (fun a ha _ _ => Or.inl ha) ?_
    intro a _ hclaim _
    exact Or.inr ⟨hclaim.1, hpaid⟩
  · refine ⟨_, mem_updateWhere_of ha₀ ⟨hid₀, hopen⟩, hid₀, ?_, hpaid⟩
    simp [verifiedAttempt, hmatch]

section Recorded

variable {prepared : PreparedVerification} {result : VerifyPaymentResult} {o : OrderEntity}
  {permitted : Bool} {now : Instant}

theorem Inv.charged_recordVerification (h : Inv s) (now : Instant) :
    ∀ i ∈ (s.payment.recordVerification prepared result now).intents, s.Charged i :=
  h.charged_updateWhere (by simp) (by simp)

theorem Inv.recording_already (h : Inv s) (now : Instant)
    (hmatch : PaymentStore.amountMatches prepared.intent result = true)
    (hclaims : s.payment.claims prepared.attempt.id) :
    Recording s { s with payment := s.payment.recordVerification prepared result now }
      prepared.attempt.id prepared.intent.amountToman := by
  obtain ⟨hun, hkept, hback, hrec⟩ := h.recordVerification now hmatch hclaims
  exact {
    unsucceeded := hun
    kept := hkept
    back := hback
    recorded := hrec
    attemptId := attemptId_recordVerification result now h.attemptId
    intents := h.charged_recordVerification now
    refunds := rfl
    callbacks := rfl
    refundOf := fun _ _ _ => Iff.rfl
    applied := fun _ ha => ha
    capturedBy := fun _ hx => hx
    captured := h.captured
    orderId := rfl
    schedule := rfl }

theorem Inv.recording_captured (h : Inv s) (order : OrderStore) (now : Instant)
    (hmatch : PaymentStore.amountMatches prepared.intent result = true)
    (hclaims : s.payment.claims prepared.attempt.id) {o' : OrderEntity}
    (ho : s.order.order = some o) (hzero : o.collectedTotalToman = 0) (ho' : order.order = some o')
    (hid : o'.id = o.id) (hne : o'.collectedTotalToman ≠ 0)
    (hsched : order.schedule = s.order.schedule) (booking : BookingStore) :
    Recording s { s with
      payment := s.payment.recordVerification prepared result now
      order := order
      booking := booking
      capturedBy := some prepared.attempt.id } prepared.attempt.id prepared.intent.amountToman := by
  obtain ⟨hun, hkept, hback, hrec⟩ := h.recordVerification now hmatch hclaims
  have huncaptured : s.capturedBy = none := by
    cases hcap : s.capturedBy with
    | none => rfl
    | some x =>
      obtain ⟨_, ho₁, hne₁⟩ := h.captured x hcap
      cases ho.symm.trans ho₁
      exact absurd hzero hne₁
  exact {
    unsucceeded := hun
    kept := hkept
    back := hback
    recorded := hrec
    attemptId := attemptId_recordVerification result now h.attemptId
    intents := h.charged_recordVerification now
    refunds := rfl
    callbacks := rfl
    refundOf := by
      intro r hr x
      obtain ⟨_, hof, -⟩ := (h.refunds r hr).about
      unfold RefundOf at hof ⊢
      cases hkind : r.kind with
      | order =>
        rw [hkind, huncaptured] at hof
        cases hof
      | duplicateCharge => exact Iff.rfl
    applied := by
      rintro a ⟨hcap, -⟩
      rw [huncaptured] at hcap
      cases hcap
    capturedBy := by
      intro x hx
      rw [huncaptured] at hx
      cases hx
    captured := fun _ _ => ⟨o', ho', hne⟩
    orderId := by
      rw [ho', ho, map_some, map_some, hid]
    schedule := hsched }

theorem confirmBooking_cases (ho : s.order.order = some o) (outcome : VerificationOutcome)
    (permitted : Bool) (now : Instant) :
    (∃ booking, s.confirmBooking outcome permitted now = ({ s with booking := booking }, none) ∧
        (o.sourceType = .booking → booking.status = some .confirmed)) ∨
      ∃ cancelled, s.confirmBooking outcome permitted now =
        (s, some (bookingUnavailableRefund outcome cancelled)) := by
  unfold confirmBooking
  rw [ho]
  dsimp only
  split
  · rename_i hsrc
    exact Or.inl ⟨s.booking, rfl, fun h => absurd h hsrc⟩
  · split
    · exact Or.inr ⟨none, rfl⟩
    · split
      · rename_i hconf
        left
        refine ⟨_, rfl, fun _ => ?_⟩
        rcases s.booking.confirm_cases .system now with heq | ⟨_, -, -, heq⟩
        · rw [heq] at hconf
          cases hconf
        · rw [heq]
          rfl
      · exact Or.inr ⟨_, rfl⟩

theorem Inv.recordFailure (h : Inv s) (now : Instant)
    (hmatch : PaymentStore.amountMatches prepared.intent result = false) :
    Inv { s with payment := s.payment.recordVerification prepared result now } := by
  refine h.payment ?_ rfl (attemptId_recordVerification result now h.attemptId)
    (h.charged_recordVerification now)
  intro a hstat
  constructor
  · intro ha
    rcases written_or_left ha with ⟨_, -, -, rfl⟩ | ⟨ha, -⟩
    · simp [verifiedAttempt, hmatch] at hstat
    · exact ha
  · intro ha
    refine mem_updateWhere_of_not ha ?_
    rintro ⟨-, hinit⟩
    rw [hinit] at hstat
    cases hstat

/-- The recording of a full payment: a second charge and a capture whose booking is not
confirmed are owed, any other capture is applied. -/
theorem Inv.recordPayment (h : Inv s) (hpid : s.callbacks pid = .record prepared)
    (hmatch : PaymentStore.amountMatches prepared.intent result = true)
    (hclaims : s.payment.claims prepared.attempt.id)
    (hstat : (s.payment.applyVerification prepared now).1.status = .succeeded)
    (hpay : (s.payment.applyVerification prepared now).2 =
      s.payment.recordVerification prepared result now)
    (hs : s.recordStep pid permitted now = some s') : Inv s' := by
  have hcharge : s.Charged prepared.intent := by
    have hcallback := h.callbacks pid
    rw [hpid] at hcallback
    exact hcallback
  have hnot : (s.callbacks pid).owes = false := by
    rw [hpid]
    rfl
  obtain ⟨-, hatt, hamt⟩ := s.payment.applyVerification_outcome prepared now
  simp only [CheckoutSystem.recordStep, hpid, CheckoutSystem.record, hstat, ne_eq,
    not_true_eq_false, if_false, hpay] at hs
  cases hcap : s.order.recordVerifiedCapture
      (.ofInt (s.payment.applyVerification prepared now).1.amountToman) now with
  | error =>
    simp only [hcap] at hs
    cases hs
    exact h.setCallback hnot rfl trivial
  | ok captured =>
    obtain ⟨outcome, order⟩ := captured
    obtain ⟨_, hok⟩ := OrderStore.recordVerifiedCapture_amount hcap
    have hm := assertNonNegativeAmount_ofInt_eq hok
    rw [hm, hamt] at hok
    rcases OrderStore.recordVerifiedCapture_cases hcap with ⟨hsame, hnotcaptured⟩ | hcaptured
    · cases outcome with
      | captured status collected => exact absurd rfl (hnotcaptured status collected)
      | refused =>
        simp only [hcap] at hs
        cases hs
        exact h.setCallback hnot rfl trivial
      | already =>
        simp only [hcap] at hs
        cases hs
        subst hsame
        have hr := h.recording_already now hmatch hclaims
        exact hr.inv h hpid trivial (Or.inr ⟨_, rfl,
          hr.owes_duplicateCharge h hok hcharge rfl hatt hamt⟩)
    · obtain ⟨n, o, sch, hn, ho, -, -, hzero, hpos, -, -, o', ho', houtcome, hord⟩ :=
        hcaptured
      rw [hamt] at hn
      have hne : n = prepared.intent.amountToman := assertNonNegativeAmount_ofInt_eq hn
      subst houtcome hord
      simp only [hcap] at hs
      rw [hatt] at hs
      -- the state the capture leaves, whatever becomes of the booking
      have hr := h.recording_captured { s.order with
          order := some o'
          outbox := s.order.outbox ++ [OrderStore.captureEvent o' sch now] } now hmatch hclaims ho
        hzero rfl (by rw [ho']) (by rw [ho']; exact hpos.ne') rfl
      rcases confirmBooking_cases (s := { s with
            payment := s.payment.recordVerification prepared result now
            order := { s.order with
              order := some o'
              outbox := s.order.outbox ++ [OrderStore.captureEvent o' sch now] }
            capturedBy := some prepared.attempt.id }) (o := o') rfl
          (s.payment.applyVerification prepared now).1 permitted now with
        ⟨booking, hconfirm, hconf⟩ | ⟨cancelled, hconfirm⟩
      · rw [hconfirm] at hs
        cases hs
        refine (hr booking).inv h hpid trivial (Or.inl ⟨rfl, ?_⟩)
        intro a hid hverified
        refine ⟨by rw [hid], o', rfl, ?_, hconf⟩
        rw [hverified, ho', hne]
      · rw [hconfirm] at hs
        cases hs
        exact (hr s.booking).inv h hpid trivial (Or.inr ⟨_, rfl,
          (hr s.booking).owes_bookingUnavailable h hok hcharge rfl rfl hamt cancelled⟩)

theorem Inv.recordStep (h : Inv s) (hs : s.recordStep pid permitted now = some s') : Inv s' := by
  have hs' := hs
  unfold CheckoutSystem.recordStep at hs
  split at hs
  · rename_i prepared hpid
    have hnot : (s.callbacks pid).owes = false := by
      rw [hpid]
      rfl
    unfold CheckoutSystem.record at hs
    rcases s.payment.applyVerification_cases prepared now with ⟨hsame, hstat⟩ | happlied
    · have hne : (s.payment.applyVerification prepared now).1.status ≠ .succeeded := by
        intro heq
        rw [heq] at hstat
        simp at hstat
      rw [if_pos hne, hsame] at hs
      cases hs
      exact h.setCallback hnot rfl trivial
    · obtain ⟨result, -, -, -, hclaims, hstat, hpay⟩ := happlied
      cases hmatch : amountMatches prepared.intent result with
      | false =>
        have hne : (s.payment.applyVerification prepared now).1.status ≠ .succeeded := by
          rw [hstat, hmatch]
          decide
        rw [if_pos hne, hpay] at hs
        cases hs
        exact (h.recordFailure now hmatch).setCallback hnot rfl trivial
      | true =>
        have heq : (s.payment.applyVerification prepared now).1.status = .succeeded := by
          rw [hstat, hmatch]
          rfl
        exact h.recordPayment hpid hmatch hclaims heq hpay hs'
  · cases hs

end Recorded

/-! ## Asking for what is owed -/

section

variable
    (hrow : ∃ a ∈ s.payment.attempts, a.id = attemptId ∧ a.status = .succeeded ∧
      a.verifiedAmountToman = some n)
include hrow

theorem Inv.refundAttempt (h : Inv s) (intent : PaymentIntentEntity)
    (hkeyed : input.paymentAttemptId = some attemptId) :
    ∃ a, s.payment.refundAttempt input intent = some a ∧ a.id = attemptId ∧
      PaymentStore.chargedToman a = n := by
  obtain ⟨a, ha, hid, hstat, hamt⟩ := hrow
  have hfind : s.payment.findAttempt attemptId = some a := by
    cases hsome : s.payment.findAttempt attemptId with
    | none =>
      have hnot := find?_eq_none.1 hsome a ha
      simp [hid] at hnot
    | some b =>
      have hb := find?_some hsome
      rw [decide_eq_true_eq] at hb
      rw [h.attemptId b (mem_of_find?_eq_some hsome) a ha (hb.trans hid.symm)]
  refine ⟨a, by simp only [PaymentStore.refundAttempt, hkeyed, hfind], hid, ?_⟩
  simp [PaymentStore.chargedToman, hstat, hamt]

theorem Inv.withinCaptured (h : Inv s) (howes : s.Owes attemptId input)
    (hintent : s.payment.findSucceededIntent input.orderId = some intent)
    (hsched : s.order.schedule.map (·.platformCollectibleToman) = some n) :
    s.payment.withinCaptured intent (s.payment.refundAttempt input intent) input.kind
      input.orderId n = true := by
  have hkeyed := howes.keyed
  rw [PaymentStore.withinCaptured, decide_eq_true_eq]
  cases hkind : input.kind with
  | order =>
    rw [hkind] at hkeyed
    have hcomm : s.payment.committedToman input.orderId
        (s.payment.refundAttempt input intent) .order = 0 := by
      refine sumWhere_eq_zero ?_
      rintro r hr ⟨-, hr', -, -⟩
      refine howes.unasked r hr ?_
      unfold RefundOf
      rw [hr']
      exact hkeyed.1
    have hamt : intent.amountToman = n := by
      have hcharge := h.intents intent (PaymentStore.findSucceededIntent_eq_some hintent).1
      rw [hcharge.1.2.2] at hsched
      exact some_injective _ hsched
    rw [hcomm]
    show n ≤ intent.amountToman - 0
    omega
  | duplicateCharge =>
    rw [hkind] at hkeyed
    obtain ⟨a, hatt, hid, _⟩ := h.refundAttempt hrow intent hkeyed.2
    have hcomm : s.payment.committedToman input.orderId (some a) .duplicateCharge = 0 := by
      refine sumWhere_eq_zero ?_
      rintro r hr ⟨-, hr', -, hof⟩
      obtain ⟨_, hb, hof⟩ := hof rfl
      cases hb
      refine howes.unasked r hr ?_
      unfold RefundOf
      rw [hr', hof, hid]
    rw [hatt, hcomm]
    show n ≤ PaymentStore.chargedToman a - 0
    omega

theorem Inv.refundOf_pending (h : Inv s) (intent : PaymentIntentEntity) (refundId : Uuid)
    (howes : s.Owes attemptId input) :
    s.RefundOf attemptId (PaymentStore.pendingRefund input n intent
      (s.payment.refundAttempt input intent) refundId) := by
  have hkeyed := howes.keyed
  show match input.kind with
    | .order => s.capturedBy = some attemptId
    | .duplicateCharge => (s.payment.refundAttempt input intent).map (·.id) = some attemptId
  cases hkind : input.kind with
  | order => rw [hkind] at hkeyed; exact hkeyed.1
  | duplicateCharge =>
    rw [hkind] at hkeyed
    obtain ⟨_, hatt, hid, -⟩ := h.refundAttempt hrow intent hkeyed.2
    rw [hatt, map_some, hid]

theorem Inv.refundRow_pending (h : Inv s) (intent : PaymentIntentEntity) (refundId : Uuid)
    (howes : s.Owes attemptId input) :
    s.RefundRow (PaymentStore.pendingRefund input n intent
      (s.payment.refundAttempt input intent) refundId) where
  keyed := by
    have hkeyed := howes.keyed
    show match input.requestKey with
      | .duplicateCharge x => input.kind = .duplicateCharge ∧
        (s.payment.refundAttempt input intent).map (·.id) = some x
      | _ => input.kind = .order
    cases hkind : input.kind with
    | order =>
      rw [hkind] at hkeyed
      cases hreq : input.requestKey with
      | duplicateCharge x => exact absurd hreq (hkeyed.2 x)
      | _ => rfl
    | duplicateCharge =>
      rw [hkind] at hkeyed
      obtain ⟨_, hatt, hid, -⟩ := h.refundAttempt hrow intent hkeyed.2
      rw [hkeyed.1]
      exact ⟨rfl, by rw [hatt, map_some, hid]⟩
  about := ⟨attemptId, h.refundOf_pending hrow intent refundId howes, howes.succeeded⟩

end

theorem Inv.requestStep (h : Inv s) {refundId : Uuid} (hgood : s.CanAsk (s.callbacks pid))
    (hs : s.requestStep pid refundId = some s') : Inv s' := by
  unfold CheckoutSystem.requestStep at hs
  split at hs
  · rename_i attemptId input hpid
    have howes := h.owes pid attemptId input hpid
    obtain ⟨n, hok, hpos, hsched, hrow⟩ := howes.amount
    rw [hpid] at hgood
    obtain ⟨intent, hintent⟩ := isSome_iff_exists.1 hgood
    split_ifs at hs with hfresh
    have hwithin := h.withinCaptured hrow howes hintent hsched
    have hof := h.refundOf_pending hrow intent refundId howes
    have hnew := h.refundRow_pending hrow intent refundId howes
    rw [requestRefund_eq_inserted hok hpos (by simpa using hfresh)
      (h.findRefund_eq_none howes) hintent hwithin] at hs
    cases hs
    set r := pendingRefund input n intent (s.payment.refundAttempt input intent)
      refundId with hr
    have hself : ∀ q, q ≠ pid →
        update s.callbacks pid (.refundProvider attemptId r.id) q = s.callbacks q :=
      fun q hq => update_of_ne hq ..
    have howing : ∀ q x i,
        update s.callbacks pid (.refundProvider attemptId r.id) q = .owing x i →
          q ≠ pid ∧ s.callbacks q = .owing x i := by
      intro q x i hq
      by_cases hpq : q = pid
      · rw [hpq, update_self] at hq
        cases hq
      · exact ⟨hpq, by rw [← hself q hpq]; exact hq⟩
    refine ⟨h.attemptId, h.intents, ?_, ?_, h.captured, ?_, ?_, ?_⟩
    · exact (Function.forall_update_iff s.callbacks fun _ => s.CallbackInv).2
        ⟨trivial, fun q _ => h.callbacks q⟩
    · intro r' hr'
      rcases mem_append.1 hr' with hr' | hr'
      · exact ⟨(h.refunds r' hr').keyed, (h.refunds r' hr').about⟩
      · rw [mem_singleton.1 hr']
        exact ⟨hnew.keyed, hnew.about⟩
    · intro q x i hq
      obtain ⟨hpq, hq⟩ := howing q x i hq
      refine ⟨(h.owes q x i hq).amount, (h.owes q x i hq).keyed, ?_⟩
      intro r' hr' hof'
      rcases mem_append.1 hr' with hr' | hr'
      · exact (h.owes q x i hq).unasked r' hr' hof'
      · rw [mem_singleton.1 hr'] at hof'
        have hx : x = attemptId := RefundOf.unique hof' hof
        exact hpq (h.once q pid x i input hq (by rw [hx]; exact hpid))
    · intro p q x i j hp hq
      exact h.once p q x i j (howing p x i hp).2 (howing q x j hq).2
    · intro a ha hstat
      rcases h.settled a ha hstat with happlied | ⟨r', hr', hback⟩ | ⟨q, i, hq⟩
      · exact Or.inl happlied
      · exact Or.inr (Or.inl ⟨r', mem_append_left _ hr', hback⟩)
      · by_cases hpq : q = pid
        · -- this attempt was owed by the callback, and now has its row
          subst hpq
          rw [hpid] at hq
          injection hq with hx _
          obtain ⟨b, hb, hid, -, hamt⟩ := hrow
          have hab : a = b := h.attemptId a ha b hb (by rw [hid, hx])
          refine Or.inr (Or.inl ⟨r, mem_append_right _ mem_cons_self, ?_, by simp [hr,
            pendingRefund], ?_⟩)
          · rw [← hx]; exact hof
          · rw [hab, hamt]; rfl
        · exact Or.inr (Or.inr ⟨q, i, by rw [← hself q hpq] at hq; exact hq⟩)
  · cases hs

/-! ## The step and the run -/

theorem Inv.advance (h : Inv s) {now : Instant} (hs : s.advance pid now = some s') : Inv s' := by
  unfold CheckoutSystem.advance at hs
  split at hs
  · rename_i providerKey providerReference hpid
    have hnot : (s.callbacks pid).owes = false := by rw [hpid]; rfl
    split at hs <;> cases hs
    · exact h.setCallback hnot rfl trivial
    · exact h.setCallback hnot rfl trivial
  · rename_i attempt hpid
    have hnot : (s.callbacks pid).owes = false := by rw [hpid]; rfl
    split at hs
    · cases hs
      exact h.setCallback hnot rfl trivial
    · rename_i intent hintent
      cases hs
      have hcharge := h.intents intent (mem_of_find?_eq_some hintent)
      refine h.setCallback hnot ?_ ?_
      · unfold afterLoadAttempt
        split_ifs <;> rfl
      · unfold afterLoadAttempt
        split_ifs <;> exact hcharge
  · cases hs

theorem inv_step {e : CheckoutStep} (h : Inv s) (hgood : s.NothingLost e)
    (hs : s.step e = some s') : Inv s' := by
  cases e with
  | createIntent =>
    simp only [step] at hs
    split at hs
    · rename_i hcre
      split at hs
      · cases hs
      rename_i payment hins
      cases hs
      exact h.createIntent hcre.2 hins
    · cases hs
  | expireIntent intentId =>
    cases hs
    exact h.expireIntent intentId
  | insertAttempt =>
    simp only [step] at hs
    split at hs
    · cases hs
    split at hs
    · cases hs
    rename_i payment hins
    cases hs
    exact h.insertAttempt rfl hins
  | cancelOrder reason now =>
    cases hs
    exact h.cancelOrder reason now
  | cancelBooking =>
    simp only [step] at hs
    split at hs
    · rename_i hpend
      cases hs
      refine h.booking fun hconf => ?_
      rw [hpend] at hconf
      cases hconf
    · cases hs
  | expireHold now =>
    cases hs
    refine h.booking fun hconf => ?_
    rcases s.booking.expire_cases now with heq | ⟨_, hb, hpend, -⟩
    · rw [heq]
      exact hconf
    · rw [BookingStore.status, hb, map_some, hpend] at hconf
      cases hconf
  | callback =>
    simp only [step] at hs
    split at hs
    · rename_i hidle
      cases hs
      exact h.setCallback (by rw [hidle]; rfl) rfl trivial
    · cases hs
  | advance => exact h.advance hs
  | verified pid =>
    simp only [step] at hs
    split at hs
    · rename_i attempt intent hpid
      cases hs
      have hcallback := h.callbacks pid
      rw [hpid] at hcallback
      exact h.setCallback (by rw [hpid]; rfl) rfl hcallback
    · cases hs
  | record => exact h.recordStep hs
  | requestRefund => exact h.requestStep hgood hs
  | refunded pid answer now =>
    simp only [step] at hs
    split at hs
    · rename_i attemptId refundId hpid
      cases hs
      exact (h.recordAnswer refundId now hgood).setCallback
        (by show (s.callbacks pid).owes = _; rw [hpid]; rfl) rfl trivial
    · cases hs
  | die =>
    cases hs
    exact h.setCallback hgood rfl trivial

theorem Start.inv (h0 : Start s) : Inv s where
  attemptId := by rw [h0.attempts]; simp
  intents := by rw [h0.intents]; simp
  callbacks pid := by rw [h0.callbacks pid]; trivial
  refunds := by rw [h0.refunds]; simp
  captured x hx := by rw [h0.capturedBy] at hx; cases hx
  owes pid x i hpid := by rw [h0.callbacks pid] at hpid; cases hpid
  once p q x i j hp := by rw [h0.callbacks p] at hp; cases hp
  settled := by rw [h0.attempts]; simp

/-- In a run whose steps lose nothing, every succeeded attempt is applied or given back once a
final callback has returned for it. -/
theorem settled_run {es : List CheckoutStep} (h0 : Start s)
    (hgood : Along step NothingLost s es) (hrun : runFrom step s es = some t) : t.Settled :=
  (runFrom_invariant_along (I := Inv) (fun _ _ _ h hg hs => inv_step h hg hs) h0.inv hgood
    hrun).settled_of

/-! ## A hold that lapses at the gateway -/

/-- An order of 500 for a booking that is held. -/
def heldBooking : CheckoutSystem where
  payment := ⟨[], [], [], []⟩
  order := {
    order := some {
      id := 1
      sourceType := .booking
      sourceId := 2
      customerId := 3
      sellerPartyType := .professional
      sellerPartyId := 4
      status := .pending
      totalToman := 500
      refundedTotalToman := 0
      collectedTotalToman := 0
      paidAt := none
      cancelledAt := none }
    schedule := some ⟨500, 500, 0⟩
    outbox := [] }
  booking := ⟨some ⟨2, .pending, 6, 900, 0, none, none⟩, [], []⟩
  callbacks := fun _ => .idle
  capturedBy := none

theorem heldBooking_start : Start heldBooking := ⟨rfl, rfl, rfl, rfl, fun _ => rfl⟩

/-- The gateway confirms the payment, the hold lapses, and the payment is recorded. -/
def lapsedHold : List CheckoutStep :=
  [.createIntent ⟨7, 1, 3, 500, "IRT", .created, "gateway", 100, none, none⟩,
    .insertAttempt 7 8 "reference" "redirect", .callback 0 "gateway" "reference", .advance 0 10,
    .advance 0 10, .verified 0 ⟨.succeeded, some 500, some "IRT", some "transaction", none⟩,
    .expireHold 20, .record 0 true 21]

/-- The gateway sends the customer back once more. -/
def secondCallback : List CheckoutStep :=
  [.callback 1 "gateway" "reference", .advance 1 30, .advance 1 30, .record 1 true 31]

theorem settled_run_lapsedHold :
    ∃ t, runFrom step heldBooking (lapsedHold ++
        [.requestRefund 0 9, .refunded 0 (.answered true (some "refund") none) 22] ++
        secondCallback) = some t ∧ t.Settled := by
  have hrun : (runFrom step heldBooking (lapsedHold ++
      [.requestRefund 0 9, .refunded 0 (.answered true (some "refund") none) 22] ++
      secondCallback)).isSome = true := by decide +kernel
  obtain ⟨t, ht⟩ := isSome_iff_exists.1 hrun
  exact ⟨t, ht, settled_run heldBooking_start (by decide +kernel) ht⟩

/-- The callback dies before it asks for the refund, and the retry finds the attempt recorded:
the payment is neither applied nor given back. -/
theorem settled_crash_fails :
    Start heldBooking ∧ ∃ t,
      runFrom step heldBooking (lapsedHold ++ [.die 0] ++ secondCallback) = some t ∧
        ¬t.Settled := by
  obtain ⟨t, ht, h0, h1, hrefs, hexp, hsrc, a, ha, hid, hstat⟩ :
      ∃ t ∈ runFrom step heldBooking (lapsedHold ++ [.die 0] ++ secondCallback),
        t.callbacks 0 = .threw ∧ t.callbacks 1 = .returned 8 ∧ t.payment.refunds = [] ∧
        t.booking.status = some .expired ∧ t.order.order.map (·.sourceType) = some .booking ∧
        ∃ a ∈ t.payment.attempts, a.id = 8 ∧ a.status = .succeeded := by
    decide +kernel
  refine ⟨heldBooking_start, t, ht, fun hsettle => ?_⟩
  have hfinal : t.Final a.id := by
    refine ⟨⟨1, by rw [h1, hid]⟩, ?_⟩
    rintro (_ | _ | q)
    · rw [h0]; simp [Callback.attemptId]
    · rw [h1]; simp [Callback.attemptId]
    · -- no callback but these two has moved
      have hidle : (runFrom step heldBooking (lapsedHold ++ [.die 0] ++ secondCallback)).map
          (fun t => t.callbacks (q + 2)) = some .idle := rfl
      rw [ht] at hidle
      rw [show t.callbacks (q + 1 + 1) = .idle from some_injective _ hidle]
      simp [Callback.attemptId]
  rcases hsettle a ha hstat hfinal with ⟨-, _, ho, -, hbook⟩ | ⟨_, hr, -⟩
  · rw [ho] at hsrc
    rw [hbook (some_injective _ hsrc)] at hexp
    cases hexp
  · rw [hrefs] at hr
    cases hr

end CheckoutSystem

end BeauClick.Checkout
