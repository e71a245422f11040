import BeauClick.Financial.FundJournal
import BeauClick.Financial.Ledger
import BeauClick.Lib.Delivery

/-!
# Whether the fund journal converges

The ledger projections of `apps/api/src/events/financial-projection.handlers.ts`:
the capture of an order's money goes to the fund journal, its refunds go to the
regime that holds the collection.  The relay delivers every event at least once
and retries one whose handler throws.
-/

namespace BeauClick.Financial

open Money Commerce FundStore Delivery List

/-! ## The handlers -/

/-- The financial schema. -/
structure FinancialStore where
  ledger : LedgerStore
  fund : FundStore

/-- What a ledger handler throws. -/
inductive HandlerError where
  | noPaymentIntent
  | fund (err : FundError)
  | ledger (err : LedgerError)

/-- What the collection handlers read of `OrderPaid` and `OrderCollectionCaptured`. -/
structure CaptureFact where
  orderId : Uuid
  party : FundParty
  collectedToman : ℤ
  deriving DecidableEq

/-- What the refund handler reads of `OrderRefunded`. -/
structure RefundFact where
  orderId : Uuid
  refundId : Uuid
  refundAmountToman : ℤ
  deriving DecidableEq

/-- `OrderPaidLedgerHandler.handle`, which `OrderCollectionCapturedLedgerHandler`
inherits.  `intent` is the answer of `findLiveIntentForOrder`. -/
def CaptureFact.handle (payload : CaptureFact) (intent : Option Uuid) (s : FinancialStore) :
    Except HandlerError FinancialStore :=
  match intent with
  | none => if payload.collectedToman = 0 then .ok s else .error .noPaymentIntent
  | some intentId =>
    match s.fund.recordCollection
        ⟨payload.orderId, payload.party, .ofInt payload.collectedToman, intentId⟩ with
    | .error err => .error (.fund err)
    | .ok (_, fund) => .ok { s with fund := fund }

/-- The ledger counts the refund of the event. -/
def RefundFact.handle (payload : RefundFact) (s : FinancialStore) :
    Except HandlerError FinancialStore :=
  if s.ledger.hasLegacyPayment payload.orderId then
    match s.ledger.recordRefund
        ⟨payload.orderId, payload.refundId, .ofInt payload.refundAmountToman⟩ with
    | .error err => .error (.ledger err)
    | .ok (_, ledger) => .ok { s with ledger := ledger }
  else
    match s.fund.recordRefund
        ⟨payload.orderId, payload.refundId, .ofInt payload.refundAmountToman⟩ with
    | .error err => .error (.fund err)
    | .ok (_, fund) => .ok { s with fund := fund }

/-! ## Deliveries -/

/-- One delivery of an event of the order; the intent is seen or not seen by the
collection handler. -/
inductive FundDelivery where
  | capture (intentSeen : Bool)
  | refund (payload : RefundFact)
  deriving DecidableEq

/-- One delivery to the store.  A handler that throws writes nothing. -/
def FinancialStore.deliver (capture : CaptureFact) (intentId : Uuid) (s : FinancialStore)
    (d : FundDelivery) : FinancialStore :=
  let result :=
    match d with
    | .capture intentSeen => capture.handle (if intentSeen then some intentId else none) s
    | .refund payload => payload.handle s
  match result with
  | .ok s' => s'
  | .error _ => s

/-- The refunds recorded so far, once the collection is recorded. -/
abbrev Recorded := Option (List RefundFact)

/-- One delivery to the abstract model; a legacy order's refunds go elsewhere. -/
def Recorded.deliver (legacy : Bool) : Recorded → FundDelivery → Recorded
  | none, .capture true => some []
  | none, _ => none
  | some seen, .capture _ => some seen
  | some seen, .refund payload => if legacy then some seen else some (remember payload seen)

/-- The refund is delivered after a delivery of the capture that saw its intent. -/
def AfterCapture (payload : RefundFact) : List FundDelivery → Prop
  | [] => False
  | .capture true :: ds => .refund payload ∈ ds
  | _ :: ds => AfterCapture payload ds

/-- What the events of an order guarantee: a positive collection, and different
positive refunds of the order within it. -/
structure OrderFacts (capture : CaptureFact) (refunds : List RefundFact) : Prop where
  positive : 0 < capture.collectedToman
  bounded : capture.collectedToman ≤ maxAmountToman
  distinct : refunds.Nodup
  ids : ∀ r ∈ refunds, ∀ r' ∈ refunds, r.refundId = r'.refundId → r = r'
  ofOrder : ∀ r ∈ refunds, r.orderId = capture.orderId
  refundPositive : ∀ r ∈ refunds, 0 < r.refundAmountToman
  refundBounded : ∀ r ∈ refunds, r.refundAmountToman ≤ maxAmountToman
  ceiling : (refunds.map (·.refundAmountToman)).sum ≤ capture.collectedToman

/-- The fund journal has nothing about the order yet. -/
structure Unrecorded (s : FinancialStore) (capture : CaptureFact) (intentId : Uuid)
    (refunds : List RefundFact) : Prop where
  components : s.fund.NoComponents
  postings : ∀ p ∈ s.fund.postings, p.orderId ≠ capture.orderId
  collectionKey : ¬s.fund.HasKey (.collection intentId)
  refundKeys : ∀ r ∈ refunds, ¬s.fund.HasKey (.refund r.refundId)

/-- The order's fund state is what its distinct events say. -/
def Converged (s : FinancialStore) (capture : CaptureFact) (refunds : List RefundFact) : Prop :=
  s.fund.balanceOf capture.orderId .pending =
      capture.collectedToman - (refunds.map (·.refundAmountToman)).sum ∧
    s.fund.balanceOf capture.orderId .refunded = (refunds.map (·.refundAmountToman)).sum

/-! ## The abstract model -/

section Model

variable (legacy : Bool) (payload : RefundFact)

/-- Once the collection is recorded, the refunds recorded later are those of a
new-regime order that were delivered. -/
theorem mem_foldl_some (seen : List RefundFact) (ds : List FundDelivery) :
    ∃ seen', ds.foldl (Recorded.deliver legacy) (some seen) = some seen' ∧
      (payload ∈ seen' ↔ payload ∈ seen ∨ (legacy = false ∧ .refund payload ∈ ds)) := by
  induction ds generalizing seen with
  | nil => exact ⟨seen, rfl, by simp⟩
  | cons d ds ih =>
    cases d with
    | capture =>
      obtain ⟨seen', hfold, hmem⟩ := ih seen
      exact ⟨seen', hfold, by simpa using hmem⟩
    | refund r =>
      cases legacy with
      | true =>
        obtain ⟨seen', hfold, hmem⟩ := ih seen
        exact ⟨seen', hfold, by simpa using hmem⟩
      | false =>
        obtain ⟨seen', hfold, hmem⟩ := ih (remember r seen)
        refine ⟨seen', hfold, hmem.trans ?_⟩
        rw [mem_remember]
        simp only [true_and, mem_cons, FundDelivery.refund.injEq]
        tauto

/-- Once the capture was delivered with its intent, the refunds recorded are those of
a new-regime order that were delivered after it. -/
theorem mem_foldl_none {ds : List FundDelivery} (hcap : .capture true ∈ ds) :
    ∃ seen, ds.foldl (Recorded.deliver legacy) none = some seen ∧
      (payload ∈ seen ↔ legacy = false ∧ AfterCapture payload ds) := by
  induction ds with
  | nil => simp at hcap
  | cons d ds ih =>
    by_cases hfirst : d = .capture true
    · subst hfirst
      obtain ⟨seen, hfold, hmem⟩ := mem_foldl_some legacy payload [] ds
      exact ⟨seen, hfold, by simpa [AfterCapture] using hmem⟩
    · have hlater : .capture true ∈ ds := by
        rcases mem_cons.1 hcap with heq | hlater
        · exact absurd heq.symm hfirst
        exact hlater
      obtain ⟨seen, hfold, hmem⟩ := ih hlater
      have hstep : Recorded.deliver legacy none d = none := by
        cases d with
        | capture intentSeen =>
          cases intentSeen with
          | true => exact absurd rfl hfirst
          | false => rfl
        | refund => rfl
      refine ⟨seen, by rw [foldl_cons, hstep, hfold], ?_⟩
      cases d with
      | capture intentSeen =>
        cases intentSeen with
        | true => exact absurd rfl hfirst
        | false => exact hmem
      | refund => exact hmem

end Model

/-! ## The refinement -/

/-- The store holds what the abstract model says about the order. -/
inductive Represents (capture : CaptureFact) (intentId : Uuid) (refunds : List RefundFact)
    (s : FinancialStore) : Recorded → Prop
  | uncollected (hcomp : s.fund.NoComponents) (hparty : s.fund.partyOf capture.orderId = none)
      (hkey : ¬s.fund.HasKey (.collection intentId))
      (hkeys : ∀ r ∈ refunds, ¬s.fund.HasKey (.refund r.refundId))
      (hpending : s.fund.balanceOf capture.orderId .pending = 0)
      (hcollected : s.fund.balanceOf capture.orderId .collected = 0)
      (hrefunded : s.fund.balanceOf capture.orderId .refunded = 0) :
      Represents capture intentId refunds s none
  | collected (seen : List RefundFact) (hcomp : s.fund.NoComponents)
      (hparty : s.fund.partyOf capture.orderId = some capture.party)
      (hkey : s.fund.HasKey (.collection intentId))
      (hkeys : ∀ r ∈ refunds, s.fund.HasKey (.refund r.refundId) ↔ r ∈ seen)
      (hseen : seen.Nodup) (hsub : ∀ r ∈ seen, r ∈ refunds)
      (hpending : s.fund.balanceOf capture.orderId .pending =
        capture.collectedToman - (seen.map (·.refundAmountToman)).sum)
      (hrefunded : s.fund.balanceOf capture.orderId .refunded =
        (seen.map (·.refundAmountToman)).sum) :
      Represents capture intentId refunds s (some seen)

variable {capture : CaptureFact} {intentId : Uuid} {refunds : List RefundFact} {s : FinancialStore}
  {fact : Recorded}

theorem represents_unrecorded (h : Unrecorded s capture intentId refunds) :
    Represents capture intentId refunds s none := by
  have hbal : ∀ account, s.fund.balanceOf capture.orderId account = 0 := by
    intro account
    rw [balanceOf, stateOf]
    cases hlatest : Table.latestWhere
        (fun p : FundPostingEntity => p.orderId = capture.orderId ∧ p.account = account)
        (·.seq) s.fund.postings with
    | none => rfl
    | some p =>
      obtain ⟨hp, hord, -⟩ := Table.latestWhere_eq_some hlatest
      exact absurd hord (h.postings p hp)
  refine .uncollected h.components ?_ h.collectionKey h.refundKeys (hbal _) (hbal _)
    (hbal _)
  rw [partyOf, Option.map_eq_none_iff, find?_eq_none]
  intro p hp
  simpa using h.postings p hp

/-- Refunds of an order are within what has been collected. -/
theorem OrderFacts.within {seen : List RefundFact} (h : OrderFacts capture refunds)
    (hseen : seen.Nodup) (hsub : ∀ r ∈ seen, r ∈ refunds) :
    0 ≤ (seen.map (·.refundAmountToman)).sum ∧
      (seen.map (·.refundAmountToman)).sum ≤ capture.collectedToman := by
  constructor
  · refine sum_nonneg ?_
    intro a ha
    obtain ⟨r, hr, rfl⟩ := mem_map.1 ha
    exact (h.refundPositive r (hsub r hr)).le
  · exact (sum_le_of_subset hseen hsub fun r hr => (h.refundPositive r hr).le).trans h.ceiling

open FinancialStore RefundFact in
/-- A refund that has been recorded changes nothing. -/
theorem deliver_refund_again {payload : RefundFact} (hcomp : s.fund.NoComponents)
    (hlegacy : s.ledger.hasLegacyPayment payload.orderId = false)
    (hkey : s.fund.HasKey (.refund payload.refundId)) :
    s.deliver capture intentId (.refund payload) = s := by
  cases hrec : s.fund.recordRefund
      ⟨payload.orderId, payload.refundId, .ofInt payload.refundAmountToman⟩ with
  | error => simp [deliver, handle, hlegacy, hrec]
  | ok =>
    rcases recordRefund_cases hcomp hrec with ⟨heq, -⟩ | ⟨_, _, -, -, -, hnew, -⟩
    · simp [deliver, handle, hlegacy, hrec, heq]
    · exact absurd hkey hnew

section

variable (h : Represents capture intentId refunds s fact)
include h

open FinancialStore

theorem represents_capture (hfacts : OrderFacts capture refunds) (legacy : Bool) :
    Represents capture intentId refunds (s.deliver capture intentId (.capture true))
      (fact.deliver legacy (.capture true)) := by
  have hamt := assertNonNegativeAmount_ofInt hfacts.positive.le hfacts.bounded
  have hpos := hfacts.positive
  have hne : capture.collectedToman ≠ 0 := by omega
  cases h with
  | uncollected hcomp hparty hkey hkeys hpend hcoll hrefd =>
    obtain ⟨fund, hfund, hpost⟩ := recordCollection_posted (s := s.fund)
      (i := ⟨capture.orderId, capture.party, .ofInt capture.collectedToman, intentId⟩)
      hcomp hamt hne hkey (by rw [hparty]; simp) (by rw [hpend]; omega)
      (by rw [hcoll]; omega)
    have hdeliv : s.deliver capture intentId (.capture true) = { s with fund := fund } := by
      simp [deliver, CaptureFact.handle, hfund]
    rw [hdeliv]
    refine .collected [] hpost.components ?_ ?_ ?_ nodup_nil (by simp) ?_ ?_
    · rw [hpost.partyOf, if_pos rfl]
    · exact (hpost.hasKey_iff _).2 (Or.inr rfl)
    · intro r hr
      rw [hpost.hasKey_iff]
      simpa using hkeys r hr
    · have hchange := hpost.balanceOf capture.orderId .pending
      simpa [hpend] using hchange
    · have hchange := hpost.balanceOf capture.orderId .refunded
      simpa [hrefd] using hchange
  | collected seen hcomp hparty hkey hkeys hseen hsub hpend hrefd =>
    have hdeliv : s.deliver capture intentId (.capture true) = s := by
      cases hrec : s.fund.recordCollection
          ⟨capture.orderId, capture.party, .ofInt capture.collectedToman, intentId⟩ with
      | error => simp [deliver, CaptureFact.handle, hrec]
      | ok =>
        rcases recordCollection_cases hcomp hrec with ⟨heq, -⟩ | ⟨-, -, -, hnew, -⟩
        · simp [deliver, CaptureFact.handle, hrec, heq]
        · exact absurd hkey hnew
    rw [hdeliv]
    exact .collected seen hcomp hparty hkey hkeys hseen hsub hpend hrefd

open RefundFact

theorem represents_refund {payload : RefundFact} (hfacts : OrderFacts capture refunds)
    (hmem : payload ∈ refunds) (hlegacy : s.ledger.hasLegacyPayment capture.orderId = false) :
    Represents capture intentId refunds (s.deliver capture intentId (.refund payload))
        (fact.deliver false (.refund payload)) ∧
      (s.deliver capture intentId (.refund payload)).ledger = s.ledger := by
  have hpos := hfacts.refundPositive payload hmem
  have hamt := assertNonNegativeAmount_ofInt hpos.le (hfacts.refundBounded payload hmem)
  have hne : payload.refundAmountToman ≠ 0 := by omega
  have hord := hfacts.ofOrder payload hmem
  have hroute : s.ledger.hasLegacyPayment payload.orderId = false := by rw [hord, hlegacy]
  cases h with
  | uncollected hcomp hparty hkey hkeys hpend hcoll hrefd =>
    have hdeliv : s.deliver capture intentId (.refund payload) = s := by
      simp [deliver, handle, hlegacy, recordRefund, hamt, hne, hord,
        hparty]
    rw [hdeliv]
    exact ⟨.uncollected hcomp hparty hkey hkeys hpend hcoll hrefd, rfl⟩
  | collected seen hcomp hparty hkey hkeys hseen hsub hpend hrefd =>
    by_cases hagain : payload ∈ seen
    · have hdeliv : s.deliver capture intentId (.refund payload) = s :=
        deliver_refund_again hcomp hroute ((hkeys payload hmem).2 hagain)
      have hfact : Recorded.deliver false (some seen) (.refund payload) = some seen := by
        simp [Recorded.deliver, remember_of_mem hagain]
      rw [hdeliv, hfact]
      exact ⟨.collected seen hcomp hparty hkey hkeys hseen hsub hpend hrefd, rfl⟩
    · have hnodup : (remember payload seen).Nodup := nodup_remember hseen
      have hsub' : ∀ r ∈ remember payload seen, r ∈ refunds := by
        intro r hr
        rcases mem_remember.1 hr with hr | rfl
        · exact hsub r hr
        · exact hmem
      have hsum : ((remember payload seen).map (·.refundAmountToman)).sum =
          (seen.map (·.refundAmountToman)).sum + payload.refundAmountToman := by
        rw [sum_remember, if_neg hagain]
      obtain ⟨hnonneg, -⟩ := hfacts.within hseen hsub
      -- the refunds recorded so far and this one are still within the collection
      obtain ⟨-, hle⟩ := hfacts.within hnodup hsub'
      obtain ⟨fund, hfund, hpost⟩ := recordRefund_posted (s := s.fund)
        (i := ⟨payload.orderId, payload.refundId, .ofInt payload.refundAmountToman⟩)
        hcomp hamt hne (fun hk => hagain ((hkeys payload hmem).1 hk))
        (by rw [hord]; exact hparty) (by rw [hord, hrefd]; omega)
        (by rw [hord, hpend]; omega)
      have hdeliv : s.deliver capture intentId (.refund payload) = { s with fund := fund } := by
        simp [deliver, handle, hroute, hfund]
      rw [hdeliv]
      refine ⟨.collected (remember payload seen) hpost.components ?_ ?_ ?_ hnodup hsub' ?_ ?_,
        rfl⟩
      · rw [hpost.partyOf, if_pos hord.symm]
      · exact (hpost.hasKey_iff _).2 (Or.inl hkey)
      · intro r hr
        rw [hpost.hasKey_iff, hkeys r hr, mem_remember]
        have hid : FundJournalKey.refund r.refundId = .refund payload.refundId ↔ r = payload := by
          simp only [FundJournalKey.refund.injEq]
          exact ⟨hfacts.ids r hr payload hmem, fun h => by rw [h]⟩
        rw [hid]
      · have hchange := hpost.balanceOf capture.orderId .pending
        rw [if_pos hord.symm, refundChange_pending] at hchange
        rw [hchange]
        omega
      · have hchange := hpost.balanceOf capture.orderId .refunded
        rw [if_pos hord.symm, refundChange_refunded, hrefd] at hchange
        rw [hchange, hsum]

end

theorem deliver_refund_legacy (capture : CaptureFact) (intentId : Uuid) {payload : RefundFact}
    (hlegacy : s.ledger.hasLegacyPayment payload.orderId = true) :
    (s.deliver capture intentId (.refund payload)).fund = s.fund ∧
      (s.deliver capture intentId (.refund payload)).ledger.hasLegacyPayment payload.orderId =
        true := by
  cases hrec : s.ledger.recordRefund
      ⟨payload.orderId, payload.refundId, .ofInt payload.refundAmountToman⟩ with
  | error => simp [FinancialStore.deliver, RefundFact.handle, hlegacy, hrec]
  | ok =>
    simp only [FinancialStore.deliver, RefundFact.handle, hlegacy, if_true, hrec, true_and]
    exact hasLegacyPayment_recordRefund hrec hlegacy

theorem deliver_capture_ledger (intentSeen : Bool) :
    (s.deliver capture intentId (.capture intentSeen)).ledger = s.ledger := by
  unfold FinancialStore.deliver CaptureFact.handle
  dsimp only
  split
  · rename_i s' hs'
    split at hs'
    · split at hs'
      · injection hs' with hs'
        rw [← hs']
      · cases hs'
    · split at hs'
      · cases hs'
      injection hs' with hs'
      rw [← hs']
  · rfl

theorem Represents.congr_fund {s' : FinancialStore} (heq : s'.fund = s.fund)
    (h : Represents capture intentId refunds s fact) :
    Represents capture intentId refunds s' fact := by
  cases h with
  | uncollected hcomp hparty hkey hkeys hpend hcoll hrefd =>
    rw [← heq] at hcomp hparty hkey hkeys hpend hcoll hrefd
    exact .uncollected hcomp hparty hkey hkeys hpend hcoll hrefd
  | collected seen hcomp hparty hkey hkeys hseen hsub hpend hrefd =>
    rw [← heq] at hcomp hparty hkey hkeys hpend hrefd
    exact .collected seen hcomp hparty hkey hkeys hseen hsub hpend hrefd

theorem represents_deliver {legacy : Bool} {d : FundDelivery} (hfacts : OrderFacts capture refunds)
    (hd : ∀ r, d = .refund r → r ∈ refunds)
    (hlegacy : s.ledger.hasLegacyPayment capture.orderId = legacy)
    (h : Represents capture intentId refunds s fact) :
    Represents capture intentId refunds (s.deliver capture intentId d) (fact.deliver legacy d) ∧
      (s.deliver capture intentId d).ledger.hasLegacyPayment capture.orderId = legacy := by
  cases d with
  | capture intentSeen =>
    refine ⟨?_, by rw [deliver_capture_ledger, hlegacy]⟩
    cases intentSeen with
    | true => exact represents_capture h hfacts legacy
    | false =>
      have hne : capture.collectedToman ≠ 0 := by
        have hpos := hfacts.positive
        omega
      have hdeliv : s.deliver capture intentId (.capture false) = s := by
        simp [FinancialStore.deliver, CaptureFact.handle, hne]
      have hfact : fact.deliver legacy (.capture false) = fact := by cases fact <;> rfl
      rw [hdeliv, hfact]
      exact h
  | refund payload =>
    have hmem := hd payload rfl
    have hord := hfacts.ofOrder payload hmem
    cases legacy with
    | true =>
      rw [← hord] at hlegacy
      obtain ⟨hfund, hstill⟩ := deliver_refund_legacy capture intentId hlegacy
      have hfact : fact.deliver true (.refund payload) = fact := by cases fact <;> rfl
      rw [hfact, ← hord]
      exact ⟨h.congr_fund hfund, hstill⟩
    | false =>
      obtain ⟨hrep, hled⟩ := represents_refund h hfacts hmem hlegacy
      exact ⟨hrep, by rw [hled, hlegacy]⟩

theorem represents_foldl {legacy : Bool} (ds : List FundDelivery)
    (hfacts : OrderFacts capture refunds) (hds : ∀ r, .refund r ∈ ds → r ∈ refunds)
    (hlegacy : s.ledger.hasLegacyPayment capture.orderId = legacy)
    (h : Represents capture intentId refunds s fact) :
    Represents capture intentId refunds (ds.foldl (FinancialStore.deliver capture intentId) s)
      (ds.foldl (Recorded.deliver legacy) fact) := by
  induction ds generalizing s fact with
  | nil => exact h
  | cons d ds ih =>
    have hd : ∀ r, d = .refund r → r ∈ refunds := by
      rintro r rfl
      exact hds r mem_cons_self
    obtain ⟨hrep, hlegacy'⟩ := represents_deliver hfacts hd hlegacy h
    exact ih (fun r hr => hds r (mem_cons_of_mem _ hr)) hlegacy' hrep

/-- **Convergence.**  Take any deliveries of the events of an order in which the
collection handler saw the intent at least once.  The fund state is what the distinct
events say exactly when the order is not a legacy one and every refund was delivered
after that — an order without refunds always converges. -/
theorem converges_iff (hfacts : OrderFacts capture refunds)
    (hnew : Unrecorded s capture intentId refunds) {ds : List FundDelivery}
    (hds : ∀ r, .refund r ∈ ds → r ∈ refunds) (hcapture : .capture true ∈ ds) :
    Converged (ds.foldl (FinancialStore.deliver capture intentId) s) capture refunds ↔
      ∀ r ∈ refunds, s.ledger.hasLegacyPayment capture.orderId = false ∧ AfterCapture r ds := by
  have hrep := represents_foldl ds hfacts hds rfl (represents_unrecorded hnew)
  have hmem := fun r => mem_foldl_none (s.ledger.hasLegacyPayment capture.orderId) r hcapture
  obtain ⟨seen, hfold⟩ : ∃ seen, ds.foldl
      (Recorded.deliver (s.ledger.hasLegacyPayment capture.orderId)) none = some seen := by
    obtain ⟨seen, hfold, -⟩ := hmem ⟨0, 0, 0⟩
    exact ⟨seen, hfold⟩
  have hseen : ∀ r, r ∈ seen ↔
      s.ledger.hasLegacyPayment capture.orderId = false ∧ AfterCapture r ds := by
    intro r
    obtain ⟨_, hfold', hiff⟩ := hmem r
    rw [hfold] at hfold'
    rw [Option.some.inj hfold']
    exact hiff
  rw [hfold] at hrep
  cases hrep with
  | collected _ _ _ _ _ hnodup hsub hpend hrefd =>
    simp only [← hseen]
    rw [Converged, hpend, hrefd]
    constructor
    · rintro ⟨-, hsum⟩ r hr
      by_contra hmiss
      -- a refund that was not recorded makes the recorded ones weigh less
      have hsub' : ∀ r' ∈ remember r seen, r' ∈ refunds := by
        intro r' hr'
        rcases mem_remember.1 hr' with hr' | rfl
        · exact hsub r' hr'
        · exact hr
      have hle := sum_le_of_subset (f := fun r : RefundFact => r.refundAmountToman)
        (nodup_remember (x := r) hnodup) hsub' fun r hr => (hfacts.refundPositive r hr).le
      rw [sum_remember, if_neg hmiss] at hle
      have hpos := hfacts.refundPositive r hr
      omega
    · intro hall
      have hsum := sum_eq_of_covers (f := fun r : RefundFact => r.refundAmountToman) hnodup
        hfacts.distinct hsub hall
      exact ⟨by rw [hsum], hsum⟩

/-! ## A refund delivered before the collection -/

/-- An order that collected 100 Toman. -/
def hundredCollected : CaptureFact := ⟨1, ⟨.professional, 4⟩, 100⟩

/-- A refund of 30 of them. -/
def thirtyRefunded : RefundFact := ⟨1, 7, 30⟩

/-- Empty financial tables. -/
def emptyFinancial : FinancialStore := ⟨⟨[], []⟩, ⟨[], [], []⟩⟩

theorem hundredCollected_facts : OrderFacts hundredCollected [thirtyRefunded] where
  positive := by decide
  bounded := by decide
  distinct := by simp
  ids := by simp
  ofOrder := by simp [thirtyRefunded, hundredCollected]
  refundPositive := by simp [thirtyRefunded]
  refundBounded := by simp [thirtyRefunded, maxAmountToman]
  ceiling := by decide

theorem emptyFinancial_unrecorded :
    Unrecorded emptyFinancial hundredCollected 10 [thirtyRefunded] where
  components := by simp [emptyFinancial, NoComponents]
  postings := by simp [emptyFinancial]
  collectionKey := by simp [emptyFinancial, HasKey]
  refundKeys := by simp [emptyFinancial, HasKey]

/-- Delivered again after the collection, the refund is recorded. -/
theorem converges_iff_redelivered :
    Converged ([.refund thirtyRefunded, .capture true, .refund thirtyRefunded].foldl
      (FinancialStore.deliver hundredCollected 10) emptyFinancial) hundredCollected
      [thirtyRefunded] := by
  refine (converges_iff hundredCollected_facts emptyFinancial_unrecorded ?_ ?_).2 ?_
  · simp
  · simp
  · simp [AfterCapture, emptyFinancial, LedgerStore.hasLegacyPayment]

/-- Delivered once, before the collection: its handler reports success, and the
refund is never recorded. -/
theorem converges_refundFirst_fails :
    thirtyRefunded.handle emptyFinancial = .ok emptyFinancial ∧
      ¬Converged ([.refund thirtyRefunded, .capture true].foldl
        (FinancialStore.deliver hundredCollected 10) emptyFinancial) hundredCollected
        [thirtyRefunded] := by
  refine ⟨rfl, ?_⟩
  rintro ⟨-, hrefd⟩
  exact absurd hrefd (by decide)

end BeauClick.Financial
