import BeauClick.Financial.Convergence
import BeauClick.Lib.Runs

/-!
# One accounting regime per order

Any number of relay passes hand the capture and refund events of any number of
orders to the ledger handlers.  Two passes may hold the same row, or two refunds of
one order, at the same time; what they share is the financial schema.
-/

namespace BeauClick.Financial

open Money Commerce FundStore Table Runs LedgerStore List Function

/-! ## Deliveries -/

/-- A row of the commerce outbox that the ledger handlers subscribe to. -/
inductive OutboxRow where
  | capture (payload : CaptureFact)
  | refund (payload : RefundFact)
  deriving DecidableEq

/-- The capture and refund rows of the commerce outbox. -/
structure CommerceOutbox where
  captures : List CaptureFact
  refunds : List RefundFact

def CommerceOutbox.Has (outbox : CommerceOutbox) : OutboxRow → Prop
  | .capture payload => payload ∈ outbox.captures
  | .refund payload => payload ∈ outbox.refunds

instance (outbox : CommerceOutbox) : DecidablePred outbox.Has := fun row =>
  match row with
  | .capture payload => inferInstanceAs (Decidable (payload ∈ outbox.captures))
  | .refund payload => inferInstanceAs (Decidable (payload ∈ outbox.refunds))

namespace FinancialStore

/-- The order has a legacy payment. -/
def Legacy (s : FinancialStore) (orderId : Uuid) : Prop :=
  s.ledger.hasLegacyPayment orderId = true

/-- The order has a `collection` journal. -/
def HasCollection (s : FinancialStore) (orderId : Uuid) : Prop :=
  ∃ j ∈ s.fund.journals, j.kind = .collection ∧ j.sourceId = orderId

/-- The ledger holds one side of the refund's reversal. -/
def ReversedSide (s : FinancialStore) (entryType : LedgerEntryType) (payload : RefundFact) : Prop :=
  ∃ e ∈ s.ledger.entries, isReversal entryType e ∧ e.referenceId = payload.refundId

instance (s : FinancialStore) (entryType : LedgerEntryType) :
    DecidablePred (s.ReversedSide entryType) := fun _ =>
  inferInstanceAs (Decidable (∃ e ∈ s.ledger.entries, _))

/-- The refund has a reversal in the ledger. -/
def Reversed (s : FinancialStore) (payload : RefundFact) : Prop := s.ReversedSide .commission payload
  deriving Decidable

/-- The refund has a journal. -/
def Journaled (s : FinancialStore) (payload : RefundFact) : Prop :=
  s.fund.HasKey (.refund payload.refundId)

/-- One side of the order's ledger. -/
def ledgerSum (s : FinancialStore) (entryType : LedgerEntryType) (orderId : Uuid) : ℤ :=
  sumWhere (·.entryType = entryType) (·.amountToman) (s.ledger.entriesForOrder orderId)

/-- What the order's legacy payment amounts to, both sides together. -/
def paymentToman (s : FinancialStore) (orderId : Uuid) : ℤ :=
  sumWhere (·.referenceType = .orderPayment) (·.amountToman) (s.ledger.entriesForOrder orderId)

/-- What the order's reversed refunds amount to. -/
def reversedToman (outbox : CommerceOutbox) (s : FinancialStore) (orderId : Uuid) : ℤ :=
  sumWhere (fun r => r.orderId = orderId ∧ s.Reversed r) (·.refundAmountToman) outbox.refunds

end FinancialStore

/-- The next statement of a delivery: one row in the hands of one relay pass. -/
inductive LedgerDelivery where
  | idle
  /-- The pass read the row while it was unpublished. -/
  | fetched (row : OutboxRow)
  | recordCollection (payload : CaptureFact) (intentId : Uuid)
  /-- Routed to the ledger. -/
  | readRows (payload : RefundFact)
  | insertReversal (payload : RefundFact) (rows : List LedgerEntryEntity) (rev : Reversal)
  /-- Routed to the fund journal. -/
  | recordFundRefund (payload : RefundFact)
  /-- The handler returned. -/
  | returned (row : OutboxRow)
  | finished

/-- The financial schema and the deliveries at work on it. -/
structure RegimeSystem where
  store : FinancialStore
  deliveries : ℕ → LedgerDelivery
  /-- The rows marked published. -/
  published : List OutboxRow
  /-- The refunds whose handler returned. -/
  handled : List RefundFact

/-- One step.  `intent` is what `findLiveIntentForOrder` answers, where it is asked. -/
inductive RegimeStep where
  | fetch (did : ℕ) (row : OutboxRow)
  | advance (did : ℕ) (intent : Option Uuid)
  | publish (did : ℕ)
  | die (did : ℕ)

namespace RegimeSystem

def setDelivery (s : RegimeSystem) (did : ℕ) (d : LedgerDelivery) : RegimeSystem :=
  { s with deliveries := update s.deliveries did d }

/-- The refund handler returns, over the store it leaves behind. -/
def handle (s : RegimeSystem) (did : ℕ) (payload : RefundFact) (store : FinancialStore) :
    RegimeSystem :=
  { s with
    store := store
    deliveries := update s.deliveries did (.returned (.refund payload))
    handled := s.handled ++ [payload] }

/-- The request `LedgerService.recordRefund` gets. -/
def refundInput (payload : RefundFact) : RecordRefundInput :=
  ⟨payload.orderId, payload.refundId, .ofInt payload.refundAmountToman⟩

/-- The next statement of a delivery. -/
def advance (s : RegimeSystem) (did : ℕ) (intent : Option Uuid) : Option RegimeSystem :=
  match s.deliveries did with
  | .fetched (.capture payload) =>
    match intent with
    | none =>
      if payload.collectedToman = 0 then
        some (s.setDelivery did (.returned (.capture payload)))
      else some (s.setDelivery did .finished)
    | some intentId => some (s.setDelivery did (.recordCollection payload intentId))
  | .recordCollection payload intentId =>
    match s.store.fund.recordCollection
        ⟨payload.orderId, payload.party, .ofInt payload.collectedToman, intentId⟩ with
    | .error _ => some (s.setDelivery did .finished)
    | .ok (_, fund) =>
      some { s.setDelivery did (.returned (.capture payload)) with
        store := { s.store with fund := fund } }
  | .fetched (.refund payload) =>
    if s.store.ledger.hasLegacyPayment payload.orderId then
      some (s.setDelivery did (.readRows payload))
    else some (s.setDelivery did (.recordFundRefund payload))
  | .readRows payload =>
    let rows := s.store.ledger.entriesForOrder payload.orderId
    match reversal rows (refundInput payload) with
    | .error _ => some (s.setDelivery did .finished)
    | .ok none => some (s.handle did payload s.store)
    | .ok (some rev) => some (s.setDelivery did (.insertReversal payload rows rev))
  | .insertReversal payload _ rev =>
    match s.store.ledger.insertReversal rev with
    | .error _ => some (s.setDelivery did .finished)
    | .ok (_, ledger) => some (s.handle did payload { s.store with ledger := ledger })
  | .recordFundRefund payload =>
    match s.store.fund.recordRefund
        ⟨payload.orderId, payload.refundId, .ofInt payload.refundAmountToman⟩ with
    | .error _ => some (s.setDelivery did .finished)
    | .ok (_, fund) => some (s.handle did payload { s.store with fund := fund })
  | _ => none

/-- One step.  A delivery that returned is published, or dies first and is fetched
again; a handler that threw leaves its row unpublished. -/
def step (outbox : CommerceOutbox) (s : RegimeSystem) : RegimeStep → Option RegimeSystem
  | .fetch did row =>
    match s.deliveries did with
    | .idle =>
      if outbox.Has row ∧ row ∉ s.published then some (s.setDelivery did (.fetched row)) else none
    | _ => none
  | .advance did intent => s.advance did intent
  | .publish did =>
    match s.deliveries did with
    | .returned row => some { s.setDelivery did .finished with published := s.published ++ [row] }
    | _ => none
  | .die did => some (s.setDelivery did .finished)

/-! ## The property and the condition -/

/-- One regime per order, reversed exactly in it. -/
structure OneRegime (outbox : CommerceOutbox) (s : RegimeSystem) : Prop where
  exclusive : ∀ orderId, ¬(s.store.Legacy orderId ∧ s.store.HasCollection orderId)
  inLedger : ∀ r ∈ outbox.refunds, s.store.Reversed r → s.store.Legacy r.orderId ∧ ¬s.store.Journaled r
  inJournal : ∀ r ∈ outbox.refunds, s.store.Journaled r → s.store.HasCollection r.orderId ∧ ¬s.store.Reversed r
  handled : ∀ r ∈ s.handled, s.store.Reversed r ∨ s.store.Journaled r
  reversed : ∀ orderId, s.store.Legacy orderId →
    sumWhere (·.orderId = orderId) (·.refundAmountToman) outbox.refunds =
      s.store.paymentToman orderId →
    (∀ r ∈ outbox.refunds, r.orderId = orderId → r ∈ s.handled) →
    s.store.ledgerSum .commission orderId = 0 ∧ s.store.ledgerSum .receivable orderId = 0

/-- **The condition** on the next statement of a delivery.  A capture is recorded for no
legacy order; a reversal that completes the refund of its order is inserted while the rows
it was computed from are still the order's rows; a refund reaches the fund journal after
its collection. -/
def CarefulDelivery (outbox : CommerceOutbox) (s : FinancialStore) : LedgerDelivery → Prop
  | .recordCollection payload intentId =>
    s.Legacy payload.orderId → s.fund.HasKey (.collection intentId)
  | .insertReversal payload rows _ =>
    ¬s.Reversed payload →
    s.reversedToman outbox payload.orderId + payload.refundAmountToman =
      s.paymentToman payload.orderId →
    rows = s.ledger.entriesForOrder payload.orderId
  | .recordFundRefund payload => s.fund.hasCollection payload.orderId = true
  | _ => True

/-- The step meets the condition. -/
def Careful (outbox : CommerceOutbox) (s : RegimeSystem) : RegimeStep → Prop
  | .advance did _ => CarefulDelivery outbox s.store (s.deliveries did)
  | _ => True

instance (outbox : CommerceOutbox) (s : FinancialStore) :
    DecidablePred (CarefulDelivery outbox s) := fun d =>
  match d with
  | .recordCollection payload intentId =>
    inferInstanceAs (Decidable (s.ledger.hasLegacyPayment payload.orderId = true →
      s.fund.HasKey (.collection intentId)))
  | .insertReversal payload rows _ =>
    inferInstanceAs (Decidable (¬s.Reversed payload →
      s.reversedToman outbox payload.orderId + payload.refundAmountToman =
        s.paymentToman payload.orderId →
      rows = s.ledger.entriesForOrder payload.orderId))
  | .recordFundRefund payload =>
    inferInstanceAs (Decidable (s.fund.hasCollection payload.orderId = true))
  | .idle | .fetched _ | .readRows _ | .returned _ | .finished => inferInstanceAs (Decidable True)

instance (outbox : CommerceOutbox) (s : RegimeSystem) : DecidablePred (s.Careful outbox) := fun e =>
  match e with
  | .advance did _ => inferInstanceAs (Decidable (CarefulDelivery outbox s.store (s.deliveries did)))
  | .fetch .. | .publish _ | .die _ => inferInstanceAs (Decidable True)

end RegimeSystem

/-! ## The invariant -/

/-- The events of the outbox: every refund has its own id, positive amount and bound. -/
structure OutboxFacts (outbox : CommerceOutbox) : Prop where
  distinct : outbox.refunds.Nodup
  ids : ∀ r ∈ outbox.refunds, ∀ r' ∈ outbox.refunds, r.refundId = r'.refundId → r = r'
  positive : ∀ r ∈ outbox.refunds, 0 < r.refundAmountToman
  bounded : ∀ r ∈ outbox.refunds, r.refundAmountToman ≤ maxAmountToman

/-- The ledger of a legacy order: its payment pair, and reversals that together took what
the reversed refunds amount to. -/
structure LegacyOrder (outbox : CommerceOutbox) (s : FinancialStore) (orderId : Uuid) : Prop where
  rows : ∃ commission receivable reversals,
    LegacyRows commission receivable reversals (s.ledger.entriesForOrder orderId)
  total : s.ledgerSum .commission orderId + s.ledgerSum .receivable orderId =
    s.paymentToman orderId - s.reversedToman outbox orderId
  commission : s.reversedToman outbox orderId = s.paymentToman orderId →
    s.ledgerSum .commission orderId = 0

/-- What the rows of a run say of one another. -/
structure RegimeRows (outbox : CommerceOutbox) (s : FinancialStore) (handled : List RefundFact) :
    Prop where
  orders : ∀ orderId, s.ledger.entriesForOrder orderId = [] ∨ LegacyOrder outbox s orderId
  reversals : ∀ e ∈ s.ledger.entries, e.referenceType = .orderRefund →
    ∃ r ∈ outbox.refunds, r.refundId = e.referenceId ∧ r.orderId = e.orderId
  pairs : ∀ r ∈ outbox.refunds, s.ReversedSide .receivable r ↔ s.Reversed r
  components : s.fund.NoComponents
  parties : ∀ orderId, s.fund.hasCollection orderId = true → s.HasCollection orderId
  exclusive : ∀ orderId, s.Legacy orderId → ¬s.HasCollection orderId
  journaled : ∀ r ∈ outbox.refunds, s.Journaled r →
    s.HasCollection r.orderId ∧ ¬s.Legacy r.orderId
  handled : ∀ r ∈ handled, s.Reversed r ∨ s.Journaled r

/-- What holds of a delivery in each of its places. -/
def DeliveryInv (outbox : CommerceOutbox) (s : FinancialStore) : LedgerDelivery → Prop
  | .fetched row => outbox.Has row
  | .readRows payload => payload ∈ outbox.refunds ∧ s.Legacy payload.orderId
  | .insertReversal payload rows rev =>
    payload ∈ outbox.refunds ∧ s.Legacy payload.orderId ∧
      reversal rows (RegimeSystem.refundInput payload) = .ok (some rev) ∧
      ∃ commission receivable reversals, LegacyRows commission receivable reversals rows
  | .recordFundRefund payload => payload ∈ outbox.refunds ∧ ¬s.Legacy payload.orderId
  | _ => True

/-- What holds after every step. -/
structure RegimeInv (outbox : CommerceOutbox) (s : RegimeSystem) : Prop where
  rows : RegimeRows outbox s.store s.handled
  deliveries : ∀ did, DeliveryInv outbox s.store (s.deliveries did)

variable {outbox : CommerceOutbox} {s s' : FinancialStore} {handled : List RefundFact}
  {t t' : RegimeSystem} {d : LedgerDelivery} {r : RefundFact} {did : ℕ}

section

variable (h : RegimeRows outbox s handled)
include h

theorem RegimeRows.legacy_of_mem {e : LedgerEntryEntity}
    (he : e ∈ s.ledger.entries) : s.Legacy e.orderId := by
  rcases h.orders e.orderId with hnil | hord
  · have hmem : e ∈ s.ledger.entriesForOrder e.orderId := by
      simp [entriesForOrder, he]
    rw [hnil] at hmem
    simp at hmem
  · obtain ⟨commission, _, _, hrows⟩ := hord.rows
    have hmem : commission ∈ s.ledger.entriesForOrder e.orderId := by
      rw [hrows.rows]
      exact mem_cons_self
    simp only [entriesForOrder, mem_filter, decide_eq_true_eq] at hmem
    simp only [FinancialStore.Legacy, hasLegacyPayment, decide_eq_true_eq]
    exact ⟨commission, hmem.1, hmem.2, hrows.commission⟩

theorem RegimeRows.legacyOrder {orderId : Uuid}
    (hlegacy : s.Legacy orderId) : LegacyOrder outbox s orderId := by
  rcases h.orders orderId with hnil | hord
  · simp only [FinancialStore.Legacy, hasLegacyPayment, decide_eq_true_eq] at hlegacy
    obtain ⟨e, he, hord, -⟩ := hlegacy
    have hmem : e ∈ s.ledger.entriesForOrder orderId := by
      simp [entriesForOrder, he, hord]
    rw [hnil] at hmem
    simp at hmem
  · exact hord

theorem RegimeRows.legacy_of_reversed
    (hfacts : OutboxFacts outbox) (hr : r ∈ outbox.refunds) (hrev : s.Reversed r) :
    s.Legacy r.orderId := by
  obtain ⟨e, he, hside, hid⟩ := hrev
  obtain ⟨r', hr', hid', hord⟩ := h.reversals e he hside.1
  have hsame : r' = r := hfacts.ids r' hr' r hr (hid'.trans hid)
  rw [← hsame, hord]
  exact h.legacy_of_mem he

end

theorem RegimeRows.oneRegime (h : RegimeRows outbox t.store t.handled)
    (hfacts : OutboxFacts outbox) : t.OneRegime outbox where
  exclusive := fun orderId hboth => h.exclusive orderId hboth.1 hboth.2
  inLedger := by
    intro r hr hrev
    have hlegacy := h.legacy_of_reversed hfacts hr hrev
    exact ⟨hlegacy, fun hj => (h.journaled r hr hj).2 hlegacy⟩
  inJournal := by
    intro r hr hj
    obtain ⟨hcollection, hnot⟩ := h.journaled r hr hj
    exact ⟨hcollection, fun hrev => hnot (h.legacy_of_reversed hfacts hr hrev)⟩
  handled := h.handled
  reversed := by
    intro orderId hlegacy hfull hall
    have hord := h.legacyOrder hlegacy
    -- every refund of the order is reversed, for none of them is in the journal
    have hreversed : t.store.reversedToman outbox orderId = t.store.paymentToman orderId := by
      rw [← hfull]
      refine sumWhere_congr ?_
      intro r hr
      constructor
      · exact fun h => h.1
      · intro ho
        refine ⟨ho, ?_⟩
        rcases h.handled r (hall r hr ho) with hrev | hj
        · exact hrev
        · exact absurd (ho ▸ hlegacy) (h.journaled r hr hj).2
    have hcomm := hord.commission hreversed
    have htot := hord.total
    exact ⟨hcomm, by omega⟩

/-! ## One regime over every run -/

theorem DeliveryInv.of_legacy_iff (h : DeliveryInv outbox s d)
    (hlegacy : ∀ orderId, s'.Legacy orderId ↔ s.Legacy orderId) : DeliveryInv outbox s' d := by
  cases d with
  | readRows => exact ⟨h.1, (hlegacy _).2 h.2⟩
  | insertReversal => exact ⟨h.1, (hlegacy _).2 h.2.1, h.2.2⟩
  | recordFundRefund => exact ⟨h.1, fun hl => h.2 ((hlegacy _).1 hl)⟩
  | _ => exact h

theorem RegimeInv.moved (h : RegimeInv outbox t) {published : List OutboxRow}
    (hrows : RegimeRows outbox s handled)
    (hlegacy : ∀ orderId, s.Legacy orderId ↔ t.store.Legacy orderId) (hd : DeliveryInv outbox s d) :
    RegimeInv outbox ⟨s, update t.deliveries did d, published, handled⟩ where
  rows := hrows
  deliveries := by
    intro other
    by_cases hother : other = did
    · subst hother
      simpa using hd
    · simpa [hother] using (h.deliveries other).of_legacy_iff hlegacy

theorem RegimeInv.setDelivery (h : RegimeInv outbox t) (did : ℕ)
    (hd : DeliveryInv outbox t.store d) :
    RegimeInv outbox (t.setDelivery did d) :=
  h.moved h.rows (fun _ => Iff.rfl) hd

theorem RegimeRows.handle (h : RegimeRows outbox s handled) (hr : s.Reversed r ∨ s.Journaled r) :
    RegimeRows outbox s (handled ++ [r]) where
  orders := h.orders
  reversals := h.reversals
  pairs := h.pairs
  components := h.components
  parties := h.parties
  exclusive := h.exclusive
  journaled := h.journaled
  handled := by
    intro r' hr'
    rcases mem_append.1 hr' with hr' | hr'
    · exact h.handled r' hr'
    · rw [mem_singleton.1 hr']
      exact hr

section Journal

variable {fund : FundStore} {kind : FundJournalKind} {key : FundJournalKey} {orderId : Uuid}
  {party : FundParty} {change : FundPostingAccount → ℤ}

theorem hasCollection_posted (h : Posted s.fund fund kind key orderId party change) (o : Uuid) :
    FinancialStore.HasCollection { s with fund := fund } o ↔
      s.HasCollection o ∨ (kind = .collection ∧ orderId = o) := by
  simp only [FinancialStore.HasCollection, h.journals, mem_append, mem_singleton]
  constructor
  · rintro ⟨j, hj | rfl, hkind, hsrc⟩
    · exact Or.inl ⟨j, hj, hkind, hsrc⟩
    · exact Or.inr ⟨hkind, hsrc⟩
  · rintro (⟨j, hj, hkind, hsrc⟩ | ⟨hkind, hsrc⟩)
    · exact ⟨j, Or.inl hj, hkind, hsrc⟩
    · exact ⟨_, Or.inr rfl, hkind, hsrc⟩

/-- A journal of an order that is not legacy, the collection or one of its refunds,
keeps the tables in order. -/
theorem RegimeRows.posted (h : RegimeRows outbox s handled)
    (hpost : Posted s.fund fund kind key orderId party change) (hnew : ¬s.Legacy orderId)
    (hcollection : kind = .collection ∨ s.HasCollection orderId)
    (hkey : ∀ r ∈ outbox.refunds, key = .refund r.refundId → r.orderId = orderId) :
    RegimeRows outbox { s with fund := fund } handled where
  orders := fun o => (h.orders o).imp_right fun ho => ⟨ho.rows, ho.total, ho.commission⟩
  reversals := h.reversals
  pairs := h.pairs
  components := hpost.components
  parties := by
    intro o ho
    rw [hasCollection_posted hpost]
    simp only [FundStore.hasCollection, hpost.partyOf] at ho
    split at ho
    · rename_i heq
      rcases hcollection with hkind | hhas
      · exact Or.inr ⟨hkind, heq.symm⟩
      · exact Or.inl (heq ▸ hhas)
    · exact Or.inl (h.parties o ho)
  exclusive := by
    intro o ho
    rw [hasCollection_posted hpost]
    rintro (hhas | ⟨-, rfl⟩)
    · exact h.exclusive o ho hhas
    · exact hnew ho
  journaled := by
    intro r hr hj
    rw [hasCollection_posted hpost]
    rcases (hpost.hasKey_iff _).1 hj with hold | heq
    · exact ⟨Or.inl (h.journaled r hr hold).1, (h.journaled r hr hold).2⟩
    · have hord := hkey r hr heq.symm
      rw [hord]
      refine ⟨?_, hnew⟩
      rcases hcollection with hkind | hhas
      · exact Or.inr ⟨hkind, rfl⟩
      · exact Or.inl hhas
  handled := by
    intro r hr
    rcases h.handled r hr with hrev | hj
    · exact Or.inl hrev
    · exact Or.inr ((hpost.hasKey_iff _).2 (Or.inl hj))

end Journal

section Reversal

variable {ledger : LedgerStore} {payload : RefundFact} {rev : Reversal} {b : Bool}

/-- The two rows are the two sides of the refund's reversal, and take its amount. -/
structure Reverses (payload : RefundFact) (rev : Reversal) : Prop where
  commissionOrder : rev.commission.orderId = payload.orderId
  commission : isReversal .commission rev.commission ∧ rev.commission.referenceId = payload.refundId
  receivableOrder : rev.receivable.orderId = payload.orderId
  receivable : isReversal .receivable rev.receivable ∧ rev.receivable.referenceId = payload.refundId
  amount : rev.commission.amountToman + rev.receivable.amountToman = -payload.refundAmountToman

theorem recorded_iff {entryType : LedgerEntryType} {e : LedgerEntryEntity}
    (he : isReversal entryType e ∧ e.referenceId = payload.refundId) :
    s.ledger.recorded e = true ↔ s.ReversedSide entryType payload := by
  simp only [recorded, decide_eq_true_eq, FinancialStore.ReversedSide, he.1.1, he.1.2,
    he.2, isReversal]
  constructor
  · rintro ⟨e', hmem, htype, href, hid⟩
    exact ⟨e', hmem, ⟨href, htype⟩, hid⟩
  · rintro ⟨e', hmem, ⟨href, htype⟩, hid⟩
    exact ⟨e', hmem, htype, href, hid⟩

theorem insertReversal_new (hrev : Reverses payload rev) (hc : ¬s.ReversedSide .commission payload)
    (hr : ¬s.ReversedSide .receivable payload) (h : s.ledger.insertReversal rev = .ok (b, ledger)) :
    ledger.entries = s.ledger.entries ++ [rev.commission, rev.receivable] := by
  have hc' : ¬s.ledger.recorded rev.commission = true := by rwa [recorded_iff hrev.commission]
  have hr' : ¬s.ledger.recorded rev.receivable = true := by rwa [recorded_iff hrev.receivable]
  rw [insertReversal_eq_ok h]
  simp [hc', hr']

section Appended

variable (hentries : ledger.entries = s.ledger.entries ++ [rev.commission, rev.receivable])
  (hrev : Reverses payload rev)

include hentries hrev

variable (orderId : Uuid)

theorem entriesForOrder_appended :
    ledger.entriesForOrder orderId = s.ledger.entriesForOrder orderId ++
      if orderId = payload.orderId then [rev.commission, rev.receivable] else [] := by
  rw [entriesForOrder, hentries, filter_append]
  congr 1
  by_cases ho : orderId = payload.orderId
  · simp [ho, hrev.commissionOrder, hrev.receivableOrder]
  · have hne : payload.orderId ≠ orderId := fun h => ho h.symm
    simp [ho, hne, hrev.commissionOrder, hrev.receivableOrder]

theorem legacy_appended :
    FinancialStore.Legacy { s with ledger := ledger } orderId ↔ s.Legacy orderId := by
  simp only [FinancialStore.Legacy, hasLegacyPayment, decide_eq_true_eq, hentries,
    mem_append, mem_cons, not_mem_nil, or_false]
  constructor
  · rintro ⟨e, he | rfl | rfl, hord, hpay⟩
    · exact ⟨e, he, hord, hpay⟩
    · rw [isPayment, hrev.commission.1.1] at hpay
      cases hpay.1
    · rw [isPayment, hrev.receivable.1.1] at hpay
      cases hpay.1
  · rintro ⟨e, he, hord, hpay⟩
    exact ⟨e, Or.inl he, hord, hpay⟩

theorem reversedSide_appended (hfacts : OutboxFacts outbox) (hmem : payload ∈ outbox.refunds)
    (entryType : LedgerEntryType) {r : RefundFact} (hr : r ∈ outbox.refunds) :
    FinancialStore.ReversedSide { s with ledger := ledger } entryType r ↔
      s.ReversedSide entryType r ∨ r = payload := by
  have hid : ∀ e : LedgerEntryEntity, e.referenceId = payload.refundId → e.referenceId = r.refundId →
      r = payload := by
    intro e h h'
    exact hfacts.ids r hr payload hmem (h'.symm.trans h)
  simp only [FinancialStore.ReversedSide, hentries, mem_append, mem_cons,
    not_mem_nil, or_false]
  constructor
  · rintro ⟨e, he | rfl | rfl, hside, href⟩
    · exact Or.inl ⟨e, he, hside, href⟩
    · exact Or.inr (hid _ hrev.commission.2 href)
    · exact Or.inr (hid _ hrev.receivable.2 href)
  · rintro (⟨e, he, hside, href⟩ | rfl)
    · exact ⟨e, Or.inl he, hside, href⟩
    · cases entryType with
      | commission => exact ⟨_, Or.inr (Or.inl rfl), hrev.commission⟩
      | receivable => exact ⟨_, Or.inr (Or.inr rfl), hrev.receivable⟩

theorem reversedToman_appended (hfacts : OutboxFacts outbox) (hmem : payload ∈ outbox.refunds)
    (hnew : ¬s.Reversed payload) (orderId : Uuid) :
    FinancialStore.reversedToman outbox { s with ledger := ledger } orderId =
      s.reversedToman outbox orderId +
        if orderId = payload.orderId then payload.refundAmountToman else 0 := by
  have hside := fun r (hr : r ∈ outbox.refunds) =>
    reversedSide_appended hentries hrev hfacts hmem .commission hr
  by_cases ho : orderId = payload.orderId
  · rw [if_pos ho]
    refine sumWhere_one_more hfacts.distinct hmem (fun h => hnew h.2) ?_
    intro r hr
    simp only [FinancialStore.Reversed, hside r hr]
    constructor
    · rintro ⟨hro, hold | rfl⟩
      · exact Or.inl ⟨hro, hold⟩
      · exact Or.inr rfl
    · rintro (⟨hro, hold⟩ | rfl)
      · exact ⟨hro, Or.inl hold⟩
      · exact ⟨ho.symm, Or.inr rfl⟩
  · rw [if_neg ho, add_zero]
    refine sumWhere_congr ?_
    intro r hr
    simp only [FinancialStore.Reversed, hside r hr]
    constructor
    · rintro ⟨hro, hold | rfl⟩
      · exact ⟨hro, hold⟩
      · exact absurd hro.symm ho
    · rintro ⟨hro, hold⟩
      exact ⟨hro, Or.inl hold⟩

theorem paymentToman_appended :
    FinancialStore.paymentToman { s with ledger := ledger } orderId = s.paymentToman orderId := by
  have hc := hrev.commission.1.1
  have hr := hrev.receivable.1.1
  simp only [FinancialStore.paymentToman, entriesForOrder_appended hentries hrev, sumWhere_append]
  by_cases ho : orderId = payload.orderId <;> simp [ho, hc, hr]

theorem ledgerSum_appended :
    FinancialStore.ledgerSum { s with ledger := ledger } .commission orderId =
        s.ledgerSum .commission orderId +
          (if orderId = payload.orderId then rev.commission.amountToman else 0) ∧
      FinancialStore.ledgerSum { s with ledger := ledger } .receivable orderId =
        s.ledgerSum .receivable orderId +
          if orderId = payload.orderId then rev.receivable.amountToman else 0 := by
  have hc := hrev.commission.1.2
  have hr := hrev.receivable.1.2
  simp only [FinancialStore.ledgerSum, entriesForOrder_appended hentries hrev, sumWhere_append]
  by_cases ho : orderId = payload.orderId <;> simp [ho, hc, hr]

/-- The order of a reversal stays a legacy order, when a reversal that completes its
refund takes what is left of the commission. -/
theorem legacyOrder_appended (h : LegacyOrder outbox s payload.orderId)
    (hfacts : OutboxFacts outbox) (hmem : payload ∈ outbox.refunds) (hnew : ¬s.Reversed payload)
    (hlast : s.reversedToman outbox payload.orderId + payload.refundAmountToman =
        s.paymentToman payload.orderId →
      s.ledgerSum .commission payload.orderId + rev.commission.amountToman = 0) :
    LegacyOrder outbox { s with ledger := ledger } payload.orderId where
  rows := by
    obtain ⟨commission, receivable, reversals, hrows⟩ := h.rows
    refine ⟨commission, receivable, reversals ++ [rev.commission, rev.receivable], ?_⟩
    have hmore : ∀ e ∈ [rev.commission, rev.receivable], e.referenceType = .orderRefund := by
      intro e he
      rcases mem_pair.1 he with rfl | rfl
      · exact hrev.commission.1.1
      · exact hrev.receivable.1.1
    have happend := hrows.append hmore
    simpa [entriesForOrder_appended hentries hrev] using happend
  total := by
    have htot := h.total
    have hamt := hrev.amount
    obtain ⟨hc, hr⟩ := ledgerSum_appended hentries hrev payload.orderId
    rw [hc, hr, paymentToman_appended hentries hrev,
      reversedToman_appended hentries hrev hfacts hmem hnew, if_pos rfl, if_pos rfl, if_pos rfl]
    omega
  commission := by
    rw [paymentToman_appended hentries hrev,
      reversedToman_appended hentries hrev hfacts hmem hnew,
      (ledgerSum_appended hentries hrev payload.orderId).1, if_pos rfl, if_pos rfl]
    exact hlast

theorem legacyOrder_other {orderId : Uuid} (h : LegacyOrder outbox s orderId)
    (hfacts : OutboxFacts outbox) (hmem : payload ∈ outbox.refunds) (hnew : ¬s.Reversed payload)
    (hother : orderId ≠ payload.orderId) :
    LegacyOrder outbox { s with ledger := ledger } orderId where
  rows := by
    simpa [entriesForOrder_appended hentries hrev, hother] using h.rows
  total := by
    obtain ⟨hc, hr⟩ := ledgerSum_appended hentries hrev orderId
    rw [hc, hr, paymentToman_appended hentries hrev,
      reversedToman_appended hentries hrev hfacts hmem hnew, if_neg hother, if_neg hother,
      if_neg hother]
    simpa using h.total
  commission := by
    rw [paymentToman_appended hentries hrev,
      reversedToman_appended hentries hrev hfacts hmem hnew,
      (ledgerSum_appended hentries hrev orderId).1, if_neg hother, if_neg hother]
    simpa using h.commission

theorem RegimeRows.appended (h : RegimeRows outbox s handled) (hfacts : OutboxFacts outbox)
    (hmem : payload ∈ outbox.refunds) (hlegacy : s.Legacy payload.orderId)
    (hnew : ¬s.Reversed payload)
    (hlast : s.reversedToman outbox payload.orderId + payload.refundAmountToman =
        s.paymentToman payload.orderId →
      s.ledgerSum .commission payload.orderId + rev.commission.amountToman = 0) :
    RegimeRows outbox { s with ledger := ledger } handled where
  orders := by
    intro o
    by_cases ho : o = payload.orderId
    · subst ho
      right
      exact legacyOrder_appended hentries hrev (h.legacyOrder hlegacy) hfacts hmem hnew hlast
    · rcases h.orders o with hnil | hord
      · left
        simpa [entriesForOrder_appended hentries hrev, ho] using hnil
      · right
        exact legacyOrder_other hentries hrev hord hfacts hmem hnew ho
  reversals := by
    intro e he href
    simp only [hentries, mem_append, mem_cons, not_mem_nil, or_false] at he
    rcases he with he | rfl | rfl
    · exact h.reversals e he href
    · exact ⟨payload, hmem, hrev.commission.2.symm, hrev.commissionOrder.symm⟩
    · exact ⟨payload, hmem, hrev.receivable.2.symm, hrev.receivableOrder.symm⟩
  pairs := by
    intro r hr
    have hsides := h.pairs r hr
    rw [FinancialStore.Reversed, reversedSide_appended hentries hrev hfacts hmem _ hr,
      reversedSide_appended hentries hrev hfacts hmem _ hr, hsides, FinancialStore.Reversed]
  components := h.components
  parties := h.parties
  exclusive := fun o ho => h.exclusive o ((legacy_appended hentries hrev o).1 ho)
  journaled := by
    intro r hr hj
    refine ⟨(h.journaled r hr hj).1, ?_⟩
    rw [legacy_appended hentries hrev]
    exact (h.journaled r hr hj).2
  handled := by
    intro r hr
    rcases h.handled r hr with ⟨e, he, hside⟩ | hj
    · left
      exact ⟨e, by rw [hentries]; exact mem_append_left _ he, hside⟩
    · exact Or.inr hj

end Appended

theorem LegacyOrder.left {orderId : Uuid} {commission receivable : LedgerEntryEntity}
    {reversals : List LedgerEntryEntity} (h : LegacyOrder outbox s orderId)
    (hrows : LegacyRows commission receivable reversals (s.ledger.entriesForOrder orderId)) :
    s.ledgerSum .commission orderId = commission.amountToman +
        priorReversed .commission (s.ledger.entriesForOrder orderId) ∧
      commission.amountToman + receivable.amountToman +
          priorReversed .commission (s.ledger.entriesForOrder orderId) +
          priorReversed .receivable (s.ledger.entriesForOrder orderId) =
        s.paymentToman orderId - s.reversedToman outbox orderId := by
  have hc : s.ledgerSum .commission orderId = _ := hrows.sum_commission
  have hr : s.ledgerSum .receivable orderId = _ := hrows.sum_receivable
  have htot := h.total
  exact ⟨hc, by omega⟩

theorem RegimeRows.insertReversal {rows : List LedgerEntryEntity} (h : RegimeRows outbox s handled)
    (hfacts : OutboxFacts outbox) (hd : DeliveryInv outbox s (.insertReversal payload rows rev))
    (hfresh : ¬s.Reversed payload →
      s.reversedToman outbox payload.orderId + payload.refundAmountToman =
        s.paymentToman payload.orderId → rows = s.ledger.entriesForOrder payload.orderId)
    (hins : s.ledger.insertReversal rev = .ok (b, ledger)) :
    RegimeRows outbox { s with ledger := ledger } handled ∧
      FinancialStore.Reversed { s with ledger := ledger } payload ∧
      ∀ orderId, FinancialStore.Legacy { s with ledger := ledger } orderId ↔ s.Legacy orderId := by
  obtain ⟨hmem, hlegacy, hrevs, commission, receivable, _, hrows⟩ := hd
  obtain ⟨amount, hamt, -, ⟨hco, hc, hcid⟩, ⟨hro, hr, hrid⟩, hsum, _⟩ :=
    reversal_spec hrows hrevs
  have hsame : amount = payload.refundAmountToman := by
    have hofInt := assertNonNegativeAmount_ofInt (hfacts.positive payload hmem).le
      (hfacts.bounded payload hmem)
    rw [RegimeSystem.refundInput, hofInt] at hamt
    injection hamt with hamt
    exact hamt.symm
  subst hsame
  have hrev : Reverses payload rev := ⟨hco, ⟨hc, hcid⟩, hro, ⟨hr, hrid⟩, hsum⟩
  by_cases hold : s.Reversed payload
  · -- both rows conflict
    have hstore : ledger = s.ledger := by
      refine insertReversal_recorded hins ?_ ?_
      · exact (recorded_iff hrev.commission).2 hold
      · exact (recorded_iff hrev.receivable).2 ((h.pairs payload hmem).2 hold)
    subst hstore
    exact ⟨h, hold, fun _ => Iff.rfl⟩
  · have hentries := insertReversal_new hrev hold
      (fun hside => hold ((h.pairs payload hmem).1 hside)) hins
    refine ⟨h.appended hentries hrev hfacts hmem hlegacy hold ?_, ?_,
      legacy_appended hentries hrev⟩
    · intro hfull
      have hcur := hfresh hold hfull
      subst hcur
      obtain ⟨_, _⟩ := (h.legacyOrder hlegacy).left hrows
      omega
    · exact (reversedSide_appended hentries hrev hfacts hmem .commission hmem).2 (Or.inr rfl)

end Reversal

/-! ### One step -/

/-- The transaction of a refund journal leaves the refund journaled, when the collection
is there before it. -/
theorem RegimeRows.recordRefund {payload : RefundFact} {fund : FundStore} {b : Bool}
    (h : RegimeRows outbox s handled) (hfacts : OutboxFacts outbox)
    (hd : DeliveryInv outbox s (.recordFundRefund payload))
    (hcollection : s.fund.hasCollection payload.orderId = true)
    (hrec : s.fund.recordRefund
      ⟨payload.orderId, payload.refundId, .ofInt payload.refundAmountToman⟩ = .ok (b, fund)) :
    RegimeRows outbox { s with fund := fund } handled ∧
      FinancialStore.Journaled { s with fund := fund } payload := by
  obtain ⟨hmem, hnew⟩ := hd
  rcases recordRefund_cases h.components hrec with ⟨rfl, hkey | hparty | hzero⟩ |
      ⟨refundAmount, party, -, -, -, -, hpost⟩
  · exact ⟨h, hkey⟩
  · rw [FundStore.hasCollection, hparty] at hcollection
    cases hcollection
  · have hpos := hfacts.positive payload hmem
    have hofInt := assertNonNegativeAmount_ofInt hpos.le (hfacts.bounded payload hmem)
    rw [hofInt] at hzero
    injection hzero with hzero
    omega
  · refine ⟨h.posted hpost hnew (Or.inr (h.parties _ hcollection)) ?_,
      (hpost.hasKey_iff _).2 (Or.inr rfl)⟩
    intro r hr hkey
    injection hkey with hkey
    rw [hfacts.ids payload hmem r hr hkey]

theorem RegimeInv.advance (h : RegimeInv outbox t) (hfacts : OutboxFacts outbox)
    {intent : Option Uuid} (hcareful : t.Careful outbox (.advance did intent))
    (hs : t.advance did intent = some t') : RegimeInv outbox t' := by
  have hd := h.deliveries did
  unfold RegimeSystem.advance at hs
  change RegimeSystem.CarefulDelivery outbox t.store (t.deliveries did) at hcareful
  cases hdeliv : t.deliveries did with
  | idle | finished | returned =>
    rw [hdeliv] at hs
    cases hs
  | fetched row =>
    rw [hdeliv] at hs hd
    cases row with
    | capture =>
      dsimp only at hs
      split at hs
      · split at hs <;> cases hs <;> exact h.setDelivery did trivial
      · cases hs
        exact h.setDelivery did trivial
    | refund =>
      dsimp only at hs
      split at hs <;> cases hs
      · rename_i hlegacy
        exact h.setDelivery did ⟨hd, hlegacy⟩
      · rename_i hlegacy
        exact h.setDelivery did ⟨hd, hlegacy⟩
  | recordCollection =>
    rw [hdeliv] at hs hcareful
    dsimp only at hs
    split at hs <;> cases hs
    · exact h.setDelivery did trivial
    · rename_i fund hrec
      refine h.moved ?_ (fun _ => Iff.rfl) trivial
      rcases recordCollection_cases h.rows.components hrec with ⟨rfl, -⟩ |
          ⟨collected, -, -, hkey, hpost⟩
      · exact h.rows
      · -- a legacy order's collection would have been recorded before
        refine h.rows.posted hpost (fun hlegacy => hkey (hcareful hlegacy)) (Or.inl rfl) ?_
        intro r _ heq
        cases heq
  | readRows payload =>
    rw [hdeliv] at hs hd
    obtain ⟨hmem, hlegacy⟩ := hd
    obtain ⟨commission, receivable, reversals, hrows⟩ := (h.rows.legacyOrder hlegacy).rows
    dsimp only at hs
    split at hs <;> cases hs
    · exact h.setDelivery did trivial
    · rename_i hnone
      have hzero := reversal_eq_none hrows hnone
      have hpos := hfacts.positive payload hmem
      rw [RegimeSystem.refundInput,
        assertNonNegativeAmount_ofInt hpos.le (hfacts.bounded payload hmem)] at hzero
      injection hzero with hzero
      omega
    · rename_i rev hrev
      exact h.setDelivery did ⟨hmem, hlegacy, hrev, commission, receivable, reversals, hrows⟩
  | insertReversal payload rows =>
    rw [hdeliv] at hs hd hcareful
    dsimp only at hs
    split at hs <;> cases hs
    · exact h.setDelivery did trivial
    · rename_i ledger hins
      obtain ⟨hrows, hreversed, hlegacy⟩ := h.rows.insertReversal hfacts hd hcareful hins
      exact h.moved (hrows.handle (Or.inl hreversed)) hlegacy trivial
  | recordFundRefund =>
    rw [hdeliv] at hs hd hcareful
    dsimp only at hs
    split at hs <;> cases hs
    · exact h.setDelivery did trivial
    · rename_i fund hrec
      obtain ⟨hrows, hjournaled⟩ := h.rows.recordRefund hfacts hd hcareful hrec
      exact h.moved (hrows.handle (Or.inr hjournaled)) (fun _ => Iff.rfl) trivial

theorem RegimeInv.step {e : RegimeStep} (h : RegimeInv outbox t) (hfacts : OutboxFacts outbox)
    (hcareful : t.Careful outbox e) (hs : t.step outbox e = some t') : RegimeInv outbox t' := by
  cases e with
  | fetch did =>
    simp only [RegimeSystem.step] at hs
    split at hs
    · split at hs
      · rename_i hrow
        cases hs
        exact h.setDelivery did hrow.1
      · cases hs
    · cases hs
  | advance => exact h.advance hfacts hcareful hs
  | publish =>
    simp only [RegimeSystem.step] at hs
    split at hs
    · cases hs
      exact h.moved h.rows (fun _ => Iff.rfl) trivial
    · cases hs
  | die did =>
    cases hs
    exact h.setDelivery did trivial

/-! ### The whole run -/

/-- Where the runs start: an order is legacy with its payment pair, or has no ledger rows
and possibly its own journals.  Any of the rows may be unpublished. -/
structure Start (outbox : CommerceOutbox) (t : RegimeSystem) : Prop where
  pairs : ∀ orderId, t.store.ledger.entriesForOrder orderId = [] ∨
    ∃ commission receivable,
      LegacyRows commission receivable [] (t.store.ledger.entriesForOrder orderId) ∧
        0 ≤ commission.amountToman ∧ 0 ≤ receivable.amountToman
  components : t.store.fund.NoComponents
  parties : ∀ orderId, t.store.fund.hasCollection orderId = true → t.store.HasCollection orderId
  exclusive : ∀ orderId, t.store.Legacy orderId → ¬t.store.HasCollection orderId
  journaled : ∀ r ∈ outbox.refunds, t.store.Journaled r →
    t.store.HasCollection r.orderId ∧ ¬t.store.Legacy r.orderId
  idle : ∀ did, t.deliveries did = .idle
  unhandled : t.handled = []

section

variable (h : Start outbox t)
include h

theorem Start.payments :
    ∀ e ∈ t.store.ledger.entries, e.referenceType = .orderPayment := by
  intro e he
  have hmem : e ∈ t.store.ledger.entriesForOrder e.orderId := by
    simp [entriesForOrder, he]
  rcases h.pairs e.orderId with hnil | ⟨commission, receivable, hrows, -⟩
  · rw [hnil] at hmem
    simp at hmem
  · rw [hrows.rows] at hmem
    rcases mem_pair.1 hmem with rfl | rfl
    · exact hrows.commission.1
    · exact hrows.receivable.1

theorem Start.not_reversedSide (entryType : LedgerEntryType) (r : RefundFact) :
    ¬t.store.ReversedSide entryType r := by
  rintro ⟨e, he, hside, -⟩
  have hpay := h.payments e he
  rw [hside.1] at hpay
  cases hpay

theorem Start.reversedToman (orderId : Uuid) :
    t.store.reversedToman outbox orderId = 0 := by
  refine sumWhere_eq_zero ?_
  intro r _ hr
  exact h.not_reversedSide .commission r hr.2

theorem Start.regimeInv : RegimeInv outbox t where
  rows := {
    orders := by
      intro orderId
      rcases h.pairs orderId with hnil | ⟨commission, receivable, hrows, _, _⟩
      · exact Or.inl hnil
      · right
        have hc : t.store.ledgerSum .commission orderId = commission.amountToman := by
          have hsum := hrows.sum_commission
          rw [hrows.priorReversed, sumWhere_nil, add_zero] at hsum
          exact hsum
        have hr : t.store.ledgerSum .receivable orderId = receivable.amountToman := by
          have hsum := hrows.sum_receivable
          rw [hrows.priorReversed, sumWhere_nil, add_zero] at hsum
          exact hsum
        have hpay : t.store.paymentToman orderId =
            commission.amountToman + receivable.amountToman := hrows.sum_payment
        refine ⟨⟨commission, receivable, [], hrows⟩, ?_, ?_⟩
        · rw [hc, hr, hpay, h.reversedToman, sub_zero]
        · rw [h.reversedToman]
          omega
    reversals := by
      intro e he href
      rw [h.payments e he] at href
      cases href
    pairs := by
      intro r _
      simp [FinancialStore.Reversed, h.not_reversedSide]
    components := h.components
    parties := h.parties
    exclusive := h.exclusive
    journaled := h.journaled
    handled := by simp [h.unhandled] }
  deliveries := by
    intro did
    rw [h.idle did]
    trivial

end

/-- **One regime per order.**  In every run whose steps are careful, whatever the
interleaving and however often a row is delivered, every state reached has one regime
per order, every handled refund in it, and no rest of a refunded legacy order. -/
theorem oneRegime_run {t t' : RegimeSystem} {es : List RegimeStep} (hfacts : OutboxFacts outbox)
    (hstart : Start outbox t)
    (hcareful : Along (RegimeSystem.step outbox) (RegimeSystem.Careful outbox) t es)
    (h : runFrom (RegimeSystem.step outbox) t es = some t') : t'.OneRegime outbox := by
  have hinv : RegimeInv outbox t' :=
    runFrom_invariant_along (fun _ _ _ hinv hG hs => hinv.step hfacts hG hs) hstart.regimeInv
      hcareful h
  exact hinv.rows.oneRegime hfacts

/-! ## A capture that is delivered across the switch -/

/-- The payment pair of a legacy order of 1000 Toman. -/
def legacyPair : List LedgerEntryEntity :=
  [⟨1, some 4, .platform, none, .commission, 150, 1500, .orderPayment, 9⟩,
    ⟨1, some 4, .professional, some 4, .receivable, 850, 1500, .orderPayment, 9⟩]

/-- The legacy order and a new one, each collected once and refunded in full. -/
def twoOrders : CommerceOutbox where
  captures := [⟨1, ⟨.professional, 4⟩, 1000⟩, ⟨2, ⟨.professional, 4⟩, 500⟩]
  refunds := [⟨1, 11, 400⟩, ⟨1, 12, 600⟩, ⟨2, 21, 500⟩]

/-- The legacy order is booked; its capture is not marked published. -/
def legacyBooked : RegimeSystem where
  store := ⟨⟨legacyPair, []⟩, ⟨[], [], []⟩⟩
  deliveries := fun _ => .idle
  published := []
  handled := []

theorem twoOrders_facts : OutboxFacts twoOrders where
  distinct := by decide
  ids := by decide
  positive := by decide
  bounded := by decide

theorem legacyBooked_start : Start twoOrders legacyBooked where
  pairs := by
    intro orderId
    by_cases ho : orderId = 1
    · right
      subst ho
      exact ⟨_, _, ⟨rfl, by decide, by decide, by simp⟩, by decide, by decide⟩
    · left
      have hne : 1 ≠ orderId := fun h => ho h.symm
      simp [legacyBooked, entriesForOrder, legacyPair, hne]
  components := by simp [legacyBooked, FundStore.NoComponents]
  parties := by simp [legacyBooked, FundStore.hasCollection, FundStore.partyOf]
  exclusive := by simp [legacyBooked, FinancialStore.HasCollection]
  journaled := by simp [legacyBooked, FinancialStore.Journaled, FundStore.HasKey]
  idle := fun _ => rfl
  unhandled := rfl

/-- The refunds of the legacy order overlap, one of them is delivered twice, and the new
order is collected before it is refunded. -/
def overlappingRefunds : List RegimeStep :=
  [.fetch 0 (.refund ⟨1, 11, 400⟩), .fetch 1 (.refund ⟨1, 12, 600⟩),
    .fetch 2 (.refund ⟨1, 11, 400⟩), .advance 0 none, .advance 1 none, .advance 2 none,
    .advance 0 none, .advance 2 none, .advance 0 none, .advance 1 none, .advance 2 none,
    .advance 1 none, .publish 0, .publish 1, .die 2,
    .fetch 3 (.capture ⟨2, ⟨.professional, 4⟩, 500⟩), .advance 3 (some 7), .advance 3 none,
    .publish 3, .fetch 4 (.refund ⟨2, 21, 500⟩), .advance 4 none, .advance 4 none]

theorem oneRegime_run_overlappingRefunds :
    ∃ t, runFrom (RegimeSystem.step twoOrders) legacyBooked overlappingRefunds = some t ∧
      t.OneRegime twoOrders := by
  have hrun : (runFrom (RegimeSystem.step twoOrders) legacyBooked overlappingRefunds).isSome =
      true := by decide +kernel
  obtain ⟨t, ht⟩ := Option.isSome_iff_exists.1 hrun
  exact ⟨t, ht, oneRegime_run twoOrders_facts legacyBooked_start (by decide +kernel) ht⟩

/-- A capture that was booked in the ledger and not marked published is delivered again:
the order is in both regimes. -/
theorem oneRegime_redelivery_fails :
    Start twoOrders legacyBooked ∧
      ∃ t, runFrom (RegimeSystem.step twoOrders) legacyBooked
          [.fetch 0 (.capture ⟨1, ⟨.professional, 4⟩, 1000⟩), .advance 0 (some 7),
            .advance 0 none] = some t ∧ ¬t.OneRegime twoOrders := by
  obtain ⟨t, ht, hlegacy, hcollection⟩ : ∃ t ∈ runFrom (RegimeSystem.step twoOrders) legacyBooked
      [.fetch 0 (.capture ⟨1, ⟨.professional, 4⟩, 1000⟩), .advance 0 (some 7), .advance 0 none],
      t.store.ledger.hasLegacyPayment 1 = true ∧
        ∃ j ∈ t.store.fund.journals, j.kind = .collection ∧ j.sourceId = 1 := by
    decide +kernel
  exact ⟨legacyBooked_start, t, ht, fun hone => hone.exclusive 1 ⟨hlegacy, hcollection⟩⟩

end BeauClick.Financial
