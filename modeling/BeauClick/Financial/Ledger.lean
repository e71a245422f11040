import BeauClick.Commerce.Order
import BeauClick.Lib.Table

/-!
# The legacy ledger

`services/financial/src/ledger.service.ts`.  An order that collected before the fund
journal existed keeps its ledger rows: one payment pair, commission and receivable,
and a reversal pair for each refund.  A reversal is computed from rows read before
the transaction that inserts it.
-/

namespace BeauClick.Financial

open Money Table Commerce

/-! ## Rows -/

/-- `LEDGER_ENTRY_TYPES`. -/
inductive LedgerEntryType where
  | commission
  | receivable
  deriving DecidableEq

/-- `LEDGER_REFERENCE_TYPES`. -/
inductive LedgerReferenceType where
  | orderPayment
  | orderRefund
  deriving DecidableEq

/-- `LEDGER_PARTY_TYPES`. -/
inductive LedgerPartyType where
  | platform
  | professional
  | business
  deriving DecidableEq

/-- `financial.ledger_entries`, in insertion order. -/
structure LedgerEntryEntity where
  orderId : Uuid
  sourceId : Option Uuid
  partyType : LedgerPartyType
  partyId : Option Uuid
  entryType : LedgerEntryType
  amountToman : ℤ
  commissionRateBp : ℤ
  referenceType : LedgerReferenceType
  referenceId : Uuid
  deriving DecidableEq

/-- The event of ledger entries. -/
structure LedgerEntriesRecorded where
  orderId : Uuid
  referenceType : LedgerReferenceType
  referenceId : Uuid
  commissionToman : ℤ
  receivableToman : ℤ
  commissionRateBp : ℤ

/-- The ledger and the events written with it. -/
structure LedgerStore where
  entries : List LedgerEntryEntity
  outbox : List LedgerEntriesRecorded

/-- What `recordRefund` is given. -/
structure RecordRefundInput where
  orderId : Uuid
  refundId : Uuid
  refundAmountToman : JsNumber

/-- What `recordRefund` throws: a money check or `ck_ledger_sign`. -/
inductive LedgerError where
  | money (err : MoneyError)
  | sign

/-- The two rows of a reversal. -/
structure Reversal where
  commission : LedgerEntryEntity
  receivable : LedgerEntryEntity

/-- The row was written for the payment. -/
def isPayment (entryType : LedgerEntryType) (e : LedgerEntryEntity) : Prop :=
  e.referenceType = .orderPayment ∧ e.entryType = entryType

/-- The row was written for a refund. -/
def isReversal (entryType : LedgerEntryType) (e : LedgerEntryEntity) : Prop :=
  e.referenceType = .orderRefund ∧ e.entryType = entryType

instance (entryType : LedgerEntryType) : DecidablePred (isPayment entryType) := fun _ =>
  inferInstanceAs (Decidable (_ ∧ _))

instance (entryType : LedgerEntryType) : DecidablePred (isReversal entryType) := fun _ =>
  inferInstanceAs (Decidable (_ ∧ _))

/-- What the reversals among the rows took from one side. -/
def priorReversed (entryType : LedgerEntryType) (rows : List LedgerEntryEntity) : ℤ :=
  sumWhere (isReversal entryType) (·.amountToman) rows

/-! ## Recording a refund -/

/-- The reversal pair of `recordRefund`, from the rows of the order it read; `none`
when the amount is zero or no payment was recorded. -/
def reversal (rows : List LedgerEntryEntity) (input : RecordRefundInput) :
    Except LedgerError (Option Reversal) :=
  match assertNonNegativeAmount input.refundAmountToman with
  | .error err => .error (.money err)
  | .ok refundAmountToman =>
    if refundAmountToman = 0 then .ok none
    else
      match rows.find? (fun e => isPayment .commission e),
          rows.find? (fun e => isPayment .receivable e) with
      | some originalCommission, some originalReceivable =>
        let rateBp := originalCommission.commissionRateBp
        let originalNetToman := originalCommission.amountToman + originalReceivable.amountToman
        let alreadyRefundedToman :=
          -(priorReversed .commission rows + priorReversed .receivable rows)
        match splitExact (originalNetToman - alreadyRefundedToman - refundAmountToman) rateBp with
        | .error err => .error (.money err)
        | .ok target =>
          .ok (some {
            commission := {
              orderId := input.orderId
              sourceId := originalCommission.sourceId
              partyType := .platform
              partyId := none
              entryType := .commission
              amountToman := target.part -
                (originalCommission.amountToman + priorReversed .commission rows)
              commissionRateBp := rateBp
              referenceType := .orderRefund
              referenceId := input.refundId }
            receivable := {
              orderId := input.orderId
              sourceId := originalReceivable.sourceId
              partyType := originalReceivable.partyType
              partyId := originalReceivable.partyId
              entryType := .receivable
              amountToman := target.remainder -
                (originalReceivable.amountToman + priorReversed .receivable rows)
              commissionRateBp := rateBp
              referenceType := .orderRefund
              referenceId := input.refundId } })
      | _, _ => .ok none

namespace LedgerStore

def entriesForOrder (s : LedgerStore) (orderId : Uuid) : List LedgerEntryEntity :=
  s.entries.filter fun e => e.orderId = orderId

/-- The order was paid under the legacy commission. -/
def hasLegacyPayment (s : LedgerStore) (orderId : Uuid) : Bool :=
  ∃ e ∈ s.entries, e.orderId = orderId ∧ isPayment .commission e

/-- `uq_ledger_entry_once` has the row's entry already. -/
def recorded (s : LedgerStore) (e : LedgerEntryEntity) : Bool :=
  ∃ e' ∈ s.entries, e'.entryType = e.entryType ∧ e'.referenceType = e.referenceType ∧
    e'.referenceId = e.referenceId

/-- The transaction of `recordRefund`: `ON CONFLICT DO NOTHING`, under
`ck_ledger_sign`. -/
def insertReversal (s : LedgerStore) (rev : Reversal) : Except LedgerError (Bool × LedgerStore) :=
  if 0 < rev.commission.amountToman ∨ 0 < rev.receivable.amountToman then .error .sign
  else
    match [rev.commission, rev.receivable].filter fun e => !s.recorded e with
    | [] => .ok (false, s)
    | rows => .ok (true, {
        entries := s.entries ++ rows
        outbox := s.outbox ++ [{
          orderId := rev.commission.orderId, referenceType := .orderRefund
          referenceId := rev.commission.referenceId
          commissionToman := rev.commission.amountToman
          receivableToman := rev.receivable.amountToman
          commissionRateBp := rev.commission.commissionRateBp }] })

/-- `recordRefund`, when nothing is written between its read and its transaction. -/
def recordRefund (s : LedgerStore) (input : RecordRefundInput) :
    Except LedgerError (Bool × LedgerStore) :=
  match reversal (s.entriesForOrder input.orderId) input with
  | .error err => .error err
  | .ok none => .ok (false, s)
  | .ok (some rev) => s.insertReversal rev

end LedgerStore

/-! ## What a reversal is -/

/-- The rows of a legacy order: its payment pair, then reversals. -/
structure LegacyRows (commission receivable : LedgerEntryEntity)
    (reversals rows : List LedgerEntryEntity) : Prop where
  rows : rows = commission :: receivable :: reversals
  commission : isPayment .commission commission
  receivable : isPayment .receivable receivable
  reversals : ∀ e ∈ reversals, e.referenceType = .orderRefund

theorem LegacyRows.priorReversed {commission receivable : LedgerEntryEntity}
    {reversals rows : List LedgerEntryEntity} (h : LegacyRows commission receivable reversals rows)
    (entryType : LedgerEntryType) :
    priorReversed entryType rows = sumWhere (·.entryType = entryType) (·.amountToman) reversals := by
  rw [Financial.priorReversed, h.rows, sumWhere_cons, sumWhere_cons]
  have hc : ¬isReversal entryType commission := by
    rintro ⟨href, -⟩
    rw [h.commission.1] at href
    cases href
  have hr : ¬isReversal entryType receivable := by
    rintro ⟨href, -⟩
    rw [h.receivable.1] at href
    cases href
  rw [if_neg hc, if_neg hr, zero_add, zero_add]
  refine sumWhere_congr ?_
  intro e he
  simp [isReversal, h.reversals e he]

section LegacyRows

variable {commission receivable : LedgerEntryEntity} {reversals rows : List LedgerEntryEntity}
  {input : RecordRefundInput}

section

variable (h : LegacyRows commission receivable reversals rows)
include h

theorem LegacyRows.find_commission :
    rows.find? (fun e => isPayment .commission e) = some commission := by
  rw [h.rows]
  simp [h.commission]

theorem LegacyRows.find_receivable :
    rows.find? (fun e => isPayment .receivable e) = some receivable := by
  have hnot : ¬isPayment .receivable commission := by
    rintro ⟨-, htype⟩
    rw [h.commission.2] at htype
    cases htype
  rw [h.rows]
  simp [h.receivable, hnot]

theorem LegacyRows.sum_commission :
    sumWhere (·.entryType = .commission) (·.amountToman) rows =
      commission.amountToman + Financial.priorReversed .commission rows := by
  rw [h.priorReversed, h.rows, sumWhere_cons, sumWhere_cons, if_pos h.commission.2, if_neg, zero_add]
  rw [h.receivable.2]
  simp

theorem LegacyRows.sum_receivable :
    sumWhere (·.entryType = .receivable) (·.amountToman) rows =
      receivable.amountToman + Financial.priorReversed .receivable rows := by
  rw [h.priorReversed, h.rows, sumWhere_cons, sumWhere_cons, if_pos h.receivable.2, if_neg, zero_add]
  rw [h.commission.2]
  simp

theorem LegacyRows.sum_payment :
    sumWhere (·.referenceType = .orderPayment) (·.amountToman) rows =
      commission.amountToman + receivable.amountToman := by
  have hzero : sumWhere (·.referenceType = .orderPayment) (·.amountToman) reversals = 0 := by
    refine sumWhere_eq_zero ?_
    intro e he
    rw [h.reversals e he]
    simp
  rw [h.rows, sumWhere_cons, sumWhere_cons, if_pos h.commission.1, if_pos h.receivable.1, hzero,
    add_zero]

theorem LegacyRows.append
    {more : List LedgerEntryEntity} (hmore : ∀ e ∈ more, e.referenceType = .orderRefund) :
    LegacyRows commission receivable (reversals ++ more) (rows ++ more) where
  rows := by simp [h.rows]
  commission := h.commission
  receivable := h.receivable
  reversals := by
    intro e he
    rcases List.mem_append.1 he with he | he
    · exact h.reversals e he
    · exact hmore e he

end

section

variable (hrows : LegacyRows commission receivable reversals rows)
include hrows

theorem reversal_eq_none (h : reversal rows input = .ok none) :
    assertNonNegativeAmount input.refundAmountToman = .ok 0 := by
  unfold reversal at h
  split at h
  · cases h
  rename_i amount hamt
  split at h
  · rename_i hzero
    rw [hamt, hzero]
  · rw [hrows.find_commission, hrows.find_receivable] at h
    dsimp only at h
    split at h
    · cases h
    cases h

/-- A reversal takes the refund's amount, and one that leaves nothing of the order
takes what is left of its commission. -/
theorem reversal_spec {rev : Reversal} (h : reversal rows input = .ok (some rev)) :
    ∃ amount, assertNonNegativeAmount input.refundAmountToman = .ok amount ∧ amount ≠ 0 ∧
      (rev.commission.orderId = input.orderId ∧ isReversal .commission rev.commission ∧
        rev.commission.referenceId = input.refundId) ∧
      (rev.receivable.orderId = input.orderId ∧ isReversal .receivable rev.receivable ∧
        rev.receivable.referenceId = input.refundId) ∧
      rev.commission.amountToman + rev.receivable.amountToman = -amount ∧
      (commission.amountToman + receivable.amountToman + priorReversed .commission rows +
          priorReversed .receivable rows = amount →
        rev.commission.amountToman =
          -(commission.amountToman + priorReversed .commission rows)) := by
  unfold reversal at h
  split at h
  · cases h
  rename_i amount hamt
  split at h
  · cases h
  rename_i hne
  rw [hrows.find_commission, hrows.find_receivable] at h
  dsimp only at h
  split at h
  · cases h
  rename_i target htarget
  cases h
  have hsum := splitExact_sum htarget
  refine ⟨amount, hamt, hne, ⟨rfl, ⟨rfl, rfl⟩, rfl⟩, ⟨rfl, ⟨rfl, rfl⟩, rfl⟩,
    ?_, ?_⟩
  · dsimp only
    omega
  · intro hlast
    have hzero : commission.amountToman + receivable.amountToman -
        -(priorReversed .commission rows + priorReversed .receivable rows) - amount = 0 := by
      omega
    rw [hzero] at htarget
    have hsplit := splitExact_zero htarget
    rw [hsplit]
    dsimp only
    omega

end

end LegacyRows

variable {rev : Reversal} {b : Bool}

/-- An insert of a reversal that goes through leaves the ledger alone, when both rows
were there, or appends the rows that were not. -/
theorem insertReversal_eq_ok {s s' : LedgerStore} (h : s.insertReversal rev = .ok (b, s')) :
    s'.entries = s.entries ++ [rev.commission, rev.receivable].filter fun e => !s.recorded e := by
  unfold LedgerStore.insertReversal at h
  split at h
  · cases h
  split at h
  · rename_i hnil
    injection h with h
    rw [hnil, ← (Prod.mk.inj h).2, List.append_nil]
  · injection h with h
    rw [← (Prod.mk.inj h).2]

theorem insertReversal_recorded {s s' : LedgerStore} (h : s.insertReversal rev = .ok (b, s'))
    (hc : s.recorded rev.commission = true) (hr : s.recorded rev.receivable = true) : s' = s := by
  unfold LedgerStore.insertReversal at h
  split at h
  · cases h
  simp only [hc, hr, Bool.not_true, List.filter_cons, List.filter_nil, Bool.false_eq_true,
    if_false] at h
  injection h with h
  exact (Prod.mk.inj h).2.symm

theorem hasLegacyPayment_recordRefund {s s' : LedgerStore} {input : RecordRefundInput}
    {orderId : Uuid} (h : s.recordRefund input = .ok (b, s'))
    (hlegacy : s.hasLegacyPayment orderId = true) : s'.hasLegacyPayment orderId = true := by
  unfold LedgerStore.recordRefund at h
  split at h
  · cases h
  · injection h with h
    rw [← (Prod.mk.inj h).2]
    exact hlegacy
  · have hents := insertReversal_eq_ok h
    simp only [LedgerStore.hasLegacyPayment, decide_eq_true_eq, hents] at hlegacy ⊢
    obtain ⟨e, he, hmatch⟩ := hlegacy
    exact ⟨e, List.mem_append_left _ he, hmatch⟩

end BeauClick.Financial
