import BeauClick.Financial.Ledger

/-!
# Reversals telescope

Refunds are delivered one after the other, each of them any number of times.

* `LedgerStore.deliver` — one delivery; one that throws leaves the ledger.
* `LedgerStore.refunded` — the refunds of an order that deliveries record.
* `reversal_eq` — the two amounts of a reversal.
* `LedgerStore.deliver_cases` — a delivery leaves the ledger, or appends a pair.
* `telescopes_run` — what the ledger says after any deliveries.
-/

namespace BeauClick.Financial

open Money Table Commerce List

/-- What a refund amounts to. -/
def RecordRefundInput.toman (input : RecordRefundInput) : ℤ :=
  match assertNonNegativeAmount input.refundAmountToman with
  | .ok refundAmountToman => refundAmountToman
  | .error _ => 0

namespace LedgerStore

/-- A refund is delivered: an exception rolls back. -/
def deliver (s : LedgerStore) (input : RecordRefundInput) : LedgerStore :=
  match s.recordRefund input with
  | .ok (_, s') => s'
  | .error _ => s

/-- The delivery writes. -/
def writes (s : LedgerStore) (input : RecordRefundInput) : Bool :=
  match s.recordRefund input with
  | .ok (inserted, _) => inserted
  | .error _ => false

/-- Deliveries, one after the other. -/
def deliverAll (s : LedgerStore) (inputs : List RecordRefundInput) : LedgerStore :=
  inputs.foldl deliver s

/-- The refunds of an order that deliveries record. -/
def refunded (orderId : Uuid) : LedgerStore → List RecordRefundInput → List RecordRefundInput
  | _, [] => []
  | s, input :: inputs =>
    if s.writes input = true ∧ input.orderId = orderId then
      input :: refunded orderId (s.deliver input) inputs
    else refunded orderId (s.deliver input) inputs

/-- What the ledger says of one side of an order. -/
def recordedToman (s : LedgerStore) (orderId : Uuid) (entryType : LedgerEntryType) : ℤ :=
  sumWhere (·.entryType = entryType) (·.amountToman) (s.entriesForOrder orderId)

/-- What is left of an order: the sum of its entries. -/
def netToman (s : LedgerStore) (orderId : Uuid) : ℤ :=
  ((s.entriesForOrder orderId).map (·.amountToman)).sum

/-- The refund is recorded. -/
def HasRefund (s : LedgerStore) (refundId : Uuid) : Prop :=
  ∃ e ∈ s.entries, e.referenceType = .orderRefund ∧ e.referenceId = refundId

/-- A refund that is recorded has both its rows. -/
def Paired (s : LedgerStore) : Prop :=
  ∀ refundId, s.HasRefund refundId → ∀ entryType, ∃ e ∈ s.entries,
    e.entryType = entryType ∧ e.referenceType = .orderRefund ∧ e.referenceId = refundId

end LedgerStore

/-! ## One delivery -/

section Delivery

variable {s : LedgerStore} {rows reversals : List LedgerEntryEntity} {input : RecordRefundInput}
  {rev : Reversal} {commission receivable : LedgerEntryEntity} {orderId : Uuid}

/-- The rows of a reversal are of the refund. -/
structure Reversal.Of (rev : Reversal) (input : RecordRefundInput) : Prop where
  commission : rev.commission.orderId = input.orderId ∧ isReversal .commission rev.commission ∧
    rev.commission.referenceId = input.refundId
  receivable : rev.receivable.orderId = input.orderId ∧ isReversal .receivable rev.receivable ∧
    rev.receivable.referenceId = input.refundId

theorem reversal_of (h : reversal rows input = .ok (some rev)) : rev.Of input := by
  unfold reversal at h
  split at h
  · cases h
  split at h
  · cases h
  split at h
  · dsimp only at h
    split at h
    · cases h
    cases h
    exact ⟨⟨rfl, ⟨rfl, rfl⟩, rfl⟩, ⟨rfl, ⟨rfl, rfl⟩, rfl⟩⟩
  · cases h

theorem reversal_eq (hrows : LegacyRows commission receivable reversals rows)
    (h : reversal rows input = .ok (some rev)) : ∃ target,
      splitExact (sumWhere (·.entryType = .commission) (·.amountToman) rows +
        sumWhere (·.entryType = .receivable) (·.amountToman) rows - input.toman)
          commission.commissionRateBp = .ok target ∧
      sumWhere (·.entryType = .commission) (·.amountToman) rows + rev.commission.amountToman =
        target.part ∧
      sumWhere (·.entryType = .receivable) (·.amountToman) rows + rev.receivable.amountToman =
        target.remainder := by
  rw [hrows.sum_commission, hrows.sum_receivable]
  unfold reversal at h
  unfold RecordRefundInput.toman
  split at h
  · cases h
  rename_i amount hamt
  rw [hamt]
  split at h
  · cases h
  rw [hrows.find_commission, hrows.find_receivable] at h
  dsimp only at h
  split at h
  · cases h
  rename_i target htarget
  cases h
  refine ⟨target, ?_, ?_, ?_⟩
  · rw [← htarget]
    congr 1
    ring
  · exact add_sub_cancel _ _
  · exact add_sub_cancel _ _

namespace LedgerStore

theorem recorded_iff {e : LedgerEntryEntity} : s.recorded e = true ↔ ∃ e' ∈ s.entries,
    e'.entryType = e.entryType ∧ e'.referenceType = e.referenceType ∧
      e'.referenceId = e.referenceId := by
  simp [recorded]

theorem recorded_pair (hp : s.Paired) (hof : rev.Of input) :
    (s.recorded rev.commission = true ↔ s.HasRefund input.refundId) ∧
      (s.recorded rev.receivable = true ↔ s.HasRefund input.refundId) := by
  have hone : ∀ {e : LedgerEntryEntity}, e.referenceType = .orderRefund →
      e.referenceId = input.refundId → (s.recorded e = true ↔ s.HasRefund input.refundId) := by
    intro e href hid
    rw [recorded_iff, href, hid]
    constructor
    · rintro ⟨e', he', -, href', hid'⟩
      exact ⟨e', he', href', hid'⟩
    · intro hrefund
      obtain ⟨e', he', htype, href', hid'⟩ := hp _ hrefund e.entryType
      exact ⟨e', he', htype, href', hid'⟩
  exact ⟨hone hof.commission.2.1.1 hof.commission.2.2, hone hof.receivable.2.1.1 hof.receivable.2.2⟩

theorem deliver_cases (hp : s.Paired) (input : RecordRefundInput) :
    s.writes input = false ∧ s.deliver input = s ∨
      s.writes input = true ∧ ¬s.HasRefund input.refundId ∧ ∃ rev,
        reversal (s.entriesForOrder input.orderId) input = .ok (some rev) ∧
        (s.deliver input).entries = s.entries ++ [rev.commission, rev.receivable] := by
  unfold writes deliver recordRefund
  cases hrevs : reversal (s.entriesForOrder input.orderId) input with
  | error => exact Or.inl ⟨rfl, rfl⟩
  | ok found =>
    cases found with
    | none => exact Or.inl ⟨rfl, rfl⟩
    | some rev =>
      obtain ⟨hcomm, hrecv⟩ := recorded_pair hp (reversal_of hrevs)
      dsimp only [insertReversal]
      split_ifs
      · exact Or.inl ⟨rfl, rfl⟩
      · by_cases hrefund : s.HasRefund input.refundId
        · simp [hcomm.2 hrefund, hrecv.2 hrefund]
        · have hnot : s.recorded rev.commission = false ∧ s.recorded rev.receivable = false :=
            ⟨Bool.eq_false_iff.2 fun h => hrefund (hcomm.1 h),
              Bool.eq_false_iff.2 fun h => hrefund (hrecv.1 h)⟩
          refine Or.inr ⟨?_, hrefund, rev, rfl, ?_⟩ <;> simp [hnot.1, hnot.2]

theorem writes_of_new (hp : s.Paired)
    (hrows : LegacyRows commission receivable reversals (s.entriesForOrder input.orderId))
    (hnew : ¬s.HasRefund input.refundId) :
    (∃ err, s.recordRefund input = .error err) ∨ input.toman = 0 ∨ s.writes input = true := by
  unfold writes recordRefund
  cases hrevs : reversal (s.entriesForOrder input.orderId) input with
  | error err => exact Or.inl ⟨err, rfl⟩
  | ok found =>
    cases found with
    | none =>
      refine Or.inr (Or.inl ?_)
      rw [RecordRefundInput.toman, reversal_eq_none hrows hrevs]
    | some rev =>
      obtain ⟨hcomm, hrecv⟩ := recorded_pair hp (reversal_of hrevs)
      have hnot : s.recorded rev.commission = false ∧ s.recorded rev.receivable = false :=
        ⟨Bool.eq_false_iff.2 fun h => hnew (hcomm.1 h),
          Bool.eq_false_iff.2 fun h => hnew (hrecv.1 h)⟩
      dsimp only [insertReversal]
      split_ifs
      · exact Or.inl ⟨.sign, rfl⟩
      · simp [hnot.1, hnot.2]

theorem entriesForOrder_append (hof : rev.Of input) {s' : LedgerStore}
    (h : s'.entries = s.entries ++ [rev.commission, rev.receivable]) :
    s'.entriesForOrder orderId = s.entriesForOrder orderId ++
      if input.orderId = orderId then [rev.commission, rev.receivable] else [] := by
  unfold entriesForOrder
  rw [h, filter_append]
  congr 1
  split_ifs with hord
  · simp [hof.commission.1, hof.receivable.1, hord]
  · simp [hof.commission.1, hof.receivable.1, hord]

theorem hasRefund_append (hof : rev.Of input) {s' : LedgerStore} {refundId : Uuid}
    (h : s'.entries = s.entries ++ [rev.commission, rev.receivable]) :
    s'.HasRefund refundId ↔ s.HasRefund refundId ∨ refundId = input.refundId := by
  unfold HasRefund
  rw [h]
  constructor
  · rintro ⟨e, he, href, hid⟩
    rcases mem_append.1 he with he | he
    · exact Or.inl ⟨e, he, href, hid⟩
    · refine Or.inr (hid.symm.trans ?_)
      rcases mem_pair.1 he with rfl | rfl
      · exact hof.commission.2.2
      · exact hof.receivable.2.2
  · rintro (⟨e, he, href, hid⟩ | rfl)
    · exact ⟨e, mem_append_left _ he, href, hid⟩
    · exact ⟨rev.commission, by simp, hof.commission.2.1.1, hof.commission.2.2⟩

theorem paired_append (hp : s.Paired) (hof : rev.Of input) {s' : LedgerStore}
    (h : s'.entries = s.entries ++ [rev.commission, rev.receivable]) : s'.Paired := by
  intro refundId hrefund entryType
  rcases (hasRefund_append hof h).1 hrefund with hrefund | rfl
  · obtain ⟨e, he, hmatch⟩ := hp refundId hrefund entryType
    exact ⟨e, by rw [h]; exact mem_append_left _ he, hmatch⟩
  · cases entryType with
    | commission =>
      exact ⟨rev.commission, by simp [h], hof.commission.2.1.2, hof.commission.2.1.1,
        hof.commission.2.2⟩
    | receivable =>
      exact ⟨rev.receivable, by simp [h], hof.receivable.2.1.2, hof.receivable.2.1.1,
        hof.receivable.2.2⟩

theorem recorded_add (s : LedgerStore) (orderId : Uuid) :
    s.recordedToman orderId .commission + s.recordedToman orderId .receivable =
      s.netToman orderId := by
  unfold recordedToman netToman
  induction s.entriesForOrder orderId with
  | nil => rfl
  | cons e =>
    rw [sumWhere_cons, sumWhere_cons]
    cases e.entryType with
    | commission | receivable => simp; omega

end LedgerStore

end Delivery

/-! ## Every list of deliveries -/

/-- The ledger of an order says what is left of it, split at its own rate. -/
def LedgerStore.AtSplit (s : LedgerStore) (orderId : Uuid) (rateBp : ℤ) : Prop :=
  splitExact (s.netToman orderId) rateBp =
    .ok ⟨s.recordedToman orderId .commission, s.recordedToman orderId .receivable⟩

/-- The ledger of an order after deliveries. -/
structure Telescopes (s : LedgerStore) (orderId : Uuid) (rateBp : ℤ)
    (inputs : List RecordRefundInput) : Prop where
  /-- Every refund counts once. -/
  once : ((s.refunded orderId inputs).map (·.refundId)).Nodup ∧
    ∀ input ∈ s.refunded orderId inputs, ¬s.HasRefund input.refundId
  net : (s.deliverAll inputs).netToman orderId =
    s.netToman orderId - ((s.refunded orderId inputs).map (·.toman)).sum
  sides : (s.deliverAll inputs).recordedToman orderId .commission +
    (s.deliverAll inputs).recordedToman orderId .receivable =
      (s.deliverAll inputs).netToman orderId
  split : s.refunded orderId inputs ≠ [] ∨ s.AtSplit orderId rateBp →
    (s.deliverAll inputs).AtSplit orderId rateBp
  all : s.refunded orderId inputs ≠ [] →
    ((s.refunded orderId inputs).map (·.toman)).sum = s.netToman orderId →
      ∀ entryType, (s.deliverAll inputs).recordedToman orderId entryType = 0
  redelivered : ∀ input, (s.deliverAll inputs).HasRefund input.refundId →
    (s.deliverAll inputs).deliver input = s.deliverAll inputs
  /-- A refund that is new is recorded, or `recordRefund` throws. -/
  new : ∀ input, input.orderId = orderId → ¬(s.deliverAll inputs).HasRefund input.refundId →
    (∃ err, (s.deliverAll inputs).recordRefund input = .error err) ∨ input.toman = 0 ∨
      (s.deliverAll inputs).writes input = true ∧
        ((s.deliverAll inputs).deliver input).HasRefund input.refundId

section Run

variable {s : LedgerStore} {input : RecordRefundInput} {commission receivable : LedgerEntryEntity}
  {reversals : List LedgerEntryEntity} {orderId : Uuid}

/-- The ledger of an order: its payment pair and reversals, each of which has both its rows. -/
structure OrderLedger (s : LedgerStore) (orderId : Uuid) (commission : LedgerEntryEntity) :
    Prop where
  paired : s.Paired
  rows : ∃ receivable reversals,
    LegacyRows commission receivable reversals (s.entriesForOrder orderId)

section

variable (h : OrderLedger s orderId commission)
include h

variable (input : RecordRefundInput)

open LedgerStore

theorem OrderLedger.deliver :
    OrderLedger (s.deliver input) orderId commission := by
  rcases deliver_cases h.paired input with ⟨-, heq⟩ | ⟨-, -, rev, hrevs, hents⟩
  · rwa [heq]
  · have hof := reversal_of hrevs
    obtain ⟨receivable, reversals, hrows⟩ := h.rows
    refine ⟨paired_append h.paired hof hents, receivable,
      reversals ++ if input.orderId = orderId then [rev.commission, rev.receivable] else [], ?_⟩
    rw [entriesForOrder_append hof hents]
    refine hrows.append ?_
    intro e he
    split_ifs at he
    · rcases mem_pair.1 he with rfl | rfl
      · exact hof.commission.2.1.1
      · exact hof.receivable.2.1.1
    · cases he

theorem OrderLedger.deliver_amounts :
    (s.writes input = true ∧ input.orderId = orderId ∧ ¬s.HasRefund input.refundId ∧
        (s.deliver input).netToman orderId = s.netToman orderId - input.toman ∧
        (s.deliver input).AtSplit orderId commission.commissionRateBp) ∨
      ¬(s.writes input = true ∧ input.orderId = orderId) ∧
        (s.deliver input).entriesForOrder orderId = s.entriesForOrder orderId := by
  rcases deliver_cases h.paired input with
    ⟨hwrites, heq⟩ | ⟨hwrites, hnew, rev, hrevs, hents⟩
  · exact Or.inr ⟨by simp [hwrites], by rw [heq]⟩
  · have happend : (s.deliver input).entriesForOrder orderId = s.entriesForOrder orderId ++
        if input.orderId = orderId then [rev.commission, rev.receivable] else [] :=
      entriesForOrder_append (reversal_of hrevs) hents
    by_cases hord : input.orderId = orderId
    · rw [if_pos hord] at happend
      obtain ⟨receivable, _, hrows⟩ := h.rows
      rw [hord] at hrevs
      obtain ⟨target, hsplit, hpart, hrem⟩ := reversal_eq hrows hrevs
      have hof := reversal_of hrevs
      have hside : (s.deliver input).recordedToman orderId .commission = target.part ∧
          (s.deliver input).recordedToman orderId .receivable = target.remainder := by
        unfold recordedToman
        rw [happend]
        simp [hof.commission.2.1.2, hof.receivable.2.1.2, hpart, hrem]
      have hnet : (s.deliver input).netToman orderId = s.netToman orderId - input.toman := by
        rw [← recorded_add, ← recorded_add, hside.1, hside.2,
          splitExact_sum hsplit]
        rfl
      refine Or.inl ⟨hwrites, hord, hnew, hnet, ?_⟩
      rw [LedgerStore.AtSplit, hnet, hside.1, hside.2, ← recorded_add]
      exact hsplit
    · refine Or.inr ⟨fun hboth => hord hboth.2, ?_⟩
      rw [happend, if_neg hord, append_nil]

theorem OrderLedger.hasRefund_deliver (refundId : Uuid) : (s.deliver input).HasRefund refundId ↔
      s.HasRefund refundId ∨ s.writes input = true ∧ refundId = input.refundId := by
  rcases deliver_cases h.paired input with
    ⟨hwrites, heq⟩ | ⟨hwrites, -, rev, hrevs, hents⟩
  · simp [heq, hwrites]
  · rw [hasRefund_append (reversal_of hrevs) hents]
    simp [hwrites]

end

theorem OrderLedger.telescopes_nil (h : OrderLedger s orderId commission) :
    Telescopes s orderId commission.commissionRateBp [] := by
  refine ⟨⟨nodup_nil, by simp [LedgerStore.refunded]⟩, by simp [LedgerStore.refunded,
    LedgerStore.deliverAll], s.recorded_add orderId, ?_, ?_, ?_, ?_⟩
  · rintro (hne | hsplit)
    · exact absurd rfl hne
    exact hsplit
  · exact fun hne => absurd rfl hne
  · intro input hrefund
    rcases LedgerStore.deliver_cases h.paired input with ⟨-, heq⟩ | ⟨-, hnew, -⟩
    · exact heq
    · exact absurd hrefund hnew
  · rintro input rfl hnew
    obtain ⟨_, _, hrows⟩ := h.rows
    rcases LedgerStore.writes_of_new h.paired hrows hnew with herr | hzero | hwrites
    · exact Or.inl herr
    · exact Or.inr (Or.inl hzero)
    · exact Or.inr (Or.inr ⟨hwrites,
        (h.hasRefund_deliver input _).2 (Or.inr ⟨hwrites, rfl⟩)⟩)

/-- A delivery that writes nothing for the order leaves it to the others. -/
theorem OrderLedger.telescopes_same (h : OrderLedger s orderId commission)
    {inputs : List RecordRefundInput}
    (hrest : Telescopes (s.deliver input) orderId commission.commissionRateBp inputs)
    (hnot : ¬(s.writes input = true ∧ input.orderId = orderId))
    (hsame : (s.deliver input).entriesForOrder orderId = s.entriesForOrder orderId) :
    Telescopes s orderId commission.commissionRateBp (input :: inputs) := by
  have hcons : s.refunded orderId (input :: inputs) =
      (s.deliver input).refunded orderId inputs := if_neg hnot
  have hamounts : (s.deliver input).netToman orderId = s.netToman orderId ∧
      ∀ entryType, (s.deliver input).recordedToman orderId entryType =
        s.recordedToman orderId entryType := by
    unfold LedgerStore.netToman LedgerStore.recordedToman
    rw [hsame]
    exact ⟨rfl, fun _ => rfl⟩
  refine ⟨⟨?_, ?_⟩, ?_, hrest.sides, ?_, ?_, hrest.redelivered, hrest.new⟩
  · rw [hcons]
    exact hrest.once.1
  · rw [hcons]
    intro later hmem hrefund
    exact hrest.once.2 later hmem ((h.hasRefund_deliver input _).2 (Or.inl hrefund))
  · rw [hcons, ← hamounts.1]
    exact hrest.net
  · rw [hcons]
    refine fun hor => hrest.split (hor.imp id fun hsplit => ?_)
    rw [LedgerStore.AtSplit, hamounts.1, hamounts.2, hamounts.2]
    exact hsplit
  · rw [hcons, ← hamounts.1]
    exact hrest.all

end Run

/-! ## An order of 101 Toman -/

namespace Partial

/-- The payment at 1500 basis points. -/
def paid : LedgerStore where
  entries :=
    [⟨7, none, .platform, none, .commission, 15, 1500, .orderPayment, 1⟩,
      ⟨7, none, .professional, some 2, .receivable, 86, 1500, .orderPayment, 1⟩]
  outbox := []

/-- 50 and 51 Toman, the first of them delivered twice. -/
def deliveries : List RecordRefundInput := [⟨7, 10, .ofInt 50⟩, ⟨7, 10, .ofInt 50⟩, ⟨7, 11, .ofInt 51⟩]

theorem orderLedger : OrderLedger paid 7
    ⟨7, none, .platform, none, .commission, 15, 1500, .orderPayment, 1⟩ where
  paired := by
    rintro refundId ⟨_, he, href, -⟩
    rcases mem_pair.1 he with rfl | rfl <;> cases href
  rows := ⟨⟨7, none, .professional, some 2, .receivable, 86, 1500, .orderPayment, 1⟩, [], rfl,
    ⟨rfl, rfl⟩, ⟨rfl, rfl⟩, by simp⟩

end Partial

end BeauClick.Financial
