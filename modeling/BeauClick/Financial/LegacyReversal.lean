import BeauClick.CommercialPolicy.Commission
import BeauClick.Financial.Telescoping
import BeauClick.Money.Rounding

/-!
# The two reversals of a legacy order

The policy engine states the reversal of a legacy order with a floor
(`packages/commercial-policy-contract/src/commission-policy-contract.ts`), and the ledger that such
an order stays on reverses with the rounding that booked it.

* `legacyCommissionReversalToman` — the engine's amount for one refund.
* `OrderLedger.recordRefund_cases` — what the ledger writes for one refund.
* `reversals_agree_iff` — the refunds for which the two agree.
-/

namespace BeauClick

open List

namespace CommercialPolicy

open Money (JsNumber maxAmountToman basisPointsDenominator roundedDown)

/-- The argument of `legacyCommissionReversalToman`. -/
structure LegacyReversalInput where
  originalNetToman : JsNumber
  refundedToDateToman : JsNumber
  originalRateBp : JsNumber
  alreadyReversedToman : JsNumber

/-- What `legacyCommissionReversalToman` throws. -/
inductive LegacyReversalError where
  | check (err : CommissionError)
  | originalRateExceeds
  | refundedExceedsNet

/-- What one refund takes back of the commission. -/
def legacyCommissionReversalToman (input : LegacyReversalInput) : Except LegacyReversalError ℤ := do
  let net ← (requireInteger "originalNetToman" input.originalNetToman).mapError .check
  let refunded ← (requireInteger "refundedToDateToman" input.refundedToDateToman).mapError .check
  let reversed ← (requireInteger "alreadyReversedToman" input.alreadyReversedToman).mapError .check
  let rate ← (requireInteger "originalRateBp" input.originalRateBp).mapError .check
  if maxCommissionBasisPoints < rate then throw .originalRateExceeds
  if net < refunded then throw .refundedExceedsNet
  let remainingNet := net - refunded
  let commissionOnRemaining := (remainingNet * rate).tdiv maxCommissionBasisPoints
  let commissionOriginal := (net * rate).tdiv maxCommissionBasisPoints
  let owedReversal := commissionOriginal - commissionOnRemaining
  let now := owedReversal - reversed
  return if 0 < now then now else 0

theorem legacyCommissionReversalToman_eq {net rest left rate : ℤ} (hmax : net ≤ maxAmountToman)
    (hrest : rest ≤ net) (hleft : 0 ≤ left) (hle : left ≤ rest) (hrate : 0 ≤ rate)
    (hrates : rate ≤ basisPointsDenominator) :
    legacyCommissionReversalToman ⟨.ofInt net, .ofInt (net - left), .ofInt rate,
      .ofInt (roundedDown net rate - roundedDown rest rate)⟩ =
        .ok (roundedDown rest rate - roundedDown left rate) := by
  have hsub : ∀ {n m : ℤ}, m ≤ n → roundedDown m rate ≤ roundedDown n rate := by
    intro n m hmn
    have h : roundedDown (n - (n - m)) rate ≤ roundedDown n rate :=
      (Money.roundedDown_sub (sub_nonneg.2 hmn) hrate hrates).1
    rwa [sub_sub_cancel] at h
  have hnet : roundedDown net rate ≤ net :=
    Int.ediv_le_of_le_mul (by decide)
      (mul_le_mul_of_nonneg_left hrates (hleft.trans (hle.trans hrest)))
  have hrestToman := Money.roundedDown_nonneg (hleft.trans hle) hrate
  have hok : ∀ {label : String} {n : ℤ}, 0 ≤ n → n ≤ maxAmountToman →
      requireInteger label (.ofInt n) = .ok n := fun hn hm => requireInteger_eq_ok ⟨rfl, hn, hm⟩
  have hnonneg := hleft.trans hle
  have hbound : rate ≤ maxAmountToman := hrates.trans (by decide)
  have hdiv : ∀ {n : ℤ}, 0 ≤ n → (n * rate).tdiv maxCommissionBasisPoints = roundedDown n rate :=
    fun hn => Int.tdiv_eq_ediv_of_nonneg (mul_nonneg hn hrate)
  rw [legacyCommissionReversalToman, hok (by omega) hmax, hok (by omega) (by omega),
    hok (sub_nonneg.2 (hsub hrest)) (by omega), hok hrate hbound]
  have hthrow : ¬maxCommissionBasisPoints < rate := not_lt.2 hrates
  have hwithin : ¬net < net - left := by omega
  have hamount := hsub hle
  simp only [Except.mapError, bind, Except.bind, if_neg hthrow, if_neg hwithin, sub_sub_cancel, pure,
    Except.pure, hdiv hleft, hdiv (hnonneg.trans hrest)]
  congr 1
  split_ifs with hpos <;> omega

end CommercialPolicy

namespace Financial

open Money Table Commerce CommercialPolicy

/-! ## The two sequences -/

/-- A refund of an order. -/
structure Refund where
  refundId : Uuid
  amountToman : ℤ

/-- The refund, as `recordRefund` is given it. -/
def Refund.input (refund : Refund) (orderId : Uuid) : RecordRefundInput where
  orderId := orderId
  refundId := refund.refundId
  refundAmountToman := .ofInt refund.amountToman

/-- The commission that `recordRefund` writes for a refund, `none` where it throws. -/
def LedgerStore.writtenCommission (s : LedgerStore) (orderId : Uuid) (refund : Refund) : Option ℤ :=
  match s.recordRefund (refund.input orderId) with
  | .ok (_, s') =>
    some (s'.recordedToman orderId .commission - s.recordedToman orderId .commission)
  | .error _ => none

/-- The commissions that `recordRefund` writes, one refund after the other. -/
def LedgerStore.writtenCommissions (orderId : Uuid) : LedgerStore → List Refund → List (Option ℤ)
  | _, [] => []
  | s, refund :: refunds =>
    s.writtenCommission orderId refund ::
      writtenCommissions orderId (s.deliver (refund.input orderId)) refunds

/-- The commissions that the engine reverses, each refund given what was refunded and reversed
before it. -/
def legacyReversals (net rate : ℤ) : ℤ → ℤ → List Refund → List (Option ℤ)
  | _, _, [] => []
  | refundedToDate, reversed, refund :: refunds =>
    match legacyCommissionReversalToman ⟨.ofInt net, .ofInt (refundedToDate + refund.amountToman),
        .ofInt rate, .ofInt reversed⟩ with
    | .ok now =>
      some now ::
        legacyReversals net rate (refundedToDate + refund.amountToman) (reversed + now) refunds
    | .error _ =>
      none :: legacyReversals net rate (refundedToDate + refund.amountToman) reversed refunds

/-- What is left of a net amount after each refund. -/
def remaining : ℤ → List Refund → List ℤ
  | _, [] => []
  | net, refund :: refunds =>
    (net - refund.amountToman) :: remaining (net - refund.amountToman) refunds

/-- Refunds of an order within its net: none is recorded yet, and no two are one. -/
structure Refundable (s : LedgerStore) (orderId : Uuid) (refunds : List Refund) : Prop where
  nonneg : ∀ refund ∈ refunds, 0 ≤ refund.amountToman
  within : (refunds.map (·.amountToman)).sum ≤ s.netToman orderId
  new : ∀ refund ∈ refunds, ¬s.HasRefund refund.refundId
  once : (refunds.map (·.refundId)).Nodup

/-! ## One refund -/

section Step

variable {s : LedgerStore} {orderId : Uuid} {commission : LedgerEntryEntity} {refund : Refund}
  {refunds : List Refund} {rate : ℤ}

theorem LedgerStore.AtSplit.bounds (h : s.AtSplit orderId rate) :
    s.netToman orderId ≤ maxAmountToman ∧ 0 ≤ rate ∧ rate ≤ basisPointsDenominator := by
  unfold LedgerStore.AtSplit splitExact percentOf at h
  cases hamount : assertAmount (.ofInt (s.netToman orderId)) with
  | error => simp [hamount] at h
  | ok =>
    cases hrate : assertRateBasisPoints rate with
    | error => simp [hamount, hrate] at h
    | ok =>
      have hr : ¬(rate < 0 ∨ basisPointsDenominator < rate) := by
        intro hout
        rw [assertRateBasisPoints, if_pos hout] at hrate
        cases hrate
      have ha : ¬(s.netToman orderId > maxAmountToman ∨ s.netToman orderId < minAmountToman) := by
        intro hout
        simp [assertAmount, JsNumber.ofInt, hout] at hamount
      omega

theorem LedgerStore.AtSplit.amounts (h : s.AtSplit orderId rate) (hnet : 0 ≤ s.netToman orderId) :
    s.recordedToman orderId .commission = rounded (s.netToman orderId) rate ∧
      s.recordedToman orderId .receivable =
        s.netToman orderId - rounded (s.netToman orderId) rate := by
  obtain ⟨hmax, hrate, hrates⟩ := h.bounds
  rw [LedgerStore.AtSplit, splitExact_eq hrates hnet hmax hrate] at h
  injection h with h
  exact ⟨(congrArg ExactSplit.part h).symm, (congrArg ExactSplit.remainder h).symm⟩

theorem LedgerStore.atSplit_of_rounded (hnet : 0 ≤ s.netToman orderId)
    (hmax : s.netToman orderId ≤ maxAmountToman) (hrate : 0 ≤ rate)
    (hrates : rate ≤ basisPointsDenominator)
    (hcomm : s.recordedToman orderId .commission = rounded (s.netToman orderId) rate) :
    s.AtSplit orderId rate := by
  have hsum := s.recorded_add orderId
  rw [LedgerStore.AtSplit, splitExact_eq hrates hnet hmax hrate, ← hcomm]
  congr 2
  omega

theorem Refund.input_toman (hamount : 0 ≤ refund.amountToman)
    (hmax : refund.amountToman ≤ maxAmountToman) :
    (refund.input orderId).toman = refund.amountToman := by
  rw [RecordRefundInput.toman, Refund.input]
  rw [assertNonNegativeAmount_ofInt hamount hmax]

section

variable (h : OrderLedger s orderId commission)
  (hsplit : s.AtSplit orderId commission.commissionRateBp) (hamount : 0 ≤ refund.amountToman)
  (hwithin : refund.amountToman ≤ s.netToman orderId)
include h hsplit hamount hwithin

/-- Where both percentages round the same way, nothing throws. -/
theorem OrderLedger.recordRefund_ne_error {err : LedgerError}
    (hiff : RoundsUp (s.netToman orderId - refund.amountToman) commission.commissionRateBp ↔
      RoundsUp (s.netToman orderId) commission.commissionRateBp) :
    s.recordRefund (refund.input orderId) ≠ .error err := by
  intro hrec
  obtain ⟨hmax, hrate, hrates⟩ := hsplit.bounds
  have hsides := hsplit.amounts (hamount.trans hwithin)
  have htoman : (refund.input orderId).toman = refund.amountToman :=
    Refund.input_toman hamount (hwithin.trans hmax)
  have htarget := splitExact_eq hrates (sub_nonneg.2 hwithin) (by omega) hrate
  obtain ⟨receivable, _, hrows⟩ := h.rows
  have hdown : roundedDown (s.netToman orderId - refund.amountToman) commission.commissionRateBp ≤
      roundedDown (s.netToman orderId) commission.commissionRateBp ∧ _ :=
    roundedDown_sub hamount hrate hrates
  unfold LedgerStore.recordRefund at hrec
  cases hrevs : reversal (s.entriesForOrder (refund.input orderId).orderId)
      (refund.input orderId) with
  | error =>
    have hsum := LedgerStore.recorded_add s orderId
    unfold LedgerStore.recordedToman at hsum
    unfold reversal Refund.input at hrevs
    rw [assertNonNegativeAmount_ofInt hamount (hwithin.trans hmax)] at hrevs
    dsimp only at hrevs
    split_ifs at hrevs
    rw [hrows.find_commission, hrows.find_receivable] at hrevs
    dsimp only at hrevs
    rw [show commission.amountToman + receivable.amountToman -
        -(priorReversed .commission (s.entriesForOrder orderId) +
          priorReversed .receivable (s.entriesForOrder orderId)) - refund.amountToman =
            s.netToman orderId - refund.amountToman by
      rw [← hsum, hrows.sum_commission, hrows.sum_receivable]
      ring, htarget] at hrevs
    cases hrevs
  | ok found =>
    rw [hrevs] at hrec
    cases found with
    | none => cases hrec
    | some =>
      obtain ⟨_, hsplit', hpart, hrem⟩ := reversal_eq hrows hrevs
      rw [htoman] at hsplit'
      change splitExact (s.recordedToman orderId .commission +
        s.recordedToman orderId .receivable - refund.amountToman) _ = _ at hsplit'
      rw [LedgerStore.recorded_add, htarget] at hsplit'
      cases hsplit'
      change s.recordedToman orderId .commission + _ = _ at hpart
      change s.recordedToman orderId .receivable + _ = _ at hrem
      have hround := rounded_sub_iff.2 hiff
      dsimp only [LedgerStore.insertReversal] at hrec hpart hrem
      split_ifs at hrec with hsign
      · omega
      · split at hrec <;> cases hrec

/-- A new refund within the net is booked as the difference of two rounded percentages, or throws;
it throws only where one of the two rounds up and the other down. -/
theorem OrderLedger.recordRefund_cases (hnew : ¬s.HasRefund refund.refundId) :
    s.writtenCommission orderId refund =
        some (rounded (s.netToman orderId - refund.amountToman) commission.commissionRateBp -
          rounded (s.netToman orderId) commission.commissionRateBp) ∧
      (s.deliver (refund.input orderId)).netToman orderId =
        s.netToman orderId - refund.amountToman ∧
      (s.deliver (refund.input orderId)).AtSplit orderId commission.commissionRateBp ∨
    s.writtenCommission orderId refund = none ∧
      ¬(RoundsUp (s.netToman orderId - refund.amountToman) commission.commissionRateBp ↔
        RoundsUp (s.netToman orderId) commission.commissionRateBp) := by
  obtain ⟨hmax, -, -⟩ := hsplit.bounds
  have hnet := hamount.trans hwithin
  have hsides := hsplit.amounts hnet
  have htoman : (refund.input orderId).toman = refund.amountToman :=
    Refund.input_toman hamount (hwithin.trans hmax)
  have hleft : 0 ≤ s.netToman orderId - refund.amountToman := sub_nonneg.2 hwithin
  obtain ⟨_, _, hrows⟩ := h.rows
  unfold LedgerStore.writtenCommission
  cases hrec : s.recordRefund (refund.input orderId) with
  | ok found =>
    refine Or.inl ?_
    have hdeliv : s.deliver (refund.input orderId) = found.2 := by
      rw [LedgerStore.deliver, hrec]
    dsimp only
    rw [← hdeliv]
    rcases h.deliver_amounts (refund.input orderId) with ⟨-, -, -, hleftNet, hleftSplit⟩ | ⟨hnot, hsame⟩
    · rw [htoman] at hleftNet
      refine ⟨?_, hleftNet, hleftSplit⟩
      rw [(hleftSplit.amounts (hleftNet ▸ hleft)).1, hsides.1, hleftNet]
    · -- nothing is written of a refund that is new, so it is of nothing
      have hzero : refund.amountToman = 0 := by
        have hnone : ¬s.HasRefund (refund.input orderId).refundId := hnew
        rcases LedgerStore.writes_of_new h.paired hrows hnone with ⟨_, herr⟩ | hzero | hwrites
        · rw [hrec] at herr
          cases herr
        · exact htoman.symm.trans hzero
        · exact absurd ⟨hwrites, rfl⟩ hnot
      unfold LedgerStore.AtSplit LedgerStore.recordedToman LedgerStore.netToman at *
      rw [hsame, hzero, sub_zero, sub_self, sub_self]
      exact ⟨rfl, rfl, hsplit⟩
  | error =>
    exact Or.inr ⟨rfl, fun hiff =>
      h.recordRefund_ne_error hsplit hamount hwithin hiff hrec⟩

end

theorem Refundable.tail (h : OrderLedger s orderId commission)
    (hr : Refundable s orderId (refund :: refunds))
    (hnet : (s.deliver (refund.input orderId)).netToman orderId =
      s.netToman orderId - refund.amountToman) :
    Refundable (s.deliver (refund.input orderId)) orderId refunds where
  nonneg := fun later hlater => hr.nonneg later (mem_cons_of_mem _ hlater)
  within := by
    have hwithin := hr.within
    rw [map_cons, sum_cons] at hwithin
    rw [hnet]
    omega
  new := by
    intro later hlater hrefund
    rcases (h.hasRefund_deliver _ _).1 hrefund with hrefund | ⟨-, heq⟩
    · exact hr.new later (mem_cons_of_mem _ hlater) hrefund
    · have honce := hr.once
      rw [map_cons, nodup_cons] at honce
      exact honce.1 (mem_map.2 ⟨later, hlater, heq⟩)
  once := (nodup_cons.1 hr.once).2

end Step

/-! ## Every sequence of refunds -/

section Agreement

variable {s : LedgerStore} {orderId : Uuid} {commission : LedgerEntryEntity}

/-- Where all that was owed is reversed, the rest of the refunds agree exactly when nothing that
remains rounds differently. -/
theorem reversals_agree_of_owed {net : ℤ} (h : OrderLedger s orderId commission)
    (hsplit : s.AtSplit orderId commission.commissionRateBp) (hle : s.netToman orderId ≤ net)
    (hmax : net ≤ maxAmountToman) (refunds : List Refund) (hr : Refundable s orderId refunds) :
    s.writtenCommissions orderId refunds =
        (legacyReversals net commission.commissionRateBp (net - s.netToman orderId)
          (roundedDown net commission.commissionRateBp -
            roundedDown (s.netToman orderId) commission.commissionRateBp) refunds).map
              (Option.map (- ·)) ↔
      ∀ left ∈ remaining (s.netToman orderId) refunds,
        (RoundsUp left commission.commissionRateBp ↔
          RoundsUp (s.netToman orderId) commission.commissionRateBp) := by
  induction refunds generalizing s with
  | nil => simp [LedgerStore.writtenCommissions, legacyReversals, remaining]
  | cons refund refunds ih =>
    obtain ⟨-, hrate, hrates⟩ := hsplit.bounds
    have hamount := hr.nonneg refund mem_cons_self
    have hwithin : refund.amountToman ≤ s.netToman orderId := by
      have hall := hr.within
      have hrest : 0 ≤ (refunds.map (·.amountToman)).sum := by
        refine sum_nonneg ?_
        intro amount hmem
        obtain ⟨later, hlater, rfl⟩ := mem_map.1 hmem
        exact hr.nonneg later (mem_cons_of_mem _ hlater)
      rw [map_cons, sum_cons] at hall
      omega
    have howed := legacyCommissionReversalToman_eq hmax hle (sub_nonneg.2 hwithin)
      (sub_le_self _ hamount) hrate hrates
    rw [← sub_add] at howed
    rw [LedgerStore.writtenCommissions, legacyReversals, howed, remaining, forall_mem_cons]
    rw [map_cons, cons_eq_cons, Option.map_some]
    rcases h.recordRefund_cases hsplit hamount hwithin (hr.new refund mem_cons_self) with
      ⟨hwrit, hnet, hleft⟩ | ⟨hthrown, hnot⟩
    · -- the step agrees exactly when what is left rounds as before
      rw [hwrit, Option.some_inj, rounded_sub_iff]
      refine and_congr_right ?_
      intro hsame
      have hrest := ih (h.deliver (refund.input orderId)) hleft (by omega) (hr.tail h hnet)
      rw [hnet, ← sub_add] at hrest
      rw [sub_add_sub_cancel, hrest]
      simp only [hsame]
    · rw [hthrown]
      simp [hnot]

/-- The reversal of the engine is what the ledger writes, refund by refund, exactly when the
percentages of what remains all round as that of the net does. -/
theorem reversals_agree_iff (h : OrderLedger s orderId commission)
    (hsplit : s.AtSplit orderId commission.commissionRateBp) (refunds : List Refund)
    (hr : Refundable s orderId refunds) :
    s.writtenCommissions orderId refunds =
        (legacyReversals (s.netToman orderId) commission.commissionRateBp 0 0 refunds).map
          (Option.map (- ·)) ↔
      ∀ left ∈ remaining (s.netToman orderId) refunds,
        (RoundsUp left commission.commissionRateBp ↔
          RoundsUp (s.netToman orderId) commission.commissionRateBp) := by
  have hall := reversals_agree_of_owed h hsplit le_rfl hsplit.bounds.1 refunds hr
  rwa [sub_self, sub_self] at hall

end Agreement

/-! ## An order of 101 Toman, and one of 51 -/

namespace Partial

/-- 1 Toman, and the rest. -/
def refunds : List Refund := [⟨10, 1⟩, ⟨11, 100⟩]

theorem refundable : Refundable paid 7 refunds where
  nonneg := by decide
  within := by decide
  new := by
    rintro refund - ⟨_, he, href, -⟩
    rcases mem_pair.1 he with rfl | rfl <;> cases href
  once := by decide

end Partial

theorem reversals_agree_partial :
    Partial.paid.writtenCommissions 7 Partial.refunds = [some 0, some (-15)] ∧
      (Partial.paid.writtenCommissions 7 Partial.refunds =
          (legacyReversals 101 1500 0 0 Partial.refunds).map (Option.map (- ·)) ↔
        ∀ left ∈ remaining 101 Partial.refunds, (RoundsUp left 1500 ↔ RoundsUp 101 1500)) :=
  ⟨by decide +kernel, reversals_agree_iff Partial.orderLedger
    (LedgerStore.atSplit_of_rounded (by decide) (by decide) (by decide) (by decide)
      (by decide +kernel)) Partial.refunds Partial.refundable⟩

namespace Whole

/-- The payment at 1500 basis points. -/
def paid : LedgerStore where
  entries :=
    [⟨7, none, .platform, none, .commission, 8, 1500, .orderPayment, 1⟩,
      ⟨7, none, .professional, some 2, .receivable, 43, 1500, .orderPayment, 1⟩]
  outbox := []

def refunds : List Refund := [⟨10, 51⟩]

end Whole

/-- Of 8 Toman that were booked, the ledger reverses 8 and the engine 7. -/
theorem reversals_differ_whole : Whole.paid.AtSplit 7 1500 ∧ Whole.paid.netToman 7 = 51 ∧
    Whole.paid.writtenCommissions 7 Whole.refunds = [some (-8)] ∧
    legacyReversals 51 1500 0 0 Whole.refunds = [some 7] := by
  refine ⟨?_, ?_, ?_, ?_⟩
  · exact LedgerStore.atSplit_of_rounded (by decide) (by decide) (by decide) (by decide)
      (by decide +kernel)
  · rfl
  · decide +kernel
  · decide +kernel

end Financial

end BeauClick
