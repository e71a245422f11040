import BeauClick.CommercialPolicy.OutcomePolicy

/-!
# What a booking outcome retains

`evaluateBookingOutcome` (`services/commercial-policy/src/outcome-evaluation/`) and the
vocabulary of `booking-outcome-decision-contract.ts`: from the facts a decision has read, how
much of what remains collected is retained and how much is refunded.
-/

namespace BeauClick.CommercialPolicy

/-- `BOOKING_OUTCOME_CAUSES`. -/
inductive OutcomeCause where
  | customer
  | seller
  | platform
  | provider
  | forceMajeure
  | noShow
  deriving DecidableEq

/-- `LEGAL_CAP_STATES`. -/
inductive LegalCapState where
  | applied
  | absent
  | retired
  deriving DecidableEq

/-- `BOOKING_OUTCOME_BASES`. -/
inductive OutcomeBasis where
  | legacyUnenrolled
  | invalidTerms
  | nonCustomerCause
  | notConfirmed
  | timely
  | capAbsent
  | capRetired
  | capApplied
  | preExistingRefund
  deriving DecidableEq

/-- `BookingOutcomeEvaluationTermsV1`. -/
structure EvaluationTerms where
  lateCancellationRetention : RetentionRule
  noShowRetention : RetentionRule
  legalCap : Option RetentionRule

/-- `BookingOutcomeEvaluationInputV1`. -/
structure EvaluationInput where
  cause : OutcomeCause
  bookingWasConfirmed : Bool
  timely : Option Bool
  collectedRemainingToman : ℤ
  terms : Option EvaluationTerms
  legalCapState : LegalCapState

/-- `BookingOutcomeEvaluationV1`. -/
structure Evaluation where
  basis : OutcomeBasis
  policyAmountToman : ℤ
  legalCapToman : Option ℤ
  legalCapState : LegalCapState
  retainedToman : ℤ
  refundToman : ℤ

/-- `retentionAmount`; `BigInt` division truncates. -/
def retentionAmount (rule : RetentionRule) (collectedRemaining : ℤ) : Option ℤ :=
  match rule with
  | .none => some 0
  | .fullCollected => some collectedRemaining
  | .percentageOfCollected basisPoints =>
    if basisPoints < 1 ∨ 9999 < basisPoints then none
    else some ((collectedRemaining * basisPoints).tdiv 10000)
  | .fixedToman amountToman =>
    if amountToman ≤ 0 ∨ maxOutcomeAmountToman < amountToman then none else some amountToman

/-- The answer that refunds everything. -/
def retainNothing (collected : ℤ) (basis : OutcomeBasis) (policyAmountToman : ℤ)
    (legalCapToman : Option ℤ) (legalCapState : LegalCapState) : Evaluation where
  basis := basis
  policyAmountToman := policyAmountToman
  legalCapToman := legalCapToman
  legalCapState := legalCapState
  retainedToman := 0
  refundToman := collected

/-- The cap's state and amount: a cap that is applied without a valid rule is absent. -/
def appliedCap (terms : EvaluationTerms) (legalCapState : LegalCapState) (collected : ℤ) :
    LegalCapState × Option ℤ :=
  match legalCapState with
  | .applied =>
    match terms.legalCap.bind fun cap => retentionAmount cap collected with
    | some capAmount => (.applied, some capAmount)
    | none => (.absent, none)
  | state => (state, none)

/-- `evaluateBookingOutcome`; `none` when it throws. -/
def evaluateBookingOutcome (input : EvaluationInput) : Option Evaluation :=
  let collected := input.collectedRemainingToman
  if collected < 0 then none
  else
    let zero := retainNothing collected
    match input.terms with
    | none => some (zero .legacyUnenrolled 0 none .absent)
    | some terms =>
      let isNoShow : Bool := input.cause = .noShow
      let rule := if isNoShow then terms.noShowRetention else terms.lateCancellationRetention
      match retentionAmount rule collected with
      | none => some (zero .invalidTerms 0 none .absent)
      | some policyAmount =>
        if !isNoShow && input.timely.isNone then some (zero .invalidTerms 0 none .absent)
        else
          let cap := appliedCap terms input.legalCapState collected
          if !isNoShow && input.cause ≠ .customer then
            some (zero .nonCustomerCause policyAmount cap.2 cap.1)
          else if !input.bookingWasConfirmed then
            some (zero .notConfirmed policyAmount cap.2 cap.1)
          else if !isNoShow && input.timely = some true then
            some (zero .timely policyAmount cap.2 cap.1)
          else if cap.1 = .retired then some (zero .capRetired policyAmount none .retired)
          else
            match cap.1, cap.2 with
            | .absent, _ | _, none => some (zero .capAbsent policyAmount none .absent)
            | _, some capAmount =>
              let retained := min (min policyAmount capAmount) collected
              some {
                basis := .capApplied
                policyAmountToman := policyAmount
                legalCapToman := some capAmount
                legalCapState := .applied
                retainedToman := retained
                refundToman := collected - retained }

/-! ## What it can answer -/

variable {input : EvaluationInput} {r : Evaluation}

/-- Everything is refunded, or the cap has been applied to a customer's late cancellation or a
no-show. -/
def Splits (input : EvaluationInput) (r : Evaluation) : Prop :=
  (r.retainedToman = 0 ∧ r.refundToman = input.collectedRemainingToman ∧ r.basis ≠ .capApplied) ∨
    (r.basis = .capApplied ∧ (input.cause = .customer ∨ input.cause = .noShow) ∧
      r.retainedToman ≤ input.collectedRemainingToman ∧
      r.refundToman = input.collectedRemainingToman - r.retainedToman)

/-- Every rule but the last answers with `retainNothing`. -/
theorem retainsNothing {basis : OutcomeBasis} {policyAmount : ℤ} {cap : Option ℤ}
    {state : LegalCapState} (hbasis : basis ≠ .capApplied)
    (h : some (retainNothing input.collectedRemainingToman basis policyAmount cap state) = some r) :
    Splits input r := by
  cases h
  exact Or.inl ⟨rfl, rfl, hbasis⟩

section

variable (h : evaluateBookingOutcome input = some r)
include h

theorem evaluate_cases : 0 ≤ input.collectedRemainingToman ∧ Splits input r := by
  unfold evaluateBookingOutcome at h
  dsimp only at h
  split at h
  · cases h
  rename_i hnonneg
  refine ⟨not_lt.1 hnonneg, ?_⟩
  split at h
  · exact retainsNothing (by decide) h
  · split at h
    · exact retainsNothing (by decide) h
    · split at h
      · exact retainsNothing (by decide) h
      · split at h
        · exact retainsNothing (by decide) h
        · rename_i hcause
          split at h
          · exact retainsNothing (by decide) h
          · split at h
            · exact retainsNothing (by decide) h
            · split at h
              · exact retainsNothing (by decide) h
              · split at h
                · exact retainsNothing (by decide) h
                · exact retainsNothing (by decide) h
                · cases h
                  refine Or.inr ⟨rfl, ?_, min_le_right _ _, rfl⟩
                  by_cases hc : input.cause = .customer
                  · exact Or.inl hc
                  · right
                    simpa [hc] using hcause

theorem evaluate_refund_nonneg : 0 ≤ r.refundToman := by
  obtain ⟨hnonneg, ⟨-, href, -⟩ | ⟨-, -, hle, href⟩⟩ := evaluate_cases h <;> omega

theorem evaluate_nonCustomer
    (hcust : input.cause ≠ .customer) (hnoShow : input.cause ≠ .noShow) :
    r.refundToman = input.collectedRemainingToman ∧ r.basis ≠ .capApplied := by
  obtain ⟨-, ⟨-, href, hbasis⟩ | ⟨-, hcause, -, -⟩⟩ := evaluate_cases h
  · exact ⟨href, hbasis⟩
  · rcases hcause with hcause | hcause
    · exact absurd hcause hcust
    exact absurd hcause hnoShow

end

end BeauClick.CommercialPolicy
