import BeauClick.CommercialPolicy.Evaluation

/-!
# Why a booking outcome retains nothing

The order of the rules of `evaluateBookingOutcome`, as its docblock gives it, and what the
amounts of a decision are.

* `EvaluationInput.Applies` — a documented reason to retain nothing applies.
* `evaluate_decides` — the basis is the first of them, and without one the smallest of the three
  amounts is retained.
* `outcome_splits` — the split is exact, and grows with what is collected and with the cap.
-/

namespace BeauClick.CommercialPolicy

open Option

/-! ## The facts of a decision -/

/-- The contract admits the rule. -/
def RetentionRule.Admitted (rule : RetentionRule) : Prop := rule.problems "rule" = []
  deriving Decidable

namespace EvaluationInput

variable (input : EvaluationInput)

/-- The rule that the event reads: a no-show has one of its own. -/
def rule (terms : EvaluationTerms) : RetentionRule :=
  if input.cause = .noShow then terms.noShowRetention else terms.lateCancellationRetention

/-- What the rule asks for. -/
def policyAmount : ℤ :=
  (input.terms.bind fun terms =>
    retentionAmount (input.rule terms) input.collectedRemainingToman).getD 0

/-- The cap that applies. -/
def legalCap : Option ℤ :=
  input.terms.bind fun terms =>
    (appliedCap terms input.legalCapState input.collectedRemainingToman).2

/-- The terms carry a cap that the contract admits. -/
def HasCapRule : Prop := ∃ terms ∈ input.terms, ∃ cap ∈ terms.legalCap, cap.Admitted
  deriving Decidable

/-- A documented reason to retain nothing applies. -/
def Applies : OutcomeBasis → Prop
  | .legacyUnenrolled => input.terms = none
  | .invalidTerms => (∃ terms ∈ input.terms, ¬(input.rule terms).Admitted) ∨
      input.cause ≠ .noShow ∧ input.timely = none
  | .nonCustomerCause => input.cause ≠ .customer ∧ input.cause ≠ .noShow
  | .notConfirmed => input.bookingWasConfirmed = false
  | .timely => input.cause ≠ .noShow ∧ input.timely = some true
  | .capAbsent => input.legalCapState = .absent ∨
      input.legalCapState = .applied ∧ ¬input.HasCapRule
  | .capRetired => input.legalCapState = .retired
  | .capApplied | .preExistingRefund => False

instance : DecidablePred input.Applies
  | .legacyUnenrolled => decidable_of_iff (input.terms.isNone = true) isNone_iff_eq_none
  | .invalidTerms => inferInstanceAs (Decidable (_ ∨ _))
  | .nonCustomerCause => inferInstanceAs (Decidable (_ ∧ _))
  | .notConfirmed => inferInstanceAs (Decidable (_ = _))
  | .timely => inferInstanceAs (Decidable (_ ∧ _))
  | .capAbsent => inferInstanceAs (Decidable (_ ∨ _))
  | .capRetired => inferInstanceAs (Decidable (_ = _))
  | .capApplied | .preExistingRefund => inferInstanceAs (Decidable False)

end EvaluationInput

/-- The reasons in the order of the docblock. -/
def refusals : List OutcomeBasis :=
  [.legacyUnenrolled, .invalidTerms, .nonCustomerCause, .notConfirmed, .timely, .capAbsent,
    .capRetired]

/-- The first reason that applies. -/
def EvaluationInput.refusal (input : EvaluationInput) : Option OutcomeBasis :=
  refusals.find? fun basis => input.Applies basis

/-- The same facts under another cap. -/
def EvaluationInput.withCap (input : EvaluationInput) (cap : Option RetentionRule)
    (state : LegalCapState) : EvaluationInput :=
  { input with
    terms := input.terms.map fun terms => { terms with legalCap := cap }
    legalCapState := state }

/-- What the decision promises about its amounts. -/
structure SplitsCollected (input : EvaluationInput) (r : Evaluation) : Prop where
  sum : r.retainedToman + r.refundToman = input.collectedRemainingToman
  nonneg : 0 ≤ r.retainedToman
  le_policy : r.retainedToman ≤ input.policyAmount
  le_cap : ∀ cap ∈ input.legalCap, r.retainedToman ≤ cap
  le_collected : r.retainedToman ≤ input.collectedRemainingToman
  /-- Money is only kept on enrolled terms, from a booking that was confirmed, under a cap, and
  for a no-show or a late cancellation of the customer. -/
  permitted : 0 < r.retainedToman → input.terms.isSome = true ∧
    input.bookingWasConfirmed = true ∧
    (input.legalCapState = .applied ∧ ∃ cap, input.legalCap = some cap) ∧
    (input.cause = .noShow ∨ input.cause = .customer ∧ input.timely = some false)
  basis : r.basis = input.refusal.getD .capApplied

/-! ## The amounts of a rule -/

variable {input : EvaluationInput} {terms : EvaluationTerms} {rule : RetentionRule}
  {collected collected' amount : ℤ} {state : LegalCapState}

theorem problem_range_iff {value low high : ℤ} {message : String} :
    problem (!isWholeInRange value low high) message = [] ↔ ¬(value < low ∨ high < value) := by
  simp only [problem, isWholeInRange, Bool.not_eq_true', Bool.and_eq_false_iff,
    decide_eq_false_iff_not]
  split
  · rename_i h
    simp only [List.cons_ne_nil, false_iff, not_not]
    omega
  · rename_i h
    simp only [true_iff]
    omega

theorem retentionAmount_isSome (rule : RetentionRule) (collected : ℤ) :
    (retentionAmount rule collected).isSome ↔ rule.Admitted := by
  cases rule with
  | none | fullCollected => exact iff_of_true rfl rfl
  | percentageOfCollected =>
    simp only [RetentionRule.Admitted, RetentionRule.problems, problem_range_iff, retentionAmount]
    split_ifs with h
    · exact iff_of_false Bool.false_ne_true (not_not.2 h)
    · exact iff_of_true rfl h
  | fixedToman amountToman =>
    have hlow : amountToman ≤ 0 ↔ amountToman < 1 := Int.lt_add_one_iff.symm
    simp only [RetentionRule.Admitted, RetentionRule.problems, problem_range_iff, retentionAmount,
      hlow]
    split_ifs with h
    · exact iff_of_false Bool.false_ne_true (not_not.2 h)
    · exact iff_of_true rfl h

section

variable (h : retentionAmount rule collected = some amount)
include h

theorem retentionAmount_nonneg (hc : 0 ≤ collected) : 0 ≤ amount := by
  cases rule with
  | none | fullCollected => simp [retentionAmount] at h; omega
  | percentageOfCollected =>
    simp only [retentionAmount, ite_none_left_eq_some, not_or, not_lt] at h
    obtain ⟨⟨_, -⟩, h⟩ := h
    cases h
    exact Int.tdiv_nonneg (mul_nonneg hc (by omega)) (by decide)
  | fixedToman =>
    simp only [retentionAmount, ite_none_left_eq_some, not_or, not_le] at h
    obtain ⟨⟨hpos, -⟩, h⟩ := h
    cases h
    exact hpos.le

theorem retentionAmount_mono (hc : 0 ≤ collected) (hle : collected ≤ collected') :
    ∃ amount', retentionAmount rule collected' = some amount' ∧ amount ≤ amount' := by
  cases rule with
  | none => exact ⟨amount, h, le_rfl⟩
  | fullCollected =>
    cases h
    exact ⟨collected', rfl, hle⟩
  | percentageOfCollected basisPoints =>
    simp only [retentionAmount, ite_none_left_eq_some, not_or, not_lt] at h ⊢
    obtain ⟨hrange, h⟩ := h
    cases h
    refine ⟨_, ⟨hrange, rfl⟩, ?_⟩
    have hbp : 0 ≤ basisPoints := by omega
    have hprod : collected * basisPoints ≤ collected' * basisPoints :=
      mul_le_mul_of_nonneg_right hle hbp
    rw [Int.tdiv_eq_ediv_of_nonneg (mul_nonneg hc hbp),
      Int.tdiv_eq_ediv_of_nonneg (mul_nonneg (hc.trans hle) hbp)]
    exact Int.ediv_le_ediv (by decide) hprod
  | fixedToman => exact ⟨amount, h, le_rfl⟩

end

/-! ## What a decision is -/

theorem appliedCap_cases (collected : ℤ) (hterms : input.terms = some terms) :
    (input.Applies .capRetired ∧ ¬input.Applies .capAbsent ∧
        appliedCap terms input.legalCapState collected = (.retired, none)) ∨
      (input.Applies .capAbsent ∧
        appliedCap terms input.legalCapState collected = (.absent, none)) ∨
      (input.legalCapState = .applied ∧ input.HasCapRule ∧
        ∃ cap amount, terms.legalCap = some cap ∧ retentionAmount cap collected = some amount ∧
          appliedCap terms input.legalCapState collected = (.applied, some amount)) := by
  unfold appliedCap
  cases hstate : input.legalCapState with
  | retired =>
    refine Or.inl ⟨hstate, ?_, rfl⟩
    rintro (h | ⟨h, -⟩) <;> cases hstate.symm.trans h
  | absent => exact Or.inr (Or.inl ⟨Or.inl hstate, rfl⟩)
  | applied =>
    right
    cases hcap : terms.legalCap.bind fun cap => retentionAmount cap collected with
    | none =>
      refine Or.inl ⟨Or.inr ⟨hstate, ?_⟩, rfl⟩
      rintro ⟨_, hterms', cap, hrule, hadm⟩
      cases hterms.symm.trans hterms'
      have hsome := (retentionAmount_isSome _ collected).2 hadm
      rw [mem_def.1 hrule, bind_some] at hcap
      rw [hcap] at hsome
      cases hsome
    | some amount =>
      obtain ⟨cap, hrule, hamt⟩ := bind_eq_some_iff.1 hcap
      refine Or.inr ⟨rfl, ⟨terms, hterms, cap, hrule, ?_⟩, cap, amount, hrule, hamt, rfl⟩
      exact (retentionAmount_isSome _ _).1 (by rw [hamt]; rfl)

theorem find?_cons_ite {α : Type*} {P : α → Prop} [DecidablePred P] {a : α} {as : List α} :
    (a :: as).find? (fun b => decide (P b)) =
      if P a then some a else as.find? fun b => decide (P b) := by
  by_cases h : P a
  · rw [if_pos h, List.find?_cons_of_pos (by simpa using h)]
  · rw [if_neg h, List.find?_cons_of_neg (by simpa using h)]

open EvaluationInput

theorem refusal_eq (input : EvaluationInput) : input.refusal =
    if input.Applies .legacyUnenrolled then some .legacyUnenrolled
    else if input.Applies .invalidTerms then some .invalidTerms
    else if input.Applies .nonCustomerCause then some .nonCustomerCause
    else if input.Applies .notConfirmed then some .notConfirmed
    else if input.Applies .timely then some .timely
    else if input.Applies .capAbsent then some .capAbsent
    else if input.Applies .capRetired then some .capRetired
    else none := by
  simp only [refusal, refusals, find?_cons_ite, List.find?_nil]

theorem applies_invalidTerms_iff (hterms : input.terms = some terms) :
    input.Applies .invalidTerms ↔
      retentionAmount (input.rule terms) input.collectedRemainingToman = none ∨
        input.cause ≠ .noShow ∧ input.timely = none := by
  refine or_congr_left ?_
  rw [← not_isSome_iff_eq_none, retentionAmount_isSome]
  constructor
  · rintro ⟨_, hterms', hnot⟩
    cases hterms.symm.trans hterms'
    exact hnot
  · exact fun hnot => ⟨terms, hterms, hnot⟩

/-- The basis is the first documented reason that applies; without one the smallest of what the
rule asks for, the cap and what is collected is retained. -/
structure Decides (input : EvaluationInput) (r : Evaluation) : Prop where
  basis : r.basis = input.refusal.getD .capApplied
  refund : r.refundToman = input.collectedRemainingToman - r.retainedToman
  retained : r.retainedToman = 0 ∧ r.basis ≠ .capApplied ∨
    input.refusal = none ∧ ∃ cap, input.legalCap = some cap ∧
      r.retainedToman = min (min input.policyAmount cap) input.collectedRemainingToman

theorem decides_refused {basis : OutcomeBasis} {cap : Option ℤ}
    (hbasis : input.refusal = some basis) (hne : basis ≠ .capApplied) :
    Decides input (retainNothing input.collectedRemainingToman basis amount cap state) where
  basis := by
    rw [hbasis]
    rfl
  refund := (sub_zero _).symm
  retained := Or.inl ⟨rfl, hne⟩

theorem evaluate_decides (input : EvaluationInput) (hc : 0 ≤ input.collectedRemainingToman) :
    ∃ r, evaluateBookingOutcome input = some r ∧ Decides input r := by
  unfold evaluateBookingOutcome
  rw [if_neg (not_lt.2 hc)]
  have hord := refusal_eq input
  cases hterms : input.terms with
  | none =>
    have hlegacy : input.Applies .legacyUnenrolled := hterms
    rw [if_pos hlegacy] at hord
    exact ⟨_, rfl, decides_refused hord (by decide)⟩
  | some terms =>
    have hlegacy : ¬input.Applies .legacyUnenrolled := by
      intro h
      cases hterms.symm.trans h
    rw [if_neg hlegacy] at hord
    have hrule : (if decide (input.cause = .noShow) = true then terms.noShowRetention
        else terms.lateCancellationRetention) = input.rule terms := by
      simp only [decide_eq_true_eq, EvaluationInput.rule]
    dsimp only
    rw [hrule]
    cases hamt : retentionAmount (input.rule terms) input.collectedRemainingToman with
    | none =>
      rw [if_pos ((applies_invalidTerms_iff hterms).2 (Or.inl hamt))] at hord
      exact ⟨_, rfl, decides_refused hord (by decide)⟩
    | some policyAmount =>
      have hpolicy : input.policyAmount = policyAmount := by
        rw [EvaluationInput.policyAmount, hterms, bind_some, hamt, getD_some]
      dsimp only
      by_cases huntimed : input.cause ≠ .noShow ∧ input.timely = none
      · rw [if_pos (show input.Applies .invalidTerms from Or.inr huntimed)] at hord
        rw [if_pos (by simpa using huntimed)]
        exact ⟨_, rfl, decides_refused hord (by decide)⟩
      have hval : ¬input.Applies .invalidTerms := by
        rw [applies_invalidTerms_iff hterms, hamt]
        exact not_or_intro (some_ne_none policyAmount) huntimed
      rw [if_neg hval] at hord
      rw [if_neg (by simpa using huntimed)]
      by_cases hcause : input.cause ≠ .customer ∧ input.cause ≠ .noShow
      · rw [if_pos (show input.Applies .nonCustomerCause from hcause)] at hord
        rw [if_pos (by simpa [and_comm] using hcause)]
        exact ⟨_, rfl, decides_refused hord (by decide)⟩
      rw [if_neg (show ¬input.Applies .nonCustomerCause from hcause)] at hord
      rw [if_neg (by simpa [and_comm, or_iff_not_imp_left] using hcause)]
      by_cases hconf : input.bookingWasConfirmed = false
      · rw [if_pos (show input.Applies .notConfirmed from hconf)] at hord
        rw [if_pos (by simpa using hconf)]
        exact ⟨_, rfl, decides_refused hord (by decide)⟩
      rw [if_neg (show ¬input.Applies .notConfirmed from hconf)] at hord
      rw [if_neg (by simpa using hconf)]
      by_cases htimely : input.cause ≠ .noShow ∧ input.timely = some true
      · rw [if_pos (show input.Applies .timely from htimely)] at hord
        rw [if_pos (by simpa using htimely)]
        exact ⟨_, rfl, decides_refused hord (by decide)⟩
      rw [if_neg (show ¬input.Applies .timely from htimely)] at hord
      rw [if_neg (by simpa using htimely)]
      obtain ⟨hret, habs, hcap⟩ | ⟨habs, hcap⟩ |
        ⟨hstate, hhas, cap, amount, -, -, hcap⟩ :=
        appliedCap_cases input.collectedRemainingToman hterms
      · rw [if_neg habs, if_pos hret] at hord
        rw [hcap]
        exact ⟨_, rfl, decides_refused hord (by decide)⟩
      · rw [if_pos habs] at hord
        rw [hcap]
        exact ⟨_, rfl, decides_refused hord (by decide)⟩
      · have habs : ¬input.Applies .capAbsent := by
          rintro (h | ⟨-, h⟩)
          · cases hstate.symm.trans h
          · exact h hhas
        have hret : ¬input.Applies .capRetired := by
          intro h
          cases hstate.symm.trans h
        rw [if_neg habs, if_neg hret] at hord
        have hlegal : input.legalCap = some amount := by
          rw [EvaluationInput.legalCap, hterms, bind_some, hcap]
        rw [hcap]
        refine ⟨_, rfl, ?_, rfl, Or.inr ⟨hord, amount, hlegal, ?_⟩⟩
        · rw [hord]
          rfl
        · rw [hpolicy]

/-! ## The amounts of a decision -/

theorem refusal_eq_none_iff :
    input.refusal = none ↔ ∀ basis ∈ refusals, ¬input.Applies basis := by
  simp [refusal]

theorem policyAmount_nonneg (hc : 0 ≤ input.collectedRemainingToman) : 0 ≤ input.policyAmount := by
  unfold policyAmount
  cases h : input.terms.bind fun terms =>
      retentionAmount (input.rule terms) input.collectedRemainingToman with
  | none => exact le_rfl
  | some amount =>
    obtain ⟨_, -, hamt⟩ := bind_eq_some_iff.1 h
    exact retentionAmount_nonneg hamt hc

theorem legalCap_eq_some_iff : input.legalCap = some amount ↔ ∃ terms cap,
    input.terms = some terms ∧ input.legalCapState = .applied ∧ terms.legalCap = some cap ∧
      retentionAmount cap input.collectedRemainingToman = some amount := by
  unfold legalCap
  constructor
  · intro h
    obtain ⟨terms, hterms, h⟩ := bind_eq_some_iff.1 h
    obtain ⟨-, -, hcap⟩ | ⟨-, hcap⟩ | ⟨hstate, -, cap, _, hrule, hamt, hcap⟩ :=
      appliedCap_cases input.collectedRemainingToman hterms
    · rw [hcap] at h
      cases h
    · rw [hcap] at h
      cases h
    · rw [hcap] at h
      cases h
      exact ⟨terms, cap, hterms, hstate, hrule, hamt⟩
  · rintro ⟨_, _, hterms, hstate, hrule, hamt⟩
    simp only [appliedCap, hterms, hstate, hrule, hamt, bind_some]

theorem legalCap_nonneg (hc : 0 ≤ input.collectedRemainingToman)
    (h : input.legalCap = some amount) : 0 ≤ amount := by
  obtain ⟨_, _, -, -, -, hamt⟩ := legalCap_eq_some_iff.1 h
  exact retentionAmount_nonneg hamt hc

theorem Decides.splitsCollected {r : Evaluation} (h : Decides input r)
    (hc : 0 ≤ input.collectedRemainingToman) : SplitsCollected input r := by
  have hsum : r.retainedToman + r.refundToman = input.collectedRemainingToman := by
    have := h.refund
    omega
  have hpolicy := policyAmount_nonneg hc
  obtain ⟨hzero, -⟩ | ⟨hrefusal, cap, hcap, hmin⟩ := h.retained
  · refine ⟨hsum, hzero.ge, hzero.trans_le hpolicy, ?_, hzero.trans_le hc, ?_, h.basis⟩
    · intro cap hcap
      exact hzero.trans_le (legalCap_nonneg hc hcap)
    · intro hpos
      exact absurd hzero hpos.ne'
  · have hcapNonneg := legalCap_nonneg hc hcap
    have hle : r.retainedToman ≤ input.policyAmount ∧ r.retainedToman ≤ cap ∧
        r.retainedToman ≤ input.collectedRemainingToman := by
      rw [hmin]
      exact ⟨(min_le_left _ _).trans (min_le_left _ _), (min_le_left _ _).trans (min_le_right _ _),
        min_le_right _ _⟩
    refine ⟨hsum, ?_, hle.1, ?_, hle.2.2, ?_, h.basis⟩
    · rw [hmin]
      exact le_min (le_min hpolicy hcapNonneg) hc
    · intro cap' hcap'
      cases hcap.symm.trans hcap'
      exact hle.2.1
    · intro _
      have hnone := refusal_eq_none_iff.1 hrefusal
      obtain ⟨_, _, hterms, hstate, -, -⟩ := legalCap_eq_some_iff.1 hcap
      refine ⟨by rw [hterms]; rfl, ?_, ⟨hstate, cap, hcap⟩, ?_⟩
      · exact eq_true_of_ne_false (hnone .notConfirmed (by decide))
      by_cases hnoShow : input.cause = .noShow
      · exact Or.inl hnoShow
      right
      constructor
      · by_contra hcust
        exact hnone .nonCustomerCause (by decide) ⟨hcust, hnoShow⟩
      · match htimely : input.timely with
        | none => exact absurd (Or.inr ⟨hnoShow, htimely⟩) (hnone .invalidTerms (by decide))
        | some true => exact absurd ⟨hnoShow, htimely⟩ (hnone .timely (by decide))
        | some false => rfl

theorem Decides.retained_le {input' : EvaluationInput} {r r' : Evaluation} (h : Decides input r)
    (h' : Decides input' r') (hr' : 0 ≤ r'.retainedToman)
    (hrefusal : input.refusal = none → input'.refusal = none)
    (hpolicy : input.policyAmount ≤ input'.policyAmount)
    (hcap : ∀ amount ∈ input.legalCap, ∃ amount' ∈ input'.legalCap, amount ≤ amount')
    (hcoll : input.collectedRemainingToman ≤ input'.collectedRemainingToman) :
    r.retainedToman ≤ r'.retainedToman := by
  obtain ⟨hzero, -⟩ | ⟨hnone, cap, hlegal, hmin⟩ := h.retained
  · exact hzero.trans_le hr'
  obtain ⟨-, hbasis⟩ | ⟨-, _, hlegal', hmin'⟩ := h'.retained
  · rw [h'.basis, hrefusal hnone] at hbasis
    exact absurd rfl hbasis
  obtain ⟨_, hamt', hle⟩ := hcap cap hlegal
  cases hlegal'.symm.trans hamt'
  rw [hmin, hmin']
  exact min_le_min (min_le_min hpolicy hle) hcoll

theorem refusal_collected :
    ({ input with collectedRemainingToman := collected' } : EvaluationInput).refusal =
      input.refusal := by
  rfl

section

variable (hle : input.collectedRemainingToman ≤ collected')
include hle

theorem policyAmount_mono (hc : 0 ≤ input.collectedRemainingToman) :
    input.policyAmount ≤
      ({ input with collectedRemainingToman := collected' } : EvaluationInput).policyAmount := by
  unfold policyAmount
  cases hterms : input.terms with
  | none => exact le_rfl
  | some terms =>
    rw [bind_some]
    cases hamt : retentionAmount (input.rule terms) input.collectedRemainingToman with
    | some =>
      obtain ⟨_, hamt', hmono⟩ := retentionAmount_mono hamt hc hle
      exact hmono.trans_eq (congrArg (Option.getD · 0) hamt').symm
    | none =>
      have hnone : retentionAmount (input.rule terms) collected' = none := by
        rw [← not_isSome_iff_eq_none, retentionAmount_isSome,
          ← retentionAmount_isSome _ input.collectedRemainingToman, hamt]
        decide
      exact (congrArg (Option.getD · 0) hnone).ge

theorem legalCap_mono (hc : 0 ≤ input.collectedRemainingToman) (h : input.legalCap = some amount) :
    ∃ amount' ∈ ({ input with collectedRemainingToman := collected' } : EvaluationInput).legalCap,
      amount ≤ amount' := by
  obtain ⟨terms, cap, hterms, hstate, hrule, hamt⟩ := legalCap_eq_some_iff.1 h
  obtain ⟨amount', hamt', hmono⟩ := retentionAmount_mono hamt hc hle
  exact ⟨amount', legalCap_eq_some_iff.2 ⟨terms, cap, hterms, hstate, hrule, hamt'⟩, hmono⟩

end

theorem withCap_policyAmount {cap : Option RetentionRule} :
    (input.withCap cap state).policyAmount = input.policyAmount := by
  unfold policyAmount withCap
  cases input.terms <;> rfl

theorem withCap_refusal {cap : Option RetentionRule} (h : input.refusal = none)
    (hcap : (input.withCap cap state).legalCap = some amount) :
    (input.withCap cap state).refusal = none := by
  have hnone := refusal_eq_none_iff.1 h
  obtain ⟨_, rule, hterms', hstate, hrule, hamt⟩ := legalCap_eq_some_iff.1 hcap
  obtain ⟨terms, hterms, rfl⟩ := map_eq_some_iff.1 hterms'
  have hhas : (input.withCap cap state).HasCapRule :=
    ⟨_, hterms', rule, hrule, (retentionAmount_isSome _ _).1 (by rw [hamt]; rfl)⟩
  refine refusal_eq_none_iff.2 fun basis hbasis happlies => ?_
  cases basis with
  | legacyUnenrolled => cases hterms'.symm.trans happlies
  | invalidTerms =>
    obtain ⟨_, hterms'', hnot⟩ | htimely := happlies
    · cases hterms'.symm.trans hterms''
      exact hnone .invalidTerms hbasis (Or.inl ⟨terms, hterms, hnot⟩)
    · exact hnone .invalidTerms hbasis (Or.inr htimely)
  | nonCustomerCause => exact hnone .nonCustomerCause hbasis happlies
  | notConfirmed => exact hnone .notConfirmed hbasis happlies
  | timely => exact hnone .timely hbasis happlies
  | capAbsent =>
    obtain habs | ⟨-, hno⟩ := happlies
    · cases hstate.symm.trans habs
    · exact hno hhas
  | capRetired => cases hstate.symm.trans happlies
  | capApplied | preExistingRefund => exact happlies

/-- **What is collected is split exactly, and kept only where that is permitted.** The decision
names the first reason to retain nothing that applies; what is kept grows with what is collected
and with the cap. -/
theorem outcome_splits (input : EvaluationInput) (hc : 0 ≤ input.collectedRemainingToman) :
    ∃ r, evaluateBookingOutcome input = some r ∧ SplitsCollected input r ∧
      (∀ collected', input.collectedRemainingToman ≤ collected' →
        ∃ r', evaluateBookingOutcome { input with collectedRemainingToman := collected' } =
            some r' ∧ r.retainedToman ≤ r'.retainedToman) ∧
      ∀ cap state,
        (∀ amount ∈ input.legalCap, ∃ amount' ∈ (input.withCap cap state).legalCap,
          amount ≤ amount') →
        ∃ r', evaluateBookingOutcome (input.withCap cap state) = some r' ∧
          r.retainedToman ≤ r'.retainedToman := by
  obtain ⟨r, hr, hdecides⟩ := evaluate_decides input hc
  refine ⟨r, hr, hdecides.splitsCollected hc, ?_, ?_⟩
  · intro collected' hle
    obtain ⟨r', hr', hdecides'⟩ :=
      evaluate_decides { input with collectedRemainingToman := collected' } (hc.trans hle)
    refine ⟨r', hr', ?_⟩
    refine hdecides.retained_le hdecides' (hdecides'.splitsCollected (hc.trans hle)).nonneg ?_
      (policyAmount_mono hle hc) ?_ hle
    · intro h
      rw [refusal_collected, h]
    · intro amount hamt
      exact legalCap_mono hle hc hamt
  · intro cap state hcap
    obtain ⟨r', hr', hdecides'⟩ := evaluate_decides (input.withCap cap state) hc
    refine ⟨r', hr', ?_⟩
    obtain ⟨hzero, -⟩ | ⟨-, amount, hlegal, -⟩ := hdecides.retained
    · exact hzero.trans_le (hdecides'.splitsCollected hc).nonneg
    · refine hdecides.retained_le hdecides' (hdecides'.splitsCollected hc).nonneg ?_
        withCap_policyAmount.ge hcap le_rfl
      intro h
      obtain ⟨_, hamt', -⟩ := hcap amount hlegal
      exact withCap_refusal h hamt'

/-- A tenth of what a no-show paid is kept under a cap of fifty. -/
def noShowInput : EvaluationInput where
  cause := .noShow
  bookingWasConfirmed := true
  timely := none
  collectedRemainingToman := 1000
  terms := some {
    lateCancellationRetention := .none
    noShowRetention := .percentageOfCollected 1000
    legalCap := some (.fixedToman 50) }
  legalCapState := .applied

/-- The split of the example, and what a higher cap keeps of it. -/
theorem outcome_splits_noShow :
    ∃ r, evaluateBookingOutcome noShowInput = some r ∧ SplitsCollected noShowInput r ∧
      ∃ r', evaluateBookingOutcome (noShowInput.withCap (some (.fixedToman 80)) .applied) =
          some r' ∧ r.retainedToman ≤ r'.retainedToman := by
  obtain ⟨r, hr, hsplits, -, hcap⟩ := outcome_splits noShowInput (by decide)
  refine ⟨r, hr, hsplits, hcap (some (.fixedToman 80)) .applied ?_⟩
  intro amount hamt
  have hfifty : amount = 50 := (some.inj hamt).symm
  exact ⟨80, rfl, hfifty.trans_le (by decide)⟩

end BeauClick.CommercialPolicy
