import BeauClick.Lib.Greedy
import BeauClick.Money.Amount
import Mathlib.Data.List.Induction
import Mathlib.Data.List.Nodup

/-!
# What the platform deducts of an order

`evaluateCommission` (`packages/commercial-policy-contract/src/commission-policy-contract.ts`):
the published rule of each component, computed on the outcome's base, and one ceiling that the
components take from in a fixed order. A term's policy key, its versions and its arithmetic
version are carried by a snapshot and read by nothing here.

* `evaluateCommission_ok` — what is answered for facts that pass the checks.
* `commission_allocates` — the ceiling is spent in order, and nothing is lost.
-/

namespace BeauClick.CommercialPolicy

open List Option Function

open Money (JsNumber)

def maxCommissionAmountToman : ℤ := 10000000000000

def maxCommissionBasisPoints : ℤ := 10000

/-- The components of a commission. -/
inductive CommissionComponent where
  | bookingCommission
  | acquisition
  | processingRecovery
  deriving DecidableEq

/-- `COMMISSION_COMPONENTS`, in the order that binds. -/
def commissionComponents : List CommissionComponent :=
  [.bookingCommission, .acquisition, .processingRecovery]

/-- A component's name, as the messages have it. -/
def CommissionComponent.name : CommissionComponent → String
  | .bookingCommission => "booking_commission"
  | .acquisition => "acquisition"
  | .processingRecovery => "processing_recovery"

/-- `COMMISSION_RULE_KINDS`. -/
inductive CommissionRuleKind where
  | zero
  | percentage
  | fixed
  | hybrid
  deriving DecidableEq

/-- `COMMISSION_BASES`. -/
inductive CommissionBase where
  | platformCollectedAmount
  | serviceTotal
  deriving DecidableEq

/-- `COMMISSION_TERM_STATES`. -/
inductive CommissionTermState where
  | absent
  | zero
  | rule
  deriving DecidableEq

/-- `COMMISSION_OUTCOME_BASES`. -/
inductive CommissionOutcomeBasis where
  | completion
  | sellerRetained
  deriving DecidableEq

/-- The terms of a commission. -/
structure CommissionTermV1 where
  component : CommissionComponent
  state : CommissionTermState
  ruleKind : Option CommissionRuleKind
  basisPoints : Option JsNumber
  fixedToman : Option JsNumber
  base : Option CommissionBase
  deriving DecidableEq

/-- What a commission is evaluated on. -/
structure CommissionEvaluationInputV1 where
  basis : CommissionOutcomeBasis
  terms : List CommissionTermV1
  collectedTotalToman : JsNumber
  serviceTotalToman : JsNumber
  heldToman : JsNumber
  retainedToman : JsNumber

/-- What one component comes to. -/
structure CommissionComponentResultV1 where
  component : CommissionComponent
  state : CommissionTermState
  computedToman : ℤ
  deductibleToman : ℤ
  deriving DecidableEq

/-- `CommissionEvaluationV1`. The amounts are far below `2 ^ 53`, so `Number` keeps them. -/
structure CommissionEvaluationV1 where
  basis : CommissionOutcomeBasis
  components : List CommissionComponentResultV1
  computedTotalToman : ℤ
  deductibleTotalToman : ℤ
  excessToman : ℤ
  createsReceivable : Bool
  deriving DecidableEq

/-- What is thrown, by its message. -/
inductive CommissionError where
  | notInteger (label : String)
  | negative (label : String)
  | exceedsMaximum (label : String)
  | basisPointsExceedMaximum (label : String)
  | percentageRequiresBasisPoints (component : CommissionComponent)
  | fixedRequiresFixedToman (component : CommissionComponent)
  | hybridRequiresBoth (component : CommissionComponent)
  deriving DecidableEq

/-! ## The engine -/

/-- A safe integer, or the error that names the input. -/
def requireInteger (label : String) : JsNumber → Except CommissionError ℤ
  | .notFinite => .error (.notInteger label)
  | .finite value =>
    if value.den ≠ 1 then .error (.notInteger label)
    else if value.num < 0 then .error (.negative label)
    else if maxCommissionAmountToman < value.num then .error (.exceedsMaximum label)
    else .ok value.num

/-- The number of a rule, where the term has one. -/
def requireIfPresent (label : String) : Option JsNumber → Except CommissionError (Option ℤ)
  | none => .ok none
  | some value => (requireInteger label value).map some

/-- One component of a commission on its base. -/
def computeComponent (term : CommissionTermV1) (baseValue : ℤ) : Except CommissionError ℤ :=
  if term.state = .absent ∨ term.state = .zero ∨ term.ruleKind = none ∨
      term.ruleKind = some .zero then .ok 0
  else do
    let bp ← requireIfPresent (term.component.name ++ ".basisPoints") term.basisPoints
    let fixed ← requireIfPresent (term.component.name ++ ".fixedToman") term.fixedToman
    if ∃ b ∈ bp, maxCommissionBasisPoints < b then
      throw (.basisPointsExceedMaximum (term.component.name ++ ".basisPoints"))
    match term.ruleKind, bp, fixed with
    | some .percentage, some b, _ => pure ((baseValue * b).tdiv maxCommissionBasisPoints)
    | some .percentage, none, _ => throw (.percentageRequiresBasisPoints term.component)
    | some .fixed, _, some f => pure f
    | some .fixed, _, none => throw (.fixedRequiresFixedToman term.component)
    | some .hybrid, some b, some f => pure (f + (baseValue * b).tdiv maxCommissionBasisPoints)
    | some .hybrid, _, _ => throw (.hybridRequiresBoth term.component)
    | some .zero, _, _ | none, _, _ => pure 0

/-- The map of the terms by component: a later term replaces an earlier one. -/
def byComponent (terms : List CommissionTermV1) : CommissionComponent → Option CommissionTermV1 :=
  terms.foldl (fun map term => update map term.component (some term)) fun _ => none

/-- The term that stands in for a missing one. -/
def absentTerm (component : CommissionComponent) : CommissionTermV1 where
  component := component
  state := .absent
  ruleKind := none
  basisPoints := none
  fixedToman := none
  base := none

/-- A component, its term and what the rule asks for. -/
structure ComputedComponent where
  term : CommissionTermV1
  component : CommissionComponent
  amount : ℤ

/-- What the rule of a component is applied to: the retained outcome overrides its base. -/
def baseValueOf (basis : CommissionOutcomeBasis) (term : CommissionTermV1)
    (collected serviceTotal retained : ℤ) : ℤ :=
  match basis with
  | .sellerRetained => retained
  | .completion => if term.base = some .serviceTotal then serviceTotal else collected

/-- The loop over `COMMISSION_COMPONENTS`. -/
def computeAll (basis : CommissionOutcomeBasis)
    (byComponent : CommissionComponent → Option CommissionTermV1)
    (collected serviceTotal retained : ℤ) :
    List CommissionComponent → Except CommissionError (List ComputedComponent)
  | [] => .ok []
  | component :: rest => do
    let term := (byComponent component).getD (absentTerm component)
    let amount ← computeComponent term (baseValueOf basis term collected serviceTotal retained)
    let computed ← computeAll basis byComponent collected serviceTotal retained rest
    return ⟨term, component, amount⟩ :: computed

/-- The loop that spends the ceiling. -/
def allocate (remaining : ℤ) : List ComputedComponent → List CommissionComponentResultV1
  | [] => []
  | computed :: rest =>
    let deductible := if computed.amount < remaining then computed.amount else remaining
    { component := computed.component
      state := computed.term.state
      computedToman := computed.amount
      deductibleToman := deductible } :: allocate (remaining - deductible) rest

/-- The commission on an order, allocated up to its ceiling. -/
def evaluateCommission (input : CommissionEvaluationInputV1) :
    Except CommissionError CommissionEvaluationV1 := do
  let collected ← requireInteger "collectedTotalToman" input.collectedTotalToman
  let serviceTotal ← requireInteger "serviceTotalToman" input.serviceTotalToman
  let held ← requireInteger "heldToman" input.heldToman
  let retained ← requireInteger "retainedToman" input.retainedToman
  let ceiling := if input.basis = .sellerRetained then retained else held
  let computed ← computeAll input.basis (byComponent input.terms) collected serviceTotal retained
    commissionComponents
  let total := (computed.map (·.amount)).sum
  let deductibleTotal := if ceiling < total then ceiling else total
  let excess := if input.basis = .sellerRetained then 0 else total - deductibleTotal
  return {
    basis := input.basis
    components := allocate ceiling computed
    computedTotalToman := total
    deductibleTotalToman := deductibleTotal
    excessToman := excess
    createsReceivable := 0 < excess }

/-! ## What is accepted -/

/-- An amount that passes the checks. -/
def IsAmount (value : JsNumber) (n : ℤ) : Prop :=
  value = .ofInt n ∧ 0 ≤ n ∧ n ≤ maxCommissionAmountToman

variable {label : String} {value : JsNumber} {n : ℤ} {terms : List CommissionTermV1}

theorem requireInteger_eq_ok (h : IsAmount value n) : requireInteger label value = .ok n := by
  obtain ⟨rfl, hlow, hhigh⟩ := h
  simp [requireInteger, JsNumber.ofInt, not_lt.2 hlow, not_lt.2 hhigh]

/-- A term that the CHECK matrix admits: its numbers are in range, and its rule has those that it
is computed from. -/
structure CommissionTermV1.Admitted (term : CommissionTermV1) : Prop where
  basisPoints : ∀ value ∈ term.basisPoints, ∃ n, IsAmount value n ∧ n ≤ maxCommissionBasisPoints
  fixedToman : ∀ value ∈ term.fixedToman, ∃ n, IsAmount value n
  percentage : term.ruleKind = some .percentage → term.basisPoints ≠ none
  fixed : term.ruleKind = some .fixed → term.fixedToman ≠ none
  hybrid : term.ruleKind = some .hybrid → term.basisPoints ≠ none ∧ term.fixedToman ≠ none

/-- Facts that the engine does not refuse. -/
structure Admissible (input : CommissionEvaluationInputV1) : Prop where
  terms : ∀ term ∈ input.terms, term.Admitted
  collected : ∃ n, IsAmount input.collectedTotalToman n
  serviceTotal : ∃ n, IsAmount input.serviceTotalToman n
  held : ∃ n, IsAmount input.heldToman n
  retained : ∃ n, IsAmount input.retainedToman n

/-! ## What a rule asks for -/

variable {term : CommissionTermV1} {input : CommissionEvaluationInputV1}
  {basis : CommissionOutcomeBasis} {map : CommissionComponent → Option CommissionTermV1}
  {components : List CommissionComponent} {baseValue collected serviceTotal retained : ℤ}

theorem requireIfPresent_none : requireIfPresent label none = .ok none := rfl

theorem requireIfPresent_some (h : IsAmount value n) :
    requireIfPresent label (some value) = .ok (some n) := by
  rw [requireIfPresent, requireInteger_eq_ok h]
  rfl

theorem CommissionTermV1.Admitted.read (h : term.Admitted) (label label' : String) :
    ∃ bp fixed : Option ℤ, requireIfPresent label term.basisPoints = .ok bp ∧
      requireIfPresent label' term.fixedToman = .ok fixed ∧
      (∀ b ∈ bp, 0 ≤ b ∧ b ≤ maxCommissionBasisPoints) ∧ (∀ f ∈ fixed, 0 ≤ f) ∧
      (term.basisPoints ≠ none → bp ≠ none) ∧ (term.fixedToman ≠ none → fixed ≠ none) := by
  obtain ⟨bp, hbp, hrange, hthere⟩ : ∃ bp : Option ℤ,
      requireIfPresent label term.basisPoints = .ok bp ∧
      (∀ b ∈ bp, 0 ≤ b ∧ b ≤ maxCommissionBasisPoints) ∧
      (term.basisPoints ≠ none → bp ≠ none) := by
    cases hval : term.basisPoints with
    | none => exact ⟨none, requireIfPresent_none, by simp, fun h => absurd rfl h⟩
    | some value =>
      obtain ⟨n, hn, hle⟩ := h.basisPoints value hval
      exact ⟨some n, requireIfPresent_some hn, by simpa using ⟨hn.2.1, hle⟩, by simp⟩
  obtain ⟨fixed, hfixed, hrange', hthere'⟩ : ∃ fixed : Option ℤ,
      requireIfPresent label' term.fixedToman = .ok fixed ∧ (∀ f ∈ fixed, 0 ≤ f) ∧
      (term.fixedToman ≠ none → fixed ≠ none) := by
    cases hval : term.fixedToman with
    | none => exact ⟨none, requireIfPresent_none, by simp, fun h => absurd rfl h⟩
    | some value =>
      obtain ⟨n, hn⟩ := h.fixedToman value hval
      exact ⟨some n, requireIfPresent_some hn, by simpa using hn.2.1, by simp⟩
  exact ⟨bp, fixed, hbp, hfixed, hrange, hrange', hthere, hthere'⟩

theorem computeComponent_eq_ok (h : term.Admitted) (hbase : 0 ≤ baseValue) :
    ∃ amount, computeComponent term baseValue = .ok amount ∧ 0 ≤ amount := by
  obtain ⟨bp, fixed, hbp, hfixed, hrange, hrange', hthere, hthere'⟩ :=
    h.read (term.component.name ++ ".basisPoints") (term.component.name ++ ".fixedToman")
  have hexceeds : ¬∃ b ∈ bp, maxCommissionBasisPoints < b := by
    rintro ⟨b, hb, hlt⟩
    exact absurd hlt (not_lt.2 (hrange b hb).2)
  have hshare : ∀ b ∈ bp, 0 ≤ (baseValue * b).tdiv maxCommissionBasisPoints := by
    intro b hb
    exact Int.tdiv_nonneg (mul_nonneg hbase (hrange b hb).1) (by decide)
  unfold computeComponent
  split_ifs with habs
  · exact ⟨0, rfl, le_rfl⟩
  simp only [hbp, hfixed, bind, Except.bind, if_neg hexceeds, pure, Except.pure]
  cases hkind : term.ruleKind with
  | none => exact ⟨0, rfl, le_rfl⟩
  | some kind =>
    cases kind with
    | zero => exact ⟨0, rfl, le_rfl⟩
    | percentage =>
      obtain ⟨b, rfl⟩ := ne_none_iff_exists'.1 (hthere (h.percentage hkind))
      exact ⟨_, rfl, hshare b rfl⟩
    | fixed =>
      obtain ⟨f, rfl⟩ := ne_none_iff_exists'.1 (hthere' (h.fixed hkind))
      exact ⟨f, by cases bp <;> rfl, hrange' f rfl⟩
    | hybrid =>
      obtain ⟨b, rfl⟩ := ne_none_iff_exists'.1 (hthere (h.hybrid hkind).1)
      obtain ⟨f, rfl⟩ := ne_none_iff_exists'.1 (hthere' (h.hybrid hkind).2)
      exact ⟨_, rfl, add_nonneg (hrange' f rfl) (hshare b rfl)⟩

theorem admitted_absentTerm (component : CommissionComponent) : (absentTerm component).Admitted :=
  ⟨by simp [absentTerm], by simp [absentTerm], by simp [absentTerm], by simp [absentTerm],
    by simp [absentTerm]⟩

theorem byComponent_perm {terms' : List CommissionTermV1} (hperm : terms.Perm terms')
    (hdist : (terms.map (·.component)).Nodup) : byComponent terms = byComponent terms' := by
  refine hperm.foldl_eq' ?_ _
  intro x hx y hy map
  by_cases hxy : x = y
  · rw [hxy]
  · refine update_comm ?_ _ _ _
    exact fun h => hxy (inj_on_of_nodup_map hdist hx hy h)

theorem mem_of_byComponent {component : CommissionComponent}
    (h : byComponent terms component = some term) : term ∈ terms := by
  induction terms using List.reverseRecOn with
  | nil => cases h
  | append_singleton terms last ih =>
    rw [byComponent, foldl_append] at h
    by_cases hlast : component = last.component
    · rw [hlast, foldl_cons, foldl_nil, update_self] at h
      cases h
      exact mem_append_right _ (mem_singleton_self _)
    · rw [foldl_cons, foldl_nil, update_of_ne hlast] at h
      exact mem_append_left _ (ih h)

theorem computeAll_eq_ok (basis : CommissionOutcomeBasis)
    (hmap : ∀ component term, map component = some term → term.Admitted)
    (hcoll : 0 ≤ collected) (hsvc : 0 ≤ serviceTotal) (hretained : 0 ≤ retained)
    (components : List CommissionComponent) :
    ∃ computed, computeAll basis map collected serviceTotal retained components = .ok computed ∧
      computed.map (·.component) = components ∧ ∀ c ∈ computed, 0 ≤ c.amount := by
  induction components with
  | nil => exact ⟨[], rfl, rfl, by simp⟩
  | cons component rest ih =>
    obtain ⟨computed, hrest, hord, hnonneg⟩ := ih
    have hadm : ((map component).getD (absentTerm component)).Admitted := by
      cases hterm : map component with
      | none => exact admitted_absentTerm component
      | some term => exact hmap component term hterm
    have hbase : 0 ≤ baseValueOf basis ((map component).getD (absentTerm component)) collected
        serviceTotal retained := by
      unfold baseValueOf
      split
      · exact hretained
      · split
        · exact hsvc
        · exact hcoll
    obtain ⟨amount, hamt, hpos⟩ := computeComponent_eq_ok hadm hbase
    refine ⟨⟨(map component).getD (absentTerm component), component, amount⟩ :: computed, ?_,
      by simp [hord], by simpa [hpos] using hnonneg⟩
    simp only [computeAll, hamt, hrest, bind, Except.bind, pure, Except.pure]

theorem computeAll_sellerRetained (components : List CommissionComponent)
    (collected' serviceTotal' : ℤ) :
    computeAll .sellerRetained map collected serviceTotal retained components =
      computeAll .sellerRetained map collected' serviceTotal' retained components := by
  induction components with
  | nil => rfl
  | cons component rest ih =>
    simp only [computeAll, baseValueOf, ih]

/-! ## How the ceiling is spent -/

theorem ite_lt_eq_min (a b : ℤ) : (if a < b then a else b) = min a b := by
  split_ifs with h
  · exact (min_eq_left h.le).symm
  · exact (min_eq_right (not_lt.1 h)).symm

theorem allocate_deductibles (remaining : ℤ) (computed : List ComputedComponent) :
    (allocate remaining computed).map (·.deductibleToman) =
      grants remaining (computed.map (·.amount)) := by
  induction computed generalizing remaining with
  | nil => rfl
  | cons c rest ih => simp only [allocate, map_cons, grants_cons, ite_lt_eq_min, ih]

theorem allocate_amounts (remaining : ℤ) (computed : List ComputedComponent) :
    (allocate remaining computed).map (·.computedToman) = computed.map (·.amount) := by
  induction computed generalizing remaining with
  | nil => rfl
  | cons c rest ih => simp only [allocate, map_cons, ih]

theorem allocate_components (remaining : ℤ) (computed : List ComputedComponent) :
    (allocate remaining computed).map (·.component) = computed.map (·.component) := by
  induction computed generalizing remaining with
  | nil => rfl
  | cons c rest ih => simp only [allocate, map_cons, ih]

/-- What bounds the deductions of an outcome. -/
def CommissionEvaluationInputV1.ceiling (input : CommissionEvaluationInputV1) : JsNumber :=
  match input.basis with
  | .completion => input.heldToman
  | .sellerRetained => input.retainedToman

/-- The ceiling is spent in the order of the components; on a completion what exceeds it is owed. -/
structure Allocates (input : CommissionEvaluationInputV1) (ceiling : ℤ)
    (r : CommissionEvaluationV1) : Prop where
  amount : IsAmount input.ceiling ceiling
  order : r.components.map (·.component) = commissionComponents
  within : ∀ c ∈ r.components, 0 ≤ c.deductibleToman ∧ c.deductibleToman ≤ c.computedToman
  greedy : ∀ (i : ℕ) (_ : i < r.components.length), r.components[i].deductibleToman =
    min r.components[i].computedToman
      (ceiling - ((r.components.take i).map (·.deductibleToman)).sum)
  computed : r.computedTotalToman = (r.components.map (·.computedToman)).sum
  deducted : r.deductibleTotalToman = (r.components.map (·.deductibleToman)).sum
  total : r.deductibleTotalToman = min r.computedTotalToman ceiling
  excess : input.basis = .completion →
    r.deductibleTotalToman + r.excessToman = r.computedTotalToman
  notOwed : input.basis = .sellerRetained → r.excessToman = 0
  receivable : r.createsReceivable = true ↔ 0 < r.excessToman

theorem allocates_of_computed {ceiling : ℤ} {computed : List ComputedComponent}
    (hceil : IsAmount input.ceiling ceiling)
    (hord : computed.map (·.component) = commissionComponents)
    (hnonneg : ∀ c ∈ computed, 0 ≤ c.amount) {total deductibleTotal excess : ℤ}
    (htot : total = (computed.map (·.amount)).sum)
    (hdeductible : deductibleTotal = if ceiling < total then ceiling else total)
    (hexcess : excess = if input.basis = .sellerRetained then 0 else total - deductibleTotal) :
    Allocates input ceiling ⟨input.basis, allocate ceiling computed, total, deductibleTotal, excess,
      0 < excess⟩ := by
  have hasks : ∀ ask ∈ computed.map (·.amount), 0 ≤ ask := by
    simpa using hnonneg
  have hmin : deductibleTotal = min total ceiling := by
    rw [hdeductible, ite_lt_eq_min, min_comm]
  refine ⟨hceil, (allocate_components ceiling computed).trans hord, ?_, ?_, ?_, ?_, hmin, ?_,
    ?_, decide_eq_true_iff⟩
  · intro c hc
    refine mem_zip_grants hceil.2.1 hasks (c.computedToman, c.deductibleToman) ?_
    rw [← allocate_deductibles, ← allocate_amounts ceiling, zip_map']
    exact mem_map_of_mem hc
  · intro i hi
    have hgrants : grants ceiling ((allocate ceiling computed).map (·.computedToman)) =
        (allocate ceiling computed).map (·.deductibleToman) := by
      rw [allocate_amounts, allocate_deductibles]
    have hget := getElem_grants ceiling ((allocate ceiling computed).map (·.computedToman)) i
      (by simpa using hi) (by simpa using hi)
    simp only [hgrants, getElem_map, ← map_take] at hget
    exact hget
  · rw [htot, allocate_amounts]
  · rw [hmin, htot, allocate_deductibles, sum_grants hceil.2.1 hasks]
  · intro hbasis
    dsimp only
    rw [hexcess, if_neg (by simp [hbasis])]
    omega
  · intro hbasis
    exact hexcess.trans (if_pos hbasis)

theorem evaluateCommission_ok (h : Admissible input) : ∃ r ceiling,
    evaluateCommission input = .ok r ∧ Allocates input ceiling r := by
  obtain ⟨collected, hcoll⟩ := h.collected
  obtain ⟨serviceTotal, hsvc⟩ := h.serviceTotal
  obtain ⟨held, hheld⟩ := h.held
  obtain ⟨retained, hretained⟩ := h.retained
  have hmap : ∀ component term, byComponent input.terms component = some term → term.Admitted :=
    fun component term hterm => h.terms term (mem_of_byComponent hterm)
  obtain ⟨_, hcomputed, hord, hnonneg⟩ := computeAll_eq_ok input.basis hmap
    hcoll.2.1 hsvc.2.1 hretained.2.1 commissionComponents
  have hceil : IsAmount input.ceiling
      (if input.basis = .sellerRetained then retained else held) := by
    unfold CommissionEvaluationInputV1.ceiling
    cases input.basis with
    | completion => exact hheld
    | sellerRetained => exact hretained
  refine ⟨_, _, ?_, allocates_of_computed hceil hord hnonneg rfl rfl rfl⟩
  simp only [evaluateCommission, requireInteger_eq_ok hcoll, requireInteger_eq_ok hsvc,
    requireInteger_eq_ok hheld, requireInteger_eq_ok hretained, hcomputed, bind, Except.bind, pure,
    Except.pure]

/-- The ceiling of an outcome is spent exactly, in the order of the components and whatever the
order of the terms; a retained outcome depends on the retained amount alone, takes no more than
it, and is owed nothing. -/
theorem commission_allocates (input : CommissionEvaluationInputV1) (h : Admissible input)
    (hdistinct : (input.terms.map (·.component)).Nodup) : ∃ r ceiling,
    evaluateCommission input = .ok r ∧ Allocates input ceiling r ∧
      (∀ terms, input.terms.Perm terms → evaluateCommission { input with terms := terms } = .ok r) ∧
      (input.basis = .sellerRetained → r.deductibleTotalToman ≤ ceiling ∧
        r.createsReceivable = false ∧
        ∀ collected serviceTotal held, (∃ n, IsAmount collected n) →
          (∃ n, IsAmount serviceTotal n) → (∃ n, IsAmount held n) →
          evaluateCommission { input with
            collectedTotalToman := collected
            serviceTotalToman := serviceTotal
            heldToman := held } = .ok r) := by
  obtain ⟨r, ceiling, hr, halloc⟩ := evaluateCommission_ok h
  refine ⟨r, ceiling, hr, halloc, ?_, ?_⟩
  · intro terms hperm
    rw [← hr]
    simp only [evaluateCommission, byComponent_perm hperm hdistinct]
  · intro hbasis
    refine ⟨?_, ?_, ?_⟩
    · rw [halloc.total]
      exact min_le_right _ _
    · have hnone : ¬0 < r.excessToman := by
        rw [halloc.notOwed hbasis]
        exact lt_irrefl 0
      exact eq_false_of_ne_true fun htrue => hnone (halloc.receivable.1 htrue)
    · rintro collected serviceTotal held ⟨c, hc⟩ ⟨s, hs⟩ ⟨_, hn⟩
      rw [← hr]
      obtain ⟨_, hc'⟩ := h.collected
      obtain ⟨_, hs'⟩ := h.serviceTotal
      obtain ⟨_, hn'⟩ := h.held
      simp only [evaluateCommission, requireInteger_eq_ok hc, requireInteger_eq_ok hs,
        requireInteger_eq_ok hn, requireInteger_eq_ok hc', requireInteger_eq_ok hs',
        requireInteger_eq_ok hn', hbasis, bind, Except.bind, if_true,
        computeAll_sellerRetained commissionComponents c s]

/-- Forty are retained of a hundred, and the rule asks for fifty. -/
def fixedFifty : CommissionEvaluationInputV1 where
  basis := .sellerRetained
  terms := [⟨.bookingCommission, .rule, some .fixed, none, some (.ofInt 50), none⟩]
  collectedTotalToman := .ofInt 100
  serviceTotalToman := .ofInt 100
  heldToman := .ofInt 40
  retainedToman := .ofInt 40

theorem admissible_fixedFifty : Admissible fixedFifty := by
  have hamt : ∀ n : ℤ, 0 ≤ n ∧ n ≤ maxCommissionAmountToman → ∃ m, IsAmount (.ofInt n) m :=
    fun n hn => ⟨n, rfl, hn⟩
  refine ⟨?_, hamt 100 (by decide), hamt 100 (by decide), hamt 40 (by decide),
    hamt 40 (by decide)⟩
  intro term hterm
  obtain rfl := mem_singleton.1 hterm
  refine ⟨by simp, ?_, by simp, by simp, by simp⟩
  intro value hval
  cases hval
  exact hamt 50 (by decide)

theorem commission_allocates_fixedFifty : ∃ r ceiling,
    evaluateCommission fixedFifty = .ok r ∧ Allocates fixedFifty ceiling r ∧
      r.deductibleTotalToman ≤ ceiling ∧ r.createsReceivable = false := by
  obtain ⟨r, ceiling, hr, halloc, -, hretained⟩ :=
    commission_allocates fixedFifty admissible_fixedFifty (by decide)
  obtain ⟨hle, hnone, -⟩ := hretained rfl
  exact ⟨r, ceiling, hr, halloc, hle, hnone⟩

/-- Ten of the fifty are neither deducted nor owed. -/
theorem commission_excess_fails : Admissible fixedFifty ∧
    (fixedFifty.terms.map (·.component)).Nodup ∧ ∃ r, evaluateCommission fixedFifty = .ok r ∧
      r.deductibleTotalToman + r.excessToman ≠ r.computedTotalToman := by
  refine ⟨admissible_fixedFifty, by decide, ⟨.sellerRetained,
    [⟨.bookingCommission, .rule, 50, 40⟩, ⟨.acquisition, .absent, 0, 0⟩,
      ⟨.processingRecovery, .absent, 0, 0⟩], 50, 40, 0, false⟩, ?_, ?_⟩
  · decide +kernel
  · decide

end BeauClick.CommercialPolicy
