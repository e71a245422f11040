import BeauClick.CommercialPolicy.OutcomePolicy
import BeauClick.Lib.Decimal
import BeauClick.Lib.Json

/-!
# Authoring an outcome policy

What an administrator may publish for sellers to choose from, as the contract checks it
(`packages/commercial-policy-contract/src/booking-outcome-policy-contract.ts`).  A rule arrives as
a JSON value of which nothing is known, and so does a seller's selection; a number is a finite
one, whole or not.
-/

namespace BeauClick.CommercialPolicy

open List Option

/-! ## Values of a request -/

/-- `Number.isInteger`, and the integer. -/
def whole? (q : ℚ) : Option ℤ := if q.den = 1 then some q.num else none

/-- `isWholeInRange`, of a number. -/
def numberInRange (q : ℚ) (min max : ℤ) : Bool := (whole? q).any fun n => isWholeInRange n min max

/-- The integer that a property holds. -/
def wholeOf : Option Json → Option ℤ
  | some (.num q) => whole? q
  | _ => none

/-- `isWholeInRange`, of a property. -/
def propertyInRange (value : Option Json) (min max : ℤ) : Bool :=
  (wholeOf value).any fun n => isWholeInRange n min max

/-- `Object.keys`. -/
def objectKeys : Json → List String
  | .obj fields => fields.map (·.1)
  | _ => []

/-! ## Rules -/

/-- `BOOKING_OUTCOME_RETENTION_KINDS`. -/
def retentionKinds : List String :=
  ["none", "percentage_of_collected", "fixed_toman", "full_collected"]

def RetentionRule.kind : RetentionRule → String
  | .none => "none"
  | .percentageOfCollected _ => "percentage_of_collected"
  | .fixedToman _ => "fixed_toman"
  | .fullCollected => "full_collected"

/-- What `validateBookingOutcomeRetentionRule` checks under each kind. -/
def kindProblems (rule : Json) (label kind : String) : List String :=
  let keys := (objectKeys rule).filter (· ≠ "kind")
  if kind = "percentage_of_collected" then
    problem (!propertyInRange (rule.field? "basisPoints") 1 9999)
      (label ++ ".basisPoints must be an integer between 1 and 9999") ++
    problem (keys.any (· ≠ "basisPoints"))
      (label ++ " of kind percentage_of_collected carries only basisPoints")
  else if kind = "fixed_toman" then
    problem (!propertyInRange (rule.field? "amountToman") 1 maxOutcomeAmountToman)
      (label ++ ".amountToman must be a positive safe integer") ++
    problem (keys.any (· ≠ "amountToman"))
      (label ++ " of kind fixed_toman carries only amountToman")
  else
    problem (keys ≠ []) (label ++ " of kind " ++ kind ++ " carries no numeric field")

/-- `validateBookingOutcomeRetentionRule`; an array is an object without a kind. -/
def retentionRuleProblems (rule : Option Json) (label : String) : List String :=
  match rule with
  | some (.obj fields) =>
    match (Json.obj fields).field? "kind" with
    | some (.str kind) =>
      if kind ∈ retentionKinds then kindProblems (.obj fields) label kind
      else [label ++ ".kind is not a retention kind"]
    | _ => [label ++ ".kind is not a retention kind"]
  | some (.arr _) => [label ++ ".kind is not a retention kind"]
  | _ => [label ++ " must be a retention rule"]

/-- The rule that a value is. -/
def ruleOf (rule : Json) : Option RetentionRule :=
  match rule.field? "kind" with
  | some (.str kind) =>
    if kind = "none" then some .none
    else if kind = "full_collected" then some .fullCollected
    else if kind = "percentage_of_collected" then
      (wholeOf (rule.field? "basisPoints")).map .percentageOfCollected
    else if kind = "fixed_toman" then (wholeOf (rule.field? "amountToman")).map .fixedToman
    else none
  | _ => none

/-- Two rules with one identity are the same option. -/
def retentionRuleIdentity : RetentionRule → String
  | .percentageOfCollected basisPoints =>
    "percentage_of_collected:" ++ String.ofList (Decimal.text basisPoints)
  | .fixedToman amountToman => "fixed_toman:" ++ String.ofList (Decimal.text amountToman)
  | .none => "none"
  | .fullCollected => "full_collected"

/-! ## Terms -/

/-- `BookingOutcomePolicyVersionTermsV1`, as it arrives. -/
structure PolicyVersionTerms where
  contractVersion : ℚ
  cutoffHoursAllowed : List ℚ
  lateRetentionOptions : List Json
  noShowGraceMinutesAllowed : List ℚ
  noShowRetentionOptions : List Json
  rescheduleFreeCountBeforeCutoff : ℚ
  disputeWindowHours : ℚ
  bodilyHarmWindowHours : Option ℚ
  appealWindowHours : ℚ
  caseFileRetentionDays : Option ℚ
  legalCap : Option Json

def maxOutcomeSetMembers : ℕ := 64

def maxOutcomeRetentionOptions : ℕ := 32

/-- The loop of `validateAscendingSet`. -/
def memberProblems (label : String) (min max : ℤ) : ℕ → Option ℚ → List ℚ → List String
  | _, _, [] => []
  | index, previous, value :: values =>
    (if numberInRange value min max = false then
      [label ++ "[" ++ toString index ++ "] must be an integer between " ++ toString min ++
        " and " ++ toString max]
    else problem (previous.any fun p => ¬p < value) (label ++ " must be strictly ascending")) ++
      memberProblems label min max (index + 1) (some value) values

/-- `validateAscendingSet`. -/
def ascendingSetProblems (label : String) (values : List ℚ) (min max : ℤ) : List String :=
  if values = [] then [label ++ " must be a non-empty array"]
  else
    problem (maxOutcomeSetMembers < values.length) (label ++ " may carry at most 64 members") ++
      memberProblems label min max 0 none values

/-- The loop of `validateRetentionOptions`. -/
def optionProblems (label : String) : ℕ → List String → List Json → List String
  | _, _, [] => []
  | index, seen, option :: options =>
    let problems := retentionRuleProblems (some option) (label ++ "[" ++ toString index ++ "]")
    match if problems = [] then ruleOf option else none with
    | none => problems ++ optionProblems label (index + 1) seen options
    | some rule =>
      problem (retentionRuleIdentity rule ∈ seen)
        (label ++ " carries the option " ++ retentionRuleIdentity rule ++ " more than once") ++
        optionProblems label (index + 1) (retentionRuleIdentity rule :: seen) options

/-- `validateRetentionOptions`. -/
def retentionOptionsProblems (label : String) (options : List Json) : List String :=
  if options.isEmpty then [label ++ " must be a non-empty array"]
  else
    problem (maxOutcomeRetentionOptions < options.length)
      (label ++ " may carry at most 32 options") ++ optionProblems label 0 [] options

/-- The check of `bodilyHarmWindowHours` in `validateBookingOutcomePolicyVersionTermsV1`. -/
def authoredBodilyHarmProblems (bodilyHarmWindowHours : Option ℚ) (disputeWindowHours : ℚ) :
    List String :=
  match bodilyHarmWindowHours with
  | none => []
  | some hours =>
    if numberInRange hours 1 maxOutcomeHours = false then
      ["bodilyHarmWindowHours must be null or an integer between 1 and 8760"]
    else
      problem ((whole? disputeWindowHours).isSome && hours < disputeWindowHours)
        "bodilyHarmWindowHours cannot be shorter than disputeWindowHours"

/-- The check of `legalCap` in `validateBookingOutcomePolicyVersionTermsV1`. -/
def authoredCapProblems : Option Json → List String
  | none => []
  | some cap =>
    retentionRuleProblems (some cap) "legalCap" ++
      problem (match cap.field? "kind" with
        | some (.str kind) => kind = "none"
        | _ => false)
        "legalCap of kind none is the absence of a cap: send null instead"

/-- `validateBookingOutcomePolicyVersionTermsV1`. -/
def PolicyVersionTerms.problems (terms : PolicyVersionTerms) : List String :=
  problem (terms.contractVersion ≠ outcomeContractVersion) "contractVersion must be 1" ++
  ascendingSetProblems "cutoffHoursAllowed" terms.cutoffHoursAllowed 0 maxOutcomeHours ++
  retentionOptionsProblems "lateRetentionOptions" terms.lateRetentionOptions ++
  ascendingSetProblems "noShowGraceMinutesAllowed" terms.noShowGraceMinutesAllowed 0
    maxOutcomeGraceMinutes ++
  retentionOptionsProblems "noShowRetentionOptions" terms.noShowRetentionOptions ++
  problem (!numberInRange terms.rescheduleFreeCountBeforeCutoff 0 maxOutcomeRescheduleFreeCount)
    "rescheduleFreeCountBeforeCutoff must be an integer between 0 and 100" ++
  problem (!numberInRange terms.disputeWindowHours 1 maxOutcomeHours)
    "disputeWindowHours must be an integer between 1 and 8760" ++
  authoredBodilyHarmProblems terms.bodilyHarmWindowHours terms.disputeWindowHours ++
  problem (!numberInRange terms.appealWindowHours 1 maxOutcomeHours)
    "appealWindowHours must be an integer between 1 and 8760" ++
  problem (terms.caseFileRetentionDays.any fun days =>
    !numberInRange days 1 maxOutcomeRetentionDays)
    "caseFileRetentionDays must be null or an integer between 1 and 3650" ++
  authoredCapProblems terms.legalCap

def selectionKeys : List String :=
  ["cutoffHours", "lateCancellationRetention", "noShowGraceMinutes", "noShowRetention"]

/-- An error for each key that is not allowed. -/
def exactKeys (value : Json) (allowed : List String) (label : String) : List String :=
  ((objectKeys value).filter (· ∉ allowed)).map fun key =>
    label ++ " carries an unknown field " ++ key

/-- `validateBookingOutcomeSelectionV1`. -/
def selectionProblems (selection : Json) : List String :=
  match selection with
  | .obj _ | .arr _ =>
    exactKeys selection selectionKeys "selection" ++
    problem (!propertyInRange (selection.field? "cutoffHours") 0 maxOutcomeHours)
      "cutoffHours must be an integer between 0 and 8760" ++
    problem (!propertyInRange (selection.field? "noShowGraceMinutes") 0 maxOutcomeGraceMinutes)
      "noShowGraceMinutes must be an integer between 0 and 1440" ++
    retentionRuleProblems (selection.field? "lateCancellationRetention")
      "lateCancellationRetention" ++
    retentionRuleProblems (selection.field? "noShowRetention") "noShowRetention"
  | _ => ["selection must be an object"]

/-- The selection that a value is. -/
def selectionOf (selection : Json) : Option OutcomeSelection := do
  let cutoffHours ← wholeOf (selection.field? "cutoffHours")
  let late ← (selection.field? "lateCancellationRetention").bind ruleOf
  let noShowGraceMinutes ← wholeOf (selection.field? "noShowGraceMinutes")
  let noShow ← (selection.field? "noShowRetention").bind ruleOf
  return ⟨cutoffHours, late, noShowGraceMinutes, noShow⟩

/-! ## Authored terms -/

/-- `BookingOutcomePolicyVersionTermsV1`, in whole numbers and rules. -/
structure AuthoredTerms where
  cutoffHoursAllowed : List ℤ
  lateRetentionOptions : List RetentionRule
  noShowGraceMinutesAllowed : List ℤ
  noShowRetentionOptions : List RetentionRule
  rescheduleFreeCountBeforeCutoff : ℤ
  disputeWindowHours : ℤ
  bodilyHarmWindowHours : Option ℤ
  appealWindowHours : ℤ
  caseFileRetentionDays : Option ℤ
  legalCap : Option RetentionRule

/-- The terms hold these numbers and rules. -/
structure PolicyVersionTerms.Holds (terms : PolicyVersionTerms) (authored : AuthoredTerms) :
    Prop where
  contractVersion : terms.contractVersion = outcomeContractVersion
  cutoffs : terms.cutoffHoursAllowed = authored.cutoffHoursAllowed.map (fun n : ℤ => (n : ℚ))
  late : terms.lateRetentionOptions.map ruleOf = authored.lateRetentionOptions.map some
  graces : terms.noShowGraceMinutesAllowed =
    authored.noShowGraceMinutesAllowed.map (fun n : ℤ => (n : ℚ))
  noShow : terms.noShowRetentionOptions.map ruleOf = authored.noShowRetentionOptions.map some
  reschedule : terms.rescheduleFreeCountBeforeCutoff = authored.rescheduleFreeCountBeforeCutoff
  dispute : terms.disputeWindowHours = authored.disputeWindowHours
  bodilyHarm : terms.bodilyHarmWindowHours =
    authored.bodilyHarmWindowHours.map (fun n : ℤ => (n : ℚ))
  appeal : terms.appealWindowHours = authored.appealWindowHours
  caseFile : terms.caseFileRetentionDays =
    authored.caseFileRetentionDays.map (fun n : ℤ => (n : ℚ))
  cap : terms.legalCap.map ruleOf = authored.legalCap.map some

/-- The number of a rule is one that a rule may have. -/
def RetentionRule.InRange : RetentionRule → Prop
  | .none | .fullCollected => True
  | .percentageOfCollected basisPoints => 1 ≤ basisPoints ∧ basisPoints ≤ 9999
  | .fixedToman amountToman => 1 ≤ amountToman ∧ amountToman ≤ maxOutcomeAmountToman

/-- A set of members to choose from. -/
structure MembersValid (members : List ℤ) (max : ℤ) : Prop where
  nonempty : members ≠ []
  few : members.length ≤ maxOutcomeSetMembers
  bounded : ∀ n ∈ members, 0 ≤ n ∧ n ≤ max
  ascending : members.Pairwise (· < ·)

/-- A list of rules to choose from. -/
structure OptionsValid (options : List RetentionRule) : Prop where
  nonempty : options ≠ []
  few : options.length ≤ maxOutcomeRetentionOptions
  inRange : ∀ rule ∈ options, rule.InRange
  distinct : options.Nodup

/-- What is known of terms that were accepted. -/
structure AuthoredTerms.Valid (authored : AuthoredTerms) : Prop where
  cutoffs : MembersValid authored.cutoffHoursAllowed maxOutcomeHours
  late : OptionsValid authored.lateRetentionOptions
  graces : MembersValid authored.noShowGraceMinutesAllowed maxOutcomeGraceMinutes
  noShow : OptionsValid authored.noShowRetentionOptions
  reschedule : 0 ≤ authored.rescheduleFreeCountBeforeCutoff ∧
    authored.rescheduleFreeCountBeforeCutoff ≤ maxOutcomeRescheduleFreeCount
  dispute : 1 ≤ authored.disputeWindowHours ∧ authored.disputeWindowHours ≤ maxOutcomeHours
  bodilyHarm : ∀ hours ∈ authored.bodilyHarmWindowHours,
    (1 ≤ hours ∧ hours ≤ maxOutcomeHours) ∧ authored.disputeWindowHours ≤ hours
  appeal : 1 ≤ authored.appealWindowHours ∧ authored.appealWindowHours ≤ maxOutcomeHours
  caseFile : ∀ days ∈ authored.caseFileRetentionDays, 1 ≤ days ∧ days ≤ maxOutcomeRetentionDays
  cap : ∀ rule ∈ authored.legalCap, rule.InRange ∧ rule ≠ .none

/-- What is known of a selection that was accepted. -/
structure OutcomeSelection.Valid (selection : OutcomeSelection) : Prop where
  cutoff : 0 ≤ selection.cutoffHours ∧ selection.cutoffHours ≤ maxOutcomeHours
  late : selection.lateCancellationRetention.InRange
  grace : 0 ≤ selection.noShowGraceMinutes ∧ selection.noShowGraceMinutes ≤ maxOutcomeGraceMinutes
  noShow : selection.noShowRetention.InRange

/-! ## What is accepted -/

section Accepted

variable {q : ℚ} {n min max : ℤ} {value : Option Json} {rule : Json} {label : String}
  {failed : Bool} {message : String} {terms : PolicyVersionTerms} {authored other : AuthoredTerms}
  {values : List ℚ} {index : ℕ} {options : List Json}

theorem problem_eq_nil : problem failed message = [] ↔ failed = false := by
  cases failed <;> simp [problem]

theorem whole?_eq_some : whole? q = some n ↔ q = n := by
  unfold whole?
  constructor
  · intro h
    split at h
    · rename_i hden
      rw [← some.inj h]
      exact ((Rat.den_eq_one_iff q).1 hden).symm
    · cases h
  · rintro rfl
    rw [if_pos (Rat.den_intCast n), Rat.num_intCast]

theorem isWholeInRange_iff : isWholeInRange n min max = true ↔ min ≤ n ∧ n ≤ max := by
  simp [isWholeInRange]

theorem numberInRange_iff : numberInRange q min max = true ↔
    ∃ n : ℤ, q = n ∧ min ≤ n ∧ n ≤ max := by
  rw [numberInRange, Option.any_eq_true]
  refine exists_congr fun n => ?_
  rw [whole?_eq_some, isWholeInRange_iff]

theorem propertyInRange_iff : propertyInRange value min max = true ↔
    ∃ n, wholeOf value = some n ∧ min ≤ n ∧ n ≤ max := by
  rw [propertyInRange, Option.any_eq_true]
  refine exists_congr fun n => ?_
  rw [isWholeInRange_iff]

theorem number_of_problem (h : problem (!numberInRange q min max) message = []) :
    ∃ n : ℤ, q = n ∧ min ≤ n ∧ n ≤ max := by
  rw [problem_eq_nil, Bool.not_eq_false'] at h
  exact numberInRange_iff.1 h

theorem property_of_problem (h : problem (!propertyInRange value min max) message = []) :
    ∃ n, wholeOf value = some n ∧ min ≤ n ∧ n ≤ max := by
  rw [problem_eq_nil, Bool.not_eq_false'] at h
  exact propertyInRange_iff.1 h

theorem rule_of_accepted (h : retentionRuleProblems (some rule) label = []) :
    ∃ r, ruleOf rule = some r ∧ r.InRange ∧ rule.field? "kind" = some (.str r.kind) := by
  unfold retentionRuleProblems at h
  split at h
  · rename_i fields heq
    cases heq
    split at h
    · rename_i kind hkind
      split at h
      · rename_i hmem
        unfold ruleOf
        rw [hkind]
        unfold kindProblems at h
        simp only [retentionKinds, mem_cons, not_mem_nil, or_false] at hmem
        rcases hmem with rfl | rfl | rfl | rfl
        · exact ⟨.none, rfl, trivial, rfl⟩
        · simp only [if_true, append_eq_nil_iff] at h
          obtain ⟨n, hn, hmin, hmax⟩ := property_of_problem h.1
          exact ⟨.percentageOfCollected n, by simp [hn], ⟨hmin, hmax⟩, rfl⟩
        · simp only [String.reduceEq, if_false, if_true, append_eq_nil_iff] at h
          obtain ⟨n, hn, hmin, hmax⟩ := property_of_problem h.1
          exact ⟨.fixedToman n, by simp [hn], ⟨hmin, hmax⟩, rfl⟩
        · exact ⟨.fullCollected, rfl, trivial, rfl⟩
      · cases h
    · cases h
  · cases h
  · cases h

theorem members_of_accepted {previous : Option ℚ}
    (h : memberProblems label min max index previous values = []) :
    ∃ ns : List ℤ, values = ns.map (fun n : ℤ => (n : ℚ)) ∧ (∀ n ∈ ns, min ≤ n ∧ n ≤ max) ∧
      ns.Pairwise (· < ·) ∧ ∀ p ∈ previous, ∀ n ∈ ns, p < (n : ℚ) := by
  induction values generalizing index previous with
  | nil => exact ⟨[], rfl, by simp, List.Pairwise.nil, by simp⟩
  | cons value values ih =>
    rw [memberProblems, append_eq_nil_iff] at h
    obtain ⟨hval, hrest⟩ := h
    obtain ⟨ns, rfl, hbounds, hascending, habove⟩ := ih hrest
    split at hval
    · cases hval
    rename_i hrange
    obtain ⟨n, rfl, hn⟩ := numberInRange_iff.1 (Bool.eq_true_of_not_eq_false hrange)
    have hhead : ∀ m ∈ ns, n < m := fun m hm => by
      exact_mod_cast habove _ rfl m hm
    refine ⟨n :: ns, rfl, ?_, pairwise_cons.2 ⟨hhead, hascending⟩, ?_⟩
    · intro m hm
      rcases mem_cons.1 hm with rfl | hm
      · exact hn
      · exact hbounds m hm
    · rintro p rfl
      have hp : p < (n : ℚ) := by
        simpa [problem_eq_nil] using hval
      intro m hm
      rcases mem_cons.1 hm with rfl | hm
      · exact hp
      · exact hp.trans (habove _ rfl m hm)

theorem membersValid_of_accepted (h : ascendingSetProblems label values 0 max = []) :
    ∃ ns : List ℤ, values = ns.map (fun n : ℤ => (n : ℚ)) ∧ MembersValid ns max := by
  unfold ascendingSetProblems at h
  split at h
  · cases h
  rename_i hne
  obtain ⟨hfew, hmems⟩ := append_eq_nil_iff.1 h
  obtain ⟨ns, rfl, hbounds, hascending, -⟩ := members_of_accepted hmems
  refine ⟨ns, rfl, ?_, ?_, hbounds, hascending⟩
  · rintro rfl
    exact hne rfl
  · rw [problem_eq_nil, decide_eq_false_iff_not, length_map] at hfew
    exact Nat.not_lt.1 hfew

theorem options_of_accepted {seen : List String}
    (h : optionProblems label index seen options = []) :
    ∃ rules : List RetentionRule, options.map ruleOf = rules.map some ∧
      (∀ r ∈ rules, r.InRange) ∧ rules.Nodup ∧ ∀ r ∈ rules, retentionRuleIdentity r ∉ seen := by
  induction options generalizing index seen with
  | nil => exact ⟨[], rfl, by simp, nodup_nil, by simp⟩
  | cons option options ih =>
    unfold optionProblems at h
    dsimp only at h
    by_cases hnone :
        retentionRuleProblems (some option) (label ++ "[" ++ toString index ++ "]") = []
    · obtain ⟨r, hr, hrange, -⟩ := rule_of_accepted hnone
      rw [if_pos hnone, hr] at h
      obtain ⟨hnew, hrest⟩ := append_eq_nil_iff.1 h
      obtain ⟨rules, hrules, hranges, hnodup, hseen⟩ := ih hrest
      refine ⟨r :: rules, ?_, ?_, nodup_cons.2 ⟨?_, hnodup⟩, ?_⟩
      · rw [map_cons, map_cons, hr, hrules]
      · intro r' hr'
        rcases mem_cons.1 hr' with rfl | hr'
        · exact hrange
        · exact hranges r' hr'
      · intro hmem
        exact hseen r hmem mem_cons_self
      · intro r' hr' hmem
        rcases mem_cons.1 hr' with rfl | hr'
        · rw [problem_eq_nil, decide_eq_false_iff_not] at hnew
          exact hnew hmem
        · exact hseen r' hr' (mem_cons_of_mem _ hmem)
    · rw [if_neg hnone] at h
      exact absurd (append_eq_nil_iff.1 h).1 hnone

theorem optionsValid_of_accepted (h : retentionOptionsProblems label options = []) :
    ∃ rules : List RetentionRule, options.map ruleOf = rules.map some ∧ OptionsValid rules := by
  unfold retentionOptionsProblems at h
  split at h
  · cases h
  rename_i hne
  obtain ⟨hfew, hopts⟩ := append_eq_nil_iff.1 h
  obtain ⟨rules, hrules, hranges, hnodup, -⟩ := options_of_accepted hopts
  have hlen : options.length = rules.length := by
    simpa using congrArg List.length hrules
  refine ⟨rules, hrules, ?_, ?_, hranges, hnodup⟩
  · rintro rfl
    rw [length_nil, length_eq_zero_iff] at hlen
    exact hne (by rw [hlen]; rfl)
  · rw [problem_eq_nil, decide_eq_false_iff_not, hlen] at hfew
    exact Nat.not_lt.1 hfew

theorem authored_of_accepted (h : terms.problems = []) :
    ∃ authored : AuthoredTerms, terms.Holds authored ∧ authored.Valid := by
  simp only [PolicyVersionTerms.problems, append_eq_nil_iff, and_assoc] at h
  obtain ⟨hcontract, hcutoffs, hlate, hgraces, hnoShow, hreschedule, hdispute, hharm, happeal,
    hcase, hcap⟩ := h
  obtain ⟨cutoffs, hcutoffs, vcutoffs⟩ := membersValid_of_accepted hcutoffs
  obtain ⟨late, hlate, vlate⟩ := optionsValid_of_accepted hlate
  obtain ⟨graces, hgraces, vgraces⟩ := membersValid_of_accepted hgraces
  obtain ⟨noShow, hnoShow, vnoShow⟩ := optionsValid_of_accepted hnoShow
  obtain ⟨reschedule, hreschedule, vreschedule⟩ := number_of_problem hreschedule
  obtain ⟨dispute, hdispute, vdispute⟩ := number_of_problem hdispute
  obtain ⟨appeal, happeal, vappeal⟩ := number_of_problem happeal
  obtain ⟨harm, hharm, vharm⟩ : ∃ harm : Option ℤ,
      terms.bodilyHarmWindowHours = harm.map (fun n : ℤ => (n : ℚ)) ∧
        ∀ hours ∈ harm, (1 ≤ hours ∧ hours ≤ maxOutcomeHours) ∧ dispute ≤ hours := by
    unfold authoredBodilyHarmProblems at hharm
    split at hharm
    · rename_i hnone
      exact ⟨none, hnone, by simp⟩
    · rename_i hours hsome
      split at hharm
      · cases hharm
      rename_i hrange
      obtain ⟨n, rfl, hn⟩ := numberInRange_iff.1 (Bool.eq_true_of_not_eq_false hrange)
      refine ⟨some n, hsome, ?_⟩
      rintro m ⟨⟩
      refine ⟨hn, ?_⟩
      rw [problem_eq_nil, hdispute, whole?_eq_some.2 rfl, isSome_some, Bool.true_and,
        decide_eq_false_iff_not, not_lt] at hharm
      exact_mod_cast hharm
  obtain ⟨days, hdays, vdays⟩ : ∃ days : Option ℤ,
      terms.caseFileRetentionDays = days.map (fun n : ℤ => (n : ℚ)) ∧
        ∀ d ∈ days, 1 ≤ d ∧ d ≤ maxOutcomeRetentionDays := by
    cases hsome : terms.caseFileRetentionDays with
    | none => exact ⟨none, rfl, by simp⟩
    | some =>
      rw [hsome, any_some] at hcase
      obtain ⟨n, rfl, hn⟩ := number_of_problem hcase
      exact ⟨some n, rfl, by rintro m ⟨⟩; exact hn⟩
  obtain ⟨cap, hcap, vcap⟩ : ∃ cap : Option RetentionRule,
      terms.legalCap.map ruleOf = cap.map some ∧ ∀ rule ∈ cap, rule.InRange ∧ rule ≠ .none := by
    cases hsome : terms.legalCap with
    | none => exact ⟨none, rfl, by simp⟩
    | some =>
      rw [hsome, authoredCapProblems, append_eq_nil_iff] at hcap
      obtain ⟨r, hr, hrange, hkind⟩ := rule_of_accepted hcap.1
      refine ⟨some r, by rw [map_some, hr]; rfl, ?_⟩
      rintro r' ⟨⟩
      refine ⟨hrange, ?_⟩
      rintro rfl
      have hnone := hcap.2
      rw [hkind, problem_eq_nil] at hnone
      cases hnone
  have hone : terms.contractVersion = outcomeContractVersion := by
    rw [problem_eq_nil, decide_eq_false_iff_not, not_not] at hcontract
    exact hcontract
  exact ⟨⟨cutoffs, late, graces, noShow, reschedule, dispute, harm, appeal, days, cap⟩,
    ⟨hone, hcutoffs, hlate, hgraces, hnoShow, hreschedule, hdispute, hharm, happeal, hdays, hcap⟩,
    ⟨vcutoffs, vlate, vgraces, vnoShow, vreschedule, vdispute, vharm, vappeal, vdays, vcap⟩⟩

theorem PolicyVersionTerms.Holds.unique (h : terms.Holds authored) (h' : terms.Holds other) :
    authored = other := by
  have hnumbers : Function.Injective fun n : ℤ => (n : ℚ) := Int.cast_injective
  have hrules : Function.Injective (some : RetentionRule → Option RetentionRule) :=
    some_injective _
  obtain ⟨cutoffs, late, graces, noShow, reschedule, dispute, harm, appeal, days, cap⟩ := authored
  obtain ⟨cutoffs', late', graces', noShow', reschedule', dispute', harm', appeal', days', cap'⟩ :=
    other
  obtain rfl : cutoffs = cutoffs' := hnumbers.list_map (h.cutoffs.symm.trans h'.cutoffs)
  obtain rfl : late = late' := hrules.list_map (h.late.symm.trans h'.late)
  obtain rfl : graces = graces' := hnumbers.list_map (h.graces.symm.trans h'.graces)
  obtain rfl : noShow = noShow' := hrules.list_map (h.noShow.symm.trans h'.noShow)
  obtain rfl : reschedule = reschedule' := hnumbers (h.reschedule.symm.trans h'.reschedule)
  obtain rfl : dispute = dispute' := hnumbers (h.dispute.symm.trans h'.dispute)
  obtain rfl : harm = harm' :=
    map_injective hnumbers (h.bodilyHarm.symm.trans h'.bodilyHarm)
  obtain rfl : appeal = appeal' := hnumbers (h.appeal.symm.trans h'.appeal)
  obtain rfl : days = days' := map_injective hnumbers (h.caseFile.symm.trans h'.caseFile)
  obtain rfl : cap = cap' := map_injective hrules (h.cap.symm.trans h'.cap)
  rfl

theorem valid_of_holds (hacc : terms.problems = []) (h : terms.Holds authored) :
    authored.Valid := by
  obtain ⟨_, hholds, _⟩ := authored_of_accepted hacc
  rwa [h.unique hholds]

theorem selection_of_accepted {value : Json} (h : selectionProblems value = []) :
    ∃ selection, selectionOf value = some selection ∧ selection.Valid := by
  have hfields : problem (!propertyInRange (value.field? "cutoffHours") 0 maxOutcomeHours)
      "cutoffHours must be an integer between 0 and 8760" = [] ∧
      problem (!propertyInRange (value.field? "noShowGraceMinutes") 0 maxOutcomeGraceMinutes)
        "noShowGraceMinutes must be an integer between 0 and 1440" = [] ∧
      retentionRuleProblems (value.field? "lateCancellationRetention")
        "lateCancellationRetention" = [] ∧
      retentionRuleProblems (value.field? "noShowRetention") "noShowRetention" = [] := by
    unfold selectionProblems at h
    split at h
    · simp only [append_eq_nil_iff, and_assoc] at h
      exact h.2
    · simp only [append_eq_nil_iff, and_assoc] at h
      exact h.2
    · cases h
  obtain ⟨hcutoff, hgrace, hlate, hnoShow⟩ := hfields
  have hrule : ∀ {property : Option Json} {label : String},
      retentionRuleProblems property label = [] →
        ∃ r, property.bind ruleOf = some r ∧ r.InRange := by
    intro property label hproperty
    cases property with
    | none => cases hproperty
    | some =>
      obtain ⟨r, hr, hrange, -⟩ := rule_of_accepted hproperty
      exact ⟨r, hr, hrange⟩
  obtain ⟨cutoff, hcutoff, vcutoff⟩ := property_of_problem hcutoff
  obtain ⟨grace, hgrace, vgrace⟩ := property_of_problem hgrace
  obtain ⟨late, hlate, vlate⟩ := hrule hlate
  obtain ⟨noShow, hnoShow, vnoShow⟩ := hrule hnoShow
  refine ⟨⟨cutoff, late, grace, noShow⟩, ?_, vcutoff, vlate, vgrace, vnoShow⟩
  simp only [selectionOf, hcutoff, hlate, hgrace, hnoShow, Option.bind_eq_bind, Option.bind_some,
    Option.pure_def]

end Accepted

end BeauClick.CommercialPolicy
