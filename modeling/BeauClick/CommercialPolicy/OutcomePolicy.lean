import BeauClick.CommercialPolicy.CollectionPolicy

/-!
# Booking-outcome policies

What `BookingOutcomePolicyResolutionService.resolveForParty` does with the selection it
has locked (`services/commercial-policy/src/outcome-policy-assignment/`), and the
contract validators it calls (`booking-outcome-contract.ts` and
`booking-outcome-policy-contract.ts` of `packages/commercial-policy-contract/src/`).

A rule's columns are its constructor and its number, which `ck_sopa_*_retention_shape`
keeps in step.  The objects are built here field by field, so no unknown field is
ever found on them; a `uuid` column has the shape of one.
-/

namespace BeauClick.CommercialPolicy

/-! ## The contract -/

/-- `BookingOutcomeRetentionRule`. -/
inductive RetentionRule where
  | none
  | percentageOfCollected (basisPoints : ℤ)
  | fixedToman (amountToman : ℤ)
  | fullCollected
  deriving DecidableEq

/-- `BookingOutcomeSelectionV1`. -/
structure OutcomeSelection where
  cutoffHours : ℤ
  lateCancellationRetention : RetentionRule
  noShowGraceMinutes : ℤ
  noShowRetention : RetentionRule
  deriving DecidableEq

/-- `AllowedOutcomeMembersV1`. -/
structure AllowedOutcomeMembers where
  cutoffHours : List ℤ
  lateCancellationRetention : List RetentionRule
  noShowGraceMinutes : List ℤ
  noShowRetention : List RetentionRule

/-- `BookingOutcomeTermsV1`. -/
structure OutcomeTerms extends OutcomeSelection where
  contractVersion : ℤ
  rescheduleFreeCountBeforeCutoff : ℤ
  disputeWindowHours : ℤ
  bodilyHarmWindowHours : Option ℤ
  appealWindowHours : ℤ
  caseFileRetentionDays : Option ℤ
  legalCap : Option RetentionRule

/-- `BookingOutcomeSnapshotV1`. -/
structure OutcomeSnapshot where
  policyKey : String
  policyVersion : ℤ
  copyKey : String
  copyVersion : ℤ
  resolvedAt : Instant
  legalEvidenceId : Option Uuid
  terms : OutcomeTerms

/-- `BOOKING_OUTCOME_CONTRACT_VERSION`. -/
def outcomeContractVersion : ℤ := 1

def maxOutcomeHours : ℤ := 8760

def maxOutcomeGraceMinutes : ℤ := 1440

def maxOutcomeRetentionDays : ℤ := 3650

def maxOutcomeRescheduleFreeCount : ℤ := 100

def maxOutcomeAmountToman : ℤ := 10000000000000

/-- Both ends are in the range. -/
def isWholeInRange (value min max : ℤ) : Bool := min ≤ value && value ≤ max

/-- `validateBookingOutcomeRetentionRule`. -/
def RetentionRule.problems (rule : RetentionRule) (label : String) : List String :=
  match rule with
  | .none | .fullCollected => []
  | .percentageOfCollected basisPoints =>
    problem (!isWholeInRange basisPoints 1 9999)
      (label ++ ".basisPoints must be an integer between 1 and 9999")
  | .fixedToman amountToman =>
    problem (!isWholeInRange amountToman 1 maxOutcomeAmountToman)
      (label ++ ".amountToman must be a positive safe integer")

/-- `validateBookingOutcomeSelectionV1`. -/
def OutcomeSelection.problems (selection : OutcomeSelection) : List String :=
  problem (!isWholeInRange selection.cutoffHours 0 maxOutcomeHours)
    "cutoffHours must be an integer between 0 and 8760" ++
  problem (!isWholeInRange selection.noShowGraceMinutes 0 maxOutcomeGraceMinutes)
    "noShowGraceMinutes must be an integer between 0 and 1440" ++
  selection.lateCancellationRetention.problems "lateCancellationRetention" ++
  selection.noShowRetention.problems "noShowRetention"

/-- `selectionOutsideAllowed`.  Two rules are one when their kinds and numbers are. -/
def selectionOutsideAllowed (selection : OutcomeSelection) (allowed : AllowedOutcomeMembers) :
    List String :=
  problem (selection.cutoffHours ∉ allowed.cutoffHours) "cutoffHours" ++
  problem (selection.noShowGraceMinutes ∉ allowed.noShowGraceMinutes) "noShowGraceMinutes" ++
  problem (selection.lateCancellationRetention ∉ allowed.lateCancellationRetention)
    "lateCancellationRetention" ++
  problem (selection.noShowRetention ∉ allowed.noShowRetention) "noShowRetention"

/-- The check of `bodilyHarmWindowHours`. -/
def bodilyHarmProblems (bodilyHarmWindowHours : Option ℤ) (disputeWindowHours : ℤ) : List String :=
  match bodilyHarmWindowHours with
  | none => []
  | some hours =>
    if !isWholeInRange hours 1 maxOutcomeHours then
      ["bodilyHarmWindowHours must be null or an integer between 1 and 8760"]
    else
      problem (isWholeInRange disputeWindowHours 1 maxOutcomeHours && hours < disputeWindowHours)
        "bodilyHarmWindowHours must not be shorter than disputeWindowHours"

/-- The check of `legalCap`. -/
def legalCapProblems : Option RetentionRule → List String
  | none => []
  | some cap =>
    cap.problems "legalCap" ++
      problem (cap.problems "legalCap" = [] && cap = .none)
        "legalCap may not be of kind none; an absent cap is null"

/-- `validateBookingOutcomeTermsV1`. -/
def OutcomeTerms.problems (terms : OutcomeTerms) : List String :=
  terms.toOutcomeSelection.problems ++
  problem (terms.contractVersion ≠ outcomeContractVersion) "contractVersion must be 1" ++
  problem (!isWholeInRange terms.rescheduleFreeCountBeforeCutoff 0 maxOutcomeRescheduleFreeCount)
    "rescheduleFreeCountBeforeCutoff must be an integer between 0 and 100" ++
  problem (!isWholeInRange terms.disputeWindowHours 1 maxOutcomeHours)
    "disputeWindowHours must be an integer between 1 and 8760" ++
  bodilyHarmProblems terms.bodilyHarmWindowHours terms.disputeWindowHours ++
  problem (!isWholeInRange terms.appealWindowHours 1 maxOutcomeHours)
    "appealWindowHours must be an integer between 1 and 8760" ++
  problem (terms.caseFileRetentionDays.any fun days => !isWholeInRange days 1 maxOutcomeRetentionDays)
    "caseFileRetentionDays must be null or an integer between 1 and 3650" ++
  legalCapProblems terms.legalCap

/-- `validateIdentity`, under the label `snapshot`. -/
def OutcomeSnapshot.identityProblems (snapshot : OutcomeSnapshot) : List String :=
  problem (!matchesKeyPattern snapshot.policyKey) "snapshot.policyKey has an invalid shape" ++
  problem (!isWholeInRange snapshot.policyVersion 1 2147483647)
    "snapshot.policyVersion must be a positive integer" ++
  problem (!matchesKeyPattern snapshot.copyKey) "snapshot.copyKey has an invalid shape" ++
  problem (!isWholeInRange snapshot.copyVersion 1 2147483647)
    "snapshot.copyVersion must be a positive integer"

/-- `validateBookingOutcomeSnapshotV1`. -/
def OutcomeSnapshot.problems (snapshot : OutcomeSnapshot) : List String :=
  snapshot.identityProblems ++
  snapshot.terms.problems ++
  match snapshot.legalEvidenceId with
  | none => problem snapshot.terms.legalCap.isSome "a legal cap requires its evidence reference"
  | some _ =>
    problem snapshot.terms.legalCap.isNone
      "an evidence reference exists only together with a legal cap"

/-! ## The catalogue -/

/-- `BOOKING_OUTCOME_RETENTION_PURPOSES`. -/
inductive RetentionPurpose where
  | lateCancellation
  | noShow
  deriving DecidableEq

/-- The columns of `commercial.booking_outcome_policy_versions` that are read. -/
structure OutcomeVersionRow where
  id : Uuid
  policyKey : String
  version : ℤ
  lifecycleState : LifecycleState
  activationStartsAt : Option Instant
  activationEndsAt : Option Instant
  cutoffHoursAllowed : List ℤ
  noShowGraceMinutesAllowed : List ℤ
  rescheduleFreeCountBeforeCutoff : ℤ
  disputeWindowHours : ℤ
  bodilyHarmWindowHours : Option ℤ
  appealWindowHours : ℤ
  caseFileRetentionDays : Option ℤ
  legalCap : Option RetentionRule
  legalEvidenceId : Option Uuid

/-- `commercial.booking_outcome_policy_retention_options`, in presentation order. -/
structure RetentionOptionRow where
  versionId : Uuid
  purpose : RetentionPurpose
  rule : RetentionRule

/-- The columns of `commercial.customer_policy_copy_versions` that are read. -/
structure CopyVersionRow where
  copyKey : String
  version : ℤ
  lifecycleState : LifecycleState
  activationStartsAt : Option Instant
  activationEndsAt : Option Instant

/-- The tables of `#42a` that the two readers project. -/
structure OutcomeCatalogue where
  versions : List OutcomeVersionRow
  options : List RetentionOptionRow
  copies : List CopyVersionRow

/-- The versions of a policy that are in force. -/
def activeOutcomeVersions (catalogue : OutcomeCatalogue) (policyKey : String) (now : Instant) :
    List OutcomeVersionRow :=
  catalogue.versions.filter fun v => v.policyKey = policyKey &&
    activeAt v.lifecycleState v.activationStartsAt v.activationEndsAt now

/-- One purpose of `retentionOptionsFor`. -/
def retentionOptionsFor (catalogue : OutcomeCatalogue) (versionId : Uuid)
    (purpose : RetentionPurpose) : List RetentionRule :=
  (catalogue.options.filter fun o => o.versionId = versionId && o.purpose = purpose).map (·.rule)

/-- The retention options that a version admits. -/
def allowedMembersOf (catalogue : OutcomeCatalogue) (version : OutcomeVersionRow) :
    AllowedOutcomeMembers where
  cutoffHours := version.cutoffHoursAllowed
  lateCancellationRetention := retentionOptionsFor catalogue version.id .lateCancellation
  noShowGraceMinutes := version.noShowGraceMinutesAllowed
  noShowRetention := retentionOptionsFor catalogue version.id .noShow

/-- The copy versions active platform-wide. -/
def activeCopies (catalogue : OutcomeCatalogue) (now : Instant) : List CopyVersionRow :=
  catalogue.copies.filter fun c =>
    activeAt c.lifecycleState c.activationStartsAt c.activationEndsAt now

/-- `requireSelectableAndLock`. -/
def isSelectable (catalogue : OutcomeCatalogue) (policyKey : String) (selection : OutcomeSelection)
    (now : Instant) : Bool :=
  match activeOutcomeVersions catalogue policyKey now with
  | [version] => selectionOutsideAllowed selection (allowedMembersOf catalogue version) = []
  | _ => false

/-- `BOOKING_OUTCOME_UNAVAILABLE_CAUSES`. -/
inductive OutcomeUnavailable where
  | noActiveVersion
  | ambiguousVersion
  | memberNotAllowed
  | noActiveCopy
  | ambiguousCopy
  | invalidSnapshot
  deriving DecidableEq

/-- The snapshot of a version, a selection and a copy. -/
def outcomeSnapshot (policyKey : String) (selection : OutcomeSelection)
    (version : OutcomeVersionRow) (copy : CopyVersionRow) (now : Instant) : OutcomeSnapshot where
  policyKey := policyKey
  policyVersion := version.version
  copyKey := copy.copyKey
  copyVersion := copy.version
  resolvedAt := now
  legalEvidenceId := version.legalEvidenceId
  terms := { selection with
    contractVersion := outcomeContractVersion
    rescheduleFreeCountBeforeCutoff := version.rescheduleFreeCountBeforeCutoff
    disputeWindowHours := version.disputeWindowHours
    bodilyHarmWindowHours := version.bodilyHarmWindowHours
    appealWindowHours := version.appealWindowHours
    caseFileRetentionDays := version.caseFileRetentionDays
    legalCap := version.legalCap }

/-- `resolveForParty` after the reads of the selection and of its versions: the options
and the copies are read here. -/
def resolveOutcome (policyKey : String) (selection : OutcomeSelection)
    (versions : List OutcomeVersionRow) (catalogue : OutcomeCatalogue) (now : Instant) :
    Except OutcomeUnavailable OutcomeSnapshot :=
  match versions with
  | [] => .error .noActiveVersion
  | [version] =>
    if selectionOutsideAllowed selection (allowedMembersOf catalogue version) ≠ [] then
      .error .memberNotAllowed
    else
      match activeCopies catalogue now with
      | [] => .error .noActiveCopy
      | [copy] =>
        let snapshot := outcomeSnapshot policyKey selection version copy now
        if snapshot.problems = [] then .ok snapshot else .error .invalidSnapshot
      | _ => .error .ambiguousCopy
  | _ => .error .ambiguousVersion

theorem resolveOutcome_eq_ok {policyKey : String} {selection : OutcomeSelection}
    {versions : List OutcomeVersionRow} {catalogue : OutcomeCatalogue} {now : Instant}
    {snapshot : OutcomeSnapshot}
    (h : resolveOutcome policyKey selection versions catalogue now = .ok snapshot) :
    snapshot.policyKey = policyKey ∧ snapshot.problems = [] := by
  unfold resolveOutcome at h
  split at h
  · cases h
  · split at h
    · cases h
    split at h
    · cases h
    · dsimp only at h
      split at h
      · rename_i hval
        cases h
        exact ⟨rfl, hval⟩
      · cases h
    · cases h
  · cases h

end BeauClick.CommercialPolicy
