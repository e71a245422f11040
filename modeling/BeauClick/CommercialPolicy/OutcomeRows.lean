import BeauClick.CommercialPolicy.OutcomeAuthoring
import BeauClick.CommercialPolicy.AssignmentView
import BeauClick.Lib.Upsert

/-!
# The rows of outcome policies

The tables that an outcome policy, its options and a seller's selection are stored in
(`database/migrations/commercial/20260918100001_create_booking_outcome_policy_family.sql` and
`20260919100001_create_seller_outcome_policy_assignments.sql`), what the services write there
(`booking-outcome-policy.service.ts`, `outcome-policy-assignment.service.ts`) and how the rows are
read (`outcome-policy-rows.ts`).
-/

namespace BeauClick.CommercialPolicy

open Upsert LifecycleState Decimal List

/-! ## Columns -/

/-- What a `SMALLINT` holds. -/
def FitsSmallint (n : ℤ) : Prop := -32768 ≤ n ∧ n ≤ 32767

/-- What an `INTEGER` holds. -/
def FitsInteger (n : ℤ) : Prop := -2147483648 ≤ n ∧ n ≤ 2147483647

/-- What a `BIGINT` holds. -/
def FitsBigint (n : ℤ) : Prop := -9223372036854775808 ≤ n ∧ n ≤ 9223372036854775807

/-- A number as the driver returns it; that of a `BIGINT` is a text. -/
inductive PgNumber where
  | number (n : ℤ)
  | text (cs : List Char)

/-- A `BIGINT` as the driver returns it. -/
def PgNumber.ofBigint (n : ℤ) : PgNumber := .text (Decimal.text n)

/-- `Number(value)`; that of `null` is zero.  `none` is no number. -/
def numberOf : Option PgNumber → Option ℤ
  | none => some 0
  | some (.number n) => some n
  | some (.text cs) => Decimal.read cs

/-- The three columns of a rule. -/
structure RetentionColumns where
  kind : String
  basisPoints : Option ℤ
  amountToman : Option ℤ
  deriving DecidableEq

/-- The basis points of a rule that has some. -/
def basisPointsOf : RetentionRule → Option ℤ
  | .percentageOfCollected basisPoints => some basisPoints
  | _ => none

/-- The amount of a rule that has one. -/
def amountTomanOf : RetentionRule → Option ℤ
  | .fixedToman amountToman => some amountToman
  | _ => none

/-- The columns a retention rule is kept in. -/
def bookingOutcomeRetentionColumns (rule : RetentionRule) : RetentionColumns where
  kind := rule.kind
  basisPoints := basisPointsOf rule
  amountToman := amountTomanOf rule

/-- `bookingOutcomeRetentionRuleFromColumns`; `none` is a rule that the validators refuse. -/
def bookingOutcomeRetentionRuleFromColumns (kind : String)
    (basisPoints amountToman : Option PgNumber) : Option RetentionRule :=
  if kind = "percentage_of_collected" then (numberOf basisPoints).map .percentageOfCollected
  else if kind = "fixed_toman" then (numberOf amountToman).map .fixedToman
  else if kind = "none" then some .none
  else if kind = "full_collected" then some .fullCollected
  else none

/-- The rule of the columns that the driver returns. -/
def RetentionColumns.read (c : RetentionColumns) : Option RetentionRule :=
  bookingOutcomeRetentionRuleFromColumns c.kind (c.basisPoints.map .number)
    (c.amountToman.map .ofBigint)

/-- `ck_*_kind` and `ck_*_shape`, and the types of the columns. -/
structure RetentionColumns.Checks (c : RetentionColumns) : Prop where
  kind : c.kind ∈ retentionKinds
  shape : (c.kind ∈ ["none", "full_collected"] ∧ c.basisPoints = none ∧ c.amountToman = none) ∨
    (c.kind = "percentage_of_collected" ∧ (∃ n ∈ c.basisPoints, 1 ≤ n ∧ n ≤ 9999) ∧
      c.amountToman = none) ∨
    (c.kind = "fixed_toman" ∧ c.basisPoints = none ∧
      ∃ n ∈ c.amountToman, 0 < n ∧ n ≤ 10000000000000)
  basisPoints_fits : ∀ n ∈ c.basisPoints, FitsInteger n
  amountToman_fits : ∀ n ∈ c.amountToman, FitsBigint n

/-- The columns of a cap. -/
structure CapColumns where
  kind : Option String
  basisPoints : Option ℤ
  amountToman : Option ℤ

/-- The cap in columns, as `termsColumns` and `insertOutcomeTerms` write it. -/
def capColumns (cap : Option RetentionRule) : CapColumns where
  kind := cap.map (·.kind)
  basisPoints := cap.bind basisPointsOf
  amountToman := cap.bind amountTomanOf

/-- `legalCapOf`; `none` is a rule that the validators refuse. -/
def CapColumns.read (c : CapColumns) : Option (Option RetentionRule) :=
  match c.kind with
  | none => some none
  | some kind => (bookingOutcomeRetentionRuleFromColumns kind (c.basisPoints.map .number)
      (c.amountToman.map .ofBigint)).map some

/-- `ck_*_legal_cap_kind`, `ck_*_legal_cap_shape` and `ck_*_legal_cap_requires_evidence`, and the
types of the columns. -/
structure CapColumns.Checks (c : CapColumns) (legalEvidenceId : Option Uuid) : Prop where
  legal_cap_kind : ∀ kind ∈ c.kind,
    kind ∈ ["percentage_of_collected", "fixed_toman", "full_collected"]
  legal_cap_shape : (c.kind = none ∧ c.basisPoints = none ∧ c.amountToman = none) ∨
    (c.kind = some "percentage_of_collected" ∧ (∃ n ∈ c.basisPoints, 1 ≤ n ∧ n ≤ 9999) ∧
      c.amountToman = none) ∨
    (c.kind = some "fixed_toman" ∧ c.basisPoints = none ∧
      ∃ n ∈ c.amountToman, 0 < n ∧ n ≤ 10000000000000) ∨
    (c.kind = some "full_collected" ∧ c.basisPoints = none ∧ c.amountToman = none)
  legal_cap_requires_evidence : (c.kind = none ∧ legalEvidenceId = none) ∨
    (c.kind ≠ none ∧ legalEvidenceId ≠ none)
  basisPoints_fits : ∀ n ∈ c.basisPoints, FitsInteger n
  amountToman_fits : ∀ n ∈ c.amountToman, FitsBigint n

section Columns

variable {rule : RetentionRule} {cap : Option RetentionRule} {legalEvidenceId : Option Uuid}

theorem numberOf_ofBigint (n : ℤ) : numberOf (some (.ofBigint n)) = some n := read_text n

theorem read_columns (rule : RetentionRule) :
    (bookingOutcomeRetentionColumns rule).read = some rule := by
  cases rule with
  | none | percentageOfCollected => rfl
  | fixedToman n =>
    show (numberOf (some (.ofBigint n))).map RetentionRule.fixedToman = _
    rw [numberOf_ofBigint]
    rfl
  | fullCollected => rfl

theorem columns_injective : Function.Injective bookingOutcomeRetentionColumns := fun a b h =>
  Option.some.inj ((read_columns a).symm.trans ((congrArg _ h).trans (read_columns b)))

theorem read_capColumns (cap : Option RetentionRule) : (capColumns cap).read = some cap := by
  cases cap with
  | none => rfl
  | some rule => exact congrArg (Option.map some) (read_columns rule)

theorem checks_columns (h : rule.InRange) : (bookingOutcomeRetentionColumns rule).Checks := by
  cases rule with
  | none => exact ⟨by decide, Or.inl ⟨by decide, rfl, rfl⟩, by rintro n ⟨⟩, by rintro n ⟨⟩⟩
  | fullCollected =>
    exact ⟨by decide, Or.inl ⟨by decide, rfl, rfl⟩, by rintro n ⟨⟩, by rintro n ⟨⟩⟩
  | percentageOfCollected n =>
    refine ⟨by simp [bookingOutcomeRetentionColumns, RetentionRule.kind, retentionKinds],
      Or.inr (Or.inl ⟨rfl, ⟨n, rfl, h⟩, rfl⟩), ?_, by rintro m ⟨⟩⟩
    rintro m ⟨⟩
    exact ⟨by have := h.1; omega, by have := h.2; omega⟩
  | fixedToman n =>
    obtain ⟨hlow, hhigh⟩ := h
    unfold maxOutcomeAmountToman at hhigh
    refine ⟨by simp [bookingOutcomeRetentionColumns, RetentionRule.kind, retentionKinds],
      Or.inr (Or.inr ⟨rfl, rfl, n, rfl, by omega, hhigh⟩), by rintro m ⟨⟩, ?_⟩
    rintro m ⟨⟩
    exact ⟨by omega, by omega⟩

theorem checks_capColumns (h : ∀ rule ∈ cap, rule.InRange ∧ rule ≠ .none)
    (hev : legalEvidenceId.isSome = cap.isSome) :
    (capColumns cap).Checks legalEvidenceId := by
  cases cap with
  | none =>
    have hnone : legalEvidenceId = none := by simpa using hev
    exact ⟨by rintro k ⟨⟩, Or.inl ⟨rfl, rfl, rfl⟩, Or.inl ⟨rfl, hnone⟩, by rintro n ⟨⟩,
      by rintro n ⟨⟩⟩
  | some rule =>
    obtain ⟨hrange, hne⟩ := h rule rfl
    have hchecks := checks_columns hrange
    have hsome : legalEvidenceId ≠ none := by
      intro hnone
      rw [hnone] at hev
      cases hev
    refine ⟨?_, ?_, Or.inr ⟨Option.some_ne_none _, hsome⟩, hchecks.basisPoints_fits,
      hchecks.amountToman_fits⟩
    · rintro k ⟨⟩
      cases rule with
      | none => exact absurd rfl hne
      | _ => simp [RetentionRule.kind]
    · cases rule with
      | none => exact absurd rfl hne
      | percentageOfCollected n => exact Or.inr (Or.inl ⟨rfl, ⟨n, rfl, hrange⟩, rfl⟩)
      | fixedToman n =>
        obtain ⟨_, hhigh⟩ := hrange
        exact Or.inr (Or.inr (Or.inl ⟨rfl, rfl, n, rfl, by omega, hhigh⟩))
      | fullCollected => exact Or.inr (Or.inr (Or.inr ⟨rfl, rfl, rfl⟩))

end Columns

/-! ## Sets -/

/-- A `SMALLINT[]` as the driver returns it: parsed, or the literal. -/
inductive PgArray where
  | array (items : List ℤ)
  | literal (cs : List Char)

/-- The literal of an array. -/
def arrayLiteral (items : List ℤ) : List Char :=
  '\x7b' :: ([','].intercalate (items.map Decimal.text) ++ ['\x7d'])

/-- `replace(/^\x7b|\x7d$/g, '')`. -/
def stripBraces (cs : List Char) : List Char :=
  let opened := if cs.head? = some '\x7b' then cs.tail else cs
  if opened.getLast? = some '\x7d' then opened.dropLast else opened

/-- `smallintArray`; `none` holds something that is no number. -/
def smallintArray : PgArray → Option (List ℤ)
  | .array items => some items
  | .literal cs => (((stripBraces cs).splitOn ',').filter (!·.isEmpty)).mapM Decimal.read

/-- The driver returns an array parsed, or as its literal. -/
structure Driver where
  array : List ℤ → PgArray
  parsed_or_literal : ∀ items,
    array items = .array items ∨ array items = .literal (arrayLiteral items)

theorem mapM_of_map {α β : Type} {f : α → Option β} {xs : List α} {ys : List β}
    (h : xs.map f = ys.map some) : xs.mapM f = some ys := by
  induction xs generalizing ys with
  | nil =>
    cases ys with
    | nil => rfl
    | cons => cases h
  | cons x xs ih =>
    cases ys with
    | nil => cases h
    | cons y =>
      obtain ⟨hx, hxs⟩ := cons_eq_cons.1 h
      rw [mapM_cons, ih hxs, show f x = some y from hx]
      rfl

theorem smallintArray_literal (items : List ℤ) :
    smallintArray (.literal (arrayLiteral items)) = some items := by
  by_cases hne : items = []
  · rw [hne]
    rfl
  have hstrip : stripBraces (arrayLiteral items) = [','].intercalate (items.map text) := by
    simp [stripBraces, arrayLiteral]
  have hsplit : ([','].intercalate (items.map text)).splitOn ',' =
      items.map text := by
    refine splitOn_intercalate ',' ?_ (mt map_eq_nil_iff.1 hne)
    intro cs hcs
    obtain ⟨n, -, rfl⟩ := mem_map.1 hcs
    exact notMem_text (by decide) (by decide) n
  have hfilter : (items.map text).filter (!·.isEmpty) = items.map text := by
    refine filter_eq_self.2 ?_
    intro cs hcs
    obtain ⟨n, -, rfl⟩ := mem_map.1 hcs
    simp [text_ne_nil n]
  rw [smallintArray, hstrip, hsplit, hfilter]
  refine mapM_of_map ?_
  rw [map_map]
  exact map_congr_left fun n _ => read_text n

theorem smallintArray_array (driver : Driver) (items : List ℤ) :
    smallintArray (driver.array items) = some items := by
  rcases driver.parsed_or_literal items with h | h
  · rw [h]
    rfl
  · rw [h, smallintArray_literal]

/-! ## Versions -/

/-- The two columns that name an actor. -/
structure ActorColumns where
  userId : Option Uuid
  label : Option String

/-- One of the two is there. -/
def ActorColumns.Named (actor : ActorColumns) : Prop :=
  (actor.userId ≠ none ∧ actor.label = none) ∨ (actor.userId = none ∧ actor.label ≠ none)

/-- Neither is. -/
def ActorColumns.Absent (actor : ActorColumns) : Prop := actor.userId = none ∧ actor.label = none

/-- `BookingOutcomePolicyVersionEntity`, and the column that no service writes. -/
structure BookingOutcomePolicyVersionEntity where
  id : Uuid
  policyKey : String
  version : ℤ
  lifecycleState : LifecycleState
  cutoffHoursAllowed : List ℤ
  noShowGraceMinutesAllowed : List ℤ
  rescheduleFreeCountBeforeCutoff : ℤ
  disputeWindowHours : ℤ
  bodilyHarmWindowHours : Option ℤ
  appealWindowHours : ℤ
  caseFileRetentionDays : Option ℤ
  legalCap : CapColumns
  legalEvidenceId : Option Uuid
  remedyChoiceWindowHours : Option ℤ
  contractVersion : ℤ
  activationStartsAt : Option Instant
  activationEndsAt : Option Instant
  createdBy : ActorColumns
  publishedAt : Option Instant
  publishedBy : ActorColumns
  retiredAt : Option Instant
  retiredBy : ActorColumns

/-- `smallint_array_is_strictly_ascending`. -/
def StrictlyAscending (members : List ℤ) : Prop := members.IsChain (· < ·)

/-- `ck_bopv_cutoff_set` and `ck_bopv_grace_set`, and the type of the column. -/
structure SetChecks (members : List ℤ) (max : ℤ) : Prop where
  cardinality : 1 ≤ members.length ∧ members.length ≤ 64
  nonnegative : ∀ n ∈ members, 0 ≤ n
  bounded : ∀ n ∈ members, n ≤ max
  ascending : StrictlyAscending members
  fits : ∀ n ∈ members, FitsSmallint n

/-- The `ck_bopv_*` constraints, and the types of the columns. -/
structure BookingOutcomePolicyVersionEntity.Checks (v : BookingOutcomePolicyVersionEntity) :
    Prop where
  version : 1 ≤ v.version ∧ FitsInteger v.version
  contract_version : 1 ≤ v.contractVersion ∧ FitsSmallint v.contractVersion
  cutoff_set : SetChecks v.cutoffHoursAllowed 8760
  grace_set : SetChecks v.noShowGraceMinutesAllowed 1440
  reschedule_free_count : 0 ≤ v.rescheduleFreeCountBeforeCutoff ∧
    v.rescheduleFreeCountBeforeCutoff ≤ 100
  dispute_window : 1 ≤ v.disputeWindowHours ∧ v.disputeWindowHours ≤ 8760
  bodily_harm_window : ∀ hours ∈ v.bodilyHarmWindowHours,
    (1 ≤ hours ∧ hours ≤ 8760) ∧ v.disputeWindowHours ≤ hours
  appeal_window : 1 ≤ v.appealWindowHours ∧ v.appealWindowHours ≤ 8760
  case_file_retention : ∀ days ∈ v.caseFileRetentionDays, 1 ≤ days ∧ days ≤ 3650
  legal_cap : v.legalCap.Checks v.legalEvidenceId
  remedy_choice_window : ∀ hours ∈ v.remedyChoiceWindowHours, 1 ≤ hours ∧ hours ≤ 8760
  activation_start_pairing : (v.lifecycleState = .draft ∧ v.activationStartsAt = none) ∨
    (v.lifecycleState ≠ .draft ∧ v.activationStartsAt ≠ none)
  window : ∀ stop ∈ v.activationEndsAt, ∀ start ∈ v.activationStartsAt, start < stop
  not_retroactive : v.lifecycleState = .draft ∨
    ∃ published ∈ v.publishedAt, ∀ start ∈ v.activationStartsAt, published ≤ start
  created_actor : v.createdBy.Named
  published_actor : (v.lifecycleState = .draft ∧ v.publishedAt = none ∧ v.publishedBy.Absent) ∨
    (v.lifecycleState ≠ .draft ∧ v.publishedAt ≠ none ∧ v.publishedBy.Named)
  retired_actor : (v.lifecycleState ≠ .retired ∧ v.retiredAt = none ∧ v.retiredBy.Absent) ∨
    (v.lifecycleState = .retired ∧ v.retiredAt ≠ none ∧ v.retiredBy.Named)

/-- What `createVersionDraft` inserts: `termsColumns` of the terms, and the draft's own columns. -/
def AuthoredTerms.draft (authored : AuthoredTerms) (id : Uuid) (policyKey : String) (version : ℤ)
    (legalEvidenceId : Option Uuid) (activationEndsAt : Option Instant) (actorUserId : Uuid) :
    BookingOutcomePolicyVersionEntity where
  id := id
  policyKey := policyKey
  version := version
  lifecycleState := .draft
  cutoffHoursAllowed := authored.cutoffHoursAllowed
  noShowGraceMinutesAllowed := authored.noShowGraceMinutesAllowed
  rescheduleFreeCountBeforeCutoff := authored.rescheduleFreeCountBeforeCutoff
  disputeWindowHours := authored.disputeWindowHours
  bodilyHarmWindowHours := authored.bodilyHarmWindowHours
  appealWindowHours := authored.appealWindowHours
  caseFileRetentionDays := authored.caseFileRetentionDays
  legalCap := capColumns authored.legalCap
  legalEvidenceId := legalEvidenceId
  remedyChoiceWindowHours := none
  contractVersion := outcomeContractVersion
  activationStartsAt := none
  activationEndsAt := activationEndsAt
  createdBy := ⟨some actorUserId, none⟩
  publishedAt := none
  publishedBy := ⟨none, none⟩
  retiredAt := none
  retiredBy := ⟨none, none⟩

/-- The patch of a publication. -/
def BookingOutcomePolicyVersionEntity.publish (v : BookingOutcomePolicyVersionEntity)
    (actorUserId : Uuid) (now : Instant) : BookingOutcomePolicyVersionEntity :=
  { v with
    lifecycleState := .published
    publishedAt := some now
    activationStartsAt := some now
    publishedBy := ⟨some actorUserId, none⟩ }

/-- The patch of a retirement. -/
def BookingOutcomePolicyVersionEntity.retire (v : BookingOutcomePolicyVersionEntity)
    (actorUserId : Uuid) (now : Instant) : BookingOutcomePolicyVersionEntity :=
  { v with
    lifecycleState := .retired
    retiredAt := some now
    retiredBy := ⟨some actorUserId, none⟩ }

section Versions

variable {authored : AuthoredTerms} {v : BookingOutcomePolicyVersionEntity} {id actorUserId : Uuid}
  {policyKey : String} {version max : ℤ} {legalEvidenceId : Option Uuid}
  {activationEndsAt : Option Instant} {now : Instant} {members : List ℤ}

theorem setChecks_of_valid (h : MembersValid members max) (hmax : max ≤ 32767) :
    SetChecks members max where
  cardinality := ⟨length_pos_iff.2 h.nonempty, h.few⟩
  nonnegative := fun n hn => (h.bounded n hn).1
  bounded := fun n hn => (h.bounded n hn).2
  ascending := h.ascending.isChain
  fits := fun n hn => by
    obtain ⟨hlow, hhigh⟩ := h.bounded n hn
    exact ⟨by omega, by omega⟩

theorem checks_draft (h : authored.Valid) (hver : 1 ≤ version ∧ FitsInteger version)
    (hev : legalEvidenceId.isSome = authored.legalCap.isSome) :
    (authored.draft id policyKey version legalEvidenceId activationEndsAt actorUserId).Checks where
  version := hver
  contract_version := by
    show 1 ≤ outcomeContractVersion ∧ FitsSmallint outcomeContractVersion
    unfold outcomeContractVersion FitsSmallint
    omega
  cutoff_set := setChecks_of_valid h.cutoffs (by decide)
  grace_set := setChecks_of_valid h.graces (by decide)
  reschedule_free_count := h.reschedule
  dispute_window := h.dispute
  bodily_harm_window := h.bodilyHarm
  appeal_window := h.appeal
  case_file_retention := h.caseFile
  legal_cap := checks_capColumns h.cap hev
  remedy_choice_window := by rintro n ⟨⟩
  activation_start_pairing := Or.inl ⟨rfl, rfl⟩
  window := by rintro stop _ start ⟨⟩
  not_retroactive := Or.inl rfl
  created_actor := Or.inl ⟨Option.some_ne_none _, rfl⟩
  published_actor := Or.inl ⟨rfl, rfl, rfl, rfl⟩
  retired_actor := Or.inl ⟨noConfusion, rfl, rfl, rfl⟩

theorem checks_publish (h : v.Checks) (hdraft : v.lifecycleState = .draft)
    (hends : ∀ stop ∈ v.activationEndsAt, now < stop) : (v.publish actorUserId now).Checks :=
  { h with
    activation_start_pairing := Or.inr ⟨noConfusion, Option.some_ne_none _⟩
    window := by
      rintro stop hstop start ⟨⟩
      exact hends stop hstop
    not_retroactive := Or.inr ⟨now, rfl, by rintro start ⟨⟩; exact le_rfl⟩
    published_actor := Or.inr ⟨noConfusion, Option.some_ne_none _,
      Or.inl ⟨Option.some_ne_none _, rfl⟩⟩
    retired_actor := by
      rcases h.retired_actor with ⟨-, hnone⟩ | ⟨hret, -⟩
      · exact Or.inl ⟨noConfusion, hnone⟩
      · rw [hdraft] at hret
        cases hret }

theorem checks_retire (h : v.Checks) (hpub : v.lifecycleState = .published) :
    (v.retire actorUserId now).Checks := by
  have hnot : v.lifecycleState ≠ .draft := by
    rw [hpub]
    exact noConfusion
  exact
    { h with
      activation_start_pairing := Or.inr ⟨noConfusion,
        (h.activation_start_pairing.resolve_left fun hdraft => hnot hdraft.1).2⟩
      not_retroactive := Or.inr (h.not_retroactive.resolve_left hnot)
      published_actor := Or.inr ⟨noConfusion,
        (h.published_actor.resolve_left fun hdraft => hnot hdraft.1).2⟩
      retired_actor := Or.inr ⟨rfl, Option.some_ne_none _,
        Or.inl ⟨Option.some_ne_none _, rfl⟩⟩ }

end Versions

/-! ## Options -/

/-- `BookingOutcomePolicyRetentionOptionEntity`, less its id. -/
structure BookingOutcomePolicyRetentionOptionEntity where
  versionId : Uuid
  purpose : RetentionPurpose
  ordinal : ℤ
  rule : RetentionColumns
  deriving DecidableEq

/-- The `ck_bopro_*` constraints, and the types of the columns. -/
structure BookingOutcomePolicyRetentionOptionEntity.Checks
    (o : BookingOutcomePolicyRetentionOptionEntity) : Prop where
  ordinal : 0 ≤ o.ordinal ∧ o.ordinal ≤ 31
  rule : o.rule.Checks

/-- `uq_bopro_ordinal` and `uq_bopro_meaning`. -/
structure OptionsUnique (options : List BookingOutcomePolicyRetentionOptionEntity) : Prop where
  ordinal : (options.map fun o => (o.versionId, o.purpose, o.ordinal)).Nodup
  meaning : (options.map fun o => (o.versionId, o.purpose, o.rule)).Nodup

/-- `push` of `writeOptions`. -/
def optionRows (versionId : Uuid) (purpose : RetentionPurpose) (options : List RetentionRule) :
    List BookingOutcomePolicyRetentionOptionEntity :=
  options.mapIdx fun ordinal option =>
    ⟨versionId, purpose, ordinal, bookingOutcomeRetentionColumns option⟩

def AuthoredTerms.writeOptions (authored : AuthoredTerms) (versionId : Uuid) :
    List BookingOutcomePolicyRetentionOptionEntity :=
  optionRows versionId .lateCancellation authored.lateRetentionOptions ++
    optionRows versionId .noShow authored.noShowRetentionOptions

/-- The members that a seller may choose from. -/
def AuthoredTerms.members (authored : AuthoredTerms) : AllowedOutcomeMembers where
  cutoffHours := authored.cutoffHoursAllowed
  lateCancellationRetention := authored.lateRetentionOptions
  noShowGraceMinutes := authored.noShowGraceMinutesAllowed
  noShowRetention := authored.noShowRetentionOptions

/-- The options of one purpose. -/
def AuthoredTerms.optionsOf (authored : AuthoredTerms) : RetentionPurpose → List RetentionRule
  | .lateCancellation => authored.lateRetentionOptions
  | .noShow => authored.noShowRetentionOptions

section Options

variable {authored : AuthoredTerms} {versionId : Uuid} {purpose : RetentionPurpose}
  {options : List RetentionRule} {o : BookingOutcomePolicyRetentionOptionEntity}

theorem mem_optionRows : o ∈ optionRows versionId purpose options ↔
    ∃ (i : ℕ) (h : i < options.length),
      ⟨versionId, purpose, i, bookingOutcomeRetentionColumns options[i]⟩ = o := by
  rw [optionRows, mem_mapIdx]

theorem optionRows_increasing (versionId : Uuid) (purpose : RetentionPurpose)
    (options : List RetentionRule) :
    (optionRows versionId purpose options).Pairwise fun x y => x.ordinal < y.ordinal := by
  rw [pairwise_iff_getElem]
  intro i j hi hj hij
  simp only [optionRows, getElem_mapIdx]
  exact_mod_cast hij

theorem read_optionRows (versionId : Uuid) (purpose : RetentionPurpose)
    (options : List RetentionRule) :
    (optionRows versionId purpose options).mapM (·.rule.read) = some options := by
  refine mapM_of_map (ext_getElem (by simp [optionRows]) fun i hi hi' => ?_)
  simp only [optionRows, getElem_map, getElem_mapIdx, read_columns]

open AuthoredTerms

theorem mem_writeOptions : o ∈ authored.writeOptions versionId ↔
    o ∈ optionRows versionId o.purpose (authored.optionsOf o.purpose) := by
  have hpurp : ∀ {purpose options}, o ∈ optionRows versionId purpose options →
      o.purpose = purpose := by
    intro purpose options h
    obtain ⟨_, -, rfl⟩ := mem_optionRows.1 h
    rfl
  rw [writeOptions, mem_append]
  constructor
  · rintro (h | h)
    · rw [hpurp h]
      exact h
    · rw [hpurp h]
      exact h
  · intro h
    cases hp : o.purpose with
    | lateCancellation =>
      rw [hp] at h
      exact Or.inl h
    | noShow =>
      rw [hp] at h
      exact Or.inr h

theorem checks_optionRows (h : OptionsValid options)
    (hmem : o ∈ optionRows versionId purpose options) : o.Checks := by
  obtain ⟨_, hi, rfl⟩ := mem_optionRows.1 hmem
  have hfew : options.length ≤ 32 := h.few
  exact ⟨⟨by dsimp only; omega, by dsimp only; omega⟩,
    checks_columns (h.inRange _ (getElem_mem hi))⟩

theorem checks_writeOptions (h : authored.Valid) (hmem : o ∈ authored.writeOptions versionId) :
    o.Checks := by
  rcases mem_append.1 hmem with hmem | hmem
  · exact checks_optionRows h.late hmem
  · exact checks_optionRows h.noShow hmem

theorem nodup_map_optionRows {β : Type} {key : BookingOutcomePolicyRetentionOptionEntity → β}
    (hkey : ∀ (i j : ℕ) (hi : i < options.length) (hj : j < options.length),
      key ⟨versionId, purpose, i, bookingOutcomeRetentionColumns options[i]⟩ =
        key ⟨versionId, purpose, j, bookingOutcomeRetentionColumns options[j]⟩ → i = j) :
    ((optionRows versionId purpose options).map key).Nodup := by
  rw [nodup_iff_injective_getElem]
  rintro ⟨i, hi⟩ ⟨j, hj⟩ heq
  simp only [optionRows, getElem_map, getElem_mapIdx] at heq
  simp only [optionRows, length_map, length_mapIdx] at hi hj
  exact Fin.ext (hkey i j hi hj heq)

theorem optionsUnique_writeOptions (h : authored.Valid) :
    OptionsUnique (authored.writeOptions versionId) := by
  have hordinal : ∀ purpose options, ((optionRows versionId purpose options).map
      fun o => (o.versionId, o.purpose, o.ordinal)).Nodup := by
    intro purpose options
    refine nodup_map_optionRows fun i j hi hj heq => ?_
    have hordinals : (i : ℤ) = j := (Prod.ext_iff.1 (Prod.ext_iff.1 heq).2).2
    exact_mod_cast hordinals
  have hmeaning : ∀ purpose options, OptionsValid options →
      ((optionRows versionId purpose options).map
        fun o => (o.versionId, o.purpose, o.rule)).Nodup := by
    intro purpose options hval
    refine nodup_map_optionRows fun i j hi hj heq => ?_
    have hrules : options[i] = options[j] :=
      columns_injective (Prod.ext_iff.1 (Prod.ext_iff.1 heq).2).2
    exact (hval.distinct.getElem_inj_iff).1 hrules
  have hapart : ∀ {β : Type} (key : BookingOutcomePolicyRetentionOptionEntity → β),
      (∀ x y, key x = key y → x.purpose = y.purpose) →
        ((optionRows versionId .lateCancellation authored.lateRetentionOptions).map key).Disjoint
          ((optionRows versionId .noShow authored.noShowRetentionOptions).map key) := by
    intro β key hkey k hlate hnoShow
    obtain ⟨x, hx, rfl⟩ := mem_map.1 hlate
    obtain ⟨y, hy, heq⟩ := mem_map.1 hnoShow
    obtain ⟨i, hi, rfl⟩ := mem_optionRows.1 hx
    obtain ⟨j, hj, rfl⟩ := mem_optionRows.1 hy
    cases hkey _ _ heq
  refine ⟨?_, ?_⟩
  · rw [writeOptions, map_append]
    refine (hordinal _ _).append (hordinal _ _) (hapart _ fun x y heq => ?_)
    exact (Prod.ext_iff.1 (Prod.ext_iff.1 heq).2).1
  · rw [writeOptions, map_append]
    refine (hmeaning _ _ h.late).append (hmeaning _ _ h.noShow) (hapart _ fun x y heq => ?_)
    exact (Prod.ext_iff.1 (Prod.ext_iff.1 heq).2).1

end Options

/-! ## Assignments -/

/-- A row of the assignments of outcome policies. -/
structure SellerOutcomePolicyAssignmentEntity where
  id : Uuid
  party : SellerParty
  policyKey : String
  cutoffHours : ℤ
  lateRetention : RetentionColumns
  graceMinutes : ℤ
  noShowRetention : RetentionColumns
  assignedAt : Instant
  assignedByUserId : Uuid
  supersededAt : Option Instant
  supersededByUserId : Option Uuid
  supersededByAssignmentId : Option Uuid

/-- The `ck_sopa_*` constraints. -/
structure SellerOutcomePolicyAssignmentEntity.Checks (a : SellerOutcomePolicyAssignmentEntity) :
    Prop where
  cutoff_hours : 0 ≤ a.cutoffHours ∧ a.cutoffHours ≤ 8760
  grace_minutes : 0 ≤ a.graceMinutes ∧ a.graceMinutes ≤ 1440
  late_retention : a.lateRetention.Checks
  no_show_retention : a.noShowRetention.Checks
  supersession_pairing : (a.supersededAt = none ∧ a.supersededByUserId = none ∧
      a.supersededByAssignmentId = none) ∨
    (a.supersededAt ≠ none ∧ a.supersededByUserId ≠ none ∧ a.supersededByAssignmentId ≠ none)
  supersession_forward : ∀ stop ∈ a.supersededAt, a.assignedAt ≤ stop
  not_self_superseding : ∀ successor ∈ a.supersededByAssignmentId, successor ≠ a.id

/-- `selectionOfRow`. -/
def SellerOutcomePolicyAssignmentEntity.selection (a : SellerOutcomePolicyAssignmentEntity) :
    Option OutcomeSelection := do
  let late ← a.lateRetention.read
  let noShow ← a.noShowRetention.read
  return ⟨a.cutoffHours, late, a.graceMinutes, noShow⟩

/-- What `assign` inserts. -/
def OutcomeSelection.assignment (selection : OutcomeSelection) (id : Uuid) (party : SellerParty)
    (policyKey : String) (now : Instant) (userId : Uuid) :
    SellerOutcomePolicyAssignmentEntity where
  id := id
  party := party
  policyKey := policyKey
  cutoffHours := selection.cutoffHours
  lateRetention := bookingOutcomeRetentionColumns selection.lateCancellationRetention
  graceMinutes := selection.noShowGraceMinutes
  noShowRetention := bookingOutcomeRetentionColumns selection.noShowRetention
  assignedAt := now
  assignedByUserId := userId
  supersededAt := none
  supersededByUserId := none
  supersededByAssignmentId := none

/-! ## Tables -/

/-- The tables of the family and of the assignments, with what the database keeps of them. -/
structure OutcomeTables where
  versions : List BookingOutcomePolicyVersionEntity
  options : List BookingOutcomePolicyRetentionOptionEntity
  copies : List CopyVersionRow
  assignments : List SellerOutcomePolicyAssignmentEntity
  versions_check : ∀ v ∈ versions, v.Checks
  /-- `ck_bop_key_shape` of the policy. -/
  versions_key : ∀ v ∈ versions, matchesKeyPattern v.policyKey = true
  options_check : ∀ o ∈ options, o.Checks
  options_unique : OptionsUnique options
  /-- `ck_cpc_key_shape` of the copy, `ck_cpcv_version` and the type of the column. -/
  copies_check : ∀ c ∈ copies,
    matchesKeyPattern c.copyKey = true ∧ 1 ≤ c.version ∧ FitsInteger c.version
  assignments_check : ∀ a ∈ assignments, a.Checks
  /-- `uq_sopa_one_current_per_party`. -/
  one_current_per_party : ∀ a ∈ assignments, ∀ b ∈ assignments, a.party = b.party →
    a.supersededAt = none → b.supersededAt = none → a = b

/-- The `WHERE` of `ACTIVE_VERSION_SQL`. -/
def BookingOutcomePolicyVersionEntity.activeFor (v : BookingOutcomePolicyVersionEntity)
    (policyKey : String) (now : Instant) : Bool :=
  v.policyKey = policyKey && activeAt v.lifecycleState v.activationStartsAt v.activationEndsAt now

/-- `require_outcome_selection_within_active_version` lets the row in. -/
structure OutcomeTables.WithinActiveVersion (tables : OutcomeTables)
    (a : SellerOutcomePolicyAssignmentEntity) (now : Instant) : Prop where
  clock : now - 60000 ≤ a.assignedAt ∧ a.assignedAt ≤ now + 60000
  within : ∃ v ∈ tables.versions, v.activeFor a.policyKey now = true ∧
    a.cutoffHours ∈ v.cutoffHoursAllowed ∧ a.graceMinutes ∈ v.noShowGraceMinutesAllowed ∧
    (∃ o ∈ tables.options, o.versionId = v.id ∧ o.purpose = .lateCancellation ∧
      o.rule = a.lateRetention) ∧
    ∃ o ∈ tables.options, o.versionId = v.id ∧ o.purpose = .noShow ∧ o.rule = a.noShowRetention

/-- The columns of a version, as the driver returns them. -/
def BookingOutcomePolicyVersionEntity.row (v : BookingOutcomePolicyVersionEntity)
    (driver : Driver) : Option OutcomeVersionRow := do
  let cutoffHoursAllowed ← smallintArray (driver.array v.cutoffHoursAllowed)
  let noShowGraceMinutesAllowed ← smallintArray (driver.array v.noShowGraceMinutesAllowed)
  let legalCap ← v.legalCap.read
  return {
    id := v.id
    policyKey := v.policyKey
    version := v.version
    lifecycleState := v.lifecycleState
    activationStartsAt := v.activationStartsAt
    activationEndsAt := v.activationEndsAt
    cutoffHoursAllowed := cutoffHoursAllowed
    noShowGraceMinutesAllowed := noShowGraceMinutesAllowed
    rescheduleFreeCountBeforeCutoff := v.rescheduleFreeCountBeforeCutoff
    disputeWindowHours := v.disputeWindowHours
    bodilyHarmWindowHours := v.bodilyHarmWindowHours
    appealWindowHours := v.appealWindowHours
    caseFileRetentionDays := v.caseFileRetentionDays
    legalCap := legalCap
    legalEvidenceId := v.legalEvidenceId }

namespace OutcomeTables

variable (tables : OutcomeTables) (driver : Driver)

/-- One purpose of `retentionOptionsFor`, of one version: by ordinal. -/
def optionsFor (versionId : Uuid) (purpose : RetentionPurpose) : Option (List RetentionRule) :=
  (orderBy (·.ordinal) (tables.options.filter fun o =>
    o.versionId = versionId && o.purpose = purpose)).mapM (·.rule.read)

/-- The options of one version. -/
def optionRowsFor (versionId : Uuid) : Option (List RetentionOptionRow) := do
  let late ← tables.optionsFor versionId .lateCancellation
  let noShow ← tables.optionsFor versionId .noShow
  return late.map (⟨versionId, .lateCancellation, ·⟩) ++ noShow.map (⟨versionId, .noShow, ·⟩)

/-- What `activeOutcomeVersions` reads for a key, with the options of what it reads, and the
copies; `none` is a row that cannot be read. -/
def catalogue (policyKey : String) (now : Instant) : Option OutcomeCatalogue := do
  let versions ← (tables.versions.filter (·.activeFor policyKey now)).mapM (·.row driver)
  let options ← versions.mapM fun v => tables.optionRowsFor v.id
  return ⟨versions, options.flatten, tables.copies⟩

/-- The current assignment of a party. -/
def currentOf (party : SellerParty) : Option SellerOutcomePolicyAssignmentEntity :=
  tables.assignments.find? fun a => a.party = party && a.supersededAt.isNone

/-- `resolveForParty`; `none` is a row that cannot be read. -/
def resolveForParty (party : SellerParty) (now : Instant) :
    Option (PolicyResolution outcomePolicies) :=
  match tables.currentOf party with
  | none => some .legacyUnenrolled
  | some a => do
    let selection ← a.selection
    let catalogue ← tables.catalogue driver a.policyKey now
    return AssignmentSystem.answerOf (resolveOutcome a.policyKey selection
      (activeOutcomeVersions catalogue a.policyKey now) catalogue now)

end OutcomeTables

/-- `allowedMembersOf`, of a row of the table in whatever state. -/
def OutcomeTables.allowedMembersOf (tables : OutcomeTables) (driver : Driver)
    (v : BookingOutcomePolicyVersionEntity) : Option AllowedOutcomeMembers := do
  let cutoffHours ← smallintArray (driver.array v.cutoffHoursAllowed)
  let late ← tables.optionsFor v.id .lateCancellation
  let noShowGraceMinutes ← smallintArray (driver.array v.noShowGraceMinutesAllowed)
  let noShow ← tables.optionsFor v.id .noShow
  return ⟨cutoffHours, late, noShowGraceMinutes, noShow⟩

/-! ## What is read back -/

/-- The columns of the terms are these terms'. -/
structure BookingOutcomePolicyVersionEntity.Carries (v : BookingOutcomePolicyVersionEntity)
    (authored : AuthoredTerms) (legalEvidenceId : Option Uuid) : Prop where
  cutoffHoursAllowed : v.cutoffHoursAllowed = authored.cutoffHoursAllowed
  noShowGraceMinutesAllowed : v.noShowGraceMinutesAllowed = authored.noShowGraceMinutesAllowed
  reschedule : v.rescheduleFreeCountBeforeCutoff = authored.rescheduleFreeCountBeforeCutoff
  dispute : v.disputeWindowHours = authored.disputeWindowHours
  bodilyHarm : v.bodilyHarmWindowHours = authored.bodilyHarmWindowHours
  appeal : v.appealWindowHours = authored.appealWindowHours
  caseFile : v.caseFileRetentionDays = authored.caseFileRetentionDays
  legalCap : v.legalCap = capColumns authored.legalCap
  evidence : v.legalEvidenceId = legalEvidenceId

/-- The options of a version are the ones that were written for it. -/
def OutcomeTables.Offers (tables : OutcomeTables) (versionId : Uuid) (authored : AuthoredTerms) :
    Prop :=
  ∀ o, o ∈ tables.options ∧ o.versionId = versionId ↔ o ∈ authored.writeOptions versionId

/-- The version as the resolver reads it. -/
def AuthoredTerms.row (authored : AuthoredTerms) (v : BookingOutcomePolicyVersionEntity)
    (legalEvidenceId : Option Uuid) : OutcomeVersionRow where
  id := v.id
  policyKey := v.policyKey
  version := v.version
  lifecycleState := v.lifecycleState
  activationStartsAt := v.activationStartsAt
  activationEndsAt := v.activationEndsAt
  cutoffHoursAllowed := authored.cutoffHoursAllowed
  noShowGraceMinutesAllowed := authored.noShowGraceMinutesAllowed
  rescheduleFreeCountBeforeCutoff := authored.rescheduleFreeCountBeforeCutoff
  disputeWindowHours := authored.disputeWindowHours
  bodilyHarmWindowHours := authored.bodilyHarmWindowHours
  appealWindowHours := authored.appealWindowHours
  caseFileRetentionDays := authored.caseFileRetentionDays
  legalCap := authored.legalCap
  legalEvidenceId := legalEvidenceId

section Tables

variable {authored : AuthoredTerms} {v : BookingOutcomePolicyVersionEntity}
  {id actorUserId userId versionId : Uuid} {policyKey : String} {version : ℤ}
  {legalEvidenceId : Option Uuid} {activationEndsAt : Option Instant} {now : Instant}
  {selection : OutcomeSelection} {party : SellerParty} {tables : OutcomeTables} {driver : Driver}
  {purpose : RetentionPurpose} {a : SellerOutcomePolicyAssignmentEntity}

theorem carries_draft :
    (authored.draft id policyKey version legalEvidenceId activationEndsAt actorUserId).Carries
      authored legalEvidenceId := ⟨rfl, rfl, rfl, rfl, rfl, rfl, rfl, rfl, rfl⟩

theorem carries_publish (h : v.Carries authored legalEvidenceId) :
    (v.publish actorUserId now).Carries authored legalEvidenceId := { h with }

theorem checks_assignment (h : selection.Valid) :
    (selection.assignment id party policyKey now userId).Checks where
  cutoff_hours := h.cutoff
  grace_minutes := h.grace
  late_retention := checks_columns h.late
  no_show_retention := checks_columns h.noShow
  supersession_pairing := Or.inl ⟨rfl, rfl, rfl⟩
  supersession_forward := by rintro stop ⟨⟩
  not_self_superseding := by rintro successor ⟨⟩

theorem selection_assignment :
    (selection.assignment id party policyKey now userId).selection = some selection := by
  simp only [SellerOutcomePolicyAssignmentEntity.selection, OutcomeSelection.assignment,
    read_columns, Option.bind_eq_bind, Option.bind_some, Option.pure_def]

theorem nodup_ordinals (tables : OutcomeTables) (versionId : Uuid) (purpose : RetentionPurpose) :
    ((tables.options.filter fun o => o.versionId = versionId && o.purpose = purpose).map
      (·.ordinal)).Nodup := by
  have hunique := pairwise_map.1 tables.options_unique.ordinal
  refine pairwise_map.2 ((hunique.filter _).imp_of_mem ?_)
  intro x y hx hy hne heq
  have hx' := (mem_filter.1 hx).2
  have hy' := (mem_filter.1 hy).2
  rw [Bool.and_eq_true, decide_eq_true_eq, decide_eq_true_eq] at hx' hy'
  refine hne (Prod.ext (hx'.1.trans hy'.1.symm) (Prod.ext (hx'.2.trans hy'.2.symm) heq))

open OutcomeTables

theorem optionsFor_of_offers (h : tables.Offers versionId authored) :
    tables.optionsFor versionId purpose = some (authored.optionsOf purpose) := by
  have hrows : orderBy (·.ordinal) (tables.options.filter fun o =>
      o.versionId = versionId && o.purpose = purpose) =
        optionRows versionId purpose (authored.optionsOf purpose) := by
    refine eq_of_increasing (orderBy_increasing (nodup_ordinals tables versionId purpose))
      (optionRows_increasing _ _ _) fun o => ?_
    rw [mem_orderBy, mem_filter, Bool.and_eq_true, decide_eq_true_eq, decide_eq_true_eq,
      ← and_assoc, h o, mem_writeOptions]
    constructor
    · rintro ⟨hmem, rfl⟩
      exact hmem
    · intro hmem
      have hpurp : o.purpose = purpose := by
        obtain ⟨_, -, rfl⟩ := mem_optionRows.1 hmem
        rfl
      rw [hpurp]
      exact ⟨hmem, rfl⟩
  rw [optionsFor, hrows]
  exact read_optionRows _ _ _

theorem allowedMembersOf_of_carries (hcarries : v.Carries authored legalEvidenceId)
    (hoffers : tables.Offers v.id authored) :
    tables.allowedMembersOf driver v = some authored.members := by
  simp only [OutcomeTables.allowedMembersOf, hcarries.cutoffHoursAllowed,
    hcarries.noShowGraceMinutesAllowed, smallintArray_array, optionsFor_of_offers hoffers,
    Option.bind_eq_bind, Option.bind_some, Option.pure_def]
  rfl

theorem row_of_carries (h : v.Carries authored legalEvidenceId) :
    v.row driver = some (authored.row v legalEvidenceId) := by
  simp only [BookingOutcomePolicyVersionEntity.row, AuthoredTerms.row, h.cutoffHoursAllowed,
    h.noShowGraceMinutesAllowed, h.reschedule, h.dispute, h.bodilyHarm, h.appeal, h.caseFile,
    h.legalCap, h.evidence, smallintArray_array, read_capColumns, Option.bind_eq_bind,
    Option.bind_some, Option.pure_def]

theorem catalogue_of_active (hact : tables.versions.filter (·.activeFor policyKey now) = [v])
    (hcarries : v.Carries authored legalEvidenceId) (hoffers : tables.Offers v.id authored) :
    tables.catalogue driver policyKey now = some
      ⟨[authored.row v legalEvidenceId],
        authored.lateRetentionOptions.map (⟨v.id, .lateCancellation, ·⟩) ++
          authored.noShowRetentionOptions.map (⟨v.id, .noShow, ·⟩), tables.copies⟩ := by
  have hvers : (tables.versions.filter (·.activeFor policyKey now)).mapM (·.row driver) =
      some [authored.row v legalEvidenceId] := by
    rw [hact]
    exact mapM_of_map (congrArg (fun r => [r]) (row_of_carries hcarries))
  have hopts : tables.optionRowsFor v.id = some
      (authored.lateRetentionOptions.map (⟨v.id, .lateCancellation, ·⟩) ++
        authored.noShowRetentionOptions.map (⟨v.id, .noShow, ·⟩)) := by
    simp only [optionRowsFor, optionsFor_of_offers hoffers, Option.bind_eq_bind,
      Option.bind_some, Option.pure_def, AuthoredTerms.optionsOf]
  have hall : [authored.row v legalEvidenceId].mapM (fun r => tables.optionRowsFor r.id) = some
      [authored.lateRetentionOptions.map (⟨v.id, .lateCancellation, ·⟩) ++
        authored.noShowRetentionOptions.map (⟨v.id, .noShow, ·⟩)] :=
    mapM_of_map (congrArg (fun r => [r]) hopts)
  simp only [catalogue, hvers, hall, Option.bind_eq_bind, Option.bind_some,
    Option.pure_def, flatten_cons, flatten_nil, append_nil]

end Tables

/-! ## The snapshot -/

/-- The snapshot of the authored terms, a selection inside them and a copy. -/
def AuthoredTerms.snapshot (authored : AuthoredTerms) (policyKey : String) (policyVersion : ℤ)
    (copy : CopyVersionRow) (legalEvidenceId : Option Uuid) (selection : OutcomeSelection)
    (now : Instant) : OutcomeSnapshot where
  policyKey := policyKey
  policyVersion := policyVersion
  copyKey := copy.copyKey
  copyVersion := copy.version
  resolvedAt := now
  legalEvidenceId := legalEvidenceId
  terms := { selection with
    contractVersion := outcomeContractVersion
    rescheduleFreeCountBeforeCutoff := authored.rescheduleFreeCountBeforeCutoff
    disputeWindowHours := authored.disputeWindowHours
    bodilyHarmWindowHours := authored.bodilyHarmWindowHours
    appealWindowHours := authored.appealWindowHours
    caseFileRetentionDays := authored.caseFileRetentionDays
    legalCap := authored.legalCap }

section Snapshot

variable {authored : AuthoredTerms} {v : BookingOutcomePolicyVersionEntity}
  {policyKey : String} {policyVersion n min max : ℤ} {copy : CopyVersionRow}
  {legalEvidenceId : Option Uuid} {now : Instant} {selection : OutcomeSelection}
  {party : SellerParty} {tables : OutcomeTables} {driver : Driver} {rule : RetentionRule}
  {message label : String} {a : SellerOutcomePolicyAssignmentEntity}

theorem problem_of_inRange (h : min ≤ n ∧ n ≤ max) :
    problem (!isWholeInRange n min max) message = [] :=
  problem_eq_nil.2 (congrArg not (isWholeInRange_iff.2 h))

theorem problems_of_inRange (h : rule.InRange) : rule.problems label = [] := by
  cases rule with
  | none | fullCollected => rfl
  | percentageOfCollected | fixedToman => exact problem_of_inRange h

theorem problems_selection (h : selection.Valid) : selection.problems = [] := by
  simp only [OutcomeSelection.problems, problem_of_inRange h.cutoff, problem_of_inRange h.grace,
    problems_of_inRange h.late, problems_of_inRange h.noShow, append_nil]

section

variable (h : authored.Valid)
include h

theorem problems_bodilyHarm :
    bodilyHarmProblems authored.bodilyHarmWindowHours authored.disputeWindowHours = [] := by
  have hharm := h.bodilyHarm
  unfold bodilyHarmProblems
  split
  · rfl
  rename_i hours hsome
  obtain ⟨hrange, hle⟩ := hharm hours hsome
  rw [isWholeInRange_iff.2 hrange]
  refine problem_eq_nil.2 ?_
  rw [decide_eq_false (not_lt.2 hle), Bool.and_false]

theorem problems_cap : legalCapProblems authored.legalCap = [] := by
  have hcap := h.cap
  unfold legalCapProblems
  split
  · rfl
  rename_i cap hsome
  obtain ⟨hrange, hne⟩ := hcap cap hsome
  rw [problems_of_inRange hrange]
  refine problem_eq_nil.2 ?_
  rw [decide_eq_false hne, Bool.and_false]

theorem problems_caseFile :
    problem (authored.caseFileRetentionDays.any fun days =>
      !isWholeInRange days 1 maxOutcomeRetentionDays) message = [] := by
  rw [problem_eq_nil]
  cases hdays : authored.caseFileRetentionDays with
  | none => rfl
  | some days => exact congrArg not (isWholeInRange_iff.2 (h.caseFile days hdays))

theorem problems_snapshot (hsel : selection.Valid) (hkey : matchesKeyPattern policyKey = true)
    (hver : 1 ≤ policyVersion ∧ policyVersion ≤ 2147483647)
    (hcopyKey : matchesKeyPattern copy.copyKey = true)
    (hcopyVersion : 1 ≤ copy.version ∧ copy.version ≤ 2147483647)
    (hev : legalEvidenceId.isSome = authored.legalCap.isSome) :
    (authored.snapshot policyKey policyVersion copy legalEvidenceId selection now).problems =
      [] := by
  have hidentity : (authored.snapshot policyKey policyVersion copy legalEvidenceId selection
      now).identityProblems = [] := by
    simp only [OutcomeSnapshot.identityProblems, AuthoredTerms.snapshot, hkey, hcopyKey,
      problem_of_inRange hver, problem_of_inRange hcopyVersion, append_nil]
    rfl
  have hterms : (authored.snapshot policyKey policyVersion copy legalEvidenceId selection
      now).terms.problems = [] := by
    simp only [OutcomeTerms.problems, AuthoredTerms.snapshot, problems_selection hsel,
      problem_of_inRange h.reschedule, problem_of_inRange h.dispute, problem_of_inRange h.appeal,
      problems_bodilyHarm h, problems_caseFile h, problems_cap h, append_nil]
    rfl
  rw [OutcomeSnapshot.problems, hidentity, hterms]
  cases legalEvidenceId with
  | none => exact problem_eq_nil.2 hev.symm
  | some =>
    refine problem_eq_nil.2 ?_
    show authored.legalCap.isNone = false
    rw [← Option.not_isSome, ← hev]
    rfl

end

/-! ## The resolution -/

theorem currentOf_of_mem (hmem : a ∈ tables.assignments) (hparty : a.party = party)
    (hcur : a.supersededAt = none) : tables.currentOf party = some a := by
  unfold OutcomeTables.currentOf
  cases hfound : tables.assignments.find? fun a => a.party = party && a.supersededAt.isNone with
  | none =>
    have hnone := find?_eq_none.1 hfound a hmem
    rw [hparty, hcur] at hnone
    exact absurd (by simp) hnone
  | some b =>
    have hb := find?_some hfound
    rw [Bool.and_eq_true, decide_eq_true_eq, Option.isNone_iff_eq_none] at hb
    rw [tables.one_current_per_party a hmem b (mem_of_find?_eq_some hfound)
      (hparty.trans hb.1.symm) hcur hb.2]

theorem allowedMembersOf_row (versions : List OutcomeVersionRow) (copies : List CopyVersionRow) :
    allowedMembersOf ⟨versions, authored.lateRetentionOptions.map (⟨v.id, .lateCancellation, ·⟩) ++
        authored.noShowRetentionOptions.map (⟨v.id, .noShow, ·⟩), copies⟩
      (authored.row v legalEvidenceId) = authored.members := by
  simp [allowedMembersOf, retentionOptionsFor, AuthoredTerms.members, AuthoredTerms.row,
    filter_append, filter_map, Function.comp_def]

/-- A party whose selection is inside the one active version is resolved: the snapshot carries the
selected members and the authored values. -/
theorem resolveForParty_of_active
    (hact : tables.versions.filter (·.activeFor policyKey now) = [v])
    (hcarries : v.Carries authored legalEvidenceId) (hoffers : tables.Offers v.id authored)
    (hcopy : tables.copies.filter (fun c =>
      activeAt c.lifecycleState c.activationStartsAt c.activationEndsAt now) = [copy])
    (hmem : a ∈ tables.assignments) (hcur : a.supersededAt = none)
    (hkey : a.policyKey = policyKey) (hselects : a.selection = some selection)
    (h : authored.Valid) (hsel : selection.Valid)
    (hinside : selectionOutsideAllowed selection authored.members = [])
    (hev : legalEvidenceId.isSome = authored.legalCap.isSome) :
    tables.resolveForParty driver a.party now = some (.resolved
      (authored.snapshot policyKey v.version copy legalEvidenceId selection now)) := by
  obtain ⟨hv, hvactive⟩ : v ∈ tables.versions ∧ v.activeFor policyKey now = true := by
    have hfiltered : v ∈ tables.versions.filter (·.activeFor policyKey now) := by
      rw [hact]
      exact mem_singleton_self v
    exact mem_filter.1 hfiltered
  have hc : copy ∈ tables.copies := by
    have hfiltered : copy ∈ tables.copies.filter fun c =>
        activeAt c.lifecycleState c.activationStartsAt c.activationEndsAt now := by
      rw [hcopy]
      exact mem_singleton_self copy
    exact (mem_filter.1 hfiltered).1
  have hvkey : v.policyKey = policyKey :=
    of_decide_eq_true (Bool.and_eq_true _ _ ▸ hvactive).1
  obtain ⟨hcopyKey, hcopyVersion, hcopyFits⟩ := tables.copies_check copy hc
  obtain ⟨hver, hversionFits⟩ := (tables.versions_check v hv).version
  let row := authored.row v legalEvidenceId
  have hvers : ∀ options, activeOutcomeVersions ⟨[row], options, tables.copies⟩ policyKey now =
      [row] := by
    intro options
    exact filter_cons_of_pos hvactive
  have hsnap : outcomeSnapshot policyKey selection row copy now =
      authored.snapshot policyKey v.version copy legalEvidenceId selection now := rfl
  have hproblems : (authored.snapshot policyKey v.version copy legalEvidenceId selection
      now).problems = [] :=
    problems_snapshot h hsel (hvkey ▸ tables.versions_key v hv) ⟨hver, hversionFits.2⟩
      hcopyKey ⟨hcopyVersion, hcopyFits.2⟩ hev
  simp only [OutcomeTables.resolveForParty, currentOf_of_mem hmem rfl hcur, hselects, hkey,
    catalogue_of_active hact hcarries hoffers, Option.bind_eq_bind, Option.bind_some,
    Option.pure_def]
  rw [hvers, resolveOutcome]
  simp only [row, allowedMembersOf_row, hinside, activeCopies, hcopy, hsnap, hproblems, ne_eq,
    not_true_eq_false, if_false, if_true]
  rfl

end Snapshot

end BeauClick.CommercialPolicy
