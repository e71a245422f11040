import BeauClick.CommercialPolicy.OutcomeRows
import BeauClick.CommercialPolicy.Evaluation

/-!
# The outcome terms of an order

The row of `commerce.order_outcome_terms` that an order is created with
(`services/commerce/src/order/order.service.ts`,
`database/migrations/commerce/20260919100002_create_order_outcome_terms.sql`) and what a decision
reads of it (`services/commerce/src/outcome-decision/booking-outcome-decision.service.ts`).
-/

namespace BeauClick.Outcome

open CommercialPolicy Option

/-! ## The row -/

/-- A row of `commerce.order_outcome_terms`. -/
structure OrderOutcomeTermsEntity where
  orderId : Uuid
  sellerParty : SellerParty
  policyKey : String
  policyVersion : ℤ
  copyKey : String
  copyVersion : ℤ
  cutoffHours : ℤ
  lateRetention : RetentionColumns
  graceMinutes : ℤ
  noShowRetention : RetentionColumns
  rescheduleFreeCount : ℤ
  disputeWindowHours : ℤ
  bodilyHarmWindowHours : Option ℤ
  appealWindowHours : ℤ
  caseFileRetentionDays : Option ℤ
  legalCap : CapColumns
  legalEvidenceId : Option Uuid
  contractVersion : ℤ
  resolvedAt : Instant

/-- The `ck_oot_*` constraints, and the types of the columns. -/
structure OrderOutcomeTermsEntity.Checks (t : OrderOutcomeTermsEntity) : Prop where
  policy_version : 1 ≤ t.policyVersion ∧ FitsInteger t.policyVersion
  copy_version : 1 ≤ t.copyVersion ∧ FitsInteger t.copyVersion
  contract_version : t.contractVersion = 1
  cutoff_hours : 0 ≤ t.cutoffHours ∧ t.cutoffHours ≤ 8760
  grace_minutes : 0 ≤ t.graceMinutes ∧ t.graceMinutes ≤ 1440
  late_retention : t.lateRetention.Checks
  no_show_retention : t.noShowRetention.Checks
  reschedule_free_count : 0 ≤ t.rescheduleFreeCount ∧ t.rescheduleFreeCount ≤ 100
  dispute_window : 1 ≤ t.disputeWindowHours ∧ t.disputeWindowHours ≤ 8760
  bodily_harm_window : ∀ hours ∈ t.bodilyHarmWindowHours,
    (1 ≤ hours ∧ hours ≤ 8760) ∧ t.disputeWindowHours ≤ hours
  appeal_window : 1 ≤ t.appealWindowHours ∧ t.appealWindowHours ≤ 8760
  case_file_retention : ∀ days ∈ t.caseFileRetentionDays, 1 ≤ days ∧ days ≤ 3650
  legal_cap : t.legalCap.Checks t.legalEvidenceId

/-- `insertOutcomeTerms`, at the instant of its transaction. -/
def insertOutcomeTerms (orderId : Uuid) (sellerParty : SellerParty) (snapshot : OutcomeSnapshot)
    (now : Instant) : OrderOutcomeTermsEntity where
  orderId := orderId
  sellerParty := sellerParty
  policyKey := snapshot.policyKey
  policyVersion := snapshot.policyVersion
  copyKey := snapshot.copyKey
  copyVersion := snapshot.copyVersion
  cutoffHours := snapshot.terms.cutoffHours
  lateRetention := bookingOutcomeRetentionColumns snapshot.terms.lateCancellationRetention
  graceMinutes := snapshot.terms.noShowGraceMinutes
  noShowRetention := bookingOutcomeRetentionColumns snapshot.terms.noShowRetention
  rescheduleFreeCount := snapshot.terms.rescheduleFreeCountBeforeCutoff
  disputeWindowHours := snapshot.terms.disputeWindowHours
  bodilyHarmWindowHours := snapshot.terms.bodilyHarmWindowHours
  appealWindowHours := snapshot.terms.appealWindowHours
  caseFileRetentionDays := snapshot.terms.caseFileRetentionDays
  legalCap := capColumns snapshot.terms.legalCap
  legalEvidenceId := snapshot.legalEvidenceId
  contractVersion := snapshot.terms.contractVersion
  resolvedAt := now

/-- The terms that an order has kept. -/
structure OrderDecisionTerms where
  policyKey : String
  policyVersion : ℤ
  cutoffHours : ℤ
  rescheduleFreeCount : ℤ
  lateCancellationRetention : RetentionRule
  noShowGraceMinutes : ℤ
  noShowRetention : RetentionRule
  disputeWindowHours : ℤ
  legalCap : Option RetentionRule
  legalCapState : LegalCapState

/-- The terms of a row, where `capStateFor` is what the evidence of a cap is found to be; `none` is
a row that cannot be read. -/
def OrderOutcomeTermsEntity.decisionTerms (t : OrderOutcomeTermsEntity)
    (capStateFor : Option Uuid → LegalCapState) : Option OrderDecisionTerms := do
  let legalCap ← t.legalCap.read
  let late ← t.lateRetention.read
  let noShow ← t.noShowRetention.read
  return {
    policyKey := t.policyKey
    policyVersion := t.policyVersion
    cutoffHours := t.cutoffHours
    rescheduleFreeCount := t.rescheduleFreeCount
    lateCancellationRetention := late
    noShowGraceMinutes := t.graceMinutes
    noShowRetention := noShow
    disputeWindowHours := t.disputeWindowHours
    legalCap := legalCap
    legalCapState := if legalCap = none then .absent else capStateFor t.legalEvidenceId }

/-- `termsFor`: `some none` is an order without terms. -/
def termsFor (capStateFor : Option Uuid → LegalCapState) (table : List OrderOutcomeTermsEntity)
    (orderId : Uuid) : Option (Option OrderDecisionTerms) :=
  match table.find? fun t => t.orderId = orderId with
  | none => some none
  | some t => (t.decisionTerms capStateFor).map some

/-- The terms that a decision is made under, of a snapshot. -/
def decisionTermsOf (capStateFor : Option Uuid → LegalCapState) (snapshot : OutcomeSnapshot) :
    OrderDecisionTerms where
  policyKey := snapshot.policyKey
  policyVersion := snapshot.policyVersion
  cutoffHours := snapshot.terms.cutoffHours
  rescheduleFreeCount := snapshot.terms.rescheduleFreeCountBeforeCutoff
  lateCancellationRetention := snapshot.terms.lateCancellationRetention
  noShowGraceMinutes := snapshot.terms.noShowGraceMinutes
  noShowRetention := snapshot.terms.noShowRetention
  disputeWindowHours := snapshot.terms.disputeWindowHours
  legalCap := snapshot.terms.legalCap
  legalCapState :=
    if snapshot.terms.legalCap = none then .absent else capStateFor snapshot.legalEvidenceId

section Row

variable {authored : AuthoredTerms} {selection : OutcomeSelection} {policyKey : String}
  {policyVersion : ℤ} {copy : CopyVersionRow} {legalEvidenceId : Option Uuid}
  {now createdAt : Instant} {orderId : Uuid} {sellerParty : SellerParty}
  {snapshot : OutcomeSnapshot} {capStateFor : Option Uuid → LegalCapState}
  {table : List OrderOutcomeTermsEntity}

theorem checks_insertOutcomeTerms (h : authored.Valid) (hsel : selection.Valid)
    (hver : 1 ≤ policyVersion ∧ FitsInteger policyVersion)
    (hcopyVersion : 1 ≤ copy.version ∧ FitsInteger copy.version)
    (hev : legalEvidenceId.isSome = authored.legalCap.isSome) :
    (insertOutcomeTerms orderId sellerParty
      (authored.snapshot policyKey policyVersion copy legalEvidenceId selection now)
      createdAt).Checks where
  policy_version := hver
  copy_version := hcopyVersion
  contract_version := rfl
  cutoff_hours := hsel.cutoff
  grace_minutes := hsel.grace
  late_retention := checks_columns hsel.late
  no_show_retention := checks_columns hsel.noShow
  reschedule_free_count := h.reschedule
  dispute_window := h.dispute
  bodily_harm_window := h.bodilyHarm
  appeal_window := h.appeal
  case_file_retention := h.caseFile
  legal_cap := checks_capColumns h.cap hev

theorem decisionTerms_insertOutcomeTerms (orderId : Uuid) (sellerParty : SellerParty)
    (snapshot : OutcomeSnapshot) (now : Instant) (capStateFor : Option Uuid → LegalCapState) :
    (insertOutcomeTerms orderId sellerParty snapshot now).decisionTerms capStateFor =
      some (decisionTermsOf capStateFor snapshot) := by
  simp only [OrderOutcomeTermsEntity.decisionTerms, insertOutcomeTerms, decisionTermsOf,
    read_columns, read_capColumns, bind_eq_bind, bind_some, pure_def]

theorem termsFor_insertOutcomeTerms (hprimary : (table.map (·.orderId)).Nodup)
    (hmem : insertOutcomeTerms orderId sellerParty snapshot now ∈ table) :
    termsFor capStateFor table orderId = some (some (decisionTermsOf capStateFor snapshot)) := by
  have hfound := (Upsert.rowAt_eq_some_iff hprimary).2 ⟨hmem, rfl⟩
  change table.find? (fun t => t.orderId = orderId) = _ at hfound
  rw [termsFor, hfound]
  exact congrArg (Option.map some)
    (decisionTerms_insertOutcomeTerms orderId sellerParty snapshot now capStateFor)

end Row

/-! ## From the request to the decision -/

/-- What the tables hold of a version of these terms: rows that satisfy the constraints, and
the members that were authored. -/
structure Stored (authored : AuthoredTerms) (legalEvidenceId : Option Uuid) : Prop where
  /-- The row of a draft, as it is published and as it is retired. -/
  version_checks : ∀ id policyKey version activationEndsAt actorUserId,
    1 ≤ version ∧ FitsInteger version →
      let draft := authored.draft id policyKey version legalEvidenceId activationEndsAt actorUserId
      draft.Checks ∧ ∀ publisherId publishedAt, (∀ stop ∈ activationEndsAt, publishedAt < stop) →
        (draft.publish publisherId publishedAt).Checks ∧
          ∀ retirerId retiredAt, ((draft.publish publisherId publishedAt).retire retirerId
            retiredAt).Checks
  option_checks : ∀ versionId, (∀ o ∈ authored.writeOptions versionId, o.Checks) ∧
    OptionsUnique (authored.writeOptions versionId)
  members : ∀ (tables : OutcomeTables) driver v, v.Carries authored legalEvidenceId →
    tables.Offers v.id authored → tables.allowedMembersOf driver v = some authored.members

/-- The version is the only one of its key that is active, and the copy the only one. -/
structure InForce (tables : OutcomeTables) (authored : AuthoredTerms)
    (legalEvidenceId : Option Uuid) (v : BookingOutcomePolicyVersionEntity) (copy : CopyVersionRow)
    (policyKey : String) (now : Instant) : Prop where
  active : tables.versions.filter (·.activeFor policyKey now) = [v]
  carries : v.Carries authored legalEvidenceId
  offers : tables.Offers v.id authored
  copy_active : tables.copies.filter (fun c =>
    activeAt c.lifecycleState c.activationStartsAt c.activationEndsAt now) = [copy]

/-- What becomes of a selection under these terms. -/
structure Carried (authored : AuthoredTerms) (legalEvidenceId : Option Uuid)
    (selection : OutcomeSelection) : Prop where
  assignment_checks : ∀ id party policyKey now userId,
    (selection.assignment id party policyKey now userId).Checks
  /-- The trigger of the assignments lets the row in. -/
  within : ∀ {tables v copy policyKey now} id party userId,
    InForce tables authored legalEvidenceId v copy policyKey now →
      tables.WithinActiveVersion (selection.assignment id party policyKey now userId) now
  resolved : ∀ {tables v copy policyKey now} driver id party assignedAt userId,
    InForce tables authored legalEvidenceId v copy policyKey now →
      selection.assignment id party policyKey assignedAt userId ∈ tables.assignments →
        tables.resolveForParty driver party now = some (.resolved
          (authored.snapshot policyKey v.version copy legalEvidenceId selection now))
  terms_checks : ∀ {tables v copy policyKey now} orderId party createdAt,
    InForce tables authored legalEvidenceId v copy policyKey now →
      (insertOutcomeTerms orderId party
        (authored.snapshot policyKey v.version copy legalEvidenceId selection now)
        createdAt).Checks
  terms_read : ∀ capStateFor table orderId party policyKey policyVersion copy now createdAt,
    (table.map OrderOutcomeTermsEntity.orderId).Nodup →
      insertOutcomeTerms orderId party
          (authored.snapshot policyKey policyVersion copy legalEvidenceId selection now) createdAt ∈
        table →
        termsFor capStateFor table orderId = some (some {
          policyKey := policyKey
          policyVersion := policyVersion
          cutoffHours := selection.cutoffHours
          rescheduleFreeCount := authored.rescheduleFreeCountBeforeCutoff
          lateCancellationRetention := selection.lateCancellationRetention
          noShowGraceMinutes := selection.noShowGraceMinutes
          noShowRetention := selection.noShowRetention
          disputeWindowHours := authored.disputeWindowHours
          legalCap := authored.legalCap
          legalCapState :=
            if authored.legalCap = none then .absent else capStateFor legalEvidenceId })

section Survival

variable {authored : AuthoredTerms} {legalEvidenceId : Option Uuid}
  {selection : OutcomeSelection} {tables : OutcomeTables}
  {v : BookingOutcomePolicyVersionEntity} {copy : CopyVersionRow} {policyKey : String}
  {now : Instant}

theorem stored_of_valid (h : authored.Valid)
    (hev : legalEvidenceId.isSome = authored.legalCap.isSome) :
    Stored authored legalEvidenceId where
  version_checks := by
    intro id policyKey version activationEndsAt actorUserId hver draft
    have hdraft : draft.Checks := checks_draft h hver hev
    refine ⟨hdraft, fun publisherId publishedAt hends => ?_⟩
    have hpub : (draft.publish publisherId publishedAt).Checks :=
      checks_publish hdraft rfl hends
    exact ⟨hpub, fun retirerId retiredAt => checks_retire hpub rfl⟩
  option_checks := fun versionId =>
    ⟨fun o ho => checks_writeOptions h ho, optionsUnique_writeOptions h⟩
  members := fun tables driver v => allowedMembersOf_of_carries

section

variable (h : InForce tables authored legalEvidenceId v copy policyKey now)
include h

theorem InForce.mem :
    (v ∈ tables.versions ∧ v.activeFor policyKey now = true) ∧ copy ∈ tables.copies := by
  have hv : v ∈ tables.versions.filter (·.activeFor policyKey now) := by
    rw [h.active]
    exact List.mem_singleton_self v
  have hcopy : copy ∈ tables.copies.filter fun c =>
      activeAt c.lifecycleState c.activationStartsAt c.activationEndsAt now := by
    rw [h.copy_active]
    exact List.mem_singleton_self copy
  exact ⟨List.mem_filter.1 hv, (List.mem_filter.1 hcopy).1⟩

theorem InForce.option (purpose : RetentionPurpose) {rule : RetentionRule}
    (hmem : rule ∈ authored.optionsOf purpose) :
    ∃ o ∈ tables.options, o.versionId = v.id ∧ o.purpose = purpose ∧
      o.rule = bookingOutcomeRetentionColumns rule := by
  obtain ⟨i, hi, rfl⟩ := List.getElem_of_mem hmem
  let o : BookingOutcomePolicyRetentionOptionEntity :=
    ⟨v.id, purpose, i, bookingOutcomeRetentionColumns (authored.optionsOf purpose)[i]⟩
  have hwrit : o ∈ authored.writeOptions v.id :=
    mem_writeOptions.2 (mem_optionRows.2 ⟨i, hi, rfl⟩)
  obtain ⟨ho, hver⟩ := (h.offers o).2 hwrit
  exact ⟨o, ho, hver, rfl, rfl⟩

end

theorem inside_iff : selectionOutsideAllowed selection authored.members = [] ↔
    selection.cutoffHours ∈ authored.cutoffHoursAllowed ∧
      selection.noShowGraceMinutes ∈ authored.noShowGraceMinutesAllowed ∧
      selection.lateCancellationRetention ∈ authored.lateRetentionOptions ∧
      selection.noShowRetention ∈ authored.noShowRetentionOptions := by
  simp only [selectionOutsideAllowed, List.append_eq_nil_iff, problem_eq_nil,
    decide_eq_false_iff_not, not_not, and_assoc]
  rfl

theorem carried_of_valid (h : authored.Valid) (hsel : selection.Valid)
    (hinside : selectionOutsideAllowed selection authored.members = [])
    (hev : legalEvidenceId.isSome = authored.legalCap.isSome) :
    Carried authored legalEvidenceId selection where
  assignment_checks := fun _ _ _ _ _ => checks_assignment hsel
  within := by
    intro tables v copy policyKey now id party userId hforce
    obtain ⟨⟨hv, hact⟩, -⟩ := hforce.mem
    obtain ⟨hcutoff, hgrace, hlate, hnoShow⟩ := inside_iff.1 hinside
    have hclock : ∀ n : ℤ, n - 60000 ≤ n ∧ n ≤ n + 60000 := fun n => ⟨by omega, by omega⟩
    refine ⟨hclock now, v, hv, hact, hforce.carries.cutoffHoursAllowed ▸ hcutoff,
      hforce.carries.noShowGraceMinutesAllowed ▸ hgrace,
      hforce.option .lateCancellation hlate, hforce.option .noShow hnoShow⟩
  resolved := by
    intro tables v copy policyKey now driver id party assignedAt userId hforce hmem
    exact resolveForParty_of_active hforce.active hforce.carries hforce.offers hforce.copy_active
      hmem rfl rfl selection_assignment h hsel hinside hev
  terms_checks := by
    intro tables v copy policyKey now orderId party createdAt hforce
    obtain ⟨⟨hv, -⟩, hcopy⟩ := hforce.mem
    obtain ⟨-, hcopyVersion⟩ := tables.copies_check copy hcopy
    exact checks_insertOutcomeTerms h hsel (tables.versions_check v hv).version hcopyVersion
      hev
  terms_read := fun _ _ _ _ _ _ _ _ _ => termsFor_insertOutcomeTerms

end Survival

/-- Terms that are accepted, with an evidence exactly when they have a cap, are stored and read as
they were sent: their rows satisfy every constraint and offer the authored members, and a selection
among those is stored, resolved, stored with the order and read by a decision unchanged. -/
theorem outcomeTerms_survive (terms : PolicyVersionTerms) (legalEvidenceId : Option Uuid)
    (haccepted : terms.problems = []) (hevidence : legalEvidenceId.isSome = terms.legalCap.isSome) :
    (∃ authored, terms.Holds authored) ∧ ∀ authored, terms.Holds authored →
      Stored authored legalEvidenceId ∧ ∀ value, selectionProblems value = [] →
        ∃ selection, selectionOf value = some selection ∧
          (selectionOutsideAllowed selection authored.members = [] →
            Carried authored legalEvidenceId selection) := by
  refine ⟨?_, fun authored hholds => ?_⟩
  · obtain ⟨authored, hholds, -⟩ := authored_of_accepted haccepted
    exact ⟨authored, hholds⟩
  · have hval := valid_of_holds haccepted hholds
    have hcap : terms.legalCap.isSome = authored.legalCap.isSome := by
      simpa using congrArg Option.isSome hholds.cap
    have hpaired := hevidence.trans hcap
    refine ⟨stored_of_valid hval hpaired, fun value hvalue => ?_⟩
    obtain ⟨selection, hsel, hval'⟩ := selection_of_accepted hvalue
    exact ⟨selection, hsel, fun hinside => carried_of_valid hval hval' hinside hpaired⟩

/-! ## A salon -/

/-- Terms with a cap of eighty per cent. -/
def salonTerms : PolicyVersionTerms where
  contractVersion := 1
  cutoffHoursAllowed := [2, 24]
  lateRetentionOptions := [.obj [("kind", .str "none")],
    .obj [("kind", .str "percentage_of_collected"), ("basisPoints", .num 5000)]]
  noShowGraceMinutesAllowed := [0, 15]
  noShowRetentionOptions := [.obj [("kind", .str "full_collected")],
    .obj [("kind", .str "fixed_toman"), ("amountToman", .num 200000)]]
  rescheduleFreeCountBeforeCutoff := 2
  disputeWindowHours := 72
  bodilyHarmWindowHours := some 720
  appealWindowHours := 168
  caseFileRetentionDays := none
  legalCap := some (.obj [("kind", .str "percentage_of_collected"), ("basisPoints", .num 8000)])

/-- What they hold. -/
def salonAuthored : AuthoredTerms where
  cutoffHoursAllowed := [2, 24]
  lateRetentionOptions := [.none, .percentageOfCollected 5000]
  noShowGraceMinutesAllowed := [0, 15]
  noShowRetentionOptions := [.fullCollected, .fixedToman 200000]
  rescheduleFreeCountBeforeCutoff := 2
  disputeWindowHours := 72
  bodilyHarmWindowHours := some 720
  appealWindowHours := 168
  caseFileRetentionDays := none
  legalCap := some (.percentageOfCollected 8000)

/-- What a seller selects of them. -/
def salonChoice : Json :=
  .obj [("cutoffHours", .num 24),
    ("lateCancellationRetention",
      .obj [("kind", .str "percentage_of_collected"), ("basisPoints", .num 5000)]),
    ("noShowGraceMinutes", .num 15),
    ("noShowRetention", .obj [("kind", .str "fixed_toman"), ("amountToman", .num 200000)])]

/-- The selection that this is. -/
def salonSelection : OutcomeSelection := ⟨24, .percentageOfCollected 5000, 15, .fixedToman 200000⟩

theorem salon_accepted : salonTerms.problems = [] := by decide +kernel

theorem salon_holds : salonTerms.Holds salonAuthored :=
  ⟨rfl, rfl, rfl, rfl, rfl, rfl, rfl, rfl, rfl, rfl, rfl⟩

theorem salon_chosen : selectionProblems salonChoice = [] := by decide +kernel

/-- The version, published. -/
def salonVersion : BookingOutcomePolicyVersionEntity :=
  (salonAuthored.draft 7 "salon" 1 (some 5) none 1).publish 1 10

/-- The tables with that version, one copy and one assignment. -/
def salonTables : OutcomeTables where
  versions := [salonVersion]
  options := salonAuthored.writeOptions 7
  copies := [⟨"copy", 3, .published, some 10, none⟩]
  assignments := [salonSelection.assignment 8 ⟨.business, 2⟩ "salon" 20 9]
  versions_check := by
    rintro v (_ | ⟨_, ⟨⟩⟩)
    have hver : 1 ≤ (1 : ℤ) ∧ FitsInteger 1 := ⟨le_rfl, by decide, by decide⟩
    have hdraft : (salonAuthored.draft 7 "salon" 1 (some 5) none 1).Checks :=
      checks_draft (valid_of_holds salon_accepted salon_holds) hver rfl
    exact checks_publish hdraft rfl (by rintro stop ⟨⟩)
  versions_key := by
    rintro v (_ | ⟨_, ⟨⟩⟩)
    decide
  options_check := fun o => checks_writeOptions (valid_of_holds salon_accepted salon_holds)
  options_unique := optionsUnique_writeOptions (valid_of_holds salon_accepted salon_holds)
  copies_check := by
    rintro c (_ | ⟨_, ⟨⟩⟩)
    exact ⟨by decide, by decide, by decide, by decide⟩
  assignments_check := by
    rintro a (_ | ⟨_, ⟨⟩⟩)
    obtain ⟨selection, hsel, hval⟩ := selection_of_accepted salon_chosen
    obtain rfl : salonSelection = selection := some.inj hsel
    exact checks_assignment hval
  one_current_per_party := by
    rintro a (_ | ⟨_, ⟨⟩⟩) b (_ | ⟨_, ⟨⟩⟩) _ _ _
    rfl

theorem salon_inForce :
    InForce salonTables salonAuthored (some 5) salonVersion ⟨"copy", 3, .published, some 10, none⟩
      "salon" 50 where
  active := rfl
  carries := carries_publish carries_draft
  offers := by
    intro o
    refine ⟨fun h => h.1, fun h => ⟨h, ?_⟩⟩
    obtain ⟨i, hi, ho⟩ := mem_optionRows.1 (mem_writeOptions.1 h)
    rw [← ho]
  copy_active := rfl

/-- The salon's customers are shown what was authored and selected. -/
theorem outcomeTerms_survive_salon :
    salonTables.resolveForParty ⟨.array, fun _ => Or.inl rfl⟩ ⟨.business, 2⟩ 50 = some (.resolved
      (salonAuthored.snapshot "salon" 1 ⟨"copy", 3, .published, some 10, none⟩ (some 5)
        salonSelection 50)) := by
  obtain ⟨-, hall⟩ := outcomeTerms_survive salonTerms (some 5) salon_accepted rfl
  obtain ⟨-, hselections⟩ := hall salonAuthored salon_holds
  obtain ⟨selection, hsel, hcarried⟩ := hselections salonChoice salon_chosen
  obtain rfl : salonSelection = selection := some.inj hsel
  exact (hcarried (by decide)).resolved _ _ _ _ _ salon_inForce List.mem_cons_self

end BeauClick.Outcome
