import BeauClick.CommercialPolicy.CollectionPolicy
import BeauClick.Lib.Constrained
import BeauClick.Lib.HalfOpen
import BeauClick.Lib.Runs
import Mathlib.Data.List.Sort

/-!
# The catalogue of plans and prices

The tables of `database/migrations/commercial/20260902800001_create_commercial_catalogue.sql`, as
`20260906900001` left them, under their constraints and triggers, and the operations of
`CommercialCatalogueService` (`services/commercial-policy/src/catalogue/`).

A statement that writes several rows is as many rows written one after the other, which the
triggers see one by one.  A row that fails a check of its own columns is refused; where the check
ties columns to each other they are one value here, so that such a row cannot be written down: the
actor of a record, the publication and the retirement of a version, the bounds of a window and of
a tier.  The validators of the service, which refuse what the tables would, and the audit rows
are left out.
-/

namespace BeauClick.CommercialPolicy

open Runs Option

/-! ## Rows -/

/-- `*_by_user_id` or `*_by_label`: exactly one names the actor. -/
inductive CatalogueActor where
  | user (userId : Uuid)
  | label (label : String)
  deriving DecidableEq

/-- When something was done, and by whom. -/
structure ActorRecord where
  instant : Instant
  actor : CatalogueActor
  deriving DecidableEq

/-- `lifecycle_state` with `published_*` and `retired_*`, which it determines. -/
inductive VersionLifecycle where
  | draft
  | published (published : ActorRecord)
  | retired (published retired : ActorRecord)
  deriving DecidableEq

namespace VersionLifecycle

/-- `lifecycle_state`. -/
def state : VersionLifecycle → LifecycleState
  | .draft => .draft
  | .published _ => .published
  | .retired _ _ => .retired

/-- `published_*`. -/
def publication : VersionLifecycle → Option ActorRecord
  | .draft => none
  | .published record => some record
  | .retired record _ => some record

end VersionLifecycle

/-- `COMMERCIAL_CURRENCY` is the only one. -/
inductive CommercialCurrency where
  | irt
  deriving DecidableEq

/-- `PRICE_SCHEDULE_PURPOSES`. -/
inductive PriceSchedulePurpose where
  | sellerPlan
  | bookingCredit
  deriving DecidableEq

/-- A row of `commercial.price_schedules`. -/
structure PriceSchedule where
  scheduleKey : String
  purpose : PriceSchedulePurpose
  deriving DecidableEq

/-- The terms of `commercial.plan_versions`. -/
structure PlanTerms where
  displayName : String
  billingTermDays : Option ℤ
  includedBookingCredits : ℤ
  staffSeats : ℤ
  includedLocations : ℤ
  capabilityKeys : List String
  priceScheduleVersionId : Uuid
  bookingCreditScheduleKey : Option String
  autoAssignable : Bool
  deriving DecidableEq

/-- The terms of `commercial.price_schedule_versions`. -/
structure ScheduleTerms where
  displayName : String
  currencyCode : CommercialCurrency
  minPurchaseQuantity : ℤ
  maxPurchaseQuantity : ℤ
  uiPresetQuantities : List ℤ
  deriving DecidableEq

/-- A row of a version table, `key` being `plan_key` or `schedule_key`. -/
structure CatalogueVersion (τ : Type) where
  id : Uuid
  key : String
  version : ℤ
  lifecycle : VersionLifecycle
  terms : τ
  activation : HalfOpen Instant
  created : ActorRecord
  deriving DecidableEq

/-- A row of `commercial.plan_versions`. -/
abbrev PlanVersion := CatalogueVersion PlanTerms

/-- A row of `commercial.price_schedule_versions`. -/
abbrev ScheduleVersion := CatalogueVersion ScheduleTerms

/-- `PriceTierV1`: one quantity range and its unit price. -/
structure PriceTierV1 where
  minQuantity : ℤ
  maxQuantity : Option ℤ
  unitPriceToman : ℤ
  ordered : ∀ m ∈ maxQuantity, minQuantity ≤ m
  deriving DecidableEq

/-- A row of `commercial.price_tiers`. -/
structure PriceTier extends PriceTierV1 where
  id : Uuid
  scheduleVersionId : Uuid
  created : ActorRecord
  deriving DecidableEq

/-- The quantities that a tier prices. -/
def PriceTierV1.quantityRange (tier : PriceTierV1) : HalfOpen ℤ where
  start := tier.minQuantity
  finish := tier.maxQuantity.map (· + 1)
  start_lt := by
    intro e he
    obtain ⟨m, hm, rfl⟩ := map_eq_some_iff.1 he
    exact Int.lt_add_one_of_le (tier.ordered m hm)

/-! ## Checks -/

/-- `MAX_CATALOGUE_QUANTITY`. -/
def maxCatalogueQuantity : ℤ := 1000000000

/-- `MAX_UNIT_PRICE_TOMAN`. -/
def maxUnitPriceToman : ℤ := 10000000000000

/-- `CAPABILITY_KEY_PATTERN`. -/
def matchesCapabilityKey (key : String) : Bool :=
  match key.toList with
  | [] => false
  | c :: cs => c.isLower && cs.length ≤ 63 && cs.all fun c => c.isLower || c.isDigit || c = '_'

def isValidCapabilityKeySet (keys : List String) : Bool :=
  keys.all matchesCapabilityKey && keys.Nodup

def isValidPresetQuantitySet (quantities : List ℤ) : Bool :=
  quantities.all (fun q => 1 ≤ q && q ≤ maxCatalogueQuantity) && quantities.Nodup

/-- The checks of `commercial.plan_versions` on its terms. -/
def PlanTerms.checks (terms : PlanTerms) : Bool :=
  terms.displayName.length ≤ 120 &&
  terms.billingTermDays.all (fun days => 0 < days && days ≤ 3660) &&
  (0 ≤ terms.includedBookingCredits && terms.includedBookingCredits ≤ maxCatalogueQuantity &&
    0 ≤ terms.staffSeats && terms.staffSeats ≤ 1000000 &&
    0 ≤ terms.includedLocations && terms.includedLocations ≤ 1000000) &&
  isValidCapabilityKeySet terms.capabilityKeys

/-- The checks of `commercial.price_schedule_versions` on its terms. -/
def ScheduleTerms.checks (terms : ScheduleTerms) : Bool :=
  terms.displayName.length ≤ 120 &&
  (1 ≤ terms.minPurchaseQuantity && terms.minPurchaseQuantity ≤ terms.maxPurchaseQuantity &&
    terms.maxPurchaseQuantity ≤ maxCatalogueQuantity) &&
  isValidPresetQuantitySet terms.uiPresetQuantities

/-- The checks of `commercial.price_tiers`. -/
def PriceTierV1.checks (tier : PriceTierV1) : Bool :=
  1 ≤ tier.minQuantity && tier.minQuantity ≤ maxCatalogueQuantity &&
  tier.maxQuantity.all (· ≤ maxCatalogueQuantity) &&
  0 ≤ tier.unitPriceToman && tier.unitPriceToman ≤ maxUnitPriceToman

def maxVersion : ℤ := 2147483647

namespace CatalogueVersion

variable {τ : Type}

/-- `lifecycle_state`. -/
def state (v : CatalogueVersion τ) : LifecycleState := v.lifecycle.state

/-- `ck_*_version`. -/
def checksVersion (v : CatalogueVersion τ) : Bool := 1 ≤ v.version && v.version ≤ maxVersion

/-- The primary key, `uq_*_key_version` and `ex_*_no_overlap`. -/
def Conflicts (x y : CatalogueVersion τ) : Prop :=
  x.id = y.id ∨ (x.key = y.key ∧ x.version = y.version) ∨
    (x.state ≠ .draft ∧ y.state ≠ .draft ∧ x.key = y.key ∧ x.activation.Overlaps y.activation)
  deriving Decidable

/-- Where the version's own terms are binding: from its publication until it is retired, inside
its window. -/
def EffectiveAt (v : CatalogueVersion τ) (t : Instant) : Prop :=
  v.activation.Mem t ∧
    match v.lifecycle with
    | .draft => False
    | .published _ => True
    | .retired _ retired => t < retired.instant

end CatalogueVersion

/-- `ex_plan_versions_single_auto_assignable` on top of the others. -/
def PlanVersion.Clash (x y : PlanVersion) : Prop :=
  x.Conflicts y ∨
    (x.terms.autoAssignable ∧ y.terms.autoAssignable ∧ x.state ≠ .draft ∧ y.state ≠ .draft ∧
      x.activation.Overlaps y.activation)
  deriving Decidable

/-- The primary key and `ex_price_tiers_no_overlap`. -/
def PriceTier.Clash (x y : PriceTier) : Prop :=
  x.id = y.id ∨
    (x.scheduleVersionId = y.scheduleVersionId ∧ x.quantityRange.Overlaps y.quantityRange)
  deriving Decidable

/-- The catalogue's tables. -/
structure Catalogue where
  plans : List String
  priceSchedules : List PriceSchedule
  planVersions : Constrained PlanVersion.Clash
  scheduleVersions : Constrained (CatalogueVersion.Conflicts (τ := ScheduleTerms))
  priceTiers : Constrained PriceTier.Clash

/-! ## The triggers -/

/-- `isPermittedLifecycleTransition`, and the same list in the triggers. -/
def isPermittedLifecycleTransition (before after : LifecycleState) : Bool :=
  match before, after with
  | .draft, .published => true
  | .published, .retired => true
  | _, _ => false

/-- What `enforce_plan_version_lifecycle` and `enforce_schedule_version_lifecycle` ask of every
`UPDATE` of a row: nothing of a retired row, the identity of any row, the transition, and the
terms of a row that is not a draft. -/
def updatePermitted {τ : Type} [DecidableEq τ] (old new : CatalogueVersion τ) : Bool :=
  old.state ≠ .retired &&
  (new.id = old.id && new.key = old.key && new.version = old.version &&
    new.created = old.created) &&
  (new.state = old.state || isPermittedLifecycleTransition old.state new.state) &&
  (old.state = .draft ||
    (new.terms = old.terms && new.activation = old.activation &&
      new.lifecycle.publication = old.lifecycle.publication))

/-- Every tier begins where the one before it ended, `ORDER BY min_quantity`. -/
def contiguous : List PriceTier → Bool
  | previous :: tier :: rest =>
    previous.maxQuantity.any (tier.minQuantity = · + 1) && contiguous (tier :: rest)
  | _ => true

/-- What the publication of a schedule asks of its tiers. -/
def tiersComplete (terms : ScheduleTerms) (tiers : List PriceTier) : Bool :=
  match tiers.insertionSort (·.minQuantity ≤ ·.minQuantity) with
  | [] => false
  | lowest :: rest =>
    contiguous (lowest :: rest) &&
    lowest.minQuantity = terms.minPurchaseQuantity &&
    ((lowest :: rest).getLast (List.cons_ne_nil _ _)).maxQuantity.all
      (terms.maxPurchaseQuantity ≤ ·)

/-- What the publication of an automatically assignable plan asks of the tiers of its price. -/
def freeOfCharge (tiers : List PriceTier) : Bool :=
  tiers.length = 1 && tiers.all (·.unitPriceToman = 0)

namespace Catalogue

/-- The catalogue before its first row. -/
def empty : Catalogue := ⟨[], [], .empty, .empty, .empty⟩

variable (c : Catalogue)

/-- The plan version of an id. -/
def planVersion (id : Uuid) : Option PlanVersion := c.planVersions.rows.find? (·.id = id)

/-- The schedule version of an id. -/
def scheduleVersion (id : Uuid) : Option ScheduleVersion :=
  c.scheduleVersions.rows.find? (·.id = id)

/-- The tier of an id. -/
def priceTier (id : Uuid) : Option PriceTier := c.priceTiers.rows.find? (·.id = id)

/-- The state of the schedule version of an id. -/
def scheduleState (id : Uuid) : Option LifecycleState := (c.scheduleVersion id).map (·.state)

/-- The tiers of a schedule version. -/
def tiersOf (scheduleVersionId : Uuid) : List PriceTier :=
  c.priceTiers.rows.filter (·.scheduleVersionId = scheduleVersionId)

/-- The checks and foreign keys of a row of `commercial.plan_versions`. -/
def planRowAdmitted (row : PlanVersion) : Bool :=
  row.checksVersion && row.terms.checks &&
  row.key ∈ c.plans &&
  (c.scheduleVersion row.terms.priceScheduleVersionId).isSome &&
  row.terms.bookingCreditScheduleKey.all fun key => ⟨key, .bookingCredit⟩ ∈ c.priceSchedules

/-- The checks and foreign keys of a row of `commercial.price_schedule_versions`. -/
def scheduleRowAdmitted (row : ScheduleVersion) : Bool :=
  row.checksVersion && row.terms.checks && c.priceSchedules.any (·.scheduleKey = row.key)

/-- `enforce_price_tier_parent_is_draft` for the new row, and its checks. -/
def tierRowAdmitted (row : PriceTier) : Bool :=
  row.checks && c.scheduleState row.scheduleVersionId = some .draft

/-- The publication preconditions of `enforce_plan_version_lifecycle`. -/
def planPublishable (row : PlanVersion) : Bool :=
  c.scheduleState row.terms.priceScheduleVersionId = some .published &&
  (!row.terms.autoAssignable || freeOfCharge (c.tiersOf row.terms.priceScheduleVersionId))

/-- The publication preconditions of `enforce_schedule_version_lifecycle`. -/
def schedulePublishable (row : ScheduleVersion) : Bool := tiersComplete row.terms (c.tiersOf row.id)

/-! ## Statements -/

end Catalogue

/-- One row written. -/
inductive CatalogueStatement where
  | insertPlan (planKey : String)
  | insertPriceSchedule (row : PriceSchedule)
  | insertPlanVersion (row : PlanVersion)
  | updatePlanVersion (id : Uuid) (row : PlanVersion)
  | deletePlanVersion (id : Uuid)
  | insertScheduleVersion (row : ScheduleVersion)
  | updateScheduleVersion (id : Uuid) (row : ScheduleVersion)
  | deleteScheduleVersion (id : Uuid)
  | insertTier (row : PriceTier)
  | updateTier (id : Uuid) (row : PriceTier)
  | deleteTier (id : Uuid)

namespace Catalogue

variable (c : Catalogue)

/-- `INSERT`, `UPDATE` or `DELETE` of one row; `none` when the database refuses it. -/
def execute : CatalogueStatement → Option Catalogue
  | .insertPlan planKey =>
    if matchesKeyPattern planKey && planKey ∉ c.plans then
      some { c with plans := c.plans ++ [planKey] }
    else none
  | .insertPriceSchedule row =>
    if matchesKeyPattern row.scheduleKey &&
        c.priceSchedules.all (·.scheduleKey ≠ row.scheduleKey) then
      some { c with priceSchedules := c.priceSchedules ++ [row] }
    else none
  | .insertPlanVersion row =>
    if row.state = .draft && c.planRowAdmitted row then
      (c.planVersions.insert row).map fun t => { c with planVersions := t }
    else none
  | .updatePlanVersion id row =>
    match c.planVersion id with
    | none => some c
    | some old =>
      if updatePermitted old row &&
          (!(old.state = .draft && row.state = .published) || c.planPublishable row) &&
          c.planRowAdmitted row then
        (c.planVersions.replace (·.id = id) row).map fun t => { c with planVersions := t }
      else none
  | .deletePlanVersion id =>
    match c.planVersion id with
    | none => some c
    | some old =>
      if old.state = .draft then some { c with planVersions := c.planVersions.delete (·.id = id) }
      else none
  | .insertScheduleVersion row =>
    if row.state = .draft && c.scheduleRowAdmitted row then
      (c.scheduleVersions.insert row).map fun t => { c with scheduleVersions := t }
    else none
  | .updateScheduleVersion id row =>
    match c.scheduleVersion id with
    | none => some c
    | some old =>
      if updatePermitted old row &&
          (!(old.state = .draft && row.state = .published) || c.schedulePublishable row) &&
          c.scheduleRowAdmitted row then
        (c.scheduleVersions.replace (·.id = id) row).map fun t => { c with scheduleVersions := t }
      else none
  | .deleteScheduleVersion id =>
    match c.scheduleVersion id with
    | none => some c
    | some old =>
      -- the foreign key of a plan version refuses, and the tiers go with the row
      if old.state = .draft && c.planVersions.rows.all (·.terms.priceScheduleVersionId ≠ id) then
        some { c with
          scheduleVersions := c.scheduleVersions.delete (·.id = id)
          priceTiers := c.priceTiers.delete (·.scheduleVersionId = id) }
      else none
  | .insertTier row =>
    if c.tierRowAdmitted row then
      (c.priceTiers.insert row).map fun t => { c with priceTiers := t }
    else none
  | .updateTier id row =>
    match c.priceTier id with
    | none => some c
    | some _ =>
      -- the trigger looks at the new row only
      if c.tierRowAdmitted row then
        (c.priceTiers.replace (·.id = id) row).map fun t => { c with priceTiers := t }
      else none
  | .deleteTier id =>
    match c.priceTier id with
    | none => some c
    | some old =>
      if (c.scheduleState old.scheduleVersionId).all (· = .draft) then
        some { c with priceTiers := c.priceTiers.delete (·.id = id) }
      else none

/-- What a row written can do to the catalogue, and what it needs. -/
inductive Written (c : Catalogue) : CatalogueStatement → Catalogue → Prop
  | nothing (s : CatalogueStatement) : Written c s c
  | plan (planKey : String) :
    Written c (.insertPlan planKey) { c with plans := c.plans ++ [planKey] }
  | priceSchedule (row : PriceSchedule) :
    Written c (.insertPriceSchedule row) { c with priceSchedules := c.priceSchedules ++ [row] }
  | planVersionInserted (row : PlanVersion) (t : Constrained PlanVersion.Clash)
      (draft : row.state = .draft) (admitted : c.planRowAdmitted row)
      (inserted : c.planVersions.insert row = some t) :
    Written c (.insertPlanVersion row) { c with planVersions := t }
  | planVersionUpdated (id : Uuid) (old row : PlanVersion) (t : Constrained PlanVersion.Clash)
      (found : c.planVersion id = some old) (permitted : updatePermitted old row)
      (publishable : old.state = .draft → row.state = .published → c.planPublishable row)
      (admitted : c.planRowAdmitted row)
      (replaced : c.planVersions.replace (·.id = id) row = some t) :
    Written c (.updatePlanVersion id row) { c with planVersions := t }
  | planVersionDeleted (id : Uuid) (old : PlanVersion) (found : c.planVersion id = some old)
      (draft : old.state = .draft) :
    Written c (.deletePlanVersion id) { c with planVersions := c.planVersions.delete (·.id = id) }
  | scheduleVersionInserted (row : ScheduleVersion) (t : Constrained CatalogueVersion.Conflicts)
      (admitted : c.scheduleRowAdmitted row) (inserted : c.scheduleVersions.insert row = some t) :
    Written c (.insertScheduleVersion row) { c with scheduleVersions := t }
  | scheduleVersionUpdated (id : Uuid) (old row : ScheduleVersion)
      (t : Constrained CatalogueVersion.Conflicts)
      (found : c.scheduleVersion id = some old) (permitted : updatePermitted old row)
      (admitted : c.scheduleRowAdmitted row)
      (replaced : c.scheduleVersions.replace (·.id = id) row = some t) :
    Written c (.updateScheduleVersion id row) { c with scheduleVersions := t }
  | scheduleVersionDeleted (id : Uuid) (old : ScheduleVersion)
      (found : c.scheduleVersion id = some old) (draft : old.state = .draft) :
    Written c (.deleteScheduleVersion id)
      { c with
        scheduleVersions := c.scheduleVersions.delete (·.id = id)
        priceTiers := c.priceTiers.delete (·.scheduleVersionId = id) }
  | tierInserted (row : PriceTier) (t : Constrained PriceTier.Clash)
      (admitted : c.tierRowAdmitted row) (inserted : c.priceTiers.insert row = some t) :
    Written c (.insertTier row) { c with priceTiers := t }
  | tierUpdated (id : Uuid) (row : PriceTier) (t : Constrained PriceTier.Clash)
      (admitted : c.tierRowAdmitted row)
      (replaced : c.priceTiers.replace (·.id = id) row = some t) :
    Written c (.updateTier id row) { c with priceTiers := t }
  | tierDeleted (id : Uuid) (old : PriceTier) (found : c.priceTier id = some old)
      (draft : (c.scheduleState old.scheduleVersionId).all (· = .draft)) :
    Written c (.deleteTier id) { c with priceTiers := c.priceTiers.delete (·.id = id) }

theorem written_of_execute {c c' : Catalogue} {s : CatalogueStatement}
    (h : c.execute s = some c') : c.Written s c' := by
  cases s with
  | insertPlan planKey =>
    simp only [execute, ite_none_right_eq_some, some.injEq] at h
    exact h.2 ▸ .plan planKey
  | insertPriceSchedule row =>
    simp only [execute, ite_none_right_eq_some, some.injEq] at h
    exact h.2 ▸ .priceSchedule row
  | insertPlanVersion row =>
    simp only [execute, ite_none_right_eq_some, map_eq_some_iff, Bool.and_eq_true,
      decide_eq_true_eq] at h
    obtain ⟨⟨hdraft, hadm⟩, t, ht, rfl⟩ := h
    exact .planVersionInserted row t hdraft hadm ht
  | updatePlanVersion id row =>
    cases hold : c.planVersion id with
    | none =>
      simp only [execute, hold, some.injEq] at h
      exact h ▸ .nothing _
    | some old =>
      simp only [execute, hold, ite_none_right_eq_some, map_eq_some_iff,
        Bool.and_eq_true] at h
      obtain ⟨⟨⟨hperm, hpub⟩, hadm⟩, t, ht, rfl⟩ := h
      refine .planVersionUpdated id old row t hold hperm ?_ hadm ht
      intro hdraft hpublished
      simpa [hdraft, hpublished] using hpub
  | deletePlanVersion id =>
    cases hold : c.planVersion id with
    | none =>
      simp only [execute, hold, some.injEq] at h
      exact h ▸ .nothing _
    | some old =>
      simp only [execute, hold, ite_none_right_eq_some, some.injEq] at h
      exact h.2 ▸ .planVersionDeleted id old hold h.1
  | insertScheduleVersion row =>
    simp only [execute, ite_none_right_eq_some, map_eq_some_iff,
      Bool.and_eq_true] at h
    obtain ⟨⟨-, hadm⟩, t, ht, rfl⟩ := h
    exact .scheduleVersionInserted row t hadm ht
  | updateScheduleVersion id row =>
    cases hold : c.scheduleVersion id with
    | none =>
      simp only [execute, hold, some.injEq] at h
      exact h ▸ .nothing _
    | some old =>
      simp only [execute, hold, ite_none_right_eq_some, map_eq_some_iff,
        Bool.and_eq_true] at h
      obtain ⟨⟨⟨hperm, -⟩, hadm⟩, t, ht, rfl⟩ := h
      exact .scheduleVersionUpdated id old row t hold hperm hadm ht
  | deleteScheduleVersion id =>
    cases hold : c.scheduleVersion id with
    | none =>
      simp only [execute, hold, some.injEq] at h
      exact h ▸ .nothing _
    | some old =>
      simp only [execute, hold, ite_none_right_eq_some, some.injEq,
        Bool.and_eq_true, decide_eq_true_eq] at h
      exact h.2 ▸ .scheduleVersionDeleted id old hold h.1.1
  | insertTier row =>
    simp only [execute, ite_none_right_eq_some, map_eq_some_iff] at h
    obtain ⟨hadm, t, ht, rfl⟩ := h
    exact .tierInserted row t hadm ht
  | updateTier id row =>
    cases hold : c.priceTier id with
    | none =>
      simp only [execute, hold, some.injEq] at h
      exact h ▸ .nothing _
    | some =>
      simp only [execute, hold, ite_none_right_eq_some, map_eq_some_iff] at h
      obtain ⟨hadm, t, ht, rfl⟩ := h
      exact .tierUpdated id row t hadm ht
  | deleteTier id =>
    cases hold : c.priceTier id with
    | none =>
      simp only [execute, hold, some.injEq] at h
      exact h ▸ .nothing _
    | some old =>
      simp only [execute, hold, ite_none_right_eq_some, some.injEq] at h
      exact h.2 ▸ .tierDeleted id old hold h.1

end Catalogue

/-! ## The service -/

/-- A call of `CommercialCatalogueService` that writes, at `now` and with the ids it generates. -/
inductive CatalogueOperation where
  | createPlan (planKey : String)
  | createPriceSchedule (scheduleKey : String) (purpose : PriceSchedulePurpose)
  | createScheduleVersionDraft (id : Uuid) (scheduleKey : String) (terms : ScheduleTerms)
      (activation : HalfOpen Instant) (tiers : List (Uuid × PriceTierV1))
  | updateScheduleVersionDraft (scheduleKey : String) (version : ℤ) (terms : ScheduleTerms)
      (activation : HalfOpen Instant) (tiers : List (Uuid × PriceTierV1))
  | publishScheduleVersion (scheduleKey : String) (version : ℤ)
  | retireScheduleVersion (scheduleKey : String) (version : ℤ)
  | discardScheduleVersionDraft (scheduleKey : String) (version : ℤ)
  | createPlanVersionDraft (id : Uuid) (planKey : String) (terms : PlanTerms)
      (activation : HalfOpen Instant)
  | updatePlanVersionDraft (planKey : String) (version : ℤ) (terms : PlanTerms)
      (activation : HalfOpen Instant)
  | publishPlanVersion (planKey : String) (version : ℤ)
  | retirePlanVersion (planKey : String) (version : ℤ)
  | discardPlanVersionDraft (planKey : String) (version : ℤ)

section Helpers

variable {τ : Type}

/-- `findOne({ where: { key, version } })`. -/
def findVersion (rows : List (CatalogueVersion τ)) (key : String) (version : ℤ) :
    Option (CatalogueVersion τ) :=
  rows.find? fun v => v.key = key && v.version = version

/-- The number `insertWithAllocatedVersion` draws. -/
def nextVersion (rows : List (CatalogueVersion τ)) (key : String) : ℤ :=
  ((rows.filter (·.key = key)).map (·.version)).foldl max 0 + 1

def requireDraft (v : CatalogueVersion τ) : Option (CatalogueVersion τ) :=
  if v.state = .draft then some v else none

/-- The row `transitionPlanVersion` and `transitionScheduleVersion` write for `published`; the
compare-and-swap matches a draft only. -/
def publishedRow (record : ActorRecord) (v : CatalogueVersion τ) : Option (CatalogueVersion τ) :=
  match v.lifecycle with
  | .draft => some { v with lifecycle := .published record }
  | _ => none

/-- The row they write for `retired`. -/
def retiredRow (record : ActorRecord) (v : CatalogueVersion τ) : Option (CatalogueVersion τ) :=
  match v.lifecycle with
  | .published published => some { v with lifecycle := .retired published record }
  | _ => none

end Helpers

namespace Catalogue

variable (c : Catalogue)

/-- The old tiers go and the new ones come. -/
def replaceTiers (record : ActorRecord) (scheduleVersionId : Uuid)
    (tiers : List (Uuid × PriceTierV1)) : List CatalogueStatement :=
  (c.tiersOf scheduleVersionId).map (fun tier => .deleteTier tier.id) ++
    tiers.map fun tier =>
      .insertTier
        { toPriceTierV1 := tier.2, id := tier.1, scheduleVersionId := scheduleVersionId,
          created := record }

/-- The rows that an operation writes in its transaction; `none` when it throws before. -/
def writes (record : ActorRecord) : CatalogueOperation → Option (List CatalogueStatement)
  | .createPlan planKey => some [.insertPlan planKey]
  | .createPriceSchedule scheduleKey purpose => some [.insertPriceSchedule ⟨scheduleKey, purpose⟩]
  | .createScheduleVersionDraft id scheduleKey terms activation tiers =>
    if c.priceSchedules.any (·.scheduleKey = scheduleKey) then
      some (.insertScheduleVersion
        { id := id, key := scheduleKey, version := nextVersion c.scheduleVersions.rows scheduleKey,
          lifecycle := .draft, terms := terms, activation := activation, created := record } ::
        c.replaceTiers record id tiers)
    else none
  | .updateScheduleVersionDraft scheduleKey version terms activation tiers =>
    ((findVersion c.scheduleVersions.rows scheduleKey version).bind requireDraft).map
      fun existing =>
        .updateScheduleVersion existing.id
          { existing with terms := terms, activation := activation } ::
        c.replaceTiers record existing.id tiers
  | .publishScheduleVersion scheduleKey version =>
    ((findVersion c.scheduleVersions.rows scheduleKey version).bind (publishedRow record)).map
      fun row => [.updateScheduleVersion row.id row]
  | .retireScheduleVersion scheduleKey version =>
    ((findVersion c.scheduleVersions.rows scheduleKey version).bind (retiredRow record)).map
      fun row => [.updateScheduleVersion row.id row]
  | .discardScheduleVersionDraft scheduleKey version =>
    ((findVersion c.scheduleVersions.rows scheduleKey version).bind requireDraft).map
      fun existing => [.deleteScheduleVersion existing.id]
  | .createPlanVersionDraft id planKey terms activation =>
    if planKey ∈ c.plans && (c.scheduleVersion terms.priceScheduleVersionId).isSome then
      some [.insertPlanVersion
        { id := id, key := planKey, version := nextVersion c.planVersions.rows planKey,
          lifecycle := .draft, terms := terms, activation := activation, created := record }]
    else none
  | .updatePlanVersionDraft planKey version terms activation =>
    if (c.scheduleVersion terms.priceScheduleVersionId).isSome then
      ((findVersion c.planVersions.rows planKey version).bind requireDraft).map fun existing =>
        [.updatePlanVersion existing.id { existing with terms := terms, activation := activation }]
    else none
  | .publishPlanVersion planKey version =>
    ((findVersion c.planVersions.rows planKey version).bind (publishedRow record)).map
      fun row => [.updatePlanVersion row.id row]
  | .retirePlanVersion planKey version =>
    ((findVersion c.planVersions.rows planKey version).bind (retiredRow record)).map
      fun row => [.updatePlanVersion row.id row]
  | .discardPlanVersionDraft planKey version =>
    ((findVersion c.planVersions.rows planKey version).bind requireDraft).map
      fun existing => [.deletePlanVersion existing.id]

end Catalogue

/-- What happens to a catalogue. -/
inductive CatalogueEvent where
  | statement (statement : CatalogueStatement)
  | operation (actorUserId : Uuid) (now : Instant) (operation : CatalogueOperation)

namespace Catalogue

/-- The catalogue that an event leads to, or `none` when it is refused. -/
def attempt (c : Catalogue) : CatalogueEvent → Option Catalogue
  | .statement statement => c.execute statement
  | .operation actorUserId now operation =>
    (c.writes ⟨now, .user actorUserId⟩ operation).bind (runFrom execute c)

/-- A refused event leaves the catalogue as it is. -/
def step (c : Catalogue) (e : CatalogueEvent) : Option Catalogue := some ((c.attempt e).getD c)

end Catalogue

end BeauClick.CommercialPolicy
