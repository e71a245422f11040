import BeauClick.CommercialPolicy.CatalogueTerms

/-!
# What a retired version still occupies

A version is resolved until it is retired, but the exclusion constraints look at the window it was
published with, which retirement does not close.
-/

namespace BeauClick.CommercialPolicy

open Runs Constrained Option

section Future

variable {τ : Type} {v w : CatalogueVersion τ} {t : Instant}

/-- The version is not effective at `t` or later. -/
def CatalogueVersion.OverFrom (v : CatalogueVersion τ) (t : Instant) : Prop :=
  ∀ t', t ≤ t' → ¬v.EffectiveAt t'

/-- The version ends by `t`, or has been retired with effect by then. -/
def CatalogueVersion.ended (v : CatalogueVersion τ) (t : Instant) : Bool :=
  match v.lifecycle with
  | .draft => true
  | .published _ => v.activation.finish.any (· ≤ t)
  | .retired _ retired => v.activation.finish.any (· ≤ t) || retired.instant ≤ t

theorem CatalogueVersion.overFrom_of_ended (h : v.ended t) : v.OverFrom t := by
  intro t' ht heffective
  obtain ⟨hmem, hlifecycle⟩ := heffective
  have hended : v.activation.finish.any (· ≤ t) → False := by
    intro hany
    cases hfinish : v.activation.finish with
    | none =>
      rw [hfinish] at hany
      cases hany
    | some e =>
      rw [hfinish] at hany
      have hle : e ≤ t := of_decide_eq_true hany
      exact absurd (hmem.2 e hfinish) (not_lt.2 (hle.trans ht))
  unfold ended at h
  cases hstate : v.lifecycle with
  | draft =>
    rw [hstate] at hlifecycle
    exact hlifecycle
  | published =>
    rw [hstate] at h
    exact hended h
  | retired =>
    rw [hstate] at h hlifecycle
    rcases Bool.or_eq_true_iff.1 h with hany | hret
    · exact hended hany
    · exact absurd hlifecycle (not_lt.2 ((of_decide_eq_true hret).trans ht))

theorem not_overlaps_of_overFrom {record : ActorRecord} (hv : v.lifecycle = .published record)
    (hover : v.OverFrom t) (ht : t ≤ w.activation.start) : ¬v.activation.Overlaps w.activation := by
  intro hoverlap
  obtain ⟨t', hle, hmem⟩ := hoverlap.exists_mem_from ht
  refine hover t' hle ⟨hmem, ?_⟩
  rw [hv]
  trivial

end Future

/-! ## A version published in its table -/

section Publication

variable {τ : Type} {R : CatalogueVersion τ → CatalogueVersion τ → Prop} [DecidableRel R]
  (Slot : τ → τ → Prop) {t : Constrained R} {v : CatalogueVersion τ}

theorem replace_published_isSome (hsymm : ∀ x y, R x y → R y x)
    (hR : ∀ x y, R x y ↔ x.Conflicts y ∨ (Slot x.terms y.terms ∧ x.state ≠ .draft ∧
      y.state ≠ .draft ∧ x.activation.Overlaps y.activation))
    (hv : v ∈ t.rows) (hdraft : v.lifecycle = .draft) (record : ActorRecord) :
    (t.replace (·.id = v.id) { v with lifecycle := .published record }).isSome ↔
      ∀ y ∈ t.rows, y.state ≠ .draft → y.key = v.key ∨ Slot y.terms v.terms →
        ¬y.activation.Overlaps v.activation := by
  rw [replace_isSome]
  constructor
  · intro h y hy hstate hslot hover
    have hne : y.id ≠ v.id := by
      intro hid
      have hyv : y = v := t.eq_of_conflict hsymm hy hv ((hR y v).2 (Or.inl (Or.inl hid)))
      subst hyv
      exact hstate (congrArg VersionLifecycle.state hdraft)
    refine h y hy (by simpa using hne) ((hR y _).2 ?_)
    rcases hslot with hkey | hslot
    · exact Or.inl (Or.inr (Or.inr ⟨hstate, LifecycleState.noConfusion, hkey, hover⟩))
    · exact Or.inr ⟨hslot, hstate, LifecycleState.noConfusion, hover⟩
  · intro h y hy hid hconfl
    rcases (hR y _).1 hconfl with (hsame | ⟨hkey, hver⟩ | ⟨hstate, -, hkey, hover⟩) |
      ⟨hslot, hstate, -, hover⟩
    · exact hid (by simpa using hsame)
    · have hyv : y = v :=
        t.eq_of_conflict hsymm hy hv ((hR y v).2 (Or.inl (Or.inr (Or.inl ⟨hkey, hver⟩))))
      exact hid (by simp [hyv])
    · exact h y hy hstate (Or.inl hkey) hover
    · exact h y hy hstate (Or.inr hslot) hover

theorem published_isSome_iff (hsymm : ∀ x y, R x y → R y x)
    (hR : ∀ x y, R x y ↔ x.Conflicts y ∨ (Slot x.terms y.terms ∧ x.state ≠ .draft ∧
      y.state ≠ .draft ∧ x.activation.Overlaps y.activation))
    (hv : v ∈ t.rows) (hdraft : v.lifecycle = .draft) {from' : Instant}
    (hstart : from' ≤ v.activation.start)
    (hover : ∀ y ∈ t.rows, y.key = v.key ∨ Slot y.terms v.terms → y.OverFrom from')
    (record : ActorRecord) :
    (t.replace (·.id = v.id) { v with lifecycle := .published record }).isSome ↔
      ∀ y ∈ t.rows, y.state = .retired → y.key = v.key ∨ Slot y.terms v.terms →
        ¬y.activation.Overlaps v.activation := by
  rw [replace_published_isSome Slot hsymm hR hv hdraft]
  constructor
  · intro h y hy hret
    exact h y hy (by rw [hret]; exact LifecycleState.noConfusion)
  · intro h y hy hstate hslot
    cases hlifecycle : y.lifecycle with
    | draft => exact absurd (congrArg VersionLifecycle.state hlifecycle) hstate
    | published => exact not_overlaps_of_overFrom hlifecycle (hover y hy hslot) hstart
    | retired =>
      exact h y hy (congrArg VersionLifecycle.state hlifecycle) hslot

end Publication

namespace Catalogue

variable {c c' : Catalogue} {v : PlanVersion} {w : ScheduleVersion} {t : Instant}

/-! ## The rows of a reachable catalogue -/

/-- The checks of a plan version and its references, but for the price it has. -/
def PlanRowSound (c : Catalogue) (v : PlanVersion) : Prop :=
  v.checksVersion ∧ v.terms.checks ∧ v.key ∈ c.plans ∧
    v.terms.bookingCreditScheduleKey.all fun key => ⟨key, .bookingCredit⟩ ∈ c.priceSchedules

/-- The rows of the version tables meet their checks. -/
structure RowsSound (c : Catalogue) : Prop where
  plan : ∀ v ∈ c.planVersions.rows, c.PlanRowSound v
  schedule : ∀ w ∈ c.scheduleVersions.rows, c.scheduleRowAdmitted w

theorem rowsSound_empty : RowsSound empty where
  plan v hv := by cases hv
  schedule w hw := by cases hw

theorem planRowAdmitted_iff : c.planRowAdmitted v ↔
    c.PlanRowSound v ∧ (c.scheduleVersion v.terms.priceScheduleVersionId).isSome := by
  simp only [planRowAdmitted, PlanRowSound, Bool.and_eq_true, decide_eq_true_eq]
  tauto

theorem PlanRowSound.mono (h : c.PlanRowSound v) (hplans : ∀ k ∈ c.plans, k ∈ c'.plans)
    (hschedules : ∀ p ∈ c.priceSchedules, p ∈ c'.priceSchedules) : c'.PlanRowSound v := by
  obtain ⟨hver, hterms, hkey, hcredits⟩ := h
  refine ⟨hver, hterms, hplans _ hkey, ?_⟩
  cases hbinding : v.terms.bookingCreditScheduleKey with
  | none => rfl
  | some =>
    rw [hbinding] at hcredits
    simpa using hschedules _ (by simpa using hcredits)

theorem scheduleRowAdmitted_mono (h : c.scheduleRowAdmitted w)
    (hschedules : ∀ p ∈ c.priceSchedules, p ∈ c'.priceSchedules) : c'.scheduleRowAdmitted w := by
  simp only [scheduleRowAdmitted, Bool.and_eq_true, List.any_eq_true, decide_eq_true_eq] at h ⊢
  obtain ⟨hchecks, p, hp, hkey⟩ := h
  exact ⟨hchecks, p, hschedules p hp, hkey⟩

theorem RowsSound.execute {s : CatalogueStatement} (hc : RowsSound c) (h : c.execute s = some c') :
    RowsSound c' := by
  cases written_of_execute h with
  | nothing => exact hc
  | plan =>
    refine ⟨fun v hv => (hc.plan v hv).mono ?_ fun _ hp => hp, hc.schedule⟩
    exact fun k hk => List.mem_append_left _ hk
  | priceSchedule row =>
    have hgrows : ∀ p ∈ c.priceSchedules, p ∈ c.priceSchedules ++ [row] :=
      fun p hp => List.mem_append_left _ hp
    exact ⟨fun v hv => (hc.plan v hv).mono (fun _ hk => hk) hgrows,
      fun w hw => scheduleRowAdmitted_mono (hc.schedule w hw) hgrows⟩
  | planVersionInserted row t hdraft hadm ht =>
    refine ⟨fun v hv => ?_, hc.schedule⟩
    rcases (mem_of_insert ht).1 hv with hv | rfl
    · exact hc.plan v hv
    · exact (planRowAdmitted_iff.1 hadm).1
  | planVersionUpdated id old row t hold hperm hpub hadm ht =>
    refine ⟨fun v hv => ?_, hc.schedule⟩
    rcases (mem_of_replace ht).1 hv with ⟨hv, -⟩ | rfl
    · exact hc.plan v hv
    · exact (planRowAdmitted_iff.1 hadm).1
  | planVersionDeleted =>
    exact ⟨fun v hv => hc.plan v (mem_delete.1 hv).1, hc.schedule⟩
  | scheduleVersionInserted row t hadm ht =>
    refine ⟨hc.plan, fun w hw => ?_⟩
    rcases (mem_of_insert ht).1 hw with hw | rfl
    · exact hc.schedule w hw
    · exact hadm
  | scheduleVersionUpdated id old row t hold hperm hadm ht =>
    refine ⟨hc.plan, fun w hw => ?_⟩
    rcases (mem_of_replace ht).1 hw with ⟨hw, -⟩ | rfl
    · exact hc.schedule w hw
    · exact hadm
  | scheduleVersionDeleted =>
    exact ⟨hc.plan, fun w hw => hc.schedule w (mem_delete.1 hw).1⟩
  | tierInserted | tierUpdated | tierDeleted => exact ⟨hc.plan, hc.schedule⟩

theorem RowsSound.step {e : CatalogueEvent} (hc : RowsSound c) (h : c.step e = some c') :
    RowsSound c' := by
  cases hatt : c.attempt e with
  | none =>
    simp only [Catalogue.step, hatt, getD_none, some.injEq] at h
    exact h ▸ hc
  | some =>
    simp only [Catalogue.step, hatt, getD_some, some.injEq] at h
    subst h
    cases e with
    | statement => exact hc.execute hatt
    | operation =>
      obtain ⟨_, -, hrun⟩ := bind_eq_some_iff.1 hatt
      exact runFrom_invariant (fun _ _ _ hs hs' => hs.execute hs') hc hrun

/-! ## Publication -/

theorem findVersion_of_mem {τ : Type} {R : CatalogueVersion τ → CatalogueVersion τ → Prop}
    {rows : Constrained R} {v : CatalogueVersion τ} (hsymm : ∀ x y, R x y → R y x)
    (hconfl : ∀ x y, x.Conflicts y → R x y) (hv : v ∈ rows.rows) :
    findVersion rows.rows v.key v.version = some v := by
  refine rows.find_eq_of_mem hsymm hv (by simp) ?_
  intro y hy
  refine hconfl y v (Or.inr (Or.inl ?_))
  simpa using hy

theorem find_of_mem {τ : Type} {R : CatalogueVersion τ → CatalogueVersion τ → Prop}
    {rows : Constrained R} {v : CatalogueVersion τ} (hsymm : ∀ x y, R x y → R y x)
    (hconfl : ∀ x y, x.Conflicts y → R x y) (hv : v ∈ rows.rows) :
    rows.rows.find? (·.id = v.id) = some v := by
  refine rows.find_eq_of_mem hsymm hv (by simp) ?_
  intro y hy
  exact hconfl y v (Or.inl (by simpa using hy))

theorem updatePermitted_published {τ : Type} [DecidableEq τ] {v : CatalogueVersion τ}
    (hdraft : v.lifecycle = .draft) (record : ActorRecord) :
    updatePermitted v { v with lifecycle := .published record } := by
  simp [updatePermitted, CatalogueVersion.state, hdraft, VersionLifecycle.state,
    isPermittedLifecycleTransition]

theorem publishPlan_isSome (hc : RowsSound c) (hv : v ∈ c.planVersions.rows)
    (hdraft : v.lifecycle = .draft) (hpub : c.planPublishable v) (actorUserId : Uuid)
    (now : Instant) :
    (c.attempt (.operation actorUserId now (.publishPlanVersion v.key v.version))).isSome ↔
      (c.planVersions.replace (·.id = v.id)
        { v with lifecycle := .published ⟨now, .user actorUserId⟩ }).isSome := by
  have hfind := findVersion_of_mem PlanVersion.Clash.symm (fun _ _ => Or.inl) hv
  have hold : c.planVersion v.id = some v :=
    find_of_mem PlanVersion.Clash.symm (fun _ _ => Or.inl) hv
  have hprice : (c.scheduleVersion v.terms.priceScheduleVersionId).isSome := by
    simp only [planPublishable, Bool.and_eq_true, decide_eq_true_eq] at hpub
    obtain ⟨_, hprice, -⟩ := map_eq_some_iff.1 hpub.1
    exact isSome_of_eq_some hprice
  have hadm : c.planRowAdmitted
      { v with lifecycle := .published ⟨now, .user actorUserId⟩ } :=
    planRowAdmitted_iff.2 ⟨hc.plan v hv, hprice⟩
  have hpub' : c.planPublishable
      { v with lifecycle := .published ⟨now, .user actorUserId⟩ } := hpub
  simp [attempt, writes, hfind, publishedRow, hdraft, runFrom_cons, execute, hold, hadm,
    hpub', updatePermitted_published hdraft]

theorem publishSchedule_isSome (hc : RowsSound c) (hw : w ∈ c.scheduleVersions.rows)
    (hdraft : w.lifecycle = .draft) (hpub : c.schedulePublishable w) (actorUserId : Uuid)
    (now : Instant) :
    (c.attempt (.operation actorUserId now (.publishScheduleVersion w.key w.version))).isSome ↔
      (c.scheduleVersions.replace (·.id = w.id)
        { w with lifecycle := .published ⟨now, .user actorUserId⟩ }).isSome := by
  have hfind := findVersion_of_mem conflicts_symm (fun _ _ h => h) hw
  have hold : c.scheduleVersion w.id = some w := find_of_mem conflicts_symm (fun _ _ h => h) hw
  have hadm : c.scheduleRowAdmitted
      { w with lifecycle := .published ⟨now, .user actorUserId⟩ } := hc.schedule w hw
  have hpub' : c.schedulePublishable
      { w with lifecycle := .published ⟨now, .user actorUserId⟩ } := hpub
  simp [attempt, writes, hfind, publishedRow, hdraft, runFrom_cons, execute, hold, hadm,
    hpub', updatePermitted_published hdraft]

/-! ## A key nothing is effective under any more -/

/-- A draft that may be published as far as its price goes, from `t` or later on, when nothing is
effective any more that it would replace. -/
structure PlanDueFrom (c : Catalogue) (t : Instant) (v : PlanVersion) : Prop where
  mem : v ∈ c.planVersions.rows
  draft : v.lifecycle = .draft
  publishable : c.planPublishable v
  start : t ≤ v.activation.start
  ended : ∀ y ∈ c.planVersions.rows,
    y.key = v.key ∨ (y.terms.autoAssignable ∧ v.terms.autoAssignable) → y.OverFrom t

/-- The same of a price schedule. -/
structure ScheduleDueFrom (c : Catalogue) (t : Instant) (w : ScheduleVersion) : Prop where
  mem : w ∈ c.scheduleVersions.rows
  draft : w.lifecycle = .draft
  publishable : c.schedulePublishable w
  start : t ≤ w.activation.start
  ended : ∀ y ∈ c.scheduleVersions.rows, y.key = w.key → y.OverFrom t

/-- A retired version of the plan's key, or of the automatically assignable plan, has a configured
window that overlaps the draft's. -/
def PlanHeld (c : Catalogue) (v : PlanVersion) : Prop :=
  ∃ y ∈ c.planVersions.rows, y.state = .retired ∧
    (y.key = v.key ∨ (y.terms.autoAssignable ∧ v.terms.autoAssignable)) ∧
    y.activation.Overlaps v.activation

/-- A retired version of the schedule's key has. -/
def ScheduleHeld (c : Catalogue) (w : ScheduleVersion) : Prop :=
  ∃ y ∈ c.scheduleVersions.rows, y.state = .retired ∧ y.key = w.key ∧
    y.activation.Overlaps w.activation

theorem clash_iff (x y : PlanVersion) : PlanVersion.Clash x y ↔ x.Conflicts y ∨
    ((x.terms.autoAssignable ∧ y.terms.autoAssignable) ∧ x.state ≠ .draft ∧ y.state ≠ .draft ∧
      x.activation.Overlaps y.activation) := by
  rw [PlanVersion.Clash, and_assoc]

theorem conflicts_iff (x y : ScheduleVersion) : x.Conflicts y ↔ x.Conflicts y ∨
    (False ∧ x.state ≠ .draft ∧ y.state ≠ .draft ∧ x.activation.Overlaps y.activation) := by
  rw [false_and, or_false]

theorem publishPlan_iff (hc : RowsSound c) (hv : c.PlanDueFrom t v) (actorUserId : Uuid)
    (now : Instant) :
    (c.attempt (.operation actorUserId now (.publishPlanVersion v.key v.version))).isSome ↔
      ¬c.PlanHeld v := by
  rw [publishPlan_isSome hc hv.mem hv.draft hv.publishable,
    published_isSome_iff (fun y v => y.autoAssignable ∧ v.autoAssignable) PlanVersion.Clash.symm
      clash_iff hv.mem hv.draft hv.start hv.ended]
  simp only [PlanHeld, not_exists, not_and]

theorem publishSchedule_iff (hc : RowsSound c) (hw : c.ScheduleDueFrom t w) (actorUserId : Uuid)
    (now : Instant) :
    (c.attempt (.operation actorUserId now (.publishScheduleVersion w.key w.version))).isSome ↔
      ¬c.ScheduleHeld w := by
  have hover : ∀ y ∈ c.scheduleVersions.rows, y.key = w.key ∨ False → y.OverFrom t :=
    fun y hy hkey => hw.ended y hy (hkey.resolve_right not_false)
  rw [publishSchedule_isSome hc hw.mem hw.draft hw.publishable,
    published_isSome_iff (fun _ _ => False) conflicts_symm conflicts_iff hw.mem hw.draft hw.start
      hover]
  simp only [ScheduleHeld, not_exists, not_and, or_false]

/-- After every run, a draft of a key nothing is effective under from `t` on, whose window starts
at `t` or later, may be published exactly when no retired version has a configured window in its
way. -/
theorem retirement_frees {events : List CatalogueEvent} (hrun : runFrom step empty events = some c)
    (actorUserId : Uuid) (now t : Instant) :
    (∀ v, c.PlanDueFrom t v →
      ((c.attempt (.operation actorUserId now (.publishPlanVersion v.key v.version))).isSome ↔
        ¬c.PlanHeld v)) ∧
    (∀ w, c.ScheduleDueFrom t w →
      ((c.attempt (.operation actorUserId now (.publishScheduleVersion w.key w.version))).isSome ↔
        ¬c.ScheduleHeld w)) := by
  have hc : RowsSound c := runFrom_invariant (fun _ _ _ hs hs' => hs.step hs') rowsSound_empty hrun
  exact ⟨fun v hv => publishPlan_iff hc hv actorUserId now,
    fun w hw => publishSchedule_iff hc hw actorUserId now⟩

/-! ## The next version of a retired plan -/

/-- The base workspace, which confers nothing. -/
def baseTerms : PlanTerms := ⟨"D-7", none, 0, 0, 0, [], 100, none, true⟩

/-- From the start of the epoch. -/
def openEnded : HalfOpen Instant := ⟨0, none, by simp⟩

/-- Up to when the next version starts. -/
def untilNext : HalfOpen Instant := ⟨0, some 50, by simp⟩

/-- The window of the next version. -/
def fromNext : HalfOpen Instant := ⟨50, none, by simp⟩

/-- The base workspace is published for a window and retired, and its next version is drafted. -/
def retiredAndDrafted (activation : HalfOpen Instant) : List CatalogueEvent :=
  [ .operation 1 10 (.createPriceSchedule "base" .sellerPlan),
    .operation 1 11
      (.createScheduleVersionDraft 100 "base" basePriceTerms openEnded [(7, zeroTier)]),
    .operation 1 12 (.publishScheduleVersion "base" 1),
    .operation 1 13 (.createPlan "D-7"),
    .operation 1 14 (.createPlanVersionDraft 200 "D-7" baseTerms activation),
    .operation 1 15 (.publishPlanVersion "D-7" 1),
    .operation 1 40 (.retirePlanVersion "D-7" 1),
    .operation 1 41 (.createPlanVersionDraft 201 "D-7" baseTerms fromNext) ]

/-- The first version, retired. -/
def retiredBase (activation : HalfOpen Instant) : PlanVersion :=
  ⟨200, "D-7", 1, .retired ⟨15, .user 1⟩ ⟨40, .user 1⟩, baseTerms, activation, ⟨14, .user 1⟩⟩

/-- The next one. -/
def nextBase : PlanVersion := ⟨201, "D-7", 2, .draft, baseTerms, fromNext, ⟨41, .user 1⟩⟩

theorem planDueFrom_nextBase {activation : HalfOpen Instant}
    (hrows : c.planVersions.rows = [retiredBase activation, nextBase])
    (hpub : c.planPublishable nextBase) : c.PlanDueFrom 50 nextBase where
  mem := by simp [hrows]
  draft := rfl
  publishable := hpub
  start := le_refl 50
  ended := by
    intro y hy _
    refine CatalogueVersion.overFrom_of_ended ?_
    rw [hrows] at hy
    rcases List.mem_pair.1 hy with rfl | rfl
    · simp [CatalogueVersion.ended, retiredBase]
    · rfl

theorem retiredAndDrafted_untilNext :
    (runFrom step empty (retiredAndDrafted untilNext)).map
        (fun c => (c.planVersions.rows, c.planPublishable nextBase)) =
      some ([retiredBase untilNext, nextBase], true) := by
  decide +kernel

theorem retiredAndDrafted_openEnded :
    (runFrom step empty (retiredAndDrafted openEnded)).map
        (fun c => (c.planVersions.rows, c.planPublishable nextBase,
          (c.attempt (.operation 1 45 (.publishPlanVersion "D-7" 2))).isSome)) =
      some ([retiredBase openEnded, nextBase], true, false) := by
  decide +kernel

/-- After a version that was published up to the next one, the next one may be published. -/
theorem retirement_frees_untilNext : ∃ c,
    runFrom step empty (retiredAndDrafted untilNext) = some c ∧ c.PlanDueFrom 50 nextBase ∧
      (c.attempt (.operation 1 45 (.publishPlanVersion "D-7" 2))).isSome := by
  obtain ⟨c, hrun, hview⟩ := map_eq_some_iff.1 retiredAndDrafted_untilNext
  obtain ⟨hrows, hpub⟩ := Prod.mk.inj hview
  have hdue := planDueFrom_nextBase hrows hpub
  refine ⟨c, hrun, hdue, ((retirement_frees hrun 1 45 50).1 nextBase hdue).2 ?_⟩
  rintro ⟨_, hy, hret, -, hover⟩
  rw [hrows] at hy
  rcases List.mem_pair.1 hy with rfl | rfl
  · exact absurd hover (by decide)
  · cases hret

/-- After a version that was published for ever, it may not, though nothing is effective any
more. -/
theorem retirement_frees_fails : ¬∀ (events : List CatalogueEvent) (c : Catalogue) (t now : Instant)
    (v : PlanVersion), runFrom step empty events = some c → now ≤ t → c.PlanDueFrom t v →
      (c.attempt (.operation 1 now (.publishPlanVersion v.key v.version))).isSome := by
  intro hall
  obtain ⟨c, hrun, hview⟩ := map_eq_some_iff.1 retiredAndDrafted_openEnded
  obtain ⟨hrows, hrest⟩ := Prod.mk.inj hview
  obtain ⟨hpub, href⟩ := Prod.mk.inj hrest
  have hacc : (c.attempt (.operation 1 45 (.publishPlanVersion "D-7" 2))).isSome :=
    hall _ c 50 45 nextBase hrun (by decide) (planDueFrom_nextBase hrows hpub)
  rw [href] at hacc
  cases hacc

end Catalogue

end BeauClick.CommercialPolicy
