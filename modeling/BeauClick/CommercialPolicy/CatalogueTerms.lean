import BeauClick.CommercialPolicy.Catalogue

/-!
# What is published stays as it was published

The triggers of the catalogue tables, over any operations and direct statements.

* `Kept` — what has left draft keeps its terms.
* `kept_execute` — a statement that moves no tier keeps it.
* `terms_kept` — and exactly the statements that move a published tier do not.
-/

namespace BeauClick.CommercialPolicy

open Runs Constrained List

/-! ## Versions that have left draft -/

section Versions

variable {τ : Type} {v v' v'' : CatalogueVersion τ} {t : Instant}

/-- `v'` is `v`, or `v` retired. -/
def Follows (v v' : CatalogueVersion τ) : Prop :=
  v' = v ∨ ∃ published retired,
    v.lifecycle = .published published ∧ v' = { v with lifecycle := .retired published retired }

section

variable (h : Follows v v')
include h

theorem Follows.trans (h' : Follows v' v'') : Follows v v'' := by
  rcases h with rfl | ⟨published, retired, hv, rfl⟩
  · exact h'
  · rcases h' with rfl | ⟨_, _, hret, _⟩
    · exact Or.inr ⟨published, retired, hv, rfl⟩
    · cases hret

theorem Follows.id : v'.id = v.id := by
  rcases h with rfl | ⟨_, _, _, rfl⟩ <;> rfl

theorem Follows.terms : v'.terms = v.terms := by
  rcases h with rfl | ⟨_, _, _, rfl⟩ <;> rfl

theorem Follows.state_ne (hv : v.state ≠ .draft) : v'.state ≠ .draft := by
  rcases h with rfl | ⟨_, _, _, rfl⟩
  · exact hv
  · exact LifecycleState.noConfusion

end

theorem follows_of_updatePermitted [DecidableEq τ] (h : updatePermitted v v')
    (hv : v.state ≠ .draft) : Follows v v' := by
  simp only [updatePermitted, Bool.and_eq_true, Bool.or_eq_true, decide_eq_true_eq] at h
  obtain ⟨_, _, _, lifecycle, _, _, _⟩ := v
  obtain ⟨_, _, _, lifecycle', _, _, _⟩ := v'
  obtain ⟨⟨⟨hret, ⟨⟨rfl, rfl⟩, rfl⟩, rfl⟩, -⟩, hdraft | ⟨⟨rfl, rfl⟩, hpub⟩⟩ := h
  · exact absurd hdraft hv
  cases lifecycle with
  | draft => exact absurd rfl hv
  | retired => exact absurd rfl hret
  | published record =>
    cases lifecycle' with
    | draft => cases hpub
    | published =>
      cases hpub
      exact Or.inl rfl
    | retired published retired =>
      cases hpub
      exact Or.inr ⟨record, retired, rfl, rfl⟩

theorem CatalogueVersion.Conflicts.symm (h : v.Conflicts v') : v'.Conflicts v := by
  rcases h with hid | ⟨hkey, hver⟩ | ⟨hv, hv', hkey, hover⟩
  · exact Or.inl hid.symm
  · exact Or.inr (Or.inl ⟨hkey.symm, hver.symm⟩)
  · exact Or.inr (Or.inr ⟨hv', hv, hkey.symm, hover.symm⟩)

theorem CatalogueVersion.EffectiveAt.state_ne (h : v.EffectiveAt t) : v.state ≠ .draft := by
  unfold CatalogueVersion.EffectiveAt at h
  unfold CatalogueVersion.state
  cases hlifecycle : v.lifecycle with
  | draft =>
    rw [hlifecycle] at h
    exact h.2.elim
  | published | retired => exact LifecycleState.noConfusion

theorem conflicts_of_effectiveAt (hkey : v.key = v'.key) (h : v.EffectiveAt t)
    (h' : v'.EffectiveAt t) : v.Conflicts v' :=
  Or.inr (Or.inr ⟨h.state_ne, h'.state_ne, hkey, HalfOpen.overlaps_of_mem h.1 h'.1⟩)

end Versions

theorem PlanVersion.Clash.symm (v v' : PlanVersion) (h : PlanVersion.Clash v v') :
    PlanVersion.Clash v' v := by
  rcases h with h | ⟨hauto, hauto', hv, hv', hover⟩
  · exact Or.inl h.symm
  · exact Or.inr ⟨hauto', hauto, hv', hv, hover.symm⟩

theorem PriceTier.Clash.symm (x y : PriceTier) (h : PriceTier.Clash x y) : PriceTier.Clash y x := by
  rcases h with hid | ⟨hpar, hover⟩
  · exact Or.inl hid.symm
  · exact Or.inr ⟨hpar.symm, hover.symm⟩

/-! ## A version table -/

section Table

variable {τ : Type} {R : CatalogueVersion τ → CatalogueVersion τ → Prop}
  {t t' : Constrained R} {id : Uuid} {old row v : CatalogueVersion τ}

theorem exists_follows_of_replace [DecidableEq τ] [DecidableRel R]
    (hsymm : ∀ x y, R x y → R y x) (hid : ∀ x y, x.id = y.id → R x y)
    (hold : t.rows.find? (·.id = id) = some old) (hperm : updatePermitted old row)
    (h : t.replace (·.id = id) row = some t') (hv : v ∈ t.rows) (hstate : v.state ≠ .draft) :
    ∃ v' ∈ t'.rows, Follows v v' := by
  by_cases hvid : v.id = id
  · have holdId : old.id = id := by simpa using find?_some hold
    have hvold : v = old := t.eq_of_conflict hsymm hv (mem_of_find?_eq_some hold)
      (hid v old (hvid.trans holdId.symm))
    subst hvold
    exact ⟨row, (mem_of_replace h).2 (Or.inr rfl),
      follows_of_updatePermitted hperm hstate⟩
  · refine ⟨v, (mem_of_replace h).2 (Or.inl ⟨hv, ?_⟩), Or.inl rfl⟩
    simpa using hvid

theorem ne_of_find_draft (hsymm : ∀ x y, R x y → R y x) (hid : ∀ x y, x.id = y.id → R x y)
    (hold : t.rows.find? (·.id = id) = some old) (hdraft : old.state = .draft) (hv : v ∈ t.rows)
    (hstate : v.state ≠ .draft) : v.id ≠ id := by
  intro hvid
  have holdId : old.id = id := by simpa using find?_some hold
  have hvold : v = old := t.eq_of_conflict hsymm hv (mem_of_find?_eq_some hold)
    (hid v old (hvid.trans holdId.symm))
  exact hstate (hvold ▸ hdraft)

end Table

namespace Catalogue

variable {c c' c'' : Catalogue} {s : CatalogueStatement} {e : CatalogueEvent} {v : ScheduleVersion}
  {statements : List CatalogueStatement}

theorem clash_of_id (x y : PlanVersion) (h : x.id = y.id) : PlanVersion.Clash x y :=
  Or.inl (Or.inl h)

theorem conflicts_of_id (x y : ScheduleVersion) (h : x.id = y.id) : x.Conflicts y := Or.inl h

theorem conflicts_symm (x y : ScheduleVersion) (h : x.Conflicts y) : y.Conflicts x := h.symm

theorem scheduleState_of_mem (hv : v ∈ c.scheduleVersions.rows) :
    c.scheduleState v.id = some v.state := by
  have hfind : c.scheduleVersion v.id = some v :=
    find_eq_of_mem conflicts_symm c.scheduleVersions hv (by simp)
      fun y hy => Or.inl (by simpa using hy)
  rw [scheduleState, hfind]
  rfl

theorem exists_of_scheduleState {id : Uuid} {state : LifecycleState}
    (h : c.scheduleState id = some state) :
    ∃ v ∈ c.scheduleVersions.rows, v.id = id ∧ v.state = state := by
  obtain ⟨v, hv, hstate⟩ := Option.map_eq_some_iff.1 h
  exact ⟨v, mem_of_find?_eq_some hv, by simpa using find?_some hv, hstate⟩

/-! ## What is kept -/

/-- Nothing that has been published is different in `c'`, but for retirements. -/
structure Kept (c c' : Catalogue) : Prop where
  plan : ∀ v ∈ c.planVersions.rows, v.state ≠ .draft → ∃ v' ∈ c'.planVersions.rows, Follows v v'
  schedule : ∀ v ∈ c.scheduleVersions.rows, v.state ≠ .draft →
    ∃ v' ∈ c'.scheduleVersions.rows, Follows v v'
  tiers : ∀ v ∈ c.scheduleVersions.rows, v.state ≠ .draft → c'.tiersOf v.id = c.tiersOf v.id

theorem Kept.refl (c : Catalogue) : Kept c c where
  plan v hv _ := ⟨v, hv, Or.inl rfl⟩
  schedule v hv _ := ⟨v, hv, Or.inl rfl⟩
  tiers _ _ _ := rfl

theorem Kept.trans (h : Kept c c') (h' : Kept c' c'') : Kept c c'' where
  plan := by
    intro v hv hstate
    obtain ⟨v', hv', hfoll⟩ := h.plan v hv hstate
    obtain ⟨v'', hv'', hfoll'⟩ := h'.plan v' hv' (hfoll.state_ne hstate)
    exact ⟨v'', hv'', hfoll.trans hfoll'⟩
  schedule := by
    intro v hv hstate
    obtain ⟨v', hv', hfoll⟩ := h.schedule v hv hstate
    obtain ⟨v'', hv'', hfoll'⟩ := h'.schedule v' hv' (hfoll.state_ne hstate)
    exact ⟨v'', hv'', hfoll.trans hfoll'⟩
  tiers := by
    intro v hv hstate
    obtain ⟨v', hv', hfoll⟩ := h.schedule v hv hstate
    rw [← h.tiers v hv hstate, ← hfoll.id]
    exact h'.tiers v' hv' (hfoll.state_ne hstate)

/-- The `UPDATE` takes a tier out of a schedule version that is not a draft, into one that is. -/
def MovesTier (c : Catalogue) : CatalogueStatement → Prop
  | .updateTier id row =>
    c.tierRowAdmitted row ∧ (∀ y ∈ c.priceTiers.rows, y.id ≠ id → ¬y.Clash row) ∧
      ∃ old ∈ c.priceTiers.rows, old.id = id ∧
        ∃ v ∈ c.scheduleVersions.rows, v.id = old.scheduleVersionId ∧ v.state ≠ .draft
  | _ => False

theorem kept_of_planVersions {t : Constrained PlanVersion.Clash}
    (h : ∀ v ∈ c.planVersions.rows, v.state ≠ .draft → ∃ v' ∈ t.rows, Follows v v') :
    Kept c { c with planVersions := t } where
  plan := h
  schedule v hv _ := ⟨v, hv, Or.inl rfl⟩
  tiers _ _ _ := rfl

theorem kept_of_scheduleVersions {t : Constrained CatalogueVersion.Conflicts}
    (h : ∀ v ∈ c.scheduleVersions.rows, v.state ≠ .draft → ∃ v' ∈ t.rows, Follows v v') :
    Kept c { c with scheduleVersions := t } where
  plan v hv _ := ⟨v, hv, Or.inl rfl⟩
  schedule := h
  tiers _ _ _ := rfl

theorem kept_of_priceTiers {t : Constrained PriceTier.Clash}
    (h : ∀ v ∈ c.scheduleVersions.rows, v.state ≠ .draft →
      t.rows.filter (·.scheduleVersionId = v.id) = c.tiersOf v.id) :
    Kept c { c with priceTiers := t } where
  plan v hv _ := ⟨v, hv, Or.inl rfl⟩
  schedule v hv _ := ⟨v, hv, Or.inl rfl⟩
  tiers := h

theorem ne_of_tierRowAdmitted {row : PriceTier} (h : c.tierRowAdmitted row)
    (hv : v ∈ c.scheduleVersions.rows) (hstate : v.state ≠ .draft) :
    row.scheduleVersionId ≠ v.id := by
  simp only [tierRowAdmitted, Bool.and_eq_true, decide_eq_true_eq] at h
  intro heq
  have hsome := h.2
  rw [heq, scheduleState_of_mem hv] at hsome
  exact hstate (Option.some.inj hsome)

theorem kept_execute (h : c.execute s = some c') (hs : ¬c.MovesTier s) : Kept c c' := by
  cases written_of_execute h with
  | nothing => exact Kept.refl c
  | plan | priceSchedule => exact ⟨(Kept.refl c).plan, (Kept.refl c).schedule, (Kept.refl c).tiers⟩
  | planVersionInserted row t hdraft hadm ht =>
    exact kept_of_planVersions fun v hv _ =>
      ⟨v, (mem_of_insert ht).2 (Or.inl hv), Or.inl rfl⟩
  | planVersionUpdated id old row t hold hperm hpub hadm ht =>
    exact kept_of_planVersions fun v hv =>
      exists_follows_of_replace PlanVersion.Clash.symm clash_of_id hold hperm ht hv
  | planVersionDeleted id old hold hdraft =>
    refine kept_of_planVersions fun v hv hstate => ⟨v, ?_, Or.inl rfl⟩
    have hne := ne_of_find_draft PlanVersion.Clash.symm clash_of_id hold hdraft hv hstate
    exact mem_delete.2 ⟨hv, by simpa using hne⟩
  | scheduleVersionInserted row t hadm ht =>
    exact kept_of_scheduleVersions fun v hv _ =>
      ⟨v, (mem_of_insert ht).2 (Or.inl hv), Or.inl rfl⟩
  | scheduleVersionUpdated id old row t hold hperm hadm ht =>
    exact kept_of_scheduleVersions fun v hv =>
      exists_follows_of_replace conflicts_symm conflicts_of_id hold hperm ht hv
  | scheduleVersionDeleted id old hold hdraft =>
    have hne : ∀ v ∈ c.scheduleVersions.rows, v.state ≠ .draft → v.id ≠ id := fun v hv hstate =>
      ne_of_find_draft conflicts_symm conflicts_of_id hold hdraft hv hstate
    refine ⟨fun v hv _ => ⟨v, hv, Or.inl rfl⟩, fun v hv hstate => ⟨v, ?_, Or.inl rfl⟩,
      fun v hv hstate => filter_delete ?_⟩
    · exact mem_delete.2 ⟨hv, by simpa using hne v hv hstate⟩
    · intro tier _ hpar
      have hid := hne v hv hstate
      simp only [decide_eq_true_eq] at hpar ⊢
      rwa [hpar]
  | tierInserted row t hadm ht =>
    refine kept_of_priceTiers fun v hv hstate => filter_of_insert ht ?_
    simpa using ne_of_tierRowAdmitted hadm hv hstate
  | tierUpdated id row t hadm ht =>
    refine kept_of_priceTiers fun v hv hstate => filter_of_replace ht ?_ ?_
    · intro tier htier hpar hid
      -- a tier of the version that the update replaces would be moved out of it
      refine hs ⟨hadm, ?_, tier, htier, by simpa using hid, v, hv, ?_, hstate⟩
      · have hfree := replace_isSome.1 (Option.isSome_of_eq_some ht)
        simpa using hfree
      · exact (of_decide_eq_true hpar).symm
    · simpa using ne_of_tierRowAdmitted hadm hv hstate
  | tierDeleted id old hold hdraft =>
    refine kept_of_priceTiers fun v hv hstate => filter_delete ?_
    intro tier htier hpar hid
    have htierOld : tier = old := by
      refine c.priceTiers.eq_of_conflict PriceTier.Clash.symm htier
        (mem_of_find?_eq_some hold) (Or.inl ?_)
      have holdId : old.id = id := by simpa using find?_some hold
      exact (of_decide_eq_true hid).trans holdId.symm
    subst htierOld
    rw [of_decide_eq_true hpar, scheduleState_of_mem hv] at hdraft
    exact hstate (by simpa using hdraft)

/-! ## The automatically assignable plan -/

/-- The price of every automatically assignable plan version that has left draft is a schedule
version that has left draft, with one tier, of zero. -/
def AutoAssignableFree (c : Catalogue) : Prop :=
  ∀ v ∈ c.planVersions.rows, v.state ≠ .draft → v.terms.autoAssignable →
    (∃ price ∈ c.scheduleVersions.rows, price.id = v.terms.priceScheduleVersionId ∧
      price.state ≠ .draft) ∧
    freeOfCharge (c.tiersOf v.terms.priceScheduleVersionId)

theorem autoAssignableFree_empty : AutoAssignableFree empty := by
  intro v hv
  cases hv

theorem published_of_updatePermitted {τ : Type} [DecidableEq τ] {old new : CatalogueVersion τ}
    (h : updatePermitted old new) (hdraft : old.state = .draft) (hstate : new.state ≠ .draft) :
    new.state = .published := by
  simp only [updatePermitted, hdraft, Bool.and_eq_true, Bool.or_eq_true, decide_eq_true_eq] at h
  rcases h.1.2 with hsame | htrans
  · exact absurd hsame hstate
  cases hnew : new.state with
  | published => rfl
  | draft => exact absurd hnew hstate
  | retired =>
    rw [hnew] at htrans
    cases htrans

/-- A plan version that has left draft had left it before with the same terms, or has been
published against a price that admits it. -/
theorem exists_origin (h : c.execute s = some c') {v' : PlanVersion}
    (hv' : v' ∈ c'.planVersions.rows) (hstate : v'.state ≠ .draft) :
    (∃ v ∈ c.planVersions.rows, v.state ≠ .draft ∧ v.terms = v'.terms) ∨ c.planPublishable v' := by
  cases written_of_execute h with
  | planVersionInserted row t hdraft hadm ht =>
    rcases (mem_of_insert ht).1 hv' with hv | rfl
    · exact Or.inl ⟨v', hv, hstate, rfl⟩
    · exact absurd hdraft hstate
  | planVersionUpdated id old row t hold hperm hpub hadm ht =>
    rcases (mem_of_replace ht).1 hv' with ⟨hv, -⟩ | rfl
    · exact Or.inl ⟨v', hv, hstate, rfl⟩
    by_cases hdraft : old.state = .draft
    · exact Or.inr (hpub hdraft (published_of_updatePermitted hperm hdraft hstate))
    · exact Or.inl ⟨old, mem_of_find?_eq_some hold, hdraft,
        (follows_of_updatePermitted hperm hdraft).terms.symm⟩
  | planVersionDeleted =>
    exact Or.inl ⟨v', (mem_delete.1 hv').1, hstate, rfl⟩
  | _ => exact Or.inl ⟨v', hv', hstate, rfl⟩

theorem AutoAssignableFree.execute (hc : AutoAssignableFree c) (h : c.execute s = some c')
    (hkept : Kept c c') : AutoAssignableFree c' := by
  intro v' hv' hstate hauto
  -- what the price of the version was before the statement
  have hprice : (∃ price ∈ c.scheduleVersions.rows,
      price.id = v'.terms.priceScheduleVersionId ∧ price.state ≠ .draft) ∧
      freeOfCharge (c.tiersOf v'.terms.priceScheduleVersionId) := by
    rcases exists_origin h hv' hstate with ⟨v, hv, hstate', hterms⟩ | hpub
    · rw [← hterms] at hauto ⊢
      exact hc v hv hstate' hauto
    · simp only [planPublishable, hauto, Bool.not_true, Bool.false_or, Bool.and_eq_true,
        decide_eq_true_eq] at hpub
      obtain ⟨price, hmem, hid, hpublished⟩ := exists_of_scheduleState hpub.1
      refine ⟨⟨price, hmem, hid, ?_⟩, hpub.2⟩
      rw [hpublished]
      exact LifecycleState.noConfusion
  obtain ⟨⟨price, hmem, hid, hleft⟩, _⟩ := hprice
  obtain ⟨price', hmem', hfoll⟩ := hkept.schedule price hmem hleft
  refine ⟨⟨price', hmem', hfoll.id.trans hid, hfoll.state_ne hleft⟩, ?_⟩
  have htiers := hkept.tiers price hmem hleft
  rw [hid] at htiers
  rwa [htiers]

/-! ## What is resolved -/

/-- At every instant there is one effective version of a key, and one automatically assignable
plan version, which is free of charge. -/
structure Resolves (c : Catalogue) : Prop where
  plan : ∀ t, ∀ x ∈ c.planVersions.rows, ∀ y ∈ c.planVersions.rows, x.key = y.key →
    x.EffectiveAt t → y.EffectiveAt t → x = y
  schedule : ∀ t, ∀ x ∈ c.scheduleVersions.rows, ∀ y ∈ c.scheduleVersions.rows, x.key = y.key →
    x.EffectiveAt t → y.EffectiveAt t → x = y
  autoAssignable : ∀ t, ∀ x ∈ c.planVersions.rows, ∀ y ∈ c.planVersions.rows,
    x.terms.autoAssignable → y.terms.autoAssignable → x.EffectiveAt t → y.EffectiveAt t → x = y
  free : ∀ x ∈ c.planVersions.rows, x.state ≠ .draft → x.terms.autoAssignable →
    ∃ tier, c.tiersOf x.terms.priceScheduleVersionId = [tier] ∧ tier.unitPriceToman = 0

theorem AutoAssignableFree.resolves (h : AutoAssignableFree c) : Resolves c where
  plan t x hx y hy hkey hxt hyt :=
    c.planVersions.eq_of_conflict PlanVersion.Clash.symm hx hy
      (Or.inl (conflicts_of_effectiveAt hkey hxt hyt))
  schedule t x hx y hy hkey hxt hyt :=
    c.scheduleVersions.eq_of_conflict conflicts_symm hx hy (conflicts_of_effectiveAt hkey hxt hyt)
  autoAssignable t x hx y hy hxauto hyauto hxt hyt :=
    c.planVersions.eq_of_conflict PlanVersion.Clash.symm hx hy
      (Or.inr ⟨hxauto, hyauto, hxt.state_ne, hyt.state_ne, HalfOpen.overlaps_of_mem hxt.1 hyt.1⟩)
  free := by
    intro x hx hstate hauto
    have hfree := (h x hx hstate hauto).2
    simp only [freeOfCharge, Bool.and_eq_true, decide_eq_true_eq, all_eq_true] at hfree
    obtain ⟨tier, htier⟩ := length_eq_one_iff.1 hfree.1
    rw [htier] at hfree
    exact ⟨tier, htier, hfree.2 tier mem_cons_self⟩

/-! ## Runs -/

/-- The event is a direct `UPDATE` that moves a tier out of a published schedule version. -/
def Moves (c : Catalogue) : CatalogueEvent → Prop
  | .statement statement => c.MovesTier statement
  | .operation .. => False

/-- The event keeps what has been published. -/
def TermsKept (c : Catalogue) (e : CatalogueEvent) : Prop := ∀ c', c.attempt e = some c' → Kept c c'

theorem not_movesTier (h : ∀ id row, s ≠ .updateTier id row) : ¬c.MovesTier s := by
  cases s with
  | updateTier id row => exact absurd rfl (h id row)
  | _ => exact not_false

theorem ne_updateTier_of_writes {record : ActorRecord} {operation : CatalogueOperation}
    (h : c.writes record operation = some statements) :
    ∀ s ∈ statements, ∀ id row, s ≠ .updateTier id row := by
  intro s hs id row heq
  subst heq
  have htiers : ∀ scheduleVersionId tiers,
      CatalogueStatement.updateTier id row ∉ c.replaceTiers record scheduleVersionId tiers := by
    intro scheduleVersionId tiers
    simp [replaceTiers]
  cases operation <;>
    simp only [writes, Option.some.injEq, Option.map_eq_some_iff,
      Option.ite_none_right_eq_some] at h
  case createPlan | createPriceSchedule =>
    subst h
    simp at hs
  case createScheduleVersionDraft =>
    obtain ⟨-, rfl⟩ := h
    exact htiers _ _ (by simpa using hs)
  case updateScheduleVersionDraft =>
    obtain ⟨_, -, rfl⟩ := h
    exact htiers _ _ (by simpa using hs)
  case createPlanVersionDraft =>
    obtain ⟨-, rfl⟩ := h
    simp at hs
  case updatePlanVersionDraft =>
    obtain ⟨-, _, -, rfl⟩ := h
    simp at hs
  all_goals
    obtain ⟨_, -, rfl⟩ := h
    simp at hs

theorem kept_transaction (hs : ∀ s ∈ statements, ∀ id row, s ≠ .updateTier id row)
    (hc : AutoAssignableFree c) (h : runFrom execute c statements = some c') :
    Kept c c' ∧ AutoAssignableFree c' := by
  induction statements generalizing c with
  | nil =>
    cases h
    exact ⟨Kept.refl _, hc⟩
  | cons s rest ih =>
    obtain ⟨c₁, hfirst, hrest⟩ := runFrom_cons_eq_some.1 h
    have hkept : Kept c c₁ :=
      kept_execute hfirst (not_movesTier (hs s mem_cons_self))
    obtain ⟨hkept', hfree⟩ :=
      ih (fun s hmem => hs s (mem_cons_of_mem _ hmem)) (hc.execute hfirst hkept) hrest
    exact ⟨hkept.trans hkept', hfree⟩

theorem kept_attempt (hc : AutoAssignableFree c) (he : ¬c.Moves e) (h : c.attempt e = some c') :
    Kept c c' ∧ AutoAssignableFree c' := by
  cases e with
  | statement =>
    have hkept : Kept c c' := kept_execute h he
    exact ⟨hkept, hc.execute h hkept⟩
  | operation =>
    obtain ⟨_, hwrites, hrun⟩ := Option.bind_eq_some_iff.1 h
    exact kept_transaction (ne_updateTier_of_writes hwrites) hc hrun

theorem kept_step (hc : AutoAssignableFree c) (he : ¬c.Moves e) (h : c.step e = some c') :
    Kept c c' ∧ AutoAssignableFree c' := by
  cases hatt : c.attempt e with
  | none =>
    simp only [step, hatt, Option.getD_none, Option.some.injEq] at h
    exact h ▸ ⟨Kept.refl c, hc⟩
  | some =>
    simp only [step, hatt, Option.getD_some, Option.some.injEq] at h
    exact h ▸ kept_attempt hc he hatt

theorem not_kept_of_moves (h : c.Moves e) : ¬c.TermsKept e := by
  cases e with
  | operation => exact h.elim
  | statement s =>
    cases s with
    | updateTier id row =>
      obtain ⟨hadm, hfree, old, hold, hid, v, hv, hpar, hstate⟩ := h
      intro hkept
      have hfind : c.priceTier id = some old :=
        c.priceTiers.find_eq_of_mem PriceTier.Clash.symm hold (by simpa using hid)
          fun y hy => Or.inl ((of_decide_eq_true hy).trans hid.symm)
      have hacc : (c.priceTiers.replace (·.id = id) row).isSome :=
        replace_isSome.2 (by simpa using hfree)
      obtain ⟨t, ht⟩ := Option.isSome_iff_exists.1 hacc
      have hatt : c.attempt (.statement (.updateTier id row)) =
          some { c with priceTiers := t } := by
        simp only [attempt, execute, hfind, if_pos hadm, ht, Option.map_some]
      have htiers := (hkept _ hatt).tiers v hv hstate
      have hthere : old ∈ c.tiersOf v.id := by
        simp [tiersOf, hold, hpar]
      rw [← htiers] at hthere
      simp only [tiersOf, mem_filter, decide_eq_true_eq] at hthere
      rcases (mem_of_replace ht).1 hthere.1 with ⟨-, hne⟩ | rfl
      · exact hne (by simpa using hid)
      · exact ne_of_tierRowAdmitted hadm hv hstate hpar.symm
    | _ => exact h.elim

/-- In every run of direct statements and of operations, what is published keeps its terms, its
window and its tiers, and versions resolve without a choice, exactly when no direct `UPDATE` moves a
tier out of a published schedule version. -/
theorem terms_kept (events : List CatalogueEvent) :
    Throughout step Resolves empty events ∧ Along step TermsKept empty events ↔
      Along step (fun c e => ¬c.Moves e) empty events :=
  throughout_and_along_iff (I := AutoAssignableFree) (fun _ hc => hc.resolves)
    (fun _ _ _ hc he hstep => (kept_step hc he hstep).2)
    (fun _ _ hc he _ hattempt => (kept_attempt hc he hattempt).1)
    (fun _ _ _ hkept _ hmoves => not_kept_of_moves hmoves hkept)
    autoAssignableFree_empty events

/-! ## A published price loses its tier -/

/-- One subscription, priced once. -/
def basePriceTerms : ScheduleTerms := ⟨"base workspace price", .irt, 1, 1, []⟩

/-- Between two and five, which the next version prices. -/
def groupPriceTerms : ScheduleTerms := ⟨"group price", .irt, 2, 5, []⟩

/-- The zero tier of the base price. -/
def zeroTier : PriceTierV1 := ⟨1, some 1, 0, by simp⟩

/-- The tier of the draft. -/
def groupTier : PriceTierV1 := ⟨2, some 5, 50, by simp⟩

/-- A published version of a schedule, and the draft of its next one. -/
def publishedAndDraft : List CatalogueEvent :=
  [ .operation 1 10 (.createPriceSchedule "base" .sellerPlan),
    .operation 1 11
      (.createScheduleVersionDraft 100 "base" basePriceTerms ⟨20, some 30, by simp⟩
        [(7, zeroTier)]),
    .operation 1 12 (.publishScheduleVersion "base" 1),
    .operation 1 13
      (.createScheduleVersionDraft 101 "base" groupPriceTerms ⟨30, none, by simp⟩
        [(8, groupTier)]) ]

/-- `UPDATE commercial.price_tiers SET schedule_version_id = 101 WHERE id = 7`. -/
def moveZeroTier : CatalogueEvent :=
  .statement (.updateTier 7
    { toPriceTierV1 := zeroTier, id := 7, scheduleVersionId := 101, created := ⟨11, .user 1⟩ })

theorem moveZeroTier_runs :
    (runFrom step empty publishedAndDraft).map (fun c =>
      ((c.scheduleVersions.rows.filter (·.state ≠ .draft)).map (·.id),
        (c.tiersOf 100).map (·.id), (c.attempt moveZeroTier).map fun c' => c'.tiersOf 100)) =
      some ([100], [7], some []) := by
  decide +kernel

/-- A published version does not keep its tiers in every run. -/
theorem terms_kept_fails : ¬∀ events : List CatalogueEvent,
    Throughout step Resolves empty events ∧ Along step TermsKept empty events := by
  intro hall
  obtain ⟨c, hrun, hviews⟩ := Option.map_eq_some_iff.1 moveZeroTier_runs
  simp only [Prod.mk.injEq, Option.map_eq_some_iff] at hviews
  obtain ⟨hvers, hbef, c', hatt, hafter⟩ := hviews
  have hkept : Kept c c' := (hall (publishedAndDraft ++ [moveZeroTier])).2.last hrun c' hatt
  have hthere : 100 ∈ (c.scheduleVersions.rows.filter (·.state ≠ .draft)).map (·.id) := by
    rw [hvers]
    exact mem_singleton_self 100
  obtain ⟨v, hv, hid⟩ := mem_map.1 hthere
  have hmem : v ∈ c.scheduleVersions.rows ∧ v.state ≠ .draft := by simpa using hv
  have htiers := hkept.tiers v hmem.1 hmem.2
  rw [hid, hafter] at htiers
  rw [← htiers] at hbef
  cases hbef

end Catalogue

end BeauClick.CommercialPolicy
