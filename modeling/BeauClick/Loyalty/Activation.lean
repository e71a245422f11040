import BeauClick.Loyalty.Basis

/-!
# An explicit activation

`activate`, `syncFromTier` and `expireDue` one after the other on a user's row, and the memberships
that `benefitsForUser` counts, whatever tier it finds.

* `activation_iff` — when an activation gives a membership that runs, and is left alone.
-/

namespace BeauClick.Loyalty

open ReadCommitted Transactions Option

/-- `activate`, alone on the row. -/
def activateRow (plans : List MembershipPlanEntity) (now : Instant) (uuid : Uuid)
    (i : ActivateInput) (existing : Option MembershipEntity) : Option MembershipEntity :=
  match plans.find? fun plan => plan.id = i.planId ∧ plan.isActive with
  | none => existing
  | some plan =>
    match existing with
    | none => some (i.membership plan uuid now)
    | some m =>
      if m.status = .active ∧ m.planId = i.planId then some m
      else some (m.overwrite (i.membership plan m.id now))

/-- `syncFromTier`, alone on the row, when the tier is linked to the plan. -/
def syncRow (plans : List MembershipPlanEntity) (now : Instant) (uuid userId : Uuid)
    (plan : MembershipPlanEntity) (existing : Option MembershipEntity) : Option MembershipEntity :=
  if ∃ m ∈ existing, m.StopsSync plan then existing
  else activateRow plans now uuid ⟨userId, plan.id, .tierQualification⟩ existing

/-- The `UPDATE` of `expireDue` for a row that it has selected. -/
def expireRow (row : MembershipEntity) (existing : Option MembershipEntity) :
    Option MembershipEntity :=
  existing.map fun m =>
    if m.id = row.id ∧ m.status = .active then { m with status := .expired } else m

theorem activateRow_of_statements {plans : List MembershipPlanEntity} {env : MembershipEnv}
    {db : MembershipDb} {pid : ℕ} {i : ActivateInput} {caller : Caller}
    {plan : MembershipPlanEntity}
    (hfound : plans.find? (fun plan => plan.id = i.planId ∧ plan.isActive) = some plan)
    (hlock : ¬(db.memberships.row i.userId).Locked pid) :
    (∃ m, db.memberships.get pid i.userId = some m ∧
      activateStatement plans env db pid (.existing i caller plan) =
        .goes db (.finish i caller false (some m.id)) ∧
      activateRow plans env.now env.uuid i (some m) = some m) ∨
    ∃ m row, activateStatement plans env db pid (.existing i caller plan) =
        .goes db (.upsert i caller plan m) ∧
      activateStatement plans env db pid (.upsert i caller plan m) =
        .goes { db with memberships := db.memberships.write pid i.userId row }
          (.announce i caller plan m) ∧
      activateRow plans env.now env.uuid i (db.memberships.get pid i.userId) = some row := by
  simp only [activateStatement, activateRow, hfound, if_neg hlock]
  cases db.memberships.get pid i.userId with
  | none => exact Or.inr ⟨_, _, rfl, rfl, rfl⟩
  | some m =>
    by_cases hsame : m.status = .active ∧ m.planId = i.planId
    · simp [hsame]
    · simp [hsame]

/-! ## What an activation gives -/

/-- An activation of an active plan that is not the tier's. -/
structure ExplicitActivation (plans : List MembershipPlanEntity) where
  input : ActivateInput
  plan : MembershipPlanEntity
  found : plans.find? (fun plan => plan.id = input.planId ∧ plan.isActive) = some plan
  explicit : input.source ≠ .tierQualification

/-- The user's row. -/
abbrev ExplicitActivation.row {plans : List MembershipPlanEntity} (a : ExplicitActivation plans)
    (t : LoyaltyTables) : Option MembershipEntity :=
  t.memberships.find? fun m => m.userId = a.input.userId

section

variable {plans : List MembershipPlanEntity} (a : ExplicitActivation plans) (now at' : Instant)
  (uuid : Uuid) (tierSlug : Option String) (t : LoyaltyTables) (pending : List MembershipEntity)

/-- The membership is on the plan and runs, no sync replaces it before its term and no sweep that is
under way ends it; and benefits of a plan are given while a membership runs. -/
structure Activates : Prop where
  runs : ∃ m, activateRow plans now uuid a.input (a.row t) = some m ∧ m.status = .active ∧
    m.planId = a.input.planId ∧ ¬m.Due now ∧
    (∀ plans' plan later uuid', ¬m.Due later →
      syncRow plans' later uuid' a.input.userId plan (some m) = some m) ∧
    ∀ row ∈ pending, expireRow row (some m) = some m
  benefits : ∀ benefits, ∀ b ∈ benefits, b.isActive → b.sourceType = .membershipPlan →
    (b ∈ { t with benefits }.benefitsOf a.input.userId tierSlug ↔
      ∃ m ∈ a.row t, m.status = .active ∧ m.planId = b.sourceId ∧ ¬m.Due at')

/-- A membership that is active on the plan has a term that runs and is not the tier's; the sweep
has not selected the row; and no membership is active past its term. -/
structure Renewable : Prop where
  running : ∀ m ∈ a.row t, m.status = .active → m.planId = a.input.planId →
    ¬m.Due now ∧ m.activationSource ≠ .tierQualification
  unswept : ∀ row ∈ pending, row.id ≠ ((a.row t).map (·.id)).getD uuid
  swept : ∀ m ∈ a.row t, m.status = .active → ¬m.Due at'

variable {a now at' uuid tierSlug t pending} {existing : Option MembershipEntity}

theorem runs_of_written {m : MembershipEntity} (hstat : m.status = .active)
    (hplan : m.planId = a.input.planId) (hsrc : m.activationSource = a.input.source)
    (hterm : m.expiresAt = a.plan.expiresAt now) :
    m.status = .active ∧ m.planId = a.input.planId ∧ ¬m.Due now ∧
      m.activationSource ≠ .tierQualification := by
  refine ⟨hstat, hplan, ?_, hsrc ▸ a.explicit⟩
  rintro ⟨_, ht, hle⟩
  rw [hterm, MembershipPlanEntity.expiresAt] at ht
  split at ht
  · cases ht
  split at ht
  · cases ht
  rename_i days _ hdays
  obtain rfl := some.inj ht
  rw [add_le_iff_nonpos_right] at hle
  have hpos : (0 : ℤ) < days * 86400000 := by omega
  exact absurd hle (not_le.2 hpos)

variable (uuid) in
theorem activateRow_runs (h : ∀ m ∈ existing, m.status = .active → m.planId = a.input.planId →
    ¬m.Due now ∧ m.activationSource ≠ .tierQualification) :
    ∃ m, activateRow plans now uuid a.input existing = some m ∧ m.status = .active ∧
      m.planId = a.input.planId ∧ ¬m.Due now ∧ m.activationSource ≠ .tierQualification := by
  simp only [activateRow, a.found]
  cases existing with
  | none => exact ⟨_, rfl, runs_of_written rfl rfl rfl rfl⟩
  | some e =>
    by_cases hsame : e.status = .active ∧ e.planId = a.input.planId
    · exact ⟨e, if_pos hsame, hsame.1, hsame.2, h e rfl hsame.1 hsame.2⟩
    · exact ⟨_, if_neg hsame, runs_of_written rfl rfl rfl rfl⟩

theorem id_of_activateRow {m : MembershipEntity}
    (h : activateRow plans now uuid a.input existing = some m) :
    m.id = (existing.map (·.id)).getD uuid := by
  simp only [activateRow, a.found] at h
  cases existing with
  | none =>
    cases h
    rfl
  | some =>
    dsimp only at h
    split at h <;> cases h <;> rfl

theorem expireRow_eq_iff {row m : MembershipEntity} (h : m.status = .active) :
    expireRow row (some m) = some m ↔ row.id ≠ m.id := by
  constructor
  · intro heq hid
    rw [expireRow, map_some, if_pos ⟨hid.symm, h⟩, some.injEq] at heq
    rw [← heq] at h
    cases h
  · intro hne
    rw [expireRow, map_some, if_neg fun hboth => hne hboth.1.symm]

theorem mem_benefitsOf {benefits : List BenefitEntity} {b : BenefitEntity} (hb : b ∈ benefits)
    (hact : b.isActive) (hsrc : b.sourceType = .membershipPlan) :
    b ∈ { t with benefits }.benefitsOf a.input.userId tierSlug ↔
      ∃ m ∈ a.row t, m.status = .active ∧ m.planId = b.sourceId := by
  simp [LoyaltyTables.benefitsOf, hb, hact, hsrc, and_assoc]

theorem benefits_iff : (∀ benefits, ∀ b ∈ benefits, b.isActive → b.sourceType = .membershipPlan →
    (b ∈ { t with benefits }.benefitsOf a.input.userId tierSlug ↔
      ∃ m ∈ a.row t, m.status = .active ∧ m.planId = b.sourceId ∧ ¬m.Due at')) ↔
    ∀ m ∈ a.row t, m.status = .active → ¬m.Due at' := by
  constructor
  · intro h m hm hact
    have hb := h [⟨0, .membershipPlan, m.planId, .descriptive, "", none, true, 0⟩] _
      (List.mem_singleton_self _) rfl rfl
    rw [mem_benefitsOf (List.mem_singleton_self _) rfl rfl] at hb
    obtain ⟨_, hm', -, -, hdue⟩ := hb.1 ⟨m, hm, hact, rfl⟩
    cases hm.symm.trans hm'
    exact hdue
  · intro h benefits b hb hact hsrc
    rw [mem_benefitsOf hb hact hsrc]
    constructor
    · rintro ⟨m, hm, hstat, hplan⟩
      exact ⟨m, hm, hstat, hplan, h m hm hstat⟩
    · rintro ⟨m, hm, hstat, hplan, -⟩
      exact ⟨m, hm, hstat, hplan⟩

/-- An activation gives what it is to give, exactly in the states that it can renew. -/
theorem activation_iff : Activates a now at' uuid tierSlug t pending ↔
    Renewable a now at' uuid t pending := by
  constructor
  · rintro ⟨⟨m, hm, hact, hplan, hdue, hsync, hsweep⟩, hbenefits⟩
    have hfound : ∀ e ∈ a.row t, e.status = .active → e.planId = a.input.planId → e = m := by
      intro e he hstat hid
      rw [mem_def.1 he] at hm
      simp only [activateRow, a.found, if_pos (And.intro hstat hid)] at hm
      exact some.inj hm
    refine ⟨?_, ?_, benefits_iff.1 hbenefits⟩
    · intro e he hstat hid
      obtain rfl := hfound e he hstat hid
      refine ⟨hdue, ?_⟩
      intro htier
      -- a sync for the plan of another tier writes over the row
      have hreplaced := hsync [⟨e.planId + 1, "", none, none, true⟩]
        ⟨e.planId + 1, "", none, none, true⟩ now 0 hdue
      simp [syncRow, activateRow, MembershipEntity.StopsSync, htier, MembershipEntity.overwrite,
        ActivateInput.membership] at hreplaced
      have hids := congrArg MembershipEntity.planId hreplaced
      simp at hids
    · intro row hrow
      rw [← id_of_activateRow hm]
      exact (expireRow_eq_iff hact).1 (hsweep row hrow)
  · intro h
    obtain ⟨m, hm, hact, hplan, hdue, hsrc⟩ := activateRow_runs uuid h.running
    refine ⟨⟨m, hm, hact, hplan, hdue, ?_, ?_⟩, benefits_iff.2 h.swept⟩
    · exact fun plans' plan later uuid' _ => if_pos ⟨m, rfl, hact, Or.inr hsrc⟩
    · intro row hrow
      rw [expireRow_eq_iff hact, id_of_activateRow hm]
      exact h.unswept row hrow

/-- The plan of a membership whose term has passed is asked for again, and nothing happens. -/
theorem activation_lapsed_fails : ¬∀ (plans : List MembershipPlanEntity)
    (a : ExplicitActivation plans) now at' uuid tierSlug t pending,
      Activates a now at' uuid tierSlug t pending := by
  intro h
  obtain ⟨_, hm, -, -, hdue, -⟩ := (h [⟨1, "gold", none, some 30, true⟩]
    ⟨⟨7, 1, .manual⟩, _, rfl, by decide⟩ 10 0 0 none
    ⟨⟨[], by simp, by simp⟩, [], [], [], [], [⟨5, 7, 1, .active, .manual, 0, some 9⟩]⟩ []).runs
  cases hm
  exact hdue ⟨9, rfl, by decide⟩

end

end BeauClick.Loyalty
