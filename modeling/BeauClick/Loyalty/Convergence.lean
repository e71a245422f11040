import BeauClick.Loyalty.Handlers

/-!
# Points and the tier's membership converge

A delivery `Aims` at a plan as long as it has yet to look at the membership, or to write it, with a
total that leads to that plan.  A run that is in time keeps, for every user whose points lead to a
plan, the membership settled on it or a delivery that aims at it (`Attended`).
-/

namespace BeauClick.Loyalty

open Locks ReadCommitted ReadCommitted.Versioned Runs Transactions Option
open Function (update update_self update_of_ne)

namespace Handler

variable {policy : LoyaltyPolicy} {tiers : TierTable} {plans : List MembershipPlanEntity}
  {E : EarningEvents} {env : HandlerEnv} {db db' : HandlerDb} {p q : ℕ} {e : EarningEvent}
  {userId : Uuid} {plan : MembershipPlanEntity} {i : AwardInput}

/-! ## The condition -/

/-- The delivery has yet to look at the user's membership, or to write it, and is going to leave it
on the plan. -/
def Aims (tiers : TierTable) (plans : List MembershipPlanEntity) (userId : Uuid)
    (plan : MembershipPlanEntity) : HandlerPlace → Prop
  | .syncing _ _ (.sync u lifetimeEarned) =>
    u = userId ∧ ∃ x ∈ linkedPlan tiers plans lifetimeEarned, x.id = plan.id
  | .syncing _ _ (.guard u x) => u = userId ∧ x.id = plan.id
  | .syncing _ _ (.activate i _) | .syncing _ _ (.existing i _ _) | .syncing _ _ (.upsert i _ _ _)
  | .syncing _ _ (.announce i _ _ _) | .syncing _ _ (.finish i _ true _) =>
    i.userId = userId ∧ i.planId = plan.id
  | _ => False

/-- The points of the user lead to no plan, or the membership is settled on theirs, or a delivery
aims at it: the one that is about to be at `place`, or another one. -/
def Attended (tiers : TierTable) (plans : List MembershipPlanEntity) (calls : ℕ → HandlerPlace)
    (pid : ℕ) (place : HandlerPlace) (userId : Uuid) (points : ℕ)
    (membership : Option MembershipEntity) : Prop :=
  ∀ plan ∈ linkedPlan tiers plans points, SettledOn plan membership ∨
    Aims tiers plans userId plan place ∨ ∃ q ≠ pid, Aims tiers plans userId plan (calls q)

/-- **The condition.**  The award is worth something; a delivery that finds its award made returns
when no other one of the event is at work; where an award commits, and where a delivery stops
between it and its sync, the user is attended to afterwards; and where a sync commits, the total
that it has used leads to the plan of the user's points, or another delivery aims at that plan. -/
def InTime (policy : LoyaltyPolicy) (tiers : TierTable) (plans : List MembershipPlanEntity)
    (s : System HandlerDb Unit HandlerPlace)
    (step : Step { e : EarningEvent // e ∈ E.events } HandlerEnv) : Prop :=
  match step.action, s.calls step.pid with
  | .statement _, .awarding _ (.award i) => i.basePoints policy ≠ 0
  | .statement _, .awarding e (.unawarded _) => ∀ q ≠ step.pid, (s.calls q).at? ≠ some e
  | .statement _, .awarding e (.finish i row _ lifetimeEarned _) =>
    Attended tiers plans s.calls step.pid (.syncing e lifetimeEarned (.sync i.userId lifetimeEarned))
      i.userId (s.db.ledger.lifetimePoints i.userId + row.earned)
      (s.db.members.memberships.committed i.userId)
  | .statement _, .syncing _ lifetimeEarned (.finish i .sync true _) =>
    ∀ plan ∈ linkedPlan tiers plans (s.db.ledger.lifetimePoints i.userId),
      (∃ x ∈ linkedPlan tiers plans lifetimeEarned, x.id = plan.id) ∨
        ∃ q ≠ step.pid, Aims tiers plans i.userId plan (s.calls q)
  | .die, .syncing e _ _ => ∀ i ∈ e.input,
    Attended tiers plans s.calls step.pid .failed i.userId (s.db.ledger.lifetimePoints i.userId)
      (s.db.members.memberships.committed i.userId)
  | _, _ => True

/-! ## What a delivery has read and written -/

/-- The delivery has written nothing. -/
structure Fresh (db : HandlerDb) (p : ℕ) : Prop where
  entries : db.ledger.pointsEntries.Untouched p
  memberships : db.members.memberships.Untouched p

/-- The delivery has entered its award. -/
structure Awards (db : HandlerDb) (p : ℕ) (e : EarningEvent) (i : AwardInput)
    (row : PointsEntryEntity) : Prop where
  input : e.input = some i
  userId : row.userId = i.userId
  entered : Entered db.ledger p i.reference row
  memberships : db.members.memberships.Untouched p

/-- What an award has written, place by place. -/
def AwardWork (db : HandlerDb) (p : ℕ) (e : EarningEvent) : LoyaltyPlace → Prop
  | .award i | .tierBefore i _ => e.input = some i ∧ Fresh db p
  | .unawarded i => e.input = some i ∧ Entry db i ∧ Fresh db p
  | .insert i row _ => e.input = some i ∧ row.userId = i.userId ∧ Fresh db p
  | .total i row _ | .announce i row _ _ | .cross i row _ _ | .announceTier i row _ _
  | .finish i row _ _ _ => Awards db p e i row
  | _ => False

/-- The sync has written the user's membership. -/
structure Upserts (db : MembershipDb) (p : ℕ) (i : ActivateInput) : Prop where
  written : ∃ m, db.memberships.Wrote p i.userId m ∧ m.status = .active ∧ m.planId = i.planId
  only : db.memberships.OnlyAt p i.userId

/-- What a sync has read and written, place by place. -/
def SyncAt (plans : List MembershipPlanEntity) (db : MembershipDb) (p : ℕ) (userId : Uuid) :
    MembershipPlace → Prop
  | .sync u _ => u = userId ∧ db.memberships.Untouched p
  | .guard u x => u = userId ∧ (x ∈ plans ∧ x.isActive = true) ∧ db.memberships.Untouched p
  | .activate i .sync => i.userId = userId ∧ (∃ x ∈ plans, x.id = i.planId ∧ x.isActive = true) ∧
      db.memberships.Untouched p
  | .existing i .sync _ => i.userId = userId ∧ db.memberships.Untouched p
  | .upsert i .sync _ m => i.userId = userId ∧ (m.status = .active ∧ m.planId = i.planId) ∧
      db.memberships.Untouched p
  | .announce i .sync _ _ | .finish i .sync true _ => i.userId = userId ∧ Upserts db p i
  | .finish i .sync false _ => i.userId = userId ∧ db.memberships.Untouched p
  | _ => False

/-- The plan of a sync is the one that its total leads to. -/
def Leads (tiers : TierTable) (plans : List MembershipPlanEntity) (lifetimeEarned : ℕ) :
    MembershipPlace → Prop
  | .sync _ total => total = lifetimeEarned
  | .guard _ x => x ∈ linkedPlan tiers plans lifetimeEarned
  | .activate i _ | .existing i _ _ | .upsert i _ _ _ | .announce i _ _ _ | .finish i _ _ _ =>
    ∃ x ∈ linkedPlan tiers plans lifetimeEarned, x.id = i.planId
  | _ => True

/-- The award has been committed, and the sync is on its way. -/
structure SyncWork (tiers : TierTable) (plans : List MembershipPlanEntity) (db : HandlerDb) (p : ℕ)
    (e : EarningEvent) (lifetimeEarned : ℕ) (place : MembershipPlace) : Prop where
  award : ∃ i, e.input = some i ∧ Entry db i ∧ SyncAt plans db.members p i.userId place
  entries : db.ledger.pointsEntries.Untouched p
  leads : Leads tiers plans lifetimeEarned place

/-- What a delivery has read and written at its place. -/
def HandlerWork (tiers : TierTable) (plans : List MembershipPlanEntity) (E : EarningEvents)
    (db : HandlerDb) (p : ℕ) : HandlerPlace → Prop
  | .awarding e place => e ∈ E.events ∧ AwardWork db p e place
  | .syncing e lifetimeEarned place =>
    e ∈ E.events ∧ SyncWork tiers plans db p e lifetimeEarned place
  | .returned e => Fresh db p ∧ ∀ i ∈ e.input, Entry db i
  | _ => Fresh db p

/-- The event whose award a delivery knows to be made. -/
def past? : HandlerPlace → Option EarningEvent
  | .syncing e _ _ | .returned e => some e
  | _ => none

/-- The entry of an event is the customer's. -/
def HandlerSound (E : EarningEvents) (db : HandlerDb) : Prop :=
  ∀ e ∈ E.events, ∀ i ∈ e.input, ∀ row, db.ledger.pointsEntries.committed i.reference = some row →
    row.userId = i.userId

/-- An award is worth something. -/
def Worth (policy : LoyaltyPolicy) : HandlerPlace → Prop
  | .awarding _ (.award i) => i.basePoints policy ≠ 0
  | _ => True

/-- What holds of the tables, and what a delivery relies on. -/
def handlerOutline (policy : LoyaltyPolicy) (tiers : TierTable)
    (plans : List MembershipPlanEntity) (E : EarningEvents) : Outline HandlerDb Unit HandlerPlace HandlerEnv where
  Assumes := fun _ _ _ place => Worth policy place
  Sound := HandlerSound E
  Guarantee := fun _ _ => True
  Work := HandlerWork tiers plans E
  holds := fun _ _ _ => False

/-! ## What a step leaves to the deliveries beside it -/

/-- What a delivery may count on when another one takes a step. -/
structure Beside (q : ℕ) (db db' : HandlerDb) : Prop where
  entries : Others q db.ledger.pointsEntries db'.ledger.pointsEntries
  memberships : Others q db.members.memberships db'.members.memberships
  stays : ∀ reference row, db.ledger.pointsEntries.committed reference = some row →
    db'.ledger.pointsEntries.committed reference = some row

section

variable (hb : Beside q db db')
include hb

theorem Fresh.beside (h : Fresh db q) : Fresh db' q :=
  ⟨hb.entries.untouched h.entries, hb.memberships.untouched h.memberships⟩

theorem Awards.beside {row : PointsEntryEntity} (h : Awards db q e i row) :
    Awards db' q e i row where
  input := h.input
  userId := h.userId
  entered := ⟨hb.entries.row_of h.entered.row, hb.entries.onlyAt h.entered.only⟩
  memberships := hb.memberships.untouched h.memberships

theorem entry_beside (h : Entry db i) : Entry db' i := by
  obtain ⟨row, hrow, huser⟩ := h
  exact ⟨row, hb.stays _ _ hrow, huser⟩

theorem awardWork_beside {place : LoyaltyPlace} (h : AwardWork db q e place) :
    AwardWork db' q e place := by
  cases place with
  | award | tierBefore => exact ⟨h.1, h.2.beside hb⟩
  | unawarded => exact ⟨h.1, entry_beside hb h.2.1, h.2.2.beside hb⟩
  | insert => exact ⟨h.1, h.2.1, h.2.2.beside hb⟩
  | total | announce | cross | announceTier | finish => exact Awards.beside hb h
  | _ => exact h.elim

theorem Upserts.beside {i : ActivateInput} (h : Upserts db.members q i) :
    Upserts db'.members q i := by
  obtain ⟨⟨m, hm, hact⟩, honly⟩ := h
  exact ⟨⟨m, hb.memberships.wrote_iff.2 hm, hact⟩, hb.memberships.onlyAt honly⟩

theorem syncAt_beside {place : MembershipPlace} (h : SyncAt plans db.members q userId place) :
    SyncAt plans db'.members q userId place := by
  have hunt := hb.memberships.untouched (p := q)
  cases place with
  | sync => exact ⟨h.1, hunt h.2⟩
  | guard => exact ⟨h.1, h.2.1, hunt h.2.2⟩
  | activate i caller =>
    cases caller with
    | explicit => exact h.elim
    | sync => exact ⟨h.1, h.2.1, hunt h.2.2⟩
  | existing i caller =>
    cases caller with
    | explicit => exact h.elim
    | sync => exact ⟨h.1, hunt h.2⟩
  | upsert i caller =>
    cases caller with
    | explicit => exact h.elim
    | sync => exact ⟨h.1, h.2.1, hunt h.2.2⟩
  | announce i caller =>
    cases caller with
    | explicit => exact h.elim
    | sync => exact ⟨h.1, h.2.beside hb⟩
  | finish i caller changed =>
    cases caller with
    | explicit => cases changed <;> exact h.elim
    | sync =>
      cases changed with
      | true => exact ⟨h.1, h.2.beside hb⟩
      | false => exact ⟨h.1, hunt h.2⟩
  | _ => exact h.elim

theorem handlerWork_beside {place : HandlerPlace} (h : HandlerWork tiers plans E db q place) :
    HandlerWork tiers plans E db' q place := by
  cases place with
  | idle | failed => exact Fresh.beside hb h
  | awarding => exact ⟨h.1, awardWork_beside hb h.2⟩
  | syncing =>
    obtain ⟨he, ⟨i, hin, hentry, hat⟩, hents, hleads⟩ := h
    exact ⟨he, ⟨i, hin, entry_beside hb hentry, syncAt_beside hb hat⟩,
      hb.entries.untouched hents, hleads⟩
  | returned => exact ⟨h.1.beside hb, fun i hi => entry_beside hb (h.2 i hi)⟩

end

section Statements

variable {place place' : HandlerPlace} {i : AwardInput} {row : PointsEntryEntity}

theorem keeps_of_beside (hs : HandlerSound E db') (hb : ∀ q ≠ p, Beside q db db') :
    (handlerOutline policy tiers plans E).Keeps db p place db' where
  sound := hs
  guarantee := trivial
  others := fun q _ hq _ hw => handlerWork_beside (hb q hq) hw

theorem keeps_of_committed (hs : HandlerSound E db)
    (hcomm : db'.ledger.pointsEntries.committed = db.ledger.pointsEntries.committed)
    (hothers : ∀ q ≠ p, Others q db.ledger.pointsEntries db'.ledger.pointsEntries ∧
      Others q db.members.memberships db'.members.memberships) :
    (handlerOutline policy tiers plans E).Keeps db p place db' := by
  refine keeps_of_beside ?_ fun q hq => ⟨(hothers q hq).1, (hothers q hq).2, ?_⟩
  · intro e he i hi row hrow
    rw [hcomm] at hrow
    exact hs e he i hi row hrow
  · intro reference row hrow
    rw [hcomm]
    exact hrow

theorem keeps_rollback (hs : HandlerSound E db) :
    (handlerOutline policy tiers plans E).Keeps db p place (db.rollback p) :=
  keeps_of_committed hs committed_rollback fun _ hq =>
    ⟨others_rollback hq, others_rollback hq⟩

theorem fresh_rollback : Fresh (db.rollback p) p := ⟨untouched_rollback, untouched_rollback⟩

theorem fresh_commit : Fresh (db.commit p) p := ⟨untouched_commit, untouched_commit⟩

/-! ## The statements -/

/-- What a statement keeps. -/
structure Passes (policy : LoyaltyPolicy) (tiers : TierTable) (plans : List MembershipPlanEntity)
    (E : EarningEvents) (db : HandlerDb) (p : ℕ) (place : HandlerPlace) (db' : HandlerDb)
    (place' : HandlerPlace) : Prop where
  keeps : (handlerOutline policy tiers plans E).Keeps db p place db'
  work : HandlerWork tiers plans E db' p place'
  entries : db'.ledger.pointsEntries.committed = db.ledger.pointsEntries.committed
  points : ∀ u, db'.ledger.lifetimePoints u = db.ledger.lifetimePoints u
  memberships : db'.members.memberships.committed = db.members.memberships.committed
  aims : ∀ u plan, Aims tiers plans u plan place →
    Aims tiers plans u plan place' ∨ SettledOn plan (db.members.memberships.committed u)
  past : past? place' = past? place

/-- What a delivery commits. -/
inductive Commits (tiers : TierTable) (plans : List MembershipPlanEntity) (db : HandlerDb) (p : ℕ) :
    HandlerPlace → HandlerPlace → Prop
  | found {e : EarningEvent} {i : AwardInput} (hinput : e.input = some i) (hentry : Entry db i)
      (hfresh : Fresh db p) :
      Commits tiers plans db p (.awarding e (.unawarded i)) (.returned e)
  | awarded {e : EarningEvent} {i : AwardInput} {row : PointsEntryEntity}
      {before lifetimeEarned : ℕ} {tierChanged : Bool} (h : Awards db p e i row) :
      Commits tiers plans db p (.awarding e (.finish i row before lifetimeEarned tierChanged))
        (.syncing e lifetimeEarned (.sync i.userId lifetimeEarned))
  | unlinked {e : EarningEvent} {u : Uuid} {total lifetimeEarned : ℕ}
      (hnone : linkedPlan tiers plans lifetimeEarned = none)
      (huntouched : db.members.memberships.Untouched p) :
      Commits tiers plans db p (.syncing e total (.sync u lifetimeEarned)) (.returned e)
  | settled {e : EarningEvent} {total : ℕ} {u : Uuid} {plan : MembershipPlanEntity}
      (hsettled : SettledOn plan (db.members.memberships.committed u))
      (huntouched : db.members.memberships.Untouched p) :
      Commits tiers plans db p (.syncing e total (.guard u plan)) (.returned e)
  | unchanged {e : EarningEvent} {total : ℕ} {i : ActivateInput} {membershipId : Option Uuid}
      (huntouched : db.members.memberships.Untouched p) :
      Commits tiers plans db p (.syncing e total (.finish i .sync false membershipId)) (.returned e)
  | synced {e : EarningEvent} {total : ℕ} {i : ActivateInput} {membershipId : Option Uuid}
      (h : Upserts db.members p i) (hleads : ∃ x ∈ linkedPlan tiers plans total, x.id = i.planId) :
      Commits tiers plans db p (.syncing e total (.finish i .sync true membershipId)) (.returned e)

/-- What a statement comes to: it goes on, or it waits, or it commits one of these. -/
abbrev Shown (policy : LoyaltyPolicy) (tiers : TierTable) (plans : List MembershipPlanEntity)
    (E : EarningEvents) (db : HandlerDb) (p : ℕ) (place : HandlerPlace) :
    Next HandlerDb Unit HandlerPlace → Prop :=
  Next.Ends (Passes policy tiers plans E db p place) (Commits tiers plans db p place) fun _ => False

section Award

variable {at' at'' : LoyaltyPlace} {ledger : LoyaltyDb}

section

variable (heq : ledger.pointsEntries = db.ledger.pointsEntries)
include heq

theorem passes_ledger (hs : HandlerSound E db)
    (hw : HandlerWork tiers plans E { db with ledger := ledger } p (.awarding e at'')) :
    Passes policy tiers plans E db p (.awarding e at') { db with ledger := ledger }
      (.awarding e at'') where
  keeps := by
    refine keeps_of_committed hs (congrArg committed heq) fun q _ => ⟨?_, .refl⟩
    rw [heq]
    exact .refl
  work := hw
  entries := congrArg committed heq
  points u := congrArg (fun t => committedTotal t (earnedBy u)) heq
  memberships := rfl
  aims := fun _ _ h => h.elim
  past := rfl

theorem Awards.of_entries (h : Awards db p e i row) :
    Awards { db with ledger := ledger } p e i row where
  input := h.input
  userId := h.userId
  entered := by
    refine ⟨?_, ?_⟩
    · rw [heq]
      exact h.entered.row
    · rw [heq]
      exact h.entered.only
  memberships := h.memberships

end

theorem exists_of_not_inserted (hfresh : Fresh db p)
    (hwaits : db.ledger.pointsEntries.insert p i.reference row (fun _ => False) ≠ .waits)
    (hdone : ∀ x t, db.ledger.pointsEntries.insert p i.reference row (fun _ => False) ≠ .done x t) :
    ∃ row, db.ledger.pointsEntries.committed i.reference = some row := by
  by_contra hnone
  have hget : db.ledger.pointsEntries.get p i.reference = none := by
    rw [hfresh.entries.get_eq]
    exact eq_none_iff_forall_not_mem.2 fun row hrow => hnone ⟨row, hrow⟩
  by_cases hlock : (db.ledger.pointsEntries.row i.reference).Locked p
  · exact hwaits (if_pos hlock)
  · have hfree : db.ledger.pointsEntries.writeChecked p i.reference row (fun _ => False) =
        .done row (db.ledger.pointsEntries.write p i.reference row) :=
      writeChecked_of_free fun _ _ _ _ h => h
    exact hdone row _ ((insert_eq_of_get hlock hget).trans hfree)

theorem shown_award (he : e ∈ E.events) (hs : HandlerSound E db)
    (hm : Worth policy (.awarding e at')) (hw : AwardWork db p e at') :
    Shown policy tiers plans E db p (.awarding e at')
      (handlerStatement policy tiers plans env db p (.awarding e at')) := by
  cases at' with
  | award =>
    simp only [handlerStatement, awardStatement]
    split
    · rename_i hzero
      exact absurd hzero hm
    · exact passes_ledger rfl hs ⟨he, hw⟩
  | unawarded => exact .found hw.1 hw.2.1 hw.2.2
  | tierBefore => exact passes_ledger rfl hs ⟨he, hw.1, rfl, hw.2⟩
  | insert i row before =>
    obtain ⟨hin, huser, hfresh⟩ := hw
    simp only [handlerStatement, awardStatement]
    split
    · trivial
    · rename_i hins
      obtain ⟨-, rfl, hlock, hget, -⟩ := insert_eq_done hins
      refine ⟨?_, ⟨he, hin, huser, entered_write hfresh.entries hget, hfresh.memberships⟩,
        committed_write, fun u => committedTotal_write, rfl, fun _ _ h => h.elim, rfl⟩
      exact keeps_of_committed hs committed_write fun q hq =>
        ⟨others_write hq hlock, .refl⟩
    · rename_i hwaits hdone
      -- the event has been awarded before
      obtain ⟨row', hrow'⟩ := exists_of_not_inserted hfresh hwaits hdone
      exact passes_ledger rfl hs ⟨he, hin, ⟨row', hrow', hs e he i hin row' hrow'⟩, hfresh⟩
  | total => exact passes_ledger rfl hs ⟨he, hw⟩
  | announce =>
    exact passes_ledger rfl hs ⟨he, Awards.of_entries rfl hw⟩
  | cross =>
    simp only [handlerStatement, awardStatement]
    split
    · exact passes_ledger rfl hs ⟨he, hw⟩
    · split
      · trivial
      · exact passes_ledger rfl hs ⟨he, Awards.of_entries rfl hw⟩
      · exact passes_ledger rfl hs ⟨he, hw⟩
  | announceTier =>
    exact passes_ledger rfl hs ⟨he, Awards.of_entries rfl hw⟩
  | finish => exact .awarded hw
  | _ => trivial

end Award

section Sync

variable {at' at'' : MembershipPlace} {lifetimeEarned : ℕ}

theorem passes_members {members : MembershipDb} (hs : HandlerSound E db)
    (heq : members.memberships = db.members.memberships)
    (hw : HandlerWork tiers plans E { db with members := members } p (.syncing e lifetimeEarned at''))
    (haims : ∀ u plan, Aims tiers plans u plan (.syncing e lifetimeEarned at') →
      Aims tiers plans u plan (.syncing e lifetimeEarned at'') ∨
        SettledOn plan (db.members.memberships.committed u)) :
    Passes policy tiers plans E db p (.syncing e lifetimeEarned at') { db with members := members }
      (.syncing e lifetimeEarned at'') where
  keeps := by
    refine keeps_of_committed hs rfl fun q _ => ⟨.refl, ?_⟩
    rw [heq]
    exact .refl
  work := hw
  entries := rfl
  points _ := rfl
  memberships := congrArg committed heq
  aims := haims
  past := rfl

theorem syncStatement_sync (db : MembershipDb) (u : Uuid) (lifetimeEarned : ℕ) :
    syncStatement tiers plans db p (.sync u lifetimeEarned) =
      match linkedPlan tiers plans lifetimeEarned with
      | none => .commits (.synced u false)
      | some plan => .goes db (.guard u plan) := by
  rw [syncStatement, linkedPlan]
  cases tiers.tierSlugForPoints lifetimeEarned with
  | none => rfl
  | some slug =>
    dsimp only
    cases tiers.findBySlug slug with
    | none | some => rfl

theorem linkedPlan_mem {lifetimeEarned : ℕ}
    (h : linkedPlan tiers plans lifetimeEarned = some plan) :
    plan ∈ plans ∧ plan.isActive = true := by
  rw [linkedPlan] at h
  split at h
  · cases h
  split at h
  · cases h
  rename_i tier htier
  have hfound := List.find?_some (p := fun x : MembershipPlanEntity =>
    decide (x.tierId = some tier.id ∧ x.isActive = true)) h
  exact ⟨List.mem_of_find?_eq_some h, (of_decide_eq_true hfound).2⟩

theorem overwrite_active {m : MembershipEntity} {old : Option MembershipEntity} {planId : Uuid}
    (h : m.status = .active ∧ m.planId = planId) :
    ((old.map fun x => x.overwrite m).getD m).status = .active ∧
      ((old.map fun x => x.overwrite m).getD m).planId = planId := by
  cases old with
  | none | some => exact h

section

variable {userId : Uuid} (hs : HandlerSound E db)
  (hkept : ∀ {members : MembershipDb} {place : MembershipPlace},
    SyncAt plans members p userId place → Leads tiers plans lifetimeEarned place →
      HandlerWork tiers plans E { db with members := members } p (.syncing e lifetimeEarned place))
  (hleads : Leads tiers plans lifetimeEarned at')
include hs hkept hleads

/-- The `activate` of a sync. -/
theorem shown_activate (env : HandlerEnv) (hat : SyncAt plans db.members p userId at') :
    Shown policy tiers plans E db p (.syncing e lifetimeEarned at')
      ((activateStatement plans env.members { db.members with clock := env.members.now } p at').map
        (fun members => { db with members := members })
        (HandlerPlace.afterSync e lifetimeEarned)) := by
  cases at' with
  | activate j caller =>
    cases caller with
    | explicit => exact hat.elim
    | sync =>
      obtain ⟨huser, ⟨x, hmem, hid, hact⟩, hunt⟩ := hat
      simp only [activateStatement]
      split
      · rename_i hnone
        refine absurd (List.find?_eq_none.1 hnone x hmem) ?_
        simp [hid, hact]
      · exact passes_members hs rfl (hkept ⟨huser, hunt⟩ hleads) fun _ _ h => Or.inl h
  | existing j caller =>
    cases caller with
    | explicit => exact hat.elim
    | sync =>
      obtain ⟨huser, hunt⟩ := hat
      simp only [activateStatement]
      split
      · exact passes_members hs rfl (hkept ⟨huser, ⟨rfl, rfl⟩, hunt⟩ hleads) fun _ _ h => Or.inl h
      · rename_i m hm
        split
        · rename_i hthere
          refine passes_members hs rfl (hkept ⟨huser, hunt⟩ hleads) ?_
          rintro u plan ⟨rfl, hid⟩
          rw [hunt.get_eq] at hm
          exact Or.inr ⟨m, hm, hthere.1, Or.inl (hthere.2.trans hid)⟩
        · exact passes_members hs rfl (hkept ⟨huser, ⟨rfl, rfl⟩, hunt⟩ hleads)
            fun _ _ h => Or.inl h
  | upsert j caller =>
    cases caller with
    | explicit => exact hat.elim
    | sync =>
      obtain ⟨huser, hact, hunt⟩ := hat
      simp only [activateStatement]
      split
      · trivial
      rename_i hlock
      refine ⟨?_, hkept ⟨huser, ⟨_, wrote_write_self, overwrite_active hact⟩,
        hunt.onlyAt.write⟩ hleads, rfl, fun _ => rfl, committed_write, fun _ _ h => Or.inl h,
        rfl⟩
      exact keeps_of_committed hs rfl fun q hq => ⟨.refl, others_write hq hlock⟩
  | announce j caller =>
    cases caller with
    | explicit => exact hat.elim
    | sync =>
      exact passes_members hs rfl (hkept ⟨hat.1, hat.2.written, hat.2.only⟩ hleads)
        fun _ _ h => Or.inl h
  | finish j caller changed =>
    cases caller with
    | explicit => cases changed <;> exact hat.elim
    | sync =>
      cases changed with
      | true => exact .synced hat.2 hleads
      | false => exact .unchanged hat.2
  | _ => trivial

end

theorem shown_sync (he : e ∈ E.events) (hs : HandlerSound E db)
    (hw : SyncWork tiers plans db p e lifetimeEarned at') :
    Shown policy tiers plans E db p (.syncing e lifetimeEarned at')
      (handlerStatement policy tiers plans env db p (.syncing e lifetimeEarned at')) := by
  obtain ⟨⟨i, hin, hentry, hat⟩, hents, hleads⟩ := hw
  -- what stays as it is, whatever the sync does
  have hkept : ∀ {members : MembershipDb} {place : MembershipPlace},
      SyncAt plans members p i.userId place → Leads tiers plans lifetimeEarned place →
        HandlerWork tiers plans E { db with members := members } p
          (.syncing e lifetimeEarned place) :=
    fun h hleads => ⟨he, ⟨i, hin, hentry, h⟩, hents, hleads⟩
  simp only [handlerStatement, membershipStatement]
  split
  · trivial
  cases at' with
  | sync =>
    cases hleads
    rw [statementAt, syncStatement_sync]
    split
    · rename_i hnone
      exact .unlinked hnone hat.2
    · rename_i x hx
      refine passes_members hs rfl (hkept ⟨hat.1, linkedPlan_mem hx, hat.2⟩ hx) ?_
      rintro u' plan ⟨rfl, _, hx', hid⟩
      cases hx.symm.trans hx'
      exact Or.inl ⟨rfl, hid⟩
  | guard u x =>
    obtain ⟨huser, ⟨hmem, hact⟩, hunt⟩ := hat
    simp only [statementAt, syncStatement]
    split
    · rename_i hstops
      rw [hunt.get_eq] at hstops
      exact .settled hstops hunt
    · exact passes_members hs rfl
        (hkept ⟨huser, ⟨x, hmem, rfl, hact⟩, hunt⟩ ⟨x, hleads, rfl⟩)
        fun _ _ h => Or.inl h
  | activate | existing | upsert | announce | finish =>
    exact shown_activate hs hkept hleads env hat
  | _ => exact hat.elim

end Sync

/-- What each statement of a delivery keeps. -/
theorem shown_statement (hs : HandlerSound E db) (hm : Worth policy place)
    (hw : HandlerWork tiers plans E db p place) :
    Shown policy tiers plans E db p place
      (handlerStatement policy tiers plans env db p place) := by
  cases place with
  | awarding => exact shown_award hw.1 hs hm hw.2
  | syncing => exact shown_sync hw.1 hs hw.2
  | _ => trivial

/-! ## The commits -/

theorem entries_commit (h : db.ledger.pointsEntries.Untouched p) :
    (db.commit p).ledger.pointsEntries.committed = db.ledger.pointsEntries.committed :=
  h.committed_commit

theorem keeps_commit_untouched (hs : HandlerSound E db) (h : db.ledger.pointsEntries.Untouched p) :
    (handlerOutline policy tiers plans E).Keeps db p place (db.commit p) :=
  keeps_of_committed hs (entries_commit h) fun _ hq =>
    ⟨others_commit hq, others_commit hq⟩

section

variable (h : Awards db p e i row)
include h

theorem Awards.committed :
    (db.commit p).ledger.pointsEntries.committed =
      update db.ledger.pointsEntries.committed i.reference (some row) :=
  committed_commit_of_onlyAt (wrote_of_row h.entered.row) h.entered.only

theorem Awards.fresh :
    db.ledger.pointsEntries.committed i.reference = none :=
  committed_of_row h.entered.row

theorem keeps_commit_award (he : e ∈ E.events) (hs : HandlerSound E db) :
    (handlerOutline policy tiers plans E).Keeps db p place (db.commit p) := by
  refine keeps_of_beside ?_ fun q hq => ⟨others_commit hq, others_commit hq, ?_⟩
  · intro e' he' i' hi' row' hrow'
    rw [h.committed] at hrow'
    by_cases href : i'.reference = i.reference
    · -- the event is the only one with this reference
      have hsame := E.own e' he' e he i' hi' i h.input href
      subst hsame
      cases some.inj (hi'.symm.trans h.input)
      rw [update_self] at hrow'
      cases hrow'
      exact h.userId
    · rw [update_of_ne href] at hrow'
      exact hs e' he' i' hi' row' hrow'
  · intro reference row' hrow'
    rw [h.committed]
    by_cases href : reference = i.reference
    · subst href
      cases h.fresh.symm.trans hrow'
    · rwa [update_of_ne href]

end

theorem work_commit (hw : HandlerWork tiers plans E db p place)
    (hc : Commits tiers plans db p place place') :
    HandlerWork tiers plans E (db.commit p) p place' := by
  cases hc with
  | found hin hentry hfresh =>
    refine ⟨fresh_commit, fun i hi => ?_⟩
    cases some.inj (hin.symm.trans hi)
    rw [Entry, entries_commit hfresh.entries]
    exact hentry
  | @awarded e i row before lifetimeEarned tierChanged h =>
    refine ⟨hw.1, ⟨i, h.input, ⟨row, ?_, h.userId⟩, rfl, untouched_commit⟩, untouched_commit, rfl⟩
    rw [h.committed, update_self]
  | _ =>
    -- a sync returns
    obtain ⟨-, ⟨⟨_, hin, hentry, -⟩, hents, -⟩⟩ := hw
    refine ⟨fresh_commit, fun i' hi' => ?_⟩
    cases some.inj (hin.symm.trans hi')
    rw [Entry, entries_commit hents]
    exact hentry

theorem keeps_commit (hs : HandlerSound E db) (hw : HandlerWork tiers plans E db p place)
    (hc : Commits tiers plans db p place place') :
    (handlerOutline policy tiers plans E).Keeps db p place (db.commit p) := by
  cases hc with
  | found hin hentry hfresh => exact keeps_commit_untouched hs hfresh.entries
  | awarded h => exact keeps_commit_award h hw.1 hs
  | _ => exact keeps_commit_untouched hs hw.2.entries

/-- Each statement of a delivery keeps it. -/
theorem handlerProof (policy : LoyaltyPolicy) (tiers : TierTable)
    (plans : List MembershipPlanEntity) (E : EarningEvents) :
    FreeProof (handlerService policy tiers plans E) (handlerOutline policy tiers plans E) where
  first := by
    rintro db p ⟨e, he⟩ hw
    have hfresh : Fresh db p := hw
    show HandlerWork tiers plans E db p e.first
    rw [EarningEvent.first]
    split
    · rename_i hnone
      refine ⟨hfresh, fun i hi => ?_⟩
      cases hnone.symm.trans hi
    · rename_i i hi
      exact ⟨he, hi, hfresh⟩
  statement := fun env db p place hm hs hw => (shown_statement hs hm hw).mono
    (fun _ _ h => ⟨h.keeps, h.work⟩) (fun _ _ _ h => h.elim)
    (fun _ h => ⟨keeps_commit hs hw h, work_commit hw h⟩) fun _ h => h.elim
  dies := fun db p place _ hs _ => ⟨keeps_rollback hs, fresh_rollback⟩

end Statements

/-! ## What the deliveries keep together -/

/-- Some event of the user has come to an entry. -/
def Known (E : EarningEvents) (db : HandlerDb) (userId : Uuid) : Prop :=
  ∃ e ∈ E.events, ∃ i ∈ e.input, i.userId = userId ∧ Entry db i

/-- A user with an entry is attended to, and while a delivery is between its award and its return,
no other one has got past the award of its event. -/
structure Steady (policy : LoyaltyPolicy) (tiers : TierTable) (plans : List MembershipPlanEntity)
    (E : EarningEvents) (s : System HandlerDb Unit HandlerPlace) : Prop where
  holds : (handlerOutline policy tiers plans E).Holds s
  attended : ∀ u, Known E s.db u →
    ∀ plan ∈ linkedPlan tiers plans (s.db.ledger.lifetimePoints u),
      SettledOn plan (s.db.members.memberships.committed u) ∨
        ∃ q, Aims tiers plans u plan (s.calls q)
  alone : ∀ q r e n at', s.calls q = .syncing e n at' → past? (s.calls r) = some e → r = q

section Together

variable {s s' : System HandlerDb Unit HandlerPlace} {place' : HandlerPlace} {i : AwardInput}
  {u : Uuid}

theorem entry_of_past (hw : HandlerWork tiers plans E db q place') (hpast : past? place' = some e)
    (hi : i ∈ e.input) : Entry db i := by
  cases place' with
  | syncing =>
    cases hpast
    obtain ⟨-, ⟨⟨_, hin, hentry, -⟩, -⟩⟩ := hw
    cases some.inj (hin.symm.trans hi)
    exact hentry
  | returned =>
    cases hpast
    exact hw.2 i hi
  | _ => cases hpast

theorem aims_user {at' : MembershipPlace} (hw : SyncWork tiers plans db p e lifetimeEarned at') (hi : i ∈ e.input)
    (haims : Aims tiers plans u plan (.syncing e lifetimeEarned at')) : i.userId = u := by
  obtain ⟨⟨_, hin, -, hat⟩, -⟩ := hw
  cases some.inj (hin.symm.trans hi)
  cases at' with
  | sync | guard => exact hat.1.symm.trans haims.1
  | activate j caller =>
    cases caller with
    | explicit => exact hat.elim
    | sync => exact hat.1.symm.trans haims.1
  | existing j caller =>
    cases caller with
    | explicit => exact hat.elim
    | sync => exact hat.1.symm.trans haims.1
  | upsert j caller =>
    cases caller with
    | explicit => exact hat.elim
    | sync => exact hat.1.symm.trans haims.1
  | announce j caller =>
    cases caller with
    | explicit => exact hat.elim
    | sync => exact hat.1.symm.trans haims.1
  | finish j caller changed =>
    cases changed with
    | false => exact haims.elim
    | true =>
      cases caller with
      | explicit => exact hat.elim
      | sync => exact hat.1.symm.trans haims.1
  | _ => exact hat.elim

theorem known_of_committed
    (h : db'.ledger.pointsEntries.committed = db.ledger.pointsEntries.committed)
    (hknown : Known E db' u) : Known E db u := by
  simpa only [Known, Entry, h] using hknown

theorem attended_same (h : Steady policy tiers plans E s)
    (hcalls : s'.calls = update s.calls p place')
    (hknown : Known E s'.db u → Known E s.db u)
    (hpoints : s'.db.ledger.lifetimePoints u = s.db.ledger.lifetimePoints u)
    (hmemberships : s'.db.members.memberships.committed u = s.db.members.memberships.committed u)
    (haims : ∀ plan ∈ linkedPlan tiers plans (s.db.ledger.lifetimePoints u),
      Aims tiers plans u plan (s.calls p) →
        SettledOn plan (s.db.members.memberships.committed u) ∨ Aims tiers plans u plan place' ∨
          ∃ q ≠ p, Aims tiers plans u plan (s.calls q)) (hentered : Known E s'.db u) :
    ∀ plan ∈ linkedPlan tiers plans (s'.db.ledger.lifetimePoints u),
      SettledOn plan (s'.db.members.memberships.committed u) ∨
        ∃ q, Aims tiers plans u plan (s'.calls q) := by
  rw [hpoints, hmemberships]
  intro plan hplan
  have hothers : (∃ q ≠ p, Aims tiers plans u plan (s.calls q)) →
      ∃ q, Aims tiers plans u plan (s'.calls q) := by
    rintro ⟨q, hq, haim⟩
    refine ⟨q, ?_⟩
    rwa [hcalls, update_of_ne hq]
  rcases h.attended u (hknown hentered) plan hplan with hsettle | ⟨q, haim⟩
  · exact Or.inl hsettle
  · by_cases hq : q = p
    · subst hq
      refine (haims plan hplan haim).imp_right ?_
      rintro (haim' | hother)
      · refine ⟨q, ?_⟩
        rwa [hcalls, update_self]
      · exact hothers hother
    · exact Or.inr (hothers ⟨q, hq, haim⟩)

theorem attended_of_condition {points : ℕ} {membership : Option MembershipEntity}
    (hcalls : s'.calls = update s.calls p place') (hpoints : s'.db.ledger.lifetimePoints u = points)
    (hmem : s'.db.members.memberships.committed u = membership)
    (h : Attended tiers plans s.calls p place' u points membership) :
    ∀ plan ∈ linkedPlan tiers plans (s'.db.ledger.lifetimePoints u),
      SettledOn plan (s'.db.members.memberships.committed u) ∨
        ∃ q, Aims tiers plans u plan (s'.calls q) := by
  rw [hpoints, hmem, hcalls]
  intro plan hplan
  refine (h plan hplan).imp_right ?_
  rintro (haim | ⟨q, hq, _⟩)
  · refine ⟨p, ?_⟩
    rwa [update_self]
  · refine ⟨q, ?_⟩
    rwa [update_of_ne hq]

theorem alone_update
    (h : ∀ q r e n at', s.calls q = .syncing e n at' → past? (s.calls r) = some e → r = q)
    (hcalls : s'.calls = update s.calls p place')
    (hpast : ∀ e, past? place' = some e → ∀ q ≠ p, ∀ n at', s.calls q ≠ .syncing e n at')
    (hsyncing : ∀ e n at', place' = .syncing e n at' → ∀ r ≠ p, past? (s.calls r) ≠ some e) :
    ∀ q r e n at', s'.calls q = .syncing e n at' → past? (s'.calls r) = some e → r = q := by
  intro q r e n at' hq hr
  rw [hcalls] at hq hr
  by_cases hqp : q = p <;> by_cases hrp : r = p
  · rw [hqp, hrp]
  · rw [hqp, update_self] at hq
    rw [update_of_ne hrp] at hr
    exact absurd hr (hsyncing e n at' hq r hrp)
  · rw [hrp, update_self] at hr
    rw [update_of_ne hqp] at hq
    exact absurd hq (hpast e hr q hqp n at')
  · rw [update_of_ne hqp] at hq
    rw [update_of_ne hrp] at hr
    exact h q r e n at' hq hr

end Together

/-! ## Every step -/

section Step

variable {s s' : System HandlerDb Unit HandlerPlace}
  {step : Step { e : EarningEvent // e ∈ E.events } HandlerEnv} {place' : HandlerPlace}
  {at' : MembershipPlace} {i : AwardInput} {lifetimeEarned : ℕ}

theorem meets_of_inTime (hm : InTime policy tiers plans s step) :
    (handlerOutline policy tiers plans E).Meets s step := by
  obtain ⟨pid, action⟩ := step
  cases action with
  | statement =>
    show Worth policy (s.calls pid)
    rw [InTime] at hm
    generalize s.calls pid = place at hm
    cases place with
    | awarding e at' =>
      cases at' with
      | award => exact hm
      | _ => trivial
    | _ => trivial
  | _ => trivial

section

variable (h : Steady policy tiers plans E s)
include h

theorem alone_past (hat : s.calls p = .syncing e lifetimeEarned at')
    (hpast : ∀ e', past? place' = some e' → e' = e) (hcalls : s'.calls = update s.calls p place') :
    ∀ q r e n at', s'.calls q = .syncing e n at' → past? (s'.calls r) = some e → r = q := by
  have hp : past? (s.calls p) = some e := by
    rw [hat]
    rfl
  refine alone_update h.alone hcalls ?_ ?_
  · intro e' he' q hq n at'' hsyncing
    cases hpast e' he'
    exact hq (h.alone q p e n at'' hsyncing hp).symm
  · intro e' n at'' hplace r hr hpast'
    have hsame : e' = e := hpast e' (by rw [hplace]; rfl)
    subst hsame
    exact hr (h.alone p r e' _ at' hat hpast')

theorem steady_goes (hholds : (handlerOutline policy tiers plans E).Holds (s.goes p db' place'))
    (hpasses : Passes policy tiers plans E s.db p (s.calls p) db' place')
    (hrun : (s.calls p).running = true) :
    Steady policy tiers plans E (s.goes p db' place') where
  holds := hholds
  attended u hentered := by
    refine attended_same h rfl (known_of_committed hpasses.entries) (hpasses.points u)
      (congrFun hpasses.memberships u) (fun plan _ haims => ?_) hentered
    rcases hpasses.aims u plan haims with haims' | hsettle
    · exact Or.inr (Or.inl haims')
    · exact Or.inl hsettle
  alone := by
    cases hplace : s.calls p with
    | syncing =>
      refine alone_past h hplace (fun e' he' => ?_) rfl
      rw [hpasses.past, hplace] at he'
      exact (some.inj he').symm
    | returned =>
      rw [hplace] at hrun
      cases hrun
    | _ =>
      have hnone : past? place' = none := by
        rw [hpasses.past, hplace]
        rfl
      refine alone_update h.alone rfl ?_ ?_
      · intro e' he'
        cases hnone.symm.trans he'
      · rintro e' n at' rfl
        cases hnone

theorem steady_starts (hidle : s.calls p = .idle)
    (hholds : (handlerOutline policy tiers plans E).Holds (s.goes p s.db e.first)) :
    Steady policy tiers plans E (s.goes p s.db e.first) where
  holds := hholds
  attended u hentered := by
    refine attended_same h rfl id rfl rfl (fun plan _ haims => ?_) hentered
    rw [hidle] at haims
    exact haims.elim
  alone := by
    refine alone_update h.alone rfl ?_ ?_
    · intro e' he' q hq n at' hsyncing
      -- an event that is past without an award earns nothing
      have hwork := h.holds.work q
      rw [hsyncing] at hwork
      obtain ⟨-, ⟨⟨_, hin, -⟩, -, -⟩⟩ := hwork
      rw [EarningEvent.first] at he'
      split at he'
      · rename_i hnone
        cases he'
        cases hnone.symm.trans hin
      · cases he'
    · intro e' n at' hfirst
      rw [EarningEvent.first] at hfirst
      split at hfirst <;> cases hfirst

/-- A delivery that ends without an entry of its own: the user's membership is as it was, or the
delivery attends to it. -/
theorem steady_ends
    (hholds : (handlerOutline policy tiers plans E).Holds (s.ends p db' place'))
    (hents : db'.ledger.pointsEntries.committed = s.db.ledger.pointsEntries.committed)
    (hpoints : ∀ u, db'.ledger.lifetimePoints u = s.db.ledger.lifetimePoints u)
    (hsame : ∀ u, Attended tiers plans s.calls p place' u (s.db.ledger.lifetimePoints u)
        (db'.members.memberships.committed u) ∨
      db'.members.memberships.committed u = s.db.members.memberships.committed u ∧
        ∀ plan ∈ linkedPlan tiers plans (s.db.ledger.lifetimePoints u),
          Aims tiers plans u plan (s.calls p) →
            SettledOn plan (s.db.members.memberships.committed u))
    (halone : ∀ q r e n at', (s.ends p db' place').calls q = .syncing e n at' →
      past? ((s.ends p db' place').calls r) = some e → r = q) :
    Steady policy tiers plans E (s.ends p db' place') where
  holds := hholds
  attended u hentered := by
    rcases hsame u with hattended | ⟨hmem, haims⟩
    · exact attended_of_condition rfl (hpoints u) rfl hattended
    · exact attended_same h rfl (known_of_committed hents) (hpoints u) hmem
        (fun plan hplan haim => Or.inl (haims plan hplan haim)) hentered
  alone := halone

end

theorem lifetimePoints_commit (hunt : db.ledger.pointsEntries.Untouched p) (u : Uuid) :
    (db.commit p).ledger.lifetimePoints u = db.ledger.lifetimePoints u :=
  committedTotal_commit_of_untouched hunt

section

variable (h : Steady policy tiers plans E s)
include h

theorem steady_awarded {row : PointsEntryEntity}
    {before lifetimeEarned : ℕ} {tierChanged : Bool}
    (hat : s.calls p = .awarding e (.finish i row before lifetimeEarned tierChanged))
    (hawards : Awards s.db p e i row)
    (hm : Attended tiers plans s.calls p (.syncing e lifetimeEarned (.sync i.userId lifetimeEarned)) i.userId
      (s.db.ledger.lifetimePoints i.userId + row.earned)
      (s.db.members.memberships.committed i.userId)) (hholds : (handlerOutline policy tiers plans E).Holds
      (s.ends p (s.db.commit p) (.syncing e lifetimeEarned (.sync i.userId lifetimeEarned)))) :
    Steady policy tiers plans E
      (s.ends p (s.db.commit p) (.syncing e lifetimeEarned (.sync i.userId lifetimeEarned))) where
  holds := hholds
  attended u hentered := by
    have hpoints := hawards.entered.lifetimePoints_commit u
    have hmem : (s.db.commit p).members.memberships.committed u =
        s.db.members.memberships.committed u :=
      congrFun hawards.memberships.committed_commit u
    by_cases hu : i.userId = u
    · subst hu
      have hearned : earnedBy i.userId row = row.earned := if_pos hawards.userId
      rw [hearned] at hpoints
      exact attended_of_condition rfl hpoints hmem hm
    · have hearned : earnedBy u row = 0 := if_neg (by rw [hawards.userId]; exact hu)
      rw [hearned] at hpoints
      refine attended_same h rfl ?_ hpoints hmem (fun plan _ haims => ?_) hentered
      · rintro ⟨e', he', i', hi', huser, row', hrow', hrowUser⟩
        refine ⟨e', he', i', hi', huser, row', ?_, hrowUser⟩
        have hcomm := congrFun hawards.committed i'.reference
        rw [update_of_ne] at hcomm
        · exact hcomm.symm.trans hrow'
        · -- the new entry is another customer's
          intro href
          have hmine : (s.db.commit p).ledger.pointsEntries.committed i'.reference = some row := by
            rw [hawards.committed, href, update_self]
          have hsame : row = row' := some.inj (hmine.symm.trans hrow')
          rw [← hsame] at hrowUser
          exact hu (hawards.userId.symm.trans (hrowUser.trans huser))
      · rw [hat] at haims
        exact haims.elim
  alone := by
    have hnone : ∀ q, past? (s.calls q) ≠ some e := by
      intro q hpast
      obtain ⟨_, hrow', -⟩ := entry_of_past (h.holds.work q) hpast hawards.input
      cases hawards.fresh.symm.trans hrow'
    refine alone_update h.alone rfl ?_ ?_
    · intro e' he' q _ n at' hsyncing
      cases he'
      exact hnone q (by rw [hsyncing]; rfl)
    · intro e' n at' hplace r _
      cases hplace
      exact hnone r

theorem steady_found (hat : s.calls p = .awarding e (.unawarded i)) (hfresh : Fresh s.db p)
    (hm : ∀ q ≠ p, (s.calls q).at? ≠ some e)
    (hholds : (handlerOutline policy tiers plans E).Holds (s.ends p (s.db.commit p) (.returned e))) :
    Steady policy tiers plans E (s.ends p (s.db.commit p) (.returned e)) := by
  refine steady_ends h hholds (entries_commit hfresh.entries)
    (lifetimePoints_commit hfresh.entries) (fun u => Or.inr ⟨?_, fun plan _ haims => ?_⟩) ?_
  · exact congrFun hfresh.memberships.committed_commit u
  · rw [hat] at haims
    exact haims.elim
  · refine alone_update h.alone rfl ?_ ?_
    · intro e' he' q hq n at' hsyncing
      cases he'
      exact hm q hq (by rw [hsyncing]; rfl)
    · intro e' n at' hplace
      cases hplace

theorem steady_returns (hat : s.calls p = .syncing e lifetimeEarned at')
    (hholds : (handlerOutline policy tiers plans E).Holds (s.ends p (s.db.commit p) (.returned e)))
    (hsame : ∀ u, Attended tiers plans s.calls p (.returned e) u (s.db.ledger.lifetimePoints u)
        ((s.db.commit p).members.memberships.committed u) ∨
      (s.db.commit p).members.memberships.committed u = s.db.members.memberships.committed u ∧
        ∀ plan ∈ linkedPlan tiers plans (s.db.ledger.lifetimePoints u),
          Aims tiers plans u plan (s.calls p) →
            SettledOn plan (s.db.members.memberships.committed u)) :
    Steady policy tiers plans E (s.ends p (s.db.commit p) (.returned e)) := by
  have hwork := h.holds.work p
  rw [hat] at hwork
  have hpast : ∀ e', past? (.returned e) = some e' → e' = e :=
    fun e' he' => (some.inj he').symm
  exact steady_ends h hholds (entries_commit hwork.2.entries)
    (lifetimePoints_commit hwork.2.entries) hsame (alone_past h hat hpast rfl)

theorem steady_commits (hm : InTime policy tiers plans s
      (⟨p, .statement env⟩ : Step { e : EarningEvent // e ∈ E.events } HandlerEnv))
    (hc : Commits tiers plans s.db p (s.calls p) place')
    (hholds : (handlerOutline policy tiers plans E).Holds (s.ends p (s.db.commit p) place')) :
    Steady policy tiers plans E (s.ends p (s.db.commit p) place') := by
  rw [InTime] at hm
  have hwork := h.holds.work p
  generalize hat : s.calls p = place at hc hm hwork
  cases hc with
  | found hin hentry hfresh => exact steady_found h hat hfresh hm hholds
  | awarded hawards => exact steady_awarded h hat hawards hm hholds
  | @unlinked e total u lifetimeEarned hnone hunt =>
    refine steady_returns h hat hholds fun u' => Or.inr ⟨?_, fun plan _ haims => ?_⟩
    · exact congrFun hunt.committed_commit u'
    · rw [hat] at haims
      obtain ⟨-, x, hx, -⟩ := haims
      cases hnone.symm.trans hx
  | @settled e total u x hsettle hunt =>
    refine steady_returns h hat hholds fun u' => Or.inr ⟨?_, fun plan _ haims => ?_⟩
    · exact congrFun hunt.committed_commit u'
    · rw [hat] at haims
      obtain ⟨rfl, hid⟩ := haims
      obtain ⟨m, hmem, hact, hstops⟩ := hsettle
      refine ⟨m, hmem, hact, ?_⟩
      rw [← hid]
      exact hstops
  | unchanged hunt =>
    refine steady_returns h hat hholds fun u' => Or.inr ⟨?_, fun plan _ haims => ?_⟩
    · exact congrFun hunt.committed_commit u'
    · rw [hat] at haims
      exact haims.elim
  | @synced e total j membershipId hupserts hleads =>
    refine steady_returns h hat hholds fun u => ?_
    by_cases hu : j.userId = u
    · subst hu
      left
      have hcomm : (s.db.commit p).members.memberships.committed j.userId =
          s.db.members.memberships.get p j.userId := committed_commit
      rw [hcomm]
      intro plan hplan
      rcases hm plan hplan with ⟨_, hx, hid⟩ | haims
      · -- the row that is written is on the plan of the total
        obtain ⟨⟨m, hwrote, hact, hplanId⟩, -⟩ := hupserts
        obtain ⟨_, hx', hid'⟩ := hleads
        cases some.inj (hx.symm.trans hx')
        exact Or.inl ⟨m, hwrote.get_eq, hact, Or.inl (hplanId.trans (hid'.symm.trans hid))⟩
      · exact Or.inr (Or.inr haims)
    · refine Or.inr ⟨?_, fun plan _ haims => ?_⟩
      · refine committed_commit_of_not fun hwrit => ?_
        exact hu (hupserts.only u hwrit).symm
      · rw [hat] at haims
        exact absurd haims.1 hu

theorem steady_dies
    (hm : InTime policy tiers plans s
      (⟨p, .die⟩ : Step { e : EarningEvent // e ∈ E.events } HandlerEnv))
    (hholds : (handlerOutline policy tiers plans E).Holds (s.ends p (s.db.rollback p) .failed)) :
    Steady policy tiers plans E (s.ends p (s.db.rollback p) .failed) := by
  rw [InTime] at hm
  have hmem : ∀ u, (s.db.rollback p).members.memberships.committed u =
      s.db.members.memberships.committed u := congrFun committed_rollback
  have hwork := h.holds.work p
  refine steady_ends h hholds committed_rollback (fun _ => committedTotal_rollback) (fun u => ?_) ?_
  · cases hat : s.calls p with
    | syncing =>
      rw [hat] at hm hwork
      obtain ⟨i, hin, -, -⟩ := hwork.2.award
      by_cases hu : i.userId = u
      · subst hu
        left
        rw [hmem]
        exact hm i hin
      · exact Or.inr ⟨hmem u, fun plan _ haims =>
          absurd (aims_user hwork.2 hin haims) hu⟩
    | _ => exact Or.inr ⟨hmem u, fun plan _ haims => haims.elim⟩
  · refine alone_update h.alone rfl ?_ ?_
    · intro e' he'
      cases he'
    · intro e' n at' hplace
      cases hplace

/-- A step in time keeps what has been delivered settled. -/
theorem steady_step (hm : InTime policy tiers plans s step)
    (hstep : (handlerService policy tiers plans E).step s step = some s') :
    Steady policy tiers plans E s' := by
  have hholds : (handlerOutline policy tiers plans E).Holds s' :=
    ((handlerProof policy tiers plans E).proof.holds_step h.holds (meets_of_inTime hm) hstep).1
  have hshown : ∀ env pid, Worth policy (s.calls pid) → Shown policy tiers plans E s.db pid
      (s.calls pid) (handlerStatement policy tiers plans env s.db pid (s.calls pid)) :=
    fun _ pid hm => shown_statement h.holds.sound hm (h.holds.work pid)
  cases Service.took_of_step hstep with
  | starts pid request hidle => exact steady_starts h hidle hholds
  | goes pid env db place hst =>
    refine steady_goes h hholds ((hshown env pid (meets_of_inTime hm)).of_goes hst) ?_
    cases hat : s.calls pid with
    | awarding | syncing => rfl
    | _ =>
      rw [hat] at hst
      cases hst
  | locks pid env key mode place hst =>
    exact ((hshown env pid (meets_of_inTime hm)).of_locks hst).elim
  | commits pid env place hst =>
    exact steady_commits h hm ((hshown env pid (meets_of_inTime hm)).of_commits hst) hholds
  | throws pid env place hst => exact ((hshown env pid (meets_of_inTime hm)).of_throws hst).elim
  | dies => exact steady_dies h hm hholds

end

end Step

/-! ## Every run -/

section Run

variable {s : System HandlerDb Unit HandlerPlace}

/-- What is kept together suffices: a delivery that aims at a membership is at work, and it is the
only one that has got past the award of its event. -/
theorem converged_of_steady (h : Steady policy tiers plans E s) : Converged tiers plans E s := by
  rintro u ⟨e, he, i, hi, huser⟩ hret
  have hents : ∀ e ∈ E.events, ∀ i ∈ e.input, i.userId = u → Entry s.db i := by
    intro e he i hi huser
    obtain ⟨r, hr⟩ := hret e he i hi huser
    exact entry_of_past (h.holds.work r) (by rw [hr]; rfl) hi
  refine ⟨hents, fun plan hplan => ?_⟩
  rcases h.attended u ⟨e, he, i, hi, huser, hents e he i hi huser⟩ plan hplan with
    hsettle | ⟨q, haims⟩
  · exact hsettle
  · exfalso
    have hwork := h.holds.work q
    cases hat : s.calls q with
    | syncing e' n at' =>
      rw [hat] at haims hwork
      obtain ⟨i', hin, -⟩ := hwork.2.award
      obtain ⟨r, hr⟩ := hret e' hwork.1 i' hin (aims_user hwork.2 hin haims)
      have hsame : r = q := h.alone q r e' n at' hat (by rw [hr]; rfl)
      rw [hsame, hat] at hr
      cases hr
    | _ =>
      rw [hat] at haims
      exact haims.elim

theorem steady_start (memberships : List (Uuid × MembershipEntity)) :
    Steady policy tiers plans E
      ((handlerService policy tiers plans E).start (.before memberships)) where
  holds := by
    refine (handlerProof policy tiers plans E).proof.holds_start ?_ fun _ => ?_
    · intro e _ i _ row hrow
      cases hrow
    · exact ⟨untouched_empty, untouched_ofRows⟩
  attended := by
    rintro u ⟨e, -, _, -, -, _, hrow, -⟩
    cases hrow
  alone := by
    intro q r e n at' hq
    cases hq

end Run

end Handler

open Handler

variable {policy : LoyaltyPolicy} {tiers : TierTable} {plans : List MembershipPlanEntity}
  {E : EarningEvents}

/-- **Points and membership converge as long as every user stays attended to.**  Whatever is
delivered in whatever order, again and at the same time: in a run whose steps are in time, once
every event of a user has a delivery that returned, each of them has its entry, and the membership
of a user without one of another source is on the plan that their points lead to. -/
theorem converged_run (memberships : List (Uuid × MembershipEntity))
    {es : List (Step { e : EarningEvent // e ∈ E.events } HandlerEnv)}
    (hintime : Along (handlerService policy tiers plans E).step (InTime policy tiers plans)
      ((handlerService policy tiers plans E).start (.before memberships)) es) :
    Throughout (handlerService policy tiers plans E).step (Converged tiers plans E)
      ((handlerService policy tiers plans E).start (.before memberships)) es :=
  throughout_of_along (I := Steady policy tiers plans E) (fun _ => converged_of_steady)
    (fun _ _ _ h hm hstep => steady_step h hm hstep) (steady_start memberships) hintime

/-! ## Deliveries one by one -/

/-- Nothing is committed between an award and its sync, no event is delivered again, and nothing
stops. -/
def OneByOne (policy : LoyaltyPolicy) (s : System HandlerDb Unit HandlerPlace)
    (step : Step { e : EarningEvent // e ∈ E.events } HandlerEnv) : Prop :=
  match step.action, s.calls step.pid with
  | .statement _, .awarding _ (.award i) => i.basePoints policy ≠ 0
  | .statement _, .awarding _ (.unawarded _) => False
  | .statement _, .awarding _ (.finish i row _ lifetimeEarned _) =>
    lifetimeEarned = s.db.ledger.lifetimePoints i.userId + row.earned
  | .statement _, .syncing _ lifetimeEarned (.finish i .sync true _) =>
    lifetimeEarned = s.db.ledger.lifetimePoints i.userId
  | .die, _ => False
  | _, _ => True

instance (s : System HandlerDb Unit HandlerPlace)
    (step : Step { e : EarningEvent // e ∈ E.events } HandlerEnv) :
    Decidable (OneByOne policy s step) := by
  unfold OneByOne
  split <;> infer_instance

theorem inTime_of_oneByOne {s : System HandlerDb Unit HandlerPlace}
    {step : Step { e : EarningEvent // e ∈ E.events } HandlerEnv}
    (h : OneByOne policy s step) : InTime policy tiers plans s step := by
  obtain ⟨pid, action⟩ := step
  cases action with
  | start => trivial
  | die => exact h.elim
  | statement =>
    rw [OneByOne] at h
    rw [InTime]
    generalize s.calls pid = place at h ⊢
    cases place with
    | awarding e at' =>
      cases at' with
      | award => exact h
      | unawarded => exact h.elim
      | finish =>
        exact fun plan hplan => Or.inr (Or.inl ⟨rfl, plan, h ▸ hplan, rfl⟩)
      | _ => trivial
    | syncing e lifetimeEarned at' =>
      cases at' with
      | finish i caller changed =>
        cases caller with
        | explicit => trivial
        | sync =>
          cases changed with
          | true => exact fun plan hplan => Or.inl ⟨plan, h ▸ hplan, rfl⟩
          | false => trivial
      | _ => trivial
    | _ => trivial

namespace Silver

open Bookings

/-- A completed booking and a paid order of one customer. -/
def earned : EarningEvents where
  events := [.bookingCompleted 100 9, .orderPaid .direct 200 9]
  own := by decide

/-- The plan of the tier. -/
def plan : MembershipPlanEntity := ⟨5, "silver", some 1, none, true⟩

/-- The statements of a delivery. -/
def delivers (pid n : ℕ) : List (Step { e : EarningEvent // e ∈ earned.events } HandlerEnv) :=
  List.replicate n ⟨pid, .statement ⟨⟨0, []⟩, ⟨0, 70, []⟩⟩⟩

/-- The second award leads to the tier. -/
def oneByOne : List (Step { e : EarningEvent // e ∈ earned.events } HandlerEnv) :=
  ⟨1, .start ⟨.bookingCompleted 100 9, by decide⟩⟩ :: delivers 1 8 ++
    ⟨2, .start ⟨.orderPaid .direct 200 9, by decide⟩⟩ :: delivers 2 15

/-- The second delivery stops before its sync, and the event is delivered again. -/
def stopped : List (Step { e : EarningEvent // e ∈ earned.events } HandlerEnv) :=
  ⟨1, .start ⟨.bookingCompleted 100 9, by decide⟩⟩ :: delivers 1 8 ++
    ⟨2, .start ⟨.orderPaid .direct 200 9, by decide⟩⟩ :: delivers 2 8 ++
    ⟨2, .die⟩ :: ⟨3, .start ⟨.orderPaid .direct 200 9, by decide⟩⟩ :: delivers 3 4

end Silver

theorem converged_run_oneByOne :
    Throughout (handlerService {} Bookings.silver [Silver.plan] Silver.earned).step
      (Converged Bookings.silver [Silver.plan] Silver.earned)
      ((handlerService {} Bookings.silver [Silver.plan] Silver.earned).start (.before []))
      Silver.oneByOne := by
  have hone : Along (handlerService {} Bookings.silver [Silver.plan] Silver.earned).step
      (OneByOne {})
      ((handlerService {} Bookings.silver [Silver.plan] Silver.earned).start (.before []))
      Silver.oneByOne := by
    decide +kernel
  exact converged_run [] (hone.of_invariant (I := fun _ => True) (fun _ _ _ _ _ _ => trivial)
    (fun _ _ _ => inTime_of_oneByOne) trivial)

/-- The award is there when the event comes again, and nobody syncs. -/
theorem converged_stopped_fails : ∃ s,
    runFrom (handlerService {} Bookings.silver [Silver.plan] Silver.earned).step
      ((handlerService {} Bookings.silver [Silver.plan] Silver.earned).start (.before []))
      Silver.stopped = some s ∧
    ¬Converged Bookings.silver [Silver.plan] Silver.earned s := by
  obtain ⟨s, hs, hfirst, hagain, hpoints, hnone⟩ :
      ∃ s ∈ runFrom (handlerService {} Bookings.silver [Silver.plan] Silver.earned).step
        ((handlerService {} Bookings.silver [Silver.plan] Silver.earned).start (.before []))
        Silver.stopped, s.calls 1 = .returned (.bookingCompleted 100 9) ∧
        s.calls 3 = .returned (.orderPaid .direct 200 9) ∧ s.db.ledger.lifetimePoints 9 = 20 ∧
        s.db.members.memberships.committed 9 = none := by
    decide +kernel
  refine ⟨s, hs, fun h => ?_⟩
  have hsettle := (h 9 ⟨.bookingCompleted 100 9, by decide, _, rfl, rfl⟩ ?_).2 Silver.plan ?_
  · obtain ⟨_, hm, -⟩ := hsettle
    cases hnone.symm.trans hm
  · intro e he _ _ _
    rcases List.mem_pair.1 he with rfl | rfl
    · exact ⟨1, hfirst⟩
    · exact ⟨3, hagain⟩
  · rw [hpoints]
    decide +kernel

end BeauClick.Loyalty
