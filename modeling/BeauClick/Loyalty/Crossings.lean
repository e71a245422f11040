import BeauClick.Loyalty.Ledger

/-!
# Tier crossings follow the ledger

A crossing is recorded by the award whose total reaches the threshold.

* `TiersFollowed` — the crossings of a user lead from tier to tier.
* `LoyaltyWork` — what an award or a reversal has written.
* `keeps_finish_true` — the commit of an award that crosses.
* `tiersFollowed_run` — what a run keeps whose awards count every other award.
-/

namespace BeauClick.Loyalty

open Locks ReadCommitted ReadCommitted.Versioned Runs Transactions Journal List Function

variable {policy : LoyaltyPolicy} {tiers : TierTable} {env : LoyaltyEnv} {db db' : LoyaltyDb}
  {p q before : ℕ} {place place' : LoyaltyPlace} {userId : Uuid} {x : TierCrossingEntity}
  {reference : Reference} {e : PointsEntryEntity} {i : AwardInput}

/-! ## Crossings in order -/

/-- The crossings lead from one tier to another. -/
def Chain : Option String → List TierCrossingEntity → Option String → Prop
  | start, [], last => start = last
  | start, x :: xs, last => x.fromTierSlug = start ∧ Chain x.toTierSlug xs last

instance Chain.decidable : ∀ start xs last, Decidable (Chain start xs last)
  | start, [], last => inferInstanceAs (Decidable (start = last))
  | start, x :: xs, last =>
    haveI := Chain.decidable x.toTierSlug xs last
    inferInstanceAs (Decidable (x.fromTierSlug = start ∧ Chain x.toTierSlug xs last))

theorem Chain.concat {start : Option String} {xs : List TierCrossingEntity}
    (h : Chain start xs x.fromTierSlug) : Chain start (xs ++ [x]) x.toTierSlug := by
  induction xs generalizing start with
  | nil => exact ⟨h.symm, rfl⟩
  | cons y ys ih => exact ⟨h.1, ih h.2⟩

/-- The crossings that events tell of. -/
def changes (events : List LoyaltyEvent) : List TierCrossingEntity :=
  events.filterMap LoyaltyEvent.crossing?

/-- The crossings of a user, in the order of their commits. -/
def changesOf (db : LoyaltyDb) (userId : Uuid) : List TierCrossingEntity :=
  (changes db.outbox.committed).filter fun x => x.userId = userId

/-- The crossings lead from the first tier to the current one, each of them has one event, and no
tier is entered twice. -/
structure TiersFollowed (tiers : TierTable) (db : LoyaltyDb) : Prop where
  chain : ∀ userId, Chain (tiers.tierSlugForPoints 0) (changesOf db userId)
    (tiers.tierSlugForPoints (db.lifetimePoints userId))
  recorded : ∀ key x, db.tierCrossings.committed key = some x ↔
    key = x.key ∧ x ∈ changes db.outbox.committed
  entered : ∀ userId,
    (tiers.tierSlugForPoints 0 :: (changesOf db userId).map (·.toTierSlug)).Nodup

/-- The same, and the points at which each tier was entered are still there. -/
structure LoyaltySound (tiers : TierTable) (db : LoyaltyDb) : Prop extends
    TiersFollowed tiers db where
  reached : ∀ x ∈ changes db.outbox.committed,
    x.toTierSlug = tiers.tierSlugForPoints x.lifetimeEarned ∧
      x.lifetimeEarned ≤ db.lifetimePoints x.userId

/-! ## What a call has written -/

/-- The call has written nothing. -/
structure Clean (db : LoyaltyDb) (p : ℕ) : Prop where
  entries : db.pointsEntries.Untouched p
  crossings : db.tierCrossings.Untouched p
  outbox : db.outbox.pending p = []

/-- The call has written one new entry. -/
structure Entered (db : LoyaltyDb) (p : ℕ) (reference : Reference) (e : PointsEntryEntity) :
    Prop where
  row : db.pointsEntries.row reference = ⟨none, some (p, e)⟩
  only : db.pointsEntries.OnlyAt p reference

/-- The call has entered the award, which was worth more than `before` when it read that. -/
structure Awarding (db : LoyaltyDb) (p : ℕ) (i : AwardInput) (e : PointsEntryEntity)
    (before : ℕ) : Prop where
  entered : Entered db p i.reference e
  userId : e.userId = i.userId
  known : before ≤ db.lifetimePoints i.userId

/-- And the total that it has read since lies between. -/
structure Counted (db : LoyaltyDb) (p : ℕ) (i : AwardInput) (e : PointsEntryEntity)
    (before lifetimeEarned : ℕ) : Prop extends Awarding db p i e before where
  least : before + e.earned ≤ lifetimeEarned
  most : lifetimeEarned ≤ db.lifetimePoints i.userId + e.earned

/-- The call has written one new crossing. -/
structure Crossed (db : LoyaltyDb) (p : ℕ) (x : TierCrossingEntity) : Prop where
  row : db.tierCrossings.row x.key = ⟨none, some (p, x)⟩
  only : db.tierCrossings.OnlyAt p x.key

/-- What a call has read and written, place by place. -/
def LoyaltyWork (tiers : TierTable) (db : LoyaltyDb) (p : ℕ) : LoyaltyPlace → Prop
  | .insert i e before =>
    Clean db p ∧ e.userId = i.userId ∧ before ≤ db.lifetimePoints i.userId
  | .total i e before => Awarding db p i e before ∧ db.tierCrossings.Untouched p ∧
      db.outbox.pending p = []
  | .announce i e before lifetimeEarned => Counted db p i e before lifetimeEarned ∧
      db.tierCrossings.Untouched p ∧ db.outbox.pending p = []
  | .cross i e before lifetimeEarned => Counted db p i e before lifetimeEarned ∧
      db.tierCrossings.Untouched p ∧ changes (db.outbox.pending p) = []
  | .announceTier i e before lifetimeEarned => Counted db p i e before lifetimeEarned ∧
      Crossed db p (crossing tiers i.userId before lifetimeEarned) ∧
      tiers.tierSlugForPoints lifetimeEarned ≠ tiers.tierSlugForPoints before ∧
      changes (db.outbox.pending p) = []
  | .finish i e before lifetimeEarned true => Counted db p i e before lifetimeEarned ∧
      Crossed db p (crossing tiers i.userId before lifetimeEarned) ∧
      tiers.tierSlugForPoints lifetimeEarned ≠ tiers.tierSlugForPoints before ∧
      changes (db.outbox.pending p) = [crossing tiers i.userId before lifetimeEarned]
  | .finish i e before lifetimeEarned false => Counted db p i e before lifetimeEarned ∧
      db.tierCrossings.Untouched p ∧ changes (db.outbox.pending p) = [] ∧
      (tiers.tierSlugForPoints lifetimeEarned = tiers.tierSlugForPoints before ∨
        db.tierCrossings.committed (crossing tiers i.userId before lifetimeEarned).key ≠ none)
  | .finishReverse _ _ => db.tierCrossings.Untouched p ∧ db.outbox.pending p = [] ∧
      (db.pointsEntries.Untouched p ∨ ∃ reference e, Entered db p reference e ∧ e.earned = 0)
  | _ => Clean db p

/-- What has been committed for the user since the award read their tier makes no difference to
it, neither without the award nor with it; and a reversal takes back what was given. -/
def Undisturbed (tiers : TierTable) (db : LoyaltyDb) : LoyaltyPlace → Prop
  | .finish i e before _ _ =>
    tiers.tierSlugForPoints (db.lifetimePoints i.userId) = tiers.tierSlugForPoints before ∧
      tiers.tierSlugForPoints (db.lifetimePoints i.userId + e.earned) =
        tiers.tierSlugForPoints (before + e.earned)
  | .takeBack _ original => 0 ≤ original.points
  | _ => True

/-- What holds of the tables, and what a call relies on. -/
def loyaltyOutline (tiers : TierTable) : Outline LoyaltyDb Unit LoyaltyPlace LoyaltyEnv where
  Assumes := fun _ db _ place => Undisturbed tiers db place
  Sound := LoyaltySound tiers
  Guarantee := fun _ _ => True
  Work := LoyaltyWork tiers
  holds := fun _ _ _ => False

/-! ## What a step leaves to the calls beside it -/

/-- What the step of another call leaves to a call. -/
structure Beside (q : ℕ) (db db' : LoyaltyDb) : Prop where
  entries : Others q db.pointsEntries db'.pointsEntries
  crossings : Others q db.tierCrossings db'.tierCrossings
  outbox : db'.outbox.pending q = db.outbox.pending q
  lifetime : ∀ userId, db.lifetimePoints userId ≤ db'.lifetimePoints userId
  stays : ∀ key, db.tierCrossings.committed key ≠ none → db'.tierCrossings.committed key ≠ none

theorem Clean.beside (h : Clean db q) (hb : Beside q db db') : Clean db' q :=
  ⟨hb.entries.untouched h.entries, hb.crossings.untouched h.crossings, hb.outbox.trans h.outbox⟩

theorem Entered.beside (h : Entered db q reference e) (hb : Beside q db db') :
    Entered db' q reference e :=
  ⟨hb.entries.row_of h.row, hb.entries.onlyAt h.only⟩

theorem Crossed.beside (h : Crossed db q x) (hb : Beside q db db') : Crossed db' q x :=
  ⟨hb.crossings.row_of h.row, hb.crossings.onlyAt h.only⟩

section Award

variable {i : AwardInput} {e : PointsEntryEntity} {before lifetimeEarned : ℕ}

theorem Awarding.beside (h : Awarding db q i e before) (hb : Beside q db db') :
    Awarding db' q i e before :=
  ⟨h.entered.beside hb, h.userId, h.known.trans (hb.lifetime i.userId)⟩

theorem Counted.beside (h : Counted db q i e before lifetimeEarned) (hb : Beside q db db') :
    Counted db' q i e before lifetimeEarned :=
  ⟨h.toAwarding.beside hb, h.least, h.most.trans (Nat.add_le_add_right (hb.lifetime i.userId) _)⟩

theorem Counted.of_entries (h : Counted db p i e before lifetimeEarned)
    (heq : db'.pointsEntries = db.pointsEntries) : Counted db' p i e before lifetimeEarned := by
  obtain ⟨⟨⟨hrow, honly⟩, huser, hknown⟩, hleast, hmost⟩ := h
  have hlife : db'.lifetimePoints i.userId = db.lifetimePoints i.userId :=
    congrArg (fun t => committedTotal t (earnedBy i.userId)) heq
  refine ⟨⟨⟨?_, ?_⟩, huser, ?_⟩, hleast, ?_⟩
  · rw [heq]
    exact hrow
  · rw [heq]
    exact honly
  · rw [hlife]
    exact hknown
  · rw [hlife]
    exact hmost

end Award

theorem loyaltyWork_beside (h : LoyaltyWork tiers db q place) (hb : Beside q db db') :
    LoyaltyWork tiers db' q place := by
  have hpend := hb.outbox
  cases place with
  | insert i =>
    exact ⟨h.1.beside hb, h.2.1, h.2.2.trans (hb.lifetime i.userId)⟩
  | total | announce =>
    exact ⟨h.1.beside hb, hb.crossings.untouched h.2.1, hpend.trans h.2.2⟩
  | cross =>
    refine ⟨h.1.beside hb, hb.crossings.untouched h.2.1, ?_⟩
    rw [hpend]
    exact h.2.2
  | announceTier =>
    refine ⟨h.1.beside hb, h.2.1.beside hb, h.2.2.1, ?_⟩
    rw [hpend]
    exact h.2.2.2
  | finish i e before lifetimeEarned tierChanged =>
    cases tierChanged with
    | true =>
      refine ⟨h.1.beside hb, h.2.1.beside hb, h.2.2.1, ?_⟩
      rw [hpend]
      exact h.2.2.2
    | false =>
      refine ⟨h.1.beside hb, hb.crossings.untouched h.2.1, ?_, h.2.2.2.imp_right (hb.stays _)⟩
      rw [hpend]
      exact h.2.2.1
  | finishReverse =>
    refine ⟨hb.crossings.untouched h.1, hpend.trans h.2.1, ?_⟩
    rcases h.2.2 with hunt | ⟨reference, e, hentered, hearned⟩
    · exact Or.inl (hb.entries.untouched hunt)
    · exact Or.inr ⟨reference, e, hentered.beside hb, hearned⟩
  | _ => exact Clean.beside h hb

theorem keeps_of_beside (hs : LoyaltySound tiers db') (hb : ∀ q ≠ p, Beside q db db') :
    (loyaltyOutline tiers).Keeps db p place db' where
  sound := hs
  guarantee := trivial
  others := fun q _ hq _ hw => loyaltyWork_beside hw (hb q hq)

theorem LoyaltySound.of_committed (h : LoyaltySound tiers db)
    (hlife : ∀ userId, db'.lifetimePoints userId = db.lifetimePoints userId)
    (hcross : db'.tierCrossings.committed = db.tierCrossings.committed)
    (hout : changes db'.outbox.committed = changes db.outbox.committed) :
    LoyaltySound tiers db' where
  chain := by
    intro userId
    rw [changesOf, hout, hlife]
    exact h.chain userId
  recorded := by
    rw [hcross, hout]
    exact h.recorded
  entered := by
    intro userId
    rw [changesOf, hout]
    exact h.entered userId
  reached := by
    rw [hout]
    intro x hx
    rw [hlife]
    exact h.reached x hx

section

variable (hs : LoyaltySound tiers db)
include hs

theorem keeps_of_committed
    (hlife : ∀ userId, db'.lifetimePoints userId = db.lifetimePoints userId)
    (hcrossings : db'.tierCrossings.committed = db.tierCrossings.committed)
    (hout : changes db'.outbox.committed = changes db.outbox.committed)
    (hothers : ∀ q ≠ p, Others q db.pointsEntries db'.pointsEntries ∧
      Others q db.tierCrossings db'.tierCrossings ∧ db'.outbox.pending q = db.outbox.pending q) :
    (loyaltyOutline tiers).Keeps db p place db' := by
  refine keeps_of_beside (hs.of_committed hlife hcrossings hout) ?_
  intro q hq
  obtain ⟨hents, hcross, hpend⟩ := hothers q hq
  refine ⟨hents, hcross, hpend, fun userId => (hlife userId).ge, ?_⟩
  rw [hcrossings]
  exact fun _ h => h

theorem keeps_refl : (loyaltyOutline tiers).Keeps db p place db :=
  keeps_of_committed hs (fun _ => rfl) rfl rfl fun _ _ => ⟨.refl, .refl, rfl⟩

theorem keeps_rollback :
    (loyaltyOutline tiers).Keeps db p place (db.rollback p) :=
  keeps_of_committed hs (fun _ => committedTotal_rollback) committed_rollback rfl fun _ hq =>
    ⟨others_rollback hq, others_rollback hq, pending_rollback_ne hq⟩

end

theorem clean_rollback : Clean (db.rollback p) p :=
  ⟨untouched_rollback, untouched_rollback, pending_rollback_self⟩

theorem clean_commit : Clean (db.commit p) p :=
  ⟨untouched_commit, untouched_commit, pending_commit_self⟩

section

variable (hs : LoyaltySound tiers db)
include hs

theorem keeps_entries (hlock : ¬(db.pointsEntries.row reference).Locked p) :
    (loyaltyOutline tiers).Keeps db p place
      { db with pointsEntries := db.pointsEntries.write p reference e } :=
  keeps_of_committed hs (fun _ => committedTotal_write) rfl rfl fun _ hq =>
    ⟨others_write hq hlock, .refl, rfl⟩

theorem keeps_crossings {key : Uuid × String × ℕ} (hlock : ¬(db.tierCrossings.row key).Locked p) :
    (loyaltyOutline tiers).Keeps db p place
      { db with tierCrossings := db.tierCrossings.write p key x } :=
  keeps_of_committed hs (fun _ => rfl) committed_write rfl fun _ hq =>
    ⟨.refl, others_write hq hlock, rfl⟩

theorem keeps_append {event : LoyaltyEvent} :
    (loyaltyOutline tiers).Keeps db p place { db with outbox := db.outbox.append p event } :=
  keeps_of_committed hs (fun _ => rfl) rfl rfl fun _ hq =>
    ⟨.refl, .refl, pending_append_ne hq⟩

end

/-! ## The statements -/

/-- What a statement keeps. -/
structure Passes (tiers : TierTable) (db : LoyaltyDb) (p : ℕ) (place : LoyaltyPlace)
    (db' : LoyaltyDb) (place' : LoyaltyPlace) : Prop where
  keeps : (loyaltyOutline tiers).Keeps db p place db'
  work : LoyaltyWork tiers db' p place'

theorem entered_write (hunt : db.pointsEntries.Untouched p)
    (hget : db.pointsEntries.get p reference = none) :
    Entered { db with pointsEntries := db.pointsEntries.write p reference e } p reference e := by
  refine ⟨?_, hunt.onlyAt.write⟩
  rw [row_write (hunt reference), hget]

/-! ## The commits -/

section Commit

variable {i : AwardInput} {e : PointsEntryEntity} {before lifetimeEarned : ℕ}

/-- The tier that an award has read and the one that it has reached are those of the ledger, where
nothing has come in between. -/
theorem Counted.tier_eq (h : Counted db p i e before lifetimeEarned)
    (hm : tiers.tierSlugForPoints (db.lifetimePoints i.userId) = tiers.tierSlugForPoints before ∧
      tiers.tierSlugForPoints (db.lifetimePoints i.userId + e.earned) =
        tiers.tierSlugForPoints (before + e.earned)) :
    tiers.tierSlugForPoints lifetimeEarned =
      tiers.tierSlugForPoints (db.lifetimePoints i.userId + e.earned) := by
  rw [hm.2]
  exact tiers.tierSlugForPoints_between h.least h.most hm.2.symm

theorem Entered.lifetimePoints_commit {reference : Reference} (h : Entered db p reference e)
    (userId : Uuid) :
    (db.commit p).lifetimePoints userId = db.lifetimePoints userId + earnedBy userId e :=
  committedTotal_commit_of_new (wrote_of_row h.row) h.only (committed_of_row h.row)

theorem changes_commit : changes (db.commit p).outbox.committed =
    changes db.outbox.committed ++ changes (db.outbox.pending p) := by
  show changes (db.outbox.committed ++ db.outbox.pending p) = _
  rw [changes, filterMap_append]
  rfl

theorem beside_commit (hlife : ∀ userId,
      db.lifetimePoints userId ≤ (db.commit p).lifetimePoints userId)
    (hstays : ∀ key, db.tierCrossings.committed key ≠ none →
      (db.commit p).tierCrossings.committed key ≠ none) (hq : q ≠ p) : Beside q db (db.commit p) :=
  ⟨others_commit hq, others_commit hq, pending_commit_ne hq, hlife, hstays⟩

/-- One crossing is added, and nobody loses points. -/
structure Adds (db db' : LoyaltyDb) (x : TierCrossingEntity) : Prop where
  changes : changes db'.outbox.committed = changes db.outbox.committed ++ [x]
  crossings : db'.tierCrossings.committed =
    update db.tierCrossings.committed x.key (some x)
  fresh : db.tierCrossings.committed x.key = none
  lifetime : ∀ userId, db.lifetimePoints userId ≤ db'.lifetimePoints userId

section

variable (h : Adds db db' x)
include h

theorem Adds.changesOf_self : changesOf db' x.userId = changesOf db x.userId ++ [x] := by
  rw [changesOf, h.changes, filter_append, ← changesOf]
  simp

theorem Adds.changesOf_ne {userId : Uuid} (hne : userId ≠ x.userId) :
    changesOf db' userId = changesOf db userId := by
  rw [changesOf, h.changes, filter_append, ← changesOf]
  simp [hne.symm]

theorem Adds.stays (key : Uuid × String × ℕ) (hkey : db.tierCrossings.committed key ≠ none) :
    db'.tierCrossings.committed key ≠ none := by
  rw [h.crossings]
  by_cases hkeys : key = x.key
  · rw [hkeys]
    simp
  · rw [update_of_ne hkeys]
    exact hkey

theorem Adds.recorded (hs : LoyaltySound tiers db) (key : Uuid × String × ℕ)
    (y : TierCrossingEntity) :
    db'.tierCrossings.committed key = some y ↔
      key = y.key ∧ y ∈ Loyalty.changes db'.outbox.committed := by
  rw [h.crossings, h.changes, mem_append, mem_singleton]
  by_cases hkey : key = x.key
  · rw [hkey, update_self]
    constructor
    · intro heq
      cases heq
      exact ⟨rfl, Or.inr rfl⟩
    · rintro ⟨hkeys, hmem | rfl⟩
      · have hy := (hs.recorded y.key y).2 ⟨rfl, hmem⟩
        rw [← hkeys, h.fresh] at hy
        cases hy
      · rfl
  · rw [update_of_ne hkey, hs.recorded key y]
    constructor
    · rintro ⟨hkeys, hmem⟩
      exact ⟨hkeys, Or.inl hmem⟩
    · rintro ⟨hkeys, hmem | rfl⟩
      · exact ⟨hkeys, hmem⟩
      · exact absurd hkeys hkey

/-- A tier that was entered before is left behind, for the points only grow. -/
theorem Adds.entered (hs : LoyaltySound tiers db) {points : ℕ}
    (hto : x.toTierSlug = tiers.tierSlugForPoints points)
    (hle : db.lifetimePoints x.userId ≤ points) (hrises : tiers.tierSlugForPoints points ≠
      tiers.tierSlugForPoints (db.lifetimePoints x.userId)) (userId : Uuid) :
    (tiers.tierSlugForPoints 0 :: (changesOf db' userId).map (·.toTierSlug)).Nodup := by
  by_cases hne : userId = x.userId
  · rw [hne, h.changesOf_self, map_append]
    refine nodup_append.2 ⟨hs.entered x.userId, nodup_singleton _, ?_⟩
    rintro slug hslug _ hnew rfl
    have hslug' : slug = tiers.tierSlugForPoints points := (mem_singleton.1 hnew).trans hto
    have hpast : ∃ past ≤ db.lifetimePoints x.userId, slug = tiers.tierSlugForPoints past := by
      rcases mem_cons.1 hslug with hstart | hmem
      · exact ⟨0, Nat.zero_le _, hstart⟩
      · obtain ⟨y, hy, rfl⟩ := mem_map.1 hmem
        obtain ⟨hmem', huser⟩ := mem_filter.1 hy
        obtain ⟨htier, hbelow⟩ := hs.reached y hmem'
        rw [of_decide_eq_true huser] at hbelow
        exact ⟨y.lifetimeEarned, hbelow, htier⟩
    obtain ⟨_, hbelow, hpast⟩ := hpast
    refine hrises ?_
    rw [← hslug', hpast]
    exact (tiers.tierSlugForPoints_between hbelow hle (hpast.symm.trans hslug')).symm
  · rw [h.changesOf_ne hne]
    exact hs.entered userId

end

section

variable (hs : LoyaltySound tiers db)
include hs

theorem keeps_commit_level
    (hcross : db.tierCrossings.Untouched p) (hpend : changes (db.outbox.pending p) = [])
    (hlife : ∀ userId, db.lifetimePoints userId ≤ (db.commit p).lifetimePoints userId)
    (htier : ∀ userId, tiers.tierSlugForPoints ((db.commit p).lifetimePoints userId) =
      tiers.tierSlugForPoints (db.lifetimePoints userId)) :
    (loyaltyOutline tiers).Keeps db p place (db.commit p) := by
  have hcomm : (db.commit p).tierCrossings.committed = db.tierCrossings.committed :=
    hcross.committed_commit
  have hchanges : changes (db.commit p).outbox.committed = changes db.outbox.committed := by
    rw [changes_commit, hpend, append_nil]
  refine keeps_of_beside ⟨⟨?_, ?_, ?_⟩, ?_⟩ fun q hq => beside_commit hlife ?_ hq
  · intro userId
    rw [changesOf, hchanges, htier]
    exact hs.chain userId
  · rw [hcomm, hchanges]
    exact hs.recorded
  · intro userId
    rw [changesOf, hchanges]
    exact hs.entered userId
  · rw [hchanges]
    intro x hx
    exact ⟨(hs.reached x hx).1, (hs.reached x hx).2.trans (hlife x.userId)⟩
  · rw [hcomm]
    exact fun _ h => h

theorem keeps_commit_clean (h : Clean db p) :
    (loyaltyOutline tiers).Keeps db p place (db.commit p) := by
  have hlife : ∀ userId, (db.commit p).lifetimePoints userId = db.lifetimePoints userId :=
    fun _ => committedTotal_commit_of_untouched h.entries
  refine keeps_commit_level hs h.crossings ?_ (fun userId => (hlife userId).ge) fun userId => ?_
  · rw [h.outbox]
    rfl
  · rw [hlife]

theorem keeps_finish_false (hw : LoyaltyWork tiers db p (.finish i e before lifetimeEarned false))
    (hm : Undisturbed tiers db (.finish i e before lifetimeEarned false)) :
    (loyaltyOutline tiers).Keeps db p place (db.commit p) := by
  obtain ⟨hcnt, hcross, hpend, hsame⟩ := hw
  have hreached := hcnt.tier_eq hm
  have hbef : tiers.tierSlugForPoints before =
      tiers.tierSlugForPoints (db.lifetimePoints i.userId) := hm.1.symm
  -- the tier that it has reached is the one that it started from
  have hlevel : tiers.tierSlugForPoints (db.lifetimePoints i.userId + e.earned) =
      tiers.tierSlugForPoints (db.lifetimePoints i.userId) := by
    rcases hsame with hsame | hrec
    · rw [← hreached, hsame, hbef]
    · obtain ⟨x, hx⟩ := Option.ne_none_iff_exists'.1 hrec
      obtain ⟨hkey, hmem⟩ := (hs.recorded _ x).1 hx
      obtain ⟨huser, hslug⟩ := Prod.mk.inj hkey
      have hpoints : lifetimeEarned = x.lifetimeEarned := (Prod.mk.inj hslug).2
      have hle : lifetimeEarned ≤ db.lifetimePoints i.userId := by
        have hlow := (hs.reached x hmem).2
        rw [← hpoints, ← huser] at hlow
        exact hlow
      rw [← hreached, ← hbef]
      have hleast : before ≤ lifetimeEarned := (Nat.le_add_right _ _).trans hcnt.least
      exact tiers.tierSlugForPoints_between hleast hle hbef
  have hcommit := hcnt.entered.lifetimePoints_commit
  refine keeps_commit_level hs hcross hpend (fun userId => ?_) fun userId => ?_
  · rw [hcommit]
    exact Nat.le_add_right _ _
  · rw [hcommit]
    by_cases huser : e.userId = userId
    · rw [earnedBy, if_pos huser, ← huser, hcnt.userId]
      exact hlevel
    · rw [earnedBy, if_neg huser, Nat.add_zero]

theorem keeps_finish_true (hw : LoyaltyWork tiers db p (.finish i e before lifetimeEarned true))
    (hm : Undisturbed tiers db (.finish i e before lifetimeEarned true)) :
    (loyaltyOutline tiers).Keeps db p place (db.commit p) := by
  obtain ⟨hcnt, hcrossed, hdiffer, hpend⟩ := hw
  have hreached := hcnt.tier_eq hm
  have hcommit := hcnt.entered.lifetimePoints_commit
  have huser : e.userId = i.userId := hcnt.userId
  have hown : (db.commit p).lifetimePoints i.userId = db.lifetimePoints i.userId + e.earned := by
    rw [hcommit, earnedBy, if_pos huser]
  have hadds : Adds db (db.commit p) (crossing tiers i.userId before lifetimeEarned) := by
    refine ⟨?_, committed_commit_of_onlyAt (wrote_of_row hcrossed.row) hcrossed.only,
      committed_of_row hcrossed.row, fun userId => ?_⟩
    · rw [changes_commit, hpend]
    · rw [hcommit]
      exact Nat.le_add_right _ _
  have hrises : tiers.tierSlugForPoints (db.lifetimePoints i.userId + e.earned) ≠
      tiers.tierSlugForPoints (db.lifetimePoints i.userId) := by
    rw [← hreached, hm.1]
    exact hdiffer
  refine keeps_of_beside ⟨⟨?_, hadds.recorded hs, ?_⟩, ?_⟩ fun q hq =>
    beside_commit hadds.lifetime hadds.stays hq
  · intro userId
    by_cases hne : userId = i.userId
    · rw [hne, hown, ← hreached]
      refine hadds.changesOf_self ▸ Chain.concat ?_
      show Chain _ _ (tiers.tierSlugForPoints before)
      rw [← hm.1]
      exact hs.chain i.userId
    · rw [hadds.changesOf_ne hne, hcommit, earnedBy, if_neg fun h => hne (h.symm.trans huser)]
      exact hs.chain userId
  · exact hadds.entered hs hreached (Nat.le_add_right _ _) hrises
  · intro x hx
    rw [hadds.changes, mem_append, mem_singleton] at hx
    rcases hx with hx | rfl
    · exact ⟨(hs.reached x hx).1, (hs.reached x hx).2.trans (hadds.lifetime x.userId)⟩
    · refine ⟨rfl, ?_⟩
      show lifetimeEarned ≤ (db.commit p).lifetimePoints i.userId
      rw [hown]
      exact hcnt.most

theorem keeps_finishReverse {r : ReverseInput} {result : ReverseResult}
    (hw : LoyaltyWork tiers db p (.finishReverse r result)) :
    (loyaltyOutline tiers).Keeps db p place (db.commit p) := by
  obtain ⟨hcross, hpend, hents⟩ := hw
  rcases hents with hunt | ⟨_, _, hentered, hearned⟩
  · exact keeps_commit_clean hs ⟨hunt, hcross, hpend⟩
  · have hlife : ∀ userId,
        (db.commit p).lifetimePoints userId = db.lifetimePoints userId := by
      intro userId
      rw [hentered.lifetimePoints_commit, earnedBy, hearned]
      simp
    refine keeps_commit_level hs hcross ?_ (fun userId => (hlife userId).ge)
      fun userId => ?_
    · rw [hpend]
      rfl
    · rw [hlife]

end

end Commit

/-! ## What a statement does -/

/-- What the proof of one statement has to give. -/
abbrev Shown (tiers : TierTable) (db : LoyaltyDb) (p : ℕ) (place : LoyaltyPlace) :
    Next LoyaltyDb Unit LoyaltyPlace → Prop :=
  Next.Ends (Passes tiers db p place)
    (fun place' => (loyaltyOutline tiers).Keeps db p place (db.commit p) ∧
      LoyaltyWork tiers (db.commit p) p place')
    fun place' => ∃ i, place' = .disagrees i

theorem shown_insert (hs : LoyaltySound tiers db)
    (hw : LoyaltyWork tiers db p (.insert i e before)) :
    Shown tiers db p (.insert i e before)
      (awardStatement policy tiers env db p (.insert i e before)) := by
  obtain ⟨hclean, huser, hbef⟩ := hw
  simp only [awardStatement]
  split
  · trivial
  · rename_i hins
    obtain ⟨-, rfl, hlock, hget, -⟩ := insert_eq_done hins
    refine ⟨keeps_entries hs hlock, ⟨entered_write hclean.entries hget, huser, ?_⟩,
      hclean.crossings, hclean.outbox⟩
    exact hbef.trans committedTotal_write.ge
  · exact ⟨keeps_refl hs, hclean⟩

theorem shown_total (hs : LoyaltySound tiers db) (hw : LoyaltyWork tiers db p (.total i e before)) :
    Shown tiers db p (.total i e before)
      (awardStatement policy tiers env db p (.total i e before)) := by
  obtain ⟨hawarding, hcross, hpend⟩ := hw
  -- the total that it reads is what is committed, and its own entry
  have htot : db.lifetimeEarned p i.userId = db.lifetimePoints i.userId + e.earned := by
    have hnew : db.pointsEntries.total p (earnedBy i.userId) =
        db.pointsEntries.committedTotal (earnedBy i.userId) + earnedBy i.userId e :=
      total_of_new (wrote_of_row hawarding.entered.row) hawarding.entered.only
        (committed_of_row hawarding.entered.row)
    rwa [earnedBy, if_pos hawarding.userId] at hnew
  refine ⟨keeps_refl hs, ⟨hawarding, ?_, htot.le⟩, hcross, hpend⟩
  rw [htot]
  exact Nat.add_le_add_right hawarding.known _

theorem shown_cross {lifetimeEarned : ℕ} (hs : LoyaltySound tiers db)
    (hw : LoyaltyWork tiers db p (.cross i e before lifetimeEarned)) :
    Shown tiers db p (.cross i e before lifetimeEarned)
      (awardStatement policy tiers env db p (.cross i e before lifetimeEarned)) := by
  obtain ⟨hcnt, hcross, hpend⟩ := hw
  simp only [awardStatement]
  split
  · rename_i hsame
    exact ⟨keeps_refl hs, hcnt, hcross, hpend, Or.inl hsame⟩
  · rename_i hdiffer
    split
    · trivial
    · rename_i hins
      obtain ⟨-, rfl, hlock, hget, -⟩ := insert_eq_done hins
      refine ⟨keeps_crossings hs hlock, hcnt.of_entries rfl, ⟨?_, hcross.onlyAt.write⟩,
        hdiffer, hpend⟩
      rw [row_write (hcross _), hget]
    · rename_i hwaits hdone
      refine ⟨keeps_refl hs, hcnt, hcross, hpend, Or.inr ?_⟩
      rw [← hcross.get_eq]
      intro hnone
      by_cases hlock : (db.tierCrossings.row
          (crossing tiers i.userId before lifetimeEarned).key).Locked p
      · exact hwaits (if_pos hlock)
      · refine hdone _ _ ((insert_eq_of_get hlock hnone).trans (writeChecked_of_free ?_))
        exact fun _ _ _ _ h => h

theorem shown_award (policy : LoyaltyPolicy) (env : LoyaltyEnv) (hs : LoyaltySound tiers db)
    (hm : Undisturbed tiers db place) (hw : LoyaltyWork tiers db p place) :
    Shown tiers db p place (awardStatement policy tiers env db p place) := by
  cases place with
  | award =>
    simp only [awardStatement]
    split
    · exact ⟨keeps_refl hs, hw⟩
    · exact ⟨keeps_refl hs, hw⟩
  | unawarded => exact ⟨keeps_commit_clean hs hw, clean_commit⟩
  | tierBefore =>
    have hclean : Clean db p := hw
    exact ⟨keeps_refl hs, hclean, rfl, (total_of_untouched hclean.entries).le⟩
  | insert => exact shown_insert hs hw
  | total => exact shown_total hs hw
  | announce =>
    obtain ⟨hcnt, hcross, hpend⟩ := hw
    refine ⟨keeps_append hs, hcnt.of_entries rfl, hcross, ?_⟩
    rw [pending_append_self, hpend]
    rfl
  | cross => exact shown_cross hs hw
  | announceTier =>
    obtain ⟨hcnt, hcrossed, hdiffer, hpend⟩ := hw
    refine ⟨keeps_append hs, hcnt.of_entries rfl, ⟨hcrossed.row, hcrossed.only⟩, hdiffer, ?_⟩
    rw [pending_append_self, changes, filterMap_append, ← changes, hpend]
    rfl
  | finish i e before lifetimeEarned tierChanged =>
    refine ⟨?_, clean_commit⟩
    cases tierChanged with
    | true => exact keeps_finish_true hs hw hm
    | false => exact keeps_finish_false hs hw hm
  | _ => trivial

theorem shown_reverse (hs : LoyaltySound tiers db) (hm : Undisturbed tiers db place)
    (hw : LoyaltyWork tiers db p place) :
    Shown tiers db p place (reverseStatement db p place) := by
  cases place with
  | find i =>
    have hclean : Clean db p := hw
    simp only [reverseStatement]
    split
    · exact ⟨keeps_refl hs, hclean.crossings, hclean.outbox, Or.inl hclean.entries⟩
    · split
      · exact ⟨i, rfl⟩
      · exact ⟨keeps_refl hs, hclean⟩
  | takeBack i original =>
    have hclean : Clean db p := hw
    have hgiven : 0 ≤ original.points := hm
    simp only [reverseStatement]
    split
    · trivial
    · rename_i hins
      obtain ⟨-, rfl, hlock, hget, -⟩ := insert_eq_done hins
      refine ⟨keeps_entries hs hlock, hclean.crossings, hclean.outbox,
        Or.inr ⟨_, _, entered_write hclean.entries hget, ?_⟩⟩
      show (-original.points).toNat = 0
      omega
    · exact ⟨keeps_refl hs, hclean.crossings, hclean.outbox, Or.inl hclean.entries⟩
  | finishReverse => exact ⟨keeps_finishReverse hs hw, clean_commit⟩
  | _ => trivial

/-- What each statement of an award or a reversal keeps. -/
theorem shown_statement (policy : LoyaltyPolicy) (env : LoyaltyEnv) (hs : LoyaltySound tiers db)
    (hm : Undisturbed tiers db place) (hw : LoyaltyWork tiers db p place) :
    Shown tiers db p place (loyaltyStatement policy tiers env db p place) := by
  cases place with
  | find | takeBack | finishReverse => exact shown_reverse hs hm hw
  | _ => exact shown_award policy env hs hm hw

/-- Each statement keeps the crossings. -/
theorem loyaltyProof (policy : LoyaltyPolicy) (tiers : TierTable) :
    FreeProof (loyaltyService policy tiers) (loyaltyOutline tiers) where
  first := by
    intro db p request hw
    cases request with
    | award | reverse => exact hw
  statement := by
    intro env db p place hm hs hw
    refine (shown_statement policy env hs hm hw).mono (fun _ _ h => ⟨h.keeps, h.work⟩)
      (fun _ _ _ h => h.elim) (fun _ h => ⟨h.1, h.2⟩) fun place' h => ?_
    obtain ⟨_, rfl⟩ := h
    exact ⟨keeps_rollback hs, clean_rollback⟩
  dies := fun db p place _ hs _ => ⟨keeps_rollback hs, clean_rollback⟩

/-! ## Every run -/

theorem loyaltySound_empty : LoyaltySound tiers .empty := by
  refine ⟨⟨fun _ => rfl, ?_, fun _ => nodup_singleton _⟩, ?_⟩
  · intro key x
    refine iff_of_false (by simp [LoyaltyDb.empty]) ?_
    rintro ⟨-, hmem⟩
    cases hmem
  · intro x hx
    cases hx

/-- Whoever is awarded what at the same time: as long as what is committed between an award's look
at the tier and its own commit makes no difference to its crossing, and no reversal is taken back,
the crossings follow the ledger. -/
theorem tiersFollowed_run {es : List (Step LoyaltyRequest LoyaltyEnv)}
    (hundisturbed : Along (loyaltyService policy tiers).step (loyaltyOutline tiers).Meets
      ((loyaltyService policy tiers).start .empty) es) :
    Throughout (loyaltyService policy tiers).step (fun s => TiersFollowed tiers s.db)
      ((loyaltyService policy tiers).start .empty) es := by
  have P := (loyaltyProof policy tiers).proof
  have hstart : (loyaltyOutline tiers).Holds ((loyaltyService policy tiers).start .empty) :=
    P.holds_start loyaltySound_empty fun _ => ⟨untouched_empty, untouched_empty, rfl⟩
  refine throughout_of_along (I := (loyaltyOutline tiers).Holds) ?_ ?_ hstart hundisturbed
  · intro s h
    exact h.sound.toTiersFollowed
  · intro s e s' h hm hstep
    exact (P.holds_step h hm hstep).1

/-! ## Two awards and a threshold -/

instance : Decidable (Undisturbed tiers db place) := by
  unfold Undisturbed
  cases place <;> infer_instance

instance (env : LoyaltyEnv) : Decidable ((loyaltyOutline tiers).Assumes env db p place) :=
  inferInstanceAs (Decidable (Undisturbed tiers db place))

namespace Bookings

/-- One tier, at fifteen points. -/
def silver : TierTable where
  rows := [⟨1, "silver", "Silver", 15, 1, true⟩]
  id := by decide
  slug := by decide

/-- The next `n` statements. -/
def takes (pid n : ℕ) : List (Step LoyaltyRequest LoyaltyEnv) :=
  List.replicate n ⟨pid, .statement ⟨0, []⟩⟩

/-- The award of a completed booking. -/
def completed (pid : ℕ) (bookingId : Uuid) : Step LoyaltyRequest LoyaltyEnv :=
  ⟨pid, .start (.award ⟨9, .bookingCompleted, "booking", bookingId, none⟩)⟩

/-- Ten points, and then ten more. -/
def oneByOne : List (Step LoyaltyRequest LoyaltyEnv) :=
  completed 1 100 :: takes 1 7 ++ completed 2 200 :: takes 2 8

/-- The second award has read the tier before the first one is committed. -/
def twoAwards : List (Step LoyaltyRequest LoyaltyEnv) :=
  completed 1 100 :: takes 1 6 ++ completed 2 200 :: takes 2 6 ++ takes 1 1 ++ takes 2 1

end Bookings

theorem tiersFollowed_run_oneByOne :
    Throughout (loyaltyService {} Bookings.silver).step
      (fun s => TiersFollowed Bookings.silver s.db)
      ((loyaltyService {} Bookings.silver).start .empty) Bookings.oneByOne :=
  tiersFollowed_run (by decide +kernel)

/-- Neither award sees the other's points. -/
theorem tiersFollowed_twoAwards_fails : ∃ s,
    runFrom (loyaltyService {} Bookings.silver).step
      ((loyaltyService {} Bookings.silver).start .empty) Bookings.twoAwards = some s ∧
    ¬TiersFollowed Bookings.silver s.db := by
  obtain ⟨s, hs, hchanges, hpoints⟩ : ∃ s ∈ runFrom (loyaltyService {} Bookings.silver).step
      ((loyaltyService {} Bookings.silver).start .empty) Bookings.twoAwards,
        changesOf s.db 9 = [] ∧ s.db.lifetimePoints 9 = 20 := by
    decide +kernel
  refine ⟨s, hs, fun h => ?_⟩
  have hchain := h.chain 9
  rw [hchanges, hpoints] at hchain
  revert hchain
  decide +kernel

end BeauClick.Loyalty
