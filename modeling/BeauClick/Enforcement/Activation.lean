import BeauClick.Enforcement.Governance

/-!
# Activation misses nobody

Creations hold the coordination lock shared, the activation holds it alone.

* `AllResolved` — no party that is eligible lacks an answer.
* `EnforcementWork` — what a call has seen and written, place by place.
* `shown_statement` — one statement keeps it.
* `activation_run` — once the control is active, nobody was missed.
-/

namespace BeauClick.Enforcement

open Commerce Credits Locks ReadCommitted ReadCommitted.Versioned Runs Transactions

/-! ## What is committed -/

/-- The rollout is active. -/
def Active (db : EnforcementDb) : Prop :=
  ∃ c, db.control.committed enforcementControlSingletonId = some c ∧ c.rolloutState = .active

/-- The party is committed, and not deleted. -/
def Eligible (db : EnforcementDb) (party : PartyRef) : Prop :=
  ∃ p, db.parties.committed party = some p ∧ p.deletedAt = none

/-- The party has a committed governance row. -/
def Resolved (db : EnforcementDb) (party : PartyRef) : Prop :=
  ∃ id g, db.governance.committed id = some g ∧ g.party = party

/-- Every eligible party is resolved. -/
def AllResolved (db : EnforcementDb) : Prop := ∀ party, Eligible db party → Resolved db party

/-- The generation counts the activations: none as long as the rollout is inactive, and one. -/
def GenerationCounts (db : EnforcementDb) : Prop :=
  ∃ c, db.control.committed enforcementControlSingletonId = some c ∧
    c.activationGeneration = if c.rolloutState = .active then 1 else 0

/-- What is committed. -/
structure Sound (db : EnforcementDb) : Prop where
  generation : GenerationCounts db
  resolved : Active db → AllResolved db
  /-- No update of a governance row changes its party. -/
  sameParty : ∀ id g g', (db.governance.row id).Version g → (db.governance.row id).Version g' →
    g.party = g'.party

/-! ## What a call has written and relies on -/

/-- The call has written nothing. -/
structure NoWork (db : EnforcementDb) (pid : ℕ) : Prop where
  control : db.control.Untouched pid
  parties : db.parties.Untouched pid
  governance : db.governance.Untouched pid

/-- The call has written the control row only. -/
structure ControlWork (db : EnforcementDb) (pid : ℕ)
    (before after : BookingCreditEnforcementControlEntity) : Prop where
  row : db.control.row enforcementControlSingletonId = ⟨some before, some (pid, after)⟩
  only : db.control.OnlyAt pid enforcementControlSingletonId
  parties : db.parties.Untouched pid
  governance : db.governance.Untouched pid

/-- The call has created one party at most, and has not written the control row. -/
structure CreationWork (db : EnforcementDb) (pid : ℕ) (party : PartyRef) : Prop where
  control : db.control.Untouched pid
  parties : db.parties.OnlyAt pid party

/-- The call has resolved parties only. -/
structure CommandWork (db : EnforcementDb) (pid : ℕ) : Prop where
  control : db.control.Untouched pid
  parties : db.parties.Untouched pid

/-- What a call has read and written, place by place. -/
def EnforcementWork (db : EnforcementDb) (pid : ℕ) : EnforcementPlace → Prop
  | .creationCoordination party | .creationControl party | .insertGoverned party =>
    CreationWork db pid party
  | .commitCreation party governed => CreationWork db pid party ∧
      if governed then ∃ id g, db.governance.Wrote pid id g ∧ g.party = party else ¬Active db
  | .commandCoordination _ | .commandControl _ | .findCandidates _ | .lockParty .. | .readParty ..
  | .writePlan .. => CommandWork db pid
  | .readPartition => NoWork db pid ∧ ¬Active db
  | .setActive => NoWork db pid ∧ ¬Active db ∧ AllResolved db
  | .commitActivation => (∃ c now, c.rolloutState = .inactive ∧
      ControlWork db pid c (c.activated now)) ∧ AllResolved db
  | .commitSwitch => ∃ c target now, ControlWork db pid c (c.switched target now)
  | .commitDeletion _ => db.control.Untouched pid ∧ db.governance.Untouched pid ∧
      ∀ party p, db.parties.Wrote pid party p → p.deletedAt ≠ none
  | _ => NoWork db pid

/-- The mode in which a call holds the coordination lock. -/
def EnforcementPlace.coordination : EnforcementPlace → Option LockMode
  | creationControl _ | insertGoverned _ | commitCreation .. => some .shared
  | commandControl _ | findCandidates _ | lockParty .. | readParty .. | writePlan .. => some .shared
  | activationControl | readPartition | setActive | commitActivation => some .exclusive
  | _ => none

/-! ## The steps of the others -/

/-- What the step of another call leaves to a call. -/
structure LeavesTo (pid : ℕ) (db db' : EnforcementDb) : Prop where
  control : db.control.Others pid db'.control
  parties : db.parties.Others pid db'.parties
  governance : db.governance.Others pid db'.governance

/-- A step keeps what a call relies on under the coordination lock: that the rollout is
inactive, and when it holds the lock exclusively that all parties are resolved. -/
def Relies (place : EnforcementPlace) (db db' : EnforcementDb) : Prop :=
  (place.coordination ≠ none → ¬Active db → ¬Active db') ∧
    (place.coordination = some .exclusive → AllResolved db → AllResolved db')

section Frame

variable {db db' : EnforcementDb} {pid : ℕ} {place : EnforcementPlace}

theorem LeavesTo.refl : LeavesTo pid db db := ⟨.refl, .refl, .refl⟩

section

variable (hl : LeavesTo pid db db')
include hl

theorem NoWork.frame (h : NoWork db pid) : NoWork db' pid :=
  ⟨hl.control.untouched h.control, hl.parties.untouched h.parties,
    hl.governance.untouched h.governance⟩

theorem ControlWork.frame {before after : BookingCreditEnforcementControlEntity}
    (h : ControlWork db pid before after) :
    ControlWork db' pid before after :=
  ⟨hl.control.row_of h.row, hl.control.onlyAt h.only, hl.parties.untouched h.parties,
    hl.governance.untouched h.governance⟩

theorem CreationWork.frame {party : PartyRef} (h : CreationWork db pid party) :
    CreationWork db' pid party :=
  ⟨hl.control.untouched h.control, hl.parties.onlyAt h.parties⟩

theorem CommandWork.frame (h : CommandWork db pid) :
    CommandWork db' pid :=
  ⟨hl.control.untouched h.control, hl.parties.untouched h.parties⟩

theorem EnforcementWork.frame (h : EnforcementWork db pid place)
    (hr : Relies place db db') : EnforcementWork db' pid place := by
  cases place with
  | creationCoordination | creationControl | insertGoverned => exact CreationWork.frame hl h
  | commitCreation party governed =>
    refine ⟨h.1.frame hl, ?_⟩
    cases governed with
    | false => exact hr.1 (by simp [EnforcementPlace.coordination]) h.2
    | true =>
      obtain ⟨id, g, hw, hparty⟩ := h.2
      exact ⟨id, g, hl.governance.wrote_iff.2 hw, hparty⟩
  | commandCoordination | commandControl | findCandidates | lockParty | readParty | writePlan =>
    exact CommandWork.frame hl h
  | readPartition =>
    exact ⟨h.1.frame hl, hr.1 (by simp [EnforcementPlace.coordination]) h.2⟩
  | setActive =>
    exact ⟨h.1.frame hl, hr.1 (by simp [EnforcementPlace.coordination]) h.2.1, hr.2 rfl h.2.2⟩
  | commitActivation =>
    obtain ⟨⟨c, now, hinact, hw⟩, hall⟩ := h
    exact ⟨⟨c, now, hinact, hw.frame hl⟩, hr.2 rfl hall⟩
  | commitSwitch =>
    obtain ⟨c, target, now, hw⟩ := h
    exact ⟨c, target, now, hw.frame hl⟩
  | commitDeletion party =>
    exact ⟨hl.control.untouched h.1, hl.governance.untouched h.2.1,
      fun party p hp => h.2.2 party p (hl.parties.wrote_iff.1 hp)⟩
  | _ => exact NoWork.frame hl h

end

end Frame

/-! ## Statements that go through -/

/-- Nothing is committed. -/
structure Quiet (db db' : EnforcementDb) : Prop where
  control : db'.control.committed = db.control.committed
  parties : db'.parties.committed = db.parties.committed
  governance : db'.governance.committed = db.governance.committed

section Quiet

variable {db db' : EnforcementDb} {pid : ℕ} {party : PartyRef}

theorem Quiet.refl : Quiet db db := ⟨rfl, rfl, rfl⟩

section

variable (h : db'.control.committed = db.control.committed)
include h

theorem active_congr : Active db' ↔ Active db := by
  rw [Active, Active, h]

theorem generation_congr :
    GenerationCounts db' ↔ GenerationCounts db := by
  rw [GenerationCounts, GenerationCounts, h]

end

theorem eligible_congr (h : db'.parties.committed = db.parties.committed) :
    Eligible db' party ↔ Eligible db party := by
  rw [Eligible, Eligible, h]

theorem resolved_congr (h : db'.governance.committed = db.governance.committed) :
    Resolved db' party ↔ Resolved db party := by
  rw [Resolved, Resolved, h]

theorem Quiet.allResolved (h : Quiet db db') : AllResolved db' ↔ AllResolved db :=
  forall_congr' fun _ => imp_congr (eligible_congr h.parties) (resolved_congr h.governance)

theorem Quiet.relies (h : Quiet db db') (place : EnforcementPlace) : Relies place db db' :=
  ⟨fun _ hn ha => hn ((active_congr h.control).1 ha), fun _ hall => h.allResolved.2 hall⟩

theorem quiet_rollback : Quiet db (db.rollback pid) :=
  ⟨committed_rollback, committed_rollback, committed_rollback⟩

end Quiet

/-- What a statement keeps. -/
structure Goes (db : EnforcementDb) (pid : ℕ) (db' : EnforcementDb) (place : EnforcementPlace) :
    Prop where
  quiet : Quiet db db'
  sameParty : (∀ id g g', (db.governance.row id).Version g → (db.governance.row id).Version g' →
      g.party = g'.party) → ∀ id g g', (db'.governance.row id).Version g →
        (db'.governance.row id).Version g' → g.party = g'.party
  leaves : ∀ q, q ≠ pid → LeavesTo q db db'
  work : EnforcementWork db' pid place

section Goes

variable {env : EnforcementEnv} {db db' : EnforcementDb} {pid : ℕ} {place place' : EnforcementPlace}
  {party : PartyRef} {command : GovernanceCommand} {row : BookingCreditPartyGovernanceEntity}
  {plan : List Planned}

theorem goes_read (h : EnforcementWork db pid place) : Goes db pid db place :=
  ⟨.refl, id, fun _ _ => .refl, h⟩

theorem goes_insertGovernance (hlock : ¬(db.governance.row env.newId).Locked pid)
    (hnone : db.governance.get pid env.newId = none)
    (hwork : EnforcementWork ⟨db.control, db.parties, db.governance.write pid env.newId row⟩ pid
      place) :
    Goes db pid ⟨db.control, db.parties, db.governance.write pid env.newId row⟩ place := by
  refine ⟨⟨rfl, rfl, committed_write⟩, ?_, ?_, hwork⟩
  · intro hsame id g g' hg hg'
    rcases version_write hg with hv | ⟨hid, rfl⟩ <;> rcases version_write hg' with hv' | ⟨hid', rfl⟩
    · exact hsame id g g' hv hv'
    · subst hid'
      exact absurd hv (not_version_of_free hlock hnone)
    · subst hid
      exact absurd hv' (not_version_of_free hlock hnone)
    · rfl
  · exact fun q hq => ⟨.refl, .refl, others_write hq hlock⟩

theorem goes_writeParty {p : SellerPartyEntity} (hlock : ¬(db.parties.row party).Locked pid)
    (hwork : EnforcementWork { db with parties := db.parties.write pid party p } pid place) :
    Goes db pid { db with parties := db.parties.write pid party p } place :=
  ⟨⟨rfl, committed_write, rfl⟩, id, fun _ hq => ⟨.refl, others_write hq hlock, .refl⟩, hwork⟩

/-- A row is written again, and its party is the one it was. -/
theorem goes_updateGovernance {id : Uuid} {g g' : BookingCreditPartyGovernanceEntity}
    (hget : db.governance.get pid id = some g) (hlock : ¬(db.governance.row id).Locked pid)
    (hparty : g'.party = g.party)
    (hwork : EnforcementWork { db with governance := db.governance.write pid id g' } pid place) :
    Goes db pid { db with governance := db.governance.write pid id g' } place := by
  refine ⟨⟨rfl, rfl, committed_write⟩, ?_, fun q hq => ⟨.refl, .refl, others_write hq hlock⟩,
    hwork⟩
  intro hsame id g₁ g₂ hg₁ hg₂
  have hold := version_of_get hget
  rcases version_write hg₁ with hv₁ | ⟨rfl, rfl⟩ <;>
    rcases version_write hg₂ with hv₂ | ⟨hid, rfl⟩
  · exact hsame id g₁ g₂ hv₁ hv₂
  · subst hid
    exact (hsame id g₁ g hv₁ hold).trans hparty.symm
  · exact hparty.trans (hsame id g g₂ hold hv₂)
  · rfl

theorem work_next (h : CommandWork db pid) (candidates : List Candidate) (plan : List Planned)
    (skipped : ℕ) : EnforcementWork db pid (command.next candidates plan skipped) := by
  induction candidates generalizing skipped with
  | nil => exact h
  | cons candidate rest ih =>
    rw [GovernanceCommand.next]
    split
    · exact ih _
    · exact h

theorem allResolved_of_partition (h : NoWork db pid) (hzero : (partition db pid).unresolved = 0) :
    AllResolved db := by
  rintro party ⟨p, hp, hdel⟩
  have helig : party ∈ eligibleParties db pid :=
    (mem_select h.parties).2 ⟨p, hp, by simpa using hdel⟩
  have hsome : governanceOf db pid party ≠ none := by
    intro hnone
    have hempty := List.length_eq_zero_iff.1 hzero
    have hmem : party ∈ (eligibleParties db pid).filter fun party =>
        governanceOf db pid party = none :=
      List.mem_filter.2 ⟨helig, decide_eq_true hnone⟩
    rw [hempty] at hmem
    cases hmem
  unfold governanceOf at hsome
  split at hsome
  · exact absurd rfl hsome
  rename_i id hhead
  obtain ⟨g, hg, hparty⟩ := (mem_select h.governance).1 (List.mem_of_head? hhead)
  exact ⟨id, g, hg, by simpa using hparty⟩

end Goes

/-! ## The outline -/

/-- What calls may rely on, and that the rollout stays active. -/
def coordination : Outline EnforcementDb LockKey EnforcementPlace EnforcementEnv where
  Assumes _ _ _ _ := True
  Sound := Sound
  Guarantee db db' := Active db → Active db'
  Work := EnforcementWork
  holds place key mode := key = .coordination ∧ place.coordination = some mode

section Keeps

variable {db db' : EnforcementDb} {pid : ℕ} {place place' : EnforcementPlace} {party : PartyRef}

theorem none_of_together (h : Together coordination.holds place place')
    (hp : place.coordination = some .exclusive) : place'.coordination = none := by
  cases hq : place'.coordination with
  | none => rfl
  | some =>
    have hshared := (h _ _ _ ⟨rfl, hp⟩ ⟨rfl, hq⟩).1
    cases hshared

theorem not_holds (h : place.coordination = none) (key : LockKey) (mode : LockMode) :
    ¬coordination.holds place key mode := by
  rintro ⟨-, hmode⟩
  rw [h] at hmode
  cases hmode

open EnforcementWork

theorem keeps_goes (hs : Sound db) (hg : Goes db pid db' place') :
    coordination.Keeps db pid place db' where
  sound := ⟨(generation_congr hg.quiet.control).2 hs.generation,
    fun ha => hg.quiet.allResolved.2 (hs.resolved ((active_congr hg.quiet.control).1 ha)),
    hg.sameParty hs.sameParty⟩
  guarantee := (active_congr hg.quiet.control).2
  others := fun q _ hq _ hw => frame (hg.leaves q hq) hw (hg.quiet.relies _)

theorem leavesTo_commit {q : ℕ} (hq : q ≠ pid) : LeavesTo q db (db.commit pid) :=
  ⟨others_commit hq, others_commit hq, others_commit hq⟩

theorem keeps_rollback (hs : Sound db) : coordination.Keeps db pid place (db.rollback pid) where
  sound := ⟨(generation_congr quiet_rollback.control).2 hs.generation,
    fun ha => quiet_rollback.allResolved.2
      (hs.resolved ((active_congr quiet_rollback.control).1 ha)),
    fun id g g' hg hg' => hs.sameParty id g g' (Row.version_of_rollback hg)
      (Row.version_of_rollback hg')⟩
  guarantee := (active_congr quiet_rollback.control).2
  others := fun _ _ hq _ hw => frame
    ⟨others_rollback hq, others_rollback hq, others_rollback hq⟩ hw
    (quiet_rollback.relies _)

theorem sameParty_commit (hs : Sound db) (id : Uuid) (g g' : BookingCreditPartyGovernanceEntity)
    (hg : ((db.commit pid).governance.row id).Version g)
    (hg' : ((db.commit pid).governance.row id).Version g') : g.party = g'.party :=
  hs.sameParty id g g' (Row.version_of_commit hg) (Row.version_of_commit hg')

theorem resolved_commit (hs : Sound db) (h : Resolved db party) :
    Resolved (db.commit pid) party := by
  obtain ⟨id, g, hg, hparty⟩ := h
  by_cases hw : (db.governance.row id).WrittenBy pid
  · obtain ⟨g', hg'⟩ := hw
    refine ⟨id, g', Wrote.committed_commit hg', ?_⟩
    rw [← hparty]
    exact hs.sameParty id g' g (Or.inr ⟨pid, hg'⟩) (Or.inl hg)
  · exact ⟨id, g, (committed_commit_of_not hw).trans hg, hparty⟩

theorem eligible_commit (h : Eligible (db.commit pid) party) :
    Eligible db party ∨ ∃ p, db.parties.Wrote pid party p ∧ p.deletedAt = none := by
  obtain ⟨p, hp, hdel⟩ := h
  by_cases hw : (db.parties.row party).WrittenBy pid
  · obtain ⟨p', hp'⟩ := hw
    have hcommit : (db.commit pid).parties.committed party = some p' :=
      (Wrote.committed_commit hp')
    rw [hcommit] at hp
    cases hp
    exact Or.inr ⟨p, hp', hdel⟩
  · exact Or.inl ⟨p, (committed_commit_of_not hw).symm.trans hp, hdel⟩

theorem keeps_commit (hs : Sound db) (hu : db.control.Untouched pid)
    (hall : AllResolved db → AllResolved (db.commit pid)) :
    coordination.Keeps db pid place (db.commit pid) := by
  have hc : (db.commit pid).control.committed = db.control.committed :=
    hu.committed_commit
  refine ⟨⟨(generation_congr hc).2 hs.generation, ?_, sameParty_commit hs⟩, (active_congr hc).2, ?_⟩
  · exact fun ha => hall (hs.resolved ((active_congr hc).1 ha))
  · exact fun q place' hq _ hw => frame (leavesTo_commit hq) hw
      ⟨fun _ hn ha => hn ((active_congr hc).1 ha), fun _ => hall⟩

theorem allResolved_commit (hs : Sound db) (hu : db.parties.Untouched pid)
    (hall : AllResolved db) : AllResolved (db.commit pid) := by
  intro party he
  rcases eligible_commit he with he' | ⟨_, hp, -⟩
  · exact resolved_commit hs (hall party he')
  · exact absurd hp.writtenBy (hu party)

/-- A party is created: it is resolved at once, or the rollout is inactive and nobody else relies
on all parties being resolved. -/
theorem keeps_creation {governed : Bool} (hs : Sound db)
    (h : EnforcementWork db pid (.commitCreation party governed)) :
    coordination.Keeps db pid (.commitCreation party governed) (db.commit pid) := by
  obtain ⟨hwork, hgoverned⟩ := h
  cases governed with
  | true =>
    obtain ⟨id, g, hg, rfl⟩ := hgoverned
    refine keeps_commit hs hwork.control ?_
    intro hall party he
    rcases eligible_commit he with he' | ⟨_, hp, -⟩
    · exact resolved_commit hs (hall party he')
    · obtain rfl := hwork.parties party hp.writtenBy
      exact ⟨id, g, hg.committed_commit, rfl⟩
  | false =>
    have hinact : ¬Active db := hgoverned
    have hc : (db.commit pid).control.committed = db.control.committed :=
      hwork.control.committed_commit
    have hinact' : ¬Active (db.commit pid) := fun ha => hinact ((active_congr hc).1 ha)
    refine ⟨⟨(generation_congr hc).2 hs.generation, fun ha => absurd ha hinact',
      sameParty_commit hs⟩, fun ha => absurd ha hinact, ?_⟩
    intro _ place' hq htog hw
    refine frame (leavesTo_commit hq) hw ⟨fun _ _ => hinact', ?_⟩
    intro hexclusive
    -- the lock of the creation would not go together with an exclusive one
    have hshared := (htog .coordination .shared .exclusive ⟨rfl, rfl⟩ ⟨rfl, hexclusive⟩).2
    cases hshared

theorem ControlWork.committed {before after : BookingCreditEnforcementControlEntity}
    (h : ControlWork db pid before after) :
    (db.commit pid).control.committed enforcementControlSingletonId = some after :=
  (wrote_of_row h.row).committed_commit

section

variable (hs : Sound db)
include hs

theorem keeps_activation (h : EnforcementWork db pid .commitActivation) :
    coordination.Keeps db pid .commitActivation (db.commit pid) := by
  obtain ⟨⟨c, _, hinact, hwork⟩, hall⟩ := h
  have hact : Active (db.commit pid) := ⟨_, hwork.committed, rfl⟩
  obtain ⟨_, hc', hgen⟩ := hs.generation
  have hzero : c.activationGeneration = 0 := by
    rw [committed_of_row hwork.row] at hc'
    cases hc'
    simpa [hinact] using hgen
  have hall' : AllResolved (db.commit pid) := allResolved_commit hs hwork.parties hall
  refine ⟨⟨⟨_, hwork.committed, ?_⟩, fun _ => hall', sameParty_commit hs⟩, fun _ => hact, ?_⟩
  · simp [BookingCreditEnforcementControlEntity.activated, hzero]
  · intro q place' hq htog hw
    refine frame (leavesTo_commit hq) hw ⟨?_, fun _ _ => hall'⟩
    exact fun hlock => absurd (none_of_together htog rfl) hlock

theorem keeps_switch (h : EnforcementWork db pid .commitSwitch) :
    coordination.Keeps db pid .commitSwitch (db.commit pid) := by
  obtain ⟨c, _, _, hwork⟩ := h
  have hbef : db.control.committed enforcementControlSingletonId = some c :=
    committed_of_row hwork.row
  have hact : Active (db.commit pid) ↔ Active db := by
    rw [Active, Active, hwork.committed, hbef]
    simp [BookingCreditEnforcementControlEntity.switched]
  obtain ⟨c', hc', hgen⟩ := hs.generation
  obtain rfl : c = c' := Option.some.inj (hbef.symm.trans hc')
  refine ⟨⟨⟨_, hwork.committed, hgen⟩, ?_, sameParty_commit hs⟩, hact.2, ?_⟩
  · exact fun ha => allResolved_commit hs hwork.parties (hs.resolved (hact.1 ha))
  · exact fun q place' hq _ hw => frame (leavesTo_commit hq) hw
      ⟨fun _ hn ha => hn (hact.1 ha), fun _ => allResolved_commit hs hwork.parties⟩

theorem keeps_noWork (h : NoWork db pid) :
    coordination.Keeps db pid place (db.commit pid) :=
  keeps_commit hs h.control (allResolved_commit hs h.parties)

theorem keeps_deletion (h : EnforcementWork db pid (.commitDeletion party)) :
    coordination.Keeps db pid (.commitDeletion party) (db.commit pid) := by
  obtain ⟨hu, -, hdel⟩ := h
  refine keeps_commit hs hu ?_
  intro hall party' he
  rcases eligible_commit he with he' | ⟨p, hp, hnone⟩
  · exact resolved_commit hs (hall party' he')
  · exact absurd hnone (hdel party' p hp)

end

theorem noWork_commit : NoWork (db.commit pid) pid :=
  ⟨untouched_commit, untouched_commit, untouched_commit⟩

theorem noWork_rollback : NoWork (db.rollback pid) pid :=
  ⟨untouched_rollback, untouched_rollback, untouched_rollback⟩

end Keeps

section Proof

variable {hashtext : PartyRef → ℤ} {env : EnforcementEnv} {db db' : EnforcementDb} {pid : ℕ}
  {at' place : EnforcementPlace}

/-- What the proof of one statement has to give. -/
abbrev Shown (db : EnforcementDb) (pid : ℕ) (at' : EnforcementPlace) : EnforcementNext → Prop :=
  Next.Meets (fun db' place => Goes db pid db' place ∧ place.coordination = at'.coordination)
    (fun key mode place => EnforcementWork db pid place ∧
      (place.coordination = at'.coordination ∨ place.coordination = none ∨
        key = .coordination ∧ place.coordination = some mode))
    (fun place => coordination.Keeps db pid at' (db.commit pid) ∧ ∃ result, place = .returned result)
    fun place => ∃ error, place = .threw error

theorem coordination_next (command : GovernanceCommand) (candidates : List Candidate)
    (plan : List Planned) (skipped : ℕ) :
    (command.next candidates plan skipped).coordination = some .shared := by
  induction candidates generalizing skipped with
  | nil => rfl
  | cons candidate rest ih =>
    rw [GovernanceCommand.next]
    split
    · exact ih _
    · rfl

theorem not_active_of_controlRow {c : BookingCreditEnforcementControlEntity}
    (hu : db.control.Untouched pid) (hc : controlRow db pid = some c)
    (hne : c.rolloutState ≠ .active) : ¬Active db := by
  rintro ⟨_, hc', hact⟩
  rw [controlRow, hu.get_eq, hc'] at hc
  cases hc
  exact hne hact

theorem shown_insertGovernance {row : BookingCreditPartyGovernanceEntity}
    (hplace : place.coordination = at'.coordination)
    (hwork : EnforcementWork ⟨db.control, db.parties, db.governance.write pid env.newId row⟩ pid
      place) : Shown db pid at' (insertGovernance env db pid row place) := by
  unfold insertGovernance
  split
  · trivial
  · exact ⟨_, rfl⟩
  · exact ⟨_, rfl⟩
  · rename_i hdone
    obtain ⟨-, rfl, hlock, hnone, -⟩ := insert_eq_done hdone
    exact ⟨goes_insertGovernance hlock hnone hwork, hplace⟩

theorem shown_setControl {f : BookingCreditEnforcementControlEntity →
    BookingCreditEnforcementControlEntity} (h : NoWork db pid)
    (hplace : place.coordination = at'.coordination)
    (hwork : ∀ c db', db.control.committed enforcementControlSingletonId = some c → Quiet db db' →
      ControlWork db' pid c (f c) → EnforcementWork db' pid place) :
    Shown db pid at' (setControl db pid f place) := by
  unfold setControl
  split
  · trivial
  · exact ⟨_, rfl⟩
  · exact ⟨_, rfl⟩
  · rename_i hdone
    obtain ⟨c, hget, -, hlock, -, rfl⟩ := update_eq_done hdone
    have hquiet : Quiet db
        { db with control := db.control.write pid enforcementControlSingletonId (f c) } :=
      ⟨committed_write, rfl, rfl⟩
    refine ⟨⟨hquiet, id, fun q hq => ⟨others_write hq hlock, .refl, .refl⟩,
      hwork c _ (h.control.get_eq.symm.trans hget) hquiet
        ⟨?_, h.control.onlyAt.write, h.parties, h.governance⟩⟩, hplace⟩
    rw [row_write (h.control _), hget]

theorem shown_writePlan {command : GovernanceCommand} {plan : List Planned}
    {outcome : GovernanceCommandOutcome} (env : EnforcementEnv) (hs : Sound db) (h : CommandWork db pid) :
    Shown db pid (.writePlan command plan outcome) (writePlan env db pid command plan outcome) := by
  unfold writePlan
  split
  · exact ⟨keeps_commit hs h.control (allResolved_commit hs h.parties), _, rfl⟩
  · split
    · exact shown_insertGovernance rfl ⟨h.control, h.parties⟩
    · split
      · trivial
      · exact ⟨goes_read h, rfl⟩
      · exact ⟨_, rfl⟩
      · rename_i hdone
        obtain ⟨_, hget, -, hlock, -, rfl⟩ := update_eq_done hdone
        exact ⟨goes_updateGovernance hget hlock rfl ⟨h.control, h.parties⟩, rfl⟩

theorem shown_deleteParty (env : EnforcementEnv) (hs : Sound db) (h : NoWork db pid) :
    Shown db pid (.deleteParty party) (deleteParty env db pid party) := by
  unfold deleteParty
  split
  · trivial
  · exact ⟨keeps_noWork hs h, _, rfl⟩
  · exact ⟨_, rfl⟩
  · rename_i hdone
    obtain ⟨_, -, -, hlock, -, rfl⟩ := update_eq_done hdone
    refine ⟨goes_writeParty hlock ⟨h.control, h.governance, ?_⟩, rfl⟩
    intro party' p' hp'
    obtain rfl : party' = party := h.parties.onlyAt.write _ hp'.writtenBy
    rw [hp'.unique wrote_write_self]
    simp

/-- What each statement of a command keeps. -/
theorem shown_statement (hashtext : PartyRef → ℤ) (env : EnforcementEnv) (hs : Sound db)
    (h : EnforcementWork db pid at') :
    Shown db pid at' (enforcementStatement hashtext env db pid at') := by
  cases at' with
  | idle | returned | threw => trivial
  | insertParty =>
    simp only [enforcementStatement, insertParty]
    split
    · trivial
    · exact ⟨_, rfl⟩
    · exact ⟨_, rfl⟩
    · rename_i hdone
      obtain ⟨-, rfl, hlock, -, -⟩ := insert_eq_done hdone
      exact ⟨goes_writeParty hlock ⟨h.control, h.parties.onlyAt.write⟩, rfl⟩
  | creationCoordination | commandCoordination | activationCoordination =>
    exact ⟨h, Or.inr (Or.inr ⟨rfl, rfl⟩)⟩
  | creationControl =>
    simp only [enforcementStatement, readForConfirmation]
    split
    · exact ⟨_, rfl⟩
    · rename_i c hc
      split
      · exact ⟨h, Or.inl rfl⟩
      · rename_i hne
        exact ⟨⟨h, not_active_of_controlRow h.control hc hne⟩, Or.inl rfl⟩
  | insertGoverned =>
    exact shown_insertGovernance rfl ⟨⟨h.control, h.parties⟩, env.newId, _, wrote_write_self, rfl⟩
  | commitCreation => exact ⟨keeps_creation hs h, _, rfl⟩
  | commandControl =>
    simp only [enforcementStatement, readForConfirmation]
    split
    · exact ⟨_, rfl⟩
    · exact ⟨h, Or.inl rfl⟩
  | findCandidates => exact ⟨goes_read (work_next h _ _ _), coordination_next _ _ _ _⟩
  | lockParty => exact ⟨h, Or.inl rfl⟩
  | readParty =>
    simp only [enforcementStatement, readParty]
    split <;> exact ⟨goes_read (work_next h _ _ _), coordination_next _ _ _ _⟩
  | writePlan => exact shown_writePlan env hs h
  | activationControl =>
    simp only [enforcementStatement, lockControl]
    split
    · exact ⟨_, rfl⟩
    · rename_i c hc
      split
      · exact ⟨h, Or.inr (Or.inl rfl)⟩
      · rename_i hne
        exact ⟨⟨h, not_active_of_controlRow h.control hc hne⟩, Or.inl rfl⟩
  | readPartition =>
    simp only [enforcementStatement, readPartition]
    split
    · exact ⟨_, rfl⟩
    · exact ⟨goes_read ⟨h.1, h.2, allResolved_of_partition h.1 (by omega)⟩, rfl⟩
  | setActive =>
    obtain ⟨hno, hinact, hall⟩ := h
    refine shown_setControl hno rfl fun c db' hc hquiet hwork =>
      ⟨⟨c, env.now, ?_, hwork⟩, hquiet.allResolved.2 hall⟩
    cases hstate : c.rolloutState with
    | inactive => rfl
    | active => exact absurd ⟨c, hc, hstate⟩ hinact
  | commitActivation => exact ⟨keeps_activation hs h, _, rfl⟩
  | switchControl =>
    simp only [enforcementStatement, lockControl]
    split
    · exact ⟨_, rfl⟩
    · split <;> exact ⟨h, Or.inl rfl⟩
  | setKillSwitch target =>
    exact shown_setControl h rfl fun c _ _ _ hwork => ⟨c, target, env.now, hwork⟩
  | commitSwitch => exact ⟨keeps_switch hs h, _, rfl⟩
  | commitStatus => exact ⟨keeps_noWork hs h, _, rfl⟩
  | deleteParty => exact shown_deleteParty env hs h
  | commitDeletion => exact ⟨keeps_deletion hs h, _, rfl⟩

/-- Each statement keeps that nobody is missed. -/
theorem activation_proof : Proof (enforcement hashtext) coordination where
  refl := fun _ ha => ha
  trans := fun _ _ _ h h' ha => h' (h ha)
  idle_holds := not_holds rfl
  first := by
    intro db pid request hw
    cases request with
    | create => exact ⟨hw, not_holds rfl⟩
    | command => exact ⟨⟨hw.control, hw.parties⟩, not_holds rfl⟩
    | activate | moveKillSwitch | delete => exact ⟨hw, not_holds rfl⟩
  goes := by
    intro env db pid at' db' place _ hs hw hst
    obtain ⟨hg, hplace⟩ := (shown_statement hashtext env hs hw).of_goes hst
    refine ⟨keeps_goes hs hg, hg.work, ?_⟩
    rintro key mode ⟨hkey, hmode⟩
    exact ⟨hkey, hplace.symm.trans hmode⟩
  locks := by
    intro env db pid at' key mode place _ hs hw hst
    obtain ⟨hw', hlock⟩ := (shown_statement hashtext env hs hw).of_locks hst
    refine ⟨hw', ?_⟩
    rintro key' mode' ⟨rfl, hmode'⟩
    rcases hlock with hsame | hnone | ⟨rfl, hmode⟩
    · exact Or.inl ⟨rfl, hsame.symm.trans hmode'⟩
    · rw [hnone] at hmode'
      cases hmode'
    · exact Or.inr ⟨rfl, Option.some.inj (hmode'.symm.trans hmode)⟩
  commits := by
    intro env db pid at' place _ hs hw hst
    obtain ⟨hk, _, rfl⟩ := (shown_statement hashtext env hs hw).of_commits hst
    exact ⟨hk, noWork_commit, not_holds rfl⟩
  throws := by
    intro env db pid at' place _ hs hw hst
    obtain ⟨_, rfl⟩ := (shown_statement hashtext env hs hw).of_throws hst
    exact ⟨keeps_rollback hs, noWork_rollback, not_holds rfl⟩
  dies := fun db pid place _ hs _ => ⟨keeps_rollback hs, noWork_rollback, not_holds rfl⟩

end Proof

/-! ## Runs -/

theorem sound_initial : Sound .initial where
  generation := ⟨initialControl, rfl, rfl⟩
  resolved := by
    rintro ⟨_, hc, hact⟩
    cases hc
    cases hact
  sameParty := by
    intro id g g' hg
    simp [EnforcementDb.initial, Versioned.empty, Row.Version, Row.empty] at hg

theorem noWork_initial (pid : ℕ) : NoWork .initial pid where
  control := by
    rintro k ⟨_, hc⟩
    by_cases hk : k = enforcementControlSingletonId
    · subst hk
      cases hc
    · simp [EnforcementDb.initial, row_write_ne hk, Versioned.empty, Row.empty, Row.commit] at hc
  parties := untouched_empty
  governance := untouched_empty

/-- In every reachable state, while the rollout is active every committed eligible party has a
governance row; from there on, it never stops being active; and its generation is the number of
activations, zero before the one that there is and one after it. -/
theorem activation_run {hashtext : PartyRef → ℤ}
    {es : List (Step EnforcementRequest EnforcementEnv)}
    {s : System EnforcementDb LockKey EnforcementPlace}
    (h : runFrom (enforcement hashtext).step ((enforcement hashtext).start .initial) es = some s) :
    (Active s.db → ∀ party, Eligible s.db party → Resolved s.db party) ∧ GenerationCounts s.db ∧
      ∀ es' s', runFrom (enforcement hashtext).step s es' = some s' →
        (Active s.db → Active s'.db) ∧ GenerationCounts s'.db := by
  have hproof : Proof (enforcement hashtext) coordination := activation_proof
  have hs := (hproof.holds_run (hproof.holds_start sound_initial noWork_initial)
    (along_meets (fun _ _ _ _ => trivial) es) h).1
  refine ⟨hs.sound.resolved, hs.sound.generation, ?_⟩
  intro es' s' h'
  obtain ⟨hs', hact⟩ := hproof.holds_run hs (along_meets (fun _ _ _ _ => trivial) es') h'
  exact ⟨hact, hs'.sound.generation⟩

/-- The next `n` statements. -/
def takes (pid n : ℕ) (newId : Uuid) : List (Step EnforcementRequest EnforcementEnv) :=
  List.replicate n ⟨pid, .statement ⟨0, newId, []⟩⟩

/-- A professional is created while the rollout is inactive, and activation is refused until the
professional has been exempted.  A business that is created meanwhile waits for the activation,
and is governed at once. -/
def lateSeller : List (Step EnforcementRequest EnforcementEnv) :=
  [⟨0, .start (.create ⟨.professional, 1⟩)⟩] ++ takes 0 4 0 ++
    [⟨1, .start .activate⟩] ++ takes 1 3 0 ++
    [⟨2, .start (.command .exempt)⟩] ++ takes 2 7 10 ++
    [⟨3, .start .activate⟩, ⟨4, .start (.create ⟨.business, 2⟩)⟩] ++ takes 3 2 0 ++ takes 4 1 0 ++
    takes 3 3 0 ++ takes 4 4 11

theorem activation_run_lateSeller :
    ∃ s, runFrom (enforcement fun party => party.partyId).step
        ((enforcement fun party => party.partyId).start .initial) lateSeller = some s ∧
      s.calls 1 = .threw (.activationRefused ⟨1, 0, 0, 1⟩) ∧ s.calls 4 = .returned .created ∧
      GenerationCounts s.db ∧ Active s.db ∧ ∀ party, Eligible s.db party → Resolved s.db party := by
  obtain ⟨s, hs, h1, h4, hact⟩ : ∃ s ∈ runFrom (enforcement fun party => party.partyId).step
      ((enforcement fun party => party.partyId).start .initial) lateSeller,
      s.calls 1 = .threw (.activationRefused ⟨1, 0, 0, 1⟩) ∧ s.calls 4 = .returned .created ∧
      ∃ c ∈ s.db.control.committed enforcementControlSingletonId, c.rolloutState = .active := by
    decide +kernel
  obtain ⟨hresolved, hgen, -⟩ := activation_run hs
  exact ⟨s, hs, h1, h4, hgen, hact, hresolved hact⟩

end BeauClick.Enforcement
