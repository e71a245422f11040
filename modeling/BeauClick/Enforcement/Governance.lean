import BeauClick.Credits.Accounting

/-!
# Governance of booking-credit enforcement

`enforcement/booking-credit-enforcement-governance.service.ts`: sellers are created, governed and
exempted, and enforcement is activated, any number of calls at the same time.  Who creates or
resolves sellers holds the coordination lock shared, who activates holds it exclusively, each
until its commit.
-/

namespace BeauClick.Enforcement

open Commerce Credits Locks ReadCommitted ReadCommitted.Versioned Transactions

/-! ## Rows -/

/-- `ENFORCEMENT_ROLLOUT_STATES`. -/
inductive EnforcementRolloutState where
  | inactive
  | active
  deriving DecidableEq

/-- `KILL_SWITCH_STATES`. -/
inductive KillSwitchState where
  | released
  | engaged
  deriving DecidableEq

/-- `PARTY_GOVERNANCE_STATES`. -/
inductive PartyGovernanceState where
  | legacyExempt
  | governed
  deriving DecidableEq

/-- `PARTY_GOVERNANCE_CAUSES`. -/
inductive PartyGovernanceCause where
  | explicitTransition
  | explicitExemption
  | createdUnderEnforcement

/-- `commercial.booking_credit_enforcement_control`. -/
structure BookingCreditEnforcementControlEntity where
  rolloutState : EnforcementRolloutState
  activationGeneration : ℕ
  activatedAt : Option Instant
  killSwitchState : KillSwitchState
  killSwitchChangedAt : Option Instant

/-- `commercial.booking_credit_party_governance`. -/
structure BookingCreditPartyGovernanceEntity where
  party : PartyRef
  state : PartyGovernanceState
  cause : PartyGovernanceCause
  proofGrantId : Option Uuid
  governedAt : Option Instant

/-- A row of `provider.professionals` or of `business.businesses`, by the type of the party. -/
structure SellerPartyEntity where
  deletedAt : Option Instant

def enforcementControlSingletonId : ℕ := 1

/-- The control row that the migration inserts. -/
def initialControl : BookingCreditEnforcementControlEntity where
  rolloutState := .inactive
  activationGeneration := 0
  activatedAt := none
  killSwitchState := .released
  killSwitchChangedAt := none

/-! ## The tables -/

/-- The tables of the enforcement. -/
structure EnforcementDb where
  control : Versioned ℕ ℕ BookingCreditEnforcementControlEntity
  parties : Versioned ℕ PartyRef SellerPartyEntity
  governance : Versioned ℕ Uuid BookingCreditPartyGovernanceEntity

namespace EnforcementDb

/-- The tables after the migration. -/
def initial : EnforcementDb where
  control := (Versioned.empty.write 0 enforcementControlSingletonId initialControl).commit 0
  parties := .empty
  governance := .empty

/-- Transaction `pid` commits. -/
def commit (db : EnforcementDb) (pid : ℕ) : EnforcementDb where
  control := db.control.commit pid
  parties := db.parties.commit pid
  governance := db.governance.commit pid

/-- Transaction `pid` rolls back. -/
def rollback (db : EnforcementDb) (pid : ℕ) : EnforcementDb where
  control := db.control.rollback pid
  parties := db.parties.rollback pid
  governance := db.governance.rollback pid

end EnforcementDb

/-- What is locked: the coordination key, the control row, and the hash of a party. -/
inductive LockKey where
  | coordination
  | control
  | party (hash : ℤ)
  deriving DecidableEq

section Reads

variable (db : EnforcementDb) (pid : ℕ)

/-- `ELIGIBLE_PARTIES_SQL`. -/
def eligibleParties : List PartyRef := db.parties.select pid fun p => p.deletedAt = none

/-- The governance row of a party. -/
def governanceOf (party : PartyRef) : Option (Uuid × BookingCreditPartyGovernanceEntity) :=
  match (db.governance.select pid fun g => g.party = party).head? with
  | none => none
  | some id => (db.governance.get pid id).map fun g => (id, g)

/-- `readForConfirmation`, and the read of `activate`: the one control row. -/
def controlRow : Option BookingCreditEnforcementControlEntity :=
  db.control.get pid enforcementControlSingletonId

/-- What `partition` counts. -/
structure EnforcementPartition where
  eligible : ℕ
  governed : ℕ
  legacyExempt : ℕ
  unresolved : ℕ
  deriving DecidableEq

/-- How many of the eligible parties are in each state. -/
def partition : EnforcementPartition where
  eligible := (eligibleParties db pid).length
  governed := ((eligibleParties db pid).filter fun party =>
    (governanceOf db pid party).map (·.2.state) = some .governed).length
  legacyExempt := ((eligibleParties db pid).filter fun party =>
    (governanceOf db pid party).map (·.2.state) = some .legacyExempt).length
  unresolved := ((eligibleParties db pid).filter fun party =>
    governanceOf db pid party = none).length

end Reads

/-! ## Calls -/

/-- `transitionEntitledParties` and `exemptUnentitledParties`. -/
inductive GovernanceCommand where
  | transition
  | exempt
  deriving DecidableEq

/-- A party that a command may resolve, with its oldest positive grant. -/
structure Candidate where
  party : PartyRef
  proofGrantId : Option Uuid
  deriving DecidableEq

/-- A party that a command resolves, with the row that it has. -/
structure Planned where
  party : PartyRef
  governanceId : Option Uuid
  proofGrantId : Option Uuid
  deriving DecidableEq

/-- What a command answers. -/
structure GovernanceCommandOutcome where
  affected : ℕ
  skipped : ℕ
  deriving DecidableEq

/-- Why a command is refused. -/
inductive EnforcementError where
  /-- `CommercialEnforcementActivationRefusedException`. -/
  | activationRefused (partition : EnforcementPartition)
  /-- `EnforcementControlMalformedError`. -/
  | malformed
  /-- An error of the database. -/
  | database
  deriving DecidableEq

/-- What a call answers. -/
inductive EnforcementResult where
  | created
  | command (outcome : GovernanceCommandOutcome)
  | status
  | deleted
  deriving DecidableEq

/-- What a call is asked for. -/
inductive EnforcementRequest where
  /-- A transaction that creates a party, and runs `initializeCreatedParty`. -/
  | create (party : PartyRef)
  | command (command : GovernanceCommand)
  | activate
  | moveKillSwitch (target : KillSwitchState)
  /-- A transaction that sets `deleted_at`. -/
  | delete (party : PartyRef)

/-- Where a call stands. -/
inductive EnforcementPlace where
  | idle
  | insertParty (party : PartyRef)
  | creationCoordination (party : PartyRef)
  | creationControl (party : PartyRef)
  | insertGoverned (party : PartyRef)
  | commitCreation (party : PartyRef) (governed : Bool)
  | commandCoordination (command : GovernanceCommand)
  | commandControl (command : GovernanceCommand)
  | findCandidates (command : GovernanceCommand)
  | lockParty (command : GovernanceCommand) (candidate : Candidate) (rest : List Candidate)
      (plan : List Planned) (skipped : ℕ)
  | readParty (command : GovernanceCommand) (candidate : Candidate) (rest : List Candidate)
      (plan : List Planned) (skipped : ℕ)
  /-- What is left of the plan, and what the command has come to. -/
  | writePlan (command : GovernanceCommand) (plan : List Planned)
      (outcome : GovernanceCommandOutcome)
  | activationCoordination
  | activationControl
  | readPartition
  | setActive
  | commitActivation
  | switchControl (target : KillSwitchState)
  | setKillSwitch (target : KillSwitchState)
  | commitSwitch
  /-- The control row is already as it is asked to be. -/
  | commitStatus
  | deleteParty (party : PartyRef)
  | commitDeletion (party : PartyRef)
  | returned (result : EnforcementResult)
  | threw (error : EnforcementError)
  deriving DecidableEq

/-- A call there still runs. -/
def EnforcementPlace.running : EnforcementPlace → Bool
  | idle => false
  | returned _ => false
  | threw _ => false
  | _ => true

/-- What a statement is given from outside; the grants are those that it reads in the ledger. -/
structure EnforcementEnv where
  now : Instant
  newId : Uuid
  grants : List Grant

/-! ## What the statements write -/

/-- The row of a party that is created under active enforcement. -/
def governedAtCreation (party : PartyRef) (now : Instant) : BookingCreditPartyGovernanceEntity where
  party := party
  state := .governed
  cause := .createdUnderEnforcement
  proofGrantId := none
  governedAt := some now

/-- The row of a party that a command resolves. -/
def GovernanceCommand.row (command : GovernanceCommand) (planned : Planned) (now : Instant) :
    BookingCreditPartyGovernanceEntity :=
  match command with
  | transition => ⟨planned.party, .governed, .explicitTransition, planned.proofGrantId, some now⟩
  | exempt => ⟨planned.party, .legacyExempt, .explicitExemption, none, none⟩

namespace BookingCreditEnforcementControlEntity

/-- The `UPDATE` of `activate`. -/
def activated (c : BookingCreditEnforcementControlEntity) (now : Instant) :
    BookingCreditEnforcementControlEntity :=
  { c with
    rolloutState := .active
    activationGeneration := c.activationGeneration + 1
    activatedAt := some now }

/-- The `UPDATE` of `moveKillSwitch`. -/
def switched (c : BookingCreditEnforcementControlEntity) (target : KillSwitchState)
    (now : Instant) : BookingCreditEnforcementControlEntity :=
  { c with
    killSwitchState := target
    killSwitchChangedAt := some now }

end BookingCreditEnforcementControlEntity

/-- The `UPDATE` of a row from `legacy_exempt` to `governed`. -/
def BookingCreditPartyGovernanceEntity.transitioned (g : BookingCreditPartyGovernanceEntity)
    (proofGrantId : Option Uuid) (now : Instant) : BookingCreditPartyGovernanceEntity :=
  { g with
    state := .governed
    cause := .explicitTransition
    proofGrantId := proofGrantId
    governedAt := some now }

/-! ## The plan of a command -/

/-- The oldest positive grant of a party. -/
def proofGrant (grants : List Grant) (party : PartyRef) : Option Uuid :=
  ((positiveGrants (grants.filter fun g => g.2.subscriber = party)).insertionSort
    fun a b => a.2.grantedAt < b.2.grantedAt ∨ a.2.grantedAt = b.2.grantedAt ∧ a.1 ≤ b.1).head?.map
    (·.1)

/-- The order of parties: by type, a business first, and by id. -/
def PartyBefore (a b : PartyRef) : Prop :=
  a.partyType = .business ∧ b.partyType = .professional ∨
    a.partyType = b.partyType ∧ a.partyId ≤ b.partyId
  deriving Decidable

/-- The state of its governance row leaves a party to the command. -/
def GovernanceCommand.Resolves (command : GovernanceCommand) (state : Option PartyGovernanceState) :
    Prop :=
  match command with
  | transition => state ≠ some .governed
  | exempt => state = none

instance (command : GovernanceCommand) (state : Option PartyGovernanceState) :
    Decidable (command.Resolves state) := by
  cases command <;> unfold GovernanceCommand.Resolves <;> infer_instance

/-- The command is for parties that have a positive grant, or for those that have none. -/
def GovernanceCommand.skips (command : GovernanceCommand) (candidate : Candidate) : Bool :=
  match command with
  | transition => candidate.proofGrantId.isNone
  | exempt => candidate.proofGrantId.isSome

/-- Where a command goes on with the candidates that are left. -/
def GovernanceCommand.next (command : GovernanceCommand) (candidates : List Candidate)
    (plan : List Planned) (skipped : ℕ) : EnforcementPlace :=
  match candidates with
  | [] => .writePlan command plan ⟨plan.length, skipped⟩
  | candidate :: rest =>
    if command.skips candidate then command.next rest plan (skipped + 1)
    else .lockParty command candidate rest plan skipped

/-! ## Statements -/

abbrev EnforcementNext := Next EnforcementDb LockKey EnforcementPlace

section Statements

variable (hashtext : PartyRef → ℤ) (env : EnforcementEnv) (db : EnforcementDb) (pid : ℕ)

/-- The insert of a party that is created. -/
def insertParty (party : PartyRef) : EnforcementNext :=
  match db.parties.insert pid party ⟨none⟩ (fun _ => False) with
  | .waits => .waits
  | .unmatched => .throws (.threw .database)
  | .violated => .throws (.threw .database)
  | .done _ parties => .goes { db with parties := parties } (.creationCoordination party)

/-- `readForConfirmation`, which locks the control row `FOR SHARE`. -/
def readForConfirmation (place : BookingCreditEnforcementControlEntity → EnforcementPlace) :
    EnforcementNext :=
  match controlRow db pid with
  | none => .throws (.threw .malformed)
  | some control => .locks .control .shared (place control)

/-- The insert of a governance row, under `uq_bcpg_party`. -/
def insertGovernance (row : BookingCreditPartyGovernanceEntity) (place : EnforcementPlace) :
    EnforcementNext :=
  match db.governance.insert pid env.newId row (fun g => g.party = row.party) with
  | .waits => .waits
  | .unmatched => .throws (.threw .database)
  | .violated => .throws (.threw .database)
  | .done _ governance => .goes { db with governance := governance } place

/-- The candidates of a command. -/
def findCandidates (command : GovernanceCommand) : EnforcementNext :=
  let parties := (eligibleParties db pid).filter fun party =>
    command.Resolves ((governanceOf db pid party).map (·.2.state))
  .goes db (command.next ((parties.insertionSort PartyBefore).map fun party =>
    ⟨party, proofGrant env.grants party⟩) [] 0)

/-- A candidate is decided again under its lock. -/
def readParty (command : GovernanceCommand) (candidate : Candidate) (rest : List Candidate)
    (plan : List Planned) (skipped : ℕ) : EnforcementNext :=
  let current := governanceOf db pid candidate.party
  if command.Resolves (current.map (·.2.state)) then
    .goes db (command.next rest
      (plan ++ [⟨candidate.party, current.map (·.1), candidate.proofGrantId⟩]) skipped)
  else .goes db (command.next rest plan skipped)

/-- The writes of a command. -/
def writePlan (command : GovernanceCommand) (plan : List Planned)
    (outcome : GovernanceCommandOutcome) : EnforcementNext :=
  match plan with
  | [] => .commits (.returned (.command outcome))
  | planned :: rest =>
    match planned.governanceId with
    | none => insertGovernance env db pid (command.row planned env.now)
        (.writePlan command rest outcome)
    | some id =>
      match db.governance.update pid id (fun _ => True)
          (·.transitioned planned.proofGrantId env.now) with
      | .waits => .waits
      | .unmatched => .goes db (.writePlan command rest outcome)
      | .violated => .throws (.threw .database)
      | .done _ governance =>
        .goes { db with governance := governance } (.writePlan command rest outcome)

/-- The control row `FOR UPDATE`. -/
def lockControl (place : BookingCreditEnforcementControlEntity → EnforcementPlace) :
    EnforcementNext :=
  match controlRow db pid with
  | none => .throws (.threw .malformed)
  | some control => .locks .control .exclusive (place control)

/-- An `UPDATE` of the control row. -/
def setControl (f : BookingCreditEnforcementControlEntity → BookingCreditEnforcementControlEntity)
    (place : EnforcementPlace) : EnforcementNext :=
  match db.control.update pid enforcementControlSingletonId (fun _ => True) f with
  | .waits => .waits
  | .unmatched => .throws (.threw .malformed)
  | .violated => .throws (.threw .database)
  | .done _ control => .goes { db with control := control } place

/-- Whether every eligible party is resolved. -/
def readPartition : EnforcementNext :=
  if 0 < (partition db pid).unresolved then
    .throws (.threw (.activationRefused (partition db pid)))
  else .goes db .setActive

/-- `deleted_at` is set. -/
def deleteParty (party : PartyRef) : EnforcementNext :=
  match db.parties.update pid party (·.deletedAt = none) (fun _ => ⟨some env.now⟩) with
  | .waits => .waits
  | .unmatched => .commits (.returned .deleted)
  | .violated => .throws (.threw .database)
  | .done _ parties => .goes { db with parties := parties } (.commitDeletion party)

/-- The next statement of a call at a place; `hashtext` is the database's hash of a party's
key. -/
def enforcementStatement : EnforcementPlace → EnforcementNext
  | .idle => .waits
  | .insertParty party => insertParty db pid party
  | .creationCoordination party => .locks .coordination .shared (.creationControl party)
  | .creationControl party => readForConfirmation db pid fun control =>
      if control.rolloutState = .active then .insertGoverned party else .commitCreation party false
  | .insertGoverned party => insertGovernance env db pid (governedAtCreation party env.now)
      (.commitCreation party true)
  | .commitCreation _ _ => .commits (.returned .created)
  | .commandCoordination command => .locks .coordination .shared (.commandControl command)
  | .commandControl command => readForConfirmation db pid fun _ => .findCandidates command
  | .findCandidates command => findCandidates env db pid command
  | .lockParty command candidate rest plan skipped =>
    .locks (.party (hashtext candidate.party)) .exclusive
      (.readParty command candidate rest plan skipped)
  | .readParty command candidate rest plan skipped =>
    readParty db pid command candidate rest plan skipped
  | .writePlan command plan outcome => writePlan env db pid command plan outcome
  | .activationCoordination => .locks .coordination .exclusive .activationControl
  | .activationControl => lockControl db pid fun control =>
      if control.rolloutState = .active then .commitStatus else .readPartition
  | .readPartition => readPartition db pid
  | .setActive => setControl db pid (·.activated env.now) .commitActivation
  | .commitActivation => .commits (.returned .status)
  | .switchControl target => lockControl db pid fun control =>
      if control.killSwitchState = target then .commitStatus else .setKillSwitch target
  | .setKillSwitch target => setControl db pid (·.switched target env.now) .commitSwitch
  | .commitSwitch => .commits (.returned .status)
  | .commitStatus => .commits (.returned .status)
  | .deleteParty party => deleteParty env db pid party
  | .commitDeletion _ => .commits (.returned .deleted)
  | .returned _ => .waits
  | .threw _ => .waits

end Statements

/-! ## The service -/

/-- Where a call starts. -/
def EnforcementRequest.place : EnforcementRequest → EnforcementPlace
  | .create party => .insertParty party
  | .command c => .commandCoordination c
  | .activate => .activationCoordination
  | .moveKillSwitch target => .switchControl target
  | .delete party => .deleteParty party

/-- The calls on the controls. -/
def enforcement (hashtext : PartyRef → ℤ) :
    Service EnforcementDb LockKey EnforcementPlace EnforcementRequest EnforcementEnv where
  commit := EnforcementDb.commit
  rollback := EnforcementDb.rollback
  idle := .idle
  failed := .threw .database
  running := EnforcementPlace.running
  first := EnforcementRequest.place
  statement := enforcementStatement hashtext

end BeauClick.Enforcement
