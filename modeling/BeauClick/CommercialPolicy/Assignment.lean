import BeauClick.CommercialPolicy.OutcomePolicy
import BeauClick.Lib.Runs
import BeauClick.Lib.Table

/-!
# Assigning and resolving a seller's policy

`CollectionPolicyAssignmentService.assign` and `OutcomePolicyAssignmentService.assign`
against the two `resolveForParty`, under READ COMMITTED: a statement sees the rows that
were committed when it began, an update or a `FOR SHARE` waits for the transaction that
holds its row and then judges the row's new version, and what a transaction wrote is
seen when it commits.
-/

namespace BeauClick.CommercialPolicy

open Commerce Table Runs List
open Function (update update_self update_of_ne)

/-! ## The two families -/

/-- What the collection policies and the outcome policies do not share. -/
structure PolicyFamily where
  /-- What an assignment selects besides its key. -/
  Selection : Type
  selectionDecEq : DecidableEq Selection
  /-- The tables of the versions. -/
  Catalogue : Type
  Version : Type
  Snapshot : Type
  Cause : Type
  /-- The check before `assign` opens its transaction. -/
  validSelection : Selection → Bool
  /-- `requireAssignableAndLock`, `requireSelectableAndLock`. -/
  isAssignable : Catalogue → String → Selection → Instant → Bool
  /-- The versions `resolveForParty` reads and locks. -/
  activeVersions : Catalogue → String → Instant → List Version
  /-- The rest of `resolveForParty`. -/
  resolve : String → Selection → List Version → Catalogue → Instant → Except Cause Snapshot
  policyKey : Snapshot → String
  keyed : ∀ {key selection versions catalogue now snapshot},
    resolve key selection versions catalogue now = .ok snapshot → policyKey snapshot = key

instance (F : PolicyFamily) : DecidableEq F.Selection := F.selectionDecEq

/-- Collection policies: an assignment is its key. -/
def collectionPolicies : PolicyFamily where
  Selection := Unit
  selectionDecEq := inferInstance
  Catalogue := List CollectionVersionRow
  Version := CollectionVersionRow
  Snapshot := CollectionSnapshot
  Cause := CollectionUnresolvable
  validSelection := fun _ => true
  isAssignable := fun catalogue policyKey _ now =>
    activeCollectionVersions catalogue policyKey now ≠ []
  activeVersions := activeCollectionVersions
  resolve := fun policyKey _ versions _ now => resolveCollection policyKey versions now
  policyKey := fun snapshot => snapshot.policyKey
  keyed := fun h => (resolveCollection_eq_ok h).1

/-- Outcome policies: a key and four members of its version. -/
def outcomePolicies : PolicyFamily where
  Selection := OutcomeSelection
  selectionDecEq := inferInstance
  Catalogue := OutcomeCatalogue
  Version := OutcomeVersionRow
  Snapshot := OutcomeSnapshot
  Cause := OutcomeUnavailable
  validSelection := fun selection => selection.problems = []
  isAssignable := isSelectable
  activeVersions := activeOutcomeVersions
  resolve := resolveOutcome
  policyKey := fun snapshot => snapshot.policyKey
  keyed := fun h => (resolveOutcome_eq_ok h).1

/-- The two families of policies. -/
inductive PolicyKind where
  | collection
  | outcome

def PolicyKind.family : PolicyKind → PolicyFamily
  | .collection => collectionPolicies
  | .outcome => outcomePolicies

/-! ## The table and its transactions -/

/-- `OwnedSubscriberParty`. -/
structure SellerParty where
  partyType : SellerPartyType
  partyId : Uuid
  deriving DecidableEq

/-- `commercial.seller_collection_policy_assignments` and
`commercial.seller_outcome_policy_assignments`.  The three supersession facts come
together or not at all, and are told by the successor. -/
structure AssignmentRow (F : PolicyFamily) where
  id : Uuid
  party : SellerParty
  policyKey : String
  selection : F.Selection
  supersededBy : Option Uuid

/-- An assign request, for the party its workspace reference resolved to. -/
structure AssignInput (F : PolicyFamily) where
  party : SellerParty
  policyKey : String
  selection : F.Selection
  now : Instant

/-- The next statement of an assign call.  What it wrote and did not commit is in
`superseded` and `inserted`. -/
inductive AssignCall (F : PolicyFamily) where
  | idle
  | started (input : AssignInput F)
  | read (input : AssignInput F) (current : Option (AssignmentRow F))
  /-- The version is locked. -/
  | locked (input : AssignInput F) (current : Option (AssignmentRow F))
  | superseded (input : AssignInput F) (current : AssignmentRow F)
  | inserted (input : AssignInput F) (current : Option (AssignmentRow F))
  | returned
  | refused

/-- What `resolveForParty` is asked.  The last two fields record what was committed
when the call started. -/
structure ResolveCall where
  party : SellerParty
  now : Instant
  /-- The party had an assignment. -/
  enrolled : Bool
  /-- The assignments that had been superseded. -/
  superseded : List Uuid

/-- What the order path learns: `null` or `legacy_unenrolled`, a snapshot, or
`CollectionPolicyUnresolvableError` or `unavailable`. -/
inductive PolicyResolution (F : PolicyFamily) where
  | legacyUnenrolled
  | resolved (snapshot : F.Snapshot)
  | refused (cause : F.Cause)

/-- The next statement of an order's resolver. -/
inductive Resolver (F : PolicyFamily) where
  | idle
  | called (call : ResolveCall)
  /-- The locking read took its snapshot and has still to lock what it found. -/
  | scanned (call : ResolveCall) (seen : Option (AssignmentRow F))
  | locked (call : ResolveCall) (row : AssignmentRow F)
  | versioned (call : ResolveCall) (row : AssignmentRow F) (versions : List F.Version)
  /-- The answer; the order's transaction still holds the row. -/
  | answered (call : ResolveCall) (held : Option Uuid) (resolution : PolicyResolution F)

/-- The committed rows and the transactions at work on them. -/
structure AssignmentSystem (F : PolicyFamily) where
  rows : List (AssignmentRow F)
  catalogue : F.Catalogue
  assigns : ℕ → AssignCall F
  resolvers : ℕ → Resolver F
  /-- The assign calls with uncommitted writes. -/
  writers : List ℕ
  /-- The orders with a share lock. -/
  holders : List ℕ

/-- One step.  An order may end anywhere, and administrators may leave any catalogue. -/
inductive AssignmentStep (F : PolicyFamily) where
  | assign (pid : ℕ) (input : AssignInput F)
  | advance (pid : ℕ)
  | abort (pid : ℕ)
  | resolve (rid : ℕ) (party : SellerParty) (now : Instant)
  | advanceResolver (rid : ℕ)
  | endOrder (rid : ℕ)
  | administer (catalogue : F.Catalogue)

variable {F : PolicyFamily}

/-- The row is current. -/
def AssignmentRow.Current (r : AssignmentRow F) : Prop := r.supersededBy = none
  deriving Decidable

namespace AssignCall

/-- The party whose assignments the call has written without committing. -/
def writes : AssignCall F → Option SellerParty
  | .superseded input _ | .inserted input _ => some input.party
  | _ => none

/-- The row the call has superseded without committing. -/
def supersedes : AssignCall F → Option Uuid
  | .superseded _ current | .inserted _ (some current) => some current.id
  | _ => none

end AssignCall

/-- The row the order's transaction holds a share lock on. -/
def Resolver.holds : Resolver F → Option Uuid
  | .locked _ row | .versioned _ row _ => some row.id
  | .answered _ held _ => held
  | _ => none

namespace AssignmentSystem

/-- `WHERE … AND superseded_at IS NULL`, as of now. -/
def currentOf (s : AssignmentSystem F) (party : SellerParty) : Option (AssignmentRow F) :=
  s.rows.find? fun r => r.party = party ∧ r.Current

/-- The row of that id, re-evaluated: it is there if it is still current. -/
def reevaluate (s : AssignmentSystem F) (id : Uuid) : Option (AssignmentRow F) :=
  s.rows.find? fun r => r.id = id ∧ r.Current

/-- Another call has superseded the row and not committed. -/
def superseding (s : AssignmentSystem F) (id : Uuid) : Bool :=
  ∃ w ∈ s.writers, (s.assigns w).supersedes = some id

/-- An order has the row locked. -/
def shared (s : AssignmentSystem F) (id : Uuid) : Bool :=
  ∃ r ∈ s.holders, (s.resolvers r).holds = some id

/-- Another call has an entry of the party in the partial unique index that may still
come or go. -/
def partyBusy (s : AssignmentSystem F) (pid : ℕ) (party : SellerParty) : Bool :=
  ∃ w ∈ s.writers, w ≠ pid ∧ (s.assigns w).writes = some party

def setAssign (s : AssignmentSystem F) (pid : ℕ) (c : AssignCall F) : AssignmentSystem F :=
  { s with assigns := update s.assigns pid c }

/-- The call wrote something that is not committed yet. -/
def write (s : AssignmentSystem F) (pid : ℕ) (c : AssignCall F) : AssignmentSystem F :=
  { s with
    assigns := update s.assigns pid c
    writers := pid :: s.writers }

/-- The call is refused, or its process died: its transaction is rolled back. -/
def rollback (s : AssignmentSystem F) (pid : ℕ) : AssignmentSystem F :=
  { s with
    assigns := update s.assigns pid .refused
    writers := s.writers.filter (· ≠ pid) }

/-- The successor a call inserts.  `uuidv7` gives every call an id of its own. -/
def successor (pid : ℕ) (input : AssignInput F) : AssignmentRow F where
  id := pid
  party := input.party
  policyKey := input.policyKey
  selection := input.selection
  supersededBy := none

/-- Both writes of the call become visible. -/
def commit (s : AssignmentSystem F) (pid : ℕ) (input : AssignInput F)
    (current : Option (AssignmentRow F)) : AssignmentSystem F :=
  { s with
    rows := updateWhere (fun r => current.any (·.id = r.id))
      (fun r => { r with supersededBy := some pid }) s.rows ++ [successor pid input]
    assigns := update s.assigns pid .returned
    writers := s.writers.filter (· ≠ pid) }

/-- The `INSERT`, under the partial unique index. -/
def insert (s : AssignmentSystem F) (pid : ℕ) (input : AssignInput F)
    (current : Option (AssignmentRow F)) : Option (AssignmentSystem F) :=
  if s.partyBusy pid input.party then none
  else if ∃ r ∈ s.rows, r.party = input.party ∧ r.Current ∧ ¬current.any (·.id = r.id) then
    some (s.rollback pid)
  else some (s.write pid (.inserted input current))

/-- The next statement of `assign`. -/
def advance (s : AssignmentSystem F) (pid : ℕ) : Option (AssignmentSystem F) :=
  match s.assigns pid with
  | .started input =>
    match s.currentOf input.party with
    | some current =>
      if current.policyKey = input.policyKey ∧ current.selection = input.selection then
        some (s.setAssign pid .returned)
      else some (s.setAssign pid (.read input (some current)))
    | none => some (s.setAssign pid (.read input none))
  | .read input current =>
    if F.isAssignable s.catalogue input.policyKey input.selection input.now then
      some (s.setAssign pid (.locked input current))
    else some (s.rollback pid)
  | .locked input (some current) =>
    -- the compare-and-swap waits for whoever has the row
    if s.superseding current.id || s.shared current.id then none
    else
      match s.reevaluate current.id with
      | some _ => some (s.write pid (.superseded input current))
      | none => some (s.rollback pid)
  | .locked input none => s.insert pid input none
  | .superseded input current => s.insert pid input (some current)
  | .inserted input current => some (s.commit pid input current)
  | .idle | .returned | .refused => none

def setResolver (s : AssignmentSystem F) (rid : ℕ) (r : Resolver F) : AssignmentSystem F :=
  { s with resolvers := update s.resolvers rid r }

/-- The next statement of `resolveForParty`. -/
def advanceResolver (s : AssignmentSystem F) (rid : ℕ) : Option (AssignmentSystem F) :=
  match s.resolvers rid with
  | .called call => some (s.setResolver rid (.scanned call (s.currentOf call.party)))
  | .scanned call none => some (s.setResolver rid (.answered call none .legacyUnenrolled))
  | .scanned call (some seen) =>
    if s.superseding seen.id then none
    else
      match s.reevaluate seen.id with
      | some row =>
        some { s.setResolver rid (.locked call row) with holders := rid :: s.holders }
      | none => some (s.setResolver rid (.answered call none .legacyUnenrolled))
  | .locked call row =>
    some (s.setResolver rid
      (.versioned call row (F.activeVersions s.catalogue row.policyKey call.now)))
  | .versioned call row versions =>
    match F.resolve row.policyKey row.selection versions s.catalogue call.now with
    | .ok snapshot => some (s.setResolver rid (.answered call (some row.id) (.resolved snapshot)))
    | .error cause => some (s.setResolver rid (.answered call (some row.id) (.refused cause)))
  | .idle | .answered .. => none

/-- The call with what is committed as it starts. -/
def resolveCall (s : AssignmentSystem F) (party : SellerParty) (now : Instant) : ResolveCall where
  party := party
  now := now
  enrolled := ∃ r ∈ s.rows, r.party = party
  superseded := (s.rows.filter fun r => ¬r.Current).map (·.id)

def step (s : AssignmentSystem F) : AssignmentStep F → Option (AssignmentSystem F)
  | .assign pid input =>
    match s.assigns pid with
    | .idle =>
      if F.validSelection input.selection then some (s.setAssign pid (.started input))
      else some (s.setAssign pid .refused)
    | _ => none
  | .advance pid => s.advance pid
  | .abort pid =>
    match s.assigns pid with
    | .idle | .returned | .refused => none
    | _ => some (s.rollback pid)
  | .resolve rid party now =>
    match s.resolvers rid with
    | .idle => some (s.setResolver rid (.called (s.resolveCall party now)))
    | _ => none
  | .advanceResolver rid => s.advanceResolver rid
  | .endOrder rid =>
    some { s.setResolver rid .idle with holders := s.holders.filter (· ≠ rid) }
  | .administer catalogue => some { s with catalogue := catalogue }

/-! ## The property and the condition -/

/-- The key was that of an assignment of the party which was current at some moment of the
call: it had not been superseded when the call started. -/
def CurrentDuring (s : AssignmentSystem F) (call : ResolveCall) (policyKey : String) : Prop :=
  ∃ r ∈ s.rows, r.party = call.party ∧ r.policyKey = policyKey ∧ r.id ∉ call.superseded

/-- What an enrolled party may be answered. -/
def AnswersCurrent (s : AssignmentSystem F) (call : ResolveCall) : PolicyResolution F → Prop
  | .legacyUnenrolled => False
  | .resolved snapshot => s.CurrentDuring call (F.policyKey snapshot)
  | .refused _ => True

/-- No enrolled party was answered as an unenrolled one. -/
def NeverLegacy (s : AssignmentSystem F) : Prop :=
  ∀ rid call held resolution, s.resolvers rid = .answered call held resolution →
    call.enrolled = true → s.AnswersCurrent call resolution

/-- **The condition.**  When the read of an enrolled party gets its lock, the row its
snapshot saw is still current. -/
def StillCurrent (s : AssignmentSystem F) (e : AssignmentStep F) : Prop :=
  ∀ rid call seen, e = .advanceResolver rid → s.resolvers rid = .scanned call (some seen) →
    call.enrolled = true → s.superseding seen.id = false → ∃ r ∈ s.rows, r.id = seen.id ∧ r.Current

/-! ## Reads -/

section Reads

variable {s : AssignmentSystem F} {party : SellerParty} {id : Uuid} {r : AssignmentRow F}

theorem currentOf_eq_some (h : s.currentOf party = some r) :
    r ∈ s.rows ∧ r.party = party ∧ r.Current := by
  have hmatch := find?_some h
  rw [decide_eq_true_eq] at hmatch
  exact ⟨mem_of_find?_eq_some h, hmatch⟩

theorem currentOf_eq_none (h : s.currentOf party = none) :
    ∀ r ∈ s.rows, r.party = party → ¬r.Current := by
  intro r hr hparty hcur
  have hnot := find?_eq_none.1 h r hr
  simp [hparty, hcur] at hnot

theorem reevaluate_eq_some (h : s.reevaluate id = some r) : r ∈ s.rows ∧ r.id = id ∧ r.Current := by
  have hmatch := find?_some h
  rw [decide_eq_true_eq] at hmatch
  exact ⟨mem_of_find?_eq_some h, hmatch⟩

theorem reevaluate_eq_none (h : s.reevaluate id = none) : ¬∃ r ∈ s.rows, r.id = id ∧ r.Current := by
  rintro ⟨r, hr, hid, hcur⟩
  have hnot := find?_eq_none.1 h r hr
  simp [hid, hcur] at hnot

end Reads

/-! ## The invariant -/

/-- What the constraints keep of the rows. -/
structure TableInv (rows : List (AssignmentRow F)) : Prop where
  ids : ∀ r ∈ rows, ∀ r' ∈ rows, r.id = r'.id → r = r'
  one : ∀ r ∈ rows, ∀ r' ∈ rows, r.party = r'.party → r.Current → r'.Current → r = r'
  /-- A party that has assignments has a current one. -/
  enrolled : ∀ r ∈ rows, ∃ c ∈ rows, c.party = r.party ∧ c.Current

/-- Rows are added and superseded, and nothing else. -/
def Grows (rows rows' : List (AssignmentRow F)) : Prop :=
  ∀ r ∈ rows, ∃ r' ∈ rows', r'.id = r.id ∧ r'.party = r.party ∧ r'.policyKey = r.policyKey ∧
    (¬r.Current → ¬r'.Current)

/-- What holds of an assign call in each of its places. -/
def AssignInv (rows : List (AssignmentRow F)) : AssignCall F → Prop
  | .read input (some current) | .locked input (some current) =>
    ∃ b ∈ rows, b.id = current.id ∧ b.party = input.party
  | .superseded input current | .inserted input (some current) =>
    ∃ b ∈ rows, b.id = current.id ∧ b.party = input.party ∧ b.Current
  | .inserted input none => ∀ r ∈ rows, r.party = input.party → ¬r.Current
  | _ => True

/-- What a call recorded as it started still holds. -/
def CallInv (rows : List (AssignmentRow F)) (call : ResolveCall) : Prop :=
  (call.enrolled = true → ∃ r ∈ rows, r.party = call.party) ∧
    ∀ id ∈ call.superseded, ∃ r ∈ rows, r.id = id ∧ ¬r.Current

/-- What holds of a resolver in each of its places. -/
def ResolverInv (s : AssignmentSystem F) : Resolver F → Prop
  | .idle => True
  | .called call => CallInv s.rows call
  | .scanned call none => CallInv s.rows call ∧ call.enrolled = false
  | .scanned call (some seen) =>
    CallInv s.rows call ∧ ∃ b ∈ s.rows, b.id = seen.id ∧ b.party = call.party
  | .locked call row | .versioned call row _ => s.CurrentDuring call row.policyKey
  | .answered call _ resolution => call.enrolled = true → s.AnswersCurrent call resolution

/-- What holds after every step. -/
structure AssignmentInv (s : AssignmentSystem F) : Prop where
  table : TableInv s.rows
  written : ∀ r ∈ s.rows, s.assigns r.id = .returned
  writers : ∀ pid party, (s.assigns pid).writes = some party → pid ∈ s.writers
  writer : ∀ pid pid' party, (s.assigns pid).writes = some party →
    (s.assigns pid').writes = some party → pid = pid'
  assigns : ∀ pid, AssignInv s.rows (s.assigns pid)
  resolvers : ∀ rid, ResolverInv s (s.resolvers rid)

variable {s : AssignmentSystem F}

theorem AssignmentInv.neverLegacy (h : AssignmentInv s) : s.NeverLegacy := by
  intro rid call held resolution hr
  have hinv := h.resolvers rid
  rw [hr] at hinv
  exact hinv

section Growth

variable {rows rows' : List (AssignmentRow F)} {call : ResolveCall}

theorem CallInv.of_grows (h : CallInv rows call) (hgrows : Grows rows rows') :
    CallInv rows' call := by
  constructor
  · intro henr
    obtain ⟨r, hr, hparty⟩ := h.1 henr
    obtain ⟨r', hr', -, hparty', -⟩ := hgrows r hr
    exact ⟨r', hr', hparty'.trans hparty⟩
  · intro id hid
    obtain ⟨r, hr, hrid, hnot⟩ := h.2 id hid
    obtain ⟨r', hr', hid', -, -, hkeep⟩ := hgrows r hr
    exact ⟨r', hr', hid'.trans hrid, hkeep hnot⟩

theorem CurrentDuring.of_grows {s s' : AssignmentSystem F} {key : String}
    (h : s.CurrentDuring call key) (hgrows : Grows s.rows s'.rows) : s'.CurrentDuring call key := by
  obtain ⟨r, hr, hparty, hkey, hid⟩ := h
  obtain ⟨r', hr', hid', hparty', hkey', -⟩ := hgrows r hr
  exact ⟨r', hr', hparty'.trans hparty, hkey'.trans hkey, hid' ▸ hid⟩

theorem ResolverInv.of_grows {s s' : AssignmentSystem F} {r : Resolver F} (h : ResolverInv s r)
    (hgrows : Grows s.rows s'.rows) : ResolverInv s' r := by
  cases r with
  | idle => trivial
  | called => exact CallInv.of_grows h hgrows
  | scanned call seen =>
    cases seen with
    | none => exact ⟨CallInv.of_grows h.1 hgrows, h.2⟩
    | some =>
      obtain ⟨hcall, b, hb, hid, hparty⟩ := h
      obtain ⟨b', hb', hid', hparty', -⟩ := hgrows b hb
      exact ⟨hcall.of_grows hgrows, b', hb', hid'.trans hid, hparty'.trans hparty⟩
  | locked | versioned => exact CurrentDuring.of_grows h hgrows
  | answered call held resolution =>
    intro henr
    have hans := h henr
    cases resolution with
    | legacyUnenrolled => exact hans
    | resolved => exact CurrentDuring.of_grows hans hgrows
    | refused => trivial

end Growth

/-! ## One step -/

section Step

variable {s s' : AssignmentSystem F} {pid rid : ℕ} {c : AssignCall F} {e : AssignmentStep F}
  {input : AssignInput F}

section

variable (h : AssignmentInv s)
include h

section

variable (hopen : s.assigns pid ≠ .returned)
include hopen

theorem AssignmentInv.moved {writers : List ℕ} (hc : AssignInv s.rows c)
    (hkeep : ∀ w ∈ s.writers, w ≠ pid → w ∈ writers) (hself : c.writes ≠ none → pid ∈ writers)
    (hwriter : ∀ party, c.writes = some party → ∀ w, w ≠ pid → (s.assigns w).writes ≠ some party) :
    AssignmentInv { s with
      assigns := update s.assigns pid c
      writers := writers } where
  table := h.table
  written := by
    intro r hr
    have hret := h.written r hr
    have hne : r.id ≠ pid := fun heq => hopen (heq ▸ hret)
    simpa [hne] using hret
  writers := by
    intro w party hw
    dsimp only at hw ⊢
    by_cases heq : w = pid
    · subst heq
      rw [update_self] at hw
      exact hself (by simp [hw])
    · rw [update_of_ne heq] at hw
      exact hkeep w (h.writers w party hw) heq
  writer := alone_update (R := fun c party => AssignCall.writes c = some party) h.writer hwriter
  assigns := by
    intro w
    by_cases heq : w = pid
    · subst heq
      simpa using hc
    · simpa [heq] using h.assigns w
  resolvers := fun r => (h.resolvers r).of_grows fun r hr => ⟨r, hr, rfl, rfl, rfl, id⟩

theorem AssignmentInv.setAssign
    (hc : AssignInv s.rows c) (hwrites : c.writes = none) : AssignmentInv (s.setAssign pid c) :=
  h.moved hopen hc (fun _ hw _ => hw) (fun hne => absurd hwrites hne)
    (fun _ hw => by rw [hwrites] at hw; cases hw)

theorem AssignmentInv.rollback :
    AssignmentInv (s.rollback pid) :=
  h.moved hopen trivial (fun w hw hne => mem_filter.2 ⟨hw, by simpa using hne⟩)
    (fun hne => absurd rfl hne) (fun _ hw => by cases hw)

theorem AssignmentInv.write (hc : AssignInv s.rows c)
    (hwriter : ∀ party, c.writes = some party → ∀ w, w ≠ pid → (s.assigns w).writes ≠ some party) :
    AssignmentInv (s.write pid c) :=
  h.moved hopen hc (fun _ hw _ => mem_cons_of_mem _ hw) (fun _ => mem_cons_self) hwriter

end

theorem AssignmentInv.setResolver {r : Resolver F} {holders : List ℕ} (hr : ResolverInv s r) :
    AssignmentInv { s with
      resolvers := update s.resolvers rid r
      holders := holders } where
  table := h.table
  written := h.written
  writers := h.writers
  writer := h.writer
  assigns := h.assigns
  resolvers := by
    have hsame : Grows s.rows s.rows := fun r hr => ⟨r, hr, rfl, rfl, rfl, id⟩
    exact (Function.forall_update_iff s.resolvers fun _ => ResolverInv _).2
      ⟨hr.of_grows hsame, fun other _ => (h.resolvers other).of_grows hsame⟩

end

section Commit

variable {input : AssignInput F} {current : Option (AssignmentRow F)} {r : AssignmentRow F}

theorem replaced_iff (h : AssignmentInv s) (hcall : s.assigns pid = .inserted input current)
    (hr : r ∈ s.rows) :
    (current.any (·.id = r.id) → r.party = input.party) ∧
      (r.party = input.party → r.Current → current.any (·.id = r.id)) := by
  have hinv := h.assigns pid
  rw [hcall] at hinv
  cases current with
  | none =>
    refine ⟨by simp, fun hparty hcur => ?_⟩
    exact absurd hcur (hinv r hr hparty)
  | some =>
    obtain ⟨b, hb, hid, hparty, hcur⟩ := hinv
    simp only [Option.any_some, decide_eq_true_eq]
    constructor
    · intro heq
      rw [← h.table.ids b hb r hr (hid.trans heq)]
      exact hparty
    · intro hrparty hrcurrent
      rw [← h.table.one b hb r hr (hparty.trans hrparty.symm) hcur hrcurrent]
      exact hid.symm

theorem mem_rows_commit :
    r ∈ (s.commit pid input current).rows ↔
      (∃ b ∈ s.rows, r =
        if current.any (·.id = b.id) then { b with supersededBy := some pid } else b) ∨
      r = successor pid input := by
  simp only [commit, mem_append, mem_singleton, mem_updateWhere]

theorem mem_rows_commit_of_not (hr : r ∈ s.rows) (hnot : ¬current.any (·.id = r.id)) :
    r ∈ (s.commit pid input current).rows :=
  mem_rows_commit.2 (Or.inl ⟨r, hr, by rw [if_neg hnot]⟩)

theorem current_commit (hr : r ∈ (s.commit pid input current).rows) (hcur : r.Current) :
    (r ∈ s.rows ∧ ¬current.any (·.id = r.id)) ∨ r = successor pid input := by
  rcases mem_rows_commit.1 hr with ⟨b, hb, rfl⟩ | rfl
  · by_cases hrep : current.any (·.id = b.id)
    · rw [if_pos hrep] at hcur
      cases hcur
    · rw [if_neg hrep]
      exact Or.inl ⟨hb, hrep⟩
  · exact Or.inr rfl

theorem grows_commit : Grows s.rows (s.commit pid input current).rows := by
  intro r hr
  by_cases hrep : current.any (·.id = r.id)
  · exact ⟨_, mem_rows_commit.2 (Or.inl ⟨r, hr, (if_pos hrep).symm⟩), rfl, rfl, rfl, fun _ h => by
      cases h⟩
  · exact ⟨r, mem_rows_commit_of_not hr hrep, rfl, rfl, rfl, id⟩

section

variable (hcall : s.assigns pid = .inserted input current)
include hcall

theorem tableInv_commit (h : AssignmentInv s) :
    TableInv (s.commit pid input current).rows where
  ids := by
    -- the successor's id is the call's, and no row has the id of a call at work
    have hnew : ∀ b ∈ s.rows, b.id ≠ pid := by
      intro b hb heq
      have hret := h.written b hb
      rw [heq, hcall] at hret
      cases hret
    have hid : ∀ b : AssignmentRow F, (if current.any (·.id = b.id) then
        { b with supersededBy := some pid } else b).id = b.id := by
      intro b
      split <;> rfl
    intro r hr r' hr' heq
    rcases mem_rows_commit.1 hr with ⟨b, hb, rfl⟩ | rfl <;>
      rcases mem_rows_commit.1 hr' with ⟨b', hb', rfl⟩ | rfl
    · rw [hid, hid] at heq
      rw [h.table.ids b hb b' hb' heq]
    · rw [hid] at heq
      exact absurd heq (hnew b hb)
    · rw [hid] at heq
      exact absurd heq.symm (hnew b' hb')
    · rfl
  one := by
    intro r hr r' hr' hparty hc hc'
    rcases current_commit hr hc with ⟨hmem, hnot⟩ | rfl <;>
      rcases current_commit hr' hc' with ⟨hmem', hnot'⟩ | rfl
    · exact h.table.one r hmem r' hmem' hparty hc hc'
    · exact absurd ((replaced_iff h hcall hmem).2 hparty hc) hnot
    · exact absurd ((replaced_iff h hcall hmem').2 hparty.symm hc') hnot'
    · rfl
  enrolled := by
    intro r hr
    by_cases hown : r.party = input.party
    · exact ⟨successor pid input, mem_rows_commit.2 (Or.inr rfl), hown.symm, rfl⟩
    · rcases mem_rows_commit.1 hr with ⟨b, hb, rfl⟩ | rfl
      · have hparty : (if current.any (·.id = b.id) then
            { b with supersededBy := some pid } else b).party = b.party := by
          split <;> rfl
        rw [hparty] at hown ⊢
        obtain ⟨c, hc, hcparty, hcur⟩ := h.table.enrolled b hb
        refine ⟨c, mem_rows_commit_of_not hc ?_, hcparty, hcur⟩
        intro hrep
        exact hown (hcparty ▸ (replaced_iff h hcall hc).1 hrep)
      · exact absurd rfl hown

theorem assignInv_commit (h : AssignmentInv s)
    (hc : AssignInv s.rows c) (hother : c.writes ≠ some input.party) :
    AssignInv (s.commit pid input current).rows c := by
  have hgrows : Grows s.rows (s.commit pid input current).rows := grows_commit
  have hkept : ∀ b ∈ s.rows, b.party ≠ input.party → b ∈ (s.commit pid input current).rows := by
    intro b hb hparty
    exact mem_rows_commit_of_not hb fun hrep => hparty ((replaced_iff h hcall hb).1 hrep)
  cases c with
  | idle | started | returned | refused => trivial
  | read input' current' | locked input' current' =>
    cases current' with
    | none => trivial
    | some =>
      obtain ⟨b, hb, hid, hparty⟩ := hc
      obtain ⟨b', hb', hid', hparty', -⟩ := hgrows b hb
      exact ⟨b', hb', hid'.trans hid, hparty'.trans hparty⟩
  | superseded =>
    obtain ⟨b, hb, hid, hparty, hcur⟩ := hc
    refine ⟨b, hkept b hb ?_, hid, hparty, hcur⟩
    intro heq
    exact hother (by rw [AssignCall.writes, ← hparty, heq])
  | inserted input' current' =>
    have hne : input'.party ≠ input.party := by
      intro heq
      exact hother (by rw [AssignCall.writes, heq])
    cases current' with
    | none =>
      intro r hr hparty hcur
      rcases current_commit hr hcur with ⟨hmem, -⟩ | rfl
      · exact hc r hmem hparty hcur
      · exact hne hparty.symm
    | some =>
      obtain ⟨b, hb, hid, hparty, hcur⟩ := hc
      exact ⟨b, hkept b hb (by rw [hparty]; exact hne), hid, hparty, hcur⟩

open AssignmentSystem

theorem AssignmentInv.commit (h : AssignmentInv s) :
    AssignmentInv (s.commit pid input current) where
  table := tableInv_commit hcall h
  written := by
    intro r hr
    show update s.assigns pid .returned r.id = .returned
    rcases mem_rows_commit.1 hr with ⟨b, hb, rfl⟩ | rfl
    · have hid : (if current.any (·.id = b.id) then
          { b with supersededBy := some pid } else b).id = b.id := by
        split <;> rfl
      rw [hid]
      by_cases heq : b.id = pid
      · rw [heq, update_self]
      · rw [update_of_ne heq]
        exact h.written b hb
    · exact update_self ..
  writers := by
    intro w party hw
    by_cases heq : w = pid
    · subst heq
      simp [AssignmentSystem.commit, AssignCall.writes] at hw
    · simp only [AssignmentSystem.commit, update_of_ne heq] at hw
      exact mem_filter.2 ⟨h.writers w party hw, by simpa using heq⟩
  writer := by
    refine alone_update (R := fun c party => AssignCall.writes c = some party) h.writer ?_
    intro party hw
    cases hw
  assigns := by
    refine (Function.forall_update_iff s.assigns fun _ => AssignInv _).2 ⟨trivial, ?_⟩
    intro w hne
    refine assignInv_commit hcall h (h.assigns w) ?_
    intro hw
    exact hne (h.writer w pid input.party hw (by rw [hcall]; rfl))
  resolvers := fun r => (h.resolvers r).of_grows grows_commit

end

end Commit

section

variable (h : AssignmentInv s)
include h

/-- The insert waits for the party's other writers, and is refused by a current row that
it does not replace. -/
theorem AssignmentInv.insert {current : Option (AssignmentRow F)}
    (hopen : s.assigns pid ≠ .returned)
    (hcur : ∀ c, current = some c → ∃ b ∈ s.rows, b.id = c.id ∧ b.party = input.party ∧ b.Current)
    (hs : s.insert pid input current = some s') : AssignmentInv s' := by
  unfold AssignmentSystem.insert at hs
  split at hs
  · cases hs
  rename_i hbusy
  split at hs <;> cases hs
  · exact h.rollback hopen
  · rename_i hfree
    refine h.write hopen ?_ ?_
    · cases current with
      | none =>
        intro r hr hparty hc
        exact hfree ⟨r, hr, hparty, hc, by simp⟩
      | some c => exact hcur c rfl
    · intro party hw w hne hother
      cases hw
      apply hbusy
      simp only [partyBusy, decide_eq_true_eq]
      exact ⟨w, h.writers w _ hother, hne, hother⟩

/-- The compare-and-swap finds the row current and nobody else at work on it, so no other
call writes for the party. -/
theorem AssignmentInv.supersede {current r : AssignmentRow F}
    (hcall : s.assigns pid = .locked input (some current))
    (hfree : s.superseding current.id = false) (hr : s.reevaluate current.id = some r) :
    AssignmentInv (s.write pid (.superseded input current)) := by
  obtain ⟨hmem, hid, hcur⟩ := reevaluate_eq_some hr
  have hinv := h.assigns pid
  rw [hcall] at hinv
  obtain ⟨b, hb, hbid, hbparty⟩ := hinv
  have hsame : b = r := h.table.ids b hb r hmem (hbid.trans hid.symm)
  subst hsame
  refine h.write (by rw [hcall]; simp) ⟨b, hb, hbid, hbparty, hcur⟩ ?_
  intro party hw w hne hother
  cases hw
  -- another writer of the party would have superseded this very row
  have hwinv := h.assigns w
  have hsupersedes : (s.assigns w).supersedes = some current.id := by
    cases hcase : s.assigns w with
    | superseded input' =>
      rw [hcase] at hother hwinv
      obtain ⟨b', hb', hid', hparty', hcur'⟩ := hwinv
      have hp : input'.party = input.party := Option.some.inj hother
      rw [AssignCall.supersedes, ← hbid,
        h.table.one b hb b' hb' (hbparty.trans (hparty'.trans hp).symm) hcur hcur', hid']
    | inserted input' current' =>
      rw [hcase] at hother hwinv
      have hp : input'.party = input.party := Option.some.inj hother
      cases current' with
      | none => exact absurd hcur (hwinv b hb (hbparty.trans hp.symm))
      | some =>
        obtain ⟨b', hb', hid', hparty', hcur'⟩ := hwinv
        rw [AssignCall.supersedes, ← hbid,
          h.table.one b hb b' hb' (hbparty.trans (hparty'.trans hp).symm) hcur hcur', hid']
    | _ =>
      rw [hcase] at hother
      cases hother
  have hbusy : s.superseding current.id = true := by
    simp only [superseding, decide_eq_true_eq]
    exact ⟨w, h.writers w _ hother, hsupersedes⟩
  rw [hfree] at hbusy
  cases hbusy

theorem AssignmentInv.advance (hs : s.advance pid = some s') :
    AssignmentInv s' := by
  have hinv := h.assigns pid
  unfold AssignmentSystem.advance at hs
  cases hcall : s.assigns pid with
  | idle | returned | refused =>
    rw [hcall] at hs
    cases hs
  | started =>
    have hopen : s.assigns pid ≠ .returned := by
      rw [hcall]
      simp
    rw [hcall] at hs
    dsimp only at hs
    split at hs
    · rename_i current hcur
      obtain ⟨hmem, hparty, -⟩ := currentOf_eq_some hcur
      split at hs <;> cases hs
      · exact h.setAssign hopen trivial rfl
      · exact h.setAssign hopen ⟨current, hmem, rfl, hparty⟩ rfl
    · cases hs
      exact h.setAssign hopen trivial rfl
  | read input current =>
    have hopen : s.assigns pid ≠ .returned := by
      rw [hcall]
      simp
    rw [hcall] at hs hinv
    dsimp only at hs
    split at hs <;> cases hs
    · refine h.setAssign hopen ?_ rfl
      cases current with
      | none => trivial
      | some => exact hinv
    · exact h.rollback hopen
  | locked input current =>
    have hopen : s.assigns pid ≠ .returned := by
      rw [hcall]
      simp
    rw [hcall] at hs hinv
    cases current with
    | none => exact h.insert hopen (by simp) hs
    | some =>
      dsimp only at hs
      split at hs
      · cases hs
      rename_i hwait
      rw [Bool.or_eq_true, not_or, Bool.not_eq_true] at hwait
      split at hs <;> cases hs
      · rename_i r hr
        exact h.supersede hcall hwait.1 hr
      · exact h.rollback hopen
  | superseded =>
    rw [hcall] at hs hinv
    refine h.insert (by rw [hcall]; simp) ?_ hs
    intro c' hc'
    cases hc'
    exact hinv
  | inserted =>
    rw [hcall] at hs
    cases hs
    exact h.commit hcall

theorem resolverInv_scan {call : ResolveCall} (hcall : CallInv s.rows call) :
    ResolverInv s (.scanned call (s.currentOf call.party)) := by
  cases hcur : s.currentOf call.party with
  | none =>
    refine ⟨hcall, ?_⟩
    cases henr : call.enrolled with
    | false => rfl
    | true =>
      obtain ⟨r, hr, hparty⟩ := hcall.1 henr
      obtain ⟨c, hc, hcparty, hccurrent⟩ := h.table.enrolled r hr
      exact absurd hccurrent (currentOf_eq_none hcur c hc (hcparty.trans hparty))
  | some seen =>
    obtain ⟨hmem, hparty, -⟩ := currentOf_eq_some hcur
    exact ⟨hcall, seen, hmem, rfl, hparty⟩

theorem AssignmentInv.advanceResolver
    (hstill : s.StillCurrent (.advanceResolver rid)) (hs : s.advanceResolver rid = some s') :
    AssignmentInv s' := by
  have hinv := h.resolvers rid
  unfold AssignmentSystem.advanceResolver at hs
  cases hr : s.resolvers rid with
  | idle | answered =>
    rw [hr] at hs
    cases hs
  | called =>
    rw [hr] at hs hinv
    cases hs
    exact h.setResolver (resolverInv_scan h hinv)
  | scanned call seen =>
    rw [hr] at hs hinv
    cases seen with
    | none =>
      cases hs
      refine h.setResolver ?_
      intro henr
      rw [hinv.2] at henr
      cases henr
    | some seen =>
      dsimp only at hs
      split at hs
      · cases hs
      rename_i hfree
      split at hs <;> cases hs
      · rename_i row hrow
        obtain ⟨hmem, hid, hcur⟩ := reevaluate_eq_some hrow
        obtain ⟨hcall, b, hb, hbid, hbparty⟩ := hinv
        have hsame : b = row := h.table.ids b hb row hmem (hbid.trans hid.symm)
        refine h.setResolver ⟨row, hmem, hsame ▸ hbparty, rfl, ?_⟩
        intro hsuperseded
        obtain ⟨b', hb', hid', hnot⟩ := hcall.2 _ hsuperseded
        exact hnot (h.table.ids b' hb' row hmem hid' ▸ hcur)
      · rename_i hgone
        refine h.setResolver ?_
        intro henr
        exact absurd (hstill rid call seen rfl hr henr (by simpa using hfree))
          (reevaluate_eq_none hgone)
  | locked =>
    rw [hr] at hs hinv
    cases hs
    exact h.setResolver hinv
  | versioned call =>
    rw [hr] at hs hinv
    dsimp only at hs
    split at hs <;> cases hs
    · rename_i snapshot hresolve
      refine h.setResolver fun _ => ?_
      show s.CurrentDuring call (F.policyKey snapshot)
      rw [F.keyed hresolve]
      exact hinv
    · exact h.setResolver fun _ => trivial

end

theorem callInv_start (party : SellerParty) (now : Instant) :
    CallInv s.rows (s.resolveCall party now) := by
  constructor
  · intro henr
    simpa [resolveCall] using henr
  · intro id hid
    simp only [resolveCall, mem_map, mem_filter, decide_eq_true_eq] at hid
    obtain ⟨r, ⟨hr, hnot⟩, hid⟩ := hid
    exact ⟨r, hr, hid, hnot⟩

theorem AssignmentInv.step (h : AssignmentInv s) (hstill : s.StillCurrent e)
    (hs : s.step e = some s') : AssignmentInv s' := by
  cases e with
  | assign pid =>
    simp only [step] at hs
    split at hs
    · rename_i hidle
      have hopen : s.assigns pid ≠ .returned := by
        rw [hidle]
        simp
      split at hs <;> cases hs <;> exact h.setAssign hopen trivial rfl
    · cases hs
  | advance => exact h.advance hs
  | abort =>
    simp only [step] at hs
    split at hs
    · cases hs
    · cases hs
    · cases hs
    rename_i hret _
    cases hs
    exact h.rollback hret
  | resolve rid party now =>
    simp only [step] at hs
    split at hs
    · cases hs
      exact h.setResolver (callInv_start party now)
    · cases hs
  | advanceResolver => exact h.advanceResolver hstill hs
  | endOrder =>
    cases hs
    exact h.setResolver trivial
  | administer =>
    cases hs
    exact {
      table := h.table
      written := h.written
      writers := h.writers
      writer := h.writer
      assigns := h.assigns
      resolvers := fun r => (h.resolvers r).of_grows fun r hr => ⟨r, hr, rfl, rfl, rfl, id⟩ }

/-- A step that leaves the property met the condition: otherwise the row is dropped, and
the party is answered as an unenrolled one. -/
theorem stillCurrent_of_neverLegacy (hs : s.step e = some s') (hnever : s'.NeverLegacy) :
    s.StillCurrent e := by
  rintro rid call seen rfl hr henr hfree
  by_contra hgone
  have hnone : s.reevaluate seen.id = none := by
    cases hcase : s.reevaluate seen.id with
    | none => rfl
    | some row =>
      obtain ⟨hmem, hid, hcur⟩ := reevaluate_eq_some hcase
      exact absurd ⟨row, hmem, hid, hcur⟩ hgone
  have hstep : s.step (.advanceResolver rid) =
      some (s.setResolver rid (.answered call none .legacyUnenrolled)) := by
    simp [step, advanceResolver, hr, hfree, hnone]
  rw [hstep] at hs
  cases hs
  exact hnever rid call none .legacyUnenrolled (update_self ..) henr

theorem stillCurrent_of_stuck (hs : s.step e = none) : s.StillCurrent e := by
  rintro rid call seen rfl hr henr hfree
  cases hcase : s.reevaluate seen.id <;>
    simp [step, advanceResolver, hr, hfree, hcase] at hs

end Step

/-! ## The whole run -/

/-- No assignment and no call yet. -/
structure Fresh (s : AssignmentSystem F) : Prop where
  rows : s.rows = []
  assigns : ∀ pid, s.assigns pid = .idle
  resolvers : ∀ rid, s.resolvers rid = .idle

theorem Fresh.assignmentInv (h : s.Fresh) : AssignmentInv s where
  table := by constructor <;> simp [h.rows]
  written := by simp [h.rows]
  writers := by simp [h.assigns, AssignCall.writes]
  writer := by simp [h.assigns, AssignCall.writes]
  assigns := by
    intro pid
    rw [h.assigns]
    trivial
  resolvers := by
    intro rid
    rw [h.resolvers]
    trivial

end AssignmentSystem

open AssignmentSystem

/-- **Enrolled parties.**  For either kind of policy, a run of assign calls and of
resolvers answers every party that had an assignment when its call started with a key that
was current during the call, or refuses it, exactly when no supersession commits between
the snapshot and the lock of a resolver's first read. -/
theorem neverLegacy_throughout_iff (kind : PolicyKind) {s : AssignmentSystem kind.family}
    (hnew : s.Fresh) (es : List (AssignmentStep kind.family)) :
    Throughout AssignmentSystem.step NeverLegacy s es ↔
      Along AssignmentSystem.step StillCurrent s es :=
  throughout_iff_along (I := AssignmentInv) (fun _ h => h.neverLegacy)
    (fun _ _ _ h hstill hs => h.step hstill hs)
    (fun _ _ _ _ hs hnever => stillCurrent_of_neverLegacy hs hnever)
    (fun _ _ _ hs => stillCurrent_of_stuck hs) hnew.assignmentInv es

/-! ## An order that waits for a supersession -/

/-- A published version that collects the full payment online. -/
def fullPaymentVersion (policyKey : String) : CollectionVersionRow where
  policyKey := policyKey
  version := 1
  lifecycleState := .published
  activationStartsAt := some 0
  activationEndsAt := none
  collectionMode := .fullPaymentOnline
  depositKind := .none
  depositAmountToman := none
  depositBasisPoints := none
  depositMinimumToman := none
  depositMaximumToman := none
  percentageBase := none

/-- Two collection policies, and nobody enrolled. -/
def nobodyEnrolled : AssignmentSystem collectionPolicies where
  rows := []
  catalogue := [fullPaymentVersion "standard", fullPaymentVersion "gold"]
  assigns := fun _ => .idle
  resolvers := fun _ => .idle
  writers := []
  holders := []

theorem nobodyEnrolled_fresh : nobodyEnrolled.Fresh := ⟨rfl, fun _ => rfl, fun _ => rfl⟩

/-- The seller of the runs below. -/
def soloSeller : SellerParty := ⟨.professional, 4⟩

/-- The seller enrols and begins to replace the policy; the order's read takes its
snapshot, waits, and goes on once the replacement has committed. -/
def supersessionRace : List (AssignmentStep collectionPolicies) :=
  [.assign 0 ⟨soloSeller, "standard", (), 1⟩, .advance 0, .advance 0, .advance 0, .advance 0,
    .assign 1 ⟨soloSeller, "gold", (), 2⟩, .advance 1, .advance 1, .advance 1, .advance 1,
    .resolve 0 soloSeller 2, .advanceResolver 0, .advance 1, .advanceResolver 0]

theorem neverLegacy_throughout_iff_supersessionRace :
    Throughout AssignmentSystem.step NeverLegacy nobodyEnrolled supersessionRace ↔
      Along AssignmentSystem.step StillCurrent nobodyEnrolled supersessionRace :=
  neverLegacy_throughout_iff .collection nobodyEnrolled_fresh supersessionRace

/-- The enrolled seller's order is answered `null`. -/
theorem neverLegacy_supersession_fails :
    ∃ t, runFrom AssignmentSystem.step nobodyEnrolled supersessionRace = some t ∧
      ¬t.NeverLegacy := by
  have hrun : (runFrom AssignmentSystem.step nobodyEnrolled supersessionRace).map (fun t =>
      match t.resolvers 0 with
      | .answered call _ .legacyUnenrolled => call.enrolled
      | _ => false) = some true := by decide +kernel
  obtain ⟨t, ht, hbad⟩ := Option.map_eq_some_iff.1 hrun
  refine ⟨t, ht, fun hnever => ?_⟩
  split at hbad
  · rename_i call held hans
    exact hnever 0 call held .legacyUnenrolled hans hbad
  · cases hbad

end BeauClick.CommercialPolicy
