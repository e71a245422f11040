import BeauClick.CommercialPolicy.Assignment
import Mathlib.Data.List.Chain

/-!
# What a seller is shown of the policy that was selected

`OutcomePolicyAssignmentService.viewOf` next to `resolveForParty`, on the assign calls
and the orders of `Assignment`.
-/

namespace BeauClick.CommercialPolicy

open Commerce Table Runs AssignmentSystem AssignCall Resolver List Option
open Function (update update_self update_of_ne)

/-! ## The view -/

/-- `OutcomePolicyAssignmentViewV1.assignment`; `assignedAt` is left out. -/
structure OutcomeAssignmentView where
  policyKey : String
  displayName : String
  selection : OutcomeSelection
  resolvable : Bool
  deriving DecidableEq

/-- `resolvable`: the selection fits the version that is active. -/
def resolvable (catalogue : OutcomeCatalogue) (policyKey : String) (selection : OutcomeSelection)
    (now : Instant) : Bool :=
  match activeOutcomeVersions catalogue policyKey now with
  | [version] => selectionOutsideAllowed selection (allowedMembersOf catalogue version) = []
  | _ => false

/-- `viewOf`.  `displayName` reads `booking_outcome_policies`; a key it does not have is
an exception. -/
def viewOf (displayName : String → Option String) (catalogue : OutcomeCatalogue)
    (row : AssignmentRow outcomePolicies) (now : Instant) : Option OutcomeAssignmentView :=
  match displayName row.policyKey with
  | none => none
  | some name =>
    some {
      policyKey := row.policyKey
      displayName := name
      selection := row.selection
      resolvable := resolvable catalogue row.policyKey row.selection now }

namespace AssignmentSystem

/-- `currentAssignment`, for a workspace the user owns.  `some none` is
`assignment: null`. -/
def currentAssignment (displayName : String → Option String) (s : AssignmentSystem outcomePolicies)
    (party : SellerParty) (now : Instant) : Option (Option OutcomeAssignmentView) :=
  match s.currentOf party with
  | none => some none
  | some row => (viewOf displayName s.catalogue row now).map some

variable {F : PolicyFamily}

/-- The answer for a row that was resolved or refused. -/
def answerOf : Except F.Cause F.Snapshot → PolicyResolution F
  | .ok snapshot => .resolved snapshot
  | .error cause => .refused cause

/-- What an order alone is answered. -/
def resolveForParty (s : AssignmentSystem F) (party : SellerParty) (now : Instant) :
    PolicyResolution F :=
  match s.currentOf party with
  | none => .legacyUnenrolled
  | some row =>
    answerOf (F.resolve row.policyKey row.selection
      (F.activeVersions s.catalogue row.policyKey now) s.catalogue now)

end AssignmentSystem

/-- The refusal is not for the version or its members. -/
def OutcomeUnavailable.beyondSelection : OutcomeUnavailable → Bool
  | .noActiveCopy | .ambiguousCopy | .invalidSnapshot => true
  | .noActiveVersion | .ambiguousVersion | .memberNotAllowed => false

/-- The cause of a refusal. -/
def refusalOf : PolicyResolution outcomePolicies → Option OutcomeUnavailable
  | .refused cause => some cause
  | .legacyUnenrolled | .resolved _ => none

/-- The selection fits the one version that is active: the party is resolved, or refused
for the copy or for a term of the snapshot. -/
def SelectionFits : PolicyResolution outcomePolicies → Prop
  | .legacyUnenrolled => False
  | .resolved _ => True
  | .refused cause => OutcomeUnavailable.beyondSelection cause = true

/-! ## The property -/

variable {F : PolicyFamily}

/-- Each row was superseded by the next one, and the last one is current. -/
def Chained (rows : List (AssignmentRow F)) : Prop :=
  rows.IsChain (fun r r' => r.supersededBy = some r'.id) ∧ ∀ r ∈ rows.getLast?, r.Current

/-- The answer is the row's, by versions and a catalogue that were read. -/
def AnswersFrom (row : AssignmentRow F) (now : Instant) : PolicyResolution F → Prop
  | .legacyUnenrolled => False
  | .resolved snapshot => ∃ read read', F.resolve row.policyKey row.selection
      (F.activeVersions read row.policyKey now) read' now = .ok snapshot
  | .refused cause => ∃ read read', F.resolve row.policyKey row.selection
      (F.activeVersions read row.policyKey now) read' now = .error cause

/-! ## The chain -/

section Chain

variable {l : List (AssignmentRow F)} {b b' : AssignmentRow F}

theorem Chained.eq_append (h : Chained l) (hb : b ∈ l) (hcur : b.Current) :
    ∃ older, l = older ++ [b] ∧ ∀ r ∈ older, ¬r.Current := by
  induction l with
  | nil => cases hb
  | cons r rest ih =>
    cases rest with
    | nil =>
      rw [mem_singleton] at hb
      exact ⟨[], by rw [hb]; rfl, by simp⟩
    | cons r' rest =>
      obtain ⟨hlink, hrest⟩ := isChain_cons_cons.1 h.1
      have hsuperseded : ¬r.Current := by
        intro hr
        rw [AssignmentRow.Current, hlink] at hr
        cases hr
      have htail : b ∈ r' :: rest := by
        rcases mem_cons.1 hb with rfl | htail
        · exact absurd hcur hsuperseded
        exact htail
      obtain ⟨older, hl, holder⟩ := ih ⟨hrest, fun x hx => h.2 x (by simpa using hx)⟩ htail
      refine ⟨r :: older, by rw [hl]; rfl, ?_⟩
      simpa [hsuperseded] using holder

theorem Chained.supersede {older : List (AssignmentRow F)} {next : AssignmentRow F}
    (h : Chained (older ++ [b])) (hid : b'.id = b.id) (hlink : b'.supersededBy = some next.id)
    (hnext : next.Current) : Chained (older ++ [b'] ++ [next]) := by
  refine ⟨?_, by simpa using hnext⟩
  rw [isChain_append]
  refine ⟨?_, List.IsChain.singleton _, by simpa using hlink⟩
  have hchain := isChain_append.1 h.1
  refine isChain_append.2 ⟨hchain.1, List.IsChain.singleton _, ?_⟩
  intro r hr x hx
  simp only [head?_cons, mem_def, some.injEq] at hx
  rw [← hx, hid]
  exact hchain.2.2 r hr b rfl

theorem Chained.eq_nil (h : Chained l) (hnone : ∀ r ∈ l, ¬r.Current) :
    l = [] := by
  cases hlast : l.getLast? with
  | none => exact getLast?_eq_none_iff.1 hlast
  | some r => exact absurd (h.2 r hlast) (hnone r (mem_of_getLast? hlast))

end Chain

namespace AssignmentSystem

/-- The party's rows, in the order in which they were committed. -/
def rowsOf (s : AssignmentSystem F) (party : SellerParty) : List (AssignmentRow F) :=
  s.rows.filter (·.party = party)

/-- The order has locked the row: it is the party's and it stays current. -/
structure Locks (s : AssignmentSystem F) (call : ResolveCall) (row : AssignmentRow F) : Prop where
  mem : row ∈ s.rows
  party : row.party = call.party
  current : row.Current

/-- **The property.** -/
structure Honest (s : AssignmentSystem outcomePolicies) : Prop where
  one : ∀ r ∈ s.rows, ∀ r' ∈ s.rows, r.party = r'.party → r.Current → r'.Current → r = r'
  chain : ∀ party, Chained (s.rowsOf party)
  answers : ∀ rid call id resolution, s.resolvers rid = .answered call (some id) resolution →
    ∃ row, row.id = id ∧ s.Locks call row ∧ AnswersFrom row call.now resolution
  view : ∀ displayName party now view,
    s.currentAssignment displayName party now = some (some view) →
      (view.resolvable = true ↔ SelectionFits (s.resolveForParty party now))

/-! ## The two chains of tests -/

open OutcomeUnavailable

theorem selectionFits_answerOf {catalogue : OutcomeCatalogue} {policyKey : String}
    {selection : OutcomeSelection} {now : Instant} :
    SelectionFits (answerOf (resolveOutcome policyKey selection
      (activeOutcomeVersions catalogue policyKey now) catalogue now)) ↔
      resolvable catalogue policyKey selection now = true := by
  unfold resolveOutcome resolvable
  cases activeOutcomeVersions catalogue policyKey now with
  | nil => simp [answerOf, SelectionFits, beyondSelection]
  | cons version others =>
    cases others with
    | cons => simp [answerOf, SelectionFits, beyondSelection]
    | nil =>
      by_cases hfits : selectionOutsideAllowed selection (allowedMembersOf catalogue version) = []
      · simp only [hfits, ne_eq, not_true_eq_false, if_false, decide_true, iff_true]
        cases activeCopies catalogue now with
        | nil => rfl
        | cons copy others =>
          cases others with
          | cons => rfl
          | nil =>
            by_cases hval :
                (outcomeSnapshot policyKey selection version copy now).problems = []
            · simp [hval, answerOf, SelectionFits]
            · simp [hval, answerOf, SelectionFits, beyondSelection]
      · simp [hfits, answerOf, SelectionFits, beyondSelection]

theorem view_iff {s : AssignmentSystem outcomePolicies} {displayName : String → Option String}
    {party : SellerParty} {now : Instant} {view : OutcomeAssignmentView}
    (h : s.currentAssignment displayName party now = some (some view)) :
    view.resolvable = true ↔ SelectionFits (s.resolveForParty party now) := by
  unfold currentAssignment at h
  unfold resolveForParty
  cases hcur : s.currentOf party with
  | none =>
    rw [hcur] at h
    cases h
  | some row =>
    rw [hcur] at h
    simp only [viewOf] at h
    cases hname : displayName row.policyKey with
    | none =>
      rw [hname] at h
      cases h
    | some =>
      rw [hname] at h
      simp only [map_some, some.injEq] at h
      rw [← h]
      exact selectionFits_answerOf.symm

/-! ## What a statement of an assign call does -/

/-- The system without its orders. -/
def quiet (s : AssignmentSystem F) : AssignmentSystem F :=
  { s with
    resolvers := fun _ => .idle
    holders := [] }

variable {s s' : AssignmentSystem F} {pid rid : ℕ} {input : AssignInput F}
  {current : Option (AssignmentRow F)} {e : AssignmentStep F}

open AssignmentSystem

theorem insert_cases (hs : s.insert pid input current = some s')
    (hsame : (AssignCall.inserted input current).supersedes = (s.assigns pid).supersedes ∨
      current = none) :
    ∃ c writers, s' = { s with assigns := update s.assigns pid c, writers := writers } ∧
      ∀ id, c.supersedes = some id →
        (s.assigns pid).supersedes = some id ∨ s.shared id = false := by
  unfold insert at hs
  split at hs
  · cases hs
  split at hs <;> injection hs with hs
  · exact ⟨.refused, _, hs.symm, by simp [supersedes]⟩
  · refine ⟨.inserted input current, _, hs.symm, fun id hid => ?_⟩
    rcases hsame with hsame | rfl
    · exact Or.inl (hsame ▸ hid)
    · cases hid

theorem advance_cases (hs : s.advance pid = some s') :
    (∃ c writers, s' = { s with assigns := update s.assigns pid c, writers := writers } ∧
      ∀ id, c.supersedes = some id →
        (s.assigns pid).supersedes = some id ∨ s.shared id = false) ∨
    ∃ input current, s.assigns pid = .inserted input current ∧ s' = s.commit pid input current := by
  unfold advance at hs
  cases hcall : s.assigns pid with
  | idle | returned | refused =>
    rw [hcall] at hs
    cases hs
  | started =>
    rw [hcall] at hs
    dsimp only at hs
    left
    split at hs
    · split at hs <;> injection hs with hs
      · exact ⟨.returned, _, hs.symm, by simp [supersedes]⟩
      · exact ⟨_, _, hs.symm, by simp [supersedes]⟩
    · injection hs with hs
      exact ⟨_, _, hs.symm, by simp [supersedes]⟩
  | read =>
    rw [hcall] at hs
    dsimp only at hs
    left
    split at hs <;> injection hs with hs <;>
      exact ⟨_, _, hs.symm, by simp [supersedes]⟩
  | locked input current =>
    rw [hcall] at hs
    left
    cases current with
    | none => exact hcall ▸ insert_cases hs (Or.inr rfl)
    | some c =>
      dsimp only at hs
      split at hs
      · cases hs
      rename_i hfree
      rw [Bool.or_eq_true, not_or, Bool.not_eq_true, Bool.not_eq_true] at hfree
      split at hs <;> injection hs with hs
      · refine ⟨.superseded input c, _, hs.symm, fun id hid => Or.inr ?_⟩
        cases hid
        exact hfree.2
      · exact ⟨.refused, _, hs.symm, by simp [supersedes]⟩
  | superseded =>
    rw [hcall] at hs
    left
    have h := insert_cases hs (Or.inl (by rw [hcall]; rfl))
    rw [hcall] at h
    exact h
  | inserted input current =>
    rw [hcall] at hs
    injection hs with hs
    exact Or.inr ⟨input, current, rfl, hs.symm⟩

theorem quiet_insert :
    s.quiet.insert pid input current = (s.insert pid input current).map quiet := by
  have hbusy : s.quiet.partyBusy pid input.party = s.partyBusy pid input.party := rfl
  unfold insert
  rw [hbusy]
  split
  · rfl
  split <;> split <;> first
    | rfl
    | contradiction

theorem quiet_advance (hs : s.advance pid = some s') : s.quiet.advance pid = some s'.quiet := by
  have hcalls : s.quiet.assigns pid = s.assigns pid := rfl
  unfold advance at hs ⊢
  rw [hcalls]
  cases hcall : s.assigns pid with
  | idle | returned | refused =>
    rw [hcall] at hs
    cases hs
  | started input =>
    have hread : s.quiet.currentOf input.party = s.currentOf input.party := rfl
    rw [hcall] at hs
    dsimp only at hs ⊢
    rw [hread]
    split at hs
    · split at hs <;> rename_i hsame <;> cases hs
      · rw [if_pos hsame]
        rfl
      · rw [if_neg hsame]
        rfl
    · cases hs
      rfl
  | read =>
    have hcatalogue : s.quiet.catalogue = s.catalogue := rfl
    rw [hcall] at hs
    dsimp only at hs ⊢
    rw [hcatalogue]
    split at hs <;> rename_i hassignable <;> cases hs
    · rw [if_pos hassignable]
      rfl
    · rw [if_neg hassignable]
      rfl
  | locked input current =>
    rw [hcall] at hs
    cases current with
    | none =>
      dsimp only at hs ⊢
      rw [quiet_insert, hs]
      rfl
    | some c =>
      have hshared : s.quiet.shared c.id = false := by
        simp [shared, quiet]
      have hsuperseding : s.quiet.superseding c.id = s.superseding c.id := rfl
      have hread : s.quiet.reevaluate c.id = s.reevaluate c.id := rfl
      dsimp only at hs ⊢
      rw [hshared, hsuperseding, hread, Bool.or_false]
      split at hs
      · cases hs
      rename_i hfree
      rw [Bool.or_eq_true, not_or] at hfree
      rw [if_neg hfree.1]
      split at hs <;> cases hs <;> rfl
  | superseded =>
    rw [hcall] at hs
    dsimp only at hs ⊢
    rw [quiet_insert, hs]
    rfl
  | inserted =>
    rw [hcall] at hs
    cases hs
    rfl

theorem quiet_advanceResolver (hs : s.advanceResolver rid = some s') : s'.quiet = s.quiet := by
  unfold advanceResolver at hs
  split at hs
  · cases hs
    rfl
  · cases hs
    rfl
  · split at hs
    · cases hs
    split at hs <;> cases hs <;> rfl
  · cases hs
    rfl
  · split at hs <;> cases hs <;> rfl
  · cases hs
  · cases hs

theorem quiet_inv (h : AssignmentInv s.quiet) (hs : s.step e = some s') :
    AssignmentInv s'.quiet := by
  cases e with
  | assign pid input =>
    refine h.step (e := .assign pid input) (fun _ _ _ he => by cases he) ?_
    have hcalls : s.quiet.assigns pid = s.assigns pid := rfl
    simp only [step] at hs ⊢
    rw [hcalls]
    split at hs
    · split at hs <;> rename_i hval <;> cases hs
      · rw [if_pos hval]
        rfl
      · rw [if_neg hval]
        rfl
    · cases hs
  | advance pid =>
    exact h.step (e := .advance pid) (fun _ _ _ he => by cases he) (quiet_advance hs)
  | abort pid =>
    refine h.step (e := .abort pid) (fun _ _ _ he => by cases he) ?_
    have hcalls : s.quiet.assigns pid = s.assigns pid := rfl
    simp only [step] at hs ⊢
    rw [hcalls]
    split at hs
    · cases hs
    · cases hs
    · cases hs
    · cases hs
      rfl
  | resolve =>
    simp only [step] at hs
    split at hs
    · cases hs
      exact h
    · cases hs
  | advanceResolver =>
    rw [quiet_advanceResolver hs]
    exact h
  | endOrder =>
    cases hs
    exact h
  | administer catalogue =>
    cases hs
    exact h.step (e := .administer catalogue) (fun _ _ _ he => by cases he) rfl

/-! ## The rows of a party -/

theorem rows_cases (hs : s.step e = some s') :
    s'.rows = s.rows ∨ ∃ pid input current, e = .advance pid ∧
      s.assigns pid = .inserted input current ∧ s' = s.commit pid input current := by
  cases e with
  | assign =>
    left
    simp only [step] at hs
    split at hs
    · split at hs <;> cases hs <;> rfl
    · cases hs
  | advance pid =>
    rcases advance_cases hs with ⟨_, _, rfl, -⟩ | ⟨input, current, hcall, rfl⟩
    · exact Or.inl rfl
    · exact Or.inr ⟨pid, input, current, rfl, hcall, rfl⟩
  | abort =>
    left
    simp only [step] at hs
    split at hs
    · cases hs
    · cases hs
    · cases hs
    · cases hs
      rfl
  | resolve =>
    left
    simp only [step] at hs
    split at hs
    · cases hs
      rfl
    · cases hs
  | advanceResolver => exact Or.inl (congrArg rows (quiet_advanceResolver hs) :)
  | endOrder rid | administer catalogue =>
    left
    cases hs
    rfl

theorem chained_commit (h : AssignmentInv s.quiet) (hcall : s.assigns pid = .inserted input current)
    (hchain : ∀ party, Chained (s.rowsOf party)) (party : SellerParty) :
    Chained ((s.commit pid input current).rowsOf party) := by
  have hquiet : s.quiet.assigns pid = .inserted input current := hcall
  have hreplaced := fun r (hr : r ∈ s.quiet.rows) => replaced_iff h hquiet hr
  have hold : (updateWhere (fun r => current.any (·.id = r.id))
      (fun r => { r with supersededBy := some pid }) s.rows).filter (·.party = party) =
      updateWhere (fun r => current.any (·.id = r.id))
        (fun r => { r with supersededBy := some pid }) (s.rowsOf party) :=
    filter_updateWhere (by intro r; rfl)
  have hmem : ∀ r ∈ s.rowsOf party, r ∈ s.rows ∧ r.party = party := by
    intro r hr
    simpa [rowsOf] using hr
  rw [rowsOf, commit, filter_append, hold]
  by_cases hparty : input.party = party
  · have hnew : [successor pid input].filter (·.party = party) = [successor pid input] := by
      simp [successor, hparty]
    rw [hnew]
    have hinv := h.assigns pid
    rw [show s.quiet.assigns pid = s.assigns pid from rfl, hcall] at hinv
    cases current with
    | none =>
      have hnil : s.rowsOf party = [] := by
        refine (hchain party).eq_nil fun r hr => ?_
        exact hinv r (hmem r hr).1 ((hmem r hr).2.trans hparty.symm)
      rw [hnil]
      exact ⟨List.IsChain.singleton _, by simp [updateWhere, successor, AssignmentRow.Current]⟩
    | some c =>
      obtain ⟨b, hb, hid, hbparty, hcur⟩ := hinv
      have hbmem : b ∈ s.rowsOf party := by
        simp only [rowsOf, mem_filter, decide_eq_true_eq]
        exact ⟨hb, hbparty.trans hparty⟩
      obtain ⟨older, hrows, holder⟩ := (hchain party).eq_append hbmem hcur
      have hkept : updateWhere (fun r => (some c).any (·.id = r.id))
          (fun r => { r with supersededBy := some pid }) older = older := by
        refine updateWhere_eq_self fun r hr hrep => ?_
        simp only [any_some, decide_eq_true_eq] at hrep
        have hr' := (hmem r (hrows ▸ mem_append_left _ hr)).1
        rw [h.table.ids r hr' b hb (hrep.symm.trans hid.symm)] at hr
        exact holder b hr hcur
      have hlast : updateWhere (fun r => (some c).any (·.id = r.id))
          (fun r => { r with supersededBy := some pid }) [b] =
          [{ b with supersededBy := some pid }] := by
        simp [updateWhere, hid]
      have hupd : updateWhere (fun r => (some c).any (·.id = r.id))
          (fun r => { r with supersededBy := some pid }) (s.rowsOf party) =
          older ++ [{ b with supersededBy := some pid }] := by
        rw [hrows, updateWhere, map_append]
        exact congrArg₂ (· ++ ·) hkept hlast
      have hbef : Chained (older ++ [b]) := hrows ▸ hchain party
      rw [hupd]
      exact hbef.supersede rfl rfl rfl
  · have hnew : [successor pid input].filter (·.party = party) = [] := by
      simp [successor, hparty]
    have hkept : updateWhere (fun r => current.any (·.id = r.id))
        (fun r => { r with supersededBy := some pid }) (s.rowsOf party) = s.rowsOf party := by
      refine updateWhere_eq_self fun r hr hrep => ?_
      exact hparty (((hreplaced r (hmem r hr).1).1 hrep).symm.trans (hmem r hr).2)
    rw [hnew, hkept, append_nil]
    exact hchain party

/-! ## The row an order has locked -/

/-- What holds of an order in each of its places. -/
def HeldBy (s : AssignmentSystem F) : Resolver F → Prop
  | .scanned call (some seen) => ∃ b ∈ s.rows, b.id = seen.id ∧ b.party = call.party
  | .locked call row => s.Locks call row
  | .versioned call row versions =>
    s.Locks call row ∧ ∃ read, versions = F.activeVersions read row.policyKey call.now
  | .answered call (some id) resolution =>
    ∃ row, row.id = id ∧ s.Locks call row ∧ AnswersFrom row call.now resolution
  | _ => True

/-- An order's row is not one that a call is superseding. -/
structure HeldInv (s : AssignmentSystem F) : Prop where
  resolvers : ∀ rid, HeldBy s (s.resolvers rid)
  holders : ∀ rid id, (s.resolvers rid).holds = some id → rid ∈ s.holders
  free : ∀ rid id pid, (s.resolvers rid).holds = some id → (s.assigns pid).supersedes ≠ some id

theorem HeldBy.of_grows {r : Resolver F} (h : HeldBy s r) (hgrows : Grows s.rows s'.rows)
    (hkept : ∀ row ∈ s.rows, row.Current → r.holds = some row.id → row ∈ s'.rows) :
    HeldBy s' r := by
  have hlocks : ∀ {call row}, s.Locks call row → r.holds = some row.id → s'.Locks call row :=
    fun hl hheld => ⟨hkept _ hl.mem hl.current hheld, hl.party, hl.current⟩
  cases r with
  | idle | called => trivial
  | scanned call seen =>
    cases seen with
    | none => trivial
    | some =>
      obtain ⟨b, hb, hid, hparty⟩ := h
      obtain ⟨b', hb', hid', hparty', -, -⟩ := hgrows b hb
      exact ⟨b', hb', hid'.trans hid, hparty'.trans hparty⟩
  | locked => exact hlocks h rfl
  | versioned => exact ⟨hlocks h.1 rfl, h.2⟩
  | answered call held =>
    cases held with
    | none => trivial
    | some =>
      obtain ⟨row, hid, hl, hans⟩ := h
      exact ⟨row, hid, hlocks hl (hid ▸ rfl), hans⟩

section

variable (h : HeldInv s)
include h

theorem HeldInv.setAssign {c : AssignCall F} {writers : List ℕ}
    (hc : ∀ id, c.supersedes = some id →
      (s.assigns pid).supersedes = some id ∨ s.shared id = false) :
    HeldInv { s with assigns := update s.assigns pid c, writers := writers } where
  resolvers := fun rid =>
    (h.resolvers rid).of_grows (fun r hr => ⟨r, hr, rfl, rfl, rfl, id⟩) fun _ hr _ _ => hr
  holders := h.holders
  free := by
    intro rid id other hheld hid
    by_cases heq : other = pid
    · subst heq
      simp only [update_self] at hid
      rcases hc id hid with hsame | hshared
      · exact h.free rid id other hheld hsame
      · have hbusy : s.shared id = true := by
          simp only [shared, decide_eq_true_eq]
          exact ⟨rid, h.holders rid id hheld, hheld⟩
        rw [hshared] at hbusy
        cases hbusy
    · simp only [update_of_ne heq] at hid
      exact h.free rid id other hheld hid

theorem HeldInv.commit (hcall : s.assigns pid = .inserted input current) :
    HeldInv (s.commit pid input current) where
  resolvers := by
    refine fun rid => (h.resolvers rid).of_grows grows_commit fun row hr _ hheld => ?_
    refine mem_rows_commit_of_not hr fun hrep => ?_
    refine h.free rid row.id pid hheld ?_
    cases current with
    | none => simp at hrep
    | some =>
      simp only [any_some, decide_eq_true_eq] at hrep
      rw [hcall, supersedes, hrep]
  holders := h.holders
  free := by
    intro rid id other hheld hid
    by_cases heq : other = pid
    · subst heq
      simp only [AssignmentSystem.commit, update_self] at hid
      cases hid
    · simp only [AssignmentSystem.commit, update_of_ne heq] at hid
      exact h.free rid id other hheld hid

theorem HeldInv.setResolver {r : Resolver F} {holders : List ℕ}
    (hr : HeldBy s r) (hother : ∀ q ∈ s.holders, q ≠ rid → q ∈ holders)
    (hheld : ∀ id, r.holds = some id →
      rid ∈ holders ∧ ∀ pid, (s.assigns pid).supersedes ≠ some id) :
    HeldInv { s with resolvers := update s.resolvers rid r, holders := holders } where
  resolvers := by
    have hsame : ∀ q, HeldBy s q →
        HeldBy { s with resolvers := update s.resolvers rid r, holders := holders } q :=
      fun _ hq => hq.of_grows (fun r hr => ⟨r, hr, rfl, rfl, rfl, id⟩) fun _ hr _ _ => hr
    exact (Function.forall_update_iff s.resolvers fun _ => HeldBy _).2
      ⟨hsame r hr, fun other _ => hsame _ (h.resolvers other)⟩
  holders := by
    intro q id hq
    by_cases heq : q = rid
    · subst heq
      simp only [update_self] at hq
      exact (hheld id hq).1
    · simp only [update_of_ne heq] at hq
      exact hother q (h.holders q id hq) heq
  free := by
    intro q id pid hq
    by_cases heq : q = rid
    · subst heq
      simp only [update_self] at hq
      exact (hheld id hq).2 pid
    · simp only [update_of_ne heq] at hq
      exact h.free q id pid hq

theorem HeldInv.advanceResolver (hrows : AssignmentInv s.quiet)
    (hs : s.advanceResolver rid = some s') : HeldInv s' := by
  have hinv := h.resolvers rid
  have hstay : ∀ {id}, (s.resolvers rid).holds = some id →
      rid ∈ s.holders ∧ ∀ pid, (s.assigns pid).supersedes ≠ some id :=
    fun hid => ⟨h.holders rid _ hid, fun pid => h.free rid _ pid hid⟩
  unfold AssignmentSystem.advanceResolver at hs
  cases hr : s.resolvers rid with
  | idle | answered =>
    rw [hr] at hs
    cases hs
  | called call =>
    rw [hr] at hs
    cases hs
    refine h.setResolver ?_ (fun _ hq _ => hq) (by simp [holds])
    cases hcur : s.currentOf call.party with
    | none => trivial
    | some seen =>
      obtain ⟨hmem, hparty, -⟩ := currentOf_eq_some hcur
      exact ⟨seen, hmem, rfl, hparty⟩
  | scanned call seen =>
    rw [hr] at hs hinv
    cases seen with
    | none =>
      cases hs
      exact h.setResolver trivial (fun _ hq _ => hq) (by simp [holds])
    | some =>
      dsimp only at hs
      split at hs
      · cases hs
      rename_i hfree
      split at hs <;> cases hs
      · rename_i row hrow
        obtain ⟨hmem, hid, hcur⟩ := reevaluate_eq_some hrow
        obtain ⟨b, hb, hbid, hbparty⟩ := hinv
        have hsame : b = row := hrows.table.ids b hb row hmem (hbid.trans hid.symm)
        refine h.setResolver (r := .locked call row) ⟨hmem, hsame ▸ hbparty, hcur⟩
          (fun _ hq _ => mem_cons_of_mem _ hq) fun id hheld => ⟨mem_cons_self, ?_⟩
        intro pid hsupersedes
        cases hheld
        -- the lock is granted when nobody is superseding the row
        have hwrites : ∃ party, (s.assigns pid).writes = some party := by
          cases hcall : s.assigns pid with
          | superseded | inserted => exact ⟨_, rfl⟩
          | _ =>
            rw [hcall] at hsupersedes
            cases hsupersedes
        obtain ⟨party, hwrites⟩ := hwrites
        apply hfree
        simp only [AssignmentSystem.superseding, decide_eq_true_eq]
        exact ⟨pid, hrows.writers pid party hwrites, hid ▸ hsupersedes⟩
      · exact h.setResolver trivial (fun _ hq _ => hq) (by simp [holds])
  | locked =>
    rw [hr] at hs hinv
    cases hs
    exact h.setResolver ⟨hinv, _, rfl⟩ (fun _ hq _ => hq)
      fun id hid => hstay (by rw [hr]; exact hid)
  | versioned call row =>
    rw [hr] at hs hinv
    obtain ⟨hlocks, read, rfl⟩ := hinv
    dsimp only at hs
    split at hs <;> cases hs <;> rename_i hresolve
    · exact h.setResolver ⟨row, rfl, hlocks, read, s.catalogue, hresolve⟩ (fun _ hq _ => hq)
        fun id hid => hstay (by rw [hr]; exact hid)
    · exact h.setResolver ⟨row, rfl, hlocks, read, s.catalogue, hresolve⟩ (fun _ hq _ => hq)
        fun id hid => hstay (by rw [hr]; exact hid)

theorem HeldInv.step (hrows : AssignmentInv s.quiet) (hs : s.step e = some s') :
    HeldInv s' := by
  have hnone : ∀ {c : AssignCall F} {pid}, c.supersedes = none → ∀ id, c.supersedes = some id →
      (s.assigns pid).supersedes = some id ∨ s.shared id = false := by
    intro c pid hc id hid
    rw [hc] at hid
    cases hid
  cases e with
  | assign =>
    simp only [step] at hs
    split at hs
    · split at hs <;> cases hs <;> exact h.setAssign (hnone rfl)
    · cases hs
  | advance =>
    rcases advance_cases hs with ⟨_, _, rfl, hc⟩ | ⟨_, _, hcall, rfl⟩
    · exact h.setAssign hc
    · exact h.commit hcall
  | abort =>
    simp only [step] at hs
    split at hs
    · cases hs
    · cases hs
    · cases hs
    · cases hs
      exact h.setAssign (hnone rfl)
  | resolve =>
    simp only [step] at hs
    split at hs
    · cases hs
      exact h.setResolver trivial (fun _ hq _ => hq) (by simp [holds])
    · cases hs
  | advanceResolver => exact h.advanceResolver hrows hs
  | endOrder =>
    cases hs
    refine h.setResolver trivial ?_ (by simp [holds])
    intro q hq hne
    simpa using ⟨hq, hne⟩
  | administer =>
    cases hs
    exact ⟨fun rid => (h.resolvers rid).of_grows (fun r hr => ⟨r, hr, rfl, rfl, rfl, id⟩)
      fun _ hr _ _ => hr, h.holders, h.free⟩

end

/-! ## The whole run -/

/-- The invariant of the rows, of their order and of the orders' locks. -/
structure HonestInv (s : AssignmentSystem F) : Prop where
  rows : AssignmentInv s.quiet
  chain : ∀ party, Chained (s.rowsOf party)
  held : HeldInv s

theorem HonestInv.step (h : HonestInv s) (hs : s.step e = some s') : HonestInv s' where
  rows := quiet_inv h.rows hs
  chain := by
    rcases rows_cases hs with hsame | ⟨_, _, _, -, hcall, rfl⟩
    · intro party
      rw [rowsOf, hsame]
      exact h.chain party
    · exact chained_commit h.rows hcall h.chain
  held := h.held.step h.rows hs

theorem Fresh.honestInv (h : s.Fresh) : HonestInv s where
  rows := Fresh.assignmentInv ⟨h.rows, h.assigns, fun _ => rfl⟩
  chain := fun party => by
    rw [rowsOf, h.rows]
    exact ⟨List.IsChain.nil, by simp⟩
  held := {
    resolvers := fun rid => by
      rw [h.resolvers]
      trivial
    holders := by simp [h.resolvers, holds]
    free := by simp [h.resolvers, holds] }

theorem HonestInv.honest {s : AssignmentSystem outcomePolicies} (h : HonestInv s) : s.Honest where
  one := h.rows.table.one
  chain := h.chain
  answers := fun rid call id resolution hr => by
    have hheld := h.held.resolvers rid
    rw [hr] at hheld
    exact hheld
  view := fun _ _ _ _ hview => view_iff hview

/-! ## An order alone -/

section Alone

variable {party : SellerParty}

theorem reevaluate_of_currentOf {row : AssignmentRow F} (h : TableInv s.rows)
    (hcur : s.currentOf party = some row) : s.reevaluate row.id = some row := by
  obtain ⟨hmem, -, hrow⟩ := currentOf_eq_some hcur
  cases hre : s.reevaluate row.id with
  | none => exact absurd ⟨row, hmem, rfl, hrow⟩ (reevaluate_eq_none hre)
  | some row' =>
    obtain ⟨hmem', hid, -⟩ := reevaluate_eq_some hre
    rw [h.ids row' hmem' row hmem hid]

/-- The order has `n` statements left, and answers so if nothing comes in between. -/
def Answers (s : AssignmentSystem F) (rid n : ℕ) (resolution : PolicyResolution F) : Prop :=
  ∃ t call held, runFrom step s (List.replicate n (.advanceResolver rid)) = some t ∧
    t.resolvers rid = .answered call held resolution

variable {call : ResolveCall} {row : AssignmentRow F} {resolution : PolicyResolution F} {n : ℕ}

theorem Answers.of_step (hs : s.advanceResolver rid = some s') (h : s'.Answers rid n resolution) :
    s.Answers rid (n + 1) resolution := by
  obtain ⟨t, call, held, hrun, hans⟩ := h
  refine ⟨t, call, held, ?_, hans⟩
  rw [replicate_succ, runFrom, step, hs]
  exact hrun

theorem answers_setResolver (held : Option Uuid) :
    (s.setResolver rid (.answered call held resolution)).Answers rid 0 resolution :=
  ⟨_, call, held, rfl, update_self ..⟩

theorem answers_versioned {versions : List F.Version}
    (hr : s.resolvers rid = .versioned call row versions) : s.Answers rid 1
      (answerOf (F.resolve row.policyKey row.selection versions s.catalogue call.now)) := by
  cases hans : F.resolve row.policyKey row.selection versions s.catalogue call.now with
  | ok =>
    exact .of_step (by simp only [advanceResolver, hr, hans]; rfl) (answers_setResolver _)
  | error =>
    exact .of_step (by simp only [advanceResolver, hr, hans]; rfl) (answers_setResolver _)

theorem answers_locked (hr : s.resolvers rid = .locked call row) :
    s.Answers rid 2 (answerOf (F.resolve row.policyKey row.selection
      (F.activeVersions s.catalogue row.policyKey call.now) s.catalogue call.now)) := by
  let t := s.setResolver rid
    (.versioned call row (F.activeVersions s.catalogue row.policyKey call.now))
  have ht : t.Answers rid 1 _ := answers_versioned (update_self ..)
  exact .of_step (by simp only [advanceResolver, hr]; rfl) ht

/-- **The statements of an order answer as `resolveForParty`**, where nothing comes between them
and nobody is superseding the row of its party. -/
theorem resolveForParty_alone (h : TableInv s.rows) (hr : s.resolvers rid = .called call)
    (hfree : ∀ row ∈ s.currentOf call.party, s.superseding row.id = false) :
    ∃ n, s.Answers rid n (s.resolveForParty call.party call.now) := by
  unfold resolveForParty
  let t := s.setResolver rid (.scanned call (s.currentOf call.party))
  have hscan : s.advanceResolver rid = some t := by
    simp only [advanceResolver, hr]
    rfl
  have ht : t.resolvers rid = .scanned call (s.currentOf call.party) := update_self ..
  cases hcur : s.currentOf call.party with
  | none =>
    rw [hcur] at ht
    exact ⟨2, .of_step hscan (.of_step (by simp only [advanceResolver, ht]; rfl)
      (answers_setResolver none))⟩
  | some row =>
    rw [hcur] at ht
    have hre : t.reevaluate row.id = some row := reevaluate_of_currentOf h hcur
    have hsuper : t.superseding row.id = false := hfree row hcur
    let u : AssignmentSystem F :=
      { t.setResolver rid (.locked call row) with holders := rid :: t.holders }
    have hlock : t.advanceResolver rid = some u := by
      simp only [advanceResolver, ht, hsuper, hre]
      rfl
    have hu : u.resolvers rid = .locked call row := update_self ..
    exact ⟨4, .of_step hscan (.of_step hlock (answers_locked hu))⟩

end Alone

end AssignmentSystem

open AssignmentSystem

/-- **The view.** -/
theorem honest_throughout {s : AssignmentSystem outcomePolicies} (hnew : s.Fresh)
    (es : List (AssignmentStep outcomePolicies)) :
    Throughout AssignmentSystem.step Honest s es :=
  throughout_of_along (I := HonestInv) (G := fun _ _ => True) (fun _ h => h.honest)
    (fun _ _ _ h _ hs => h.step hs) hnew.honestInv
    (along_of_invariant (fun _ _ _ h hs => h.step hs) (fun _ _ _ => trivial) hnew.honestInv es)

/-! ## A policy without a copy -/

/-- A version that is active from 0 on, with one choice for each member. -/
def salonOutcomeVersion : OutcomeVersionRow where
  id := 7
  policyKey := "standard"
  version := 1
  lifecycleState := .published
  activationStartsAt := some 0
  activationEndsAt := none
  cutoffHoursAllowed := [24]
  noShowGraceMinutesAllowed := [15]
  rescheduleFreeCountBeforeCutoff := 1
  disputeWindowHours := 48
  bodilyHarmWindowHours := none
  appealWindowHours := 24
  caseFileRetentionDays := none
  legalCap := none
  legalEvidenceId := none

/-- The version is published and no customer copy is. -/
def withoutCopy : AssignmentSystem outcomePolicies where
  rows := []
  catalogue := ⟨[salonOutcomeVersion], [⟨7, .lateCancellation, .none⟩, ⟨7, .noShow, .none⟩], []⟩
  assigns := fun _ => .idle
  resolvers := fun _ => .idle
  writers := []
  holders := []

/-- The seller selects the version's members. -/
def selectionOfMembers : List (AssignmentStep outcomePolicies) :=
  [.assign 0 ⟨soloSeller, "standard", ⟨24, .none, 15, .none⟩, 1⟩, .advance 0, .advance 0,
    .advance 0, .advance 0]

theorem honest_throughout_withoutCopy :
    Throughout AssignmentSystem.step Honest withoutCopy selectionOfMembers :=
  honest_throughout ⟨rfl, fun _ => rfl, fun _ => rfl⟩ selectionOfMembers

/-- The seller is shown a resolvable selection, and no order of the party resolves it. -/
theorem resolvable_withoutCopy :
    ∃ t view, runFrom AssignmentSystem.step withoutCopy selectionOfMembers = some t ∧
      t.currentAssignment some soloSeller 2 = some (some view) ∧ view.resolvable = true ∧
      ∀ snapshot, t.resolveForParty soloSeller 2 ≠ .resolved snapshot := by
  obtain ⟨t, ht, hview, hans⟩ : ∃ t ∈ runFrom AssignmentSystem.step withoutCopy
      selectionOfMembers, t.currentAssignment some soloSeller 2 =
        some (some ⟨"standard", "standard", ⟨24, .none, 15, .none⟩, true⟩) ∧
      refusalOf (t.resolveForParty soloSeller 2) = some .noActiveCopy := by decide +kernel
  refine ⟨t, _, ht, hview, rfl, fun snapshot hresolved => ?_⟩
  rw [hresolved] at hans
  cases hans

end BeauClick.CommercialPolicy
