import BeauClick.Commerce.Order
import BeauClick.Lib.Removable
import BeauClick.Lib.Transactions
import Mathlib.Data.List.MinMax

/-!
# Numbering the versions of a policy key

`insertWithAllocatedVersion`, as the catalogue, the commission policies and the settlement
schedules have it: the highest version of the key is read, and the draft is inserted under the
next one; a unique violation is caught, and the loop goes on.  PostgreSQL has then aborted the
transaction, and refuses every statement of it.
-/

namespace BeauClick.CommercialPolicy

open Commerce Locks ReadCommitted ReadCommitted.Versioned ReadCommitted.Removable Runs Transactions

/-! ## The drafts and their numbers -/

/-- The families whose services have the loop. -/
inductive DraftFamily where
  | planVersion
  | priceScheduleVersion
  | commissionPolicyVersion
  | settlementScheduleVersion

/-- What a caller may be answered instead. -/
inductive DraftError where
  /-- `CommercialKeyExistsException`. -/
  | keyExists
  /-- 23505, as the driver has it. -/
  | uniqueViolation
  /-- 25P02: the transaction is aborted. -/
  | inFailedTransaction
  /-- `CommercialLifecycleConflictException`. -/
  | lifecycleConflict
  /-- `CommercialNotFoundException`. -/
  | notFound
  deriving DecidableEq

/-- `VERSION_ALLOCATION_ATTEMPTS`, `COMMISSION_VERSION_ALLOCATION_ATTEMPTS` and
`SETTLEMENT_VERSION_ALLOCATION_ATTEMPTS`. -/
def DraftFamily.allocationAttempts : DraftFamily → ℕ
  | .planVersion | .priceScheduleVersion => 3
  | .commissionPolicyVersion => 3
  | .settlementScheduleVersion => 3

/-- What the violation of the last attempt is thrown as. -/
def DraftFamily.lastViolation : DraftFamily → DraftError
  | .planVersion | .priceScheduleVersion => .keyExists
  | .commissionPolicyVersion | .settlementScheduleVersion => .uniqueViolation

/-- The columns of `UNIQUE (policy_key, version)`. -/
structure DraftRow where
  policyKey : String
  version : ℕ
  deriving DecidableEq

/-- The id of a row that was there before, or the `uuidv7` of a call. -/
inductive DraftId where
  | stored (id : Uuid)
  | generated (call : ℕ)
  deriving DecidableEq

/-- The versions of a family. -/
abbrev DraftTable := Removable ℕ DraftId DraftRow

/-- `MAX(version)` of the key, or 0. -/
def highest (t : DraftTable) (p : ℕ) (policyKey : String) : ℕ :=
  (((t.rows p).filter fun r => r.2.policyKey = policyKey).map (·.2.version)).foldr max 0

/-- Where a call stands. -/
inductive DraftPlace where
  | idle
  /-- The attempt reads the highest version; the transaction may be aborted. -/
  | readHighest (policyKey : String) (attempt : ℕ) (aborted : Bool)
  | insert (policyKey : String) (attempt next : ℕ)
  | finishDraft (policyKey : String) (version : ℕ)
  | created (policyKey : String) (version : ℕ)
  /-- The draft was not created. -/
  | threw (error : DraftError)
  | findDraft (policyKey : String) (version : ℕ)
  | deleteDraft (id : DraftId)
  | finishDiscard
  | discarded
  | notDiscarded (error : DraftError)
  | died
  deriving DecidableEq

/-- What a call is asked for. -/
inductive DraftRequest where
  | createVersionDraft (policyKey : String)
  | discardVersionDraft (policyKey : String) (version : ℕ)

/-- Where a call starts. -/
def DraftRequest.first : DraftRequest → DraftPlace
  | .createVersionDraft policyKey => .readHighest policyKey 1 false
  | .discardVersionDraft policyKey version => .findDraft policyKey version

/-- One statement.  What comes after the insert and the deletion writes other tables. -/
def draftStatement (family : DraftFamily) (t : DraftTable) (p : ℕ) :
    DraftPlace → Next DraftTable Unit DraftPlace
  | .readHighest policyKey attempt aborted =>
    if family.allocationAttempts < attempt then .throws (.threw .lifecycleConflict)
    else if aborted then .throws (.threw .inFailedTransaction)
    else .goes t (.insert policyKey attempt (highest t p policyKey + 1))
  | .insert policyKey attempt next =>
    match t.insert p (.generated p) (some ⟨policyKey, next⟩) (· = some ⟨policyKey, next⟩) with
    | .waits => .waits
    | .done _ t' => .goes t' (.finishDraft policyKey next)
    | .unmatched | .violated =>
      if attempt < family.allocationAttempts then
        .goes t (.readHighest policyKey (attempt + 1) true)
      else .throws (.threw family.lastViolation)
  | .finishDraft policyKey version => .commits (.created policyKey version)
  | .findDraft policyKey version =>
    match (t.rows p).find? (·.2 = ⟨policyKey, version⟩) with
    | none => .throws (.notDiscarded .notFound)
    | some r => .goes t (.deleteDraft r.1)
  | .deleteDraft id =>
    match t.remove p id with
    | .waits => .waits
    | .ignored => .throws (.notDiscarded .lifecycleConflict)
    | .done t' => .goes t' .finishDiscard
  | .finishDiscard => .commits .discarded
  | .idle | .created .. | .threw _ | .discarded | .notDiscarded _ | .died => .waits

/-- The transaction is open. -/
def DraftPlace.running : DraftPlace → Bool
  | .readHighest .. | .insert .. | .finishDraft .. | .findDraft .. | .deleteDraft _
  | .finishDiscard => true
  | .idle | .created .. | .threw _ | .discarded | .notDiscarded _ | .died => false

/-- The calls that create and discard drafts of a family. -/
def draftService (family : DraftFamily) : Service DraftTable Unit DraftPlace DraftRequest Unit where
  commit := Versioned.commit
  rollback := Versioned.rollback
  idle := .idle
  failed := .died
  running := DraftPlace.running
  first := DraftRequest.first
  statement := fun _ => draftStatement family

/-- The tables, the locks and the calls. -/
abbrev DraftSystem := System DraftTable Unit DraftPlace

abbrev DraftStep := Step DraftRequest Unit

/-! ## The property -/

/-- A committed version of the key has the number. -/
def Present (t : DraftTable) (policyKey : String) (version : ℕ) : Prop :=
  ∃ id, t.there id = some ⟨policyKey, version⟩

/-- The draft has been deleted. -/
def Discarded (t : DraftTable) (id : DraftId) : Prop := t.committed id = some none

/-- The call has thrown, or its transaction is aborted, so that its next statement will throw. -/
def DraftPlace.Fails : DraftPlace → Prop
  | .threw _ => True
  | .readHighest _ _ aborted => aborted = true
  | _ => False

/-- The call's next statement ends its transaction. -/
def DraftPlace.Ending : DraftPlace → Prop
  | .finishDraft .. | .finishDiscard => True
  | _ => False

/-- **The property**, of the calls that have begun on the table `base`. -/
structure Numbered (family : DraftFamily) (base : DraftTable) (s : DraftSystem) : Prop where
  succeeds : ∀ p, ¬(s.calls p).Fails
  /-- A call waits only for one that is about to end. -/
  waits : ∀ p, (s.calls p).running = true → draftStatement family s.db p (s.calls p) = .waits →
    ∃ q, (s.calls q).Ending
  distinct : ∀ p q policyKey version, s.calls p = .created policyKey version →
    s.calls q = .created policyKey version → ¬Discarded s.db (.generated p) →
      ¬Discarded s.db (.generated q) → p = q
  consecutive : (∀ id, ¬Discarded s.db id) → ∀ policyKey, ∃ count, ∀ version,
    (∃ p, s.calls p = .created policyKey version) ↔
      highest base 0 policyKey < version ∧ version ≤ highest base 0 policyKey + count

/-- The number is that of a version that nobody is about to delete. -/
def Taken (t : DraftTable) (p : ℕ) (row : DraftRow) : Prop :=
  ∃ id ∈ t.keys, t.there id = some row ∧ ¬(t.row id).Locked p

/-- The call inserts a number that is taken by now. -/
def Outpaced (s : DraftSystem) (e : DraftStep) : Prop :=
  match e.action, s.calls e.pid with
  | .statement (), .insert policyKey _ next => Taken s.db e.pid ⟨policyKey, next⟩
  | _, _ => False

/-- Nobody is at work on the table, and its numbers are distinct. -/
structure Settled (t : DraftTable) : Prop where
  untouched : ∀ p, t.Untouched p
  apart : Apart (fun x y => x = y ∧ x ≠ none) t
  unused : ∀ p, t.row (.generated p) = .empty

variable {family : DraftFamily} {t t' base : DraftTable} {p q : ℕ} {place place' : DraftPlace}
  {policyKey : String} {version next : ℕ} {id : DraftId}

/-! ## The highest version -/

section

variable (h : t.Untouched p)
include h

theorem find_of_untouched (id : DraftId) : t.find p id = t.there id :=
  congrArg Option.join h.get_eq

theorem mem_versions_iff :
    version ∈ ((t.rows p).filter fun r => r.2.policyKey = policyKey).map (·.2.version) ↔
      Present t policyKey version := by
  constructor
  · intro hmem
    obtain ⟨⟨id, _⟩, hrow, rfl⟩ := List.mem_map.1 hmem
    rw [List.mem_filter, decide_eq_true_eq, mem_rows, find_of_untouched h] at hrow
    obtain ⟨hthere, rfl⟩ := hrow
    exact ⟨id, hthere⟩
  · rintro ⟨id, hthere⟩
    refine List.mem_map.2 ⟨(id, ⟨policyKey, version⟩), ?_, rfl⟩
    rw [List.mem_filter, decide_eq_true_eq, mem_rows, find_of_untouched h]
    exact ⟨hthere, rfl⟩

theorem le_highest (hv : Present t policyKey version) :
    version ≤ highest t p policyKey :=
  List.le_max_of_le ((mem_versions_iff h).2 hv) le_rfl

theorem present_highest (hne : highest t p policyKey ≠ 0) :
    Present t policyKey (highest t p policyKey) := by
  refine (mem_versions_iff h).1 (List.maximum_mem (List.foldr_max_of_ne_nil ?_).symm)
  intro hnil
  apply hne
  rw [highest, hnil]
  rfl

end

/-! ## What the calls rely on -/

/-- No draft has been discarded. -/
def NoneDiscarded (t : DraftTable) : Prop := ∀ id, ¬Discarded t id

/-- The number comes after those of the base, and the numbers between are there. -/
def ComesNext (base t : DraftTable) (policyKey : String) (next : ℕ) : Prop :=
  highest base 0 policyKey < next ∧
    ∀ version, highest base 0 policyKey < version → version < next → Present t policyKey version

/-- The numbers are distinct, and those that have come are the next ones. -/
structure DraftSound (base t : DraftTable) : Prop where
  apart : Apart (fun x y => x = y ∧ x ≠ none) t
  stored : ∀ id row, t.there (.stored id) = some row → base.there (.stored id) = some row
  consecutive : NoneDiscarded t → ∀ policyKey, ∃ count, ∀ version, Present t policyKey version ↔
    Present base policyKey version ∨
      highest base 0 policyKey < version ∧ version ≤ highest base 0 policyKey + count

/-- The call has written nothing, and there is no row with its id. -/
structure Fresh (t : DraftTable) (p : ℕ) : Prop where
  untouched : t.Untouched p
  unused : t.row (.generated p) = .empty

/-- What a call has read and written, place by place. -/
def DraftWork (family : DraftFamily) (base t : DraftTable) (p : ℕ) : DraftPlace → Prop
  | .readHighest _ attempt _ => Fresh t p ∧ attempt ≤ family.allocationAttempts
  | .insert policyKey attempt next => Fresh t p ∧ attempt ≤ family.allocationAttempts ∧
      (NoneDiscarded t → ComesNext base t policyKey next)
  | .finishDraft policyKey version =>
      t.row (.generated p) = ⟨none, some (p, some ⟨policyKey, version⟩)⟩ ∧
        t.OnlyAt p (.generated p) ∧ (NoneDiscarded t → ComesNext base t policyKey version)
  | .created policyKey version => t.Untouched p ∧
      (t.committed (.generated p) = some (some ⟨policyKey, version⟩) ∨
        Discarded t (.generated p)) ∧
      (NoneDiscarded t → highest base 0 policyKey < version)
  | .finishDiscard => t.row (.generated p) = .empty ∧
      ∃ id x, t.row id = ⟨some x, some (p, none)⟩ ∧ t.OnlyAt p id
  | _ => Fresh t p

/-- What holds of the table, and what a call relies on. -/
def draftOutline (family : DraftFamily) (base : DraftTable) :
    Outline DraftTable Unit DraftPlace Unit where
  Assumes := fun _ _ _ _ => True
  Sound := DraftSound base
  Guarantee := fun _ _ => True
  Work := DraftWork family base
  holds := fun _ _ _ => False

/-! ## What a step leaves to the calls beside it -/

/-- A version is there until it is discarded. -/
def Lasts (t t' : DraftTable) : Prop :=
  ∀ id x, t.committed id = some x → t'.committed id = some x ∨ Discarded t' id

/-- What the step of another call leaves to a call. -/
structure Beside (q : ℕ) (t t' : DraftTable) : Prop where
  others : Others q t t'
  unused : t.row (.generated q) = .empty → t'.row (.generated q) = .empty
  lasts : Lasts t t'

theorem Lasts.of_same (h : t'.committed = t.committed) : Lasts t t' := by
  intro id x hx
  rw [h]
  exact Or.inl hx

theorem Lasts.discarded (h : Lasts t t') (hd : Discarded t id) : Discarded t' id := by
  rcases h id none hd with hsame | hd'
  · exact hsame
  · exact hd'

theorem Lasts.noneDiscarded (h : Lasts t t') (hn : NoneDiscarded t') : NoneDiscarded t :=
  fun id hd => hn id (h.discarded hd)

theorem there_eq_some {row : DraftRow} (h : t.committed id = some (some row)) :
    t.there id = some row :=
  congrArg Option.join h

theorem Lasts.present (h : Lasts t t') (hn : NoneDiscarded t') (hv : Present t policyKey version) :
    Present t' policyKey version := by
  obtain ⟨id, hthere⟩ := hv
  rcases h id _ (committed_of_there hthere) with hsame | hd
  · exact ⟨id, there_eq_some hsame⟩
  · exact absurd hd (hn id)

theorem Lasts.comesNext (h : Lasts t t')
    (hw : NoneDiscarded t → ComesNext base t policyKey next) (hn : NoneDiscarded t') :
    ComesNext base t' policyKey next := by
  obtain ⟨hlt, hbetween⟩ := hw (h.noneDiscarded hn)
  exact ⟨hlt, fun version hlow hhigh => h.present hn (hbetween version hlow hhigh)⟩

theorem Fresh.beside (h : Fresh t q) (hb : Beside q t t') : Fresh t' q :=
  ⟨hb.others.untouched h.untouched, hb.unused h.unused⟩

theorem draftWork_beside (h : DraftWork family base t q place) (hb : Beside q t t') :
    DraftWork family base t' q place := by
  cases place with
  | readHighest => exact ⟨h.1.beside hb, h.2⟩
  | insert => exact ⟨h.1.beside hb, h.2.1, hb.lasts.comesNext h.2.2⟩
  | finishDraft =>
    exact ⟨hb.others.row_of h.1, hb.others.onlyAt h.2.1, hb.lasts.comesNext h.2.2⟩
  | created =>
    refine ⟨hb.others.untouched h.1, ?_, fun hn => h.2.2 (hb.lasts.noneDiscarded hn)⟩
    rcases h.2.1 with hthere | hd
    · exact hb.lasts _ _ hthere
    · exact Or.inr (hb.lasts.discarded hd)
  | finishDiscard =>
    obtain ⟨hunused, id, x, hrow, honly⟩ := h
    exact ⟨hb.unused hunused, id, x, hb.others.row_of hrow, hb.others.onlyAt honly⟩
  | _ => exact Fresh.beside h hb

/-! ## What a step keeps -/

/-- What a step keeps. -/
structure Takes (family : DraftFamily) (base t : DraftTable) (p : ℕ) (t' : DraftTable)
    (place' : DraftPlace) : Prop where
  sound : DraftSound base t'
  beside : ∀ q ≠ p, Beside q t t'
  work : DraftWork family base t' p place'

theorem takes_refl (hs : DraftSound base t) (hw : DraftWork family base t p place') :
    Takes family base t p t place' :=
  ⟨hs, fun _ _ => ⟨.refl, id, .of_same rfl⟩, hw⟩

theorem DraftSound.of_same (h : DraftSound base t)
    (hapart : Apart (fun x y => x = y ∧ x ≠ none) t') (hsame : t'.committed = t.committed) :
    DraftSound base t' where
  apart := hapart
  stored := by
    intro id row hthere
    refine h.stored id row ?_
    rw [there, hsame] at hthere
    exact hthere
  consecutive := by
    unfold NoneDiscarded Discarded Present there
    rw [hsame]
    exact h.consecutive

section

variable (hs : DraftSound base t)
include hs

theorem comesNext_highest (hbase : base.Untouched 0) (h : t.Untouched p)
    (hn : NoneDiscarded t) (policyKey : String) :
    ComesNext base t policyKey (highest t p policyKey + 1) := by
  obtain ⟨_, hcnt⟩ := hs.consecutive hn policyKey
  have hle : highest base 0 policyKey ≤ highest t p policyKey := by
    by_cases hzero : highest base 0 policyKey = 0
    · rw [hzero]
      exact Nat.zero_le _
    · exact le_highest h ((hcnt _).2 (Or.inl (present_highest hbase hzero)))
  refine ⟨Nat.lt_succ_of_le hle, fun version hlow hhigh => ?_⟩
  have hne : highest t p policyKey ≠ 0 := by omega
  rcases (hcnt _).1 (present_highest h hne) with hold | ⟨-, _⟩
  · have hmax := le_highest hbase hold
    omega
  · exact (hcnt version).2 (Or.inr ⟨hlow, by omega⟩)

theorem takes_write {o : Option DraftRow} (hlock : ¬(t.row id).Locked p)
    (hapart : Apart (fun x y => x = y ∧ x ≠ none) (t.write p id o))
    (hused : ∀ q ≠ p, t.row (.generated q) = .empty → id ≠ .generated q)
    (hw : DraftWork family base (t.write p id o) p place') :
    Takes family base t p (t.write p id o) place' := by
  refine ⟨hs.of_same hapart committed_write, fun q hq => ?_, hw⟩
  refine ⟨others_write hq hlock, fun hempty => ?_, .of_same committed_write⟩
  rw [row_write_ne (hused q hq hempty).symm, hempty]

theorem takes_goes (hbase : base.Untouched 0) (hw : DraftWork family base t p place)
    (hst : draftStatement family t p place = .goes t' place') :
    Takes family base t p t' place' := by
  cases place with
  | readHighest policyKey =>
    obtain ⟨hfresh, hatt⟩ := hw
    simp only [draftStatement] at hst
    split at hst
    · cases hst
    split at hst
    · cases hst
    cases hst
    refine takes_refl hs ⟨hfresh, hatt, fun hn => ?_⟩
    exact comesNext_highest hs hbase hfresh.untouched hn policyKey
  | insert =>
    obtain ⟨hfresh, -, hnext⟩ := hw
    simp only [draftStatement] at hst
    split at hst
    · cases hst
    · rename_i row t₁ hins
      cases hst
      obtain ⟨rfl, rfl, hlock, -, hfree⟩ := insert_eq_done hins
      refine takes_write hs hlock ?_ ?_ ⟨?_, ?_, ?_⟩
      · refine hs.apart.write (fun x y h => ⟨h.1.symm, h.1 ▸ h.2⟩) fun id hid v hv hsame => ?_
        exact hfree id hid v hv hsame.1.symm
      · intro q hq _ heq
        cases heq
        exact hq rfl
      · rw [row_write_self, hfresh.unused]
        rfl
      · exact hfresh.untouched.onlyAt.write
      · exact (Lasts.of_same committed_write).comesNext hnext
    · split at hst
      · rename_i hmore
        cases hst
        exact takes_refl hs ⟨hfresh, hmore⟩
      · cases hst
    · split at hst
      · rename_i hmore
        cases hst
        exact takes_refl hs ⟨hfresh, hmore⟩
      · cases hst
  | findDraft =>
    simp only [draftStatement] at hst
    split at hst
    · cases hst
    cases hst
    exact takes_refl hs hw
  | deleteDraft id =>
    have hfresh : Fresh t p := hw
    simp only [draftStatement] at hst
    split at hst
    · cases hst
    · cases hst
    rename_i t₁ hremove
    cases hst
    obtain ⟨row, hfind⟩ := find_of_remove_done hremove
    obtain ⟨rfl, hlock⟩ := remove_done hremove
    rw [find_of_untouched hfresh.untouched] at hfind
    have hcomm : t.committed id = some (some row) := committed_of_there hfind
    have hne : ∀ q, t.row (.generated q) = .empty → id ≠ .generated q := by
      rintro q hempty rfl
      rw [Versioned.committed, hempty] at hcomm
      cases hcomm
    refine takes_write hs hlock ?_ (fun q _ => hne q) ⟨?_, id, some row, ?_, ?_⟩
    · exact hs.apart.write (fun x y h => ⟨h.1.symm, h.1 ▸ h.2⟩) fun _ _ _ _ h => h.2 rfl
    · rw [row_write_ne (hne p hfresh.unused).symm, hfresh.unused]
    · rw [row_write (hfresh.untouched id), hfresh.untouched.get_eq, hcomm]
    · exact hfresh.untouched.onlyAt.write
  | _ => cases hst

end

theorem beside_commit (hlasts : Lasts t (t.commit p)) (hq : q ≠ p) : Beside q t (t.commit p) where
  others := others_commit hq
  unused := by
    intro hempty
    rw [row_commit, hempty]
    rfl
  lasts := hlasts

theorem committed_commit_ne (honly : t.OnlyAt p id) {id' : DraftId} (hne : id' ≠ id) :
    (t.commit p).committed id' = t.committed id' :=
  committed_commit_of_not fun hw => hne (honly id' hw)

section

variable (hrow : t.row (.generated p) = ⟨none, some (p, some ⟨policyKey, version⟩)⟩)
  (honly : t.OnlyAt p (.generated p))
include hrow honly

theorem lasts_finishDraft : Lasts t (t.commit p) := by
  intro id x hx
  by_cases hid : id = .generated p
  · subst hid
    rw [committed_of_row hrow] at hx
    cases hx
  · rw [committed_commit_ne honly hid]
    exact Or.inl hx

/-- What is there is the new draft, or it was there before. -/
theorem present_finishDraft (key : String) (number : ℕ) : Present (t.commit p) key number ↔
    Present t key number ∨ key = policyKey ∧ number = version := by
  have hnew : (t.commit p).committed (.generated p) = some (some ⟨policyKey, version⟩) :=
    (wrote_of_row hrow).committed_commit
  constructor
  · rintro ⟨id, hthere⟩
    by_cases hid : id = .generated p
    · subst hid
      rw [there_eq_some hnew] at hthere
      cases hthere
      exact Or.inr ⟨rfl, rfl⟩
    · refine Or.inl ⟨id, ?_⟩
      rw [there, committed_commit_ne honly hid] at hthere
      exact hthere
  · rintro (⟨id, hthere⟩ | ⟨rfl, rfl⟩)
    · refine ⟨id, ?_⟩
      have hid : id ≠ .generated p := by
        rintro rfl
        rw [there, committed_of_row hrow] at hthere
        cases hthere
      rw [there, committed_commit_ne honly hid]
      exact hthere
    · exact ⟨_, there_eq_some hnew⟩

end

/-- A number that comes next and is not taken is the one after those that have come. -/
theorem ComesNext.eq {count : ℕ} (h : ComesNext base t policyKey version)
    (hbase : base.Untouched 0) (hfree : ¬Present t policyKey version)
    (hcnt : ∀ number, Present t policyKey number ↔ Present base policyKey number ∨
      highest base 0 policyKey < number ∧ number ≤ highest base 0 policyKey + count) :
    version = highest base 0 policyKey + count + 1 := by
  obtain ⟨hlow, hbetween⟩ := h
  have hup : highest base 0 policyKey + count < version := by
    by_contra hle
    exact hfree ((hcnt version).2 (Or.inr ⟨hlow, by omega⟩))
  have hdown : ¬highest base 0 policyKey + count + 1 < version := by
    intro hlt
    rcases (hcnt _).1 (hbetween _ (by omega) hlt) with hold | ⟨-, _⟩
    · have hmax := le_highest hbase hold
      omega
    · omega
  omega

theorem takes_finishDraft (hbase : base.Untouched 0) (hs : DraftSound base t)
    (hw : DraftWork family base t p (.finishDraft policyKey version)) :
    Takes family base t p (t.commit p) (.created policyKey version) := by
  obtain ⟨hrow, honly, hnext⟩ := hw
  have hwrote : t.Wrote p (.generated p) (some ⟨policyKey, version⟩) := wrote_of_row hrow
  have hlasts : Lasts t (t.commit p) := lasts_finishDraft hrow honly
  -- the number is not taken
  have hfree : ¬Present t policyKey version := by
    rintro ⟨id, hthere⟩
    have hsame : id = .generated p := hs.apart id (.generated p) _ _
      (Or.inl (committed_of_there hthere)) (Or.inr ⟨p, hwrote⟩) ⟨rfl, by simp⟩
    subst hsame
    rw [there, committed_of_row hrow] at hthere
    cases hthere
  refine ⟨⟨hs.apart.commit, ?_, ?_⟩, fun q hq => beside_commit hlasts hq, untouched_commit,
    Or.inl hwrote.committed_commit, fun hn => (hnext (hlasts.noneDiscarded hn)).1⟩
  · intro id row hthere
    rw [there, committed_commit_ne honly (by simp)] at hthere
    exact hs.stored id row hthere
  · intro hn key
    have hn₀ : NoneDiscarded t := hlasts.noneDiscarded hn
    obtain ⟨count, hcnt⟩ := hs.consecutive hn₀ key
    by_cases hkey : key = policyKey
    · subst hkey
      have hver := (hnext hn₀).eq hbase hfree hcnt
      refine ⟨count + 1, fun number => ?_⟩
      rw [present_finishDraft hrow honly, hcnt]
      constructor
      · rintro ((hold | ⟨hlow, hle⟩) | ⟨-, rfl⟩)
        · exact Or.inl hold
        · exact Or.inr ⟨hlow, by omega⟩
        · exact Or.inr ⟨by omega, by omega⟩
      · rintro (hold | ⟨hlow, hle⟩)
        · exact Or.inl (Or.inl hold)
        · rcases Nat.lt_or_eq_of_le hle with hlt | heq
          · exact Or.inl (Or.inr ⟨hlow, by omega⟩)
          · exact Or.inr ⟨rfl, by omega⟩
    · refine ⟨count, fun number => ?_⟩
      rw [present_finishDraft hrow honly, hcnt]
      simp [hkey]

theorem takes_finishDiscard (hs : DraftSound base t)
    (hw : DraftWork family base t p .finishDiscard) :
    Takes family base t p (t.commit p) .discarded := by
  obtain ⟨hunused, id, _, hrow, honly⟩ := hw
  have hgone : Discarded (t.commit p) id := (wrote_of_row hrow).committed_commit
  have hlasts : Lasts t (t.commit p) := by
    intro id' y hy
    by_cases hid : id' = id
    · subst hid
      exact Or.inr hgone
    · rw [committed_commit_ne honly hid]
      exact Or.inl hy
  refine ⟨⟨hs.apart.commit, ?_, fun hn => absurd hgone (hn id)⟩,
    fun q hq => beside_commit hlasts hq, untouched_commit, ?_⟩
  · intro n row hthere
    by_cases hid : .stored n = id
    · rw [there, hid, hgone] at hthere
      cases hthere
    · rw [there, committed_commit_ne honly hid] at hthere
      exact hs.stored n row hthere
  · rw [row_commit, hunused]
    rfl

/-- A call that ends without a commit leaves nothing. -/
def DraftPlace.Over : DraftPlace → Prop
  | .threw _ | .notDiscarded _ | .died => True
  | _ => False

/-- How a statement may end a call: no lock is taken, and a commit is the last statement. -/
def Ends (place : DraftPlace) : Next DraftTable Unit DraftPlace → Prop
  | .locks _ _ _ => False
  | .commits place' =>
    (∃ policyKey version, place = .finishDraft policyKey version ∧
      place' = .created policyKey version) ∨ place = .finishDiscard ∧ place' = .discarded
  | .throws place' => place.running = true ∧ place'.Over
  | _ => True

theorem ends_statement (family : DraftFamily) (t : DraftTable) (p : ℕ) (place : DraftPlace) :
    Ends place (draftStatement family t p place) := by
  cases place with
  | finishDraft policyKey version => exact Or.inl ⟨policyKey, version, rfl, rfl⟩
  | finishDiscard => exact Or.inr ⟨rfl, rfl⟩
  | _ =>
    simp only [draftStatement]
    repeat' split
    all_goals trivial

theorem ends_of_eq {n : Next DraftTable Unit DraftPlace}
    (hst : draftStatement family t p place = n) : Ends place n :=
  hst ▸ ends_statement family t p place

theorem takes_commits (hbase : base.Untouched 0) (hs : DraftSound base t)
    (hw : DraftWork family base t p place)
    (hst : draftStatement family t p place = .commits place') :
    Takes family base t p (t.commit p) place' := by
  rcases ends_of_eq hst with ⟨_, _, rfl, rfl⟩ | ⟨rfl, rfl⟩
  · exact takes_finishDraft hbase hs hw
  · exact takes_finishDiscard hs hw

theorem unused_rollback (hw : DraftWork family base t p place) (hrun : place.running = true) :
    (t.rollback p).row (.generated p) = .empty := by
  have hempty : t.row (.generated p) = .empty → (t.rollback p).row (.generated p) = .empty := by
    intro h
    rw [row_rollback, h]
    rfl
  cases place with
  | readHighest | insert => exact hempty hw.1.unused
  | finishDraft =>
    rw [row_rollback, hw.1, Row.rollback_of_written rfl]
    rfl
  | findDraft | deleteDraft => exact hempty hw.unused
  | finishDiscard => exact hempty hw.1
  | _ => cases hrun

theorem takes_rollback (hs : DraftSound base t) (hw : DraftWork family base t p place)
    (hrun : place.running = true) (hover : place'.Over) :
    Takes family base t p (t.rollback p) place' := by
  have hfresh : Fresh (t.rollback p) p := ⟨untouched_rollback, unused_rollback hw hrun⟩
  refine ⟨hs.of_same hs.apart.rollback committed_rollback, fun q hq => ?_, ?_⟩
  · refine ⟨others_rollback hq, fun hempty => ?_, .of_same committed_rollback⟩
    rw [row_rollback, hempty]
    rfl
  · cases place' with
    | threw error | notDiscarded error | died => exact hfresh
    | _ => exact hover.elim

theorem ne_locks {key : Unit} {mode : LockMode} :
    draftStatement family t p place ≠ .locks key mode place' := fun hst => ends_of_eq hst

theorem Takes.moves (h : Takes family base t p t' place') :
    (draftOutline family base).Moves t p place t' place' where
  keeps := ⟨h.sound, trivial, fun q _ hq _ hw => draftWork_beside hw (h.beside q hq)⟩
  work := h.work

theorem first_work (request : DraftRequest) (h : Fresh t p) :
    DraftWork family base t p request.first := by
  cases request with
  | createVersionDraft => exact ⟨h, by cases family <;> decide⟩
  | discardVersionDraft => exact h

/-- Each statement of an allocation keeps the numbers. -/
theorem draftProof (family : DraftFamily) (hbase : base.Untouched 0) :
    FreeProof (draftService family) (draftOutline family base) where
  first _ _ := first_work
  statement env db pid place _ hs hw := by
    show (draftStatement family db pid place).Meets _ _ _ _
    cases hst : draftStatement family db pid place with
    | waits => trivial
    | goes => exact (takes_goes hs hbase hw hst).moves
    | locks => exact absurd hst ne_locks
    | commits => exact (takes_commits hbase hs hw hst).moves
    | throws => exact (takes_rollback hs hw (ends_of_eq hst).1 (ends_of_eq hst).2).moves
  dies db pid _ hrun hs hw :=
    have htakes : Takes family base db pid (db.rollback pid) .died :=
      takes_rollback hs hw hrun trivial
    htakes.moves

/-! ## Collisions -/

theorem insert_eq_violated_iff {row : DraftRow} (h : Fresh t p) :
    t.insert p (.generated p) (some row) (· = some row) = .violated ↔ Taken t p row := by
  have hlock : ¬(t.row (.generated p)).Locked p := by
    rw [h.unused]
    rintro ⟨q, _, hq, -⟩
    cases hq
  have hget : t.get p (.generated p) = none := by
    rw [h.untouched.get_eq, Versioned.committed, h.unused]
    rfl
  rw [insert_eq_of_get hlock hget]
  constructor
  · intro hviol
    obtain ⟨id, -, hfree, _, hv, rfl⟩ := writeChecked_eq_violated hviol
    have hcomm : t.committed id = some (some row) := by
      rcases hv with hv | ⟨q, hq⟩
      · exact hv
      · exfalso
        by_cases hqp : q = p
        · exact h.untouched id ⟨_, hqp ▸ hq⟩
        · exact hfree ⟨q, _, hq, hqp⟩
    exact ⟨id, mem_keys hv, there_eq_some hcomm, hfree⟩
  · rintro ⟨id, -, hthere, hfree⟩
    have hcomm : t.committed id = some (some row) := committed_of_there hthere
    refine writeChecked_of_conflict ?_ hfree (Or.inl hcomm) rfl
    rintro rfl
    rw [Versioned.committed, h.unused] at hcomm
    cases hcomm

theorem not_fails_of_statement (hw : DraftWork family base t p place) (hnot : ¬place.Fails)
    (hfree : ∀ policyKey attempt next, place = .insert policyKey attempt next →
      ¬Taken t p ⟨policyKey, next⟩)
    (hst : (∃ t', draftStatement family t p place = .goes t' place') ∨
      draftStatement family t p place = .throws place') : ¬place'.Fails := by
  cases place with
  | readHighest policyKey attempt aborted =>
    have haborted : ¬aborted = true := hnot
    have hatt : ¬family.allocationAttempts < attempt := not_lt.2 hw.2
    simp only [draftStatement, if_neg hatt, if_neg haborted] at hst
    rcases hst with ⟨t', hst⟩ | hst <;> cases hst
    exact fun h => h
  | insert policyKey attempt next =>
    have hnever := mt (insert_eq_violated_iff hw.1).1 (hfree policyKey attempt next rfl)
    simp only [draftStatement] at hst
    split at hst
    · rcases hst with ⟨t', hst⟩ | hst <;> cases hst
    · rcases hst with ⟨t', hst⟩ | hst <;> cases hst
      exact fun h => h
    · rename_i hunmatched
      exact absurd hunmatched insert_ne_unmatched
    · rename_i hviol
      exact absurd hviol hnever
  | findDraft | deleteDraft =>
    simp only [draftStatement] at hst
    split at hst <;> rcases hst with ⟨t', hst⟩ | hst <;> cases hst <;> exact fun h => h
  | _ => rcases hst with ⟨t', hst⟩ | hst <;> cases hst

variable (family) in
theorem fails_of_taken (attempt : ℕ) (hfresh : Fresh t p) (htaken : Taken t p ⟨policyKey, next⟩) :
    ∃ place', place'.Fails ∧
      (draftStatement family t p (.insert policyKey attempt next) = .goes t place' ∨
        draftStatement family t p (.insert policyKey attempt next) = .throws place') := by
  have hviol := (insert_eq_violated_iff hfresh).2 htaken
  by_cases hmore : attempt < family.allocationAttempts
  · refine ⟨.readHighest policyKey (attempt + 1) true, rfl, Or.inl ?_⟩
    simp only [draftStatement, hviol, if_pos hmore]
  · refine ⟨.threw family.lastViolation, trivial, Or.inr ?_⟩
    simp only [draftStatement, hviol, if_neg hmore]

/-! ## Every run -/

section Run

variable {s s' : DraftSystem} {e : DraftStep}

theorem ending_of_writtenBy (hw : DraftWork family base t q place) (h : (t.row id).WrittenBy q) :
    place.Ending := by
  cases place with
  | finishDraft | finishDiscard => trivial
  | readHighest | insert => exact absurd h (hw.1.untouched id)
  | created => exact absurd h (hw.1 id)
  | _ => exact absurd h (Fresh.untouched hw id)

theorem locked_of_insert_waits {o : Option DraftRow} {conflict : Option DraftRow → Prop}
    [DecidablePred conflict] (h : t.insert p id o conflict = .waits) :
    ∃ id', (t.row id').Locked p := by
  unfold Versioned.insert writeChecked at h
  split at h
  · exact ⟨id, by assumption⟩
  · split at h
    · cases h
    split at h
    · cases h
    split at h
    · rename_i hfree hconfl
      obtain ⟨id', hid', hne, hver⟩ := hconfl
      refine ⟨id', ?_⟩
      by_contra hlock
      exact hfree ⟨id', hid', hne, hlock, hver⟩
    · cases h

theorem locked_of_waits (hrun : place.running = true)
    (hst : draftStatement family t p place = .waits) : ∃ id, (t.row id).Locked p := by
  cases place with
  | readHighest =>
    simp only [draftStatement] at hst
    repeat' split at hst
    all_goals cases hst
  | insert =>
    simp only [draftStatement] at hst
    split at hst
    · rename_i hins
      exact locked_of_insert_waits hins
    · cases hst
    · split at hst <;> cases hst
    · split at hst <;> cases hst
  | findDraft =>
    simp only [draftStatement] at hst
    split at hst <;> cases hst
  | deleteDraft id =>
    simp only [draftStatement] at hst
    split at hst
    · rename_i hremove
      unfold remove at hremove
      split_ifs at hremove with hfind hlock
      exact ⟨id, hlock⟩
    · cases hst
    · cases hst
  | finishDraft | finishDiscard => cases hst
  | _ => cases hrun

theorem created_of_there {row : DraftRow} (hw : DraftWork family base t p place)
    (hthere : t.there (.generated p) = some row) : place = .created row.policyKey row.version := by
  have hcomm : t.committed (.generated p) = some (some row) := committed_of_there hthere
  have hunused : ¬t.row (.generated p) = .empty := by
    intro hempty
    rw [Versioned.committed, hempty] at hcomm
    cases hcomm
  cases place with
  | created =>
    rcases hw.2.1 with hsame | hd
    · cases hcomm.symm.trans hsame
      rfl
    · cases hcomm.symm.trans hd
  | readHighest | insert => exact absurd hw.1.unused hunused
  | finishDraft =>
    rw [committed_of_row hw.1] at hcomm
    cases hcomm
  | finishDiscard => exact absurd hw.1 hunused
  | _ => exact absurd (Fresh.unused hw) hunused

theorem numbered_of_holds (hbase : base.Untouched 0)
    (h : (draftOutline family base).Holds s) (hnot : ∀ p, ¬(s.calls p).Fails) :
    Numbered family base s where
  succeeds := hnot
  waits := by
    intro p hrun hst
    obtain ⟨id, q, x, hwrit, -⟩ := locked_of_waits hrun hst
    exact ⟨q, ending_of_writtenBy (h.work q) ⟨x, hwrit⟩⟩
  distinct := by
    intro p q policyKey version hp hq hpd hqd
    have hwp := h.work p
    have hwq := h.work q
    rw [hp] at hwp
    rw [hq] at hwq
    have hids := h.sound.apart.committed (hwp.2.1.resolve_right hpd)
      (hwq.2.1.resolve_right hqd)
      ⟨rfl, by simp⟩
    cases hids
    rfl
  consecutive := by
    intro hn policyKey
    obtain ⟨count, hcnt⟩ := h.sound.consecutive hn policyKey
    refine ⟨count, fun version => ?_⟩
    constructor
    · rintro ⟨p, hp⟩
      have hwp := h.work p
      rw [hp] at hwp
      have hlow := hwp.2.2 hn
      have hthere := there_eq_some (hwp.2.1.resolve_right (hn _))
      rcases (hcnt version).1 ⟨_, hthere⟩ with hold | hrange
      · have hmax := le_highest hbase hold
        omega
      · exact hrange
    · intro hrange
      obtain ⟨id, hthere⟩ := (hcnt version).2 (Or.inr hrange)
      cases id with
      | stored n =>
        have hold := h.sound.stored n _ hthere
        have hmax := le_highest hbase ⟨_, hold⟩
        omega
      | generated p => exact ⟨p, created_of_there (h.work p) hthere⟩

/-- The invariant: the calls have what they rely on, and none has failed. -/
def Unfailed (family : DraftFamily) (base : DraftTable) (s : DraftSystem) : Prop :=
  (draftOutline family base).Holds s ∧ ∀ p, ¬(s.calls p).Fails

theorem Unfailed.step (hbase : base.Untouched 0) (h : Unfailed family base s) (hnot : ¬Outpaced s e)
    (hs : (draftService family).step s e = some s') : Unfailed family base s' := by
  have hmeets : (draftOutline family base).Meets s e :=
    Outline.meets (fun _ _ _ _ => trivial) s e
  refine ⟨((draftProof family hbase).proof.holds_step h.1 hmeets hs).1, ?_⟩
  have hupd : ∀ {pid : ℕ} {place' : DraftPlace}, ¬place'.Fails →
      ∀ p, ¬(Function.update s.calls pid place' p).Fails := by
    intro pid place' hplace p
    by_cases hp : p = pid
    · rw [hp, Function.update_self]
      exact hplace
    · rw [Function.update_of_ne hp]
      exact h.2 p
  cases Service.took_of_step hs with
  | starts pid request =>
    refine hupd ?_
    cases request with
    | createVersionDraft => exact Bool.false_ne_true
    | discardVersionDraft => exact id
  | goes pid env db place hst =>
    refine hupd (not_fails_of_statement (h.1.work pid) (h.2 pid) ?_ (Or.inl ⟨db, hst⟩))
    intro policyKey attempt next hplace htaken
    apply hnot
    simp only [Outpaced, hplace]
    exact htaken
  | locks pid env key mode place hst => exact absurd hst ne_locks
  | commits pid env place hst =>
    rcases ends_of_eq hst with ⟨policyKey, _, -, rfl⟩ | ⟨-, rfl⟩
    · exact hupd id
    · exact hupd id
  | throws pid env place hst =>
    refine hupd (not_fails_of_statement (h.1.work pid) (h.2 pid) ?_ (Or.inr hst))
    intro policyKey attempt next hplace htaken
    apply hnot
    simp only [Outpaced, hplace]
    exact htaken
  | dies => exact hupd id

theorem fails_of_outpaced (h : Unfailed family base s) (hout : Outpaced s e) :
    ∃ s', (draftService family).step s e = some s' ∧ (s'.calls e.pid).Fails := by
  obtain ⟨pid, _⟩ := e
  unfold Outpaced at hout
  split at hout
  · rename_i policyKey attempt next hact hcall
    cases hact
    have hwork := h.1.work pid
    rw [hcall] at hwork
    obtain ⟨place', hfails, hst⟩ :=
      fails_of_taken family attempt hwork.1 hout
    rw [← hcall] at hst
    have hat : (Function.update s.calls pid place' pid).Fails := by
      rw [Function.update_self]
      exact hfails
    rcases hst with hst | hst
    · exact ⟨_, (Service.Took.goes (S := draftService family) pid () _ _ hst).step, hat⟩
    · exact ⟨_, (Service.Took.throws (S := draftService family) pid () _ hst).step, hat⟩
  · exact hout.elim

theorem Settled.unfailed (h : Settled base) :
    Unfailed family base ((draftService family).start base) := by
  refine ⟨(draftProof family (h.untouched 0)).proof.holds_start ⟨h.apart, fun _ _ => id, ?_⟩ ?_,
    fun _ => id⟩
  · exact fun _ _ => ⟨0, fun version => ⟨Or.inl, fun hv => hv.resolve_right (by omega)⟩⟩
  · exact fun p => ⟨h.untouched p, h.unused p⟩

/-- However many calls create and discard drafts at the same time: every creation succeeds, and
the numbers are distinct and, while no draft is discarded, consecutive, in the runs in which no
call inserts a number that has been taken since it was read; and in no other run. -/
theorem numbered_run (family : DraftFamily) (hbase : Settled base) (es : List DraftStep) :
    Throughout (draftService family).step (Numbered family base) ((draftService family).start base)
        es ↔
      Along (draftService family).step (fun s e => ¬Outpaced s e)
        ((draftService family).start base) es := by
  refine throughout_iff_along (I := Unfailed family base)
    (fun s h => numbered_of_holds (hbase.untouched 0) h.1 h.2)
    (fun s e s' h hnot hs => h.step (hbase.untouched 0) hnot hs) ?_ ?_ hbase.unfailed es
  · intro s e s' h hs hnumbered hout
    obtain ⟨s₁, hs₁, hfails⟩ := fails_of_outpaced h hout
    cases hs.symm.trans hs₁
    exact hnumbered.succeeds _ hfails
  · intro s e h hs hout
    obtain ⟨_, hs₁, -⟩ := fails_of_outpaced h hout
    cases hs.symm.trans hs₁

end Run

/-! ## Two administrators -/

instance (t : DraftTable) (p : ℕ) (row : DraftRow) : Decidable (Taken t p row) :=
  inferInstanceAs (Decidable (∃ _ ∈ _, _))

instance (s : DraftSystem) (e : DraftStep) : Decidable (Outpaced s e) := by
  unfold Outpaced
  split <;> infer_instance

/-- A key with one version. -/
def standardDrafts : DraftTable := .ofRows [(.stored 1, some ⟨"standard", 1⟩)]

theorem standardDrafts_settled : Settled standardDrafts where
  untouched := fun _ => untouched_ofRows
  apart := by
    have hver : ∀ id x, (standardDrafts.row id).Version x → id = .stored 1 := by
      rintro id x (hx | ⟨_, hx⟩)
      · have hmem := mem_of_committed_ofRows hx
        simp only [List.mem_singleton, Prod.mk.injEq] at hmem
        exact hmem.1
      · cases hx
    intro id id' x x' hx hx' _
    rw [hver id x hx, hver id' x' hx']
  unused := fun _ => rfl

def startsDraft (pid : ℕ) (request : DraftRequest) : DraftStep := ⟨pid, .start request⟩

def takesDraft (pid n : ℕ) : List DraftStep := List.replicate n ⟨pid, .statement ()⟩

/-- The second call reads once the first one has committed; a draft is discarded. -/
def inTurn : List DraftStep :=
  startsDraft 0 (.createVersionDraft "standard") ::
    startsDraft 1 (.createVersionDraft "standard") :: takesDraft 0 3 ++ takesDraft 1 3 ++
      startsDraft 2 (.discardVersionDraft "standard" 2) :: takesDraft 2 3

/-- Both calls read before one of them commits. -/
def sideBySide : List DraftStep :=
  startsDraft 0 (.createVersionDraft "standard") ::
    startsDraft 1 (.createVersionDraft "standard") :: takesDraft 0 1 ++ takesDraft 1 1 ++
      takesDraft 0 2 ++ takesDraft 1 2

theorem numbered_run_inTurn :
    Throughout (draftService .planVersion).step (Numbered .planVersion standardDrafts)
      ((draftService .planVersion).start standardDrafts) inTurn :=
  (numbered_run .planVersion standardDrafts_settled inTurn).2 (by decide +kernel)

/-- The second draft is not created: the retry is refused. -/
theorem numbered_outpaced_fails :
    ∃ t, runFrom (draftService .planVersion).step
        ((draftService .planVersion).start standardDrafts) sideBySide = some t ∧
      t.calls 0 = .created "standard" 2 ∧ t.calls 1 = .threw .inFailedTransaction ∧
      ¬Numbered .planVersion standardDrafts t := by
  obtain ⟨t, ht, h0, h1⟩ : ∃ t ∈ runFrom (draftService .planVersion).step
      ((draftService .planVersion).start standardDrafts) sideBySide,
      t.calls 0 = .created "standard" 2 ∧ t.calls 1 = .threw .inFailedTransaction := by
    decide +kernel
  refine ⟨t, ht, h0, h1, fun hnumbered => hnumbered.succeeds 1 ?_⟩
  rw [h1]
  trivial

end BeauClick.CommercialPolicy
