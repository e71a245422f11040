import BeauClick.Commerce.Order
import BeauClick.Lib.Table

/-!
# The fund journal

`services/financial/src/fund-journal.service.ts` and the triggers of
`financial.fund_postings`.  A journal is a balanced set of postings; each account
of an order is a chain of postings that carries its own running balance.

Each writer runs in one transaction under the advisory lock of its order, so here
each is one function of the store.
-/

namespace BeauClick.Financial

open Money Table Commerce Option

/-! ## Rows -/

/-- The journal kinds the service writes. -/
inductive FundJournalKind where
  | collection
  | refund
  deriving DecidableEq

/-- `idempotency_key`, by template: `collection:<payment reference>`, `refund:<refund>`. -/
inductive FundJournalKey where
  | collection (paymentReferenceId : Uuid)
  | refund (refundId : Uuid)
  deriving DecidableEq

/-- `FUND_POSTING_ACCOUNTS`. -/
inductive FundPostingAccount where
  | pending
  | disputed
  | available
  | reserve
  | settled
  | refunded
  | platformEarned
  | providerFee
  | recoveryOut
  | collected
  | platformAdvance
  | recoveredIn
  deriving DecidableEq

/-- `CREDIT_NORMAL_ACCOUNTS`: a negative posting increases them. -/
def creditNormalAccounts : List FundPostingAccount := [.collected, .platformAdvance, .recoveredIn]

/-- The other accounts grow by credits. -/
def isDebitNormalAccount (account : FundPostingAccount) : Bool := account ∉ creditNormalAccounts

/-- The beneficiary of an order's postings. -/
structure FundParty where
  sellerPartyType : SellerPartyType
  sellerPartyId : Uuid
  deriving DecidableEq

/-- `financial.fund_journals`. -/
structure FundJournalEntity where
  id : Uuid
  kind : FundJournalKind
  idempotencyKey : FundJournalKey
  sourceId : Uuid

/-- `financial.fund_postings`. -/
structure FundPostingEntity where
  id : Uuid
  journalId : Uuid
  orderId : Uuid
  party : FundParty
  account : FundPostingAccount
  component : Option String
  amountToman : ℤ
  seq : ℕ
  balanceAfter : ℤ

/-- A posting to be made. -/
structure PostingInput where
  orderId : Uuid
  party : FundParty
  account : FundPostingAccount
  component : Option String
  amountToman : ℤ

/-- What a posting adds to its account's balance. -/
def PostingInput.delta (input : PostingInput) : ℤ :=
  if isDebitNormalAccount input.account then input.amountToman else -input.amountToman

/-- The event of a journal. -/
structure FundsJournalRecorded where
  journalId : Uuid
  orderId : Uuid
  kind : FundJournalKind
  party : FundParty
  amountToman : ℤ

/-- The journal tables and the events written with them.  Rows are in insertion
order, which is the order of their ids. -/
structure FundStore where
  journals : List FundJournalEntity
  postings : List FundPostingEntity
  outbox : List FundsJournalRecorded

/-- What a writer throws: a money check, `ck_fund_postings_amount_nonzero`,
`ck_fund_postings_balance_non_negative` or `tg_fund_postings_beneficiary`. -/
inductive FundError where
  | money (err : MoneyError)
  | amountZero
  | balanceNegative
  | beneficiary

/-- What `recordCollection` is given. -/
structure RecordCollectionInput where
  orderId : Uuid
  party : FundParty
  collectedToman : JsNumber
  paymentReferenceId : Uuid

/-- What `recordRefund` is given. -/
structure RecordFundRefundInput where
  orderId : Uuid
  refundId : Uuid
  refundAmountToman : JsNumber

namespace FundStore

/-! ## Reads -/

/-- `findCollectionParty`: the beneficiary of the order's first posting. -/
def partyOf (s : FundStore) (orderId : Uuid) : Option FundParty :=
  (s.postings.find? fun p => p.orderId = orderId).map (·.party)

/-- One account of `statesForOrder`: the balance after its latest posting. -/
def stateOf (s : FundStore) (orderId : Uuid) (account : FundPostingAccount) : Option ℤ :=
  (latestWhere (fun p => p.orderId = orderId ∧ p.account = account) (·.seq) s.postings).map
    (·.balanceAfter)

/-- The account's balance; an account without postings holds nothing. -/
def balanceOf (s : FundStore) (orderId : Uuid) (account : FundPostingAccount) : ℤ :=
  (s.stateOf orderId account).getD 0

def hasCollection (s : FundStore) (orderId : Uuid) : Bool := (s.partyOf orderId).isSome

/-! ## Writes -/

/-- The link before the next one of the chain. -/
def priorPosting (s : FundStore) (input : PostingInput) : Option FundPostingEntity :=
  latestWhere (fun p => p.orderId = input.orderId ∧ p.account = input.account ∧
    p.component = input.component) (·.seq) s.postings

/-- The row `insertPosting` writes. -/
def nextPosting (s : FundStore) (journalId : Uuid) (input : PostingInput) : FundPostingEntity where
  id := s.postings.length
  journalId := journalId
  orderId := input.orderId
  party := input.party
  account := input.account
  component := input.component
  amountToman := input.amountToman
  seq := ((s.priorPosting input).map (·.seq)).getD 0 + 1
  balanceAfter := ((s.priorPosting input).map (·.balanceAfter)).getD 0 + input.delta

/-- `insertPosting`.  `tg_fund_postings_chain` recomputes what the row carries, so it
never refuses it. -/
def insertPosting (s : FundStore) (journalId : Uuid) (input : PostingInput) :
    Except FundError FundStore :=
  let row := s.nextPosting journalId input
  if row.amountToman = 0 then .error .amountZero
  else if row.balanceAfter < 0 then .error .balanceNegative
  else if (s.partyOf input.orderId).any fun party => party ≠ input.party then .error .beneficiary
  else .ok { s with postings := s.postings ++ [row] }

/-- `insertJournal`: the journal's id, or `none` when its key was recorded before. -/
def insertJournal (s : FundStore) (kind : FundJournalKind) (key : FundJournalKey)
    (sourceId : Uuid) : Option (Uuid × FundStore) :=
  if ∃ j ∈ s.journals, j.idempotencyKey = key then none
  else
    let journalId := s.journals.length
    some (journalId, { s with journals := s.journals ++ [⟨journalId, kind, key, sourceId⟩] })

/-- A journal with two postings, and its event. -/
def recordJournal (s : FundStore) (kind : FundJournalKind) (key : FundJournalKey)
    (orderId : Uuid) (party : FundParty) (amountToman : ℤ)
    (first second : FundPostingAccount × ℤ) : Except FundError (Bool × FundStore) :=
  match s.insertJournal kind key orderId with
  | none => .ok (false, s)
  | some (journalId, s₁) =>
    match s₁.insertPosting journalId ⟨orderId, party, first.1, none, first.2⟩ with
    | .error err => .error err
    | .ok s₂ =>
      match s₂.insertPosting journalId ⟨orderId, party, second.1, none, second.2⟩ with
      | .error err => .error err
      | .ok s₃ =>
        .ok (true, { s₃ with
          outbox := s₃.outbox ++ [⟨journalId, orderId, kind, party, amountToman⟩] })

/-- The postings of a collection, once for an order. -/
def recordCollection (s : FundStore) (input : RecordCollectionInput) :
    Except FundError (Bool × FundStore) :=
  match assertNonNegativeAmount input.collectedToman with
  | .error err => .error (.money err)
  | .ok collected =>
    if collected = 0 then .ok (false, s)
    else
      s.recordJournal .collection (.collection input.paymentReferenceId) input.orderId input.party
        collected (.pending, collected) (.collected, -collected)

/-- `recordRefund`.  Without a collection it reports `false` and writes nothing. -/
def recordRefund (s : FundStore) (input : RecordFundRefundInput) :
    Except FundError (Bool × FundStore) :=
  match assertNonNegativeAmount input.refundAmountToman with
  | .error err => .error (.money err)
  | .ok refundAmount =>
    if refundAmount = 0 then .ok (false, s)
    else
      match s.partyOf input.orderId with
      | none => .ok (false, s)
      | some party =>
        s.recordJournal .refund (.refund input.refundId) input.orderId party refundAmount
          (.refunded, refundAmount) (.pending, -refundAmount)

/-! ## What recording a journal does -/

/-- No posting has a component: the two writers never set one. -/
def NoComponents (s : FundStore) : Prop := ∀ p ∈ s.postings, p.component = none

/-- The key was recorded. -/
def HasKey (s : FundStore) (key : FundJournalKey) : Prop :=
  ∃ j ∈ s.journals, j.idempotencyKey = key
  deriving Decidable

/-- Recording a journal adds its row, fixes the order's beneficiary and changes the
balances of that order by `change`. -/
structure Posted (s s' : FundStore) (kind : FundJournalKind) (key : FundJournalKey)
    (orderId : Uuid) (party : FundParty) (change : FundPostingAccount → ℤ) : Prop where
  journals : s'.journals = s.journals ++ [⟨s.journals.length, kind, key, orderId⟩]
  partyOf : ∀ o, s'.partyOf o = if o = orderId then some party else s.partyOf o
  balanceOf : ∀ o a, s'.balanceOf o a = s.balanceOf o a + if o = orderId then change a else 0
  components : s'.NoComponents

variable {s s' : FundStore} {input : PostingInput} {journalId : Uuid} {b : Bool} {party : FundParty}

section

variable (hcomp : s.NoComponents)
include hcomp

section

variable (hinput : input.component = none)
include hinput

theorem priorPosting_eq : s.priorPosting input =
      latestWhere (fun p => p.orderId = input.orderId ∧ p.account = input.account) (·.seq)
        s.postings := by
  refine latestWhere_congr ?_
  intro p hp
  have hnone := hcomp p hp
  simp [hinput, hnone]

theorem seq_lt_nextPosting :
    ∀ p ∈ s.postings, (p.orderId = input.orderId ∧ p.account = input.account) →
      p.seq < (s.nextPosting journalId input).seq := by
  intro p hp hmatch
  have hprior := priorPosting_eq hcomp hinput
  simp only [nextPosting]
  cases hlatest : s.priorPosting input with
  | none =>
    rw [hprior] at hlatest
    exact absurd hmatch (latestWhere_eq_none hlatest p hp)
  | some =>
    rw [hprior] at hlatest
    have hle := le_of_latestWhere hlatest hp hmatch
    simp only [map_some, getD_some]
    omega

theorem insertPosting_eq_ok (h : s.insertPosting journalId input = .ok s') :
    s'.journals = s.journals ∧ s'.NoComponents ∧
      (∀ o, s'.partyOf o = if o = input.orderId then some input.party else s.partyOf o) ∧
      ∀ o a, s'.balanceOf o a =
        s.balanceOf o a + if o = input.orderId ∧ a = input.account then input.delta else 0 := by
  unfold insertPosting at h
  dsimp only at h
  split at h
  · cases h
  split at h
  · cases h
  split at h
  · cases h
  rename_i hparty
  cases h
  refine ⟨rfl, ?_, ?_, ?_⟩
  · intro p hp
    rcases List.mem_append.1 hp with hp | hp
    · exact hcomp p hp
    · rw [List.mem_singleton.1 hp]
      exact hinput
  · intro o
    simp only [partyOf, List.find?_append]
    by_cases ho : o = input.orderId
    · subst ho
      cases hfind : s.postings.find? fun p => p.orderId = input.orderId with
      | none => simp [nextPosting]
      | some p =>
        -- the trigger lets only the same beneficiary through
        have hsame : p.party = input.party := by
          by_contra hne
          apply hparty
          simp [partyOf, hfind, hne]
        simp [hsame]
    · rw [if_neg ho]
      have hne : input.orderId ≠ o := fun h => ho h.symm
      simp [nextPosting, hne]
  · intro o a
    by_cases hmatch : o = input.orderId ∧ a = input.account
    · obtain ⟨rfl, rfl⟩ := hmatch
      have hlatest := latestWhere_append_of_lt (k := fun p : FundPostingEntity => p.seq)
        (x := s.nextPosting journalId input)
        (p := fun p => p.orderId = input.orderId ∧ p.account = input.account)
        ⟨rfl, rfl⟩ (seq_lt_nextPosting hcomp hinput)
      rw [if_pos ⟨rfl, rfl⟩, balanceOf, balanceOf, stateOf, stateOf, hlatest,
        ← priorPosting_eq hcomp hinput]
      rfl
    · rw [if_neg hmatch, add_zero, balanceOf, balanceOf, stateOf, stateOf,
        latestWhere_append_of_not]
      rintro ⟨ho, ha⟩
      exact hmatch ⟨ho.symm, ha.symm⟩

end

/-- A posting goes through when it is not zero, leaves its account non-negative and
has the order's beneficiary. -/
theorem insertPosting_isOk (journalId : Uuid) (input : PostingInput)
    (hinput : input.component = none) (hne : input.amountToman ≠ 0)
    (hbal : 0 ≤ s.balanceOf input.orderId input.account + input.delta)
    (hparty : ∀ party, s.partyOf input.orderId = some party → party = input.party) :
    ∃ s', s.insertPosting journalId input = .ok s' := by
  have hafter : (s.nextPosting journalId input).balanceAfter =
      s.balanceOf input.orderId input.account + input.delta := by
    simp only [nextPosting, balanceOf, stateOf, priorPosting_eq hcomp hinput]
  refine ⟨{ s with postings := s.postings ++ [s.nextPosting journalId input] }, ?_⟩
  have hnonneg : ¬(s.nextPosting journalId input).balanceAfter < 0 := by omega
  have hsame : ¬(s.partyOf input.orderId).any (fun party => party ≠ input.party) = true := by
    cases hp : s.partyOf input.orderId with
    | none => simp
    | some party => simp [hparty party hp]
  unfold insertPosting
  rw [if_neg (show (s.nextPosting journalId input).amountToman ≠ 0 from hne), if_neg hnonneg,
    if_neg hsame]

end

/-- The change two postings make to an account. -/
def pairChange (first second : FundPostingAccount × ℤ) (account : FundPostingAccount) : ℤ :=
  (if account = first.1 then
      if isDebitNormalAccount first.1 then first.2 else -first.2 else 0) +
    if account = second.1 then
      if isDebitNormalAccount second.1 then second.2 else -second.2 else 0

section Journal

variable {s s' : FundStore} {kind : FundJournalKind} {key : FundJournalKey} {orderId : Uuid}
  {party : FundParty} {amountToman : ℤ} {first second : FundPostingAccount × ℤ}

theorem recordJournal_eq_false
    (h : s.recordJournal kind key orderId party amountToman first second = .ok (false, s')) :
    s' = s ∧ s.HasKey key := by
  unfold recordJournal insertJournal at h
  split at h
  · rename_i hnone
    split at hnone
    · rename_i hkey
      injection h with h
      exact ⟨(Prod.mk.inj h).2.symm, hkey⟩
    · cases hnone
  · split at h
    · cases h
    split at h
    · cases h
    injection h with h
    cases (Prod.mk.inj h).1

theorem recordJournal_eq_true (hcomp : s.NoComponents)
    (h : s.recordJournal kind key orderId party amountToman first second = .ok (true, s')) :
    ¬s.HasKey key ∧ Posted s s' kind key orderId party (pairChange first second) := by
  unfold recordJournal at h
  split at h
  · injection h with h
    cases (Prod.mk.inj h).1
  · rename_i journalId s₁ hjournal
    unfold insertJournal at hjournal
    split at hjournal
    · cases hjournal
    rename_i hkey
    injection hjournal with hjournal
    obtain ⟨hid, hs₁⟩ := Prod.mk.inj hjournal
    subst hid hs₁
    split at h
    · cases h
    rename_i s₂ h₂
    split at h
    · cases h
    rename_i s₃ h₃
    injection h with h
    obtain ⟨-, hs'⟩ := Prod.mk.inj h
    subst hs'
    have hc₁ : NoComponents { s with journals := s.journals ++
        [⟨s.journals.length, kind, key, orderId⟩] } := hcomp
    obtain ⟨hj₂, hc₂, hp₂, hb₂⟩ := insertPosting_eq_ok hc₁ rfl h₂
    obtain ⟨hj₃, hc₃, hp₃, hb₃⟩ := insertPosting_eq_ok hc₂ rfl h₃
    refine ⟨hkey, ⟨hj₃.trans hj₂, ?_, ?_, hc₃⟩⟩
    · intro o
      refine (hp₃ o).trans ?_
      by_cases ho : o = orderId
      · simp [ho]
      · rw [if_neg ho, if_neg ho]
        exact (hp₂ o).trans (if_neg ho)
    · intro o a
      have h₃' := hb₃ o a
      have h₂' := hb₂ o a
      have hs : balanceOf { s with journals := s.journals ++
          [⟨s.journals.length, kind, key, orderId⟩] } o a = s.balanceOf o a := rfl
      show balanceOf s₃ o a = _
      rw [h₃', h₂', hs]
      by_cases ho : o = orderId
      · simp only [ho, true_and, if_true, pairChange, PostingInput.delta]
        omega
      · simp [ho]

/-- Recording under a new key goes through when both postings do: the second posting is
to another account. -/
theorem recordJournal_isOk (hcomp : s.NoComponents) (hkey : ¬s.HasKey key)
    (hparty : ∀ p, s.partyOf orderId = some p → p = party) (haccounts : second.1 ≠ first.1)
    (hfirst : first.2 ≠ 0) (hsecond : second.2 ≠ 0)
    (hbalance₁ : 0 ≤ s.balanceOf orderId first.1 +
      if isDebitNormalAccount first.1 then first.2 else -first.2)
    (hbalance₂ : 0 ≤ s.balanceOf orderId second.1 +
      if isDebitNormalAccount second.1 then second.2 else -second.2) :
    ∃ s', s.recordJournal kind key orderId party amountToman first second = .ok (true, s') := by
  have hc₁ : NoComponents { s with journals := s.journals ++
      [⟨s.journals.length, kind, key, orderId⟩] } := hcomp
  obtain ⟨s₂, h₂⟩ := insertPosting_isOk hc₁
    s.journals.length ⟨orderId, party, first.1, none, first.2⟩ rfl hfirst hbalance₁ hparty
  obtain ⟨-, hc₂, hp₂, hb₂⟩ := insertPosting_eq_ok hc₁ rfl h₂
  have hbal : s₂.balanceOf orderId second.1 = s.balanceOf orderId second.1 := by
    rw [hb₂, if_neg (fun h => haccounts h.2), add_zero]
    rfl
  obtain ⟨s₃, h₃⟩ := insertPosting_isOk hc₂
    s.journals.length ⟨orderId, party, second.1, none, second.2⟩ rfl hsecond
    (by dsimp only; rw [hbal]; exact hbalance₂)
    (by
      intro p hp
      rw [hp₂, if_pos rfl] at hp
      exact (some.inj hp).symm)
  refine ⟨{ s₃ with
    outbox := s₃.outbox ++ [⟨s.journals.length, orderId, kind, party, amountToman⟩] }, ?_⟩
  have hins : s.insertJournal kind key orderId = some (s.journals.length,
      { s with journals := s.journals ++ [⟨s.journals.length, kind, key, orderId⟩] }) := by
    exact if_neg hkey
  unfold recordJournal
  rw [hins]
  dsimp only
  rw [h₂]
  dsimp only
  rw [h₃]

end Journal

/-! ## The two journals -/

/-- What a collection posts. -/
def collectionChange (collected : ℤ) : FundPostingAccount → ℤ :=
  pairChange (.pending, collected) (.collected, -collected)

/-- What a refund posts. -/
def refundChange (refundAmount : ℤ) : FundPostingAccount → ℤ :=
  pairChange (.refunded, refundAmount) (.pending, -refundAmount)

@[simp] theorem collectionChange_pending (c : ℤ) : collectionChange c .pending = c := by
  simp [collectionChange, pairChange, isDebitNormalAccount, creditNormalAccounts]

@[simp] theorem collectionChange_refunded (c : ℤ) : collectionChange c .refunded = 0 := by
  simp [collectionChange, pairChange]

@[simp] theorem refundChange_pending (r : ℤ) : refundChange r .pending = -r := by
  simp [refundChange, pairChange, isDebitNormalAccount, creditNormalAccounts]

@[simp] theorem refundChange_refunded (r : ℤ) : refundChange r .refunded = r := by
  simp [refundChange, pairChange, isDebitNormalAccount, creditNormalAccounts]

section

variable (hcomp : s.NoComponents)
include hcomp

/-- A collection either writes nothing, because it was recorded before or nothing was
collected, or records its journal. -/
theorem recordCollection_cases {input : RecordCollectionInput}
    (h : s.recordCollection input = .ok (b, s')) :
    (s' = s ∧ (s.HasKey (.collection input.paymentReferenceId) ∨
        assertNonNegativeAmount input.collectedToman = .ok 0)) ∨
      ∃ collected, assertNonNegativeAmount input.collectedToman = .ok collected ∧
        collected ≠ 0 ∧ ¬s.HasKey (.collection input.paymentReferenceId) ∧
        Posted s s' .collection (.collection input.paymentReferenceId) input.orderId input.party
          (collectionChange collected) := by
  unfold recordCollection at h
  split at h
  · cases h
  rename_i collected hamt
  split at h
  · rename_i hzero
    injection h with h
    left
    exact ⟨(Prod.mk.inj h).2.symm, Or.inr (hzero ▸ hamt)⟩
  · rename_i hne
    cases b with
    | false =>
      obtain ⟨heq, hkey⟩ := recordJournal_eq_false h
      exact Or.inl ⟨heq, Or.inl hkey⟩
    | true =>
      obtain ⟨hkey, hpost⟩ := recordJournal_eq_true hcomp h
      exact Or.inr ⟨collected, hamt, hne, hkey, hpost⟩

/-- A refund either writes nothing, because it was recorded before, is zero or finds
no collection, or records its journal for the order's beneficiary. -/
theorem recordRefund_cases {input : RecordFundRefundInput}
    (h : s.recordRefund input = .ok (b, s')) :
    (s' = s ∧ (s.HasKey (.refund input.refundId) ∨ s.partyOf input.orderId = none ∨
        assertNonNegativeAmount input.refundAmountToman = .ok 0)) ∨
      ∃ refundAmount party, assertNonNegativeAmount input.refundAmountToman = .ok refundAmount ∧
        refundAmount ≠ 0 ∧ s.partyOf input.orderId = some party ∧
        ¬s.HasKey (.refund input.refundId) ∧
        Posted s s' .refund (.refund input.refundId) input.orderId party
          (refundChange refundAmount) := by
  unfold recordRefund at h
  split at h
  · cases h
  rename_i refundAmount hamt
  split at h
  · rename_i hzero
    injection h with h
    left
    exact ⟨(Prod.mk.inj h).2.symm, Or.inr (Or.inr (hzero ▸ hamt))⟩
  · rename_i hne
    split at h
    · rename_i hparty
      injection h with h
      left
      exact ⟨(Prod.mk.inj h).2.symm, Or.inr (Or.inl hparty)⟩
    · rename_i party hparty
      cases b with
      | false =>
        obtain ⟨heq, hkey⟩ := recordJournal_eq_false h
        exact Or.inl ⟨heq, Or.inl hkey⟩
      | true =>
        obtain ⟨hkey, hpost⟩ := recordJournal_eq_true hcomp h
        exact Or.inr ⟨refundAmount, party, hamt, hne, hparty, hkey, hpost⟩

theorem recordCollection_posted {i : RecordCollectionInput} {collected : ℤ}
    (hamt : assertNonNegativeAmount i.collectedToman = .ok collected) (hne : collected ≠ 0)
    (hkey : ¬s.HasKey (.collection i.paymentReferenceId))
    (hparty : ∀ p, s.partyOf i.orderId = some p → p = i.party)
    (hpend : 0 ≤ s.balanceOf i.orderId .pending + collected)
    (hcoll : 0 ≤ s.balanceOf i.orderId .collected + collected) :
    ∃ s', s.recordCollection i = .ok (true, s') ∧
      Posted s s' .collection (.collection i.paymentReferenceId) i.orderId i.party
        (collectionChange collected) := by
  have hrec : s.recordCollection i = s.recordJournal .collection
      (.collection i.paymentReferenceId) i.orderId i.party collected
      (.pending, collected) (.collected, -collected) := by
    simp only [recordCollection, hamt, if_neg hne]
  obtain ⟨s', hs'⟩ : ∃ s', s.recordJournal .collection (.collection i.paymentReferenceId)
      i.orderId i.party collected (.pending, collected) (.collected, -collected) =
        .ok (true, s') := by
    refine recordJournal_isOk hcomp hkey hparty (by simp) hne (by simpa using hne) ?_ ?_
    · simpa [isDebitNormalAccount, creditNormalAccounts] using hpend
    · simpa [isDebitNormalAccount, creditNormalAccounts] using hcoll
  exact ⟨s', hrec.trans hs', (recordJournal_eq_true hcomp hs').2⟩

theorem recordRefund_posted {i : RecordFundRefundInput} {refundAmount : ℤ}
    (hamt : assertNonNegativeAmount i.refundAmountToman = .ok refundAmount)
    (hne : refundAmount ≠ 0) (hkey : ¬s.HasKey (.refund i.refundId))
    (hparty : s.partyOf i.orderId = some party)
    (hrefd : 0 ≤ s.balanceOf i.orderId .refunded + refundAmount)
    (hpend : refundAmount ≤ s.balanceOf i.orderId .pending) :
    ∃ s', s.recordRefund i = .ok (true, s') ∧
      Posted s s' .refund (.refund i.refundId) i.orderId party
        (refundChange refundAmount) := by
  have hrec : s.recordRefund i = s.recordJournal .refund (.refund i.refundId)
      i.orderId party refundAmount (.refunded, refundAmount) (.pending, -refundAmount) := by
    simp only [recordRefund, hamt, if_neg hne, hparty]
  obtain ⟨s', hs'⟩ : ∃ s', s.recordJournal .refund (.refund i.refundId) i.orderId party
      refundAmount (.refunded, refundAmount) (.pending, -refundAmount) = .ok (true, s') := by
    refine recordJournal_isOk hcomp hkey ?_ (by simp) hne (by simpa using hne) ?_ ?_
    · intro p hp
      exact some.inj (hp.symm.trans hparty)
    · simpa [isDebitNormalAccount, creditNormalAccounts] using hrefd
    · simpa [isDebitNormalAccount, creditNormalAccounts] using hpend
  exact ⟨s', hrec.trans hs', (recordJournal_eq_true hcomp hs').2⟩

end

theorem Posted.hasKey_iff {kind : FundJournalKind} {key : FundJournalKey} {orderId : Uuid}
    {change : FundPostingAccount → ℤ} (h : Posted s s' kind key orderId party change)
    (k : FundJournalKey) : s'.HasKey k ↔ s.HasKey k ∨ k = key := by
  simp only [HasKey, h.journals, List.mem_append, List.mem_singleton]
  constructor
  · rintro ⟨j, hj | rfl, hk⟩
    · exact Or.inl ⟨j, hj, hk⟩
    · exact Or.inr hk.symm
  · rintro (⟨j, hj, hk⟩ | rfl)
    · exact ⟨j, Or.inl hj, hk⟩
    · exact ⟨_, Or.inr rfl, rfl⟩

end FundStore

end BeauClick.Financial
