import BeauClick.Financial.FundJournal
import BeauClick.Lib.Journal
import BeauClick.Lib.ReadCommitted
import BeauClick.Lib.Transactions

/-!
# Fund postings

The triggers, checks and indexes of `financial.fund_journals` and `financial.fund_postings`
(`database/migrations/financial/20260921100001_create_fund_journals_and_postings.sql`), and any
number of transactions that insert into them.
-/

namespace BeauClick.Financial

open Commerce Locks Money ReadCommitted Table Transactions

/-! ## Postings -/

namespace FundPostingEntity

/-- What a posting adds to its account's balance. -/
def delta (row : FundPostingEntity) : ℤ :=
  if isDebitNormalAccount row.account then row.amountToman else -row.amountToman

end FundPostingEntity

/-- The key of a running balance. -/
structure ChainKey where
  orderId : Uuid
  account : FundPostingAccount
  component : Option String
  deriving DecidableEq

def FundPostingEntity.chainKey (row : FundPostingEntity) : ChainKey :=
  ⟨row.orderId, row.account, row.component⟩

/-- `uq_fund_postings_chain`: an absent component and an empty one are the same. -/
def FundPostingEntity.link (row : FundPostingEntity) : Uuid × FundPostingAccount × String × ℕ :=
  (row.orderId, row.account, row.component.getD "", row.seq)

/-- The values of a `bigint` column. -/
def InBigint (n : ℤ) : Prop := -2 ^ 63 ≤ n ∧ n < 2 ^ 63
  deriving Decidable

/-! ## The triggers -/

section Triggers

variable (rows : List FundPostingEntity) (row : FundPostingEntity)

/-- The trigger: a posting goes on from the last of its chain. -/
def enforceFundPostingChain : Prop :=
  match latestWhere (fun x => x.chainKey = row.chainKey) (·.seq) rows with
  | none => row.seq = 1 ∧ row.balanceAfter = 0 + row.delta
  | some prev => row.seq = prev.seq + 1 ∧ row.balanceAfter = prev.balanceAfter + row.delta

instance : Decidable (enforceFundPostingChain rows row) := by
  unfold enforceFundPostingChain
  split <;> infer_instance

/-- `enforce_fund_posting_beneficiary`: the order's first posting, by id, is of the same party. -/
def enforceFundPostingBeneficiary : Prop :=
  ∀ x ∈ (rows.filter fun x => x.orderId = row.orderId).argmin (·.id), x.party = row.party

instance : Decidable (enforceFundPostingBeneficiary rows row) := by
  unfold enforceFundPostingBeneficiary
  infer_instance

/-- The table's checks and the range of its columns. -/
def FundPostingEntity.Checked : Prop :=
  row.amountToman ≠ 0 ∧ 0 ≤ row.balanceAfter ∧ 0 < row.seq ∧ row.seq < 2 ^ 31 ∧
    InBigint row.amountToman ∧
    InBigint row.delta ∧ InBigint row.balanceAfter
  deriving Decidable

/-- The deferred trigger: a journal's postings sum to zero. -/
def checkFundJournalBalance : Prop :=
  ((rows.filter fun x => x.journalId = row.journalId ∧ x.orderId = row.orderId).map
    (·.amountToman)).sum = 0
  deriving Decidable

end Triggers

/-! ## Transactions -/

/-- The journals by id, the postings, and the two unique indexes of the postings. -/
structure FundDb where
  journals : Versioned ℕ Uuid FundJournalEntity
  postings : Journal ℕ FundPostingEntity
  ids : Versioned ℕ Uuid Unit
  links : Versioned ℕ (Uuid × FundPostingAccount × String × ℕ) Unit

namespace FundDb

/-- No rows yet. -/
def empty : FundDb := ⟨.empty, .empty, .empty, .empty⟩

/-- The postings that a transaction reads, in the order in which they were inserted. -/
def visible (db : FundDb) (pid : ℕ) : List FundPostingEntity :=
  db.postings.committed ++ db.postings.pending pid

/-- Transaction `pid` commits. -/
def commit (db : FundDb) (pid : ℕ) : FundDb :=
  ⟨db.journals.commit pid, db.postings.commit pid, db.ids.commit pid, db.links.commit pid⟩

/-- Transaction `pid` rolls back. -/
def rollback (db : FundDb) (pid : ℕ) : FundDb :=
  ⟨db.journals.rollback pid, db.postings.rollback pid, db.ids.rollback pid, db.links.rollback pid⟩

end FundDb

/-- What a transaction is about to do. -/
inductive FundStatement where
  | lockOrder (orderId : Uuid)
  | insertJournal (journal : FundJournalEntity)
  | insertPosting (row : FundPostingEntity)
  | commit

/-- Where a transaction is; the orders that it has locked. -/
inductive FundPlace where
  | idle
  | writing (locked : List Uuid)
  | committed
  | failed
  deriving DecidableEq

section Statement

variable (hashtext : Uuid → ℤ) (db : FundDb) (pid : ℕ) (locked : List Uuid)

/-- A journal is inserted; one whose key is taken is not. -/
def insertJournal (journal : FundJournalEntity) : Next FundDb ℤ FundPlace :=
  match db.journals.insert pid journal.id journal
    (fun x => x.idempotencyKey = journal.idempotencyKey) with
  | .waits => .waits
  | .done _ t => .goes { db with journals := t } (.writing locked)
  | .violated | .unmatched => .goes db (.writing locked)

/-- A posting that the triggers and the checks accept is entered in the two indexes, and its journal
is looked for. -/
def insertPosting (row : FundPostingEntity) : Next FundDb ℤ FundPlace :=
  if enforceFundPostingBeneficiary (db.visible pid) row ∧
      enforceFundPostingChain (db.visible pid) row ∧ row.Checked then
    match db.ids.insert pid row.id () (fun _ => False) with
    | .waits => .waits
    | .done _ ids =>
      match db.links.insert pid row.link () (fun _ => False) with
      | .waits => .waits
      | .done _ links =>
        if (db.journals.get pid row.journalId).isSome then
          .goes ⟨db.journals, db.postings.append pid row, ids, links⟩ (.writing locked)
        else .throws .failed
      | .violated | .unmatched => .throws .failed
    | .violated | .unmatched => .throws .failed
  else .throws .failed

/-- One statement of a transaction: a posting of an order is inserted under the order's lock, and
the balance of the journals is checked when the transaction commits. -/
def postingStatement (next : FundStatement) : FundPlace → Next FundDb ℤ FundPlace
  | .writing locked =>
    match next with
    | .lockOrder orderId =>
      .locks (hashtext orderId) .exclusive (.writing (orderId :: locked))
    | .insertJournal journal => insertJournal db pid locked journal
    | .insertPosting row =>
      if row.orderId ∈ locked then insertPosting db pid locked row else .waits
    | .commit =>
      if ∀ row ∈ db.postings.pending pid, checkFundJournalBalance (db.visible pid) row then
        .commits .committed
      else .throws .failed
  | _ => .waits

end Statement

/-- Any number of transactions. -/
def fundService (hashtext : Uuid → ℤ) : Service FundDb ℤ FundPlace Unit FundStatement where
  commit := FundDb.commit
  rollback := FundDb.rollback
  idle := .idle
  failed := .failed
  running := fun place =>
    match place with
    | .writing _ => true
    | _ => false
  first := fun _ => .writing []
  statement := fun next db pid place => postingStatement hashtext db pid next place

/-! ## Reads -/

/-- The nearest double to a natural number, ties to even. -/
def roundToDouble (n : ℕ) : ℕ :=
  let unit := 2 ^ (n.log2 - 52)
  if unit < 2 * (n % unit) ∨ unit = 2 * (n % unit) ∧ n / unit % 2 = 1 then (n / unit + 1) * unit
  else n / unit * unit

/-- `Number` of a numeral. -/
def numberOf (n : ℤ) : ℤ := n.sign * roundToDouble n.natAbs

section Reads

variable (rows : List FundPostingEntity)

/-- One account of `statesForOrder`, the rows given in the order in which they are stored. -/
def statesForOrder (orderId : Uuid) (account : FundPostingAccount) : Option ℤ :=
  (latestWhere (fun x => x.orderId = orderId ∧ x.account = account) (·.seq) rows).map
    fun x => numberOf x.balanceAfter

/-- The subquery `latest` of `statesForParty`: one row of each order. -/
def latestForParty (party : FundParty) (account : FundPostingAccount) : List FundPostingEntity :=
  ((rows.filter fun x => x.party = party ∧ x.account = account).map (·.orderId)).dedup.filterMap
    fun orderId => latestWhere
      (fun x => x.party = party ∧ x.orderId = orderId ∧ x.account = account) (·.seq) rows

/-- One account of `statesForParty`. -/
def statesForParty (party : FundParty) (account : FundPostingAccount) : Option ℤ :=
  match latestForParty rows party account with
  | [] => none
  | latest => some (numberOf (latest.map (·.balanceAfter)).sum)

end Reads

/-! ## What is to hold -/

/-- The side-signed sum of some postings. -/
def sumOf (rows : List FundPostingEntity) : ℤ := (rows.map (·.delta)).sum

/-- The postings of a running balance, in the order in which they were inserted. -/
def chain (rows : List FundPostingEntity) (key : ChainKey) : List FundPostingEntity :=
  rows.filter fun x => x.chainKey = key

/-- The latest balance of a chain. -/
def balanceOf (rows : List FundPostingEntity) (key : ChainKey) : ℤ :=
  ((latestWhere (fun x => x.chainKey = key) (·.seq) rows).map (·.balanceAfter)).getD 0

/-- The balances of an order on one side, together. -/
def sideOf (rows : List FundPostingEntity) (orderId : Uuid) (debit : Bool) : ℤ :=
  ((((rows.filter fun x => x.orderId = orderId ∧ isDebitNormalAccount x.account = debit).map
    (·.chainKey)).dedup).map (balanceOf rows)).sum

/-- The balances are the postings. -/
structure FundsBalance (rows : List FundPostingEntity) : Prop where
  seq : ∀ key, ((chain rows key).map (·.seq)) = List.range' 1 (chain rows key).length
  balance : ∀ key, balanceOf rows key = sumOf (chain rows key) ∧ 0 ≤ balanceOf rows key
  zero : ∀ journalId orderId,
    ((rows.filter fun x => x.journalId = journalId ∧ x.orderId = orderId).map
      (·.amountToman)).sum = 0
  sides : ∀ orderId, sideOf rows orderId true = sideOf rows orderId false
  party : ∀ x ∈ rows, ∀ y ∈ rows, x.orderId = y.orderId → x.party = y.party

/-- What a read is to return: the sum of the postings, or nothing where there are none. -/
def exactly (rows : List FundPostingEntity) : Option ℤ :=
  if rows = [] then none else some (sumOf rows)

/-- The reads return the sums of the postings, in whatever order the rows are stored. -/
structure ReadsExactly (rows : List FundPostingEntity) : Prop where
  order : ∀ stored, stored.Perm rows → ∀ orderId account,
    statesForOrder stored orderId account =
      exactly (rows.filter fun x => x.orderId = orderId ∧ x.account = account)
  party : ∀ stored, stored.Perm rows → ∀ party account,
    statesForParty stored party account =
      exactly (rows.filter fun x => x.account = account ∧
        ∃ y ∈ rows, y.orderId = x.orderId ∧ y.party = party)

end BeauClick.Financial
