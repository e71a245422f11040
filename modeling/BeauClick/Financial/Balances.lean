import Mathlib.Algebra.BigOperators.Ring.List
import BeauClick.Financial.Postings
import BeauClick.Lib.Grouped

/-!
# The balances are the postings

The account of an order is a chain of postings, each with the balance after it.

* `Linked`, `Chained` — each balance is that before it and the posting's delta.
* `fundsProof` — the order lock keeps the chains.
* `readsExactly` — the reads return the sums, where they are within doubles.
* `fundsBalance_run` — every balance is the sum of the postings to it.
-/

namespace BeauClick.Financial

open Commerce Locks Money ReadCommitted Runs Table Transactions FundPostingEntity Journal List

/-! ## The condition -/

/-- Where an account of an order has been posted to under several components, the others have
nothing beside one that has come furthest. -/
def OneComponent (rows : List FundPostingEntity) : Prop :=
  ∀ x ∈ rows, (∀ y ∈ rows, y.orderId = x.orderId → y.account = x.account → y.seq ≤ x.seq) →
    ∀ y ∈ rows, y.orderId = x.orderId → y.account = x.account → y.component ≠ x.component →
      sumOf (chain rows y.chainKey) = 0

/-- The sums that are read are numbers that JavaScript has. -/
def SafeSums (rows : List FundPostingEntity) : Prop :=
  ∀ x ∈ rows,
    numberOf (sumOf (rows.filter fun y => y.orderId = x.orderId ∧ y.account = x.account)) =
        sumOf (rows.filter fun y => y.orderId = x.orderId ∧ y.account = x.account) ∧
      numberOf (sumOf (rows.filter fun y => y.party = x.party ∧ y.account = x.account)) =
        sumOf (rows.filter fun y => y.party = x.party ∧ y.account = x.account)

/-- A transaction commits postings that can be read. -/
def CommitsReadable (s : System FundDb ℤ FundPlace) (e : Step Unit FundStatement) : Prop :=
  match e.action, s.calls e.pid with
  | .statement .commit, .writing _ =>
    OneComponent (s.db.visible e.pid) ∧ SafeSums (s.db.visible e.pid)
  | _, _ => True

namespace Posting

variable {hashtext : Uuid → ℤ} {db db' : FundDb} {p q : ℕ} {place place' : FundPlace}
  {rows rows' c : List FundPostingEntity} {row x y : FundPostingEntity} {key : ChainKey}
  {orderId : Uuid} {next : FundStatement} {locked : List Uuid}

/-! ## Sums -/

theorem sumOf_append : sumOf (rows ++ rows') = sumOf rows + sumOf rows' := by
  simp [sumOf]

theorem sumOf_singleton : sumOf [x] = x.delta := by
  simp [sumOf]

theorem sumOf_perm (h : rows.Perm rows') : sumOf rows = sumOf rows' := (h.map _).sum_eq

theorem chain_append : chain (rows ++ rows') key = chain rows key ++ chain rows' key :=
  filter_append ..

theorem mem_chain : x ∈ chain rows key ↔ x ∈ rows ∧ x.chainKey = key := by
  simp [chain]

theorem chain_of_ne (h : row.chainKey ≠ key) : chain (rows ++ [row]) key = chain rows key := by
  simp [chain, filter_append, h]

theorem chain_of_eq (h : row.chainKey = key) :
    chain (rows ++ [row]) key = chain rows key ++ [row] := by
  simp [chain, filter_append, h]

theorem chain_eq_nil (h : ∀ x ∈ rows, x.orderId ≠ key.orderId) : chain rows key = [] := by
  refine filter_eq_nil_iff.2 ?_
  intro x hx hkey
  refine h x hx ?_
  rw [← of_decide_eq_true hkey]
  rfl

/-! ## Chains -/

/-- The postings of a chain are numbered from one, and the latest one carries their sum. -/
structure Linked (c : List FundPostingEntity) : Prop where
  seq : c.map (·.seq) = List.range' 1 c.length
  latest : ∀ x ∈ c.argmax (·.seq), x.seq = c.length ∧ x.balanceAfter = sumOf c ∧ 0 ≤ x.balanceAfter

theorem linked_nil : Linked [] := ⟨rfl, fun _ h => by cases h⟩

theorem Linked.append (h : Linked c) (hbal : 0 ≤ row.balanceAfter)
    (hchain : match c.argmax (·.seq) with
      | none => row.seq = 1 ∧ row.balanceAfter = 0 + row.delta
      | some prev => row.seq = prev.seq + 1 ∧ row.balanceAfter = prev.balanceAfter + row.delta) :
    Linked (c ++ [row]) := by
  have hnew : row.seq = c.length + 1 ∧ row.balanceAfter = sumOf c + row.delta := by
    cases hmax : c.argmax (·.seq) with
    | none =>
      rw [hmax] at hchain
      rw [argmax_eq_none.1 hmax]
      exact hchain
    | some prev =>
      rw [hmax] at hchain
      obtain ⟨hseq, hsum, -⟩ := h.latest prev hmax
      rw [← hseq, ← hsum]
      exact hchain
  have hmax : (c ++ [row]).argmax (·.seq) = some row := by
    rw [argmax_concat]
    cases hprev : c.argmax (·.seq) with
    | none => rfl
    | some prev =>
      obtain ⟨_, -⟩ := h.latest prev hprev
      have hlt : prev.seq < row.seq := by omega
      simp [hlt]
  constructor
  · rw [map_append, h.seq, length_append, map_singleton, hnew.1,
      length_singleton, List.range'_concat, Nat.one_mul, Nat.add_comm 1]
  · intro x hx
    obtain rfl : row = x := Option.some.inj (hmax.symm.trans hx)
    rw [sumOf_append, sumOf_singleton, length_append]
    exact ⟨hnew.1, hnew.2, hbal⟩

/-- Every chain is linked, and every order has one beneficiary. -/
structure Chained (rows : List FundPostingEntity) : Prop where
  linked : ∀ key, Linked (chain rows key)
  party : ∀ x ∈ rows, ∀ y ∈ rows, x.orderId = y.orderId → x.party = y.party

theorem chained_nil : Chained [] := ⟨fun _ => linked_nil, fun _ hx => by cases hx⟩

theorem Chained.append (h : Chained rows) (hbeneficiary : enforceFundPostingBeneficiary rows row)
    (hchain : enforceFundPostingChain rows row) (hchk : row.Checked) :
    Chained (rows ++ [row]) := by
  constructor
  · intro key
    by_cases hkey : row.chainKey = key
    · subst hkey
      rw [chain_of_eq rfl]
      exact (h.linked row.chainKey).append hchk.2.1 hchain
    · rw [chain_of_ne hkey]
      exact h.linked key
  · have hnew : ∀ x ∈ rows, x.orderId = row.orderId → x.party = row.party := by
      intro x hx hord
      have hmem : x ∈ rows.filter fun x => x.orderId = row.orderId := by
        simpa using ⟨hx, hord⟩
      cases hfirst : (rows.filter fun x => x.orderId = row.orderId).argmin (·.id) with
      | none =>
        rw [argmin_eq_none.1 hfirst] at hmem
        cases hmem
      | some first =>
        have hin := argmin_mem hfirst
        have hat : first ∈ rows ∧ first.orderId = row.orderId := by simpa using hin
        rw [← hbeneficiary first hfirst]
        exact h.party x hx first hat.1 (hord.trans hat.2.symm)
    exact determined_concat h.party hnew

/-! ## What holds while transactions are at work -/

/-- What holds of the committed postings. -/
structure FundsSound (db : FundDb) : Prop where
  chained : Chained db.postings.committed
  zero : ∀ row, checkFundJournalBalance db.postings.committed row

/-- The orders that a transaction has locked. -/
def lockedOrders : FundPlace → List Uuid
  | .writing locked => locked
  | _ => []

/-- What a transaction relies on: its postings are of orders that it has locked, and are linked to
what is committed. -/
def FundsWork (db : FundDb) (p : ℕ) (place : FundPlace) : Prop :=
  (∀ x ∈ db.postings.pending p, x.orderId ∈ lockedOrders place) ∧ Chained (db.visible p)

/-- The locks that a transaction has taken. -/
def FundsHold (hashtext : Uuid → ℤ) (place : FundPlace) (k : ℤ) (mode : LockMode) : Prop :=
  (∃ orderId ∈ lockedOrders place, k = hashtext orderId) ∧ mode = .exclusive

/-- What holds of the tables, and what a call relies on. -/
def fundsOutline (hashtext : Uuid → ℤ) : Outline FundDb ℤ FundPlace FundStatement where
  Assumes := fun _ _ _ _ => True
  Sound := FundsSound
  Guarantee := fun _ _ => True
  Work := FundsWork
  holds := FundsHold hashtext

theorem chained_of_apart {committed pending pending' : List FundPostingEntity}
    (hafter : Chained (committed ++ pending)) (hbef : Chained (committed ++ pending'))
    (hapart : ∀ x ∈ pending, ∀ y ∈ pending', x.orderId ≠ y.orderId) :
    Chained (committed ++ pending ++ pending') where
  linked := by
    intro key
    rw [chain_append]
    by_cases hnone : ∀ y ∈ pending', y.orderId ≠ key.orderId
    · rw [chain_eq_nil hnone, append_nil]
      exact hafter.linked key
    · push Not at hnone
      obtain ⟨y, hy, hyo⟩ := hnone
      have hempty : chain pending key = [] :=
        chain_eq_nil fun x hx hxo => hapart x hx y hy (hxo.trans hyo.symm)
      rw [chain_append, hempty, append_nil, ← chain_append]
      exact hbef.linked key
  party := by
    have hcross : ∀ x ∈ pending, ∀ y ∈ pending', x.orderId = y.orderId → x.party = y.party :=
      fun x hx y hy hord => absurd hord (hapart x hx y hy)
    intro x hx y hy hord
    rcases mem_append.1 hx with hx | hx <;> rcases mem_append.1 hy with hy | hy
    · exact hafter.party x hx y hy hord
    · rcases mem_append.1 hx with hx | hx
      · exact hbef.party x (mem_append_left _ hx) y (mem_append_right _ hy) hord
      · exact hcross x hx y hy hord
    · rcases mem_append.1 hy with hy | hy
      · exact hbef.party x (mem_append_right _ hx) y (mem_append_left _ hy) hord
      · exact (hcross y hy x hx hord.symm).symm
    · exact hbef.party x (mem_append_right _ hx) y (mem_append_right _ hy) hord

theorem keeps_of_same (hs : FundsSound db)
    (hcomm : db'.postings.committed = db.postings.committed)
    (hpend : ∀ q ≠ p, db'.postings.pending q = db.postings.pending q) :
    (fundsOutline hashtext).Keeps db p place db' where
  sound := by
    obtain ⟨hchained, hzero⟩ := hs
    rw [← hcomm] at hchained hzero
    exact ⟨hchained, hzero⟩
  guarantee := trivial
  others := by
    intro q place' hq _ hw
    obtain ⟨hlocked, hchained⟩ := hw
    refine ⟨?_, ?_⟩
    · rw [hpend q hq]
      exact hlocked
    · rw [FundDb.visible, hcomm, hpend q hq]
      exact hchained

theorem work_of_nil (hchained : Chained db.postings.committed)
    (hpend : db.postings.pending p = []) : FundsWork db p place := by
  refine ⟨?_, ?_⟩
  · rw [hpend]
    intro x hx
    cases hx
  · rw [FundDb.visible, hpend, append_nil]
    exact hchained

theorem not_holds_ended (hplace : lockedOrders place = []) (k : ℤ) (mode : LockMode) :
    ¬FundsHold hashtext place k mode := by
  rintro ⟨⟨_, hord, -⟩, -⟩
  rw [hplace] at hord
  cases hord

theorem keeps_rollback (hs : FundsSound db) :
    (fundsOutline hashtext).Keeps db p place (db.rollback p) :=
  keeps_of_same hs rfl fun _ hq => pending_rollback_ne hq

/-! ## The statements -/

theorem postings_insertJournal {journal : FundJournalEntity}
    (hst : insertJournal db p locked journal = .goes db' place') :
    db'.postings = db.postings ∧ place' = .writing locked := by
  unfold insertJournal at hst
  split at hst <;> cases hst <;> exact ⟨rfl, rfl⟩

theorem accepted_insertPosting (hst : insertPosting db p locked row = .goes db' place') :
    enforceFundPostingBeneficiary (db.visible p) row ∧
      enforceFundPostingChain (db.visible p) row ∧ row.Checked ∧
        db'.postings = db.postings.append p row ∧ place' = .writing locked := by
  unfold insertPosting at hst
  split at hst
  · rename_i hacc
    split at hst
    · cases hst
    · split at hst
      · cases hst
      · split at hst
        · cases hst
          exact ⟨hacc.1, hacc.2.1, hacc.2.2, rfl, rfl⟩
        · cases hst
      · cases hst
      · cases hst
    · cases hst
    · cases hst
  · cases hst

/-- What a statement of a transaction at work comes to. -/
inductive Does (hashtext : Uuid → ℤ) (db : FundDb) (p : ℕ) (locked : List Uuid) :
    FundStatement → Next FundDb ℤ FundPlace → Prop where
  | lockOrder (orderId : Uuid) :
    Does hashtext db p locked (.lockOrder orderId)
      (.locks (hashtext orderId) .exclusive (.writing (orderId :: locked)))
  | insertJournal (journal : FundJournalEntity) (db' : FundDb)
    (hpostings : db'.postings = db.postings) :
    Does hashtext db p locked (.insertJournal journal) (.goes db' (.writing locked))
  | insertPosting (row : FundPostingEntity) (db' : FundDb) (hlocked : row.orderId ∈ locked)
    (hbeneficiary : enforceFundPostingBeneficiary (db.visible p) row)
    (hchain : enforceFundPostingChain (db.visible p) row) (hchecked : row.Checked)
    (hpostings : db'.postings = db.postings.append p row) :
    Does hashtext db p locked (.insertPosting row) (.goes db' (.writing locked))
  | commit (hzero : ∀ row ∈ db.postings.pending p, checkFundJournalBalance (db.visible p) row) :
    Does hashtext db p locked .commit (.commits .committed)
  | throws (next : FundStatement) : Does hashtext db p locked next (.throws .failed)
  | waits (next : FundStatement) : Does hashtext db p locked next .waits

theorem next_insertJournal (db : FundDb) (p : ℕ) (locked : List Uuid)
    (journal : FundJournalEntity) :
    insertJournal db p locked journal = .waits ∨
      ∃ db' place', insertJournal db p locked journal = .goes db' place' := by
  unfold insertJournal
  split
  · exact Or.inl rfl
  · exact Or.inr ⟨_, _, rfl⟩
  · exact Or.inr ⟨_, _, rfl⟩
  · exact Or.inr ⟨_, _, rfl⟩

theorem next_insertPosting (db : FundDb) (p : ℕ) (locked : List Uuid) (row : FundPostingEntity) :
    insertPosting db p locked row = .waits ∨ insertPosting db p locked row = .throws .failed ∨
      ∃ db' place', insertPosting db p locked row = .goes db' place' := by
  unfold insertPosting
  split
  · split
    · exact Or.inl rfl
    · split
      · exact Or.inl rfl
      · split
        · exact Or.inr (Or.inr ⟨_, _, rfl⟩)
        · exact Or.inr (Or.inl rfl)
      · exact Or.inr (Or.inl rfl)
      · exact Or.inr (Or.inl rfl)
    · exact Or.inr (Or.inl rfl)
    · exact Or.inr (Or.inl rfl)
  · exact Or.inr (Or.inl rfl)

theorem does_statement (hashtext : Uuid → ℤ) (db : FundDb) (p : ℕ) (locked : List Uuid)
    (next : FundStatement) :
    Does hashtext db p locked next (postingStatement hashtext db p next (.writing locked)) := by
  cases next with
  | lockOrder orderId => exact .lockOrder orderId
  | insertJournal journal =>
    dsimp only [postingStatement]
    rcases next_insertJournal db p locked journal with hwaits | ⟨db', place', hgoes⟩
    · rw [hwaits]
      exact .waits _
    · obtain ⟨hposts, rfl⟩ := postings_insertJournal hgoes
      rw [hgoes]
      exact .insertJournal journal db' hposts
  | insertPosting row =>
    dsimp only [postingStatement]
    split
    · rename_i hlocked
      rcases next_insertPosting db p locked row with hwaits | hthrows | ⟨db', _, hgoes⟩
      · rw [hwaits]
        exact .waits _
      · rw [hthrows]
        exact .throws _
      · obtain ⟨hbeneficiary, hchain, hchk, hposts, rfl⟩ := accepted_insertPosting hgoes
        rw [hgoes]
        exact .insertPosting row db' hlocked hbeneficiary hchain hchk hposts
    · exact .waits _
  | commit =>
    dsimp only [postingStatement]
    split
    · rename_i hzero
      exact .commit hzero
    · exact .throws _

theorem keeps_commit (hs : FundsSound db) (hw : FundsWork db p (.writing locked))
    (hzero : ∀ row ∈ db.postings.pending p, checkFundJournalBalance (db.visible p) row) :
    (fundsOutline hashtext).Keeps db p (.writing locked) (db.commit p) where
  sound := by
    refine ⟨hw.2, ?_⟩
    intro row
    -- a journal that the transaction has not posted to is as it was
    by_cases htouch : ∃ x ∈ db.postings.pending p,
        x.journalId = row.journalId ∧ x.orderId = row.orderId
    · obtain ⟨x, hx, hjournal, hord⟩ := htouch
      have hchk := hzero x hx
      unfold checkFundJournalBalance at hchk ⊢
      rw [hjournal, hord] at hchk
      exact hchk
    · have hnone : (db.postings.pending p).filter
          (fun x => x.journalId = row.journalId ∧ x.orderId = row.orderId) = [] := by
        refine filter_eq_nil_iff.2 ?_
        intro x hx hat
        exact htouch ⟨x, hx, of_decide_eq_true hat⟩
      have hbef := hs.zero row
      unfold checkFundJournalBalance at hbef ⊢
      rw [show (db.commit p).postings.committed =
        db.postings.committed ++ db.postings.pending p from rfl, filter_append, hnone,
        append_nil]
      exact hbef
  guarantee := trivial
  others := by
    intro q place' hq htog hw'
    have hpend : (db.commit p).postings.pending q = db.postings.pending q :=
      pending_commit_ne hq
    refine ⟨?_, ?_⟩
    · rw [hpend]
      exact hw'.1
    · show Chained (db.postings.committed ++ db.postings.pending p ++
        (db.commit p).postings.pending q)
      rw [hpend]
      refine chained_of_apart hw.2 hw'.2 ?_
      -- two transactions that have locked one order exclude each other
      intro x hx y hy hord
      have hshared := htog (hashtext x.orderId) .exclusive .exclusive
        ⟨⟨x.orderId, hw.1 x hx, rfl⟩, rfl⟩
        ⟨⟨y.orderId, hw'.1 y hy, by rw [hord]⟩, rfl⟩
      cases hshared.1

theorem does_of {n : Next FundDb ℤ FundPlace}
    (hst : postingStatement hashtext db p next (.writing locked) = n) :
    Does hashtext db p locked next n := hst ▸ does_statement hashtext db p locked next

/-- Each statement keeps the chains. -/
theorem fundsProof (hashtext : Uuid → ℤ) :
    Proof (fundService hashtext) (fundsOutline hashtext) where
  idle_holds := not_holds_ended rfl
  first := fun _ _ _ hw => ⟨hw, not_holds_ended rfl⟩
  goes := by
    intro next db pid place db' place' _ hs hw hst
    cases place with
    | writing =>
      cases does_of hst with
      | insertJournal journal db' hposts =>
        refine ⟨keeps_of_same hs (by rw [hposts]) fun q _ => by rw [hposts], ?_,
          fun _ _ h => h⟩
        obtain ⟨hlocked, hchained⟩ := hw
        refine ⟨?_, ?_⟩
        · rw [hposts]
          exact hlocked
        · rw [FundDb.visible, hposts]
          exact hchained
      | insertPosting row db' hlocked hbeneficiary hchain hchk hposts =>
        refine ⟨keeps_of_same hs (by rw [hposts]; rfl) ?_, ?_, fun _ _ h => h⟩
        · intro q hq
          rw [hposts]
          exact pending_append_ne hq
        · refine ⟨?_, ?_⟩
          · rw [hposts, pending_append_self]
            intro x hx
            rcases mem_append.1 hx with hx | hx
            · exact hw.1 x hx
            · rw [mem_singleton.1 hx]
              exact hlocked
          · rw [FundDb.visible, hposts, pending_append_self,
              ← append_assoc]
            exact hw.2.append hbeneficiary hchain hchk
    | idle | committed | failed => cases hst
  locks := by
    intro next db pid place key mode place' _ hs hw hst
    cases place with
    | writing =>
      cases does_of hst with
      | lockOrder =>
        refine ⟨⟨fun x hx => mem_cons_of_mem _ (hw.1 x hx), hw.2⟩, ?_⟩
        rintro k m ⟨⟨orderId', hord, rfl⟩, rfl⟩
        rcases mem_cons.1 hord with rfl | hord
        · exact Or.inr ⟨rfl, rfl⟩
        · exact Or.inl ⟨⟨orderId', hord, rfl⟩, rfl⟩
    | idle | committed | failed => cases hst
  commits := by
    intro next db pid place place' _ hs hw hst
    cases place with
    | writing locked =>
      cases does_of hst with
      | commit hzero =>
        have hkeeps : (fundsOutline hashtext).Keeps db pid (.writing locked) (db.commit pid) :=
          keeps_commit hs hw hzero
        exact ⟨hkeeps, work_of_nil hkeeps.sound.chained pending_commit_self,
          not_holds_ended rfl⟩
    | idle | committed | failed => cases hst
  throws := by
    intro next db pid place place' _ hs hw hst
    cases place with
    | writing =>
      cases does_of hst with
      | throws =>
        exact ⟨keeps_rollback hs, work_of_nil hs.chained pending_rollback_self,
          not_holds_ended rfl⟩
    | idle | committed | failed => cases hst
  dies := fun db pid place _ hs _ =>
    ⟨keeps_rollback hs, work_of_nil hs.chained pending_rollback_self, not_holds_ended rfl⟩

/-! ## The balances -/

theorem latestWhere_chain (rows : List FundPostingEntity) (key : ChainKey) :
    latestWhere (fun x => x.chainKey = key) (·.seq) rows = (chain rows key).argmax (·.seq) := rfl

theorem balanceOf_eq (h : Linked (chain rows key)) :
    balanceOf rows key = sumOf (chain rows key) ∧ 0 ≤ balanceOf rows key := by
  unfold balanceOf
  rw [latestWhere_chain]
  cases hlatest : (chain rows key).argmax (·.seq) with
  | none =>
    rw [argmax_eq_none.1 hlatest]
    exact ⟨rfl, le_refl 0⟩
  | some x =>
    obtain ⟨-, hsum, hnonneg⟩ := h.latest x hlatest
    exact ⟨hsum, hnonneg⟩

theorem chain_of_side {debit : Bool}
    (hx : x ∈ rows.filter fun x => x.orderId = orderId ∧ isDebitNormalAccount x.account = debit) :
    chain rows x.chainKey =
      (rows.filter fun x => x.orderId = orderId ∧ isDebitNormalAccount x.account = debit).filter
        fun y => y.chainKey = x.chainKey := by
  obtain ⟨-, hat⟩ := mem_filter.1 hx
  have hat' : x.orderId = orderId ∧ isDebitNormalAccount x.account = debit := of_decide_eq_true hat
  rw [filter_filter]
  refine filter_congr ?_
  intro y _
  by_cases hkey : y.chainKey = x.chainKey
  · have hord : y.orderId = x.orderId := congrArg ChainKey.orderId hkey
    have hacct : y.account = x.account := congrArg ChainKey.account hkey
    simp [hkey, hord, hacct, hat'.1, hat'.2]
  · simp [hkey]

theorem sideOf_eq (h : Chained rows) (orderId : Uuid) (debit : Bool) :
    sideOf rows orderId debit = sumOf (rows.filter fun x =>
      x.orderId = orderId ∧ isDebitNormalAccount x.account = debit) := by
  unfold sideOf sumOf
  rw [← Grouped.sum_dedup_groups chainKey]
  congr 1
  refine map_congr_left ?_
  intro key hkey
  obtain ⟨x, hx, rfl⟩ := mem_map.1 (mem_dedup.1 hkey)
  rw [(balanceOf_eq (h.linked x.chainKey)).1, chain_of_side hx]
  rfl

section

variable (hzero : ∀ row, checkFundJournalBalance rows row)
include hzero

theorem sum_order (orderId : Uuid) :
    ((rows.filter fun x => x.orderId = orderId).map (·.amountToman)).sum = 0 := by
  rw [← Grouped.sum_dedup_groups journalId]
  refine sum_eq_zero ?_
  intro total htot
  obtain ⟨_, hjournal, rfl⟩ := mem_map.1 htot
  obtain ⟨x, hx, rfl⟩ := mem_map.1 (mem_dedup.1 hjournal)
  obtain ⟨-, hat⟩ := mem_filter.1 hx
  have hord : x.orderId = orderId := of_decide_eq_true hat
  have hchk := hzero x
  rw [filter_filter]
  rw [← hchk]
  congr 2
  refine filter_congr ?_
  intro y _
  simp [hord]

theorem sides_eq (hchained : Chained rows)
    (orderId : Uuid) : sideOf rows orderId true = sideOf rows orderId false := by
  have hside : ∀ debit : Bool, (((rows.filter fun x => x.orderId = orderId).filter
      fun x => isDebitNormalAccount x.account = debit).map (·.amountToman)).sum =
        (if debit then 1 else -1) * sideOf rows orderId debit := by
    intro debit
    rw [sideOf_eq hchained, sumOf, ← sum_map_mul_left, filter_filter]
    have hfilter : (rows.filter fun x =>
        decide (isDebitNormalAccount x.account = debit) && decide (x.orderId = orderId)) =
        rows.filter fun x => x.orderId = orderId ∧ isDebitNormalAccount x.account = debit := by
      refine filter_congr ?_
      intro x _
      simp [Bool.and_comm]
    rw [hfilter]
    congr 1
    refine map_congr_left ?_
    intro x hx
    obtain ⟨-, hat⟩ := mem_filter.1 hx
    have hdebit : isDebitNormalAccount x.account = debit := (of_decide_eq_true hat).2
    cases debit with
    | true | false => simp [delta, hdebit]
  have htot := Grouped.sum_groups (fun x : FundPostingEntity => isDebitNormalAccount x.account)
    (·.amountToman) (nodup_cons.2 ⟨by simp, nodup_singleton false⟩ :
      [true, false].Nodup) (rows.filter fun x => x.orderId = orderId) (fun x _ => by simp)
  rw [sum_order hzero orderId] at htot
  simp only [map_cons, map_nil, sum_cons, sum_nil, hside] at htot
  simp at htot
  linarith

end

theorem fundsBalance_of_sound (h : FundsSound db) : FundsBalance db.postings.committed where
  seq := fun key => (h.chained.linked key).seq
  balance := fun key => balanceOf_eq (h.chained.linked key)
  zero := by
    intro journalId orderId
    by_cases hsome : ∃ x ∈ db.postings.committed, x.journalId = journalId ∧ x.orderId = orderId
    · obtain ⟨x, -, rfl, rfl⟩ := hsome
      exact h.zero x
    · rw [filter_eq_nil_iff.2]
      · rfl
      intro x hx hat
      exact hsome ⟨x, hx, of_decide_eq_true hat⟩
  sides := sides_eq h.zero h.chained
  party := h.chained.party

/-! ## The reads -/

theorem balanceAfter_of_latest (h : Chained rows) (hx : x ∈ rows)
    (hlast : ∀ y ∈ rows, y.orderId = x.orderId → y.account = x.account → y.seq ≤ x.seq) :
    x.balanceAfter = sumOf (chain rows x.chainKey) := by
  have hlinked := h.linked x.chainKey
  have hmem : x ∈ chain rows x.chainKey := mem_chain.2 ⟨hx, rfl⟩
  cases hlatest : (chain rows x.chainKey).argmax (·.seq) with
  | none =>
    rw [argmax_eq_none.1 hlatest] at hmem
    cases hmem
  | some y =>
    have hy := argmax_mem hlatest
    obtain ⟨hyrows, hykey⟩ := mem_chain.1 hy
    have hle : x.seq ≤ y.seq := le_of_mem_argmax hmem hlatest
    have hge : y.seq ≤ x.seq :=
      hlast y hyrows (congrArg ChainKey.orderId hykey) (congrArg ChainKey.account hykey)
    have hnodup : ((chain rows x.chainKey).map (·.seq)).Nodup := by
      rw [hlinked.seq]
      exact nodup_range'
    have heq : x = y := inj_on_of_nodup_map hnodup hmem hy (Nat.le_antisymm hle hge)
    rw [heq] at hlinked hlatest ⊢
    exact (hlinked.latest y hlatest).2.1

/-- The postings of an account of an order. -/
def accountOf (rows : List FundPostingEntity) (orderId : Uuid) (account : FundPostingAccount) :
    List FundPostingEntity :=
  rows.filter fun x => x.orderId = orderId ∧ x.account = account

theorem mem_accountOf {account : FundPostingAccount} :
    x ∈ accountOf rows orderId account ↔ x ∈ rows ∧ x.orderId = orderId ∧ x.account = account := by
  simp [accountOf]

theorem sumOf_accountOf (hone : OneComponent rows) (hx : x ∈ rows)
    (hlast : ∀ y ∈ rows, y.orderId = x.orderId → y.account = x.account → y.seq ≤ x.seq) :
    sumOf (accountOf rows x.orderId x.account) = sumOf (chain rows x.chainKey) := by
  have hkeys : ∀ {y : FundPostingEntity}, y ∈ accountOf rows x.orderId x.account →
      chain rows y.chainKey =
        (accountOf rows x.orderId x.account).filter fun z => z.chainKey = y.chainKey := by
    intro y hy
    obtain ⟨-, hord, hacct⟩ := mem_accountOf.1 hy
    rw [accountOf, filter_filter]
    refine filter_congr ?_
    intro z _
    by_cases hkey : z.chainKey = y.chainKey
    · have hzo : z.orderId = y.orderId := congrArg ChainKey.orderId hkey
      have hza : z.account = y.account := congrArg ChainKey.account hkey
      simp [hkey, hzo, hza, hord, hacct]
    · simp [hkey]
  have hmem : x ∈ accountOf rows x.orderId x.account := mem_accountOf.2 ⟨hx, rfl, rfl⟩
  -- of all the chains of the account only the one of `x` has a sum
  have hothers : ∀ key ∈ ((accountOf rows x.orderId x.account).map (·.chainKey)).dedup,
      (((accountOf rows x.orderId x.account).filter fun y => y.chainKey = key).map (·.delta)).sum =
        if x.chainKey = key then sumOf (chain rows x.chainKey) else 0 := by
    intro key hkey
    obtain ⟨y, hy, rfl⟩ := mem_map.1 (mem_dedup.1 hkey)
    obtain ⟨hyrows, hord, hacct⟩ := mem_accountOf.1 hy
    rw [← hkeys hy]
    by_cases hsame : x.chainKey = y.chainKey
    · rw [if_pos hsame, hsame]
      rfl
    · rw [if_neg hsame]
      refine hone x hx hlast y hyrows hord hacct ?_
      intro hcomponent
      refine hsame ?_
      simp [chainKey, hord, hacct, hcomponent]
  rw [sumOf, ← Grouped.sum_dedup_groups chainKey,
    map_congr_left hothers]
  exact Grouped.sum_single (nodup_dedup _) (mem_dedup.2 (mem_map_of_mem hmem)) _

section Stored

variable {stored : List FundPostingEntity} {account : FundPostingAccount} {party : FundParty}

theorem exactly_of_mem (hx : x ∈ rows) : exactly rows = some (sumOf rows) := by
  unfold exactly
  rw [if_neg]
  rintro rfl
  cases hx

section

variable (h : Chained rows)
include h

theorem balanceAfter_of_latestWhere (hone : OneComponent rows)
    (hperm : stored.Perm rows)
    (hlatest : latestWhere (fun x => x.orderId = orderId ∧ x.account = account) (·.seq) stored =
      some x) :
    x ∈ accountOf rows orderId account ∧
      x.balanceAfter = sumOf (accountOf rows orderId account) := by
  obtain ⟨hx, rfl, rfl⟩ := latestWhere_eq_some hlatest
  have hxrows := hperm.mem_iff.1 hx
  have hlast : ∀ y ∈ rows, y.orderId = x.orderId → y.account = x.account → y.seq ≤ x.seq :=
    fun y hy hord hacct =>
      le_of_latestWhere hlatest (hperm.mem_iff.2 hy) ⟨hord, hacct⟩
  refine ⟨mem_accountOf.2 ⟨hxrows, rfl, rfl⟩, ?_⟩
  rw [sumOf_accountOf hone hxrows hlast]
  exact balanceAfter_of_latest h hxrows hlast

theorem statesForOrder_eq (hone : OneComponent rows) (hsafe : SafeSums rows)
    (hperm : stored.Perm rows) (orderId : Uuid) (account : FundPostingAccount) :
    statesForOrder stored orderId account = exactly (accountOf rows orderId account) := by
  unfold statesForOrder
  cases hlatest : latestWhere (fun x => x.orderId = orderId ∧ x.account = account) (·.seq)
      stored with
  | none =>
    have hnone : accountOf rows orderId account = [] := by
      refine filter_eq_nil_iff.2 ?_
      intro y hy hat
      exact latestWhere_eq_none hlatest y (hperm.mem_iff.2 hy) (of_decide_eq_true hat)
    rw [hnone]
    rfl
  | some x =>
    obtain ⟨hx, hbal⟩ := balanceAfter_of_latestWhere h hone hperm hlatest
    obtain ⟨hxrows, rfl, rfl⟩ := mem_accountOf.1 hx
    rw [exactly_of_mem hx, Option.map_some, hbal]
    exact congrArg some (hsafe x hxrows).1

theorem latestWhere_party (hperm : stored.Perm rows) (hx : x ∈ rows) :
    latestWhere (fun y => y.party = x.party ∧ y.orderId = x.orderId ∧ y.account = account)
        (·.seq) stored =
      latestWhere (fun y => y.orderId = x.orderId ∧ y.account = account) (·.seq) stored := by
  refine latestWhere_congr ?_
  intro y hy
  constructor
  · exact fun hat => hat.2
  · exact fun hat => ⟨h.party y (hperm.mem_iff.1 hy) x hx hat.1, hat⟩

theorem latestForParty_balances (hone : OneComponent rows)
    (hperm : stored.Perm rows) (party : FundParty) (account : FundPostingAccount) :
    (latestForParty stored party account).map (·.balanceAfter) =
      ((stored.filter fun x => x.party = party ∧ x.account = account).map (·.orderId)).dedup.map
        fun orderId => sumOf (accountOf rows orderId account) := by
  unfold latestForParty
  rw [map_filterMap]
  have hsome : ∀ orderId ∈ ((stored.filter fun x => x.party = party ∧ x.account = account).map
      (·.orderId)).dedup,
      (latestWhere (fun x => x.party = party ∧ x.orderId = orderId ∧ x.account = account) (·.seq)
        stored).map (·.balanceAfter) = some (sumOf (accountOf rows orderId account)) := by
    intro orderId hord
    obtain ⟨y, hy, rfl⟩ := mem_map.1 (mem_dedup.1 hord)
    obtain ⟨hystored, hat⟩ := mem_filter.1 hy
    obtain ⟨rfl, rfl⟩ : y.party = party ∧ y.account = account := of_decide_eq_true hat
    have hyrows := hperm.mem_iff.1 hystored
    rw [latestWhere_party h hperm hyrows]
    cases hlatest : latestWhere (fun x => x.orderId = y.orderId ∧ x.account = y.account) (·.seq)
        stored with
    | none => exact absurd ⟨rfl, rfl⟩ (latestWhere_eq_none hlatest y hystored)
    | some x =>
      rw [Option.map_some, (balanceAfter_of_latestWhere h hone hperm hlatest).2]
  exact (filterMap_congr hsome).trans (congrFun filterMap_eq_map _)

theorem filter_party (party : FundParty) (account : FundPostingAccount) :
    (rows.filter fun x => x.account = account ∧
        ∃ y ∈ rows, y.orderId = x.orderId ∧ y.party = party) =
      rows.filter fun x => x.party = party ∧ x.account = account := by
  refine filter_congr ?_
  intro x hx
  refine decide_eq_decide.2 ⟨?_, ?_⟩
  · rintro ⟨hacct, y, hy, hord, rfl⟩
    exact ⟨h.party x hx y hy hord.symm, hacct⟩
  · rintro ⟨hparty, hacct⟩
    exact ⟨hacct, x, hx, rfl, hparty⟩

theorem sum_orders (hperm : stored.Perm rows) (party : FundParty) (account : FundPostingAccount) :
    (((stored.filter fun x => x.party = party ∧ x.account = account).map
      (·.orderId)).dedup.map fun orderId => sumOf (accountOf rows orderId account)).sum =
        sumOf (rows.filter fun x => x.party = party ∧ x.account = account) := by
  rw [← sumOf_perm (hperm.filter _), sumOf,
    ← Grouped.sum_dedup_groups orderId]
  congr 1
  refine map_congr_left ?_
  intro orderId hord
  obtain ⟨y, hy, rfl⟩ := mem_map.1 (mem_dedup.1 hord)
  obtain ⟨hystored, hat⟩ := mem_filter.1 hy
  obtain ⟨rfl, rfl⟩ : y.party = party ∧ y.account = account := of_decide_eq_true hat
  rw [accountOf, ← sumOf_perm (hperm.filter _), sumOf, filter_filter]
  congr 2
  refine filter_congr ?_
  intro x hx
  by_cases hord' : x.orderId = y.orderId
  · simp [hord', h.party x (hperm.mem_iff.1 hx) y (hperm.mem_iff.1 hystored) hord']
  · simp [hord']

theorem statesForParty_eq (hone : OneComponent rows) (hsafe : SafeSums rows)
    (hperm : stored.Perm rows) (party : FundParty) (account : FundPostingAccount) :
    statesForParty stored party account =
      exactly (rows.filter fun x => x.party = party ∧ x.account = account) := by
  have hbals := latestForParty_balances h hone hperm party account
  have hsum := congrArg List.sum hbals
  rw [sum_orders h hperm] at hsum
  unfold statesForParty
  by_cases hsome : ∃ x ∈ rows, x.party = party ∧ x.account = account
  · obtain ⟨x, hx, rfl, rfl⟩ := hsome
    have hmem : x ∈ rows.filter fun y => y.party = x.party ∧ y.account = x.account := by
      simpa using hx
    have hne : latestForParty stored x.party x.account ≠ [] := by
      intro hnil
      rw [hnil] at hbals
      have hempty := map_eq_nil_iff.1 hbals.symm
      have hin : x.orderId ∈ ((stored.filter fun y => y.party = x.party ∧ y.account = x.account).map
          (·.orderId)).dedup := by
        refine mem_dedup.2 (mem_map_of_mem ?_)
        simpa using hperm.mem_iff.2 hx
      rw [hempty] at hin
      cases hin
    rw [exactly_of_mem hmem]
    split
    · rename_i hnil
      exact absurd hnil hne
    · rw [hsum]
      exact congrArg some (hsafe x hx).2
  · have hnone : (rows.filter fun x => x.party = party ∧ x.account = account) = [] := by
      refine filter_eq_nil_iff.2 ?_
      intro x hx hat
      exact hsome ⟨x, hx, of_decide_eq_true hat⟩
    have hstored : (stored.filter fun x => x.party = party ∧ x.account = account) = [] := by
      refine filter_eq_nil_iff.2 ?_
      intro x hx hat
      exact hsome ⟨x, hperm.mem_iff.1 hx, of_decide_eq_true hat⟩
    rw [hnone]
    have hnil : latestForParty stored party account = [] := by
      rw [latestForParty, hstored]
      rfl
    rw [hnil]
    rfl

theorem readsExactly (hone : OneComponent rows) (hsafe : SafeSums rows) :
    ReadsExactly rows where
  order := fun _ hperm orderId account => statesForOrder_eq h hone hsafe hperm orderId account
  party := by
    intro stored hperm party account
    rw [filter_party h]
    exact statesForParty_eq h hone hsafe hperm party account

end

end Stored

/-! ## Runs -/

section Run

variable {s s' : System FundDb ℤ FundPlace} {e : Step Unit FundStatement}

/-- A step keeps the outline. -/
theorem holds_step (h : (fundsOutline hashtext).Holds s)
    (hstep : (fundService hashtext).step s e = some s') : (fundsOutline hashtext).Holds s' :=
  ((fundsProof hashtext).holds_step h (Outline.meets (fun _ _ _ _ => trivial) s e) hstep).1

theorem holds_start (hashtext : Uuid → ℤ) :
    (fundsOutline hashtext).Holds ((fundService hashtext).start .empty) := by
  refine (fundsProof hashtext).holds_start ⟨chained_nil, fun row => rfl⟩ fun p => ?_
  exact work_of_nil chained_nil rfl

/-- The committed postings can be read. -/
def Readable (rows : List FundPostingEntity) : Prop := OneComponent rows ∧ SafeSums rows

theorem readable_step (hreadable : Readable s.db.postings.committed) (hm : CommitsReadable s e)
    (hstep : (fundService hashtext).step s e = some s') :
    Readable s'.db.postings.committed := by
  have hsame : s'.db.postings.committed = s.db.postings.committed →
      Readable s'.db.postings.committed := by
    intro heq
    rw [heq]
    exact hreadable
  cases Service.took_of_step hstep with
  | starts => exact hsame rfl
  | goes pid next db place hst =>
    generalize hat : s.calls pid = at' at hst
    cases at' with
    | writing =>
      cases does_of hst with
      | insertJournal journal db hposts => exact hsame (congrArg committed hposts)
      | insertPosting row db hlocked hbeneficiary hchain hchk hposts =>
        have hcomm : db.postings.committed = s.db.postings.committed := by
          rw [hposts, committed_append]
        exact hsame hcomm
    | idle | committed | failed => cases hst
  | locks => exact hsame rfl
  | commits pid next place hst =>
    generalize hat : s.calls pid = at' at hst
    cases at' with
    | writing =>
      cases does_of hst with
      | commit =>
        simp only [CommitsReadable, hat] at hm
        exact hm
    | idle | committed | failed => cases hst
  | throws | dies => exact hsame rfl

end Run

end Posting

/-- In every committed state the balances are the postings; and where what is committed can be
read, the reads return the sums. -/
theorem fundsBalance_run (hashtext : Uuid → ℤ) (es : List (Step Unit FundStatement)) :
    Throughout (fundService hashtext).step (fun s => FundsBalance s.db.postings.committed)
        ((fundService hashtext).start .empty) es ∧
      (Along (fundService hashtext).step CommitsReadable ((fundService hashtext).start .empty) es →
        Throughout (fundService hashtext).step (fun s => ReadsExactly s.db.postings.committed)
          ((fundService hashtext).start .empty) es) := by
  constructor
  · have hall : Along (fundService hashtext).step (fun _ _ => True)
        ((fundService hashtext).start .empty) es :=
      along_of_invariant (I := fun _ => True) (fun _ _ _ _ _ => trivial) (fun _ _ _ => trivial)
        trivial es
    exact throughout_of_along (I := (Posting.fundsOutline hashtext).Holds)
      (fun _ h => Posting.fundsBalance_of_sound h.sound)
      (fun _ _ _ h _ hstep => Posting.holds_step h hstep) (Posting.holds_start hashtext) hall
  · intro hreadable
    refine throughout_of_along
      (I := fun s => (Posting.fundsOutline hashtext).Holds s ∧
        Posting.Readable s.db.postings.committed) ?_ ?_ ?_ hreadable
    · exact fun s h => Posting.readsExactly h.1.sound.chained h.2.1 h.2.2
    · exact fun s e s' h hm hstep =>
        ⟨Posting.holds_step h.1 hstep, Posting.readable_step h.2 hm hstep⟩
    · refine ⟨Posting.holds_start hashtext, ?_, ?_⟩
      · intro x hx
        cases hx
      · intro x hx
        cases hx

/-! ## What the service posts -/

instance (rows : List FundPostingEntity) : Decidable (OneComponent rows) := by
  unfold OneComponent
  infer_instance

instance (rows : List FundPostingEntity) : Decidable (SafeSums rows) := by
  unfold SafeSums
  infer_instance

instance (s : System FundDb ℤ FundPlace) (e : Step Unit FundStatement) :
    Decidable (CommitsReadable s e) := by
  unfold CommitsReadable
  split <;> infer_instance

namespace OneOrder

def orderHash (orderId : Uuid) : ℤ := orderId

/-- A posting of the order. -/
def posting (id journalId : Uuid) (account : FundPostingAccount) (component : Option String)
    (amountToman : ℤ) (seq : ℕ) (balanceAfter : ℤ) : FundPostingEntity :=
  ⟨id, journalId, 1, ⟨.professional, 7⟩, account, component, amountToman, seq, balanceAfter⟩

/-- A transaction with one journal. -/
def journal (pid : ℕ) (key : FundJournalKey) (postings : List FundPostingEntity) :
    List (Step Unit FundStatement) :=
  [⟨pid, .start ()⟩, ⟨pid, .statement (.lockOrder 1)⟩,
    ⟨pid, .statement (.insertJournal ⟨pid, .collection, key, 1⟩)⟩] ++
    postings.map (fun row => ⟨pid, .statement (.insertPosting row)⟩) ++ [⟨pid, .statement .commit⟩]

/-- A collection, and a refund of a part of it. -/
def refunded : List (Step Unit FundStatement) :=
  journal 0 (.collection 1) [posting 1 0 .pending none 800 1 800,
    posting 2 0 .collected none (-800) 1 800] ++
  journal 1 (.refund 1) [posting 3 1 .refunded none 300 1 300,
    posting 4 1 .pending none (-300) 2 500]

/-- One journal that earns the platform two components. -/
def components : List (Step Unit FundStatement) :=
  journal 0 (.collection 1) [posting 1 0 .platformEarned (some "booking_commission") 500 1 500,
    posting 2 0 .platformEarned (some "acquisition") 300 1 300,
    posting 3 0 .collected none (-800) 1 800]

end OneOrder

theorem fundsBalance_run_refunded :
    Throughout (fundService OneOrder.orderHash).step
      (fun s => ReadsExactly s.db.postings.committed)
      ((fundService OneOrder.orderHash).start .empty) OneOrder.refunded :=
  (fundsBalance_run OneOrder.orderHash OneOrder.refunded).2 (by decide +kernel)

/-- The read of the order returns one component of the account. -/
theorem readsExactly_components_fails :
    ¬ ∀ (hashtext : Uuid → ℤ) (es : List (Step Unit FundStatement)),
      Throughout (fundService hashtext).step (fun s => ReadsExactly s.db.postings.committed)
        ((fundService hashtext).start .empty) es := by
  intro h
  obtain ⟨s, hs, hread, hsum⟩ : ∃ s ∈ runFrom (fundService OneOrder.orderHash).step
      ((fundService OneOrder.orderHash).start .empty) OneOrder.components,
        statesForOrder s.db.postings.committed 1 .platformEarned = some 500 ∧
        exactly (s.db.postings.committed.filter fun x =>
          x.orderId = 1 ∧ x.account = .platformEarned) = some 800 := by
    decide +kernel
  have hexact := ((h OneOrder.orderHash OneOrder.components).last hs).order _ (.refl _) 1
    .platformEarned
  rw [hread, hsum] at hexact
  cases hexact

end BeauClick.Financial
