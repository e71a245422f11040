import BeauClick.Credits.Ledger

/-!
# Booking credits are never overdrawn

Every debit is made under the advisory lock of its party.

* `ledger` — the outline: what a call relies on, and who holds the lock.
* `ledger_proof` — each statement keeps it.
* `neverOverdrawn_run` — no grant is spent beyond what it was given.
-/

namespace BeauClick.Credits

open Commerce Locks ReadCommitted ReadCommitted.Versioned Runs Transactions List

/-! ## The grants of a party -/

section Grants

variable {db : CreditDb} {pid : ℕ} {party : PartyRef} {g : Grant}

theorem mem_grantsOf (hu : db.grants.Untouched pid) :
    g ∈ grantsOf db pid party ↔ db.grants.committed g.1 = some g.2 ∧ g.2.subscriber = party := by
  rw [grantsOf, mem_insertionSort, mem_filterMap]
  constructor
  · rintro ⟨_, hid, hg⟩
    obtain ⟨row, hrow, rfl⟩ := Option.map_eq_some_iff.1 hg
    obtain ⟨row', hrow', hparty⟩ := (mem_select hu).1 hid
    rw [hu.get_eq] at hrow
    obtain rfl : row' = row := Option.some.inj (hrow'.symm.trans hrow)
    exact ⟨hrow, by simpa using hparty⟩
  · rintro ⟨hrow, hparty⟩
    refine ⟨g.1, (mem_select hu).2 ⟨g.2, hrow, by simpa using hparty⟩, ?_⟩
    rw [hu.get_eq, hrow]
    rfl

theorem map_fst_read (read : Uuid → Option BookingCreditGrantEntity) (ids : List Uuid) :
    ((ids.filterMap fun id => (read id).map fun g => (id, g)).map (·.1)) =
      ids.filter fun id => (read id).isSome := by
  induction ids with
  | nil => rfl
  | cons id ids ih =>
    cases hread : read id with
    | none | some => simp [hread, ih]

theorem nodup_grantsOf : ((grantsOf db pid party).map (·.1)).Nodup := by
  have hperm := (perm_insertionSort
    (fun a b : Grant => a.2.grantedAt < b.2.grantedAt ∨
      a.2.grantedAt = b.2.grantedAt ∧ a.1 ≤ b.1)
    ((db.grants.select pid fun g => g.subscriber = party).filterMap fun id =>
      (db.grants.get pid id).map fun g => (id, g))).map (·.1)
  refine hperm.nodup_iff.2 ?_
  rw [map_fst_read]
  exact (nodup_select _ _ _).filter _

theorem readGrants_grantsOf (hu : db.grants.Untouched pid) :
    ReadGrants db party (positiveGrants (grantsOf db pid party)) where
  nodup := nodup_grantsOf.sublist (filter_sublist.map _)
  committed := fun _ hg => (mem_grantsOf hu).1 (mem_of_mem_filter hg)

theorem granted_positiveGrants (grants : List Grant) :
    granted (positiveGrants grants) = granted grants := by
  induction grants with
  | nil => rfl
  | cons g grants ih =>
    by_cases hpos : 0 < g.2.quantity
    · have hcons : positiveGrants (g :: grants) = g :: positiveGrants grants :=
        filter_cons_of_pos (by simpa using hpos)
      rw [hcons, granted, map_cons, sum_cons]
      exact congrArg _ ih
    · have hcons : positiveGrants (g :: grants) = positiveGrants grants :=
        filter_cons_of_neg (by simpa using hpos)
      rw [hcons, ih, granted, granted, map_cons, sum_cons]
      omega

theorem granted_eq (hu : db.grants.Untouched pid) :
    granted (positiveGrants (grantsOf db pid party)) = grantedTo db party := by
  have hids : ((grantsOf db pid party).map (·.1)).toFinset = grantsTo db party := by
    ext id
    rw [mem_toFinset, mem_map, mem_grantsTo]
    constructor
    · rintro ⟨g, hg, rfl⟩
      exact ⟨g.2, (mem_grantsOf hu).1 hg⟩
    · rintro ⟨g, hg⟩
      exact ⟨(id, g), (mem_grantsOf hu).2 hg, rfl⟩
  have hqty : ∀ g ∈ grantsOf db pid party, g.2.quantity = quantityOf db g.1 := by
    intro g hg
    rw [quantityOf, ((mem_grantsOf hu).1 hg).1]
    rfl
  calc granted (positiveGrants (grantsOf db pid party))
      = granted (grantsOf db pid party) := granted_positiveGrants _
    _ = ((grantsOf db pid party).map fun g => quantityOf db g.1).sum :=
        congrArg List.sum (map_congr_left hqty)
    _ = (((grantsOf db pid party).map (·.1)).map fun id => quantityOf db id).sum := by
        rw [map_map]
        rfl
    _ = ∑ id ∈ ((grantsOf db pid party).map (·.1)).toFinset, quantityOf db id :=
        (sum_toFinset _ nodup_grantsOf).symm
    _ = grantedTo db party := by rw [hids, grantedTo]

end Grants

/-! ## Statements that go through -/

/-- What a statement that goes through keeps: it commits nothing, no two rows come into
conflict, the others keep what they have written, and the call may rely on what it goes on
with. -/
structure Goes (db : CreditDb) (pid : ℕ) (db' : CreditDb) (place : CreditPlace) : Prop where
  quiet : Quiet db db'
  bookings : db.consumptions.Apart SameBooking → db'.consumptions.Apart SameBooking
  returns : db.returns.Apart SameConsumption → db'.returns.Apart SameConsumption
  leaves : ∀ q, q ≠ pid → LeavesTo q db db'
  work : CreditWork db' pid place

section Shown

variable {hashtext : PartyRef → ℤ} {env : CreditEnv} {db db' : CreditDb} {pid : ℕ}
  {place at' : CreditPlace} {bookingId consumptionId : Uuid} {party : PartyRef}
  {cause : BookingCreditReturnCause} {subscription : SellerSubscriptionEntity} {grants : List Grant}

theorem goes_read (h : CreditWork db pid place) : Goes db pid db place :=
  ⟨.refl, id, id, fun _ _ => .refl, h⟩

/-- What is shown of every statement of a call: it keeps the lock it has, which it takes before
it has written or read anything, and where it commits, it has written what the place says. -/
abbrev Shown (hashtext : PartyRef → ℤ) (db : CreditDb) (pid : ℕ) (at' : CreditPlace) :
    CreditNext → Prop :=
  Next.Meets (fun db' place => Goes db pid db' place ∧ place.lockedParty = at'.lockedParty)
    (fun key mode place => CreditWork db pid place ∧
      ∃ party, place.lockedParty = some party ∧ key = hashtext party ∧ mode = .exclusive)
    (fun place => KeptByCommit db pid at' ∧ ∃ outcome, place = .returned outcome)
    fun place => place = .failed

theorem shown_insertGrant (h : NoWork db pid) :
    Shown hashtext db pid (.insertGrant subscription) (insertGrant env db pid subscription) := by
  unfold insertGrant
  split
  · trivial
  · rfl
  · rfl
  rename_i hdone
  obtain ⟨-, rfl, hlock, hnone, -⟩ := insert_eq_done hdone
  refine ⟨⟨⟨committed_write, rfl, rfl⟩, id, id, ?_, ?_⟩, rfl⟩
  · exact fun q hq => ⟨others_write hq hlock, .refl, .refl⟩
  · refine ⟨grantFor subscription env.now, ?_, ?_, h.consumptions, h.returns⟩
    · rw [row_write (h.grants _), hnone]
    · exact h.grants.onlyAt.write

theorem activeOn_eq (hw : WithinGrants db) {g : Grant} (hg : db.grants.committed g.1 = some g.2)
    (hparty : g.2.subscriber = party) :
    activeOn db g.1 = (activeOf db party).filter fun id => chargedGrant db id = some g.1 := by
  ext id
  rw [mem_activeOn, Finset.mem_filter, mem_activeOf, chargedGrant, Option.map_eq_some_iff]
  constructor
  · rintro ⟨⟨c, hc, hgrant⟩, hret⟩
    obtain ⟨_, hg', hparty', -⟩ := hw.charged id c hc
    rw [hgrant, hg] at hg'
    cases hg'
    exact ⟨⟨⟨c, hc, hparty'.symm.trans hparty⟩, hret⟩, c, hc, hgrant⟩
  · rintro ⟨⟨-, hret⟩, c, hc, hgrant⟩
    exact ⟨⟨c, hc, hgrant⟩, hret⟩

theorem shown_searchGrant (hw : WithinGrants db)
    (h : CreditWork db pid (.searchGrant bookingId party grants)) :
    Shown hashtext db pid (.searchGrant bookingId party grants)
      (searchGrant db pid bookingId party grants) := by
  obtain ⟨hno, hread, -⟩ := h
  unfold searchGrant
  split
  · exact ⟨goes_read hno, rfl⟩
  · rename_i chosen hchosen
    obtain ⟨hg, hparty⟩ := hread.committed chosen (mem_of_find?_eq_some hchosen)
    refine ⟨goes_read ⟨hno, hg, hparty, ?_⟩, rfl⟩
    have hroom := find?_some hchosen
    rw [activeConsumptionCountByGrant_eq hno.returns hno.consumptions, decide_eq_true_iff] at hroom
    rwa [activeOn_eq hw hg hparty]

theorem shown_insertConsumption {chosen : Grant}
    (h : CreditWork db pid (.insertConsumption bookingId party chosen)) :
    Shown hashtext db pid (.insertConsumption bookingId party chosen)
      (insertConsumption env db pid bookingId party chosen) := by
  unfold insertConsumption
  split
  · trivial
  · rfl
  · rfl
  rename_i hdone
  obtain ⟨-, rfl, hlock, hnone, hfree⟩ := insert_eq_done hdone
  have hquiet : Quiet db ⟨db.grants,
      db.consumptions.write pid env.newId (consumptionFor bookingId chosen), db.returns⟩ :=
    ⟨rfl, committed_write, rfl⟩
  refine ⟨⟨hquiet, ?_, id, ?_, ?_⟩, rfl⟩
  · exact fun hapart => hapart.write (fun _ _ hsame => Eq.symm hsame) hfree
  · exact fun q hq => ⟨.refl, others_write hq hlock, .refl⟩
  · refine ⟨bookingId, chosen, ?_, h.1.consumptions.onlyAt.write, h.1.grants, h.1.returns, ?_, rfl⟩
    · rw [row_write (h.1.consumptions _), hnone]
    · exact ⟨h.2.committed, h.2.subscriber,
        (activeOn_congr hquiet.consumptions hquiet.returns _).symm ▸ h.2.room⟩

theorem shown_insertReturn (hw : WithinGrants db) (h : NoWork db pid) :
    Shown hashtext db pid (.insertReturn consumptionId cause)
      (insertReturn env db pid consumptionId cause) := by
  unfold insertReturn
  split
  · trivial
  · rfl
  · exact ⟨kept_noWork hw h, _, rfl⟩
  · rename_i hdone
    obtain ⟨-, rfl, hlock, hnone, hfree⟩ := insert_eq_done hdone
    refine ⟨⟨⟨rfl, rfl, committed_write⟩, id, ?_, ?_, ?_⟩, rfl⟩
    · exact fun hapart => hapart.write (fun _ _ hsame => Eq.symm hsame) hfree
    · exact fun q hq => ⟨.refl, .refl, others_write hq hlock⟩
    · refine ⟨⟨consumptionId, cause⟩, ?_, h.returns.onlyAt.write, h.grants, h.consumptions⟩
      rw [row_write (h.returns _), hnone]

/-- What each statement of the ledger keeps. -/
theorem shown_statement (env : CreditEnv) (hw : WithinGrants db) (h : CreditWork db pid at') :
    Shown hashtext db pid at' (creditStatement hashtext env db pid at') := by
  cases at' with
  | idle | returned | failed => trivial
  | findGrant =>
    simp only [creditStatement, findGrant]
    split
    · exact ⟨kept_noWork hw h, _, rfl⟩
    · exact ⟨goes_read h, rfl⟩
  | insertGrant => exact shown_insertGrant h
  | commitGrant => exact ⟨kept_commitGrant hw h, _, rfl⟩
  | takeLock => exact ⟨h, _, rfl, rfl, rfl⟩
  | findExisting =>
    simp only [creditStatement, findExisting]
    split <;> exact ⟨goes_read h, rfl⟩
  | findGrants =>
    simp only [creditStatement, findGrants]
    split
    · exact ⟨goes_read h, rfl⟩
    · exact ⟨goes_read ⟨h, readGrants_grantsOf h.grants⟩, rfl⟩
  | countSpent =>
    simp only [creditStatement, countSpent]
    split
    · exact ⟨goes_read h.1, rfl⟩
    · rename_i hless
      rw [activeConsumptionCount_eq h.1.returns h.1.consumptions] at hless
      exact ⟨goes_read ⟨h.1, h.2, not_le.1 hless⟩, rfl⟩
  | searchGrant => exact shown_searchGrant hw h
  | insertConsumption => exact shown_insertConsumption h
  | commitConsumption =>
    exact ⟨kept_commitConsumption hw h, _, rfl⟩
  | commitLocked => exact ⟨kept_noWork hw h, _, rfl⟩
  | findConsumption =>
    simp only [creditStatement, findConsumption]
    split
    · exact ⟨kept_noWork hw h, _, rfl⟩
    · exact ⟨goes_read h, rfl⟩
  | findReturn =>
    simp only [creditStatement, findReturn]
    split
    · exact ⟨kept_noWork hw h, _, rfl⟩
    · exact ⟨goes_read h, rfl⟩
  | insertReturn => exact shown_insertReturn hw h
  | commitReturn => exact ⟨kept_commitReturn hw h, _, rfl⟩

end Shown

/-! ## The outline -/

/-- What holds of the ledger. -/
structure Sound (db : CreditDb) : Prop where
  within : WithinGrants db
  bookings : db.consumptions.Apart SameBooking
  returns : db.returns.Apart SameConsumption

/-- What calls may rely on: one of them at a time has locked a party. -/
def ledger (hashtext : PartyRef → ℤ) : Outline CreditDb ℤ CreditPlace CreditEnv where
  Assumes _ _ _ _ := True
  Sound := Sound
  Guarantee _ _ := True
  Work := CreditWork
  holds place key mode := ∃ party, place.lockedParty = some party ∧ key = hashtext party ∧
    mode = .exclusive

section Keeps

variable {hashtext : PartyRef → ℤ} {db db' : CreditDb} {pid : ℕ} {place place' : CreditPlace}

theorem noWork_empty : NoWork .empty pid := ⟨untouched_empty, untouched_empty, untouched_empty⟩

theorem sound_empty : Sound .empty where
  within := ⟨fun _ _ h => absurd h (by simp [CreditDb.empty]),
    fun _ _ h => absurd h (by simp [CreditDb.empty])⟩
  bookings := apart_empty
  returns := apart_empty

theorem ne_of_together (h : Together (ledger hashtext).holds place place') {party : PartyRef}
    (hp : place'.lockedParty = some party) : place.lockedParty ≠ some party := by
  intro hp'
  have hshared := (h _ _ _ ⟨party, hp', rfl, rfl⟩ ⟨party, hp, rfl, rfl⟩).1
  cases hshared

theorem not_holds (h : place.lockedParty = none) (key : ℤ) (mode : LockMode) :
    ¬(ledger hashtext).holds place key mode := by
  rintro ⟨_, hparty, -⟩
  rw [h] at hparty
  cases hparty

theorem keeps_goes (hs : Sound db) (hg : Goes db pid db' place') :
    (ledger hashtext).Keeps db pid place db' where
  sound := ⟨hg.quiet.within hs.within, hg.bookings hs.bookings, hg.returns hs.returns⟩
  guarantee := trivial
  others := fun q _ hq _ hw => CreditWork.frame hw (hg.leaves q hq) (hg.quiet.within hs.within)
    fun party _ => hg.quiet.steady party

theorem keeps_commit (hs : Sound db) (hk : KeptByCommit db pid place) :
    (ledger hashtext).Keeps db pid place (db.commit pid) where
  sound := ⟨hk.within, hs.bookings.commit, hs.returns.commit⟩
  guarantee := trivial
  others := by
    intro q place' hq htog hw
    have hne : pid ≠ q := fun h => hq h.symm
    exact CreditWork.frame hw ⟨others_commit hne.symm, others_commit hne.symm, others_commit hne.symm⟩ hk.within
      fun party hp => hk.steady party (ne_of_together htog hp)

theorem keeps_rollback (hs : Sound db) :
    (ledger hashtext).Keeps db pid place (db.rollback pid) where
  sound := ⟨quiet_rollback.within hs.within, hs.bookings.rollback, hs.returns.rollback⟩
  guarantee := trivial
  others := by
    intro q place' hq _ hw
    have hne : pid ≠ q := fun h => hq h.symm
    exact CreditWork.frame hw ⟨others_rollback hne.symm, others_rollback hne.symm, others_rollback hne.symm⟩
      (quiet_rollback.within hs.within) fun party _ => quiet_rollback.steady party

theorem noWork_commit : NoWork (db.commit pid) pid :=
  ⟨untouched_commit, untouched_commit, untouched_commit⟩

theorem noWork_rollback : NoWork (db.rollback pid) pid :=
  ⟨untouched_rollback, untouched_rollback, untouched_rollback⟩

/-- Each statement of the ledger keeps the grants. -/
theorem ledger_proof : Proof (bookingCredits hashtext) (ledger hashtext) where
  idle_holds := not_holds rfl
  first := by
    intro db pid request hw
    cases request
    · exact ⟨hw, not_holds rfl⟩
    · exact ⟨hw, not_holds rfl⟩
    · exact ⟨hw, not_holds rfl⟩
  goes := by
    intro env db pid place db' place' _ hs hw hst
    obtain ⟨hg, hparty⟩ := (shown_statement env hs.within hw).of_goes hst
    refine ⟨keeps_goes hs hg, hg.work, ?_⟩
    rintro key mode ⟨party, hlocked, hkey⟩
    exact ⟨party, hparty.symm.trans hlocked, hkey⟩
  locks := by
    intro env db pid place key mode place' _ hs hw hst
    obtain ⟨hw', _, hparty, rfl, rfl⟩ := (shown_statement env hs.within hw).of_locks hst
    refine ⟨hw', ?_⟩
    rintro key mode ⟨_, hparty', rfl, rfl⟩
    cases hparty.symm.trans hparty'
    exact Or.inr ⟨rfl, rfl⟩
  commits := by
    intro env db pid place place' _ hs hw hst
    obtain ⟨hk, _, rfl⟩ := (shown_statement env hs.within hw).of_commits hst
    exact ⟨keeps_commit hs hk, noWork_commit, not_holds rfl⟩
  throws := by
    intro env db pid place place' _ hs hw hst
    obtain rfl := (shown_statement env hs.within hw).of_throws hst
    exact ⟨keeps_rollback hs, noWork_rollback, not_holds rfl⟩
  dies := fun db pid place _ hs _ => ⟨keeps_rollback hs, noWork_rollback, not_holds rfl⟩

end Keeps

/-! ## Runs -/

/-- The outline holds after every run. -/
theorem holds_run {hashtext : PartyRef → ℤ} {es : List (Step CreditRequest CreditEnv)}
    {s : System CreditDb ℤ CreditPlace}
    (h : runFrom (bookingCredits hashtext).step ((bookingCredits hashtext).start .empty) es =
      some s) : (ledger hashtext).Holds s :=
  (ledger_proof.holds_run (ledger_proof.holds_start sound_empty fun _ => noWork_empty)
    (along_meets (fun _ _ _ _ => trivial) es) h).1

theorem chooseGrant_of_work {db : CreditDb} {pid : ℕ} {bookingId : Uuid} {party : PartyRef}
    {grants : List Grant} (h : CreditWork db pid (.searchGrant bookingId party grants)) :
    chooseGrant grants (activeConsumptionCountByGrant db pid party) ≠ none := by
  obtain ⟨hno, hread, hless⟩ := h
  rw [funext (activeConsumptionCountByGrant_eq hno.returns hno.consumptions)]
  exact chooseGrant_ne_none hread.nodup hless

/-- In every reachable state, no credit is spent twice or returned twice, and no grant and no
party is overdrawn; a search for a grant with room, of a call at work or of whoever reads the
ledger, finds one as long as less is active than was granted. -/
theorem neverOverdrawn_run {hashtext : PartyRef → ℤ} {es : List (Step CreditRequest CreditEnv)}
    {s : System CreditDb ℤ CreditPlace}
    (h : runFrom (bookingCredits hashtext).step ((bookingCredits hashtext).start .empty) es =
      some s) :
    NeverOverdrawn s.db ∧
      (∀ pid party, NoWork s.db pid → (activeOf s.db party).card < grantedTo s.db party →
        chooseGrant (positiveGrants (grantsOf s.db pid party))
          (activeConsumptionCountByGrant s.db pid party) ≠ none) ∧
      ∀ pid bookingId party grants, s.calls pid = .searchGrant bookingId party grants →
        chooseGrant grants (activeConsumptionCountByGrant s.db pid party) ≠ none := by
  have hi := holds_run h
  refine ⟨neverOverdrawn_of_within hi.sound.bookings hi.sound.returns hi.sound.within, ?_, ?_⟩
  · intro pid party hno hless
    rw [funext (activeConsumptionCountByGrant_eq hno.returns hno.consumptions)]
    refine chooseGrant_ne_none (readGrants_grantsOf hno.grants).nodup ?_
    rwa [granted_eq hno.grants]
  · intro pid bookingId party grants hat
    have hw : CreditWork s.db pid (s.calls pid) := hi.work pid
    rw [hat] at hw
    exact chooseGrant_of_work hw

/-- The next `n` statements. -/
def takes (pid n : ℕ) (newId : Uuid) : List (Step CreditRequest CreditEnv) :=
  List.replicate n ⟨pid, .statement ⟨0, newId⟩⟩

/-- A business has one credit.  Two bookings ask for it at the same time; the first one is
cancelled, and the credit goes to a third one. -/
def oneCredit : List (Step CreditRequest CreditEnv) :=
  [⟨0, .start (.issue ⟨1, ⟨.business, 7⟩, 1⟩)⟩] ++ takes 0 3 10 ++
    [⟨1, .start (.consume 100 ⟨.business, 7⟩)⟩, ⟨2, .start (.consume 101 ⟨.business, 7⟩)⟩] ++
    takes 1 7 11 ++ takes 2 5 12 ++
    [⟨3, .start (.giveBack 100 .sellerCancelled)⟩] ++ takes 3 4 13 ++
    [⟨4, .start (.consume 102 ⟨.business, 7⟩)⟩] ++ takes 4 7 14

theorem neverOverdrawn_run_oneCredit :
    ∃ s, runFrom (bookingCredits fun party => party.partyId).step
        ((bookingCredits fun party => party.partyId).start .empty) oneCredit = some s ∧
      s.calls 2 = .returned .insufficientCredit ∧ s.calls 4 = .returned (.consumed 14 10) ∧
      NeverOverdrawn s.db := by
  obtain ⟨s, hs, h2, h4⟩ : ∃ s ∈ runFrom (bookingCredits fun party => party.partyId).step
      ((bookingCredits fun party => party.partyId).start .empty) oneCredit,
      s.calls 2 = .returned .insufficientCredit ∧ s.calls 4 = .returned (.consumed 14 10) := by
    decide +kernel
  exact ⟨s, hs, h2, h4, (neverOverdrawn_run hs).1⟩

end BeauClick.Credits
