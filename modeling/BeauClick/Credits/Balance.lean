import BeauClick.Credits.Accounting
import Mathlib.Algebra.Order.BigOperators.Group.Finset

/-!
# Balances

What the committed rows of the ledger amount to, as finite sets of consumptions.
-/

namespace BeauClick.Credits

open Commerce ReadCommitted ReadCommitted.Versioned List

open scoped Classical

/-! ## Consumptions that have not been returned -/

/-- The consumption has been returned. -/
def Returned (db : CreditDb) (consumptionId : Uuid) : Prop :=
  ∃ id r, db.returns.committed id = some r ∧ r.consumptionId = consumptionId

/-- The committed consumptions. -/
noncomputable def consumptions (db : CreditDb) : Finset Uuid :=
  db.consumptions.keys.toFinset.filter fun id => ∃ c, db.consumptions.committed id = some c

/-- Those that have not been returned. -/
noncomputable def active (db : CreditDb) : Finset Uuid :=
  (consumptions db).filter fun id => ¬Returned db id

/-- Whom a consumption is charged to. -/
def chargedParty (db : CreditDb) (consumptionId : Uuid) : Option PartyRef :=
  (db.consumptions.committed consumptionId).map (·.subscriber)

/-- The grant that a consumption is charged on. -/
def chargedGrant (db : CreditDb) (consumptionId : Uuid) : Option Uuid :=
  (db.consumptions.committed consumptionId).map (·.grantId)

/-- The party's active consumptions. -/
noncomputable def activeOf (db : CreditDb) (party : PartyRef) : Finset Uuid :=
  (active db).filter fun id => chargedParty db id = some party

/-- The active consumptions on a grant. -/
noncomputable def activeOn (db : CreditDb) (grantId : Uuid) : Finset Uuid :=
  (active db).filter fun id => chargedGrant db id = some grantId

/-- All consumptions on a grant. -/
noncomputable def consumptionsOn (db : CreditDb) (grantId : Uuid) : Finset Uuid :=
  (consumptions db).filter fun id => chargedGrant db id = some grantId

/-- The returns of consumptions on a grant. -/
noncomputable def returnsOn (db : CreditDb) (grantId : Uuid) : Finset Uuid :=
  db.returns.keys.toFinset.filter fun id => ∃ r, db.returns.committed id = some r ∧
    chargedGrant db r.consumptionId = some grantId

/-- The committed grants of a party. -/
noncomputable def grantsTo (db : CreditDb) (party : PartyRef) : Finset Uuid :=
  db.grants.keys.toFinset.filter fun id => ∃ g, db.grants.committed id = some g ∧
    g.subscriber = party

/-- What a grant confers. -/
def quantityOf (db : CreditDb) (grantId : Uuid) : ℕ :=
  ((db.grants.committed grantId).map (·.quantity)).getD 0

/-- What was granted to a party. -/
noncomputable def grantedTo (db : CreditDb) (party : PartyRef) : ℕ :=
  ∑ id ∈ grantsTo db party, quantityOf db id

section Members

variable {db : CreditDb} {id grantId : Uuid} {party : PartyRef}

theorem mem_consumptions : id ∈ consumptions db ↔ ∃ c, db.consumptions.committed id = some c := by
  rw [consumptions, Finset.mem_filter, mem_toFinset]
  exact ⟨fun h => h.2, fun ⟨c, hc⟩ => ⟨mem_keys_of_committed hc, c, hc⟩⟩

theorem mem_active : id ∈ active db ↔ (∃ c, db.consumptions.committed id = some c) ∧
    ¬Returned db id := by
  rw [active, Finset.mem_filter, mem_consumptions]

theorem mem_activeOf : id ∈ activeOf db party ↔ (∃ c, db.consumptions.committed id = some c ∧
    c.subscriber = party) ∧ ¬Returned db id := by
  rw [activeOf, Finset.mem_filter, mem_active, chargedParty, Option.map_eq_some_iff]
  constructor
  · rintro ⟨⟨-, hret⟩, c, hc, hparty⟩
    exact ⟨⟨c, hc, hparty⟩, hret⟩
  · rintro ⟨⟨c, hc, hparty⟩, hret⟩
    exact ⟨⟨⟨c, hc⟩, hret⟩, c, hc, hparty⟩

theorem mem_activeOn : id ∈ activeOn db grantId ↔ (∃ c, db.consumptions.committed id = some c ∧
    c.grantId = grantId) ∧ ¬Returned db id := by
  rw [activeOn, Finset.mem_filter, mem_active, chargedGrant, Option.map_eq_some_iff]
  constructor
  · rintro ⟨⟨-, hret⟩, c, hc, hgrant⟩
    exact ⟨⟨c, hc, hgrant⟩, hret⟩
  · rintro ⟨⟨c, hc, hgrant⟩, hret⟩
    exact ⟨⟨⟨c, hc⟩, hret⟩, c, hc, hgrant⟩

theorem mem_grantsTo : id ∈ grantsTo db party ↔
    ∃ g, db.grants.committed id = some g ∧ g.subscriber = party := by
  rw [grantsTo, Finset.mem_filter, mem_toFinset]
  exact ⟨fun h => h.2, fun ⟨g, hg, hparty⟩ => ⟨mem_keys_of_committed hg, g, hg, hparty⟩⟩

end Members

/-! ## The queries -/

section Queries

variable {db : CreditDb} {pid : ℕ} {party : PartyRef}

section

variable (hr : db.returns.Untouched pid)
include hr

theorem isReturned_iff (id : Uuid) :
    isReturned db pid id = true ↔ Returned db id := by
  rw [isReturned, decide_eq_true_iff]
  constructor
  · intro hne
    obtain ⟨rid, hrid⟩ := exists_mem_of_ne_nil _ hne
    have hsel := (mem_filter.1 hrid).2
    rw [hr.get_eq] at hsel
    cases hc : db.returns.committed rid with
    | none => rw [hc] at hsel; cases hsel
    | some r =>
      rw [hc] at hsel
      exact ⟨rid, r, hc, by simpa using hsel⟩
  · rintro ⟨rid, _, hc, hid⟩
    refine ne_nil_of_mem (a := rid) (mem_filter.2 ⟨mem_keys_of_committed hc, ?_⟩)
    rw [hr.get_eq, hc]
    simpa using hid

theorem activeConsumptionCount_eq (hu : db.consumptions.Untouched pid) :
    activeConsumptionCount db pid party = (activeOf db party).card := by
  have hnodup : ((db.consumptions.select pid fun c => c.subscriber = party).filter
      fun id => ¬isReturned db pid id).Nodup := (nodup_select _ _ _).filter _
  rw [activeConsumptionCount, ← toFinset_card_of_nodup hnodup]
  congr 1
  ext id
  rw [mem_toFinset, mem_filter, mem_select hu, mem_activeOf, ← isReturned_iff hr]
  simp

theorem activeConsumptionCountByGrant_eq (hu : db.consumptions.Untouched pid) (grantId : Uuid) :
    activeConsumptionCountByGrant db pid party grantId =
      ((activeOf db party).filter fun id => chargedGrant db id = some grantId).card := by
  have hnodup : ((db.consumptions.select pid fun c => c.subscriber = party ∧
      c.grantId = grantId).filter fun id => ¬isReturned db pid id).Nodup :=
    (nodup_select _ _ _).filter _
  rw [activeConsumptionCountByGrant, ← toFinset_card_of_nodup hnodup]
  congr 1
  ext id
  rw [mem_toFinset, mem_filter, mem_select hu, Finset.mem_filter, mem_activeOf,
    ← isReturned_iff hr, chargedGrant]
  cases hc : db.consumptions.committed id with
  | none => simp
  | some => simp [and_right_comm]

end

end Queries

/-! ## A grant with room -/

section Room

variable {db : CreditDb} {party : PartyRef}

theorem sum_perGrant_le (S : Finset Uuid) (ids : Finset Uuid) :
    ∑ grantId ∈ ids, (S.filter fun id => chargedGrant db id = some grantId).card ≤ S.card := by
  have hdisj : (ids : Set Uuid).PairwiseDisjoint
      fun grantId => S.filter fun id => chargedGrant db id = some grantId := by
    intro g _ h _ hne
    refine Finset.disjoint_left.2 ?_
    intro id hg hh
    have hsame := (Finset.mem_filter.1 hg).2.symm.trans (Finset.mem_filter.1 hh).2
    exact hne (Option.some.inj hsame)
  rw [← Finset.card_biUnion hdisj]
  refine Finset.card_le_card ?_
  intro id hid
  obtain ⟨_, -, hmem⟩ := Finset.mem_biUnion.1 hid
  exact (Finset.mem_filter.1 hmem).1

/-- Where less is active than the grants confer together, one of them has room: otherwise the
active consumptions on each would be as many as it confers. -/
theorem chooseGrant_ne_none {grants : List Grant} (hnodup : (grants.map (·.1)).Nodup)
    (h : (activeOf db party).card < granted grants) :
    chooseGrant grants (fun grantId =>
      ((activeOf db party).filter fun id => chargedGrant db id = some grantId).card) ≠ none := by
  intro hnone
  have hfull : ∀ g ∈ grants, g.2.quantity ≤
      ((activeOf db party).filter fun id => chargedGrant db id = some g.1).card := by
    intro g hg
    have hnot := find?_eq_none.1 hnone g hg
    simpa using hnot
  have hle : granted grants ≤ (activeOf db party).card := by
    calc granted grants
        ≤ (grants.map fun g =>
            ((activeOf db party).filter fun id => chargedGrant db id = some g.1).card).sum :=
          sum_le_sum hfull
      _ = ((grants.map (·.1)).map fun grantId =>
            ((activeOf db party).filter fun id => chargedGrant db id = some grantId).card).sum := by
          rw [map_map]
          rfl
      _ = ∑ grantId ∈ (grants.map (·.1)).toFinset,
            ((activeOf db party).filter fun id => chargedGrant db id = some grantId).card :=
          (sum_toFinset _ hnodup).symm
      _ ≤ (activeOf db party).card := sum_perGrant_le _ _
  exact absurd h (not_lt.2 hle)

end Room

/-! ## What the ledger promises -/

/-- No credit is spent twice or returned twice, and no grant and no party is overdrawn. -/
structure NeverOverdrawn (db : CreditDb) : Prop where
  consumedOnce : ∀ id id' c c', db.consumptions.committed id = some c →
    db.consumptions.committed id' = some c' → c.bookingId = c'.bookingId → id = id'
  returnedOnce : ∀ id id' r r', db.returns.committed id = some r →
    db.returns.committed id' = some r' → r.consumptionId = r'.consumptionId → id = id'
  grant : ∀ grantId g, db.grants.committed grantId = some g →
    ((consumptionsOn db grantId).card : ℤ) - (returnsOn db grantId).card ≤ g.quantity
  balance : ∀ party, (0 : ℤ) ≤ grantedTo db party - (activeOf db party).card

/-- Every consumption is charged on a grant of the charged party, and no grant has more active
consumptions than it confers. -/
structure WithinGrants (db : CreditDb) : Prop where
  charged : ∀ id c, db.consumptions.committed id = some c →
    ∃ g, db.grants.committed c.grantId = some g ∧ g.subscriber = c.subscriber ∧
      g.subscriptionId = c.subscriptionId ∧ g.periodIndex = c.periodIndex
  room : ∀ grantId g, db.grants.committed grantId = some g →
    (activeOn db grantId).card ≤ g.quantity

section Promise

variable {db : CreditDb}

theorem consumptionsOn_card_le (db : CreditDb) (grantId : Uuid) :
    (consumptionsOn db grantId).card ≤ (activeOn db grantId).card + (returnsOn db grantId).card := by
  have hsplit : consumptionsOn db grantId ⊆ activeOn db grantId ∪
      (returnsOn db grantId).image fun id =>
        ((db.returns.committed id).map (·.consumptionId)).getD 0 := by
    intro id hid
    obtain ⟨hmem, hgrant⟩ := Finset.mem_filter.1 hid
    obtain ⟨c, hc⟩ := mem_consumptions.1 hmem
    by_cases hret : Returned db id
    · obtain ⟨rid, r, hr, rfl⟩ := hret
      refine Finset.mem_union_right _ (Finset.mem_image.2 ⟨rid, ?_, ?_⟩)
      · exact Finset.mem_filter.2
          ⟨mem_toFinset.2 (mem_keys_of_committed hr), r, hr, hgrant⟩
      · rw [hr]
        rfl
    · refine Finset.mem_union_left _ (mem_activeOn.2 ⟨⟨c, hc, ?_⟩, hret⟩)
      rw [chargedGrant, hc] at hgrant
      exact Option.some.inj hgrant
  calc (consumptionsOn db grantId).card
      ≤ (activeOn db grantId ∪ (returnsOn db grantId).image fun id =>
          ((db.returns.committed id).map (·.consumptionId)).getD 0).card :=
        Finset.card_le_card hsplit
    _ ≤ (activeOn db grantId).card + ((returnsOn db grantId).image fun id =>
          ((db.returns.committed id).map (·.consumptionId)).getD 0).card :=
        Finset.card_union_le _ _
    _ ≤ (activeOn db grantId).card + (returnsOn db grantId).card :=
        Nat.add_le_add_left Finset.card_image_le _

theorem activeOf_card_le (h : WithinGrants db) (party : PartyRef) :
    (activeOf db party).card ≤ grantedTo db party := by
  have hsubset : activeOf db party ⊆ (grantsTo db party).biUnion fun grantId =>
      activeOn db grantId := by
    intro id hid
    obtain ⟨⟨c, hc, rfl⟩, hret⟩ := mem_activeOf.1 hid
    obtain ⟨g, hg, hparty, -⟩ := h.charged id c hc
    exact Finset.mem_biUnion.2
      ⟨c.grantId, mem_grantsTo.2 ⟨g, hg, hparty⟩, mem_activeOn.2 ⟨⟨c, hc, rfl⟩, hret⟩⟩
  calc (activeOf db party).card
      ≤ ((grantsTo db party).biUnion fun grantId => activeOn db grantId).card :=
        Finset.card_le_card hsubset
    _ ≤ ∑ grantId ∈ grantsTo db party, (activeOn db grantId).card := Finset.card_biUnion_le
    _ ≤ ∑ grantId ∈ grantsTo db party, quantityOf db grantId := by
        refine Finset.sum_le_sum ?_
        intro grantId hmem
        obtain ⟨g, hg, -⟩ := mem_grantsTo.1 hmem
        rw [quantityOf, hg]
        exact h.room grantId g hg

theorem neverOverdrawn_of_within (hbook : db.consumptions.Apart SameBooking)
    (hreturn : db.returns.Apart SameConsumption) (h : WithinGrants db) : NeverOverdrawn db where
  consumedOnce := fun _ _ _ _ hc hc' hsame => hbook.committed hc hc' hsame
  returnedOnce := fun _ _ _ _ hr hr' hsame => hreturn.committed hr hr' hsame
  grant := by
    intro grantId g hg
    have hroom := h.room grantId g hg
    have hcard := consumptionsOn_card_le db grantId
    omega
  balance := by
    intro party
    have hcard := activeOf_card_le h party
    omega

end Promise

end BeauClick.Credits
