import BeauClick.Credits.Balance

/-!
# What a call of the credit ledger relies on

* `CreditWork` — what a call has read and written, place by place.
* `LeavesTo` — what the step of another call leaves.
* `Quiet`, `KeptByCommit` — when a commit overdraws no grant.
-/

namespace BeauClick.Credits

open Commerce ReadCommitted ReadCommitted.Versioned Option Function

/-! ## What a call has written -/

/-- The call has written nothing. -/
structure NoWork (db : CreditDb) (pid : ℕ) : Prop where
  grants : db.grants.Untouched pid
  consumptions : db.consumptions.Untouched pid
  returns : db.returns.Untouched pid

/-- Grants of the party that have been read; they do not change. -/
structure ReadGrants (db : CreditDb) (party : PartyRef) (grants : List Grant) : Prop where
  nodup : (grants.map (·.1)).Nodup
  committed : ∀ g ∈ grants, db.grants.committed g.1 = some g.2 ∧ g.2.subscriber = party

/-- The grant is the party's, and one more consumption is within it. -/
structure HasRoom (db : CreditDb) (party : PartyRef) (chosen : Grant) : Prop where
  committed : db.grants.committed chosen.1 = some chosen.2
  subscriber : chosen.2.subscriber = party
  room : (activeOn db chosen.1).card < chosen.2.quantity

/-- What a call has read and written, place by place. -/
def CreditWork (db : CreditDb) (pid : ℕ) : CreditPlace → Prop
  | .commitGrant grantId => ∃ g, db.grants.row grantId = ⟨none, some (pid, g)⟩ ∧
      db.grants.OnlyAt pid grantId ∧ db.consumptions.Untouched pid ∧ db.returns.Untouched pid
  | .countSpent _ party grants => NoWork db pid ∧ ReadGrants db party grants
  | .searchGrant _ party grants => NoWork db pid ∧ ReadGrants db party grants ∧
      (activeOf db party).card < granted grants
  | .insertConsumption _ party chosen => NoWork db pid ∧ HasRoom db party chosen
  | .commitConsumption party consumptionId grantId => ∃ bookingId chosen,
      db.consumptions.row consumptionId =
        ⟨none, some (pid, consumptionFor bookingId chosen)⟩ ∧
      db.consumptions.OnlyAt pid consumptionId ∧ db.grants.Untouched pid ∧
      db.returns.Untouched pid ∧ HasRoom db party chosen ∧ chosen.1 = grantId
  | .commitReturn returnId => ∃ r, db.returns.row returnId = ⟨none, some (pid, r)⟩ ∧
      db.returns.OnlyAt pid returnId ∧ db.grants.Untouched pid ∧ db.consumptions.Untouched pid
  | _ => NoWork db pid

/-! ## A step of another call -/

/-- What the step of another call leaves to a call. -/
structure LeavesTo (pid : ℕ) (db db' : CreditDb) : Prop where
  grants : db.grants.Others pid db'.grants
  consumptions : db.consumptions.Others pid db'.consumptions
  returns : db.returns.Others pid db'.returns

/-- Grants and returns stay, and nothing more is charged to the party. -/
structure Steady (party : PartyRef) (db db' : CreditDb) : Prop where
  grants : ∀ id g, db.grants.committed id = some g → db'.grants.committed id = some g
  consumptions : ∀ id c, db'.consumptions.committed id = some c → c.subscriber = party →
    db.consumptions.committed id = some c
  returned : ∀ id, Returned db id → Returned db' id

section Frame

variable {db db' : CreditDb} {pid : ℕ} {party : PartyRef}

theorem LeavesTo.refl : LeavesTo pid db db := ⟨.refl, .refl, .refl⟩

theorem NoWork.frame (h : NoWork db pid) (hl : LeavesTo pid db db') : NoWork db' pid :=
  ⟨hl.grants.untouched h.grants, hl.consumptions.untouched h.consumptions,
    hl.returns.untouched h.returns⟩

section

variable (hs : Steady party db db')
include hs

theorem ReadGrants.frame {grants : List Grant} (h : ReadGrants db party grants) :
    ReadGrants db' party grants :=
  ⟨h.nodup, fun g hg => ⟨hs.grants _ _ (h.committed g hg).1, (h.committed g hg).2⟩⟩

theorem Steady.activeOf_subset :
    activeOf db' party ⊆ activeOf db party := by
  intro id hid
  obtain ⟨⟨c, hc, hparty⟩, hret⟩ := mem_activeOf.1 hid
  exact mem_activeOf.2
    ⟨⟨c, hs.consumptions id c hc hparty, hparty⟩, fun hr => hret (hs.returned id hr)⟩

theorem HasRoom.frame {chosen : Grant} (h : HasRoom db party chosen)
    (hw : WithinGrants db') : HasRoom db' party chosen where
  committed := hs.grants _ _ h.committed
  subscriber := h.subscriber
  room := by
    refine lt_of_le_of_lt (Finset.card_le_card ?_) h.room
    intro id hid
    obtain ⟨⟨c, hc, hgrant⟩, hret⟩ := mem_activeOn.1 hid
    obtain ⟨g, hg, hparty, -⟩ := hw.charged id c hc
    have hchosen : g = chosen.2 := by
      rw [hgrant, hs.grants _ _ h.committed] at hg
      exact (some.inj hg).symm
    have hsame : c.subscriber = party := by
      rw [← hparty, hchosen, h.subscriber]
    exact mem_activeOn.2
      ⟨⟨c, hs.consumptions id c hc hsame, hgrant⟩, fun hr => hret (hs.returned id hr)⟩

end

theorem CreditWork.frame {place : CreditPlace} (h : CreditWork db pid place)
    (hl : LeavesTo pid db db') (hw : WithinGrants db')
    (hs : ∀ party, place.lockedParty = some party → Steady party db db') :
    CreditWork db' pid place := by
  cases place with
  | commitGrant =>
    obtain ⟨g, hrow, honly, hc, hr⟩ := h
    exact ⟨g, hl.grants.row_of hrow, hl.grants.onlyAt honly, hl.consumptions.untouched hc,
      hl.returns.untouched hr⟩
  | countSpent bookingId party =>
    exact ⟨h.1.frame hl, h.2.frame (hs party rfl)⟩
  | searchGrant bookingId party =>
    obtain ⟨hno, hread, hless⟩ := h
    exact ⟨hno.frame hl, hread.frame (hs party rfl),
      lt_of_le_of_lt (Finset.card_le_card (hs party rfl).activeOf_subset) hless⟩
  | insertConsumption bookingId party =>
    exact ⟨h.1.frame hl, h.2.frame (hs party rfl) hw⟩
  | commitConsumption party =>
    obtain ⟨bookingId, chosen, hrow, honly, hg, hr, hroom, hid⟩ := h
    exact ⟨bookingId, chosen, hl.consumptions.row_of hrow, hl.consumptions.onlyAt honly,
      hl.grants.untouched hg, hl.returns.untouched hr, hroom.frame (hs party rfl) hw, hid⟩
  | commitReturn =>
    obtain ⟨r, hrow, honly, hg, hc⟩ := h
    exact ⟨r, hl.returns.row_of hrow, hl.returns.onlyAt honly, hl.grants.untouched hg,
      hl.consumptions.untouched hc⟩
  | _ => exact NoWork.frame h hl

end Frame

/-! ## Commits -/

section Commit

variable {db db' : CreditDb} {pid : ℕ}

/-- What a commit keeps: the ledger is within its grants, and to every party that the call has
not locked nothing is charged. -/
structure KeptByCommit (db : CreditDb) (pid : ℕ) (place : CreditPlace) : Prop where
  within : WithinGrants (db.commit pid)
  steady : ∀ party, place.lockedParty ≠ some party → Steady party db (db.commit pid)

theorem returned_congr (h : db'.returns.committed = db.returns.committed) (id : Uuid) :
    Returned db' id ↔ Returned db id := by
  rw [Returned, Returned, h]

theorem activeOn_congr (hc : db'.consumptions.committed = db.consumptions.committed)
    (hr : db'.returns.committed = db.returns.committed) (grantId : Uuid) :
    activeOn db' grantId = activeOn db grantId := by
  ext id
  rw [mem_activeOn, mem_activeOn, hc, returned_congr hr]

/-- Nothing is committed. -/
structure Quiet (db db' : CreditDb) : Prop where
  grants : db'.grants.committed = db.grants.committed
  consumptions : db'.consumptions.committed = db.consumptions.committed
  returns : db'.returns.committed = db.returns.committed

theorem Quiet.refl : Quiet db db := ⟨rfl, rfl, rfl⟩

theorem Quiet.within (h : Quiet db db') (hw : WithinGrants db) : WithinGrants db' where
  charged := by
    rw [h.grants, h.consumptions]
    exact hw.charged
  room := by
    rw [h.grants]
    intro grantId g hgrant
    rw [activeOn_congr h.consumptions h.returns]
    exact hw.room grantId g hgrant

theorem Quiet.steady (h : Quiet db db') (party : PartyRef) : Steady party db db' where
  grants := by
    rw [h.grants]
    exact fun _ _ h => h
  consumptions := by
    rw [h.consumptions]
    exact fun _ _ h _ => h
  returned := fun id => (returned_congr h.returns id).2

theorem quiet_rollback : Quiet db (db.rollback pid) :=
  ⟨committed_rollback, committed_rollback, committed_rollback⟩

theorem quiet_commit (h : NoWork db pid) : Quiet db (db.commit pid) :=
  ⟨h.grants.committed_commit, h.consumptions.committed_commit,
    h.returns.committed_commit⟩

section

variable (hw : WithinGrants db)
include hw

theorem kept_noWork {place : CreditPlace} (h : NoWork db pid) :
    KeptByCommit db pid place :=
  ⟨(quiet_commit h).within hw, fun party _ => (quiet_commit h).steady party⟩

theorem kept_commitGrant {grantId : Uuid} (h : CreditWork db pid (.commitGrant grantId)) :
    KeptByCommit db pid (.commitGrant grantId) := by
  obtain ⟨g, hrow, honly, huc, hur⟩ := h
  have hg : (db.commit pid).grants.committed =
      update db.grants.committed grantId (some g) :=
    committed_commit_of_onlyAt (wrote_of_row hrow) honly
  have hc : (db.commit pid).consumptions.committed = db.consumptions.committed :=
    huc.committed_commit
  have hr : (db.commit pid).returns.committed = db.returns.committed :=
    hur.committed_commit
  have hkeep : ∀ id g', db.grants.committed id = some g' →
      (db.commit pid).grants.committed id = some g' := by
    intro id g' hg'
    have hne : id ≠ grantId := by
      rintro rfl
      rw [committed_of_row hrow] at hg'
      cases hg'
    rw [hg, update_of_ne hne]
    exact hg'
  refine ⟨⟨?_, ?_⟩, ?_⟩
  · intro id c hcomm
    rw [hc] at hcomm
    obtain ⟨g', hg', hrest⟩ := hw.charged id c hcomm
    exact ⟨g', hkeep _ _ hg', hrest⟩
  · intro id g' hg'
    rw [activeOn_congr hc hr]
    by_cases hid : id = grantId
    · subst hid
      have hempty : activeOn db id = ∅ := by
        refine Finset.eq_empty_of_forall_notMem ?_
        intro cid hcid
        obtain ⟨⟨c, hcomm, rfl⟩, -⟩ := mem_activeOn.1 hcid
        obtain ⟨_, hg'', -⟩ := hw.charged cid c hcomm
        rw [committed_of_row hrow] at hg''
        cases hg''
      rw [hempty]
      exact Nat.zero_le _
    · rw [hg, update_of_ne hid] at hg'
      exact hw.room id g' hg'
  · intro party _
    refine ⟨hkeep, ?_, ?_⟩
    · rw [hc]
      exact fun _ _ h _ => h
    · exact fun id => (returned_congr hr id).2

theorem kept_commitConsumption {party : PartyRef} {consumptionId grantId : Uuid}
    (h : CreditWork db pid (.commitConsumption party consumptionId grantId)) :
    KeptByCommit db pid (.commitConsumption party consumptionId grantId) := by
  obtain ⟨bookingId, chosen, hrow, honly, hug, hur, hroom, -⟩ := h
  have hc : (db.commit pid).consumptions.committed =
      update db.consumptions.committed consumptionId
        (some (consumptionFor bookingId chosen)) :=
    committed_commit_of_onlyAt (wrote_of_row hrow) honly
  have hg : (db.commit pid).grants.committed = db.grants.committed :=
    hug.committed_commit
  have hr : (db.commit pid).returns.committed = db.returns.committed :=
    hur.committed_commit
  have hcases : ∀ id c, (db.commit pid).consumptions.committed id = some c →
      id = consumptionId ∧ c = consumptionFor bookingId chosen ∨
        db.consumptions.committed id = some c := by
    intro id c hcomm
    rw [hc] at hcomm
    by_cases hid : id = consumptionId
    · subst hid
      rw [update_self] at hcomm
      exact Or.inl ⟨rfl, (some.inj hcomm).symm⟩
    · rw [update_of_ne hid] at hcomm
      exact Or.inr hcomm
  refine ⟨⟨?_, ?_⟩, ?_⟩
  · intro id c hcomm
    rw [hg]
    rcases hcases id c hcomm with ⟨-, rfl⟩ | hcomm
    · exact ⟨chosen.2, hroom.committed, rfl, rfl, rfl⟩
    · exact hw.charged id c hcomm
  · intro id g hgrant
    rw [hg] at hgrant
    by_cases hid : id = chosen.1
    · subst hid
      obtain rfl : chosen.2 = g := some.inj (hroom.committed.symm.trans hgrant)
      have hsubset : activeOn (db.commit pid) chosen.1 ⊆
          insert consumptionId (activeOn db chosen.1) := by
        intro cid hcid
        obtain ⟨⟨c, hcomm, hon⟩, hret⟩ := mem_activeOn.1 hcid
        rcases hcases cid c hcomm with ⟨rfl, -⟩ | hcomm
        · exact Finset.mem_insert_self _ _
        · exact Finset.mem_insert_of_mem
            (mem_activeOn.2 ⟨⟨c, hcomm, hon⟩, fun h => hret ((returned_congr hr cid).2 h)⟩)
      calc (activeOn (db.commit pid) chosen.1).card
          ≤ (insert consumptionId (activeOn db chosen.1)).card := Finset.card_le_card hsubset
        _ ≤ (activeOn db chosen.1).card + 1 := Finset.card_insert_le _ _
        _ ≤ chosen.2.quantity := hroom.room
    · refine le_trans (Finset.card_le_card ?_) (hw.room id g hgrant)
      intro cid hcid
      obtain ⟨⟨c, hcomm, hon⟩, hret⟩ := mem_activeOn.1 hcid
      rcases hcases cid c hcomm with ⟨-, rfl⟩ | hcomm
      · exact absurd hon.symm hid
      exact mem_activeOn.2 ⟨⟨c, hcomm, hon⟩, fun h => hret ((returned_congr hr cid).2 h)⟩
  · intro party' hparty
    refine ⟨?_, ?_, ?_⟩
    · rw [hg]
      exact fun _ _ h => h
    · intro id c hcomm hsame
      rcases hcases id c hcomm with ⟨-, rfl⟩ | hcomm
      · exact absurd (congrArg some (hroom.subscriber.symm.trans hsame)) hparty
      · exact hcomm
    · exact fun id => (returned_congr hr id).2

theorem kept_commitReturn {returnId : Uuid} (h : CreditWork db pid (.commitReturn returnId)) :
    KeptByCommit db pid (.commitReturn returnId) := by
  obtain ⟨r, hrow, honly, hug, huc⟩ := h
  have hr : (db.commit pid).returns.committed =
      update db.returns.committed returnId (some r) :=
    committed_commit_of_onlyAt (wrote_of_row hrow) honly
  have hg : (db.commit pid).grants.committed = db.grants.committed :=
    hug.committed_commit
  have hc : (db.commit pid).consumptions.committed = db.consumptions.committed :=
    huc.committed_commit
  have hreturned : ∀ id, Returned db id → Returned (db.commit pid) id := by
    rintro id ⟨rid, r', hr', rfl⟩
    refine ⟨rid, r', ?_, rfl⟩
    have hne : rid ≠ returnId := by
      rintro rfl
      rw [committed_of_row hrow] at hr'
      cases hr'
    rw [hr, update_of_ne hne]
    exact hr'
  refine ⟨⟨?_, ?_⟩, ?_⟩
  · rw [hg, hc]
    exact hw.charged
  · intro id g hgrant
    rw [hg] at hgrant
    refine le_trans (Finset.card_le_card ?_) (hw.room id g hgrant)
    intro cid hcid
    obtain ⟨⟨c, hcomm, hon⟩, hret⟩ := mem_activeOn.1 hcid
    rw [hc] at hcomm
    exact mem_activeOn.2 ⟨⟨c, hcomm, hon⟩, fun h => hret (hreturned cid h)⟩
  · intro party _
    refine ⟨?_, ?_, hreturned⟩
    · rw [hg]
      exact fun _ _ h => h
    · rw [hc]
      exact fun _ _ h _ => h

end

end Commit

end BeauClick.Credits
