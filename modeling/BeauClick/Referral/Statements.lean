import BeauClick.Referral.Kept

/-!
# Each statement of the referral rewards

* `Passes` — a statement keeps the tables and what the other calls rely on.
* `ReversingWork.advance` — a reversal goes from one side to the other.
* One `shown_` lemma for each group of statements.
-/

namespace BeauClick.Referral

open AtTurn Option Function

open Commerce Locks ReadCommitted ReadCommitted.Versioned Transactions ReferralAttributionEntity

variable {month : Instant → Option Period} {customer : Uuid → Uuid} {env : ReferralEnv}
  {db db' : ReferralDb} {p : ℕ} {place place' : ReferralPlace}

/-! ## Keeping -/

/-- The statement of a call brings it to a place. -/
structure Passes (month : Instant → Option Period) (customer : Uuid → Uuid) (db : ReferralDb)
    (p : ℕ) (place : ReferralPlace) (db' : ReferralDb) (place' : ReferralPlace) : Prop where
  keeps : (rewarding month customer).Keeps db p place db'
  work : Work month customer db' p place'
  holds : ∀ k m, Holds place' k m → Holds place k m

/-- A call that throws has failed. -/
abbrev Failed : ReferralPlace → Prop
  | .failed => True
  | _ => False

/-- What the proof of one statement has to give. -/
abbrev Shown (month : Instant → Option Period) (customer : Uuid → Uuid) (db : ReferralDb) (p : ℕ)
    (place : ReferralPlace) : Next ReferralDb Uuid ReferralPlace → Prop :=
  Next.Meets (Passes month customer db p place)
    (fun key mode place' => Work month customer db p place' ∧
      ∀ k m, Holds place' k m → k = key ∧ m = mode)
    (fun place' => (rewarding month customer).Keeps db p place (db.commit p) ∧
      Work month customer (db.commit p) p place' ∧ ∀ k m, ¬Holds place' k m)
    Failed

theorem keeps_of_beside (hs : Sound month customer db') (hb : ∀ q ≠ p, Beside q db db')
    (hlocked : ∀ place', Together Holds place place' → ∀ o m, Holds place' o m → ∀ s,
      db.orders.committed o = some s → db'.orders.committed o = some s) :
    (rewarding month customer).Keeps db p place db' where
  sound := hs
  guarantee := trivial
  others := fun q place' hq htog hw => work_beside hw (hb q hq) (hlocked place' htog)

theorem keeps_refl (hs : Sound month customer db) :
    (rewarding month customer).Keeps db p place db :=
  keeps_of_beside hs (fun q _ => beside_refl q db) fun _ _ _ _ _ _ h => h

section Keeps

variable {k : Uuid} {c x : ReferralAttributionEntity} {side : RewardSide}

section

variable (hs : Sound month customer db)
include hs

theorem keeps_referrals {x' : ReferralAttributionEntity}
    (hver : (db.referrals.row k).Version x') (hid : x.id = x'.id)
    (hlock : ¬(db.referrals.row k).Locked p) :
    (rewarding month customer).Keeps db p place
      { db with referrals := db.referrals.write p k x } := by
  refine keeps_of_beside ?_ (fun _ hq => beside_referrals hq hlock) fun _ _ _ _ _ _ h => h
  refine hs.of_committed committed_write rfl rfl rfl rfl rfl rfl ?_ hs.source
  exact hs.id.write_of_imp (fun _ _ h => h.symm) hver fun v hv => hid ▸ hv

theorem keeps_referrerCounters {key : Uuid × Period} {n : ℕ}
    (hlock : ¬(db.referrerCounters.row key).Locked p) :
    (rewarding month customer).Keeps db p place
      { db with referrerCounters := db.referrerCounters.write p key n } :=
  keeps_of_beside (hs.of_committed rfl committed_write rfl rfl rfl rfl rfl hs.id hs.source)
    (fun _ hq => beside_referrerCounters hq hlock) fun _ _ _ _ _ _ h => h

section

variable (howns : Owns db p k c x)
include howns

theorem keeps_rewardGrants {g : RewardGrantEntity}
    (hlock : ¬(db.rewardGrants.row (x.id, side)).Locked p) :
    (rewarding month customer).Keeps db p place
      { db with rewardGrants := db.rewardGrants.write p (x.id, side) g } :=
  keeps_of_beside (hs.of_committed rfl rfl committed_write rfl rfl rfl rfl hs.id hs.source)
    (fun _ hq => beside_rewardGrants hq (howns.alone hs.id) hlock) fun _ _ _ _ _ _ h => h

theorem keeps_pointsEntries {reason : LoyaltyReason} {e : PointsEntryEntity}
    (hlock : ¬(db.pointsEntries.row (x.id, reason)).Locked p) :
    (rewarding month customer).Keeps db p place
      { db with pointsEntries := db.pointsEntries.write p (x.id, reason) e } :=
  keeps_of_beside (hs.of_committed rfl rfl rfl committed_write rfl rfl rfl hs.id hs.source)
    (fun _ hq => beside_pointsEntries hq (howns.alone hs.id) hlock) fun _ _ _ _ _ _ h => h

theorem keeps_rewardReversals {r : RewardReversalEntity}
    (hlock : ¬(db.rewardReversals.row (x.id, side)).Locked p) :
    (rewarding month customer).Keeps db p place
      { db with rewardReversals := db.rewardReversals.write p (x.id, side) r } :=
  keeps_of_beside (hs.of_committed rfl rfl rfl rfl committed_write rfl rfl hs.id hs.source)
    (fun _ hq => beside_rewardReversals hq (howns.alone hs.id) hlock) fun _ _ _ _ _ _ h => h

end

theorem keeps_outbox {e : ReferralEvent} :
    (rewarding month customer).Keeps db p place
      { db with outbox := db.outbox.append p e } :=
  keeps_of_beside (hs.of_committed rfl rfl rfl rfl rfl rfl rfl hs.id hs.source)
    (fun _ hq => beside_outbox hq) fun _ _ _ _ _ _ h => h

end

end Keeps

/-! ## Inserts -/

section Insert

variable {κ α : Type} [DecidableEq κ] {t t' : Versioned ℕ κ α} {k : κ} {x y : α}

theorem insert_done (h : t.insert p k x (fun _ => False) = .done y t') :
    t' = t.write p k x ∧ ¬(t.row k).Locked p := by
  obtain ⟨-, rfl, hlock, -, -⟩ := insert_eq_done h
  exact ⟨rfl, hlock⟩

theorem insertOnce_won (h : insertOnce t p k x = .won t') :
    t' = t.write p k x ∧ ¬(t.row k).Locked p := by
  unfold insertOnce at h
  split at h
  · cases h
  · rename_i y t₁ hins
    cases h
    exact insert_done hins
  · cases h

theorem insertOnce_lost (h : insertOnce t p k x = .lost) : t.get p k ≠ none := by
  intro hget
  unfold insertOnce at h
  by_cases hlock : (t.row k).Locked p
  · rw [Versioned.insert, if_pos hlock] at h
    cases h
  · rw [insert_eq_of_get hlock hget, writeChecked_of_free fun _ _ _ _ => id] at h
    cases h

theorem chargeReferrerCap_charged {t t' : Versioned ℕ (Uuid × Period) ℕ} {key : Uuid × Period}
    {withinCap : Bool} (h : chargeReferrerCap t p key = .charged withinCap t') :
    ∃ n, t' = t.write p key n ∧ ¬(t.row key).Locked p ∧
      (withinCap = true ∧ (t.get p key).getD 0 < referralMonthlyCap ∧
          n = (t.get p key).getD 0 + 1 ∨
        withinCap = false ∧ t.get p key = some n ∧ referralMonthlyCap ≤ n) := by
  unfold chargeReferrerCap at h
  split at h
  · cases h
  rename_i hlock
  split at h
  · rename_i hget
    cases h
    exact ⟨1, rfl, hlock, Or.inl ⟨rfl, by simp [hget, referralMonthlyCap], by simp [hget]⟩⟩
  · rename_i n hget
    split at h
    · rename_i hlt
      cases h
      exact ⟨n + 1, rfl, hlock, Or.inl ⟨rfl, by simpa [hget] using hlt, by simp [hget]⟩⟩
    · rename_i hge
      cases h
      exact ⟨n, rfl, hlock, Or.inr ⟨rfl, hget, Nat.not_lt.1 hge⟩⟩

end Insert

/-! ## The qualification -/

section Qualify

variable {q : Qualification} {side : RewardSide} {k : Uuid} {c : ReferralAttributionEntity}

theorem Quiet.sideSeen (h : Quiet db p) (id : Uuid) (side : RewardSide) :
    db.sideSeen p id side = db.side id side := by
  simp only [ReferralDb.sideSeen, ReferralDb.side, h.rewardGrants.get_eq,
    h.pointsEntries.get_eq, h.rewardReversals.get_eq]

theorem owns_write {x : ReferralAttributionEntity} (h : Clean db p)
    (hc : db.referrals.committed k = some c)
    (hsame : x.id = c.id ∧ x.refereeUserId = c.refereeUserId ∧
      ∀ side, x.recipient side = c.recipient side) :
    Owns { db with referrals := db.referrals.write p k x } p k c x where
  row := by
    rw [row_write (h.referrals k), h.referrals.get_eq, hc]
  only := h.referrals.onlyAt.write
  same := hsame
  rewardGrants := fun key hkey => absurd hkey (h.rewardGrants key)
  pointsEntries := fun key hkey => absurd hkey (h.pointsEntries key)
  rewardReversals := fun key hkey => absurd hkey (h.rewardReversals key)
  orders := h.orders

section

variable (hs : Sound month customer db)
include hs

theorem shown_qualify {bookingId : Uuid} (hw : Work month customer db p (.qualify bookingId)) :
    Shown month customer db p (.qualify bookingId)
      (qualifyStatement month customer env db p (.qualify bookingId)) := by
  obtain ⟨hclean, hcompl⟩ := hw
  simp only [qualifyStatement]
  split
  · trivial
  · exact ⟨keeps_refl hs, ⟨hclean, trivial⟩, fun _ _ h => h⟩
  · trivial
  · rename_i x t hupd
    split
    · obtain ⟨c, hget, ⟨hpend, -⟩, hlock, rfl, rfl⟩ := update_eq_done hupd
      have hc := hget
      rw [hclean.referrals.get_eq] at hc
      refine ⟨keeps_referrals hs (version_of_get hget) rfl hlock, ?_, fun _ _ h => h⟩
      refine ⟨hclean.referrerCounters, hclean.outbox, hcompl, c, hpend, rfl, rfl,
        (hs.referee _ c hc).symm, owns_write hclean hc ⟨rfl, rfl, fun side => ?_⟩, ?_⟩
      · cases side <;> rfl
      · intro side
        have hacct := hs.account _ c hc
        rw [Account, hpend] at hacct
        have hseen := hclean.sideSeen c.id side
        exact hseen ▸ hacct side
    · trivial

theorem shown_charge {w : Won} (hw : Work month customer db p (.charge w)) :
    Shown month customer db p (.charge w)
      (qualifyStatement month customer env db p (.charge w)) := by
  obtain ⟨hctrs, hpend, hcompl, c, hc, hid, hreferrer, hreferee, howns, hsides⟩ := hw
  simp only [qualifyStatement]
  split
  · trivial
  rename_i period hmonth
  split
  · trivial
  rename_i withinCap t hcharge
  obtain ⟨n, rfl, hlock, hn⟩ := chargeReferrerCap_charged hcharge
  refine ⟨keeps_referrerCounters hs hlock, ?_, fun _ _ h => h⟩
  have hfair : (w.decide withinCap env.referrerPoints env.refereePoints).Fair := by
    refine ⟨rfl, ?_⟩
    cases withinCap
    · exact Or.inl rfl
    · exact Or.inr rfl
  refine ⟨hfair, ⟨period, _, n, hmonth, row_write (hctrs _),
    hctrs.onlyAt.write, ?_⟩, hcompl, hpend, c, hc, ⟨hid, ?_⟩,
    howns.write_referrerCounters, ?_⟩
  · rcases hn with ⟨rfl, hlt, hn⟩ | ⟨rfl, hn, hspent⟩
    · refine Or.inl ⟨?_, hlt, hn⟩
      simp only [Won.decide, if_true, payable]
      split_ifs <;> simp
    · exact Or.inr ⟨rfl, hn, hspent⟩
  · intro side
    cases side with
    | referrer => exact hreferrer
    | referee => exact hreferee
  · refine begin _ fun side => ?_
    have hsame : (w.decide withinCap env.referrerPoints env.refereePoints).referralId = c.id :=
      hid
    rw [hsame]
    exact hsides side

theorem shown_grant (env : ReferralEnv) (hw : Work month customer db p (.grant q side)) :
    Shown month customer db p (.grant q side)
      (qualifyStatement month customer env db p (.grant q side)) := by
  obtain ⟨hfair, hcharge, hcompl, hpend, c, hc, hof, howns, hsides⟩ := hw
  have hid : q.referralId = (c.qualify q.qualifiedAt q.qualifyingBookingId).id := hof.referralId
  simp only [qualifyStatement]
  split
  · rename_i hchk
    split
    · trivial
    · rename_i y t hins
      obtain ⟨rfl, hlock⟩ := insert_done hins
      refine ⟨?_, ⟨hchk, hfair, hcharge, hcompl, hpend, c, hc, hof, ?_, ?_⟩,
        fun _ _ h => h⟩
      · rw [hid] at hlock ⊢
        exact keeps_rewardGrants hs howns hlock
      · rw [hid]
        exact howns.write_rewardGrants
      · refine update _ _ hsides (fun side' hne => sideSeen_rewardGrants_ne hne) ?_
        have hfresh : (db.sideSeen p q.referralId side).Fresh := atTurn_self.1 (hsides side)
        rw [sideSeen_rewardGrants, hfresh]
        rfl
    · trivial
  · trivial

end

theorem qualifying_next (hfair : q.Fair) (hcharge : Charged month db' p q)
    (hcompl : q.qualifyingBookingId ∈ db'.completed) (hpend : db'.outbox.pending p = [])
    (hc : c.state = .pending) (hof : q.Of c) (howns : Owns db' p (customer q.qualifyingBookingId) c
      (c.qualify q.qualifiedAt q.qualifyingBookingId))
    (hsides : ∀ side', AtTurn side (complete q) (complete q) (fun _ => SideView.Fresh) side'
      (db'.sideSeen p q.referralId side')) : Work month customer db' p (q.next side) := by
  cases side with
  | referrer =>
    exact ⟨hfair, hcharge, hcompl, hpend, c, hc, hof, howns, second _ hsides id⟩
  | referee =>
    exact ⟨hfair, hcharge, hcompl, hpend, c, hc, hof, howns, all _ hsides id⟩

theorem holds_next {m : LockMode} (h : Holds (q.next side) k m) : False := by
  cases side <;> exact h

theorem shown_award (hs : Sound month customer db) (hw : Work month customer db p (.award q side)) :
    Shown month customer db p (.award q side)
      (qualifyStatement month customer env db p (.award q side)) := by
  obtain ⟨hchk, hfair, hcharge, hcompl, hpend, c, hc, hof, howns, hsides⟩ := hw
  have hid : q.referralId = (c.qualify q.qualifiedAt q.qualifyingBookingId).id := hof.referralId
  have hgrant : (db.sideSeen p q.referralId side).Granted q side :=
    atTurn_self.1 (hsides side)
  simp only [qualifyStatement]
  split
  · rename_i hpayable
    split
    · trivial
    · rename_i hlost
      refine absurd ?_ (insertOnce_lost hlost)
      exact congrArg SideView.reward hgrant
    · rename_i t hwon
      obtain ⟨rfl, hlock⟩ := insertOnce_won hwon
      refine ⟨?_, ?_, fun _ _ h => (holds_next h).elim⟩
      · rw [hid] at hlock ⊢
        exact keeps_pointsEntries hs howns hlock
      · refine qualifying_next hfair hcharge hcompl hpend hc hof ?_ ?_
        · rw [hid]
          exact howns.write_pointsEntries
        · refine update _ _ hsides (fun side' hne => sideSeen_reward_ne hne) ?_
          rw [sideSeen_reward, hgrant]
          refine ⟨⟨rfl, fun _ => ⟨hchk.1 hpayable.1, _, le_pointsMultiplierBp _, rfl⟩,
            fun hne => absurd hpayable.1 hne⟩, rfl, rfl⟩
  · rename_i hunpaid
    refine ⟨keeps_refl hs, ?_, fun _ _ h => (holds_next h).elim⟩
    refine qualifying_next hfair hcharge hcompl hpend hc hof howns ?_
    refine update _ _ hsides (fun _ _ => rfl) ?_
    rw [hgrant]
    refine ⟨⟨rfl, ?_, fun _ => rfl⟩, rfl, rfl⟩
    intro hawarded
    have hpos : 0 < q.points side := hchk.1 hawarded
    exact absurd ⟨hawarded, hpos.ne'⟩ hunpaid

theorem shown_emitQualified (env : ReferralEnv) (hs : Sound month customer db)
    (hw : Work month customer db p (.emitQualified q)) :
    Shown month customer db p (.emitQualified q)
      (qualifyStatement month customer env db p (.emitQualified q)) := by
  obtain ⟨hfair, hcharge, hcompl, hpend, c, hc, hof, howns, hsides⟩ := hw
  simp only [qualifyStatement]
  refine ⟨keeps_outbox hs, ⟨hfair, hcharge, hcompl, ?_, c, hc, hof, howns.append_outbox,
    hsides⟩, fun _ _ h => h⟩
  rw [Journal.pending_append_self, hpend]
  rfl

end Qualify

/-! ## The transactions around it -/

section Orders

theorem shown_attribute {x : ReferralAttributionEntity} (hs : Sound month customer db)
    (hw : Clean db p) :
    Shown month customer db p (.attribute x) (orderStatement db p (.attribute x)) := by
  simp only [orderStatement]
  split
  · trivial
  · rename_i y t hins
    obtain ⟨-, rfl, hlock, hget, hfree⟩ := insert_eq_done hins
    rw [hw.referrals.get_eq] at hget
    have hnew : ∀ k y, db.referrals.committed k = some y → y.id ≠ x.id := by
      intro k y hy hid
      by_cases hk : k = x.refereeUserId
      · rw [hk, hget] at hy
        cases hy
      · exact hfree k hk y (Or.inl hy) hid
    have hput := committed_put (t := db.referrals) (p := p) (k := x.refereeUserId)
      (x := { x with state := .pending }) hw.referrals
    have hsound : Sound month customer
        { db with
          referrals := db.referrals.put p x.refereeUserId { x with state := .pending } } := by
      refine hs.replace hput ?_ ?_ rfl ?_ (fun _ _ _ => rfl) (fun _ h => h) (fun _ h _ => h) ?_ ?_
        hs.tally rfl ?_ hs.source
      · intro y hy
        exact absurd (hget.symm.trans hy) (by simp)
      · intro k y hy hid
        exact absurd hid (hnew k y hy)
      · intro b hb
        cases hb
      · intro q hq hid
        obtain ⟨k, y, hy, hyid, -⟩ := hs.event q hq
        exact absurd (hyid.trans hid) (hnew k y hy)
      · intro side
        by_contra hfresh
        obtain ⟨k, y, hy, hid⟩ := hs.known x.id side hfresh
        exact hnew k y hy hid
      · refine (hs.id.write (fun _ _ h => h.symm) ?_).commit
        intro k hk v hv hid
        exact hfree k hk v hv hid.symm
    refine ⟨keeps_of_beside hsound ?_ fun _ _ _ _ _ _ h => h, ?_, fun _ _ h => h⟩
    · intro q hq
      exact
        { referrals := others_put hq hw.referrals hlock
          referrerCounters := .refl
          rewardGrants := .refl
          pointsEntries := .refl
          rewardReversals := .refl
          pending := rfl
          committed := fun _ h => h
          orders := .refl
          grows := .of_eq rfl
          completed := fun _ h => h
          rows := fun _ _ _ => ⟨fun _ => rfl, fun _ => rfl, fun _ => rfl⟩
          settled := by
            rintro orderId ⟨s, hsome, hfull, hall⟩
            refine ⟨s, hsome, hfull, ?_⟩
            intro b hsrc k y hy hb
            replace hy := (congrFun hput k).symm.trans hy
            by_cases hk : k = x.refereeUserId
            · rw [hk, update_self] at hy
              cases hy
              cases hb
            · rw [update_of_ne hk] at hy
              exact hall b hsrc k y hy hb }
    · exact ⟨⟨untouched_put, hw.referrerCounters, hw.rewardGrants, hw.pointsEntries,
        hw.rewardReversals, hw.outbox⟩, hw.orders⟩
  · trivial

theorem Settled.orders {orderId : Uuid} (h : Settled db orderId) (hgrows : Grows db db')
    (hrefls : db'.referrals.committed = db.referrals.committed) : Settled db' orderId := by
  obtain ⟨s, hs, hfull, hall⟩ := h
  obtain ⟨s', hs', hprog⟩ := hgrows.old orderId s hs
  refine ⟨s', hs', hprog.refunded hfull, ?_⟩
  intro b hsrc
  rw [hrefls]
  exact hall b ((hprog.source _ _).1 hsrc)

section

variable (hs : Sound month customer db)
include hs

theorem shown_placeOrder {n : NewOrder} (hw : Clean db p) :
    Shown month customer db p (.placeOrder n) (orderStatement db p (.placeOrder n)) := by
  simp only [orderStatement]
  split
  · trivial
  rename_i hopen
  split
  · trivial
  · rename_i y t hins
    obtain ⟨-, rfl, hlock, hget, hfree⟩ := insert_eq_done hins
    rw [hw.orders.get_eq] at hget
    have hput := committed_put (t := db.orders) (p := p) (k := n.id) (x := n.store) hw.orders
    have hcases : ∀ orderId s, (db.orders.put p n.id n.store).committed orderId = some s →
        orderId = n.id ∧ s = n.store ∨ db.orders.committed orderId = some s := by
      intro orderId s hsome
      rw [hput] at hsome
      by_cases hk : orderId = n.id
      · rw [hk, update_self] at hsome
        exact Or.inl ⟨hk, (some.inj hsome).symm⟩
      · rw [update_of_ne hk] at hsome
        exact Or.inr hsome
    have hkept : ∀ orderId s, db.orders.committed orderId = some s →
        (db.orders.put p n.id n.store).committed orderId = some s := by
      intro orderId s hsome
      rw [hput, update_of_ne, hsome]
      rintro rfl
      cases hget.symm.trans hsome
    have hgrows : Grows db { db with orders := db.orders.put p n.id n.store } := by
      refine ⟨?_, ?_⟩
      · exact fun orderId s hsome => ⟨s, hkept orderId s hsome, .refl s⟩
      · intro orderId s hsome hnone b hb hsrc
        rcases hcases orderId s hsome with ⟨-, rfl⟩ | hold
        · obtain ⟨o, ho, htype, rfl⟩ := hsrc
          cases ho
          exact hopen ⟨htype, hb⟩
        · cases hnone.symm.trans hold
    have hsound : Sound month customer { db with orders := db.orders.put p n.id n.store } := by
      refine hs.orders rfl rfl (fun _ _ => rfl) rfl hgrows ?_ hs.id ?_
      · intro orderId s hsome
        rcases hcases orderId s hsome with ⟨-, rfl⟩ | hold
        · exact orderSound_store n
        · exact hs.order orderId s hold
      · refine (hs.source.write (fun _ _ h => h.symm) ?_).commit
        rintro k hk v hv ⟨_, _, ⟨_, ho, rfl, rfl⟩, hv'⟩
        cases ho
        exact hfree k hk v hv hv'
    refine ⟨keeps_of_beside hsound ?_ ?_, ?_, fun _ _ h => h⟩
    · intro q hq
      exact
        { referrals := .refl
          referrerCounters := .refl
          rewardGrants := .refl
          pointsEntries := .refl
          rewardReversals := .refl
          pending := rfl
          committed := fun _ h => h
          orders := others_put hq hw.orders hlock
          grows := hgrows
          completed := fun _ h => h
          rows := fun _ _ _ => ⟨fun _ => rfl, fun _ => rfl, fun _ => rfl⟩
          settled := fun _ h => h.orders hgrows rfl }
    · exact fun _ _ orderId _ _ s hsome => hkept orderId s hsome
    · exact ⟨⟨hw.referrals, hw.referrerCounters, hw.rewardGrants, hw.pointsEntries,
        hw.rewardReversals, hw.outbox⟩, untouched_put⟩
  · trivial

theorem shown_completeBooking {bookingId : Uuid} (hw : Clean db p) :
    Shown month customer db p (.completeBooking bookingId)
      (orderStatement db p (.completeBooking bookingId)) := by
  exact ⟨keeps_of_beside (hs.of_committed rfl rfl rfl rfl rfl rfl rfl hs.id hs.source)
    (fun _ _ => beside_completed) fun _ _ _ _ _ _ h => h,
    ⟨⟨hw.referrals, hw.referrerCounters, hw.rewardGrants, hw.pointsEntries, hw.rewardReversals,
      hw.outbox⟩, hw.orders⟩, fun _ _ h => h⟩

theorem shown_orderLocked {orderId : Uuid} {op : OrderOperation} (hw : Clean db p) :
    Shown month customer db p (.orderLocked orderId op)
      (orderStatement db p (.orderLocked orderId op)) := by
  simp only [orderStatement]
  split
  · trivial
  rename_i s hget
  split
  · trivial
  rename_i s' hrun
  split
  · trivial
  · rename_i y t hupd
    obtain ⟨_, -, -, hlock, -, rfl⟩ := update_eq_done hupd
    have hcomm := hget
    rw [hw.orders.get_eq] at hcomm
    obtain ⟨hsound, hprog⟩ := run_cases (hs.order orderId s hcomm) hrun
    have hrow : (db.orders.write p orderId s').row orderId = ⟨some s, some (p, s')⟩ := by
      rw [row_write (hw.orders orderId), hget]
    refine ⟨keeps_of_beside ?_ (fun _ hq => beside_orders hq hlock) ?_, ?_, fun _ _ h => h⟩
    · refine hs.of_committed rfl rfl rfl rfl rfl rfl committed_write hs.id ?_
      refine hs.source.write_of_imp (fun _ _ h => h.symm) (version_of_get hget) ?_
      rintro v ⟨sourceType, sourceId, hsrc, hv⟩
      exact ⟨sourceType, sourceId, (hprog.source _ _).1 hsrc, hv⟩
    · intro _ _ o _ _ s hsome
      exact (congrFun committed_write o).trans hsome
    · exact ⟨⟨hw.referrals, hw.referrerCounters, hw.rewardGrants, hw.pointsEntries,
        hw.rewardReversals, hw.outbox⟩, hw.orders.onlyAt.write, s, s', hrow, hsound, hprog⟩
  · trivial

end

end Orders

/-! ## The order that is read -/

section Lookup

variable {q : Qualification} {orderId : Uuid} {index : ℕ}

theorem shown_findBookingOrder (hs : Sound month customer db)
    (hw : Work month customer db p (.findBookingOrder q)) :
    Shown month customer db p (.findBookingOrder q) (lookupStatement db p (.findBookingOrder q)) := by
  obtain ⟨-, -, -, -, _, -, -, howns, -⟩ := id hw
  simp only [lookupStatement]
  split
  · rename_i hnone
    refine ⟨keeps_refl hs, ⟨hw, ?_⟩, fun _ _ h => h⟩
    intro orderId s hsome hsrc
    have hmem : orderId ∈ db.orders.select p fun s => HasSource .booking q.qualifyingBookingId s :=
      (mem_select howns.orders).2 ⟨s, hsome, decide_eq_true hsrc⟩
    rw [hnone] at hmem
    cases hmem
  · rename_i key _ hsome
    have hmem : key ∈ db.orders.select p fun s => HasSource .booking q.qualifyingBookingId s := by
      rw [hsome]
      exact List.mem_cons_self
    obtain ⟨s, hs, hsrc⟩ := (mem_select howns.orders).1 hmem
    exact ⟨⟨hw, s, hs, of_decide_eq_true hsrc⟩, fun _ _ h => h⟩

theorem shown_readBookingOrder (hs : Sound month customer db)
    (hw : Work month customer db p (.readBookingOrder q orderId)) :
    Shown month customer db p (.readBookingOrder q orderId)
      (lookupStatement db p (.readBookingOrder q orderId)) := by
  obtain ⟨hqualifying, s, hsome, hsrc⟩ := hw
  obtain ⟨-, -, -, -, _, -, -, howns, -⟩ := id hqualifying
  have hget : db.orders.get p orderId = some s := by rw [howns.orders.get_eq, hsome]
  simp only [lookupStatement]
  split
  · rename_i hfull
    obtain ⟨_, hs', hfull⟩ := hfull
    cases hget.symm.trans hs'
    exact ⟨keeps_refl hs, ⟨⟨s, hsome, hsrc, hfull⟩, trivial, rfl, hqualifying⟩,
      fun _ _ h => h.elim⟩
  · rename_i hopen
    exact ⟨keeps_refl hs, ⟨hqualifying, s, hsome, hsrc, fun hfull => hopen ⟨s, hget, hfull⟩⟩,
      fun _ _ h => h⟩

theorem shown_findOrder (hw : Work month customer db p (.findOrder orderId index)) :
    Shown month customer db p (.findOrder orderId index)
      (lookupStatement db p (.findOrder orderId index)) := by
  obtain ⟨hclean, _, hsome, -⟩ := id hw
  simp only [lookupStatement]
  split
  · rename_i hnone
    rw [hclean.orders.get_eq, hsome] at hnone
    cases hnone
  · exact ⟨hw, fun _ _ h => h.elim⟩

theorem shown_readOrder (hs : Sound month customer db)
    (hw : Work month customer db p (.readOrder orderId index)) :
    Shown month customer db p (.readOrder orderId index)
      (lookupStatement db p (.readOrder orderId index)) := by
  obtain ⟨hclean, s, hsome, hlt⟩ := hw
  have hsound := hs.order orderId s hsome
  simp only [lookupStatement, hclean.orders.get_eq, hsome, bind_some]
  split
  · rename_i hnone
    exact absurd hnone hsound.placed
  · rename_i o ho
    split
    · rename_i hfull
      refine ⟨keeps_refl hs, ⟨⟨s, hsome, ⟨o, ho, hfull.2, rfl⟩, o, ho, hfull.1⟩, rfl, hclean, s,
        hsome, hlt⟩, fun _ _ h => h.elim⟩
    · rename_i hother
      refine ⟨keeps_refl hs, ⟨hclean, s, hsome, hlt, ?_⟩, fun _ _ h => h⟩
      intro hfinal
      have hfull := hsound.fullyRefunded hfinal
      refine ⟨s, hsome, hfull, ?_⟩
      rintro b ⟨_, ho₁, htype, -⟩
      obtain ⟨_, ho₂, hstat⟩ := hfull
      cases ho.symm.trans ho₁
      cases ho.symm.trans ho₂
      exact absurd ⟨hstat, htype⟩ hother

end Lookup

/-! ## The reversal -/

section Reverse

variable {h : Handling} {v : Reversing} {turn : Turn} {c x : ReferralAttributionEntity}
  {bookingId orderId k : Uuid} {now : Instant} {ks : List Uuid} {q : Qualification}
  {d : SideReversal}

theorem reverse_of_qualified {qualifiedAt : Instant}
    (hc : c.state = .qualified qualifiedAt bookingId) :
    c.reverse now orderId = { c with state := .reversed qualifiedAt bookingId now orderId } := by
  unfold reverse
  rw [hc]

theorem qualifiedBy_iff :
    x.qualifiedBy bookingId = true ↔ ∃ qualifiedAt, x.state = .qualified qualifiedAt bookingId := by
  unfold qualifiedBy
  split
  · rename_i hx
    simp [hx]
  · rename_i hx
    refine iff_of_false (by simp) ?_
    rintro ⟨qualifiedAt, heq⟩
    exact hx qualifiedAt bookingId heq

theorem eq_singleton_of_nodup (hnodup : ks.Nodup) (hall : ∀ k' ∈ ks, k' = k) (hne : ks ≠ []) :
    ks = [k] := by
  obtain ⟨a, rest, rfl⟩ := List.exists_cons_of_ne_nil hne
  obtain rfl := hall a List.mem_cons_self
  cases rest with
  | nil => rfl
  | cons b =>
    obtain rfl := hall b (List.mem_cons_of_mem _ List.mem_cons_self)
    exact absurd List.mem_cons_self (List.nodup_cons.1 hnodup).1

theorem Owns.write_referrals {x' : ReferralAttributionEntity} (howns : Owns db p k c x)
    (hsame : x'.id = x.id ∧ x'.refereeUserId = x.refereeUserId ∧
      ∀ side, x'.recipient side = x.recipient side) :
    Owns { db with referrals := db.referrals.write p k x' } p k c x' where
  row := by
    rw [row_write_self, Row.write, howns.row]
  only := howns.only.write
  same := ⟨hsame.1.trans howns.same.1, hsame.2.1.trans howns.same.2.1,
    fun side => (hsame.2.2 side).trans (howns.same.2.2 side)⟩
  rewardGrants := fun key hkey => (howns.rewardGrants key hkey).trans hsame.1.symm
  pointsEntries := fun key hkey => (howns.pointsEntries key hkey).trans hsame.1.symm
  rewardReversals := fun key hkey => (howns.rewardReversals key hkey).trans hsame.1.symm
  orders := howns.orders

theorem updateAll_reverse {t : Versioned ℕ Uuid ReferralAttributionEntity}
    (hupd : db.referrals.updateAll p (ReferralAttributionEntity.qualifiedBy bookingId)
      (fun x => x.reverse now orderId) = .done ks t)
    (hone : ∀ k' x, db.referrals.get p k' = some x → x.qualifiedBy bookingId = true → k' = k)
    (hne : ks ≠ []) :
    ks = [k] ∧ ∃ x qualifiedAt, db.referrals.get p k = some x ∧
      x.state = .qualified qualifiedAt bookingId ∧ ¬(db.referrals.row k).Locked p ∧
      t = db.referrals.write p k
        { x with state := .reversed qualifiedAt bookingId now orderId } := by
  obtain ⟨rfl, rfl, hlock⟩ := updateAll_eq_done hupd
  have hmem : ∀ k' ∈ db.referrals.select p (qualifiedBy bookingId),
      ∃ x, db.referrals.get p k' = some x ∧ x.qualifiedBy bookingId = true := by
    intro k' hk'
    obtain ⟨-, hk'⟩ := List.mem_filter.1 hk'
    cases hget : db.referrals.get p k' with
    | none =>
      rw [hget] at hk'
      cases hk'
    | some x =>
      rw [hget] at hk'
      exact ⟨x, rfl, hk'⟩
  have hks := eq_singleton_of_nodup (nodup_select db.referrals p _)
    (fun k' hk' => by
      obtain ⟨x, hget, hx⟩ := hmem k' hk'
      exact hone k' x hget hx) hne
  obtain ⟨x, hget, hx⟩ := hmem k (hks ▸ List.mem_cons_self)
  obtain ⟨qualifiedAt, hstate⟩ := qualifiedBy_iff.1 hx
  refine ⟨hks, x, qualifiedAt, hget, hstate, hlock k (hks ▸ List.mem_cons_self), ?_⟩
  rw [hks, writeAll_singleton hget, reverse_of_qualified hstate]

theorem shown_reverse_completed (hs : Sound month customer db)
    (hw : Work month customer db p (.reverse (.completed q) bookingId orderId)) :
    Shown month customer db p (.reverse (.completed q) bookingId orderId)
      (reverseStatement env db p (.reverse (.completed q) bookingId orderId)) := by
  obtain ⟨hrefd, -, rfl, hfair, hcharge, -, hpend, c, hc, hof, howns, hsides⟩ := hw
  have hseen : db.referrals.get p (customer q.qualifyingBookingId) =
      some (c.qualify q.qualifiedAt q.qualifyingBookingId) := (wrote_of_row howns.row).get_eq
  have hself : customer q.qualifyingBookingId ∈
      db.referrals.select p (qualifiedBy q.qualifyingBookingId) := by
    refine List.mem_filter.2 ⟨mem_keys (version_of_get hseen), ?_⟩
    have hqualified : (c.qualify q.qualifiedAt q.qualifyingBookingId).qualifiedBy
        q.qualifyingBookingId = true := qualifiedBy_iff.2 ⟨q.qualifiedAt, rfl⟩
    rw [hseen]
    exact hqualified
  have hone : ∀ k x, db.referrals.get p k = some x →
      x.qualifiedBy q.qualifyingBookingId = true → k = customer q.qualifyingBookingId := by
    intro k x hget hx
    obtain ⟨qualifiedAt, hstate⟩ := qualifiedBy_iff.1 hx
    by_cases hwrit : (db.referrals.row k).WrittenBy p
    · exact howns.only k hwrit
    · rw [get_of_not hwrit] at hget
      exact hs.booking k x _ hget (by rw [hstate]; rfl)
  simp only [reverseStatement]
  split
  · trivial
  rename_i ks t hupd
  have hne : ks ≠ [] := by
    rintro rfl
    rw [← (updateAll_eq_done hupd).1] at hself
    cases hself
  obtain ⟨rfl, _, _, hget, hstate, hlock, rfl⟩ := updateAll_reverse hupd hone hne
  cases hseen.symm.trans hget
  cases hstate
  simp only [get_write_self]
  split
  · refine ⟨keeps_referrals hs (version_of_get hget) rfl hlock, ?_, fun _ _ h => h⟩
    refine ⟨c, _, q, hof, hfair, ⟨rfl, hc, hcharge⟩, trivial, ?_, by simp, hrefd, rfl, ?_,
      rfl, howns.write_referrals ⟨rfl, rfl, ?_⟩, ?_⟩
    · rw [hpend]
      rfl
    · intro side
      cases side <;> rfl
    · intro side
      cases side <;> rfl
    · have hsides' : ∀ side, complete q side (db.sideSeen p c.id side) := by
        rw [← hof.referralId]
        exact hsides
      intro side
      exact ⟨(hsides' side).1, begin (db.sideSeen p c.id)
        (fun side => (hsides' side).2) side⟩
  · trivial

theorem shown_reverse_refunded {eventOrderId : Uuid} {index : ℕ} (hs : Sound month customer db)
    (hw : Work month customer db p (.reverse (.refunded eventOrderId index) bookingId orderId)) :
    Shown month customer db p (.reverse (.refunded eventOrderId index) bookingId orderId)
      (reverseStatement env db p (.reverse (.refunded eventOrderId index) bookingId orderId)) := by
  obtain ⟨hrefd, rfl, hclean, hdelivered⟩ := hw
  have hone : ∀ k x, db.referrals.get p k = some x → x.qualifiedBy bookingId = true →
      k = customer bookingId := by
    intro k x hget hx
    obtain ⟨qualifiedAt, hstate⟩ := qualifiedBy_iff.1 hx
    rw [hclean.referrals.get_eq] at hget
    exact hs.booking k x _ hget (by rw [hstate]; rfl)
  simp only [reverseStatement]
  split
  · trivial
  rename_i ks t hupd
  split
  · refine ⟨keeps_refl hs, ⟨hclean, ?_⟩, fun _ _ h => h⟩
    obtain ⟨s, hsome, hlt⟩ := hdelivered
    refine ⟨s, hsome, hlt, fun _ => ?_⟩
    obtain ⟨_, hs', hsrc, hfull⟩ := hrefd
    cases hsome.symm.trans hs'
    refine ⟨s, hsome, hfull, ?_⟩
    intro b hb k x hx hbook
    obtain rfl : b = bookingId := by
      obtain ⟨_, ho, -, rfl⟩ := hb
      obtain ⟨_, ho', -, rfl⟩ := hsrc
      cases ho.symm.trans ho'
      rfl
    -- no row of the booking was found, so what is there is not qualified any more
    have hnot : x.qualifiedBy b ≠ true := by
      intro hqualified
      have hmem := (mem_select hclean.referrals).2 ⟨x, hx, hqualified⟩
      rw [← (updateAll_eq_done hupd).1] at hmem
      cases hmem
    cases hstate : x.state with
    | pending =>
      rw [hstate] at hbook
      cases hbook
    | qualified =>
      rw [hstate] at hbook
      cases hbook
      exact absurd (qualifiedBy_iff.2 ⟨_, hstate⟩) hnot
    | reversed => trivial
  · rename_i k rest
    obtain ⟨hks, x, _, hget, hstate, hlock, rfl⟩ :=
      updateAll_reverse hupd hone (by simp)
    obtain ⟨rfl, rfl⟩ := List.cons.inj hks
    simp only [get_write_self]
    split
    · have hx := hget
      rw [hclean.referrals.get_eq] at hx
      have hacct := hs.account _ x hx
      rw [Account, hstate] at hacct
      obtain ⟨q, hmem, hof, hfair, rfl, rfl, hsides⟩ := hacct
      refine ⟨keeps_referrals hs (version_of_get hget) rfl hlock, ?_, fun _ _ h => h⟩
      refine ⟨x, _, q, hof, hfair, ⟨hstate, hmem, hclean.referrerCounters, hdelivered⟩, rfl,
        hclean.outbox, by simp, hrefd, rfl, ?_, rfl, owns_write hclean hx ⟨rfl, rfl, ?_⟩, ?_⟩
      · intro side
        cases side <;> rfl
      · intro side
        cases side <;> rfl
      · have hsides' : ∀ side, complete q side (db.sideSeen p x.id side) := by
          intro side
          rw [hclean.sideSeen]
          exact hsides side
        intro side
        exact ⟨(hsides' side).1, begin (db.sideSeen p x.id)
          (fun side => (hsides' side).2) side⟩
    · trivial

theorem Handling.Begun.congr (hbegun : h.Begun month db p c q)
    (hctrs : db'.referrerCounters = db.referrerCounters)
    (hout : db'.outbox.committed = db.outbox.committed) (hords : db'.orders = db.orders) :
    h.Begun month db' p c q := by
  cases h with
  | completed q' =>
    refine ⟨hbegun.1, hbegun.2.1, ?_⟩
    unfold Charged
    rw [hctrs]
    exact hbegun.2.2
  | refunded orderId index =>
    obtain ⟨hstate, hmem, hunt, hdelivered⟩ := hbegun
    refine ⟨hstate, ?_, ?_, ?_⟩
    · rwa [ReferralDb.qualifications, hout]
    · rwa [hctrs]
    · rwa [Delivered, hords]

theorem ReversingWork.advance {now now' : SideView → Prop}
    (hw : ReversingWork month customer db p h v [] (undoing v now turn))
    (hctrs : db'.referrerCounters = db.referrerCounters) (hout : db'.outbox = db.outbox)
    (hords : db'.orders = db.orders)
    (howns : ∀ k c x, v.referralId = x.id → Owns db p k c x → Owns db' p k c x)
    (hother : ∀ side ≠ turn.side,
      db'.sideSeen p v.referralId side = db.sideSeen p v.referralId side)
    (hnow : ∀ q, (db.sideSeen p v.referralId turn.side).Rewarded q turn.side →
      now (db.sideSeen p v.referralId turn.side) →
      (db'.sideSeen p v.referralId turn.side).Rewarded q turn.side ∧
        now' (db'.sideSeen p v.referralId turn.side)) :
    ReversingWork month customer db' p h v [] (undoing v now' turn) := by
  obtain ⟨c, x, q, hof, hfair, hbegun, habout, hpend, hevents, _, hid, hrcpt, hx,
    hx', hsides⟩ := hw
  rw [← hid] at hsides
  obtain ⟨hrew, hstage⟩ := hnow q (hsides turn.side).1 (atTurn_self.1 (hsides turn.side).2)
  refine ⟨c, x, q, hof, hfair, hbegun.congr hctrs (by rw [hout]) hords, habout,
    by rw [hout]; exact hpend, hevents, by rwa [BookingRefunded, hords], hid, hrcpt,
    hx, howns _ c x (hid.trans hx'.same.1.symm) hx', ?_⟩
  rw [← hid]
  intro side
  refine ⟨?_, update (db.sideSeen p v.referralId) _
    (fun side => (hsides side).2) hother hstage side⟩
  by_cases hside : side = turn.side
  · rw [hside]
    exact hrew
  · rw [hother side hside]
    exact (hsides side).1

theorem ReversingWork.restage {now now' : SideView → Prop}
    (hw : ReversingWork month customer db p h v [] (undoing v now turn))
    (hnow : ∀ q, (db.sideSeen p v.referralId turn.side).Rewarded q turn.side →
      now (db.sideSeen p v.referralId turn.side) → now' (db.sideSeen p v.referralId turn.side)) :
    ReversingWork month customer db p h v [] (undoing v now' turn) :=
  hw.advance rfl rfl rfl (fun _ _ _ _ howns => howns) (fun _ _ => rfl)
    fun q hrew hstage => ⟨hrew, hnow q hrew hstage⟩

theorem clawed_nothing {view : SideView} {recipientUserId : Uuid} (hstand : view.Standing)
    (hreward : view.reward = none) : view.Clawed ∧
      (⟨recipientUserId, .nothingToReverse, 0⟩ : SideReversal) =
        SideView.takenBack recipientUserId view.reward := by
  rw [SideView.Clawed, hreward]
  exact ⟨hstand, rfl⟩

variable (env : ReferralEnv)

section

variable (hs : Sound month customer db)
include hs

open ReversingWork

theorem shown_sideGrant (hw : Work month customer db p (.sideGrant h v turn)) :
    Shown month customer db p (.sideGrant h v turn)
      (reverseStatement env db p (.sideGrant h v turn)) := by
  simp only [reverseStatement]
  split
  · rename_i hnone
    refine ⟨keeps_refl hs, restage hw ?_, fun _ _ h => h⟩
    intro q hrew _
    exact absurd (hnone.symm.trans hrew.grant) (by simp)
  · rename_i g hsome
    split
    · exact ⟨keeps_refl hs, restage hw fun _ _ hstand => hstand,
        fun _ _ h => h⟩
    · rename_i hunpaid
      refine ⟨keeps_refl hs, restage hw ?_, fun _ _ h => h⟩
      intro q hrew hstand
      have hg : g = q.grant turn.side := some.inj (hsome.symm.trans hrew.grant)
      rw [hg] at hunpaid
      exact clawed_nothing hstand (hrew.unpaid hunpaid)

theorem shown_sideOriginal {expected : ℕ}
    (hw : Work month customer db p (.sideOriginal h v turn expected)) :
    Shown month customer db p (.sideOriginal h v turn expected)
      (reverseStatement env db p (.sideOriginal h v turn expected)) := by
  simp only [reverseStatement]
  split
  · rename_i hnone
    exact ⟨keeps_refl hs, restage hw fun _ _ hstand =>
      clawed_nothing hstand hnone, fun _ _ h => h⟩
  · rename_i original hsome
    split
    · exact ⟨keeps_refl hs, restage hw fun _ _ hstand => ⟨hstand, hsome⟩,
        fun _ _ h => h⟩
    · trivial

theorem shown_sideClawback {original : PointsEntryEntity}
    (hw : Work month customer db p (.sideClawback h v turn original)) :
    Shown month customer db p (.sideClawback h v turn original)
      (reverseStatement env db p (.sideClawback h v turn original)) := by
  obtain ⟨c, x, q, -, -, -, -, -, -, -, hid, -, -, howns, hsides⟩ := id hw
  rw [← hid] at hsides
  have hxid : v.referralId = x.id := hid.trans howns.same.1.symm
  obtain ⟨hstand, hreward⟩ := atTurn_self.1 (hsides turn.side).2
  simp only [reverseStatement]
  split
  · trivial
  · rename_i hlost
    exact absurd hstand.1 (insertOnce_lost hlost)
  · rename_i t hwon
    obtain ⟨rfl, hlock⟩ := insertOnce_won hwon
    refine ⟨?_, advance hw rfl rfl rfl ?_ (fun _ hne => sideSeen_clawback_ne hne) ?_,
      fun _ _ h => h⟩
    · rw [hxid] at hlock ⊢
      exact keeps_pointsEntries hs howns hlock
    · intro k c x hx howns
      rw [hx]
      exact howns.write_pointsEntries
    · intro q hrew _
      rw [sideSeen_clawback]
      refine ⟨⟨hrew.grant, hrew.awarded, hrew.unpaid⟩, ⟨?_, hstand.2⟩, ?_⟩
      · rw [hreward]
        rfl
      · rw [hreward]
        rfl

end

theorem holds_turn_next {m : LockMode} (hholds : Holds (turn.next h v d) k m) : False := by
  cases turn <;> exact hholds

theorem shown_sideRecord (hs : Sound month customer db)
    (hw : Work month customer db p (.sideRecord h v turn d)) :
    Shown month customer db p (.sideRecord h v turn d)
      (reverseStatement env db p (.sideRecord h v turn d)) := by
  obtain ⟨c, x, q, -, -, -, -, -, -, -, hid, -, -, howns, -⟩ := id hw
  have hxid : v.referralId = x.id := hid.trans howns.same.1.symm
  simp only [reverseStatement]
  split
  · split
    · trivial
    · rename_i y t hins
      obtain ⟨rfl, hlock⟩ := insert_done hins
      have hwork : ReversingWork month customer
          { db with
            rewardReversals :=
              db.rewardReversals.write p (v.referralId, turn.side) (v.record turn.side d) }
          p h v [] (undoing v (SideView.Undone (v.recipient turn.side)) turn) := by
        refine ReversingWork.advance hw rfl rfl rfl ?_
          (fun _ hne => sideSeen_rewardReversals_ne hne) ?_
        · intro k c x hx howns
          rw [hx]
          exact howns.write_rewardReversals
        · rintro q hrew ⟨⟨hclawback, -⟩, rfl⟩
          rw [sideSeen_rewardReversals]
          exact ⟨⟨hrew.grant, hrew.awarded, hrew.unpaid⟩, hclawback, _, rfl, rfl⟩
      refine ⟨?_, ?_, fun _ _ h => (holds_turn_next h).elim⟩
      · rw [hxid] at hlock ⊢
        exact keeps_rewardReversals hs howns hlock
      · obtain ⟨c, x, q, hof, hfair, hbegun, habout, hpend, hevents, hrefd, hid, hrcpt,
          hx, hx', hsides⟩ := hwork
        cases turn with
        | first =>
          have hsecond := second _ (fun side => (hsides side).2) id
          exact ⟨c, x, q, hof, hfair, hbegun, habout, hpend, hevents, hrefd, hid,
            hrcpt, hx, hx', fun side => ⟨(hsides side).1, hsecond side⟩⟩
        | second =>
          have hall := all _ (fun side => (hsides side).2) id
          exact ⟨c, x, q, hof, hfair, hbegun, habout, hpend, hevents, hrefd, hid,
            hrcpt, hx, hx', fun side => ⟨(hsides side).1, hall side⟩⟩
    · trivial
  · trivial

theorem shown_emitReversed {referrer referee : SideReversal} (hs : Sound month customer db)
    (hw : Work month customer db p (.emitReversed h v referrer referee)) :
    Shown month customer db p (.emitReversed h v referrer referee)
      (reverseStatement env db p (.emitReversed h v referrer referee)) := by
  obtain ⟨c, x, q, hof, hfair, hbegun, habout, hpend, -, hrefd, hid, hrcpt, hx, howns,
    hsides⟩ := hw
  refine ⟨keeps_outbox hs, ?_, fun _ _ h => h⟩
  refine ⟨.reversed v.referralId v.referrerUserId v.refereeUserId v.orderId v.now referrer referee,
    c, x, q, hof, hfair, hbegun.congr rfl rfl rfl, habout, ?_, ?_, hrefd, hid, hrcpt, hx,
    howns.append_outbox, hsides⟩
  · rw [Journal.pending_append_self, hpend, List.append_nil]
  · intro e he
    rw [List.mem_singleton.1 he]
    rfl

end Reverse

end BeauClick.Referral
