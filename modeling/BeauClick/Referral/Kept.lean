import BeauClick.Referral.Beside

/-!
# What the statements of the referral rewards keep

* `Sound.replace`, `Sound.of_committed` — a referral is replaced in the tables.
* `Sound.commit` — the commit about a referral that a call owns.
* `tally_commit` — the counters go on with the qualifications.
-/

namespace BeauClick.Referral

open Commerce Locks ReadCommitted ReadCommitted.Versioned Transactions ReferralDb List
open Function (update update_self update_of_ne)

variable {month : Instant → Option Period} {customer : Uuid → Uuid}
  {db db' : ReferralDb} {p : ℕ}

/-! ## The tally -/

section Tally

variable {qs : List Qualification} {q : Qualification} {period : Period}

theorem counted_append {u : Uuid} {m : Period} :
    counted month u m (qs ++ [q]) =
      counted month u m qs + if Counted month u m q then 1 else 0 := by
  simp [counted, countP_append, countP_singleton]

theorem Roomy.add (h : Roomy month qs) (hmonth : month q.qualifiedAt = some period)
    (hroom : q.referrerOutcome = .capped ↔
      referralMonthlyCap ≤ counted month q.referrerUserId period qs) :
    Roomy month (qs ++ [q]) := by
  intro before q' after heq
  rcases eq_nil_or_concat after with rfl | ⟨after', _, rfl⟩
  · obtain ⟨rfl, hq⟩ := append_inj' heq rfl
    cases List.cons.inj hq |>.1
    exact ⟨period, hmonth, hroom⟩
  · rw [concat_eq_append, ← cons_append, ← append_assoc] at heq
    obtain ⟨rfl, -⟩ := append_inj' heq rfl
    exact h before q' after' rfl

theorem tally_nil : Tally month [] fun _ => none where
  once := nodup_nil
  counter := fun _ _ => rfl
  cap := fun _ _ h => nomatch h
  room := by
    intro before q after h
    simp at h

theorem Tally.add {counters : Uuid × Period → Option ℕ} {n : ℕ} (h : Tally month qs counters)
    (hid : q.referralId ∉ qs.map (·.referralId)) (hmonth : month q.qualifiedAt = some period)
    (hcharge : q.referrerOutcome ≠ .capped ∧
        (counters (q.referrerUserId, period)).getD 0 < referralMonthlyCap ∧
        n = (counters (q.referrerUserId, period)).getD 0 + 1 ∨
      q.referrerOutcome = .capped ∧ counters (q.referrerUserId, period) = some n ∧
        referralMonthlyCap ≤ n) :
    Tally month (qs ++ [q]) (update counters (q.referrerUserId, period) (some n)) where
  once := by
    rw [map_append]
    exact nodup_append.2 ⟨h.once, nodup_singleton _, by
      rintro a ha b hb rfl
      cases mem_singleton.1 hb
      exact hid ha⟩
  counter := by
    intro u m
    rw [counted_append]
    by_cases hkey : (u, m) = (q.referrerUserId, period)
    · cases hkey
      rw [update_self, ← h.counter]
      rcases hcharge with ⟨hopen, -, hn⟩ | ⟨hcapped, hn, -⟩
      · rw [if_pos ⟨⟨rfl, hmonth⟩, hopen⟩, hn]
        rfl
      · rw [if_neg fun hc => hc.2 hcapped, hn]
        rfl
    · have hnot : ¬Counted month u m q := by
        rintro ⟨⟨rfl, hm⟩, -⟩
        cases hm.symm.trans hmonth
        exact hkey rfl
      rw [update_of_ne hkey, h.counter, if_neg hnot, Nat.add_zero]
  cap := by
    intro key m hm
    by_cases hkey : key = (q.referrerUserId, period)
    · rw [hkey, update_self] at hm
      cases hm
      rcases hcharge with ⟨-, hlt, hn⟩ | ⟨-, hn, -⟩
      · omega
      · exact h.cap _ _ hn
    · rw [update_of_ne hkey] at hm
      exact h.cap key m hm
  room := by
    refine h.room.add hmonth ?_
    rw [← h.counter]
    rcases hcharge with ⟨hopen, hlt, -⟩ | ⟨hcapped, hn, hspent⟩
    · exact iff_of_false hopen (Nat.not_le.2 hlt)
    · rw [hn]
      exact iff_of_true hcapped hspent

end Tally

/-! ## What holds of the committed rows -/

section Sound

variable {k : Uuid} {c x : ReferralAttributionEntity}

theorem Account.mono (h : Account db x) (hside : ∀ side, db'.side x.id side = db.side x.id side)
    (hq : ∀ q ∈ db.qualifications, q ∈ db'.qualifications)
    (hrefd : ∀ o b, BookingRefunded db o b → BookingRefunded db' o b) : Account db' x := by
  unfold Account at h ⊢
  split at h
  · rename_i hstate
    exact fun side => by rw [hside]; exact h side
  · rename_i qualifiedAt bookingId hstate
    obtain ⟨q, hmem, hof, hfair, hat, hbook, hsides⟩ := h
    exact ⟨q, hq q hmem, hof, hfair, hat, hbook, fun side => by rw [hside]; exact hsides side⟩
  · rename_i qualifiedAt bookingId reversedAt orderId hstate
    obtain ⟨⟨q, hmem, hof, hfair, hat, hbook, hsides⟩, hord⟩ := h
    exact ⟨⟨q, hq q hmem, hof, hfair, hat, hbook,
      fun side => by rw [hside]; exact hsides side⟩, hrefd _ _ hord⟩

section

variable (h : Sound month customer db)
include h

section

variable (hreferrals : db'.referrals.committed = db.referrals.committed)
include hreferrals

theorem Sound.orders (hctrs : db'.referrerCounters.committed = db.referrerCounters.committed)
    (hside : ∀ id side, db'.side id side = db.side id side)
    (hqs : db'.qualifications = db.qualifications) (hgrows : Grows db db')
    (hord : ∀ orderId s, db'.orders.committed orderId = some s → OrderSound s)
    (hid : Apart (fun x y => x.id = y.id) db'.referrals) (hsrc : Apart SameSource db'.orders) :
    Sound month customer db' := by
  refine
    { referee := ?_, id := hid, booking := ?_, account := ?_, known := ?_, event := ?_,
      tally := ?_, order := hord, source := hsrc }
  · rw [hreferrals]
    exact h.referee
  · rw [hreferrals]
    exact h.booking
  · intro k x hx
    rw [hreferrals] at hx
    exact (h.account k x hx).mono (hside x.id) (fun q hq => by rwa [hqs])
      fun o b => hgrows.bookingRefunded
  · intro id side hfresh
    rw [hside] at hfresh
    unfold Attributed
    rw [hreferrals]
    exact h.known id side hfresh
  · rw [hqs, hreferrals]
    exact h.event
  · rw [hqs, hctrs]
    exact h.tally

theorem Sound.of_committed
    (hctrs : db'.referrerCounters.committed = db.referrerCounters.committed)
    (hgrants : db'.rewardGrants.committed = db.rewardGrants.committed)
    (hents : db'.pointsEntries.committed = db.pointsEntries.committed)
    (hreversals : db'.rewardReversals.committed = db.rewardReversals.committed)
    (hout : db'.outbox.committed = db.outbox.committed)
    (hords : db'.orders.committed = db.orders.committed)
    (hid : Apart (fun x y => x.id = y.id) db'.referrals) (hsrc : Apart SameSource db'.orders) :
    Sound month customer db' := by
  refine h.orders hreferrals hctrs ?_ ?_ (.of_eq hords) ?_ hid hsrc
  · intro id side
    simp only [ReferralDb.side, hgrants, hents, hreversals]
  · rw [ReferralDb.qualifications, hout, ReferralDb.qualifications]
  · rw [hords]
    exact h.order

end

theorem Sound.replace
    (hreferrals : db'.referrals.committed = update db.referrals.committed k (some x))
    (hsame : ∀ y, db.referrals.committed k = some y → y.id = x.id)
    (hfree : ∀ k' y, db.referrals.committed k' = some y → y.id = x.id → k' = k)
    (hreferee : x.refereeUserId = k)
    (hbook : ∀ b, x.state.qualifyingBookingId = some b → k = customer b)
    (hside : ∀ id ≠ x.id, ∀ side, db'.side id side = db.side id side)
    (hkept : ∀ q ∈ db.qualifications, q ∈ db'.qualifications)
    (hnew : ∀ q ∈ db'.qualifications, q.referralId ≠ x.id → q ∈ db.qualifications)
    (hstate : ∀ q ∈ db'.qualifications, q.referralId = x.id → x.state ≠ .pending)
    (hacct : Account db' x)
    (htally : Tally month db'.qualifications db'.referrerCounters.committed)
    (hords : db'.orders.committed = db.orders.committed)
    (hid : Apart (fun x y => x.id = y.id) db'.referrals) (hsrc : Apart SameSource db'.orders) :
    Sound month customer db' := by
  have hself : db'.referrals.committed k = some x := by rw [hreferrals, update_self]
  have hother : ∀ k' ≠ k, db'.referrals.committed k' = db.referrals.committed k' := by
    intro k' hk'
    rw [hreferrals, update_of_ne hk']
  have hcases : ∀ k' y, db'.referrals.committed k' = some y →
      k' = k ∧ y = x ∨ k' ≠ k ∧ db.referrals.committed k' = some y := by
    intro k' y hy
    by_cases hk' : k' = k
    · rw [hk', hself] at hy
      exact Or.inl ⟨hk', (Option.some.inj hy).symm⟩
    · rw [hother k' hk'] at hy
      exact Or.inr ⟨hk', hy⟩
  -- a referral of another id is at another key, and there to stay
  have hstays : ∀ k' y, db.referrals.committed k' = some y → y.id ≠ x.id →
      db'.referrals.committed k' = some y := by
    intro k' y hy hne
    rw [hother, hy]
    rintro rfl
    exact hne (hsame y hy)
  refine
    { referee := ?_, id := hid, booking := ?_, account := ?_, known := ?_, event := ?_,
      tally := htally, order := by rw [hords]; exact h.order, source := hsrc }
  · intro k' y hy
    rcases hcases k' y hy with ⟨rfl, rfl⟩ | ⟨-, hy⟩
    · exact hreferee
    · exact h.referee k' y hy
  · intro k' y b hy hb
    rcases hcases k' y hy with ⟨rfl, rfl⟩ | ⟨-, hy⟩
    · exact hbook b hb
    · exact h.booking k' y b hy hb
  · intro k' y hy
    rcases hcases k' y hy with ⟨rfl, rfl⟩ | ⟨hk', hy⟩
    · exact hacct
    · refine (h.account k' y hy).mono (hside y.id ?_) hkept ?_
      · exact fun heq => hk' (hfree k' y hy heq)
      · intro o b hrefd
        rwa [BookingRefunded, hords]
  · intro id side hfresh
    by_cases hid : id = x.id
    · exact ⟨k, x, hself, hid.symm⟩
    · rw [hside id hid] at hfresh
      obtain ⟨k', y, hy, rfl⟩ := h.known id side hfresh
      exact ⟨k', y, hstays k' y hy hid, rfl⟩
  · intro q hq
    by_cases hid : q.referralId = x.id
    · exact ⟨k, x, hself, hid.symm, hstate q hq hid⟩
    · obtain ⟨k', y, hy, hyid, hystate⟩ := h.event q (hnew q hq hid)
      exact ⟨k', y, hstays k' y hy (hyid ▸ hid), hyid, hystate⟩

end

theorem side_commit (id : Uuid) (side : RewardSide) :
    (db.commit p).side id side = db.sideSeen p id side := by
  simp only [ReferralDb.side, ReferralDb.commit, ReferralDb.sideSeen, committed_commit]

theorem Owns.committed (h : Owns db p k c x) : db.referrals.committed k = some c :=
  committed_of_row h.row

theorem Owns.referrals_commit (h : Owns db p k c x) :
    (db.commit p).referrals.committed = update db.referrals.committed k (some x) :=
  committed_commit_of_onlyAt (wrote_of_row h.row) h.only

theorem Owns.orders_commit (h : Owns db p k c x) :
    (db.commit p).orders.committed = db.orders.committed :=
  h.orders.committed_commit

theorem Sound.commit (h : Sound month customer db) (howns : Owns db p k c x)
    (hbook : ∀ b, x.state.qualifyingBookingId = some b → k = customer b)
    (hstate : x.state ≠ .pending)
    (hnew : ∀ q ∈ (db.commit p).qualifications, q.referralId ≠ x.id → q ∈ db.qualifications)
    (hacct : Account (db.commit p) x)
    (htally : Tally month (db.commit p).qualifications (db.commit p).referrerCounters.committed) :
    Sound month customer (db.commit p) := by
  refine h.replace howns.referrals_commit ?_ ?_ ?_ hbook ?_ ?_ hnew (fun _ _ _ => hstate)
    hacct htally howns.orders_commit h.id.commit h.source.commit
  · intro y hy
    cases howns.committed.symm.trans hy
    exact howns.same.1.symm
  · intro k' y hy heq
    exact h.id.committed hy howns.committed (heq.trans howns.same.1)
  · rw [howns.same.2.1]
    exact h.referee k c howns.committed
  · intro id hne side
    exact (howns.unwritten hne).commit.side side
  · intro q hq
    obtain ⟨e, he, heq⟩ := mem_filterMap.1 hq
    exact mem_filterMap.2 ⟨e, Journal.mem_committed_commit he, heq⟩

theorem qualifications_commit : (db.commit p).qualifications =
    db.qualifications ++ (db.outbox.pending p).filterMap ReferralEvent.qualification? := by
  simp only [ReferralDb.qualifications, ReferralDb.commit, Journal.committed_commit,
    filterMap_append]

theorem Settled.commit {orderId : Uuid} (h : Settled db orderId) (howns : Owns db p k c x)
    (hx : ∀ s b, db.orders.committed orderId = some s → FullyRefunded s →
      HasSource .booking b s → x.state.qualifyingBookingId = some b → x.state.IsReversed) :
    Settled (db.commit p) orderId := by
  obtain ⟨s, hs, hfull, hall⟩ := h
  refine ⟨s, by rw [howns.orders_commit, hs], hfull, ?_⟩
  intro b hsrc k' y hy hb
  rw [howns.referrals_commit] at hy
  by_cases hk' : k' = k
  · rw [hk', update_self] at hy
    cases hy
    exact hx s b hs hfull hsrc hb
  · rw [update_of_ne hk'] at hy
    exact hall b hsrc k' y hy hb

theorem tally_commit {q : Qualification} (h : Sound month customer db) (howns : Owns db p k c x)
    (hc : c.state = .pending) (hof : q.Of c) (hcharge : Charged month db p q)
    (hqs : (db.commit p).qualifications = db.qualifications ++ [q]) :
    Tally month (db.commit p).qualifications (db.commit p).referrerCounters.committed := by
  obtain ⟨period, _, n, hmonth, hrow, honly, hn⟩ := hcharge
  have hctrs : (db.commit p).referrerCounters.committed =
      update db.referrerCounters.committed (q.referrerUserId, period) (some n) :=
    committed_commit_of_onlyAt (wrote_of_row hrow) honly
  rw [hqs, hctrs]
  refine h.tally.add ?_ hmonth ?_
  · -- a pending referral has no qualification
    intro hmem
    obtain ⟨q', hq', hid⟩ := mem_map.1 hmem
    obtain ⟨_, y, hy, hyid, hystate⟩ := h.event q' hq'
    have heq : y.id = c.id := hyid.trans (hid.trans hof.referralId)
    obtain rfl := h.id.committed hy howns.committed heq
    cases hy.symm.trans howns.committed
    exact hystate hc
  · rw [committed_of_row hrow]
    exact hn

theorem mem_qualifications_commit {q q' : Qualification}
    (hqs : (db.commit p).qualifications = db.qualifications ++ [q])
    (hmem : q' ∈ (db.commit p).qualifications) (hne : q'.referralId ≠ q.referralId) :
    q' ∈ db.qualifications := by
  rw [hqs] at hmem
  rcases mem_append.1 hmem with hmem | hmem
  · exact hmem
  · rw [mem_singleton.1 hmem] at hne
    exact absurd rfl hne

theorem sound_rewarded {q : Qualification} (h : Sound month customer db)
    (hw : Qualifying month customer db p q [.qualified q] (complete q)) :
    Sound month customer (db.commit p) := by
  obtain ⟨hfair, hcharge, -, hpend, c, hc, hof, howns, hsides⟩ := hw
  have hqs : (db.commit p).qualifications = db.qualifications ++ [q] := by
    rw [qualifications_commit, hpend]
    rfl
  have hid : q.referralId = (c.qualify q.qualifiedAt q.qualifyingBookingId).id := hof.referralId
  refine h.commit howns ?_ (by simp [ReferralAttributionEntity.qualify]) ?_ ?_
    (tally_commit h howns hc hof hcharge hqs)
  · intro b hb
    cases hb
    rfl
  · intro q' hq' hne
    exact mem_qualifications_commit hqs hq' (hid ▸ hne)
  · refine ⟨q, ?_, ⟨hid, hof.recipient⟩, hfair, rfl, rfl, ?_⟩
    · rw [hqs]
      exact mem_append_right _ mem_cons_self
    · intro side
      rw [side_commit, ← hid]
      exact hsides side

theorem sound_reversed {handling : Handling} {v : Reversing} {e : ReferralEvent}
    (h : Sound month customer db)
    (hw : ReversingWork month customer db p handling v [e]
      fun side => SideView.Undone (v.recipient side)) :
    Sound month customer (db.commit p) := by
  obtain ⟨_, x, q, hof, hfair, hbegun, -, hpend, hevents, hrefd, -, hrcpt, hx, howns,
    hsides⟩ := hw
  have he : e.qualification? = none := hevents e mem_cons_self
  have hnew : (db.commit p).qualifications =
      db.qualifications ++ handling.pending.filterMap ReferralEvent.qualification? := by
    rw [qualifications_commit, hpend]
    simp [he]
  have hbook : ∀ b, x.state.qualifyingBookingId = some b →
      customer q.qualifyingBookingId = customer b := by
    intro b hb
    rw [hx] at hb
    cases hb
    rfl
  have hstate : x.state ≠ .pending := by
    rw [hx]
    simp
  have hacct : q ∈ (db.commit p).qualifications → Account (db.commit p) x := by
    intro hmem
    unfold Account
    rw [hx]
    refine ⟨⟨q, hmem, ⟨hof.referralId.trans howns.same.1.symm,
      fun side => (hof.recipient side).trans (howns.same.2.2 side).symm⟩, hfair, rfl, rfl, ?_⟩, ?_⟩
    · intro side
      rw [side_commit, howns.same.1, howns.same.2.2 side, ← hrcpt side]
      exact hsides side
    · unfold BookingRefunded
      rw [howns.orders_commit]
      exact hrefd
  cases handling with
  | completed q' =>
    obtain ⟨rfl, hc, hcharge⟩ := hbegun
    have hqs : (db.commit p).qualifications = db.qualifications ++ [q'] := hnew
    refine h.commit howns hbook hstate ?_ (hacct ?_)
      (tally_commit h howns hc hof hcharge hqs)
    · intro q hq hne
      exact mem_qualifications_commit hqs hq (by rwa [hof.referralId, ← howns.same.1])
    · rw [hqs]
      exact mem_append_right _ mem_cons_self
  | refunded =>
    obtain ⟨-, _, hctrs, -⟩ := hbegun
    have hqs : (db.commit p).qualifications = db.qualifications := by
      rw [hnew]
      exact append_nil _
    refine h.commit howns hbook hstate ?_ (hacct ?_) ?_
    · intro q hq _
      rwa [hqs] at hq
    · rwa [hqs]
    · have hsame : (db.commit p).referrerCounters.committed = db.referrerCounters.committed :=
        hctrs.committed_commit
      rw [hqs, hsame]
      exact h.tally

end Sound

/-! ## Turns -/

section Turns

variable {done now now' later : RewardSide → SideView → Prop} {turn side : RewardSide}
  (view view' : RewardSide → SideView)

theorem atTurn_self {v : SideView} : AtTurn turn done now later turn v ↔ now turn v := by
  simp [AtTurn]

theorem AtTurn.update (h : ∀ side, AtTurn turn done now later side (view side))
    (hother : ∀ side ≠ turn, view' side = view side) (hnow : now' turn (view' turn)) :
    ∀ side, AtTurn turn done now' later side (view' side) := by
  intro side
  by_cases hside : side = turn
  · rw [hside]
    exact atTurn_self.2 hnow
  · have hstage := h side
    rw [AtTurn, if_neg hside] at hstage ⊢
    rwa [hother side hside]

theorem AtTurn.second (h : ∀ side, AtTurn .referrer done now later side (view side))
    (hnow : now .referrer (view .referrer) → done .referrer (view .referrer)) :
    ∀ side, AtTurn .referee done later later side (view side) := by
  intro side
  cases side with
  | referrer => exact hnow (h .referrer)
  | referee => exact h .referee

theorem AtTurn.all (h : ∀ side, AtTurn .referee done now later side (view side))
    (hnow : now .referee (view .referee) → done .referee (view .referee)) :
    ∀ side, done side (view side) := by
  intro side
  cases side with
  | referrer => exact h .referrer
  | referee => exact hnow (h .referee)

theorem AtTurn.begin (h : ∀ side, later side (view side)) :
    ∀ side, AtTurn .referrer done later later side (view side) := by
  intro side
  cases side with
  | referrer => exact h .referrer
  | referee => exact h .referee

end Turns

/-! ## Writes about the referral that a call owns -/

section Writes

variable {k : Uuid} {c x : ReferralAttributionEntity} {id : Uuid} {turn side : RewardSide}
  {e : PointsEntryEntity} {g : RewardGrantEntity} {r : RewardReversalEntity}

section

variable (h : Owns db p k c x)
include h

theorem Owns.write_referrerCounters {key : Uuid × Period} {n : ℕ} :
    Owns { db with referrerCounters := db.referrerCounters.write p key n } p k c x :=
  ⟨h.row, h.only, h.same, h.rewardGrants, h.pointsEntries, h.rewardReversals, h.orders⟩

theorem Owns.append_outbox {e : ReferralEvent} :
    Owns { db with outbox := db.outbox.append p e } p k c x :=
  ⟨h.row, h.only, h.same, h.rewardGrants, h.pointsEntries, h.rewardReversals, h.orders⟩

theorem Owns.write_rewardGrants :
    Owns { db with rewardGrants := db.rewardGrants.write p (x.id, turn) g } p k c x where
  row := h.row
  only := h.only
  same := h.same
  rewardGrants := by
    intro key hkey
    rcases writtenBy_write hkey with rfl | hkey
    · rfl
    · exact h.rewardGrants key hkey
  pointsEntries := h.pointsEntries
  rewardReversals := h.rewardReversals
  orders := h.orders

theorem Owns.write_pointsEntries {reason : LoyaltyReason} :
    Owns { db with pointsEntries := db.pointsEntries.write p (x.id, reason) e } p k c x where
  row := h.row
  only := h.only
  same := h.same
  rewardGrants := h.rewardGrants
  pointsEntries := by
    intro key hkey
    rcases writtenBy_write hkey with rfl | hkey
    · rfl
    · exact h.pointsEntries key hkey
  rewardReversals := h.rewardReversals
  orders := h.orders

theorem Owns.write_rewardReversals :
    Owns { db with rewardReversals := db.rewardReversals.write p (x.id, turn) r } p k c x where
  row := h.row
  only := h.only
  same := h.same
  rewardGrants := h.rewardGrants
  pointsEntries := h.pointsEntries
  rewardReversals := by
    intro key hkey
    rcases writtenBy_write hkey with rfl | hkey
    · rfl
    · exact h.rewardReversals key hkey
  orders := h.orders

end

theorem sideSeen_rewardGrants :
    ({ db with rewardGrants := db.rewardGrants.write p (id, turn) g } : ReferralDb).sideSeen
      p id turn = { db.sideSeen p id turn with grant := some g } := by
  simp only [sideSeen, get_write_self]

theorem sideSeen_rewardGrants_ne (h : side ≠ turn) :
    ({ db with rewardGrants := db.rewardGrants.write p (id, turn) g } : ReferralDb).sideSeen
      p id side = db.sideSeen p id side := by
  have hne : (id, side) ≠ (id, turn) := fun heq => h (Prod.mk.inj heq).2
  simp only [sideSeen, get_write_ne hne]

theorem sideSeen_reward :
    ({ db with pointsEntries := db.pointsEntries.write p (id, rewardReasonBySide turn) e } :
      ReferralDb).sideSeen p id turn = { db.sideSeen p id turn with reward := some e } := by
  have hne : (id, reversalReasonBySide turn) ≠ (id, rewardReasonBySide turn) :=
    fun heq => reward_ne_reversal turn turn (Prod.mk.inj heq).2.symm
  simp only [sideSeen, get_write_self, get_write_ne hne]

theorem sideSeen_reward_ne (h : side ≠ turn) :
    ({ db with pointsEntries := db.pointsEntries.write p (id, rewardReasonBySide turn) e } :
      ReferralDb).sideSeen p id side = db.sideSeen p id side := by
  have hreward : (id, rewardReasonBySide side) ≠ (id, rewardReasonBySide turn) :=
    fun heq => h (rewardReasonBySide_inj (Prod.mk.inj heq).2)
  have hrevs : (id, reversalReasonBySide side) ≠ (id, rewardReasonBySide turn) :=
    fun heq => reward_ne_reversal turn side (Prod.mk.inj heq).2.symm
  simp only [sideSeen, get_write_ne hreward, get_write_ne hrevs]

theorem sideSeen_clawback :
    ({ db with pointsEntries := db.pointsEntries.write p (id, reversalReasonBySide turn) e } :
      ReferralDb).sideSeen p id turn = { db.sideSeen p id turn with clawback := some e } := by
  have hne : (id, rewardReasonBySide turn) ≠ (id, reversalReasonBySide turn) :=
    fun heq => reward_ne_reversal turn turn (Prod.mk.inj heq).2
  simp only [sideSeen, get_write_self, get_write_ne hne]

theorem sideSeen_clawback_ne (h : side ≠ turn) :
    ({ db with pointsEntries := db.pointsEntries.write p (id, reversalReasonBySide turn) e } :
      ReferralDb).sideSeen p id side = db.sideSeen p id side := by
  have hreward : (id, rewardReasonBySide side) ≠ (id, reversalReasonBySide turn) :=
    fun heq => reward_ne_reversal side turn (Prod.mk.inj heq).2
  have hrevs : (id, reversalReasonBySide side) ≠ (id, reversalReasonBySide turn) :=
    fun heq => h (reversalReasonBySide_inj (Prod.mk.inj heq).2)
  simp only [sideSeen, get_write_ne hreward, get_write_ne hrevs]

theorem sideSeen_rewardReversals :
    ({ db with rewardReversals := db.rewardReversals.write p (id, turn) r } : ReferralDb).sideSeen
      p id turn = { db.sideSeen p id turn with reversal := some r } := by
  simp only [sideSeen, get_write_self]

theorem sideSeen_rewardReversals_ne (h : side ≠ turn) :
    ({ db with rewardReversals := db.rewardReversals.write p (id, turn) r } : ReferralDb).sideSeen
      p id side = db.sideSeen p id side := by
  have hne : (id, side) ≠ (id, turn) := fun heq => h (Prod.mk.inj heq).2
  simp only [sideSeen, get_write_ne hne]

end Writes

end BeauClick.Referral
