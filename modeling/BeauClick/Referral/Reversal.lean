import BeauClick.Referral.Rewards

/-!
# A refund takes a referral's rewards back, whatever comes first

The qualification and the refund of an order may be consumed in either order.

* `TakenBack` — a side that is reversed is left with no points.
* `Converged` — a referral is reversed exactly if an order of its booking is refunded.
* `converges_run` — where every event has been consumed.
-/

namespace BeauClick.Referral

open Commerce ReadCommitted ReadCommitted.Versioned Runs Transactions

variable {month : Instant → Option Period} {customer : Uuid → Uuid} {db : ReferralDb} {k : Uuid}
  {x : ReferralAttributionEntity} {v : SideView} {s : System ReferralDb Uuid ReferralPlace}

/-! ## The property -/

/-- Every `OrderRefunded` event that is committed has been handled by some call. -/
def Consumed (s : System ReferralDb Uuid ReferralPlace) : Prop :=
  ∀ orderId store index, s.db.orders.committed orderId = some store →
    (∃ e ∈ store.outbox[index]?, isOrderRefunded e = true) →
    ∃ pid, s.calls pid = .done (.orderRefunded orderId index)

/-- What the ledger says of a side, in all. -/
def SideView.balance (v : SideView) : ℤ :=
  (v.reward.map PointsEntryEntity.points).getD 0 + (v.clawback.map PointsEntryEntity.points).getD 0

/-- The side has its reversal row, which says what was credited, and the ledger comes to zero. -/
structure TakenBack (v : SideView) : Prop where
  balance : v.balance = 0
  credited : ∀ original ∈ v.reward, v.clawback = some original.reversal ∧
    ∃ r, v.reversal = some r ∧ r.outcome = .reversed ∧ r.points = original.points
  unpaid : v.reward = none → v.clawback = none ∧
    ∃ r, v.reversal = some r ∧ r.outcome = .nothingToReverse ∧ r.points = 0

/-- Nothing has been taken back of a referral. -/
structure Kept (db : ReferralDb) (id : Uuid) : Prop where
  reversal : ∀ side, db.rewardReversals.committed (id, side) = none
  entry : ∀ reason e, db.pointsEntries.committed (id, reason) = some e → 0 < e.points

/-- The referrals and the orders of their bookings agree. -/
structure Converged (db : ReferralDb) : Prop where
  reversed_iff : ∀ k x bookingId, db.referrals.committed k = some x →
    x.state.qualifyingBookingId = some bookingId →
    (x.state.IsReversed ↔ ∃ orderId, BookingRefunded db orderId bookingId)
  takenBack : ∀ k x, db.referrals.committed k = some x → x.state.IsReversed →
    ∀ side, TakenBack (db.side x.id side)
  kept : ∀ k x, db.referrals.committed k = some x → ¬x.state.IsReversed → Kept db x.id

/-! ## One side -/

theorem SideView.Undone.takenBack {recipientUserId : Uuid} (h : v.Undone recipientUserId) :
    TakenBack v := by
  obtain ⟨hclawback, r, hr, heq⟩ := h
  cases hreward : v.reward with
  | none =>
    rw [hreward] at hclawback heq
    refine ⟨?_, ?_, fun _ => ⟨hclawback, r, hr, congrArg SideReversal.outcome heq,
      congrArg SideReversal.points heq⟩⟩
    · rw [SideView.balance, hclawback, hreward]
      rfl
    · rintro e he
      cases hreward.symm.trans he
  | some original =>
    rw [hreward] at hclawback heq
    refine ⟨?_, ?_, fun hnone => by cases hreward.symm.trans hnone⟩
    · rw [SideView.balance, hclawback, hreward]
      show original.points + -original.points = 0
      omega
    · rintro e he
      cases hreward.symm.trans he
      exact ⟨hclawback, r, hr, congrArg SideReversal.outcome heq,
        congrArg SideReversal.points heq⟩

theorem SideView.Rewarded.points_pos {q : Qualification} {side : RewardSide} (h : v.Rewarded q side)
    {e : PointsEntryEntity} (he : v.reward = some e) : 0 < e.points := by
  by_cases hawarded : q.outcome side = .awarded
  · obtain ⟨hpos, _, hmult, hreward⟩ := h.awarded hawarded
    cases he.symm.trans hreward
    exact Int.natCast_pos.2 (creditedPoints_pos hpos hmult)
  · cases he.symm.trans (h.unpaid hawarded)

theorem reason_cases (reason : LoyaltyReason) :
    ∃ side, reason = rewardReasonBySide side ∨ reason = reversalReasonBySide side := by
  cases reason with
  | referralReferrerReward => exact ⟨.referrer, Or.inl rfl⟩
  | referralRefereeReward => exact ⟨.referee, Or.inl rfl⟩
  | referralReferrerReversal => exact ⟨.referrer, Or.inr rfl⟩
  | referralRefereeReversal => exact ⟨.referee, Or.inr rfl⟩

theorem kept_of_standing {id : Uuid} (hstand : ∀ side, (db.side id side).Standing)
    (hpaid : ∀ side e, (db.side id side).reward = some e → 0 < e.points) : Kept db id where
  reversal := fun side => (hstand side).2
  entry := by
    intro reason e he
    obtain ⟨side, rfl | rfl⟩ := reason_cases reason
    · exact hpaid side e he
    · cases he.symm.trans (hstand side).1

/-! ## Every run has it -/

theorem Sound.of_reversed (h : Sound month customer db) (hx : db.referrals.committed k = some x)
    (hreversed : x.state.IsReversed) :
    (∀ side, TakenBack (db.side x.id side)) ∧ ∀ bookingId,
      x.state.qualifyingBookingId = some bookingId →
        ∃ orderId, BookingRefunded db orderId bookingId := by
  have hacct := h.account k x hx
  unfold Account at hacct
  split at hacct
  · rename_i hstate
    rw [hstate] at hreversed
    exact hreversed.elim
  · rename_i hstate
    rw [hstate] at hreversed
    exact hreversed.elim
  · rename_i qualifiedAt b reversedAt orderId hstate
    obtain ⟨⟨_, -, -, -, -, -, hsides⟩, hrefd⟩ := hacct
    refine ⟨fun side => (hsides side).2.takenBack, fun bookingId hb => ⟨orderId, ?_⟩⟩
    rw [hstate] at hb
    cases hb
    exact hrefd

theorem Sound.of_not_reversed (h : Sound month customer db) (hx : db.referrals.committed k = some x)
    (hkept : ¬x.state.IsReversed) : Kept db x.id := by
  have hacct := h.account k x hx
  unfold Account at hacct
  split at hacct
  · have hnone : ∀ side, db.side x.id side = ⟨none, none, none, none⟩ := hacct
    refine kept_of_standing (fun side => ?_) (fun side e he => ?_)
    · rw [hnone side]
      exact ⟨rfl, rfl⟩
    · rw [hnone side] at he
      cases he
  · obtain ⟨_, -, -, -, -, -, hsides⟩ := hacct
    exact kept_of_standing (fun side => (hsides side).2)
      fun side e he => (hsides side).1.points_pos he
  · rename_i hstate
    rw [hstate] at hkept
    exact absurd trivial hkept

/-- An order that is fully refunded has a last refund; once its event is handled, the referrals of
its booking are reversed. -/
theorem reversed_of_refunded (h : (rewarding month customer).Holds s) (hcons : Consumed s)
    {orderId bookingId : Uuid} (hrefd : BookingRefunded s.db orderId bookingId)
    (hx : s.db.referrals.committed k = some x)
    (hbook : x.state.qualifyingBookingId = some bookingId) : x.state.IsReversed := by
  have hsound : Sound month customer s.db := h.sound
  obtain ⟨store, hstore, hsrc, hfull⟩ := hrefd
  obtain ⟨index, hfinal⟩ := (hsound.order orderId store hstore).refunded hfull
  obtain ⟨_, -, _, _, _, _, _, hev, -⟩ := id hfinal
  obtain ⟨pid, hdone⟩ := hcons orderId store index hstore ⟨_, hev, rfl⟩
  have hwork : Work month customer s.db pid (s.calls pid) := h.work pid
  rw [hdone] at hwork
  obtain ⟨-, _, hstore', -, hsettle⟩ := hwork
  cases hstore.symm.trans hstore'
  obtain ⟨_, hstore'', -, hall⟩ := hsettle hfinal
  cases hstore.symm.trans hstore''
  exact hall bookingId hsrc k x hx hbook

/-- Whatever the order in which bookings complete, orders are refunded and their events are
delivered: once the refund events have been handled, a referral is reversed exactly when the order
of its booking is fully refunded, and then all that was credited is taken back. -/
theorem converges_run {wallClockIn : Instant → ZonedWallClock} {customer : Uuid → Uuid}
    {es : List (Step ReferralRequest ReferralEnv)} {s : System ReferralDb Uuid ReferralPlace}
    (hrun : runFrom (referralRewards wallClockIn customer).step
      ((referralRewards wallClockIn customer).start .empty) es = some s)
    (hconsumed : Consumed s) : Converged s.db := by
  have h := holds_run hrun
  have hsound : Sound (tehranCalendarMonth wallClockIn) customer s.db := h.sound
  refine ⟨?_, ?_, ?_⟩
  · intro k x bookingId hx hbook
    constructor
    · exact fun hreversed => (hsound.of_reversed hx hreversed).2 bookingId hbook
    · rintro ⟨_, hrefd⟩
      exact reversed_of_refunded h hconsumed hrefd hx hbook
  · exact fun k x hx hreversed => (hsound.of_reversed hx hreversed).1
  · exact fun k x hx hkept => hsound.of_not_reversed hx hkept

/-! ## A refund that comes first -/

def taken (pid : ℕ) : Step ReferralRequest ReferralEnv := ⟨pid, .statement ⟨10, 100, 50, [12000]⟩⟩

/-- The order of the booking is placed and paid for, and refunded while the completed booking's
event is handled: the refund's handler finds nothing to reverse, and the reward's finds the order
refunded. -/
def refundedFirst : List (Step ReferralRequest ReferralEnv) :=
  ⟨0, .start (.attribute ⟨10, 1, 2, 0, 100, .pending⟩)⟩ :: taken 0 ::
    ⟨1, .start (.placeOrder ⟨7, .booking, 50, 2, .professional, 4, 1000, some ⟨1000, 1000, 0⟩⟩)⟩ ::
    taken 1 :: ⟨2, .start (.order 7 (.recordVerifiedCapture (.ofInt 1000) 5))⟩ ::
    List.replicate 3 (taken 2) ++ ⟨3, .start (.completeBooking 50)⟩ :: taken 3 ::
    ⟨4, .start (.deliver (.bookingCompleted 50))⟩ :: List.replicate 6 (taken 4) ++
    ⟨5, .start (.order 7 (.recordRefund (.ofInt 1000) 8 9))⟩ :: List.replicate 3 (taken 5) ++
    ⟨6, .start (.deliver (.orderRefunded 7 1))⟩ :: List.replicate 5 (taken 6) ++
    List.replicate 15 (taken 4)

/-- The calls that have handled the refund events, among some. -/
def ConsumedBy (pids : List ℕ) (s : System ReferralDb Uuid ReferralPlace) : Prop :=
  ∀ orderId ∈ s.db.orders.keys, ∀ store ∈ s.db.orders.committed orderId,
    ∀ index < store.outbox.length, (∃ e ∈ store.outbox[index]?, isOrderRefunded e = true) →
      ∃ pid ∈ pids, s.calls pid = .done (.orderRefunded orderId index)

instance (pids : List ℕ) : DecidablePred (ConsumedBy pids) :=
  fun _ => inferInstanceAs (Decidable (∀ _ ∈ _, _))

theorem ConsumedBy.consumed {pids : List ℕ} (h : ConsumedBy pids s) : Consumed s := by
  rintro orderId store index hstore ⟨e, he, hrefund⟩
  have hlt : index < store.outbox.length := (List.getElem?_eq_some_iff.1 he).1
  obtain ⟨pid, -, hdone⟩ := h orderId (mem_keys (Or.inl hstore)) store hstore index hlt
    ⟨e, he, hrefund⟩
  exact ⟨pid, hdone⟩

theorem converges_run_refundedFirst : ∃ s,
    runFrom (referralRewards spring fun _ => 2).step
      ((referralRewards spring fun _ => 2).start .empty) refundedFirst = some s ∧
    Consumed s ∧ Converged s.db := by
  have hsome : ∃ s ∈ runFrom (referralRewards spring fun _ => 2).step
      ((referralRewards spring fun _ => 2).start .empty) refundedFirst,
      ConsumedBy [6] s := by decide +kernel
  obtain ⟨s, hs, hcons⟩ := hsome
  exact ⟨s, hs, hcons.consumed, converges_run hs hcons.consumed⟩

end BeauClick.Referral
