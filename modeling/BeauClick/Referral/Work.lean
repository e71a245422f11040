import BeauClick.Referral.Calls

/-!
# What the referral tables say, and what a call has written

* `SideView` — what the tables say of one side of a referral.
* `Tally` — the counters count the qualifications of the month.
* `Sound` — what is committed.
* `Work` — what a call relies on, place by place.
-/

namespace BeauClick.Referral

open Commerce Locks ReadCommitted ReadCommitted.Versioned Transactions OrderStore List

/-! ## Orders -/

/-- The event at a place of the outbox, when it is the refund that left nothing to refund. -/
def Final (s : OrderStore) (index : ℕ) : Prop :=
  ∃ o ∈ s.order, ∃ orderId refundId amount total at',
    s.outbox[index]? = some (.orderRefunded orderId refundId amount total at') ∧
      o.collectedTotalToman ≤ total

/-- An order and its events. -/
structure OrderSound (s : OrderStore) : Prop where
  placed : s.order ≠ none
  /-- The status says that there was a refund, and no event states more than is refunded. -/
  event : ∀ o ∈ s.order, ∀ orderId refundId amount total at',
    .orderRefunded orderId refundId amount total at' ∈ s.outbox →
      (o.status = .partiallyRefunded ∨ o.status = .refunded) ∧ total ≤ o.refundedTotalToman
  partly : ∀ o ∈ s.order, o.status = .partiallyRefunded →
    o.refundedTotalToman < o.collectedTotalToman
  refunded : FullyRefunded s → ∃ index, Final s index

/-- How an order moves on. -/
structure Progress (s s' : OrderStore) : Prop where
  source : ∀ sourceType sourceId, HasSource sourceType sourceId s' ↔ HasSource sourceType sourceId s
  refunded : FullyRefunded s → FullyRefunded s'
  length : s.outbox.length ≤ s'.outbox.length
  final : ∀ index < s.outbox.length, Final s' index → Final s index

theorem Progress.refl (s : OrderStore) : Progress s s :=
  ⟨fun _ _ => Iff.rfl, id, le_refl _, fun _ _ h => h⟩

theorem OrderSound.fullyRefunded {s : OrderStore} {index : ℕ} (h : OrderSound s)
    (hfinal : Final s index) : FullyRefunded s := by
  obtain ⟨o, ho, orderId, refundId, amount, total, at', hev, _⟩ := hfinal
  obtain ⟨hstat | hstat, _⟩ :=
    h.event o ho orderId refundId amount total at' (mem_of_getElem? hev)
  · have hlt := h.partly o ho hstat
    omega
  · exact ⟨o, ho, hstat⟩

theorem orderSound_store (n : NewOrder) : OrderSound n.store where
  placed := by simp [NewOrder.store]
  event := by simp [NewOrder.store]
  partly := by simp [NewOrder.store]
  refunded := by simp [NewOrder.store, FullyRefunded]

/-- A statement that is no refund leaves the refund events, and finds none to leave where it
changes what they are about. -/
theorem progress_of_unrefunded {s : OrderStore} {o : OrderEntity} (o' : OrderEntity)
    (e : List CommerceEvent) (h : OrderSound s) (ho : s.order = some o)
    (hstat : o.status ≠ .partiallyRefunded ∧ o.status ≠ .refunded)
    (hstat' : o'.status ≠ .partiallyRefunded ∧ o'.status ≠ .refunded)
    (hsrc : o'.sourceType = o.sourceType ∧ o'.sourceId = o.sourceId)
    (he : ∀ x ∈ e, isOrderRefunded x = false) :
    OrderSound { s with order := some o', outbox := s.outbox ++ e } ∧
      Progress s { s with order := some o', outbox := s.outbox ++ e } := by
  have hnone : ∀ orderId refundId amount total at',
      CommerceEvent.orderRefunded orderId refundId amount total at' ∉ s.outbox ++ e := by
    intro orderId refundId amount total at' hmem
    rcases mem_append.1 hmem with hmem | hmem
    · rcases (h.event o ho _ _ _ _ _ hmem).1 with hs | hs
      · exact hstat.1 hs
      · exact hstat.2 hs
    · cases he _ hmem
  refine ⟨⟨by simp, ?_, ?_, ?_⟩, ⟨?_, ?_, ?_, ?_⟩⟩
  · intro o₁ ho₁ orderId refundId amount total at' hmem
    exact absurd hmem (hnone _ _ _ _ _)
  · intro o₁ ho₁ hp
    cases ho₁
    exact absurd hp hstat'.1
  · rintro ⟨o₁, ho₁, hr⟩
    cases ho₁
    exact absurd hr hstat'.2
  · intro sourceType sourceId
    simp [HasSource, ho, hsrc]
  · rintro ⟨o₁, ho₁, hr⟩
    cases ho.symm.trans ho₁
    exact absurd hr hstat.2
  · simp
  · rintro index - ⟨_, -, _, _, _, _, _, hev, -⟩
    exact absurd (mem_of_getElem? hev) (hnone _ _ _ _ _)

/-- A refund that is recorded is told of, and the one that refunds the rest says so. -/
theorem progress_recordRefund {n : ℤ} {refundId : Uuid} {now : Instant} {s s' : OrderStore}
    {b : Bool} (h : OrderSound s) (hpos : 0 < n)
    (hwithin : s.recordRefundWithin n refundId now = .ok (b, s')) :
    OrderSound s' ∧ Progress s s' := by
  rcases recordRefundWithin_cases hwithin with rfl | ⟨o, ho, hmem, -, rfl⟩
  · exact ⟨h, .refl _⟩
  have hopen : o.status ≠ .refunded := by
    intro hs
    simp [refundableStatuses, hs] at hmem
  refine ⟨⟨by simp, ?_, ?_, ?_⟩, ⟨?_, ?_, ?_, ?_⟩⟩
  · intro o₁ ho₁ orderId refundId' amount' total at' hev
    cases ho₁
    refine ⟨?_, ?_⟩
    · split_ifs <;> simp
    · rcases mem_append.1 hev with hev | hev
      · have htot := (h.event o ho _ _ _ _ _ hev).2
        dsimp only
        omega
      · cases mem_singleton.1 hev
        exact le_refl _
  · intro o₁ ho₁ hp
    cases ho₁
    dsimp only at hp ⊢
    split_ifs at hp with hfull
    omega
  · rintro ⟨o₁, ho₁, hr⟩
    cases ho₁
    split_ifs at hr with hfull
    exact ⟨s.outbox.length, _, rfl, o.id, refundId, n, _, now, by simp, hfull⟩
  · intro sourceType sourceId
    simp [HasSource, ho]
  · rintro ⟨o₁, ho₁, hr⟩
    cases ho.symm.trans ho₁
    exact absurd hr hopen
  · simp
  · rintro index hlt ⟨_, ho₁, orderId, refundId', amount', total, at', hev, hfinal⟩
    cases ho₁
    rw [getElem?_append_left hlt] at hev
    exact ⟨o, ho, orderId, refundId', amount', total, at', hev, hfinal⟩

theorem ok_of_map_snd {α : Type} {x : Except OrderError (α × OrderStore)} {s : OrderStore}
    (h : x.map (·.2) = .ok s) : ∃ outcome, x = .ok (outcome, s) := by
  cases x with
  | error => cases h
  | ok r =>
    cases h
    exact ⟨r.1, rfl⟩

theorem run_cases {op : OrderOperation} {s s' : OrderStore} (h : OrderSound s)
    (hrun : op.run s = .ok s') : OrderSound s' ∧ Progress s s' := by
  have hsame : OrderSound s ∧ Progress s s := ⟨h, .refl s⟩
  cases op with
  | recordVerifiedCapture =>
    obtain ⟨outcome, hres⟩ := ok_of_map_snd hrun
    rcases recordVerifiedCapture_cases hres with ⟨rfl, -⟩ |
      ⟨amount, o, sch, -, ho, -, hpend, -, -, -, -, o', rfl, -, rfl⟩
    · exact hsame
    · refine progress_of_unrefunded _ _ h ho (by simp [hpend]) ?_ ⟨rfl, rfl⟩ ?_
      · split_ifs <;> simp
      · intro x hx
        rw [mem_singleton.1 hx]
        split_ifs <;> rfl
  | confirmNoOnlineCollection =>
    obtain ⟨_, hres⟩ := ok_of_map_snd hrun
    rcases confirmNoOnlineCollection_cases hres with rfl | ⟨o, ho, hpend, rfl⟩
    · exact hsame
    · let o' : OrderEntity := { o with status := .onlineCollectionNotRequired }
      have hnext := progress_of_unrefunded o' [] h ho (by simp [hpend])
        (by simp [o']) ⟨rfl, rfl⟩ (by simp)
      simpa only [append_nil] using hnext
  | cancel reason now =>
    simp only [OrderOperation.run, Except.ok.injEq] at hrun
    subst hrun
    rcases cancel_cases s reason now with heq | ⟨_, ho, hmem, heq⟩
    · rw [heq]
      exact hsame
    · rw [heq]
      refine progress_of_unrefunded _ _ h ho ?_ (by simp) ⟨rfl, rfl⟩ (by simp [isOrderRefunded])
      simp only [cancellableStatuses, mem_cons, not_mem_nil, or_false] at hmem
      rcases hmem with hs | hs <;> simp [hs]
  | recordRefund =>
    obtain ⟨_, hres⟩ := ok_of_map_snd hrun
    rcases recordRefund_cases hres with rfl | ⟨_, hpos, hwithin⟩
    · exact hsame
    · exact progress_recordRefund h hpos hwithin

/-- A booking's order is fully refunded. -/
def BookingRefunded (db : ReferralDb) (orderId bookingId : Uuid) : Prop :=
  ∃ s, db.orders.committed orderId = some s ∧ HasSource .booking bookingId s ∧ FullyRefunded s

/-- Two orders have one source. -/
def SameSource (s s' : OrderStore) : Prop :=
  ∃ sourceType sourceId, HasSource sourceType sourceId s ∧ HasSource sourceType sourceId s'

theorem SameSource.symm {s s' : OrderStore} (h : SameSource s s') : SameSource s' s := by
  obtain ⟨sourceType, sourceId, hs, hs'⟩ := h
  exact ⟨sourceType, sourceId, hs', hs⟩

/-! ## The two sides of a referral -/

/-- What is stored about a side. -/
structure SideView where
  grant : Option RewardGrantEntity
  reward : Option PointsEntryEntity
  clawback : Option PointsEntryEntity
  reversal : Option RewardReversalEntity

/-- A side as the transaction reads it. -/
def ReferralDb.sideSeen (db : ReferralDb) (pid : ℕ) (id : Uuid) (side : RewardSide) : SideView where
  grant := db.rewardGrants.get pid (id, side)
  reward := db.pointsEntries.get pid (id, rewardReasonBySide side)
  clawback := db.pointsEntries.get pid (id, reversalReasonBySide side)
  reversal := db.rewardReversals.get pid (id, side)

/-- A side as it is committed. -/
def ReferralDb.side (db : ReferralDb) (id : Uuid) (side : RewardSide) : SideView where
  grant := db.rewardGrants.committed (id, side)
  reward := db.pointsEntries.committed (id, rewardReasonBySide side)
  clawback := db.pointsEntries.committed (id, reversalReasonBySide side)
  reversal := db.rewardReversals.committed (id, side)

namespace SideView

def Fresh (v : SideView) : Prop := v = ⟨none, none, none, none⟩

/-- The grant is recorded, and nothing awarded yet. -/
def Granted (q : Qualification) (side : RewardSide) (v : SideView) : Prop :=
  v = ⟨some (q.grant side), none, none, none⟩

/-- The grant is recorded, and awarded when it is to be, under some multiplier. -/
structure Rewarded (q : Qualification) (side : RewardSide) (v : SideView) : Prop where
  grant : v.grant = some (q.grant side)
  awarded : q.outcome side = .awarded → 0 < q.points side ∧ ∃ multiplierBp, 10000 ≤ multiplierBp ∧
    v.reward = some (awardEntry (q.recipient side) (q.points side) multiplierBp)
  unpaid : q.outcome side ≠ .awarded → v.reward = none

/-- Nothing is taken back. -/
def Standing (v : SideView) : Prop := v.clawback = none ∧ v.reversal = none

/-- What is taken back of a reward. -/
def takenBack (recipientUserId : Uuid) : Option PointsEntryEntity → SideReversal
  | some original => ⟨recipientUserId, .reversed, original.points⟩
  | none => ⟨recipientUserId, .nothingToReverse, 0⟩

/-- What was awarded is taken back in the ledger, and no reversal recorded yet. -/
def Clawed (v : SideView) : Prop :=
  v.clawback = v.reward.map PointsEntryEntity.reversal ∧ v.reversal = none

/-- What was awarded is taken back, and the reversal says so. -/
def Undone (recipientUserId : Uuid) (v : SideView) : Prop :=
  v.clawback = v.reward.map PointsEntryEntity.reversal ∧ ∃ r, v.reversal = some r ∧
    (⟨r.recipientUserId, r.outcome, r.points⟩ : SideReversal) = takenBack recipientUserId v.reward

end SideView

/-- Of the two sides one has its turn, and those before it are done. -/
def AtTurn (turn : RewardSide) (done now later : RewardSide → SideView → Prop) (side : RewardSide)
    (v : SideView) : Prop :=
  if side = turn then now side v else if turn = .referee then done side v else later side v

/-! ## What is committed -/

/-- The qualification is one of the referral. -/
structure Qualification.Of (q : Qualification) (x : ReferralAttributionEntity) : Prop where
  referralId : q.referralId = x.id
  recipient : ∀ side, q.recipient side = x.recipient side

/-- Both sides are decided by the configured values, apart from the cap. -/
structure Qualification.Fair (q : Qualification) : Prop where
  referee : q.refereeOutcome = payable q.refereePoints
  referrer : q.referrerOutcome = .capped ∨ q.referrerOutcome = payable q.referrerPoints

/-- What is stored about a referral is what its state says. -/
def Account (db : ReferralDb) (x : ReferralAttributionEntity) : Prop :=
  match x.state with
  | .pending => ∀ side, (db.side x.id side).Fresh
  | .qualified qualifiedAt bookingId =>
    ∃ q ∈ db.qualifications, q.Of x ∧ q.Fair ∧ q.qualifiedAt = qualifiedAt ∧
      q.qualifyingBookingId = bookingId ∧
      ∀ side, (db.side x.id side).Rewarded q side ∧ (db.side x.id side).Standing
  | .reversed qualifiedAt bookingId _ orderId =>
    (∃ q ∈ db.qualifications, q.Of x ∧ q.Fair ∧ q.qualifiedAt = qualifiedAt ∧
      q.qualifyingBookingId = bookingId ∧
      ∀ side, (db.side x.id side).Rewarded q side ∧ (db.side x.id side).Undone (x.recipient side)) ∧
      BookingRefunded db orderId bookingId

/-- There is a committed referral with the id. -/
def Attributed (db : ReferralDb) (id : Uuid) : Prop :=
  ∃ k x, db.referrals.committed k = some x ∧ x.id = id

section Months

variable (month : Instant → Option Period)

/-- The qualification is one of a referrer and a month. -/
def InMonth (referrerUserId : Uuid) (period : Period) (q : Qualification) : Prop :=
  q.referrerUserId = referrerUserId ∧ month q.qualifiedAt = some period

instance (referrerUserId : Uuid) (period : Period) :
    DecidablePred (InMonth month referrerUserId period) :=
  fun _ => inferInstanceAs (Decidable (_ ∧ _))

/-- The qualification is counted against the referrer's cap in the month. -/
def Counted (referrerUserId : Uuid) (period : Period) (q : Qualification) : Prop :=
  InMonth month referrerUserId period q ∧ q.referrerOutcome ≠ .capped

instance (referrerUserId : Uuid) (period : Period) :
    DecidablePred (Counted month referrerUserId period) :=
  fun _ => inferInstanceAs (Decidable (_ ∧ _))

/-- How many qualifications are counted for a referrer in a month. -/
def counted (referrerUserId : Uuid) (period : Period) (qs : List Qualification) : ℕ :=
  qs.countP fun q => Counted month referrerUserId period q

/-- A qualification is capped when those before it have spent the cap, and only then. -/
def Roomy (qs : List Qualification) : Prop :=
  ∀ before q after, qs = before ++ q :: after → ∃ period, month q.qualifiedAt = some period ∧
    (q.referrerOutcome = .capped ↔
      referralMonthlyCap ≤ counted month q.referrerUserId period before)

/-- The qualifications that are recorded and the referrers' counters agree. -/
structure Tally (qs : List Qualification) (counters : Uuid × Period → Option ℕ) : Prop where
  once : (qs.map (·.referralId)).Nodup
  counter : ∀ referrerUserId period,
    (counters (referrerUserId, period)).getD 0 = counted month referrerUserId period qs
  cap : ∀ key n, counters key = some n → n ≤ referralMonthlyCap
  room : Roomy month qs

/-- What holds of the committed rows, and the unique indexes of all. -/
structure Sound (customer : Uuid → Uuid) (db : ReferralDb) : Prop where
  referee : ∀ k x, db.referrals.committed k = some x → x.refereeUserId = k
  id : Apart (fun x y => x.id = y.id) db.referrals
  booking : ∀ k x bookingId, db.referrals.committed k = some x →
    x.state.qualifyingBookingId = some bookingId → k = customer bookingId
  account : ∀ k x, db.referrals.committed k = some x → Account db x
  known : ∀ id side, ¬(db.side id side).Fresh → Attributed db id
  event : ∀ q ∈ db.qualifications, ∃ k x, db.referrals.committed k = some x ∧
    x.id = q.referralId ∧ x.state ≠ .pending
  tally : Tally month db.qualifications db.referrerCounters.committed
  order : ∀ orderId s, db.orders.committed orderId = some s → OrderSound s
  source : Apart SameSource db.orders

end Months

/-! ## What a call has written -/

/-- The call has written no row but one of an order. -/
structure Quiet (db : ReferralDb) (pid : ℕ) : Prop where
  referrals : db.referrals.Untouched pid
  referrerCounters : db.referrerCounters.Untouched pid
  rewardGrants : db.rewardGrants.Untouched pid
  pointsEntries : db.pointsEntries.Untouched pid
  rewardReversals : db.rewardReversals.Untouched pid
  outbox : db.outbox.pending pid = []

/-- The call has written nothing. -/
structure Clean (db : ReferralDb) (pid : ℕ) : Prop extends Quiet db pid where
  orders : db.orders.Untouched pid

/-- The call has written one referral, and other rows about it only. -/
structure Owns (db : ReferralDb) (pid : ℕ) (k : Uuid) (c x : ReferralAttributionEntity) : Prop where
  row : db.referrals.row k = ⟨some c, some (pid, x)⟩
  only : db.referrals.OnlyAt pid k
  same : x.id = c.id ∧ x.refereeUserId = c.refereeUserId ∧
    ∀ side, x.recipient side = c.recipient side
  rewardGrants : ∀ key, (db.rewardGrants.row key).WrittenBy pid → key.1 = x.id
  pointsEntries : ∀ key, (db.pointsEntries.row key).WrittenBy pid → key.1 = x.id
  rewardReversals : ∀ key, (db.rewardReversals.row key).WrittenBy pid → key.1 = x.id
  orders : db.orders.Untouched pid

/-- The call has charged the cap for its qualification, or found it spent. -/
def Charged (month : Instant → Option Period) (db : ReferralDb) (pid : ℕ) (q : Qualification) :
    Prop :=
  ∃ period c n, month q.qualifiedAt = some period ∧
    db.referrerCounters.row (q.referrerUserId, period) = ⟨c, some (pid, n)⟩ ∧
    db.referrerCounters.OnlyAt pid (q.referrerUserId, period) ∧
    (q.referrerOutcome ≠ .capped ∧ c.getD 0 < referralMonthlyCap ∧ n = c.getD 0 + 1 ∨
      q.referrerOutcome = .capped ∧ c = some n ∧ referralMonthlyCap ≤ n)

/-- The order's events that are handled leave its booking no qualified referral, when the order is
fully refunded. -/
def Settled (db : ReferralDb) (orderId : Uuid) : Prop :=
  ∃ s, db.orders.committed orderId = some s ∧ FullyRefunded s ∧
    ∀ bookingId, HasSource .booking bookingId s → ∀ k x, db.referrals.committed k = some x →
      x.state.qualifyingBookingId = some bookingId → x.state.IsReversed

/-- The event is in the outbox of its order. -/
def Delivered (db : ReferralDb) (orderId : Uuid) (index : ℕ) : Prop :=
  ∃ s, db.orders.committed orderId = some s ∧ index < s.outbox.length

/-- The event has been handled. -/
def Handled (db : ReferralDb) : Delivery → Prop
  | .bookingCompleted _ => True
  | .orderRefunded orderId index => ∃ s, db.orders.committed orderId = some s ∧
      index < s.outbox.length ∧ (Final s index → Settled db orderId)

/-- What was known of the order when the call read it, and its lock keeps. -/
def Unrefunded (db : ReferralDb) (bookingId : Uuid) : Option Uuid → Prop
  | none => ∀ orderId s, db.orders.committed orderId = some s → ¬HasSource .booking bookingId s
  | some orderId => ∃ s, db.orders.committed orderId = some s ∧ HasSource .booking bookingId s ∧
      ¬FullyRefunded s

section Calls

variable (month : Instant → Option Period) (customer : Uuid → Uuid) (db : ReferralDb) (pid : ℕ)

/-- The call has won a referral, and decided on its reward. -/
def Qualifying (q : Qualification) (pending : List ReferralEvent)
    (stage : RewardSide → SideView → Prop) : Prop :=
  q.Fair ∧ Charged month db pid q ∧ q.qualifyingBookingId ∈ db.completed ∧
    db.outbox.pending pid = pending ∧ ∃ c, c.state = .pending ∧ q.Of c ∧
      Owns db pid (customer q.qualifyingBookingId) c
        (c.qualify q.qualifiedAt q.qualifyingBookingId) ∧
      ∀ side, stage side (db.sideSeen pid q.referralId side)

/-- What the transaction that a reversal is part of has written before it. -/
def Handling.Begun (c : ReferralAttributionEntity) (q : Qualification) : Handling → Prop
  | .completed q' => q' = q ∧ c.state = .pending ∧ Charged month db pid q
  | .refunded orderId index => c.state = .qualified q.qualifiedAt q.qualifyingBookingId ∧
      q ∈ db.qualifications ∧ db.referrerCounters.Untouched pid ∧ Delivered db orderId index

/-- The events of that transaction before the reversal. -/
def Handling.pending : Handling → List ReferralEvent
  | .completed q => [.qualified q]
  | .refunded .. => []

/-- The order that the transaction is about: the one of the event, or the booking's. -/
def Handling.About (orderId : Uuid) : Handling → Prop
  | .completed _ => True
  | .refunded orderId' _ => orderId' = orderId

/-- The call has won a referral for its reversal. -/
def ReversingWork (h : Handling) (v : Reversing) (events : List ReferralEvent)
    (stage : RewardSide → SideView → Prop) : Prop :=
  ∃ c x q, q.Of c ∧ q.Fair ∧ h.Begun month db pid c q ∧ h.About v.orderId ∧
    db.outbox.pending pid = h.pending ++ events ∧
    (∀ e ∈ events, e.qualification? = none) ∧
    BookingRefunded db v.orderId q.qualifyingBookingId ∧ v.referralId = c.id ∧
    (∀ side, v.recipient side = c.recipient side) ∧
    x.state = .reversed q.qualifiedAt q.qualifyingBookingId v.now v.orderId ∧
    Owns db pid (customer q.qualifyingBookingId) c x ∧
    ∀ side, (db.sideSeen pid c.id side).Rewarded q side ∧ stage side (db.sideSeen pid c.id side)

/-- Both sides are granted and awarded. -/
def complete (q : Qualification) (side : RewardSide) (v : SideView) : Prop :=
  v.Rewarded q side ∧ v.Standing

/-- The stages of a reversal: what is behind is undone, what is ahead stands. -/
def undoing (v : Reversing) (now : SideView → Prop) (turn : Turn) : RewardSide → SideView → Prop :=
  AtTurn turn.side (fun side => SideView.Undone (v.recipient side)) (fun _ => now)
    fun _ => SideView.Standing

/-- What a call has written at its place, and what it has found. -/
def Work : ReferralPlace → Prop
  | .done event | .nothing event => Clean db pid ∧ Handled db event
  | .orderWritten orderId => Quiet db pid ∧ db.orders.OnlyAt pid orderId ∧
      ∃ s s', db.orders.row orderId = ⟨some s, some (pid, s')⟩ ∧ OrderSound s' ∧ Progress s s'
  | .qualify bookingId => Clean db pid ∧ bookingId ∈ db.completed
  | .charge w => db.referrerCounters.Untouched pid ∧ db.outbox.pending pid = [] ∧
      w.bookingId ∈ db.completed ∧ ∃ c, c.state = .pending ∧ w.referralId = c.id ∧
        w.referrerUserId = c.referrerUserId ∧ w.refereeUserId = c.refereeUserId ∧
        Owns db pid (customer w.bookingId) c (c.qualify w.now w.bookingId) ∧
        ∀ side, (db.sideSeen pid c.id side).Fresh
  | .grant q side => Qualifying month customer db pid q []
      (AtTurn side (complete q) (fun _ => SideView.Fresh) fun _ => SideView.Fresh)
  | .award q side => (q.grant side).Checked side ∧ Qualifying month customer db pid q []
      (AtTurn side (complete q) (SideView.Granted q) fun _ => SideView.Fresh)
  | .emitQualified q => Qualifying month customer db pid q [] (complete q)
  | .findBookingOrder q => Qualifying month customer db pid q [.qualified q] (complete q)
  | .readBookingOrder q orderId =>
      Qualifying month customer db pid q [.qualified q] (complete q) ∧
        ∃ s, db.orders.committed orderId = some s ∧ HasSource .booking q.qualifyingBookingId s
  | .rewarded q orderId => Qualifying month customer db pid q [.qualified q] (complete q) ∧
      Unrefunded db q.qualifyingBookingId orderId
  | .findOrder orderId index | .readOrder orderId index => Clean db pid ∧ Delivered db orderId index
  | .reverse h bookingId orderId => BookingRefunded db orderId bookingId ∧ h.About orderId ∧
      match h with
      | .completed q => bookingId = q.qualifyingBookingId ∧
          Qualifying month customer db pid q [.qualified q] (complete q)
      | .refunded orderId index => Clean db pid ∧ Delivered db orderId index
  | .sideGrant h v turn =>
      ReversingWork month customer db pid h v [] (undoing v SideView.Standing turn)
  | .sideOriginal h v turn _ =>
      ReversingWork month customer db pid h v [] (undoing v SideView.Standing turn)
  | .sideClawback h v turn original => ReversingWork month customer db pid h v []
      (undoing v (fun view => view.Standing ∧ view.reward = some original) turn)
  | .sideRecord h v turn d => ReversingWork month customer db pid h v []
      (undoing v (fun view => view.Clawed ∧
        d = SideView.takenBack (v.recipient turn.side) view.reward) turn)
  | .emitReversed h v _ _ =>
      ReversingWork month customer db pid h v [] fun side => SideView.Undone (v.recipient side)
  | .reversed h v => ∃ e, ReversingWork month customer db pid h v [e]
      fun side => SideView.Undone (v.recipient side)
  | _ => Clean db pid

end Calls

/-- The lock that a call relies on. -/
def Holds : ReferralPlace → Uuid → LockMode → Prop
  | .orderLocked orderId _, key, mode | .orderWritten orderId, key, mode =>
      key = orderId ∧ mode = .exclusive
  | .readBookingOrder _ orderId, key, mode | .rewarded _ (some orderId), key, mode =>
      key = orderId ∧ mode = .shared
  | _, _, _ => False

/-- What holds of the database, and what the calls rely on. -/
def rewarding (month : Instant → Option Period) (customer : Uuid → Uuid) :
    Outline ReferralDb Uuid ReferralPlace ReferralEnv where
  Assumes := fun _ _ _ _ => True
  Sound := Sound month customer
  Guarantee := fun _ _ => True
  Work := Work month customer
  holds := Holds

end BeauClick.Referral
