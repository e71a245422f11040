import BeauClick.Referral.Work

/-!
# What a step leaves to the calls beside it

* `Beside` — a step adds rows, and changes none that the call relies on.
* `Apt` — a call writes about the one referral whose lock it holds.
* `beside_commit` — so its commit leaves the rest to the others.
-/

namespace BeauClick.Referral

open Commerce Locks ReadCommitted ReadCommitted.Versioned Transactions

/-! ## What is left -/

/-- The rows about a referral are as they were. -/
structure SameRows (id : Uuid) (db db' : ReferralDb) : Prop where
  rewardGrants : ∀ side, db'.rewardGrants.row (id, side) = db.rewardGrants.row (id, side)
  pointsEntries : ∀ reason, db'.pointsEntries.row (id, reason) = db.pointsEntries.row (id, reason)
  rewardReversals : ∀ side, db'.rewardReversals.row (id, side) = db.rewardReversals.row (id, side)

/-- Every order that was there has moved on, and no new one is a completed booking's. -/
structure Grows (db db' : ReferralDb) : Prop where
  old : ∀ orderId s, db.orders.committed orderId = some s →
    ∃ s', db'.orders.committed orderId = some s' ∧ Progress s s'
  new : ∀ orderId s', db'.orders.committed orderId = some s' →
    db.orders.committed orderId = none → ∀ b ∈ db.completed, ¬HasSource .booking b s'

/-- What a call may count on from one database to the next. -/
structure Beside (q : ℕ) (db db' : ReferralDb) : Prop where
  referrals : Others q db.referrals db'.referrals
  referrerCounters : Others q db.referrerCounters db'.referrerCounters
  rewardGrants : Others q db.rewardGrants db'.rewardGrants
  pointsEntries : Others q db.pointsEntries db'.pointsEntries
  rewardReversals : Others q db.rewardReversals db'.rewardReversals
  pending : db'.outbox.pending q = db.outbox.pending q
  committed : ∀ e ∈ db.outbox.committed, e ∈ db'.outbox.committed
  orders : Others q db.orders db'.orders
  grows : Grows db db'
  completed : ∀ b ∈ db.completed, b ∈ db'.completed
  rows : ∀ k x, db.referrals.Wrote q k x → SameRows x.id db db'
  settled : ∀ orderId, Settled db orderId → Settled db' orderId

variable {month : Instant → Option Period} {customer : Uuid → Uuid} {db db' : ReferralDb}
  {p q : ℕ} {id : Uuid}

theorem SameRows.refl (id : Uuid) (db : ReferralDb) : SameRows id db db :=
  ⟨fun _ => rfl, fun _ => rfl, fun _ => rfl⟩

theorem SameRows.sideSeen (h : SameRows id db db') (p : ℕ) (side : RewardSide) :
    db'.sideSeen p id side = db.sideSeen p id side := by
  simp only [ReferralDb.sideSeen, Versioned.get, h.rewardGrants, h.pointsEntries,
    h.rewardReversals]

theorem SameRows.side (h : SameRows id db db') (side : RewardSide) :
    db'.side id side = db.side id side := by
  simp only [ReferralDb.side, Versioned.committed, h.rewardGrants, h.pointsEntries,
    h.rewardReversals]

theorem Grows.of_eq (h : db'.orders.committed = db.orders.committed) : Grows db db' where
  old := fun orderId s hs => ⟨s, by rw [h, hs], .refl s⟩
  new := by
    intro orderId s' hs' hs
    rw [h, hs] at hs'
    cases hs'

theorem Grows.bookingRefunded (h : Grows db db') {orderId bookingId : Uuid}
    (hrefd : BookingRefunded db orderId bookingId) : BookingRefunded db' orderId bookingId := by
  obtain ⟨s, hs, hsrc, hfull⟩ := hrefd
  obtain ⟨s', hs', hprog⟩ := h.old orderId s hs
  exact ⟨s', hs', (hprog.source _ _).2 hsrc, hprog.refunded hfull⟩

theorem Grows.delivered (h : Grows db db') {orderId : Uuid} {index : ℕ}
    (hdelivered : Delivered db orderId index) : Delivered db' orderId index := by
  obtain ⟨s, hs, hlt⟩ := hdelivered
  obtain ⟨s', hs', hprog⟩ := h.old orderId s hs
  exact ⟨s', hs', hlt.trans_le hprog.length⟩

/-! ## What it is enough for -/

section Work

theorem Clean.beside (h : Clean db q) (hb : Beside q db db') : Clean db' q where
  referrals := hb.referrals.untouched h.referrals
  referrerCounters := hb.referrerCounters.untouched h.referrerCounters
  rewardGrants := hb.rewardGrants.untouched h.rewardGrants
  pointsEntries := hb.pointsEntries.untouched h.pointsEntries
  rewardReversals := hb.rewardReversals.untouched h.rewardReversals
  outbox := hb.pending.trans h.outbox
  orders := hb.orders.untouched h.orders

theorem Quiet.beside (h : Quiet db q) (hb : Beside q db db') : Quiet db' q where
  referrals := hb.referrals.untouched h.referrals
  referrerCounters := hb.referrerCounters.untouched h.referrerCounters
  rewardGrants := hb.rewardGrants.untouched h.rewardGrants
  pointsEntries := hb.pointsEntries.untouched h.pointsEntries
  rewardReversals := hb.rewardReversals.untouched h.rewardReversals
  outbox := hb.pending.trans h.outbox

variable {c x : ReferralAttributionEntity} {e : Qualification} {k : Uuid}
  {stage : RewardSide → SideView → Prop} {h : Handling}

theorem Owns.beside (h : Owns db q k c x) (hb : Beside q db db') : Owns db' q k c x where
  row := hb.referrals.row_of h.row
  only := hb.referrals.onlyAt h.only
  same := h.same
  rewardGrants := fun key hkey => h.rewardGrants key (hb.rewardGrants.writtenBy_iff.1 hkey)
  pointsEntries := fun key hkey => h.pointsEntries key (hb.pointsEntries.writtenBy_iff.1 hkey)
  rewardReversals := fun key hkey =>
    h.rewardReversals key (hb.rewardReversals.writtenBy_iff.1 hkey)
  orders := hb.orders.untouched h.orders

theorem Owns.sideSeen (h : Owns db q k c x) (hb : Beside q db db') (side : RewardSide) :
    db'.sideSeen q c.id side = db.sideSeen q c.id side := by
  rw [← h.same.1]
  exact (hb.rows k x (wrote_of_row h.row)).sideSeen q side

theorem Charged.beside (h : Charged month db q e) (hb : Beside q db db') :
    Charged month db' q e := by
  obtain ⟨period, c, n, hmonth, hrow, honly, hn⟩ := h
  exact ⟨period, c, n, hmonth, hb.referrerCounters.row_of hrow,
    hb.referrerCounters.onlyAt honly, hn⟩

theorem Qualifying.beside {pending : List ReferralEvent}
    (h : Qualifying month customer db q e pending stage) (hb : Beside q db db') :
    Qualifying month customer db' q e pending stage := by
  obtain ⟨hfair, hcharge, hcompl, hpend, c, hc, hof, howns, hsides⟩ := h
  refine ⟨hfair, hcharge.beside hb, hb.completed _ hcompl, hb.pending.trans hpend, c, hc,
    hof, howns.beside hb, ?_⟩
  intro side
  rw [hof.referralId, howns.sideSeen hb, ← hof.referralId]
  exact hsides side

theorem Beside.qualifications (hb : Beside q db db') (h : e ∈ db.qualifications) :
    e ∈ db'.qualifications := by
  obtain ⟨event, hmem, he⟩ := List.mem_filterMap.1 h
  exact List.mem_filterMap.2 ⟨event, hb.committed event hmem, he⟩

theorem Handling.Begun.beside (hbegun : h.Begun month db q c e) (hb : Beside q db db') :
    h.Begun month db' q c e := by
  cases h with
  | completed => exact ⟨hbegun.1, hbegun.2.1, hbegun.2.2.beside hb⟩
  | refunded =>
    exact ⟨hbegun.1, hb.qualifications hbegun.2.1,
      hb.referrerCounters.untouched hbegun.2.2.1, hb.grows.delivered hbegun.2.2.2⟩

theorem ReversingWork.beside {v : Reversing} {events : List ReferralEvent}
    (hwork : ReversingWork month customer db q h v events stage) (hb : Beside q db db') :
    ReversingWork month customer db' q h v events stage := by
  obtain ⟨c, x, e, hof, hfair, hbegun, habout, hpend, hevents, hrefd, hid, hrcpt,
    hx, howns, hsides⟩ := hwork
  refine ⟨c, x, e, hof, hfair, hbegun.beside hb, habout, hb.pending.trans hpend, hevents,
    hb.grows.bookingRefunded hrefd, hid, hrcpt, hx, howns.beside hb, ?_⟩
  intro side
  rw [howns.sideSeen hb]
  exact hsides side

theorem Handled.beside {e : Delivery} (h : Handled db e) (hb : Beside q db db') :
    Handled db' e := by
  cases e with
  | bookingCompleted => trivial
  | orderRefunded orderId index =>
    obtain ⟨s, hs, hlt, hsettle⟩ := h
    obtain ⟨s', hs', hprog⟩ := hb.grows.old orderId s hs
    exact ⟨s', hs', hlt.trans_le hprog.length,
      fun hfinal => hb.settled orderId (hsettle (hprog.final index hlt hfinal))⟩

theorem Unrefunded.beside {bookingId : Uuid} {orderId : Option Uuid}
    (h : Unrefunded db bookingId orderId) (hcompl : bookingId ∈ db.completed)
    (hb : Beside q db db')
    (hlocked : ∀ o ∈ orderId, ∀ s, db.orders.committed o = some s →
      db'.orders.committed o = some s) :
    Unrefunded db' bookingId orderId := by
  cases orderId with
  | some o =>
    obtain ⟨s, hs, hsrc⟩ := h
    exact ⟨s, hlocked o rfl s hs, hsrc⟩
  | none =>
    intro o s' hs'
    cases hs : db.orders.committed o with
    | none => exact hb.grows.new o s' hs' hs bookingId hcompl
    | some s =>
      obtain ⟨_, hs'', hprog⟩ := hb.grows.old o s hs
      cases hs''.symm.trans hs'
      exact fun hsrc => h o s hs ((hprog.source _ _).1 hsrc)

theorem work_beside {place : ReferralPlace} (h : Work month customer db q place)
    (hb : Beside q db db')
    (hlocked : ∀ o m, Holds place o m → ∀ s, db.orders.committed o = some s →
      db'.orders.committed o = some s) :
    Work month customer db' q place := by
  cases place with
  | done => exact ⟨h.1.beside hb, h.2.beside hb⟩
  | «nothing» event => exact ⟨h.1.beside hb, h.2.beside hb⟩
  | orderWritten =>
    obtain ⟨hquiet, honly, s, s', hrow, hs⟩ := h
    exact ⟨hquiet.beside hb, hb.orders.onlyAt honly, s, s', hb.orders.row_of hrow, hs⟩
  | qualify => exact ⟨h.1.beside hb, hb.completed _ h.2⟩
  | charge =>
    obtain ⟨hctrs, hpend, hcompl, c, hc, hid, hreferrer, hreferee, howns, hsides⟩ := h
    refine ⟨hb.referrerCounters.untouched hctrs, hb.pending.trans hpend,
      hb.completed _ hcompl, c, hc, hid, hreferrer, hreferee, howns.beside hb, ?_⟩
    intro side
    rw [howns.sideSeen hb]
    exact hsides side
  | grant => exact Qualifying.beside h hb
  | award => exact ⟨h.1, h.2.beside hb⟩
  | emitQualified | findBookingOrder => exact Qualifying.beside h hb
  | readBookingOrder e orderId =>
    obtain ⟨hwork, s, hs, hsrc⟩ := h
    exact ⟨hwork.beside hb, s, hlocked orderId _ ⟨rfl, rfl⟩ s hs, hsrc⟩
  | rewarded =>
    refine ⟨h.1.beside hb, h.2.beside h.1.2.2.1 hb ?_⟩
    rintro o rfl
    exact hlocked o _ ⟨rfl, rfl⟩
  | findOrder | readOrder => exact ⟨h.1.beside hb, hb.grows.delivered h.2⟩
  | reverse handling bookingId orderId =>
    obtain ⟨hrefd, habout, hrest⟩ := h
    refine ⟨hb.grows.bookingRefunded hrefd, habout, ?_⟩
    cases handling with
    | completed => exact ⟨hrest.1, hrest.2.beside hb⟩
    | refunded => exact ⟨hrest.1.beside hb, hb.grows.delivered hrest.2⟩
  | sideGrant | sideOriginal | sideClawback | sideRecord | emitReversed =>
    exact ReversingWork.beside h hb
  | reversed =>
    obtain ⟨e, hwork⟩ := h
    exact ⟨e, hwork.beside hb⟩
  | _ => exact Clean.beside h hb

end Work

/-! ## Writes, commits and rollbacks -/

section Steps

theorem Beside.of_committed (hrefls : Others q db.referrals db'.referrals)
    (hctrs : Others q db.referrerCounters db'.referrerCounters)
    (hgrants : Others q db.rewardGrants db'.rewardGrants)
    (hents : Others q db.pointsEntries db'.pointsEntries)
    (hreversals : Others q db.rewardReversals db'.rewardReversals)
    (hpend : db'.outbox.pending q = db.outbox.pending q)
    (hout : db'.outbox.committed = db.outbox.committed) (hords : Others q db.orders db'.orders)
    (hcomm : db'.orders.committed = db.orders.committed)
    (hreferral : db'.referrals.committed = db.referrals.committed)
    (hcompl : ∀ b ∈ db.completed, b ∈ db'.completed)
    (hrows : ∀ k x, db.referrals.Wrote q k x → SameRows x.id db db') : Beside q db db' where
  referrals := hrefls
  referrerCounters := hctrs
  rewardGrants := hgrants
  pointsEntries := hents
  rewardReversals := hreversals
  pending := hpend
  committed := fun e he => by rwa [hout]
  orders := hords
  grows := .of_eq hcomm
  completed := hcompl
  rows := hrows
  settled := by
    intro orderId hsettle
    unfold Settled
    rw [hcomm, hreferral]
    exact hsettle

theorem beside_refl (q : ℕ) (db : ReferralDb) : Beside q db db :=
  .of_committed .refl .refl .refl .refl .refl rfl rfl .refl rfl rfl (fun _ h => h)
    fun _ _ _ => .refl _ _

variable {k : Uuid} {x c : ReferralAttributionEntity}

section

variable (hq : q ≠ p)
include hq

theorem beside_referrals (hlock : ¬(db.referrals.row k).Locked p) :
    Beside q db { db with referrals := db.referrals.write p k x } :=
  .of_committed (others_write hq hlock) .refl .refl .refl .refl rfl rfl .refl rfl
    committed_write (fun _ h => h) fun _ _ _ => ⟨fun _ => rfl, fun _ => rfl, fun _ => rfl⟩

theorem beside_referrerCounters {key : Uuid × Period} {n : ℕ}
    (hlock : ¬(db.referrerCounters.row key).Locked p) :
    Beside q db { db with referrerCounters := db.referrerCounters.write p key n } :=
  .of_committed .refl (others_write hq hlock) .refl .refl .refl rfl rfl .refl rfl rfl
    (fun _ h => h) fun _ _ _ => ⟨fun _ => rfl, fun _ => rfl, fun _ => rfl⟩

/-- The other calls own other referrals. -/
def Alone (db : ReferralDb) (p : ℕ) (id : Uuid) : Prop :=
  ∀ q ≠ p, ∀ k x, db.referrals.Wrote q k x → x.id ≠ id

theorem beside_rewardGrants (hapart : Alone db p id) {side : RewardSide}
    {g : RewardGrantEntity} (hlock : ¬(db.rewardGrants.row (id, side)).Locked p) :
    Beside q db { db with rewardGrants := db.rewardGrants.write p (id, side) g } := by
  refine .of_committed .refl .refl (others_write hq hlock) .refl .refl rfl rfl .refl rfl rfl
    (fun _ h => h) ?_
  intro k x hx
  have hne : ∀ side', (x.id, side') ≠ (id, side) := fun side' heq =>
    hapart q hq k x hx (Prod.mk.inj heq).1
  exact ⟨fun side' => row_write_ne (hne side'), fun _ => rfl, fun _ => rfl⟩

theorem beside_pointsEntries (hapart : Alone db p id) {reason : LoyaltyReason}
    {e : PointsEntryEntity} (hlock : ¬(db.pointsEntries.row (id, reason)).Locked p) :
    Beside q db { db with pointsEntries := db.pointsEntries.write p (id, reason) e } := by
  refine .of_committed .refl .refl .refl (others_write hq hlock) .refl rfl rfl .refl rfl rfl
    (fun _ h => h) ?_
  intro k x hx
  have hne : ∀ reason', (x.id, reason') ≠ (id, reason) := fun reason' heq =>
    hapart q hq k x hx (Prod.mk.inj heq).1
  exact ⟨fun _ => rfl, fun reason' => row_write_ne (hne reason'), fun _ => rfl⟩

theorem beside_rewardReversals (hapart : Alone db p id) {side : RewardSide}
    {r : RewardReversalEntity} (hlock : ¬(db.rewardReversals.row (id, side)).Locked p) :
    Beside q db { db with rewardReversals := db.rewardReversals.write p (id, side) r } := by
  refine .of_committed .refl .refl .refl .refl (others_write hq hlock) rfl rfl .refl rfl rfl
    (fun _ h => h) ?_
  intro k x hx
  have hne : ∀ side', (x.id, side') ≠ (id, side) := fun side' heq =>
    hapart q hq k x hx (Prod.mk.inj heq).1
  exact ⟨fun _ => rfl, fun _ => rfl, fun side' => row_write_ne (hne side')⟩

theorem beside_outbox {e : ReferralEvent} :
    Beside q db { db with outbox := db.outbox.append p e } :=
  .of_committed .refl .refl .refl .refl .refl (Journal.pending_append_ne hq) rfl .refl rfl rfl
    (fun _ h => h) fun _ _ _ => ⟨fun _ => rfl, fun _ => rfl, fun _ => rfl⟩

theorem beside_orders {orderId : Uuid} {s : OrderStore}
    (hlock : ¬(db.orders.row orderId).Locked p) :
    Beside q db { db with orders := db.orders.write p orderId s } :=
  .of_committed .refl .refl .refl .refl .refl rfl rfl (others_write hq hlock)
    committed_write rfl (fun _ h => h) fun _ _ _ => ⟨fun _ => rfl, fun _ => rfl, fun _ => rfl⟩

end

theorem beside_completed {bookingId : Uuid} :
    Beside q db { db with completed := bookingId :: db.completed } :=
  .of_committed .refl .refl .refl .refl .refl rfl rfl .refl rfl rfl
    (fun _ h => List.mem_cons_of_mem _ h)
    fun _ _ _ => ⟨fun _ => rfl, fun _ => rfl, fun _ => rfl⟩

/-- The call has not written about the referral. -/
structure Unwritten (db : ReferralDb) (p : ℕ) (id : Uuid) : Prop where
  rewardGrants : ∀ side, ¬(db.rewardGrants.row (id, side)).WrittenBy p
  pointsEntries : ∀ reason, ¬(db.pointsEntries.row (id, reason)).WrittenBy p
  rewardReversals : ∀ side, ¬(db.rewardReversals.row (id, side)).WrittenBy p

theorem Unwritten.rollback (h : Unwritten db p id) : SameRows id db (db.rollback p) where
  rewardGrants := fun side => Row.rollback_of_not (h.rewardGrants side)
  pointsEntries := fun reason => Row.rollback_of_not (h.pointsEntries reason)
  rewardReversals := fun side => Row.rollback_of_not (h.rewardReversals side)

theorem Unwritten.commit (h : Unwritten db p id) : SameRows id db (db.commit p) where
  rewardGrants := fun side => Row.commit_of_not (h.rewardGrants side)
  pointsEntries := fun reason => Row.commit_of_not (h.pointsEntries reason)
  rewardReversals := fun side => Row.commit_of_not (h.rewardReversals side)

theorem Quiet.unwritten (h : Quiet db p) (id : Uuid) : Unwritten db p id where
  rewardGrants := fun side => h.rewardGrants (id, side)
  pointsEntries := fun reason => h.pointsEntries (id, reason)
  rewardReversals := fun side => h.rewardReversals (id, side)

theorem Owns.unwritten (h : Owns db p k c x) (hne : id ≠ x.id) : Unwritten db p id where
  rewardGrants := fun side hw => hne (h.rewardGrants (id, side) hw)
  pointsEntries := fun reason hw => hne (h.pointsEntries (id, reason) hw)
  rewardReversals := fun side hw => hne (h.rewardReversals (id, side) hw)

theorem Owns.alone (h : Owns db p k c x) (hid : Apart (fun x y => x.id = y.id) db.referrals) :
    Alone db p x.id := by
  intro q hq k' x' hx' heq
  have hx := wrote_of_row h.row
  obtain rfl : k' = k := hid k' k x' x (Or.inr ⟨q, hx'⟩) (Or.inr ⟨p, hx⟩) heq
  exact hq (Row.writtenBy_unique hx'.writtenBy hx.writtenBy)

/-- A call has written about the referral it owns, and about no other. -/
def Apt (db : ReferralDb) (p : ℕ) : Prop := Quiet db p ∨ ∃ k c x, Owns db p k c x

theorem Apt.unwritten (h : Apt db p) (hid : Apart (fun x y => x.id = y.id) db.referrals)
    (hq : q ≠ p) (hx : db.referrals.Wrote q k x) : Unwritten db p x.id := by
  rcases h with hquiet | ⟨_, _, _, howns⟩
  · exact hquiet.unwritten x.id
  · exact howns.unwritten (howns.alone hid q hq k x hx)

theorem beside_rollback (hq : q ≠ p) (hp : Apt db p)
    (hid : Apart (fun x y => x.id = y.id) db.referrals) : Beside q db (db.rollback p) :=
  .of_committed (others_rollback hq) (others_rollback hq) (others_rollback hq)
    (others_rollback hq) (others_rollback hq) (Journal.pending_rollback_ne hq) rfl
    (others_rollback hq) committed_rollback committed_rollback (fun _ h => h)
    fun _ _ hx => (hp.unwritten hid hq hx).rollback

theorem beside_commit (hq : q ≠ p) (hp : Apt db p)
    (hid : Apart (fun x y => x.id = y.id) db.referrals) (hgrows : Grows db (db.commit p))
    (hsettle : ∀ orderId, Settled db orderId → Settled (db.commit p) orderId) :
    Beside q db (db.commit p) where
  referrals := others_commit hq
  referrerCounters := others_commit hq
  rewardGrants := others_commit hq
  pointsEntries := others_commit hq
  rewardReversals := others_commit hq
  pending := Journal.pending_commit_ne hq
  committed := fun _ he => Journal.mem_committed_commit he
  orders := others_commit hq
  grows := hgrows
  completed := fun _ h => h
  rows := fun _ _ hx => (hp.unwritten hid hq hx).commit
  settled := hsettle

end Steps

end BeauClick.Referral
