import BeauClick.Waitlist.Offers

/-!
# What the ends of transactions on the waitlist keep

* `Moves` — an entry goes from one status to another.
* `Remembers` — a commit forgets no slot.
* `moves_offer`, `moves_accept`, `moves_end` — the three commits that move an entry.
-/

namespace BeauClick.Waitlist

open Locks ReadCommitted ReadCommitted.Versioned Runs Transactions List
open Function (update update_self update_of_ne)
open Scheduling (AvailabilitySlotEntity)

variable {config : WaitlistConfig} {env : WaitlistEnv} {db db' : WaitlistDb} {p q : ℕ}
  {place place' : WaitlistPlace} {k s professionalId : Uuid} {x y : WaitlistEntryEntity}
  {events : List WaitlistEvent} {o : Offer} {event : WaitlistEvent}

/-! ## Entries that are moved on -/

/-- One entry is moved on, and events tell of it.  No slot is opened, and one whose offer has
ended is not open, or reopened by one of the events. -/
structure Moves (db db' : WaitlistDb) (k : Uuid) (x y : WaitlistEntryEntity)
    (events : List WaitlistEvent) : Prop where
  old : db.entries.committed k = some x
  entries : db'.entries.committed = update db.entries.committed k (some y)
  outbox : db'.outbox.committed = db.outbox.committed ++ events
  published : db'.published = db.published
  slots : ∀ s slot, db.slots.committed s = some slot →
    ∃ slot', db'.slots.committed s = some slot' ∧ slot'.professionalId = slot.professionalId ∧
      slot'.serviceId = slot.serviceId
  opened : ∀ s slot, db'.slots.committed s = some slot → slot.status = .open →
    db.slots.committed s = some slot
  bookings : ∀ b v, db.bookings.committed b = some v → db'.bookings.committed b = some v
  keys : ∀ c k' b, db'.idempotencyKeys.committed (c, k') = some b →
    db.idempotencyKeys.committed (c, k') = some b ∨ k' = k ∧ y.status = .accepted
  customer : y.customerId = x.customerId
  professional : y.professionalId = x.professionalId
  notWaiting : y.status ≠ .waiting
  notAccepted : x.status ≠ .accepted
  offer : x.status ≠ .waiting → y.offeredSlotId = x.offeredSlotId
  slot : SlotOf db y.offeredSlotId y.professionalId
  booking : y.status = .accepted → HasBooking db' y
  unbooked : y.status ≠ .accepted → y.resultingBookingId = none
  reopens : ∀ e ∈ events, ∀ professionalId slotId, e.reopens = some (professionalId, slotId) →
    SlotOf db slotId professionalId
  offers : ∀ k', (events.countP fun e => e.offeredTo = some k') = 0 ∨
    k' = k ∧ x.status = .waiting ∧ (events.countP fun e => e.offeredTo = some k') ≤ 1
  ended : x.status = .offered → ∀ s, x.offeredSlotId = some s →
    (∃ e ∈ events, ∃ professionalId, e.reopens = some (professionalId, some s)) ∨
      ∀ slot, db'.slots.committed s = some slot → slot.status ≠ .open

section

variable (h : Moves db db' k x y events)
include h

theorem Moves.entry_self : db'.entries.committed k = some y := by
  rw [h.entries, update_self]

theorem Moves.entry_ne {k' : Uuid} (hne : k' ≠ k) :
    db'.entries.committed k' = db.entries.committed k' := by
  rw [h.entries, update_of_ne hne]

theorem Moves.grows : Grows db db' where
  slot := h.slots
  entry := by
    intro k' x' hx'
    by_cases hne : k' = k
    · subst hne
      cases h.old.symm.trans hx'
      exact ⟨y, h.entry_self, h.customer, h.professional, fun hx => ⟨h.notWaiting, h.offer hx⟩⟩
    · exact ⟨x', (h.entry_ne hne).trans hx', rfl, rfl, fun hx => ⟨hx, rfl⟩⟩
  events := by
    rw [h.outbox]
    exact prefix_append ..

theorem Moves.offersTo (k' : Uuid) :
    offersTo db' k' = offersTo db k' + events.countP fun e => e.offeredTo = some k' := by
  unfold Waitlist.offersTo
  rw [h.outbox, countP_append]

end

theorem HasBooking.mono (hb : HasBooking db x)
    (h : ∀ b v, db.bookings.committed b = some v → db'.bookings.committed b = some v) :
    HasBooking db' x := by
  obtain ⟨b, hx, booking, hbook, hrest⟩ := hb
  exact ⟨b, hx, booking, h b booking hbook, hrest⟩

theorem WaitlistSound.moves (hs : WaitlistSound db) (h : Moves db db' k x y events)
    (hapart : Apart SameOffer db'.entries) : WaitlistSound db' where
  apart := hapart
  offered := by
    intro k' x' hx' hstat
    by_cases hne : k' = k
    · subst hne
      cases h.entry_self.symm.trans hx'
      exact h.slot.grows h.grows
    · rw [h.entry_ne hne] at hx'
      exact (hs.offered k' x' hx' hstat).grows h.grows
  booking := by
    intro k' x' hx' hstat
    by_cases hne : k' = k
    · subst hne
      cases h.entry_self.symm.trans hx'
      exact h.booking hstat
    · rw [h.entry_ne hne] at hx'
      exact (hs.booking k' x' hx' hstat).mono h.bookings
  unbooked := by
    intro k' x' hx' hstat
    by_cases hne : k' = k
    · subst hne
      cases h.entry_self.symm.trans hx'
      exact h.unbooked hstat
    · rw [h.entry_ne hne] at hx'
      exact hs.unbooked k' x' hx' hstat
  once := by
    intro k'
    rw [h.offersTo]
    rcases h.offers k' with hzero | ⟨rfl, hwait, hone⟩
    · rw [hzero]
      exact hs.once k'
    · rw [hs.never k' x h.old hwait, Nat.zero_add]
      exact hone
  never := by
    intro k' x' hx' hwait
    have hne : k' ≠ k := by
      rintro rfl
      cases h.entry_self.symm.trans hx'
      exact h.notWaiting hwait
    rw [h.entry_ne hne] at hx'
    rw [h.offersTo, hs.never k' x' hx' hwait]
    rcases h.offers k' with hzero | ⟨heq, -⟩
    · rw [hzero]
    · exact absurd heq hne
  event := by
    intro e he professionalId slotId hreop
    rw [h.outbox] at he
    rcases mem_append.1 he with hold | hnew
    · exact (hs.event e hold professionalId slotId hreop).grows h.grows
    · exact (h.reopens e hnew professionalId slotId hreop).grows h.grows
  key := by
    intro c k' b hkey
    rcases h.keys c k' b hkey with hold | ⟨rfl, hacc⟩
    · obtain ⟨x', hx', hacc⟩ := hs.key c k' b hold
      have hne : k' ≠ k := by
        rintro rfl
        cases h.old.symm.trans hx'
        exact h.notAccepted hacc
      exact ⟨x', (h.entry_ne hne).trans hx', hacc⟩
    · exact ⟨y, h.entry_self, hacc⟩
  published := by
    intro n hn
    rw [h.published] at hn
    exact (hs.published n hn).trans_le h.grows.events.length_le

/-! ## Slots that are not forgotten -/

/-- A slot that was served still is, or an event that reopens it is new; and a call that is about
to mark an event leaves its slot served. -/
structure Remembers (db : WaitlistDb) (place : WaitlistPlace) (db' : WaitlistDb)
    (place' : WaitlistPlace) : Prop where
  grows : Grows db db'
  kept : ∀ s, Served db s →
    Served db' s ∨ ∃ n, db.outbox.committed.length ≤ n ∧ ReopenedAt db' n s
  published : db'.published = db.published ∨
    ∃ n, place = .publish n ∧ db'.published = n :: db.published
  told : Told db' place'

section

variable (h : SameCommitted db db')
include h

theorem SameCommitted.served (hs : Served db s) : Served db' s := by
  unfold Served Live
  rw [h.slots, h.entries]
  exact hs

theorem SameCommitted.told (ht : Told db place) : Told db' place := by
  intro n hplace s hreop
  unfold ReopenedAt at hreop
  rw [h.outbox] at hreop
  exact h.served (ht n hplace s hreop)

theorem SameCommitted.remembers (ht : Told db place') :
    Remembers db place db' place' :=
  ⟨h.grows, fun _ hs => Or.inl (h.served hs), Or.inl h.published, h.told ht⟩

end

theorem reopenedAt_new {e : WaitlistEvent}
    (hout : db'.outbox.committed = db.outbox.committed ++ events) (he : e ∈ events)
    (hreop : e.reopens = some (professionalId, some s)) :
    ∃ n, db.outbox.committed.length ≤ n ∧ ReopenedAt db' n s := by
  obtain ⟨i, hi⟩ := getElem?_of_mem he
  refine ⟨db.outbox.committed.length + i, Nat.le_add_right .., e, professionalId, ?_, hreop⟩
  rw [hout, getElem?_append_right (Nat.le_add_right ..), Nat.add_sub_cancel_left]
  exact hi

theorem Moves.remembers (h : Moves db db' k x y events) (ht : Told db' place') :
    Remembers db place db' place' where
  grows := h.grows
  kept := by
    intro s hs
    by_cases hended : x.status = .offered ∧ x.offeredSlotId = some s
    · rcases h.ended hended.1 s hended.2 with ⟨_, he, _, hreop⟩ | hclosed
      · exact Or.inr (reopenedAt_new h.outbox he hreop)
      · exact Or.inl fun slot hslot hopen => absurd hopen (hclosed slot hslot)
    · left
      intro slot hslot hopen
      rcases hs slot (h.opened s slot hslot hopen) hopen with ⟨k', x', hx', hlive⟩ | hnobody
      · have hne : k' ≠ k := by
          rintro rfl
          cases h.old.symm.trans hx'
          exact hended hlive
        exact Or.inl ⟨k', x', (h.entry_ne hne).trans hx', hlive⟩
      · right
        intro k' x' hx' hwaits
        by_cases hne : k' = k
        · subst hne
          cases h.entry_self.symm.trans hx'
          exact h.notWaiting hwaits.1
        · rw [h.entry_ne hne] at hx'
          exact hnobody k' x' hx' hwaits
  published := Or.inl h.published
  told := ht

/-! ## The entries that are moved on -/

theorem Has.committed_commit (h : Has db p k x y) :
    (db.commit p).entries.committed = update db.entries.committed k (some y) :=
  committed_commit_of_onlyAt (wrote_of_row h.row) h.only

theorem moves_commit (hrest : Rest db p) (hhas : Has db p k x y)
    (hevents : db.outbox.pending p = events) (hcust : y.customerId = x.customerId)
    (hprof : y.professionalId = x.professionalId) (hwait : y.status ≠ .waiting)
    (hnot : x.status ≠ .accepted) (hacc : y.status ≠ .accepted)
    (hoffer : x.status ≠ .waiting → y.offeredSlotId = x.offeredSlotId)
    (hslot : SlotOf db y.offeredSlotId y.professionalId) (hunbooked : y.resultingBookingId = none)
    (hreop : ∀ e ∈ events, ∀ professionalId slotId,
      e.reopens = some (professionalId, slotId) → SlotOf db slotId professionalId)
    (hoffers : ∀ k', (events.countP fun e => e.offeredTo = some k') = 0 ∨
      k' = k ∧ x.status = .waiting ∧ (events.countP fun e => e.offeredTo = some k') ≤ 1)
    (hended : x.status = .offered → ∀ s, x.offeredSlotId = some s →
      ∃ e ∈ events, ∃ professionalId, e.reopens = some (professionalId, some s)) :
    Moves db (db.commit p) k x y events := by
  have hslots : (db.commit p).slots.committed = db.slots.committed :=
    hrest.slots.committed_commit
  have hbooks : (db.commit p).bookings.committed = db.bookings.committed :=
    hrest.bookings.committed_commit
  have hkeys : (db.commit p).idempotencyKeys.committed = db.idempotencyKeys.committed :=
    hrest.keys.committed_commit
  exact {
    old := hhas.committed
    entries := hhas.committed_commit
    outbox := by
      rw [← hevents]
      rfl
    published := rfl
    slots := by
      rw [hslots]
      exact Grows.refl.slot
    opened := by
      rw [hslots]
      exact fun _ _ h _ => h
    bookings := by
      rw [hbooks]
      exact fun _ _ h => h
    keys := by
      rw [hkeys]
      exact fun _ _ _ h => Or.inl h
    customer := hcust
    professional := hprof
    notWaiting := hwait
    notAccepted := hnot
    offer := hoffer
    slot := hslot
    booking := fun h => absurd h hacc
    unbooked := fun _ => hunbooked
    reopens := hreop
    offers := hoffers
    ended := fun h s hs => Or.inl (hended h s hs) }

theorem moves_offer {now t : Instant} {c : Uuid} (hs : WaitlistSound db)
    (h : Offering db p o k x (x.offer o.slotId now t))
    (hev : db.outbox.pending p = [.offered k c o.professionalId o.slotId t]) :
    Moves db (db.commit p) k x (x.offer o.slotId now t)
      [.offered k c o.professionalId o.slotId t] := by
  have hwait : x.status = .waiting := h.waits.1
  obtain ⟨s, slot, hslotId, -, hslot, hprof, -⟩ := h.offers
  refine moves_commit h.rest h.has hev rfl rfl (by simp) (by rw [hwait]; decide) (by simp)
    (fun hne => absurd hwait hne) ⟨s, slot, hslotId, hslot, ?_⟩ ?_ ?_ ?_ ?_
  · exact hprof.trans h.waits.2.1.symm
  · exact hs.unbooked k x h.has.committed (by rw [hwait]; decide)
  · intro e he professionalId slotId hreop
    cases mem_singleton.1 he
    cases hreop
  · intro k'
    by_cases hk : k' = k
    · exact Or.inr ⟨hk, hwait, countP_le_length⟩
    · left
      rw [countP_singleton, if_neg]
      intro heq
      exact hk (Option.some.inj (of_decide_eq_true heq)).symm
  · intro hoffer
    cases hwait.symm.trans hoffer

theorem moves_end {status : WaitlistStatus} {slotId : Option Uuid} (hs : WaitlistSound db)
    (h : Ending db p k status professionalId slotId x) (hev : db.outbox.pending p = [event])
    (hreop : event.reopens = some (professionalId, slotId)) (hoffers : event.offeredTo = none)
    (hwait : status ≠ .waiting) (hacc : status ≠ .accepted) :
    Moves db (db.commit p) k x (x.become status) [event] := by
  have hoffer : x.status = .offered := h.offered
  have hslot : SlotOf db x.offeredSlotId x.professionalId :=
    hs.offered k x h.has.committed (by rw [hoffer]; decide)
  refine moves_commit h.rest h.has hev rfl rfl hwait (by rw [hoffer]; decide) hacc
    (fun _ => rfl) hslot ?_ ?_ ?_ ?_
  · exact hs.unbooked k x h.has.committed (by rw [hoffer]; decide)
  · intro e he professionalId' slotId' hreop'
    cases mem_singleton.1 he
    cases hreop.symm.trans hreop'
    rw [← h.slot, ← h.professional]
    exact hslot
  · intro k'
    left
    rw [countP_singleton, hoffers]
    rfl
  · intro _ s hslotId
    exact ⟨event, mem_singleton_self event, professionalId, by
      rw [hreop, ← h.slot, hslotId]⟩

theorem committed_commit_of_row {α κ : Type} [DecidableEq κ] {t : Versioned ℕ κ α} {j : κ}
    {o : Option α} {v : α} (hrow : t.row j = ⟨o, some (p, v)⟩) (honly : t.OnlyAt p j) :
    (t.commit p).committed = update t.committed j (some v) :=
  committed_commit_of_onlyAt (wrote_of_row hrow) honly

/-- A slot that has been claimed is held from the commit on, and the others are as they were. -/
theorem Claimed.commit {slot : AvailabilitySlotEntity} (h : Claimed db p s slot) :
    (∀ s' slot', db.slots.committed s' = some slot' →
        ∃ v, (db.slots.commit p).committed s' = some v ∧
          v.professionalId = slot'.professionalId ∧ v.serviceId = slot'.serviceId) ∧
      (∀ s' slot', (db.slots.commit p).committed s' = some slot' → slot'.status = .open →
        db.slots.committed s' = some slot') ∧
      ∀ slot', (db.slots.commit p).committed s = some slot' → slot'.status ≠ .open := by
  obtain ⟨⟨_, _, _, hrow, rfl⟩, honly⟩ := h
  have hold' := committed_of_row hrow
  rw [committed_commit_of_row hrow honly]
  refine ⟨?_, ?_, ?_⟩
  · intro s' slot' hslot'
    by_cases hne : s' = s
    · subst hne
      cases hold'.symm.trans hslot'
      exact ⟨_, update_self .., rfl, rfl⟩
    · rw [update_of_ne hne]
      exact ⟨slot', hslot', rfl, rfl⟩
  · intro s' slot' hslot' hopen
    by_cases hne : s' = s
    · subst hne
      rw [update_self] at hslot'
      cases hslot'
      cases hopen
    · rwa [update_of_ne hne] at hslot'
  · intro slot' hslot'
    rw [update_self] at hslot'
    cases hslot'
    simp [hold]

theorem moves_accept {i : EntryCall} {b : Uuid} (hs : WaitlistSound db)
    (h : Accepting db p i s x { x.become .accepted with resultingBookingId := some b })
    (hb : Booked db p i s b)
    (hev : ∃ c t slotId, db.outbox.pending p = [.accepted i.entryId c t slotId b]) :
    ∃ events, Moves db (db.commit p) i.entryId x
      { x.become .accepted with resultingBookingId := some b } events := by
  obtain ⟨_, _, _, hevents⟩ := hev
  obtain ⟨slot, hclaim⟩ := hb.claimed
  obtain ⟨hslots, hopened, hended⟩ := hclaim.commit
  obtain ⟨booking, hbookingRow, hcust, hslot⟩ := hb.booking
  have hbooks : (db.commit p).bookings.committed =
      update db.bookings.committed b (some booking) :=
    committed_commit_of_row hbookingRow hb.onlyBooking
  have hkeys : (db.commit p).idempotencyKeys.committed =
      update db.idempotencyKeys.committed (i.customerId, i.entryId) (some b) :=
    committed_commit_of_row hb.key hb.onlyKey
  have hwait : x.status ≠ .waiting := by
    rw [h.offered]
    decide
  refine ⟨_, {
    old := h.has.committed
    entries := h.has.committed_commit
    outbox := rfl
    published := rfl
    slots := hslots
    opened := hopened
    bookings := ?_
    keys := ?_
    customer := rfl
    professional := rfl
    notWaiting := by simp
    notAccepted := by
      rw [h.offered]
      decide
    offer := fun _ => rfl
    slot := hs.offered _ x h.has.committed hwait
    booking := ?_
    unbooked := fun hne => absurd rfl hne
    reopens := ?_
    offers := ?_
    ended := ?_ }⟩
  · intro b'' v hv
    have hne : b'' ≠ b := by
      rintro rfl
      cases (committed_of_row hbookingRow).symm.trans hv
    rw [hbooks, update_of_ne hne]
    exact hv
  · intro c' k' b'' hkey
    by_cases hne : (c', k') = (i.customerId, i.entryId)
    · exact Or.inr ⟨congrArg Prod.snd hne, rfl⟩
    · rw [hkeys, update_of_ne hne] at hkey
      exact Or.inl hkey
  · intro _
    refine ⟨b, rfl, booking, ?_, hcust.trans h.customer.symm, ?_⟩
    · rw [hbooks, update_self]
    · rw [hslot]
      exact h.slot
  · intro e he professionalId slotId' hreop
    rw [hevents] at he
    cases mem_singleton.1 he
    cases hreop
  · intro k'
    left
    rw [hevents]
    rfl
  · intro _ s' hs'
    cases h.slot.symm.trans hs'
    exact Or.inr hended

theorem moves_missed (hs : WaitlistSound db) (hclean : Clean db p)
    (hget : db.entries.get p k = some x) (hoffer : x.status = .offered)
    (hclosed : ∀ s ∈ x.offeredSlotId, ∀ slot ∈ db.slots.get p s, slot.status ≠ .open) :
    Moves db { db with entries := (db.entries.write p k (x.become .missed)).commit p } k x
      (x.become .missed) [] := by
  have hcomm := hget
  rw [hclean.entries.get_eq] at hcomm
  exact {
    old := hcomm
    entries := committed_put hclean.entries
    outbox := (append_nil _).symm
    published := rfl
    slots := Grows.refl.slot
    opened := fun _ _ h _ => h
    bookings := fun _ _ h => h
    keys := fun _ _ _ h => Or.inl h
    customer := rfl
    professional := rfl
    notWaiting := by simp
    notAccepted := by
      rw [hoffer]
      decide
    offer := fun _ => rfl
    slot := hs.offered k x hcomm (by rw [hoffer]; decide)
    booking := by simp
    unbooked := fun _ => hs.unbooked k x hcomm (by rw [hoffer]; decide)
    reopens := by simp
    offers := fun _ => Or.inl rfl
    ended := by
      intro _ s hslotId
      right
      intro slot hslot
      refine hclosed s hslotId slot ?_
      rw [hclean.slots.get_eq]
      exact hslot }

/-! ## The ends of transactions -/

/-- What a step keeps. -/
structure Takes (db : WaitlistDb) (p : ℕ) (place : WaitlistPlace) (db' : WaitlistDb)
    (place' : WaitlistPlace) : Prop where
  sound : WaitlistSound db'
  beside : ∀ q ≠ p, Beside q db db'
  work : WaitlistWork db' p place'
  remembers : Remembers db place db' place'

section

variable (hs : WaitlistSound db)
include hs

theorem Passes.takes (h : Passes db p db' place') :
    Takes db p place db' place' where
  sound := hs.of_same h.same h.apart
  beside := fun q hq => (h.others q hq).beside h.same.grows
  work := h.work
  remembers := h.same.remembers h.told

theorem takes_refl (hw : WaitlistWork db p place')
    (ht : Told db place') : Takes db p place db place' :=
  Passes.takes hs ⟨.refl, hs.apart, fun _ _ => .refl, hw, ht⟩

theorem takes_append (hw : WaitlistWork { db with outbox := db.outbox.append p event } p place')
    (ht : Told db place') :
    Takes db p place { db with outbox := db.outbox.append p event } place' :=
  Passes.takes hs ⟨⟨rfl, rfl, rfl, rfl, rfl, rfl⟩, hs.apart, fun _ hq =>
    ⟨.refl, .refl, .refl, .refl, Journal.pending_append_ne hq⟩, hw, ht⟩

theorem takes_entry (hlock : ¬(db.entries.row k).Locked p)
    (hapart : Apart SameOffer (db.entries.write p k y))
    (hw : WaitlistWork { db with entries := db.entries.write p k y } p place')
    (ht : Told db place') :
    Takes db p place { db with entries := db.entries.write p k y } place' :=
  Passes.takes hs ⟨⟨committed_write, rfl, rfl, rfl, rfl, rfl⟩, hapart, fun _ hq =>
    ⟨others_write hq hlock, .refl, .refl, .refl, rfl⟩, hw, ht⟩

end

theorem clean_commit : Clean (db.commit p) p :=
  ⟨⟨untouched_commit, untouched_commit, untouched_commit⟩, untouched_commit,
    Journal.pending_commit_self⟩

theorem clean_rollback : Clean (db.rollback p) p :=
  ⟨⟨untouched_rollback, untouched_rollback, untouched_rollback⟩, untouched_rollback,
    Journal.pending_rollback_self⟩

theorem beside_commit (hg : Grows db (db.commit p)) (hq : q ≠ p) : Beside q db (db.commit p) :=
  ⟨hg, others_commit hq, others_commit hq, others_commit hq,
    others_commit hq, Journal.pending_commit_ne hq⟩

section

variable (hs : WaitlistSound db)
include hs

theorem Moves.takes (h : Moves db (db.commit p) k x y events)
    (hw : WaitlistWork (db.commit p) p place') (ht : Told (db.commit p) place') :
    Takes db p place (db.commit p) place' where
  sound := hs.moves h hs.apart.commit
  beside := fun _ hq => beside_commit h.grows hq
  work := hw
  remembers := h.remembers ht

theorem takes_nothing (hclean : Clean db p)
    (hw : WaitlistWork (db.commit p) p place') (ht : Told db place') :
    Takes db p place (db.commit p) place' := by
  have hsame : SameCommitted db (db.commit p) :=
    ⟨hclean.entries.committed_commit, hclean.slots.committed_commit,
      hclean.bookings.committed_commit, hclean.keys.committed_commit,
      by
        show db.outbox.committed ++ db.outbox.pending p = _
        rw [hclean.outbox, append_nil], rfl⟩
  exact {
    sound := hs.of_same hsame hs.apart.commit
    beside := fun _ hq => beside_commit hsame.grows hq
    work := hw
    remembers := hsame.remembers ht }

theorem takes_rollback (hw : WaitlistWork (db.rollback p) p place')
    (ht : Told db place') : Takes db p place (db.rollback p) place' := by
  have hsame : SameCommitted db (db.rollback p) :=
    ⟨committed_rollback, committed_rollback, committed_rollback, committed_rollback, rfl, rfl⟩
  exact {
    sound := hs.of_same hsame hs.apart.rollback
    beside := fun _ hq =>
      ⟨hsame.grows, others_rollback hq, others_rollback hq, others_rollback hq,
        others_rollback hq, Journal.pending_rollback_ne hq⟩
    work := hw
    remembers := hsame.remembers ht }

end

theorem Offers.told (h : Offers db o) (hserved : ∀ s, o.slotId = some s → Served db s) :
    Told db (.publish o.event) := by
  obtain ⟨s, -, hs, ⟨_, _, he, hreop⟩, -⟩ := h
  rintro _ ⟨⟩ s' ⟨_, _, he', hreop'⟩
  cases he.symm.trans he'
  cases hreop.symm.trans hreop'
  exact hserved s hs

theorem Offers.lt (h : Offers db o) : o.event < db.outbox.committed.length := by
  obtain ⟨-, -, -, ⟨_, -, he, -⟩, -⟩ := h
  exact (List.getElem?_eq_some_iff.1 he).1

/-- What the proof of one statement has to give. -/
abbrev Shown (db : WaitlistDb) (p : ℕ) (place : WaitlistPlace) :
    Next WaitlistDb Unit WaitlistPlace → Prop :=
  Next.Ends (Takes db p place) (Takes db p place (db.commit p)) (Takes db p place (db.rollback p))

/-! ## The matcher -/

theorem live_of_violated {now t : Instant} (hslot : o.slotId = some s) (hhas : Has db p k x y)
    (h : db.entries.updateChecked p k (fun x => x.status = .waiting)
      (fun x => x.offer o.slotId now t) SameOffer = .violated) : Live db s := by
  obtain ⟨_, -, -, k', hne, hlock, v, hv, hsame⟩ := updateChecked_eq_violated h
  refine ⟨k', v, ?_, hsame.2.1, hsame.2.2.2.symm.trans hslot⟩
  rcases hv with hcomm | ⟨q, hwrit⟩
  · exact hcomm
  · by_cases hq : q = p
    · subst hq
      exact absurd (hhas.only k' ⟨v, hwrit⟩) hne
    · exact absurd ⟨q, v, hwrit, hq⟩ hlock

theorem takes_finishOffer (hs : WaitlistSound db) (hw : WaitlistWork db p (.finishOffer o k)) :
    Takes db p place (db.commit p) (.publish o.event) := by
  obtain ⟨_, _, _, _, hoff, hev⟩ := hw
  have hmoves := moves_offer hs hoff hev
  have hoffers : Offers (db.commit p) o := hoff.offers.grows hmoves.grows
  refine hmoves.takes hs ⟨clean_commit, hoffers.lt⟩ (hoffers.told ?_)
  intro s hslot slot _ _
  exact Or.inl ⟨k, _, hmoves.entry_self, rfl, hslot⟩

variable (config : WaitlistConfig)

theorem shown_handle {event : ℕ} (env : WaitlistEnv) (hs : WaitlistSound db) (hw : Clean db p) :
    Shown db p (.handle event) (matchStatement config env db p (.handle event)) := by
  simp only [matchStatement]
  split
  · trivial
  rename_i professionalId slotId hev
  obtain ⟨e, he, hreop⟩ := Option.bind_eq_some_iff.1 hev
  have hlt : event < db.outbox.committed.length := (List.getElem?_eq_some_iff.1 he).1
  obtain ⟨s, slot, rfl, hslot, hprof⟩ :=
    hs.event e (List.mem_of_getElem? he) professionalId slotId hreop
  -- an event reopens one slot
  have hslotId : ∀ n s', WaitlistPlace.publish event = .publish n → ReopenedAt db n s' →
      s' = s := by
    rintro _ s' ⟨⟩ ⟨_, _, he', hreop'⟩
    cases he.symm.trans he'
    cases hreop.symm.trans hreop'
    rfl
  have hget : slotWhere db p env.first (some s) = some slot :=
    hw.slots.get_eq.trans hslot
  simp only [hget]
  split
  · refine takes_refl hs ?_ (told_of_ne (by simp))
    exact ⟨hw, s, slot, rfl, ⟨e, professionalId, he, hreop⟩, hslot, hprof, rfl⟩
  · rename_i hopen
    refine takes_refl hs ⟨hw, hlt⟩ ?_
    intro n hn s' hreopened
    cases hslotId n s' hn hreopened
    intro z hz hzopen
    cases hslot.symm.trans hz
    exact absurd hzopen hopen

theorem shown_already (env : WaitlistEnv) (hs : WaitlistSound db)
    (hw : WaitlistWork db p (.already o)) :
    Shown db p (.already o) (matchStatement config env db p (.already o)) := by
  obtain ⟨hclean, hoffers⟩ := id hw
  simp only [matchStatement]
  split
  · rename_i hsome
    refine takes_nothing hs hclean ⟨clean_commit, ?_⟩ (hoffers.told ?_)
    · exact hoffers.lt.trans_le (by simp [WaitlistDb.commit])
    · intro s hslot slot _ _
      left
      obtain ⟨k, hk⟩ := exists_mem_of_ne_nil _ hsome
      obtain ⟨x, hx, hlive⟩ := (mem_select hclean.entries).1 hk
      obtain ⟨hoffer, hnone | hat⟩ := of_decide_eq_true hlive
      · cases hslot.symm.trans hnone
      · exact ⟨k, x, hx, hoffer, hat.trans hslot⟩
  · exact takes_refl hs hw (told_of_ne (by simp))

theorem shown_select (hs : WaitlistSound db)
    (hm : Attentive db p (.select o)) (hw : WaitlistWork db p (.select o)) :
    Shown db p (.select o) (matchStatement config env db p (.select o)) := by
  obtain ⟨hclean, hoffers⟩ := hw
  simp only [matchStatement]
  split
  · rename_i hnobody
    refine takes_nothing hs hclean ⟨clean_commit, ?_⟩ (hoffers.told ?_)
    · exact hoffers.lt.trans_le (by simp [WaitlistDb.commit])
    · obtain ⟨_, _, hslotId, -, hslot', hprof, hsvc⟩ := hoffers
      intro s hs' slot hslot _
      cases hslotId.symm.trans hs'
      cases hslot'.symm.trans hslot
      right
      intro k x hx hwaits
      rw [hprof, hsvc] at hwaits
      -- whoever waits has not been skipped
      have hmem : k ∈ db.entries.select p fun x => x.WaitsFor o.professionalId o.serviceId :=
        (mem_select hclean.entries).2 ⟨x, hx, decide_eq_true hwaits⟩
      rw [hm hnobody] at hmem
      cases hmem
  · split
    · trivial
    rename_i k _
    split
    · rename_i hk
      split
      · trivial
      rename_i x hget
      obtain ⟨hselect, hlock⟩ := mem_filter.1 hk.1
      have hnotLocked : ¬(db.entries.row k).Locked p := of_decide_eq_true hlock
      obtain ⟨_, hx', hwaits⟩ := (mem_select hclean.entries).1 hselect
      have hcomm := hget
      rw [hclean.entries.get_eq] at hcomm
      cases hcomm.symm.trans hx'
      have hwaits : x.WaitsFor o.professionalId o.serviceId := of_decide_eq_true hwaits
      have hnotOffered : x.status ≠ .offered := by
        rw [hwaits.1]
        decide
      refine takes_entry hs hnotLocked (apart_become hs hnotOffered) ⟨hclean.outbox, x, ?_⟩
        (told_of_ne (by simp))
      exact ⟨hoffers, hclean.toRest.of_eq rfl rfl rfl,
        has_write (hclean.entries k) hclean.entries.onlyAt hget, hwaits⟩
    · trivial

theorem takes_publish {n : ℕ} (hs : WaitlistSound db) (hw : WaitlistWork db p (.publish n)) :
    Takes db p (.publish n) { db with published := n :: db.published } (.handled n) := by
  obtain ⟨hclean, hlt⟩ := hw
  refine ⟨⟨hs.apart, hs.offered, hs.booking, hs.unbooked, hs.once, hs.never, hs.event, hs.key, ?_⟩,
    fun q _ => ⟨⟨Grows.refl.slot, Grows.refl.entry, prefix_refl _⟩, .refl, .refl, .refl, .refl,
      rfl⟩, ⟨hclean.toRest.of_eq rfl rfl rfl, hclean.entries, hclean.outbox⟩,
    ⟨Grows.refl.slot, Grows.refl.entry, prefix_refl _⟩, fun s hserved => Or.inl hserved,
    Or.inr ⟨n, rfl, rfl⟩, told_of_ne (by simp)⟩
  intro m hm
  rcases mem_cons.1 hm with rfl | hold
  · exact hlt
  · exact hs.published m hold

theorem shown_match (env : WaitlistEnv) (hs : WaitlistSound db)
    (hm : Attentive db p place) (hw : WaitlistWork db p place) :
    Shown db p place (matchStatement config env db p place) := by
  cases place with
  | handle => exact shown_handle config env hs hw
  | already => exact shown_already config env hs hw
  | select => exact shown_select config hs hm hw
  | offer =>
    obtain ⟨hnone, x, hoff⟩ := hw
    simp only [matchStatement]
    split
    · trivial
    · rename_i hupd
      obtain ⟨z, hget, -, hlock, -, rfl, hfree⟩ := updateChecked_eq_done hupd
      cases hoff.has.get.symm.trans hget
      refine takes_entry hs hlock (hs.apart.write (fun _ _ h => h.symm) hfree)
        ⟨hnone, x, env.now, ?_⟩ (told_of_ne (by simp))
      exact ⟨hoff.offers, hoff.rest.of_eq rfl rfl rfl, hoff.has.write,
        hoff.waits⟩
    · rename_i hunmatched
      exact absurd hoff.waits.1
        (updateChecked_eq_unmatched hunmatched x hoff.has.get)
    · rename_i hviol
      refine takes_rollback hs ⟨clean_rollback, hoff.offers.lt⟩ (hoff.offers.told ?_)
      intro s hslot slot _ _
      exact Or.inl (live_of_violated hslot hoff.has hviol)
  | announceOffer o k t =>
    obtain ⟨hnone, x, now, hoff⟩ := hw
    simp only [matchStatement]
    split
    · exact takes_rollback hs clean_rollback (told_of_ne (by simp))
    · rename_i z hget
      refine takes_append hs ⟨x, now, t, z.customerId, ?_, ?_⟩ (told_of_ne (by simp))
      · exact ⟨hoff.offers, hoff.rest.of_eq rfl rfl rfl,
          ⟨hoff.has.row, hoff.has.only⟩, hoff.waits⟩
      · rw [Journal.pending_append_self, hnone]
        rfl
  | finishOffer => exact takes_finishOffer hs hw
  | publish => exact takes_publish hs hw
  | _ => trivial

end BeauClick.Waitlist
