import BeauClick.Waitlist.Entries

/-!
# What the calls on the waitlist rely on

* `WaitlistSound` — what the committed rows say of one another.
* `WaitlistWork` — what a call has read and written, place by place.
* `Attentive` — where nothing that the call has not seen may be committed.
* `Beside` — what a step leaves to the other calls.
-/

namespace BeauClick.Waitlist

open Locks ReadCommitted ReadCommitted.Versioned Runs Transactions
open Scheduling (AvailabilitySlotEntity)

variable {db db' : WaitlistDb} {p q n : ℕ}
  {place : WaitlistPlace} {k s professionalId : Uuid} {x y : WaitlistEntryEntity} {o : Offer}
  {slotId : Option Uuid} {i : EntryCall}

/-! ## What is committed -/

/-- How often an entry has been offered a slot. -/
def offersTo (db : WaitlistDb) (k : Uuid) : ℕ :=
  db.outbox.committed.countP fun e => e.offeredTo = some k

/-- The slot is known, and it is the professional's. -/
def SlotOf (db : WaitlistDb) (slotId : Option Uuid) (professionalId : Uuid) : Prop :=
  ∃ s slot, slotId = some s ∧ db.slots.committed s = some slot ∧
    slot.professionalId = professionalId

/-- The entry has a booking of its customer on its slot. -/
def HasBooking (db : WaitlistDb) (x : WaitlistEntryEntity) : Prop :=
  ∃ b ∈ x.resultingBookingId, ∃ booking, db.bookings.committed b = some booking ∧
    booking.customerId = x.customerId ∧ x.offeredSlotId = some booking.slotId

/-- The entries, and what has been said and done about them. -/
structure WaitlistSound (db : WaitlistDb) : Prop where
  apart : Apart SameOffer db.entries
  offered : ∀ k x, db.entries.committed k = some x → x.status ≠ .waiting →
    SlotOf db x.offeredSlotId x.professionalId
  booking : ∀ k x, db.entries.committed k = some x → x.status = .accepted → HasBooking db x
  unbooked : ∀ k x, db.entries.committed k = some x → x.status ≠ .accepted →
    x.resultingBookingId = none
  once : ∀ k, offersTo db k ≤ 1
  never : ∀ k x, db.entries.committed k = some x → x.status = .waiting → offersTo db k = 0
  event : ∀ e ∈ db.outbox.committed, ∀ professionalId slotId,
    e.reopens = some (professionalId, slotId) → SlotOf db slotId professionalId
  key : ∀ c k b, db.idempotencyKeys.committed (c, k) = some b →
    ∃ x, db.entries.committed k = some x ∧ x.status = .accepted
  published : ∀ n ∈ db.published, n < db.outbox.committed.length

/-- The event is one of those that reopen the slot. -/
def ReopenedAt (db : WaitlistDb) (n : ℕ) (slotId : Uuid) : Prop :=
  ∃ e professionalId, db.outbox.committed[n]? = some e ∧
    e.reopens = some (professionalId, some slotId)

/-- The slot is offered to somebody. -/
def Live (db : WaitlistDb) (slotId : Uuid) : Prop :=
  ∃ k x, db.entries.committed k = some x ∧ x.status = .offered ∧ x.offeredSlotId = some slotId

/-- If the slot is open, it is offered to somebody, or nobody waits for it. -/
def Served (db : WaitlistDb) (slotId : Uuid) : Prop :=
  ∀ slot, db.slots.committed slotId = some slot → slot.status = .open → Live db slotId ∨
    ∀ k x, db.entries.committed k = some x → ¬x.WaitsFor slot.professionalId slot.serviceId

/-! ## What a call has read and written -/

/-- The call has written nothing but entries. -/
structure Rest (db : WaitlistDb) (p : ℕ) : Prop where
  slots : db.slots.Untouched p
  bookings : db.bookings.Untouched p
  keys : db.idempotencyKeys.Untouched p

/-- The call has written nothing. -/
structure Clean (db : WaitlistDb) (p : ℕ) : Prop extends Rest db p where
  entries : db.entries.Untouched p
  outbox : db.outbox.pending p = []

/-- The call has written one entry. -/
structure Has (db : WaitlistDb) (p : ℕ) (k : Uuid) (x y : WaitlistEntryEntity) : Prop where
  row : db.entries.row k = ⟨some x, some (p, y)⟩
  only : db.entries.OnlyAt p k

/-- The offer is of the slot of its event. -/
def Offers (db : WaitlistDb) (o : Offer) : Prop :=
  ∃ s slot, o.slotId = some s ∧ ReopenedAt db o.event s ∧ db.slots.committed s = some slot ∧
    slot.professionalId = o.professionalId ∧ slot.serviceId = o.serviceId

/-- The entry is on its way to be offered the slot. -/
structure Offering (db : WaitlistDb) (p : ℕ) (o : Offer) (k : Uuid) (x y : WaitlistEntryEntity) :
    Prop where
  offers : Offers db o
  rest : Rest db p
  has : Has db p k x y
  waits : x.WaitsFor o.professionalId o.serviceId

/-- The entry is on its way to be accepted. -/
structure Accepting (db : WaitlistDb) (p : ℕ) (i : EntryCall) (slotId : Uuid)
    (x y : WaitlistEntryEntity) : Prop where
  has : Has db p i.entryId x y
  offered : x.status = .offered
  slot : x.offeredSlotId = some slotId
  customer : x.customerId = i.customerId

/-- The slot is claimed. -/
structure Claimed (db : WaitlistDb) (p : ℕ) (slotId : Uuid) (slot : AvailabilitySlotEntity) :
    Prop where
  row : ∃ s b t, db.slots.row slotId = ⟨some s, some (p, slot)⟩ ∧ slot = hold s b t
  only : db.slots.OnlyAt p slotId

/-- The booking is made, under the entry's key. -/
structure Booked (db : WaitlistDb) (p : ℕ) (i : EntryCall) (slotId bookingId : Uuid) : Prop where
  claimed : ∃ slot, Claimed db p slotId slot
  booking : ∃ b, db.bookings.row bookingId = ⟨none, some (p, b)⟩ ∧ b.customerId = i.customerId ∧
    b.slotId = slotId
  onlyBooking : db.bookings.OnlyAt p bookingId
  key : db.idempotencyKeys.row (i.customerId, i.entryId) = ⟨none, some (p, bookingId)⟩
  onlyKey : db.idempotencyKeys.OnlyAt p (i.customerId, i.entryId)

/-- The offer of an entry is on its way to end, with an event that tells of it. -/
structure Ending (db : WaitlistDb) (p : ℕ) (k : Uuid) (status : WaitlistStatus)
    (professionalId : Uuid) (slotId : Option Uuid) (x : WaitlistEntryEntity) : Prop where
  rest : Rest db p
  has : Has db p k x (x.become status)
  offered : x.status = .offered
  professional : x.professionalId = professionalId
  slot : x.offeredSlotId = slotId

/-- The entry has been offered a slot, as the row says. -/
def Known (db : WaitlistDb) (row : Uuid × WaitlistEntryEntity) : Prop :=
  ∃ x, db.entries.committed row.1 = some x ∧ x.status ≠ .waiting ∧
    x.professionalId = row.2.professionalId ∧ x.offeredSlotId = row.2.offeredSlotId

/-- What a call has read and written, place by place. -/
def WaitlistWork (db : WaitlistDb) (p : ℕ) : WaitlistPlace → Prop
  | .already o | .select o => Clean db p ∧ Offers db o
  | .offer o k => db.outbox.pending p = [] ∧ ∃ x, Offering db p o k x x
  | .announceOffer o k t => db.outbox.pending p = [] ∧
      ∃ x now, Offering db p o k x (x.offer o.slotId now t)
  | .finishOffer o k => ∃ x now t c, Offering db p o k x (x.offer o.slotId now t) ∧
      db.outbox.pending p = [.offered k c o.professionalId o.slotId t]
  | .publish n => Clean db p ∧ n < db.outbox.committed.length
  | .accept i => Clean db p ∧ ∃ x, db.entries.committed i.entryId = some x ∧
      x.customerId = i.customerId
  | .create i e | .claimSlot i e => Rest db p ∧ db.outbox.pending p = [] ∧
      ∃ s x, Accepting db p i s x e ∧ e = x.become .accepted
  | .insertBooking i e slot _ => db.bookings.Untouched p ∧ db.idempotencyKeys.Untouched p ∧
      db.outbox.pending p = [] ∧
      ∃ s x, Accepting db p i s x e ∧ e = x.become .accepted ∧ Claimed db p s slot
  | .record i b => db.outbox.pending p = [] ∧
      ∃ s x, Accepting db p i s x (x.become .accepted) ∧ Booked db p i s b
  | .announceAccepted i b => db.outbox.pending p = [] ∧
      ∃ s x, Accepting db p i s x { x.become .accepted with resultingBookingId := some b } ∧
        Booked db p i s b
  | .finishAccept i b => ∃ s x,
      Accepting db p i s x { x.become .accepted with resultingBookingId := some b } ∧
        Booked db p i s b ∧
        ∃ c t slotId, db.outbox.pending p = [.accepted i.entryId c t slotId b]
  | .decline i e => Clean db p ∧ ∃ x, db.entries.committed i.entryId = some x ∧
      x.professionalId = e.professionalId
  | .announceDeclined i e => db.outbox.pending p = [] ∧
      ∃ x, Ending db p i.entryId .declined e.professionalId e.offeredSlotId x
  | .finishDecline i true => ∃ x professionalId slotId c,
      Ending db p i.entryId .declined professionalId slotId x ∧
        db.outbox.pending p = [.declined i.entryId c professionalId slotId]
  | .expire rows _ => Clean db p ∧ ∀ row ∈ rows, Known db row
  | .announceExpired row rest _ => db.outbox.pending p = [] ∧
      (∃ x, Ending db p row.1 .expired row.2.professionalId row.2.offeredSlotId x) ∧
      ∀ row ∈ rest, Known db row
  | .finishExpire row rest _ =>
      (∃ x c, Ending db p row.1 .expired row.2.professionalId row.2.offeredSlotId x ∧
        db.outbox.pending p = [.expired row.1 c row.2.professionalId row.2.offeredSlotId]) ∧
      ∀ row ∈ rest, Known db row
  | _ => Clean db p

/-- What must not be overlooked: where the matcher finds nobody, nobody waits whom it has skipped;
where an offer is missed, its slot is not open; and where an offer is declined, it is the one that
the call has read. -/
def Attentive (db : WaitlistDb) (p : ℕ) : WaitlistPlace → Prop
  | .select o => candidates db p o = [] →
      db.entries.select p (fun x => x.WaitsFor o.professionalId o.serviceId) = []
  | .markMissed k => ∀ x ∈ db.entries.get p k, x.status = .offered →
      ∀ s ∈ x.offeredSlotId, ∀ slot ∈ db.slots.get p s, slot.status ≠ .open
  | .decline i e => ∀ x ∈ db.entries.get p i.entryId, x.status = .offered →
      e.offeredSlotId = x.offeredSlotId
  | _ => True

/-- What holds of the tables, and what a call relies on. -/
def waitlistOutline : Outline WaitlistDb Unit WaitlistPlace WaitlistEnv where
  Assumes := fun _ db p place => Attentive db p place
  Sound := WaitlistSound
  Guarantee := fun _ _ => True
  Work := WaitlistWork
  holds := fun _ _ _ => False

/-! ## What a step leaves to the calls beside it -/

/-- The slots keep their professionals and services, the entries their customers, professionals
and offers, and the events their places. -/
structure Grows (db db' : WaitlistDb) : Prop where
  slot : ∀ s slot, db.slots.committed s = some slot →
    ∃ slot', db'.slots.committed s = some slot' ∧ slot'.professionalId = slot.professionalId ∧
      slot'.serviceId = slot.serviceId
  entry : ∀ k x, db.entries.committed k = some x →
    ∃ x', db'.entries.committed k = some x' ∧ x'.customerId = x.customerId ∧
      x'.professionalId = x.professionalId ∧
      (x.status ≠ .waiting → x'.status ≠ .waiting ∧ x'.offeredSlotId = x.offeredSlotId)
  events : db.outbox.committed <+: db'.outbox.committed

/-- What the step of another call leaves to a call. -/
structure Beside (q : ℕ) (db db' : WaitlistDb) : Prop extends Grows db db' where
  entries : Others q db.entries db'.entries
  slots : Others q db.slots db'.slots
  bookings : Others q db.bookings db'.bookings
  keys : Others q db.idempotencyKeys db'.idempotencyKeys
  outbox : db'.outbox.pending q = db.outbox.pending q

theorem Grows.refl : Grows db db where
  slot := fun _ slot h => ⟨slot, h, rfl, rfl⟩
  entry := fun _ x h => ⟨x, h, rfl, rfl, fun hx => ⟨hx, rfl⟩⟩
  events := List.prefix_refl _

theorem getElem?_of_prefix {α : Type} {l l' : List α} (h : l <+: l') {a : α} (ha : l[n]? = some a) :
    l'[n]? = some a := by
  obtain ⟨_, rfl⟩ := h
  exact List.getElem?_append_left (List.getElem?_eq_some_iff.1 ha).1 |>.trans ha

section

variable (hg : Grows db db')
include hg

theorem ReopenedAt.grows (h : ReopenedAt db n s) : ReopenedAt db' n s := by
  obtain ⟨e, professionalId, he, hreop⟩ := h
  exact ⟨e, professionalId, getElem?_of_prefix hg.events he, hreop⟩

theorem Offers.grows (h : Offers db o) : Offers db' o := by
  obtain ⟨s, slot, hs, hev, hslot, hprof, hsvc⟩ := h
  obtain ⟨slot', hslot', hprof', hsvc'⟩ := hg.slot s slot hslot
  exact ⟨s, slot', hs, hev.grows hg, hslot', hprof'.trans hprof,
    hsvc'.trans hsvc⟩

theorem SlotOf.grows (h : SlotOf db slotId professionalId) :
    SlotOf db' slotId professionalId := by
  obtain ⟨s, slot, hs, hslot, hprof⟩ := h
  obtain ⟨slot', hslot', hprof', -⟩ := hg.slot s slot hslot
  exact ⟨s, slot', hs, hslot', hprof'.trans hprof⟩

theorem Known.grows {row : Uuid × WaitlistEntryEntity} (h : Known db row) :
    Known db' row := by
  obtain ⟨x, hx, hstat, hprof, hslot⟩ := h
  obtain ⟨x', hx', -, hprof', hkept⟩ := hg.entry _ x hx
  exact ⟨x', hx', (hkept hstat).1, hprof'.trans hprof,
    (hkept hstat).2.trans hslot⟩

end

section

variable (hb : Beside q db db')
include hb

theorem Rest.beside (h : Rest db q) : Rest db' q :=
  ⟨hb.slots.untouched h.slots, hb.bookings.untouched h.bookings, hb.keys.untouched h.keys⟩

theorem Clean.beside (h : Clean db q) : Clean db' q :=
  ⟨h.toRest.beside hb, hb.entries.untouched h.entries, hb.outbox.trans h.outbox⟩

theorem Has.beside (h : Has db q k x y) : Has db' q k x y :=
  ⟨hb.entries.row_of h.row, hb.entries.onlyAt h.only⟩

theorem Offering.beside (h : Offering db q o k x y) :
    Offering db' q o k x y :=
  ⟨h.offers.grows hb.toGrows, h.rest.beside hb, h.has.beside hb, h.waits⟩

theorem Accepting.beside (h : Accepting db q i s x y) :
    Accepting db' q i s x y :=
  ⟨h.has.beside hb, h.offered, h.slot, h.customer⟩

theorem Claimed.beside {slot : AvailabilitySlotEntity} (h : Claimed db q s slot) :
    Claimed db' q s slot := by
  obtain ⟨⟨old, b, t, hrow, hhold⟩, honly⟩ := h
  exact ⟨⟨old, b, t, hb.slots.row_of hrow, hhold⟩, hb.slots.onlyAt honly⟩

theorem Booked.beside {b : Uuid} (h : Booked db q i s b) :
    Booked db' q i s b := by
  obtain ⟨slot, hclaim⟩ := h.claimed
  obtain ⟨booking, hrow, hcust, hslot⟩ := h.booking
  exact ⟨⟨slot, hclaim.beside hb⟩, ⟨booking, hb.bookings.row_of hrow, hcust, hslot⟩,
    hb.bookings.onlyAt h.onlyBooking, hb.keys.row_of h.key, hb.keys.onlyAt h.onlyKey⟩

theorem Ending.beside {status : WaitlistStatus} (h : Ending db q k status professionalId slotId x) :
    Ending db' q k status professionalId slotId x :=
  ⟨h.rest.beside hb, h.has.beside hb, h.offered, h.professional, h.slot⟩

theorem waitlistWork_beside (h : WaitlistWork db q place) :
    WaitlistWork db' q place := by
  have hpend := hb.outbox
  have hg := hb.toGrows
  cases place with
  | already | select => exact ⟨h.1.beside hb, h.2.grows hg⟩
  | offer =>
    obtain ⟨hnone, x, hoff⟩ := h
    exact ⟨hpend.trans hnone, x, hoff.beside hb⟩
  | announceOffer =>
    obtain ⟨hnone, x, now, hoff⟩ := h
    exact ⟨hpend.trans hnone, x, now, hoff.beside hb⟩
  | finishOffer =>
    obtain ⟨x, now, t, c, hoff, hev⟩ := h
    exact ⟨x, now, t, c, hoff.beside hb, hpend.trans hev⟩
  | publish => exact ⟨h.1.beside hb, h.2.trans_le hg.events.length_le⟩
  | accept =>
    obtain ⟨hclean, x, hx, hcust⟩ := h
    obtain ⟨x', hx', hcust', -⟩ := hg.entry _ x hx
    exact ⟨hclean.beside hb, x', hx', hcust'.trans hcust⟩
  | create | claimSlot =>
    obtain ⟨hrest, hnone, s, x, hacc, he⟩ := h
    exact ⟨hrest.beside hb, hpend.trans hnone, s, x, hacc.beside hb, he⟩
  | insertBooking =>
    obtain ⟨hbooks, hkeys, hnone, s, x, hacc, he, hclaim⟩ := h
    exact ⟨hb.bookings.untouched hbooks, hb.keys.untouched hkeys, hpend.trans hnone, s, x,
      hacc.beside hb, he, hclaim.beside hb⟩
  | record | announceAccepted =>
    obtain ⟨hnone, s, x, hacc, hbooked⟩ := h
    exact ⟨hpend.trans hnone, s, x, hacc.beside hb, hbooked.beside hb⟩
  | finishAccept =>
    obtain ⟨s, x, hacc, hbooked, c, t, slotId, hev⟩ := h
    exact ⟨s, x, hacc.beside hb, hbooked.beside hb, c, t, slotId, hpend.trans hev⟩
  | decline =>
    obtain ⟨hclean, x, hx, hprof⟩ := h
    obtain ⟨x', hx', -, hprof', -⟩ := hg.entry _ x hx
    exact ⟨hclean.beside hb, x', hx', hprof'.trans hprof⟩
  | announceDeclined =>
    obtain ⟨hnone, x, hending⟩ := h
    exact ⟨hpend.trans hnone, x, hending.beside hb⟩
  | finishDecline i done =>
    cases done with
    | true =>
      obtain ⟨x, professionalId, slotId, c, hending, hev⟩ := h
      exact ⟨x, professionalId, slotId, c, hending.beside hb, hpend.trans hev⟩
    | false => exact Clean.beside hb h
  | expire => exact ⟨h.1.beside hb, fun row hrow => (h.2 row hrow).grows hg⟩
  | announceExpired row =>
    obtain ⟨hnone, ⟨x, hending⟩, hrest⟩ := h
    exact ⟨hpend.trans hnone, ⟨x, hending.beside hb⟩, fun row hrow => (hrest row hrow).grows hg⟩
  | finishExpire row =>
    obtain ⟨⟨x, c, hending, hev⟩, hrest⟩ := h
    exact ⟨⟨x, c, hending.beside hb, hpend.trans hev⟩, fun row hrow =>
      (hrest row hrow).grows hg⟩
  | _ => exact Clean.beside hb h

end

theorem keeps_of_beside (hs : WaitlistSound db') (hb : ∀ q ≠ p, Beside q db db') :
    waitlistOutline.Keeps db p place db' where
  sound := hs
  guarantee := trivial
  others := fun q _ hq _ hw => waitlistWork_beside (hb q hq) hw

end BeauClick.Waitlist
