import BeauClick.Waitlist.Work

/-!
# The statements of the waitlist

* `Passes` — a statement commits nothing.
* `Told` — a call that is about to mark an event leaves its slot served.
* The acceptances, and the offers that end, statement by statement.
-/

namespace BeauClick.Waitlist

open Locks ReadCommitted ReadCommitted.Versioned Runs Transactions
open Scheduling (AvailabilitySlotEntity)

variable {env : WaitlistEnv} {db db' : WaitlistDb} {p q : ℕ}
  {place place' : WaitlistPlace} {k s : Uuid} {x y z : WaitlistEntryEntity} {i : EntryCall}
  {status : WaitlistStatus}

/-! ## Statements that commit nothing -/

/-- Nothing is committed. -/
structure SameCommitted (db db' : WaitlistDb) : Prop where
  entries : db'.entries.committed = db.entries.committed
  slots : db'.slots.committed = db.slots.committed
  bookings : db'.bookings.committed = db.bookings.committed
  keys : db'.idempotencyKeys.committed = db.idempotencyKeys.committed
  outbox : db'.outbox.committed = db.outbox.committed
  published : db'.published = db.published

/-- What the call has written is nobody else's. -/
structure Apart' (q : ℕ) (db db' : WaitlistDb) : Prop where
  entries : Others q db.entries db'.entries
  slots : Others q db.slots db'.slots
  bookings : Others q db.bookings db'.bookings
  keys : Others q db.idempotencyKeys db'.idempotencyKeys
  outbox : db'.outbox.pending q = db.outbox.pending q

theorem SameCommitted.refl : SameCommitted db db := ⟨rfl, rfl, rfl, rfl, rfl, rfl⟩

theorem Apart'.refl : Apart' q db db := ⟨.refl, .refl, .refl, .refl, rfl⟩

theorem Apart'.beside (h : Apart' q db db') (hg : Grows db db') : Beside q db db' :=
  ⟨hg, h.entries, h.slots, h.bookings, h.keys, h.outbox⟩

theorem SameCommitted.grows (h : SameCommitted db db') : Grows db db' where
  slot := by
    rw [h.slots]
    exact Grows.refl.slot
  entry := by
    rw [h.entries]
    exact Grows.refl.entry
  events := h.outbox ▸ List.prefix_refl _

theorem SameCommitted.hasBooking (h : SameCommitted db db') :
    HasBooking db' x ↔ HasBooking db x := by
  unfold HasBooking
  rw [h.bookings]

theorem WaitlistSound.of_same (h : WaitlistSound db) (hsame : SameCommitted db db')
    (hapart : Apart SameOffer db'.entries) : WaitlistSound db' where
  apart := hapart
  offered := by
    rw [hsame.entries]
    exact fun k x hx hstat => (h.offered k x hx hstat).grows hsame.grows
  booking := by
    rw [hsame.entries]
    exact fun k x hx hstat => hsame.hasBooking.2 (h.booking k x hx hstat)
  unbooked := by
    rw [hsame.entries]
    exact h.unbooked
  once := by
    unfold offersTo
    rw [hsame.outbox]
    exact h.once
  never := by
    unfold offersTo
    rw [hsame.entries, hsame.outbox]
    exact h.never
  event := by
    rw [hsame.outbox]
    exact fun e he professionalId slotId hreop =>
      (h.event e he professionalId slotId hreop).grows hsame.grows
  key := by
    rw [hsame.keys, hsame.entries]
    exact h.key
  published := by
    rw [hsame.published, hsame.outbox]
    exact h.published

/-- A call that is about to mark an event leaves its slot served. -/
def Told (db : WaitlistDb) (place : WaitlistPlace) : Prop :=
  ∀ n, place = .publish n → ∀ s, ReopenedAt db n s → Served db s

/-- What a statement keeps. -/
structure Passes (db : WaitlistDb) (p : ℕ) (db' : WaitlistDb) (place' : WaitlistPlace) : Prop where
  same : SameCommitted db db'
  apart : Apart SameOffer db'.entries
  others : ∀ q ≠ p, Apart' q db db'
  work : WaitlistWork db' p place'
  told : Told db place'

theorem told_of_ne (h : ∀ n, place ≠ .publish n) : Told db place :=
  fun n hplace => absurd hplace (h n)

theorem SameOffer.symm (h : SameOffer x y) : SameOffer y x :=
  ⟨h.2.1, h.1, h.2.2.2 ▸ h.2.2.1, h.2.2.2.symm⟩

theorem apart_become (hs : WaitlistSound db) (hy : y.status ≠ .offered) :
    Apart SameOffer (db.entries.write p k y) :=
  hs.apart.write (fun _ _ h => h.symm) fun _ _ _ _ h => hy h.1

theorem has_write (hu : ¬(db.entries.row k).WrittenBy p) (honly : db.entries.OnlyAt p k)
    (hget : db.entries.get p k = some x) :
    Has { db with entries := db.entries.write p k y } p k x y := by
  refine ⟨?_, honly.write⟩
  rw [row_write hu, hget]

theorem Has.write (h : Has db p k x y) :
    Has { db with entries := db.entries.write p k z } p k x z := by
  refine ⟨?_, h.only.write⟩
  rw [row_write_self, h.row]
  rfl

theorem Rest.of_eq (h : Rest db p) (hslots : db'.slots = db.slots)
    (hbooks : db'.bookings = db.bookings) (hkeys : db'.idempotencyKeys = db.idempotencyKeys) :
    Rest db' p := by
  refine ⟨?_, ?_, ?_⟩
  · rw [hslots]
    exact h.slots
  · rw [hbooks]
    exact h.bookings
  · rw [hkeys]
    exact h.keys

theorem Has.get (h : Has db p k x y) : db.entries.get p k = some y :=
  (wrote_of_row h.row).get_eq

theorem Has.committed (h : Has db p k x y) : db.entries.committed k = some x :=
  committed_of_row h.row

/-! ## Acceptances -/

theorem Accepting.write (h : Accepting db p i s x y) :
    Accepting { db with entries := db.entries.write p i.entryId z } p i s x z :=
  ⟨h.has.write, h.offered, h.slot, h.customer⟩

theorem Accepting.of_eq (h : Accepting db p i s x y) (hents : db'.entries = db.entries) :
    Accepting db' p i s x y := by
  refine ⟨⟨?_, ?_⟩, h.offered, h.slot, h.customer⟩
  · rw [hents]
    exact h.has.row
  · rw [hents]
    exact h.has.only

theorem Claimed.of_eq {slot : AvailabilitySlotEntity} (h : Claimed db p s slot)
    (hslots : db'.slots = db.slots) : Claimed db' p s slot := by
  refine ⟨?_, ?_⟩
  · rw [hslots]
    exact h.row
  · rw [hslots]
    exact h.only

theorem Booked.of_eq {b : Uuid} (h : Booked db p i s b) (hslots : db'.slots = db.slots)
    (hbooks : db'.bookings = db.bookings) (hkeys : db'.idempotencyKeys = db.idempotencyKeys) :
    Booked db' p i s b := by
  obtain ⟨slot, hclaim⟩ := h.claimed
  refine ⟨⟨slot, hclaim.of_eq hslots⟩, ?_, ?_, ?_, ?_⟩
  · rw [hbooks]
    exact h.booking
  · rw [hbooks]
    exact h.onlyBooking
  · rw [hkeys]
    exact h.key
  · rw [hkeys]
    exact h.onlyKey

theorem insert_eq_done {α κ : Type} [DecidableEq κ] {t t' : Versioned ℕ κ α} {j : κ} {v w : α}
    (h : t.insert p j v (fun _ => False) = .done w t') (hu : t.Untouched p) :
    t' = t.write p j v ∧ (t.write p j v).row j = ⟨none, some (p, v)⟩ ∧ ¬(t.row j).Locked p := by
  unfold Versioned.insert at h
  split at h
  · cases h
  rename_i hlock
  split at h
  · cases h
  rename_i hget
  obtain ⟨-, rfl, -⟩ := writeChecked_eq_done h
  refine ⟨rfl, ?_, hlock⟩
  rw [row_write (hu j), Option.not_isSome_iff_eq_none.1 hget]

/-! ## Offers that end -/

theorem Ending.of_eq {professionalId : Uuid} {slotId : Option Uuid}
    (h : Ending db p k status professionalId slotId x) (hents : db'.entries = db.entries)
    (hslots : db'.slots = db.slots) (hbooks : db'.bookings = db.bookings)
    (hkeys : db'.idempotencyKeys = db.idempotencyKeys) :
    Ending db' p k status professionalId slotId x := by
  refine ⟨h.rest.of_eq hslots hbooks hkeys, ⟨?_, ?_⟩, h.offered, h.professional, h.slot⟩
  · rw [hents]
    exact h.has.row
  · rw [hents]
    exact h.has.only

theorem ending_write (hclean : Clean db p) (hget : db.entries.get p k = some x)
    (hoffer : x.status = .offered) :
    Ending { db with entries := db.entries.write p k (x.become status) } p k status
      x.professionalId x.offeredSlotId x :=
  ⟨hclean.toRest.of_eq rfl rfl rfl, has_write (hclean.entries k) hclean.entries.onlyAt hget,
    hoffer, rfl, rfl⟩

theorem known_of_stale {row : Uuid × WaitlistEntryEntity} (hclean : Clean db p)
    (hrow : row ∈ env.order.filterMap fun k =>
      match db.entries.get p k with
      | some x => if x.status = .offered ∧ x.Stale env.now then some (k, x) else none
      | none => none) :
    Known db row := by
  obtain ⟨_, -, hk⟩ := List.mem_filterMap.1 hrow
  split at hk
  · rename_i x hget
    split at hk
    · rename_i hstale
      cases hk
      rw [hclean.entries.get_eq] at hget
      refine ⟨x, hget, ?_, rfl, rfl⟩
      rw [hstale.1]
      decide
    · cases hk
  · cases hk

end BeauClick.Waitlist
