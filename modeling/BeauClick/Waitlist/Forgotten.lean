import BeauClick.Waitlist.Moves

/-!
# A reopened slot is not forgotten

* `Remembered` — a reopened slot is served, or an event of it is yet to be consumed.
* `shown_statement`, `waitlistProof` — every statement of the service.
* `Remembered.step` — one step keeps it, where no call overlooks an entry.
* `waitlistKept_run` — every run.
-/

namespace BeauClick.Waitlist

open Locks ReadCommitted ReadCommitted.Versioned Runs Transactions List
open Function (update update_self update_of_ne)
open Scheduling (AvailabilitySlotEntity)

variable {config : WaitlistConfig} {env : WaitlistEnv} {db db' : WaitlistDb} {p q : ℕ}
  {place place' : WaitlistPlace} {k slotId : Uuid} {x y e : WaitlistEntryEntity}
  {events : List WaitlistEvent} {i : EntryCall} {s s' : System WaitlistDb Unit WaitlistPlace}
  {slot : AvailabilitySlotEntity}

/-! ## Acceptances -/

section

variable (hs : WaitlistSound db)
include hs

theorem shown_acceptOffer (config : WaitlistConfig) (env : WaitlistEnv)
    (hw : WaitlistWork db p (.accept i)) :
    Shown db p (.accept i) (acceptStatement config env db p (.accept i)) := by
  obtain ⟨hclean, x, hx, hcust⟩ := hw
  simp only [acceptStatement]
  split
  · trivial
  · rename_i hupd
    obtain ⟨_, hget, hoffer, hlock, rfl, rfl⟩ := update_eq_done hupd
    have hcomm := hget
    rw [hclean.entries.get_eq] at hcomm
    cases hx.symm.trans hcomm
    have hwait : x.status ≠ .waiting := by
      rw [hoffer]
      decide
    obtain ⟨s, -, hslot, -⟩ := hs.offered _ x hx hwait
    refine takes_entry hs hlock (apart_become hs (by simp)) ⟨hclean.toRest.of_eq rfl rfl rfl,
      hclean.outbox, s, x, ⟨?_, hoffer, hslot, hcust⟩, rfl⟩ (told_of_ne (by simp))
    exact has_write (hclean.entries _) hclean.entries.onlyAt hget
  · exact takes_rollback hs clean_rollback (told_of_ne (by simp))

theorem shown_claimSlot (config : WaitlistConfig) (env : WaitlistEnv)
    (hw : WaitlistWork db p (.claimSlot i e)) :
    Shown db p (.claimSlot i e) (acceptStatement config env db p (.claimSlot i e)) := by
  obtain ⟨hrest, hnone, s, x, hacc, he⟩ := hw
  have hslot : e.offeredSlotId = some s := by
    rw [he]
    exact hacc.slot
  simp only [acceptStatement, hslot]
  split
  · trivial
  · rename_i hupd
    obtain ⟨old, hget, -, hlock, rfl, rfl⟩ := update_eq_done hupd
    refine Passes.takes hs ⟨⟨rfl, committed_write, rfl, rfl, rfl, rfl⟩, hs.apart, fun _ hq =>
      ⟨.refl, others_write hq hlock, .refl, .refl, rfl⟩, ?_, told_of_ne (by simp)⟩
    refine ⟨hrest.bookings, hrest.keys, hnone, s, x, hacc.of_eq rfl, he,
      ⟨old, _, _, ?_, rfl⟩, hrest.slots.onlyAt.write⟩
    rw [row_write (hrest.slots s), hget]
  · exact takes_rollback hs clean_rollback (told_of_ne (by simp))

theorem shown_insertBooking {t : Instant} (config : WaitlistConfig) (env : WaitlistEnv)
    (hw : WaitlistWork db p (.insertBooking i e slot t)) :
    Shown db p (.insertBooking i e slot t)
      (acceptStatement config env db p (.insertBooking i e slot t)) := by
  obtain ⟨hbooks, hkeys, hnone, s, x, hacc, he, hclaim⟩ := hw
  have hslot : e.offeredSlotId = some s := by
    rw [he]
    exact hacc.slot
  simp only [acceptStatement, hslot]
  split
  · rename_i bookingId slotId hheld hsome
    cases hsome
    split
    · exact takes_rollback hs clean_rollback (told_of_ne (by simp))
    · split
      · trivial
      · rename_i hins
        obtain ⟨rfl, hrow, hlock⟩ := insert_eq_done hins hbooks
        split
        · trivial
        · rename_i hkey
          obtain ⟨rfl, hkeyRow, hkeyLock⟩ := insert_eq_done hkey hkeys
          refine Passes.takes hs ⟨⟨rfl, rfl, committed_write, committed_write, rfl, rfl⟩, hs.apart,
            fun _ hq => ⟨.refl, .refl, others_write hq hlock, others_write hq hkeyLock,
              rfl⟩, ?_, told_of_ne (by simp)⟩
          rw [he] at hacc
          exact ⟨hnone, s, x, hacc.of_eq rfl, ⟨slot, hclaim.of_eq rfl⟩,
            ⟨_, hrow, rfl, rfl⟩, hbooks.onlyAt.write, hkeyRow, hkeys.onlyAt.write⟩
        · exact takes_rollback hs clean_rollback (told_of_ne (by simp))
      · trivial
  · exact takes_rollback hs clean_rollback (told_of_ne (by simp))

theorem shown_missed (config : WaitlistConfig) (env : WaitlistEnv)
    (hm : Attentive db p (.markMissed k)) (hclean : Clean db p) :
    Shown db p (.markMissed k) (acceptStatement config env db p (.markMissed k)) := by
  simp only [acceptStatement]
  split
  · trivial
  · rename_i hupd
    obtain ⟨x, hget, hoffer, hlock, -, rfl⟩ := update_eq_done hupd
    have hmoves := moves_missed hs hclean hget hoffer (hm x hget hoffer)
    have hapart : Apart SameOffer (db.entries.write p k (x.become .missed)) :=
      apart_become hs (by simp)
    have htold : Told { db with entries := (db.entries.write p k (x.become .missed)).commit p }
        (.missed k) := told_of_ne (by simp)
    exact {
      sound := hs.moves hmoves hapart.commit
      beside := fun _ hq =>
        ⟨hmoves.grows, others_put hq hclean.entries hlock, .refl, .refl, .refl, rfl⟩
      work := ⟨hclean.toRest.of_eq rfl rfl rfl, untouched_commit, hclean.outbox⟩
      remembers := hmoves.remembers htold }
  · exact takes_refl hs hclean (told_of_ne (by simp))

theorem shown_accept (config : WaitlistConfig) (env : WaitlistEnv)
    (hm : Attentive db p place) (hw : WaitlistWork db p place) :
    Shown db p place (acceptStatement config env db p place) := by
  cases place with
  | claimOffer =>
    have hclean : Clean db p := hw
    simp only [acceptStatement]
    split
    · exact takes_rollback hs clean_rollback (told_of_ne (by simp))
    · rename_i e hget
      split
      · exact takes_rollback hs clean_rollback (told_of_ne (by simp))
      · rename_i hok
        rw [hclean.entries.get_eq] at hget
        exact takes_refl hs ⟨hclean, e, hget, not_not.1 (not_or.1 hok).1⟩
          (told_of_ne (by simp))
  | accept => exact shown_acceptOffer hs config env hw
  | create =>
    simp only [acceptStatement]
    split
    · rename_i bookingId hkey
      -- an entry whose key is known is accepted
      obtain ⟨-, -, s, x, haccepting, -⟩ := hw
      obtain ⟨_, hx', hacc⟩ := hs.key _ _ _ hkey
      cases haccepting.has.committed.symm.trans hx'
      cases haccepting.offered.symm.trans hacc
    · split
      · exact takes_refl hs hw (told_of_ne (by simp))
      · exact takes_rollback hs clean_rollback (told_of_ne (by simp))
  | claimSlot => exact shown_claimSlot hs config env hw
  | insertBooking => exact shown_insertBooking hs config env hw
  | record =>
    obtain ⟨hnone, s, x, haccepting, hbooked⟩ := hw
    simp only [acceptStatement]
    split
    · trivial
    · rename_i hupd
      obtain ⟨z, hget, -, hlock, -, rfl⟩ := update_eq_done hupd
      cases haccepting.has.get.symm.trans hget
      exact takes_entry hs hlock (apart_become hs (by simp)) ⟨hnone, s, x, haccepting.write,
        hbooked.of_eq rfl rfl rfl⟩ (told_of_ne (by simp))
    · exact takes_rollback hs clean_rollback (told_of_ne (by simp))
  | announceAccepted =>
    obtain ⟨hnone, s, x, haccepting, hbooked⟩ := hw
    simp only [acceptStatement]
    split
    · exact takes_rollback hs clean_rollback (told_of_ne (by simp))
    · rename_i z hget
      refine takes_append hs ⟨s, x, haccepting.of_eq rfl, hbooked.of_eq rfl rfl rfl,
        z.customerId, z.professionalId, z.offeredSlotId, ?_⟩ (told_of_ne (by simp))
      rw [Journal.pending_append_self, hnone]
      rfl
  | finishAccept =>
    obtain ⟨_, _, haccepting, hbooked, hev⟩ := hw
    obtain ⟨_, hmoves⟩ := moves_accept hs haccepting hbooked hev
    exact hmoves.takes hs clean_commit (told_of_ne (by simp))
  | markMissed => exact shown_missed hs config env hm hw
  | _ => trivial

end

/-! ## Offers that are declined or stale -/

theorem shown_expire {row : Uuid × WaitlistEntryEntity} {rest : List (Uuid × WaitlistEntryEntity)}
    {count : ℕ} (env : WaitlistEnv) (hs : WaitlistSound db)
    (hw : WaitlistWork db p (.expire (row :: rest) count)) :
    Shown db p (.expire (row :: rest) count)
      (endStatement env db p (.expire (row :: rest) count)) := by
  obtain ⟨hclean, hknown⟩ := hw
  have hrest : ∀ row' ∈ rest, Known db row' :=
    fun row' hrow' => hknown row' (mem_cons_of_mem row hrow')
  simp only [endStatement]
  split
  · trivial
  · rename_i hupd
    obtain ⟨z, hget, hoffer, hlock, -, rfl⟩ := update_eq_done hupd
    have hcomm := hget
    rw [hclean.entries.get_eq] at hcomm
    obtain ⟨_, hx, -, hprof, hslot⟩ := hknown row mem_cons_self
    cases hx.symm.trans hcomm
    refine takes_entry hs hlock (apart_become hs (by simp)) ⟨hclean.outbox, ⟨z, ?_⟩, ?_⟩
      (told_of_ne (by simp))
    · rw [← hprof, ← hslot]
      exact ending_write hclean hget hoffer
    · intro row' hrow'
      obtain ⟨x', hx', hknown'⟩ := hrest row' hrow'
      exact ⟨x', (congrFun committed_write row'.1).trans hx', hknown'⟩
  · refine takes_nothing hs hclean ⟨clean_commit, ?_⟩ (told_of_ne (by simp))
    intro row' hrow'
    obtain ⟨x', hx', hknown'⟩ := hrest row' hrow'
    refine ⟨x', ?_, hknown'⟩
    exact (congrFun hclean.entries.committed_commit row'.1).trans hx'

theorem shown_end (env : WaitlistEnv) (hs : WaitlistSound db) (hm : Attentive db p place)
    (hw : WaitlistWork db p place) : Shown db p place (endStatement env db p place) := by
  cases place with
  | readEntry =>
    have hclean : Clean db p := hw
    simp only [endStatement]
    split
    · exact takes_refl hs hclean (told_of_ne (by simp))
    · rename_i e hget
      split
      · exact takes_refl hs hclean (told_of_ne (by simp))
      · rw [hclean.entries.get_eq] at hget
        exact takes_refl hs ⟨hclean, e, hget, rfl⟩ (told_of_ne (by simp))
  | decline =>
    obtain ⟨hclean, x, hx, hprof⟩ := hw
    simp only [endStatement]
    split
    · trivial
    · rename_i hupd
      obtain ⟨_, hget, ⟨-, hoffer⟩, hlock, -, rfl⟩ := update_eq_done hupd
      have hcomm := hget
      rw [hclean.entries.get_eq] at hcomm
      cases hx.symm.trans hcomm
      refine takes_entry hs hlock (apart_become hs (by simp)) ⟨hclean.outbox, x, ?_⟩
        (told_of_ne (by simp))
      rw [← hprof, hm x hget hoffer]
      exact ending_write hclean hget hoffer
    · exact takes_refl hs hclean (told_of_ne (by simp))
  | announceDeclined i e =>
    obtain ⟨hnone, x, hending⟩ := hw
    refine takes_append hs ⟨x, e.professionalId, e.offeredSlotId, i.customerId,
      hending.of_eq rfl rfl rfl rfl, ?_⟩ (told_of_ne (by simp))
    rw [Journal.pending_append_self, hnone]
    rfl
  | finishDecline i done =>
    cases done with
    | true =>
      obtain ⟨x, _, _, c, hending, hev⟩ := hw
      exact (moves_end hs hending hev rfl rfl (by simp) (by simp)).takes hs clean_commit
        (told_of_ne (by simp))
    | false => exact takes_nothing hs hw clean_commit (told_of_ne (by simp))
  | sweep =>
    have hclean : Clean db p := hw
    simp only [endStatement]
    split
    · exact takes_refl hs
        ⟨hclean, fun row hrow => known_of_stale hclean (mem_of_mem_take hrow)⟩
        (told_of_ne (by simp))
    · trivial
  | expire rows =>
    cases rows with
    | nil => exact takes_nothing hs hw.1 clean_commit (told_of_ne (by simp))
    | cons => exact shown_expire env hs hw
  | announceExpired row =>
    obtain ⟨hnone, ⟨x, hending⟩, hknown⟩ := hw
    refine takes_append hs ⟨⟨x, row.2.customerId, hending.of_eq rfl rfl rfl rfl, ?_⟩, hknown⟩
      (told_of_ne (by simp))
    rw [Journal.pending_append_self, hnone]
    rfl
  | finishExpire =>
    obtain ⟨⟨_, _, hending, hev⟩, hknown⟩ := hw
    have hmoves := moves_end hs hending hev rfl rfl (by simp) (by simp)
    exact hmoves.takes hs ⟨clean_commit, fun row' hrow' => (hknown row' hrow').grows hmoves.grows⟩
      (told_of_ne (by simp))
  | _ => trivial

/-! ## Slots that are claimed and reopened -/

/-- A slot is written, and events tell that it is open again. -/
structure SlotPut (db : WaitlistDb) (p : ℕ) (s : Uuid) (slot slot' : AvailabilitySlotEntity)
    (outbox : Journal ℕ WaitlistEvent) (events : List WaitlistEvent) : Prop where
  clean : Clean db p
  old : db.slots.committed s = some slot
  lock : ¬(db.slots.row s).Locked p
  professional : slot'.professionalId = slot.professionalId
  service : slot'.serviceId = slot.serviceId
  committed : outbox.committed = db.outbox.committed ++ events
  pending : outbox.pending = db.outbox.pending
  reopens : ∀ e ∈ events, e = .reopened slot.professionalId s
  told : slot'.status = .open → events ≠ []

/-- What there is then. -/
def put (db : WaitlistDb) (p : ℕ) (s : Uuid) (slot' : AvailabilitySlotEntity)
    (outbox : Journal ℕ WaitlistEvent) : WaitlistDb :=
  { db with
    slots := db.slots.put p s slot'
    outbox := outbox }

section

variable {s : Uuid} {slot' : AvailabilitySlotEntity} {outbox : Journal ℕ WaitlistEvent}
  (h : SlotPut db p s slot slot' outbox events)
include h

theorem SlotPut.slots : (put db p s slot' outbox).slots.committed =
    update db.slots.committed s (some slot') := committed_put h.clean.slots

theorem SlotPut.grows : Grows db (put db p s slot' outbox) where
  slot := by
    intro s' old hold
    rw [h.slots]
    by_cases hne : s' = s
    · subst hne
      cases h.old.symm.trans hold
      exact ⟨slot', update_self .., h.professional, h.service⟩
    · rw [update_of_ne hne]
      exact ⟨old, hold, rfl, rfl⟩
  entry := Grows.refl.entry
  events := h.committed ▸ prefix_append ..

theorem SlotPut.offersTo (k : Uuid) : offersTo (put db p s slot' outbox) k = offersTo db k := by
  show outbox.committed.countP _ = _
  rw [h.committed, countP_append]
  refine Nat.add_eq_left.2 (countP_eq_zero.2 fun e he => ?_)
  rw [h.reopens e he]
  simp [WaitlistEvent.offeredTo]

theorem SlotPut.sound (hs : WaitlistSound db) : WaitlistSound (put db p s slot' outbox) where
  apart := hs.apart
  offered := fun k x hx hstat => (hs.offered k x hx hstat).grows h.grows
  booking := hs.booking
  unbooked := hs.unbooked
  once := fun k => (h.offersTo k).trans_le (hs.once k)
  never := fun k x hx hwait => (h.offersTo k).trans (hs.never k x hx hwait)
  event := by
    show ∀ e ∈ outbox.committed, _
    rw [h.committed]
    intro e he professionalId slotId hreop
    rcases mem_append.1 he with hold | hev
    · exact (hs.event e hold professionalId slotId hreop).grows h.grows
    · cases h.reopens e hev
      cases hreop
      exact SlotOf.grows h.grows ⟨s, slot, rfl, h.old, rfl⟩
  key := hs.key
  published := fun n hn => (hs.published n hn).trans_le h.grows.events.length_le

/-- Where the slot is open again, an event is new that says so. -/
theorem SlotPut.served {s' : Uuid} (hserved : Served db s') :
    Served (put db p s slot' outbox) s' ∨
      ∃ n, db.outbox.committed.length ≤ n ∧ ReopenedAt (put db p s slot' outbox) n s' := by
  by_cases hopens : s' = s ∧ slot'.status = .open
  · obtain ⟨rfl, hopen⟩ := hopens
    obtain ⟨e, he⟩ := exists_mem_of_ne_nil events (h.told hopen)
    have hreop : e.reopens = some (slot.professionalId, some s') := by
      rw [h.reopens e he]
      rfl
    exact Or.inr (reopenedAt_new h.committed he hreop)
  · left
    intro old hold hisOpen
    rw [h.slots] at hold
    by_cases hne : s' = s
    · subst hne
      rw [update_self] at hold
      cases hold
      exact absurd ⟨rfl, hisOpen⟩ hopens
    · rw [update_of_ne hne] at hold
      exact hserved old hold hisOpen

theorem SlotPut.takes (hs : WaitlistSound db) :
    Takes db p place (put db p s slot' outbox) (.moved s) where
  sound := h.sound hs
  beside := fun q hq => ⟨h.grows, .refl, others_put hq h.clean.slots h.lock, .refl, .refl,
    congrFun h.pending q⟩
  work := ⟨⟨untouched_put, h.clean.bookings, h.clean.keys⟩, h.clean.entries,
    (congrFun h.pending p).trans h.clean.outbox⟩
  remembers := ⟨h.grows, fun _ => h.served, Or.inl rfl, told_of_ne (by simp)⟩

end

theorem shown_slot (env : WaitlistEnv) (hs : WaitlistSound db) (hw : WaitlistWork db p place) :
    Shown db p place (slotStatement env db p place) := by
  cases place with
  | claim s =>
    have hclean : Clean db p := hw
    simp only [slotStatement]
    split
    · trivial
    · rename_i hupd
      obtain ⟨slot, hget, -, hlock, -, rfl⟩ := update_eq_done hupd
      rw [hclean.slots.get_eq] at hget
      have hput : SlotPut db p s slot (hold slot env.uuid env.now) db.outbox [] :=
        ⟨hclean, hget, hlock, rfl, rfl, (append_nil _).symm, rfl, by simp, by simp [hold]⟩
      exact hput.takes hs
    · exact takes_rollback hs clean_rollback (told_of_ne (by simp))
  | reopen s =>
    have hclean : Clean db p := hw
    simp only [slotStatement]
    split
    · trivial
    · rename_i hupd
      obtain ⟨slot, hget, -, hlock, rfl, rfl⟩ := update_eq_done hupd
      rw [hclean.slots.get_eq] at hget
      have hput : SlotPut db p s slot (release slot)
          ((db.outbox.append p (.reopened slot.professionalId s)).commit p)
          [.reopened slot.professionalId s] := by
        refine ⟨hclean, hget, hlock, rfl, rfl, ?_, ?_, fun e he => mem_singleton.1 he,
          fun _ => by simp⟩
        · rw [Journal.committed_commit, Journal.pending_append_self,
            hclean.outbox]
          rfl
        · funext q
          by_cases hq : q = p
          · rw [hq, Journal.pending_commit_self, hclean.outbox]
          · rw [Journal.pending_commit_ne hq, Journal.pending_append_ne hq]
      exact hput.takes hs
    · exact takes_rollback hs clean_rollback (told_of_ne (by simp))
  | _ => trivial

/-! ## Every statement -/

/-- What each statement of the service keeps. -/
theorem shown_statement (config : WaitlistConfig) (env : WaitlistEnv) (hs : WaitlistSound db)
    (hm : Attentive db p place) (hw : WaitlistWork db p place) :
    Shown db p place (waitlistStatement config env db p place) := by
  unfold waitlistStatement
  split
  case h_18 => exact shown_slot env hs hw
  case h_19 => exact shown_slot env hs hw
  case h_20 => exact shown_match config env hs hm hw
  all_goals first | exact shown_accept hs config env hm hw | exact shown_end env hs hm hw

theorem takes_dies (hs : WaitlistSound db) : Takes db p place (db.rollback p) .failed :=
  takes_rollback hs clean_rollback (told_of_ne (by simp))

theorem Takes.moves (h : Takes db p place db' place') :
    waitlistOutline.Moves db p place db' place' :=
  ⟨keeps_of_beside h.sound h.beside, h.work⟩

/-- Each statement of the waitlist keeps it. -/
theorem waitlistProof (config : WaitlistConfig) :
    FreeProof (waitlistService config) waitlistOutline where
  first := by
    intro db p request hw
    cases request with
    | _ => exact hw
  statement := fun env _ _ _ hm hs hw => (shown_statement config env hs hm hw).mono
    (fun _ _ h => h.moves) (fun _ _ _ h => h.elim) (fun _ h => h.moves) fun _ h => h.moves
  dies := fun _ _ _ _ hs _ => (takes_dies hs).moves

/-! ## Events that are yet to be consumed -/

/-- An event that reopens the slot is yet to be consumed, and no call is about to mark it. -/
def Owed (s : System WaitlistDb Unit WaitlistPlace) (slotId : Uuid) : Prop :=
  ∃ n, ReopenedAt s.db n slotId ∧ n ∉ s.db.published ∧ ∀ q, s.calls q ≠ .publish n

/-- A slot that is reopened is served, or one of its events is yet to be consumed. -/
def Remembered (s : System WaitlistDb Unit WaitlistPlace) : Prop :=
  ∀ slotId, (∃ n, ReopenedAt s.db n slotId) → Served s.db slotId ∨ Owed s slotId

theorem Remembered.owed {n : ℕ} (hcalls : s'.calls = update s.calls p place')
    (hreop : ReopenedAt s'.db n slotId) (hpub : n ∉ s'.db.published)
    (hothers : ∀ q ≠ p, s.calls q ≠ .publish n) (htold : Told s'.db place') :
    Served s'.db slotId ∨ Owed s' slotId := by
  by_cases hplace : place' = .publish n
  · exact Or.inl (htold n hplace slotId hreop)
  · refine Or.inr ⟨n, hreop, hpub, ?_⟩
    intro q
    rw [hcalls]
    by_cases hq : q = p
    · rw [hq, update_self]
      exact hplace
    · rw [update_of_ne hq]
      exact hothers q hq

theorem Remembered.step (h : waitlistOutline.Holds s) (hr : Remembered s)
    (ht : Remembers s.db (s.calls p) s'.db place')
    (hcalls : s'.calls = update s.calls p place') : Remembered s' := by
  -- whoever is about to mark an event has read it
  have hmarked : ∀ q n, s.calls q = .publish n → n < s.db.outbox.committed.length := by
    intro q n hq
    have hw := h.work q
    rw [hq] at hw
    exact hw.2
  have hpub : ∀ n ∈ s'.db.published, n ∈ s.db.published ∨ s.calls p = .publish n := by
    intro n hn
    rcases ht.published with hsame | ⟨m, hplace, hcons⟩
    · exact Or.inl (hsame ▸ hn)
    · rw [hcons] at hn
      rcases mem_cons.1 hn with rfl | hold
      · exact Or.inr hplace
      · exact Or.inl hold
  -- an event that is new is neither marked nor about to be
  have hnew : ∀ slotId n, s.db.outbox.committed.length ≤ n → ReopenedAt s'.db n slotId →
      Served s'.db slotId ∨ Owed s' slotId := by
    intro slotId n hle hreopened
    refine Remembered.owed hcalls hreopened ?_ ?_ ht.told
    · intro hn
      rcases hpub n hn with hold | hplace
      · exact absurd (h.sound.published n hold) (not_lt.2 hle)
      · exact absurd (hmarked p n hplace) (not_lt.2 hle)
    · intro q _ hq
      exact absurd (hmarked q n hq) (not_lt.2 hle)
  rintro slotId ⟨m, hm⟩
  by_cases hold : ∃ n, ReopenedAt s.db n slotId
  · rcases hr slotId hold with hserved | ⟨n, hreopened, hn, hcall⟩
    · rcases ht.kept slotId hserved with hkept | ⟨n, hle, hreopened⟩
      · exact Or.inl hkept
      · exact hnew slotId n hle hreopened
    · refine Remembered.owed hcalls (hreopened.grows ht.grows) ?_ (fun q _ => hcall q) ht.told
      intro hn'
      rcases hpub n hn' with hold' | hplace
      · exact hn hold'
      · exact hcall p hplace
  · refine hnew slotId m ?_ hm
    by_contra hlt
    obtain ⟨e, professionalId, he, hreop⟩ := hm
    rw [not_le] at hlt
    obtain ⟨_, hr⟩ := ht.grows.events
    rw [← hr, getElem?_append_left hlt] at he
    exact hold ⟨m, e, professionalId, he, hreop⟩

theorem remembered_step {e : Step WaitlistRequest WaitlistEnv} (h : waitlistOutline.Holds s)
    (hr : Remembered s) (hm : waitlistOutline.Meets s e)
    (hstep : (waitlistService config).step s e = some s') : Remembered s' := by
  cases Service.took_of_step hstep with
  | starts pid request =>
    have htold : Told s.db request.first := by
      cases request with
      | _ => exact told_of_ne (by simp [WaitlistRequest.first])
    exact hr.step h (SameCommitted.refl.remembers htold) rfl
  | goes pid env db place hst =>
    have hshown := shown_statement config env h.sound hm (h.work pid)
    exact hr.step h (hshown.of_goes hst).remembers rfl
  | locks pid env key mode place hst =>
    exact ((shown_statement config env h.sound hm (h.work pid)).of_locks hst).elim
  | commits pid env place hst =>
    have hshown := shown_statement config env h.sound hm (h.work pid)
    exact hr.step h (hshown.of_commits hst).remembers rfl
  | throws pid env place hst =>
    have hshown := shown_statement config env h.sound hm (h.work pid)
    exact hr.step h (hshown.of_throws hst).remembers rfl
  | dies => exact hr.step h (takes_dies h.sound).remembers rfl

/-! ## Every run -/

/-- What the waitlist keeps.  `remembered`: a slot all of whose reopening events are consumed,
that is still open, and that somebody waits for, is offered to somebody. -/
structure WaitlistKept (db : WaitlistDb) : Prop where
  oneOffer : ∀ k k' x x' slotId, db.entries.committed k = some x →
    db.entries.committed k' = some x' → x.status = .offered → x'.status = .offered →
      x.offeredSlotId = some slotId → x'.offeredSlotId = some slotId → k = k'
  once : ∀ k, offersTo db k ≤ 1
  accepted : ∀ k x, db.entries.committed k = some x → (x.status = .accepted ↔ HasBooking db x)
  remembered : ∀ slotId slot, db.slots.committed slotId = some slot → slot.status = .open →
    (∃ n, ReopenedAt db n slotId) → (∀ n, ReopenedAt db n slotId → n ∈ db.published) →
      (∃ k x, db.entries.committed k = some x ∧
        x.WaitsFor slot.professionalId slot.serviceId) → Live db slotId

/-- Entries that have been joined, and slots; nothing has happened yet. -/
structure Opening (db : WaitlistDb) : Prop where
  clean : ∀ q, Clean db q
  waiting : ∀ k x, db.entries.committed k = some x → x.status = .waiting
  unbooked : ∀ k x, db.entries.committed k = some x → x.resultingBookingId = none
  keys : ∀ k, db.idempotencyKeys.committed k = none
  outbox : db.outbox.committed = []
  published : db.published = []

theorem waitlistKept_of_holds (h : waitlistOutline.Holds s) (hr : Remembered s) :
    WaitlistKept s.db where
  oneOffer := by
    intro k k' x x' slotId hx hx' hoffer hoffer' hslot hslot'
    refine h.sound.apart.committed hx hx' ⟨hoffer, hoffer', ?_, hslot.trans hslot'.symm⟩
    rw [hslot]
    simp
  once := h.sound.once
  accepted := by
    intro k x hx
    refine ⟨h.sound.booking k x hx, ?_⟩
    rintro ⟨_, hb, -⟩
    by_contra hne
    rw [h.sound.unbooked k x hx hne] at hb
    cases hb
  remembered := by
    rintro slotId slot hslot hopen hreop hcons ⟨k, x, hx, hwaits⟩
    rcases hr slotId hreop with hserved | ⟨n, hn, hnot, -⟩
    · rcases hserved slot hslot hopen with hlive | hnobody
      · exact hlive
      · exact absurd hwaits (hnobody k x hx)
    · exact absurd (hcons n hn) hnot

theorem WaitlistSound.opening (h : Opening db) : WaitlistSound db where
  apart := by
    intro k k' x x' hx _ hsame
    rcases hx with hcomm | ⟨q, hwrit⟩
    · cases (h.waiting k x hcomm).symm.trans hsame.1
    · exact absurd ⟨x, hwrit⟩ ((h.clean q).entries k)
  offered := fun k x hx hne => absurd (h.waiting k x hx) hne
  booking := by
    intro k x hx hacc
    cases (h.waiting k x hx).symm.trans hacc
  unbooked := fun k x hx _ => h.unbooked k x hx
  once := by
    intro k
    unfold offersTo
    rw [h.outbox]
    exact Nat.zero_le 1
  never := by
    intro k x _ _
    unfold offersTo
    rw [h.outbox]
    rfl
  event := by
    rw [h.outbox]
    simp
  key := by
    intro c k b hkey
    cases (h.keys (c, k)).symm.trans hkey
  published := by
    rw [h.published]
    simp

/-- Whoever is matched, accepts, declines, misses and lets an offer expire at the same time, and
however often an event is delivered: as long as nobody is skipped where nobody else waits, no
offer of an open slot is missed, and the offer that is declined is the one that was read, a slot
that is reopened is not forgotten. -/
theorem waitlistKept_run (hopening : Opening db) {es : List (Step WaitlistRequest WaitlistEnv)}
    (hattentive : Along (waitlistService config).step waitlistOutline.Meets
      ((waitlistService config).start db) es) :
    Throughout (waitlistService config).step (fun s => WaitlistKept s.db)
      ((waitlistService config).start db) es := by
  have P := (waitlistProof config).proof
  have hstart : waitlistOutline.Holds ((waitlistService config).start db) :=
    P.holds_start (.opening hopening) fun q => hopening.clean q
  have hremembered : Remembered ((waitlistService config).start db) := by
    rintro slotId ⟨n, e, _, he, -⟩
    have hnone : db.outbox.committed[n]? = some e := he
    rw [hopening.outbox] at hnone
    cases hnone
  refine throughout_of_along (I := fun s => waitlistOutline.Holds s ∧ Remembered s) ?_ ?_
    ⟨hstart, hremembered⟩ hattentive
  · rintro s ⟨h, hr⟩
    exact waitlistKept_of_holds h hr
  · rintro s e s' ⟨h, hr⟩ hm hstep
    exact ⟨(P.holds_step h hm hstep).1, remembered_step h hr hm hstep⟩

/-! ## A slot of two customers -/

instance : Decidable (Attentive db p place) := by
  unfold Attentive
  split <;> infer_instance

instance (env : WaitlistEnv) : Decidable (waitlistOutline.Assumes env db p place) :=
  inferInstanceAs (Decidable (Attentive db p place))

namespace TwoWaiting

/-- An entry for any service of the professional. -/
def waits (customerId : Uuid) (createdAt : Instant) : WaitlistEntryEntity :=
  ⟨customerId, 1, none, .waiting, none, none, none, none, createdAt⟩

/-- A slot of the professional that is booked. -/
def booked : AvailabilitySlotEntity := ⟨1, none, 1000000, 2000000, .booked, none, some 5, none⟩

/-- The two of them, and two slots. -/
def tables : WaitlistDb where
  entries := .ofRows [(7, waits 70 0), (8, waits 80 1)]
  slots := .ofRows [(10, booked), (11, booked)]
  bookings := .ofRows []
  idempotencyKeys := .ofRows []
  outbox := .empty
  published := []

def halfAnHour : WaitlistConfig := ⟨30, 15⟩

/-- The statements of a call; `first` is the entry that the matcher comes upon. -/
def takes (pid : ℕ) (first : Uuid) (n : ℕ) : List (Step WaitlistRequest WaitlistEnv) :=
  List.replicate n ⟨pid, .statement ⟨0, 99, some first, [], true, true⟩⟩

/-- The same, while no resource is free. -/
def takesBusy (pid : ℕ) (n : ℕ) : List (Step WaitlistRequest WaitlistEnv) :=
  List.replicate n ⟨pid, .statement ⟨0, 99, none, [], true, false⟩⟩

/-- A call starts on a request. -/
def starts (pid : ℕ) (request : WaitlistRequest) : Step WaitlistRequest WaitlistEnv :=
  ⟨pid, .start request⟩

/-- The slot is reopened and offered to the first, who declines; the second one accepts. -/
def declined : List (Step WaitlistRequest WaitlistEnv) :=
  starts 1 (.reopen 10) :: takes 1 0 1 ++ starts 2 (.handle 0) :: takes 2 7 7 ++
    starts 3 (.decline ⟨7, 70⟩) :: takes 3 0 4 ++ starts 4 (.handle 2) :: takes 4 8 7 ++
      starts 5 (.accept ⟨8, 80⟩) :: takes 5 0 8

/-- Two deliveries of one event have a customer each when the other slot is reopened; one of them
loses, and its customer waits again. -/
def skipped : List (Step WaitlistRequest WaitlistEnv) :=
  starts 1 (.reopen 10) :: takes 1 0 1 ++ starts 2 (.handle 0) :: takes 2 7 3 ++
    starts 3 (.handle 0) :: takes 3 8 3 ++ starts 4 (.reopen 11) :: takes 4 0 1 ++
      starts 5 (.handle 1) :: takes 5 7 4 ++ takes 2 7 4 ++ takes 3 8 2

/-- The one who is offered the slot accepts while no resource is free. -/
def missed : List (Step WaitlistRequest WaitlistEnv) :=
  starts 1 (.reopen 10) :: takes 1 0 1 ++ starts 2 (.handle 0) :: takes 2 7 7 ++
    starts 3 (.accept ⟨7, 70⟩) :: takesBusy 3 6

/-- The one who declines has read the entry before the slot is offered. -/
def unseen : List (Step WaitlistRequest WaitlistEnv) :=
  starts 1 (.reopen 10) :: takes 1 0 1 ++ starts 3 (.decline ⟨7, 70⟩) :: takes 3 0 1 ++
    starts 2 (.handle 0) :: takes 2 7 7 ++ takes 3 0 3

theorem opening : Opening tables where
  clean := fun q => ⟨⟨untouched_ofRows, untouched_ofRows, untouched_ofRows⟩, untouched_ofRows, rfl⟩
  waiting := by
    intro k x hx
    have hmem := mem_of_committed_ofRows hx
    simp only [mem_cons, not_mem_nil, or_false] at hmem
    rcases hmem with heq | heq <;> cases heq <;> rfl
  unbooked := by
    intro k x hx
    have hmem := mem_of_committed_ofRows hx
    simp only [mem_cons, not_mem_nil, or_false] at hmem
    rcases hmem with heq | heq <;> cases heq <;> rfl
  keys := fun _ => rfl
  outbox := rfl
  published := rfl

end TwoWaiting

/-- The slot is open and somebody waits for it, but its events are consumed and nobody is offered
it. -/
def Overlooked (db : WaitlistDb) (slotId k : Uuid) : Prop :=
  (∃ slot ∈ db.slots.committed slotId, slot.status = .open ∧
    ∃ x ∈ db.entries.committed k, x.WaitsFor slot.professionalId slot.serviceId) ∧
  (∃ n ∈ db.published,
    db.outbox.committed[n]?.bind WaitlistEvent.reopens = some (1, some slotId)) ∧
  (∀ n < db.outbox.committed.length, n ∉ db.published →
    (db.outbox.committed[n]?.bind WaitlistEvent.reopens).map Prod.snd ≠ some (some slotId)) ∧
  ∀ k ∈ db.entries.keys, ∀ x ∈ db.entries.committed k,
    ¬(x.status = .offered ∧ x.offeredSlotId = some slotId)

instance (slotId k : Uuid) : Decidable (Overlooked db slotId k) :=
  inferInstanceAs (Decidable ((∃ _ ∈ _, _ ∧ ∃ _ ∈ _, _) ∧ (∃ _ ∈ _, _) ∧ _ ∧ _))

theorem not_kept_of_overlooked (h : Overlooked db slotId k) : ¬WaitlistKept db := by
  obtain ⟨⟨slot, hslot, hopen, x, hx, hwaits⟩, ⟨n, -, hn⟩, hcons, hnobody⟩ := h
  intro hkept
  obtain ⟨e, he, hreop⟩ := Option.bind_eq_some_iff.1 hn
  obtain ⟨k', x', hx', hlive⟩ := hkept.remembered slotId slot hslot hopen
    ⟨n, e, 1, he, hreop⟩ (by
      rintro m ⟨_, _, he', hreop'⟩
      by_contra hm
      refine hcons m (List.getElem?_eq_some_iff.1 he').1 hm ?_
      rw [he', Option.bind_some, hreop']
      rfl) ⟨k, x, hx, hwaits⟩
  exact hnobody k' (mem_keys_of_committed hx') x' hx' hlive

theorem waitlistKept_run_declined :
    Throughout (waitlistService TwoWaiting.halfAnHour).step (fun s => WaitlistKept s.db)
      ((waitlistService TwoWaiting.halfAnHour).start TwoWaiting.tables) TwoWaiting.declined :=
  waitlistKept_run TwoWaiting.opening (by decide +kernel)

theorem not_throughout_of_overlooked (slotId k : Uuid)
    {es : List (Step WaitlistRequest WaitlistEnv)}
    (h : ∃ s ∈ runFrom (waitlistService config).step ((waitlistService config).start db) es,
      Overlooked s.db slotId k) :
    ¬Throughout (waitlistService config).step (fun s => WaitlistKept s.db)
      ((waitlistService config).start db) es := by
  obtain ⟨_, hs, hoverlooked⟩ := h
  intro hkept
  exact not_kept_of_overlooked hoverlooked (hkept.last hs)

/-- Three ways to overlook an entry. -/
theorem waitlistKept_overlooked_fails :
    ¬Throughout (waitlistService TwoWaiting.halfAnHour).step (fun s => WaitlistKept s.db)
        ((waitlistService TwoWaiting.halfAnHour).start TwoWaiting.tables) TwoWaiting.skipped ∧
      ¬Throughout (waitlistService TwoWaiting.halfAnHour).step (fun s => WaitlistKept s.db)
        ((waitlistService TwoWaiting.halfAnHour).start TwoWaiting.tables) TwoWaiting.missed ∧
      ¬Throughout (waitlistService TwoWaiting.halfAnHour).step (fun s => WaitlistKept s.db)
        ((waitlistService TwoWaiting.halfAnHour).start TwoWaiting.tables) TwoWaiting.unseen := by
  refine ⟨?_, ?_, ?_⟩
  · exact not_throughout_of_overlooked 11 8 (by decide +kernel)
  · exact not_throughout_of_overlooked 10 8 (by decide +kernel)
  · exact not_throughout_of_overlooked 10 8 (by decide +kernel)

end BeauClick.Waitlist
