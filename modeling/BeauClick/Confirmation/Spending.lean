import BeauClick.Confirmation.Calls
import BeauClick.Scheduling.Statements

/-!
# A credit is spent for a booking that is confirmed

The booking, its credit and its history are written in one transaction.

* `ConfirmationWork` — what the callback has written, place by place.
* `SpendsAsItConfirms` — a commit adds a consumption only along with a confirmation.
* `spentForConfirmed_run` — so it is in every run that finds the booking as it was read.
-/

namespace BeauClick.Confirmation

open Scheduling

open Commerce Credits Enforcement Locks ReadCommitted ReadCommitted.Versioned Runs Transactions
open Scheduling (BookingConfig BookingHistoryEntity)

/-! ## What is committed -/

/-- The history row is of a transition of the booking to confirmed. -/
def Confirms (bookingId : Uuid) (h : BookingHistoryEntity) : Prop :=
  h.bookingId = bookingId ∧ h.toStatus = .confirmed

/-- The history of the booking has a transition to confirmed. -/
def WasConfirmed (db : ConfirmationDb) (bookingId : Uuid) : Prop :=
  ∃ id h, db.history.committed id = some h ∧ Confirms bookingId h

/-- Every credit that is spent is spent for a booking that was confirmed. -/
def SpentForConfirmed (db : ConfirmationDb) : Prop :=
  ∀ id c, db.credits.consumptions.committed id = some c → WasConfirmed db c.bookingId

/-- From one state of the tables to the next, history is kept, and a credit is spent together with
a transition of its booking to confirmed. -/
structure SpendsAsItConfirms (db db' : ConfirmationDb) : Prop where
  kept : ∀ id h, db.history.committed id = some h → db'.history.committed id = some h
  spent : ∀ id c, db'.credits.consumptions.committed id = some c →
    db.credits.consumptions.committed id = some c ∨
    ∃ id' h, db.history.committed id' = none ∧ db'.history.committed id' = some h ∧
      Confirms c.bookingId h

/-- History rows are inserted, and not updated. -/
def HistoryFresh (db : ConfirmationDb) : Prop :=
  ∀ id pid h, db.history.Wrote pid id h → db.history.committed id = none

/-! ## What a call has written -/

/-- The call has spent no credit. -/
def NothingSpent (db : ConfirmationDb) (pid : ℕ) : Prop := db.credits.consumptions.Untouched pid

/-- The call has spent credits for the booking only, and none when it has none to show. -/
def SpentFor (db : ConfirmationDb) (pid : ℕ) (bookingId : Uuid) : Option Uuid → Prop
  | some _ => ∀ id c, db.credits.consumptions.Wrote pid id c → c.bookingId = bookingId
  | none => NothingSpent db pid

/-- The call has recorded that the booking is confirmed. -/
def Recorded (db : ConfirmationDb) (pid : ℕ) (bookingId : Uuid) : Prop :=
  ∃ id h, db.history.Wrote pid id h ∧ Confirms bookingId h

/-- What `consumeForConfirmation` has written for the booking at a place. -/
def LedgerWork (db : ConfirmationDb) (pid : ℕ) (bookingId : Uuid) : CreditPlace → Prop
  | .takeLock id _ | .findExisting id _ | .findGrants id _ | .countSpent id _ _ | .searchGrant id _ _
  | .insertConsumption id _ _ => id = bookingId ∧ NothingSpent db pid
  | .commitConsumption _ id _ => SpentFor db pid bookingId (some id)
  | .commitLocked _ outcome => spentBy outcome = none ∧ NothingSpent db pid
  | _ => False

/-- The places of the ledger that spend nothing. -/
def Spendless : CreditPlace → Prop
  | .findGrant _ | .insertGrant _ | .commitGrant _ | .findConsumption _ _ | .findReturn _ _
  | .insertReturn _ _ | .commitReturn _ => True
  | _ => False

/-- The places at which `confirm` of the booking stands. -/
def ConfirmsAt (bookingId : Uuid) : Scheduling.Place → Prop
  | .findCurrent t | .compareAndSet t _ => t = .confirm bookingId Scheduling.systemActor
  | .bookSlot m | .commitTransition m =>
    m.transition = .confirm bookingId Scheduling.systemActor
  | _ => False

/-- What a call has written when it inserts history rows. -/
def HistoryWork (db : ConfirmationDb) (pid : ℕ) (rows : List BookingHistoryEntity) :
    ConfirmationPlace → Prop
  | .commitConfirmed c spent => SpentFor db pid c.bookingId spent ∧
      ((∃ h ∈ rows, Confirms c.bookingId h) ∨ Recorded db pid c.bookingId)
  | .returning place => Spendless place ∧ NothingSpent db pid
  | .findSource _ _ | .commitBooking _ | .commits => NothingSpent db pid
  | _ => False

/-- What a call has written when it stands at a place. -/
def ConfirmationWork (db : ConfirmationDb) (pid : ℕ) : ConfirmationPlace → Prop
  | .recordHistory rows next => HistoryWork db pid rows next
  | .issuing place | .returning place => Spendless place ∧ NothingSpent db pid
  | .crediting c _ place => LedgerWork db pid c.bookingId place
  | .confirming c spent place => ConfirmsAt c.bookingId place ∧ SpentFor db pid c.bookingId spent
  | .commitConfirmed c spent => SpentFor db pid c.bookingId spent ∧ Recorded db pid c.bookingId
  | _ => NothingSpent db pid

/-! ## The steps of the others -/

/-- What the step of another call leaves to a call. -/
structure LeavesTo (pid : ℕ) (db db' : ConfirmationDb) : Prop where
  consumptions : db.credits.consumptions.Others pid db'.credits.consumptions
  history : db.history.Others pid db'.history

section Frame

variable {db db' : ConfirmationDb} {pid : ℕ} {bookingId : Uuid} {place : ConfirmationPlace}

section

variable (hl : LeavesTo pid db db')
include hl

theorem SpentFor.frame {spent : Option Uuid} (h : SpentFor db pid bookingId spent) :
    SpentFor db' pid bookingId spent := by
  cases spent with
  | none => exact hl.consumptions.untouched h
  | some id => exact fun id c hc => h id c (hl.consumptions.wrote_iff.1 hc)

theorem Recorded.frame (h : Recorded db pid bookingId) :
    Recorded db' pid bookingId := by
  obtain ⟨id, h, hw, hconf⟩ := h
  exact ⟨id, h, hl.history.wrote_iff.2 hw, hconf⟩

theorem LedgerWork.frame {at' : CreditPlace} (h : LedgerWork db pid bookingId at') :
    LedgerWork db' pid bookingId at' := by
  cases at' with
  | takeLock | findExisting | findGrants | countSpent | searchGrant | insertConsumption =>
    exact ⟨h.1, hl.consumptions.untouched h.2⟩
  | commitConsumption party id =>
    have hspent : SpentFor db pid bookingId (some id) := h
    exact hspent.frame hl
  | commitLocked => exact ⟨h.1, hl.consumptions.untouched h.2⟩
  | _ => exact h.elim

theorem HistoryWork.frame {rows : List BookingHistoryEntity} (h : HistoryWork db pid rows place) :
    HistoryWork db' pid rows place := by
  cases place with
  | commitConfirmed => exact ⟨h.1.frame hl, h.2.imp id fun hr => hr.frame hl⟩
  | returning => exact ⟨h.1, hl.consumptions.untouched h.2⟩
  | findSource | commitBooking | commits => exact hl.consumptions.untouched h
  | _ => exact h.elim

theorem ConfirmationWork.frame (h : ConfirmationWork db pid place) :
    ConfirmationWork db' pid place := by
  cases place with
  | recordHistory => exact HistoryWork.frame hl h
  | issuing | returning => exact ⟨h.1, hl.consumptions.untouched h.2⟩
  | crediting => exact LedgerWork.frame hl h
  | confirming => exact ⟨h.1, h.2.frame hl⟩
  | commitConfirmed => exact ⟨h.1.frame hl, h.2.frame hl⟩
  | _ => exact hl.consumptions.untouched h

end

end Frame

/-! ## Statements that go through -/

/-- What a statement keeps. -/
structure Goes (db : ConfirmationDb) (pid : ℕ) (db' : ConfirmationDb) (place : ConfirmationPlace) :
    Prop where
  consumptions : db'.credits.consumptions.committed = db.credits.consumptions.committed
  history : db'.history.committed = db.history.committed
  fresh : HistoryFresh db → HistoryFresh db'
  leaves : ∀ q, q ≠ pid → LeavesTo q db db'
  work : ConfirmationWork db' pid place

section Goes

variable {hashtext : PartyRef → ℤ} {env : ConfirmationEnv} {db db' : ConfirmationDb} {pid : ℕ}
  {place : ConfirmationPlace} {c : Confirming} {spent : Option Uuid} {next at' : Scheduling.Place}
  {record : Scheduling.Record} {config : BookingConfig} {governed : Bool} {bookingId : Uuid}
  {actor : Scheduling.BookingActor}

theorem goes_other (hc : db'.credits.consumptions = db.credits.consumptions)
    (hh : db'.history = db.history) (h : ConfirmationWork db pid place) :
    Goes db pid db' place := by
  have hleaves : ∀ q, LeavesTo q db db' := by
    intro q
    refine ⟨?_, ?_⟩
    · rw [hc]
      exact .refl
    · rw [hh]
      exact .refl
  refine ⟨by rw [hc], by rw [hh], ?_, fun q _ => hleaves q, h.frame (hleaves pid)⟩
  rw [HistoryFresh, HistoryFresh, hh]
  exact id

theorem goes_read (h : ConfirmationWork db pid place) : Goes db pid db place := goes_other rfl rfl h

/-- Where a call stands when its transaction has ended. -/
def Ended : ConfirmationPlace → Prop
  | .booking _ | .returned | .threw => True
  | _ => False

theorem Ended.work (h : Ended place) (hu : NothingSpent db pid) :
    ConfirmationWork db pid place := by
  cases place with
  | booking | returned | threw => exact hu
  | _ => exact h.elim

/-- What a statement comes to: a call that commits has spent nothing, or it has recorded that the
booking is confirmed. -/
abbrev Shown (db : ConfirmationDb) (pid : ℕ) : ConfirmationNext → Prop :=
  Next.Meets (Goes db pid) (fun _ _ place => ConfirmationWork db pid place)
    (fun place => Ended place ∧ (NothingSpent db pid ∨ ∃ bookingId,
      (∀ id c, db.credits.consumptions.Wrote pid id c → c.bookingId = bookingId) ∧
        Recorded db pid bookingId)) Ended

theorem shown_ofBooking {next : Scheduling.Next} {goes : Scheduling.Place → ConfirmationPlace}
    {commits : Scheduling.Record → Scheduling.Place → ConfirmationNext}
    {failed : Scheduling.Failure → ConfirmationPlace}
    (hgoes : ∀ bookings place, next = .goes bookings place →
      Goes db pid { db with bookings := bookings } (goes place))
    (hcmt : ∀ record place, next = .commits record place →
      Shown db pid (commits record place))
    (hfailed : ∀ failure, Ended (failed failure)) :
    Shown db pid (ofBooking db next goes commits failed) := by
  cases next with
  | waits => trivial
  | goes bookings place => exact hgoes bookings place rfl
  | commits record place => exact hcmt record place rfl
  | throws failure => exact hfailed failure

theorem shown_ofCredits {next : CreditNext} {goes : CreditPlace → ConfirmationPlace}
    {commits : CreditPlace → ConfirmationNext} {goes' : CreditDb → CreditPlace → Prop}
    {locks' : ℤ → LockMode → CreditPlace → Prop} {commits' throws' : CreditPlace → Prop}
    (hnext : next.Meets goes' locks' commits' throws')
    (hgoes : ∀ credits place, goes' credits place →
      Goes db pid { db with credits := credits } (goes place))
    (hlocks : ∀ key mode place, locks' key mode place → ConfirmationWork db pid (goes place))
    (hcmt : ∀ place, commits' place → Shown db pid (commits place)) :
    Shown db pid (ofCredits db next goes commits) := by
  cases next with
  | waits => trivial
  | goes credits place => exact hgoes credits place hnext
  | locks key mode place => exact hlocks key mode place hnext
  | commits place => exact hcmt place hnext
  | throws => trivial

theorem shown_recordHistory {rows : List BookingHistoryEntity} {next : ConfirmationPlace}
    (h : HistoryWork db pid rows next) : Shown db pid (recordHistory env db pid rows next) := by
  unfold recordHistory
  split
  · refine goes_read ?_
    cases next with
    | commitConfirmed =>
      obtain ⟨hspent, ⟨row, hrow, -⟩ | hrec⟩ := h
      · cases hrow
      exact ⟨hspent, hrec⟩
    | returning | findSource | commitBooking | commits => exact h
    | _ => exact h.elim
  · rename_i first rest
    split <;> try trivial
    rename_i row history hdone
    obtain ⟨rfl, rfl, hlock, hnone, -⟩ := insert_eq_done hdone
    have hleaves : ∀ q, q ≠ pid → LeavesTo q db
        { db with history := db.history.write pid env.booking.newId row } :=
      fun q hq => ⟨.refl, others_write hq hlock⟩
    refine ⟨rfl, committed_write, ?_, hleaves, ?_⟩
    · intro hfresh id q row' hw
      rw [committed_write]
      by_cases hid : id = env.booking.newId
      · subst hid
        cases hcomm : db.history.committed env.booking.newId with
        | none => rfl
        | some => exact absurd (Or.inl hcomm) (not_version_of_free hlock hnone)
      · refine hfresh id q row' ?_
        rw [Wrote] at hw ⊢
        rwa [row_write_ne hid] at hw
    · have hrec : ∀ bookingId, Recorded db pid bookingId →
          Recorded { db with history := db.history.write pid env.booking.newId row } pid
            bookingId := by
        rintro bookingId ⟨id, h', hw, hconfirms⟩
        have hne : id ≠ env.booking.newId := by
          rintro rfl
          exact not_version_of_free hlock hnone (Or.inr ⟨pid, hw⟩)
        refine ⟨id, h', ?_, hconfirms⟩
        rw [Wrote, row_write_ne hne]
        exact hw
      cases next with
      | commitConfirmed c spent =>
        obtain ⟨hspent, hconf⟩ := h
        refine ⟨?_, ?_⟩
        · cases spent <;> exact hspent
        · rcases hconf with ⟨h', hmem, hconfirms⟩ | hbef
          · rcases List.mem_cons.1 hmem with rfl | hrest
            · exact Or.inr ⟨_, _, wrote_write_self, hconfirms⟩
            · exact Or.inl ⟨h', hrest, hconfirms⟩
          · exact Or.inr (hrec _ hbef)
      | returning | findSource | commitBooking | commits => exact h
      | _ => exact h.elim

/-! ### The ledger -/

theorem shown_spendless {at' : CreditPlace} {env' : CreditEnv} (h : Spendless at') :
    (creditStatement hashtext env' db.credits pid at').Ends
      (fun credits next => credits.consumptions = db.credits.consumptions ∧ Spendless next)
      (fun _ => True) fun _ => True := by
  cases at' with
  | findGrant | insertGrant | findConsumption | findReturn | insertReturn =>
    simp only [creditStatement, findGrant, insertGrant, findConsumption, findReturn, insertReturn]
    repeat' split
    all_goals trivial
  | commitGrant | commitReturn => trivial
  | _ => exact h.elim

theorem shown_ledger {at' : CreditPlace} (h : LedgerWork db pid c.bookingId at') :
    (creditStatement hashtext env.credit db.credits pid at').Meets
      (fun credits next => Goes db pid { db with credits := credits } (.crediting c governed next))
      (fun _ _ next => LedgerWork db pid c.bookingId next)
      (fun next => ∃ outcome, next = .returned outcome ∧
        SpentFor db pid c.bookingId (spentBy outcome) ∧
        (spentBy outcome = none ∨ ∃ id grantId, outcome = .consumed id grantId))
      fun _ => True := by
  cases at' with
  | takeLock => exact h
  | findExisting | findGrants | countSpent | searchGrant =>
    simp only [creditStatement, findExisting, findGrants, countSpent, searchGrant]
    split
    · exact goes_other rfl rfl ⟨rfl, h.2⟩
    · exact goes_other rfl rfl h
  | insertConsumption id =>
    simp only [creditStatement, insertConsumption]
    split <;> try trivial
    rename_i row consumptions hdone
    obtain ⟨rfl, rfl, hlock, -, -⟩ := insert_eq_done hdone
    obtain ⟨rfl, hnothing⟩ := h
    refine ⟨committed_write, rfl, id, fun q hq => ⟨others_write hq hlock, .refl⟩, ?_⟩
    intro cid row hw
    obtain rfl : cid = env.credit.newId := hnothing.onlyAt.write _ hw.writtenBy
    rw [hw.unique wrote_write_self]
    rfl
  | commitConsumption party id grantId => exact ⟨_, rfl, h, Or.inr ⟨id, grantId, rfl⟩⟩
  | commitLocked party outcome =>
    refine ⟨outcome, rfl, ?_, Or.inl h.1⟩
    rw [h.1]
    exact h.2
  | _ => exact h.elim

/-! ### The confirmation -/

theorem shown_notConfirmed (h : NothingSpent db pid) : Shown db pid (notConfirmed db c spent) := by
  unfold notConfirmed
  split
  · exact goes_read h
  · trivial

theorem shown_writeOrder {orderId : Uuid} {order : Option OrderEntity} {next : ConfirmationPlace}
    (h : ConfirmationWork db pid next) : Shown db pid (writeOrder db pid orderId order next) := by
  unfold writeOrder
  split
  · trivial
  split <;> try trivial
  exact goes_other rfl rfl h

theorem shown_afterLedger {outcome : CreditOutcome}
    (hspent : SpentFor db pid c.bookingId (spentBy outcome))
    (houtcome : spentBy outcome = none ∨ ∃ id grantId, outcome = .consumed id grantId) :
    Shown db pid (afterLedger db c governed (.returned outcome)) := by
  simp only [afterLedger]
  split
  · exact goes_read ⟨rfl, hspent⟩
  · rename_i href
    rcases houtcome with hnone | ⟨id, grantId, rfl⟩
    · rw [hnone] at hspent
      exact shown_notConfirmed hspent
    · exact absurd (entitlementOf_consumed governed id grantId) href

/-- The booking is pending where a callback that has spent a credit comes to confirm it. -/
def StillPending (db : ConfirmationDb) (pid : ℕ) (bookingId : Uuid) : Prop :=
  ∃ b, db.bookings.bookings.get pid bookingId = some b ∧ b.status = .pending

instance (db : ConfirmationDb) (pid : ℕ) (bookingId : Uuid) :
    Decidable (StillPending db pid bookingId) :=
  decidable_of_iff ((db.bookings.bookings.get pid bookingId).map (·.status) = some .pending)
    Option.map_eq_some_iff

/-- The booking whose status a callback that has spent a credit reads or sets, to confirm it. -/
def spentToConfirm : ConfirmationPlace → Option Uuid
  | .confirming ⟨.callback, _, bookingId⟩ (some _) (.findCurrent _) => some bookingId
  | .confirming ⟨.callback, _, bookingId⟩ (some _) (.compareAndSet _ _) => some bookingId
  | _ => none

/-- **The condition.**  A callback that has spent a credit finds the booking pending when it
reads its status to confirm it, and when it sets it. -/
def PendingAtConfirm (_ : ConfirmationEnv) (db : ConfirmationDb) (pid : ℕ)
    (place : ConfirmationPlace) : Prop :=
  ∀ bookingId ∈ spentToConfirm place, StillPending db pid bookingId

instance (env : ConfirmationEnv) (db : ConfirmationDb) (pid : ℕ) (place : ConfirmationPlace) :
    Decidable (PendingAtConfirm env db pid place) := inferInstanceAs (Decidable (∀ _ ∈ _, _))

/-- A booking that is pending is confirmed, unless the statement waits or the transaction is
rolled back. -/
theorem not_commits_findCurrent (h : StillPending db pid bookingId) :
    Scheduling.findCurrent db.bookings pid (.confirm bookingId actor) ≠ .commits record next := by
  intro hs
  obtain ⟨_, hget, hpend⟩ := h
  simp only [findCurrent, Scheduling.Transition.bookingId, hget, hpend,
    Scheduling.Transition.allowedFrom, List.mem_singleton, if_true] at hs
  cases hs

theorem not_commits_compareAndSet {env' : Scheduling.Env} {current : Booking.BookingStatus}
    (h : StillPending db pid bookingId) :
    Scheduling.compareAndSet env' db.bookings pid (.confirm bookingId actor) current ≠
      .commits record next := by
  intro hs
  obtain ⟨b, hget, hpend⟩ := h
  simp only [compareAndSet, Scheduling.Transition.bookingId, hget] at hs
  split at hs
  · cases hs
  · rename_i hunmatched
    have hnot := update_eq_unmatched hunmatched b hget
    simp [Scheduling.Transition.allowedFrom, hpend] at hnot
  · cases hs
  · cases hs

theorem goes_confirm {bookings : Scheduling.BookingDb} (hat : ConfirmsAt c.bookingId at')
    (h : SpentFor db pid c.bookingId spent)
    (hs : Scheduling.statement config env.booking db.bookings pid at' = .goes bookings next) :
    Goes db pid { db with bookings := bookings } (.confirming c spent next) := by
  refine goes_other rfl rfl ⟨?_, h⟩
  cases at' with
  | findCurrent t =>
    obtain rfl : t = .confirm c.bookingId systemActor := hat
    obtain ⟨-, b, -, -, rfl⟩ := findCurrent_eq_goes hs
    rfl
  | compareAndSet t =>
    obtain rfl : t = .confirm c.bookingId systemActor := hat
    obtain ⟨b, -, -, -, -, rfl⟩ := compareAndSet_eq_goes hs
    rfl
  | bookSlot =>
    obtain ⟨_, -, hslot⟩ := bookSlot_eq_goes hs
    obtain ⟨rfl, -⟩ := bookSlotOf_eq_goes hslot
    exact hat
  | commitTransition => cases hs
  | _ => exact hat.elim

/-- `confirm` has come to its end: the history row of the transition is next, or there was no
transition, and then no credit has been spent where the others rely on it. -/
theorem shown_afterConfirm (hat : ConfirmsAt c.bookingId at')
    (h : SpentFor db pid c.bookingId spent)
    (hpend : PendingAtConfirm env db pid (.confirming c spent at'))
    (hcmt : Scheduling.statement config env.booking db.bookings pid at' =
      .commits record next) : Shown db pid (afterConfirm db c spent record) := by
  have hnothing (hnot : ∀ id, spent = some id → c.path ≠ .callback) :
      Shown db pid (notConfirmed db c spent) := by
    cases spent with
    | none => exact shown_notConfirmed h
    | some id =>
      have hpath := hnot id rfl
      unfold notConfirmed
      cases hc : c.path with
      | callback => exact absurd hc hpath
      | zeroCollection => trivial
  obtain ⟨_, _, bookingId⟩ := c
  cases at' with
  | findCurrent t =>
    obtain rfl : t = .confirm bookingId systemActor := hat
    cases statement_eq_commits hcmt
    refine hnothing ?_
    rintro id rfl rfl
    exact not_commits_findCurrent (hpend bookingId rfl) hcmt
  | compareAndSet t =>
    obtain rfl : t = .confirm bookingId systemActor := hat
    cases statement_eq_commits hcmt
    refine hnothing ?_
    rintro id rfl rfl
    exact not_commits_compareAndSet (hpend bookingId rfl) hcmt
  | bookSlot => cases statement_eq_commits hcmt
  | commitTransition m =>
    cases statement_eq_commits hcmt
    refine goes_read ⟨h, Or.inl ⟨_, List.mem_singleton_self _, ?_⟩⟩
    obtain ⟨transition, _, _⟩ := m
    obtain rfl : transition = .confirm bookingId systemActor := hat
    exact ⟨rfl, rfl⟩
  | _ => exact hat.elim

theorem createForCheckout_cases (config : BookingConfig) (env : ConfirmationEnv)
    (db : ConfirmationDb) (pid : ℕ) (terms : OrderTerms) (at' : Scheduling.Place) :
    (∃ bookingId, createForCheckout config env db pid terms at' =
      .goes db (.findSource terms bookingId)) ∨
    (∃ bookings input, createForCheckout config env db pid terms at' =
      .goes { db with bookings := bookings } (.refused terms input)) ∨
    createForCheckout config env db pid terms at' = .throws .threw ∨
    createForCheckout config env db pid terms at' =
      ofBooking db (Scheduling.statement config env.booking db.bookings pid at') (.checkout terms)
        (fun record _ => afterCreate db terms record) fun _ => .threw := by
  unfold createForCheckout
  split
  · exact Or.inl ⟨_, rfl⟩
  · split
    · exact Or.inr (Or.inl ⟨_, _, rfl⟩)
    · exact Or.inr (Or.inr (Or.inl rfl))
  · exact Or.inr (Or.inr (Or.inr rfl))

/-- What each statement of the confirmation keeps. -/
theorem shown_statement {at' : ConfirmationPlace} (hassumes : PendingAtConfirm env db pid at')
    (h : ConfirmationWork db pid at') :
    Shown db pid (confirmationStatement config hashtext env db pid at') := by
  cases at' with
  | booking =>
    refine shown_ofBooking (fun _ _ _ => goes_other rfl rfl h) (fun record next _ => ?_)
      fun _ => trivial
    exact goes_read h
  | recordHistory => exact shown_recordHistory h
  | checkout terms at' =>
    simp only [confirmationStatement]
    rcases createForCheckout_cases config env db pid terms at' with ⟨bookingId, hnext⟩ |
      ⟨bookings, input, hnext⟩ | hnext | hnext
    · rw [hnext]
      exact goes_read h
    · rw [hnext]
      exact goes_other rfl rfl h
    · rw [hnext]
      trivial
    · rw [hnext]
      refine shown_ofBooking (fun _ _ _ => goes_other rfl rfl h) (fun record next _ => ?_)
        fun _ => trivial
      unfold afterCreate
      split
      · exact goes_read h
      · trivial
  | issuing =>
    exact shown_ofCredits (shown_spendless h.1)
      (fun credits next hnext => goes_other hnext.1 rfl ⟨hnext.2, h.2⟩)
      (fun _ _ _ hlocks => hlocks.elim) fun _ _ => ⟨trivial, Or.inl h.2⟩
  | cancelOrder =>
    simp only [confirmationStatement, cancelOrder]
    split
    · exact shown_writeOrder h
    · exact ⟨trivial, Or.inl h⟩
  | cancelling =>
    refine shown_ofBooking (fun _ _ _ => goes_other rfl rfl h) (fun record next _ => ?_)
      fun _ => trivial
    unfold afterCancel
    split
    · refine goes_read ?_
      split
      · split
        · exact ⟨trivial, h⟩
        · exact h
      · exact h
    · exact ⟨trivial, Or.inl h⟩
  | returning =>
    exact shown_ofCredits (shown_spendless h.1)
      (fun credits next hnext => goes_other hnext.1 rfl ⟨hnext.2, h.2⟩)
      (fun _ _ _ hlocks => hlocks.elim) fun _ _ => goes_read h.2
  | crediting =>
    refine shown_ofCredits (shown_ledger h) (fun _ _ hnext => hnext) (fun _ _ _ hnext => hnext) ?_
    rintro _ ⟨_, rfl, hspent, houtcome⟩
    exact shown_afterLedger hspent houtcome
  | confirming =>
    exact shown_ofBooking (fun _ _ hnext => goes_confirm h.1 h.2 hnext)
      (fun _ _ hnext => shown_afterConfirm h.1 h.2 hassumes hnext) fun _ => trivial
  | commitConfirmed c spent =>
    obtain ⟨hspent, hrec⟩ := h
    cases spent with
    | none => exact ⟨trivial, Or.inl hspent⟩
    | some => exact ⟨trivial, Or.inr ⟨c.bookingId, hspent, hrec⟩⟩
  | commitBooking | commitUnavailable | commits => exact ⟨trivial, Or.inl h⟩
  | lockGovernance => exact h
  | idle | returned | threw => trivial
  | _ =>
    simp only [confirmationStatement, refused, findSource, insertOrder, insertSchedule, capture,
      findOrder, moveOrder, findBookingOrder, readControl, findGovernance]
    repeat' split
    all_goals first
      | trivial
      | exact ⟨trivial, Or.inl h⟩
      | exact shown_notConfirmed h
      | exact shown_writeOrder h
      | exact goes_other rfl rfl h
      | exact goes_read ⟨rfl, h⟩

end Goes

/-! ## The outline -/

/-- What calls may rely on; no lock is needed. -/
def spending : Outline ConfirmationDb ℤ ConfirmationPlace ConfirmationEnv where
  Assumes := PendingAtConfirm
  Sound := HistoryFresh
  Guarantee := SpendsAsItConfirms
  Work := ConfirmationWork
  holds _ _ _ := False

section Keeps

variable {db db' db'' : ConfirmationDb} {pid : ℕ} {place place' : ConfirmationPlace}

theorem SpendsAsItConfirms.of_eq
    (hc : db'.credits.consumptions.committed = db.credits.consumptions.committed)
    (hh : db'.history.committed = db.history.committed) : SpendsAsItConfirms db db' where
  kept := by
    rw [hh]
    exact fun _ _ => id
  spent := by
    rw [hc]
    exact fun _ _ => Or.inl

theorem SpendsAsItConfirms.trans (h : SpendsAsItConfirms db db')
    (h' : SpendsAsItConfirms db' db'') : SpendsAsItConfirms db db'' where
  kept := fun id row hrow => h'.kept id row (h.kept id row hrow)
  spent := by
    intro id c hc
    rcases h'.spent id c hc with hc' | ⟨id', row, hnone, hrow, hconf⟩
    · rcases h.spent id c hc' with hbef | ⟨id', row, hnone, hrow, hconf⟩
      · exact Or.inl hbef
      · exact Or.inr ⟨id', row, hnone, h'.kept id' row hrow, hconf⟩
    · refine Or.inr ⟨id', row, ?_, hrow, hconf⟩
      cases hcomm : db.history.committed id' with
      | none => rfl
      | some old =>
        rw [h.kept id' old hcomm] at hnone
        cases hnone

theorem SpendsAsItConfirms.spentForConfirmed (h : SpendsAsItConfirms db db')
    (hspent : SpentForConfirmed db) : SpentForConfirmed db' := by
  intro id c hc
  rcases h.spent id c hc with hbef | ⟨id', row, -, hrow, hconf⟩
  · obtain ⟨id', row, hrow, hconf⟩ := hspent id c hbef
    exact ⟨id', row, h.kept id' row hrow, hconf⟩
  · exact ⟨id', row, hrow, hconf⟩

section

variable (hs : HistoryFresh db)
include hs

theorem spendsAsItConfirms_commit
    (h : NothingSpent db pid ∨ ∃ bookingId,
      (∀ id c, db.credits.consumptions.Wrote pid id c → c.bookingId = bookingId) ∧
        Recorded db pid bookingId) : SpendsAsItConfirms db (db.commit pid) where
  kept := by
    intro id row hrow
    have hnot : ¬(db.history.row id).WrittenBy pid := by
      rintro ⟨row', hw⟩
      rw [hs id pid row' hw] at hrow
      cases hrow
    exact (committed_commit_of_not hnot).trans hrow
  spent := by
    intro id c hc
    by_cases hw : (db.credits.consumptions.row id).WrittenBy pid
    · obtain ⟨c', hw⟩ := hw
      rcases h with hnothing | ⟨_, hspent, id', row, hrow, hconf⟩
      · exact absurd ⟨c', hw⟩ (hnothing id)
      · have hc' : (db.credits.consumptions.commit pid).committed id = some c' :=
          (Wrote.committed_commit hw)
        obtain rfl : c' = c := Option.some.inj (hc'.symm.trans hc)
        rw [hspent id c' hw]
        exact Or.inr ⟨id', row, hs id' pid row hrow, hrow.committed_commit, hconf⟩
    · have hc' : (db.credits.consumptions.commit pid).committed id =
          db.credits.consumptions.committed id := committed_commit_of_not hw
      exact Or.inl (hc'.symm.trans hc)

theorem historyFresh_commit : HistoryFresh (db.commit pid) := by
  intro id q row h
  by_cases hw : (db.history.row id).WrittenBy pid
  · obtain ⟨row', hw⟩ := hw
    have hrow : (db.commit pid).history.row id = ⟨some row', none⟩ := Row.commit_of_written hw
    rw [Wrote, hrow] at h
    cases h
  · have hrow : (db.commit pid).history.row id = db.history.row id := Row.commit_of_not hw
    rw [Wrote, hrow] at h
    rw [committed, hrow]
    exact hs id q row h

theorem historyFresh_rollback : HistoryFresh (db.rollback pid) := by
  intro id q row h
  have hcomm : (db.rollback pid).history.committed id = db.history.committed id :=
    Row.committed_rollback
  rw [hcomm]
  by_cases hw : (db.history.row id).WrittenBy pid
  · obtain ⟨row', hw⟩ := hw
    exact hs id pid row' hw
  · have hrow : (db.rollback pid).history.row id = db.history.row id := Row.rollback_of_not hw
    rw [Wrote, hrow] at h
    exact hs id q row h

theorem keeps_goes (hg : Goes db pid db' place') :
    spending.Keeps db pid place db' where
  sound := hg.fresh hs
  guarantee := .of_eq hg.consumptions hg.history
  others := fun q _ hq _ hw => ConfirmationWork.frame (hg.leaves q hq) hw

theorem keeps_commit
    (h : NothingSpent db pid ∨ ∃ bookingId,
      (∀ id c, db.credits.consumptions.Wrote pid id c → c.bookingId = bookingId) ∧
        Recorded db pid bookingId) : spending.Keeps db pid place (db.commit pid) where
  sound := historyFresh_commit hs
  guarantee := spendsAsItConfirms_commit hs h
  others := fun _ _ hq _ hw =>
    ConfirmationWork.frame ⟨others_commit hq, others_commit hq⟩ hw

theorem keeps_rollback :
    spending.Keeps db pid place (db.rollback pid) where
  sound := historyFresh_rollback hs
  guarantee := .of_eq (funext fun _ => Row.committed_rollback)
    (funext fun _ => Row.committed_rollback)
  others := fun _ _ hq _ hw =>
    ConfirmationWork.frame ⟨others_rollback hq, others_rollback hq⟩ hw

end

end Keeps

/-- Each statement of a confirmation keeps it. -/
theorem spending_proof {config : BookingConfig} {hashtext : PartyRef → ℤ} :
    FreeProof (confirmations config hashtext) spending where
  refl := fun _ => .of_eq rfl rfl
  trans := fun _ _ _ h h' => h.trans h'
  first := by
    intro db pid request hw
    cases request with
    | issueGrant => exact ⟨trivial, hw⟩
    | _ => exact hw
  statement := by
    intro env db pid at' hassumes hs hw
    refine (shown_statement hassumes hw).mono (fun db' place hg => ?_) (fun _ _ _ h => h)
      (fun place h => ?_) fun place hended => ?_
    · exact ⟨keeps_goes hs hg, hg.work⟩
    · exact ⟨keeps_commit hs h.2, h.1.work untouched_commit⟩
    · exact ⟨keeps_rollback hs, hended.work untouched_rollback⟩
  dies := fun db pid at' _ hs _ => ⟨keeps_rollback hs, untouched_rollback⟩

/-! ## Runs -/

/-- In every run whose callbacks find the booking pending that they have spent a credit for, every
credit that is spent is spent for a booking that was confirmed, and in the transaction that
confirms it. -/
theorem spentForConfirmed_run {config : BookingConfig} {hashtext : PartyRef → ℤ}
    {es : List (Step ConfirmationRequest ConfirmationEnv)}
    {s : System ConfirmationDb ℤ ConfirmationPlace}
    (hm : Along (confirmations config hashtext).step spending.Meets
      ((confirmations config hashtext).start .empty) es)
    (h : runFrom (confirmations config hashtext).step
      ((confirmations config hashtext).start .empty) es = some s) :
    SpentForConfirmed s.db ∧ ∀ e s', spending.Meets s e →
      (confirmations config hashtext).step s e = some s' → SpendsAsItConfirms s.db s'.db := by
  have hproof : Proof (confirmations config hashtext) spending := spending_proof.proof
  have hstart : spending.Holds ((confirmations config hashtext).start .empty) := by
    refine hproof.holds_start (fun _ _ _ _ => rfl) fun pid => ?_
    exact untouched_empty
  obtain ⟨hs, hguarantee⟩ := hproof.holds_run hstart hm h
  refine ⟨hguarantee.spentForConfirmed ?_, fun e s' hmeets hstep => ?_⟩
  · intro id c hc
    simp [Service.start, ConfirmationDb.empty, CreditDb.empty] at hc
  · exact (hproof.holds_step hs hmeets hstep).2

instance (env : ConfirmationEnv) (db : ConfirmationDb) (pid : ℕ) (place : ConfirmationPlace) :
    Decidable (spending.Assumes env db pid place) :=
  inferInstanceAs (Decidable (PendingAtConfirm env db pid place))

/-- The next `n` statements. -/
def takes (pid n : ℕ) (now : Instant) (newId : Uuid) :
    List (Step ConfirmationRequest ConfirmationEnv) :=
  List.replicate n
    ⟨pid, .statement ⟨⟨now, newId, none, none, false, false⟩, some initialControl, none⟩⟩

/-- A professional with one credit publishes a slot, a customer checks it out, and the callback of
its payment has spent the credit. -/
def captured : List (Step ConfirmationRequest ConfirmationEnv) :=
  [⟨0, .start (.createSlot ⟨7, 100000000, 103600000, none⟩)⟩] ++ takes 0 5 0 1 ++
    [⟨1, .start (.issueGrant ⟨2, ⟨.professional, 7⟩, 1⟩)⟩] ++ takes 1 3 0 10 ++
    [⟨2, .start (.checkout ⟨5, 7, none, 1, none, true⟩ ⟨60, .professional, 7, 1000, 1000⟩)⟩] ++
    takes 2 11 0 50 ++
    [⟨3, .start (.callback 60 1000)⟩] ++ takes 3 11 900000 70

/-- The booking is confirmed, and the professional cancels it, and has the credit back. -/
def confirmedAtOnce : List (Step ConfirmationRequest ConfirmationEnv) :=
  captured ++ takes 3 7 900000 71 ++
    [⟨4, .start (.cancel 50 ⟨.professional, some 7⟩ none)⟩] ++ takes 4 13 900001 72

theorem spentForConfirmed_run_confirmedAtOnce :
    ∃ s, runFrom (confirmations .default fun party => party.partyId).step
        ((confirmations .default fun party => party.partyId).start .empty) confirmedAtOnce = some s ∧
      s.calls 3 = .returned ∧ s.calls 4 = .returned ∧ SpentForConfirmed s.db := by
  obtain ⟨s, hs, h3, h4⟩ : ∃ s ∈ runFrom (confirmations .default fun party => party.partyId).step
      ((confirmations .default fun party => party.partyId).start .empty) confirmedAtOnce,
      s.calls 3 = .returned ∧ s.calls 4 = .returned := by
    decide +kernel
  have hmeets : Along (confirmations .default fun party => party.partyId).step spending.Meets
      ((confirmations .default fun party => party.partyId).start .empty) confirmedAtOnce := by
    decide +kernel
  exact ⟨s, hs, h3, h4, (spentForConfirmed_run hmeets hs).1⟩

/-- The hold lapses when the credit has been spent, and a sweep expires the booking before the
callback reads it. -/
def lapsedHold : List (Step ConfirmationRequest ConfirmationEnv) :=
  captured ++ [⟨4, .start (.expireStaleHolds 10)⟩] ++ takes 4 8 900001 80 ++ takes 3 2 900001 71

/-- The credit is spent, and the booking was never confirmed. -/
theorem spentForConfirmed_lapsedHold_fails :
    ∃ s, runFrom (confirmations .default fun party => party.partyId).step
        ((confirmations .default fun party => party.partyId).start .empty) lapsedHold = some s ∧
      ¬SpentForConfirmed s.db := by
  obtain ⟨s, hs, ⟨c, hc, hbook⟩, hnever⟩ :
      ∃ s ∈ runFrom (confirmations .default fun party => party.partyId).step
        ((confirmations .default fun party => party.partyId).start .empty) lapsedHold,
        (∃ c ∈ s.db.credits.consumptions.committed 70, c.bookingId = 50) ∧
        ¬∃ id ∈ s.db.history.keys, ∃ h ∈ s.db.history.committed id,
          h.bookingId = 50 ∧ h.toStatus = .confirmed := by
    decide +kernel
  refine ⟨s, hs, fun h => ?_⟩
  obtain ⟨id, row, hrow, hid, hstat⟩ := h 70 c hc
  rw [hbook] at hid
  exact hnever ⟨id, mem_keys_of_committed hrow, row, hrow, hid, hstat⟩

end BeauClick.Confirmation
