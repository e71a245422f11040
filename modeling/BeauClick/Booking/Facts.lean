import BeauClick.Booking.Booking

/-!
# Which cancellation the facts are of

A booking that a remedy revives can be cancelled again, and its history then records several
cancellations.  `cancellationFacts` joins the booking to those rows and takes the first; the
actor it takes from the booking, where each cancellation writes it anew.
-/

namespace BeauClick.Booking

namespace BookingStore

def complete (s : BookingStore) (actor : BookingActorType) (now : Instant) : Bool × BookingStore :=
  s.transition .completed .completed [.confirmed] actor now id fun b => .bookingCompleted b.id

/-- `markNoShow`; `none` when it throws.  `permitted` is the answer of the guards on the
instant and, where outcome terms govern the booking, on the declaration. -/
def markNoShow (s : BookingStore) (actor : BookingActorType) (governed permitted : Bool)
    (now : Instant) : Option BookingStore :=
  match s.booking with
  | none => some s
  | some b =>
    if b.status = .confirmed && permitted then
      some {
        booking := some { b with status := .noShow }
        history := s.history ++ [⟨.noShow, b.status, .noShow, actor, now⟩]
        outbox := s.outbox ++ if governed then [.bookingNoShowDeclared b.id] else [] }
    else none

/-- A booking as it is created, before its first move. -/
def opened (id slotId : Uuid) (slotStart : Instant) : BookingStore where
  booking := some ⟨id, .pending, slotId, slotStart, 0, none, none⟩
  history := []
  outbox := []

/-- The cancellations that the history records, in order. -/
def cancellations (s : BookingStore) : List BookingHistoryEntity :=
  s.history.filter fun h => h.event = .cancelled

end BookingStore

/-- An operation on one booking. -/
inductive BookingOp where
  | confirm (actor : BookingActorType) (now : Instant)
  | cancel (actor : BookingActorType) (now : Instant)
  | expire (now : Instant)
  | complete (actor : BookingActorType) (now : Instant)
  | markNoShow (actor : BookingActorType) (governed permitted : Bool) (now : Instant)
  | reschedule (slot : Option ClaimedSlot) (actor : BookingActorType)
      (remedyBypass permitted : Bool) (now : Instant)

namespace BookingOp

/-- The store after an operation; one that throws leaves it. -/
def apply (s : BookingStore) : BookingOp → BookingStore
  | confirm actor now => (s.confirm actor now).2
  | cancel actor now => (s.cancel actor now).2
  | expire now => (s.expire now).2
  | complete actor now => (s.complete actor now).2
  | markNoShow actor governed permitted now => (s.markNoShow actor governed permitted now).getD s
  | reschedule slot actor remedyBypass permitted now =>
    (s.reschedule slot actor remedyBypass permitted now).getD s

end BookingOp

/-- The facts of one cancellation of a booking. -/
def BookingHistoryEntity.facts (h : BookingHistoryEntity) (b : BookingEntity)
    (cutoffHours : Option ℤ) : BookingCancellationFacts where
  cancelledByActorType := h.actorType
  wasConfirmed := h.fromStatus = .confirmed
  eventInstant := h.createdAt
  cutoffInstant := cutoffHours.map fun hours => b.slotStart - hours * 3600000
  timely := cutoffHours.map fun hours => h.createdAt ≤ b.slotStart - hours * 3600000

/-- The facts read of a cancelled booking are those of its latest cancellation. -/
def TellsLatest (cutoffHours : Option ℤ) (s : BookingStore) : Prop :=
  ∀ b, s.booking = some b → b.status = .cancelled →
    ∃ last, s.cancellations.getLast? = some last ∧
      s.cancellationFacts cutoffHours = some (last.facts b cutoffHours)

/-- A cancelled booking was cancelled once, or first when it was confirmed and in the very
instant of its latest cancellation. -/
def OnceOrAlike (s : BookingStore) : Prop :=
  ∀ b, s.booking = some b → b.status = .cancelled → s.cancellations.length = 1 ∨
    ∃ first last, s.cancellations.head? = some first ∧ s.cancellations.getLast? = some last ∧
      first.fromStatus = .confirmed ∧ first.createdAt = last.createdAt

namespace BookingStore

/-- What an operation writes: nothing, a move that is no cancellation, or a cancellation. -/
inductive Moves (s : BookingStore) : BookingStore → Prop
  | none : Moves s s
  | moves {b b' row outbox} (hb : s.booking = some b) (hrow : row.event ≠ .cancelled)
      (hpending : b'.status = .pending → b.status = .pending) (hstatus : b'.status ≠ .cancelled) :
      Moves s ⟨some b', s.history ++ [row], outbox⟩
  | cancels {b actor now outbox} (hb : s.booking = some b)
      (hstatus : b.status = .pending ∨ b.status = .confirmed) :
      Moves s ⟨some { b with
          status := .cancelled
          cancelledByActorType := some actor
          cancelledAt := some now },
        s.history ++ [⟨.cancelled, b.status, .cancelled, actor, now⟩], outbox⟩

open BookingOp

theorem moves_apply (s : BookingStore) (op : BookingOp) : s.Moves (op.apply s) := by
  cases op with
  | confirm actor now =>
    rcases s.confirm_cases actor now with h | ⟨b, hb, -, h⟩ <;> simp only [apply, h]
    · exact .none
    · exact .moves hb (by simp) (by simp) (by simp)
  | cancel actor now =>
    rcases s.cancel_cases actor now with h | ⟨b, hb, hmem, h⟩ <;> simp only [apply, h]
    · exact .none
    · exact .cancels hb (by simpa using hmem)
  | expire now =>
    rcases s.expire_cases now with h | ⟨b, hb, -, h⟩ <;> simp only [apply, h]
    · exact .none
    · exact .moves hb (by simp) (by simp) (by simp)
  | complete =>
    simp only [apply, complete]
    rcases transition_cases with h | ⟨b, hb, -, h⟩ <;> rw [h]
    · exact .none
    · exact .moves hb (by simp) (by simp) (by simp)
  | markNoShow =>
    simp only [apply, markNoShow]
    split
    · exact .none
    · rename_i b hb
      split
      · exact .moves hb (by simp) (by simp) (by simp)
      · exact .none
  | reschedule slot actor remedyBypass permitted now =>
    simp only [apply]
    cases h : s.reschedule slot actor remedyBypass permitted now with
    | none => exact .none
    | some s' =>
      obtain ⟨_, b', hb, hb', -, -, hstat, row, _, hhistory, hrow, -, -⟩ :=
        reschedule_eq_some h
      obtain ⟨booking, history, _⟩ := s'
      obtain rfl : booking = some b' := hb'
      obtain rfl : history = s.history ++ [row] := hhistory
      refine .moves hb (by simp [hrow]) ?_ ?_ <;>
        rcases hstat with ⟨hmem, _⟩ | ⟨-, -, _⟩ <;> simp_all [slotHoldingStatuses]
      rcases hmem with h | h <;> simp [h]

/-- What a run leaves: a hold was never cancelled, a cancelled booking names the actor of its
latest cancellation, and only the first cancellation can be that of a hold. -/
structure Traced (s : BookingStore) : Prop where
  hold : ∀ b, s.booking = some b → b.status = .pending → s.cancellations = []
  actor : ∀ b, s.booking = some b → b.status = .cancelled →
    ∃ last, s.cancellations.getLast? = some last ∧ b.cancelledByActorType = some last.actorType
  later : ∀ row ∈ s.cancellations.tail, row.fromStatus = .confirmed

theorem traced_opened (id slotId : Uuid) (slotStart : Instant) :
    Traced (opened id slotId slotStart) where
  hold _ _ _ := rfl
  actor b hb hstat := by
    cases hb
    cases hstat
  later _ h := by cases h

theorem Traced.moves {s s' : BookingStore} (h : Traced s) (hm : s.Moves s') : Traced s' := by
  cases hm with
  | none => exact h
  | @moves b b' row outbox hb hrow hpend hstat =>
    have hsame : cancellations ⟨some b', s.history ++ [row], outbox⟩ = s.cancellations := by
      simp [cancellations, hrow]
    refine ⟨fun c hc hcs => ?_, fun c hc hcs => ?_, fun r hr => h.later r (hsame ▸ hr)⟩
    · cases hc
      exact hsame.trans (h.hold b hb (hpend hcs))
    · cases hc
      exact absurd hcs hstat
  | @cancels b actor now outbox hb hstat =>
    have happend (c : Option BookingEntity) : cancellations ⟨c, s.history ++
        [⟨.cancelled, b.status, .cancelled, actor, now⟩], outbox⟩ =
        s.cancellations ++ [⟨.cancelled, b.status, .cancelled, actor, now⟩] := by
      simp [cancellations]
    refine ⟨fun c hc hcs => ?_, fun c hc _ => ?_, fun r hr => ?_⟩
    · cases hc
      cases hcs
    · cases hc
      exact ⟨⟨.cancelled, b.status, .cancelled, actor, now⟩, by simp [happend], rfl⟩
    · rw [happend] at hr
      cases hs : s.cancellations with
      | nil => simp [hs] at hr
      | cons =>
        -- a booking cancelled before is no hold any more
        have hconf : b.status = .confirmed :=
          hstat.resolve_left fun hp => by simp [h.hold b hb hp] at hs
        rw [hs, List.cons_append, List.tail_cons, List.mem_append, List.mem_singleton] at hr
        rcases hr with hr | rfl
        · exact h.later r (by simpa [hs] using hr)
        · exact hconf

theorem traced_run (id slotId : Uuid) (slotStart : Instant) (ops : List BookingOp) :
    Traced (ops.foldl BookingOp.apply (opened id slotId slotStart)) :=
  List.foldlRecOn ops apply (traced_opened id slotId slotStart)
    fun s h op _ => h.moves (s.moves_apply op)

/-- The facts read of a cancelled booking take the status and the instant of the first
cancellation and the actor of the latest. -/
theorem Traced.cancellationFacts_eq {s : BookingStore} (h : Traced s) (cutoffHours : Option ℤ)
    {b : BookingEntity} (hb : s.booking = some b) (hstat : b.status = .cancelled) :
    ∃ first last, s.cancellations.head? = some first ∧ s.cancellations.getLast? = some last ∧
      s.cancellationFacts cutoffHours =
        some ({ first with actorType := last.actorType }.facts b cutoffHours) := by
  obtain ⟨last, hlast, hactor⟩ := h.actor b hb hstat
  cases hs : s.cancellations with
  | nil => simp [hs] at hlast
  | cons first =>
    have hfind : s.history.find? (fun h => h.event = .cancelled) = some first := by
      rw [← List.head?_filter]
      exact congrArg List.head? hs
    refine ⟨first, last, rfl, hs ▸ hlast, ?_⟩
    simp [cancellationFacts, hb, hfind, hstat, hactor, BookingHistoryEntity.facts]

theorem Traced.tells_iff {s : BookingStore} (h : Traced s) (cutoffHours : Option ℤ) :
    TellsLatest cutoffHours s ↔ OnceOrAlike s := by
  refine forall₃_congr fun b hb hstat => ?_
  obtain ⟨first, last, hfirst, hlast, hfacts⟩ := h.cancellationFacts_eq cutoffHours hb hstat
  rw [hlast, hfacts]
  cases hs : s.cancellations with
  | nil => simp [hs] at hfirst
  | cons head rest =>
    obtain rfl : head = first := by simpa [hs] using hfirst
    cases rest with
    | nil =>
      obtain rfl : head = last := by simpa [hs] using hlast
      simp
    | cons =>
      -- the latest is a later one, so it cancelled a confirmed booking
      have hconf : last.fromStatus = .confirmed :=
        h.later last (by
          rw [hs] at hlast ⊢
          exact List.mem_of_getLast? (by simpa using hlast))
      constructor
      · rintro ⟨latest, hlatest, heq⟩
        cases hlatest
        simp only [BookingHistoryEntity.facts, Option.some.injEq,
          BookingCancellationFacts.mk.injEq, decide_eq_decide] at heq
        exact Or.inr ⟨head, last, rfl, rfl, heq.2.1.2 hconf, heq.2.2.1⟩
      · rintro (hone | ⟨_, _, hfirst', hlatest, hfrom, hinstant⟩)
        · simp at hone
        · cases hfirst'
          cases hlatest
          exact ⟨last, rfl, by simp [BookingHistoryEntity.facts, hfrom, hconf, hinstant]⟩

end BookingStore

/-- In every history of a booking, the facts read are those of its latest cancellation exactly
when it was cancelled once or in the same way and instant as at first. -/
theorem tellsLatest_iff (id slotId : Uuid) (slotStart : Instant) (ops : List BookingOp)
    (cutoffHours : Option ℤ) :
    TellsLatest cutoffHours (ops.foldl BookingOp.apply (.opened id slotId slotStart)) ↔
      OnceOrAlike (ops.foldl BookingOp.apply (.opened id slotId slotStart)) :=
  (BookingStore.traced_run id slotId slotStart ops).tells_iff cutoffHours

/-- A professional cancels early, a remedy revives the booking in a slot of the next hour, and
the customer cancels there on the eve: the facts call that timely. -/
theorem tellsLatest_revived_fails :
    ¬ TellsLatest (some 24) ([.confirm .system 0, .cancel .professional 1,
      .reschedule (some ⟨2, 176400000⟩) .customer true true 2,
      .cancel .customer 172800000].foldl BookingOp.apply (.opened 0 1 172800000)) := by
  intro h
  obtain ⟨last, hlast, heq⟩ := h _ rfl rfl
  obtain rfl : _ = last := Option.some.inj hlast
  exact absurd (congrArg (Option.map (·.timely)) heq) (by decide)

end BeauClick.Booking
