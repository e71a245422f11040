import BeauClick.Outcome.Cancellation

/-!
# A cancellation strands no money

What the refunds of a booking that somebody other than its customer cancelled add up to, once
every `BookingCancelled` is consumed and no refund is in flight.
-/

namespace BeauClick.Outcome

open Money Table Runs Commerce Payment Booking CommercialPolicy

namespace OutcomeSystem

/-! ## The property and the condition -/

/-- The refunds of the order that have not failed. -/
def refundedToman (s : OutcomeSystem) (orderId : Uuid) : ℤ :=
  sumWhere (fun r => r.orderId = orderId ∧ r.status ≠ .failed) (·.amountToman)
    s.store.payment.refunds

/-- What the live decision retains under an applied cap. -/
def retainedToman (s : OutcomeSystem) : ℤ :=
  match s.store.decision with
  | some d => if d.basis = .capApplied then d.retainedToman else 0
  | none => 0

/-- Every cancellation is consumed, and no refund is in flight. -/
structure Quiet (s : OutcomeSystem) : Prop where
  handled : ¬s.Unhandled
  refunds : ∀ r ∈ s.store.payment.refunds, r.status ≠ .pending

/-- Nothing is stranded: refunded and retained together are what was collected. -/
def Unstranded (s : OutcomeSystem) : Prop :=
  s.CancelledByOther → s.Quiet → ∀ o, s.store.order.order = some o →
    s.refundedToman o.id + s.retainedToman = o.collectedTotalToman

/-- **The condition.**  A handler that finds a reschedule does not find the booking cancelled
again without a refund, and the gateway refuses no refund. -/
def GivesBack (s : OutcomeSystem) (e : OutcomeStep) : Prop :=
  e.refuses = false ∧
    match e with
    | .readResolution _ => s.store.rescheduled = true → s.CancelledByOther → s.Refunded
    | _ => True

instance (s : OutcomeSystem) : DecidablePred s.GivesBack := fun e =>
  match e with
  | .readResolution _ => inferInstanceAs (Decidable (_ ∧ (_ → _ → _)))
  | .cancel .. | .reschedule .. | .deliver .. | .decide .. | .executeDecision .. | .refunded ..
  | .recordExecution _ | .projectRefund .. | .resolve .. | .commitRemedy .. | .die _
  | .dieResolver _ => inferInstanceAs (Decidable (_ ∧ True))

/-! ## The invariant -/

/-- The invariant: once somebody else has cancelled, there is a refund or an event to consume. -/
structure GivingBack (s : OutcomeSystem) : Prop where
  ledger : ∃ o b, s.Ledger o b
  noneFailed : s.NoneFailed
  due : s.CancelledByOther → s.store.payment.refunds ≠ [] ∨ s.Unhandled

variable {s s' t : OutcomeSystem} {e : OutcomeStep} {o : OrderEntity} {b : BookingEntity}

theorem Start.givingBack (h : Start s) : GivingBack s where
  ledger := h.ledger
  noneFailed := h.noneFailed
  due := by
    rintro ⟨_, hb, hcanc, -⟩
    obtain ⟨-, _, -, hb', -, -, -, -, hholds⟩ := h.order
    cases hb.symm.trans hb'
    rw [hcanc] at hholds
    simp [slotHoldingStatuses] at hholds

theorem GivingBack.due_step (h : GivingBack s) (hgood : s.GivesBack e)
    (hled : s'.Ledger o b) (heff : Effect s e s') (hother : s'.CancelledByOther) :
    s'.store.payment.refunds ≠ [] ∨ s'.Unhandled := by
  rcases heff.cancelled hother with hbef | hunhandled
  · rcases h.due hbef with hne | hunhandled
    · exact Or.inl (heff.refunds hne)
    · rcases heff.unhandled hunhandled with hunhandled' | hne | ⟨_, hd, _⟩ |
        ⟨⟨pid, rfl⟩, hresched, hstore⟩
      · exact Or.inr hunhandled'
      · exact Or.inl hne
      · -- the decision is to refund what was collected, which is positive
        exfalso
        have hrefund := (hled.decided_other hother hd).1
        have hpos := hled.rows.collected
        omega
      · obtain ⟨-, -, -, -, _, hr, -⟩ := hgood.2 hresched hbef
        rw [hstore]
        exact Or.inl (List.ne_nil_of_mem hr)
  · exact Or.inr hunhandled

theorem givingBack_step (h : GivingBack s) (hgood : s.GivesBack e) (hs : s.step e = some s') :
    GivingBack s' := by
  obtain ⟨_, _, hled⟩ := h.ledger
  obtain ⟨⟨o', b', hled'⟩, heff⟩ := ledger_step hled hs
  exact ⟨⟨o', b', hled'⟩, heff.writes.noneFailed h.noneFailed hgood.1,
    h.due_step hgood hled' heff⟩

theorem GivingBack.unstranded (h : GivingBack s) : s.Unstranded := by
  intro hother hquiet o ho
  obtain ⟨_, _, hled⟩ := h.ledger
  cases hled.rows.order.symm.trans ho
  have hne : s.store.payment.refunds ≠ [] := (h.due hother).resolve_right hquiet.handled
  cases hdec : s.store.decision with
  | none => exact absurd (hled.rows.undecided hdec).refunds hne
  | some d =>
    obtain ⟨hrefund, hbasis⟩ := hled.decided_other hother hdec
    obtain ⟨r, hr, hord, -, hamt⟩ :=
      (hled.rows.decided d hdec).refunds.resolve_left hne
    have hlive : r.status ≠ .failed := h.noneFailed r (by rw [hr]; exact List.mem_cons_self)
    have hrefd : s.refundedToman o.id = r.amountToman := by
      rw [refundedToman, hr]
      simp [hord, hlive]
    have hretained : s.retainedToman = 0 := by
      simp [retainedToman, hdec, hbasis]
    rw [hrefd, hretained, hamt, hrefund, add_zero]

/-! ## The run -/

/-- In a run whose steps meet the condition, a cancellation that was not the customer's strands
no money. -/
theorem unstranded_run {es : List OutcomeStep} (h0 : Start s)
    (hgood : Along step GivesBack s es) (hrun : runFrom step s es = some t) : t.Unstranded :=
  (runFrom_invariant_along (I := GivingBack) (fun _ _ _ h hg hs => givingBack_step h hg hs)
    h0.givingBack hgood hrun).unstranded

/-- The seller cancels again. -/
def sellerCancelsAgain : List OutcomeStep :=
  [.cancel .professional 40, .deliver 1 2, .decide 1 13 .absent 41, .readResolution 1]

theorem unstranded_run_manualRefund :
    ∃ t, runFrom step paidBooking (sellerCancels ++ [.readResolution 0, .executeDecision 0 9,
        .refunded 0 .noRefundApi 25, .recordExecution 0] ++ customerReschedules ++
        sellerCancelsAgain) = some t ∧ t.Unstranded := by
  have hrun : (runFrom step paidBooking (sellerCancels ++ [.readResolution 0,
      .executeDecision 0 9, .refunded 0 .noRefundApi 25, .recordExecution 0] ++
      customerReschedules ++ sellerCancelsAgain)).isSome = true := by
    decide +kernel
  obtain ⟨t, ht⟩ := Option.isSome_iff_exists.1 hrun
  exact ⟨t, ht, unstranded_run paidBooking_start (by decide +kernel) ht⟩

/-- The first handler is skipped for the reschedule and so is the second: the customer has
neither the booking nor the money. -/
theorem unstranded_secondCancellation_fails :
    Start paidBooking ∧ ∃ t, runFrom step paidBooking (sellerCancels ++ customerReschedules ++
      [.readResolution 0] ++ sellerCancelsAgain) = some t ∧ ¬t.Unstranded := by
  obtain ⟨t, ht, hother, hrefs, hhandled, hout, ⟨d, hd, hd'⟩, o, ho, hamt⟩ :
      ∃ t ∈ runFrom step paidBooking (sellerCancels ++ customerReschedules ++
        [.readResolution 0] ++ sellerCancelsAgain),
        t.CancelledByOther ∧ t.store.payment.refunds = [] ∧ t.handled = [2, 0] ∧
        t.store.booking.outbox = [.bookingCancelled 2 .confirmed .professional,
          .bookingRescheduled 2 6 12 1, .bookingCancelled 2 .confirmed .professional] ∧
        (∃ d ∈ t.store.decision, d.basis = .legacyUnenrolled) ∧
        ∃ o ∈ t.store.order.order, o.collectedTotalToman = 500 := by
    decide +kernel
  refine ⟨paidBooking_start, t, ht, fun hunstranded => ?_⟩
  have hquiet : t.Quiet := by
    refine ⟨?_, by rw [hrefs]; simp⟩
    rintro ⟨event, hev, _, _, _, hget⟩
    rw [hout] at hget
    rw [hhandled] at hev
    rcases event with _ | _ | _ | event
    · simp at hev
    · simp at hget
    · simp at hev
    · simp at hget
  have hsum := hunstranded hother hquiet o ho
  rw [refundedToman, hrefs, retainedToman, hd, hamt] at hsum
  simp [hd'] at hsum

end OutcomeSystem

end BeauClick.Outcome
