import BeauClick.Outcome.Cancellation

/-!
# The remedy and the refund exclude each other

The handler reads the choice and refunds later; `resolve` reads how the decision ended and
moves the booking later.  Neither takes the other's lock.
-/

namespace BeauClick.Outcome

open Money Table Runs Commerce Payment Booking CommercialPolicy

namespace OutcomeSystem

/-! ## The property and the condition -/

/-- The customer does not have both, and has one of them once the cancellation is consumed. -/
structure RemedyExclusion (s : OutcomeSystem) : Prop where
  exclusive : ¬(s.store.rescheduled = true ∧ s.Refunded)
  settled : ∀ d, s.store.decision = some d → 0 < d.refundToman → ¬s.Unhandled →
    s.store.rescheduled = true ∨ s.Refunded

/-- **The condition.**  The remedy's move does not come after a refund, and no refund is asked
for after the move; the gateway refuses none. -/
def NeverBoth (s : OutcomeSystem) (e : OutcomeStep) : Prop :=
  e.refuses = false ∧
    match e with
    | .commitRemedy _ startAt _ => startAt ≠ none → ¬s.Refunded
    | .executeDecision pid _ => (s.deliveries pid).asks = true → s.store.rescheduled = false
    | _ => True

instance (s : OutcomeSystem) : DecidablePred s.NeverBoth := fun e =>
  match e with
  | .commitRemedy .. => inferInstanceAs (Decidable (_ ∧ (_ → ¬_)))
  | .executeDecision .. => inferInstanceAs (Decidable (_ ∧ (_ → _)))
  | .cancel .. | .reschedule .. | .deliver .. | .decide .. | .readResolution _ | .refunded ..
  | .recordExecution _ | .projectRefund .. | .resolve .. | .die _ | .dieResolver _ =>
    inferInstanceAs (Decidable (_ ∧ True))

/-! ## The invariant -/

/-- The invariant: a reschedule goes with no refund, and what is to be refunded has one of
them or an event to consume. -/
structure Excluding (s : OutcomeSystem) : Prop where
  ledger : ∃ o b, s.Ledger o b
  noneFailed : s.NoneFailed
  apart : s.store.rescheduled = true → s.store.payment.refunds = []
  due : ∀ d, s.store.decision = some d → 0 < d.refundToman →
    s.store.rescheduled = true ∨ s.store.payment.refunds ≠ [] ∨ s.Unhandled

variable {s s' t : OutcomeSystem} {e : OutcomeStep}

theorem Start.excluding (h : Start s) : Excluding s where
  ledger := h.ledger
  noneFailed := h.noneFailed
  apart _ := h.refunds
  due d hd := by
    rw [h.decision] at hd
    cases hd

section

variable (h : Excluding s)
include h

theorem Excluding.apart_step (hgood : s.NeverBoth e) (hw : Writes s e s')
    (hresched : s'.store.rescheduled = true) : s'.store.payment.refunds = [] := by
  cases hw with
  | neither hrefs hremedy => rw [hrefs, h.apart (hremedy hresched)]
  | reschedules pid startAt now he hrefs =>
    subst he
    obtain ⟨_, _, hled⟩ := h.ledger
    rw [hrefs]
    by_contra hne
    exact hgood.2 (by simp) ((hled.refunded_iff h.noneFailed).2 hne)
  | asks pid refundId r he hasks _ _ hremedy =>
    -- the refund that is asked for now would come after the move
    subst he
    rw [hremedy, hgood.2 hasks] at hresched
    cases hresched
  | answers pid answer now refundId ref code he hrefs hremedy =>
    rw [hrefs, h.apart (by rw [← hremedy]; exact hresched)]
    rfl

theorem Excluding.due_step (heff : Effect s e s')
    {d : BookingOutcomeDecision} (hd : s'.store.decision = some d) (hpos : 0 < d.refundToman) :
    s'.store.rescheduled = true ∨ s'.store.payment.refunds ≠ [] ∨ s'.Unhandled := by
  rcases heff.decision d hd with hunhandled | ⟨d₀, hd₀, hsame⟩
  · exact Or.inr (Or.inr hunhandled)
  · rcases h.due d₀ hd₀ (by rw [hsame]; exact hpos) with hresched | hne | hunhandled
    · exact Or.inl (heff.rescheduled hresched)
    · exact Or.inr (Or.inl (heff.refunds hne))
    · rcases heff.unhandled hunhandled with hunhandled' | hne | ⟨_, hd', _⟩ |
        ⟨-, hresched, -⟩
      · exact Or.inr (Or.inr hunhandled')
      · exact Or.inr (Or.inl hne)
      · cases hd.symm.trans hd'
        omega
      · exact Or.inl (heff.rescheduled hresched)

theorem excluding_step (hgood : s.NeverBoth e) (hs : s.step e = some s') :
    Excluding s' := by
  obtain ⟨_, _, hled⟩ := h.ledger
  obtain ⟨hled', heff⟩ := ledger_step hled hs
  exact ⟨hled', heff.writes.noneFailed h.noneFailed hgood.1, h.apart_step hgood heff.writes,
    fun d hd hpos => h.due_step heff hd hpos⟩

theorem Excluding.remedyExclusion : s.RemedyExclusion := by
  obtain ⟨_, _, hled⟩ := h.ledger
  have hrefd := hled.refunded_iff h.noneFailed
  constructor
  · rintro ⟨hresched, hboth⟩
    exact hrefd.1 hboth (h.apart hresched)
  · intro d hd hpos hhandled
    rcases h.due d hd hpos with hresched | hne | hunhandled
    · exact Or.inl hresched
    · exact Or.inr (hrefd.2 hne)
    · exact absurd hunhandled hhandled

end

/-! ## The run -/

/-- The handler asks for the refund it read the choice for, and the gateway pays it. -/
def handlerRefunds : List OutcomeStep :=
  [.executeDecision 0 9, .refunded 0 (.answered true (some "refund") none) 35, .recordExecution 0]

end OutcomeSystem

end BeauClick.Outcome
