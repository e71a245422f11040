import BeauClick.Events.Facts
import BeauClick.Lib.Delivery

/-!
# Which published facts recur

A consumer that keys what it writes by the entity takes two events for one when the fact occurs
again for the entity.
-/

namespace BeauClick.Events

open Booking Commerce Runs List

/-- What an event is an occurrence of. -/
inductive Occurrence where
  | fact (bookingId : Uuid) (type : BookingFactType)
  | capture (orderId : Uuid)
  | event (eventId : Uuid)

/-- What a published event is an occurrence of. -/
def OutboxRow.occurrence (x : OutboxRow) : Occurrence :=
  match x.event with
  | .booking fact => .fact fact.bookingId fact.kind.type
  | .order event => if event.isCapture then .capture (orderIdOf event) else .event x.id
  | .tierChanged .. => .event x.id
  | .membershipActivated .. => .event x.id

theorem of_isFact {event : DomainEvent} {id : Uuid} {type : BookingFactType}
    (h : event.isFact id type = true) :
    ∃ fact, event = .booking fact ∧ fact.bookingId = id ∧ fact.kind.type = type := by
  cases event with
  | booking fact =>
    obtain ⟨hid, htype⟩ := of_decide_eq_true h
    exact ⟨fact, rfl, hid, htype⟩
  | _ => cases h

section Occurrence

variable {x : OutboxRow} {id : Uuid}

theorem isFact_of_occurrence {type : BookingFactType} (h : x.occurrence = .fact id type) :
    x.event.isFact id type = true := by
  obtain ⟨_, event, _⟩ := x
  cases event with
  | booking =>
    cases h
    exact decide_eq_true ⟨rfl, rfl⟩
  | order =>
    dsimp only [OutboxRow.occurrence] at h
    split at h <;> cases h
  | _ => cases h

theorem isCaptureOf_of_occurrence (h : x.occurrence = .capture id) :
    x.event.isCaptureOf id = true := by
  obtain ⟨_, event, _⟩ := x
  cases event with
  | order =>
    dsimp only [OutboxRow.occurrence] at h
    split at h
    · rename_i hcap
      cases h
      exact decide_eq_true ⟨hcap, rfl⟩
    · cases h
  | _ => cases h

theorem id_of_occurrence (h : x.occurrence = .event id) : x.id = id := by
  obtain ⟨_, event, _⟩ := x
  cases event with
  | order =>
    dsimp only [OutboxRow.occurrence] at h
    split at h <;> cases h
    rfl
  | _ => cases h <;> rfl

end Occurrence

namespace Platform

variable {s : Platform} {op : PlatformOp} {event : DomainEvent}

/-- **The condition.**  A fact of one of these types is the first of its type that is published
about its booking. -/
def FirstOfItsKind (types : List BookingFactType) (s : Platform) (op : PlatformOp) : Prop :=
  match op.call with
  | .booking id bookingOp =>
    match BookingRow.apply op.now (s.bookings id) bookingOp with
    | some (_, some kind) => kind.type ∈ types → ¬s.HasFact id kind.type
    | _ => True
  | _ => True

theorem firstOfItsKind_iff {types : List BookingFactType} :
    FirstOfItsKind types s op ↔ ∀ fact, Emits s op (.booking fact) → fact.kind.type ∈ types →
      ¬s.HasFact fact.bookingId fact.kind.type := by
  constructor
  · intro h fact hemits
    cases hemits with
    | booking hb hop =>
      rw [FirstOfItsKind] at h
      dsimp only at h
      rw [hb, hop] at h
      exact h
  · intro h
    rw [FirstOfItsKind]
    split
    · rename_i id bookingOp hcall
      split
      · rename_i b' kind hop
        obtain ⟨_, _⟩ := op
        cases hcall
        cases hb : s.bookings id with
        | none =>
          rw [hb] at hop
          cases bookingOp <;> cases hop
        | some =>
          rw [hb] at hop
          exact h _ (.booking hb hop)
      · trivial
    · trivial

/-! ## Only cancellations and reschedules recur -/

theorem Lawful.fact_recurs (hs : Lawful s) {fact : BookingFact} (h : Emits s op (.booking fact))
    (hbef : s.HasFact fact.bookingId fact.kind.type) :
    fact.kind.type = .cancelled ∨ fact.kind.type = .rescheduled := by
  cases h with
  | booking hb hop =>
    have hmoves := (BookingRow.moves_of_apply hop).2.2
    generalize hfact : some _ = published at hmoves
    cases hmoves with
    | confirm hfrom =>
      cases hfact
      obtain ⟨b, hb', hne⟩ := hs.confirmed _ hbef
      cases hb.symm.trans hb'
      exact absurd hfrom hne
    | cancel =>
      cases hfact
      exact Or.inl rfl
    | complete hfrom =>
      cases hfact
      obtain ⟨b, hb', hstat⟩ := hs.completed _ hbef
      cases hb.symm.trans hb'
      cases hfrom.symm.trans hstat
    | expire hfrom =>
      cases hfact
      obtain ⟨b, hb', hne⟩ := hs.expired _ hbef
      cases hb.symm.trans hb'
      exact absurd hfrom hne
    | declare hfrom hto hdeclared =>
      split at hdeclared
      · cases hfact.trans hdeclared
        obtain ⟨_, hb', hstat⟩ := hs.declared _ hbef
        cases hb.symm.trans hb'
        cases hfrom.symm.trans hstat
      · cases hfact.trans hdeclared
    | move =>
      cases hfact
      exact Or.inr rfl

theorem Lawful.capture_new (hs : Lawful s) {event : CommerceEvent}
    (h : Emits s op (.order event)) (hcap : event.isCapture = true) :
    ¬s.HasCapture (orderIdOf event) := by
  cases h with
  | @order id orderOp now row event hrow hid hop =>
    intro hbef
    cases hs.stored id with
    | missing hord => cases hord.symm.trans hrow
    | there hinv hown =>
      rw [hid, hown row hrow] at hbef
      have hcnt := hs.captured id hbef
      obtain ⟨_, _, -, -, hmoney⟩ := storeInv_apply orderOp hinv
      have hone := hmoney.moneyState.published
      rw [hop, captureCount_append] at hone
      have hnew : captureCount [event] = 1 := by simp [captureCount, hcap]
      omega

theorem Lawful.recurs (hs : Lawful s) (h : Emits s op event) {x : OutboxRow} (hx : x ∈ s.outbox)
    (hsame : x.occurrence = OutboxRow.occurrence ⟨s.outbox.length, event, op.now⟩) :
    ∃ fact, event = .booking fact ∧ s.HasFact fact.bookingId fact.kind.type ∧
      (fact.kind.type = .cancelled ∨ fact.kind.type = .rescheduled) := by
  have hold : x.occurrence ≠ .event s.outbox.length := by
    intro hocc
    exact hs.id_ne hx (id_of_occurrence hocc)
  cases event with
  | booking fact =>
    have hbef : s.HasFact fact.bookingId fact.kind.type := ⟨x, hx, isFact_of_occurrence hsame⟩
    exact ⟨fact, rfl, hbef, hs.fact_recurs h hbef⟩
  | order event =>
    by_cases hcap : event.isCapture = true
    · refine absurd ⟨x, hx, ?_⟩ (hs.capture_new h hcap)
      refine isCaptureOf_of_occurrence (hsame.trans ?_)
      exact if_pos hcap
    · exact absurd (hsame.trans (if_neg hcap)) hold
  | tierChanged | membershipActivated => exact absurd hsame hold

end Platform

/-! ## Consumers -/

/-- What two events that a consumer takes for one have in common: they are occurrences of one
thing; and it does take two facts about a booking for one, when they are of one of `types`. -/
structure KeyedBy (types : List BookingFactType) (Clash : OutboxRow → OutboxRow → Prop) : Prop where
  symm : ∀ x y, Clash x y → Clash y x
  occurrence : ∀ x y, Clash x y → x.occurrence = y.occurrence
  recurring : ∀ x y fact, Clash x y → y.event = .booking fact →
    fact.kind.type = .cancelled ∨ fact.kind.type = .rescheduled → fact.kind.type ∈ types
  clash : ∀ x y fact fact', x.event = .booking fact → y.event = .booking fact' →
    fact.bookingId = fact'.bookingId → fact.customerId = fact'.customerId →
    fact.kind.type = fact'.kind.type → fact'.kind.type ∈ types → Clash x y

/-- A consumer takes no two published events for one. -/
def Distinct (Clash : OutboxRow → OutboxRow → Prop) (s : Platform) : Prop :=
  ∀ x ∈ s.outbox, ∀ y ∈ s.outbox, Clash x y → x = y

namespace Platform

variable {s : Platform} {op : PlatformOp} {event : DomainEvent} {types : List BookingFactType}
  {Clash : OutboxRow → OutboxRow → Prop}

section

variable (hk : KeyedBy types Clash)
include hk

theorem no_clash_of_first (hs : Lawful s) (h : Emits s op event)
    (hfirst : FirstOfItsKind types s op) {x : OutboxRow} (hx : x ∈ s.outbox) :
    ¬Clash x ⟨s.outbox.length, event, op.now⟩ := by
  intro hclash
  obtain ⟨fact, rfl, hbef, hkind⟩ := hs.recurs h hx (hk.occurrence _ _ hclash)
  have htypes := hk.recurring _ _ fact hclash rfl hkind
  exact firstOfItsKind_iff.1 hfirst fact h htypes hbef

theorem first_of_no_clash (hs : Lawful s) {fact : BookingFact}
    (h : Emits s op (.booking fact)) (htypes : fact.kind.type ∈ types)
    (hnew : ∀ x ∈ s.outbox, ¬Clash x ⟨s.outbox.length, .booking fact, op.now⟩) :
    ¬s.HasFact fact.bookingId fact.kind.type := by
  rintro ⟨x, hx, hfact⟩
  obtain ⟨fact', hev, hid, htype⟩ := of_isFact hfact
  refine hnew x hx (hk.clash _ _ fact' fact hev rfl hid ?_ htype htypes)
  -- both events name the booking's customer
  obtain ⟨_, hb, hcust⟩ := hs.parties x hx fact' hev
  cases h with
  | @booking id bookingOp now b₀ b' kind hb₀ hop =>
    rw [hid] at hb
    cases hb₀.symm.trans hb
    exact hcust.symm.trans (BookingRow.moves_of_apply hop).2.1.symm

theorem distinct_append {s' : Platform} {y : OutboxRow} (h : s'.outbox = s.outbox ++ [y]) :
    Distinct Clash s' ↔ Distinct Clash s ∧ ∀ x ∈ s.outbox, Clash x y → x = y := by
  rw [Distinct, h]
  constructor
  · intro hall
    have hlast : y ∈ s.outbox ++ [y] := mem_append_right _ (mem_singleton_self y)
    exact ⟨fun x hx z hz => hall x (mem_append_left _ hx) z (mem_append_left _ hz),
      fun x hx => hall x (mem_append_left _ hx) y hlast⟩
  · rintro ⟨hbef, hnew⟩ x hx z hz hclash
    rcases mem_append.1 hx with hx | hx <;> rcases mem_append.1 hz with hz | hz
    · exact hbef x hx z hz hclash
    · rw [mem_singleton.1 hz] at hclash ⊢
      exact hnew x hx hclash
    · rw [mem_singleton.1 hx] at hclash ⊢
      exact (hnew z hz (hk.symm _ _ hclash)).symm
    · rw [mem_singleton.1 hx, mem_singleton.1 hz]

theorem distinct_apply_iff (hs : Lawful s) (hd : Distinct Clash s)
    (op : PlatformOp) : Distinct Clash (s.apply op) ↔ FirstOfItsKind types s op := by
  rcases apply_cases s op with hquiet | ⟨event, hemits, hout⟩
  · have hkeeps : Distinct Clash (s.apply op) := by
      rw [Distinct, hquiet]
      exact hd
    refine ⟨fun _ => firstOfItsKind_iff.2 fun fact h => ?_, fun _ => hkeeps⟩
    have hlen := congrArg List.length (outbox_of_emits h)
    rw [hquiet, length_append, length_singleton] at hlen
    omega
  · rw [distinct_append hk hout, and_iff_right hd]
    have hne : ∀ x ∈ s.outbox, x ≠ ⟨s.outbox.length, event, op.now⟩ :=
      fun x hx h => hs.id_ne hx (congrArg OutboxRow.id h)
    constructor
    · intro h
      refine firstOfItsKind_iff.2 fun fact hfact htypes => ?_
      have hsame : event = .booking fact := by
        have hall := hout.symm.trans (outbox_of_emits hfact)
        exact congrArg OutboxRow.event (head_eq_of_cons_eq (append_cancel_left hall))
      subst hsame
      exact first_of_no_clash hk hs hfact htypes fun x hx hclash => hne x hx (h x hx hclash)
    · intro hfirst x hx hclash
      exact absurd hclash (no_clash_of_first hk hs hemits hfirst hx)

/-- In a run, no two events are taken for one exactly when every fact of these types is the first
of its kind. -/
theorem throughout_iff_first {P : Platform → Prop}
    (hP : ∀ s, Lawful s → (P s ↔ Distinct Clash s)) (ops : List PlatformOp) :
    Throughout step P start ops ↔ Along step (FirstOfItsKind types) start ops := by
  refine throughout_iff_along (I := fun s => Lawful s ∧ Distinct Clash s) ?_ ?_ ?_ ?_ ?_ ops
  · rintro s ⟨hs, hd⟩
    exact (hP s hs).2 hd
  · rintro s op s' ⟨hs, hd⟩ hfirst hstep
    cases hstep
    exact ⟨lawful_apply hs op, (distinct_apply_iff hk hs hd op).2 hfirst⟩
  · rintro s op s' ⟨hs, hd⟩ hstep hafter
    cases hstep
    exact (distinct_apply_iff hk hs hd op).1 ((hP _ (lawful_apply hs op)).1 hafter)
  · intro s op _ hstep
    cases hstep
  · refine ⟨lawful_start, ?_⟩
    intro x hx
    cases hx

end

end Platform

end BeauClick.Events
