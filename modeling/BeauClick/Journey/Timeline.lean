import BeauClick.Events.Occurrences

/-!
# The customer's timeline

`loyalty-journey.handlers.ts` writes one timeline entry of each event about a customer, and
`appendTimeline` in `journey.service.ts` lets the unique index on the customer, the entry type and
the source drop the others.
-/

namespace BeauClick.Journey

open Booking Commerce Events Runs Delivery

/-! ## Entries -/

/-- The kinds of an entry. -/
inductive EntryType where
  | bookingConfirmed
  | bookingCompleted
  | bookingCancelled
  | orderPaid
  | loyaltyTierChanged
  | membershipActivated
  deriving DecidableEq

/-- What an entry is drawn from. -/
inductive SourceType where
  | booking
  | order
  | loyaltyAccount
  | membership
  deriving DecidableEq

/-- What a timeline's uniqueness is measured against. -/
inductive DedupeBy where
  | entity
  | event

/-- The fields that an `extract` carries into `metadata`. -/
inductive Metadata where
  | confirmed (professionalId : Uuid)
  | completed (professionalId : Uuid) (serviceId : Option Uuid)
  | cancelled (professionalId : Uuid) (actorType : BookingActorType)
  | paid (totalToman : ℤ) (sourceType : OrderSourceType)
  | tier (toTier fromTier : Option String)
  | membership (planSlug source : String)

/-- A row of `journey.timeline_entries`; `entityId` is the field of the metadata that stands beside
those of the event. -/
structure TimelineEntry where
  userId : Uuid
  entryType : EntryType
  sourceType : SourceType
  sourceId : Uuid
  metadata : Metadata
  entityId : Option Uuid
  occurredAt : Instant

/-- The columns of `uq_timeline_entries_source`. -/
def TimelineEntry.key (entry : TimelineEntry) : Uuid × EntryType × SourceType × Uuid :=
  (entry.userId, entry.entryType, entry.sourceType, entry.sourceId)

/-! ## Handlers -/

/-- What an `extract` reads off a payload. -/
structure Extracted where
  userId : Option Uuid
  sourceId : Option Uuid
  metadata : Metadata
  occurredAt : Option Instant

/-- `TimelineHandler.handle`: the entry it appends, if the fact is about somebody. -/
def TimelineHandler.handle (entryType : EntryType) (sourceType : SourceType) (dedupeBy : DedupeBy)
    (extracted : Extracted) (envelope : OutboxRow) : Option TimelineEntry :=
  match extracted.userId, extracted.sourceId with
  | some userId, some sourceId =>
    some {
      userId := userId
      entryType := entryType
      sourceType := sourceType
      sourceId :=
        match dedupeBy with
        | .event => envelope.id
        | .entity => sourceId
      metadata := extracted.metadata
      entityId :=
        match dedupeBy with
        | .event => some sourceId
        | .entity => none
      occurredAt := extracted.occurredAt.getD envelope.occurredAt }
  | _, _ => none

/-- `buildTimelineHandlers`: the entry of an event, or `none` where no handler is registered. -/
def entryOf (envelope : OutboxRow) : Option TimelineEntry :=
  match envelope.event with
  | .booking fact =>
    match fact.kind with
    | .confirmed confirmedAt =>
      TimelineHandler.handle .bookingConfirmed .booking .entity
        ⟨some fact.customerId, some fact.bookingId, .confirmed fact.professionalId,
          some confirmedAt⟩ envelope
    | .completed serviceId completedAt =>
      TimelineHandler.handle .bookingCompleted .booking .entity
        ⟨some fact.customerId, some fact.bookingId, .completed fact.professionalId serviceId,
          some completedAt⟩ envelope
    | .cancelled _ _ cancelledAt actorType _ _ =>
      TimelineHandler.handle .bookingCancelled .booking .entity
        ⟨some fact.customerId, some fact.bookingId, .cancelled fact.professionalId actorType,
          some cancelledAt⟩ envelope
    | _ => none
  | .order (.orderPaid orderId sourceType _ customerId _ _ totalToman paidAt) =>
    TimelineHandler.handle .orderPaid .order .entity
      ⟨some customerId, some orderId, .paid totalToman sourceType, some paidAt⟩ envelope
  | .order _ => none
  | .tierChanged userId fromTierSlug toTierSlug changedAt =>
    TimelineHandler.handle .loyaltyTierChanged .loyaltyAccount .event
      ⟨some userId, some userId, .tier toTierSlug fromTierSlug, some changedAt⟩ envelope
  | .membershipActivated membershipId userId planSlug source activatedAt =>
    TimelineHandler.handle .membershipActivated .membership .event
      ⟨some userId, some membershipId, .membership planSlug source, some activatedAt⟩ envelope

/-- The timeline after deliveries: each appends through `appendTimeline`. -/
def timelineOf (deliveries : List OutboxRow) : List TimelineEntry :=
  receiveAll TimelineEntry.key entryOf deliveries

/-! ## What the timeline is for -/

/-- What happened to a customer, when, and with what. -/
structure TimelineFact where
  entryType : EntryType
  metadata : Metadata
  occurredAt : Instant

/-- The fact that an entry states. -/
def TimelineEntry.fact (entry : TimelineEntry) : TimelineFact :=
  ⟨entry.entryType, entry.metadata, entry.occurredAt⟩

/-- The customer an event is about, and what it says happened to them. -/
def ownFact : DomainEvent → Option (Uuid × TimelineFact)
  | .booking ⟨_, professionalId, customerId, .confirmed confirmedAt⟩ =>
    some (customerId, ⟨.bookingConfirmed, .confirmed professionalId, confirmedAt⟩)
  | .booking ⟨_, professionalId, customerId, .completed serviceId completedAt⟩ =>
    some (customerId, ⟨.bookingCompleted, .completed professionalId serviceId, completedAt⟩)
  | .booking ⟨_, professionalId, customerId, .cancelled _ _ cancelledAt actorType _ _⟩ =>
    some (customerId, ⟨.bookingCancelled, .cancelled professionalId actorType, cancelledAt⟩)
  | .order (.orderPaid _ sourceType _ customerId _ _ totalToman paidAt) =>
    some (customerId, ⟨.orderPaid, .paid totalToman sourceType, paidAt⟩)
  | .tierChanged userId fromTierSlug toTierSlug changedAt =>
    some (userId, ⟨.loyaltyTierChanged, .tier toTierSlug fromTierSlug, changedAt⟩)
  | .membershipActivated _ userId planSlug source activatedAt =>
    some (userId, ⟨.membershipActivated, .membership planSlug source, activatedAt⟩)
  | _ => none

/-- The facts about a customer that were published. -/
def factsAbout (customerId : Uuid) (outbox : List OutboxRow) : List TimelineFact :=
  ((outbox.filterMap fun x => ownFact x.event).filter (·.1 = customerId)).map (·.2)

/-- However the published events are delivered, each once at least, a customer's timeline states
every fact about them, once. -/
def TimelineComplete (s : Platform) : Prop :=
  ∀ deliveries : List OutboxRow, (∀ x, x ∈ deliveries ↔ x ∈ s.outbox) → ∀ customerId : Uuid,
    (((timelineOf deliveries).filter (·.userId = customerId)).map TimelineEntry.fact).Perm
      (factsAbout customerId s.outbox)

/-! ## The entry of an event -/

theorem entryOf_map (x : OutboxRow) :
    (entryOf x).map (fun entry => (entry.userId, entry.fact)) = ownFact x.event := by
  obtain ⟨_, event, _⟩ := x
  cases event with
  | booking fact =>
    obtain ⟨_, _, _, kind⟩ := fact
    cases kind <;> rfl
  | order event => cases event <;> rfl
  | tierChanged | membershipActivated => rfl

theorem entries_fact (outbox : List OutboxRow) (customerId : Uuid) :
    ((outbox.filterMap entryOf).filter (·.userId = customerId)).map TimelineEntry.fact =
      factsAbout customerId outbox := by
  have hown : (outbox.filterMap fun x => ownFact x.event) =
      (outbox.filterMap entryOf).map fun entry => (entry.userId, entry.fact) := by
    rw [List.map_filterMap]
    exact congrArg (outbox.filterMap ·) (funext fun x => (entryOf_map x).symm)
  rw [factsAbout, hown, List.filter_map, List.map_map]
  rfl

/-- Two events of one key. -/
def SameKey (x y : OutboxRow) : Prop :=
  ∃ r ∈ entryOf x, ∃ r' ∈ entryOf y, r.key = r'.key

theorem distinct_iff_separates (s : Platform) :
    Distinct SameKey s ↔ Separates TimelineEntry.key entryOf s.outbox := by
  constructor
  · intro h x hx y hy r hr r' hr' hkey
    exact h x hx y hy ⟨r, hr, r', hr', hkey⟩
  · rintro h x hx y hy ⟨r, hr, r', hr', hkey⟩
    exact h x hx y hy r hr r' hr' hkey

theorem timelineComplete_iff_distinct {s : Platform} (hs : s.Lawful) :
    TimelineComplete s ↔ Distinct SameKey s := by
  rw [distinct_iff_separates,
    ← receiveAll_owners_perm_iff (·.userId) TimelineEntry.fact hs.nodup]
  simp only [entries_fact]
  rfl

/-! ## What two entries of one key have in common -/

/-- What an entry's key says it is an occurrence of. -/
def EntryType.occurrence (sourceId : Uuid) : EntryType → Occurrence
  | .bookingConfirmed => .fact sourceId .confirmed
  | .bookingCompleted => .fact sourceId .completed
  | .bookingCancelled => .fact sourceId .cancelled
  | .orderPaid => .capture sourceId
  | .loyaltyTierChanged => .event sourceId
  | .membershipActivated => .event sourceId

theorem occurrence_of_entryOf {x : OutboxRow} {r : TimelineEntry} (h : entryOf x = some r) :
    x.occurrence = r.entryType.occurrence r.sourceId := by
  obtain ⟨_, event, _⟩ := x
  cases event with
  | booking fact =>
    obtain ⟨_, _, _, kind⟩ := fact
    cases kind <;> cases h <;> rfl
  | order event =>
    cases event with
    | orderPaid => cases h; rfl
    | _ => cases h
  | tierChanged | membershipActivated => cases h; rfl

theorem entryOf_booking {x : OutboxRow} {fact : BookingFact} {r : TimelineEntry}
    (hev : x.event = .booking fact) (h : entryOf x = some r)
    (hkind : fact.kind.type = .cancelled ∨ fact.kind.type = .rescheduled) :
    fact.kind.type = .cancelled := by
  refine hkind.resolve_right fun hmoved => ?_
  rw [entryOf, hev] at h
  obtain ⟨_, _, _, kind⟩ := fact
  cases kind <;> cases hmoved
  cases h

theorem entryOf_cancelled {x : OutboxRow} {fact : BookingFact} (hev : x.event = .booking fact)
    (hkind : fact.kind.type = .cancelled) :
    ∃ r, entryOf x = some r ∧
      r.key = (fact.customerId, .bookingCancelled, .booking, fact.bookingId) := by
  rw [entryOf, hev]
  obtain ⟨_, _, _, kind⟩ := fact
  cases kind <;> cases hkind
  exact ⟨_, rfl, rfl⟩

theorem keyedBy : KeyedBy [.cancelled] SameKey where
  symm := by
    rintro x y ⟨r, hr, r', hr', hkey⟩
    exact ⟨r', hr', r, hr, hkey.symm⟩
  occurrence := by
    rintro x y ⟨r, hr, r', hr', hkey⟩
    obtain ⟨-, htype, -, hsrc⟩ : r.userId = r'.userId ∧ r.entryType = r'.entryType ∧
        r.sourceType = r'.sourceType ∧ r.sourceId = r'.sourceId := by
      simpa [TimelineEntry.key] using hkey
    rw [occurrence_of_entryOf hr, occurrence_of_entryOf hr', htype, hsrc]
  recurring := by
    rintro x y fact ⟨r, hr, r', hr', -⟩ hev hkind
    exact List.mem_singleton.2 (entryOf_booking hev hr' hkind)
  clash := by
    intro x y fact fact' hx hy hid hcust htype hmem
    have hkind := List.mem_singleton.1 hmem
    obtain ⟨r, hr, hkey⟩ := entryOf_cancelled hx (htype.trans hkind)
    obtain ⟨r', hr', hkey'⟩ := entryOf_cancelled hy hkind
    exact ⟨r, hr, r', hr', by rw [hkey, hkey', hid, hcust]⟩

/-! ## Runs -/

/-- **A timeline is complete as long as no booking is cancelled twice.**  In a run, in every state,
every delivery of the published events leaves each customer's timeline one entry of each event about
them, exactly when every cancellation that is published is the first one of its booking. -/
theorem timelineComplete_iff (ops : List PlatformOp) :
    Throughout Platform.step TimelineComplete Platform.start ops ↔
      Along Platform.step (Platform.FirstOfItsKind [.cancelled]) Platform.start ops :=
  Platform.throughout_iff_first keyedBy (fun _ hs => timelineComplete_iff_distinct hs) ops

/-- A booking is confirmed and cancelled, an administrator's remedy moves it to another slot, and
its customer cancels it again. -/
def revival : List PlatformOp :=
  [⟨0, .booking 1 (.create 2 3 none ⟨10, 100⟩)⟩,
    ⟨1, .booking 1 .confirm⟩,
    ⟨2, .booking 1 (.cancel .customer (some 3) none)⟩,
    ⟨3, .booking 1 (.reschedule (some ⟨11, 200⟩) true true)⟩,
    ⟨4, .booking 1 (.cancel .customer (some 3) none)⟩]

/-- Both cancellations are published, and the customer's timeline states one. -/
theorem timelineComplete_revival_fails :
    ∃ s, runFrom Platform.step Platform.start revival = some s ∧
      (factsAbout 3 s.outbox).length = 3 ∧
      ((timelineOf s.outbox).filter (·.userId = 3)).length = 2 ∧ ¬TimelineComplete s := by
  refine ⟨_, rfl, rfl, rfl, fun h => ?_⟩
  have hlen := (h _ (fun _ => Iff.rfl) 3).length_eq
  cases hlen

end BeauClick.Journey
