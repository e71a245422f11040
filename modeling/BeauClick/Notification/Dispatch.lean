import BeauClick.Events.Occurrences

/-!
# From an event to its notifications

`NotificationDispatchHandler` in `notification-analytics.handlers.ts` asks for one notification on
each channel of an event's rule, and `dispatchOne` in `notification.service.ts` reserves the
idempotency key of each by an insert that a redelivery loses.

Rendering and the lookups succeed; what they answer is arbitrary.
-/

namespace BeauClick.Notification

open Booking Commerce Events Runs Delivery List

/-! ## Rules -/

/-- The channels of a notification. -/
inductive NotificationChannel where
  | inApp
  | email
  | sms
  deriving DecidableEq

/-- The categories of the templates below. -/
inductive NotificationCategory where
  | booking
  | payment
  | loyalty
  deriving DecidableEq

/-- The templates of the rules below. -/
inductive TemplateKey where
  | bookingConfirmed
  | bookingCancelled
  | bookingNoShowDeclared
  | bookingRescheduled
  | paymentSucceeded
  | loyaltyTierChanged
  | membershipActivated
  deriving DecidableEq

/-- What a notification is about. -/
inductive EntityType where
  | booking
  | order
  | loyaltyAccount
  | membership
  deriving DecidableEq

/-- What an idempotency key is measured against. -/
inductive DedupeBy where
  | entity
  | event
  deriving DecidableEq

/-- `MANDATORY_CATEGORIES`, of those above. -/
def mandatoryCategories : List NotificationCategory := [.booking, .payment]

/-- `categoryOf`. -/
def TemplateKey.category : TemplateKey → NotificationCategory
  | .bookingConfirmed => .booking
  | .bookingCancelled => .booking
  | .bookingNoShowDeclared => .booking
  | .bookingRescheduled => .booking
  | .paymentSucceeded => .payment
  | .loyaltyTierChanged => .loyalty
  | .membershipActivated => .loyalty

/-- `vars`, before they are formatted. -/
inductive NotificationVars where
  | dated (professionalName : String) (date : Instant)
  | timed (professionalName : String) (date time : Instant)
  | amount (amountToman : ℤ)
  | tier (tierName : String)
  | plan (planName : String)

/-- What `bookingDetails` and `tierName` answer. -/
structure NotificationEnricher where
  professionalName : Uuid → String
  startAt : Uuid → Option Instant
  tierName : String → String

/-- What a `build` returns. -/
structure Built where
  userId : Uuid
  entityId : Uuid
  vars : NotificationVars

/-- A rule, with its `build` applied to the payload. -/
structure NotificationRule where
  templateKey : TemplateKey
  channels : List NotificationChannel
  entityType : EntityType
  dedupeBy : DedupeBy
  build : NotificationEnricher → Option Built

/-- The rule of a booking event whose message names the appointment. -/
def bookingRule (templateKey : TemplateKey) (fact : BookingFact)
    (vars : NotificationEnricher → NotificationVars) : NotificationRule where
  templateKey := templateKey
  channels := [.inApp]
  entityType := .booking
  dedupeBy := .entity
  build enricher := some ⟨fact.customerId, fact.bookingId, vars enricher⟩

/-- The rule of a captured payment. -/
def paymentRule (customerId orderId : Uuid) (amountToman : ℤ) : NotificationRule where
  templateKey := .paymentSucceeded
  channels := [.inApp]
  entityType := .order
  dedupeBy := .entity
  build _ := some ⟨customerId, orderId, .amount amountToman⟩

/-- `NOTIFICATION_RULES`. -/
def ruleOf : DomainEvent → Option NotificationRule
  | .booking fact =>
    match fact.kind with
    | .confirmed confirmedAt =>
      some (bookingRule .bookingConfirmed fact fun enricher =>
        let startAt := (enricher.startAt fact.bookingId).getD confirmedAt
        .timed (enricher.professionalName fact.professionalId) startAt startAt)
    | .cancelled _ _ cancelledAt _ _ _ =>
      some (bookingRule .bookingCancelled fact fun enricher =>
        .dated (enricher.professionalName fact.professionalId)
          ((enricher.startAt fact.bookingId).getD cancelledAt))
    | .noShowDeclared declaredAt _ =>
      some (bookingRule .bookingNoShowDeclared fact fun enricher =>
        .dated (enricher.professionalName fact.professionalId)
          ((enricher.startAt fact.bookingId).getD declaredAt))
    | .rescheduled _ _ _ newStartAt _ =>
      some (bookingRule .bookingRescheduled fact fun enricher =>
        .timed (enricher.professionalName fact.professionalId) newStartAt newStartAt)
    | .completed _ _ => none
    | .expired _ => none
  | .order (.orderPaid orderId _ _ customerId _ _ totalToman _) =>
    some (paymentRule customerId orderId totalToman)
  | .order (.orderCollectionCaptured orderId _ _ customerId _ _ _ platformCollectedToman _ _) =>
    some (paymentRule customerId orderId platformCollectedToman)
  | .order _ => none
  | .tierChanged userId _ toTierSlug _ =>
    some {
      templateKey := .loyaltyTierChanged
      channels := [.inApp]
      entityType := .loyaltyAccount
      dedupeBy := .event
      build := fun enricher =>
        -- a fall to no tier is not announced
        let toTier := toTierSlug.getD ""
        if toTier = "" then none else some ⟨userId, userId, .tier (enricher.tierName toTier)⟩ }
  | .membershipActivated membershipId userId planSlug _ _ =>
    some {
      templateKey := .membershipActivated
      channels := [.inApp]
      entityType := .membership
      dedupeBy := .event
      build := fun _ => some ⟨userId, membershipId, .plan planSlug⟩ }

/-! ## Requests -/

/-- `{templateKey}:{entityType}:{entityId}:{userId}:{channel}`. -/
structure IdempotencyKey where
  templateKey : TemplateKey
  entityType : EntityType
  entityId : Uuid
  userId : Uuid
  channel : NotificationChannel
  deriving DecidableEq

/-- The status of a new row. -/
inductive NotificationStatus where
  | pending
  | suppressed

/-- A row of `notification.notifications`. -/
structure NotificationRow where
  userId : Uuid
  category : NotificationCategory
  templateKey : TemplateKey
  channel : NotificationChannel
  payload : NotificationVars
  status : NotificationStatus
  idempotencyKey : IdempotencyKey
  entityType : EntityType
  entityId : Uuid

/-- What `notify` is given. -/
structure NotifyInput where
  userId : Uuid
  templateKey : TemplateKey
  vars : NotificationVars
  entityType : EntityType
  entityId : Uuid
  channels : List NotificationChannel

/-- What the handler looks up while it runs. -/
structure Surroundings where
  enricher : NotificationEnricher
  preference : Uuid → NotificationCategory → Option Bool

/-- Whether a user takes a kind of notification. -/
def Surroundings.isEnabled (around : Surroundings) (userId : Uuid)
    (category : NotificationCategory) : Bool :=
  if category ∈ mandatoryCategories then true else (around.preference userId category).getD true

/-- The row that `dispatchOne` inserts. -/
def rowOf (around : Surroundings) (input : NotifyInput) (channel : NotificationChannel) :
    NotificationRow where
  userId := input.userId
  category := input.templateKey.category
  templateKey := input.templateKey
  channel := channel
  payload := input.vars
  status :=
    if around.isEnabled input.userId input.templateKey.category then .pending else .suppressed
  idempotencyKey :=
    ⟨input.templateKey, input.entityType, input.entityId, input.userId, channel⟩
  entityType := input.entityType
  entityId := input.entityId

/-- `dispatchOne`, as far as the reservation. -/
def dispatchOne (around : Surroundings) (input : NotifyInput) (table : List NotificationRow)
    (channel : NotificationChannel) : List NotificationRow :=
  insertOnce NotificationRow.idempotencyKey table (rowOf around input channel)

/-- A notification is inserted unless its key is taken. -/
def notify (around : Surroundings) (table : List NotificationRow) (input : NotifyInput) :
    List NotificationRow :=
  input.channels.foldl (dispatchOne around input) table

/-- A delivery of an event, and what its handler looks up. -/
structure Delivery where
  envelope : OutboxRow
  around : Surroundings

/-- The request that the handler makes for an event. -/
def inputOf (delivery : Delivery) : Option NotifyInput :=
  match ruleOf delivery.envelope.event with
  | none => none
  | some rule =>
    match rule.build delivery.around.enricher with
    | none => none
    | some built =>
      some {
        userId := built.userId
        templateKey := rule.templateKey
        vars := built.vars
        entityType := rule.entityType
        entityId := if rule.dedupeBy = .event then delivery.envelope.id else built.entityId
        channels := rule.channels }

/-- What one delivery adds to the table. -/
def handle (table : List NotificationRow) (delivery : Delivery) : List NotificationRow :=
  match inputOf delivery with
  | none => table
  | some input => notify delivery.around table input

/-- The notifications after deliveries. -/
def notificationsOf (deliveries : List Delivery) : List NotificationRow :=
  deliveries.foldl handle []

/-! ## What notifications are for -/

/-- Who is told what, and where. -/
structure Message where
  userId : Uuid
  templateKey : TemplateKey
  channel : NotificationChannel
  deriving DecidableEq

/-- The message that a row is. -/
def NotificationRow.message (row : NotificationRow) : Message :=
  ⟨row.userId, row.templateKey, row.channel⟩

/-- The messages that an event should lead to. -/
def owed : DomainEvent → List Message
  | .booking ⟨_, _, customerId, .confirmed _⟩ => [⟨customerId, .bookingConfirmed, .inApp⟩]
  | .booking ⟨_, _, customerId, .cancelled ..⟩ => [⟨customerId, .bookingCancelled, .inApp⟩]
  | .booking ⟨_, _, customerId, .noShowDeclared ..⟩ =>
    [⟨customerId, .bookingNoShowDeclared, .inApp⟩]
  | .booking ⟨_, _, customerId, .rescheduled ..⟩ => [⟨customerId, .bookingRescheduled, .inApp⟩]
  | .order (.orderPaid _ _ _ customerId ..) => [⟨customerId, .paymentSucceeded, .inApp⟩]
  | .order (.orderCollectionCaptured _ _ _ customerId ..) =>
    [⟨customerId, .paymentSucceeded, .inApp⟩]
  | .tierChanged userId _ toTierSlug _ =>
    if toTierSlug.getD "" = "" then [] else [⟨userId, .loyaltyTierChanged, .inApp⟩]
  | .membershipActivated _ userId _ _ _ => [⟨userId, .membershipActivated, .inApp⟩]
  | _ => []

/-- The rows that a delivery asks for. -/
def requested (delivery : Delivery) : List NotificationRow :=
  match inputOf delivery with
  | none => []
  | some input => input.channels.map (rowOf delivery.around input)

/-- Two events ask for rows of one key. -/
def SameKey (x y : OutboxRow) : Prop :=
  ∃ around around', ∃ r ∈ requested ⟨x, around⟩, ∃ r' ∈ requested ⟨y, around'⟩,
    r.idempotencyKey = r'.idempotencyKey

/-- However the published events are delivered, each once at least, there is one row of every
message they should lead to; a redelivery adds none; and no two events share a key. -/
structure NotifiedOnce (s : Platform) : Prop where
  once : ∀ deliveries : List Delivery, (∀ x, x ∈ deliveries.map (·.envelope) ↔ x ∈ s.outbox) →
    ((notificationsOf deliveries).map NotificationRow.message).Perm
      (s.outbox.flatMap fun x => owed x.event)
  redelivery : ∀ (deliveries : List Delivery) (d : Delivery),
    d.envelope ∈ deliveries.map (·.envelope) →
      notificationsOf (deliveries ++ [d]) = notificationsOf deliveries
  apart : Distinct SameKey s

/-! ## The rows of a delivery -/

theorem handle_eq (table : List NotificationRow) (d : Delivery) :
    handle table d = insertAll NotificationRow.idempotencyKey table (requested d) := by
  rw [handle, requested]
  cases inputOf d with
  | none => rfl
  | some =>
    dsimp only
    rw [insertAll, foldl_map]
    rfl

theorem notificationsOf_eq (deliveries : List Delivery) :
    notificationsOf deliveries =
      insertAll NotificationRow.idempotencyKey [] (deliveries.flatMap requested) := by
  induction deliveries using List.reverseRecOn with
  | nil => rfl
  | append_singleton deliveries d ih =>
    rw [flatMap_append, insertAll_append, ← ih, flatMap_singleton, ← handle_eq]
    exact foldl_append

/-- The message of a key. -/
def IdempotencyKey.message (key : IdempotencyKey) : Message :=
  ⟨key.userId, key.templateKey, key.channel⟩

variable {d : Delivery} {x : OutboxRow} {deliveries : List Delivery} {r : NotificationRow}
  {k : IdempotencyKey} {s : Platform}

theorem message_of_key (h : r ∈ requested d) : r.message = r.idempotencyKey.message := by
  rw [requested] at h
  split at h
  · cases h
  obtain ⟨_, -, rfl⟩ := mem_map.1 h
  rfl

/-- Lookups that find nothing. -/
def plain : Surroundings := ⟨⟨fun _ => "", fun _ => none, id⟩, fun _ _ => none⟩

/-- The keys of an event. -/
def keysOf (x : OutboxRow) : List IdempotencyKey :=
  (requested ⟨x, plain⟩).map (·.idempotencyKey)

theorem requested_keys (d : Delivery) :
    (requested d).map (·.idempotencyKey) = keysOf d.envelope := by
  obtain ⟨⟨_, event, _⟩, _⟩ := d
  cases event with
  | booking fact =>
    obtain ⟨_, _, _, kind⟩ := fact
    cases kind <;> rfl
  | order event => cases event <;> rfl
  | tierChanged userId fromTierSlug toTierSlug =>
    by_cases hnone : toTierSlug.getD "" = ""
    · simp [keysOf, requested, inputOf, ruleOf, hnone]
    · simp [keysOf, requested, inputOf, ruleOf, rowOf, hnone]
  | membershipActivated => rfl

theorem mem_requested_keys (h : r ∈ requested d) : r.idempotencyKey ∈ keysOf d.envelope := by
  rw [← requested_keys]
  exact mem_map_of_mem h

theorem keysOf_message (x : OutboxRow) : (keysOf x).map (·.message) = owed x.event := by
  obtain ⟨_, event, _⟩ := x
  cases event with
  | booking fact =>
    obtain ⟨_, _, _, kind⟩ := fact
    cases kind <;> rfl
  | order event => cases event <;> rfl
  | tierChanged userId fromTierSlug toTierSlug =>
    by_cases hnone : toTierSlug.getD "" = ""
    · simp [keysOf, requested, inputOf, ruleOf, owed, hnone]
    · simp [keysOf, requested, inputOf, ruleOf, rowOf, owed, IdempotencyKey.message, hnone]
  | membershipActivated => rfl

/-- What a key says it is an occurrence of. -/
def IdempotencyKey.occurrence (key : IdempotencyKey) : Occurrence :=
  match key.templateKey with
  | .bookingConfirmed => .fact key.entityId .confirmed
  | .bookingCancelled => .fact key.entityId .cancelled
  | .bookingNoShowDeclared => .fact key.entityId .noShowDeclared
  | .bookingRescheduled => .fact key.entityId .rescheduled
  | .paymentSucceeded => .capture key.entityId
  | .loyaltyTierChanged => .event key.entityId
  | .membershipActivated => .event key.entityId

theorem keysOf_cases (x : OutboxRow) :
    keysOf x = [] ∨ ∃ k, keysOf x = [k] ∧ x.occurrence = k.occurrence := by
  obtain ⟨id, event, _⟩ := x
  cases event with
  | booking fact =>
    obtain ⟨_, _, _, kind⟩ := fact
    cases kind with
    | completed | expired => exact Or.inl rfl
    | _ => exact Or.inr ⟨_, rfl, rfl⟩
  | order event =>
    cases event with
    | orderCancelled | orderRefunded => exact Or.inl rfl
    | _ => exact Or.inr ⟨_, rfl, rfl⟩
  | tierChanged userId fromTierSlug toTierSlug =>
    by_cases hnone : toTierSlug.getD "" = ""
    · exact Or.inl (by simp [keysOf, requested, inputOf, ruleOf, hnone])
    · refine Or.inr ⟨⟨.loyaltyTierChanged, .loyaltyAccount, id, userId, .inApp⟩, ?_, rfl⟩
      simp [keysOf, requested, inputOf, ruleOf, rowOf, hnone]
  | membershipActivated => exact Or.inr ⟨_, rfl, rfl⟩

theorem sameKey_iff {y : OutboxRow} : SameKey x y ↔ ∃ k ∈ keysOf x, k ∈ keysOf y := by
  constructor
  · rintro ⟨_, _, r, hr, r', hr', hkey⟩
    exact ⟨_, mem_requested_keys hr, hkey ▸ mem_requested_keys hr'⟩
  · rintro ⟨_, hx, hy⟩
    obtain ⟨r, hr, rfl⟩ := mem_map.1 hx
    obtain ⟨r', hr', hkey⟩ := mem_map.1 hy
    exact ⟨plain, plain, r, hr, r', hr', hkey.symm⟩

/-! ## One row of each key -/

theorem mem_notificationsOf_keys :
    k ∈ (notificationsOf deliveries).map (·.idempotencyKey) ↔
      ∃ x ∈ deliveries.map (·.envelope), k ∈ keysOf x := by
  rw [notificationsOf_eq, mem_insertAll_keys, map_flatMap]
  simp [requested_keys]

theorem notificationsOf_redelivery (h : d.envelope ∈ deliveries.map (·.envelope)) :
    notificationsOf (deliveries ++ [d]) = notificationsOf deliveries := by
  have hlast : notificationsOf (deliveries ++ [d]) = handle (notificationsOf deliveries) d :=
    foldl_append
  rw [hlast, handle_eq]
  refine insertAll_of_mem fun r hr => ?_
  exact mem_notificationsOf_keys.2 ⟨_, h, mem_requested_keys hr⟩

theorem notificationsOf_message (deliveries : List Delivery) :
    (notificationsOf deliveries).map NotificationRow.message =
      ((notificationsOf deliveries).map (·.idempotencyKey)).map (·.message) := by
  rw [map_map]
  refine map_congr_left fun r hr => ?_
  rw [notificationsOf_eq] at hr
  rcases mem_of_mem_insertAll hr with hr | hr
  · cases hr
  obtain ⟨_, -, hr⟩ := mem_flatMap.1 hr
  exact message_of_key hr

theorem owed_eq (outbox : List OutboxRow) :
    (outbox.flatMap fun x => owed x.event) = (outbox.flatMap keysOf).map (·.message) := by
  rw [map_flatMap]
  exact congrArg (outbox.flatMap ·) (funext fun x => (keysOf_message x).symm)

theorem nodup_keysOf (x : OutboxRow) : (keysOf x).Nodup := by
  rcases keysOf_cases x with h | ⟨k, h, -⟩
  · rw [h]
    exact nodup_nil
  · rw [h]
    exact nodup_singleton k

theorem once_of_distinct (hs : s.Lawful) (h : Distinct SameKey s)
    (hcovers : ∀ x, x ∈ deliveries.map (·.envelope) ↔ x ∈ s.outbox) :
    ((notificationsOf deliveries).map NotificationRow.message).Perm
      (s.outbox.flatMap fun x => owed x.event) := by
  rw [notificationsOf_message, owed_eq]
  refine List.Perm.map _ ((perm_ext_iff_of_nodup ?_ ?_).2 fun k => ?_)
  · rw [notificationsOf_eq]
    exact nodup_insertAll nodup_nil
  · refine nodup_flatMap.2 ⟨fun x _ => nodup_keysOf x, ?_⟩
    refine hs.nodup.pairwise_of_forall_ne fun x hx y hy hne => ?_
    exact fun k hkx hky => hne (h x hx y hy (sameKey_iff.2 ⟨k, hkx, hky⟩))
  · rw [mem_notificationsOf_keys, mem_flatMap]
    simp only [hcovers]

theorem notifiedOnce_iff_distinct (hs : s.Lawful) : NotifiedOnce s ↔ Distinct SameKey s :=
  ⟨NotifiedOnce.apart, fun h => ⟨fun _ hcovers => once_of_distinct hs h hcovers,
    fun _ _ hd => notificationsOf_redelivery hd, h⟩⟩

/-! ## What two events of one key have in common -/

theorem occurrence_of_key (h : k ∈ keysOf x) : x.occurrence = k.occurrence := by
  rcases keysOf_cases x with hnone | ⟨_, hone, _⟩
  · rw [hnone] at h
    cases h
  · rw [hone] at h
    rwa [mem_singleton.1 h]

theorem keysOf_recurring {fact : BookingFact} (hev : x.event = .booking fact)
    (hkind : fact.kind.type ∈ [BookingFactType.cancelled, .rescheduled]) :
    keysOf x = [⟨if fact.kind.type = .cancelled then .bookingCancelled else .bookingRescheduled,
      .booking, fact.bookingId, fact.customerId, .inApp⟩] := by
  obtain ⟨_, _, _⟩ := x
  cases hev
  obtain ⟨_, _, _, kind⟩ := fact
  cases kind with
  | cancelled | rescheduled => rfl
  | _ => cases hkind with | tail _ h => cases h with | tail _ h => cases h

theorem keyedBy : KeyedBy [.cancelled, .rescheduled] SameKey where
  symm := by
    intro x y h
    obtain ⟨k, hx, hy⟩ := sameKey_iff.1 h
    exact sameKey_iff.2 ⟨k, hy, hx⟩
  occurrence := by
    intro x y h
    obtain ⟨_, hx, hy⟩ := sameKey_iff.1 h
    exact (occurrence_of_key hx).trans (occurrence_of_key hy).symm
  recurring := by
    intro x y fact _ _ hkind
    simpa using hkind
  clash := by
    intro x y fact fact' hx hy hid hcust htype hmem
    have hkeys := keysOf_recurring hx (htype ▸ hmem)
    refine sameKey_iff.2 ⟨_, by rw [hkeys]; exact mem_singleton_self _, ?_⟩
    rw [keysOf_recurring hy hmem, hid, hcust, htype]
    exact mem_singleton_self _

/-! ## Runs -/

/-- **Every occurrence is notified as long as no booking is cancelled or rescheduled twice.**  In a
run, in every state, every delivery of the published events leaves one notification of each on each
of its channels, and no two of them share a key, exactly when every cancellation and every
reschedule that is published is the first one of its booking. -/
theorem notifiedOnce_iff (ops : List PlatformOp) :
    Throughout Platform.step NotifiedOnce Platform.start ops ↔
      Along Platform.step (Platform.FirstOfItsKind [.cancelled, .rescheduled]) Platform.start ops :=
  Platform.throughout_iff_first keyedBy (fun _ hs => notifiedOnce_iff_distinct hs) ops

/-- A booking that its customer moves twice. -/
def movedTwice : List PlatformOp :=
  [⟨0, .booking 1 (.create 2 3 none ⟨10, 100⟩)⟩,
    ⟨1, .booking 1 .confirm⟩,
    ⟨2, .booking 1 (.reschedule (some ⟨11, 200⟩) false true)⟩,
    ⟨3, .booking 1 (.reschedule (some ⟨12, 300⟩) false true)⟩]

theorem covers_plain (outbox : List OutboxRow) (x : OutboxRow) :
    x ∈ (outbox.map fun y => (⟨y, plain⟩ : Delivery)).map (·.envelope) ↔ x ∈ outbox := by
  simp

/-- The customer is told of one of the two times. -/
theorem notifiedOnce_reschedule_fails :
    ∃ s, runFrom Platform.step Platform.start movedTwice = some s ∧
      (s.outbox.flatMap fun x => owed x.event).length = 3 ∧
      (notificationsOf (s.outbox.map fun x => ⟨x, plain⟩)).length = 2 ∧ ¬NotifiedOnce s := by
  refine ⟨_, rfl, rfl, rfl, fun h => ?_⟩
  have hlen := (h.once _ (covers_plain _)).length_eq
  cases hlen

end BeauClick.Notification
