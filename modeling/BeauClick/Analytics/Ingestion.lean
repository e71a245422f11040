import BeauClick.Events.OutboxRelay
import BeauClick.Lib.Delivery

/-!
# Analytics facts

`services/analytics/src/ingestion.service.ts`.  A domain event becomes one row of the fact
table, under the event's own id, and keeps of its payload what one table of mappings lists.

The reading of a date and the calendar day of an instant come from the language's own `Date`
and `Intl`, and the checks of an id and of a date string from the schema library; they are
the fields of `Formats`.
-/

namespace BeauClick.Analytics

open Delivery Events

/-! ## Payloads -/

/-- A value of a payload. -/
inductive JsValue where
  | string (s : String)
  | number (n : ℤ)
  | boolean (b : Bool)
  | null
  | array (n : ℕ)
  deriving DecidableEq

/-- `Record<string, unknown>`. -/
abbrev Payload := List (String × JsValue)

/-- The text under a key, when there is one. -/
def str (payload : Payload) (key : String) : Option String :=
  match payload.lookup key with
  | some (.string s) => some s
  | _ => none

/-- The number under a key, when there is one. -/
def num (payload : Payload) (key : String) : Option ℤ :=
  match payload.lookup key with
  | some (.number n) => some n
  | _ => none

/-- A calendar day, counted from one of them. -/
abbrev Day := ℤ

/-- What the language and the schema library decide about strings and instants. -/
structure Formats where
  isUuid : String → Bool
  isDatetime : String → Bool
  parseDate : String → Option Instant
  platformCalendarDay : Instant → Day

/-! ## Contracts -/

/-- What a contract says of one field. -/
inductive FieldSchema where
  | uuid
  | instant
  | positiveToman
  | literal (s : String)
  | oneOf (values : List String)
  | nullableString

/-- The value satisfies the field's schema. -/
def FieldSchema.accepts (formats : Formats) : FieldSchema → Option JsValue → Bool
  | .uuid, some (.string s) => formats.isUuid s
  | .instant, some (.string s) => formats.isDatetime s
  | .positiveToman, some (.number n) => 0 ≤ n
  | .literal s, some (.string t) => t = s
  | .oneOf values, some (.string t) => t ∈ values
  | .nullableString, some (.string _) => true
  | .nullableString, some .null => true
  | _, _ => false

/-- An event: its name, its version and the fields of its payload. -/
structure EventContract where
  name : String
  version : ℕ
  schema : List (String × FieldSchema)

/-- `schema.safeParse(payload).success`. -/
def EventContract.accepts (formats : Formats) (contract : EventContract) (payload : Payload) :
    Bool :=
  contract.schema.all fun field => field.2.accepts formats (payload.lookup field.1)

def currency : FieldSchema := .literal "IRT"

def partyType : FieldSchema := .oneOf ["professional", "business"]

def orderSourceType : FieldSchema := .oneOf ["booking", "b2b_quote", "shop"]

def OrderCreated : EventContract where
  name := "OrderCreated"
  version := 1
  schema := [("orderId", .uuid), ("sourceType", orderSourceType), ("sourceId", .uuid),
    ("customerId", .uuid), ("sellerPartyType", partyType), ("sellerPartyId", .uuid),
    ("subtotalToman", .positiveToman), ("totalToman", .positiveToman), ("currency", currency)]

def OrderPaid : EventContract where
  name := "OrderPaid"
  version := 1
  schema := [("orderId", .uuid), ("sourceType", orderSourceType), ("sourceId", .uuid),
    ("customerId", .uuid), ("sellerPartyType", partyType), ("sellerPartyId", .uuid),
    ("totalToman", .positiveToman), ("currency", currency), ("paidAt", .instant)]

def OrderCollectionCaptured : EventContract where
  name := "OrderCollectionCaptured"
  version := 1
  schema := [("orderId", .uuid), ("sourceType", orderSourceType), ("sourceId", .uuid),
    ("customerId", .uuid), ("sellerPartyType", partyType), ("sellerPartyId", .uuid),
    ("serviceTotalToman", .positiveToman), ("platformCollectedToman", .positiveToman),
    ("venueBalanceToman", .positiveToman), ("currency", currency), ("capturedAt", .instant)]

def OrderCancelled : EventContract where
  name := "OrderCancelled"
  version := 1
  schema := [("orderId", .uuid), ("cancelledAt", .instant), ("reason", .nullableString)]

def OrderRefunded : EventContract where
  name := "OrderRefunded"
  version := 1
  schema := [("orderId", .uuid), ("refundId", .uuid), ("refundAmountToman", .positiveToman),
    ("refundedTotalToman", .positiveToman), ("currency", currency), ("refundedAt", .instant)]

/-- The contracts of the orders' events. -/
def COMMERCE_EVENTS : List EventContract :=
  [OrderCreated, OrderPaid, OrderCollectionCaptured, OrderCancelled, OrderRefunded]

/-- The registry, with the contracts of the other domains in `others`. -/
structure Registry where
  formats : Formats
  others : List EventContract
  distinct : ∀ c ∈ others, ∀ d ∈ COMMERCE_EVENTS, c.name ≠ d.name

/-- `validateEnvelope`: the contract is there and the payload satisfies it. -/
def Registry.validateEnvelope (registry : Registry) (envelope : EventEnvelope Payload) : Bool :=
  match (COMMERCE_EVENTS ++ registry.others).find? fun c =>
    c.name = envelope.eventType ∧ c.version = envelope.eventVersion with
  | some contract => contract.accepts registry.formats envelope.payload
  | none => false

/-! ## Mappings -/

/-- What a fact is about. -/
inductive AnalyticsSubjectType where
  | provider | customer | order | booking | search | notification | membership
  deriving DecidableEq

/-- How a dimension is read off a field of the payload. -/
inductive DimensionRead where
  | str | num | boolean | length

/-- The value of a dimension. -/
def DimensionRead.read (payload : Payload) (field : String) : DimensionRead → JsValue
  | .str => ((Analytics.str payload field).map .string).getD .null
  | .num => ((Analytics.num payload field).map .number).getD .null
  | .boolean =>
    match payload.lookup field with
    | some (.boolean b) => .boolean b
    | _ => .null
  | .length =>
    match payload.lookup field with
    | some (.array n) => .number n
    | _ => .number 0

/-- One dimension of a mapping: its key, the field it is read off, and how. -/
structure Dimension where
  key : String
  field : String
  read : DimensionRead

/-- `FactMapping`, by the fields of the payload that are read. -/
structure FactMapping where
  subjectType : Option AnalyticsSubjectType
  subjectOf : Option String
  actorOf : Option String := none
  metricOf : Option String := none
  dimensions : List Dimension := []
  timestampOf : Option String := none

/-- A dimension kept under the name of its field. -/
def kept (read : DimensionRead) (field : String) : Dimension := ⟨field, field, read⟩

/-- The mapping of an event about one professional's bookings. -/
def aboutProvider (dimensions : List Dimension) (timestampOf : Option String) : FactMapping where
  subjectType := some .provider
  subjectOf := some "professionalId"
  actorOf := some "customerId"
  dimensions := dimensions
  timestampOf := timestampOf

/-- The mapping of an event about one order, caused by its customer. -/
def aboutOrder (metricOf : String) (timestampOf : Option String) : FactMapping where
  subjectType := some .order
  subjectOf := some "orderId"
  actorOf := some "customerId"
  metricOf := some metricOf
  dimensions := [kept .str "sourceType", kept .str "sellerPartyId"]
  timestampOf := timestampOf

/-- The mapping of an event about one notification. -/
def aboutNotification (dimensions : List Dimension) (timestampOf : String) : FactMapping where
  subjectType := some .notification
  subjectOf := some "notificationId"
  actorOf := some "userId"
  dimensions := dimensions
  timestampOf := some timestampOf

/-- The mapping of an event that is only counted. -/
def counted (timestampOf : String) : FactMapping where
  subjectType := none
  subjectOf := none
  timestampOf := some timestampOf

/-- What fact each event becomes. -/
def FACT_MAPPINGS : List (String × FactMapping) := [
  ("BookingCreated", aboutProvider [kept .str "serviceId"] none),
  ("BookingConfirmed", aboutProvider [] (some "confirmedAt")),
  ("BookingCompleted", aboutProvider [kept .str "serviceId"] (some "completedAt")),
  ("BookingCancelled",
    aboutProvider [kept .str "actorType", kept .str "previousStatus"] (some "cancelledAt")),
  ("BookingExpired", aboutProvider [] (some "expiredAt")),
  ("BookingRescheduled", aboutProvider [kept .num "rescheduleCount"] none),
  ("AIConversationStarted",
    { subjectType := some .customer, subjectOf := some "userId", actorOf := some "userId",
      timestampOf := some "startedAt" }),
  ("AIMessageExchanged",
    { subjectType := some .customer, subjectOf := some "userId", actorOf := some "userId",
      dimensions := [kept .str "providerState", kept .num "recommendationCount",
        kept .num "droppedRecommendationCount"],
      metricOf := some "latencyMs", timestampOf := some "occurredAt" }),
  ("ReviewCreated", aboutProvider [kept .num "rating"] (some "createdAt")),
  ("ReviewModerated",
    { aboutProvider [kept .str "fromStatus", kept .str "toStatus", kept .num "rating"]
        (some "moderatedAt") with actorOf := some "actorId" }),
  ("OrderCreated", aboutOrder "totalToman" none),
  ("OrderPaid", aboutOrder "totalToman" (some "paidAt")),
  ("OrderCollectionCaptured", aboutOrder "platformCollectedToman" (some "capturedAt")),
  ("OrderRefunded",
    { subjectType := some .order, subjectOf := some "orderId",
      metricOf := some "refundAmountToman", timestampOf := some "refundedAt" }),
  ("SearchPerformed",
    { subjectType := some .search, subjectOf := some "searchId", actorOf := some "userId",
      metricOf := some "resultCount",
      dimensions := [kept .str "queryClass", kept .num "queryTermCount", kept .str "sort",
        kept .num "page", kept .boolean "degraded", ⟨"filterCount", "filterKeys", .length⟩],
      timestampOf := some "occurredAt" }),
  ("ProviderProfileViewed",
    { aboutProvider [kept .str "source"] (some "occurredAt") with actorOf := some "userId" }),
  ("LoyaltyPointsEarned",
    { subjectType := some .customer, subjectOf := some "userId", actorOf := some "userId",
      metricOf := some "points", dimensions := [kept .str "reason"],
      timestampOf := some "earnedAt" }),
  ("LoyaltyTierChanged",
    { subjectType := some .customer, subjectOf := some "userId",
      dimensions := [⟨"fromTier", "fromTierSlug", .str⟩, ⟨"toTier", "toTierSlug", .str⟩],
      timestampOf := some "changedAt" }),
  ("MembershipActivated",
    { subjectType := some .membership, subjectOf := some "membershipId",
      actorOf := some "userId", dimensions := [kept .str "planSlug", kept .str "source"],
      timestampOf := some "activatedAt" }),
  ("MembershipEnded",
    { subjectType := some .membership, subjectOf := some "membershipId",
      actorOf := some "userId", dimensions := [kept .str "reason"],
      timestampOf := some "endedAt" }),
  ("NotificationRequested",
    aboutNotification [kept .str "category", kept .str "channel", kept .str "templateKey"]
      "requestedAt"),
  ("NotificationSent",
    aboutNotification [kept .str "category", kept .str "channel", kept .num "attempts"] "sentAt"),
  ("NotificationFailed",
    aboutNotification [kept .str "category", kept .str "channel", kept .str "errorCode"]
      "failedAt"),
  ("NotificationDeadLettered",
    aboutNotification [kept .str "category", kept .str "channel", kept .str "errorCode"]
      "deadLetteredAt"),
  ("NotificationRead", aboutNotification [kept .str "category"] "readAt"),
  ("ProfessionalVerificationChanged",
    { aboutProvider [kept .str "fromStatus", kept .str "toStatus"] (some "changedAt") with
      actorOf := some "actorId" }),
  ("LedgerEntriesRecorded",
    { subjectType := some .order, subjectOf := some "orderId",
      metricOf := some "receivableToman",
      dimensions := [kept .str "referenceType", kept .num "commissionToman",
        kept .str "sellerPartyType"] }),
  ("SettlementRecorded",
    { subjectType := none, subjectOf := none, metricOf := some "amountToman",
      dimensions := [kept .str "partyType", kept .num "orderCount", kept .str "method"] }),
  ("SettlementReversed",
    { subjectType := none, subjectOf := none, metricOf := some "amountToman",
      dimensions := [kept .str "partyType"] }),
  ("FundsJournalRecorded",
    { subjectType := some .order, subjectOf := some "orderId", metricOf := some "amountToman",
      dimensions := [kept .str "kind", kept .str "sellerPartyType"] }),
  ("DataExportRequested", counted "requestedAt"),
  ("DataExportCompleted", counted "completedAt"),
  ("DataErasureRequested", counted "requestedAt"),
  ("DataErasureCancelled", counted "cancelledAt"),
  ("DataErasureCompleted", counted "completedAt")]

/-! ## Facts -/

/-- A row of `analytics_events`. -/
structure AnalyticsEventEntity where
  eventId : Uuid
  eventType : String
  eventVersion : ℕ
  aggregateType : String
  aggregateId : Uuid
  subjectType : Option AnalyticsSubjectType
  subjectId : Option String
  actorId : Option String
  dimensions : List (String × JsValue)
  metricValue : Option ℤ
  occurredAt : Instant
  occurredOn : Day

/-- `compact`: the dimensions that are not null. -/
def compact (dimensions : List (String × JsValue)) : List (String × JsValue) :=
  dimensions.filter fun d => d.2 ≠ .null

/-- `resolveTimestamp`: the event's own time, or the time of its outbox row. -/
def resolveTimestamp (formats : Formats) (mapping : FactMapping)
    (envelope : EventEnvelope Payload) : Instant :=
  match mapping.timestampOf.bind (str envelope.payload) with
  | some declared =>
    if declared = "" then envelope.occurredAt
    else (formats.parseDate declared).getD envelope.occurredAt
  | none => envelope.occurredAt

/-- The fact of an event under a mapping. -/
def factOf (formats : Formats) (mapping : FactMapping) (envelope : EventEnvelope Payload) :
    AnalyticsEventEntity :=
  let subjectId := mapping.subjectOf.bind (str envelope.payload)
  let occurredAt := resolveTimestamp formats mapping envelope
  { eventId := envelope.id
    eventType := envelope.eventType
    eventVersion := envelope.eventVersion
    aggregateType := envelope.aggregateType
    aggregateId := envelope.aggregateId
    subjectType := if subjectId.getD "" = "" then none else mapping.subjectType
    subjectId := subjectId
    actorId := mapping.actorOf.bind (str envelope.payload)
    dimensions := compact (mapping.dimensions.map fun d =>
      (d.key, d.read.read envelope.payload d.field))
    metricValue := mapping.metricOf.bind (num envelope.payload)
    occurredAt := occurredAt
    occurredOn := formats.platformCalendarDay occurredAt }

/-- An event becomes a fact once, however often it is delivered. -/
def ingest (formats : Formats) (facts : List AnalyticsEventEntity)
    (envelope : EventEnvelope Payload) : List AnalyticsEventEntity :=
  match FACT_MAPPINGS.lookup envelope.eventType with
  | none => facts
  | some mapping => insertOnce (·.eventId) facts (factOf formats mapping envelope)

/-- `AnalyticsIngestionHandler.handle`: what fails its contract is skipped. -/
def handle (registry : Registry) (facts : List AnalyticsEventEntity)
    (envelope : EventEnvelope Payload) : List AnalyticsEventEntity :=
  if registry.validateEnvelope envelope then ingest registry.formats facts envelope else facts

/-- The table after deliveries. -/
def handleAll (registry : Registry) (facts : List AnalyticsEventEntity)
    (deliveries : List (EventEnvelope Payload)) : List AnalyticsEventEntity :=
  deliveries.foldl (handle registry) facts

/-! ## What is ingested -/

/-- The event satisfies its contract, and there is a mapping for it. -/
def Ingestible (registry : Registry) (envelope : EventEnvelope Payload) : Prop :=
  registry.validateEnvelope envelope = true ∧
    (FACT_MAPPINGS.lookup envelope.eventType).isSome = true

instance (registry : Registry) (envelope : EventEnvelope Payload) :
    Decidable (Ingestible registry envelope) := inferInstanceAs (Decidable (_ ∧ _))

/-- The fact of an event. -/
def fact (formats : Formats) (envelope : EventEnvelope Payload) : Option AnalyticsEventEntity :=
  (FACT_MAPPINGS.lookup envelope.eventType).map fun mapping => factOf formats mapping envelope

/-- The fact of an event that satisfies its contract. -/
def validFact (registry : Registry) (envelope : EventEnvelope Payload) :
    Option AnalyticsEventEntity :=
  if registry.validateEnvelope envelope then fact registry.formats envelope else none

section Ingested

variable {registry : Registry} {deliveries events : List (EventEnvelope Payload)}
  {e : EventEnvelope Payload} {f : AnalyticsEventEntity}

theorem handle_eq_receive (facts : List AnalyticsEventEntity) :
    handle registry facts e = receive (·.eventId) (validFact registry) facts e := by
  rw [handle, ingest, receive, validFact, fact]
  by_cases hval : registry.validateEnvelope e = true
  · rw [if_pos hval, if_pos hval]
    cases FACT_MAPPINGS.lookup e.eventType <;> rfl
  · rw [if_neg hval, if_neg hval]

theorem eventId_of_validFact (h : f ∈ validFact registry e) : f.eventId = e.id := by
  rw [validFact] at h
  split at h
  · obtain ⟨_, -, rfl⟩ := Option.map_eq_some_iff.1 h
    rfl
  · cases h

theorem validFact_eq_fact (h : Ingestible registry e) :
    validFact registry e = fact registry.formats e := if_pos h.1

theorem ingestible_of_validFact (h : f ∈ validFact registry e) : Ingestible registry e := by
  rw [validFact] at h
  split at h
  · rename_i hval
    refine ⟨hval, ?_⟩
    obtain ⟨_, hmap, -⟩ := Option.map_eq_some_iff.1 h
    rw [hmap]
    rfl
  · cases h

/-- After any deliveries the table holds the facts of the accepted events, whatever the order and
the repetitions. -/
theorem handleAll_perm (hnodup : events.Nodup)
    (hids : ∀ x ∈ deliveries, ∀ y ∈ deliveries, x.id = y.id → x = y)
    (hevents : ∀ e, e ∈ events ↔ e ∈ deliveries ∧ Ingestible registry e) :
    (handleAll registry [] deliveries).Perm (events.filterMap (fact registry.formats)) := by
  have hhandle : handle registry = receive (·.eventId) (validFact registry) := by
    funext facts e
    exact handle_eq_receive facts
  have hfacts : events.filterMap (fact registry.formats) =
      events.filterMap (validFact registry) := by
    refine List.filterMap_congr fun e he => ?_
    exact (validFact_eq_fact ((hevents e).1 he).2).symm
  rw [handleAll, hhandle, hfacts]
  refine receiveAll_perm ?_ hnodup ?_
  · intro x hx y hy f hf f' hf' hkey
    refine hids x hx y hy ?_
    rw [← eventId_of_validFact hf, ← eventId_of_validFact hf']
    exact hkey
  · intro e f hf
    rw [hevents, and_iff_left (ingestible_of_validFact hf)]

end Ingested

end BeauClick.Analytics
