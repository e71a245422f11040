import BeauClick.Analytics.Ingestion
import Mathlib.Algebra.BigOperators.Group.Finset.Basic

/-!
# A seller's revenue figures

`services/analytics/src/metrics.service.ts`.  The figures of one professional and those of
the platform are sums over the same facts; a professional's are filtered on the seller
dimension.

The rates, which divide two counters in floating point, are left out.
-/

namespace BeauClick.Analytics

open Delivery Events List

/-! ## Ranges -/

/-- The two ends of a reporting range. -/
structure Range where
  fromDay : Day
  toDay : Day

/-- `normalizeRange`; a day that is missing or not a day is `none`. -/
def normalizeRange (today : Day) (fromDay toDay : Option Day) : Range :=
  let start := fromDay.getD (today - 29)
  let stop := toDay.getD today
  let range : Range := if start > stop then ⟨stop, start⟩ else ⟨start, stop⟩
  let maxDays := 366
  if range.toDay - range.fromDay > maxDays then
    { range with fromDay := range.toDay - maxDays }
  else range

/-- `BETWEEN :from AND :to`. -/
def Range.Contains (range : Range) (day : Day) : Prop :=
  range.fromDay ≤ day ∧ day ≤ range.toDay
  deriving Decidable

/-! ## Metrics -/

/-- How a metric is read off its facts. -/
inductive MetricKind where
  | event_derived | domain_derived | correlation_derived

/-- A metric, and the events it counts. -/
structure Metric where
  key : String
  value : ℤ
  kind : MetricKind := .event_derived

/-- `->>`: a value as text. -/
def JsValue.text : JsValue → Option String
  | .string s => some s
  | .number n => some (toString n)
  | .boolean true => some "true"
  | .boolean false => some "false"
  | .null => none
  | .array _ => none

/-- `e.dimensions ->> :key = :value`. -/
def AnalyticsEventEntity.HasDimension (f : AnalyticsEventEntity) (key value : String) : Prop :=
  (f.dimensions.lookup key).bind JsValue.text = some value
  deriving Decidable

/-- `e.event_type = :eventType` and `e.occurred_on BETWEEN :from AND :to`. -/
def AnalyticsEventEntity.Of (f : AnalyticsEventEntity) (eventType : String) (range : Range) :
    Prop :=
  f.eventType = eventType ∧ range.Contains f.occurredOn

instance (f : AnalyticsEventEntity) (eventType : String) (range : Range) :
    Decidable (f.Of eventType range) := inferInstanceAs (Decidable (_ ∧ _))

/-- `getCount` of the facts of a type in a range that satisfy a further condition. -/
def getCount (facts : List AnalyticsEventEntity) (eventType : String) (range : Range)
    (p : AnalyticsEventEntity → Bool) : ℤ :=
  (facts.filter fun f => f.Of eventType range ∧ p f = true).length

/-- `countEvents`: of every subject where none is given. -/
def countEvents (facts : List AnalyticsEventEntity) (eventType : String) (range : Range)
    (subjectId : Option String) : ℤ :=
  getCount facts eventType range fun f => subjectId.all fun id =>
    id = "" ∨ f.subjectType = some .provider ∧ f.subjectId = some id

/-- `sumMetric`: the sum of the values there are.  The database adds exactly and `Number` keeps a
total up to `2 ^ 53`, within which the figures are stated. -/
def sumMetric (facts : List AnalyticsEventEntity) (eventType : String) (range : Range)
    (dimension : Option (String × String)) : ℤ :=
  ((facts.filter fun f => f.Of eventType range ∧ dimension.all fun d =>
    (d.1 = "" ∨ d.2 = "") ∨ f.HasDimension d.1 d.2).map fun f => f.metricValue.getD 0).sum

/-- The funnel of `ProviderMetrics`. -/
structure Funnel where
  created : Metric
  confirmed : Metric
  completed : Metric
  cancelled : Metric
  expired : Metric
  profileViews : Metric

/-- The revenue of `ProviderMetrics`. -/
structure Revenue where
  paidOrders : Metric
  grossToman : Metric
  refundedToman : Metric

/-- What `providerMetrics` answers. -/
structure ProviderMetrics where
  range : Range
  funnel : Funnel
  revenue : Revenue

/-- The figures of one professional's dashboard. -/
def forProvider (facts : List AnalyticsEventEntity) (today : Day) (professionalId : String)
    (fromDay toDay : Option Day) : ProviderMetrics :=
  let range := normalizeRange today fromDay toDay
  let count eventType := countEvents facts eventType range (some professionalId)
  { range := range
    funnel :=
      { created := { key := "bookings_created", value := count "BookingCreated" }
        confirmed := { key := "bookings_confirmed", value := count "BookingConfirmed" }
        completed := { key := "bookings_completed", value := count "BookingCompleted" }
        cancelled := { key := "bookings_cancelled", value := count "BookingCancelled" }
        expired := { key := "bookings_expired", value := count "BookingExpired" }
        profileViews := { key := "profile_views", value := count "ProviderProfileViewed" } }
    revenue :=
      { paidOrders :=
          { key := "paid_orders"
            value := getCount facts "OrderPaid" range fun f =>
              f.HasDimension "sellerPartyId" professionalId }
        grossToman :=
          { key := "gross_toman"
            value := sumMetric facts "OrderPaid" range (some ("sellerPartyId", professionalId)) }
        refundedToman :=
          { key := "refunded_toman"
            value := sumMetric facts "OrderRefunded" range
              (some ("sellerPartyId", professionalId)) } } }

/-- The search figures of the platform. -/
structure SearchMetrics where
  searches : Metric
  emptyResultSearches : Metric
  degradedSearches : Metric
  searchSourcedViews : Metric

/-- The booking figures of the platform. -/
structure BookingMetrics where
  created : Metric
  completed : Metric

/-- The commerce figures of the platform. -/
structure CommerceMetrics where
  ordersPaid : Metric
  grossToman : Metric
  refundedToman : Metric

/-- The notification figures of the platform. -/
structure NotificationMetrics where
  sent : Metric
  failed : Metric
  deadLettered : Metric
  read : Metric

/-- The loyalty figures of the platform. -/
structure LoyaltyMetrics where
  pointsEarned : Metric
  tierChanges : Metric
  membershipsActivated : Metric

/-- What `platformMetrics` returns. -/
structure PlatformMetrics where
  range : Range
  search : SearchMetrics
  bookings : BookingMetrics
  commerce : CommerceMetrics
  notifications : NotificationMetrics
  loyalty : LoyaltyMetrics

/-- The figures of the platform's dashboard. -/
def platformMetrics (facts : List AnalyticsEventEntity) (today : Day)
    (fromDay toDay : Option Day) : PlatformMetrics :=
  let range := normalizeRange today fromDay toDay
  let count eventType := countEvents facts eventType range none
  { range := range
    search :=
      { searches := { key := "searches", value := count "SearchPerformed" }
        emptyResultSearches :=
          { key := "empty_result_searches"
            value := getCount facts "SearchPerformed" range fun f => f.metricValue = some 0 }
        degradedSearches :=
          { key := "degraded_searches"
            value := getCount facts "SearchPerformed" range fun f =>
              f.HasDimension "degraded" "true" }
        searchSourcedViews :=
          { key := "search_sourced_profile_views"
            value := getCount facts "ProviderProfileViewed" range fun f =>
              f.HasDimension "source" "search" } }
    bookings :=
      { created := { key := "bookings_created", value := count "BookingCreated" }
        completed := { key := "bookings_completed", value := count "BookingCompleted" } }
    commerce :=
      { ordersPaid := { key := "orders_paid", value := count "OrderPaid" }
        grossToman := { key := "gross_toman", value := sumMetric facts "OrderPaid" range none }
        refundedToman :=
          { key := "refunded_toman", value := sumMetric facts "OrderRefunded" range none } }
    notifications :=
      { sent := { key := "notifications_sent", value := count "NotificationSent" }
        failed := { key := "notifications_failed", value := count "NotificationFailed" }
        deadLettered :=
          { key := "notifications_dead_lettered", value := count "NotificationDeadLettered" }
        read := { key := "notifications_read", value := count "NotificationRead" } }
    loyalty :=
      { pointsEarned :=
          { key := "loyalty_points_earned"
            value := sumMetric facts "LoyaltyPointsEarned" range none }
        tierChanges :=
          { key := "loyalty_tier_changes", value := count "LoyaltyTierChanged" }
        membershipsActivated :=
          { key := "memberships_activated", value := count "MembershipActivated" } } }

/-! ## The property -/

/-- The id of a seller, which is not the empty string. -/
abbrev SellerId := {s : String // s ≠ ""}

/-- The event is of the type, and its platform day is in the range. -/
def Within (formats : Formats) (range : Range) (eventType : String) (e : EventEnvelope Payload) :
    Prop :=
  e.eventType = eventType ∧
    (fact formats e).any (fun f => range.Contains f.occurredOn) = true

instance (formats : Formats) (range : Range) (eventType : String) (e : EventEnvelope Payload) :
    Decidable (Within formats range eventType e) := inferInstanceAs (Decidable (_ ∧ _))

/-- The amount of an event. -/
def amount (field : String) (e : EventEnvelope Payload) : ℤ := (num e.payload field).getD 0

/-- The sum of a figure over the events of a type in a range that belong to a seller. -/
def sumOf (formats : Formats) (range : Range) (events : List (EventEnvelope Payload))
    (eventType : String) (figure : EventEnvelope Payload → ℤ)
    (belongs : EventEnvelope Payload → Bool) : ℤ :=
  ((events.filter fun e => Within formats range eventType e ∧ belongs e = true).map figure).sum

/-- The sale is the seller's. -/
def soldBy (p : SellerId) (e : EventEnvelope Payload) : Bool :=
  str e.payload "sellerPartyId" = some p.1

/-- The refund is of one of the seller's orders. -/
def refundOf (sellerOf : String → SellerId) (p : SellerId) (e : EventEnvelope Payload) : Bool :=
  (str e.payload "orderId").map sellerOf = some p

/-- The seller of every sale and of every refund is one of these. -/
def Covers (sellerOf : String → SellerId) (events : List (EventEnvelope Payload))
    (sellers : Finset SellerId) : Prop :=
  ∀ e ∈ events, (e.eventType = "OrderPaid" → ∃ p ∈ sellers, soldBy p e = true) ∧
    (e.eventType = "OrderRefunded" → ∃ p ∈ sellers, refundOf sellerOf p e = true)

/-- The figures of every seller are those of the seller's events, and add up to the
platform's. -/
structure RevenueAddsUp (sellerOf : String → SellerId) (formats : Formats)
    (events : List (EventEnvelope Payload)) (range : Range) (revenue : SellerId → Revenue)
    (platform : CommerceMetrics) : Prop where
  gross : ∀ p, (revenue p).grossToman.value =
    sumOf formats range events "OrderPaid" (amount "totalToman") (soldBy p)
  paid : ∀ p, (revenue p).paidOrders.value =
    sumOf formats range events "OrderPaid" (fun _ => 1) (soldBy p)
  refunded : ∀ p, (revenue p).refundedToman.value =
    sumOf formats range events "OrderRefunded" (amount "refundAmountToman")
      (refundOf sellerOf p)
  net : ∀ p, (revenue p).grossToman.value - (revenue p).refundedToman.value =
    sumOf formats range events "OrderPaid" (amount "totalToman") (soldBy p) -
      sumOf formats range events "OrderRefunded" (amount "refundAmountToman")
        (refundOf sellerOf p)
  grossAll : ∀ sellers, Covers sellerOf events sellers →
    ∑ p ∈ sellers, (revenue p).grossToman.value = platform.grossToman.value
  paidAll : ∀ sellers, Covers sellerOf events sellers →
    ∑ p ∈ sellers, (revenue p).paidOrders.value = platform.ordersPaid.value
  refundedAll : ∀ sellers, Covers sellerOf events sellers →
    ∑ p ∈ sellers, (revenue p).refundedToman.value = platform.refundedToman.value

/-! ## What the reads add up -/

section Reads

variable {formats : Formats} {range : Range} {events : List (EventEnvelope Payload)}
  {facts : List AnalyticsEventEntity} {eventType : String} {mapping : FactMapping}
  {figure : EventEnvelope Payload → ℤ}

section

variable (hmapping : FACT_MAPPINGS.lookup eventType = some mapping)
include hmapping

theorem filter_facts (p : AnalyticsEventEntity → Bool) :
    ((events.filterMap (fact formats)).filter fun f => f.Of eventType range ∧ p f = true) =
      (events.filter fun e => Within formats range eventType e ∧
        p (factOf formats mapping e) = true).map (factOf formats mapping) := by
  induction events with
  | nil => rfl
  | cons e events ih =>
    by_cases htype : e.eventType = eventType
    · have hfact : fact formats e = some (factOf formats mapping e) := by
        rw [fact, htype, hmapping]
        rfl
      have hof : (factOf formats mapping e).Of eventType range ↔
          Within formats range eventType e := by
        rw [Within, hfact, Option.any_some, decide_eq_true_eq]
        rfl
      rw [filterMap_cons_some hfact, filter_cons, filter_cons, ih]
      simp only [hof]
      split <;> rfl
    · have hnot : ¬Within formats range eventType e := fun h => htype h.1
      rw [filter_cons, if_neg (by simp [hnot]), ← ih]
      cases hfact : fact formats e with
      | none => rw [filterMap_cons_none hfact]
      | some =>
        obtain ⟨_, -, rfl⟩ := Option.map_eq_some_iff.1 hfact
        rw [filterMap_cons_some hfact, filter_cons, if_neg]
        rw [decide_eq_true_eq]
        exact fun h => htype h.1.1

section

variable (hfacts : facts.Perm (events.filterMap (fact formats)))
include hfacts

theorem getCount_eq (p : AnalyticsEventEntity → Bool) :
    getCount facts eventType range p =
      sumOf formats range events eventType (fun _ => 1) fun e => p (factOf formats mapping e) := by
  rw [getCount, (hfacts.filter _).length_eq, filter_facts hmapping, sumOf]
  simp

theorem sumMetric_eq {field : String}
    (hmetric : mapping.metricOf = some field) (dimension : Option (String × String)) :
    sumMetric facts eventType range dimension =
      sumOf formats range events eventType (amount field) fun e => dimension.all fun d =>
        (d.1 = "" ∨ d.2 = "") ∨ (factOf formats mapping e).HasDimension d.1 d.2 := by
  rw [sumMetric, ((hfacts.filter _).map _).sum_eq, filter_facts hmapping, map_map]
  refine congrArg List.sum (map_congr_left fun e _ => ?_)
  rw [Function.comp_apply, factOf, hmetric]
  rfl

end

end

theorem hasDimension_sold {metricOf : String} {timestampOf : Option String}
    {e : EventEnvelope Payload} {value : String} :
    (factOf formats (aboutOrder metricOf timestampOf) e).HasDimension "sellerPartyId" value ↔
      str e.payload "sellerPartyId" = some value := by
  rw [AnalyticsEventEntity.HasDimension]
  dsimp only [factOf, aboutOrder, kept, map_cons, map_nil, DimensionRead.read]
  cases hsrc : str e.payload "sourceType" <;> cases hseller : str e.payload "sellerPartyId" <;>
    simp [hsrc, hseller, compact, lookup_cons, JsValue.text]

theorem sumOf_congr {b b' : EventEnvelope Payload → Bool}
    (h : ∀ e ∈ events, Within formats range eventType e → (b e = true ↔ b' e = true)) :
    sumOf formats range events eventType figure b =
      sumOf formats range events eventType figure b' := by
  refine congrArg (fun l => (List.map figure l).sum) (filter_congr fun e he => ?_)
  rw [decide_eq_decide]
  exact and_congr_right fun hw => h e he hw

theorem sumOf_eq_zero {b : EventEnvelope Payload → Bool}
    (h : ∀ e ∈ events, Within formats range eventType e → b e = true → figure e = 0) :
    sumOf formats range events eventType figure b = 0 := by
  refine sum_eq_zero fun x hx => ?_
  obtain ⟨e, he, rfl⟩ := mem_map.1 hx
  obtain ⟨he, hb⟩ := mem_filter.1 he
  rw [decide_eq_true_eq] at hb
  exact h e he hb.1 hb.2

theorem sum_sumOf {belongs : SellerId → EventEnvelope Payload → Bool} {sellers : Finset SellerId}
    (hone : ∀ e p q, belongs p e = true → belongs q e = true → p = q)
    (hcover : ∀ e ∈ events, e.eventType = eventType → ∃ p ∈ sellers, belongs p e = true) :
    ∑ p ∈ sellers, sumOf formats range events eventType figure (belongs p) =
      sumOf formats range events eventType figure fun _ => true := by
  induction events with
  | nil => simp [sumOf]
  | cons e events ih =>
    have hrest := ih fun x hx => hcover x (mem_cons_of_mem _ hx)
    have hcons : ∀ b : EventEnvelope Payload → Bool,
        sumOf formats range (e :: events) eventType figure b =
          (if Within formats range eventType e ∧ b e = true then figure e else 0) +
            sumOf formats range events eventType figure b := by
      intro b
      rw [sumOf, sumOf, filter_cons]
      by_cases h : Within formats range eventType e ∧ b e = true
      · rw [if_pos (by simpa using h), if_pos h, map_cons, sum_cons]
      · rw [if_neg (by simpa using h), if_neg h, zero_add]
    simp only [hcons, Finset.sum_add_distrib, hrest]
    congr 1
    by_cases hw : Within formats range eventType e
    · obtain ⟨p, hp, hb⟩ := hcover e mem_cons_self hw.1
      rw [if_pos ⟨hw, trivial⟩, Finset.sum_eq_single p]
      · rw [if_pos ⟨hw, hb⟩]
      · intro q _ hne
        exact if_neg fun h => hne (hone e q p h.2 hb)
      · exact fun hnot => absurd hp hnot
    · rw [if_neg fun h => hw h.1]
      exact Finset.sum_eq_zero fun q _ => if_neg fun h => hw h.1

end Reads

/-! ## Refunds -/

section Adds

variable {registry : Registry} {range : Range} {events : List (EventEnvelope Payload)}
  {facts : List AnalyticsEventEntity} {sellerOf : String → SellerId} {mapping : FactMapping}

theorem not_hasDimension_refunded {formats : Formats}
    (hmapping : FACT_MAPPINGS.lookup "OrderRefunded" = some mapping) {e : EventEnvelope Payload}
    {key value : String} : ¬(factOf formats mapping e).HasDimension key value := by
  cases hmapping
  rintro ⟨⟩

section

variable (hfacts : facts.Perm (events.filterMap (fact registry.formats)))
include hfacts

theorem sumMetric_refunded (p : SellerId) :
    sumMetric facts "OrderRefunded" range (some ("sellerPartyId", p.1)) = 0 := by
  rw [sumMetric_eq rfl hfacts rfl]
  refine sumOf_eq_zero fun e _ _ hb => ?_
  rw [Option.all_some, decide_eq_true_eq] at hb
  rcases hb with (hkey | hval) | hdim
  · exact absurd (show "sellerPartyId" = "" from hkey) (by decide)
  · exact absurd hval p.2
  · exact absurd hdim (not_hasDimension_refunded rfl)

theorem sumMetric_sold (p : SellerId) :
    sumMetric facts "OrderPaid" range (some ("sellerPartyId", p.1)) =
      sumOf registry.formats range events "OrderPaid" (amount "totalToman") (soldBy p) := by
  rw [sumMetric_eq rfl hfacts rfl]
  refine sumOf_congr fun e _ _ => ?_
  rw [Option.all_some, decide_eq_true_eq, hasDimension_sold, soldBy, decide_eq_true_eq]
  constructor
  · rintro ((hkey | hval) | h)
    · exact absurd (show "sellerPartyId" = "" from hkey) (by decide)
    · exact absurd hval p.2
    · exact h
  · exact Or.inr

theorem getCount_sold (p : SellerId) :
    getCount facts "OrderPaid" range (fun f => f.HasDimension "sellerPartyId" p.1) =
      sumOf registry.formats range events "OrderPaid" (fun _ => 1) (soldBy p) := by
  rw [getCount_eq rfl hfacts]
  refine sumOf_congr fun e _ _ => ?_
  rw [decide_eq_true_eq, hasDimension_sold, soldBy, decide_eq_true_eq]

theorem sumMetric_all
    {eventType field : String} (hmapping : FACT_MAPPINGS.lookup eventType = some mapping)
    (hmetric : mapping.metricOf = some field) :
    sumMetric facts eventType range none =
      sumOf registry.formats range events eventType (amount field) fun _ => true := by
  rw [sumMetric_eq hmapping hfacts hmetric]
  rfl

theorem countEvents_all
    {eventType : String} (hmapping : FACT_MAPPINGS.lookup eventType = some mapping) :
    countEvents facts eventType range none =
      sumOf registry.formats range events eventType (fun _ => 1) fun _ => true := by
  rw [countEvents, getCount_eq hmapping hfacts]
  rfl

end

theorem soldBy_unique (e : EventEnvelope Payload) (p q : SellerId) (hp : soldBy p e = true)
    (hq : soldBy q e = true) : p = q := by
  rw [soldBy, decide_eq_true_eq] at hp hq
  rw [hp] at hq
  exact Subtype.ext (Option.some.inj hq)

theorem refund_valid {e : EventEnvelope Payload} (h : registry.validateEnvelope e = true)
    (htype : e.eventType = "OrderRefunded") :
    (∃ o, str e.payload "orderId" = some o) ∧ 0 ≤ amount "refundAmountToman" e := by
  rw [Registry.validateEnvelope] at h
  split at h
  · rename_i contract hfind
    have hname : contract.name = "OrderRefunded" := by
      have := find?_some hfind
      rw [decide_eq_true_eq] at this
      exact this.1.trans htype
    have hcontract : contract = OrderRefunded := by
      rcases mem_append.1 (mem_of_find?_eq_some hfind) with hmem | hmem
      · simp only [COMMERCE_EVENTS, mem_cons, not_mem_nil, or_false] at hmem
        rcases hmem with rfl | rfl | rfl | rfl | rfl
        · exact absurd hname (by decide)
        · exact absurd hname (by decide)
        · exact absurd hname (by decide)
        · exact absurd hname (by decide)
        · rfl
      · exact absurd hname
          (registry.distinct contract hmem OrderRefunded (by simp [COMMERCE_EVENTS]))
    subst hcontract
    rw [EventContract.accepts, all_eq_true] at h
    constructor
    · have hid := h ("orderId", .uuid) (by simp [OrderRefunded])
      rw [str]
      split
      · rename_i s _
        exact ⟨s, rfl⟩
      · rename_i hnot
        exfalso
        unfold FieldSchema.accepts at hid
        split at hid <;> simp_all
    · have hamt := h ("refundAmountToman", .positiveToman) (by simp [OrderRefunded])
      rw [amount, num]
      split
      · rename_i n hlookup
        rw [hlookup, FieldSchema.accepts, decide_eq_true_eq] at hamt
        exact hamt
      · exact le_refl _
  · cases h

/-- A seller's figures add up, and the sellers' to the platform's, exactly when no money was
refunded in the range. -/
theorem revenueAddsUp_iff (registry : Registry) (sellerOf : String → SellerId)
    (deliveries events : List (EventEnvelope Payload)) (today : Day) (fromDay toDay : Option Day)
    (hnodup : events.Nodup) (hids : ∀ x ∈ deliveries, ∀ y ∈ deliveries, x.id = y.id → x = y)
    (hevents : ∀ e, e ∈ events ↔ e ∈ deliveries ∧ Ingestible registry e) :
    RevenueAddsUp sellerOf registry.formats events (normalizeRange today fromDay toDay)
        (fun p => (forProvider (handleAll registry [] deliveries) today p.1 fromDay toDay).revenue)
        (platformMetrics (handleAll registry [] deliveries) today fromDay toDay).commerce ↔
      ∀ e ∈ events, Within registry.formats (normalizeRange today fromDay toDay) "OrderRefunded" e →
        amount "refundAmountToman" e = 0 := by
  have hfacts := handleAll_perm hnodup hids hevents
  constructor
  · intro h e he hw
    obtain ⟨⟨o, ho⟩, -⟩ := refund_valid ((hevents e).1 he).2.1 hw.1
    -- the seller of the order has no refunds, so the sum of them is zero
    have hsum := (h.refunded (sellerOf o)).symm.trans (sumMetric_refunded hfacts (sellerOf o))
    refine all_zero_of_le_zero_le_of_sum_eq_zero ?_ hsum
      (mem_map.2 ⟨e, mem_filter.2 ⟨he, ?_⟩, rfl⟩)
    · intro x hx
      obtain ⟨e', he', rfl⟩ := mem_map.1 hx
      obtain ⟨he', hb⟩ := mem_filter.1 he'
      rw [decide_eq_true_eq] at hb
      exact (refund_valid ((hevents e').1 he').2.1 hb.1.1).2
    · rw [decide_eq_true_eq]
      refine ⟨hw, ?_⟩
      rw [refundOf, ho, decide_eq_true_eq]
      rfl
  · intro h
    have hrefs : ∀ b : EventEnvelope Payload → Bool,
        sumOf registry.formats (normalizeRange today fromDay toDay) events "OrderRefunded"
          (amount "refundAmountToman") b = 0 :=
      fun b => sumOf_eq_zero fun e he hw _ => h e he hw
    constructor
    · exact fun p => sumMetric_sold hfacts p
    · exact fun p => getCount_sold hfacts p
    · exact fun p => (sumMetric_refunded hfacts p).trans (hrefs _).symm
    · intro p
      rw [hrefs, ← sumMetric_sold hfacts p]
      exact congrArg _ (sumMetric_refunded hfacts p)
    · intro sellers hcover
      refine (Finset.sum_congr rfl fun p _ => sumMetric_sold hfacts p).trans ?_
      refine (sum_sumOf soldBy_unique fun e he => (hcover e he).1).trans ?_
      exact (sumMetric_all hfacts rfl rfl).symm
    · intro sellers hcover
      refine (Finset.sum_congr rfl fun p _ => getCount_sold hfacts p).trans ?_
      refine (sum_sumOf soldBy_unique fun e he => (hcover e he).1).trans ?_
      exact (countEvents_all hfacts rfl).symm
    · intro sellers hcover
      refine (Finset.sum_congr rfl fun p _ => sumMetric_refunded hfacts p).trans ?_
      rw [Finset.sum_const_zero]
      exact ((sumMetric_all hfacts rfl rfl).trans (hrefs _)).symm

end Adds

/-! ## One sale and its refund -/

namespace OneSale

def orderId : String := "0198f0a0-0000-7000-8000-000000000001"

/-- The other ids of the payloads. -/
def otherId : String := "0198f0a0-0000-7000-8000-000000000002"

def seller : SellerId := ⟨"0198f0a0-0000-7000-8000-000000000003", by decide⟩

/-- When the order was paid. -/
def paidAt : String := "2026-01-05T10:00:00.000Z"

/-- When it was refunded. -/
def refundedAt : String := "2026-01-06T10:00:00.000Z"

/-- The strings of the two events. -/
def formats : Formats where
  isUuid s := s ∈ [orderId, otherId, seller.1]
  isDatetime s := s ∈ [paidAt, refundedAt]
  parseDate s :=
    if s = paidAt then some 1767607200000 else if s = refundedAt then some 1767693600000 else none
  platformCalendarDay t := (t + 12600000) / 86400000

/-- The commerce contracts alone. -/
def registry : Registry where
  formats := formats
  others := []
  distinct := by simp

def paid : EventEnvelope Payload where
  id := 1
  aggregateType := "order"
  aggregateId := 1
  eventType := "OrderPaid"
  eventVersion := 1
  payload := [("orderId", .string orderId), ("sourceType", .string "booking"),
    ("sourceId", .string otherId), ("customerId", .string otherId),
    ("sellerPartyType", .string "professional"), ("sellerPartyId", .string seller.1),
    ("totalToman", .number 500000), ("currency", .string "IRT"), ("paidAt", .string paidAt)]
  occurredAt := 1767607201000

def refunded : EventEnvelope Payload where
  id := 2
  aggregateType := "order"
  aggregateId := 1
  eventType := "OrderRefunded"
  eventVersion := 1
  payload := [("orderId", .string orderId), ("refundId", .string otherId),
    ("refundAmountToman", .number 200000), ("refundedTotalToman", .number 200000),
    ("currency", .string "IRT"), ("refundedAt", .string refundedAt)]
  occurredAt := 1767693601000

/-- The day of the sale, when both events have been seen. -/
theorem saleDay :
    RevenueAddsUp (fun _ => seller) formats [paid, refunded]
      (normalizeRange 20459 (some 20458) (some 20458))
      (fun p => (forProvider (handleAll registry [] [refunded, paid, paid]) 20459 p.1
        (some 20458) (some 20458)).revenue)
      (platformMetrics (handleAll registry [] [refunded, paid, paid]) 20459
        (some 20458) (some 20458)).commerce := by
  refine (revenueAddsUp_iff registry (fun _ => seller) [refunded, paid, paid] [paid, refunded]
    20459 (some 20458) (some 20458) (by decide +kernel) (by decide +kernel) ?_).2
    (by decide +kernel)
  intro e
  constructor
  · intro he
    rcases mem_cons.1 he with rfl | he
    · exact ⟨by simp, by decide +kernel⟩
    · rw [mem_singleton.1 he]
      exact ⟨by simp, by decide +kernel⟩
  · rintro ⟨he, -⟩
    rcases mem_cons.1 he with rfl | he
    · simp
    · rcases mem_cons.1 he with rfl | he
      · simp
      · rw [mem_singleton.1 he]
        simp

end OneSale

/-- Half a million was sold and two fifths of it refunded; the seller's refunds read zero. -/
theorem revenueAddsUp_refund_fails :
    ¬RevenueAddsUp (fun _ => OneSale.seller) OneSale.formats [OneSale.paid, OneSale.refunded]
      (normalizeRange 20459 none none)
      (fun p => (forProvider
        (handleAll OneSale.registry [] [OneSale.paid, OneSale.refunded]) 20459 p.1 none
          none).revenue)
      (platformMetrics (handleAll OneSale.registry [] [OneSale.paid, OneSale.refunded]) 20459 none
        none).commerce := by
  intro h
  have hread : (forProvider
      (handleAll OneSale.registry [] [OneSale.paid, OneSale.refunded]) 20459
        OneSale.seller.1 none none).revenue.refundedToman.value = 0 := by
    decide +kernel
  have := (h.refunded OneSale.seller).symm.trans hread
  exact absurd this (by decide)

end BeauClick.Analytics
