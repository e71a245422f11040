import BeauClick.Analytics.Metrics
import BeauClick.Lib.Derived
import BeauClick.Lib.Grouped
import BeauClick.Lib.Upsert

/-!
# Daily rollups

`services/analytics/src/rollup.service.ts`, and `dailySeries` of `metrics.service.ts`.  A rollup
counts the facts of one type by day, for the platform and for each professional or seller, and
keeps the figures in the table of daily metrics.

What reads and writes a `uuid` column is the database's: `UuidColumn`.
-/

namespace BeauClick.Analytics

open Delivery Derived Events Grouped Upsert List

/-! ## Definitions of the rollups -/

/-- How the column type `uuid` reads a text, and how it is cast to one. -/
structure UuidColumn (formats : Formats) where
  read : String → Uuid
  text : Uuid → String
  read_text : ∀ id, read (text id) = id
  not_empty : formats.isUuid "" = false

/-- Whose series a rollup is. -/
inductive ScopeBy where
  | provider_subject | seller_dimension
  deriving DecidableEq

/-- An entry of `ROLLUPS`. -/
structure RollupDefinition where
  metricKey : String
  eventType : String
  kind : MetricKind := .event_derived
  scopeBy : Option ScopeBy := none

/-- The series that are kept by day. -/
def ROLLUPS : List RollupDefinition := [
  { metricKey := "bookings_created", eventType := "BookingCreated",
    scopeBy := some .provider_subject },
  { metricKey := "bookings_completed", eventType := "BookingCompleted",
    scopeBy := some .provider_subject },
  { metricKey := "bookings_cancelled", eventType := "BookingCancelled",
    scopeBy := some .provider_subject },
  { metricKey := "profile_views", eventType := "ProviderProfileViewed",
    scopeBy := some .provider_subject },
  { metricKey := "orders_paid", eventType := "OrderPaid", scopeBy := some .seller_dimension },
  { metricKey := "searches", eventType := "SearchPerformed" },
  { metricKey := "notifications_sent", eventType := "NotificationSent" },
  { metricKey := "loyalty_points_earned", eventType := "LoyaltyPointsEarned" }]

/-- How many past days each run recomputes. -/
def LOOKBACK_DAYS : ℤ := 3

def PLATFORM_SCOPE_TYPE : String := ""

/-- The null uuid stands for the platform. -/
def PLATFORM_SCOPE_ID : String := "00000000-0000-0000-0000-000000000000"

/-! ## The table -/

/-- What is counted of some facts. -/
structure Figures where
  countValue : ℕ
  sumValue : ℤ
  distinctActors : ℕ
  deriving DecidableEq

/-- The primary key of a daily metric. -/
structure MetricIdentity where
  metricKey : String
  metricDay : Day
  scopeType : String
  scopeId : Uuid
  deriving DecidableEq

/-- A row of `daily_metrics`. -/
structure DailyMetricEntity where
  identity : MetricIdentity
  metricKind : MetricKind
  figures : Figures

section Runs

variable {formats : Formats} (column : UuidColumn formats)

/-- `COUNT(*)`, `COALESCE(SUM(e.metric_value), 0)` and `COUNT(DISTINCT e.actor_id)`.  A sum goes
through `Number` on its way to the rollup, which keeps it up to `2 ^ 53`. -/
def aggregate (facts : List AnalyticsEventEntity) : Figures where
  countValue := facts.length
  sumValue := (facts.map fun f => f.metricValue.getD 0).sum
  distinctActors := ((facts.filterMap (·.actorId)).map column.read).dedup.length

/-- `scopeExpression`: `subject_id::text`, or `dimensions ->> 'sellerPartyId'`. -/
def scopeExpression (f : AnalyticsEventEntity) : ScopeBy → Option String
  | .provider_subject => f.subjectId.map fun id => column.text (column.read id)
  | .seller_dimension => (f.dimensions.lookup "sellerPartyId").bind JsValue.text

/-- The rows of the platform, one of each day. -/
def platformRows (facts : List AnalyticsEventEntity) (rollup : RollupDefinition) (range : Range) :
    List DailyMetricEntity :=
  (groupBy (·.occurredOn) (facts.filter fun f => f.Of rollup.eventType range)).map fun g =>
    { identity := ⟨rollup.metricKey, g.1, PLATFORM_SCOPE_TYPE, column.read PLATFORM_SCOPE_ID⟩
      metricKind := rollup.kind
      figures := aggregate column g.2 }

/-- The rows of the scopes, one of each day and text. -/
def scopedRows (facts : List AnalyticsEventEntity) (rollup : RollupDefinition) (scopeBy : ScopeBy)
    (range : Range) : List DailyMetricEntity :=
  (groupBy (fun f => (f.occurredOn, scopeExpression column f scopeBy)) (facts.filter fun f =>
      f.Of rollup.eventType range ∧ (scopeExpression column f scopeBy).isSome = true)).map fun g =>
    { identity := ⟨rollup.metricKey, g.1.1, "provider", column.read (g.1.2.getD "")⟩
      metricKind := rollup.kind
      figures := aggregate column g.2 }

/-- One series over a range, a row for each day and scope. -/
def computeRollup (facts : List AnalyticsEventEntity) (range : Range)
    (metrics : List DailyMetricEntity) (rollup : RollupDefinition) : List DailyMetricEntity :=
  let written := upsertAll (·.identity) metrics (platformRows column facts rollup range)
  match rollup.scopeBy with
  | none => written
  | some scopeBy => upsertAll (·.identity) written (scopedRows column facts rollup scopeBy range)

/-- Every series over a range. -/
def runRange (facts : List AnalyticsEventEntity) (metrics : List DailyMetricEntity)
    (range : Range) : List DailyMetricEntity :=
  ROLLUPS.foldl (computeRollup column facts range) metrics

/-- Every series over the days looked back on. -/
def runRecent (facts : List AnalyticsEventEntity) (metrics : List DailyMetricEntity)
    (today : Day) : List DailyMetricEntity :=
  runRange column facts metrics ⟨today - LOOKBACK_DAYS, today⟩

/-! ## Series -/

/-- One day of a series. -/
structure SeriesPoint where
  day : Day
  count : ℕ
  sum : ℤ
  deriving DecidableEq

/-- The argument `scope` of `readSeries`. -/
structure SeriesScope where
  type : String
  id : String

/-- The rows of a series, by day. -/
def readSeries (metrics : List DailyMetricEntity) (metricKey : String) (range : Range)
    (scope : Option SeriesScope) : List SeriesPoint :=
  let rows := orderBy (·.identity.metricDay) (metrics.filter fun r =>
    r.identity.metricKey = metricKey ∧
      r.identity.scopeType = (scope.map (·.type)).getD PLATFORM_SCOPE_TYPE ∧
      r.identity.scopeId = column.read ((scope.map (·.id)).getD PLATFORM_SCOPE_ID))
  (rows.filter fun r => range.Contains r.identity.metricDay).map fun r =>
    ⟨r.identity.metricDay, r.figures.countValue, r.figures.sumValue⟩

/-- `subject_type = 'provider' AND subject_id = :sid`, when there is a subject. -/
def OfSubject (subjectId : Option String) (f : AnalyticsEventEntity) : Prop :=
  ∀ id ∈ subjectId, id = "" ∨
    f.subjectType = some .provider ∧ f.subjectId.map column.read = some (column.read id)

instance (subjectId : Option String) (f : AnalyticsEventEntity) :
    Decidable (OfSubject column subjectId f) := by
  unfold OfSubject
  infer_instance

/-- A series straight from the facts. -/
def dailySeries (facts : List AnalyticsEventEntity) (today : Day) (eventType : String)
    (fromDay toDay : Option Day) (subjectId : Option String) : List SeriesPoint :=
  let range := normalizeRange today fromDay toDay
  (orderBy Prod.fst (groupBy (·.occurredOn) (facts.filter fun f =>
      f.Of eventType range ∧ OfSubject column subjectId f))).map fun g =>
    ⟨g.1, (aggregate column g.2).countValue, (aggregate column g.2).sumValue⟩

/-! ## Runs -/

/-- The facts and the rollups. -/
structure AnalyticsStore where
  facts : List AnalyticsEventEntity
  metrics : List DailyMetricEntity

/-- An ingestion, or a recomputation of some days. -/
inductive AnalyticsOp where
  | handle (envelope : EventEnvelope Payload)
  | runRecent (today : Day)
  | runRange (range : Range)

end Runs

def analyticsStep (registry : Registry) (column : UuidColumn registry.formats)
    (s : AnalyticsStore) : AnalyticsOp → AnalyticsStore
  | .handle envelope => { s with facts := handle registry s.facts envelope }
  | .runRecent today => { s with metrics := Analytics.runRecent column s.facts s.metrics today }
  | .runRange range => { s with metrics := Analytics.runRange column s.facts s.metrics range }

/-- The tables after operations. -/
def analyticsAfter (registry : Registry) (column : UuidColumn registry.formats)
    (ops : List AnalyticsOp) : AnalyticsStore :=
  after (analyticsStep registry column) ⟨[], []⟩ ops

/-! ## What the facts call for -/

section Expected

variable {formats : Formats} (column : UuidColumn formats)

/-- The fact counts for the scope. -/
def InScope (rollup : RollupDefinition) (scopeType : String) (scopeId : Uuid)
    (f : AnalyticsEventEntity) : Prop :=
  (scopeType = PLATFORM_SCOPE_TYPE ∧ scopeId = column.read PLATFORM_SCOPE_ID) ∨
    (scopeType = "provider" ∧
      (rollup.scopeBy.bind (scopeExpression column f)).map column.read = some scopeId)
  deriving Decidable

/-- The facts of a type, day and scope. -/
def factsOf (facts : List AnalyticsEventEntity) (rollup : RollupDefinition) (day : Day)
    (scopeType : String) (scopeId : Uuid) : List AnalyticsEventEntity :=
  facts.filter fun f =>
    f.eventType = rollup.eventType ∧ f.occurredOn = day ∧ InScope column rollup scopeType scopeId f

/-- The row that the facts call for; there is none where there are no facts. -/
def expected (facts : List AnalyticsEventEntity) (rollup : RollupDefinition) (day : Day)
    (scopeType : String) (scopeId : Uuid) : Option DailyMetricEntity :=
  if factsOf column facts rollup day scopeType scopeId = [] then none
  else some
    { identity := ⟨rollup.metricKey, day, scopeType, scopeId⟩
      metricKind := rollup.kind
      figures := aggregate column (factsOf column facts rollup day scopeType scopeId) }

/-- The stored rows of a day are those that the facts call for. -/
def Exact (s : AnalyticsStore) (day : Day) : Prop :=
  ∀ rollup ∈ ROLLUPS, ∀ scopeType scopeId,
    rowAt (·.identity) s.metrics ⟨rollup.metricKey, day, scopeType, scopeId⟩ =
      expected column s.facts rollup day scopeType scopeId

/-- Paid orders spell a seller's id in one way. -/
def SpelledAlike (facts : List AnalyticsEventEntity) : Prop :=
  ∀ f ∈ facts, ∀ g ∈ facts, f.eventType = "OrderPaid" → g.eventType = "OrderPaid" →
    ∀ x ∈ scopeExpression column f .seller_dimension,
      ∀ y ∈ scopeExpression column g .seller_dimension, column.read x = column.read y → x = y

instance (facts : List AnalyticsEventEntity) : Decidable (SpelledAlike column facts) := by
  unfold SpelledAlike
  infer_instance

/-- An id is unique among the daily metrics, and each of them stands for facts. -/
structure Backed (s : AnalyticsStore) : Prop where
  unique : (s.metrics.map (·.identity)).Nodup
  counts : ∀ r ∈ s.metrics, ∃ rollup ∈ ROLLUPS, r.identity.metricKey = rollup.metricKey ∧
    factsOf column s.facts rollup r.identity.metricDay r.identity.scopeType r.identity.scopeId ≠ []

end Expected

/-! ## One run -/

section OneRun

variable {formats : Formats} {column : UuidColumn formats} {facts : List AnalyticsEventEntity}
  {metrics : List DailyMetricEntity} {rollup rollup' : RollupDefinition} {range : Range}
  {r : DailyMetricEntity} {day : Day} {scopeType : String} {scopeId : Uuid}
  {f : AnalyticsEventEntity} {scopeBy : ScopeBy}

/-- The rows that a rollup writes. -/
def rowsOf (column : UuidColumn formats) (facts : List AnalyticsEventEntity)
    (rollup : RollupDefinition) (range : Range) : List DailyMetricEntity :=
  platformRows column facts rollup range ++
    match rollup.scopeBy with
    | none => []
    | some scopeBy => scopedRows column facts rollup scopeBy range

theorem computeRollup_eq : computeRollup column facts range metrics rollup =
    upsertAll (·.identity) metrics (rowsOf column facts rollup range) := by
  rw [computeRollup, rowsOf, upsertAll_append]
  cases rollup.scopeBy <;> rfl

theorem runRange_eq : runRange column facts metrics range =
    upsertAll (·.identity) metrics (ROLLUPS.flatMap fun rollup =>
      rowsOf column facts rollup range) := by
  rw [runRange]
  generalize ROLLUPS = rollups
  induction rollups generalizing metrics with
  | nil => rfl
  | cons rollup rollups ih =>
    rw [foldl_cons, flatMap_cons, upsertAll_append, ih, computeRollup_eq]

theorem rollup_eq_of_metricKey (h : rollup ∈ ROLLUPS) (h' : rollup' ∈ ROLLUPS)
    (heq : rollup.metricKey = rollup'.metricKey) : rollup = rollup' :=
  inj_on_of_nodup_map (by decide : (ROLLUPS.map (·.metricKey)).Nodup) h h' heq

theorem mem_factsOf : f ∈ factsOf column facts rollup day scopeType scopeId ↔
    f ∈ facts ∧ f.eventType = rollup.eventType ∧ f.occurredOn = day ∧
      InScope column rollup scopeType scopeId f := by
  rw [factsOf, mem_filter, decide_eq_true_iff]

theorem mem_platformRows : r ∈ platformRows column facts rollup range ↔
    ∃ f ∈ facts, f.Of rollup.eventType range ∧ r =
      { identity := ⟨rollup.metricKey, f.occurredOn, PLATFORM_SCOPE_TYPE,
          column.read PLATFORM_SCOPE_ID⟩
        metricKind := rollup.kind
        figures := aggregate column (factsOf column facts rollup f.occurredOn PLATFORM_SCOPE_TYPE
          (column.read PLATFORM_SCOPE_ID)) } := by
  have hgroup : ∀ f : AnalyticsEventEntity, f.Of rollup.eventType range →
      (facts.filter fun f => f.Of rollup.eventType range).filter
        (fun g => g.occurredOn = f.occurredOn) =
      factsOf column facts rollup f.occurredOn PLATFORM_SCOPE_TYPE
        (column.read PLATFORM_SCOPE_ID) := by
    intro f hf
    rw [filter_filter]
    refine filter_congr ?_
    intro g _
    have hscope : InScope column rollup PLATFORM_SCOPE_TYPE (column.read PLATFORM_SCOPE_ID) g :=
      Or.inl ⟨rfl, rfl⟩
    rw [← Bool.decide_and, decide_eq_decide]
    constructor
    · rintro ⟨hday, htype, -⟩
      exact ⟨htype, hday, hscope⟩
    · rintro ⟨htype, hday, -⟩
      exact ⟨hday, htype, hday ▸ hf.2⟩
  rw [platformRows, mem_map]
  constructor
  · rintro ⟨_, hg, rfl⟩
    obtain ⟨f, hf, rfl⟩ := mem_groupBy.1 hg
    obtain ⟨hmem, hof⟩ := mem_filter.1 hf
    have hof := of_decide_eq_true hof
    exact ⟨f, hmem, hof, by rw [hgroup f hof]⟩
  · rintro ⟨f, hmem, hof, rfl⟩
    refine ⟨_, mem_groupBy.2 ⟨f, mem_filter.2 ⟨hmem, decide_eq_true hof⟩, rfl⟩, ?_⟩
    rw [hgroup f hof]

theorem mem_scopedRows :
    r ∈ scopedRows column facts rollup scopeBy range ↔
      ∃ f ∈ facts, f.Of rollup.eventType range ∧
        ∃ text, scopeExpression column f scopeBy = some text ∧ r =
          { identity := ⟨rollup.metricKey, f.occurredOn, "provider", column.read text⟩
            metricKind := rollup.kind
            figures := aggregate column (facts.filter fun g => g.eventType = rollup.eventType ∧
              g.occurredOn = f.occurredOn ∧ scopeExpression column g scopeBy = some text) } := by
  have hgroup : ∀ (f : AnalyticsEventEntity) (text : String), f.Of rollup.eventType range →
      scopeExpression column f scopeBy = some text →
      (facts.filter fun f => f.Of rollup.eventType range ∧
        (scopeExpression column f scopeBy).isSome = true).filter (fun g =>
          (g.occurredOn, scopeExpression column g scopeBy) =
            (f.occurredOn, scopeExpression column f scopeBy)) =
      facts.filter fun g => g.eventType = rollup.eventType ∧
        g.occurredOn = f.occurredOn ∧ scopeExpression column g scopeBy = some text := by
    intro f text hf htext
    rw [filter_filter, htext]
    refine filter_congr ?_
    intro g _
    rw [← Bool.decide_and, decide_eq_decide, Prod.mk.injEq]
    constructor
    · rintro ⟨⟨hday, hscope⟩, hof, -⟩
      exact ⟨hof.1, hday, hscope⟩
    · rintro ⟨htype, hday, hscope⟩
      exact ⟨⟨hday, hscope⟩, ⟨htype, hday ▸ hf.2⟩, by rw [hscope]; rfl⟩
  rw [scopedRows, mem_map]
  constructor
  · rintro ⟨_, hg, rfl⟩
    obtain ⟨f, hf, rfl⟩ := mem_groupBy.1 hg
    obtain ⟨hmem, hof⟩ := mem_filter.1 hf
    obtain ⟨hof, hsome⟩ := of_decide_eq_true hof
    obtain ⟨text, htext⟩ := Option.isSome_iff_exists.1 hsome
    refine ⟨f, hmem, hof, text, htext, ?_⟩
    rw [hgroup f text hof htext, htext, Option.getD_some]
  · rintro ⟨f, hmem, hof, text, htext, rfl⟩
    refine ⟨_, mem_groupBy.2 ⟨f, mem_filter.2 ⟨hmem, decide_eq_true ⟨hof, ?_⟩⟩, rfl⟩, ?_⟩
    · rw [htext]
      rfl
    · rw [hgroup f text hof htext, htext, Option.getD_some]

theorem text_unique {g : AnalyticsEventEntity} {x y : String} (hspelled : SpelledAlike column facts)
    (hrollup : rollup ∈ ROLLUPS) (hby : rollup.scopeBy = some scopeBy) (hf : f ∈ facts)
    (hg : g ∈ facts) (hftype : f.eventType = rollup.eventType)
    (hgtype : g.eventType = rollup.eventType) (hx : scopeExpression column f scopeBy = some x)
    (hy : scopeExpression column g scopeBy = some y) (heq : column.read x = column.read y) :
    x = y := by
  cases scopeBy with
  | provider_subject =>
    obtain ⟨_, -, rfl⟩ := Option.map_eq_some_iff.1 hx
    obtain ⟨_, -, rfl⟩ := Option.map_eq_some_iff.1 hy
    rw [column.read_text, column.read_text] at heq
    rw [heq]
  | seller_dimension =>
    have hpaid : rollup.eventType = "OrderPaid" := by
      have hall : ∀ rollup ∈ ROLLUPS, rollup.scopeBy = some .seller_dimension →
          rollup.eventType = "OrderPaid" := by
        simp [ROLLUPS]
      exact hall rollup hrollup hby
    exact hspelled f hf g hg (hftype.trans hpaid) (hgtype.trans hpaid) x hx y hy heq

theorem group_eq_factsOf {text : String} (hspelled : SpelledAlike column facts)
    (hrollup : rollup ∈ ROLLUPS) (hby : rollup.scopeBy = some scopeBy) (hf : f ∈ facts)
    (hftype : f.eventType = rollup.eventType)
    (htext : scopeExpression column f scopeBy = some text) :
    (facts.filter fun g => g.eventType = rollup.eventType ∧ g.occurredOn = day ∧
      scopeExpression column g scopeBy = some text) =
      factsOf column facts rollup day "provider" (column.read text) := by
  refine filter_congr ?_
  intro g hg
  rw [decide_eq_decide]
  refine and_congr_right fun hgtype => and_congr_right fun _ => ?_
  rw [InScope, hby, Option.bind_some]
  constructor
  · intro h
    exact Or.inr ⟨rfl, by rw [h]; rfl⟩
  · rintro (⟨hscope, -⟩ | ⟨-, h⟩)
    · exact absurd hscope (by decide)
    obtain ⟨_, hy, hread⟩ := Option.map_eq_some_iff.1 h
    rw [hy, text_unique hspelled hrollup hby hg hf hgtype hftype hy htext hread]

theorem expected_eq_some : expected column facts rollup day scopeType scopeId = some r ↔
    (∃ f ∈ facts, f.eventType = rollup.eventType ∧ f.occurredOn = day ∧
      InScope column rollup scopeType scopeId f) ∧ r =
        { identity := ⟨rollup.metricKey, day, scopeType, scopeId⟩
          metricKind := rollup.kind
          figures := aggregate column (factsOf column facts rollup day scopeType scopeId) } := by
  have hne : factsOf column facts rollup day scopeType scopeId ≠ [] ↔
      ∃ f ∈ facts, f.eventType = rollup.eventType ∧ f.occurredOn = day ∧
        InScope column rollup scopeType scopeId f := by
    constructor
    · intro h
      obtain ⟨f, hf⟩ := exists_mem_of_ne_nil _ h
      exact ⟨f, mem_factsOf.1 hf⟩
    · rintro ⟨_, hf⟩
      exact ne_nil_of_mem (mem_factsOf.2 hf)
  rw [← hne, expected]
  split
  · rename_i hnil
    exact iff_of_false (Option.some_ne_none r).symm fun h => h.1 hnil
  · rename_i hsome
    rw [Option.some.injEq, eq_comm, and_iff_right hsome]

theorem mem_rowsOf (hspelled : SpelledAlike column facts) (hrollup : rollup ∈ ROLLUPS) :
    r ∈ rowsOf column facts rollup range ↔ range.Contains r.identity.metricDay ∧
      expected column facts rollup r.identity.metricDay r.identity.scopeType r.identity.scopeId =
        some r := by
  rw [rowsOf, mem_append, expected_eq_some]
  constructor
  · rintro (h | h)
    · obtain ⟨f, hf, hof, rfl⟩ := mem_platformRows.1 h
      exact ⟨hof.2, ⟨f, hf, hof.1, rfl, Or.inl ⟨rfl, rfl⟩⟩, rfl⟩
    · cases hby : rollup.scopeBy with
      | none =>
        rw [hby] at h
        cases h
      | some =>
        rw [hby] at h
        obtain ⟨f, hf, hof, text, htext, rfl⟩ := mem_scopedRows.1 h
        refine ⟨hof.2, ⟨f, hf, hof.1, rfl, Or.inr ⟨rfl, ?_⟩⟩, ?_⟩
        · rw [hby, Option.bind_some, htext]
          rfl
        · rw [group_eq_factsOf hspelled hrollup hby hf hof.1 htext]
  · rintro ⟨hrange, ⟨f, hf, htype, hday, hscope⟩, hr⟩
    have hof : f.Of rollup.eventType range := ⟨htype, hday ▸ hrange⟩
    rcases hscope with ⟨hplatform, hid⟩ | ⟨hprov, hid⟩
    · left
      rw [hplatform, hid, ← hday] at hr
      exact mem_platformRows.2 ⟨f, hf, hof, hr⟩
    · right
      obtain ⟨text, hbind, hread⟩ := Option.map_eq_some_iff.1 hid
      obtain ⟨_, hby, htext⟩ := Option.bind_eq_some_iff.1 hbind
      rw [hprov, ← hread, ← hday] at hr
      rw [hby]
      refine mem_scopedRows.2 ⟨f, hf, hof, text, htext, ?_⟩
      rw [group_eq_factsOf hspelled hrollup hby hf hof.1 htext]
      exact hr

theorem metricKey_of_expected (h : expected column facts rollup day scopeType scopeId = some r) :
    r.identity = ⟨rollup.metricKey, day, scopeType, scopeId⟩ := by
  rw [(expected_eq_some.1 h).2]

section

variable (hspelled : SpelledAlike column facts)
include hspelled

theorem mem_rows :
    r ∈ (ROLLUPS.flatMap fun rollup => rowsOf column facts rollup range) ↔
      ∃ rollup ∈ ROLLUPS, range.Contains r.identity.metricDay ∧
        expected column facts rollup r.identity.metricDay r.identity.scopeType
          r.identity.scopeId = some r := by
  rw [mem_flatMap]
  refine exists_congr fun rollup => and_congr_right fun hrollup => ?_
  exact mem_rowsOf hspelled hrollup

theorem exact_runRange (hbacked : Backed column ⟨facts, metrics⟩) (hday : range.Contains day) :
    Exact column ⟨facts, runRange column facts metrics range⟩ day := by
  intro rollup hrollup scopeType scopeId
  rw [runRange_eq]
  cases hexp : expected column facts rollup day scopeType scopeId with
  | some =>
    have hid := metricKey_of_expected hexp
    rw [← hid]
    refine rowAt_upsertAll_of_mem ((mem_rows hspelled).2 ⟨rollup, hrollup, ?_⟩) ?_
    · rw [hid]
      exact ⟨hday, hexp⟩
    · intro r' hr' heq
      obtain ⟨rollup', hrollup', -, hexp'⟩ := (mem_rows hspelled).1 hr'
      have hid' := metricKey_of_expected hexp'
      obtain rfl : rollup' = rollup := by
        refine rollup_eq_of_metricKey hrollup' hrollup ?_
        exact congrArg MetricIdentity.metricKey (hid'.symm.trans (heq.trans hid))
      rw [heq, hid, hexp] at hexp'
      exact (Option.some.inj hexp').symm
  | none =>
    have hnone : ∀ rollup' ∈ ROLLUPS, rollup'.metricKey = rollup.metricKey →
        expected column facts rollup' day scopeType scopeId = none := by
      intro rollup' hrollup' hkey
      rw [rollup_eq_of_metricKey hrollup' hrollup hkey, hexp]
    rw [rowAt_upsertAll_of_notMem]
    · rw [rowAt, find?_eq_none]
      intro r hr heq
      obtain ⟨rollup', hrollup', hkey, hfacts⟩ := hbacked.counts r hr
      rw [of_decide_eq_true heq] at hkey hfacts
      have := hnone rollup' hrollup' hkey.symm
      rw [expected, if_neg hfacts] at this
      cases this
    · intro r hr heq
      obtain ⟨rollup', hrollup', -, hexp'⟩ := (mem_rows hspelled).1 hr
      have hid' := metricKey_of_expected hexp'
      rw [heq] at hid' hexp'
      rw [hnone rollup' hrollup' (congrArg MetricIdentity.metricKey hid').symm] at hexp'
      cases hexp'

theorem exact_runRange_of_not (hday : ¬range.Contains day) (h : Exact column ⟨facts, metrics⟩ day) :
    Exact column ⟨facts, runRange column facts metrics range⟩ day := by
  intro rollup hrollup scopeType scopeId
  refine Eq.trans ?_ (h rollup hrollup scopeType scopeId)
  rw [runRange_eq]
  refine rowAt_upsertAll_of_notMem ?_
  intro r hr heq
  obtain ⟨_, -, hrange, -⟩ := (mem_rows hspelled).1 hr
  rw [heq] at hrange
  exact hday hrange

theorem backed_runRange (h : Backed column ⟨facts, metrics⟩) :
    Backed column ⟨facts, runRange column facts metrics range⟩ := by
  refine ⟨?_, ?_⟩
  · rw [runRange_eq]
    exact nodup_upsertAll h.unique
  · intro r hr
    rw [runRange_eq] at hr
    rcases mem_upsertAll hr with hr | hr
    · obtain ⟨rollup, hrollup, -, hexp⟩ := (mem_rows hspelled).1 hr
      refine ⟨rollup, hrollup, congrArg MetricIdentity.metricKey
        (metricKey_of_expected hexp), ?_⟩
      intro hnil
      rw [expected, if_pos hnil] at hexp
      cases hexp
    · exact h.counts r hr

end

theorem runRange_of_exact {s : AnalyticsStore} (hspelled : SpelledAlike column s.facts)
    (h : ∀ day, Exact column s day) : runRange column s.facts s.metrics range = s.metrics := by
  rw [runRange_eq]
  refine upsertAll_of_rowAt ?_
  intro r hr
  obtain ⟨rollup, hrollup, -, hexp⟩ := (mem_rows hspelled).1 hr
  have hrow := h r.identity.metricDay rollup hrollup r.identity.scopeType r.identity.scopeId
  rw [← metricKey_of_expected hexp] at hrow
  exact hrow.trans hexp

end OneRun

/-! ## Whole runs -/

section WholeRuns

variable {registry : Registry} {column : UuidColumn registry.formats} {s : AnalyticsStore}
  {ops : List AnalyticsOp} {op : AnalyticsOp} {envelope : EventEnvelope Payload} {day : Day}
  {f : AnalyticsEventEntity}

/-- The operation records a fact of the day. -/
def Records (registry : Registry) (column : UuidColumn registry.formats) (s : AnalyticsStore)
    (op : AnalyticsOp) (day : Day) : Prop :=
  ∃ f, (analyticsStep registry column s op).facts = s.facts ++ [f] ∧ f.occurredOn = day

/-- The operation is a `runRecent` on a day that looks back to the day. -/
def LooksBack : AnalyticsOp → Day → Prop
  | .runRecent today, day => today - LOOKBACK_DAYS ≤ day ∧ day ≤ today
  | _, _ => False

instance (op : AnalyticsOp) (day : Day) : Decidable (LooksBack op day) :=
  match op with
  | .runRecent _ => inferInstanceAs (Decidable (_ ∧ _))
  | .handle _ => inferInstanceAs (Decidable False)
  | .runRange _ => inferInstanceAs (Decidable False)

theorem handle_cases (facts : List AnalyticsEventEntity) (envelope : EventEnvelope Payload) :
    handle registry facts envelope = facts ∨
      ∃ f ∈ validFact registry envelope, handle registry facts envelope = facts ++ [f] := by
  rw [handle_eq_receive, receive]
  cases hfact : validFact registry envelope with
  | none => exact Or.inl rfl
  | some f =>
    dsimp only [insertOnce]
    split
    · exact Or.inl rfl
    · exact Or.inr ⟨f, rfl, rfl⟩

theorem facts_step (registry : Registry) (column : UuidColumn registry.formats)
    (s : AnalyticsStore) (op : AnalyticsOp) :
    (analyticsStep registry column s op).facts = s.facts ∨
      ∃ f, (∃ e, f ∈ validFact registry e) ∧
        (analyticsStep registry column s op).facts = s.facts ++ [f] := by
  cases op with
  | handle envelope =>
    rcases handle_cases s.facts envelope with h | ⟨f, hf, h⟩
    · exact Or.inl h
    · exact Or.inr ⟨f, ⟨envelope, hf⟩, h⟩
  | runRecent | runRange => exact Or.inl rfl

theorem facts_subset_step : s.facts ⊆ (analyticsStep registry column s op).facts := by
  rcases facts_step registry column s op with h | ⟨f, -, h⟩
  · rw [h]
    exact fun _ h => h
  · rw [h]
    exact subset_append_left s.facts [f]

theorem facts_subset_after (s : AnalyticsStore) :
    s.facts ⊆ (after (analyticsStep registry column) s ops).facts := by
  induction ops generalizing s with
  | nil => exact fun _ h => h
  | cons op ops ih => exact fun f hf => ih _ (facts_subset_step hf)

theorem valid_of_mem (h : f ∈ (analyticsAfter registry column ops).facts) :
    ∃ e, f ∈ validFact registry e := by
  induction ops using List.reverseRecOn with
  | nil => cases h
  | append_singleton ops op ih =>
    rw [analyticsAfter, after_append] at h
    rcases facts_step registry column
      (after (analyticsStep registry column) ⟨[], []⟩ ops) op with hstep | ⟨g, hg, hstep⟩
    · exact ih (hstep ▸ h)
    · have h : f ∈ (analyticsStep registry column
        (after (analyticsStep registry column) ⟨[], []⟩ ops) op).facts := h
      rw [hstep] at h
      rcases mem_append.1 h with h | h
      · exact ih h
      · rw [mem_singleton.1 h]
        exact hg

theorem SpelledAlike.mono {facts facts' : List AnalyticsEventEntity}
    (h : SpelledAlike column facts) (hsub : facts' ⊆ facts) : SpelledAlike column facts' :=
  fun f hf g hg => h f (hsub hf) g (hsub hg)

theorem factsOf_append {facts : List AnalyticsEventEntity} {rollup : RollupDefinition}
    {scopeType : String} {scopeId : Uuid} : factsOf column (facts ++ [f]) rollup day scopeType
      scopeId = factsOf column facts rollup day scopeType scopeId ++
        factsOf column [f] rollup day scopeType scopeId := filter_append ..

theorem exact_of_other (hne : f.occurredOn ≠ day) (h : Exact column s day) :
    Exact column { s with facts := s.facts ++ [f] } day := by
  intro rollup hrollup scopeType scopeId
  have hsame : factsOf column (s.facts ++ [f]) rollup day scopeType scopeId =
      factsOf column s.facts rollup day scopeType scopeId := by
    have hnil : factsOf column [f] rollup day scopeType scopeId = [] := by
      refine filter_eq_nil_iff.2 ?_
      intro g hg hcounts
      rw [mem_singleton.1 hg] at hcounts
      exact hne (of_decide_eq_true hcounts).2.1
    rw [factsOf_append, hnil, append_nil]
  refine (h rollup hrollup scopeType scopeId).trans ?_
  rw [expected, expected, hsame]

theorem backed_step (hspelled : SpelledAlike column s.facts) (h : Backed column s) :
    Backed column (analyticsStep registry column s op) := by
  cases op with
  | handle envelope =>
    refine ⟨h.unique, ?_⟩
    intro r hr
    obtain ⟨rollup, hrollup, hkey, hfacts⟩ := h.counts r hr
    refine ⟨rollup, hrollup, hkey, ?_⟩
    show factsOf column (handle registry s.facts envelope) rollup _ _ _ ≠ []
    rcases handle_cases s.facts envelope with hsame | ⟨_, -, hnew⟩
    · rwa [hsame]
    · rw [hnew, factsOf_append]
      exact append_ne_nil_of_left_ne_nil hfacts _
  | runRecent | runRange => exact backed_runRange hspelled h

theorem exact_step (hspelled : SpelledAlike column s.facts) (hbacked : Backed column s)
    (hnot : ¬Records registry column s op day) (h : Exact column s day) :
    Exact column (analyticsStep registry column s op) day := by
  have hrun : ∀ range, Exact column ⟨s.facts, runRange column s.facts s.metrics range⟩ day := by
    intro range
    by_cases hday : range.Contains day
    · exact exact_runRange hspelled hbacked hday
    · exact exact_runRange_of_not hspelled hday h
  cases op with
  | handle envelope =>
    rcases handle_cases s.facts envelope with hsame | ⟨f, -, hnew⟩
    · rw [analyticsStep, hsame]
      exact h
    · rw [analyticsStep, hnew]
      refine exact_of_other ?_ h
      intro hday
      exact hnot ⟨f, hnew, hday⟩
  | runRecent => exact hrun _
  | runRange range => exact hrun range

section

variable (hspelled : SpelledAlike column (analyticsAfter registry column ops).facts)
include hspelled

theorem backed_after :
    Backed column (analyticsAfter registry column ops) := by
  induction ops using List.reverseRecOn with
  | nil => exact ⟨nodup_nil, fun r hr => by cases hr⟩
  | append_singleton ops op ih =>
    rw [analyticsAfter, after_append] at hspelled ⊢
    have hbef : SpelledAlike column (analyticsAfter registry column ops).facts :=
      hspelled.mono facts_subset_step
    exact backed_step hbef (ih hbef)

theorem exact_after
    (h : Refreshed (analyticsStep registry column) (Records registry column) LooksBack ⟨[], []⟩
      ops day) : Exact column (analyticsAfter registry column ops) day := by
  have hinv : ∀ pre, pre <+: ops →
      SpelledAlike column (analyticsAfter registry column pre).facts ∧
        Backed column (analyticsAfter registry column pre) := by
    rintro pre ⟨_, rfl⟩
    have hpre : SpelledAlike column (analyticsAfter registry column pre).facts := by
      refine hspelled.mono ?_
      rw [analyticsAfter, analyticsAfter, after_append]
      exact facts_subset_after _
    exact ⟨hpre, backed_after hpre⟩
  refine settled_of_refreshed
    (fun s : AnalyticsStore => SpelledAlike column s.facts ∧ Backed column s)
    (Exact column) ?_ ?_ hinv ?_ h
  · intro s op hbef _ hlooks
    cases op with
    | runRecent => exact exact_runRange hbef.1 hbef.2 hlooks
    | handle | runRange => cases hlooks
  · intro s op hbef _ hnot hexact
    exact exact_step hbef.1 hbef.2 hnot hexact
  · intro rollup _ scopeType scopeId
    rfl

end

end WholeRuns

end BeauClick.Analytics
