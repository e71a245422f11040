import BeauClick.Analytics.Rollups
import Mathlib.Data.Nat.Digits.Defs

/-!
# Stored series

A series off the table of daily metrics, and the same series off the facts.
-/

namespace BeauClick.Analytics

open Delivery Derived Events Grouped Upsert List

/-! ## Series -/

section Series

variable {formats : Formats} {column : UuidColumn formats} {s : AnalyticsStore}
  {rollup : RollupDefinition} {range : Range} {scope : Option SeriesScope} {p : SeriesPoint}

theorem mem_readSeries (hbacked : Backed column s) (h : ∀ day, Exact column s day)
    (hrollup : rollup ∈ ROLLUPS) :
    p ∈ readSeries column s.metrics rollup.metricKey range scope ↔
      range.Contains p.day ∧ ∃ r, expected column s.facts rollup p.day
        ((scope.map (·.type)).getD PLATFORM_SCOPE_TYPE)
        (column.read ((scope.map (·.id)).getD PLATFORM_SCOPE_ID)) = some r ∧
          p = ⟨p.day, r.figures.countValue, r.figures.sumValue⟩ := by
  generalize htype : (scope.map (·.type)).getD PLATFORM_SCOPE_TYPE = scopeType
  generalize hid : column.read ((scope.map (·.id)).getD PLATFORM_SCOPE_ID) = scopeId
  have hrow : ∀ r day, expected column s.facts rollup day scopeType scopeId = some r ↔
      r ∈ s.metrics ∧ r.identity = ⟨rollup.metricKey, day, scopeType, scopeId⟩ := by
    intro r day
    rw [← h day rollup hrollup, rowAt_eq_some_iff hbacked.unique]
  simp only [readSeries, htype, hid, mem_map, mem_filter, mem_orderBy,
    decide_eq_true_iff, hrow]
  constructor
  · rintro ⟨r, ⟨⟨hr, hkey, htype', hid'⟩, hrange⟩, rfl⟩
    exact ⟨hrange, r, ⟨hr, by rw [← hkey, ← htype', ← hid']⟩, rfl⟩
  · rintro ⟨hrange, r, ⟨hr, hidentity⟩, hp⟩
    refine ⟨r, ⟨⟨hr, ?_, ?_, ?_⟩, ?_⟩, ?_⟩
    · rw [hidentity]
    · rw [hidentity]
    · rw [hidentity]
    · rw [hidentity]
      exact hrange
    · rw [hp, hidentity]

theorem readSeries_increasing (hbacked : Backed column s) :
    (readSeries column s.metrics rollup.metricKey range scope).Pairwise
      fun p q => p.day < q.day := by
  refine pairwise_map.2 (List.Pairwise.filter _ (orderBy_increasing ?_))
  refine List.Nodup.map_on ?_ ((List.Nodup.of_map _ hbacked.unique).filter _)
  intro r hr r' hr' hday
  obtain ⟨hmem, hr⟩ := mem_filter.1 hr
  obtain ⟨hmem', hr'⟩ := mem_filter.1 hr'
  obtain ⟨hkey, htype, hid⟩ := of_decide_eq_true hr
  obtain ⟨hkey', htype', hid'⟩ := of_decide_eq_true hr'
  refine inj_on_of_nodup_map hbacked.unique hmem hmem' ?_
  have hsame : ∀ i j : MetricIdentity, i.metricKey = j.metricKey → i.metricDay = j.metricDay →
      i.scopeType = j.scopeType → i.scopeId = j.scopeId → i = j := by
    rintro ⟨⟩ ⟨⟩ rfl rfl rfl rfl
    rfl
  exact hsame _ _ (hkey.trans hkey'.symm) hday (htype.trans htype'.symm) (hid.trans hid'.symm)

variable {facts : List AnalyticsEventEntity} {today : Day} {fromDay toDay : Option Day}
  {subjectId : Option String} {eventType : String}

theorem dailySeries_increasing :
    (dailySeries column facts today eventType fromDay toDay subjectId).Pairwise
      fun p q => p.day < q.day := by
  exact pairwise_map.2 (orderBy_increasing nodup_groupBy)

theorem mem_dailySeries {scopeType : String} {scopeId : Uuid}
    (hscope : ∀ f ∈ facts, f.eventType = rollup.eventType →
      (OfSubject column subjectId f ↔ InScope column rollup scopeType scopeId f)) :
    p ∈ dailySeries column facts today rollup.eventType fromDay toDay subjectId ↔
      (normalizeRange today fromDay toDay).Contains p.day ∧
        ∃ r, expected column facts rollup p.day scopeType scopeId = some r ∧
          p = ⟨p.day, r.figures.countValue, r.figures.sumValue⟩ := by
  rw [dailySeries]
  generalize normalizeRange today fromDay toDay = range
  have hgroup : ∀ day, range.Contains day → (facts.filter fun f =>
      f.Of rollup.eventType range ∧ OfSubject column subjectId f).filter
        (fun f => f.occurredOn = day) = factsOf column facts rollup day scopeType scopeId := by
    intro day hday
    rw [filter_filter]
    refine filter_congr ?_
    intro f hf
    rw [← Bool.decide_and, decide_eq_decide]
    constructor
    · rintro ⟨hfday, hof, hsubj⟩
      exact ⟨hof.1, hfday, (hscope f hf hof.1).1 hsubj⟩
    · rintro ⟨htype, hfday, hin⟩
      exact ⟨hfday, ⟨htype, hfday ▸ hday⟩, (hscope f hf htype).2 hin⟩
  simp only [mem_map, mem_orderBy, mem_groupBy, mem_filter, decide_eq_true_iff,
    expected_eq_some]
  constructor
  · rintro ⟨_, ⟨f, ⟨hf, hof, hsubj⟩, rfl⟩, rfl⟩
    refine ⟨hof.2, _, ⟨⟨f, hf, hof.1, rfl, (hscope f hf hof.1).1 hsubj⟩, rfl⟩, ?_⟩
    rw [hgroup f.occurredOn hof.2]
  · rintro ⟨hrange, _, ⟨⟨f, hf, htype, hday, hin⟩, rfl⟩, hp⟩
    refine ⟨_, ⟨f, ⟨hf, ⟨htype, hday ▸ hrange⟩, (hscope f hf htype).2 hin⟩, rfl⟩, ?_⟩
    rw [hday, hgroup p.day hrange]
    exact hp.symm

theorem dailySeries_eq_readSeries (hbacked : Backed column s) (h : ∀ day, Exact column s day)
    (hrollup : rollup ∈ ROLLUPS)
    (hscope : ∀ f ∈ s.facts, f.eventType = rollup.eventType →
      (OfSubject column subjectId f ↔ InScope column rollup
        ((scope.map (·.type)).getD PLATFORM_SCOPE_TYPE)
        (column.read ((scope.map (·.id)).getD PLATFORM_SCOPE_ID)) f)) :
    dailySeries column s.facts today rollup.eventType fromDay toDay subjectId =
      readSeries column s.metrics rollup.metricKey (normalizeRange today fromDay toDay) scope :=
  eq_of_increasing dailySeries_increasing (readSeries_increasing hbacked) fun _ =>
    (mem_dailySeries hscope).trans (mem_readSeries hbacked h hrollup).symm

end Series

/-! ## Professionals -/

section Professionals

variable {registry : Registry} {column : UuidColumn registry.formats} {rollup : RollupDefinition}
  {f : AnalyticsEventEntity} {e : EventEnvelope Payload}

/-- The contracts of the events that are counted by professional have the professional's id. -/
def NamesProfessional (registry : Registry) : Prop :=
  ∀ c ∈ registry.others, ∀ rollup ∈ ROLLUPS, rollup.scopeBy = some .provider_subject →
    c.name = rollup.eventType → ("professionalId", FieldSchema.uuid) ∈ c.schema

section

variable (hby : rollup.scopeBy = some .provider_subject)
include hby

theorem professionalId_of_validFact (hcontracts : NamesProfessional registry)
    (hrollup : rollup ∈ ROLLUPS)
    (hval : registry.validateEnvelope e = true) (htype : e.eventType = rollup.eventType) :
    ∃ id, str e.payload "professionalId" = some id ∧ registry.formats.isUuid id = true := by
  rw [Registry.validateEnvelope] at hval
  split at hval
  · rename_i c hfind
    have hname : c.name = rollup.eventType := by
      have := find?_some hfind
      exact (of_decide_eq_true this).1.trans htype
    have hother : c ∈ registry.others := by
      refine (mem_append.1 (mem_of_find?_eq_some hfind)).resolve_left ?_
      intro hcommerce
      have hnames : ∀ rollup ∈ ROLLUPS, rollup.scopeBy = some .provider_subject →
          rollup.eventType ∉ COMMERCE_EVENTS.map (·.name) := by
        decide
      exact hnames rollup hrollup hby (hname ▸ mem_map_of_mem hcommerce)
    have haccepts := all_eq_true.1 hval _ (hcontracts c hother rollup hrollup hby hname)
    rw [str]
    cases hlookup : e.payload.lookup "professionalId" with
    | none =>
      rw [hlookup] at haccepts
      cases haccepts
    | some v =>
      rw [hlookup] at haccepts
      cases v with
      | string id => exact ⟨id, rfl, haccepts⟩
      | number | boolean | null | array => cases haccepts
  · cases hval

theorem subject_of_validFact (column : UuidColumn registry.formats)
    (hcontracts : NamesProfessional registry) (hrollup : rollup ∈ ROLLUPS)
    (hf : f ∈ validFact registry e) (htype : f.eventType = rollup.eventType) :
    f.subjectType = some .provider := by
  have hval := (ingestible_of_validFact hf).1
  rw [validFact_eq_fact (ingestible_of_validFact hf)] at hf
  obtain ⟨mapping, hmap, rfl⟩ := Option.map_eq_some_iff.1 hf
  obtain ⟨id, hid, huuid⟩ := professionalId_of_validFact hby hcontracts hrollup hval htype
  have hmappings : ∀ rollup ∈ ROLLUPS, rollup.scopeBy = some .provider_subject →
      ∀ mapping ∈ FACT_MAPPINGS.lookup rollup.eventType,
        mapping.subjectType = some .provider ∧ mapping.subjectOf = some "professionalId" := by
    decide
  obtain ⟨hsubj, hof⟩ := hmappings rollup hrollup hby mapping (htype ▸ hmap)
  have hne : id ≠ "" := by
    rintro rfl
    rw [column.not_empty] at huuid
    cases huuid
  simp only [factOf, hof, Option.bind_some, hid, Option.getD_some, if_neg hne, hsubj]

theorem ofSubject_iff (hcontracts : NamesProfessional registry) (hrollup : rollup ∈ ROLLUPS)
    (hf : f ∈ validFact registry e) (htype : f.eventType = rollup.eventType) {id : String}
    (hid : id ≠ "") :
    OfSubject column (some id) f ↔ InScope column rollup "provider" (column.read id) f := by
  have hsubj := subject_of_validFact hby column hcontracts hrollup hf htype
  have hread : ((scopeExpression column f .provider_subject).map column.read) =
      f.subjectId.map column.read := by
    rw [scopeExpression, Option.map_map]
    exact congrArg (fun g => f.subjectId.map g) (funext fun x => column.read_text _)
  rw [InScope, hby, Option.bind_some, hread]
  constructor
  · intro h
    exact Or.inr ⟨rfl, ((h id rfl).resolve_left hid).2⟩
  · rintro (⟨hplatform, -⟩ | ⟨-, h⟩) x hx
    · exact absurd hplatform (by decide)
    · cases hx
      exact Or.inr ⟨hsubj, h⟩

end

end Professionals

/-! ## Rollups and facts -/

theorem refreshed_of_last {registry : Registry} {column : UuidColumn registry.formats}
    (ops : List AnalyticsOp) {today : Day}
    (hdays : ∀ e, .handle e ∈ ops → ∀ f ∈ validFact registry e,
      LooksBack (.runRecent today) f.occurredOn) (day : Day) :
    Refreshed (analyticsStep registry column) (Records registry column) LooksBack ⟨[], []⟩
      (ops ++ [.runRecent today]) day := by
  rintro pre op post hsplit ⟨f, hfacts, rfl⟩
  cases op with
  | handle e =>
    rcases eq_nil_or_concat post with rfl | ⟨post', last, rfl⟩
    · have hlast := (append_inj' hsplit rfl).2
      cases hlast
    · have hsplit' : ops ++ [.runRecent today] = (pre ++ .handle e :: post') ++ [last] := by
        rw [hsplit, concat_eq_append, append_assoc, cons_append]
      obtain ⟨hops, hlast⟩ := append_inj' hsplit' rfl
      cases hlast
      refine ⟨.runRecent today, by simp, ?_⟩
      refine hdays e (by rw [hops]; simp) f ?_
      have hfacts : handle registry (after (analyticsStep registry column) ⟨[], []⟩ pre).facts e =
          _ ++ [f] := hfacts
      rcases handle_cases (after (analyticsStep registry column) ⟨[], []⟩ pre).facts e with
        hsame | ⟨g, hg, hnew⟩
      · rw [hsame] at hfacts
        exact absurd (self_eq_append_right.1 hfacts) (cons_ne_nil f [])
      · rw [hnew, append_cancel_left_eq, List.cons.injEq] at hfacts
        rwa [← hfacts.1]
  | runRecent | runRange =>
    exact absurd (self_eq_append_right.1 hfacts) (cons_ne_nil f [])

/-- When every fact is followed by a run that looks back to its day, the daily metrics are the
rows that the facts call for, the stored series are those off the facts, and no further run
changes anything. -/
theorem rollups_equal_facts (registry : Registry) (column : UuidColumn registry.formats)
    (ops : List AnalyticsOp) (hcontracts : NamesProfessional registry)
    (hspelled : SpelledAlike column (analyticsAfter registry column ops).facts)
    (hrefreshed : ∀ day, Refreshed (analyticsStep registry column) (Records registry column)
      LooksBack ⟨[], []⟩ ops day) :
    (∀ day, Exact column (analyticsAfter registry column ops) day) ∧
      (∀ rollup ∈ ROLLUPS, ∀ today fromDay toDay,
        dailySeries column (analyticsAfter registry column ops).facts today rollup.eventType
            fromDay toDay none =
          readSeries column (analyticsAfter registry column ops).metrics rollup.metricKey
            (normalizeRange today fromDay toDay) none) ∧
      (∀ rollup ∈ ROLLUPS, rollup.scopeBy = some .provider_subject →
        ∀ id, id ≠ "" → ∀ today fromDay toDay,
          dailySeries column (analyticsAfter registry column ops).facts today rollup.eventType
              fromDay toDay (some id) =
            readSeries column (analyticsAfter registry column ops).metrics rollup.metricKey
              (normalizeRange today fromDay toDay) (some ⟨"provider", id⟩)) ∧
      ∀ ranges : List Range,
        ranges.foldl (runRange column (analyticsAfter registry column ops).facts)
            (analyticsAfter registry column ops).metrics =
          (analyticsAfter registry column ops).metrics := by
  have hexact : ∀ day, Exact column (analyticsAfter registry column ops) day := fun day =>
    exact_after hspelled (hrefreshed day)
  have hbacked := backed_after hspelled
  refine ⟨hexact, ?_, ?_, ?_⟩
  · intro rollup hrollup today fromDay toDay
    refine dailySeries_eq_readSeries hbacked hexact hrollup ?_
    intro f _ _
    exact iff_of_true (fun x hx => by cases hx) (Or.inl ⟨rfl, rfl⟩)
  · intro rollup hrollup hby id hid today fromDay toDay
    refine dailySeries_eq_readSeries hbacked hexact hrollup ?_
    intro f hf htype
    obtain ⟨_, he⟩ := valid_of_mem hf
    exact ofSubject_iff hby hcontracts hrollup he htype hid
  · intro ranges
    induction ranges with
    | nil => rfl
    | cons range ranges ih =>
      rw [foldl_cons, runRange_of_exact hspelled hexact]
      exact ih

/-! ## Two spellings -/

namespace SpelledTwice

/-- The value of a hexadecimal digit. -/
def hexDigit (c : Char) : Option ℕ :=
  if '0' ≤ c ∧ c ≤ '9' then some (c.toNat - '0'.toNat)
  else if 'a' ≤ c ∧ c ≤ 'f' then some (c.toNat - 'a'.toNat + 10)
  else if 'A' ≤ c ∧ c ≤ 'F' then some (c.toNat - 'A'.toNat + 10)
  else none

/-- A hexadecimal digit. -/
def hexChar (d : ℕ) : Char := "0123456789abcdef".toList.getD d '0'

theorem hexDigit_hexChar : ∀ d < 16, hexDigit (hexChar d) = some d := by decide

/-- The seller, in capitals. -/
def CAPITALS : String := "0198F0A0-0000-7000-8000-000000000003"

/-- The formats of the sale; both spellings are ids. -/
def formats : Formats :=
  { OneSale.formats with
    isUuid := fun s => s ∈ [OneSale.orderId, OneSale.otherId, OneSale.seller.1, CAPITALS] }

/-- The commerce contracts alone. -/
def registry : Registry := { OneSale.registry with formats := formats }

/-- An id is the number that its digits make up. -/
def column : UuidColumn registry.formats where
  read s := Nat.ofDigits 16 (s.toList.filterMap hexDigit).reverse
  text id := String.ofList ((Nat.digits 16 id).map hexChar).reverse
  read_text id := by
    have hdigits : ((Nat.digits 16 id).map hexChar).filterMap hexDigit = Nat.digits 16 id := by
      rw [filterMap_map]
      refine (filterMap_congr ?_).trans filterMap_some
      intro d hd
      exact hexDigit_hexChar d (Nat.digits_lt_base (by decide) hd)
    rw [String.toList_ofList, filterMap_reverse, hdigits, reverse_reverse,
      Nat.ofDigits_digits]
  not_empty := by decide

/-- Another sale of the seller. -/
def again : EventEnvelope Payload :=
  { OneSale.paid with
    id := 2
    payload := [("orderId", .string OneSale.otherId), ("sourceType", .string "booking"),
      ("sourceId", .string OneSale.otherId), ("customerId", .string OneSale.otherId),
      ("sellerPartyType", .string "professional"), ("sellerPartyId", .string CAPITALS),
      ("totalToman", .number 300000), ("currency", .string "IRT"),
      ("paidAt", .string OneSale.paidAt)] }

/-- The rollup of paid orders. -/
def ordersPaid : RollupDefinition where
  metricKey := "orders_paid"
  eventType := "OrderPaid"
  scopeBy := some .seller_dimension

theorem ordersPaid_mem : ordersPaid ∈ ROLLUPS := by simp [ROLLUPS, ordersPaid]

/-- The sale, and the rollup of its day. -/
def sale : List AnalyticsOp := [.handle OneSale.paid, .runRecent 20458]

/-- Both sales, and the rollup. -/
def sales : List AnalyticsOp := [.handle OneSale.paid, .handle again, .runRecent 20458]

theorem refreshed_sale (day : Day) :
    Refreshed (analyticsStep registry column) (Records registry column) LooksBack ⟨[], []⟩ sale
      day := by
  refine refreshed_of_last [.handle OneSale.paid] ?_ day
  intro e he
  cases mem_singleton.1 he
  decide +kernel

theorem refreshed_sales (day : Day) :
    Refreshed (analyticsStep registry column) (Records registry column) LooksBack ⟨[], []⟩ sales
      day := by
  refine refreshed_of_last [.handle OneSale.paid, .handle again] ?_ day
  intro e he
  rcases mem_cons.1 he with he | he
  · cases he
    decide +kernel
  · cases mem_singleton.1 he
    decide +kernel

end SpelledTwice

/-- A sale, and the series of its day. -/
theorem rollups_equal_facts_sale :
    dailySeries SpelledTwice.column
        (analyticsAfter SpelledTwice.registry SpelledTwice.column SpelledTwice.sale).facts 20458
        "OrderPaid" none none none = [⟨20458, 1, 500000⟩] ∧
      readSeries SpelledTwice.column
        (analyticsAfter SpelledTwice.registry SpelledTwice.column SpelledTwice.sale).metrics
        "orders_paid" (normalizeRange 20458 none none) none = [⟨20458, 1, 500000⟩] := by
  have hdaily : dailySeries SpelledTwice.column
      (analyticsAfter SpelledTwice.registry SpelledTwice.column SpelledTwice.sale).facts 20458
      "OrderPaid" none none none = [⟨20458, 1, 500000⟩] := by
    decide +kernel
  refine ⟨hdaily, ?_⟩
  exact ((rollups_equal_facts SpelledTwice.registry SpelledTwice.column SpelledTwice.sale
    (fun c hc => by cases hc) (by decide +kernel) SpelledTwice.refreshed_sale).2.1
    _ SpelledTwice.ordersPaid_mem 20458 none none).symm

/-- A range of more than a year is cut short for the series off the facts and not for the stored
one; the facts of a seller are not found by subject; and of two spellings of one seller the row
of the one replaces that of the other. -/
theorem rollups_everyRange_fails :
    (¬∀ (registry : Registry) (column : UuidColumn registry.formats) (ops : List AnalyticsOp),
      (∀ day, Refreshed (analyticsStep registry column) (Records registry column) LooksBack
        ⟨[], []⟩ ops day) →
          ∀ rollup ∈ ROLLUPS, ∀ today (range : Range),
            dailySeries column (analyticsAfter registry column ops).facts today rollup.eventType
                (some range.fromDay) (some range.toDay) none =
              readSeries column (analyticsAfter registry column ops).metrics rollup.metricKey
                range none) ∧
      (¬∀ (registry : Registry) (column : UuidColumn registry.formats) (ops : List AnalyticsOp),
        (∀ day, Refreshed (analyticsStep registry column) (Records registry column) LooksBack
          ⟨[], []⟩ ops day) →
            ∀ rollup ∈ ROLLUPS, ∀ today (id : String),
              dailySeries column (analyticsAfter registry column ops).facts today
                  rollup.eventType none none (some id) =
                readSeries column (analyticsAfter registry column ops).metrics rollup.metricKey
                  (normalizeRange today none none) (some ⟨"provider", id⟩)) ∧
      ¬∀ (registry : Registry) (column : UuidColumn registry.formats) (ops : List AnalyticsOp),
        (∀ day, Refreshed (analyticsStep registry column) (Records registry column) LooksBack
          ⟨[], []⟩ ops day) →
            ∀ day, Exact column (analyticsAfter registry column ops) day := by
  refine ⟨?_, ?_, ?_⟩
  · intro h
    have := h SpelledTwice.registry SpelledTwice.column SpelledTwice.sale
      SpelledTwice.refreshed_sale _ SpelledTwice.ordersPaid_mem 20458
      ⟨20458, 20858⟩
    revert this
    decide +kernel
  · intro h
    have := h SpelledTwice.registry SpelledTwice.column SpelledTwice.sale
      SpelledTwice.refreshed_sale _ SpelledTwice.ordersPaid_mem 20458
      OneSale.seller.1
    revert this
    decide +kernel
  · intro h
    have hrow := h SpelledTwice.registry SpelledTwice.column SpelledTwice.sales
      SpelledTwice.refreshed_sales 20458 _ SpelledTwice.ordersPaid_mem "provider"
      (SpelledTwice.column.read OneSale.seller.1)
    have hcounts := congrArg (Option.map fun r => r.figures.countValue) hrow
    revert hcounts
    decide +kernel

end BeauClick.Analytics
