import BeauClick.Lib.Keyed
import BeauClick.Lib.Netstring
import BeauClick.Lib.Utf16
import Mathlib.Algebra.Order.Ring.Unbundled.Rat
import Mathlib.Data.List.Sort

/-!
# The metrics registry

`MetricsRegistry` (`libs/observability/src/metrics.ts`): counters and histograms by name, each with
a series for every combination of labels until there are too many.  An observation beyond that is
only counted as dropped, in one count for all metrics.  The sums, which are in floating point, the
gauges, which are read where they are exported, and `reset`, which only tests call, are left out.

* `series_exact` — a series that is exported counts every observation of its labels, bucket by
  bucket; one that is not there is empty or was dropped, and the drops are counted.
* `formatLabels_identifies` — labels are told apart by the text that they are rendered as.
-/

namespace BeauClick.Observability

open List

/-! ## Series -/

/-- `Labels`, in the order of their insertion. -/
abbrev Labels := List (String × String)

/-- `MAX_SERIES_PER_METRIC`. -/
def maxSeries : ℕ := 500

/-- `seriesKey`: labels in one order, whichever order they came in. -/
def seriesKey (labels : Labels) : String :=
  ",".intercalate ((labels.mergeSort fun a b => Utf16.le a.1 b.1).map fun l => l.1 ++ "=" ++ l.2)

/-- The values of a series. -/
structure SeriesState where
  labels : Labels
  counts : List ℕ
  count : ℕ

/-- A counter, with the labels and the count of each series. -/
structure CounterState where
  help : String
  labelNames : List String
  values : Keyed String (Labels × ℕ)

/-- A histogram, with its series. -/
structure HistogramState where
  help : String
  labelNames : List String
  buckets : List ℚ
  values : Keyed String SeriesState

/-- The series after one more observation. -/
def SeriesState.observe (e : SeriesState) (buckets : List ℚ) (value : ℚ) : SeriesState :=
  { e with
    count := e.count + 1
    counts := List.zipWith (fun bucket n => if value ≤ bucket then n + 1 else n) buckets e.counts }

/-- A series that has observed nothing. -/
def SeriesState.fresh (labels : Labels) (buckets : List ℚ) : SeriesState :=
  ⟨labels, buckets.map fun _ => 0, 0⟩

/-- The histogram after an observation; `none` where its series is dropped. -/
def HistogramState.observe (h : HistogramState) (value : ℚ) (labels : Labels) :
    Option HistogramState :=
  let key := seriesKey labels
  match h.values.row key with
  | some e => some { h with values := h.values.set key (e.observe h.buckets value) }
  | none =>
    if maxSeries ≤ h.values.keys.length then none
    else
      let e := SeriesState.fresh labels h.buckets
      some { h with values := h.values.set key (e.observe h.buckets value) }

/-! ## The registry -/

/-- `MetricsRegistry`, without its gauges. -/
structure MetricsRegistry where
  counters : Keyed String CounterState
  histograms : Keyed String HistogramState
  droppedSeries : ℕ

namespace MetricsRegistry

/-- `registerCounter`: a name that is taken is left as it is. -/
def registerCounter (r : MetricsRegistry) (name help : String) (labelNames : List String) :
    MetricsRegistry :=
  match r.counters.row name with
  | some _ => r
  | none => { r with counters := r.counters.set name ⟨help, labelNames, .empty⟩ }

/-- `increment`; every caller counts whole events. -/
def increment (r : MetricsRegistry) (name : String) (labels : Labels) (by' : ℕ) :
    MetricsRegistry :=
  match r.counters.row name with
  | none => r
  | some c =>
    let key := seriesKey labels
    let put (series : Labels × ℕ) : MetricsRegistry :=
      { r with counters := r.counters.set name { c with values := c.values.set key series } }
    match c.values.row key with
    | some (old, value) => put (old, value + by')
    | none =>
      if maxSeries ≤ c.values.keys.length then { r with droppedSeries := r.droppedSeries + 1 }
      else put (labels, by')

/-- `registerHistogram`: a name that is taken is left as it is. -/
def registerHistogram (r : MetricsRegistry) (name help : String) (labelNames : List String)
    (buckets : List ℚ) : MetricsRegistry :=
  match r.histograms.row name with
  | some _ => r
  | none =>
    let h : HistogramState := ⟨help, labelNames, buckets.mergeSort fun a b => a ≤ b, .empty⟩
    { r with histograms := r.histograms.set name h }

/-- `observe`; the observation of a series that there is no room for is dropped. -/
def observe (r : MetricsRegistry) (name : String) (value : ℚ) (labels : Labels) :
    MetricsRegistry :=
  match r.histograms.row name with
  | none => r
  | some h =>
    match h.observe value labels with
    | none => { r with droppedSeries := r.droppedSeries + 1 }
    | some h' => { r with histograms := r.histograms.set name h' }

end MetricsRegistry

/-- The calls that other code makes. -/
inductive MetricsCall where
  | registerCounter (name help : String) (labelNames : List String)
  | increment (name : String) (labels : Labels) (by' : ℕ)
  | registerHistogram (name help : String) (labelNames : List String) (buckets : List ℚ)
  | observe (name : String) (value : ℚ) (labels : Labels)

/-- The registry after a call. -/
def MetricsCall.apply (r : MetricsRegistry) : MetricsCall → MetricsRegistry
  | .registerCounter name help labelNames => r.registerCounter name help labelNames
  | .increment name labels by' => r.increment name labels by'
  | .registerHistogram name help labelNames buckets =>
    r.registerHistogram name help labelNames buckets
  | .observe name value labels => r.observe name value labels

/-! ## What a series has counted -/

/-- What a call observes of a series. -/
def MetricsCall.observed (name key : String) : MetricsCall → List ℚ
  | .registerCounter .. | .increment .. | .registerHistogram .. => []
  | .observe name' value labels => if name' = name ∧ seriesKey labels = key then [value] else []

/-- A series that is there has counted the values.  One that is not there was dropped as often as
it was observed, for want of room. -/
def Records (h : HistogramState) (dropped : ℕ) (key : String) (values : List ℚ) : Prop :=
  match h.values.row key with
  | some e =>
    e.count = values.length ∧ e.counts = h.buckets.map fun bucket => values.countP (· ≤ bucket)
  | none => values.length ≤ dropped ∧ (values = [] ∨ maxSeries ≤ h.values.keys.length)

/-- The histogram of a name is as the values of its series have it. -/
def Exact (r : MetricsRegistry) (name : String) (buckets : List ℚ) (counted : String → List ℚ) :
    Prop :=
  ∃ h, r.histograms.row name = some h ∧ h.buckets = buckets ∧
    h.values.keys.length ≤ maxSeries ∧ ∀ key, Records h r.droppedSeries key (counted key)

variable {h h' : HistogramState} {r : MetricsRegistry} {name key : String} {value : ℚ}
  {labels : Labels} {values : List ℚ} {dropped : ℕ} {buckets : List ℚ} {counted : String → List ℚ}

theorem zipWith_countP (buckets : List ℚ) (values : List ℚ) (value : ℚ) :
    List.zipWith (fun bucket n => if value ≤ bucket then n + 1 else n) buckets
        (buckets.map fun bucket => values.countP (· ≤ bucket)) =
      buckets.map fun bucket => (values ++ [value]).countP (· ≤ bucket) := by
  rw [zipWith_map_right, zipWith_self]
  refine map_congr_left fun bucket _ => ?_
  by_cases hle : value ≤ bucket <;> simp [hle]

theorem records_of_some {e : SeriesState} (h' : h.values.row key = some e) :
    Records h dropped key values ↔ e.count = values.length ∧
      e.counts = h.buckets.map fun bucket => values.countP (· ≤ bucket) := by
  rw [Records, h']

theorem records_of_none (h' : h.values.row key = none) : Records h dropped key values ↔
    values.length ≤ dropped ∧ (values = [] ∨ maxSeries ≤ h.values.keys.length) := by
  rw [Records, h']

theorem Records.mono {dropped' : ℕ} (hr : Records h dropped key values)
    (hrow : h'.values.row key = h.values.row key) (hbuckets : h'.buckets = h.buckets)
    (hlen : h.values.keys.length ≤ h'.values.keys.length) (hdropped : dropped ≤ dropped') :
    Records h' dropped' key values := by
  cases hkey : h.values.row key with
  | some =>
    rw [records_of_some (hrow.trans hkey), hbuckets]
    exact (records_of_some hkey).1 hr
  | none =>
    obtain ⟨hle, hroom⟩ := (records_of_none hkey).1 hr
    exact (records_of_none (hrow.trans hkey)).2
      ⟨hle.trans hdropped, hroom.imp_right fun hmax => hmax.trans hlen⟩

theorem SeriesState.counts_observe {e : SeriesState} (hcnt : e.count = values.length)
    (hcounts : e.counts = buckets.map fun bucket => values.countP (· ≤ bucket)) :
    (e.observe buckets value).count = (values ++ [value]).length ∧
      (e.observe buckets value).counts =
        buckets.map fun bucket => (values ++ [value]).countP (· ≤ bucket) := by
  refine ⟨by simp [SeriesState.observe, hcnt], ?_⟩
  rw [SeriesState.observe, hcounts]
  exact zipWith_countP buckets values value

theorem length_keys_set (t : Keyed String SeriesState) (e : SeriesState) :
    t.keys.length ≤ (t.set key e).keys.length ∧ (t.set key e).keys.length ≤ t.keys.length + 1 ∧
      (key ∈ t.keys → (t.set key e).keys.length = t.keys.length) := by
  have hkeys : (t.set key e).keys = if key ∈ t.keys then t.keys else key :: t.keys := rfl
  rw [hkeys]
  split <;> simp [*]

theorem records_set {e : SeriesState} (hcnt : e.count = (counted key).length)
    (hcounts : e.counts = h.buckets.map fun bucket => (counted key).countP (· ≤ bucket))
    (hrecs : ∀ key' ≠ key, Records h dropped key' (counted key')) (key' : String) :
    Records { h with values := h.values.set key (e.observe h.buckets value) } dropped key'
      (counted key' ++ if key = key' then [value] else []) := by
  by_cases hkey : key = key'
  · subst hkey
    rw [if_pos rfl, records_of_some Keyed.row_set_self]
    exact SeriesState.counts_observe hcnt hcounts
  · rw [if_neg hkey, append_nil]
    exact (hrecs key' (Ne.symm hkey)).mono (Keyed.row_set_of_ne (Ne.symm hkey)) rfl
      (length_keys_set ..).1 le_rfl

theorem observe_cases (value : ℚ) (labels : Labels)
    (hlen : h.values.keys.length ≤ maxSeries)
    (hrecs : ∀ key, Records h dropped key (counted key)) :
    (h.observe value labels = none ∧ ∀ key, Records h (dropped + 1) key
      (counted key ++ if seriesKey labels = key then [value] else [])) ∨
    ∃ h', h.observe value labels = some h' ∧ h'.buckets = h.buckets ∧
      h'.values.keys.length ≤ maxSeries ∧ ∀ key, Records h' dropped key
        (counted key ++ if seriesKey labels = key then [value] else []) := by
  have hseries := hrecs (seriesKey labels)
  cases hrow : h.values.row (seriesKey labels) with
  | some e =>
    obtain ⟨hcnt, hcounts⟩ := (records_of_some hrow).1 hseries
    let values := h.values.set (seriesKey labels) (e.observe h.buckets value)
    refine Or.inr ⟨{ h with values }, by rw [HistogramState.observe, hrow], rfl, ?_,
      records_set hcnt hcounts fun key' _ => hrecs key'⟩
    exact ((length_keys_set ..).2.2 (Keyed.mem_keys hrow)).trans_le hlen
  | none =>
    obtain ⟨hle, hroom⟩ := (records_of_none hrow).1 hseries
    by_cases hmax : maxSeries ≤ h.values.keys.length
    · -- no room: the drop is counted
      refine Or.inl ⟨by rw [HistogramState.observe, hrow]; exact if_pos hmax, fun key => ?_⟩
      by_cases hkey : seriesKey labels = key
      · subst hkey
        rw [if_pos rfl, records_of_none hrow, length_append]
        exact ⟨Nat.add_le_add_right hle 1, Or.inr hmax⟩
      · rw [if_neg hkey, append_nil]
        exact (hrecs key).mono rfl rfl le_rfl (Nat.le_succ _)
    · have hnil := hroom.resolve_right hmax
      let e := SeriesState.fresh labels h.buckets
      let values := h.values.set (seriesKey labels) (e.observe h.buckets value)
      refine Or.inr ⟨{ h with values }, by rw [HistogramState.observe, hrow]; exact if_neg hmax,
        rfl, ?_, records_set (by rw [hnil]; rfl) (by rw [hnil]; rfl) fun key' _ => hrecs key'⟩
      exact (length_keys_set ..).2.1.trans (not_le.1 hmax)

theorem Exact.mono {r' : MetricsRegistry} (hr : Exact r name buckets counted)
    (hhistograms : r'.histograms.row name = r.histograms.row name)
    (hdropped : r.droppedSeries ≤ r'.droppedSeries) : Exact r' name buckets counted := by
  obtain ⟨h, hrow, hbuckets, hlen, hrecs⟩ := hr
  exact ⟨h, hhistograms.trans hrow, hbuckets, hlen, fun key =>
    (hrecs key).mono rfl rfl le_rfl hdropped⟩

theorem exact_registerCounter (hr : Exact r name buckets counted) (name' help : String)
    (labelNames : List String) :
    Exact (r.registerCounter name' help labelNames) name buckets counted := by
  unfold MetricsRegistry.registerCounter
  split
  · exact hr
  · exact hr.mono rfl le_rfl

/-- A counter has its own series, but its drops are counted with those of the histograms. -/
theorem exact_increment (hr : Exact r name buckets counted) (name' : String) (labels : Labels)
    (by' : ℕ) : Exact (r.increment name' labels by') name buckets counted := by
  unfold MetricsRegistry.increment
  split
  · exact hr
  · dsimp only
    split
    · exact hr.mono rfl le_rfl
    · split
      · exact hr.mono rfl (Nat.le_succ _)
      · exact hr.mono rfl le_rfl

theorem exact_registerHistogram (hr : Exact r name buckets counted) (name' help : String)
    (labelNames : List String) (buckets' : List ℚ) :
    Exact (r.registerHistogram name' help labelNames buckets') name buckets counted := by
  unfold MetricsRegistry.registerHistogram
  split
  · exact hr
  · rename_i hnone
    have hne : name ≠ name' := by
      rintro rfl
      obtain ⟨_, hrow, -⟩ := hr
      rw [hnone] at hrow
      cases hrow
    exact hr.mono (Keyed.row_set_of_ne hne) le_rfl

theorem exact_observe (hr : Exact r name buckets counted) (value : ℚ) (labels : Labels) :
    Exact (r.observe name value labels) name buckets fun key =>
      counted key ++ if seriesKey labels = key then [value] else [] := by
  obtain ⟨h, hrow, rfl, hlen, hrecs⟩ := hr
  unfold MetricsRegistry.observe
  simp only [hrow]
  obtain ⟨hnone, hrecs'⟩ | ⟨h', hsome, hbuckets, hlen', hrecs'⟩ :=
    observe_cases value labels hlen hrecs
  · simp only [hnone]
    exact ⟨h, hrow, rfl, hlen, hrecs'⟩
  · simp only [hsome]
    exact ⟨h', Keyed.row_set_self, hbuckets, hlen', hrecs'⟩

theorem exact_observe_of_ne (hr : Exact r name buckets counted) {name' : String}
    (hne : name' ≠ name) (value : ℚ) (labels : Labels) :
    Exact (r.observe name' value labels) name buckets counted := by
  unfold MetricsRegistry.observe
  split
  · exact hr
  · split
    · exact hr.mono rfl (Nat.le_succ _)
    · exact hr.mono (Keyed.row_set_of_ne hne.symm) le_rfl

theorem exact_apply (hr : Exact r name buckets counted) (call : MetricsCall) :
    Exact (call.apply r) name buckets fun key => counted key ++ call.observed name key := by
  cases call with
  | registerCounter name' help labelNames =>
    simpa only [MetricsCall.observed, MetricsCall.apply, append_nil]
      using exact_registerCounter hr name' help labelNames
  | increment name' labels by' =>
    simpa only [MetricsCall.observed, MetricsCall.apply, append_nil]
      using exact_increment hr name' labels by'
  | registerHistogram name' help labelNames buckets' =>
    simpa only [MetricsCall.observed, MetricsCall.apply, append_nil]
      using exact_registerHistogram hr name' help labelNames buckets'
  | observe name' value labels =>
    by_cases hname : name' = name
    · subst hname
      simpa only [MetricsCall.observed, MetricsCall.apply, true_and]
        using exact_observe hr value labels
    · simpa only [MetricsCall.observed, MetricsCall.apply, hname, false_and, if_false,
        append_nil]
        using exact_observe_of_ne hr hname value labels

theorem exact_run (calls : List MetricsCall) : ∀ {r : MetricsRegistry} {counted},
    Exact r name buckets counted → Exact (calls.foldl MetricsCall.apply r) name buckets
      fun key => counted key ++ calls.flatMap (·.observed name key) := by
  induction calls with
  | nil =>
    intro r counted hr
    simpa using hr
  | cons call calls ih =>
    intro r counted hr
    simpa only [flatMap_cons, foldl_cons, append_assoc]
      using ih (exact_apply hr call)

theorem exact_registered (hnone : r.histograms.row name = none) (help : String)
    (labelNames : List String) (buckets : List ℚ) :
    Exact (r.registerHistogram name help labelNames buckets) name
      (buckets.mergeSort fun a b => a ≤ b) fun _ => [] := by
  rw [MetricsRegistry.registerHistogram, hnone]
  exact ⟨_, Keyed.row_set_self, rfl, Nat.zero_le _, fun key =>
    (records_of_none rfl).2 ⟨Nat.zero_le _, Or.inl rfl⟩⟩

theorem sorted_counts (buckets values : List ℚ) :
    (((buckets.mergeSort fun a b => a ≤ b).map fun bucket => values.countP (· ≤ bucket)) ++
      [values.length]).Pairwise (· ≤ ·) := by
  have hsort : (buckets.mergeSort fun a b => a ≤ b).Pairwise (· ≤ ·) :=
    pairwise_mergeSort' (· ≤ ·) buckets
  rw [pairwise_append, pairwise_map]
  refine ⟨hsort.imp fun {a b} hab => ?_, pairwise_singleton .., ?_⟩
  · exact countP_mono_left fun x _ hx => by simpa using (of_decide_eq_true hx).trans hab
  · simp [countP_le_length]

/-- **Every series is exact.**  Whatever is called after a histogram is registered, a series of it
that is there has counted every observation under its key, bucket by bucket and cumulatively; the
observations of one that is not there are among the dropped. -/
theorem series_exact (hnone : r.histograms.row name = none) (help : String)
    (labelNames : List String) (buckets : List ℚ) (calls : List MetricsCall) :
    ∃ h r', r' = calls.foldl MetricsCall.apply (r.registerHistogram name help labelNames buckets) ∧
      r'.histograms.row name = some h ∧ h.values.keys.length ≤ maxSeries ∧ ∀ key,
        Records h r'.droppedSeries key (calls.flatMap (·.observed name key)) ∧
        ∀ e, h.values.row key = some e → (e.counts ++ [e.count]).Pairwise (· ≤ ·) := by
  obtain ⟨h, hrow, hbuckets, hlen, hrecs⟩ :=
    exact_run calls (exact_registered hnone help labelNames buckets)
  refine ⟨h, _, rfl, hrow, hlen, fun key => ⟨hrecs key, fun e he => ?_⟩⟩
  obtain ⟨hcnt, hcounts⟩ := (records_of_some he).1 (hrecs key)
  rw [hcnt, hcounts, hbuckets]
  exact sorted_counts ..

theorem series_exact_durations : ∃ h r', r' =
      [MetricsCall.observe "duration" (1 / 2) [], .observe "duration" 2 []].foldl MetricsCall.apply
        ((⟨.empty, .empty, 0⟩ : MetricsRegistry).registerHistogram "duration" "" [] [1]) ∧
      r'.histograms.row "duration" = some h ∧ h.values.keys.length ≤ maxSeries ∧ ∀ key,
        Records h r'.droppedSeries key
          ([MetricsCall.observe "duration" (1 / 2) [], .observe "duration" 2 []].flatMap
            (·.observed "duration" key)) ∧
        ∀ e, h.values.row key = some e → (e.counts ++ [e.count]).Pairwise (· ≤ ·) :=
  series_exact rfl "" [] [1] _

/-! ## The labels of a line -/

/-- `value.replace(/c/g, by)`. -/
def replaceAll (c : Char) (by' : List Char) (s : List Char) : List Char :=
  s.flatMap fun x => if x = c then by' else [x]

/-- `escapeLabelValue`: backslashes, then line breaks, then quotes. -/
def escapeLabelValue (value : List Char) : List Char :=
  replaceAll '"' ['\\', '"']
    (replaceAll '\n' ['\\', 'n'] (replaceAll '\\' ['\\', '\\'] value))

/-- The labels with those of `extra`, which take the place of others. -/
def withExtra (labels extra : Labels) : Labels :=
  (labels.filter fun l => l.1 ∉ extra.map Prod.fst) ++ extra

/-- A label, with its value in quotes. -/
def formatLabel (l : String × String) : List Char :=
  l.1.toList ++ '=' :: '"' :: (escapeLabelValue l.2.toList ++ ['"'])

/-- `formatLabels`: the labels of a line, by name. -/
def formatLabels (labels extra : Labels) : List Char :=
  let all := (withExtra labels extra).mergeSort fun a b => Utf16.le a.1 b.1
  if all = [] then [] else '{' :: [','].intercalate (all.map formatLabel) ++ ['}']

/-- A value is read up to its closing quote; the format has no other escapes. -/
def readLabelValue : List Char → Option (List Char × List Char)
  | '\\' :: 'n' :: s => (readLabelValue s).map fun r => ('\n' :: r.1, r.2)
  | '\\' :: c :: s =>
    if c = '\\' ∨ c = '"' then (readLabelValue s).map fun r => (c :: r.1, r.2) else none
  | '"' :: s => some ([], s)
  | c :: s => if c = '\n' then none else (readLabelValue s).map fun r => (c :: r.1, r.2)
  | [] => none

theorem escapeLabelValue_cons (c : Char) (s : List Char) : escapeLabelValue (c :: s) =
    (if c = '\\' then ['\\', '\\'] else if c = '\n' then ['\\', 'n']
      else if c = '"' then ['\\', '"'] else [c]) ++ escapeLabelValue s := by
  simp only [escapeLabelValue, replaceAll, flatMap_cons, flatMap_append]
  split_ifs <;> simp [*]

theorem readLabelValue_escape (s rest : List Char) :
    readLabelValue (escapeLabelValue s ++ '"' :: rest) = some (s, rest) := by
  induction s with
  | nil => simp [escapeLabelValue, replaceAll, readLabelValue]
  | cons c s ih =>
    rw [escapeLabelValue_cons]
    split_ifs with hback hline hquote
    · simp [readLabelValue, ih, hback]
    · simp [readLabelValue, ih, hline]
    · simp [readLabelValue, ih, hquote]
    · simp [readLabelValue, ih, hback, hline]

/-- Names of labels have neither of the characters that end them. -/
def Named (labels : Labels) : Prop := ∀ l ∈ labels, '=' ∉ l.1.toList ∧ '\n' ∉ l.1.toList

theorem formatLabel_append_inj {l l' : String × String} {s s' : List Char}
    (hl : '=' ∉ l.1.toList) (hl' : '=' ∉ l'.1.toList)
    (h : formatLabel l ++ s = formatLabel l' ++ s') : l = l' ∧ s = s' := by
  simp only [formatLabel, append_assoc, cons_append] at h
  obtain ⟨hname, h⟩ := Netstring.split_unique hl hl' h
  have hval := congrArg readLabelValue (List.cons.inj h).2
  simp only [nil_append, readLabelValue_escape, Option.some.injEq, Prod.mk.injEq] at hval
  exact ⟨Prod.ext (String.toList_inj.1 hname) (String.toList_inj.1 hval.1), hval.2⟩

/-- What follows the first label. -/
def labelsTail : Labels → List Char
  | [] => ['}']
  | l :: ls => ',' :: (formatLabel l ++ labelsTail ls)

theorem intercalate_labels (l : String × String) (ls : Labels) :
    [','].intercalate ((l :: ls).map formatLabel) ++ ['}'] = formatLabel l ++ labelsTail ls := by
  induction ls generalizing l with
  | nil => simp [List.intercalate, labelsTail]
  | cons l' ls ih =>
    rw [labelsTail, ← ih l']
    simp [List.intercalate]

theorem labelsTail_injective {ls ls' : Labels} (hls : Named ls) (hls' : Named ls')
    (h : labelsTail ls = labelsTail ls') : ls = ls' := by
  induction ls generalizing ls' with
  | nil =>
    cases ls' with
    | nil => rfl
    | cons => simp [labelsTail] at h
  | cons l ls ih =>
    cases ls' with
    | nil => simp [labelsTail] at h
    | cons l' =>
      obtain ⟨rfl, htail⟩ := formatLabel_append_inj (hls l mem_cons_self).1
        (hls' l' mem_cons_self).1 (List.cons.inj h).2
      rw [ih (fun k hk => hls k (mem_cons_of_mem l hk))
        (fun k hk => hls' k (mem_cons_of_mem l hk)) htail]

theorem newline_notMem_escape (s : List Char) : '\n' ∉ escapeLabelValue s := by
  induction s with
  | nil => simp [escapeLabelValue, replaceAll]
  | cons c s ih =>
    rw [escapeLabelValue_cons, mem_append, not_or]
    refine ⟨?_, ih⟩
    split_ifs with _ hline
    · decide
    · decide
    · decide
    · simpa using Ne.symm hline

theorem newline_notMem_labelsTail {ls : Labels} (hls : Named ls) : '\n' ∉ labelsTail ls := by
  induction ls with
  | nil => decide
  | cons l ls ih =>
    have htail := ih fun k hk => hls k (mem_cons_of_mem l hk)
    simp [labelsTail, formatLabel, newline_notMem_escape, (hls l mem_cons_self).2, htail]

theorem formatLabels_eq (labels extra : Labels) : formatLabels labels extra =
    match (withExtra labels extra).mergeSort fun a b => Utf16.le a.1 b.1 with
    | [] => []
    | l :: ls => '{' :: (formatLabel l ++ labelsTail ls) := by
  unfold formatLabels
  split <;> rename_i heq
  · simp [heq]
  · simp only [heq, reduceCtorEq, if_false, cons_append, intercalate_labels]

/-- **Labels are told apart by their text**, whatever their values are, where no name has an equals
sign or a line break; the text itself is on one line. -/
theorem formatLabels_identifies {labels extra labels' extra' : Labels}
    (hnamed : Named (withExtra labels extra)) (hnamed' : Named (withExtra labels' extra')) :
    '\n' ∉ formatLabels labels extra ∧ (formatLabels labels extra = formatLabels labels' extra' →
      (withExtra labels extra).Perm (withExtra labels' extra')) := by
  have hperm := mergeSort_perm (withExtra labels extra) fun a b => Utf16.le a.1 b.1
  have hperm' := mergeSort_perm (withExtra labels' extra') fun a b => Utf16.le a.1 b.1
  have hsort : Named _ := fun l hl => hnamed l (hperm.mem_iff.1 hl)
  have hsort' : Named _ := fun l hl => hnamed' l (hperm'.mem_iff.1 hl)
  refine ⟨?_, fun h => hperm.symm.trans (.trans (.of_eq ?_) hperm')⟩
  · rw [formatLabels_eq]
    split <;> rename_i heq
    · simp
    · rw [heq] at hsort
      simpa [labelsTail] using newline_notMem_labelsTail hsort
  · rw [formatLabels_eq, formatLabels_eq] at h
    split at h <;> rename_i heq <;> split at h <;> rename_i heq'
    · rw [heq, heq']
    · cases h
    · cases h
    · rw [heq] at hsort ⊢
      rw [heq'] at hsort' ⊢
      exact labelsTail_injective hsort hsort' (congrArg (',' :: ·) (List.cons.inj h).2)

theorem formatLabels_identifies_route : '\n' ∉ formatLabels [("route", "\n")] [("le", "1")] ∧
    (formatLabels [("route", "\n")] [("le", "1")] = formatLabels [("route", "\"")] [] →
      (withExtra [("route", "\n")] [("le", "1")]).Perm (withExtra [("route", "\"")] [])) :=
  formatLabels_identifies (by simp [Named, withExtra]) (by simp [Named, withExtra])

end BeauClick.Observability
