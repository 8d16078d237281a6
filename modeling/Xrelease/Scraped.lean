-- What a scraper reads off the metrics page: when the page is a valid exposition that shows what
-- was recorded, and nothing twice. A line feed in a label, two sinks of one name and a counter
-- past 64 bits each break it, and the format's groups hold only while nothing is labelled.
import Xrelease.Exposed

namespace xrelease.metrics

open keyed text exposition xrelease.model xrelease.advisory

/-! ## What the page should show -/

/-- A histogram reads back: the buckets are the observations within each bound, non-decreasing,
and the last of them is the count. -/
structure TimingReads (floats : Floats) (t : Timing) (ds : List Nat) (ss : List Sample) :
    Prop where
  buckets : ∃ values : List Nat,
    ss.filter (·.name = (t.name ++ "_bucket").toList) = buckets t.name les values ∧
      values = (List.range les.length).map (within_bound floats ds) ∧
      values.Pairwise (· ≤ ·) ∧ values.getLast? = some ds.length
  count : ss.filter (·.name = (t.name ++ "_count").toList) =
    [spelled (t.name ++ "_count") [] (toString ds.length)]

/-- The samples of the counters are what was recorded, under the ids and labels it was recorded
for. -/
structure ReadsBack (floats : Floats) (events : List Event) (ss : List Sample) : Prop where
  totals : ∀ c s, (s ∈ ss ∧ s.name = c.name.toList) ↔
    s = spelled c.name [] (toString (tally c events))
  sources : ∀ c s, (s ∈ ss ∧ s.name = c.name.toList) ↔
    ∃ id, source_tally id c events ≠ 0 ∧
      s = source_sample (id, c) (source_tally id c events)
  sinks : ∀ s, (s ∈ ss ∧ s.name = "xrelease_sink_deliveries_total".toList) ↔
    ∃ kind label result, sink_tally kind label result events ≠ 0 ∧
      s = sink_sample ((kind, label), result) (sink_tally kind label result events)
  timings : ∀ t, TimingReads floats t (durations t events) ss

/-- The text reads as lines that describe each metric once and first, show no series twice and
give back what was recorded. -/
def Scrapes (floats : Floats) (events : List Event) (body : String) : Prop :=
  ∃ lines, parse body.toList = some lines ∧ Described lines ∧ Distinct lines ∧
    ReadsBack floats events (samples lines)

/-- And its lines are grouped by metric, as the format asks. -/
def ScrapesGrouped (floats : Floats) (events : List Event) (body : String) : Prop :=
  ∃ lines, parse body.toList = some lines ∧ Described lines ∧ Distinct lines ∧
    ReadsBack floats events (samples lines) ∧ Grouped lines

/-! ## The condition -/

/-- No counter has run over. -/
structure Fits (events : List Event) : Prop where
  totals : ∀ c, tally c events < 2 ^ 64
  sources : ∀ id c, source_tally id c events < 2 ^ 64
  sinks : ∀ kind label result, sink_tally kind label result events < 2 ^ 64
  timings : ∀ t, (durations t events).length < 2 ^ 64

/-- The ids, kinds and labels that something is shown for have no line feed. -/
structure OneLineLabels (events : List Event) (sinks : List ConfiguredSink) : Prop where
  sources : ∀ id c, source_tally id c events ≠ 0 → '\n' ∉ id.toList
  deliveries : ∀ kind label result, sink_tally kind label result events ≠ 0 →
    '\n' ∉ kind.toList ∧ '\n' ∉ label.toList
  sinks : ∀ sink ∈ sinks, '\n' ∉ sink.kind.toList ∧ '\n' ∉ sink.label.toList

/-- Nothing was counted for a source or a sink, and no sink is configured. -/
structure Unlabelled (events : List Event) (sinks : List ConfiguredSink) : Prop where
  sources : ∀ id c, source_tally id c events = 0
  deliveries : ∀ kind label result, sink_tally kind label result events = 0
  sinks : sinks = []

/-! ## The labelled series -/

theorem mem_source_series {m : Metrics} {k : String × SourceCounter} :
    k ∈ m.source_series ↔ 0 < m.source_count k := by
  obtain ⟨id, c⟩ := k
  have hid : 0 < m.source_count (id, c) → id ∈ m.source_ids := by
    intro h
    unfold Metrics.source_count at h
    cases hget : m.by_source.get id with
    | none =>
      rw [hget] at h
      exact absurd h (Nat.lt_irrefl 0)
    | some stats =>
      refine (List.mergeSort_perm _ _).mem_iff.mpr ?_
      exact List.mem_map.mpr ⟨(id, stats), (Table.mem_rows_iff _ _ _).mpr hget, rfl⟩
  have hall : ∀ c : SourceCounter, c ∈ SourceCounter.all := by
    intro c
    cases c <;> decide
  unfold Metrics.source_series
  rw [List.mem_flatMap]
  constructor
  · rintro ⟨id', -, hm⟩
    obtain ⟨c', hc, he⟩ := List.mem_map.mp hm
    rw [Prod.mk.injEq] at he
    obtain ⟨rfl, rfl⟩ := he
    simpa using (List.mem_filter.mp hc).2
  · intro h
    refine ⟨id, hid h, List.mem_map.mpr ⟨c, List.mem_filter.mpr ⟨hall c, by simpa using h⟩, rfl⟩⟩

theorem mem_sink_series {m : Metrics} {k : (String × String) × SinkDeliveryResult} :
    k ∈ m.sink_series ↔ 0 < m.sink_count k := by
  obtain ⟨key, result⟩ := k
  have hkey : 0 < m.sink_count (key, result) → key ∈ m.sink_keys := by
    intro h
    unfold Metrics.sink_count at h
    cases hget : m.by_sink.get key with
    | none =>
      rw [hget] at h
      exact absurd h (Nat.lt_irrefl 0)
    | some stats =>
      refine (List.mergeSort_perm _ _).mem_iff.mpr ?_
      exact List.mem_map.mpr ⟨(key, stats), (Table.mem_rows_iff _ _ _).mpr hget, rfl⟩
  have hall : ∀ result : SinkDeliveryResult, result ∈ SinkDeliveryResult.all := by
    intro result
    cases result <;> decide
  unfold Metrics.sink_series
  rw [List.mem_flatMap]
  constructor
  · rintro ⟨key', -, hm⟩
    obtain ⟨result', hresult, he⟩ := List.mem_map.mp hm
    rw [Prod.mk.injEq] at he
    obtain ⟨rfl, rfl⟩ := he
    simpa using (List.mem_filter.mp hresult).2
  · intro h
    refine ⟨key, hkey h, List.mem_map.mpr ⟨result, ?_, rfl⟩⟩
    exact List.mem_filter.mpr ⟨hall result, by simpa using h⟩

/-- Blocks of pairs under different keys, each of different values, have no pair twice. -/
theorem nodup_blocks {α β : Type} {as : List α} {bs : α → List β} (has : as.Nodup)
    (hbs : ∀ a, (bs a).Nodup) : (as.flatMap (fun a => (bs a).map (fun b => (a, b)))).Nodup := by
  refine List.nodup_flatMap.mpr ⟨fun a _ => ?_, has.imp (fun {a a'} hne => ?_)⟩
  · exact (hbs a).map (fun b b' he => (Prod.mk.inj he).2)
  · intro p hp hp'
    obtain ⟨b, -, rfl⟩ := List.mem_map.mp hp
    obtain ⟨b', -, he⟩ := List.mem_map.mp hp'
    exact hne (Prod.mk.inj he).1.symm

theorem nodup_source_series (m : Metrics) : m.source_series.Nodup := by
  refine nodup_blocks ?_ (fun id => List.Nodup.filter _ (by decide))
  exact (List.mergeSort_perm _ _).nodup_iff.mpr m.by_source.nodup

theorem nodup_sink_series (m : Metrics) : m.sink_series.Nodup := by
  refine nodup_blocks ?_ (fun key => List.Nodup.filter _ (by decide))
  exact (List.mergeSort_perm _ _).nodup_iff.mpr m.by_sink.nodup

/-! ## Series that differ -/

/-- Samples with the same label names are one series only when their labels are the same. -/
theorem labels_of_same_series {name name' : String} {labels labels' : List (String × String)}
    {value value' : String}
    (h : same_series (spelled name labels value) (spelled name' labels' value'))
    (hnames : labels.map Prod.fst = labels'.map Prod.fst) (hdistinct : LabelNames labels) :
    labels = labels' := by
  have hmap := labels_eq h.2 (by
    change (labels.map _).map _ = (labels'.map _).map _
    rw [List.map_map, List.map_map]
    have hn := congrArg (List.map String.toList) hnames
    rwa [List.map_map, List.map_map] at hn) (by
    change ((labels.map _).map _).Nodup
    rw [List.map_map]
    exact hdistinct.2)
  refine List.map_injective_iff.mpr (fun l l' he => ?_) hmap
  rw [Prod.mk.injEq] at he
  exact Prod.ext (String.toList_inj.mp he.1) (String.toList_inj.mp he.2)

theorem source_name_inj {c c' : SourceCounter} (h : c.name = c'.name) : c = c' := by
  cases c <;> cases c' <;> first | rfl | simp [SourceCounter.name] at h

theorem source_name_ne (c : SourceCounter) :
    c.name ≠ "xrelease_sink_deliveries_total" ∧ c.name ≠ "xrelease_sink_breaker_open" := by
  cases c <;> simp [SourceCounter.name]

theorem result_text_inj {r r' : SinkDeliveryResult} (h : r.text = r'.text) : r = r' := by
  cases r <;> cases r' <;> first | rfl | simp [SinkDeliveryResult.text] at h

theorem source_series_ne {k k' : String × SourceCounter} (hne : k ≠ k') (n n' : Nat) :
    ¬ same_series (source_sample k n) (source_sample k' n') := by
  intro h
  have hc := source_name_inj (String.toList_inj.mp h.1)
  have hlabels := labels_of_same_series h rfl (one_label (by decide) k.1)
  simp at hlabels
  exact hne (Prod.ext hlabels hc)

theorem sink_series_ne {k k' : (String × String) × SinkDeliveryResult} (hne : k ≠ k') (n n' : Nat) :
    ¬ same_series (sink_sample k n) (sink_sample k' n') := by
  intro h
  have hlabels := labels_of_same_series h rfl (result_labels k.1.1 k.1.2 k.2.text)
  simp at hlabels
  exact hne (Prod.ext (Prod.ext hlabels.1 hlabels.2.1) (result_text_inj hlabels.2.2))

theorem breaker_series_iff (view view' : BreakerOpenView) :
    same_series (breaker_sample view) (breaker_sample view') ↔
      (view.kind, view.label) = (view'.kind, view'.label) := by
  constructor
  · intro h
    have hlabels := labels_of_same_series h rfl (sink_labels view.kind view.label)
    simpa using hlabels
  · intro h
    rw [Prod.mk.injEq] at h
    unfold breaker_sample
    rw [h.1, h.2]
    exact ⟨rfl, List.Perm.refl _⟩

/-- The labelled series are distinct when no two views of breakers are of one kind and label. -/
theorem loose_distinct_iff (m : Metrics) (breakers : List BreakerOpenView) :
    (loose m breakers).Pairwise (fun s t => ¬ same_series s t) ↔
      (breakers.map (fun view => (view.kind, view.label))).Nodup := by
  have hviews : (breakers.map breaker_sample).Pairwise (fun s t => ¬ same_series s t) ↔
      (breakers.map (fun view => (view.kind, view.label))).Nodup := by
    unfold List.Nodup
    rw [List.pairwise_map, List.pairwise_map]
    exact iff_of_eq (congrArg (fun R => breakers.Pairwise R)
      (funext fun v => funext fun v' => propext (not_congr (breaker_series_iff v v'))))
  rw [← hviews]
  unfold loose
  rw [List.pairwise_append, List.pairwise_append]
  refine ⟨fun h => h.2.1, fun h => ⟨⟨?_, ?_, ?_⟩, h, ?_⟩⟩
  · rw [List.pairwise_map]
    exact (nodup_source_series m).imp (fun hne => source_series_ne hne _ _)
  · rw [List.pairwise_map]
    exact (nodup_sink_series m).imp (fun hne => sink_series_ne hne _ _)
  · intro s hs t ht hst
    obtain ⟨k, -, rfl⟩ := List.mem_map.mp hs
    obtain ⟨k', -, rfl⟩ := List.mem_map.mp ht
    exact (source_name_ne k.2).1 (String.toList_inj.mp hst.1)
  · intro s hs t ht hst
    obtain ⟨view, -, rfl⟩ := List.mem_map.mp ht
    rcases List.mem_append.mp hs with hs | hs
    · obtain ⟨k, -, rfl⟩ := List.mem_map.mp hs
      exact (source_name_ne k.2).2 (String.toList_inj.mp hst.1)
    · obtain ⟨k, -, rfl⟩ := List.mem_map.mp hs
      have hname : "xrelease_sink_deliveries_total" = "xrelease_sink_breaker_open" :=
        String.toList_inj.mp hst.1
      simp at hname

theorem buckets_distinct (name : String) {bounds : List String} (h : bounds.Nodup)
    (values : List Nat) :
    (buckets name bounds values).Pairwise (fun s t => ¬ same_series s t) := by
  induction bounds generalizing values with
  | nil => exact List.Pairwise.nil
  | cons le bounds ih =>
    cases values with
    | nil => exact List.Pairwise.nil
    | cons n values =>
      rw [List.nodup_cons] at h
      refine List.Pairwise.cons (fun s hs hst => ?_) (ih h.2 values)
      obtain ⟨le', hle, n', rfl⟩ := mem_buckets hs
      have hlabels := labels_of_same_series hst rfl (one_label (by decide) le)
      simp at hlabels
      exact h.1 (hlabels ▸ hle)

theorem families_distinct (floats : Floats) (m : Metrics) (sources_configured uptime_secs : Nat)
    (outbox : OutboxCounts) :
    ∀ f ∈ families floats m sources_configured uptime_secs outbox,
      f.samples.Pairwise (fun s t => ¬ same_series s t) := by
  intro f hf
  rcases (mem_families floats m sources_configured uptime_secs outbox).mp hf with
    ⟨e, he, rfl⟩ | ⟨t, rfl⟩
  · unfold Entry.family
    cases e.sample with
    | none => exact List.Pairwise.nil
    | some p => exact List.pairwise_singleton _ _
  · unfold Histogram.family
    refine List.pairwise_append.mpr ⟨buckets_distinct _ les_nodup _, ?_, ?_⟩
    · simp [same_series, spelled]
    · intro s hs s' hs' hst
      obtain ⟨le, -, n, rfl⟩ := mem_buckets hs
      simp only [List.mem_cons, List.not_mem_nil, or_false] at hs'
      rcases hs' with rfl | rfl
      · simp [same_series, spelled] at hst
      · simp [same_series, spelled] at hst

/-! ## Lines without a line feed -/

theorem spelled_one_line_iff {name : String} {labels : List (String × String)} {value : String} :
    (spelled name labels value).OneLine ↔ ∀ l ∈ labels, '\n' ∉ l.2.toList := by
  unfold Sample.OneLine spelled
  exact List.forall_mem_map

section
variable (floats : Floats) (m : Metrics) (sources_configured uptime_secs : Nat)
  (outbox : OutboxCounts) (breakers : List BreakerOpenView)

theorem families_one_line : ∀ f ∈ families floats m sources_configured uptime_secs outbox,
    ∀ s ∈ f.samples, s.OneLine := by
  intro f hf s hs
  rcases (mem_families floats m sources_configured uptime_secs outbox).mp hf with
    ⟨e, he, rfl⟩ | ⟨t, rfl⟩
  · unfold Entry.family at hs
    cases hsample : e.sample with
    | none =>
      rw [hsample] at hs
      cases hs
    | some p =>
      rw [hsample] at hs
      rw [List.mem_singleton.mp hs, spelled_one_line_iff]
      rcases head_labels m sources_configured uptime_secs outbox e he p (by simp [hsample]) with
        hp | hp
      · simp [hp]
      · have hversion : '\n' ∉ "0.3.4".toList := by decide
        rw [hp]
        exact List.forall_mem_singleton.mpr hversion
  · rcases List.mem_append.mp hs with hs | hs
    · obtain ⟨le, hmem, n, rfl⟩ := mem_buckets hs
      rw [spelled_one_line_iff]
      obtain ⟨chars, rfl, hplain⟩ := les_plain le hmem
      refine List.forall_mem_singleton.mpr (fun hm => ?_)
      rw [String.toList_ofList] at hm
      exact absurd (List.all_eq_true.mp hplain _ hm) (by decide)
    · simp only [List.mem_cons, List.not_mem_nil, or_false] at hs
      rcases hs with rfl | rfl
      · exact spelled_one_line_iff.mpr (by simp)
      · exact spelled_one_line_iff.mpr (by simp)

theorem page_one_line_iff :
    (∀ line ∈ page (families floats m sources_configured uptime_secs outbox) (loose m breakers),
      line.OneLine) ↔ ∀ s ∈ loose m breakers, s.OneLine := by
  unfold page
  constructor
  · intro h s hs
    exact h (.sample s) (List.mem_append_right _ (List.mem_map_of_mem hs))
  · intro h line hline
    rcases List.mem_append.mp hline with hline | hline
    · obtain ⟨f, hf, hline⟩ := List.mem_flatMap.mp hline
      cases line with
      | sample s =>
        exact families_one_line floats m sources_configured uptime_secs outbox f hf s
          (sample_mem_lines hline)
      | blank => trivial
      | comment => trivial
      | help name text => trivial
      | type name kind => trivial
    · obtain ⟨s, hs, rfl⟩ := List.mem_map.mp hline
      exact h s hs

/-- The page reads as its lines, unless a label that is shown has a line feed. -/
theorem parse_render_iff (lines : List Line) :
    parse (m.render_prometheus floats sources_configured outbox uptime_secs breakers).toList =
        some lines ↔
      (∀ s ∈ loose m breakers, s.OneLine) ∧
        lines = page (families floats m sources_configured uptime_secs outbox)
          (loose m breakers) := by
  have hplain := page_plain floats m sources_configured uptime_secs outbox breakers
  have hiff := page_one_line_iff floats m sources_configured uptime_secs outbox breakers
  rw [render_toList]
  by_cases hline : ∀ s ∈ loose m breakers, s.OneLine
  · rw [parse_print escapes hplain (hiff.mpr hline), Option.some_inj]
    exact ⟨fun h => ⟨hline, h.symm⟩, fun h => h.2.symm⟩
  · have hfeed : ∃ line ∈ page (families floats m sources_configured uptime_secs outbox)
        (loose m breakers), ¬ line.OneLine := by
      by_contra hno
      refine hline (hiff.mp (fun line hmem => ?_))
      by_contra hbad
      exact hno ⟨line, hmem, hbad⟩
    rw [parse_cut escapes hplain hfeed]
    exact ⟨fun h => (by cases h), fun h => absurd h.1 hline⟩

end

/-! ## The samples by name -/

section
variable (floats : Floats) (m : Metrics) (sources_configured uptime_secs : Nat)
  (outbox : OutboxCounts) (breakers : List BreakerOpenView)

/-- The samples of the page. -/
def shown_samples : List Sample :=
  samples (page (families floats m sources_configured uptime_secs outbox) (loose m breakers))

theorem total_described (c : Total) :
    ∃ help, total m c help ∈ head m sources_configured uptime_secs outbox := by
  have hmem : ∀ (i : Nat) (help : String),
      (head m sources_configured uptime_secs outbox)[i]? = some (total m c help) →
        ∃ help, total m c help ∈ head m sources_configured uptime_secs outbox :=
    fun i help h => ⟨help, List.mem_of_getElem? h⟩
  cases c with
  | polls_total => exact hmem 3 _ rfl
  | polls_not_modified => exact hmem 4 _ rfl
  | polls_errors => exact hmem 5 _ rfl
  | notifications_total => exact hmem 6 _ rfl
  | webhooks_accepted => exact hmem 13 _ rfl
  | webhooks_ignored => exact hmem 14 _ rfl
  | webhooks_duplicates => exact hmem 15 _ rfl
  | webhooks_errors => exact hmem 16 _ rfl
  | config_apply_total => exact hmem 17 _ rfl
  | config_apply_rejected_total => exact hmem 18 _ rfl
  | outbox_enqueued_total => exact hmem 23 _ rfl
  | outbox_delivery_failures_total => exact hmem 24 _ rfl
  | outbox_dead_lettered_total => exact hmem 25 _ rfl
  | outbox_requeued_total => exact hmem 26 _ rfl
  | http_rate_limited_total => exact hmem 27 _ rfl
  | prune_deleted_total => exact hmem 28 _ rfl
  | notify_breaker_skips => exact hmem 29 _ rfl

theorem total_shown (c : Total) (s : Sample) :
    (s ∈ shown_samples floats m sources_configured uptime_secs outbox breakers ∧
      s.name = c.name.toList) ↔ s = spelled c.name [] (toString (m.totals c)) := by
  obtain ⟨help, he⟩ := total_described m sources_configured uptime_secs outbox c
  have hsound := page_sound floats m sources_configured uptime_secs outbox breakers
  have hf := (mem_families floats m sources_configured uptime_secs outbox).mpr (Or.inl ⟨_, he, rfl⟩)
  have hn : c.name.toList ∈ (total m c help).family.sample_names := by
    rw [head_sample_names m sources_configured uptime_secs outbox he]
    exact List.mem_singleton.mpr rfl
  have hsamples : (total m c help).family.samples =
      [spelled c.name [] (toString (m.totals c))] := rfl
  have hnamed := hsound.named hf hn
  rw [hsound.none_loose hf hn (by simp [hsamples]), hsamples] at hnamed
  have hmem : s ∈ (shown_samples floats m sources_configured uptime_secs outbox breakers).filter
      (·.name = c.name.toList) ↔ s = spelled c.name [] (toString (m.totals c)) := by
    unfold shown_samples
    rw [hnamed]
    simp [spelled]
  rw [← hmem, List.mem_filter, decide_eq_true_eq]

/-- The samples of a metric that is only described are the loose ones of its name. -/
theorem labelled_shown {name : String} (hname : name ∈ labelled) (s : Sample) :
    (s ∈ shown_samples floats m sources_configured uptime_secs outbox breakers ∧
      s.name = name.toList) ↔ s ∈ loose m breakers ∧ s.name = name.toList := by
  obtain ⟨e, he, rfl, hnone⟩ :=
    labelled_described m sources_configured uptime_secs outbox name hname
  have hsound := page_sound floats m sources_configured uptime_secs outbox breakers
  have hf := (mem_families floats m sources_configured uptime_secs outbox).mpr (Or.inl ⟨_, he, rfl⟩)
  have hn : e.name.toList ∈ e.family.sample_names := by
    rw [head_sample_names m sources_configured uptime_secs outbox he]
    exact List.mem_singleton.mpr rfl
  have hsamples : e.family.samples = [] := by
    unfold Entry.family
    rw [hnone]
    rfl
  have hnamed := hsound.named hf hn
  rw [hsamples, List.filter_nil, List.nil_append] at hnamed
  have hmem : s ∈ (shown_samples floats m sources_configured uptime_secs outbox breakers).filter
      (·.name = e.name.toList) ↔ s ∈ (loose m breakers).filter (·.name = e.name.toList) := by
    unfold shown_samples
    rw [hnamed]
  rw [List.mem_filter, List.mem_filter, decide_eq_true_eq] at hmem
  exact hmem

theorem source_shown (c : SourceCounter) (s : Sample) :
    (s ∈ shown_samples floats m sources_configured uptime_secs outbox breakers ∧
      s.name = c.name.toList) ↔
      ∃ id, m.source_count (id, c) ≠ 0 ∧ s = source_sample (id, c) (m.source_count (id, c)) := by
  rw [labelled_shown floats m sources_configured uptime_secs outbox breakers
    (by cases c <;> simp [labelled, SourceCounter.all]) s]
  unfold loose
  constructor
  · rintro ⟨hs, hname⟩
    rw [List.mem_append, List.mem_append] at hs
    rcases hs with (hs | hs) | hs
    · obtain ⟨⟨id, c'⟩, hk, rfl⟩ := List.mem_map.mp hs
      obtain rfl := source_name_inj (String.toList_inj.mp hname)
      exact ⟨id, Nat.pos_iff_ne_zero.mp (mem_source_series.mp hk), rfl⟩
    · obtain ⟨k, -, rfl⟩ := List.mem_map.mp hs
      exact absurd (String.toList_inj.mp hname).symm (source_name_ne c).1
    · obtain ⟨view, -, rfl⟩ := List.mem_map.mp hs
      exact absurd (String.toList_inj.mp hname).symm (source_name_ne c).2
  · rintro ⟨id, hne, rfl⟩
    refine ⟨List.mem_append_left _ (List.mem_append_left _ ?_), rfl⟩
    exact List.mem_map.mpr ⟨(id, c), mem_source_series.mpr (Nat.pos_of_ne_zero hne), rfl⟩

theorem sink_shown (s : Sample) :
    (s ∈ shown_samples floats m sources_configured uptime_secs outbox breakers ∧
      s.name = "xrelease_sink_deliveries_total".toList) ↔
      ∃ kind label result, m.sink_count ((kind, label), result) ≠ 0 ∧
        s = sink_sample ((kind, label), result) (m.sink_count ((kind, label), result)) := by
  rw [labelled_shown floats m sources_configured uptime_secs outbox breakers
    (by simp [labelled]) s]
  unfold loose
  constructor
  · rintro ⟨hs, hname⟩
    rw [List.mem_append, List.mem_append] at hs
    rcases hs with (hs | hs) | hs
    · obtain ⟨k, -, rfl⟩ := List.mem_map.mp hs
      exact absurd (String.toList_inj.mp hname) (source_name_ne k.2).1
    · obtain ⟨⟨⟨kind, label⟩, result⟩, hk, rfl⟩ := List.mem_map.mp hs
      exact ⟨kind, label, result, Nat.pos_iff_ne_zero.mp (mem_sink_series.mp hk), rfl⟩
    · obtain ⟨view, -, rfl⟩ := List.mem_map.mp hs
      have hsame : "xrelease_sink_breaker_open" = "xrelease_sink_deliveries_total" :=
        String.toList_inj.mp hname
      simp at hsame
  · rintro ⟨kind, label, result, hne, rfl⟩
    refine ⟨List.mem_append_left _ (List.mem_append_right _ ?_), rfl⟩
    exact List.mem_map.mpr
      ⟨((kind, label), result), mem_sink_series.mpr (Nat.pos_of_ne_zero hne), rfl⟩

/-- The samples of a histogram are those of its family. -/
theorem timing_shown (t : Timing) {n : List Char}
    (hn : n ∈ ((m.histogram t).family floats t.name t.help).sample_names) :
    (shown_samples floats m sources_configured uptime_secs outbox breakers).filter (·.name = n) =
      ((m.histogram t).family floats t.name t.help).samples.filter (·.name = n) := by
  have hsound := page_sound floats m sources_configured uptime_secs outbox breakers
  have hf := (mem_families floats m sources_configured uptime_secs outbox).mpr (Or.inr ⟨t, rfl⟩)
  unfold shown_samples
  rw [hsound.named hf hn, hsound.none_loose hf hn, List.append_nil]
  simp [Histogram.family]

end

/-! ## What was recorded is shown -/

theorem spelled_value_inj {name : String} {labels : List (String × String)} {a b : Nat}
    (h : spelled name labels (toString a) = spelled name labels (toString b)) : a = b := by
  have hvalue : (toString a).toList = (toString b).toList := congrArg Sample.value h
  exact toString_inj (String.toList_inj.mp hvalue)

theorem lt_of_mod_eq {a : Nat} (h : a = a % 2 ^ 64) : a < 2 ^ 64 := by
  rw [h]
  exact Nat.mod_lt _ (by decide)

theorem filter_other {s : Sample} {n : List Char} (h : s.name ≠ n) (ss : List Sample) :
    (s :: ss).filter (·.name = n) = ss.filter (·.name = n) :=
  List.filter_cons_of_neg (fun hn => h (of_decide_eq_true hn))

theorem bucket_samples (floats : Floats) (h : Histogram) (name help : String) :
    (h.family floats name help).samples.filter (·.name = (name ++ "_bucket").toList) =
      buckets name les (running 0 h.counts) := by
  have hsum : ∀ v, (spelled (name ++ "_sum") [] v).name ≠ (name ++ "_bucket").toList := by
    simp [spelled]
  have hcount : ∀ v, (spelled (name ++ "_count") [] v).name ≠ (name ++ "_bucket").toList := by
    simp [spelled]
  have hall : (buckets name les (running 0 h.counts)).filter
      (·.name = (name ++ "_bucket").toList) = buckets name les (running 0 h.counts) := by
    refine List.filter_eq_self.mpr (fun s hs => ?_)
    obtain ⟨le, -, n, rfl⟩ := mem_buckets hs
    exact decide_eq_true rfl
  change (buckets name les (running 0 h.counts) ++ [_, _]).filter _ = _
  rw [List.filter_append, hall, filter_other (hsum _), filter_other (hcount _), List.filter_nil,
    List.append_nil]

theorem count_samples (floats : Floats) (h : Histogram) (name help : String) :
    (h.family floats name help).samples.filter (·.name = (name ++ "_count").toList) =
      [spelled (name ++ "_count") [] (toString h.count)] := by
  have hsum : ∀ v, (spelled (name ++ "_sum") [] v).name ≠ (name ++ "_count").toList := by
    simp [spelled]
  have hbucket : (name ++ "_bucket").toList ≠ (name ++ "_count").toList := by simp
  have hnone : (buckets name les (running 0 h.counts)).filter
      (·.name = (name ++ "_count").toList) = [] := by
    refine List.filter_eq_nil_iff.mpr (fun s hs hname => ?_)
    obtain ⟨le, -, n, rfl⟩ := mem_buckets hs
    exact hbucket (of_decide_eq_true hname)
  change (buckets name les (running 0 h.counts) ++ [_, _]).filter _ = _
  rw [List.filter_append, hnone, filter_other (hsum _), List.nil_append]
  exact List.filter_cons_of_pos (decide_eq_true rfl)

section
variable (floats : Floats) (events : List Event) (sources_configured uptime_secs : Nat)
  (outbox : OutboxCounts) (breakers : List BreakerOpenView)

theorem timing_reads_iff (t : Timing) :
    TimingReads floats t (durations t events)
        (shown_samples floats (recorded floats events) sources_configured uptime_secs outbox
          breakers) ↔ (durations t events).length < 2 ^ 64 := by
  have hcounts := observed_counts floats (durations t events)
  rw [← recorded_histogram] at hcounts
  have hbuckets := timing_shown floats (recorded floats events) sources_configured uptime_secs
    outbox breakers t (n := (t.name ++ "_bucket").toList) (by simp [histogram_sample_names])
  have hcount := timing_shown floats (recorded floats events) sources_configured uptime_secs
    outbox breakers t (n := (t.name ++ "_count").toList) (by simp [histogram_sample_names])
  rw [bucket_samples, running_counts hcounts] at hbuckets
  rw [count_samples, hcounts.2] at hcount
  constructor
  · intro h
    have heq := h.count
    rw [hcount, List.cons.injEq] at heq
    exact lt_of_mod_eq (spelled_value_inj heq.1).symm
  · intro hlt
    have hmod : ∀ i, within_bound floats (durations t events) i % 2 ^ 64 =
        within_bound floats (durations t events) i := fun i =>
      Nat.mod_eq_of_lt (Nat.lt_of_le_of_lt (within_bound_le floats _ i) hlt)
    simp only [hmod] at hbuckets
    rw [Nat.mod_eq_of_lt hlt] at hcount
    refine ⟨⟨_, hbuckets, rfl, ?_, ?_⟩, hcount⟩
    · rw [List.pairwise_map]
      exact List.pairwise_lt_range.imp (fun h => within_bound_mono floats _ (Nat.le_of_lt h))
    · rw [← within_infinity floats (durations t events), List.getLast?_map]
      rfl

/-- The counters read back when none has run over. -/
theorem reads_back_iff :
    ReadsBack floats events
        (shown_samples floats (recorded floats events) sources_configured uptime_secs outbox
          breakers) ↔ Fits events := by
  have htotal := total_shown floats (recorded floats events) sources_configured uptime_secs
    outbox breakers
  have hsource := source_shown floats (recorded floats events) sources_configured uptime_secs
    outbox breakers
  have hsink := sink_shown floats (recorded floats events) sources_configured uptime_secs
    outbox breakers
  have htiming := timing_reads_iff floats events sources_configured uptime_secs outbox breakers
  simp only [recorded_totals] at htotal
  simp only [recorded_sources] at hsource
  simp only [recorded_sinks] at hsink
  constructor
  · intro h
    refine ⟨fun c => ?_, fun id c => ?_, fun kind label result => ?_,
      fun t => (htiming t).mp (h.timings t)⟩
    · have hs := (htotal c _).mp ((h.totals c _).mpr rfl)
      exact lt_of_mod_eq (spelled_value_inj hs)
    · by_cases hzero : source_tally id c events = 0
      · rw [hzero]
        decide
      · obtain ⟨id', -, hs⟩ := (hsource c _).mp ((h.sources c _).mpr ⟨id, hzero, rfl⟩)
        have hid : id = id' := by
          have hlabels := congrArg Sample.labels hs
          simp [source_sample, spelled] at hlabels
          exact String.toList_inj.mp hlabels
        subst hid
        exact lt_of_mod_eq (spelled_value_inj hs)
    · by_cases hzero : sink_tally kind label result events = 0
      · rw [hzero]
        decide
      · obtain ⟨kind', label', result', -, hs⟩ :=
          (hsink _).mp ((h.sinks _).mpr ⟨kind, label, result, hzero, rfl⟩)
        have hkey : kind = kind' ∧ label = label' ∧ result = result' := by
          have hlabels := congrArg Sample.labels hs
          simp [sink_sample, spelled] at hlabels
          exact ⟨String.toList_inj.mp hlabels.1, String.toList_inj.mp hlabels.2.1,
            result_text_inj (String.toList_inj.mp hlabels.2.2)⟩
        obtain ⟨rfl, rfl, rfl⟩ := hkey
        exact lt_of_mod_eq (spelled_value_inj hs)
  · intro h
    refine ⟨fun c s => ?_, fun c s => ?_, fun s => ?_, fun t => (htiming t).mpr (h.timings t)⟩
    · rw [htotal c s, Nat.mod_eq_of_lt (h.totals c)]
    · rw [hsource c s]
      simp only [Nat.mod_eq_of_lt (h.sources _ c)]
    · rw [hsink s]
      simp only [Nat.mod_eq_of_lt (h.sinks _ _ _)]

end

/-! ## When the page reads back -/

theorem breaker_states_labels (sinks : List ConfiguredSink) (breakers : List Breaker)
    (now : DateTime) :
    (breaker_states sinks breakers now).map (fun view => (view.kind, view.label)) =
      sinks.map (fun sink => (sink.kind, sink.label)) := by
  unfold breaker_states
  rw [List.map_map]
  change sinks.zipIdx.map ((fun sink : ConfiguredSink => (sink.kind, sink.label)) ∘ Prod.fst) = _
  rw [← List.map_map, List.zipIdx_map_fst]

theorem breaker_states_nodup_iff (sinks : List ConfiguredSink) (breakers : List Breaker)
    (now : DateTime) :
    ((breaker_states sinks breakers now).map (fun view => (view.kind, view.label))).Nodup ↔
      sinks.Nodup := by
  rw [breaker_states_labels]
  refine List.nodup_map_iff (fun sink sink' h => ?_)
  cases sink
  cases sink'
  rw [Prod.mk.injEq] at h
  rw [ConfiguredSink.mk.injEq]
  exact h

theorem loose_one_line_iff (m : Metrics) (breakers : List BreakerOpenView) :
    (∀ s ∈ loose m breakers, s.OneLine) ↔
      (∀ k, m.source_count k ≠ 0 → '\n' ∉ k.1.toList) ∧
      (∀ k, m.sink_count k ≠ 0 → '\n' ∉ k.1.1.toList ∧ '\n' ∉ k.1.2.toList) ∧
      ∀ p ∈ breakers.map (fun view => (view.kind, view.label)),
        '\n' ∉ p.1.toList ∧ '\n' ∉ p.2.toList := by
  have hsource : ∀ k n, (source_sample k n).OneLine ↔ '\n' ∉ k.1.toList := by
    intro k n
    unfold source_sample
    rw [spelled_one_line_iff]
    exact List.forall_mem_singleton
  have hsink : ∀ k n, (sink_sample k n).OneLine ↔
      '\n' ∉ k.1.1.toList ∧ '\n' ∉ k.1.2.toList := by
    intro k n
    have hresult : '\n' ∉ k.2.text.toList := by cases k.2 <;> decide
    unfold sink_sample
    rw [spelled_one_line_iff, List.forall_mem_cons, List.forall_mem_cons,
      List.forall_mem_singleton, and_iff_left hresult]
  have hbreaker : ∀ view, (breaker_sample view).OneLine ↔
      '\n' ∉ view.kind.toList ∧ '\n' ∉ view.label.toList := by
    intro view
    unfold breaker_sample
    rw [spelled_one_line_iff, List.forall_mem_cons, List.forall_mem_singleton]
  unfold loose
  rw [List.forall_mem_append, List.forall_mem_append, List.forall_mem_map, List.forall_mem_map,
    List.forall_mem_map, List.forall_mem_map, and_assoc]
  refine and_congr ?_ (and_congr ?_ ?_)
  · exact forall_congr' (fun k => imp_congr
      (mem_source_series.trans Nat.pos_iff_ne_zero) (hsource k _))
  · exact forall_congr' (fun k => imp_congr
      (mem_sink_series.trans Nat.pos_iff_ne_zero) (hsink k _))
  · exact forall_congr' (fun view => imp_congr Iff.rfl (hbreaker view))

section
variable (floats : Floats) (events : List Event) (sources_configured uptime_secs : Nat)
  (outbox : OutboxCounts) (sinks : List ConfiguredSink) (breakers : List Breaker) (now : DateTime)

/-- What `GET /metrics` answers after the events. -/
def metrics_body : String :=
  (recorded floats events).render_prometheus floats sources_configured outbox uptime_secs
    (breaker_states sinks breakers now)

theorem labels_one_line_iff (hfits : Fits events) :
    (∀ s ∈ loose (recorded floats events) (breaker_states sinks breakers now), s.OneLine) ↔
      OneLineLabels events sinks := by
  have hsource : ∀ id c, (recorded floats events).source_count (id, c) =
      source_tally id c events := fun id c =>
    (recorded_sources floats events id c).trans (Nat.mod_eq_of_lt (hfits.sources id c))
  have hsink : ∀ kind label result, (recorded floats events).sink_count ((kind, label), result) =
      sink_tally kind label result events := fun kind label result =>
    (recorded_sinks floats events kind label result).trans
      (Nat.mod_eq_of_lt (hfits.sinks kind label result))
  rw [loose_one_line_iff, breaker_states_labels, List.forall_mem_map]
  constructor
  · rintro ⟨hsources, hsinks, hviews⟩
    refine ⟨fun id c hne => ?_, fun kind label result hne => ?_, hviews⟩
    · rw [← hsource id c] at hne
      exact hsources (id, c) hne
    · rw [← hsink kind label result] at hne
      exact hsinks ((kind, label), result) hne
  · intro h
    refine ⟨fun k hne => ?_, fun k hne => ?_, h.sinks⟩
    · rw [hsource k.1 k.2] at hne
      exact h.sources k.1 k.2 hne
    · rw [hsink k.1.1 k.1.2 k.2] at hne
      exact h.deliveries k.1.1 k.1.2 k.2 hne

/-- The page reads back when no counter has run over, what is shown has no line feed, and no two
sinks have one kind and label. -/
theorem scrapes_iff :
    Scrapes floats events
        (metrics_body floats events sources_configured uptime_secs outbox sinks breakers now) ↔
      Fits events ∧ OneLineLabels events sinks ∧ sinks.Nodup := by
  have hsound := page_sound floats (recorded floats events) sources_configured uptime_secs outbox
    (breaker_states sinks breakers now)
  have hreads := reads_back_iff floats events sources_configured uptime_secs outbox
    (breaker_states sinks breakers now)
  have hdistinct := hsound.distinct_iff (families_distinct floats (recorded floats events)
    sources_configured uptime_secs outbox)
  rw [loose_distinct_iff, breaker_states_nodup_iff] at hdistinct
  unfold Scrapes metrics_body
  constructor
  · rintro ⟨lines, hparse, -, hlines, hback⟩
    obtain ⟨hone, rfl⟩ := (parse_render_iff _ _ _ _ _ _ lines).mp hparse
    have hfits := hreads.mp hback
    exact ⟨hfits, (labels_one_line_iff floats events sinks breakers now hfits).mp hone,
      hdistinct.mp hlines⟩
  · rintro ⟨hfits, hone, hnodup⟩
    refine ⟨_, (parse_render_iff _ _ _ _ _ _ _).mpr ⟨?_, rfl⟩, hsound.described,
      hdistinct.mpr hnodup, hreads.mpr hfits⟩
    exact (labels_one_line_iff floats events sinks breakers now hfits).mpr hone

/-- A labelled sample is apart from its describing lines: the first block is between them. -/
theorem not_grouped {s : Sample} {m : Metrics} {views : List BreakerOpenView}
    (hs : s ∈ loose m views) :
    ¬ Grouped (page (families floats m sources_configured uptime_secs outbox) (loose m views)) := by
  obtain ⟨name, hname, hsname⟩ := loose_labelled m views hs
  obtain ⟨e, he, rfl, -⟩ := labelled_described m sources_configured uptime_secs outbox name hname
  obtain ⟨front, back, hsplit⟩ := List.append_of_mem (List.mem_map_of_mem (f := Entry.family) he)
  have hfamilies : families floats m sources_configured uptime_secs outbox =
      front ++ e.family :: (back ++
        Timing.all.map (fun t => (m.histogram t).family floats t.name t.help)) := by
    unfold families
    rw [hsplit, List.append_assoc, List.cons_append]
  refine (page_sound floats m sources_configured uptime_secs outbox views).not_grouped hs hfamilies
    (by simp [Timing.all]) ?_
  rw [hsname, head_sample_names m sources_configured uptime_secs outbox he]
  exact List.mem_singleton.mpr rfl

theorem loose_nil_iff (hfits : Fits events) :
    loose (recorded floats events) (breaker_states sinks breakers now) = [] ↔
      Unlabelled events sinks := by
  have hviews : breaker_states sinks breakers now = [] ↔ sinks = [] := by
    unfold breaker_states
    simp
  unfold loose
  rw [List.append_eq_nil_iff, List.append_eq_nil_iff, List.map_eq_nil_iff, List.map_eq_nil_iff,
    List.map_eq_nil_iff, List.eq_nil_iff_forall_not_mem, List.eq_nil_iff_forall_not_mem, hviews]
  constructor
  · rintro ⟨⟨hsources, hsinks⟩, hnone⟩
    refine ⟨fun id c => ?_, fun kind label result => ?_, hnone⟩
    · have h := hsources (id, c)
      rw [mem_source_series, recorded_sources, Nat.mod_eq_of_lt (hfits.sources id c)] at h
      omega
    · have h := hsinks ((kind, label), result)
      rw [mem_sink_series, recorded_sinks, Nat.mod_eq_of_lt (hfits.sinks kind label result)] at h
      omega
  · intro h
    refine ⟨⟨fun k hk => ?_, fun k hk => ?_⟩, h.sinks⟩
    · rw [mem_source_series, ← Prod.mk.eta (p := k), recorded_sources, h.sources] at hk
      exact absurd hk (by decide)
    · obtain ⟨⟨kind, label⟩, result⟩ := k
      rw [mem_sink_series, recorded_sinks, h.deliveries] at hk
      exact absurd hk (by decide)

/-- With the groups that the format asks for, the page must have no labelled sample. -/
theorem scrapes_grouped_iff :
    ScrapesGrouped floats events
        (metrics_body floats events sources_configured uptime_secs outbox sinks breakers now) ↔
      Fits events ∧ Unlabelled events sinks := by
  have hscrapes := scrapes_iff floats events sources_configured uptime_secs outbox sinks breakers
    now
  constructor
  · rintro ⟨lines, hparse, hdescribed, hdistinct, hback, hgrouped⟩
    have hfits := (hscrapes.mp ⟨lines, hparse, hdescribed, hdistinct, hback⟩).1
    refine ⟨hfits, (loose_nil_iff floats events sinks breakers now hfits).mp ?_⟩
    obtain ⟨-, rfl⟩ := (parse_render_iff _ _ _ _ _ _ lines).mp hparse
    refine List.eq_nil_iff_forall_not_mem.mpr (fun s hs => ?_)
    exact not_grouped floats sources_configured uptime_secs outbox hs hgrouped
  · rintro ⟨hfits, hnone⟩
    have hone : OneLineLabels events sinks := by
      refine ⟨fun id c hne => absurd (hnone.sources id c) hne,
        fun kind label result hne => absurd (hnone.deliveries kind label result) hne, ?_⟩
      rw [hnone.sinks]
      simp
    have hnodup : sinks.Nodup := by
      rw [hnone.sinks]
      exact List.nodup_nil
    obtain ⟨lines, hparse, hdescribed, hdistinct, hback⟩ := hscrapes.mpr ⟨hfits, hone, hnodup⟩
    refine ⟨lines, hparse, hdescribed, hdistinct, hback, ?_⟩
    obtain ⟨-, rfl⟩ := (parse_render_iff _ _ _ _ _ _ lines).mp hparse
    have hsound := page_sound floats (recorded floats events) sources_configured uptime_secs outbox
      (breaker_states sinks breakers now)
    rw [(loose_nil_iff floats events sinks breakers now hfits).mpr hnone] at hsound ⊢
    exact hsound.grouped

end

/-- When the metrics page is a valid exposition that reads back as recorded: with the format's
groups only while nothing labelled is shown, and without them when no counter has run over, no id,
kind or label that is shown has a line feed, and no two sinks have one kind and label. -/
theorem the_metrics_page_reads_back_iff (floats : Floats) (events : List Event)
    (sources_configured uptime_secs : Nat) (outbox : OutboxCounts) (sinks : List ConfiguredSink)
    (breakers : List Breaker) (now : DateTime) :
    (ScrapesGrouped floats events
        (metrics_body floats events sources_configured uptime_secs outbox sinks breakers now) ↔
      Fits events ∧ Unlabelled events sinks) ∧
    (Scrapes floats events
        (metrics_body floats events sources_configured uptime_secs outbox sinks breakers now) ↔
      Fits events ∧ OneLineLabels events sinks ∧ sinks.Nodup) :=
  ⟨scrapes_grouped_iff floats events sources_configured uptime_secs outbox sinks breakers now,
    scrapes_iff floats events sources_configured uptime_secs outbox sinks breakers now⟩

/-! ## Pages that do not read back -/

/-- Microseconds as decimal seconds, without trailing zeros. -/
def exact_seconds (micros : Nat) : String :=
  let whole := Nat.toDigits 10 (micros / 10 ^ 6)
  let fraction := (padLeft 6 '0' (Nat.toDigits 10 (micros % 10 ^ 6))).rdropWhile (· == '0')
  String.ofList (if fraction.isEmpty then whole else whole ++ '.' :: fraction)

/-- Bounds and sums without rounding. -/
def exact_floats : Floats where
  within duration i :=
    duration ≤ 1000 * [5000, 10000, 25000, 50000, 100000, 250000, 500000, 1000000, 2500000, 5000000,
      10000000, 30000000].getD i 0
  seconds := exact_seconds
  decimal := by
    intro micros
    have hdigit : ∀ n c, c ∈ Nat.toDigits 10 n → c.isDigit = true := fun n c hc =>
      Nat.isDigit_of_mem_toDigits (by decide) (by decide) hc
    refine ⟨Nat.toDigits 10 (micros / 10 ^ 6),
      (padLeft 6 '0' (Nat.toDigits 10 (micros % 10 ^ 6))).rdropWhile (· == '0'),
      Nat.toDigits_ne_nil, fun c hc => ?_, ?_⟩
    · rcases List.mem_append.mp hc with hc | hc
      · exact hdigit _ c hc
      · have hc := (List.rdropWhile_prefix _ _).subset hc
        unfold padLeft at hc
        rcases List.mem_append.mp hc with hc | hc
        · rw [List.eq_of_mem_replicate hc]
          decide
        · exact hdigit _ c hc
    · unfold exact_seconds
      rw [String.toList_ofList]
      split
      · exact Or.inl rfl
      · exact Or.inr rfl

/-- Two webhook sinks without a name of their own. -/
def twins : List ConfiguredSink := [⟨"webhook", "webhook"⟩, ⟨"webhook", "webhook"⟩]

/-- Two sinks of one kind and label show a series twice, a line feed in an id breaks its line, and
the samples of a polled source stand apart from their type. -/
theorem three_pages_that_do_not_read_back :
    ¬ Scrapes exact_floats []
        (metrics_body exact_floats [] 0 0 ⟨0, 0, 0, 0⟩ twins [] 0) ∧
      ¬ Scrapes exact_floats [.poll "rss:a\nb" .delivered]
        (metrics_body exact_floats [.poll "rss:a\nb" .delivered] 1 0 ⟨0, 0, 0, 0⟩ [] [] 0) ∧
      ¬ ScrapesGrouped exact_floats [.poll "github:a/b" .delivered]
        (metrics_body exact_floats [.poll "github:a/b" .delivered] 1 0 ⟨0, 0, 0, 0⟩ [] [] 0) := by
  refine ⟨fun h => ?_, fun h => ?_, fun h => ?_⟩
  · have hnodup := ((scrapes_iff _ _ _ _ _ _ _ _).mp h).2.2
    exact absurd hnodup (by decide)
  · have hone := ((scrapes_iff _ _ _ _ _ _ _ _).mp h).2.1
    exact hone.sources "rss:a\nb" .polls (by decide) (by decide)
  · have hnone := ((scrapes_grouped_iff _ _ _ _ _ _ _ _).mp h).2
    exact absurd (hnone.sources "github:a/b" .polls) (by decide)

end xrelease.metrics
