-- The page that the registry renders is the print of its metrics, family by family, with the
-- labelled samples behind them: what `escape_label` does to a value, the fixed texts, and the
-- samples as they stand on the page.
import Xrelease.Families
import Xrelease.Tallied

namespace xrelease.metrics

open keyed text exposition

/-! ## Escaping -/

/-- `escape_label`, character by character. -/
def escape (v : List Char) : List Char :=
  v.flatMap (fun c => if c = '\\' then ['\\', '\\'] else if c = '"' then ['\\', '"'] else [c])

theorem replace_toList (value : String) (c : Char) (piece : String) :
    (replace value c piece).toList =
      value.toList.flatMap (fun d => if d = c then piece.toList else [d]) :=
  String.toList_ofList

theorem escape_label_toList (value : String) :
    (escape_label value).toList = escape value.toList := by
  unfold escape_label escape
  rw [replace_toList, replace_toList, List.flatMap_assoc]
  refine List.flatMap_congr (fun c _ => ?_)
  by_cases hb : c = '\\'
  · subst hb
    rfl
  · rw [if_neg hb, if_neg hb, List.flatMap_cons, List.flatMap_nil, List.append_nil]
    rfl

theorem escape_cons (c : Char) (v : List Char) :
    escape (c :: v) =
      (if c = '\\' then ['\\', '\\'] else if c = '"' then ['\\', '"'] else [c]) ++ escape v := rfl

theorem read_escape (v s : List Char) : read_quoted (escape v ++ '"' :: s) = some (v, s) := by
  induction v with
  | nil => rfl
  | cons c v ih =>
    rw [escape_cons]
    by_cases hb : c = '\\'
    · subst hb
      rw [if_pos rfl]
      change read_quoted ('\\' :: '\\' :: (escape v ++ '"' :: s)) = _
      rw [read_quoted, ih]
      rfl
    · by_cases hq : c = '"'
      · subst hq
        rw [if_neg hb, if_pos rfl]
        change read_quoted ('\\' :: '"' :: (escape v ++ '"' :: s)) = _
        rw [read_quoted, ih]
        rfl
      · rw [if_neg hb, if_neg hq, List.append_assoc, List.singleton_append, read_quoted, ih]
        · rfl
        · exact hq
        · exact fun _ h _ => hb h
        · exact fun _ h _ => hb h
        · exact fun _ h _ => hb h
        · exact hb

/-- Before its closing quote an escaped value does not end. -/
theorem read_unclosed (v : List Char) : read_quoted (escape v) = none := by
  induction v with
  | nil => rfl
  | cons c v ih =>
    rw [escape_cons]
    by_cases hb : c = '\\'
    · subst hb
      rw [if_pos rfl]
      change read_quoted ('\\' :: '\\' :: escape v) = _
      rw [read_quoted, ih]
      rfl
    · by_cases hq : c = '"'
      · subst hq
        rw [if_neg hb, if_pos rfl]
        change read_quoted ('\\' :: '"' :: escape v) = _
        rw [read_quoted, ih]
        rfl
      · rw [if_neg hb, if_neg hq, List.singleton_append, read_quoted, ih]
        · rfl
        · exact hq
        · exact fun _ h _ => hb h
        · exact fun _ h _ => hb h
        · exact fun _ h _ => hb h
        · exact hb

theorem escape_one_line {v : List Char} (hv : '\n' ∉ v) : '\n' ∉ escape v := by
  intro hm
  unfold escape at hm
  obtain ⟨c, hc, hm⟩ := List.mem_flatMap.mp hm
  split at hm
  · simp at hm
  · split at hm
    · simp at hm
    · rw [List.mem_singleton] at hm
      exact hv (hm ▸ hc)

/-- A backslash and a quote come back; a line feed is let through. -/
theorem escapes : Escapes escape where
  reads v _ s := read_escape v s
  one_line v hv := escape_one_line hv
  cuts v hv := by
    obtain ⟨before, after, rfl, hbefore⟩ := List.eq_append_cons_of_mem hv
    refine ⟨escape before, escape after, ?_, escape_one_line hbefore, read_unclosed before⟩
    unfold escape
    rw [List.flatMap_append]
    rfl

/-- A character that a label's value shows as it is. -/
def is_plain (c : Char) : Bool := c != '\\' && c != '"' && c != '\n'

theorem escape_plain {v : List Char} (h : v.all is_plain = true) : escape v = v := by
  induction v with
  | nil => rfl
  | cons c v ih =>
    rw [List.all_cons, Bool.and_eq_true] at h
    have hc : c ≠ '\\' ∧ c ≠ '"' := by
      have hp := h.1
      unfold is_plain at hp
      simp only [Bool.and_eq_true, bne_iff_ne] at hp
      exact hp.1
    rw [escape_cons, if_neg hc.1, if_neg hc.2, ih h.2]
    rfl

theorem escape_label_plain {value : String} {chars : List Char} (hvalue : value = String.ofList chars)
    (h : chars.all is_plain = true) : escape_label value = value := by
  refine String.toList_inj.mp ?_
  rw [escape_label_toList, hvalue, String.toList_ofList, escape_plain h]

/-! ## Lines as the renderer writes them -/

/-- A sample with its labels before escaping. -/
def spelled (name : String) (labels : List (String × String)) (value : String) : Sample :=
  ⟨name.toList, labels.map (fun l => (l.1.toList, l.2.toList)), value.toList, none⟩

def escaped (labels : List (String × String)) : List (String × String) :=
  labels.map (fun l => (l.1, escape_label l.2))

theorem print_append (lines lines' : List Line) :
    print escape (lines ++ lines') = print escape lines ++ print escape lines' :=
  List.flatMap_append

theorem labels_toList (labels : List (String × String)) (hne : labels ≠ []) :
    (",".intercalate ((escaped labels).map (fun l => l.1 ++ "=\"" ++ l.2 ++ "\"")) ++
      "\x7d").toList =
      print_labels escape (labels.map (fun l => (l.1.toList, l.2.toList))) := by
  have hlabel : ∀ l : String × String,
      (l.1 ++ "=\"" ++ escape_label l.2 ++ "\"").toList =
        print_label escape (l.1.toList, l.2.toList) := by
    intro l
    rw [String.toList_append, String.toList_append, String.toList_append, escape_label_toList]
    simp [print_label]
  rw [String.toList_append, String.toList_intercalate]
  induction labels with
  | nil => exact absurd rfl hne
  | cons l labels ih =>
    cases labels with
    | nil => simp [escaped, hlabel, print_labels]
    | cons l' ls =>
      have hrest := ih (List.cons_ne_nil l' ls)
      unfold escaped at hrest ⊢
      rw [List.map_cons, List.map_cons, List.map_cons] at hrest ⊢
      rw [List.map_cons, List.map_cons, List.map_cons, List.intercalate_cons_cons,
        List.append_assoc, hrest]
      dsimp only
      rw [hlabel, List.append_assoc]
      rfl

/-- The renderer's sample line is the printed sample. -/
theorem series_toList (name : String) (labels : List (String × String)) (value : String) :
    (series name (escaped labels) value).toList =
      print escape [.sample (spelled name labels value)] := by
  have hline : (series name (escaped labels) value).toList =
      print_sample escape (spelled name labels value) ++ ['\n'] := by
    unfold series
    by_cases hnil : labels = []
    · subst hnil
      simp [escaped, print_sample, spelled]
    · have hempty : (escaped labels).isEmpty = false := by
        cases labels with
        | nil => exact absurd rfl hnil
        | cons l ls => rfl
      have hlabels := labels_toList labels hnil
      rw [String.toList_append] at hlabels
      have hne : labels.map (fun l => (l.1.toList, l.2.toList)) ≠ [] := by simpa using hnil
      rw [hempty]
      simp only [Bool.false_eq_true, if_false, String.toList_append, List.append_assoc] at hlabels ⊢
      rw [print_sample, spelled, if_neg hne, ← hlabels]
      simp
  rw [hline]
  simp [print, print_line]

theorem describe_toList (name help kind : String) :
    (describe name help kind).toList =
      print escape [.help name.toList help.toList, .type name.toList kind.toList] := by
  unfold describe
  simp [print, print_line]

/-! ## The families of the page -/

def Entry.family (e : Entry) : Family where
  name := e.name.toList
  text := e.help.toList
  kind := e.kind.toList
  samples := e.sample.elim [] (fun s => [spelled e.name s.1 (toString s.2)])

theorem entry_toList {e : Entry} (h : ∀ s ∈ e.sample, escaped s.1 = s.1) :
    e.render.toList = print escape e.family.lines := by
  unfold Entry.render
  rw [String.toList_append, describe_toList]
  cases hs : e.sample with
  | none =>
    unfold Family.lines Entry.family
    rw [hs]
    exact List.append_nil _
  | some s =>
    have hline := series_toList e.name s.1 (toString s.2)
    rw [h s (by simp [hs])] at hline
    unfold Family.lines Entry.family
    rw [hs, Option.elim_some, hline, ← print_append]
    rfl

/-- The labels of the buckets. -/
def les : List String := latency_bounds ++ ["+Inf"]

/-- The bounds are spelled in plain characters, each once. -/
theorem les_chars : ∃ ls : List (List Char), les = ls.map String.ofList ∧
    ls.all (·.all is_plain) = true ∧ ls.Nodup :=
  ⟨[_, _, _, _, _, _, _, _, _, _, _, _, _], rfl, by decide +kernel, by decide +kernel⟩

theorem les_plain : ∀ le ∈ les, ∃ chars, le = String.ofList chars ∧ chars.all is_plain = true := by
  obtain ⟨ls, hles, hplain, -⟩ := les_chars
  intro le hle
  rw [hles] at hle
  obtain ⟨chars, hchars, rfl⟩ := List.mem_map.mp hle
  exact ⟨chars, rfl, List.all_eq_true.mp hplain chars hchars⟩

theorem les_nodup : les.Nodup := by
  obtain ⟨ls, hles, -, hnodup⟩ := les_chars
  rw [hles]
  refine hnodup.map (fun l l' h => ?_)
  have hl := congrArg String.toList h
  rwa [String.toList_ofList, String.toList_ofList] at hl

theorem les_verbatim : ∀ le ∈ les, escape_label le = le := by
  intro le hle
  obtain ⟨chars, hvalue, hplain⟩ := les_plain le hle
  exact escape_label_plain hvalue hplain

theorem result_plain (result : SinkDeliveryResult) :
    ∃ chars, result.text = String.ofList chars ∧ chars.all is_plain = true := by
  cases result with
  | ok => exact ⟨_, rfl, by decide⟩
  | error => exact ⟨_, rfl, by decide⟩
  | breaker => exact ⟨_, rfl, by decide⟩

def buckets (name : String) (bounds : List String) (values : List Nat) : List Sample :=
  List.zipWith (fun le n => spelled (name ++ "_bucket") [("le", le)] (toString n)) bounds values

def Histogram.family (floats : Floats) (h : Histogram) (name help : String) : Family where
  name := name.toList
  text := help.toList
  kind := histogram
  samples := buckets name les (running 0 h.counts) ++
    [spelled (name ++ "_sum") [] (floats.seconds h.sum_micros),
      spelled (name ++ "_count") [] (toString h.count)]

theorem bucket_lines_toList (name : String) {bounds : List String}
    (hbounds : ∀ le ∈ bounds, escape_label le = le) (cumulative : Nat) (ns : List Nat) :
    (bucket_lines name cumulative (bounds.zip ns)).toList =
      print escape ((buckets name bounds (running cumulative ns)).map .sample) := by
  induction bounds generalizing cumulative ns with
  | nil => rfl
  | cons le bounds ih =>
    cases ns with
    | nil => rfl
    | cons n ns =>
      have hrest := ih (fun b hb => hbounds b (List.mem_cons_of_mem _ hb))
        (fetch_add cumulative n) ns
      have hline := series_toList (name ++ "_bucket") [("le", le)]
        (toString (fetch_add cumulative n))
      have hle : escaped [("le", le)] = [("le", le)] := by
        unfold escaped
        rw [List.map_cons, hbounds le List.mem_cons_self]
        rfl
      rw [hle] at hline
      rw [List.zip_cons_cons, bucket_lines, String.toList_append, hline, hrest, ← print_append]
      rfl

theorem histogram_toList (floats : Floats) (h : Histogram) (name help : String) :
    (h.render floats name help).toList = print escape (h.family floats name help).lines := by
  have hsum := series_toList (name ++ "_sum") [] (floats.seconds h.sum_micros)
  have hcount := series_toList (name ++ "_count") [] (toString h.count)
  have hbuckets := bucket_lines_toList name les_verbatim 0 h.counts
  unfold Histogram.render
  rw [String.toList_append, String.toList_append, String.toList_append, describe_toList]
  change _ ++ (bucket_lines name 0 (les.zip h.counts)).toList ++
    (series (name ++ "_sum") (escaped []) _).toList ++
    (series (name ++ "_count") (escaped []) _).toList = _
  have hkind : "histogram".toList = histogram := rfl
  rw [hbuckets, hsum, hcount, ← print_append, ← print_append, ← print_append, hkind]
  simp [Family.lines, Histogram.family]

def Timing.name : Timing → String
  | .poll => "xrelease_poll_duration_seconds"
  | .notify => "xrelease_notify_duration_seconds"
  | .outbox_flush => "xrelease_outbox_flush_duration_seconds"

def Timing.help : Timing → String
  | .poll => "Wall time of one poll_once cycle (fetch, diff, inline delivery)."
  | .notify => "Wall time to deliver one leased outbox row to its pending sinks."
  | .outbox_flush => "Wall time of one outbox flush batch (claim + concurrent delivery)."

def Timing.all : List Timing := [.poll, .notify, .outbox_flush]

def families (floats : Floats) (m : Metrics) (sources_configured uptime_secs : Nat)
    (outbox : OutboxCounts) : List Family :=
  (head m sources_configured uptime_secs outbox).map Entry.family ++
    Timing.all.map (fun t => (m.histogram t).family floats t.name t.help)

/-! ## The labelled samples -/

/-- The source counters that are not zero, in the order of the page. -/
def Metrics.source_series (m : Metrics) : List (String × SourceCounter) :=
  m.source_ids.flatMap (fun id =>
    (SourceCounter.all.filter (fun c => 0 < m.source_count (id, c))).map (fun c => (id, c)))

def Metrics.sink_series (m : Metrics) : List ((String × String) × SinkDeliveryResult) :=
  m.sink_keys.flatMap (fun key =>
    (SinkDeliveryResult.all.filter (fun result => 0 < m.sink_count (key, result))).map
      (fun result => (key, result)))

def source_sample (k : String × SourceCounter) (n : Nat) : Sample :=
  spelled k.2.name [("source", k.1)] (toString n)

def sink_sample (k : (String × String) × SinkDeliveryResult) (n : Nat) : Sample :=
  spelled "xrelease_sink_deliveries_total"
    [("kind", k.1.1), ("sink", k.1.2), ("result", k.2.text)] (toString n)

def breaker_sample (view : BreakerOpenView) : Sample :=
  spelled "xrelease_sink_breaker_open" [("kind", view.kind), ("sink", view.label)]
    (if view.open then "1" else "0")

/-- The samples behind the families. -/
def loose (m : Metrics) (breakers : List BreakerOpenView) : List Sample :=
  m.source_series.map (fun k => source_sample k (m.source_count k)) ++
    m.sink_series.map (fun k => sink_sample k (m.sink_count k)) ++ breakers.map breaker_sample

/-! ## The rendered text -/

theorem join_toList {α : Type} (l : List α) (f : α → String) :
    (String.join (l.map f)).toList = l.flatMap (fun a => (f a).toList) := by
  rw [String.toList_join, List.flatMap_map]

theorem print_flatMap {α : Type} (l : List α) (f : α → List Line) :
    print escape (l.flatMap f) = l.flatMap (fun a => print escape (f a)) := by
  unfold print
  rw [List.flatMap_assoc]

/-- The lines of the counters that are not zero. -/
theorem counted_toList {α : Type} (cs : List α) (name : α → String)
    (labels : α → List (String × String)) (f : α → Nat) :
    (String.join (cs.map (fun c => counted (name c) (escaped (labels c)) (f c)))).toList =
      print escape (((cs.filter (fun c => 0 < f c)).map
        (fun c => spelled (name c) (labels c) (toString (f c)))).map .sample) := by
  rw [join_toList]
  induction cs with
  | nil => rfl
  | cons c cs ih =>
    rw [List.flatMap_cons, ih]
    unfold counted
    by_cases hc : 0 < f c
    · rw [if_pos hc, series_toList, List.filter_cons_of_pos (by simpa using hc), List.map_cons,
        List.map_cons, ← print_append]
      rfl
    · rw [if_neg hc, List.filter_cons_of_neg (by simpa using hc)]
      rfl

theorem sources_toList (m : Metrics) :
    (String.join (m.source_ids.map
      (fun id => (m.by_source.get id).elim "" (source_lines id)))).toList =
      print escape ((m.source_series.map
        (fun k => source_sample k (m.source_count k))).map .sample) := by
  unfold Metrics.source_series
  rw [join_toList, List.map_flatMap, List.map_flatMap, print_flatMap]
  refine List.flatMap_congr (fun id _ => ?_)
  rw [List.map_map]
  cases hget : m.by_source.get id with
  | none =>
    have hzero : ∀ c, m.source_count (id, c) = 0 := by
      intro c
      unfold Metrics.source_count
      rw [hget]
      rfl
    rw [List.filter_eq_nil_iff.mpr (fun c _ => by simp [hzero c])]
    rfl
  | some stats =>
    have hcount : ∀ c, m.source_count (id, c) = stats.count c := by
      intro c
      unfold Metrics.source_count
      rw [hget]
      rfl
    have hlines := counted_toList SourceCounter.all SourceCounter.name (fun _ => [("source", id)])
      stats.count
    simp only [hcount]
    rw [Option.elim_some]
    exact hlines.trans (by simp [Function.comp_def, hcount, source_sample])

theorem sinks_toList (m : Metrics) :
    (String.join (m.sink_keys.map
      (fun key => (m.by_sink.get key).elim "" (sink_lines key)))).toList =
      print escape ((m.sink_series.map (fun k => sink_sample k (m.sink_count k))).map .sample) := by
  unfold Metrics.sink_series
  rw [join_toList, List.map_flatMap, List.map_flatMap, print_flatMap]
  refine List.flatMap_congr (fun key _ => ?_)
  rw [List.map_map]
  cases hget : m.by_sink.get key with
  | none =>
    have hzero : ∀ result, m.sink_count (key, result) = 0 := by
      intro result
      unfold Metrics.sink_count
      rw [hget]
      rfl
    rw [List.filter_eq_nil_iff.mpr (fun result _ => by simp [hzero result])]
    rfl
  | some stats =>
    have hcount : ∀ result, m.sink_count (key, result) = stats.count result := by
      intro result
      unfold Metrics.sink_count
      rw [hget]
      rfl
    have hlines := counted_toList SinkDeliveryResult.all (fun _ => "xrelease_sink_deliveries_total")
      (fun result => [("kind", key.1), ("sink", key.2), ("result", result.text)]) stats.count
    have hlabels : ∀ result : SinkDeliveryResult,
        escaped [("kind", key.1), ("sink", key.2), ("result", result.text)] =
          [("kind", escape_label key.1), ("sink", escape_label key.2),
            ("result", result.text)] := by
      intro result
      obtain ⟨chars, hvalue, hplain⟩ := result_plain result
      have htext := escape_label_plain hvalue hplain
      simp [escaped, htext]
    simp only [hcount]
    simp only [hlabels] at hlines
    rw [Option.elim_some]
    exact hlines.trans (by simp [Function.comp_def, hcount, sink_sample])

theorem breakers_toList (breakers : List BreakerOpenView) :
    (String.join (breakers.map breaker_line)).toList =
      print escape ((breakers.map breaker_sample).map .sample) := by
  rw [join_toList]
  induction breakers with
  | nil => rfl
  | cons view breakers ih =>
    have hline := series_toList "xrelease_sink_breaker_open"
      [("kind", view.kind), ("sink", view.label)] (if view.open then "1" else "0")
    have hview : (breaker_line view).toList = print escape [.sample (breaker_sample view)] := hline
    rw [List.flatMap_cons, ih, hview, ← print_append]
    rfl

theorem head_verbatim (m : Metrics) (sources_configured uptime_secs : Nat) (outbox : OutboxCounts) :
    ∀ e ∈ head m sources_configured uptime_secs outbox, ∀ s ∈ e.sample, escaped s.1 = s.1 := by
  have hplain := @escape_label_plain "0.3.4" _ rfl (by decide)
  have hversion : escaped [("version", "0.3.4")] = [("version", "0.3.4")] := by
    simp [escaped, hplain]
  have hnone : escaped [] = [] := rfl
  simp [head, total, hversion, hnone]

/-- The page is the print of its families and of the labelled samples. -/
theorem render_toList (floats : Floats) (m : Metrics) (sources_configured : Nat)
    (outbox : OutboxCounts) (uptime_secs : Nat) (breakers : List BreakerOpenView) :
    (m.render_prometheus floats sources_configured outbox uptime_secs breakers).toList =
      print escape (page (families floats m sources_configured uptime_secs outbox)
        (loose m breakers)) := by
  have hhead : (String.join
      ((head m sources_configured uptime_secs outbox).map Entry.render)).toList =
      print escape (((head m sources_configured uptime_secs outbox).map Entry.family).flatMap
        Family.lines) := by
    rw [join_toList, List.flatMap_map, print_flatMap]
    exact List.flatMap_congr (fun e he =>
      entry_toList (head_verbatim m sources_configured uptime_secs outbox e he))
  unfold Metrics.render_prometheus
  simp only [String.toList_append]
  rw [hhead, sources_toList, sinks_toList, breakers_toList, histogram_toList, histogram_toList,
    histogram_toList]
  unfold page families loose
  simp only [List.flatMap_append, List.map_append, print_append, Timing.all, List.map_cons,
    List.map_nil, List.flatMap_cons, List.flatMap_nil, List.append_nil, List.append_assoc]
  rfl

/-! ## The fixed texts -/

/-- The names, help texts and types of the page, in its order. -/
def texts (m : Metrics) (sources_configured uptime_secs : Nat) (outbox : OutboxCounts) :
    List (String × String × String) :=
  (head m sources_configured uptime_secs outbox).map (fun e => (e.name, e.help, e.kind)) ++
    Timing.all.map (fun t => (t.name, t.help, "histogram"))

def of_chars (l : List Char × List Char × List Char) : String × String × String :=
  (String.ofList l.1, String.ofList l.2.1, String.ofList l.2.2)

/-- A name, a help text and a type that can stand in their lines. -/
def line_ok (l : List Char × List Char × List Char) : Bool :=
  is_name l.1 && l.2.1.all (fun c => c != '\\' && c != '\n') && !l.2.1.head?.any is_blank &&
    kinds.contains l.2.2

/-- The fixed texts are well formed, and no two metrics share a name or a name of their samples. -/
theorem catalogue : ∃ ls : List (List Char × List Char × List Char),
    (∀ m sources_configured uptime_secs outbox,
      texts m sources_configured uptime_secs outbox = ls.map of_chars) ∧
    ls.all line_ok = true ∧
    ls.Pairwise (fun k l => k.1 ≠ l.1 ∧
      ∀ n ∈ sample_names k.1 k.2.2, n ∉ sample_names l.1 l.2.2) := by
  -- the characters of each literal are found by unification, line by line
  refine ⟨[(_, _, _), (_, _, _), (_, _, _), (_, _, _), (_, _, _), (_, _, _), (_, _, _), (_, _, _),
    (_, _, _), (_, _, _), (_, _, _), (_, _, _), (_, _, _), (_, _, _), (_, _, _), (_, _, _),
    (_, _, _), (_, _, _), (_, _, _), (_, _, _), (_, _, _), (_, _, _), (_, _, _), (_, _, _),
    (_, _, _), (_, _, _), (_, _, _), (_, _, _), (_, _, _), (_, _, _), (_, _, _), (_, _, _),
    (_, _, _)], fun _ _ _ _ => rfl, ?_, ?_⟩
  · decide +kernel
  · decide +kernel

section
variable (floats : Floats) (m : Metrics) (sources_configured uptime_secs : Nat)
  (outbox : OutboxCounts) (breakers : List BreakerOpenView)

theorem families_texts :
    (families floats m sources_configured uptime_secs outbox).map
        (fun f => (f.name, f.text, f.kind)) =
      (texts m sources_configured uptime_secs outbox).map
        (fun t => (t.1.toList, t.2.1.toList, t.2.2.toList)) := by
  unfold families texts
  rw [List.map_append, List.map_append, List.map_map, List.map_map, List.map_map, List.map_map]
  rfl

/-- What the catalogue says, said of the families. -/
theorem families_ok :
    (∀ f ∈ families floats m sources_configured uptime_secs outbox,
      line_ok (f.name, f.text, f.kind) = true) ∧
    (families floats m sources_configured uptime_secs outbox).Pairwise
      (fun f g => f.name ≠ g.name ∧ ∀ n ∈ f.sample_names, n ∉ g.sample_names) := by
  obtain ⟨ls, htexts, hok, happart⟩ := catalogue
  have hmap := families_texts floats m sources_configured uptime_secs outbox
  have hback : (ls.map of_chars).map (fun t => (t.1.toList, t.2.1.toList, t.2.2.toList)) = ls := by
    rw [List.map_map]
    refine (List.map_congr_left (fun l _ => ?_)).trans (List.map_id ls)
    simp [of_chars]
  rw [htexts, hback] at hmap
  refine ⟨fun f hf => ?_, ?_⟩
  · refine List.all_eq_true.mp hok _ ?_
    rw [← hmap]
    exact List.mem_map.mpr ⟨f, hf, rfl⟩
  · rw [← hmap, List.pairwise_map] at happart
    exact happart

/-- The metrics of the first block are counters and gauges. -/
theorem head_kinds : ∀ e ∈ head m sources_configured uptime_secs outbox,
    e.kind = "counter" ∨ e.kind = "gauge" := by
  simp [head, total]

theorem mem_families {f : Family} :
    f ∈ families floats m sources_configured uptime_secs outbox ↔
      (∃ e ∈ head m sources_configured uptime_secs outbox, e.family = f) ∨
        ∃ t, (m.histogram t).family floats t.name t.help = f := by
  unfold families
  rw [List.mem_append, List.mem_map, List.mem_map]
  refine or_congr Iff.rfl ⟨fun ⟨t, _, h⟩ => ⟨t, h⟩, fun ⟨t, h⟩ => ⟨t, ?_, h⟩⟩
  cases t <;> simp [Timing.all]

theorem head_sample_names {e : Entry} (he : e ∈ head m sources_configured uptime_secs outbox) :
    e.family.sample_names = [e.name.toList] := by
  unfold Family.sample_names Entry.family
  rcases head_kinds m sources_configured uptime_secs outbox e he with hk | hk
  · rw [hk]
    rfl
  · rw [hk]
    rfl

theorem histogram_sample_names (h : Histogram) (name help : String) :
    (h.family floats name help).sample_names =
      [(name ++ "_bucket").toList, (name ++ "_sum").toList, (name ++ "_count").toList] := by
  rw [String.toList_append, String.toList_append, String.toList_append]
  rfl

theorem mem_buckets {name : String} {bounds : List String} {values : List Nat} {s : Sample}
    (h : s ∈ buckets name bounds values) :
    ∃ le ∈ bounds, ∃ n : Nat, s = spelled (name ++ "_bucket") [("le", le)] (toString n) := by
  induction bounds generalizing values with
  | nil => cases h
  | cons le bounds ih =>
    cases values with
    | nil => cases h
    | cons n values =>
      rcases List.mem_cons.mp h with rfl | h
      · exact ⟨le, List.mem_cons_self, n, rfl⟩
      · obtain ⟨le', hle, n', hs⟩ := ih h
        exact ⟨le', List.mem_cons_of_mem _ hle, n', hs⟩

theorem families_owned : ∀ f ∈ families floats m sources_configured uptime_secs outbox,
    ∀ s ∈ f.samples, s.name ∈ f.sample_names := by
  intro f hf s hs
  rcases (mem_families floats m sources_configured uptime_secs outbox).mp hf with
    ⟨e, he, rfl⟩ | ⟨t, rfl⟩
  · rw [head_sample_names m sources_configured uptime_secs outbox he]
    unfold Entry.family at hs
    cases hsample : e.sample with
    | none =>
      rw [hsample] at hs
      cases hs
    | some p =>
      rw [hsample] at hs
      rw [List.mem_singleton.mp hs]
      exact List.mem_singleton.mpr rfl
  · rw [histogram_sample_names]
    rcases List.mem_append.mp hs with hs | hs
    · obtain ⟨le, -, n, rfl⟩ := mem_buckets hs
      exact List.mem_cons_self
    · simp only [List.mem_cons, List.not_mem_nil, or_false] at hs
      rcases hs with rfl | rfl
      · exact List.mem_cons_of_mem _ List.mem_cons_self
      · exact List.mem_cons_of_mem _ (List.mem_cons_of_mem _ List.mem_cons_self)

/-- The metrics that the first block only describes. -/
def labelled : List String :=
  SourceCounter.all.map SourceCounter.name ++
    ["xrelease_sink_deliveries_total", "xrelease_sink_breaker_open"]

theorem labelled_described : ∀ name ∈ labelled,
    ∃ e ∈ head m sources_configured uptime_secs outbox, e.name = name ∧ e.sample = none := by
  have hmem : ∀ (i : Nat) (e : Entry),
      (head m sources_configured uptime_secs outbox)[i]? = some e → e.sample = none →
      ∃ e' ∈ head m sources_configured uptime_secs outbox, e'.name = e.name ∧ e'.sample = none :=
    fun i e hi hnone => ⟨e, List.mem_of_getElem? hi, rfl, hnone⟩
  intro name hname
  simp only [labelled, SourceCounter.all, List.map_cons, List.map_nil, List.cons_append,
    List.nil_append, List.mem_cons, List.not_mem_nil, or_false] at hname
  rcases hname with rfl | rfl | rfl | rfl | rfl | rfl
  · exact hmem 7 _ rfl rfl
  · exact hmem 8 _ rfl rfl
  · exact hmem 9 _ rfl rfl
  · exact hmem 10 _ rfl rfl
  · exact hmem 11 _ rfl rfl
  · exact hmem 12 _ rfl rfl

theorem loose_labelled {s : Sample} (hs : s ∈ loose m breakers) :
    ∃ name ∈ labelled, s.name = name.toList := by
  unfold loose at hs
  rw [List.mem_append, List.mem_append] at hs
  rcases hs with (hs | hs) | hs
  · obtain ⟨⟨id, c⟩, -, rfl⟩ := List.mem_map.mp hs
    refine ⟨c.name, ?_, rfl⟩
    cases c <;> simp [labelled, SourceCounter.all]
  · obtain ⟨k, -, rfl⟩ := List.mem_map.mp hs
    exact ⟨"xrelease_sink_deliveries_total", by simp [labelled], rfl⟩
  · obtain ⟨view, -, rfl⟩ := List.mem_map.mp hs
    exact ⟨"xrelease_sink_breaker_open", by simp [labelled], rfl⟩

theorem page_sound :
    Sound (families floats m sources_configured uptime_secs outbox) (loose m breakers) where
  names := List.pairwise_map.mpr
    ((families_ok floats m sources_configured uptime_secs outbox).2.imp (fun h => h.1))
  apart := (families_ok floats m sources_configured uptime_secs outbox).2.imp (fun h => h.2)
  owned := families_owned floats m sources_configured uptime_secs outbox
  placed := by
    intro s hs
    obtain ⟨name, hname, hs⟩ := loose_labelled m breakers hs
    obtain ⟨e, he, rfl, hnone⟩ :=
      labelled_described m sources_configured uptime_secs outbox name hname
    refine ⟨e.family, ?_, ?_, ?_⟩
    · exact (mem_families floats m sources_configured uptime_secs outbox).mpr (Or.inl ⟨e, he, rfl⟩)
    · rw [head_sample_names m sources_configured uptime_secs outbox he, hs]
      exact List.mem_singleton.mpr rfl
    · unfold Entry.family
      rw [hnone]
      rfl

end

/-! ## The lines are plain -/

/-- A value that a sample line can show. -/
def Value (value : String) : Prop := is_float value.toList = true ∧ Solid value.toList

theorem value_of_digits {value : String} {whole : List Char} (hne : whole ≠ [])
    (hwhole : ∀ c ∈ whole, c.isDigit = true) (h : value.toList = whole) : Value value := by
  have hfloat := float_of_digits hne hwhole (Or.inl rfl)
  rw [List.append_nil] at hfloat
  unfold Value
  rw [h]
  exact ⟨hfloat, solid_of_digits hwhole⟩

theorem value_nat (n : Nat) : Value (toString n) := by
  have h : (toString n).toList = Nat.toDigits 10 n := Nat.toList_repr
  exact value_of_digits (Nat.toDigits_ne_nil) (fun c hc =>
    Nat.isDigit_of_mem_toDigits (by decide) (by decide) hc) h

theorem value_seconds (floats : Floats) (micros : Nat) : Value (floats.seconds micros) := by
  obtain ⟨whole, fraction, hne, hdigits, h | h⟩ := floats.decimal micros
  · exact value_of_digits hne (fun c hc => hdigits c (List.mem_append_left _ hc)) h
  · have hwhole : ∀ c ∈ whole, c.isDigit = true := fun c hc =>
      hdigits c (List.mem_append_left _ hc)
    have hfraction : ∀ c ∈ fraction, c.isDigit = true := fun c hc =>
      hdigits c (List.mem_append_right _ hc)
    have hpoint : Solid ['.'] := by
      intro c hc
      rw [List.mem_singleton.mp hc]
      decide
    unfold Value
    rw [h]
    refine ⟨float_of_digits hne hwhole (Or.inr ⟨fraction, rfl, hfraction⟩), ?_⟩
    exact (solid_of_digits hwhole).append (hpoint.append (solid_of_digits hfraction))

/-- The labels of a sample, as far as the format restricts them. -/
def LabelNames (labels : List (String × String)) : Prop :=
  (∀ l ∈ labels, is_label l.1.toList = true) ∧ (labels.map (fun l => l.1.toList)).Nodup

theorem spelled_plain {name : String} {labels : List (String × String)} {value : String}
    (hname : is_name name.toList = true) (hlabels : LabelNames labels) (hvalue : Value value) :
    (spelled name labels value).Plain where
  name := hname
  labels := by
    intro l hl
    obtain ⟨l', hl', rfl⟩ := List.mem_map.mp hl
    exact hlabels.1 l' hl'
  distinct := by
    unfold spelled
    dsimp only
    rw [List.map_map]
    exact hlabels.2
  value := hvalue
  stamp := by simp [spelled]

theorem no_labels : LabelNames [] := ⟨by simp, by simp⟩

theorem one_label {name : String} (h : is_label name.toList = true) (value : String) :
    LabelNames [(name, value)] := ⟨by simpa using h, by simp⟩

theorem sink_labels (kind label : String) : LabelNames [("kind", kind), ("sink", label)] := by
  have hkind : is_label "kind".toList = true := by decide
  have hsink : is_label "sink".toList = true := by decide
  have hdistinct : ["kind".toList, "sink".toList].Nodup := by decide
  refine ⟨List.forall_mem_cons.mpr ⟨hkind, ?_⟩, hdistinct⟩
  exact List.forall_mem_singleton.mpr hsink

theorem result_labels (kind label result : String) :
    LabelNames [("kind", kind), ("sink", label), ("result", result)] := by
  have hkind : is_label "kind".toList = true := by decide
  have hsink : is_label "sink".toList = true := by decide
  have hresult : is_label "result".toList = true := by decide
  have hdistinct : ["kind".toList, "sink".toList, "result".toList].Nodup := by decide
  refine ⟨List.forall_mem_cons.mpr ⟨hkind, List.forall_mem_cons.mpr ⟨hsink, ?_⟩⟩, hdistinct⟩
  exact List.forall_mem_singleton.mpr hresult

section
variable (floats : Floats) (m : Metrics) (sources_configured uptime_secs : Nat)
  (outbox : OutboxCounts) (breakers : List BreakerOpenView)

theorem head_labels : ∀ e ∈ head m sources_configured uptime_secs outbox, ∀ s ∈ e.sample,
    s.1 = [] ∨ s.1 = [("version", "0.3.4")] := by
  simp [head, total]

theorem head_plain {e : Entry} (he : e ∈ head m sources_configured uptime_secs outbox)
    (hname : is_name e.name.toList = true) : ∀ s ∈ e.family.samples, s.Plain := by
  intro s hs
  unfold Entry.family at hs
  cases hsample : e.sample with
  | none =>
    rw [hsample] at hs
    cases hs
  | some p =>
    rw [hsample] at hs
    rw [List.mem_singleton.mp hs]
    refine spelled_plain hname ?_ (value_nat p.2)
    rcases head_labels m sources_configured uptime_secs outbox e he p (by simp [hsample]) with
      hp | hp
    · rw [hp]
      exact no_labels
    · rw [hp]
      exact one_label (by decide) _

theorem histogram_plain (h : Histogram) {name help : String} (hname : is_name name.toList = true) :
    ∀ s ∈ (h.family floats name help).samples, s.Plain := by
  have happend : ∀ rest : String, rest.toList.all name_char = true →
      is_name (name ++ rest).toList = true := by
    intro rest hrest
    rw [String.toList_append]
    exact is_name_append hname (List.all_eq_true.mp hrest)
  intro s hs
  rcases List.mem_append.mp hs with hs | hs
  · obtain ⟨le, -, n, rfl⟩ := mem_buckets hs
    exact spelled_plain (happend "_bucket" (by decide)) (one_label (by decide) le) (value_nat n)
  · simp only [List.mem_cons, List.not_mem_nil, or_false] at hs
    rcases hs with rfl | rfl
    · exact spelled_plain (happend "_sum" (by decide)) no_labels (value_seconds floats _)
    · exact spelled_plain (happend "_count" (by decide)) no_labels (value_nat _)

theorem families_plain : ∀ f ∈ families floats m sources_configured uptime_secs outbox,
    ∀ line ∈ f.lines, line.Plain := by
  intro f hf line hline
  have hok := (families_ok floats m sources_configured uptime_secs outbox).1 f hf
  unfold line_ok at hok
  simp only [Bool.and_eq_true] at hok
  obtain ⟨⟨⟨hname, htext⟩, hhead⟩, hkind⟩ := hok
  have hsamples : ∀ s ∈ f.samples, s.Plain := by
    rcases (mem_families floats m sources_configured uptime_secs outbox).mp hf with
      ⟨e, he, rfl⟩ | ⟨t, rfl⟩
    · exact head_plain m sources_configured uptime_secs outbox he hname
    · exact histogram_plain floats _ hname
  unfold Family.lines at hline
  rcases List.mem_cons.mp hline with rfl | hline
  · refine ⟨hname, ?_, fun c hc => ?_⟩
    · cases hf : f.text with
      | nil => rfl
      | cons c text =>
        rw [hf] at hhead
        exact skip_cons (by simpa using hhead) text
    · have hc := List.all_eq_true.mp htext c hc
      simpa using hc
  · rcases List.mem_cons.mp hline with rfl | hline
    · exact ⟨hname, List.contains_iff_mem.mp hkind⟩
    · obtain ⟨s, hs, rfl⟩ := List.mem_map.mp hline
      exact hsamples s hs

include floats in
theorem loose_plain : ∀ s ∈ loose m breakers, s.Plain := by
  have hname : ∀ name ∈ labelled, is_name name.toList = true := by
    intro name hname
    obtain ⟨e, he, rfl, -⟩ := labelled_described m 0 0 ⟨0, 0, 0, 0⟩ name hname
    have hf := (mem_families floats m 0 0 ⟨0, 0, 0, 0⟩).mpr (Or.inl ⟨e, he, rfl⟩)
    have hok := (families_ok floats m 0 0 ⟨0, 0, 0, 0⟩).1 _ hf
    unfold line_ok at hok
    simp only [Bool.and_eq_true] at hok
    exact hok.1.1.1
  intro s hs
  unfold loose at hs
  rw [List.mem_append, List.mem_append] at hs
  rcases hs with (hs | hs) | hs
  · obtain ⟨⟨id, c⟩, -, rfl⟩ := List.mem_map.mp hs
    exact spelled_plain (hname c.name (by cases c <;> simp [labelled, SourceCounter.all]))
      (one_label (by decide) id) (value_nat _)
  · obtain ⟨k, -, rfl⟩ := List.mem_map.mp hs
    exact spelled_plain (hname _ (by simp [labelled])) (result_labels _ _ _) (value_nat _)
  · obtain ⟨view, -, rfl⟩ := List.mem_map.mp hs
    refine spelled_plain (hname _ (by simp [labelled])) (sink_labels _ _) ?_
    split
    · exact value_nat 1
    · exact value_nat 0

theorem page_plain : ∀ line ∈ page (families floats m sources_configured uptime_secs outbox)
    (loose m breakers), line.Plain := by
  intro line hline
  unfold page at hline
  rcases List.mem_append.mp hline with hline | hline
  · obtain ⟨f, hf, hline⟩ := List.mem_flatMap.mp hline
    exact families_plain floats m sources_configured uptime_secs outbox f hf line hline
  · obtain ⟨s, hs, rfl⟩ := List.mem_map.mp hline
    exact loose_plain floats m breakers s hs

end

end xrelease.metrics
