-- The metrics registry (`metrics.rs`): the counters and latency histograms that the scheduler,
-- the pipeline and the API bump, and the page that `GET /metrics` renders from them, with the
-- breaker view of the notifier's sinks (`notify/mod.rs`). The counters are 64 bits wide and wrap.
import Xrelease.Breakers

namespace xrelease.metrics

open xrelease.model xrelease.advisory keyed text

/-! ## Counters -/

/-- `fetch_add` of an `AtomicU64`. -/
def fetch_add (counter n : Nat) : Nat := (counter + n) % 2 ^ 64

/-- The process-wide counters of `Metrics`. -/
inductive Total where
  | polls_total | polls_not_modified | polls_errors | notifications_total | webhooks_accepted
  | webhooks_ignored | webhooks_duplicates | webhooks_errors | config_apply_total
  | config_apply_rejected_total | notify_breaker_skips | outbox_enqueued_total
  | outbox_delivery_failures_total | outbox_dead_lettered_total | outbox_requeued_total
  | http_rate_limited_total | prune_deleted_total
deriving DecidableEq

/-- `SourceMetrics`. -/
structure SourceMetrics where
  polls : Nat
  polls_not_modified : Nat
  polls_errors : Nat
  consecutive_errors : Nat
  last_error : Option String
  notifications : Nat
deriving DecidableEq

/-- Nothing counted. -/
def SourceMetrics.default : SourceMetrics := ⟨0, 0, 0, 0, none, 0⟩

/-- The counters of a source that the page shows, in its order. -/
inductive SourceCounter where
  | polls | polls_not_modified | polls_errors | notifications
deriving DecidableEq

def SourceCounter.all : List SourceCounter :=
  [.polls, .polls_not_modified, .polls_errors, .notifications]

def SourceCounter.name : SourceCounter → String
  | .polls => "xrelease_source_polls_total"
  | .polls_not_modified => "xrelease_source_polls_not_modified_total"
  | .polls_errors => "xrelease_source_polls_errors_total"
  | .notifications => "xrelease_source_notifications_total"

def SourceMetrics.count (stats : SourceMetrics) : SourceCounter → Nat
  | .polls => stats.polls
  | .polls_not_modified => stats.polls_not_modified
  | .polls_errors => stats.polls_errors
  | .notifications => stats.notifications

/-- `SinkMetrics`. -/
structure SinkMetrics where
  ok : Nat
  error : Nat
  breaker : Nat
deriving DecidableEq

/-- Nothing counted. -/
def SinkMetrics.default : SinkMetrics := ⟨0, 0, 0⟩

/-- How the delivery to a sink ended. -/
inductive SinkDeliveryResult where
  | ok | error | breaker
deriving DecidableEq

def SinkDeliveryResult.text : SinkDeliveryResult → String
  | .ok => "ok"
  | .error => "error"
  | .breaker => "breaker"

def SinkDeliveryResult.all : List SinkDeliveryResult := [.ok, .error, .breaker]

def SinkMetrics.count (stats : SinkMetrics) : SinkDeliveryResult → Nat
  | .ok => stats.ok
  | .error => stats.error
  | .breaker => stats.breaker

/-- How a poll ended. -/
inductive PollOutcome where
  | delivered | no_op | not_modified | error
deriving DecidableEq

/-- How a webhook ended. -/
inductive WebhookOutcome where
  | accepted | ignored | duplicate | error
deriving DecidableEq

/-- A sink whose breaker is open. -/
structure BreakerOpenView where
  kind : String
  label : String
  «open» : Bool
deriving DecidableEq

/-! ## Histograms -/

/-- `LATENCY_BOUNDS_SECS`, each as a label shows it; `+Inf` is implicit. -/
def latency_bounds : List String :=
  ["0.005", "0.01", "0.025", "0.05", "0.1", "0.25", "0.5", "1", "2.5", "5", "10", "30"]

/-- What the doubles decide: whether a duration (in nanoseconds) is within the bound of an index,
and how the seconds of a sum of microseconds are shown, which is in plain decimals. -/
structure Floats where
  within : Nat → Nat → Bool
  seconds : Nat → String
  decimal : ∀ micros, ∃ whole fraction : List Char, whole ≠ [] ∧
    (∀ c ∈ whole ++ fraction, c.isDigit = true) ∧
    ((seconds micros).toList = whole ∨ (seconds micros).toList = whole ++ '.' :: fraction)

/-- `Histogram`: a counter for each bound and one for `+Inf`. -/
structure Histogram where
  counts : List Nat
  sum_micros : Nat
  count : Nat
deriving DecidableEq

/-- No duration yet. -/
def Histogram.new : Histogram := ⟨List.replicate (latency_bounds.length + 1) 0, 0, 0⟩

/-- The first bound that the duration is within, else `+Inf`. -/
def slot (floats : Floats) (duration : Nat) : Nat :=
  ((List.range latency_bounds.length).find? (floats.within duration)).getD latency_bounds.length

/-- Count a duration in its bucket. -/
def Histogram.observe (floats : Floats) (h : Histogram) (duration : Nat) : Histogram where
  counts := h.counts.modify (slot floats duration) (fetch_add · 1)
  sum_micros := fetch_add h.sum_micros (min (duration / 1000) (2 ^ 64 - 1))
  count := fetch_add h.count 1

/-! ## The registry -/

/-- `Metrics`. -/
structure Metrics where
  totals : Total → Nat
  poll_duration : Histogram
  notify_duration : Histogram
  outbox_flush_duration : Histogram
  by_source : Table String SourceMetrics
  by_sink : Table (String × String) SinkMetrics

/-- Counters at nought. -/
def Metrics.new : Metrics where
  totals := fun _ => 0
  poll_duration := Histogram.new
  notify_duration := Histogram.new
  outbox_flush_duration := Histogram.new
  by_source := Table.empty
  by_sink := Table.empty

/-- Count on one of the totals. -/
def Metrics.bump (m : Metrics) (c : Total) (n : Nat) : Metrics :=
  { m with totals := fun d => if d = c then fetch_add (m.totals d) n else m.totals d }

/-- `entry(source_id).or_default()`, and what is done to the entry. -/
def Metrics.at_source (m : Metrics) (source_id : String) (f : SourceMetrics → SourceMetrics) :
    Metrics :=
  { m with by_source := m.by_source.upsert source_id (f .default) f }

/-- Change what is counted for a sink. -/
def Metrics.at_sink (m : Metrics) (kind label : String) (f : SinkMetrics → SinkMetrics) : Metrics :=
  { m with by_sink := m.by_sink.upsert (kind, label) (f .default) f }

/-- A poll of the source, by its outcome. -/
def SourceMetrics.polled (entry : SourceMetrics) (outcome : PollOutcome) : SourceMetrics :=
  let entry := { entry with polls := fetch_add entry.polls 1 }
  match outcome with
  | .not_modified =>
    { entry with
      polls_not_modified := fetch_add entry.polls_not_modified 1
      consecutive_errors := 0
      last_error := none }
  | .error =>
    { entry with
      polls_errors := fetch_add entry.polls_errors 1
      consecutive_errors := fetch_add entry.consecutive_errors 1 }
  | .delivered | .no_op => { entry with consecutive_errors := 0, last_error := none }

def SinkMetrics.delivered (entry : SinkMetrics) : SinkDeliveryResult → SinkMetrics
  | .ok => { entry with ok := fetch_add entry.ok 1 }
  | .error => { entry with error := fetch_add entry.error 1 }
  | .breaker => { entry with breaker := fetch_add entry.breaker 1 }

/-- Record a completed poll attempt for a source. -/
def Metrics.record_poll (m : Metrics) (source_id : String) (outcome : PollOutcome) : Metrics :=
  let m := m.bump .polls_total 1
  let m := match outcome with
    | .delivered | .no_op => m
    | .not_modified => m.bump .polls_not_modified 1
    | .error => m.bump .polls_errors 1
  m.at_source source_id (·.polled outcome)

/-- Attach the human-readable cause of the current poll failure streak. -/
def Metrics.note_poll_error (m : Metrics) (source_id message : String) : Metrics :=
  m.at_source source_id (fun entry => { entry with last_error := some message })

def Metrics.record_poll_duration (floats : Floats) (m : Metrics) (duration : Nat) : Metrics :=
  { m with poll_duration := m.poll_duration.observe floats duration }

def Metrics.record_notify_duration (floats : Floats) (m : Metrics) (duration : Nat) : Metrics :=
  { m with notify_duration := m.notify_duration.observe floats duration }

def Metrics.record_outbox_flush_duration (floats : Floats) (m : Metrics) (duration : Nat) :
    Metrics :=
  { m with outbox_flush_duration := m.outbox_flush_duration.observe floats duration }

/-- Record successfully delivered notifications for a source. -/
def Metrics.record_notifications (m : Metrics) (source_id : String) (count : Nat) : Metrics :=
  if count = 0 then m
  else
    (m.bump .notifications_total count).at_source source_id
      (fun entry => { entry with notifications := fetch_add entry.notifications count })

/-- Record one sink delivery attempt. -/
def Metrics.record_sink_delivery (m : Metrics) (kind label : String) (result : SinkDeliveryResult) :
    Metrics :=
  let m := m.at_sink kind label (·.delivered result)
  if result = .breaker then m.bump .notify_breaker_skips 1 else m

def Metrics.record_breaker_skip (m : Metrics) : Metrics := m.bump .notify_breaker_skips 1

/-- The counters that a count of zero does not touch. -/
def Metrics.record_count (m : Metrics) (c : Total) (count : Nat) : Metrics :=
  if count = 0 then m else m.bump c count

def Metrics.record_outbox_enqueued (m : Metrics) (count : Nat) : Metrics :=
  m.record_count .outbox_enqueued_total count

def Metrics.record_outbox_delivery_failure (m : Metrics) : Metrics :=
  m.bump .outbox_delivery_failures_total 1

def Metrics.record_outbox_dead_lettered (m : Metrics) (count : Nat) : Metrics :=
  m.record_count .outbox_dead_lettered_total count

def Metrics.record_outbox_requeued (m : Metrics) (count : Nat) : Metrics :=
  m.record_count .outbox_requeued_total count

def Metrics.record_http_rate_limited (m : Metrics) : Metrics := m.bump .http_rate_limited_total 1

def Metrics.record_prune_deleted (m : Metrics) (count : Nat) : Metrics :=
  m.record_count .prune_deleted_total count

def Metrics.record_webhook (m : Metrics) : WebhookOutcome → Metrics
  | .accepted => m.bump .webhooks_accepted 1
  | .ignored => m.bump .webhooks_ignored 1
  | .duplicate => m.bump .webhooks_duplicates 1
  | .error => m.bump .webhooks_errors 1

def Metrics.record_config_apply (m : Metrics) : Metrics := m.bump .config_apply_total 1

def Metrics.record_config_apply_rejected (m : Metrics) : Metrics :=
  m.bump .config_apply_rejected_total 1

/-! ## A run of the registry -/

/-- One recording call. -/
inductive Event where
  | poll (source_id : String) (outcome : PollOutcome)
  | poll_error (source_id message : String)
  | poll_duration (duration : Nat)
  | notify_duration (duration : Nat)
  | outbox_flush_duration (duration : Nat)
  | notifications (source_id : String) (count : Nat)
  | sink_delivery (kind label : String) (result : SinkDeliveryResult)
  | breaker_skip
  | outbox_enqueued (count : Nat)
  | outbox_delivery_failure
  | outbox_dead_lettered (count : Nat)
  | outbox_requeued (count : Nat)
  | http_rate_limited
  | prune_deleted (count : Nat)
  | webhook (outcome : WebhookOutcome)
  | config_apply
  | config_apply_rejected
deriving DecidableEq

/-- What each event does to the counters. -/
def Metrics.record (floats : Floats) (m : Metrics) : Event → Metrics
  | .poll source_id outcome => m.record_poll source_id outcome
  | .poll_error source_id message => m.note_poll_error source_id message
  | .poll_duration duration => m.record_poll_duration floats duration
  | .notify_duration duration => m.record_notify_duration floats duration
  | .outbox_flush_duration duration => m.record_outbox_flush_duration floats duration
  | .notifications source_id count => m.record_notifications source_id count
  | .sink_delivery kind label result => m.record_sink_delivery kind label result
  | .breaker_skip => m.record_breaker_skip
  | .outbox_enqueued count => m.record_outbox_enqueued count
  | .outbox_delivery_failure => m.record_outbox_delivery_failure
  | .outbox_dead_lettered count => m.record_outbox_dead_lettered count
  | .outbox_requeued count => m.record_outbox_requeued count
  | .http_rate_limited => m.record_http_rate_limited
  | .prune_deleted count => m.record_prune_deleted count
  | .webhook outcome => m.record_webhook outcome
  | .config_apply => m.record_config_apply
  | .config_apply_rejected => m.record_config_apply_rejected

/-- The registry after a sequence of recorded events. -/
def recorded (floats : Floats) (events : List Event) : Metrics :=
  events.foldl (Metrics.record floats) Metrics.new

/-! ## The page -/

/-- `str::replace` of a character. -/
def replace (value : String) (c : Char) (piece : String) : String :=
  String.ofList (value.toList.flatMap (fun d => if d = c then piece.toList else [d]))

/-- A label value between quotes. -/
def escape_label (value : String) : String := replace (replace value '\\' "\\\\") '"' "\\\""

/-- A sample line; the values of the labels come as they are to stand between the quotes. -/
def series (name : String) (labels : List (String × String)) (value : String) : String :=
  name ++ (if labels.isEmpty then "" else
    "\x7b" ++ ",".intercalate (labels.map (fun l => l.1 ++ "=\"" ++ l.2 ++ "\"")) ++ "\x7d") ++
    " " ++ value ++ "\n"

/-- The two comment lines of a family. -/
def describe (name help kind : String) : String :=
  "# HELP " ++ name ++ " " ++ help ++ "\n# TYPE " ++ name ++ " " ++ kind ++ "\n"

/-- A described metric of the first block, with the sample that stands right behind it. -/
structure Entry where
  name : String
  help : String
  kind : String
  sample : Option (List (String × String) × Nat)
deriving DecidableEq

/-- One family with its sample. -/
def Entry.render (e : Entry) : String :=
  describe e.name e.help e.kind ++
    e.sample.elim "" (fun s => series e.name s.1 (toString s.2))

/-- The metric that shows a counter. -/
def Total.name : Total → String
  | .polls_total => "xrelease_polls_total"
  | .polls_not_modified => "xrelease_polls_not_modified_total"
  | .polls_errors => "xrelease_polls_errors_total"
  | .notifications_total => "xrelease_notifications_total"
  | .webhooks_accepted => "xrelease_webhooks_accepted_total"
  | .webhooks_ignored => "xrelease_webhooks_ignored_total"
  | .webhooks_duplicates => "xrelease_webhooks_duplicates_total"
  | .webhooks_errors => "xrelease_webhooks_errors_total"
  | .config_apply_total => "xrelease_config_apply_total"
  | .config_apply_rejected_total => "xrelease_config_apply_rejected_total"
  | .notify_breaker_skips => "xrelease_notify_breaker_skips_total"
  | .outbox_enqueued_total => "xrelease_outbox_enqueued_total"
  | .outbox_delivery_failures_total => "xrelease_outbox_delivery_failures_total"
  | .outbox_dead_lettered_total => "xrelease_outbox_dead_lettered_total"
  | .outbox_requeued_total => "xrelease_outbox_requeued_total"
  | .http_rate_limited_total => "xrelease_http_rate_limited_total"
  | .prune_deleted_total => "xrelease_prune_deleted_total"

/-- The family of a total. -/
def total (m : Metrics) (c : Total) (help : String) : Entry :=
  ⟨c.name, help, "counter", some ([], m.totals c)⟩

/-- The rows of the outbox by their state. -/
structure OutboxCounts where
  pending : Nat
  failed : Nat
  dead : Nat
  deferred : Nat
deriving DecidableEq

/-- The first block; the labelled metrics are only described here. -/
def head (m : Metrics) (sources_configured uptime_secs : Nat) (outbox : OutboxCounts) :
    List Entry :=
  [⟨"xrelease_info",
      "Static build metadata (always 1).",
      "gauge", some ([("version", "0.3.4")], 1)⟩,
    ⟨"xrelease_uptime_seconds", "Process uptime in seconds.", "gauge", some ([], uptime_secs)⟩,
    ⟨"xrelease_sources_configured",
      "Number of configured watches.",
      "gauge", some ([], sources_configured)⟩,
    total m .polls_total "Poll attempts from scheduler or API check.",
    total m .polls_not_modified "Upstream 304 Not Modified responses.",
    total m .polls_errors "Poll attempts that returned an error.",
    total m .notifications_total "Notifications successfully delivered.",
    ⟨"xrelease_source_polls_total", "Poll attempts per configured source.", "counter", none⟩,
    ⟨"xrelease_source_polls_not_modified_total",
      "Upstream 304 responses per source.",
      "counter", none⟩,
    ⟨"xrelease_source_polls_errors_total", "Poll errors per source.", "counter", none⟩,
    ⟨"xrelease_source_notifications_total",
      "Notifications delivered per source.",
      "counter", none⟩,
    ⟨"xrelease_sink_deliveries_total",
      "Sink delivery attempts by kind, label, and result.",
      "counter", none⟩,
    ⟨"xrelease_sink_breaker_open",
      "Whether a sink circuit breaker is currently open (1) or closed (0).",
      "gauge", none⟩,
    total m .webhooks_accepted "Webhooks that matched a source and were processed.",
    total m .webhooks_ignored "Webhooks intentionally skipped (draft, wrong action, filtered).",
    total m .webhooks_duplicates "Webhook replays deduplicated by delivery id.",
    total m .webhooks_errors "Webhook requests that failed validation or processing.",
    total m .config_apply_total "Successful or idempotent config apply calls.",
    total m .config_apply_rejected_total "Config apply attempts rejected (parse/validation).",
    ⟨"xrelease_outbox_pending",
      "Notification outbox rows awaiting first delivery.",
      "gauge", some ([], outbox.pending)⟩,
    ⟨"xrelease_outbox_failed",
      "Notification outbox rows in retry state.",
      "gauge", some ([], outbox.failed)⟩,
    ⟨"xrelease_outbox_dead",
      "Notification outbox rows that exhausted delivery retries.",
      "gauge", some ([], outbox.dead)⟩,
    ⟨"xrelease_outbox_deferred",
      "Notification outbox rows held until deliver_after (notify_schedule).",
      "gauge", some ([], outbox.deferred)⟩,
    total m .outbox_enqueued_total "Outbox rows newly inserted or reopened for delivery.",
    total m .outbox_delivery_failures_total "Parent outbox delivery failures (retryable or dead).",
    total m .outbox_dead_lettered_total "Outbox rows that transitioned to dead.",
    total m .outbox_requeued_total "Dead outbox rows revived by operator requeue.",
    total m .http_rate_limited_total
      "HTTP requests rejected with 429 by the ingress rate limiter.",
    total m .prune_deleted_total "Database rows deleted by retention prune.",
    total m .notify_breaker_skips "Sink deliveries skipped by an open circuit breaker."]

/-- The loop over the buckets, with the count so far. -/
def bucket_lines (name : String) : Nat → List (String × Nat) → String
  | _, [] => ""
  | cumulative, (bound, n) :: rest =>
    series (name ++ "_bucket") [("le", bound)] (toString (fetch_add cumulative n)) ++
      bucket_lines name (fetch_add cumulative n) rest

/-- The cumulative buckets, the sum and the count. -/
def Histogram.render (floats : Floats) (h : Histogram) (name help : String) : String :=
  describe name help "histogram" ++
    bucket_lines name 0 ((latency_bounds ++ ["+Inf"]).zip h.counts) ++
    series (name ++ "_sum") [] (floats.seconds h.sum_micros) ++
    series (name ++ "_count") [] (toString h.count)

/-- A line unless its counter is zero. -/
def counted (name : String) (labels : List (String × String)) (n : Nat) : String :=
  if 0 < n then series name labels (toString n) else ""

/-- The ids in their order. -/
def Metrics.source_ids (m : Metrics) : List String :=
  (m.by_source.rows.map Prod.fst).mergeSort (fun a b => compare_str a b != .gt)

/-- The samples of a source. -/
def source_lines (id : String) (stats : SourceMetrics) : String :=
  let label := escape_label id
  String.join (SourceCounter.all.map
    (fun c => counted c.name [("source", label)] (stats.count c)))

/-- The keys by kind, then by label. -/
def Metrics.sink_keys (m : Metrics) : List (String × String) :=
  (m.by_sink.rows.map Prod.fst).mergeSort
    (fun a b => ((compare_str a.1 b.1).then (compare_str a.2 b.2)) != .gt)

/-- The samples of a sink. -/
def sink_lines (key : String × String) (stats : SinkMetrics) : String :=
  let kind := escape_label key.1
  let label := escape_label key.2
  String.join (SinkDeliveryResult.all.map (fun result =>
    counted "xrelease_sink_deliveries_total"
      [("kind", kind), ("sink", label), ("result", result.text)] (stats.count result)))

/-- The gauge of an open breaker. -/
def breaker_line (view : BreakerOpenView) : String :=
  series "xrelease_sink_breaker_open"
    [("kind", escape_label view.kind), ("sink", escape_label view.label)]
    (if view.open then "1" else "0")

/-- Render counters in Prometheus text format 0.0.4. -/
def Metrics.render_prometheus (floats : Floats) (m : Metrics)
    (sources_configured : Nat) (outbox : OutboxCounts) (uptime_secs : Nat)
    (breakers : List BreakerOpenView) : String :=
  String.join ((head m sources_configured uptime_secs outbox).map Entry.render) ++
    m.poll_duration.render floats "xrelease_poll_duration_seconds"
      "Wall time of one poll_once cycle (fetch, diff, inline delivery)." ++
    m.notify_duration.render floats "xrelease_notify_duration_seconds"
      "Wall time to deliver one leased outbox row to its pending sinks." ++
    m.outbox_flush_duration.render floats "xrelease_outbox_flush_duration_seconds"
      "Wall time of one outbox flush batch (claim + concurrent delivery)." ++
    String.join (m.source_ids.map (fun id => (m.by_source.get id).elim "" (source_lines id))) ++
    String.join (m.sink_keys.map (fun key => (m.by_sink.get key).elim "" (sink_lines key))) ++
    String.join (breakers.map breaker_line)

/-! ## The sinks of a notifier -/

/-- A configured sink, as far as the view of its breaker shows it. -/
structure ConfiguredSink where
  kind : String
  label : String
deriving DecidableEq

/-- Live circuit-breaker view for every configured sink. -/
def breaker_states (sinks : List ConfiguredSink) (breakers : List Breaker) (now : DateTime) :
    List BreakerOpenView :=
  sinks.zipIdx.map (fun (sink, index) =>
    ⟨sink.kind, sink.label, (breakers[index]?.map (fun b => !b.allows now)).getD false⟩)

end xrelease.metrics
