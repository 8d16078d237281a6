-- Delivery from the outbox (`pipeline/outbox.rs`): one row or one digest to the sinks that
-- still want it, the ledger kept sink by sink, backoff after a failure, and the flush that
-- drains the outbox wave by wave.
import Xrelease.Engine

namespace xrelease.outbox

open xrelease.model xrelease.store xrelease.engine keyed calls calls.Prog text

/-! ## Texts -/

/-- `{:?}` of a character inside a string. -/
def escape_char (c : Char) : List Char :=
  if c = '"' then ['\\', '"']
  else if c = '\\' then ['\\', '\\']
  else if c = '\n' then ['\\', 'n']
  else if c = '\r' then ['\\', 'r']
  else if c = '\t' then ['\\', 't']
  else if c = Char.ofNat 0 then ['\\', '0']
  else if c.toNat < 32 || c.toNat = 127 then
    ['\\', 'u', '{'] ++ Nat.toDigits 16 c.toNat ++ ['}']
  else [c]

/-- `{:?}` of an optional string. -/
def debug_tag : Option String → String
  | none => "None"
  | some t => "Some(\"" ++ String.ofList (t.toList.flatMap escape_char) ++ "\")"

def no_notifier_matches (tag : Option String) : String :=
  "no notifier matches team routing tag " ++ debug_tag tag

def no_matching_sinks (tag : Option String) : String :=
  "no matching sinks for current routing tag " ++ debug_tag tag

def no_longer_matches (tag : Option String) : String :=
  "sink no longer matches routing tag " ++ debug_tag tag

/-! ## Parent rows -/

/-- The report of a dead row. -/
def emit_dead_outbox_alert (outbox_id : Nat) (source_id : String) : Work Unit :=
  perform (.emit_ops_alert s!"Outbox dead: {source_id}"
    s!"Notification outbox row `{outbox_id}` for source `{source_id}` exhausted delivery retries and was marked dead.")

def emit_breaker_alerts_for : List String → Work Unit
  | [] => return ()
  | label :: rest => do
    perform (.emit_ops_alert s!"Sink breaker open: {label}"
      s!"Notification sink `{label}` tripped its circuit breaker after consecutive failures. Delivery to this sink is paused for the configured cooldown.")
    emit_breaker_alerts_for rest

/-- The report of every breaker that opened. -/
def emit_breaker_alerts : Work Unit := do
  let labels ← perform .drain_newly_opened_breakers
  emit_breaker_alerts_for labels

/-- Spend one attempt of the parent; report it when that was the last. -/
def fail_outbox_row_alert (outbox_id : Nat) (source_id error : String) : Work Unit := do
  let dead ← perform (.fail_notification outbox_id error)
  if dead then emit_dead_outbox_alert outbox_id source_id else return ()

/-- Parent status from the ledger: `dead` only when no sink is retryable and one is dead. The
read and the write are two statements. -/
def sync_outbox_sink_status (outbox_id : Nat) : Work Bool := do
  let c ← perform (.count_sinks outbox_id)
  if c.total = 0 || c.unsent = 0 then return false
  else if c.retryable = 0 && c.dead > 0 then perform (.mark_outbox_dead outbox_id)
  else do
    perform (.mark_outbox_failed outbox_id)
    return false

def sync_outbox_status_alert (outbox_id : Nat) (source_id : String) : Work Unit := do
  let dead ← sync_outbox_sink_status outbox_id
  if dead then emit_dead_outbox_alert outbox_id source_id else return ()

/-! ## One attempt -/

/-- How an attempt on a row ended. -/
structure DeliveryAttempt where
  /-- The row is now fully delivered. -/
  delivered : Bool
  /-- Nothing was tried: every sink that did not succeed was skipped by an open breaker. -/
  deferred_only : Bool
deriving DecidableEq

/-- Every sink has had the event. -/
def DeliveryAttempt.done : DeliveryAttempt := ⟨true, false⟩

/-- Some sink has not. -/
def DeliveryAttempt.failed : DeliveryAttempt := ⟨false, false⟩

/-- The row waits, and no attempt is counted. -/
def DeliveryAttempt.deferred : DeliveryAttempt := ⟨false, true⟩

/-- What a delivery knows of the release. -/
structure DeliveryContext where
  event : Event
  source_id : String
  kind : String
  package_name : String
  seen : SeenUpsert

/-- Seconds to wait after a failed attempt: 60, doubled per attempt, up to `max_secs`. -/
def backoff_secs (attempts : Int) (max_secs : Nat) : Nat :=
  min (60 * 2 ^ (min (attempts - 1).toNat 16)) max_secs

def complete_or_failed (outbox_id : Nat) (source_id : String) (seen : SeenUpsert) :
    Work DeliveryAttempt := do
  let completed ← perform (.complete_notification outbox_id source_id seen)
  return if completed then .done else .failed

/-- The outcome for one index of `notify_partial`. -/
def notify_at (notifier : Notifier) (rows : List Nat) (event : Event) (index : Nat) :
    Work (Except NotifyError Unit) :=
  match notifier[index]? with
  | none =>
    return .error (.misconfigured
      s!"sink index {index} out of range ({notifier.length} configured)")
  | some sink => do
    if !sink.accepts event then return .ok ()
    else
      let allowed ← perform (.breaker_allows index)
      if !allowed then return .error (.breaker_open sink.inner.kind.text)
      else perform (.notify rows index sink event)

/-- Deliver to the listed sinks; the results line up with the indices. -/
def notify_partial (notifier : Notifier) (rows : List Nat) (event : Event) :
    List Nat → Work (List (Nat × Except NotifyError Unit))
  | [] => return []
  | index :: rest => do
    let result ← notify_at notifier rows event index
    let results ← notify_partial notifier rows event rest
    return (index, result) :: results

/-- What a round of sends says about a row. -/
structure Tally where
  any_failed : Bool
  any_real_failure : Bool
deriving DecidableEq

/-- Write one result into the ledger. A breaker skip leaves the ledger as it is. -/
def record_result (outbox_id index : Nat) (t : Tally) : Except NotifyError Unit → Work Tally
  | .ok () => do
    perform (.complete_sink_delivery outbox_id index)
    return t
  | .error (.breaker_open _) => return { t with any_failed := true }
  | .error err => do
    perform (.fail_sink_delivery outbox_id index err.text)
    return ⟨true, true⟩

def record_results (outbox_id : Nat) :
    List (Nat × Except NotifyError Unit) → Tally → Work Tally
  | [], t => return t
  | (index, result) :: rest, t => do
    let t ← record_result outbox_id index t result
    record_results outbox_id rest t

/-- Send one row to the sinks that still want it and settle the row. -/
def send_pending (notifier : Notifier) (outbox_id : Nat) (event : Event) (source_id : String)
    (seen : SeenUpsert) (pending_indices : List Nat) : Work DeliveryAttempt := do
  let results ← notify_partial notifier [outbox_id] event pending_indices
  emit_breaker_alerts
  let t ← record_results outbox_id results ⟨false, false⟩
  sync_outbox_status_alert outbox_id source_id
  if t.any_failed then return if t.any_real_failure then .failed else .deferred
  else
    let complete ← perform (.sinks_delivery_complete outbox_id)
    if complete then complete_or_failed outbox_id source_id seen else return .failed

/-- Give up the ledger rows whose sink no longer matches; `[]` leaves everything. -/
def abandon_orphans (outbox_id : Nat) (event : Event) (orphans : List Nat) : Work Unit :=
  if orphans = [] then return ()
  else do
    let _ ← perform (.abandon_retryable_sinks outbox_id orphans
      (no_longer_matches event.routing_tag))
    return ()

/-- Deliver one outbox row to pending sinks only; complete when all sinks ack. -/
def deliver_to_pending_sinks (outbox_id : Nat) (event : Event) (source_id : String)
    (seen : SeenUpsert) : Work DeliveryAttempt := do
  let notifier ← perform .notifier_snapshot
  let matching := matching_indices notifier event
  if matching = [] then
    fail_outbox_row_alert outbox_id source_id (no_notifier_matches event.routing_tag)
    return .failed
  else
    perform (.ensure_sink_deliveries outbox_id (matching.map (fun i => (i, kind_at notifier i))))
    let pending ← perform (.list_pending_sink_indices outbox_id)
    if pending = [] then
      let complete ← perform (.sinks_delivery_complete outbox_id)
      if complete then complete_or_failed outbox_id source_id seen
      else
        sync_outbox_status_alert outbox_id source_id
        return .failed
    else
      let pending_indices := pending.filter (fun i => matching.contains i)
      if pending_indices = [] then
        -- the ledger wants only sinks that no longer match: give them up and fail the parent
        let error := no_matching_sinks event.routing_tag
        let _ ← perform (.abandon_retryable_sinks outbox_id [] error)
        fail_outbox_row_alert outbox_id source_id error
        sync_outbox_status_alert outbox_id source_id
        return .failed
      else
        abandon_orphans outbox_id event (pending.filter (fun i => !matching.contains i))
        send_pending notifier outbox_id event source_id seen pending_indices

/-- Push the next claim out after an unsuccessful attempt. Best effort. -/
def apply_attempt_backoff (outbox_id attempts_before : Nat) (attempt : DeliveryAttempt) :
    Work Unit := do
  let max_secs ← perform .outbox_retry_backoff_max_secs
  let backoff := backoff_secs (attempts_before + 1 : Nat) max_secs
  let _ ← caught (if attempt.deferred_only then perform (.defer_delivery outbox_id backoff)
    else perform (.apply_delivery_backoff outbox_id backoff))
  return ()

/-- A copy of the event with the advisories known by now, or nothing to send the original. -/
def enrich_with_advisories (context : DeliveryContext) : Work (Option Event) := do
  let rendered ← perform
    (.advisories context.source_id context.kind context.package_name context.seen.identity)
  return rendered.map (fun text => { context.event with body := context.event.body ++ text })

/-- Back off unless the attempt delivered; after a hard error the lease runs out by itself. -/
def backoff_after (outbox_id attempts_before : Nat) :
    Except PipelineError DeliveryAttempt → Work Unit
  | .ok attempt =>
    if attempt.delivered then return () else apply_attempt_backoff outbox_id attempts_before attempt
  | .error _ => return ()

/-- Deliver one row that the caller has leased, backing off unless it is now delivered. -/
def attempt_notification_delivery (outbox_id attempts_before : Nat) (context : DeliveryContext) :
    Work Bool := do
  let enriched ← enrich_with_advisories context
  let event := enriched.getD context.event
  let outcome ← caught
    (deliver_to_pending_sinks outbox_id event context.source_id context.seen)
  backoff_after outbox_id attempts_before outcome
  perform (.through [outbox_id])
  let attempt ← resume outcome
  return attempt.delivered

/-! ## Claimed rows and digests -/

/-- Between an organization and an id. -/
def ORGANIZATION_SEP : String := "::"

/-- Best-effort package name when there is no live provider. -/
def package_name_hint_for_advisory (source_id event_title : String) : String :=
  let bare := ((split_once ORGANIZATION_SEP source_id).map Prod.snd).getD source_id
  match (strip_prefix_of "package:" bare).filter (fun name => name ≠ "") with
  | some name => name
  | none => ((split_once ": new release " event_title).map Prod.fst).getD ""

/-- What is put on record once the row is delivered. -/
def seen_upsert_for (row : OutboxRecord) : SeenUpsert where
  identity := row.identity
  display_tag := row.display_tag
  content_digest := row.content_digest
  published_at := row.published_at
  url := row.url

def deliver_claimed_outbox_row (row : OutboxRecord) : Work Bool :=
  attempt_notification_delivery row.id row.attempts
    { event := row.to_event
      source_id := row.source_id
      kind := row.source_kind
      package_name := package_name_hint_for_advisory row.source_id row.title
      seen := seen_upsert_for row }

/-- One row, or the rows of a digest. -/
inductive DeliveryUnit where
  | single (row : OutboxRecord)
  | digest (rows : List OutboxRecord)
deriving DecidableEq

/-- The rows of a unit. -/
def DeliveryUnit.rows : DeliveryUnit → List OutboxRecord
  | .single row => [row]
  | .digest rows => rows

/-- Rows with one key go into one digest. -/
def group_key (row : OutboxRecord) : Option DateTime × Option String :=
  (row.deliver_after, row.routing_tag)

/-- A group of one is delivered as a plain row. -/
def unit_of : List OutboxRecord → DeliveryUnit
  | [row] => .single row
  | rows => .digest rows

/-- Deferred rows of one moment and one tag become one unit; `order` is the order in which the
map lists its groups. -/
def partition_for_digest (order : List Nat) (wave : List OutboxRecord) : List DeliveryUnit :=
  let deferred := wave.filter (fun row => row.deliver_after.isSome)
  let keys := arrange order (deferred.map group_key).dedup
  (wave.filter (fun row => row.deliver_after.isNone)).map .single ++
    keys.map (fun key => unit_of (deferred.filter (fun row => group_key row = key)))

/-- The line of a release in a digest. -/
def digest_line (row : OutboxRecord) : String :=
  "- " ++ row.title ++ (row.url.elim "" (fun url => s!" — {url}")) ++ "\n"

/-- The event that tells of several releases. -/
def build_digest_event (group : List OutboxRecord) : Event where
  source_id := "digest"
  source_kind := "Digest"
  title := s!"{group.length} new releases"
  body := s!"**{group.length} releases** ready:\n\n" ++ String.join (group.map digest_line)
  url := none
  routing_tag := group.head?.bind (·.routing_tag)

/-- Every row of a group that no notifier matches spends an attempt. -/
def fail_group (event : Event) : List OutboxRecord → Work Unit
  | [] => return ()
  | row :: rest => do
    fail_outbox_row_alert row.id row.source_id (no_notifier_matches event.routing_tag)
    fail_group event rest

def ensure_group (sinks : List (Nat × String)) : List OutboxRecord → Work Unit
  | [] => return ()
  | row :: rest => do
    perform (.ensure_sink_deliveries row.id sinks)
    ensure_group sinks rest

/-- The pending sinks of each row, those that still match. -/
def pending_of_group (event : Event) (matching : List Nat) :
    List OutboxRecord → Work (List (List Nat))
  | [] => return []
  | row :: rest => do
    let raw_pending ← perform (.list_pending_sink_indices row.id)
    abandon_orphans row.id event (raw_pending.filter (fun i => !matching.contains i))
    let others ← pending_of_group event matching rest
    return raw_pending.filter (fun i => matching.contains i) :: others

/-- The sinks pending for any row, in the order in which they turn up. -/
def union_of (row_pending : List (List Nat)) : List Nat :=
  row_pending.flatten.foldl (fun acc i => if acc.contains i then acc else acc ++ [i]) []

/-- Nothing to send: settle a row from its ledger. -/
def settle_row (row : OutboxRecord) : Work DeliveryAttempt := do
  let complete ← perform (.sinks_delivery_complete row.id)
  if complete then complete_or_failed row.id row.source_id (seen_upsert_for row)
  else
    sync_outbox_status_alert row.id row.source_id
    return .failed

def settle_group : List OutboxRecord → Work (List DeliveryAttempt)
  | [] => return []
  | row :: rest => do
    let outcome ← settle_row row
    let outcomes ← settle_group rest
    return outcome :: outcomes

/-- Apply the shared result to one row: only the sinks it was pending for. -/
def settle_digest_row (row : OutboxRecord) (pending : List Nat)
    (results : List (Nat × Except NotifyError Unit)) : Work DeliveryAttempt := do
  let t ← record_results row.id (results.filter (fun r => pending.contains r.1)) ⟨false, false⟩
  sync_outbox_status_alert row.id row.source_id
  let complete ← perform (.sinks_delivery_complete row.id)
  if complete then complete_or_failed row.id row.source_id (seen_upsert_for row)
  else if t.any_failed && !t.any_real_failure then return .deferred
  else return .failed

def settle_digest (results : List (Nat × Except NotifyError Unit)) :
    List (OutboxRecord × List Nat) → Work (List DeliveryAttempt)
  | [] => return []
  | (row, pending) :: rest => do
    let outcome ← settle_digest_row row pending results
    let outcomes ← settle_digest results rest
    return outcome :: outcomes

/-- Deliver one digest event to the union of sinks still pending for any row of the group, then
apply the shared result to each row's own ledger. -/
def deliver_digest_to_pending_sinks (event : Event) (group : List OutboxRecord) :
    Work (List DeliveryAttempt) := do
  let notifier ← perform .notifier_snapshot
  let matching := matching_indices notifier event
  if matching = [] then
    fail_group event group
    return group.map (fun _ => .failed)
  else
    ensure_group (matching.map (fun i => (i, kind_at notifier i))) group
    let row_pending ← pending_of_group event matching group
    let union_pending := union_of row_pending
    if union_pending = [] then settle_group group
    else
      let results ← notify_partial notifier (group.map (·.id)) event union_pending
      emit_breaker_alerts
      settle_digest results (group.zip row_pending)

/-- Back off every row of the group that is not delivered. -/
def backoff_group : List (OutboxRecord × DeliveryAttempt) → Work (List (String × Bool))
  | [] => return []
  | (row, attempt) :: rest => do
    backoff_after row.id row.attempts (.ok attempt)
    let results ← backoff_group rest
    return (row.source_id, attempt.delivered) :: results

def deliver_claimed_outbox_digest (group : List OutboxRecord) : Work (List (String × Bool)) := do
  let outcome ← caught (do
    let outcomes ← deliver_digest_to_pending_sinks (build_digest_event group) group
    backoff_group (group.zip outcomes))
  perform (.through (group.map (·.id)))
  resume outcome

/-! ## The flush -/

/-- A row by itself, or a digest. -/
def deliver_unit : DeliveryUnit → Work (List (String × Bool))
  | .single row => do
    let delivered ← deliver_claimed_outbox_row row
    return [(row.source_id, delivered)]
  | .digest group => deliver_claimed_outbox_digest group

/-- What a flush has done so far. -/
structure FlushState where
  sent : Nat
  first_err : Option PipelineError
deriving DecidableEq

/-- Deliver the units of a wave; an error is kept and the other units go on. -/
def deliver_wave (st : FlushState) : List DeliveryUnit → Work FlushState
  | [] => return st
  | unit :: rest => do
    let result ← caught (deliver_unit unit)
    match result with
    | .ok rows => deliver_wave { st with sent := st.sent + (rows.filter (·.2)).length } rest
    | .error err => deliver_wave { st with first_err := st.first_err.or (some err) } rest

/-- Waves of up to `concurrency` rows until `left` are claimed or a wave comes up short. Every
wave claims at least one row, so `fuel = left` is enough. -/
def flush_waves (concurrency : Nat) : Nat → Nat → FlushState → Work FlushState
  | 0, _, st => return st
  | fuel + 1, left, st =>
    if left = 0 then return st
    else do
      let wave_limit := min concurrency left
      let wave ← perform (.claim_outbox_batch wave_limit OUTBOX_LEASE_SECS)
      if wave = [] then return st
      else do
        let order ← perform .hash_order
        let st ← deliver_wave st (partition_for_digest order wave)
        if wave.length < wave_limit then return st
        else flush_waves concurrency fuel (left - wave.length) st

/-- Retry pending and failed rows, up to `limit` of them. -/
def flush_notification_outbox (limit : Nat) : Work Nat := do
  let concurrency ← perform .outbox_flush_concurrency
  let st ← flush_waves (max concurrency 1) limit limit ⟨0, none⟩
  match st.first_err with
  | some err => fail err
  | none => return st.sent

/-- The sweep after each flush. -/
def reconcile_exhausted_outbox : Work Unit := do
  let result ← caught (perform .finalize_exhausted_outbox)
  match result with
  | .ok marked =>
    if marked > 0 then
      perform (.emit_ops_alert "Outbox dead-letter sweep"
        s!"{marked} notification outbox row(s) were marked dead after exhausting delivery retries (max_attempts={OUTBOX_MAX_ATTEMPTS}).")
    else return ()
  | .error _ => return ()

/-- The operator's dead-letter recovery. -/
def requeue_dead : Work Unit := do
  let _ ← perform .requeue_dead_outbox
  return ()

end xrelease.outbox
