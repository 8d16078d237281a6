-- The running engine as one state: the database and its clock, the notifiers that a config
-- apply swaps, and a record of what the run has done so far. Every store call and every call
-- to the world outside is one step of it.
import Xrelease.Calls
import Xrelease.Store

namespace xrelease.engine

open xrelease.model xrelease.store keyed calls text

/-! ## Notifiers and routing -/

inductive SinkKind where
  | apprise | webhook | express | novu | slack | telegram | smtp | kafka | nats | rabbitmq
deriving DecidableEq

def SinkKind.text : SinkKind → String
  | .apprise => "apprise"
  | .webhook => "webhook"
  | .express => "express"
  | .novu => "novu"
  | .slack => "slack"
  | .telegram => "telegram"
  | .smtp => "smtp"
  | .kafka => "kafka"
  | .nats => "nats"
  | .rabbitmq => "rabbitmq"

/-- A configured backend: its kind, its configured name and the endpoint it speaks to. -/
structure Sink where
  kind : SinkKind
  name : String
  endpoint : String
deriving DecidableEq

structure RoutedSink where
  inner : Sink
  tags : List String
deriving DecidableEq

/-- Empty `sink_tags` take every event, others only an event tagged with one of them. -/
def matches_routing_tags (sink_tags : List String) (event_tag : Option String) : Bool :=
  if sink_tags.isEmpty then true
  else
    match (event_tag.map trim).filter (fun tag => tag ≠ "") with
    | none => false
    | some event_tag => sink_tags.any (fun tag => trim tag = event_tag)

def RoutedSink.accepts (sink : RoutedSink) (event : Event) : Bool :=
  matches_routing_tags sink.tags event.routing_tag

/-- `CompositeNotifier`, as far as delivery by index reads it. -/
abbrev Notifier := List RoutedSink

/-- Indices of the sinks that should receive the event. -/
def matching_indices (notifier : Notifier) (event : Event) : List Nat :=
  (List.range notifier.length).filter (fun index => (notifier[index]?).any (·.accepts event))

def kind_at (notifier : Notifier) (index : Nat) : String :=
  (notifier[index]?).elim "unknown" (·.inner.kind.text)

/-! ## Errors -/

inductive NotifyError where
  | http (message : String)
  | misconfigured (message : String)
  | rejected (backend : String) (status : Nat) (body : String)
  | backend (backend message : String)
  | fan_out (failed total : Nat) (details : String)
  | breaker_open (backend : String)
deriving DecidableEq

def NotifyError.text : NotifyError → String
  | .http message => s!"http request failed: {message}"
  | .misconfigured message => s!"notifier misconfigured: {message}"
  | .rejected name status body => s!"{name} rejected the notification (status {status}): {body}"
  | .backend name message => s!"{name} delivery failed: {message}"
  | .fan_out failed total details => s!"{failed}/{total} notifier(s) failed: {details}"
  | .breaker_open name => s!"{name} circuit breaker open — skipped after repeated failures"

inductive PipelineError where
  | source (message : String)
  | store (message : String)
deriving DecidableEq

/-! ## The calls -/

/-- What an upstream answers. -/
structure FetchOutcome where
  not_modified : Bool
  etag : Option String
  releases : List Release
deriving DecidableEq

/-- The calls of the pipeline. A store call is one statement or transaction; `through` is no
call of the program but the mark that a delivery attempt on these rows is over. -/
inductive Call : Type → Type where
  | is_initialized (source_id : String) : Call Bool
  | touch_polled (source_id : String) : Call Unit
  | set_latest_release_tag (source_id tag : String) : Call Unit
  | source_state_row (source_id : String) : Call SourceStateRow
  | get_etag (source_id : String) : Call (Option String)
  | set_etag (source_id : String) (etag : Option String) : Call Unit
  | has_seen_missing_published_at (source_id : String) : Call Bool
  | enrich_seen_metadata (source_id : String) (releases : List Release) : Call Unit
  | record_seen (source_id : String) (item : SeenUpsert) : Call Unit
  | record_seen_batch (source_id : String) (items : List SeenUpsert) : Call Unit
  | load_seen_index (source_id : String) : Call (String → Option (Option String))
  | best_seen_identity (source_id : String) : Call (Option String)
  | insert_outbox (event : Event) (identity : String) (om : OutboxMeta) : Call (Option Nat)
  | select_outbox (source_id identity : String) : Call (Option (Nat × Status × Option String))
  | reopen_outbox (event : Event) (om : OutboxMeta) (id : Nat) : Call Bool
  | claim_outbox_batch (limit lease_secs : Nat) : Call (List OutboxRecord)
  | claim_outbox_row (id lease_secs : Nat) : Call Bool
  | release_outbox_lease (id : Nat) : Call Unit
  | apply_delivery_backoff (id backoff_secs : Nat) : Call Unit
  | defer_delivery (id backoff_secs : Nat) : Call Unit
  | complete_notification (id : Nat) (source_id : String) (seen : SeenUpsert) : Call Bool
  | fail_notification (id : Nat) (error : String) : Call Bool
  | ensure_sink_deliveries (id : Nat) (sinks : List (Nat × String)) : Call Unit
  | list_pending_sink_indices (id : Nat) : Call (List Nat)
  | complete_sink_delivery (id index : Nat) : Call Unit
  | fail_sink_delivery (id index : Nat) (error : String) : Call Unit
  | abandon_retryable_sinks (id : Nat) (sink_indices : List Nat) (error : String) : Call Nat
  | sinks_delivery_complete (id : Nat) : Call Bool
  | count_sinks (id : Nat) : Call SinkCounts
  | mark_outbox_dead (id : Nat) : Call Bool
  | mark_outbox_failed (id : Nat) : Call Unit
  | requeue_dead_outbox : Call Nat
  | finalize_exhausted_outbox : Call Nat
  | utc_now : Call DateTime
  | fetch (etag : Option String) : Call FetchOutcome
  | outbox_flush_concurrency : Call Nat
  | outbox_retry_backoff_max_secs : Call Nat
  | notifier_snapshot : Call Notifier
  | breaker_allows (index : Nat) : Call Bool
  /-- One event to one sink; `rows` are the outbox rows that the event speaks for. -/
  | notify (rows : List Nat) (index : Nat) (sink : RoutedSink) (event : Event) :
      Call (Except NotifyError Unit)
  | drain_newly_opened_breakers : Call (List String)
  | emit_ops_alert (title body : String) : Call Unit
  /-- The order in which a `HashMap` lists its entries. -/
  | hash_order : Call (List Nat)
  /-- The advisories found for a version, rendered, when there is something to attach. -/
  | advisories (source_id kind package_name version : String) : Call (Option String)
  | through (ids : List Nat) : Call Unit

/-- What the world answers to one call: whether a store call fails, how far the database clock
has moved, and the answer of everything that is not the store. -/
structure Oracle where
  fails : Option String := none
  elapsed : Nat := 0
  order : List Nat := []
  back : List Nat := []
  locked : List Nat := []
  utc_now : DateTime := 0
  fetch : Except String FetchOutcome := .error "unreachable"
  outbox_flush_concurrency : Nat := 1
  outbox_retry_backoff_max_secs : Nat := 3600
  breaker_allows : Bool := true
  notify : Except NotifyError Unit := .ok ()
  opened : List String := []
  advisories : Option String := none

/-! ## The state and the record of the run -/

/-- One call to a sink. `open_rows` are the rows it spoke for whose ledger row of that sink was
not `sent` at that moment. -/
structure Send where
  rows : List Nat
  index : Nat
  sink : RoutedSink
  event : Event
  open_rows : List Nat
  ok : Bool
deriving DecidableEq

/-- What the record keeps of the first contact with a source. -/
inductive Note where
  | asked (w : Nat) (source_id : String) (initialized : Bool)
  | baselined (w : Nat) (source_id : String)
  | enqueued (w : Nat) (source_id identity : String)
deriving DecidableEq

/-- The record of the run. No call reads it. -/
structure Book where
  /-- Whose delivery attempt on a row is under way. -/
  attempt : Nat → Option Nat
  /-- The last claim of a row that its worker has not given up, and when it runs out. -/
  lease : Nat → Option (Nat × DateTime)
  /-- The notifier that stood at the index of a ledger row when the row was made. -/
  made_for : Nat → Nat → Option Sink
  /-- The notifier list that a worker's attempt goes by. -/
  snapshot : Nat → Option Notifier
  sends : List Send
  notes : List Note
  alerts : List (String × String)
  /-- The content that a worker last put to the outbox, whether it was taken or not. -/
  offered : Nat → Option (Option String)
  /-- The last answer a worker fetched, and the answer that a source's stored ETag came from. -/
  fetched : Nat → Option FetchOutcome
  etag_from : String → Option FetchOutcome

def Book.empty : Book where
  attempt := fun _ => none
  lease := fun _ => none
  made_for := fun _ _ => none
  snapshot := fun _ => none
  sends := []
  notes := []
  alerts := []
  offered := fun _ => none
  fetched := fun _ => none
  etag_from := fun _ => none

structure World where
  db : Db
  now : DateTime
  notifiers : Notifier
  book : Book

/-- A process that has just come up on a database. -/
def World.start (db : Db) (now : DateTime) (notifiers : Notifier) : World :=
  ⟨db, now, notifiers, Book.empty⟩

namespace World

def tick (s : World) (o : Oracle) : World := { s with now := s.now + (o.elapsed : Int) }

def note (s : World) (n : Note) : World :=
  { s with book := { s.book with notes := s.book.notes ++ [n] } }

/-- Rows claimed by a worker until `until_`: its attempt on each is under way. -/
def claimed (s : World) (w : Nat) (ids : List Nat) (until_ : DateTime) : World :=
  { s with
    book := { s.book with
      attempt := fun id => if id ∈ ids then some w else s.book.attempt id
      lease := fun id => if id ∈ ids then some (w, until_) else s.book.lease id } }

/-- The worker is through with these rows. -/
def through (s : World) (w : Nat) (ids : List Nat) : World :=
  { s with
    book := { s.book with
      attempt := fun id =>
        if id ∈ ids ∧ s.book.attempt id = some w then none else s.book.attempt id } }

/-- The worker goes by no notifier list any more. -/
def let_go (s : World) (w : Nat) : World :=
  { s with
    book := { s.book with
      snapshot := fun v => if v = w then none else s.book.snapshot v } }

/-- The worker gives up its lease on a row, if it is the one that holds it. -/
def given_up (s : World) (w id : Nat) : World :=
  { s with
    book := { s.book with
      lease := fun j =>
        if j = id ∧ (s.book.lease j).map Prod.fst = some w then none else s.book.lease j } }

/-- The notifiers for which ledger rows are made, by the worker's list. -/
def made (s : World) (w id : Nat) (sinks : List (Nat × String)) : World :=
  { s with
    book := { s.book with
      made_for := fun j i =>
        if j = id ∧ i ∈ sinks.map Prod.fst ∧ s.db.sink j i = none then
          ((s.book.snapshot w).getD [])[i]?.map (·.inner)
        else s.book.made_for j i } }

def sent_to (s : World) (rows : List Nat) (index : Nat) (sink : RoutedSink) (event : Event)
    (ok : Bool) : World :=
  { s with
    book := { s.book with
      sends := s.book.sends ++ [{
        rows := rows, index := index, sink := sink, event := event, ok := ok
        open_rows := rows.filter (fun id =>
          (s.db.sink id index).all (fun r => r.status ≠ .sent)) }] } }

/-- The stored ETag of a source comes from what the worker fetched last. -/
def stamped (s : World) (w : Nat) (source_id : String) : World :=
  { s with
    book := { s.book with
      etag_from := fun j => if j = source_id then s.book.fetched w else s.book.etag_from j } }

def got (s : World) (w : Nat) (outcome : FetchOutcome) : World :=
  { s with
    book := { s.book with
      fetched := fun v => if v = w then some outcome else s.book.fetched v } }

def alerted (s : World) (title body : String) : World :=
  { s with book := { s.book with alerts := s.book.alerts ++ [(title, body)] } }

def offer (s : World) (w : Nat) (content_digest : Option String) : World :=
  { s with
    book := { s.book with
      offered := fun v => if v = w then some content_digest else s.book.offered v } }

/-- The worker goes by the live notifier list from here on. -/
def looked (s : World) (w : Nat) : World :=
  { s with
    book := { s.book with
      snapshot := fun v => if v = w then some s.notifiers else s.book.snapshot v } }

end World

/-- A store call: it fails and changes nothing, or it does what the statement does. -/
def stored {β : Type} (o : Oracle) (s : World) (r : β × World) : Except PipelineError β × World :=
  match o.fails with
  | some e => (.error (.store e), s)
  | none => (.ok r.1, r.2)

/-- A statement that only changes the tables. -/
def World.wrote (s : World) (db : Db) : World := { s with db := db }

/-- What one call does. -/
def exec {β : Type} (w : Nat) (op : Call β) (o : Oracle) (s₀ : World) :
    Except PipelineError β × World :=
  let s := s₀.tick o
  match op with
  | .is_initialized source_id =>
    stored o s (is_initialized s.db source_id,
      s.note (.asked w source_id (is_initialized s.db source_id)))
  | .touch_polled source_id => stored o s ((), s.wrote (touch_polled s.db s.now source_id))
  | .set_latest_release_tag source_id tag =>
    stored o s ((), s.wrote (set_latest_release_tag s.db s.now source_id tag))
  | .source_state_row source_id => stored o s (source_state_row s.db source_id, s)
  | .get_etag source_id => stored o s (get_etag s.db source_id, s)
  | .set_etag source_id etag =>
    stored o s ((), (s.wrote (set_etag s.db s.now source_id etag)).stamped w source_id)
  | .has_seen_missing_published_at source_id =>
    stored o s (has_seen_missing_published_at s.db source_id, s)
  | .enrich_seen_metadata source_id releases =>
    stored o s ((), s.wrote (enrich_seen_metadata s.db o.order source_id releases))
  | .record_seen source_id item => stored o s ((), s.wrote (record_seen s.db s.now source_id item))
  | .record_seen_batch source_id items =>
    stored o s ((),
      (s.wrote (record_seen_batch s.db s.now o.order source_id items)).note
        (.baselined w source_id))
  | .load_seen_index source_id => stored o s (load_seen_index s.db source_id, s)
  | .best_seen_identity source_id => stored o s (best_seen_identity s.db o.order source_id, s)
  | .insert_outbox event identity om =>
    let r := insert_outbox s.db s.now event identity om
    stored o s (r.1,
      if r.1.isSome then
        ((s.wrote r.2).note (.enqueued w event.source_id identity)).offer w om.content_digest
      else (s.wrote r.2).offer w om.content_digest)
  | .select_outbox source_id identity => stored o s (select_outbox s.db source_id identity, s)
  | .reopen_outbox event om id =>
    let r := reopen_outbox s.db event om id
    stored o s (r.1,
      if r.1 then
        (s.wrote r.2).note (.enqueued w event.source_id (((s.db.parent id).elim "" (·.identity))))
      else s.wrote r.2)
  | .claim_outbox_batch limit lease_secs =>
    let r := claim_outbox_batch s.db s.now o.order o.back o.locked limit lease_secs
    stored o s (r.1,
      (s.wrote r.2).claimed w (claim_batch_ids s.db s.now o.order o.back o.locked limit)
        (s.now + secs lease_secs))
  | .claim_outbox_row id lease_secs =>
    let r := claim_outbox_row s.db s.now id lease_secs
    stored o s (r.1,
      if r.1 then (s.wrote r.2).claimed w [id] (s.now + secs lease_secs) else s.wrote r.2)
  | .release_outbox_lease id =>
    stored o s ((), (s.wrote (release_outbox_lease s.db id)).given_up w id)
  | .apply_delivery_backoff id backoff_secs =>
    stored o s ((), (s.wrote (apply_delivery_backoff s.db s.now id backoff_secs)).given_up w id)
  | .defer_delivery id backoff_secs =>
    stored o s ((), (s.wrote (defer_delivery s.db s.now id backoff_secs)).given_up w id)
  | .complete_notification id source_id seen =>
    let r := complete_notification s.db s.now id source_id seen
    stored o s (r.1, if r.1 then (s.wrote r.2).through w [id] else s.wrote r.2)
  | .fail_notification id error =>
    let r := fail_notification s.db id error
    stored o s (r.1, s.wrote r.2)
  | .ensure_sink_deliveries id sinks =>
    match ensure_sink_deliveries s.db id sinks with
    | none => (.error (.store "foreign key violation"), s)
    | some db => stored o s ((), (s.made w id sinks).wrote db)
  | .list_pending_sink_indices id => stored o s (list_pending_sink_indices s.db id, s)
  | .complete_sink_delivery id index =>
    stored o s ((), s.wrote (complete_sink_delivery s.db s.now id index))
  | .fail_sink_delivery id index error =>
    stored o s ((), s.wrote (fail_sink_delivery s.db id index error))
  | .abandon_retryable_sinks id sink_indices error =>
    let r := abandon_retryable_sinks s.db id sink_indices error
    stored o s (r.1, s.wrote r.2)
  | .sinks_delivery_complete id => stored o s (sinks_delivery_complete s.db id, s)
  | .count_sinks id => stored o s (count_sinks s.db id, s)
  | .mark_outbox_dead id =>
    let r := mark_outbox_dead s.db id
    stored o s (r.1, s.wrote r.2)
  | .mark_outbox_failed id => stored o s ((), s.wrote (mark_outbox_failed s.db id))
  | .requeue_dead_outbox =>
    let r := requeue_dead_outbox s.db
    stored o s (r.1, s.wrote r.2)
  | .finalize_exhausted_outbox =>
    let r := finalize_exhausted_outbox s.db
    stored o s (r.1, s.wrote r.2)
  | .utc_now => (.ok o.utc_now, s)
  | .fetch _ =>
    match o.fetch with
    | .error e => (.error (.source e), s)
    | .ok outcome => (.ok outcome, s.got w outcome)
  | .outbox_flush_concurrency => (.ok o.outbox_flush_concurrency, s)
  | .outbox_retry_backoff_max_secs => (.ok o.outbox_retry_backoff_max_secs, s)
  | .notifier_snapshot => (.ok s.notifiers, s.looked w)
  | .breaker_allows _ => (.ok o.breaker_allows, s)
  | .notify rows index sink event =>
    (.ok o.notify, s.sent_to rows index sink event o.notify.toBool)
  | .drain_newly_opened_breakers => (.ok o.opened, s)
  | .emit_ops_alert title body => (.ok (), s.alerted title body)
  | .hash_order => (.ok o.order, s)
  | .advisories _ _ _ _ => (.ok o.advisories, s)
  | .through ids => (.ok (), (s.through w ids).let_go w)

/-- A config apply swaps the notifier list as one unit. -/
inductive Outside where
  | apply_runtime_config (notifiers : Notifier)
deriving DecidableEq

/-- Workers on one engine. A worker that vanishes leaves its rows as they are, and its attempts
are over. -/
def machine : Machine Call PipelineError World Oracle Outside where
  exec := exec
  leave := fun w s =>
    { s with
      book := { s.book with
        attempt := fun id => if s.book.attempt id = some w then none else s.book.attempt id
        snapshot := fun v => if v = w then none else s.book.snapshot v } }
  outside := fun e s =>
    match e with
    | .apply_runtime_config notifiers => { s with notifiers := notifiers }

/-- A piece of the pipeline, as a program over these calls. -/
abbrev Work (α : Type) := Prog Call PipelineError α

abbrev Workers := Pool Call PipelineError World

end xrelease.engine
