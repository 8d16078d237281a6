-- The PostgreSQL store (`store/postgres`): the tables that polling and delivery share, and
-- each SQL statement or transaction on them as one step. The database clock is `now`; where a
-- statement leaves the order of its rows open, `order` picks it.
import Xrelease.Release
import Xrelease.Table

namespace xrelease.store

open xrelease.model keyed

/-! ## The data model -/

/-- Attempts a row gets before it is `dead`. -/
def OUTBOX_MAX_ATTEMPTS : Nat := 50

/-- How long a claim holds a row. -/
def OUTBOX_LEASE_SECS : Nat := 300

/-- A length of time, in the microseconds of `DateTime`. -/
def secs (n : Nat) : DateTime := (n : Int) * 1000000

/-- A single notification to deliver. -/
structure Event where
  source_id : String
  source_kind : String
  title : String
  body : String
  url : Option String
  routing_tag : Option String
deriving DecidableEq

/-- One release identity to upsert into `seen_release`. -/
structure SeenUpsert where
  identity : String
  display_tag : Option String
  content_digest : Option String
  published_at : Option DateTime
  url : Option String
deriving DecidableEq

/-- The label stored beside an identity, when it differs. -/
def display_tag_of (r : Release) : Option String := if r.raw_tag = r.id then none else some r.raw_tag

/-- What is kept of a release that was seen. -/
def SeenUpsert.from_release (r : Release) (content_digest : Option String) : SeenUpsert where
  identity := r.id
  display_tag := display_tag_of r
  content_digest := content_digest
  published_at := none
  url := r.url

def SeenUpsert.with_published_at (s : SeenUpsert) (published_at : Option DateTime) : SeenUpsert :=
  { s with published_at := published_at }

/-- Columns stored beside an outbox notification. -/
structure OutboxMeta where
  content_digest : Option String
  display_tag : Option String
  published_at : Option DateTime
  deliver_after : Option DateTime
deriving DecidableEq

/-- What an enqueue says of the row. -/
structure EnqueueOutcome where
  id : Nat
  deliver_now : Bool
  created : Bool
deriving DecidableEq

/-- The status of an outbox row or a ledger row. -/
inductive Status where
  | pending
  | failed
  | sent
  | dead
deriving DecidableEq

/-- `status IN ('pending', 'failed')`. -/
def Status.retryable : Status → Bool
  | .pending => true
  | .failed => true
  | .sent => false
  | .dead => false

/-- A row of `source_state`. -/
structure SourceState where
  initialized : Bool
  last_polled_at : Option DateTime
  etag : Option String
  latest_release_tag : Option String
deriving DecidableEq

/-- A row of `seen_release`, under its source and identity. -/
structure SeenRow where
  display_tag : Option String
  first_seen_at : DateTime
  content_digest : Option String
  published_at : Option DateTime
  url : Option String
deriving DecidableEq

/-- A row of `notification_outbox`. -/
structure OutboxRow where
  source_id : String
  identity : String
  content_digest : Option String
  display_tag : Option String
  published_at : Option DateTime
  title : String
  body : String
  url : Option String
  routing_tag : Option String
  source_kind : String
  status : Status
  attempts : Nat
  last_error : Option String
  created_at : DateTime
  sent_at : Option DateTime
  locked_until : Option DateTime
  deliver_after : Option DateTime
deriving DecidableEq

/-- A row of `notification_sink_delivery`. -/
structure SinkRow where
  sink_kind : String
  status : Status
  attempts : Nat
  last_error : Option String
  sent_at : Option DateTime
deriving DecidableEq

/-- An outbox row as a claim returns it. -/
structure OutboxRecord where
  id : Nat
  source_id : String
  identity : String
  content_digest : Option String
  display_tag : Option String
  published_at : Option DateTime
  title : String
  body : String
  url : Option String
  routing_tag : Option String
  source_kind : String
  attempts : Nat
  deliver_after : Option DateTime
deriving DecidableEq

/-- The event that a row carries. -/
def OutboxRecord.to_event (r : OutboxRecord) : Event where
  source_id := r.source_id
  source_kind := r.source_kind
  title := r.title
  body := r.body
  url := r.url
  routing_tag := r.routing_tag

def outbox_record_from_row (id : Nat) (r : OutboxRow) : OutboxRecord where
  id := id
  source_id := r.source_id
  identity := r.identity
  content_digest := r.content_digest
  display_tag := r.display_tag
  published_at := r.published_at
  title := r.title
  body := r.body
  url := r.url
  routing_tag := r.routing_tag
  source_kind := r.source_kind
  attempts := r.attempts
  deliver_after := r.deliver_after

structure SourceStateRow where
  initialized : Bool
  last_polled_at : Option DateTime
  latest_release_tag : Option String
deriving DecidableEq

/-- The tables: `seen_release` by source and identity, the outbox by its serial number, the
sink ledger by outbox number and sink index. -/
structure Db where
  source_state : Table String SourceState
  seen_release : Table (String × String) SeenRow
  notification_outbox : Serial OutboxRow
  notification_sink_delivery : Table (Nat × Nat) SinkRow

namespace Db

/-- No row in any table. -/
def empty : Db := ⟨Table.empty, Table.empty, Serial.empty, Table.empty⟩

instance : Inhabited Db := ⟨empty⟩

/-- The parent row of an outbox number. -/
def parent (db : Db) (id : Nat) : Option OutboxRow := db.notification_outbox.get id

/-- The ledger row of a sink for an outbox number. -/
def sink (db : Db) (id index : Nat) : Option SinkRow := db.notification_sink_delivery.get (id, index)

/-- What is on record of a release. -/
def seen (db : Db) (source_id identity : String) : Option SeenRow :=
  db.seen_release.get (source_id, identity)

/-- `UPDATE notification_outbox SET … WHERE …`. -/
def updateOutbox (db : Db) (p : Nat → OutboxRow → Bool) (f : OutboxRow → OutboxRow) : Db :=
  { db with
    notification_outbox := db.notification_outbox.mapRows (fun id r => if p id r then f r else r) }

/-- `UPDATE notification_sink_delivery SET … WHERE …`. -/
def updateSinks (db : Db) (p : Nat → Nat → SinkRow → Bool) (f : SinkRow → SinkRow) : Db :=
  { db with
    notification_sink_delivery :=
      db.notification_sink_delivery.mapRows (fun k r => if p k.1 k.2 r then f r else r) }

@[simp] theorem parent_updateOutbox (db : Db) (p : Nat → OutboxRow → Bool)
    (f : OutboxRow → OutboxRow) (id : Nat) :
    (db.updateOutbox p f).parent id = (db.parent id).map (fun r => if p id r then f r else r) :=
  Serial.get_mapRows _ _ _

@[simp] theorem sink_updateOutbox (db : Db) (p : Nat → OutboxRow → Bool)
    (f : OutboxRow → OutboxRow) (id index : Nat) :
    (db.updateOutbox p f).sink id index = db.sink id index := rfl

@[simp] theorem seen_updateOutbox (db : Db) (p : Nat → OutboxRow → Bool)
    (f : OutboxRow → OutboxRow) (s i : String) :
    (db.updateOutbox p f).seen s i = db.seen s i := rfl

@[simp] theorem state_updateOutbox (db : Db) (p : Nat → OutboxRow → Bool)
    (f : OutboxRow → OutboxRow) : (db.updateOutbox p f).source_state = db.source_state := rfl

@[simp] theorem parent_updateSinks (db : Db) (p : Nat → Nat → SinkRow → Bool)
    (f : SinkRow → SinkRow) (id : Nat) : (db.updateSinks p f).parent id = db.parent id := rfl

@[simp] theorem sink_updateSinks (db : Db) (p : Nat → Nat → SinkRow → Bool)
    (f : SinkRow → SinkRow) (id index : Nat) :
    (db.updateSinks p f).sink id index =
      (db.sink id index).map (fun r => if p id index r then f r else r) :=
  Table.get_mapRows _ _ _

@[simp] theorem seen_updateSinks (db : Db) (p : Nat → Nat → SinkRow → Bool)
    (f : SinkRow → SinkRow) (s i : String) : (db.updateSinks p f).seen s i = db.seen s i := rfl

@[simp] theorem state_updateSinks (db : Db) (p : Nat → Nat → SinkRow → Bool)
    (f : SinkRow → SinkRow) : (db.updateSinks p f).source_state = db.source_state := rfl

end Db

/-! ## `source_state` -/

/-- Upsert of one `source_state` row: a new row starts not initialized and polled `now`. -/
def upsert_state (db : Db) (now : DateTime) (source_id : String)
    (set : SourceState → SourceState) : Db :=
  { db with
    source_state :=
      db.source_state.upsert source_id (set ⟨false, some now, none, none⟩) set }

/-- Whether the source had its silent baseline. -/
def is_initialized (db : Db) (source_id : String) : Bool :=
  (db.source_state.get source_id).elim false (·.initialized)

def mark_initialized (db : Db) (now : DateTime) (source_id : String) : Db :=
  upsert_state db now source_id (fun s => { s with initialized := true })

def touch_polled (db : Db) (now : DateTime) (source_id : String) : Db :=
  upsert_state db now source_id (fun s => { s with last_polled_at := some now })

def set_latest_release_tag (db : Db) (now : DateTime) (source_id tag : String) : Db :=
  upsert_state db now source_id (fun s => { s with latest_release_tag := some tag })

def source_state_row (db : Db) (source_id : String) : SourceStateRow :=
  (db.source_state.get source_id).elim ⟨false, none, none⟩
    (fun s => ⟨s.initialized, s.last_polled_at, s.latest_release_tag⟩)

def get_etag (db : Db) (source_id : String) : Option String :=
  (db.source_state.get source_id).bind (·.etag)

/-- Store the ETag of the last answer, or forget it. -/
def set_etag (db : Db) (now : DateTime) (source_id : String) (etag : Option String) : Db :=
  upsert_state db now source_id (fun s => { s with etag := etag })

/-! ## `seen_release` -/

/-- Whether a release is on record without its date. -/
def has_seen_missing_published_at (db : Db) (source_id : String) : Bool :=
  db.seen_release.any (fun k r => k.1 = source_id && r.published_at.isNone)

/-- What a release can add to a row that is already seen, if anything. -/
def enrichment (r : Release) : Option SeenUpsert :=
  if r.published_at.isNone && r.url.isNone && (display_tag_of r).isNone then none
  else some ⟨r.id, display_tag_of r, none, r.published_at, r.url⟩

/-- `COALESCE` of the row's own columns with the release's. -/
def SeenRow.enriched (row : SeenRow) (t : SeenUpsert) : SeenRow :=
  { row with
    published_at := row.published_at.or t.published_at
    url := row.url.or t.url
    display_tag := row.display_tag.or t.display_tag }

/-- Of several listed items with the row's identity, the server takes one. -/
def enrich_seen_metadata (db : Db) (order : List Nat) (source_id : String)
    (releases : List Release) : Db :=
  let items := arrange order (releases.filterMap enrichment)
  { db with
    seen_release := db.seen_release.mapRows (fun k row =>
      if k.1 = source_id then
        (items.find? (fun t => t.identity = k.2)).elim row row.enriched
      else row) }

/-- `ON CONFLICT DO UPDATE` of `seen_release`: the digest is the new one, the rest fills gaps. -/
def SeenRow.refreshed (row : SeenRow) (item : SeenUpsert) : SeenRow where
  display_tag := item.display_tag.or row.display_tag
  first_seen_at := row.first_seen_at
  content_digest := item.content_digest
  published_at := row.published_at.or item.published_at
  url := row.url.or item.url

def write_seen_row (db : Db) (now : DateTime) (source_id : String) (item : SeenUpsert) : Db :=
  { db with
    seen_release := db.seen_release.upsert (source_id, item.identity)
      ⟨item.display_tag, now, item.content_digest, item.published_at, item.url⟩
      (fun row => row.refreshed item) }

/-- Put one release on record. -/
def record_seen (db : Db) (now : DateTime) (source_id : String) (item : SeenUpsert) : Db :=
  write_seen_row db now source_id item

/-- The digest stored for each identity of a source. -/
def load_seen_index (db : Db) (source_id : String) : String → Option (Option String) :=
  fun identity => (db.seen source_id identity).map (·.content_digest)

/-- `DISTINCT ON (identity)`: the first item of each identity. -/
def distinct_on (items : List SeenUpsert) : List SeenUpsert :=
  items.foldr (fun item kept => item :: kept.filter (fun k => k.identity ≠ item.identity)) []

/-- The silent baseline, in one transaction: all items seen, the source initialized. -/
def record_seen_batch (db : Db) (now : DateTime) (order : List Nat) (source_id : String)
    (items : List SeenUpsert) : Db :=
  if items = [] then mark_initialized db now source_id
  else
    mark_initialized
      ((distinct_on (arrange order items)).foldl
        (fun db item => write_seen_row db now source_id item) db)
      now source_id

def best_seen_identity (db : Db) (order : List Nat) (source_id : String) : Option String :=
  let rows := arrange order (db.seen_release.select (fun k _ => k.1 = source_id))
  (pick_latest (rows.map (fun kr => Release.new kr.1.2))).map (·.raw_tag)

/-! ## `notification_outbox` -/

/-- `INSERT … ON CONFLICT (source_id, identity) DO NOTHING RETURNING id`. -/
def insert_outbox (db : Db) (now : DateTime) (event : Event) (identity : String)
    (om : OutboxMeta) : Option Nat × Db :=
  if db.notification_outbox.any
      (fun _ r => r.source_id = event.source_id && r.identity = identity) then
    (none, { db with notification_outbox := db.notification_outbox.skip })
  else
    (some db.notification_outbox.next,
      { db with
        notification_outbox := db.notification_outbox.insert
          { source_id := event.source_id
            identity := identity
            content_digest := om.content_digest
            display_tag := om.display_tag
            published_at := om.published_at
            title := event.title
            body := event.body
            url := event.url
            routing_tag := event.routing_tag
            source_kind := event.source_kind
            status := .pending
            attempts := 0
            last_error := none
            created_at := now
            sent_at := none
            locked_until := none
            deliver_after := om.deliver_after } })

/-- `SELECT id, status, content_digest … WHERE source_id = … AND identity = …`. -/
def select_outbox (db : Db) (source_id identity : String) :
    Option (Nat × Status × Option String) :=
  (db.notification_outbox.select
    (fun _ r => r.source_id = source_id && r.identity = identity)).head?.map
    (fun kr => (kr.1, kr.2.status, kr.2.content_digest))

/-- A sent row with new content, to be delivered again. -/
def OutboxRow.reopened (r : OutboxRow) (event : Event) (om : OutboxMeta) : OutboxRow :=
  { r with
    status := .pending
    content_digest := om.content_digest
    display_tag := om.display_tag
    published_at := om.published_at
    title := event.title
    body := event.body
    url := event.url
    routing_tag := event.routing_tag
    source_kind := event.source_kind
    deliver_after := om.deliver_after
    attempts := 0
    last_error := none }

/-- A ledger row as good as new. -/
def SinkRow.reset (r : SinkRow) : SinkRow :=
  { r with status := .pending, attempts := 0, last_error := none, sent_at := none }

/-- Whether the reopen of a row finds it `sent`. -/
def reopens (db : Db) (id : Nat) : Bool := (db.parent id).any (fun r => r.status = .sent)

/-- Reopen a sent row for changed content and reset its ledger, in one transaction; when the
row is no longer `sent` the transaction is dropped. -/
def reopen_outbox (db : Db) (event : Event) (om : OutboxMeta) (id : Nat) : Bool × Db :=
  if reopens db id then
    (true, (db.updateOutbox (fun j r => j = id && r.status = .sent)
      (fun r => r.reopened event om)).updateSinks (fun j _ _ => j = id) SinkRow.reset)
  else (false, db)

/-- The lease of a row has run out, or it never had one. -/
def OutboxRow.unlocked (r : OutboxRow) (now : DateTime) : Bool :=
  r.locked_until.all (fun t => t < now)

/-- The delivery schedule of a row no longer holds it back. -/
def OutboxRow.due (r : OutboxRow) (now : DateTime) : Bool :=
  r.deliver_after.all (fun t => t ≤ now)

/-- The rows that `claim_outbox_batch` looks for. -/
def OutboxRow.claimable (r : OutboxRow) (now : DateTime) : Bool :=
  r.status.retryable && r.attempts < OUTBOX_MAX_ATTEMPTS && r.unlocked now && r.due now

/-- The rows that `claim_outbox_row` accepts; it does not look at the attempts. -/
def OutboxRow.leasable (r : OutboxRow) (now : DateTime) : Bool :=
  r.status.retryable && r.unlocked now && r.due now

/-- The row under a lease. -/
def OutboxRow.leased (r : OutboxRow) (until_ : DateTime) : OutboxRow :=
  { r with locked_until := some until_ }

/-- The numbers that a batch claim takes: claimable rows, oldest first, up to `limit`, without
those that another transaction has locked at that moment; `back` is the order they come back in. -/
def claim_batch_ids (db : Db) (now : DateTime) (order back locked : List Nat) (limit : Nat) :
    List Nat :=
  let rows := arrange order
    (db.notification_outbox.select (fun id r => r.claimable now && !locked.contains id))
  arrange back
    (((rows.insertionSort (fun a b => a.2.created_at ≤ b.2.created_at)).take limit).map Prod.fst)

/-- Lease the oldest rows that are due. -/
def claim_outbox_batch (db : Db) (now : DateTime) (order back locked : List Nat)
    (limit lease_secs : Nat) : List OutboxRecord × Db :=
  let ids := claim_batch_ids db now order back locked limit
  let db' := db.updateOutbox (fun id _ => ids.contains id) (·.leased (now + secs lease_secs))
  (ids.filterMap (fun id => (db'.parent id).map (outbox_record_from_row id)), db')

/-- Whether `claim_outbox_row` gets the row. -/
def claim_row_hit (db : Db) (now : DateTime) (id : Nat) : Bool :=
  (db.parent id).any (·.leasable now)

/-- Lease one row, if it is free and due. -/
def claim_outbox_row (db : Db) (now : DateTime) (id lease_secs : Nat) : Bool × Db :=
  (claim_row_hit db now id,
    db.updateOutbox (fun j r => j = id && r.leasable now) (·.leased (now + secs lease_secs)))

/-- Give a row back at once. -/
def release_outbox_lease (db : Db) (id : Nat) : Db :=
  db.updateOutbox (fun j _ => j = id) (fun r => { r with locked_until := none })

/-- Keep a row back after a failure, which counts as an attempt. -/
def apply_delivery_backoff (db : Db) (now : DateTime) (id backoff_secs : Nat) : Db :=
  db.updateOutbox (fun j _ => j = id)
    (fun r => { r with locked_until := some (now + secs backoff_secs), attempts := r.attempts + 1 })

/-- Keep a row back without counting an attempt. -/
def defer_delivery (db : Db) (now : DateTime) (id backoff_secs : Nat) : Db :=
  db.updateOutbox (fun j _ => j = id) (·.leased (now + secs backoff_secs))

/-- Whether `complete_notification` finds the row still open. -/
def completes (db : Db) (id : Nat) : Bool := (db.parent id).any (fun r => r.status.retryable)

/-- A row that every sink has had. -/
def OutboxRow.completed (r : OutboxRow) (now : DateTime) : OutboxRow :=
  { r with status := .sent, sent_at := some now, last_error := none }

/-- Mark the parent `sent` and the release seen, in one transaction. -/
def complete_notification (db : Db) (now : DateTime) (id : Nat) (source_id : String)
    (seen : SeenUpsert) : Bool × Db :=
  if completes db id then
    (true, write_seen_row
      (db.updateOutbox (fun j r => j = id && r.status.retryable) (·.completed now))
      now source_id seen)
  else (false, db)

/-- One more attempt spent; `dead` at the cap. -/
def OutboxRow.spent (r : OutboxRow) (error : String) : OutboxRow :=
  { r with
    attempts := r.attempts + 1
    last_error := some error
    status := if r.attempts + 1 ≥ OUTBOX_MAX_ATTEMPTS then .dead else .failed }

/-- Spend an attempt on a row; whether it is dead now. -/
def fail_notification (db : Db) (id : Nat) (error : String) : Bool × Db :=
  let db' := db.updateOutbox (fun j _ => j = id) (·.spent error)
  ((db'.parent id).any (fun r => r.status = .dead && r.attempts = OUTBOX_MAX_ATTEMPTS), db')

/-- Promote exhausted rows to `dead`. -/
def finalize_exhausted_outbox (db : Db) : Nat × Db :=
  let p := fun (_ : Nat) (r : OutboxRow) =>
    r.status.retryable && decide (r.attempts ≥ OUTBOX_MAX_ATTEMPTS)
  ((db.notification_outbox.select p).length,
    db.updateOutbox p (fun r => { r with status := .dead }))

/-- A dead row that starts over. -/
def OutboxRow.requeued (r : OutboxRow) : OutboxRow :=
  { r with status := .pending, attempts := 0, last_error := none, locked_until := none }

/-- Revive every dead row and what its ledger has not sent, in one transaction. -/
def requeue_dead_outbox (db : Db) : Nat × Db :=
  let dead := fun (id : Nat) => (db.parent id).any (fun r => r.status = .dead)
  ((db.notification_outbox.select (fun _ r => r.status = .dead)).length,
    (db.updateOutbox (fun id _ => dead id) OutboxRow.requeued).updateSinks
      (fun id _ r => dead id && r.status ≠ .sent) SinkRow.reset)

/-! ## `notification_sink_delivery` -/

/-- The row of a sink that has not been tried. -/
def new_sink_row (kind : String) : SinkRow where
  sink_kind := kind
  status := .pending
  attempts := 0
  last_error := none
  sent_at := none

/-- Open the ledger for sinks that have no row yet; nothing when the parent row is missing
(its foreign key). -/
def ensure_sink_deliveries (db : Db) (id : Nat) (sinks : List (Nat × String)) : Option Db :=
  if sinks = [] then some db
  else if (db.parent id).isNone then none
  else some { db with
    notification_sink_delivery := db.notification_sink_delivery.addAll
      (sinks.map (fun s => ((id, s.1), new_sink_row s.2))) }

/-- Still to deliver: `pending` or `failed`, with attempts left. -/
def SinkRow.wanting (r : SinkRow) : Bool := r.status.retryable && r.attempts < OUTBOX_MAX_ATTEMPTS

/-- The ledger rows of an outbox number. -/
def sinks_of (db : Db) (id : Nat) : List ((Nat × Nat) × SinkRow) :=
  db.notification_sink_delivery.select (fun k _ => k.1 = id)

/-- The sinks that are still to be tried, in order. -/
def list_pending_sink_indices (db : Db) (id : Nat) : List Nat :=
  (((sinks_of db id).filter (fun kr => kr.2.wanting)).map (fun kr => kr.1.2)).insertionSort (· ≤ ·)

/-- The sink has had the event. -/
def complete_sink_delivery (db : Db) (now : DateTime) (id index : Nat) : Db :=
  db.updateSinks (fun j i _ => j = id && i = index)
    (fun r => { r with status := .sent, sent_at := some now, last_error := none })

/-- One more attempt spent on a sink; `dead` at the cap. -/
def SinkRow.spent (r : SinkRow) (error : String) : SinkRow :=
  { r with
    attempts := r.attempts + 1
    last_error := some error
    status := if r.attempts + 1 ≥ OUTBOX_MAX_ATTEMPTS then .dead else .failed }

def fail_sink_delivery (db : Db) (id index : Nat) (error : String) : Db :=
  db.updateSinks (fun j i _ => j = id && i = index) (·.spent error)

/-- A ledger row that is given up. -/
def SinkRow.abandoned (r : SinkRow) (error : String) : SinkRow :=
  { r with
    status := .dead, last_error := some error
    attempts := max r.attempts OUTBOX_MAX_ATTEMPTS }

/-- Give up retryable ledger rows: the listed ones, or all of them for an empty list. -/
def abandon_retryable_sinks (db : Db) (id : Nat) (sink_indices : List Nat) (error : String) :
    Nat × Db :=
  let p := fun (j i : Nat) (r : SinkRow) =>
    j = id && (sink_indices.isEmpty || sink_indices.contains i) && r.status.retryable
  ((db.notification_sink_delivery.select (fun k r => p k.1 k.2 r)).length,
    db.updateSinks p (·.abandoned error))

/-- Whether every sink on the ledger has had the event. -/
def sinks_delivery_complete (db : Db) (id : Nat) : Bool :=
  (sinks_of db id).all (fun kr => kr.2.status = .sent)

/-- The rows of a ledger by their state. -/
structure SinkCounts where
  total : Nat
  dead : Nat
  retryable : Nat
  unsent : Nat
deriving DecidableEq

/-- What `sync_outbox_sink_status` reads before it writes. -/
def count_sinks (db : Db) (id : Nat) : SinkCounts where
  total := (sinks_of db id).length
  dead := ((sinks_of db id).filter (fun kr => kr.2.status = .dead)).length
  retryable := ((sinks_of db id).filter (fun kr => kr.2.status.retryable)).length
  unsent := ((sinks_of db id).filter (fun kr => kr.2.status ≠ .sent)).length

/-- Give a row up; whether it was not dead yet. -/
def mark_outbox_dead (db : Db) (id : Nat) : Bool × Db :=
  ((db.parent id).any (fun r => r.status ≠ .dead),
    db.updateOutbox (fun j r => j = id && r.status ≠ .dead) (fun r => { r with status := .dead }))

def mark_outbox_failed (db : Db) (id : Nat) : Db :=
  db.updateOutbox (fun j r => j = id && r.status.retryable)
    (fun r => { r with status := .failed, last_error := some "partial sink delivery failure" })

/-! ## What the statements leave alone -/

section Frames

variable (db : Db) (now : DateTime) (source_id : String) (id index : Nat)

@[simp] theorem parent_upsert_state (set : SourceState → SourceState) :
    (upsert_state db now source_id set).parent id = db.parent id := rfl

@[simp] theorem sink_upsert_state (set : SourceState → SourceState) :
    (upsert_state db now source_id set).sink id index = db.sink id index := rfl

@[simp] theorem seen_upsert_state (set : SourceState → SourceState) (s i : String) :
    (upsert_state db now source_id set).seen s i = db.seen s i := rfl

@[simp] theorem parent_enrich (order : List Nat) (releases : List Release) :
    (enrich_seen_metadata db order source_id releases).parent id = db.parent id := rfl

@[simp] theorem sink_enrich (order : List Nat) (releases : List Release) :
    (enrich_seen_metadata db order source_id releases).sink id index = db.sink id index := rfl

@[simp] theorem parent_write_seen_row (item : SeenUpsert) :
    (write_seen_row db now source_id item).parent id = db.parent id := rfl

@[simp] theorem sink_write_seen_row (item : SeenUpsert) :
    (write_seen_row db now source_id item).sink id index = db.sink id index := rfl

@[simp] theorem state_write_seen_row (item : SeenUpsert) :
    (write_seen_row db now source_id item).source_state = db.source_state := rfl

theorem outbox_foldl_write (items : List SeenUpsert) :
    (items.foldl (fun db item => write_seen_row db now source_id item) db).notification_outbox =
        db.notification_outbox ∧
      (items.foldl (fun db item => write_seen_row db now source_id item) db
        ).notification_sink_delivery = db.notification_sink_delivery := by
  induction items generalizing db with
  | nil => exact ⟨rfl, rfl⟩
  | cons item rest ih => exact ih (write_seen_row db now source_id item)

@[simp] theorem parent_record_seen_batch (order : List Nat) (items : List SeenUpsert) :
    (record_seen_batch db now order source_id items).parent id = db.parent id := by
  unfold record_seen_batch
  split
  · rfl
  · unfold mark_initialized Db.parent
    simp only [upsert_state]
    rw [(outbox_foldl_write db now source_id _).1]

@[simp] theorem sink_record_seen_batch (order : List Nat) (items : List SeenUpsert) :
    (record_seen_batch db now order source_id items).sink id index = db.sink id index := by
  unfold record_seen_batch
  split
  · rfl
  · unfold mark_initialized Db.sink
    simp only [upsert_state]
    rw [(outbox_foldl_write db now source_id _).2]

@[simp] theorem sink_insert_outbox (event : Event) (identity : String) (om : OutboxMeta) :
    (insert_outbox db now event identity om).2.sink id index = db.sink id index := by
  unfold insert_outbox
  split <;> rfl

/-- An insert leaves the rows that are there alone. -/
theorem parent_insert_outbox (event : Event) (identity : String) (om : OutboxMeta) {r : OutboxRow}
    (h : db.parent id = some r) :
    (insert_outbox db now event identity om).2.parent id = some r := by
  unfold insert_outbox
  split
  · exact h
  · unfold Db.parent
    rw [Serial.get_insert]
    split
    · rename_i hid
      rw [hid] at h
      simp [Db.parent] at h
    · exact h

/-- A claim that misses changes nothing. -/
theorem parent_claim_miss {j : Nat} (lease_secs : Nat) (h : claim_row_hit db now id = false) :
    (claim_outbox_row db now id lease_secs).2.parent j = db.parent j := by
  simp only [claim_outbox_row, Db.parent_updateOutbox]
  cases hr : db.parent j with
  | none => rfl
  | some r =>
    have hmiss : (j = id && r.leasable now) = false := by
      by_cases hj : j = id
      · subst hj
        simpa [claim_row_hit, hr] using h
      · simp [hj]
    simp only [Option.map_some, hmiss]
    rfl

/-- The numbers of a batch claim are those of claimable rows. -/
theorem mem_claim_batch_ids {order back locked : List Nat} {limit : Nat}
    (h : id ∈ claim_batch_ids db now order back locked limit) :
    ∃ r, db.parent id = some r ∧ r.claimable now = true := by
  unfold claim_batch_ids at h
  rw [mem_arrange, List.mem_map] at h
  obtain ⟨⟨j, r⟩, hmem, rfl⟩ := h
  have hrow := (List.mem_insertionSort _).mp (List.mem_of_mem_take hmem)
  rw [mem_arrange, Serial.mem_select, Bool.and_eq_true] at hrow
  exact ⟨r, hrow.1, hrow.2.1⟩

end Frames

end xrelease.store
