-- Polling a source (`pipeline/poll.rs`, `pipeline/filter.rs`): fetch, filter, tell what is new
-- from what was seen, put it into the outbox and deliver it inline; and the push path that
-- runs the same pipeline for a webhook's release (`api/webhook.rs`).
import Xrelease.Delivery

namespace xrelease.pipeline

open xrelease.model xrelease.store xrelease.engine xrelease.outbox keyed calls calls.Prog text

/-! ## The filter -/

/-- A compiled regular expression, as what it matches. -/
abbrev Regex := String → Bool

structure Filter where
  include_prerelease : Bool
  prerelease_tags : Option (List String)
  pattern : Option Regex
  exclude_pattern : Option Regex
  exclude_updated : Bool

/-- Boundary-aware search for one of the markers. -/
def matches_prerelease_marker (tag : String) (markers : List String) : Bool :=
  let tag_lower := lower tag
  markers.any fun marker =>
    let m := lower marker
    if m = "" then false
    else
      (split (fun c => !is_ascii_alphanumeric c) tag_lower.toList).any (fun part => part = m.toList)
        || contains ("-" ++ m) tag_lower || contains ("_" ++ m) tag_lower
        || contains ("." ++ m) tag_lower

/-- Prerelease gate, then prerelease sub-tags, then exclude, then include. -/
def Filter.accepts (f : Filter) (release : Release) : Bool :=
  if release.prerelease && !f.include_prerelease then false
  else if release.prerelease &&
      f.prerelease_tags.any (fun tags => !matches_prerelease_marker release.raw_tag tags) then false
  else if f.exclude_pattern.any (fun re => re release.raw_tag) then false
  else f.pattern.all (fun re => re release.raw_tag)

/-! ## The watch and its events -/

structure Provider where
  id : String
  kind : String
  kind_label : String
  display_name : String
deriving DecidableEq

structure Watch where
  provider : Provider
  filter : Filter
  routing_tag : Option String
  /-- The next delivery moment strictly after a given one. -/
  notify_schedule : Option (DateTime → Option DateTime)

/-- Year, month and day of a moment, in the proleptic Gregorian calendar. -/
def civil_date (t : DateTime) : Int × Int × Int :=
  let z := t / 86400000000 + 719468
  let era := z / 146097
  let doe := z - era * 146097
  let yoe := (doe - doe / 1460 + doe / 36524 - doe / 146096) / 365
  let doy := doe - (365 * yoe + yoe / 4 - yoe / 100)
  let mp := (5 * doy + 2) / 153
  let month := if mp < 10 then mp + 3 else mp - 9
  (yoe + era * 400 + (if month ≤ 2 then 1 else 0), month, doy - (153 * mp + 2) / 5 + 1)

/-- The number, with zeros before it up to the width. -/
def padded (width : Nat) (n : Int) : String :=
  String.ofList (padLeft width '0' (toString n).toList)

/-- `%Y`: a year that is not of four digits has its sign. -/
def year_text (y : Int) : String :=
  if 0 ≤ y ∧ y < 10000 then padded 4 y
  else (if y < 0 then "-" else "+") ++ padded 4 y.natAbs

/-- `%Y-%m-%d`. -/
def date_text (t : DateTime) : String :=
  let (y, m, d) := civil_date t
  year_text y ++ "-" ++ padded 2 m ++ "-" ++ padded 2 d

def MAX_BODY_CHARS : Nat := 3000

/-- Release notes, cut off after `MAX_BODY_CHARS` characters. -/
def notes_text (notes : String) : String :=
  if MAX_BODY_CHARS < notes.length then
    String.ofList (notes.toList.take MAX_BODY_CHARS) ++ "\n\n*…changelog truncated…*"
  else notes

/-- Render a release into a notification. -/
def build_event (provider : Provider) (release : Release) : Event where
  source_id := provider.id
  source_kind := provider.kind_label
  title := s!"{provider.display_name}: new release {release.raw_tag}"
  body :=
    s!"**{provider.display_name}** published **{release.raw_tag}**.\n\n"
      ++ s!"- Source: {provider.kind_label}\n"
      ++ s!"- Version: {release.version.elim release.raw_tag version_text}\n"
      ++ release.published_at.elim "" (fun t => s!"- Published: {date_text t}\n")
      ++ release.body.elim "" (fun notes => "\n---\n\n" ++ notes_text notes)
  url := release.url
  routing_tag := none

/-- The event as a watch sends it. -/
def event_of (watch : Watch) (release : Release) : Event :=
  { build_event watch.provider release with routing_tag := watch.routing_tag }

/-! ## What is new -/

def baseline_item (release : Release) : SeenUpsert :=
  (SeenUpsert.from_release release (some release.content_fingerprint)).with_published_at
    release.published_at

def should_deliver_cached (release : Release) (exclude_updated : Bool)
    (seen : String → Option (Option String)) : Bool :=
  match seen release.id with
  | none => true
  | some stored =>
    if exclude_updated then false else stored ≠ some release.content_fingerprint

/-- Note the newest tag of a list, when the list has any. -/
def note_latest (source_id : String) (releases : List Release) : Work Unit :=
  match pick_latest releases with
  | some latest => perform (.set_latest_release_tag source_id latest.raw_tag)
  | none => return ()

/-- The releases to deliver; on first contact none, and the list becomes the baseline. -/
def select_for_delivery (source_id : String) (releases : List Release) (exclude_updated : Bool) :
    Work (List Release) := do
  let initialized ← perform (.is_initialized source_id)
  if !initialized then
    perform (.record_seen_batch source_id (releases.map baseline_item))
    note_latest source_id releases
    return []
  else
    let seen ← perform (.load_seen_index source_id)
    return sort_for_delivery
      (releases.filter (fun r => should_deliver_cached r exclude_updated seen))

/-! ## Into the outbox -/

/-- Insert, or see what stands there: a row in flight is left to the flush, a sent one is
reopened when the content differs, a dead one stays dead. -/
def try_enqueue_notification (event : Event) (identity : String) (om : OutboxMeta) :
    Work (Option EnqueueOutcome) := do
  let now ← perform .utc_now
  let deliver_now := om.deliver_after.all (fun t => t ≤ now)
  let inserted ← perform (.insert_outbox event identity om)
  match inserted with
  | some id => return some ⟨id, deliver_now, true⟩
  | none =>
    let existing ← perform (.select_outbox event.source_id identity)
    match existing with
    | none => return none
    | some (id, .pending, _) => return some ⟨id, false, false⟩
    | some (id, .failed, _) => return some ⟨id, false, false⟩
    | some (_, .dead, _) => return none
    | some (id, .sent, stored_digest) =>
      if stored_digest = om.content_digest then return none
      else
        let updated ← perform (.reopen_outbox event om id)
        return if updated then some ⟨id, deliver_now, true⟩ else none

/-- The moment until which a notification is held back. -/
def deliver_after_of (watch : Watch) : Work (Option DateTime) :=
  match watch.notify_schedule with
  | none => return none
  | some next_after => do
    let now ← perform .utc_now
    return next_after now

def context_of (watch : Watch) (release : Release) : DeliveryContext where
  event := event_of watch release
  source_id := watch.provider.id
  kind := watch.provider.kind
  package_name := watch.provider.display_name
  seen := baseline_item release

def meta_of (release : Release) (deliver_after : Option DateTime) : OutboxMeta where
  content_digest := some release.content_fingerprint
  display_tag := display_tag_of release
  published_at := release.published_at
  deliver_after := deliver_after

/-- Lease the row and deliver it, unless the flush is to do it. Says whether it was delivered. -/
def deliver_inline (watch : Watch) (release : Release) (enqueued : EnqueueOutcome) :
    Work Bool := do
  if !enqueued.deliver_now then return false
  else
    let claimed ← perform (.claim_outbox_row enqueued.id OUTBOX_LEASE_SECS)
    if !claimed then return false
    else attempt_notification_delivery enqueued.id 0 (context_of watch release)

/-- One deliverable release: into the outbox, into the catalogue, and out to the sinks. -/
def deliver_release (watch : Watch) (release : Release) : Work Bool := do
  let deliver_after ← deliver_after_of watch
  let enqueued ← try_enqueue_notification (event_of watch release) release.id
    (meta_of release deliver_after)
  match enqueued with
  | none => return false
  | some enqueued =>
    perform (.record_seen watch.provider.id (baseline_item release))
    deliver_inline watch release enqueued

/-- `deliver_release` once it is known how long its row waits. -/
def deliver_deferred (watch : Watch) (release : Release) (deliver_after : Option DateTime) :
    Work Bool := do
  let enqueued ← try_enqueue_notification (event_of watch release) release.id
    (meta_of release deliver_after)
  match enqueued with
  | none => return false
  | some enqueued =>
    perform (.record_seen watch.provider.id (baseline_item release))
    deliver_inline watch release enqueued

theorem deliver_release_eq (watch : Watch) (release : Release) :
    deliver_release watch release =
      (deliver_after_of watch).bind (deliver_deferred watch release) :=
  rfl

/-- One after another; the first failure ends it. -/
def deliver_each (watch : Watch) : List Release → Nat → Work Nat
  | [], sent => return sent
  | release :: rest, sent => do
    let delivered ← deliver_release watch release
    deliver_each watch rest (if delivered then sent + 1 else sent)

/-- Process already-fetched releases: filter, diff, notify through the outbox. -/
def deliver_new_releases (watch : Watch) (releases : List Release) : Work Nat := do
  let source_id := watch.provider.id
  let filtered := releases.filter watch.filter.accepts
  note_latest source_id filtered
  perform (.enrich_seen_metadata source_id filtered)
  let deliverable ← select_for_delivery source_id filtered watch.filter.exclude_updated
  deliver_each watch deliverable 0

/-! ## The poll -/

/-- Store the ETag of an answer that has one. -/
def store_etag (source_id : String) : Option String → Work Unit
  | some etag => perform (.set_etag source_id (some etag))
  | none => return ()

/-- Fetch again without the ETag and merge dates and links into what is already seen. -/
def refresh_seen_metadata (watch : Watch) : Work Unit := do
  let source_id := watch.provider.id
  let outcome ← perform (.fetch none)
  if outcome.not_modified then return ()
  else
    perform (.enrich_seen_metadata source_id (outcome.releases.filter watch.filter.accepts))
    store_etag source_id outcome.etag

def backfill_latest_release_tag_if_missing (source_id : String) : Work Unit := do
  let row ← perform (.source_state_row source_id)
  if row.latest_release_tag.isSome then return ()
  else
    let best ← perform (.best_seen_identity source_id)
    match best with
    | some tag => perform (.set_latest_release_tag source_id tag)
    | none => return ()

/-- The ETag to send along; a forced poll sends none. -/
def stored_etag (source_id : String) (force_fetch : Bool) : Work (Option String) :=
  if force_fetch then return none else perform (.get_etag source_id)

/-- A failed fetch still counts as a poll of the source; then it fails the poll. -/
def fetch_or_touch (source_id : String) (etag : Option String) : Work FetchOutcome := do
  let fetched ← caught (perform (.fetch etag))
  match fetched with
  | .ok outcome => return outcome
  | .error err =>
    let _ ← caught (perform (.touch_polled source_id))
    fail err

/-- A poll that was not forced refreshes what lacks a date. -/
def refresh_if_missing (watch : Watch) (force_fetch : Bool) : Work Unit :=
  if force_fetch then return ()
  else do
    let missing ← perform (.has_seen_missing_published_at watch.provider.id)
    if missing then refresh_seen_metadata watch else return ()

/-- The 304 path. -/
def poll_not_modified (watch : Watch) (force_fetch : Bool) : Work Unit := do
  refresh_if_missing watch force_fetch
  backfill_latest_release_tag_if_missing watch.provider.id

/-- Poll one source once and deliver notifications for any new releases. -/
def poll_once_inner (watch : Watch) (force_fetch : Bool) : Work Nat := do
  let source_id := watch.provider.id
  let etag ← stored_etag source_id force_fetch
  let outcome ← fetch_or_touch source_id etag
  perform (.touch_polled source_id)
  if outcome.not_modified then
    poll_not_modified watch force_fetch
    return 0
  else
    store_etag source_id outcome.etag
    deliver_new_releases watch outcome.releases

/-! ## The push path -/

/-- Deliver one pushed release to every matched watch; the first failure ends it. -/
def process_pushed_release (release : Release) : List Watch → Nat → Work Nat
  | [], sent => return sent
  | watch :: rest, sent => do
    let n ← deliver_new_releases watch [release]
    process_pushed_release release rest (sent + n)

/-! ## What runs in one process -/

/-- What a worker of the engine may be doing. -/
inductive Job where
  | poll (watch : Watch) (force_fetch : Bool)
  | push (watches : List Watch) (release : Release)
  | flush (limit : Nat)
  | sweep
  | requeue
  | idle

def Job.work : Job → Work Unit
  | .poll watch force_fetch => do
    let _ ← poll_once_inner watch force_fetch
    return ()
  | .push watches release => do
    let _ ← process_pushed_release release watches 0
    return ()
  | .flush limit => do
    let _ ← flush_notification_outbox limit
    return ()
  | .sweep => reconcile_exhausted_outbox
  | .requeue => requeue_dead
  | .idle => return ()

/-- An engine whose workers are about to start on their jobs. -/
def starting (jobs : Nat → Job) (s : World) : Workers where
  state := s
  worker := fun w => (jobs w).work

end xrelease.pipeline
