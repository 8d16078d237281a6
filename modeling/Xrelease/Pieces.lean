-- What holds of whole programs of the pipeline (`pipeline/poll.rs`): what passes on to what is put
-- together holds of a poll, a push and a delivery once it holds of the calls that they make.
import Xrelease.Poll

namespace xrelease.pieces

open xrelease.model xrelease.store xrelease.engine xrelease.outbox xrelease.pipeline
open calls calls.Prog

/-! ## Calls -/

/-- The calls that put a release into the outbox. -/
def offers {γ : Type} (op : Call γ) : Prop :=
  match op with
  | .utc_now | .insert_outbox _ _ _ | .select_outbox _ _ | .reopen_outbox _ _ _ => True
  | _ => False

/-- The calls that compare a list with what was seen, or take it as the baseline. -/
def selects {γ : Type} (op : Call γ) : Prop :=
  match op with
  | .enrich_seen_metadata _ _ | .is_initialized _ | .record_seen_batch _ _
  | .load_seen_index _ => True
  | _ => False

/-- The calls that fetch a list, and fill up what was seen without notifying. -/
def fetches {γ : Type} (op : Call γ) : Prop :=
  match op with
  | .get_etag _ | .fetch _ | .touch_polled _ | .set_etag _ _ | .enrich_seen_metadata _ _
  | .has_seen_missing_published_at _ => True
  | _ => False

/-- The calls that look for the newest tag of a source and note it. -/
def backfills {γ : Type} (op : Call γ) : Prop :=
  match op with
  | .source_state_row _ | .best_seen_identity _ | .set_latest_release_tag _ _ => True
  | _ => False

/-- The calls of a poll up to the releases that it delivers. -/
def polls {γ : Type} (op : Call γ) : Prop := selects op ∨ fetches op ∨ backfills op

/-- The calls that write down what became of the sinks of a row. -/
def attends (id : Nat) {γ : Type} (op : Call γ) : Prop :=
  match op with
  | .notifier_snapshot | .breaker_allows _ => True
  | .ensure_sink_deliveries j _ | .list_pending_sink_indices j | .complete_sink_delivery j _
  | .fail_sink_delivery j _ _ | .abandon_retryable_sinks j _ _ | .sinks_delivery_complete j =>
    j = id
  | _ => False

/-- The calls that set the status of a row, and tell of one that is dead. -/
def closes (id : Nat) {γ : Type} (op : Call γ) : Prop :=
  match op with
  | .emit_ops_alert _ _ => True
  | .count_sinks j | .mark_outbox_dead j | .mark_outbox_failed j | .fail_notification j _ => j = id
  | _ => False

variable {keeps : {α : Type} → Work α → Prop} {fit : {γ : Type} → Call γ → Prop}

/-! ## A delivery -/

/-- What a delivery does with its row, the sends apart. -/
structure Settles (keeps : {α : Type} → Work α → Prop) (fit : {γ : Type} → Call γ → Prop)
    (id : Nat) (source_id : String) (seen : SeenUpsert) : Prop where
  attends : ∀ {γ : Type} (op : Call γ), attends id op → fit op
  fails : ∀ error, keeps (fail_outbox_row_alert id source_id error)
  syncs : keeps (sync_outbox_status_alert id source_id)
  completes : keeps (complete_or_failed id source_id seen)

section Delivery

variable (h : Sequential keeps fit) {id : Nat} {source_id : String} {seen : SeenUpsert}
  {n : Notifier} {rows : List Nat} {event : Event} {group : List OutboxRecord}

include h

theorem settles_of_calls (hattends : ∀ {γ : Type} (op : Call γ), attends id op → fit op)
    (hcloses : ∀ {γ : Type} (op : Call γ), closes id op → fit op)
    (hcompletes : fit (Call.complete_notification id source_id seen)) :
    Settles keeps fit id source_id seen := by
  have halert : ∀ dead : Bool, keeps
      (if dead then emit_dead_outbox_alert id source_id else done () : Work Unit) := by
    intro dead
    cases dead with
    | false => exact h.done ()
    | true => exact h.call (hcloses _ trivial)
  refine ⟨hattends, fun error => h.bind (h.call (hcloses _ rfl)) halert,
    h.bind (h.bind (h.call (hcloses _ rfl)) (fun c => ?_)) halert,
    h.bind (h.call hcompletes) (fun completed => h.done _)⟩
  split
  · exact h.done false
  · split
    · exact h.call (hcloses _ rfl)
    · exact h.bind (h.call (hcloses _ rfl)) (fun _ => h.done false)

theorem keeps_breaker_alerts (hdrains : fit Call.drain_newly_opened_breakers)
    (htells : ∀ title body, fit (Call.emit_ops_alert title body)) : keeps emit_breaker_alerts := by
  refine h.bind (h.call hdrains) (fun labels => ?_)
  induction labels with
  | nil => exact h.done ()
  | cons label rest ih => exact h.bind (h.call (htells _ _)) (fun _ => ih)

theorem keeps_round (hallows : ∀ index, fit (Call.breaker_allows index))
    (hnotify : ∀ index sink, keeps (perform (.notify rows index sink event)))
    (indices : List Nat) : keeps ( notify_partial n rows event indices) := by
  induction indices with
  | nil => exact h.done []
  | cons index rest ih =>
    refine h.bind ?_ (fun result => h.bind ih (fun results => h.done _))
    unfold notify_at
    split
    · exact h.done _
    · split
      · exact h.done _
      · refine h.bind (h.call (hallows index)) (fun allowed => ?_)
        split
        · exact h.done _
        · exact hnotify _ _

section

variable (hs : Settles keeps fit id source_id seen)

include hs

theorem keeps_record_results (results : List (Nat × Except NotifyError Unit)) (t : Tally) :
    keeps (record_results id results t) := by
  induction results generalizing t with
  | nil => exact h.done t
  | cons head rest ih =>
    refine h.bind ?_ (fun t => ih t)
    unfold record_result
    split
    · exact h.bind (h.call (hs.attends _ rfl)) (fun _ => h.done t)
    · exact h.done _
    · exact h.bind (h.call (hs.attends _ rfl)) (fun _ => h.done _)

theorem keeps_abandon_orphans (orphans : List Nat) :
    keeps (abandon_orphans id event orphans) := by
  unfold abandon_orphans
  split
  · exact h.done ()
  · exact h.bind (h.call (hs.attends _ rfl)) (fun _ => h.done ())

/-- The row is complete or not, and goes on as it is. -/
theorem keeps_settle {no : Work DeliveryAttempt}
    (hno : keeps no) :
    keeps ((perform (.sinks_delivery_complete id)).bind
      (fun complete => if complete then complete_or_failed id source_id seen else no)) := by
  refine h.bind (h.call (hs.attends _ rfl)) (fun complete => ?_)
  split
  · exact hs.completes
  · exact hno

theorem keeps_send_pending (hround : ∀ indices, keeps ( notify_partial n [id] event indices))
    (halerts : keeps emit_breaker_alerts) (pending : List Nat) :
    keeps (send_pending n id event source_id seen pending) := by
  refine h.bind (hround pending) (fun results => h.bind halerts (fun _ => ?_))
  refine h.bind (keeps_record_results h hs results _) (fun t => h.bind hs.syncs (fun _ => ?_))
  split
  · exact h.done _
  · exact keeps_settle h hs (h.done _)

theorem keeps_deliver (hround : ∀ n indices, keeps ( notify_partial n [id] event indices))
    (halerts : keeps emit_breaker_alerts) :
    keeps (deliver_to_pending_sinks id event source_id seen) := by
  refine h.bind (h.call (hs.attends _ trivial)) (fun n => ?_)
  dsimp only
  split
  · exact h.bind (hs.fails _) (fun _ => h.done _)
  · refine h.bind (h.call (hs.attends _ rfl)) (fun _ => ?_)
    refine h.bind (h.call (hs.attends _ rfl)) (fun pending => ?_)
    split
    · exact keeps_settle h hs (h.bind hs.syncs (fun _ => h.done _))
    · split
      · refine h.bind (h.call (hs.attends _ rfl)) (fun _ => h.bind (hs.fails _) (fun _ => ?_))
        exact h.bind hs.syncs (fun _ => h.done _)
      · exact h.bind (keeps_abandon_orphans h hs _)
          (fun _ => keeps_send_pending h hs (hround n) halerts _)

end

/-- What a digest does with each of its rows, the sends apart. -/
abbrev SettlesRow (keeps : {α : Type} → Work α → Prop) (fit : {γ : Type} → Call γ → Prop)
    (row : OutboxRecord) : Prop :=
  Settles keeps fit row.id row.source_id (seen_upsert_for row)

section

variable (hs : ∀ row ∈ group, SettlesRow keeps fit row)

include hs

theorem keeps_fail_group :
    keeps (fail_group event group) := by
  induction group with
  | nil => exact h.done ()
  | cons row rest ih =>
    obtain ⟨hrow, hrest⟩ := List.forall_mem_cons.mp hs
    exact h.bind (hrow.fails _) (fun _ => ih hrest)

theorem keeps_ensure_group (sinks : List (Nat × String)) : keeps (ensure_group sinks group) := by
  induction group with
  | nil => exact h.done ()
  | cons row rest ih =>
    obtain ⟨hrow, hrest⟩ := List.forall_mem_cons.mp hs
    exact h.bind (h.call (hrow.attends _ rfl)) (fun _ => ih hrest)

theorem keeps_pending_of_group
    (matching : List Nat) : keeps (pending_of_group event matching group) := by
  induction group with
  | nil => exact h.done []
  | cons row rest ih =>
    obtain ⟨hrow, hrest⟩ := List.forall_mem_cons.mp hs
    refine h.bind (h.call (hrow.attends _ rfl)) (fun raw_pending => ?_)
    refine h.bind (keeps_abandon_orphans h hrow _) (fun _ => ?_)
    exact h.bind (ih hrest) (fun _ => h.done _)

theorem keeps_settle_group :
    keeps (settle_group group) := by
  induction group with
  | nil => exact h.done []
  | cons row rest ih =>
    obtain ⟨hrow, hrest⟩ := List.forall_mem_cons.mp hs
    refine h.bind ?_ (fun outcome => h.bind (ih hrest) (fun _ => h.done _))
    exact keeps_settle h hrow (h.bind hrow.syncs (fun _ => h.done _))

end

theorem keeps_settle_digest (results : List (Nat × Except NotifyError Unit))
    {pairs : List (OutboxRecord × List Nat)} (hs : ∀ pair ∈ pairs, SettlesRow keeps fit pair.1) :
    keeps (settle_digest results pairs) := by
  induction pairs with
  | nil => exact h.done []
  | cons pair rest ih =>
    obtain ⟨hrow, hrest⟩ := List.forall_mem_cons.mp hs
    refine h.bind ?_ (fun outcome => h.bind (ih hrest) (fun _ => h.done _))
    refine h.bind (keeps_record_results h hrow _ _) (fun t => h.bind hrow.syncs (fun _ => ?_))
    refine keeps_settle h hrow ?_
    split
    · exact h.done _
    · exact h.done _

theorem keeps_deliver_digest (hsnapshot : fit Call.notifier_snapshot)
    (hs : ∀ row ∈ group, SettlesRow keeps fit row)
    (hround : ∀ n indices, keeps ( notify_partial n (group.map (·.id)) event indices))
    (halerts : keeps emit_breaker_alerts) :
    keeps (deliver_digest_to_pending_sinks event group) := by
  refine h.bind (h.call hsnapshot) (fun n => ?_)
  dsimp only
  split
  · exact h.bind (keeps_fail_group h hs) (fun _ => h.done _)
  · refine h.bind (keeps_ensure_group h hs _) (fun _ => ?_)
    refine h.bind (keeps_pending_of_group h hs _) (fun row_pending => ?_)
    split
    · exact keeps_settle_group h hs
    · refine h.bind (hround n _) (fun results => h.bind halerts (fun _ => ?_))
      exact keeps_settle_digest h results (fun pair hp => hs _ (List.of_mem_zip hp).1)

theorem keeps_backoff_group {pairs : List (OutboxRecord × DeliveryAttempt)}
    (hbackoff : ∀ pair ∈ pairs, ∀ outcome,
      keeps (backoff_after pair.1.id pair.1.attempts outcome)) :
    keeps (backoff_group pairs) := by
  induction pairs with
  | nil => exact h.done []
  | cons pair rest ih =>
    obtain ⟨hrow, hrest⟩ := List.forall_mem_cons.mp hbackoff
    exact h.bind (hrow _) (fun _ => h.bind (ih hrest) (fun _ => h.done _))

end Delivery

variable (h : Compositional keeps fit)

include h

/-! ## A release -/

theorem keeps_try_enqueue (hoffers : ∀ {γ : Type} (op : Call γ), offers op → fit op) (event : Event)
    (identity : String) (om : OutboxMeta) : keeps (try_enqueue_notification event identity om) := by
  refine h.bind (h.call (hoffers _ trivial)) (fun now => ?_)
  refine h.bind (h.call (hoffers _ trivial)) (fun inserted => ?_)
  cases inserted with
  | some id => exact h.done _
  | none =>
    refine h.bind (h.call (hoffers _ trivial)) (fun existing => ?_)
    match existing with
    | none => exact h.done none
    | some (id, .pending, _) => exact h.done _
    | some (id, .failed, _) => exact h.done _
    | some (_, .dead, _) => exact h.done none
    | some (id, .sent, stored_digest) =>
      dsimp only
      split
      · exact h.done none
      · exact h.bind (h.call (hoffers _ trivial)) (fun updated => h.done _)

/-- A release is delivered in the way of the two calls that it makes beside those of the outbox. -/
theorem keeps_deliver_release (hoffers : ∀ {γ : Type} (op : Call γ), offers op → fit op)
    {watch : Watch} {release : Release}
    (hseen : fit (Call.record_seen watch.provider.id (baseline_item release)))
    (hinline : ∀ enqueued, keeps (deliver_inline watch release enqueued)) :
    keeps (deliver_release watch release) := by
  refine h.bind ?_ (fun deliver_after => ?_)
  · unfold deliver_after_of
    split
    · exact h.done none
    · exact h.bind (h.call (hoffers _ trivial)) (fun now => h.done _)
  · refine h.bind (keeps_try_enqueue h hoffers _ _ _) (fun enqueued => ?_)
    cases enqueued with
    | none => exact h.done false
    | some enqueued => exact h.bind (h.call hseen) (fun _ => hinline enqueued)

theorem keeps_deliver_each {watch : Watch}
    (hrelease : ∀ release, keeps (deliver_release watch release)) (releases : List Release)
    (sent : Nat) : keeps (deliver_each watch releases sent) := by
  induction releases generalizing sent with
  | nil => exact h.done sent
  | cons release rest ih => exact h.bind (hrelease release) (fun _ => ih _)

theorem keeps_note_latest {source_id : String} {releases : List Release}
    (hnote : ∀ latest, pick_latest releases = some latest →
      fit (Call.set_latest_release_tag source_id latest.raw_tag)) :
    keeps (note_latest source_id releases) := by
  unfold note_latest
  split
  · rename_i latest hlatest
    exact h.call (hnote latest hlatest)
  · exact h.done ()

/-- A list past the noting of its newest tag. -/
def after_note (watch : Watch) (filtered : List Release) : Work Nat :=
  (perform (.enrich_seen_metadata watch.provider.id filtered)).bind fun _ =>
    (select_for_delivery watch.provider.id filtered watch.filter.exclude_updated).bind
      fun deliverable => deliver_each watch deliverable 0

omit h in
theorem deliver_new_releases_eq (watch : Watch) (releases : List Release) :
    deliver_new_releases watch releases =
      (note_latest watch.provider.id (releases.filter watch.filter.accepts)).bind
        (fun _ => after_note watch (releases.filter watch.filter.accepts)) := rfl

theorem keeps_after_note (hselects : ∀ {γ : Type} (op : Call γ), selects op → fit op)
    {watch : Watch} (hrelease : ∀ release, keeps (deliver_release watch release))
    {filtered : List Release}
    (hnote : ∀ latest, pick_latest filtered = some latest →
      fit (Call.set_latest_release_tag watch.provider.id latest.raw_tag)) :
    keeps (after_note watch filtered) := by
  refine h.bind (h.call (hselects _ trivial)) (fun _ => ?_)
  refine h.bind (h.bind (h.call (hselects _ trivial)) (fun initialized => ?_))
    (fun deliverable => keeps_deliver_each h hrelease deliverable 0)
  split
  · refine h.bind (h.call (hselects _ trivial)) (fun _ => ?_)
    exact h.bind (keeps_note_latest h hnote) (fun _ => h.done [])
  · exact h.bind (h.call (hselects _ trivial)) (fun seen => h.done _)

/-! ## The fetch -/

section Fetch

variable (hfetches : ∀ {γ : Type} (op : Call γ), fetches op → fit op)

include hfetches

theorem keeps_store_etag (source_id : String) (etag : Option String) :
    keeps (store_etag source_id etag) := by
  cases etag with
  | none => exact h.done ()
  | some etag => exact h.call (hfetches _ trivial)

theorem keeps_stored_etag (source_id : String) (force_fetch : Bool) :
    keeps (stored_etag source_id force_fetch) := by
  cases force_fetch with
  | true => exact h.done none
  | false => exact h.call (hfetches _ trivial)

theorem keeps_fetch_or_touch (source_id : String) (etag : Option String) :
    keeps (fetch_or_touch source_id etag) := by
  refine h.bind (h.caught (h.call (hfetches _ trivial))) (fun fetched => ?_)
  cases fetched with
  | ok outcome => exact h.done outcome
  | error err => exact h.bind (h.caught (h.call (hfetches _ trivial))) (fun _ => h.fail err)

theorem keeps_refresh_if_missing (watch : Watch) (force_fetch : Bool) :
    keeps (refresh_if_missing watch force_fetch) := by
  cases force_fetch with
  | true => exact h.done ()
  | false =>
    refine h.bind (h.call (hfetches _ trivial)) (fun missing => ?_)
    cases missing with
    | false => exact h.done ()
    | true =>
      refine h.bind (h.call (hfetches _ trivial)) (fun outcome => ?_)
      split
      · exact h.done ()
      · exact h.bind (h.call (hfetches _ trivial)) (fun _ => keeps_store_etag h hfetches _ _)

theorem keeps_poll_not_modified
    (hbackfills : ∀ {γ : Type} (op : Call γ), backfills op → fit op) (watch : Watch)
    (force_fetch : Bool) : keeps (poll_not_modified watch force_fetch) := by
  refine h.bind (keeps_refresh_if_missing h hfetches watch force_fetch) (fun _ => ?_)
  refine h.bind (h.call (hbackfills _ trivial)) (fun row => ?_)
  split
  · exact h.done ()
  · refine h.bind (h.call (hbackfills _ trivial)) (fun best => ?_)
    cases best with
    | none => exact h.done ()
    | some tag => exact h.call (hbackfills _ trivial)

end Fetch

/-! ## Every job -/

theorem keeps_flush (hreads : fit Call.outbox_flush_concurrency)
    (hwaves : ∀ concurrency fuel left st, keeps (flush_waves concurrency fuel left st))
    (limit : Nat) : keeps (flush_notification_outbox limit) := by
  refine h.bind (h.call hreads) (fun concurrency => h.bind (hwaves _ _ _ _) (fun st => ?_))
  cases st.first_err with
  | some err => exact h.fail err
  | none => exact h.done st.sent

theorem keeps_reconcile (hmarks : fit Call.finalize_exhausted_outbox)
    (htells : ∀ title body, fit (Call.emit_ops_alert title body)) :
    keeps reconcile_exhausted_outbox := by
  refine h.bind (h.caught (h.call hmarks)) (fun result => ?_)
  cases result with
  | error e => exact h.done ()
  | ok marked =>
    dsimp only
    split
    · exact h.call (htells _ _)
    · exact h.done ()

variable (hpolls : ∀ {γ : Type} (op : Call γ), polls op → fit op)

include hpolls

theorem keeps_deliver_new_releases {watch : Watch}
    (hrelease : ∀ release, keeps (deliver_release watch release)) (releases : List Release) :
    keeps (deliver_new_releases watch releases) := by
  have hnote : ∀ tag, fit (Call.set_latest_release_tag watch.provider.id tag) :=
    fun tag => hpolls _ (Or.inr (Or.inr trivial))
  rw [deliver_new_releases_eq]
  exact h.bind (keeps_note_latest h (fun _ _ => hnote _)) (fun _ =>
    keeps_after_note h (fun op hop => hpolls op (Or.inl hop)) hrelease (fun _ _ => hnote _))

theorem keeps_poll {watch : Watch} (hrelease : ∀ release, keeps (deliver_release watch release))
    (force_fetch : Bool) : keeps (poll_once_inner watch force_fetch) := by
  have hfetches : ∀ {γ : Type} (op : Call γ), fetches op → fit op :=
    fun op hop => hpolls op (Or.inr (Or.inl hop))
  refine h.bind (keeps_stored_etag h hfetches _ _) (fun etag => ?_)
  refine h.bind (keeps_fetch_or_touch h hfetches _ _) (fun outcome => ?_)
  refine h.bind (h.call (hfetches _ trivial)) (fun _ => ?_)
  split
  · exact h.bind (keeps_poll_not_modified h hfetches
      (fun op hop => hpolls op (Or.inr (Or.inr hop))) watch force_fetch) (fun _ => h.done 0)
  · refine h.bind (keeps_store_etag h hfetches _ _) (fun _ => ?_)
    exact keeps_deliver_new_releases h hpolls hrelease _

theorem keeps_push (hrelease : ∀ watch release, keeps (deliver_release watch release))
    (release : Release) (watches : List Watch) (sent : Nat) :
    keeps (process_pushed_release release watches sent) := by
  induction watches generalizing sent with
  | nil => exact h.done sent
  | cons watch rest ih =>
    exact h.bind (keeps_deliver_new_releases h hpolls (hrelease watch) _) (fun _ => ih _)

theorem keeps_work (hrelease : ∀ watch release, keeps (deliver_release watch release))
    (hflush : ∀ limit, keeps (flush_notification_outbox limit))
    (hsweep : keeps reconcile_exhausted_outbox) (hrequeue : keeps requeue_dead) (job : Job) :
    keeps job.work := by
  cases job with
  | poll watch force_fetch =>
    exact h.bind (keeps_poll h hpolls (hrelease watch) force_fetch) (fun _ => h.done ())
  | push watches release =>
    exact h.bind (keeps_push h hpolls hrelease release watches 0) (fun _ => h.done ())
  | flush limit => exact h.bind (hflush limit) (fun _ => h.done ())
  | sweep => exact hsweep
  | requeue => exact hrequeue
  | idle => exact h.done ()

end xrelease.pieces
