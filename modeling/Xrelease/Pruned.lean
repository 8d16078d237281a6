-- Retention (`prune` in `store/postgres/mod.rs`): rows of what was seen and of what was sent are
-- deleted by age. A poll after it notifies of nothing exactly as long as, for each release of its
-- list, what is left of the two still tells that it is known.
import Xrelease.Repeat

namespace xrelease.pruned

open xrelease.model xrelease.store xrelease.engine xrelease.outbox xrelease.pipeline
open xrelease.recorded xrelease.polled xrelease.etag xrelease.repeated keyed calls calls.Prog
open calls.Terms

/-! ## Retention -/

/-- The ages in days of `[database].prune_*`; 0 keeps a table as it is. -/
structure Retention where
  seen_after_days : Nat
  webhooks_after_days : Nat
  outbox_sent_after_days : Nat
deriving DecidableEq

/-- A statement: the database's `now()` in it, and whether it fails. -/
structure Statement where
  now : DateTime
  fails : Option String := none
deriving DecidableEq

/-- The statements of one prune on the tables that a poll reads, and the one between them. -/
structure PruneRun where
  seen : Statement
  webhooks : Statement
  outbox : Statement
deriving DecidableEq

structure PruneReport where
  seen_deleted : Nat
  outbox_deleted : Nat
deriving DecidableEq

def MAX_DAYS : Nat := 2147483647

def DAY : Int := 86400000000

/-- The oldest moment that the database can tell. -/
def MIN_TIMESTAMP : Int := -210866803200000000

/-- `now() - make_interval(days => …)`, where it is in range. -/
def cutoff (now : DateTime) (days : Nat) : Option DateTime :=
  let t : Int := now - ((min days MAX_DAYS : Nat) : Int) * DAY
  if t < MIN_TIMESTAMP then none else some t

/-- A moment before the cutoff. -/
def aged (now : DateTime) (days : Nat) (t : DateTime) : Bool :=
  (cutoff now days).any (fun c => t < c)

/-- Sent, and before the cutoff. -/
def outdated (now : DateTime) (days : Nat) (r : OutboxRow) : Bool :=
  r.status = .sent && r.sent_at.any (aged now days)

def delete_seen (db : Db) (now : DateTime) (days : Nat) : Db :=
  { db with seen_release := db.seen_release.keep (fun _ r => !aged now days r.first_seen_at) }

/-- The ledger rows go with their parent rows. -/
def delete_sent (db : Db) (now : DateTime) (days : Nat) : Db :=
  let kept := db.notification_outbox.keep (fun _ r => !outdated now days r)
  { db with
    notification_outbox := kept
    notification_sink_delivery :=
      db.notification_sink_delivery.keep (fun k _ => (kept.get k.1).isSome) }

/-- What a statement comes to: a retention of 0 skips it. -/
def execute (st : Statement) (days : Nat) : Except String Bool :=
  if days = 0 then .ok false
  else
    match st.fails with
    | some err => .error err
    | none => if (cutoff st.now days).isNone then .error "timestamp out of range" else .ok true

def deleted {κ ρ : Type} (before after : Table κ ρ) : Nat := before.rows.length - after.rows.length

/-- The first statement that fails ends it; what was deleted before stays deleted. -/
def prune (run : PruneRun) (retention : Retention) (db : Db) : Except String PruneReport × Db :=
  match execute run.seen retention.seen_after_days with
  | .error err => (.error err, db)
  | .ok seen =>
    let db₁ := if seen then delete_seen db run.seen.now retention.seen_after_days else db
    match execute run.webhooks retention.webhooks_after_days with
    | .error err => (.error err, db₁)
    | .ok _ =>
      match execute run.outbox retention.outbox_sent_after_days with
      | .error err => (.error err, db₁)
      | .ok outbox =>
        let db₂ :=
          if outbox then delete_sent db₁ run.outbox.now retention.outbox_sent_after_days else db₁
        (.ok ⟨deleted db.seen_release db₂.seen_release,
          deleted db.notification_outbox.table db₂.notification_outbox.table⟩, db₂)

/-! ## What goes and what stays -/

def completes (st : Statement) (days : Nat) : Bool := (execute st days).toBool

def deletes (st : Statement) (days : Nat) : Bool := execute st days matches .ok true

/-- The row of what was seen is deleted. -/
def seen_goes (run : PruneRun) (retention : Retention) (k : SeenRow) : Bool :=
  deletes run.seen retention.seen_after_days &&
    aged run.seen.now retention.seen_after_days k.first_seen_at

/-- The row of what was sent is deleted. -/
def row_goes (run : PruneRun) (retention : Retention) (r : OutboxRow) : Bool :=
  completes run.seen retention.seen_after_days &&
    completes run.webhooks retention.webhooks_after_days &&
    deletes run.outbox retention.outbox_sent_after_days &&
    outdated run.outbox.now retention.outbox_sent_after_days r

theorem seen_delete_seen (db : Db) (now : DateTime) (days : Nat) (a x : String) :
    (delete_seen db now days).seen a x =
      (db.seen a x).filter (fun k => !aged now days k.first_seen_at) :=
  Table.get_keep _ _ _

theorem parent_delete_sent (db : Db) (now : DateTime) (days id : Nat) :
    (delete_sent db now days).parent id =
      (db.parent id).filter (fun r => !outdated now days r) :=
  Table.get_keep _ _ _

theorem filter_true {α : Type} (x : Option α) : x.filter (fun _ => true) = x := by
  cases x <;> rfl

variable {run : PruneRun} {retention : Retention} {db : Db}

theorem seen_prune (a x : String) :
    (prune run retention db).2.seen a x =
      (db.seen a x).filter (fun k => !seen_goes run retention k) := by
  unfold prune seen_goes deletes
  cases execute run.seen retention.seen_after_days with
  | error err => simp [filter_true]
  | ok seen =>
    have hseen : (if seen then delete_seen db run.seen.now retention.seen_after_days
        else db).seen a x = (db.seen a x).filter (fun k => !(seen &&
          aged run.seen.now retention.seen_after_days k.first_seen_at)) := by
      cases seen with
      | false => simp [filter_true]
      | true => simpa using seen_delete_seen db _ _ a x
    cases seen <;> cases execute run.webhooks retention.webhooks_after_days <;>
      cases execute run.outbox retention.outbox_sent_after_days <;> dsimp only <;>
      first
        | exact hseen
        | (split <;> exact hseen)

theorem parent_prune (id : Nat) :
    (prune run retention db).2.parent id =
      (db.parent id).filter (fun r => !row_goes run retention r) := by
  unfold prune row_goes completes deletes
  cases execute run.seen retention.seen_after_days with
  | error err => simp [filter_true, Except.toBool]
  | ok seen =>
    have hparent : (if seen then delete_seen db run.seen.now retention.seen_after_days
        else db).parent id = db.parent id := by
      cases seen <;> rfl
    cases execute run.webhooks retention.webhooks_after_days with
    | error err => simpa [filter_true, Except.toBool] using hparent
    | ok done =>
      cases execute run.outbox retention.outbox_sent_after_days with
      | error err => simpa [filter_true, Except.toBool] using hparent
      | ok outbox =>
        cases outbox with
        | false => simpa [filter_true, Except.toBool] using hparent
        | true =>
          have hsent := parent_delete_sent (if seen then
            delete_seen db run.seen.now retention.seen_after_days else db) run.outbox.now
            retention.outbox_sent_after_days id
          rw [hparent] at hsent
          simpa [Except.toBool] using hsent

theorem state_prune : (prune run retention db).2.source_state = db.source_state := by
  unfold prune
  cases execute run.seen retention.seen_after_days with
  | error err => rfl
  | ok seen =>
    cases execute run.webhooks retention.webhooks_after_days with
    | error err => cases seen <;> rfl
    | ok done =>
      cases execute run.outbox retention.outbox_sent_after_days with
      | error err => cases seen <;> rfl
      | ok outbox => cases seen <;> cases outbox <;> rfl

/-- One row for a release, as before. -/
theorem oneRow_prune (h : OneRow db) : OneRow (prune run retention db).2 := by
  intro i j r r' hr hr'
  rw [parent_prune, Option.filter_eq_some_iff] at hr hr'
  exact h i j r r' hr.1 hr'.1

/-! ## The law -/

/-- A world after a prune. -/
def after_prune (run : PruneRun) (retention : Retention) (s : World) : World :=
  { s with db := (prune run retention s.db).2 }

/-- No poll of the list puts anything into the outbox, whatever the store and the sinks answer. -/
def StaysQuiet (watch : Watch) (releases : List Release) (s : World) : Prop :=
  ∀ (w : Nat) (force_fetch : Bool) (os : Nat → Oracle), Lists releases os →
    (poll w watch force_fetch os s).2.1.book.notes.filter is_enqueued =
      s.book.notes.filter is_enqueued

/-- The row of what was seen stays and has the content, or updates are ignored; or the row of the
outbox stays, and it is not sent or has the content. -/
def Remembered (run : PruneRun) (retention : Retention) (watch : Watch) (db : Db)
    (r : Release) : Prop :=
  (∃ k, db.seen watch.provider.id r.id = some k ∧ seen_goes run retention k = false ∧
      (watch.filter.exclude_updated = true ∨ k.content_digest = some r.content_fingerprint)) ∨
    ∃ j row, db.parent j = some row ∧ row.source_id = watch.provider.id ∧ row.identity = r.id ∧
      row_goes run retention row = false ∧
      (row.status ≠ .sent ∨ row.content_digest = some r.content_fingerprint)

theorem undeliverable_iff {watch : Watch} {r : Release} (db : Db) :
    should_deliver_cached r watch.filter.exclude_updated
        (load_seen_index db watch.provider.id) = false ↔
      ∃ k, db.seen watch.provider.id r.id = some k ∧
        (watch.filter.exclude_updated = true ∨
          k.content_digest = some r.content_fingerprint) := by
  unfold should_deliver_cached load_seen_index
  cases db.seen watch.provider.id r.id with
  | none => simp
  | some k => cases watch.filter.exclude_updated <;> simp

theorem remembered_iff {watch : Watch} {r : Release} :
    Remembered run retention watch db r ↔
      should_deliver_cached r watch.filter.exclude_updated
          (load_seen_index (prune run retention db).2 watch.provider.id) = false ∨
        Blocked (prune run retention db).2 watch.provider.id r.id r.content_fingerprint := by
  rw [undeliverable_iff]
  unfold Remembered Blocked
  simp only [seen_prune, parent_prune, Option.filter_eq_some_iff, Bool.not_eq_true',
    and_assoc]
  apply or_congr Iff.rfl
  constructor
  · rintro ⟨j, row, hrow, hsrc, hid, hstays, hrest⟩
    exact ⟨j, row, hrow, hstays, hsrc, hid, hrest⟩
  · rintro ⟨j, row, hrow, hstays, hsrc, hid, hrest⟩
    exact ⟨j, row, hrow, hsrc, hid, hstays, hrest⟩

/-- What a poll of the list finds, before and after it looks at the list. -/
theorem stays_quiet {watch : Watch} {releases : List Release} {s : World} (hone : OneRow s.db)
    (h : is_initialized s.db watch.provider.id = true →
      ∀ r ∈ deliverable watch ⟨false, none, releases⟩ s.db,
        Blocked s.db watch.provider.id r.id r.content_fingerprint) :
    StaysQuiet watch releases s := by
  intro w force_fetch os hos
  rcases poll_list hos w watch force_fetch s with ⟨e, -, hh, -⟩ | ⟨k, s₁, hq, hh, heq⟩
  · exact hh.silent.enqueued
  · rw [heq]
    have hsafe : (by_itself False).Safe machine w (fun _ s' => Hushed s₁ s')
        (deliver_new_releases watch releases) s₁ := by
      refine safe_blocked ⟨false, none, releases⟩ (hh.oneRow hone) ?_
      intro hinit r hr
      exact hh.blocked (h (hq.contact.symm.trans hinit) r (hq.deliverable.mp hr))
    exact (hh.trans (alone_by_itself _ (fun h => absurd h id) hsafe)).silent.enqueued

theorem blocked_of_quiet {watch : Watch} {releases : List Release} {s : World}
    (hone : OneRow s.db) (h : StaysQuiet watch releases s)
    (hknown : is_initialized s.db watch.provider.id = true) :
    ∀ r ∈ deliverable watch ⟨false, none, releases⟩ s.db,
      Blocked s.db watch.provider.id r.id r.content_fingerprint := by
  intro r hr
  by_contra hnot
  let os : Nat → Oracle := fun _ => { fetch := .ok ⟨false, none, releases⟩ }
  have hos : Lists releases os := fun _ => ⟨none, rfl⟩
  have hquiet := h 0 false os hos
  rcases poll_list hos 0 watch false s with ⟨_, _, _, n, hn⟩ | ⟨k, s₁, hq, hh, heq⟩
  · exact hn rfl
  · have hfree : ¬ Blocked s₁.db watch.provider.id r.id r.content_fingerprint := by
      rintro ⟨j, row, hrow, hrest⟩
      exact hnot ⟨j, row, (hh.rows j).symm.trans hrow, hrest⟩
    have hloud := alone_by_itself (fun n => os (n + k)) (fun _ _ => rfl)
      (safe_loud (w := 0) (hh.oneRow hone) (hq.contact.trans hknown) (hq.deliverable.mpr hr) hfree)
    rw [← heq] at hloud
    unfold Loud at hloud
    rw [hquiet, hh.silent.enqueued] at hloud
    exact absurd hloud (lt_irrefl _)

/-- After a prune, the polls of a list put nothing into the outbox exactly where the source is new
or every accepted release of the list is still remembered. -/
theorem pruning_is_quiet_iff {s : World} (hone : OneRow s.db) (run : PruneRun)
    (retention : Retention) (watch : Watch) (releases : List Release) :
    StaysQuiet watch releases (after_prune run retention s) ↔
      (is_initialized s.db watch.provider.id = true →
        ∀ r ∈ releases.filter watch.filter.accepts, Remembered run retention watch s.db r) := by
  have hone' : OneRow (after_prune run retention s).db := oneRow_prune hone
  have hinit : is_initialized (after_prune run retention s).db watch.provider.id =
      is_initialized s.db watch.provider.id := by
    unfold is_initialized after_prune
    rw [state_prune]
  constructor
  · intro h hknown r hr
    rw [remembered_iff]
    cases hshould : should_deliver_cached r watch.filter.exclude_updated
        (load_seen_index (prune run retention s.db).2 watch.provider.id) with
    | false => exact Or.inl rfl
    | true =>
      refine Or.inr (blocked_of_quiet hone' h (hinit.trans hknown) r ?_)
      exact mem_deliverable.mpr ⟨hr, hshould⟩
  · intro h
    refine stays_quiet hone' ?_
    intro hknown r hr
    obtain ⟨hr, hshould⟩ := mem_deliverable.mp hr
    rcases remembered_iff.mp (h (hinit.symm.trans hknown) r hr) with hseen | hblocked
    · exact absurd (hshould.symm.trans hseen) (by simp)
    · exact hblocked

/-! ## A tag that stays in the list for a year -/

def old_tag : List Release := [Release.new "v1"]

def upstream : Nat → Oracle := fun _ => { fetch := .ok ⟨false, none, old_tag⟩ }

/-- The tag is baselined by the first poll of the source. -/
def baselined : World :=
  (poll 0 delivered.watch false upstream (World.start Db.empty 0 [delivered.hook])).2.1

def a_year : Retention := ⟨365, 30, 90⟩

/-- A prune so many days after the first contact. -/
def prune_on (day : Nat) : PruneRun :=
  let now : Int := (day : Int) * DAY
  ⟨⟨now, none⟩, ⟨now, none⟩, ⟨now, none⟩⟩

/-- The tag was seen with its content, the prune forgets it, and the next poll notifies of it. -/
theorem an_old_tag_is_notified_again :
    (baselined.db.seen "github:o/r" "v1").map (·.content_digest) =
        some (some (Release.new "v1").content_fingerprint) ∧
      baselined.book.notes.filter is_enqueued = [] ∧
      (prune (prune_on 366) a_year baselined.db).1 = .ok ⟨1, 0⟩ ∧
      ¬ StaysQuiet delivered.watch old_tag (after_prune (prune_on 366) a_year baselined) := by
  refine ⟨by decide +kernel, by decide +kernel, by decide +kernel, ?_⟩
  intro h
  have hquiet := h 0 false upstream (fun _ => ⟨none, rfl⟩)
  exact absurd hquiet (by decide +kernel)

/-- A day before, it is still remembered. -/
theorem pruning_is_quiet_here :
    StaysQuiet delivered.watch old_tag (after_prune (prune_on 364) a_year baselined) := by
  have hstart : OneRow (World.start Db.empty 0 [delivered.hook]).db := by
    intro i j r r' hr
    exact absurd hr (by simp [World.start, Db.parent, Db.empty, Serial.get, Serial.empty])
  have hone : OneRow baselined.db :=
    alone_inv (fun (t : World) => OneRow t.db) (fun _ _ _ h => oneRow_exec h) _ hstart
  refine (pruning_is_quiet_iff hone (prune_on 364) a_year delivered.watch old_tag).mpr ?_
  intro _ r hr
  obtain rfl := List.mem_singleton.mp (List.mem_filter.mp hr).1
  have hseen : (baselined.db.seen "github:o/r" "v1").any (fun k =>
      !seen_goes (prune_on 364) a_year k &&
        k.content_digest = some (Release.new "v1").content_fingerprint) = true := by
    decide +kernel
  obtain ⟨k, hk, hstays⟩ := (Option.any_eq_true _ _).mp hseen
  rw [Bool.and_eq_true, Bool.not_eq_true', decide_eq_true_eq] at hstays
  exact Or.inl ⟨k, hk, hstays.1, Or.inr hstays.2⟩

end xrelease.pruned
