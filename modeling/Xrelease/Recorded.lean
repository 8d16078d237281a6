-- What the store has on record of a release, as seen or in the outbox, and what one step of a
-- poll does to it: the release at hand is put on record with its content, and nothing about any
-- other identity changes.
import Xrelease.Ledger
import Xrelease.Pieces

namespace xrelease.recorded

open xrelease.model xrelease.store xrelease.engine xrelease.outbox xrelease.pipeline
open xrelease.pieces keyed calls calls.Prog calls.Terms

/-! ## What is recorded -/

/-- A stored digest, and it is one of these contents. -/
def Among (contents : String → Prop) (digest : Option String) : Prop :=
  ∃ d, digest = some d ∧ contents d

/-- The identity is recorded with one of these contents: as seen, or in the outbox. -/
def Recorded (db : Db) (source_id identity : String) (contents : String → Prop) : Prop :=
  (∃ k, db.seen source_id identity = some k ∧ Among contents k.content_digest) ∨
    ∃ id r, db.parent id = some r ∧ r.source_id = source_id ∧ r.identity = identity ∧
      Among contents r.content_digest

/-- Every row of the outbox stays, for the same release with the same content. -/
def SameContents (db db' : Db) : Prop :=
  ∀ id r, db.parent id = some r → ∃ r', db'.parent id = some r' ∧ r'.source_id = r.source_id ∧
    r'.identity = r.identity ∧ r'.content_digest = r.content_digest

variable {db db' : Db} {a x : String} {D : String → Prop}

theorem sameContents_of_parent (db db' : Db) (h : ∀ id, db'.parent id = db.parent id) :
    SameContents db db' :=
  fun id r hr => ⟨r, (h id).trans hr, rfl, rfl, rfl⟩

theorem sameContents_updateOutbox (db : Db) (p : Nat → OutboxRow → Bool)
    (f : OutboxRow → OutboxRow) (hf : ∀ r, (f r).source_id = r.source_id ∧
      (f r).identity = r.identity ∧ (f r).content_digest = r.content_digest) :
    SameContents db (db.updateOutbox p f) := by
  intro id r hr
  refine ⟨if p id r then f r else r, by simp [hr], ?_⟩
  split
  · exact hf r
  · exact ⟨rfl, rfl, rfl⟩

theorem sameContents_insert (db : Db) (now : DateTime) (event : Event) (identity : String)
    (om : OutboxMeta) : SameContents db (insert_outbox db now event identity om).2 :=
  fun id r hr => ⟨r, parent_insert_outbox db now id event identity om hr, rfl, rfl, rfl⟩

theorem recorded_of_digest
    (hs : (db'.seen a x).map (·.content_digest) = (db.seen a x).map (·.content_digest))
    (hp : SameContents db db') (h : Recorded db a x D) : Recorded db' a x D := by
  rcases h with ⟨k, hk, hd⟩ | ⟨id, r, hr, hsrc, hid, hd⟩
  · rw [hk] at hs
    obtain ⟨k', hk', hd'⟩ := Option.map_eq_some_iff.mp hs
    exact Or.inl ⟨k', hk', hd'.symm ▸ hd⟩
  · obtain ⟨r', hr', hsrc', hid', hd'⟩ := hp id r hr
    exact Or.inr ⟨id, r', hr', hsrc'.trans hsrc, hid'.trans hid, hd'.symm ▸ hd⟩

/-- Where `seen_release` is untouched. -/
theorem recorded_of_outbox (hs : db'.seen a x = db.seen a x) (hp : SameContents db db')
    (h : Recorded db a x D) : Recorded db' a x D :=
  recorded_of_digest (congrArg _ hs) hp h

theorem recorded_updateOutbox (p : Nat → OutboxRow → Bool) (f : OutboxRow → OutboxRow)
    (hf : ∀ r, (f r).source_id = r.source_id ∧ (f r).identity = r.identity ∧
      (f r).content_digest = r.content_digest) (h : Recorded db a x D) :
    Recorded (db.updateOutbox p f) a x D := by
  refine recorded_of_outbox ?_ (sameContents_updateOutbox db p f hf) h
  rfl

theorem recorded_state (db : Db) (h : Recorded db a x D) (hs : db'.seen_release = db.seen_release)
    (hp : db'.notification_outbox = db.notification_outbox) : Recorded db' a x D := by
  have hseen : db'.seen a x = db.seen a x := by
    unfold Db.seen
    rw [hs]
  refine recorded_of_outbox hseen (sameContents_of_parent db db' ?_) h
  intro id
  unfold Db.parent
  rw [hp]

theorem seen_write (db : Db) (now : DateTime) (b : String) (item : SeenUpsert) :
    (write_seen_row db now b item).seen a x =
      if a = b ∧ x = item.identity then
        some ((db.seen b item.identity).elim
          ⟨item.display_tag, now, item.content_digest, item.published_at, item.url⟩
          (fun row => row.refreshed item))
      else db.seen a x := by
  unfold Db.seen write_seen_row
  rw [Table.get_upsert]
  simp only [Prod.mk.injEq]

/-- The item is recorded as seen by its write. -/
theorem recorded_of_write (db : Db) (now : DateTime) (item : SeenUpsert)
    (hd : Among D item.content_digest) :
    Recorded (write_seen_row db now a item) a item.identity D := by
  refine Or.inl ⟨_, by rw [seen_write, if_pos ⟨rfl, rfl⟩], ?_⟩
  cases db.seen a item.identity with
  | none => exact hd
  | some row => exact hd

/-- Only a write of another content for the identity can unrecord it. -/
theorem recorded_write (now : DateTime) {b : String} {item : SeenUpsert}
    (hw : b = a → item.identity = x → Among D item.content_digest) (h : Recorded db a x D) :
    Recorded (write_seen_row db now b item) a x D := by
  by_cases hk : a = b ∧ x = item.identity
  · obtain ⟨rfl, rfl⟩ := hk
    exact recorded_of_write db now item (hw rfl rfl)
  · refine recorded_of_outbox ?_ (sameContents_of_parent db _ (fun _ => rfl)) h
    rw [seen_write, if_neg hk]

theorem recorded_foldl (now : DateTime) {b : String} (items : List SeenUpsert)
    (hw : b = a → ∀ item ∈ items, item.identity = x → Among D item.content_digest)
    (h : Recorded db a x D) :
    Recorded (items.foldl (fun db item => write_seen_row db now b item) db) a x D := by
  induction items generalizing db with
  | nil => exact h
  | cons item rest ih =>
    refine ih (fun hb i hi => hw hb i (List.mem_cons_of_mem item hi)) ?_
    exact recorded_write now (fun hb hx => hw hb item List.mem_cons_self hx) h

variable {items : List SeenUpsert}

theorem mem_distinct_on {item : SeenUpsert} (h : item ∈ distinct_on items) : item ∈ items := by
  induction items with
  | nil => exact h
  | cons i rest ih =>
    rcases List.mem_cons.mp h with rfl | h
    · exact List.mem_cons_self
    · exact List.mem_cons_of_mem i (ih (List.mem_filter.mp h).1)

/-- Some item of every identity is kept. -/
theorem exists_distinct_on {item : SeenUpsert} (h : item ∈ items) :
    ∃ i ∈ distinct_on items, i.identity = item.identity := by
  induction items with
  | nil => exact absurd h List.not_mem_nil
  | cons i rest ih =>
    by_cases he : i.identity = item.identity
    · exact ⟨i, List.mem_cons_self, he⟩
    · rcases List.mem_cons.mp h with rfl | h
      · exact absurd rfl he
      · obtain ⟨j, hj, hji⟩ := ih h
        refine ⟨j, List.mem_cons_of_mem i (List.mem_filter.mpr ⟨hj, ?_⟩), hji⟩
        simpa [hji] using fun he' : item.identity = i.identity => he he'.symm

theorem recorded_batch (now : DateTime) (order : List Nat) {b : String}
    (hw : b = a → ∀ item ∈ items, item.identity = x → Among D item.content_digest)
    (h : Recorded db a x D) : Recorded (record_seen_batch db now order b items) a x D := by
  unfold record_seen_batch
  split
  · exact recorded_state db h rfl rfl
  · refine recorded_state _ (recorded_foldl now _ ?_ h) rfl rfl
    intro hb item hi
    exact hw hb item ((mem_arrange order items item).mp (mem_distinct_on hi))

theorem seen_foldl_other (now : DateTime) (items : List SeenUpsert)
    (h : ∀ item ∈ items, item.identity ≠ x) :
    (items.foldl (fun db item => write_seen_row db now a item) db).seen a x = db.seen a x := by
  induction items generalizing db with
  | nil => rfl
  | cons item rest ih =>
    rw [List.foldl_cons, ih (fun i hi => h i (List.mem_cons_of_mem item hi)), seen_write]
    exact if_neg (fun he => h item List.mem_cons_self he.2.symm)

/-- Every identity written is seen with the content of one of its items. -/
theorem seen_foldl (now : DateTime) (h : ∃ i ∈ items, i.identity = x) :
    ∃ i ∈ items, i.identity = x ∧ ((items.foldl (fun db item => write_seen_row db now a item)
      db).seen a x).map (·.content_digest) = some i.content_digest := by
  induction items generalizing db with
  | nil =>
    obtain ⟨i, hi, _⟩ := h
    exact absurd hi List.not_mem_nil
  | cons j rest ih =>
    by_cases hrest : ∃ i ∈ rest, i.identity = x
    · obtain ⟨i, hi, hid, hd⟩ := ih hrest
      exact ⟨i, List.mem_cons_of_mem j hi, hid, hd⟩
    · obtain ⟨i, hi, hid⟩ := h
      have hj : j.identity = x := by
        rcases List.mem_cons.mp hi with rfl | hi
        · exact hid
        · exact absurd ⟨i, hi, hid⟩ hrest
      subst hj
      refine ⟨j, List.mem_cons_self, rfl, ?_⟩
      rw [List.foldl_cons, seen_foldl_other now rest (fun i hi hid => hrest ⟨i, hi, hid⟩),
        seen_write, if_pos ⟨rfl, rfl⟩, Option.map_some]
      cases db.seen a j.identity <;> rfl

/-- The silent baseline marks every identity of its list as seen. -/
theorem seen_batch (db : Db) (now : DateTime) (order : List Nat) (a : String) {item : SeenUpsert}
    (hi : item ∈ items) :
    ∃ i ∈ items, i.identity = item.identity ∧
      ((record_seen_batch db now order a items).seen a item.identity).map (·.content_digest) =
        some i.content_digest := by
  unfold record_seen_batch
  rw [if_neg (List.ne_nil_of_mem hi)]
  obtain ⟨j, hj, hid⟩ := exists_distinct_on ((mem_arrange order items item).mpr hi)
  obtain ⟨i, hin, hiid, hd⟩ := seen_foldl now ⟨j, hj, hid⟩
  exact ⟨i, (mem_arrange order items i).mp (mem_distinct_on hin), hiid, hd⟩

/-- The silent baseline records every identity of its list. -/
theorem recorded_of_batch (db : Db) (now : DateTime) (order : List Nat) (item : SeenUpsert)
    (hi : item ∈ items) (hw : ∀ i ∈ items, i.identity = item.identity → Among D i.content_digest) :
    Recorded (record_seen_batch db now order a items) a item.identity D := by
  obtain ⟨i, hin, hid, hd⟩ := seen_batch db now order a hi
  obtain ⟨k, hk, hkd⟩ := Option.map_eq_some_iff.mp hd
  exact Or.inl ⟨k, hk, hkd.symm ▸ hw i hin hid⟩

/-! ## What a call does to it -/

/-- A call that writes no content for the identity but one of these. -/
def Agrees (source_id identity : String) (contents : String → Prop) {β : Type} (op : Call β)
    (db : Db) : Prop :=
  match op with
  | .record_seen b item =>
    b = source_id → item.identity = identity → Among contents item.content_digest
  | .record_seen_batch b items =>
    b = source_id → ∀ item ∈ items, item.identity = identity → Among contents item.content_digest
  | .complete_notification _ b seen =>
    b = source_id → seen.identity = identity → Among contents seen.content_digest
  | .reopen_outbox _ om id =>
    ∀ r, db.parent id = some r → r.source_id = source_id → r.identity = identity →
      Among contents om.content_digest
  | _ => True

theorem digest_enrich (db : Db) (order : List Nat) (b : String) (releases : List Release) :
    ((enrich_seen_metadata db order b releases).seen a x).map (·.content_digest) =
      (db.seen a x).map (·.content_digest) := by
  unfold Db.seen
  simp only [enrich_seen_metadata]
  rw [Table.get_mapRows, Option.map_map]
  congr 1
  funext row
  simp only [Function.comp_apply]
  split
  · cases (arrange order (releases.filterMap enrichment)).find? _ <;> rfl
  · rfl

theorem recorded_reopen (event : Event) (om : OutboxMeta) (id : Nat)
    (hw : ∀ r, db.parent id = some r → r.source_id = a → r.identity = x →
      Among D om.content_digest) (h : Recorded db a x D) :
    Recorded (reopen_outbox db event om id).2 a x D := by
  unfold reopen_outbox
  split
  · rcases h with h | ⟨j, r, hr, hsrc, hid, hd⟩
    · exact Or.inl h
    · refine Or.inr ⟨j, if (j = id && r.status = .sent) then r.reopened event om else r,
        by simp [hr], ?_⟩
      split
      · rename_i hj
        rw [Bool.and_eq_true, decide_eq_true_eq] at hj
        obtain rfl := hj.1
        exact ⟨hsrc, hid, hw r hr hsrc hid⟩
      · exact ⟨hsrc, hid, hd⟩
  · exact h

/-- No call but a reopen puts another content into a row. -/
theorem contents_exec {β : Type} (w : Nat) {op : Call β} (h : ∀ id, ledger.reopened op id = false)
    (o : Oracle) (s : World) : SameContents s.db (exec w op o s).2.db := by
  intro id r hr
  rcases row_exec hr with hsame | ⟨-, -, hnew⟩
  · exact ⟨r, hsame, rfl, rfl, rfl⟩
  · refine ⟨_, hnew, ?_⟩
    cases op
    case reopen_outbox event om j => exact absurd (h j) (by simp [ledger.reopened])
    all_goals exact ⟨rfl, rfl, rfl⟩

theorem seen_of_exec {β : Type} {w : Nat} {op : Call β} {o : Oracle} {s : World}
    (h : writes_seen op = false) (a x : String) :
    (exec w op o s).2.db.seen a x = s.db.seen a x :=
  congrArg (fun rows => rows.get (a, x)) (seen_exec h)

theorem recorded_exec {β : Type} {w : Nat} {op : Call β} {o : Oracle} {s : World}
    (h : Recorded s.db a x D) (ha : Agrees a x D op s.db) :
    Recorded (exec w op o s).2.db a x D := by
  cases hfail : o.fails with
  | some e =>
    rw [failed_exec hfail]
    exact h
  | none =>
    by_cases hplain : writes_seen op = false ∧ ∀ id, ledger.reopened op id = false
    · exact recorded_of_outbox (seen_of_exec hplain.1 a x) (contents_exec w hplain.2 o s) h
    · cases op <;> simp only [exec, stored, hfail]
      case enrich_seen_metadata b releases =>
        exact recorded_of_digest (digest_enrich s.db o.order b releases)
          (sameContents_of_parent s.db _ (fun _ => rfl)) h
      case record_seen b item => exact recorded_write _ ha h
      case record_seen_batch b items => exact recorded_batch _ o.order ha h
      case reopen_outbox event om id =>
        have hre := recorded_reopen event om id ha h
        split <;> exact hre
      case complete_notification id b seen =>
        have hdone : Recorded (complete_notification s.db (s.tick o).now id b seen).2 a x D := by
          unfold complete_notification
          split
          · exact recorded_write _ ha (recorded_updateOutbox _ _ (fun _ => ⟨rfl, rfl, rfl⟩) h)
          · exact h
        split <;> exact hdone
      all_goals exact absurd ⟨rfl, fun _ => rfl⟩ hplain

/-! ## The calls of one delivery -/

/-- The calls that the delivery of an outbox row makes: they write no other row, and none but the
release of that row as seen. -/
def belongs (id : Nat) (source_id : String) (seen : SeenUpsert) {γ : Type} (op : Call γ) : Prop :=
  match op with
  | .advisories _ _ _ _ | .notifier_snapshot | .breaker_allows _ | .notify _ _ _ _
  | .drain_newly_opened_breakers | .emit_ops_alert _ _ | .outbox_retry_backoff_max_secs
  | .through _ => True
  | .ensure_sink_deliveries j _ | .list_pending_sink_indices j | .complete_sink_delivery j _
  | .fail_sink_delivery j _ _ | .abandon_retryable_sinks j _ _ | .sinks_delivery_complete j
  | .count_sinks j | .mark_outbox_dead j | .mark_outbox_failed j | .fail_notification j _
  | .apply_delivery_backoff j _ | .defer_delivery j _ => j = id
  | .complete_notification j b item => j = id ∧ b = source_id ∧ item = seen
  | _ => False

section Belongs

variable {id : Nat} {source_id : String} {seen : SeenUpsert} {α β : Type}

/-- A piece of the delivery: such calls only, and no failure of its own. -/
def Piece (id : Nat) (source_id : String) (seen : SeenUpsert) (p : Work α) : Prop :=
  ∀ f, p.Within (belongs id source_id seen) (fun _ _ => True) f

theorem sequential_piece :
    Sequential (Piece id source_id seen) (belongs id source_id seen) where
  done := fun _ _ => trivial
  bind := fun hp hg f => within_bind (hp f) (fun f b _ => hg b f)
  call := fun hop _ => within_perform hop (fun _ => trivial)

theorem settles_piece : Settles (Piece id source_id seen) (belongs id source_id seen) id source_id
    seen := by
  refine settles_of_calls sequential_piece (fun op hop => ?_) (fun op hop => ?_) ⟨rfl, rfl, rfl⟩
  · cases op <;> first | exact hop | exact hop.elim
  · cases op <;> first | exact hop | exact hop.elim

theorem piece_deliver (event : Event) :
    Piece id source_id seen (deliver_to_pending_sinks id event source_id seen) :=
  keeps_deliver sequential_piece settles_piece
    (fun _ => keeps_round sequential_piece (fun _ => trivial)
      (fun _ _ => sequential_piece.call trivial))
    (keeps_breaker_alerts sequential_piece trivial (fun _ _ => trivial))

theorem piece_backoff_after (attempts_before : Nat)
    (outcome : Except PipelineError DeliveryAttempt) :
    Piece id source_id seen (backoff_after id attempts_before outcome) := by
  cases outcome with
  | error e => exact sequential_piece.done ()
  | ok attempt =>
    simp only [backoff_after]
    split
    · exact sequential_piece.done ()
    · refine sequential_piece.bind (sequential_piece.call trivial) (fun max_secs => ?_)
      refine sequential_piece.bind (fun f => within_caught ?_ (fun _ => trivial))
        (fun _ => sequential_piece.done ())
      split
      · exact within_perform rfl (fun _ => trivial)
      · exact within_perform rfl (fun _ => trivial)

/-- The whole attempt; it fails only with a call of its own. -/
theorem piece_attempt (attempts_before : Nat) (context : DeliveryContext) :
    Piece id context.source_id context.seen
      (attempt_notification_delivery id attempts_before context) := by
  refine sequential_piece.bind (sequential_piece.bind (sequential_piece.call trivial)
    (fun _ => sequential_piece.done _)) (fun enriched => ?_)
  intro f
  -- the outcome that is held back is an error only after a call that failed
  refine within_bind (Q := fun f r => ∀ e, r = Except.error e → f = true) ?_ ?_
  · refine within_caught ?_ (fun _ _ _ => rfl)
    exact within_mono (piece_deliver _ f) (fun _ _ _ _ h => absurd h (by simp))
  · intro f outcome hout
    refine within_bind (within_flag (piece_backoff_after attempts_before outcome f)) ?_
    intro f₁ _ h₁
    refine within_bind (within_flag (within_perform (Q := fun _ _ => True) trivial
      (fun _ => trivial))) ?_
    intro f₂ _ h₂
    cases outcome with
    | ok attempt => trivial
    | error e => exact h₂.2 (h₁.2 (hout e rfl))

end Belongs

/-! ## What a step for one identity leaves alone -/

/-- The outbox has one row for a release: its `UNIQUE (source_id, identity)`. -/
def OneRow (db : Db) : Prop :=
  ∀ i j r r', db.parent i = some r → db.parent j = some r' → r.source_id = r'.source_id →
    r.identity = r'.identity → i = j

/-- A row of the release at hand. -/
def RowOf (db : Db) (source_id identity : String) (id : Nat) : Prop :=
  ∃ r, db.parent id = some r ∧ r.source_id = source_id ∧ r.identity = identity

/-- The outbox has a dead row of the identity. -/
def DeadRow (db : Db) (source_id identity : String) : Prop :=
  ∃ j r, db.parent j = some r ∧ r.source_id = source_id ∧ r.identity = identity ∧ r.status = .dead

/-- The identity is seen, with this content. -/
def Marked (db : Db) (source_id identity digest : String) : Prop :=
  (db.seen source_id identity).map (·.content_digest) = some (some digest)

/-- The outbox has a row of the identity that an enqueue of this content leaves alone. -/
def Mute (db : Db) (source_id identity digest : String) : Prop :=
  ∃ j r, db.parent j = some r ∧ r.source_id = source_id ∧ r.identity = identity ∧
    (r.status = .dead ∨ r.content_digest = some digest)

/-- The outbox has rows of the identity, and all of them are dead. -/
def AllDead (db : Db) (source_id identity : String) : Prop :=
  DeadRow db source_id identity ∧ ∀ j r, db.parent j = some r → r.source_id = source_id →
    r.identity = identity → r.status = .dead

theorem allDead_of_oneRow (hone : OneRow db) (h : DeadRow db a x) : AllDead db a x := by
  refine ⟨h, ?_⟩
  intro j r hr hsrc hid
  obtain ⟨j', r', hr', hsrc', hid', hdead⟩ := h
  obtain rfl := hone j j' r r' hr hr' (hsrc.trans hsrc'.symm) (hid.trans hid'.symm)
  rw [hr] at hr'
  exact Option.some.inj hr' ▸ hdead

/-- Nothing about the identity changes: neither what is seen of it nor its rows. -/
structure Untouched (source_id identity : String) (db db' : Db) : Prop where
  seen : (db'.seen source_id identity).map (·.content_digest) =
    (db.seen source_id identity).map (·.content_digest)
  rows : ∀ j r, r.identity = identity → (db'.parent j = some r ↔ db.parent j = some r)

section Untouched

variable {db₁ db₂ db₃ : Db}

theorem Untouched.refl (db : Db) : Untouched a x db db := ⟨rfl, fun _ _ _ => Iff.rfl⟩

section

variable (h : Untouched a x db₁ db₂)

include h

theorem Untouched.trans (h' : Untouched a x db₂ db₃) :
    Untouched a x db₁ db₃ :=
  ⟨h'.seen.trans h.seen, fun j r hr => (h'.rows j r hr).trans (h.rows j r hr)⟩

theorem Untouched.symm : Untouched a x db₂ db₁ :=
  ⟨h.seen.symm, fun j r hr => (h.rows j r hr).symm⟩

theorem Untouched.still_recorded (hr : Recorded db₁ a x D) :
    Recorded db₂ a x D := by
  rcases hr with ⟨k, hk, hd⟩ | ⟨id, r, hp, hsrc, hid, hd⟩
  · have hs := h.seen
    rw [hk] at hs
    obtain ⟨k', hk', hd'⟩ := Option.map_eq_some_iff.mp hs
    exact Or.inl ⟨k', hk', hd'.symm ▸ hd⟩
  · exact Or.inr ⟨id, r, (h.rows id r hid).mpr hp, hsrc, hid, hd⟩

theorem Untouched.deadRow (hd : DeadRow db₁ a x) :
    DeadRow db₂ a x := by
  obtain ⟨j, r, hr, hsrc, hid, hdead⟩ := hd
  exact ⟨j, r, (h.rows j r hid).mpr hr, hsrc, hid, hdead⟩

theorem Untouched.mute {d : String} (hm : Mute db₁ a x d) :
    Mute db₂ a x d := by
  obtain ⟨j, r, hr, hsrc, hid, hcase⟩ := hm
  exact ⟨j, r, (h.rows j r hid).mpr hr, hsrc, hid, hcase⟩

end

theorem recorded_or_dead_of_mute {d : String} (h : Mute db a x d) :
    Recorded db a x (· = d) ∨ DeadRow db a x := by
  obtain ⟨j, r, hr, hsrc, hid, hdead | hd⟩ := h
  · exact Or.inr ⟨j, r, hr, hsrc, hid, hdead⟩
  · exact Or.inl (Or.inr ⟨j, r, hr, hsrc, hid, d, hd, rfl⟩)

theorem Untouched.allDead (h : Untouched a x db₁ db₂) (hd : AllDead db₁ a x) :
    AllDead db₂ a x :=
  ⟨h.deadRow hd.1, fun j r hr hsrc hid => hd.2 j r ((h.rows j r hid).mp hr) hsrc hid⟩

theorem untouched_of_state (hs : db₂.seen_release = db₁.seen_release)
    (hp : db₂.notification_outbox = db₁.notification_outbox) : Untouched a x db₁ db₂ := by
  refine ⟨?_, ?_⟩
  · unfold Db.seen
    rw [hs]
  · intro j r _
    unfold Db.parent
    rw [hp]

end Untouched

/-- What a step of the poll for one identity keeps; what it marks as seen is that content. -/
structure Around (source_id identity digest : String) (db db' : Db) : Prop where
  others : ∀ x, x ≠ identity → Untouched source_id x db db'
  kept : ∀ x D, (identity = x → D digest) → Recorded db source_id x D →
    Recorded db' source_id x D
  marks : (db'.seen source_id identity).map (·.content_digest) =
      (db.seen source_id identity).map (·.content_digest) ∨ Marked db' source_id identity digest

theorem around_of_untouched {source_id identity digest : String} {db : Db}
    (h : ∀ x, Untouched source_id x db db') : Around source_id identity digest db db' :=
  ⟨fun x _ => h x, fun x _ _ hr => (h x).still_recorded hr, Or.inl (h identity).seen⟩

theorem Around.refl (source_id identity digest : String) (db : Db) :
    Around source_id identity digest db db := around_of_untouched (fun _ => Untouched.refl db)

theorem Around.trans {source_id identity digest : String} {db₁ db₂ db₃ : Db}
    (h : Around source_id identity digest db₁ db₂) (h' : Around source_id identity digest db₂ db₃) :
    Around source_id identity digest db₁ db₃ := by
  refine ⟨fun x hx => (h.others x hx).trans (h'.others x hx),
    fun x D hd hr => h'.kept x D hd (h.kept x D hd hr), ?_⟩
  rcases h'.marks with hs | hm
  · unfold Marked
    rw [hs]
    exact h.marks
  · exact Or.inr hm

theorem Around.marked {source_id identity digest : String} {db : Db}
    (h : Around source_id identity digest db db') (hm : Marked db source_id identity digest) :
    Marked db' source_id identity digest := by
  rcases h.marks with hs | hm'
  · exact hs.trans hm
  · exact hm'

/-! ## What a delivery leaves -/

/-- What the delivery of row `id` keeps: the row is there for the same release, the other rows
are as they were, only the identity delivered is marked seen, and with its content. -/
structure Beside (id : Nat) (source_id : String) (seen : SeenUpsert) (db db' : Db) : Prop where
  row : RowOf db' source_id seen.identity id
  others : ∀ j, j ≠ id → db'.parent j = db.parent j
  unseen : ∀ x, x ≠ seen.identity → db'.seen source_id x = db.seen source_id x
  kept : ∀ x D, (seen.identity = x → Among D seen.content_digest) →
    Recorded db source_id x D → Recorded db' source_id x D
  marks : (db'.seen source_id seen.identity).map (·.content_digest) =
      (db.seen source_id seen.identity).map (·.content_digest) ∨
    (db'.seen source_id seen.identity).map (·.content_digest) = some seen.content_digest

section Beside

variable {id : Nat} {source_id : String} {seen : SeenUpsert} {w : Nat} {o : Oracle} {s : World}

theorem Beside.around {db' : Db} {digest : String} (hrow : RowOf db source_id seen.identity id)
    (hd : seen.content_digest = some digest) (h : Beside id source_id seen db db') :
    Around source_id seen.identity digest db db' := by
  refine ⟨?_, fun x D hx => h.kept x D (fun he => ⟨digest, hd, hx he⟩),
    h.marks.imp_right (fun hm => hm.trans (congrArg some hd))⟩
  intro x hx
  refine ⟨by rw [h.unseen x hx], ?_⟩
  intro j r hr
  by_cases hj : j = id
  · -- the row itself is of the identity delivered, before and after
    subst hj
    obtain ⟨r₁, hr₁, _, hid₁⟩ := hrow
    obtain ⟨r₂, hr₂, _, hid₂⟩ := h.row
    constructor
    · intro he
      rw [hr₂] at he
      obtain rfl := Option.some.inj he
      exact absurd (hr.symm.trans hid₂) hx
    · intro he
      rw [hr₁] at he
      obtain rfl := Option.some.inj he
      exact absurd (hr.symm.trans hid₁) hx
  · rw [h.others j hj]

theorem agrees_of_belongs {β : Type} {op : Call β} (h : belongs id source_id seen op)
    (hd : seen.identity = x → Among D seen.content_digest) :
    Agrees source_id x D op s.db := by
  cases op <;> first | trivial | exact False.elim h | skip
  case complete_notification j b item =>
    intro _ hx
    rw [h.2.2] at hx ⊢
    exact hd hx

theorem seen_belongs {β : Type} {op : Call β} (h : belongs id source_id seen op)
    (hx : x ≠ seen.identity) :
    (exec w op o s).2.db.seen source_id x = s.db.seen source_id x := by
  cases hfail : o.fails with
  | some e => rw [failed_exec hfail]
  | none =>
    cases op
    case complete_notification k b item =>
      have hc : (complete_notification s.db (s.tick o).now k b item).2.seen source_id x =
          s.db.seen source_id x := by
        unfold complete_notification
        split
        · rw [seen_write, if_neg (fun he => hx (h.2.2 ▸ he.2))]
          rfl
        · rfl
      simp only [exec, stored, hfail]
      split <;> exact hc
    all_goals first
      | exact False.elim h
      | exact seen_of_exec rfl source_id x

/-- The identity delivered is marked with its content, or left alone. -/
theorem marks_belongs {β : Type} {op : Call β} (h : belongs id source_id seen op) :
    ((exec w op o s).2.db.seen source_id seen.identity).map (·.content_digest) =
        (s.db.seen source_id seen.identity).map (·.content_digest) ∨
      ((exec w op o s).2.db.seen source_id seen.identity).map (·.content_digest) =
        some seen.content_digest := by
  cases hfail : o.fails with
  | some e => exact Or.inl (by rw [failed_exec hfail])
  | none =>
    cases op
    case complete_notification k b item =>
      obtain ⟨_, rfl, rfl⟩ := h
      have hc : ((complete_notification s.db (s.tick o).now k b item).2.seen b
            item.identity).map (·.content_digest) =
          (s.db.seen b item.identity).map (·.content_digest) ∨
          ((complete_notification s.db (s.tick o).now k b item).2.seen b
            item.identity).map (·.content_digest) = some item.content_digest := by
        unfold complete_notification
        split
        · right
          rw [seen_write, if_pos ⟨rfl, rfl⟩, Option.map_some, Db.seen_updateOutbox]
          cases s.db.seen b item.identity <;> rfl
        · exact Or.inl rfl
      simp only [exec, stored, hfail]
      split <;> exact hc
    all_goals first
      | exact False.elim h
      | exact Or.inl (by rw [seen_of_exec rfl])

theorem parent_belongs {β : Type} {op : Call β} (h : belongs id source_id seen op) {j : Nat}
    (hj : j ≠ id) : (exec w op o s).2.db.parent j = s.db.parent j := by
  cases hfail : o.fails with
  | some e => rw [failed_exec hfail]
  | none =>
    have hins : inserts op = false := by cases op <;> first | rfl | exact False.elim h
    have hmiss (r : OutboxRow) : hits op o s.db (s.tick o).now j r = false := by
      cases op
      case complete_notification => simp [hits, h.1, hj]
      all_goals first
        | rfl
        | exact False.elim h
        | (obtain rfl : _ = id := h; simp [hits, hj])
    rw [parent_exec hins hfail]
    simp only [hmiss, Bool.false_eq_true, if_false, Option.map_id']

/-- Every row stays, for the same release. -/
def SameReleases (db db' : Db) : Prop :=
  ∀ id r, db.parent id = some r → ∃ r', db'.parent id = some r' ∧ r'.source_id = r.source_id ∧
    r'.identity = r.identity

theorem sameReleases_of_contents {db' : Db} (h : SameContents db db') : SameReleases db db' := by
  intro id r hr
  obtain ⟨r', hr', hsrc, hid, _⟩ := h id r hr
  exact ⟨r', hr', hsrc, hid⟩

theorem sameReleases_belongs {β : Type} {op : Call β} (h : belongs id source_id seen op) :
    SameReleases s.db (exec w op o s).2.db := by
  refine sameReleases_of_contents (contents_exec w (fun id => ?_) o s)
  cases op <;> first | rfl | exact False.elim h

/-- A call of the delivery of a row that is there fails only when the store does. -/
theorem ok_belongs {β : Type} {op : Call β} (h : belongs id source_id seen op)
    (hrow : (s.db.parent id).isSome) (hfail : o.fails = none) :
    ∃ b, (exec w op o s).1 = .ok b := by
  cases op <;> simp only [exec, stored, hfail]
  case ensure_sink_deliveries j sinks =>
    obtain rfl : j = id := h
    split
    · rename_i hnone
      unfold ensure_sink_deliveries at hnone
      split at hnone
      · exact absurd hnone (by simp)
      · split at hnone
        · rename_i hgone
          change ((s.db.parent j).isNone) = true at hgone
          cases hp : s.db.parent j <;> simp [hp] at hrow hgone
        · exact absurd hnone (by simp)
    · exact ⟨(), rfl⟩
  all_goals first
    | exact ⟨(), trivial⟩
    | exact ⟨_, rfl⟩
    | exact False.elim h

/-- Whether a store call may fail in the runs in question. -/
def upTo (smooth : Prop) {β : Type} (_ : Call β) (o : Oracle) : Prop := smooth → o.fails = none

/-- One poll by itself. -/
abbrev by_itself (smooth : Prop) : Terms Call World Oracle Outside :=
  solo (fun op o => upTo smooth op o)

theorem alone_by_itself {smooth : Prop} {α : Type} {p : Work α}
    {Q : Except PipelineError α → World → Prop} (os : Nat → Oracle)
    (hos : smooth → ∀ n, (os n).fails = none) (h : (by_itself smooth).Safe machine w Q p s) :
    Q (alone machine w p os s).1 (alone machine w p os s).2.1 :=
  alone_of_safe (fun n _ _ hs => hos hs n) h

theorem safe_attempt {smooth : Prop} (attempts_before : Nat) (context : DeliveryContext)
    (hrow : RowOf s.db context.source_id context.seen.identity id) :
    (by_itself smooth).Safe machine w
      (fun r s' => Beside id context.source_id context.seen s.db s'.db ∧
        (smooth → ∃ b, r = .ok b))
      (attempt_notification_delivery id attempts_before context) s := by
  refine safe_within (K := fun (s' : World) => Beside id context.source_id context.seen s.db s'.db) ?_
    (piece_attempt attempts_before context false) (fun _ => rfl)
    ⟨hrow, fun _ _ => rfl, fun _ _ => rfl, fun _ _ _ h => h, Or.inl rfl⟩
  intro β op o s₁ hop hok hk
  obtain ⟨r, hr, hsrc, hid⟩ := hk.row
  refine ⟨⟨?_, ?_, ?_, ?_, ?_⟩, fun h => ok_belongs hop (by simp [hr]) (hok h)⟩
  · obtain ⟨r', hr', hsrc', hid'⟩ := sameReleases_belongs (w := w) (o := o) hop id r hr
    exact ⟨r', hr', hsrc'.trans hsrc, hid'.trans hid⟩
  · intro j hj
    exact (parent_belongs hop hj).trans (hk.others j hj)
  · intro x hx
    exact (seen_belongs hop hx).trans (hk.unseen x hx)
  · intro x D hd h
    exact recorded_exec (hk.kept x D hd h) (agrees_of_belongs hop hd)
  · rcases marks_belongs (w := w) (o := o) (s := s₁) hop with hs | hm
    · exact hk.marks.imp hs.trans hs.trans
    · exact Or.inr hm

end Beside

/-! ## Into the outbox -/

section Enqueue

variable {smooth : Prop} {w : Nat} {s : World} {digest : String}

theorem around_insert (db : Db) (now : DateTime) (event : Event) (identity : String)
    (om : OutboxMeta) :
    Around event.source_id identity digest db (insert_outbox db now event identity om).2 := by
  have hseen : ∀ x, (insert_outbox db now event identity om).2.seen event.source_id x =
      db.seen event.source_id x := by
    intro x
    unfold insert_outbox
    split <;> rfl
  refine ⟨fun x hx => ⟨by rw [hseen x], ?_⟩, fun x D _ h => ?_, Or.inl (by rw [hseen identity])⟩
  · intro j r hr
    constructor
    · intro h
      unfold insert_outbox at h
      split at h
      · exact h
      · unfold Db.parent at h ⊢
        rw [Serial.get_insert] at h
        split at h
        · rw [← Option.some.inj h] at hr
          exact absurd hr.symm hx
        · exact h
    · exact parent_insert_outbox db now j event identity om
  · exact recorded_of_outbox (hseen x) (sameContents_insert db now event identity om) h

variable {event : Event} {identity source_id : String} {om : OutboxMeta}

theorem insert_some {now : DateTime} {id : Nat}
    (h : (insert_outbox db now event identity om).1 = some id) :
    RowOf (insert_outbox db now event identity om).2 event.source_id identity id := by
  unfold insert_outbox at h ⊢
  split at h
  · exact absurd h (by simp)
  · rename_i hnone
    rw [if_neg hnone]
    obtain rfl := Option.some.inj h
    unfold RowOf Db.parent
    simp only [Serial.get_insert, if_true]
    exact ⟨_, rfl, rfl, rfl⟩

theorem insert_none {now : DateTime} (h : (insert_outbox db now event identity om).1 = none) :
    ∃ hit, select_outbox (insert_outbox db now event identity om).2 event.source_id identity =
      some hit := by
  unfold insert_outbox at h ⊢
  split at h
  · rename_i hany
    rw [if_pos hany]
    obtain ⟨k, r, hget, hp⟩ := (Table.any_iff _ _).mp hany
    have hmem : (k, r) ∈ db.notification_outbox.select
        (fun _ r => r.source_id = event.source_id && r.identity = identity) :=
      (Serial.mem_select _ _ k r).mpr ⟨hget, hp⟩
    unfold select_outbox
    change ∃ hit, (db.notification_outbox.select
      (fun _ r => r.source_id = event.source_id && r.identity = identity)).head?.map
      (fun kr => (kr.1, kr.2.status, kr.2.content_digest)) = some hit
    cases hl : db.notification_outbox.select
        (fun _ r => r.source_id = event.source_id && r.identity = identity) with
    | nil =>
      rw [hl] at hmem
      exact absurd hmem List.not_mem_nil
    | cons head rest => exact ⟨_, rfl⟩
  · exact absurd h (by simp)

theorem select_some {id : Nat} {status : Status} {stored : Option String}
    (h : select_outbox db source_id identity = some (id, status, stored)) :
    ∃ r, db.parent id = some r ∧ r.source_id = source_id ∧ r.identity = identity ∧
      r.status = status ∧ r.content_digest = stored := by
  unfold select_outbox at h
  obtain ⟨⟨k, r⟩, hhead, heq⟩ := Option.map_eq_some_iff.mp h
  have hmem := List.mem_of_head? hhead
  obtain ⟨hget, hp⟩ := (Serial.mem_select _ _ k r).mp hmem
  simp only [Prod.mk.injEq] at heq
  obtain ⟨rfl, hst, hd⟩ := heq
  simp only [Bool.and_eq_true, decide_eq_true_eq] at hp
  exact ⟨r, hget, hp.1, hp.2, hst, hd⟩

/-- An insert that finds a row changes nothing. -/
theorem insert_untouched {now : DateTime} (h : (insert_outbox db now event identity om).1 = none)
    (a x : String) :
    Untouched a x db (insert_outbox db now event identity om).2 := by
  unfold insert_outbox at h ⊢
  split at h
  · rename_i hany
    rw [if_pos hany]
    exact ⟨rfl, fun _ _ _ => Iff.rfl⟩
  · exact absurd h (by simp)

theorem insert_of_row {id : Nat} (h : RowOf db event.source_id identity id) (now : DateTime)
    (om : OutboxMeta) :
    (insert_outbox db now event identity om).1 = none := by
  obtain ⟨r, hr, hsrc, hid⟩ := h
  have hany : db.notification_outbox.any
      (fun _ r => r.source_id = event.source_id && r.identity = identity) = true :=
    (Table.any_iff _ _).mpr ⟨id, r, hr, by simp [hsrc, hid]⟩
  unfold insert_outbox
  rw [if_pos hany]

theorem parent_reopen (db : Db) (event : Event) (om : OutboxMeta) {id j : Nat} (h : j ≠ id) :
    (reopen_outbox db event om id).2.parent j = db.parent j := by
  unfold reopen_outbox
  split
  · exact ledger.parent_other db j (fun r => by simp [h])
  · rfl

theorem rowOf_reopen (event : Event) (om : OutboxMeta) {id : Nat}
    (h : RowOf db source_id identity id) :
    RowOf (reopen_outbox db event om id).2 source_id identity id := by
  obtain ⟨r, hr, hsrc, hid⟩ := h
  unfold reopen_outbox
  split
  · refine ⟨if r.status = .sent then r.reopened event om else r, by simp [hr], ?_⟩
    split
    · exact ⟨hsrc, hid⟩
    · exact ⟨hsrc, hid⟩
  · exact ⟨r, hr, hsrc, hid⟩

theorem around_reopen (event : Event) {id : Nat} (hrow : RowOf db source_id identity id)
    (hd : om.content_digest = some digest) :
    Around source_id identity digest db (reopen_outbox db event om id).2 := by
  have hseen : ∀ x, (reopen_outbox db event om id).2.seen source_id x = db.seen source_id x := by
    intro x
    unfold reopen_outbox
    split <;> rfl
  refine ⟨fun x hx => ⟨by rw [hseen x], ?_⟩, fun x D hxd h => ?_, Or.inl (by rw [hseen identity])⟩
  · intro j r hr
    by_cases hj : j = id
    · subst hj
      obtain ⟨r₁, hr₁, _, hid₁⟩ := hrow
      obtain ⟨r₂, hr₂, _, hid₂⟩ := rowOf_reopen event om ⟨r₁, hr₁, ‹_›, hid₁⟩
      constructor
      · intro he
        obtain rfl := Option.some.inj (hr₂.symm.trans he)
        exact absurd (hr.symm.trans hid₂) hx
      · intro he
        obtain rfl := Option.some.inj (hr₁.symm.trans he)
        exact absurd (hr.symm.trans hid₁) hx
    · rw [parent_reopen db event om hj]
  · refine recorded_reopen event om id ?_ h
    intro r' hr' _ hx
    obtain ⟨r, hr, _, hid⟩ := hrow
    obtain rfl := Option.some.inj (hr.symm.trans hr')
    exact ⟨digest, hd, hxd (hid.symm.trans hx)⟩

/-- What an enqueue says of the release. -/
def Enqueued (source_id identity digest : String) (db db' : Db) : Option EnqueueOutcome → Prop
  | some e => RowOf db' source_id identity e.id
  | none => (∀ x, Untouched source_id x db db') ∧ Mute db source_id identity digest

/-- What holds after one release was put into the outbox. -/
structure Placed (smooth : Prop) (source_id identity digest : String) (db : Db)
    (r : Except PipelineError (Option EnqueueOutcome)) (db' : Db) : Prop where
  around : Around source_id identity digest db db'
  answered : ∀ out, r = .ok out → Enqueued source_id identity digest db db' out
  dead : AllDead db source_id identity →
    (∀ x, Untouched source_id x db db') ∧ ∀ out, r = .ok out → out = none
  smooth : smooth → ∃ out, r = .ok out

theorem stored_ok {β : Type} {o : Oracle} {s' : World} {r : β × World} {b : β}
    (h : stored o s r = (.ok b, s')) : o.fails = none ∧ r = (b, s') := by
  unfold stored at h
  cases hfail : o.fails with
  | some e => simp [hfail] at h
  | none =>
    rw [hfail] at h
    simp only [Prod.mk.injEq, Except.ok.injEq] at h
    exact ⟨rfl, Prod.ext h.1 h.2⟩

theorem stored_error {β : Type} {o : Oracle} {s' : World} {r : β × World} {e : PipelineError}
    (h : stored o s r = (.error e, s')) : o.fails ≠ none ∧ s' = s := by
  unfold stored at h
  cases hfail : o.fails with
  | some e' =>
    rw [hfail] at h
    simp only [Prod.mk.injEq] at h
    exact ⟨by simp, h.2.symm⟩
  | none => simp [hfail] at h

/-- A store call that failed has put nothing anywhere. -/
theorem placed_error {db' : Db} {e : PipelineError} {o : Oracle} (hok : smooth → o.fails = none)
    (hfail : o.fails ≠ none) (hsame : ∀ x, Untouched source_id x db db') :
    Placed smooth source_id identity digest db (.error e) db' :=
  ⟨around_of_untouched hsame, fun _ h => absurd h (by simp),
    fun _ => ⟨hsame, fun _ h => absurd h (by simp)⟩, fun h => absurd (hok h) hfail⟩

/-- What is left when nothing but an answer was given. -/
theorem placed_same {db' : Db} (out : Option EnqueueOutcome)
    (hsame : ∀ x, Untouched source_id x db db')
    (hout : Enqueued source_id identity digest db db' out)
    (hdead : AllDead db source_id identity → out = none) :
    Placed smooth source_id identity digest db (.ok out) db' := by
  refine ⟨around_of_untouched hsame, ?_, ?_, fun _ => ⟨out, rfl⟩⟩
  · rintro _ ⟨⟩
    exact hout
  · intro h
    refine ⟨hsame, ?_⟩
    rintro _ ⟨⟩
    exact hdead h

/-- From an outbox that has a row of the release: what stands there decides. -/
theorem safe_existing {deliver_now : Bool} (hd : om.content_digest = some digest)
    (hsame : ∀ x, Untouched event.source_id x db s.db)
    (hhit : ∃ hit, select_outbox s.db event.source_id identity = some hit) :
    (by_itself smooth).Safe machine w
      (fun r s' => Placed smooth event.source_id identity digest db r s'.db)
      (do
        let existing ← perform (.select_outbox event.source_id identity)
        match existing with
        | none => return none
        | some (id, .pending, _) => return some ⟨id, false, false⟩
        | some (id, .failed, _) => return some ⟨id, false, false⟩
        | some (_, .dead, _) => return none
        | some (id, .sent, stored_digest) =>
          if stored_digest = om.content_digest then return none
          else
            let updated ← perform (.reopen_outbox event om id)
            return if updated then some ⟨id, deliver_now, true⟩ else none) s := by
  obtain ⟨⟨id, status, stored⟩, hsel⟩ := hhit
  obtain ⟨r, hr, hsrc, hid, rfl, rfl⟩ := select_some hsel
  have hrow : RowOf s.db event.source_id identity id := ⟨r, hr, hsrc, hid⟩
  have halldead : AllDead db event.source_id identity → r.status = .dead :=
    fun h => h.2 id r (((hsame identity).rows id r hid).mp hr) hsrc hid
  have inflight : ∀ st, r.status = st → st ≠ .dead →
      Placed smooth event.source_id identity digest db (.ok (some ⟨id, false, false⟩)) s.db :=
    fun st hst hne => placed_same _ hsame hrow (fun h => absurd (hst.symm.trans (halldead h)) hne)
  refine safe_solo_bind ?_ ?_
  · intro o hit s₁ _ h₁
    obtain ⟨_, heq⟩ := stored_ok h₁
    obtain ⟨hhit, rfl⟩ := Prod.mk.inj heq
    obtain rfl := hhit.symm.trans hsel
    cases hst : r.status with
    | pending => exact inflight _ hst (by simp)
    | failed => exact inflight _ hst (by simp)
    | dead =>
      have hmute : Mute db event.source_id identity digest :=
        (hsame identity).symm.mute ⟨id, r, hr, hsrc, hid, Or.inl hst⟩
      exact placed_same none hsame ⟨hsame, hmute⟩ (fun _ => rfl)
    | sent =>
      have hnot : ¬ AllDead db event.source_id identity :=
        fun h => absurd (hst.symm.trans (halldead h)) (by simp)
      dsimp only
      split
      · rename_i heq
        have hmute : Mute db event.source_id identity digest :=
          (hsame identity).symm.mute ⟨id, r, hr, hsrc, hid, Or.inr (heq.trans hd)⟩
        exact placed_same none hsame ⟨hsame, hmute⟩ (fun _ => rfl)
      · refine safe_solo_bind ?_ ?_
        · intro o₂ updated s₂ _ h₂
          obtain ⟨_, heq₂⟩ := stored_ok h₂
          have hopens : reopens s.db id = true := by simp [reopens, hr, hst]
          have hyes : (reopen_outbox s.db event om id).1 = true := by simp [reopen_outbox, hopens]
          obtain ⟨hup, hs₂⟩ := Prod.mk.inj heq₂
          obtain rfl := hup.symm.trans hyes
          have hdb : s₂.db = (reopen_outbox s.db event om id).2 := by
            rw [← hs₂]
            split <;> rfl
          have hbefore : Around event.source_id identity digest db s.db :=
            around_of_untouched hsame
          refine ⟨?_, ?_, fun h => absurd h hnot, fun _ => ⟨_, rfl⟩⟩
          · rw [hdb]
            exact hbefore.trans (around_reopen event hrow hd)
          · rintro _ ⟨⟩
            change RowOf s₂.db event.source_id identity id
            rw [hdb]
            exact rowOf_reopen event om hrow
        · intro o₂ e s₂ hok₂ h₂
          obtain ⟨hfail, rfl⟩ := stored_error h₂
          exact placed_error hok₂ hfail hsame
  · intro o e s₁ hok h₁
    obtain ⟨hfail, rfl⟩ := stored_error h₁
    exact placed_error hok hfail hsame

theorem safe_try_enqueue (digest : String) (hd : om.content_digest = some digest) :
    (by_itself smooth).Safe machine w
      (fun r s' => Placed smooth event.source_id identity digest s.db r s'.db)
      (try_enqueue_notification event identity om) s := by
  refine safe_solo_bind ?_ ?_
  · intro o now s₀ _ h₀
    obtain ⟨rfl, rfl⟩ : o.utc_now = now ∧ s.tick o = s₀ := by
      simpa [machine, exec] using h₀
    refine safe_solo_bind ?_ ?_
    · intro o₁ inserted s₁ _ h₁
      obtain ⟨_, heq⟩ := stored_ok h₁
      obtain ⟨hin, hs₁⟩ := Prod.mk.inj heq
      have hdb : s₁.db = (insert_outbox s.db ((s.tick o).tick o₁).now event identity om).2 := by
        rw [← hs₁]
        split <;> rfl
      cases inserted with
      | some id =>
        refine ⟨hdb ▸ around_insert s.db _ event identity om, ?_, ?_, fun _ => ⟨_, rfl⟩⟩
        · rintro _ ⟨⟩
          change RowOf s₁.db event.source_id identity id
          rw [hdb]
          exact insert_some hin
        · rintro ⟨⟨j, r, hr, hsrc, hid, _⟩, _⟩
          have hnone := insert_of_row ⟨r, hr, hsrc, hid⟩ ((s.tick o).tick o₁).now om
          exact absurd (hnone.symm.trans hin) (by simp)
      | none =>
        refine safe_existing hd ?_ ?_
        · intro x
          rw [hdb]
          exact insert_untouched hin event.source_id x
        · rw [hdb]
          exact insert_none hin
    · intro o₁ e s₁ hok₁ h₁
      obtain ⟨hfail, rfl⟩ := stored_error h₁
      exact placed_error hok₁ hfail (fun _ => Untouched.refl _)
  · intro o e s₀ _ h₀
    exact absurd h₀ (by simp [machine, exec])

end Enqueue

/-! ## One release, and a list of them -/

section Deliver

variable {smooth : Prop} {w : Nat} {s : World} {watch : Watch}

theorem marked_record (db : Db) (now : DateTime) (source_id : String) (release : Release) :
    Marked (record_seen db now source_id (baseline_item release)) source_id release.id
      release.content_fingerprint := by
  unfold Marked record_seen
  rw [seen_write, if_pos ⟨rfl, rfl⟩, Option.map_some]
  cases db.seen source_id (baseline_item release).identity <;> rfl

theorem around_record (db : Db) (now : DateTime) (source_id : String) (release : Release) :
    Around source_id release.id release.content_fingerprint db
      (record_seen db now source_id (baseline_item release)) := by
  refine ⟨?_, ?_, Or.inr (marked_record db now source_id release)⟩
  · intro x hx
    refine ⟨?_, fun _ _ _ => Iff.rfl⟩
    unfold record_seen
    rw [seen_write, if_neg (fun he => hx he.2)]
  · intro x D hxd h
    exact recorded_write now (fun _ hx => ⟨_, rfl, hxd hx⟩) h

variable {source_id : String}

theorem around_lease (digest : String) {identity : String} {id : Nat}
    (hrow : RowOf db source_id identity id) (now : DateTime) (lease_secs : Nat) :
    Around source_id identity digest db (claim_outbox_row db now id lease_secs).2 ∧
      RowOf (claim_outbox_row db now id lease_secs).2 source_id identity id := by
  obtain ⟨r, hr, hsrc, hid⟩ := hrow
  have hother : ∀ j, j ≠ id →
      (claim_outbox_row db now id lease_secs).2.parent j = db.parent j :=
    fun j hj => ledger.parent_other db j (fun r => by simp [hj])
  have hself : ∃ r', (claim_outbox_row db now id lease_secs).2.parent id = some r' ∧
      r'.source_id = source_id ∧ r'.identity = identity := by
    refine ⟨if r.leasable now then r.leased (now + secs lease_secs) else r,
      by simp [claim_outbox_row, hr], ?_⟩
    split
    · exact ⟨hsrc, hid⟩
    · exact ⟨hsrc, hid⟩
  refine ⟨⟨fun x hx => ⟨rfl, ?_⟩, fun x D _ h => ?_, Or.inl rfl⟩, hself⟩
  · intro j r' hr'
    by_cases hj : j = id
    · subst hj
      obtain ⟨r₂, hr₂, _, hid₂⟩ := hself
      constructor
      · intro he
        obtain rfl := Option.some.inj (hr₂.symm.trans he)
        exact absurd (hr'.symm.trans hid₂) hx
      · intro he
        obtain rfl := Option.some.inj (hr.symm.trans he)
        exact absurd (hr'.symm.trans hid) hx
    · rw [hother j hj]
  · exact recorded_updateOutbox _ _ (fun _ => ⟨rfl, rfl, rfl⟩) h

/-- Lease and delivery of a row of the release. -/
theorem safe_deliver_inline {release : Release} {enqueued : EnqueueOutcome}
    (hrow : RowOf s.db watch.provider.id release.id enqueued.id) :
    (by_itself smooth).Safe machine w
      (fun r s' => Around watch.provider.id release.id release.content_fingerprint s.db s'.db ∧
        (smooth → ∃ b, r = .ok b))
      (deliver_inline watch release enqueued) s := by
  unfold deliver_inline
  split
  · exact ⟨Around.refl _ _ _ _, fun _ => ⟨false, rfl⟩⟩
  · refine safe_solo_bind ?_ ?_
    · intro o claimed s₁ _ h₁
      obtain ⟨_, heq⟩ := stored_ok h₁
      obtain ⟨hcl, hs₁⟩ := Prod.mk.inj heq
      have hdb : s₁.db = (claim_outbox_row s.db (s.tick o).now enqueued.id OUTBOX_LEASE_SECS).2 := by
        rw [← hs₁]
        split <;> rfl
      obtain ⟨haround, hrow₁⟩ := around_lease release.content_fingerprint hrow
        (s.tick o).now OUTBOX_LEASE_SECS
      rw [← hdb] at haround hrow₁
      cases claimed with
      | false => exact ⟨haround, fun _ => ⟨false, rfl⟩⟩
      | true =>
        refine safe_mono (safe_attempt 0 (context_of watch release) hrow₁) ?_
        rintro r s' ⟨hbeside, hok⟩
        exact ⟨haround.trans (hbeside.around hrow₁ rfl), hok⟩
    · intro o e s₁ hok₁ h₁
      obtain ⟨hfail, rfl⟩ := stored_error h₁
      exact ⟨Around.refl _ _ _ _, fun h => absurd (hok₁ h) hfail⟩

/-- What holds after one deliverable release. -/
structure Handled (smooth : Prop) (source_id : String) (release : Release) (db : Db)
    (r : Except PipelineError Bool) (db' : Db) : Prop where
  around : Around source_id release.id release.content_fingerprint db db'
  on_record : smooth → Recorded db' source_id release.id (· = release.content_fingerprint) ∨
    DeadRow db source_id release.id
  dead : AllDead db source_id release.id → ∀ x, Untouched source_id x db db'
  answered : ∀ b, r = .ok b → Marked db' source_id release.id release.content_fingerprint ∨
    ((∀ x, Untouched source_id x db db') ∧
      Mute db source_id release.id release.content_fingerprint)
  smooth : smooth → ∃ b, r = .ok b

theorem safe_deliver_release (release : Release) :
    (by_itself smooth).Safe machine w
      (fun r s' => Handled smooth watch.provider.id release s.db r s'.db)
      (deliver_release watch release) s := by
  have henqueue : ∀ deliver_after, ∀ t : World, t.db = s.db →
      (by_itself smooth).Safe machine w
        (fun r s' => Handled smooth watch.provider.id release s.db r s'.db)
        (deliver_deferred watch release deliver_after) t := by
    intro deliver_after t ht
    refine safe_bind (safe_mono (safe_try_enqueue release.content_fingerprint rfl) ?_)
    intro r s₁ hplaced
    rw [ht] at hplaced
    change Placed smooth watch.provider.id release.id _ s.db r s₁.db at hplaced
    cases r with
    | error e =>
      refine ⟨hplaced.around, fun h => ?_, fun h => (hplaced.dead h).1,
        fun _ h => absurd h (by simp), fun h => ?_⟩
      · obtain ⟨_, hout⟩ := hplaced.smooth h
        exact absurd hout (by simp)
      · obtain ⟨_, hout⟩ := hplaced.smooth h
        exact absurd hout (by simp)
    | ok out =>
      have hans := hplaced.answered out rfl
      cases out with
      | none =>
        refine ⟨hplaced.around, fun _ => ?_, fun h => (hplaced.dead h).1, fun _ _ => Or.inr hans,
          fun _ => ⟨false, rfl⟩⟩
        exact (recorded_or_dead_of_mute hans.2).imp_left (hans.1 release.id).still_recorded
      | some enqueued =>
        have hnot : ¬ AllDead s.db watch.provider.id release.id :=
          fun h => absurd ((hplaced.dead h).2 _ rfl) (by simp)
        refine safe_solo_bind ?_ ?_
        · intro o _ s₂ _ h₂
          obtain ⟨_, heq⟩ := stored_ok h₂
          obtain ⟨_, rfl⟩ := Prod.mk.inj heq
          have haround := hplaced.around.trans
            (around_record s₁.db (s₁.tick o).now watch.provider.id release)
          have hrec : Recorded (record_seen s₁.db (s₁.tick o).now watch.provider.id
              (baseline_item release)) watch.provider.id release.id
              (· = release.content_fingerprint) :=
            recorded_of_write s₁.db (s₁.tick o).now (baseline_item release) ⟨_, rfl, rfl⟩
          refine safe_mono (safe_deliver_inline hans) ?_
          rintro r s' ⟨haround', hok⟩
          exact ⟨haround.trans haround', fun _ => Or.inl (haround'.kept _ _ (fun _ => rfl) hrec),
            fun h => absurd h hnot,
            fun _ _ => Or.inl (haround'.marked (marked_record s₁.db _ _ release)), hok⟩
        · intro o e s₂ hok₂ h₂
          obtain ⟨hfail, rfl⟩ := stored_error h₂
          exact ⟨hplaced.around, fun h => absurd (hok₂ h) hfail, fun h => absurd h hnot,
            fun _ h => absurd h (by simp), fun h => absurd (hok₂ h) hfail⟩
  rw [deliver_release_eq]
  unfold deliver_after_of
  cases watch.notify_schedule with
  | none => exact henqueue none s rfl
  | some next_after =>
    refine safe_bind (safe_solo_bind ?_ ?_)
    · intro o now s₀ _ h₀
      obtain ⟨rfl, rfl⟩ : o.utc_now = now ∧ s.tick o = s₀ := by
        simpa [machine, exec] using h₀
      exact henqueue (next_after o.utc_now) (s.tick o) rfl
    · intro o e s₀ _ h₀
      exact absurd h₀ (by simp [machine, exec])

/-- What holds after a list of deliverable releases. -/
structure HandledAll (smooth : Prop) (source_id : String) (releases : List Release) (db : Db)
    (r : Except PipelineError Nat) (db' : Db) : Prop where
  kept : ∀ x D, (∀ r ∈ releases, r.id = x → D r.content_fingerprint) →
    Recorded db source_id x D → Recorded db' source_id x D
  on_record : smooth → ∀ x D, (∀ r ∈ releases, r.id = x → D r.content_fingerprint) →
    (∃ r ∈ releases, r.id = x) → Recorded db' source_id x D ∨ DeadRow db source_id x
  untouched : ∀ x, (∀ r ∈ releases, r.id ≠ x) ∨ AllDead db source_id x →
    Untouched source_id x db db'
  marks : ∀ x, (db'.seen source_id x).map (·.content_digest) =
      (db.seen source_id x).map (·.content_digest) ∨
    ∃ r ∈ releases, r.id = x ∧ Marked db' source_id x r.content_fingerprint
  answered : ∀ n, r = .ok n → ∀ r ∈ releases,
    (∃ r' ∈ releases, r'.id = r.id ∧ Marked db' source_id r.id r'.content_fingerprint) ∨
      (Untouched source_id r.id db db' ∧ Mute db source_id r.id r.content_fingerprint)

theorem recorded_mono {D' : String → Prop} (hd : ∀ d, D d → D' d) (h : Recorded db a x D) :
    Recorded db a x D' := by
  rcases h with ⟨k, hk, d, hkd, hD⟩ | ⟨id, r, hr, hsrc, hid, d, hrd, hD⟩
  · exact Or.inl ⟨k, hk, d, hkd, hd d hD⟩
  · exact Or.inr ⟨id, r, hr, hsrc, hid, d, hrd, hd d hD⟩

theorem Handled.untouched {release : Release} {db' : Db} {r : Except PipelineError Bool}
    (h : Handled smooth source_id release db r db') (hx : release.id ≠ x ∨ AllDead db source_id x) :
    Untouched source_id x db db' := by
  by_cases hid : x = release.id
  · subst hid
    rcases hx with hx | hx
    · exact absurd rfl hx
    · exact h.dead hx release.id
  · exact h.around.others x hid

/-- What the head marked, the rest leaves marked or marks anew. -/
theorem HandledAll.marked {d : String} {releases : List Release} {db' : Db}
    {r : Except PipelineError Nat} (h : HandledAll smooth source_id releases db r db')
    (hm : Marked db source_id x d) : Marked db' source_id x d ∨
      ∃ r ∈ releases, r.id = x ∧ Marked db' source_id x r.content_fingerprint :=
  (h.marks x).imp_left (fun hs => hs.trans hm)

theorem handledAll_cons {release : Release} {rest : List Release} {db₁ db' : Db} {b : Bool}
    {r : Except PipelineError Nat} (h : Handled smooth source_id release db (.ok b) db₁)
    (hrest : HandledAll smooth source_id rest db₁ r db') :
    HandledAll smooth source_id (release :: rest) db r db' := by
  -- a mark of the head is there at the end, or one of the rest is
  have hhead : Marked db₁ source_id release.id release.content_fingerprint →
      ∃ r' ∈ release :: rest, r'.id = release.id ∧
        Marked db' source_id release.id r'.content_fingerprint := by
    intro hm
    rcases hrest.marked hm with hm' | ⟨r', hr', hid, hm'⟩
    · exact ⟨release, List.mem_cons_self, rfl, hm'⟩
    · exact ⟨r', List.mem_cons_of_mem _ hr', hid, hm'⟩
  refine ⟨?_, ?_, ?_, ?_, ?_⟩
  · intro x D hD hrec
    refine hrest.kept x D (fun r hr => hD r (List.mem_cons_of_mem _ hr)) ?_
    exact h.around.kept x D (hD release List.mem_cons_self) hrec
  · rintro hsm x D hD ⟨r', hr', rfl⟩
    have hDrest : ∀ r ∈ rest, r.id = r'.id → D r.content_fingerprint :=
      fun r hr => hD r (List.mem_cons_of_mem _ hr)
    by_cases hid : release.id = r'.id
    · -- the head is of this identity: what it recorded the rest keeps
      rw [← hid] at hDrest ⊢
      refine (h.on_record hsm).imp_left (fun hrec => hrest.kept release.id D hDrest ?_)
      refine recorded_mono ?_ hrec
      rintro d rfl
      exact hD release List.mem_cons_self hid
    · have hmem : r' ∈ rest := by
        rcases List.mem_cons.mp hr' with rfl | hr'
        · exact absurd rfl hid
        · exact hr'
      refine (hrest.on_record hsm r'.id D hDrest ⟨r', hmem, rfl⟩).imp_right ?_
      exact (h.around.others r'.id (Ne.symm hid)).symm.deadRow
  · intro x hx
    have hhead : Untouched source_id x db db₁ :=
      h.untouched (hx.imp_left (fun hx => hx release List.mem_cons_self))
    refine hhead.trans (hrest.untouched x ?_)
    exact hx.imp (fun hx r hr => hx r (List.mem_cons_of_mem _ hr)) hhead.allDead
  · intro x
    rcases hrest.marks x with hs | ⟨r', hr', hid, hm⟩
    · rw [hs]
      by_cases hx : x = release.id
      · subst hx
        refine h.around.marks.imp_right (fun hm => ⟨release, List.mem_cons_self, rfl, ?_⟩)
        exact hs.trans hm
      · exact Or.inl (h.around.others x hx).seen
    · exact Or.inr ⟨r', List.mem_cons_of_mem _ hr', hid, hm⟩
  · intro n hn r' hr'
    -- the rest either marks the identity or leaves it as the head left it
    have hlater : ∀ r' ∈ rest, (∃ r'' ∈ release :: rest, r''.id = r'.id ∧
        Marked db' source_id r'.id r''.content_fingerprint) ∨
        (Untouched source_id r'.id db₁ db' ∧
          Mute db₁ source_id r'.id r'.content_fingerprint) := by
      intro r' hr'
      refine (hrest.answered n hn r' hr').imp_left ?_
      rintro ⟨r'', hr'', hid, hm⟩
      exact ⟨r'', List.mem_cons_of_mem _ hr'', hid, hm⟩
    rcases h.answered b rfl with hm | ⟨hsame, hmute⟩
    · rcases List.mem_cons.mp hr' with rfl | hr'
      · exact Or.inl (hhead hm)
      · by_cases hid : r'.id = release.id
        · rw [hid]
          exact Or.inl (hhead hm)
        · rcases hlater r' hr' with hmark | ⟨hun, hmute⟩
          · exact Or.inl hmark
          · have hfirst := h.around.others r'.id hid
            exact Or.inr ⟨hfirst.trans hun, hfirst.symm.mute hmute⟩
    · rcases List.mem_cons.mp hr' with rfl | hr'
      · by_cases hany : ∃ r'' ∈ rest, r''.id = r'.id
        · obtain ⟨r'', hr'', hid⟩ := hany
          rcases hlater r'' hr'' with hmark | ⟨hun, _⟩
          · rw [hid] at hmark
            exact Or.inl hmark
          · rw [hid] at hun
            exact Or.inr ⟨(hsame r'.id).trans hun, hmute⟩
        · have hun := hrest.untouched r'.id
            (Or.inl (fun r'' hr'' hid => hany ⟨r'', hr'', hid⟩))
          exact Or.inr ⟨(hsame r'.id).trans hun, hmute⟩
      · rcases hlater r' hr' with hmark | ⟨hun, hmute'⟩
        · exact Or.inl hmark
        · exact Or.inr ⟨(hsame r'.id).trans hun, (hsame r'.id).symm.mute hmute'⟩

theorem safe_deliver_each (releases : List Release) (sent : Nat) :
    (by_itself smooth).Safe machine w
      (fun r s' => HandledAll smooth watch.provider.id releases s.db r s'.db)
      (deliver_each watch releases sent) s := by
  induction releases generalizing sent s with
  | nil =>
    refine ⟨fun _ _ _ h => h, ?_, fun _ _ => Untouched.refl _, fun _ => Or.inl rfl,
      fun _ _ r hr => absurd hr List.not_mem_nil⟩
    rintro _ _ _ _ ⟨r, hr, _⟩
    exact absurd hr List.not_mem_nil
  | cons release rest ih =>
    refine safe_bind (safe_mono (safe_deliver_release release) ?_)
    intro r s₁ h
    cases r with
    | ok delivered => exact safe_mono (ih _) (fun _ _ hrest => handledAll_cons h hrest)
    | error e =>
      -- the list ends here; a run without store failures never gets here
      have hno : ¬ smooth := by
        intro hsm
        obtain ⟨_, hb⟩ := h.smooth hsm
        exact absurd hb (by simp)
      refine ⟨?_, fun hsm => absurd hsm hno, ?_, ?_, fun _ h => absurd h (by simp)⟩
      · intro x D hD hrec
        exact h.around.kept x D (hD release List.mem_cons_self) hrec
      · intro x hx
        exact h.untouched (hx.imp_left (fun hx => hx release List.mem_cons_self))
      · intro x
        by_cases hx : x = release.id
        · subst hx
          exact h.around.marks.imp_right (fun hm => ⟨release, List.mem_cons_self, rfl, hm⟩)
        · exact Or.inl (h.around.others x hx).seen

end Deliver

end xrelease.recorded
