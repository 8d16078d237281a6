-- Which tables a call of the engine writes. A call that fails, and one that only reads, leaves the
-- database as it is. Of the outbox a call inserts a row or makes one UPDATE, which leaves every
-- row there.
import Xrelease.Engine

namespace xrelease.engine

open xrelease.model xrelease.store keyed

/-! ## The statements by what they write -/

section Classes

variable {γ : Type} (op : Call γ)

/-- The calls that write `source_state`. -/
def writes_state : Bool :=
  match op with
  | .touch_polled _ | .set_latest_release_tag _ _ | .set_etag _ _ | .record_seen_batch _ _ => true
  | _ => false

/-- The calls that write `seen_release`. -/
def writes_seen : Bool :=
  match op with
  | .enrich_seen_metadata _ _ | .record_seen _ _ | .record_seen_batch _ _
  | .complete_notification _ _ _ => true
  | _ => false

/-- The calls that write the ledger of the sinks. -/
def writes_sinks : Bool :=
  match op with
  | .reopen_outbox _ _ _ | .ensure_sink_deliveries _ _ | .complete_sink_delivery _ _
  | .fail_sink_delivery _ _ _ | .abandon_retryable_sinks _ _ _ | .requeue_dead_outbox => true
  | _ => false

/-- The call that adds a row to the outbox. -/
def inserts : Bool :=
  match op with
  | .insert_outbox _ _ _ => true
  | _ => false

/-- The rows that the UPDATE of a call finds. -/
def hits (o : Oracle) (db : Db) (now : DateTime) (id : Nat) (r : OutboxRow) : Bool :=
  match op with
  | .reopen_outbox _ _ j => id = j && r.status = .sent
  | .claim_outbox_batch limit _ =>
    (claim_batch_ids db now o.order o.back o.locked limit).contains id
  | .claim_outbox_row j _ => id = j && r.leasable now
  | .release_outbox_lease j | .apply_delivery_backoff j _ | .defer_delivery j _
  | .fail_notification j _ => id = j
  | .complete_notification j _ _ | .mark_outbox_failed j => id = j && r.status.retryable
  | .mark_outbox_dead j => id = j && r.status ≠ .dead
  | .requeue_dead_outbox => r.status = .dead
  | .finalize_exhausted_outbox => r.status.retryable && decide (r.attempts ≥ OUTBOX_MAX_ATTEMPTS)
  | _ => false

/-- What the UPDATE of a call makes of a row. -/
def rewritten (now : DateTime) (r : OutboxRow) : OutboxRow :=
  match op with
  | .reopen_outbox event om _ => r.reopened event om
  | .claim_outbox_batch _ lease_secs | .claim_outbox_row _ lease_secs =>
    r.leased (now + secs lease_secs)
  | .release_outbox_lease _ => { r with locked_until := none }
  | .apply_delivery_backoff _ backoff_secs =>
    { r with locked_until := some (now + secs backoff_secs), attempts := r.attempts + 1 }
  | .defer_delivery _ backoff_secs => r.leased (now + secs backoff_secs)
  | .fail_notification _ error => r.spent error
  | .complete_notification _ _ _ => r.completed now
  | .mark_outbox_failed _ =>
    { r with status := .failed, last_error := some "partial sink delivery failure" }
  | .mark_outbox_dead _ | .finalize_exhausted_outbox => { r with status := .dead }
  | .requeue_dead_outbox => r.requeued
  | _ => r

end Classes

/-! ## What a call leaves -/

variable {β : Type} {op : Call β} {w : Nat} {o : Oracle} {s : World}

theorem failed_exec {e : String} (h : o.fails = some e) : (exec w op o s).2.db = s.db := by
  cases op <;> simp only [exec, stored, h]
  all_goals first
    | rfl
    | (split <;> rfl)

theorem ensure_same {db db' : Db} {id : Nat} {sinks : List (Nat × String)}
    (h : ensure_sink_deliveries db id sinks = some db') :
    db'.source_state = db.source_state ∧ db'.seen_release = db.seen_release ∧
      db'.notification_outbox = db.notification_outbox := by
  unfold ensure_sink_deliveries at h
  split at h
  · rw [← Option.some.inj h]
    exact ⟨rfl, rfl, rfl⟩
  · split at h
    · cases h
    · rw [← Option.some.inj h]
      exact ⟨rfl, rfl, rfl⟩

theorem insert_same (db : Db) (now : DateTime) (event : Event) (identity : String)
    (om : OutboxMeta) :
    (insert_outbox db now event identity om).2.source_state = db.source_state ∧
      (insert_outbox db now event identity om).2.seen_release = db.seen_release := by
  unfold insert_outbox
  split <;> exact ⟨rfl, rfl⟩

theorem reopen_same (db : Db) (event : Event) (om : OutboxMeta) (id : Nat) :
    (reopen_outbox db event om id).2.source_state = db.source_state ∧
      (reopen_outbox db event om id).2.seen_release = db.seen_release := by
  unfold reopen_outbox
  split <;> exact ⟨rfl, rfl⟩

theorem state_exec (h : writes_state op = false) :
    (exec w op o s).2.db.source_state = s.db.source_state := by
  cases hfail : o.fails with
  | some e => rw [failed_exec hfail]
  | none =>
    cases op <;> simp only [exec, stored, hfail]
    case insert_outbox event identity om => split <;> exact (insert_same _ _ _ _ _).1
    case reopen_outbox event om id => split <;> exact (reopen_same _ _ _ _).1
    case complete_notification id source_id seen =>
      have hsame : (complete_notification s.db (s.tick o).now id source_id seen).2.source_state =
          s.db.source_state := by
        unfold complete_notification
        split <;> rfl
      split <;> exact hsame
    case ensure_sink_deliveries id sinks =>
      split
      · rfl
      · rename_i hdb
        exact (ensure_same hdb).1
    all_goals first
      | rfl
      | (split <;> rfl)
      | cases h

theorem seen_exec (h : writes_seen op = false) :
    (exec w op o s).2.db.seen_release = s.db.seen_release := by
  cases hfail : o.fails with
  | some e => rw [failed_exec hfail]
  | none =>
    cases op <;> simp only [exec, stored, hfail]
    case insert_outbox event identity om => split <;> exact (insert_same _ _ _ _ _).2
    case reopen_outbox event om id => split <;> exact (reopen_same _ _ _ _).2
    case ensure_sink_deliveries id sinks =>
      split
      · rfl
      · rename_i hdb
        exact (ensure_same hdb).2.1
    all_goals first
      | rfl
      | (split <;> rfl)
      | cases h

theorem sink_exec (h : writes_sinks op = false) (id index : Nat) :
    (exec w op o s).2.db.sink id index = s.db.sink id index := by
  cases hfail : o.fails with
  | some e => rw [failed_exec hfail]
  | none =>
    cases op <;> simp only [exec, stored, hfail]
    case record_seen_batch => simp [World.note, World.wrote, World.tick]
    case insert_outbox => split <;> simp [World.offer, World.note, World.wrote, World.tick]
    case complete_notification j source_id seen =>
      have hsame : (complete_notification s.db (s.tick o).now j source_id seen).2.sink id index =
          s.db.sink id index := by
        unfold complete_notification
        split <;> rfl
      split <;> exact hsame
    all_goals first
      | rfl
      | (split <;> rfl)
      | cases h

/-! ## The rows of the outbox -/

/-- An UPDATE of one row that does not qualify leaves the rows alone. -/
theorem update_missed {db : Db} {id j : Nat} {q : OutboxRow → Bool} (f : OutboxRow → OutboxRow)
    (h : ¬ (db.parent j).any q = true) :
    db.parent id = (db.parent id).map (fun r => if (id = j && q r) = true then f r else r) := by
  cases hr : db.parent id with
  | none => rfl
  | some r =>
    have hmiss : (id = j && q r) = false := by
      rw [Bool.and_eq_false_iff, decide_eq_false_iff_not]
      by_cases hid : id = j
      · subst hid
        exact Or.inr (by simpa [hr] using h)
      · exact Or.inl hid
    simp only [Option.map_some, hmiss, Bool.false_eq_true, if_false]

/-- A call that adds no row makes its UPDATE. -/
theorem parent_exec (h : inserts op = false) (ho : o.fails = none) (id : Nat) :
    (exec w op o s).2.db.parent id = (s.db.parent id).map (fun r =>
      if hits op o s.db (s.tick o).now id r then rewritten op (s.tick o).now r else r) := by
  have rest {db : Db} (hdb : db.parent id = s.db.parent id) :
      db.parent id = (s.db.parent id).map (fun r => if false then r else r) := by
    simp [hdb]
  cases op <;> simp only [exec, stored, ho]
  case insert_outbox => cases h
  case record_seen_batch => exact rest (by simp [World.note, World.wrote, World.tick])
  case reopen_outbox event om j =>
    have hupdate : (reopen_outbox s.db event om j).2.parent id = (s.db.parent id).map (fun r =>
        if id = j && r.status = .sent then r.reopened event om else r) := by
      unfold reopen_outbox
      split
      · simp
      · rename_i hmiss
        exact update_missed (q := fun r => r.status = .sent) (·.reopened event om) hmiss
    split <;> exact hupdate
  case complete_notification j source_id seen =>
    have hupdate : (complete_notification s.db (s.tick o).now j source_id seen).2.parent id =
        (s.db.parent id).map (fun r =>
          if id = j && r.status.retryable then r.completed (s.tick o).now else r) := by
      unfold complete_notification
      split
      · simp
      · rename_i hmiss
        exact update_missed (·.completed (s.tick o).now) hmiss
    split <;> exact hupdate
  case requeue_dead_outbox =>
    change ((requeue_dead_outbox s.db).2).parent id = _
    simp only [requeue_dead_outbox, Db.parent_updateSinks, Db.parent_updateOutbox]
    cases hr : s.db.parent id <;> simp [hits, rewritten]
  case ensure_sink_deliveries j sinks =>
    split
    · exact rest rfl
    · rename_i hdb
      exact rest (congrArg (fun rows => rows.get id) (ensure_same hdb).2.2)
  case claim_outbox_row j lease_secs => split <;> exact Db.parent_updateOutbox _ _ _ _
  all_goals first
    | exact Db.parent_updateOutbox _ _ _ _
    | exact rest rfl
    | (split <;> exact rest rfl)

/-- The rows that a call without an INSERT leaves are the rows that were there. -/
theorem no_row_exec (h : inserts op = false) {id : Nat} (hr : s.db.parent id = none) :
    (exec w op o s).2.db.parent id = none := by
  cases ho : o.fails with
  | some e => rwa [failed_exec ho]
  | none => rw [parent_exec h ho, hr, Option.map_none]

/-- A row stays as it is, or the call's UPDATE finds it. -/
theorem row_exec {id : Nat} {r : OutboxRow} (hr : s.db.parent id = some r) :
    (exec w op o s).2.db.parent id = some r ∨
      o.fails = none ∧ hits op o s.db (s.tick o).now id r = true ∧
        (exec w op o s).2.db.parent id = some (rewritten op (s.tick o).now r) := by
  cases ho : o.fails with
  | some e => exact Or.inl (by rwa [failed_exec ho])
  | none =>
    cases hins : inserts op with
    | true =>
      cases op
      case insert_outbox event identity om =>
        have hkept := parent_insert_outbox s.db (s.tick o).now id event identity om hr
        simp only [exec, stored, ho]
        split <;> exact Or.inl hkept
      all_goals cases hins
    | false =>
      rw [parent_exec hins ho, hr, Option.map_some]
      by_cases hhit : hits op o s.db (s.tick o).now id r = true
      · rw [if_pos hhit]
        exact Or.inr ⟨rfl, hhit, rfl⟩
      · rw [if_neg hhit]
        exact Or.inl rfl

end xrelease.engine
