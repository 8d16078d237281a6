-- Dead-letter reports: over every run, each step that makes outbox rows dead is answered by one
-- report that covers them, the next thing its worker does, as long as a failed attempt never
-- jumps over the cap or falls on a row that is dead already.
import Xrelease.Footprint
import Xrelease.Spoken

namespace xrelease.reported

open xrelease.store xrelease.engine xrelease.outbox xrelease.pipeline xrelease.spoken
open keyed calls calls.Prog

/-! ## Deaths -/

def is_dead (db : Db) (id : Nat) : Bool := (db.parent id).any (fun r => r.status = .dead)

/-- The rows that are dead after a step and were not before. -/
def died_in (db db' : Db) : List Nat :=
  (db'.notification_outbox.select (fun id r => r.status = .dead && !is_dead db id)).map Prod.fst

def dead_rows (db : Db) : List Nat :=
  (db.notification_outbox.select (fun _ r => r.status = .dead)).map Prod.fst

theorem is_dead_iff (db : Db) (id : Nat) :
    is_dead db id = true ↔ ∃ r, db.parent id = some r ∧ r.status = .dead := by
  unfold is_dead
  rw [Option.any_eq_true]
  simp

theorem mem_died_in (db db' : Db) (id : Nat) :
    id ∈ died_in db db' ↔ is_dead db' id = true ∧ is_dead db id = false := by
  unfold died_in
  rw [List.mem_map, is_dead_iff]
  constructor
  · rintro ⟨⟨j, r⟩, hm, rfl⟩
    rw [Serial.mem_select, Bool.and_eq_true, decide_eq_true_eq, Bool.not_eq_true'] at hm
    exact ⟨⟨r, hm.1, hm.2.1⟩, hm.2.2⟩
  · rintro ⟨⟨r, hr, hs⟩, hnot⟩
    refine ⟨(id, r), ?_, rfl⟩
    rw [Serial.mem_select, Bool.and_eq_true, decide_eq_true_eq, Bool.not_eq_true']
    exact ⟨hr, hs, hnot⟩

theorem mem_dead_rows (db : Db) (id : Nat) : id ∈ dead_rows db ↔ is_dead db id = true := by
  unfold dead_rows
  rw [List.mem_map, is_dead_iff]
  constructor
  · rintro ⟨⟨j, r⟩, hm, rfl⟩
    rw [Serial.mem_select, decide_eq_true_eq] at hm
    exact ⟨r, hm⟩
  · rintro ⟨r, hr⟩
    refine ⟨(id, r), ?_, rfl⟩
    rw [Serial.mem_select, decide_eq_true_eq]
    exact hr

theorem died_in_nodup (db db' : Db) : (died_in db db').Nodup := Serial.select_nodup _ _

variable {db : Db} {β : Type} {op : Call β} {p : Observed Call PipelineError World Hand}

theorem died_in_none {db' : Db} (h : ∀ id, is_dead db' id = true → is_dead db id = true) :
    died_in db db' = [] := by
  rw [List.eq_nil_iff_forall_not_mem]
  intro id hid
  rw [mem_died_in] at hid
  rw [h id hid.1] at hid
  exact absurd hid.2 (by simp)

theorem died_in_one {db' : Db} {id : Nat}
    (h : ∀ j, is_dead db' j = true ∧ is_dead db j = false ↔ j = id) : died_in db db' = [id] := by
  have hperm : (died_in db db').Perm [id] := by
    rw [List.perm_ext_iff_of_nodup (died_in_nodup db db') (List.nodup_singleton id)]
    intro j
    rw [mem_died_in, h, List.mem_singleton]
  exact List.perm_singleton.mp hperm

/-! ## What the calls do to the dead -/

/-- Neither is a dead row's attempt spent below the cap, nor that of another row beyond it. -/
def CountsUp (db : Db) (id : Nat) : Prop :=
  ∀ r, db.parent id = some r → (r.status = .dead ↔ OUTBOX_MAX_ATTEMPTS ≤ r.attempts)

/-- What is asked of a call: a failed attempt falls on a live row below the cap or on a dead one at
it, and nothing revives dead rows. -/
def timely {β : Type} (op : Call β) (o : Oracle) (s : World) : Prop :=
  match op with
  | .fail_notification id _ => o.fails = none → CountsUp s.db id
  | .requeue_dead_outbox => o.fails ≠ none
  | _ => True

/-- The incident that a call's answer speaks of. -/
def incident_of {β : Type} (op : Call β) (r : Except PipelineError β) : Option Incident :=
  match op with
  | .fail_notification id _ =>
    match r with
    | .ok true => some (.row id)
    | _ => none
  | .mark_outbox_dead id =>
    match r with
    | .ok true => some (.row id)
    | _ => none
  | .finalize_exhausted_outbox =>
    match r with
    | .ok marked => if marked > 0 then some (.sweep marked) else none
    | _ => none
  | _ => none

/-- The rows an incident is about. -/
def About (incident : Option Incident) (ids : List Nat) : Prop :=
  match incident with
  | none => ids = []
  | some (.row id) => ids = [id]
  | some (.sweep count) => ids.length = count ∧ ids ≠ []

theorem is_dead_updateOutbox (db : Db) (p : Nat → OutboxRow → Bool) (f : OutboxRow → OutboxRow)
    (id : Nat) : is_dead (db.updateOutbox p f) id =
      (db.parent id).any (fun r => (if p id r then f r else r).status = .dead) := by
  unfold is_dead
  rw [Db.parent_updateOutbox, Option.any_map]

/-- An update that leaves every row's death as it is. -/
theorem is_dead_same {p : Nat → OutboxRow → Bool} {f : OutboxRow → OutboxRow}
    (h : ∀ id r, db.parent id = some r → p id r = true →
      ((f r).status = .dead ↔ r.status = .dead)) (id : Nat) :
    is_dead (db.updateOutbox p f) id = is_dead db id := by
  rw [is_dead_updateOutbox]
  unfold is_dead
  cases hr : db.parent id with
  | none => rfl
  | some r =>
    simp only [Option.any_some]
    split
    · rename_i hp
      rw [decide_eq_decide]
      exact h id r hr hp
    · rfl

/-- An update of one row that makes it dead, or not. -/
theorem died_in_update {id : Nat} {p : Nat → OutboxRow → Bool} {f : OutboxRow → OutboxRow}
    {r : OutboxRow} (hr : db.parent id = some r) (hp : ∀ j r, p j r = true → j = id)
    (hid : p id r = true) (hlive : r.status ≠ .dead) (hdead : (f r).status = .dead) :
    died_in db (db.updateOutbox p f) = [id] := by
  apply died_in_one
  intro j
  rw [is_dead_updateOutbox]
  by_cases hj : j = id
  · subst hj
    unfold is_dead
    simp [hr, hid, hlive, hdead]
  · have hpj : ∀ r, p j r = false := by
      intro r'
      by_contra hc
      exact hj (hp j r' (by simpa using hc))
    unfold is_dead
    simp only [hpj, Bool.false_eq_true, if_false, hj, iff_false, not_and, Bool.not_eq_false]
    exact fun h => h

/-- What one failed attempt does: it is reported to have killed the row exactly when it did. -/
theorem fail_deaths {id : Nat} (h : CountsUp db id) (error : String) :
    (∀ j, is_dead db j = true → is_dead (fail_notification db id error).2 j = true) ∧
    died_in db (fail_notification db id error).2 =
      if (fail_notification db id error).1 then [id] else [] := by
  unfold fail_notification
  simp only [Db.parent_updateOutbox, Option.any_map]
  have hp : ∀ (j : Nat) (r : OutboxRow), decide (j = id) = true → j = id :=
    fun j r hj => of_decide_eq_true hj
  cases hr : db.parent id with
  | none =>
    have hsame : ∀ j, is_dead (db.updateOutbox (fun j _ => j = id) (·.spent error)) j =
        is_dead db j := by
      apply is_dead_same
      intro j r hj hc
      rw [hp j r hc, hr] at hj
      cases hj
    exact ⟨fun j hj => (hsame j).trans hj, died_in_none (fun j hj => (hsame j).symm.trans hj)⟩
  | some r =>
    have hcount := h r hr
    by_cases hdead : r.status = .dead
    · have hcap := hcount.mp hdead
      have hsame : ∀ j, is_dead (db.updateOutbox (fun j _ => j = id) (·.spent error)) j =
          is_dead db j := by
        apply is_dead_same
        intro j r' hj hc
        rw [hp j r' hc, hr] at hj
        obtain rfl := Option.some.inj hj
        have : OUTBOX_MAX_ATTEMPTS ≤ r.attempts + 1 := by omega
        simp [OutboxRow.spent, this, hdead]
      refine ⟨fun j hj => (hsame j).trans hj, ?_⟩
      have hno : r.attempts + 1 ≠ OUTBOX_MAX_ATTEMPTS := by omega
      rw [died_in_none (fun j hj => (hsame j).symm.trans hj)]
      simp [OutboxRow.spent, hno]
    · have hbelow : r.attempts < OUTBOX_MAX_ATTEMPTS := by
        by_contra hc
        exact hdead (hcount.mpr (by omega))
      have hkeeps : ∀ j, is_dead db j = true →
          is_dead (db.updateOutbox (fun j _ => j = id) (·.spent error)) j = true := by
        intro j hj
        rw [is_dead_updateOutbox]
        have hji : j ≠ id := by
          rintro rfl
          rw [is_dead_iff] at hj
          obtain ⟨r', hr', hs⟩ := hj
          rw [hr] at hr'
          exact hdead (Option.some.inj hr' ▸ hs)
        unfold is_dead at hj
        simpa [hji] using hj
      refine ⟨hkeeps, ?_⟩
      by_cases hlast : r.attempts + 1 = OUTBOX_MAX_ATTEMPTS
      · rw [died_in_update hr hp (by simp) hdead (by simp [OutboxRow.spent, hlast])]
        simp [OutboxRow.spent, hlast]
      · have hsame : ∀ j, is_dead (db.updateOutbox (fun j _ => j = id) (·.spent error)) j =
            is_dead db j := by
          apply is_dead_same
          intro j r' hj hc
          rw [hp j r' hc, hr] at hj
          obtain rfl := Option.some.inj hj
          have : ¬ OUTBOX_MAX_ATTEMPTS ≤ r.attempts + 1 := by omega
          simp [OutboxRow.spent, this, hdead]
        rw [died_in_none (fun j hj => (hsame j).symm.trans hj)]
        simp [OutboxRow.spent, hlast]

theorem mark_deaths (db : Db) (id : Nat) :
    (∀ j, is_dead db j = true → is_dead (mark_outbox_dead db id).2 j = true) ∧
    died_in db (mark_outbox_dead db id).2 = if (mark_outbox_dead db id).1 then [id] else [] := by
  unfold mark_outbox_dead
  have hkeeps : ∀ j, is_dead db j = true → is_dead (db.updateOutbox
      (fun j r => j = id && r.status ≠ .dead) (fun r => { r with status := .dead })) j = true := by
    intro j hj
    rw [is_dead_updateOutbox]
    rw [is_dead_iff] at hj
    obtain ⟨r, hr, hs⟩ := hj
    simp [hr, hs]
  refine ⟨hkeeps, ?_⟩
  by_cases hlive : ∃ r, db.parent id = some r ∧ r.status ≠ .dead
  · obtain ⟨r, hr, hs⟩ := hlive
    rw [died_in_update hr (fun j r hj => by simp at hj; exact hj.1) (by simp [hs]) hs rfl]
    simp [hr, hs]
  · push Not at hlive
    have hsame : ∀ j, is_dead (db.updateOutbox (fun j r => j = id && r.status ≠ .dead)
        (fun r => { r with status := .dead })) j = is_dead db j := by
      apply is_dead_same
      intro j r hr hp
      simp only [Bool.and_eq_true, decide_eq_true_eq] at hp
      exact absurd (hlive r (hp.1 ▸ hr)) hp.2
    rw [died_in_none (fun j hj => (hsame j).symm.trans hj)]
    cases hr : db.parent id with
    | none => rfl
    | some r => simp [hlive r hr]

theorem finalize_deaths (db : Db) :
    (∀ j, is_dead db j = true → is_dead (finalize_exhausted_outbox db).2 j = true) ∧
    (died_in db (finalize_exhausted_outbox db).2).length = (finalize_exhausted_outbox db).1 := by
  unfold finalize_exhausted_outbox
  constructor
  · intro j hj
    rw [is_dead_updateOutbox]
    rw [is_dead_iff] at hj
    obtain ⟨r, hr, hs⟩ := hj
    simp [hr, hs, Status.retryable]
  · have hperm : (died_in db (db.updateOutbox
        (fun _ r => r.status.retryable && decide (r.attempts ≥ OUTBOX_MAX_ATTEMPTS))
        (fun r => { r with status := .dead }))).Perm
        ((db.notification_outbox.select (fun _ r => r.status.retryable &&
          decide (r.attempts ≥ OUTBOX_MAX_ATTEMPTS))).map Prod.fst) := by
      rw [List.perm_ext_iff_of_nodup (died_in_nodup _ _) (Serial.select_nodup _ _)]
      intro id
      rw [mem_died_in, is_dead_updateOutbox, List.mem_map]
      constructor
      · rintro ⟨hd, hl⟩
        cases hr : db.parent id with
        | none => simp [hr] at hd
        | some r =>
          unfold is_dead at hl
          rw [hr] at hd hl
          refine ⟨(id, r), ?_, rfl⟩
          rw [Serial.mem_select]
          refine ⟨hr, ?_⟩
          by_contra hc
          rw [Bool.not_eq_true] at hc
          simp only [Option.any_some, hc, Bool.false_eq_true, if_false] at hd hl
          rw [hd] at hl
          cases hl
      · rintro ⟨⟨j, r⟩, hm, rfl⟩
        rw [Serial.mem_select] at hm
        obtain ⟨hr, hp⟩ := hm
        have hr : db.parent j = some r := hr
        have hlive : r.status ≠ .dead := by
          rintro hs
          simp [hs, Status.retryable] at hp
        unfold is_dead
        simp only [hr, Option.any_some, hp, if_true]
        simp [hlive]
    have := hperm.length_eq
    rw [List.length_map] at this
    exact this

/-- What a call does to the dead: none is revived, and the new ones are what its answer says. -/
structure Deaths {β : Type} (op : Call β) (r : Except PipelineError β) (db db' : Db) : Prop where
  keeps : ∀ j, is_dead db j = true → is_dead db' j = true
  about : About (incident_of op r) (died_in db db')

theorem Deaths.of_same {r : Except PipelineError β} {db' : Db} (hop : incident_of op r = none)
    (h : ∀ id, is_dead db' id = is_dead db id) :
    Deaths op r db db' where
  keeps := fun j hj => (h j).trans hj
  about := by
    rw [hop]
    exact died_in_none (fun j hj => (h j).symm.trans hj)

theorem is_dead_insert (db : Db) (now : model.DateTime) (event : Event) (identity : String)
    (om : OutboxMeta) (id : Nat) :
    is_dead (insert_outbox db now event identity om).2 id = is_dead db id := by
  unfold insert_outbox
  split
  · rfl
  · unfold is_dead Db.parent
    simp only
    rw [Serial.get_insert]
    split
    · rename_i hid
      rw [hid, Serial.get_next]
      rfl
    · rfl

/-- The calls that can make a row dead, or revive it. -/
def grave {β : Type} (op : Call β) : Bool :=
  match op with
  | .fail_notification _ _ | .mark_outbox_dead _ | .finalize_exhausted_outbox
  | .requeue_dead_outbox => true
  | _ => false

/-- The others leave the dead alone. -/
theorem is_dead_exec (w : Nat) (o : Oracle) (s : World) (h : grave op = false) (j : Nat) :
    is_dead (exec w op o s).2.db j = is_dead s.db j := by
  cases ho : o.fails with
  | some e => rw [failed_exec ho]
  | none =>
    cases hins : inserts op with
    | true =>
      cases op
      case insert_outbox event identity om =>
        simp only [exec, stored, ho]
        split <;> exact is_dead_insert s.db _ event identity om j
      all_goals cases hins
    | false =>
      unfold is_dead
      rw [parent_exec hins ho, Option.any_map]
      congr 1
      funext r
      have hretryable : r.status.retryable = true → r.status ≠ .dead := by
        rintro hr hs
        simp [hs, Status.retryable] at hr
      split
      · rename_i hhit
        cases op <;> simp only [hits, Bool.and_eq_true, decide_eq_true_eq] at hhit
        case reopen_outbox => simp [rewritten, OutboxRow.reopened, hhit.2]
        case complete_notification => simp [rewritten, OutboxRow.completed, hretryable hhit.2]
        case mark_outbox_failed => simp [rewritten, hretryable hhit.2]
        all_goals first
          | rfl
          | cases h
      · rfl

theorem deaths_exec (w : Nat) (op : Call β) (o : Oracle) (s : World) (h : timely op o s) :
    Deaths op (exec w op o s).1 s.db (exec w op o s).2.db := by
  cases op
  case fail_notification id error =>
    cases ho : o.fails with
    | some e =>
      simp only [exec, stored, ho]
      exact Deaths.of_same rfl (fun _ => rfl)
    | none =>
      obtain ⟨hkeeps, hdied⟩ := fail_deaths (h ho) error
      simp only [exec, stored, ho]
      refine ⟨hkeeps, ?_⟩
      change About (incident_of (.fail_notification id error)
        (.ok (fail_notification s.db id error).1)) (died_in s.db (fail_notification s.db id error).2)
      rw [hdied]
      cases (fail_notification s.db id error).1 <;> rfl
  case mark_outbox_dead id =>
    cases ho : o.fails with
    | some e =>
      simp only [exec, stored, ho]
      exact Deaths.of_same rfl (fun _ => rfl)
    | none =>
      obtain ⟨hkeeps, hdied⟩ := mark_deaths s.db id
      simp only [exec, stored, ho]
      refine ⟨hkeeps, ?_⟩
      change About (incident_of (.mark_outbox_dead id) (.ok (mark_outbox_dead s.db id).1))
        (died_in s.db (mark_outbox_dead s.db id).2)
      rw [hdied]
      cases (mark_outbox_dead s.db id).1 <;> rfl
  case finalize_exhausted_outbox =>
    cases ho : o.fails with
    | some e =>
      simp only [exec, stored, ho]
      exact Deaths.of_same rfl (fun _ => rfl)
    | none =>
      obtain ⟨hkeeps, hdied⟩ := finalize_deaths s.db
      simp only [exec, stored, ho]
      refine ⟨hkeeps, ?_⟩
      change About (if (finalize_exhausted_outbox s.db).1 > 0 then
        some (.sweep (finalize_exhausted_outbox s.db).1) else none)
        (died_in s.db (finalize_exhausted_outbox s.db).2)
      split
      · rename_i hpos
        exact ⟨hdied, List.ne_nil_of_length_pos (by omega)⟩
      · exact List.eq_nil_of_length_eq_zero (by omega)
  case requeue_dead_outbox =>
    obtain ⟨e, ho⟩ := Option.ne_none_iff_exists'.mp h
    simp only [exec, stored, ho]
    exact Deaths.of_same rfl (fun _ => rfl)
  all_goals exact Deaths.of_same rfl (is_dead_exec w o s rfl)

/-! ## The log of a run -/

inductive Entry where
  /-- A step of the worker made these rows dead. -/
  | died (w : Nat) (ids : List Nat)
  /-- The worker sent a dead-letter report; the rows that were dead at that moment. -/
  | told (w : Nat) (title body : String) (dead : List Nat)
deriving DecidableEq

def Entry.worker : Entry → Nat
  | .died w _ => w
  | .told w _ _ _ => w

/-- A dead-letter report, for the call that makes it. -/
def told_by {β : Type} (op : Call β) : Option (String × String) :=
  match op with
  | .emit_ops_alert title body => if is_dead_letter title then some (title, body) else none
  | _ => none

/-- What a step adds to the log. A worker that vanishes and a change from outside touch no row. -/
def entries (p : Workers) : Move Oracle Outside → List Entry
  | .work w o =>
    match p.worker w with
    | .call op _ =>
      let ids := died_in p.state.db (exec w op o p.state).2.db
      (if ids = [] then [] else [.died w ids]) ++
        (told_by op).toList.map (fun t => .told w t.1 t.2 (dead_rows p.state.db))
    | .done _ => []
    | .fail _ => []
  | .crash _ => []
  | .outside _ => []

def log (p : Workers) : List (Move Oracle Outside) → List Entry
  | [] => []
  | m :: ms => entries p m ++ log (p.step machine m) ms

/-- The part of a worker. -/
def log_of (w : Nat) (l : List Entry) : List Entry := l.filter (fun e => e.worker = w)

/-- The report speaks of these rows: of the one row by its number, of a sweep by the count. -/
def Covers (ids : List Nat) (title body : String) : Prop :=
  (∃ id, ids = [id] ∧ Reports (.row id) title body) ∨ Reports (.sweep ids.length) title body

/-- Deaths and reports in turn: each report is for the deaths before it, all of whose rows are
dead at that moment. `pending` are the rows without a report so far. -/
inductive Answered : Option (List Nat) → List Entry → Prop where
  | nothing : Answered none []
  | died {l : List Entry} (w : Nat) (ids : List Nat) (h : Answered none l) :
      Answered (some ids) (l ++ [.died w ids])
  | told {l : List Entry} {ids : List Nat} (w : Nat) {title body : String} {dead : List Nat}
      (h : Answered (some ids) l) (hc : Covers ids title body) (hd : ∀ id ∈ ids, id ∈ dead) :
      Answered none (l ++ [.told w title body dead])

/-- The dead-letter report a program is about to make. -/
def next_report : Work Unit → Option (String × String)
  | .call op _ => told_by op
  | .done _ => none
  | .fail _ => none

/-- Each step of a worker that makes rows dead has its one report, or the report is the next
thing the worker does; and there is no other report. -/
def OneReportPerDeath (p : Workers) (moves : List (Move Oracle Outside)) : Prop :=
  ∀ w, ∃ pending, Answered pending (log_of w (log p moves)) ∧
    ∀ ids, pending = some ids → ∃ title body,
      next_report ((p.run machine moves).worker w) = some (title, body) ∧ Covers ids title body

/-- The steps in question: every failed attempt counts up, nothing revives the dead, and no worker
vanishes right before its report. -/
def Timely (p : Workers) : Move Oracle Outside → Prop
  | .work w o =>
    match p.worker w with
    | .call op _ => timely op o p.state
    | .done _ => True
    | .fail _ => True
  | .crash w => next_report (p.worker w) = none
  | .outside _ => True

/-! ## The law -/

/-- What a worker owes is what its log lacks, and those rows are still dead. -/
def Owes (owed : Option Incident) (pending : Option (List Nat)) (db : Db) : Prop :=
  (owed = none ∧ pending = none) ∨ ∃ incident ids, owed = some incident ∧ pending = some ids ∧
    About (some incident) ids ∧ ∀ id ∈ ids, is_dead db id = true

theorem Owes.keeps {owed : Option Incident} {pending : Option (List Nat)} {db' : Db}
    (h : Owes owed pending db) (hk : ∀ j, is_dead db j = true → is_dead db' j = true) :
    Owes owed pending db' := by
  rcases h with h | ⟨incident, ids, ho, hp, ha, hd⟩
  · exact Or.inl h
  · exact Or.inr ⟨incident, ids, ho, hp, ha, fun id hid => hk id (hd id hid)⟩

theorem covers_of_about {incident : Incident} {ids : List Nat} {title body : String}
    (ha : About (some incident) ids) (hr : Reports incident title body) :
    Covers ids title body := by
  cases incident with
  | row id => exact Or.inl ⟨id, ha, hr⟩
  | sweep count => exact Or.inr (ha.1 ▸ hr)

theorem told_by_pays {incident : Incident} (h : pays incident op) :
    ∃ title body, told_by op = some (title, body) ∧ Reports incident title body := by
  cases op
  case emit_ops_alert title body =>
    exact ⟨title, body, if_pos (report_is_dead_letter h), h⟩
  all_goals exact False.elim h

theorem told_by_asks {g : Hand} (h : asks g op) : told_by op = none := by
  cases op
  case emit_ops_alert title body =>
    have hnot : is_dead_letter title = false := h
    simp [told_by, hnot]
  all_goals rfl

theorem owed_after {g : Hand} (hg : g.owed = none) (op : Call β) (r : Except PipelineError β) :
    (after g op r).owed = incident_of op r := by
  cases op
  case finalize_exhausted_outbox =>
    cases r with
    | error e => exact hg
    | ok marked =>
      simp only [after, incident_of]
      split
      · rfl
      · exact hg
  all_goals
    simp only [after, incident_of]
    repeat' split
    all_goals first
      | exact hg
      | rfl
      | exact absurd rfl ‹_›

theorem incident_of_told {t : String × String} (h : told_by op = some t)
    (r : Except PipelineError β) : incident_of op r = none := by
  cases op <;> first | rfl | cases h

theorem paid_after {t : String × String} (h : told_by op = some t) (g : Hand)
    (r : Except PipelineError β) : (after g op r).owed = none := by
  cases op
  case emit_ops_alert title body =>
    simp only [told_by] at h
    split at h
    · rename_i hd
      simp [after, hd]
    · cases h
  all_goals cases h

/-- A worker that owes a report is about to make it. -/
theorem owed_next (hk : p.Keeps protocol (fun g => g.owed = none)) {w : Nat} {incident : Incident}
    (ho : (p.ghost w).owed = some incident) :
    ∃ title body, next_report (p.pool.worker w) = some (title, body) ∧
      Reports incident title body := by
  have h := hk w
  cases hw : p.pool.worker w with
  | done a =>
    rw [hw] at h
    have : (p.ghost w).owed = none := h
    rw [ho] at this
    cases this
  | fail e =>
    rw [hw] at h
    have : (p.ghost w).owed = none := h
    rw [ho] at this
    cases this
  | call op next =>
    have hmay : may (p.ghost w) op := hk.may hw
    unfold may at hmay
    rw [ho] at hmay
    exact told_by_pays hmay

/-- The log so far, worker by worker, against what each owes. -/
def Balanced (p : Observed Call PipelineError World Hand) (l : List Entry) : Prop :=
  ∀ w, ∃ pending, Answered pending (log_of w l) ∧
    Owes (p.ghost w).owed pending p.pool.state.db

theorem log_of_append (w : Nat) (l l' : List Entry) :
    log_of w (l ++ l') = log_of w l ++ log_of w l' := List.filter_append ..

theorem log_of_others {v w : Nat} (h : v ≠ w) {l : List Entry} (hl : ∀ e ∈ l, e.worker = w) :
    log_of v l = [] := by
  unfold log_of
  rw [List.filter_eq_nil_iff]
  intro e he
  rw [hl e he, decide_eq_true_eq]
  exact Ne.symm h

theorem entries_worker {p : Workers} {w : Nat} {o : Oracle} :
    ∀ e ∈ entries p (.work w o), e.worker = w := by
  intro e he
  cases hw : p.worker w with
  | done a => simp [entries, hw] at he
  | fail err => simp [entries, hw] at he
  | call op next =>
    simp only [entries, hw, List.mem_append] at he
    rcases he with he | he
    · split at he
      · cases he
      · rw [List.mem_singleton.mp he]
        rfl
    · obtain ⟨t, _, rfl⟩ := List.mem_map.mp he
      rfl

/-- The entries of a worker's own step, against what it owed and owes. -/
theorem balanced_own {g : Hand} {r : Except PipelineError β} {db' : Db} {w : Nat} {l : List Entry}
    {pending : Option (List Nat)} (hmay : may g op) (hd : Deaths op r db db')
    (ha : Answered pending l) (ho : Owes g.owed pending db) :
    ∃ pending', Answered pending' (l ++ ((if died_in db db' = [] then []
        else [Entry.died w (died_in db db')]) ++
        (told_by op).toList.map (fun t => Entry.told w t.1 t.2 (dead_rows db)))) ∧
      Owes (after g op r).owed pending' db' := by
  rcases ho with ⟨hnone, rfl⟩ | ⟨incident, ids, hsome, rfl, habout, hdead⟩
  · -- nothing owed: no report, and the deaths of the call are owed from here on
    have hask : asks g op := by
      unfold may at hmay
      rw [hnone] at hmay
      exact hmay
    rw [told_by_asks hask, owed_after hnone]
    have habout := hd.about
    cases hi : incident_of op r with
    | none =>
      rw [hi] at habout
      have hdied : died_in db db' = [] := habout
      rw [if_pos hdied]
      exact ⟨none, by simpa using ha, Or.inl ⟨rfl, rfl⟩⟩
    | some incident =>
      rw [hi] at habout
      have hne : died_in db db' ≠ [] := by
        cases incident with
        | row id =>
          have hone : died_in db db' = [id] := habout
          rw [hone]
          exact List.cons_ne_nil id []
        | sweep count => exact habout.2
      rw [if_neg hne]
      refine ⟨some (died_in db db'), by simpa using Answered.died w _ ha, Or.inr ?_⟩
      exact ⟨incident, _, rfl, rfl, habout, fun id hid => ((mem_died_in db db' id).mp hid).1⟩
  · -- a report owed: the call is that report, and kills nobody
    have hpay : pays incident op := by
      unfold may at hmay
      rw [hsome] at hmay
      exact hmay
    obtain ⟨title, body, htold, hreport⟩ := told_by_pays hpay
    have hdied : died_in db db' = [] := by
      have := hd.about
      rw [incident_of_told htold] at this
      exact this
    rw [if_pos hdied, htold]
    refine ⟨none, ?_, Or.inl ⟨paid_after htold g r, rfl⟩⟩
    exact Answered.told w ha (covers_of_about habout hreport)
      (fun id hid => (mem_dead_rows db id).mpr (hdead id hid))

theorem balanced_step {l : List Entry} {m : Move Oracle Outside}
    (hk : p.Keeps protocol (fun g => g.owed = none)) (ht : Timely p.pool m) (h : Balanced p l) :
    (p.step protocol machine m).Keeps protocol (fun g => g.owed = none) ∧
      Balanced (p.step protocol machine m) (l ++ entries p.pool m) := by
  refine ⟨hk.step m ?_, ?_⟩
  · rintro w rfl
    by_contra hc
    obtain ⟨incident, ho⟩ := Option.ne_none_iff_exists'.mp hc
    obtain ⟨title, body, hn, -⟩ := owed_next hk ho
    have hnone : next_report (p.pool.worker w) = none := ht
    rw [hn] at hnone
    cases hnone
  · intro v
    obtain ⟨pending, ha, ho⟩ := h v
    cases m with
    | crash w =>
      refine ⟨pending, ?_, ho⟩
      simpa [entries] using ha
    | outside e =>
      refine ⟨pending, ?_, ?_⟩
      · simpa [entries] using ha
      · cases e
        exact ho
    | work w o =>
      cases hw : p.pool.worker w with
      | done a =>
        refine ⟨pending, by simpa [entries, hw] using ha, ?_⟩
        simpa [Observed.step, Pool.step, hw] using ho
      | fail e =>
        refine ⟨pending, by simpa [entries, hw] using ha, ?_⟩
        simpa [Observed.step, Pool.step, hw] using ho
      | call op next =>
        have htimely : timely op o p.pool.state := by
          have := ht
          simp only [Timely, hw] at this
          exact this
        have hd := deaths_exec w op o p.pool.state htimely
        have hstate : (p.step protocol machine (.work w o)).pool.state =
            (exec w op o p.pool.state).2 := by
          simp only [Observed.step, Pool.step, hw]
          rfl
        rw [hstate, Observed.ghost_call o hw v, log_of_append]
        by_cases hvw : v = w
        · subst hvw
          have hself : log_of v (entries p.pool (.work v o)) = entries p.pool (.work v o) := by
            unfold log_of
            rw [List.filter_eq_self]
            intro e he
            rw [entries_worker e he, decide_eq_true_eq]
          rw [if_pos rfl, hself]
          simp only [entries, hw]
          exact balanced_own (hk.may hw) hd ha ho
        · rw [if_neg hvw, log_of_others hvw entries_worker, List.append_nil]
          exact ⟨pending, ha, ho.keeps hd.keeps⟩

theorem balanced_run {l : List Entry} {moves : List (Move Oracle Outside)}
    (hk : p.Keeps protocol (fun g => g.owed = none)) (ht : Along machine Timely p.pool moves)
    (h : Balanced p l) :
    (p.run protocol machine moves).Keeps protocol (fun g => g.owed = none) ∧
      Balanced (p.run protocol machine moves) (l ++ log p.pool moves) := by
  induction moves generalizing p l with
  | nil => exact ⟨hk, by simpa [log] using h⟩
  | cons m ms ih =>
    obtain ⟨hk', h'⟩ := balanced_step hk ht.1 h
    have := ih hk' ht.2 h'
    rwa [List.append_assoc] at this

/-- In every run whose steps are timely, from any database, each death of outbox rows has exactly
one report that covers them, made while they are dead, and there is no other report. -/
theorem one_report_per_death (jobs : Nat → Job) (db : Db) (now : model.DateTime)
    (notifiers : Notifier) (moves : List (Move Oracle Outside))
    (h : Along machine Timely (starting jobs (World.start db now notifiers)) moves) :
    OneReportPerDeath (starting jobs (World.start db now notifiers)) moves := by
  have hstart : Balanced (watched jobs (World.start db now notifiers)) [] :=
    fun w => ⟨none, Answered.nothing, Or.inl ⟨rfl, rfl⟩⟩
  obtain ⟨hk, hb⟩ := balanced_run (watched_keeps jobs _) h hstart
  intro w
  obtain ⟨pending, ha, ho⟩ := hb w
  rw [List.nil_append] at ha
  refine ⟨pending, ha, ?_⟩
  rintro ids rfl
  rcases ho with ⟨-, hp⟩ | ⟨incident, ids', hi, hp, habout, -⟩
  · cases hp
  · obtain rfl := Option.some.inj hp
    obtain ⟨title, body, hn, hr⟩ := owed_next hk hi
    rw [Observed.pool_run] at hn
    exact ⟨title, body, hn, covers_of_about habout hr⟩

/-! ## A death that nobody reports -/

instance (db : Db) (id : Nat) : Decidable (CountsUp db id) :=
  decidable_of_iff ((db.parent id).all (fun r =>
    decide (r.status = .dead ↔ OUTBOX_MAX_ATTEMPTS ≤ r.attempts)) = true) (by
      simp [CountsUp, Option.all_eq_true])

instance {β : Type} (op : Call β) (o : Oracle) (s : World) : Decidable (timely op o s) := by
  apply Call.casesOn (motive := fun _ op => Decidable (timely op o s)) op <;> intros <;>
    dsimp only [timely] <;> infer_instance

instance (p : Workers) (m : Move Oracle Outside) : Decidable (Timely p m) := by
  apply Move.casesOn (motive := fun m => Decidable (Timely p m)) m
  · intro w o
    dsimp only [Timely]
    apply Prog.casesOn (motive := fun program => Decidable (match program with
      | .call op _ => timely op o p.state
      | .done _ => True
      | .fail _ => True)) (p.worker w) <;> intros <;> dsimp only <;> infer_instance
  · intro w
    dsimp only [Timely]
    infer_instance
  · intro e
    dsimp only [Timely]
    infer_instance

def release : Event where
  source_id := "github:o/r"
  source_kind := "GitHub"
  title := "r: new release v2"
  body := ""
  url := none
  routing_tag := none

def hook : RoutedSink := ⟨⟨.webhook, "hook", "https://example.test/hook"⟩, []⟩

/-- A database whose one row has failed 49 times. -/
def nearly_spent : Db :=
  (insert_outbox Db.empty 0 release "v2" ⟨none, none, none, none⟩).2.updateOutbox
    (fun _ _ => true) (fun r => { r with status := .failed, attempts := 49 })

def two_flushes : Nat → Job
  | 1 => .flush 1
  | 2 => .flush 1
  | _ => .idle

def turns (w n : Nat) : List (Move Oracle Outside) := List.replicate n (.work w {})

def two_workers : Workers := starting two_flushes (World.start nearly_spent 0 [])

/-- Worker 1 finds no notifier for the row and is held up before it writes so; meanwhile a
notifier is configured, worker 2 claims the row again, its send fails and the backoff makes 50
attempts of 49. Then worker 1 writes its failure. -/
def jumped_over : List (Move Oracle Outside) :=
  turns 1 5 ++ [.outside (.apply_runtime_config [hook]), .work 2 { elapsed := 301000000 }] ++
    turns 2 7 ++ [.work 2 { notify := .error (.http "timeout") }] ++ turns 2 7 ++ turns 1 1

theorem Answered.of_died {pending : Option (List Nat)} {w : Nat} {ids : List Nat}
    (h : Answered pending [.died w ids]) : pending = some ids := by
  change Answered pending ([] ++ [.died w ids]) at h
  generalize hl : [] ++ [Entry.died w ids] = l at h
  cases h with
  | nothing => cases hl
  | died w' ids' h' =>
    have hlast := (List.append_inj' hl rfl).2
    injection hlast with he _
    injection he with _ hids
    rw [hids]
  | told w' h' hc hd =>
    have hlast := (List.append_inj' hl rfl).2
    injection hlast with he _
    cases he

/-- The row goes from 50 attempts to 51: it is dead, and the call says that it is not. -/
theorem a_jump_over_the_cap_is_not_reported :
    ¬ ∀ (jobs : Nat → Job) (db : Db) (now : model.DateTime) (notifiers : Notifier)
      (moves : List (Move Oracle Outside)),
      OneReportPerDeath (starting jobs (World.start db now notifiers)) moves := by
  intro h
  have hlaw : OneReportPerDeath two_workers jumped_over :=
    h two_flushes nearly_spent 0 [] jumped_over
  have hlog : log_of 1 (log two_workers jumped_over) = [.died 1 [1]] := by decide +kernel
  have hnext : next_report ((two_workers.run machine jumped_over).worker 1) = none := by
    decide +kernel
  obtain ⟨pending, ha, hp⟩ := hlaw 1
  rw [hlog] at ha
  obtain ⟨title, body, hn, -⟩ := hp [1] ha.of_died
  rw [hnext] at hn
  cases hn

/-- Alone, worker 1 brings the row to 50 attempts and reports it. -/
theorem one_report_per_death_here :
    OneReportPerDeath (starting two_flushes (World.start nearly_spent 0 [])) (turns 1 20) :=
  one_report_per_death two_flushes nearly_spent 0 [] (turns 1 20) (by decide +kernel)

end xrelease.reported
