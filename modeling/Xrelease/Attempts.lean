-- Every job of the engine walked call by call: a delivery attempt knows of its row what each of
-- its calls needs, and the moves of the other workers leave that knowledge true.
import Mathlib.Data.List.Dedup
import Xrelease.Ledger
import Xrelease.Pieces

namespace xrelease.attempts

open xrelease.model xrelease.store xrelease.engine xrelease.outbox xrelease.pipeline
open xrelease.leases xrelease.ledger xrelease.pieces keyed calls calls.Prog calls.Terms

variable {calm fixed : Prop} {w v : Nat} {ids : List Nat} {s s' s₁ s₂ : World}

/-! ## The terms -/

/-- What a worker keeps while it goes from one state to another: its rows, but for the listed
ones, and the notifier list it goes by. -/
structure Since (calm : Prop) (w : Nat) (ids : List Nat) (s s' : World) : Prop where
  others : Others calm w ids s.db s.book s'.db s'.book
  snapshot : s'.book.snapshot w = s.book.snapshot w

theorem Since.refl (w : Nat) (ids : List Nat) (s : World) : Since calm w ids s s :=
  ⟨Others.refl w ids s.db s.book, rfl⟩

theorem Since.trans (h : Since calm w ids s₁ s₂) (h' : Since calm w ids s₂ s) :
    Since calm w ids s₁ s :=
  ⟨h.others.trans h'.others, h'.snapshot.trans h.snapshot⟩

theorem Since.widen (h : Since calm w [] s s') : Since calm w ids s s' :=
  ⟨h.others.mono (fun _ hj => absurd hj List.not_mem_nil), h.snapshot⟩

/-- What a worker keeps of a row outside the list. -/
theorem Since.row (h : Since calm w ids s s') {j : Nat} (hj : j ∉ ids)
    (ho : s.book.attempt j = some w) : RowKept calm w j s.db s.book s'.db s'.book :=
  h.others.rows j hj ho

/-- Workers share the engine on these terms: no claim of a row on which an attempt is under way,
in `calm` runs no requeue of one, in `fixed` runs no notifier moved under the ledger. -/
def terms (calm fixed : Prop) : Terms Call World Oracle Outside where
  Inv := fun s => Kept calm fixed s.db s.book s.notifiers
  Rely := fun w s s' => Since calm w [] s s'
  May := fun _ op o s => Apart op o s ∧ (calm → Calm op s) ∧ (fixed → ReopenFits op s)
  Does := fun w op _ s s' => (∀ v, v ≠ w → Since calm v [] s s') ∧ Final (reopened op) s.db s'.db
  MayOutside := fun e s =>
    fixed → match e with
      | .apply_runtime_config notifiers => SwapFits notifiers s

theorem kept_swap {notifiers : Notifier} (h : Kept calm fixed s.db s.book s.notifiers)
    (hf : fixed → SwapFits notifiers s) : Kept calm fixed s.db s.book notifiers where
  attempt_open := h.attempt_open
  sent_all := h.sent_all
  not_stranded := h.not_stranded
  sends_open := h.sends_open
  meaning := by
    intro hfix
    have hm := h.meaning hfix
    obtain ⟨hsnap, hrow⟩ := hf hfix
    refine ⟨?_, ?_, hm.acked, hm.retried⟩
    · intro id i hh hns l hl
      rcases hl with rfl | ⟨v, hv⟩
      · exact hrow id i hh hns
      · exact hm.fits id i hh hns l (Or.inr ⟨v, hv⟩)
    · intro l l' hl hl' i a c ha hc
      rcases hl with rfl | ⟨v, hv⟩
      · rcases hl' with rfl | ⟨v', hv'⟩
        · rw [Option.some.inj (ha.symm.trans hc)]
        · exact hsnap v' l' hv' i a c ha hc
      · rcases hl' with rfl | ⟨v', hv'⟩
        · exact (hsnap v l hv i c a hc ha).symm
        · exact hm.agree l l' (Or.inr ⟨v, hv⟩) (Or.inr ⟨v', hv'⟩) i a c ha hc

theorem kept_leave (w : Nat) (h : Kept calm fixed s.db s.book s.notifiers) :
    Kept calm fixed (machine.leave w s).db (machine.leave w s).book
      (machine.leave w s).notifiers where
  attempt_open := by
    intro id v hv
    refine h.attempt_open id v ?_
    by_cases hw : s.book.attempt id = some w
    · simp [machine, hw] at hv
    · simpa [machine, hw] using hv
  sent_all := h.sent_all
  not_stranded := h.not_stranded
  sends_open := h.sends_open
  meaning := by
    intro hfix
    refine meaning_of_same (h.meaning hfix) (fun _ _ => rfl) rfl rfl ?_
    rintro l (hl | ⟨v, hv⟩)
    · exact Or.inl hl
    · by_cases hw : v = w
      · simp [machine, hw] at hv
      · exact Or.inr ⟨v, by simpa [machine, hw] using hv⟩

theorem since_leave (hv : v ≠ w) : Since calm v [] s (machine.leave w s) where
  others := by
    refine ⟨?_, fun _ hx => hx⟩
    intro j _ ho
    refine rowKept_of_same ?_ rfl (fun _ => rfl) (fun _ _ => rfl)
    have hne : s.book.attempt j ≠ some w := by
      intro he
      exact hv (Option.some.inj (ho.symm.trans he))
    simpa [machine, hne] using ho
  snapshot := by simp [machine, hv]

theorem terms_sound (calm fixed : Prop) : (terms calm fixed).Sound machine where
  refl := fun w s => Since.refl w [] s
  trans := fun _ _ _ _ h h' => h.trans h'
  others := fun _ v _ _ _ _ hv hd => hd.1 v hv
  outside := by
    rintro ⟨notifiers⟩ s hi hm
    exact ⟨kept_swap (s := s) hi hm, fun _ => ⟨Others.refl _ _ s.db s.book, rfl⟩⟩
  leave := fun w s hi => ⟨kept_leave w hi, fun _ hv => since_leave hv⟩

/-! ## One call -/

/-- The calls after which a worker goes by another notifier list. -/
def forgets {β : Type} (op : Call β) : Bool :=
  match op with
  | .notifier_snapshot => true
  | .through _ => true
  | _ => false

/-- The calls that start or end an attempt. -/
def marks {β : Type} (op : Call β) : Bool :=
  match op with
  | .claim_outbox_batch _ _ => true
  | .claim_outbox_row _ _ => true
  | .complete_notification _ _ _ => true
  | .through _ => true
  | _ => false

variable {β : Type} {op : Call β} {Q : Except PipelineError β → World → Prop} {i : Nat}
  {n : Notifier} {event : Event}

theorem snapshot_exec (h : forgets op = false) (w : Nat) (o : Oracle) (s : World) :
    (exec w op o s).2.book.snapshot = s.book.snapshot := by
  cases hfail : o.fails <;> cases op <;> simp only [exec, stored, hfail]
  all_goals first
    | rfl
    | (split <;> rfl)
    | cases h

theorem attempt_exec (h : marks op = false) (w : Nat) (o : Oracle) (s : World) :
    (exec w op o s).2.book.attempt = s.book.attempt := by
  cases hfail : o.fails <;> cases op <;> simp only [exec, stored, hfail]
  all_goals first
    | rfl
    | (split <;> rfl)
    | cases h

/-- A call that is ready, whatever the others do first: it keeps the terms, and the rest may use
what it did. -/
theorem safe_call (hr : ∀ s₁, Since calm w [] s s₁ → Kept calm fixed s₁.db s₁.book s₁.notifiers →
      Ready calm fixed w op s₁.db s₁.book)
    (hq : ∀ s₁ o, Since calm w [] s s₁ → Kept calm fixed s₁.db s₁.book s₁.notifiers →
      Apart op o s₁ →
      Others calm w (settles op) s₁.db s₁.book (exec w op o s₁).2.db (exec w op o s₁).2.book →
      Q (exec w op o s₁).1 (exec w op o s₁).2) :
    (terms calm fixed).Safe machine w Q (perform op) s := by
  apply safe_perform
  rintro s₁ hrely hinv o ⟨hapart, hcalm, hfit⟩
  have hstep := step_exec hinv (hr s₁ hrely hinv) hapart hcalm hfit
  refine ⟨⟨?_, hstep.final⟩, ?_, hq s₁ o hrely hinv hapart hstep.own⟩
  · intro v hv
    exact ⟨hstep.others v hv, hstep.snapshot v hv⟩
  · have h := hstep.kept
    rw [← notifiers_exec w op o s₁] at h
    exact h

/-- The same for a call after which the worker goes by the same notifier list. -/
theorem safe_plain (hf : forgets op = false)
    (hr : ∀ s₁, Since calm w [] s s₁ → Kept calm fixed s₁.db s₁.book s₁.notifiers →
      Ready calm fixed w op s₁.db s₁.book)
    (hq : ∀ s₁ o, Since calm w [] s s₁ → Since calm w (settles op) s (exec w op o s₁).2 →
      Q (exec w op o s₁).1 (exec w op o s₁).2) :
    (terms calm fixed).Safe machine w Q (perform op) s := by
  refine safe_call hr (fun s₁ o hrely _ _ hown => hq s₁ o hrely ?_)
  exact hrely.widen.trans ⟨hown, by rw [snapshot_exec hf]⟩

theorem stored_cases (o : Oracle) (s : World) (r : β × World) :
    (∃ e, stored o s r = (.error e, s)) ∨ stored o s r = (.ok r.1, r.2) := by
  unfold stored
  cases o.fails with
  | none => exact Or.inr rfl
  | some e => exact Or.inl ⟨_, rfl⟩

/-- A call that only reads the store: the answer is what the store holds when it is made. -/
theorem safe_read (v : World → β) (hf : forgets op = false) (hset : settles op = [])
    (hexec : ∀ o s, exec w op o s = stored o (s.tick o) (v (s.tick o), s.tick o))
    (hr : ∀ db b, Ready calm fixed w op db b)
    (hq : ∀ s₁, Since calm w [] s s₁ → Q (.ok (v s₁)) s₁ ∧ ∀ e, Q (.error e) s₁) :
    (terms calm fixed).Safe machine w Q (perform op) s := by
  refine safe_plain hf (fun _ _ _ => hr _ _) ?_
  intro s₁ o _ hsince
  rw [hset] at hsince
  have hcases := stored_cases o (s₁.tick o) (v (s₁.tick o), s₁.tick o)
  rw [← hexec] at hcases
  rcases hcases with ⟨e, he⟩ | he
  · rw [he] at hsince ⊢
    exact (hq _ hsince).2 e
  · rw [he] at hsince ⊢
    exact (hq _ hsince).1

/-! ## Programs that touch no row of the worker -/

/-- Calls that need nothing and leave the worker's rows and its notifier list alone. -/
def bystands {β : Type} (op : Call β) : Bool :=
  match op with
  | .fail_notification _ _ | .ensure_sink_deliveries _ _ | .complete_sink_delivery _ _
  | .fail_sink_delivery _ _ _ | .abandon_retryable_sinks _ _ _ | .mark_outbox_dead _
  | .complete_notification _ _ _ | .notify _ _ _ _ | .notifier_snapshot | .through _ => false
  | _ => true

/-- The calls that a bystander does not make. -/
def steps_in {γ : Type} (op : Call γ) : Prop := bystands op = false

theorem ready_of_bystands (h : bystands op = true) (db : Db) (b : Book) :
    Ready calm fixed w op db b := by
  cases op <;> trivial

theorem settles_of_bystands (h : bystands op = true) :
    settles op = [] := by
  cases op <;> first | rfl | exact absurd h Bool.false_ne_true

theorem forgets_of_bystands (h : bystands op = true) :
    forgets op = false := by
  cases op <;> first | rfl | exact absurd h Bool.false_ne_true

theorem never_bystander (h : bystands op = true) :
    (perform op : Work β).Never steps_in :=
  never_perform (by simp [steps_in, h])

/-- A program of such calls keeps everything the worker knows. -/
theorem safe_bystander {α : Type} {p : Work α} (hp : p.Never steps_in) :
    (terms calm fixed).Safe machine w (fun _ s' => Since calm w [] s s') p s := by
  suffices h : ∀ s₀, Since calm w [] s₀ s →
      (terms calm fixed).Safe machine w (fun _ s' => Since calm w [] s₀ s') p s from
    h s (Since.refl w [] s)
  induction p generalizing s with
  | done a => exact fun _ h => h
  | fail e => exact fun _ h => h
  | call op next ih =>
    intro s₀ h₀ s₁ hrely hinv o hmay
    have hby : bystands op = true := by simpa [steps_in] using hp.1
    obtain ⟨hapart, hcalm, hfit⟩ := hmay
    have hstep := step_exec (w := w) hinv (ready_of_bystands hby s₁.db s₁.book) hapart hcalm hfit
    rw [settles_of_bystands hby] at hstep
    have hsince : Since calm w [] s₁ (exec w op o s₁).2 :=
      ⟨hstep.own, by rw [snapshot_exec (forgets_of_bystands hby)]⟩
    refine ⟨⟨fun v hv => ⟨hstep.others v hv, hstep.snapshot v hv⟩, hstep.final⟩, ?_, ?_⟩
    · have h := hstep.kept
      rw [← notifiers_exec w op o s₁] at h
      exact h
    · exact ih _ (hp.2 _) s₀ ((h₀.trans hrely).trans hsince)

theorem never_emit_breaker_alerts : emit_breaker_alerts.Never steps_in := by
  unfold emit_breaker_alerts
  refine never_bind (never_bystander rfl) ?_
  intro labels
  induction labels with
  | nil => trivial
  | cons label rest ih =>
    exact never_bind (never_bystander rfl) (fun _ => ih)

theorem never_emit_dead_outbox_alert (outbox_id : Nat) (source_id : String) :
    (emit_dead_outbox_alert outbox_id source_id).Never steps_in :=
  never_bystander rfl

theorem never_apply_attempt_backoff (outbox_id attempts_before : Nat) (attempt : DeliveryAttempt) :
    (apply_attempt_backoff outbox_id attempts_before attempt).Never steps_in := by
  unfold apply_attempt_backoff
  refine never_bind (never_bystander rfl) ?_
  intro max_secs
  refine never_bind (never_caught ?_) (fun _ => trivial)
  split <;> exact never_bystander rfl

theorem never_backoff_after (outbox_id attempts_before : Nat)
    (outcome : Except PipelineError DeliveryAttempt) :
    (backoff_after outbox_id attempts_before outcome).Never steps_in := by
  unfold backoff_after
  split
  · split
    · trivial
    · exact never_apply_attempt_backoff outbox_id attempts_before _
  · trivial

/-! ## What an attempt knows of a row -/

/-- The attempt on the row is the worker's, the row can still be claimed when the attempt is
over, its ledger has the sinks `has`, and those of `open_` are not sent. -/
structure Holds (w id : Nat) (has open_ : List Nat) (s : World) : Prop where
  own : s.book.attempt id = some w
  alive : Alive s.db id
  has : ∀ i ∈ has, hasAt s.db id i = true
  unsent : ∀ i ∈ open_, sentAt s.db id i = false

/-- Every sink in the ledger of the row is sent. -/
def AllSent (db : Db) (id : Nat) : Prop := ∀ i, hasAt db id i = true → sentAt db id i = true

variable {id : Nat} {has open_ : List Nat}

theorem Since.own (h : Since calm w ids s s') (hj : id ∉ ids) (ho : s.book.attempt id = some w) :
    s'.book.attempt id = some w := (h.row hj ho).own

theorem Since.holds (h : Since calm w ids s s') (hj : id ∉ ids) (hh : Holds w id has open_ s) :
    Holds w id has open_ s' where
  own := h.own hj hh.own
  alive := (h.row hj hh.own).alive hh.alive
  has := fun i hi => ((h.row hj hh.own).has i).trans (hh.has i hi)
  unsent := fun i hi => ((h.row hj hh.own).sent i).trans (hh.unsent i hi)

theorem Since.all_sent (h : Since calm w ids s s') (hj : id ∉ ids)
    (ho : s.book.attempt id = some w) (ha : AllSent s.db id) : AllSent s'.db id := by
  intro i hi
  rw [(h.row hj ho).sent]
  exact ha i (((h.row hj ho).has i).symm.trans hi)

theorem Since.acked (h : Since calm w ids s s') (hj : id ∉ ids) (ho : s.book.attempt id = some w)
    (hi : hasAt s.db id i = true) (ha : Acked s.book id i) : Acked s'.book id i := by
  obtain ⟨x, hx, hrow, hok, hm⟩ := ha
  exact ⟨x, h.others.sends x hx, hrow, hok, ((h.row hj ho).made i hi).trans hm⟩

theorem all_sent_of_complete {db : Db} (h : sinks_delivery_complete db id = true) :
    AllSent db id := by
  intro i hi
  unfold hasAt at hi
  unfold sentAt
  cases hk : db.sink id i with
  | none => simp [hk] at hi
  | some k =>
    have hmem : ((id, i), k) ∈ sinks_of db id := by
      unfold sinks_of
      rw [Table.mem_select]
      exact ⟨hk, by simp⟩
    simpa using (List.all_eq_true.mp h) _ hmem

theorem none_wanted_of_counts {db : Db} (h : (count_sinks db id).retryable = 0) (i : Nat) :
    wantedAt db id i = false := by
  unfold wantedAt
  cases hk : db.sink id i with
  | none => rfl
  | some k =>
    have hmem : ((id, i), k) ∈ sinks_of db id := by
      unfold sinks_of
      rw [Table.mem_select]
      exact ⟨hk, by simp⟩
    have hnil := List.filter_eq_nil_iff.mp (List.eq_nil_of_length_eq_zero h) _ hmem
    simpa using hnil

theorem pending_unsent {db : Db} (h : i ∈ list_pending_sink_indices db id) :
    hasAt db id i = true ∧ sentAt db id i = false := by
  unfold list_pending_sink_indices at h
  rw [List.mem_insertionSort, List.mem_map] at h
  obtain ⟨⟨⟨j, i'⟩, k⟩, hmem, rfl⟩ := h
  obtain ⟨hrow, hwant⟩ := List.mem_filter.mp hmem
  unfold sinks_of at hrow
  rw [Table.mem_select] at hrow
  obtain ⟨hget, hj⟩ := hrow
  obtain rfl : j = id := by simpa using hj
  have hk : db.sink j i' = some k := hget
  refine ⟨by simp [hasAt, hk], ?_⟩
  simp only [SinkRow.wanting, Bool.and_eq_true] at hwant
  have hst : k.status ≠ .sent := by
    intro he
    simp [he, Status.retryable] at hwant
  simp [sentAt, hk, hst]

theorem pending_nodup (db : Db) (id : Nat) : (list_pending_sink_indices db id).Nodup := by
  unfold list_pending_sink_indices
  rw [(List.perm_insertionSort _ _).nodup_iff, List.nodup_map_iff_inj_on]
  · rintro ⟨⟨j, i⟩, k⟩ hx ⟨⟨j', i'⟩, k'⟩ hy hxy
    have hx' := (List.mem_filter.mp hx).1
    have hy' := (List.mem_filter.mp hy).1
    unfold sinks_of at hx' hy'
    rw [Table.mem_select] at hx' hy'
    obtain rfl : j = id := by simpa using hx'.2
    obtain rfl : j' = j := by simpa using hy'.2
    obtain rfl : i = i' := hxy
    obtain rfl : k = k' := Option.some.inj (hx'.1.symm.trans hy'.1)
    rfl
  · have h := (Table.select_nodup db.notification_sink_delivery (fun k _ => k.1 = id))
    exact (List.Nodup.of_map _ h).filter _

theorem Holds.shrink {has' open' : List Nat} (h : Holds w id has open_ s) (hh : has' ⊆ has)
    (ho : open' ⊆ open_) : Holds w id has' open' s :=
  ⟨h.own, h.alive, fun i hi => h.has i (hh hi), fun i hi => h.unsent i (ho hi)⟩

/-- A write to ledger rows of the row that sends none of the listed sinks. -/
theorem Holds.after {open' : List Nat} (h : Holds w id has open_ s)
    (hatt : s'.book.attempt = s.book.attempt) (hp : s'.db.parent id = s.db.parent id)
    (hhas : ∀ i, hasAt s.db id i = true → hasAt s'.db id i = true)
    (hsent : ∀ i ∈ open', i ∈ open_ ∧ sentAt s'.db id i = sentAt s.db id i) :
    Holds w id has open' s' where
  own := by rw [hatt]; exact h.own
  alive := by simpa [Alive, hp] using h.alive
  has := fun i hi => hhas i (h.has i hi)
  unsent := fun i hi => (hsent i hi).2.trans (h.unsent i (hsent i hi).1)

/-! ## Settling a row -/

/-- The worker did something to the row, and its attempt on it goes on. -/
structure Working (calm : Prop) (w id : Nat) (s s' : World) : Prop where
  since : Since calm w [id] s s'
  own : s'.book.attempt id = some w

theorem Working.refl (h : s.book.attempt id = some w) : Working calm w id s s :=
  ⟨Since.refl w [id] s, h⟩

theorem Working.trans (h : Working calm w id s₁ s₂) (h' : Working calm w id s₂ s) :
    Working calm w id s₁ s :=
  ⟨h.since.trans h'.since, h'.own⟩

theorem Since.working (h : Since calm w [] s s') (ho : s.book.attempt id = some w) :
    Working calm w id s s' :=
  ⟨h.widen, h.own List.not_mem_nil ho⟩

/-- A call that writes the row of the worker's own and does not end its attempt. -/
theorem safe_work (hf : forgets op = false) (hm : marks op = false) (hset : settles op ⊆ [id])
    (ho : s.book.attempt id = some w)
    (hr : ∀ s₁, Since calm w [] s s₁ → s₁.book.attempt id = some w →
      Ready calm fixed w op s₁.db s₁.book)
    (hq : ∀ s₁ o, Since calm w [] s s₁ → Working calm w id s (exec w op o s₁).2 →
      Q (exec w op o s₁).1 (exec w op o s₁).2) :
    (terms calm fixed).Safe machine w Q (perform op) s := by
  refine safe_plain hf (fun s₁ h₁ _ => hr s₁ h₁ (h₁.own List.not_mem_nil ho)) ?_
  intro s₁ o h₁ hsince
  refine hq s₁ o h₁ ⟨⟨hsince.others.mono (fun _ hj => hset hj), hsince.snapshot⟩, ?_⟩
  rw [attempt_exec hm]
  exact h₁.own List.not_mem_nil ho

theorem safe_fail_outbox_row_alert (source_id error : String) (ho : s.book.attempt id = some w) :
    (terms calm fixed).Safe machine w (fun _ s' => Since calm w [] s s')
      (fail_outbox_row_alert id source_id error) s := by
  apply safe_bind
  refine safe_plain rfl (fun s₁ h₁ _ => h₁.own List.not_mem_nil ho) ?_
  intro s₁ o _ hsince
  cases (exec w (.fail_notification id error) o s₁).1 with
  | error e => exact hsince
  | ok dead =>
    cases dead with
    | false => exact hsince
    | true =>
      exact safe_mono (safe_bystander (never_emit_dead_outbox_alert id source_id))
        (fun _ _ h => hsince.trans h)

theorem safe_sync_outbox_sink_status (ho : s.book.attempt id = some w) :
    (terms calm fixed).Safe machine w (fun _ s' => Working calm w id s s')
      (sync_outbox_sink_status id) s := by
  apply safe_bind
  refine safe_read (fun s => count_sinks s.db id) rfl rfl (fun _ _ => rfl)
    (fun _ _ => trivial) ?_
  intro s₁ h₁
  refine ⟨?_, fun _ => h₁.working ho⟩
  dsimp only
  have ho₁ := h₁.own List.not_mem_nil ho
  split
  · exact h₁.working ho
  · split
    · rename_i hdead
      have hnone : ∀ i, wantedAt s₁.db id i = false := by
        simp only [Bool.and_eq_true, decide_eq_true_eq] at hdead
        exact none_wanted_of_counts hdead.1
      refine safe_work rfl rfl (fun _ h => h) ho₁ ?_ ?_
      · intro s₂ h₂ ho₂
        refine ⟨ho₂, ?_⟩
        intro hc i
        cases hw : wantedAt s₂.db id i with
        | false => rfl
        | true =>
          have hw₁ := (h₂.row List.not_mem_nil ho₁).wanted hc i hw
          exact absurd ((hnone i).symm.trans hw₁) (by simp)
      · intro s₂ o _ hwork
        exact (h₁.working ho).trans hwork
    · apply safe_bind
      refine safe_work rfl rfl (fun _ h => absurd h List.not_mem_nil) ho₁ (fun _ _ _ => trivial) ?_
      intro s₂ o _ hwork
      have h := (h₁.working ho).trans hwork
      cases (exec w (.mark_outbox_failed id) o s₂).1 with
      | error e => exact h
      | ok _ => exact h

theorem safe_sync_outbox_status_alert (source_id : String) (ho : s.book.attempt id = some w) :
    (terms calm fixed).Safe machine w (fun _ s' => Working calm w id s s')
      (sync_outbox_status_alert id source_id) s := by
  apply safe_bind
  refine safe_mono (safe_sync_outbox_sink_status ho) ?_
  intro r s₁ h₁
  cases r with
  | error e => exact h₁
  | ok dead =>
    cases dead with
    | false => exact h₁
    | true =>
      exact safe_mono (safe_bystander (never_emit_dead_outbox_alert id source_id))
        (fun _ _ h => h₁.trans (h.working h₁.own))

theorem safe_complete_or_failed (source_id : String) (seen : SeenUpsert)
    (ho : s.book.attempt id = some w) (ha : AllSent s.db id) :
    (terms calm fixed).Safe machine w (fun _ s' => Since calm w [id] s s')
      (complete_or_failed id source_id seen) s := by
  apply safe_bind
  refine safe_plain rfl (fun s₁ h₁ _ => ⟨h₁.own List.not_mem_nil ho,
    h₁.all_sent List.not_mem_nil ho ha⟩) ?_
  intro s₁ o _ hsince
  cases (exec w (.complete_notification id source_id seen) o s₁).1 with
  | error e => exact hsince
  | ok completed => exact hsince

/-- The row is settled from its ledger: sent when every sink is, else by the counts. -/
theorem safe_settle {Q : Except PipelineError DeliveryAttempt → World → Prop}
    {yes no : Work DeliveryAttempt} (ho : s.book.attempt id = some w)
    (hyes : ∀ s₁, Since calm w [] s s₁ → AllSent s₁.db id →
      (terms calm fixed).Safe machine w Q yes s₁)
    (hno : ∀ s₁, Since calm w [] s s₁ → (terms calm fixed).Safe machine w Q no s₁)
    (herr : ∀ s₁ e, Working calm w id s s₁ → Q (.error e) s₁) :
    (terms calm fixed).Safe machine w Q
      (perform (.sinks_delivery_complete id) >>= fun complete => if complete then yes else no)
      s := by
  apply safe_bind
  refine safe_read (fun s => sinks_delivery_complete s.db id) rfl rfl (fun _ _ => rfl)
    (fun _ _ => trivial) ?_
  intro s₁ h₁
  refine ⟨?_, fun e => herr s₁ e (h₁.working ho)⟩
  dsimp only
  split
  · rename_i hc
    exact hyes s₁ h₁ (all_sent_of_complete hc)
  · exact hno s₁ h₁

/-! ## The ledger after a round of sends -/

/-- The worker went on with its attempt, and what it knew of the row but for `open_`. -/
structure Recorded (calm : Prop) (w id : Nat) (has open_ : List Nat) (s s' : World) : Prop where
  since : Since calm w [id] s s'
  holds : Holds w id has open_ s'
  acked : ∀ i ∈ has, Acked s.book id i → Acked s'.book id i

theorem Recorded.working (h : Recorded calm w id has open_ s s') : Working calm w id s s' :=
  ⟨h.since, h.holds.own⟩

theorem Since.recorded (h : Since calm w [] s s') (hh : Holds w id has open_ s) :
    Recorded calm w id has open_ s s' where
  since := h.widen
  holds := h.holds List.not_mem_nil hh
  acked := fun i hi ha => h.acked List.not_mem_nil hh.own (hh.has i hi) ha

/-- A write to the ledger of the row that leaves `sent` as it is for the sinks in `open'`. -/
theorem recorded_of_write {open' : List Nat} (h₁ : Since calm w [] s s₁)
    (hh : Holds w id has open_ s) (h₂ : Since calm w [id] s s₂) (hbook : s₂.book = s₁.book)
    {p : Nat → Nat → SinkRow → Bool} {f : SinkRow → SinkRow}
    (hdb : s₂.db = s₁.db ∨ s₂.db = s₁.db.updateSinks p f)
    (hp : ∀ j ∈ open', j ∈ open_ ∧ ∀ k, p id j k = true → k.status ≠ .sent ∧ (f k).status ≠ .sent) :
    Recorded calm w id has open' s s₂ := by
  have hh₁ := h₁.holds List.not_mem_nil hh
  refine ⟨h₂, hh₁.after (by rw [hbook]) ?_ ?_ ?_, ?_⟩
  · rcases hdb with hdb | hdb <;> rw [hdb]
    rfl
  · intro j hj
    rcases hdb with hdb | hdb <;> rw [hdb]
    · exact hj
    · rw [hasAt_updateSinks]
      exact hj
  · intro j hj
    obtain ⟨hin, hpj⟩ := hp j hj
    refine ⟨hin, ?_⟩
    rcases hdb with hdb | hdb <;> rw [hdb]
    unfold sentAt
    rw [Db.sink_updateSinks]
    cases s₁.db.sink id j with
    | none => rfl
    | some k =>
      by_cases hpk : p id j k = true
      · simp [hpk, (hpj k hpk).1, (hpj k hpk).2]
      · simp [hpk]
  · intro j hj ha
    rw [hbook]
    exact h₁.acked List.not_mem_nil hh.own (hh.has j hj) ha

/-- A write to the ledger row of one sink says nothing of the others. -/
theorem only_at {f : SinkRow → SinkRow} (hi : i ∉ open_) :
    ∀ j ∈ open_, j ∈ i :: open_ ∧ ∀ k, (decide (id = id) && decide (j = i)) = true →
      k.status ≠ .sent ∧ (f k).status ≠ .sent := by
  intro j hj
  refine ⟨List.mem_cons_of_mem i hj, ?_⟩
  intro k hk
  obtain rfl : j = i := by simpa using hk
  exact absurd hj hi

theorem exec_complete_sink (w id i : Nat) (o : Oracle) (s : World) :
    ((exec w (.complete_sink_delivery id i) o s).2.db = s.db ∨
      (exec w (.complete_sink_delivery id i) o s).2.db =
        complete_sink_delivery s.db (s.tick o).now id i) ∧
    (exec w (.complete_sink_delivery id i) o s).2.book = s.book := by
  cases hfail : o.fails <;> simp [exec, stored, hfail, World.wrote, World.tick]

theorem exec_fail_sink (w id i : Nat) (error : String) (o : Oracle) (s : World) :
    ((exec w (.fail_sink_delivery id i error) o s).2.db = s.db ∨
      (exec w (.fail_sink_delivery id i error) o s).2.db = fail_sink_delivery s.db id i error) ∧
    (exec w (.fail_sink_delivery id i error) o s).2.book = s.book := by
  cases hfail : o.fails <;> simp [exec, stored, hfail, World.wrote, World.tick]

theorem safe_record_result {result : Except NotifyError Unit} (t : Tally)
    (hh : Holds w id has (i :: open_) s) (hi : i ∉ open_)
    (hack : result = .ok () → fixed → i ∈ has ∧ Acked s.book id i) :
    (terms calm fixed).Safe machine w (fun _ s' => Recorded calm w id has open_ s s')
      (record_result id i t result) s := by
  unfold record_result
  split
  · apply safe_bind
    refine safe_work rfl rfl (fun _ h => h) hh.own ?_ ?_
    · intro s₁ h₁ ho₁
      refine ⟨ho₁, ?_⟩
      intro hf
      obtain ⟨hhas, ha⟩ := hack rfl hf
      exact h₁.acked List.not_mem_nil hh.own (hh.has i hhas) ha
    · intro s₁ o h₁ hwork
      obtain ⟨hdb, hbook⟩ := exec_complete_sink w id i o s₁
      have h := recorded_of_write h₁ hh hwork.since hbook hdb (only_at hi)
      cases (exec w (.complete_sink_delivery id i) o s₁).1 with
      | error e => exact h
      | ok _ => exact h
  · exact (Since.refl w [] s).recorded (hh.shrink (fun _ h => h) (List.subset_cons_self i open_))
  · rename_i err _
    apply safe_bind
    refine safe_work rfl rfl (fun _ h => h) hh.own ?_ ?_
    · intro s₁ h₁ _
      have hh₁ := h₁.holds List.not_mem_nil hh
      exact ⟨hh₁.own, hh₁.unsent i List.mem_cons_self, hh₁.alive⟩
    · intro s₁ o h₁ hwork
      obtain ⟨hdb, hbook⟩ := exec_fail_sink w id i err.text o s₁
      have h := recorded_of_write h₁ hh hwork.since hbook hdb (only_at hi)
      cases (exec w (.fail_sink_delivery id i err.text) o s₁).1 with
      | error e => exact h
      | ok _ => exact h

theorem safe_record_results (results : List (Nat × Except NotifyError Unit)) (t : Tally)
    (hh : Holds w id has (results.map Prod.fst) s) (hn : (results.map Prod.fst).Nodup)
    (hack : ∀ i, (i, .ok ()) ∈ results → fixed → i ∈ has ∧ Acked s.book id i) :
    (terms calm fixed).Safe machine w (fun _ s' => Working calm w id s s')
      (record_results id results t) s := by
  induction results generalizing s t with
  | nil => exact Working.refl hh.own
  | cons head rest ih =>
    obtain ⟨i, result⟩ := head
    rw [List.map_cons, List.nodup_cons] at hn
    apply safe_bind
    refine safe_mono (safe_record_result t hh hn.1 ?_) ?_
    · intro hres hf
      exact hack i (hres ▸ List.mem_cons_self) hf
    · intro r s₁ h₁
      cases r with
      | error e => exact h₁.working
      | ok t' =>
        refine safe_mono (ih t' h₁.holds hn.2 ?_) (fun _ _ h => h₁.working.trans h)
        intro j hj hf
        obtain ⟨hhas, ha⟩ := hack j (List.mem_cons_of_mem _ hj) hf
        exact ⟨hhas, h₁.acked j hhas ha⟩

/-! ## A round of sends -/

theorem matching_sink (h : i ∈ matching_indices n event) :
    ∃ sink, n[i]? = some sink ∧ sink.accepts event = true := by
  exact (Option.any_eq_true _ _).mp (List.mem_filter.mp h).2

/-- What a round of sends to `indices` says of the rows it spoke for. -/
structure Told (calm fixed : Prop) (w : Nat) (rows indices : List Nat) (s : World)
    (r : Except PipelineError (List (Nat × Except NotifyError Unit))) (s' : World) : Prop where
  since : Since calm w [] s s'
  indices : ∀ results, r = .ok results → results.map Prod.fst = indices
  acked : ∀ results, r = .ok results → ∀ i, (i, .ok ()) ∈ results → fixed →
    ∀ id ∈ rows, sentAt s'.db id i = false → Acked s'.book id i

/-- A good send is an acknowledgement by the notifier that the ledger row was made for. -/
theorem acked_of_sent {rows : List Nat} {sink : RoutedSink} (event : Event)
    (hm : Meaning s.db s.book s.notifiers) (hn : s.book.snapshot w = some n)
    (hi : n[i]? = some sink) (hid : id ∈ rows) (hhas : hasAt s.db id i = true)
    (hns : sentAt s.db id i = false) : Acked (s.sent_to rows i sink event true).book id i := by
  have hfit := (hm.fits id i hhas hns n (Or.inr ⟨w, hn⟩)).2 sink hi
  exact ⟨_, List.mem_append_right _ (List.mem_singleton_self _), hid, rfl, hfit⟩

/-- One sink of a round: it is called when its breaker allows it, and an `Ok` means that it was. -/
theorem safe_notify_at {rows : List Nat} (hn : s.book.snapshot w = some n)
    (hmatch : i ∈ matching_indices n event) (hown : ∀ id ∈ rows, s.book.attempt id = some w)
    (hopen : ∃ id ∈ rows, sentAt s.db id i = false) (hhas : ∀ id ∈ rows, hasAt s.db id i = true) :
    (terms calm fixed).Safe machine w (fun r s' => Since calm w [] s s' ∧
      (r = .ok (.ok ()) → fixed → ∀ id ∈ rows, sentAt s'.db id i = false → Acked s'.book id i))
      (notify_at n rows event i) s := by
  obtain ⟨sink, hi, hacc⟩ := matching_sink hmatch
  simp only [notify_at, hi, hacc, Bool.not_true, Bool.false_eq_true, if_false]
  apply safe_bind
  refine safe_plain rfl (fun _ _ _ => trivial) ?_
  intro s₁ o _ hsince
  have hallowed : (exec w (.breaker_allows i) o s₁).1 = .ok o.breaker_allows := rfl
  rw [hallowed]
  dsimp only
  split
  · exact ⟨hsince, fun h => absurd h (by simp)⟩
  · apply safe_call
    · intro s₂ h₂ _
      have h := hsince.trans h₂
      obtain ⟨j, hj, hns⟩ := hopen
      refine ⟨⟨j, hj, ?_⟩, ?_, n, ?_, hi⟩
      · exact ((h.row List.not_mem_nil (hown j hj)).sent i).trans hns
      · intro id hid
        exact ((h.row List.not_mem_nil (hown id hid)).has i).trans (hhas id hid)
      · exact h.snapshot.trans hn
    · intro s₂ o' h₂ hkept _ hothers
      have h := hsince.trans h₂
      refine ⟨h.trans ⟨hothers, rfl⟩, ?_⟩
      intro hok hf id hid hns
      have htrue : o'.notify.toBool = true := by
        have hok' : o'.notify = .ok () := Except.ok.inj hok
        rw [hok']
        rfl
      have hhas₂ := ((h.row List.not_mem_nil (hown id hid)).has i).trans (hhas id hid)
      change Acked ((s₂.tick o').sent_to rows i sink event o'.notify.toBool).book id i
      rw [htrue]
      exact acked_of_sent (s := s₂.tick o') event (hkept.meaning hf) (h.snapshot.trans hn) hi hid
        hhas₂ hns

theorem safe_round (rows : List Nat) (indices : List Nat) (hn : s.book.snapshot w = some n)
    (hmatch : ∀ i ∈ indices, i ∈ matching_indices n event)
    (hown : ∀ id ∈ rows, s.book.attempt id = some w)
    (hopen : ∀ i ∈ indices, ∃ id ∈ rows, sentAt s.db id i = false)
    (hhas : ∀ i ∈ indices, ∀ id ∈ rows, hasAt s.db id i = true) :
    (terms calm fixed).Safe machine w (Told calm fixed w rows indices s)
      ( notify_partial n rows event indices) s := by
  induction indices generalizing s with
  | nil =>
    refine ⟨Since.refl w [] s, ?_, ?_⟩
    · intro results h
      rw [← Except.ok.inj h]
      rfl
    · intro results h i hi
      rw [← Except.ok.inj h] at hi
      exact absurd hi List.not_mem_nil
  | cons i rest ih =>
    apply safe_bind
    refine safe_mono (safe_notify_at hn (hmatch i List.mem_cons_self) hown
      (hopen i List.mem_cons_self) (hhas i List.mem_cons_self)) ?_
    rintro r s₁ ⟨h₁, hack₁⟩
    cases r with
    | error e => exact ⟨h₁, fun _ h => absurd h (by simp), fun _ h => absurd h (by simp)⟩
    | ok result =>
      apply safe_bind
      refine safe_mono (ih (h₁.snapshot.trans hn)
        (fun j hj => hmatch j (List.mem_cons_of_mem i hj))
        (fun id hid => h₁.own List.not_mem_nil (hown id hid)) ?_ ?_) ?_
      · intro j hj
        obtain ⟨id, hid, hns⟩ := hopen j (List.mem_cons_of_mem i hj)
        exact ⟨id, hid, ((h₁.row List.not_mem_nil (hown id hid)).sent j).trans hns⟩
      · intro j hj id hid
        exact ((h₁.row List.not_mem_nil (hown id hid)).has j).trans
          (hhas j (List.mem_cons_of_mem i hj) id hid)
      · intro r s₂ h₂
        cases r with
        | error e =>
          exact ⟨h₁.trans h₂.since, fun _ h => absurd h (by simp), fun _ h => absurd h (by simp)⟩
        | ok results =>
          refine ⟨h₁.trans h₂.since, ?_, ?_⟩
          · intro l hl
            rw [← Except.ok.inj hl, List.map_cons, h₂.indices results rfl]
          · intro l hl j hj hf id hid hns
            rw [← Except.ok.inj hl] at hj
            rcases List.mem_cons.mp hj with hj | hj
            · obtain ⟨rfl, hres⟩ := Prod.mk.inj hj
              have ho₁ := h₁.own List.not_mem_nil (hown id hid)
              have hrow := h₂.since.row List.not_mem_nil ho₁
              have hns₁ := (hrow.sent j).symm.trans hns
              have hhas₁ := ((h₁.row List.not_mem_nil (hown id hid)).has j).trans
                (hhas j List.mem_cons_self id hid)
              exact h₂.since.acked List.not_mem_nil ho₁ hhas₁
                (hack₁ (by rw [← hres]) hf id hid hns₁)
            · exact h₂.acked results rfl j hj hf id hid hns

theorem exec_abandon (w id : Nat) (indices : List Nat) (error : String) (o : Oracle) (s : World) :
    ((exec w (.abandon_retryable_sinks id indices error) o s).2.db = s.db ∨
      (exec w (.abandon_retryable_sinks id indices error) o s).2.db =
        (abandon_retryable_sinks s.db id indices error).2) ∧
    (exec w (.abandon_retryable_sinks id indices error) o s).2.book = s.book := by
  cases hfail : o.fails <;> simp [exec, stored, hfail, World.wrote, World.tick]

theorem safe_abandon (indices : List Nat) (error : String) (hh : Holds w id has open_ s) :
    (terms calm fixed).Safe machine w (fun _ s' => Recorded calm w id has open_ s s')
      (perform (.abandon_retryable_sinks id indices error)) s := by
  refine safe_work rfl rfl (fun _ h => h) hh.own (fun _ _ ho => ho) ?_
  intro s₁ o h₁ hwork
  obtain ⟨hdb, hbook⟩ := exec_abandon w id indices error o s₁
  refine recorded_of_write (p := fun j i r => j = id &&
    (indices.isEmpty || indices.contains i) && r.status.retryable) h₁ hh hwork.since hbook hdb ?_
  intro j hj
  refine ⟨hj, ?_⟩
  intro k hk
  simp only [Bool.and_eq_true] at hk
  refine ⟨?_, by simp [SinkRow.abandoned]⟩
  intro he
  simp [he, Status.retryable] at hk

theorem safe_abandon_orphans (event : Event) (orphans : List Nat) (hh : Holds w id has open_ s) :
    (terms calm fixed).Safe machine w (fun _ s' => Recorded calm w id has open_ s s')
      (abandon_orphans id event orphans) s := by
  unfold abandon_orphans
  split
  · exact (Since.refl w [] s).recorded hh
  · apply safe_bind
    refine safe_mono (safe_abandon orphans _ hh) ?_
    intro r s₁ h₁
    cases r with
    | error e => exact h₁
    | ok _ => exact h₁

/-! ## One row -/

/-- What a worker knows of a row it has claimed. -/
def Claimed (w id : Nat) (s : World) : Prop := Holds w id [] [] s

theorem Since.claimed (h : Since calm w ids s s') (hj : id ∉ ids) (hc : Claimed w id s) :
    Claimed w id s' := h.holds hj hc

theorem safe_send_pending (source_id : String) (seen : SeenUpsert) {pending : List Nat}
    (hn : s.book.snapshot w = some n) (hmatch : ∀ i ∈ pending, i ∈ matching_indices n event)
    (hnodup : pending.Nodup) (hh : Holds w id pending pending s) :
    (terms calm fixed).Safe machine w (fun _ s' => Since calm w [id] s s')
      (send_pending n id event source_id seen pending) s := by
  apply safe_bind
  refine safe_mono (safe_round [id] pending hn hmatch ?_ ?_ ?_) ?_
  · intro j hj
    rw [List.mem_singleton.mp hj]
    exact hh.own
  · exact fun i hi => ⟨id, List.mem_singleton_self id, hh.unsent i hi⟩
  · intro i hi j hj
    rw [List.mem_singleton.mp hj]
    exact hh.has i hi
  intro r s₁ h₁
  cases r with
  | error e => exact h₁.since.widen
  | ok results =>
    have hh₁ := h₁.since.holds List.not_mem_nil hh
    have hmap := h₁.indices results rfl
    apply safe_bind
    refine safe_mono (safe_bystander never_emit_breaker_alerts) ?_
    intro r s₂ h₂
    cases r with
    | error e => exact (h₁.since.trans h₂).widen
    | ok _ =>
      have hh₂ := h₂.holds List.not_mem_nil hh₁
      have hrec : Holds w id pending (results.map Prod.fst) s₂ := by
        rw [hmap]
        exact hh₂
      apply safe_bind
      refine safe_mono (safe_record_results results ⟨false, false⟩ hrec
        (by rw [hmap]; exact hnodup) ?_) ?_
      · intro i hi hf
        have hin : i ∈ pending := by
          rw [← hmap]
          exact List.mem_map_of_mem (f := Prod.fst) hi
        refine ⟨hin, h₂.acked List.not_mem_nil hh₁.own (hh₁.has i hin) ?_⟩
        exact h₁.acked results rfl i hi hf id (List.mem_singleton_self id) (hh₁.unsent i hin)
      · intro r s₃ h₃
        have h := (h₁.since.trans h₂).widen.trans h₃.since
        cases r with
        | error e => exact h
        | ok t =>
          apply safe_bind
          refine safe_mono (safe_sync_outbox_status_alert source_id h₃.own) ?_
          intro r s₄ h₄
          have h' := h.trans h₄.since
          cases r with
          | error e => exact h'
          | ok _ =>
            dsimp only
            split
            · exact h'
            · refine safe_settle h₄.own ?_ ?_ ?_
              · intro s₅ h₅ hall
                refine safe_mono (safe_complete_or_failed source_id seen
                  (h₅.own List.not_mem_nil h₄.own) hall) ?_
                exact fun _ _ h₆ => (h'.trans h₅.widen).trans h₆
              · exact fun s₅ h₅ => h'.trans h₅.widen
              · exact fun s₅ _ h₅ => h'.trans h₅.since

theorem exec_ensure {sinks : List (Nat × String)} {o : Oracle}
    (h : (exec w (.ensure_sink_deliveries id sinks) o s).1 = .ok ()) :
    ensure_sink_deliveries s.db id sinks =
      some (exec w (.ensure_sink_deliveries id sinks) o s).2.db := by
  simp only [exec, World.tick] at h ⊢
  cases he : ensure_sink_deliveries s.db id sinks with
  | none => simp [he] at h
  | some db =>
    simp only [he, stored] at h ⊢
    cases hfail : o.fails with
    | some e => simp [hfail] at h
    | none => simp [World.wrote]

theorem hasAt_ensure {db db' : Db} {sinks : List (Nat × String)}
    (he : ensure_sink_deliveries db id sinks = some db') (hi : i ∈ sinks.map Prod.fst) :
    hasAt db' id i = true := by
  unfold hasAt
  rw [(sink_ensure he id i).2, if_pos rfl, Option.isSome_or, Bool.or_eq_true]
  right
  obtain ⟨x, hx, rfl⟩ := List.mem_map.mp hi
  rw [Option.isSome_map, List.find?_isSome]
  exact ⟨x, hx, by simp⟩

/-- The ledger of the row is opened for the listed sinks. -/
theorem safe_ensure {sinks : List (Nat × String)} (hc : Claimed w id s)
    (hn : s.book.snapshot w = some n) (hin : ∀ x ∈ sinks, x.1 < n.length) :
    (terms calm fixed).Safe machine w
      (fun r s' => Since calm w [id] s s' ∧ (r = .ok () → Holds w id (sinks.map Prod.fst) [] s'))
      (perform (.ensure_sink_deliveries id sinks)) s := by
  refine safe_work rfl rfl (fun _ h => h) hc.own ?_ ?_
  · intro s₁ h₁ ho₁
    exact ⟨ho₁, (h₁.claimed List.not_mem_nil hc).alive, n, h₁.snapshot.trans hn, hin⟩
  · intro s₁ o h₁ hwork
    refine ⟨hwork.since, ?_⟩
    intro hok
    have he := exec_ensure hok
    refine ⟨hwork.own, ?_, fun i hi => hasAt_ensure he hi, fun i hi => absurd hi List.not_mem_nil⟩
    simpa [Alive, (sink_ensure he id 0).1] using (h₁.claimed List.not_mem_nil hc).alive

/-- From here on the worker goes by the live notifiers. -/
theorem safe_snapshot {α : Type} {Q : Except PipelineError α → World → Prop}
    {f : Notifier → Work α}
    (hf : ∀ s₁, Others calm w [] s.db s.book s₁.db s₁.book →
      s₁.book.snapshot w = some s₁.notifiers →
      (terms calm fixed).Safe machine w Q (f s₁.notifiers) s₁) :
    (terms calm fixed).Safe machine w Q (perform .notifier_snapshot >>= f) s := by
  apply safe_bind
  refine safe_call (fun _ _ _ => trivial) ?_
  intro s₁ o h₁ _ _ hown
  exact hf _ (h₁.others.trans hown) (by simp [exec, World.looked])

theorem lt_of_matching (h : i ∈ matching_indices n event) : i < n.length :=
  List.mem_range.mp (List.mem_filter.mp h).1

/-- What a delivery of rows leaves of the other rows of the worker. -/
abbrev Elsewhere (calm : Prop) (w : Nat) (ids : List Nat) (s s' : World) : Prop :=
  Others calm w ids s.db s.book s'.db s'.book

theorem safe_deliver_to_pending_sinks (event : Event) (source_id : String) (seen : SeenUpsert)
    (hc : Claimed w id s) :
    (terms calm fixed).Safe machine w (fun _ s' => Elsewhere calm w [id] s s')
      (deliver_to_pending_sinks id event source_id seen) s := by
  apply safe_snapshot
  intro s₁ h₁ hn
  have hc₁ : Claimed w id s₁ := by
    have hrow := h₁.rows id List.not_mem_nil hc.own
    exact ⟨hrow.own, hrow.alive hc.alive, fun i hi => absurd hi List.not_mem_nil,
      fun i hi => absurd hi List.not_mem_nil⟩
  generalize s₁.notifiers = n at hn ⊢
  suffices hrest : (terms calm fixed).Safe machine w (fun _ s' => Since calm w [id] s₁ s') _ s₁ from
    safe_mono hrest (fun _ _ h => (h₁.mono (fun _ hj => absurd hj List.not_mem_nil)).trans h.others)
  dsimp only
  split
  · apply safe_bind
    refine safe_mono (safe_fail_outbox_row_alert source_id _ hc₁.own) ?_
    intro r s₂ h₂
    cases r with
    | error e => exact h₂.widen
    | ok _ => exact h₂.widen
  · apply safe_bind
    refine safe_mono (safe_ensure hc₁ hn ?_) ?_
    · intro x hx
      obtain ⟨i, hi, rfl⟩ := List.mem_map.mp hx
      exact lt_of_matching hi
    rintro r s₂ ⟨h₂, hh₂⟩
    cases r with
    | error e => exact h₂
    | ok _ =>
      have hh₂ : Holds w id (matching_indices n event) [] s₂ := by
        simpa [Function.comp_def] using hh₂ rfl
      have hn₂ : s₂.book.snapshot w = some n := h₂.snapshot.trans hn
      apply safe_bind
      refine safe_read (fun s => list_pending_sink_indices s.db id) rfl rfl (fun _ _ => rfl)
        (fun _ _ => trivial) ?_
      intro s₃ h₃
      have hh₃ := h₃.holds List.not_mem_nil hh₂
      have h := h₂.trans h₃.widen
      refine ⟨?_, fun _ => h⟩
      dsimp only
      split
      · refine safe_settle hh₃.own ?_ ?_ ?_
        · intro s₄ h₄ hall
          refine safe_mono (safe_complete_or_failed source_id seen
            (h₄.own List.not_mem_nil hh₃.own) hall) ?_
          exact fun _ _ h₅ => (h.trans h₄.widen).trans h₅
        · intro s₄ h₄
          apply safe_bind
          refine safe_mono (safe_sync_outbox_status_alert source_id
            (h₄.own List.not_mem_nil hh₃.own)) ?_
          intro r s₅ h₅
          have h' := (h.trans h₄.widen).trans h₅.since
          cases r with
          | error e => exact h'
          | ok _ => exact h'
        · exact fun s₄ _ h₄ => h.trans h₄.since
      · split
        · apply safe_bind
          refine safe_mono (safe_abandon [] _ hh₃) ?_
          intro r s₄ h₄
          have h' := h.trans h₄.since
          cases r with
          | error e => exact h'
          | ok _ =>
            apply safe_bind
            refine safe_mono (safe_fail_outbox_row_alert source_id _ h₄.holds.own) ?_
            intro r s₅ h₅
            have h'' := h'.trans h₅.widen
            cases r with
            | error e => exact h''
            | ok _ =>
              apply safe_bind
              refine safe_mono (safe_sync_outbox_status_alert source_id
                (h₅.own List.not_mem_nil h₄.holds.own)) ?_
              intro r s₆ h₆
              cases r with
              | error e => exact h''.trans h₆.since
              | ok _ => exact h''.trans h₆.since
        · set pending := (list_pending_sink_indices s₃.db id).filter
            (fun i => (matching_indices n event).contains i)
          have hmatch : ∀ i ∈ pending, i ∈ matching_indices n event := by
            intro i hi
            simpa using (List.mem_filter.mp hi).2
          have hh : Holds w id pending pending s₃ :=
            ⟨hh₃.own, hh₃.alive, fun i hi => hh₃.has i (hmatch i hi),
              fun i hi => (pending_unsent (List.mem_filter.mp hi).1).2⟩
          apply safe_bind
          refine safe_mono (safe_abandon_orphans event _ hh) ?_
          intro r s₄ h₄
          have h' := h.trans h₄.since
          cases r with
          | error e => exact h'
          | ok _ =>
            refine safe_mono (safe_send_pending source_id seen
              ((h₄.since.snapshot.trans h₃.snapshot).trans hn₂) hmatch
              ((pending_nodup s₃.db id).filter _) h₄.holds) ?_
            exact fun _ _ h₅ => h'.trans h₅

/-- The mark that the attempts are over; what follows makes no call. -/
theorem safe_through {α : Type} {s₀ : World} (ids : List Nat) {p : Work α}
    (hp : ∀ s', Elsewhere calm w ids s₀ s' →
      (terms calm fixed).Safe machine w (fun _ s'' => Elsewhere calm w ids s₀ s'') p s')
    (h : Elsewhere calm w ids s₀ s) :
    (terms calm fixed).Safe machine w (fun _ s' => Elsewhere calm w ids s₀ s')
      (perform (.through ids) >>= fun _ => p) s := by
  apply safe_bind
  refine safe_call (fun _ _ _ => trivial) ?_
  intro s₁ o h₁ _ _ hown
  exact hp _ ((h.trans h₁.widen.others).trans hown)

theorem safe_attempt_notification_delivery (attempts_before : Nat) (context : DeliveryContext)
    (hc : Claimed w id s) :
    (terms calm fixed).Safe machine w (fun _ s' => Elsewhere calm w [id] s s')
      (attempt_notification_delivery id attempts_before context) s := by
  apply safe_bind
  refine safe_mono (safe_bystander (p := enrich_with_advisories context)
    (never_bind (never_bystander rfl) (fun _ => trivial))) ?_
  intro r s₁ h₁
  cases r with
  | error e => exact h₁.widen.others
  | ok enriched =>
    apply safe_bind
    apply safe_caught
    refine safe_mono (safe_deliver_to_pending_sinks _ context.source_id context.seen
      (h₁.claimed List.not_mem_nil hc)) ?_
    intro outcome s₂ h₂
    apply safe_bind
    refine safe_mono (safe_bystander (never_backoff_after id attempts_before outcome)) ?_
    intro r s₃ h₃
    have h := (h₁.widen.others.trans h₂).trans h₃.widen.others
    cases r with
    | error e => exact h
    | ok _ =>
      refine safe_through [id] ?_ h
      intro s' h'
      cases outcome <;> exact h'

/-! ## A digest -/

section Digest

variable {group : List OutboxRecord}

/-- The outbox numbers of a group. -/
abbrev ids_of (group : List OutboxRecord) : List Nat := group.map (·.id)

theorem Since.of_first {row : OutboxRecord} (h : Since calm w [row.id] s s')
    (rest : List OutboxRecord) : Since calm w (ids_of (row :: rest)) s s' :=
  ⟨h.others.mono (by simp), h.snapshot⟩

theorem Since.of_rest {rest : List OutboxRecord} (h : Since calm w (ids_of rest) s s')
    (row : OutboxRecord) : Since calm w (ids_of (row :: rest)) s s' :=
  ⟨h.others.mono (fun _ hj => List.mem_cons_of_mem _ hj), h.snapshot⟩

/-- In a group whose rows have ids of their own, the first is none of the rest. -/
theorem first_apart {row : OutboxRecord} {rest : List OutboxRecord}
    (hd : (ids_of (row :: rest)).Nodup) :
    row.id ∉ ids_of rest ∧ (ids_of rest).Nodup ∧ ∀ row' ∈ rest, row'.id ∉ [row.id] := by
  obtain ⟨hnew, hrest⟩ := List.nodup_cons.mp hd
  refine ⟨hnew, hrest, fun row' hrow' => ?_⟩
  rw [List.mem_singleton]
  exact fun he => hnew (List.mem_map.mpr ⟨row', hrow', he⟩)

/-- What a worker knows of the rows of a wave or a group. -/
def AllClaimed (w : Nat) (group : List OutboxRecord) (s : World) : Prop :=
  ∀ row ∈ group, Claimed w row.id s

theorem AllClaimed.since (h : AllClaimed w group s) (hs : Elsewhere calm w ids s s')
    (hd : ∀ row ∈ group, row.id ∉ ids) : AllClaimed w group s' := by
  intro row hrow
  have hk := hs.rows row.id (hd row hrow) (h row hrow).own
  exact ⟨hk.own, hk.alive (h row hrow).alive, fun i hi => absurd hi List.not_mem_nil,
    fun i hi => absurd hi List.not_mem_nil⟩

theorem safe_fail_group (event : Event) (hc : AllClaimed w group s) :
    (terms calm fixed).Safe machine w (fun _ s' => Since calm w [] s s')
      (fail_group event group) s := by
  induction group generalizing s with
  | nil => exact Since.refl w [] s
  | cons row rest ih =>
    apply safe_bind
    refine safe_mono (safe_fail_outbox_row_alert row.source_id _
      (hc row List.mem_cons_self).own) ?_
    intro r s₁ h₁
    cases r with
    | error e => exact h₁
    | ok _ =>
      refine safe_mono (ih ?_) (fun _ _ h => h₁.trans h)
      intro row' hrow'
      exact h₁.claimed List.not_mem_nil (hc row' (List.mem_cons_of_mem row hrow'))

/-- The ledger of every row of the group is opened. -/
theorem safe_ensure_group {n : Notifier} {sinks : List (Nat × String)}
    (hc : AllClaimed w group s) (hd : (ids_of group).Nodup) (hn : s.book.snapshot w = some n)
    (hin : ∀ x ∈ sinks, x.1 < n.length) :
    (terms calm fixed).Safe machine w
      (fun r s' => Since calm w (ids_of group) s s' ∧
        (r = .ok () → ∀ row ∈ group, Holds w row.id (sinks.map Prod.fst) [] s'))
      (ensure_group sinks group) s := by
  induction group generalizing s with
  | nil => exact ⟨Since.refl w _ s, fun _ _ h => absurd h List.not_mem_nil⟩
  | cons row rest ih =>
    obtain ⟨hnew, hd, hne⟩ := first_apart hd
    apply safe_bind
    refine safe_mono (safe_ensure (hc row List.mem_cons_self) hn hin) ?_
    rintro r s₁ ⟨h₁, hh₁⟩
    have h := h₁.of_first rest
    cases r with
    | error e => exact ⟨h, fun h => absurd h (by simp)⟩
    | ok _ =>
      have hrest : AllClaimed w rest s₁ := by
        intro row' hrow'
        exact h₁.claimed (hne row' hrow') (hc row' (List.mem_cons_of_mem row hrow'))
      refine safe_mono (ih hrest hd (h₁.snapshot.trans hn)) ?_
      rintro r s₂ ⟨h₂, hh₂⟩
      refine ⟨h.trans (h₂.of_rest row), ?_⟩
      intro hok row' hrow'
      rcases List.mem_cons.mp hrow' with rfl | hrow'
      · exact h₂.holds hnew (hh₁ rfl)
      · exact hh₂ hok row' hrow'

/-- A row of the group with the sinks it is to go to. -/
structure Wants (w : Nat) (has : List Nat) (s : World) (row : OutboxRecord) (pending : List Nat) :
    Prop where
  holds : Holds w row.id has pending s
  nodup : pending.Nodup
  sub : pending ⊆ has

variable {row : OutboxRecord} {P : OutboxRecord → List Nat → Prop} {lists : List (List Nat)}
  {results : List (Nat × Except NotifyError Unit)}

theorem Wants.since (h : Since calm w ids s s') {pending : List Nat} (hj : row.id ∉ ids)
    (hw : Wants w has s row pending) : Wants w has s' row pending :=
  ⟨h.holds hj hw.holds, hw.nodup, hw.sub⟩

/-- What follows for every row of a group from what holds of it. -/
theorem forall_mem {P' : OutboxRecord → List Nat → Prop}
    (hP : ∀ row ∈ group, ∀ pending, P row pending → P' row pending)
    (h : List.Forall₂ P group lists) : List.Forall₂ P' group lists := by
  induction h with
  | nil => exact List.Forall₂.nil
  | cons hhead _ ih =>
    exact List.Forall₂.cons (hP _ List.mem_cons_self _ hhead)
      (ih (fun row hrow => hP row (List.mem_cons_of_mem _ hrow)))

theorem safe_pending_of_group (event : Event) {matching : List Nat}
    (hh : ∀ row ∈ group, Holds w row.id matching [] s) (hd : (ids_of group).Nodup) :
    (terms calm fixed).Safe machine w
      (fun r s' => Since calm w (ids_of group) s s' ∧
        ∀ lists, r = .ok lists → List.Forall₂ (Wants w matching s') group lists)
      (pending_of_group event matching group) s := by
  induction group generalizing s with
  | nil =>
    refine ⟨Since.refl w _ s, ?_⟩
    intro lists h
    rw [← Except.ok.inj h]
    exact List.Forall₂.nil
  | cons row rest ih =>
    obtain ⟨hnew, hd, hne⟩ := first_apart hd
    have hrow := hh row List.mem_cons_self
    apply safe_bind
    refine safe_read (fun s => list_pending_sink_indices s.db row.id) rfl rfl (fun _ _ => rfl)
      (fun _ _ => trivial) ?_
    intro s₁ h₁
    have hrow₁ := h₁.holds List.not_mem_nil hrow
    refine ⟨?_, fun e => ⟨h₁.widen, fun _ h => absurd h (by simp)⟩⟩
    set pending := (list_pending_sink_indices s₁.db row.id).filter (fun i => matching.contains i)
      with hpending
    have hwants : Wants w matching s₁ row pending := by
      refine ⟨⟨hrow₁.own, hrow₁.alive, hrow₁.has, ?_⟩, (pending_nodup s₁.db row.id).filter _, ?_⟩
      · intro i hi
        exact (pending_unsent (List.mem_filter.mp hi).1).2
      · intro i hi
        simpa using (List.mem_filter.mp hi).2
    apply safe_bind
    refine safe_mono (safe_abandon_orphans event _ hwants.holds) ?_
    intro r s₂ h₂
    have hs₂ := h₁.widen.trans (h₂.since.of_first rest)
    cases r with
    | error e => exact ⟨hs₂, fun _ h => absurd h (by simp)⟩
    | ok _ =>
      have hrest : ∀ row' ∈ rest, Holds w row'.id matching [] s₂ := by
        intro row' hrow'
        exact h₂.since.holds (hne row' hrow')
          (h₁.holds List.not_mem_nil (hh row' (List.mem_cons_of_mem row hrow')))
      apply safe_bind
      refine safe_mono (ih hrest hd) ?_
      rintro r s₃ ⟨h₃, hl₃⟩
      have hs₃ := hs₂.trans (h₃.of_rest row)
      cases r with
      | error e => exact ⟨hs₃, fun _ h => absurd h (by simp)⟩
      | ok others =>
        refine ⟨hs₃, ?_⟩
        intro lists hl
        rw [← Except.ok.inj hl]
        exact List.Forall₂.cons
          ((Wants.mk h₂.holds hwants.nodup hwants.sub).since h₃ hnew) (hl₃ others rfl)

theorem safe_settle_group (ho : ∀ row ∈ group, s.book.attempt row.id = some w)
    (hd : (ids_of group).Nodup) :
    (terms calm fixed).Safe machine w (fun _ s' => Since calm w (ids_of group) s s')
      (settle_group group) s := by
  induction group generalizing s with
  | nil => exact Since.refl w _ s
  | cons row rest ih =>
    obtain ⟨hnew, hd, hne⟩ := first_apart hd
    have hrow := ho row List.mem_cons_self
    have hsettled : (terms calm fixed).Safe machine w (fun _ s' => Since calm w [row.id] s s')
        (settle_row row) s := by
      refine safe_settle hrow ?_ ?_ (fun _ _ h => h.since)
      · intro s₁ h₁ hall
        exact safe_mono (safe_complete_or_failed row.source_id _ (h₁.own List.not_mem_nil hrow) hall)
          (fun _ _ h => h₁.widen.trans h)
      · intro s₁ h₁
        apply safe_bind
        refine safe_mono (safe_sync_outbox_status_alert row.source_id
          (h₁.own List.not_mem_nil hrow)) ?_
        intro r s₂ h₂
        cases r with
        | error e => exact h₁.widen.trans h₂.since
        | ok _ => exact h₁.widen.trans h₂.since
    apply safe_bind
    refine safe_mono hsettled ?_
    intro r s₁ h₁
    have h := h₁.of_first rest
    cases r with
    | error e => exact h
    | ok outcome =>
      apply safe_bind
      refine safe_mono (ih ?_ hd) ?_
      · intro row' hrow'
        exact h₁.own (hne row' hrow') (ho row' (List.mem_cons_of_mem row hrow'))
      · intro r s₂ h₂
        have h' := h.trans (h₂.of_rest row)
        cases r with
        | error e => exact h'
        | ok _ => exact h'

/-- The shared result goes into the ledger of one row. -/
theorem safe_settle_digest_row {pending : List Nat} (hw : Wants w has s row pending)
    (hn : (results.map Prod.fst).Nodup)
    (hack : ∀ i, (i, .ok ()) ∈ results → fixed → i ∈ pending → Acked s.book row.id i) :
    (terms calm fixed).Safe machine w (fun _ s' => Since calm w [row.id] s s')
      (settle_digest_row row pending results) s := by
  have hmem : ∀ i ∈ (results.filter (fun r => pending.contains r.1)).map Prod.fst, i ∈ pending := by
    intro i hi
    obtain ⟨r, hr, rfl⟩ := List.mem_map.mp hi
    simpa using (List.mem_filter.mp hr).2
  apply safe_bind
  refine safe_mono (safe_record_results _ ⟨false, false⟩ (hw.holds.shrink (fun _ h => h) hmem)
    (hn.sublist (List.filter_sublist.map _)) ?_) ?_
  · intro i hi hf
    obtain ⟨hin, hpend⟩ := List.mem_filter.mp hi
    have hip : i ∈ pending := by simpa using hpend
    exact ⟨hw.sub hip, hack i hin hf hip⟩
  · intro r s₁ h₁
    cases r with
    | error e => exact h₁.since
    | ok t =>
      apply safe_bind
      refine safe_mono (safe_sync_outbox_status_alert row.source_id h₁.own) ?_
      intro r s₂ h₂
      have h := h₁.since.trans h₂.since
      cases r with
      | error e => exact h
      | ok _ =>
        refine safe_settle h₂.own ?_ ?_ (fun _ _ h₃ => h.trans h₃.since)
        · intro s₃ h₃ hall
          refine safe_mono (safe_complete_or_failed row.source_id _
            (h₃.own List.not_mem_nil h₂.own) hall) ?_
          exact fun _ _ h₄ => (h.trans h₃.widen).trans h₄
        · intro s₃ h₃
          split <;> exact h.trans h₃.widen

/-- A row of the group whose good sends are acknowledged. -/
structure Due (fixed : Prop) (w : Nat) (has : List Nat)
    (results : List (Nat × Except NotifyError Unit)) (s : World) (row : OutboxRecord)
    (pending : List Nat) : Prop where
  wants : Wants w has s row pending
  acked : ∀ i, (i, .ok ()) ∈ results → fixed → i ∈ pending → Acked s.book row.id i

theorem Due.since (h : Since calm w ids s s') {pending : List Nat} (hj : row.id ∉ ids)
    (hw : Due fixed w has results s row pending) : Due fixed w has results s' row pending where
  wants := hw.wants.since h hj
  acked := fun i hi hf hp => h.acked hj hw.wants.holds.own
    (hw.wants.holds.has i (hw.wants.sub hp)) (hw.acked i hi hf hp)

theorem safe_settle_digest (hw : List.Forall₂ (Due fixed w has results s) group lists)
    (hd : (ids_of group).Nodup) (hn : (results.map Prod.fst).Nodup) :
    (terms calm fixed).Safe machine w (fun _ s' => Since calm w (ids_of group) s s')
      (settle_digest results (group.zip lists)) s := by
  induction group generalizing s lists with
  | nil => exact Since.refl w _ s
  | cons row rest ih =>
    obtain ⟨hnew, hd, hne⟩ := first_apart hd
    cases hw with
    | @cons _ pending _ others hrow hrest =>
      apply safe_bind
      refine safe_mono (safe_settle_digest_row hrow.wants hn hrow.acked) ?_
      intro r s₁ h₁
      have h := h₁.of_first rest
      cases r with
      | error e => exact h
      | ok outcome =>
        apply safe_bind
        refine safe_mono (ih (forall_mem (fun row' hrow' _ hdue =>
          hdue.since h₁ (hne row' hrow')) hrest) hd) ?_
        intro r s₂ h₂
        have h' := h.trans (h₂.of_rest row)
        cases r with
        | error e => exact h'
        | ok _ => exact h'

theorem union_foldl (l acc : List Nat) (h : acc.Nodup) :
    (l.foldl (fun acc i => if acc.contains i then acc else acc ++ [i]) acc).Nodup ∧
      ∀ i, i ∈ l.foldl (fun acc i => if acc.contains i then acc else acc ++ [i]) acc ↔
        i ∈ acc ∨ i ∈ l := by
  induction l generalizing acc with
  | nil => simp [h]
  | cons a l ih =>
    rw [List.foldl_cons]
    by_cases ha : acc.contains a = true
    · rw [if_pos ha]
      refine ⟨(ih acc h).1, ?_⟩
      intro i
      rw [(ih acc h).2 i, List.mem_cons]
      have ha' : a ∈ acc := by simpa using ha
      constructor
      · rintro (hi | hi)
        · exact Or.inl hi
        · exact Or.inr (Or.inr hi)
      · rintro (hi | rfl | hi)
        · exact Or.inl hi
        · exact Or.inl ha'
        · exact Or.inr hi
    · rw [if_neg ha]
      have hna : a ∉ acc := by simpa using ha
      have hn : (acc ++ [a]).Nodup :=
        List.nodup_append.mpr ⟨h, List.nodup_singleton a, by
          rintro b hb c hc rfl
          exact hna (List.mem_singleton.mp hc ▸ hb)⟩
      refine ⟨(ih _ hn).1, ?_⟩
      intro i
      rw [(ih _ hn).2 i, List.mem_append, List.mem_singleton, List.mem_cons, or_assoc]

theorem union_of_nodup (lists : List (List Nat)) : (union_of lists).Nodup :=
  (union_foldl lists.flatten [] List.nodup_nil).1

theorem mem_union_of (lists : List (List Nat)) (i : Nat) :
    i ∈ union_of lists ↔ ∃ l ∈ lists, i ∈ l := by
  unfold union_of
  rw [(union_foldl lists.flatten [] List.nodup_nil).2 i]
  simp

/-- Whoever is paired with a list of pending sinks is in the group. -/
theorem exists_of_forall (h : List.Forall₂ P group lists) {l : List Nat} (hl : l ∈ lists) :
    ∃ row ∈ group, P row l := by
  induction h with
  | nil => exact absurd hl List.not_mem_nil
  | cons hhead _ ih =>
    rcases List.mem_cons.mp hl with rfl | hl
    · exact ⟨_, List.mem_cons_self, hhead⟩
    · obtain ⟨row, hrow, hP⟩ := ih hl
      exact ⟨row, List.mem_cons_of_mem _ hrow, hP⟩

theorem forall_of_exists (h : List.Forall₂ P group lists) (hrow : row ∈ group) :
    ∃ l ∈ lists, P row l := by
  induction h with
  | nil => exact absurd hrow List.not_mem_nil
  | cons hhead _ ih =>
    rcases List.mem_cons.mp hrow with rfl | hrow
    · exact ⟨_, List.mem_cons_self, hhead⟩
    · obtain ⟨l, hl, hP⟩ := ih hrow
      exact ⟨l, List.mem_cons_of_mem _ hl, hP⟩

/-- The digest goes to every sink that some row of the group still lacks. -/
theorem safe_send_digest {n : Notifier} (event : Event) (hn : s.book.snapshot w = some n)
    (hd : (ids_of group).Nodup)
    (hw : List.Forall₂ (Wants w (matching_indices n event) s) group lists) :
    (terms calm fixed).Safe machine w (fun _ s' => Since calm w (ids_of group) s s')
      (do
        let results ← notify_partial n (group.map (·.id)) event (union_of lists)
        emit_breaker_alerts
        settle_digest results (group.zip lists)) s := by
  have hall : ∀ row ∈ group, Holds w row.id (matching_indices n event) [] s := by
    intro row hrow
    obtain ⟨l, _, hP⟩ := forall_of_exists hw hrow
    exact hP.holds.shrink (fun _ h => h) (List.nil_subset _)
  have hone : ∀ i ∈ union_of lists, ∃ row ∈ group, i ∈ matching_indices n event ∧
      sentAt s.db row.id i = false := by
    intro i hi
    obtain ⟨l, hl, hil⟩ := (mem_union_of lists i).mp hi
    obtain ⟨row, hrow, hP⟩ := exists_of_forall hw hl
    exact ⟨row, hrow, hP.sub hil, hP.holds.unsent i hil⟩
  apply safe_bind
  refine safe_mono (safe_round (ids_of group) (union_of lists) hn ?_ ?_ ?_ ?_) ?_
  · intro i hi
    obtain ⟨_, _, hm, _⟩ := hone i hi
    exact hm
  · intro id hid
    obtain ⟨row, hrow, rfl⟩ := List.mem_map.mp hid
    exact (hall row hrow).own
  · intro i hi
    obtain ⟨row, hrow, _, hns⟩ := hone i hi
    exact ⟨row.id, List.mem_map_of_mem (f := (·.id)) hrow, hns⟩
  · intro i hi id hid
    obtain ⟨_, _, hm, _⟩ := hone i hi
    obtain ⟨row, hrow, rfl⟩ := List.mem_map.mp hid
    exact (hall row hrow).has i hm
  intro r s₁ h₁
  cases r with
  | error e => exact h₁.since.widen
  | ok results =>
    apply safe_bind
    refine safe_mono (safe_bystander never_emit_breaker_alerts) ?_
    intro r s₂ h₂
    have h := h₁.since.trans h₂
    cases r with
    | error e => exact h.widen
    | ok _ =>
      have hmap := h₁.indices results rfl
      have hw₁ := forall_mem (fun _ _ _ hP => Wants.since h₁.since List.not_mem_nil hP) hw
      have hdue : List.Forall₂ (Due fixed w (matching_indices n event) results s₁) group lists := by
        refine forall_mem ?_ hw₁
        intro row hrow pending hP
        refine ⟨hP, ?_⟩
        intro i hi hf hip
        exact h₁.acked results rfl i hi hf row.id (List.mem_map_of_mem (f := (·.id)) hrow)
          (hP.holds.unsent i hip)
      have hdue₂ := forall_mem (fun _ _ _ hP => Due.since h₂ List.not_mem_nil hP) hdue
      refine safe_mono (safe_settle_digest hdue₂ hd (by rw [hmap]; exact union_of_nodup lists)) ?_
      exact fun _ _ h₃ => h.widen.trans h₃

theorem safe_deliver_digest (event : Event) (hc : AllClaimed w group s)
    (hd : (ids_of group).Nodup) :
    (terms calm fixed).Safe machine w (fun _ s' => Elsewhere calm w (ids_of group) s s')
      (deliver_digest_to_pending_sinks event group) s := by
  apply safe_snapshot
  intro s₁ h₁ hn
  have hc₁ : AllClaimed w group s₁ := hc.since h₁ (fun _ _ => List.not_mem_nil)
  generalize s₁.notifiers = n at hn ⊢
  suffices hrest : (terms calm fixed).Safe machine w
      (fun _ s' => Since calm w (ids_of group) s₁ s') _ s₁ from
    safe_mono hrest (fun _ _ h => (h₁.mono (fun _ hj => absurd hj List.not_mem_nil)).trans h.others)
  dsimp only
  split
  · apply safe_bind
    refine safe_mono (safe_fail_group event hc₁) ?_
    intro r s₂ h₂
    cases r with
    | error e => exact h₂.widen
    | ok _ => exact h₂.widen
  · apply safe_bind
    refine safe_mono (safe_ensure_group hc₁ hd hn ?_) ?_
    · intro x hx
      obtain ⟨i, hi, rfl⟩ := List.mem_map.mp hx
      exact lt_of_matching hi
    rintro r s₂ ⟨h₂, hh₂⟩
    cases r with
    | error e => exact h₂
    | ok _ =>
      have hh₂ : ∀ row ∈ group, Holds w row.id (matching_indices n event) [] s₂ := by
        intro row hrow
        simpa [Function.comp_def] using hh₂ rfl row hrow
      apply safe_bind
      refine safe_mono (safe_pending_of_group event hh₂ hd) ?_
      rintro r s₃ ⟨h₃, hl₃⟩
      have h := h₂.trans h₃
      cases r with
      | error e => exact h
      | ok lists =>
        have hw := hl₃ lists rfl
        dsimp only
        split
        · refine safe_mono (safe_settle_group ?_ hd) (fun _ _ h₄ => h.trans h₄)
          intro row hrow
          obtain ⟨_, _, hP⟩ := forall_of_exists hw hrow
          exact hP.holds.own
        · exact safe_mono (safe_send_digest event (h.snapshot.trans hn) hd hw)
            (fun _ _ h₄ => h.trans h₄)

theorem never_backoff_group (l : List (OutboxRecord × DeliveryAttempt)) :
    (backoff_group l).Never steps_in := by
  induction l with
  | nil => trivial
  | cons head rest ih =>
    obtain ⟨row, attempt⟩ := head
    exact never_bind (never_backoff_after _ _ _) (fun _ => never_bind ih (fun _ => trivial))

theorem safe_deliver_claimed_outbox_digest (hc : AllClaimed w group s)
    (hd : (ids_of group).Nodup) :
    (terms calm fixed).Safe machine w (fun _ s' => Elsewhere calm w (ids_of group) s s')
      (deliver_claimed_outbox_digest group) s := by
  apply safe_bind
  apply safe_caught
  apply safe_bind
  refine safe_mono (safe_deliver_digest (build_digest_event group) hc hd) ?_
  have hover : ∀ (outcome : Except PipelineError (List (String × Bool))) s',
      Elsewhere calm w (ids_of group) s s' →
      (terms calm fixed).Safe machine w (fun _ s'' => Elsewhere calm w (ids_of group) s s'')
        (perform (.through (group.map (·.id))) >>= fun _ => resume outcome) s' := by
    intro outcome s' h
    refine safe_through (ids_of group) ?_ h
    intro s'' h''
    cases outcome <;> exact h''
  intro r s₁ h₁
  cases r with
  | error e => exact hover (.error e) s₁ h₁
  | ok outcomes =>
    refine safe_mono (safe_bystander (never_backoff_group (group.zip outcomes))) ?_
    exact fun outcome s₂ h₂ => hover outcome s₂ (h₁.trans h₂.widen.others)

end Digest

/-! ## The flush -/

theorem rows_unit_of (l : List OutboxRecord) : (unit_of l).rows = l := by
  unfold unit_of
  split <;> rfl

/-- Rows sorted into groups by a key are the rows whose key has a group. -/
theorem flatMap_filter_perm {α κ : Type} [DecidableEq κ] (key : α → κ) (l : List α)
    {keys : List κ} (hn : keys.Nodup) :
    (keys.flatMap (fun k => l.filter (fun a => key a = k))).Perm
      (l.filter (fun a => key a ∈ keys)) := by
  induction keys with
  | nil => simp
  | cons k keys ih =>
    rw [List.nodup_cons] at hn
    have hsplit : (l.filter (fun a => key a ∈ k :: keys)).Perm
        ((l.filter (fun a => key a = k)) ++ l.filter (fun a => key a ∈ keys)) := by
      have h := List.filter_append_perm (fun a => decide (key a = k))
        (l.filter (fun a => key a ∈ k :: keys))
      rw [List.filter_filter, List.filter_filter] at h
      refine h.symm.trans (List.Perm.of_eq ?_)
      congr 1
      · apply List.filter_congr
        intro a _
        by_cases ha : key a = k <;> simp [ha]
      · apply List.filter_congr
        intro a _
        by_cases ha : key a = k
        · simp [ha, hn.1]
        · simp [ha]
    rw [List.flatMap_cons]
    exact ((ih hn.2).append_left _).trans hsplit.symm

/-- The units of a wave hold its rows, each once. -/
theorem rows_partition_for_digest (order : List Nat) (wave : List OutboxRecord) :
    ((partition_for_digest order wave).flatMap (·.rows)).Perm wave := by
  unfold partition_for_digest
  simp only
  set deferred := wave.filter (fun row => row.deliver_after.isSome)
  set keys := arrange order (deferred.map group_key).dedup with hkeys
  have hnodup : keys.Nodup := (arrange_perm order _).nodup_iff.mpr (List.nodup_dedup _)
  have hgroups : (keys.flatMap (fun k => deferred.filter (fun row => group_key row = k))).Perm
      deferred := by
    refine (flatMap_filter_perm group_key deferred hnodup).trans (List.Perm.of_eq ?_)
    rw [List.filter_eq_self]
    intro row hrow
    simp only [hkeys, mem_arrange, List.mem_dedup, decide_eq_true_eq]
    exact List.mem_map_of_mem (f := group_key) hrow
  have hsingle : ∀ l : List OutboxRecord, (l.map DeliveryUnit.single).flatMap (·.rows) = l := by
    intro l
    induction l with
    | nil => rfl
    | cons row rest ih => simpa [DeliveryUnit.rows] using ih
  have hdigest : (keys.map (fun key =>
      unit_of (deferred.filter (fun row => group_key row = key)))).flatMap (·.rows) =
        keys.flatMap (fun k => deferred.filter (fun row => group_key row = k)) := by
    rw [List.flatMap_map]
    simp only [rows_unit_of]
  rw [List.flatMap_append, hsingle, hdigest]
  refine (hgroups.append_left _).trans ?_
  have h := List.filter_append_perm (fun row : OutboxRecord => row.deliver_after.isSome) wave
  refine List.perm_append_comm.trans ((List.Perm.of_eq ?_).trans h)
  congr 1
  apply List.filter_congr
  intro row _
  cases row.deliver_after <;> rfl

theorem safe_deliver_unit (unit : DeliveryUnit) (hc : AllClaimed w unit.rows s)
    (hd : (ids_of unit.rows).Nodup) :
    (terms calm fixed).Safe machine w (fun _ s' => Elsewhere calm w (ids_of unit.rows) s s')
      (deliver_unit unit) s := by
  cases unit with
  | single row =>
    apply safe_bind
    refine safe_mono (safe_attempt_notification_delivery row.attempts _
      (hc row (List.mem_singleton_self row))) ?_
    intro r s₁ h₁
    cases r with
    | error e => exact h₁
    | ok _ => exact h₁
  | digest group => exact safe_deliver_claimed_outbox_digest hc hd

theorem safe_deliver_wave (units : List DeliveryUnit) (st : FlushState)
    (hc : AllClaimed w (units.flatMap (·.rows)) s)
    (hd : (ids_of (units.flatMap (·.rows))).Nodup) :
    (terms calm fixed).Safe machine w (fun _ _ => True) (deliver_wave st units) s := by
  induction units generalizing s st with
  | nil => trivial
  | cons unit rest ih =>
    rw [List.flatMap_cons] at hc hd
    rw [ids_of, List.map_append, List.nodup_append] at hd
    obtain ⟨hunit, hrest, hdisj⟩ := hd
    apply safe_bind
    apply safe_caught
    refine safe_mono (safe_deliver_unit unit
      (fun row hrow => hc row (List.mem_append_left _ hrow)) hunit) ?_
    intro r s₁ h₁
    have hc₁ : AllClaimed w (rest.flatMap (·.rows)) s₁ := by
      refine AllClaimed.since (fun row hrow => hc row (List.mem_append_right _ hrow)) h₁ ?_
      intro row hrow hin
      exact hdisj row.id hin row.id (List.mem_map_of_mem (f := (·.id)) hrow) rfl
    cases r with
    | error e => exact ih _ hc₁ hrest
    | ok rows => exact ih _ hc₁ hrest

/-! ## Claims -/

theorem claim_batch_ids_nodup (db : Db) (now : DateTime) (order back locked : List Nat)
    (limit : Nat) : (claim_batch_ids db now order back locked limit).Nodup := by
  unfold claim_batch_ids
  rw [(arrange_perm back _).nodup_iff]
  refine List.Nodup.sublist (List.Sublist.map _ (List.take_sublist _ _)) ?_
  refine (((List.perm_insertionSort _ _).trans (arrange_perm order _)).map _).nodup_iff.mpr ?_
  exact Serial.select_nodup _ _

theorem ids_of_filterMap (g : Nat → Option OutboxRow) (l : List Nat) :
    (ids_of (l.filterMap (fun id => (g id).map (outbox_record_from_row id)))).Sublist l := by
  induction l with
  | nil => exact List.Sublist.slnil
  | cons a l ih =>
    rw [List.filterMap_cons]
    cases g a with
    | none => exact List.Sublist.cons _ ih
    | some r => exact List.Sublist.cons_cons _ ih

/-- The rows that a batch claim hands out are the worker's, each once. -/
theorem claimed_of_batch {limit lease_secs : Nat} {o : Oracle} {wave : List OutboxRecord}
    (h : (exec w (.claim_outbox_batch limit lease_secs) o s).1 = .ok wave) :
    AllClaimed w wave (exec w (.claim_outbox_batch limit lease_secs) o s).2 ∧
      (ids_of wave).Nodup := by
  cases hfail : o.fails with
  | some e => simp [exec, stored, hfail] at h
  | none =>
    simp only [exec, stored, hfail, Except.ok.injEq] at h ⊢
    subst h
    refine ⟨?_, (claim_batch_ids_nodup _ _ _ _ _ _).sublist (ids_of_filterMap _ _)⟩
    intro row hrow
    obtain ⟨id, hid, hmap⟩ := List.mem_filterMap.mp hrow
    obtain ⟨r', _, rfl⟩ := Option.map_eq_some_iff.mp hmap
    obtain ⟨r, hr, hclaim⟩ := mem_claim_batch_ids _ _ id hid
    refine ⟨by simp [World.claimed, World.wrote, outbox_record_from_row, hid], ?_,
      fun i hi => absurd hi List.not_mem_nil, fun i hi => absurd hi List.not_mem_nil⟩
    simp only [OutboxRow.claimable, Bool.and_eq_true] at hclaim
    refine ⟨r.leased ((s.tick o).now + secs lease_secs), ?_, ?_⟩
    · simp [World.claimed, World.wrote, claim_outbox_batch, outbox_record_from_row, hr, hid]
    · cases hst : r.status <;> simp [OutboxRow.leased, hst, Status.retryable] at hclaim ⊢

theorem claimed_of_row {lease_secs : Nat} {o : Oracle}
    (h : (exec w (.claim_outbox_row id lease_secs) o s).1 = .ok true) :
    Claimed w id (exec w (.claim_outbox_row id lease_secs) o s).2 := by
  cases hfail : o.fails with
  | some e => simp [exec, stored, hfail] at h
  | none =>
    have hit : claim_row_hit s.db (s.tick o).now id = true := by
      simpa [exec, stored, hfail, claim_outbox_row, World.tick] using h
    have hit' : (claim_outbox_row (s.tick o).db (s.tick o).now id lease_secs).1 = true := hit
    simp only [exec, stored, hfail, hit', if_true]
    obtain ⟨r, hr, hl⟩ := (Option.any_eq_true _ _).mp hit
    refine ⟨by simp [World.claimed, World.wrote], ?_, fun i hi => absurd hi List.not_mem_nil,
      fun i hi => absurd hi List.not_mem_nil⟩
    refine ⟨r.leased ((s.tick o).now + secs lease_secs), ?_, ?_⟩
    · have hr' : (s.tick o).db.parent id = some r := hr
      simp [World.claimed, World.wrote, claim_outbox_row, hr', hl]
    · simp only [OutboxRow.leasable, Bool.and_eq_true] at hl
      cases hst : r.status <;> simp [OutboxRow.leased, hst, Status.retryable] at hl ⊢

/-! ## Every job -/

/-- Safe from any state. -/
def SafeAlways (calm fixed : Prop) (w : Nat) {α : Type} (p : Work α) : Prop :=
  ∀ s, (terms calm fixed).Safe machine w (fun _ _ => True) p s

section Always

variable {α β : Type}

theorem always_done (a : α) : SafeAlways calm fixed w (done a) := fun _ => trivial

theorem always_fail (e : PipelineError) : SafeAlways calm fixed w (fail e : Work α) :=
  fun _ => trivial

theorem always_bind {p : Work α} {f : α → Work β} (hp : SafeAlways calm fixed w p)
    (hf : ∀ a, SafeAlways calm fixed w (f a)) : SafeAlways calm fixed w (p.bind f) := by
  intro s
  apply safe_bind
  refine safe_mono (hp s) ?_
  intro r s₁ _
  cases r with
  | error e => trivial
  | ok a => exact hf a s₁

theorem always_caught {p : Work α} (hp : SafeAlways calm fixed w p) :
    SafeAlways calm fixed w p.caught :=
  fun s => safe_caught (hp s)

theorem always_call {op : Call α} (h : bystands op = true) :
    SafeAlways calm fixed w (perform op) := by
  intro s
  refine safe_mono (safe_bystander (never_perform ?_)) (fun _ _ _ => trivial)
  simp [steps_in, h]

theorem compositional_always :
    Compositional (SafeAlways calm fixed w) (fun op => bystands op = true) where
  done := always_done
  fail := always_fail
  bind := always_bind
  caught := always_caught
  call := always_call

end Always

theorem always_flush_waves (concurrency fuel left : Nat) (st : FlushState) :
    SafeAlways calm fixed w (flush_waves concurrency fuel left st) := by
  induction fuel generalizing left st with
  | zero => exact always_done st
  | succ fuel ih =>
    unfold flush_waves
    split
    · exact always_done st
    · intro s
      apply safe_bind
      refine safe_call (fun _ _ _ => trivial) ?_
      intro s₁ o _ _ _ _
      cases hwave : (exec w (.claim_outbox_batch (min concurrency left) OUTBOX_LEASE_SECS) o s₁).1 with
      | error e => trivial
      | ok wave =>
        obtain ⟨hc, hd⟩ := claimed_of_batch hwave
        dsimp only
        split
        · trivial
        · apply safe_bind
          refine safe_plain rfl (fun _ _ _ => trivial) ?_
          intro s₂ o' h₂ hsince
          have hperm := rows_partition_for_digest o'.order wave
          have hc₂ : AllClaimed w wave (exec w .hash_order o' s₂).2 :=
            hc.since hsince.others (fun _ _ => List.not_mem_nil)
          apply safe_bind
          refine safe_mono (safe_deliver_wave (partition_for_digest o'.order wave) st
            (fun row hrow => hc₂ row (hperm.mem_iff.mp hrow))
            ((hperm.map _).nodup_iff.mpr hd)) ?_
          intro r s₃ _
          cases r with
          | error e => trivial
          | ok st' =>
            dsimp only
            split
            · trivial
            · exact ih _ _ s₃

theorem always_deliver_inline (watch : Watch) (release : Release) (enqueued : EnqueueOutcome) :
    SafeAlways calm fixed w (deliver_inline watch release enqueued) := by
  unfold deliver_inline
  split
  · exact always_done false
  · intro s
    apply safe_bind
    refine safe_call (fun _ _ _ => trivial) ?_
    intro s₁ o _ _ _ _
    cases hres : (exec w (.claim_outbox_row enqueued.id OUTBOX_LEASE_SECS) o s₁).1 with
    | error e => trivial
    | ok claimed =>
      cases claimed with
      | false => trivial
      | true =>
        exact safe_mono (safe_attempt_notification_delivery 0 _ (claimed_of_row hres))
          (fun _ _ _ => trivial)

theorem bystands_of_offers {γ : Type} (op : Call γ) (h : offers op) : bystands op = true := by
  cases op <;> first | rfl | exact h.elim

theorem bystands_of_polls {γ : Type} (op : Call γ) (h : polls op) : bystands op = true := by
  cases op <;> first | rfl | exact (h.elim id (Or.elim · id id)).elim

theorem always_work (job : Job) : SafeAlways calm fixed w job.work := by
  have hrelease : ∀ watch release, SafeAlways calm fixed w (deliver_release watch release) :=
    fun watch release => keeps_deliver_release compositional_always bystands_of_offers rfl
      (always_deliver_inline watch release)
  exact keeps_work compositional_always bystands_of_polls hrelease
    (keeps_flush compositional_always rfl always_flush_waves)
    (keeps_reconcile compositional_always rfl (fun _ _ => rfl))
    (always_bind (always_call rfl) (fun _ => always_done ())) job

end xrelease.attempts
