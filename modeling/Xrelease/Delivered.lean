-- The laws of the sink ledger, over every interleaving of polls, pushes, flushes, sweeps and
-- requeues on one engine: sent is final and complete, nothing that a sink still wants is lost,
-- nobody gets twice what they have, and a ledger row means one notifier.
import Xrelease.Attempts

namespace xrelease.delivered

open xrelease.model xrelease.store xrelease.engine xrelease.outbox xrelease.pipeline
open xrelease.leases xrelease.ledger xrelease.attempts keyed calls calls.Prog calls.Terms

/-! ## Runs from an empty database -/

/-- An engine that has just come up on an empty database. -/
def fresh (jobs : Nat → Job) (now : DateTime) (notifiers : Notifier) : Workers :=
  starting jobs (World.start Db.empty now notifiers)

variable {calm fixed : Prop} {jobs : Nat → Job} {now : DateTime} {notifiers : Notifier}
  {moves : List (Move Oracle Outside)}

theorem kept_start : Kept calm fixed Db.empty Book.empty notifiers where
  attempt_open := fun _ _ h => absurd h (by simp [Book.empty])
  sent_all := fun _ _ h => absurd h (by simp [Db.parent, Db.empty, Serial.get, Serial.empty])
  not_stranded := fun _ _ _ h => absurd h (by simp [wantedAt, Db.sink, Db.empty])
  sends_open := fun _ h => absurd h List.not_mem_nil
  meaning := by
    intro _
    refine ⟨fun _ _ h => absurd h (by simp [hasAt, Db.sink, Db.empty]), ?_,
      fun _ _ h => absurd h (by simp [sentAt, Db.sink, Db.empty]),
      fun _ h => absurd h List.not_mem_nil⟩
    rintro l l' (rfl | ⟨_, h⟩) (rfl | ⟨_, h'⟩) i a c ha hc
    · rw [Option.some.inj (ha.symm.trans hc)]
    · exact absurd h' (by simp [Book.empty])
    · exact absurd h (by simp [Book.empty])
    · exact absurd h (by simp [Book.empty])

theorem good_fresh : (terms calm fixed).Good machine (fresh jobs now notifiers) :=
  ⟨kept_start, fun w => always_work (jobs w) _⟩

/-- No claim takes a row on which an attempt is under way. -/
def NoOverlap : Workers → Move Oracle Outside → Prop := onCalls (fun _ op o s => Apart op o s)

/-- Nor does a requeue revive one. -/
def NoOverlapOrRequeue : Workers → Move Oracle Outside → Prop :=
  onCalls (fun _ op o s => Apart op o s ∧ Calm op s)

/-- Nor does a content change reopen a row, or a config apply move a notifier, under the ledger. -/
def NothingMoved (p : Workers) (m : Move Oracle Outside) : Prop :=
  onCalls (fun _ op o s => Apart op o s ∧ ReopenFits op s) p m ∧
    match m with
    | .outside (.apply_runtime_config notifiers) => SwapFits notifiers p.state
    | _ => True

variable {p : Workers} {m : Move Oracle Outside}

theorem permits_of_noOverlap (h : NoOverlap p m) :
    (terms False False).Permits p m := by
  cases m with
  | work w o =>
    simp only [NoOverlap, onCalls] at h
    simp only [Permits]
    split
    · rename_i hw
      rw [hw] at h
      exact ⟨h, False.elim, False.elim⟩
    · trivial
    · trivial
  | crash w => trivial
  | outside e => exact False.elim

theorem permits_of_noOverlapOrRequeue (h : NoOverlapOrRequeue p m) :
    (terms True False).Permits p m := by
  cases m with
  | work w o =>
    simp only [NoOverlapOrRequeue, onCalls] at h
    simp only [Permits]
    split
    · rename_i hw
      rw [hw] at h
      exact ⟨h.1, fun _ => h.2, False.elim⟩
    · trivial
    · trivial
  | crash w => trivial
  | outside e => exact False.elim

theorem permits_of_nothingMoved (h : NothingMoved p m) :
    (terms False True).Permits p m := by
  obtain ⟨hcall, hout⟩ := h
  cases m with
  | work w o =>
    simp only [onCalls] at hcall
    simp only [Permits]
    split
    · rename_i hw
      rw [hw] at hcall
      exact ⟨hcall.1, False.elim, fun _ => hcall.2⟩
    · trivial
    · trivial
  | crash w => trivial
  | outside e =>
    cases e
    exact fun _ => hout

theorem kept_run (h : Along machine (terms calm fixed).Permits (fresh jobs now notifiers) moves) :
    Kept calm fixed ((fresh jobs now notifiers).run machine moves).state.db
      ((fresh jobs now notifiers).run machine moves).state.book
      ((fresh jobs now notifiers).run machine moves).state.notifiers :=
  (good_run (terms_sound calm fixed) good_fresh h).inv

/-! ## Sent is complete and final -/

/-- A row that is sent has only sent sinks in its ledger. -/
def SentIsComplete (db : Db) : Prop :=
  ∀ id r, db.parent id = some r → r.status = .sent →
    ∀ i k, db.sink id i = some k → k.status = .sent

/-- The move is no reopen of the row for changed content. -/
abbrev Spares (p : Workers) (m : Move Oracle Outside) (id : Nat) : Prop :=
  onCalls (fun _ op _ _ => reopened op id = false) p m

/-- The move leaves every row and every ledger row that is sent so, but for a reopen. -/
def SentIsFinal (p : Workers) (m : Move Oracle Outside) : Prop :=
  ∀ id, Spares p m id →
    (∀ r, p.state.db.parent id = some r → r.status = .sent →
      ∃ r', (p.step machine m).state.db.parent id = some r' ∧ r'.status = .sent) ∧
    ∀ i k, p.state.db.sink id i = some k → k.status = .sent →
      ∃ k', (p.step machine m).state.db.sink id i = some k' ∧ k'.status = .sent

theorem sentAt_iff {db : Db} {id i : Nat} :
    sentAt db id i = true ↔ ∃ k, db.sink id i = some k ∧ k.status = .sent := by
  unfold sentAt
  cases db.sink id i <;> simp

theorem complete_of_kept {db : Db} {b : Book} {live : Notifier}
    (h : Kept calm fixed db b live) : SentIsComplete db := by
  intro id r hr hst i k hk
  obtain ⟨k', hk', hst'⟩ := sentAt_iff.mp (h.sent_all id r hr hst i (by simp [hasAt, hk]))
  rw [Option.some.inj (hk.symm.trans hk')]
  exact hst'

theorem final_step (hg : (terms calm fixed).Good machine p) (hm : (terms calm fixed).Permits p m) :
    SentIsFinal p m := by
  intro id hre
  cases m with
  | crash w => exact ⟨fun r hr hst => ⟨r, hr, hst⟩, fun i k hk hst => ⟨k, hk, hst⟩⟩
  | outside e =>
    cases e
    exact ⟨fun r hr hst => ⟨r, hr, hst⟩, fun i k hk hst => ⟨k, hk, hst⟩⟩
  | work w o =>
    cases hw : p.worker w with
    | done a =>
      simp only [Pool.step, hw]
      exact ⟨fun r hr hst => ⟨r, hr, hst⟩, fun i k hk hst => ⟨k, hk, hst⟩⟩
    | fail e =>
      simp only [Pool.step, hw]
      exact ⟨fun r hr hst => ⟨r, hr, hst⟩, fun i k hk hst => ⟨k, hk, hst⟩⟩
    | call op next =>
      simp only [Permits, hw] at hm
      simp only [Spares, onCalls, hw] at hre
      have hdoes := (does_step (terms_sound calm fixed) hg hw hm).2
      simp only [Pool.step, hw]
      refine ⟨fun r hr hst => hdoes.parent id r hr hst hre, ?_⟩
      intro i k hk hst
      exact sentAt_iff.mp (hdoes.sink id i (sentAt_iff.mpr ⟨k, hk, hst⟩) hre)

theorem sent_is_complete_and_final (jobs : Nat → Job) (now : DateTime) (notifiers : Notifier)
    (moves : List (Move Oracle Outside))
    (h : Along machine NoOverlap (fresh jobs now notifiers) moves) :
    SentIsComplete ((fresh jobs now notifiers).run machine moves).state.db ∧
      Along machine SentIsFinal (fresh jobs now notifiers) moves := by
  have hp := along_mono (fun _ _ => permits_of_noOverlap) h
  refine ⟨complete_of_kept (kept_run hp), ?_⟩
  exact along_good ((terms False False).Good machine)
    (fun _ _ hg hm => ⟨good_step (terms_sound False False) hg hm, final_step hg hm⟩) good_fresh hp

instance (p : Workers) (m : Move Oracle Outside) : Decidable (NoOverlap p m) :=
  inferInstanceAs (Decidable (onCalls (fun _ op o s => ∀ id ∈ takes op o s,
    s.book.attempt id = none) p m))

/-! ### A slow send that comes back as a failure -/

def repo : Provider := ⟨"github:o/r", "github", "GitHub", "r"⟩

def every : Filter := ⟨true, none, none, none, false⟩

/-- A watch that delivers at once. -/
def watch : Watch := ⟨repo, every, none, none⟩

/-- A watch that holds everything back until the same moment. -/
def nightly : Watch := ⟨repo, every, none, some (fun _ => some 1000000)⟩

def hook : RoutedSink := ⟨⟨.webhook, "hook", "https://example.test/hook"⟩, []⟩

def chat : RoutedSink := ⟨⟨.slack, "chat", "https://example.test/chat"⟩, []⟩

def turns (w n : Nat) : List (Move Oracle Outside) := List.replicate n (.work w {})

def timeout : Oracle := { notify := .error (.http "timeout") }

/-- Worker 0 takes the baseline, worker 1 delivers what is new inline, worker 2 flushes. -/
def push_push_flush : Nat → Job
  | 0 => .push [watch] (Release.new "v1")
  | 1 => .push [watch] (Release.new "v2")
  | 2 => .flush 1
  | _ => .idle

/-- The inline send takes 301 seconds and fails; the flush claims the row again when the lease
of 300 has run out, delivers it and marks it sent. -/
def slow_inline : List (Move Oracle Outside) :=
  turns 0 5 ++ turns 1 13 ++ [.work 1 { timeout with elapsed := 301000000 }] ++ turns 2 15 ++
    turns 1 1

/-- The worker whose lease ran out writes its failure over the acknowledgement. -/
theorem a_late_failure_unsends :
    ¬ SentIsComplete ((fresh push_push_flush 0 [hook]).run machine
      (slow_inline ++ turns 1 1)).state.db ∧
    ¬ Along machine SentIsFinal (fresh push_push_flush 0 [hook]) (slow_inline ++ turns 1 1) := by
  have hparent : (((fresh push_push_flush 0 [hook]).run machine
      (slow_inline ++ turns 1 1)).state.db.parent 1).any (fun r => r.status = .sent) = true := by
    decide +kernel
  have hafter : (((fresh push_push_flush 0 [hook]).run machine
      (slow_inline ++ turns 1 1)).state.db.sink 1 0).any (fun k => k.status = .failed) = true := by
    decide +kernel
  have hbefore : sentAt ((fresh push_push_flush 0 [hook]).run machine slow_inline).state.db 1 0 =
      true := by
    decide +kernel
  have hspares : Spares ((fresh push_push_flush 0 [hook]).run machine slow_inline)
      (.work 1 {}) 1 := by
    decide +kernel
  obtain ⟨k, hk, hfailed⟩ := (Option.any_eq_true _ _).mp hafter
  obtain ⟨r, hr, hst⟩ := (Option.any_eq_true _ _).mp hparent
  rw [decide_eq_true_eq] at hfailed hst
  constructor
  · intro h
    have hsent := h 1 r hr hst 0 k hk
    rw [hfailed] at hsent
    exact absurd hsent (by simp)
  · intro h
    have hlast := (along_append.mp h).2.1 1
    obtain ⟨k₀, hk₀, hst₀⟩ := sentAt_iff.mp hbefore
    obtain ⟨k', hk', hst'⟩ := (hlast hspares).2 0 k₀ hk₀ hst₀
    have hsame : (((fresh push_push_flush 0 [hook]).run machine slow_inline).step machine
        (.work 1 {})).state = ((fresh push_push_flush 0 [hook]).run machine
          (slow_inline ++ turns 1 1)).state := by
      rw [Pool.run_append]
      rfl
    rw [hsame] at hk'
    obtain rfl := Option.some.inj (hk'.symm.trans hk)
    rw [hfailed] at hst'
    exact absurd hst' (by simp)

/-- The first sink has the row and the second has failed; the attempt is not over yet. -/
def failing : List (Move Oracle Outside) :=
  turns 0 5 ++ turns 1 15 ++ [.work 1 timeout] ++ turns 1 3

/-- The attempt ends, and a minute later a flush claims the row again. -/
def then_retried : List (Move Oracle Outside) :=
  turns 1 6 ++ [.work 2 {}, .work 2 { elapsed := 61000000 }] ++ turns 2 13

/-- A flush that claims the row after the attempt that failed is over completes it. -/
theorem sent_is_complete_and_final_here :
    SentIsComplete ((fresh push_push_flush 0 [hook, chat]).run machine
        (failing ++ then_retried)).state.db ∧
      Along machine SentIsFinal (fresh push_push_flush 0 [hook, chat]) (failing ++ then_retried) :=
  sent_is_complete_and_final push_push_flush 0 [hook, chat] _ (by decide +kernel)

/-! ## Nothing that a sink still wants is lost -/

/-- The row can be claimed as soon as neither a lease nor its schedule holds it back. -/
def CanBeClaimed (db : Db) (id : Nat) : Prop :=
  ∃ r, db.parent id = some r ∧ ∀ t, r.unlocked t = true → r.due t = true → r.claimable t = true

/-- The row is not sent, and it has no attempt of its own left. -/
def UsedUp (db : Db) (id : Nat) : Prop :=
  ∃ r, db.parent id = some r ∧ r.status ≠ .sent ∧ OUTBOX_MAX_ATTEMPTS ≤ r.attempts

/-- Whatever a sink still wants can be claimed. -/
def NotStranded (db : Db) : Prop :=
  ∀ id i k, db.sink id i = some k → k.wanting = true → CanBeClaimed db id

/-- A dead row has no sink that still wants it. -/
def DeadIsLast (db : Db) : Prop :=
  ∀ id r, db.parent id = some r → r.status = .dead →
    ∀ i k, db.sink id i = some k → k.status.retryable = false

/-- What a sink still wants can be claimed, and what is dead no sink wants, but for rows that
have used up their own attempts. -/
def LostOnlyWhenUsedUp (db : Db) : Prop :=
  (∀ id i k, db.sink id i = some k → k.status.retryable = true →
    CanBeClaimed db id ∨ UsedUp db id) ∧
  (∀ id r, db.parent id = some r → r.status = .dead →
    OUTBOX_MAX_ATTEMPTS ≤ r.attempts ∨ ∀ i k, db.sink id i = some k → k.status.retryable = false)

theorem claimed_or_used_up {db : Db} {id : Nat} (h : Alive db id) :
    CanBeClaimed db id ∨ UsedUp db id := by
  obtain ⟨r, hr, hns, hdead⟩ := h
  by_cases hcap : OUTBOX_MAX_ATTEMPTS ≤ r.attempts
  · exact Or.inr ⟨r, hr, hns, hcap⟩
  · refine Or.inl ⟨r, hr, ?_⟩
    intro t hlock hdue
    have hret : r.status.retryable = true := by
      cases hst : r.status with
      | pending => rfl
      | failed => rfl
      | sent => exact absurd hst hns
      | dead => exact absurd (hdead hst) hcap
    simp only [OutboxRow.claimable, hret, hlock, hdue, Bool.and_true, Bool.true_and,
      decide_eq_true_eq]
    omega

theorem only_used_up_rows_are_lost (jobs : Nat → Job) (now : DateTime) (notifiers : Notifier)
    (moves : List (Move Oracle Outside))
    (h : Along machine NoOverlapOrRequeue (fresh jobs now notifiers) moves) :
    LostOnlyWhenUsedUp ((fresh jobs now notifiers).run machine moves).state.db := by
  have hkept := kept_run (along_mono (fun _ _ => permits_of_noOverlapOrRequeue) h)
  generalize ((fresh jobs now notifiers).run machine moves).state.db = db at hkept ⊢
  have hwanted : ∀ id i k, db.sink id i = some k → k.status.retryable = true → Alive db id := by
    intro id i k hk hret
    exact hkept.not_stranded trivial id i (by simpa [wantedAt, hk] using hret)
  constructor
  · intro id i k hk hret
    exact claimed_or_used_up (hwanted id i k hk hret)
  · intro id r hr hdead
    by_cases hcap : OUTBOX_MAX_ATTEMPTS ≤ r.attempts
    · exact Or.inl hcap
    · refine Or.inr ?_
      intro i k hk
      cases hret : k.status.retryable with
      | false => rfl
      | true =>
        obtain ⟨r', hr', _, hd⟩ := hwanted id i k hk hret
        obtain rfl := Option.some.inj (hr.symm.trans hr')
        exact absurd (hd hdead) hcap

instance {β : Type} (op : Call β) (s : World) : Decidable (Calm op s) := by
  apply Call.casesOn (motive := fun _ op => Decidable (Calm op s)) op <;> intros <;>
    dsimp only [Calm] <;> infer_instance

instance (p : Workers) (m : Move Oracle Outside) : Decidable (NoOverlapOrRequeue p m) :=
  inferInstanceAs (Decidable (onCalls (fun _ op o s =>
    (∀ id ∈ takes op o s, s.book.attempt id = none) ∧ Calm op s) p m))

/-! ### One sink fails fifty times while the breaker of the other is open -/

/-- Worker 0 takes the baseline, worker 1 puts a row into the outbox, worker 2 drains it, and
worker 3 sweeps. -/
def push_flush_sweep : Nat → Job
  | 0 => .push [nightly] (Release.new "v1")
  | 1 => .push [nightly] (Release.new "v2")
  | 2 => .flush 50
  | 3 => .sweep
  | _ => .idle

/-- One attempt: the first sink fails, the second is skipped by its breaker. -/
def one_attempt : List (Move Oracle Outside) :=
  [.work 2 { elapsed := 3601000000 }] ++ turns 2 6 ++ [.work 2 timeout] ++
    [.work 2 { breaker_allows := false }] ++ turns 2 7

def fifty_attempts : List (Move Oracle Outside) :=
  turns 0 5 ++ turns 1 9 ++ turns 2 1 ++ (List.replicate 50 one_attempt).flatten ++ turns 3 1

/-- The row dies of its own attempts while the second sink, never called, still wants it. -/
theorem the_untried_sink_is_stranded :
    ¬ NotStranded ((fresh push_flush_sweep 0 [hook, chat]).run machine fifty_attempts).state.db ∧
    ¬ DeadIsLast ((fresh push_flush_sweep 0 [hook, chat]).run machine fifty_attempts).state.db := by
  have hparent : (((fresh push_flush_sweep 0 [hook, chat]).run machine
      fifty_attempts).state.db.parent 1).any (fun r => r.status = .dead) = true := by
    decide +kernel
  have hsink : (((fresh push_flush_sweep 0 [hook, chat]).run machine
      fifty_attempts).state.db.sink 1 1).any (fun k => k.wanting) = true := by
    decide +kernel
  generalize ((fresh push_flush_sweep 0 [hook, chat]).run machine fifty_attempts).state.db = db
    at hparent hsink ⊢
  obtain ⟨r, hr, hdead⟩ := (Option.any_eq_true _ _).mp hparent
  obtain ⟨k, hk, hwant⟩ := (Option.any_eq_true _ _).mp hsink
  rw [decide_eq_true_eq] at hdead
  constructor
  · intro h
    obtain ⟨r', hr', hclaim⟩ := h 1 1 k hk hwant
    obtain rfl := Option.some.inj (hr.symm.trans hr')
    have hlater : ∃ t, r.unlocked t = true ∧ r.due t = true := by
      refine ⟨max (r.locked_until.getD 0 + 1) (r.deliver_after.getD 0), ?_, ?_⟩
      · unfold OutboxRow.unlocked
        cases r.locked_until with
        | none => rfl
        | some u =>
          rw [Option.all_some, decide_eq_true_eq]
          exact lt_of_lt_of_le (Int.lt_succ u) (le_max_left _ _)
      · unfold OutboxRow.due
        cases r.deliver_after with
        | none => rfl
        | some u =>
          rw [Option.all_some, decide_eq_true_eq]
          exact le_max_right _ _
    obtain ⟨t, hlock, hdue⟩ := hlater
    have hc := hclaim t hlock hdue
    simp [OutboxRow.claimable, hdead, Status.retryable] at hc
  · intro h
    have hno := h 1 r hr hdead 1 k hk
    simp [SinkRow.wanting, hno] at hwant

/-- The law after the first of these attempts. -/
theorem only_used_up_rows_are_lost_here :
    LostOnlyWhenUsedUp ((fresh push_flush_sweep 0 [hook, chat]).run machine
      (turns 0 5 ++ turns 1 9 ++ turns 2 1 ++ one_attempt)).state.db :=
  only_used_up_rows_are_lost push_flush_sweep 0 [hook, chat] _ (by decide +kernel)

/-! ## Nobody gets twice what they have -/

/-- A call to a sink speaks for at least one row that the ledger does not show as sent to it;
a call for one row speaks for such a row. -/
def SendsWhatIsOpen {β : Type} (op : Call β) (s : World) : Prop :=
  match op with
  | .notify rows i _ _ => ∃ id ∈ rows, sentAt s.db id i = false
  | _ => True

/-- A call to a sink speaks for no row that the ledger shows as sent to it. -/
def SendsNothingSent {β : Type} (op : Call β) (s : World) : Prop :=
  match op with
  | .notify rows i _ _ => ∀ id ∈ rows, sentAt s.db id i = false
  | _ => True

instance {β : Type} (op : Call β) (s : World) : Decidable (SendsNothingSent op s) := by
  apply Call.casesOn (motive := fun _ op => Decidable (SendsNothingSent op s)) op <;> intros <;>
    dsimp only [SendsNothingSent] <;> infer_instance

theorem sends_what_is_open_of_kept {β : Type} {w : Nat} {op : Call β} {o : Oracle} {s : World}
    (h : Kept calm fixed (exec w op o s).2.db (exec w op o s).2.book
      (exec w op o s).2.notifiers) : SendsWhatIsOpen op s := by
  cases op <;> try trivial
  rename_i rows i sink event
  have hopen := h.sends_open _ (List.mem_append_right s.book.sends (List.mem_singleton_self _))
  obtain ⟨id, hid⟩ := List.exists_mem_of_ne_nil _ hopen
  obtain ⟨hrow, hns⟩ := List.mem_filter.mp hid
  refine ⟨id, hrow, ?_⟩
  unfold sentAt
  change ((s.db.sink id i).all fun r => decide (r.status ≠ .sent)) = true at hns
  cases hk : s.db.sink id i with
  | none => rfl
  | some k => simpa [hk] using hns

theorem no_send_without_an_open_row (jobs : Nat → Job) (now : DateTime) (notifiers : Notifier)
    (moves : List (Move Oracle Outside))
    (h : Along machine NoOverlap (fresh jobs now notifiers) moves) :
    Along machine (onCalls (fun _ op _ s => SendsWhatIsOpen op s)) (fresh jobs now notifiers)
      moves := by
  have hp := along_mono (fun _ _ => permits_of_noOverlap) h
  refine along_good ((terms False False).Good machine) ?_ good_fresh hp
  intro p m hg hm
  have hg' := good_step (terms_sound False False) hg hm
  refine ⟨hg', ?_⟩
  cases m with
  | crash w => trivial
  | outside e => trivial
  | work w o =>
    simp only [onCalls]
    split
    · rename_i op next hw
      have hi := hg'.inv
      simp only [Pool.step, hw, Pool.set] at hi
      exact sends_what_is_open_of_kept hi
    · trivial
    · trivial

/-! ### A digest for a sink that has one of its rows -/

/-- Worker 0 takes the baseline, workers 1 and 2 put two rows of one moment into the outbox,
worker 3 delivers one of them, worker 4 both. -/
def two_pushes_two_flushes : Nat → Job
  | 0 => .push [nightly] (Release.new "v1")
  | 1 => .push [nightly] (Release.new "v2")
  | 2 => .push [nightly] (Release.new "v3")
  | 3 => .flush 1
  | 4 => .flush 2
  | _ => .idle

/-- Alone, the first row reaches the first sink but not the second. -/
def first_row_alone : List (Move Oracle Outside) :=
  turns 0 5 ++ turns 1 9 ++ turns 2 9 ++ [.work 3 {}, .work 3 { elapsed := 2000000 }] ++
    turns 3 8 ++ [.work 3 timeout] ++ turns 3 10

/-- Then one digest of both rows goes to both sinks. -/
def then_both : List (Move Oracle Outside) :=
  first_row_alone ++ [.work 4 { outbox_flush_concurrency := 2 }, .work 4 { elapsed := 61000000 }] ++
    turns 4 10

theorem the_digest_repeats_a_row :
    ¬ Along machine (onCalls (fun _ op _ s => SendsNothingSent op s))
      (fresh two_pushes_two_flushes 0 [hook, chat]) then_both := by
  decide +kernel

/-- No two attempts overlap in that run, and every call of it has an open row. -/
theorem no_send_without_an_open_row_here :
    Along machine (onCalls (fun _ op _ s => SendsWhatIsOpen op s))
      (fresh two_pushes_two_flushes 0 [hook, chat]) then_both :=
  no_send_without_an_open_row two_pushes_two_flushes 0 [hook, chat] _ (by decide +kernel)

/-! ## A ledger row means one notifier -/

/-- Every ledger row that is sent was acknowledged by the notifier that it was made for, every
send goes to the notifiers that the open ledger rows behind it were made for, and of a sent row
every notifier of its ledger has acknowledged it. -/
structure LedgerMeans (s : World) : Prop where
  acked : ∀ id i k, s.db.sink id i = some k → k.status = .sent →
    ∃ x ∈ s.book.sends, id ∈ x.rows ∧ x.ok = true ∧ s.book.made_for id i = some x.sink.inner
  retried : ∀ x ∈ s.book.sends, ∀ id ∈ x.open_rows, s.book.made_for id x.index = some x.sink.inner
  reached : ∀ id r, s.db.parent id = some r → r.status = .sent → ∀ i k, s.db.sink id i = some k →
    ∃ x ∈ s.book.sends, id ∈ x.rows ∧ x.ok = true ∧ s.book.made_for id i = some x.sink.inner

theorem a_ledger_row_means_one_notifier (jobs : Nat → Job) (now : DateTime) (notifiers : Notifier)
    (moves : List (Move Oracle Outside))
    (h : Along machine NothingMoved (fresh jobs now notifiers) moves) :
    LedgerMeans ((fresh jobs now notifiers).run machine moves).state := by
  have hkept := kept_run (along_mono (fun _ _ => permits_of_nothingMoved) h)
  have hm := hkept.meaning trivial
  have hall := complete_of_kept hkept
  refine ⟨?_, fun x hx id hid => (hm.retried x hx id hid).2, ?_⟩
  · intro id i k hk hst
    exact hm.acked id i (sentAt_iff.mpr ⟨k, hk, hst⟩)
  · intro id r hr hst i k hk
    exact hm.acked id i (sentAt_iff.mpr ⟨k, hk, hall id r hr hst i k hk⟩)

/-! ### Two notifiers change places -/

/-- The first sink gets the row, the second fails; then the two change places. -/
def change_places : List (Move Oracle Outside) :=
  turns 0 5 ++ turns 1 15 ++ [.work 1 timeout] ++ turns 1 9 ++
    [.outside (.apply_runtime_config [chat, hook])] ++
    [.work 2 {}, .work 2 { elapsed := 61000000 }] ++ turns 2 13

/-- The retry goes to the sink that has the row already, and the row counts as sent. -/
theorem a_swap_redirects_the_retry :
    ¬ LedgerMeans ((fresh push_push_flush 0 [hook, chat]).run machine change_places).state := by
  have hsink : (((fresh push_push_flush 0 [hook, chat]).run machine
      change_places).state.db.sink 1 1).any (fun k => k.status = .sent) = true := by
    decide +kernel
  have hmade : ((fresh push_push_flush 0 [hook, chat]).run machine
      change_places).state.book.made_for 1 1 = some chat.inner := by
    decide +kernel
  have hnone : ∀ x ∈ ((fresh push_push_flush 0 [hook, chat]).run machine
      change_places).state.book.sends, x.ok = true → x.sink.inner ≠ chat.inner := by
    decide +kernel
  intro h
  obtain ⟨k, hk, hst⟩ := (Option.any_eq_true _ _).mp hsink
  rw [decide_eq_true_eq] at hst
  obtain ⟨x, hx, _, hok, hm⟩ := h.acked 1 1 k hk hst
  exact hnone x hx hok (Option.some.inj (hm.symm.trans hmade))

def is_reopen {β : Type} (op : Call β) : Bool :=
  match op with
  | .reopen_outbox _ _ _ => true
  | _ => false

def is_outside : Move Oracle Outside → Bool
  | .outside _ => true
  | _ => false

/-- No reopen, no config apply: nothing that could move the ledger. -/
def Quiet (p : Workers) (m : Move Oracle Outside) : Prop :=
  onCalls (fun _ op o s => (∀ id ∈ takes op o s, s.book.attempt id = none) ∧
    is_reopen op = false) p m ∧ is_outside m = false

instance (p : Workers) (m : Move Oracle Outside) : Decidable (Quiet p m) :=
  inferInstanceAs (Decidable (onCalls (fun _ op o s =>
    (∀ id ∈ takes op o s, s.book.attempt id = none) ∧ is_reopen op = false) p m ∧ _))

theorem nothingMoved_of_quiet (h : Quiet p m) :
    NothingMoved p m := by
  obtain ⟨hcall, hout⟩ := h
  cases m with
  | crash w => exact ⟨trivial, trivial⟩
  | outside e => exact absurd hout (by simp [is_outside])
  | work w o =>
    refine ⟨?_, trivial⟩
    simp only [onCalls] at hcall ⊢
    split
    · rename_i op next hw
      rw [hw] at hcall
      refine ⟨hcall.1, ?_⟩
      cases op <;> first | trivial | exact absurd hcall.2 (by simp [is_reopen])
    · trivial
    · trivial

/-! ### A notifier is added while the one before it fails -/

def mail : RoutedSink := ⟨⟨.smtp, "mail", "smtp://example.test"⟩, []⟩

/-- No worker from `n` on takes part. -/
def idle_from (n : Nat) : Move Oracle Outside → Bool
  | .work w _ => w < n
  | .crash w => w < n
  | .outside _ => true

theorem snapshot_elsewhere {β : Type} {v w : Nat} (h : v ≠ w) (op : Call β) (o : Oracle)
    (s : World) : (exec w op o s).2.book.snapshot v = s.book.snapshot v := by
  cases hf : forgets op with
  | false => rw [snapshot_exec hf]
  | true =>
    cases op <;> try exact absurd hf Bool.false_ne_true
    case notifier_snapshot => simp [exec, World.looked, World.tick, h]
    case through => simp [exec, World.through, World.tick, World.let_go, h]

theorem idle_snapshot {n v : Nat} (hv : n ≤ v) (hm : idle_from n m = true) :
    (p.step machine m).state.book.snapshot v = p.state.book.snapshot v := by
  cases m with
  | outside e => cases e; rfl
  | crash w =>
    have hw : v ≠ w := by
      simp only [idle_from, decide_eq_true_eq] at hm
      omega
    simp [Pool.step, Pool.set, machine, hw]
  | work w o =>
    have hw : v ≠ w := by
      simp only [idle_from, decide_eq_true_eq] at hm
      omega
    simp only [Pool.step]
    split
    · exact snapshot_elsewhere hw _ o p.state
    · rfl
    · rfl

theorem idle_snapshots {n v : Nat} (hv : n ≤ v) (hm : moves.all (idle_from n) = true)
    (p : Workers) :
    (p.run machine moves).state.book.snapshot v = p.state.book.snapshot v := by
  induction moves generalizing p with
  | nil => rfl
  | cons m rest ih =>
    obtain ⟨hfirst, hrest⟩ := Bool.and_eq_true_iff.mp hm
    exact (ih hrest _).trans (idle_snapshot hv hfirst)

theorem addition_fits : SwapFits [hook, chat, mail]
    ((fresh push_push_flush 0 [hook, chat]).run machine failing).state := by
  have hsnap : ∀ v < 3, ∀ l ∈ ((fresh push_push_flush 0 [hook, chat]).run machine
      failing).state.book.snapshot v, l = [hook, chat] := by decide +kernel
  have hrows : ∀ kr ∈ ((fresh push_push_flush 0 [hook, chat]).run machine
      failing).state.db.notification_sink_delivery.rows, kr.2.status ≠ .sent → kr.1 = (1, 1) := by
    decide +kernel
  have hmade : ((fresh push_push_flush 0 [hook, chat]).run machine failing).state.book.made_for
      1 1 = some chat.inner := by decide +kernel
  have hlater : ∀ v, 3 ≤ v → ((fresh push_push_flush 0 [hook, chat]).run machine
      failing).state.book.snapshot v = none := by
    intro v hv
    exact idle_snapshots hv (by decide +kernel) _
  generalize ((fresh push_push_flush 0 [hook, chat]).run machine failing).state = s at *
  constructor
  · intro v l hl i a c ha hc
    obtain hv | hv := Nat.lt_or_ge v 3
    · obtain rfl := hsnap v hv l hl
      have hpre : ([hook, chat] ++ [mail])[i]? = some c :=
        (List.getElem?_append_left (List.getElem?_eq_some_iff.mp hc).1).trans hc
      rw [Option.some.inj (ha.symm.trans hpre)]
    · exact absurd ((hlater v hv).symm.trans hl) (by simp)
  · intro id i hhas hns
    obtain ⟨k, hk⟩ := Option.isSome_iff_exists.mp hhas
    have hst : k.status ≠ .sent := by simpa [sentAt, hk] using hns
    obtain ⟨rfl, rfl⟩ := Prod.mk.inj (hrows _ ((Table.mem_rows_iff _ _ _).mpr hk) hst)
    refine ⟨by rw [hmade]; rfl, fun r hr => ?_⟩
    obtain rfl : chat = r := Option.some.inj hr
    exact hmade

/-- The law over that run: the retry reaches the notifier that failed, and the new one. -/
theorem a_ledger_row_means_one_notifier_here :
    LedgerMeans ((fresh push_push_flush 0 [hook, chat]).run machine
      (failing ++ .outside (.apply_runtime_config [hook, chat, mail]) :: then_retried)).state :=
  a_ledger_row_means_one_notifier push_push_flush 0 [hook, chat] _
    (along_append.mpr
      ⟨along_mono (fun _ _ => nothingMoved_of_quiet) (by decide +kernel :
          Along machine Quiet (fresh push_push_flush 0 [hook, chat]) failing),
        ⟨trivial, addition_fits⟩,
        along_mono (fun _ _ => nothingMoved_of_quiet) (by decide +kernel :
          Along machine Quiet (((fresh push_push_flush 0 [hook, chat]).run machine failing).step
            machine (.outside (.apply_runtime_config [hook, chat, mail]))) then_retried)⟩)

end xrelease.delivered
