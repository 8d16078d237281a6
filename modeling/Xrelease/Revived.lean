-- The dead-letter recovery: what a requeue revives and what it leaves alone, and a delivery of a
-- revived row from there: it calls every sink that has not had the row, once, and none that has,
-- but for a digest, which goes by what all of its rows want.
import Xrelease.Attempts

namespace xrelease.revived

open xrelease.store xrelease.engine xrelease.outbox xrelease.attempts xrelease.ledger
open keyed calls calls.Prog calls.Terms

/-! ## The requeue -/

def dead_at (db : Db) (id : Nat) : Bool := (db.parent id).any (fun r => r.status = .dead)

/-- The ledger of the row has the sink, which has not had the row. -/
def Undelivered (db : Db) (id i : Nat) : Prop := hasAt db id i = true ∧ sentAt db id i = false

theorem parent_requeue (db : Db) (id : Nat) :
    (requeue_dead_outbox db).2.parent id =
      (db.parent id).map (fun r => if r.status = .dead then r.requeued else r) := by
  unfold requeue_dead_outbox
  cases hr : db.parent id with
  | none => simp [hr]
  | some r => simp [hr]

theorem sink_requeue (db : Db) (id i : Nat) :
    (requeue_dead_outbox db).2.sink id i =
      (db.sink id i).map (fun k => if dead_at db id && k.status ≠ .sent then k.reset else k) := by
  unfold requeue_dead_outbox dead_at
  simp

/-- What a requeue does: every dead row can be delivered again with whatever its ledger lacks, and
nothing else changes. -/
structure RevivesTheDead (db : Db) : Prop where
  counted : (requeue_dead_outbox db).1 =
    (db.notification_outbox.select (fun _ r => r.status = .dead)).length
  others : ∀ id, dead_at db id = false →
    (requeue_dead_outbox db).2.parent id = db.parent id ∧
      ∀ i, (requeue_dead_outbox db).2.sink id i = db.sink id i
  claimable : ∀ id, dead_at db id = true → ∃ r, (requeue_dead_outbox db).2.parent id = some r ∧
    ∀ now, r.due now = true → r.claimable now = true
  /-- What is sent stays as it is. -/
  sent : ∀ id i, sentAt db id i = true → (requeue_dead_outbox db).2.sink id i = db.sink id i
  wanted : ∀ id, dead_at db id = true → ∀ i, Undelivered db id i →
    sentAt (requeue_dead_outbox db).2 id i = false ∧
      i ∈ list_pending_sink_indices (requeue_dead_outbox db).2 id

variable {id : Nat}

theorem mem_pending {db : Db} {i : Nat} {k : SinkRow} (hk : db.sink id i = some k)
    (hw : k.wanting = true) : i ∈ list_pending_sink_indices db id := by
  unfold list_pending_sink_indices sinks_of
  rw [List.mem_insertionSort, List.mem_map]
  refine ⟨((id, i), k), List.mem_filter.mpr ⟨?_, hw⟩, rfl⟩
  rw [Table.mem_select]
  exact ⟨hk, by simp⟩

theorem requeue_revives_the_dead (db : Db) : RevivesTheDead db where
  counted := rfl
  others := by
    intro id hid
    unfold dead_at at hid
    constructor
    · rw [parent_requeue]
      cases hr : db.parent id with
      | none => rfl
      | some r =>
        have hlive : r.status ≠ .dead := by simpa [hr] using hid
        simp [hlive]
    · intro i
      rw [sink_requeue]
      unfold dead_at
      rw [hid]
      cases db.sink id i <;> simp
  claimable := by
    intro id hid
    obtain ⟨r, hr, hdead⟩ := (Option.any_eq_true _ _).mp hid
    rw [decide_eq_true_eq] at hdead
    refine ⟨r.requeued, by simp [parent_requeue, hr, hdead], ?_⟩
    intro now hdue
    unfold OutboxRow.claimable
    rw [hdue, Bool.and_true]
    rfl
  sent := by
    intro id i hsent
    rw [sink_requeue]
    unfold sentAt at hsent
    obtain ⟨k, hk, hst⟩ := (Option.any_eq_true _ _).mp hsent
    rw [decide_eq_true_eq] at hst
    simp [hk, hst]
  wanted := by
    rintro id hid i ⟨hhas, hopen⟩
    unfold hasAt at hhas
    obtain ⟨k, hk⟩ := Option.isSome_iff_exists.mp hhas
    have hst : k.status ≠ .sent := by simpa [sentAt, hk] using hopen
    have hreset : (requeue_dead_outbox db).2.sink id i = some k.reset := by
      rw [sink_requeue, hk]
      simp [hid, hst]
    exact ⟨by simp [sentAt, hreset, SinkRow.reset], mem_pending hreset rfl⟩

/-! ## What the calls leave alone -/

/-- The parent is sent. -/
def closed (db : Db) (id : Nat) : Bool := (db.parent id).any (fun r => r.status = .sent)

theorem undelivered_update {db : Db} {i : Nat} {p : Nat → Nat → SinkRow → Bool}
    {f : SinkRow → SinkRow} (hf : ∀ k, p id i k = true → (f k).status ≠ .sent)
    (h : Undelivered db id i) : Undelivered (db.updateSinks p f) id i := by
  obtain ⟨hhas, hopen⟩ := h
  unfold Undelivered hasAt sentAt at *
  rw [Db.sink_updateSinks]
  cases hk : db.sink id i with
  | none => simp [hk] at hhas
  | some k =>
    rw [hk] at hopen
    simp only [Option.map_some, Option.any_some, Option.isSome_some, true_and] at hopen ⊢
    split
    · rename_i hp
      simpa using hf k hp
    · exact hopen

theorem undelivered_of_sink {db db' : Db} {i : Nat} (hs : db'.sink id i = db.sink id i)
    (h : Undelivered db id i) : Undelivered db' id i := by
  unfold Undelivered hasAt sentAt at *
  rwa [hs]

/-- The call marks the sink as having had the row. -/
def acks (id i : Nat) {β : Type} (op : Call β) : Prop :=
  match op with
  | .complete_sink_delivery j k => j = id ∧ k = i
  | _ => False

/-- Only an acknowledgement makes a sink have had the row. -/
theorem undelivered_exec {β : Type} {w i : Nat} {op : Call β} {o : Oracle} {s : World}
    (hop : ¬ acks id i op) (h : Undelivered s.db id i) :
    Undelivered (exec w op o s).2.db id i := by
  cases hfail : o.fails with
  | some e => rwa [failed_exec hfail]
  | none =>
    cases hsinks : writes_sinks op with
    | false => exact undelivered_of_sink (sink_exec hsinks id i) h
    | true =>
      cases op <;> simp only [exec, stored, hfail]
      case reopen_outbox event om j =>
        have hreopen : Undelivered (reopen_outbox s.db event om j).2 id i := by
          unfold reopen_outbox
          split
          · exact undelivered_update (fun k _ => by simp [SinkRow.reset])
              (undelivered_of_sink rfl h)
          · exact h
        split <;> exact hreopen
      case ensure_sink_deliveries j sinks =>
        split
        · exact h
        · rename_i db hdb
          obtain ⟨k, hk⟩ := Option.isSome_iff_exists.mp h.1
          have hk' : (s.tick o).db.sink id i = some k := hk
          have hsame : db.sink id i = s.db.sink id i := by
            rw [(sink_ensure hdb id i).2, hk', hk, Option.some_or]
          exact undelivered_of_sink hsame h
      case complete_sink_delivery j k =>
        refine undelivered_update ?_ h
        intro r hr
        simp only [Bool.and_eq_true, decide_eq_true_eq] at hr
        exact absurd ⟨hr.1.symm, hr.2.symm⟩ hop
      case fail_sink_delivery j k error =>
        refine undelivered_update ?_ h
        intro r _
        unfold SinkRow.spent
        dsimp only
        split <;> simp
      case abandon_retryable_sinks j indices error =>
        exact undelivered_update (fun r _ => by simp [SinkRow.abandoned]) h
      case requeue_dead_outbox =>
        exact undelivered_update (fun r _ => by simp [SinkRow.reset]) (undelivered_of_sink rfl h)
      all_goals cases hsinks

/-- Nothing of the row changes. -/
def Still (id : Nat) (db db' : Db) : Prop :=
  db'.parent id = db.parent id ∧ ∀ i, db'.sink id i = db.sink id i

theorem Still.trans {db₁ db₂ db₃ : Db} (h : Still id db₁ db₂) (h' : Still id db₂ db₃) :
    Still id db₁ db₃ :=
  ⟨h'.1.trans h.1, fun i => (h'.2 i).trans (h.2 i)⟩

theorem Still.symm {db db' : Db} (h : Still id db db') : Still id db' db :=
  ⟨h.1.symm, fun i => (h.2 i).symm⟩

/-- What the bookkeeping for row `j` leaves alone: it speaks to no sink, delivers nothing and
touches no other row. -/
structure Hush (j : Nat) (s s' : World) : Prop where
  sends : s'.book.sends = s.book.sends
  undelivered : ∀ id i, Undelivered s.db id i → Undelivered s'.db id i
  sent : ∀ id i, sentAt s.db id i = true → sentAt s'.db id i = true
  closed : ∀ id, closed s'.db id = true → closed s.db id = true
  others : ∀ id, id ≠ j → Still id s.db s'.db

theorem Hush.refl (j : Nat) (s : World) : Hush j s s :=
  ⟨rfl, fun _ _ h => h, fun _ _ h => h, fun _ h => h, fun _ _ => ⟨rfl, fun _ => rfl⟩⟩

theorem Hush.trans {j : Nat} {s₁ s₂ s₃ : World} (h : Hush j s₁ s₂) (h' : Hush j s₂ s₃) :
    Hush j s₁ s₃ where
  sends := h'.sends.trans h.sends
  undelivered := fun id i hu => h'.undelivered id i (h.undelivered id i hu)
  sent := fun id i hs => h'.sent id i (h.sent id i hs)
  closed := fun id hc => h.closed id (h'.closed id hc)
  others := fun id hid => (h.others id hid).trans (h'.others id hid)

theorem hush_of_same {j : Nat} {s s' : World} (hs : s'.book.sends = s.book.sends)
    (hdb : s'.db = s.db) : Hush j s s' := by
  refine ⟨hs, ?_, ?_, ?_, ?_⟩ <;> rw [hdb]
  · exact fun _ _ h => h
  · exact fun _ _ h => h
  · exact fun _ h => h
  · exact fun _ _ => ⟨rfl, fun _ => rfl⟩

/-- A write to the parent that does not make it sent. -/
theorem hush_of_parent {j : Nat} {s s' : World} {p : Nat → OutboxRow → Bool}
    {f : OutboxRow → OutboxRow} (hs : s'.book.sends = s.book.sends)
    (hdb : s'.db = s.db.updateOutbox p f) (hp : ∀ id r, id ≠ j → p id r = false)
    (hf : ∀ r, (f r).status = .sent → r.status = .sent) : Hush j s s' := by
  refine ⟨hs, ?_, ?_, ?_, ?_⟩ <;> rw [hdb]
  · exact fun _ _ h => undelivered_of_sink rfl h
  · exact fun _ _ h => h
  · intro id h
    unfold closed at h ⊢
    rw [Db.parent_updateOutbox, Option.any_map] at h
    obtain ⟨r, hr, hst⟩ := (Option.any_eq_true _ _).mp h
    rw [hr, Option.any_some]
    simp only [decide_eq_true_eq] at hst ⊢
    split at hst
    · exact hf r hst
    · exact hst
  · intro id hid
    refine ⟨?_, fun _ => rfl⟩
    rw [Db.parent_updateOutbox]
    cases s.db.parent id with
    | none => rfl
    | some r => simp [hp id r hid]

/-- The bookkeeping calls for row `j`. -/
def hushed (j : Nat) {β : Type} (op : Call β) : Prop :=
  match op with
  | .advisories _ _ _ _ | .notifier_snapshot | .breaker_allows _ | .drain_newly_opened_breakers
  | .emit_ops_alert _ _ | .outbox_retry_backoff_max_secs | .through _ => True
  | .list_pending_sink_indices k | .abandon_retryable_sinks k _ _ | .sinks_delivery_complete k
  | .count_sinks k | .mark_outbox_dead k | .mark_outbox_failed k | .fail_notification k _
  | .apply_delivery_backoff k _ | .defer_delivery k _ => k = j
  | _ => False

theorem sent_of_abandoned {db : Db} {j i : Nat} {indices : List Nat} {error : String}
    (h : sentAt db id i = true) :
    sentAt (abandon_retryable_sinks db j indices error).2 id i = true := by
  unfold sentAt at h ⊢
  obtain ⟨k, hk, hst⟩ := (Option.any_eq_true _ _).mp h
  rw [decide_eq_true_eq] at hst
  simp [abandon_retryable_sinks, hk, hst, Status.retryable]

theorem hush_exec {β : Type} {j w : Nat} {op : Call β} (o : Oracle) (s : World)
    (h : hushed j op) :
    Hush j s (exec w op o s).2 ∧ (o.fails = none → ∃ b, (exec w op o s).1 = .ok b) := by
  cases hfail : o.fails with
  | some e =>
    refine ⟨?_, fun he => absurd he (by simp)⟩
    cases op <;> simp only [exec, stored, hfail]
    all_goals first
      | exact False.elim h
      | exact hush_of_same rfl rfl
  | none =>
    refine ⟨?_, fun _ => ?_⟩
    · cases op <;> simp only [exec, stored, hfail]
      case abandon_retryable_sinks k indices error =>
        obtain rfl : k = j := h
        refine ⟨rfl, ?_, fun _ _ => sent_of_abandoned, fun _ hc => hc, ?_⟩
        · exact fun id i hu => undelivered_update (fun r _ => by simp [SinkRow.abandoned]) hu
        · intro id hid
          refine ⟨rfl, fun i => ?_⟩
          change (abandon_retryable_sinks s.db k indices error).2.sink id i = s.db.sink id i
          unfold abandon_retryable_sinks
          rw [Db.sink_updateSinks]
          cases s.db.sink id i with
          | none => rfl
          | some r => simp [hid]
      case mark_outbox_dead k =>
        obtain rfl : k = j := h
        exact hush_of_parent rfl rfl (fun id r hid => by simp [hid]) (fun r hr => by simp at hr)
      case mark_outbox_failed k =>
        obtain rfl : k = j := h
        exact hush_of_parent rfl rfl (fun id r hid => by simp [hid]) (fun r hr => by simp at hr)
      case fail_notification k error =>
        obtain rfl : k = j := h
        refine hush_of_parent rfl rfl (fun id r hid => by simp [hid]) ?_
        intro r hr
        unfold OutboxRow.spent at hr
        dsimp only at hr
        split at hr <;> simp at hr
      case apply_delivery_backoff k secs =>
        obtain rfl : k = j := h
        exact hush_of_parent rfl rfl (fun id r hid => by simp [hid]) (fun r hr => hr)
      case defer_delivery k secs =>
        obtain rfl : k = j := h
        exact hush_of_parent rfl rfl (fun id r hid => by simp [hid]) (fun r hr => hr)
      all_goals first
        | exact False.elim h
        | exact hush_of_same rfl rfl
    · cases op <;> first
        | exact False.elim h
        | simp [exec, stored, hfail]

/-! ## The bookkeeping of a row -/

section Hushed

variable {j : Nat} {α β : Type}

def Hushed (j : Nat) (p : Work α) : Prop := ∀ f, p.Within (hushed j) (fun _ _ => True) f

theorem hushed_done (a : α) : Hushed j (done a) := fun _ => trivial

theorem hushed_call {op : Call α} (h : hushed j op) : Hushed j (perform op) :=
  fun _ => within_perform h (fun _ => trivial)

theorem hushed_bind {p : Work α} {g : α → Work β} (hp : Hushed j p) (hg : ∀ a, Hushed j (g a)) :
    Hushed j (p.bind g) :=
  fun f => within_bind (hp f) (fun f a _ => hg a f)

theorem hushed_if {p q : Work α} {c : Prop} [Decidable c] (hp : Hushed j p) (hq : Hushed j q) :
    Hushed j (if c then p else q) := by
  split
  · exact hp
  · exact hq

theorem hushed_breaker_alerts : Hushed j emit_breaker_alerts := by
  refine hushed_bind (hushed_call trivial) ?_
  intro labels
  induction labels with
  | nil => exact hushed_done ()
  | cons label rest ih => exact hushed_bind (hushed_call trivial) (fun _ => ih)

theorem hushed_fail (source_id error : String) :
    Hushed j (fail_outbox_row_alert j source_id error) :=
  hushed_bind (hushed_call rfl) (fun _ => hushed_if (hushed_call trivial) (hushed_done ()))

theorem hushed_sync (source_id : String) : Hushed j (sync_outbox_status_alert j source_id) := by
  refine hushed_bind (hushed_bind (hushed_call rfl) ?_)
    (fun _ => hushed_if (hushed_call trivial) (hushed_done ()))
  intro c
  exact hushed_if (hushed_done false) (hushed_if (hushed_call rfl)
    (hushed_bind (hushed_call rfl) (fun _ => hushed_done false)))

theorem hushed_abandon_orphans (event : Event) (orphans : List Nat) :
    Hushed j (abandon_orphans j event orphans) :=
  hushed_if (hushed_done ()) (hushed_bind (hushed_call rfl) (fun _ => hushed_done ()))

theorem within_backoff_after {A : {γ : Type} → Call γ → Prop} {id : Nat}
    (hmax : A .outbox_retry_backoff_max_secs) (happly : ∀ n, A (.apply_delivery_backoff id n))
    (hdefer : ∀ n, A (.defer_delivery id n)) (attempts_before : Nat)
    (outcome : Except PipelineError DeliveryAttempt) (f : Bool) :
    (backoff_after id attempts_before outcome).Within A (fun _ _ => True) f := by
  cases outcome with
  | error e => trivial
  | ok attempt =>
    simp only [backoff_after]
    split
    · trivial
    · refine within_bind (within_perform (Q := fun _ _ => True) hmax (fun _ => trivial)) ?_
      intro f max_secs _
      refine within_bind (Q := fun _ _ => True) (within_caught ?_ (fun _ => trivial))
        (fun _ _ _ => trivial)
      split
      · exact within_perform (hdefer _) (fun _ => trivial)
      · exact within_perform (happly _) (fun _ => trivial)

theorem hushed_backoff_after (attempts_before : Nat)
    (outcome : Except PipelineError DeliveryAttempt) :
    Hushed j (backoff_after j attempts_before outcome) :=
  within_backoff_after trivial (fun _ => rfl) (fun _ => rfl) attempts_before outcome

end Hushed

/-! ## A delivery by itself -/

/-- The store call goes through, the breaker is closed and the sink takes the event. -/
structure Smooth (o : Oracle) : Prop where
  fails : o.fails = none
  breaker_allows : o.breaker_allows = true
  notify : o.notify = .ok ()

abbrev unattended (smooth : Prop) : Terms Call World Oracle Outside :=
  solo (fun _ o => smooth → Smooth o)

section Unattended

variable {smooth : Prop} {w : Nat} {s : World} {α β : Type}

theorem safe_hushed {j : Nat} {p : Work α} (hp : Hushed j p) :
    (unattended smooth).Safe machine w
      (fun r s' => Hush j s s' ∧ (smooth → ∃ a, r = .ok a)) p s := by
  refine safe_within (K := fun s' => Hush j s s') ?_ (hp false) (fun _ => rfl) (Hush.refl j s)
  intro β op o s₁ hop hm hs
  obtain ⟨hh, hok⟩ := hush_exec (w := w) o s₁ hop
  exact ⟨hs.trans hh, fun hsm => hok (hm hsm).fails⟩

/-- One round of sends: what it calls, and that a good result comes from a call. -/
structure Round (ids indices : List Nat) (s s' : World) (calls : List Send) : Prop where
  db : s'.db = s.db
  sends : s'.book.sends = s.book.sends ++ calls
  indices : (calls.map (·.index)).Sublist indices
  rows : ∀ x ∈ calls, x.rows = ids

def Reached (calls : List Send) (i : Nat) : Prop := ∃ x ∈ calls, x.index = i ∧ x.ok = true

theorem safe_notify_at {ids : List Nat} {n : Notifier} {event : Event} {i : Nat}
    (hmatch : i ∈ matching_indices n event) :
    (unattended smooth).Safe machine w (fun r s' => ∃ calls, Round ids [i] s s' calls ∧
      ∃ result, r = .ok result ∧ (result = .ok () → Reached calls i) ∧
        (smooth → result = .ok ())) ( notify_at n ids event i) s := by
  obtain ⟨sink, hi, hacc⟩ := matching_sink hmatch
  simp only [notify_at, hi, hacc, Bool.not_true, Bool.false_eq_true, if_false]
  refine safe_bind (safe_solo ?_)
  intro o hm
  change (unattended smooth).Safe machine w _
    (if !o.breaker_allows then done (.error (.breaker_open sink.inner.kind.text))
      else perform (.notify ids i sink event)) (s.tick o)
  split
  · rename_i hopen
    refine ⟨[], ⟨rfl, (List.append_nil _).symm, List.nil_sublist _, by simp⟩, _, rfl, by simp, ?_⟩
    intro hsm
    rw [(hm hsm).breaker_allows] at hopen
    exact absurd hopen (by simp)
  · refine safe_solo ?_
    intro o' hm'
    refine ⟨_, ⟨rfl, rfl, List.Sublist.refl _, ?_⟩, o'.notify, rfl, ?_, fun hsm => (hm' hsm).notify⟩
    · intro x hx
      rw [List.mem_singleton.mp hx]
    · intro hok
      refine ⟨_, List.mem_singleton_self _, rfl, ?_⟩
      rw [hok]
      rfl

theorem safe_round (ids : List Nat) {n : Notifier} {event : Event} (indices : List Nat)
    (hmatch : ∀ i ∈ indices, i ∈ matching_indices n event) :
    (unattended smooth).Safe machine w (fun r s' => ∃ calls, Round ids indices s s' calls ∧
      ∃ results, r = .ok results ∧ results.map Prod.fst = indices ∧
        (∀ i, (i, .ok ()) ∈ results → Reached calls i) ∧
        (smooth → ∀ x ∈ results, x.2 = .ok ())) ( notify_partial n ids event indices) s := by
  induction indices generalizing s with
  | nil =>
    exact ⟨[], ⟨rfl, (List.append_nil _).symm, List.Sublist.refl _, by simp⟩, [], rfl, rfl,
      by simp, by simp⟩
  | cons i rest ih =>
    refine safe_bind (safe_mono (safe_notify_at (hmatch i List.mem_cons_self)) ?_)
    rintro r s₁ ⟨calls₁, h₁, result, rfl, hback₁, hsm₁⟩
    refine safe_bind (safe_mono
      (ih (s := s₁) (fun k hk => hmatch k (List.mem_cons_of_mem _ hk))) ?_)
    rintro r s₂ ⟨calls₂, h₂, results, rfl, hfst, hback₂, hsm₂⟩
    refine ⟨calls₁ ++ calls₂, ⟨h₂.db.trans h₁.db, ?_, ?_, ?_⟩, _, rfl, ?_, ?_, ?_⟩
    · rw [h₂.sends, h₁.sends, List.append_assoc]
    · rw [List.map_append]
      exact h₁.indices.append h₂.indices
    · intro x hx
      rcases List.mem_append.mp hx with hx | hx
      · exact h₁.rows x hx
      · exact h₂.rows x hx
    · simp [hfst]
    · intro k hk
      rcases List.mem_cons.mp hk with hk | hk
      · obtain ⟨rfl, hok⟩ := Prod.mk.inj hk
        obtain ⟨x, hx, hxi⟩ := hback₁ hok.symm
        exact ⟨x, List.mem_append_left _ hx, hxi⟩
      · obtain ⟨x, hx, hxi⟩ := hback₂ k hk
        exact ⟨x, List.mem_append_right _ hx, hxi⟩
    · intro hsm x hx
      rcases List.mem_cons.mp hx with rfl | hx
      · exact hsm₁ hsm
      · exact hsm₂ hsm x hx

end Unattended

/-! ## The row at hand -/

/-- Where a delivery of row `id` stands: of the sinks `U` that lacked the row, those that no longer
do are acknowledged, and the row is sent only when all of them are. -/
structure Held (id : Nat) (U A : Nat → Prop) (calls : List Send) (s : World) : Prop where
  sends : s.book.sends = calls
  lack : ∀ i, U i → Undelivered s.db id i ∨ A i
  closed : closed s.db id = true → ∀ i, U i → A i

/-- The row is open, and its ledger lacks these sinks at most. -/
structure Lacking (id : Nat) (pending : List Nat) (db : Db) : Prop where
  completes : completes db id = true
  only : ∀ i, Undelivered db id i → i ∈ pending

section Held

variable {id j : Nat} {U A : Nat → Prop} {calls : List Send} {s s' : World}

theorem Held.hush (h : Held id U A calls s) (hh : Hush j s s') : Held id U A calls s' where
  sends := hh.sends.trans h.sends
  lack := fun i hi => (h.lack i hi).imp_left (hh.undelivered id i)
  closed := fun hc => h.closed (hh.closed id hc)

theorem Still.undelivered {db db' : Db} (h : Still id db db') (i : Nat) :
    Undelivered db' id i ↔ Undelivered db id i := by
  unfold Undelivered hasAt sentAt
  rw [h.2 i]

theorem Still.closed {db db' : Db} (h : Still id db db') : closed db' id = closed db id := by
  unfold revived.closed
  rw [h.1]

theorem Held.still (h : Held id U A calls s) (hs : s'.book.sends = s.book.sends)
    (hd : Still id s.db s'.db) : Held id U A calls s' where
  sends := hs.trans h.sends
  lack := fun i hi => (h.lack i hi).imp_left (hd.undelivered i).mpr
  closed := fun hc => h.closed (hd.closed ▸ hc)

theorem Lacking.still {pending : List Nat} {db db' : Db} (h : Lacking id pending db)
    (hd : Still id db db') : Lacking id pending db' where
  completes := by
    unfold store.completes
    rw [hd.1]
    exact h.completes
  only := fun i hi => h.only i ((hd.undelivered i).mp hi)

theorem exec_complete_sink (id j w i : Nat) (o : Oracle) (s : World) :
    (exec w (.complete_sink_delivery j i) o s).2.book.sends = s.book.sends ∧
      (∀ k, (exec w (.complete_sink_delivery j i) o s).2.db.parent k = s.db.parent k) ∧
      (id ≠ j → Still id s.db (exec w (.complete_sink_delivery j i) o s).2.db) ∧
      (o.fails = none → (exec w (.complete_sink_delivery j i) o s).1 = .ok () ∧
        (∀ k, k ≠ i → Undelivered (exec w (.complete_sink_delivery j i) o s).2.db j k →
          Undelivered s.db j k) ∧
        ¬ Undelivered (exec w (.complete_sink_delivery j i) o s).2.db j i) := by
  cases hfail : o.fails with
  | some e =>
    simp only [exec, stored, hfail]
    exact ⟨rfl, fun _ => rfl, fun _ => ⟨rfl, fun _ => rfl⟩, fun h => absurd h (by simp)⟩
  | none =>
    simp only [exec, stored, hfail]
    have hsink : ∀ k i', (complete_sink_delivery s.db (s.tick o).now j i).sink k i' =
        (s.db.sink k i').map (fun r => if k = j && i' = i then
          { r with status := .sent, sent_at := some (s.tick o).now, last_error := none } else r) :=
      fun k i' => Db.sink_updateSinks _ _ _ _ _
    refine ⟨rfl, fun _ => rfl, ?_, fun _ => ⟨trivial, ?_, ?_⟩⟩
    · intro hid
      refine ⟨rfl, fun k => ?_⟩
      change (complete_sink_delivery s.db (s.tick o).now j i).sink id k = s.db.sink id k
      rw [hsink]
      simp [hid]
    · intro k hk hu
      have hsame : (complete_sink_delivery s.db (s.tick o).now j i).sink j k = s.db.sink j k := by
        rw [hsink]
        simp [hk]
      change Undelivered (complete_sink_delivery s.db (s.tick o).now j i) j k at hu
      exact undelivered_of_sink hsame.symm hu
    · intro hu
      change Undelivered (complete_sink_delivery s.db (s.tick o).now j i) j i at hu
      unfold Undelivered hasAt sentAt at hu
      rw [hsink] at hu
      cases hk : s.db.sink j i <;> simp [hk] at hu

theorem exec_complete (id j w : Nat) (source_id : String) (seen : SeenUpsert) (o : Oracle)
    (s : World) :
    (exec w (.complete_notification j source_id seen) o s).2.book.sends = s.book.sends ∧
      (∀ k i, (exec w (.complete_notification j source_id seen) o s).2.db.sink k i =
        s.db.sink k i) ∧
      (id ≠ j → Still id s.db (exec w (.complete_notification j source_id seen) o s).2.db) ∧
      (o.fails = none → completes s.db j = true →
        (exec w (.complete_notification j source_id seen) o s).1 = .ok true ∧
          closed (exec w (.complete_notification j source_id seen) o s).2.db j = true) ∧
      (o.fails = none → ∃ b, (exec w (.complete_notification j source_id seen) o s).1 = .ok b) := by
  cases hfail : o.fails with
  | some e =>
    simp only [exec, stored, hfail]
    exact ⟨rfl, fun _ _ => rfl, fun _ => ⟨rfl, fun _ => rfl⟩, fun h => absurd h (by simp),
      fun h => absurd h (by simp)⟩
  | none =>
    simp only [exec, stored, hfail]
    cases hc : completes s.db j with
    | false =>
      have hr : complete_notification (s.tick o).db (s.tick o).now j source_id seen =
          (false, s.db) := by
        unfold complete_notification
        exact if_neg (fun he => Bool.false_ne_true (hc.symm.trans he))
      rw [hr]
      exact ⟨rfl, fun _ _ => rfl, fun _ => ⟨rfl, fun _ => rfl⟩, fun _ h => absurd h (by simp),
        fun _ => ⟨false, rfl⟩⟩
    | true =>
      have hr : complete_notification (s.tick o).db (s.tick o).now j source_id seen =
          (true, write_seen_row
            (s.db.updateOutbox (fun k r => k = j && r.status.retryable)
              (·.completed (s.tick o).now)) (s.tick o).now source_id seen) := by
        unfold complete_notification
        exact if_pos hc
      rw [hr]
      refine ⟨rfl, fun _ _ => rfl, ?_, ?_, fun _ => ⟨true, rfl⟩⟩
      · intro hid
        refine ⟨?_, fun _ => rfl⟩
        change (write_seen_row _ _ _ _).parent id = _
        rw [parent_write_seen_row, Db.parent_updateOutbox]
        cases s.db.parent id with
        | none => rfl
        | some r => simp [hid]
      · intro _ _
        refine ⟨rfl, ?_⟩
        unfold closed
        change ((write_seen_row _ _ _ _).parent j).any _ = true
        obtain ⟨r, hrow, hst⟩ := (Option.any_eq_true _ _).mp hc
        rw [parent_write_seen_row, Db.parent_updateOutbox, hrow]
        simp [hst, OutboxRow.completed]

end Held

/-! ## Settling the row -/

section Settling

variable {id j : Nat} {U A : Nat → Prop} {calls : List Send} {smooth : Prop} {w : Nat} {s : World}

theorem not_smooth {α : Type} {e : PipelineError}
    (h : smooth → ∃ a, (Except.error e : Except PipelineError α) = .ok a) : ¬ smooth := by
  intro hsm
  obtain ⟨_, he⟩ := h hsm
  exact absurd he (by simp)

/-- Two promises of one program. -/
theorem safe_both {α : Type} {p : Work α} {Q Q' : Except PipelineError α → World → Prop}
    (h : (unattended smooth).Safe machine w Q p s)
    (h' : (unattended smooth).Safe machine w Q' p s) :
    (unattended smooth).Safe machine w (fun r s' => Q r s' ∧ Q' r s') p s := by
  induction p generalizing s with
  | done a => exact ⟨h, h'⟩
  | fail e => exact ⟨h, h'⟩
  | call op next ih =>
    intro s₁ hr hi o hm
    obtain ⟨hd, hi', hn⟩ := h s₁ hr hi o hm
    exact ⟨hd, hi', ih _ hn (h' s₁ hr hi o hm).2.2⟩

/-- What a piece of the settling of row `j` leaves of row `id`. -/
structure Settled (id j : Nat) (U A : Nat → Prop) (calls : List Send) (s s' : World) : Prop where
  held : Held id U A calls s'
  others : id ≠ j → Still id s.db s'.db

theorem safe_settled {α : Type} {p : Work α} (hp : Hushed j p) (h : Held id U A calls s) :
    (unattended smooth).Safe machine w
      (fun r s' => Settled id j U A calls s s' ∧ (smooth → ∃ a, r = .ok a)) p s :=
  safe_mono (safe_hushed hp) (fun _ _ hq => ⟨⟨h.hush hq.1, hq.1.others id⟩, hq.2⟩)

theorem settled_of_sink {β : Type} {op : Call β} {o : Oracle} (h : Held id U A calls s)
    (hop : ∀ k, U k → acks id k op → A k)
    (hsends : (exec w op o s).2.book.sends = s.book.sends)
    (hparent : ∀ k, (exec w op o s).2.db.parent k = s.db.parent k)
    (hothers : id ≠ j → Still id s.db (exec w op o s).2.db) :
    Settled id j U A calls s (exec w op o s).2 := by
  refine ⟨⟨hsends.trans h.sends, ?_, ?_⟩, hothers⟩
  · intro k hk
    by_cases hack : acks id k op
    · exact Or.inr (hop k hk hack)
    · exact (h.lack k hk).imp_left (undelivered_exec hack)
  · intro hc
    refine h.closed ?_
    unfold closed at hc ⊢
    rwa [hparent] at hc

theorem safe_fail_sink (i : Nat) (error : String) (h : Held id U A calls s) :
    (unattended smooth).Safe machine w (fun r s' => Settled id j U A calls s s' ∧
      (smooth → ∃ u, r = .ok u)) (perform (.fail_sink_delivery j i error)) s := by
  refine safe_solo ?_
  intro o hm
  refine ⟨settled_of_sink h (fun _ _ hack => False.elim hack) ?_ ?_ ?_, ?_⟩
  · cases hfail : o.fails <;> simp only [exec, stored, hfail] <;> rfl
  · intro k
    cases hfail : o.fails <;> simp only [exec, stored, hfail] <;> rfl
  · intro hid
    cases hfail : o.fails with
    | some e =>
      simp only [exec, stored, hfail]
      exact ⟨rfl, fun _ => rfl⟩
    | none =>
      simp only [exec, stored, hfail]
      refine ⟨rfl, fun k => ?_⟩
      change (fail_sink_delivery s.db j i error).sink id k = s.db.sink id k
      unfold fail_sink_delivery
      rw [Db.sink_updateSinks]
      cases s.db.sink id k with
      | none => rfl
      | some r => simp [hid]
  · intro hsm
    exact ⟨(), by simp [machine, exec, stored, (hm hsm).fails]⟩

theorem safe_record_result (i : Nat) (result : Except NotifyError Unit) (t : Tally)
    (hA : j = id → result = .ok () → A i) (h : Held id U A calls s) :
    (unattended smooth).Safe machine w (fun r s' => Settled id j U A calls s s' ∧
      (smooth → result = .ok () → r = .ok t ∧ (j = id → ∀ pending,
        Lacking id (i :: pending) s.db → Lacking id pending s'.db)) ∧
      (smooth → ∃ t', r = .ok t')) (record_result j i t result) s := by
  cases result with
  | ok u =>
    have hset (o : Oracle) :
        Settled id j U A calls s (exec w (.complete_sink_delivery j i) o s).2 := by
      obtain ⟨hsends, hparent, hothers, -⟩ := exec_complete_sink id j w i o s
      refine settled_of_sink h ?_ hsends hparent hothers
      rintro k - ⟨hj, rfl⟩
      exact hA hj rfl
    refine safe_solo_bind ?_ ?_
    · intro o a s' hm hexec
      have hs := hset o
      obtain ⟨-, hparent, -, hgood⟩ := exec_complete_sink id j w i o s
      rw [show exec w (.complete_sink_delivery j i) o s = _ from hexec] at hs hparent hgood
      refine ⟨hs, fun hsm _ => ⟨rfl, ?_⟩, fun _ => ⟨t, rfl⟩⟩
      rintro rfl pending hl
      obtain ⟨-, hkeep, hgone⟩ := hgood (hm hsm).fails
      refine ⟨?_, ?_⟩
      · unfold completes
        rw [hparent]
        exact hl.completes
      · intro k hu
        by_cases hk : k = i
        · exact absurd (hk ▸ hu) hgone
        · exact (List.mem_cons.mp (hl.only k (hkeep k hk hu))).resolve_left hk
    · intro o e s' hm hexec
      have hs := hset o
      obtain ⟨-, -, -, hgood⟩ := exec_complete_sink id j w i o s
      rw [show exec w (.complete_sink_delivery j i) o s = _ from hexec] at hs hgood
      have hno : ¬ smooth := fun hsm => absurd (hgood (hm hsm).fails).1 (by simp)
      exact ⟨hs, fun hsm => absurd hsm hno, fun hsm => absurd hsm hno⟩
  | error e =>
    have hfail (error : String) : (unattended smooth).Safe machine w
        (fun r s' => Settled id j U A calls s s' ∧ (smooth → ∃ t', r = .ok t'))
        (perform (.fail_sink_delivery j i error) >>= fun _ => (return ⟨true, true⟩ : Work Tally))
        s := by
      refine safe_bind (safe_mono (safe_fail_sink i error h) ?_)
      rintro r s' ⟨hs, hok⟩
      cases r with
      | ok u => exact ⟨hs, fun _ => ⟨_, rfl⟩⟩
      | error e => exact ⟨hs, fun hsm => absurd hsm (not_smooth hok)⟩
    have hboth : (unattended smooth).Safe machine w
        (fun r s' => Settled id j U A calls s s' ∧ (smooth → ∃ t', r = .ok t'))
        (record_result j i t (.error e)) s := by
      cases e with
      | breaker_open label => exact ⟨⟨h, fun _ => ⟨rfl, fun _ => rfl⟩⟩, fun _ => ⟨_, rfl⟩⟩
      | http _ => exact hfail _
      | misconfigured _ => exact hfail _
      | rejected _ _ _ => exact hfail _
      | backend _ _ => exact hfail _
      | fan_out _ _ _ => exact hfail _
    exact safe_mono hboth (fun r s' hq => ⟨hq.1, fun _ hok => absurd hok (by simp), hq.2⟩)

theorem Settled.trans {s₁ s₂ s₃ : World} (h : Settled id j U A calls s₁ s₂)
    (h' : Settled id j U A calls s₂ s₃) : Settled id j U A calls s₁ s₃ :=
  ⟨h'.held, fun hid => (h.others hid).trans (h'.others hid)⟩

theorem safe_record_results (results : List (Nat × Except NotifyError Unit)) (t : Tally)
    (hA : j = id → ∀ i, (i, .ok ()) ∈ results → A i) (h : Held id U A calls s) :
    (unattended smooth).Safe machine w (fun r s' => Settled id j U A calls s s' ∧
      (smooth → (∀ x ∈ results, x.2 = .ok ()) → r = .ok t ∧ (j = id → ∀ pending,
        Lacking id (results.map Prod.fst ++ pending) s.db → Lacking id pending s'.db)) ∧
      (smooth → ∃ t', r = .ok t')) (record_results j results t) s := by
  induction results generalizing s t with
  | nil => exact ⟨⟨h, fun _ => ⟨rfl, fun _ => rfl⟩⟩, fun _ _ => ⟨rfl, fun _ _ hl => hl⟩,
      fun _ => ⟨t, rfl⟩⟩
  | cons head rest ih =>
    obtain ⟨i, result⟩ := head
    have hhead : j = id → result = .ok () → A i := by
      rintro hj rfl
      exact hA hj i List.mem_cons_self
    refine safe_bind (safe_mono (safe_record_result i result t hhead h) ?_)
    rintro r s₁ ⟨hset₁, hgood₁, hok₁⟩
    cases r with
    | error e =>
      have hno := not_smooth hok₁
      exact ⟨hset₁, fun hsm => absurd hsm hno, fun hsm => absurd hsm hno⟩
    | ok t₁ =>
      refine safe_mono (ih t₁ (fun hj k hk => hA hj k (List.mem_cons_of_mem _ hk)) hset₁.held) ?_
      rintro r s₂ ⟨hset₂, hgood₂, hok₂⟩
      refine ⟨hset₁.trans hset₂, fun hsm hall => ?_, hok₂⟩
      obtain ⟨ht, hl₁⟩ := hgood₁ hsm (hall _ List.mem_cons_self)
      obtain ⟨ht', hl₂⟩ := hgood₂ hsm (fun x hx => hall x (List.mem_cons_of_mem _ hx))
      obtain rfl := Except.ok.inj ht
      exact ⟨ht', fun hj pending hl => hl₂ hj pending (hl₁ hj _ hl)⟩

theorem unsent_of_lacking (h : Lacking id [] s.db) : (count_sinks s.db id).unsent = 0 := by
  unfold count_sinks
  dsimp only
  rw [List.length_eq_zero_iff, List.filter_eq_nil_iff]
  rintro ⟨⟨k, i⟩, r⟩ hmem
  unfold sinks_of at hmem
  rw [Table.mem_select] at hmem
  obtain ⟨hget, hk⟩ := hmem
  obtain rfl : k = id := by simpa using hk
  have hsink : s.db.sink k i = some r := hget
  have hno : ¬ Undelivered s.db k i := fun hu => absurd (h.only i hu) (by simp)
  simpa [Undelivered, hasAt, sentAt, hsink] using hno

/-- A question to the store. -/
theorem safe_asked {α β : Type} {op : Call β} {v : β} {f : β → Work α}
    {Q : Except PipelineError α → World → Prop}
    (hop : ∀ o, exec w op o s = stored o (s.tick o) (v, s.tick o))
    (hok : ∀ o, (unattended smooth).Safe machine w Q (f v) (s.tick o))
    (herr : ¬ smooth → ∀ o e, Q (.error e) (s.tick o)) :
    (unattended smooth).Safe machine w Q (perform op >>= f) s := by
  refine safe_solo_bind ?_ ?_
  · intro o a s' hm hexec
    have h : stored o (s.tick o) (v, s.tick o) = (.ok a, s') := (hop o).symm.trans hexec
    unfold stored at h
    cases hfail : o.fails with
    | some e => simp [hfail] at h
    | none =>
      obtain ⟨rfl, rfl⟩ : v = a ∧ s.tick o = s' := by simpa [hfail] using h
      exact hok o
  · intro o e s' hm hexec
    have h : stored o (s.tick o) (v, s.tick o) = (.error e, s') := (hop o).symm.trans hexec
    unfold stored at h
    cases hfail : o.fails with
    | none => simp [hfail] at h
    | some _ =>
      obtain ⟨-, rfl⟩ : _ ∧ s.tick o = s' := by simpa [hfail] using h
      refine herr (fun hsm => ?_) o e
      rw [(hm hsm).fails] at hfail
      exact absurd hfail (by simp)

theorem Held.tick (h : Held id U A calls s) (o : Oracle) : Held id U A calls (s.tick o) :=
  h.still rfl ⟨rfl, fun _ => rfl⟩

theorem safe_sync (source_id : String) (h : Held id U A calls s) :
    (unattended smooth).Safe machine w (fun r s' => (Settled id j U A calls s s' ∧
        (smooth → ∃ u, r = .ok u)) ∧
      (smooth → j = id → Lacking id [] s.db → Lacking id [] s'.db))
      (sync_outbox_status_alert j source_id) s := by
  refine safe_both (safe_settled (hushed_sync source_id) h) ?_
  by_cases hcase : j = id ∧ Lacking id [] s.db
  · obtain ⟨rfl, hl⟩ := hcase
    refine safe_bind (safe_asked (v := count_sinks s.db j) (fun o => rfl) ?_ ?_)
    · intro o
      simp only [unsent_of_lacking hl, decide_true, Bool.or_true, if_true]
      exact fun _ _ _ => hl
    · exact fun hsm _ _ h => absurd h hsm
  · refine safe_mono (safe_any _ s) ?_
    exact fun _ _ _ _ hj hl => absurd ⟨hj, hl⟩ hcase

theorem complete_of_lacking (h : Lacking id [] s.db) : sinks_delivery_complete s.db id = true := by
  have hzero := unsent_of_lacking h
  unfold count_sinks at hzero
  dsimp only at hzero
  rw [List.length_eq_zero_iff, List.filter_eq_nil_iff] at hzero
  unfold sinks_delivery_complete
  rw [List.all_eq_true]
  intro kr hmem
  simpa using hzero kr hmem

theorem safe_complete_or_failed (source_id : String) (seen : SeenUpsert)
    (hall : sinks_delivery_complete s.db j = true) (h : Held id U A calls s) :
    (unattended smooth).Safe machine w (fun r s' => Settled id j U A calls s s' ∧
      (smooth → ∃ a, r = .ok a) ∧ (smooth → j = id → completes s.db j = true →
        r = .ok .done ∧ closed s'.db id = true)) (complete_or_failed j source_id seen) s := by
  have hset (o : Oracle) : Settled id j U A calls s
      (exec w (.complete_notification j source_id seen) o s).2 := by
    obtain ⟨hsends, hsink, hothers, -⟩ := exec_complete id j w source_id seen o s
    refine ⟨⟨hsends.trans h.sends, ?_, ?_⟩, hothers⟩
    · intro i hi
      exact (h.lack i hi).imp_left (undelivered_of_sink (hsink id i))
    · intro hc i hi
      by_cases hj : id = j
      · -- every sink of the ledger has the row by now
        subst hj
        refine (h.lack i hi).resolve_left (fun hu => ?_)
        have hsent : sentAt s.db id i = true := all_sent_of_complete hall i hu.1
        exact absurd (hu.2.symm.trans hsent) (by simp)
      · exact h.closed ((hothers hj).closed ▸ hc) i hi
  refine safe_solo_bind ?_ ?_
  · intro o completed s' hm hexec
    have hs := hset o
    obtain ⟨-, -, -, hdone, -⟩ := exec_complete id j w source_id seen o s
    rw [show exec w (.complete_notification j source_id seen) o s = _ from hexec] at hs hdone
    refine ⟨hs, fun _ => ⟨_, rfl⟩, ?_⟩
    rintro hsm rfl hopen
    obtain ⟨hb, hclosed⟩ := hdone (hm hsm).fails hopen
    obtain rfl := Except.ok.inj hb
    exact ⟨rfl, hclosed⟩
  · intro o e s' hm hexec
    have hs := hset o
    obtain ⟨-, -, -, -, hsure⟩ := exec_complete id j w source_id seen o s
    rw [show exec w (.complete_notification j source_id seen) o s = _ from hexec] at hs hsure
    have hno : ¬ smooth := by
      intro hsm
      obtain ⟨_, hb⟩ := hsure (hm hsm).fails
      exact absurd hb (by simp)
    exact ⟨hs, fun hsm => absurd hsm hno, fun hsm => absurd hsm hno⟩

/-- Complete the row when its ledger is, and otherwise do what the bookkeeping does. -/
theorem safe_finish (source_id : String) (seen : SeenUpsert) {no : Work DeliveryAttempt}
    (hno : Hushed j no) (h : Held id U A calls s) :
    (unattended smooth).Safe machine w (fun r s' => Settled id j U A calls s s' ∧
      (smooth → ∃ a, r = .ok a) ∧ (smooth → j = id → Lacking id [] s.db →
        r = .ok .done ∧ closed s'.db id = true))
      (perform (.sinks_delivery_complete j) >>= fun complete =>
        if complete then complete_or_failed j source_id seen else no) s := by
  refine safe_asked (v := sinks_delivery_complete s.db j) (fun o => rfl) ?_ ?_
  · intro o
    cases hcomplete : sinks_delivery_complete s.db j with
    | false =>
      refine safe_mono (safe_settled hno (h.tick o)) ?_
      rintro r s' ⟨hset, hok⟩
      refine ⟨⟨hset.held, hset.others⟩, hok, ?_⟩
      rintro - rfl hl
      exact absurd (hcomplete.symm.trans (complete_of_lacking hl)) (by simp)
    | true =>
      refine safe_mono (safe_complete_or_failed (s := s.tick o) source_id seen hcomplete
        (h.tick o)) ?_
      rintro r s' ⟨hset, hok, hdone⟩
      exact ⟨⟨hset.held, hset.others⟩, hok, fun hsm hj hl => hdone hsm hj (hj ▸ hl.completes)⟩
  · intro hsm o e
    exact ⟨⟨h.tick o, fun _ => ⟨rfl, fun _ => rfl⟩⟩, fun h => absurd h hsm, fun h => absurd h hsm⟩

/-! ## One row -/

theorem Held.round {ids indices : List Nat} {s' : World}
    (h : Held id U (fun _ => False) s.book.sends s) (hr : Round ids indices s s' calls) :
    Held id U (Reached calls) (s.book.sends ++ calls) s' where
  sends := hr.sends
  lack := fun i hi => Or.inl ((h.lack i hi).elim (fun hu => hr.db ▸ hu) False.elim)
  closed := fun hc i hi => False.elim (h.closed (hr.db ▸ hc) i hi)

/-- The calls of a delivery of the rows `ids`: no sink twice, and each for a row it has not had. -/
structure Called (db : Db) (ids : List Nat) (calls : List Send) : Prop where
  once : (calls.map (·.index)).Nodup
  rows : ∀ x ∈ calls, x.rows = ids
  wanted : ∀ x ∈ calls, ∃ k ∈ ids, sentAt db k x.index = false

theorem called_nothing (db : Db) (ids : List Nat) : Called db ids [] :=
  ⟨List.nodup_nil, by simp, by simp⟩

variable {db : Db} {matching : List Nat} {L : List Send} {group : List OutboxRecord}

theorem called_of_round {ids indices : List Nat} {s' : World} (hnodup : indices.Nodup)
    (hwanted : ∀ i ∈ indices, ∃ k ∈ ids, sentAt db k i = false)
    (hr : Round ids indices s s' calls) : Called db ids calls where
  once := hnodup.sublist hr.indices
  rows := hr.rows
  wanted := fun x hx => hwanted x.index (hr.indices.subset (List.mem_map_of_mem hx))

variable (smooth) in
theorem safe_send_pending {n : Notifier} {event : Event} (source_id : String) (seen : SeenUpsert)
    {pending : List Nat} (hmatch : ∀ i ∈ pending, i ∈ matching_indices n event)
    (hnodup : pending.Nodup) (hwanted : ∀ i ∈ pending, sentAt db id i = false)
    (h : Held id U (fun _ => False) s.book.sends s) :
    (unattended smooth).Safe machine w (fun r s' => ∃ calls, Called db [id] calls ∧
        Held id U (Reached calls) (s.book.sends ++ calls) s' ∧ (smooth → ∃ a, r = .ok a) ∧
        (smooth → Lacking id pending s.db → r = .ok .done ∧ closed s'.db id = true))
      (send_pending n id event source_id seen pending) s := by
  refine safe_bind (safe_mono (safe_round [id] pending hmatch) ?_)
  rintro r s₁ ⟨calls, hround, results, rfl, hfst, hback, hgood⟩
  have hcalled : Called db [id] calls :=
    called_of_round hnodup (fun i hi => ⟨id, List.mem_singleton_self id, hwanted i hi⟩) hround
  -- the alerts belong to no row, so to none but this one
  refine safe_bind (safe_mono
    (safe_settled (j := id + 1) hushed_breaker_alerts (h.round hround)) ?_)
  rintro r s₂ ⟨hset₂, hok₂⟩
  have hstill : Still id s.db s₂.db := hround.db ▸ hset₂.others (by omega)
  cases r with
  | error e =>
    have hno := not_smooth hok₂
    exact ⟨calls, hcalled, hset₂.held, fun hsm => absurd hsm hno, fun hsm => absurd hsm hno⟩
  | ok _ =>
  refine safe_bind (safe_mono
    (safe_record_results (j := id) results ⟨false, false⟩ (fun _ i hi => hback i hi) hset₂.held) ?_)
  rintro r s₃ ⟨hset₃, hall₃, hok₃⟩
  cases r with
  | error e =>
    have hno := not_smooth hok₃
    exact ⟨calls, hcalled, hset₃.held, fun hsm => absurd hsm hno, fun hsm => absurd hsm hno⟩
  | ok t =>
  refine safe_bind (safe_mono (safe_sync (j := id) source_id hset₃.held) ?_)
  rintro r s₄ ⟨⟨hset₄, hok₄⟩, hlack₄⟩
  cases r with
  | error e =>
    have hno := not_smooth hok₄
    exact ⟨calls, hcalled, hset₄.held, fun hsm => absurd hsm hno, fun hsm => absurd hsm hno⟩
  | ok _ =>
  have hdone (hsm : smooth) (hl : Lacking id pending s.db) :
      t = ⟨false, false⟩ ∧ Lacking id [] s₄.db := by
    obtain ⟨ht, hl₃⟩ := hall₃ hsm (hgood hsm)
    refine ⟨Except.ok.inj ht, hlack₄ hsm rfl (hl₃ rfl [] ?_)⟩
    rw [hfst, List.append_nil]
    exact hl.still hstill
  dsimp only
  split
  · rename_i hfailed
    refine ⟨calls, hcalled, hset₄.held, fun _ => ⟨_, rfl⟩, fun hsm hl => ?_⟩
    rw [(hdone hsm hl).1] at hfailed
    exact absurd hfailed (by simp)
  · refine safe_mono (safe_finish source_id seen (hushed_done DeliveryAttempt.failed) hset₄.held) ?_
    rintro r s₅ ⟨hset₅, hok₅, hdone₅⟩
    exact ⟨calls, hcalled, hset₅.held, hok₅, fun hsm hl => hdone₅ hsm rfl (hdone hsm hl).2⟩

/-- The row is open, and each sink of its ledger that lacks it matches and waits for it. -/
structure Wanting (id : Nat) (matching : List Nat) (db : Db) : Prop where
  completes : completes db id = true
  waits : ∀ i k, db.sink id i = some k → k.status ≠ .sent → i ∈ matching ∧ k.wanting = true

theorem Wanting.still {db' : Db} (h : Wanting id matching db) (hd : Still id db db') :
    Wanting id matching db' where
  completes := by
    unfold store.completes
    rw [hd.1]
    exact h.completes
  waits := fun i k hk => h.waits i k ((hd.2 i).symm.trans hk)

theorem exec_ensure (id w j : Nat) (sinks : List (Nat × String)) (o : Oracle) (s : World) :
    Hush j s (exec w (.ensure_sink_deliveries j sinks) o s).2 ∧
      (∀ k, (exec w (.ensure_sink_deliveries j sinks) o s).2.db.parent k = s.db.parent k) ∧
      (∀ matching, (∀ x ∈ sinks, x.1 ∈ matching) → Wanting id matching s.db →
        Wanting id matching (exec w (.ensure_sink_deliveries j sinks) o s).2.db) ∧
      (o.fails = none → (s.db.parent j).isSome →
        (exec w (.ensure_sink_deliveries j sinks) o s).1 = .ok ()) := by
  have hquiet : ∀ s' : World, s'.book.sends = s.book.sends → s'.db = s.db → Hush j s s' ∧
      (∀ k, s'.db.parent k = s.db.parent k) ∧ ∀ matching : List Nat,
        (∀ x ∈ sinks, x.1 ∈ matching) → Wanting id matching s.db → Wanting id matching s'.db :=
    fun s' hs hdb => ⟨hush_of_same hs hdb, fun _ => by rw [hdb], fun _ _ h => hdb ▸ h⟩
  simp only [exec]
  split
  · rename_i hnone
    obtain ⟨h₁, h₂, h₃⟩ := hquiet (s.tick o) rfl rfl
    refine ⟨h₁, h₂, h₃, fun _ hp => ?_⟩
    unfold ensure_sink_deliveries at hnone
    rw [show (s.tick o).db = s.db from rfl] at hnone
    rw [Option.isNone_eq_false_iff.mpr hp] at hnone
    split at hnone <;> simp at hnone
  · rename_i db hdb
    cases hfail : o.fails with
    | some e =>
      obtain ⟨h₁, h₂, h₃⟩ := hquiet (s.tick o) rfl rfl
      simp only [stored, hfail]
      exact ⟨h₁, h₂, h₃, fun h => absurd h (by simp)⟩
    | none =>
      have hparent (k : Nat) : db.parent k = s.db.parent k := (sink_ensure hdb k 0).1
      have hsink (k i : Nat) := (sink_ensure hdb k i).2
      have hold {k i : Nat} {row : SinkRow} (hrow : s.db.sink k i = some row) :
          db.sink k i = some row := by
        rw [hsink, show (s.tick o).db.sink k i = some row from hrow, Option.some_or]
      have hstill (k : Nat) (hk : k ≠ j) : Still k s.db db := by
        refine ⟨hparent k, fun i => ?_⟩
        rw [hsink, if_neg hk, Option.or_none]
        rfl
      simp only [stored, hfail]
      refine ⟨⟨rfl, ?_, ?_, ?_, hstill⟩, hparent, ?_, fun _ _ => trivial⟩
      · intro k i hu
        obtain ⟨row, hrow⟩ := Option.isSome_iff_exists.mp hu.1
        exact undelivered_of_sink ((hold hrow).trans hrow.symm) hu
      · intro k i hsent
        obtain ⟨row, hrow, hst⟩ := (Option.any_eq_true _ _).mp hsent
        change (db.sink k i).any _ = true
        rw [hold hrow]
        exact hst
      · intro k hc
        unfold closed at hc ⊢
        rwa [show (World.wrote _ db).db.parent k = s.db.parent k from hparent k] at hc
      · intro matching hin h
        refine ⟨?_, ?_⟩
        · unfold completes
          rw [show (World.wrote _ db).db.parent id = s.db.parent id from hparent id]
          exact h.completes
        · intro i row hrow hst
          cases hbefore : s.db.sink id i with
          | some row' =>
            obtain rfl : row' = row := Option.some.inj ((hold hbefore).symm.trans hrow)
            exact h.waits i row' hbefore hst
          | none =>
            change db.sink id i = some row at hrow
            rw [hsink, show (s.tick o).db.sink id i = none from hbefore, Option.none_or] at hrow
            split at hrow
            · obtain ⟨x, hx, rfl⟩ := Option.map_eq_some_iff.mp hrow
              have hxi : x.1 = i := by simpa using List.find?_some hx
              exact ⟨hxi ▸ hin x (List.mem_of_find?_eq_some hx), rfl⟩
            · exact absurd hrow (by simp)

theorem mem_pending_of_undelivered (h : Wanting id matching db) {i : Nat}
    (hu : Undelivered db id i) :
    i ∈ matching ∧ i ∈ list_pending_sink_indices db id := by
  obtain ⟨row, hrow⟩ := Option.isSome_iff_exists.mp hu.1
  have hst : row.status ≠ .sent := by simpa [sentAt, hrow] using hu.2
  obtain ⟨hm, hw⟩ := h.waits i row hrow hst
  exact ⟨hm, mem_pending hrow hw⟩

/-- What waits for the row is what its ledger lacks. -/
theorem Wanting.lacking (h : Wanting id matching db) :
    (list_pending_sink_indices db id).filter (fun i => matching.contains i) =
        list_pending_sink_indices db id ∧
      Lacking id (list_pending_sink_indices db id) db := by
  refine ⟨List.filter_eq_self.mpr ?_, h.completes, fun i hu => (mem_pending_of_undelivered h hu).2⟩
  intro i hi
  simpa using (mem_pending_of_undelivered h (pending_unsent hi)).1

theorem Held.nothing (h : Held id U (fun _ => False) L s) :
    Held id U (Reached []) (L ++ []) s where
  sends := h.sends.trans (List.append_nil L).symm
  lack := fun i hi => (h.lack i hi).imp_right False.elim
  closed := fun hc i hi => False.elim (h.closed hc i hi)

theorem safe_ensure {α : Type} {Q : Except PipelineError α → World → Prop} {f : Unit → Work α}
    {sinks : List (Nat × String)} (id : Nat) (hin : ∀ x ∈ sinks, x.1 ∈ matching)
    (hok : ∀ s', Hush j s s' → (∀ k, s'.db.parent k = s.db.parent k) →
      (Wanting id matching s.db → Wanting id matching s'.db) →
      (unattended smooth).Safe machine w Q (f ()) s')
    (herr : ∀ e s', Hush j s s' → (smooth → (s.db.parent j).isSome → False) → Q (.error e) s') :
    (unattended smooth).Safe machine w Q (perform (.ensure_sink_deliveries j sinks) >>= f) s := by
  refine safe_solo_bind ?_ ?_
  · intro o a s' hm hexec
    obtain ⟨hh, hp, hw, -⟩ := exec_ensure id w j sinks o s
    rw [show exec w (.ensure_sink_deliveries j sinks) o s = _ from hexec] at hh hp hw
    exact hok s' hh hp (hw matching hin)
  · intro o e s' hm hexec
    obtain ⟨hh, -, -, hsure⟩ := exec_ensure id w j sinks o s
    rw [show exec w (.ensure_sink_deliveries j sinks) o s = _ from hexec] at hh hsure
    refine herr e s' hh (fun hsm hp => ?_)
    exact absurd (hsure (hm hsm).fails hp) (by simp)

theorem isSome_of_completes (h : completes db id = true) : (db.parent id).isSome := by
  obtain ⟨r, hr, -⟩ := (Option.any_eq_true _ _).mp h
  rw [hr]
  rfl

theorem unsent_before {i : Nat} {db' : Db}
    (hsent : ∀ i, sentAt db id i = true → sentAt db' id i = true) (hi : sentAt db' id i = false) :
    sentAt db id i = false := by
  cases h : sentAt db id i with
  | false => rfl
  | true => exact absurd ((hsent i h).symm.trans hi) (by simp)

theorem safe_send_live {n : Notifier} {event : Event} (source_id : String) (seen : SeenUpsert)
    {pending : List Nat} (hnodup : pending.Nodup) (hwanted : ∀ i ∈ pending, sentAt db id i = false)
    (h : Held id U (fun _ => False) s.book.sends s) :
    (unattended smooth).Safe machine w (fun r s' => ∃ calls, Called db [id] calls ∧
        Held id U (Reached calls) (s.book.sends ++ calls) s' ∧
        (smooth → pending.filter (fun i => (matching_indices n event).contains i) = pending →
          Lacking id pending s.db → r = .ok .done ∧ closed s'.db id = true))
      (abandon_orphans id event
          (pending.filter (fun i => !(matching_indices n event).contains i)) >>= fun _ =>
        send_pending n id event source_id seen
          (pending.filter (fun i => (matching_indices n event).contains i))) s := by
  have hmatch : ∀ i ∈ pending.filter (fun i => (matching_indices n event).contains i),
      i ∈ matching_indices n event := fun i hi => by simpa using (List.mem_filter.mp hi).2
  have hsend (s' : World) (h' : Held id U (fun _ => False) s'.book.sends s') :=
    safe_send_pending smooth (w := w) source_id seen hmatch (hnodup.filter _)
      (fun i hi => hwanted i (List.mem_filter.mp hi).1) h'
  by_cases horphans : pending.filter (fun i => !(matching_indices n event).contains i) = []
  · rw [horphans]
    refine safe_mono (hsend s h) ?_
    rintro r s' ⟨calls, hcalled, hheld, -, hdone⟩
    exact ⟨calls, hcalled, hheld, fun hsm hall hl => hdone hsm (hall.symm ▸ hl)⟩
  · have hno : pending.filter (fun i => (matching_indices n event).contains i) ≠ pending := by
      intro hall
      rw [List.filter_eq_self] at hall
      refine horphans (List.filter_eq_nil_iff.mpr ?_)
      intro i hi
      simpa using hall i hi
    refine safe_bind (safe_mono (safe_settled (j := id) (hushed_abandon_orphans event _) h) ?_)
    rintro r s₁ ⟨hset, -⟩
    cases r with
    | error e => exact ⟨[], called_nothing _ _, hset.held.nothing, fun _ hall => absurd hall hno⟩
    | ok _ =>
      refine safe_mono (hsend s₁ (hset.held.sends.symm ▸ hset.held)) ?_
      rintro r s₂ ⟨calls, hcalled, hheld, -, -⟩
      exact ⟨calls, hcalled, hset.held.sends ▸ hheld, fun _ hall => absurd hall hno⟩

/-- A delivery of the row by itself. -/
theorem safe_deliver (event : Event) (source_id : String) (seen : SeenUpsert)
    (h : Held id U (fun _ => False) s.book.sends s) :
    (unattended smooth).Safe machine w (fun r s' => ∃ calls, Called s.db [id] calls ∧
        Held id U (Reached calls) (s.book.sends ++ calls) s' ∧
        (smooth → matching_indices s.notifiers event ≠ [] →
          Wanting id (matching_indices s.notifiers event) s.db →
          r = .ok .done ∧ closed s'.db id = true))
      (deliver_to_pending_sinks id event source_id seen) s := by
  have hnothing {r : Except PipelineError DeliveryAttempt} {s' : World}
      (hs : Held id U (fun _ => False) s.book.sends s')
      (hno : smooth → matching_indices s.notifiers event ≠ [] →
        Wanting id (matching_indices s.notifiers event) s.db → False) :
      ∃ calls, Called s.db [id] calls ∧ Held id U (Reached calls) (s.book.sends ++ calls) s' ∧
        (smooth → matching_indices s.notifiers event ≠ [] →
          Wanting id (matching_indices s.notifiers event) s.db →
          r = .ok .done ∧ closed s'.db id = true) :=
    ⟨[], called_nothing _ _, hs.nothing, fun hsm hm hw => False.elim (hno hsm hm hw)⟩
  refine safe_bind (safe_solo ?_)
  intro o hm
  change (unattended smooth).Safe machine w _ (if matching_indices s.notifiers event = [] then _
    else _) ((s.tick o).looked w)
  have h₁ : Held id U (fun _ => False) s.book.sends ((s.tick o).looked w) :=
    h.still rfl ⟨rfl, fun _ => rfl⟩
  split
  · rename_i hnone
    refine safe_bind (safe_mono (safe_settled (j := id) (hushed_fail source_id _) h₁) ?_)
    rintro r s₂ ⟨hset, -⟩
    cases r with
    | error e => exact hnothing hset.held (fun _ hsome => absurd hnone hsome)
    | ok _ => exact hnothing hset.held (fun _ hsome => absurd hnone hsome)
  · have hsinks : ∀ x ∈ (matching_indices s.notifiers event).map
        (fun i => (i, kind_at s.notifiers i)), x.1 ∈ matching_indices s.notifiers event := by
      intro x hx
      obtain ⟨i, hi, rfl⟩ := List.mem_map.mp hx
      exact hi
    refine safe_ensure id hsinks ?_ ?_
    · intro s₂ hh₂ hp₂ hw₂
      have h₂ : Held id U (fun _ => False) s.book.sends s₂ := h₁.hush hh₂
      refine safe_asked (v := list_pending_sink_indices s₂.db id) (fun o => rfl) ?_ ?_
      · intro o₃
        have h₃ : Held id U (fun _ => False) s.book.sends (s₂.tick o₃) := h₂.tick o₃
        have hsends : (s₂.tick o₃).book.sends = s.book.sends := hh₂.sends
        have hsame : ∀ i, sentAt s.db id i = true → sentAt s₂.db id i = true :=
          fun i => hh₂.sent id i
        dsimp only
        split
        · rename_i hempty
          refine safe_mono (safe_finish source_id seen
            (hushed_bind (hushed_sync source_id) (fun _ => hushed_done DeliveryAttempt.failed))
            h₃) ?_
          rintro r s₄ ⟨hset, -, hdone⟩
          refine ⟨[], called_nothing _ _, hset.held.nothing, fun hsm _ hw => hdone hsm rfl ?_⟩
          exact hempty ▸ (hw₂ hw).lacking.2
        · rename_i hsome
          split
          · rename_i hnone
            refine safe_mono (safe_settled (j := id)
              (hushed_bind (hushed_call rfl) (fun _ => hushed_bind (hushed_fail source_id _)
                (fun _ => hushed_bind (hushed_sync source_id)
                  (fun _ => hushed_done DeliveryAttempt.failed)))) h₃) ?_
            rintro r s₄ ⟨hset, -⟩
            refine hnothing hset.held (fun _ _ hw => hsome ?_)
            rw [← (hw₂ hw).lacking.1]
            exact hnone
          · have hwanted : ∀ i ∈ list_pending_sink_indices s₂.db id, sentAt s.db id i = false :=
              fun i hi => unsent_before hsame (pending_unsent hi).2
            refine safe_mono (safe_send_live source_id seen (pending_nodup _ _) hwanted
              (hsends ▸ h₃)) ?_
            rintro r s₄ ⟨calls, hcalled, hheld, hdone⟩
            refine ⟨calls, hcalled, hsends ▸ hheld, fun hsm _ hw => ?_⟩
            obtain ⟨hall, hl⟩ := (hw₂ hw).lacking
            exact hdone hsm hall hl
      · intro hno o₃ e
        exact hnothing (h₂.tick o₃) (fun hsm _ _ => hno hsm)
    · intro e s₂ hh₂ hno
      exact hnothing (h₁.hush hh₂) (fun hsm _ hw => hno hsm (isSome_of_completes hw.completes))

theorem matching_enriched (n : Notifier) (event : Event) (rendered : Option String) :
    matching_indices n ((rendered.map (fun text => { event with body := event.body ++ text })).getD
      event) = matching_indices n event := by
  cases rendered <;> rfl

/-- The delivery of a row by itself, with what comes before and after it. -/
theorem safe_attempt (attempts_before : Nat) (context : DeliveryContext)
    (h : Held id U (fun _ => False) s.book.sends s) :
    (unattended smooth).Safe machine w (fun _ s' => ∃ calls, Called s.db [id] calls ∧
        Held id U (Reached calls) (s.book.sends ++ calls) s' ∧
        (smooth → matching_indices s.notifiers context.event ≠ [] →
          Wanting id (matching_indices s.notifiers context.event) s.db →
          closed s'.db id = true))
      (attempt_notification_delivery id attempts_before context) s := by
  refine safe_bind (safe_bind (safe_solo ?_))
  intro o _
  refine safe_bind (safe_caught (safe_mono (safe_deliver (s := s.tick o) _ _ _ (h.tick o)) ?_))
  rintro outcome s₁ ⟨calls, hcalled, hheld, hdone⟩
  rw [show (s.tick o).notifiers = s.notifiers from rfl, matching_enriched] at hdone
  by_cases hdelivered : outcome = .ok .done
  · subst hdelivered
    refine safe_mono (safe_settled (j := id + 1)
      (hushed_bind (hushed_done ()) (fun _ => hushed_bind (hushed_call trivial)
        (fun _ => hushed_done true))) hheld) ?_
    rintro _ s₂ ⟨hset, -⟩
    refine ⟨calls, hcalled, hset.held, fun hsm hm hw => ?_⟩
    rw [(hset.others (by omega)).closed]
    exact (hdone hsm hm hw).2
  · have hend {s' : World}
        (hs : Held id U (Reached calls) (s.book.sends ++ calls) s') :
        ∃ calls, Called s.db [id] calls ∧
          Held id U (Reached calls) (s.book.sends ++ calls) s' ∧
          (smooth → matching_indices s.notifiers context.event ≠ [] →
            Wanting id (matching_indices s.notifiers context.event) s.db →
            closed s'.db id = true) :=
      ⟨calls, hcalled, hs, fun hsm hm hw => absurd (hdone hsm hm hw).1 hdelivered⟩
    refine safe_bind (safe_mono (safe_settled (j := id) (hushed_backoff_after _ outcome) hheld) ?_)
    rintro r s₂ ⟨hset₂, -⟩
    cases r with
    | error e => exact hend hset₂.held
    | ok _ =>
      refine safe_bind (safe_mono (safe_settled (j := id) (hushed_call trivial) hset₂.held) ?_)
      rintro r s₃ ⟨hset₃, -⟩
      cases r with
      | error e => exact hend hset₃.held
      | ok _ =>
        cases outcome with
        | error e => exact hend hset₃.held
        | ok attempt => exact hend hset₃.held

/-! ## A digest -/

/-- Up to the sends of the digest nothing is delivered, and what is sent stays so. -/
structure Begun (id : Nat) (U : Nat → Prop) (s s' : World) : Prop where
  held : Held id U (fun _ => False) s.book.sends s'
  sent : ∀ k i, sentAt s.db k i = true → sentAt s'.db k i = true

theorem Begun.hush {s' s'' : World} (h : Begun id U s s') (hh : Hush j s' s'') :
    Begun id U s s'' :=
  ⟨h.held.hush hh, fun k i hs => hh.sent k i (h.sent k i hs)⟩

theorem safe_fail_group (event : Event) (group : List OutboxRecord) (h : Held id U A L s) :
    (unattended smooth).Safe machine w (fun _ s' => Held id U A L s')
      (fail_group event group) s := by
  induction group generalizing s with
  | nil => exact h
  | cons row rest ih =>
    refine safe_bind (safe_mono (safe_settled (j := row.id) (hushed_fail row.source_id _) h) ?_)
    rintro r s₁ ⟨hset, -⟩
    cases r with
    | error e => exact hset.held
    | ok _ => exact ih hset.held

theorem safe_ensure_group {s₀ : World} {sinks : List (Nat × String)}
    (hin : ∀ x ∈ sinks, x.1 ∈ matching) (group : List OutboxRecord) (h : Begun id U s₀ s) :
    (unattended smooth).Safe machine w (fun r s' => Begun id U s₀ s' ∧
        (r = .ok () → Wanting id matching s.db → Wanting id matching s'.db) ∧
        (smooth → (∀ row ∈ group, (s.db.parent row.id).isSome) → ∃ u, r = .ok u))
      (ensure_group sinks group) s := by
  induction group generalizing s with
  | nil => exact ⟨h, fun _ hw => hw, fun _ _ => ⟨(), rfl⟩⟩
  | cons row rest ih =>
    refine safe_ensure (j := row.id) id hin ?_ ?_
    · intro s₁ hh₁ hp₁ hw₁
      refine safe_mono (ih (h.hush hh₁)) ?_
      rintro r s₂ ⟨h₂, hw₂, hok₂⟩
      refine ⟨h₂, fun hr hw => hw₂ hr (hw₁ hw), fun hsm hall => hok₂ hsm ?_⟩
      intro row' hrow'
      rw [hp₁]
      exact hall row' (List.mem_cons_of_mem _ hrow')
    · intro e s₁ hh₁ hno
      exact ⟨h.hush hh₁, fun hr => absurd hr (by simp),
        fun hsm hall => False.elim (hno hsm (hall row List.mem_cons_self))⟩

theorem safe_orphans (event : Event) (orphans : List Nat) :
    (unattended smooth).Safe machine w (fun r s' => Hush j s s' ∧ (smooth → ∃ u, r = .ok u) ∧
      (orphans = [] → s' = s)) (abandon_orphans j event orphans) s := by
  by_cases h : orphans = []
  · subst h
    exact ⟨Hush.refl j s, fun _ => ⟨(), rfl⟩, fun _ => rfl⟩
  · exact safe_mono (safe_hushed (hushed_abandon_orphans event orphans))
      (fun _ _ hq => ⟨hq.1, hq.2, fun he => absurd he h⟩)

/-- The sinks that the rows of a group wait for, each by its own ledger. -/
structure Listed (smooth : Prop) (id : Nat) (U : Nat → Prop) (matching : List Nat) (s₀ : World)
    (group : List OutboxRecord) (s : World) (r : Except PipelineError (List (List Nat)))
    (s' : World) : Prop where
  begun : Begun id U s₀ s'
  sure : smooth → ∃ lists, r = .ok lists
  each : ∀ lists, r = .ok lists →
    List.Forall₂ (fun row l => ∀ i ∈ l, i ∈ matching ∧ sentAt s₀.db row.id i = false) group lists
  lacks : smooth → Wanting id matching s.db → Still id s.db s'.db ∧ ∀ lists, r = .ok lists →
    List.Forall₂ (fun row l => row.id = id → Lacking id l s.db) group lists

theorem listed_error {s₀ s' : World} {e : PipelineError} (hb : Begun id U s₀ s') (hno : ¬ smooth) :
    Listed smooth id U matching s₀ group s (.error e) s' :=
  ⟨hb, fun hsm => absurd hsm hno, fun _ hr => absurd hr (by simp), fun hsm => absurd hsm hno⟩

theorem safe_pending_of_group {s₀ : World} (event : Event) (group : List OutboxRecord)
    (h : Begun id U s₀ s) :
    (unattended smooth).Safe machine w (Listed smooth id U matching s₀ group s)
      (pending_of_group event matching group) s := by
  induction group generalizing s with
  | nil =>
    refine ⟨h, fun _ => ⟨[], rfl⟩, ?_, fun _ _ => ⟨⟨rfl, fun _ => rfl⟩, ?_⟩⟩
    · rintro lists hr
      rw [← Except.ok.inj hr]
      exact List.Forall₂.nil
    · rintro lists hr
      rw [← Except.ok.inj hr]
      exact List.Forall₂.nil
  | cons row rest ih =>
    refine safe_asked (v := list_pending_sink_indices s.db row.id) (fun o => rfl) ?_ ?_
    · intro o
      have h₁ : Begun id U s₀ (s.tick o) := ⟨h.held.tick o, h.sent⟩
      refine safe_bind (safe_mono (safe_orphans (j := row.id) event _) ?_)
      rintro r s₂ ⟨hh₂, hok₂, hsame₂⟩
      cases r with
      | error e => exact listed_error (h₁.hush hh₂) (not_smooth hok₂)
      | ok _ =>
      have hstill₂ : Wanting id matching s.db → Still id s.db s₂.db := by
        intro hw
        by_cases hj : id = row.id
        · have hnone : (list_pending_sink_indices s.db row.id).filter
              (fun i => !matching.contains i) = [] := by
            rw [List.filter_eq_nil_iff]
            intro i hi
            rw [← hj] at hi
            simpa using (mem_pending_of_undelivered hw (pending_unsent hi)).1
          rw [hsame₂ hnone]
          exact ⟨rfl, fun _ => rfl⟩
        · exact hh₂.others id hj
      refine safe_bind (safe_mono (ih (h₁.hush hh₂)) ?_)
      rintro r s₃ h₃
      cases r with
      | error e => exact listed_error h₃.begun (not_smooth h₃.sure)
      | ok others =>
        refine ⟨h₃.begun, fun _ => ⟨_, rfl⟩, ?_, fun hsm hw => ?_⟩
        · rintro lists hr
          rw [← Except.ok.inj hr]
          refine List.Forall₂.cons ?_ (h₃.each others rfl)
          intro i hi
          obtain ⟨hi, hm⟩ := List.mem_filter.mp hi
          exact ⟨by simpa using hm, unsent_before (h.sent row.id) (pending_unsent hi).2⟩
        · obtain ⟨hs₃, hl₃⟩ := h₃.lacks hsm (hw.still (hstill₂ hw))
          refine ⟨(hstill₂ hw).trans hs₃, ?_⟩
          rintro lists hr
          rw [← Except.ok.inj hr]
          refine List.Forall₂.cons ?_ ?_
          · rintro rfl
            obtain ⟨hall, hl⟩ := hw.lacking
            rw [hall]
            exact hl
          · refine (hl₃ others rfl).imp ?_
            exact fun row' l hl hid => (hl hid).still (hstill₂ hw).symm
    · intro hno o e
      exact listed_error ⟨h.held.tick o, h.sent⟩ hno

/-- A loop that settles one row after the other: it delivers row `id` when its turn does. -/
theorem safe_each {β : Type} (key : β → Nat) (step : β → Work DeliveryAttempt)
    (loop : List β → Work (List DeliveryAttempt)) (ready : β → Db → Prop) (hnil : loop [] = done [])
    (hcons : ∀ x xs, loop (x :: xs) =
      (step x).bind (fun outcome => (loop xs).bind (fun outcomes => done (outcome :: outcomes))))
    (hready : ∀ x {db db' : Db}, Still id db db' → ready x db → ready x db')
    (hstep : ∀ x {s : World}, Held id U A L s → (unattended smooth).Safe machine w (fun r s' =>
      Settled id (key x) U A L s s' ∧ (smooth → ∃ a, r = .ok a) ∧
        (smooth → key x = id → ready x s.db → closed s'.db id = true)) (step x) s) (l : List β)
    (hnodup : (l.map key).Nodup) (h : Held id U A L s) :
    (unattended smooth).Safe machine w (fun r s' => Held id U A L s' ∧
      (smooth → ∃ a, r = .ok a) ∧ ((∀ x ∈ l, key x ≠ id) → Still id s.db s'.db) ∧
      (smooth → ∀ x ∈ l, key x = id → ready x s.db → closed s'.db id = true)) (loop l) s := by
  induction l generalizing s with
  | nil =>
    rw [hnil]
    exact ⟨h, fun _ => ⟨[], rfl⟩, fun _ => ⟨rfl, fun _ => rfl⟩, fun _ x hx => absurd hx (by simp)⟩
  | cons x xs ih =>
    rw [hcons]
    obtain ⟨hx, hxs⟩ := List.nodup_cons.mp hnodup
    refine safe_bind (safe_mono (hstep x h) ?_)
    rintro r s₁ ⟨hset₁, hok₁, hdone₁⟩
    cases r with
    | error e =>
      have hno := not_smooth hok₁
      exact ⟨hset₁.held, fun hsm => absurd hsm hno,
        fun hne => hset₁.others (Ne.symm (hne x List.mem_cons_self)), fun hsm => absurd hsm hno⟩
    | ok outcome =>
    refine safe_bind (safe_mono (ih hxs hset₁.held) ?_)
    rintro r s₂ ⟨hheld₂, hok₂, hstill₂, hdone₂⟩
    have hstill : (∀ y ∈ x :: xs, key y ≠ id) → Still id s.db s₂.db := fun hne =>
      (hset₁.others (Ne.symm (hne x List.mem_cons_self))).trans
        (hstill₂ (fun y hy => hne y (List.mem_cons_of_mem _ hy)))
    have hdone : smooth → ∀ y ∈ x :: xs, key y = id → ready y s.db → closed s₂.db id = true := by
      intro hsm y hy hkey hr
      rcases List.mem_cons.mp hy with rfl | hy
      · -- no row comes up again
        have hlater : ∀ z ∈ xs, key z ≠ id := by
          intro z hz hkz
          exact hx (List.mem_map.mpr ⟨z, hz, hkz.trans hkey.symm⟩)
        rw [(hstill₂ hlater).closed]
        exact hdone₁ hsm hkey hr
      · have hne : id ≠ key x := by
          intro he
          exact hx (List.mem_map.mpr ⟨y, hy, hkey.trans he⟩)
        exact hdone₂ hsm y hy hkey (hready y (hset₁.others hne) hr)
    cases r with
    | error e => exact ⟨hheld₂, fun hsm => absurd hsm (not_smooth hok₂), hstill, hdone⟩
    | ok outcomes => exact ⟨hheld₂, fun _ => ⟨_, rfl⟩, hstill, hdone⟩

theorem Lacking.mono {pending pending' : List Nat} (h : Lacking id pending db)
    (hs : pending ⊆ pending') : Lacking id pending' db :=
  ⟨h.completes, fun i hi => hs (h.only i hi)⟩

theorem safe_settle_digest_row (results : List (Nat × Except NotifyError Unit))
    (hA : ∀ i, (i, .ok ()) ∈ results → A i) (x : OutboxRecord × List Nat) (h : Held id U A L s) :
    (unattended smooth).Safe machine w (fun r s' => Settled id x.1.id U A L s s' ∧
        (smooth → ∃ a, r = .ok a) ∧ (smooth → x.1.id = id →
          (∀ y ∈ results, y.2 = .ok ()) ∧ x.2 ⊆ results.map Prod.fst ∧ Lacking id x.2 s.db →
          closed s'.db id = true))
      (settle_digest_row x.1 x.2 results) s := by
  obtain ⟨row, pending⟩ := x
  refine safe_bind (safe_mono (safe_record_results (j := row.id)
    (results.filter (fun y => pending.contains y.1)) ⟨false, false⟩
    (fun _ i hi => hA i (List.mem_of_mem_filter hi)) h) ?_)
  rintro r s₁ ⟨hset₁, hgood₁, hok₁⟩
  cases r with
  | error e =>
    have hno := not_smooth hok₁
    exact ⟨hset₁, fun hsm => absurd hsm hno, fun hsm => absurd hsm hno⟩
  | ok t =>
  refine safe_bind (safe_mono (safe_sync (j := row.id) row.source_id hset₁.held) ?_)
  rintro r s₂ ⟨⟨hset₂, hok₂⟩, hlack₂⟩
  cases r with
  | error e =>
    have hno := not_smooth hok₂
    exact ⟨hset₁.trans hset₂, fun hsm => absurd hsm hno, fun hsm => absurd hsm hno⟩
  | ok _ =>
  refine safe_mono (safe_finish row.source_id (seen_upsert_for row)
    (hushed_if (hushed_done DeliveryAttempt.deferred) (hushed_done DeliveryAttempt.failed))
    hset₂.held) ?_
  rintro r s₃ ⟨hset₃, hok₃, hdone₃⟩
  refine ⟨(hset₁.trans hset₂).trans hset₃, hok₃, ?_⟩
  rintro hsm hid ⟨hall, hcover, hl⟩
  obtain ⟨-, hl₁⟩ := hgood₁ hsm (fun y hy => hall y (List.mem_of_mem_filter hy))
  refine (hdone₃ hsm hid (hlack₂ hsm hid (hl₁ hid [] ?_))).2
  rw [List.append_nil]
  refine hl.mono ?_
  intro i hi
  obtain ⟨y, hy, rfl⟩ := List.mem_map.mp (hcover hi)
  exact List.mem_map_of_mem (List.mem_filter.mpr ⟨hy, by simpa using hi⟩)

theorem safe_settle_row (row : OutboxRecord) (h : Held id U A L s) :
    (unattended smooth).Safe machine w (fun r s' => Settled id row.id U A L s s' ∧
        (smooth → ∃ a, r = .ok a) ∧
        (smooth → row.id = id → Lacking id [] s.db → closed s'.db id = true))
      (settle_row row) s := by
  refine safe_mono (safe_finish row.source_id (seen_upsert_for row)
    (hushed_bind (hushed_sync row.source_id) (fun _ => hushed_done DeliveryAttempt.failed)) h) ?_
  rintro r s' ⟨hset, hok, hdone⟩
  exact ⟨hset, hok, fun hsm hid hl => (hdone hsm hid hl).2⟩

/-- The calls that put off the next attempt. -/
def puts_off {β : Type} (op : Call β) : Prop :=
  match op with
  | .outbox_retry_backoff_max_secs | .apply_delivery_backoff _ _ | .defer_delivery _ _ => True
  | _ => False

theorem closed_put_off {β : Type} {op : Call β} (o : Oracle) (hop : puts_off op) (id : Nat) :
    closed (exec w op o s).2.db id = closed s.db id := by
  have hsame (p : Nat → OutboxRow → Bool) (f : OutboxRow → OutboxRow)
      (hf : ∀ r, (f r).status = r.status) :
      closed (s.db.updateOutbox p f) id = closed s.db id := by
    unfold closed
    rw [Db.parent_updateOutbox, Option.any_map]
    congr 1
    funext r
    split
    · rw [hf]
    · rfl
  cases op <;> first | exact False.elim hop | skip
  case outbox_retry_backoff_max_secs => rfl
  case apply_delivery_backoff k n =>
    cases hfail : o.fails <;> simp only [exec, stored, hfail]
    · exact hsame (fun j _ => j = k) _ (fun _ => rfl)
    · rfl
  case defer_delivery k n =>
    cases hfail : o.fails <;> simp only [exec, stored, hfail]
    · exact hsame (fun j _ => j = k) _ (fun _ => rfl)
    · rfl

theorem hushed_of_puts_off {β : Type} {op : Call β} (h : puts_off op) : ∃ j, hushed j op := by
  cases op <;> first | exact False.elim h | skip
  case outbox_retry_backoff_max_secs => exact ⟨0, trivial⟩
  case apply_delivery_backoff k n => exact ⟨k, rfl⟩
  case defer_delivery k n => exact ⟨k, rfl⟩

theorem safe_backoff_group (l : List (OutboxRecord × DeliveryAttempt)) (h : Held id U A L s) :
    (unattended smooth).Safe machine w
      (fun _ s' => Held id U A L s' ∧ closed s'.db id = closed s.db id) (backoff_group l) s := by
  have hwithin : ∀ f, (backoff_group l).Within puts_off (fun _ _ => True) f := by
    induction l with
    | nil => exact fun _ => trivial
    | cons head rest ih =>
      obtain ⟨row, attempt⟩ := head
      intro f
      refine within_bind
        (within_backoff_after trivial (fun _ => trivial) (fun _ => trivial) _ _ f) ?_
      intro f _ _
      exact within_bind (ih f) (fun _ _ _ => trivial)
  have hstep : ∀ {β : Type} (op : Call β) (o : Oracle) (s₁ : World), puts_off op →
      (smooth → Smooth o) → (Held id U A L s₁ ∧ closed s₁.db id = closed s.db id) →
      (Held id U A L (exec w op o s₁).2 ∧ closed (exec w op o s₁).2.db id = closed s.db id) ∧
        (smooth → ∃ b, (exec w op o s₁).1 = .ok b) := by
    rintro β op o s₁ hop hm ⟨hheld, hc⟩
    obtain ⟨j, hj⟩ := hushed_of_puts_off hop
    obtain ⟨hh, hok⟩ := hush_exec (w := w) o s₁ hj
    exact ⟨⟨hheld.hush hh, (closed_put_off o hop id).trans hc⟩, fun hsm => hok (hm hsm).fails⟩
  refine safe_mono (safe_within hstep (hwithin false) (fun _ => rfl) ⟨h, rfl⟩) ?_
  exact fun _ _ hq => hq.1

theorem mem_zip_of_forall {P : OutboxRecord → List Nat → Prop} {lists : List (List Nat)}
    (h : List.Forall₂ P group lists) {row : OutboxRecord} (hrow : row ∈ group) :
    ∃ l, (row, l) ∈ group.zip lists ∧ P row l := by
  induction h with
  | nil => exact absurd hrow List.not_mem_nil
  | @cons head l _ _ hP _ ih =>
    rcases List.mem_cons.mp hrow with rfl | hrow
    · exact ⟨l, List.mem_cons_self, hP⟩
    · obtain ⟨l', hl', hP'⟩ := ih hrow
      exact ⟨l', List.mem_cons_of_mem _ hl', hP'⟩

theorem zip_fst_of_forall {P : OutboxRecord → List Nat → Prop} {lists : List (List Nat)}
    (h : List.Forall₂ P group lists) :
    (group.zip lists).map (·.1.id) = group.map (·.id) := by
  induction h with
  | nil => rfl
  | cons _ _ ih => simp [ih]

/-- What a delivery of the rows `ids` from `s` leaves of row `id`. -/
structure Dealt (smooth : Prop) (id : Nat) (U : Nat → Prop) (ids : List Nat) (s s' : World)
    (can : Prop) : Prop where
  calls : ∃ calls, Called s.db ids calls ∧ Held id U (Reached calls) (s.book.sends ++ calls) s'
  closed : smooth → can → closed s'.db id = true

/-- Everything is there for row `id` to be delivered with the group. -/
structure CanDeliver (id : Nat) (event : Event) (group : List OutboxRecord) (s : World) : Prop where
  some_sink : matching_indices s.notifiers event ≠ []
  wanting : Wanting id (matching_indices s.notifiers event) s.db
  parents : ∀ row ∈ group, (s.db.parent row.id).isSome

theorem safe_deliver_digest (event : Event) (hid : ∃ row ∈ group, row.id = id)
    (hnodup : (group.map (·.id)).Nodup) (h : Held id U (fun _ => False) s.book.sends s) :
    (unattended smooth).Safe machine w (fun r s' =>
        Dealt smooth id U (group.map (·.id)) s s' (CanDeliver id event group s) ∧
        (smooth → CanDeliver id event group s → ∃ outcomes, r = .ok outcomes))
      (deliver_digest_to_pending_sinks event group) s := by
  have hnothing {r : Except PipelineError (List DeliveryAttempt)} {s' : World}
      (hs : Held id U (fun _ => False) s.book.sends s')
      (hno : smooth → CanDeliver id event group s → False) :
      Dealt smooth id U (group.map (·.id)) s s' (CanDeliver id event group s) ∧
        (smooth → CanDeliver id event group s → ∃ outcomes, r = .ok outcomes) :=
    ⟨⟨⟨[], called_nothing _ _, hs.nothing⟩, fun hsm hc => False.elim (hno hsm hc)⟩,
      fun hsm hc => False.elim (hno hsm hc)⟩
  refine safe_bind (safe_solo ?_)
  intro o hm
  change (unattended smooth).Safe machine w _ (if matching_indices s.notifiers event = [] then _
    else _) ((s.tick o).looked w)
  have h₁ : Begun id U s ((s.tick o).looked w) :=
    ⟨h.still rfl ⟨rfl, fun _ => rfl⟩, fun _ _ hs => hs⟩
  split
  · rename_i hnone
    refine safe_bind (safe_mono (safe_fail_group event group h₁.held) ?_)
    intro r s₂ hs₂
    cases r with
    | error e => exact hnothing hs₂ (fun _ hc => hc.some_sink hnone)
    | ok _ => exact hnothing hs₂ (fun _ hc => hc.some_sink hnone)
  have hsinks : ∀ x ∈ (matching_indices s.notifiers event).map
      (fun i => (i, kind_at s.notifiers i)), x.1 ∈ matching_indices s.notifiers event := by
    intro x hx
    obtain ⟨i, hi, rfl⟩ := List.mem_map.mp hx
    exact hi
  refine safe_bind (safe_mono (safe_ensure_group hsinks group h₁) ?_)
  rintro r s₂ ⟨h₂, hw₂, hok₂⟩
  cases r with
  | error e =>
    refine hnothing h₂.held (fun hsm hc => ?_)
    obtain ⟨_, he⟩ := hok₂ hsm hc.parents
    exact absurd he (by simp)
  | ok _ =>
  refine safe_bind (safe_mono (safe_pending_of_group event group h₂) ?_)
  intro r s₃ h₃
  cases r with
  | error e => exact hnothing h₃.begun.held (fun hsm _ => absurd hsm (not_smooth h₃.sure))
  | ok lists =>
  have heach := h₃.each lists rfl
  have hlack : smooth → CanDeliver id event group s →
      Wanting id (matching_indices s.notifiers event) s₃.db ∧
        List.Forall₂ (fun row l => row.id = id → Lacking id l s₃.db) group lists := by
    intro hsm hc
    have hw := hw₂ rfl hc.wanting
    obtain ⟨hstill, hl⟩ := h₃.lacks hsm hw
    exact ⟨hw.still hstill, (hl lists rfl).imp (fun row l hl hid => (hl hid).still hstill)⟩
  obtain ⟨row, hrow, hrid⟩ := hid
  dsimp only
  split
  · rename_i hempty
    refine safe_mono (safe_each (fun row => row.id) settle_row settle_group
      (fun _ db => Lacking id [] db) rfl (fun _ _ => rfl)
      (fun _ _ _ hs hl => hl.still hs) (fun x _ hx => safe_settle_row x hx) group hnodup
      h₃.begun.held) ?_
    rintro r s₄ ⟨hheld₄, hok₄, -, hdone₄⟩
    refine ⟨⟨⟨[], called_nothing _ _, hheld₄.nothing⟩, fun hsm hc => ?_⟩, fun hsm _ => hok₄ hsm⟩
    obtain ⟨-, hl⟩ := hlack hsm hc
    obtain ⟨l, hmem, hl⟩ := mem_zip_of_forall hl hrow
    have hnil : l = [] := by
      refine List.eq_nil_iff_forall_not_mem.mpr (fun i hi => ?_)
      have hu := (mem_union_of lists i).mpr ⟨l, (List.of_mem_zip hmem).2, hi⟩
      rw [hempty] at hu
      exact absurd hu List.not_mem_nil
    exact hdone₄ hsm row hrow hrid (hnil ▸ hl hrid)
  · have hwanted : ∀ i ∈ union_of lists, i ∈ matching_indices s.notifiers event ∧
        ∃ k ∈ group.map (·.id), sentAt s.db k i = false := by
      intro i hi
      obtain ⟨l, hl, hi⟩ := (mem_union_of lists i).mp hi
      obtain ⟨row', hrow', hP⟩ := exists_of_forall heach hl
      exact ⟨(hP i hi).1, row'.id, List.mem_map_of_mem hrow', (hP i hi).2⟩
    refine safe_bind (safe_mono (safe_round (group.map (·.id)) (union_of lists)
      (fun i hi => (hwanted i hi).1)) ?_)
    rintro r s₄ ⟨calls, hround, results, rfl, hfst, hback, hgood⟩
    have hcalled : Called s.db (group.map (·.id)) calls :=
      called_of_round (union_of_nodup lists) (fun i hi => (hwanted i hi).2) hround
    have hsends : s₃.book.sends = s.book.sends := h₃.begun.held.sends
    have hheld₄ : Held id U (Reached calls) (s.book.sends ++ calls) s₄ :=
      hsends ▸ (show Held id U (fun _ => False) s₃.book.sends s₃ from
        hsends.symm ▸ h₃.begun.held).round hround
    refine safe_bind (safe_mono (safe_settled (j := id + 1) hushed_breaker_alerts hheld₄) ?_)
    rintro r s₅ ⟨hset₅, hok₅⟩
    cases r with
    | error e =>
      have hno := not_smooth hok₅
      exact ⟨⟨⟨calls, hcalled, hset₅.held⟩, fun hsm => absurd hsm hno⟩, fun hsm => absurd hsm hno⟩
    | ok _ =>
    refine safe_mono (safe_each (fun x => x.1.id)
      (fun x => settle_digest_row x.1 x.2 results) (settle_digest results)
      (fun x db => (∀ y ∈ results, y.2 = .ok ()) ∧ x.2 ⊆ results.map Prod.fst ∧
        Lacking id x.2 db) rfl (fun _ _ => rfl)
      (fun _ _ _ hs hr => ⟨hr.1, hr.2.1, hr.2.2.still hs⟩)
      (fun x _ hx => safe_settle_digest_row results hback x hx) (group.zip lists)
      ((zip_fst_of_forall heach).symm ▸ hnodup) hset₅.held) ?_
    rintro r s₆ ⟨hheld₆, hok₆, -, hdone₆⟩
    refine ⟨⟨⟨calls, hcalled, hheld₆⟩, fun hsm hc => ?_⟩, fun hsm _ => hok₆ hsm⟩
    obtain ⟨-, hl⟩ := hlack hsm hc
    obtain ⟨l, hmem, hl⟩ := mem_zip_of_forall hl hrow
    refine hdone₆ hsm (row, l) hmem hrid ⟨hgood hsm, ?_, ?_⟩
    · intro i hi
      rw [hfst]
      exact (mem_union_of lists i).mpr ⟨l, (List.of_mem_zip hmem).2, hi⟩
    · exact (hl hrid).still (hround.db ▸ hset₅.others (by omega))

theorem safe_through {β : Type} {s₁ : World} {ids : List Nat} {can : Prop} (l : List Nat)
    (outcome : Except PipelineError β) (h : Dealt smooth id U ids s s₁ can) :
    (unattended smooth).Safe machine w (fun _ s' => Dealt smooth id U ids s s' can)
      (perform (.through l) >>= fun _ => resume outcome) s₁ := by
  refine safe_bind (safe_solo ?_)
  intro o _
  obtain ⟨⟨calls, hcalled, hheld⟩, hclosed⟩ := h
  have hd : Dealt smooth id U ids s (((s₁.tick o).through w l).let_go w) can :=
    ⟨⟨calls, hcalled, hheld.still rfl ⟨rfl, fun _ => rfl⟩⟩, hclosed⟩
  cases outcome with
  | error e => exact hd
  | ok b => exact hd

theorem safe_digest (hid : ∃ row ∈ group, row.id = id) (hnodup : (group.map (·.id)).Nodup)
    (h : Held id U (fun _ => False) s.book.sends s) :
    (unattended smooth).Safe machine w (fun _ s' =>
        Dealt smooth id U (group.map (·.id)) s s'
          (CanDeliver id (build_digest_event group) group s))
      (deliver_claimed_outbox_digest group) s := by
  refine safe_bind (safe_caught (safe_bind
    (safe_mono (safe_deliver_digest (build_digest_event group) hid hnodup h) ?_)))
  rintro r s₁ ⟨hd₁, hok₁⟩
  cases r with
  | error e => exact safe_through (ids_of group) (.error e) hd₁
  | ok outcomes =>
    obtain ⟨⟨calls, hcalled, hheld⟩, hclosed⟩ := hd₁
    refine safe_mono (safe_backoff_group (group.zip outcomes) hheld) ?_
    rintro r s₂ ⟨hheld₂, hc₂⟩
    exact safe_through (ids_of group) r
      ⟨⟨calls, hcalled, hheld₂⟩, fun hsm hc => hc₂ ▸ hclosed hsm hc⟩

theorem safe_row (row : OutboxRecord) (h : Held row.id U (fun _ => False) s.book.sends s) :
    (unattended smooth).Safe machine w (fun _ s' => ∃ calls, Called s.db [row.id] calls ∧
        Held row.id U (Reached calls) (s.book.sends ++ calls) s' ∧
        (smooth → matching_indices s.notifiers row.to_event ≠ [] →
          Wanting row.id (matching_indices s.notifiers row.to_event) s.db →
          closed s'.db row.id = true))
      (deliver_claimed_outbox_row row) s :=
  safe_attempt row.attempts
    { event := row.to_event
      source_id := row.source_id
      kind := row.source_kind
      package_name := package_name_hint_for_advisory row.source_id row.title
      seen := seen_upsert_for row } h

/-- What tells how the row is spoken of. -/
def event_of : DeliveryUnit → Event
  | .single row => row.to_event
  | .digest rows => build_digest_event rows

theorem safe_unit {unit : DeliveryUnit} (hid : ∃ row ∈ unit.rows, row.id = id)
    (hnodup : (unit.rows.map (·.id)).Nodup) (h : Held id U (fun _ => False) s.book.sends s) :
    (unattended smooth).Safe machine w (fun _ s' =>
        Dealt smooth id U (unit.rows.map (·.id)) s s' (CanDeliver id (event_of unit) unit.rows s))
      (deliver_unit unit) s := by
  cases unit with
  | digest rows => exact safe_digest hid hnodup h
  | single row =>
    obtain ⟨row', hrow, rfl⟩ := hid
    obtain rfl : row' = row := List.mem_singleton.mp hrow
    refine safe_bind (safe_mono (safe_row row' h) ?_)
    rintro r s' ⟨calls, hcalled, hheld, hdone⟩
    have hd : Dealt smooth row'.id U [row'.id] s s' (CanDeliver row'.id row'.to_event [row'] s) :=
      ⟨⟨calls, hcalled, hheld⟩, fun hsm hc => hdone hsm hc.some_sink hc.wanting⟩
    cases r with
    | error e => exact hd
    | ok delivered => exact hd

end Settling

/-! ## A revived row -/

/-- The row stands as the requeue left it; it may have been claimed since. -/
structure AsRevived (db : Db) (id : Nat) (db' : Db) : Prop where
  pending : (db'.parent id).map (·.status) = some .pending
  sinks : ∀ i, db'.sink id i = (requeue_dead_outbox db).2.sink id i

section Revived

variable {db db' : Db} {id : Nat}

theorem as_revived (hdead : dead_at db id = true) : AsRevived db id (requeue_dead_outbox db).2 := by
  obtain ⟨r, hr, hst⟩ := (Option.any_eq_true _ _).mp hdead
  rw [decide_eq_true_eq] at hst
  refine ⟨?_, fun _ => rfl⟩
  rw [parent_requeue, hr]
  simp [hst, OutboxRow.requeued]

theorem AsRevived.claimed (h : AsRevived db id db') (now : model.DateTime)
    (order back locked : List Nat) (limit lease_secs : Nat) :
    AsRevived db id (claim_outbox_batch db' now order back locked limit lease_secs).2 := by
  refine ⟨?_, h.sinks⟩
  rw [← h.pending]
  unfold claim_outbox_batch
  dsimp only
  rw [Db.parent_updateOutbox, Option.map_map]
  congr 1
  funext r
  dsimp only [Function.comp]
  split <;> rfl

theorem AsRevived.undelivered (h : AsRevived db id db') (hdead : dead_at db id = true) {i : Nat}
    (hu : Undelivered db id i) : Undelivered db' id i := by
  obtain ⟨k, hk⟩ := Option.isSome_iff_exists.mp hu.1
  have hst : k.status ≠ .sent := by simpa [sentAt, hk] using hu.2
  have hsink : db'.sink id i = some k.reset := by
    rw [h.sinks, sink_requeue, hk]
    simp [hdead, hst]
  exact ⟨by simp [hasAt, hsink], by simp [sentAt, hsink, SinkRow.reset]⟩

theorem AsRevived.sent (h : AsRevived db id db') {i : Nat} (hs : sentAt db id i = true) :
    sentAt db' id i = true := by
  unfold sentAt
  rw [h.sinks, (requeue_revives_the_dead db).sent id i hs]
  exact hs

theorem AsRevived.held (h : AsRevived db id db') (hdead : dead_at db id = true) {s : World}
    (hs : s.db = db') : Held id (Undelivered db id) (fun _ => False) s.book.sends s where
  sends := rfl
  lack := fun i hi => Or.inl (hs ▸ h.undelivered hdead hi)
  closed := by
    intro hc
    obtain ⟨r, hr, hst⟩ := (Option.any_eq_true _ _).mp (hs ▸ hc : closed db' id = true)
    have hp := h.pending
    rw [hr] at hp
    rw [decide_eq_true_eq] at hst
    simp [hst] at hp

theorem AsRevived.wanting (h : AsRevived db id db') (hdead : dead_at db id = true)
    {matching : List Nat} (hm : ∀ i, Undelivered db id i → i ∈ matching) :
    Wanting id matching db' where
  completes := by
    obtain ⟨r, hr, hst⟩ := Option.map_eq_some_iff.mp h.pending
    unfold completes
    rw [hr, Option.any_some, hst]
    rfl
  waits := by
    intro i k hk hst
    rw [h.sinks, sink_requeue, hdead] at hk
    obtain ⟨k₀, hk₀, rfl⟩ := Option.map_eq_some_iff.mp hk
    by_cases hsent : k₀.status = .sent
    · simp [hsent] at hst
    · refine ⟨hm i ⟨by simp [hasAt, hk₀], by simp [sentAt, hk₀, hsent]⟩, ?_⟩
      simp [hsent, SinkRow.wanting, SinkRow.reset, Status.retryable, OUTBOX_MAX_ATTEMPTS]

end Revived

/-- A delivery of the unit that leads from `s` to `s'`, and what it is for a row that a requeue of
`db` has revived. -/
structure Redelivered (db : Db) (id : Nat) (unit : DeliveryUnit) (s s' : World)
    (calls : List Send) : Prop where
  sends : s'.book.sends = s.book.sends ++ calls
  /-- No sink is called that has every row of the unit. -/
  wanted : ∀ x ∈ calls, ∃ row ∈ unit.rows, sentAt s.db row.id x.index = false
  not_again : unit.rows.map (·.id) = [id] → ∀ x ∈ calls, sentAt db id x.index = false
  /-- When the row is delivered, each sink that lacked it has had exactly one call. -/
  once : closed s'.db id = true → ∀ i, Undelivered db id i →
    ∃ x, calls.filter (fun x => x.index = i) = [x] ∧ x.ok = true

theorem filter_of_nodup {calls : List Send} (h : (calls.map (·.index)).Nodup) {x : Send}
    (hx : x ∈ calls) : calls.filter (fun y => y.index = x.index) = [x] := by
  induction calls with
  | nil => exact absurd hx List.not_mem_nil
  | cons y rest ih =>
    obtain ⟨hy, hrest⟩ := List.nodup_cons.mp h
    rcases List.mem_cons.mp hx with rfl | hx
    · rw [List.filter_cons_of_pos (by simp)]
      congr 1
      rw [List.filter_eq_nil_iff]
      intro z hz
      rw [decide_eq_true_eq]
      exact fun he => hy (List.mem_map.mpr ⟨z, hz, he⟩)
    · have hne : y.index ≠ x.index := fun he => hy (List.mem_map.mpr ⟨x, hx, he.symm⟩)
      rw [List.filter_cons_of_neg (by simpa using hne)]
      exact ih hrest hx

/-- A requeue revives what is dead and that only, and a revived row is delivered from there. -/
theorem requeue_revives_exactly_the_dead (db : Db) :
    RevivesTheDead db ∧ ∀ (id : Nat) (s : World), dead_at db id = true → AsRevived db id s.db →
      ∀ (w : Nat) (unit : DeliveryUnit) (os : Nat → Oracle), (∃ row ∈ unit.rows, row.id = id) →
        (unit.rows.map (·.id)).Nodup →
        (∃ calls, Redelivered db id unit s (alone machine w (deliver_unit unit) os s).2.1 calls) ∧
        ((∀ n, Smooth (os n)) → matching_indices s.notifiers (event_of unit) ≠ [] →
          (∀ i, Undelivered db id i → i ∈ matching_indices s.notifiers (event_of unit)) →
          (∀ row ∈ unit.rows, (s.db.parent row.id).isSome) →
          closed (alone machine w (deliver_unit unit) os s).2.1.db id = true) := by
  refine ⟨requeue_revives_the_dead db, ?_⟩
  intro id s hdead hrev w unit os hid hnodup
  have hsafe : (unattended (∀ n, Smooth (os n))).Safe machine w (fun _ s' =>
      Dealt (∀ n, Smooth (os n)) id (Undelivered db id) (unit.rows.map (·.id)) s s'
        (CanDeliver id (event_of unit) unit.rows s)) (deliver_unit unit) s :=
    safe_unit hid hnodup (hrev.held hdead rfl)
  obtain ⟨⟨calls, hcalled, hheld⟩, hdone⟩ := alone_of_safe (fun n _ _ hsm => hsm n) hsafe
  refine ⟨⟨calls, hheld.sends, ?_, ?_, ?_⟩, ?_⟩
  · intro x hx
    obtain ⟨k, hk, hopen⟩ := hcalled.wanted x hx
    obtain ⟨row, hrow, rfl⟩ := List.mem_map.mp hk
    exact ⟨row, hrow, hopen⟩
  · intro hsingle x hx
    obtain ⟨k, hk, hopen⟩ := hcalled.wanted x hx
    rw [hsingle, List.mem_singleton] at hk
    exact unsent_before (fun i => hrev.sent) (hk ▸ hopen)
  · intro hc i hi
    obtain ⟨x, hx, rfl, hok⟩ := hheld.closed hc i hi
    exact ⟨x, filter_of_nodup hcalled.once hx, hok⟩
  · intro hsm hsome hm hparents
    exact hdone hsm ⟨hsome, hrev.wanting hdead hm, hparents⟩

/-! ## A digest that calls a sink again -/

def release (version : String) : Event where
  source_id := "github:o/r"
  source_kind := "GitHub"
  title := "r: new release " ++ version
  body := ""
  url := none
  routing_tag := none

def hooks : Notifier :=
  [⟨⟨.webhook, "hook", "https://example.test/hook"⟩, []⟩,
    ⟨⟨.slack, "chat", "https://example.test/chat"⟩, []⟩]

/-- Two deferred rows of one moment: the first has reached one sink, has run out of attempts at the
other and is dead; the second has not been tried. -/
def half_delivered : Db :=
  let db := (insert_outbox Db.empty 0 (release "v1") "v1" ⟨none, none, none, some 0⟩).2
  let db := (ensure_sink_deliveries db 1 [(0, "webhook"), (1, "slack")]).getD db
  let db := complete_sink_delivery db 0 1 0
  let db := (mark_outbox_dead (abandon_retryable_sinks db 1 [] "gone").2 1).2
  (insert_outbox db 0 (release "v2") "v2" ⟨none, none, none, some 0⟩).2

/-- What the claim after the requeue takes. -/
def wave : List OutboxRecord :=
  (claim_outbox_batch (requeue_dead_outbox half_delivered).2 0 [] [] [] 2 OUTBOX_LEASE_SECS).1

def after_claim : World :=
  World.start
    (claim_outbox_batch (requeue_dead_outbox half_delivered).2 0 [] [] [] 2 OUTBOX_LEASE_SECS).2 0
    hooks

theorem half_delivered_revived : AsRevived half_delivered 1 after_claim.db :=
  (as_revived (by decide +kernel)).claimed 0 [] [] [] 2 OUTBOX_LEASE_SECS

theorem smooth_default : Smooth {} := ⟨rfl, rfl, rfl⟩

theorem requeue_revives_exactly_the_dead_here :
    RevivesTheDead half_delivered ∧
      (∃ calls, Redelivered half_delivered 1 (.digest wave) after_claim
        (alone machine 1 (deliver_unit (.digest wave)) (fun _ => {}) after_claim).2.1 calls) ∧
      closed (alone machine 1 (deliver_unit (.digest wave)) (fun _ => {}) after_claim).2.1.db 1 =
        true := by
  obtain ⟨hrevives, h⟩ := requeue_revives_exactly_the_dead half_delivered
  have hdead : dead_at half_delivered 1 = true := by decide +kernel
  obtain ⟨hcalls, hdone⟩ := h 1 after_claim hdead half_delivered_revived 1 (.digest wave)
    (fun _ => {}) (by decide +kernel) (by decide +kernel)
  refine ⟨hrevives, hcalls, hdone (fun _ => smooth_default) (by decide +kernel) ?_
    (by decide +kernel)⟩
  intro i hi
  have hpending := (hrevives.wanted 1 hdead i hi).2
  rw [show list_pending_sink_indices (requeue_dead_outbox half_delivered).2 1 = [1] by
    decide +kernel, List.mem_singleton] at hpending
  rw [hpending]
  decide +kernel

/-- The second row of the digest wants the sink that has had the first. -/
theorem a_digest_calls_a_sink_again :
    ¬ ∀ (db : Db) (id : Nat) (s : World), dead_at db id = true → AsRevived db id s.db →
      ∀ (w : Nat) (unit : DeliveryUnit) (os : Nat → Oracle), (∃ row ∈ unit.rows, row.id = id) →
        (unit.rows.map (·.id)).Nodup → (∀ n, Smooth (os n)) →
        ∀ x ∈ (alone machine w (deliver_unit unit) os s).2.1.book.sends,
          x ∉ s.book.sends → sentAt db id x.index = false := by
  intro h
  have hagain := h half_delivered 1 after_claim (by decide +kernel) half_delivered_revived 1
    (.digest wave) (fun _ => {}) (by decide +kernel) (by decide +kernel) (fun _ => smooth_default)
  have hcalls : (alone machine 1 (deliver_unit (.digest wave)) (fun _ => {})
      after_claim).2.1.book.sends.map (·.index) = [1, 0] := by
    decide +kernel
  obtain ⟨x, hx, hindex⟩ : ∃ x ∈ (alone machine 1 (deliver_unit (.digest wave)) (fun _ => {})
      after_claim).2.1.book.sends, x.index = 0 := by
    have hmem : 0 ∈ (alone machine 1 (deliver_unit (.digest wave)) (fun _ => {})
        after_claim).2.1.book.sends.map (·.index) := by
      rw [hcalls]
      decide
    exact List.mem_map.mp hmem
  have hopen := hagain x hx List.not_mem_nil
  rw [hindex] at hopen
  exact absurd hopen (by decide +kernel)

end xrelease.revived
