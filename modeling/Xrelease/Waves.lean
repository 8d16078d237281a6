-- The flush, wave by wave: the delivery units of a claimed batch, how many rows a flush takes and
-- that it is through with each before it claims again, and when a row can come up a second time.
import Xrelease.Attempts
import Xrelease.Follows

namespace xrelease.waves

open xrelease.store xrelease.engine xrelease.outbox xrelease.pipeline xrelease.attempts
open xrelease.leases xrelease.pieces
open keyed calls calls.Prog

/-! ## The units of a wave -/

structure Partitioned (wave : List OutboxRecord) (units : List DeliveryUnit) : Prop where
  /-- The units hold the rows of the wave, each once. -/
  each_once : (units.flatMap (·.rows)).Perm wave
  /-- A digest is of deferred rows with one moment and one tag. -/
  one_group : ∀ rows, .digest rows ∈ units → ∀ a ∈ rows, a.deliver_after.isSome ∧
    ∀ b ∈ rows, b.deliver_after = a.deliver_after ∧ b.routing_tag = a.routing_tag
  in_order : ∀ unit ∈ units, unit.rows.Sublist wave

theorem mem_partition {order : List Nat} {wave : List OutboxRecord} {unit : DeliveryUnit}
    (h : unit ∈ partition_for_digest order wave) :
    (∃ row ∈ wave, unit = .single row) ∨ ∃ key, unit =
      unit_of ((wave.filter (fun row => row.deliver_after.isSome)).filter
        (fun row => group_key row = key)) := by
  unfold partition_for_digest at h
  rcases List.mem_append.mp h with h | h
  · obtain ⟨row, hrow, rfl⟩ := List.mem_map.mp h
    exact Or.inl ⟨row, (List.mem_filter.mp hrow).1, rfl⟩
  · obtain ⟨key, -, rfl⟩ := List.mem_map.mp h
    exact Or.inr ⟨key, rfl⟩

theorem partition_partitions (order : List Nat) (wave : List OutboxRecord) :
    Partitioned wave (partition_for_digest order wave) where
  each_once := rows_partition_for_digest order wave
  one_group := by
    intro rows hrows
    rcases mem_partition hrows with ⟨row, -, heq⟩ | ⟨key, heq⟩
    · cases heq
    · have hsame := congrArg DeliveryUnit.rows heq
      rw [rows_unit_of] at hsame
      change rows = _ at hsame
      have hgroup : ∀ a ∈ rows, a.deliver_after.isSome ∧ group_key a = key := by
        intro a ha
        rw [hsame, List.mem_filter, List.mem_filter, decide_eq_true_eq] at ha
        exact ⟨ha.1.2, ha.2⟩
      intro a ha
      refine ⟨(hgroup a ha).1, ?_⟩
      intro b hb
      have hkeys : group_key b = group_key a := (hgroup b hb).2.trans (hgroup a ha).2.symm
      exact ⟨congrArg Prod.fst hkeys, congrArg Prod.snd hkeys⟩
  in_order := by
    intro unit hunit
    rcases mem_partition hunit with ⟨row, hrow, rfl⟩ | ⟨key, rfl⟩
    · exact List.singleton_sublist.mpr hrow
    · rw [rows_unit_of]
      exact List.filter_sublist.trans List.filter_sublist

/-! ## The loop ends -/

/-- Every wave that is not empty takes a row, so more fuel changes nothing. -/
theorem flush_waves_fuel (concurrency : Nat) {fuel fuel' left : Nat} (st : FlushState)
    (h : left ≤ fuel) (h' : left ≤ fuel') :
    flush_waves concurrency fuel left st = flush_waves concurrency fuel' left st := by
  induction fuel generalizing fuel' left st with
  | zero =>
    obtain rfl : left = 0 := by omega
    cases fuel' <;> simp [flush_waves]
  | succ fuel ih =>
    cases fuel' with
    | zero =>
      obtain rfl : left = 0 := by omega
      simp [flush_waves]
    | succ fuel' =>
      unfold flush_waves
      split
      · rfl
      · simp only [bind_eq]
        congr 1
        funext wave
        split
        · rfl
        · rename_i hwave
          have hpos : 0 < wave.length := List.length_pos_iff.mpr hwave
          congr 1
          funext order
          congr 1
          funext st
          split
          · rfl
          · exact ih st (by omega) (by omega)

/-! ## What a worker has in hand -/

/-- The claimed rows that a worker is not through with, how many a flush may still claim, and the
cap on the backoff that it read last. -/
structure Course where
  todo : List Nat
  left : Option Nat
  max_secs : Option Nat
  /-- A call that never fails has failed. -/
  lost : Bool

def moved {β : Type} (g : Course) (op : Call β) (r : Except PipelineError β) : Course :=
  match op with
  | .claim_outbox_batch _ _ =>
    match r with
    | .ok wave =>
      { g with
        todo := g.todo ++ ids_of wave
        left := g.left.map (fun n => n - wave.length) }
    | .error _ => g
  | .claim_outbox_row id _ =>
    match r with
    | .ok true => { g with todo := g.todo ++ [id] }
    | _ => g
  | .through ids =>
    match r with
    | .ok _ => { g with todo := g.todo.diff ids }
    | .error _ => { g with lost := true }
  | .outbox_retry_backoff_max_secs =>
    match r with
    | .ok max_secs => { g with max_secs := some max_secs }
    | .error _ => { g with lost := true }
  | .advisories _ _ _ _ =>
    match r with
    | .ok _ => g
    | .error _ => { g with lost := true }
  | .hash_order =>
    match r with
    | .ok _ => g
    | .error _ => { g with lost := true }
  | _ => g

/-- A flush claims the next wave when it is through with the last one, and no more than its limit
leaves; every lease is as long, and every backoff is one of the schedule. -/
def permits {β : Type} (g : Course) (op : Call β) : Prop :=
  match op with
  | .claim_outbox_batch limit lease_secs =>
    g.todo = [] ∧ lease_secs = OUTBOX_LEASE_SECS ∧ ∃ n, g.left = some n ∧ limit ≤ n
  | .claim_outbox_row _ lease_secs => g.left = none ∧ lease_secs = OUTBOX_LEASE_SECS
  | .through ids => ids.Subperm g.todo
  | .apply_delivery_backoff _ secs | .defer_delivery _ secs =>
    ∃ attempts max_secs, g.max_secs = some max_secs ∧ secs = backoff_secs attempts max_secs
  | _ => True

def may {β : Type} (g : Course) (op : Call β) : Prop := g.lost = true ∨ permits g op

def protocol : Protocol Call PipelineError Course := ⟨may, moved⟩

variable {β : Type} {op : Call β} {p : Observed Call PipelineError World Course}

theorem moved_lost {g : Course} (h : g.lost = true) (op : Call β) (r : Except PipelineError β) :
    (moved g op r).lost = true := by
  unfold moved
  repeat' split
  all_goals first
    | exact h
    | rfl

theorem follows_lost {α : Type} (p : Work α) {g : Course} (h : g.lost = true) :
    p.Follows protocol (fun g' _ => g'.lost = true) g :=
  follows_all (fun _ _ hg => Or.inl hg) (fun _ op r hg => moved_lost hg op r) h

/-- The calls that change what a worker has in hand, or depend on it. -/
def steers {β : Type} (op : Call β) : Prop :=
  match op with
  | .claim_outbox_batch _ _ | .claim_outbox_row _ _ | .through _ | .outbox_retry_backoff_max_secs
  | .advisories _ _ _ _ | .hash_order | .apply_delivery_backoff _ _ | .defer_delivery _ _ => True
  | _ => False

theorem permits_of_not_steers (h : ¬ steers op) (g : Course) :
    permits g op := by
  cases op <;> first | trivial | exact absurd trivial h

theorem moved_of_not_steers (h : ¬ steers op) (g : Course) (r : Except PipelineError β) :
    moved g op r = g := by
  cases op <;> first | rfl | exact absurd trivial h

/-! ## Pieces that deal with rows -/

/-- From one hand to the next, these rows have been dealt with and nothing else has changed. -/
structure Dealt (ids : List Nat) (g g' : Course) : Prop where
  todo : g.todo.Perm (ids ++ g'.todo)
  left : g'.left = g.left

theorem Dealt.refl (g : Course) : Dealt [] g g := ⟨List.Perm.refl _, rfl⟩

theorem Dealt.trans {a b : List Nat} {g₁ g₂ g₃ : Course} (h : Dealt a g₁ g₂)
    (h' : Dealt b g₂ g₃) : Dealt (a ++ b) g₁ g₃ where
  todo := by
    rw [List.append_assoc]
    exact h.todo.trans (h'.todo.append_left a)
  left := h'.left.trans h.left

theorem Dealt.subperm {a b : List Nat} {g g' : Course} (h : Dealt a g g')
    (hab : (a ++ b).Subperm g.todo) : b.Subperm g'.todo :=
  (List.subperm_append_left a).mp (hab.trans h.todo.subperm)

/-- The program deals with the rows, whatever comes of it. -/
def Handles (ids : List Nat) {α : Type} (p : Work α) : Prop :=
  ∀ g : Course, ids.Subperm g.todo →
    p.Follows protocol (fun g' _ => g'.lost = true ∨ Dealt ids g g') g

/-- The program deals with the rows and does not fail. -/
def Completes (ids : List Nat) {α : Type} (p : Work α) : Prop :=
  ∀ g : Course, ids.Subperm g.todo →
    p.Follows protocol (fun g' r => g'.lost = true ∨ (Dealt ids g g' ∧ ∃ a, r = .ok a)) g

section Pieces

variable {α β : Type} {a b ids : List Nat}

theorem handles_never {p : Work α} (h : p.Never steers) : Handles [] p := by
  intro g _
  refine follows_mono (follows_of_never h (fun op hop => Or.inr (permits_of_not_steers hop g))
    (fun op r hop => moved_of_not_steers hop g r)) ?_
  rintro g' r rfl
  exact Or.inr (Dealt.refl g')

/-- One program after another, up to a loss in either. -/
theorem follows_after {p : Work α} {f : α → Work β} {P : Course → Except PipelineError α → Prop}
    {Q : Course → Except PipelineError β → Prop} {g : Course}
    (hp : p.Follows protocol (fun g' r => g'.lost = true ∨ P g' r) g)
    (herr : ∀ g' e, P g' (.error e) → Q g' (.error e))
    (hf : ∀ g' x, P g' (.ok x) →
      (f x).Follows protocol (fun g'' r => g''.lost = true ∨ Q g'' r) g') :
    (p.bind f).Follows protocol (fun g' r => g'.lost = true ∨ Q g' r) g := by
  apply follows_bind
  refine follows_mono hp ?_
  rintro g' (e | x) (hlost | h)
  · exact Or.inl hlost
  · exact Or.inr (herr g' e h)
  · exact follows_mono (follows_lost (f x) hlost) (fun _ _ h => Or.inl h)
  · exact hf g' x h

theorem completes_done (x : α) : Completes [] (done x) :=
  fun g _ => Or.inr ⟨Dealt.refl g, x, rfl⟩

theorem Completes.handles {p : Work α} (h : Completes ids p) : Handles ids p :=
  fun g hg => follows_mono (h g hg) (fun _ _ hq => hq.imp id And.left)

theorem completes_bind {p : Work α} {f : α → Work β} (hp : Completes a p)
    (hf : ∀ x, Completes b (f x)) : Completes (a ++ b) (p.bind f) := by
  intro g hg
  refine follows_after (hp g ((List.sublist_append_left a b).subperm.trans hg)) ?_ ?_
  · rintro g' e ⟨-, x, hx⟩
    cases hx
  · rintro g' x ⟨hdealt, -⟩
    refine follows_mono (hf x g' (hdealt.subperm hg)) (fun _ _ h => h.imp id ?_)
    exact fun ⟨hdealt', hok⟩ => ⟨hdealt.trans hdealt', hok⟩

theorem handles_after {p : Work α} {f : α → Work β} (hp : Completes a p)
    (hf : ∀ x, Handles b (f x)) : Handles (a ++ b) (p.bind f) := by
  intro g hg
  refine follows_after (hp g ((List.sublist_append_left a b).subperm.trans hg)) ?_ ?_
  · rintro g' e ⟨-, x, hx⟩
    cases hx
  · rintro g' x ⟨hdealt, -⟩
    exact follows_mono (hf x g' (hdealt.subperm hg)) (fun _ _ h => h.imp id hdealt.trans)

theorem handles_bind {p : Work α} {f : α → Work β} (hp : Handles [] p)
    (hf : ∀ x, Handles [] (f x)) : Handles [] (p.bind f) := by
  intro g hg
  refine follows_after (hp g hg) (fun _ _ h => h) (fun g' x hdealt => ?_)
  exact follows_mono (hf x g' List.nil_subperm) (fun _ _ h => h.imp id hdealt.trans)

theorem completes_caught {p : Work α} (hp : Handles ids p) : Completes ids p.caught :=
  fun g hg => follows_caught
    (follows_mono (hp g hg) (fun _ r hq => hq.imp id (fun h => ⟨h, r, rfl⟩)))

/-- A call that cannot fail, and only reads. -/
theorem completes_call {op : Call α} (hmay : ∀ g, permits g op)
    (hok : ∀ g x, moved g op (.ok x) = g) (herr : ∀ g e, (moved g op (.error e)).lost = true) :
    Completes [] (perform op) := by
  intro g _
  refine follows_perform (Or.inr (hmay g)) (fun r => ?_)
  cases r with
  | error e => exact Or.inl (herr g e)
  | ok x =>
    have hsame : protocol.after g op (.ok x) = g := hok g x
    rw [hsame]
    exact Or.inr ⟨Dealt.refl g, x, rfl⟩

theorem completes_through (ids : List Nat) : Completes ids (perform (.through ids)) := by
  intro g hg
  refine follows_perform (Or.inr hg) (fun r => ?_)
  cases r with
  | error e => exact Or.inl rfl
  | ok x =>
    refine Or.inr ⟨⟨?_, rfl⟩, x, rfl⟩
    exact (List.subperm_append_diff_self_of_count_le
      (fun i _ => hg.count_le i)).symm

theorem handles_resume (r : Except PipelineError α) : Handles [] (resume r) :=
  handles_never (never_resume r)

end Pieces

/-! ## Between the claim and the backoff -/

theorem settles_quiet (id : Nat) (source_id : String) (seen : SeenUpsert) :
    Settles (fun p => p.Never steers) (fun op => ¬ steers op) id source_id seen := by
  refine settles_of_calls compositional_never.toSequential (fun op hop => ?_) (fun op hop => ?_)
    (fun h => h)
  · cases op <;> first | exact fun h => h | exact hop.elim
  · cases op <;> first | exact fun h => h | exact hop.elim

theorem quiet_round (n : Notifier) (rows : List Nat) (event : Event) (indices : List Nat) :
    ( notify_partial n rows event indices).Never steers :=
  keeps_round compositional_never.toSequential (fun _ h => h)
    (fun _ _ => never_perform (fun h => h)) indices

theorem quiet_breaker_alerts : emit_breaker_alerts.Never steers :=
  keeps_breaker_alerts compositional_never.toSequential (fun h => h) (fun _ _ h => h)

theorem quiet_deliver (id : Nat) (event : Event) (source_id : String) (seen : SeenUpsert) :
    (deliver_to_pending_sinks id event source_id seen).Never steers :=
  keeps_deliver compositional_never.toSequential (settles_quiet id source_id seen)
    (fun n => quiet_round n _ event) quiet_breaker_alerts

theorem quiet_deliver_digest (event : Event) (group : List OutboxRecord) :
    (deliver_digest_to_pending_sinks event group).Never steers :=
  keeps_deliver_digest compositional_never.toSequential (fun h => h)
    (fun row _ => settles_quiet row.id row.source_id _) (fun n => quiet_round n _ event)
    quiet_breaker_alerts

/-! ## The units, the waves and the flush -/

section Flush

/-- A backoff is one of the schedule, with the cap just read. -/
theorem completes_backoff (id attempts_before : Nat) (attempt : DeliveryAttempt) :
    Completes [] (apply_attempt_backoff id attempts_before attempt) := by
  intro g _
  apply follows_bind
  refine follows_perform (Or.inr trivial) (fun r => ?_)
  cases r with
  | error e => exact Or.inl rfl
  | ok max_secs =>
    apply follows_bind
    apply follows_caught
    have hmay : ∃ attempts max_secs', some max_secs = some max_secs' ∧
        backoff_secs (attempts_before + 1 : Nat) max_secs = backoff_secs attempts max_secs' :=
      ⟨_, max_secs, rfl, rfl⟩
    split
    · exact follows_perform (Or.inr hmay) (fun r => Or.inr ⟨⟨List.Perm.refl _, rfl⟩, (), rfl⟩)
    · exact follows_perform (Or.inr hmay) (fun r => Or.inr ⟨⟨List.Perm.refl _, rfl⟩, (), rfl⟩)

theorem completes_backoff_after (id attempts_before : Nat)
    (outcome : Except PipelineError DeliveryAttempt) :
    Completes [] (backoff_after id attempts_before outcome) := by
  unfold backoff_after
  split
  · split
    · exact completes_done ()
    · exact completes_backoff id attempts_before _
  · exact completes_done ()

theorem handles_attempt (id attempts_before : Nat) (context : DeliveryContext) :
    Handles [id] (attempt_notification_delivery id attempts_before context) := by
  have hadvisories : Completes [] (enrich_with_advisories context) :=
    completes_bind (a := []) (b := []) (completes_call (fun _ => trivial) (fun _ _ => rfl)
      (fun _ _ => rfl)) (fun _ => completes_done _)
  refine handles_after (a := []) hadvisories (fun enriched => ?_)
  refine handles_after (a := []) (completes_caught (handles_never (quiet_deliver id _ _ _)))
    (fun outcome => ?_)
  refine handles_after (a := []) (completes_backoff_after id attempts_before outcome) (fun _ => ?_)
  refine handles_after (a := [id]) (b := []) (completes_through [id]) (fun _ => ?_)
  exact handles_bind (handles_resume outcome) (fun _ => (completes_done _).handles)

theorem handles_digest (group : List OutboxRecord) :
    Handles (ids_of group) (deliver_claimed_outbox_digest group) := by
  have hbackoff : ∀ l : List (OutboxRecord × DeliveryAttempt), Completes [] (backoff_group l) := by
    intro l
    induction l with
    | nil => exact completes_done []
    | cons head rest ih =>
      refine completes_bind (a := []) (b := []) (completes_backoff_after _ _ _) (fun _ => ?_)
      exact completes_bind (a := []) (b := []) ih (fun _ => completes_done _)
  refine handles_after (a := []) (completes_caught ?_) (fun outcome => ?_)
  · exact handles_bind (handles_never (quiet_deliver_digest _ group))
      (fun outcomes => (hbackoff _).handles)
  · have h := handles_after (completes_through (group.map (·.id))) (fun _ => handles_resume outcome)
    rwa [List.append_nil] at h

theorem handles_unit (unit : DeliveryUnit) : Handles (ids_of unit.rows) (deliver_unit unit) := by
  cases unit with
  | single row =>
    intro g hg
    apply follows_bind
    refine follows_mono (handles_attempt row.id row.attempts _ g hg) ?_
    intro g' r h
    cases r with
    | error e => exact h
    | ok delivered => exact h
  | digest group => exact handles_digest group

theorem completes_wave (units : List DeliveryUnit) (st : FlushState) :
    Completes (ids_of (units.flatMap (·.rows))) (deliver_wave st units) := by
  induction units generalizing st with
  | nil => exact completes_done st
  | cons unit rest ih =>
    have hids : ids_of ((unit :: rest).flatMap (·.rows)) =
        ids_of unit.rows ++ ids_of (rest.flatMap (·.rows)) := by
      unfold ids_of
      rw [List.flatMap_cons, List.map_append]
    rw [hids]
    refine completes_bind (completes_caught (handles_unit unit)) (fun result => ?_)
    cases result with
    | ok rows => exact ih _
    | error err => exact ih _

/-- With all rows dealt with, the flush ends with none in hand. -/
def Drained (g : Course) : Prop := g.lost = true ∨ g.todo = []

theorem drains_waves (concurrency fuel left : Nat) (st : FlushState) {g : Course}
    (htodo : g.todo = []) {n : Nat} (hleft : g.left = some n) (hn : left ≤ n) :
    (flush_waves concurrency fuel left st).Follows protocol (fun g' _ => Drained g') g := by
  induction fuel generalizing left st g n with
  | zero => exact Or.inr htodo
  | succ fuel ih =>
    unfold flush_waves
    split
    · exact Or.inr htodo
    · apply follows_bind
      refine follows_perform (Or.inr ⟨htodo, rfl, n, hleft, (min_le_right _ _).trans hn⟩)
        (fun r => ?_)
      cases r with
      | error e => exact Or.inr htodo
      | ok wave =>
        change Follows protocol _ (ite _ _ _) { g with
          todo := g.todo ++ ids_of wave, left := g.left.map (fun n => n - wave.length) }
        rw [htodo, hleft]
        split
        · rename_i hwave
          exact Or.inr (by rw [hwave]; rfl)
        · apply follows_bind
          refine follows_perform (Or.inr trivial) (fun r => ?_)
          cases r with
          | error e => exact Or.inl rfl
          | ok order =>
            apply follows_bind
            have hperm : (ids_of ((partition_for_digest order wave).flatMap (·.rows))).Perm
                (ids_of wave) := (rows_partition_for_digest order wave).map _
            refine follows_mono (completes_wave (partition_for_digest order wave) st _
              hperm.subperm) ?_
            rintro g' r (hlost | ⟨hdealt, st, rfl⟩)
            · cases r with
              | error e => exact Or.inl hlost
              | ok st => exact follows_mono (follows_lost _ hlost) (fun _ _ h => Or.inl h)
            · have hrest : g'.todo = [] := by
                have h := hdealt.todo.length_eq
                rw [List.length_append, hperm.length_eq] at h
                change (ids_of wave).length = _ at h
                exact List.eq_nil_of_length_eq_zero (by omega)
              change Follows protocol _ (ite _ _ _) g'
              split
              · exact Or.inr hrest
              · exact ih _ st hrest (hdealt.left.trans rfl) (Nat.sub_le_sub_right hn _)

theorem drains_flush (limit : Nat) {g : Course} (htodo : g.todo = [])
    (hleft : g.left = some limit) :
    (flush_notification_outbox limit).Follows protocol (fun g' _ => Drained g') g := by
  apply follows_bind
  refine follows_perform (Or.inr trivial) (fun r => ?_)
  cases r with
  | error e => exact Or.inr htodo
  | ok concurrency =>
    apply follows_bind
    refine follows_mono (drains_waves _ limit limit _ htodo hleft (le_refl limit)) ?_
    intro g' r h
    cases r with
    | error e => exact h
    | ok st =>
      dsimp only
      cases st.first_err with
      | some err => exact h
      | none => exact h

end Flush

/-! ## The other jobs -/

/-- Where no batch is claimed, the program deals with every row that it claims. -/
def Works {α : Type} (p : Work α) : Prop :=
  ∀ g : Course, g.left = none → p.Follows protocol (fun g' _ => g'.lost = true ∨ Dealt [] g g') g

section Jobs

variable {α β : Type}

theorem Handles.works {p : Work α} (h : Handles [] p) : Works p :=
  fun g _ => h g List.nil_subperm

theorem works_never {p : Work α} (h : p.Never steers) : Works p := (handles_never h).works

theorem works_call {op : Call α} (h : ¬ steers op) : Works (perform op) :=
  works_never (never_perform h)

theorem works_done (x : α) : Works (done x) := works_never trivial

theorem works_bind {p : Work α} {f : α → Work β} (hp : Works p) (hf : ∀ x, Works (f x)) :
    Works (p.bind f) := by
  intro g hg
  refine follows_after (hp g hg) (fun _ _ h => h) (fun g' x hdealt => ?_)
  exact follows_mono (hf x g' (hdealt.left.trans hg)) (fun _ _ h => h.imp id hdealt.trans)

theorem works_caught {p : Work α} (hp : Works p) : Works p.caught :=
  fun g hg => follows_caught (hp g hg)

theorem works_if {p q : Work α} {c : Prop} [Decidable c] (hp : Works p) (hq : Works q) :
    Works (if c then p else q) := by
  split
  · exact hp
  · exact hq

/-- The row that is claimed inline is dealt with at once. -/
theorem works_deliver_inline (watch : pipeline.Watch) (release : model.Release)
    (enqueued : EnqueueOutcome) : Works (deliver_inline watch release enqueued) := by
  refine works_if (works_done false) ?_
  intro g hg
  apply follows_bind
  refine follows_perform (Or.inr ⟨hg, rfl⟩) (fun r => ?_)
  match r with
  | .error e => exact Or.inr (Dealt.refl g)
  | .ok false => exact Or.inr (Dealt.refl g)
  | .ok true =>
    refine follows_mono (handles_attempt enqueued.id 0 _ { g with todo := g.todo ++ [enqueued.id] }
      (List.sublist_append_right _ _).subperm) ?_
    rintro g' r' (hlost | hdealt)
    · exact Or.inl hlost
    · refine Or.inr ⟨?_, hdealt.left⟩
      have h : (g.todo ++ [enqueued.id]).Perm ([enqueued.id] ++ g'.todo) := hdealt.todo
      exact (List.perm_append_left_iff _).mp (List.perm_append_comm.trans h)

theorem compositional_works : Compositional Works (fun op => ¬ steers op) where
  done := works_done
  fail := fun _ => works_never trivial
  bind := works_bind
  caught := works_caught
  call := works_call

theorem not_steers_of_offers {γ : Type} (op : Call γ) (h : offers op) : ¬ steers op := by
  cases op <;> first | exact id | exact h.elim

theorem not_steers_of_polls {γ : Type} (op : Call γ) (h : polls op) : ¬ steers op := by
  cases op <;> first | exact id | exact (h.elim id (Or.elim · id id)).elim

theorem works_deliver_release (watch : pipeline.Watch) (release : model.Release) :
    Works (deliver_release watch release) :=
  keeps_deliver_release compositional_works not_steers_of_offers id
    (works_deliver_inline watch release)

end Jobs

/-- How many rows a flush may claim; the other jobs claim none in batches. -/
def allowance : Job → Option Nat
  | .flush limit => some limit
  | _ => none

def outset (job : Job) : Course := ⟨[], allowance job, none, false⟩

/-- Every job ends with no row in hand. -/
theorem drains_work (job : Job) :
    job.work.Follows protocol (fun g' _ => Drained g') (outset job) := by
  have hworks {p : Work Unit} (h : Works p) (hnone : allowance job = none) :
      p.Follows protocol (fun g' _ => Drained g') (outset job) := by
    refine follows_mono (h (outset job) hnone) ?_
    rintro g' r (hlost | hdealt)
    · exact Or.inl hlost
    · exact Or.inr (List.nil_perm.mp hdealt.todo)
  cases job with
  | poll watch force_fetch =>
    exact hworks (works_bind (keeps_poll compositional_works not_steers_of_polls
      (works_deliver_release watch) force_fetch) (fun _ => works_done ())) rfl
  | push watches release =>
    exact hworks (works_bind (keeps_push compositional_works not_steers_of_polls
      works_deliver_release release watches 0) (fun _ => works_done ())) rfl
  | flush limit =>
    apply follows_bind
    refine follows_mono (drains_flush limit (g := outset (.flush limit)) rfl rfl) ?_
    intro g' r h
    cases r with
    | error e => exact h
    | ok n => exact h
  | sweep => exact hworks (keeps_reconcile compositional_works id (fun _ _ => id)) rfl
  | requeue => exact hworks (works_bind (works_call id) (fun _ => works_done ())) rfl
  | idle => exact hworks (works_done ()) rfl

/-! ## What a worker does in a run -/

/-- The database time of a claim with its rows, and the ends of the attempts. -/
inductive Stride where
  | claimed (now : model.DateTime) (ids : List Nat)
  | through (ids : List Nat)
deriving DecidableEq

def stride_of {β : Type} (op : Call β) (r : Except PipelineError β) (now : model.DateTime) :
    Option Stride :=
  match op with
  | .claim_outbox_batch _ _ =>
    match r with
    | .ok wave => some (.claimed now (ids_of wave))
    | .error _ => none
  | .claim_outbox_row id _ =>
    match r with
    | .ok true => some (.claimed now [id])
    | _ => none
  | .through ids => some (.through ids)
  | _ => none

def stride (w : Nat) (p : Workers) : Move Oracle Outside → Option Stride
  | .work v o =>
    if v = w then
      match p.worker w with
      | .call op _ => stride_of op (exec w op o p.state).1 (p.state.tick o).now
      | .done _ => none
      | .fail _ => none
    else none
  | .crash _ => none
  | .outside _ => none

def strides (w : Nat) (p : Workers) : List (Move Oracle Outside) → List Stride
  | [] => []
  | m :: ms => (stride w p m).toList ++ strides w (p.step machine m) ms

/-- The claims of a worker: when, and which rows. -/
def claims (l : List Stride) : List (model.DateTime × List Nat) :=
  l.filterMap (fun x => match x with
    | .claimed now ids => some (now, ids)
    | .through _ => none)

def taken (l : List Stride) : List Nat := (claims l).flatMap Prod.snd

/-- The rows that the worker is through with, once for each attempt. -/
def handled (l : List Stride) : List Nat :=
  l.flatMap (fun x => match x with
    | .claimed _ _ => []
    | .through ids => ids)

/-- Nothing lifts a lock, and the configured cap on the backoff is at least so many seconds. -/
def Steady (least : Nat) (p : Workers) (m : Move Oracle Outside) : Prop :=
  onCalls (fun _ op o _ => match op with
    | .requeue_dead_outbox => o.fails ≠ none
    | .release_outbox_lease _ => o.fails ≠ none
    | .outbox_retry_backoff_max_secs => least ≤ o.outbox_retry_backoff_max_secs
    | _ => True) p m

def Ended : Work Unit → Prop
  | .done _ => True
  | .fail _ => True
  | .call _ _ => False

/-- The flush of a worker over a run. -/
structure FlushedOnce (limit w : Nat) (p : Workers) (moves : List (Move Oracle Outside)) :
    Prop where
  within_limit : (taken (strides w p moves)).length ≤ limit
  /-- Each claim of a row has one attempt; none is missing when the flush has ended by itself. -/
  each_through : ∃ rest, (taken (strides w p moves)).Perm (handled (strides w p moves) ++ rest) ∧
    (.crash w ∉ moves → Ended ((p.run machine moves).worker w) → rest = [])
  once_a_wave : ∀ wave ∈ claims (strides w p moves), wave.2.Nodup
  /-- A row comes up again only after its lock has run out. -/
  apart : ∀ least, Along machine (Steady least) p moves →
    (claims (strides w p moves)).Pairwise (fun a b =>
      ∀ id ∈ a.2, id ∈ b.2 → a.1 + secs (min 60 least) < b.1)

/-! ## The tally -/

section Tally

variable {l : List Stride} {limit : Option Nat} {g : Course}

@[simp] theorem claims_append (l l' : List Stride) : claims (l ++ l') = claims l ++ claims l' :=
  List.filterMap_append

@[simp] theorem taken_append (l l' : List Stride) : taken (l ++ l') = taken l ++ taken l' := by
  simp [taken]

@[simp] theorem handled_append (l l' : List Stride) : handled (l ++ l') = handled l ++ handled l' :=
  List.flatMap_append

/-- The claims so far against the ends of the attempts and what is in hand. -/
structure Tallied (limit : Option Nat) (g : Course) (l : List Stride) : Prop where
  sure : g.lost = false
  todo : (taken l).Perm (handled l ++ g.todo)
  room : ∀ n, limit = some n → ∃ k, g.left = some k ∧ (taken l).length + k ≤ n

theorem wave_length {w limit lease_secs : Nat} {o : Oracle} {s : World} {wave : List OutboxRecord}
    (h : (exec w (.claim_outbox_batch limit lease_secs) o s).1 = .ok wave) :
    wave.length ≤ limit := by
  cases hfail : o.fails with
  | some e => simp [exec, stored, hfail] at h
  | none =>
    simp only [exec, stored, hfail, Except.ok.injEq] at h
    subst h
    have hids :
        (claim_batch_ids s.db (s.tick o).now o.order o.back o.locked limit).length ≤ limit := by
      unfold claim_batch_ids
      rw [(arrange_perm o.back _).length_eq, List.length_map, List.length_take]
      exact min_le_left _ _
    exact (List.length_filterMap_le _ _).trans hids

theorem tallied_call {β : Type} {w : Nat} {op : Call β} {o : Oracle} {s : World}
    (h : Tallied limit g l) (hmay : may g op) :
    Tallied limit (moved g op (exec w op o s).1)
      (l ++ (stride_of op (exec w op o s).1 (s.tick o).now).toList) := by
  have hp : permits g op := hmay.resolve_left (by simp [h.sure])
  by_cases hsteers : steers op
  · cases op
    case claim_outbox_batch batch lease_secs =>
      obtain ⟨-, -, n, hleft, hn⟩ := hp
      cases hr : (exec w (.claim_outbox_batch batch lease_secs) o s).1 with
      | error e => simpa [stride_of, moved] using h
      | ok wave =>
        have hlen := wave_length hr
        refine ⟨h.sure, ?_, ?_⟩
        · simp only [moved, stride_of, Option.toList_some, taken_append, handled_append]
          simpa [taken, claims, handled, ← List.append_assoc]
            using h.todo.append_right (ids_of wave)
        · intro m hm
          obtain ⟨k, hk, hroom⟩ := h.room m hm
          rw [hleft] at hk
          obtain rfl := Option.some.inj hk
          refine ⟨n - wave.length, by simp [moved, hleft], ?_⟩
          have hids : (ids_of wave).length = wave.length := List.length_map ..
          simp only [stride_of, Option.toList_some, taken_append, List.length_append]
          simp only [taken, claims, List.filterMap_cons, List.filterMap_nil, List.flatMap_cons,
            List.flatMap_nil, List.append_nil] at hroom ⊢
          omega
    case claim_outbox_row id lease_secs =>
      have hnone : g.left = none := hp.1
      match hr : (exec w (.claim_outbox_row id lease_secs) o s).1 with
      | .error e => simpa [stride_of, moved] using h
      | .ok false => simpa [stride_of, moved] using h
      | .ok true =>
        refine ⟨h.sure, ?_, ?_⟩
        · simp only [moved, stride_of, Option.toList_some, taken_append, handled_append]
          simpa [taken, claims, handled, ← List.append_assoc] using h.todo.append_right [id]
        · intro m hm
          obtain ⟨k, hk, -⟩ := h.room m hm
          rw [hnone] at hk
          cases hk
    case through ids =>
      have hids : ids.Subperm g.todo := hp
      refine ⟨h.sure, ?_, ?_⟩
      · have hrest : (ids ++ g.todo.diff ids).Perm g.todo :=
          List.subperm_append_diff_self_of_count_le (fun i _ => hids.count_le i)
        have htodo := h.todo.trans (hrest.symm.append_left (handled l))
        simpa [moved, exec, stride_of, taken, claims, handled, ← List.append_assoc] using htodo
      · intro m hm
        simpa [moved, exec, stride_of, taken, claims] using h.room m hm
    case apply_delivery_backoff => simpa [stride_of, moved] using h
    case defer_delivery => simpa [stride_of, moved] using h
    case outbox_retry_backoff_max_secs =>
      exact ⟨h.sure, by simpa [stride_of, moved, exec] using h.todo,
        by simpa [stride_of, moved, exec] using h.room⟩
    case hash_order => simpa [stride_of, moved, exec] using h
    case advisories => simpa [stride_of, moved, exec] using h
    all_goals exact absurd hsteers id
  · rw [moved_of_not_steers hsteers]
    have hnone : ∀ r now, stride_of op r now = none := by
      intro r now
      cases op <;> first | rfl | exact absurd trivial hsteers
    rw [hnone, Option.toList_none, List.append_nil]
    exact h

end Tally

/-! ## The locks -/

/-- How long a call locks the rows that it locks. -/
def lock_secs {β : Type} (op : Call β) : Option Nat :=
  match op with
  | .claim_outbox_batch _ lease_secs | .claim_outbox_row _ lease_secs => some lease_secs
  | .apply_delivery_backoff _ secs | .defer_delivery _ secs => some secs
  | _ => none

/-- The call takes locks away. -/
def lifts {β : Type} (op : Call β) (o : Oracle) : Prop :=
  match op with
  | .requeue_dead_outbox => o.fails = none
  | .release_outbox_lease _ => o.fails = none
  | _ => False

/-- Every row stays, with its lock or one from this moment. -/
def Relocked (now : model.DateTime) (secs_ : Option Nat) (db db' : Db) : Prop :=
  ∀ id r, db.parent id = some r → ∃ r', db'.parent id = some r' ∧
    (r'.locked_until = r.locked_until ∨
      ∃ n, secs_ = some n ∧ r'.locked_until = some (now + secs n))

theorem relocked_exec (w : Nat) {o : Oracle} (s : World) (h : ¬ lifts op o) :
    Relocked (s.tick o).now (lock_secs op) s.db (exec w op o s).2.db := by
  intro id r hr
  rcases row_exec hr with hsame | ⟨ho, -, hnew⟩
  · exact ⟨r, hsame, Or.inl rfl⟩
  · refine ⟨_, hnew, ?_⟩
    cases op <;> first
      | exact Or.inl rfl
      | exact Or.inr ⟨_, rfl, rfl⟩
      | exact absurd ho h

theorem secs_mono {m n : Nat} (h : m ≤ n) : secs m ≤ secs n := by
  unfold secs
  exact Int.mul_le_mul_of_nonneg_right (Int.ofNat_le.mpr h) (by decide)

/-- No lock of a permitted call is shorter than the shortest backoff. -/
theorem lock_secs_ge {g : Course} {least n : Nat} (h : permits g op)
    (hmax : ∀ m, g.max_secs = some m → least ≤ m) (hn : lock_secs op = some n) :
    min 60 least ≤ n := by
  have hlease : min 60 least ≤ OUTBOX_LEASE_SECS := (min_le_left _ _).trans (by decide)
  have hbackoff : ∀ {secs : Nat}, (∃ attempts max_secs, g.max_secs = some max_secs ∧
      secs = backoff_secs attempts max_secs) → min 60 least ≤ secs := by
    rintro secs ⟨attempts, m, hm, rfl⟩
    unfold backoff_secs
    have hleast := hmax m hm
    have hsixty : 60 ≤ 60 * 2 ^ min (attempts - 1).toNat 16 :=
      Nat.le_mul_of_pos_right 60 (Nat.pow_pos (by decide))
    omega
  cases op <;> simp only [lock_secs, reduceCtorEq, Option.some.injEq] at hn
  case claim_outbox_batch => exact hn ▸ h.2.1 ▸ hlease
  case claim_outbox_row => exact hn ▸ h.2 ▸ hlease
  case apply_delivery_backoff => exact hn ▸ hbackoff h
  case defer_delivery => exact hn ▸ hbackoff h

/-- What is in the way of a second claim: the rows claimed so far are locked, for as long as the
shortest backoff from their claim on. -/
structure Spaced (least : Nat) (l : List Stride) (s : World) : Prop where
  apart : (claims l).Pairwise (fun a b => ∀ id ∈ a.2, id ∈ b.2 → a.1 + secs (min 60 least) < b.1)
  locked : ∀ c ∈ claims l, c.1 ≤ s.now ∧ ∀ id ∈ c.2, ∃ r t, s.db.parent id = some r ∧
    r.locked_until = some t ∧ c.1 + secs (min 60 least) ≤ t

/-- A row that a call takes was unlocked before and is locked from now on. -/
theorem claim_spec {w : Nat} {o : Oracle} {s : World} {now : model.DateTime} {ids : List Nat}
    (h : stride_of op (exec w op o s).1 (s.tick o).now = some (.claimed now ids)) :
    now = (s.tick o).now ∧ ids.Nodup ∧ ∀ id ∈ ids,
      (∃ r, s.db.parent id = some r ∧ r.unlocked now = true) ∧
      ∃ r n, lock_secs op = some n ∧ (exec w op o s).2.db.parent id = some r ∧
        r.locked_until = some (now + secs n) := by
  cases op <;> simp only [stride_of, reduceCtorEq, Option.some.injEq] at h
  case claim_outbox_batch limit lease_secs =>
    cases hr : (exec w (.claim_outbox_batch limit lease_secs) o s).1 with
    | error e => simp [hr] at h
    | ok wave =>
      simp only [hr, Option.some.injEq, Stride.claimed.injEq] at h
      obtain ⟨rfl, rfl⟩ := h
      refine ⟨rfl, (claimed_of_batch (w := w) hr).2, ?_⟩
      cases hfail : o.fails with
      | some e => simp [exec, stored, hfail] at hr
      | none =>
        simp only [exec, stored, hfail, Except.ok.injEq] at hr ⊢
        intro id hid
        have hin : id ∈ claim_batch_ids s.db (s.tick o).now o.order o.back o.locked limit := by
          rw [← hr] at hid
          exact (ids_of_filterMap _ _).subset hid
        obtain ⟨r, hrow, hc⟩ := mem_claim_batch_ids _ _ id hin
        simp only [OutboxRow.claimable, Bool.and_eq_true] at hc
        refine ⟨⟨r, hrow, hc.1.2⟩, r.leased ((s.tick o).now + secs lease_secs), lease_secs, rfl,
          ?_, rfl⟩
        change ((claim_outbox_batch s.db (s.tick o).now o.order o.back o.locked limit
          lease_secs).2).parent id = _
        simp [claim_outbox_batch, hrow, hin]
  case claim_outbox_row id lease_secs =>
    cases hr : (exec w (.claim_outbox_row id lease_secs) o s).1 with
    | error e => simp [hr] at h
    | ok taken =>
      cases taken with
      | false => simp [hr] at h
      | true =>
        simp only [hr, Option.some.injEq, Stride.claimed.injEq] at h
        obtain ⟨rfl, rfl⟩ := h
        refine ⟨rfl, List.nodup_singleton id, ?_⟩
        cases hfail : o.fails with
        | some e => simp [exec, stored, hfail] at hr
        | none =>
          have hit : claim_row_hit s.db (s.tick o).now id = true := by
            simpa [exec, stored, hfail, claim_outbox_row, World.tick] using hr
          obtain ⟨r, hrow, hl⟩ := (Option.any_eq_true _ _).mp hit
          intro j hj
          obtain rfl := List.mem_singleton.mp hj
          have hfree := hl
          simp only [OutboxRow.leasable, Bool.and_eq_true] at hfree
          refine ⟨⟨r, hrow, hfree.1.2⟩, r.leased ((s.tick o).now + secs lease_secs), lease_secs, rfl,
            ?_, rfl⟩
          have hit' : (claim_outbox_row (s.tick o).db (s.tick o).now j lease_secs).1 = true := hit
          simp only [exec, stored, hfail, hit', if_true]
          change ((claim_outbox_row s.db (s.tick o).now j lease_secs).2).parent j = _
          simp [claim_outbox_row, hrow, hl]

theorem spaced_call {v w : Nat} {o : Oracle} {s : World} {g : Course} {least : Nat}
    {l : List Stride} (h : Spaced least l s) (hp : permits g op)
    (hmax : ∀ m, g.max_secs = some m → least ≤ m) (hlift : ¬ lifts op o) :
    Spaced least (l ++ if v = w then
      (stride_of op (exec v op o s).1 (s.tick o).now).toList else []) (exec v op o s).2 := by
  have hkept : ∀ c ∈ claims l, c.1 ≤ (exec v op o s).2.now ∧ ∀ id ∈ c.2, ∃ r t,
      (exec v op o s).2.db.parent id = some r ∧ r.locked_until = some t ∧
        c.1 + secs (min 60 least) ≤ t := by
    intro c hc
    obtain ⟨hnow, hrows⟩ := h.locked c hc
    have hlater : c.1 ≤ (s.tick o).now := le_trans hnow (now_le_tick s o)
    refine ⟨(now_exec v op o s).symm ▸ hlater, ?_⟩
    intro id hid
    obtain ⟨r, t, hr, ht, hle⟩ := hrows id hid
    obtain ⟨r', hr', hlock | ⟨n, hn, hlock⟩⟩ := relocked_exec v s hlift id r hr
    · exact ⟨r', t, hr', hlock.trans ht, hle⟩
    · exact ⟨r', _, hr', hlock, Int.add_le_add hlater (secs_mono (lock_secs_ge hp hmax hn))⟩
  by_cases hvw : v = w
  · rw [if_pos hvw]
    match hstride : stride_of op (exec v op o s).1 (s.tick o).now with
    | none => simpa using Spaced.mk h.apart hkept
    | some (.through ids) =>
      have hsame : claims (l ++ [.through ids]) = claims l := by simp [claims]
      exact ⟨hsame.symm ▸ h.apart, hsame.symm ▸ hkept⟩
    | some (.claimed now ids) =>
      obtain ⟨rfl, -, hids⟩ := claim_spec hstride
      have hnew :
          claims (l ++ [.claimed (s.tick o).now ids]) = claims l ++ [((s.tick o).now, ids)] := by
        simp [claims]
      constructor
      · rw [Option.toList_some, hnew, List.pairwise_append]
        refine ⟨h.apart, List.pairwise_singleton _ _, ?_⟩
        intro a ha b hb id hida hidb
        rw [List.mem_singleton] at hb
        subst hb
        obtain ⟨r, t, hr, ht, hle⟩ := (h.locked a ha).2 id hida
        obtain ⟨⟨r', hr', hfree⟩, -⟩ := hids id hidb
        obtain rfl := Option.some.inj (hr.symm.trans hr')
        rw [OutboxRow.unlocked, ht, Option.all_some, decide_eq_true_eq] at hfree
        exact lt_of_le_of_lt hle hfree
      · rw [Option.toList_some, hnew]
        intro c hc
        rcases List.mem_append.mp hc with hc | hc
        · exact hkept c hc
        · rw [List.mem_singleton] at hc
          subst hc
          refine ⟨(now_exec v op o s).symm ▸ le_refl _, ?_⟩
          intro id hid
          obtain ⟨-, r, n, hn, hr, hlock⟩ := hids id hid
          exact ⟨r, _, hr, hlock, Int.add_le_add (le_refl _) (secs_mono (lock_secs_ge hp hmax hn))⟩
  · rw [if_neg hvw, List.append_nil]
    exact ⟨h.apart, hkept⟩

/-! ## Over a run -/

def coursing (jobs : Nat → Job) (s : World) : Observed Call PipelineError World Course :=
  ⟨starting jobs s, fun w => outset (jobs w)⟩

theorem coursing_keeps (jobs : Nat → Job) (s : World) :
    (coursing jobs s).Keeps protocol (fun _ => True) :=
  fun w => follows_mono (drains_work (jobs w)) (fun _ _ _ => trivial)

/-- A worker that has ended makes no stride. -/
theorem stride_idle {p : Workers} {v w : Nat} {o : Oracle} (h : Ended (p.worker v)) :
    stride w p (.work v o) = none := by
  by_cases hvw : v = w
  · subst hvw
    simp only [stride, if_true]
    cases hv : p.worker v with
    | done a => rfl
    | fail e => rfl
    | call op next =>
      rw [hv] at h
      exact False.elim h
  · simp only [stride, if_neg hvw]

theorem tallied_step (hk : p.Keeps protocol (fun _ => True)) {limits : Nat → Option Nat}
    {l : Nat → List Stride} (h : ∀ w, Tallied (limits w) (p.ghost w) (l w))
    (m : Move Oracle Outside) (w : Nat) :
    Tallied (limits w) ((p.step protocol machine m).ghost w)
      (l w ++ (stride w p.pool m).toList) := by
  cases m with
  | crash v => simpa [stride, Observed.step] using h w
  | outside e => simpa [stride, Observed.step] using h w
  | work v o =>
    cases hv : p.pool.worker v with
    | done a =>
      have hnone : stride w p.pool (.work v o) = none := stride_idle (by rw [hv]; trivial)
      simpa [Observed.step, hv, hnone] using h w
    | fail e =>
      have hnone : stride w p.pool (.work v o) = none := stride_idle (by rw [hv]; trivial)
      simpa [Observed.step, hv, hnone] using h w
    | call op next =>
      rw [Observed.ghost_call o hv w]
      by_cases hvw : w = v
      · subst hvw
        simp only [stride, if_true, hv]
        exact tallied_call (h w) (hk.may hv)
      · have hnone : stride w p.pool (.work v o) = none := by simp [stride, Ne.symm hvw]
        rw [if_neg hvw, hnone, Option.toList_none, List.append_nil]
        exact h w

theorem tallied_run (hk : p.Keeps protocol (fun _ => True)) {limits : Nat → Option Nat}
    {l : Nat → List Stride} (h : ∀ w, Tallied (limits w) (p.ghost w) (l w))
    (moves : List (Move Oracle Outside)) (w : Nat) :
    Tallied (limits w) ((p.run protocol machine moves).ghost w)
      (l w ++ strides w p.pool moves) := by
  induction moves generalizing p l with
  | nil => simpa [strides] using h w
  | cons m ms ih =>
    have := ih (hk.step m (fun _ _ => trivial)) (tallied_step hk h m)
    rwa [List.append_assoc] at this

theorem capped_step {least : Nat} {m : Move Oracle Outside} (hs : Steady least p.pool m)
    (h : ∀ v n, (p.ghost v).max_secs = some n → least ≤ n) :
    ∀ v n, ((p.step protocol machine m).ghost v).max_secs = some n → least ≤ n := by
  intro v n hn
  cases m with
  | crash w => exact h v n hn
  | outside e => exact h v n hn
  | work w o =>
    cases hw : p.pool.worker w with
    | done a =>
      simp only [Observed.step, hw] at hn
      exact h v n hn
    | fail e =>
      simp only [Observed.step, hw] at hn
      exact h v n hn
    | call op next =>
      rw [Observed.ghost_call o hw v] at hn
      split at hn
      · simp only [Steady, onCalls, hw] at hs
        change (moved (p.ghost w) op (exec w op o p.pool.state).1).max_secs = some n at hn
        cases op
        case outbox_retry_backoff_max_secs =>
          simp only [moved, exec, Option.some.injEq] at hn
          exact hn ▸ hs
        all_goals
          refine h w n ?_
          rw [← hn]
          simp only [moved]
          repeat' split
          all_goals rfl
      · exact h v n hn

theorem spaced_step {least w : Nat} {l : List Stride} {m : Move Oracle Outside}
    (hk : p.Keeps protocol (fun _ => True)) (hsure : ∀ v, (p.ghost v).lost = false)
    (hmax : ∀ v n, (p.ghost v).max_secs = some n → least ≤ n) (hs : Steady least p.pool m)
    (h : Spaced least l p.pool.state) :
    Spaced least (l ++ (stride w p.pool m).toList) (p.step protocol machine m).pool.state := by
  cases m with
  | crash v =>
    rw [stride, Option.toList_none, List.append_nil]
    exact ⟨h.apart, h.locked⟩
  | outside e =>
    rw [stride, Option.toList_none, List.append_nil]
    cases e
    exact ⟨h.apart, h.locked⟩
  | work v o =>
    cases hv : p.pool.worker v with
    | done a =>
      have hnone : stride w p.pool (.work v o) = none := stride_idle (by rw [hv]; trivial)
      simpa [Observed.step, Pool.step, hv, hnone] using h
    | fail e =>
      have hnone : stride w p.pool (.work v o) = none := stride_idle (by rw [hv]; trivial)
      simpa [Observed.step, Pool.step, hv, hnone] using h
    | call op next =>
      simp only [Steady, onCalls, hv] at hs
      have hlift : ¬ lifts op o := by
        cases op <;> first | exact id | exact hs
      have hp : permits (p.ghost v) op := (hk.may hv).resolve_left (by simp [hsure v])
      have hstep := spaced_call (v := v) (w := w) h hp (hmax v) hlift
      have hstate : (p.step protocol machine (.work v o)).pool.state =
          (exec v op o p.pool.state).2 := by
        simp only [Observed.step, Pool.step, hv]
        rfl
      have hlog : (stride w p.pool (.work v o)).toList = if v = w then
          (stride_of op (exec v op o p.pool.state).1 (p.pool.state.tick o).now).toList else [] := by
        by_cases hvw : v = w
        · subst hvw
          simp only [stride, if_true, hv]
        · simp only [stride, if_neg hvw, Option.toList_none]
      rw [hstate, hlog]
      exact hstep

theorem spaced_run {least w : Nat} {limits : Nat → Option Nat} {l : Nat → List Stride}
    {moves : List (Move Oracle Outside)} (hk : p.Keeps protocol (fun _ => True))
    (ht : ∀ v, Tallied (limits v) (p.ghost v) (l v))
    (hmax : ∀ v n, (p.ghost v).max_secs = some n → least ≤ n)
    (hs : Along machine (Steady least) p.pool moves) (h : Spaced least (l w) p.pool.state) :
    Spaced least (l w ++ strides w p.pool moves) (p.run protocol machine moves).pool.state := by
  induction moves generalizing p l with
  | nil => simpa [strides] using h
  | cons m ms ih =>
    have hstep : Spaced least (l w ++ (stride w p.pool m).toList) _ :=
      spaced_step hk (fun v => (ht v).sure) hmax hs.1 h
    have := ih (hk.step m (fun _ _ => trivial)) (tallied_step hk ht m) (capped_step hs.1 hmax)
      hs.2 hstep
    rwa [List.append_assoc] at this

/-- Whatever claims a worker makes, no row is twice in one. -/
theorem nodup_claims (w : Nat) (p : Workers) (moves : List (Move Oracle Outside)) :
    ∀ wave ∈ claims (strides w p moves), wave.2.Nodup := by
  induction moves generalizing p with
  | nil => simp [strides, claims]
  | cons m ms ih =>
    intro wave hwave
    rw [strides, claims_append] at hwave
    rcases List.mem_append.mp hwave with hwave | hwave
    · match hstride : stride w p m with
      | none => simp [hstride, claims] at hwave
      | some (.through ids) => simp [hstride, claims] at hwave
      | some (.claimed now ids) =>
        simp only [hstride, claims, Option.toList_some, List.filterMap_cons, List.filterMap_nil,
          List.mem_singleton] at hwave
        subst hwave
        cases m with
        | crash v => simp [stride] at hstride
        | outside e => simp [stride] at hstride
        | work v o =>
          by_cases hvw : v = w
          · simp only [stride, if_pos hvw] at hstride
            cases hv : p.worker w with
            | done a => simp [hv] at hstride
            | fail e => simp [hv] at hstride
            | call op next =>
              simp only [hv] at hstride
              exact (claim_spec hstride).2.1
          · simp [stride, hvw] at hstride
    · exact ih _ wave hwave

/-- In every run, of any jobs from any database, a flush takes no more rows than its limit, is
through with each row once a claim, and takes a row again only when the shortest backoff has
passed since, unless an operator has lifted the lock. -/
theorem flushed_once {jobs : Nat → Job} {w limit : Nat} (hjob : jobs w = .flush limit) (db : Db)
    (now : model.DateTime) (notifiers : Notifier) (moves : List (Move Oracle Outside)) :
    FlushedOnce limit w (starting jobs (World.start db now notifiers)) moves := by
  have hk := coursing_keeps jobs (World.start db now notifiers)
  have hstart : ∀ v, Tallied (allowance (jobs v))
      ((coursing jobs (World.start db now notifiers)).ghost v) [] := by
    intro v
    refine ⟨rfl, List.Perm.refl _, ?_⟩
    intro n hn
    exact ⟨n, hn, by simp [taken, claims]⟩
  have ht := tallied_run hk hstart moves w
  rw [List.nil_append] at ht
  change Tallied _ _ (strides w (starting jobs (World.start db now notifiers)) moves) at ht
  refine ⟨?_, ⟨_, ht.todo, ?_⟩, nodup_claims w _ moves, ?_⟩
  · obtain ⟨k, -, hroom⟩ := ht.room limit (by rw [hjob]; rfl)
    omega
  · intro hcrash hended
    have hstarts : ((coursing jobs (World.start db now notifiers)).pool.worker w).Follows protocol
        (fun g _ => Drained g) ((coursing jobs (World.start db now notifiers)).ghost w) :=
      drains_work (jobs w)
    have hends := Observed.follows_run (M := machine) hstarts hcrash
    rw [Observed.pool_run] at hends
    have hdrained : Drained ((Observed.run protocol machine
        (coursing jobs (World.start db now notifiers)) moves).ghost w) := by
      change Ended ((Pool.run machine (coursing jobs (World.start db now notifiers)).pool
        moves).worker w) at hended
      cases hw : (Pool.run machine (coursing jobs (World.start db now notifiers)).pool
          moves).worker w with
      | done a =>
        rw [hw] at hends
        exact hends
      | fail e =>
        rw [hw] at hends
        exact hends
      | call op next =>
        rw [hw] at hended
        exact False.elim hended
    exact hdrained.resolve_left (by simp [ht.sure])
  · intro least hs
    have hnone : Spaced least [] (World.start db now notifiers) :=
      ⟨List.Pairwise.nil, fun c hc => absurd hc (by simp [claims])⟩
    have hspaced := spaced_run (w := w) hk hstart (fun v n hn => by cases hn) hs hnone
    rw [List.nil_append] at hspaced
    exact hspaced.apart

/-- Every batch is dealt to its units, the loop over the waves ends by itself, and a flush is
through with each row once a claim. -/
theorem flush_handles_each_claim_once (order : List Nat) (wave : List OutboxRecord)
    (concurrency : Nat) {fuel left : Nat} (hfuel : left ≤ fuel) (st : FlushState)
    {jobs : Nat → Job} {w limit : Nat} (hjob : jobs w = .flush limit) (db : Db)
    (now : model.DateTime) (notifiers : Notifier) (moves : List (Move Oracle Outside)) :
    Partitioned wave (partition_for_digest order wave) ∧
      flush_waves concurrency fuel left st = flush_waves concurrency left left st ∧
      FlushedOnce limit w (starting jobs (World.start db now notifiers)) moves :=
  ⟨partition_partitions order wave, flush_waves_fuel concurrency st hfuel (Nat.le_refl left),
    flushed_once hjob db now notifiers moves⟩

/-! ## A row that comes up twice -/

def release (version : String) : Event where
  source_id := "github:o/r"
  source_kind := "GitHub"
  title := "r: new release " ++ version
  body := ""
  url := none
  routing_tag := none

def hook : RoutedSink := ⟨⟨.webhook, "hook", "https://example.test/hook"⟩, []⟩

/-- Two releases that no sink has. -/
def two_rows : Db :=
  (insert_outbox (insert_outbox Db.empty 0 (release "v1") "v1" ⟨none, none, none, none⟩).2 0
    (release "v2") "v2" ⟨none, none, none, none⟩).2

def one_flush : Nat → Job
  | 1 => .flush 3
  | _ => .idle

def turns (n : Nat) : List (Move Oracle Outside) := List.replicate n (.work 1 {})

/-- The send of the first row fails and leaves it locked for a minute; the send of the second takes
longer than that. -/
def slow_send : List (Move Oracle Outside) :=
  turns 8 ++ [.work 1 { notify := .error (.http "timeout") }] ++ turns 14 ++
    [.work 1 { elapsed := 61000000 }] ++ turns 7

def record (id : Nat) (deliver_after : Option model.DateTime) (routing_tag : Option String) :
    OutboxRecord :=
  ⟨id, "github:o/r", toString id, none, none, none, "r: new release", "", none, routing_tag, "GitHub",
    0, deliver_after⟩

/-- A plain row between deferred ones of two moments and two tags. -/
def mixed_wave : List OutboxRecord :=
  [record 1 (some 5) none, record 2 none none, record 3 (some 9) none, record 4 (some 5) none,
    record 5 (some 5) (some "a")]

theorem flush_handles_each_claim_once_here :
    (partition_for_digest [1] mixed_wave).map (fun unit => ids_of unit.rows) =
        [[2], [1, 4], [3], [5]] ∧
      Partitioned mixed_wave (partition_for_digest [1] mixed_wave) ∧
      flush_waves 1 5 3 ⟨0, none⟩ = flush_waves 1 3 3 ⟨0, none⟩ ∧
      FlushedOnce 3 1 (starting one_flush (World.start two_rows 0 [hook])) slow_send :=
  ⟨by decide +kernel, flush_handles_each_claim_once [1] mixed_wave 1 (by decide) ⟨0, none⟩
    (show one_flush 1 = .flush 3 from rfl) two_rows 0 [hook] slow_send⟩

/-- The third wave of the flush claims the first row again. -/
theorem a_row_comes_up_twice_in_one_flush :
    ¬ ∀ (jobs : Nat → Job) (w limit : Nat) (_ : jobs w = .flush limit) (db : Db)
      (now : model.DateTime) (notifiers : Notifier) (moves : List (Move Oracle Outside)),
      (taken (strides w (starting jobs (World.start db now notifiers)) moves)).Nodup := by
  intro h
  have hnodup := h one_flush 1 3 rfl two_rows 0 [hook] slow_send
  have htaken : taken (strides 1 (starting one_flush (World.start two_rows 0 [hook])) slow_send) =
      [1, 2, 1] := by
    decide +kernel
  rw [htaken] at hnodup
  exact absurd hnodup (by decide)

end xrelease.waves
