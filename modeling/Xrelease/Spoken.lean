-- What the pipeline's programs say, and when. An event goes to a sink only for a thing that the
-- worker has taken up before, and a row that a worker's call made dead is the subject of its
-- very next call, a dead-letter report; it makes no other one.
import Xrelease.Follows
import Xrelease.Pieces

namespace xrelease.spoken

open xrelease.model xrelease.store xrelease.engine xrelease.outbox xrelease.pipeline
open xrelease.pieces keyed calls calls.Prog text

/-! ## Things to deliver -/

/-- What one attempt is about: an outbox row with its content, or the rows of a digest. -/
inductive Thing where
  | row (id : Nat) (event : Event) (om : OutboxMeta)
  | digest (rows : List OutboxRecord)
deriving DecidableEq

def meta_of_record (row : OutboxRecord) : OutboxMeta :=
  ⟨row.content_digest, row.display_tag, row.published_at, row.deliver_after⟩

def thing_of : DeliveryUnit → Thing
  | .single row => .row row.id row.to_event (meta_of_record row)
  | .digest rows => .digest rows

/-- The rows a thing speaks for. -/
def Thing.ids : Thing → List Nat
  | .row id _ _ => [id]
  | .digest rows => rows.map (·.id)

/-- The event of a thing, before advisories are attached. -/
def Thing.event : Thing → Event
  | .row _ event _ => event
  | .digest rows => build_digest_event rows

/-- An event that goes out for a thing: its own, or with a text added to the body. -/
def SpeaksFor (thing : Thing) (ids : List Nat) (event : Event) : Prop :=
  ids = thing.ids ∧
    (event = thing.event ∨ ∃ text, event = { thing.event with body := thing.event.body ++ text })

/-- The things of a claimed wave; the order of the map's groups does not matter. -/
def things_of (wave : List OutboxRecord) : List Thing := (partition_for_digest [] wave).map thing_of

theorem mem_partition (order : List Nat) {wave : List OutboxRecord} {unit : DeliveryUnit}
    (h : unit ∈ partition_for_digest order wave) : thing_of unit ∈ things_of wave := by
  refine List.mem_map_of_mem (f := thing_of) ?_
  unfold partition_for_digest at *
  simp only [List.mem_append, List.mem_map, mem_arrange] at *
  exact h

/-! ## Reports -/

/-- What made rows dead: a call for one row, or the sweep. -/
inductive Incident where
  | row (id : Nat)
  | sweep (count : Nat)
deriving DecidableEq

def dead_title (source_id : String) : String := s!"Outbox dead: {source_id}"

def dead_body (id : Nat) (source_id : String) : String :=
  s!"Notification outbox row `{id}` for source `{source_id}` exhausted delivery retries and was marked dead."

def sweep_body (marked : Nat) : String :=
  s!"{marked} notification outbox row(s) were marked dead after exhausting delivery retries (max_attempts={OUTBOX_MAX_ATTEMPTS})."

/-- The report of an incident. -/
def Reports (incident : Incident) (title body : String) : Prop :=
  match incident with
  | .row id => ∃ source_id, title = dead_title source_id ∧ body = dead_body id source_id
  | .sweep marked => title = "Outbox dead-letter sweep" ∧ body = sweep_body marked

/-- A dead-letter report, by its title. -/
def is_dead_letter (title : String) : Bool := (strip_prefix_of "Outbox dead" title).isSome

theorem not_starts_with {c d : Char} (h : c ≠ d) (l : List Char) (pre s : String)
    (hpre : pre.toList = c :: l) (hs : s.toList.head? = some d) : strip_prefix_of pre s = none := by
  unfold strip_prefix_of
  rw [hpre]
  obtain ⟨rest, hrest⟩ : ∃ rest, s.toList = d :: rest := by
    cases hl : s.toList with
    | nil => rw [hl] at hs; cases hs
    | cons a rest =>
      rw [hl] at hs
      cases hs
      exact ⟨rest, rfl⟩
  rw [hrest, if_neg]
  simp [List.isPrefixOf, h]

theorem breaker_is_no_dead_letter (label : String) :
    is_dead_letter s!"Sink breaker open: {label}" = false := by
  unfold is_dead_letter
  rw [not_starts_with (c := 'O') (d := 'S') (by decide) "utbox dead".toList _ _ rfl]
  · rfl
  · rw [String.toList_append, List.head?_append]
    rfl

theorem dead_title_is_dead_letter (source_id : String) :
    is_dead_letter (dead_title source_id) = true := by
  unfold is_dead_letter strip_prefix_of dead_title
  rw [if_pos]
  · rfl
  · rw [List.isPrefixOf_iff_prefix]
    exact ⟨": ".toList ++ source_id.toList, by simp [String.toList_append]; rfl⟩

theorem sweep_is_dead_letter : is_dead_letter "Outbox dead-letter sweep" = true := by
  decide +kernel

theorem report_is_dead_letter {incident : Incident} {title body : String}
    (h : Reports incident title body) : is_dead_letter title = true := by
  cases incident with
  | row id =>
    obtain ⟨source_id, rfl, -⟩ := h
    exact dead_title_is_dead_letter source_id
  | sweep marked =>
    obtain ⟨rfl, -⟩ := h
    exact sweep_is_dead_letter

/-! ## The protocol -/

/-- What a worker has in hand: the row it put into the outbox last, the things it took up, and
the incident it has yet to report. -/
structure Hand where
  holding : Option (Nat × Event × OutboxMeta)
  up : List Thing
  owed : Option Incident

def Hand.empty : Hand := ⟨none, [], none⟩

def Hand.hold (g : Hand) (id : Nat) (event : Event) (om : OutboxMeta) : Hand :=
  { g with holding := some (id, event, om) }

def Hand.take (g : Hand) (things : List Thing) : Hand := { g with up := g.up ++ things }

def Hand.owe (g : Hand) (incident : Incident) : Hand := { g with owed := some incident }

/-- The thing of the row in hand. -/
def Hand.held (g : Hand) : List Thing := g.holding.toList.map (fun h => Thing.row h.1 h.2.1 h.2.2)

/-- The hand after a call and its answer. -/
def after {β : Type} (g : Hand) (op : Call β) (r : Except PipelineError β) : Hand :=
  match op with
  | .insert_outbox event _ om =>
    match r with
    | .ok (some id) => g.hold id event om
    | _ => g
  | .reopen_outbox event om id =>
    match r with
    | .ok true => g.hold id event om
    | _ => g
  | .claim_outbox_row _ _ =>
    match r with
    | .ok true => g.take g.held
    | _ => g
  | .claim_outbox_batch _ _ =>
    match r with
    | .ok wave => g.take (things_of wave)
    | _ => g
  | .fail_notification id _ =>
    match r with
    | .ok true => g.owe (.row id)
    | _ => g
  | .mark_outbox_dead id =>
    match r with
    | .ok true => g.owe (.row id)
    | _ => g
  | .finalize_exhausted_outbox =>
    match r with
    | .ok marked => if marked > 0 then g.owe (.sweep marked) else g
    | _ => g
  | .emit_ops_alert title _ => if is_dead_letter title then { g with owed := none } else g
  | _ => g

/-- What a hand that owes nothing asks of a call. -/
def asks {β : Type} (g : Hand) (op : Call β) : Prop :=
  match op with
  | .emit_ops_alert title _ => is_dead_letter title = false
  | .notify ids _ _ event => ∃ thing ∈ g.up, SpeaksFor thing ids event
  | .claim_outbox_row id _ => g.holding.map Prod.fst = some id
  | _ => True

/-- The call is the report of an incident. -/
def pays {β : Type} (incident : Incident) (op : Call β) : Prop :=
  match op with
  | .emit_ops_alert title body => Reports incident title body
  | _ => False

/-- The calls that a hand permits: an owed report comes first. -/
def may {β : Type} (g : Hand) (op : Call β) : Prop :=
  match g.owed with
  | some incident => pays incident op
  | none => asks g op

theorem may_open {β : Type} {g : Hand} {op : Call β} (hg : g.owed = none) (h : asks g op) :
    may g op := by
  unfold may
  rw [hg]
  exact h

def protocol : Protocol Call PipelineError Hand := ⟨may, after⟩

/-- The calls that neither change the hand nor need anything of it. -/
def plain {β : Type} (op : Call β) : Bool :=
  match op with
  | .insert_outbox _ _ _ | .reopen_outbox _ _ _ | .claim_outbox_row _ _ | .claim_outbox_batch _ _
  | .fail_notification _ _ | .mark_outbox_dead _ | .finalize_exhausted_outbox
  | .emit_ops_alert _ _ | .notify _ _ _ _ => false
  | _ => true

theorem after_plain {β : Type} {op : Call β} (h : plain op = true) (g : Hand)
    (r : Except PipelineError β) : after g op r = g := by
  cases op <;> first | rfl | simp [plain] at h

theorem may_plain {β : Type} {op : Call β} (h : plain op = true) {g : Hand}
    (hg : g.owed = none) : may g op := by
  refine may_open hg ?_
  cases op <;> trivial

/-! ## Pieces that keep to it -/

/-- The hand has grown and owes nothing. -/
structure Grown (g g' : Hand) : Prop where
  up : ∀ thing ∈ g.up, thing ∈ g'.up
  owed : g'.owed = none

theorem Grown.refl {g : Hand} (h : g.owed = none) : Grown g g := ⟨fun _ ht => ht, h⟩

theorem Grown.trans {g₁ g₂ g₃ : Hand} (h : Grown g₁ g₂) (h' : Grown g₂ g₃) : Grown g₁ g₃ :=
  ⟨fun t ht => h'.up t (h.up t ht), h'.owed⟩

/-- Wherever these things are taken up and nothing is owed, the program keeps to the protocol and
leaves nothing owed. -/
def Says (things : List Thing) {α : Type} (p : Work α) : Prop :=
  ∀ g : Hand, g.owed = none → (∀ thing ∈ things, thing ∈ g.up) →
    p.Follows protocol (fun g' _ => Grown g g') g

section Pieces

variable {things : List Thing} {α β : Type}

theorem says_done (a : α) : Says things (done a) := fun _ hg _ => Grown.refl hg

theorem says_fail (e : PipelineError) : Says things (fail e : Work α) := fun _ hg _ => Grown.refl hg

theorem says_bind {p : Work α} {f : α → Work β} (hp : Says things p)
    (hf : ∀ a, Says things (f a)) : Says things (p.bind f) := by
  intro g hg ht
  apply follows_bind
  refine follows_mono (hp g hg ht) ?_
  intro g' r hgrown
  cases r with
  | error e => exact hgrown
  | ok a =>
    refine follows_mono (hf a g' hgrown.owed (fun t h => hgrown.up t (ht t h))) ?_
    exact fun _ _ h => hgrown.trans h

theorem says_caught {p : Work α} (hp : Says things p) : Says things p.caught :=
  fun g hg ht => follows_caught (hp g hg ht)

theorem says_resume (r : Except PipelineError α) : Says things (resume r) := by
  cases r with
  | ok a => exact says_done a
  | error e => exact says_fail e

theorem says_call {op : Call α} (h : plain op = true) : Says things (perform op) := by
  intro g hg _
  refine follows_perform (may_plain h hg) (fun r => ?_)
  change Grown g (after g op r)
  rw [after_plain h]
  exact Grown.refl hg

theorem compositional_says : Compositional (Says things) (fun op => plain op = true) where
  done := says_done
  fail := says_fail
  bind := says_bind
  caught := says_caught
  call := says_call

/-- The report that is owed settles the debt. -/
theorem follows_report {incident : Incident} {title body : String} (h : Reports incident title body)
    (g : Hand) :
    (perform (.emit_ops_alert title body) : Work Unit).Follows protocol (fun g' _ => Grown g g')
      (g.owe incident) := by
  refine follows_perform h (fun r => ?_)
  change Grown g (if is_dead_letter title then { g.owe incident with owed := none }
    else g.owe incident)
  rw [report_is_dead_letter h, if_pos rfl]
  exact ⟨fun _ ht => ht, rfl⟩

/-- A call that may make a row dead, and the report when it did. -/
theorem says_incident {op : Call Bool} {id : Nat} (source_id : String)
    (hmay : ∀ g : Hand, g.owed = none → may g op)
    (hafter : ∀ (g : Hand) r, after g op r = if r = .ok true then g.owe (.row id) else g) :
    Says things ((perform op).bind
      (fun dead => if dead then emit_dead_outbox_alert id source_id else done ())) := by
  intro g hg _
  apply follows_bind
  refine follows_perform (hmay g hg) (fun r => ?_)
  have hr := hafter g r
  change protocol.after g op r = _ at hr
  rw [hr]
  match r with
  | .error e =>
    rw [if_neg (by simp)]
    exact Grown.refl hg
  | .ok false =>
    rw [if_neg (by simp)]
    exact Grown.refl hg
  | .ok true =>
    rw [if_pos rfl]
    exact follows_report (show Reports (.row id) _ _ from ⟨source_id, rfl, rfl⟩) g

end Pieces

/-! ## The delivery -/

section Delivery

variable {things : List Thing} {α β : Type}

theorem says_if {p q : Work α} {c : Prop} [Decidable c] (hp : Says things p) (hq : Says things q) :
    Says things (if c then p else q) := by
  split
  · exact hp
  · exact hq

theorem says_notify {thing : Thing} (h : thing ∈ things) {ids : List Nat} {event : Event}
    (hs : SpeaksFor thing ids event) (index : Nat) (sink : RoutedSink) :
    Says things (perform (.notify ids index sink event)) := by
  intro g hg ht
  exact follows_perform (may_open hg ⟨thing, ht thing h, hs⟩) (fun _ => Grown.refl hg)

theorem says_breaker_alerts : Says things emit_breaker_alerts := by
  refine says_bind (says_call rfl) (fun labels => ?_)
  induction labels with
  | nil => exact says_done ()
  | cons label rest ih =>
    refine says_bind ?_ (fun _ => ih)
    intro g hg _
    have hnot := breaker_is_no_dead_letter label
    refine follows_perform (may_open hg hnot) (fun r => ?_)
    change Grown g (if is_dead_letter _ then { g with owed := none } else g)
    rw [hnot]
    exact Grown.refl hg

theorem says_fail_outbox_row_alert (id : Nat) (source_id error : String) :
    Says things (fail_outbox_row_alert id source_id error) :=
  says_incident source_id (fun g hg => may_open hg trivial)
    (fun g r => by
      match r with
      | .error e => rfl
      | .ok false => rfl
      | .ok true => rfl)

theorem says_sync_outbox_status_alert (id : Nat) (source_id : String) :
    Says things (sync_outbox_status_alert id source_id) := by
  unfold sync_outbox_status_alert sync_outbox_sink_status
  simp only [bind_eq, bind_assoc]
  refine says_bind (says_call rfl) (fun c => ?_)
  split
  · exact says_done ()
  · split
    · exact says_incident source_id (fun g hg => may_open hg trivial)
        (fun g r => by
          match r with
          | .error e => rfl
          | .ok false => rfl
          | .ok true => rfl)
    · rw [bind_assoc]
      exact says_bind (says_call rfl) (fun _ => says_done ())

theorem says_complete_or_failed (id : Nat) (source_id : String) (seen : SeenUpsert) :
    Says things (complete_or_failed id source_id seen) :=
  says_bind (says_call rfl) (fun _ => says_done _)

theorem attends_plain {id : Nat} {γ : Type} (op : Call γ) (h : attends id op) :
    plain op = true := by
  cases op <;> first | rfl | exact h.elim

theorem says_settles (id : Nat) (source_id : String) (seen : SeenUpsert) :
    Settles (Says things) (fun op => plain op = true) id source_id seen where
  attends := attends_plain
  fails := says_fail_outbox_row_alert id source_id
  syncs := says_sync_outbox_status_alert id source_id
  completes := says_complete_or_failed id source_id seen

theorem says_round {thing : Thing} (h : thing ∈ things) {ids : List Nat} {event : Event}
    (hs : SpeaksFor thing ids event) (n : Notifier) (indices : List Nat) :
    Says things ( notify_partial n ids event indices) :=
  keeps_round compositional_says.toSequential (fun _ => rfl) (says_notify h hs) indices

theorem says_deliver_to_pending_sinks {id : Nat} {event base : Event} {om : OutboxMeta}
    (h : Thing.row id base om ∈ things) (hs : SpeaksFor (.row id base om) [id] event)
    (source_id : String) (seen : SeenUpsert) :
    Says things (deliver_to_pending_sinks id event source_id seen) :=
  keeps_deliver compositional_says.toSequential (says_settles id source_id seen) (says_round h hs)
    says_breaker_alerts

theorem says_backoff_after (id attempts_before : Nat)
    (outcome : Except PipelineError DeliveryAttempt) :
    Says things (backoff_after id attempts_before outcome) := by
  cases outcome with
  | error e => exact says_done ()
  | ok attempt =>
    refine says_if (says_done ()) (says_bind (says_call rfl) (fun max_secs => ?_))
    refine says_bind (says_caught (says_if ?_ ?_)) (fun _ => says_done ())
    · exact says_call rfl
    · exact says_call rfl

/-- An attempt speaks only for its row's own event, with or without advisories. -/
theorem says_attempt {id : Nat} {context : DeliveryContext} {om : OutboxMeta}
    (h : Thing.row id context.event om ∈ things) (attempts_before : Nat) :
    Says things (attempt_notification_delivery id attempts_before context) := by
  unfold attempt_notification_delivery enrich_with_advisories
  simp only [bind_eq, bind_assoc, pure_eq, done_bind]
  refine says_bind (says_call rfl) (fun rendered => ?_)
  have hs : SpeaksFor (.row id context.event om) [id]
      ((rendered.map (fun text => { context.event with body := context.event.body ++ text })).getD
        context.event) := by
    refine ⟨rfl, ?_⟩
    cases rendered with
    | none => exact Or.inl rfl
    | some text => exact Or.inr ⟨text, rfl⟩
  refine says_bind (says_caught (says_deliver_to_pending_sinks h hs context.source_id context.seen))
    (fun outcome => ?_)
  refine says_bind (says_backoff_after id attempts_before outcome) (fun _ => ?_)
  refine says_bind (says_call rfl) (fun _ => says_bind (says_resume outcome) (fun _ => says_done _))

theorem says_claimed_row {row : OutboxRecord} (h : thing_of (.single row) ∈ things) :
    Says things (deliver_claimed_outbox_row row) := says_attempt h row.attempts

/-! ## The digest -/

/-- A digest speaks for its group. -/
theorem says_deliver_digest {group : List OutboxRecord} (h : Thing.digest group ∈ things) :
    Says things (deliver_digest_to_pending_sinks (build_digest_event group) group) :=
  keeps_deliver_digest compositional_says.toSequential rfl
    (fun row _ => says_settles row.id row.source_id _) (says_round h ⟨rfl, Or.inl rfl⟩)
    says_breaker_alerts

theorem says_backoff_group (pairs : List (OutboxRecord × DeliveryAttempt)) :
    Says things (backoff_group pairs) :=
  keeps_backoff_group compositional_says.toSequential (fun _ _ => says_backoff_after _ _)

theorem says_deliver_unit {unit : DeliveryUnit} (h : thing_of unit ∈ things) :
    Says things (deliver_unit unit) := by
  cases unit with
  | single row => exact says_bind (says_claimed_row h) (fun _ => says_done _)
  | digest group =>
    refine says_bind (says_caught (says_bind (says_deliver_digest h)
      (fun outcomes => says_backoff_group _))) (fun outcome => ?_)
    exact says_bind (says_call rfl) (fun _ => says_resume outcome)

theorem says_deliver_wave {units : List DeliveryUnit} (h : ∀ u ∈ units, thing_of u ∈ things)
    (st : FlushState) : Says things (deliver_wave st units) := by
  induction units generalizing st with
  | nil => exact says_done st
  | cons unit rest ih =>
    have hrest : ∀ st, Says things (deliver_wave st rest) :=
      ih (fun u hu => h u (List.mem_cons_of_mem _ hu))
    refine says_bind (says_caught (says_deliver_unit (h unit List.mem_cons_self))) (fun result => ?_)
    cases result with
    | ok rows => exact hrest _
    | error err => exact hrest _

/-! ## The flush and the sweeps -/

/-- After a claim the wave's things are up. -/
theorem says_claim_batch {limit lease_secs : Nat} {f : List OutboxRecord → Work α}
    (hf : ∀ wave, Says (things_of wave) (f wave)) :
    Says things ((perform (.claim_outbox_batch limit lease_secs)).bind f) := by
  intro g hg _
  apply follows_bind
  refine follows_perform (may_open hg trivial)
    (fun r => ?_)
  cases r with
  | error e => exact Grown.refl hg
  | ok wave =>
    have htaken : Grown g (g.take (things_of wave)) :=
      ⟨fun t ht => List.mem_append_left _ ht, hg⟩
    exact follows_mono (hf wave (g.take (things_of wave)) hg
      (fun t ht => List.mem_append_right _ ht)) (fun _ _ h => htaken.trans h)

theorem says_flush_waves (concurrency fuel left : Nat) (st : FlushState) :
    Says things (flush_waves concurrency fuel left st) := by
  induction fuel generalizing left st things with
  | zero => exact says_done st
  | succ fuel ih =>
    unfold flush_waves
    refine says_if (says_done st) (says_claim_batch (fun wave => ?_))
    refine says_if (says_done st) (says_bind (says_call rfl) (fun order => ?_))
    refine says_bind (says_deliver_wave (fun u hu => mem_partition order hu) st) (fun st => ?_)
    exact says_if (says_done st) (ih _ st)

theorem says_flush (limit : Nat) : Says things (flush_notification_outbox limit) :=
  keeps_flush compositional_says rfl says_flush_waves limit

theorem says_reconcile : Says things reconcile_exhausted_outbox := by
  intro g hg _
  apply follows_bind
  apply follows_caught
  refine follows_perform (may_open hg trivial) (fun r => ?_)
  cases r with
  | error e => exact Grown.refl hg
  | ok marked =>
    by_cases hm : marked > 0
    · have howe : protocol.after g Call.finalize_exhausted_outbox (.ok marked) =
          g.owe (.sweep marked) := if_pos hm
      rw [howe]
      simp only [hm, if_true]
      exact follows_report (show Reports (.sweep marked) _ _ from ⟨rfl, rfl⟩) g
    · have hnone : protocol.after g Call.finalize_exhausted_outbox (.ok marked) = g := if_neg hm
      rw [hnone]
      simp only [hm, if_false]
      exact Grown.refl hg

theorem says_requeue : Says things requeue_dead :=
  says_bind (says_call rfl) (fun _ => says_done ())

/-! ## The poll and the push -/

/-- What the hand holds when a row is to be delivered inline. -/
def Holding (event : Event) (om : OutboxMeta) (g g' : Hand)
    (r : Except PipelineError (Option EnqueueOutcome)) : Prop :=
  Grown g g' ∧ ∀ enqueued, r = .ok (some enqueued) → enqueued.deliver_now = true →
    g'.holding = some (enqueued.id, event, om)

theorem follows_try_enqueue (event : Event) (identity : String) (om : OutboxMeta) {g : Hand}
    (hg : g.owed = none) :
    (try_enqueue_notification event identity om).Follows protocol (Holding event om g) g := by
  have hnone {r : Except PipelineError (Option EnqueueOutcome)}
      (hr : ∀ enqueued, r = .ok (some enqueued) → enqueued.deliver_now = false) :
      Holding event om g g r :=
    ⟨Grown.refl hg, fun enqueued he hd => absurd hd (by simp [hr enqueued he])⟩
  unfold try_enqueue_notification
  apply follows_bind
  refine follows_perform (may_open hg trivial) (fun r => ?_)
  cases r with
  | error e => exact hnone (by simp)
  | ok now =>
    apply follows_bind
    refine follows_perform (may_open hg trivial)
      (fun r => ?_)
    match r with
    | .error e => exact hnone (by simp)
    | .ok (some id) =>
      refine ⟨⟨fun _ ht => ht, hg⟩, fun enqueued he _ => ?_⟩
      cases he
      rfl
    | .ok none =>
      apply follows_bind
      refine follows_perform (may_open hg trivial)
        (fun r => ?_)
      match r with
      | .error e => exact hnone (by simp)
      | .ok none => exact hnone (by simp)
      | .ok (some (id, .pending, stored)) => exact hnone (by simp)
      | .ok (some (id, .failed, stored)) => exact hnone (by simp)
      | .ok (some (id, .dead, stored)) => exact hnone (by simp)
      | .ok (some (id, .sent, stored)) =>
        change (if stored = om.content_digest then done none else _ : Work _).Follows protocol _ g
        split
        · exact hnone (by simp)
        · apply follows_bind
          refine follows_perform (may_open hg trivial)
            (fun r => ?_)
          match r with
          | .error e => exact hnone (by simp)
          | .ok false => exact hnone (by simp)
          | .ok true =>
            refine ⟨⟨fun _ ht => ht, hg⟩, fun enqueued he _ => ?_⟩
            cases he
            rfl

/-- The row in hand is taken up with its lease, and delivered with the event in hand. -/
theorem follows_deliver_inline {watch : Watch} {release : Release} {enqueued : EnqueueOutcome}
    {om : OutboxMeta} {g : Hand} (hg : g.owed = none)
    (hh : enqueued.deliver_now = true →
      g.holding = some (enqueued.id, event_of watch release, om)) :
    (deliver_inline watch release enqueued).Follows protocol (fun g' _ => Grown g g') g := by
  unfold deliver_inline
  split
  · exact Grown.refl hg
  · rename_i hnow
    have hhold := hh (by simpa using hnow)
    apply follows_bind
    refine follows_perform (may_open hg ?_) (fun r => ?_)
    · change g.holding.map Prod.fst = some enqueued.id
      rw [hhold]
      rfl
    · match r with
      | .error e => exact Grown.refl hg
      | .ok false => exact Grown.refl hg
      | .ok true =>
        have htaken : Grown g (g.take g.held) := ⟨fun t ht => List.mem_append_left _ ht, hg⟩
        have hup : Thing.row enqueued.id (context_of watch release).event om ∈
            (g.take g.held).up := by
          refine List.mem_append_right _ ?_
          unfold Hand.held
          rw [hhold]
          exact List.mem_singleton_self _
        exact follows_mono (says_attempt (List.mem_singleton_self _) 0 (g.take g.held) hg
          (fun t ht => List.mem_singleton.mp ht ▸ hup)) (fun _ _ h => htaken.trans h)

theorem says_deliver_release (watch : Watch) (release : Release) :
    Says things (deliver_release watch release) := by
  refine says_bind ?_ (fun deliver_after => ?_)
  · unfold deliver_after_of
    split
    · exact says_done none
    · exact says_bind (says_call rfl) (fun now => says_done _)
  · intro g hg _
    apply follows_bind
    refine follows_mono (follows_try_enqueue _ _ _ hg) ?_
    rintro g₁ r ⟨hgrown, hhold⟩
    match r with
    | .error e => exact hgrown
    | .ok none => exact hgrown
    | .ok (some enqueued) =>
      apply follows_bind
      refine follows_perform (may_open hgrown.owed trivial) (fun r => ?_)
      cases r with
      | error e => exact hgrown
      | ok _ =>
        exact follows_mono (follows_deliver_inline hgrown.owed (hhold enqueued rfl))
          (fun _ _ h => hgrown.trans h)

theorem plain_of_polls {γ : Type} (op : Call γ) (h : polls op) : plain op = true := by
  cases op <;> first | rfl | exact (h.elim id (Or.elim · id id)).elim

/-- Every job of the engine keeps to the protocol. -/
theorem says_work (job : Job) : Says things job.work :=
  keeps_work compositional_says plain_of_polls says_deliver_release says_flush says_reconcile
    says_requeue job

end Delivery

/-! ## The engine, watched -/

/-- The engine about to start on its jobs, every worker with an empty hand. -/
def watched (jobs : Nat → Job) (s : World) : Observed Call PipelineError World Hand :=
  ⟨starting jobs s, fun _ => Hand.empty⟩

/-- Every worker keeps to the protocol and owes nothing at its end. -/
theorem watched_keeps (jobs : Nat → Job) (s : World) :
    (watched jobs s).Keeps protocol (fun g => g.owed = none) := by
  intro w
  have h : Says [] (jobs w).work := says_work (jobs w)
  exact follows_mono (h Hand.empty rfl (by simp)) (fun _ _ hgrown => hgrown.owed)

end xrelease.spoken
