-- What a run of recorded events adds up to, and that the registry holds it: every counter is its
-- tally modulo 2^64, and a histogram counts the durations it was shown.
import Xrelease.Metrics

namespace xrelease.metrics

open keyed text

/-! ## Sums by key -/

section
variable {κ σ ε : Type} [DecidableEq κ]

/-- What a list of amounts adds up to for a key. -/
def amount (k : κ) (l : List (κ × Nat)) : Nat := ((l.filter (fun p => p.1 = k)).map Prod.snd).sum

@[simp] theorem amount_nil (k : κ) : amount k [] = 0 := rfl

@[simp] theorem amount_cons (k : κ) (p : κ × Nat) (l : List (κ × Nat)) :
    amount k (p :: l) = (if p.1 = k then p.2 else 0) + amount k l := by
  unfold amount
  by_cases h : p.1 = k
  · simp [h]
  · simp [h]

theorem amount_append (k : κ) (l l' : List (κ × Nat)) :
    amount k (l ++ l') = amount k l + amount k l' := by
  simp [amount]

/-- A state whose readings grow by the amounts of each step holds the amounts of the run. -/
theorem run_amount {step : σ → ε → σ} {read : σ → κ → Nat} {counts : ε → List (κ × Nat)}
    (hstep : ∀ s e k, read s k < 2 ^ 64 →
      read (step s e) k = (read s k + amount k (counts e)) % 2 ^ 64)
    {s : σ} (hs : ∀ k, read s k = 0) (es : List ε) (k : κ) :
    read (es.foldl step s) k = amount k (es.flatMap counts) % 2 ^ 64 := by
  have hrun : ∀ (es : List ε) (s : σ), read s k < 2 ^ 64 →
      read (es.foldl step s) k = (read s k + amount k (es.flatMap counts)) % 2 ^ 64 := by
    intro es
    induction es with
    | nil =>
      intro s hlt
      exact (Nat.mod_eq_of_lt hlt).symm
    | cons e es ih =>
      intro s hlt
      have he := hstep s e k hlt
      have hlt' : read (step s e) k < 2 ^ 64 := by
        rw [he]
        exact Nat.mod_lt _ (by decide)
      rw [List.foldl_cons, ih _ hlt', he, List.flatMap_cons, amount_append]
      omega
  have h := hrun es s (by rw [hs k]; decide)
  rw [h, hs k, Nat.zero_add]

end

/-! ## What an event counts -/

/-- The process-wide counters. -/
def Event.totals : Event → List (Total × Nat)
  | .poll _ .not_modified => [(.polls_total, 1), (.polls_not_modified, 1)]
  | .poll _ .error => [(.polls_total, 1), (.polls_errors, 1)]
  | .poll _ _ => [(.polls_total, 1)]
  | .notifications _ count => [(.notifications_total, count)]
  | .sink_delivery _ _ .breaker => [(.notify_breaker_skips, 1)]
  | .breaker_skip => [(.notify_breaker_skips, 1)]
  | .outbox_enqueued count => [(.outbox_enqueued_total, count)]
  | .outbox_delivery_failure => [(.outbox_delivery_failures_total, 1)]
  | .outbox_dead_lettered count => [(.outbox_dead_lettered_total, count)]
  | .outbox_requeued count => [(.outbox_requeued_total, count)]
  | .http_rate_limited => [(.http_rate_limited_total, 1)]
  | .prune_deleted count => [(.prune_deleted_total, count)]
  | .webhook .accepted => [(.webhooks_accepted, 1)]
  | .webhook .ignored => [(.webhooks_ignored, 1)]
  | .webhook .duplicate => [(.webhooks_duplicates, 1)]
  | .webhook .error => [(.webhooks_errors, 1)]
  | .config_apply => [(.config_apply_total, 1)]
  | .config_apply_rejected => [(.config_apply_rejected_total, 1)]
  | _ => []

/-- The counters of a source, by its id. -/
def Event.sources : Event → List ((String × SourceCounter) × Nat)
  | .poll id .not_modified => [((id, .polls), 1), ((id, .polls_not_modified), 1)]
  | .poll id .error => [((id, .polls), 1), ((id, .polls_errors), 1)]
  | .poll id _ => [((id, .polls), 1)]
  | .notifications id count => [((id, .notifications), count)]
  | _ => []

/-- The deliveries of a sink, by its kind and its label. -/
def Event.sinks : Event → List (((String × String) × SinkDeliveryResult) × Nat)
  | .sink_delivery kind label result => [(((kind, label), result), 1)]
  | _ => []

def tally (c : Total) (events : List Event) : Nat := amount c (events.flatMap Event.totals)

def source_tally (id : String) (c : SourceCounter) (events : List Event) : Nat :=
  amount (id, c) (events.flatMap Event.sources)

def sink_tally (kind label : String) (result : SinkDeliveryResult) (events : List Event) : Nat :=
  amount ((kind, label), result) (events.flatMap Event.sinks)

/-! ## The counters hold the tallies -/

theorem bump_totals (m : Metrics) (c : Total) (n : Nat) (d : Total) (h : m.totals d < 2 ^ 64) :
    (m.bump c n).totals d = (m.totals d + if c = d then n else 0) % 2 ^ 64 := by
  unfold Metrics.bump fetch_add
  dsimp only
  by_cases hd : d = c
  · rw [if_pos hd, if_pos hd.symm]
  · rw [if_neg hd, if_neg (fun he => hd he.symm), Nat.add_zero, Nat.mod_eq_of_lt h]

theorem record_count_totals (m : Metrics) (c : Total) (n : Nat) (d : Total)
    (h : m.totals d < 2 ^ 64) :
    (m.record_count c n).totals d = (m.totals d + if c = d then n else 0) % 2 ^ 64 := by
  unfold Metrics.record_count
  split
  · rename_i hn
    subst hn
    rw [ite_self, Nat.add_zero, Nat.mod_eq_of_lt h]
  · exact bump_totals m c n d h

theorem record_totals (floats : Floats) (m : Metrics) (e : Event) (c : Total)
    (h : m.totals c < 2 ^ 64) :
    (m.record floats e).totals c = (m.totals c + amount c e.totals) % 2 ^ 64 := by
  have hsame : m.totals c = (m.totals c + amount c []) % 2 ^ 64 := (Nat.mod_eq_of_lt h).symm
  have hbump : ∀ d n, (m.bump d n).totals c = (m.totals c + amount c [(d, n)]) % 2 ^ 64 := by
    intro d n
    rw [bump_totals m d n c h]
    simp
  have hcount : ∀ d n,
      (m.record_count d n).totals c = (m.totals c + amount c [(d, n)]) % 2 ^ 64 := by
    intro d n
    rw [record_count_totals m d n c h]
    simp
  have htwice : ∀ d n d' n', ((m.bump d n).bump d' n').totals c =
      (m.totals c + amount c [(d, n), (d', n')]) % 2 ^ 64 := by
    intro d n d' n'
    rw [bump_totals _ d' n' c, hbump]
    · simp only [amount_cons, amount_nil]
      omega
    · rw [hbump]
      exact Nat.mod_lt _ (by decide)
  cases e with
  | poll id outcome =>
    cases outcome with
    | delivered => exact hbump .polls_total 1
    | no_op => exact hbump .polls_total 1
    | not_modified => exact htwice .polls_total 1 .polls_not_modified 1
    | error => exact htwice .polls_total 1 .polls_errors 1
  | poll_error id message => exact hsame
  | poll_duration duration => exact hsame
  | notify_duration duration => exact hsame
  | outbox_flush_duration duration => exact hsame
  | notifications id count =>
    have h' := hcount .notifications_total count
    unfold Metrics.record_count at h'
    unfold Metrics.record Metrics.record_notifications
    dsimp only
    split
    · rename_i hn
      rw [if_pos hn] at h'
      exact h'
    · rename_i hn
      rw [if_neg hn] at h'
      exact h'
  | sink_delivery kind label result =>
    cases result with
    | ok => exact hsame
    | error => exact hsame
    | breaker => exact hbump .notify_breaker_skips 1
  | breaker_skip => exact hbump .notify_breaker_skips 1
  | outbox_enqueued count => exact hcount .outbox_enqueued_total count
  | outbox_delivery_failure => exact hbump .outbox_delivery_failures_total 1
  | outbox_dead_lettered count => exact hcount .outbox_dead_lettered_total count
  | outbox_requeued count => exact hcount .outbox_requeued_total count
  | http_rate_limited => exact hbump .http_rate_limited_total 1
  | prune_deleted count => exact hcount .prune_deleted_total count
  | webhook outcome =>
    cases outcome with
    | accepted => exact hbump .webhooks_accepted 1
    | ignored => exact hbump .webhooks_ignored 1
    | duplicate => exact hbump .webhooks_duplicates 1
    | error => exact hbump .webhooks_errors 1
  | config_apply => exact hbump .config_apply_total 1
  | config_apply_rejected => exact hbump .config_apply_rejected_total 1

theorem recorded_totals (floats : Floats) (events : List Event) (c : Total) :
    (recorded floats events).totals c = tally c events % 2 ^ 64 :=
  run_amount (record_totals floats) (fun _ => rfl) events c

/-! ## The counters of sources and sinks -/

def Metrics.source_count (m : Metrics) (k : String × SourceCounter) : Nat :=
  (m.by_source.get k.1).elim 0 (·.count k.2)

def Metrics.sink_count (m : Metrics) (k : (String × String) × SinkDeliveryResult) : Nat :=
  (m.by_sink.get k.1).elim 0 (·.count k.2)

@[simp] theorem source_default (c : SourceCounter) : SourceMetrics.default.count c = 0 := by
  cases c <;> rfl

@[simp] theorem sink_default (result : SinkDeliveryResult) :
    SinkMetrics.default.count result = 0 := by
  cases result <;> rfl

/-- An entry is changed at its own id only, and a fresh one starts at zero. -/
theorem at_source_count (m : Metrics) (id : String) {f : SourceMetrics → SourceMetrics}
    {l : List ((String × SourceCounter) × Nat)} (hid : ∀ p ∈ l, p.1.1 = id)
    (hf : ∀ stats c, stats.count c < 2 ^ 64 →
      (f stats).count c = (stats.count c + amount (id, c) l) % 2 ^ 64)
    (k : String × SourceCounter) (h : m.source_count k < 2 ^ 64) :
    (m.at_source id f).source_count k = (m.source_count k + amount k l) % 2 ^ 64 := by
  obtain ⟨j, c⟩ := k
  unfold Metrics.source_count Metrics.at_source at *
  dsimp only at *
  rw [Table.get_upsert]
  by_cases hj : j = id
  · subst hj
    rw [if_pos rfl]
    cases hget : m.by_source.get j with
    | none =>
      have h' := hf .default c (by simp)
      rw [source_default] at h'
      exact h'
    | some stats =>
      rw [hget] at h
      exact hf stats c h
  · have hzero : amount (j, c) l = 0 := by
      clear hf h
      induction l with
      | nil => rfl
      | cons p l ih =>
        have hp := hid p List.mem_cons_self
        have hne : p.1 ≠ (j, c) := by
          intro he
          rw [he] at hp
          exact hj hp
        rw [amount_cons, if_neg hne, ih (fun q hq => hid q (List.mem_cons_of_mem _ hq))]
    rw [if_neg hj, hzero, Nat.add_zero, Nat.mod_eq_of_lt h]

theorem at_sink_count (m : Metrics) (kind label : String) (result : SinkDeliveryResult)
    (k : (String × String) × SinkDeliveryResult) (h : m.sink_count k < 2 ^ 64) :
    (m.at_sink kind label (·.delivered result)).sink_count k =
      (m.sink_count k + amount k [(((kind, label), result), 1)]) % 2 ^ 64 := by
  obtain ⟨j, r⟩ := k
  have hone : ∀ stats : SinkMetrics, stats.count r < 2 ^ 64 → (stats.delivered result).count r =
      (stats.count r + if result = r then 1 else 0) % 2 ^ 64 := by
    intro stats hlt
    by_cases hr : result = r
    · subst hr
      rw [if_pos rfl]
      cases result <;> rfl
    · rw [if_neg hr, Nat.add_zero, Nat.mod_eq_of_lt hlt]
      cases result <;> cases r <;> first | rfl | exact absurd rfl hr
  unfold Metrics.sink_count Metrics.at_sink at *
  dsimp only at *
  rw [Table.get_upsert]
  by_cases hj : j = (kind, label)
  · subst hj
    rw [if_pos rfl]
    cases hget : m.by_sink.get (kind, label) with
    | none =>
      have h' := hone .default (by simp)
      rw [sink_default] at h'
      simpa using h'
    | some stats =>
      rw [hget] at h
      have h' := hone stats h
      simpa using h'
  · have hne : ¬ (((kind, label), result) = (j, r)) := by
      intro he
      rw [Prod.mk.injEq] at he
      exact hj he.1.symm
    rw [if_neg hj, amount_cons, if_neg hne, amount_nil, Nat.add_zero, Nat.mod_eq_of_lt h]

theorem record_count_kept (m : Metrics) (c : Total) (n : Nat) :
    (m.record_count c n).by_source = m.by_source ∧ (m.record_count c n).by_sink = m.by_sink := by
  unfold Metrics.record_count
  split <;> exact ⟨rfl, rfl⟩

theorem polled_count (stats : SourceMetrics) (id : String) (outcome : PollOutcome)
    (c : SourceCounter) (h : stats.count c < 2 ^ 64) :
    (stats.polled outcome).count c =
      (stats.count c + amount (id, c) (Event.poll id outcome).sources) % 2 ^ 64 := by
  have hsame := (Nat.mod_eq_of_lt h).symm
  cases outcome <;> cases c <;>
    simp only [Event.sources, amount_cons, amount_nil, Prod.mk.injEq, true_and, reduceCtorEq,
      if_false, if_true, Nat.add_zero, Nat.zero_add] <;>
    first | rfl | exact hsame

theorem record_sources (floats : Floats) (m : Metrics) (e : Event) (k : String × SourceCounter)
    (h : m.source_count k < 2 ^ 64) :
    (m.record floats e).source_count k = (m.source_count k + amount k e.sources) % 2 ^ 64 := by
  have hsame : m.source_count k = (m.source_count k + amount k []) % 2 ^ 64 :=
    (Nat.mod_eq_of_lt h).symm
  have hkept : ∀ c n, (m.record_count c n).source_count k =
      (m.source_count k + amount k []) % 2 ^ 64 := by
    intro c n
    unfold Metrics.source_count at *
    rw [(record_count_kept m c n).1]
    exact hsame
  cases e with
  | poll id outcome =>
    have hbase : ∀ m' : Metrics, m'.by_source = m.by_source →
        (m'.at_source id (·.polled outcome)).source_count k =
          (m.source_count k + amount k (Event.poll id outcome).sources) % 2 ^ 64 := by
      intro m' hm
      have hk : m'.source_count k = m.source_count k := by
        unfold Metrics.source_count
        rw [hm]
      rw [← hk] at h ⊢
      refine at_source_count m' id ?_ (fun stats c => polled_count stats id outcome c) k h
      cases outcome <;> simp [Event.sources]
    cases outcome <;> exact hbase _ rfl
  | poll_error id message =>
    refine at_source_count m id (by simp [Event.sources]) (fun stats c hlt => ?_) k h
    have hcount : ({ stats with last_error := some message } : SourceMetrics).count c =
        stats.count c := by
      cases c <;> rfl
    rw [hcount]
    exact (Nat.mod_eq_of_lt hlt).symm
  | notifications id count =>
    unfold Metrics.record Metrics.record_notifications
    dsimp only
    split
    · rename_i hn
      subst hn
      simpa [Event.sources] using hsame
    · refine at_source_count (m.bump .notifications_total count) id ?_ (fun stats c hlt => ?_) k h
      · simp [Event.sources]
      · have hsame := (Nat.mod_eq_of_lt hlt).symm
        cases c <;>
          simp only [Event.sources, amount_cons, amount_nil, Prod.mk.injEq, true_and, reduceCtorEq,
            if_false, if_true, Nat.add_zero] <;>
          first | rfl | exact hsame
  | poll_duration duration => exact hsame
  | notify_duration duration => exact hsame
  | outbox_flush_duration duration => exact hsame
  | sink_delivery kind label result => cases result <;> exact hsame
  | breaker_skip => exact hsame
  | outbox_enqueued count => exact hkept .outbox_enqueued_total count
  | outbox_delivery_failure => exact hsame
  | outbox_dead_lettered count => exact hkept .outbox_dead_lettered_total count
  | outbox_requeued count => exact hkept .outbox_requeued_total count
  | http_rate_limited => exact hsame
  | prune_deleted count => exact hkept .prune_deleted_total count
  | webhook outcome => cases outcome <;> exact hsame
  | config_apply => exact hsame
  | config_apply_rejected => exact hsame

theorem record_sinks (floats : Floats) (m : Metrics) (e : Event)
    (k : (String × String) × SinkDeliveryResult) (h : m.sink_count k < 2 ^ 64) :
    (m.record floats e).sink_count k = (m.sink_count k + amount k e.sinks) % 2 ^ 64 := by
  have hsame : m.sink_count k = (m.sink_count k + amount k []) % 2 ^ 64 :=
    (Nat.mod_eq_of_lt h).symm
  have hkept : ∀ c n, (m.record_count c n).sink_count k =
      (m.sink_count k + amount k []) % 2 ^ 64 := by
    intro c n
    unfold Metrics.sink_count at *
    rw [(record_count_kept m c n).2]
    exact hsame
  cases e with
  | poll id outcome => cases outcome <;> exact hsame
  | poll_error id message => exact hsame
  | notifications id count =>
    unfold Metrics.record Metrics.record_notifications
    dsimp only
    split <;> exact hsame
  | poll_duration duration => exact hsame
  | notify_duration duration => exact hsame
  | outbox_flush_duration duration => exact hsame
  | sink_delivery kind label result =>
    have hsink := at_sink_count m kind label result k h
    cases result <;> exact hsink
  | breaker_skip => exact hsame
  | outbox_enqueued count => exact hkept .outbox_enqueued_total count
  | outbox_delivery_failure => exact hsame
  | outbox_dead_lettered count => exact hkept .outbox_dead_lettered_total count
  | outbox_requeued count => exact hkept .outbox_requeued_total count
  | http_rate_limited => exact hsame
  | prune_deleted count => exact hkept .prune_deleted_total count
  | webhook outcome => cases outcome <;> exact hsame
  | config_apply => exact hsame
  | config_apply_rejected => exact hsame

theorem recorded_sources (floats : Floats) (events : List Event) (id : String) (c : SourceCounter) :
    (recorded floats events).source_count (id, c) = source_tally id c events % 2 ^ 64 :=
  run_amount (record_sources floats) (fun _ => rfl) events (id, c)

theorem recorded_sinks (floats : Floats) (events : List Event) (kind label : String)
    (result : SinkDeliveryResult) :
    (recorded floats events).sink_count ((kind, label), result) =
      sink_tally kind label result events % 2 ^ 64 :=
  run_amount (record_sinks floats) (fun _ => rfl) events ((kind, label), result)

/-! ## The histograms count what they were shown -/

/-- The latency histograms of `Metrics`. -/
inductive Timing where
  | poll | notify | outbox_flush
deriving DecidableEq

def Metrics.histogram (m : Metrics) : Timing → Histogram
  | .poll => m.poll_duration
  | .notify => m.notify_duration
  | .outbox_flush => m.outbox_flush_duration

/-- The duration that an event shows a histogram. -/
def Event.duration (t : Timing) (e : Event) : Option Nat :=
  match t, e with
  | .poll, .poll_duration duration => some duration
  | .notify, .notify_duration duration => some duration
  | .outbox_flush, .outbox_flush_duration duration => some duration
  | _, _ => none

def durations (t : Timing) (events : List Event) : List Nat := events.filterMap (Event.duration t)

/-- The observations that fall within a bound, `+Inf` being the last. -/
def within_bound (floats : Floats) (ds : List Nat) (i : Nat) : Nat :=
  ds.countP (fun d => slot floats d ≤ i)

theorem record_histogram (floats : Floats) (m : Metrics) (e : Event) (t : Timing) :
    (m.record floats e).histogram t =
      (e.duration t).elim (m.histogram t) ((m.histogram t).observe floats) := by
  have hbump : ∀ c n, (m.record_count c n).histogram t = m.histogram t := by
    intro c n
    unfold Metrics.record_count
    split <;> cases t <;> rfl
  cases e with
  | poll id outcome => cases outcome <;> cases t <;> rfl
  | notifications id count =>
    unfold Metrics.record Metrics.record_notifications
    dsimp only
    split <;> cases t <;> rfl
  | sink_delivery kind label result => cases result <;> cases t <;> rfl
  | outbox_enqueued count =>
    have h := hbump .outbox_enqueued_total count
    cases t <;> exact h
  | outbox_dead_lettered count =>
    have h := hbump .outbox_dead_lettered_total count
    cases t <;> exact h
  | outbox_requeued count =>
    have h := hbump .outbox_requeued_total count
    cases t <;> exact h
  | prune_deleted count =>
    have h := hbump .prune_deleted_total count
    cases t <;> exact h
  | webhook outcome => cases outcome <;> cases t <;> rfl
  | _ => cases t <;> rfl

theorem recorded_histogram (floats : Floats) (events : List Event) (t : Timing) :
    (recorded floats events).histogram t =
      (durations t events).foldl (Histogram.observe floats) Histogram.new := by
  have hrun : ∀ (events : List Event) (m : Metrics),
      (events.foldl (Metrics.record floats) m).histogram t =
        (durations t events).foldl (Histogram.observe floats) (m.histogram t) := by
    intro events
    induction events with
    | nil => exact fun m => rfl
    | cons e events ih =>
      intro m
      rw [List.foldl_cons, ih, record_histogram]
      unfold durations
      cases hd : e.duration t with
      | none => rw [List.filterMap_cons_none hd, Option.elim_none]
      | some d => rw [List.filterMap_cons_some hd, List.foldl_cons, Option.elim_some]
  have h := hrun events Metrics.new
  cases t <;> exact h

/-- The counter of a bound is the number of observations that fall under it and not before. -/
def Counts (floats : Floats) (h : Histogram) (ds : List Nat) : Prop :=
  h.counts = (List.range 13).map (fun i => ds.countP (fun d => slot floats d = i) % 2 ^ 64) ∧
    h.count = ds.length % 2 ^ 64

theorem modify_range {n k : Nat} (f : Nat → Nat) (g : Nat → Nat) :
    ((List.range n).map f).modify k g =
      (List.range n).map (fun i => if i = k then g (f i) else f i) := by
  apply List.ext_getElem
  · simp
  · intro i hi hi'
    rw [List.getElem_modify]
    simp only [List.getElem_map, List.getElem_range]
    by_cases hk : k = i
    · rw [if_pos hk, if_pos hk.symm]
    · rw [if_neg hk, if_neg (fun he => hk he.symm)]

theorem observe_counts {floats : Floats} {h : Histogram} {ds : List Nat} (hc : Counts floats h ds)
    (d : Nat) : Counts floats (h.observe floats d) (ds ++ [d]) := by
  obtain ⟨hcounts, hcount⟩ := hc
  unfold Histogram.observe fetch_add
  refine ⟨?_, ?_⟩
  · dsimp only
    rw [hcounts, modify_range]
    refine List.map_congr_left (fun i _ => ?_)
    rw [List.countP_append, List.countP_singleton]
    by_cases hi : i = slot floats d
    · simp [hi]
    · have hi' : ¬ slot floats d = i := fun he => hi he.symm
      simp [hi, hi']
  · dsimp only
    rw [hcount, List.length_append, List.length_singleton]
    omega

theorem observed_counts (floats : Floats) (ds : List Nat) :
    Counts floats (ds.foldl (Histogram.observe floats) Histogram.new) ds := by
  induction ds using List.reverseRecOn with
  | nil => exact ⟨by simp [Histogram.new, latency_bounds, List.range_succ], rfl⟩
  | append_singleton ds d ih =>
    rw [List.foldl_append]
    exact observe_counts ih d

/-- The counts so far, as the loop over the buckets shows them. -/
def running : Nat → List Nat → List Nat
  | _, [] => []
  | cumulative, n :: ns => fetch_add cumulative n :: running (fetch_add cumulative n) ns

theorem running_range (f : Nat → Nat) (total : Nat → Nat) (k len cumulative : Nat)
    (hstart : cumulative + f k = total k)
    (hnext : ∀ i, total i + f (i + 1) = total (i + 1)) :
    running (cumulative % 2 ^ 64) ((List.range' k len).map (fun i => f i % 2 ^ 64)) =
      (List.range' k len).map (fun i => total i % 2 ^ 64) := by
  induction len generalizing k cumulative with
  | zero => rfl
  | succ len ih =>
    have hadd : fetch_add (cumulative % 2 ^ 64) (f k % 2 ^ 64) = total k % 2 ^ 64 := by
      unfold fetch_add
      rw [← hstart]
      omega
    rw [List.range'_succ, List.map_cons, List.map_cons, running, hadd,
      ih (k + 1) (total k) (hnext k)]

theorem within_bound_succ (floats : Floats) (ds : List Nat) (i : Nat) :
    within_bound floats ds i + ds.countP (fun d => slot floats d = i + 1) =
      within_bound floats ds (i + 1) := by
  unfold within_bound
  induction ds with
  | nil => rfl
  | cons d ds ih =>
    rw [List.countP_cons, List.countP_cons, List.countP_cons, ← ih]
    by_cases hle : slot floats d ≤ i
    · have hne : ¬ slot floats d = i + 1 := by omega
      have hle' : slot floats d ≤ i + 1 := by omega
      simp only [hle, hne, hle', decide_true, decide_false, if_true, Bool.false_eq_true, if_false]
      omega
    · by_cases he : slot floats d = i + 1
      · simp only [he, Nat.not_succ_le_self, Nat.le_refl, decide_true, decide_false, if_true,
          Bool.false_eq_true, if_false]
        omega
      · have hle' : ¬ slot floats d ≤ i + 1 := by omega
        simp only [hle, he, hle', decide_false, Bool.false_eq_true, if_false, Nat.add_zero]

/-- The buckets show, for each bound, the observations within it. -/
theorem running_counts {floats : Floats} {h : Histogram} {ds : List Nat}
    (hcounts : Counts floats h ds) :
    running 0 h.counts = (List.range 13).map (fun i => within_bound floats ds i % 2 ^ 64) := by
  have hzero : 0 + ds.countP (fun d => slot floats d = 0) = within_bound floats ds 0 := by
    unfold within_bound
    simp
  rw [hcounts.1, List.range_eq_range']
  exact running_range _ _ 0 13 0 hzero (within_bound_succ floats ds)

theorem within_bound_mono (floats : Floats) (ds : List Nat) {i j : Nat} (h : i ≤ j) :
    within_bound floats ds i ≤ within_bound floats ds j := by
  refine List.countP_mono_left (fun d _ hd => ?_)
  rw [decide_eq_true_eq] at hd ⊢
  omega

theorem within_bound_le (floats : Floats) (ds : List Nat) (i : Nat) :
    within_bound floats ds i ≤ ds.length := List.countP_le_length

/-- Every observation is within `+Inf`. -/
theorem within_infinity (floats : Floats) (ds : List Nat) :
    within_bound floats ds latency_bounds.length = ds.length := by
  refine List.countP_eq_length.mpr (fun d _ => ?_)
  rw [decide_eq_true_eq]
  unfold slot
  cases hfind : (List.range latency_bounds.length).find? (floats.within d) with
  | none => exact Nat.le_refl _
  | some i =>
    have hi := List.mem_range.mp (List.mem_of_find?_eq_some hfind)
    exact Nat.le_of_lt hi

end xrelease.metrics
