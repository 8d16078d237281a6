-- The breaker law: what a circuit breaker (`breaker.rs`) does over a whole run is settled by the
-- failures since the last success and by the time of the last of them, and every sink of the
-- notifier (`notify/mod.rs`) has such a run of its own, however the sinks take turns.
import Xrelease.Advisory

namespace xrelease.breaker

open xrelease.model xrelease.advisory

/-! ## A run -/

/-- What one breaker is asked and told, each with the time on the clock. -/
inductive Event where
  | allows (now : DateTime)
  | success (now : DateTime)
  | failure (now : DateTime)
deriving DecidableEq

def Event.now : Event → DateTime
  | .allows now => now
  | .success now => now
  | .failure now => now

def Breaker.new : Breaker := ⟨0, none⟩

/-- The failures since the last success. -/
def streak (events : List Event) : Nat :=
  events.foldl (fun failures e => match e with
    | .allows _ => failures
    | .success _ => 0
    | .failure _ => failures + 1) 0

/-- The time of the last failure. -/
def last_failure (events : List Event) : Option DateTime :=
  events.foldl (fun failed e => match e with
    | .failure now => some now
    | _ => failed) none

/-- Time does not go back. -/
def Monotone (events : List Event) : Prop := (events.map Event.now).Pairwise (· ≤ ·)

section
variable (failure_threshold : Nat) (cooldown : DateTime)

/-- The breaker after an event, and whether the event is reported as an opening. -/
def take (b : Breaker) : Event → Breaker × Bool
  | .allows _ => (b, false)
  | .success now => b.record now true failure_threshold cooldown
  | .failure now => b.record now false failure_threshold cooldown

def run (events : List Event) : Breaker :=
  events.foldl (fun b e => (take failure_threshold cooldown b e).1) Breaker.new

/-- After these events a failure at this time is reported as an opening. -/
def Reports (events : List Event) (now : DateTime) : Prop :=
  (take failure_threshold cooldown (run failure_threshold cooldown events) (.failure now)).2 = true

/-- The law over one run: a call is blocked only within the cooldown after the last failure, a
success closes the breaker, a streak below the threshold does not open it, and openings that are
reported without a success between them are a cooldown apart. -/
structure BreakerLaw (events : List Event) : Prop where
  released : ∀ before now after, events = before ++ .allows now :: after →
    (run failure_threshold cooldown before).allows now = false →
      ∃ failed, last_failure before = some failed ∧ now < failed + cooldown
  closed : ∀ before now after, events = before ++ .success now :: after →
    run failure_threshold cooldown (before ++ [.success now]) = Breaker.new
  spared : ∀ before after, events = before ++ after → streak before < failure_threshold →
    (run failure_threshold cooldown before).open_until = none
  apart : ∀ before first between second after,
    events = before ++ .failure first :: (between ++ .failure second :: after) →
    (∀ now, .success now ∉ between) →
    Reports failure_threshold cooldown before first →
    Reports failure_threshold cooldown (before ++ .failure first :: between) second →
      first + cooldown ≤ second

end

/-! ## What a breaker remembers -/

theorem streak_append (events : List Event) (e : Event) :
    streak (events ++ [e]) = match e with
      | .allows _ => streak events
      | .success _ => 0
      | .failure _ => streak events + 1 := by
  unfold streak
  rw [List.foldl_append]
  cases e <;> rfl

theorem last_failure_append (events : List Event) (e : Event) :
    last_failure (events ++ [e]) = match e with
      | .failure now => some now
      | _ => last_failure events := by
  unfold last_failure
  rw [List.foldl_append]
  cases e <;> rfl

section
variable {failure_threshold : Nat} {cooldown : DateTime}

theorem run_append (events : List Event) (e : Event) :
    run failure_threshold cooldown (events ++ [e]) =
      (take failure_threshold cooldown (run failure_threshold cooldown events) e).1 := by
  unfold run
  rw [List.foldl_append]
  rfl

/-- The counter is the streak, as far as it counts, and the breaker is open until a cooldown after
the last failure once the streak is at the threshold. -/
structure Tracks (failure_threshold : Nat) (cooldown : DateTime) (events : List Event)
    (b : Breaker) : Prop where
  counts : b.consecutive_failures = min (streak events) U32_MAX
  failed : 0 < streak events → ∃ now, last_failure events = some now
  opened : b.open_until =
    if 0 < streak events ∧ failure_threshold ≤ min (streak events) U32_MAX then
      (last_failure events).map (· + cooldown)
    else none

theorem tracks_new : Tracks failure_threshold cooldown [] Breaker.new := ⟨rfl, nofun, rfl⟩

variable {events : List Event}

theorem tracks_take {b : Breaker} (h : Tracks failure_threshold cooldown events b) (e : Event) :
    Tracks failure_threshold cooldown (events ++ [e])
      (take failure_threshold cooldown b e).1 := by
  obtain ⟨hcounts, hfailed, hopened⟩ := h
  cases e with
  | allows now =>
    constructor
    · rw [streak_append]
      exact hcounts
    · rw [streak_append, last_failure_append]
      exact hfailed
    · rw [streak_append, last_failure_append]
      exact hopened
  | success now =>
    constructor
    · rw [streak_append]
      rfl
    · rw [streak_append]
      intro hpos
      exact absurd hpos (Nat.lt_irrefl 0)
    · rw [streak_append]
      rfl
  | failure now =>
    have hnext : min (min (streak events) U32_MAX + 1) U32_MAX =
        min (streak events + 1) U32_MAX := by omega
    have hrecord : (take failure_threshold cooldown b (.failure now)).1 =
        ⟨min (streak events + 1) U32_MAX,
          if failure_threshold ≤ min (streak events + 1) U32_MAX then some (now + cooldown)
          else b.open_until⟩ := by
      simp only [take, Breaker.record, hcounts, hnext, Bool.false_eq_true, if_false]
      split <;> rfl
    rw [hrecord]
    constructor
    · rw [streak_append]
    · intro _
      rw [last_failure_append]
      exact ⟨now, rfl⟩
    · rw [streak_append, last_failure_append]
      dsimp only
      by_cases hreached : failure_threshold ≤ min (streak events + 1) U32_MAX
      · rw [if_pos hreached, if_pos ⟨Nat.succ_pos _, hreached⟩]
        rfl
      · rw [if_neg hreached, if_neg (fun hc => hreached hc.2), hopened]
        apply if_neg
        rintro ⟨-, hbelow⟩
        omega

/-- Every run is tracked. -/
theorem tracks_run (events : List Event) :
    Tracks failure_threshold cooldown events (run failure_threshold cooldown events) := by
  induction events using List.reverseRecOn with
  | nil => exact tracks_new
  | append_singleton events e ih =>
    rw [run_append]
    exact tracks_take ih e

/-- An open breaker is open until a cooldown after the last failure. -/
theorem open_until_run {deadline : DateTime}
    (h : (run failure_threshold cooldown events).open_until = some deadline) :
    ∃ failed, last_failure events = some failed ∧ deadline = failed + cooldown := by
  rw [(tracks_run events).opened] at h
  split at h
  · obtain ⟨failed, hfailed, hdeadline⟩ := Option.map_eq_some_iff.mp h
    exact ⟨failed, hfailed, hdeadline.symm⟩
  · simp at h

theorem allows_eq_false {b : Breaker} {now : DateTime} (h : b.allows now = false) :
    ∃ deadline, b.open_until = some deadline ∧ now < deadline := by
  unfold Breaker.allows at h
  split at h
  · simp at h
  · rename_i deadline hopen
    exact ⟨deadline, hopen, not_le.mp (of_decide_eq_false h)⟩

/-- A call is blocked only within the cooldown. -/
theorem blocked_within {now : DateTime}
    (h : (run failure_threshold cooldown events).allows now = false) :
    ∃ failed, last_failure events = some failed ∧ now < failed + cooldown := by
  obtain ⟨deadline, hopen, hlt⟩ := allows_eq_false h
  obtain ⟨failed, hfailed, rfl⟩ := open_until_run hopen
  exact ⟨failed, hfailed, hlt⟩

theorem run_success (events : List Event) (now : DateTime) :
    run failure_threshold cooldown (events ++ [.success now]) = Breaker.new := by
  rw [run_append]
  rfl

theorem closed_below (h : streak events < failure_threshold) :
    (run failure_threshold cooldown events).open_until = none := by
  rw [(tracks_run events).opened]
  apply if_neg
  rintro ⟨-, hreached⟩
  omega

/-- A failure is reported where it brings the streak to the threshold, or finds it there with the
cooldown over. -/
theorem reports_iff {now : DateTime} :
    Reports failure_threshold cooldown events now ↔
      failure_threshold ≤ min (streak events + 1) U32_MAX ∧
        (run failure_threshold cooldown events).allows now = true := by
  have hnext : min (min (streak events) U32_MAX + 1) U32_MAX =
      min (streak events + 1) U32_MAX := by omega
  unfold Reports take Breaker.record Breaker.allows
  simp only [(tracks_run events).counts, hnext, Bool.false_eq_true, if_false]
  by_cases hreached : failure_threshold ≤ min (streak events + 1) U32_MAX
  · rw [if_pos hreached]
    cases (run failure_threshold cooldown events).open_until with
    | none => simp [hreached]
    | some deadline => simp [hreached]
  · rw [if_neg hreached]
    simp [hreached]

/-- A failure at the threshold blocks what follows, for the cooldown. -/
theorem opens_at_the_threshold {failed now : DateTime}
    (h : failure_threshold ≤ min (streak events + 1) U32_MAX) :
    (run failure_threshold cooldown (events ++ [.failure failed])).allows now = true ↔
      failed + cooldown ≤ now := by
  have hopen : (run failure_threshold cooldown (events ++ [.failure failed])).open_until =
      some (failed + cooldown) := by
    rw [(tracks_run _).opened, streak_append, last_failure_append, if_pos ⟨Nat.succ_pos _, h⟩]
    rfl
  unfold Breaker.allows
  rw [hopen]
  exact decide_eq_true_iff

/-! ## Two openings -/

/-- Without a success the streak and the last failure only go up. -/
theorem streak_since (events : List Event) {between : List Event}
    (h : ∀ now, .success now ∉ between) :
    streak events ≤ streak (events ++ between) := by
  induction between using List.reverseRecOn with
  | nil => rw [List.append_nil]
  | append_singleton between e ih =>
    have hle := ih fun now hnow => h now (List.mem_append_left _ hnow)
    rw [← List.append_assoc, streak_append]
    cases e with
    | allows now => exact hle
    | success now => exact absurd (by simp) (h now)
    | failure now => exact hle.trans (Nat.le_succ _)

theorem last_failure_since {between : List Event} {first failed : DateTime}
    (hfirst : last_failure events = some first) (hlater : ∀ e ∈ between, first ≤ e.now)
    (hfailed : last_failure (events ++ between) = some failed) : first ≤ failed := by
  induction between using List.reverseRecOn generalizing failed with
  | nil =>
    rw [List.append_nil, hfirst] at hfailed
    exact (Option.some.inj hfailed).le
  | append_singleton between e ih =>
    have hbefore : ∀ other ∈ between, first ≤ other.now :=
      fun other hother => hlater other (List.mem_append_left _ hother)
    rw [← List.append_assoc, last_failure_append] at hfailed
    cases e with
    | allows now => exact ih hbefore hfailed
    | success now => exact ih hbefore hfailed
    | failure now =>
      rw [← Option.some.inj hfailed]
      exact hlater (.failure now) (by simp)

/-- Openings that are reported without a success between them are a cooldown apart. -/
theorem reports_apart {before between : List Event} {first second : DateTime}
    (hlater : ∀ e ∈ between, first ≤ e.now) (hfailing : ∀ now, .success now ∉ between)
    (hfirst : Reports failure_threshold cooldown before first)
    (hsecond : Reports failure_threshold cooldown (before ++ .failure first :: between) second) :
    first + cooldown ≤ second := by
  obtain ⟨hreached, -⟩ := reports_iff.mp hfirst
  obtain ⟨-, hallows⟩ := reports_iff.mp hsecond
  have hsplit : before ++ .failure first :: between = (before ++ [.failure first]) ++ between := by
    rw [List.append_assoc]
    rfl
  rw [hsplit] at hallows
  have hstreak := streak_since (before ++ [.failure first]) hfailing
  rw [streak_append] at hstreak
  dsimp only at hstreak
  have hfailed : last_failure (before ++ [.failure first]) = some first := by
    rw [last_failure_append]
  have htracks : Tracks failure_threshold cooldown ((before ++ [.failure first]) ++ between) _ :=
    tracks_run _
  obtain ⟨failed, hlast⟩ := htracks.failed (by omega)
  have hle := last_failure_since hfailed hlater hlast
  have hopen : (run failure_threshold cooldown
      ((before ++ [.failure first]) ++ between)).open_until = some (failed + cooldown) := by
    rw [htracks.opened, if_pos (by omega), hlast]
    rfl
  unfold Breaker.allows at hallows
  rw [hopen] at hallows
  calc first + cooldown ≤ failed + cooldown := Int.add_le_add_right hle cooldown
    _ ≤ second := of_decide_eq_true hallows

end

theorem Monotone.after {before after : List Event} {e : Event}
    (h : Monotone (before ++ e :: after)) : ∀ later ∈ after, e.now ≤ later.now := by
  unfold Monotone at h
  rw [List.map_append, List.map_cons] at h
  obtain ⟨-, h, -⟩ := List.pairwise_append.mp h
  intro later hlater
  exact (List.pairwise_cons.mp h).1 later.now (List.mem_map_of_mem hlater)

/-- Every run in which time does not go back keeps the law. -/
theorem breaker_law (failure_threshold : Nat) (cooldown : DateTime) (events : List Event)
    (h : Monotone events) : BreakerLaw failure_threshold cooldown events := by
  constructor
  · intro before now after _ hblocked
    exact blocked_within hblocked
  · intro before now after _
    exact run_success before now
  · intro before after _ hbelow
    exact closed_below hbelow
  · rintro before first between second after rfl hfailing hfirst hsecond
    refine reports_apart (fun e he => ?_) hfailing hfirst hsecond
    exact h.after e (List.mem_append_left _ he)

/-- It opens at the second failure, and again at the trial that fails. -/
theorem breaker_law_here :
    Reports 2 60 [.failure 0] 1 ∧ Reports 2 60 [.failure 0, .failure 1, .allows 61] 61 ∧
      BreakerLaw 2 60 [.failure 0, .failure 1, .allows 61, .failure 61, .success 130] := by
  refine ⟨by unfold Reports; decide +kernel, by unfold Reports; decide +kernel, ?_⟩
  apply breaker_law
  unfold Monotone
  decide +kernel

/-! ## The sinks of a notifier -/

/-- The thresholds that the sinks share. -/
structure BreakerConfig where
  failure_threshold : UInt32
  cooldown : DateTime

/-- The sinks by label, with the labels of those whose breakers newly opened. -/
structure CompositeNotifier where
  sinks : List String
  breakers : List Breaker
  breaker_config : BreakerConfig
  newly_opened : List String

def CompositeNotifier.with_breaker_config (sinks : List String) (breaker_config : BreakerConfig) :
    CompositeNotifier where
  sinks := sinks
  breakers := sinks.map (fun _ => Breaker.new)
  breaker_config := breaker_config
  newly_opened := []

def CompositeNotifier.label_at (c : CompositeNotifier) (index : Nat) : String :=
  c.sinks[index]?.getD "unknown"

/-- Whether the sink's circuit breaker currently allows a call. -/
def CompositeNotifier.breaker_allows (c : CompositeNotifier) (index : Nat) (now : DateTime) :
    Bool :=
  match c.breakers[index]? with
  | none => true
  | some b => b.allows now

/-- Record a sink call outcome; the label when the breaker newly opens. -/
def CompositeNotifier.record_breaker_outcome (c : CompositeNotifier) (index : Nat)
    (now : DateTime) (success : Bool) : Option String × CompositeNotifier :=
  match c.breakers[index]? with
  | none => (none, c)
  | some b =>
    let (b', newly_opened) := b.record now success c.breaker_config.failure_threshold.toNat
      c.breaker_config.cooldown
    (if newly_opened then some (c.label_at index) else none,
      { c with breakers := c.breakers.set index b' })

def CompositeNotifier.drain_newly_opened_breakers (c : CompositeNotifier) :
    List String × CompositeNotifier :=
  (c.newly_opened, { c with newly_opened := [] })

/-- What the deliveries, the tests of a sink and the flushes do in turn: a delivery asks before
its call and records after it, and a test does not ask. -/
inductive Turn where
  | allows (index : Nat) (now : DateTime)
  | outcome (index : Nat) (now : DateTime) (success : Bool)
  | drain

def CompositeNotifier.turn (c : CompositeNotifier) : Turn → CompositeNotifier
  | .allows _ _ => c
  | .outcome index now success =>
    let (label, c) := c.record_breaker_outcome index now success
    { c with newly_opened := c.newly_opened ++ label.toList }
  | .drain => c.drain_newly_opened_breakers.2

/-- What the sink's breaker is asked and told in a turn. -/
def event_at (index : Nat) : Turn → Option Event
  | .allows i now => if i = index then some (.allows now) else none
  | .outcome i now success =>
    if i = index then some (if success then .success now else .failure now) else none
  | .drain => none

def turns_of (sinks : List String) (breaker_config : BreakerConfig) (turns : List Turn) :
    CompositeNotifier :=
  turns.foldl CompositeNotifier.turn (.with_breaker_config sinks breaker_config)

section
variable {sinks : List String} {breaker_config : BreakerConfig}

/-- The sinks' breakers have each had a run of their own. -/
structure Apart (sinks : List String) (breaker_config : BreakerConfig) (turns : List Turn)
    (c : CompositeNotifier) : Prop where
  labels : c.sinks = sinks
  config : c.breaker_config = breaker_config
  breakers : ∀ index : Nat, c.breakers[index]? =
    sinks[index]?.map (fun _ => run breaker_config.failure_threshold.toNat breaker_config.cooldown
      (turns.filterMap (event_at index)))

/-- An outcome is recorded for its own sink. -/
theorem turn_outcome (c : CompositeNotifier) (i : Nat) (now : DateTime) (success : Bool) :
    (c.turn (.outcome i now success)).sinks = c.sinks ∧
      (c.turn (.outcome i now success)).breaker_config = c.breaker_config ∧
      ∀ index : Nat, (c.turn (.outcome i now success)).breakers[index]? =
        if i = index then
          c.breakers[index]?.map (fun b => (b.record now success
            c.breaker_config.failure_threshold.toNat c.breaker_config.cooldown).1)
        else c.breakers[index]? := by
  simp only [CompositeNotifier.turn, CompositeNotifier.record_breaker_outcome]
  cases hsink : c.breakers[i]? with
  | none =>
    refine ⟨rfl, rfl, fun index => ?_⟩
    by_cases hi : i = index
    · subst hi
      rw [if_pos rfl, hsink]
      rfl
    · rw [if_neg hi]
  | some b =>
    refine ⟨rfl, rfl, fun index => ?_⟩
    obtain ⟨hlt, -⟩ := List.getElem?_eq_some_iff.mp hsink
    by_cases hi : i = index
    · subst hi
      rw [if_pos rfl, hsink]
      exact List.getElem?_set_self hlt
    · rw [if_neg hi]
      exact List.getElem?_set_ne hi

theorem apart_turn {turns : List Turn} {c : CompositeNotifier}
    (h : Apart sinks breaker_config turns c) (t : Turn) :
    Apart sinks breaker_config (turns ++ [t]) (c.turn t) := by
  obtain ⟨hsinks, hconfig, hbreakers⟩ := h
  cases t with
  | allows i now =>
    refine ⟨hsinks, hconfig, fun index => (hbreakers index).trans ?_⟩
    rw [List.filterMap_append]
    by_cases hi : i = index
    · simp only [List.filterMap_cons, List.filterMap_nil, event_at, hi, if_true, run_append, take]
    · simp only [List.filterMap_cons, List.filterMap_nil, event_at, hi, if_false, List.append_nil]
  | drain =>
    refine ⟨hsinks, hconfig, fun index => (hbreakers index).trans ?_⟩
    rw [List.filterMap_append]
    simp only [List.filterMap_cons, List.filterMap_nil, event_at, List.append_nil]
  | outcome i now success =>
    obtain ⟨hsinks', hconfig', hbreakers'⟩ := turn_outcome c i now success
    refine ⟨hsinks'.trans hsinks, hconfig'.trans hconfig, fun index => (hbreakers' index).trans ?_⟩
    rw [List.filterMap_append, hbreakers index, hconfig]
    by_cases hi : i = index
    · simp only [List.filterMap_cons, List.filterMap_nil, event_at, hi, if_true, run_append,
        Option.map_map]
      cases success <;> rfl
    · simp only [List.filterMap_cons, List.filterMap_nil, event_at, hi, if_false, List.append_nil]

/-- However the sinks take turns, a sink's breaker goes through the run of its own events. -/
theorem apart_turns (turns : List Turn) :
    Apart sinks breaker_config turns (turns_of sinks breaker_config turns) := by
  induction turns using List.reverseRecOn with
  | nil =>
    refine ⟨rfl, rfl, fun index => ?_⟩
    simp only [turns_of, List.foldl_nil, CompositeNotifier.with_breaker_config,
      List.getElem?_map]
    rfl
  | append_singleton turns t ih =>
    have hlast : turns_of sinks breaker_config (turns ++ [t]) =
        (turns_of sinks breaker_config turns).turn t := by
      unfold turns_of
      rw [List.foldl_append]
      rfl
    rw [hlast]
    exact apart_turn ih t

/-- A delivery to a sink goes ahead as that sink's own run allows. -/
theorem breaker_allows_after (turns : List Turn) {index : Nat} (hindex : index < sinks.length)
    (now : DateTime) :
    (turns_of sinks breaker_config turns).breaker_allows index now =
      (run breaker_config.failure_threshold.toNat breaker_config.cooldown
        (turns.filterMap (event_at index))).allows now := by
  unfold CompositeNotifier.breaker_allows
  rw [(apart_turns turns).breakers, List.getElem?_eq_getElem hindex]
  rfl

/-- A label is given out exactly where the sink's own run reports an opening. -/
theorem label_after (turns : List Turn) {index : Nat} (hindex : index < sinks.length)
    (now : DateTime) :
    ((turns_of sinks breaker_config turns).record_breaker_outcome index now false).1.isSome =
        true ↔
      Reports breaker_config.failure_threshold.toNat breaker_config.cooldown
        (turns.filterMap (event_at index)) now := by
  unfold CompositeNotifier.record_breaker_outcome Reports take
  rw [(apart_turns turns).breakers, (apart_turns turns).config,
    List.getElem?_eq_getElem hindex]
  simp only [Option.map_some]
  split
  · rename_i hnews
    simp [hnews]
  · rename_i hnews
    simp [hnews]

end

end xrelease.breaker
