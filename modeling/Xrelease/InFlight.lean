-- The advisory lookups of a process (`advisory/mod.rs`), many of them under way at once: each looks
-- into the cache, asks the breaker, waits for the service and records what came of it, and every
-- one of these is a turn of its own under the lock.
import Xrelease.Advisory
import Xrelease.Remembered
import Xrelease.Trace

namespace xrelease.in_flight

open text keyed remembered trace xrelease.model xrelease.advisory
open xrelease.config (PackageRegistry)
open store (secs)

/-! ## Lookups that take turns -/

/-- Where a lookup under way stands. -/
inductive Flight where
  | looking (key : CacheKey)
  | missed (key : CacheKey)
  | asking (key : CacheKey)
deriving DecidableEq

/-- The lookups by their numbers; `answers` is what the service answered, newest first, and no turn
reads it. -/
structure World where
  state : LookupState
  flights : Nat → Option Flight
  answers : List (CacheKey × CacheEntry)

inductive Event where
  | begin (call : Nat) (registry : PackageRegistry) (name version : String)
  | look (call : Nat) (now : DateTime)
  | allow (call : Nat) (now : DateTime)
  | answer (call : Nat) (advisories : List Advisory) (now : DateTime)
  | fail (call : Nat) (now : DateTime)
  | drop (call : Nat)
deriving DecidableEq

/-- The clock of an event. -/
def Event.now : Event → Option DateTime
  | .look _ now => some now
  | .allow _ now => some now
  | .answer _ _ now => some now
  | .fail _ now => some now
  | _ => none

/-- Where a lookup returns at such a turn, it was skipped, blocked by the breaker or failed. -/
def Event.refuses : Event → Bool
  | .look _ _ => false
  | .answer _ _ _ => false
  | _ => true

/-- A lookup that returns: what it asked about, if it asked, and the outcome. -/
structure Returned where
  key : Option CacheKey
  outcome : LookupOutcome
deriving DecidableEq

def World.place (w : World) (call : Nat) (flight : Option Flight) : World :=
  { w with flights := fun c => if c = call then flight else w.flights c }

/-- A process that has looked nothing up; its breaker may be in any state. -/
def World.new (breaker : Breaker) : World := ⟨⟨Table.empty, breaker⟩, fun _ => none, []⟩

section
variable (config : AdvisoryConfig)

/-- What a lookup asks about, when it asks at all. -/
def key_of (registry : PackageRegistry) (name version : String) : Option CacheKey :=
  if !config.active then none
  else (Ecosystem.for_registry registry).bind (fun ecosystem =>
    if trim name = "" ∨ trim version = "" then none
    else some (ecosystem.as_str, trim name, trim version))

/-- One turn of one lookup, and what that lookup returns if it ends there. -/
def step (w : World) : Event → World × Option Returned
  | .begin call registry name version =>
    if w.flights call ≠ none then (w, none)
    else match key_of config registry name version with
    | none => (w, some ⟨none, {}⟩)
    | some key => (w.place call (some (.looking key)), none)
  | .look call now =>
    match w.flights call with
    | some (.looking key) =>
      match cached config key now w.state with
      | some hit => (w.place call none, some ⟨some key, .from_verified_answer hit⟩)
      | none => (w.place call (some (.missed key)), none)
    | _ => (w, none)
  | .allow call now =>
    match w.flights call with
    | some (.missed key) =>
      if !w.state.breaker.allows now then (w.place call none, some ⟨some key, {}⟩)
      else (w.place call (some (.asking key)), none)
    | _ => (w, none)
  | .answer call advisories now =>
    match w.flights call with
    | some (.asking key) =>
      ({ w.place call none with
          state := record_success config key advisories now w.state
          answers := (key, ⟨advisories, now⟩) :: w.answers },
        some ⟨some key, .from_verified_answer advisories⟩)
    | _ => (w, none)
  | .fail call now =>
    match w.flights call with
    | some (.asking key) =>
      ({ w.place call none with state := record_failure config now w.state }, some ⟨some key, {}⟩)
    | _ => (w, none)
  | .drop call => (w.place call none, none)

def next (w : World) (e : Event) : World := (step config w e).1

/-! ## The law -/

/-- What holds of a turn: a verified outcome is the newest answer for its key, and that answer is
not older than the time to live; a lookup that was skipped, blocked or failed returns an empty
outcome that is not verified; only an answer changes the cache; and the cache is within its
bound. -/
structure CacheLaw (w : World) (e : Event) : Prop where
  verified : ∀ returned, (step config w e).2 = some returned → returned.outcome.verified = true →
    ∃ key entry now, returned.key = some key ∧ e.now = some now ∧
      Table.look key (next config w e).answers = some entry ∧
      returned.outcome.advisories = entry.advisories ∧
      now - entry.stored_at ≤ secs config.cache_ttl_secs.toNat
  marked : ∀ returned, (step config w e).2 = some returned →
    returned.outcome.verified = !e.refuses ∧
      (e.refuses = true → returned.outcome.advisories = [])
  quiet : (∀ call advisories now, e ≠ .answer call advisories now) →
    (next config w e).state.cache = w.state.cache ∧ (next config w e).answers = w.answers
  bounded : (next config w e).state.cache.rows.length ≤ CACHE_MAX_ENTRIES

/-- What every turn keeps: the cache holds newest answers, few enough of them, and none at all
where there is no time to live. -/
structure Kept (w : World) : Prop where
  remembers : Remembers w.state.cache w.answers
  bounded : w.state.cache.rows.length ≤ CACHE_MAX_ENTRIES
  unused : config.cache_ttl_secs = 0 → w.state.cache = Table.empty

theorem kept_new (breaker : Breaker) : Kept config (World.new breaker) :=
  ⟨remembers_empty [], Nat.zero_le _, fun _ => rfl⟩

/-! ## Recording an answer -/

theorem make_room_evicts (now : DateTime) (cache : Table CacheKey CacheEntry) :
    Evicts cache (make_room config now cache) := by
  unfold make_room
  split
  · simp only
    split
    · exact evicts_empty cache
    · exact evicts_keep cache _
  · exact evicts_refl cache

theorem make_room_length (now : DateTime) (cache : Table CacheKey CacheEntry) :
    (make_room config now cache).rows.length < CACHE_MAX_ENTRIES := by
  unfold make_room
  split
  · simp only
    split
    · exact Nat.zero_lt_succ _
    · omega
  · omega

theorem kept_answer {w : World} (h : Kept config w) (key : CacheKey) (advisories : List Advisory)
    (now : DateTime) (flights : Nat → Option Flight) :
    Kept config ⟨record_success config key advisories now w.state, flights,
      (key, ⟨advisories, now⟩) :: w.answers⟩ := by
  by_cases hzero : config.cache_ttl_secs = 0
  · have hcache : (record_success config key advisories now w.state).cache = Table.empty := by
      simp only [record_success, if_pos hzero, h.unused hzero]
    constructor
    · simp only [hcache]
      exact remembers_empty _
    · simp only [hcache]
      exact Nat.zero_le _
    · exact fun _ => hcache
  · have hcache : (record_success config key advisories now w.state).cache =
        (make_room config now w.state.cache).upsert key ⟨advisories, now⟩
          (fun _ => ⟨advisories, now⟩) := by
      simp only [record_success, if_neg hzero]
    constructor
    · simp only [hcache]
      exact remembers_put h.remembers (make_room_evicts config now w.state.cache) key _
    · simp only [hcache]
      exact Nat.le_trans (length_upsert_le _ _ _ _) (make_room_length config now w.state.cache)
    · exact fun h => absurd h hzero

/-! ## One turn -/

/-- Every turn but an answer leaves the cache and the answers. -/
theorem quiet_step (w : World) {e : Event}
    (h : ∀ call advisories now, e ≠ .answer call advisories now) :
    (next config w e).state.cache = w.state.cache ∧ (next config w e).answers = w.answers := by
  unfold next
  cases e with
  | begin call registry name version =>
    simp only [step]
    split
    · exact ⟨rfl, rfl⟩
    · cases key_of config registry name version <;> exact ⟨rfl, rfl⟩
  | look call now =>
    simp only [step]
    split
    · rename_i key _
      cases cached config key now w.state <;> exact ⟨rfl, rfl⟩
    · exact ⟨rfl, rfl⟩
  | allow call now =>
    simp only [step]
    split
    · split <;> exact ⟨rfl, rfl⟩
    · exact ⟨rfl, rfl⟩
  | answer call advisories now => exact absurd rfl (h call advisories now)
  | fail call now =>
    simp only [step]
    split <;> exact ⟨rfl, rfl⟩
  | drop call => exact ⟨rfl, rfl⟩

theorem kept_next {w : World} (h : Kept config w) (e : Event) : Kept config (next config w e) := by
  by_cases hanswer : ∃ call advisories now, e = .answer call advisories now
  · obtain ⟨call, advisories, now, rfl⟩ := hanswer
    simp only [next, step]
    split
    · exact kept_answer config h _ advisories now _
    · exact h
  · have hquiet : ∀ call advisories now, e ≠ .answer call advisories now :=
      fun call advisories now heq => hanswer ⟨call, advisories, now, heq⟩
    obtain ⟨hcache, hanswers⟩ := quiet_step config w hquiet
    exact ⟨by rw [hcache, hanswers]; exact h.remembers, by rw [hcache]; exact h.bounded,
      fun hzero => hcache.trans (h.unused hzero)⟩

/-- A hit is an entry of the cache, within its time to live. -/
theorem cached_hit {key : CacheKey} {now : DateTime} {state : LookupState}
    {hit : List Advisory} (h : cached config key now state = some hit) :
    ∃ entry, state.cache.get key = some entry ∧ hit = entry.advisories ∧
      now - entry.stored_at ≤ secs config.cache_ttl_secs.toNat := by
  unfold cached at h
  split at h
  · simp at h
  · obtain ⟨entry, hentry, rfl⟩ := Option.map_eq_some_iff.mp h
    obtain ⟨hget, hfresh⟩ := Option.filter_eq_some_iff.mp hentry
    refine ⟨entry, hget, rfl, ?_⟩
    unfold fresh at hfresh
    exact Int.le_of_lt (of_decide_eq_true hfresh)

/-- What a turn returns: an empty outcome that is not verified, a hit, or an answer. -/
theorem returned_cases {w : World} {e : Event} {returned : Returned}
    (h : (step config w e).2 = some returned) :
    returned.outcome = {} ∧ e.refuses = true ∨
      (∃ call key now hit, e = .look call now ∧ cached config key now w.state = some hit ∧
        returned = ⟨some key, .from_verified_answer hit⟩) ∨
      ∃ call key advisories now, e = .answer call advisories now ∧
        returned = ⟨some key, .from_verified_answer advisories⟩ ∧
        (next config w e).answers = (key, ⟨advisories, now⟩) :: w.answers := by
  unfold next
  cases e with
  | begin call registry name version =>
    simp only [step] at h
    split at h
    · simp at h
    · cases hkey : key_of config registry name version with
      | none =>
        simp only [hkey, Option.some.injEq] at h
        exact Or.inl ⟨h ▸ rfl, rfl⟩
      | some key => simp [hkey] at h
  | look call now =>
    simp only [step] at h
    split at h
    · rename_i key _
      cases hhit : cached config key now w.state with
      | none => simp [hhit] at h
      | some hit =>
        simp only [hhit, Option.some.injEq] at h
        exact Or.inr (Or.inl ⟨call, key, now, hit, rfl, hhit, h.symm⟩)
    · simp at h
  | allow call now =>
    simp only [step] at h
    split at h
    · split at h
      · exact Or.inl ⟨Option.some.inj h ▸ rfl, rfl⟩
      · simp at h
    · simp at h
  | answer call advisories now =>
    simp only [step] at h ⊢
    split at h
    · rename_i key _
      exact Or.inr (Or.inr ⟨call, key, advisories, now, rfl, (Option.some.inj h).symm, rfl⟩)
    · simp at h
  | fail call now =>
    simp only [step] at h
    split at h
    · exact Or.inl ⟨Option.some.inj h ▸ rfl, rfl⟩
    · simp at h
  | drop call => simp [step] at h

theorem law_of_kept {w : World} (h : Kept config w) (e : Event) : CacheLaw config w e := by
  constructor
  · intro returned hreturned hverified
    rcases returned_cases config hreturned with ⟨hempty, -⟩ |
      ⟨call, key, now, hit, rfl, hhit, rfl⟩ | ⟨call, key, advisories, now, rfl, rfl, hanswers⟩
    · rw [hempty] at hverified
      simp at hverified
    · obtain ⟨entry, hget, heq, hage⟩ := cached_hit config hhit
      have hnewest := h.remembers key entry hget
      rw [← (quiet_step config w (e := .look call now) nofun).2] at hnewest
      exact ⟨key, entry, now, rfl, rfl, hnewest, heq, hage⟩
    · refine ⟨key, ⟨advisories, now⟩, now, rfl, rfl, ?_, rfl, ?_⟩
      · rw [hanswers]
        exact if_pos rfl
      · have hzero : now - now = 0 := Int.sub_self now
        rw [hzero]
        exact Int.mul_nonneg (Int.natCast_nonneg _) (by decide)
  · intro returned hreturned
    rcases returned_cases config hreturned with ⟨hempty, hrefuses⟩ |
      ⟨call, key, now, hit, rfl, -, rfl⟩ | ⟨call, key, advisories, now, rfl, rfl, -⟩
    · rw [hempty, hrefuses]
      exact ⟨rfl, fun _ => rfl⟩
    · exact ⟨rfl, nofun⟩
    · exact ⟨rfl, nofun⟩
  · exact quiet_step config w
  · exact (kept_next config h e).bounded

/-- However many lookups take turns, and whatever the service, the breaker and the clock do. -/
theorem cache_law (breaker : Breaker) (events : List Event) :
    Along (next config) (CacheLaw config) (World.new breaker) events := by
  have hrun : ∀ (l : List Event) (w : World), Kept config w →
      Along (next config) (CacheLaw config) w l := by
    intro l
    induction l with
    | nil => exact fun _ _ => trivial
    | cons e rest ih =>
      intro w h
      exact ⟨law_of_kept config h e, ih _ (kept_next config h e)⟩
  exact hrun events _ (kept_new config breaker)

end

end xrelease.in_flight
