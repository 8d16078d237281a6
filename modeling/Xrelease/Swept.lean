-- Progress of the advisory sweep: which of the versions that the service answers for are ever
-- recorded as checked, over any number of rounds.
import Mathlib.Data.String.Basic
import Xrelease.Advisory

namespace xrelease.advisory

open text keyed store backlog
open xrelease.pipeline (Watch)

/-! ## The queue of a source -/

/-- Every seen version of a source, newest first. -/
def seen_versions (c : Collation) (source_id : String) (t : Tables) : List String :=
  ((t.seen_release.select (fun k _ => k.1 = source_id)).insertionSort
    (fun a b => newest_first c a b = true)).map (fun kr => kr.1.2)

theorem newest_first_total (c : Collation) (a b : (String × String) × SeenRow) :
    newest_first c a b = true ∨ newest_first c b a = true := by
  unfold newest_first
  rcases lt_trichotomy a.2.first_seen_at b.2.first_seen_at with h | h | h
  · right; simp [h]
  · rcases c.total b.1.2 a.1.2 with hc | hc
    · left; simp [h, hc]
    · right; simp [h, hc]
  · left; simp [h]

theorem newest_first_trans (c : Collation) (a b d : (String × String) × SeenRow)
    (hab : newest_first c a b = true) (hbd : newest_first c b d = true) :
    newest_first c a d = true := by
  unfold newest_first at *
  simp only [Bool.or_eq_true, decide_eq_true_eq, Bool.and_eq_true] at *
  rcases hab with hab | ⟨hab, hc⟩ <;> rcases hbd with hbd | ⟨hbd, hd⟩
  · exact Or.inl (hbd.trans hab)
  · exact Or.inl (hbd ▸ hab)
  · exact Or.inl (hab ▸ hbd)
  · exact Or.inr ⟨hab.trans hbd, c.trans _ _ _ hd hc⟩

theorem newest_first_antisymm (c : Collation) {a b : (String × String) × SeenRow}
    (hab : newest_first c a b = true) (hba : newest_first c b a = true) : a.1.2 = b.1.2 := by
  unfold newest_first at *
  simp only [Bool.or_eq_true, decide_eq_true_eq, Bool.and_eq_true] at *
  rcases hab with hab | ⟨hab, hc⟩
  · rcases hba with hba | ⟨hba, _⟩
    · exact absurd hba (lt_asymm hab)
    · exact absurd hba (ne_of_lt hab)
  · rcases hba with hba | ⟨_, hd⟩
    · exact absurd hab (ne_of_lt hba)
    · exact c.antisymm _ _ hd hc

theorem newest_first_sorted (c : Collation) (l : List ((String × String) × SeenRow)) :
    (l.insertionSort (fun a b => newest_first c a b = true)).Pairwise
      (fun a b => newest_first c a b = true) := by
  have : Std.Total (fun a b => newest_first c a b = true) := ⟨newest_first_total c⟩
  have : IsTrans _ (fun a b => newest_first c a b = true) := ⟨newest_first_trans c⟩
  exact List.pairwise_insertionSort _ l

/-- The rows of one source are told apart by their identity. -/
theorem row_of_identity {t : Tables} {source_id : String} {a b : (String × String) × SeenRow}
    (ha : a ∈ t.seen_release.select (fun k _ => k.1 = source_id))
    (hb : b ∈ t.seen_release.select (fun k _ => k.1 = source_id)) (h : a.1.2 = b.1.2) :
    a = b := by
  obtain ⟨⟨a1, a2⟩, ra⟩ := a
  obtain ⟨⟨b1, b2⟩, rb⟩ := b
  rw [Table.mem_select] at ha hb
  simp only [decide_eq_true_eq] at ha hb h
  obtain ⟨ha, rfl⟩ := ha
  obtain ⟨hb, rfl⟩ := hb
  subst h
  rw [ha] at hb
  cases hb
  rfl

/-- Sorting the unchecked rows is the same as leaving the checked ones out of the sorted rows. -/
theorem sorted_unchecked (c : Collation) (source_id : String) (t : Tables) (p : String → Bool) :
    (t.seen_release.select (fun k _ => k.1 = source_id && p k.2)).insertionSort
        (fun a b => newest_first c a b = true) =
      ((t.seen_release.select (fun k _ => k.1 = source_id)).insertionSort
        (fun a b => newest_first c a b = true)).filter (fun kr => p kr.1.2) := by
  have hsel : t.seen_release.select (fun k _ => k.1 = source_id && p k.2) =
      (t.seen_release.select (fun k _ => k.1 = source_id)).filter (fun kr => p kr.1.2) := by
    unfold Table.select
    rw [List.filter_filter]
    apply List.filter_congr
    intro x _
    exact Bool.and_comm _ _
  -- both sides are sorted and hold the same rows, and no two of the rows stand equal
  refine List.Perm.eq_of_pairwise (fun a b ha hb hab hba => ?_) (newest_first_sorted c _)
    ((newest_first_sorted c _).sublist List.filter_sublist) ?_
  · rw [List.mem_insertionSort, hsel] at ha
    rw [List.mem_filter, List.mem_insertionSort] at hb
    exact row_of_identity (List.mem_filter.mp ha).1 hb.1 (newest_first_antisymm c hab hba)
  · rw [hsel]
    exact (List.perm_insertionSort _ _).trans ((List.perm_insertionSort _ _).filter _).symm

/-- The query reads the first unchecked versions of the source's history. -/
theorem unchecked_seen_versions_eq (c : Collation) (source_id ecosystem package : String)
    (limit : Nat) (hlimit : limit ≤ I64_MAX) (t : Tables) :
    unchecked_seen_versions c source_id ecosystem package limit t =
      batch (seen_versions c source_id t) (fun v => !t.checked ecosystem package v) limit := by
  unfold unchecked_seen_versions batch seen_versions
  split
  · rename_i h
    simp [h]
  · simp only [Nat.min_eq_left hlimit, List.filter_map, ← List.map_take]
    rw [sorted_unchecked c source_id t (fun v => !t.checked ecosystem package v)]
    rfl

/-! ## The surroundings of a sweep -/

variable {config : AdvisoryConfig} {env : Surroundings} {c : Collation}

/-- No shutdown, and no store call fails. -/
structure Calm (env : Surroundings) : Prop where
  runs : ∀ n, env.shutdown n = false
  queue : ∀ n, env.queue_fails n = false
  advisories : ∀ n, env.advisories_fail n = false
  checks : ∀ n, env.check_fails n = false

/-- The service answers for some keys, early and late, and for no others. -/
def Answers (env : Surroundings) (answered : CacheKey → Bool) : Prop :=
  ∀ n key, (env.query n key).isSome = answered key

/-- What is cached are answers of the service. -/
def CacheHolds (answered : CacheKey → Bool) (state : LookupState) : Prop :=
  ∀ key entry, state.cache.get key = some entry → answered key = true

/-- Whether a lookup of a version gets an answer: it asks only when neither name is blank. -/
def gets_answer (answered : CacheKey → Bool) (ecosystem package version : String) : Bool :=
  decide (trim package ≠ "" ∧ trim version ≠ "") &&
    answered (ecosystem, trim package, trim version)

/-! ## One lookup -/

variable {answered : CacheKey → Bool}

theorem cacheHolds_room {state : LookupState} (now : model.DateTime) (h : CacheHolds answered state)
    {key : CacheKey} {entry : CacheEntry}
    (hg : (make_room config now state.cache).get key = some entry) : answered key = true := by
  unfold make_room at hg
  split at hg
  · simp only at hg
    split at hg
    · simp at hg
    · rw [Table.get_keep, Option.filter_eq_some_iff] at hg
      exact h key entry hg.1
  · exact h key entry hg

theorem cacheHolds_success {state : LookupState} {key : CacheKey} (advisories : List Advisory)
    (now : model.DateTime) (h : CacheHolds answered state) (hk : answered key = true) :
    CacheHolds answered (record_success config key advisories now state) := by
  intro key' entry hg
  unfold record_success at hg
  simp only at hg
  split at hg
  · exact h key' entry hg
  · rw [Table.get_upsert] at hg
    split at hg
    · rename_i heq
      exact heq ▸ hk
    · exact cacheHolds_room now h hg

/-- A lookup leaves the tables alone; unless the breaker stopped it, it is verified exactly
where the service has an answer. -/
theorem lookup_spec (hactive : config.active = true) (hans : Answers env answered)
    {registry : xrelease.config.PackageRegistry} {ecosystem : Ecosystem}
    (hreg : Ecosystem.for_registry registry = some ecosystem) (name version : String) (w : Sweeper)
    (hc : CacheHolds answered w.state) :
    (lookup config env registry name version w).2.tables = w.tables ∧
    CacheHolds answered (lookup config env registry name version w).2.state ∧
    w.skipped ≤ (lookup config env registry name version w).2.skipped ∧
    ((lookup config env registry name version w).2.skipped = w.skipped →
      (lookup config env registry name version w).1.verified =
        gets_answer answered ecosystem.as_str name version) := by
  unfold lookup gets_answer
  simp only [hactive, Bool.not_true, Bool.false_eq_true, if_false, hreg]
  by_cases hblank : trim name = "" ∨ trim version = ""
  · rw [if_pos hblank]
    refine ⟨rfl, hc, le_refl _, fun _ => ?_⟩
    rcases hblank with h | h <;> simp [h]
  · rw [if_neg hblank]
    have hnot : decide (trim name ≠ "" ∧ trim version ≠ "") = true := by
      simpa [not_or] using hblank
    rw [hnot, Bool.true_and]
    cases hit : cached config (ecosystem.as_str, trim name, trim version) (env.now w.tick)
        w.state with
    | some hit' =>
      refine ⟨rfl, hc, le_refl _, fun _ => ?_⟩
      unfold cached at hit
      split at hit
      · cases hit
      · obtain ⟨entry, hentry, _⟩ := Option.map_eq_some_iff.mp hit
        exact (hc _ entry (Option.filter_eq_some_iff.mp hentry).1).symm
    | none =>
      simp only
      split
      · exact ⟨rfl, hc, Nat.le_succ _, fun h => absurd h (Nat.succ_ne_self _)⟩
      · have hq := hans w.tick (ecosystem.as_str, trim name, trim version)
        cases query : env.query w.tick (ecosystem.as_str, trim name, trim version) with
        | some advisories =>
          rw [query] at hq
          exact ⟨rfl, cacheHolds_success advisories _ hc hq.symm, le_refl _, fun _ => hq⟩
        | none =>
          rw [query] at hq
          exact ⟨rfl, hc, le_refl _, fun _ => hq⟩

/-! ## One target -/

theorem lookup_all_spec (hactive : config.active = true) (hans : Answers env answered)
    {target : SweepTarget} {ecosystem : Ecosystem}
    (hreg : Ecosystem.for_registry target.registry = some ecosystem) (versions : List String)
    (w : Sweeper) (hc : CacheHolds answered w.state) :
    (lookup_all config env target versions w).2.tables = w.tables ∧
    CacheHolds answered (lookup_all config env target versions w).2.state ∧
    w.skipped ≤ (lookup_all config env target versions w).2.skipped ∧
    ((lookup_all config env target versions w).2.skipped = w.skipped →
      (lookup_all config env target versions w).1.map (fun r => (r.1, r.2.verified)) =
        versions.map (fun v => (v, gets_answer answered ecosystem.as_str target.package v))) := by
  induction versions generalizing w with
  | nil => exact ⟨rfl, hc, le_refl _, fun _ => rfl⟩
  | cons version rest ih =>
    obtain ⟨ht, hc', hs, hv⟩ := lookup_spec hactive hans hreg target.package version w hc
    obtain ⟨ht2, hc2, hs2, hv2⟩ :=
      ih (lookup config env target.registry target.package version w).2 hc'
    refine ⟨ht2.trans ht, hc2, hs.trans hs2, fun hno => ?_⟩
    have hno : (lookup_all config env target rest
        (lookup config env target.registry target.package version w).2).2.skipped = w.skipped := hno
    have hhere := hv (by omega)
    have hrest := hv2 (by omega)
    simp only [lookup_all, List.map_cons, hhere, hrest]

theorem checked_iff (t : Tables) (ecosystem package version : String) :
    t.checked ecosystem package version = true ↔
      (t.advisory_check.get (ecosystem, package, version)).isSome = true := by
  unfold Tables.checked
  rw [Table.any_iff, Option.isSome_iff_exists]
  constructor
  · rintro ⟨k, r, hk, heq⟩
    exact ⟨r, of_decide_eq_true heq ▸ hk⟩
  · rintro ⟨r, hr⟩
    exact ⟨_, r, hr, decide_eq_true rfl⟩

theorem checked_record (t : Tables) (key : CacheKey) (now : model.DateTime)
    (ecosystem package version : String) :
    (record_advisory_check key now t).checked ecosystem package version =
      (t.checked ecosystem package version || decide ((ecosystem, package, version) = key)) := by
  rw [Bool.eq_iff_iff, Bool.or_eq_true, checked_iff, checked_iff, decide_eq_true_eq]
  unfold record_advisory_check
  rw [Table.get_upsert]
  split
  · rename_i h
    simp [h]
  · rename_i h
    simp [h]

theorem persist_all_spec (hcalm : Calm env) (target : SweepTarget)
    (results : List (String × LookupOutcome)) (w : Sweeper) :
    (persist_all env target results w).2.tables.seen_release = w.tables.seen_release ∧
    (persist_all env target results w).2.state = w.state ∧
    (persist_all env target results w).2.skipped = w.skipped ∧
    ∀ ecosystem package version,
      ((persist_all env target results w).2.tables.checked ecosystem package version = true ↔
        w.tables.checked ecosystem package version = true ∨
        ecosystem = target.ecosystem ∧ package = target.package ∧
          (version, true) ∈ results.map (fun r => (r.1, r.2.verified))) := by
  induction results generalizing w with
  | nil => exact ⟨rfl, rfl, rfl, fun e p v => by simp [persist_all]⟩
  | cons r rest ih =>
    obtain ⟨version, outcome⟩ := r
    unfold persist_all
    cases hv : outcome.verified with
    | false =>
      obtain ⟨h1, h2, h3, h4⟩ := ih w
      refine ⟨h1, h2, h3, fun e p v => ?_⟩
      have := h4 e p v
      simpa [hv] using this
    | true =>
      obtain ⟨h1, h2, h3, h4⟩ := ih (persist_advisory_result env target.ecosystem target.package
        version outcome.advisories w)
      refine ⟨?_, h2, h3, fun e p v => ?_⟩
      · refine h1.trans ?_
        simp [persist_advisory_result, hcalm.checks, hcalm.advisories, record_advisory_check,
          record_advisories]
      · refine (h4 e p v).trans ?_
        have hone : (persist_advisory_result env target.ecosystem target.package version
            outcome.advisories w).tables.checked e p v =
              (w.tables.checked e p v ||
                decide ((e, p, v) = (target.ecosystem, target.package, version))) := by
          simp only [persist_advisory_result, hcalm.checks, hcalm.advisories, Bool.false_eq_true,
            if_false, checked_record]
          rfl
        rw [hone, Bool.or_eq_true, decide_eq_true_eq]
        simp only [List.map_cons, List.mem_cons, Prod.mk.injEq, hv, and_true]
        tauto

/-- What working on one target leaves behind. -/
structure Worked (answered : CacheKey → Bool) (c : Collation) (size : Nat) (target : SweepTarget)
    (w w' : Sweeper) : Prop where
  seen : w'.tables.seen_release = w.tables.seen_release
  cache : CacheHolds answered w'.state
  skips : w.skipped ≤ w'.skipped
  checks : w'.skipped = w.skipped → ∀ ecosystem package version,
    (w'.tables.checked ecosystem package version = true ↔
      w.tables.checked ecosystem package version = true ∨
      ecosystem = target.ecosystem ∧ package = target.package ∧
        version ∈ batch (seen_versions c target.source_id w.tables)
          (fun v => !w.tables.checked target.ecosystem target.package v) size ∧
        gets_answer answered target.ecosystem target.package version = true)

/-- A target as the sweep resolves it: its ecosystem is its registry's. -/
def Resolved (target : SweepTarget) : Prop :=
  Ecosystem.for_registry target.registry = some ⟨target.ecosystem⟩

theorem sweep_target_resolved {watch : Watch} {target : SweepTarget}
    (h : sweep_target watch = some target) : Resolved target := by
  unfold sweep_target at h
  obtain ⟨⟨registry, package⟩, _, h⟩ := Option.bind_eq_some_iff.mp h
  obtain ⟨ecosystem, he, h⟩ := Option.bind_eq_some_iff.mp h
  cases h
  exact he

theorem sweep_one_worked (hactive : config.active = true) (hcalm : Calm env)
    (hans : Answers env answered) {target : SweepTarget} (htarget : Resolved target) {size : Nat}
    (hsize : size ≤ I64_MAX) (w : Sweeper) (hc : CacheHolds answered w.state) :
    Worked answered c size target w (sweep_one config env c size target w).2 := by
  unfold sweep_one
  simp only [hcalm.queue, Bool.false_eq_true, if_false]
  obtain ⟨ht, hc', hs, hv⟩ := lookup_all_spec hactive hans htarget
    (unchecked_seen_versions c target.source_id target.ecosystem target.package size w.tables)
    { w with tick := w.tick + 1 } hc
  obtain ⟨p1, p2, p3, p4⟩ := persist_all_spec hcalm target
    (lookup_all config env target (unchecked_seen_versions c target.source_id target.ecosystem
      target.package size w.tables) { w with tick := w.tick + 1 }).1
    (lookup_all config env target (unchecked_seen_versions c target.source_id target.ecosystem
      target.package size w.tables) { w with tick := w.tick + 1 }).2
  refine ⟨?_, ?_, ?_, fun hno e p v => ?_⟩
  · rw [p1, ht]
  · rw [p2]
    exact hc'
  · rw [p3]
    exact hs
  · rw [p3] at hno
    rw [p4 e p v, ht, hv hno, unchecked_seen_versions_eq c _ _ _ size hsize]
    simp only [List.mem_map, Prod.mk.injEq]
    constructor
    · rintro (h | ⟨he, hp, x, hx, rfl, hg⟩)
      · exact Or.inl h
      · exact Or.inr ⟨he, hp, hx, hg⟩
    · rintro (h | ⟨he, hp, hx, hg⟩)
      · exact Or.inl h
      · exact Or.inr ⟨he, hp, v, hx, rfl, hg⟩

/-! ## What no target changes, and what it gains -/

/-- Two targets that share their row in `advisory_check`. -/
def SameCoordinate (t t' : SweepTarget) : Prop :=
  t.ecosystem = t'.ecosystem ∧ t.package = t'.package

/-- The unchecked versions ahead of one in a target's queue that never get an answer. -/
def stuck_ahead (answered : CacheKey → Bool) (c : Collation) (target : SweepTarget) (t : Tables)
    (v : String) : List String :=
  stuck (seen_versions c target.source_id t) (fun x => !t.checked target.ecosystem target.package x)
    (gets_answer answered target.ecosystem target.package) v

/-- The unchecked versions ahead of one. -/
def open_ahead (c : Collation) (target : SweepTarget) (t : Tables) (v : String) : List String :=
  (ahead (seen_versions c target.source_id t) v).filter
    (fun x => !t.checked target.ecosystem target.package x)

theorem stuck_ahead_le (answered : CacheKey → Bool) (target : SweepTarget) (t : Tables)
    (v : String) :
    (stuck_ahead answered c target t v).length ≤ (open_ahead c target t v).length := by
  apply open_le
  intro x hx
  exact (Bool.and_eq_true _ _ ▸ hx).1

theorem seen_versions_congr {t t' : Tables} (h : t'.seen_release = t.seen_release)
    (source_id : String) : seen_versions c source_id t' = seen_versions c source_id t := by
  unfold seen_versions
  rw [h]

section
variable {answered : CacheKey → Bool} {size : Nat} {target : SweepTarget} {w w' : Sweeper}
  (h : Worked answered c size target w w') (hno : w'.skipped = w.skipped)
include h hno

theorem stays_checked {ecosystem package v : String}
    (hv : w.tables.checked ecosystem package v = true) :
    w'.tables.checked ecosystem package v = true :=
  (h.checks hno ecosystem package v).mpr (Or.inl hv)

/-- A version without an answer is as checked as it was. -/
theorem unanswered_keeps {ecosystem package v : String}
    (hv : gets_answer answered ecosystem package v = false) :
    w'.tables.checked ecosystem package v = w.tables.checked ecosystem package v := by
  rw [Bool.eq_iff_iff, h.checks hno]
  constructor
  · rintro (hc | ⟨rfl, rfl, _, hg⟩)
    · exact hc
    · exact absurd hg (by simp [hv])
  · exact Or.inl

theorem stuck_ahead_keeps (other : SweepTarget) (v : String) :
    stuck_ahead answered c other w'.tables v = stuck_ahead answered c other w.tables v := by
  unfold stuck_ahead stuck
  rw [seen_versions_congr h.seen]
  apply List.filter_congr
  intro x _
  cases hx : gets_answer answered other.ecosystem other.package x with
  | true => simp
  | false => simp only [unanswered_keeps h hno hx]

theorem open_ahead_le (other : SweepTarget) (v : String) :
    (open_ahead c other w'.tables v).length ≤ (open_ahead c other w.tables v).length := by
  unfold open_ahead
  rw [seen_versions_congr h.seen]
  apply open_le
  intro x hx
  simp only [Bool.not_eq_true', Bool.eq_false_iff] at hx ⊢
  exact fun hc => hx (stays_checked h hno hc)

/-- A version behind a full batch of stuck ones is not checked by its target. -/
theorem stays_unchecked {other : SweepTarget} {v : String}
    (hv : w.tables.checked other.ecosystem other.package v = false)
    (hstuck : gets_answer answered other.ecosystem other.package v = true →
      SameCoordinate target other → v ∈ seen_versions c target.source_id w.tables →
      size ≤ (stuck_ahead answered c target w.tables v).length) :
    w'.tables.checked other.ecosystem other.package v = false := by
  by_contra hc
  rw [Bool.not_eq_false] at hc
  rcases (h.checks hno _ _ v).mp hc with hc | ⟨he, hp, hb, hg⟩
  · simp [hv] at hc
  · have hmem := mem_of_mem_batch hb
    have hlt := (mem_batch_iff hmem.1 hmem.2).mp hb
    have hle := hstuck (he ▸ hp ▸ hg) ⟨he.symm, hp.symm⟩ hmem.1
    have := stuck_ahead_le (c := c) answered target w.tables v
    unfold open_ahead at this
    omega

/-- Where fewer than a batch are stuck ahead, the target checks the version or one ahead. -/
theorem works_towards {v : String} (hv : v ∈ seen_versions c target.source_id w.tables)
    (hg : gets_answer answered target.ecosystem target.package v = true)
    (hlt : (stuck_ahead answered c target w.tables v).length < size) :
    w'.tables.checked target.ecosystem target.package v = true ∨
      (open_ahead c target w'.tables v).length < (open_ahead c target w.tables v).length := by
  by_cases hopen : w.tables.checked target.ecosystem target.package v = true
  · exact Or.inl (stays_checked h hno hopen)
  rw [Bool.not_eq_true] at hopen
  by_cases hb : v ∈ batch (seen_versions c target.source_id w.tables)
      (fun x => !w.tables.checked target.ecosystem target.package x) size
  · exact Or.inl ((h.checks hno _ _ v).mpr (Or.inr ⟨rfl, rfl, hb, hg⟩))
  · obtain ⟨x, hx, hxa, hxo, hxg⟩ := closes_one_ahead hv (by simp [hopen]) hb hlt
    right
    unfold open_ahead
    rw [seen_versions_congr h.seen]
    refine open_drops (fun y hy => ?_) hxa hxo ?_
    · simp only [Bool.not_eq_true', Bool.eq_false_iff] at hy ⊢
      exact fun hc => hy (stays_checked h hno hc)
    · have := (h.checks hno target.ecosystem target.package x).mpr (Or.inr ⟨rfl, rfl, hx, hxg⟩)
      simp [this]

end

/-! ## A round, and round after round -/

/-- The targets of a round worked on one after the other, none skipped. -/
inductive Path (answered : CacheKey → Bool) (c : Collation) (size : Nat) :
    List SweepTarget → Sweeper → Sweeper → Prop where
  | done (w : Sweeper) : Path answered c size [] w w
  | work {target : SweepTarget} {rest : List SweepTarget} {w w₁ w₂ : Sweeper}
      (here : Worked answered c size target w w₁) (hno : w₁.skipped = w.skipped)
      (there : Path answered c size rest w₁ w₂) : Path answered c size (target :: rest) w w₂

theorem round_path (hactive : config.active = true) (hcalm : Calm env) (hans : Answers env answered)
    {size : Nat} (hsize : size ≤ I64_MAX) (targets : List SweepTarget)
    (htargets : ∀ t ∈ targets, Resolved t) (w : Sweeper) (hc : CacheHolds answered w.state) :
    w.skipped ≤ (sweep_advisories_once config env c size targets w).2.skipped ∧
    CacheHolds answered (sweep_advisories_once config env c size targets w).2.state ∧
    ((sweep_advisories_once config env c size targets w).2.skipped = w.skipped →
      Path answered c size targets w (sweep_advisories_once config env c size targets w).2) := by
  induction targets generalizing w with
  | nil => exact ⟨le_refl _, hc, fun _ => Path.done w⟩
  | cons target rest ih =>
    have hw := sweep_one_worked (c := c) hactive hcalm hans
      (htargets target List.mem_cons_self) hsize { w with tick := w.tick + 1 } hc
    obtain ⟨hle, hcache, hpath⟩ := ih (fun t ht => htargets t (List.mem_cons_of_mem _ ht))
      (sweep_one config env c size target { w with tick := w.tick + 1 }).2 hw.cache
    unfold sweep_advisories_once
    simp only [hcalm.runs, Bool.false_eq_true, if_false]
    have hskips : w.skipped ≤
        (sweep_one config env c size target { w with tick := w.tick + 1 }).2.skipped := hw.skips
    refine ⟨hskips.trans hle, hcache, fun hno => ?_⟩
    exact Path.work ⟨hw.seen, hw.cache, hw.skips, hw.checks⟩ (by omega) (hpath (by omega))

section
variable {answered : CacheKey → Bool} {size : Nat} {targets : List SweepTarget} {w w' : Sweeper}

section

variable (h : Path answered c size targets w w')

include h

theorem Path.seen :
    w'.tables.seen_release = w.tables.seen_release := by
  induction h with
  | done => rfl
  | work here _ _ ih => exact ih.trans here.seen

theorem Path.stays_checked {ecosystem package v : String}
    (hv : w.tables.checked ecosystem package v = true) :
    w'.tables.checked ecosystem package v = true := by
  induction h with
  | done => exact hv
  | work here hno _ ih => exact ih (advisory.stays_checked here hno hv)

theorem Path.stuck_ahead_keeps (other : SweepTarget)
    (v : String) :
    stuck_ahead answered c other w'.tables v = stuck_ahead answered c other w.tables v := by
  induction h with
  | done => rfl
  | work here hno _ ih => exact ih.trans (advisory.stuck_ahead_keeps here hno other v)

theorem Path.open_ahead_le (other : SweepTarget)
    (v : String) :
    (open_ahead c other w'.tables v).length ≤ (open_ahead c other w.tables v).length := by
  induction h with
  | done => exact le_refl _
  | work here hno _ ih => exact ih.trans (advisory.open_ahead_le here hno other v)

theorem Path.stays_unchecked {other : SweepTarget}
    {v : String} (hv : w.tables.checked other.ecosystem other.package v = false)
    (hstuck : gets_answer answered other.ecosystem other.package v = true →
      ∀ t ∈ targets, SameCoordinate t other → v ∈ seen_versions c t.source_id w.tables →
        size ≤ (stuck_ahead answered c t w.tables v).length) :
    w'.tables.checked other.ecosystem other.package v = false := by
  induction h with
  | done => exact hv
  | work here hno _ ih =>
    apply ih
    · exact advisory.stays_unchecked here hno hv (fun hg => hstuck hg _ List.mem_cons_self)
    · intro hg t ht hsame hseen
      rw [advisory.stuck_ahead_keeps here hno]
      rw [seen_versions_congr here.seen] at hseen
      exact hstuck hg t (List.mem_cons_of_mem _ ht) hsame hseen

theorem Path.works_towards {target : SweepTarget}
    (ht : target ∈ targets) {v : String} (hv : v ∈ seen_versions c target.source_id w.tables)
    (hg : gets_answer answered target.ecosystem target.package v = true)
    (hlt : (stuck_ahead answered c target w.tables v).length < size) :
    w'.tables.checked target.ecosystem target.package v = true ∨
      (open_ahead c target w'.tables v).length < (open_ahead c target w.tables v).length := by
  induction h with
  | done => simp at ht
  | work here hno there ih =>
    rcases List.mem_cons.mp ht with rfl | ht
    · rcases advisory.works_towards here hno hv hg hlt with hc | hc
      · exact Or.inl (there.stays_checked hc)
      · exact Or.inr ((there.open_ahead_le target v).trans_lt hc)
    · have hle := advisory.open_ahead_le here hno target v
      rcases ih ht (by rw [seen_versions_congr here.seen]; exact hv)
        (by rw [advisory.stuck_ahead_keeps here hno]; exact hlt) with hc | hc
      · exact Or.inl hc
      · exact Or.inr (hc.trans_le hle)

end

end

/-! ## The law -/

/-- The breaker stops no lookup in any round. -/
def NeverSkipped (config : AdvisoryConfig) (env : Surroundings) (c : Collation)
    (watches : List Watch) (w : Sweeper) : Prop :=
  ∀ n, (sweep_rounds config env c watches w n).skipped = w.skipped

/-- Checked before the first round, or answered for and within reach of a batch: a target with
the version's coordinate has fewer than a batch of unanswered ones ahead of it. -/
def InReach (answered : CacheKey → Bool) (config : AdvisoryConfig) (c : Collation)
    (watches : List Watch) (w : Sweeper) (target : SweepTarget) (v : String) : Prop :=
  w.tables.checked target.ecosystem target.package v = true ∨
  gets_answer answered target.ecosystem target.package v = true ∧
    ∃ t ∈ watches.filterMap sweep_target, SameCoordinate t target ∧
      v ∈ seen_versions c t.source_id w.tables ∧
      (stuck_ahead answered c t w.tables v).length < config.sweep_batch.toNat

theorem resolved_of_watches (watches : List Watch) :
    ∀ t ∈ watches.filterMap sweep_target, Resolved t := by
  intro t ht
  obtain ⟨watch, _, hw⟩ := List.mem_filterMap.mp ht
  exact sweep_target_resolved hw

section
variable {answered : CacheKey → Bool} {watches : List Watch} {w : Sweeper}

theorem batch_fits (config : AdvisoryConfig) : config.sweep_batch.toNat ≤ I64_MAX := by
  have := config.sweep_batch.toNat_lt
  unfold I64_MAX
  omega

theorem rounds_cache (hactive : config.active = true) (hcalm : Calm env)
    (hans : Answers env answered) (hc : CacheHolds answered w.state) (n : Nat) :
    CacheHolds answered (sweep_rounds config env c watches w n).state := by
  induction n with
  | zero => exact hc
  | succ n ih =>
    exact (round_path hactive hcalm hans (batch_fits config)
      _ (resolved_of_watches watches) _ ih).2.1

theorem rounds_path (hactive : config.active = true) (hcalm : Calm env)
    (hans : Answers env answered) (hc : CacheHolds answered w.state)
    (hno : NeverSkipped config env c watches w) (n : Nat) :
    Path answered c config.sweep_batch.toNat (watches.filterMap sweep_target)
      (sweep_rounds config env c watches w n) (sweep_rounds config env c watches w (n + 1)) := by
  refine (round_path hactive hcalm hans (batch_fits config)
    _ (resolved_of_watches watches) _ (rounds_cache hactive hcalm hans hc n)).2.2 ?_
  exact (hno (n + 1)).trans (hno n).symm

/-- What holds of the tables of a source, and is kept by a round, holds after any number. -/
theorem rounds_keep {P : Tables → Prop} (h0 : P w.tables)
    (hstep : ∀ w w',
      Path answered c config.sweep_batch.toNat (watches.filterMap sweep_target) w w' →
      P w.tables → P w'.tables)
    (hactive : config.active = true) (hcalm : Calm env) (hans : Answers env answered)
    (hc : CacheHolds answered w.state) (hno : NeverSkipped config env c watches w) (n : Nat) :
    P (sweep_rounds config env c watches w n).tables := by
  induction n with
  | zero => exact h0
  | succ n ih => exact hstep _ _ (rounds_path hactive hcalm hans hc hno n) ih

end

section
variable {answered : CacheKey → Bool} {watches : List Watch} {w : Sweeper}

/-- A version out of reach at the start is never checked. -/
theorem out_of_reach_stays (hactive : config.active = true) (hcalm : Calm env)
    (hans : Answers env answered) (hc : CacheHolds answered w.state)
    (hno : NeverSkipped config env c watches w) {target : SweepTarget} {v : String}
    (hout : ¬ InReach answered config c watches w target v) (n : Nat) :
    (sweep_rounds config env c watches w n).tables.checked target.ecosystem target.package v
      = false := by
  unfold InReach at hout
  push Not at hout
  obtain ⟨hopen, hstuck⟩ := hout
  have hkeep := rounds_keep (P := fun t =>
    t.checked target.ecosystem target.package v = false ∧
      (gets_answer answered target.ecosystem target.package v = true →
        ∀ t' ∈ watches.filterMap sweep_target, SameCoordinate t' target →
          v ∈ seen_versions c t'.source_id t →
          config.sweep_batch.toNat ≤ (stuck_ahead answered c t' t v).length))
    ⟨Bool.not_eq_true _ ▸ hopen, hstuck⟩ ?_ hactive hcalm hans hc hno n
  · exact hkeep.1
  · rintro w w' hpath ⟨hw, hs⟩
    refine ⟨hpath.stays_unchecked hw hs, fun hg t' ht' hsame hseen => ?_⟩
    rw [hpath.stuck_ahead_keeps]
    rw [seen_versions_congr hpath.seen] at hseen
    exact hs hg t' ht' hsame hseen

/-- A version in reach of a target is checked after at most as many further rounds as there are
unchecked ones ahead of it. -/
theorem reached_within (hactive : config.active = true) (hcalm : Calm env)
    (hans : Answers env answered) (hc : CacheHolds answered w.state)
    (hno : NeverSkipped config env c watches w) {target : SweepTarget} {v : String}
    (ht : target ∈ watches.filterMap sweep_target)
    (hv : v ∈ seen_versions c target.source_id w.tables)
    (hg : gets_answer answered target.ecosystem target.package v = true)
    (hlt : (stuck_ahead answered c target w.tables v).length < config.sweep_batch.toNat)
    (k n : Nat)
    (hk : (open_ahead c target (sweep_rounds config env c watches w n).tables v).length ≤ k) :
    ∃ m, (sweep_rounds config env c watches w m).tables.checked target.ecosystem target.package v
      = true := by
  -- the round after `n` checks `v`, or fewer stand unchecked ahead of it
  have hround (n : Nat) := by
    have hkeep := rounds_keep (P := fun t => v ∈ seen_versions c target.source_id t ∧
        (stuck_ahead answered c target t v).length < config.sweep_batch.toNat)
      ⟨hv, hlt⟩ (fun w w' hpath h => by
        rw [seen_versions_congr hpath.seen, hpath.stuck_ahead_keeps]
        exact h) hactive hcalm hans hc hno n
    exact (rounds_path hactive hcalm hans hc hno n).works_towards ht hkeep.1 hg hkeep.2
  induction k generalizing n with
  | zero =>
    rcases hround n with h | h
    · exact ⟨n + 1, h⟩
    · omega
  | succ k ih =>
    rcases hround n with h | h
    · exact ⟨n + 1, h⟩
    · exact ih (n + 1) (by omega)

/-- Versions of a package are all checked in the course of the rounds exactly when each was
checked before or is in reach: answered for, with fewer than a batch of unanswered ones ahead. -/
theorem sweep_progresses_iff (config : AdvisoryConfig) (env : Surroundings) (c : Collation)
    (watches : List Watch) (w : Sweeper) (answered : CacheKey → Bool)
    (hactive : config.sweep_active = true) (hcalm : Calm env) (hans : Answers env answered)
    (hcache : CacheHolds answered w.state) (hno : NeverSkipped config env c watches w)
    (target : SweepTarget) (versions : List String) :
    (∀ v ∈ versions, ∃ n, (sweep_rounds config env c watches w n).tables.checked
        target.ecosystem target.package v = true) ↔
      ∀ v ∈ versions, InReach answered config c watches w target v := by
  have hactive : config.active = true := by
    unfold AdvisoryConfig.sweep_active at hactive
    simp only [Bool.and_eq_true] at hactive
    exact hactive.1.1
  refine forall₂_congr fun v _ => ?_
  constructor
  · rintro ⟨n, hn⟩
    by_contra hout
    rw [out_of_reach_stays hactive hcalm hans hcache hno hout n] at hn
    cases hn
  · rintro (h | ⟨hg, t, ht, ⟨he, hp⟩, hseen, hlt⟩)
    · exact ⟨0, h⟩
    · rw [← he, ← hp] at hg ⊢
      exact reached_within hactive hcalm hans hcache hno ht hseen hg hlt _ 0 (le_refl _)

end

/-! ## A head that never gets an answer -/

/-- Byte order, as a collation. -/
def byte_order : Collation where
  le a b := decide (a ≤ b)
  total a b := by simpa using le_total a b
  trans a b c hab hbc := by
    simp only [decide_eq_true_eq] at *
    exact le_trans hab hbc
  antisymm a b hab hba := by
    simp only [decide_eq_true_eq] at *
    exact le_antisymm hab hba

def one_at_a_time : AdvisoryConfig where
  enabled := true
  endpoint := "https://api.osv.dev"
  cache_ttl_secs := 3600
  breaker_threshold := 5
  breaker_cooldown_secs := 0
  sweep_interval_secs := 3600
  sweep_batch := 1

/-- The service knows the old versions only. -/
def old_known (key : CacheKey) : Bool := key.2.2 = "1.0.0" || key.2.2 = "1.1.0"

def still_surroundings : Surroundings where
  now _ := 0
  query _ key := if old_known key then some [] else none
  shutdown _ := false
  queue_fails _ := false
  advisories_fail _ := false
  check_fails _ := false

def left_pad : Watch where
  provider := ⟨"npm:left-pad", "npm", "npm", "left-pad"⟩
  filter := ⟨false, none, none, none, false⟩
  routing_tag := none
  notify_schedule := none

def left_pad_target : SweepTarget := ⟨"npm:left-pad", .Npm, "npm", "left-pad"⟩

/-- Three versions are seen, the newest one just now. -/
def three_versions : Tables where
  seen_release :=
    ⟨[(("npm:left-pad", "1.0.0"), ⟨none, 0, none, none, none⟩),
      (("npm:left-pad", "1.1.0"), ⟨none, 1, none, none, none⟩),
      (("npm:left-pad", "2.0.0"), ⟨none, 2, none, none, none⟩)], by decide⟩
  release_advisory := Table.empty
  advisory_check := Table.empty

def before_the_sweep : Sweeper := ⟨three_versions, ⟨Table.empty, ⟨0, none⟩⟩, 0, 0⟩

theorem left_pad_targets : [left_pad].filterMap sweep_target = [left_pad_target] := by
  decide +kernel

theorem still_calm : Calm still_surroundings :=
  ⟨fun _ => rfl, fun _ => rfl, fun _ => rfl, fun _ => rfl⟩

theorem still_answers : Answers still_surroundings old_known := by
  intro n key
  change (if old_known key then some [] else none : Option (List Advisory)).isSome = _
  cases old_known key <;> rfl

theorem nothing_cached : CacheHolds old_known before_the_sweep.state := by
  intro key entry h
  cases h

section
variable {config : AdvisoryConfig} {env : Surroundings} (hnow : ∀ n, env.now n = 0)
  (hcool : config.breaker_cooldown_secs = 0)
include hnow hcool

/-- Without a cooldown the breaker of a clock that stands still stops nothing. -/
theorem lookup_unshut (registry : xrelease.config.PackageRegistry) (name version : String)
    {w : Sweeper} (h : w.state.breaker.allows 0 = true) :
    (lookup config env registry name version w).2.skipped = w.skipped ∧
      (lookup config env registry name version w).2.state.breaker.allows 0 = true := by
  have hfailed : (record_failure config 0 w.state).breaker.allows 0 = true := by
    have hopen : (record_failure config 0 w.state).breaker.open_until = some 0 ∨
        (record_failure config 0 w.state).breaker.open_until = w.state.breaker.open_until := by
      unfold record_failure Breaker.record
      simp only [hcool, Bool.false_eq_true, if_false]
      split
      · exact Or.inl rfl
      · exact Or.inr rfl
    unfold Breaker.allows at h ⊢
    rcases hopen with hopen | hopen <;> rw [hopen]
    · rfl
    · exact h
  unfold lookup
  simp only [hnow]
  cases config.active with
  | false => exact ⟨rfl, h⟩
  | true =>
    simp only [Bool.not_true, Bool.false_eq_true, if_false]
    split
    · exact ⟨rfl, h⟩
    · split
      · exact ⟨rfl, h⟩
      · split
        · exact ⟨rfl, h⟩
        · simp only [h, Bool.not_true, Bool.false_eq_true, if_false]
          split
          · exact ⟨rfl, rfl⟩
          · exact ⟨rfl, hfailed⟩

theorem lookup_all_unshut (target : SweepTarget) (versions : List String) {w : Sweeper}
    (h : w.state.breaker.allows 0 = true) :
    (lookup_all config env target versions w).2.skipped = w.skipped ∧
      (lookup_all config env target versions w).2.state.breaker.allows 0 = true := by
  induction versions generalizing w with
  | nil => exact ⟨rfl, h⟩
  | cons version rest ih =>
    obtain ⟨hskip, hstep⟩ := lookup_unshut hnow hcool target.registry target.package version h
    obtain ⟨hskips, hrest⟩ := ih hstep
    exact ⟨hskips.trans hskip, hrest⟩

theorem round_unshut (hcalm : Calm env) (c : Collation) (size : Nat) (targets : List SweepTarget)
    {w : Sweeper} (h : w.state.breaker.allows 0 = true) :
    (sweep_advisories_once config env c size targets w).2.skipped = w.skipped ∧
      (sweep_advisories_once config env c size targets w).2.state.breaker.allows 0 = true := by
  induction targets generalizing w with
  | nil => exact ⟨rfl, h⟩
  | cons target rest ih =>
    have hone : (sweep_one config env c size target { w with tick := w.tick + 1 }).2.skipped =
        w.skipped ∧ (sweep_one config env c size target
          { w with tick := w.tick + 1 }).2.state.breaker.allows 0 = true := by
      unfold sweep_one
      simp only [hcalm.queue, Bool.false_eq_true, if_false]
      obtain ⟨-, hstate, hskip, -⟩ := persist_all_spec hcalm target _ _
      rw [hstate, hskip]
      exact lookup_all_unshut hnow hcool target _ h
    unfold sweep_advisories_once
    simp only [hcalm.runs, Bool.false_eq_true, if_false]
    obtain ⟨hskips, hrest⟩ := ih hone.2
    exact ⟨hskips.trans hone.1, hrest⟩

theorem never_skipped (hcalm : Calm env) (c : Collation) (watches : List Watch) {w : Sweeper}
    (h : w.state.breaker.allows 0 = true) : NeverSkipped config env c watches w := by
  have hrounds (n : Nat) : (sweep_rounds config env c watches w n).skipped = w.skipped ∧
      (sweep_rounds config env c watches w n).state.breaker.allows 0 = true := by
    induction n with
    | zero => exact ⟨rfl, h⟩
    | succ n ih =>
      obtain ⟨hskip, hnext⟩ := round_unshut hnow hcool hcalm c config.sweep_batch.toNat
        (watches.filterMap sweep_target) ih.2
      exact ⟨hskip.trans ih.1, hnext⟩
  exact fun n => (hrounds n).1

end

/-- Two versions a round. -/
def two_at_a_time : AdvisoryConfig := { one_at_a_time with sweep_batch := 2 }

/-- With a batch of two, both old versions are asked about behind the one without an answer. -/
theorem sweep_progresses_iff_here :
    (∃ n, (sweep_rounds two_at_a_time still_surroundings byte_order [left_pad] before_the_sweep
      n).tables.checked left_pad_target.ecosystem left_pad_target.package "1.1.0" = true) ∧
    ∃ n, (sweep_rounds two_at_a_time still_surroundings byte_order [left_pad] before_the_sweep
      n).tables.checked left_pad_target.ecosystem left_pad_target.package "1.0.0" = true := by
  have hreach : ∀ v ∈ ["1.1.0", "1.0.0"],
      gets_answer old_known left_pad_target.ecosystem left_pad_target.package v = true ∧
        v ∈ seen_versions byte_order left_pad_target.source_id before_the_sweep.tables ∧
        (stuck_ahead old_known byte_order left_pad_target before_the_sweep.tables v).length < 2 := by
    decide +kernel
  have hchecked := (sweep_progresses_iff two_at_a_time still_surroundings byte_order [left_pad]
    before_the_sweep old_known (by decide +kernel) still_calm still_answers nothing_cached
    (never_skipped (fun _ => rfl) rfl still_calm byte_order [left_pad] rfl) left_pad_target
    ["1.1.0", "1.0.0"]).mpr (fun v hv => by
      obtain ⟨hgets, hseen, hstuck⟩ := hreach v hv
      exact Or.inr ⟨hgets, left_pad_target, left_pad_targets ▸ List.mem_cons_self, ⟨rfl, rfl⟩,
        hseen, hstuck⟩)
  exact ⟨hchecked "1.1.0" (by simp), hchecked "1.0.0" (by simp)⟩

/-- With a batch of one, a newest version that never gets an answer keeps the older ones, which
the service knows, from ever being asked about. -/
theorem a_dead_head_blocks_the_rest :
    ¬ ∀ (config : AdvisoryConfig) (env : Surroundings) (c : Collation) (watches : List Watch)
      (w : Sweeper) (answered : CacheKey → Bool), config.sweep_active = true → Calm env →
      Answers env answered → CacheHolds answered w.state →
      NeverSkipped config env c watches w →
      ∀ target ∈ watches.filterMap sweep_target,
      ∀ v ∈ seen_versions c target.source_id w.tables,
      gets_answer answered target.ecosystem target.package v = true →
      ∃ n, (sweep_rounds config env c watches w n).tables.checked
        target.ecosystem target.package v = true := by
  intro h
  have hactive : one_at_a_time.sweep_active = true := by decide +kernel
  have hunskipped : NeverSkipped one_at_a_time still_surroundings byte_order [left_pad]
      before_the_sweep :=
    never_skipped (fun _ => rfl) rfl still_calm byte_order [left_pad] rfl
  obtain ⟨n, hn⟩ := h one_at_a_time still_surroundings byte_order [left_pad] before_the_sweep
    old_known hactive still_calm still_answers nothing_cached hunskipped left_pad_target
    (left_pad_targets ▸ List.mem_cons_self) "1.0.0" (by decide +kernel) (by decide +kernel)
  have hout : ¬ InReach old_known one_at_a_time byte_order [left_pad] before_the_sweep
      left_pad_target "1.0.0" := by
    rintro (hchecked | ⟨-, t, ht, -, -, hstuck⟩)
    · revert hchecked
      decide +kernel
    · rw [left_pad_targets, List.mem_singleton] at ht
      subst ht
      revert hstuck
      decide +kernel
  rw [out_of_reach_stays (by decide +kernel) still_calm still_answers nothing_cached hunskipped
    hout n] at hn
  cases hn

end xrelease.advisory
