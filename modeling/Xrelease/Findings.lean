-- A version that is marked as checked has its findings in the store: what deliveries, detail pages
-- and sweeps record of their lookups, call by call of `persist_advisory_result`, whichever of its
-- two writes the store fails.
import Xrelease.Swept

namespace xrelease.findings

open text keyed xrelease.model xrelease.advisory
open xrelease.config (PackageRegistry)

/-! ## The callers -/

section
variable (config : AdvisoryConfig) (env : Surroundings)

/-- The advisories that a delivery attaches to its event, after the lookup for its version; a real
answer is recorded. -/
def enrich_with_advisories (source_id kind package_name version : String) (w : Sweeper) :
    Option (List Advisory) × Sweeper :=
  if !config.active then (none, w)
  else match coordinate_from_source source_id kind package_name with
  | none => (none, w)
  | some (registry, name) =>
    let (outcome, w) := lookup config env registry name version w
    let w :=
      if outcome.verified then
        match Ecosystem.for_registry registry with
        | some ecosystem =>
          persist_advisory_result env ecosystem.as_str name version outcome.advisories w
        | none => w
      else w
    (if outcome.advisories = [] then none else some outcome.advisories, w)

/-- A release on a source's detail page, with the findings that were read for it. -/
structure SeenRelease where
  tag : String
  advisories : List Advisory
deriving DecidableEq

def DETAIL_ADVISORY_BACKFILL : Nat := 5

/-- Fill in a few versions of the page that were never checked. -/
def backfill_advisories_for_detail (id kind display_name : String)
    (seen_releases : List SeenRelease) (w : Sweeper) : List SeenRelease × Sweeper :=
  match coordinate_from_source id kind display_name with
  | none => (seen_releases, w)
  | some (registry, name) =>
    match Ecosystem.for_registry registry with
    | none => (seen_releases, w)
    | some ecosystem =>
      let empty := seen_releases.zipIdx.filter (fun release => release.1.advisories = [])
      if empty = [] then (seen_releases, w)
      else if env.queue_fails w.tick then (seen_releases, { w with tick := w.tick + 1 })
      else
        let pending := (empty.filter (fun release =>
          !w.tables.checked ecosystem.as_str name release.1.tag)).take DETAIL_ADVISORY_BACKFILL
        let target : SweepTarget := ⟨id, registry, ecosystem.as_str, name⟩
        let (looked_up, w) := lookup_all config env target (pending.map (fun p => p.1.tag))
          { w with tick := w.tick + 1 }
        let (_, w) := persist_all env target looked_up w
        (((pending.map Prod.snd).zip looked_up).foldl (fun releases found =>
          if found.2.2.verified then
            releases.modify found.1 (fun release => { release with
              advisories := found.2.2.advisories })
          else releases) seen_releases, w)

/-- What looks advisories up, each by itself. -/
inductive Act where
  | deliver (source_id kind package_name version : String)
  | detail (id kind display_name : String) (seen_releases : List SeenRelease)
  | sweep (batch : Nat) (targets : List SweepTarget)

variable (c : Collation)

def act (w : Sweeper) : Act → Sweeper
  | .deliver source_id kind package_name version =>
    (enrich_with_advisories config env source_id kind package_name version w).2
  | .detail id kind display_name seen_releases =>
    (backfill_advisories_for_detail config env id kind display_name seen_releases w).2
  | .sweep batch targets => (sweep_advisories_once config env c batch targets w).2

def run (w : Sweeper) (acts : List Act) : Sweeper := acts.foldl (act config env c) w

end

/-! ## The calls that record -/

/-- One call of `persist_advisory_result`, with what the store does to its two writes. -/
structure Persist where
  key : CacheKey
  advisories : List Advisory
  now : DateTime
  advisories_fail : Bool
  check_fails : Bool
deriving DecidableEq

/-- The tables after the call. -/
def Persist.record (t : Tables) (p : Persist) : Tables :=
  let t := if p.advisories_fail then t else record_advisories p.key p.advisories t
  if p.check_fails then t else record_advisory_check p.key p.now t

/-- The version was checked: no sweep asks about it again. -/
def marked (t : Tables) (key : CacheKey) : Bool := t.checked key.1 key.2.1 key.2.2

section
variable (config : AdvisoryConfig) (env : Surroundings)

/-- The call at this number, for this answer. -/
def persist_at (ecosystem package version : String) (advisories : List Advisory) (tick : Nat) :
    Persist :=
  ⟨(ecosystem, package, version), advisories, env.now tick, env.advisories_fail tick,
    env.check_fails tick⟩

/-- The calls of `persist_all`. -/
def calls_for (target : SweepTarget) : List (String × LookupOutcome) → Nat → List Persist
  | [], _ => []
  | (version, outcome) :: rest, tick =>
    if !outcome.verified then calls_for target rest tick
    else persist_at env target.ecosystem target.package version outcome.advisories tick ::
      calls_for target rest (tick + 1)

def delivery_calls (source_id kind package_name version : String) (w : Sweeper) : List Persist :=
  if !config.active then []
  else match coordinate_from_source source_id kind package_name with
  | none => []
  | some (registry, name) =>
    let (outcome, w) := lookup config env registry name version w
    if outcome.verified then
      match Ecosystem.for_registry registry with
      | some ecosystem =>
        [persist_at env ecosystem.as_str name version outcome.advisories w.tick]
      | none => []
    else []

def detail_calls (id kind display_name : String) (seen_releases : List SeenRelease)
    (w : Sweeper) : List Persist :=
  match coordinate_from_source id kind display_name with
  | none => []
  | some (registry, name) =>
    match Ecosystem.for_registry registry with
    | none => []
    | some ecosystem =>
      let empty := seen_releases.zipIdx.filter (fun release => release.1.advisories = [])
      if empty = [] then []
      else if env.queue_fails w.tick then []
      else
        let pending := (empty.filter (fun release =>
          !w.tables.checked ecosystem.as_str name release.1.tag)).take DETAIL_ADVISORY_BACKFILL
        let target : SweepTarget := ⟨id, registry, ecosystem.as_str, name⟩
        let (looked_up, w) := lookup_all config env target (pending.map (fun p => p.1.tag))
          { w with tick := w.tick + 1 }
        calls_for env target looked_up w.tick

variable (c : Collation)

def target_calls (batch : Nat) (target : SweepTarget) (w : Sweeper) : List Persist :=
  if env.queue_fails w.tick then []
  else
    let versions :=
      unchecked_seen_versions c target.source_id target.ecosystem target.package batch w.tables
    let (results, w) := lookup_all config env target versions { w with tick := w.tick + 1 }
    calls_for env target results w.tick

def sweep_calls (batch : Nat) : List SweepTarget → Sweeper → List Persist
  | [], _ => []
  | target :: rest, w =>
    if env.shutdown w.tick then []
    else
      target_calls config env c batch target { w with tick := w.tick + 1 } ++
        sweep_calls batch rest
          (sweep_one config env c batch target { w with tick := w.tick + 1 }).2

def act_calls (w : Sweeper) : Act → List Persist
  | .deliver source_id kind package_name version =>
    delivery_calls config env source_id kind package_name version w
  | .detail id kind display_name seen_releases =>
    detail_calls config env id kind display_name seen_releases w
  | .sweep batch targets => sweep_calls config env c batch targets w

/-- Every call of a run, in order. -/
def calls (w : Sweeper) : List Act → List Persist
  | [] => []
  | a :: rest => act_calls config env c w a ++ calls (act config env c w a) rest

end

section
variable {config : AdvisoryConfig} {env : Surroundings}

variable {c : Collation}

end

/-! ## Stored and marked -/

/-- Every finding of the call is in the store: under its id there is one of these findings. -/
def Stored (p : Persist) (t : Tables) : Prop :=
  ∀ a ∈ p.advisories, ∃ b ∈ p.advisories, b.id = a.id ∧
    t.release_advisory.get (p.key, a.id) = some b

/-- The call's answer was replaced by that of another call for the version. -/
def Replaced (p : Persist) (later : List Persist) : Prop :=
  ∃ q ∈ later, q.key = p.key ∧ q.advisories_fail = false

/-- In every state that these calls reach, a version that was marked has the findings of that
lookup in the store, or those of a later one; and a call that cannot store its findings does not
mark a version that was not marked. -/
structure Kept (t : Tables) (calls : List Persist) : Prop where
  stored : ∀ before p later rest, calls = before ++ p :: (later ++ rest) → p.check_fails = false →
    Stored p ((before ++ p :: later).foldl Persist.record t) ∨ Replaced p later
  eligible : ∀ before p rest, calls = before ++ p :: rest → p.advisories_fail = true →
    marked (before.foldl Persist.record t) p.key = false →
      marked ((before ++ [p]).foldl Persist.record t) p.key = false

/-- A call whose findings the store does not take does not mark the version either, unless it was
marked already and has these findings. -/
def FailsWhole (t : Tables) (calls : List Persist) : Prop :=
  ∀ before p rest, calls = before ++ p :: rest → p.advisories_fail = true →
    p.check_fails = true ∨
      marked (before.foldl Persist.record t) p.key = true ∧
        Stored p (before.foldl Persist.record t)

theorem get_upserts (key : CacheKey) (advisories : List Advisory)
    (rows : Table (CacheKey × String) Advisory) (k : CacheKey × String) :
    (advisories.foldl (fun rows a => rows.upsert (key, a.id) a (fun _ => a)) rows).get k =
      ((advisories.reverse.find? (fun a => (key, a.id) = k)).or (rows.get k)) := by
  induction advisories generalizing rows with
  | nil => rfl
  | cons a rest ih =>
    rw [List.foldl_cons, ih, List.reverse_cons, List.find?_append, Table.get_upsert]
    by_cases hk : k = (key, a.id)
    · subst hk
      cases (rows.get (key, a.id)) <;> simp
    · have hne : ¬ (key, a.id) = k := fun h => hk h.symm
      simp [hk, hne]

/-- What is written for a version is there. -/
theorem record_advisories_get (key : CacheKey) (advisories : List Advisory) (t : Tables)
    (id : String) :
    (record_advisories key advisories t).release_advisory.get (key, id) =
      advisories.reverse.find? (fun a => a.id = id) := by
  unfold record_advisories
  simp only [get_upserts, Table.get_keep, Prod.mk.injEq, true_and]
  simp

theorem record_advisories_other {key other : CacheKey} (h : other ≠ key)
    (advisories : List Advisory) (t : Tables) (id : String) :
    (record_advisories key advisories t).release_advisory.get (other, id) =
      t.release_advisory.get (other, id) := by
  unfold record_advisories
  have hnone : advisories.reverse.find? (fun a => decide ((key, a.id) = (other, id))) = none := by
    rw [List.find?_eq_none]
    intro a _ heq
    exact h (Prod.mk.inj (of_decide_eq_true heq)).1.symm
  simp only [get_upserts, hnone, Option.none_or, Table.get_keep]
  cases t.release_advisory.get (other, id) <;> simp [h]

theorem record_findings (p : Persist) (t : Tables) :
    (p.record t).release_advisory =
      if p.advisories_fail then t.release_advisory
      else (record_advisories p.key p.advisories t).release_advisory := by
  unfold Persist.record
  cases p.advisories_fail <;> cases p.check_fails <;> rfl

theorem marked_record (p : Persist) (t : Tables) (key : CacheKey) :
    marked (p.record t) key = (marked t key || (!p.check_fails && decide (key = p.key))) := by
  unfold marked Persist.record
  cases p.check_fails with
  | true => cases p.advisories_fail <;> simp [Tables.checked, record_advisories]
  | false =>
    simp only [Bool.false_eq_true, if_false, checked_record, Bool.not_false, Bool.true_and]
    cases p.advisories_fail <;> rfl

theorem stored_after {p : Persist} (h : p.advisories_fail = false) (t : Tables) :
    Stored p (p.record t) := by
  intro a ha
  rw [record_findings, h, if_neg Bool.false_ne_true, record_advisories_get]
  cases hfind : p.advisories.reverse.find? (fun b => b.id = a.id) with
  | none =>
    rw [List.find?_eq_none] at hfind
    exact absurd (by simp) (hfind a (List.mem_reverse.mpr ha))
  | some b =>
    refine ⟨b, List.mem_reverse.mp (List.mem_of_find?_eq_some hfind), ?_, rfl⟩
    simpa using List.find?_some hfind

/-- A call for another version, or one whose findings are not taken, leaves what is stored. -/
theorem stored_keeps {p q : Persist} {t : Tables}
    (h : ¬ (q.key = p.key ∧ q.advisories_fail = false)) (hs : Stored p t) :
    Stored p (q.record t) := by
  intro a ha
  obtain ⟨b, hb, hid, hget⟩ := hs a ha
  refine ⟨b, hb, hid, ?_⟩
  rw [record_findings]
  by_cases hfails : q.advisories_fail = true
  · rw [if_pos hfails]
    exact hget
  · rw [if_neg hfails, record_advisories_other _ q.advisories t a.id]
    · exact hget
    · intro hkey
      exact h ⟨hkey.symm, by simpa using hfails⟩

theorem stored_run {p : Persist} (later : List Persist) {t : Tables} (h : Stored p t) :
    Stored p (later.foldl Persist.record t) ∨ Replaced p later := by
  induction later generalizing t with
  | nil => exact Or.inl h
  | cons q rest ih =>
    by_cases hq : q.key = p.key ∧ q.advisories_fail = false
    · exact Or.inr ⟨q, List.mem_cons_self, hq⟩
    · rcases ih (stored_keeps hq h) with hstored | ⟨r, hr, hkey⟩
      · exact Or.inl hstored
      · exact Or.inr ⟨r, List.mem_cons_of_mem _ hr, hkey⟩

theorem record_last (t : Tables) (before : List Persist) (p : Persist) :
    (before ++ [p]).foldl Persist.record t = p.record (before.foldl Persist.record t) := by
  rw [List.foldl_append]
  rfl

theorem fails_whole_of_kept {t : Tables} {calls : List Persist} (h : Kept t calls) :
    FailsWhole t calls := by
  intro before p rest hcalls hfails
  by_cases hcheck : p.check_fails = true
  · exact Or.inl hcheck
  · have hcheck : p.check_fails = false := by simpa using hcheck
    refine Or.inr ⟨?_, ?_⟩
    · by_contra hnew
      have hopen := h.eligible before p rest hcalls hfails (by simpa using hnew)
      rw [record_last, marked_record, hcheck] at hopen
      simp at hopen
    · rcases h.stored before p [] rest hcalls hcheck with hstored | ⟨q, hq, -⟩
      · intro a ha
        obtain ⟨b, hb, hid, hget⟩ := hstored a ha
        rw [record_last, record_findings, if_pos hfails] at hget
        exact ⟨b, hb, hid, hget⟩
      · simp at hq

theorem kept_of_fails_whole {t : Tables} {calls : List Persist} (h : FailsWhole t calls) :
    Kept t calls := by
  constructor
  · intro before p later rest hcalls hcheck
    rw [List.foldl_append, List.foldl_cons]
    apply stored_run
    by_cases hfails : p.advisories_fail = true
    · rcases h before p (later ++ rest) hcalls hfails with hboth | ⟨-, hstored⟩
      · rw [hcheck] at hboth
        exact absurd hboth Bool.false_ne_true
      · refine stored_keeps ?_ hstored
        rintro ⟨-, hok⟩
        rw [hfails] at hok
        exact absurd hok (by simp)
    · exact stored_after (by simpa using hfails) _
  · intro before p rest hcalls hfails hnew
    rw [record_last, marked_record, hnew]
    rcases h before p rest hcalls hfails with hcheck | ⟨hmarked, -⟩
    · simp [hcheck]
    · rw [hnew] at hmarked
      exact absurd hmarked Bool.false_ne_true

/-- Marked versions have their findings, and those whose findings are lost stay in the queue, over
exactly the runs in which no call that cannot store its findings goes on to mark the version, but
for one that was marked and has them. -/
theorem marked_versions_keep_their_findings_iff (config : AdvisoryConfig) (env : Surroundings)
    (c : Collation) (w : Sweeper) (acts : List Act) :
    Kept w.tables (calls config env c w acts) ↔
      FailsWhole w.tables (calls config env c w acts) :=
  ⟨fails_whole_of_kept, kept_of_fails_whole⟩

/-! ## A finding that is lost -/

def flaw : Advisory := ⟨"GHSA-1", "CVE-1", none, some .High, none, none⟩

/-- The service knows of a flaw, and the store does not take it. -/
def full_disk : Surroundings :=
  { still_surroundings with
    query := fun _ _ => some [flaw]
    advisories_fail := fun _ => true }

def one_delivery : List Act := [.deliver "npm:left-pad" "npm" "left-pad" "1.0.0"]

/-- The delivery marks the version and its flaw is nowhere; no sweep asks about it again. -/
theorem a_finding_is_lost :
    ¬ Kept three_versions
        (calls one_at_a_time full_disk byte_order before_the_sweep one_delivery) ∧
      (run one_at_a_time full_disk byte_order before_the_sweep
        one_delivery).tables.release_advisory.rows = [] ∧
      unchecked_seen_versions byte_order "npm:left-pad" "npm" "left-pad" 3
        (run one_at_a_time full_disk byte_order before_the_sweep
          one_delivery).tables = ["2.0.0", "1.1.0"] := by
  refine ⟨?_, by decide +kernel, by decide +kernel⟩
  intro h
  have hcalls : calls one_at_a_time full_disk byte_order before_the_sweep one_delivery =
      [⟨("npm", "left-pad", "1.0.0"), [flaw], 0, true, false⟩] := by
    decide +kernel
  rw [hcalls] at h
  have hopen := h.eligible [] _ [] rfl rfl (by decide +kernel)
  exact absurd hopen (by decide +kernel)

end xrelease.findings
