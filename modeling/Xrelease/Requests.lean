-- What an event of a run comes to: a call of `apply_document` where the checks of the request are
-- passed, a reload that is refused, skipped or swaps something in, or nothing.
import Xrelease.Bootable
import Xrelease.Routes

namespace xrelease.requests

open xrelease.config xrelease.config_apply xrelease.outcomes xrelease.atomic xrelease.bootable
  xrelease.api text

/-! ## What a call shows -/

/-- An answer that something was applied has the digest of the candidate. -/
theorem answered_sha {server : Server} {faults : Faults} {process : Process} {scope : ApplyScope}
    {raw : String} {hint : Option DesiredFormat} {response : ApplyResponse}
    (h : (apply_document server faults process scope raw hint).1 = .ok response)
    (happlied : response.applied = true) :
    ∃ candidate, Reaches server faults process scope raw hint candidate ∧
      response.content_sha256 = candidate.ledger_sha := by
  have hreach : ∃ candidate, Reaches server faults process scope raw hint candidate := by
    by_contra hnone
    rw [not_exists] at hnone
    have hout := apply_outcome server faults process scope raw hint
    rw [h] at hout
    generalize (apply_document server faults process scope raw hint).2 = process' at hout
    cases hout with
    | unchanged response applied unreached => simp [applied] at happlied
    | rotated c _ _ reached => exact hnone c reached
    | recorded c _ _ _ _ _ reached => exact hnone c reached
  obtain ⟨candidate, hreach⟩ := hreach
  refine ⟨candidate, hreach, ?_⟩
  unfold apply_document at h
  rw [hreach.latest] at h
  simp only at h
  rcases current_filter process scope (server.setup.sha256 raw) with ⟨hpushed, -⟩ | ⟨-, hcurrent⟩
  · exact absurd hpushed hreach.pushed
  · rw [hcurrent] at h
    simp only [hreach.resolved, hreach.valid, Bool.true_eq_false, if_false] at h
    rcases current_filter process scope candidate.ledger_sha with
      ⟨hsame, current, hcurrent'⟩ | ⟨-, hcurrent'⟩
    · rw [hcurrent'] at h
      simp only [if_neg (hreach.rotates hsame)] at h
      split at h
      · simp at h
      · rw [← Except.ok.inj h]
    · rw [hcurrent'] at h
      simp only at h
      split at h
      · simp at h
      · unfold swap_and_record at h
        split at h
        · simp at h
        · split at h
          · rw [← Except.ok.inj h]
          · split at h <;> simp at h

/-- Something was swapped in, and its body is not recorded. -/
def SwappedUnrecorded (server : Server) (faults : Faults) (process : Process) (scope : ApplyScope)
    (raw : String) (hint : Option DesiredFormat) : Prop :=
  faults.insert ≠ none ∧ ∃ candidate stale swapped,
    Reaches server faults process scope raw hint candidate ∧
    ¬ IsCurrent process scope candidate.ledger_sha ∧ Seals server faults candidate ∧
    Prunes server faults process scope candidate stale ∧
    apply_runtime server (kept server process candidate stale) candidate.merged = .ok swapped

/-- A call records its candidate; or it leaves every stream's latest revision and answers with its
digest, and leaves what runs unless it fails with something else swapped in. -/
theorem called_cases (server : Server) (faults : Faults) (process : Process) (scope : ApplyScope)
    (raw : String) (hint : Option DesiredFormat) :
    (∃ candidate response, Records server faults process scope raw hint candidate ∧
        (apply_document server faults process scope raw hint).1 = .ok response ∧
        response.applied = true ∧ response.content_sha256 = candidate.ledger_sha ∧
        (apply_document server faults process scope raw hint).2.ledger =
          process.ledger ++ [applied_row faults process scope candidate] ∧
        (apply_document server faults process scope raw hint).2.effective = candidate.merged) ∨
      (∀ candidate, ¬ Records server faults process scope raw hint candidate) ∧
        (∀ stream, latest_applied_config_revision
            (apply_document server faults process scope raw hint).2.ledger stream =
          latest_applied_config_revision process.ledger stream) ∧
        (∀ response, (apply_document server faults process scope raw hint).1 = .ok response →
          response.applied = true → IsCurrent process scope response.content_sha256) ∧
        ((apply_document server faults process scope raw hint).2.effective = process.effective ∨
          SwappedUnrecorded server faults process scope raw hint ∧
            ∃ err, (apply_document server faults process scope raw hint).1 = .error err) := by
  have hsha := @answered_sha server faults process scope raw hint
  have hout := apply_outcome server faults process scope raw hint
  generalize (apply_document server faults process scope raw hint).1 = answer at hsha hout ⊢
  generalize (apply_document server faults process scope raw hint).2 = process' at hout ⊢
  cases hout with
  | refused err rows unreached rejected =>
    refine Or.inr ⟨fun c hc => unreached c hc.reached, fun stream => ?_, by simp, Or.inl rfl⟩
    simp only [latest_applied_config_revision, applied_revisions_rejected _ _ rejected]
  | unchanged response applied unreached =>
    refine Or.inr ⟨fun c hc => unreached c hc.reached, fun _ => rfl, ?_, Or.inl rfl⟩
    intro _ h happlied
    obtain rfl := Except.ok.inj h
    simp [applied] at happlied
  | not_sealed candidate err vault reached unsealed =>
    refine Or.inr ⟨fun c hc => ?_, fun _ => rfl, by simp, Or.inl rfl⟩
    obtain rfl := reaches_unique reached hc.reached
    exact unsealed hc.seals
  | not_pruned candidate err vault reached seals unpruned =>
    refine Or.inr ⟨fun c hc => ?_, fun _ => rfl, by simp, Or.inl rfl⟩
    obtain rfl := reaches_unique reached hc.reached
    obtain ⟨stale, -, hp, -⟩ := hc.swaps
    exact unpruned stale hp
  | rotated candidate stale response reached current seals prunes applied =>
    refine Or.inr ⟨fun c hc => ?_, fun _ => rfl, ?_, Or.inl rfl⟩
    · obtain rfl := reaches_unique reached hc.reached
      exact hc.news current
    · intro response' h happlied
      obtain ⟨c, hc, hdigest⟩ := hsha h happlied
      obtain rfl := reaches_unique reached hc
      rw [hdigest]
      exact current
  | not_swapped candidate stale err kept kept_eq reached news seals prunes unswapped =>
    subst kept_eq
    refine Or.inr ⟨fun c hc => ?_, fun _ => rfl, by simp, Or.inl rfl⟩
    obtain rfl := reaches_unique reached hc.reached
    obtain ⟨stale', swapped, hp, hswap⟩ := hc.swaps
    obtain rfl := prunes_unique prunes hp
    exact unswapped swapped hswap
  | swapped_back candidate stale err kept swapped back kept_eq reached news seals prunes swaps
      unrecorded swaps_back =>
    have hledger : process'.ledger = process.ledger := by
      rw [(apply_runtime_keeps swaps_back).2.1, (apply_runtime_keeps swaps).2.1, kept_eq]
    subst kept_eq
    refine Or.inr ⟨fun c hc => unrecorded hc.inserts, fun _ => by rw [hledger], by simp,
      Or.inr ⟨⟨unrecorded, candidate, stale, swapped, reached, news, seals, prunes, swaps⟩,
        err, rfl⟩⟩
  | stuck candidate stale err kept swapped kept_eq reached news seals prunes swaps unrecorded
      stays =>
    have hledger : process'.ledger = process.ledger := by
      rw [(apply_runtime_keeps swaps).2.1, kept_eq]
    subst kept_eq
    refine Or.inr ⟨fun c hc => unrecorded hc.inserts, fun _ => by rw [hledger], by simp,
      Or.inr ⟨⟨unrecorded, candidate, stale, process', reached, news, seals, prunes, swaps⟩,
        err, rfl⟩⟩
  | recorded candidate stale response kept swapped kept_eq reached news seals prunes swaps inserts
      applied =>
    obtain ⟨c, hc, hdigest⟩ := hsha rfl applied
    obtain rfl := reaches_unique reached hc
    subst kept_eq
    refine Or.inl ⟨_, response, ⟨reached, news, seals, ⟨stale, swapped, prunes, swaps⟩, inserts⟩,
      rfl, applied, hdigest, ?_, (apply_runtime_keeps swaps).2.2⟩
    simp only [(apply_runtime_keeps swaps).2.1]

/-! ## Calls -/

/-- A call of `apply_document`. -/
structure Attempt where
  faults : Faults
  scope : ApplyScope
  raw : String
  hint : Option DesiredFormat

def rolled_back (faults : RouteFaults) (process : Process) (scope : ApplyScope) : Option Attempt :=
  if faults.previous.isSome then none
  else
    (previous_applied_config_revision process.ledger scope.ledger_stream).map
      (fun row => ⟨faults.apply, scope, row.content, none⟩)

/-- The call that an event makes, where its checks are passed. -/
def attempt (server : Server) (w : World) (event : Event) : Option Attempt :=
  let server := at_files server w.files
  match event with
  | .Apply faults if_match raw hint =>
    match apply_checks server w.state if_match with
    | .ok _ => some ⟨faults.apply, .Whole, raw, hint⟩
    | .error _ => none
  | .Rollback faults =>
    match rollback_checks server with
    | .ok _ => rolled_back faults w.state.process .Whole
    | .error _ => none
  | .OrgApply faults org_id if_match raw hint =>
    match org_apply_checks server faults.authority w.state org_id if_match with
    | .ok org => some ⟨faults.apply, .Organization org.id, raw, hint⟩
    | .error _ => none
  | .OrgRollback faults org_id =>
    match org_rollback_checks server org_id with
    | .ok org => rolled_back faults w.state.process (.Organization org.id)
    | .error _ => none
  | _ => none

/-- The call, on the instance as it is. -/
def called (server : Server) (w : World) (a : Attempt) :
    Except ApplyError ApplyResponse × Process :=
  apply_document (at_files server w.files) a.faults w.state.process a.scope a.raw a.hint

/-- The identity after a call. -/
def published (scope : ApplyScope) (answer : Except ApplyError ApplyResponse)
    (identity : Option String) : Option String :=
  match answer with
  | .error _ => identity
  | .ok response =>
    if response.applied then
      match scope with
      | .Whole => some response.content_sha256
      | .Organization _ => none
    else identity

/-- Nothing that the laws look at has changed. -/
structure Stays (w w' : World) : Prop where
  process : w'.state.process = w.state.process
  identity : w'.state.effective_desired_sha = w.state.effective_desired_sha
  files : w'.files = w.files

theorem Stays.refl (w : World) : Stays w w := ⟨rfl, rfl, rfl⟩

/-- The event is this call. -/
structure Makes (server : Server) (path : String) (w : World) (event : Event) (a : Attempt) :
    Prop where
  attempted : attempt server w event = some a
  process : (next server path w event).state.process = (called server w a).2
  identity : (next server path w event).state.effective_desired_sha =
    published a.scope (called server w a).1 w.state.effective_desired_sha
  files : (next server path w event).files = w.files
  waiting : (next server path w event).waiting = w.waiting
  answer : (step server path w event).1 = none ↔ ∃ response, (called server w a).1 = .ok response

/-- The event is refused, or is a reload that comes as far as the lock. -/
structure Rests (server : Server) (path : String) (w : World) (event : Event) : Prop where
  unattempted : attempt server w event = none
  stays : Stays w (next server path w event)

theorem finish_apply_identity (fault : Option String) (state : AppState)
    (result : Except ApplyError ApplyResponse × Process) :
    (finish_apply fault state result).2.process = result.2 ∧
      (finish_apply fault state result).2.effective_desired_sha =
        published .Whole result.1 state.effective_desired_sha ∧
      (refusal (finish_apply fault state result).1 = none ↔
        ∃ response, result.1 = .ok response) := by
  obtain ⟨answer, process⟩ := result
  cases answer with
  | error err => simp [finish_apply, published, refusal]
  | ok response =>
    unfold finish_apply published commit_effective
    by_cases happlied : response.applied = true
    · simp [happlied, refusal]
    · simp [happlied, refusal]

theorem finish_org_apply_identity (state : AppState) (organization : String)
    (result : Except ApplyError ApplyResponse × Process) :
    (finish_org_apply state result).2.process = result.2 ∧
      (finish_org_apply state result).2.effective_desired_sha =
        published (.Organization organization) result.1 state.effective_desired_sha ∧
      (refusal (finish_org_apply state result).1 = none ↔ ∃ response, result.1 = .ok response) := by
  obtain ⟨answer, process⟩ := result
  cases answer with
  | error err => simp [finish_org_apply, published, refusal]
  | ok response =>
    unfold finish_org_apply published
    by_cases happlied : response.applied = true
    · simp [happlied, refusal]
    · simp [happlied, refusal]

/-- A rollback is the call with the earlier body, or an error. -/
theorem rollback_cases (server : Server) (faults : RouteFaults) (process : Process)
    (scope : ApplyScope) :
    (∃ a, rolled_back faults process scope = some a ∧ a.scope = scope ∧
        rollback server faults.previous faults.apply process scope =
          apply_document server a.faults process a.scope a.raw a.hint) ∨
      rolled_back faults process scope = none ∧
        ∃ err, rollback server faults.previous faults.apply process scope = (.error err, process) := by
  unfold rolled_back rollback
  cases faults.previous with
  | some err => exact Or.inr ⟨rfl, _, rfl⟩
  | none =>
    cases previous_applied_config_revision process.ledger scope.ledger_stream with
    | none => exact Or.inr ⟨rfl, _, rfl⟩
    | some row => exact Or.inl ⟨_, rfl, rfl, rfl⟩

/-- An event makes a call, or rests; or it is an edit, or a reload that gets the lock. -/
theorem event_cases (server : Server) (path : String) (w : World) (event : Event) :
    (∃ a, Makes server path w event a) ∨ Rests server path w event ∨
      (∃ app text, event = .Edit app text) ∨
      ∃ index fault reading, event = .Reload index fault ∧ w.waiting[index]? = some reading := by
  have hcase : ∀ {event : Event}, (∃ a, Makes server path w event a) ∨
      Rests server path w event → (∃ a, Makes server path w event a) ∨
        Rests server path w event ∨ (∃ app text, event = .Edit app text) ∨
        ∃ index fault reading, event = .Reload index fault ∧ w.waiting[index]? = some reading :=
    fun h => h.imp id Or.inl
  cases event with
  | Edit app text => exact Or.inr (Or.inr (Or.inl ⟨app, text, rfl⟩))
  | Read =>
    refine hcase (Or.inr ⟨rfl, ?_⟩)
    simp only [next, step]
    cases reload_reads (at_files server w.files) path with
    | error err => exact Stays.refl w
    | ok reading => exact ⟨rfl, rfl, rfl⟩
  | Reload index fault =>
    cases hwaits : w.waiting[index]? with
    | none =>
      refine hcase (Or.inr ⟨rfl, ?_⟩)
      simp only [next, step, hwaits]
      exact Stays.refl w
    | some reading => exact Or.inr (Or.inr (Or.inr ⟨index, fault, reading, rfl, hwaits⟩))
  | Apply faults if_match raw hint =>
    apply hcase
    cases hchecks : apply_checks (at_files server w.files) w.state if_match with
    | error err =>
      right
      constructor
      · simp only [attempt, hchecks]
      · simp only [next, step, post_apply, checked, hchecks]
        exact Stays.refl w
    | ok u =>
      left
      obtain ⟨hprocess, hidentity, hanswer⟩ := finish_apply_identity faults.refresh w.state
        (called server w ⟨faults.apply, .Whole, raw, hint⟩)
      refine ⟨⟨faults.apply, .Whole, raw, hint⟩, ?_, ?_, ?_, ?_, ?_, ?_⟩
      · simp only [attempt, hchecks]
      all_goals simp only [next, step, post_apply, checked, hchecks]
      · exact hprocess
      · exact hidentity
      · exact hanswer
  | Rollback faults =>
    apply hcase
    cases hchecks : rollback_checks (at_files server w.files) with
    | error err =>
      right
      constructor
      · simp only [attempt, hchecks]
      · simp only [next, step, post_rollback, checked, hchecks]
        exact Stays.refl w
    | ok u =>
      rcases rollback_cases (at_files server w.files) faults w.state.process .Whole with
        ⟨a, ha, hscope, hcall⟩ | ⟨ha, err, hcall⟩
      · left
        obtain ⟨hprocess, hidentity, hanswer⟩ := finish_apply_identity faults.refresh w.state
          (called server w a)
        refine ⟨a, ?_, ?_, ?_, ?_, ?_, ?_⟩
        · simp only [attempt, hchecks, ha]
        all_goals simp only [next, step, post_rollback, checked, hchecks, hcall]
        · exact hprocess
        · exact hidentity.trans (by rw [hscope])
        · exact hanswer
      · right
        constructor
        · simp only [attempt, hchecks, ha]
        · simp only [next, step, post_rollback, checked, hchecks, hcall]
          exact Stays.refl w
  | OrgApply faults org_id if_match raw hint =>
    apply hcase
    cases hchecks : org_apply_checks (at_files server w.files) faults.authority w.state org_id
        if_match with
    | error err =>
      right
      constructor
      · simp only [attempt, hchecks]
      · simp only [next, step, post_org_apply, checked, hchecks]
        exact Stays.refl w
    | ok org =>
      left
      obtain ⟨hprocess, hidentity, hanswer⟩ := finish_org_apply_identity w.state org.id
        (called server w ⟨faults.apply, .Organization org.id, raw, hint⟩)
      refine ⟨⟨faults.apply, .Organization org.id, raw, hint⟩, ?_, ?_, ?_, ?_, ?_, ?_⟩
      · simp only [attempt, hchecks]
      all_goals simp only [next, step, post_org_apply, checked, hchecks]
      · exact hprocess
      · exact hidentity
      · exact hanswer
  | OrgRollback faults org_id =>
    apply hcase
    cases hchecks : org_rollback_checks (at_files server w.files) org_id with
    | error err =>
      right
      constructor
      · simp only [attempt, hchecks]
      · simp only [next, step, post_org_rollback, checked, hchecks]
        exact Stays.refl w
    | ok org =>
      rcases rollback_cases (at_files server w.files) faults w.state.process
        (.Organization org.id) with ⟨a, ha, hscope, hcall⟩ | ⟨ha, err, hcall⟩
      · left
        obtain ⟨hprocess, hidentity, hanswer⟩ := finish_org_apply_identity w.state org.id
          (called server w a)
        refine ⟨a, ?_, ?_, ?_, ?_, ?_, ?_⟩
        · simp only [attempt, hchecks, ha]
        all_goals simp only [next, step, post_org_rollback, checked, hchecks, hcall]
        · exact hprocess
        · exact hidentity.trans (by rw [hscope])
        · exact hanswer
      · right
        constructor
        · simp only [attempt, hchecks, ha]
        · simp only [next, step, post_org_rollback, checked, hchecks, hcall]
          exact Stays.refl w

/-! ## What the checks ask -/

theorem require_config_apply_ok {bootstrap : Config} {u : Unit}
    (h : require_config_apply bootstrap = .ok u) :
    bootstrap.config_api.ledger_is_bootable = true := by
  unfold require_config_apply at h
  split at h
  · simp at h
  · split at h
    · simp at h
    · rename_i hpush
      unfold ConfigApiConfig.ledger_is_bootable
      simpa [accepts_pushed_config] using hpush

theorem require_single_document_mode_ok {bootstrap : Config} {u : Unit}
    (h : require_single_document_mode bootstrap = .ok u) : bootstrap.organizations = [] := by
  unfold require_single_document_mode at h
  split at h
  · assumption
  · simp at h

theorem require_organization_ok {bootstrap : Config} {org_id : String} {org : OrganizationConfig}
    (h : require_organization bootstrap org_id = .ok org) :
    bootstrap.organizations.find? (fun org => org.id = trim org_id) = some org := by
  unfold require_organization at h
  split at h
  · simp at h
  · split at h
    · rename_i found hfound
      rw [← Except.ok.inj h]
      exact hfound
    · simp at h

theorem rolled_back_scope {faults : RouteFaults} {process : Process} {scope : ApplyScope}
    {a : Attempt} (h : rolled_back faults process scope = some a) : a.scope = scope := by
  unfold rolled_back at h
  split at h
  · simp at h
  · obtain ⟨row, -, rfl⟩ := Option.map_eq_some_iff.mp h
    rfl

theorem org_rollback_checks_ok {server : Server} {org_id : String} {org : OrganizationConfig}
    (h : org_rollback_checks server org_id = .ok org) :
    require_organization server.bootstrap org_id = .ok org ∧
      server.bootstrap.config_api.ledger_is_bootable = true := by
  unfold org_rollback_checks at h
  simp only [bind_ok_iff, pure, Except.pure, Except.ok.injEq] at h
  obtain ⟨org, horg, u, hpush, _, -, rfl⟩ := h
  exact ⟨horg, require_config_apply_ok hpush⟩

/-- A call is for the whole instance or for an organization of the catalogue, as the instance is,
and the ledger is bootable. -/
theorem attempt_scope {server : Server} {w : World} {event : Event} {a : Attempt}
    (h : attempt server w event = some a) :
    server.bootstrap.config_api.ledger_is_bootable = true ∧
      (a.scope = .Whole ∧ server.bootstrap.organizations = [] ∨
        ∃ org ∈ server.bootstrap.organizations, a.scope = .Organization org.id) := by
  have hcatalogue : ∀ {org_id org}, require_organization server.bootstrap org_id = .ok org →
      org ∈ server.bootstrap.organizations :=
    fun h => List.mem_of_find?_eq_some (require_organization_ok h)
  cases event with
  | Edit app text => simp [attempt] at h
  | Read => simp [attempt] at h
  | Reload index fault => simp [attempt] at h
  | Apply faults if_match raw hint =>
    simp only [attempt] at h
    split at h
    · rename_i hchecks
      unfold apply_checks at hchecks
      simp only [bind_ok_iff] at hchecks
      obtain ⟨_, hpush, _, -, hmode⟩ := hchecks
      obtain rfl := Option.some.inj h
      exact ⟨require_config_apply_ok hpush, Or.inl ⟨rfl, require_single_document_mode_ok hmode⟩⟩
    · simp at h
  | Rollback faults =>
    simp only [attempt] at h
    split at h
    · rename_i hchecks
      unfold rollback_checks at hchecks
      simp only [bind_ok_iff] at hchecks
      obtain ⟨_, hpush, hmode⟩ := hchecks
      exact ⟨require_config_apply_ok hpush,
        Or.inl ⟨rolled_back_scope h, require_single_document_mode_ok hmode⟩⟩
    · simp at h
  | OrgApply faults org_id if_match raw hint =>
    simp only [attempt] at h
    split at h
    · rename_i org hchecks
      unfold org_apply_checks at hchecks
      simp only [bind_ok_iff, pure, Except.pure, Except.ok.injEq] at hchecks
      obtain ⟨_, horg, _, -, _, -, rfl⟩ := hchecks
      obtain rfl := Option.some.inj h
      obtain ⟨hfound, hbootable⟩ := org_rollback_checks_ok horg
      exact ⟨hbootable, Or.inr ⟨_, hcatalogue hfound, rfl⟩⟩
    · simp at h
  | OrgRollback faults org_id =>
    simp only [attempt] at h
    split at h
    · rename_i org hchecks
      obtain ⟨hfound, hbootable⟩ := org_rollback_checks_ok hchecks
      exact ⟨hbootable, Or.inr ⟨_, hcatalogue hfound, rolled_back_scope h⟩⟩
    · simp at h

/-- Without a catalogue every attempt is on the whole document. -/
theorem whole_attempt {server : Server} {w : World} {event : Event} {a : Attempt}
    (h : attempt server w event = some a) (hmode : server.bootstrap.organizations = []) :
    a.scope = .Whole := by
  obtain ⟨-, ⟨hwhole, -⟩ | ⟨org, horg, -⟩⟩ := attempt_scope h
  · exact hwhole
  · rw [hmode] at horg
    exact absurd horg List.not_mem_nil

/-! ## Reloads -/

/-- What a reload does that has the lock. -/
inductive Reloaded (server : Server) (state : AppState) :
    Reading → Option ApiError → AppState → Prop where
  | refused (reading : Reading) (err : ApiError) : Reloaded server state reading (some err) state
  /-- The text is the one that runs. -/
  | same_document (raw : String)
      (unrecorded : server.bootstrap.config_api.ledger_is_bootable = true →
        latest_applied_config_revision state.process.ledger none = none)
      (same : state.effective_desired_sha = some (server.setup.sha256 raw)) :
      Reloaded server state (.Document raw) none state
  | same_organizations (composed : ComposedOrganizations)
      (composes : compose_organizations server.setup state.process.ledger server.bootstrap none =
        .ok composed)
      (same : state.effective_desired_sha = some composed.identity_sha256) :
      Reloaded server state .Organizations none state
  | document (raw : String) (merged : Config) (swapped : Process)
      (unrecorded : server.bootstrap.config_api.ledger_is_bootable = true →
        latest_applied_config_revision state.process.ledger none = none)
      (news : state.effective_desired_sha ≠ some (server.setup.sha256 raw))
      (merges : merge_pushed_document server.setup.codec server.setup.env server.bootstrap raw
        (server.setup.files.app.bind (·.2)) = .ok merged)
      (valid : (server.validate_full state.process.secrets.vault merged).valid = true)
      (swaps : apply_runtime server state.process merged = .ok swapped) :
      Reloaded server state (.Document raw) none
        { state with
          process := swapped
          effective_desired_sha := some (server.setup.sha256 raw) }
  | organizations (composed : ComposedOrganizations) (swapped : Process)
      (composes : compose_organizations server.setup state.process.ledger server.bootstrap none =
        .ok composed)
      (news : state.effective_desired_sha ≠ some composed.identity_sha256)
      (valid : (server.validate_full state.process.secrets.vault composed.merged).valid = true)
      (swaps : apply_runtime server state.process composed.merged = .ok swapped) :
      Reloaded server state .Organizations none
        { state with
          process := swapped
          effective_desired_sha := some composed.identity_sha256 }

theorem swap_reloaded_cases (server : Server) (process : Process) (merged : Config)
    (sha source_path : String) :
    (∃ err, swap_reloaded server process merged sha source_path = (.error err, process)) ∨
      ∃ response swapped, swap_reloaded server process merged sha source_path =
          (.ok response, swapped) ∧
        response.applied = true ∧ response.content_sha256 = sha ∧
        (server.validate_full process.secrets.vault merged).valid = true ∧
        apply_runtime server process merged = .ok swapped := by
  unfold swap_reloaded
  by_cases hvalid : (server.validate_full process.secrets.vault merged).valid = false
  · refine Or.inl ⟨.UnprocessableEntity "config validation failed"
      (server.validate_full process.secrets.vault merged), ?_⟩
    rw [if_pos hvalid]
  · simp only [if_neg hvalid]
    cases hswap : apply_runtime server process merged with
    | error err => exact Or.inl ⟨_, rfl⟩
    | ok swapped => exact Or.inr ⟨_, swapped, rfl, rfl, rfl, by simpa using hvalid, rfl⟩

theorem reload_document_cases (server : Server) (path : String) (state : AppState) (raw : String)
    (unrecorded : server.bootstrap.config_api.ledger_is_bootable = true →
      latest_applied_config_revision state.process.ledger none = none) :
    let result := finish_reload state (reload_document server state.process
      state.effective_desired_sha path raw (server.setup.files.app.bind (·.2)))
    Reloaded server state (.Document raw) (refusal result.1) result.2 := by
  unfold reload_document
  by_cases hsame : state.effective_desired_sha = some (server.setup.sha256 raw)
  · simp only [hsame, if_true]
    exact .same_document raw unrecorded hsame
  · simp only [if_neg hsame]
    cases hmerge : merge_pushed_document server.setup.codec server.setup.env server.bootstrap raw
        (server.setup.files.app.bind (·.2)) with
    | error err => exact .refused _ _
    | ok merged =>
      rcases swap_reloaded_cases server state.process merged (server.setup.sha256 raw) path with
        ⟨err, hswap⟩ | ⟨response, swapped, hswap, happlied, hsha, hvalid, hruntime⟩
      · simp only [hswap]
        exact .refused _ _
      · simp only [hswap, finish_reload, happlied, hsha, if_true]
        exact .document raw merged swapped unrecorded hsame hmerge hvalid hruntime

theorem reload_organizations_cases (server : Server) (fault : Option String) (state : AppState) :
    let result := finish_reload state (reload_organizations server fault state.process
      state.effective_desired_sha)
    Reloaded server state .Organizations (refusal result.1) result.2 := by
  unfold reload_organizations
  cases fault with
  | some err => exact .refused _ _
  | none =>
    simp only
    cases hcompose : compose_organizations server.setup state.process.ledger server.bootstrap
        none with
    | error err => exact .refused _ _
    | ok composed =>
      simp only
      by_cases hsame : state.effective_desired_sha = some composed.identity_sha256
      · simp only [hsame, if_true]
        exact .same_organizations composed hcompose hsame
      · simp only [if_neg hsame]
        rcases swap_reloaded_cases server state.process composed.merged composed.identity_sha256
          "[[organizations]]" with
          ⟨err, hswap⟩ | ⟨response, swapped, hswap, happlied, hsha, hvalid, hruntime⟩
        · simp only [hswap]
          exact .refused _ _
        · simp only [hswap, finish_reload, happlied, hsha, if_true]
          exact .organizations composed swapped hcompose hsame hvalid hruntime

theorem reload_cases (server : Server) (path : String) (fault : Option String) (state : AppState)
    (reading : Reading) :
    Reloaded server state reading (refusal (reload_locked server path fault state reading).1)
      (reload_locked server path fault state reading).2 := by
  unfold reload_locked
  cases reading with
  | Organizations => exact reload_organizations_cases server fault state
  | Document raw =>
    simp only
    split
    · exact .refused _ _
    · split
      · exact .refused _ _
      · rename_i hopen
        apply reload_document_cases
        intro hbootable
        rw [not_and, Bool.not_eq_true, Option.isSome_eq_false_iff, Option.isNone_iff_eq_none]
          at hopen
        exact hopen hbootable

theorem reload_event (server : Server) (path : String) {w : World} {index : Nat}
    (fault : Option String) {reading : Reading} (h : w.waiting[index]? = some reading) :
    Reloaded (at_files server w.files) w.state reading
        (step server path w (.Reload index fault)).1
        (next server path w (.Reload index fault)).state ∧
      (next server path w (.Reload index fault)).files = w.files := by
  simp only [next, step, h]
  exact ⟨reload_cases (at_files server w.files) path fault w.state reading, trivial⟩

/-- Only a read adds to what waits for the lock. -/
theorem waiting_next {server : Server} {path : String} {w : World} {event : Event}
    {reading : Reading} (h : reading ∈ (next server path w event).waiting) :
    reading ∈ w.waiting ∨
      event = .Read ∧ reload_reads (at_files server w.files) path = .ok reading := by
  cases event with
  | Read =>
    simp only [next, step] at h
    split at h
    · rename_i added hadded
      rcases List.mem_append.mp h with h | h
      · exact Or.inl h
      · obtain rfl := List.mem_singleton.mp h
        exact Or.inr ⟨rfl, hadded⟩
    · exact Or.inl h
  | Reload index fault =>
    simp only [next, step] at h
    split at h
    · exact Or.inl h
    · exact Or.inl (List.mem_of_mem_eraseIdx h)
  | _ => exact Or.inl h

end xrelease.requests
