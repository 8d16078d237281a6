-- A recorded revision at the next boot: the body of an organization has been read once when the
-- candidate was composed; the body of a whole instance is read for the first time then, and may
-- hold a line that the parser refuses.
import Xrelease.Atomic
import Xrelease.Isolated

namespace xrelease.bootable

open xrelease.config xrelease.config_apply xrelease.outcomes xrelease.composed xrelease.atomic text

/-! ## The environment twice -/

theorem or_or_self {α : Type} (a b : Option α) : a.or (a.or b) = a.or b := by
  cases a <;> simp

theorem getD_getD {α : Type} (a : Option α) (b : α) : a.getD (a.getD b) = a.getD b := by
  cases a <;> rfl

theorem override_database_twice (env : Env) (database : DatabaseConfig) :
    override_database env (override_database env database) = override_database env database := by
  simp [override_database, or_or_self, getD_getD]

theorem override_log_twice (env : Env) (log : LogConfig) :
    override_log env (override_log env log) = override_log env log := by
  simp [override_log, getD_getD]

theorem override_api_twice (env : Env) (api : ApiConfig) :
    override_api env (override_api env api) = override_api env api := by
  simp [override_api, override_oidc, override_local_auth, or_or_self, getD_getD]

theorem override_config_api_twice (env : Env) (config_api : ConfigApiConfig) :
    override_config_api env (override_config_api env config_api) =
      override_config_api env config_api := by
  simp [override_config_api, or_or_self, getD_getD]

theorem override_defaults_twice (env : Env) (defaults : Defaults) :
    override_defaults env (override_defaults env defaults) = override_defaults env defaults := by
  simp [override_defaults, getD_getD]

/-- The bootstrap that a process has, with the environment over it. -/
def Loaded (server : Server) : Prop :=
  ∃ file, load_bootstrap server.setup.env file = .ok server.bootstrap

/-- On a loaded bootstrap the environment has been. -/
theorem overridden_merge {server : Server} (h : Loaded server) (desired : Config) :
    apply_env_overrides server.setup.env (merge_bootstrap_over_desired server.bootstrap desired) =
      merge_bootstrap_over_desired server.bootstrap
        (apply_env_overrides server.setup.env desired) := by
  obtain ⟨file, hfile⟩ := h
  unfold load_bootstrap at hfile
  split at hfile
  · simp at hfile
  · rw [← Except.ok.inj hfile]
    unfold merge_bootstrap_over_desired apply_env_overrides strip_desired_sections
    simp only [override_database_twice, override_log_twice, override_api_twice,
      override_config_api_twice]

/-! ## The ledger with one more row -/

theorem latest_applied_row (faults : Faults) (process : Process) (scope : ApplyScope)
    (candidate : ScopedCandidate) (ledger : List ConfigRevision) :
    latest_applied_config_revision (ledger ++ [applied_row faults process scope candidate])
      scope.ledger_stream = some (applied_row faults process scope candidate) := by
  simp [latest_applied_config_revision, applied_revisions, applied_row]

theorem latest_other_stream {row : ConfigRevision} {stream : Option String}
    (h : row.organization_id ≠ stream) (ledger : List ConfigRevision) :
    latest_applied_config_revision (ledger ++ [row]) stream =
      latest_applied_config_revision ledger stream := by
  simp [latest_applied_config_revision, applied_revisions, h]

/-! ## The whole instance -/

theorem ensure_document (config : Config) :
    ensure_desired_only (desired_state_for_ledger config) = .ok () := by
  simp [ensure_desired_only, contains_infra_sections, desired_state_for_ledger]

theorem ensured_apprise {config : Config} (h : ensure_desired_only config = .ok ()) :
    config.apprise = {} := by
  unfold ensure_desired_only at h
  split at h
  · simp at h
  · split at h
    · simp at h
    · split at h
      · simp at h
      · rename_i happrise
        exact not_not.mp happrise

theorem whole_boots_iff {server : Server} {faults : Faults} {process : Process} {raw : String}
    {hint : Option DesiredFormat} {candidate : ScopedCandidate} (hloaded : Loaded server)
    (hledger : server.bootstrap.config_api.ledger_is_bootable = true)
    (hmode : server.bootstrap.organizations = []) (hcodec : server.setup.codec.Faithful)
    (h : resolve_scoped_candidate server faults process .Whole raw hint = .ok candidate) :
    resolve server.setup (process.ledger ++ [applied_row faults process .Whole candidate])
        server.bootstrap = .ok candidate.merged ↔
      NoRemovedKey candidate.ledger_raw := by
  obtain ⟨parsed, desired, -, hensure, hdesired, hbody, -, hmerged, -, -⟩ := resolved_whole h
  have hlatest : latest_applied_config_revision
      (process.ledger ++ [applied_row faults process .Whole candidate]) none =
      some (applied_row faults process .Whole candidate) :=
    latest_applied_row faults process .Whole candidate _
  unfold resolve
  rw [hmode]
  simp only [ne_eq, not_true_eq_false, if_false, hledger, if_true, hlatest, bind_ok_iff]
  have hread := parse_serialized hcodec hbody none
  constructor
  · rintro ⟨document, hdocument, -⟩
    exact ((hread document).mp hdocument).1
  · intro hkept
    refine ⟨_, (hread _).mpr ⟨hkept, rfl⟩, (), ensure_document desired, ?_⟩
    have hdefaults : desired.defaults = override_defaults server.setup.env parsed.defaults := by
      rw [hdesired]
      rfl
    rw [hmerged, overridden_merge hloaded]
    simp only [pure, Except.pure, Except.ok.injEq]
    unfold merge_bootstrap_over_desired apply_env_overrides desired_state_for_ledger
    simp only [hdefaults, override_defaults_twice, ensured_apprise hensure]

/-! ## An organization -/

/-- With the new row in its stream the authority of an organization is the document that was
composed in its place. -/
theorem chosen_alike (setup : Setup) {bootstrap : Config}
    (hledger : bootstrap.config_api.ledger_is_bootable = true) (faults : Faults)
    (process : Process) (organization : String) (candidate : ScopedCandidate)
    (org : OrganizationConfig) :
    chosen_document setup
        (process.ledger ++ [applied_row faults process (.Organization organization) candidate])
        bootstrap none org =
      chosen_document setup process.ledger bootstrap
        (some (organization, candidate.ledger_raw)) org := by
  unfold chosen_document organization_desired_raw
  simp only [hledger, if_true]
  by_cases hid : organization = org.id
  · subst hid
    have hlatest : latest_applied_config_revision
        (process.ledger ++ [applied_row faults process (.Organization org.id) candidate])
        (some org.id) = some (applied_row faults process (.Organization org.id) candidate) :=
      latest_applied_row faults process (.Organization org.id) candidate _
    rw [hlatest]
    simp [applied_row]
  · have hother : latest_applied_config_revision
        (process.ledger ++ [applied_row faults process (.Organization organization) candidate])
        (some org.id) = latest_applied_config_revision process.ledger (some org.id) :=
      latest_other_stream (by simp [applied_row, ApplyScope.ledger_stream, hid]) _
    rw [hother]
    simp [hid]

/-- The loop of the next boot goes as the one of the apply. -/
theorem fold_alike (setup : Setup) {bootstrap : Config}
    (hledger : bootstrap.config_api.ledger_is_bootable = true) (faults : Faults)
    (process : Process) (organization : String) (candidate : ScopedCandidate)
    (orgs : List OrganizationConfig)
    {st st' : Composing}
    (h : orgs.foldlM (compose_one setup process.ledger bootstrap
      (some (organization, candidate.ledger_raw))) st = .ok st') :
    orgs.foldlM (compose_one setup
        (process.ledger ++ [applied_row faults process (.Organization organization) candidate])
        bootstrap none) { st with override_used := true } = .ok { st' with override_used := true } := by
  induction orgs generalizing st with
  | nil =>
    obtain rfl := Except.ok.inj h
    rfl
  | cons org rest ih =>
    rw [List.foldlM_cons] at h ⊢
    cases hone : compose_one setup process.ledger bootstrap
        (some (organization, candidate.ledger_raw)) st org with
    | error err => simp [hone, bind, Except.bind] at h
    | ok next =>
      simp only [hone, bind, Except.bind] at h
      have hnext : compose_one setup
          (process.ledger ++ [applied_row faults process (.Organization organization) candidate])
          bootstrap none { st with override_used := true } org =
          .ok { next with override_used := true } := by
        unfold compose_one at hone ⊢
        rw [chosen_alike setup hledger]
        split at hone
        · simp at hone
        · rename_i hid
          rw [if_neg hid]
          split at hone
          · simp at hone
          · rename_i hnew
            rw [if_neg hnew]
            simp only [bind_ok_iff, pure, Except.pure, Except.ok.injEq] at hone ⊢
            obtain ⟨found, hfound, desired, hdesired, rfl⟩ := hone
            exact ⟨found, hfound, desired, hdesired, rfl⟩
      simp only [hnext, bind, Except.bind]
      exact ih h

theorem organization_boots {server : Server} {faults : Faults} {process : Process}
    {organization raw : String} {hint : Option DesiredFormat} {candidate : ScopedCandidate}
    (hledger : server.bootstrap.config_api.ledger_is_bootable = true)
    (hcodec : server.setup.codec.Faithful)
    (h : resolve_scoped_candidate server faults process (.Organization organization) raw hint =
      .ok candidate) :
    resolve server.setup
        (process.ledger ++ [applied_row faults process (.Organization organization) candidate])
        server.bootstrap = .ok candidate.merged ∧
      NoRemovedKey candidate.ledger_raw := by
  obtain ⟨parsed, org, previous_raw, desired_source, desired, composed, -, -, horg, -, -, hbody, -,
    hcomposed, hmerged, -, -⟩ := resolved_organization h
  obtain ⟨hmem, rfl⟩ := find_organization_ok horg
  constructor
  · have hsome : server.bootstrap.organizations ≠ [] := List.ne_nil_of_mem hmem
    unfold resolve
    rw [if_pos hsome, hmerged]
    unfold compose_organizations at hcomposed ⊢
    rw [bind_ok_iff] at hcomposed
    obtain ⟨st, hfold, hcomposed⟩ := hcomposed
    have hboot := fold_alike server.setup hledger faults process org.id candidate _ hfold
    have hstart : ({ override_used := (none : Option (String × String)).isNone } : Composing) =
        { ({ override_used := (some (org.id, candidate.ledger_raw)).isNone } : Composing) with
          override_used := true } := rfl
    rw [hstart, hboot]
    split at hcomposed
    · simp at hcomposed
    · simp only at hcomposed
      split at hcomposed
      · simp at hcomposed
      · rename_i hwork
        obtain rfl := Except.ok.inj hcomposed
        simp only [bind, Except.bind, Bool.not_true, Bool.false_eq_true, if_false, if_neg hwork,
          Except.map]
  · obtain ⟨docs, hdocs, -⟩ := composed_of_ok hcomposed
    obtain ⟨doc, hdoc⟩ := mapM_each hdocs org hmem
    unfold document_of chosen_document at hdoc
    simp only [if_true, bind_ok_iff, Except.ok.injEq] at hdoc
    obtain ⟨found, rfl, loaded, hloaded, -⟩ := hdoc
    unfold load_organization at hloaded
    rw [bind_ok_iff] at hloaded
    obtain ⟨document, hdocument, -⟩ := hloaded
    exact ((parse_serialized hcodec hbody none document).mp hdocument).1

/-! ## The law -/

/-- The call swaps the runtime to this candidate and records it. -/
structure Records (server : Server) (faults : Faults) (process : Process) (scope : ApplyScope)
    (raw : String) (hint : Option DesiredFormat) (candidate : ScopedCandidate) : Prop where
  reached : Reaches server faults process scope raw hint candidate
  news : ¬ IsCurrent process scope candidate.ledger_sha
  seals : Seals server faults candidate
  swaps : ∃ stale swapped, Prunes server faults process scope candidate stale ∧
    apply_runtime server (kept server process candidate stale) candidate.merged = .ok swapped
  inserts : faults.insert = none

/-- What the call records boots as what it swapped in. -/
def BootsAsApplied (server : Server) (faults : Faults) (process : Process) (scope : ApplyScope)
    (raw : String) (hint : Option DesiredFormat) : Prop :=
  ∀ response, (apply_document server faults process scope raw hint).1 = .ok response →
    (apply_document server faults process scope raw hint).2.ledger ≠ process.ledger →
      resolve server.setup (apply_document server faults process scope raw hint).2.ledger
          server.bootstrap =
        .ok (apply_document server faults process scope raw hint).2.effective

/-- What a call that answers ok leaves in the ledger is what was there, or a recorded
candidate. -/
theorem recorded_of_ok {server : Server} {faults : Faults} {process : Process}
    {scope : ApplyScope} {raw : String} {hint : Option DesiredFormat}
    {answer : Except ApplyError ApplyResponse} {process' : Process}
    (h : Outcome server faults process scope raw hint answer process') :
    (∃ candidate response, Records server faults process scope raw hint candidate ∧
        answer = .ok response ∧ process'.effective = candidate.merged ∧
        process'.ledger = process.ledger ++ [applied_row faults process scope candidate]) ∨
      (∀ candidate, ¬ Records server faults process scope raw hint candidate) ∧
        ∀ response, answer = .ok response → process'.ledger = process.ledger := by
  cases h with
  | refused err rows unreached rejected =>
    exact Or.inr ⟨fun c hc => unreached c hc.reached, fun _ h => absurd h (by simp)⟩
  | unchanged response applied unreached =>
    exact Or.inr ⟨fun c hc => unreached c hc.reached, fun _ _ => rfl⟩
  | not_sealed candidate err vault reached unsealed =>
    refine Or.inr ⟨fun c hc => ?_, fun _ _ => rfl⟩
    obtain rfl := reaches_unique reached hc.reached
    exact unsealed hc.seals
  | not_pruned candidate err vault reached seals unpruned =>
    refine Or.inr ⟨fun c hc => ?_, fun _ _ => rfl⟩
    obtain rfl := reaches_unique reached hc.reached
    obtain ⟨stale, -, hp, -⟩ := hc.swaps
    exact unpruned stale hp
  | rotated candidate stale response reached current seals prunes applied =>
    refine Or.inr ⟨fun c hc => ?_, fun _ _ => rfl⟩
    obtain rfl := reaches_unique reached hc.reached
    exact hc.news current
  | not_swapped candidate stale err kept kept_eq reached news seals prunes unswapped =>
    refine Or.inr ⟨fun c hc => ?_, fun _ h => absurd h (by simp)⟩
    subst kept_eq
    obtain rfl := reaches_unique reached hc.reached
    obtain ⟨stale', swapped, hp, hswap⟩ := hc.swaps
    obtain rfl := prunes_unique prunes hp
    exact unswapped swapped hswap
  | swapped_back candidate stale err kept swapped back kept_eq reached news seals prunes swaps
      unrecorded swaps_back =>
    exact Or.inr ⟨fun c hc => unrecorded hc.inserts, fun _ h => absurd h (by simp)⟩
  | stuck candidate stale err kept swapped kept_eq reached news seals prunes swaps unrecorded
      stays =>
    exact Or.inr ⟨fun c hc => unrecorded hc.inserts, fun _ h => absurd h (by simp)⟩
  | recorded candidate stale response kept swapped kept_eq reached news seals prunes swaps inserts
      applied =>
    subst kept_eq
    obtain ⟨-, hledger, heffective⟩ := apply_runtime_keeps swaps
    refine Or.inl ⟨candidate, response,
      ⟨reached, news, seals, ⟨stale, swapped, prunes, swaps⟩, inserts⟩, rfl, heffective, ?_⟩
    simp only [hledger]

/-- Every recorded revision boots as what was applied, but for a body of a whole instance in which
a line starts with a removed key. -/
theorem every_revision_boots_but_for_removed_keys {server : Server} (hloaded : Loaded server)
    (hledger : server.bootstrap.config_api.ledger_is_bootable = true) {scope : ApplyScope}
    (hmode : scope = .Whole → server.bootstrap.organizations = [])
    (hcodec : server.setup.codec.Faithful) (faults : Faults) (process : Process) (raw : String)
    (hint : Option DesiredFormat) :
    BootsAsApplied server faults process scope raw hint ↔
      ∀ candidate, Records server faults process scope raw hint candidate →
        NoRemovedKey candidate.ledger_raw := by
  have hboots : ∀ candidate, Records server faults process scope raw hint candidate →
      (resolve server.setup (process.ledger ++ [applied_row faults process scope candidate])
          server.bootstrap = .ok candidate.merged ↔ NoRemovedKey candidate.ledger_raw) := by
    intro candidate hc
    cases scope with
    | Whole => exact whole_boots_iff hloaded hledger (hmode rfl) hcodec hc.reached.resolved
    | Organization organization =>
      obtain ⟨hboot, hkept⟩ := organization_boots hledger hcodec hc.reached.resolved
      exact ⟨fun _ => hkept, fun _ => hboot⟩
  unfold BootsAsApplied
  have hout := recorded_of_ok (apply_outcome server faults process scope raw hint)
  generalize (apply_document server faults process scope raw hint).1 = answer at hout ⊢
  generalize (apply_document server faults process scope raw hint).2 = process' at hout ⊢
  rcases hout with ⟨candidate, response, hrecords, hanswer, heffective, hrows⟩ | ⟨hnone, hsame⟩
  · constructor
    · intro hall c hc
      obtain rfl := reaches_unique hrecords.reached hc.reached
      have hboot := hall response hanswer (by simp [hrows])
      rw [hrows, heffective] at hboot
      exact (hboots c hc).mp hboot
    · intro hall _ _ _
      rw [hrows, heffective]
      exact (hboots candidate hrecords).mpr (hall candidate hrecords)
  · exact ⟨fun _ c hc => absurd hc (hnone c),
      fun _ response h hne => absurd (hsame response h) hne⟩

theorem every_revision_boots_but_for_removed_keys_here :
    BootsAsApplied (bench [(.Toml, bell, bell_text)]) {} bus_process .Whole bell_text none := by
  have hloaded : Loaded (bench [(.Toml, bell, bell_text)]) :=
    ⟨(bench []).bootstrap, by decide +kernel⟩
  have hcodec : (bench [(.Toml, bell, bell_text)]).setup.codec.Faithful :=
    Codec.samples_faithful (by decide +kernel)
  refine (every_revision_boots_but_for_removed_keys hloaded rfl (fun _ => rfl) hcodec {}
    bus_process bell_text none).mpr ?_
  intro candidate hc
  have hbody : (resolve_scoped_candidate (bench [(.Toml, bell, bell_text)]) {} bus_process .Whole
      bell_text none).map (·.ledger_raw) = .ok bell_text := by
    decide +kernel
  rw [hc.reached.resolved] at hbody
  have hraw : candidate.ledger_raw = bell_text := Except.ok.inj hbody
  rw [hraw]
  decide +kernel

/-- A template of two lines, the second of which reads like a key. -/
def keyed_bell : DesiredWire :=
  ⟨none, [.Kafka { brokers := ["k"], topic := "t", template := some "new\nbot_id = 7" }], [], [], []⟩

/-- As it is pushed, on one line. -/
def keyed_bell_raw : String :=
  "[[notifiers]]\ntype = \"kafka\"\nbrokers = [\"k\"]\ntopic = \"t\"\ntemplate = \"new\\nbot_id = 7\"\n"

/-- As the library writes it. -/
def keyed_bell_body : String :=
  "[[notifiers]]\ntype = \"kafka\"\ntags = []\nbrokers = [\"k\"]\ntopic = \"t\"\n" ++
    "template = \"\"\"\nnew\nbot_id = 7\"\"\"\n"

def keyed_server : Server :=
  bench [(.Toml, keyed_bell, keyed_bell_body), (.Toml, keyed_bell, keyed_bell_raw)]

def keyed_row : ConfigRevision :=
  { id := 2, content := keyed_bell_body, content_sha256 := keyed_bell_body, status := .Applied }

/-- The document is applied and recorded, and the next boot refuses its body. -/
theorem a_line_of_a_template_stops_the_boot :
    ¬ BootsAsApplied keyed_server {} bus_process .Whole keyed_bell_raw none := by
  intro h
  have hanswer : (apply_document keyed_server {} bus_process .Whole keyed_bell_raw none).1 =
      .ok { applied := true, content_sha256 := keyed_bell_body, revision := 2 } := by
    decide +kernel
  have hrows : (apply_document keyed_server {} bus_process .Whole keyed_bell_raw none).2.ledger =
      bus_process.ledger ++ [keyed_row] := by
    decide +kernel
  have hboot := h _ hanswer (by rw [hrows]; decide +kernel)
  rw [hrows] at hboot
  have hfails : (resolve keyed_server.setup (bus_process.ledger ++ [keyed_row])
      keyed_server.bootstrap).toOption = none := by
    decide +kernel
  rw [hboot] at hfails
  exact absurd hfails (by simp [Except.toOption])

end xrelease.bootable
