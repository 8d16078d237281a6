-- What a source becomes when the engine runs it (`config/sources`): the preset it names is laid
-- under its own settings, the defaults of the document under both, and its token is looked up.
import Xrelease.Poll
import Xrelease.Secrets
import Xrelease.Sorted

namespace xrelease.config

open text keyed.Table keyed.Sorted xrelease.model xrelease.pipeline

/-! ## The settings of a source -/

namespace SourceConfig

/-- `source_common`. -/
def common : SourceConfig → SourceCommon
  | Github c | Codeberg c => c.common
  | Gitea c => c.common
  | Gitlab c => c.common
  | Bitbucket c => c.common
  | Docker c => c.common
  | Image _ c => c.common
  | Feed c => c.common
  | Package _ c => c.common
  | Artifacthub c => c.common

/-- `source_explicit_id`. -/
def explicit_id : SourceConfig → Option String
  | Github c | Codeberg c => c.id
  | Gitea c => c.id
  | Gitlab c => c.id
  | Bitbucket c => c.id
  | Docker c => c.id
  | Image _ c => c.id
  | Feed c => c.id
  | Package _ c => c.id
  | Artifacthub c => c.id

/-- A write through `source_explicit_id_mut` and `source_common_mut`. -/
def with_id_common (id : Option String) (common : SourceCommon) : SourceConfig → SourceConfig
  | Github c => Github { c with id, common }
  | Codeberg c => Codeberg { c with id, common }
  | Gitea c => Gitea { c with id, common }
  | Gitlab c => Gitlab { c with id, common }
  | Bitbucket c => Bitbucket { c with id, common }
  | Docker c => Docker { c with id, common }
  | Image r c => Image r { c with id, common }
  | Feed c => Feed { c with id, common }
  | Package r c => Package r { c with id, common }
  | Artifacthub c => Artifacthub { c with id, common }

@[simp] theorem common_with_id_common (s : SourceConfig) (id : Option String)
    (common : SourceCommon) : (s.with_id_common id common).common = common := by
  cases s <;> rfl

@[simp] theorem explicit_id_with_id_common (s : SourceConfig) (id : Option String)
    (common : SourceCommon) : (s.with_id_common id common).explicit_id = id := by
  cases s <;> rfl

@[simp] theorem token_refs_with_id_common (s : SourceConfig) (id : Option String)
    (common : SourceCommon) : (s.with_id_common id common).token_refs = s.token_refs := by
  cases s <;> rfl

@[simp] theorem with_id_common_twice (s : SourceConfig) (id id' : Option String)
    (common common' : SourceCommon) :
    (s.with_id_common id common).with_id_common id' common' = s.with_id_common id' common' := by
  cases s <;> rfl

end SourceConfig

def PackageRegistry.config_prefix : PackageRegistry → String
  | .Pypi => "pypi"
  | .Npm => "npm"
  | .Cargo => "cargo"
  | .Maven => "maven"
  | .Nuget => "nuget"
  | .Hex => "hex"
  | .Rubygems => "rubygems"
  | .Packagist => "packagist"
  | .Yarn => "yarn"
  | .Cpan => "cpan"

def ImageRegistry.config_prefix : ImageRegistry → String
  | .Ghcr => "ghcr"
  | .Quay => "quay"
  | .Ecr => "ecr"

/-! ## Presets -/

/-- Built-in presets, always available, by name. -/
def builtin_source_presets : List (String × SourcePreset) :=
  [("any-stable", { include_prerelease := some false }),
    ("calver",
      { include_prerelease := some false
        pattern := some "^v?\\d\x7b4\x7d\\.\\d\x7b1,2\x7d\\.\\d\x7b1,2\x7d$" }),
    ("docker-semver",
      { include_prerelease := some false
        pattern := some "^\\d+\\.\\d+\\.\\d+$"
        exclude_pattern := some "^(latest|nightly|edge)$" }),
    ("major-minor", { include_prerelease := some false, pattern := some "^v?\\d+\\.\\d+$" }),
    ("numeric", { include_prerelease := some false, pattern := some "^\\d+\\.\\d+\\.\\d+$" }),
    ("prerelease",
      { include_prerelease := some true
        prerelease_tags := some ["alpha", "beta", "rc"]
        pattern := some "^v?\\d+\\.\\d+\\.\\d+-(alpha|beta|rc)" }),
    ("semver", { include_prerelease := some false, pattern := some "^v?\\d+\\.\\d+\\.\\d+$" }),
    ("semver-pre",
      { include_prerelease := some true
        pattern := some "^v?\\d+\\.\\d+\\.\\d+(-[0-9A-Za-z.-]+)?(\\+[0-9A-Za-z.-]+)?$" }),
    ("semver-v", { include_prerelease := some false, pattern := some "^v\\d+\\.\\d+\\.\\d+$" }),
    ("stable",
      { include_prerelease := some false
        exclude_updated := some true
        pattern := some "^v?\\d+\\.\\d+\\.\\d+$" }),
    ("wildcard", { include_prerelease := some true })]

/-- Built-ins, then the document's own by name. -/
def effective_source_presets (user : List (String × SourcePreset)) :
    List (String × SourcePreset) :=
  putAll compare_str user builtin_source_presets

/-- The preset's values under the source's own. -/
def SourcePreset.merge_into (preset : SourcePreset) (common : SourceCommon) : SourceCommon :=
  { common with
    include_prerelease := common.include_prerelease.or preset.include_prerelease
    prerelease_tags := common.prerelease_tags.or preset.prerelease_tags
    exclude_updated := common.exclude_updated.or preset.exclude_updated
    pattern := common.pattern.or preset.pattern
    exclude_pattern := common.exclude_pattern.or preset.exclude_pattern
    routing_tag := common.routing_tag.or preset.routing_tag
    interval_secs := common.interval_secs.or preset.interval_secs
    jitter_secs := common.jitter_secs.or preset.jitter_secs
    poll_on_startup := common.poll_on_startup.or preset.poll_on_startup
    notify_schedule := common.notify_schedule.or preset.notify_schedule }

def with_preset_resolved (common : SourceCommon) (presets : List (String × SourcePreset))
    (source_id : String) : Except String SourceCommon :=
  match common.preset with
  | none => .ok common
  | some name =>
    let name := trim name
    if name = "" then .error ("source `" ++ source_id ++ "`: `preset` must not be empty")
    else
      match look name presets with
      | some preset => .ok (preset.merge_into { common with preset := none })
      | none =>
        .error ("source `" ++ source_id ++ "`: unknown preset `" ++ name ++
          "` (not a built-in and not listed under `presets`)")

/-! ## Filter and schedule -/

/-- The libraries that read patterns and crontab expressions. -/
structure Readers where
  regex : String → Option Regex
  /-- Of an expression with seconds, the next moment strictly after a given one. -/
  cron : String → Except String (DateTime → Option DateTime)

/-- `Option::map(Regex::new).transpose()`. -/
def compile (readers : Readers) : Option String → Option (Option Regex)
  | none => some none
  | some pattern => (readers.regex pattern).map some

def build_filter (readers : Readers) (common : SourceCommon) (source_id : String) :
    Except String Filter :=
  let tags := common.prerelease_tags.filter (fun tags => tags ≠ [])
  match compile readers common.pattern, compile readers common.exclude_pattern with
  | some pattern, some exclude_pattern =>
    .ok
      { include_prerelease := common.include_prerelease.getD false
        prerelease_tags := tags
        pattern
        exclude_pattern
        exclude_updated := common.exclude_updated.getD false }
  | _, _ => .error ("invalid pattern for source " ++ source_id)

structure NotifySchedule where
  expr : String
  next_after : DateTime → Option DateTime

/-- `str::split_whitespace().count()`. -/
def count_words (s : String) : Nat := ((split is_whitespace s.toList).filter (· ≠ [])).length

/-- A five-field crontab expression gets a field of seconds. -/
def NotifySchedule.parse (readers : Readers) (expr : String) : Except String NotifySchedule :=
  let trimmed := trim expr
  let normalized := if count_words trimmed = 5 then "0 " ++ trimmed else trimmed
  match readers.cron normalized with
  | .ok next_after => .ok ⟨trimmed, next_after⟩
  | .error err => .error ("invalid cron expression `" ++ expr ++ "`: " ++ err)

/-- The expression in force; an explicitly empty one of the source opts out of the default. -/
def schedule_expr (common : SourceCommon) (defaults : Defaults) : Option String :=
  match common.notify_schedule with
  | some expr => if blank expr then none else some expr
  | none => defaults.notify_schedule.filter (fun expr => !blank expr)

def resolve_notify_schedule (readers : Readers) (common : SourceCommon) (defaults : Defaults) :
    Except String (Option NotifySchedule) :=
  match schedule_expr common defaults with
  | none => .ok none
  | some expr =>
    match NotifySchedule.parse readers expr with
    | .ok schedule => .ok (some schedule)
    | .error err => .error err

/-! ## Tokens -/

/-- `vault_get`. -/
def vault_get (vault : String → Option String) (name : String) : Option String :=
  let name := trim name
  if name = "" then none else (vault name).filter (fun value => !blank value)

/-- Process env first, then the vault. -/
def env_token (env vault : String → Option String) (var : String) : Option String :=
  ((env var).filter (fun value => !blank value)).or (vault_get vault var)

def resolve_token (env vault : String → Option String) (config_token named_env : Option String)
    (global_env : String) : Option String :=
  ((config_token.filter usable).or (named_env.bind (env_token env vault))).or
    (env_token env vault global_env)

/-- The variable that holds a token for every source of the kind. -/
def global_token_env : SourceConfig → String
  | .Github _ => "GITHUB_TOKEN"
  | .Codeberg _ => "CODEBERG_TOKEN"
  | .Gitea _ => "GITEA_TOKEN"
  | .Gitlab _ => "GITLAB_TOKEN"
  | .Bitbucket _ => "BITBUCKET_TOKEN"
  | .Docker _ => "DOCKER_TOKEN"
  | .Image .Ghcr _ => "GHCR_TOKEN"
  | .Image .Quay _ => "QUAY_TOKEN"
  | .Image .Ecr _ => "ECR_TOKEN"
  | _ => ""

/-! ## Watches -/

/-- The id that a source without an explicit one is built with. -/
def built_id : SourceConfig → String
  | .Github c => "github:" ++ c.repo
  | .Codeberg c => "codeberg:" ++ c.repo
  | .Gitea c => "gitea:" ++ c.host ++ ":" ++ c.repo
  | .Gitlab c => "gitlab:" ++ c.project
  | .Bitbucket c => "bitbucket:" ++ c.repo
  | .Docker c => "docker:" ++ c.image
  | .Image r c => r.config_prefix ++ ":" ++ c.image
  | .Feed c => "feed:" ++ c.url
  | .Package r c => r.config_prefix ++ ":" ++ c.name
  | .Artifacthub c => "artifacthub:" ++ c.name

/-- What the clients of some kinds insist on. -/
def provider_error (source : SourceConfig) (id : String) : Option String :=
  match source with
  | .Bitbucket c =>
    if c.edition = .Server ∧ c.host = none then
      some ("bitbucket source `" ++ id ++ "`: edition = \"server\" requires `host`")
    else none
  | .Artifacthub c =>
    match split_once "/" c.name with
    | some (repository, chart) =>
      if repository = "" ∨ chart = "" then
        some ("artifacthub name must be `repository/chart`, got `" ++ c.name ++ "`")
      else none
    | none => some ("artifacthub name must be `repository/chart`, got `" ++ c.name ++ "`")
  | _ => none

/-- A source as the engine polls it. -/
structure Watch where
  id : String
  /-- The kind, and the fields that its client is built from: no settings are left in it, and
  its token is the one that was looked up. -/
  provider : SourceConfig
  interval : Nat
  jitter : Nat
  poll_on_startup : Bool
  filter : Filter
  routing_tag : Option String
  notify_schedule : Option NotifySchedule
  organization_id : Option String

def build_watch (readers : Readers) (id : String) (provider : SourceConfig)
    (common : SourceCommon) (defaults : Defaults) (presets : List (String × SourcePreset)) :
    Except String Watch := do
  let common ← with_preset_resolved common presets id
  let filter ← build_filter readers common id
  match resolve_notify_schedule readers common defaults with
  | .error err => .error ("source " ++ id ++ ": " ++ err)
  | .ok notify_schedule =>
    .ok
      { id
        provider
        interval := common.interval_secs.getD defaults.interval_secs
        jitter := common.jitter_secs.getD defaults.jitter_secs
        poll_on_startup := common.poll_on_startup.getD defaults.poll_on_startup
        filter
        routing_tag := common.routing_tag
        notify_schedule
        organization_id := none }

/-- The client of a source. -/
def provider_of (env vault : String → Option String) (source : SourceConfig) : SourceConfig :=
  let bare := source.with_id_common none {}
  match source.token_refs with
  | none => bare
  | some (token, token_env) =>
    bare.with_token (resolve_token env vault token token_env (global_token_env source)) none

def into_watch (readers : Readers) (env vault : String → Option String) (source : SourceConfig)
    (defaults : Defaults) (presets : List (String × SourcePreset)) : Except String Watch :=
  let id := source.explicit_id.getD (built_id source)
  match provider_error source id with
  | some err => .error err
  | none => build_watch readers id (provider_of env vault source) source.common defaults presets

/-! ## What is built -/

theorem with_preset_resolved_ok_iff (common : SourceCommon) (presets : List (String × SourcePreset))
    (source_id : String) (resolved : SourceCommon) :
    with_preset_resolved common presets source_id = .ok resolved ↔
      common.preset = none ∧ resolved = common ∨
        ∃ name preset, common.preset = some name ∧ trim name ≠ "" ∧
          look (trim name) presets = some preset ∧
          resolved = preset.merge_into { common with preset := none } := by
  unfold with_preset_resolved
  cases hp : common.preset with
  | none =>
    simp only [Except.ok.injEq, true_and, reduceCtorEq, false_and, exists_false, or_false]
    exact ⟨Eq.symm, Eq.symm⟩
  | some name =>
    simp only [reduceCtorEq, false_and, false_or, Option.some.injEq]
    by_cases hn : trim name = ""
    · rw [if_pos hn]
      constructor
      · intro h
        simp at h
      · rintro ⟨name', preset, rfl, hne, -⟩
        exact absurd hn hne
    · rw [if_neg hn]
      cases hl : look (trim name) presets with
      | none =>
        constructor
        · intro h
          simp at h
        · rintro ⟨name', preset, rfl, -, hl', -⟩
          simp [hl] at hl'
      | some preset =>
        constructor
        · intro h
          exact ⟨name, preset, rfl, hn, hl, (Except.ok.inj h).symm⟩
        · rintro ⟨name', preset', rfl, -, hl', rfl⟩
          rw [hl] at hl'
          rw [Option.some.inj hl']

theorem build_watch_ok_iff (readers : Readers) (id : String) (provider : SourceConfig)
    (common : SourceCommon) (defaults : Defaults) (presets : List (String × SourcePreset))
    (watch : Watch) :
    build_watch readers id provider common defaults presets = .ok watch ↔
      ∃ resolved filter schedule,
        with_preset_resolved common presets id = .ok resolved ∧
        build_filter readers resolved id = .ok filter ∧
        resolve_notify_schedule readers resolved defaults = .ok schedule ∧
        watch =
          { id
            provider
            interval := resolved.interval_secs.getD defaults.interval_secs
            jitter := resolved.jitter_secs.getD defaults.jitter_secs
            poll_on_startup := resolved.poll_on_startup.getD defaults.poll_on_startup
            filter
            routing_tag := resolved.routing_tag
            notify_schedule := schedule
            organization_id := none } := by
  unfold build_watch
  cases with_preset_resolved common presets id with
  | error err => simp [bind, Except.bind]
  | ok resolved =>
    cases hf : build_filter readers resolved id with
    | error err => simp [bind, Except.bind, hf]
    | ok filter =>
      cases hs : resolve_notify_schedule readers resolved defaults with
      | error err => simp [bind, Except.bind, hf, hs]
      | ok schedule => simp [bind, Except.bind, hf, hs, eq_comm]

theorem into_watch_ok_iff (readers : Readers) (env vault : String → Option String)
    (source : SourceConfig) (defaults : Defaults) (presets : List (String × SourcePreset))
    (watch : Watch) :
    into_watch readers env vault source defaults presets = .ok watch ↔
      provider_error source (source.explicit_id.getD (built_id source)) = none ∧
        build_watch readers (source.explicit_id.getD (built_id source))
          (provider_of env vault source) source.common defaults presets = .ok watch := by
  unfold into_watch
  cases h : provider_error source (source.explicit_id.getD (built_id source)) <;> simp [h]

end xrelease.config
