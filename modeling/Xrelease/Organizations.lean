-- Many organizations in one process (`config/organizations.rs`, `prepare_organization_sources`
-- and the composing part of `config/resolve.rs`): every document is prefixed with the id of its
-- organization, and the documents are merged into one runtime configuration.
import Xrelease.Redact
import Xrelease.Watches

namespace xrelease.config

open text keyed.Table keyed.Sorted

/-! ## Prefixes -/

/-- Separator between organization id and the inner source id or routing tag. -/
def ORGANIZATION_SEP : String := "::"

/-- `{organization_id}::` before a value, once. -/
def namespace_scoped (organization_id value : String) : String :=
  let value := trim value
  let start := organization_id ++ ORGANIZATION_SEP
  if starts_with start value then value else start ++ value

def namespace_routing_tag (organization_id tag : String) : String :=
  namespace_scoped organization_id tag

def namespace_source_id (organization_id source_id : String) : String :=
  namespace_scoped organization_id source_id

def namespace_preset_name (organization_id name : String) : String :=
  namespace_scoped organization_id name

def organization_id_from_source_id (source_id : String) : Option String :=
  match split_once ORGANIZATION_SEP source_id with
  | some (org, _) => if org = "" then none else some org
  | none => none

/-! ## Source ids -/

/-- Stable default id from kind and primary field. -/
def default_source_id : SourceConfig → String
  | .Github c | .Codeberg c => "github:" ++ c.repo
  | .Gitea c => "gitea:" ++ c.host ++ ":" ++ c.repo
  | .Gitlab c => "gitlab:" ++ c.project
  | .Bitbucket c => "bitbucket:" ++ c.repo
  | .Docker c => "docker:" ++ c.image
  | .Image r c => r.config_prefix ++ ":" ++ c.image
  | .Feed c => "feed:" ++ c.url
  | .Package r c => r.config_prefix ++ ":" ++ c.name
  | .Artifacthub c => "artifacthub:" ++ c.name

/-- The id after a possible `org::`. -/
def bare_source_id (source_id : String) : String :=
  match split_once ORGANIZATION_SEP source_id with
  | some (_, rest) => rest
  | none => source_id

/-- The old shared prefixes, rewritten to the default of the kind. -/
def is_legacy_shared_prefix_id (bare : String) : Bool :=
  starts_with "package:" bare || starts_with "registry:" bare

/-- The id that the prefix goes before. -/
def base_source_id (source : SourceConfig) : String :=
  match source.explicit_id.map bare_source_id with
  | some bare => if is_legacy_shared_prefix_id bare then default_source_id source else bare
  | none => default_source_id source

/-! ## One document -/

/-- The tag under which an organization's untagged sources are heard. -/
def broadcast_tag (organization_id : String) : String :=
  namespace_routing_tag organization_id "__org__"

/-- The `BTreeSet` of the tags given. -/
def tag_set (tags : List String) : List String :=
  tags.dedup.mergeSort (fun a b => compare_str a b != .gt)

/-- Every routing tag that the organization's events can carry. -/
def org_event_tags (organization_id : String) (config : Config) : List String :=
  tag_set (broadcast_tag organization_id ::
    (config.sources.filterMap (fun source => named source.common.routing_tag)).map
      (namespace_routing_tag organization_id) ++
    (named config.defaults.ops_routing_tag).toList.map (namespace_routing_tag organization_id))

def namespace_notifier (organization_id : String) (catch_all : List String)
    (notifier : NotifierConfig) : NotifierConfig :=
  if notifier.routing_tags = [] then notifier.with_routing_tags catch_all
  else
    notifier.with_routing_tags
      (notifier.routing_tags.map (namespace_routing_tag organization_id))

def namespace_team (organization_id : String) (team : TeamConfig) : TeamConfig :=
  { team with tag := namespace_routing_tag organization_id team.tag }

def namespace_defaults (organization_id : String) (defaults : Defaults) : Defaults :=
  { defaults with
    ops_routing_tag := defaults.ops_routing_tag.map (fun tag =>
      if blank tag then tag else namespace_routing_tag organization_id (trim tag)) }

/-- The settings of a source with the defaults of its organization baked in. -/
def prepare_common (organization_id : String) (defaults : Defaults) (user_presets : List String)
    (common : SourceCommon) : SourceCommon :=
  let org_preset := match common.preset with
    | none => none
    | some name =>
      if trim name ∈ user_presets then some (namespace_preset_name organization_id (trim name))
      else none
  { common with
    interval_secs := some (common.interval_secs.getD defaults.interval_secs)
    jitter_secs := some (common.jitter_secs.getD defaults.jitter_secs)
    poll_on_startup := some (common.poll_on_startup.getD defaults.poll_on_startup)
    notify_schedule := common.notify_schedule.or defaults.notify_schedule
    routing_tag := match common.routing_tag with
      | some tag =>
        if blank tag then some (broadcast_tag organization_id)
        else some (namespace_routing_tag organization_id tag)
      | none => some (broadcast_tag organization_id)
    preset := org_preset.or common.preset }

def prepare_source (organization_id : String) (defaults : Defaults) (user_presets : List String)
    (source : SourceConfig) : SourceConfig :=
  source.with_id_common (some (namespace_source_id organization_id (base_source_id source)))
    (prepare_common organization_id defaults user_presets source.common)

/-- The document's own presets under their prefixed names. -/
def prepare_presets (organization_id : String) (presets : List (String × SourcePreset)) :
    List (String × SourcePreset) :=
  putAll compare_str
    (presets.map (fun entry => (namespace_preset_name organization_id entry.1, entry.2))) []

/-- `namespace_organization_desired` with `prepare_organization_sources`. -/
def namespace_organization_desired (organization_id : String) (config : Config) : Config :=
  let catch_all := org_event_tags organization_id config
  let defaults := namespace_defaults organization_id config.defaults
  let user_presets := config.presets.map Prod.fst
  { config with
    teams := config.teams.map (namespace_team organization_id)
    defaults
    notifiers := config.notifiers.map (namespace_notifier organization_id catch_all)
    presets := prepare_presets organization_id config.presets
    sources := config.sources.map (prepare_source organization_id defaults user_presets) }

end xrelease.config
