-- The configuration (`config/mod.rs`, `config/notifiers.rs`, `config/sources`): the sections of
-- a desired-state document and of the bootstrap file, with the defaults of an absent field. A
-- map is the list of its entries by key.
import Xrelease.Text

namespace xrelease.config

open text

/-! ## Text that may be missing -/

/-- `value.trim().is_empty()`. -/
def blank (value : String) : Bool := trim value == ""

/-- `.as_deref().map(str::trim).filter(|name| !name.is_empty())`. -/
def named (value : Option String) : Option String :=
  match value with
  | none => none
  | some name => if blank name then none else some (trim name)

/-! ## Notifiers -/

/-- `type = "apprise"`. -/
structure AppriseConfig where
  endpoint : String := "http://localhost:8000"
  urls : List String := []
  urls_env : Option String := none
  config_key : Option String := none
  tag : Option String := none
  tags : List String := []
  format : String := "markdown"
deriving DecidableEq

/-- The HTTP method of a webhook. -/
inductive WebhookMethodCfg where
  | Post
  | Put
deriving DecidableEq

/-- `type = "webhook"`. -/
structure WebhookCfg where
  name : Option String := none
  tags : List String := []
  url : String := ""
  url_env : Option String := none
  method : WebhookMethodCfg := .Post
  headers : List (String × String) := []
  headers_env : Option String := none
  content_type : Option String := none
  template : Option String := none
  secret : String := ""
  secret_env : Option String := none
  signature_header : Option String := none
deriving DecidableEq

/-- `type = "express"`. -/
structure ExpressCfg where
  name : Option String := none
  tags : List String := []
  base_url : String
  access_token : String := ""
  access_token_env : Option String := none
  group_chat_id : String
  recipients : List String := []
  template : Option String := none
deriving DecidableEq

/-- `type = "novu"`. -/
structure NovuCfg where
  name : Option String := none
  tags : List String := []
  base_url : String := "https://api.novu.co"
  api_key : String := ""
  api_key_env : Option String := none
  workflow : String
  topic_key : Option String := none
  subscriber_id : Option String := none
deriving DecidableEq

/-- `type = "slack"`. -/
structure SlackCfg where
  name : Option String := none
  tags : List String := []
  webhook_url : String := ""
  webhook_url_env : Option String := none
  bot_token : String := ""
  bot_token_env : Option String := none
  channel : String := ""
  api_base : String := "https://slack.com/api"
  template : Option String := none
deriving DecidableEq

/-- `type = "telegram"`. -/
structure TelegramCfg where
  name : Option String := none
  tags : List String := []
  api_base : String := "https://api.telegram.org"
  bot_token : String := ""
  bot_token_env : Option String := none
  chat_id : String
  parse_mode : Option String := none
  template : Option String := none
deriving DecidableEq

/-- `type = "kafka"`. -/
structure KafkaCfg where
  name : Option String := none
  tags : List String := []
  brokers : List String
  topic : String
  key : Option String := none
  template : Option String := none
deriving DecidableEq

/-- `type = "nats"`. -/
structure NatsCfg where
  name : Option String := none
  tags : List String := []
  url : String := ""
  url_env : Option String := none
  subject : String
  template : Option String := none
deriving DecidableEq

/-- `type = "rabbitmq"`. -/
structure RabbitmqCfg where
  name : Option String := none
  tags : List String := []
  url : String := ""
  url_env : Option String := none
  exchange : String := ""
  routing_key : String
  template : Option String := none
deriving DecidableEq

/-- How the mail server is reached. -/
inductive SmtpTlsCfg where
  | Starttls
  | Tls
  | Plain
deriving DecidableEq

/-- `type = "smtp"`. -/
structure SmtpCfg where
  name : Option String := none
  tags : List String := []
  host : String
  port : Nat := 587
  username : Option String := none
  password : String := ""
  password_env : Option String := none
  «from» : String
  «to» : List String
  tls : SmtpTlsCfg := .Starttls
  subject_template : Option String := none
  template : Option String := none
  body_format : String := "text"
deriving DecidableEq

/-- A single delivery sink (`[[notifiers]]`). -/
inductive NotifierConfig where
  | Apprise (n : AppriseConfig)
  | Webhook (n : WebhookCfg)
  | Express (n : ExpressCfg)
  | Novu (n : NovuCfg)
  | Slack (n : SlackCfg)
  | Telegram (n : TelegramCfg)
  | Smtp (n : SmtpCfg)
  | Kafka (n : KafkaCfg)
  | Nats (n : NatsCfg)
  | Rabbitmq (n : RabbitmqCfg)
deriving DecidableEq

namespace NotifierConfig

/-- The tags that a notifier takes; none for every event. -/
def routing_tags : NotifierConfig → List String
  | Apprise n => n.tags
  | Webhook n => n.tags
  | Express n => n.tags
  | Novu n => n.tags
  | Slack n => n.tags
  | Telegram n => n.tags
  | Smtp n => n.tags
  | Kafka n => n.tags
  | Nats n => n.tags
  | Rabbitmq n => n.tags

/-- A write through `routing_tags_mut`. -/
def with_routing_tags (tags : List String) : NotifierConfig → NotifierConfig
  | Apprise n => Apprise { n with tags }
  | Webhook n => Webhook { n with tags }
  | Express n => Express { n with tags }
  | Novu n => Novu { n with tags }
  | Slack n => Slack { n with tags }
  | Telegram n => Telegram { n with tags }
  | Smtp n => Smtp { n with tags }
  | Kafka n => Kafka { n with tags }
  | Nats n => Nats { n with tags }
  | Rabbitmq n => Rabbitmq { n with tags }

@[simp] theorem routing_tags_with (tags : List String) (n : NotifierConfig) :
    (n.with_routing_tags tags).routing_tags = tags := by
  cases n <;> rfl

end NotifierConfig

/-! ## Sources -/

/-- Optional settings that every kind of source has. -/
structure SourceCommon where
  preset : Option String := none
  include_prerelease : Option Bool := none
  prerelease_tags : Option (List String) := none
  exclude_updated : Option Bool := none
  pattern : Option String := none
  exclude_pattern : Option String := none
  routing_tag : Option String := none
  interval_secs : Option Nat := none
  jitter_secs : Option Nat := none
  poll_on_startup : Option Bool := none
  notify_schedule : Option String := none
deriving DecidableEq

/-- Named values for the shared fields, referenced by `preset: name`. -/
structure SourcePreset where
  include_prerelease : Option Bool := none
  prerelease_tags : Option (List String) := none
  exclude_updated : Option Bool := none
  pattern : Option String := none
  exclude_pattern : Option String := none
  routing_tag : Option String := none
  interval_secs : Option Nat := none
  jitter_secs : Option Nat := none
  poll_on_startup : Option Bool := none
  notify_schedule : Option String := none
deriving DecidableEq

/-- A repository on the host of its kind. -/
structure GiteaRepoCfg where
  id : Option String := none
  repo : String
  token : Option String := none
  token_env : Option String := none
  common : SourceCommon := {}
deriving DecidableEq

/-- A repository on a host of one's own. -/
structure GiteaHostCfg where
  id : Option String := none
  host : String
  repo : String
  token : Option String := none
  token_env : Option String := none
  common : SourceCommon := {}
deriving DecidableEq

/-- `type = "gitlab"`. -/
structure GitlabCfg where
  id : Option String := none
  project : String
  host : Option String := none
  token : Option String := none
  token_env : Option String := none
  common : SourceCommon := {}
deriving DecidableEq

/-- The two editions of Bitbucket. -/
inductive BitbucketEditionCfg where
  | Cloud
  | Server
deriving DecidableEq

/-- `type = "bitbucket"`. -/
structure BitbucketCfg where
  id : Option String := none
  repo : String
  edition : BitbucketEditionCfg := .Cloud
  host : Option String := none
  token : Option String := none
  token_env : Option String := none
  common : SourceCommon := {}
deriving DecidableEq

/-- `type = "docker"`. -/
structure DockerCfg where
  id : Option String := none
  image : String
  registry : Option String := none
  token : Option String := none
  token_env : Option String := none
  common : SourceCommon := {}
deriving DecidableEq

/-- An image in the registry of its kind. -/
structure RegistryImageCfg where
  id : Option String := none
  image : String
  token : Option String := none
  token_env : Option String := none
  common : SourceCommon := {}
deriving DecidableEq

/-- `type = "feed"`. -/
structure FeedCfg where
  id : Option String := none
  url : String
  common : SourceCommon := {}
deriving DecidableEq

/-- A package in the registry of its kind. -/
structure PackageCfg where
  id : Option String := none
  name : String
  common : SourceCommon := {}
deriving DecidableEq

/-- `type = "artifacthub"`. -/
structure ArtifactHubCfg where
  id : Option String := none
  name : String
  host : Option String := none
  package_kind : String := "helm"
  common : SourceCommon := {}
deriving DecidableEq

/-- The package registries, one source kind each. -/
inductive PackageRegistry where
  | Pypi
  | Npm
  | Cargo
  | Maven
  | Nuget
  | Hex
  | Rubygems
  | Packagist
  | Yarn
  | Cpan
deriving DecidableEq

/-- The container registries with an implicit URL, one source kind each. -/
inductive ImageRegistry where
  | Ghcr
  | Quay
  | Ecr
deriving DecidableEq

/-- One watched source (`[[sources]]`). The ten package kinds share a constructor, as do the three
image kinds: no code tells them apart otherwise than by their name. -/
inductive SourceConfig where
  | Github (c : GiteaRepoCfg)
  | Codeberg (c : GiteaRepoCfg)
  | Gitea (c : GiteaHostCfg)
  | Gitlab (c : GitlabCfg)
  | Bitbucket (c : BitbucketCfg)
  | Docker (c : DockerCfg)
  | Image (registry : ImageRegistry) (c : RegistryImageCfg)
  | Feed (c : FeedCfg)
  | Package (registry : PackageRegistry) (c : PackageCfg)
  | Artifacthub (c : ArtifactHubCfg)
deriving DecidableEq

namespace SourceConfig

/-- The `(token, token_env)` of the kinds that take a token. -/
def token_refs : SourceConfig → Option (Option String × Option String)
  | Github c | Codeberg c => some (c.token, c.token_env)
  | Gitea c => some (c.token, c.token_env)
  | Gitlab c => some (c.token, c.token_env)
  | Bitbucket c => some (c.token, c.token_env)
  | Docker c => some (c.token, c.token_env)
  | Image _ c => some (c.token, c.token_env)
  | Feed _ | Package _ _ | Artifacthub _ => none

/-- A write through the mutable `token` and `token_env` of those kinds. -/
def with_token (token token_env : Option String) : SourceConfig → SourceConfig
  | Github c => Github { c with token, token_env }
  | Codeberg c => Codeberg { c with token, token_env }
  | Gitea c => Gitea { c with token, token_env }
  | Gitlab c => Gitlab { c with token, token_env }
  | Bitbucket c => Bitbucket { c with token, token_env }
  | Docker c => Docker { c with token, token_env }
  | Image r c => Image r { c with token, token_env }
  | Feed c => Feed c
  | Package r c => Package r c
  | Artifacthub c => Artifacthub c

theorem token_refs_with (s : SourceConfig) (token token_env : Option String) :
    (s.with_token token token_env).token_refs = s.token_refs.map (fun _ => (token, token_env)) := by
  cases s <;> rfl

@[simp] theorem with_token_with (s : SourceConfig) (a b c d : Option String) :
    (s.with_token a b).with_token c d = s.with_token c d := by
  cases s <;> rfl

theorem with_token_self {s : SourceConfig} {token token_env : Option String}
    (h : s.token_refs = some (token, token_env)) : s.with_token token token_env = s := by
  cases s <;> simp [token_refs] at h <;> obtain ⟨rfl, rfl⟩ := h <;> rfl

end SourceConfig

/-! ## The desired-state sections -/

/-- Default schedule and tuning (`[defaults]`). -/
structure Defaults where
  interval_secs : Nat := 86400
  jitter_secs : Nat := 3600
  upstream_requests_per_minute : Nat := 0
  poll_on_startup : Bool := true
  notify_schedule : Option String := none
  outbox_flush_concurrency : Nat := 8
  outbox_retry_backoff_max_secs : Nat := 3600
  sink_breaker_failure_threshold : Nat := 5
  sink_breaker_cooldown_secs : Nat := 300
  ops_routing_tag : Option String := none
deriving DecidableEq

/-- A team and its tag. -/
structure TeamConfig where
  tag : String
  name : Option String := none
deriving DecidableEq

/-! ## The bootstrap sections -/

/-- How the connection is secured. -/
inductive DatabaseSslMode where
  | Disable
  | Prefer
  | Require
  | VerifyCa
  | VerifyFull
deriving DecidableEq

/-- `[database]`. -/
structure DatabaseConfig where
  postgres_url : String := ""
  ssl_mode : Option DatabaseSslMode := none
  ssl_root_cert : Option String := none
  max_connections : Option Nat := none
  connect_timeout_secs : Option Nat := none
  prune_seen_after_days : Nat := 0
  prune_webhooks_after_days : Nat := 0
  prune_outbox_sent_after_days : Nat := 0
  prune_advisories_after_days : Nat := 0
  prune_interval_hours : Nat := 0
deriving DecidableEq

/-- `[advisories]`. -/
structure AdvisoryConfig where
  enabled : Bool := false
  endpoint : String := "https://api.osv.dev"
  timeout_secs : Nat := 5
  cache_ttl_secs : Nat := 3600
  breaker_threshold : Nat := 5
  breaker_cooldown_secs : Nat := 300
  sweep_interval_secs : Nat := 3600
  sweep_batch : Nat := 10
deriving DecidableEq

/-- `[log]`. -/
structure LogConfig where
  level : String := "info"
deriving DecidableEq

/-- `[api.oidc]`. -/
structure OidcConfig where
  issuer : Option String := none
  discovery_url : Option String := none
  jwks_uri : Option String := none
  audience : List String := []
  required_scope : Option String := none
  role_claim : String := "groups"
  role_admin : List String := ["xrelease-admin", "admin"]
  role_operator : List String := ["xrelease-operator", "operator"]
  role_viewer : List String := ["xrelease-viewer", "viewer"]
  default_role : String := "viewer"
  auto_create_users : Bool := true
deriving DecidableEq

/-- `[api.local_auth]`. -/
structure LocalAuthConfig where
  enabled : Bool := true
  admin_username : String := "admin"
  admin_password : Option String := none
  session_secret : Option String := none
  session_ttl_secs : Nat := 86400
deriving DecidableEq

/-- `[api]`. -/
structure ApiConfig where
  listen : String := "127.0.0.1:8080"
  webhook_secret : Option String := none
  api_key : Option String := none
  rate_limit_per_minute : Nat := 120
  cors_origins : List String := []
  oidc : OidcConfig := {}
  local_auth : LocalAuthConfig := {}
  require_auth : Bool := true
deriving DecidableEq

/-- Where the configuration comes from. -/
inductive ConfigSource where
  | Local
  | Api
deriving DecidableEq

/-- The switches of the config API. -/
structure ConfigApiConfig where
  api_config : Bool := false
  apply_scope : Option String := none
  source : ConfigSource := .Local
  ui_config : Bool := false
deriving DecidableEq

def ConfigApiConfig.ledger_is_bootable (c : ConfigApiConfig) : Bool := c.source == .Api

/-- One organization (tenant) of the bootstrap catalogue. -/
structure OrganizationConfig where
  id : String
  name : Option String := none
  app : Option String := none
deriving DecidableEq

/-- Top-level configuration. -/
structure Config where
  defaults : Defaults := {}
  apprise : AppriseConfig := {}
  database : DatabaseConfig := {}
  advisories : AdvisoryConfig := {}
  log : LogConfig := {}
  api : ApiConfig := {}
  config_api : ConfigApiConfig := {}
  organizations : List OrganizationConfig := []
  notifiers : List NotifierConfig := []
  teams : List TeamConfig := []
  presets : List (String × SourcePreset) := []
  sources : List SourceConfig := []
deriving DecidableEq

end xrelease.config
