-- Static validation (`validate.rs`) and the dry run of a document: what is found wrong with a
-- merged configuration without a network, and without asking whether a secret that is only named
-- can be found.
import Xrelease.Apply
import Xrelease.Backends
import Xrelease.Sessions

namespace xrelease.validate

open xrelease.config xrelease.config_apply xrelease.notify text keyed.Table

/-! ## The report -/

/-- One `report.error` or `report.warn`. -/
inductive Finding where
  | error (message : String)
  | warn (message : String)
deriving DecidableEq

/-- The text of an error. -/
def Finding.error_text : Finding → Option String
  | .error message => some message
  | .warn _ => none

/-- The text of a warning. -/
def Finding.warn_text : Finding → Option String
  | .error _ => none
  | .warn message => some message

/-- The report of these findings, in their order. -/
def report_of (findings : List Finding) : ValidationReport where
  valid := findings.all (fun finding => finding.error_text.isNone)
  errors := findings.filterMap Finding.error_text
  warnings := findings.filterMap Finding.warn_text

/-- Promote warnings to errors. -/
def apply_strict (strict : Bool) (report : ValidationReport) : ValidationReport :=
  if strict ∧ report.warnings ≠ [] then
    { report with
      valid := false
      errors := report.errors ++ report.warnings.map (fun warn => "strict: " ++ warn) }
  else report

/-- `report.error` under a condition. -/
def error_if (condition : Bool) (message : String) : List Finding :=
  if condition then [.error message] else []

/-- A warning under a condition. -/
def warn_if (condition : Bool) (message : String) : List Finding :=
  if condition then [.warn message] else []

/-! ## Notifiers -/

def secret_present (value : String) : Bool :=
  let trimmed := trim value
  trimmed ≠ "" && trimmed ≠ "<redacted>" && !contains "<redacted>" trimmed

/-- A `*_env` name is declared; the value may arrive later. -/
def secret_env_named (env_name : Option String) : Bool := (named env_name).isSome

/-- Inline value, named reference, or a global one that resolves. -/
def secret_configured (env vault : String → Option String) (inlined : String)
    (env_name : Option String) (global_env : String) : Bool :=
  secret_present inlined || secret_env_named env_name ||
    (global_env ≠ "" && (env_token env vault global_env).isSome)

/-- Apprise has a target. -/
def is_configured (n : AppriseConfig) : Bool :=
  n.urls ≠ [] || (named n.urls_env).isSome || n.config_key.isSome

def validate_apprise_fields (n : AppriseConfig) : List Finding :=
  error_if (!(["markdown", "text", "html"].contains n.format))
      ("apprise.format must be markdown|text|html, got `" ++ n.format ++ "`") ++
    error_if (blank n.endpoint) "apprise.endpoint must not be empty"

def validate_slack (env vault : String → Option String) (prefix_text : String) (n : SlackCfg) :
    List Finding :=
  let has_webhook :=
    secret_configured env vault n.webhook_url n.webhook_url_env "XRELEASE_SLACK_WEBHOOK_URL"
  let has_bot := secret_configured env vault n.bot_token n.bot_token_env "XRELEASE_SLACK_BOT_TOKEN"
  match has_webhook, has_bot with
  | true, true =>
    [.error (prefix_text ++ " (slack): set either `webhook_url`/`webhook_url_env` or " ++
      "`bot_token`/`bot_token_env`+`channel`, not both")]
  | false, false =>
    [.error (prefix_text ++
      " (slack): set `webhook_url` (or env) or `bot_token`+`channel` (or env)")]
  | false, true =>
    error_if (blank n.channel)
      (prefix_text ++ " (slack): `channel` must not be empty when using `bot_token`")
  | true, false => []

def validate_parse_mode (prefix_text : String) (parse_mode : Option String) : List Finding :=
  match named parse_mode with
  | none => []
  | some mode =>
    error_if (!PARSE_MODES.contains mode)
      (prefix_text ++ " (telegram): `parse_mode` must be Markdown|MarkdownV2|HTML, got `" ++
        mode ++ "`")

/-- The checks of one notifier, by its kind. -/
def validate_notifier_entry (env vault : String → Option String) (index : Nat)
    (notifier : NotifierConfig) : List Finding :=
  let prefix_text := "notifiers[" ++ toString index ++ "]"
  match notifier with
  | .Apprise n =>
    error_if (!is_configured n)
        (prefix_text ++ " (apprise): set `urls`, `urls_env`, or `config_key`") ++
      validate_apprise_fields n
  | .Webhook n =>
    error_if (!secret_configured env vault n.url n.url_env "")
      (prefix_text ++ " (webhook): set `url` or `url_env`")
  | .Express n =>
    error_if (blank n.base_url) (prefix_text ++ " (express): `base_url` must not be empty") ++
      error_if (blank n.group_chat_id)
        (prefix_text ++ " (express): `group_chat_id` must not be empty") ++
      error_if (!secret_configured env vault n.access_token n.access_token_env
          "XRELEASE_EXPRESS_ACCESS_TOKEN")
        (prefix_text ++ " (express): set `access_token` or `access_token_env` (Bearer for POST " ++
          "/api/v4/botx/notifications/direct) — HMAC/GET /token is not used")
  | .Novu n =>
    error_if (blank n.base_url) (prefix_text ++ " (novu): `base_url` must not be empty") ++
      error_if (blank n.workflow) (prefix_text ++ " (novu): `workflow` must not be empty") ++
      error_if ((named n.topic_key).isNone && (named n.subscriber_id).isNone)
        (prefix_text ++ " (novu): set `topic_key` or `subscriber_id` (Novu Topic or Subscriber " ++
          "target)") ++
      error_if (!secret_configured env vault n.api_key n.api_key_env "XRELEASE_NOVU_API_KEY")
        (prefix_text ++ " (novu): set `api_key` or `api_key_env` (or `XRELEASE_NOVU_API_KEY`)")
  | .Slack n => validate_slack env vault prefix_text n
  | .Telegram n =>
    error_if (blank n.chat_id) (prefix_text ++ " (telegram): `chat_id` must not be empty") ++
      error_if (!secret_configured env vault n.bot_token n.bot_token_env
          "XRELEASE_TELEGRAM_BOT_TOKEN")
        (prefix_text ++ " (telegram): set `bot_token` or `bot_token_env` (or " ++
          "`XRELEASE_TELEGRAM_BOT_TOKEN`)") ++
      validate_parse_mode prefix_text n.parse_mode
  | .Smtp n =>
    error_if (blank n.host) (prefix_text ++ " (smtp): `host` must not be empty") ++
      error_if (blank n.from) (prefix_text ++ " (smtp): `from` must not be empty") ++
      error_if (n.to = []) (prefix_text ++ " (smtp): `to` must contain at least one address") ++
      warn_if (n.username.isSome &&
          !secret_configured env vault n.password n.password_env "XRELEASE_SMTP_PASSWORD")
        (prefix_text ++ " (smtp): `username` is set but no password — set `password`, " ++
          "`password_env`, or `XRELEASE_SMTP_PASSWORD`")
  | .Kafka n =>
    error_if (n.brokers = []) (prefix_text ++ " (kafka): `brokers` must not be empty") ++
      error_if (blank n.topic) (prefix_text ++ " (kafka): `topic` must not be empty")
  | .Nats n =>
    error_if (!secret_configured env vault n.url n.url_env "XRELEASE_NATS_URL")
        (prefix_text ++ " (nats): set `url` or `url_env` (or `XRELEASE_NATS_URL`)") ++
      error_if (blank n.subject) (prefix_text ++ " (nats): `subject` must not be empty")
  | .Rabbitmq n =>
    error_if (!secret_configured env vault n.url n.url_env "XRELEASE_RABBITMQ_URL")
        (prefix_text ++ " (rabbitmq): set `url` or `url_env` (or `XRELEASE_RABBITMQ_URL`)") ++
      error_if (blank n.routing_key)
        (prefix_text ++ " (rabbitmq): `routing_key` must not be empty")

/-- The checks of every notifier. -/
def validate_entries (env vault : String → Option String) :
    List NotifierConfig → Nat → List Finding
  | [], _ => []
  | notifier :: rest, index =>
    validate_notifier_entry env vault index notifier ++ validate_entries env vault rest (index + 1)

def NO_NOTIFIERS : String :=
  "no notifiers configured: add one or more `[[notifiers]]` / `notifiers:` entries"

/-- There is a notifier, and each is sound. -/
def validate_notifiers (env vault : String → Option String) (config : Config) : List Finding :=
  (if config.notifiers = [] then
      if config.config_api.ledger_is_bootable then
        [.warn (NO_NOTIFIERS ++
          " — API/UI mode: process will idle until delivery channels are applied")]
      else [.error NO_NOTIFIERS]
    else []) ++
  error_if (config.apprise ≠ {})
    ("top-level `[apprise]` / `apprise:` is removed; use `[[notifiers]]` with " ++
      "`type = \"apprise\"`") ++
  validate_entries env vault config.notifiers 0

/-! ## The bootstrap sections -/

def validate_database (env : Env) (config : Config) : List Finding :=
  error_if (blank config.database.postgres_url &&
      (env "XRELEASE_DATABASE_URL").all blank)
    "database.postgres_url is required (or set XRELEASE_DATABASE_URL)" ++
  warn_if (0 < config.database.prune_interval_hours &&
      config.database.prune_seen_after_days = 0 &&
      config.database.prune_webhooks_after_days = 0)
    ("database.prune_interval_hours is set but no prune_*_after_days — periodic prune will " ++
      "not run")

/-- `LedgerCipher::key_env_present`. -/
def key_env_present (env : Env) : Bool := (env "XRELEASE_CONFIG_ENCRYPTION_KEY").any (!blank ·)

/-- `LedgerCipher::plaintext_ledger_allowed`. -/
def plaintext_ledger_allowed (env : Env) : Bool :=
  (env "XRELEASE_ALLOW_PLAINTEXT_CONFIG_LEDGER").any
    (fun value => ["1", "true", "yes", "on"].contains (lower (trim value)))

/-- Coherent `[config_api]` flags. -/
def validate_config_api (env : Env) (config : Config) : List Finding :=
  let ca := config.config_api
  error_if (ca.source = .Api && !ca.api_config)
    ("config_api: source = \"api\" requires api_config = true (ledger authority needs " ++
      "apply/rollback routes)") ++
  error_if (ca.ui_config && !(ca.api_config && ca.source = .Api))
    "config_api: ui_config = true requires api_config = true and source = \"api\"" ++
  (if ca.source = .Api ∧ key_env_present env = false then
      if plaintext_ledger_allowed env then
        [.warn ("config_api: source = \"api\" with XRELEASE_ALLOW_PLAINTEXT_CONFIG_LEDGER — " ++
          "app_secret values are stored as plaintext; set XRELEASE_CONFIG_ENCRYPTION_KEY for " ++
          "production")]
      else
        [.error ("config_api: source = \"api\" requires XRELEASE_CONFIG_ENCRYPTION_KEY " ++
          "(AES-256-GCM seals app_secret values). Generate with `openssl rand -base64 32`. " ++
          "Lab-only escape: XRELEASE_ALLOW_PLAINTEXT_CONFIG_LEDGER=1")]
    else [])

def validate_api (libs : Libraries) (env : Env) (config : Config) : List Finding :=
  let api := config.api
  let has_webhook_secret := api.webhook_secret.isSome || (env "XRELEASE_WEBHOOK_SECRET").isSome
  let has_api_key := api.api_key.isSome || (env "XRELEASE_API_KEY").isSome
  let has_oidc := api.oidc.issuer.any (· ≠ "") || (env "XRELEASE_OIDC_ISSUER").any (· ≠ "")
  let has_local := api.local_auth.enabled && (auth.session_secret api.local_auth).isSome ||
    (env "XRELEASE_SESSION_SECRET").any (· ≠ "")
  error_if (!libs.socket_addr api.listen)
    ("api.listen is not a valid socket address: `" ++ api.listen ++ "`") ++
  warn_if (!has_webhook_secret)
    "api.webhook_secret is not set — webhook signature verification is disabled" ++
  (if has_api_key || has_oidc || has_local then []
    else if api.require_auth then
      [.error ("api.require_auth is true but api.api_key, api.oidc, and local session " ++
        "secret are unset — set a bearer secret, OIDC issuer, or XRELEASE_SESSION_SECRET " ++
        "(or set require_auth = false for lab-only)")]
    else
      [.warn ("api.require_auth is false and no credentials are set — management routes are " ++
        "unauthenticated (default is require_auth = true)")]) ++
  warn_if (api.rate_limit_per_minute = 0) "api.rate_limit_per_minute = 0 disables HTTP rate limiting"

/-! ## Teams -/

/-- The tag after the preset merge; an unknown preset is an error elsewhere. -/
def effective_tag (presets : List (String × SourcePreset)) (source : SourceConfig) :
    Option String :=
  ((with_preset_resolved source.common presets (source.explicit_id.getD
    (default_source_id source))).toOption.bind (·.routing_tag)).or source.common.routing_tag

/-- `source_label`. -/
def source_label (source : SourceConfig) : String :=
  source.explicit_id.getD (default_source_id source)

/-- What the routing checks know of the configuration. -/
structure Routing where
  /-- The tags of `[[teams]]`. -/
  catalog : List String
  notifier_tags : List String
  wildcard_notifier : Bool
  has_any_channel : Bool

/-- The tags that there are. -/
def routing_of (config : Config) : Routing where
  catalog := config.teams.map (·.tag)
  notifier_tags := config.notifiers.flatMap NotifierConfig.routing_tags
  wildcard_notifier := config.notifiers.any (fun notifier => notifier.routing_tags = [])
  has_any_channel := config.notifiers ≠ []

/-- The tags as the messages list them. -/
def available_tags (routing : Routing) : String :=
  if routing.notifier_tags = [] then
    "(none — add tags on a channel, or leave a channel’s tags empty for wildcard)"
  else ", ".intercalate (tag_set routing.notifier_tags)

/-- A tag with no notifier is an error once there is a channel at all. -/
def unmatched (routing : Routing) (message hint : String) : Finding :=
  if routing.has_any_channel then .error message else .warn (message ++ hint)

/-- A source's tag reaches a notifier. -/
def validate_source_routing (routing : Routing) (id : String) : Option String → List Finding
  | none =>
    warn_if (!routing.wildcard_notifier && routing.notifier_tags ≠ [])
      ("source `" ++ id ++ "` has no routing_tag — only wildcard notifiers will receive its events")
  | some tag =>
    if blank tag then [.warn ("source `" ++ id ++ "` has an empty routing_tag")]
    else
      warn_if (routing.catalog ≠ [] && !routing.catalog.contains tag)
        ("source `" ++ id ++ "` uses routing_tag `" ++ tag ++
          "` which is not listed in [[teams]]") ++
      (if routing.wildcard_notifier || routing.notifier_tags.contains tag then []
        else
          [unmatched routing
            ("source `" ++ id ++ "` routing_tag `" ++ tag ++ "` has no matching notifier — " ++
              "channel tags: [" ++ available_tags routing ++ "]; select `" ++ tag ++
              "` on a channel, or clear a channel’s tags (wildcard)")
            (" — no delivery channels yet; notifications will start after a channel is " ++
              "applied")])

/-- The tag of operational alerts reaches a notifier. -/
def validate_ops_routing (routing : Routing) : Option String → List Finding
  | none => []
  | some tag =>
    warn_if (routing.catalog ≠ [] && !routing.catalog.contains tag)
      ("defaults.ops_routing_tag `" ++ tag ++ "` is not listed in [[teams]]") ++
    (if routing.wildcard_notifier || routing.notifier_tags.contains tag then []
      else
        [unmatched routing
          ("defaults.ops_routing_tag `" ++ tag ++ "` has no matching notifier — meta-alerts on " ++
            "dead outbox / tripped breakers will fail to deliver")
          " — no delivery channels yet; set a matching channel before relying on ops alerts"])

/-- Every tag reaches a notifier. -/
def validate_team_routing (config : Config) : List Finding :=
  let routing := routing_of config
  let presets := effective_source_presets config.presets
  let ops := named config.defaults.ops_routing_tag
  let used_team_tags :=
    (config.sources.filterMap (effective_tag presets)).filter (!blank ·) ++ ops.toList
  config.teams.flatMap
      (fun team => error_if (blank team.tag) "teams[].tag must not be empty") ++
    config.sources.flatMap (fun source =>
      validate_source_routing routing (source_label source) (effective_tag presets source)) ++
    validate_ops_routing routing ops ++
    config.teams.flatMap (fun team =>
      let tag := trim team.tag
      warn_if (tag ≠ "" && !used_team_tags.contains tag && !routing.notifier_tags.contains tag)
        ("teams tag `" ++ tag ++ "` is unused by sources and notifiers"))

/-! ## Sources -/

def validate_defaults (config : Config) : List Finding :=
  error_if (config.defaults.interval_secs = 0) "defaults.interval_secs must be > 0" ++
    warn_if (config.defaults.upstream_requests_per_minute = 0 && 20 < config.sources.length)
      ("defaults.upstream_requests_per_minute = 0 with many sources — consider setting a " ++
        "global upstream cap (e.g. 60)")

/-- Non-fatal hints about a source. -/
def lint (env vault : String → Option String) (presets : List (String × SourcePreset))
    (source : SourceConfig) : Option String :=
  let id := source_label source
  let pattern := match with_preset_resolved source.common presets id with
    | .ok common => common.pattern
    | .error _ => source.common.pattern
  match source with
  | .Docker _ | .Image _ _ =>
    if pattern = none then
      some ("source `" ++ id ++ "`: container registries are noisy without a `pattern` filter")
    else none
  | .Package .Maven c =>
    if contains ":" c.name then none
    else
      some ("source `" ++ id ++ "`: maven name should be `group:artifact`, got `" ++ c.name ++ "`")
  | .Package .Packagist c =>
    if contains "/" c.name then none
    else
      some ("source `" ++ id ++ "`: packagist name should be `vendor/package`, got `" ++ c.name ++
        "`")
  | .Github c =>
    if resolve_token env vault c.token c.token_env "GITHUB_TOKEN" = none then
      some ("source `" ++ id ++ "`: no GitHub token — using Atom feed (no release body, lower " ++
        "rate limit)")
    else none
  | .Bitbucket c =>
    if c.edition = .Server ∧ c.host = none then
      some ("source `" ++ id ++ "`: bitbucket edition = server requires `host`")
    else none
  | .Artifacthub c =>
    if contains "/" c.name then none
    else
      some ("source `" ++ id ++ "`: artifacthub name should be `repository/chart`, got `" ++
        c.name ++ "`")
  | _ => none

/-- The preset that a source names. -/
def used_preset (source : SourceConfig) : Option String := named source.common.preset

/-- The preset exists. -/
def validate_preset (presets : List (String × SourcePreset)) (source : SourceConfig) :
    List Finding :=
  match used_preset source with
  | none => []
  | some name =>
    error_if (look name presets).isNone
      ("source `" ++ source_label source ++ "`: unknown preset `" ++ name ++
        "` (not a built-in and not listed under `presets`)")

/-- The ids so far are those seen. -/
def validate_watches : List Watch → List String → List Finding
  | [], _ => []
  | watch :: rest, ids =>
    error_if (ids.contains watch.id)
        ("duplicate source id `" ++ watch.id ++ "` — set explicit `id` on one of the blocks") ++
      error_if (watch.interval = 0)
        ("source `" ++ watch.id ++ "`: interval_secs must be > 0") ++
      validate_watches rest (watch.id :: ids)

def validate_sources (makers : Makers) (env vault : String → Option String) (config : Config) :
    List Finding :=
  let presets := effective_source_presets config.presets
  let used_presets := config.sources.filterMap used_preset
  warn_if (config.sources = []) "no [[sources]] configured — backend will idle" ++
  config.sources.flatMap (validate_preset presets) ++
  config.presets.flatMap (fun entry =>
    warn_if (!used_presets.contains entry.1)
      ("preset `" ++ entry.1 ++ "` is unused by any source")) ++
  match to_watches makers env vault config with
  | .error err => [.error ("failed to build watches: " ++ err)]
  | .ok watches =>
    validate_watches watches [] ++
      (config.sources.filterMap (lint env vault presets)).map .warn

/-! ## A configuration, and a document -/

/-- Static validation. -/
def validate_full (libs : Libraries) (makers : Makers) (env vault : String → Option String)
    (config : Config) : ValidationReport :=
  report_of
    (validate_notifiers env vault config ++
      validate_database env config ++
      validate_config_api env config ++
      validate_team_routing config ++
      validate_api libs env config ++
      validate_defaults config ++
      validate_sources makers env vault config)

/-- The answer of the validation. -/
structure ValidateResponse where
  valid : Bool
  content_sha256 : String
  report : ValidationReport

/-- Dry-run a document without persisting or swapping. -/
def validate_document (server : Server) (faults : Faults) (process : Process) (scope : ApplyScope)
    (raw : String) (hint : Option DesiredFormat) (strict : Bool) :
    Except ApplyError ValidateResponse := do
  let candidate ← resolve_scoped_candidate server faults process scope raw hint
  let report := apply_strict strict
    (server.validate_full process.secrets.vault candidate.merged)
  return { valid := report.valid, content_sha256 := server.setup.sha256 raw, report }

/-- A server whose backends and whose validation are those of the program. -/
structure AsBuilt (libs : Libraries) (server : Server) : Prop where
  construct : server.makers.construct = construct libs
  validate_full : server.validate_full =
    validate_full libs server.makers server.setup.env

end xrelease.validate
