-- What `GET /api/v1/config` shows of the configuration (`config_apply/redact.rs`): every secret is
-- replaced by a placeholder, and of a connection URL the part before the host.
import Xrelease.Format
import Xrelease.Vaulted

namespace xrelease.config

open text

/-! ## URLs -/

/-- The characters after the last `c`. -/
def after_last (c : Char) (s : List Char) : Option (List Char) :=
  if c ∈ s then some (s.rtakeWhile (· ≠ c)) else none

/-- The `user[:pass]@` part of a URL becomes `<redacted>@`. -/
def redact_userinfo (url : List Char) : List Char :=
  match split_once_at "://".toList url with
  | none => url
  | some (scheme, rest) =>
    let authority := rest.takeWhile (· ≠ '/')
    match after_last '@' authority with
    | none => url
    | some host =>
      scheme ++ "://".toList ++ "<redacted>@".toList ++ (host ++ rest.dropWhile (· ≠ '/'))

def redact_url_userinfo (url : String) : String := String.ofList (redact_userinfo url.toList)

/-! ## Entries -/

/-- A secret that is set, inline or by a name, is shown as a placeholder. -/
def mask_field (value : String) (env : Option String) : String :=
  if value ≠ "" ∨ (named env).isSome then "<redacted>" else value

def mask_token (token token_env : Option String) : Option String :=
  let has_inline := match token with
    | some value => !blank value
    | none => false
  if has_inline || (named token_env).isSome then some "<redacted>" else token

/-- A broker URL: its host and path stay visible. -/
def mask_url (url : String) (url_env : Option String) : String :=
  if (named url_env).isSome ∧ blank url then "<redacted>" else redact_url_userinfo url

def redact_source (source : SourceConfig) : SourceConfig :=
  match source.token_refs with
  | some (token, token_env) => source.with_token (mask_token token token_env) token_env
  | none => source

def redact_notifier : NotifierConfig → NotifierConfig
  | .Apprise n =>
    .Apprise { n with
      urls := if n.urls ≠ [] ∨ (named n.urls_env).isSome then ["<redacted>"] else n.urls }
  | .Webhook n =>
    let headers := n.headers.map (fun kv => (kv.1, "<redacted>"))
    .Webhook { n with
      url := mask_field n.url n.url_env
      secret := mask_field n.secret n.secret_env
      headers :=
        if headers = [] ∧ (named n.headers_env).isSome then [("Authorization", "<redacted>")]
        else headers }
  | .Express n => .Express { n with access_token := mask_field n.access_token n.access_token_env }
  | .Novu n => .Novu { n with api_key := mask_field n.api_key n.api_key_env }
  | .Slack n =>
    .Slack { n with
      webhook_url := mask_field n.webhook_url n.webhook_url_env
      bot_token := mask_field n.bot_token n.bot_token_env }
  | .Telegram n => .Telegram { n with bot_token := mask_field n.bot_token n.bot_token_env }
  | .Smtp n => .Smtp { n with password := mask_field n.password n.password_env }
  | .Rabbitmq n => .Rabbitmq { n with url := mask_url n.url n.url_env }
  | .Nats n => .Nats { n with url := mask_url n.url n.url_env }
  | .Kafka n => .Kafka n

/-! ## The document -/

def mask_option (value : Option String) : Option String :=
  match value with
  | some v => if v = "" then some v else some "<redacted>"
  | none => none

def redact_api (api : ApiConfig) : ApiConfig :=
  { api with
    api_key := mask_option api.api_key
    webhook_secret := mask_option api.webhook_secret
    local_auth := { api.local_auth with
      session_secret := mask_option api.local_auth.session_secret
      admin_password := mask_option api.local_auth.admin_password } }

def redact_database (database : DatabaseConfig) : DatabaseConfig :=
  if blank database.postgres_url then database
  else { database with postgres_url := redact_url_userinfo database.postgres_url }

def redact_config (config : Config) : Config :=
  { config with
    database := redact_database config.database
    api := redact_api config.api
    sources := config.sources.map redact_source
    notifiers := config.notifiers.map redact_notifier }

/-- The redacted full document, as a library that writes whole configurations writes it. -/
def redact_desired_document_with_format (write : DesiredFormat → Config → Option String)
    (format : DesiredFormat) (config : Config) : String :=
  (write format (redact_config config)).getD "# failed to serialize config\n"

def contains_app_sections (config : Config) : Bool :=
  config.sources ≠ [] || config.notifiers ≠ [] || config.teams ≠ [] || config.presets ≠ [] ||
    config.defaults ≠ {}

abbrev has_desired_state (config : Config) : Bool := contains_app_sections config

/-- Clear the bootstrap-only sections. -/
def strip_infra_sections (config : Config) : Config :=
  { config with
    database := {}
    log := {}
    api := {}
    config_api := {}
    advisories := {}
    organizations := [] }

def EMPTY_ORGANIZATION_DOCUMENT : String := "\x7b\x7d\n"

/-- The redacted app-layer sections; an error of the library becomes a comment. -/
def redact_desired_only_document (codec : Codec) (format : DesiredFormat) (config : Config) :
    String :=
  let redacted := strip_infra_sections (redact_config config)
  if !has_desired_state redacted then EMPTY_ORGANIZATION_DOCUMENT
  else
    match serialize_desired_only_strict codec format redacted with
    | .ok text => text
    | .error _ => "# failed to serialize config\n"

end xrelease.config
