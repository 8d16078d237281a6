-- From a configuration to what runs (`Config::build_notifiers`, `Config::to_watches`): the
-- secrets of every notifier are looked up once, when it is built, and the routing tags go with it.
import Xrelease.Organizations

namespace xrelease.config

open text xrelease.engine

/-! ## Secrets of a notifier -/

/-- Drop a redaction placeholder that was persisted as a secret. -/
def sanitize_secret (value : String) : String := if usable value then value else ""

/-- Inline, then the named variable or vault entry, then the variable of the kind. -/
def resolve_secret (env vault : String → Option String) (inlined : String)
    (named_env : Option String) (global_env : String) : String :=
  let inlined := sanitize_secret inlined
  if !blank inlined then inlined
  else
    match (named named_env).bind (env_token env vault) with
    | some value => sanitize_secret value
    | none =>
      if blank global_env then ""
      else sanitize_secret ((env_token env vault global_env).getD "")

/-- What the JSON library reads: a list of strings, a map of strings. -/
structure JsonReaders where
  strings : String → Option (List String)
  object : String → Option (List (String × String))

def live_urls (urls : List String) : List String := (urls.map sanitize_secret).filter (· ≠ "")

def resolve_apprise_urls (env vault : String → Option String) (json : JsonReaders)
    (cfg : AppriseConfig) : List String :=
  let live := live_urls cfg.urls
  if live ≠ [] then live
  else
    match (named cfg.urls_env).bind (env_token env vault) with
    | none => []
    | some raw =>
      match json.strings raw with
      | some parsed => live_urls parsed
      | none => live_urls [raw]

def live_headers (headers : List (String × String)) : List (String × String) :=
  (headers.map (fun kv => (kv.1, sanitize_secret kv.2))).filter (fun kv => kv.2 ≠ "")

def resolve_webhook_headers (env vault : String → Option String) (json : JsonReaders)
    (cfg : WebhookCfg) : List (String × String) :=
  let live := live_headers cfg.headers
  if live ≠ [] then live
  else
    match (named cfg.headers_env).bind (env_token env vault) with
    | none => []
    | some raw => live_headers ((json.object raw).getD [])

/-! ## Building -/

/-- The options that a backend is constructed with: the secrets are resolved, and the names they
were found under are gone. -/
def resolve_notifier (env vault : String → Option String) (json : JsonReaders) :
    NotifierConfig → NotifierConfig
  | .Apprise n =>
    .Apprise { n with urls := resolve_apprise_urls env vault json n, urls_env := none }
  | .Webhook n =>
    .Webhook { n with
      url := resolve_secret env vault n.url n.url_env ""
      url_env := none
      secret := resolve_secret env vault n.secret n.secret_env "XRELEASE_WEBHOOK_SECRET"
      secret_env := none
      headers := resolve_webhook_headers env vault json n
      headers_env := none }
  | .Express n =>
    .Express { n with
      access_token := resolve_secret env vault n.access_token n.access_token_env
        "XRELEASE_EXPRESS_ACCESS_TOKEN"
      access_token_env := none }
  | .Novu n =>
    .Novu { n with
      api_key := resolve_secret env vault n.api_key n.api_key_env "XRELEASE_NOVU_API_KEY"
      api_key_env := none }
  | .Slack n =>
    .Slack { n with
      webhook_url := resolve_secret env vault n.webhook_url n.webhook_url_env
        "XRELEASE_SLACK_WEBHOOK_URL"
      webhook_url_env := none
      bot_token := resolve_secret env vault n.bot_token n.bot_token_env "XRELEASE_SLACK_BOT_TOKEN"
      bot_token_env := none }
  | .Telegram n =>
    .Telegram { n with
      bot_token := resolve_secret env vault n.bot_token n.bot_token_env
        "XRELEASE_TELEGRAM_BOT_TOKEN"
      bot_token_env := none }
  | .Smtp n =>
    .Smtp { n with
      password := resolve_secret env vault n.password n.password_env "XRELEASE_SMTP_PASSWORD"
      password_env := none }
  | .Nats n =>
    .Nats { n with
      url := resolve_secret env vault n.url n.url_env "XRELEASE_NATS_URL"
      url_env := none }
  | .Rabbitmq n =>
    .Rabbitmq { n with
      url := resolve_secret env vault n.url n.url_env "XRELEASE_RABBITMQ_URL"
      url_env := none }
  | .Kafka n => .Kafka n

/-- A sink that runs: the options it was constructed with and its routing tags. -/
structure BuiltSink where
  options : NotifierConfig
  tags : List String
deriving DecidableEq

/-- `NotifierConfig::build`: `construct` is the constructor of the backend, and says what is
wrong with the options it is given. -/
def build (env vault : String → Option String) (json : JsonReaders)
    (construct : NotifierConfig → Except String Unit) (notifier : NotifierConfig) :
    Except String NotifierConfig := do
  let options := resolve_notifier env vault json notifier
  construct options
  return options

/-- The endpoint of the environment takes the place of that of every Apprise notifier. -/
def with_endpoint (endpoint : Option String) : NotifierConfig → NotifierConfig
  | .Apprise n => .Apprise { n with endpoint := endpoint.getD n.endpoint }
  | notifier => notifier

def build_sinks (build : NotifierConfig → Except String NotifierConfig)
    (endpoint : Option String) : List NotifierConfig → Nat → Except String (List BuiltSink)
  | [], _ => .ok []
  | notifier :: rest, index =>
    match build (with_endpoint endpoint notifier) with
    | .error err => .error ("notifier #" ++ toString index ++ " ([[notifiers]]): " ++ err)
    | .ok options => do
      let rest ← build_sinks build endpoint rest (index + 1)
      return ⟨options, notifier.routing_tags⟩ :: rest

/-- What the libraries and the backends make of texts and options. -/
structure Makers where
  readers : Readers
  json : JsonReaders
  construct : NotifierConfig → Except String Unit

def build_notifiers (makers : Makers) (env vault : String → Option String) (config : Config) :
    Except String (List BuiltSink) :=
  build_sinks (build env vault makers.json makers.construct)
    (named (env "XRELEASE_APPRISE_ENDPOINT")) config.notifiers 0

def watch_of (makers : Makers) (env vault : String → Option String) (defaults : Defaults)
    (presets : List (String × SourcePreset)) (source : SourceConfig) : Except String Watch := do
  let watch ← into_watch makers.readers env vault source defaults presets
  return { watch with organization_id := organization_id_from_source_id watch.id }

def to_watches (makers : Makers) (env vault : String → Option String) (config : Config) :
    Except String (List Watch) :=
  config.sources.mapM
    (watch_of makers env vault config.defaults (effective_source_presets config.presets))

/-- The tag of operational alerts in a running configuration. -/
def ops_tag (config : Config) : Option String := named config.defaults.ops_routing_tag

/-- The sinks as the engine sees them, for a view of a sink's own options. -/
def as_engine (view : NotifierConfig → Sink) (sinks : List BuiltSink) : Notifier :=
  sinks.map (fun sink => ⟨view sink.options, sink.tags⟩)

/-! ## What is built -/

/-- The first notifier is built, and then the others. -/
theorem build_sinks_cons_ok_iff {make : NotifierConfig → Except String NotifierConfig}
    {endpoint : Option String} {notifier : NotifierConfig} {rest : List NotifierConfig}
    {index : Nat} {sinks : List BuiltSink} :
    build_sinks make endpoint (notifier :: rest) index = .ok sinks ↔
      ∃ options built, make (with_endpoint endpoint notifier) = .ok options ∧
        build_sinks make endpoint rest (index + 1) = .ok built ∧
        sinks = ⟨options, notifier.routing_tags⟩ :: built := by
  rw [build_sinks]
  cases make (with_endpoint endpoint notifier) with
  | error err => simp
  | ok options =>
    cases build_sinks make endpoint rest (index + 1) with
    | error err => simp [bind, Except.bind]
    | ok built => simp [bind, Except.bind, pure, Except.pure, eq_comm]

variable {env vault : String → Option String} {presets : List (String × SourcePreset)}

theorem watch_of_ok_iff {makers : Makers} {defaults : Defaults} {source : SourceConfig}
    {watch : Watch} :
    watch_of makers env vault defaults presets source = .ok watch ↔
      ∃ built, into_watch makers.readers env vault source defaults presets = .ok built ∧
        watch = { built with organization_id := organization_id_from_source_id built.id } := by
  unfold watch_of
  cases into_watch makers.readers env vault source defaults presets with
  | error err => simp [bind, Except.bind]
  | ok built => simp [bind, Except.bind, pure, Except.pure, eq_comm]

theorem build_sinks_tags {make : NotifierConfig → Except String NotifierConfig}
    {endpoint : Option String} {notifiers : List NotifierConfig} {index : Nat}
    {sinks : List BuiltSink} (h : build_sinks make endpoint notifiers index = .ok sinks) :
    sinks.map (·.tags) = notifiers.map NotifierConfig.routing_tags := by
  induction notifiers generalizing index sinks with
  | nil =>
    obtain rfl := Except.ok.inj h
    rfl
  | cons notifier rest ih =>
    obtain ⟨options, built, -, hrest, rfl⟩ := build_sinks_cons_ok_iff.mp h
    rw [List.map_cons, List.map_cons, ih hrest]

theorem build_notifiers_tags {makers : Makers} {config : Config} {sinks : List BuiltSink}
    (h : build_notifiers makers env vault config = .ok sinks) :
    sinks.map (·.tags) = config.notifiers.map NotifierConfig.routing_tags :=
  build_sinks_tags h

/-- A routing tag of the source itself stays, whatever preset it names. -/
theorem into_watch_tag {readers : Readers} {source : SourceConfig} {defaults : Defaults}
    {watch : Watch} {tag : String}
    (h : into_watch readers env vault source defaults presets = .ok watch)
    (htag : source.common.routing_tag = some tag) : watch.routing_tag = some tag := by
  rw [into_watch_ok_iff, build_watch_ok_iff] at h
  obtain ⟨-, resolved, filter, schedule, hp, -, -, rfl⟩ := h
  rcases (with_preset_resolved_ok_iff _ _ _ _).mp hp with ⟨-, rfl⟩ | ⟨name, preset, -, -, -, rfl⟩
  · exact htag
  · simp [SourcePreset.merge_into, htag]

theorem watch_of_tag {makers : Makers} {defaults : Defaults} {source : SourceConfig} {watch : Watch}
    {tag : String} (h : watch_of makers env vault defaults presets source = .ok watch)
    (htag : source.common.routing_tag = some tag) : watch.routing_tag = some tag := by
  obtain ⟨built, hbuilt, rfl⟩ := watch_of_ok_iff.mp h
  show built.routing_tag = some tag
  exact into_watch_tag hbuilt htag

end xrelease.config
