-- Secrets of a desired-state document (`config/secrets.rs`): an inline value moves into the vault
-- under an `*_env` name, the one the entry has or one generated from what identifies the entry,
-- and the document keeps the name only.
import Xrelease.Desired

namespace xrelease.config

open text

/-! ## Placeholders and names -/

/-- One secret to upsert into `app_secret`. -/
structure SecretWrite where
  name : String
  value : String
deriving DecidableEq

/-- Neither blank nor a placeholder of a redacted document, whole or in part. -/
def usable (value : String) : Bool :=
  !blank value && !(trim value == "<redacted>") && !contains "<redacted>" (trim value)

/-- What stays in the field, and the value taken out of it. -/
def take_inline (value : String) : String × Option String :=
  if usable value then ("", some value) else ("", none)

def take_optional_inline (value : Option String) : Option String × Option String :=
  match value with
  | none => (none, none)
  | some inner =>
    match take_inline inner with
    | (cleared, none) => (some cleared, none)
    | (_, some taken) => (none, some taken)

/-- The field afterwards, and the name to store under. -/
def ensure_env_name (existing : Option String) (generated : String) : Option String × String :=
  match named existing with
  | some name => (existing, name)
  | none => (some generated, generated)

def sanitized_char (c : Char) : Char := if is_ascii_alphanumeric c then to_ascii_uppercase c else '_'

/-- `push_sanitized`: what it appends. -/
def sanitized (raw : String) : List Char := raw.toList.map sanitized_char

def auto_name (organization : Option String) (parts : List String) : String :=
  let org := match named organization with
    | some org => '_' :: sanitized org
    | none => []
  String.ofList ("XRELEASE_UI".toList ++ org ++ parts.flatMap (fun part => '_' :: sanitized part))

/-- `while out.contains("__")`: every run of `_` becomes one. -/
def squeeze : List Char → List Char
  | '_' :: '_' :: rest => squeeze ('_' :: rest)
  | c :: rest => c :: squeeze rest
  | [] => []

def truncate_slug (raw : String) (max_chars : Nat) : String :=
  let out := squeeze (sanitized raw)
  String.ofList ((trim_end_matches (· == '_') (trim_start_matches (· == '_') out)).take max_chars)

/-! ## What identifies an entry -/

def notifier_label : NotifierConfig → Option String
  | .Apprise _ => none
  | .Webhook n => named n.name
  | .Express n => named n.name
  | .Novu n => named n.name
  | .Slack n => named n.name
  | .Telegram n => named n.name
  | .Smtp n => named n.name
  | .Kafka n => named n.name
  | .Nats n => named n.name
  | .Rabbitmq n => named n.name

def notifier_kind_slug : NotifierConfig → String
  | .Apprise _ => "APPRISE"
  | .Webhook _ => "WEBHOOK"
  | .Express _ => "EXPRESS"
  | .Novu _ => "NOVU"
  | .Slack _ => "SLACK"
  | .Telegram _ => "TELEGRAM"
  | .Smtp _ => "SMTP"
  | .Kafka _ => "KAFKA"
  | .Nats _ => "NATS"
  | .Rabbitmq _ => "RABBITMQ"

def notifier_stable_tip (notifier : NotifierConfig) : Option String :=
  let tip := match notifier with
    | .Apprise n => (n.config_key.or n.tag).or (some n.endpoint)
    | .Webhook n => if blank n.url then none else some n.url
    | .Express n => some n.group_chat_id
    | .Novu n => some n.workflow
    | .Slack n => if blank n.channel then none else some n.channel
    | .Telegram n => some n.chat_id
    | .Smtp n => some n.host
    | .Kafka n => some n.topic
    | .Nats n => some n.subject
    | .Rabbitmq n => some n.routing_key
  match tip with
  | none => none
  | some tip => if usable tip then some (trim tip) else none

def notifier_identity (notifier : NotifierConfig) (index : Nat) : String :=
  match notifier_label notifier with
  | some name => truncate_slug name 40
  | none =>
    let tag := match notifier.routing_tags.find? (fun tag => !blank tag) with
      | some tag => [truncate_slug (trim tag) 24]
      | none => []
    let tip := match notifier_stable_tip notifier with
      | some tip => truncate_slug tip 24
      | none => "I" ++ toString index
    "_".intercalate (tag ++ [notifier_kind_slug notifier, tip])

def source_identity (source : SourceConfig) (index : Nat) : String :=
  let tip := match source with
    | .Github c | .Codeberg c => c.repo
    | .Gitea c => c.repo
    | .Gitlab c => c.project
    | .Bitbucket c => c.repo
    | .Docker c => c.image
    | .Image _ c => c.image
    | .Feed c => c.url
    | .Package _ c => c.name
    | .Artifacthub c => c.name
  let slug := truncate_slug tip 48
  if slug = "" then "I" ++ toString index else slug

/-! ## Stored texts -/

/-- A character inside a string of `serde_json`. -/
def json_char (c : Char) : List Char :=
  if c = '"' then ['\\', '"']
  else if c = '\\' then ['\\', '\\']
  else if c = '\n' then ['\\', 'n']
  else if c = '\r' then ['\\', 'r']
  else if c = '\t' then ['\\', 't']
  else if c.toNat = 8 then ['\\', 'b']
  else if c.toNat = 12 then ['\\', 'f']
  else if c.toNat < 32 then ['\\', 'u'] ++ padLeft 4 '0' (Nat.toDigits 16 c.toNat)
  else [c]

def json_string (s : String) : List Char := '"' :: (s.toList.flatMap json_char ++ ['"'])

def json_list (parts : List (List Char)) : List Char := ([','] : List Char).intercalate parts

/-- `serde_json::to_string` of a list of strings. -/
def json_strings (values : List String) : String :=
  String.ofList ('[' :: (json_list (values.map json_string) ++ [']']))

/-- `serde_json::to_string` of a map of strings, in the order given. -/
def json_object (entries : List (String × String)) : String :=
  let fields := entries.map (fun kv => json_string kv.1 ++ ':' :: json_string kv.2)
  String.ofList ('\x7b' :: (json_list fields ++ ['\x7d']))

/-! ## The writes -/

/-- A later write to a name takes the place of the earlier one. -/
def push_write (writes : List SecretWrite) (name value : String) : List SecretWrite :=
  if blank name || blank value then writes
  else if writes.any (·.name == name) then
    writes.map (fun write => if write.name = name then { write with value } else write)
  else writes ++ [⟨name, value⟩]

/-- `if let Some(value) = take_inline(..)`: the field, its `*_env` field and the writes. -/
def move_inline (value : String) (env : Option String) (generated : String)
    (writes : List SecretWrite) : String × Option String × List SecretWrite :=
  match take_inline value with
  | (cleared, none) => (cleared, env, writes)
  | (cleared, some taken) =>
    let (env, name) := ensure_env_name env generated
    (cleared, env, push_write writes name taken)

def normalize_source_token (source : SourceConfig) (index : Nat) (organization : Option String)
    (writes : List SecretWrite) : SourceConfig × List SecretWrite :=
  let identity := source_identity source index
  match source.token_refs with
  | none => (source, writes)
  | some (token, token_env) =>
    match take_optional_inline token with
    | (token, none) => (source.with_token token token_env, writes)
    | (token, some value) =>
      let (token_env, name) :=
        ensure_env_name token_env (auto_name organization ["SRC", identity, "TOKEN"])
      (source.with_token token token_env, push_write writes name value)

/-- The order in which a map hands out its entries. -/
abbrev Order := List (String × String) → List (String × String)

def normalize_notifier (order : Order) (notifier : NotifierConfig) (index : Nat)
    (organization : Option String) (writes : List SecretWrite) :
    NotifierConfig × List SecretWrite :=
  let identity := notifier_identity notifier index
  let generated := fun suffix => auto_name organization ["N", identity, suffix]
  match notifier with
  | .Apprise n =>
    let live := n.urls.filter usable
    if live = [] then (.Apprise { n with urls := [] }, writes)
    else
      let (urls_env, name) := ensure_env_name n.urls_env (generated "APPRISE_URLS")
      (.Apprise { n with urls := [], urls_env }, push_write writes name (json_strings live))
  | .Webhook n =>
    let (url, url_env, writes) := move_inline n.url n.url_env (generated "WEBHOOK_URL") writes
    let (secret, secret_env, writes) :=
      move_inline n.secret n.secret_env (generated "WEBHOOK_SECRET") writes
    let live := n.headers.filter (fun kv => usable kv.2)
    if live = [] then
      (.Webhook { n with url, url_env, secret, secret_env, headers := [] }, writes)
    else
      let (headers_env, name) := ensure_env_name n.headers_env (generated "WEBHOOK_HEADERS")
      (.Webhook { n with url, url_env, secret, secret_env, headers := [], headers_env },
        push_write writes name (json_object (order live)))
  | .Express n =>
    let (access_token, access_token_env, writes) :=
      move_inline n.access_token n.access_token_env (generated "EXPRESS_TOKEN") writes
    (.Express { n with access_token, access_token_env }, writes)
  | .Novu n =>
    let (api_key, api_key_env, writes) :=
      move_inline n.api_key n.api_key_env (generated "NOVU_KEY") writes
    (.Novu { n with api_key, api_key_env }, writes)
  | .Slack n =>
    let (webhook_url, webhook_url_env, writes) :=
      move_inline n.webhook_url n.webhook_url_env (generated "SLACK_WEBHOOK") writes
    let (bot_token, bot_token_env, writes) :=
      move_inline n.bot_token n.bot_token_env (generated "SLACK_BOT") writes
    (.Slack { n with webhook_url, webhook_url_env, bot_token, bot_token_env }, writes)
  | .Telegram n =>
    let (bot_token, bot_token_env, writes) :=
      move_inline n.bot_token n.bot_token_env (generated "TELEGRAM_BOT") writes
    (.Telegram { n with bot_token, bot_token_env }, writes)
  | .Smtp n =>
    let (password, password_env, writes) :=
      move_inline n.password n.password_env (generated "SMTP_PASSWORD") writes
    (.Smtp { n with password, password_env }, writes)
  | .Rabbitmq n =>
    let (url, url_env, writes) := move_inline n.url n.url_env (generated "RABBITMQ_URL") writes
    (.Rabbitmq { n with url, url_env }, writes)
  | .Nats n =>
    let (url, url_env, writes) := move_inline n.url n.url_env (generated "NATS_URL") writes
    (.Nats { n with url, url_env }, writes)
  | .Kafka n => (.Kafka n, writes)

/-- A loop over the entries of a list that rewrites them one by one. -/
def rewrite_each {α : Type} (step : α → Nat → List SecretWrite → α × List SecretWrite) :
    List α → Nat → List SecretWrite → List α × List SecretWrite
  | [], _, writes => ([], writes)
  | a :: rest, index, writes =>
    let (a, writes) := step a index writes
    let (rest, writes) := rewrite_each step rest (index + 1) writes
    (a :: rest, writes)

/-- Move inline secrets into vault references. -/
def normalize_secrets_to_refs (order : Order) (config : Config) (organization : Option String) :
    Config × List SecretWrite :=
  let (sources, writes) := rewrite_each
    (fun source index => normalize_source_token source index organization) config.sources 0 []
  let (notifiers, writes) := rewrite_each
    (fun notifier index => normalize_notifier order notifier index organization)
    config.notifiers 0 writes
  ({ config with sources, notifiers }, writes)

/-! ## References -/

def source_env_refs (source : SourceConfig) : List String :=
  match source.token_refs with
  | some (_, token_env) => (named token_env).toList
  | none => []

def notifier_env_refs : NotifierConfig → List String
  | .Apprise n => (named n.urls_env).toList
  | .Webhook n => (named n.url_env).toList ++ (named n.secret_env).toList ++
      (named n.headers_env).toList
  | .Express n => (named n.access_token_env).toList
  | .Novu n => (named n.api_key_env).toList
  | .Slack n => (named n.webhook_url_env).toList ++ (named n.bot_token_env).toList
  | .Telegram n => (named n.bot_token_env).toList
  | .Smtp n => (named n.password_env).toList
  | .Nats n => (named n.url_env).toList
  | .Rabbitmq n => (named n.url_env).toList
  | .Kafka _ => []

/-- Every non-empty `*_env` name of a document. -/
def collect_secret_env_refs (config : Config) : List String :=
  config.sources.flatMap source_env_refs ++ config.notifiers.flatMap notifier_env_refs

def starts_with (start s : String) : Bool := start.toList.isPrefixOf s.toList

/-- The name was generated by a normalization for this scope. -/
def is_ui_managed_secret_name (name : String) (organization : Option String) : Bool :=
  let name := trim name
  if !starts_with "XRELEASE_UI_" name then false
  else
    match named organization with
    | some org =>
      starts_with (String.ofList ("XRELEASE_UI_".toList ++ sanitized org ++ ['_'])) name
    | none => starts_with "XRELEASE_UI_SRC_" name || starts_with "XRELEASE_UI_N_" name

/-- UI-managed names that the previous document has and the next one has not. -/
def stale_ui_managed_secrets (previous next : List String) (organization : Option String) :
    List String :=
  let stale := previous.dedup.filter
    (fun name => !next.contains name && is_ui_managed_secret_name name organization)
  stale.mergeSort (fun a b => compare_str a b != .gt)

end xrelease.config
