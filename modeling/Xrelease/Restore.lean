-- Redacted secrets come back when a shown document is applied (`restore_redacted_secrets` of
-- `config_apply/redact.rs`): entries of the next document are matched to entries of the previous
-- one by what identifies them, and empty or placeholder fields take over what was there.
import Xrelease.Redact

namespace xrelease.config

open text

/-! ## Fields -/

/-- Nothing, or the marker of a hidden secret. -/
def is_placeholder (value : String) : Bool :=
  let trimmed := trim value
  trimmed == "" || trimmed == "<redacted>"

/-- No name of a variable. -/
def env_blank (value : Option String) : Bool :=
  match value with
  | none => true
  | some name => trim name == ""

/-- The new name, else the old one. -/
def restore_env_name (next prev : Option String) : Option String :=
  if !env_blank next || env_blank prev then next else prev

/-- The new secret, else the old one. -/
def restore_inline (next prev : String) : String :=
  if !is_placeholder next || is_placeholder prev then next else prev

/-- The placeholder goes where a name is left. -/
def clear_placeholder (env : Option String) (value : String) : String :=
  if !env_blank env && is_placeholder value then "" else value

/-- A secret field and its `*_env` field, from the next and the previous entry. -/
def restore_secret (next : String) (next_env : Option String) (prev : String)
    (prev_env : Option String) : String × Option String :=
  let env := restore_env_name next_env prev_env
  (clear_placeholder env (restore_inline next prev), env)

/-- The URL still carries a redaction marker, in the userinfo or as a whole. -/
def url_needs_restore (value : String) : Bool :=
  is_placeholder value || contains "<redacted>" value

/-- The new URL or variable, else the old ones. -/
def restore_url (next : String) (next_env : Option String) (prev : String)
    (prev_env : Option String) : String × Option String :=
  let url := if url_needs_restore next && !url_needs_restore prev then prev else next
  let env := restore_env_name next_env prev_env
  (if !env_blank env && url_needs_restore url then "" else url, env)

/-! ## Sources -/

def source_key : SourceConfig → Option String
  | .Github c => some ("github:" ++ c.repo)
  | .Codeberg c => some ("codeberg:" ++ c.repo)
  | .Gitea c => some ("gitea:" ++ c.host ++ ":" ++ c.repo)
  | .Gitlab c => some ("gitlab:" ++ c.project)
  | .Bitbucket c => some ("bitbucket:" ++ c.repo)
  | .Docker c => some ("docker:" ++ c.image)
  | .Image .Ghcr c => some ("ghcr:" ++ c.image)
  | .Image .Quay c => some ("quay:" ++ c.image)
  | .Image .Ecr c => some ("ecr:" ++ c.image)
  | _ => none

/-- The pairs that the `match` over both sources has an arm for. -/
def same_kind : SourceConfig → SourceConfig → Bool
  | .Github _, .Github _ => true
  | .Codeberg _, .Codeberg _ => true
  | .Gitea _, .Gitea _ => true
  | .Gitlab _, .Gitlab _ => true
  | .Bitbucket _, .Bitbucket _ => true
  | .Docker _, .Docker _ => true
  | .Image r _, .Image r' _ => r == r'
  | _, _ => false

/-- A marker is no token. -/
def clear_redacted_optional (token : Option String) : Option String :=
  if token = some "<redacted>" then none else token

def restore_source_token (next_token next_env prev_token prev_env : Option String) :
    Option String × Option String :=
  let needs := match next_token with
    | none => true
    | some value => is_placeholder value
  let token := if needs then
      match prev_token with
      | none => next_token
      | some prev => if is_placeholder prev then next_token else some prev
    else next_token
  let env := restore_env_name next_env prev_env
  (if env_blank env then token else clear_redacted_optional token, env)

/-- The first source of the previous document with the same key. -/
def prev_source (previous : List SourceConfig) (next : SourceConfig) : Option SourceConfig :=
  match source_key next with
  | none => none
  | some key => previous.find? (fun prev => source_key prev = some key)

/-- The secrets of a source that was there before. -/
def restore_source (previous : List SourceConfig) (next : SourceConfig) : SourceConfig :=
  match prev_source previous next with
  | none => next
  | some prev =>
    if same_kind next prev then
      match next.token_refs, prev.token_refs with
      | some (next_token, next_env), some (prev_token, prev_env) =>
        let (token, env) := restore_source_token next_token next_env prev_token prev_env
        next.with_token token env
      | _, _ => next
    else next

/-! ## Notifiers -/

def prev_apprise (previous : List NotifierConfig) (next : AppriseConfig) : Option AppriseConfig :=
  previous.findSome? fun prev =>
    match prev with
    | .Apprise p => if p.endpoint = next.endpoint then some p else none
    | _ => none

def prev_express (previous : List NotifierConfig) (next : ExpressCfg) : Option ExpressCfg :=
  previous.findSome? fun prev =>
    match prev with
    | .Express p => if p.group_chat_id = next.group_chat_id then some p else none
    | _ => none

def prev_novu (previous : List NotifierConfig) (next : NovuCfg) : Option NovuCfg :=
  previous.findSome? fun prev =>
    match prev with
    | .Novu p =>
      if p.workflow = next.workflow ∧ p.topic_key = next.topic_key ∧
          p.subscriber_id = next.subscriber_id then some p
      else none
    | _ => none

def prev_slack (previous : List NotifierConfig) (next : SlackCfg) : Option SlackCfg :=
  previous.findSome? fun prev =>
    match prev with
    | .Slack p =>
      if blank next.channel = false ∧ p.channel = next.channel ∨
          blank next.channel = true ∧ p.name = next.name then some p
      else none
    | _ => none

def prev_telegram (previous : List NotifierConfig) (next : TelegramCfg) : Option TelegramCfg :=
  previous.findSome? fun prev =>
    match prev with
    | .Telegram p => if p.chat_id = next.chat_id then some p else none
    | _ => none

/-- The webhooks among the notifiers. -/
def webhooks (notifiers : List NotifierConfig) : List WebhookCfg :=
  notifiers.filterMap fun notifier =>
    match notifier with
    | .Webhook n => some n
    | _ => none

/-- By name or by a URL that is no placeholder; a webhook without either is matched to the only
webhook there is. -/
def prev_webhook (previous : List NotifierConfig) (next : WebhookCfg) : Option WebhookCfg :=
  let by_key := (webhooks previous).find? fun p =>
    (next.name.isSome && p.name = next.name) ||
      (!url_needs_restore next.url && p.url = next.url)
  match by_key with
  | some p => some p
  | none =>
    if !url_needs_restore next.url || next.name.isSome then none
    else
      match webhooks previous with
      | [first] => some first
      | _ => none

def prev_smtp (previous : List NotifierConfig) (next : SmtpCfg) : Option SmtpCfg :=
  previous.findSome? fun prev =>
    match prev with
    | .Smtp p => if p.host = next.host then some p else none
    | _ => none

def prev_rabbitmq (previous : List NotifierConfig) (next : RabbitmqCfg) : Option RabbitmqCfg :=
  previous.findSome? fun prev =>
    match prev with
    | .Rabbitmq p => if p.routing_key = next.routing_key ∧ p.name = next.name then some p else none
    | _ => none

def prev_nats (previous : List NotifierConfig) (next : NatsCfg) : Option NatsCfg :=
  previous.findSome? fun prev =>
    match prev with
    | .Nats p => if p.subject = next.subject ∧ p.name = next.name then some p else none
    | _ => none

def restore_apprise (next prev : AppriseConfig) : AppriseConfig :=
  let urls_env := restore_env_name next.urls_env prev.urls_env
  let next_urls_missing := next.urls.all is_placeholder
  let urls :=
    if next_urls_missing && next.config_key.isNone && prev.urls ≠ [] &&
        prev.urls.all (fun url => !is_placeholder url) then prev.urls
    else if next_urls_missing && !env_blank urls_env then []
    else next.urls
  { next with urls, urls_env }

/-- A header whose value is a placeholder takes the previous value under its key. -/
def restore_header (headers : List (String × String)) (prev : String × String) :
    List (String × String) :=
  headers.map fun kv => if kv.1 = prev.1 ∧ is_placeholder kv.2 then prev else kv

/-- The values of headers that came hidden. -/
def restore_headers (next prev : List (String × String)) : List (String × String) :=
  if next = [] ∧ prev ≠ [] then prev else prev.foldl restore_header next

def restore_webhook (next prev : WebhookCfg) : WebhookCfg :=
  let (url, url_env) := restore_url next.url next.url_env prev.url prev.url_env
  let (secret, secret_env) := restore_secret next.secret next.secret_env prev.secret prev.secret_env
  let headers_env := restore_env_name next.headers_env prev.headers_env
  let headers := restore_headers next.headers prev.headers
  let headers :=
    if !env_blank headers_env && headers.all (fun kv => is_placeholder kv.2) then [] else headers
  { next with url, url_env, secret, secret_env, headers, headers_env }

/-- The secrets of a notifier that was there before. -/
def restore_notifier (previous : List NotifierConfig) (next : NotifierConfig) : NotifierConfig :=
  match next with
  | .Apprise n =>
    match prev_apprise previous n with
    | some p => .Apprise (restore_apprise n p)
    | none => next
  | .Express n =>
    match prev_express previous n with
    | some p =>
      let (access_token, access_token_env) :=
        restore_secret n.access_token n.access_token_env p.access_token p.access_token_env
      .Express { n with access_token, access_token_env }
    | none => next
  | .Novu n =>
    match prev_novu previous n with
    | some p =>
      let (api_key, api_key_env) := restore_secret n.api_key n.api_key_env p.api_key p.api_key_env
      .Novu { n with api_key, api_key_env }
    | none => next
  | .Slack n =>
    match prev_slack previous n with
    | some p =>
      let (webhook_url, webhook_url_env) :=
        restore_secret n.webhook_url n.webhook_url_env p.webhook_url p.webhook_url_env
      let (bot_token, bot_token_env) :=
        restore_secret n.bot_token n.bot_token_env p.bot_token p.bot_token_env
      .Slack { n with webhook_url, webhook_url_env, bot_token, bot_token_env }
    | none => next
  | .Telegram n =>
    match prev_telegram previous n with
    | some p =>
      let (bot_token, bot_token_env) :=
        restore_secret n.bot_token n.bot_token_env p.bot_token p.bot_token_env
      .Telegram { n with bot_token, bot_token_env }
    | none => next
  | .Webhook n =>
    match prev_webhook previous n with
    | some p => .Webhook (restore_webhook n p)
    | none => next
  | .Smtp n =>
    match prev_smtp previous n with
    | some p =>
      let (password, password_env) :=
        restore_secret n.password n.password_env p.password p.password_env
      .Smtp { n with password, password_env }
    | none => next
  | .Rabbitmq n =>
    match prev_rabbitmq previous n with
    | some p =>
      let (url, url_env) := restore_url n.url n.url_env p.url p.url_env
      .Rabbitmq { n with url, url_env }
    | none => next
  | .Nats n =>
    match prev_nats previous n with
    | some p =>
      let (url, url_env) := restore_url n.url n.url_env p.url p.url_env
      .Nats { n with url, url_env }
    | none => next
  | .Kafka _ => next

/-- Copy secrets and `*_env` names from `previous` where `next` has empty or placeholder fields. -/
def restore_redacted_secrets (previous next : Config) : Config :=
  { next with
    sources := next.sources.map (restore_source previous.sources)
    notifiers := next.notifiers.map (restore_notifier previous.notifiers) }

end xrelease.config
