-- What a backend says of the options it is constructed with (`notify/*.rs`): the secrets are
-- resolved by then, and an empty one is refused like any other missing option.
import Xrelease.Runtime

namespace xrelease.notify

open xrelease.config text

/-! ## The libraries -/

/-- What the libraries under the backends, and the socket addresses of the standard library, make
of a text. -/
structure Libraries where
  /-- `HeaderName::try_from(..).is_ok()`. -/
  header_name : String → Bool
  /-- `HeaderValue::try_from(..).is_ok()`. -/
  header_value : String → Bool
  /-- `str::parse::<Mailbox>().is_ok()`. -/
  mailbox : String → Bool
  /-- `AsyncSmtpTransport::starttls_relay`. -/
  starttls_relay : String → Except String Unit
  /-- `TlsParameters::new`. -/
  tls_parameters : String → Except String Unit
  /-- `ClientConfig::create` with these `bootstrap.servers`. -/
  kafka_client : String → Except String Unit
  /-- `str::parse::<SocketAddr>().is_ok()`. -/
  socket_addr : String → Bool

def misconfigured (message : String) : Except String Unit :=
  .error ("notifier misconfigured: " ++ message)

def require_non_empty (backend field value : String) : Except String Unit :=
  if blank value then misconfigured (backend ++ " `" ++ field ++ "` must not be empty") else .ok ()

/-! ## The constructors -/

def AppriseNotifier.new (n : AppriseConfig) : Except String Unit :=
  if n.config_key.isSome then .ok ()
  else if n.urls = [] then misconfigured "set either `apprise.urls` or `apprise.config_key`"
  else .ok ()

def check_header (libs : Libraries) (header : String × String) : Except String Unit :=
  if libs.header_name header.1 = false then
    misconfigured ("invalid webhook header name `" ++ header.1 ++ "`")
  else if libs.header_value header.2 = false then
    misconfigured ("invalid webhook header value for `" ++ header.1 ++ "`")
  else .ok ()

def check_headers (libs : Libraries) : List (String × String) → Except String Unit
  | [] => .ok ()
  | header :: rest => do
    check_header libs header
    check_headers libs rest

def DEFAULT_SIGNATURE_HEADER : String := "X-Signature-256"

def WebhookNotifier.with_signing (libs : Libraries) (secret : String) (header : Option String) :
    Except String Unit :=
  if blank secret then .ok ()
  else
    let header_name := (named header).getD DEFAULT_SIGNATURE_HEADER
    if libs.header_name header_name then .ok ()
    else misconfigured ("invalid webhook signature header `" ++ header_name ++ "`")

def WebhookNotifier.new (libs : Libraries) (n : WebhookCfg) : Except String Unit :=
  if blank n.url then misconfigured "webhook `url` must not be empty"
  else check_headers libs n.headers

def ExpressNotifier.new (n : ExpressCfg) : Except String Unit := do
  require_non_empty "eXpress" "base_url" n.base_url
  require_non_empty "eXpress" "group_chat_id" n.group_chat_id
  require_non_empty "eXpress" "access_token" n.access_token

def NovuNotifier.new (n : NovuCfg) : Except String Unit := do
  require_non_empty "novu" "base_url" n.base_url
  require_non_empty "novu" "api_key" n.api_key
  require_non_empty "novu" "workflow" n.workflow
  if named n.topic_key = none ∧ named n.subscriber_id = none then
    misconfigured "novu requires `topic_key` or `subscriber_id`"
  else .ok ()

def SlackNotifier.new (n : SlackCfg) : Except String Unit :=
  match !blank n.webhook_url, !blank n.bot_token with
  | true, true =>
    misconfigured "slack: set either `webhook_url` or `bot_token`+`channel`, not both"
  | true, false => .ok ()
  | false, true =>
    if blank n.channel then
      misconfigured "slack `channel` must not be empty when using `bot_token`"
    else .ok ()
  | false, false => misconfigured "slack: set `webhook_url` or `bot_token`+`channel`"

/-- The parse modes that Telegram knows. -/
def PARSE_MODES : List String := ["Markdown", "MarkdownV2", "HTML"]

def TelegramNotifier.new (n : TelegramCfg) : Except String Unit := do
  require_non_empty "telegram" "bot_token" n.bot_token
  require_non_empty "telegram" "chat_id" n.chat_id
  match named n.parse_mode with
  | none => .ok ()
  | some mode =>
    if mode ∈ PARSE_MODES then .ok ()
    else
      misconfigured ("telegram `parse_mode` must be Markdown|MarkdownV2|HTML, got `" ++ mode ++ "`")

def check_recipients (libs : Libraries) : List String → Except String Unit
  | [] => .ok ()
  | address :: rest =>
    if libs.mailbox address then check_recipients libs rest
    else misconfigured ("invalid smtp `to` address `" ++ address ++ "`")

/-- The transport of an SMTP sink. -/
def smtp_mailer (libs : Libraries) (n : SmtpCfg) : Except String Unit :=
  match n.tls with
  | .Starttls =>
    match libs.starttls_relay n.host with
    | .ok () => .ok ()
    | .error err => misconfigured ("smtp relay: " ++ err)
  | .Tls =>
    match libs.tls_parameters n.host with
    | .ok () => .ok ()
    | .error err => misconfigured ("smtp tls parameters: " ++ err)
  | .Plain => .ok ()

def SmtpNotifier.new (libs : Libraries) (n : SmtpCfg) : Except String Unit :=
  if blank n.host then misconfigured "smtp `host` must not be empty"
  else if n.to = [] then misconfigured "smtp `to` must contain at least one address"
  else if libs.mailbox n.from = false then
    misconfigured ("invalid smtp `from` address `" ++ n.from ++ "`")
  else do
    check_recipients libs n.to
    smtp_mailer libs n

def KafkaNotifier.new (libs : Libraries) (n : KafkaCfg) : Except String Unit :=
  if n.brokers = [] then misconfigured "kafka `brokers` must not be empty"
  else if blank n.topic then misconfigured "kafka `topic` must not be empty"
  else
    match libs.kafka_client (",".intercalate n.brokers) with
    | .ok () => .ok ()
    | .error err => .error ("kafka delivery failed: " ++ err)

def NatsNotifier.new (n : NatsCfg) : Except String Unit :=
  if blank n.url then misconfigured "nats `url` must not be empty"
  else if blank n.subject then misconfigured "nats `subject` must not be empty"
  else .ok ()

def RabbitMqNotifier.new (n : RabbitmqCfg) : Except String Unit :=
  if blank n.url then misconfigured "rabbitmq `url` must not be empty"
  else if blank n.routing_key then misconfigured "rabbitmq `routing_key` must not be empty"
  else .ok ()

/-- The constructor of a notifier's backend, on its resolved options. -/
def construct (libs : Libraries) : NotifierConfig → Except String Unit
  | .Apprise n => AppriseNotifier.new n
  | .Webhook n => do
    WebhookNotifier.new libs n
    WebhookNotifier.with_signing libs n.secret n.signature_header
  | .Express n => ExpressNotifier.new n
  | .Novu n => NovuNotifier.new n
  | .Slack n => SlackNotifier.new n
  | .Telegram n => TelegramNotifier.new n
  | .Smtp n => SmtpNotifier.new libs n
  | .Kafka n => KafkaNotifier.new libs n
  | .Nats n => NatsNotifier.new n
  | .Rabbitmq n => RabbitMqNotifier.new n

end xrelease.notify
