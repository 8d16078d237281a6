-- The inbound webhooks (`api/webhook.rs`, `api/webhook_id.rs`, `api/auth.rs`): who may push, the
-- claim of a delivery's id, and the watches that a pushed release is handed to. Bodies are read
-- by the parsers of the JSON library.
import Xrelease.Lookup
import Xrelease.Providers
import Xrelease.Pruned
import Xrelease.Routes

namespace xrelease.webhook

open text keyed calls xrelease.model xrelease.engine xrelease.webhook_payload
open xrelease.watch_lookup xrelease.pruned
open xrelease.pipeline (Watch)
open xrelease.api (HeaderText)

/-! ## Requests and answers -/

/-- The first value of each header, by its name in lower case. -/
abbrev Headers := String → HeaderText

/-- A header by its name in any case. -/
def value_of (headers : Headers) (name : String) : HeaderText := headers (lower name)

def to_str : HeaderText → Option String
  | .Text value => some value
  | _ => none

/-- The headers and the body. -/
structure Request (Body : Type) where
  headers : Headers
  body : Body

/-- The webhook routes. -/
inductive Route where
  | Github | Gitea | Gitlab | Bitbucket | Docker | Generic
deriving DecidableEq

def Route.kind : Route → String
  | .Github => "github"
  | .Gitea => "gitea"
  | .Gitlab => "gitlab"
  | .Bitbucket => "bitbucket"
  | .Docker => "docker"
  | .Generic => "generic"

/-- `ApiError`, of these routes; an error of the pipeline as it is. -/
inductive ApiError where
  | Unauthorized (message : String)
  | BadRequest (message : String)
  | NotFound (message : String)
  | Pipeline (err : PipelineError)
deriving DecidableEq

/-- The answer to a webhook. -/
structure WebhookResponse where
  accepted : Bool
  source_id : Option String
  tag : Option String
  notifications_sent : Nat
  message : String
deriving DecidableEq

/-- Nothing was delivered. -/
def WebhookResponse.ignored (message : String) : WebhookResponse :=
  ⟨false, none, none, 0, message⟩

/-- The release was handed on. -/
def WebhookResponse.delivered (source_id tag : String) (notifications_sent : Nat) :
    WebhookResponse :=
  ⟨true, some source_id, some tag, notifications_sent, "notification delivered"⟩

/-- The delivery was seen before. -/
def WebhookResponse.duplicate (delivery_id : String) : WebhookResponse :=
  ⟨true, none, none, 0, "duplicate delivery `" ++ delivery_id ++ "` ignored"⟩

/-- Generic push webhook for custom integrations. -/
structure GenericWebhook where
  source_id : String
  tag : String
  url : Option String
  body : Option String
  prerelease : Bool
deriving DecidableEq

/-- The libraries that read bodies and dates and sign bodies. -/
structure Parsers (Body : Type) where
  gitea_compatible : Body → Except String GiteaCompatibleWebhook
  gitlab : Body → Except String GitlabWebhook
  bitbucket : Body → Except String BitbucketPushWebhook
  docker : Body → Except String DockerPushWebhook
  generic : Body → Except String GenericWebhook
  rfc3339 : String → Option DateTime
  /-- The HMAC-SHA256 of a body under a secret, in hexadecimal digits. -/
  hmac_hex : String → Body → String

/-- What the process holds: its secret, and the index of the watches in force. -/
structure Server where
  webhook_secret : Option String
  index : WatchIndex

section
variable {Body : Type} (parsers : Parsers Body)

/-! ## Authorization -/

/-- Without a secret every push is let in. -/
def secured (secret : Option String) (check : String → Except ApiError Unit) :
    Except ApiError Unit :=
  match secret.filter (· ≠ "") with
  | none => .ok ()
  | some secret => check secret

def verify_hmac_header (request : Request Body) (secret : Option String) (header_name : String)
    (prefixed : Bool) : Except ApiError Unit :=
  secured secret fun secret =>
    match value_of request.headers header_name with
    | .Absent => .error (.Unauthorized ("missing " ++ header_name))
    | .Unreadable => .error (.Unauthorized "invalid signature header")
    | .Text header =>
      match if prefixed then strip_prefix_of "sha256=" header else some header with
      | none => .error (.Unauthorized "invalid signature format")
      | some digest_hex =>
        if digest_hex = parsers.hmac_hex secret request.body then .ok ()
        else .error (.Unauthorized "signature mismatch")

def verify_github_signature (request : Request Body) (secret : Option String) :
    Except ApiError Unit :=
  verify_hmac_header parsers request secret "X-Hub-Signature-256" true

def verify_bitbucket_signature (request : Request Body) (secret : Option String) :
    Except ApiError Unit :=
  if value_of request.headers "X-Hub-Signature" ≠ .Absent then
    verify_hmac_header parsers request secret "X-Hub-Signature" false
  else if value_of request.headers "X-Hub-Signature-256" ≠ .Absent then
    verify_hmac_header parsers request secret "X-Hub-Signature-256" true
  else verify_hmac_header parsers request secret "X-Hub-Signature" false

def verify_gitlab_token (headers : Headers) (secret : Option String) : Except ApiError Unit :=
  secured secret fun secret =>
    if (to_str (value_of headers "X-Gitlab-Token")).getD "" = secret then .ok ()
    else .error (.Unauthorized "invalid X-Gitlab-Token")

/-- The token of an `Authorization` header. -/
def bearer_token (headers : Headers) : Option String :=
  (to_str (value_of headers "authorization")).bind (strip_prefix_of "Bearer ")

def verify_webhook_secret (headers : Headers) (secret : Option String) : Except ApiError Unit :=
  secured secret fun secret =>
    let header_secret := to_str (value_of headers "X-Webhook-Secret")
    if (header_secret.or (bearer_token headers)).getD "" = secret then .ok ()
    else .error (.Unauthorized "invalid webhook secret")

/-- The check of each route. -/
def authorize (route : Route) (server : Server) (request : Request Body) :
    Except ApiError Unit :=
  match route with
  | .Github => verify_github_signature parsers request server.webhook_secret
  | .Gitea => verify_webhook_secret request.headers server.webhook_secret
  | .Gitlab => verify_gitlab_token request.headers server.webhook_secret
  | .Bitbucket => verify_bitbucket_signature parsers request server.webhook_secret
  | .Docker => verify_webhook_secret request.headers server.webhook_secret
  | .Generic => verify_webhook_secret request.headers server.webhook_secret

/-! ## Payloads -/

/-- A payload with a release, or one to ignore. -/
inductive MappedPayload where
  | Deliver (key : String) (release : Release)
  | Respond (response : WebhookResponse)
deriving DecidableEq

/-- What a payload comes to: an answer at once, or a release for the watches that it reaches. -/
inductive Ingested where
  | Respond (response : WebhookResponse)
  | Process (watches : List Watch) (release : Release)

def map_payload : Except WebhookPayloadError (String × Release) → Except ApiError MappedPayload
  | .ok (key, release) => .ok (.Deliver key release)
  | .error (.Ignored message) => .ok (.Respond (.ignored message))
  | .error (.BadRequest message) => .error (.BadRequest message)

/-- A body that cannot be read is a bad request. -/
def parse_json {α : Type} (parsed : Except String α) : Except ApiError α :=
  match parsed with
  | .ok payload => .ok payload
  | .error err => .error (.BadRequest err)

/-- Map a payload, and look up the watches of what it is about. -/
def ingest_mapped_release (index : WatchIndex)
    (mapped : Except WebhookPayloadError (String × Release))
    (find_watches : WatchIndex → String → List Watch) (not_found : String → String) :
    Except ApiError Ingested :=
  match map_payload mapped with
  | .error err => .error err
  | .ok (.Respond response) => .ok (.Respond response)
  | .ok (.Deliver key release) =>
    let watches := find_watches index key
    if watches.isEmpty then .error (.NotFound (not_found key))
    else .ok (.Process watches release)

/-- A release event of GitHub or Gitea. -/
def handle_gitea_compatible (index : WatchIndex) (request : Request Body) (kinds : List String) :
    Except ApiError Ingested := do
  let payload ← parse_json (parsers.gitea_compatible request.body)
  ingest_mapped_release index (payload.into_release parsers.rfc3339)
    (fun index repo => index.find_repos_any kinds repo)
    (fun repo =>
      "no configured source for " ++ repo ++ " (kinds: " ++ ", ".intercalate kinds ++ ")")

def github (index : WatchIndex) (request : Request Body) : Except ApiError Ingested :=
  handle_gitea_compatible parsers index request ["github"]

/-- Gitea and Forgejo, and Codeberg with them. -/
def gitea (index : WatchIndex) (request : Request Body) : Except ApiError Ingested :=
  handle_gitea_compatible parsers index request ["gitea", "codeberg"]

def gitlab (index : WatchIndex) (request : Request Body) : Except ApiError Ingested := do
  let payload ← parse_json (parsers.gitlab request.body)
  ingest_mapped_release index (payload.into_release parsers.rfc3339)
    (fun index repo => index.find_repos "gitlab" repo)
    (fun repo => "no configured gitlab source for " ++ repo)

/-- The key of an event that is no push. -/
def other_event (headers : Headers) : Option String :=
  (to_str (value_of headers "X-Event-Key")).filter (· ≠ "repo:push")

def bitbucket (index : WatchIndex) (request : Request Body) : Except ApiError Ingested :=
  match other_event request.headers with
  | some event_key => .ok (.Respond (.ignored ("ignored X-Event-Key " ++ event_key)))
  | none => do
    let payload ← parse_json (parsers.bitbucket request.body)
    ingest_mapped_release index payload.into_release
      (fun index repo => index.find_repos "bitbucket" repo)
      (fun repo => "no configured bitbucket source for " ++ repo)

def docker (index : WatchIndex) (request : Request Body) : Except ApiError Ingested := do
  let payload ← parse_json (parsers.docker request.body)
  ingest_mapped_release index payload.into_release
    (fun index image => index.find_images_any CONTAINER_KINDS image)
    (fun image =>
      "no configured container source for image " ++ image ++ " (kinds: docker, ghcr, quay, ecr)")

/-- The release of a generic payload. -/
def GenericWebhook.release (payload : GenericWebhook) : Release :=
  let release := (Release.new payload.tag).with_prerelease payload.prerelease
  (release.with_url payload.url).with_body (payload.body.filter not_blank)

def generic (index : WatchIndex) (request : Request Body) : Except ApiError Ingested := do
  let payload ← parse_json (parsers.generic request.body)
  match index.find_by_id payload.source_id with
  | none => .error (.NotFound ("unknown source_id " ++ payload.source_id))
  | some watch => .ok (.Process [watch] payload.release)

/-- What a request comes to once it is let in and its id is claimed. -/
def ingest (route : Route) (index : WatchIndex) (request : Request Body) :
    Except ApiError Ingested :=
  match route with
  | .Github => github parsers index request
  | .Gitea => gitea parsers index request
  | .Gitlab => gitlab parsers index request
  | .Bitbucket => bitbucket parsers index request
  | .Docker => docker parsers index request
  | .Generic => generic parsers index request

end

/-! ## Handling -/

/-- The engine, and the ids of deliveries with the moment each was claimed. -/
structure State where
  world : World
  webhook_delivery : Table String DateTime

/-- What the world answers to a delivery: to its claim, and to the calls of the fan-out. -/
structure Answers where
  worker : Nat
  claim : Oracle
  calls : Nat → Oracle

/-- A header that is not blank. -/
def header (headers : Headers) (name : String) : Option String :=
  ((to_str (headers name)).map trim).filter (· ≠ "")

/-- The header that tells one delivery of a route from another. -/
def id_header (headers : Headers) : Route → Option String
  | .Github => header headers "x-github-delivery"
  | .Gitlab => (header headers "x-gitlab-event-uuid").or (header headers "x-gitlab-webhook-uuid")
  | .Gitea => (header headers "x-gitea-delivery").or (header headers "x-gitea-event-id")
  | .Generic => (header headers "idempotency-key").or (header headers "x-idempotency-key")
  | .Bitbucket => header headers "x-request-uuid"
  | .Docker => (header headers "idempotency-key").or (header headers "x-idempotency-key")

/-- Read a forge-specific delivery or idempotency header. -/
def delivery_id (headers : Headers) (route : Route) : Option String :=
  (id_header headers route).map (fun id => route.kind ++ ":" ++ id)

/-- Claim a delivery's id; whether nobody had. -/
def claim_webhook_delivery (o : Oracle) (s : State) (delivery_id : String) :
    Except PipelineError Bool × State :=
  let s := { s with world := s.world.tick o }
  match o.fails with
  | some err => (.error (.store err), s)
  | none =>
    match s.webhook_delivery.get delivery_id with
    | some _ => (.ok false, s)
    | none =>
      (.ok true, { s with webhook_delivery := s.webhook_delivery.add delivery_id s.world.now })

/-- The answer to a delivery whose id is taken. -/
def ensure_idempotent (o : Oracle) (headers : Headers) (route : Route) (s : State) :
    Except ApiError (Option WebhookResponse) × State :=
  match delivery_id headers route with
  | none => (.ok none, s)
  | some id =>
    match claim_webhook_delivery o s id with
    | (.ok true, s) => (.ok none, s)
    | (.ok false, s) => (.ok (some (.duplicate id)), s)
    | (.error err, s) => (.error (.Pipeline err), s)

/-- The answer after the push to each watch. -/
def pushed_response (watches : List Watch) (tag : String) (sent : Nat) : WebhookResponse :=
  let first_source_id := (watches.head?.map (fun watch => watch.provider.id)).getD ""
  if sent = 0 then
    ⟨true, some first_source_id, some tag, 0,
      "accepted but no notification sent (filtered, duplicate, or baseline)"⟩
  else
    let response := WebhookResponse.delivered first_source_id tag sent
    if 1 < watches.length then
      { response with
        message :=
          "notification delivered (" ++ toString watches.length ++ " matched sources)" }
    else response

/-- Deliver one pushed release to every matched watch. -/
def process_pushed_release (answers : Answers) (watches : List Watch) (release : Release)
    (s : State) : Except ApiError WebhookResponse × State :=
  let run := alone machine answers.worker (pipeline.process_pushed_release release watches 0)
    answers.calls s.world
  let s := { s with world := run.2.1 }
  match run.1 with
  | .error err => (.error (.Pipeline err), s)
  | .ok sent => (.ok (pushed_response watches release.raw_tag sent), s)

/-- The answer to a delivery, by what its payload comes to. -/
def respond (answers : Answers) (s : State) :
    Except ApiError Ingested → Except ApiError WebhookResponse × State
  | .error err => (.error err, s)
  | .ok (.Respond response) => (.ok response, s)
  | .ok (.Process watches release) => process_pushed_release answers watches release s

section
variable {Body : Type} (parsers : Parsers Body)

/-- One webhook: authorization, the claim of its id, then its payload. -/
def handle (route : Route) (server : Server) (request : Request Body) (answers : Answers)
    (s : State) : Except ApiError WebhookResponse × State :=
  match authorize parsers route server request with
  | .error err => (.error err, s)
  | .ok () =>
    match ensure_idempotent answers.claim request.headers route s with
    | (.error err, s) => (.error err, s)
    | (.ok (some response), s) => (.ok response, s)
    | (.ok none, s) => respond answers s (ingest parsers route server.index request)

end

end xrelease.webhook
