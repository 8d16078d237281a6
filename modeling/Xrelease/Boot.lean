-- How the runtime configuration comes about (`config/resolve.rs`, `apply_env_overrides`): the
-- bootstrap file, the environment over it, and the desired state of the ledger, of the app file
-- or of every organization.
import Xrelease.Organizations

namespace xrelease.config

open text keyed.Table keyed.Sorted

/-! ## The environment -/

/-- `std::env::var(..).ok()`. -/
abbrev Env := String → Option String

/-- `str::parse` of an unsigned number of the width. -/
def parse_unsigned (bits : Nat) (value : String) : Option Nat :=
  let digits := match value.toList with
    | '+' :: rest => rest
    | digits => digits
  if digits ≠ [] ∧ digits.all is_ascii_digit ∧ digits_value digits < 2 ^ bits then
    some (digits_value digits)
  else none

def DatabaseSslMode.parse_libpq (raw : String) : Option DatabaseSslMode :=
  match lower (trim raw) with
  | "disable" => some .Disable
  | "allow" => some .Prefer
  | "prefer" => some .Prefer
  | "require" => some .Require
  | "verify-ca" => some .VerifyCa
  | "verify-full" => some .VerifyFull
  | _ => none

def split_csv (value : String) : List String :=
  ((split (· == ',') value.toList).map (fun part => trim (String.ofList part))).filter (· ≠ "")

/-- `matches!(value.trim(), "1" | "true" | "yes" | "on")`. -/
def is_on (value : String) : Bool := ["1", "true", "yes", "on"].contains (trim value)

def override_database (env : Env) (database : DatabaseConfig) : DatabaseConfig :=
  { database with
    postgres_url := (env "XRELEASE_DATABASE_URL").getD database.postgres_url
    ssl_mode :=
      ((env "XRELEASE_DATABASE_SSL_MODE").bind DatabaseSslMode.parse_libpq).or database.ssl_mode
    ssl_root_cert := (env "XRELEASE_DATABASE_SSL_ROOT_CERT").or database.ssl_root_cert }

def override_log (env : Env) (log : LogConfig) : LogConfig :=
  { log with level := (named (env "XRELEASE_LOG")).getD log.level }

def override_oidc (env : Env) (oidc : OidcConfig) : OidcConfig :=
  { oidc with
    issuer := (env "XRELEASE_OIDC_ISSUER").or oidc.issuer
    discovery_url := (env "XRELEASE_OIDC_DISCOVERY_URL").or oidc.discovery_url
    jwks_uri := (env "XRELEASE_OIDC_JWKS_URI").or oidc.jwks_uri
    audience := ((env "XRELEASE_OIDC_AUDIENCE").map split_csv).getD oidc.audience
    required_scope := (env "XRELEASE_OIDC_REQUIRED_SCOPE").or oidc.required_scope
    role_claim := (env "XRELEASE_OIDC_ROLE_CLAIM").getD oidc.role_claim
    role_admin := ((env "XRELEASE_OIDC_ROLE_ADMIN").map split_csv).getD oidc.role_admin
    role_operator := ((env "XRELEASE_OIDC_ROLE_OPERATOR").map split_csv).getD oidc.role_operator
    role_viewer := ((env "XRELEASE_OIDC_ROLE_VIEWER").map split_csv).getD oidc.role_viewer
    auto_create_users :=
      ((env "XRELEASE_OIDC_AUTO_CREATE_USERS").map is_on).getD oidc.auto_create_users
    default_role := (env "XRELEASE_OIDC_DEFAULT_ROLE").getD oidc.default_role }

def override_local_auth (env : Env) (local_auth : LocalAuthConfig) : LocalAuthConfig :=
  { local_auth with
    enabled := ((env "XRELEASE_LOCAL_AUTH").map is_on).getD local_auth.enabled
    admin_username := (env "XRELEASE_ADMIN_USER").getD local_auth.admin_username
    admin_password := (env "XRELEASE_ADMIN_PASSWORD").or local_auth.admin_password
    session_secret := (env "XRELEASE_SESSION_SECRET").or local_auth.session_secret
    session_ttl_secs := ((env "XRELEASE_SESSION_TTL_SECS").bind (parse_unsigned 64)).getD
      local_auth.session_ttl_secs }

def override_api (env : Env) (api : ApiConfig) : ApiConfig :=
  { api with
    listen := (env "XRELEASE_API_LISTEN").getD api.listen
    webhook_secret := (env "XRELEASE_WEBHOOK_SECRET").or api.webhook_secret
    api_key := (env "XRELEASE_API_KEY").or api.api_key
    rate_limit_per_minute := ((env "XRELEASE_API_RATE_LIMIT").bind (parse_unsigned 32)).getD
      api.rate_limit_per_minute
    oidc := override_oidc env api.oidc
    local_auth := override_local_auth env api.local_auth }

def override_config_api (env : Env) (config_api : ConfigApiConfig) : ConfigApiConfig :=
  { config_api with
    api_config := ((env "XRELEASE_CONFIG_API_ENABLED").map is_on).getD config_api.api_config
    apply_scope := (env "XRELEASE_CONFIG_API_APPLY_SCOPE").or config_api.apply_scope }

def override_defaults (env : Env) (defaults : Defaults) : Defaults :=
  { defaults with
    upstream_requests_per_minute := ((env "XRELEASE_UPSTREAM_RPM").bind (parse_unsigned 32)).getD
      defaults.upstream_requests_per_minute }

/-- Overlay secrets and overrides from the environment. -/
def apply_env_overrides (env : Env) (config : Config) : Config :=
  { config with
    database := override_database env config.database
    log := override_log env config.log
    api := override_api env config.api
    config_api := override_config_api env config.config_api
    defaults := override_defaults env config.defaults }

/-! ## Layers -/

def contains_infra_sections (config : Config) : Bool :=
  config.database ≠ {} || config.api ≠ {} || config.log ≠ {} || config.config_api ≠ {} ||
    config.advisories ≠ {}

/-- Reject infrastructure sections in a desired-state document. -/
def ensure_desired_only (config : Config) : Except String Unit :=
  if contains_infra_sections config then
    .error ("desired-state document must not contain infrastructure sections ([database], " ++
      "[api], [log], [config_api], [advisories]); configure those in bootstrap.toml only")
  else if config.organizations ≠ [] then
    .error ("desired-state document must not contain [[organizations]]; declare the " ++
      "organization catalogue in bootstrap.toml only")
  else if config.apprise ≠ {} then
    .error ("top-level `[apprise]` / `apprise:` is removed; move delivery settings to " ++
      "`[[notifiers]]` / `notifiers:` with `type: apprise` (Compose/Helm may still set " ++
      "XRELEASE_APPRISE_ENDPOINT on those sinks)")
  else .ok ()

def strip_desired_sections (config : Config) : Config :=
  { config with
    defaults := {}, apprise := {}, notifiers := [], teams := [], presets := [], sources := [] }

/-- Overlay bootstrap-only sections onto the desired state. -/
def merge_bootstrap_over_desired (bootstrap desired : Config) : Config :=
  { desired with
    database := bootstrap.database
    log := bootstrap.log
    api := bootstrap.api
    config_api := bootstrap.config_api
    advisories := bootstrap.advisories
    organizations := bootstrap.organizations }

/-- The bootstrap of a parsed file, or of none. -/
def load_bootstrap (env : Env) (file : Config) : Except String Config :=
  if contains_app_sections file then
    .error "bootstrap must contain only infrastructure sections"
  else .ok (strip_desired_sections (apply_env_overrides env file))

/-- Merge a pushed document with the live bootstrap, the environment over both. -/
def merge_pushed_document (codec : Codec) (env : Env) (bootstrap : Config) (raw : String)
    (hint : Option DesiredFormat) : Except String Config := do
  let desired ← parse_desired_document_with_hint codec raw hint
  ensure_desired_only desired
  return apply_env_overrides env (merge_bootstrap_over_desired bootstrap desired)

/-! ## The ledger and the files -/

inductive ConfigRevisionStatus where
  | Applied
  | Rejected
deriving DecidableEq

/-- A row of `config_revision`; rows are appended, and read newest first. -/
structure ConfigRevision where
  id : Nat
  content : String
  content_sha256 : String
  status : ConfigRevisionStatus
  error : Option String := none
  organization_id : Option String := none
  revision_label : Option String := none
  applied_by : Option String := none
  source_addr : Option String := none
  /-- In RFC 3339. -/
  applied_at : String := ""
deriving DecidableEq

/-- The applied revisions of one stream, newest first. -/
def applied_revisions (ledger : List ConfigRevision) (stream : Option String) :
    List ConfigRevision :=
  (ledger.filter (fun row => row.status = .Applied ∧ row.organization_id = stream)).reverse

def latest_applied_config_revision (ledger : List ConfigRevision) (stream : Option String) :
    Option ConfigRevision := (applied_revisions ledger stream)[0]?

def previous_applied_config_revision (ledger : List ConfigRevision) (stream : Option String) :
    Option ConfigRevision := (applied_revisions ledger stream)[1]?

/-- The texts of the app files: the one of the process, with what its name says of its format,
and those of the catalogue by path. -/
structure Files where
  app : Option (Option String × Option DesiredFormat) := none
  text : String → Option String := fun _ => none

inductive DesiredSource where
  | Ledger
  | AppFile
  | Empty
deriving DecidableEq

/-- One organization's desired-state document, from its authority. -/
def organization_desired_raw (files : Files) (ledger : List ConfigRevision) (bootstrap : Config)
    (org : OrganizationConfig) : Except String (String × DesiredSource) :=
  let recorded :=
    if bootstrap.config_api.ledger_is_bootable then
      latest_applied_config_revision ledger (some org.id)
    else none
  match recorded with
  | some revision => .ok (revision.content, .Ledger)
  | none =>
    match named org.app with
    | some path =>
      match files.text path with
      | some text => .ok (text, .AppFile)
      | none => .error ("organization `" ++ org.id ++ "` app file " ++ path ++ " does not exist")
    | none =>
      if bootstrap.config_api.ledger_is_bootable then .ok (EMPTY_ORGANIZATION_DOCUMENT, .Empty)
      else
        .error ("organization `" ++ org.id ++ "` has no `app` path; set `app = \"…\"` when " ++
          "[config_api].source = \"local\", or use source = \"api\" and author via UI / " ++
          "apply into the ledger")

/-! ## Composing -/

/-- What the loop over the catalogue has so far. -/
structure Composing where
  seen_ids : List String := []
  merged : Config := {}
  sources : List (String × DesiredSource) := []
  /-- What is fed into the identity hash. -/
  identity : List (String × String) := []
  override_used : Bool
  strictest_rpm : Option Nat := none

/-- The outcome: the runtime configuration, the identity of its inputs, where each came from. -/
structure ComposedOrganizations where
  merged : Config
  identity_sha256 : String
  sources : List (String × DesiredSource)

/-- What the process runs on. -/
structure Setup where
  codec : Codec
  env : Env
  files : Files
  sha256 : String → String

/-- The document of one organization, as it joins the composition. -/
def load_organization (setup : Setup) (id raw : String) (desired_source : DesiredSource) :
    Except String Config := do
  let desired ← parse_desired_document setup.codec raw
  ensure_desired_only desired
  let desired := apply_env_overrides setup.env desired
  if desired_source ≠ .Empty ∧ has_desired_state desired = false then
    .error ("organization `" ++ id ++ "` desired document defines no desired-state sections")
  else .ok desired

/-- The namespaced document joins what was merged before it. -/
def join_organization (st : Composing) (id raw : String) (desired_source : DesiredSource)
    (desired : Config) : Composing :=
  let stated := has_desired_state desired
  let rpm := desired.defaults.upstream_requests_per_minute
  { st with
    seen_ids := id :: st.seen_ids
    identity := st.identity ++ [(id, raw)]
    merged := { st.merged with
      defaults := if st.sources = [] ∧ stated then desired.defaults else st.merged.defaults
      teams := st.merged.teams ++ desired.teams
      notifiers := st.merged.notifiers ++ desired.notifiers
      sources := st.merged.sources ++ desired.sources
      presets := putAll compare_str desired.presets st.merged.presets }
    strictest_rpm :=
      if stated ∧ 0 < rpm then
        some (match st.strictest_rpm with
          | none => rpm
          | some current => min current rpm)
      else st.strictest_rpm
    sources := st.sources ++ [(id, desired_source)] }

/-- The document given for the organization, else the one of its authority. -/
def chosen_document (setup : Setup) (ledger : List ConfigRevision) (bootstrap : Config)
    (override_document : Option (String × String)) (org : OrganizationConfig) :
    Except String (String × DesiredSource) :=
  match override_document with
  | some (id, document) =>
    if id = org.id then .ok (document, .Ledger)
    else organization_desired_raw setup.files ledger bootstrap org
  | none => organization_desired_raw setup.files ledger bootstrap org

def compose_one (setup : Setup) (ledger : List ConfigRevision) (bootstrap : Config)
    (override_document : Option (String × String)) (st : Composing) (org : OrganizationConfig) :
    Except String Composing := do
  if org.id = "" then .error "[[organizations]] entry has an empty id"
  else if org.id ∈ st.seen_ids then
    .error ("duplicate [[organizations]] id `" ++ org.id ++ "`")
  else
    let (raw, desired_source) ← chosen_document setup ledger bootstrap override_document org
    let desired ← load_organization setup org.id raw desired_source
    let replaced := override_document.any (fun document => document.1 = org.id)
    return join_organization { st with override_used := st.override_used || replaced } org.id raw
      desired_source (namespace_organization_desired org.id desired)

/-- `update(id) update(0) update(raw) update(0)`, document by document. -/
def identity_bytes (identity : List (String × String)) : String :=
  String.join (identity.map (fun doc => doc.1 ++ "\x00" ++ doc.2 ++ "\x00"))

/-- The limiter is process-wide: the strictest cap that any organization asks for. -/
def with_strictest (config : Config) (strictest_rpm : Option Nat) : Config :=
  { config with
    defaults := { config.defaults with
      upstream_requests_per_minute :=
        strictest_rpm.getD config.defaults.upstream_requests_per_minute } }

/-- Load every document of the catalogue and merge them into one runtime configuration. -/
def compose_organizations (setup : Setup) (ledger : List ConfigRevision) (bootstrap : Config)
    (override_document : Option (String × String)) : Except String ComposedOrganizations := do
  let st ← bootstrap.organizations.foldlM (compose_one setup ledger bootstrap override_document)
    { override_used := override_document.isNone }
  if !st.override_used then
    .error ("unknown organization `" ++ (override_document.map (·.1)).getD "" ++
      "` (not in [[organizations]])")
  else
    let merged := with_strictest st.merged st.strictest_rpm
    if merged.sources = [] ∧ merged.notifiers = [] ∧
        bootstrap.config_api.ledger_is_bootable = false then
      .error "[[organizations]] loaded but no sources or notifiers were found"
    else
      .ok
        { merged := merge_bootstrap_over_desired bootstrap merged
          identity_sha256 := setup.sha256 (identity_bytes st.identity)
          sources := st.sources }

/-! ## Booting -/

/-- The effective runtime configuration: of every organization, else of the ledger, else of the
app file. -/
def resolve (setup : Setup) (ledger : List ConfigRevision) (bootstrap : Config) :
    Except String Config :=
  if bootstrap.organizations ≠ [] then
    (compose_organizations setup ledger bootstrap none).map (·.merged)
  else
    let bootable := bootstrap.config_api.ledger_is_bootable
    let recorded := if bootable then latest_applied_config_revision ledger none else none
    match recorded with
    | some revision => do
      let desired ← parse_desired_document setup.codec revision.content
      ensure_desired_only desired
      return merge_bootstrap_over_desired bootstrap (apply_env_overrides setup.env desired)
    | none =>
      match setup.files.app with
      | some (some text, hint) => do
        let desired ← parse_desired_document_with_hint setup.codec text hint
        ensure_desired_only desired
        let desired := apply_env_overrides setup.env desired
        if has_desired_state desired then return merge_bootstrap_over_desired bootstrap desired
        else if bootable then return merge_bootstrap_over_desired bootstrap {}
        else .error "app config defines no desired-state sections (sources / notifiers / apprise)"
      | other =>
        if bootable then .ok (merge_bootstrap_over_desired bootstrap {})
        else
          match other with
          | none =>
            .error ("no applied config revision in PostgreSQL and no app config file — set " ++
              "--app app/releases.yaml, declare [[organizations]] in bootstrap.toml, or apply " ++
              "desired state via POST /api/v1/config/apply")
          | some _ => .error "app config file does not exist (no applied revision in PostgreSQL)"

end xrelease.config
