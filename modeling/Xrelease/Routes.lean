-- The config routes (`api/config.rs`, `api/organizations.rs`, `AppState`): what a request passes
-- before it may apply, the digest that conditional requests are compared with, and reloads. What
-- a call does under the apply lock is one step; the files are those that it finds.
import Xrelease.Apply
import Xrelease.Places

namespace xrelease.api

open xrelease.config xrelease.config_apply text

/-! ## State and answers -/

/-- `AppState`, with `DesiredRuntime`; the process has the effective configuration. -/
structure AppState where
  process : Process
  /-- The latest applied revision, as far as it is known. -/
  effective_revision : Option ConfigRevision
  /-- What `If-Match` is compared with. -/
  effective_desired_sha : Option String

/-- `ApiError`, of these routes. -/
inductive ApiError where
  | BadRequest (message : String)
  | NotFound (message : String)
  | Conflict (message : String)
  | PreconditionFailed (message : String)
  | UnprocessableEntity (message : String) (report : ValidationReport)
  | Internal (message : String)
deriving DecidableEq

def validation_error : ApplyError → ApiError
  | .ValidationRejected revision report =>
    .UnprocessableEntity ("config validation failed (revision " ++ toString revision ++ ")") report
  | .DocumentRejected error => .BadRequest error
  | .NothingToRollBackTo => .Conflict "no earlier applied revision to roll back to"
  | .Failed error => .Internal error

/-! ## Checks -/

/-- A header, as it is read. -/
inductive HeaderText where
  | Absent
  | Unreadable
  | Text (value : String)
deriving DecidableEq

/-- `trim_start_matches("W/")`. -/
def without_weak : List Char → List Char
  | 'W' :: '/' :: rest => without_weak rest
  | value => value

/-- The digests that an `If-Match` header lists. -/
def if_match_candidates (header : String) : List String :=
  (split (· == ',') header.toList).map (fun candidate =>
    String.ofList (trim_end_matches (· == '"') (trim_start_matches (· == '"')
      (without_weak (trimmed candidate)))))

/-- RFC 9110 `If-Match`; without the header an apply is unconditional. -/
def check_if_match (header : HeaderText) (current : Option String) (reread_hint : String) :
    Except ApiError Unit :=
  match header with
  | .Absent => .ok ()
  | .Unreadable => .error (.BadRequest "invalid If-Match header")
  | .Text header =>
    if trim header = "*" then
      if current.isSome then .ok ()
      else .error (.PreconditionFailed "If-Match: * requires an already-applied config")
    else if (if_match_candidates header).any (fun candidate => current = some candidate) then
      .ok ()
    else
      .error (.PreconditionFailed ("config changed since it was read (current sha256 " ++
        current.getD "<none>" ++ "); re-read " ++ reread_hint ++ " and re-apply"))

def routes_enabled (config_api : ConfigApiConfig) : Bool := config_api.api_config

def accepts_pushed_config (config_api : ConfigApiConfig) : Bool := config_api.source == .Api

/-- What `require_config_apply_auth` asks of the instance, before it asks who calls. -/
def require_config_apply (bootstrap : Config) : Except ApiError Unit :=
  if !routes_enabled bootstrap.config_api then
    .error (.NotFound "config apply API is disabled")
  else if !accepts_pushed_config bootstrap.config_api then
    .error (.Conflict ("config_api.source = \"local\": the app config file is authoritative, so " ++
      "pushed config would be discarded on the next boot — edit the file and POST " ++
      "/api/v1/reload instead"))
  else .ok ()

/-- A whole document is refused where organizations are declared. -/
def require_single_document_mode (bootstrap : Config) : Except ApiError Unit :=
  if bootstrap.organizations = [] then .ok ()
  else
    .error (.Conflict ("this instance runs [[organizations]]; use " ++
      "/api/v1/organizations/\x7bid\x7d/config/… for the organization you are changing"))

def require_organization (bootstrap : Config) (org_id : String) :
    Except ApiError OrganizationConfig :=
  if bootstrap.organizations = [] then
    .error (.NotFound ("no [[organizations]] declared in bootstrap.toml (single-document " ++
      "instance; use /api/v1/config)"))
  else
    match bootstrap.organizations.find? (fun org => org.id = trim org_id) with
    | some org => .ok org
    | none => .error (.NotFound ("unknown organization `" ++ trim org_id ++ "`"))

def require_pushes_accepted (bootstrap : Config) : Except ApiError Unit :=
  if accepts_pushed_config bootstrap.config_api then .ok ()
  else
    .error (.Conflict ("[config_api].source = \"local\" pins desired state to the app files; " ++
      "edit the organization's file in Git and POST /api/v1/reload (or send SIGHUP)"))

/-- The document of an organization as its authority has it now. -/
def org_authority_raw (server : Server) (fault : Option String) (process : Process)
    (org : OrganizationConfig) : Except ApiError (String × DesiredSource) :=
  match fault with
  | some err => .error (.Internal err)
  | none =>
    match organization_desired_raw server.setup.files process.ledger server.bootstrap org with
    | .ok found => .ok found
    | .error err => .error (.Internal err)

/-! ## Reading -/

structure ConfigView where
  /-- The redacted configuration, before it is written out. -/
  content : Config
  desired_content : Option String
  desired_source : DesiredSource
  content_sha256 : Option String
  revision : Option Nat
  etag : Option String

/-- The header of a digest. -/
def etag (sha : String) : String := "\"" ++ sha ++ "\""

theorem etag_quoted (sha : String) : (etag sha).toList = '"' :: (sha.toList ++ ['"']) := by
  unfold etag
  rw [String.toList_append, String.toList_append]
  rfl

/-- `GET /api/v1/config`: a snapshot of the running state, then the ledger or the file as they are
by the time that they are read. -/
def get_config (server : Server) (fault : Option String) (state : AppState)
    (ledger : List ConfigRevision) : Except ApiError ConfigView :=
  let view := fun desired_content desired_source =>
    { content := redact_config state.process.effective
      desired_content, desired_source
      content_sha256 := state.effective_desired_sha
      revision := state.effective_revision.map (·.id)
      etag := state.effective_desired_sha.map etag : ConfigView }
  if server.bootstrap.organizations ≠ [] then .ok (view none .Empty)
  else if state.effective_revision.isSome then
    match fault with
    | some err => .error (.Internal err)
    | none =>
      .ok (view ((latest_applied_config_revision ledger none).bind (fun record =>
        (parse_desired_document server.setup.codec record.content).toOption.map
          (redact_desired_only_document server.setup.codec (detect_desired_format record.content))))
        .Ledger)
  else
    .ok (view (server.setup.files.app.bind (fun app => app.1.bind (fun text =>
      (parse_desired_document_with_hint server.setup.codec text app.2).toOption.map
        (redact_desired_only_document server.setup.codec (app.2.getD .Yaml))))) .AppFile)

structure OrgConfigView where
  organization : String
  desired_source : DesiredSource
  content_sha256 : String
  desired_content : Option String
  etag : String

/-- `GET /api/v1/organizations/{id}/config`. -/
def get_org_config (server : Server) (fault : Option String) (state : AppState)
    (org_id : String) : Except ApiError OrgConfigView := do
  let org ← require_organization server.bootstrap org_id
  let (raw, desired_source) ← org_authority_raw server fault state.process org
  let sha := server.setup.sha256 raw
  return {
    organization := org.id
    desired_source
    content_sha256 := sha
    desired_content := (parse_desired_document server.setup.codec raw).toOption.map
      (redact_desired_only_document server.setup.codec (detect_desired_format raw))
    etag := etag sha }

/-! ## Applying -/

/-- Publish what was just applied; the revision is read again, and stays where that fails. -/
def commit_effective (fault : Option String) (state : AppState) (response : ApplyResponse) :
    AppState :=
  if response.applied then
    let latest := latest_applied_config_revision state.process.ledger none
    { state with
      effective_desired_sha := some response.content_sha256
      effective_revision :=
        if fault.isSome then state.effective_revision else latest.or state.effective_revision }
  else state

/-- The tail of an apply and of a rollback. -/
def finish_apply (fault : Option String) (state : AppState)
    (result : Except ApplyError ApplyResponse × Process) :
    Except ApiError ApplyResponse × AppState :=
  let state := { state with process := result.2 }
  match result.1 with
  | .ok response => (.ok response, commit_effective fault state response)
  | .error err => (.error (validation_error err), state)

/-- What may fail of the store during a request. -/
structure RouteFaults where
  authority : Option String := none
  previous : Option String := none
  apply : Faults := {}
  refresh : Option String := none

/-- A request goes on where its checks are passed. -/
def checked {α β : Type} (checks : Except ApiError α) (state : AppState)
    (go : α → Except ApiError β × AppState) : Except ApiError β × AppState :=
  match checks with
  | .error err => (.error err, state)
  | .ok a => go a

/-- The checks of an apply; the header is compared under the lock. -/
def apply_checks (server : Server) (state : AppState) (if_match : HeaderText) :
    Except ApiError Unit := do
  require_config_apply server.bootstrap
  check_if_match if_match state.effective_desired_sha "GET /api/v1/config"
  require_single_document_mode server.bootstrap

/-- `POST /api/v1/config/apply`. -/
def post_apply (server : Server) (faults : RouteFaults) (state : AppState)
    (if_match : HeaderText) (raw : String) (hint : Option DesiredFormat) :
    Except ApiError ApplyResponse × AppState :=
  checked (apply_checks server state if_match) state fun _ =>
    finish_apply faults.refresh state
      (apply_document server faults.apply state.process .Whole raw hint)

def rollback_checks (server : Server) : Except ApiError Unit := do
  require_config_apply server.bootstrap
  require_single_document_mode server.bootstrap

/-- `POST /api/v1/config/rollback`. -/
def post_rollback (server : Server) (faults : RouteFaults) (state : AppState) :
    Except ApiError ApplyResponse × AppState :=
  checked (rollback_checks server) state fun _ =>
    finish_apply faults.refresh state
      (rollback server faults.previous faults.apply state.process .Whole)

/-- The tail for one organization: the composed identity is not known any more. -/
def finish_org_apply (state : AppState) (result : Except ApplyError ApplyResponse × Process) :
    Except ApiError ApplyResponse × AppState :=
  let state := { state with process := result.2 }
  match result.1 with
  | .ok response =>
    (.ok response, if response.applied then { state with effective_desired_sha := none } else state)
  | .error err => (.error (validation_error err), state)

/-- The organization that a push is for. -/
def org_rollback_checks (server : Server) (org_id : String) :
    Except ApiError OrganizationConfig := do
  let org ← require_organization server.bootstrap org_id
  require_config_apply server.bootstrap
  require_pushes_accepted server.bootstrap
  return org

/-- The header is compared under the lock, with the digest of what the authority has then. -/
def org_apply_checks (server : Server) (fault : Option String) (state : AppState)
    (org_id : String) (if_match : HeaderText) : Except ApiError OrganizationConfig := do
  let org ← org_rollback_checks server org_id
  let (current_raw, _) ← org_authority_raw server fault state.process org
  check_if_match if_match (some (server.setup.sha256 current_raw))
    ("GET /api/v1/organizations/" ++ org.id ++ "/config")
  return org

/-- `POST /api/v1/organizations/{id}/config/apply`. -/
def post_org_apply (server : Server) (faults : RouteFaults) (state : AppState) (org_id : String)
    (if_match : HeaderText) (raw : String) (hint : Option DesiredFormat) :
    Except ApiError ApplyResponse × AppState :=
  checked (org_apply_checks server faults.authority state org_id if_match) state fun org =>
    finish_org_apply state
      (apply_document server faults.apply state.process (.Organization org.id) raw hint)

/-- `POST /api/v1/organizations/{id}/config/rollback`. -/
def post_org_rollback (server : Server) (faults : RouteFaults) (state : AppState)
    (org_id : String) : Except ApiError ApplyResponse × AppState :=
  checked (org_rollback_checks server org_id) state fun org =>
    finish_org_apply state
      (rollback server faults.previous faults.apply state.process (.Organization org.id))

/-! ## Reloading -/

structure ReloadResponse where
  applied : Bool
  content_sha256 : String
  source_path : String
  sources_added : List String := []
  sources_removed : List String := []
  sources_changed : List String := []
  warnings : List String := []
deriving DecidableEq

/-- Validate and hot-swap what a reload has read. -/
def swap_reloaded (server : Server) (process : Process) (merged : Config)
    (sha source_path : String) : Except ApiError ReloadResponse × Process :=
  let report := server.validate_full process.secrets.vault merged
  if report.valid = false then
    (.error (.UnprocessableEntity "config validation failed" report), process)
  else
    let diff := ConfigDiff.compute server process.secrets.vault process.effective merged
    match apply_runtime server process merged with
    | .error err => (.error (.Internal err), process)
    | .ok swapped =>
      (.ok { applied := true, content_sha256 := sha, source_path, sources_added := diff.added,
             sources_removed := diff.removed, sources_changed := diff.changed,
             warnings := report.warnings }, swapped)

/-- Swap the text of the app file in, unless it is the one that runs; the ledger stays. -/
def reload_document (server : Server) (process : Process) (current_sha : Option String)
    (source_path raw : String) (hint : Option DesiredFormat) :
    Except ApiError ReloadResponse × Process :=
  let sha := server.setup.sha256 raw
  if current_sha = some sha then
    (.ok { applied := false, content_sha256 := sha, source_path }, process)
  else
    match merge_pushed_document server.setup.codec server.setup.env server.bootstrap raw hint with
    | .error err => (.error (.BadRequest err), process)
    | .ok merged => swap_reloaded server process merged sha source_path

/-- Resolve every organization from its authority again and swap the composition in. -/
def reload_organizations (server : Server) (fault : Option String) (process : Process)
    (current_identity : Option String) : Except ApiError ReloadResponse × Process :=
  match fault with
  | some err => (.error (.Internal err), process)
  | none =>
    match compose_organizations server.setup process.ledger server.bootstrap none with
    | .error err => (.error (.Internal err), process)
    | .ok composed =>
      if current_identity = some composed.identity_sha256 then
        (.ok { applied := false, content_sha256 := composed.identity_sha256
               source_path := "[[organizations]]" }, process)
      else
        swap_reloaded server process composed.merged composed.identity_sha256 "[[organizations]]"

/-- What a reload has in hand when it asks for the lock: the text of the app file, or nothing
where organizations are declared. -/
inductive Reading where
  | Organizations
  | Document (raw : String)
deriving DecidableEq

/-- `reload_from_disk` up to the lock; `path` is that of the app file. -/
def reload_reads (server : Server) (path : String) : Except ApiError Reading :=
  if server.bootstrap.organizations ≠ [] then .ok .Organizations
  else
    match server.setup.files.app with
    | none =>
      .error (.BadRequest ("no app config file configured (--app / XRELEASE_APP_CONFIG); " ++
        "desired state is pushed via POST /api/v1/config/apply"))
    | some (none, _) =>
      .error (.BadRequest ("reading " ++ path ++ ": No such file or directory (os error 2)"))
    | some (some raw, _) => .ok (.Document raw)

/-- The new identity, where something was swapped in. -/
def finish_reload (state : AppState) (result : Except ApiError ReloadResponse × Process) :
    Except ApiError ReloadResponse × AppState :=
  let state := { state with process := result.2 }
  match result.1 with
  | .ok response =>
    (.ok response,
      if response.applied then
        { state with effective_desired_sha := some response.content_sha256 }
      else state)
  | .error err => (.error err, state)

/-- `reload_from_disk` under the lock. A file is refused where the ledger has a revision. -/
def reload_locked (server : Server) (path : String) (fault : Option String) (state : AppState)
    (reading : Reading) : Except ApiError ReloadResponse × AppState :=
  match reading with
  | .Organizations =>
    finish_reload state
      (reload_organizations server fault state.process state.effective_desired_sha)
  | .Document raw =>
    let bootable := server.bootstrap.config_api.ledger_is_bootable
    match bootable, fault with
    | true, some err => (.error (.Internal err), state)
    | _, _ =>
      if bootable ∧ (latest_applied_config_revision state.process.ledger none).isSome then
        (.error (.Conflict ("config ledger is authoritative for desired state; use POST " ++
          "/api/v1/config/apply instead of reload")), state)
      else
        finish_reload state
          (reload_document server state.process state.effective_desired_sha path raw
            (server.setup.files.app.bind (·.2)))

/-! ## Starting -/

/-- `AppState::new`: the identity is that of the composition, of the revision, or of the file. -/
def AppState.new (server : Server) (process : Process)
    (effective_revision : Option ConfigRevision) : AppState where
  process
  effective_revision
  effective_desired_sha :=
    if server.bootstrap.organizations ≠ [] then
      (compose_organizations server.setup process.ledger server.bootstrap none).toOption.map
        (·.identity_sha256)
    else
      match effective_revision with
      | some revision => some revision.content_sha256
      | none => (server.setup.files.app.bind (·.1)).map server.setup.sha256

/-- `Runtime::new` and `serve`: resolve, build what runs, then take requests. -/
def serve (server : Server) (secrets : SecretStore) (ledger : List ConfigRevision) :
    Except String AppState := do
  let effective_revision :=
    if server.bootstrap.config_api.ledger_is_bootable ∧ server.bootstrap.organizations = [] then
      latest_applied_config_revision ledger none
    else none
  let effective ← resolve server.setup ledger server.bootstrap
  let process ← apply_runtime server { secrets, ledger, effective, sinks := [], watches := [] }
    effective
  return AppState.new server process effective_revision

/-! ## Runs -/

/-- An instance, its app files, and the reloads that wait for the lock. -/
structure World where
  state : AppState
  files : Files
  waiting : List Reading := []

inductive Event where
  /-- Somebody writes the app file and those of the catalogue. -/
  | Edit (app : Option String) (text : String → Option String)
  /-- A reload comes as far as the lock. -/
  | Read
  /-- One that waits gets the lock. -/
  | Reload (index : Nat) (fault : Option String)
  | Apply (faults : RouteFaults) (if_match : HeaderText) (raw : String)
      (hint : Option DesiredFormat)
  | Rollback (faults : RouteFaults)
  | OrgApply (faults : RouteFaults) (org_id : String) (if_match : HeaderText) (raw : String)
      (hint : Option DesiredFormat)
  | OrgRollback (faults : RouteFaults) (org_id : String)

/-- The server with the files as they are. -/
def at_files (server : Server) (files : Files) : Server :=
  { server with setup := { server.setup with files } }

/-- Other texts under the same paths. -/
def edited (files : Files) (app : Option String) (text : String → Option String) : Files :=
  { app := files.app.map (fun found => (app, found.2)), text }

def refusal {α : Type} : Except ApiError α → Option ApiError
  | .ok _ => none
  | .error err => some err

/-- What the event answers, if it is an error, and what it leaves. -/
def step (server : Server) (path : String) (w : World) (event : Event) :
    Option ApiError × World :=
  let server := at_files server w.files
  match event with
  | .Edit app text => (none, { w with files := edited w.files app text })
  | .Read =>
    match reload_reads server path with
    | .ok reading => (none, { w with waiting := w.waiting ++ [reading] })
    | .error err => (some err, w)
  | .Reload index fault =>
    match w.waiting[index]? with
    | none => (none, w)
    | some reading =>
      let (answer, state) := reload_locked server path fault w.state reading
      (refusal answer, { w with state, waiting := w.waiting.eraseIdx index })
  | .Apply faults if_match raw hint =>
    let (answer, state) := post_apply server faults w.state if_match raw hint
    (refusal answer, { w with state })
  | .Rollback faults =>
    let (answer, state) := post_rollback server faults w.state
    (refusal answer, { w with state })
  | .OrgApply faults org_id if_match raw hint =>
    let (answer, state) := post_org_apply server faults w.state org_id if_match raw hint
    (refusal answer, { w with state })
  | .OrgRollback faults org_id =>
    let (answer, state) := post_org_rollback server faults w.state org_id
    (refusal answer, { w with state })

/-- The instance after the event. -/
def next (server : Server) (path : String) (w : World) (event : Event) : World :=
  (step server path w event).2

/-- An instance that has just started. -/
def Served (server : Server) (w : World) : Prop :=
  w.waiting = [] ∧ ∃ secrets ledger,
    serve (at_files server w.files) secrets ledger = .ok w.state

end xrelease.api
