-- Pushed configuration (`config_apply/mod.rs`, with the vault and `app_secret`): a document is
-- resolved in its scope, its secrets are sealed and the stale ones pruned, the runtime is swapped
-- and the ledger appended to; every call to the store may fail.
import Xrelease.Boot
import Xrelease.Restore
import Xrelease.Runtime

namespace xrelease.config_apply

open xrelease.config text keyed.Table

/-! ## The secret store -/

/-- The process vault and the table `app_secret`, by name; the table as its rows decrypt. -/
structure SecretStore where
  vault : String → Option String
  app_secret : String → Option String

def set_name (map : String → Option String) (name : String) (value : Option String) :
    String → Option String :=
  fun n => if n = name then value else map n

def vault_upsert (vault : String → Option String) (name value : String) :
    String → Option String :=
  if blank name || blank value then vault else set_name vault name (some value)

/-- One write of the transaction; a row is left alone when the digest of its value is that of the
new one. -/
def upsert_app_secret (sha256 : String → String) (store : SecretStore) (write : SecretWrite) :
    SecretStore :=
  let name := trim write.name
  if name = "" || blank write.value then store
  else
    let unchanged := (store.app_secret name).map sha256 = some (sha256 write.value)
    { vault := vault_upsert store.vault name write.value
      app_secret :=
        if unchanged then store.app_secret
        else set_name store.app_secret name (some write.value) }

def delete_app_secret (store : SecretStore) (name : String) : SecretStore :=
  let name := trim name
  if name = "" then store
  else
    match store.app_secret name with
    | none => store
    | some _ =>
      { vault := set_name store.vault name none
        app_secret := set_name store.app_secret name none }

/-! ## What an apply works with -/

/-- `ValidationReport`, as far as an apply reads it. -/
structure ValidationReport where
  valid : Bool
  errors : List String := []
  warnings : List String := []
deriving DecidableEq

/-- What stays the same for the life of a process. -/
structure Server where
  setup : Setup
  makers : Makers
  /-- The order in which a map of headers is walked. -/
  order : Order
  /-- There is a key to seal secrets with, or plaintext is allowed. -/
  sealable : Bool
  /-- `validate_full`, which also looks secrets up. -/
  validate_full : (String → Option String) → Config → ValidationReport
  bootstrap : Config

structure Process where
  secrets : SecretStore
  ledger : List ConfigRevision
  /-- The configuration that drives the runtime. -/
  effective : Config
  sinks : List BuiltSink
  watches : List Watch

/-- Who asks for an apply. -/
structure ApplyOrigin where
  revision_label : Option String := none
  applied_by : Option String := none
  source_addr : Option String := none
deriving DecidableEq

/-- What one apply meets: how the calls to the store fail, a transaction also after some of its
statements; and what comes with the row that it appends. -/
structure Faults where
  latest : Option String := none
  authority : Option String := none
  compose : Option String := none
  upsert : Option (Nat × String) := none
  previous_refs : Option String := none
  delete : Option (Nat × String) := none
  insert : Option String := none
  origin : ApplyOrigin := {}
  /-- `now()` of the database, in RFC 3339. -/
  applied_at : String := ""
  /-- The numbers that inserts which failed took from the sequence of ids. -/
  skipped : Nat := 0

/-- Which desired-state stream an apply or a rollback addresses. -/
inductive ApplyScope where
  | Whole
  | Organization (organization : String)
deriving DecidableEq

def ApplyScope.ledger_stream : ApplyScope → Option String
  | .Whole => none
  | .Organization organization => some organization

inductive ApplyError where
  | Failed (error : String)
  | DocumentRejected (error : String)
  | ValidationRejected (revision : Nat) (report : ValidationReport)
  | NothingToRollBackTo
deriving DecidableEq

structure ApplyResponse where
  applied : Bool
  content_sha256 : String
  revision : Nat
  sources_added : List String := []
  sources_removed : List String := []
  sources_changed : List String := []
  warnings : List String := []
deriving DecidableEq

/-! ## Statements -/

def upsert_app_secrets (server : Server) (fault : Option (Nat × String)) (store : SecretStore)
    (writes : List SecretWrite) : Except String Unit × SecretStore :=
  if writes = [] then (.ok (), store)
  else if !server.sealable then
    (.error ("inline config secrets require XRELEASE_CONFIG_ENCRYPTION_KEY (or " ++
      "XRELEASE_ALLOW_PLAINTEXT_CONFIG_LEDGER=1 for lab only)"), store)
  else
    let put := fun writes => writes.foldl (upsert_app_secret server.setup.sha256) store
    match fault with
    -- the transaction is rolled back; the vault keeps what was put into it
    | some (done, err) => (.error err, { store with vault := (put (writes.take done)).vault })
    | none => (.ok (), put writes)

def delete_app_secrets (fault : Option (Nat × String)) (store : SecretStore)
    (names : List String) : Except String Unit × SecretStore :=
  if names = [] then (.ok (), store)
  else
    let drop := fun names => names.foldl delete_app_secret store
    match fault with
    | some (done, err) => (.error err, { store with vault := (drop (names.take done)).vault })
    | none => (.ok (), drop names)

/-- The next number of the sequence of ids. -/
def next_id (faults : Faults) (process : Process) : Nat :=
  process.ledger.getLast?.elim 0 ConfigRevision.id + 1 + faults.skipped

/-- Append an attempt to the ledger. -/
def record_attempt (faults : Faults) (process : Process) (raw sha : String)
    (status : ConfigRevisionStatus) (error : Option String) (stream : Option String) :
    Except String Nat × Process :=
  match faults.insert with
  | some err => (.error ("recording config revision: " ++ err), process)
  | none =>
    let id := next_id faults process
    (.ok id,
      { process with
        ledger := process.ledger ++
          [{ id, content := raw, content_sha256 := sha, status, error,
             organization_id := stream,
             revision_label := faults.origin.revision_label,
             applied_by := faults.origin.applied_by,
             source_addr := faults.origin.source_addr,
             applied_at := faults.applied_at }] })

/-! ## Swapping -/

/-- Build everything, then let it run. -/
def apply_runtime (server : Server) (process : Process) (config : Config) :
    Except String Process := do
  let watches ← to_watches server.makers server.setup.env process.secrets.vault config
  let sinks ← build_notifiers server.makers server.setup.env process.secrets.vault config
  return { process with effective := config, sinks, watches }

/-- Added, removed and changed sources between two configurations. -/
structure ConfigDiff where
  added : List String
  removed : List String
  changed : List String

def source_content (server : Server) (vault : String → Option String) (config : Config) :
    List (String × SourceConfig) :=
  match to_watches server.makers server.setup.env vault config with
  | .error _ => []
  | .ok watches => (watches.map (·.id)).zip config.sources

def ConfigDiff.compute (server : Server) (vault : String → Option String)
    (current next : Config) : ConfigDiff :=
  let current := source_content server vault current
  let next := source_content server vault next
  { added := (next.filter (fun entry => (look entry.1 current.reverse).isNone)).map (·.1)
    removed := (current.filter (fun entry => !next.any (·.1 == entry.1))).map (·.1)
    changed := (next.filter (fun entry =>
      (look entry.1 current.reverse).any (fun old => old ≠ entry.2))).map (·.1) }

/-! ## The candidate -/

structure ScopedCandidate where
  ledger_raw : String
  ledger_sha : String
  merged : Config
  secret_writes : List SecretWrite
  secret_env_refs : List String

/-- An error as that of the candidate itself. -/
def rejecting {α : Type} : Except String α → Except ApplyError α
  | .ok a => .ok a
  | .error err => .error (.DocumentRejected err)

/-- An error as that of the server. -/
def failing {α : Type} : Except String α → Except ApplyError α
  | .ok a => .ok a
  | .error err => .error (.Failed err)

def refusing (fault : Option String) : Except ApplyError Unit :=
  match fault with
  | some err => .error (.Failed err)
  | none => .ok ()

def unknown_organization (organization : String) : String :=
  "unknown organization `" ++ organization ++ "` (not in [[organizations]])"

def find_organization (bootstrap : Config) (organization : String) :
    Except ApplyError OrganizationConfig :=
  match bootstrap.organizations.find? (fun org => org.id = organization) with
  | some org => .ok org
  | none => .error (.Failed (unknown_organization organization))

/-- Parse and guard an organization's candidate, and restore what was redacted in it from the
organization's own authority. -/
def restore_org_candidate (server : Server) (faults : Faults) (process : Process)
    (organization raw : String) (hint : Option DesiredFormat) :
    Except ApplyError Config := do
  let candidate ← rejecting (parse_desired_document_with_hint server.setup.codec raw hint)
  rejecting (ensure_desired_only candidate)
  if has_desired_state candidate = false then
    .error (.DocumentRejected
      "document defines no desired-state sections (sources / notifiers)")
  else
    let org ← find_organization server.bootstrap organization
    refusing faults.authority
    let (previous_raw, _) ← failing
      (organization_desired_raw server.setup.files process.ledger server.bootstrap org)
    let candidate := match parse_desired_document server.setup.codec previous_raw with
      | .ok previous => restore_redacted_secrets previous candidate
      | .error _ => candidate
    let format := hint.getD (detect_desired_format raw)
    -- the body that the source serializes here is not used, but must serialize
    let _ ← failing (serialize_desired_only_strict server.setup.codec format candidate)
    return candidate

/-- The ledger body and the runtime view of a candidate. -/
def resolve_scoped_candidate (server : Server) (faults : Faults) (process : Process)
    (scope : ApplyScope) (raw : String) (hint : Option DesiredFormat) :
    Except ApplyError ScopedCandidate :=
  let setup := server.setup
  let format := hint.getD (detect_desired_format raw)
  match scope with
  | .Whole => do
    let merged ← rejecting
      (merge_pushed_document setup.codec setup.env server.bootstrap raw hint)
    let merged := restore_redacted_secrets process.effective merged
    let (desired, secret_writes) :=
      normalize_secrets_to_refs server.order (desired_state_for_ledger merged) none
    let merged :=
      { merged with
        defaults := desired.defaults
        notifiers := desired.notifiers
        teams := desired.teams
        presets := desired.presets
        sources := desired.sources }
    let ledger_raw ← failing (serialize_desired_only_strict setup.codec format desired)
    return {
      ledger_raw
      ledger_sha := setup.sha256 ledger_raw
      merged
      secret_writes
      secret_env_refs := collect_secret_env_refs desired }
  | .Organization organization => do
    let desired ← restore_org_candidate server faults process organization raw hint
    let (desired, secret_writes) :=
      normalize_secrets_to_refs server.order desired (some organization)
    let ledger_raw ← failing (serialize_desired_only_strict setup.codec format desired)
    refusing faults.compose
    let composed ← failing (compose_organizations setup process.ledger server.bootstrap
      (some (organization, ledger_raw)))
    return {
      ledger_raw
      ledger_sha := setup.sha256 ledger_raw
      merged := composed.merged
      secret_writes
      secret_env_refs := collect_secret_env_refs desired }

/-- The subset of writes that would change a sealed secret. -/
def effective_secret_rotations (vault : String → Option String) (writes : List SecretWrite) :
    List SecretWrite :=
  writes.filter (fun write => vault_get vault write.name ≠ some write.value)

def normalize_document_for_storage (server : Server) (raw : String)
    (organization : Option String) : Except String (String × List SecretWrite) := do
  let format := detect_desired_format raw
  let config ← parse_desired_document server.setup.codec raw
  let (config, writes) := normalize_secrets_to_refs server.order config organization
  let content ← serialize_desired_only_strict server.setup.codec format config
  return (content, writes)

/-- The body recorded for a rejected document: never one with inline secrets in it. -/
def rejected_ledger_body (server : Server) (raw : String) (organization : Option String) :
    String × String :=
  match normalize_document_for_storage server raw organization with
  | .ok (content, _) => (content, server.setup.sha256 content)
  | .error _ => (EMPTY_ORGANIZATION_DOCUMENT, server.setup.sha256 EMPTY_ORGANIZATION_DOCUMENT)

/-! ## Pruning -/

def previous_secret_env_refs (server : Server) (faults : Faults) (process : Process)
    (scope : ApplyScope) : Except ApplyError (List String) :=
  match scope with
  | .Whole => .ok (collect_secret_env_refs (desired_state_for_ledger process.effective))
  | .Organization organization => do
    let org ← find_organization server.bootstrap organization
    refusing faults.previous_refs
    let (raw, _) ← failing
      (organization_desired_raw server.setup.files process.ledger server.bootstrap org)
    return match parse_desired_document server.setup.codec raw with
      | .ok config => collect_secret_env_refs config
      | .error _ => []

/-- The names that the scope drops. -/
def stale_names (server : Server) (faults : Faults) (process : Process) (scope : ApplyScope)
    (next_refs : List String) : Except ApplyError (List String) := do
  let previous_refs ← previous_secret_env_refs server faults process scope
  return stale_ui_managed_secrets previous_refs next_refs scope.ledger_stream

/-- Drop the UI-managed secrets that the scope no longer references; the references before are
those of the process as it is. -/
def prune_stale_app_secrets (server : Server) (faults : Faults) (process : Process)
    (scope : ApplyScope) (next_refs : List String) : Except ApplyError Unit × Process :=
  match stale_names server faults process scope next_refs with
  | .error err => (.error err, process)
  | .ok stale =>
    match delete_app_secrets faults.delete process.secrets stale with
    | (.error err, secrets) =>
      (.error (.Failed ("pruning stale app secrets: " ++ err)), { process with secrets })
    | (.ok (), secrets) => (.ok (), { process with secrets })

/-! ## Applying -/

/-- Seal what is written, then prune what is stale. -/
def keep_secrets (server : Server) (faults : Faults) (process : Process) (scope : ApplyScope)
    (candidate : ScopedCandidate) : Except ApplyError Unit × Process :=
  match upsert_app_secrets server faults.upsert process.secrets candidate.secret_writes with
  | (.error err, secrets) =>
    (.error (.Failed ("persisting app secrets: " ++ err)), { process with secrets })
  | (.ok (), secrets) =>
    prune_stale_app_secrets server faults { process with secrets } scope
      candidate.secret_env_refs

/-- A candidate that does not validate is recorded as rejected. -/
def reject_invalid (faults : Faults) (process : Process) (scope : ApplyScope)
    (candidate : ScopedCandidate) (report : ValidationReport) :
    Except ApplyError ApplyResponse × Process :=
  match record_attempt faults process candidate.ledger_raw candidate.ledger_sha .Rejected
      (some (report.errors.head?.getD "validation failed")) scope.ledger_stream with
  | (.error err, process) => (.error (.Failed err), process)
  | (.ok revision, process) => (.error (.ValidationRejected revision report), process)

/-- A document that is no configuration is recorded as rejected; what is not its fault is not. -/
def reject_document (server : Server) (faults : Faults) (process : Process) (scope : ApplyScope)
    (raw : String) (error : ApplyError) : Except ApplyError ApplyResponse × Process :=
  match error with
  | .DocumentRejected err =>
    let (body, sha) := rejected_ledger_body server raw scope.ledger_stream
    match record_attempt faults process body sha .Rejected (some err)
        scope.ledger_stream with
    | (.error err, process) => (.error (.Failed err), process)
    | (.ok revision, process) =>
      (.error (.DocumentRejected (err ++ " (revision " ++ toString revision ++
        " recorded as rejected)")), process)
  | error => (.error error, process)

/-- Swap the runtime, then append to the ledger; a failed append swaps back. -/
def swap_and_record (server : Server) (faults : Faults) (previous : Config) (process : Process)
    (scope : ApplyScope) (candidate : ScopedCandidate) (diff : ConfigDiff)
    (warnings : List String) : Except ApplyError ApplyResponse × Process :=
  match apply_runtime server process candidate.merged with
  | .error err => (.error (.Failed err), process)
  | .ok process =>
    match record_attempt faults process candidate.ledger_raw candidate.ledger_sha .Applied
        none scope.ledger_stream with
    | (.ok revision, process) =>
      (.ok { applied := true, content_sha256 := candidate.ledger_sha, revision,
             sources_added := diff.added, sources_removed := diff.removed,
             sources_changed := diff.changed, warnings }, process)
    | (.error err, process) =>
      match apply_runtime server process previous with
      | .ok restored => (.error (.Failed err), restored)
      | .error _ => (.error (.Failed err), process)

/-- Apply a desired-state document: validate, hot-swap, append to the ledger. -/
def apply_document (server : Server) (faults : Faults) (process : Process) (scope : ApplyScope)
    (raw : String) (hint : Option DesiredFormat) : Except ApplyError ApplyResponse × Process :=
  match faults.latest with
  | some err => (.error (.Failed err), process)
  | none =>
    let sha := server.setup.sha256 raw
    let current := latest_applied_config_revision process.ledger scope.ledger_stream
    match current.filter (fun current => current.content_sha256 = sha) with
    | some current =>
      (.ok { applied := false, content_sha256 := sha, revision := current.id }, process)
    | none =>
      match resolve_scoped_candidate server faults process scope raw hint with
      | .error err => reject_document server faults process scope raw err
      | .ok candidate =>
        let report := server.validate_full process.secrets.vault candidate.merged
        match current.filter (fun current => current.content_sha256 = candidate.ledger_sha) with
        | some current =>
          -- the body is what is applied already: only rotated secrets are left to keep
          if effective_secret_rotations process.secrets.vault candidate.secret_writes = [] then
            (.ok { applied := false, content_sha256 := candidate.ledger_sha,
                   revision := current.id }, process)
          else if report.valid = false then
            reject_invalid faults process scope candidate report
          else
            match keep_secrets server faults process scope candidate with
            | (.error err, process) => (.error err, process)
            | (.ok (), process) =>
              (.ok { applied := true, content_sha256 := candidate.ledger_sha,
                     revision := current.id, warnings := report.warnings }, process)
        | none =>
          if report.valid = false then
            reject_invalid faults process scope candidate report
          else
            let diff := ConfigDiff.compute server process.secrets.vault process.effective
              candidate.merged
            match keep_secrets server faults process scope candidate with
            | (.error err, kept) => (.error err, kept)
            | (.ok (), kept) =>
              swap_and_record server faults process.effective kept scope candidate diff
                report.warnings

/-- Apply the second-newest applied revision again. -/
def rollback (server : Server) (fault : Option String) (faults : Faults) (process : Process)
    (scope : ApplyScope) : Except ApplyError ApplyResponse × Process :=
  match fault with
  | some err => (.error (.Failed err), process)
  | none =>
    match previous_applied_config_revision process.ledger scope.ledger_stream with
    | none => (.error .NothingToRollBackTo, process)
    | some previous => apply_document server faults process scope previous.content none

end xrelease.config_apply
