-- Who changes the desired state (`api/auth.rs`, `api/mod.rs`, `api/oidc.rs`): what a request to
-- apply or to roll back passes before it gets to the store, and whose rows the ledger has after any
-- requests. Reloads and edits of the files need no caller; a reload also comes by signal.
import Xrelease.History
import Xrelease.Sessions

namespace xrelease.guarded

open xrelease.config xrelease.config_apply xrelease.outcomes xrelease.requests xrelease.history
  xrelease.api text trace
open xrelease.auth (AuthPrincipal Jwt Headers OidcValidator UserStore Layer bearer_token
  resolve_auth_principal authorize_for_org scope_satisfied)

/-! ## The gates -/

/-- `ApiError`, of both kinds of checks. -/
inductive Refusal where
  | Config (error : ApiError)
  | Auth (error : auth.ApiError)

/-- What stays the same for every caller. -/
structure Gate where
  jwt : Jwt
  api : ApiConfig
  /-- The HMAC-SHA256 of a body under a secret, in hexadecimal digits. -/
  hmac_hex : String → String → String

/-- Who calls, and when: the keys and the directory are those of the moment. -/
structure Caller where
  headers : Headers
  /-- The header `X-Config-Signature`. -/
  signature : HeaderText
  now : Nat
  oidc : Option OidcValidator
  store : UserStore

/-- `ConfigApiConfig::apply_secret`. -/
def apply_secret (server : Server) (process : Process) : Option String :=
  env_token server.setup.env process.secrets.vault "XRELEASE_CONFIG_APPLY_SECRET"

/-- The HMAC of the body, when a secret is configured. -/
def verify_config_signature (gate : Gate) (caller : Caller) (secret : Option String)
    (body : String) : Except auth.ApiError Unit :=
  match secret.filter (· ≠ "") with
  | none => .ok ()
  | some secret =>
    match caller.signature with
    | .Absent => .error (.Unauthorized "missing X-Config-Signature")
    | .Unreadable => .error (.Unauthorized "invalid signature header")
    | .Text header =>
      match strip_prefix_of "sha256=" header with
      | none => .error (.Unauthorized "invalid signature format")
      | some digest_hex =>
        if digest_hex = gate.hmac_hex secret body then .ok ()
        else .error (.Unauthorized "signature mismatch")

/-- `OidcValidator::validate_token_with_extra_scope`. -/
def validate_token_with_extra_scope (validator : OidcValidator) (jwt : Jwt) (now : Nat)
    (token extra_scope : String) : Except String Unit :=
  match validator.validate_token_claims jwt now token with
  | .error e => .error e
  | .ok claims =>
    if scope_satisfied claims extra_scope then .ok ()
    else .error s!"token missing required scope `{extra_scope}`"

/-- The scope that an OIDC token needs for an apply. -/
def check_apply_scope (gate : Gate) (bootstrap : Config) (caller : Caller)
    (principal : AuthPrincipal) : Except auth.ApiError Unit :=
  match principal with
  | .Oidc _ _ _ =>
    match bootstrap.config_api.apply_scope.filter (· ≠ "") with
    | none => .ok ()
    | some scope =>
      match bearer_token caller.headers with
      | none => .error (.Unauthorized "missing bearer token")
      | some token =>
        match caller.oidc with
        | none => .error (.Unauthorized "OIDC required for apply_scope")
        | some validator =>
          (validate_token_with_extra_scope validator gate.jwt caller.now token scope).mapError
            .Unauthorized
  | _ => .ok ()

/-- Bearer, role for the target, scope and signature of the body. -/
def require_config_apply_auth (gate : Gate) (server : Server) (process : Process)
    (caller : Caller) (body : String) (organization : Option String) :
    Except Refusal AuthPrincipal := do
  (require_config_apply server.bootstrap).mapError .Config
  let principal ← (resolve_auth_principal gate.jwt caller.now caller.headers gate.api caller.oidc
    caller.store).mapError .Auth
  (authorize_for_org principal .Admin organization).mapError .Auth
  (check_apply_scope gate server.bootstrap caller principal).mapError .Auth
  (verify_config_signature gate caller (apply_secret server process) body).mapError .Auth
  return principal

/-- A layer of the router. -/
def layered (gate : Gate) (caller : Caller) (layer : Layer) : Except Refusal Unit :=
  (layer.admits gate.jwt caller.now caller.headers gate.api caller.oidc caller.store).mapError .Auth

/-- What a request passes before it may do what its event says; the principal, where it is asked
for one. -/
def admitted (gate : Gate) (server : Server) (w : World) (caller : Caller) (event : Event) :
    Except Refusal (Option AuthPrincipal) :=
  match event with
  | .Apply _ _ raw _ => do
    layered gate caller .require_operator_auth
    some <$> require_config_apply_auth gate server w.state.process caller raw none
  | .Rollback _ => do
    layered gate caller .require_operator_auth
    some <$> require_config_apply_auth gate server w.state.process caller "" none
  | .OrgApply _ org_id _ raw _ => do
    layered gate caller .require_management_auth
    let org ← (require_organization server.bootstrap org_id).mapError .Config
    some <$> require_config_apply_auth gate server w.state.process caller raw (some org.id)
  | .OrgRollback _ org_id => do
    layered gate caller .require_management_auth
    let org ← (require_organization server.bootstrap org_id).mapError .Config
    some <$> require_config_apply_auth gate server w.state.process caller "" (some org.id)
  | .Edit _ _ | .Read | .Reload _ _ => .ok none

/-- A request, with who makes it. -/
structure Request where
  caller : Caller
  event : Event

/-- A request that is refused changes nothing. -/
def handle (gate : Gate) (server : Server) (path : String) (w : World) (request : Request) :
    World :=
  match admitted gate server w request.caller request.event with
  | .error _ => w
  | .ok _ => next server path w request.event

/-! ## Who is entitled -/

/-- The stream that a request is for, when it is to apply or to roll back. -/
def stream_of (server : Server) : Event → Option (Option String)
  | .Apply _ _ _ _ | .Rollback _ => some none
  | .OrgApply _ org_id _ _ _ | .OrgRollback _ org_id =>
    (require_organization server.bootstrap org_id).toOption.map (fun org => some org.id)
  | .Edit _ _ | .Read | .Reload _ _ => none

/-- The body of a request. -/
def body_of : Event → String
  | .Apply _ _ raw _ | .OrgApply _ _ _ raw _ => raw
  | _ => ""

/-- The caller may change the desired state of the stream, and has signed the body. -/
structure Entitled (gate : Gate) (server : Server) (process : Process) (caller : Caller)
    (body : String) (stream : Option String) (principal : AuthPrincipal) : Prop where
  resolved : resolve_auth_principal gate.jwt caller.now caller.headers gate.api caller.oidc
    caller.store = .ok principal
  admin : ∀ role, principal.role_for_org stream = some role → role = .Admin
  /-- Nobody has to authenticate where nothing is configured to do so with. -/
  unknown : principal.role_for_org stream = none → gate.api.api_key.all (· = "") = true ∧
    caller.oidc = none ∧ auth.session_key gate.api.local_auth = none
  scope : ∀ subject email roles scope, principal = .Oidc subject email roles →
    server.bootstrap.config_api.apply_scope = some scope → scope ≠ "" →
      ∃ token validator, bearer_token caller.headers = some token ∧
        caller.oidc = some validator ∧
        validate_token_with_extra_scope validator gate.jwt caller.now token scope = .ok ()
  signed : ∀ secret, apply_secret server process = some secret → secret ≠ "" →
    ∃ header, caller.signature = .Text header ∧
      strip_prefix_of "sha256=" header = some (gate.hmac_hex secret body)

theorem mapError_ok_iff {ε ε' α : Type} {f : ε → ε'} {x : Except ε α} {a : α} :
    x.mapError f = .ok a ↔ x = .ok a := by
  cases x <;> simp [Except.mapError]

theorem map_ok_iff {ε α β : Type} {f : α → β} {x : Except ε α} {b : β} :
    f <$> x = .ok b ↔ ∃ a, x = .ok a ∧ f a = b := by
  cases x <;> simp [Functor.map, Except.map]

variable {gate : Gate} {caller : Caller} {server : Server}

theorem anonymous_of_resolved
    (h : resolve_auth_principal gate.jwt caller.now caller.headers gate.api caller.oidc
      caller.store = .ok .Anonymous) :
    gate.api.api_key.all (· = "") = true ∧ caller.oidc = none ∧
      auth.session_key gate.api.local_auth = none := by
  unfold resolve_auth_principal at h
  dsimp only at h
  split at h
  · rename_i hnothing
    obtain ⟨hkey, hoidc, hsession⟩ := hnothing
    refine ⟨?_, hoidc, hsession⟩
    cases hapi : gate.api.api_key with
    | none => rfl
    | some key => simpa [hapi] using hkey
  · split at h
    · cases h
    · split at h
      · cases h
      · split at h
        · split at h
          · cases h
          · split at h <;> cases h
        · split at h <;> cases h

theorem admin_of_authorized {principal : AuthPrincipal} {organization : Option String}
    (h : authorize_for_org principal .Admin organization = .ok ()) {role : auth.AppRole}
    (hrole : principal.role_for_org organization = some role) : role = .Admin := by
  unfold authorize_for_org at h
  rw [hrole] at h
  dsimp only at h
  split at h
  · rename_i hallows
    cases role with
    | Admin => rfl
    | Viewer => cases hallows
    | Operator => cases hallows
  · split at h <;> cases h

theorem scope_of_checked {bootstrap : Config} {subject email : Option String}
    {roles : auth.ResolvedRoles} {scope : String}
    (h : check_apply_scope gate bootstrap caller (.Oidc subject email roles) = .ok ())
    (hscope : bootstrap.config_api.apply_scope = some scope) (hne : scope ≠ "") :
    ∃ token validator, bearer_token caller.headers = some token ∧
      caller.oidc = some validator ∧
      validate_token_with_extra_scope validator gate.jwt caller.now token scope = .ok () := by
  unfold check_apply_scope at h
  rw [hscope] at h
  simp only [ne_eq, hne, not_false_eq_true, Option.filter_some, decide_true, if_true] at h
  split at h
  · cases h
  · rename_i token htoken
    split at h
    · cases h
    · rename_i validator hvalidator
      exact ⟨token, validator, htoken, hvalidator, mapError_ok_iff.mp h⟩

theorem signed_of_verified {secret body : String} {configured : Option String}
    (h : verify_config_signature gate caller configured body = .ok ())
    (hsecret : configured = some secret) (hne : secret ≠ "") :
    ∃ header, caller.signature = .Text header ∧
      strip_prefix_of "sha256=" header = some (gate.hmac_hex secret body) := by
  unfold verify_config_signature at h
  rw [hsecret] at h
  simp only [ne_eq, hne, not_false_eq_true, Option.filter_some, decide_true, if_true] at h
  split at h
  · cases h
  · cases h
  · rename_i header hheader
    split at h
    · cases h
    · rename_i digest_hex hprefix
      split at h
      · rename_i hdigest
        exact ⟨header, hheader, hdigest ▸ hprefix⟩
      · cases h

theorem entitled_of_required {process : Process} {body : String} {organization : Option String}
    {principal : AuthPrincipal}
    (h : require_config_apply_auth gate server process caller body organization = .ok principal) :
    Entitled gate server process caller body organization principal := by
  unfold require_config_apply_auth at h
  simp only [bind_ok_iff, mapError_ok_iff, pure, Except.pure, Except.ok.injEq] at h
  obtain ⟨⟨⟩, -, found, hfound, ⟨⟩, hadmin, ⟨⟩, hscope, ⟨⟩, hsigned, rfl⟩ := h
  refine ⟨hfound, fun role => admin_of_authorized hadmin, ?_, ?_,
    fun secret => signed_of_verified hsigned⟩
  · intro hnone
    cases found with
    | Anonymous => exact anonymous_of_resolved hfound
    | ApiKey => cases hnone
    | Local _ _ role => cases hnone
    | Oidc _ _ roles => cases hnone
  · rintro subject email roles scope rfl
    exact scope_of_checked hscope

/-- A request that is let through comes from somebody who is entitled to its stream. -/
theorem entitled_of_admitted {w : World} {event : Event} {asked : Option AuthPrincipal}
    {stream : Option String} (h : admitted gate server w caller event = .ok asked)
    (hstream : stream_of server event = some stream) :
    ∃ principal, Entitled gate server w.state.process caller (body_of event) stream principal := by
  cases event with
  | Apply faults if_match raw hint =>
    obtain rfl := Option.some.inj hstream
    simp only [admitted, bind_ok_iff, map_ok_iff] at h
    obtain ⟨-, -, principal, hrequired, -⟩ := h
    exact ⟨principal, entitled_of_required hrequired⟩
  | Rollback faults =>
    obtain rfl := Option.some.inj hstream
    simp only [admitted, bind_ok_iff, map_ok_iff] at h
    obtain ⟨-, -, principal, hrequired, -⟩ := h
    exact ⟨principal, entitled_of_required hrequired⟩
  | OrgApply faults org_id if_match raw hint =>
    simp only [admitted, bind_ok_iff, map_ok_iff, mapError_ok_iff] at h
    obtain ⟨-, -, org, horg, principal, hrequired, -⟩ := h
    simp only [stream_of, horg, Except.toOption, Option.map_some, Option.some.injEq] at hstream
    obtain rfl := hstream
    exact ⟨principal, entitled_of_required hrequired⟩
  | OrgRollback faults org_id =>
    simp only [admitted, bind_ok_iff, map_ok_iff, mapError_ok_iff] at h
    obtain ⟨-, -, org, horg, principal, hrequired, -⟩ := h
    simp only [stream_of, horg, Except.toOption, Option.map_some, Option.some.injEq] at hstream
    obtain rfl := hstream
    exact ⟨principal, entitled_of_required hrequired⟩
  | Edit app text => cases hstream
  | Read => cases hstream
  | Reload index fault => cases hstream

theorem stream_of_organization {org_id : String} {org : OrganizationConfig}
    (h : org_rollback_checks server org_id = .ok org) :
    (require_organization server.bootstrap org_id).toOption.map (fun org => some org.id) =
      some (some org.id) := by
  rw [(org_rollback_checks_ok h).1]
  rfl

/-- A call is for the stream that its request names. -/
theorem stream_of_attempt {w : World} {event : Event} {a : Attempt}
    (h : attempt server w event = some a) :
    stream_of server event = some a.scope.ledger_stream := by
  cases event with
  | Apply faults if_match raw hint =>
    simp only [attempt] at h
    split at h
    · obtain rfl := Option.some.inj h
      rfl
    · cases h
  | Rollback faults =>
    simp only [attempt] at h
    split at h
    · rw [rolled_back_scope h]
      rfl
    · cases h
  | OrgApply faults org_id if_match raw hint =>
    simp only [attempt] at h
    split at h
    · rename_i org hchecks
      unfold org_apply_checks at hchecks
      simp only [bind_ok_iff, pure, Except.pure, Except.ok.injEq] at hchecks
      obtain ⟨_, horg, _, -, _, -, rfl⟩ := hchecks
      obtain rfl := Option.some.inj h
      exact stream_of_organization horg
    · cases h
  | OrgRollback faults org_id =>
    simp only [attempt] at h
    split at h
    · rename_i org hchecks
      rw [rolled_back_scope h]
      exact stream_of_organization hchecks
    · cases h
  | Edit app text => cases h
  | Read => cases h
  | Reload index fault => cases h

/-! ## The law -/

/-- The row was added by a request that was entitled to its stream. -/
def PushedBy (gate : Gate) (server : Server) (path : String) (w : World) (requests : List Request)
    (row : ConfigRevision) : Prop :=
  ∃ before request after principal, requests = before ++ request :: after ∧
    stream_of server request.event = some row.organization_id ∧
    Entitled gate server (run (handle gate server path) w before).state.process request.caller
      (body_of request.event) row.organization_id principal ∧
    (run (handle gate server path) w (before ++ [request])).state.process.ledger =
      (run (handle gate server path) w before).state.process.ledger ++ [row]

theorem handle_row (gate : Gate) (server : Server) (path : String) (w : World)
    (request : Request) :
    (handle gate server path w request).state.process.ledger = w.state.process.ledger ∨
    ∃ row principal, stream_of server request.event = some row.organization_id ∧
      Entitled gate server w.state.process request.caller (body_of request.event)
        row.organization_id principal ∧
      (handle gate server path w request).state.process.ledger =
        w.state.process.ledger ++ [row] := by
  unfold handle
  cases hadmitted : admitted gate server w request.caller request.event with
  | error refusal => exact Or.inl rfl
  | ok asked =>
    rcases next_row server path w request.event with hsame | ⟨a, row, hattempt, hrow, hnext⟩
    · exact Or.inl hsame
    · have hstream := stream_of_attempt hattempt
      rw [← hnext.stream] at hstream
      obtain ⟨principal, hentitled⟩ := entitled_of_admitted hadmitted hstream
      exact Or.inr ⟨row, principal, hstream, hentitled, hrow⟩

theorem PushedBy.later {path : String} {w : World} {request : Request} {rest : List Request}
    {row : ConfigRevision}
    (h : PushedBy gate server path (handle gate server path w request) rest row) :
    PushedBy gate server path w (request :: rest) row := by
  obtain ⟨before, found, after, principal, rfl, hstream, hentitled, hrow⟩ := h
  exact ⟨request :: before, found, after, principal, rfl, hstream, hentitled, hrow⟩

/-- Whatever requests come, from whomever: each row that they add to the ledger was pushed by a
caller who is an admin for its stream, with the scope that an apply needs, over the signature of
the body. -/
theorem every_row_is_pushed_by_an_admin (gate : Gate) (server : Server) (path : String)
    (w : World) (requests : List Request) :
    ∃ rows, (run (handle gate server path) w requests).state.process.ledger =
        w.state.process.ledger ++ rows ∧
      ∀ row ∈ rows, PushedBy gate server path w requests row := by
  induction requests generalizing w with
  | nil => exact ⟨[], (List.append_nil _).symm, by simp⟩
  | cons request rest ih =>
    obtain ⟨rows, hrun, hrows⟩ := ih (handle gate server path w request)
    rcases handle_row gate server path w request with
      hsame | ⟨row, principal, hstream, hentitled, hrow⟩
    · refine ⟨rows, ?_, fun row hmem => (hrows row hmem).later⟩
      rw [run_cons, hrun, hsame]
    · refine ⟨row :: rows, ?_, ?_⟩
      · rw [run_cons, hrun, hrow, List.append_assoc, List.singleton_append]
      · intro found hfound
        rcases List.mem_cons.mp hfound with rfl | hrest
        · exact ⟨[], request, rest, principal, rfl, hstream, hentitled, hrow⟩
        · exact (hrows found hrest).later

end xrelease.guarded
