-- Who is calling (`api/session.rs`, `api/oidc.rs`, `api/auth.rs`): session tokens, OIDC bearer
-- tokens, and the gates in front of the management routes. Signatures, JSON and the reading of
-- a token are `jsonwebtoken`'s; the directory is asked for the row behind a session.
import Xrelease.Desired
import Xrelease.Roles
import Xrelease.Users

namespace xrelease.auth

open text keyed xrelease.config xrelease.users

/-- Every error that the handlers of users and sessions can return. -/
inductive ApiError where
  | Unauthorized (message : String)
  | Forbidden (message : String)
  | BadRequest (message : String)
  | NotFound (message : String)
  | Conflict (message : String)
  | ServiceUnavailable (message : String)
  | Internal (message : String)
deriving DecidableEq

/-- `impl From<StoreError> for ApiError`. -/
def ApiError.of_store (err : StoreError) : ApiError :=
  match err with
  | .PollerBusy => .Conflict err.to_string
  | .Pool _ => .ServiceUnavailable err.to_string
  | .Postgres _ => .Internal err.to_string
  | .Other _ => .Internal err.to_string

/-! ## Tokens -/

inductive Algorithm where
  | HS256 | HS384 | HS512 | ES256 | ES384 | RS256 | RS384 | RS512 | PS256 | PS384 | PS512 | EdDSA
deriving DecidableEq

/-- The `Debug` text of an algorithm. -/
def Algorithm.debug : Algorithm → String
  | HS256 => "HS256"
  | HS384 => "HS384"
  | HS512 => "HS512"
  | ES256 => "ES256"
  | ES384 => "ES384"
  | RS256 => "RS256"
  | RS384 => "RS384"
  | RS512 => "RS512"
  | PS256 => "PS256"
  | PS384 => "PS384"
  | PS512 => "PS512"
  | EdDSA => "EdDSA"

structure JwtHeader where
  alg : Algorithm
  kid : Option String
deriving DecidableEq

structure Jwk where
  key_id : Option String
  key_algorithm : Option String
  material : String
deriving DecidableEq

/-- What a decoded token is checked for, besides its signature. -/
structure Validation where
  algorithm : Algorithm
  issuers : List String := []
  audience : List String := []
  validate_exp : Bool := true
  validate_nbf : Bool := false
  validate_aud : Bool := true
deriving DecidableEq

structure SessionClaims where
  sub : String
  iss : String
  /-- Discriminator so OIDC tokens are never accepted as sessions. -/
  typ : String
  uid : Int
  role : AppRole
  username : String
  /-- Session epoch the token was issued under. -/
  ver : Int
  exp : Nat
  iat : Nat
deriving DecidableEq

/-- `jsonwebtoken`: a header is read, claims are signed, and a token is read under a key, given
the clock. -/
structure Jwt where
  decode_header : String → Except String JwtHeader
  /-- `encode` with HS256 under a secret. -/
  encode : String → SessionClaims → Except String String
  /-- `decode::<SessionClaims>` under a secret. -/
  decode_session : String → Validation → Nat → String → Except String SessionClaims
  /-- `DecodingKey::from_jwk`. -/
  from_jwk : Jwk → Except String String
  /-- `decode::<serde_json::Value>` under a public key. -/
  decode : String → Validation → Nat → String → Except String Value

/-- What `jsonwebtoken` documents: `decode` accepts only tokens whose header names the algorithm
asked for, and reads back the claims that `encode` signed. -/
structure Jwt.Documented (jwt : Jwt) : Prop where
  algorithm : ∀ {secret v now token claims}, jwt.decode_session secret v now token = .ok claims →
    ∃ header, jwt.decode_header token = .ok header ∧ header.alg = v.algorithm
  reads_back : ∀ {secret v now token claims claims'}, jwt.encode secret claims = .ok token →
    jwt.decode_session secret v now token = .ok claims' → claims' = claims

def SESSION_ISS : String := "xrelease"

def SESSION_TYP : String := "session"

/-- `saturating_add` on `u64`. -/
def saturating_add (a b : Nat) : Nat := min (a + b) (2 ^ 64 - 1)

/-- The claims of a session token for a local user. -/
def session_claims (now : Nat) (user_id : Int) (username : String) (role : AppRole)
    (session_version : Int) (ttl_secs : Nat) : SessionClaims where
  sub := s!"local:{user_id}"
  iss := SESSION_ISS
  typ := SESSION_TYP
  uid := user_id
  role := role
  username := username
  ver := session_version
  iat := now
  exp := saturating_add now (max ttl_secs 60)

/-- Issue a session JWT for a local user. -/
def issue_session_token (jwt : Jwt) (now : Nat) (secret : String) (user_id : Int)
    (username : String) (role : AppRole) (session_version : Int) (ttl_secs : Nat) :
    Except String (String × Nat) :=
  match jwt.encode secret (session_claims now user_id username role session_version ttl_secs) with
  | .ok token => .ok (token, max ttl_secs 60)
  | .error e => .error e

/-- Validate a session JWT and return its claims. -/
def validate_session_token (jwt : Jwt) (now : Nat) (secret token : String) :
    Except String SessionClaims :=
  match jwt.decode_session secret { algorithm := .HS256, issuers := [SESSION_ISS] } now token with
  | .error e => .error e
  | .ok claims =>
    if claims.typ ≠ SESSION_TYP then .error "not a session token"
    else if claims.username = "" ∨ claims.uid ≤ 0 then .error "invalid session claims"
    else .ok claims

theorem of_validate_session_token {jwt : Jwt} {now : Nat} {secret token : String}
    {claims : SessionClaims} (h : validate_session_token jwt now secret token = .ok claims) :
    jwt.decode_session secret { algorithm := .HS256, issuers := [SESSION_ISS] } now token =
      .ok claims := by
  unfold validate_session_token at h
  split at h
  · simp at h
  · rename_i c hc
    split at h
    · simp at h
    · split at h
      · simp at h
      · rw [hc, ← h]

/-! ## OIDC tokens -/

/-- Cached JWKS validator for OIDC access tokens presented as Bearer credentials. -/
structure OidcValidator where
  issuer : String
  audiences : List String
  required_scope : Option String
  jwks : List Jwk
deriving DecidableEq

def FORBIDDEN_ALGORITHMS : List String := ["none"]

def forbidden_alg_in_decode_error (msg : String) : Bool :=
  FORBIDDEN_ALGORITHMS.any (fun alg => contains s!"unknown variant `{alg}`" msg)

/-- `u8::is_ascii_whitespace`: space, tab, line feed, form feed and carriage return. -/
def is_ascii_whitespace (c : Char) : Bool :=
  [0x20, 0x09, 0x0A, 0x0C, 0x0D].contains c.toNat

/-- `str::split_ascii_whitespace`. -/
def split_ascii_whitespace (s : String) : List String :=
  ((split is_ascii_whitespace s.toList).map String.ofList).filter (· ≠ "")

/-- Whether the claims carry `required` as a scope, in `scope` or in `scp`. -/
def scope_satisfied (claims : Value) (required : String) : Bool :=
  (((claims.get "scope").bind Value.as_str).any (fun scope =>
      (split_ascii_whitespace scope).contains required)) ||
    (((claims.get "scp").bind Value.as_array).any (fun scp =>
      scp.any (fun v => v.as_str = some required)))

def find_verification_jwk (jwks : List Jwk) (kid : Option String) (alg : String) : Option Jwk :=
  match kid with
  | some kid => jwks.find? (fun key => key.key_id = some kid)
  | none => (jwks.find? (fun key => key.key_algorithm = some alg)).or jwks.head?

/-- The algorithms an OIDC token may name. -/
def rsa (alg : Algorithm) : Bool := alg = .RS256 ∨ alg = .RS384 ∨ alg = .RS512

namespace OidcValidator

def validation (validator : OidcValidator) (algorithm : Algorithm) : Validation where
  algorithm := algorithm
  issuers := [validator.issuer, s!"{validator.issuer}/"]
  audience := validator.audiences
  validate_nbf := true
  validate_aud := validator.audiences ≠ []

def decode_and_validate (validator : OidcValidator) (jwt : Jwt) (now : Nat) (token : String) :
    Except String Value :=
  match jwt.decode_header token with
  | .error msg =>
    if forbidden_alg_in_decode_error msg then .error "forbidden JWT algorithm: none"
    else .error msg
  | .ok header =>
    if FORBIDDEN_ALGORITHMS.any (fun forbidden => lower header.alg.debug = lower forbidden) then
      .error s!"forbidden JWT algorithm: {header.alg.debug}"
    else if ¬ rsa header.alg then .error s!"unsupported JWT algorithm: {header.alg.debug}"
    else if validator.jwks = [] then
      .error ("JWKS cache is empty (identity provider unreachable); " ++ "retrying in background")
    else
      match find_verification_jwk validator.jwks header.kid header.alg.debug with
      | none => .error "no matching JWK"
      | some jwk =>
        match jwt.from_jwk jwk with
        | .error err => .error s!"invalid JWK: {err}"
        | .ok key => jwt.decode key (validator.validation header.alg) now token

def validate_token_claims (validator : OidcValidator) (jwt : Jwt) (now : Nat) (token : String) :
    Except String Value :=
  match validator.decode_and_validate jwt now token with
  | .error e => .error e
  | .ok claims =>
    match validator.required_scope with
    | none => .ok claims
    | some required =>
      if scope_satisfied claims required then .ok claims
      else .error s!"token missing required scope `{required}`"

/-- A token that the validator accepts names one of the RSA algorithms. -/
theorem names_rsa {validator : OidcValidator} {jwt : Jwt} {now : Nat} {token : String}
    {claims : Value} (h : validator.validate_token_claims jwt now token = .ok claims) :
    ∃ header, jwt.decode_header token = .ok header ∧ rsa header.alg = true := by
  unfold validate_token_claims at h
  split at h
  · simp at h
  · rename_i c hc
    unfold decode_and_validate at hc
    split at hc
    · split at hc <;> simp at hc
    · rename_i header hheader
      refine ⟨header, hheader, ?_⟩
      split at hc
      · simp at hc
      · split at hc
        · simp at hc
        · rename_i hrsa
          simpa using hrsa

end OidcValidator

/-! ## The caller -/

/-- The request's `Authorization` header, when it is text. -/
structure Headers where
  authorization : Option String
deriving DecidableEq

def bearer_token (headers : Headers) : Option String :=
  headers.authorization.bind (strip_prefix_of "Bearer ")

/-- Reject with 401 when the bearer API key does not match. -/
def require_api_key (headers : Headers) (expected : Option String) : Except ApiError Unit :=
  match expected with
  | none => .ok ()
  | some expected =>
    if expected = "" then .ok ()
    else if (bearer_token headers).getD "" = expected then .ok ()
    else .error (.Unauthorized "invalid or missing API key")

/-- Who performed an authenticated request, as established by the server. -/
inductive AuthPrincipal where
  | ApiKey
  | Local (user_id : Int) (username : String) (role : AppRole)
  | Oidc (subject : Option String) (email : Option String) (roles : ResolvedRoles)
  | Anonymous

/-- Effective role for a target organization (`none` = instance-wide). -/
def AuthPrincipal.role_for_org (principal : AuthPrincipal) (organization : Option String) :
    Option AppRole :=
  match principal with
  | ApiKey => some .Admin
  | Local _ _ role => some role
  | Oidc _ _ roles => some (roles.for_org organization)
  | Anonymous => none

/-- A text claim, unless it is empty. -/
def text_claim (claims : Value) (key : String) : Option String :=
  ((claims.get key).bind Value.as_str).filter (· ≠ "")

/-- The roles that the token's claims grant under the configured names. -/
def roles_of (oidc : OidcConfig) (claims : Value) : ResolvedRoles :=
  resolve_resolved_roles (claim_strings claims oidc.role_claim) oidc.role_admin oidc.role_operator
    oidc.role_viewer ((AppRole.parse oidc.default_role).getD .Viewer)

/-- `LocalAuthConfig::session_secret`: a blank secret is none. -/
def session_secret (local_auth : LocalAuthConfig) : Option String :=
  local_auth.session_secret.filter (· ≠ "")

/-- `enabled.then(|| session_secret.clone()).flatten()`. -/
def session_key (local_auth : LocalAuthConfig) : Option String :=
  if local_auth.enabled then local_auth.session_secret else none

/-- The store of users as one request sees it: a directory, unless it cannot be reached. -/
abbrev UserStore := Except StoreError Directory

/-- Establish who is calling: API key, local session, OIDC, or anonymous. -/
def resolve_auth_principal (jwt : Jwt) (now : Nat) (headers : Headers) (api : ApiConfig)
    (oidc : Option OidcValidator) (store : UserStore) : Except ApiError AuthPrincipal :=
  let api_key_configured := api.api_key.any (· ≠ "")
  let secret := session_key api.local_auth
  if ¬ api_key_configured ∧ oidc = none ∧ secret = none then .ok .Anonymous
  else
    match bearer_token headers with
    | none => .error (.Unauthorized "missing bearer token")
    | some provided =>
      if api_key_configured ∧ require_api_key headers api.api_key = .ok () then .ok .ApiKey
      else
        match secret.bind (fun secret => (validate_session_token jwt now secret provided).toOption) with
        | some claims =>
          match store with
          | .error e => .error (ApiError.of_store e)
          | .ok directory =>
            -- the version of the row must still be the one the token was issued under
            if (directory.get_user_by_id claims.uid).map (fun user => user.session_version) =
                some claims.ver then
              .ok (.Local claims.uid claims.username claims.role)
            else .error (.Unauthorized "session has been revoked")
        | none =>
          match oidc.bind (fun validator =>
            (validator.validate_token_claims jwt now provided).toOption) with
          | some claims =>
            .ok (.Oidc (text_claim claims "sub") (text_claim claims "email")
              (roles_of api.oidc claims))
          | none => .error (.Unauthorized "invalid bearer token")

/-- A local principal: its token reads under the configured secret, and its claims name the version
that the row still has. -/
theorem of_resolve_local {jwt : Jwt} {now : Nat} {headers : Headers} {api : ApiConfig}
    {oidc : Option OidcValidator} {d : Directory} {uid : Int} {username : String} {role : AppRole}
    (h : resolve_auth_principal jwt now headers api oidc (.ok d) = .ok (.Local uid username role)) :
    ∃ secret token claims user, api.local_auth.session_secret = some secret ∧
      bearer_token headers = some token ∧
      validate_session_token jwt now secret token = .ok claims ∧ claims.uid = uid ∧
      claims.role = role ∧ d.get_user_by_id uid = some user ∧ user.session_version = claims.ver := by
  unfold resolve_auth_principal at h
  dsimp only at h
  split at h
  · simp at h
  · split at h
    · simp at h
    · rename_i token htoken
      split at h
      · simp at h
      · split at h
        · rename_i claims hclaims
          split at h
          · rename_i hver
            obtain ⟨secret, hsecret, hvalid⟩ := Option.bind_eq_some_iff.mp hclaims
            obtain ⟨user, huser, hsame⟩ := Option.map_eq_some_iff.mp hver
            obtain ⟨rfl, -, rfl⟩ := AuthPrincipal.Local.inj (Except.ok.inj h)
            refine ⟨secret, token, claims, user, ?_, htoken, ?_, rfl, rfl, huser, hsame⟩
            · unfold session_key at hsecret
              split at hsecret
              · exact hsecret
              · simp at hsecret
            · cases hv : validate_session_token jwt now secret token with
              | error e =>
                rw [hv] at hvalid
                simp [Except.toOption] at hvalid
              | ok c =>
                rw [hv] at hvalid
                simp only [Except.toOption, Option.some.injEq] at hvalid
                rw [hvalid]
          · simp at h
        · split at h <;> simp at h

/-! ## The gates -/

/-- Enforce a minimum role, for one organization or instance-wide. -/
def authorize_for_org (principal : AuthPrincipal) (minimum : AppRole)
    (organization : Option String) : Except ApiError Unit :=
  match principal.role_for_org organization with
  | none => .ok ()
  | some role =>
    if role.allows minimum then .ok ()
    else
      match organization with
      | some org => .error (.Forbidden (s!"role `{role.as_str}` on organization `{org}` is not " ++
          s!"permitted here (requires `{minimum.as_str}` or higher)"))
      | none => .error (.Forbidden (s!"role `{role.as_str}` is not permitted here " ++
          s!"(requires `{minimum.as_str}` or higher)"))

def authorize (principal : AuthPrincipal) (minimum : AppRole) : Except ApiError Unit :=
  authorize_for_org principal minimum none

/-- The layers of the router that stand in front of the management routes: reads and the routes
of an organization, mutations, and the user directory. -/
inductive Layer where
  | require_management_auth
  | require_operator_auth
  | require_admin_auth
deriving DecidableEq

/-- Whether the layer lets the request through. -/
def Layer.admits (layer : Layer) (jwt : Jwt) (now : Nat) (headers : Headers) (api : ApiConfig)
    (oidc : Option OidcValidator) (store : UserStore) : Except ApiError Unit :=
  match resolve_auth_principal jwt now headers api oidc store with
  | .error e => .error e
  | .ok principal =>
    match layer with
    | require_management_auth => .ok ()
    | require_operator_auth => authorize principal .Operator
    | require_admin_auth => authorize principal .Admin

end xrelease.auth
