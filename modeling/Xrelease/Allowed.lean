-- The law of the allow-list: with `auto_create_users = false` the sync of an identity that no
-- account stands for is refused, but no other route looks the identity up. Every token the
-- validator accepts authenticates.
import Xrelease.Accounts

namespace xrelease.allowed

open text keyed xrelease.config xrelease.users xrelease.auth calls calls.Prog

/-! ## What the allow-list promises -/

/-- Nobody in the directory is meant: no account has the token's subject, and no local account is
linkable to its verified address. -/
structure Unresolved (lower : String → String) (d : Directory) (claims : Value) : Prop where
  subject : ∀ sub, text_claim claims "sub" = some sub → d.get_user_by_oidc_sub sub = none
  address : Server.email_verified claims = true → ∀ email, text_claim claims "email" = some email →
    Directory.find_linkable_local_user_by_email lower d email = none

/-- The request is turned away: it establishes no principal, and no layer lets it through. -/
structure Rejected (jwt : Jwt) (now : Nat) (headers : Headers) (api : ApiConfig)
    (oidc : Option OidcValidator) (store : UserStore) : Prop where
  principal : ∀ principal, resolve_auth_principal jwt now headers api oidc store = .ok principal →
    principal = .Anonymous
  layers : ∀ layer : Layer, layer.admits jwt now headers api oidc store ≠ .ok ()

/-- The request bears a token that the validator accepts, with these claims. -/
structure Accepted (jwt : Jwt) (now : Nat) (headers : Headers) (validator : OidcValidator)
    (claims : Value) : Prop where
  token : ∃ token, bearer_token headers = some token ∧
    validator.validate_token_claims jwt now token = .ok claims

/-- A token that only authenticates if it already resolves to a row. -/
def AllowListEnforced : Prop :=
  ∀ (jwt : Jwt) (lower : String → String) (now : Nat) (headers : Headers) (api : ApiConfig)
    (validator : OidcValidator) (d : Directory) (claims : Value), jwt.Documented →
    api.oidc.auto_create_users = false → Accepted jwt now headers validator claims →
    Unresolved lower d claims → Rejected jwt now headers api (some validator) (.ok d)

/-! ## What the code does -/

/-- A token that the validator accepts is no session: the two name different algorithms. -/
theorem no_session_token {jwt : Jwt} (hjwt : jwt.Documented) {now : Nat} {token secret : String}
    {validator : OidcValidator} {claims : Value}
    (h : validator.validate_token_claims jwt now token = .ok claims) :
    (validate_session_token jwt now secret token).toOption = none := by
  cases hs : validate_session_token jwt now secret token with
  | error e => rfl
  | ok session =>
    obtain ⟨header, hheader, hrsa⟩ := validator.names_rsa h
    obtain ⟨header', hheader', halg⟩ := hjwt.algorithm (of_validate_session_token hs)
    rw [hheader] at hheader'
    obtain rfl := Except.ok.inj hheader'
    rw [halg] at hrsa
    simp [rsa] at hrsa

/-- Every accepted token establishes a principal: the API key's, or the one of its own claims. -/
theorem accepted_authenticates {jwt : Jwt} (hjwt : jwt.Documented) {now : Nat} {headers : Headers}
    (api : ApiConfig) {validator : OidcValidator} (store : UserStore) {claims : Value}
    (h : Accepted jwt now headers validator claims) :
    resolve_auth_principal jwt now headers api (some validator) store = .ok .ApiKey ∨
      resolve_auth_principal jwt now headers api (some validator) store =
        .ok (.Oidc (text_claim claims "sub") (text_claim claims "email")
          (roles_of api.oidc claims)) := by
  obtain ⟨token, htoken, hvalid⟩ := h.token
  unfold resolve_auth_principal
  dsimp only
  rw [if_neg (by simp), htoken]
  dsimp only
  split
  · exact Or.inl rfl
  · right
    have hsession : ∀ secret : Option String, secret.bind (fun secret =>
        (validate_session_token jwt now secret token).toOption) = none := by
      intro secret
      cases secret with
      | none => rfl
      | some secret => exact no_session_token hjwt hvalid
    rw [hsession]
    simp only [Option.bind_some, hvalid, Except.toOption]

/-- The allow-list is asked by no route: whatever the directory holds, a token the validator
accepts is let in. -/
theorem no_accepted_token_is_rejected {jwt : Jwt} (hjwt : jwt.Documented)
    (lower : String → String) (now : Nat) (headers : Headers) (api : ApiConfig)
    (validator : OidcValidator) (d : Directory) (claims : Value)
    (_ : api.oidc.auto_create_users = false) (h : Accepted jwt now headers validator claims)
    (_ : Unresolved lower d claims) :
    ¬ Rejected jwt now headers api (some validator) (.ok d) := by
  intro hr
  rcases accepted_authenticates hjwt api (.ok d) h with heq | heq
  · exact absurd (hr.principal _ heq) (by simp)
  · exact absurd (hr.principal _ heq) (by simp)

/-! ## A token of nobody -/

/-- A library that knows one token, signed by the issuer's key. -/
def one_token : Jwt where
  decode_header := fun token => if token = "t" then .ok ⟨.RS256, none⟩ else .error "InvalidToken"
  encode := fun _ _ => .error "no key"
  decode_session := fun _ _ _ _ => .error "InvalidAlgorithm"
  from_jwk := fun jwk => .ok jwk.material
  decode := fun _ _ _ token =>
    if token = "t" then .ok (.Object [("sub", .Str "stranger")]) else .error "InvalidToken"

theorem one_token_documented : one_token.Documented where
  algorithm := by
    intro secret v now token claims h
    simp [one_token] at h
  reads_back := by
    intro secret v now token claims claims' h
    simp [one_token] at h

def bearing_t : Headers := ⟨some "Bearer t"⟩

def issuer : OidcValidator := ⟨"https://idp", [], none, [⟨none, some "RS256", "key"⟩]⟩

def listed_only : ApiConfig := { oidc := { auto_create_users := false } }

theorem stranger_accepted :
    Accepted one_token 0 bearing_t issuer (.Object [("sub", .Str "stranger")]) := by
  refine ⟨"t", by decide +kernel, ?_⟩
  rfl

theorem stranger_unresolved (lower : String → String) :
    Unresolved lower Directory.empty (.Object [("sub", .Str "stranger")]) where
  subject := fun _ _ => rfl
  address := by
    intro h
    simp [Server.email_verified, Value.get, Table.look] at h

/-- An empty directory, provisioning off, and a stranger's token: every read route lets it in. -/
theorem a_stranger_is_let_in : ¬ AllowListEnforced := by
  intro h
  have hr := h one_token id 0 bearing_t listed_only issuer Directory.empty _ one_token_documented
    rfl stranger_accepted (stranger_unresolved id)
  apply hr.layers .require_management_auth
  unfold Layer.admits
  rcases accepted_authenticates one_token_documented listed_only (.ok Directory.empty)
    stranger_accepted with heq | heq
  · rw [heq]
  · rw [heq]

theorem no_accepted_token_is_rejected_here :
    ¬ Rejected one_token 0 bearing_t listed_only (some issuer) (.ok Directory.empty) :=
  no_accepted_token_is_rejected one_token_documented id 0 bearing_t listed_only issuer
    Directory.empty _ rfl stranger_accepted (stranger_unresolved id)

end xrelease.allowed
