-- The sign-in state of the front end (`front/src/lib/stores/auth.svelte.ts`): the credentials and
-- roles in the session storage (`auth/credentials.ts`, `auth/oidc.ts`), the profile that is built
-- of them (`auth/session.ts`, `auth/roles.ts`), and what the server last answered. Tokens and
-- sessions do not run out here.
import Xrelease.Roles

namespace xrelease.auth_store

open text keyed
open xrelease.auth (AppRole)

/-! ## Roles -/

/-- A record of roles by organization. -/
abbrev Grants := Table String AppRole

/-- The global role, and those for organizations. -/
structure ResolvedRoles where
  global : AppRole
  per_org : Grants

/-- The aliases of each role. -/
structure RoleMapping where
  admin : List String
  operator : List String
  viewer : List String

def RoleMapping.of (mapping : RoleMapping) : AppRole → List String
  | .Admin => mapping.admin
  | .Operator => mapping.operator
  | .Viewer => mapping.viewer

def EMPTY_ROLE_MAPPING : RoleMapping := ⟨[], [], []⟩

/-- Highest first. -/
def APP_ROLES : List AppRole := [.Admin, .Operator, .Viewer]

def PROTO : String := "__proto__"

/-- The properties that every object inherits. -/
def INHERITED : List String :=
  [PROTO, "constructor", "hasOwnProperty", "isPrototypeOf", "propertyIsEnumerable", "toString",
    "toLocaleString", "valueOf", "__defineGetter__", "__defineSetter__", "__lookupGetter__",
    "__lookupSetter__"]

/-- What a record has under a key: a role, what every object inherits, or nothing. -/
inductive Entry where
  | role (role : AppRole)
  | inherited
  | missing
deriving DecidableEq

/-- `perOrg[organization]`. -/
def entry (per_org : Grants) (organization : String) : Entry :=
  match per_org.get organization with
  | some role => .role role
  | none => if INHERITED.contains organization then .inherited else .missing

/-- Assigning a role to `__proto__` does nothing. -/
def assign (per_org : Grants) (organization : String) (role : AppRole) : Grants :=
  if organization = PROTO then per_org else per_org.upsert organization role (fun _ => role)

/-- Effective role for an organization; without one, the global role. Nothing where what comes out
is no role. -/
def role_for_organization (roles : ResolvedRoles) : Option String → Option AppRole
  | none => some roles.global
  | some organization =>
    if organization = "" then some roles.global
    else
      match entry roles.per_org organization with
      | .role granted => some (roles.global.max granted)
      | .inherited => none
      | .missing => some roles.global

/-- How one signs in. -/
inductive AuthMode where
  | local_
  | api_key
  | oidc
  | hybrid
deriving DecidableEq

/-- The settings of the front end; `String.prototype.toLowerCase` is the browser's. -/
structure AuthConfig where
  mode : AuthMode
  default_api_key_role : AppRole
  oidc : Option RoleMapping
  to_lower_case : String → String

/-- What `trim` takes off. -/
def is_js_whitespace (c : Char) : Bool :=
  (is_whitespace c && c ≠ '\u0085') || c = '\uFEFF'

/-- `String.prototype.trim`. -/
def js_trim (s : String) : String :=
  String.ofList (trim_end_matches is_js_whitespace (trim_start_matches is_js_whitespace s.toList))

section
variable (config : AuthConfig)

/-- Bare aliases give the global role. -/
def resolve_app_role (oidc_roles : List String) (mapping : RoleMapping) (fallback : AppRole) :
    AppRole :=
  let normalized := oidc_roles.map config.to_lower_case
  APP_ROLES.foldl (fun resolved app_role =>
    if (mapping.of app_role).any (fun role => normalized.contains (config.to_lower_case role)) &&
        app_role.rank ≥ resolved.rank then app_role else resolved) fallback

/-- The role that an alias grants. -/
def role_for_alias (name : String) (mapping : RoleMapping) : Option AppRole :=
  let needle := config.to_lower_case (js_trim name)
  APP_ROLES.find? (fun app_role =>
    (mapping.of app_role).any (fun a => config.to_lower_case a = needle))

/-- `alias:org` grants a role for that organization; what is inherited ranks below every role. -/
def grant (mapping : RoleMapping) (per_org : Grants) (group : String) : Grants :=
  match split_once ":" group with
  | none => per_org
  | some (name, org) =>
    if name = "" ∨ js_trim org = "" then per_org
    else
      match role_for_alias config name mapping with
      | none => per_org
      | some role =>
        match entry per_org (js_trim org) with
        | .role current => assign per_org (js_trim org) (current.max role)
        | _ => assign per_org (js_trim org) role

/-- The roles that the groups of a token grant. -/
def resolve_resolved_roles (oidc_roles : List String) (mapping : RoleMapping)
    (fallback : AppRole) : ResolvedRoles where
  global := resolve_app_role config oidc_roles mapping fallback
  per_org := oidc_roles.foldl (grant config mapping) Table.empty

/-! ## The session storage -/

/-- The claims of an ID token that the page shows. -/
structure OidcProfile where
  sub : String
  email : Option String
  name : Option String
deriving DecidableEq

/-- Tokens, with the profile and the role claims that their payloads carry. -/
structure OidcTokens where
  access_token : String
  profile : Option OidcProfile
  role_claims : List String
deriving DecidableEq

/-- A session of a local account. -/
structure LocalSession where
  access_token : String
  role : AppRole
  username : String
deriving DecidableEq

/-- What the browser keeps. -/
structure Storage where
  api_key : Option String
  local_session : Option LocalSession
  oidc_session : Option OidcTokens
  oidc_app_role : Option AppRole
  oidc_org_roles : Option Grants

def Storage.empty : Storage := ⟨none, none, none, none, none⟩

/-- A session without a token is none. -/
def Storage.read_local_session (storage : Storage) : Option LocalSession :=
  storage.local_session.filter (fun session => session.access_token ≠ "")

/-- Tokens without an access token are none. -/
def Storage.read_oidc_tokens (storage : Storage) : Option OidcTokens :=
  storage.oidc_session.filter (fun tokens => tokens.access_token ≠ "")

/-- Each role once, in the order of its first claim. -/
def read_oidc_roles (tokens : OidcTokens) : List String :=
  if config.oidc.isNone then []
  else tokens.role_claims.foldl (fun roles role =>
    if roles.contains role then roles else roles ++ [role]) []

/-- An empty map is kept as none. -/
def Storage.write_oidc_organization_roles (storage : Storage) (roles : Option Grants) : Storage :=
  { storage with oidc_org_roles := roles.filter (fun roles => !roles.rows.isEmpty) }

/-- All entries that can be assigned; an empty map is read as none. -/
def Storage.read_oidc_organization_roles (storage : Storage) : Option Grants :=
  (storage.oidc_org_roles.map (fun roles => roles.keep (fun organization _ =>
    organization ≠ PROTO))).filter (fun roles => !roles.rows.isEmpty)

def Storage.write_oidc_app_role (storage : Storage) (role : Option AppRole) : Storage :=
  { storage with oidc_app_role := role }

/-- Without tokens the roles go as well. -/
def Storage.write_oidc_tokens (storage : Storage) : Option OidcTokens → Storage
  | none => { storage with oidc_session := none, oidc_app_role := none, oidc_org_roles := none }
  | some tokens => { storage with oidc_session := some tokens }

/-- The credential that requests carry. -/
def Storage.get_bearer_token (storage : Storage) : Option String :=
  match config.mode with
  | .oidc => storage.read_oidc_tokens.map (·.access_token)
  | .local_ => storage.read_local_session.map (·.access_token)
  | .hybrid => (storage.read_oidc_tokens.map (·.access_token)).or
      ((storage.read_local_session.map (·.access_token)).or storage.api_key)
  | .api_key => storage.api_key

def non_empty (s : Option String) : Bool := s.any (fun s => s ≠ "")

/-- Whether somebody is signed in. -/
def Storage.is_session_authenticated (storage : Storage) : Bool :=
  match config.mode with
  | .local_ => storage.read_local_session.isSome
  | .api_key => non_empty storage.api_key
  | .oidc => storage.read_oidc_tokens.isSome
  | .hybrid => storage.read_oidc_tokens.isSome || storage.read_local_session.isSome ||
      non_empty storage.api_key

/-- Whether requests can be made. -/
def Storage.can_call_management_api (storage : Storage) : Bool :=
  storage.is_session_authenticated config && non_empty (storage.get_bearer_token config)

/-! ## The profile -/

/-- Who is signed in, and with what rights. -/
structure AuthProfile where
  method : AuthMode
  oidc_profile : Option OidcProfile
  local_username : Option String
  app_role : AppRole
  organization_roles : Grants
  oidc_roles : List String

/-- The roles that the server assigned before the ones that the claims give. -/
def Storage.oidc_resolved_roles (storage : Storage) (oidc_roles : List String)
    (fallback : AppRole) : ResolvedRoles :=
  let mapping := config.oidc.getD EMPTY_ROLE_MAPPING
  let from_claims := resolve_resolved_roles config oidc_roles mapping fallback
  { global := storage.oidc_app_role.getD from_claims.global
    per_org := storage.read_oidc_organization_roles.getD from_claims.per_org }

def local_profile (session : LocalSession) : AuthProfile where
  method := .local_
  oidc_profile := none
  local_username := some session.username
  app_role := session.role
  organization_roles := Table.empty
  oidc_roles := []

def api_key_profile (method : AuthMode) : AuthProfile where
  method := method
  oidc_profile := none
  local_username := none
  app_role := config.default_api_key_role
  organization_roles := Table.empty
  oidc_roles := []

def Storage.oidc_profile (storage : Storage) (method : AuthMode) (fallback : AppRole)
    (tokens : OidcTokens) : AuthProfile :=
  let oidc_roles := read_oidc_roles config tokens
  let resolved := storage.oidc_resolved_roles config oidc_roles fallback
  { method := method
    oidc_profile := tokens.profile
    local_username := none
    app_role := resolved.global
    organization_roles := resolved.per_org
    oidc_roles := oidc_roles }

/-- The profile that the storage gives. -/
def Storage.build_auth_profile (storage : Storage) : Option AuthProfile :=
  match config.mode with
  | .local_ => storage.read_local_session.map local_profile
  | .api_key => if non_empty storage.api_key then some (api_key_profile config .api_key) else none
  | .oidc => storage.read_oidc_tokens.map (storage.oidc_profile config .oidc .Viewer)
  | .hybrid =>
    match storage.read_oidc_tokens with
    | some tokens =>
      some (storage.oidc_profile config .hybrid config.default_api_key_role tokens)
    | none =>
      match storage.read_local_session with
      | some session => some (local_profile session)
      | none => if non_empty storage.api_key then some (api_key_profile config .hybrid) else none

def org_maps_equal (a b : Grants) : Bool :=
  a.rows.length = b.rows.length && a.rows.all (fun kr => a.get kr.1 = b.get kr.1)

/-- Whether a new profile would change anything. -/
def profiles_equivalent : Option AuthProfile → Option AuthProfile → Bool
  | none, none => true
  | some a, some b =>
    a.method = b.method && a.app_role = b.app_role && a.local_username = b.local_username &&
      a.oidc_profile.map (·.sub) = b.oidc_profile.map (·.sub) &&
      a.oidc_profile.bind (·.email) = b.oidc_profile.bind (·.email) &&
      a.oidc_profile.bind (·.name) = b.oidc_profile.bind (·.name) &&
      a.oidc_roles = b.oidc_roles && org_maps_equal a.organization_roles b.organization_roles
  | _, _ => false

/-! ## The store -/

/-- The storage, the profile and what the server said. -/
structure Store where
  storage : Storage
  profile : Option AuthProfile
  /-- What the server last answered. -/
  server_roles : Option ResolvedRoles
  me_in_flight : Bool

/-- The store when the page comes up. -/
def init_auth (storage : Storage) : Store where
  storage := storage
  profile := storage.build_auth_profile config
  server_roles := none
  me_in_flight := false

/-- Read the storage again. -/
def Store.sync_profile (store : Store) : Store :=
  let next := store.storage.build_auth_profile config
  if profiles_equivalent store.profile next then store else { store with profile := next }

/-- `{ ...a, ...b }`. -/
def spread (a b : Grants) : Grants := b.addAll a.rows

/-- The server's roles where it gave any. -/
def Store.effective_roles (store : Store) : Option ResolvedRoles :=
  store.profile.map (fun profile =>
    match store.server_roles with
    | none => ⟨profile.app_role, profile.organization_roles⟩
    | some server => ⟨server.global, spread profile.organization_roles server.per_org⟩)

/-- The role in an organization. -/
def Store.role_for_org (store : Store) (organization : Option String) : Option AppRole :=
  match store.effective_roles with
  | none => some .Viewer
  | some roles => role_for_organization roles organization

/-- Ask the server for the roles, unless a request is in flight already. -/
def Store.refresh_auth_me (store : Store) : Store :=
  if store.storage.can_call_management_api config then { store with me_in_flight := true }
  else { store with server_roles := none }

/-- The answer of `/auth/me`. -/
structure MeResponse where
  method : AuthMode
  role : Option AppRole
  organization_roles : Option Grants

/-- The answer to the request in flight. -/
def Store.me_answered (store : Store) (me : MeResponse) : Store :=
  let global := me.role.getD
    (if me.method = .api_key then .Admin else store.profile.elim .Viewer (·.app_role))
  let per_org := me.organization_roles.getD Table.empty
  let store := { store with server_roles := some ⟨global, per_org⟩, me_in_flight := false }
  if me.method = .oidc ∨ store.profile.any (fun p => p.method = .oidc || p.method = .hybrid) then
    Store.sync_profile config
      { store with
        storage :=
          (store.storage.write_oidc_app_role (some global)).write_oidc_organization_roles
            (some per_org) }
  else if me.method = .api_key then
    { store with profile := store.profile.map (fun p => { p with app_role := global }) }
  else store

/-- Nothing but that no request is in flight any more. -/
def Store.me_failed (store : Store) : Store := { store with me_in_flight := false }

/-- The store after a login. -/
def Store.signed_in (store : Store) (storage : Storage) : Store :=
  Store.refresh_auth_me config
    (Store.sync_profile config { store with storage := storage, server_roles := none })

def Store.login_with_api_key (store : Store) (key : String) : Store :=
  store.signed_in config { store.storage with api_key := some key }

def Store.login_with_local_session (store : Store) (session : LocalSession) : Store :=
  store.signed_in config { store.storage with local_session := some session }

/-- The callback page writes the tokens before. -/
def Store.login_with_oidc_session (store : Store) (tokens : OidcTokens) : Store :=
  store.signed_in config (store.storage.write_oidc_tokens (some tokens))

/-- What `POST /auth/oidc/sync` answered. -/
def Store.apply_oidc_synced_roles (store : Store) (global : AppRole) (per_org : Grants) : Store :=
  Store.sync_profile config
    { store with
      storage := (store.storage.write_oidc_app_role (some global)).write_oidc_organization_roles
        (if per_org.rows.isEmpty then none else some per_org)
      server_roles := some ⟨global, per_org⟩ }

/-- Nothing kept of a session. -/
def Storage.cleared (storage : Storage) : Storage :=
  { (storage.write_oidc_tokens none) with api_key := none, local_session := none }

/-- Forget everybody. -/
def Store.logout (store : Store) : Store :=
  { store with storage := store.storage.cleared, profile := none, server_roles := none }

end

end xrelease.auth_store
