-- The requests on users and sessions (`api/auth_routes.rs`, `api/bootstrap_admin.rs`) as programs
-- over the statements of the store of users, and the machine that runs any number of them side by
-- side. The journal is what an observer writes down: tokens issued, logouts, roles changed.
import Xrelease.Calls
import Xrelease.Sessions

namespace xrelease.auth

open text keyed calls calls.Prog xrelease.config xrelease.users xrelease.model

/-! ## What a request calls -/

/-- A sync whose address the provider asserts as verified. -/
abbrev VerifiedSync := { user : Directory.AppUserUpsertOidc // user.link_by_email = true }

/-- One call of a request: a statement of the store, a token read or signed, a password hashed. -/
inductive UserCall : Type → Type where
  | resolve_auth_principal (headers : Headers) : UserCall AuthPrincipal
  | validate_token_claims (validator : OidcValidator) (token : String) : UserCall Value
  | issue_session_token (secret : String) (user_id : Nat) (username : String) (role : AppRole)
      (session_version : Int) (ttl_secs : Nat) : UserCall (String × Nat)
  | hash_password (password : String) : UserCall String
  | count_users : UserCall Nat
  | get_user_by_username (username : String) : UserCall (Option AppUser)
  | get_user_by_oidc_sub (oidc_sub : String) : UserCall (Option AppUser)
  | insert_user (user : Directory.AppUserInsert) : UserCall AppUser
  | owner_of_email (email : String) (user_id : Nat) : UserCall (Option AppUser)
  | update_oidc_link_email (user_id : Nat) (email : Option String) : UserCall AppUser
  | update_oidc_sub (user_id : Nat) (oidc_sub : Option String) : UserCall AppUser
  | find_linkable_local_user_by_email (email : String) : UserCall (Option AppUser)
  | update_oidc_user (id : Nat) (user : Directory.AppUserUpsertOidc) : UserCall AppUser
  | adopt_local_user (id : Nat) (user : VerifiedSync) : UserCall AppUser
  | insert_oidc_user (user : Directory.AppUserUpsertOidc) : UserCall AppUser
  | touch_user_last_login (id : Nat) : UserCall Unit
  | bump_session_version (id : Int) : UserCall Int

/-- Why a request ends early: an error of the store (`?`), or one of the handler's own. -/
inductive Failure where
  | Store (err : StoreError)
  | Api (err : ApiError)
deriving DecidableEq

/-- What the process is started with, and the libraries it calls. -/
structure Server where
  api : ApiConfig
  oidc : Option OidcValidator
  jwt : Jwt
  /-- `lower(text)` of the database. -/
  lower : String → String
  verify_password : String → String → Bool
  /-- The hash that a password is checked against when no user has one. -/
  decoy_password_hash : String

/-- What comes from outside with one call: the clocks, a fault of the store, and a salted hash. -/
structure Answer where
  now : DateTime := 0
  clock : Nat := 0
  fault : Option StoreError := none
  hashed : Except String String := .ok "hash"

inductive Entry where
  | issued (token : String) (claims : SessionClaims)
  | logged_out (user_id : Nat)
  | role_changed (user_id : Nat)
deriving DecidableEq

/-- The directory, and the observer's journal, newest entry first. -/
structure World where
  directory : Directory
  journal : List Entry

/-- The store as one call finds it. -/
def World.store (w : World) (o : Answer) : UserStore :=
  match o.fault with
  | some e => .error e
  | none => .ok w.directory

/-- A statement of the store: a fault leaves everything as it was. -/
def World.method {β : Type} (w : World) (o : Answer)
    (f : Directory → Except StoreError β × Directory) (note : β → Directory → List Entry) :
    Except Failure β × World :=
  match o.fault with
  | some e => (.error (.Store e), w)
  | none =>
    match f w.directory with
    | (.ok b, d) => (.ok b, { directory := d, journal := note b d ++ w.journal })
    | (.error e, d) => (.error (.Store e), { w with directory := d })

theorem method_directory {β : Type} (w : World) (o : Answer)
    (f : Directory → Except StoreError β × Directory) (note : β → Directory → List Entry) :
    (w.method o f note).2.directory = w.directory ∨
      (w.method o f note).2.directory = (f w.directory).2 := by
  unfold World.method
  split
  · exact Or.inl rfl
  · split <;> rename_i heq <;> rw [heq] <;> exact Or.inr rfl

theorem method_journal {β : Type} (w : World) (o : Answer)
    (f : Directory → Except StoreError β × Directory) (note : β → Directory → List Entry) :
    (w.method o f note).2.journal = w.journal ∨
      ∃ b, (f w.directory).1 = .ok b ∧ (w.method o f note).2.directory = (f w.directory).2 ∧
        (w.method o f note).2.journal = note b (f w.directory).2 ++ w.journal := by
  unfold World.method
  split
  · exact Or.inl rfl
  · split <;> rename_i b d heq
    · rw [heq]
      exact Or.inr ⟨b, rfl, rfl, rfl⟩
    · exact Or.inl rfl

/-- The observer sees a sync change the role of a row. -/
def note_role (d : Directory) (id : Nat) (user : Directory.AppUserUpsertOidc) : List Entry :=
  match d.get id with
  | some row => if row.role ≠ user.role then [.role_changed id] else []
  | none => []

namespace Server

def exec (server : Server) {β : Type} (op : UserCall β) (o : Answer) (w : World) :
    Except Failure β × World :=
  match op with
  | .resolve_auth_principal headers =>
    ((resolve_auth_principal server.jwt o.clock headers server.api server.oidc
      (w.store o)).mapError .Api, w)
  | .validate_token_claims validator token =>
    ((validator.validate_token_claims server.jwt o.clock token).mapError
      (fun message => .Api (.Unauthorized message)), w)
  | .issue_session_token secret user_id username role session_version ttl_secs =>
    match issue_session_token server.jwt o.clock secret user_id username role session_version
      ttl_secs with
    | .ok (token, ttl) =>
      let claims := session_claims o.clock user_id username role session_version ttl_secs
      (.ok (token, ttl), { w with journal := .issued token claims :: w.journal })
    | .error message => (.error (.Api (.Internal message)), w)
  | .hash_password _ => (o.hashed.mapError (fun message => .Api (.Internal message)), w)
  | .count_users => w.method o (fun d => (.ok d.count_users, d)) (fun _ _ => [])
  | .get_user_by_username username =>
    w.method o (fun d => (.ok (d.get_user_by_username username), d)) (fun _ _ => [])
  | .get_user_by_oidc_sub oidc_sub =>
    w.method o (fun d => (.ok (d.get_user_by_oidc_sub oidc_sub), d)) (fun _ _ => [])
  | .insert_user user => w.method o (fun d => d.insert_user o.now user) (fun _ _ => [])
  | .owner_of_email email user_id =>
    w.method o (fun d => (.ok (d.owner_of_email server.lower email user_id), d)) (fun _ _ => [])
  | .update_oidc_link_email user_id email =>
    w.method o (fun d => d.update_oidc_link_email server.lower o.now user_id email) (fun _ _ => [])
  | .update_oidc_sub user_id oidc_sub =>
    w.method o (fun d => d.update_oidc_sub o.now user_id oidc_sub) (fun _ _ => [])
  | .find_linkable_local_user_by_email email =>
    w.method o (fun d => (.ok (d.find_linkable_local_user_by_email server.lower email), d))
      (fun _ _ => [])
  | .update_oidc_user id user =>
    w.method o (fun d => d.update_oidc_user o.now id user)
      (fun _ _ => note_role w.directory id user)
  | .adopt_local_user id user =>
    w.method o (fun d => d.adopt_local_user o.now id user)
      (fun _ _ => note_role w.directory id user)
  | .insert_oidc_user user => w.method o (fun d => d.insert_oidc_user o.now user) (fun _ _ => [])
  | .touch_user_last_login id =>
    w.method o (fun d => Directory.touch_user_last_login o.now d id) (fun _ _ => [])
  | .bump_session_version id =>
    w.method o (fun d => Directory.bump_session_version o.now d id)
      (fun _ _ => [.logged_out id.toNat])

/-! ## What a call can do to the directory -/

/-- What a statement makes of the row of a user. -/
def Rewrites (server : Server) {β : Type} (op : UserCall β) (now : DateTime) (id : Nat)
    (row row' : UserRow) : Prop :=
  match op with
  | .update_oidc_link_email user_id email =>
    id = user_id ∧ row.auth_source = "local" ∧ row' = Directory.relinked server.lower now email row
  | .update_oidc_sub user_id oidc_sub =>
    id = user_id ∧ row' = { row with oidc_sub := oidc_sub, updated_at := now }
  | .update_oidc_user found user => id = found ∧ row' = Directory.synced now user row
  | .adopt_local_user found user => id = found ∧
    row' = { Directory.synced now user row with oidc_sub := some user.val.oidc_sub }
  | .touch_user_last_login user_id =>
    id = user_id ∧ row' = { row with last_login_at := some now, updated_at := now }
  | .bump_session_version user_id => (id : Int) = user_id ∧
    row' = { row with session_version := row.session_version + 1, updated_at := now }
  | _ => False

/-- The row that a statement inserts. -/
def Adds {β : Type} (op : UserCall β) (now : DateTime) (row : UserRow) : Prop :=
  match op with
  | .insert_user user => row = Directory.inserted now user
  | .insert_oidc_user user => row = Directory.provisioned now user
  | _ => False

/-- Every row stays, or one is rewritten, or one comes in under a fresh number. -/
inductive Leaves (server : Server) {β : Type} (op : UserCall β) (now : DateTime)
    (d d' : Directory) : Prop where
  | same (h : ∀ j, d'.get j = d.get j)
  | rewritten (id : Nat) (row row' : UserRow) (was : d.get id = some row)
      (does : Rewrites server op now id row row')
      (is : ∀ j, d'.get j = if j = id then some row' else d.get j)
  | added (id : Nat) (row : UserRow) (free : d.get id = none) (does : Adds op now row)
      (is : ∀ j, d'.get j = if j = id then some row else d.get j)

theorem exec_leaves (server : Server) {β : Type} (op : UserCall β) (o : Answer) (w : World) :
    Leaves server op o.now w.directory (server.exec op o w).2.directory := by
  have hmethod : ∀ {γ : Type} (f : Directory → Except StoreError γ × Directory)
      (note : γ → Directory → List Entry),
      Leaves server op o.now w.directory (f w.directory).2 →
        Leaves server op o.now w.directory (w.method o f note).2.directory := by
    intro γ f note h
    rcases method_directory w o f note with heq | heq
    · rw [heq]
      exact .same fun _ => rfl
    · rw [heq]
      exact h
  have hupdate : ∀ (missing : StoreError) (id : Nat) (p : UserRow → Bool) (f : UserRow → UserRow),
      (∀ row, p row = true → Rewrites server op o.now id row (f row)) →
        Leaves server op o.now w.directory
          (Directory.ok_or missing (w.directory.update id p f)).2 := by
    intro missing id p f hf
    rw [Directory.ok_or_snd]
    rcases w.directory.update_snd id p f with ⟨row, hrow, hp, hget⟩ | heq
    · exact .rewritten id row (f row) hrow (hf row hp) hget
    · rw [heq]
      exact .same fun _ => rfl
  have hinsert : ∀ row, Adds op o.now row →
      Leaves server op o.now w.directory (w.directory.insert row).2 := by
    intro row hadds
    rcases w.directory.insert_snd row with ⟨id, hnone, hget⟩ | heq
    · exact .added id row hnone hadds hget
    · rw [heq]
      exact .same fun _ => rfl
  cases op with
  | resolve_auth_principal headers => exact .same fun _ => rfl
  | validate_token_claims validator token => exact .same fun _ => rfl
  | issue_session_token secret user_id username role ver ttl =>
    simp only [exec]
    split <;> exact .same fun _ => rfl
  | hash_password password => exact .same fun _ => rfl
  | count_users => exact hmethod _ _ (.same fun _ => rfl)
  | get_user_by_username username => exact hmethod _ _ (.same fun _ => rfl)
  | get_user_by_oidc_sub sub => exact hmethod _ _ (.same fun _ => rfl)
  | owner_of_email email user_id => exact hmethod _ _ (.same fun _ => rfl)
  | find_linkable_local_user_by_email email => exact hmethod _ _ (.same fun _ => rfl)
  | insert_user user => exact hmethod _ _ (hinsert _ rfl)
  | insert_oidc_user user => exact hmethod _ _ (hinsert _ rfl)
  | update_oidc_link_email user_id email =>
    exact hmethod _ _ (hupdate _ _ _ _ fun row hp => ⟨rfl, of_decide_eq_true hp, rfl⟩)
  | update_oidc_sub user_id sub => exact hmethod _ _ (hupdate _ _ _ _ fun row _ => ⟨rfl, rfl⟩)
  | update_oidc_user id user => exact hmethod _ _ (hupdate _ _ _ _ fun row _ => ⟨rfl, rfl⟩)
  | adopt_local_user id user => exact hmethod _ _ (hupdate _ _ _ _ fun row _ => ⟨rfl, rfl⟩)
  | touch_user_last_login id =>
    apply hmethod
    rcases w.directory.touch_user_last_login_spec o.now id with ⟨row, hrow, hget⟩ | heq
    · exact .rewritten id row _ hrow ⟨rfl, rfl⟩ hget
    · rw [heq]
      exact .same fun _ => rfl
  | bump_session_version id =>
    apply hmethod
    rcases w.directory.bump_session_version_spec o.now id with ⟨n, row, hn, hrow, hget⟩ | ⟨heq, -⟩
    · exact .rewritten n row _ hrow ⟨hn, rfl⟩ hget
    · rw [heq]
      exact .same fun _ => rfl

/-! ## The methods of more than one statement -/

abbrev Handler (α : Type) := Prog UserCall Failure α

def reject {α : Type} (err : ApiError) : Handler α := fail (.Api err)

/-- Set (or clear) the SSO link email on a local user. -/
def set_user_oidc_link_email (user_id : Nat) (email : Option String) : Handler AppUser :=
  let update := perform (.update_oidc_link_email user_id (Directory.meant email))
  match Directory.meant email with
  | none => update
  | some email =>
    (perform (.owner_of_email email user_id)).bind fun taken =>
      match taken with
      | some owner =>
        fail (.Store (.Other s!"email `{email}` is already used by user {owner.id}"))
      | none => update

/-- Attach (or clear) an IdP subject on an existing local user. -/
def link_user_oidc_sub (user_id : Nat) (oidc_sub : Option String) : Handler AppUser :=
  let update := perform (.update_oidc_sub user_id (Directory.meant oidc_sub))
  match Directory.meant oidc_sub with
  | none => update
  | some sub =>
    (perform (.get_user_by_oidc_sub sub)).bind fun owner =>
      match owner.filter (fun user => user.id ≠ user_id) with
      | some owner =>
        fail (.Store (.Other s!"oidc_sub `{sub}` is already linked to user {owner.id}"))
      | none => update

theorem verified_of_linkable {user : Directory.AppUserUpsertOidc} {email : String}
    (h : Directory.linkable_email user = some email) : user.link_by_email = true := by
  unfold Directory.linkable_email at h
  split at h
  · assumption
  · cases h

/-- The row for a subject that nobody has. -/
def provision_oidc_user (user : Directory.AppUserUpsertOidc) : Handler (Option AppUser) :=
  if user.allow_create then
    (perform (.insert_oidc_user user)).bind fun created => done (some created)
  else done none

/-- Upsert an OIDC identity: existing `oidc_sub`, else link a local user by email, else insert a
pure OIDC row. -/
def upsert_oidc_user (user : Directory.AppUserUpsertOidc) : Handler (Option AppUser) :=
  (perform (.get_user_by_oidc_sub user.oidc_sub)).bind fun existing =>
    match existing with
    | some existing =>
      (perform (.update_oidc_user existing.id user)).bind fun row => done (some row)
    | none =>
      match h : Directory.linkable_email user with
      | none => provision_oidc_user user
      | some email =>
        (perform (.find_linkable_local_user_by_email email)).bind fun local_user =>
          match local_user with
          | some local_user =>
            (perform (.adopt_local_user local_user.id ⟨user, verified_of_linkable h⟩)).bind
              fun row => done (some row)
          | none => provision_oidc_user user

/-! ## The requests -/

structure AuthUserView where
  id : Nat
  username : Option String
  email : Option String
  display_name : Option String
  role : AppRole
  auth_source : String
  oidc_sub : Option String
  created_at : DateTime
  last_login_at : Option DateTime
  organization_roles : Table String AppRole

def user_view (user : AppUser) (role : AppRole) (organization_roles : Table String AppRole) :
    AuthUserView where
  id := user.id
  username := user.username
  email := user.email
  display_name := user.display_name
  role := role
  auth_source := user.auth_source
  oidc_sub := user.oidc_sub
  created_at := user.created_at
  last_login_at := user.last_login_at
  organization_roles := organization_roles

structure LoginResponse where
  access_token : String
  expires_in : Nat
  role : AppRole
  user : AuthUserView

/-- The role a row holds, as the code reads it. -/
def stored_role (user : AppUser) : AppRole := (AppRole.parse user.role).getD .Viewer

/-- `POST /api/v1/auth/login` — local username/password → session JWT. -/
def login (server : Server) (username password : String) : Handler LoginResponse :=
  if ¬ server.api.local_auth.enabled then reject (.Unauthorized "local auth is disabled")
  else
    match session_secret server.api.local_auth with
    | none => reject (.Unauthorized
        "local auth has no session secret — set XRELEASE_SESSION_SECRET")
    | some secret =>
      if trim username = "" ∨ password = "" then
        reject (.Unauthorized "invalid username or password")
      else
        (perform (.get_user_by_username (trim username))).bind fun user_row =>
          let stored_hash := (user_row.filter (fun user => user.auth_source = "local")).bind
            (fun user => user.password_hash)
          let password_ok :=
            server.verify_password password (stored_hash.getD server.decoy_password_hash)
          match user_row.filter (fun _ => stored_hash.isSome && password_ok) with
          | none => reject (.Unauthorized "invalid username or password")
          | some user =>
            (perform (.issue_session_token secret user.id (trim username) (stored_role user)
              user.session_version server.api.local_auth.session_ttl_secs)).bind fun issued =>
              (perform (.touch_user_last_login user.id)).caught.bind fun _ =>
                done
                  { access_token := issued.1
                    expires_in := issued.2
                    role := stored_role user
                    user := user_view user (stored_role user) Table.empty }

/-- The claim must be `true`, or the text "true" that some IdPs send. -/
def email_verified (claims : Value) : Bool :=
  (claims.get "email_verified").any (fun v => v.as_bool = some true || v.as_str = some "true")

/-- What a sync stores for the subject of a token. -/
def upsert_of (api : ApiConfig) (claims : Value) (oidc_sub : String) :
    Directory.AppUserUpsertOidc where
  oidc_sub := oidc_sub
  email := text_claim claims "email"
  display_name := ((((claims.get "name").bind Value.as_str).or
    ((claims.get "preferred_username").bind Value.as_str)).filter (· ≠ "")).or
      (text_claim claims "email")
  role := (roles_of api.oidc claims).global.as_str
  link_by_email := email_verified claims
  allow_create := api.oidc.auto_create_users

/-- `POST /api/v1/auth/oidc/sync` — validate OIDC bearer, upsert user + role. -/
def oidc_sync (server : Server) (headers : Headers) : Handler AuthUserView :=
  match server.oidc with
  | none => reject (.Unauthorized "OIDC is not configured")
  | some validator =>
    match bearer_token headers with
    | none => reject (.Unauthorized "missing bearer token")
    | some token =>
      (perform (.validate_token_claims validator token)).bind fun claims =>
        match text_claim claims "sub" with
        | none => reject (.Unauthorized "OIDC token missing sub")
        | some oidc_sub =>
          (upsert_oidc_user (upsert_of server.api claims oidc_sub)).bind fun user =>
            match user with
            | none => reject (.Forbidden ("no account for this identity and OIDC " ++
                "auto-provisioning is disabled — ask an admin to create a local user with your " ++
                "email address"))
            | some user =>
              done (user_view user (roles_of server.api.oidc claims).global
                (roles_of server.api.oidc claims).per_org)

/-- `POST /api/v1/auth/logout` — revoke the caller's live sessions. -/
def logout (headers : Headers) : Handler Bool :=
  (perform (.resolve_auth_principal headers)).bind fun principal =>
    match principal with
    | .Local user_id _ _ => (perform (.bump_session_version user_id)).bind fun _ => done true
    | _ => done false

def MIN_PASSWORD_LEN : Nat := 8

structure CreateUserRequest where
  username : String
  password : String
  role : AppRole
  email : Option String
  display_name : Option String
deriving DecidableEq

/-- What `create_user` refuses before it asks the directory. -/
def create_user_error (server : Server) (body : CreateUserRequest) : Option ApiError :=
  let username := trim body.username
  if ¬ server.api.local_auth.enabled then
    some (.BadRequest "local auth is disabled — cannot create password users")
  else if server.api.local_auth.session_secret = none then
    some (.BadRequest "local auth has no session secret — set XRELEASE_SESSION_SECRET")
  else if username = "" then some (.BadRequest "username is required")
  else if username.utf8ByteSize > 64 ∨ username.toList.any is_whitespace then
    some (.BadRequest "username must be 1–64 characters without whitespace")
  else if body.password.utf8ByteSize < MIN_PASSWORD_LEN then
    some (.BadRequest s!"password must be at least {MIN_PASSWORD_LEN} characters")
  else none

/-- `POST /api/v1/auth/users` — create a local username/password user (admin). -/
def create_user (server : Server) (body : CreateUserRequest) : Handler AuthUserView :=
  let username := trim body.username
  match create_user_error server body with
  | some err => reject err
  | none =>
    (perform (.get_user_by_username username)).bind fun existing =>
      if existing.isSome then reject (.Conflict s!"username `{username}` already exists")
      else
        (perform (.hash_password body.password)).bind fun password_hash =>
          (perform (.insert_user
            { username := some username
              password_hash := some password_hash
              oidc_sub := none
              email := Directory.meant body.email
              display_name := (Directory.meant body.display_name).or (some username)
              role := body.role.as_str
              auth_source := "local" })).bind fun user =>
            done (user_view user body.role Table.empty)

structure LinkOidcRequest where
  email : Option String
  oidc_sub : Option String
deriving DecidableEq

/-- A store error by its text: no such row is a 404, a value in use a 409. -/
def link_error (in_use : String) (failure : Failure) : Failure :=
  match failure with
  | .Store err =>
    if contains "no local app_user" err.to_string then .Api (.NotFound err.to_string)
    else if contains in_use err.to_string then .Api (.Conflict err.to_string)
    else .Store err
  | .Api err => .Api err

/-- `map_err` on a call. -/
def mapping (f : Failure → Failure) (p : Handler AppUser) : Handler AppUser :=
  p.caught.bind fun r =>
    match r with
    | .ok user => done user
    | .error e => fail (f e)

/-- `POST /api/v1/auth/users/{id}/oidc` — link or unlink an IdP identity on a local user. -/
def link_user_oidc (user_id : Nat) (body : LinkOidcRequest) : Handler AuthUserView :=
  let answer (user : AppUser) : Handler AuthUserView :=
    done (user_view user (stored_role user) Table.empty)
  let link : Handler AuthUserView :=
    (mapping (link_error "already linked")
      (link_user_oidc_sub user_id (Directory.meant body.oidc_sub))).bind answer
  match Directory.meant body.oidc_sub with
  | none =>
    if body.oidc_sub = none then
      (mapping (link_error "already used by user")
        (set_user_oidc_link_email user_id (Directory.meant body.email))).bind answer
    else link
  | some sub =>
    (perform (.get_user_by_oidc_sub sub)).bind fun owner =>
      match owner.filter (fun user => user.id ≠ user_id) with
      | some owner =>
        reject (.Conflict s!"oidc_sub `{sub}` is already linked to user {owner.id}")
      | none => link

/-- The first admin, when nobody is there and a password is given. -/
def seed_admin (local_auth : LocalAuthConfig) (username : String) (count : Nat) : Handler Unit :=
  if count > 0 then done ()
  else if username = "" then
    fail (.Store (.Other ("api.local_auth.admin_username must not be empty when seeding " ++
      "the first admin")))
  else
    match local_auth.admin_password.filter (· ≠ "") with
    | none => done ()
    | some password =>
      (perform (.hash_password password)).bind fun password_hash =>
        (perform (.insert_user
          { username := some username
            password_hash := some password_hash
            oidc_sub := none
            email := none
            display_name := some username
            role := "admin"
            auth_source := "local" })).bind fun _ => done ()

/-- Ensure a bootstrap local admin exists when the user table is empty. -/
def ensure_bootstrap_admin (api : ApiConfig) : Handler Unit :=
  if ¬ api.local_auth.enabled then done ()
  else if session_secret api.local_auth = none then done ()
  else (perform .count_users).bind (seed_admin api.local_auth (trim api.local_auth.admin_username))

/-! ## Runs -/

inductive Request where
  | ensure_bootstrap_admin
  | login (username password : String)
  | logout (headers : Headers)
  | oidc_sync (headers : Headers)
  | create_user (body : CreateUserRequest)
  | link_user_oidc (user_id : Nat) (body : LinkOidcRequest)

/-- The request's program, its answer dropped. -/
def program (server : Server) : Request → Handler Unit
  | .ensure_bootstrap_admin => Server.ensure_bootstrap_admin server.api
  | .login username password => (server.login username password).bind fun _ => done ()
  | .logout headers => (Server.logout headers).bind fun _ => done ()
  | .oidc_sync headers => (server.oidc_sync headers).bind fun _ => done ()
  | .create_user body => (server.create_user body).bind fun _ => done ()
  | .link_user_oidc user_id body => (Server.link_user_oidc user_id body).bind fun _ => done ()

/-- Requests share nothing but the store; a worker that vanishes leaves it as it is. -/
def machine (server : Server) : Machine UserCall Failure World Answer Empty where
  exec := fun _ op o w => server.exec op o w
  leave := fun _ w => w
  outside := fun e _ => e.elim

abbrev Users := Pool UserCall Failure World

/-- Every worker is at the start of some request, or idle. -/
def Starts (server : Server) (p : Users) : Prop :=
  ∀ w, p.worker w = done () ∨ ∃ request, p.worker w = server.program request

end Server

end xrelease.auth
