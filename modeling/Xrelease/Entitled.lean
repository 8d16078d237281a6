-- The rights that the front end shows are the server's answer for the current credentials: in every
-- run in which a role answer arrives before the next login or logout, no login finds roles of an
-- earlier session in the storage, an answer without grants leaves none of the claims standing, and
-- none without a grant is asked for an organization named like what every object inherits.
import Xrelease.AuthStore

namespace xrelease.entitled

open text keyed xrelease.auth_store
open xrelease.auth (AppRole)

/-! ## Runs -/

inductive Event where
  | login_with_api_key (key : String)
  | login_with_local_session (session : LocalSession)
  /-- The callback page signs in and asks for a sync. -/
  | login_with_oidc_session (tokens : OidcTokens)
  | logout
  | refresh_auth_me
  | me_answered (me : MeResponse)
  | me_failed
  /-- The answer to the sync that was asked for at a login. -/
  | synced (login : Nat) (global : AppRole) (per_org : Grants)

/-- The store, and what the record keeps of the requests. -/
structure Run where
  store : Store
  /-- Logins and logouts so far: the credentials in use. -/
  epoch : Nat
  /-- With which credentials the request in flight was sent. -/
  me_sent : Nat
  /-- The credentials of the syncs that are not answered. -/
  syncs : List Nat
  /-- The last role answer for the current credentials. -/
  answer : Option ResolvedRoles

/-- The roles that an answer names. -/
def answered (me : MeResponse) : ResolvedRoles where
  global := me.role.getD .Admin
  per_org := me.organization_roles.getD Table.empty

section
variable (config : AuthConfig)

def start (storage : Storage) : Run := ⟨init_auth config storage, 0, 0, [], none⟩

def Run.signed_in (run : Run) (store : Store) : Run :=
  { run with
    store := store
    epoch := run.epoch + 1
    me_sent := if run.store.me_in_flight then run.me_sent else run.epoch + 1
    answer := none }

def step (run : Run) : Event → Run
  | .login_with_api_key key => run.signed_in (run.store.login_with_api_key config key)
  | .login_with_local_session session =>
    run.signed_in (run.store.login_with_local_session config session)
  | .login_with_oidc_session tokens =>
    let signed := run.signed_in (run.store.login_with_oidc_session config tokens)
    -- without a bearer the server answers no sync
    if signed.store.storage.can_call_management_api config then
      { signed with syncs := signed.epoch :: run.syncs }
    else signed
  | .logout => { run with store := run.store.logout, epoch := run.epoch + 1, answer := none }
  | .refresh_auth_me =>
    { run with
      store := run.store.refresh_auth_me config
      me_sent := if run.store.me_in_flight then run.me_sent else run.epoch }
  | .me_answered me =>
    if run.store.me_in_flight then
      { run with
        store := run.store.me_answered config me
        answer := if run.me_sent = run.epoch then some (answered me) else run.answer }
    else run
  | .me_failed => { run with store := run.store.me_failed }
  | .synced login global per_org =>
    if login ∈ run.syncs then
      { run with
        store := run.store.apply_oidc_synced_roles config global per_org
        syncs := run.syncs.erase login
        answer := if login = run.epoch then some ⟨global, per_org⟩ else run.answer }
    else run

/-! ## The law -/

def bare (storage : Storage) : Storage :=
  { storage with oidc_app_role := none, oidc_org_roles := none }

/-- The role by the credentials alone. -/
def client_role (storage : Storage) (organization : Option String) : Option AppRole :=
  match (bare storage).build_auth_profile config with
  | none => some .Viewer
  | some profile =>
    role_for_organization ⟨profile.app_role, profile.organization_roles⟩ organization

/-- The higher of the global role and the grant for the organization. -/
def highest (roles : ResolvedRoles) : Option String → AppRole
  | none => roles.global
  | some organization =>
    if organization = "" then roles.global
    else (roles.per_org.get organization).elim roles.global (fun role => roles.global.max role)

/-- Once a role answer for the current credentials was applied, the role for the organization is
the higher of the answered global role and the answered grant; before that no answer is used. -/
structure Entitled (run : Run) (organization : Option String) : Prop where
  answered : ∀ roles, run.answer = some roles →
    run.store.role_for_org organization = some (highest roles organization)
  unanswered : run.answer = none →
    run.store.role_for_org organization = client_role config run.store.storage organization

/-- The profile reads the roles that are kept in the storage. -/
def Reads (storage : Storage) : Prop :=
  (config.mode = .oidc ∨ config.mode = .hybrid) ∧ storage.read_oidc_tokens.isSome = true

/-- No roles of an earlier session are read. -/
def Plain (storage : Storage) : Prop :=
  Reads config storage → storage.oidc_app_role = none ∧ storage.oidc_org_roles = none

/-- The grants of the claims that an answer leaves standing: all where it has none to keep. -/
def standing (roles : ResolvedRoles) (claimed : Grants) : Grants :=
  if roles.per_org.rows.all (fun row => row.1 = PROTO) then claimed else Table.empty

/-- There is a grant, of no more than the global role, or none, and no object inherits the name. -/
def AddsNothing (global : AppRole) (grants : Grants) (organization : String) : Prop :=
  match grants.get organization with
  | some granted => granted.rank ≤ global.rank
  | none => organization ∉ INHERITED

/-- Where the answer has no grant for the organization, the claims that it leaves standing add
nothing to the answered global role. -/
def Covers (storage : Storage) (roles : ResolvedRoles) (organization : Option String) : Prop :=
  ∀ name, organization = some name → name ≠ "" → roles.per_org.get name = none →
    ∀ profile, (bare storage).build_auth_profile config = some profile →
      AddsNothing roles.global (standing roles profile.organization_roles) name

/-- The steps of the runs in which an organization is shown as answered. -/
def Fits (organization : Option String) (run : Run) : Event → Prop
  | .login_with_api_key key => Plain config { run.store.storage with api_key := some key }
  | .login_with_local_session session =>
    Plain config { run.store.storage with local_session := some session }
  | .login_with_oidc_session tokens =>
    Plain config (run.store.storage.write_oidc_tokens (some tokens))
  | .logout => True
  | .refresh_auth_me => True
  | .me_answered me => run.store.me_in_flight = true →
      run.me_sent = run.epoch ∧ (me.role.isSome = true ∨ me.method = .api_key) ∧
        Covers config run.store.storage (answered me) organization
  | .me_failed => True
  | .synced login global per_org => login ∈ run.syncs →
      login = run.epoch ∧ Covers config run.store.storage ⟨global, per_org⟩ organization

/-- Every step of the run fits. -/
def AllFit (organization : Option String) : Run → List Event → Prop
  | _, [] => True
  | run, event :: rest =>
    Fits config organization run event ∧ AllFit organization (step config run event) rest

end

/-! ## Records of roles -/

theorem get_spread (a b : Grants) (org : String) :
    (spread a b).get org = (b.get org).or (a.get org) := Table.get_addAll _ _ _

theorem role_congr (global : AppRole) {a b : Grants} (hget : ∀ org, a.get org = b.get org)
    (organization : Option String) :
    role_for_organization ⟨global, a⟩ organization =
      role_for_organization ⟨global, b⟩ organization := by
  cases organization with
  | none => rfl
  | some org => simp only [role_for_organization, entry, hget]

theorem addsNothing_congr {global : AppRole} {a b : Grants} {org : String}
    (hget : a.get org = b.get org) (h : AddsNothing global a org) : AddsNothing global b org := by
  unfold AddsNothing at h ⊢
  rwa [← hget]

theorem max_of_le {a b : AppRole} (h : b.rank ≤ a.rank) : a.max b = a := if_pos h

/-- The answer's grants come before the ones that stand, and those add nothing. -/
theorem role_of_spread {roles : ResolvedRoles} {a : Grants} {organization : Option String}
    (h : ∀ name, organization = some name → name ≠ "" → roles.per_org.get name = none →
      AddsNothing roles.global a name) :
    role_for_organization ⟨roles.global, spread a roles.per_org⟩ organization =
      some (highest roles organization) := by
  cases organization with
  | none => rfl
  | some name =>
    unfold role_for_organization highest
    by_cases hempty : name = ""
    · simp only [hempty, if_true]
    · simp only [hempty, if_false, entry, get_spread]
      cases hown : roles.per_org.get name with
      | some granted => rfl
      | none =>
        have hadds := h name rfl hempty hown
        unfold AddsNothing at hadds
        cases hleft : a.get name with
        | some granted =>
          rw [hleft] at hadds
          exact congrArg some (max_of_le hadds)
        | none =>
          rw [hleft] at hadds
          have hcontains : INHERITED.contains name = false := by
            rw [Bool.eq_false_iff]
            exact fun hin => hadds (by simpa using hin)
          simp only [Option.or_none, hcontains, Option.elim_none]
          rfl

theorem org_maps_equal_get {a b : Grants} (h : org_maps_equal a b = true) (org : String) :
    a.get org = b.get org := by
  unfold org_maps_equal at h
  simp only [Bool.and_eq_true, decide_eq_true_eq, List.all_eq_true] at h
  obtain ⟨hlength, hall⟩ := h
  cases ha : a.get org with
  | some role =>
    have hmem := (Table.mem_rows_iff a org role).mpr ha
    rw [← ha]
    exact hall (org, role) hmem
  | none =>
    cases hb : b.get org with
    | none => rfl
    | some role =>
      -- the keys of `a` and this one would be more than `b` has
      have hsub : org :: a.rows.map Prod.fst ⊆ b.rows.map Prod.fst := by
        intro k hk
        rcases List.mem_cons.mp hk with rfl | hk
        · exact List.mem_map.mpr ⟨(k, role), (Table.mem_rows_iff b k role).mpr hb, rfl⟩
        · obtain ⟨⟨k', r⟩, hrow, rfl⟩ := List.mem_map.mp hk
          have hget := hall (k', r) hrow
          rw [(Table.mem_rows_iff a k' r).mp hrow] at hget
          exact List.mem_map.mpr ⟨(k', r), (Table.mem_rows_iff b k' r).mpr hget.symm, rfl⟩
      have hnodup : (org :: a.rows.map Prod.fst).Nodup := by
        refine List.nodup_cons.mpr ⟨?_, a.nodup⟩
        intro hk
        obtain ⟨⟨k', r⟩, hrow, rfl⟩ := List.mem_map.mp hk
        exact absurd (ha.symm.trans ((Table.mem_rows_iff a k' r).mp hrow)) (by simp)
      have hle := (List.subperm_of_subset hnodup hsub).length_le
      simp only [List.length_cons, List.length_map] at hle
      omega

section
variable {config : AuthConfig}

/-! ## The profile of a storage -/

/-- Roles in the storage only replace the ones that the claims give. -/
theorem build_of_reads {storage : Storage} (h : Reads config storage) :
    ∃ profile, (bare storage).build_auth_profile config = some profile ∧
      (profile.method = .oidc ∨ profile.method = .hybrid) ∧
      storage.build_auth_profile config = some
        { profile with
          app_role := storage.oidc_app_role.getD profile.app_role
          organization_roles :=
            storage.read_oidc_organization_roles.getD profile.organization_roles } := by
  obtain ⟨hmode, hread⟩ := h
  obtain ⟨tokens, htokens⟩ := Option.isSome_iff_exists.mp hread
  have hbare : (bare storage).read_oidc_tokens = some tokens := htokens
  rcases hmode with hmode | hmode
  · refine ⟨(bare storage).oidc_profile config .oidc .Viewer tokens, ?_, .inl rfl, ?_⟩
    · simp only [Storage.build_auth_profile, hmode, hbare, Option.map_some]
    · simp only [Storage.build_auth_profile, hmode, htokens, Option.map_some]
      rfl
  · refine ⟨(bare storage).oidc_profile config .hybrid config.default_api_key_role tokens, ?_,
      .inr rfl, ?_⟩
    · simp only [Storage.build_auth_profile, hmode, hbare]
    · simp only [Storage.build_auth_profile, hmode, htokens]
      rfl

theorem build_of_not_reads {storage : Storage} (h : ¬Reads config storage) :
    storage.build_auth_profile config = (bare storage).build_auth_profile config ∧
      ∀ profile, storage.build_auth_profile config = some profile →
        profile.organization_roles = Table.empty := by
  have hkey : (bare storage).api_key = storage.api_key := rfl
  unfold Storage.build_auth_profile
  cases hmode : config.mode with
  | local_ =>
    refine ⟨rfl, ?_⟩
    intro profile hprofile
    obtain ⟨session, -, rfl⟩ := Option.map_eq_some_iff.mp hprofile
    rfl
  | api_key =>
    refine ⟨rfl, ?_⟩
    intro profile hprofile
    by_cases hkey : non_empty storage.api_key = true
    · simp only [hkey, if_true, Option.some.injEq] at hprofile
      rw [← hprofile]
      rfl
    · simp [hkey] at hprofile
  | oidc =>
    have hnone : storage.read_oidc_tokens = none := by
      cases hread : storage.read_oidc_tokens with
      | none => rfl
      | some tokens => exact absurd ⟨.inl hmode, by simp [hread]⟩ h
    have hbare : (bare storage).read_oidc_tokens = none := hnone
    simp only [hnone, hbare]
    exact ⟨rfl, by simp⟩
  | hybrid =>
    have hnone : storage.read_oidc_tokens = none := by
      cases hread : storage.read_oidc_tokens with
      | none => rfl
      | some tokens => exact absurd ⟨.inr hmode, by simp [hread]⟩ h
    have hbare : (bare storage).read_oidc_tokens = none := hnone
    simp only [hnone, hbare]
    refine ⟨rfl, ?_⟩
    intro profile hprofile
    cases hread : storage.read_local_session with
    | some session =>
      simp only [hread, Option.some.injEq] at hprofile
      rw [← hprofile]
      rfl
    | none =>
      simp only [hread] at hprofile
      by_cases hkey : non_empty storage.api_key = true
      · simp only [hkey, if_true, Option.some.injEq] at hprofile
        rw [← hprofile]
        rfl
      · simp [hkey] at hprofile

theorem build_of_plain {storage : Storage} (h : Plain config storage) :
    storage.build_auth_profile config = (bare storage).build_auth_profile config := by
  by_cases hreads : Reads config storage
  · obtain ⟨hrole, hgrants⟩ := h hreads
    obtain ⟨profile, hbare, -, hbuild⟩ := build_of_reads hreads
    have hread : storage.read_oidc_organization_roles = none := by
      unfold Storage.read_oidc_organization_roles
      rw [hgrants]
      rfl
    rw [hbuild, hbare, hrole, hread]
    rfl
  · exact (build_of_not_reads hreads).1

/-- Who may call the API has a profile. -/
theorem build_of_can_call {storage : Storage}
    (h : storage.can_call_management_api config = true) :
    (storage.build_auth_profile config).isSome = true := by
  have hsession := (Bool.and_eq_true_iff.mp h).1
  unfold Storage.is_session_authenticated at hsession
  unfold Storage.build_auth_profile
  cases hmode : config.mode with
  | local_ =>
    simp only [hmode] at hsession
    obtain ⟨session, hread⟩ := Option.isSome_iff_exists.mp hsession
    simp only [hread, Option.map_some, Option.isSome_some]
  | api_key =>
    simp only [hmode] at hsession
    simp only [hsession, if_true, Option.isSome_some]
  | oidc =>
    simp only [hmode] at hsession
    obtain ⟨tokens, hread⟩ := Option.isSome_iff_exists.mp hsession
    simp only [hread, Option.map_some, Option.isSome_some]
  | hybrid =>
    simp only [hmode, Bool.or_eq_true] at hsession
    cases htokens : storage.read_oidc_tokens with
    | some tokens => rfl
    | none =>
      cases hlocal : storage.read_local_session with
      | some session => rfl
      | none =>
        have hkey : non_empty storage.api_key = true := by
          simpa [htokens, hlocal] using hsession
        simp only [hkey, if_true, Option.isSome_some]

end

/-! ## The profile that is shown -/

section
variable (config : AuthConfig)

/-- The profile shows what the storage says; only its own role may be the server's. -/
structure Shown (store : Store) : Prop where
  isSome : store.profile.isSome = (store.storage.build_auth_profile config).isSome
  agrees : ∀ profile built, store.profile = some profile →
    store.storage.build_auth_profile config = some built →
      profile.method = built.method ∧
      (∀ org, profile.organization_roles.get org = built.organization_roles.get org) ∧
      (store.server_roles = none → profile.app_role = built.app_role)

/-- To a role answer that counts, the grants of the profile add nothing. -/
def Settled (store : Store) (roles : ResolvedRoles) (organization : Option String) : Prop :=
  ∀ built, store.storage.build_auth_profile config = some built →
    ∀ name, organization = some name → name ≠ "" → roles.per_org.get name = none →
      AddsNothing roles.global built.organization_roles name

/-- What every run of fitting steps keeps. -/
structure Kept (organization : Option String) (run : Run) : Prop where
  shown : Shown config run.store
  unanswered : run.answer = none → run.store.server_roles = none ∧ Plain config run.store.storage
  answered : ∀ roles, run.answer = some roles →
    run.store.storage.can_call_management_api config = true ∧
      run.store.server_roles = some roles ∧ Settled config run.store roles organization
  sent : run.store.me_in_flight = true → run.me_sent = run.epoch →
    run.store.storage.can_call_management_api config = true
  synced : run.epoch ∈ run.syncs → run.store.storage.can_call_management_api config = true
  sent_before : run.me_sent ≤ run.epoch
  synced_before : ∀ login ∈ run.syncs, login ≤ run.epoch

end

section
variable {config : AuthConfig}

theorem shown_of_eq {store : Store} (h : store.profile = store.storage.build_auth_profile config) :
    Shown config store where
  isSome := by rw [h]
  agrees := by
    intro profile built hprofile hbuilt
    rw [h, hbuilt] at hprofile
    cases hprofile
    exact ⟨rfl, fun _ => rfl, fun _ => rfl⟩

theorem shown_sync (config : AuthConfig) (store : Store) :
    Shown config (store.sync_profile config) := by
  unfold Store.sync_profile
  dsimp only
  split
  · rename_i heq
    constructor
    · cases hprofile : store.profile <;>
        cases hbuilt : store.storage.build_auth_profile config <;>
        simp_all [profiles_equivalent]
    · intro profile built hprofile hbuilt
      rw [hprofile, hbuilt] at heq
      simp only [profiles_equivalent, Bool.and_eq_true, decide_eq_true_eq] at heq
      obtain ⟨⟨⟨⟨⟨⟨⟨hmethod, hrole⟩, -⟩, -⟩, -⟩, -⟩, -⟩, hgrants⟩ := heq
      exact ⟨hmethod, org_maps_equal_get hgrants, fun _ => hrole⟩
  · exact shown_of_eq rfl

@[simp] theorem storage_sync (store : Store) :
    (store.sync_profile config).storage = store.storage := by
  unfold Store.sync_profile
  dsimp only
  split <;> rfl

@[simp] theorem server_roles_sync (store : Store) :
    (store.sync_profile config).server_roles = store.server_roles := by
  unfold Store.sync_profile
  dsimp only
  split <;> rfl

@[simp] theorem me_in_flight_sync (store : Store) :
    (store.sync_profile config).me_in_flight = store.me_in_flight := by
  unfold Store.sync_profile
  dsimp only
  split <;> rfl

/-! ## Every step -/

theorem kept_start {storage : Storage} (h : Plain config storage) :
    Kept config organization (start config storage) where
  shown := shown_of_eq rfl
  unanswered := fun _ => ⟨rfl, h⟩
  answered := by
    intro roles hanswer
    cases hanswer
  sent := by
    intro hflight
    cases hflight
  synced := by
    intro hmem
    cases hmem
  sent_before := Nat.le_refl _
  synced_before := by
    intro login hmem
    cases hmem

theorem refresh_fields (config : AuthConfig) (store : Store) :
    (store.refresh_auth_me config).profile = store.profile ∧
      (store.refresh_auth_me config).storage = store.storage ∧
      (store.storage.can_call_management_api config = true →
        (store.refresh_auth_me config).server_roles = store.server_roles ∧
          (store.refresh_auth_me config).me_in_flight = true) ∧
      (store.storage.can_call_management_api config = false →
        (store.refresh_auth_me config).server_roles = none ∧
          (store.refresh_auth_me config).me_in_flight = store.me_in_flight) := by
  unfold Store.refresh_auth_me
  cases hcan : store.storage.can_call_management_api config <;> simp

variable {run : Run} {roles : ResolvedRoles} {organization : Option String}

/-- A login starts over, with the roles of no one. -/
theorem kept_signed_in (h : Kept config organization run) {storage : Storage}
    (hplain : Plain config storage) :
    Kept config organization (run.signed_in (run.store.signed_in config storage)) := by
  have hstorage : (run.store.signed_in config storage).storage = storage := by
    unfold Store.signed_in
    rw [(refresh_fields config _).2.1, storage_sync]
  have hserver : (run.store.signed_in config storage).server_roles = none := by
    unfold Store.signed_in
    cases hcan : storage.can_call_management_api config with
    | true => rw [((refresh_fields config _).2.2.1 (by simpa using hcan)).1, server_roles_sync]
    | false => exact ((refresh_fields config _).2.2.2 (by simpa using hcan)).1
  have hshown : Shown config (run.store.signed_in config storage) := by
    have hsync := shown_sync config
      { run.store with storage := storage, server_roles := none }
    constructor
    · rw [hstorage]
      simpa [Store.signed_in, (refresh_fields config _).1] using hsync.isSome
    · intro profile built hprofile hbuilt
      rw [hstorage] at hbuilt
      have hprofile' : (Store.sync_profile config
          { run.store with storage := storage, server_roles := none }).profile = some profile := by
        rw [← (refresh_fields config _).1]
        exact hprofile
      have hagrees := hsync.agrees profile built hprofile' (by simpa using hbuilt)
      exact ⟨hagrees.1, hagrees.2.1, fun _ => hagrees.2.2 (by simp)⟩
  have hplain' : Plain config (run.store.signed_in config storage).storage := by
    rw [hstorage]
    exact hplain
  refine ⟨hshown, fun _ => ⟨hserver, hplain'⟩, ?_, ?_, ?_, ?_, ?_⟩
  · intro roles hanswer
    cases hanswer
  · intro hflight hsent
    change (run.store.signed_in config storage).me_in_flight = true at hflight
    change (if run.store.me_in_flight then run.me_sent else run.epoch + 1) = run.epoch + 1 at hsent
    change (run.store.signed_in config storage).storage.can_call_management_api config = true
    rw [hstorage]
    cases hcan : storage.can_call_management_api config with
    | true => rfl
    | false =>
      -- the request in flight was sent before
      unfold Store.signed_in at hflight
      rw [((refresh_fields config _).2.2.2 (by simpa using hcan)).2, me_in_flight_sync] at hflight
      have hbefore := h.sent_before
      simp only [show run.store.me_in_flight = true from hflight, if_true] at hsent
      omega
  · intro hmem
    have hbefore := h.synced_before _ hmem
    change run.epoch + 1 ≤ run.epoch at hbefore
    omega
  · have hbefore := h.sent_before
    change (if run.store.me_in_flight then run.me_sent else run.epoch + 1) ≤ run.epoch + 1
    split <;> omega
  · intro login hmem
    have hbefore := h.synced_before login hmem
    change login ≤ run.epoch + 1
    omega

theorem build_cleared (storage : Storage) :
    storage.cleared.build_auth_profile config = none := by
  unfold Storage.build_auth_profile
  cases config.mode <;> rfl

theorem kept_logout (h : Kept config organization run) :
    Kept config organization (step config run .logout) := by
  refine ⟨?_, fun _ => ⟨rfl, ?_⟩, ?_, ?_, ?_, ?_, ?_⟩
  · exact shown_of_eq (build_cleared _).symm
  · rintro ⟨-, hread⟩
    cases hread
  · intro roles hanswer
    cases hanswer
  · intro _ hsent
    have hbefore := h.sent_before
    change run.me_sent = run.epoch + 1 at hsent
    omega
  · intro hmem
    have hbefore := h.synced_before _ hmem
    change run.epoch + 1 ≤ run.epoch at hbefore
    omega
  · exact Nat.le_succ_of_le h.sent_before
  · intro login hmem
    exact Nat.le_succ_of_le (h.synced_before login hmem)

theorem kept_refresh (h : Kept config organization run) :
    Kept config organization (step config run .refresh_auth_me) := by
  obtain ⟨hprofile, hstorage, hcan, hcannot⟩ := refresh_fields config run.store
  -- whom the API is closed to has no answer that could be forgotten
  have hserver : (run.store.refresh_auth_me config).server_roles = run.store.server_roles := by
    cases hcall : run.store.storage.can_call_management_api config with
    | true => exact (hcan hcall).1
    | false =>
      rw [(hcannot hcall).1]
      cases hanswer : run.answer with
      | none => exact (h.unanswered hanswer).1.symm
      | some roles => exact absurd (h.answered roles hanswer).1 (by simp [hcall])
  refine ⟨⟨?_, ?_⟩, ?_, ?_, ?_, ?_, ?_, ?_⟩
  · change (run.store.refresh_auth_me config).profile.isSome =
      ((run.store.refresh_auth_me config).storage.build_auth_profile config).isSome
    rw [hprofile, hstorage]
    exact h.shown.isSome
  · intro profile built hshown hbuilt
    change (run.store.refresh_auth_me config).profile = some profile at hshown
    change (run.store.refresh_auth_me config).storage.build_auth_profile config = some built
      at hbuilt
    rw [hprofile] at hshown
    rw [hstorage] at hbuilt
    obtain ⟨hmethod, hgrants, hrole⟩ := h.shown.agrees profile built hshown hbuilt
    exact ⟨hmethod, hgrants, fun hnone => hrole (by rw [← hserver]; exact hnone)⟩
  · intro hanswer
    obtain ⟨hnone, hplain⟩ := h.unanswered hanswer
    refine ⟨hserver.trans hnone, ?_⟩
    change Plain config (run.store.refresh_auth_me config).storage
    rw [hstorage]
    exact hplain
  · intro roles hanswer
    obtain ⟨hcall, hsome, hsettled⟩ := h.answered roles hanswer
    refine ⟨?_, hserver.trans hsome, ?_⟩
    · change (run.store.refresh_auth_me config).storage.can_call_management_api config = true
      rw [hstorage]
      exact hcall
    · change Settled config (run.store.refresh_auth_me config) roles organization
      unfold Settled
      rw [hstorage]
      exact hsettled
  · intro hflight hsent
    change (run.store.refresh_auth_me config).me_in_flight = true at hflight
    change (if run.store.me_in_flight then run.me_sent else run.epoch) = run.epoch at hsent
    change (run.store.refresh_auth_me config).storage.can_call_management_api config = true
    rw [hstorage]
    cases hcall : run.store.storage.can_call_management_api config with
    | true => rfl
    | false =>
      rw [(hcannot hcall).2] at hflight
      simp only [hflight, if_true] at hsent
      exact absurd (h.sent hflight hsent) (by simp [hcall])
  · intro hmem
    change (run.store.refresh_auth_me config).storage.can_call_management_api config = true
    rw [hstorage]
    exact h.synced hmem
  · have hbefore := h.sent_before
    change (if run.store.me_in_flight then run.me_sent else run.epoch) ≤ run.epoch
    split <;> omega
  · exact h.synced_before

/-- A profile that reads no kept roles has no grants. -/
theorem settled_of_not_reads {storage storage' : Storage} (hreads : ¬Reads config storage')
    (h : Covers config storage roles organization) (hsame : bare storage' = bare storage)
    {built : AuthProfile} (hbuilt : storage'.build_auth_profile config = some built) {name : String}
    (horg : organization = some name) (hne : name ≠ "") (hnone : roles.per_org.get name = none) :
    AddsNothing roles.global built.organization_roles name := by
  obtain ⟨hbare, hempty⟩ := build_of_not_reads hreads
  rw [hsame] at hbare
  refine addsNothing_congr ?_ (h name horg hne hnone built (hbare.symm.trans hbuilt))
  unfold standing
  rw [hempty built hbuilt, ite_self]

/-- The roles of an answer go to the storage. -/
def Storage.stamped (storage : Storage) (roles : ResolvedRoles) : Storage :=
  (storage.write_oidc_app_role (some roles.global)).write_oidc_organization_roles
    (some roles.per_org)

theorem read_stamped (storage : Storage) (roles : ResolvedRoles) :
    (Storage.stamped storage roles).read_oidc_organization_roles =
      if roles.per_org.rows.all (fun row => row.1 = PROTO) then none
      else some (roles.per_org.keep (fun name _ => name ≠ PROTO)) := by
  have hkept : (roles.per_org.keep (fun name _ => name ≠ PROTO)).rows.isEmpty =
      roles.per_org.rows.all (fun row => row.1 = PROTO) := by
    rw [Bool.eq_iff_iff]
    simp [Table.keep, List.filter_eq_nil_iff]
  have hwritten : (Storage.stamped storage roles).oidc_org_roles =
      if roles.per_org.rows.isEmpty then none else some roles.per_org := by
    unfold Storage.stamped Storage.write_oidc_organization_roles
    cases hrows : roles.per_org.rows.isEmpty <;> simp [Option.filter, hrows]
  unfold Storage.read_oidc_organization_roles
  rw [hwritten]
  cases hrows : roles.per_org.rows.isEmpty with
  | true => simp [List.isEmpty_iff.mp hrows]
  | false =>
    simp only [Bool.false_eq_true, if_false, Option.map_some, Option.filter, hkept]
    cases roles.per_org.rows.all (fun row => decide (row.1 = PROTO)) <;> rfl

/-- Whether the storage reads the answer or the claims, they add nothing to the answer. -/
theorem settled_of_covers {store : Store} {storage : Storage}
    (hstorage : store.storage = Storage.stamped storage roles)
    (h : Covers config storage roles organization) : Settled config store roles organization := by
  intro built hbuilt name horg hne hnone
  rw [hstorage] at hbuilt
  by_cases hreads : Reads config (Storage.stamped storage roles)
  · obtain ⟨profile, hbare, -, hbuild⟩ := build_of_reads hreads
    rw [hbuild] at hbuilt
    cases hbuilt
    refine addsNothing_congr ?_ (h name horg hne hnone profile hbare)
    unfold standing
    simp only [read_stamped]
    split
    · rfl
    · simp only [Option.getD_some, Table.get_keep, hnone]
      rfl
  · exact settled_of_not_reads hreads h rfl hbuilt horg hne hnone

section

variable (h : Kept config organization run)

include h

/-- An answer for the current credentials goes to the store and to the storage. -/
theorem kept_stamped (hcall : run.store.storage.can_call_management_api config = true)
    (hcovers : Covers config run.store.storage roles organization) {store : Store}
    {syncs : List Nat}
    (hstorage : store.storage = Storage.stamped run.store.storage roles)
    (hserver : store.server_roles = some roles) (hsyncs : syncs ⊆ run.syncs) :
    Kept config organization
      { run with store := store.sync_profile config, answer := some roles, syncs := syncs } := by
  have hcan : (store.sync_profile config).storage.can_call_management_api config = true := by
    rw [storage_sync, hstorage]
    exact hcall
  refine ⟨shown_sync config store, ?_, ?_, fun _ _ => hcan, fun _ => hcan, h.sent_before, ?_⟩
  · intro hnone
    cases hnone
  · intro roles' hanswer
    cases hanswer
    refine ⟨hcan, by rw [server_roles_sync, hserver], ?_⟩
    exact settled_of_covers (by rw [storage_sync, hstorage]) hcovers
  · intro login hmem
    exact h.synced_before login (hsyncs hmem)

theorem kept_synced {login : Nat} {global : AppRole}
    {per_org : Grants}
    (hfits : Fits config organization run (.synced login global per_org)) :
    Kept config organization (step config run (.synced login global per_org)) := by
  simp only [step]
  by_cases hmem : login ∈ run.syncs
  · obtain ⟨rfl, hcovers⟩ := hfits hmem
    rw [if_pos hmem, if_pos rfl]
    refine kept_stamped h (h.synced hmem) hcovers ?_ rfl List.erase_subset
    unfold Storage.stamped Storage.write_oidc_organization_roles
    by_cases hrows : per_org.rows = [] <;> simp [hrows, Option.filter]
  · rw [if_neg hmem]
    exact h

/-- An answer that stays in the store. -/
theorem kept_answered (hcall : run.store.storage.can_call_management_api config = true)
    (hreads : ¬Reads config run.store.storage)
    (hcovers : Covers config run.store.storage roles organization)
    (profile : Option AuthProfile → Option AuthProfile)
    (hprofile : ∀ p, (profile p).isSome = p.isSome)
    (hsame : ∀ p q, profile p = some q → ∃ q', p = some q' ∧ q.method = q'.method ∧
      q.organization_roles = q'.organization_roles) :
    Kept config organization
      { run with
        store := { run.store with
          server_roles := some roles, me_in_flight := false, profile := profile run.store.profile }
        answer := some roles } := by
  refine ⟨⟨?_, ?_⟩, ?_, ?_, ?_, h.synced, h.sent_before, h.synced_before⟩
  · exact (hprofile _).trans h.shown.isSome
  · intro shown built hshown hbuilt
    obtain ⟨before, hbefore, hmethod, hgrants⟩ := hsame _ _ hshown
    obtain ⟨hmethod', hgrants', -⟩ := h.shown.agrees before built hbefore hbuilt
    refine ⟨hmethod.trans hmethod', fun org => ?_, fun hnone => by cases hnone⟩
    rw [hgrants]
    exact hgrants' org
  · intro hnone
    cases hnone
  · intro roles' hanswer
    cases hanswer
    refine ⟨hcall, rfl, ?_⟩
    intro built hbuilt name horg hne hnone
    exact settled_of_not_reads hreads hcovers rfl hbuilt horg hne hnone
  · intro hflight
    cases hflight

theorem kept_me_answered {me : MeResponse}
    (hfits : Fits config organization run (.me_answered me)) :
    Kept config organization (step config run (.me_answered me)) := by
  simp only [step]
  by_cases hflight : run.store.me_in_flight = true
  · obtain ⟨hsent, hrole, hcovers⟩ := hfits hflight
    have hcall := h.sent hflight hsent
    have hglobal : me.role.getD (if me.method = .api_key then .Admin
        else run.store.profile.elim .Viewer (·.app_role)) = (answered me).global := by
      unfold answered
      rcases hrole with hrole | hrole
      · obtain ⟨role, hrole⟩ := Option.isSome_iff_exists.mp hrole
        rw [hrole]
        rfl
      · rw [if_pos hrole]
    rw [if_pos hflight, if_pos hsent]
    simp only [Store.me_answered, hglobal]
    split
    · exact kept_stamped h hcall hcovers rfl rfl (List.Subset.refl _)
    · rename_i hother
      -- a profile that reads the kept roles has one of these methods
      have hreads : ¬Reads config run.store.storage := by
        intro hreads
        obtain ⟨profile, -, hmethod, hbuild⟩ := build_of_reads hreads
        obtain ⟨shown, hshown⟩ := Option.isSome_iff_exists.mp
          (h.shown.isSome.trans (by rw [hbuild]; rfl))
        obtain ⟨hagree, -⟩ := h.shown.agrees shown _ hshown hbuild
        apply hother
        right
        simp only [hshown, Option.any_some, Bool.or_eq_true, decide_eq_true_eq, hagree]
        exact hmethod
      split
      · refine kept_answered h hcall hreads hcovers
          (Option.map (fun p => { p with app_role := (answered me).global })) ?_ ?_
        · intro p
          exact Option.isSome_map
        · intro p q hq
          obtain ⟨q', hq', rfl⟩ := Option.map_eq_some_iff.mp hq
          exact ⟨q', hq', rfl, rfl⟩
      · exact kept_answered h hcall hreads hcovers id (fun p => rfl)
          (fun p q hq => ⟨q, hq, rfl, rfl⟩)
  · rw [if_neg hflight]
    exact h

theorem kept_me_failed :
    Kept config organization (step config run .me_failed) where
  shown := ⟨h.shown.isSome, h.shown.agrees⟩
  unanswered := h.unanswered
  answered := h.answered
  sent := by
    intro hflight
    cases hflight
  synced := h.synced
  sent_before := h.sent_before
  synced_before := h.synced_before

theorem kept_step {event : Event}
    (hfits : Fits config organization run event) :
    Kept config organization (step config run event) := by
  cases event with
  | login_with_api_key key => exact kept_signed_in h hfits
  | login_with_local_session session => exact kept_signed_in h hfits
  | login_with_oidc_session tokens =>
    have hsigned := kept_signed_in h hfits
    simp only [step]
    split
    · rename_i hcall
      refine ⟨hsigned.shown, hsigned.unanswered, hsigned.answered, hsigned.sent, fun _ => hcall,
        hsigned.sent_before, ?_⟩
      intro login hmem
      rcases List.mem_cons.mp hmem with rfl | hmem
      · exact Nat.le_refl _
      · exact hsigned.synced_before login hmem
    · exact hsigned
  | logout => exact kept_logout h
  | refresh_auth_me => exact kept_refresh h
  | me_answered me => exact kept_me_answered h hfits
  | me_failed => exact kept_me_failed h
  | synced login global per_org => exact kept_synced h hfits

theorem kept_run {events : List Event}
    (hfit : AllFit config organization run events) :
    Kept config organization (events.foldl (step config) run) := by
  induction events generalizing run with
  | nil => exact h
  | cons event rest ih => exact ih (kept_step h hfit.1) hfit.2

end

theorem allFit_of_append {before after : List Event}
    (hfit : AllFit config organization run (before ++ after)) :
    AllFit config organization run before := by
  induction before generalizing run with
  | nil => trivial
  | cons event rest ih => exact ⟨hfit.1, ih hfit.2⟩

theorem entitled_of_kept (h : Kept config organization run) :
    Entitled config run organization where
  answered := by
    intro roles hanswer
    obtain ⟨hcall, hserver, hsettled⟩ := h.answered roles hanswer
    obtain ⟨built, hbuilt⟩ := Option.isSome_iff_exists.mp (build_of_can_call hcall)
    obtain ⟨profile, hprofile⟩ := Option.isSome_iff_exists.mp
      (h.shown.isSome.trans (by rw [hbuilt]; rfl))
    obtain ⟨-, hgrants, -⟩ := h.shown.agrees profile built hprofile hbuilt
    simp only [Store.role_for_org, Store.effective_roles, hprofile, Option.map_some, hserver]
    refine role_of_spread fun name horg hne hnone => ?_
    exact addsNothing_congr (hgrants name).symm (hsettled built hbuilt name horg hne hnone)
  unanswered := by
    intro hanswer
    obtain ⟨hserver, hplain⟩ := h.unanswered hanswer
    have hbuild := build_of_plain hplain
    unfold client_role
    rw [← hbuild]
    cases hbuilt : run.store.storage.build_auth_profile config with
    | none =>
      have hnone : run.store.profile = none := by
        have hsome := h.shown.isSome
        rw [hbuilt] at hsome
        simpa using hsome
      simp only [Store.role_for_org, Store.effective_roles, hnone, Option.map_none]
    | some built =>
      obtain ⟨profile, hprofile⟩ := Option.isSome_iff_exists.mp
        (h.shown.isSome.trans (by rw [hbuilt]; rfl))
      obtain ⟨-, hgrants, hrole⟩ := h.shown.agrees profile built hprofile hbuilt
      simp only [Store.role_for_org, Store.effective_roles, hprofile, Option.map_some, hserver,
        hrole hserver]
      exact role_congr built.app_role hgrants organization

/-- In every run of fitting steps, every state reached shows the rights of its credentials. -/
theorem rights_are_the_servers_answer {storage : Storage} (hstorage : Plain config storage)
    {events before : List Event} (hfit : AllFit config organization (start config storage) events)
    (hbefore : before <+: events) :
    Entitled config (before.foldl (step config) (start config storage)) organization := by
  obtain ⟨after, rfl⟩ := hbefore
  exact entitled_of_kept (kept_run (kept_start hstorage) (allFit_of_append hfit))

end

/-! ## An answer for the key before, a grant that the server revoked, and a name of every object -/

def a_config (mode : AuthMode) : AuthConfig where
  mode := mode
  default_api_key_role := .Viewer
  oidc := some ⟨["ops"], [], ["staff"]⟩
  to_lower_case := String.toLower

def some_tokens : OidcTokens := ⟨"token", none, ["staff", "ops:acme"]⟩

def revoked : MeResponse := ⟨.oidc, some .Viewer, none⟩

def promoted : MeResponse := ⟨.oidc, some .Viewer, some (Table.empty.add "acme" .Operator)⟩

/-- Two keys in turn; the request of the first is answered at the second. -/
def two_keys : List Event :=
  [.login_with_api_key "first", .logout, .login_with_api_key "second",
    .me_answered ⟨.api_key, some .Admin, none⟩]

theorem another_answer_is_used :
    (¬Entitled (a_config .api_key)
      (two_keys.foldl (step (a_config .api_key)) (start (a_config .api_key) Storage.empty)) none) ∧
    (¬Entitled (a_config .oidc)
      ([.login_with_oidc_session some_tokens, .me_answered revoked].foldl
        (step (a_config .oidc)) (start (a_config .oidc) Storage.empty)) (some "acme")) ∧
    ¬Entitled (a_config .oidc)
      ([.login_with_oidc_session some_tokens, .me_answered promoted].foldl
        (step (a_config .oidc)) (start (a_config .oidc) Storage.empty)) (some "constructor") := by
  refine ⟨fun h => ?_, fun h => ?_, fun h => ?_⟩
  · exact absurd (h.unanswered (by decide +kernel)) (by decide +kernel)
  · exact absurd (h.answered (answered revoked) (by rfl)) (by decide +kernel)
  · exact absurd (h.answered (answered promoted) (by rfl)) (by decide +kernel)

theorem rights_are_the_servers_answer_here :
    Entitled (a_config .oidc)
      ([.login_with_oidc_session some_tokens, .me_answered promoted].foldl
        (step (a_config .oidc)) (start (a_config .oidc) Storage.empty)) (some "acme") := by
  have hfit : AllFit (a_config .oidc) (some "acme") (start (a_config .oidc) Storage.empty)
      [.login_with_oidc_session some_tokens, .me_answered promoted] := by
    refine ⟨fun _ => ⟨rfl, rfl⟩, fun _ => ⟨by decide +kernel, .inl rfl, ?_⟩, trivial⟩
    rintro name hname - hnone
    obtain rfl := Option.some.inj hname
    exact absurd hnone (by decide +kernel)
  exact rights_are_the_servers_answer (fun _ => ⟨rfl, rfl⟩) hfit (List.prefix_refl _)

end xrelease.entitled
