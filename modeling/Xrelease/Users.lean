-- Local and OIDC application users (`store/postgres/users.rs` over the table `app_user`). Each
-- statement is one step on the directory, on a connection of its own; what the table forbids (a
-- second row with a username or a subject, a row outside its checks) no directory holds.
import Xrelease.Release
import Xrelease.Table
import Mathlib.Data.List.MinMax

namespace xrelease.users

open text keyed xrelease.model

/-! ## The table -/

inductive StoreError where
  | PollerBusy
  | Pool (message : String)
  | Postgres (message : String)
  | Other (message : String)
deriving DecidableEq

/-- The error as text. -/
def StoreError.to_string : StoreError → String
  | PollerBusy => "another xrelease poller already holds this PostgreSQL database " ++
      "(single poller per DB — stop the other process, or use a separate database)"
  | Pool message => s!"connection pool error: {message}"
  | Postgres message => s!"postgres error: {message}"
  | Other message => message

structure UserRow where
  username : Option String
  password_hash : Option String
  oidc_sub : Option String
  email : Option String
  display_name : Option String
  /-- `admin` | `operator` | `viewer` -/
  role : String
  /-- `local` | `oidc` -/
  auth_source : String
  created_at : DateTime
  updated_at : DateTime
  last_login_at : Option DateTime
  /-- Session-invalidation epoch: a session is valid only while its `ver` claim equals this. -/
  session_version : Int
deriving DecidableEq

structure AppUser extends UserRow where
  id : Nat
deriving DecidableEq

/-- The CHECK constraints of `app_user`. -/
structure Checked (row : UserRow) : Prop where
  role : row.role ∈ ["admin", "operator", "viewer"]
  auth_source : row.auth_source ∈ ["local", "oidc"]
  identity : (row.auth_source = "local" ∧ row.username ≠ none ∧ row.password_hash ≠ none) ∨
    (row.auth_source = "oidc" ∧ row.oidc_sub ≠ none)

instance (row : UserRow) : Decidable (Checked row) :=
  decidable_of_iff (row.role ∈ ["admin", "operator", "viewer"] ∧
      row.auth_source ∈ ["local", "oidc"] ∧
      ((row.auth_source = "local" ∧ row.username ≠ none ∧ row.password_hash ≠ none) ∨
        (row.auth_source = "oidc" ∧ row.oidc_sub ≠ none)))
    ⟨fun h => ⟨h.1, h.2.1, h.2.2⟩, fun h => ⟨h.1, h.2, h.3⟩⟩

def usernames (t : Serial UserRow) : List String := t.table.rows.filterMap (fun r => r.2.username)

def subjects (t : Serial UserRow) : List String := t.table.rows.filterMap (fun r => r.2.oidc_sub)

/-- Every constraint of `app_user`, the UNIQUE ones among them. -/
structure Sound (t : Serial UserRow) : Prop where
  checked : ∀ r ∈ t.table.rows, Checked r.2
  usernames : (usernames t).Nodup
  subjects : (subjects t).Nodup

instance (t : Serial UserRow) : Decidable (Sound t) :=
  decidable_of_iff ((∀ r ∈ t.table.rows, Checked r.2) ∧ (usernames t).Nodup ∧ (subjects t).Nodup)
    ⟨fun h => ⟨h.1, h.2.1, h.2.2⟩, fun h => ⟨h.1, h.2, h.3⟩⟩

structure Directory where
  table : Serial UserRow
  sound : Sound table

namespace Directory

def empty : Directory := ⟨Serial.empty, by decide⟩

instance : Inhabited Directory := ⟨empty⟩

def get (d : Directory) (id : Nat) : Option UserRow := d.table.get id

/-- `SELECT … WHERE`. -/
def select (d : Directory) (p : UserRow → Bool) : List AppUser :=
  (d.table.select (fun _ row => p row)).map (fun r => { toUserRow := r.2, id := r.1 })

/-- A write ends with the constraints checked; one that breaks them changes nothing. -/
def commit (d : Directory) (t : Serial UserRow) : Except StoreError Unit × Directory :=
  if h : Sound t then (.ok (), ⟨t, h⟩)
  else (.error (.Postgres "app_user: constraint violation"), d)

/-- `UPDATE app_user SET … WHERE id = $1 AND p RETURNING …`. -/
def update (d : Directory) (id : Nat) (p : UserRow → Bool) (f : UserRow → UserRow) :
    Except StoreError (Option AppUser) × Directory :=
  match (d.get id).filter p with
  | none => (.ok none, d)
  | some row =>
    match d.commit (d.table.mapRows (fun k r => if k = id then f r else r)) with
    | (.ok (), d') => (.ok (some { toUserRow := f row, id }), d')
    | (.error e, d') => (.error e, d')

/-- An insert that fails still takes a number from the sequence. -/
def skip (d : Directory) : Directory := ⟨d.table.skip, d.sound.checked, d.sound.usernames,
  d.sound.subjects⟩

/-- `INSERT INTO app_user … RETURNING …`. -/
def insert (d : Directory) (row : UserRow) : Except StoreError AppUser × Directory :=
  match d.commit (d.table.insert row) with
  | (.ok (), d') => (.ok { toUserRow := row, id := d.table.next }, d')
  | (.error e, d') => (.error e, d'.skip)

/-! ## What a write leaves -/

variable {d : Directory} {user : AppUser} {lower : String → String}

theorem mem_select {p : UserRow → Bool} :
    user ∈ d.select p ↔ d.get user.id = some user.toUserRow ∧ p user.toUserRow = true := by
  unfold select get
  rw [List.mem_map]
  constructor
  · rintro ⟨⟨id, row⟩, hr, rfl⟩
    exact (Serial.mem_select _ _ _ _).mp hr
  · intro h
    exact ⟨(user.id, user.toUserRow), (Serial.mem_select _ _ _ _).mpr h, rfl⟩

theorem checked_of_get {id : Nat} {row : UserRow} (h : d.get id = some row) :
    Checked row :=
  d.sound.checked (id, row) ((Table.mem_rows_iff _ _ _).mpr h)

/-- An update that answers with a row rewrote it and nothing else; one that does not changed
nothing. -/
theorem update_spec (d : Directory) (id : Nat) (p : UserRow → Bool) (f : UserRow → UserRow) :
    (∃ row d', d.get id = some row ∧ p row = true ∧
      d.update id p f = (.ok (some { toUserRow := f row, id }), d') ∧
      ∀ j, d'.get j = if j = id then some (f row) else d.get j) ∨
    ∃ r, d.update id p f = (r, d) ∧ ∀ user, r ≠ .ok (some user) := by
  unfold update
  split
  · exact Or.inr ⟨_, rfl, by simp⟩
  · rename_i row hrow
    obtain ⟨hget, hp⟩ := Option.filter_eq_some_iff.mp hrow
    unfold commit
    split
    · rename_i d' heq
      split at heq
      · rename_i hs
        obtain ⟨-, rfl⟩ := Prod.mk.inj heq
        refine Or.inl ⟨row, _, hget, hp, rfl, ?_⟩
        intro j
        unfold get at hget ⊢
        rw [Serial.get_mapRows]
        split
        · rename_i hj
          subst hj
          simp [hget]
        · simp
      · simp at heq
    · rename_i e d' heq
      split at heq
      · simp at heq
      · obtain ⟨-, rfl⟩ := Prod.mk.inj heq
        exact Or.inr ⟨_, rfl, by simp⟩

@[simp] theorem get_skip (d : Directory) (id : Nat) : d.skip.get id = d.get id := rfl

/-- An insert that answers with a row put it under a fresh number; one that does not changed
no row. -/
theorem insert_spec (d : Directory) (row : UserRow) :
    (∃ id d', d.get id = none ∧ d.insert row = (.ok { toUserRow := row, id }, d') ∧
      ∀ j, d'.get j = if j = id then some row else d.get j) ∨
    ∃ e, d.insert row = (.error e, d.skip) := by
  unfold insert commit
  split
  · rename_i d' heq
    split at heq
    · obtain ⟨-, rfl⟩ := Prod.mk.inj heq
      refine Or.inl ⟨d.table.next, _, Serial.get_next _, rfl, ?_⟩
      intro j
      exact Serial.get_insert _ _ _
    · simp at heq
  · rename_i e d' heq
    split at heq
    · simp at heq
    · obtain ⟨-, rfl⟩ := Prod.mk.inj heq
      exact Or.inr ⟨_, rfl⟩

/-! ## Reads -/

/-- `query_opt` on a column that no two rows share. -/
def get_user_by_username (d : Directory) (username : String) : Option AppUser :=
  (d.select (fun row => row.username = some username)).head?

def get_user_by_id (d : Directory) (id : Int) : Option AppUser :=
  if 0 ≤ id then (d.get id.toNat).map (fun row => { toUserRow := row, id := id.toNat }) else none

def get_user_by_oidc_sub (d : Directory) (oidc_sub : String) : Option AppUser :=
  (d.select (fun row => row.oidc_sub = some oidc_sub)).head?

def count_users (d : Directory) : Nat := (d.select (fun _ => true)).length

/-- `auth_source = 'local' AND oidc_sub IS NULL AND lower(email) = lower($1)`. -/
def linkable (lower : String → String) (email : String) (row : UserRow) : Bool :=
  row.auth_source = "local" ∧ row.oidc_sub = none ∧ row.email.map lower = some (lower email)

/-- Local user with matching email and no `oidc_sub` yet (candidate for SSO link). -/
def find_linkable_local_user_by_email (lower : String → String) (d : Directory) (email : String) :
    Option AppUser :=
  if trim email = "" then none
  else (d.select (linkable lower (trim email))).argmin AppUser.id

/-! ## Writes -/

/-- Insert payload for a new `app_user` row. -/
structure AppUserInsert where
  username : Option String
  password_hash : Option String
  oidc_sub : Option String
  email : Option String
  display_name : Option String
  role : String
  auth_source : String
deriving DecidableEq

/-- OIDC upsert payload (matched on `oidc_sub`). -/
structure AppUserUpsertOidc where
  oidc_sub : String
  email : Option String
  display_name : Option String
  role : String
  /-- Adopt an existing local account whose email matches `email`. -/
  link_by_email : Bool
  /-- Create a row when nothing matches. -/
  allow_create : Bool
deriving DecidableEq

/-- The row of an insert: `session_version` uses the column's default. -/
def inserted (now : DateTime) (user : AppUserInsert) : UserRow where
  username := user.username
  password_hash := user.password_hash
  oidc_sub := user.oidc_sub
  email := user.email
  display_name := user.display_name
  role := user.role
  auth_source := user.auth_source
  created_at := now
  updated_at := now
  last_login_at := none
  session_version := 0

def insert_user (now : DateTime) (d : Directory) (user : AppUserInsert) :
    Except StoreError AppUser × Directory := d.insert (inserted now user)

/-- `query_opt(…)?.ok_or_else(…)`. -/
def ok_or (missing : StoreError) (r : Except StoreError (Option AppUser) × Directory) :
    Except StoreError AppUser × Directory :=
  match r with
  | (.ok (some user), d) => (.ok user, d)
  | (.ok none, d) => (.error missing, d)
  | (.error e, d) => (.error e, d)

/-- `Some` of the trimmed text, unless nothing is left of it. -/
def meant (value : Option String) : Option String := (value.map trim).filter (· ≠ "")

/-- The row that `set_user_oidc_link_email` writes: the subject goes with the address. -/
def relinked (lower : String → String) (now : DateTime) (email : Option String) (row : UserRow) :
    UserRow :=
  { row with
    email := email
    oidc_sub := match email with
      | none => none
      | some e => if lower (row.email.getD "") ≠ lower e then none else row.oidc_sub
    updated_at := now }

/-- Another user with the address: `lower(email) = lower($1) AND id <> $2 LIMIT 1`. -/
def owner_of_email (lower : String → String) (d : Directory) (email : String) (user_id : Nat) :
    Option AppUser :=
  ((d.select (fun row => row.email.map lower = some (lower email))).filter
    (fun user => user.id ≠ user_id)).head?

/-- The UPDATE of `set_user_oidc_link_email`. -/
def update_oidc_link_email (lower : String → String) (now : DateTime) (d : Directory)
    (user_id : Nat) (email : Option String) : Except StoreError AppUser × Directory :=
  ok_or (.Other s!"no local app_user with id {user_id}")
    (d.update user_id (fun row => row.auth_source = "local") (relinked lower now email))

/-- The UPDATE of `link_user_oidc_sub`. -/
def update_oidc_sub (now : DateTime) (d : Directory) (user_id : Nat) (oidc_sub : Option String) :
    Except StoreError AppUser × Directory :=
  ok_or (.Other (s!"no local app_user with id {user_id} " ++
      "(OIDC-only rows cannot be re-linked here)"))
    (d.update user_id (fun row => row.auth_source = "local")
      (fun row => { row with oidc_sub := oidc_sub, updated_at := now }))

/-- What a sync writes into the row it found. -/
def synced (now : DateTime) (user : AppUserUpsertOidc) (row : UserRow) : UserRow :=
  { row with
    email := user.email.or row.email
    display_name := user.display_name.or row.display_name
    role := user.role
    updated_at := now
    last_login_at := some now }

/-- The row that a sync inserts for a subject it does not know. -/
def provisioned (now : DateTime) (user : AppUserUpsertOidc) : UserRow where
  username := none
  password_hash := none
  oidc_sub := some user.oidc_sub
  email := user.email
  display_name := user.display_name
  role := user.role
  auth_source := "oidc"
  created_at := now
  updated_at := now
  last_login_at := some now
  session_version := 0

/-- Only an IdP-verified address may adopt an existing local account. -/
def linkable_email (user : AppUserUpsertOidc) : Option String :=
  if user.link_by_email then meant user.email else none

/-- `query_one` on an UPDATE: a row that is gone is an error. -/
def one (r : Except StoreError (Option AppUser) × Directory) :
    Except StoreError AppUser × Directory :=
  ok_or (.Postgres "query returned an unexpected number of rows") r

/-- The UPDATE of `upsert_oidc_user` on the row of the subject. -/
def update_oidc_user (now : DateTime) (d : Directory) (id : Nat) (user : AppUserUpsertOidc) :
    Except StoreError AppUser × Directory :=
  one (d.update id (fun _ => true) (synced now user))

/-- Its UPDATE on a local account with the address. -/
def adopt_local_user (now : DateTime) (d : Directory) (id : Nat) (user : AppUserUpsertOidc) :
    Except StoreError AppUser × Directory :=
  one (d.update id (fun _ => true)
    (fun row => { synced now user row with oidc_sub := some user.oidc_sub }))

/-- Its INSERT. -/
def insert_oidc_user (now : DateTime) (d : Directory) (user : AppUserUpsertOidc) :
    Except StoreError AppUser × Directory := d.insert (provisioned now user)

def touch_user_last_login (now : DateTime) (d : Directory) (id : Nat) :
    Except StoreError Unit × Directory :=
  match d.update id (fun _ => true)
      (fun row => { row with last_login_at := some now, updated_at := now }) with
  | (.ok _, d') => (.ok (), d')
  | (.error e, d') => (.error e, d')

/-- Invalidate every live session for a user by advancing its session epoch. -/
def bump_session_version (now : DateTime) (d : Directory) (id : Int) :
    Except StoreError Int × Directory :=
  if 0 ≤ id then
    match ok_or (.Other s!"no app_user with id {id}") (d.update id.toNat (fun _ => true)
        (fun row => { row with session_version := row.session_version + 1, updated_at := now })) with
    | (.ok user, d') => (.ok user.session_version, d')
    | (.error e, d') => (.error e, d')
  else (.error (.Other s!"no app_user with id {id}"), d)

/-! ## What the reads answer -/

theorem head_mem {p : UserRow → Bool} (h : (d.select p).head? = some user) :
    d.get user.id = some user.toUserRow ∧ p user.toUserRow = true :=
  mem_select.mp (List.mem_of_mem_head? h)

theorem of_get_user_by_username {username : String}
    (h : d.get_user_by_username username = some user) :
    d.get user.id = some user.toUserRow ∧ user.username = some username := by
  have hm := head_mem h
  exact ⟨hm.1, of_decide_eq_true hm.2⟩

theorem of_get_user_by_id {id : Int} (h : d.get_user_by_id id = some user) :
    d.get user.id = some user.toUserRow ∧ (user.id : Int) = id := by
  unfold get_user_by_id at h
  split at h
  · rename_i hid
    obtain ⟨row, hrow, rfl⟩ := Option.map_eq_some_iff.mp h
    exact ⟨hrow, Int.toNat_of_nonneg hid⟩
  · simp at h

theorem insert_snd (d : Directory) (row : UserRow) :
    (∃ id, d.get id = none ∧
      ∀ j, (d.insert row).2.get j = if j = id then some row else d.get j) ∨
    (d.insert row).2 = d.skip := by
  rcases d.insert_spec row with ⟨id, d', hnone, heq, hget⟩ | ⟨e, heq⟩
  · rw [heq]
    exact Or.inl ⟨id, hnone, hget⟩
  · rw [heq]
    exact Or.inr rfl

/-- The state an update leaves. -/
theorem update_snd (d : Directory) (id : Nat) (p : UserRow → Bool) (f : UserRow → UserRow) :
    (∃ row, d.get id = some row ∧ p row = true ∧
      ∀ j, (d.update id p f).2.get j = if j = id then some (f row) else d.get j) ∨
    (d.update id p f).2 = d := by
  rcases d.update_spec id p f with ⟨row, d', hrow, hp, heq, hget⟩ | ⟨r, heq, -⟩
  · rw [heq]
    exact Or.inl ⟨row, hrow, hp, hget⟩
  · rw [heq]
    exact Or.inr rfl

theorem ok_or_snd (missing : StoreError) (r : Except StoreError (Option AppUser) × Directory) :
    (ok_or missing r).2 = r.2 := by
  unfold ok_or
  split <;> rfl

theorem touch_user_last_login_spec (now : DateTime) (d : Directory) (id : Nat) :
    (∃ row, d.get id = some row ∧ ∀ j, (touch_user_last_login now d id).2.get j =
      if j = id then some { row with last_login_at := some now, updated_at := now }
      else d.get j) ∨
    (touch_user_last_login now d id).2 = d := by
  have hstate : (touch_user_last_login now d id).2 = (d.update id (fun _ => true)
      (fun row => { row with last_login_at := some now, updated_at := now })).2 := by
    unfold touch_user_last_login
    split <;> rename_i heq <;> rw [heq]
  rw [hstate]
  rcases d.update_snd id (fun _ => true)
    (fun row => { row with last_login_at := some now, updated_at := now }) with
    ⟨row, hrow, -, hget⟩ | heq
  · exact Or.inl ⟨row, hrow, hget⟩
  · exact Or.inr heq

theorem bump_session_version_spec (now : DateTime) (d : Directory) (id : Int) :
    (∃ (n : Nat) (row : UserRow), (n : Int) = id ∧ d.get n = some row ∧
      ∀ j, (bump_session_version now d id).2.get j =
        if j = n then
          some { row with session_version := row.session_version + 1, updated_at := now }
        else d.get j) ∨
    (bump_session_version now d id).2 = d ∧ ∃ e, (bump_session_version now d id).1 = .error e := by
  unfold bump_session_version
  split
  · rename_i hid
    rcases d.update_spec id.toNat (fun _ => true)
      (fun row => { row with session_version := row.session_version + 1, updated_at := now }) with
      ⟨row, d', hrow, -, heq, hget⟩ | ⟨r, heq, hr⟩
    · rw [heq]
      exact Or.inl ⟨id.toNat, row, Int.toNat_of_nonneg hid, hrow, hget⟩
    · rw [heq]
      cases r with
      | error e => exact Or.inr ⟨rfl, _, rfl⟩
      | ok user =>
        cases user with
        | none => exact Or.inr ⟨rfl, _, rfl⟩
        | some user => exact absurd rfl (hr user)
  · exact Or.inr ⟨rfl, _, rfl⟩

end Directory

end xrelease.users
