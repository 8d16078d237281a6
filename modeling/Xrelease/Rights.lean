-- The law of local sessions: a session carries the rights its user has now. Logging out moves
-- the version that every session is checked against; a sync that changes the role of a local
-- account does not, and a blank secret signs for everybody.
import Xrelease.Accounts

namespace xrelease.sessions

open text keyed xrelease.config xrelease.users xrelease.auth xrelease.model
open calls calls.Prog calls.Terms

/-! ## What a session promises -/

/-- Without a non-empty secret nobody signs: a token that reads under the secret was issued. -/
def Unforged (server : Server) (w : World) (headers : Headers) : Prop :=
  ∀ secret token v now claims, session_secret server.api.local_auth = some secret →
    bearer_token headers = some token →
    server.jwt.decode_session secret v now token = .ok claims →
    ∃ claims', Entry.issued token claims' ∈ w.journal

/-- The user of a local principal exists with that role, and has not logged out since the token
was issued. -/
structure CarriesItsRights (server : Server) (w : World) (headers : Headers) (uid : Int)
    (role : AppRole) : Prop where
  secret : ∃ secret, session_secret server.api.local_auth = some secret
  user : ∃ (n : Nat) (row : UserRow), (n : Int) = uid ∧ w.directory.get n = some row ∧
    row.role = role.as_str
  no_logout : ∃ later token claims earlier, bearer_token headers = some token ∧
    w.journal = later ++ .issued token claims :: earlier ∧ claims.uid = uid ∧
    ∀ n : Nat, (n : Int) = uid → Entry.logged_out n ∉ later

/-- Every session carries exactly the current rights of its user, in this state. -/
structure Current (server : Server) (w : World) : Prop where
  rights : ∀ now headers uid username role, Unforged server w headers →
    resolve_auth_principal server.jwt now headers server.api server.oidc (.ok w.directory) =
      .ok (.Local uid username role) → CarriesItsRights server w headers uid role
  revoked : ∀ later token claims earlier (n : Nat) now headers,
    w.journal = later ++ .issued token claims :: earlier → (n : Int) = claims.uid →
    Entry.role_changed n ∈ later → Unforged server w headers → bearer_token headers = some token →
    ∀ uid username role,
      resolve_auth_principal server.jwt now headers server.api server.oidc (.ok w.directory) ≠
        .ok (.Local uid username role)

/-- In every state of every run. -/
def SessionsAreCurrent : Prop :=
  ∀ (server : Server) (p : Server.Users) (moves : List (Move Answer Empty)),
    server.jwt.Documented → server.Starts p → p.state.journal = [] →
    Current server (p.run server.machine moves).state

/-! ## How rows move -/

/-- A sync leaves the role of a local account that it writes to. -/
def KeepsLocalRoles {β : Type} (op : UserCall β) (d : Directory) : Prop :=
  match op with
  | .update_oidc_user id user => ∀ row, d.get id = some row → row.auth_source = "local" →
      row.role = user.role
  | .adopt_local_user id user => ∀ row, d.get id = some row → row.auth_source = "local" →
      row.role = user.val.role
  | _ => True

/-- No row goes, versions only grow, and a local account stays one, with its role. -/
def Ahead (d d' : Directory) : Prop :=
  ∀ n row, d.get n = some row → ∃ row', d'.get n = some row' ∧
    row.session_version ≤ row'.session_version ∧ row'.auth_source = row.auth_source ∧
    (row.auth_source = "local" → row'.role = row.role)

theorem ahead_refl (d : Directory) : Ahead d d :=
  fun _ row h => ⟨row, h, le_refl _, rfl, fun _ => rfl⟩

theorem ahead_trans {d₁ d₂ d₃ : Directory} (h : Ahead d₁ d₂) (h' : Ahead d₂ d₃) : Ahead d₁ d₃ := by
  intro n row hrow
  obtain ⟨row₂, hget₂, hv₂, hs₂, hr₂⟩ := h n row hrow
  obtain ⟨row₃, hget₃, hv₃, hs₃, hr₃⟩ := h' n row₂ hget₂
  refine ⟨row₃, hget₃, le_trans hv₂ hv₃, hs₃.trans hs₂, ?_⟩
  intro hlocal
  rw [hr₃ (hs₂.trans hlocal), hr₂ hlocal]

theorem ahead_of_same {d d' : Directory} (h : ∀ j, d'.get j = d.get j) : Ahead d d' := by
  intro n row hrow
  exact ⟨row, (h n).trans hrow, le_refl _, rfl, fun _ => rfl⟩

theorem ahead_of_update {d d' : Directory} {id : Nat} {row row' : UserRow}
    (hrow : d.get id = some row) (h : ∀ j, d'.get j = if j = id then some row' else d.get j)
    (hversion : row.session_version ≤ row'.session_version)
    (hsource : row'.auth_source = row.auth_source)
    (hrole : row.auth_source = "local" → row'.role = row.role) : Ahead d d' := by
  intro n old hold
  rw [h n]
  by_cases hn : n = id
  · subst hn
    rw [hrow] at hold
    obtain rfl := Option.some.inj hold
    exact ⟨row', if_pos rfl, hversion, hsource, hrole⟩
  · exact ⟨old, by rw [if_neg hn]; exact hold, le_refl _, rfl, fun _ => rfl⟩

theorem ahead_of_insert {d d' : Directory} {id : Nat} {row : UserRow} (hnone : d.get id = none)
    (h : ∀ j, d'.get j = if j = id then some row else d.get j) : Ahead d d' := by
  intro n old hold
  have hn : n ≠ id := by
    intro hn
    rw [hn, hnone] at hold
    simp at hold
  exact ⟨old, by rw [h n, if_neg hn]; exact hold, le_refl _, rfl, fun _ => rfl⟩

/-! ## What a call leaves -/

/-- A call that issues a token. -/
def issues {γ : Type} (op : UserCall γ) : Prop :=
  match op with
  | .issue_session_token .. => True
  | _ => False

theorem ahead_rewrite {server : Server} {β : Type} {op : UserCall β} {now : DateTime}
    {d : Directory} {id : Nat} {row row' : UserRow} (h : KeepsLocalRoles op d)
    (hrow : d.get id = some row) (hdoes : server.Rewrites op now id row row') :
    row.session_version ≤ row'.session_version ∧ row'.auth_source = row.auth_source ∧
      (row.auth_source = "local" → row'.role = row.role) := by
  cases op with
  | update_oidc_link_email user_id email =>
    obtain ⟨-, -, rfl⟩ := hdoes
    exact ⟨le_refl _, rfl, fun _ => rfl⟩
  | update_oidc_sub user_id sub =>
    obtain ⟨-, rfl⟩ := hdoes
    exact ⟨le_refl _, rfl, fun _ => rfl⟩
  | update_oidc_user found user =>
    obtain ⟨rfl, rfl⟩ := hdoes
    exact ⟨le_refl _, rfl, fun hlocal => (h row hrow hlocal).symm⟩
  | adopt_local_user found user =>
    obtain ⟨rfl, rfl⟩ := hdoes
    exact ⟨le_refl _, rfl, fun hlocal => (h row hrow hlocal).symm⟩
  | touch_user_last_login user_id =>
    obtain ⟨-, rfl⟩ := hdoes
    exact ⟨le_refl _, rfl, fun _ => rfl⟩
  | bump_session_version user_id =>
    obtain ⟨-, rfl⟩ := hdoes
    exact ⟨(Int.lt_succ row.session_version).le, rfl, fun _ => rfl⟩
  | _ => exact hdoes.elim

theorem ahead_exec {server : Server} {β : Type} {op : UserCall β} {o : Answer} {w : World}
    (h : KeepsLocalRoles op w.directory) :
    Ahead w.directory (server.exec op o w).2.directory := by
  rcases server.exec_leaves op o w with hsame | ⟨id, row, row', hrow, hdoes, hget⟩ |
    ⟨id, row, hnone, -, hget⟩
  · exact ahead_of_same hsame
  · obtain ⟨hversion, hsource, hrole⟩ := ahead_rewrite h hrow hdoes
    exact ahead_of_update hrow hget hversion hsource hrole
  · exact ahead_of_insert hnone hget

/-- A sync that leaves the roles of local accounts is noted for another account only. -/
theorem note_role_cases {d : Directory} {id : Nat} {user : Directory.AppUserUpsertOidc}
    (h : ∀ row, d.get id = some row → row.auth_source = "local" → row.role = user.role) :
    note_role d id user = [] ∨ ∃ row, note_role d id user = [.role_changed id] ∧
      d.get id = some row ∧ row.auth_source ≠ "local" := by
  unfold note_role
  cases hrow : d.get id with
  | none => exact Or.inl rfl
  | some row =>
    by_cases hrole : row.role = user.role
    · exact Or.inl (if_neg fun hne => hne hrole)
    · exact Or.inr ⟨row, if_pos hrole, rfl, fun hlocal => hrole (h row hrow hlocal)⟩

/-- What the observer writes down with a call that issues no token: nothing, a logout with the
version moved on, or the role of an account that is not a local one. -/
theorem journal_exec {server : Server} {β : Type} {op : UserCall β} {o : Answer} {w : World}
    (h : KeepsLocalRoles op w.directory) (hi : ¬ issues op) :
    (server.exec op o w).2.journal = w.journal ∨
    (∃ n row row', (server.exec op o w).2.journal = .logged_out n :: w.journal ∧
      w.directory.get n = some row ∧ (server.exec op o w).2.directory.get n = some row' ∧
      row.session_version < row'.session_version) ∨
    ∃ n row, (server.exec op o w).2.journal = .role_changed n :: w.journal ∧
      w.directory.get n = some row ∧ row.auth_source ≠ "local" := by
  have hquiet : ∀ {β : Type} (f : Directory → Except StoreError β × Directory),
      (w.method o f (fun _ _ => [])).2.journal = w.journal := by
    intro β f
    rcases method_journal w o f (fun _ _ => []) with heq | ⟨b, -, -, heq⟩
    · exact heq
    · exact heq
  have hnoted : ∀ {γ : Type} (f : Directory → Except StoreError γ × Directory) (id : Nat)
      (user : Directory.AppUserUpsertOidc), (∀ row, w.directory.get id = some row →
        row.auth_source = "local" → row.role = user.role) →
      (w.method o f (fun _ _ => note_role w.directory id user)).2.journal = w.journal ∨
      (∃ n row row', (w.method o f (fun _ _ => note_role w.directory id user)).2.journal =
        .logged_out n :: w.journal ∧ w.directory.get n = some row ∧
        (w.method o f (fun _ _ => note_role w.directory id user)).2.directory.get n = some row' ∧
        row.session_version < row'.session_version) ∨
      ∃ n row, (w.method o f (fun _ _ => note_role w.directory id user)).2.journal =
        .role_changed n :: w.journal ∧ w.directory.get n = some row ∧
        row.auth_source ≠ "local" := by
    intro γ f id user hkeeps
    rcases method_journal w o f (fun _ _ => note_role w.directory id user) with
      heq | ⟨b, -, -, heq⟩
    · exact Or.inl heq
    · rcases note_role_cases hkeeps with hnote | ⟨row, hnote, hrow, hlocal⟩
      · rw [heq, hnote]
        exact Or.inl rfl
      · rw [heq, hnote]
        exact Or.inr (Or.inr ⟨id, row, rfl, hrow, hlocal⟩)
  cases op with
  | resolve_auth_principal headers => exact Or.inl rfl
  | validate_token_claims validator token => exact Or.inl rfl
  | issue_session_token secret user_id username role ver ttl => exact absurd trivial hi
  | hash_password password => exact Or.inl rfl
  | count_users => exact Or.inl (hquiet _)
  | get_user_by_username username => exact Or.inl (hquiet _)
  | get_user_by_oidc_sub sub => exact Or.inl (hquiet _)
  | insert_user user => exact Or.inl (hquiet _)
  | insert_oidc_user user => exact Or.inl (hquiet _)
  | owner_of_email email user_id => exact Or.inl (hquiet _)
  | find_linkable_local_user_by_email email => exact Or.inl (hquiet _)
  | update_oidc_link_email user_id email => exact Or.inl (hquiet _)
  | update_oidc_sub user_id sub => exact Or.inl (hquiet _)
  | touch_user_last_login id => exact Or.inl (hquiet _)
  | update_oidc_user id user => exact hnoted _ id user h
  | adopt_local_user id user => exact hnoted _ id user.val h
  | bump_session_version id =>
    rcases method_journal w o (fun d => Directory.bump_session_version o.now d id)
      (fun _ _ => [.logged_out id.toNat]) with heq | ⟨b, hb, hd, heq⟩
    · exact Or.inl heq
    · rcases w.directory.bump_session_version_spec o.now id with
        ⟨n, row, hn, hrow, hget⟩ | ⟨-, e, he⟩
      · have hid : id.toNat = n := by omega
        have hnote : (server.exec (.bump_session_version id) o w).2.journal =
            .logged_out id.toNat :: w.journal := heq
        have hnow : (server.exec (.bump_session_version id) o w).2.directory.get n = some _ :=
          (congrArg (fun d => d.get n) hd).trans ((hget n).trans (if_pos rfl))
        rw [hid] at hnote
        exact Or.inr (Or.inl ⟨n, row, _, hnote, hrow, hnow, Int.lt_succ row.session_version⟩)
      · rw [he] at hb
        simp at hb

/-! ## The invariant -/

/-- The claims of an issued token against the directory now, `later` being what came after: the
user is a local one, and as long as the version stands so does the role, with no logout. -/
def Stands (d : Directory) (later : List Entry) (claims : SessionClaims) : Prop :=
  ∃ (n : Nat) (row : UserRow), (n : Int) = claims.uid ∧ d.get n = some row ∧
    row.auth_source = "local" ∧ claims.ver ≤ row.session_version ∧
    (claims.ver = row.session_version → row.role = claims.role.as_str ∧
      Entry.logged_out n ∉ later)

structure Settled (server : Server) (w : World) : Prop where
  stands : ∀ later token claims earlier, w.journal = later ++ .issued token claims :: earlier →
    Stands w.directory later claims
  signed : ∀ token claims, Entry.issued token claims ∈ w.journal →
    ∃ secret, session_secret server.api.local_auth = some secret ∧
      server.jwt.encode secret claims = .ok token
  not_local : ∀ n, Entry.role_changed n ∈ w.journal →
    ∃ row, w.directory.get n = some row ∧ row.auth_source ≠ "local"

/-- The role column holds one of the three texts that the code writes. -/
theorem stored_role_as_str {d : Directory} {user : AppUser}
    (h : d.get user.id = some user.toUserRow) :
    user.role = (Server.stored_role user).as_str := by
  have hrole := (Directory.checked_of_get h).role
  unfold Server.stored_role
  simp only [List.mem_cons, List.not_mem_nil, or_false] at hrole
  rcases hrole with hrole | hrole | hrole
  · rw [hrole]
    decide +kernel
  · rw [hrole]
    decide +kernel
  · rw [hrole]
    decide +kernel

/-- What stood stands further on: a version that has moved leaves no claim to keep. -/
theorem stands_ahead {d d' : Directory} {later : List Entry} {claims : SessionClaims}
    (h : Stands d later claims) (ha : Ahead d d') : Stands d' later claims := by
  obtain ⟨n, row, hn, hrow, hlocal, hver, hkeep⟩ := h
  obtain ⟨row', hrow', hver', hsource, hrole⟩ := ha n row hrow
  refine ⟨n, row', hn, hrow', hsource.trans hlocal, le_trans hver hver', ?_⟩
  intro heq
  obtain ⟨hr, hout⟩ := hkeep (by omega)
  exact ⟨(hrole hlocal).trans hr, hout⟩

/-- Another entry of the journal, unless it is a logout of that user. -/
theorem stands_cons {d : Directory} {later : List Entry} {claims : SessionClaims} {e : Entry}
    (h : Stands d later claims)
    (he : ∀ n : Nat, (n : Int) = claims.uid → e = .logged_out n →
      ∀ row, d.get n = some row → claims.ver ≠ row.session_version) :
    Stands d (e :: later) claims := by
  obtain ⟨n, row, hn, hrow, hlocal, hver, hkeep⟩ := h
  refine ⟨n, row, hn, hrow, hlocal, hver, ?_⟩
  intro heq
  obtain ⟨hr, hout⟩ := hkeep heq
  refine ⟨hr, ?_⟩
  intro hmem
  rcases List.mem_cons.mp hmem with hmem | hmem
  · exact he n hn hmem.symm row hrow heq
  · exact hout hmem

theorem not_local_ahead {d d' : Directory} {n : Nat} (ha : Ahead d d')
    (h : ∃ row, d.get n = some row ∧ row.auth_source ≠ "local") :
    ∃ row, d'.get n = some row ∧ row.auth_source ≠ "local" := by
  obtain ⟨row, hrow, hlocal⟩ := h
  obtain ⟨row', hrow', -, hsource, -⟩ := ha n row hrow
  exact ⟨row', hrow', by rw [hsource]; exact hlocal⟩

/-- The journal grows by an entry that is no token: every token in it was in it before. -/
theorem split_cons {e : Entry} {journal later earlier : List Entry} {token : String}
    {claims : SessionClaims} (hne : ∀ t c, e ≠ .issued t c)
    (h : e :: journal = later ++ .issued token claims :: earlier) :
    ∃ later', later = e :: later' ∧ journal = later' ++ .issued token claims :: earlier := by
  cases later with
  | nil => exact absurd (List.cons.inj h).1 (hne token claims)
  | cons x later' =>
    obtain ⟨rfl, hrest⟩ := List.cons.inj h
    exact ⟨later', rfl, hrest⟩

theorem settled_exec {server : Server} {β : Type} {op : UserCall β} {o : Answer} {w : World}
    (hs : Settled server w) (h : KeepsLocalRoles op w.directory) (hi : ¬ issues op) :
    Settled server (server.exec op o w).2 := by
  have ha := @ahead_exec server _ op o w h
  rcases journal_exec (o := o) h hi with hj | ⟨n, row, row', hj, hrow, hrow', hlt⟩ |
    ⟨n, row, hj, hrow, hlocal⟩
  · refine ⟨?_, ?_, ?_⟩
    · intro later token claims earlier heq
      rw [hj] at heq
      exact stands_ahead (hs.stands later token claims earlier heq) ha
    · rw [hj]
      exact hs.signed
    · rw [hj]
      exact fun n hn => not_local_ahead ha (hs.not_local n hn)
  · refine ⟨?_, ?_, ?_⟩
    · intro later token claims earlier heq
      rw [hj] at heq
      obtain ⟨later', rfl, hrest⟩ := split_cons (by simp) heq
      have hst := hs.stands later' token claims earlier hrest
      apply stands_cons (stands_ahead hst ha)
      intro m hm he new hnew hver
      obtain rfl := Entry.logged_out.inj he
      obtain ⟨k, old, hk, hold, -, hle, -⟩ := hst
      obtain rfl : k = n := by omega
      rw [hrow] at hold
      obtain rfl := Option.some.inj hold
      rw [hrow'] at hnew
      obtain rfl := Option.some.inj hnew
      omega
    · intro token claims hmem
      rw [hj] at hmem
      rcases List.mem_cons.mp hmem with hmem | hmem
      · simp at hmem
      · exact hs.signed token claims hmem
    · intro m hmem
      rw [hj] at hmem
      rcases List.mem_cons.mp hmem with hmem | hmem
      · simp at hmem
      · exact not_local_ahead ha (hs.not_local m hmem)
  · refine ⟨?_, ?_, ?_⟩
    · intro later token claims earlier heq
      rw [hj] at heq
      obtain ⟨later', rfl, hrest⟩ := split_cons (by simp) heq
      apply stands_cons (stands_ahead (hs.stands later' token claims earlier hrest) ha)
      intro m hm he
      simp at he
    · intro token claims hmem
      rw [hj] at hmem
      rcases List.mem_cons.mp hmem with hmem | hmem
      · simp at hmem
      · exact hs.signed token claims hmem
    · intro m hmem
      rw [hj] at hmem
      rcases List.mem_cons.mp hmem with hmem | hmem
      · obtain rfl := Entry.role_changed.inj hmem
        exact not_local_ahead ha ⟨row, hrow, hlocal⟩
      · exact not_local_ahead ha (hs.not_local m hmem)

/-- Issuing a token puts it on record, or fails. -/
theorem issue_exec (server : Server) (o : Answer) (w : World) (secret username : String)
    (id : Nat) (role : AppRole) (ver : Int) (ttl : Nat) :
    (server.exec (.issue_session_token secret id username role ver ttl) o w).2 = w ∨
      ∃ token, server.jwt.encode secret (session_claims o.clock id username role ver ttl) =
          .ok token ∧
        (server.exec (.issue_session_token secret id username role ver ttl) o w).2 =
          { w with journal := .issued token
                     (session_claims o.clock id username role ver ttl) :: w.journal } := by
  simp only [Server.exec, issue_session_token]
  cases heq : server.jwt.encode secret (session_claims o.clock id username role ver ttl) with
  | ok token => exact Or.inr ⟨token, rfl, rfl⟩
  | error e => exact Or.inl rfl

/-- A token for a local row that stands as it was read, or further on. -/
theorem settled_issue {server : Server} {o : Answer} {w : World} {secret : String} {user : AppUser}
    {username : String} {role : AppRole} {ttl : Nat} (hs : Settled server w)
    (hsecret : session_secret server.api.local_auth = some secret)
    (hlocal : user.auth_source = "local") (hrole : user.role = role.as_str)
    (hread : ∃ d, d.get user.id = some user.toUserRow ∧ Ahead d w.directory) :
    Settled server (server.exec (.issue_session_token secret user.id username role
      user.session_version ttl) o w).2 := by
  rcases issue_exec server o w secret username user.id role user.session_version ttl with
    heq | ⟨token, hsigned, heq⟩
  · rw [heq]
    exact hs
  · obtain ⟨d, hrow, ha⟩ := hread
    obtain ⟨row', hrow', hver, hsource, hkeep⟩ := ha user.id user.toUserRow hrow
    rw [heq]
    refine ⟨?_, ?_, ?_⟩
    · intro later token' claims earlier hsplit
      cases later with
      | nil =>
        obtain ⟨he, -⟩ := List.cons.inj hsplit
        obtain ⟨-, rfl⟩ := Entry.issued.inj he
        refine ⟨user.id, row', rfl, hrow', hsource.trans hlocal, hver, ?_⟩
        intro _
        exact ⟨(hkeep hlocal).trans hrole, List.not_mem_nil⟩
      | cons x later' =>
        obtain ⟨rfl, hrest⟩ := List.cons.inj hsplit
        apply stands_cons (hs.stands later' token' claims earlier hrest)
        intro m _ he
        simp at he
    · intro token' claims hmem
      rcases List.mem_cons.mp hmem with hmem | hmem
      · obtain ⟨rfl, rfl⟩ := Entry.issued.inj hmem
        exact ⟨secret, hsecret, hsigned⟩
      · exact hs.signed token' claims hmem
    · intro n hmem
      rcases List.mem_cons.mp hmem with hmem | hmem
      · simp at hmem
      · exact hs.not_local n hmem

/-! ## Runs -/

/-- The terms of a run whose syncs leave the roles of local accounts. -/
def terms (server : Server) : Terms UserCall World Answer Empty where
  Inv := Settled server
  Rely := fun _ w w' => Ahead w.directory w'.directory
  May := fun _ op _ w => KeepsLocalRoles op w.directory
  Does := fun _ _ _ w w' => Ahead w.directory w'.directory
  MayOutside := fun _ _ => True

theorem sound (server : Server) : (terms server).Sound server.machine where
  refl := fun _ w => ahead_refl w.directory
  trans := fun _ _ _ _ h h' => ahead_trans h h'
  others := fun _ _ _ _ _ _ _ h => h
  outside := fun e _ _ _ => e.elim
  leave := fun _ w h => ⟨h, fun _ _ => ahead_refl w.directory⟩

/-- A call that issues no token, within the terms. -/
theorem safe_call {server : Server} {w : Nat} {β : Type} {op : UserCall β} {o : Answer}
    {s : World} (hi : ¬ issues op) (hs : Settled server s)
    (h : KeepsLocalRoles op s.directory) :
    Ahead s.directory (server.machine.exec w op o s).2.directory ∧
      Settled server (server.machine.exec w op o s).2 :=
  ⟨ahead_exec h, settled_exec hs h hi⟩

/-- A request that never issues a token keeps the terms. -/
theorem safe_never {server : Server} {w : Nat} {α : Type} {p : Server.Handler α}
    (hp : p.Never issues) (s : World) :
    (terms server).Safe server.machine w (fun _ _ => True) p s := by
  induction p generalizing s with
  | done a => trivial
  | fail e => trivial
  | call op next ih =>
    intro s₁ _ hs o hm
    obtain ⟨ha, hs'⟩ := safe_call (w := w) (o := o) hp.1 hs hm
    exact ⟨ha, hs', ih _ (hp.2 _) _⟩

theorem never_mapping {f : Failure → Failure} {p : Server.Handler AppUser}
    (hp : p.Never issues) : (Server.mapping f p).Never issues := by
  refine never_bind (never_caught hp) ?_
  intro r
  split <;> trivial

theorem never_provision_oidc_user (user : Directory.AppUserUpsertOidc) :
    (Server.provision_oidc_user user).Never issues := by
  unfold Server.provision_oidc_user
  split
  · exact never_bind (never_perform (fun h => h)) (fun _ => trivial)
  · trivial

theorem never_upsert_oidc_user (user : Directory.AppUserUpsertOidc) :
    (Server.upsert_oidc_user user).Never issues := by
  refine never_bind (never_perform (fun h => h)) (fun existing => ?_)
  split
  · exact never_bind (never_perform (fun h => h)) (fun _ => trivial)
  · split
    · exact never_provision_oidc_user user
    · refine never_bind (never_perform (fun h => h)) (fun local_user => ?_)
      split
      · exact never_bind (never_perform (fun h => h)) (fun _ => trivial)
      · exact never_provision_oidc_user user

theorem never_oidc_sync (server : Server) (headers : Headers) :
    (server.oidc_sync headers).Never issues := by
  unfold Server.oidc_sync
  split
  · trivial
  · split
    · trivial
    · refine never_bind (never_perform (fun h => h)) (fun claims => ?_)
      split
      · trivial
      · refine never_bind (never_upsert_oidc_user _) (fun user => ?_)
        split <;> trivial

theorem never_logout (headers : Headers) : (Server.logout headers).Never issues := by
  refine never_bind (never_perform (fun h => h)) (fun principal => ?_)
  split
  · exact never_bind (never_perform (fun h => h)) (fun _ => trivial)
  · trivial

theorem never_ite {α : Type} {c : Prop} {_ : Decidable c} {p q : Server.Handler α}
    (hp : p.Never issues) (hq : q.Never issues) : (if c then p else q).Never issues := by
  by_cases hc : c
  · rw [if_pos hc]
    exact hp
  · rw [if_neg hc]
    exact hq

theorem never_create_user (server : Server) (body : Server.CreateUserRequest) :
    (server.create_user body).Never issues := by
  unfold Server.create_user
  cases Server.create_user_error server body with
  | some err => exact True.intro
  | none =>
    refine never_bind (never_perform (fun h => h)) (fun existing => never_ite True.intro ?_)
    refine never_bind (never_perform (fun h => h)) (fun hash => ?_)
    exact never_bind (never_perform (fun h => h)) (fun _ => True.intro)

theorem never_set_user_oidc_link_email (user_id : Nat) (email : Option String) :
    (Server.set_user_oidc_link_email user_id email).Never issues := by
  unfold Server.set_user_oidc_link_email
  dsimp only
  split
  · exact never_perform (fun h => h)
  · refine never_bind (never_perform (fun h => h)) (fun taken => ?_)
    split
    · trivial
    · exact never_perform (fun h => h)

theorem never_link_user_oidc_sub (user_id : Nat) (sub : Option String) :
    (Server.link_user_oidc_sub user_id sub).Never issues := by
  unfold Server.link_user_oidc_sub
  dsimp only
  split
  · exact never_perform (fun h => h)
  · refine never_bind (never_perform (fun h => h)) (fun owner => ?_)
    split
    · trivial
    · exact never_perform (fun h => h)

theorem never_link_user_oidc (user_id : Nat) (body : Server.LinkOidcRequest) :
    (Server.link_user_oidc user_id body).Never issues := by
  have hlink : ((Server.mapping (Server.link_error "already linked")
      (Server.link_user_oidc_sub user_id (Directory.meant body.oidc_sub))).bind fun user =>
        done (Server.user_view user (Server.stored_role user) Table.empty)).Never issues :=
    never_bind (never_mapping (never_link_user_oidc_sub _ _)) (fun _ => trivial)
  unfold Server.link_user_oidc
  dsimp only
  split
  · split
    · exact never_bind (never_mapping (never_set_user_oidc_link_email _ _)) (fun _ => trivial)
    · exact hlink
  · refine never_bind (never_perform (fun h => h)) (fun owner => ?_)
    split
    · trivial
    · exact hlink

theorem never_seed_admin (local_auth : LocalAuthConfig) (username : String) (count : Nat) :
    (Server.seed_admin local_auth username count).Never issues := by
  unfold Server.seed_admin
  refine never_ite True.intro (never_ite True.intro ?_)
  cases local_auth.admin_password.filter (· ≠ "") with
  | none => exact True.intro
  | some password =>
    refine never_bind (never_perform (fun h => h)) (fun hash => ?_)
    exact never_bind (never_perform (fun h => h)) (fun _ => True.intro)

theorem never_ensure_bootstrap_admin (api : ApiConfig) :
    (Server.ensure_bootstrap_admin api).Never issues :=
  never_ite True.intro (never_ite True.intro
    (never_bind (never_perform (fun h => h)) (never_seed_admin api.local_auth _)))

theorem safe_ite {server : Server} {w : Nat} {α : Type} {Q : Except Failure α → World → Prop}
    {c : Prop} {_ : Decidable c} {p q : Server.Handler α} {s : World}
    (hp : (terms server).Safe server.machine w Q p s)
    (hq : (terms server).Safe server.machine w Q q s) :
    (terms server).Safe server.machine w Q (if c then p else q) s := by
  by_cases hc : c
  · rw [if_pos hc]
    exact hp
  · rw [if_neg hc]
    exact hq

/-- The row that a read by name answers with stands in the directory. -/
theorem read_exec (server : Server) (username : String) (o : Answer) (s : World)
    (user_row : Option AppUser)
    (h : (server.exec (.get_user_by_username username) o s).1 = .ok user_row) (user : AppUser)
    (hu : user_row = some user) :
    (server.exec (.get_user_by_username username) o s).2.directory.get user.id =
      some user.toUserRow := by
  simp only [Server.exec, World.method] at h ⊢
  cases hf : o.fault with
  | some e =>
    rw [hf] at h
    simp at h
  | none =>
    rw [hf] at h
    obtain rfl := Except.ok.inj h
    exact (Directory.of_get_user_by_username hu).1

/-- What a login does with the row it has read. -/
theorem safe_issue {server : Server} {w : Nat} {secret username : String} {user : AppUser}
    {s : World} (hsecret : session_secret server.api.local_auth = some secret)
    (hlocal : user.auth_source = "local")
    (hread : s.directory.get user.id = some user.toUserRow) {f : String × Nat →
      Server.Handler Server.LoginResponse} (hf : ∀ issued, (f issued).Never issues) :
    (terms server).Safe server.machine w (fun _ _ => True)
      ((perform (.issue_session_token secret user.id username (Server.stored_role user)
        user.session_version server.api.local_auth.session_ttl_secs)).bind f) s := by
  apply Terms.safe_bind
  apply Terms.safe_perform
  intro s₁ ha hs₁ o hm
  refine ⟨ahead_exec hm, settled_issue hs₁ hsecret hlocal (stored_role_as_str hread)
    ⟨s.directory, hread, ha⟩, ?_⟩
  split
  · exact safe_never (hf _) _
  · exact True.intro

/-- A login issues its token for the row it has read, which only moves ahead meanwhile. -/
theorem safe_login (server : Server) (w : Nat) (username password : String) (s : World) :
    (terms server).Safe server.machine w (fun _ _ => True) (server.login username password) s := by
  unfold Server.login
  apply safe_ite
  · exact True.intro
  · cases hsecret : session_secret server.api.local_auth with
    | none => exact True.intro
    | some secret =>
      apply safe_ite
      · exact True.intro
      · apply Terms.safe_bind
        apply Terms.safe_perform
        intro s₁ _ hs₁ o hm
        obtain ⟨ha, hs⟩ := @safe_call server w _ (.get_user_by_username (trim username)) o s₁
          (fun h => h) hs₁ hm
        refine ⟨ha, hs, ?_⟩
        have hread := read_exec server (trim username) o s₁
        cases hr : (server.machine.exec w (.get_user_by_username (trim username)) o s₁).1 with
        | error e => exact True.intro
        | ok user_row =>
          dsimp only
          have hfound := hread user_row hr
          cases huser : user_row.filter _ with
          | none => exact True.intro
          | some user =>
            obtain ⟨hrow, hok⟩ := Option.filter_eq_some_iff.mp huser
            have hlocal : user.auth_source = "local" := by
              rw [hrow] at hok
              by_cases hl : user.auth_source = "local"
              · exact hl
              · simp [Option.filter, hl] at hok
            refine safe_issue hsecret hlocal (hfound user hrow) (fun issued => ?_)
            exact never_bind (never_caught (never_perform (fun h => h))) (fun _ => True.intro)

theorem safe_answer {server : Server} {w : Nat} {α : Type} {p : Server.Handler α}
    (hp : p.Never issues) (s : World) :
    (terms server).Safe server.machine w (fun _ _ => True) (p.bind fun _ => done ()) s :=
  safe_never (@never_bind _ _ _ _ issues p (fun _ => done ()) hp (fun _ => True.intro)) s

/-- Every request keeps the terms. -/
theorem safe_program (server : Server) (w : Nat) (request : Server.Request) (s : World) :
    (terms server).Safe server.machine w (fun _ _ => True) (server.program request) s := by
  cases request with
  | ensure_bootstrap_admin => exact safe_never (never_ensure_bootstrap_admin server.api) s
  | login username password =>
    apply Terms.safe_bind
    refine Terms.safe_mono (safe_login server w username password s) ?_
    intro r s' _
    cases r <;> exact True.intro
  | logout headers => exact safe_answer (never_logout headers) s
  | oidc_sync headers => exact safe_answer (never_oidc_sync server headers) s
  | create_user body => exact safe_answer (never_create_user server body) s
  | link_user_oidc user_id body => exact safe_answer (never_link_user_oidc user_id body) s

/-- The runs in question: no sync changes the role of a local account. -/
def Orderly : Server.Users → Move Answer Empty → Prop :=
  onCalls (fun _ op _ w => KeepsLocalRoles op w.directory)

theorem settled_run {server : Server} {p : Server.Users} {moves : List (Move Answer Empty)}
    (hstart : server.Starts p) (hempty : p.state.journal = [])
    (h : Along server.machine Orderly p moves) :
    Settled server (p.run server.machine moves).state := by
  have hgood : (terms server).Good server.machine p := by
    refine ⟨⟨?_, ?_, ?_⟩, ?_⟩
    · intro later token claims earlier heq
      rw [hempty] at heq
      simp at heq
    · intro token claims hmem
      rw [hempty] at hmem
      simp at hmem
    · intro n hmem
      rw [hempty] at hmem
      simp at hmem
    · intro w
      rcases hstart w with hw | ⟨request, hw⟩
      · rw [hw]
        exact True.intro
      · rw [hw]
        exact safe_program server w request p.state
  refine (Terms.good_run (sound server) hgood (along_mono ?_ h)).inv
  intro q m hm
  cases m with
  | work w o => exact hm
  | crash w => exact True.intro
  | outside e => exact True.intro

/-- The token behind a local principal is on record, with the claims it was signed with. -/
theorem on_record {server : Server} {w : World} (hjwt : server.jwt.Documented)
    (hs : Settled server w) (hblank : server.api.local_auth.session_secret ≠ some "")
    {now : Nat} {headers : Headers} {uid : Int} {username : String} {role : AppRole}
    (hunforged : Unforged server w headers)
    (h : resolve_auth_principal server.jwt now headers server.api server.oidc (.ok w.directory) =
      .ok (.Local uid username role)) :
    ∃ secret token claims user, session_secret server.api.local_auth = some secret ∧
      bearer_token headers = some token ∧ Entry.issued token claims ∈ w.journal ∧
      claims.uid = uid ∧ claims.role = role ∧ w.directory.get_user_by_id uid = some user ∧
      user.session_version = claims.ver := by
  obtain ⟨secret, token, claims, user, hsecret, htoken, hvalid, huid, hrole, huser, hver⟩ :=
    of_resolve_local h
  have hkept : session_secret server.api.local_auth = some secret := by
    unfold session_secret
    rw [hsecret, Option.filter_eq_some_iff]
    refine ⟨rfl, decide_eq_true ?_⟩
    rintro rfl
    exact hblank hsecret
  have hread := of_validate_session_token hvalid
  obtain ⟨claims', hmem⟩ := hunforged secret token _ _ claims hkept htoken hread
  obtain ⟨secret', hsecret', hsigned⟩ := hs.signed token claims' hmem
  rw [hkept] at hsecret'
  obtain rfl := Option.some.inj hsecret'
  obtain rfl := hjwt.reads_back hsigned hread
  exact ⟨secret, token, claims, user, hkept, htoken, hmem, huid, hrole, huser, hver⟩

theorem current_of_settled {server : Server} {w : World} (hjwt : server.jwt.Documented)
    (hs : Settled server w) (hblank : server.api.local_auth.session_secret ≠ some "") :
    Current server w where
  rights := by
    intro now headers uid username role hunforged h
    obtain ⟨secret, token, claims, user, hsecret, htoken, hmem, rfl, rfl, huser, hver⟩ :=
      on_record hjwt hs hblank hunforged h
    obtain ⟨hrow, hid⟩ := Directory.of_get_user_by_id huser
    obtain ⟨later, earlier, hsplit⟩ := List.append_of_mem hmem
    obtain ⟨n, row, hn, hget, -, -, hkeep⟩ := hs.stands later token claims earlier hsplit
    obtain rfl : n = user.id := by omega
    rw [hrow] at hget
    obtain rfl := Option.some.inj hget
    obtain ⟨hrole, hout⟩ := hkeep hver.symm
    refine ⟨⟨secret, hsecret⟩, ⟨user.id, _, hid, hrow, hrole⟩, later, token, claims, earlier,
      htoken, hsplit, rfl, ?_⟩
    intro m hm
    obtain rfl : m = user.id := by omega
    exact hout
  revoked := by
    intro later token claims earlier n now headers hsplit hn hchanged _ _ uid username role _
    obtain ⟨m, row, hm, hget, hlocal, -, -⟩ := hs.stands later token claims earlier hsplit
    obtain rfl : m = n := by omega
    obtain ⟨row', hget', hother⟩ := hs.not_local m (by rw [hsplit]; simp [hchanged])
    rw [hget] at hget'
    obtain rfl := Option.some.inj hget'
    exact hother hlocal

/-- A session carries the rights its user has now, in every run under a secret that is not blank
whose syncs leave the roles of local accounts. -/
theorem sessions_carry_current_rights (server : Server) (p : Server.Users)
    (moves : List (Move Answer Empty)) (hjwt : server.jwt.Documented) (hstart : server.Starts p)
    (hempty : p.state.journal = []) (hblank : server.api.local_auth.session_secret ≠ some "")
    (h : Along server.machine Orderly p moves) :
    Current server (p.run server.machine moves).state :=
  current_of_settled hjwt (settled_run hstart hempty h) hblank

/-! ## A role taken away -/

namespace bench

def ann : UserRow where
  username := some "ann"
  password_hash := some "hash"
  oidc_sub := some "idp-ann"
  email := some "ann@example.org"
  display_name := some "Ann"
  role := "admin"
  auth_source := "local"
  created_at := 0
  updated_at := 0
  last_login_at := none
  session_version := 0

def claims : SessionClaims := session_claims 0 1 "ann" .Admin 0 86400

/-- A library that signs one session under one secret, and knows one token of the issuer. -/
def jwt : Jwt where
  decode_header := fun token =>
    if token = "session" then .ok ⟨.HS256, none⟩
    else if token = "oidc" then .ok ⟨.RS256, none⟩
    else .error "InvalidToken"
  encode := fun secret c =>
    if secret = "secret" ∧ c = claims then .ok "session" else .error "InvalidKeyFormat"
  decode_session := fun secret v _ token =>
    if secret = "secret" ∧ v.algorithm = .HS256 ∧ token = "session" then .ok claims
    else .error "InvalidSignature"
  from_jwk := fun jwk => .ok jwk.material
  decode := fun _ _ _ token =>
    if token = "oidc" then .ok (.Object [("sub", .Str "idp-ann")]) else .error "InvalidSignature"

theorem jwt_documented : jwt.Documented where
  algorithm := by
    intro secret v now token c h
    simp only [jwt] at h ⊢
    split at h
    · rename_i hc
      exact ⟨⟨.HS256, none⟩, by rw [if_pos hc.2.2], hc.2.1.symm⟩
    · simp at h
  reads_back := by
    intro secret v now token c c' h h'
    simp only [jwt] at h h'
    split at h
    · rename_i hc
      split at h'
      · rw [← Except.ok.inj h', hc.2]
      · simp at h'
    · simp at h

def server : Server where
  api := { local_auth := { session_secret := some "secret" } }
  oidc := some ⟨"https://idp", [], none, [⟨none, some "RS256", "key"⟩]⟩
  jwt := jwt
  lower := lower
  verify_password := fun _ _ => true
  decoy_password_hash := "decoy"

/-- Ann logs in; her groups at the identity provider grant no role any more. -/
def start : Server.Users where
  state := ⟨(Directory.empty.insert ann).2, []⟩
  worker := fun w =>
    if w = 0 then server.program (.login "ann" "password")
    else if w = 1 then server.program (.oidc_sync ⟨some "Bearer oidc"⟩)
    else done ()

theorem start_starts : server.Starts start := by
  intro w
  unfold start
  dsimp only
  split
  · exact Or.inr ⟨_, rfl⟩
  · split
    · exact Or.inr ⟨_, rfl⟩
    · exact Or.inl rfl

def logs_in : List (Move Answer Empty) := [.work 0 {}, .work 0 {}]

/-- The token is read, its subject looked up, the row rewritten. -/
def syncs : List (Move Answer Empty) := [.work 1 {}, .work 1 {}, .work 1 {}]

end bench

theorem session_on_record (moves : List (Move Answer Empty))
    (h : Entry.issued "session" bench.claims ∈
      (bench.start.run bench.server.machine moves).state.journal) :
    Unforged bench.server (bench.start.run bench.server.machine moves).state
      ⟨some "Bearer session"⟩ := by
  intro secret token v now claims _ htoken _
  have hbearer : bearer_token ⟨some "Bearer session"⟩ = some "session" := by decide +kernel
  rw [hbearer] at htoken
  obtain rfl := Option.some.inj htoken
  exact ⟨bench.claims, h⟩

/-- Ann's groups lost the role, the directory knows, and her session is an admin's all the same. -/
theorem a_demoted_admin_stays_one : ¬ SessionsAreCurrent := by
  intro h
  have hcurrent := (h bench.server bench.start (bench.logs_in ++ bench.syncs) bench.jwt_documented
    bench.start_starts rfl).rights 0 ⟨some "Bearer session"⟩ 1 "ann" .Admin
    (session_on_record _ (by decide +kernel)) rfl
  obtain ⟨n, row, hn, hget, hrole⟩ := hcurrent.user
  obtain rfl : n = 1 := by omega
  have hviewer : ((bench.start.run bench.server.machine
      (bench.logs_in ++ bench.syncs)).state.directory.get 1).map (fun row => row.role) =
        some "viewer" := by decide +kernel
  rw [hget, Option.map_some, hrole] at hviewer
  exact absurd hviewer (by decide)

theorem sessions_carry_current_rights_here :
    Current bench.server (bench.start.run bench.server.machine bench.logs_in).state :=
  sessions_carry_current_rights bench.server bench.start bench.logs_in bench.jwt_documented
    bench.start_starts rfl (by decide) ⟨trivial, trivial, trivial⟩

end xrelease.sessions
