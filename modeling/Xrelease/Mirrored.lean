-- The vault and the table `app_secret` side by side, over every run of calls and restarts: when
-- the vault holds just what the rows open to, and when a row opens to what was written.
import Xrelease.Sealed
import Xrelease.Trace

namespace xrelease.mirrored

open xrelease.config xrelease.sealed text keyed
open xrelease.config_apply (set_name vault_upsert)

variable {lib : Library}

/-! ## Runs -/

/-- A process and its database. `written` is the record of what the calls that went through say
of each name; no call reads it. -/
structure World (lib : Library) where
  env : Environment lib
  secrets : Secrets
  written : String → Option String

/-- A write that does something: neither its name nor its value is blank. -/
def Tells (write : SecretWrite) : Prop := trim write.name ≠ "" ∧ blank write.value = false

instance (write : SecretWrite) : Decidable (Tells write) := inferInstanceAs (Decidable (_ ∧ _))

def put (written : String → Option String) (write : SecretWrite) : String → Option String :=
  if Tells write then set_name written (trim write.name) (some write.value) else written

def drop (written : String → Option String) (name : String) : String → Option String :=
  if trim name = "" then written else set_name written (trim name) none

inductive Event (lib : Library) where
  /-- A new process, with an empty vault, opens the store. -/
  | Open (env : Environment lib) (answers : Answers)
  | Load (answers : Answers)
  | Upsert (writes : List SecretWrite) (answers : Answers)
  | Delete (names : List String) (answers : Answers)

def fresh (s : Secrets) : Secrets := { s with vault := fun _ => none }

def next (w : World lib) : Event lib → World lib
  | .Open env answers =>
    { w with env, secrets := (load_app_secrets_into_vault env answers (fresh w.secrets)).2 }
  | .Load answers =>
    { w with secrets := (load_app_secrets_into_vault w.env answers w.secrets).2 }
  | .Upsert writes answers =>
    match upsert_app_secrets w.env answers writes w.secrets with
    | (.ok _, secrets) => { w with secrets, written := writes.foldl put w.written }
    | (.error _, secrets) => { w with secrets }
  | .Delete names answers =>
    match delete_app_secrets answers names w.secrets with
    | (.ok _, secrets) => { w with secrets, written := names.foldl drop w.written }
    | (.error _, secrets) => { w with secrets }

/-- A process on a new database. -/
def start (env : Environment lib) : World lib :=
  ⟨env, ⟨fun _ => none, Table.empty⟩, fun _ => none⟩

/-- The vault maps the names of the rows, and no others, to what the rows open to. -/
def Mirrors (w : World lib) : Prop :=
  ∀ name,
    match w.secrets.app_secret.get name with
    | none => w.secrets.vault name = none
    | some row => ∃ value, open_secret_ciphertext w.env name row.ciphertext = .ok value ∧
        w.secrets.vault name = some value

/-- What a row opens to was written under its name. -/
def OpensAsWritten (w : World lib) : Prop :=
  ∀ name row value, w.secrets.app_secret.get name = some row →
    open_secret_ciphertext w.env name row.ciphertext = .ok value → w.written name = some value

/-- The law, in every state of a run. -/
def VaultMirrorsTable (w : World lib) (events : List (Event lib)) : Prop :=
  ∀ w' ∈ trace.states next w events, Mirrors w' ∧ OpensAsWritten w'

/-! ## What opens -/

theorem strip_prefix_append (pre s : String) : strip_prefix_of pre (pre ++ s) = some s := by
  unfold strip_prefix_of
  rw [String.toList_append, List.isPrefixOf_iff_prefix.mpr (List.prefix_append _ _)]
  simp

theorem open_blob_seal (key other : lib.Key) (nonce : Nonce) (value : String) :
    open_blob lib other (seal_blob lib key nonce value) =
      match lib.decrypt other nonce (lib.encrypt key nonce (as_bytes value)) with
      | none => .error ("ledger decrypt failed — wrong XRELEASE_CONFIG_ENCRYPTION_KEY or " ++
          "corrupt " ++ "secret")
      | some plain =>
        match from_utf8 plain with
        | none => .error "ledger plaintext is not UTF-8"
        | some value => .ok value := by
  have hne := List.length_pos_iff.mpr (lib.tagged key nonce (as_bytes value))
  have hlong : ¬ (nonce.1 ++ lib.encrypt key nonce (as_bytes value)).length ≤ NONCE_LEN := by
    rw [List.length_append, nonce.2]
    omega
  have htake : (nonce.1 ++ lib.encrypt key nonce (as_bytes value)).take NONCE_LEN = nonce.1 :=
    List.take_left' nonce.2
  have hdrop : (nonce.1 ++ lib.encrypt key nonce (as_bytes value)).drop NONCE_LEN =
      lib.encrypt key nonce (as_bytes value) := List.drop_left' nonce.2
  unfold open_blob seal_blob
  rw [strip_prefix_append]
  simp only [lib.bare, lib.decodes, dif_neg hlong, htake, hdrop]
  rfl

theorem is_encrypted_seal (key : lib.Key) (nonce : Nonce) (value : String) :
    is_encrypted (seal_blob lib key nonce value) = true := by
  unfold is_encrypted seal_blob
  rw [String.toList_append]
  exact List.isPrefixOf_iff_prefix.mpr (List.prefix_append _ _)

/-- A text made for a value: the value as it is, or sealed under some key. -/
def MadeFor (lib : Library) (value ciphertext : String) : Prop :=
  (is_encrypted value = false ∧ ciphertext = value) ∨
    ∃ key nonce, ciphertext = seal_blob lib key nonce value

/-- What is made for a value opens to that value or not at all. -/
theorem opens_made {env : Environment lib} {name value ciphertext opened : String}
    (h : MadeFor lib value ciphertext)
    (hopen : open_secret_ciphertext env name ciphertext = .ok opened) : opened = value := by
  unfold open_secret_ciphertext at hopen
  rcases h with ⟨hplain, rfl⟩ | ⟨key, nonce, rfl⟩
  · rw [hplain] at hopen
    exact (Except.ok.inj hopen).symm
  · rw [is_encrypted_seal, if_pos rfl] at hopen
    cases hcipher : env.ledger_cipher with
    | none => simp [hcipher] at hopen
    | some other =>
      simp only [hcipher, open_blob_seal] at hopen
      by_cases hkey : other = key
      · subst hkey
        simp only [lib.opens, from_as_bytes, Except.ok.injEq] at hopen
        exact hopen.symm
      · simp [lib.wrong_key key other nonce _ hkey] at hopen

/-- What a process stores, it can open. -/
theorem opens_stored {env : Environment lib} {answers : Answers} {turn : Nat}
    {name value ciphertext : String} (hplain : env.ledger_cipher = none → is_encrypted value = false)
    (h : ciphertext_of env answers turn value = .ok ciphertext) :
    MadeFor lib value ciphertext ∧ open_secret_ciphertext env name ciphertext = .ok value := by
  unfold ciphertext_of at h
  unfold open_secret_ciphertext
  cases hcipher : env.ledger_cipher with
  | none =>
    simp only [hcipher, Except.ok.injEq] at h
    subst h
    rw [hplain hcipher]
    exact ⟨.inl ⟨hplain hcipher, rfl⟩, rfl⟩
  | some key =>
    simp only [hcipher] at h
    split at h
    · simp at h
    · obtain rfl := Except.ok.inj h
      refine ⟨.inr ⟨key, _, rfl⟩, ?_⟩
      simp only [is_encrypted_seal, if_true, open_blob_seal, lib.opens, from_as_bytes]

/-! ## What is kept -/

/-- The rows stand for what was written, value by value; the values are among `T`. -/
structure Recorded (lib : Library) (T : String → Prop) (rows : Table String SecretRow)
    (written : String → Option String) : Prop where
  absent : ∀ name, rows.get name = none → written name = none
  made : ∀ name row, rows.get name = some row →
    ∃ value, written name = some value ∧ MadeFor lib value row.ciphertext ∧
      row.value_sha256 = lib.sha256 value ∧ T value

/-- A process that can open every row, with a vault of what was written. -/
structure Kept (env : Environment lib) (T : String → Prop) (s : Secrets)
    (written : String → Option String) : Prop where
  recorded : Recorded lib T s.app_secret written
  vault : s.vault = written
  opens : ∀ name row, s.app_secret.get name = some row →
    ∃ value, open_secret_ciphertext env name row.ciphertext = .ok value

variable {env : Environment lib} {answers : Answers} {T : String → Prop} {s : Secrets}
  {written : String → Option String}

theorem opens_as_written {w : World lib} (h : Recorded lib T w.secrets.app_secret w.written) :
    OpensAsWritten w := by
  intro name row opened hrow hopen
  obtain ⟨value, hvalue, hmade, -⟩ := h.made name row hrow
  rw [hvalue, opens_made hmade hopen]

theorem mirrors_of_kept {w : World lib} (h : Kept w.env T w.secrets w.written) : Mirrors w := by
  intro name
  rw [h.vault]
  split
  · rename_i hrow
    exact h.recorded.absent name hrow
  · rename_i row hrow
    obtain ⟨opened, hopen⟩ := h.opens name row hrow
    exact ⟨opened, hopen, opens_as_written h.recorded name row opened hrow hopen⟩

/-! ## Writes -/

/-- The vault already holds what the write tells. -/
def Idle (vault : String → Option String) (write : SecretWrite) : Prop :=
  Tells write → vault (trim write.name) = some write.value

theorem set_same {map : String → Option String} {name : String} {value : Option String}
    (h : map name = value) : set_name map name value = map := by
  funext n
  unfold set_name
  split
  · rename_i hn
    rw [hn, h]
  · rfl

/-- What one write of an upsert does. -/
theorem upsert_one_cases (env : Environment lib) (answers : Answers) (turn : Nat)
    (write : SecretWrite) (s : Secrets) :
    (¬ Tells write ∧ upsert_each env answers turn [write] s = (.ok (), s)) ∨
    (Tells write ∧ ∃ err, upsert_each env answers turn [write] s = (.error err, s)) ∨
    (Tells write ∧
      (∃ row, s.app_secret.get (trim write.name) = some row ∧
        row.value_sha256 = lib.sha256 write.value) ∧
      upsert_each env answers turn [write] s =
        (.ok (), { s with vault := set_name s.vault (trim write.name) (some write.value) })) ∨
    (Tells write ∧ ∃ ciphertext,
      ciphertext_of env answers turn write.value = .ok ciphertext ∧
      upsert_each env answers turn [write] s =
        (.ok (), {
          vault := set_name s.vault (trim write.name) (some write.value)
          app_secret := s.app_secret.upsert (trim write.name)
            ⟨ciphertext, lib.sha256 write.value⟩
            (fun _ => ⟨ciphertext, lib.sha256 write.value⟩) })) := by
  by_cases htells : Tells write
  · have hblank : (trim write.name = "" || blank write.value) = false := by
      simp [htells.1, htells.2]
    have hvault : vault_upsert s.vault (trim write.name) write.value =
        set_name s.vault (trim write.name) (some write.value) := by
      have hname : blank (trim write.name) = false := by
        unfold blank
        rw [vaulted.trim_trim]
        simpa using htells.1
      unfold vault_upsert
      rw [hname, htells.2]
      simp only [Bool.or_self, Bool.false_eq_true, if_false]
    simp only [upsert_each, hblank, hvault]
    cases hread : answers.fails (.unchanged turn) with
    | some err => exact .inr (.inl ⟨htells, err, by simp⟩)
    | none =>
      by_cases hsame : (s.app_secret.get (trim write.name)).any
          (fun row => row.value_sha256 = lib.sha256 write.value) = true
      · obtain ⟨row, hrow, hdigest⟩ := (Option.any_eq_true _ _).mp hsame
        exact .inr (.inr (.inl ⟨htells, ⟨row, hrow, of_decide_eq_true hdigest⟩, by simp [hsame]⟩))
      · cases hcipher : ciphertext_of env answers turn write.value with
        | error err => exact .inr (.inl ⟨htells, err, by simp [hsame]⟩)
        | ok ciphertext =>
          cases hinsert : answers.fails (.insert turn) with
          | some err => exact .inr (.inl ⟨htells, err, by simp [hsame]⟩)
          | none =>
            exact .inr (.inr (.inr ⟨htells, ciphertext, rfl, by simp [hsame]⟩))
  · have hblank : (trim write.name = "" || blank write.value) = true := by
      by_contra hno
      simp only [Bool.or_eq_true, decide_eq_true_eq, not_or, Bool.not_eq_true] at hno
      exact htells hno
    exact .inl ⟨htells, by simp only [upsert_each, hblank, if_true]⟩

theorem upsert_each_cons (env : Environment lib) (answers : Answers) (turn : Nat)
    (write : SecretWrite) (rest : List SecretWrite) (s : Secrets) :
    upsert_each env answers turn (write :: rest) s =
      match upsert_each env answers turn [write] s with
      | (.error err, s') => (.error err, s')
      | (.ok (), s') => upsert_each env answers (turn + 1) rest s' := by
  simp only [upsert_each]
  split
  · rfl
  · split
    · rfl
    · split
      · rfl
      · split
        · rfl
        · split <;> rfl

/-- A row made for a value, beside the value in the vault and in the record. -/
theorem kept_write (h : Kept env T s written) {name value : String} {row : SecretRow}
    (hmade : MadeFor lib value row.ciphertext)
    (hopens : open_secret_ciphertext env name row.ciphertext = .ok value)
    (hdigest : row.value_sha256 = lib.sha256 value) (hknown : T value) :
    Kept env T
      { vault := set_name s.vault name (some value)
        app_secret := s.app_secret.upsert name row (fun _ => row) }
      (set_name written name (some value)) := by
  have hget : ∀ n, (s.app_secret.upsert name row (fun _ => row)).get n =
      if n = name then some row else s.app_secret.get n := by
    intro n
    rw [Table.get_upsert]
    cases s.app_secret.get name <;> rfl
  refine ⟨⟨?_, ?_⟩, ?_, ?_⟩
  · intro n hnone
    rw [hget] at hnone
    unfold set_name
    split at hnone
    · simp at hnone
    · rename_i hn
      rw [if_neg hn]
      exact h.recorded.absent n hnone
  · intro n r hrow
    rw [hget] at hrow
    unfold set_name
    split at hrow
    · obtain rfl := Option.some.inj hrow
      rename_i hn
      rw [if_pos hn]
      exact ⟨value, rfl, hmade, hdigest, hknown⟩
    · rename_i hn
      rw [if_neg hn]
      exact h.recorded.made n r hrow
  · rw [← h.vault]
  · intro n r hrow
    rw [hget] at hrow
    split at hrow
    · obtain rfl := Option.some.inj hrow
      rename_i hn
      exact ⟨value, hn ▸ hopens⟩
    · exact h.opens n r hrow

variable {writes : List SecretWrite} {names : List String}

/-- The writes that go through leave the rows, the vault and the record in step. -/
theorem upsert_each_kept (hsha : ∀ a b, T a → T b → lib.sha256 a = lib.sha256 b → a = b)
    {turn : Nat} (h : Kept env T s written) (hsaid : ∀ write ∈ writes, T write.value)
    (hplain : env.ledger_cipher = none → ∀ write ∈ writes, Tells write →
      is_encrypted write.value = false) (hok : (upsert_each env answers turn writes s).1 = .ok ()) :
    Kept env T (upsert_each env answers turn writes s).2 (writes.foldl put written) := by
  induction writes generalizing turn s written with
  | nil => exact h
  | cons write rest ih =>
    have hrest : ∀ x ∈ rest, T x.value := fun x hx => hsaid x (List.mem_cons_of_mem _ hx)
    have hplains : env.ledger_cipher = none → ∀ x ∈ rest, Tells x →
        is_encrypted x.value = false := fun he x hx => hplain he x (List.mem_cons_of_mem _ hx)
    have hvalue := hsaid write (List.mem_cons_self ..)
    rw [upsert_each_cons] at hok ⊢
    rw [List.foldl_cons]
    rcases upsert_one_cases env answers turn write s with
      ⟨htells, heq⟩ | ⟨htells, err, heq⟩ | ⟨htells, ⟨row, hrow, hdigest⟩, heq⟩ |
      ⟨htells, ciphertext, hcipher, heq⟩
    · rw [heq] at hok ⊢
      unfold put
      rw [if_neg htells]
      exact ih h hrest hplains hok
    · rw [heq] at hok
      simp at hok
    · rw [heq] at hok ⊢
      unfold put
      rw [if_pos htells]
      -- the row is for this very value, and nothing changes
      obtain ⟨value, hwritten, -, hsum, hknown⟩ := h.recorded.made _ row hrow
      obtain rfl := hsha value write.value hknown hvalue (hsum.symm.trans hdigest)
      rw [set_same hwritten]
      rw [set_same (h.vault ▸ hwritten)] at hok ⊢
      exact ih h hrest hplains hok
    · rw [heq] at hok ⊢
      unfold put
      rw [if_pos htells]
      have hopened : MadeFor lib write.value ciphertext ∧
          open_secret_ciphertext env (trim write.name) ciphertext = .ok write.value :=
        opens_stored (fun he => hplain he write (List.mem_cons_self ..) htells) hcipher
      obtain ⟨hmade, hopens⟩ := hopened
      exact ih (kept_write h hmade hopens rfl hvalue) hrest hplains hok

/-- Writes of what the vault holds leave the vault alone, as far as they get. -/
theorem upsert_each_idle {turn : Nat}
    (hidle : ∀ n, (upsert_each env answers turn (writes.take n) s).1 = .ok () →
      ∀ write ∈ writes.take n, Idle s.vault write) :
    (upsert_each env answers turn writes s).2.vault = s.vault := by
  induction writes generalizing turn s with
  | nil => rfl
  | cons write rest ih =>
    have hone : (upsert_each env answers turn [write] s).1 = .ok () → Idle s.vault write := by
      intro hok
      exact hidle 1 (by simpa using hok) write (by simp)
    have hnext : ∀ vault rows, upsert_each env answers turn [write] s = (.ok (), ⟨vault, rows⟩) →
        vault = s.vault →
        (upsert_each env answers (turn + 1) rest ⟨vault, rows⟩).2.vault = s.vault := by
      intro vault rows heq hsame
      subst hsame
      apply ih
      intro n hok x hx
      refine hidle (n + 1) ?_ x (by simp [hx])
      rw [List.take_succ_cons, upsert_each_cons, heq]
      exact hok
    rw [upsert_each_cons]
    rcases upsert_one_cases env answers turn write s with
      ⟨htells, heq⟩ | ⟨htells, err, heq⟩ | ⟨htells, _, heq⟩ | ⟨htells, ciphertext, _, heq⟩
    · have := hnext _ _ heq rfl
      rwa [heq]
    · rw [heq]
    · have hsame : set_name s.vault (trim write.name) (some write.value) = s.vault :=
        set_same (hone (by rw [heq]) htells)
      have := hnext _ _ heq hsame
      rwa [heq]
    · have hsame : set_name s.vault (trim write.name) (some write.value) = s.vault :=
        set_same (hone (by rw [heq]) htells)
      have := hnext _ _ heq hsame
      rwa [heq]

/-! ## Deletions -/

/-- There is no row to delete. -/
def Absent (s : Secrets) (name : String) : Prop :=
  trim name ≠ "" → s.app_secret.get (trim name) = none

/-- What one deletion does. -/
theorem delete_one_cases (answers : Answers) (turn deleted : Nat) (name : String) (s : Secrets) :
    (delete_each answers turn deleted [name] s = (.ok deleted, s) ∧
      (trim name = "" ∨ s.app_secret.get (trim name) = none)) ∨
    (∃ err, delete_each answers turn deleted [name] s = (.error err, s)) ∨
    (trim name ≠ "" ∧ s.app_secret.get (trim name) ≠ none ∧
      delete_each answers turn deleted [name] s =
        (.ok (deleted + 1), {
          vault := set_name s.vault (trim name) none
          app_secret := s.app_secret.keep (fun n _ => n ≠ trim name) })) := by
  by_cases hname : trim name = ""
  · exact .inl ⟨by simp only [delete_each, if_pos hname], .inl hname⟩
  · simp only [delete_each, if_neg hname]
    cases hfail : answers.fails (.delete turn) with
    | some err => exact .inr (.inl ⟨err, rfl⟩)
    | none =>
      cases hrow : s.app_secret.get (trim name) with
      | none => exact .inl ⟨rfl, .inr rfl⟩
      | some row => exact .inr (.inr ⟨hname, by simp, rfl⟩)

theorem delete_each_cons (answers : Answers) (turn deleted : Nat) (name : String)
    (rest : List String) (s : Secrets) :
    delete_each answers turn deleted (name :: rest) s =
      match delete_each answers turn deleted [name] s with
      | (.error err, s') => (.error err, s')
      | (.ok count, s') => delete_each answers (turn + 1) count rest s' := by
  simp only [delete_each]
  split
  · rfl
  · split
    · rfl
    · split <;> rfl

theorem kept_drop (h : Kept env T s written) (name : String) :
    Kept env T
      { vault := set_name s.vault name none
        app_secret := s.app_secret.keep (fun n _ => n ≠ name) }
      (set_name written name none) := by
  have hget : ∀ n, (s.app_secret.keep (fun n _ => n ≠ name)).get n =
      if n = name then none else s.app_secret.get n := by
    intro n
    rw [Table.get_keep]
    split
    · rename_i hn
      simp [hn]
    · rename_i hn
      cases s.app_secret.get n <;> simp [hn]
  refine ⟨⟨?_, ?_⟩, ?_, ?_⟩
  · intro n hnone
    rw [hget] at hnone
    unfold set_name
    split
    · rfl
    · rename_i hn
      rw [if_neg hn] at hnone
      exact h.recorded.absent n hnone
  · intro n row hrow
    rw [hget] at hrow
    unfold set_name
    split at hrow
    · simp at hrow
    · rename_i hn
      rw [if_neg hn]
      exact h.recorded.made n row hrow
  · rw [← h.vault]
  · intro n row hrow
    rw [hget] at hrow
    split at hrow
    · simp at hrow
    · exact h.opens n row hrow

theorem delete_each_kept {turn deleted count : Nat} (h : Kept env T s written)
    (hok : (delete_each answers turn deleted names s).1 = .ok count) :
    Kept env T (delete_each answers turn deleted names s).2 (names.foldl drop written) := by
  induction names generalizing turn deleted s written with
  | nil => exact h
  | cons name rest ih =>
    rw [delete_each_cons] at hok ⊢
    rw [List.foldl_cons]
    rcases delete_one_cases answers turn deleted name s with
      ⟨heq, habsent⟩ | ⟨err, heq⟩ | ⟨hname, _, heq⟩
    · rw [heq] at hok ⊢
      have hsame : drop written name = written := by
        unfold drop
        rcases habsent with hname | hrow
        · rw [if_pos hname]
        · split
          · rfl
          · exact set_same (h.recorded.absent _ hrow)
      rw [hsame]
      exact ih h hok
    · rw [heq] at hok
      simp at hok
    · rw [heq] at hok ⊢
      unfold drop
      rw [if_neg hname]
      exact ih (kept_drop h (trim name)) hok

/-- Deletions of what is not there leave the vault alone, as far as they get. -/
theorem delete_each_idle {turn deleted : Nat}
    (hidle : ∀ n count, (delete_each answers turn deleted (names.take n) s).1 = .ok count →
      ∀ name ∈ names.take n, Absent s name) :
    (delete_each answers turn deleted names s).2.vault = s.vault := by
  induction names generalizing turn deleted with
  | nil => rfl
  | cons name rest ih =>
    rw [delete_each_cons]
    rcases delete_one_cases answers turn deleted name s with
      ⟨heq, -⟩ | ⟨err, heq⟩ | ⟨hname, hrow, heq⟩
    · have hnext : (delete_each answers (turn + 1) deleted rest s).2.vault = s.vault := by
        apply ih
        intro n count hok x hx
        refine hidle (n + 1) count ?_ x (by simp [hx])
        rw [List.take_succ_cons, delete_each_cons, heq]
        exact hok
      rwa [heq]
    · rw [heq]
    · have habsent := hidle 1 (deleted + 1) (by simp [heq]) name (by simp)
      exact absurd (habsent hname) hrow

/-! ## Loading -/

theorem open_entries_look {rows : List (String × SecretRow)} {entries : List (String × String)}
    (h : open_entries env rows = .ok entries) (name : String) :
    match Table.look name rows with
    | none => Table.look name entries = none
    | some row => ∃ value, open_secret_ciphertext env name row.ciphertext = .ok value ∧
        Table.look name entries = some value := by
  induction rows generalizing entries with
  | nil =>
    obtain rfl := Except.ok.inj h
    rfl
  | cons nr rest ih =>
    obtain ⟨n, row⟩ := nr
    unfold open_entries at h
    split at h
    · simp at h
    · rename_i value hopen
      cases hrest : open_entries env rest with
      | error err => simp [hrest, Except.map] at h
      | ok others =>
        simp only [hrest, Except.map, Except.ok.injEq] at h
        subst h
        unfold Table.look
        by_cases hn : n = name
        · subst hn
          simp only [if_true]
          exact ⟨value, hopen, rfl⟩
        · simp only [if_neg hn]
          exact ih hrest

theorem look_arrange (order : List Nat) (t : Table String SecretRow) (name : String) :
    Table.look name (arrange order t.rows) = t.get name := by
  have hperm := arrange_perm order t.rows
  have hnodup : ((arrange order t.rows).map Prod.fst).Nodup :=
    (hperm.map Prod.fst).nodup_iff.mpr t.nodup
  apply Option.ext
  intro row
  rw [← Table.mem_rows_iff, ← hperm.mem_iff]
  exact ⟨Table.mem_of_look, Table.look_of_mem hnodup⟩

/-- A load that goes through opens every row and fills the vault with just that. -/
theorem load_ok (hok : (load_app_secrets_into_vault env answers s).1 = .ok ()) (name : String) :
    (load_app_secrets_into_vault env answers s).2.app_secret = s.app_secret ∧
    match s.app_secret.get name with
    | none => (load_app_secrets_into_vault env answers s).2.vault name = none
    | some row => ∃ value, open_secret_ciphertext env name row.ciphertext = .ok value ∧
        (load_app_secrets_into_vault env answers s).2.vault name = some value := by
  unfold load_app_secrets_into_vault at hok ⊢
  split at hok
  · simp at hok
  · simp at hok
  · split at hok
    · simp at hok
    · rename_i hentries
      have := open_entries_look hentries name
      rw [look_arrange] at this
      exact ⟨rfl, this⟩

theorem load_error {err : String}
    (h : (load_app_secrets_into_vault env answers s).1 = .error err) :
    (load_app_secrets_into_vault env answers s).2 = s := by
  unfold load_app_secrets_into_vault at h ⊢
  split
  · rfl
  · rfl
  · split <;> simp_all

/-- Whatever opens it, a load that goes through leaves rows and vault in step. -/
theorem load_kept (h : Recorded lib T s.app_secret written)
    (hok : (load_app_secrets_into_vault env answers s).1 = .ok ()) :
    Kept env T (load_app_secrets_into_vault env answers s).2 written := by
  have hrows := (load_ok hok "").1
  refine ⟨by rwa [hrows], ?_, ?_⟩
  · funext name
    have hload := (load_ok hok name).2
    split at hload
    · rename_i hrow
      rw [hload, h.absent name hrow]
    · rename_i row hrow
      obtain ⟨opened, hopen, hvault⟩ := hload
      obtain ⟨value, hvalue, hmade, -⟩ := h.made name row hrow
      rw [hvault, hvalue, opens_made hmade hopen]
  · intro name row hrow
    have hload := (load_ok hok name).2
    rw [hrows] at hrow
    rw [hrow] at hload
    obtain ⟨value, hopen, -⟩ := hload
    exact ⟨value, hopen⟩

/-! ## Calls -/

/-- The transaction of a call is opened. -/
def Begun (answers : Answers) : Prop :=
  answers.fails .conn = none ∧ answers.fails .transaction = none

def sealable (env : Environment lib) : Bool :=
  env.ledger_cipher.isSome || env.plaintext_ledger_allowed

/-- The condition on a call. A process opens the store with a load that goes through. In plain
text no value looks like a sealed one. A call that fails has changed nothing in the vault before
the statement that fails. -/
def Fits (w : World lib) : Event lib → Prop
  | .Open env answers => (load_app_secrets_into_vault env answers (fresh w.secrets)).1 = .ok ()
  | .Load _ => True
  | .Upsert writes answers =>
    match (upsert_app_secrets w.env answers writes w.secrets).1 with
    | .ok () => w.env.ledger_cipher = none →
        ∀ write ∈ writes, Tells write → is_encrypted write.value = false
    | .error _ => sealable w.env = true → Begun answers →
        ∀ n, (upsert_each w.env answers 0 (writes.take n) w.secrets).1 = .ok () →
          ∀ write ∈ writes.take n, Idle w.secrets.vault write
  | .Delete names answers =>
    match (delete_app_secrets answers names w.secrets).1 with
    | .ok _ => True
    | .error _ => Begun answers →
        ∀ n count, (delete_each answers 0 0 (names.take n) w.secrets).1 = .ok count →
          ∀ name ∈ names.take n, Absent w.secrets name

/-- The values that an event brings. -/
def Event.values : Event lib → List String
  | .Upsert writes _ => writes.map (·.value)
  | _ => []

theorem commit_ok {α : Type} {a : α} {done : Except String α × Secrets}
    (h : (commit answers s done).1 = .ok a) : done.1 = .ok a ∧ (commit answers s done).2 = done.2 := by
  unfold commit at h ⊢
  split at h
  · simp at h
  · simp at h
  · rename_i hdone hcommit
    obtain rfl := Except.ok.inj h
    exact ⟨hdone, rfl⟩

theorem commit_error {α : Type} {err : String} {done : Except String α × Secrets}
    (h : (commit answers s done).1 = .error err) :
    (commit answers s done).2 = { s with vault := done.2.vault } := by
  unfold commit at h ⊢
  split at h
  · simp_all
  · simp_all
  · simp at h

theorem upsert_ok_kept (hsha : ∀ a b, T a → T b → lib.sha256 a = lib.sha256 b → a = b)
    (h : Kept env T s written) (hsaid : ∀ write ∈ writes, T write.value)
    (hplain : env.ledger_cipher = none → ∀ write ∈ writes, Tells write →
      is_encrypted write.value = false)
    (hok : (upsert_app_secrets env answers writes s).1 = .ok ()) :
    Kept env T (upsert_app_secrets env answers writes s).2 (writes.foldl put written) := by
  unfold upsert_app_secrets at hok ⊢
  split at hok
  · rename_i hnone
    rw [if_pos hnone, hnone]
    exact h
  · rename_i hsome
    rw [if_neg hsome]
    split at hok
    · simp at hok
    · rename_i hseal
      rw [if_neg hseal]
      split at hok
      · simp at hok
      · simp at hok
      · obtain ⟨hloop, heq⟩ := commit_ok hok
        rw [heq]
        exact upsert_each_kept hsha h hsaid hplain hloop

theorem upsert_error_same {err : String}
    (herr : (upsert_app_secrets env answers writes s).1 = .error err)
    (hidle : sealable env = true → Begun answers →
      ∀ n, (upsert_each env answers 0 (writes.take n) s).1 = .ok () →
        ∀ write ∈ writes.take n, Idle s.vault write) :
    (upsert_app_secrets env answers writes s).2 = s := by
  unfold upsert_app_secrets at herr ⊢
  split at herr
  · simp at herr
  · rename_i hsome
    rw [if_neg hsome]
    split at herr
    · rename_i hseal
      rw [if_pos hseal]
    · rename_i hseal
      rw [if_neg hseal]
      split at herr
      · rfl
      · rfl
      · rename_i hconn htransaction
        have hsealable : sealable env = true := by
          unfold sealable
          revert hseal
          cases env.ledger_cipher <;> cases env.plaintext_ledger_allowed <;> simp
        rw [commit_error herr, upsert_each_idle (hidle hsealable ⟨hconn, htransaction⟩)]

theorem delete_ok_kept {count : Nat} (h : Kept env T s written)
    (hok : (delete_app_secrets answers names s).1 = .ok count) :
    Kept env T (delete_app_secrets answers names s).2 (names.foldl drop written) := by
  unfold delete_app_secrets at hok ⊢
  split at hok
  · rename_i hnone
    rw [if_pos hnone, hnone]
    exact h
  · rename_i hsome
    rw [if_neg hsome]
    split at hok
    · simp at hok
    · simp at hok
    · obtain ⟨hloop, heq⟩ := commit_ok hok
      rw [heq]
      exact delete_each_kept h hloop

theorem delete_error_same {err : String}
    (herr : (delete_app_secrets answers names s).1 = .error err) (hidle : Begun answers →
      ∀ n count, (delete_each answers 0 0 (names.take n) s).1 = .ok count →
        ∀ name ∈ names.take n, Absent s name) :
    (delete_app_secrets answers names s).2 = s := by
  unfold delete_app_secrets at herr ⊢
  split at herr
  · simp at herr
  · rename_i hsome
    rw [if_neg hsome]
    split at herr
    · rfl
    · rfl
    · rename_i hconn htransaction
      rw [commit_error herr, delete_each_idle (hidle ⟨hconn, htransaction⟩)]

theorem env_upsert (w : World lib) (writes : List SecretWrite) (answers : Answers) :
    (next w (.Upsert writes answers)).env = w.env := by
  simp only [next]
  split <;> rfl

theorem next_kept (hsha : ∀ a b, T a → T b → lib.sha256 a = lib.sha256 b → a = b)
    {w : World lib} {e : Event lib} (h : Kept w.env T w.secrets w.written) (hfits : Fits w e)
    (hsaid : ∀ value ∈ e.values, T value) :
    Kept (next w e).env T (next w e).secrets (next w e).written := by
  cases e with
  | Open env answers => exact load_kept h.recorded hfits
  | Load answers =>
    cases hload : (load_app_secrets_into_vault w.env answers w.secrets).1 with
    | ok _ => exact load_kept h.recorded hload
    | error err =>
      simp only [next, load_error hload]
      exact h
  | Upsert writes answers =>
    have hvalues : ∀ write ∈ writes, T write.value :=
      fun write hw => hsaid write.value (List.mem_map_of_mem hw)
    simp only [Fits] at hfits
    cases hcall : upsert_app_secrets w.env answers writes w.secrets with
    | mk result secrets =>
      cases result with
      | ok _ =>
        have hok : (upsert_app_secrets w.env answers writes w.secrets).1 = .ok () := by rw [hcall]
        have hkept := upsert_ok_kept hsha h hvalues (by simpa [hcall] using hfits) hok
        rw [hcall] at hkept
        simp only [next, hcall]
        exact hkept
      | error err =>
        have hsame := upsert_error_same (by rw [hcall]) (by simpa [hcall] using hfits)
        rw [hcall] at hsame
        change secrets = w.secrets at hsame
        subst hsame
        simp only [next, hcall]
        exact h
  | Delete names answers =>
    simp only [Fits] at hfits
    cases hcall : delete_app_secrets answers names w.secrets with
    | mk result secrets =>
      cases result with
      | ok count =>
        have hok : (delete_app_secrets answers names w.secrets).1 = .ok count := by rw [hcall]
        have hkept := delete_ok_kept h hok
        rw [hcall] at hkept
        simp only [next, hcall]
        exact hkept
      | error err =>
        have hsame := delete_error_same (by rw [hcall]) (by simpa [hcall] using hfits)
        rw [hcall] at hsame
        change secrets = w.secrets at hsame
        subst hsame
        simp only [next, hcall]
        exact h

/-! ## The law -/

theorem start_kept (env : Environment lib) (T : String → Prop) :
    Kept (start env).env T (start env).secrets (start env).written where
  recorded := ⟨fun _ _ => rfl, fun _ _ h => by simp [start] at h⟩
  vault := rfl
  opens := fun _ _ h => by simp [start] at h

/-- In every run of restarts, loads, upserts and deletions, whatever fails, in which a process
opens the store with a load that goes through, plain values do not look sealed, and a call that
fails has changed nothing before, the vault is the table, and what opens is what was written. -/
theorem the_vault_mirrors_the_table (env : Environment lib) (events : List (Event lib))
    (hsha : ∀ a ∈ events.flatMap Event.values, ∀ b ∈ events.flatMap Event.values,
      lib.sha256 a = lib.sha256 b → a = b)
    (h : trace.Along next Fits (start env) events) : VaultMirrorsTable (start env) events := by
  have hsaid : ∀ e ∈ events, ∀ value ∈ e.values, value ∈ events.flatMap Event.values :=
    fun e he value hv => List.mem_flatMap.mpr ⟨e, he, hv⟩
  have hkept : ∀ w ∈ trace.states next (start env) events,
      Kept w.env (· ∈ events.flatMap Event.values) w.secrets w.written :=
    trace.along_all
      (fun w e hw ⟨hfits, hmem⟩ =>
        next_kept (fun a b ha hb => hsha a ha b hb) hw hfits (hsaid e hmem))
      (start_kept env _) (trace.along_mem h)
  intro w hw
  exact ⟨mirrors_of_kept (hkept w hw), opens_as_written (hkept w hw).recorded⟩

/-! ## A lab -/

theorem lab_char : ∀ k : Fin 256, (Char.ofNat (k.val + 256)).toNat = k.val + 256 ∧
    is_whitespace (Char.ofNat (k.val + 256)) = false := by decide +kernel

/-- One key, and one character beyond ASCII for each byte. -/
def lab : Library where
  Key := Unit
  encrypt := fun _ _ plain => 0 :: plain
  decrypt := fun _ _ sealed_ => sealed_.tail?
  encode := fun bytes => String.ofList (bytes.map (fun b => Char.ofNat (b.toNat + 256)))
  decode := fun s => .ok (s.toList.map (fun c => UInt8.ofNat (c.toNat - 256)))
  sha256 := fun s => s
  opens := fun _ _ _ => rfl
  wrong_key := fun _ _ _ _ h => absurd rfl h
  tagged := fun _ _ _ => List.cons_ne_nil _ _
  decodes := by
    intro bytes
    rw [String.toList_ofList, List.map_map]
    congr 1
    apply List.map_id''
    intro b
    have hb := (lab_char ⟨b.toNat, b.toNat_lt⟩).1
    simp only [Function.comp_apply] at hb ⊢
    rw [hb, Nat.add_sub_cancel]
    simp
  bare := by
    intro bytes
    unfold trim
    rw [vaulted.trimmed_of_clean, String.ofList_toList]
    intro c hc
    rw [String.toList_ofList, List.mem_map] at hc
    obtain ⟨b, -, rfl⟩ := hc
    exact (lab_char ⟨b.toNat, b.toNat_lt⟩).2

/-- Secrets are kept as they are. -/
def plain_lab : Environment lab := ⟨none, true⟩

/-- The second of two writes is not inserted. -/
def half_way : Answers :=
  { fails := fun st => if st = .insert 1 then some "connection closed" else none }

/-- A failed upsert leaves its first write in the vault, and a plain value that looks sealed does
not open. -/
theorem the_vault_runs_ahead :
    ¬ VaultMirrorsTable (start plain_lab) [.Upsert [⟨"A", "1"⟩, ⟨"B", "2"⟩] half_way] ∧
      ¬ VaultMirrorsTable (start plain_lab) [.Upsert [⟨"A", "xrenc1:"⟩] {}] := by
  constructor
  · intro h
    have hmirrors := (h (next _ _) (.tail _ (.head _))).1 "A"
    have hvault : (next (start plain_lab)
        (.Upsert [⟨"A", "1"⟩, ⟨"B", "2"⟩] half_way)).secrets.vault "A" = some "1" := by
      decide +kernel
    have hrow : (next (start plain_lab)
        (.Upsert [⟨"A", "1"⟩, ⟨"B", "2"⟩] half_way)).secrets.app_secret.get "A" = none := by
      decide +kernel
    rw [hrow, hvault] at hmirrors
    simp at hmirrors
  · intro h
    have hmirrors := (h (next _ _) (.tail _ (.head _))).1 "A"
    have hrow : (next (start plain_lab)
        (.Upsert [⟨"A", "xrenc1:"⟩] {})).secrets.app_secret.get "A" =
          some ⟨"xrenc1:", "xrenc1:"⟩ := by
      decide +kernel
    rw [hrow] at hmirrors
    obtain ⟨value, hopen, -⟩ := hmirrors
    have hmarked : is_encrypted "xrenc1:" = true := by decide +kernel
    simp only [open_secret_ciphertext, hmarked, if_true, env_upsert] at hopen
    simp [start, plain_lab] at hopen

theorem plain_fits {w : World lab}
    (hok : (upsert_app_secrets w.env answers writes w.secrets).1 = .ok ())
    (hplain : writes.all (fun write => !is_encrypted write.value) = true) :
    Fits w (.Upsert writes answers) := by
  simp only [Fits, hok]
  intro _ write hwrite _
  simpa using List.all_eq_true.mp hplain write hwrite

theorem deletion_fits {w : World lab} (count : Nat)
    (hok : (delete_app_secrets answers names w.secrets).1 = .ok count) :
    Fits w (.Delete names answers) := by
  simp only [Fits, hok]

/-- Two writes, a failure after one that repeats what is there, and a deletion. -/
theorem the_vault_mirrors_the_table_here :
    VaultMirrorsTable (start plain_lab)
      [.Open plain_lab {}, .Upsert [⟨"A", "1"⟩, ⟨"B", "2"⟩] {},
        .Upsert [⟨"A", "1"⟩, ⟨"C", "3"⟩] half_way, .Delete ["A"] {}] := by
  refine the_vault_mirrors_the_table plain_lab _ (fun _ _ _ _ h => h) ?_
  have hopen : Fits (start plain_lab) (.Open plain_lab {}) := by
    unfold Fits
    decide +kernel
  refine ⟨hopen, plain_fits (by decide +kernel) (by decide +kernel), ?_,
    deletion_fits 1 (by decide +kernel), trivial⟩
  intro _ _ n hok write hwrite
  rcases n with _ | _ | n
  · simp at hwrite
  · obtain rfl := List.mem_singleton.mp hwrite
    exact fun _ => rfl
  · exact absurd hok (by simp [List.take]; exact fun h => nomatch h)

end xrelease.mirrored
