-- The table `app_secret` and the vault of the process (`store/postgres/app_secret.rs`,
-- `crypto/ledger.rs`, `config/vault.rs`): secrets are sealed under a key or, in a lab, kept as
-- they are; every statement of a call may fail.
import Xrelease.Apply

namespace xrelease.sealed

open xrelease.config text keyed
open xrelease.config_apply (set_name vault_upsert)

/-! ## Sealing -/

abbrev Bytes := List UInt8

def LEDGER_BLOB_PREFIX : String := "xrenc1:"

def NONCE_LEN : Nat := 12

abbrev Nonce := { bytes : Bytes // bytes.length = NONCE_LEN }

def as_bytes (s : String) : Bytes := s.toUTF8.data.toList

def from_utf8 (bytes : Bytes) : Option String := String.fromUTF8? ⟨bytes.toArray⟩

theorem from_as_bytes (s : String) : from_utf8 (as_bytes s) = some s := by
  unfold from_utf8 as_bytes String.fromUTF8?
  have h : (⟨s.toUTF8.data.toList.toArray⟩ : ByteArray) = s.toByteArray := by
    simp
  rw [h, dif_pos s.isValidUTF8]
  rfl

/-- AES-256-GCM, base64 and SHA-256 in hex. -/
structure Library where
  Key : Type
  encrypt : Key → Nonce → Bytes → Bytes
  decrypt : Key → Nonce → Bytes → Option Bytes
  encode : Bytes → String
  decode : String → Except String Bytes
  sha256 : String → String
  opens : ∀ key nonce plain, decrypt key nonce (encrypt key nonce plain) = some plain
  wrong_key : ∀ key other nonce plain, other ≠ key →
    decrypt other nonce (encrypt key nonce plain) = none
  /-- There is a tag even where there is nothing to seal. -/
  tagged : ∀ key nonce plain, encrypt key nonce plain ≠ []
  decodes : ∀ bytes, decode (encode bytes) = .ok bytes
  bare : ∀ bytes, trim (encode bytes) = encode bytes

variable (lib : Library)

def is_encrypted (stored : String) : Bool :=
  LEDGER_BLOB_PREFIX.toList.isPrefixOf stored.toList

def seal_blob (key : lib.Key) (nonce : Nonce) (plaintext : String) : String :=
  LEDGER_BLOB_PREFIX ++ lib.encode (nonce.1 ++ lib.encrypt key nonce (as_bytes plaintext))

def open_blob (key : lib.Key) (stored : String) : Except String String :=
  match strip_prefix_of LEDGER_BLOB_PREFIX stored with
  | none => .error "app_secret ciphertext missing xrenc1: prefix"
  | some payload =>
    match lib.decode (trim payload) with
    | .error err => .error ("ledger ciphertext base64: " ++ err)
    | .ok packed =>
      if h : packed.length ≤ NONCE_LEN then .error "ledger ciphertext truncated (missing nonce)"
      else
        have hlength : (packed.take NONCE_LEN).length = NONCE_LEN := by
          rw [List.length_take]
          omega
        match lib.decrypt key ⟨packed.take NONCE_LEN, hlength⟩ (packed.drop NONCE_LEN) with
        | none =>
          .error ("ledger decrypt failed — wrong XRELEASE_CONFIG_ENCRYPTION_KEY or corrupt " ++
            "secret")
        | some plain =>
          match from_utf8 plain with
          | none => .error "ledger plaintext is not UTF-8"
          | some value => .ok value

/-! ## The store -/

/-- What the environment says of sealing: the key, and whether a lab may do without. -/
structure Environment where
  ledger_cipher : Option lib.Key
  plaintext_ledger_allowed : Bool

structure SecretRow where
  ciphertext : String
  value_sha256 : String
deriving DecidableEq

/-- The vault of the process beside the rows it stands for. -/
structure Secrets where
  vault : String → Option String
  app_secret : Table String SecretRow

/-- The statements of a call; those in a loop by their turn. -/
inductive Statement where
  | conn
  | query
  | transaction
  | unchanged (turn : Nat)
  | seal (turn : Nat)
  | insert (turn : Nat)
  | delete (turn : Nat)
  | commit
deriving DecidableEq

/-- What one call meets: which statements fail, the nonces drawn, the order of the rows. -/
structure Answers where
  fails : Statement → Option String := fun _ => none
  nonce : Nat → Nonce := fun _ => ⟨List.replicate NONCE_LEN 0, rfl⟩
  order : List Nat := []

variable {lib} (env : Environment lib) (answers : Answers)

def open_secret_ciphertext (name ciphertext : String) : Except String String :=
  if is_encrypted ciphertext then
    match env.ledger_cipher with
    | none =>
      .error ("app_secret `" ++ name ++
        "` is encrypted but XRELEASE_CONFIG_ENCRYPTION_KEY is unset")
    | some key => open_blob lib key ciphertext
  else .ok ciphertext

/-- Open the rows one by one; the first that does not open ends it. -/
def open_entries : List (String × SecretRow) → Except String (List (String × String))
  | [] => .ok []
  | (name, row) :: rest =>
    match open_secret_ciphertext env name row.ciphertext with
    | .error err => .error err
    | .ok value => (open_entries rest).map ((name, value) :: ·)

/-- The vault is replaced as a whole, once every row has opened. -/
def load_app_secrets_into_vault (s : Secrets) : Except String Unit × Secrets :=
  match answers.fails .conn, answers.fails .query with
  | some err, _ => (.error err, s)
  | none, some err => (.error err, s)
  | none, none =>
    match open_entries env (arrange answers.order s.app_secret.rows) with
    | .error err => (.error err, s)
    | .ok entries => (.ok (), { s with vault := fun name => Table.look name entries })

/-- The text stored for a value. -/
def ciphertext_of (turn : Nat) (value : String) : Except String String :=
  match env.ledger_cipher with
  | none => .ok value
  | some key =>
    match answers.fails (.seal turn) with
    | some err => .error err
    | none => .ok (seal_blob lib key (answers.nonce turn) value)

/-- The writes of an upsert, in its transaction; the vault follows each of them at once. -/
def upsert_each (turn : Nat) : List SecretWrite → Secrets → Except String Unit × Secrets
  | [], s => (.ok (), s)
  | write :: rest, s =>
    let name := trim write.name
    if name = "" || blank write.value then upsert_each (turn + 1) rest s
    else
      let digest := lib.sha256 write.value
      let kept : Secrets := { s with vault := vault_upsert s.vault name write.value }
      match answers.fails (.unchanged turn) with
      | some err => (.error err, s)
      | none =>
        if (s.app_secret.get name).any (fun row => row.value_sha256 = digest) then
          upsert_each (turn + 1) rest kept
        else
          match ciphertext_of env answers turn write.value with
          | .error err => (.error err, s)
          | .ok ciphertext =>
            match answers.fails (.insert turn) with
            | some err => (.error err, s)
            | none =>
              upsert_each (turn + 1) rest
                { kept with
                  app_secret := s.app_secret.upsert name ⟨ciphertext, digest⟩
                    (fun _ => ⟨ciphertext, digest⟩) }

/-- End a transaction: the rows are those of `done` or, when it does not commit, those of `s`;
the vault is what it was made on the way. -/
def commit {α : Type} (s : Secrets) (done : Except String α × Secrets) :
    Except String α × Secrets :=
  match done.1, answers.fails .commit with
  | .error err, _ => (.error err, { s with vault := done.2.vault })
  | .ok _, some err => (.error err, { s with vault := done.2.vault })
  | .ok a, none => (.ok a, done.2)

def upsert_app_secrets (writes : List SecretWrite) (s : Secrets) : Except String Unit × Secrets :=
  if writes = [] then (.ok (), s)
  else if env.ledger_cipher.isNone && !env.plaintext_ledger_allowed then
    (.error ("inline config secrets require XRELEASE_CONFIG_ENCRYPTION_KEY (or " ++
      "XRELEASE_ALLOW_PLAINTEXT_CONFIG_LEDGER=1 for lab only)"), s)
  else
    match answers.fails .conn, answers.fails .transaction with
    | some err, _ => (.error err, s)
    | none, some err => (.error err, s)
    | none, none => commit answers s (upsert_each env answers 0 writes s)

/-- The deletions of a call, in its transaction. -/
def delete_each (turn deleted : Nat) : List String → Secrets → Except String Nat × Secrets
  | [], s => (.ok deleted, s)
  | name :: rest, s =>
    let name := trim name
    if name = "" then delete_each (turn + 1) deleted rest s
    else
      match answers.fails (.delete turn) with
      | some err => (.error err, s)
      | none =>
        if (s.app_secret.get name).isSome then
          delete_each (turn + 1) (deleted + 1) rest
            { vault := set_name s.vault name none
              app_secret := s.app_secret.keep (fun n _ => n ≠ name) }
        else delete_each (turn + 1) deleted rest s

/-- Delete sealed secrets and drop them from the vault; the answer is how many there were. -/
def delete_app_secrets (names : List String) (s : Secrets) : Except String Nat × Secrets :=
  if names = [] then (.ok 0, s)
  else
    match answers.fails .conn, answers.fails .transaction with
    | some err, _ => (.error err, s)
    | none, some err => (.error err, s)
    | none, none => commit answers s (delete_each answers 0 0 names s)

end xrelease.sealed
