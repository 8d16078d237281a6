-- What is kept of a secret and of the key it is sealed under (`crypto/ledger.rs`), down to the
-- text: the key is read from the environment in base64 or in hex, and a sealed text opens to a
-- value only when it is the seal of that value.
import Xrelease.Base64
import Xrelease.Hex
import Xrelease.Mirrored
import Xrelease.Places

namespace xrelease.crypto

open sealed text

/-! ## The key -/

def KEY_LEN : Nat := 32

abbrev Key := { bytes : Bytes // bytes.length = KEY_LEN }

def ENCRYPTION_KEY_ENV : String := "XRELEASE_CONFIG_ENCRYPTION_KEY"

/-- What the crates say of a text that they do not decode. -/
structure Refusals where
  hex : String → String
  base64 : String → String

def is_ascii_hexdigit (c : Char) : Bool :=
  is_ascii_digit c || ('a' ≤ c && c ≤ 'f') || ('A' ≤ c && c ≤ 'F')

/-- The bytes of a key, which are as many as a key has. -/
def key_of (bytes : Bytes) : Except String Key :=
  if h : bytes.length = KEY_LEN then .ok ⟨bytes, h⟩
  else
    .error (ENCRYPTION_KEY_ENV ++ " must decode to " ++ toString KEY_LEN ++ " bytes, got " ++
      toString bytes.length)

def parse_key (refusals : Refusals) (raw : String) : Except String Key :=
  let trimmed := trim raw
  if trimmed = "" then .error (ENCRYPTION_KEY_ENV ++ " is empty")
  else if trimmed.utf8ByteSize = KEY_LEN * 2 && trimmed.toList.all is_ascii_hexdigit then
    match hex.decode trimmed.toList with
    | none => .error (ENCRYPTION_KEY_ENV ++ " hex decode: " ++ refusals.hex trimmed)
    | some bytes => key_of bytes
  else
    match base64.decode trimmed.toList with
    | none =>
      .error (ENCRYPTION_KEY_ENV ++ " must be 32-byte base64 or 64-char hex: " ++
        refusals.base64 trimmed)
    | some bytes => key_of bytes

/-- What `std::env::var` says of a variable. -/
inductive Variable where
  | not_present
  | not_unicode
  | value (text : String)
deriving DecidableEq

/-- The key of the process: none where the variable is unset or blank. -/
def from_env (refusals : Refusals) : Variable → Except String (Option Key)
  | .value text =>
    if trim text = "" then .ok none
    else
      match parse_key refusals text with
      | .error err => .error err
      | .ok key => .ok (some key)
  | .not_present => .ok none
  | .not_unicode => .error (ENCRYPTION_KEY_ENV ++ " is not valid UTF-8")

theorem key_of_ok {bytes : Bytes} {key : Key} : key_of bytes = .ok key ↔ bytes = key.1 := by
  unfold key_of
  constructor
  · intro h
    split at h
    · obtain rfl := Except.ok.inj h
      rfl
    · cases h
  · rintro rfl
    exact dif_pos key.2

theorem hexdigit_iff (c : Char) : is_ascii_hexdigit c = (hex.value c).isSome := by
  unfold is_ascii_hexdigit is_ascii_digit hex.value
  simp only [Char.le_def, UInt32.le_iff_toNat_le]
  have hval : c.val.toNat = c.toNat := rfl
  simp only [hval]
  grind

theorem hex_ascii {c : Char} (h : (hex.value c).isSome) : c.toNat < 128 := by
  unfold hex.value at h
  grind

theorem size_of_ascii {s : String} (h : ∀ c ∈ s.toList, c.toNat < 128) :
    s.utf8ByteSize = s.toList.length := by
  have hone : s.toList.map Char.utf8Size = s.toList.map (fun _ => 1) := by
    apply List.map_congr_left
    intro c hc
    rw [← String.length_utf8EncodeChar, utf8_ascii (h c hc), List.length_singleton]
  conv_lhs => rw [← String.ofList_toList (s := s)]
  rw [String.utf8ByteSize, String.toByteArray_ofList, List.utf8Encode]
  simp [List.length_flatMap, hone]

/-- A key is spelled in base64, or in hex whose case does not matter. -/
def Spells (text : String) (key : Key) : Prop :=
  text.toList = base64.encode key.1 ∨ text.toList.map to_ascii_lowercase = hex.encode key.1

theorem spelled_pad (key : Key) : '=' ∈ base64.encode key.1 :=
  base64.pad_mem (by rw [key.2]; decide)

theorem spelled_nonempty {text : String} {key : Key} (h : Spells text key) : text ≠ "" := by
  rintro rfl
  rcases h with h | h
  · have hpad := spelled_pad key
    rw [← h] at hpad
    cases hpad
  · have hlength := key.2
    cases hkey : key.1 with
    | nil =>
      rw [hkey] at hlength
      cases hlength
    | cons b rest =>
      rw [hkey] at h
      cases h

theorem parse_key_iff (refusals : Refusals) {raw : String} {key : Key} :
    parse_key refusals raw = .ok key ↔ Spells (trim raw) key := by
  unfold parse_key
  dsimp only
  constructor
  · intro h
    split at h
    · cases h
    · split at h
      · split at h
        · cases h
        · rename_i bytes hdecode
          obtain rfl := key_of_ok.mp h
          exact .inr (hex.decode_iff.mp hdecode)
      · split at h
        · cases h
        · rename_i bytes hdecode
          obtain rfl := key_of_ok.mp h
          exact .inl (base64.decode_iff.mp hdecode)
  · intro h
    rw [if_neg (spelled_nonempty h)]
    rcases h with h | h
    · have hnot : (trim raw).toList.all is_ascii_hexdigit = false := by
        rw [List.all_eq_false, h]
        exact ⟨'=', spelled_pad key, by decide⟩
      rw [hnot, Bool.and_false, if_neg Bool.false_ne_true, base64.decode_iff.mpr h]
      exact key_of_ok.mpr rfl
    · have hdecode := hex.decode_iff.mpr h
      obtain ⟨hlength, hdigits⟩ := hex.of_decode hdecode
      have hall : (trim raw).toList.all is_ascii_hexdigit = true := by
        rw [List.all_eq_true]
        intro c hc
        rw [hexdigit_iff]
        exact hdigits c hc
      have hsize : (trim raw).utf8ByteSize = KEY_LEN * 2 := by
        rw [size_of_ascii (fun c hc => hex_ascii (hdigits c hc)), hlength, key.2, Nat.mul_comm]
      rw [hall, hsize, if_pos (by decide), hdecode]
      exact key_of_ok.mpr rfl

/-- The process seals under a key exactly when the variable spells that key; it goes without one
exactly when the variable is unset or blank. Every other text keeps it from starting. -/
theorem the_key_is_what_the_variable_spells (refusals : Refusals) (variable_ : Variable) :
    (∀ key, from_env refusals variable_ = .ok (some key) ↔
      ∃ raw, variable_ = .value raw ∧ Spells (trim raw) key) ∧
    (from_env refusals variable_ = .ok none ↔
      variable_ = .not_present ∨ ∃ raw, variable_ = .value raw ∧ trim raw = "") := by
  cases variable_ with
  | not_present => simp [from_env]
  | not_unicode => simp [from_env]
  | value text =>
    simp only [from_env, Variable.value.injEq, exists_eq_left', reduceCtorEq, false_or]
    by_cases hblank : trim text = ""
    · refine ⟨fun key => ⟨fun h => ?_, fun h => (spelled_nonempty h hblank).elim⟩, ?_⟩
      · rw [if_pos hblank] at h
        cases h
      · simp [hblank]
    · rw [if_neg hblank]
      cases hparse : parse_key refusals text with
      | error err =>
        refine ⟨fun key => ⟨fun h => (by cases h), fun h => ?_⟩, by simp [hblank]⟩
        rw [(parse_key_iff refusals).mpr h] at hparse
        cases hparse
      | ok found =>
        refine ⟨fun key => ?_, by simp [hblank]⟩
        rw [← parse_key_iff refusals, hparse]
        simp

/-! ## The envelope -/

theorem strip_prefix_some {pre s rest : String} (h : strip_prefix_of pre s = some rest) :
    s = pre ++ rest := by
  unfold strip_prefix_of at h
  split at h
  · rename_i hpre
    obtain ⟨tail, htail⟩ := List.isPrefixOf_iff_prefix.mp hpre
    obtain rfl := Option.some.inj h
    rw [← String.toList_inj, String.toList_append, String.toList_ofList, ← htail,
      List.drop_left]
  · cases h

theorem as_from_utf8 {bytes : Bytes} {s : String} (h : from_utf8 bytes = some s) :
    as_bytes s = bytes := by
  unfold from_utf8 String.fromUTF8? at h
  split at h
  · obtain rfl := Option.some.inj h
    simp [as_bytes, String.fromUTF8]
  · cases h

/-- Where decoding and decrypting undo nothing but encoding and encrypting, opening undoes nothing
but sealing. -/
theorem seal_of_open {lib : Library}
    (hdecodes : ∀ text bytes, lib.decode text = .ok bytes → text = lib.encode bytes)
    (hdecrypts : ∀ key nonce ciphertext plain, lib.decrypt key nonce ciphertext = some plain →
      lib.encrypt key nonce plain = ciphertext)
    {key : lib.Key} {payload value : String}
    (h : open_blob lib key (LEDGER_BLOB_PREFIX ++ payload) = .ok value) :
    ∃ nonce, LEDGER_BLOB_PREFIX ++ trim payload = seal_blob lib key nonce value := by
  unfold open_blob at h
  rw [mirrored.strip_prefix_append] at h
  dsimp only at h
  split at h
  · cases h
  · rename_i packed hdecode
    split at h
    · cases h
    · split at h
      · cases h
      · rename_i plain hdecrypt
        split at h
        · cases h
        · rename_i value' hutf8
          obtain rfl := Except.ok.inj h
          have hlength : (packed.take NONCE_LEN).length = NONCE_LEN := by
            rw [List.length_take]
            omega
          have hpacked : packed.take NONCE_LEN ++
              lib.encrypt key ⟨packed.take NONCE_LEN, hlength⟩ (as_bytes value') = packed := by
            rw [as_from_utf8 hutf8, hdecrypts key _ _ plain hdecrypt, List.take_append_drop]
          refine ⟨⟨packed.take NONCE_LEN, hlength⟩, ?_⟩
          rw [hdecodes _ _ hdecode, seal_blob, hpacked]

/-- AES-256-GCM: what decrypts is what was encrypted under that key and that nonce. -/
structure Aead where
  encrypt : Key → Nonce → Bytes → Bytes
  decrypt : Key → Nonce → Bytes → Option Bytes
  authentic : ∀ key nonce ciphertext plain,
    decrypt key nonce ciphertext = some plain ↔ encrypt key nonce plain = ciphertext
  wrong_key : ∀ key other nonce plain, other ≠ key →
    decrypt other nonce (encrypt key nonce plain) = none
  tagged : ∀ key nonce plain, encrypt key nonce plain ≠ []

theorem symbol_bare {c : Char} {bytes : Bytes} (h : c ∈ base64.encode bytes) :
    is_whitespace c = false := by
  rcases base64.mem_encode h with rfl | ⟨n, hn, rfl⟩
  · rfl
  · interval_cases n <;> rfl

/-- The library of the store, with base64 spelled out. -/
abbrev library (aead : Aead) (refusals : Refusals) (sha256 : String → String) : Library where
  Key := Key
  encrypt := aead.encrypt
  decrypt := aead.decrypt
  encode := fun bytes => String.ofList (base64.encode bytes)
  decode := fun s =>
    match base64.decode s.toList with
    | none => .error (refusals.base64 s)
    | some bytes => .ok bytes
  sha256 := sha256
  opens := fun key nonce plain => (aead.authentic key nonce _ plain).mpr rfl
  wrong_key := aead.wrong_key
  tagged := aead.tagged
  decodes := by
    intro bytes
    rw [String.toList_ofList, base64.decode_encode]
  bare := by
    intro bytes
    unfold trim
    rw [vaulted.trimmed_of_clean, String.ofList_toList]
    intro c hc
    rw [String.toList_ofList] at hc
    exact symbol_bare hc

variable (aead : Aead) (refusals : Refusals) (sha256 : String → String)

theorem decode_ok {text : String} {bytes : Bytes} :
    (library aead refusals sha256).decode text = .ok bytes ↔
      text = String.ofList (base64.encode bytes) := by
  have hiff : base64.decode text.toList = some bytes ↔ text = String.ofList (base64.encode bytes) :=
    by rw [base64.decode_iff, ← String.toList_inj, String.toList_ofList]
  rw [← hiff]
  dsimp only
  split
  · rename_i hnone
    simp [hnone]
  · rename_i found hsome
    simp [hsome]

/-- A stored text opens to a value under a key only when it is the prefix and, up to the white
space around it, what sealing that value under that key writes after the prefix. -/
theorem only_a_seal_opens (key : Key) (stored value : String) :
    open_blob (library aead refusals sha256) key stored = .ok value ↔
      ∃ nonce payload, stored = LEDGER_BLOB_PREFIX ++ payload ∧
        LEDGER_BLOB_PREFIX ++ trim payload =
          seal_blob (library aead refusals sha256) key nonce value := by
  constructor
  · intro h
    cases hpre : strip_prefix_of LEDGER_BLOB_PREFIX stored with
    | none =>
      unfold open_blob at h
      rw [hpre] at h
      cases h
    | some payload =>
      obtain rfl := strip_prefix_some hpre
      obtain ⟨nonce, hsealed⟩ := seal_of_open
        (fun text bytes => (decode_ok aead refusals sha256).mp)
        (fun key nonce ciphertext plain => (aead.authentic key nonce ciphertext plain).mp) h
      exact ⟨nonce, payload, rfl, hsealed⟩
  · rintro ⟨nonce, payload, rfl, hsealed⟩
    have hbare : open_blob (library aead refusals sha256) key (LEDGER_BLOB_PREFIX ++ payload) =
        open_blob (library aead refusals sha256) key (LEDGER_BLOB_PREFIX ++ trim payload) := by
      simp only [open_blob, mirrored.strip_prefix_append, vaulted.trim_trim]
    have hopens := (library aead refusals sha256).opens key nonce (as_bytes value)
    rw [hbare, hsealed, mirrored.open_blob_seal, hopens]
    simp only [from_as_bytes]

/-- Nothing is hidden: a ciphertext is the key, the nonce and the text. -/
def box : Aead where
  encrypt := fun key nonce plain => key.1 ++ (nonce.1 ++ plain)
  decrypt := fun key nonce ciphertext =>
    if (key.1 ++ nonce.1).isPrefixOf ciphertext then
      some (ciphertext.drop (key.1 ++ nonce.1).length)
    else none
  authentic := by
    intro key nonce ciphertext plain
    rw [← List.append_assoc]
    constructor
    · intro h
      split at h
      · rename_i hpre
        obtain ⟨tail, rfl⟩ := List.isPrefixOf_iff_prefix.mp hpre
        rw [List.drop_left, Option.some.injEq] at h
        rw [h]
      · cases h
    · rintro rfl
      rw [if_pos (List.isPrefixOf_iff_prefix.mpr (List.prefix_append _ _)), List.drop_left]
  wrong_key := by
    intro key other nonce plain hne
    rw [if_neg]
    rw [List.isPrefixOf_iff_prefix]
    rintro ⟨tail, htail⟩
    rw [List.append_assoc] at htail
    exact hne (Subtype.ext (List.append_inj htail (other.2.trans key.2.symm)).1)
  tagged := by
    intro key nonce plain h
    have hkey := key.2
    rw [(List.append_eq_nil_iff.mp h).1] at hkey
    cases hkey

theorem trim_ended (bytes : Bytes) :
    trim (String.ofList (base64.encode bytes) ++ "\n") = String.ofList (base64.encode bytes) := by
  have hbetween : trimmed ([] ++ base64.encode bytes ++ ['\n']) = base64.encode bytes :=
    trimmed_between (fun c hc => by cases hc)
      (fun c hc => by rw [List.mem_singleton.mp hc]; decide)
      (fun c hc => symbol_bare (List.mem_of_head? hc))
      (fun c hc => symbol_bare (List.mem_of_getLast? hc))
  unfold trim
  rw [String.toList_append, String.toList_ofList, show "\n".toList = ['\n'] from rfl]
  exact congrArg String.ofList hbetween

theorem only_a_seal_opens_here :
    open_blob (library box ⟨id, id⟩ id) ⟨List.replicate 32 7, rfl⟩
      (seal_blob (library box ⟨id, id⟩ id) ⟨List.replicate 32 7, rfl⟩
        ⟨List.replicate 12 0, rfl⟩ "token" ++ "\n") = .ok "token" := by
  refine (only_a_seal_opens box ⟨id, id⟩ id ⟨List.replicate 32 7, rfl⟩ _ "token").mpr
    ⟨⟨List.replicate 12 0, rfl⟩, _, String.append_assoc .., ?_⟩
  rw [seal_blob, trim_ended]

end xrelease.crypto
