-- The `returnTo` round trip of the login bounce (`front/src/lib/auth/return-to.ts`): what is
-- accepted as a destination, where a browser goes with it, and what comes back of the path that
-- was written. Texts are lists of characters.
import Xrelease.Places

namespace xrelease.return_to

open text

/-! ## The two directions -/

/-- Where an unauthenticated visitor lands when there is nothing to resume. -/
def DEFAULT_RETURN_TO : List Char := ['/']

def is_safe_return_to (value : List Char) : Bool :=
  ['/'].isPrefixOf value && !(['/', '/'].isPrefixOf value)

/-- Coerce an untrusted `returnTo` into a safe in-app destination. -/
def sanitize_return_to (value : Option (List Char)) : List Char :=
  match value with
  | none => DEFAULT_RETURN_TO
  | some value => if value = [] || !is_safe_return_to value then DEFAULT_RETURN_TO else value

/-- `encodeURIComponent` leaves these as they are. -/
def is_uri_unreserved (c : Char) : Bool :=
  is_ascii_alphanumeric c || ['-', '_', '.', '!', '~', '*', '\'', '(', ')'].contains c

def hex_digit (n : Nat) : Char := Char.ofNat (if n < 10 then 48 + n else 55 + n)

def percent_byte (b : UInt8) : List Char :=
  ['%', hex_digit (b.toNat / 16), hex_digit (b.toNat % 16)]

theorem byte_chars {n : Nat} (h : n < 128) : ∀ c ∈ percent_byte (UInt8.ofNat n),
    c ≠ '+' ∧ c ≠ '&' ∧ c ≠ '=' ∧ c ≠ '#' := by
  have hall : ∀ n : Nat, n < 16 → hex_digit n ≠ '+' ∧ hex_digit n ≠ '&' ∧ hex_digit n ≠ '=' ∧
      hex_digit n ≠ '#' := by
    decide +kernel
  have hbyte : (UInt8.ofNat n).toNat = n := by
    rw [UInt8.toNat_ofNat']
    omega
  unfold percent_byte
  rw [hbyte]
  simp only [List.forall_mem_cons]
  exact ⟨by decide, hall (n / 16) (by omega), hall (n % 16) (by omega), by simp⟩

def percent_encode (keeps : Char → Bool) (s : List Char) : List Char :=
  s.flatMap (fun c => if keeps c then [c] else (String.utf8EncodeChar c).flatMap percent_byte)

def encode_uri_component : List Char → List Char := percent_encode is_uri_unreserved

def LOGIN : List Char := ['/', 'l', 'o', 'g', 'i', 'n']

def RETURN_TO : List Char := ['r', 'e', 't', 'u', 'r', 'n', 'T', 'o']

/-- Path and query of a URL of the app. -/
structure UrlPath where
  pathname : List Char
  search : List Char

def UrlPath.path (url : UrlPath) : List Char := url.pathname ++ url.search

/-- Build the login URL that resumes `url` after authentication. -/
def login_path (url : UrlPath) : List Char :=
  if url.path = [] || url.path = DEFAULT_RETURN_TO || LOGIN.isPrefixOf url.pathname then LOGIN
  else LOGIN ++ '?' :: RETURN_TO ++ '=' :: encode_uri_component url.path

/-! ## Query strings -/

def hex_value (c : Char) : Option Nat :=
  if is_ascii_digit c then some (c.toNat - 48)
  else if 'A' ≤ c ∧ c ≤ 'F' then some (c.toNat - 55)
  else if 'a' ≤ c ∧ c ≤ 'f' then some (c.toNat - 87)
  else none

theorem hex_value_digit : ∀ n : Nat, n < 16 → hex_value (hex_digit n) = some n := by
  decide +kernel

/-- Percent-decode to bytes; a `%` without two digits stands for itself. -/
def percent_decode : List Char → List Nat
  | '%' :: high :: low :: rest =>
    match hex_value high, hex_value low with
    | some a, some b => (16 * a + b) :: percent_decode rest
    | _, _ => '%'.toNat :: percent_decode (high :: low :: rest)
  | c :: rest => (String.utf8EncodeChar c).map UInt8.toNat ++ percent_decode rest
  | [] => []

variable {c : Char} {path : List Char}

theorem percent_decode_char (hc : c ≠ '%') (hascii : c.toNat < 128) (rest : List Char) :
    percent_decode (c :: rest) = c.toNat :: percent_decode rest := by
  have hbyte : (UInt8.ofNat c.toNat).toNat = c.toNat := by
    rw [UInt8.toNat_ofNat']
    omega
  rw [percent_decode, utf8_ascii hascii, List.map_singleton, hbyte]
  · rfl
  · intro _ _ _ h
    exact absurd h hc

theorem percent_decode_byte {n : Nat} (h : n < 128) (rest : List Char) :
    percent_decode (percent_byte (UInt8.ofNat n) ++ rest) = n :: percent_decode rest := by
  have hbyte : (UInt8.ofNat n).toNat = n := by
    rw [UInt8.toNat_ofNat']
    omega
  unfold percent_byte
  rw [hbyte]
  simp only [List.cons_append, List.nil_append, percent_decode,
    hex_value_digit (n / 16) (by omega), hex_value_digit (n % 16) (by omega), List.cons.injEq,
    and_true]
  omega

/-- The UTF-8 decoder of the encoding standard: `need` bytes are still to come between `low` and
`high`, `code` is what the others have given. What is not UTF-8 is read as U+FFFD. -/
def utf8_decode (need low high code : Nat) : List Nat → List Char
  | [] => if need = 0 then [] else [Char.ofNat 0xFFFD]
  | b :: rest =>
    let start : List Char :=
      if b ≤ 0x7F then Char.ofNat b :: utf8_decode 0 0x80 0xBF 0 rest
      else if 0xC2 ≤ b ∧ b ≤ 0xDF then utf8_decode 1 0x80 0xBF (b - 0xC0) rest
      else if b = 0xE0 then utf8_decode 2 0xA0 0xBF (b - 0xE0) rest
      else if b = 0xED then utf8_decode 2 0x80 0x9F (b - 0xE0) rest
      else if 0xE1 ≤ b ∧ b ≤ 0xEF then utf8_decode 2 0x80 0xBF (b - 0xE0) rest
      else if b = 0xF0 then utf8_decode 3 0x90 0xBF (b - 0xF0) rest
      else if b = 0xF4 then utf8_decode 3 0x80 0x8F (b - 0xF0) rest
      else if 0xF1 ≤ b ∧ b ≤ 0xF3 then utf8_decode 3 0x80 0xBF (b - 0xF0) rest
      else Char.ofNat 0xFFFD :: utf8_decode 0 0x80 0xBF 0 rest
    if need = 0 then start
    else if low ≤ b ∧ b ≤ high then
      if need = 1 then Char.ofNat (64 * code + (b - 0x80)) :: utf8_decode 0 0x80 0xBF 0 rest
      else utf8_decode (need - 1) 0x80 0xBF (64 * code + (b - 0x80)) rest
    else Char.ofNat 0xFFFD :: start

theorem utf8_decode_ascii {s : List Char} (h : ∀ c ∈ s, c.toNat < 128) :
    utf8_decode 0 0x80 0xBF 0 (s.map Char.toNat) = s := by
  induction s with
  | nil => rfl
  | cons c s ih =>
    have hc := h c List.mem_cons_self
    have hs := ih (fun d hd => h d (List.mem_cons_of_mem _ hd))
    rw [List.map_cons, utf8_decode]
    simp only [if_true]
    rw [if_pos (by omega), hs, Char.ofNat_toNat]

/-- A name or a value of a query string. -/
def form_decode (s : List Char) : List Char :=
  utf8_decode 0 0x80 0xBF 0 (percent_decode (s.map (fun c => if c = '+' then ' ' else c)))

/-- `URLSearchParams`: the pairs of a query string. -/
def search_params (query : List Char) : List (List Char × List Char) :=
  ((split (· == '&') query).filter (· ≠ [])).map (fun piece =>
    (form_decode (piece.takeWhile (· ≠ '=')), form_decode ((piece.dropWhile (· ≠ '=')).drop 1)))

/-- `URLSearchParams::get`. -/
def get_param (params : List (List Char × List Char)) (name : List Char) : Option (List Char) :=
  (params.find? (fun pair => pair.1 = name)).map (·.2)

/-- What the query of a special URL keeps as it is. -/
def is_query_char (c : Char) : Bool :=
  0x20 < c.toNat && c.toNat ≤ 0x7E && !(['"', '#', '<', '>', '\''].contains c)

/-- The query of the URL that a path with a query resolves to. -/
def query_of (href : List Char) : List Char :=
  percent_encode is_query_char
    (((href.dropWhile (fun c => c ≠ '?' && c ≠ '#')).takeWhile (· ≠ '#')).drop 1)

/-- Read a validated `returnTo` out of a query string. -/
def safe_return_to (query : List Char) : List Char :=
  sanitize_return_to (get_param (search_params query) RETURN_TO)

/-! ## Where a browser goes -/

/-- What the URL library says of a text that names its own authority. -/
structure UrlLibrary where
  /-- A host, a port and credentials that are those of the app. -/
  authority_is_app : List Char → Bool
  /-- A text with a scheme of its own that is of the app's origin. -/
  absolute_is_app : List Char → Bool

/-- A control character or a space. -/
def is_c0_or_space (c : Char) : Bool := c.toNat ≤ 0x20

def is_tab_or_newline (c : Char) : Bool := c == '\t' || c == '\n' || c == '\r'

/-- Browsers strip the ends, and drop tabs and newlines anywhere. -/
def cleaned (s : List Char) : List Char :=
  (trim_end_matches is_c0_or_space (trim_start_matches is_c0_or_space s)).filter
    (fun c => !is_tab_or_newline c)

def is_scheme_char (c : Char) : Bool :=
  is_ascii_alphanumeric c || c == '+' || c == '-' || c == '.'

def has_scheme (s : List Char) : Bool :=
  match s with
  | [] => false
  | c :: rest => is_ascii_alphabetic c && (rest.dropWhile is_scheme_char).head? == some ':'

/-- For a special URL a backslash counts as a slash. -/
def is_slash (c : Char) : Bool := c == '/' || c == '\\'

def ends_authority (c : Char) : Bool := is_slash c || c == '?' || c == '#'

/-- The authority after two slashes or more. -/
def authority (s : List Char) : List Char :=
  (s.dropWhile is_slash).takeWhile (fun c => !ends_authority c)

/-- The text, resolved against the app's origin, is a URL of the same origin. -/
def same_origin (library : UrlLibrary) (text : List Char) : Bool :=
  let s := cleaned text
  if has_scheme s then library.absolute_is_app s
  else
    match s with
    | first :: second :: rest =>
      if is_slash first && is_slash second then library.authority_is_app (authority rest) else true
    | _ => true

/-! ## Where a destination leads -/

/-- A slash, then a backslash; or a slash, tabs or newlines, then a slash or a backslash. -/
def Disguised (value : List Char) : Prop :=
  ∃ gaps c rest, value = '/' :: (gaps ++ c :: rest) ∧
    (∀ gap ∈ gaps, is_tab_or_newline gap = true) ∧ (c = '\\' ∨ c = '/' ∧ gaps ≠ [])

theorem tab_is_c0 (h : is_tab_or_newline c = true) : is_c0_or_space c = true := by
  unfold is_tab_or_newline at h
  simp only [Bool.or_eq_true, beq_iff_eq] at h
  rcases h with (rfl | rfl) | rfl
  · decide
  · decide
  · decide

theorem slash_not_c0 (h : is_slash c = true) : is_c0_or_space c = false := by
  unfold is_slash at h
  simp only [Bool.or_eq_true, beq_iff_eq] at h
  rcases h with rfl | rfl
  · decide
  · decide

theorem cleaned_slash (rest : List Char) :
    cleaned ('/' :: rest) =
      '/' :: (rest.rdropWhile is_c0_or_space).filter (fun c => !is_tab_or_newline c) := by
  have hkept := rdropWhile_append_cons (p := is_c0_or_space) (c := '/') (by decide) [] rest
  rw [List.nil_append, List.nil_append] at hkept
  unfold cleaned trim_end_matches trim_start_matches
  rw [List.dropWhile_cons_of_neg (by decide), hkept, List.filter_cons_of_pos (by decide)]

theorem filter_gaps {gaps : List Char} (h : ∀ gap ∈ gaps, is_tab_or_newline gap = true) :
    gaps.filter (fun c => !is_tab_or_newline c) = [] := by
  rw [List.filter_eq_nil_iff]
  intro c hc
  simp [h c hc]

/-- After the first slash come tabs and newlines, and then either nothing or the next character. -/
theorem gaps_cases (rest : List Char) :
    (∀ c ∈ rest, is_tab_or_newline c = true) ∨
      ∃ gaps c tail, rest = gaps ++ c :: tail ∧ (∀ gap ∈ gaps, is_tab_or_newline gap = true) ∧
        is_tab_or_newline c = false := by
  have hgaps : ∀ gap ∈ rest.takeWhile is_tab_or_newline, is_tab_or_newline gap = true :=
    fun gap hgap => List.mem_takeWhile_imp hgap
  have hsplit := List.takeWhile_append_dropWhile (p := is_tab_or_newline) (l := rest)
  cases hdrop : rest.dropWhile is_tab_or_newline with
  | nil => exact Or.inl (List.dropWhile_eq_nil_iff.mp hdrop)
  | cons c tail =>
    rw [hdrop] at hsplit
    refine Or.inr ⟨_, c, tail, hsplit.symm, hgaps, ?_⟩
    have hhead := List.head_dropWhile_not is_tab_or_newline (l := rest) (by rw [hdrop]; simp)
    simpa [hdrop] using hhead

theorem cleaned_slashes {gaps tail : List Char} (hgaps : ∀ gap ∈ gaps, is_tab_or_newline gap = true)
    (hc : is_slash c = true) :
    cleaned ('/' :: (gaps ++ c :: tail)) =
      '/' :: c :: (tail.rdropWhile is_c0_or_space).filter (fun c => !is_tab_or_newline c) := by
  have htab : is_tab_or_newline c = false := by
    rw [Bool.eq_false_iff]
    intro h
    exact absurd (tab_is_c0 h) (by simp [slash_not_c0 hc])
  rw [cleaned_slash, rdropWhile_append_cons (slash_not_c0 hc), List.filter_append,
    filter_gaps hgaps, List.nil_append, List.filter_cons_of_pos (by simp [htab])]

/-- No second slash means no authority. -/
theorem cleaned_no_slash {gaps tail : List Char}
    (hgaps : ∀ gap ∈ gaps, is_tab_or_newline gap = true) (htab : is_tab_or_newline c = false)
    (hc : is_slash c = false) :
    ∀ second rest, cleaned ('/' :: (gaps ++ c :: tail)) = '/' :: second :: rest →
      is_slash second = false := by
  intro second rest h
  rw [cleaned_slash, List.cons.injEq] at h
  obtain ⟨stripped, hstripped⟩ := List.rdropWhile_prefix is_c0_or_space (gaps ++ c :: tail)
  have hfilter := h.2
  have hwhole : (gaps ++ c :: tail).filter (fun c => !is_tab_or_newline c) =
      second :: rest ++ stripped.filter (fun c => !is_tab_or_newline c) := by
    rw [← hfilter, ← List.filter_append, hstripped]
  rw [List.filter_append, filter_gaps hgaps, List.nil_append,
    List.filter_cons_of_pos (by simp [htab]), List.cons_append, List.cons.injEq] at hwhole
  rw [← hwhole.1]
  exact hc

theorem same_origin_slash (library : UrlLibrary) (rest : List Char) :
    same_origin library ('/' :: rest) = true ↔
      ∀ second tail, cleaned ('/' :: rest) = '/' :: second :: tail → is_slash second = true →
        library.authority_is_app (authority tail) = true := by
  have hscheme : has_scheme (cleaned ('/' :: rest)) = false := by
    rw [cleaned_slash]
    rfl
  unfold same_origin
  simp only [hscheme, Bool.false_eq_true, if_false]
  rw [cleaned_slash]
  cases (rest.rdropWhile is_c0_or_space).filter (fun c => !is_tab_or_newline c) with
  | nil => simp
  | cons second tail =>
    have hfirst : is_slash '/' = true := by decide
    simp only [hfirst, Bool.true_and, List.cons.injEq, true_and]
    by_cases hsecond : is_slash second = true
    · rw [if_pos hsecond]
      constructor
      · rintro h _ _ ⟨rfl, rfl⟩ -
        exact h
      · intro h
        exact h second tail ⟨rfl, rfl⟩ hsecond
    · rw [if_neg hsecond]
      simp only [true_iff]
      rintro _ _ ⟨rfl, rfl⟩ h
      exact absurd h hsecond

theorem disguised_safe {value : List Char} (h : Disguised value) :
    is_safe_return_to value = true := by
  obtain ⟨gaps, c, rest, rfl, hgaps, hc⟩ := h
  cases gaps with
  | nil =>
    rcases hc with rfl | ⟨-, hne⟩
    · rfl
    · exact absurd rfl hne
  | cons gap gaps =>
    have hgap : gap ≠ '/' := by
      rintro rfl
      exact absurd (hgaps '/' List.mem_cons_self) (by decide)
    simp [is_safe_return_to, List.isPrefixOf, hgap.symm]

/-- After the cleaning a safe value has a second slash exactly when it disguises one. -/
theorem disguised_iff {value : List Char} (h : is_safe_return_to value = true) :
    Disguised value ↔ ∃ second tail, cleaned value = '/' :: second :: tail ∧
      is_slash second = true := by
  unfold is_safe_return_to at h
  rw [Bool.and_eq_true, Bool.not_eq_true', List.isPrefixOf_iff_prefix] at h
  obtain ⟨⟨rest, rfl⟩, hdouble⟩ := h
  rw [List.singleton_append]
  constructor
  · rintro ⟨gaps, c, tail, hvalue, hgaps, hc⟩
    obtain rfl := List.cons.inj hvalue |>.2
    have hslash : is_slash c = true := by
      rcases hc with rfl | ⟨rfl, -⟩
      · decide
      · decide
    exact ⟨c, _, cleaned_slashes hgaps hslash, hslash⟩
  · rintro ⟨second, tail, hcleaned, hsecond⟩
    rcases gaps_cases rest with hgaps | ⟨gaps, c, after, rfl, hgaps, htab⟩
    · have hnil : rest.rdropWhile is_c0_or_space = [] :=
        List.rdropWhile_eq_nil_iff.mpr (fun c hc => tab_is_c0 (hgaps c hc))
      rw [cleaned_slash, hnil] at hcleaned
      simp at hcleaned
    · by_cases hslash : is_slash c = true
      · refine ⟨gaps, c, after, rfl, hgaps, ?_⟩
        unfold is_slash at hslash
        rw [Bool.or_eq_true, beq_iff_eq, beq_iff_eq] at hslash
        rcases hslash with rfl | rfl
        · refine Or.inr ⟨rfl, ?_⟩
          rintro rfl
          simp [List.isPrefixOf] at hdouble
        · exact Or.inl rfl
      · have := cleaned_no_slash hgaps htab (by simpa using hslash) second tail hcleaned
        rw [this] at hsecond
        exact absurd hsecond (by simp)

/-- A destination stays on the site unless it disguises an authority that is not the app's. -/
theorem stays_on_site_iff (library : UrlLibrary) (value : List Char) :
    same_origin library (sanitize_return_to (some value)) = true ↔
      (Disguised value → library.authority_is_app (authority ((cleaned value).drop 2)) = true) := by
  unfold sanitize_return_to
  by_cases hsafe : is_safe_return_to value = true
  · have hne : value ≠ [] := by
      rintro rfl
      exact absurd hsafe (by decide)
    have hdisguised := disguised_iff hsafe
    simp only [hsafe, hne, decide_false, Bool.not_true, Bool.or_self, Bool.false_eq_true, if_false]
    unfold is_safe_return_to at hsafe
    rw [Bool.and_eq_true, List.isPrefixOf_iff_prefix] at hsafe
    obtain ⟨⟨rest, rfl⟩, -⟩ := hsafe
    rw [List.singleton_append] at hdisguised ⊢
    rw [same_origin_slash, hdisguised]
    constructor
    · rintro h ⟨second, tail, hcleaned, hsecond⟩
      rw [hcleaned]
      exact h second tail hcleaned hsecond
    · intro h second tail hcleaned hsecond
      have := h ⟨second, tail, hcleaned, hsecond⟩
      rwa [hcleaned] at this
  · have hroot : same_origin library DEFAULT_RETURN_TO = true := by
      rw [DEFAULT_RETURN_TO, same_origin_slash]
      intro second tail h
      rw [cleaned_slash] at h
      simp at h
    rw [Bool.not_eq_true] at hsafe
    simp only [hsafe, Bool.not_false, Bool.or_true, if_true, hroot, true_iff]
    intro h
    rw [disguised_safe h] at hsafe
    exact absurd hsafe (by simp)

/-! ## What is written is read back -/

/-- What is written for one character of a path and stays of it in the query. -/
def written (c : Char) : List Char :=
  percent_encode is_query_char (percent_encode is_uri_unreserved [c])

theorem percent_encode_append (keeps : Char → Bool) (a b : List Char) :
    percent_encode keeps (a ++ b) = percent_encode keeps a ++ percent_encode keeps b :=
  List.flatMap_append

theorem percent_encode_kept {keeps : Char → Bool} {s : List Char}
    (h : ∀ c ∈ s, keeps c = true) : percent_encode keeps s = s := by
  induction s with
  | nil => rfl
  | cons c s ih =>
    have hc := h c List.mem_cons_self
    have hs := ih (fun d hd => h d (List.mem_cons_of_mem _ hd))
    unfold percent_encode at hs ⊢
    rw [List.flatMap_cons, if_pos hc, hs]
    rfl

theorem written_path (path : List Char) :
    percent_encode is_query_char (encode_uri_component path) = path.flatMap written := by
  induction path with
  | nil => rfl
  | cons c path ih =>
    have hcons : encode_uri_component (c :: path) =
        percent_encode is_uri_unreserved [c] ++ encode_uri_component path :=
      percent_encode_append _ [c] path
    rw [hcons, percent_encode_append, ih]
    rfl

/-- A printable character is written as itself or as its byte. -/
theorem written_cases (h : c.toNat < 128) :
    (written c = [c] ∧ c ≠ '%' ∧ c ≠ '+' ∧ c ≠ '&' ∧ c ≠ '=' ∧ c ≠ '#') ∨
      written c = percent_byte (UInt8.ofNat c.toNat) := by
  have hall : ∀ n : Nat, n < 128 →
      (written (Char.ofNat n) = [Char.ofNat n] ∧ Char.ofNat n ≠ '%' ∧ Char.ofNat n ≠ '+' ∧
        Char.ofNat n ≠ '&' ∧ Char.ofNat n ≠ '=' ∧ Char.ofNat n ≠ '#') ∨
        written (Char.ofNat n) = percent_byte (UInt8.ofNat n) := by
    decide +kernel
  have := hall c.toNat h
  rwa [Char.ofNat_toNat] at this

theorem written_chars (h : c.toNat < 128) : ∀ d ∈ written c,
    d ≠ '+' ∧ d ≠ '&' ∧ d ≠ '=' ∧ d ≠ '#' := by
  rcases written_cases h with ⟨hself, -, hplus, hand, heq, hhash⟩ | hbyte
  · rw [hself]
    intro d hd
    obtain rfl := List.mem_singleton.mp hd
    exact ⟨hplus, hand, heq, hhash⟩
  · rw [hbyte]
    exact byte_chars h

theorem percent_decode_written (h : ∀ c ∈ path, c.toNat < 128) :
    percent_decode (path.flatMap written) = path.map Char.toNat := by
  induction path with
  | nil => rfl
  | cons c path ih =>
    have hc := h c List.mem_cons_self
    have hpath := ih (fun d hd => h d (List.mem_cons_of_mem _ hd))
    rw [List.flatMap_cons, List.map_cons]
    rcases written_cases hc with ⟨hself, hpercent, -⟩ | hbyte
    · rw [hself, List.singleton_append, percent_decode_char hpercent hc, hpath]
    · rw [hbyte, percent_decode_byte hc, hpath]

theorem form_decode_written (h : ∀ c ∈ path, c.toNat < 128) :
    form_decode (path.flatMap written) = path := by
  have hplus : (path.flatMap written).map (fun c => if c = '+' then ' ' else c) =
      path.flatMap written := by
    refine (List.map_congr_left ?_).trans (List.map_id _)
    intro d hd
    obtain ⟨c, hc, hd⟩ := List.mem_flatMap.mp hd
    exact if_neg (written_chars (h c hc) d hd).1
  unfold form_decode
  rw [hplus, percent_decode_written h, utf8_decode_ascii h]

theorem encoded_no_hash (h : ∀ c ∈ path, c.toNat < 128) :
    ∀ d ∈ encode_uri_component path, d ≠ '#' := by
  intro d hd
  obtain ⟨c, hc, hd⟩ := List.mem_flatMap.mp hd
  by_cases hkept : is_uri_unreserved c = true
  · rw [if_pos hkept, List.mem_singleton] at hd
    rintro rfl
    subst hd
    exact absurd hkept (by decide)
  · rw [if_neg hkept, utf8_ascii (h c hc), List.flatMap_singleton] at hd
    exact (byte_chars (h c hc) d hd).2.2.2

/-- The query of the login path is the destination, as it was written. -/
theorem query_of_login (h : ∀ c ∈ path, c.toNat < 128) :
    query_of (LOGIN ++ '?' :: RETURN_TO ++ '=' :: encode_uri_component path) =
      RETURN_TO ++ '=' :: path.flatMap written := by
  have hfront : (LOGIN ++ '?' :: RETURN_TO ++ '=' :: encode_uri_component path).dropWhile
      (fun c => c ≠ '?' && c ≠ '#') = '?' :: (RETURN_TO ++ '=' :: encode_uri_component path) := rfl
  have hback : ('?' :: (RETURN_TO ++ '=' :: encode_uri_component path)).takeWhile (· ≠ '#') =
      '?' :: (RETURN_TO ++ '=' :: encode_uri_component path) := by
    rw [List.takeWhile_eq_self_iff]
    have hname : ∀ d ∈ '?' :: RETURN_TO, d ≠ '#' := by simp [RETURN_TO]
    intro d hd
    rw [← List.cons_append, List.mem_append] at hd
    rw [decide_eq_true_eq]
    rcases hd with hd | hd
    · exact hname d hd
    · rcases List.mem_cons.mp hd with rfl | hd
      · decide
      · exact encoded_no_hash h d hd
  have hname : percent_encode is_query_char (RETURN_TO ++ ['=']) = RETURN_TO ++ ['='] :=
    percent_encode_kept (List.all_eq_true.mp (by decide))
  unfold query_of
  rw [hfront, hback, List.drop_one, List.tail_cons, ← List.singleton_append, ← List.append_assoc,
    percent_encode_append, hname, written_path, List.append_assoc, List.singleton_append]

theorem get_written (h : ∀ c ∈ path, c.toNat < 128) :
    get_param (search_params (RETURN_TO ++ '=' :: path.flatMap written)) RETURN_TO =
      some path := by
  have hchars : ∀ d ∈ path.flatMap written, d ≠ '&' := by
    intro d hd
    obtain ⟨c, hc, hd⟩ := List.mem_flatMap.mp hd
    exact (written_chars (h c hc) d hd).2.1
  have hsplit : split (· == '&') (RETURN_TO ++ '=' :: path.flatMap written) =
      [RETURN_TO ++ '=' :: path.flatMap written] := by
    apply split_alone
    have hname : ∀ d ∈ RETURN_TO, d ≠ '&' := by simp [RETURN_TO]
    intro d hd
    rw [List.mem_append, List.mem_cons] at hd
    rw [beq_eq_false_iff_ne]
    rcases hd with hd | rfl | hd
    · exact hname d hd
    · decide
    · exact hchars d hd
  have htake : (RETURN_TO ++ '=' :: path.flatMap written).takeWhile (· ≠ '=') = RETURN_TO := rfl
  have hdrop : (RETURN_TO ++ '=' :: path.flatMap written).dropWhile (· ≠ '=') =
      '=' :: path.flatMap written := rfl
  have hname : form_decode RETURN_TO = RETURN_TO := by decide +kernel
  unfold search_params
  rw [hsplit, List.filter_cons_of_pos (by simp), List.filter_nil, List.map_singleton,
    htake, hdrop, hname, List.drop_one, List.tail_cons, form_decode_written h]
  simp [get_param]

/-! ## Resuming -/

/-- A URL of the app with a page to resume: neither the root nor the login page or below it. A
URL's path starts with a slash, and path and query are ASCII. -/
structure Resumable (url : UrlPath) : Prop where
  ascii : ∀ c ∈ url.path, c.toNat < 128
  rooted : ['/'] <+: url.pathname
  not_root : url.pathname ≠ ['/']
  not_login : url.pathname ≠ LOGIN
  not_below : ¬ LOGIN ++ ['/'] <+: url.pathname

/-- The path of the page neither starts with two slashes nor merely with `/login`. -/
def Plain (url : UrlPath) : Prop :=
  ¬ ['/', '/'] <+: url.pathname ∧ ¬ LOGIN <+: url.pathname

theorem resumable_chars {url : UrlPath} (h : Resumable url) :
    ∃ c rest, url.pathname = '/' :: c :: rest := by
  obtain ⟨rest, hrest⟩ := h.rooted
  rw [List.singleton_append] at hrest
  cases rest with
  | nil => exact absurd hrest.symm h.not_root
  | cons c rest => exact ⟨c, rest, hrest.symm⟩

theorem resumes_iff {url : UrlPath} (h : Resumable url) :
    safe_return_to (query_of (login_path url)) = url.path ↔ Plain url := by
  obtain ⟨c, rest, hpath⟩ := resumable_chars h
  have hwhole : url.path = '/' :: c :: (rest ++ url.search) := by
    unfold UrlPath.path
    rw [hpath]
    rfl
  have hne : url.path ≠ DEFAULT_RETURN_TO := by
    rw [hwhole]
    simp [DEFAULT_RETURN_TO]
  unfold Plain login_path safe_return_to
  by_cases hlogin : LOGIN <+: url.pathname
  · have hread : sanitize_return_to (get_param (search_params (query_of LOGIN)) RETURN_TO) =
        DEFAULT_RETURN_TO := by decide +kernel
    rw [if_pos (by simp [List.isPrefixOf_iff_prefix, hlogin]), hread]
    exact ⟨fun heq => absurd heq.symm hne, fun hplain => absurd hlogin hplain.2⟩
  · have hif : ¬(url.path = [] || url.path = DEFAULT_RETURN_TO ||
        LOGIN.isPrefixOf url.pathname) = true := by
      have hempty : url.path ≠ [] := by
        rw [hwhole]
        simp
      simp [hempty, hne, List.isPrefixOf_iff_prefix, hlogin]
    rw [if_neg hif, query_of_login h.ascii, get_written h.ascii]
    have hslashes : ['/', '/'] <+: url.pathname ↔ c = '/' := by
      rw [hpath, List.cons_prefix_cons, List.cons_prefix_cons]
      simp only [true_and, List.nil_prefix, and_true]
      exact eq_comm
    have hsafe : is_safe_return_to url.path = true ↔ c ≠ '/' := by
      rw [hwhole]
      simp only [is_safe_return_to, List.isPrefixOf, beq_self_eq_true, Bool.and_true,
        Bool.true_and, Bool.not_eq_true', beq_eq_false_iff_ne]
      exact ne_comm
    rw [hslashes]
    unfold sanitize_return_to
    by_cases hc : c = '/'
    · have hrefused : is_safe_return_to url.path = false := by
        rw [Bool.eq_false_iff]
        exact fun hs => hsafe.mp hs hc
      simp only [hrefused, Bool.not_false, Bool.or_true, if_true]
      exact ⟨fun heq => absurd heq.symm hne, fun hplain => absurd hc hplain.1⟩
    · have hempty : url.path ≠ [] := by
        rw [hwhole]
        simp
      simp only [hsafe.mpr hc, hempty, decide_false, Bool.not_true, Bool.or_self,
        Bool.false_eq_true, if_false, true_iff]
      exact ⟨hc, hlogin⟩

/-- A login stays on the site unless the destination disguises a foreign authority, and resumes
the page exactly when its path is plain. -/
theorem login_resumes_on_site_iff (library : UrlLibrary) (value : List Char) {url : UrlPath}
    (h : Resumable url) :
    (same_origin library (sanitize_return_to (some value)) = true ↔
      (Disguised value →
        library.authority_is_app (authority ((cleaned value).drop 2)) = true)) ∧
      (safe_return_to (query_of (login_path url)) = url.path ↔ Plain url) :=
  ⟨stays_on_site_iff library value, resumes_iff h⟩

/-- The app at `x.test`. -/
def site : UrlLibrary where
  authority_is_app host := host = ['x', '.', 't', 'e', 's', 't']
  absolute_is_app _ := false

theorem login_resumes_on_site_here :
    same_origin site (sanitize_return_to (some ['/', 'o'])) = true ∧
      safe_return_to (query_of (login_path ⟨['/', 'o'], ['?', 'k']⟩)) = ['/', 'o', '?', 'k'] := by
  have hresumable : Resumable ⟨['/', 'o'], ['?', 'k']⟩ :=
    ⟨by simp [UrlPath.path], by decide, by decide, by decide, by decide⟩
  obtain ⟨hstays, hresumes⟩ := login_resumes_on_site_iff site ['/', 'o'] hresumable
  refine ⟨hstays.mpr (fun hdisguised => ?_), hresumes.mpr ⟨by decide, by decide⟩⟩
  obtain ⟨second, tail, hcleaned, hsecond⟩ := (disguised_iff (by decide)).mp hdisguised
  have hown : cleaned ['/', 'o'] = ['/', 'o'] := by decide
  rw [hown] at hcleaned
  simp only [List.cons.injEq, true_and] at hcleaned
  rw [← hcleaned.1] at hsecond
  exact absurd hsecond (by decide)

/-- `/\evil` leaves the site, and the pages below `/logins` and `//` are not resumed. -/
theorem a_backslash_leaves_the_site :
    same_origin site (sanitize_return_to (some ['/', '\\', 'e', 'v', 'i', 'l'])) = false ∧
      (Resumable ⟨LOGIN ++ ['s'], []⟩ ∧
        safe_return_to (query_of (login_path ⟨LOGIN ++ ['s'], []⟩)) ≠ LOGIN ++ ['s']) ∧
      Resumable ⟨['/', '/', 'o'], []⟩ ∧
        safe_return_to (query_of (login_path ⟨['/', '/', 'o'], []⟩)) ≠ ['/', '/', 'o'] := by
  refine ⟨by decide, ⟨⟨by simp [UrlPath.path, LOGIN], ?_, ?_, ?_, ?_⟩, ?_⟩,
    ⟨by simp [UrlPath.path], ?_, ?_, ?_, ?_⟩, ?_⟩
  all_goals decide +kernel

end xrelease.return_to
