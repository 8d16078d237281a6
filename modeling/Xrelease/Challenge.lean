-- The registry's token handshake (`sources/docker.rs`): how a `WWW-Authenticate` challenge is cut
-- into a realm and the parameters of the token request, and when that is what the challenge says.
-- Texts are lists of characters.
import Xrelease.Places

namespace xrelease.challenge

open text

/-! ## The handshake -/

/-- A GET of the token endpoint. -/
structure TokenRequest where
  realm : List Char
  query : List (List Char × List Char)
  /-- User and password of HTTP Basic. -/
  basic : Option (List Char × List Char)
deriving DecidableEq

/-- Status, and the body's `token` and `access_token` when it reads. -/
structure TokenResponse where
  status : Nat
  body : Option (Option (List Char) × Option (List Char))

def is_success (status : Nat) : Bool := 200 ≤ status && status < 300

inductive SourceError where
  | Http
  | Registry (status : Nat) (url : List Char)
  | Other (message : String)
deriving DecidableEq

def strip_prefix (pre s : List Char) : Option (List Char) :=
  if pre.isPrefixOf s then some (s.drop pre.length) else none

def BEARER : List Char := ['B', 'e', 'a', 'r', 'e', 'r', ' ']

def BEARER_LOWER : List Char := ['b', 'e', 'a', 'r', 'e', 'r', ' ']

/-- The challenge without its scheme. -/
def strip_scheme (challenge : List Char) : List Char :=
  (( strip_prefix BEARER (trimmed challenge)).or
    ( strip_prefix BEARER_LOWER (trimmed challenge))).getD challenge

/-- `trim_matches('"')`. -/
def trim_quotes (s : List Char) : List Char :=
  trim_end_matches (· == '"') (trim_start_matches (· == '"') s)

/-- `splitn(2, '=')`: the key, and what is after the first `=`. -/
def key_value (part : List Char) : List Char × List Char :=
  (trimmed (part.takeWhile (· ≠ '=')),
    trim_quotes (trimmed ((part.dropWhile (· ≠ '=')).drop 1)))

def REALM : List Char := ['r', 'e', 'a', 'l', 'm']

/-- One part: the realm, nothing, or a parameter of the request. -/
def read_part (acc : Option (List Char) × List (List Char × List Char)) (part : List Char) :
    Option (List Char) × List (List Char × List Char) :=
  let (key, value) := key_value part
  if key = REALM then (some value, acc.2)
  else if key = [] then acc
  else (acc.1, acc.2 ++ [(key, value)])

def read_challenge (challenge : List Char) :
    Option (List Char) × List (List Char × List Char) :=
  (split (· == ',') (strip_scheme challenge)).foldl read_part (none, [])

def token_from_response (response : TokenResponse) : Except SourceError (List Char) :=
  match response.body with
  | none => .error .Http
  | some (token, access_token) =>
    match token.or access_token with
    | some token => .ok token
    | none => .error (.Other "registry auth response contained no token")

/-- The token, and the requests that were made for it. -/
def obtain_token (http : TokenRequest → Except SourceError TokenResponse) (challenge : List Char)
    (identity : Option (List Char)) : Except SourceError (List Char) × List TokenRequest :=
  match read_challenge challenge with
  | (none, _) => (.error (.Other "registry auth challenge missing realm"), [])
  | (some realm, query) =>
    -- anonymous first, which covers every public image
    let request : TokenRequest := ⟨realm, query, none⟩
    match http request with
    | .error e => (.error e, [request])
    | .ok anonymous =>
      if is_success anonymous.status then (token_from_response anonymous, [request])
      else
        match (identity.map trimmed).filter (· ≠ []) with
        | none => (.error (.Registry anonymous.status realm), [request])
        | some secret =>
          let basic := (split_once_at [':'] secret).getD (secret, [])
          let again : TokenRequest := ⟨realm, query, some basic⟩
          match http again with
          | .error e => (.error e, [request, again])
          | .ok authed =>
            if is_success authed.status then (token_from_response authed, [request, again])
            else (.error (.Registry authed.status realm), [request, again])

/-- What a registry answers. A header has a value for every line of it, and a character stands for
a byte. -/
structure RegistryResponse where
  status : Nat
  www_authenticate : List (List Char)
  etag : List (List Char)
  link : List (List Char)
  /-- The body's `tags`, when it reads. -/
  body : Option (Option (List String))

/-- A character that `to_str` allows in a header. -/
def is_visible (c : Char) : Bool := c == '\t' || (0x20 ≤ c.toNat && c.toNat < 0x7F)

def header_string (values : List (List Char)) : Option (List Char) :=
  values.head?.filter (fun value => value.all is_visible)

/-- The response, and the token requests that were made for it. `send` makes the request with a
bearer token or without. -/
def send_authenticated (send : Option (List Char) → Except SourceError RegistryResponse)
    (http : TokenRequest → Except SourceError TokenResponse) (token : Option (List Char)) :
    Except SourceError RegistryResponse × List TokenRequest :=
  match send none with
  | .error e => (.error e, [])
  | .ok response =>
    if response.status ≠ 401 then (.ok response, [])
    else
      let challenge := (header_string response.www_authenticate).getD []
      if challenge = [] then (.ok response, [])
      else
        match obtain_token http challenge token with
        | (.error e, requests) => (.error e, requests)
        | (.ok bearer, requests) => (send (some bearer), requests)

/-! ## Challenges -/

/-- A visible character that is no delimiter. -/
def is_token_char (c : Char) : Bool :=
  0x21 ≤ c.toNat && c.toNat ≤ 0x7E &&
    !(['"', '(', ')', ',', '/', ':', ';', '<', '=', '>', '?', '@', '[', '\\', ']', '\x7b',
      '\x7d'].contains c)

def is_blank (c : Char) : Bool := c == ' ' || c == '\t'

/-- Between the quotes: no bare quote, and a character after every backslash. -/
def well_quoted : List Char → Bool
  | '\\' :: _ :: rest => well_quoted rest
  | ['\\'] => false
  | c :: rest => c != '"' && well_quoted rest
  | [] => true

/-- What a quoted text means: a backslash stands for the character after it. -/
def unescape : List Char → List Char
  | '\\' :: c :: rest => c :: unescape rest
  | c :: rest => c :: unescape rest
  | [] => []

theorem mem_unescape {c : Char} (hc : c ≠ '\\') (raw : List Char) :
    c ∈ unescape raw ↔ c ∈ raw := by
  induction raw using unescape.induct with
  | case1 d rest ih => simp [unescape, ih, hc]
  | case2 d rest hnot ih =>
    rw [unescape]
    · simp [ih]
    · exact hnot
  | case3 => simp [unescape]

/-- One parameter as it is written, with the blanks around its parts. -/
structure Param where
  before : List Char
  name : List Char
  lead : List Char
  trail : List Char
  /-- The token, or what is between the quotes. -/
  raw : List Char
  quoted : Bool
  after : List Char

def Param.written (p : Param) : List Char := if p.quoted then '"' :: p.raw ++ ['"'] else p.raw

def Param.text (p : Param) : List Char :=
  p.before ++ p.name ++ p.lead ++ '=' :: p.trail ++ p.written ++ p.after

/-- What the parameter means. -/
def Param.value (p : Param) : List Char := if p.quoted then unescape p.raw else p.raw

structure Param.WellFormed (p : Param) : Prop where
  before : ∀ c ∈ p.before, is_blank c = true
  name : p.name ≠ [] ∧ ∀ c ∈ p.name, is_token_char c = true
  lead : ∀ c ∈ p.lead, is_blank c = true
  trail : ∀ c ∈ p.trail, is_blank c = true
  quoted : p.quoted = true → well_quoted p.raw = true
  token : p.quoted = false → p.raw ≠ [] ∧ ∀ c ∈ p.raw, is_token_char c = true
  after : ∀ c ∈ p.after, is_blank c = true

/-- The parameter is the realm; names have no case. -/
def Param.is_realm (p : Param) : Bool := p.name.map to_ascii_lowercase = REALM

/-- A Bearer challenge as it is written. -/
structure Challenge where
  scheme : List Char
  params : List Param

def Challenge.text (c : Challenge) : List Char :=
  c.scheme ++ [','].intercalate (c.params.map Param.text)

/-- A Bearer challenge with one realm. A space comes after the scheme, and nothing after the last
parameter. -/
structure Challenge.WellFormed (c : Challenge) : Prop where
  scheme : c.scheme.map to_ascii_lowercase = BEARER_LOWER
  params : ∀ p ∈ c.params, p.WellFormed
  realm : c.params.countP Param.is_realm = 1
  ends : ∀ p ∈ c.params.getLast?, p.after = []

/-- The challenge's realm. -/
def Challenge.realm (c : Challenge) : Option (List Char) :=
  (c.params.find? Param.is_realm).map Param.value

/-- The challenge's other parameters, in their order. -/
def Challenge.others (c : Challenge) : List (List Char × List Char) :=
  (c.params.filter (fun p => !p.is_realm)).map (fun p => (p.name, p.value))

/-- Whatever request is answered with the challenge: there is a token request, and every one goes
to the challenge's realm with its other parameters. -/
def Understood (c : Challenge) : Prop :=
  ∀ send http token response, send none = .ok response → response.status = 401 →
    response.www_authenticate = [c.text] →
      (send_authenticated send http token).2 ≠ [] ∧
        ∀ request ∈ (send_authenticated send http token).2,
          some request.realm = c.realm ∧ request.query = c.others

/-- The spelling that the parser knows: the scheme in one of two cases, the realm in lower case,
and values of visible characters without a comma or a backslash. -/
structure Simple (c : Challenge) : Prop where
  scheme : c.scheme = BEARER ∨ c.scheme = BEARER_LOWER
  realm : ∀ p ∈ c.params, p.is_realm = true → p.name = REALM
  commas : ∀ p ∈ c.params, ',' ∉ p.raw
  escapes : ∀ p ∈ c.params, '\\' ∉ p.raw
  visible : ∀ p ∈ c.params, p.raw.all is_visible = true

/-! ## The loop over the parts -/

def is_realm_key (kv : List Char × List Char) : Bool := kv.1 = REALM

def is_param_key (kv : List Char × List Char) : Bool := kv.1 ≠ REALM && kv.1 ≠ []

theorem read_parts_eq (parts : List (List Char))
    (acc : Option (List Char) × List (List Char × List Char)) :
    parts.foldl read_part acc =
      (((((parts.map key_value).filter is_realm_key).getLast?).map Prod.snd).or acc.1,
        acc.2 ++ (parts.map key_value).filter is_param_key) := by
  induction parts using List.reverseRecOn with
  | nil => simp
  | append_singleton parts part ih =>
    rw [List.foldl_append, ih, List.foldl_cons, List.foldl_nil]
    simp only [List.map_append, List.map_singleton, List.filter_append]
    unfold read_part
    by_cases hrealm : (key_value part).1 = REALM
    · have hnot : is_param_key (key_value part) = false := by simp [is_param_key, hrealm]
      have hyes : is_realm_key (key_value part) = true := by simp [is_realm_key, hrealm]
      simp [hrealm, hnot, hyes]
    · have hno : is_realm_key (key_value part) = false := by simp [is_realm_key, hrealm]
      by_cases hempty : (key_value part).1 = []
      · have hnot : is_param_key (key_value part) = false := by simp [is_param_key, hempty]
        have hne : [] ≠ REALM := by decide
        simp [hempty, hne, hnot, hno]
      · have hyes : is_param_key (key_value part) = true := by
          simp [is_param_key, hrealm, hempty]
        simp [hrealm, hempty, hyes, hno]

/-- The keys and values of the parts of a challenge. -/
def pairs (challenge : List Char) : List (List Char × List Char) :=
  (split (· == ',') (strip_scheme challenge)).map key_value

theorem read_challenge_eq (challenge : List Char) :
    read_challenge challenge =
      ((((pairs challenge).filter is_realm_key).getLast?).map Prod.snd,
        (pairs challenge).filter is_param_key) := by
  unfold read_challenge
  rw [read_parts_eq, Option.or_none, List.nil_append]
  rfl

/-- Every request is made for the realm and the parameters that were read. -/
theorem requests_eq (http : TokenRequest → Except SourceError TokenResponse)
    {challenge realm : List Char} {query : List (List Char × List Char)}
    (h : read_challenge challenge = (some realm, query)) (identity : Option (List Char)) :
    (obtain_token http challenge identity).2 ≠ [] ∧
      ∀ request ∈ (obtain_token http challenge identity).2,
        request.realm = realm ∧ request.query = query := by
  unfold obtain_token
  simp only [h]
  split
  · simp
  · split
    · simp
    · split
      · simp
      · split
        · simp
        · split <;> simp

/-- A challenged request makes the token requests of its challenge. -/
theorem challenged {send : Option (List Char) → Except SourceError RegistryResponse}
    {response : RegistryResponse} {challenge : List Char} (hsend : send none = .ok response)
    (hstatus : response.status = 401)
    (hchallenge : header_string response.www_authenticate = some challenge) (hne : challenge ≠ [])
    (http : TokenRequest → Except SourceError TokenResponse) (token : Option (List Char)) :
    (send_authenticated send http token).2 = (obtain_token http challenge token).2 := by
  unfold send_authenticated
  rw [hsend]
  simp only [hstatus, hchallenge, Option.getD_some, hne, ne_eq, not_true_eq_false, if_false]
  cases obtain_token http challenge token with
  | mk result requests => cases result <;> rfl

/-- Without a challenge that reads there is no token request. -/
theorem unchallenged {send : Option (List Char) → Except SourceError RegistryResponse}
    {response : RegistryResponse} (hsend : send none = .ok response)
    (hstatus : response.status = 401) (hchallenge : header_string response.www_authenticate = none)
    (http : TokenRequest → Except SourceError TokenResponse) (token : Option (List Char)) :
    (send_authenticated send http token).2 = [] := by
  unfold send_authenticated
  rw [hsend]
  simp [hstatus, hchallenge]

theorem header_string_one (value : List Char) :
    header_string [value] = if value.all is_visible then some value else none := by
  unfold header_string
  rw [List.head?_cons, Option.filter_some]

theorem realm_isSome {c : Challenge} (h : c.WellFormed) : ∃ realm, c.realm = some realm := by
  have hany : ∃ p ∈ c.params, p.is_realm = true := by
    rw [← List.countP_pos_iff, h.realm]
    exact Nat.one_pos
  unfold Challenge.realm
  cases hfind : c.params.find? Param.is_realm with
  | none =>
    obtain ⟨p, hp, hrealm⟩ := hany
    exact absurd hrealm (List.find?_eq_none.mp hfind p hp)
  | some p => exact ⟨p.value, rfl⟩

theorem text_ne_nil {c : Challenge} (h : c.WellFormed) : c.text ≠ [] := by
  intro hnil
  have hscheme : c.scheme = [] := (List.append_eq_nil_iff.mp hnil).1
  have := h.scheme
  rw [hscheme] at this
  exact absurd this (by decide)

theorem understood_iff {c : Challenge} (h : c.WellFormed) :
    Understood c ↔ c.text.all is_visible = true ∧ read_challenge c.text = (c.realm, c.others) := by
  obtain ⟨realm, hrealm⟩ := realm_isSome h
  have hne := text_ne_nil h
  have hheader := header_string_one c.text
  constructor
  · intro hall
    obtain ⟨hsome, hrequests⟩ := hall (fun _ => .ok ⟨401, [c.text], [], [], none⟩)
      (fun _ => .error .Http) none _ rfl rfl rfl
    by_cases hvisible : c.text.all is_visible = true
    · rw [if_pos hvisible] at hheader
      rw [challenged rfl rfl hheader hne] at hsome hrequests
      refine ⟨hvisible, ?_⟩
      cases hread : read_challenge c.text with
      | mk found query =>
        cases found with
        | none =>
          refine absurd ?_ hsome
          unfold obtain_token
          rw [hread]
        | some found =>
          obtain ⟨-, hown⟩ := requests_eq (fun _ => .error .Http) hread none
          obtain ⟨request, hmem⟩ := List.exists_mem_of_ne_nil _ hsome
          obtain ⟨hto, hwith⟩ := hrequests request hmem
          obtain ⟨rfl, rfl⟩ := hown request hmem
          rw [hto, hwith]
    · rw [if_neg hvisible] at hheader
      exact absurd (unchallenged rfl rfl hheader _ none) hsome
  · intro ⟨hvisible, hread⟩ send http token response hsend hstatus hchallenge
    rw [if_pos hvisible, ← hchallenge] at hheader
    rw [hrealm] at hread
    rw [challenged hsend hstatus hheader hne]
    obtain ⟨hsome, hown⟩ := requests_eq http hread token
    refine ⟨hsome, fun request hmem => ?_⟩
    obtain ⟨rfl, hquery⟩ := hown request hmem
    exact ⟨hrealm.symm, hquery⟩

/-! ## One parameter -/

theorem blank_is_whitespace {c : Char} (h : is_blank c = true) : is_whitespace c = true := by
  unfold is_blank at h
  simp only [Bool.or_eq_true, beq_iff_eq] at h
  rcases h with rfl | rfl
  · decide
  · decide

theorem token_not_whitespace {c : Char} (h : is_token_char c = true) :
    is_whitespace c = false := by
  unfold is_token_char at h
  simp only [Bool.and_eq_true, decide_eq_true_eq] at h
  have hhigh := h.1.2
  unfold is_whitespace
  simp only [Bool.or_eq_false_iff, Bool.and_eq_false_iff, decide_eq_false_iff_not,
    beq_eq_false_iff_ne]
  omega

theorem whitespace_of_blanks {s : List Char} (h : ∀ c ∈ s, is_blank c = true) :
    ∀ c ∈ s, is_whitespace c = true :=
  fun c hc => blank_is_whitespace (h c hc)

theorem token_not_delimiter {c : Char} (h : is_token_char c = true) :
    c ≠ '=' ∧ c ≠ ',' ∧ c ≠ '"' ∧ c ≠ '\\' ∧ c ≠ ' ' := by
  refine ⟨?_, ?_, ?_, ?_, ?_⟩ <;> rintro rfl <;> exact absurd h (by decide)

theorem blank_not_delimiter {c : Char} (h : is_blank c = true) : c ≠ '=' ∧ c ≠ ',' := by
  refine ⟨?_, ?_⟩ <;> rintro rfl <;> exact absurd h (by decide)

theorem written_ends {p : Param} (h : p.WellFormed) :
    (∀ c ∈ p.written.head?, is_whitespace c = false) ∧
      (∀ c ∈ p.written.getLast?, is_whitespace c = false) ∧ p.written ≠ [] := by
  unfold Param.written
  cases hquoted : p.quoted with
  | true =>
    refine ⟨?_, ?_, by simp⟩
    · intro c hc
      obtain rfl : '"' = c := by simpa using hc
      decide
    · intro c hc
      rw [if_pos rfl, List.getLast?_concat] at hc
      obtain rfl := Option.some.inj hc
      decide
  | false =>
    obtain ⟨hne, htoken⟩ := h.token hquoted
    refine ⟨?_, ?_, by simpa using hne⟩
    · intro c hc
      exact token_not_whitespace (htoken c (List.mem_of_mem_head? (by simpa using hc)))
    · intro c hc
      exact token_not_whitespace (htoken c (List.mem_of_getLast? (by simpa using hc)))

theorem name_ends {p : Param} (h : p.WellFormed) :
    (∀ c ∈ p.name.head?, is_whitespace c = false) ∧
      ∀ c ∈ p.name.getLast?, is_whitespace c = false :=
  ⟨fun c hc => token_not_whitespace (h.name.2 c (List.mem_of_mem_head? hc)),
    fun c hc => token_not_whitespace (h.name.2 c (List.mem_of_getLast? hc))⟩

/-- Before the `=` of a parameter there is no other one. -/
theorem front_no_equals {p : Param} (h : p.WellFormed) :
    ∀ c ∈ p.before ++ p.name ++ p.lead, c ≠ '=' ∧ c ≠ ',' := by
  intro c hc
  rw [List.mem_append, List.mem_append] at hc
  rcases hc with (hc | hc) | hc
  · exact blank_not_delimiter (h.before c hc)
  · exact ⟨(token_not_delimiter (h.name.2 c hc)).1, (token_not_delimiter (h.name.2 c hc)).2.1⟩
  · exact blank_not_delimiter (h.lead c hc)

theorem key_value_text {p : Param} (h : p.WellFormed) :
    key_value p.text = (p.name, trim_quotes p.written) := by
  have hfront := front_no_equals h
  have htext : p.text =
      (p.before ++ p.name ++ p.lead) ++ '=' :: (p.trail ++ p.written ++ p.after) := by
    simp [Param.text]
  have htake : p.text.takeWhile (· ≠ '=') = p.before ++ p.name ++ p.lead := by
    rw [htext, List.takeWhile_append_of_pos (fun c hc => by simpa using (hfront c hc).1)]
    simp
  have hdrop : p.text.dropWhile (· ≠ '=') = '=' :: (p.trail ++ p.written ++ p.after) := by
    rw [htext, List.dropWhile_append_of_pos (fun c hc => by simpa using (hfront c hc).1)]
    simp
  unfold key_value
  rw [htake, hdrop, List.drop_one, List.tail_cons,
    trimmed_between (whitespace_of_blanks h.before) (whitespace_of_blanks h.lead)
      (name_ends h).1 (name_ends h).2,
    trimmed_between (whitespace_of_blanks h.trail) (whitespace_of_blanks h.after)
      (written_ends h).1 (written_ends h).2.1]

/-! ## Quoted values -/

theorem count_unescape_le (raw : List Char) : (unescape raw).count '\\' ≤ raw.count '\\' := by
  induction raw using unescape.induct with
  | case1 d rest ih =>
    rw [unescape, List.count_cons_self, List.count_cons, List.count_cons]
    omega
  | case2 d rest hnot ih =>
    rw [unescape]
    · rw [List.count_cons, List.count_cons]
      omega
    · exact hnot
  | case3 => simp [unescape]

/-- Every escape drops a backslash. -/
theorem count_unescape_lt {raw : List Char} (h : well_quoted raw = true) (hmem : '\\' ∈ raw) :
    (unescape raw).count '\\' < raw.count '\\' := by
  induction raw using unescape.induct with
  | case1 d rest ih =>
    have := count_unescape_le rest
    rw [unescape, List.count_cons_self, List.count_cons, List.count_cons]
    omega
  | case2 d rest hnot ih =>
    have hd : d ≠ '\\' := by
      rintro rfl
      cases rest with
      | nil => simp [well_quoted] at h
      | cons e rest => exact hnot e rest rfl rfl
    have hrest : well_quoted rest = true := by
      rw [well_quoted] at h
      · exact (Bool.and_eq_true_iff.mp h).2
      · exact hnot
      · rintro rfl
        exact absurd rfl hd
    have hlt := ih hrest (List.mem_of_ne_of_mem hd.symm hmem)
    rw [unescape]
    · rw [List.count_cons, List.count_cons]
      omega
    · exact hnot
  | case3 => simp at hmem

theorem unescape_plain {raw : List Char} (h : '\\' ∉ raw) : unescape raw = raw := by
  induction raw with
  | nil => rfl
  | cons c rest ih =>
    rw [List.mem_cons, not_or] at h
    rw [unescape, ih h.2]
    intro _ _ hc
    exact absurd hc.symm h.1

theorem quoted_plain {raw : List Char} (h : well_quoted raw = true) (hmem : '\\' ∉ raw) :
    '"' ∉ raw := by
  induction raw with
  | nil => simp
  | cons c rest ih =>
    rw [List.mem_cons, not_or] at hmem ⊢
    rw [well_quoted] at h
    · rw [Bool.and_eq_true, bne_iff_ne] at h
      exact ⟨h.1.symm, ih h.2 hmem.2⟩
    · intro _ _ hc
      exact absurd hc.symm hmem.1
    · intro hc
      exact absurd hc.symm hmem.1

theorem trim_quotes_plain {raw : List Char} (h : '"' ∉ raw) : trim_quotes raw = raw := by
  have hall : ∀ c ∈ raw, (c == '"') = false := by
    intro c hc
    rw [beq_eq_false_iff_ne]
    rintro rfl
    exact h hc
  unfold trim_quotes trim_end_matches trim_start_matches
  cases raw with
  | nil => rfl
  | cons first rest =>
    rw [List.dropWhile_cons_of_neg (by simp [hall first List.mem_cons_self])]
    obtain ⟨front, last, hraw⟩ := List.eq_nil_or_concat (first :: rest) |>.resolve_left
      (List.cons_ne_nil _ _)
    rw [List.concat_eq_append] at hraw
    rw [hraw]
    exact rdropWhile_last (p := (· == '"')) (hall last (by rw [hraw]; simp)) front

theorem trim_quotes_quoted {raw : List Char} (h : '"' ∉ raw) :
    trim_quotes ('"' :: raw ++ ['"']) = raw := by
  have hplain := trim_quotes_plain h
  unfold trim_quotes trim_end_matches trim_start_matches at hplain ⊢
  rw [List.cons_append, List.dropWhile_cons_of_pos (by decide)]
  cases raw with
  | nil => rfl
  | cons first rest =>
    have hfirst : (first == '"') = false := by
      rw [beq_eq_false_iff_ne]
      rintro rfl
      exact h List.mem_cons_self
    rw [List.cons_append, List.dropWhile_cons_of_neg (by simp [hfirst]), ← List.cons_append,
      List.rdropWhile_concat_pos _ _ _ (by decide)]
    rwa [List.dropWhile_cons_of_neg (by simp [hfirst])] at hplain

/-- What is read of a value is its meaning exactly when nothing in it is escaped. -/
theorem read_value_iff {p : Param} (h : p.WellFormed) :
    trim_quotes p.written = p.value ↔ '\\' ∉ p.raw := by
  unfold Param.written Param.value
  cases hquoted : p.quoted with
  | false =>
    obtain ⟨-, htoken⟩ := h.token hquoted
    have hquote : '"' ∉ p.raw := fun hc => (token_not_delimiter (htoken _ hc)).2.2.1 rfl
    have hslash : '\\' ∉ p.raw := fun hc => (token_not_delimiter (htoken _ hc)).2.2.2.1 rfl
    simp [trim_quotes_plain hquote, hslash]
  | true =>
    have hraw := h.quoted hquoted
    simp only [if_true]
    constructor
    · intro heq hmem
      have hlt := count_unescape_lt hraw hmem
      have hcount : (trim_quotes ('"' :: p.raw ++ ['"'])).count '\\' = p.raw.count '\\' := by
        unfold trim_quotes
        rw [count_trim (by decide)]
        simp
      rw [heq] at hcount
      omega
    · intro hmem
      rw [trim_quotes_quoted (quoted_plain hraw hmem), unescape_plain hmem]

/-! ## The parts -/

theorem comma_text_iff {p : Param} (h : p.WellFormed) : ',' ∈ p.text ↔ ',' ∈ p.raw := by
  have hfront : ',' ∉ p.before ++ p.name ++ p.lead := fun hc => (front_no_equals h _ hc).2 rfl
  have htrail : ',' ∉ p.trail := fun hc => (blank_not_delimiter (h.trail _ hc)).2 rfl
  have hafter : ',' ∉ p.after := fun hc => (blank_not_delimiter (h.after _ hc)).2 rfl
  have hequals : ',' ≠ '=' := by decide
  have hwritten : ',' ∈ p.written ↔ ',' ∈ p.raw := by
    unfold Param.written
    split
    · simp
    · rfl
  unfold Param.text
  simp only [List.mem_append, List.mem_cons, not_or] at hfront ⊢
  tauto

/-- Pieces without a comma are what was joined. -/
theorem pieces_of_join {pieces : List (List Char)} (hne : pieces ≠ [])
    (h : ∀ piece ∈ pieces, ',' ∉ piece) :
    split (· == ',') ([','].intercalate pieces) = pieces := by
  have halone : ∀ piece ∈ pieces, split (· == ',') piece = [piece] := by
    intro piece hpiece
    apply split_alone
    intro c hc
    rw [beq_eq_false_iff_ne]
    rintro rfl
    exact h piece hpiece hc
  rw [split_joined (by decide) hne, List.flatMap_congr halone, List.flatMap_singleton' pieces]

theorem intercalate_last (l : List (List Char)) (a : List Char) :
    ∃ front, [','].intercalate (l ++ [a]) = front ++ a := by
  induction l with
  | nil => exact ⟨[], by simp⟩
  | cons b l ih =>
    obtain ⟨front, hfront⟩ := ih
    refine ⟨b ++ [','] ++ front, ?_⟩
    obtain ⟨d, ds, hds⟩ := List.exists_cons_of_ne_nil (show l ++ [a] ≠ [] by simp)
    rw [List.cons_append, hds, List.intercalate_cons_cons, ← hds, hfront]
    simp

theorem intercalate_first (a : List Char) (l : List (List Char)) :
    ∃ tail, [','].intercalate (a :: l) = a ++ tail ∧ (tail = [] ∨ tail.head? = some ',') := by
  cases l with
  | nil => exact ⟨[], by simp, Or.inl rfl⟩
  | cons b l =>
    exact ⟨',' :: [','].intercalate (b :: l), by rw [List.intercalate_cons_cons]; simp, Or.inr rfl⟩

theorem params_ne_nil {c : Challenge} (h : c.WellFormed) : c.params ≠ [] := by
  intro hnil
  have := h.realm
  rw [hnil] at this
  simp at this

/-! ## The scheme -/

theorem alphabetic_not_whitespace {c : Char} (h : is_ascii_alphabetic c = true) :
    is_whitespace c = false := by
  unfold is_ascii_alphabetic is_ascii_lowercase is_ascii_uppercase at h
  simp only [Bool.or_eq_true, Bool.and_eq_true, decide_eq_true_eq, Char.le_def,
    UInt32.le_iff_toNat_le] at h
  have hrange : (97 ≤ c.toNat ∧ c.toNat ≤ 122) ∨ (65 ≤ c.toNat ∧ c.toNat ≤ 90) := h
  unfold is_whitespace
  simp only [Bool.or_eq_false_iff, Bool.and_eq_false_iff, decide_eq_false_iff_not,
    beq_eq_false_iff_ne]
  omega

/-- The scheme is six letters and a space. -/
theorem scheme_chars {c : Challenge} (h : c.WellFormed) :
    ∃ first letters, c.scheme = first :: letters ++ [' '] ∧ is_whitespace first = false ∧
      ',' ∉ c.scheme ∧ '=' ∉ c.scheme ∧ c.scheme.length = 7 := by
  have hscheme := h.scheme
  have hnot : ∀ d : Char, is_ascii_alphabetic d = false → d ∉ BEARER_LOWER → d ∉ c.scheme := by
    intro d hd hout hmem
    apply hout
    rw [← hscheme, ← (lowercase_eq_iff hd d).mpr rfl]
    exact List.mem_map_of_mem hmem
  have hlength : c.scheme.length = 7 := by
    rw [← List.length_map (f := to_ascii_lowercase), hscheme]
    rfl
  have hsplit : BEARER_LOWER = ['b', 'e', 'a', 'r', 'e', 'r'] ++ [' '] := rfl
  rw [hsplit, List.map_eq_append_iff] at hscheme
  obtain ⟨word, last, heq, hword, hlast⟩ := hscheme
  obtain ⟨first, letters, rfl, hfirst, -⟩ := List.map_eq_cons_iff.mp hword
  obtain ⟨space, hspace, hrest⟩ := List.map_eq_singleton_iff.mp hlast
  refine ⟨first, letters, ?_, ?_, hnot ',' (by decide) (by decide),
    hnot '=' (by decide) (by decide), hlength⟩
  · rw [heq, hspace, (lowercase_eq_iff (by decide) space).mp hrest]
  · apply alphabetic_not_whitespace
    rw [← alphabetic_lowercase, hfirst]
    decide

theorem text_ends {c : Challenge} (h : c.WellFormed) :
    ∃ front last, c.text = front ++ [last] ∧ is_whitespace last = false := by
  obtain ⟨init, p, hparams⟩ := List.eq_nil_or_concat c.params |>.resolve_left (params_ne_nil h)
  rw [List.concat_eq_append] at hparams
  have hafter : p.after = [] := h.ends p (by rw [hparams]; simp)
  have hp := h.params p (by rw [hparams]; simp)
  obtain ⟨-, hlast, hne⟩ := written_ends hp
  obtain ⟨front, last, hwritten⟩ := List.eq_nil_or_concat p.written |>.resolve_left hne
  rw [List.concat_eq_append] at hwritten
  obtain ⟨start, hstart⟩ := intercalate_last (init.map Param.text) p.text
  refine ⟨c.scheme ++ start ++ (p.before ++ p.name ++ p.lead ++ '=' :: p.trail) ++ front, last, ?_,
    hlast last (by rw [hwritten]; simp)⟩
  unfold Challenge.text
  rw [hparams, List.map_append, List.map_singleton, hstart, Param.text, hafter, hwritten]
  simp

theorem trimmed_text {c : Challenge} (h : c.WellFormed) : trimmed c.text = c.text := by
  obtain ⟨front, last, htext, hlast⟩ := text_ends h
  obtain ⟨first, letters, hscheme, hfirst, -⟩ := scheme_chars h
  have hstart : c.text.dropWhile is_whitespace = c.text := by
    unfold Challenge.text
    rw [hscheme, List.cons_append, List.cons_append]
    exact List.dropWhile_cons_of_neg (by simp [hfirst])
  unfold trimmed trim_end_matches trim_start_matches
  rw [hstart, htext]
  exact rdropWhile_last hlast front

theorem prefix_text_iff {c : Challenge} (h : c.WellFormed) {known : List Char}
    (hknown : known.length = 7) : known.isPrefixOf c.text = true ↔ c.scheme = known := by
  obtain ⟨-, -, -, -, -, -, hlength⟩ := scheme_chars h
  have hscheme : c.scheme <+: c.text := List.prefix_append _ _
  rw [List.isPrefixOf_iff_prefix]
  constructor
  · intro hpre
    have hboth := List.prefix_of_prefix_length_le hscheme hpre (by omega)
    exact hboth.eq_of_length (by omega)
  · rintro rfl
    exact hscheme

theorem drop_scheme {c : Challenge} (h : c.WellFormed) :
    c.text.drop 7 = [','].intercalate (c.params.map Param.text) := by
  obtain ⟨-, -, -, -, -, -, hlength⟩ := scheme_chars h
  unfold Challenge.text
  rw [← hlength, List.drop_left]

/-- A known scheme is taken off, and any other stays. -/
theorem strip_scheme_text {c : Challenge} (h : c.WellFormed) :
    strip_scheme c.text =
      if c.scheme = BEARER ∨ c.scheme = BEARER_LOWER then
        [','].intercalate (c.params.map Param.text)
      else c.text := by
  have hupper : BEARER.isPrefixOf c.text = true ↔ c.scheme = BEARER := prefix_text_iff h rfl
  have hlower : BEARER_LOWER.isPrefixOf c.text = true ↔ c.scheme = BEARER_LOWER :=
    prefix_text_iff h rfl
  unfold strip_scheme strip_prefix
  rw [trimmed_text h]
  by_cases hu : c.scheme = BEARER
  · rw [if_pos (hupper.mpr hu), if_pos (Or.inl hu)]
    exact drop_scheme h
  · rw [if_neg (fun hp => hu (hupper.mp hp))]
    by_cases hl : c.scheme = BEARER_LOWER
    · rw [if_pos (hlower.mpr hl), if_pos (Or.inr hl)]
      exact drop_scheme h
    · rw [if_neg (fun hp => hl (hlower.mp hp)), if_neg (by simp [hu, hl])]
      rfl

theorem token_visible {c : Char} (h : is_token_char c = true) : is_visible c = true := by
  unfold is_token_char at h
  unfold is_visible
  simp only [Bool.and_eq_true, Bool.or_eq_true, decide_eq_true_eq] at h ⊢
  omega

theorem blank_visible {c : Char} (h : is_blank c = true) : is_visible c = true := by
  unfold is_blank at h
  rw [Bool.or_eq_true, beq_iff_eq, beq_iff_eq] at h
  rcases h with rfl | rfl
  · decide
  · decide

theorem param_visible {p : Param} (h : p.WellFormed) :
    p.text.all is_visible = p.raw.all is_visible := by
  have hblank : ∀ l : List Char, (∀ c ∈ l, is_blank c = true) → l.all is_visible = true :=
    fun l hl => List.all_eq_true.mpr (fun c hc => blank_visible (hl c hc))
  have hname : p.name.all is_visible = true :=
    List.all_eq_true.mpr (fun c hc => token_visible (h.name.2 c hc))
  have hequals : is_visible '=' = true := by decide
  have hquote : is_visible '"' = true := by decide
  have hwritten : p.written.all is_visible = p.raw.all is_visible := by
    unfold Param.written
    split
    · simp [hquote]
    · rfl
  unfold Param.text
  simp only [List.all_append, List.all_cons, hblank _ h.before, hblank _ h.lead,
    hblank _ h.trail, hblank _ h.after, hname, hequals, hwritten, Bool.true_and, Bool.and_true]

theorem visible_letter {c : Char} (h : to_ascii_lowercase c ∈ BEARER_LOWER) :
    is_visible c = true := by
  by_cases hletter : is_ascii_alphabetic (to_ascii_lowercase c) = true
  · rw [alphabetic_lowercase] at hletter
    unfold is_ascii_alphabetic is_ascii_lowercase is_ascii_uppercase at hletter
    simp only [Bool.or_eq_true, Bool.and_eq_true, decide_eq_true_eq, Char.le_def,
      UInt32.le_iff_toNat_le] at hletter
    have hrange : (97 ≤ c.toNat ∧ c.toNat ≤ 122) ∨ (65 ≤ c.toNat ∧ c.toNat ≤ 90) := hletter
    unfold is_visible
    simp only [Bool.and_eq_true, Bool.or_eq_true, decide_eq_true_eq]
    omega
  · have hspace : to_ascii_lowercase c = ' ' := by
      unfold BEARER_LOWER at h
      simp only [List.mem_cons, List.not_mem_nil, or_false] at h
      rcases h with h | h | h | h | h | h | h
      all_goals first | exact h | (rw [h] at hletter; exact absurd (by decide) hletter)
    rw [(lowercase_eq_iff (by decide) c).mp hspace]
    decide

theorem scheme_visible {c : Challenge} (h : c.WellFormed) : c.scheme.all is_visible = true := by
  rw [List.all_eq_true]
  intro d hd
  apply visible_letter
  rw [← h.scheme]
  exact List.mem_map_of_mem hd

/-- The header is visible when the values are. -/
theorem visible_iff {c : Challenge} (h : c.WellFormed) :
    c.text.all is_visible = true ↔ ∀ p ∈ c.params, p.raw.all is_visible = true := by
  have hcomma : is_visible ',' = true := by decide
  have hjoined : ∀ l : List Param, (∀ p ∈ l, p.WellFormed) →
      ([','].intercalate (l.map Param.text)).all is_visible =
        l.all (fun p => p.raw.all is_visible) := by
    intro l
    induction l with
    | nil => simp
    | cons p l ih =>
      intro hl
      have hp := param_visible (hl p List.mem_cons_self)
      have hrest := ih (fun q hq => hl q (List.mem_cons_of_mem _ hq))
      cases l with
      | nil => simp [hp]
      | cons q l =>
        rw [List.map_cons, List.map_cons, List.intercalate_cons_cons, ← List.map_cons,
          List.all_append, List.all_append, hp, hrest]
        simp [hcomma]
  unfold Challenge.text
  rw [List.all_append, scheme_visible h, Bool.true_and, hjoined c.params h.params,
    List.all_eq_true]

/-- The first part goes at least as far as there is no comma. -/
theorem first_part {front : List Char} (h : ∀ d ∈ front, d ≠ ',') (tail : List Char) :
    ∃ more, front ++ more ∈ split (· == ',') (front ++ tail) := by
  obtain ⟨piece, -, hcases⟩ := split_eq (· == ',') (front ++ tail)
  rcases hcases with ⟨rfl, hsplit⟩ | ⟨sep, rest, htext, hsep, hsplit⟩
  · exact ⟨tail, by rw [hsplit]; exact List.mem_singleton_self _⟩
  · have hpiece : piece ∈ split (· == ',') (front ++ tail) := by
      rw [hsplit]
      exact List.mem_cons_self
    rcases List.append_eq_append_iff.mp htext with ⟨more, rfl, -⟩ | ⟨between, hfront, hbetween⟩
    · exact ⟨more, hpiece⟩
    · cases between with
      | nil =>
        rw [List.append_nil] at hfront
        subst hfront
        exact ⟨[], by rw [List.append_nil]; exact hpiece⟩
      | cons d between =>
        rw [List.cons_append, List.cons.injEq] at hbetween
        obtain rfl : sep = ',' := by simpa using hsep
        have hmem : ',' ∈ front := by
          rw [hfront, ← hbetween.1]
          simp
        exact absurd rfl (h ',' hmem)

/-- With an unknown scheme the first key has a space in it. -/
theorem unknown_scheme_key {c : Challenge} (h : c.WellFormed)
    (hscheme : ¬(c.scheme = BEARER ∨ c.scheme = BEARER_LOWER)) :
    ∃ kv ∈ pairs c.text, ' ' ∈ kv.1 := by
  obtain ⟨p, ps, hparams⟩ := List.exists_cons_of_ne_nil (params_ne_nil h)
  have hp := h.params p (by rw [hparams]; exact List.mem_cons_self)
  obtain ⟨first, letters, hword, hfirst, hcomma, hequals, -⟩ := scheme_chars h
  obtain ⟨tail, htail, -⟩ := intercalate_first p.text (ps.map Param.text)
  -- the front of the first part, up to the first `=`
  have hfront : ∀ d ∈ c.scheme ++ (p.before ++ p.name ++ p.lead), d ≠ '=' ∧ d ≠ ',' := by
    intro d hd
    rcases List.mem_append.mp hd with hd | hd
    · exact ⟨fun heq => hequals (heq ▸ hd), fun heq => hcomma (heq ▸ hd)⟩
    · exact front_no_equals hp d hd
  have htext : c.text = (c.scheme ++ (p.before ++ p.name ++ p.lead) ++ ['=']) ++
      (p.trail ++ p.written ++ p.after ++ tail) := by
    unfold Challenge.text
    rw [hparams, List.map_cons, htail, Param.text]
    simp
  have hclear : ∀ d ∈ c.scheme ++ (p.before ++ p.name ++ p.lead) ++ ['='], d ≠ ',' := by
    intro d hd
    rcases List.mem_append.mp hd with hd | hd
    · exact (hfront d hd).2
    · obtain rfl := List.mem_singleton.mp hd
      decide
  obtain ⟨more, hpart⟩ := first_part hclear (p.trail ++ p.written ++ p.after ++ tail)
  have hown : strip_scheme c.text = c.text := by rw [strip_scheme_text h, if_neg hscheme]
  rw [← htext, ← hown] at hpart
  refine ⟨_, List.mem_map_of_mem hpart, ?_⟩
  obtain ⟨start, last, hname⟩ := List.eq_nil_or_concat p.name |>.resolve_left hp.name.1
  rw [List.concat_eq_append] at hname
  have hlast : is_whitespace last = false :=
    token_not_whitespace (hp.name.2 last (by rw [hname]; simp))
  have hkey : (c.scheme ++ (p.before ++ p.name ++ p.lead) ++ ['='] ++ more).takeWhile (· ≠ '=') =
      first :: (letters ++ ' ' :: p.before ++ start) ++ last :: p.lead := by
    rw [List.append_assoc,
      List.takeWhile_append_of_pos (fun d hd => by simpa using (hfront d hd).1)]
    rw [hword, hname]
    simp
  unfold key_value trimmed trim_end_matches trim_start_matches
  simp only [hkey]
  rw [List.cons_append, List.dropWhile_cons_of_neg (by simp [hfirst]), ← List.cons_append,
    rdropWhile_append_cons hlast]
  simp

/-- No value that is read has a comma in it. -/
theorem read_no_comma {challenge : List Char} : ∀ kv ∈ pairs challenge, ',' ∉ kv.2 := by
  intro kv hkv
  obtain ⟨part, hpart, rfl⟩ := List.mem_map.mp hkv
  obtain ⟨-, -, -, hchars, -⟩ := (mem_split_iff _ _ _).mp hpart
  intro hmem
  have hsub : ∀ d ∈ (key_value part).2, d ∈ part := by
    intro d hd
    unfold key_value trim_quotes trimmed trim_end_matches trim_start_matches at hd
    have hd := (List.dropWhile_suffix _).subset ((List.rdropWhile_prefix _ _).subset hd)
    have hd := (List.dropWhile_suffix _).subset ((List.rdropWhile_prefix _ _).subset hd)
    exact (List.dropWhile_suffix _).subset (List.mem_of_mem_drop hd)
  exact absurd (hchars ',' (hsub ',' hmem)) (by decide)

/-- With a known scheme and no commas in the values, the parts are the parameters. -/
theorem pairs_of_params {c : Challenge} (h : c.WellFormed)
    (hscheme : c.scheme = BEARER ∨ c.scheme = BEARER_LOWER)
    (hcommas : ∀ p ∈ c.params, ',' ∉ p.raw) :
    pairs c.text = c.params.map (fun p => (p.name, trim_quotes p.written)) := by
  have hpieces : ∀ piece ∈ c.params.map Param.text, ',' ∉ piece := by
    intro piece hpiece
    obtain ⟨p, hp, rfl⟩ := List.mem_map.mp hpiece
    exact fun hc => hcommas p hp ((comma_text_iff (h.params p hp)).mp hc)
  unfold pairs
  rw [strip_scheme_text h, if_pos hscheme,
    pieces_of_join (by simpa using params_ne_nil h) hpieces, List.map_map]
  exact List.map_congr_left (fun p hp => key_value_text (h.params p hp))

/-! ## When it is understood -/

/-- There is one realm only. -/
theorem realm_unique {c : Challenge} (h : c.WellFormed) {p q : Param} (hp : p ∈ c.params)
    (hq : q ∈ c.params) (hpr : p.is_realm = true) (hqr : q.is_realm = true) : p = q := by
  have hone : (c.params.filter Param.is_realm).length = 1 := by
    rw [← List.countP_eq_length_filter]
    exact h.realm
  obtain ⟨r, hr⟩ := List.length_eq_one_iff.mp hone
  have hp' : p ∈ c.params.filter Param.is_realm := List.mem_filter.mpr ⟨hp, hpr⟩
  have hq' : q ∈ c.params.filter Param.is_realm := List.mem_filter.mpr ⟨hq, hqr⟩
  rw [hr, List.mem_singleton] at hp' hq'
  rw [hp', hq']

theorem realm_eq {c : Challenge} (h : c.WellFormed) {p : Param} (hp : p ∈ c.params)
    (hpr : p.is_realm = true) : c.realm = some p.value := by
  obtain ⟨realm, hrealm⟩ := realm_isSome h
  unfold Challenge.realm at hrealm ⊢
  obtain ⟨q, hq, -⟩ := Option.map_eq_some_iff.mp hrealm
  obtain rfl := realm_unique h hp (List.mem_of_find?_eq_some hq) hpr (List.find?_some hq)
  rw [hq]
  rfl

theorem name_of_realm {p : Param} (h : p.name = REALM) : p.is_realm = true := by
  unfold Param.is_realm
  rw [h]
  decide

theorem realm_iff_name {c : Challenge}
    (hnames : ∀ p ∈ c.params, p.is_realm = true → p.name = REALM) {p : Param} (hp : p ∈ c.params) :
    p.is_realm = decide (p.name = REALM) := by
  by_cases hname : p.name = REALM
  · rw [name_of_realm hname, decide_eq_true hname]
  · rw [decide_eq_false hname, Bool.eq_false_iff]
    exact fun hrealm => hname (hnames p hp hrealm)

/-- What is read in a known spelling: the parameters with their quotes trimmed. -/
theorem read_simple {c : Challenge} (h : c.WellFormed)
    (hscheme : c.scheme = BEARER ∨ c.scheme = BEARER_LOWER)
    (hcommas : ∀ p ∈ c.params, ',' ∉ p.raw)
    (hnames : ∀ p ∈ c.params, p.is_realm = true → p.name = REALM) :
    read_challenge c.text =
      ((c.params.find? Param.is_realm).map (fun p => trim_quotes p.written),
        (c.params.filter (fun p => !p.is_realm)).map
          (fun p => (p.name, trim_quotes p.written))) := by
  have hrealm : c.params.filter (fun p => is_realm_key (p.name, trim_quotes p.written)) =
      c.params.filter Param.is_realm := by
    apply List.filter_congr
    intro p hp
    rw [realm_iff_name hnames hp]
    rfl
  have hothers : c.params.filter (fun p => is_param_key (p.name, trim_quotes p.written)) =
      c.params.filter (fun p => !p.is_realm) := by
    apply List.filter_congr
    intro p hp
    have hne : p.name ≠ [] := (h.params p hp).name.1
    rw [realm_iff_name hnames hp]
    simp [is_param_key, hne]
  have hone : (c.params.filter Param.is_realm).length = 1 := by
    rw [← List.countP_eq_length_filter]
    exact h.realm
  obtain ⟨p, hp⟩ := List.length_eq_one_iff.mp hone
  rw [read_challenge_eq, pairs_of_params h hscheme hcommas, List.filter_map, List.filter_map]
  unfold Function.comp
  rw [hrealm, hothers, ← List.head?_filter, hp]
  rfl

theorem no_comma_of_understood {c : Challenge} (h : c.WellFormed)
    (hread : read_challenge c.text = (c.realm, c.others)) : ∀ p ∈ c.params, ',' ∉ p.raw := by
  intro p hp hmem
  have hvalue : ',' ∈ p.value := by
    unfold Param.value
    split
    · exact (mem_unescape (by decide) p.raw).mpr hmem
    · exact hmem
  rw [read_challenge_eq, Prod.mk.injEq] at hread
  by_cases hrealm : p.is_realm = true
  · rw [realm_eq h hp hrealm] at hread
    obtain ⟨kv, hlast, hkv⟩ := Option.map_eq_some_iff.mp hread.1
    refine read_no_comma kv (List.mem_filter.mp (List.mem_of_getLast? hlast)).1 ?_
    rw [hkv]
    exact hvalue
  · have hothers : (p.name, p.value) ∈ c.others :=
      List.mem_map_of_mem (List.mem_filter.mpr ⟨hp, by simpa using hrealm⟩)
    rw [← hread.2] at hothers
    exact read_no_comma _ (List.mem_filter.mp hothers).1 hvalue

theorem scheme_of_understood {c : Challenge} (h : c.WellFormed)
    (hread : read_challenge c.text = (c.realm, c.others)) :
    c.scheme = BEARER ∨ c.scheme = BEARER_LOWER := by
  by_contra hscheme
  obtain ⟨kv, hkv, hspace⟩ := unknown_scheme_key h hscheme
  rw [read_challenge_eq, Prod.mk.injEq] at hread
  have hkey : is_param_key kv = true := by
    have hne : kv.1 ≠ REALM := by
      intro heq
      rw [heq] at hspace
      exact absurd hspace (by decide)
    simp [is_param_key, hne, List.ne_nil_of_mem hspace]
  have hothers : kv ∈ c.others := by
    rw [← hread.2]
    exact List.mem_filter.mpr ⟨hkv, hkey⟩
  obtain ⟨p, hp, rfl⟩ := List.mem_map.mp hothers
  have htoken := (h.params p (List.mem_filter.mp hp).1).name.2 ' ' hspace
  exact absurd htoken (by decide)

theorem realm_name_of_understood {c : Challenge} (h : c.WellFormed)
    (hread : read_challenge c.text = (c.realm, c.others)) :
    ∀ p ∈ c.params, p.is_realm = true → p.name = REALM := by
  intro p hp hrealm
  have hpairs := pairs_of_params h (scheme_of_understood h hread) (no_comma_of_understood h hread)
  rw [read_challenge_eq, Prod.mk.injEq, realm_eq h hp hrealm] at hread
  obtain ⟨kv, hlast, -⟩ := Option.map_eq_some_iff.mp hread.1
  obtain ⟨hkv, hkey⟩ := List.mem_filter.mp (List.mem_of_getLast? hlast)
  rw [hpairs] at hkv
  obtain ⟨q, hq, rfl⟩ := List.mem_map.mp hkv
  have hname : q.name = REALM := of_decide_eq_true hkey
  rw [realm_unique h hp hq hrealm (name_of_realm hname)]
  exact hname

/-- The token request goes to the challenge's realm with exactly the other parameters if and only
if the challenge is spelled in the way that the parser knows. -/
theorem challenge_is_understood_iff {c : Challenge} (h : c.WellFormed) :
    Understood c ↔ Simple c := by
  rw [understood_iff h, visible_iff h]
  constructor
  · intro ⟨hvisible, hread⟩
    have hscheme := scheme_of_understood h hread
    have hcommas := no_comma_of_understood h hread
    have hnames := realm_name_of_understood h hread
    refine ⟨hscheme, hnames, hcommas, ?_, hvisible⟩
    rw [read_simple h hscheme hcommas hnames, Prod.mk.injEq] at hread
    obtain ⟨hrealm, hothers⟩ := hread
    intro p hp
    rw [← read_value_iff (h.params p hp)]
    by_cases hpr : p.is_realm = true
    · rw [realm_eq h hp hpr] at hrealm
      obtain ⟨q, hfind, hq⟩ := Option.map_eq_some_iff.mp hrealm
      have hqr := List.find?_some hfind
      rwa [realm_unique h (List.mem_of_find?_eq_some hfind) hp hqr hpr] at hq
    · have hboth := List.map_inj_left.mp hothers p (List.mem_filter.mpr ⟨hp, by simpa using hpr⟩)
      exact (Prod.mk.injEq _ _ _ _ ▸ hboth).2
  · intro hsimple
    have hvalue : ∀ p ∈ c.params, trim_quotes p.written = p.value :=
      fun p hp => (read_value_iff (h.params p hp)).mpr (hsimple.escapes p hp)
    rw [read_simple h hsimple.scheme hsimple.commas hsimple.realm, Prod.mk.injEq]
    refine ⟨hsimple.visible, ?_, ?_⟩
    · unfold Challenge.realm
      cases hfind : c.params.find? Param.is_realm with
      | none => rfl
      | some p =>
        rw [Option.map_some, Option.map_some, hvalue p (List.mem_of_find?_eq_some hfind)]
    · apply List.map_congr_left
      intro p hp
      rw [hvalue p (List.mem_filter.mp hp).1]

/-- A quoted parameter without blanks. -/
def quoted (name raw : List Char) : Param := ⟨[], name, [], [], raw, true, []⟩

theorem quoted_wellFormed {name raw : List Char} (hne : name ≠ [])
    (hname : ∀ c ∈ name, is_token_char c = true) (hraw : well_quoted raw = true) :
    (quoted name raw).WellFormed :=
  ⟨by simp [quoted], ⟨hne, hname⟩, by simp [quoted], by simp [quoted], fun _ => hraw,
    by simp [quoted], by simp [quoted]⟩

/-- `Bearer realm="https://r/t",service="s"`. -/
def plain : Challenge :=
  ⟨BEARER, [quoted REALM "https://r/t".toList, quoted ['s', 'e', 'r', 'v', 'i', 'c', 'e'] ['s']]⟩

theorem plain_wellFormed : plain.WellFormed where
  scheme := by decide
  params := by
    intro p hp
    simp only [plain, List.mem_cons, List.not_mem_nil, or_false] at hp
    rcases hp with rfl | rfl
    · exact quoted_wellFormed (by decide) (List.all_eq_true.mp (by decide)) (by simp [well_quoted])
    · exact quoted_wellFormed (by decide) (List.all_eq_true.mp (by decide)) (by simp [well_quoted])
  realm := by decide
  ends := by simp [plain, quoted]

theorem challenge_is_understood_here : Understood plain :=
  (challenge_is_understood_iff plain_wellFormed).mpr
    ⟨Or.inl rfl, by decide, by decide, by decide, by decide⟩

/-- `Bearer realm="https://r/t",scope="repository:app:pull,push"`: what a registry asks of a client
that may push. -/
def pull_push : Challenge :=
  ⟨BEARER, [quoted REALM "https://r/t".toList,
    quoted ['s', 'c', 'o', 'p', 'e'] "repository:app:pull,push".toList]⟩

theorem pull_push_wellFormed : pull_push.WellFormed where
  scheme := by decide
  params := by
    intro p hp
    simp only [pull_push, List.mem_cons, List.not_mem_nil, or_false] at hp
    rcases hp with rfl | rfl
    · exact quoted_wellFormed (by decide) (List.all_eq_true.mp (by decide)) (by simp [well_quoted])
    · exact quoted_wellFormed (by decide) (List.all_eq_true.mp (by decide)) (by simp [well_quoted])
  realm := by decide
  ends := by simp [pull_push, quoted]

/-- The scope is cut at its comma, and what was asked for after it is a parameter of its own. -/
theorem a_comma_cuts_a_scope :
    pull_push.WellFormed ∧
      read_challenge pull_push.text =
        (some "https://r/t".toList, [("scope".toList, "repository:app:pull".toList),
          (['p', 'u', 's', 'h', '"'], [])]) ∧
      pull_push.others = [("scope".toList, "repository:app:pull,push".toList)] ∧
      ¬Understood pull_push := by
  have hread : read_challenge pull_push.text =
      (some "https://r/t".toList, [("scope".toList, "repository:app:pull".toList),
        (['p', 'u', 's', 'h', '"'], [])]) := by
    decide +kernel
  have hothers : pull_push.others = [("scope".toList, "repository:app:pull,push".toList)] := by
    decide +kernel
  refine ⟨pull_push_wellFormed, hread, hothers, ?_⟩
  rw [understood_iff pull_push_wellFormed, hread, hothers]
  simp

end xrelease.challenge
