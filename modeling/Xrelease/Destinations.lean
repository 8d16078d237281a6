-- Where the credentials of a document are sent, and what the restoring of redacted fields
-- (`restore_redacted_secrets`) sends to another place than the running configuration does.
import Xrelease.Reapplied

namespace xrelease.destinations

open xrelease.config xrelease.reapplied text

/-! ## Places -/

/-- What a credential is handed to. -/
inductive Target where
  | Url (base : String)
  | Server (host : String) (port : Nat)
  /-- A URL that is only known by the name of a variable. -/
  | Named (env : Option String)
deriving DecidableEq

def without_slashes (url : String) : String :=
  String.ofList (trim_end_matches (· == '/') url.toList)

def DEFAULT_REGISTRY : String := "https://registry-1.docker.io"

def is_docker_hub_registry (url : String) : Bool :=
  url == DEFAULT_REGISTRY ||
    match (strip_prefix_of "https://" url).or (strip_prefix_of "http://" url) with
    | none => false
    | some rest =>
      let host := (rest.toList.takeWhile (· ≠ '/')).takeWhile (· ≠ ':')
      ["registry-1.docker.io", "docker.io", "index.docker.io", "hub.docker.com"].contains
        (lower (String.ofList host))

/-- `resolve_docker_registry`, and the base URL of the registry that it answers. -/
def resolve_docker_registry (registry : Option String) : String :=
  match named registry with
  | none => DEFAULT_REGISTRY
  | some raw =>
    let base := without_slashes (if contains "://" raw then raw else "https://" ++ raw)
    if is_docker_hub_registry base then DEFAULT_REGISTRY else base

/-- The API that the client of a source asks with its token. -/
def source_target : SourceConfig → Target
  | .Github _ => .Url "https://api.github.com"
  | .Codeberg _ => .Url "https://codeberg.org"
  | .Gitea c => .Url (without_slashes c.host)
  | .Gitlab c =>
    .Url (if c.host.getD "" = "" then "https://gitlab.com" else without_slashes (c.host.getD ""))
  | .Bitbucket c =>
    match c.edition with
    | .Cloud => .Url (without_slashes (c.host.getD "https://api.bitbucket.org/2.0"))
    | .Server => .Url (without_slashes (c.host.getD ""))
  | .Docker c => .Url (resolve_docker_registry c.registry)
  | .Image .Ghcr _ => .Url "https://ghcr.io"
  | .Image .Quay _ => .Url "https://quay.io"
  | .Image .Ecr _ => .Url "https://public.ecr.aws"
  | .Feed _ | .Package _ _ | .Artifacthub _ => .Named none

/-- The base of an API, with the default of its kind where it is blank. -/
def api_target (api_base default : String) : Target :=
  .Url (without_slashes (if blank api_base then default else api_base))

def SLACK_API : String := "https://slack.com/api"

def TELEGRAM_API : String := "https://api.telegram.org"

/-- The URL, or the variable that holds it. -/
def address (url : String) (url_env : Option String) : Target :=
  if url_needs_restore url then .Named (named url_env) else .Url url

/-! ## What is sent -/

/-- A credential by the path of its field: a value, or the name of the variable that holds it. -/
structure Credential where
  field : List String
  value : String
deriving DecidableEq

def inline (target : Target) (field : List String) (value : String) :
    List (Target × Credential) :=
  if is_placeholder value then [] else [(target, ⟨field, value⟩)]

def by_name (target : Target) (field : List String) (env : Option String) :
    List (Target × Credential) :=
  if env_blank env then [] else [(target, ⟨field ++ ["env"], env.getD ""⟩)]

def secret_sends (target : Target) (field : List String) (value : String) (env : Option String) :
    List (Target × Credential) := inline target field value ++ by_name target field env

/-- A URL with a password in it is the place that it is sent to. -/
def url_sends (missing : String → Bool) (url : String) (url_env : Option String) :
    List (Target × Credential) :=
  (if missing url then [] else [(.Url url, ⟨["url"], url⟩)]) ++
    by_name (.Named (named url_env)) ["url"] url_env

def header_sends (target : Target) (headers : List (String × String)) :
    List (Target × Credential) :=
  headers.flatMap (fun kv => inline target ["headers", kv.1] kv.2)

def source_sends (source : SourceConfig) : List (Target × Credential) :=
  match source.token_refs with
  | none => []
  | some (token, token_env) =>
    secret_sends (source_target source) ["token"] (token.getD "") token_env

def notifier_sends : NotifierConfig → List (Target × Credential)
  | .Apprise n =>
    n.urls.flatMap (inline (.Url (without_slashes n.endpoint)) ["urls"]) ++
      by_name (.Url (without_slashes n.endpoint)) ["urls"] n.urls_env
  | .Webhook n =>
    url_sends url_needs_restore n.url n.url_env ++
      secret_sends (address n.url n.url_env) ["secret"] n.secret n.secret_env ++
      header_sends (address n.url n.url_env) n.headers ++
      by_name (address n.url n.url_env) ["headers"] n.headers_env
  | .Express n =>
    secret_sends (.Url (without_slashes n.base_url)) ["access_token"] n.access_token
      n.access_token_env
  | .Novu n =>
    secret_sends (.Url (without_slashes n.base_url)) ["api_key"] n.api_key n.api_key_env
  | .Slack n =>
    url_sends is_placeholder n.webhook_url n.webhook_url_env ++
      secret_sends (api_target n.api_base SLACK_API) ["bot_token"] n.bot_token n.bot_token_env
  | .Telegram n =>
    secret_sends (api_target n.api_base TELEGRAM_API) ["bot_token"] n.bot_token n.bot_token_env
  | .Smtp n => secret_sends (.Server n.host n.port) ["password"] n.password n.password_env
  | .Kafka _ => []
  | .Nats n => url_sends url_needs_restore n.url n.url_env
  | .Rabbitmq n => url_sends url_needs_restore n.url n.url_env

def sends (config : Config) : List (Target × Credential) :=
  config.sources.flatMap source_sends ++ config.notifiers.flatMap notifier_sends

/-! ## What is taken over -/

/-- What the open ones of a secret field and its `*_env` field take from the previous entry. -/
def filled (target : Target) (field : List String) (next : String) (next_env : Option String)
    (prev : String) (prev_env : Option String) : List (Target × Credential) :=
  (if is_placeholder next then inline target field prev else []) ++
    (if env_blank next_env then by_name target field prev_env else [])

/-- The first header under the key that is no placeholder. -/
def header_value (prev : List (String × String)) (key : String) : Option (String × String) :=
  prev.find? (fun kv => kv.1 == key && !is_placeholder kv.2)

def filled_headers (target : Target) (next prev : List (String × String)) :
    List (Target × Credential) :=
  if next = [] then header_sends target prev
  else
    next.flatMap fun kv =>
      if is_placeholder kv.2 then header_sends target (header_value prev kv.1).toList else []

/-- Where a webhook sends once an open URL is taken over. -/
def joint_address (next prev : WebhookCfg) : Target :=
  address
    (if url_needs_restore next.url && !url_needs_restore prev.url then prev.url else next.url)
    (if env_blank next.url_env then prev.url_env else next.url_env)

/-- What a source takes from the entry that its key matches. -/
def source_taken (previous : List SourceConfig) (next : SourceConfig) :
    List (Target × Credential) :=
  match prev_source previous next with
  | none => []
  | some prev =>
    match next.token_refs, prev.token_refs with
    | some (token, env), some (prev_token, prev_env) =>
      filled (source_target next) ["token"] (token.getD "") env (prev_token.getD "") prev_env
    | _, _ => []

/-- What a notifier takes from the entry it is matched to; a URL is its own place, and Apprise
entries are matched by their endpoint. -/
def notifier_taken (previous : List NotifierConfig) : NotifierConfig → List (Target × Credential)
  | .Webhook n =>
    match prev_webhook previous n with
    | none => []
    | some p =>
      filled (joint_address n p) ["secret"] n.secret n.secret_env p.secret p.secret_env ++
        filled_headers (joint_address n p) n.headers p.headers ++
        (if env_blank n.headers_env then by_name (joint_address n p) ["headers"] p.headers_env
          else [])
  | .Express n =>
    match prev_express previous n with
    | none => []
    | some p =>
      filled (.Url (without_slashes n.base_url)) ["access_token"] n.access_token
        n.access_token_env p.access_token p.access_token_env
  | .Novu n =>
    match prev_novu previous n with
    | none => []
    | some p =>
      filled (.Url (without_slashes n.base_url)) ["api_key"] n.api_key n.api_key_env p.api_key
        p.api_key_env
  | .Slack n =>
    match prev_slack previous n with
    | none => []
    | some p =>
      filled (api_target n.api_base SLACK_API) ["bot_token"] n.bot_token n.bot_token_env
        p.bot_token p.bot_token_env
  | .Telegram n =>
    match prev_telegram previous n with
    | none => []
    | some p =>
      filled (api_target n.api_base TELEGRAM_API) ["bot_token"] n.bot_token n.bot_token_env
        p.bot_token p.bot_token_env
  | .Smtp n =>
    match prev_smtp previous n with
    | none => []
    | some p =>
      filled (.Server n.host n.port) ["password"] n.password n.password_env p.password
        p.password_env
  | .Apprise _ | .Nats _ | .Rabbitmq _ | .Kafka _ => []

/-! ## Fields -/

theorem by_name_restored (target : Target) (field : List String) (next prev : Option String) :
    by_name target field (restore_env_name next prev) =
      by_name target field next ++ (if env_blank next then by_name target field prev else []) := by
  unfold restore_env_name
  cases hn : env_blank next with
  | false => simp
  | true =>
    have hnil : by_name target field next = [] := by simp [by_name, hn]
    cases hp : env_blank prev with
    | false => simp [hnil]
    | true =>
      have hnil' : by_name target field prev = [] := by simp [by_name, hp]
      simp [hnil, hnil']

theorem inline_cleared (target : Target) (field : List String) (env : Option String)
    (value : String) :
    inline target field (clear_placeholder env value) = inline target field value := by
  have hempty : is_placeholder "" = true := by decide
  unfold clear_placeholder inline
  cases hv : is_placeholder value with
  | false => simp [hv]
  | true =>
    cases env_blank env
    · simp [hempty]
    · simp [hv]

theorem inline_restored (target : Target) (field : List String) (next prev : String) :
    inline target field (restore_inline next prev) =
      inline target field next ++
        (if is_placeholder next then inline target field prev else []) := by
  unfold restore_inline
  cases hn : is_placeholder next with
  | false => simp
  | true =>
    have hnil : inline target field next = [] := by simp [inline, hn]
    cases hp : is_placeholder prev with
    | false => simp [hnil]
    | true =>
      have hnil' : inline target field prev = [] := by simp [inline, hp]
      simp [hnil, hnil']

/-- A restored field sends what it sent, and what its open parts are filled with. -/
theorem mem_secret_restored (target : Target) (field : List String) (next : String)
    (next_env : Option String) (prev : String) (prev_env : Option String)
    (x : Target × Credential) :
    x ∈ secret_sends target field (restore_secret next next_env prev prev_env).1
        (restore_secret next next_env prev prev_env).2 ↔
      x ∈ secret_sends target field next next_env ∨
        x ∈ filled target field next next_env prev prev_env := by
  unfold restore_secret secret_sends filled
  simp only [inline_cleared, inline_restored, by_name_restored, List.mem_append]
  constructor
  · rintro ((h | h) | h | h)
    · exact Or.inl (Or.inl h)
    · exact Or.inr (Or.inl h)
    · exact Or.inl (Or.inr h)
    · exact Or.inr (Or.inr h)
  · rintro ((h | h) | h | h)
    · exact Or.inl (Or.inl h)
    · exact Or.inr (Or.inl h)
    · exact Or.inl (Or.inr h)
    · exact Or.inr (Or.inr h)

/-! ## Entries -/

/-- The same field of the entry had the same value when it was submitted. -/
def Submitted (own : List (Target × Credential)) (x : Target × Credential) : Prop :=
  ∃ y ∈ own, y.2 = x.2

/-- All that a restored entry sends was submitted with it, is sent there by the live
configuration, or is taken over; and what is taken over is sent. -/
structure Handed (live own restored taken : List (Target × Credential)) : Prop where
  covered : ∀ x ∈ restored, Submitted own x ∨ x ∈ live ∨ x ∈ taken
  used : ∀ x ∈ taken, x ∈ restored

section Entries

variable {live : List (Target × Credential)}

variable {own own' : List (Target × Credential)} {x : Target × Credential}
  {previous : List NotifierConfig}

theorem Handed.home_iff {restored taken : List (Target × Credential)}
    (h : Handed live own restored taken) :
    (∀ x ∈ restored, Submitted own x ∨ x ∈ live) ↔ ∀ x ∈ taken, Submitted own x ∨ x ∈ live := by
  constructor
  · intro hhome x hx
    exact hhome x (h.used x hx)
  · intro hhome x hx
    rcases h.covered x hx with hown | hlive | htaken
    · exact Or.inl hown
    · exact Or.inr hlive
    · exact hhome x htaken

theorem Handed.append {restored restored' taken taken' : List (Target × Credential)}
    (h : Handed live own restored taken) (h' : Handed live own' restored' taken') :
    Handed live (own ++ own') (restored ++ restored') (taken ++ taken') where
  covered := by
    intro x hx
    rcases List.mem_append.mp hx with hx | hx
    · rcases h.covered x hx with ⟨y, hy, he⟩ | hlive | htaken
      · exact Or.inl ⟨y, List.mem_append_left _ hy, he⟩
      · exact Or.inr (Or.inl hlive)
      · exact Or.inr (Or.inr (List.mem_append_left _ htaken))
    · rcases h'.covered x hx with ⟨y, hy, he⟩ | hlive | htaken
      · exact Or.inl ⟨y, List.mem_append_right _ hy, he⟩
      · exact Or.inr (Or.inl hlive)
      · exact Or.inr (Or.inr (List.mem_append_right _ htaken))
  used := by
    intro x hx
    rcases List.mem_append.mp hx with hx | hx
    · exact List.mem_append_left _ (h.used x hx)
    · exact List.mem_append_right _ (h'.used x hx)

theorem handed_self (own : List (Target × Credential)) : Handed live own own [] where
  covered := fun x hx => Or.inl ⟨x, hx, rfl⟩
  used := fun _ hx => absurd hx (List.not_mem_nil)

theorem submitted_inline {target target' : Target} {field : List String} {value : String}
    (h : x ∈ inline target field value) :
    Submitted (inline target' field value) x := by
  unfold inline at *
  split at h
  · simp at h
  · rename_i hv
    obtain rfl := List.mem_singleton.mp h
    rw [if_neg hv]
    exact ⟨_, List.mem_singleton_self _, rfl⟩

theorem submitted_by_name {target target' : Target} {field : List String} {env : Option String}
    (h : x ∈ by_name target field env) :
    Submitted (by_name target' field env) x := by
  unfold by_name at *
  split at h
  · simp at h
  · rename_i he
    obtain rfl := List.mem_singleton.mp h
    rw [if_neg he]
    exact ⟨_, List.mem_singleton_self _, rfl⟩

theorem Submitted.left (h : Submitted own x) : Submitted (own ++ own') x := by
  obtain ⟨y, hy, he⟩ := h
  exact ⟨y, List.mem_append_left _ hy, he⟩

theorem Submitted.right (h : Submitted own' x) : Submitted (own ++ own') x := by
  obtain ⟨y, hy, he⟩ := h
  exact ⟨y, List.mem_append_right _ hy, he⟩

variable (live) in
/-- A secret field, wherever the entry sent it before. -/
theorem handed_secret (target target' : Target) (field : List String) (next : String)
    (next_env : Option String) (prev : String) (prev_env : Option String) :
    Handed live (secret_sends target' field next next_env)
      (secret_sends target field (restore_secret next next_env prev prev_env).1
        (restore_secret next next_env prev prev_env).2)
      (filled target field next next_env prev prev_env) where
  covered := by
    intro x hx
    rcases (mem_secret_restored _ _ _ _ _ _ _).mp hx with h | h
    · rcases List.mem_append.mp h with h | h
      · exact Or.inl (submitted_inline h).left
      · exact Or.inl (submitted_by_name h).right
    · exact Or.inr (Or.inr h)
  used := fun x hx => (mem_secret_restored _ _ _ _ _ _ _).mpr (Or.inr hx)

variable (live) in
theorem handed_name (target target' : Target) (field : List String) (next prev : Option String) :
    Handed live (by_name target' field next) (by_name target field (restore_env_name next prev))
      (if env_blank next then by_name target field prev else []) where
  covered := by
    intro x hx
    rw [by_name_restored] at hx
    rcases List.mem_append.mp hx with h | h
    · exact Or.inl (submitted_by_name h)
    · exact Or.inr (Or.inr h)
  used := by
    intro x hx
    rw [by_name_restored]
    exact List.mem_append_right _ hx

/-- A URL is taken over with its place, or stays. -/
theorem handed_url {missing : String → Bool} {next prev url : String}
    {next_env prev_env url_env : Option String}
    (hlive : ∀ x ∈ url_sends missing prev prev_env, x ∈ live)
    (hurl : missing url = false → url = next ∨ url = prev)
    (henv : env_blank url_env = false → url_env = next_env ∨ url_env = prev_env) :
    Handed live (url_sends missing next next_env) (url_sends missing url url_env) [] where
  covered := by
    intro x hx
    unfold url_sends at hx
    rcases List.mem_append.mp hx with h | h
    · cases hm : missing url with
      | true => simp [hm] at h
      | false =>
        rcases hurl hm with rfl | rfl
        · exact Or.inl ⟨x, List.mem_append_left _ h, rfl⟩
        · exact Or.inr (Or.inl (hlive x (List.mem_append_left _ h)))
    · cases hb : env_blank url_env with
      | true => simp [by_name, hb] at h
      | false =>
        rcases henv hb with rfl | rfl
        · exact Or.inl ⟨x, List.mem_append_right _ h, rfl⟩
        · exact Or.inr (Or.inl (hlive x (List.mem_append_right _ h)))
  used := fun _ hx => absurd hx (List.not_mem_nil)

theorem restored_name_cases (next prev : Option String) :
    restore_env_name next prev = next ∨ restore_env_name next prev = prev := by
  unfold restore_env_name
  split
  · exact Or.inl rfl
  · exact Or.inr rfl

theorem restored_url_cases (next prev : String) (next_env prev_env : Option String)
    (h : url_needs_restore (restore_url next next_env prev prev_env).1 = false) :
    (restore_url next next_env prev prev_env).1 = next ∨
      (restore_url next next_env prev prev_env).1 = prev := by
  have hempty : url_needs_restore "" = true := by decide
  have hcases : ∀ b c : Bool,
      url_needs_restore (if b then "" else if c then prev else next) = false →
      (if b then "" else if c then prev else next) = next ∨
        (if b then "" else if c then prev else next) = prev := by
    intro b c hreal
    cases b with
    | true => exact absurd (hempty.symm.trans hreal) (by decide)
    | false =>
      cases c
      · exact Or.inl rfl
      · exact Or.inr rfl
  exact hcases _ _ h

theorem handed_restored_url {next prev : String} {next_env prev_env : Option String}
    (hlive : ∀ x ∈ url_sends url_needs_restore prev prev_env, x ∈ live) :
    Handed live (url_sends url_needs_restore next next_env)
      (url_sends url_needs_restore (restore_url next next_env prev prev_env).1
        (restore_url next next_env prev prev_env).2) [] :=
  handed_url hlive (restored_url_cases next prev next_env prev_env)
    (fun _ => restored_name_cases next_env prev_env)

/-- The hook of a Slack entry, which is a secret field and its own place. -/
theorem handed_hook {next prev : String} {next_env prev_env : Option String}
    (hlive : ∀ x ∈ url_sends is_placeholder prev prev_env, x ∈ live) :
    Handed live (url_sends is_placeholder next next_env)
      (url_sends is_placeholder (restore_secret next next_env prev prev_env).1
        (restore_secret next next_env prev prev_env).2) [] := by
  refine handed_url hlive ?_ (fun _ => restored_name_cases next_env prev_env)
  have hempty : is_placeholder "" = true := by decide
  have hcases : ∀ b c : Bool,
      is_placeholder (if b then "" else if c then next else prev) = false →
      (if b then "" else if c then next else prev) = next ∨
        (if b then "" else if c then next else prev) = prev := by
    intro b c hreal
    cases b with
    | true => exact absurd (hempty.symm.trans hreal) (by decide)
    | false =>
      cases c
      · exact Or.inr rfl
      · exact Or.inl rfl
  exact hcases _ _

/-! ## Headers -/

/-- A header after all previous ones. -/
def restored_header (prev : List (String × String)) (kv : String × String) : String × String :=
  prev.foldl (fun kv p => if kv.1 = p.1 ∧ is_placeholder kv.2 then p else kv) kv

theorem foldl_restore_header (prev next : List (String × String)) :
    prev.foldl restore_header next = next.map (restored_header prev) := by
  induction prev generalizing next with
  | nil =>
    have hid : restored_header [] = id := rfl
    rw [List.foldl_nil, hid, List.map_id]
  | cons p rest ih =>
    rw [List.foldl_cons, ih, restore_header, List.map_map]
    rfl

theorem restored_header_kept {prev : List (String × String)} {kv : String × String}
    (h : is_placeholder kv.2 = false) : restored_header prev kv = kv := by
  induction prev with
  | nil => rfl
  | cons p rest ih =>
    unfold restored_header at ih ⊢
    rw [List.foldl_cons, if_neg (by simp [h])]
    exact ih

/-- An open header sends the first value under its key that is no placeholder. -/
theorem sends_restored_header (target : Target) (prev : List (String × String))
    (kv : String × String) (h : is_placeholder kv.2 = true) :
    inline target ["headers", (restored_header prev kv).1] (restored_header prev kv).2 =
      header_sends target (header_value prev kv.1).toList := by
  induction prev generalizing kv with
  | nil => simp [restored_header, header_value, header_sends, inline, h]
  | cons p rest ih =>
    have hstep : restored_header (p :: rest) kv =
        restored_header rest (if kv.1 = p.1 ∧ is_placeholder kv.2 then p else kv) := rfl
    rw [hstep]
    unfold header_value
    rw [List.find?_cons]
    by_cases hkey : kv.1 = p.1
    · rw [if_pos ⟨hkey, h⟩]
      cases hp : is_placeholder p.2 with
      | false =>
        rw [restored_header_kept hp]
        simp [hkey, header_sends]
      | true =>
        rw [ih p hp, hkey]
        simp [header_value]
    · rw [if_neg (fun hboth => hkey hboth.1), ih kv h]
      have hne : (p.1 == kv.1) = false := by
        rw [beq_eq_false_iff_ne]
        exact fun he => hkey he.symm
      simp [hne, header_value]

variable (live) in
theorem handed_headers (target target' : Target) (next prev : List (String × String)) :
    Handed live (header_sends target' next) (header_sends target (restore_headers next prev))
      (filled_headers target next prev) := by
  unfold restore_headers filled_headers
  by_cases hnil : next = []
  · subst hnil
    by_cases hprev : prev = []
    · subst hprev
      exact handed_self []
    · rw [if_pos ⟨rfl, hprev⟩, if_pos rfl]
      exact ⟨fun x hx => Or.inr (Or.inr hx), fun x hx => hx⟩
  · rw [if_neg (fun h => hnil h.1), if_neg hnil, foldl_restore_header]
    unfold header_sends
    constructor
    · intro x hx
      rw [List.flatMap_map] at hx
      obtain ⟨kv, hkv, hin⟩ := List.mem_flatMap.mp hx
      cases hp : is_placeholder kv.2 with
      | false =>
        rw [restored_header_kept hp] at hin
        have hown : Submitted (inline target' ["headers", kv.1] kv.2) x := submitted_inline hin
        obtain ⟨y, hy, he⟩ := hown
        exact Or.inl ⟨y, List.mem_flatMap.mpr ⟨kv, hkv, hy⟩, he⟩
      | true =>
        rw [sends_restored_header target prev kv hp] at hin
        refine Or.inr (Or.inr (List.mem_flatMap.mpr ⟨kv, hkv, ?_⟩))
        rw [if_pos hp]
        exact hin
    · intro x hx
      obtain ⟨kv, hkv, hin⟩ := List.mem_flatMap.mp hx
      rw [List.flatMap_map]
      refine List.mem_flatMap.mpr ⟨kv, hkv, ?_⟩
      cases hp : is_placeholder kv.2 with
      | false => simp [hp] at hin
      | true =>
        rw [if_pos hp] at hin
        rw [sends_restored_header target prev kv hp]
        exact hin

/-! ## Matches -/

theorem mem_webhooks {l : List NotifierConfig} {p : WebhookCfg} :
    p ∈ webhooks l ↔ .Webhook p ∈ l := by
  unfold webhooks
  rw [List.mem_filterMap]
  constructor
  · rintro ⟨a, ha, hf⟩
    cases a <;> simp at hf
    subst hf
    exact ha
  · intro h
    exact ⟨_, h, rfl⟩

theorem prev_webhook_mem {n p : WebhookCfg} (h : prev_webhook previous n = some p) :
    .Webhook p ∈ previous := by
  rw [← mem_webhooks]
  unfold prev_webhook at h
  simp only at h
  split at h
  · rename_i found hf
    obtain rfl := Option.some.inj h
    exact List.mem_of_find?_eq_some hf
  · split at h
    · simp at h
    · split at h
      · rename_i first hw
        obtain rfl := Option.some.inj h
        rw [hw]
        exact List.mem_singleton_self _
      · simp at h

theorem prev_apprise_spec {n p : AppriseConfig} (h : prev_apprise previous n = some p) :
    .Apprise p ∈ previous ∧ p.endpoint = n.endpoint := by
  obtain ⟨a, ha, hf⟩ := List.exists_of_findSome?_eq_some h
  cases a <;> simp at hf
  obtain ⟨hendpoint, rfl⟩ := hf
  exact ⟨ha, hendpoint⟩

theorem prev_slack_mem {n p : SlackCfg} (h : prev_slack previous n = some p) :
    .Slack p ∈ previous := by
  obtain ⟨a, ha, hf⟩ := List.exists_of_findSome?_eq_some h
  cases a <;> simp at hf
  obtain ⟨-, rfl⟩ := hf
  exact ha

theorem prev_nats_mem {n p : NatsCfg} (h : prev_nats previous n = some p) : .Nats p ∈ previous := by
  obtain ⟨a, ha, hf⟩ := List.exists_of_findSome?_eq_some h
  cases a <;> simp at hf
  obtain ⟨-, rfl⟩ := hf
  exact ha

theorem prev_rabbitmq_mem {n p : RabbitmqCfg} (h : prev_rabbitmq previous n = some p) :
    .Rabbitmq p ∈ previous := by
  obtain ⟨a, ha, hf⟩ := List.exists_of_findSome?_eq_some h
  cases a <;> simp at hf
  obtain ⟨-, rfl⟩ := hf
  exact ha

/-- The running entry sends all that it sends. -/
theorem sends_of_notifier {config : Config} {n : NotifierConfig} (h : n ∈ config.notifiers)
    (hx : x ∈ notifier_sends n) : x ∈ sends config :=
  List.mem_append_right _ (List.mem_flatMap.mpr ⟨n, h, hx⟩)

/-! ## Apprise and webhooks -/

/-- Apprise entries are matched by their endpoint, so the URLs go where they went. -/
theorem handed_apprise {next prev : AppriseConfig} (hendpoint : prev.endpoint = next.endpoint)
    (hlive : ∀ x ∈ notifier_sends (.Apprise prev), x ∈ live) :
    Handed live (notifier_sends (.Apprise next))
      (notifier_sends (.Apprise (restore_apprise next prev))) [] where
  covered := by
    intro x hx
    have hcases : (restore_apprise next prev).urls = prev.urls ∨
        (restore_apprise next prev).urls = [] ∨ (restore_apprise next prev).urls = next.urls := by
      unfold restore_apprise
      simp only
      split
      · exact Or.inl rfl
      · split
        · exact Or.inr (Or.inl rfl)
        · exact Or.inr (Or.inr rfl)
    have hto : (restore_apprise next prev).endpoint = next.endpoint := rfl
    rcases List.mem_append.mp hx with h | h
    · rw [hto] at h
      rcases hcases with he | he | he
      · rw [he, ← hendpoint] at h
        exact Or.inr (Or.inl (hlive x (List.mem_append_left _ h)))
      · rw [he] at h
        simp at h
      · rw [he] at h
        exact Or.inl ⟨x, List.mem_append_left _ h, rfl⟩
    · rw [hto] at h
      have hname : (restore_apprise next prev).urls_env =
          restore_env_name next.urls_env prev.urls_env := rfl
      rw [hname] at h
      rcases restored_name_cases next.urls_env prev.urls_env with he | he
      · rw [he] at h
        exact Or.inl ⟨x, List.mem_append_right _ h, rfl⟩
      · rw [he, ← hendpoint] at h
        exact Or.inr (Or.inl (hlive x (List.mem_append_right _ h)))
  used := fun _ hx => absurd hx (List.not_mem_nil)

theorem named_restored (next prev : Option String) :
    named (restore_env_name next prev) = named (if env_blank next then prev else next) := by
  unfold restore_env_name
  cases hn : env_blank next with
  | false => simp
  | true =>
    cases hp : env_blank prev with
    | false => simp
    | true => simp [(named_eq_none_iff next).mpr hn, (named_eq_none_iff prev).mpr hp]

/-- The place of a restored webhook. -/
theorem address_restored (next prev : WebhookCfg) :
    address (restore_url next.url next.url_env prev.url prev.url_env).1
        (restore_url next.url next.url_env prev.url prev.url_env).2 = joint_address next prev := by
  have hempty : url_needs_restore "" = true := by decide
  unfold restore_url joint_address address
  simp only [named_restored]
  generalize (if (url_needs_restore next.url && !url_needs_restore prev.url) = true then prev.url
    else next.url) = url
  cases hreal : url_needs_restore url with
  | false => simp [hreal]
  | true =>
    cases env_blank (restore_env_name next.url_env prev.url_env)
    · simp [hempty]
    · simp [hreal]

/-- Headers that are cleared for a name sent nothing. -/
theorem cleared_headers (target : Target) (env : Option String)
    (headers : List (String × String)) :
    header_sends target (if !env_blank env && headers.all (fun kv => is_placeholder kv.2) then []
      else headers) = header_sends target headers := by
  split
  · rename_i h
    rw [Bool.and_eq_true, List.all_eq_true] at h
    unfold header_sends
    rw [List.flatMap_nil, eq_comm, List.flatMap_eq_nil_iff]
    intro kv hkv
    rw [inline, if_pos (h.2 kv hkv)]
  · rfl

theorem handed_webhook {next prev : WebhookCfg}
    (hlive : ∀ x ∈ notifier_sends (.Webhook prev), x ∈ live) :
    Handed live (notifier_sends (.Webhook next))
      (notifier_sends (.Webhook (restore_webhook next prev)))
      (filled (joint_address next prev) ["secret"] next.secret next.secret_env prev.secret
          prev.secret_env ++
        filled_headers (joint_address next prev) next.headers prev.headers ++
        (if env_blank next.headers_env then
          by_name (joint_address next prev) ["headers"] prev.headers_env else [])) := by
  have hurl : Handed live (url_sends url_needs_restore next.url next.url_env) _ [] :=
    handed_restored_url (fun x hx => hlive x (List.mem_append_left _ (List.mem_append_left _
      (List.mem_append_left _ hx))))
  have hsecret := handed_secret live (joint_address next prev) (address next.url next.url_env)
    ["secret"] next.secret next.secret_env prev.secret prev.secret_env
  have hheaders := handed_headers live (joint_address next prev) (address next.url next.url_env)
    next.headers prev.headers
  have hname := handed_name live (joint_address next prev) (address next.url next.url_env)
    ["headers"] next.headers_env prev.headers_env
  have hall := ((hurl.append hsecret).append hheaders).append hname
  unfold notifier_sends restore_webhook
  simp only [address_restored, cleared_headers]
  rw [List.nil_append] at hall
  exact hall

end Entries

/-! ## All entries -/

theorem restore_token_inline (target : Target) (field : List String)
    (next next_env prev prev_env : Option String) :
    inline target field ((restore_source_token next next_env prev prev_env).1.getD "") =
      inline target field (next.getD "") ++
        (if is_placeholder (next.getD "") then inline target field (prev.getD "") else []) := by
  have hempty : is_placeholder "" = true := by decide
  have hredacted : is_placeholder "<redacted>" = true := by decide
  have hcleared : ∀ (b : Bool) (token : Option String),
      inline target field ((if b then token else clear_redacted_optional token).getD "") =
        inline target field (token.getD "") := by
    intro b token
    cases b with
    | true => rfl
    | false =>
      unfold clear_redacted_optional
      by_cases ht : token = some "<redacted>"
      · simp [ht, inline, hempty, hredacted]
      · simp [ht]
  unfold restore_source_token
  rw [hcleared]
  cases next with
  | none =>
    cases prev with
    | none => simp [inline, hempty]
    | some value => cases hv : is_placeholder value <;> simp [inline, hempty, hv]
  | some token =>
    cases ht : is_placeholder token with
    | false => simp [ht]
    | true =>
      cases prev with
      | none => simp [inline, hempty, ht]
      | some value => cases hv : is_placeholder value <;> simp [inline, ht, hv]

theorem handed_token (target : Target) (live : List (Target × Credential))
    (next next_env prev prev_env : Option String) :
    Handed live (secret_sends target ["token"] (next.getD "") next_env)
      (secret_sends target ["token"]
        ((restore_source_token next next_env prev prev_env).1.getD "")
        (restore_source_token next next_env prev prev_env).2)
      (filled target ["token"] (next.getD "") next_env (prev.getD "") prev_env) := by
  have hvalue : Handed live (inline target ["token"] (next.getD ""))
      (inline target ["token"] ((restore_source_token next next_env prev prev_env).1.getD ""))
      (if is_placeholder (next.getD "") then inline target ["token"] (prev.getD "") else []) := by
    rw [restore_token_inline]
    constructor
    · intro x hx
      rcases List.mem_append.mp hx with h | h
      · exact Or.inl (submitted_inline h)
      · exact Or.inr (Or.inr h)
    · exact fun x hx => List.mem_append_right _ hx
  exact hvalue.append (handed_name live target target ["token"] next_env prev_env)

theorem source_sends_with_token (s : SourceConfig) {refs : Option String × Option String}
    (h : s.token_refs = some refs) (token env : Option String) :
    source_sends (s.with_token token env) =
      secret_sends (source_target s) ["token"] (token.getD "") env := by
  have htarget : source_target (s.with_token token env) = source_target s := by
    cases s with
    | Image r c => cases r <;> rfl
    | _ => rfl
  unfold source_sends
  rw [SourceConfig.token_refs_with, h, htarget]
  rfl

theorem handed_source (previous : Config) (s : SourceConfig) :
    Handed (sends previous) (source_sends s) (source_sends (restore_source previous.sources s))
      (source_taken previous.sources s) := by
  unfold restore_source source_taken
  cases hp : prev_source previous.sources s with
  | none => exact handed_self _
  | some p =>
    have hkind := (prev_source_spec hp).2
    simp only [hkind, if_true]
    cases hs : s.token_refs with
    | none => exact handed_self _
    | some refs =>
      obtain ⟨token, env⟩ := refs
      obtain ⟨prev_token, prev_env, hrefs⟩ := same_kind_refs hkind hs
      have hown : source_sends s =
          secret_sends (source_target s) ["token"] (token.getD "") env := by
        unfold source_sends
        rw [hs]
      simp only [hrefs]
      rw [hown, source_sends_with_token s hs]
      exact handed_token _ _ _ _ _ _

theorem handed_notifier (previous : Config) (n : NotifierConfig) :
    Handed (sends previous) (notifier_sends n)
      (notifier_sends (restore_notifier previous.notifiers n))
      (notifier_taken previous.notifiers n) := by
  cases n with
  | Apprise n =>
    simp only [restore_notifier, notifier_taken]
    cases hp : prev_apprise previous.notifiers n with
    | none => exact handed_self _
    | some p =>
      obtain ⟨hmem, hendpoint⟩ := prev_apprise_spec hp
      exact handed_apprise hendpoint (fun x hx => sends_of_notifier hmem hx)
  | Webhook n =>
    simp only [restore_notifier, notifier_taken]
    cases hp : prev_webhook previous.notifiers n with
    | none => exact handed_self _
    | some p => exact handed_webhook (fun x hx => sends_of_notifier (prev_webhook_mem hp) hx)
  | Express n =>
    simp only [restore_notifier, notifier_taken]
    cases hp : prev_express previous.notifiers n with
    | none => exact handed_self _
    | some p => exact handed_secret _ _ _ _ _ _ _ _
  | Novu n =>
    simp only [restore_notifier, notifier_taken]
    cases hp : prev_novu previous.notifiers n with
    | none => exact handed_self _
    | some p => exact handed_secret _ _ _ _ _ _ _ _
  | Slack n =>
    simp only [restore_notifier, notifier_taken]
    cases hp : prev_slack previous.notifiers n with
    | none => exact handed_self _
    | some p =>
      have hhook : Handed (sends previous) (url_sends is_placeholder n.webhook_url
          n.webhook_url_env) _ [] :=
        handed_hook (fun x hx => sends_of_notifier (prev_slack_mem hp) (List.mem_append_left _ hx))
      have htoken := handed_secret (sends previous) (api_target n.api_base SLACK_API)
        (api_target n.api_base SLACK_API) ["bot_token"] n.bot_token n.bot_token_env p.bot_token
        p.bot_token_env
      have hboth := hhook.append htoken
      rw [List.nil_append] at hboth
      exact hboth
  | Telegram n =>
    simp only [restore_notifier, notifier_taken]
    cases hp : prev_telegram previous.notifiers n with
    | none => exact handed_self _
    | some p => exact handed_secret _ _ _ _ _ _ _ _
  | Smtp n =>
    simp only [restore_notifier, notifier_taken]
    cases hp : prev_smtp previous.notifiers n with
    | none => exact handed_self _
    | some p => exact handed_secret _ _ _ _ _ _ _ _
  | Kafka n => exact handed_self _
  | Nats n =>
    simp only [restore_notifier, notifier_taken]
    cases hp : prev_nats previous.notifiers n with
    | none => exact handed_self _
    | some p =>
      exact handed_restored_url (fun x hx => sends_of_notifier (prev_nats_mem hp) hx)
  | Rabbitmq n =>
    simp only [restore_notifier, notifier_taken]
    cases hp : prev_rabbitmq previous.notifiers n with
    | none => exact handed_self _
    | some p =>
      exact handed_restored_url (fun x hx => sends_of_notifier (prev_rabbitmq_mem hp) hx)

/-- Every credential of the restored document was submitted in its entry, or is sent to the same
place by the live configuration. -/
structure StaysHome (previous next : Config) : Prop where
  sources : ∀ (i : Nat) (s s' : SourceConfig), next.sources[i]? = some s →
    (restore_redacted_secrets previous next).sources[i]? = some s' →
    ∀ x ∈ source_sends s', Submitted (source_sends s) x ∨ x ∈ sends previous
  notifiers : ∀ (i : Nat) (n n' : NotifierConfig), next.notifiers[i]? = some n →
    (restore_redacted_secrets previous next).notifiers[i]? = some n' →
    ∀ x ∈ notifier_sends n', Submitted (notifier_sends n) x ∨ x ∈ sends previous

/-- Exactly when restoring hands no credential to a new place: what the open fields of an entry
take from the live entry it is matched to is sent by the live configuration to where the submitted
entry sends it. -/
theorem credentials_stay_home_iff (previous next : Config) :
    StaysHome previous next ↔
      (∀ s ∈ next.sources, ∀ x ∈ source_taken previous.sources s,
        Submitted (source_sends s) x ∨ x ∈ sends previous) ∧
      ∀ n ∈ next.notifiers, ∀ x ∈ notifier_taken previous.notifiers n,
        Submitted (notifier_sends n) x ∨ x ∈ sends previous := by
  constructor
  · intro h
    constructor
    · intro s hs
      obtain ⟨i, hi⟩ := List.getElem?_of_mem hs
      refine (handed_source previous s).home_iff.mp (h.sources i s _ hi ?_)
      simp only [restore_redacted_secrets, List.getElem?_map, hi, Option.map_some]
    · intro n hn
      obtain ⟨i, hi⟩ := List.getElem?_of_mem hn
      refine (handed_notifier previous n).home_iff.mp (h.notifiers i n _ hi ?_)
      simp only [restore_redacted_secrets, List.getElem?_map, hi, Option.map_some]
  · rintro ⟨hsources, hnotifiers⟩
    constructor
    · intro i s s' hi hi'
      simp only [restore_redacted_secrets, List.getElem?_map, hi, Option.map_some,
        Option.some.injEq] at hi'
      subst hi'
      exact (handed_source previous s).home_iff.mpr (hsources s (List.mem_of_getElem? hi))
    · intro i n n' hi hi'
      simp only [restore_redacted_secrets, List.getElem?_map, hi, Option.map_some,
        Option.some.injEq] at hi'
      subst hi'
      exact (handed_notifier previous n).home_iff.mpr (hnotifiers n (List.mem_of_getElem? hi))

/-! ## Which kinds are safe -/

/-- A GitLab project on a host. -/
def project (host token : String) : SourceConfig :=
  .Gitlab { project := "g/p", host := some host, token := some token }

/-- The key of a GitLab project does not say on which host it is. -/
theorem a_token_goes_to_another_host :
    ¬ StaysHome { sources := [project "https://gitlab.corp" "glpat"] }
      { sources := [project "https://elsewhere" "<redacted>"] } := by
  intro h
  have hsent := h.sources 0 _ (project "https://elsewhere" "glpat") rfl (by decide +kernel)
    (.Url "https://elsewhere", ⟨["token"], "glpat"⟩) (by decide +kernel)
  rcases hsent with ⟨y, hy, he⟩ | hlive
  · have hnone : source_sends (project "https://elsewhere" "<redacted>") = [] := by
      decide +kernel
    rw [hnone] at hy
    simp at hy
  · revert hlive
    decide +kernel

end xrelease.destinations
