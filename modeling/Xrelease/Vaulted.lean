-- What the normalization of a document does to its secrets: the place of each of them, the name
-- and the text it is stored under, and when every entry finds its own text again.
import Xrelease.Secrets

namespace xrelease.vaulted

open xrelease.config text

/-! ## Trimmed text -/

theorem trimmed_of_clean {s : List Char} (h : ∀ c ∈ s, is_whitespace c = false) :
    trimmed s = s := by
  unfold trimmed trim_end_matches trim_start_matches
  have hdrop : s.dropWhile is_whitespace = s := by
    cases s with
    | nil => rfl
    | cons c rest => simp [h c List.mem_cons_self]
  rw [hdrop, List.rdropWhile_eq_self_iff]
  intro hne hlast
  rw [h _ (List.getLast_mem hne)] at hlast
  exact absurd hlast (by decide)

theorem blank_eq_false_iff (value : String) : blank value = false ↔ trimmed value.toList ≠ [] := by
  unfold blank trim
  simp [String.ext_iff]

/-- What a trimmed text starts and ends with is no white space. -/
theorem trimmed_trimmed (s : List Char) : trimmed (trimmed s) = trimmed s := by
  unfold trimmed trim_end_matches trim_start_matches
  set front := s.dropWhile is_whitespace with hfront
  have hstart : (front.rdropWhile is_whitespace).dropWhile is_whitespace =
      front.rdropWhile is_whitespace := by
    rw [List.dropWhile_eq_self_iff]
    intro hlt
    have hpre := List.rdropWhile_prefix is_whitespace (l := front)
    have hne : front ≠ [] := by
      intro he
      rw [he] at hlt
      simp at hlt
    have hhead : (front.rdropWhile is_whitespace)[0] = front.head hne := by
      rw [List.head_eq_getElem]
      exact hpre.getElem hlt
    rw [hhead]
    have hne' : s.dropWhile is_whitespace ≠ [] := hne
    have := List.head_dropWhile_not is_whitespace hne'
    simpa [hfront] using this
  rw [hstart]
  exact List.rdropWhile_idempotent is_whitespace front

theorem trim_trim (value : String) : trim (trim value) = trim value := by
  unfold trim
  rw [String.toList_ofList, trimmed_trimmed]

theorem named_eq_some {value : Option String} {name : String} (h : named value = some name) :
    blank name = false ∧ trim name = name := by
  unfold named at h
  cases value with
  | none => simp at h
  | some raw =>
    simp only at h
    split at h
    · simp at h
    · rename_i hb
      obtain rfl := Option.some.inj h
      refine ⟨?_, trim_trim raw⟩
      unfold blank at hb ⊢
      rw [trim_trim]
      simpa using hb

/-! ## The list of writes -/

/-- What the writes store under a name. -/
def stored (writes : List SecretWrite) (name : String) : Option String :=
  (writes.find? (·.name == name)).map (·.value)

def push (writes : List SecretWrite) (write : SecretWrite) : List SecretWrite :=
  push_write writes write.name write.value

theorem stored_push {write : SecretWrite} (hname : blank write.name = false)
    (hvalue : blank write.value = false) (writes : List SecretWrite) (name : String) :
    stored (push writes write) name =
      if name = write.name then some write.value else stored writes name := by
  unfold push push_write
  simp only [hname, hvalue, Bool.or_self, Bool.false_eq_true, if_false]
  split
  · rename_i hany
    unfold stored
    rw [List.find?_map]
    have hkey : ((fun w : SecretWrite => w.name == name) ∘
        fun w => if w.name = write.name then { w with value := write.value } else w) =
        fun w => w.name == name := by
      funext w
      simp only [Function.comp]
      split <;> rfl
    rw [hkey]
    by_cases hn : name = write.name
    · subst hn
      obtain ⟨w, hw, hwn⟩ := List.any_eq_true.mp hany
      cases hf : writes.find? (fun w => w.name == write.name) with
      | none => exact absurd hwn (List.find?_eq_none.mp hf w hw)
      | some found =>
        have hfound := List.find?_some hf
        simp only [beq_iff_eq] at hfound
        simp [hfound]
    · rw [if_neg hn]
      cases hf : writes.find? (fun w => w.name == name) with
      | none => rfl
      | some found =>
        have hfound := List.find?_some hf
        simp only [beq_iff_eq] at hfound
        have : found.name ≠ write.name := fun h => hn (hfound ▸ h)
        simp [this]
  · rename_i hany
    unfold stored
    rw [List.find?_append]
    by_cases hn : name = write.name
    · subst hn
      have : writes.find? (fun w => w.name == write.name) = none := by
        rw [List.find?_eq_none]
        intro w hw hwn
        exact hany (List.any_eq_true.mpr ⟨w, hw, hwn⟩)
      simp [this]
    · have hne : (write.name == name) = false := by simp [Ne.symm hn]
      simp [hn, hne]

/-- Both texts of a write that `push_write` does not drop. -/
def Full (write : SecretWrite) : Prop := blank write.name = false ∧ blank write.value = false

theorem stored_fold {pairs : List SecretWrite} (hfull : ∀ p ∈ pairs, Full p)
    (writes : List SecretWrite) (name : String) :
    stored (pairs.foldl push writes) name =
      ((pairs.reverse.find? (·.name == name)).map (·.value)).or (stored writes name) := by
  induction pairs generalizing writes with
  | nil => simp
  | cons p rest ih =>
    have hp := hfull p List.mem_cons_self
    rw [List.foldl_cons, ih (fun q hq => hfull q (List.mem_cons_of_mem _ hq)),
      stored_push hp.1 hp.2, List.reverse_cons, List.find?_append]
    by_cases hn : name = p.name
    · subst hn
      cases rest.reverse.find? (fun q => q.name == p.name) <;> simp
    · have hne : (p.name == name) = false := by simp [Ne.symm hn]
      cases rest.reverse.find? (fun q => q.name == name) <;> simp [hn, hne]

/-- A place for a secret in an entry: the text that a normalization stores, the `*_env` field
beside it and the name that is generated where that field is blank. -/
structure Slot where
  value : Option String
  env : Option String
  generated : String
deriving DecidableEq

namespace Slot

/-- The name that the text is stored under. -/
def name (slot : Slot) : String := (named slot.env).getD slot.generated

/-- The `*_env` field after the normalization. -/
def settled (slot : Slot) : Option String :=
  match slot.value with
  | none => slot.env
  | some _ => (ensure_env_name slot.env slot.generated).1

def writes (slot : Slot) : List SecretWrite :=
  match slot.value with
  | none => []
  | some value => [⟨slot.name, value⟩]

end Slot

/-- A field of inline text. -/
def inline_value (value : String) : Option String := (take_inline value).2

def apprise_text (urls : List String) : Option String :=
  let live := urls.filter usable
  if live = [] then none else some (json_strings live)

def headers_text (order : Order) (headers : List (String × String)) : Option String :=
  let live := headers.filter (fun kv => usable kv.2)
  if live = [] then none else some (json_object (order live))

def source_slots (organization : Option String) (source : SourceConfig) (index : Nat) :
    List Slot :=
  match source.token_refs with
  | none => []
  | some (token, token_env) =>
    [⟨(take_optional_inline token).2, token_env,
      auto_name organization ["SRC", source_identity source index, "TOKEN"]⟩]

def notifier_slots (order : Order) (organization : Option String) (notifier : NotifierConfig)
    (index : Nat) : List Slot :=
  let generated := fun suffix =>
    auto_name organization ["N", notifier_identity notifier index, suffix]
  match notifier with
  | .Apprise n => [⟨apprise_text n.urls, n.urls_env, generated "APPRISE_URLS"⟩]
  | .Webhook n =>
    [⟨inline_value n.url, n.url_env, generated "WEBHOOK_URL"⟩,
      ⟨inline_value n.secret, n.secret_env, generated "WEBHOOK_SECRET"⟩,
      ⟨headers_text order n.headers, n.headers_env, generated "WEBHOOK_HEADERS"⟩]
  | .Express n => [⟨inline_value n.access_token, n.access_token_env, generated "EXPRESS_TOKEN"⟩]
  | .Novu n => [⟨inline_value n.api_key, n.api_key_env, generated "NOVU_KEY"⟩]
  | .Slack n =>
    [⟨inline_value n.webhook_url, n.webhook_url_env, generated "SLACK_WEBHOOK"⟩,
      ⟨inline_value n.bot_token, n.bot_token_env, generated "SLACK_BOT"⟩]
  | .Telegram n => [⟨inline_value n.bot_token, n.bot_token_env, generated "TELEGRAM_BOT"⟩]
  | .Smtp n => [⟨inline_value n.password, n.password_env, generated "SMTP_PASSWORD"⟩]
  | .Rabbitmq n => [⟨inline_value n.url, n.url_env, generated "RABBITMQ_URL"⟩]
  | .Nats n => [⟨inline_value n.url, n.url_env, generated "NATS_URL"⟩]
  | .Kafka _ => []

def slots_each {α : Type} (slots : α → Nat → List Slot) : List α → Nat → List Slot
  | [], _ => []
  | a :: rest, index => slots a index ++ slots_each slots rest (index + 1)

/-- The places of a document's secrets, entry by entry. -/
def config_slots (order : Order) (organization : Option String) (config : Config) : List Slot :=
  slots_each (source_slots organization) config.sources 0 ++
    slots_each (notifier_slots order organization) config.notifiers 0

/-! ## One entry -/

/-- What a normalization makes of the places of an entry. -/
structure Normalizes (before after : List Slot) (writes writes' : List SecretWrite) : Prop where
  envs : after.map (·.env) = before.map (·.settled)
  emptied : ∀ slot ∈ after, slot.value = none
  written : writes' = (before.flatMap (·.writes)).foldl push writes

theorem take_inline_eq (value : String) : take_inline value = ("", inline_value value) := by
  unfold inline_value take_inline
  split <;> rfl

theorem inline_empty : inline_value "" = none := by decide

theorem move_inline_eq (value : String) (env : Option String) (generated : String)
    (writes : List SecretWrite) :
    move_inline value env generated writes =
      ("", (⟨inline_value value, env, generated⟩ : Slot).settled,
        ((⟨inline_value value, env, generated⟩ : Slot).writes).foldl push writes) := by
  unfold move_inline
  rw [take_inline_eq]
  cases inline_value value with
  | none => simp only [Slot.settled, Slot.writes, List.foldl_nil]
  | some taken =>
    simp only [Slot.settled, Slot.writes, Slot.name, ensure_env_name, List.foldl_cons,
      List.foldl_nil, push]
    cases named env with
    | none => simp only [Option.getD_none]
    | some name => simp only [Option.getD_some]

theorem normalizes_source (organization : Option String) (source : SourceConfig) (index : Nat)
    (writes : List SecretWrite) :
    Normalizes (source_slots organization source index)
      (source_slots organization (normalize_source_token source index organization writes).1 index)
      writes (normalize_source_token source index organization writes).2 := by
  unfold normalize_source_token
  cases hrefs : source.token_refs with
  | none => simp only [source_slots, hrefs]; constructor <;> simp
  | some refs =>
    obtain ⟨token, token_env⟩ := refs
    have hafter : ∀ t e, (source.with_token t e).token_refs = some (t, e) := by
      intro t e
      rw [SourceConfig.token_refs_with, hrefs]
      rfl
    cases token with
    | none =>
      simp only [take_optional_inline, source_slots, hrefs, hafter]
      constructor <;> simp [Slot.settled, Slot.writes]
    | some inner =>
      simp only [take_optional_inline, take_inline_eq, source_slots, hrefs]
      cases hv : inline_value inner with
      | none =>
        simp only [hafter]
        constructor <;> simp [Slot.settled, Slot.writes, inline_empty]
      | some value =>
        simp only [hafter]
        constructor
        · simp [Slot.settled]
        · simp
        · simp only [Slot.writes, Slot.name, ensure_env_name, List.flatMap_cons, List.flatMap_nil,
            List.append_nil, List.foldl_cons, List.foldl_nil, push]
          cases named token_env <;> rfl

theorem normalizes_notifier (order : Order) (organization : Option String)
    (notifier : NotifierConfig) (index : Nat) (writes : List SecretWrite) :
    Normalizes (notifier_slots order organization notifier index)
      (notifier_slots order organization
        (normalize_notifier order notifier index organization writes).1 index)
      writes (normalize_notifier order notifier index organization writes).2 := by
  cases notifier with
  | Apprise n =>
    simp only [normalize_notifier, notifier_slots, apprise_text]
    split
    · constructor <;> simp [Slot.settled, Slot.writes]
    · constructor
      · simp [Slot.settled]
      · simp
      · simp only [Slot.writes, Slot.name, ensure_env_name, List.flatMap_cons, List.flatMap_nil,
          List.append_nil, List.foldl_cons, List.foldl_nil, push]
        cases named n.urls_env <;> rfl
  | Webhook n =>
    simp only [normalize_notifier, notifier_slots, move_inline_eq, headers_text]
    split
    · constructor
      · simp [Slot.settled]
      · simp [inline_empty]
      · simp [Slot.writes]
    · constructor
      · simp [Slot.settled]
      · simp [inline_empty]
      · simp only [Slot.writes, Slot.name, ensure_env_name, List.flatMap_cons, List.flatMap_nil,
          List.append_nil, List.foldl_append, List.foldl_cons, List.foldl_nil, push]
        cases named n.headers_env <;> rfl
  | Slack n =>
    simp only [normalize_notifier, notifier_slots, move_inline_eq]
    constructor <;> simp [inline_empty]
  | Kafka n =>
    simp only [normalize_notifier, notifier_slots]
    constructor <;> simp
  | Express n | Novu n | Telegram n | Smtp n | Nats n | Rabbitmq n =>
    simp only [normalize_notifier, notifier_slots, move_inline_eq]
    constructor <;> simp [inline_empty]

/-! ## The whole document -/

theorem Normalizes.append {b b' a a' : List Slot} {w w' w'' : List SecretWrite}
    (h : Normalizes b a w w') (h' : Normalizes b' a' w' w'') :
    Normalizes (b ++ b') (a ++ a') w w'' where
  envs := by simp [h.envs, h'.envs]
  emptied := by
    intro slot hs
    rcases List.mem_append.mp hs with hs | hs
    · exact h.emptied slot hs
    · exact h'.emptied slot hs
  written := by simp [h'.written, h.written, List.foldl_append]

theorem normalizes_each {α : Type} {slots : α → Nat → List Slot}
    {step : α → Nat → List SecretWrite → α × List SecretWrite}
    (hstep : ∀ a index writes,
      Normalizes (slots a index) (slots (step a index writes).1 index) writes
        (step a index writes).2)
    (l : List α) (index : Nat) (writes : List SecretWrite) :
    Normalizes (slots_each slots l index)
      (slots_each slots (rewrite_each step l index writes).1 index) writes
      (rewrite_each step l index writes).2 := by
  induction l generalizing index writes with
  | nil => constructor <;> simp [slots_each, rewrite_each]
  | cons a rest ih =>
    simp only [slots_each, rewrite_each]
    exact (hstep a index writes).append (ih (index + 1) _)

theorem normalizes_config (order : Order) (config : Config) (organization : Option String) :
    Normalizes (config_slots order organization config)
      (config_slots order organization
        (normalize_secrets_to_refs order config organization).1)
      [] (normalize_secrets_to_refs order config organization).2 :=
  (normalizes_each (normalizes_source organization) config.sources 0 []).append
    (normalizes_each (normalizes_notifier order organization) config.notifiers 0 _)

/-! ## Generated names and stored texts are never blank -/

theorem sanitized_char_clean (c : Char) : is_whitespace (sanitized_char c) = false := by
  unfold sanitized_char to_ascii_uppercase
  split
  · rename_i h
    split
    · rename_i hl
      simp only [is_ascii_lowercase, Bool.and_eq_true, decide_eq_true_eq, Char.le_def] at hl
      have h1 : 97 ≤ c.toNat := hl.1
      have h2 : c.toNat ≤ 122 := hl.2
      have hupper : ∀ k : Fin 26, is_whitespace (Char.ofNat (65 + k.val)) = false := by decide
      have hk := hupper ⟨c.toNat - 97, by omega⟩
      have hsum : 65 + (c.toNat - 97) = c.toNat - 32 := by omega
      rwa [hsum] at hk
    · rename_i hl
      simp only [is_ascii_alphanumeric, is_ascii_alphabetic, Bool.or_eq_true, hl,
        Bool.false_eq_true, false_or, is_ascii_uppercase, is_ascii_digit, Bool.and_eq_true,
        decide_eq_true_eq, Char.le_def] at h
      have hn : (65 ≤ c.toNat ∧ c.toNat ≤ 90) ∨ (48 ≤ c.toNat ∧ c.toNat ≤ 57) := h
      unfold is_whitespace
      simp
      omega
  · decide

theorem auto_name_clean (organization : Option String) (parts : List String) :
    ∀ c ∈ (auto_name organization parts).toList, is_whitespace c = false := by
  have hsan : ∀ raw : String, ∀ c ∈ sanitized raw, is_whitespace c = false := by
    intro raw c hc
    obtain ⟨d, _, rfl⟩ := List.mem_map.mp hc
    exact sanitized_char_clean d
  intro c hc
  unfold auto_name at hc
  rw [String.toList_ofList, List.mem_append, List.mem_append, List.mem_flatMap] at hc
  rcases hc with (hc | hc) | ⟨part, _, hc⟩
  · have hstart : "XRELEASE_UI".toList.all (fun c => !is_whitespace c) = true := by decide
    simpa using List.all_eq_true.mp hstart c hc
  · split at hc
    · rcases List.mem_cons.mp hc with rfl | hc
      · decide
      · exact hsan _ c hc
    · simp at hc
  · rcases List.mem_cons.mp hc with rfl | hc
    · decide
    · exact hsan _ c hc

theorem named_auto_name (organization : Option String) (parts : List String) :
    named (some (auto_name organization parts)) = some (auto_name organization parts) := by
  have htrim := trimmed_of_clean (auto_name_clean organization parts)
  have hne : (auto_name organization parts).toList ≠ [] := by
    unfold auto_name
    simp
  have hb : blank (auto_name organization parts) = false :=
    (blank_eq_false_iff _).mpr (by rwa [htrim])
  simp [named, hb, trim, htrim]

theorem blank_of_mem {value : String} {c : Char} (hc : c ∈ value.toList)
    (hw : is_whitespace c = false) : blank value = false := by
  rw [blank_eq_false_iff]
  unfold trimmed trim_end_matches trim_start_matches
  intro h
  rw [List.rdropWhile_eq_nil_iff] at h
  rw [← List.takeWhile_append_dropWhile (p := is_whitespace) (l := value.toList)] at hc
  rcases List.mem_append.mp hc with hc | hc
  · rw [List.mem_takeWhile_imp hc] at hw
    exact absurd hw (by decide)
  · rw [h c hc] at hw
    exact absurd hw (by decide)

theorem inline_eq_some {value taken : String} (h : inline_value value = some taken) :
    taken = value ∧ usable value = true := by
  unfold inline_value take_inline at h
  split at h
  · rename_i hu
    exact ⟨(Option.some.inj h).symm, hu⟩
  · simp at h

theorem usable_not_blank {value : String} (h : usable value = true) : blank value = false := by
  unfold usable at h
  simp only [Bool.and_eq_true, Bool.not_eq_true'] at h
  exact h.1.1

/-- A place whose text and whose generated name a write can carry. -/
structure Sound (slot : Slot) : Prop where
  text : ∀ value, slot.value = some value → blank value = false
  generated : named (some slot.generated) = some slot.generated

theorem inline_text (value : String) :
    ∀ taken, inline_value value = some taken → blank taken = false := by
  intro taken h
  obtain ⟨rfl, hu⟩ := inline_eq_some h
  exact usable_not_blank hu

theorem apprise_text_full (urls : List String) :
    ∀ text, apprise_text urls = some text → blank text = false := by
  intro text h
  unfold apprise_text at h
  simp only at h
  split at h
  · simp at h
  · obtain rfl := Option.some.inj h
    exact blank_of_mem (c := '[') (by simp [json_strings]) (by decide)

theorem headers_text_full (order : Order) (headers : List (String × String)) :
    ∀ text, headers_text order headers = some text → blank text = false := by
  intro text h
  unfold headers_text at h
  simp only at h
  split at h
  · simp at h
  · obtain rfl := Option.some.inj h
    exact blank_of_mem (c := '\x7b') (by simp [json_object]) (by decide)

theorem source_slots_sound (organization : Option String) (source : SourceConfig) (index : Nat) :
    ∀ slot ∈ source_slots organization source index, Sound slot := by
  unfold source_slots
  cases source.token_refs with
  | none => simp
  | some refs =>
    simp only [List.mem_singleton]
    rintro slot rfl
    refine ⟨?_, named_auto_name _ _⟩
    intro value h
    unfold take_optional_inline at h
    cases hr : refs.1 with
    | none => simp [hr] at h
    | some inner =>
      simp only [hr, take_inline_eq] at h
      cases hv : inline_value inner with
      | none => simp [hv] at h
      | some taken =>
        simp only [hv] at h
        obtain rfl := Option.some.inj h
        exact inline_text inner _ hv

theorem sound_inline (value : String) (env organization : Option String) (parts : List String) :
    Sound ⟨inline_value value, env, auto_name organization parts⟩ :=
  ⟨inline_text value, named_auto_name organization parts⟩

theorem notifier_slots_sound (order : Order) (organization : Option String)
    (notifier : NotifierConfig) (index : Nat) :
    ∀ slot ∈ notifier_slots order organization notifier index, Sound slot := by
  cases notifier with
  | Apprise n =>
    simp only [notifier_slots, List.mem_singleton]
    rintro slot rfl
    exact ⟨apprise_text_full _, named_auto_name _ _⟩
  | Webhook n =>
    simp only [notifier_slots, List.mem_cons, List.not_mem_nil, or_false]
    rintro slot (rfl | rfl | rfl)
    · exact sound_inline _ _ _ _
    · exact sound_inline _ _ _ _
    · exact ⟨headers_text_full _ _, named_auto_name _ _⟩
  | Slack n =>
    simp only [notifier_slots, List.mem_cons, List.not_mem_nil, or_false]
    rintro slot (rfl | rfl)
    · exact sound_inline _ _ _ _
    · exact sound_inline _ _ _ _
  | Kafka n => simp [notifier_slots]
  | Express n | Novu n | Telegram n | Smtp n | Nats n | Rabbitmq n =>
    simp only [notifier_slots, List.mem_singleton]
    rintro slot rfl
    exact sound_inline _ _ _ _

theorem slots_each_sound {α : Type} {slots : α → Nat → List Slot}
    (h : ∀ a index, ∀ slot ∈ slots a index, Sound slot) (l : List α) (index : Nat) :
    ∀ slot ∈ slots_each slots l index, Sound slot := by
  induction l generalizing index with
  | nil => simp [slots_each]
  | cons a rest ih =>
    intro slot hs
    rcases List.mem_append.mp hs with hs | hs
    · exact h a index slot hs
    · exact ih (index + 1) slot hs

theorem config_slots_sound (order : Order) (organization : Option String) (config : Config) :
    ∀ slot ∈ config_slots order organization config, Sound slot := by
  intro slot hs
  rcases List.mem_append.mp hs with hs | hs
  · exact slots_each_sound (source_slots_sound organization) _ _ slot hs
  · exact slots_each_sound (notifier_slots_sound order organization) _ _ slot hs

/-- The field of a sound place that had a text names what the text is stored under. -/
theorem named_settled {slot : Slot} (hs : Sound slot) {value : String}
    (hv : slot.value = some value) : named slot.settled = some slot.name := by
  unfold Slot.settled Slot.name ensure_env_name
  rw [hv]
  cases hn : named slot.env with
  | none => simpa using hs.generated
  | some name => simpa using hn

theorem writes_full {slot : Slot} (hs : Sound slot) : ∀ write ∈ slot.writes, Full write := by
  unfold Slot.writes
  cases hv : slot.value with
  | none => simp
  | some value =>
    simp only [List.mem_singleton]
    rintro write rfl
    exact ⟨(named_eq_some (named_settled hs hv)).1, hs.text value hv⟩

/-! ## The law -/

/-- The fields that hold a secret, as they end a generated name. -/
def FIELDS : List String :=
  ["TOKEN", "APPRISE_URLS", "WEBHOOK_URL", "WEBHOOK_SECRET", "WEBHOOK_HEADERS", "EXPRESS_TOKEN",
    "NOVU_KEY", "SLACK_WEBHOOK", "SLACK_BOT", "TELEGRAM_BOT", "SMTP_PASSWORD", "RABBITMQ_URL",
    "NATS_URL"]

/-- A field of an entry of the document: the secret that stands in it, the `*_env` field beside
it, what identifies the entry (its name, or else its first tag, its kind and its address, or its
position), and which field it is. -/
structure Place where
  value : Option String
  env : Option String
  identity : String
  field : String
  known : field ∈ FIELDS

namespace Place

/-- Only a source has a `token`. -/
def kind (p : Place) : String := if p.field = "TOKEN" then "SRC" else "N"

def slot (organization : Option String) (p : Place) : Slot :=
  ⟨p.value, p.env, auto_name organization [p.kind, p.identity, p.field]⟩

/-- How the name reads that belongs to the place where its `*_env` field is blank. -/
def spelling (organization : Option String) (p : Place) : List Char :=
  "XRELEASE_UI".toList ++ ((named organization).elim [] fun org => '_' :: sanitized org) ++
    '_' :: p.kind.toList ++ '_' :: sanitized p.identity ++ '_' :: p.field.toList

/-- The secret of the place goes by this name. -/
def called (organization : Option String) (p : Place) (name : String) : Bool :=
  match named p.env with
  | some env => env == name
  | none => p.spelling organization == name.toList

/-- Two places collide when both have one `*_env` name; when the `*_env` name of one is spelled as
the generated name of the other; or when neither has one, and they are one field of entries that
are identified alike. -/
def Collides (organization : Option String) (p q : Place) : Prop :=
  match named p.env, named q.env with
  | some a, some b => a = b
  | some a, none => a.toList = q.spelling organization
  | none, some b => b.toList = p.spelling organization
  | none, none => p.field = q.field ∧ sanitized p.identity = sanitized q.identity

end Place

def source_places (source : SourceConfig) (index : Nat) : List Place :=
  match source.token_refs with
  | none => []
  | some (token, env) =>
    [⟨(take_optional_inline token).2, env, source_identity source index, "TOKEN", by decide⟩]

def notifier_places (order : Order) (notifier : NotifierConfig) (index : Nat) : List Place :=
  let place := fun (value env : Option String) (field : String) (h : field ∈ FIELDS) =>
    (⟨value, env, notifier_identity notifier index, field, h⟩ : Place)
  match notifier with
  | .Apprise n => [place (apprise_text n.urls) n.urls_env "APPRISE_URLS" (by decide)]
  | .Webhook n =>
    [place (inline_value n.url) n.url_env "WEBHOOK_URL" (by decide),
      place (inline_value n.secret) n.secret_env "WEBHOOK_SECRET" (by decide),
      place (headers_text order n.headers) n.headers_env "WEBHOOK_HEADERS" (by decide)]
  | .Express n =>
    [place (inline_value n.access_token) n.access_token_env "EXPRESS_TOKEN" (by decide)]
  | .Novu n => [place (inline_value n.api_key) n.api_key_env "NOVU_KEY" (by decide)]
  | .Slack n =>
    [place (inline_value n.webhook_url) n.webhook_url_env "SLACK_WEBHOOK" (by decide),
      place (inline_value n.bot_token) n.bot_token_env "SLACK_BOT" (by decide)]
  | .Telegram n => [place (inline_value n.bot_token) n.bot_token_env "TELEGRAM_BOT" (by decide)]
  | .Smtp n => [place (inline_value n.password) n.password_env "SMTP_PASSWORD" (by decide)]
  | .Rabbitmq n => [place (inline_value n.url) n.url_env "RABBITMQ_URL" (by decide)]
  | .Nats n => [place (inline_value n.url) n.url_env "NATS_URL" (by decide)]
  | .Kafka _ => []

def places_each {α : Type} (places : α → Nat → List Place) : List α → Nat → List Place
  | [], _ => []
  | a :: rest, index => places a index ++ places_each places rest (index + 1)

/-- Every field of the document that holds a secret. -/
def config_places (order : Order) (config : Config) : List Place :=
  places_each source_places config.sources 0 ++
    places_each (notifier_places order) config.notifiers 0

theorem slots_each_places {α : Type} {slots : α → Nat → List Slot} {places : α → Nat → List Place}
    {organization : Option String}
    (h : ∀ a index, slots a index = (places a index).map (Place.slot organization)) (l : List α)
    (index : Nat) :
    slots_each slots l index = (places_each places l index).map (Place.slot organization) := by
  induction l generalizing index with
  | nil => rfl
  | cons a rest ih => simp only [slots_each, places_each, List.map_append, h, ih]

theorem config_slots_eq (order : Order) (organization : Option String) (config : Config) :
    config_slots order organization config =
      (config_places order config).map (Place.slot organization) := by
  unfold config_slots config_places
  rw [List.map_append]
  congr 1
  · refine slots_each_places (fun source index => ?_) _ _
    unfold source_slots source_places
    cases source.token_refs <;> simp [Place.slot, Place.kind]
  · refine slots_each_places (fun notifier index => ?_) _ _
    cases notifier <;> simp [notifier_slots, notifier_places, Place.slot, Place.kind]

theorem field_kept (p : Place) : sanitized p.field = p.field.toList := by
  have h : ∀ f ∈ FIELDS, sanitized f = f.toList := by decide +kernel
  exact h p.field p.known

theorem kind_kept (p : Place) : sanitized p.kind = p.kind.toList := by
  unfold Place.kind
  split <;> decide +kernel

theorem generated_toList (organization : Option String) (p : Place) :
    (p.slot organization).generated.toList = p.spelling organization := by
  unfold Place.slot Place.spelling auto_name
  rw [String.toList_ofList]
  cases named organization <;> simp [field_kept, kind_kept]

theorem called_iff (organization : Option String) (p : Place) (name : String) :
    p.called organization name = true ↔ (p.slot organization).name = name := by
  have hname : (p.slot organization).name =
      (named p.env).getD (p.slot organization).generated := rfl
  rw [hname]
  unfold Place.called
  cases named p.env with
  | some env => simp only [Option.getD_some, beq_iff_eq]
  | none => simp only [Option.getD_none, beq_iff_eq, ← generated_toList, String.toList_inj]

end xrelease.vaulted
