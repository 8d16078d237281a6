-- The text that the revision ledger keeps of a document: no inline secret is left in it, and two
-- documents that differ in their secrets only have one text, except where the name generated for
-- a webhook is taken from its secret URL.
import Xrelease.Format
import Xrelease.Vaulted

namespace xrelease.bodies

open xrelease.config xrelease.vaulted text

/-! ## Nothing inline -/

def SourceEmptied (source : SourceConfig) : Prop :=
  ∀ token token_env, source.token_refs = some (token, token_env) → token = none ∨ token = some ""

def NotifierEmptied : NotifierConfig → Prop
  | .Apprise n => n.urls = []
  | .Webhook n => n.url = "" ∧ n.secret = "" ∧ n.headers = []
  | .Express n => n.access_token = ""
  | .Novu n => n.api_key = ""
  | .Slack n => n.webhook_url = "" ∧ n.bot_token = ""
  | .Telegram n => n.bot_token = ""
  | .Smtp n => n.password = ""
  | .Nats n => n.url = ""
  | .Rabbitmq n => n.url = ""
  | .Kafka _ => True

/-- No field of the document holds an inline secret. -/
structure Emptied (config : Config) : Prop where
  sources : ∀ source ∈ config.sources, SourceEmptied source
  notifiers : ∀ notifier ∈ config.notifiers, NotifierEmptied notifier

theorem take_optional_inline_left (token : Option String) :
    (take_optional_inline token).1 = none ∨ (take_optional_inline token).1 = some "" := by
  cases token with
  | none => exact Or.inl rfl
  | some inner =>
    simp only [take_optional_inline, take_inline_eq]
    cases inline_value inner <;> simp

/-- The field after the normalization. -/
theorem normalize_source_eq (source : SourceConfig) (index : Nat) (organization : Option String)
    (writes : List SecretWrite) {token token_env : Option String}
    (h : source.token_refs = some (token, token_env)) :
    (normalize_source_token source index organization writes).1 =
      source.with_token (take_optional_inline token).1
        (⟨(take_optional_inline token).2, token_env,
          auto_name organization ["SRC", source_identity source index, "TOKEN"]⟩ : Slot).settled := by
  unfold normalize_source_token
  simp only [h]
  rcases hv : take_optional_inline token with ⟨left, _ | value⟩ <;> rfl

theorem normalize_source_none {source : SourceConfig} (h : source.token_refs = none) (index : Nat)
    (organization : Option String) (writes : List SecretWrite) :
    normalize_source_token source index organization writes = (source, writes) := by
  unfold normalize_source_token
  simp only [h]

theorem source_emptied (source : SourceConfig) (index : Nat) (organization : Option String)
    (writes : List SecretWrite) :
    SourceEmptied (normalize_source_token source index organization writes).1 := by
  intro token token_env h
  cases hr : source.token_refs with
  | none =>
    rw [normalize_source_none hr] at h
    simp [hr] at h
  | some refs =>
    rw [normalize_source_eq source index organization writes hr, SourceConfig.token_refs_with,
      hr] at h
    simp only [Option.map_some, Option.some.injEq, Prod.mk.injEq] at h
    rw [← h.1]
    exact take_optional_inline_left _

theorem notifier_emptied (order : Order) (notifier : NotifierConfig) (index : Nat)
    (organization : Option String) (writes : List SecretWrite) :
    NotifierEmptied (normalize_notifier order notifier index organization writes).1 := by
  cases notifier <;> simp only [normalize_notifier, move_inline_eq]
  case Apprise n => split <;> rfl
  case Webhook n => split <;> exact ⟨rfl, rfl, rfl⟩
  case Slack n => exact ⟨rfl, rfl⟩
  case Kafka n => trivial
  all_goals rfl

theorem rewrite_each_forall {α : Type} {P : α → Prop}
    {step : α → Nat → List SecretWrite → α × List SecretWrite}
    (hstep : ∀ a index writes, P (step a index writes).1)
    (l : List α) (index : Nat) (writes : List SecretWrite) :
    ∀ a ∈ (rewrite_each step l index writes).1, P a := by
  induction l generalizing index writes with
  | nil => simp [rewrite_each]
  | cons b rest ih =>
    intro a ha
    rcases List.mem_cons.mp ha with rfl | ha
    · exact hstep b index writes
    · exact ih (index + 1) _ a ha

theorem normalized_emptied (order : Order) (config : Config) (organization : Option String) :
    Emptied (normalize_secrets_to_refs order config organization).1 where
  sources := rewrite_each_forall (fun s i ws => source_emptied s i organization ws) _ _ _
  notifiers := rewrite_each_forall (fun n i ws => notifier_emptied order n i organization ws) _ _ _

/-! ## Documents that differ in their secrets only -/

/-- What is left to see of a secret: whether there is one. -/
def mask (value : String) : String := if usable value then "set" else ""

theorem usable_mask (value : String) : usable (mask value) = usable value := by
  unfold mask
  split
  · rename_i h
    rw [h]
    decide
  · rename_i h
    rw [Bool.not_eq_true] at h
    rw [h]
    decide

def source_shape (source : SourceConfig) : SourceConfig :=
  match source.token_refs with
  | none => source
  | some (token, token_env) => source.with_token (token.map mask) token_env

def notifier_shape : NotifierConfig → NotifierConfig
  | .Apprise n => .Apprise { n with urls := n.urls.map mask }
  | .Webhook n =>
    .Webhook { n with
      url := mask n.url
      secret := mask n.secret
      headers := n.headers.map (fun kv => (kv.1, mask kv.2)) }
  | .Express n => .Express { n with access_token := mask n.access_token }
  | .Novu n => .Novu { n with api_key := mask n.api_key }
  | .Slack n => .Slack { n with webhook_url := mask n.webhook_url, bot_token := mask n.bot_token }
  | .Telegram n => .Telegram { n with bot_token := mask n.bot_token }
  | .Smtp n => .Smtp { n with password := mask n.password }
  | .Nats n => .Nats { n with url := mask n.url }
  | .Rabbitmq n => .Rabbitmq { n with url := mask n.url }
  | .Kafka n => .Kafka n

def shape (config : Config) : Config :=
  { config with
    sources := config.sources.map source_shape
    notifiers := config.notifiers.map notifier_shape }

/-- The same entries with the same fields present; only the values of inline secrets differ. -/
def SameButSecrets (c d : Config) : Prop := shape c = shape d

/-! ## What a normalization makes of the shape -/

theorem inline_isSome_mask (value : String) :
    (inline_value (mask value)).isSome = (inline_value value).isSome := by
  unfold inline_value take_inline
  rw [usable_mask]
  cases usable value
  · simp
  · simp

/-- The `*_env` field afterwards depends on the secret through its presence only. -/
theorem settled_eq {v w : Option String} (h : v.isSome = w.isSome) (env : Option String)
    (generated : String) :
    (⟨v, env, generated⟩ : Slot).settled = (⟨w, env, generated⟩ : Slot).settled := by
  unfold Slot.settled
  cases v <;> cases w <;> simp at h <;> rfl

theorem take_optional_inline_mask (token : Option String) :
    (take_optional_inline (token.map mask)).1 = (take_optional_inline token).1 ∧
      (take_optional_inline (token.map mask)).2.isSome = (take_optional_inline token).2.isSome := by
  cases token with
  | none => exact ⟨rfl, rfl⟩
  | some inner =>
    have h := inline_isSome_mask inner
    simp only [Option.map_some, take_optional_inline, take_inline_eq]
    revert h
    cases inline_value (mask inner) <;> cases inline_value inner <;> simp

theorem source_identity_shape (source : SourceConfig) (index : Nat) :
    source_identity (source_shape source) index = source_identity source index := by
  cases source <;> rfl

theorem normalize_source_shape (source : SourceConfig) (index : Nat)
    (organization : Option String) (writes writes' : List SecretWrite) :
    (normalize_source_token (source_shape source) index organization writes').1 =
      (normalize_source_token source index organization writes).1 := by
  cases hr : source.token_refs with
  | none =>
    have : source_shape source = source := by simp [source_shape, hr]
    rw [this, normalize_source_none hr, normalize_source_none hr]
  | some refs =>
    obtain ⟨token, token_env⟩ := refs
    have hs : source_shape source = source.with_token (token.map mask) token_env := by
      simp [source_shape, hr]
    have hr' : (source_shape source).token_refs = some (token.map mask, token_env) := by
      rw [hs, SourceConfig.token_refs_with, hr]
      rfl
    have hm := take_optional_inline_mask token
    rw [normalize_source_eq _ index organization writes' hr',
      normalize_source_eq _ index organization writes hr, source_identity_shape, hm.1,
      settled_eq hm.2, hs, SourceConfig.with_token_with]

theorem apprise_text_mask (urls : List String) :
    (apprise_text (urls.map mask)).isSome = (apprise_text urls).isSome := by
  have h : (urls.map mask).filter usable = [] ↔ urls.filter usable = [] := by
    simp [List.filter_eq_nil_iff, usable_mask]
  unfold apprise_text
  simp only
  by_cases hl : urls.filter usable = []
  · rw [if_pos hl, if_pos (h.mpr hl)]
  · rw [if_neg hl, if_neg (fun hm => hl (h.mp hm))]
    rfl

theorem headers_text_mask (order : Order) (headers : List (String × String)) :
    (headers_text order (headers.map (fun kv => (kv.1, mask kv.2)))).isSome =
      (headers_text order headers).isSome := by
  have h : (headers.map (fun kv => (kv.1, mask kv.2))).filter (fun kv => usable kv.2) = [] ↔
      headers.filter (fun kv => usable kv.2) = [] := by
    simp only [List.filter_eq_nil_iff, List.forall_mem_map, usable_mask]
  unfold headers_text
  simp only
  by_cases hl : headers.filter (fun kv => usable kv.2) = []
  · rw [if_pos hl, if_pos (h.mpr hl)]
  · rw [if_neg hl, if_neg (fun hm => hl (h.mp hm))]
    rfl

theorem normalize_apprise_eq (order : Order) (n : AppriseConfig) (index : Nat)
    (organization : Option String) (writes : List SecretWrite) :
    (normalize_notifier order (.Apprise n) index organization writes).1 =
      .Apprise { n with
        urls := []
        urls_env := (⟨apprise_text n.urls, n.urls_env, auto_name organization
          ["N", notifier_identity (.Apprise n) index, "APPRISE_URLS"]⟩ : Slot).settled } := by
  simp only [normalize_notifier, apprise_text]
  split <;> rfl

/-- A webhook after the normalization, for an identity. -/
def webhook_refs (order : Order) (organization : Option String) (identity : String)
    (n : WebhookCfg) : WebhookCfg :=
  let generated := fun suffix => auto_name organization ["N", identity, suffix]
  { n with
    url := ""
    url_env := (⟨inline_value n.url, n.url_env, generated "WEBHOOK_URL"⟩ : Slot).settled
    secret := ""
    secret_env :=
      (⟨inline_value n.secret, n.secret_env, generated "WEBHOOK_SECRET"⟩ : Slot).settled
    headers := []
    headers_env :=
      (⟨headers_text order n.headers, n.headers_env, generated "WEBHOOK_HEADERS"⟩ : Slot).settled }

theorem normalize_webhook_eq (order : Order) (n : WebhookCfg) (index : Nat)
    (organization : Option String) (writes : List SecretWrite) :
    (normalize_notifier order (.Webhook n) index organization writes).1 =
      .Webhook (webhook_refs order organization (notifier_identity (.Webhook n) index) n) := by
  simp only [normalize_notifier, move_inline_eq, webhook_refs, headers_text]
  split <;> rfl

theorem webhook_refs_shape (order : Order) (organization : Option String) (identity : String)
    {n m : WebhookCfg} (h : notifier_shape (.Webhook n) = notifier_shape (.Webhook m)) :
    webhook_refs order organization identity n = webhook_refs order organization identity m := by
  simp only [notifier_shape, NotifierConfig.Webhook.injEq, WebhookCfg.mk.injEq] at h
  obtain ⟨h1, h2, h3, h4, h5, h6, h7, h8, h9, h10, h11, h12⟩ := h
  have hurl : (inline_value n.url).isSome = (inline_value m.url).isSome := by
    rw [← inline_isSome_mask n.url, h3, inline_isSome_mask]
  have hsecret : (inline_value n.secret).isSome = (inline_value m.secret).isSome := by
    rw [← inline_isSome_mask n.secret, h10, inline_isSome_mask]
  have hheaders : (headers_text order n.headers).isSome = (headers_text order m.headers).isSome := by
    rw [← headers_text_mask order n.headers, h6, headers_text_mask]
  unfold webhook_refs
  simp only [h1, h2, h4, h5, h7, h8, h9, h11, h12, settled_eq hurl, settled_eq hsecret,
    settled_eq hheaders]

/-- Only a webhook is identified by a secret. -/
theorem notifier_identity_shape (notifier : NotifierConfig) (index : Nat)
    (hw : ∀ n, notifier ≠ .Webhook n) :
    notifier_identity (notifier_shape notifier) index = notifier_identity notifier index := by
  cases notifier with
  | Webhook n => exact absurd rfl (hw n)
  | _ n =>
    simp only [notifier_shape, notifier_identity, notifier_label, notifier_stable_tip,
      notifier_kind_slug, NotifierConfig.routing_tags]

theorem normalize_notifier_shape (order : Order) (notifier : NotifierConfig) (index : Nat)
    (organization : Option String) (writes writes' : List SecretWrite)
    (hw : ∀ n, notifier ≠ .Webhook n) :
    (normalize_notifier order (notifier_shape notifier) index organization writes').1 =
      (normalize_notifier order notifier index organization writes).1 := by
  have hid := notifier_identity_shape notifier index hw
  cases notifier with
  | Webhook n => exact absurd rfl (hw n)
  | Apprise n =>
    simp only [notifier_shape] at hid
    simp only [notifier_shape, normalize_apprise_eq, settled_eq (apprise_text_mask n.urls), hid]
  | Kafka n => rfl
  | Slack n =>
    simp only [notifier_shape] at hid
    simp only [notifier_shape, normalize_notifier, move_inline_eq,
      settled_eq (inline_isSome_mask n.webhook_url), settled_eq (inline_isSome_mask n.bot_token),
      hid]
  | Express n =>
    simp only [notifier_shape] at hid
    simp only [notifier_shape, normalize_notifier, move_inline_eq,
      settled_eq (inline_isSome_mask n.access_token), hid]
  | Novu n =>
    simp only [notifier_shape] at hid
    simp only [notifier_shape, normalize_notifier, move_inline_eq,
      settled_eq (inline_isSome_mask n.api_key), hid]
  | Telegram n =>
    simp only [notifier_shape] at hid
    simp only [notifier_shape, normalize_notifier, move_inline_eq,
      settled_eq (inline_isSome_mask n.bot_token), hid]
  | Smtp n =>
    simp only [notifier_shape] at hid
    simp only [notifier_shape, normalize_notifier, move_inline_eq,
      settled_eq (inline_isSome_mask n.password), hid]
  | Nats n | Rabbitmq n =>
    simp only [notifier_shape] at hid
    simp only [notifier_shape, normalize_notifier, move_inline_eq,
      settled_eq (inline_isSome_mask n.url), hid]

/-! ## Names made of a URL -/

theorem sanitized_char_twice (c : Char) : sanitized_char (sanitized_char c) = sanitized_char c := by
  have hupper : ∀ k : Fin 26,
      sanitized_char (Char.ofNat (65 + k.val)) = Char.ofNat (65 + k.val) := by decide
  by_cases ha : is_ascii_alphanumeric c = true
  · by_cases hl : is_ascii_lowercase c = true
    · have hc : sanitized_char c = Char.ofNat (c.toNat - 32) := by
        simp [sanitized_char, ha, to_ascii_uppercase, hl]
      simp only [is_ascii_lowercase, Bool.and_eq_true, decide_eq_true_eq, Char.le_def] at hl
      have h1 : 97 ≤ c.toNat := hl.1
      have h2 : c.toNat ≤ 122 := hl.2
      have hk := hupper ⟨c.toNat - 97, by omega⟩
      have hsum : 65 + (c.toNat - 97) = c.toNat - 32 := by omega
      rw [hsum] at hk
      rwa [hc]
    · have hc : sanitized_char c = c := by simp [sanitized_char, ha, to_ascii_uppercase, hl]
      rw [hc, hc]
  · have hc : sanitized_char c = '_' := by simp [sanitized_char, ha]
    rw [hc]
    decide

theorem mem_squeeze {c : Char} {s : List Char} (h : c ∈ squeeze s) : c ∈ s := by
  induction s using squeeze.induct with
  | case1 rest ih =>
    rw [squeeze] at h
    exact List.mem_cons_of_mem _ (ih h)
  | case2 d rest hne ih =>
    rw [squeeze] at h
    · rcases List.mem_cons.mp h with rfl | h
      · exact List.mem_cons_self
      · exact List.mem_cons_of_mem _ (ih h)
    · exact hne
  | case3 => simp [squeeze] at h

theorem sanitized_slug (raw : String) (max_chars : Nat) :
    sanitized (truncate_slug raw max_chars) = (truncate_slug raw max_chars).toList := by
  unfold sanitized truncate_slug
  rw [String.toList_ofList]
  refine (List.map_congr_left ?_).trans (List.map_id _)
  intro c hc
  have hc := (List.rdropWhile_prefix _ _).subset (List.mem_of_mem_take hc)
  have hc := mem_squeeze ((List.dropWhile_suffix _).subset hc)
  obtain ⟨d, _, rfl⟩ := List.mem_map.mp hc
  exact sanitized_char_twice d

theorem sanitized_append (a b : String) : sanitized (a ++ b) = sanitized a ++ sanitized b := by
  simp [sanitized]

theorem auto_name_eq_iff (organization : Option String) (kind suffix a b : String) :
    auto_name organization [kind, a, suffix] = auto_name organization [kind, b, suffix] ↔
      sanitized a = sanitized b := by
  unfold auto_name
  rw [String.ofList_inj]
  simp

theorem settled_eq_iff (v : Option String) (env : Option String) (g g' : String) :
    (⟨v, env, g⟩ : Slot).settled = (⟨v, env, g'⟩ : Slot).settled ↔
      (v.isSome = true → named env = none → g = g') := by
  unfold Slot.settled ensure_env_name
  cases v with
  | none => simp
  | some value => cases named env <;> simp

/-- A name is generated for the webhook. -/
def Generates (n : WebhookCfg) : Prop :=
  (usable n.url = true ∧ named n.url_env = none) ∨
    (usable n.secret = true ∧ named n.secret_env = none) ∨
    ((n.headers.any (fun kv => usable kv.2)) = true ∧ named n.headers_env = none)

theorem inline_isSome (value : String) : (inline_value value).isSome = usable value := by
  unfold inline_value take_inline
  split <;> simp_all

theorem headers_isSome (order : Order) (headers : List (String × String)) :
    (headers_text order headers).isSome = headers.any (fun kv => usable kv.2) := by
  unfold headers_text
  simp only
  split
  · rename_i h
    rw [List.filter_eq_nil_iff] at h
    simp only [Option.isSome_none]
    rw [eq_comm, List.any_eq_false]
    exact h
  · rename_i h
    rw [List.filter_eq_nil_iff] at h
    simp only [Option.isSome_some]
    rw [eq_comm, List.any_eq_true]
    push Not at h
    exact h

theorem webhook_refs_eq_iff (order : Order) (organization : Option String) (a b : String)
    (n : WebhookCfg) :
    webhook_refs order organization a n = webhook_refs order organization b n ↔
      (Generates n → sanitized a = sanitized b) := by
  unfold webhook_refs Generates
  simp only [WebhookCfg.mk.injEq, settled_eq_iff, auto_name_eq_iff, inline_isSome, headers_isSome,
    true_and, and_true]
  constructor
  · rintro ⟨hurl, hheaders, hsecret⟩ (⟨hu, he⟩ | ⟨hu, he⟩ | ⟨hu, he⟩)
    · exact hurl hu he
    · exact hsecret hu he
    · exact hheaders hu he
  · intro h
    exact ⟨fun hu he => h (Or.inl ⟨hu, he⟩), fun hu he => h (Or.inr (Or.inr ⟨hu, he⟩)),
      fun hu he => h (Or.inr (Or.inl ⟨hu, he⟩))⟩

/-- The part of its generated names that a webhook without a name takes from its URL. -/
def url_slug (n : WebhookCfg) : String := truncate_slug (trim n.url) 24

/-- A name is generated for the webhook, out of its URL. -/
def NamedByUrl (n : WebhookCfg) : Prop :=
  named n.name = none ∧ usable n.url = true ∧ Generates n

theorem join_two (a b : String) : "_".intercalate [a, b] = a ++ "_" ++ b := rfl

theorem join_three (a b c : String) : "_".intercalate [a, b, c] = a ++ "_" ++ b ++ "_" ++ c := rfl

theorem identity_by_url {n : WebhookCfg} (hname : named n.name = none)
    (hurl : usable n.url = true) (index : Nat) :
    notifier_identity (.Webhook n) index =
      match n.tags.find? (fun tag => !blank tag) with
      | some tag => truncate_slug (trim tag) 24 ++ "_" ++ "WEBHOOK" ++ "_" ++ url_slug n
      | none => "WEBHOOK" ++ "_" ++ url_slug n := by
  have hb := usable_not_blank hurl
  simp only [notifier_identity, notifier_label, hname, notifier_stable_tip, hb, hurl,
    NotifierConfig.routing_tags, notifier_kind_slug, url_slug, Bool.false_eq_true, if_false,
    if_true]
  cases n.tags.find? (fun tag => !blank tag) with
  | none => simp only [List.nil_append, join_two]
  | some tag => simp only [List.cons_append, List.nil_append, join_three]

theorem identity_otherwise {n m : WebhookCfg}
    (h : notifier_shape (.Webhook n) = notifier_shape (.Webhook m))
    (hn : named n.name ≠ none ∨ usable n.url = false) (index : Nat) :
    notifier_identity (.Webhook n) index = notifier_identity (.Webhook m) index := by
  simp only [notifier_shape, NotifierConfig.Webhook.injEq, WebhookCfg.mk.injEq] at h
  obtain ⟨h1, h2, h3, -⟩ := h
  have husable : usable m.url = usable n.url := by rw [← usable_mask m.url, ← h3, usable_mask]
  have htip : ∀ k : WebhookCfg, usable k.url = false → notifier_stable_tip (.Webhook k) = none := by
    intro k hk
    simp only [notifier_stable_tip]
    split
    · rfl
    · rename_i tip htip
      split at htip
      · simp at htip
      · obtain rfl := Option.some.inj htip
        simp [hk]
  cases hl : named n.name with
  | some name =>
    have hm : named m.name = some name := h1 ▸ hl
    simp only [notifier_identity, notifier_label, hl, hm]
  | none =>
    have hm : named m.name = none := h1 ▸ hl
    have hu : usable n.url = false := hn.resolve_left (fun hne => hne hl)
    simp only [notifier_identity, notifier_label, hl, hm, htip n hu, htip m (husable.trans hu),
      NotifierConfig.routing_tags, notifier_kind_slug, h2]

/-- Two webhooks that differ in their secrets only end as one exactly when no name is generated
out of a URL, or the same name is. -/
theorem normalize_webhook_eq_iff (order : Order) (organization : Option String) (index : Nat)
    {n m : WebhookCfg} (h : notifier_shape (.Webhook n) = notifier_shape (.Webhook m))
    (writes writes' : List SecretWrite) :
    (normalize_notifier order (.Webhook n) index organization writes).1 =
        (normalize_notifier order (.Webhook m) index organization writes').1 ↔
      (NamedByUrl n → url_slug n = url_slug m) := by
  rw [normalize_webhook_eq, normalize_webhook_eq, NotifierConfig.Webhook.injEq,
    ← webhook_refs_shape order organization _ h, webhook_refs_eq_iff]
  by_cases hby : named n.name = none ∧ usable n.url = true
  · obtain ⟨hname, hurl⟩ := hby
    have hshape := h
    simp only [notifier_shape, NotifierConfig.Webhook.injEq, WebhookCfg.mk.injEq] at hshape
    obtain ⟨h1, h2, h3, -⟩ := hshape
    have hurl' : usable m.url = true := by rw [← usable_mask m.url, ← h3, usable_mask, hurl]
    have hslug : sanitized (url_slug n) = sanitized (url_slug m) ↔ url_slug n = url_slug m := by
      unfold url_slug
      rw [sanitized_slug, sanitized_slug, String.toList_inj]
    rw [identity_by_url hname hurl, identity_by_url (h1 ▸ hname) hurl', h2]
    unfold NamedByUrl
    simp only [hname, hurl, true_and]
    rw [← hslug]
    split <;> simp [sanitized_append]
  · have hn : named n.name ≠ none ∨ usable n.url = false := by
      by_cases hname : named n.name = none
      · exact Or.inr (by simpa [hname] using hby)
      · exact Or.inl hname
    have hnot : ¬ NamedByUrl n := fun hb => hby ⟨hb.1, hb.2.1⟩
    simp [identity_otherwise h hn, hnot]

/-! ## The whole document -/

theorem rewrite_each_getElem {α : Type} {step : α → Nat → List SecretWrite → α × List SecretWrite}
    (hstep : ∀ a index writes writes', (step a index writes).1 = (step a index writes').1)
    (l : List α) (start : Nat) (writes : List SecretWrite) (i : Nat) :
    (rewrite_each step l start writes).1[i]? = l[i]?.map (fun a => (step a (start + i) []).1) := by
  induction l generalizing start writes i with
  | nil => simp [rewrite_each]
  | cons a rest ih =>
    simp only [rewrite_each]
    cases i with
    | zero => simpa using hstep a start writes []
    | succ i =>
      simp only [List.getElem?_cons_succ]
      rw [ih, Nat.add_assoc, Nat.add_comm 1 i]

theorem source_writes_free (organization : Option String) (source : SourceConfig) (index : Nat)
    (writes writes' : List SecretWrite) :
    (normalize_source_token source index organization writes).1 =
      (normalize_source_token source index organization writes').1 := by
  rw [← normalize_source_shape source index organization writes []]
  exact normalize_source_shape source index organization writes' []

theorem notifier_writes_free (order : Order) (organization : Option String)
    (notifier : NotifierConfig) (index : Nat) (writes writes' : List SecretWrite) :
    (normalize_notifier order notifier index organization writes).1 =
      (normalize_notifier order notifier index organization writes').1 := by
  cases notifier with
  | Webhook n => rw [normalize_webhook_eq, normalize_webhook_eq]
  | Apprise n => rw [normalize_apprise_eq, normalize_apprise_eq]
  | Kafka n => rfl
  | Express n | Novu n | Slack n | Telegram n | Smtp n | Nats n | Rabbitmq n =>
    simp only [normalize_notifier, move_inline_eq]

/-- The webhooks whose names come out of their URLs have URLs that give the same names. -/
def SameUrlNames (c d : Config) : Prop :=
  ∀ (i : Nat) (n m : WebhookCfg), c.notifiers[i]? = some (.Webhook n) →
    d.notifiers[i]? = some (.Webhook m) → NamedByUrl n → url_slug n = url_slug m

theorem normalized_sources_eq {c d : Config} (h : SameButSecrets c d) (order : Order)
    (organization : Option String) :
    (normalize_secrets_to_refs order c organization).1.sources =
      (normalize_secrets_to_refs order d organization).1.sources := by
  have hshape : c.sources.map source_shape = d.sources.map source_shape :=
    congrArg Config.sources h
  apply List.ext_getElem?
  intro i
  simp only [normalize_secrets_to_refs]
  rw [rewrite_each_getElem (fun a k w w' => source_writes_free organization a k w w'),
    rewrite_each_getElem (fun a k w w' => source_writes_free organization a k w w')]
  have hi := congrArg (fun l : List SourceConfig => l[i]?) hshape
  simp only [List.getElem?_map] at hi
  cases hc : c.sources[i]? with
  | none =>
    cases hd : d.sources[i]? with
    | none => rfl
    | some b => simp [hc, hd] at hi
  | some a =>
    cases hd : d.sources[i]? with
    | none => simp [hc, hd] at hi
    | some b =>
      simp only [hc, hd, Option.map_some, Option.some.injEq] at hi
      simp only [Option.map_some, Option.some.injEq]
      rw [← normalize_source_shape a _ organization [] [], hi, normalize_source_shape]

theorem notifier_shape_webhook {notifier : NotifierConfig} {n : WebhookCfg}
    (h : notifier_shape notifier = .Webhook n) : ∃ m, notifier = .Webhook m := by
  cases notifier <;> simp [notifier_shape] at h
  exact ⟨_, rfl⟩

theorem normalized_notifiers_eq_iff {c d : Config} (h : SameButSecrets c d) (order : Order)
    (organization : Option String) :
    (normalize_secrets_to_refs order c organization).1.notifiers =
        (normalize_secrets_to_refs order d organization).1.notifiers ↔ SameUrlNames c d := by
  have hshape : c.notifiers.map notifier_shape = d.notifiers.map notifier_shape :=
    congrArg Config.notifiers h
  have hi : ∀ i : Nat, c.notifiers[i]?.map notifier_shape = d.notifiers[i]?.map notifier_shape := by
    intro i
    simpa only [List.getElem?_map] using congrArg (fun l : List NotifierConfig => l[i]?) hshape
  have hat : ∀ (k : Config) (i : Nat),
      (normalize_secrets_to_refs order k organization).1.notifiers[i]? =
        k.notifiers[i]?.map (fun n => (normalize_notifier order n i organization []).1) := by
    intro k i
    simp only [normalize_secrets_to_refs]
    rw [rewrite_each_getElem (fun a k w w' => notifier_writes_free order organization a k w w')]
    simp
  constructor
  · intro heq i n m hn hm hby
    have hat_i := congrArg (fun l : List NotifierConfig => l[i]?) heq
    simp only [hat, hn, hm, Option.map_some, Option.some.injEq] at hat_i
    have hs := hi i
    simp only [hn, hm, Option.map_some, Option.some.injEq] at hs
    exact (normalize_webhook_eq_iff order organization i hs [] []).mp hat_i hby
  · intro hsame
    apply List.ext_getElem?
    intro i
    rw [hat, hat]
    have hs := hi i
    cases hc : c.notifiers[i]? with
    | none =>
      cases hd : d.notifiers[i]? with
      | none => rfl
      | some b => simp [hc, hd] at hs
    | some a =>
      cases hd : d.notifiers[i]? with
      | none => simp [hc, hd] at hs
      | some b =>
        simp only [hc, hd, Option.map_some, Option.some.injEq] at hs
        simp only [Option.map_some, Option.some.injEq]
        by_cases hw : ∃ n, a = .Webhook n
        · obtain ⟨n, rfl⟩ := hw
          obtain ⟨m, rfl⟩ := notifier_shape_webhook hs.symm
          exact (normalize_webhook_eq_iff order organization i hs [] []).mpr (hsame i n m hc hd)
        · have ha : ∀ n, a ≠ .Webhook n := fun n hn => hw ⟨n, hn⟩
          have hb : ∀ n, b ≠ .Webhook n := by
            rintro n rfl
            obtain ⟨m, rfl⟩ := notifier_shape_webhook hs
            exact hw ⟨m, rfl⟩
          rw [← normalize_notifier_shape order a i organization [] [] ha, hs,
            normalize_notifier_shape order b i organization [] [] hb]

/-! ## The law -/

/-- The body that the ledger records for a document. -/
def ledger_body (codec : Codec) (order : Order) (format : DesiredFormat)
    (organization : Option String) (config : Config) : Except String String :=
  serialize_desired_only_strict codec format
    (normalize_secrets_to_refs order config organization).1

/-- Two documents that differ in their secrets have one body, and no inline secret is in it. -/
structure Blind (codec : Codec) (order : Order) (format : DesiredFormat)
    (organization : Option String) (c d : Config) : Prop where
  same : ledger_body codec order format organization c =
    ledger_body codec order format organization d
  emptied : Emptied (normalize_secrets_to_refs order c organization).1 ∧
    Emptied (normalize_secrets_to_refs order d organization).1

/-- The body of a document that serializes does not depend on its secrets, exactly when no name
generated for a webhook is taken from a URL that makes a difference. -/
theorem the_body_is_blind_unless_a_url_names_a_webhook {codec : Codec} (hc : codec.Faithful)
    (order : Order) (format : DesiredFormat) (organization : Option String) {c d : Config}
    (h : SameButSecrets c d) {text : String}
    (hbody : ledger_body codec order format organization c = .ok text) :
    Blind codec order format organization c d ↔ SameUrlNames c d := by
  constructor
  · intro hb
    have hd := hb.same.symm.trans hbody
    unfold ledger_body at hbody hd
    rw [serialized_eq_ok_iff] at hbody hd
    have h1 := hc.read_back _ _ _ hbody
    have h2 := hc.read_back _ _ _ hd
    rw [config_from_config] at h1 h2
    have hsame := Option.some.inj (h1.symm.trans h2)
    have hnotifiers : (desired_state_for_ledger (normalize_secrets_to_refs order c
        organization).1).notifiers = (desired_state_for_ledger (normalize_secrets_to_refs order d
        organization).1).notifiers := by rw [hsame]
    exact (normalized_notifiers_eq_iff h order organization).mp hnotifiers
  · intro hsame
    refine ⟨?_, normalized_emptied order c organization, normalized_emptied order d organization⟩
    have hwire : DesiredWire.from_config (normalize_secrets_to_refs order c organization).1 =
        DesiredWire.from_config (normalize_secrets_to_refs order d organization).1 := by
      have h1 := normalized_sources_eq h order organization
      have h2 := (normalized_notifiers_eq_iff h order organization).mpr hsame
      unfold SameButSecrets shape at h
      simp only [Config.mk.injEq] at h
      rw [from_config_eq_iff]
      unfold desired_state_for_ledger
      simp only [Config.mk.injEq, h1, h2, true_and, and_true]
      exact ⟨h.1, h.2.2.2.2.2.2.2.2.2.1, h.2.2.2.2.2.2.2.2.2.2.1⟩
    unfold ledger_body serialize_desired_only_strict
    rw [hwire]

/-- A webhook with a name of its own, or with none. -/
def hook (name : Option String) (url : String) : Config :=
  { notifiers := [.Webhook { name, url }] }

/-- What TOML the webhook becomes. -/
def hook_text (name : String) (url_env : String) : String :=
  "[[notifiers]]\ntype = \"webhook\"\n" ++ name ++ "tags = []\nurl = \"\"\nurl_env = \"" ++ url_env ++
    "\"\nmethod = \"POST\"\nsecret = \"\"\n\n[notifiers.headers]\n"

def hook_doc (name : Option String) (line url_env : String) :
    DesiredFormat × DesiredWire × String :=
  (.Toml,
    ⟨none, [.Webhook { name, url_env := some url_env }], [], [], []⟩,
    hook_text line url_env)

theorem hook_text_inj {line u v : String} (h : hook_text line u = hook_text line v) : u = v := by
  unfold hook_text at h
  rw [String.append_left_inj] at h
  rw [String.append_right_inj] at h
  exact h

theorem hook_same {u v : String} (hu : usable u = true) (hv : usable v = true)
    (name : Option String) : SameButSecrets (hook name u) (hook name v) := by
  unfold SameButSecrets shape hook
  simp only [List.map_cons, List.map_nil, notifier_shape, mask, hu, hv]

theorem written {c : Config} {docs : List (DesiredFormat × DesiredWire × String)}
    {wire : DesiredWire} {text : String}
    (hwire : DesiredWire.from_config (normalize_secrets_to_refs id c none).1 = wire)
    (hwrite : (Codec.samples docs).write .Toml wire = some text) :
    ledger_body (Codec.samples docs) id .Toml none c = .ok text := by
  unfold ledger_body serialize_desired_only_strict
  rw [hwire, hwrite]

theorem a_url_names_a_webhook :
    SameButSecrets (hook none "https://hooks.example/one") (hook none "https://hooks.example/two") ∧
      ¬ Blind
        (Codec.samples
          [hook_doc none "" "XRELEASE_UI_N_WEBHOOK_HTTPS_HOOKS_EXAMPLE_ONE_WEBHOOK_URL",
            hook_doc none "" "XRELEASE_UI_N_WEBHOOK_HTTPS_HOOKS_EXAMPLE_TWO_WEBHOOK_URL"])
        id .Toml none (hook none "https://hooks.example/one")
        (hook none "https://hooks.example/two") := by
  refine ⟨hook_same (by decide +kernel) (by decide +kernel) none, ?_⟩
  intro h
  have hone : DesiredWire.from_config
      (normalize_secrets_to_refs id (hook none "https://hooks.example/one") none).1 =
      (hook_doc none "" "XRELEASE_UI_N_WEBHOOK_HTTPS_HOOKS_EXAMPLE_ONE_WEBHOOK_URL").2.1 := by
    decide +kernel
  have htwo : DesiredWire.from_config
      (normalize_secrets_to_refs id (hook none "https://hooks.example/two") none).1 =
      (hook_doc none "" "XRELEASE_UI_N_WEBHOOK_HTTPS_HOOKS_EXAMPLE_TWO_WEBHOOK_URL").2.1 := by
    decide +kernel
  have hother : (hook_doc none "" "XRELEASE_UI_N_WEBHOOK_HTTPS_HOOKS_EXAMPLE_ONE_WEBHOOK_URL").2.1 ≠
      (hook_doc none "" "XRELEASE_UI_N_WEBHOOK_HTTPS_HOOKS_EXAMPLE_TWO_WEBHOOK_URL").2.1 := by
    simp [hook_doc]
  have hsame := h.same
  rw [written hone (Codec.samples_write_head _ _),
    written htwo ((Codec.samples_write_next hother).trans (Codec.samples_write_head _ _))] at hsame
  have hnames := hook_text_inj (Except.ok.inj hsame)
  simp at hnames

theorem the_body_is_blind_unless_a_url_names_a_webhook_here :
    Blind (Codec.samples [hook_doc (some "chat") "name = \"chat\"\n" "XRELEASE_UI_N_CHAT_WEBHOOK_URL"])
      id .Toml none (hook (some "chat") "https://hooks.example/one")
      (hook (some "chat") "https://hooks.example/two") := by
  have hfaithful : (Codec.samples [hook_doc (some "chat") "name = \"chat\"\n"
      "XRELEASE_UI_N_CHAT_WEBHOOK_URL"]).Faithful := by
    apply Codec.samples_faithful
    simp
  have hwire : DesiredWire.from_config
      (normalize_secrets_to_refs id (hook (some "chat") "https://hooks.example/one") none).1 =
      (hook_doc (some "chat") "name = \"chat\"\n" "XRELEASE_UI_N_CHAT_WEBHOOK_URL").2.1 := by
    decide +kernel
  refine (the_body_is_blind_unless_a_url_names_a_webhook hfaithful id .Toml none
    (hook_same (by decide +kernel) (by decide +kernel) (some "chat"))
    (written hwire (Codec.samples_write_head _ _))).mpr ?_
  intro i n m hn hm hby
  obtain ⟨hname, -⟩ := hby
  match i, hn with
  | 0, hn =>
    simp only [hook, List.getElem?_cons_zero, Option.some.injEq, NotifierConfig.Webhook.injEq] at hn
    subst hn
    exact absurd hname (by decide +kernel)
  | i + 1, hn => simp [hook] at hn

end xrelease.bodies
