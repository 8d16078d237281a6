-- Applying what `GET /api/v1/config` shows: when the redacted document of a normalized
-- configuration, applied back, is that configuration again.
import Xrelease.Bodies
import Xrelease.Restore

namespace xrelease.reapplied

open xrelease.config xrelease.vaulted xrelease.bodies text

/-! ## Fields -/

theorem named_eq_none_iff (env : Option String) : named env = none ↔ env_blank env = true := by
  cases env with
  | none => simp [named, env_blank]
  | some name =>
    simp only [named, env_blank, blank]
    by_cases h : trim name = "" <;> simp [h]

theorem named_isSome (env : Option String) : (named env).isSome = !env_blank env := by
  cases he : env_blank env with
  | true => rw [(named_eq_none_iff env).mpr he]; rfl
  | false =>
    cases hn : named env with
    | none => rw [(named_eq_none_iff env).mp hn] at he; exact absurd he (by decide)
    | some name => rfl

/-- A name that was missing stays missing. -/
def Kept (env prev : Option String) : Prop := env_blank env = true → env_blank prev = true

theorem restore_env_name_eq_iff (env prev : Option String) :
    restore_env_name env prev = env ↔ Kept env prev := by
  unfold restore_env_name Kept
  cases he : env_blank env with
  | false => simp
  | true =>
    cases hp : env_blank prev with
    | true => simp
    | false =>
      simp only [Bool.not_true, Bool.or_self, Bool.false_eq_true, if_false, forall_const, iff_false]
      rintro rfl
      rw [he] at hp
      exact absurd hp (by decide)

theorem kept_self (env : Option String) : Kept env env := id

theorem unusable_of_needs_restore {value : String} (h : value = "" ∨ value = "<redacted>") :
    usable value = false ∧ is_placeholder value = true ∧ url_needs_restore value = true := by
  rcases h with rfl | rfl <;> decide +kernel

theorem mask_field_empty (env : Option String) :
    mask_field "" env = "" ∨ mask_field "" env = "<redacted>" := by
  unfold mask_field
  split
  · exact Or.inr rfl
  · exact Or.inl rfl

theorem mask_url_empty (env : Option String) : mask_url "" env = mask_field "" env := by
  have h1 : blank "" = true := by decide
  have h2 : redact_url_userinfo "" = "" := by decide +kernel
  unfold mask_url mask_field
  simp [h1, h2]

/-- A field without a secret takes nothing out and becomes empty. -/
theorem move_unusable {value : String} (h : usable value = false) (env : Option String)
    (generated : String) (writes : List SecretWrite) :
    move_inline value env generated writes = ("", env, writes) := by
  simp [move_inline, take_inline, h]

theorem move_masked (env : Option String) (generated : String) (writes : List SecretWrite) :
    move_inline (mask_field "" env) env generated writes = ("", env, writes) :=
  move_unusable (unusable_of_needs_restore (mask_field_empty env)).1 env generated writes

/-- Nothing comes back of a secret that the previous document keeps by name. -/
theorem move_restored_secret (env prev : Option String) (generated : String)
    (writes : List SecretWrite) :
    move_inline (restore_secret (mask_field "" env) env "" prev).1
        (restore_secret (mask_field "" env) env "" prev).2 generated writes =
      ("", restore_env_name env prev, writes) := by
  obtain ⟨hu, hp, -⟩ := unusable_of_needs_restore (mask_field_empty env)
  have hempty : is_placeholder "" = true := by decide
  have hinline : restore_inline (mask_field "" env) "" = mask_field "" env := by
    simp [restore_inline, hempty]
  unfold restore_secret clear_placeholder
  simp only [hinline]
  split
  · exact move_unusable (by decide) _ generated writes
  · exact move_unusable hu _ generated writes

theorem move_restored_url (env prev : Option String) (generated : String)
    (writes : List SecretWrite) :
    move_inline (restore_url (mask_field "" env) env "" prev).1
        (restore_url (mask_field "" env) env "" prev).2 generated writes =
      ("", restore_env_name env prev, writes) := by
  obtain ⟨hu, -, hr⟩ := unusable_of_needs_restore (mask_field_empty env)
  have hempty : url_needs_restore "" = true := by decide
  unfold restore_url
  simp only [hempty, Bool.not_true, Bool.and_false, Bool.false_eq_true, if_false]
  split
  · exact move_unusable (by decide) _ generated writes
  · exact move_unusable hu _ generated writes

/-! ## Sources -/

/-- Nothing is lost of the token, and nothing is gained from the first source with the same key. -/
def TokenKept (previous : List SourceConfig) (source : SourceConfig) : Prop :=
  ∀ token env, source.token_refs = some (token, env) →
    (env_blank env = false → token = none) ∧
      ∀ prev prev_token prev_env, prev_source previous source = some prev →
        prev.token_refs = some (prev_token, prev_env) → Kept env prev_env

theorem source_key_with_token (source : SourceConfig) (token env : Option String) :
    source_key (source.with_token token env) = source_key source := by
  cases source with
  | Image r c => cases r <;> rfl
  | _ => rfl

variable {source : SourceConfig} {previous : List SourceConfig} {config : Config}

theorem source_key_isSome {refs : Option String × Option String}
    (h : source.token_refs = some refs) : (source_key source).isSome := by
  cases source with
  | Image r c => cases r <;> rfl
  | Feed c | Package r c | Artifacthub c => simp [SourceConfig.token_refs] at h
  | _ => rfl

/-- What a key starts with. -/
def key_kind : SourceConfig → String
  | .Github _ => "github"
  | .Codeberg _ => "codeberg"
  | .Gitea _ => "gitea"
  | .Gitlab _ => "gitlab"
  | .Bitbucket _ => "bitbucket"
  | .Docker _ => "docker"
  | .Image .Ghcr _ => "ghcr"
  | .Image .Quay _ => "quay"
  | .Image .Ecr _ => "ecr"
  | _ => ""

/-- The characters of a key before its first colon. -/
def key_front (key : String) : List Char := key.toList.takeWhile (· ≠ ':')

theorem key_front_append {start kind : String} (hs : start.toList = kind.toList ++ [':'])
    (hk : ':' ∉ kind.toList) (rest : String) : key_front (start ++ rest) = kind.toList := by
  unfold key_front
  rw [String.toList_append, hs, List.append_assoc, List.takeWhile_append_of_pos]
  · simp
  · intro c hc
    simp only [ne_eq, decide_eq_true_eq]
    rintro rfl
    exact hk hc

theorem key_front_eq {key : String} (h : source_key source = some key) :
    key_front key = (key_kind source).toList := by
  cases source with
  | Feed c | Package r c | Artifacthub c => simp [source_key] at h
  | Image r c =>
    cases r <;> obtain rfl := Option.some.inj h <;>
      exact key_front_append (by simp only [key_kind]; decide) (by simp only [key_kind]; decide) _
  | Gitea c =>
    obtain rfl := Option.some.inj h
    rw [String.append_assoc, String.append_assoc]
    exact key_front_append (by simp only [key_kind]; decide) (by simp only [key_kind]; decide) _
  | Github c | Codeberg c | Gitlab c | Bitbucket c | Docker c =>
    obtain rfl := Option.some.inj h
    exact key_front_append (by simp only [key_kind]; decide) (by simp only [key_kind]; decide) _

theorem same_kind_of_key {a b : SourceConfig} {key : String} (ha : source_key a = some key)
    (hb : source_key b = some key) : same_kind a b = true := by
  have hkind : key_kind a = key_kind b := by
    rw [← String.toList_inj, ← key_front_eq ha, key_front_eq hb]
  cases a with
  | Feed c | Package r c | Artifacthub c => simp [source_key] at ha
  | Image r c =>
    cases b with
    | Feed c | Package r c | Artifacthub c => simp [source_key] at hb
    | Image r' c' => cases r <;> cases r' <;> simp [key_kind] at hkind <;> rfl
    | _ => cases r <;> simp [key_kind] at hkind
  | _ =>
    cases b with
    | Feed c | Package r c | Artifacthub c => simp [source_key] at hb
    | Image r' c' => cases r' <;> simp [key_kind] at hkind
    | _ => first | rfl | simp [key_kind] at hkind

theorem prev_source_with_token (previous : List SourceConfig) (source : SourceConfig)
    (token env : Option String) :
    prev_source previous (source.with_token token env) = prev_source previous source := by
  unfold prev_source
  rw [source_key_with_token]

/-- What the match finds is an entry of the same kind with the same key. -/
theorem prev_source_spec {prev : SourceConfig} (h : prev_source previous source = some prev) :
    prev ∈ previous ∧ same_kind source prev = true := by
  unfold prev_source at h
  cases hk : source_key source with
  | none => simp [hk] at h
  | some key =>
    simp only [hk] at h
    refine ⟨List.mem_of_find?_eq_some h, ?_⟩
    have := List.find?_some h
    simp only [decide_eq_true_eq] at this
    exact same_kind_of_key hk this

/-- An entry of the previous document is found, itself or one before it. -/
theorem prev_source_isSome (hmem : source ∈ previous) (hkey : (source_key source).isSome) :
    (prev_source previous source).isSome := by
  obtain ⟨key, hk⟩ := Option.isSome_iff_exists.mp hkey
  unfold prev_source
  simp only [hk]
  rw [List.find?_isSome]
  exact ⟨source, hmem, by simp [hk]⟩

theorem same_kind_refs {a b : SourceConfig} (h : same_kind a b = true)
    {refs : Option String × Option String} (ha : a.token_refs = some refs) :
    ∃ token env, b.token_refs = some (token, env) := by
  cases a <;> cases b <;> simp [same_kind] at h <;>
    exact ⟨_, _, rfl⟩

theorem same_kind_with_token (a b : SourceConfig) (token env : Option String) :
    same_kind (a.with_token token env) b = same_kind a b := by
  cases a <;> cases b <;> rfl

/-- A token that the normalization leaves. -/
theorem unusable_token {token : Option String} (h : token = none ∨ token = some "") :
    take_optional_inline token = (token, none) ∧
      take_optional_inline (some "<redacted>") = (some "", none) := by
  rcases h with rfl | rfl <;> decide +kernel

/-- The token field of an emptied entry, shown. -/
theorem mask_token_emptied {token : Option String} (h : token = none ∨ token = some "")
    (env : Option String) :
    mask_token token env = if env_blank env then token else some "<redacted>" := by
  unfold mask_token
  rw [named_isSome]
  cases env_blank env <;> rcases h with rfl | rfl <;> decide

/-- The two fields after showing, restoring from an entry without inline secrets, and normalizing:
the name is the restored one, and a token beside a name is gone. -/
theorem token_round_trip {token prev_token : Option String} (h : token = none ∨ token = some "")
    (hp : prev_token = none ∨ prev_token = some "") (env prev_env : Option String) :
    restore_source_token (mask_token token env) env prev_token prev_env =
      (if env_blank env then token else none, restore_env_name env prev_env) := by
  have hempty : is_placeholder "" = true := by decide
  have hkept : restore_source_token (mask_token token env) env prev_token prev_env =
      (if env_blank (restore_env_name env prev_env) then mask_token token env
        else clear_redacted_optional (mask_token token env), restore_env_name env prev_env) := by
    unfold restore_source_token
    rcases hp with rfl | rfl <;> simp only [hempty, if_true, ite_self]
  rw [hkept, mask_token_emptied h, Prod.mk.injEq]
  refine ⟨?_, rfl⟩
  cases he : env_blank env with
  | true =>
    simp only [if_true]
    have hclear : clear_redacted_optional token = token := by rcases h with rfl | rfl <;> rfl
    rw [hclear, ite_self]
  | false =>
    have henv : restore_env_name env prev_env = env := by simp [restore_env_name, he]
    rw [henv, he]
    rfl

theorem source_comes_back (hmem : source ∈ previous) (hall : ∀ s ∈ previous, SourceEmptied s)
    (index : Nat) (organization : Option String) (writes : List SecretWrite) :
    let back := normalize_source_token (restore_source previous (redact_source source)) index
      organization writes
    back.2 = writes ∧ (back.1 = source ↔ TokenKept previous source) := by
  cases hr : source.token_refs with
  | none =>
    have hshown : redact_source source = source := by simp [redact_source, hr]
    have hrestored : restore_source previous source = source := by
      unfold restore_source
      cases prev_source previous source with
      | none => rfl
      | some prev => simp [hr]
    rw [hshown, hrestored, normalize_source_none hr]
    refine ⟨rfl, fun _ => ?_, fun _ => rfl⟩
    intro token env h
    rw [hr] at h
    exact absurd h (by simp)
  | some refs =>
    obtain ⟨token, env⟩ := refs
    have htoken := hall source hmem token env hr
    obtain ⟨prev, hprev⟩ := Option.isSome_iff_exists.mp
      (prev_source_isSome hmem (source_key_isSome hr))
    obtain ⟨hpmem, hkind⟩ := prev_source_spec hprev
    obtain ⟨prev_token, prev_env, hprefs⟩ := same_kind_refs hkind hr
    have hptoken := hall prev hpmem prev_token prev_env hprefs
    have hshown : redact_source source = source.with_token (mask_token token env) env := by
      simp [redact_source, hr]
    have hkind' : same_kind (source.with_token (mask_token token env) env) prev = true := by
      rw [same_kind_with_token, hkind]
    have hrefs : (source.with_token (mask_token token env) env).token_refs =
        some (mask_token token env, env) := by
      rw [SourceConfig.token_refs_with, hr]
      rfl
    have hrestored : restore_source previous (redact_source source) =
        source.with_token (if env_blank env then token else none)
          (restore_env_name env prev_env) := by
      rw [hshown]
      unfold restore_source
      rw [prev_source_with_token, hprev]
      simp only [hkind', if_true, hrefs, hprefs, token_round_trip htoken hptoken,
        SourceConfig.with_token_with]
    have hleft : (if env_blank env then token else none) = none ∨
        (if env_blank env then token else none) = some "" := by
      split
      · exact htoken
      · exact Or.inl rfl
    have hrefs' : (source.with_token (if env_blank env then token else none)
        (restore_env_name env prev_env)).token_refs =
        some (if env_blank env then token else none, restore_env_name env prev_env) := by
      rw [SourceConfig.token_refs_with, hr]
      rfl
    have hback : normalize_source_token (restore_source previous (redact_source source)) index
        organization writes = (source.with_token (if env_blank env then token else none)
          (restore_env_name env prev_env), writes) := by
      rw [hrestored]
      unfold normalize_source_token
      simp only [hrefs', (unusable_token hleft).1, SourceConfig.with_token_with]
    simp only [hback, true_and]
    have hsame : source.with_token (if env_blank env then token else none)
        (restore_env_name env prev_env) = source ↔
        (if env_blank env then token else none) = token ∧ restore_env_name env prev_env = env := by
      constructor
      · intro h
        rw [h, hr] at hrefs'
        simp only [Option.some.injEq, Prod.mk.injEq] at hrefs'
        exact ⟨hrefs'.1.symm, hrefs'.2.symm⟩
      · rintro ⟨h1, h2⟩
        rw [h1, h2]
        exact SourceConfig.with_token_self hr
    rw [hsame, restore_env_name_eq_iff]
    constructor
    · rintro ⟨h1, h2⟩ token' env' h
      rw [hr] at h
      simp only [Option.some.injEq, Prod.mk.injEq] at h
      obtain ⟨rfl, rfl⟩ := h
      refine ⟨?_, ?_⟩
      · intro he
        rw [he] at h1
        exact h1.symm
      · intro prev' prev_token' prev_env' hp hpr
        obtain rfl := Option.some.inj (hprev.symm.trans hp)
        rw [hprefs] at hpr
        simp only [Option.some.injEq, Prod.mk.injEq] at hpr
        rw [← hpr.2]
        exact h2
    · intro h
      obtain ⟨h1, h2⟩ := h token env hr
      refine ⟨?_, h2 prev prev_token prev_env hprev hprefs⟩
      split
      · rfl
      · rename_i he
        exact (h1 (by simpa using he)).symm

/-! ## Notifiers -/

/-- No reference appears where the entry has none, from the entry that it is matched to. -/
def RefsKept (previous : List NotifierConfig) : NotifierConfig → Prop
  | .Apprise n => ∀ p, prev_apprise previous n = some p → Kept n.urls_env p.urls_env
  | .Webhook n => ∀ p, prev_webhook previous n = some p →
      Kept n.url_env p.url_env ∧ Kept n.headers_env p.headers_env ∧ Kept n.secret_env p.secret_env
  | .Express n => ∀ p, prev_express previous n = some p →
      Kept n.access_token_env p.access_token_env
  | .Novu n => ∀ p, prev_novu previous n = some p → Kept n.api_key_env p.api_key_env
  | .Slack n => ∀ p, prev_slack previous n = some p →
      Kept n.webhook_url_env p.webhook_url_env ∧ Kept n.bot_token_env p.bot_token_env
  | .Telegram n => ∀ p, prev_telegram previous n = some p → Kept n.bot_token_env p.bot_token_env
  | .Smtp n => ∀ p, prev_smtp previous n = some p → Kept n.password_env p.password_env
  | .Rabbitmq n => ∀ p, prev_rabbitmq previous n = some p → Kept n.url_env p.url_env
  | .Nats n => ∀ p, prev_nats previous n = some p → Kept n.url_env p.url_env
  | .Kafka _ => True

/-- No entry gains a reference from the entry that it is matched to, and no token is lost. -/
structure MatchesItself (config : Config) : Prop where
  sources : ∀ source ∈ config.sources, TokenKept config.sources source
  notifiers : ∀ notifier ∈ config.notifiers, RefsKept config.notifiers notifier

section Notifiers

variable {previous : List NotifierConfig} (hall : ∀ p ∈ previous, NotifierEmptied p)
  (order : Order) (index : Nat) (organization : Option String) (writes : List SecretWrite)

/-- Shown, put back and normalized, the notifier brings no write, and is as it was exactly where it
gains no reference. -/
def ComesBack (previous : List NotifierConfig) (notifier : NotifierConfig) : Prop :=
  let back := normalize_notifier order
    (restore_notifier previous (redact_notifier notifier)) index organization writes
  back.2 = writes ∧ (back.1 = notifier ↔ RefsKept previous notifier)

include hall

theorem express_comes_back (n : ExpressCfg) (hn : n.access_token = "") :
    ComesBack order index organization writes previous (.Express n) := by
  have hprev : prev_express previous { n with
      access_token := mask_field n.access_token n.access_token_env } = prev_express previous n := rfl
  simp only [ComesBack, redact_notifier, restore_notifier, hprev, RefsKept]
  cases hp : prev_express previous n with
  | none =>
    simp only [normalize_notifier, hn, move_masked]
    simp [← hn]
  | some p =>
    have hempty : p.access_token = "" := by
      obtain ⟨a, ha, hf⟩ := List.exists_of_findSome?_eq_some hp
      cases a <;> simp at hf
      obtain ⟨-, rfl⟩ := hf
      exact hall _ ha
    simp only [normalize_notifier, hn, hempty, move_restored_secret]
    obtain ⟨n1, n2, n3, n4, n5, n6, n7, n8⟩ := n
    simp only at hn
    simp [hn, restore_env_name_eq_iff]

theorem novu_comes_back (n : NovuCfg) (hn : n.api_key = "") :
    ComesBack order index organization writes previous (.Novu n) := by
  have hprev : prev_novu previous { n with
      api_key := mask_field n.api_key n.api_key_env } = prev_novu previous n := rfl
  simp only [ComesBack, redact_notifier, restore_notifier, hprev, RefsKept]
  cases hp : prev_novu previous n with
  | none =>
    simp only [normalize_notifier, hn, move_masked]
    simp [← hn]
  | some p =>
    have hempty : p.api_key = "" := by
      obtain ⟨a, ha, hf⟩ := List.exists_of_findSome?_eq_some hp
      cases a <;> simp at hf
      obtain ⟨-, rfl⟩ := hf
      exact hall _ ha
    simp only [normalize_notifier, hn, hempty, move_restored_secret]
    obtain ⟨n1, n2, n3, n4, n5, n6, n7, n8⟩ := n
    simp only at hn
    simp [hn, restore_env_name_eq_iff]

theorem telegram_comes_back (n : TelegramCfg) (hn : n.bot_token = "") :
    ComesBack order index organization writes previous (.Telegram n) := by
  have hprev : prev_telegram previous { n with
      bot_token := mask_field n.bot_token n.bot_token_env } = prev_telegram previous n := rfl
  simp only [ComesBack, redact_notifier, restore_notifier, hprev, RefsKept]
  cases hp : prev_telegram previous n with
  | none =>
    simp only [normalize_notifier, hn, move_masked]
    simp [← hn]
  | some p =>
    have hempty : p.bot_token = "" := by
      obtain ⟨a, ha, hf⟩ := List.exists_of_findSome?_eq_some hp
      cases a <;> simp at hf
      obtain ⟨-, rfl⟩ := hf
      exact hall _ ha
    simp only [normalize_notifier, hn, hempty, move_restored_secret]
    obtain ⟨n1, n2, n3, n4, n5, n6, n7, n8⟩ := n
    simp only at hn
    simp [hn, restore_env_name_eq_iff]

theorem smtp_comes_back (n : SmtpCfg) (hn : n.password = "") :
    ComesBack order index organization writes previous (.Smtp n) := by
  have hprev : prev_smtp previous { n with
      password := mask_field n.password n.password_env } = prev_smtp previous n := rfl
  simp only [ComesBack, redact_notifier, restore_notifier, hprev, RefsKept]
  cases hp : prev_smtp previous n with
  | none =>
    simp only [normalize_notifier, hn, move_masked]
    simp [← hn]
  | some p =>
    have hempty : p.password = "" := by
      obtain ⟨a, ha, hf⟩ := List.exists_of_findSome?_eq_some hp
      cases a <;> simp at hf
      obtain ⟨-, rfl⟩ := hf
      exact hall _ ha
    simp only [normalize_notifier, hn, hempty, move_restored_secret]
    obtain ⟨n1, n2, n3, n4, n5, n6, n7, n8, n9, n10, n11, n12, n13⟩ := n
    simp only at hn
    simp [hn, restore_env_name_eq_iff]

theorem rabbitmq_comes_back (n : RabbitmqCfg) (hn : n.url = "") :
    ComesBack order index organization writes previous (.Rabbitmq n) := by
  have hprev : prev_rabbitmq previous { n with
      url := mask_url n.url n.url_env } = prev_rabbitmq previous n := rfl
  simp only [ComesBack, redact_notifier, restore_notifier, hprev, RefsKept]
  cases hp : prev_rabbitmq previous n with
  | none =>
    simp only [normalize_notifier, hn, mask_url_empty, move_masked]
    simp [← hn]
  | some p =>
    have hempty : p.url = "" := by
      obtain ⟨a, ha, hf⟩ := List.exists_of_findSome?_eq_some hp
      cases a <;> simp at hf
      obtain ⟨-, rfl⟩ := hf
      exact hall _ ha
    simp only [normalize_notifier, hn, hempty, mask_url_empty, move_restored_url]
    obtain ⟨n1, n2, n3, n4, n5, n6, n7⟩ := n
    simp only at hn
    simp [hn, restore_env_name_eq_iff]

theorem nats_comes_back (n : NatsCfg) (hn : n.url = "") :
    ComesBack order index organization writes previous (.Nats n) := by
  have hprev : prev_nats previous { n with
      url := mask_url n.url n.url_env } = prev_nats previous n := rfl
  simp only [ComesBack, redact_notifier, restore_notifier, hprev, RefsKept]
  cases hp : prev_nats previous n with
  | none =>
    simp only [normalize_notifier, hn, mask_url_empty, move_masked]
    simp [← hn]
  | some p =>
    have hempty : p.url = "" := by
      obtain ⟨a, ha, hf⟩ := List.exists_of_findSome?_eq_some hp
      cases a <;> simp at hf
      obtain ⟨-, rfl⟩ := hf
      exact hall _ ha
    simp only [normalize_notifier, hn, hempty, mask_url_empty, move_restored_url]
    obtain ⟨n1, n2, n3, n4, n5, n6⟩ := n
    simp only at hn
    simp [hn, restore_env_name_eq_iff]

theorem slack_comes_back (n : SlackCfg) (hn : n.webhook_url = "" ∧ n.bot_token = "") :
    ComesBack order index organization writes previous (.Slack n) := by
  obtain ⟨hurl, htoken⟩ := hn
  have hprev : prev_slack previous { n with
      webhook_url := mask_field n.webhook_url n.webhook_url_env
      bot_token := mask_field n.bot_token n.bot_token_env } = prev_slack previous n := rfl
  simp only [ComesBack, redact_notifier, restore_notifier, hprev, RefsKept]
  cases hp : prev_slack previous n with
  | none =>
    simp only [normalize_notifier, hurl, htoken, move_masked]
    obtain ⟨n1, n2, n3, n4, n5, n6, n7, n8, n9⟩ := n
    simp only at hurl htoken
    simp [hurl, htoken]
  | some p =>
    have hempty : p.webhook_url = "" ∧ p.bot_token = "" := by
      obtain ⟨a, ha, hf⟩ := List.exists_of_findSome?_eq_some hp
      cases a <;> simp at hf
      obtain ⟨-, rfl⟩ := hf
      exact hall _ ha
    simp only [normalize_notifier, hurl, htoken, hempty.1, hempty.2, move_restored_secret]
    obtain ⟨n1, n2, n3, n4, n5, n6, n7, n8, n9⟩ := n
    simp only at hurl htoken
    simp [hurl, htoken, restore_env_name_eq_iff]

/-- The headers of an emptied webhook, shown. -/
def shown_headers (headers_env : Option String) : List (String × String) :=
  if (named headers_env).isSome then [("Authorization", "<redacted>")] else []

omit hall in
theorem unusable_headers (env : Option String) :
    (shown_headers env).filter (fun kv => usable kv.2) = [] := by
  unfold shown_headers
  split
  · decide +kernel
  · rfl

omit hall in
/-- The match does not see what was shown. -/
theorem prev_webhook_shown (n : WebhookCfg) (hn : n.url = "") (secret : String)
    (headers : List (String × String)) :
    prev_webhook previous { n with url := mask_field "" n.url_env, secret, headers } =
      prev_webhook previous n := by
  have h1 := (unusable_of_needs_restore (mask_field_empty n.url_env)).2.2
  have h2 : url_needs_restore "" = true := by decide
  unfold prev_webhook
  simp only [hn, h1, h2, Bool.not_true, Bool.false_and]

theorem prev_webhook_emptied {n p : WebhookCfg} (h : prev_webhook previous n = some p) :
    p.url = "" ∧ p.secret = "" ∧ p.headers = [] := by
  have hmem : p ∈ webhooks previous := by
    unfold prev_webhook at h
    simp only at h
    split at h
    · rename_i found hf
      obtain rfl := Option.some.inj h
      exact List.mem_of_find?_eq_some hf
    · split at h
      · simp at h
      · split at h
        · rename_i first hw
          obtain rfl := Option.some.inj h
          rw [hw]
          exact List.mem_singleton_self _
        · simp at h
  unfold webhooks at hmem
  obtain ⟨a, ha, hf⟩ := List.mem_filterMap.mp hmem
  cases a <;> simp at hf
  subst hf
  exact hall _ ha

theorem webhook_comes_back (n : WebhookCfg) (hn : n.url = "" ∧ n.secret = "" ∧ n.headers = []) :
    ComesBack order index organization writes previous (.Webhook n) := by
  obtain ⟨hurl, hsecret, hheaders⟩ := hn
  have hshown : redact_notifier (.Webhook n) = .Webhook { n with
      url := mask_field "" n.url_env
      secret := mask_field "" n.secret_env
      headers := shown_headers n.headers_env } := by
    simp only [redact_notifier, hurl, hsecret, hheaders, List.map_nil, true_and, shown_headers]
  unfold ComesBack
  rw [hshown]
  simp only [restore_notifier, prev_webhook_shown n hurl, RefsKept]
  cases hp : prev_webhook previous n with
  | none =>
    simp only [normalize_notifier, move_masked, unusable_headers, if_true]
    obtain ⟨n1, n2, n3, n4, n5, n6, n7, n8, n9, n10, n11, n12⟩ := n
    simp only at hurl hsecret hheaders
    simp [hurl, hsecret, hheaders]
  | some p =>
    obtain ⟨h1, h2, h3⟩ := prev_webhook_emptied hall hp
    have hrestored : restore_headers (shown_headers n.headers_env) p.headers =
        shown_headers n.headers_env := by
      simp [restore_headers, h3]
    have hcleared : ∀ b : Bool, ((if b then [] else shown_headers n.headers_env).filter
        (fun kv => usable kv.2)) = [] := by
      intro b
      cases b
      · exact unusable_headers _
      · rfl
    simp only [restore_webhook, hrestored, h1, h2, normalize_notifier, move_restored_url,
      move_restored_secret, hcleared, if_true]
    obtain ⟨n1, n2, n3, n4, n5, n6, n7, n8, n9, n10, n11, n12⟩ := n
    simp only at hurl hsecret hheaders
    simp only [hurl, hsecret, hheaders, NotifierConfig.Webhook.injEq, WebhookCfg.mk.injEq,
      restore_env_name_eq_iff, true_and, and_true, Option.some.injEq, forall_eq']

theorem apprise_comes_back (n : AppriseConfig) (hn : n.urls = []) :
    ComesBack order index organization writes previous (.Apprise n) := by
  have hprev : ∀ urls, prev_apprise previous { n with urls } = prev_apprise previous n :=
    fun _ => rfl
  have hshown : ∀ urls : List String, urls = [] ∨ urls = ["<redacted>"] →
      urls.filter usable = [] := by
    rintro urls (rfl | rfl)
    · rfl
    · decide +kernel
  simp only [ComesBack, redact_notifier, restore_notifier, hprev, RefsKept]
  set urls := if n.urls ≠ [] ∨ (named n.urls_env).isSome = true then ["<redacted>"] else n.urls
    with hurls
  have hmasked : urls = [] ∨ urls = ["<redacted>"] := by
    rw [hurls]
    split
    · exact Or.inr rfl
    · exact Or.inl hn
  cases hp : prev_apprise previous n with
  | none =>
    simp only [normalize_notifier, hshown urls hmasked, if_true]
    simp [← hn]
  | some p =>
    have hempty : p.urls = [] := by
      obtain ⟨a, ha, hf⟩ := List.exists_of_findSome?_eq_some hp
      cases a <;> simp at hf
      obtain ⟨-, rfl⟩ := hf
      exact hall _ ha
    have hleft : ∀ b : Bool, (if b then [] else urls).filter usable = [] := by
      intro b
      cases b
      · exact hshown urls hmasked
      · rfl
    simp only [restore_apprise, hempty, ne_eq, not_true_eq_false, decide_false, Bool.and_false,
      Bool.false_and, Bool.false_eq_true, if_false, normalize_notifier, hleft, if_true]
    obtain ⟨n1, n2, n3, n4, n5, n6, n7⟩ := n
    simp only at hn
    simp [hn, restore_env_name_eq_iff]

theorem notifier_comes_back {notifier : NotifierConfig} (hn : NotifierEmptied notifier) :
    ComesBack order index organization writes previous notifier := by
  cases notifier with
  | Apprise n => exact apprise_comes_back hall order index organization writes n hn
  | Webhook n => exact webhook_comes_back hall order index organization writes n hn
  | Express n => exact express_comes_back hall order index organization writes n hn
  | Novu n => exact novu_comes_back hall order index organization writes n hn
  | Slack n => exact slack_comes_back hall order index organization writes n hn
  | Telegram n => exact telegram_comes_back hall order index organization writes n hn
  | Smtp n => exact smtp_comes_back hall order index organization writes n hn
  | Kafka n => exact ⟨rfl, fun _ => trivial, fun _ => rfl⟩
  | Nats n => exact nats_comes_back hall order index organization writes n hn
  | Rabbitmq n => exact rabbitmq_comes_back hall order index organization writes n hn

end Notifiers

/-! ## The document -/

/-- A loop whose steps write nothing and give back an entry exactly when it has a property. -/
theorem rewrite_each_back {α : Type} (step : α → Nat → List SecretWrite → α × List SecretWrite)
    (view : α → α) {P : α → Prop} {l : List α}
    (h : ∀ a ∈ l, ∀ index writes, (step (view a) index writes).2 = writes ∧
      ((step (view a) index writes).1 = a ↔ P a))
    (start : Nat) (writes : List SecretWrite) :
    (rewrite_each step (l.map view) start writes).2 = writes ∧
      ((rewrite_each step (l.map view) start writes).1 = l ↔ ∀ a ∈ l, P a) := by
  induction l generalizing start with
  | nil => simp [rewrite_each]
  | cons a rest ih =>
    obtain ⟨hwrites, hback⟩ := h a List.mem_cons_self start writes
    obtain ⟨ihw, ihb⟩ := ih (fun b hb => h b (List.mem_cons_of_mem a hb)) (start + 1)
    simp only [List.map_cons, rewrite_each, hwrites]
    refine ⟨ihw, ?_⟩
    rw [List.cons.injEq, hback, ihb, List.forall_mem_cons]

/-- What the normalization makes of the shown sections, after the secrets are restored. -/
theorem shown_normalizes (order : Order) (organization : Option String) {shown : Config}
    (h : Emptied config) (hsources : shown.sources = config.sources.map redact_source)
    (hnotifiers : shown.notifiers = config.notifiers.map redact_notifier) :
    (normalize_secrets_to_refs order (restore_redacted_secrets config shown) organization).2 = [] ∧
      ((normalize_secrets_to_refs order (restore_redacted_secrets config shown)
          organization).1.sources = config.sources ∧
        (normalize_secrets_to_refs order (restore_redacted_secrets config shown)
          organization).1.notifiers = config.notifiers ↔ MatchesItself config) := by
  obtain ⟨hs2, hs1⟩ := rewrite_each_back
    (fun source index => normalize_source_token source index organization)
    (fun s => restore_source config.sources (redact_source s))
    (fun s hs index writes => source_comes_back hs h.sources index organization writes) 0 []
  obtain ⟨hn2, hn1⟩ := rewrite_each_back
    (fun notifier index => normalize_notifier order notifier index organization)
    (fun n => restore_notifier config.notifiers (redact_notifier n))
    (fun n hn index writes => notifier_comes_back h.notifiers order index organization writes
      (h.notifiers n hn)) 0 []
  have hviews : shown.sources.map (restore_source config.sources) =
      config.sources.map (fun s => restore_source config.sources (redact_source s)) := by
    rw [hsources, List.map_map]
    rfl
  have hviewn : shown.notifiers.map (restore_notifier config.notifiers) =
      config.notifiers.map (fun n => restore_notifier config.notifiers (redact_notifier n)) := by
    rw [hnotifiers, List.map_map]
    rfl
  simp only [normalize_secrets_to_refs, restore_redacted_secrets, hviews, hviewn, hs2, hn2, hs1,
    hn1, true_and]
  exact ⟨fun h => ⟨h.1, h.2⟩, fun h => ⟨h.1, h.2⟩⟩

/-- What `{}` reads as. -/
structure ReadsEmpty (codec : Codec) : Prop where
  yaml : codec.read .Yaml EMPTY_ORGANIZATION_DOCUMENT = some {}
  toml : codec.read .Toml EMPTY_ORGANIZATION_DOCUMENT = none

/-- The shown document, applied again, has the body of the configuration and writes no secret. -/
def AppliesBack (codec : Codec) (order : Order) (format : DesiredFormat)
    (hint : Option DesiredFormat) (organization : Option String) (config : Config) : Prop :=
  ∃ parsed, parse_desired_document_with_hint codec
      (redact_desired_only_document codec format config) hint = .ok parsed ∧
    let back :=
      normalize_secrets_to_refs order (restore_redacted_secrets config parsed) organization
    serialize_desired_only_strict codec format back.1 =
      serialize_desired_only_strict codec format config ∧ back.2 = []

theorem applies_back_of {codec : Codec} {order : Order} {format : DesiredFormat}
    {hint : Option DesiredFormat} {organization : Option String} {parsed back : Config}
    (hread : parse_desired_document_with_hint codec
      (redact_desired_only_document codec format config) hint = .ok parsed)
    (hback : normalize_secrets_to_refs order (restore_redacted_secrets config parsed)
      organization = (back, [])) (hbody : serialize_desired_only_strict codec format back =
      serialize_desired_only_strict codec format config) :
    AppliesBack codec order format hint organization config := by
  refine ⟨parsed, hread, ?_⟩
  rw [hback]
  exact ⟨hbody, rfl⟩

theorem parse_empty {codec : Codec} (he : ReadsEmpty codec) (hint : Option DesiredFormat) :
    parse_desired_document_with_hint codec EMPTY_ORGANIZATION_DOCUMENT hint = .ok {} := by
  have hkept : NoRemovedKey EMPTY_ORGANIZATION_DOCUMENT := by decide +kernel
  have hguess : detect_desired_format EMPTY_ORGANIZATION_DOCUMENT = .Toml := by decide +kernel
  have hyaml := parse_as_of_kept hkept he.yaml
  obtain ⟨err, htoml⟩ := parse_as_of_unreadable he.toml
  unfold parse_desired_document_with_hint
  rcases hint with _ | _ | _ <;>
    simp [hguess, DesiredFormat.fallback, hyaml, htoml]

theorem has_desired_state_iff (config : Config) :
    has_desired_state config = true ↔ config.sources ≠ [] ∨ config.notifiers ≠ [] ∨
      config.teams ≠ [] ∨ config.presets ≠ [] ∨ config.defaults ≠ {} := by
  simp only [has_desired_state, contains_app_sections, Bool.or_eq_true, decide_eq_true_eq,
    or_assoc]

theorem redact_keeps_sections (config : Config) :
    has_desired_state (strip_infra_sections (redact_config config)) =
      has_desired_state config := by
  rw [Bool.eq_iff_iff, has_desired_state_iff, has_desired_state_iff]
  simp only [strip_infra_sections, redact_config, ne_eq, List.map_eq_nil_iff]

/-- A configuration without desired state is the empty document. -/
theorem without_desired_state (h : ¬ has_desired_state config = true) :
    desired_state_for_ledger config = {} := by
  rw [has_desired_state_iff] at h
  simp only [ne_eq, not_or, not_not] at h
  obtain ⟨h1, h2, h3, h4, h5⟩ := h
  unfold desired_state_for_ledger
  rw [h1, h2, h3, h4, h5]

theorem normalize_keeps (order : Order) (config : Config) (organization : Option String) :
    (normalize_secrets_to_refs order config organization).1.defaults = config.defaults ∧
      (normalize_secrets_to_refs order config organization).1.teams = config.teams ∧
      (normalize_secrets_to_refs order config organization).1.presets = config.presets :=
  ⟨rfl, rfl, rfl⟩

theorem desired_state_eq_iff {c d : Config} (hdefaults : c.defaults = d.defaults)
    (hteams : c.teams = d.teams) (hpresets : c.presets = d.presets) :
    desired_state_for_ledger c = desired_state_for_ledger d ↔
      c.sources = d.sources ∧ c.notifiers = d.notifiers := by
  unfold desired_state_for_ledger
  simp [hdefaults, hteams, hpresets, and_comm]

/-- The shown sections come back as they were exactly when every entry matches itself; the other
sections come through unchanged. -/
theorem shown_comes_back (order : Order) (organization : Option String) {shown : Config}
    (h : Emptied config) (hshown : shown = desired_state_for_ledger (redact_config config)) :
    (normalize_secrets_to_refs order (restore_redacted_secrets config shown) organization).2 = [] ∧
      (desired_state_for_ledger (normalize_secrets_to_refs order
          (restore_redacted_secrets config shown) organization).1 =
        desired_state_for_ledger config ↔ MatchesItself config) := by
  have hdefaults : shown.defaults = config.defaults := by
    simp only [hshown, desired_state_for_ledger, redact_config]
  have hteams : shown.teams = config.teams := by
    simp only [hshown, desired_state_for_ledger, redact_config]
  have hpresets : shown.presets = config.presets := by
    simp only [hshown, desired_state_for_ledger, redact_config]
  have hsources : shown.sources = config.sources.map redact_source := by
    simp only [hshown, desired_state_for_ledger, redact_config]
  have hnotifiers : shown.notifiers = config.notifiers.map redact_notifier := by
    simp only [hshown, desired_state_for_ledger, redact_config]
  obtain ⟨hwrites, hback⟩ := shown_normalizes order organization h hsources hnotifiers
  obtain ⟨h1, h2, h3⟩ :=
    normalize_keeps order (restore_redacted_secrets config shown) organization
  refine ⟨hwrites, ?_⟩
  rw [← hback, desired_state_eq_iff (h1.trans hdefaults) (h2.trans hteams) (h3.trans hpresets)]

theorem empty_normalizes (order : Order) (config : Config) (organization : Option String) :
    normalize_secrets_to_refs order (restore_redacted_secrets config {}) organization =
      ({}, []) := rfl

/-- The bootstrap sections are not in the document. -/
theorem serialize_stripped (codec : Codec) (format : DesiredFormat) (config : Config) :
    serialize_desired_only_strict codec format (strip_infra_sections config) =
      serialize_desired_only_strict codec format config := rfl

theorem shown_document {codec : Codec} {format : DesiredFormat} {shown : String}
    (hstate : has_desired_state config = true)
    (hshown : serialize_desired_only_strict codec format (redact_config config) = .ok shown) :
    redact_desired_only_document codec format config = shown := by
  unfold redact_desired_only_document
  simp only [redact_keeps_sections, hstate, serialize_stripped, hshown, Bool.not_true,
    Bool.false_eq_true, if_false]

theorem serialize_eq_iff {codec : Codec} (hc : codec.Faithful) {format : DesiredFormat}
    {c d : Config} {body : String} (hd : serialize_desired_only_strict codec format d = .ok body) :
    serialize_desired_only_strict codec format c = serialize_desired_only_strict codec format d ↔
      desired_state_for_ledger c = desired_state_for_ledger d := by
  constructor
  · intro h
    rw [hd, serialized_eq_ok_iff] at h
    rw [serialized_eq_ok_iff] at hd
    have h1 := hc.read_back _ _ _ h
    have h2 := hc.read_back _ _ _ hd
    rw [config_from_config] at h1 h2
    exact Option.some.inj (h1.symm.trans h2)
  · intro h
    unfold serialize_desired_only_strict
    rw [(from_config_eq_iff c d).mpr h]

/-- What is shown of a normalized configuration applies back unchanged exactly when no line of it
starts with a removed key and every entry finds itself, or one that has no reference more than
itself, where the restoration looks for it. -/
theorem what_is_shown_applies_back_when_entries_match_themselves {codec : Codec}
    (hc : codec.Faithful) (he : ReadsEmpty codec) (order : Order) (format : DesiredFormat)
    (hint : Option DesiredFormat) (organization : Option String) {config : Config}
    (h : Emptied config) {body shown : String}
    (hbody : serialize_desired_only_strict codec format config = .ok body)
    (hshown : serialize_desired_only_strict codec format (redact_config config) = .ok shown) :
    AppliesBack codec order format hint organization config ↔
      NoRemovedKey (redact_desired_only_document codec format config) ∧ MatchesItself config := by
  by_cases hstate : has_desired_state config = true
  · have htext := shown_document hstate hshown
    unfold AppliesBack
    rw [htext]
    constructor
    · rintro ⟨parsed, hread, hbody', -⟩
      obtain ⟨hkeys, hparsed⟩ := (parse_serialized hc hshown hint parsed).mp hread
      obtain ⟨-, hback⟩ := shown_comes_back order organization h hparsed
      exact ⟨hkeys, hback.mp ((serialize_eq_iff hc hbody).mp hbody')⟩
    · rintro ⟨hkeys, hmatch⟩
      obtain ⟨parsed, hparsed⟩ : ∃ parsed, parsed = desired_state_for_ledger (redact_config config) :=
        ⟨_, rfl⟩
      obtain ⟨hwrites, hback⟩ := shown_comes_back order organization h hparsed
      exact ⟨parsed, (parse_serialized hc hshown hint parsed).mpr ⟨hkeys, hparsed⟩,
        (serialize_eq_iff hc hbody).mpr (hback.mpr hmatch), hwrites⟩
  · have hempty := without_desired_state hstate
    have hstate' : has_desired_state config = false := by simpa using hstate
    have htext : redact_desired_only_document codec format config =
        EMPTY_ORGANIZATION_DOCUMENT := by
      unfold redact_desired_only_document
      simp only [redact_keeps_sections, hstate', Bool.not_false, if_true]
    have hkeys : NoRemovedKey EMPTY_ORGANIZATION_DOCUMENT := by decide +kernel
    have hs : config.sources = [] := congrArg Config.sources hempty
    have hn : config.notifiers = [] := congrArg Config.notifiers hempty
    have hmatch : MatchesItself config := ⟨by simp [hs], by simp [hn]⟩
    have hback : AppliesBack codec order format hint organization config := by
      have hread := parse_empty he hint
      rw [← htext] at hread
      have hsame : serialize_desired_only_strict codec format {} =
          serialize_desired_only_strict codec format config := by
        rw [serialize_eq_iff hc hbody, hempty]
        rfl
      exact applies_back_of hread (empty_normalizes order config organization) hsame
    rw [htext]
    exact ⟨fun _ => ⟨hkeys, hmatch⟩, fun _ => hback⟩

/-- A Slack entry of one channel: the two URLs or tokens and the two names. -/
def chat (webhook_url bot_token : String) (webhook_url_env bot_token_env : Option String) :
    NotifierConfig :=
  .Slack { webhook_url, webhook_url_env, bot_token, bot_token_env, channel := "#new" }

/-- What TOML a list of such entries becomes. -/
def chat_text (entry : String × String × Option String × Option String) : String :=
  let line := fun key (value : Option String) =>
    match value with
    | some value => key ++ " = \"" ++ value ++ "\"\n"
    | none => ""
  "[[notifiers]]\ntype = \"slack\"\ntags = []\n" ++ line "webhook_url" (some entry.1) ++
    line "webhook_url_env" entry.2.2.1 ++ line "bot_token" (some entry.2.1) ++
    line "bot_token_env" entry.2.2.2 ++ line "channel" (some "#new") ++
    line "api_base" (some "https://slack.com/api") ++ "\n"

def chats (entries : List (String × String × Option String × Option String)) : Config :=
  { notifiers := entries.map (fun e => chat e.1 e.2.1 e.2.2.1 e.2.2.2) }

def chats_doc (entries : List (String × String × Option String × Option String)) :
    DesiredFormat × DesiredWire × String :=
  (.Toml, DesiredWire.from_config (chats entries), String.join (entries.map chat_text))

/-- Two entries of one channel, one with a webhook, one with a bot. -/
def hook_and_bot : Config := chats [("", "", some "HOOK", none), ("", "", none, some "BOT")]

/-- The libraries on what the two entries are written as, shown as, and come back as. -/
def hook_and_bot_codec : Codec :=
  Codec.samples
    [chats_doc [("", "", some "HOOK", none), ("", "", none, some "BOT")],
      chats_doc [("<redacted>", "", some "HOOK", none), ("", "<redacted>", none, some "BOT")],
      chats_doc [("", "", some "HOOK", none), ("", "", some "HOOK", some "BOT")]]

theorem a_second_entry_takes_the_hook :
    Emptied hook_and_bot ∧ ¬ AppliesBack hook_and_bot_codec id .Toml none none hook_and_bot := by
  refine ⟨⟨by simp [hook_and_bot, chats], ?_⟩, ?_⟩
  · intro notifier hn
    simp only [hook_and_bot, chats, List.map_cons, List.map_nil, List.mem_cons, List.not_mem_nil,
      or_false] at hn
    rcases hn with rfl | rfl <;> exact ⟨rfl, rfl⟩
  · rintro ⟨parsed, hread, hbody, -⟩
    have hfaithful : hook_and_bot_codec.Faithful := Codec.samples_faithful (by decide +kernel)
    have hshown : serialize_desired_only_strict hook_and_bot_codec .Toml
        (redact_config hook_and_bot) = .ok (String.join
          [chat_text ("<redacted>", "", some "HOOK", none),
            chat_text ("", "<redacted>", none, some "BOT")]) := by
      decide +kernel
    rw [shown_document (by decide +kernel) hshown] at hread
    obtain ⟨-, rfl⟩ := (parse_serialized hfaithful hshown none parsed).mp hread
    exact absurd hbody (by decide +kernel)

/-- A NATS entry, its URL kept by name. -/
def bus (url : String) : Config :=
  { notifiers := [.Nats { url, url_env := some "BUS", subject := "new" }] }

def bus_text (url : String) : String :=
  "[[notifiers]]\ntype = \"nats\"\ntags = []\nurl = \"" ++ url ++
    "\"\nurl_env = \"BUS\"\nsubject = \"new\"\n"

/-- The libraries on the entry as it is written and as it is shown, and on `{}`. -/
def bus_codec : Codec :=
  Codec.samples
    [(.Toml, DesiredWire.from_config (bus ""), bus_text ""),
      (.Toml, DesiredWire.from_config (bus "<redacted>"), bus_text "<redacted>"),
      (.Yaml, ⟨none, [], [], [], []⟩, EMPTY_ORGANIZATION_DOCUMENT)]

theorem what_is_shown_applies_back_when_entries_match_themselves_here :
    AppliesBack bus_codec id .Toml none none (bus "") := by
  have hfaithful : bus_codec.Faithful := Codec.samples_faithful (by decide +kernel)
  have hempty : ReadsEmpty bus_codec := ⟨by decide +kernel, by decide +kernel⟩
  have hemptied : Emptied (bus "") := by
    refine ⟨by simp [bus], ?_⟩
    intro notifier hn
    simp only [bus, List.mem_singleton] at hn
    subst hn
    rfl
  have hbody : serialize_desired_only_strict bus_codec .Toml (bus "") = .ok (bus_text "") := by
    decide +kernel
  have hshown : serialize_desired_only_strict bus_codec .Toml (redact_config (bus "")) =
      .ok (bus_text "<redacted>") := by
    decide +kernel
  have hkeys : NoRemovedKey (redact_desired_only_document bus_codec .Toml (bus "")) := by
    decide +kernel
  refine (what_is_shown_applies_back_when_entries_match_themselves hfaithful hempty id .Toml none
    none hemptied hbody hshown).mpr ⟨hkeys, by simp [bus], ?_⟩
  intro notifier hn
  simp only [bus, List.mem_singleton] at hn
  subst hn
  intro p hp
  have hfound : prev_nats (bus "").notifiers
      { url := "", url_env := some "BUS", subject := "new" } =
      some { url := "", url_env := some "BUS", subject := "new" } := by
    decide +kernel
  obtain rfl := Option.some.inj (hfound.symm.trans hp)
  exact kept_self _

end xrelease.reapplied
