-- What a reader of the redacted configuration learns about its secrets: of two configurations that
-- differ in secrets only, when they look the same.
import Xrelease.Redact

namespace xrelease.shown

open xrelease.config xrelease.vaulted text

/-! ## URLs -/

/-- The URL has the form `scheme://credentials@rest`, the credentials without a slash and without
reaching into the host. -/
structure Userinfo (url scheme credentials rest : List Char) : Prop where
  form : split_once_at "://".toList url = some (scheme, credentials ++ '@' :: rest)
  slashless : '/' ∉ credentials
  host : '@' ∉ rest.takeWhile (· ≠ '/')

theorem after_last_append {c : Char} (before : List Char) {after : List Char} (h : c ∉ after) :
    after_last c (before ++ c :: after) = some after := by
  unfold after_last
  rw [if_pos (by simp), Option.some.injEq]
  unfold List.rtakeWhile
  rw [List.reverse_append, List.reverse_cons, List.append_assoc]
  have hrev : ∀ x ∈ after.reverse, decide (x ≠ c) = true := by
    intro x hx
    simp only [decide_eq_true_eq]
    rintro rfl
    exact h (List.mem_reverse.mp hx)
  rw [List.takeWhile_append_of_pos hrev]
  simp

theorem after_last_eq_some {c : Char} {s after : List Char} (h : after_last c s = some after) :
    ∃ before, s = before ++ c :: after ∧ c ∉ after := by
  unfold after_last at h
  split at h
  · rename_i hc
    obtain rfl := Option.some.inj h
    have hno : c ∉ s.rtakeWhile (fun x => decide (x ≠ c)) := by
      intro hm
      have := List.mem_rtakeWhile_imp hm
      simp at this
    have hsplit := List.rdropWhile_append_rtakeWhile (p := fun x => decide (x ≠ c)) (l := s)
    have hne : s.rdropWhile (fun x => decide (x ≠ c)) ≠ [] := by
      intro he
      rw [he, List.nil_append] at hsplit
      rw [hsplit] at hno
      exact hno hc
    have hlast := List.rdropWhile_last_not (fun x => decide (x ≠ c)) s hne
    simp only [decide_eq_true_eq, not_not] at hlast
    refine ⟨(s.rdropWhile (fun x => decide (x ≠ c))).dropLast, ?_, hno⟩
    conv_lhs => rw [← hsplit, ← List.dropLast_append_getLast hne, hlast]
    simp
  · simp at h

/-- What the redaction makes of such a URL. -/
theorem redact_of_userinfo {url scheme credentials rest : List Char}
    (h : Userinfo url scheme credentials rest) :
    redact_userinfo url = scheme ++ "://".toList ++ ("<redacted>@".toList ++ rest) := by
  have hslash : ∀ x ∈ credentials ++ ['@'], decide (x ≠ '/') = true := by
    intro x hx
    simp only [decide_eq_true_eq]
    rcases List.mem_append.mp hx with hx | hx
    · rintro rfl
      exact h.slashless hx
    · rw [List.mem_singleton.mp hx]
      decide
  have hrest : credentials ++ '@' :: rest = (credentials ++ ['@']) ++ rest := by simp
  have htake : (credentials ++ '@' :: rest).takeWhile (· ≠ '/') =
      credentials ++ '@' :: rest.takeWhile (· ≠ '/') := by
    rw [hrest, List.takeWhile_append_of_pos hslash]
    simp
  have hdrop : (credentials ++ '@' :: rest).dropWhile (· ≠ '/') = rest.dropWhile (· ≠ '/') := by
    rw [hrest, List.dropWhile_append_of_pos hslash]
  unfold redact_userinfo
  simp only [h.form]
  rw [htake, after_last_append _ h.host, hdrop]
  simp only [List.takeWhile_append_dropWhile, List.append_assoc]

/-- Every other URL is shown as it is. -/
theorem redact_otherwise (url : List Char) :
    redact_userinfo url = url ∨
      ∃ scheme credentials rest, Userinfo url scheme credentials rest := by
  unfold redact_userinfo
  cases hs : split_once_at "://".toList url with
  | none => exact Or.inl rfl
  | some parts =>
    obtain ⟨scheme, rest⟩ := parts
    cases ha : after_last '@' (rest.takeWhile (· ≠ '/')) with
    | none =>
      left
      simp only []
      rw [ha]
    | some host =>
      right
      obtain ⟨credentials, hauth, hno⟩ := after_last_eq_some ha
      have hall : ∀ x ∈ credentials ++ '@' :: host, x ≠ '/' := by
        intro x hx
        have := List.mem_takeWhile_imp (hauth ▸ hx)
        simpa using this
      have hhost : (host ++ rest.dropWhile (· ≠ '/')).takeWhile (· ≠ '/') = host := by
        rw [List.takeWhile_append_of_pos (fun x hx => by simpa using hall x (by simp [hx]))]
        have hnil : (rest.dropWhile (· ≠ '/')).takeWhile (· ≠ '/') = [] := by
          rw [List.takeWhile_eq_nil_iff]
          intro hlt
          have := List.head_dropWhile_not (fun x => decide (x ≠ '/'))
            (List.ne_nil_of_length_pos hlt)
          rw [List.head_eq_getElem] at this
          simpa using this
        rw [hnil, List.append_nil]
      refine ⟨scheme, credentials, host ++ rest.dropWhile (· ≠ '/'), ?_, ?_, ?_⟩
      · conv_lhs => rw [hs, ← List.takeWhile_append_dropWhile (p := (· ≠ '/')) (l := rest), hauth]
        simp
      · intro hc
        exact hall '/' (by simp [hc]) rfl
      · rw [hhost]
        exact hno

/-- The redacted form has the form itself. -/
theorem userinfo_redacted {url scheme credentials rest : List Char}
    (h : Userinfo url scheme credentials rest) :
    Userinfo (redact_userinfo url) scheme "<redacted>".toList rest where
  form := by
    rw [redact_of_userinfo h]
    have := split_once_at_append (by decide) h.form ("<redacted>@".toList ++ rest)
    rw [this]
    rfl
  slashless := by decide
  host := h.host

/-- Two URLs give away the same: they are the same, or differ in credentials that the redaction
takes for such. -/
def Hides (u v : String) : Prop :=
  u = v ∨ ∃ scheme a b rest, Userinfo u.toList scheme a rest ∧ Userinfo v.toList scheme b rest

theorem redact_url_eq_iff (u v : String) :
    redact_url_userinfo u = redact_url_userinfo v ↔ Hides u v := by
  unfold redact_url_userinfo Hides
  rw [String.ofList_inj, ← String.toList_inj]
  constructor
  · intro h
    rcases redact_otherwise u.toList with hu | ⟨s, a, r, hu⟩
    · rcases redact_otherwise v.toList with hv | ⟨s, b, r, hv⟩
      · exact Or.inl (by rw [← hu, h, hv])
      · have hr := userinfo_redacted hv
        rw [← h, hu] at hr
        exact Or.inr ⟨s, _, b, r, hr, hv⟩
    · rcases redact_otherwise v.toList with hv | ⟨s', b, r', hv⟩
      · have hr := userinfo_redacted hu
        rw [h, hv] at hr
        exact Or.inr ⟨s, a, _, r, hu, hr⟩
      · have h1 := (userinfo_redacted hu).form
        rw [h, (userinfo_redacted hv).form] at h1
        simp only [Option.some.injEq, Prod.mk.injEq, List.append_cancel_left_eq, List.cons.injEq,
          true_and] at h1
        obtain ⟨rfl, rfl⟩ := h1
        exact Or.inr ⟨s', a, b, r', hu, hv⟩
  · rintro (h | ⟨s, a, b, r, hu, hv⟩)
    · rw [h]
    · rw [redact_of_userinfo hu, redact_of_userinfo hv]

/-! ## Configurations that differ in their secrets only -/

/-- What is left of a secret that is set. -/
def veil (value : String) : String := if blank value then value else "secret"

theorem veil_eq {v w : String} (h : veil v = veil w) :
    v = w ∨ blank v = false ∧ blank w = false := by
  have hsecret : blank "secret" = false := by decide
  unfold veil at h
  by_cases hv : blank v = true
  · by_cases hw : blank w = true
    · simp only [hv, hw, if_true] at h
      exact Or.inl h
    · simp only [hv, hw, if_true, Bool.false_eq_true, if_false] at h
      rw [h, hsecret] at hv
      exact absurd hv (by decide)
  · by_cases hw : blank w = true
    · simp only [hv, hw, if_true, Bool.false_eq_true, if_false] at h
      rw [← h, hsecret] at hw
      exact absurd hw (by decide)
    · exact Or.inr ⟨by simpa using hv, by simpa using hw⟩

theorem blank_veil (value : String) : blank (veil value) = blank value := by
  unfold veil
  split
  · rfl
  · rename_i h
    rw [Bool.not_eq_true] at h
    rw [h]
    decide

def source_outline (source : SourceConfig) : SourceConfig :=
  match source with
  | .Feed c => .Feed { c with url := veil c.url }
  | _ =>
    match source.token_refs with
    | some (token, token_env) => source.with_token (token.map veil) token_env
    | none => source

def notifier_outline : NotifierConfig → NotifierConfig
  | .Apprise n => .Apprise { n with urls := if n.urls = [] then [] else ["secret"] }
  | .Webhook n =>
    .Webhook { n with
      url := veil n.url
      secret := veil n.secret
      headers := n.headers.map (fun kv => (kv.1, "secret")) }
  | .Express n => .Express { n with access_token := veil n.access_token }
  | .Novu n => .Novu { n with api_key := veil n.api_key }
  | .Slack n => .Slack { n with webhook_url := veil n.webhook_url, bot_token := veil n.bot_token }
  | .Telegram n => .Telegram { n with bot_token := veil n.bot_token }
  | .Smtp n => .Smtp { n with password := veil n.password }
  | .Rabbitmq n => .Rabbitmq { n with url := veil n.url }
  | .Nats n => .Nats { n with url := veil n.url }
  | .Kafka n => .Kafka n

def api_outline (api : ApiConfig) : ApiConfig :=
  { api with
    api_key := api.api_key.map veil
    webhook_secret := api.webhook_secret.map veil
    local_auth := { api.local_auth with
      session_secret := api.local_auth.session_secret.map veil
      admin_password := api.local_auth.admin_password.map veil } }

def outline (config : Config) : Config :=
  { config with
    database := { config.database with postgres_url := veil config.database.postgres_url }
    api := api_outline config.api
    sources := config.sources.map source_outline
    notifiers := config.notifiers.map notifier_outline }

/-- The same shape: each secret, and each URL that may carry one, is set in both or the same in
both; everything else is equal. -/
def SameShape (c d : Config) : Prop := outline c = outline d

instance (c d : Config) : Decidable (SameShape c d) :=
  inferInstanceAs (Decidable (outline c = outline d))

/-! ## The redaction sees the outline -/

theorem mask_field_veil (value : String) (env : Option String) :
    mask_field (veil value) env = mask_field value env := by
  unfold veil
  split
  · rfl
  · rename_i h
    have hne : value ≠ "" := by
      rintro rfl
      exact h (by decide)
    simp [mask_field, hne]

theorem mask_token_veil (token env : Option String) :
    mask_token (token.map veil) env = mask_token token env := by
  cases token with
  | none => rfl
  | some value =>
    simp only [mask_token, Option.map_some, blank_veil]
    split
    · rfl
    · rename_i h
      simp only [Bool.or_eq_true, not_or, Bool.not_eq_true, Bool.not_eq_false'] at h
      simp [veil, h.1]

theorem mask_option_veil (value : Option String) :
    mask_option (value.map veil) = mask_option value := by
  cases value with
  | none => rfl
  | some v =>
    simp only [mask_option, Option.map_some]
    unfold veil
    split
    · rfl
    · rename_i h
      have hne : v ≠ "" := by
        rintro rfl
        exact h (by decide)
      simp [hne]

theorem redact_source_outline {source : SourceConfig} (hf : ∀ c, source ≠ .Feed c) :
    redact_source (source_outline source) = redact_source source := by
  have key : ∀ token token_env, source.token_refs = some (token, token_env) →
      redact_source (source.with_token (token.map veil) token_env) = redact_source source := by
    intro token token_env h
    unfold redact_source
    rw [SourceConfig.token_refs_with, h]
    simp only [Option.map_some, SourceConfig.with_token_with, mask_token_veil]
  cases source with
  | Feed c => exact absurd rfl (hf c)
  | Package r c => rfl
  | Artifacthub c => rfl
  | Github c | Codeberg c | Gitea c | Gitlab c | Bitbucket c | Docker c => exact key _ _ rfl
  | Image r c => exact key _ _ rfl

/-- The notifiers whose URL stays visible but for its credentials. -/
def Broker (notifier : NotifierConfig) : Prop :=
  (∃ n, notifier = .Nats n) ∨ ∃ n, notifier = .Rabbitmq n

theorem redact_notifier_outline {notifier : NotifierConfig} (hb : ¬ Broker notifier) :
    redact_notifier (notifier_outline notifier) = redact_notifier notifier := by
  cases notifier with
  | Nats n => exact absurd (Or.inl ⟨n, rfl⟩) hb
  | Rabbitmq n => exact absurd (Or.inr ⟨n, rfl⟩) hb
  | Kafka n => rfl
  | Apprise n =>
    simp only [notifier_outline, redact_notifier]
    by_cases h : n.urls = [] <;> simp [h]
  | Webhook n =>
    simp only [notifier_outline, redact_notifier, mask_field_veil, List.map_map]
    rfl
  | Express n | Novu n | Slack n | Telegram n | Smtp n =>
    simp only [notifier_outline, redact_notifier, mask_field_veil]

theorem mask_url_eq_iff {u v : String} (h : veil u = veil v) (env : Option String) :
    mask_url u env = mask_url v env ↔ Hides u v := by
  rcases veil_eq h with rfl | ⟨hu, hv⟩
  · exact ⟨fun _ => Or.inl rfl, fun _ => rfl⟩
  · unfold mask_url
    simp only [hu, hv, Bool.false_eq_true, and_false, if_false]
    exact redact_url_eq_iff u v

/-- Two lists with one image of their entries have another one exactly when their entries do. -/
theorem map_eq_map_iff {α β γ : Type} {g : α → β} {f : α → γ} {l l' : List α}
    (h : l.map g = l'.map g) :
    l.map f = l'.map f ↔
      ∀ (i : Nat) (a b : α), l[i]? = some a → l'[i]? = some b → f a = f b := by
  constructor
  · intro hf i a b ha hb
    have := congrArg (fun m : List γ => m[i]?) hf
    simpa [ha, hb] using this
  · intro hall
    apply List.ext_getElem?
    intro i
    have hg := congrArg (fun m : List β => m[i]?) h
    simp only [List.getElem?_map] at hg ⊢
    cases ha : l[i]? with
    | none =>
      cases hb : l'[i]? with
      | none => rfl
      | some b => simp [ha, hb] at hg
    | some a =>
      cases hb : l'[i]? with
      | none => simp [ha, hb] at hg
      | some b => simp [hall i a b ha hb]

/-! ## The law -/

/-- Nothing that the redaction leaves visible differs: no feed URL does, and the connection URLs
differ in credentials that it takes for such. -/
structure GivesAwayTheSame (c d : Config) : Prop where
  postgres : Hides c.database.postgres_url d.database.postgres_url
  feeds : ∀ (i : Nat) (f g : FeedCfg), c.sources[i]? = some (.Feed f) →
    d.sources[i]? = some (.Feed g) → f.url = g.url
  nats : ∀ (i : Nat) (n m : NatsCfg), c.notifiers[i]? = some (.Nats n) →
    d.notifiers[i]? = some (.Nats m) → Hides n.url m.url
  rabbitmq : ∀ (i : Nat) (n m : RabbitmqCfg), c.notifiers[i]? = some (.Rabbitmq n) →
    d.notifiers[i]? = some (.Rabbitmq m) → Hides n.url m.url

theorem redact_database_eq_iff {c d : DatabaseConfig}
    (h : { c with postgres_url := veil c.postgres_url } =
      { d with postgres_url := veil d.postgres_url }) :
    redact_database c = redact_database d ↔ Hides c.postgres_url d.postgres_url := by
  obtain ⟨cu, c2, c3, c4, c5, c6, c7, c8, c9, c10⟩ := c
  obtain ⟨du, d2, d3, d4, d5, d6, d7, d8, d9, d10⟩ := d
  simp only [DatabaseConfig.mk.injEq] at h
  obtain ⟨hurl, rfl, rfl, rfl, rfl, rfl, rfl, rfl, rfl, rfl⟩ := h
  rcases veil_eq hurl with rfl | ⟨hc, hd⟩
  · exact ⟨fun _ => Or.inl rfl, fun _ => rfl⟩
  · unfold redact_database
    simp only [hc, hd, Bool.false_eq_true, if_false, DatabaseConfig.mk.injEq, and_true]
    exact redact_url_eq_iff cu du

theorem redact_api_outline (api : ApiConfig) : redact_api (api_outline api) = redact_api api := by
  simp only [redact_api, api_outline, mask_option_veil]

theorem redact_sources_eq_iff {cs ds : List SourceConfig}
    (h : cs.map source_outline = ds.map source_outline) :
    cs.map redact_source = ds.map redact_source ↔
      ∀ (i : Nat) (f g : FeedCfg), cs[i]? = some (.Feed f) → ds[i]? = some (.Feed g) →
        f.url = g.url := by
  rw [map_eq_map_iff h]
  have hentry := (map_eq_map_iff h).mp h
  constructor
  · intro hall i f g hf hg
    have := hall i _ _ hf hg
    simp only [redact_source, SourceConfig.token_refs, SourceConfig.Feed.injEq] at this
    rw [this]
  · intro hfeeds i a b ha hb
    have hab := hentry i a b ha hb
    by_cases hf : ∃ f, a = .Feed f
    · obtain ⟨f, rfl⟩ := hf
      obtain ⟨g, rfl⟩ : ∃ g, b = .Feed g := by
        cases b <;> simp [source_outline, SourceConfig.token_refs, SourceConfig.with_token] at hab
        exact ⟨_, rfl⟩
      have hurl := hfeeds i f g ha hb
      simp only [source_outline, SourceConfig.Feed.injEq, FeedCfg.mk.injEq] at hab
      have : f = g := by
        obtain ⟨f1, f2, f3⟩ := f
        obtain ⟨g1, g2, g3⟩ := g
        simp only at hab hurl
        obtain ⟨rfl, -, rfl⟩ := hab
        rw [hurl]
      rw [this]
    · have ha' : ∀ f, a ≠ .Feed f := fun f hf' => hf ⟨f, hf'⟩
      have hb' : ∀ g, b ≠ .Feed g := by
        rintro g rfl
        cases a <;> simp [source_outline, SourceConfig.token_refs, SourceConfig.with_token] at hab
        exact ha' _ rfl
      rw [← redact_source_outline ha', hab, redact_source_outline hb']

theorem redact_notifiers_eq_iff {cs ds : List NotifierConfig}
    (h : cs.map notifier_outline = ds.map notifier_outline) :
    cs.map redact_notifier = ds.map redact_notifier ↔
      (∀ (i : Nat) (n m : NatsCfg), cs[i]? = some (.Nats n) → ds[i]? = some (.Nats m) →
        Hides n.url m.url) ∧
      ∀ (i : Nat) (n m : RabbitmqCfg), cs[i]? = some (.Rabbitmq n) →
        ds[i]? = some (.Rabbitmq m) → Hides n.url m.url := by
  rw [map_eq_map_iff h]
  have hentry := (map_eq_map_iff h).mp h
  have hnats : ∀ n m : NatsCfg, notifier_outline (.Nats n) = notifier_outline (.Nats m) →
      (redact_notifier (.Nats n) = redact_notifier (.Nats m) ↔ Hides n.url m.url) := by
    intro n m hnm
    obtain ⟨n1, n2, n3, n4, n5, n6⟩ := n
    obtain ⟨m1, m2, m3, m4, m5, m6⟩ := m
    simp only [notifier_outline, NotifierConfig.Nats.injEq, NatsCfg.mk.injEq] at hnm
    obtain ⟨rfl, rfl, hurl, rfl, rfl, rfl⟩ := hnm
    simp only [redact_notifier, NotifierConfig.Nats.injEq, NatsCfg.mk.injEq, true_and, and_true]
    exact mask_url_eq_iff hurl n4
  have hrabbit : ∀ n m : RabbitmqCfg,
      notifier_outline (.Rabbitmq n) = notifier_outline (.Rabbitmq m) →
      (redact_notifier (.Rabbitmq n) = redact_notifier (.Rabbitmq m) ↔ Hides n.url m.url) := by
    intro n m hnm
    obtain ⟨n1, n2, n3, n4, n5, n6, n7⟩ := n
    obtain ⟨m1, m2, m3, m4, m5, m6, m7⟩ := m
    simp only [notifier_outline, NotifierConfig.Rabbitmq.injEq, RabbitmqCfg.mk.injEq] at hnm
    obtain ⟨rfl, rfl, hurl, rfl, rfl, rfl, rfl⟩ := hnm
    simp only [redact_notifier, NotifierConfig.Rabbitmq.injEq, RabbitmqCfg.mk.injEq, true_and,
      and_true]
    exact mask_url_eq_iff hurl n4
  constructor
  · intro hall
    refine ⟨?_, ?_⟩
    · intro i n m hn hm
      exact (hnats n m (hentry i _ _ hn hm)).mp (hall i _ _ hn hm)
    · intro i n m hn hm
      exact (hrabbit n m (hentry i _ _ hn hm)).mp (hall i _ _ hn hm)
  · rintro ⟨hn, hr⟩ i a b ha hb
    have hab := hentry i a b ha hb
    by_cases hbroker : Broker a
    · rcases hbroker with ⟨n, rfl⟩ | ⟨n, rfl⟩
      · obtain ⟨m, rfl⟩ : ∃ m, b = .Nats m := by
          cases b <;> simp [notifier_outline] at hab
          exact ⟨_, rfl⟩
        exact (hnats n m hab).mpr (hn i n m ha hb)
      · obtain ⟨m, rfl⟩ : ∃ m, b = .Rabbitmq m := by
          cases b <;> simp [notifier_outline] at hab
          exact ⟨_, rfl⟩
        exact (hrabbit n m hab).mpr (hr i n m ha hb)
    · have hb' : ¬ Broker b := by
        rintro (⟨m, rfl⟩ | ⟨m, rfl⟩)
        · cases a <;> simp [notifier_outline] at hab
          exact hbroker (Or.inl ⟨_, rfl⟩)
        · cases a <;> simp [notifier_outline] at hab
          exact hbroker (Or.inr ⟨_, rfl⟩)
      rw [← redact_notifier_outline hbroker, hab, redact_notifier_outline hb']

theorem redact_config_eq_iff {c d : Config} (h : SameShape c d) :
    redact_config c = redact_config d ↔ GivesAwayTheSame c d := by
  unfold SameShape outline at h
  simp only [Config.mk.injEq] at h
  obtain ⟨h1, h2, hdb, h4, h5, hapi, h7, h8, hnotifiers, h10, h11, hsources⟩ := h
  have hapi' : redact_api c.api = redact_api d.api := by
    rw [← redact_api_outline, hapi, redact_api_outline]
  unfold redact_config
  simp only [Config.mk.injEq, h1, h2, h4, h5, h7, h8, h10, h11, hapi', true_and,
    redact_database_eq_iff hdb, redact_sources_eq_iff hsources,
    redact_notifiers_eq_iff hnotifiers]
  constructor
  · rintro ⟨hp, ⟨hn, hr⟩, hf⟩
    exact ⟨hp, hf, hn, hr⟩
  · intro hg
    exact ⟨hg.postgres, ⟨hg.nats, hg.rabbitmq⟩, hg.feeds⟩

/-- Two configurations of one shape look the same to a reader exactly when none of the URLs that
stay visible makes a difference. The library writes both, and different configurations
differently. -/
theorem the_redacted_document_is_blind_unless_a_url_shows {c d : Config} (h : SameShape c d)
    {write : DesiredFormat → Config → Option String} {format : DesiredFormat}
    (hwrite : ∀ a b text, write format a = some text → write format b = some text → a = b)
    (hc : (write format (redact_config c)).isSome) (hd : (write format (redact_config d)).isSome) :
    redact_desired_document_with_format write format c =
        redact_desired_document_with_format write format d ↔ GivesAwayTheSame c d := by
  rw [← redact_config_eq_iff h]
  unfold redact_desired_document_with_format
  obtain ⟨text, htext⟩ := Option.isSome_iff_exists.mp hc
  obtain ⟨text', htext'⟩ := Option.isSome_iff_exists.mp hd
  constructor
  · intro he
    rw [htext, htext', Option.getD_some, Option.getD_some] at he
    exact hwrite _ _ text htext (he ▸ htext')
  · intro he
    rw [he]

/-- A feed with credentials in its URL. -/
def private_feed (password : String) : Config :=
  { sources := [.Feed
      { id := "blog", url := "https://reader:" ++ password ++ "@example.org/feed" }] }

/-- Two passwords of one feed are told apart in what is shown. -/
theorem a_feed_shows_its_password :
    SameShape (private_feed "a") (private_feed "b") ∧
      redact_config (private_feed "a") ≠ redact_config (private_feed "b") := by
  decide +kernel

/-- A store and a broker with the password in their URLs, and a feed that anyone may read. -/
def kept_in (password : String) : Config :=
  { database := { postgres_url := "postgres://app:" ++ password ++ "@db/releases" }
    sources := [.Feed { id := "blog", url := "https://example.org/feed" }]
    notifiers := [.Nats { url := "nats://app:" ++ password ++ "@bus", subject := "s" }] }

theorem the_redacted_document_is_blind_unless_a_url_shows_here :
    let write := fun (_ : DesiredFormat) (config : Config) =>
      if config = redact_config (kept_in "a") then some "shown" else none
    redact_desired_document_with_format write .Yaml (kept_in "a") =
      redact_desired_document_with_format write .Yaml (kept_in "b") := by
  refine (the_redacted_document_is_blind_unless_a_url_shows (by decide +kernel) ?_
    (by decide +kernel) (by decide +kernel)).mpr ⟨?_, ?_, ?_, ?_⟩
  · intro a b text ha hb
    simp only [Option.ite_none_right_eq_some] at ha hb
    rw [ha.1, hb.1]
  · exact (redact_url_eq_iff _ _).mp (by decide +kernel)
  · rintro (_ | i) f g hf hg
    · cases hf
      cases hg
      rfl
    · cases hf
  · rintro (_ | i) n m hn hm
    · cases hn
      cases hm
      exact (redact_url_eq_iff _ _).mp (by decide +kernel)
    · cases hn
  · rintro (_ | i) n m hn hm
    · cases hn
    · cases hn

end xrelease.shown
