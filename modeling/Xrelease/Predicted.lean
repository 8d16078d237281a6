-- What a dry run tells of the apply: sources that pass it build, and a notifier that passes it
-- builds when the secrets it names resolve and the libraries take its texts, which validation does
-- not ask; what does not pass it does not run.
import Xrelease.Rotated
import Xrelease.Validate

namespace xrelease.predicted

open xrelease.config xrelease.config_apply xrelease.outcomes xrelease.atomic xrelease.rotated
  xrelease.notify xrelease.validate text keyed.Table

/-! ## Findings -/

/-- No finding is an error. -/
def Clean (findings : List Finding) : Prop := ∀ finding ∈ findings, finding.error_text = none

theorem clean_append (a b : List Finding) : Clean (a ++ b) ↔ Clean a ∧ Clean b := by
  simp only [Clean, List.mem_append, or_imp, forall_and]

theorem clean_error_if (condition : Bool) (message : String) :
    Clean (error_if condition message) ↔ condition = false := by
  cases condition <;> simp [Clean, error_if, Finding.error_text]

theorem clean_warn_if (condition : Bool) (message : String) :
    Clean (warn_if condition message) := by
  cases condition <;> simp [Clean, warn_if, Finding.error_text]

theorem not_clean_error (message : String) : ¬ Clean [.error message] := by
  simp [Clean, Finding.error_text]

theorem clean_nil : Clean [] := by
  simp [Clean]

theorem valid_iff (findings : List Finding) :
    (report_of findings).valid = true ↔ Clean findings := by
  simp [report_of, Clean]

theorem strict_valid {strict : Bool} {report : ValidationReport}
    (h : (apply_strict strict report).valid = true) : report.valid = true := by
  unfold apply_strict at h
  split at h
  · simp at h
  · exact h

/-! ## A notifier -/

/-- The secrets of a notifier are there, where they stand or under the names it gives for them. -/
def Resolves : NotifierConfig → Prop
  | .Apprise n => n.config_key.isSome = true ∨ n.urls ≠ []
  | .Webhook n => blank n.url = false
  | .Express n => blank n.access_token = false
  | .Novu n => blank n.api_key = false
  | .Slack n =>
    blank n.webhook_url = false ∧ blank n.bot_token = true ∨
      blank n.webhook_url = true ∧ blank n.bot_token = false ∧ blank n.channel = false
  | .Telegram n => blank n.bot_token = false
  | .Smtp _ => True
  | .Kafka _ => True
  | .Nats n => blank n.url = false
  | .Rabbitmq n => blank n.url = false

/-- The libraries take the texts of a notifier that validation does not look at: the headers of a
webhook, the addresses and the relay of SMTP, the brokers of Kafka. -/
def Taken (libs : Libraries) : NotifierConfig → Prop
  | .Webhook n =>
    (∀ header ∈ n.headers,
        libs.header_name header.1 = true ∧ libs.header_value header.2 = true) ∧
      (blank n.secret = false →
        libs.header_name ((named n.signature_header).getD DEFAULT_SIGNATURE_HEADER) = true)
  | .Smtp n =>
    libs.mailbox n.from = true ∧ (∀ address ∈ n.to, libs.mailbox address = true) ∧
      smtp_mailer libs n = .ok ()
  | .Kafka n => libs.kafka_client (",".intercalate n.brokers) = .ok ()
  | _ => True

/-- What validation takes on trust of a notifier with its secrets resolved. -/
def Completes (libs : Libraries) (n : NotifierConfig) : Prop := Resolves n ∧ Taken libs n

theorem refused_ok_iff {c : Prop} {_ : Decidable c} (message : String) (x : Except String Unit) :
    (if c then misconfigured message else x) = .ok () ↔ ¬ c ∧ x = .ok () := by
  by_cases h : c
  · simp [h, misconfigured]
  · simp [h]

theorem accepted_ok_iff {c : Prop} {_ : Decidable c} (message : String) (x : Except String Unit) :
    (if c then x else misconfigured message) = .ok () ↔ c ∧ x = .ok () := by
  by_cases h : c
  · simp [h]
  · simp [h, misconfigured]

theorem require_non_empty_ok_iff (backend field value : String) :
    require_non_empty backend field value = .ok () ↔ blank value = false := by
  unfold require_non_empty
  rw [refused_ok_iff, and_iff_left rfl, Bool.not_eq_true]

theorem bind_unit_ok_iff {ε : Type} (x : Except ε Unit) (f : Unit → Except ε Unit) :
    x >>= f = .ok () ↔ x = .ok () ∧ f () = .ok () := by
  rw [bind_ok_iff]
  constructor
  · rintro ⟨u, hx, hf⟩
    exact ⟨hx, hf⟩
  · rintro ⟨hx, hf⟩
    exact ⟨(), hx, hf⟩

theorem check_headers_ok_iff (libs : Libraries) (headers : List (String × String)) :
    check_headers libs headers = .ok () ↔
      ∀ header ∈ headers, libs.header_name header.1 = true ∧ libs.header_value header.2 = true := by
  induction headers with
  | nil => simp [check_headers]
  | cons header rest ih =>
    rw [check_headers, bind_unit_ok_iff, List.forall_mem_cons, ← ih]
    unfold check_header
    rw [refused_ok_iff, refused_ok_iff, and_iff_left rfl, Bool.not_eq_false, Bool.not_eq_false]

theorem check_recipients_ok_iff (libs : Libraries) (addresses : List String) :
    check_recipients libs addresses = .ok () ↔
      ∀ address ∈ addresses, libs.mailbox address = true := by
  induction addresses with
  | nil => simp [check_recipients]
  | cons address rest ih =>
    rw [check_recipients, accepted_ok_iff, List.forall_mem_cons, ih]

theorem apprise_ok_iff (n : AppriseConfig) :
    AppriseNotifier.new n = .ok () ↔ n.config_key.isSome = true ∨ n.urls ≠ [] := by
  unfold AppriseNotifier.new
  by_cases h : n.config_key.isSome = true
  · simp [h]
  · rw [if_neg h, refused_ok_iff, and_iff_left rfl]
    simp [h]

theorem with_signing_ok_iff (libs : Libraries) (secret : String) (header : Option String) :
    WebhookNotifier.with_signing libs secret header = .ok () ↔
      (blank secret = false →
        libs.header_name ((named header).getD DEFAULT_SIGNATURE_HEADER) = true) := by
  unfold WebhookNotifier.with_signing
  by_cases h : blank secret = true
  · simp [h]
  · rw [if_neg h]
    simp only [accepted_ok_iff, and_true]
    rw [Bool.not_eq_true] at h
    simp [h]

theorem webhook_ok_iff (libs : Libraries) (n : WebhookCfg) :
    WebhookNotifier.new libs n = .ok () ↔ blank n.url = false ∧ ∀ header ∈ n.headers,
      libs.header_name header.1 = true ∧ libs.header_value header.2 = true := by
  unfold WebhookNotifier.new
  rw [refused_ok_iff, check_headers_ok_iff, Bool.not_eq_true]

theorem express_ok_iff {n : ExpressCfg} (hbase : blank n.base_url = false)
    (hgroup : blank n.group_chat_id = false) :
    ExpressNotifier.new n = .ok () ↔ blank n.access_token = false := by
  unfold ExpressNotifier.new
  simp only [bind_unit_ok_iff, require_non_empty_ok_iff, hbase, hgroup, true_and]

theorem novu_ok_iff {n : NovuCfg} (hbase : blank n.base_url = false)
    (hworkflow : blank n.workflow = false)
    (htarget : ¬ (named n.topic_key = none ∧ named n.subscriber_id = none)) :
    NovuNotifier.new n = .ok () ↔ blank n.api_key = false := by
  unfold NovuNotifier.new
  simp only [bind_unit_ok_iff, require_non_empty_ok_iff, refused_ok_iff, hbase, hworkflow, htarget,
    not_false_eq_true, true_and, and_true]

theorem slack_ok_iff (n : SlackCfg) :
    SlackNotifier.new n = .ok () ↔
      blank n.webhook_url = false ∧ blank n.bot_token = true ∨
        blank n.webhook_url = true ∧ blank n.bot_token = false ∧ blank n.channel = false := by
  unfold SlackNotifier.new
  cases blank n.webhook_url <;> cases blank n.bot_token
  · simp [misconfigured]
  · simp
  · simp only [Bool.not_true, Bool.not_false, refused_ok_iff, and_true, Bool.not_eq_true]
    simp
  · simp [misconfigured]

theorem telegram_ok_iff {n : TelegramCfg} (hchat : blank n.chat_id = false)
    (hmode : ∀ mode, named n.parse_mode = some mode → mode ∈ PARSE_MODES) :
    TelegramNotifier.new n = .ok () ↔ blank n.bot_token = false := by
  unfold TelegramNotifier.new
  simp only [bind_unit_ok_iff, require_non_empty_ok_iff, hchat, true_and]
  cases hm : named n.parse_mode with
  | none => simp
  | some mode => simp only [accepted_ok_iff, hmode mode hm, and_true]

variable {libs : Libraries} {vault : String → Option String} {server : Server} {process : Process}
  {scope : ApplyScope} {raw : String} {hint : Option DesiredFormat} {candidate : ScopedCandidate}

theorem smtp_ok_iff {n : SmtpCfg} (hhost : blank n.host = false) (hto : n.to ≠ []) :
    SmtpNotifier.new libs n = .ok () ↔
      libs.mailbox n.from = true ∧ (∀ address ∈ n.to, libs.mailbox address = true) ∧
        smtp_mailer libs n = .ok () := by
  unfold SmtpNotifier.new
  simp only [bind_unit_ok_iff, refused_ok_iff, check_recipients_ok_iff, hhost, hto,
    Bool.false_eq_true, not_false_eq_true, true_and, Bool.not_eq_false]

theorem kafka_ok_iff {n : KafkaCfg} (hbrokers : n.brokers ≠ []) (htopic : blank n.topic = false) :
    KafkaNotifier.new libs n = .ok () ↔
      libs.kafka_client (",".intercalate n.brokers) = .ok () := by
  unfold KafkaNotifier.new
  simp only [refused_ok_iff, hbrokers, htopic, Bool.false_eq_true, not_false_eq_true, true_and]
  cases libs.kafka_client (",".intercalate n.brokers) <;> simp

theorem nats_ok_iff {n : NatsCfg} (hsubject : blank n.subject = false) :
    NatsNotifier.new n = .ok () ↔ blank n.url = false := by
  unfold NatsNotifier.new
  simp only [refused_ok_iff, hsubject, Bool.false_eq_true, not_false_eq_true, and_true,
    Bool.not_eq_true]

theorem rabbitmq_ok_iff {n : RabbitmqCfg} (hkey : blank n.routing_key = false) :
    RabbitMqNotifier.new n = .ok () ↔ blank n.url = false := by
  unfold RabbitMqNotifier.new
  simp only [refused_ok_iff, hkey, Bool.false_eq_true, not_false_eq_true, and_true,
    Bool.not_eq_true]

/-- A notifier without findings is constructed exactly when the rest comes true; the secrets may be
others by then than when it was validated. -/
theorem construct_ok_iff (libs : Libraries) (env vault later : String → Option String)
    (json : JsonReaders) (index : Nat) (notifier : NotifierConfig)
    (h : Clean (validate_notifier_entry env vault index notifier)) :
    construct libs (resolve_notifier env later json notifier) = .ok () ↔
      Completes libs (resolve_notifier env later json notifier) := by
  cases notifier with
  | Apprise n =>
    refine Iff.trans ?_ (and_iff_left trivial).symm
    exact apprise_ok_iff _
  | Webhook n =>
    simp only [construct, resolve_notifier, Completes, Resolves, Taken]
    rw [bind_unit_ok_iff, webhook_ok_iff, with_signing_ok_iff, and_assoc]
  | Express n =>
    obtain ⟨h, -⟩ := (clean_append _ _).mp h
    obtain ⟨hbase, hgroup⟩ := (clean_append _ _).mp h
    refine Iff.trans ?_ (and_iff_left trivial).symm
    exact express_ok_iff ((clean_error_if _ _).mp hbase) ((clean_error_if _ _).mp hgroup)
  | Novu n =>
    obtain ⟨h, -⟩ := (clean_append _ _).mp h
    obtain ⟨h, htarget⟩ := (clean_append _ _).mp h
    obtain ⟨hbase, hworkflow⟩ := (clean_append _ _).mp h
    refine Iff.trans ?_ (and_iff_left trivial).symm
    refine novu_ok_iff ((clean_error_if _ _).mp hbase) ((clean_error_if _ _).mp hworkflow) ?_
    rintro ⟨htopic, hsubscriber⟩
    have htarget := (clean_error_if _ _).mp htarget
    simp only at htopic hsubscriber
    simp [htopic, hsubscriber] at htarget
  | Slack n =>
    simp only [construct, resolve_notifier, Completes, Resolves, Taken, and_true]
    rw [slack_ok_iff]
  | Telegram n =>
    obtain ⟨h, hmode⟩ := (clean_append _ _).mp h
    obtain ⟨hchat, -⟩ := (clean_append _ _).mp h
    refine Iff.trans ?_ (and_iff_left trivial).symm
    refine telegram_ok_iff ((clean_error_if _ _).mp hchat) ?_
    intro mode hm
    have hm : named n.parse_mode = some mode := hm
    unfold validate_parse_mode at hmode
    rw [hm] at hmode
    simpa using (clean_error_if _ _).mp hmode
  | Smtp n =>
    obtain ⟨h, -⟩ := (clean_append _ _).mp h
    obtain ⟨h, hto⟩ := (clean_append _ _).mp h
    obtain ⟨hhost, -⟩ := (clean_append _ _).mp h
    refine Iff.trans ?_ (and_iff_right trivial).symm
    exact smtp_ok_iff ((clean_error_if _ _).mp hhost)
      (of_decide_eq_false ((clean_error_if _ _).mp hto))
  | Kafka n =>
    obtain ⟨hbrokers, htopic⟩ := (clean_append _ _).mp h
    refine Iff.trans ?_ (and_iff_right trivial).symm
    exact kafka_ok_iff (of_decide_eq_false ((clean_error_if _ _).mp hbrokers))
      ((clean_error_if _ _).mp htopic)
  | Nats n =>
    obtain ⟨-, hsubject⟩ := (clean_append _ _).mp h
    refine Iff.trans ?_ (and_iff_left trivial).symm
    exact nats_ok_iff ((clean_error_if _ _).mp hsubject)
  | Rabbitmq n =>
    obtain ⟨-, hkey⟩ := (clean_append _ _).mp h
    refine Iff.trans ?_ (and_iff_left trivial).symm
    exact rabbitmq_ok_iff ((clean_error_if _ _).mp hkey)

/-! ## A configuration -/

theorem construct_with_endpoint (libs : Libraries) (env vault : String → Option String)
    (json : JsonReaders) (endpoint : Option String) (notifier : NotifierConfig) :
    construct libs (resolve_notifier env vault json (with_endpoint endpoint notifier)) =
      construct libs (resolve_notifier env vault json notifier) := by
  cases notifier <;> rfl

theorem clean_entries {env : String → Option String} {notifiers : List NotifierConfig} {index : Nat}
    (h : Clean (validate_entries env vault notifiers index)) :
    ∀ notifier ∈ notifiers, ∃ index, Clean (validate_notifier_entry env vault index notifier) := by
  induction notifiers generalizing index with
  | nil => simp
  | cons notifier rest ih =>
    obtain ⟨hfirst, hrest⟩ := (clean_append _ _).mp h
    exact List.forall_mem_cons.mpr ⟨⟨index, hfirst⟩, ih hrest⟩

theorem mapM_of_each {α β ε : Type} {f : α → Except ε β} {l : List α}
    (h : ∀ a ∈ l, ∃ b, f a = .ok b) : ∃ out, l.mapM f = .ok out := by
  induction l with
  | nil => exact ⟨[], rfl⟩
  | cons a rest ih =>
    obtain ⟨⟨b, hb⟩, hrest⟩ := List.forall_mem_cons.mp h
    obtain ⟨bs, hbs⟩ := ih hrest
    exact ⟨b :: bs, mapM_cons_ok_iff.mpr ⟨b, hb, bs, hbs, rfl⟩⟩

theorem build_sinks_of_each {make : NotifierConfig → Except String NotifierConfig}
    {endpoint : Option String} {notifiers : List NotifierConfig} (index : Nat)
    (h : ∀ notifier ∈ notifiers, ∃ options, make (with_endpoint endpoint notifier) = .ok options) :
    ∃ sinks, build_sinks make endpoint notifiers index = .ok sinks := by
  induction notifiers generalizing index with
  | nil => exact ⟨[], rfl⟩
  | cons notifier rest ih =>
    obtain ⟨⟨options, ho⟩, hrest⟩ := List.forall_mem_cons.mp h
    obtain ⟨sinks, hs⟩ := ih (index + 1) hrest
    exact ⟨_, build_sinks_cons_ok_iff.mpr ⟨options, sinks, ho, hs, rfl⟩⟩

/-- Watches build on every vault or on none. -/
theorem watches_build {makers : Makers} {env : String → Option String} {config : Config}
    {watches : List Watch} (h : to_watches makers env vault config = .ok watches)
    (later : String → Option String) :
    ∃ watches, to_watches makers env later config = .ok watches := by
  refine mapM_of_each fun source hsource => ?_
  obtain ⟨watch, hwatch⟩ := mapM_each h source hsource
  rw [watch_of_vault makers env vault later, hwatch]
  exact ⟨_, rfl⟩

/-- Every notifier, with its secrets resolved on this vault, is such. -/
def Each (such : NotifierConfig → Prop) (server : Server) (vault : String → Option String)
    (config : Config) : Prop :=
  ∀ notifier ∈ config.notifiers,
    such (resolve_notifier server.setup.env vault server.makers.json notifier)

/-- A valid configuration swaps in exactly when its notifiers come true. -/
theorem valid_swaps_iff (hbuilt : AsBuilt libs server) {config : Config}
    (h : (server.validate_full vault config).valid = true) :
    (∃ swapped, apply_runtime server process config = .ok swapped) ↔
      Each (Completes libs) server process.secrets.vault config := by
  rw [hbuilt.validate_full] at h
  have hclean := (valid_iff _).mp h
  obtain ⟨hclean, hsources⟩ := (clean_append _ _).mp hclean
  simp only [clean_append] at hclean
  obtain ⟨⟨⟨⟨⟨hnotifiers, -⟩, -⟩, -⟩, -⟩, -⟩ := hclean
  obtain ⟨-, hentries⟩ := (clean_append _ _).mp hnotifiers
  obtain ⟨-, hwatches⟩ := (clean_append _ _).mp hsources
  have hwatches : ∃ watches, to_watches server.makers server.setup.env process.secrets.vault config =
      .ok watches := by
    cases hw : to_watches server.makers server.setup.env vault config with
    | error err =>
      rw [hw] at hwatches
      exact absurd hwatches (not_clean_error _)
    | ok watches => exact watches_build hw _
  have hsink : ∀ notifier ∈ config.notifiers,
      ((∃ options, build server.setup.env process.secrets.vault server.makers.json
          server.makers.construct (with_endpoint
            (named (server.setup.env "XRELEASE_APPRISE_ENDPOINT")) notifier) = .ok options) ↔
        Completes libs (resolve_notifier server.setup.env process.secrets.vault
          server.makers.json notifier)) := by
    intro notifier hn
    obtain ⟨index, hentry⟩ := clean_entries hentries notifier hn
    simp only [build_ok_iff, exists_eq_left', hbuilt.construct, construct_with_endpoint]
    exact construct_ok_iff libs _ vault _ _ index notifier hentry
  constructor
  · rintro ⟨swapped, hswap⟩ notifier hn
    obtain ⟨-, sinks, -, hsinks, -⟩ := (apply_runtime_ok_iff _ _ _ _).mp hswap
    exact (hsink notifier hn).mp (build_sinks_each hsinks notifier hn)
  · intro htrusted
    obtain ⟨watches, hwatches⟩ := hwatches
    obtain ⟨sinks, hsinks⟩ :=
      build_sinks_of_each 0 fun notifier hn => (hsink notifier hn).mpr (htrusted notifier hn)
    exact ⟨_, (apply_runtime_ok_iff _ _ _ _).mpr ⟨watches, sinks, hwatches, hsinks, rfl⟩⟩

/-! ## An apply after a dry run -/

theorem composed_bootstrap {setup : Setup} {ledger : List ConfigRevision} {bootstrap : Config}
    {override_document : Option (String × String)} {composed : ComposedOrganizations}
    (h : compose_organizations setup ledger bootstrap override_document = .ok composed) :
    composed.merged.config_api = bootstrap.config_api := by
  unfold compose_organizations at h
  rw [bind_ok_iff] at h
  obtain ⟨st, -, h⟩ := h
  split at h
  · simp at h
  · simp only at h
    split at h
    · simp at h
    · obtain rfl := Except.ok.inj h
      rfl

/-- No document and no variable says where the authority is. -/
theorem candidate_source {faults : Faults}
    (h : resolve_scoped_candidate server faults process scope raw hint = .ok candidate) :
    candidate.merged.config_api.source = server.bootstrap.config_api.source := by
  cases scope with
  | Whole =>
    obtain ⟨parsed, desired, -, -, -, -, -, hmerged, -⟩ := resolved_whole h
    rw [hmerged]
    rfl
  | Organization organization =>
    obtain ⟨-, -, -, -, -, composed, -, -, -, -, -, -, -, hcomposed, hmerged, -⟩ :=
      resolved_organization h
    rw [hmerged, composed_bootstrap hcomposed]

theorem candidate_prunes
    (h : resolve_scoped_candidate server {} process scope raw hint = .ok candidate) :
    ∃ stale, Prunes server {} process scope candidate stale := by
  unfold Prunes stale_names previous_secret_env_refs
  cases scope with
  | Whole => exact ⟨_, rfl, Or.inr rfl⟩
  | Organization organization =>
    obtain ⟨-, org, previous_raw, desired_source, -, -, -, -, horg, hprevious, -⟩ :=
      resolved_organization h
    simp only [horg, hprevious, refusing, failing, bind, Except.bind, pure, Except.pure]
    exact ⟨_, rfl, Or.inr True.intro⟩

/-- Where the ledger is bootable a valid configuration comes with a key to seal with. -/
theorem valid_seals (hbuilt : AsBuilt libs server) (hkey : server.sealable =
      (key_env_present server.setup.env || plaintext_ledger_allowed server.setup.env))
    {config : Config} (hmode : config.config_api.source = .Api)
    (h : (server.validate_full vault config).valid = true) : server.sealable = true := by
  rw [hbuilt.validate_full] at h
  have hclean := (valid_iff _).mp h
  simp only [clean_append] at hclean
  obtain ⟨⟨⟨⟨⟨-, hconfig_api⟩, -⟩, -⟩, -⟩, -⟩ := hclean
  obtain ⟨-, hsealed⟩ := (clean_append _ _).mp hconfig_api
  rw [hkey]
  cases hk : key_env_present server.setup.env with
  | true => rfl
  | false =>
    rw [if_pos ⟨hmode, hk⟩] at hsealed
    split at hsealed
    · rename_i hplain
      simpa using hplain
    · exact absurd hsealed (not_clean_error _)

theorem settled_answers (hint : Option DesiredFormat)
    (h : IsCurrent process scope (server.setup.sha256 raw)) :
    ∃ answer, (apply_document server {} process scope raw hint).1 = .ok answer := by
  unfold apply_document
  rcases current_filter process scope (server.setup.sha256 raw) with
    ⟨-, current, hcurrent⟩ | ⟨hpushed, -⟩
  · simp only
    rw [hcurrent]
    exact ⟨_, rfl⟩
  · exact absurd h hpushed

theorem unrotated_answers (hnews : ¬ IsCurrent process scope (server.setup.sha256 raw))
    (hresolved : resolve_scoped_candidate server {} process scope raw hint = .ok candidate)
    (hsame : IsCurrent process scope candidate.ledger_sha) (hrotations :
      effective_secret_rotations process.secrets.vault candidate.secret_writes = []) :
    ∃ answer, (apply_document server {} process scope raw hint).1 = .ok answer := by
  unfold apply_document
  rcases current_filter process scope (server.setup.sha256 raw) with
    ⟨hpushed, -⟩ | ⟨-, hcurrent⟩
  · exact absurd hpushed hnews
  · simp only
    rw [hcurrent]
    simp only [hresolved]
    rcases current_filter process scope candidate.ledger_sha with
      ⟨-, current, hcurrent'⟩ | ⟨hdiffers, -⟩
    · rw [hcurrent']
      simp only
      rw [if_pos hrotations]
      exact ⟨_, rfl⟩
    · exact absurd hsame hdiffers

/-- Nothing is to be swapped in, or every notifier is such once the candidate's secrets are kept. -/
def ComesTrue (such : NotifierConfig → Prop) (server : Server) (process : Process)
    (scope : ApplyScope) (raw : String) (hint : Option DesiredFormat) : Prop :=
  IsCurrent process scope (server.setup.sha256 raw) ∨
    ∀ candidate, resolve_scoped_candidate server {} process scope raw hint = .ok candidate →
      IsCurrent process scope candidate.ledger_sha ∨
        ∀ stale, Prunes server {} process scope candidate stale →
          Each such server (pruned server process candidate stale).vault candidate.merged

theorem ComesTrue.and {such other : NotifierConfig → Prop}
    (h : ComesTrue such server process scope raw hint)
    (h' : ComesTrue other server process scope raw hint) :
    ComesTrue (fun n => such n ∧ other n) server process scope raw hint := by
  rcases h with h | h
  · exact Or.inl h
  rcases h' with h' | h'
  · exact Or.inl h'
  refine Or.inr fun candidate hc => ?_
  rcases h candidate hc with h | h
  · exact Or.inl h
  rcases h' candidate hc with h' | h'
  · exact Or.inl h'
  exact Or.inr fun stale hp notifier hn => ⟨h stale hp notifier hn, h' stale hp notifier hn⟩

theorem ComesTrue.imp {such other : NotifierConfig → Prop}
    (h : ComesTrue such server process scope raw hint) (himp : ∀ n, such n → other n) :
    ComesTrue other server process scope raw hint :=
  h.imp_right fun h candidate hc => (h candidate hc).imp_right
    fun h stale hp notifier hn => himp _ (h stale hp notifier hn)

/-- The same runs as before. -/
structure SameRuntime (process process' : Process) : Prop where
  effective : process'.effective = process.effective
  sinks : process'.sinks = process.sinks
  watches : process'.watches = process.watches

theorem validated {faults : Faults} {strict : Bool} {response : ValidateResponse}
    (h : validate_document server faults process scope raw hint strict = .ok response) :
    ∃ candidate, resolve_scoped_candidate server faults process scope raw hint = .ok candidate ∧
      response.valid = (apply_strict strict
        (server.validate_full process.secrets.vault candidate.merged)).valid := by
  unfold validate_document at h
  rw [bind_ok_iff] at h
  obtain ⟨candidate, hcandidate, h⟩ := h
  simp only [pure, Except.pure, Except.ok.injEq] at h
  exact ⟨candidate, hcandidate, by rw [← h]⟩

theorem answers_iff (hbuilt : AsBuilt libs server)
    (hmode : server.bootstrap.config_api.source = .Api) (hkey : server.sealable =
      (key_env_present server.setup.env || plaintext_ledger_allowed server.setup.env))
    (hresolved : resolve_scoped_candidate server {} process scope raw hint = .ok candidate)
    (hvalid : (server.validate_full process.secrets.vault candidate.merged).valid = true) :
    (∃ answer, (apply_document server {} process scope raw hint).1 = .ok answer) ↔
      ComesTrue (Completes libs) server process scope raw hint := by
  have hsame : ∀ c, resolve_scoped_candidate server {} process scope raw hint = .ok c →
      c = candidate := fun c hc => Except.ok.inj (hc.symm.trans hresolved)
  by_cases hpushed : IsCurrent process scope (server.setup.sha256 raw)
  · exact ⟨fun _ => Or.inl hpushed, fun _ => settled_answers hint hpushed⟩
  by_cases hrotates : IsCurrent process scope candidate.ledger_sha →
      effective_secret_rotations process.secrets.vault candidate.secret_writes ≠ []
  · have hreach : Reaches server {} process scope raw hint candidate :=
      ⟨rfl, hpushed, hresolved, hrotates, hvalid⟩
    obtain ⟨stale, hprunes⟩ := candidate_prunes hresolved
    have hseals : Seals server {} candidate :=
      Or.inr ⟨valid_seals hbuilt hkey ((candidate_source hresolved).trans hmode) hvalid, rfl⟩
    have hswaps : (∃ swapped, apply_runtime server (kept server process candidate stale)
        candidate.merged = .ok swapped) ↔
        Each (Completes libs) server (pruned server process candidate stale).vault candidate.merged :=
      valid_swaps_iff hbuilt hvalid
    have hcomes : ComesTrue (Completes libs) server process scope raw hint ↔
        IsCurrent process scope candidate.ledger_sha ∨
          Each (Completes libs) server (pruned server process candidate stale).vault candidate.merged := by
      unfold ComesTrue
      constructor
      · rintro (h | h)
        · exact absurd h hpushed
        · rcases h candidate hresolved with h | h
          · exact Or.inl h
          · exact Or.inr (h stale hprunes)
      · rintro h
        refine Or.inr fun c hc => ?_
        obtain rfl := hsame c hc
        refine h.imp_right fun h stale' hp => ?_
        obtain rfl := prunes_unique hprunes hp
        exact h
    rw [hcomes, ← hswaps]
    have hout := apply_outcome server {} process scope raw hint
    generalize (apply_document server {} process scope raw hint).1 = answer at hout ⊢
    generalize (apply_document server {} process scope raw hint).2 = process' at hout
    cases hout with
    | refused err rows unreached => exact absurd hreach (unreached candidate)
    | unchanged response applied unreached => exact absurd hreach (unreached candidate)
    | not_sealed c err vault reached unsealed =>
      obtain rfl := reaches_unique hreach reached
      exact absurd hseals unsealed
    | not_pruned c err vault reached seals unpruned =>
      obtain rfl := reaches_unique hreach reached
      exact absurd hprunes (unpruned stale)
    | rotated c stale' response reached current =>
      obtain rfl := reaches_unique hreach reached
      exact ⟨fun _ => Or.inl current, fun _ => ⟨response, rfl⟩⟩
    | not_swapped c stale' err kept kept_eq reached news seals prunes unswapped =>
      obtain rfl := reaches_unique hreach reached
      obtain rfl := prunes_unique hprunes prunes
      subst kept_eq
      constructor
      · rintro ⟨answer, h⟩
        simp at h
      · rintro (h | ⟨swapped, h⟩)
        · exact absurd h news
        · exact absurd h (unswapped swapped)
    | swapped_back c stale' err kept swapped back kept_eq reached news seals prunes swaps
        unrecorded => exact absurd rfl unrecorded
    | stuck c stale' err kept swapped kept_eq reached news seals prunes swaps unrecorded =>
      exact absurd rfl unrecorded
    | recorded c stale' response kept swapped kept_eq reached news seals prunes swaps =>
      obtain rfl := reaches_unique hreach reached
      obtain rfl := prunes_unique hprunes prunes
      subst kept_eq
      exact ⟨fun _ => Or.inr ⟨swapped, swaps⟩, fun _ => ⟨response, rfl⟩⟩
  · rw [Classical.not_imp, not_not] at hrotates
    refine ⟨fun _ => Or.inr fun c hc => ?_,
      fun _ => unrotated_answers hpushed hresolved hrotates.1 hrotates.2⟩
    obtain rfl := hsame c hc
    exact Or.inl hrotates.1

/-- What does not pass validation does not run. -/
theorem unreached_runtime {faults : Faults} {process' : Process}
    {answer : Except ApplyError ApplyResponse}
    (hun : ∀ candidate, ¬ Reaches server faults process scope raw hint candidate)
    (h : Outcome server faults process scope raw hint answer process') :
    SameRuntime process process' := by
  cases h with
  | refused | unchanged => exact ⟨rfl, rfl, rfl⟩
  | not_sealed c _ _ reached => exact absurd reached (hun c)
  | not_pruned c _ _ reached => exact absurd reached (hun c)
  | rotated c _ _ reached => exact absurd reached (hun c)
  | not_swapped c _ _ _ _ reached => exact absurd reached (hun c)
  | swapped_back c _ _ _ _ _ _ reached => exact absurd reached (hun c)
  | stuck c _ _ _ _ _ reached => exact absurd reached (hun c)
  | recorded c _ _ _ _ _ reached => exact absurd reached (hun c)

/-! ## The law -/

/-- A dry run that calls the document valid is followed by an apply without an error. -/
def ForetellsSuccess (server : Server) (process : Process) (scope : ApplyScope) (raw : String)
    (hint : Option DesiredFormat) (strict : Bool) : Prop :=
  ∀ response, validate_document server {} process scope raw hint strict = .ok response →
    response.valid = true →
      ∃ answer, (apply_document server {} process scope raw hint).1 = .ok answer

/-- A dry run that calls the document invalid, or fails, is followed by an apply that leaves the
runtime. -/
def ForetellsFailure (server : Server) (faults : Faults) (process : Process) (scope : ApplyScope)
    (raw : String) (hint : Option DesiredFormat) (strict : Bool) : Prop :=
  (∀ response, validate_document server faults process scope raw hint strict = .ok response →
      response.valid = false) →
    SameRuntime process (apply_document server faults process scope raw hint).2

/-- A valid document whose texts the libraries take applies exactly when its secrets are there,
which it need not ask where nothing is swapped in; and what is invalid, or no document, does not
run, unless it is only the warnings that were taken for errors. -/
theorem a_valid_document_applies_when_its_notifiers_come_true {libs : Libraries} {server : Server}
    (hbuilt : AsBuilt libs server) (hmode : server.bootstrap.config_api.source = .Api)
    (hkey : server.sealable =
      (key_env_present server.setup.env || plaintext_ledger_allowed server.setup.env))
    (process : Process) (scope : ApplyScope) (raw : String) (hint : Option DesiredFormat) :
    (∀ strict response, validate_document server {} process scope raw hint strict = .ok response →
      response.valid = true → ComesTrue (Taken libs) server process scope raw hint →
      ((∃ answer, (apply_document server {} process scope raw hint).1 = .ok answer) ↔
        ComesTrue Resolves server process scope raw hint)) ∧
      ∀ faults, ForetellsFailure server faults process scope raw hint false := by
  constructor
  · intro strict response h hvalid htaken
    obtain ⟨candidate, hresolved, hsame⟩ := validated h
    rw [hsame] at hvalid
    rw [answers_iff hbuilt hmode hkey hresolved (strict_valid hvalid)]
    exact ⟨fun h => h.imp fun _ h => h.1, fun h => h.and htaken⟩
  · intro faults hinvalid
    refine unreached_runtime (fun candidate hreach => ?_)
      (apply_outcome server faults process scope raw hint)
    have hdry : validate_document server faults process scope raw hint false = .ok
        ⟨(server.validate_full process.secrets.vault candidate.merged).valid,
          server.setup.sha256 raw, server.validate_full process.secrets.vault candidate.merged⟩ := by
      unfold validate_document
      rw [hreach.resolved]
      simp [apply_strict, bind, Except.bind, pure, Except.pure]
    have hfalse := hinvalid _ hdry
    rw [hreach.valid] at hfalse
    simp at hfalse

/-! ## A URL that is only named -/

/-- A sink whose URL is in a variable. -/
def pipe : DesiredWire := ⟨none, [.Nats { url_env := some "N", subject := "s" }], [], [], []⟩

def pipe_text : String :=
  "[[notifiers]]\ntype = \"nats\"\ntags = []\nurl = \"\"\nurl_env = \"N\"\nsubject = \"s\"\n"

/-- One team, and nothing to watch. -/
def crew : DesiredWire := ⟨none, [], [{ tag := "a" }], [], []⟩

def crew_text : String := "[[teams]]\ntag = \"a\"\n"

def lenient : Libraries where
  header_name := fun _ => true
  header_value := fun _ => true
  mailbox := fun _ => true
  starttls_relay := fun _ => .ok ()
  tls_parameters := fun _ => .ok ()
  kafka_client := fun _ => .ok ()
  socket_addr := fun _ => true

/-- The environment of the desk: keys, and the URL where it is given. -/
def desk_env (url : Option String) : Env := fun name =>
  if name = "XRELEASE_CONFIG_ENCRYPTION_KEY" then some "key"
  else if name = "XRELEASE_API_KEY" then some "api"
  else if name = "N" then url
  else none

def desk (url : Option String) : Server :=
  let server := bench [(.Toml, pipe, pipe_text), (.Toml, crew, crew_text)]
  let makers := { server.makers with construct := construct lenient }
  { server with
    setup := { server.setup with env := desk_env url }
    makers
    validate_full := validate.validate_full lenient makers (desk_env url) }

theorem desk_as_built (url : Option String) : AsBuilt lenient (desk url) := ⟨rfl, rfl⟩

def idle : Process where
  secrets := ⟨fun _ => none, fun _ => none⟩
  ledger := []
  effective := (bench []).bootstrap
  sinks := []
  watches := []

/-- The variable is not set: the document is valid and is not applied. And a document without
sources, of which strict validation makes an error, is. -/
theorem a_named_url_need_not_be_there :
    ¬ ForetellsSuccess (desk none) idle .Whole pipe_text none false ∧
      ¬ ForetellsFailure (desk none) {} idle .Whole crew_text none true := by
  constructor
  · intro h
    have hvalid : (validate_document (desk none) {} idle .Whole pipe_text none false).map
        (·.valid) = .ok true := by
      decide +kernel
    have hfails : (apply_document (desk none) {} idle .Whole pipe_text none).1 = .error
        (.Failed "notifier #0 ([[notifiers]]): notifier misconfigured: nats `url` must not be empty") := by
      decide +kernel
    cases hdry : validate_document (desk none) {} idle .Whole pipe_text none false with
    | error err => simp [hdry, Except.map] at hvalid
    | ok response =>
      rw [hdry] at hvalid
      obtain ⟨answer, hanswer⟩ := h response hdry (Except.ok.inj hvalid)
      rw [hfails] at hanswer
      simp at hanswer
  · intro h
    have hinvalid : (validate_document (desk none) {} idle .Whole crew_text none true).map
        (·.valid) = .ok false := by
      decide +kernel
    have hruns := h fun response hdry => by
      rw [hdry] at hinvalid
      exact Except.ok.inj hinvalid
    have hnews : (apply_document (desk none) {} idle .Whole crew_text none).2.effective ≠
        idle.effective := by
      decide +kernel
    exact hnews hruns.effective

theorem a_valid_document_applies_when_its_notifiers_come_true_here :
    (∃ answer, (apply_document (desk (some "nats://n")) {} idle .Whole pipe_text none).1 =
        .ok answer) ∧
      ComesTrue Resolves (desk (some "nats://n")) idle .Whole pipe_text none := by
  have hvalid : (validate_document (desk (some "nats://n")) {} idle .Whole pipe_text none false).map
      (·.valid) = .ok true := by
    decide +kernel
  have htaken : ComesTrue (Taken lenient) (desk (some "nats://n")) idle .Whole pipe_text none := by
    refine Or.inr fun candidate _ => Or.inr fun stale _ notifier _ => ?_
    cases resolve_notifier (desk (some "nats://n")).setup.env
        (pruned (desk (some "nats://n")) idle candidate stale).vault
        (desk (some "nats://n")).makers.json notifier with
    | Webhook n => exact ⟨fun _ _ => ⟨rfl, rfl⟩, fun _ => rfl⟩
    | Smtp n => exact ⟨rfl, fun _ _ => rfl, by unfold smtp_mailer; cases n.tls <;> rfl⟩
    | Kafka n => exact rfl
    | _ => trivial
  have happlied : ∃ answer, (apply_document (desk (some "nats://n")) {} idle .Whole pipe_text
      none).1 = .ok answer := by
    have hok : (apply_document (desk (some "nats://n")) {} idle .Whole pipe_text none).1.isOk =
        true := by
      decide +kernel
    cases hanswer : (apply_document (desk (some "nats://n")) {} idle .Whole pipe_text none).1 with
    | error err => simp [hanswer, Except.isOk, Except.toBool] at hok
    | ok answer => exact ⟨answer, rfl⟩
  cases hdry : validate_document (desk (some "nats://n")) {} idle .Whole pipe_text none false with
  | error err => simp [hdry, Except.map] at hvalid
  | ok response =>
    rw [hdry] at hvalid
    exact ⟨happlied, ((a_valid_document_applies_when_its_notifiers_come_true
      (desk_as_built _) rfl (by decide +kernel) idle .Whole pipe_text none).1 false response hdry
      (Except.ok.inj hvalid) htaken).mp happlied⟩

end xrelease.predicted
