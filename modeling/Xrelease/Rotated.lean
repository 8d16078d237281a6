-- When secrets that were applied are used: at once where the runtime is swapped, and where only
-- values were rotated, by nothing that runs, for the sinks and watches keep what they were built
-- with.
import Xrelease.Atomic

namespace xrelease.rotated

open xrelease.config xrelease.config_apply xrelease.outcomes xrelease.atomic text

/-! ## What runs on a vault -/

/-- The sinks and watches of a process are those that are built with this vault. -/
structure RunsOn (server : Server) (vault : String → Option String) (process : Process) : Prop where
  sinks : build_notifiers server.makers server.setup.env vault process.effective =
    .ok process.sinks
  watches : to_watches server.makers server.setup.env vault process.effective =
    .ok process.watches

/-- Every secret of the configuration resolves to the same value in both vaults. -/
structure SameSlots (server : Server) (vault vault' : String → Option String) (config : Config) :
    Prop where
  notifiers : ∀ notifier ∈ config.notifiers,
    let sink := with_endpoint (named (server.setup.env "XRELEASE_APPRISE_ENDPOINT")) notifier
    resolve_notifier server.setup.env vault' server.makers.json sink =
      resolve_notifier server.setup.env vault server.makers.json sink
  sources : ∀ source ∈ config.sources,
    provider_of server.setup.env vault' source = provider_of server.setup.env vault source

theorem build_ok_iff (env vault : String → Option String) (json : JsonReaders)
    (construct : NotifierConfig → Except String Unit) (notifier options : NotifierConfig) :
    build env vault json construct notifier = .ok options ↔
      resolve_notifier env vault json notifier = options ∧ construct options = .ok () := by
  unfold build
  constructor
  · intro h
    cases hc : construct (resolve_notifier env vault json notifier) with
    | error err => simp [hc, bind, Except.bind] at h
    | ok u =>
      simp only [hc, bind, Except.bind, pure, Except.pure, Except.ok.injEq] at h
      subst h
      exact ⟨rfl, hc⟩
  · rintro ⟨rfl, hc⟩
    simp only [hc, bind, Except.bind, pure, Except.pure]

theorem build_sinks_alike {make make' : NotifierConfig → Except String NotifierConfig}
    {endpoint : Option String} {notifiers : List NotifierConfig} {index : Nat}
    {sinks : List BuiltSink} (h : build_sinks make endpoint notifiers index = .ok sinks) :
    build_sinks make' endpoint notifiers index = .ok sinks ↔
      ∀ notifier ∈ notifiers, make' (with_endpoint endpoint notifier) =
        make (with_endpoint endpoint notifier) := by
  induction notifiers generalizing index sinks with
  | nil => exact ⟨fun _ => by simp, fun _ => h⟩
  | cons notifier rest ih =>
    obtain ⟨options, built, hmake, hrest, rfl⟩ := build_sinks_cons_ok_iff.mp h
    rw [build_sinks_cons_ok_iff, List.forall_mem_cons, hmake, ← ih hrest]
    constructor
    · rintro ⟨options', built', hmake', hrest', heq⟩
      obtain ⟨hsink, rfl⟩ := List.cons.inj heq
      obtain rfl := congrArg BuiltSink.options hsink
      exact ⟨hmake', hrest'⟩
    · rintro ⟨hmake', hrest'⟩
      exact ⟨options, built, hmake', hrest', rfl⟩

theorem build_sinks_each {make : NotifierConfig → Except String NotifierConfig}
    {endpoint : Option String} {notifiers : List NotifierConfig} {index : Nat}
    {sinks : List BuiltSink} (h : build_sinks make endpoint notifiers index = .ok sinks) :
    ∀ notifier ∈ notifiers, ∃ options, make (with_endpoint endpoint notifier) = .ok options := by
  induction notifiers generalizing index sinks with
  | nil => simp
  | cons notifier rest ih =>
    obtain ⟨options, built, hmake, hrest, -⟩ := build_sinks_cons_ok_iff.mp h
    exact List.forall_mem_cons.mpr ⟨⟨options, hmake⟩, ih hrest⟩

theorem mapM_alike {α β ε : Type} {f g : α → Except ε β} {l : List α} {out : List β}
    (h : l.mapM f = .ok out) : l.mapM g = .ok out ↔ ∀ a ∈ l, g a = f a := by
  induction l generalizing out with
  | nil => exact ⟨fun _ => by simp, fun _ => h⟩
  | cons a rest ih =>
    obtain ⟨b, hf, bs, hr, rfl⟩ := mapM_cons_ok_iff.mp h
    rw [mapM_cons_ok_iff, List.forall_mem_cons, hf, ← ih hr]
    constructor
    · rintro ⟨b', hb', bs', hbs', heq⟩
      obtain ⟨rfl, rfl⟩ := List.cons.inj heq
      exact ⟨hb', hbs'⟩
    · exact fun ⟨hb', hbs'⟩ => ⟨b, hb', bs, hbs', rfl⟩

/-- A watch depends on the vault only by its client. -/
theorem watch_of_vault (makers : Makers) (env vault vault' : String → Option String)
    (defaults : Defaults) (presets : List (String × SourcePreset)) (source : SourceConfig) :
    watch_of makers env vault' defaults presets source =
      (watch_of makers env vault defaults presets source).map
        (fun watch => { watch with provider := provider_of env vault' source }) := by
  unfold watch_of into_watch
  simp only
  cases provider_error source (source.explicit_id.getD (built_id source)) with
  | some err => rfl
  | none =>
    simp only [build_watch]
    cases with_preset_resolved source.common presets
        (source.explicit_id.getD (built_id source)) with
    | error err => rfl
    | ok resolved =>
      cases hf : build_filter makers.readers resolved
          (source.explicit_id.getD (built_id source)) with
      | error err => simp [bind, Except.bind, hf, Except.map]
      | ok filter =>
        cases hs : resolve_notify_schedule makers.readers resolved defaults with
        | error err => simp [bind, Except.bind, hf, hs, Except.map]
        | ok schedule => simp [bind, Except.bind, hf, hs, pure, Except.pure, Except.map]

theorem watch_provider {makers : Makers} {env vault : String → Option String}
    {defaults : Defaults} {presets : List (String × SourcePreset)} {source : SourceConfig}
    {watch : Watch} (h : watch_of makers env vault defaults presets source = .ok watch) :
    watch.provider = provider_of env vault source := by
  have hself := watch_of_vault makers env vault vault defaults presets source
  rw [h] at hself
  exact congrArg Watch.provider (Except.ok.inj hself)

/-- What was built with one vault is what is built with another exactly when every secret
resolves alike. -/
theorem runs_on_iff {server : Server} {vault vault' : String → Option String} {process : Process}
    (h : RunsOn server vault process) :
    RunsOn server vault' process ↔ SameSlots server vault vault' process.effective := by
  have hsinks := h.sinks
  have hwatches := h.watches
  unfold build_notifiers at hsinks
  unfold to_watches at hwatches
  have hsink : ∀ notifier ∈ process.effective.notifiers, ∀ sink,
      sink = with_endpoint (named (server.setup.env "XRELEASE_APPRISE_ENDPOINT")) notifier →
      (build server.setup.env vault' server.makers.json server.makers.construct sink =
          build server.setup.env vault server.makers.json server.makers.construct sink ↔
        resolve_notifier server.setup.env vault' server.makers.json sink =
          resolve_notifier server.setup.env vault server.makers.json sink) := by
    rintro notifier hn sink rfl
    obtain ⟨options, ho⟩ := build_sinks_each hsinks notifier hn
    obtain ⟨hr, hc⟩ := (build_ok_iff _ _ _ _ _ _).mp ho
    rw [ho, build_ok_iff, hr]
    exact ⟨fun h => h.1, fun h => ⟨h, hc⟩⟩
  have hwatch : ∀ source ∈ process.effective.sources,
      (watch_of server.makers server.setup.env vault' process.effective.defaults
          (effective_source_presets process.effective.presets) source =
        watch_of server.makers server.setup.env vault process.effective.defaults
          (effective_source_presets process.effective.presets) source ↔
        provider_of server.setup.env vault' source =
          provider_of server.setup.env vault source) := by
    intro source hs
    obtain ⟨watch, hw⟩ := mapM_each hwatches source hs
    rw [watch_of_vault server.makers server.setup.env vault vault', hw, ← watch_provider hw]
    constructor
    · intro h
      exact congrArg Watch.provider (Except.ok.inj h)
    · intro h
      rw [h]
      rfl
  constructor
  · intro h'
    have hs' := (build_sinks_alike hsinks).mp h'.sinks
    have hw' := (mapM_alike hwatches).mp h'.watches
    refine ⟨?_, ?_⟩
    · intro notifier hn
      exact (hsink notifier hn _ rfl).mp (hs' notifier hn)
    · intro source hs
      exact (hwatch source hs).mp (hw' source hs)
  · intro hsame
    refine ⟨(build_sinks_alike hsinks).mpr ?_, (mapM_alike hwatches).mpr ?_⟩
    · intro notifier hn
      exact (hsink notifier hn _ rfl).mpr (hsame.notifiers notifier hn)
    · intro source hs
      exact (hwatch source hs).mpr (hsame.sources source hs)

/-! ## The law -/

/-- An apply that says so runs on the vault that it leaves. -/
def TakesEffect (server : Server) (faults : Faults) (process : Process) (scope : ApplyScope)
    (raw : String) (hint : Option DesiredFormat) : Prop :=
  ∀ response, (apply_document server faults process scope raw hint).1 = .ok response →
    response.applied = true →
      RunsOn server (apply_document server faults process scope raw hint).2.secrets.vault
        (apply_document server faults process scope raw hint).2

/-- Where the body is the current one, the secrets that are kept resolve every slot of the running
configuration to the value that it runs with. -/
def KeepsSlots (server : Server) (faults : Faults) (process : Process) (scope : ApplyScope)
    (raw : String) (hint : Option DesiredFormat) (vault : String → Option String) : Prop :=
  ∀ candidate stale, Reaches server faults process scope raw hint candidate →
    Seals server faults candidate → Prunes server faults process scope candidate stale →
    IsCurrent process scope candidate.ledger_sha →
      SameSlots server vault (pruned server process candidate stale).vault process.effective

theorem effect_of_outcome {server : Server} {faults : Faults} {process : Process}
    {scope : ApplyScope} {raw : String} {hint : Option DesiredFormat}
    {vault : String → Option String} (hlive : RunsOn server vault process)
    {answer : Except ApplyError ApplyResponse} {process' : Process}
    (h : Outcome server faults process scope raw hint answer process') :
    (∀ response, answer = .ok response → response.applied = true →
        RunsOn server process'.secrets.vault process') ↔
      KeepsSlots server faults process scope raw hint vault := by
  cases h with
  | refused err rows unreached rejected =>
    exact ⟨fun _ c _ hc => absurd hc (unreached c), fun _ _ h => absurd h (by simp)⟩
  | unchanged response applied unreached =>
    refine ⟨fun _ c _ hc => absurd hc (unreached c), fun _ _ h happlied => ?_⟩
    obtain rfl := Except.ok.inj h
    exact absurd (applied.symm.trans happlied) (by decide)
  | not_sealed candidate err vault' reached unsealed =>
    refine ⟨fun _ c _ hc hs => ?_, fun _ _ h => absurd h (by simp)⟩
    obtain rfl := reaches_unique reached hc
    exact absurd hs unsealed
  | not_pruned candidate err vault' reached seals unpruned =>
    refine ⟨fun _ c stale hc _ hp => ?_, fun _ _ h => absurd h (by simp)⟩
    obtain rfl := reaches_unique reached hc
    exact absurd hp (unpruned stale)
  | rotated candidate stale response reached current seals prunes applied =>
    have hsame : RunsOn server (pruned server process candidate stale).vault
        { process with secrets := pruned server process candidate stale } ↔
        SameSlots server vault (pruned server process candidate stale).vault process.effective :=
      runs_on_iff ⟨hlive.sinks, hlive.watches⟩
    constructor
    · intro hruns c stale' hc _ hp _
      obtain rfl := reaches_unique reached hc
      obtain rfl := prunes_unique prunes hp
      exact hsame.mp (hruns response rfl applied)
    · intro hkeeps _ _ _
      exact hsame.mpr (hkeeps candidate stale reached seals prunes current)
  | not_swapped candidate stale err kept kept_eq reached news seals prunes unswapped =>
    refine ⟨fun _ c _ hc _ _ hcurrent => ?_, fun _ _ h => absurd h (by simp)⟩
    obtain rfl := reaches_unique reached hc
    exact absurd hcurrent news
  | swapped_back candidate stale err kept swapped back kept_eq reached news seals prunes swaps
      unrecorded swaps_back =>
    refine ⟨fun _ c _ hc _ _ hcurrent => ?_, fun _ _ h => absurd h (by simp)⟩
    obtain rfl := reaches_unique reached hc
    exact absurd hcurrent news
  | stuck candidate stale err kept swapped kept_eq reached news seals prunes swaps unrecorded
      stays =>
    refine ⟨fun _ c _ hc _ _ hcurrent => ?_, fun _ _ h => absurd h (by simp)⟩
    obtain rfl := reaches_unique reached hc
    exact absurd hcurrent news
  | recorded candidate stale response kept swapped kept_eq reached news seals prunes swaps inserts
      applied =>
    constructor
    · intro _ c _ hc _ _ hcurrent
      obtain rfl := reaches_unique reached hc
      exact absurd hcurrent news
    · intro _ _ _ _
      obtain ⟨watches, sinks, hwatches, hsinks, rfl⟩ := (apply_runtime_ok_iff _ _ _ _).mp swaps
      exact ⟨hsinks, hwatches⟩

/-- Applied secrets take effect, whatever vault the process runs on, unless only their values were
rotated and something that runs uses one of them. -/
theorem applied_secrets_take_effect_but_for_rotations (server : Server) (faults : Faults)
    (process : Process) (scope : ApplyScope) (raw : String) (hint : Option DesiredFormat)
    {vault : String → Option String} (hlive : RunsOn server vault process) :
    TakesEffect server faults process scope raw hint ↔
      KeepsSlots server faults process scope raw hint vault :=
  effect_of_outcome hlive (apply_outcome server faults process scope raw hint)

/-- Another subject's sink, its URL inline, and as it is kept. -/
def feed (url : String) (url_env : Option String) : DesiredWire :=
  ⟨none, [.Nats { url, url_env, subject := "feed" }], [], [], []⟩

def feed_text : String :=
  "[[notifiers]]\ntype = \"nats\"\nurl = \"nats://u:p@two\"\nsubject = \"feed\"\n"

def feed_kept_text : String :=
  "[[notifiers]]\ntype = \"nats\"\ntags = []\nurl = \"\"\n" ++
    "url_env = \"XRELEASE_UI_N_NATS_FEED_NATS_URL\"\nsubject = \"feed\"\n"

def feed_bench : Server :=
  bench [(.Toml, feed "nats://u:p@two" none, feed_text),
    (.Toml, feed "" (some "XRELEASE_UI_N_NATS_FEED_NATS_URL"), feed_kept_text)]

theorem applied_secrets_take_effect_but_for_rotations_here :
    (apply_document feed_bench {} bus_process .Whole feed_text none).2.sinks =
        [⟨.Nats { url := "nats://u:p@two", subject := "feed" }, []⟩] ∧
      TakesEffect feed_bench {} bus_process .Whole feed_text none := by
  have hlive : RunsOn feed_bench bus_process.secrets.vault bus_process :=
    ⟨by decide +kernel, rfl⟩
  refine ⟨by decide +kernel, (applied_secrets_take_effect_but_for_rotations _ {} bus_process .Whole
    feed_text none hlive).mpr ?_⟩
  intro candidate stale hreach _ _ hcurrent
  have hsha : (resolve_scoped_candidate feed_bench {} bus_process .Whole feed_text none).map
      (·.ledger_sha) = .ok feed_kept_text := by
    decide +kernel
  rw [hreach.resolved] at hsha
  obtain ⟨current, hlatest, hdigest⟩ := hcurrent
  obtain rfl := Option.some.inj hlatest
  exact absurd (hdigest.trans (Except.ok.inj hsha)) (by decide +kernel)

/-- The sink with its URL inline. -/
def bus_inline : DesiredWire :=
  ⟨none, [.Nats { url := "nats://u:p@two", subject := "new" }], [], [], []⟩

def bus_inline_text : String :=
  "[[notifiers]]\ntype = \"nats\"\nurl = \"nats://u:p@two\"\nsubject = \"new\"\n"

/-- The vault has the new URL, the call says that it was applied, and the sink keeps the old. -/
theorem a_rotated_url_is_not_used :
    ¬ TakesEffect (bench [(.Toml, bus, bus_text), (.Toml, bus_inline, bus_inline_text)]) {}
      bus_process .Whole bus_inline_text none := by
  intro h
  have hanswer : (apply_document
      (bench [(.Toml, bus, bus_text), (.Toml, bus_inline, bus_inline_text)]) {} bus_process .Whole
      bus_inline_text none).1 =
      .ok { applied := true, content_sha256 := bus_text, revision := 1 } := by
    decide +kernel
  have hruns := (h _ hanswer rfl).sinks
  have hkeeps : (apply_document
      (bench [(.Toml, bus, bus_text), (.Toml, bus_inline, bus_inline_text)]) {} bus_process .Whole
      bus_inline_text none).2.effective = bus_config ∧ (apply_document
      (bench [(.Toml, bus, bus_text), (.Toml, bus_inline, bus_inline_text)]) {} bus_process .Whole
      bus_inline_text none).2.sinks = bus_process.sinks := by
    decide +kernel
  rw [hkeeps.1, hkeeps.2] at hruns
  exact absurd hruns (by decide +kernel)

end xrelease.rotated
