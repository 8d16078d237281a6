-- The routing checks of the validation and the routing of the running engine: which sources and
-- operational alerts the one calls unreachable, and which the other hands to no sink.
import Xrelease.Alone
import Xrelease.Predicted

namespace xrelease.reached

open xrelease.alone xrelease.atomic xrelease.config xrelease.engine xrelease.isolated
  xrelease.predicted xrelease.store xrelease.validate text

/-! ## What the validation says -/

/-- The finding that no notifier takes the events of a source. -/
def unreachable (routing : Routing) (id : String) : Option String → Finding
  | none =>
    .warn ("source `" ++ id ++
      "` has no routing_tag — only wildcard notifiers will receive its events")
  | some tag =>
    unmatched routing
      ("source `" ++ id ++ "` routing_tag `" ++ tag ++ "` has no matching notifier — " ++
        "channel tags: [" ++ available_tags routing ++ "]; select `" ++ tag ++
        "` on a channel, or clear a channel’s tags (wildcard)")
      " — no delivery channels yet; notifications will start after a channel is applied"

def unreachable_alerts (routing : Routing) (tag : String) : Finding :=
  unmatched routing
    ("defaults.ops_routing_tag `" ++ tag ++ "` has no matching notifier — meta-alerts on " ++
      "dead outbox / tripped breakers will fail to deliver")
    " — no delivery channels yet; set a matching channel before relying on ops alerts"

/-- The tag that the checks read for a source. -/
def checked_tag (config : Config) (source : SourceConfig) : Option String :=
  effective_tag (effective_source_presets config.presets) source

/-- The validation reports the source as unreachable. -/
def Reported (config : Config) (source : SourceConfig) : Prop :=
  unreachable (routing_of config) (source_label source) (checked_tag config source) ∈
    validate_source_routing (routing_of config) (source_label source) (checked_tag config source)

/-- The same for the operational alerts. -/
def AlertsReported (config : Config) : Prop :=
  ∃ tag, ops_tag config = some tag ∧
    unreachable_alerts (routing_of config) tag ∈
      validate_ops_routing (routing_of config) (ops_tag config)

/-- Some notifier takes every event, or one of them names the tag, letter by letter. -/
def Named (config : Config) (tag : String) : Prop :=
  (routing_of config).wildcard_notifier = true ∨ tag ∈ (routing_of config).notifier_tags

theorem unmatched_error {routing : Routing} (h : routing.has_any_channel = true)
    (message hint : String) : unmatched routing message hint = .error message := by
  rw [unmatched, if_pos h]

theorem error_not_mem_warn_if (condition : Bool) (message warning : String) :
    .error message ∉ warn_if condition warning := by
  cases condition <;> simp [warn_if]

theorem named_iff (config : Config) (tag : String) :
    ((routing_of config).wildcard_notifier || (routing_of config).notifier_tags.contains tag) =
      true ↔ Named config tag := by
  rw [Bool.or_eq_true, List.contains_eq_mem, decide_eq_true_iff, Named]

variable {config : Config}

/-- A tag that is not blank is reported exactly if no notifier names it. -/
theorem reported_iff_of_tag (hchannel : config.notifiers ≠ []) {source : SourceConfig}
    {tag : String} (htag : checked_tag config source = some tag) (hblank : blank tag = false) :
    Reported config source ↔ ¬ Named config tag := by
  have hany : (routing_of config).has_any_channel = true := by
    simp [routing_of, hchannel]
  unfold Reported
  rw [htag]
  simp only [unreachable, validate_source_routing, hblank, Bool.false_eq_true, if_false,
    unmatched_error hany, List.mem_append]
  rw [← named_iff]
  constructor
  · rintro (h | h) hnamed
    · exact error_not_mem_warn_if _ _ _ h
    · rw [if_pos hnamed] at h
      simp at h
  · intro hnamed
    rw [if_neg hnamed]
    exact Or.inr (List.mem_singleton_self _)

theorem reported_iff_of_none (hchannel : config.notifiers ≠ []) {source : SourceConfig}
    (htag : checked_tag config source = none) :
    Reported config source ↔ (routing_of config).wildcard_notifier = false := by
  unfold Reported
  rw [htag]
  simp only [unreachable, validate_source_routing]
  cases hw : (routing_of config).wildcard_notifier with
  | true => simp [warn_if]
  | false =>
    have htags : (routing_of config).notifier_tags ≠ [] := by
      intro hnil
      obtain ⟨n, hn⟩ := List.exists_mem_of_ne_nil _ hchannel
      have hempty : n.routing_tags = [] :=
        List.flatMap_eq_nil_iff.mp hnil n hn
      have hwild : (routing_of config).wildcard_notifier = true :=
        List.any_eq_true.mpr ⟨n, hn, by simpa using hempty⟩
      rw [hw] at hwild
      exact absurd hwild (by decide)
    simp [warn_if, htags]

theorem alerts_reported_iff (hchannel : config.notifiers ≠ []) {tag : String}
    (htag : ops_tag config = some tag) : AlertsReported config ↔ ¬ Named config tag := by
  have hany : (routing_of config).has_any_channel = true := by
    simp [routing_of, hchannel]
  unfold AlertsReported
  simp only [htag, Option.some.injEq, exists_eq_left', unreachable_alerts, validate_ops_routing,
    unmatched_error hany, List.mem_append]
  rw [← named_iff]
  constructor
  · rintro (h | h) hnamed
    · exact error_not_mem_warn_if _ _ _ h
    · rw [if_pos hnamed] at h
      simp at h
  · intro hnamed
    rw [if_neg hnamed]
    exact Or.inr (List.mem_singleton_self _)

/-! ## What the engine does -/

/-- No sink of the running engine takes an event with this tag. -/
def Unheard (sinks : Notifier) (tag : Option String) : Prop :=
  ∀ event : Event, event.routing_tag = tag → matching_indices sinks event = []

theorem unheard_iff {makers : Makers} {env vault : String → Option String} {built : List BuiltSink}
    (hbuilt : build_notifiers makers env vault config = .ok built) (view : NotifierConfig → Sink)
    (tag : Option String) :
    Unheard (as_engine view built) tag ↔
      ∀ n ∈ config.notifiers, matches_routing_tags n.routing_tags tag = false := by
  have htags := build_notifiers_tags hbuilt
  have hsinks : (∀ sink ∈ built, matches_routing_tags sink.tags tag = false) ↔
      ∀ n ∈ config.notifiers, matches_routing_tags n.routing_tags tag = false := by
    rw [← List.forall_mem_map (f := BuiltSink.tags)
      (P := fun tags => matches_routing_tags tags tag = false), htags, List.forall_mem_map]
  rw [← hsinks]
  unfold Unheard matching_indices as_engine
  constructor
  · intro h sink hsink
    obtain ⟨i, hi⟩ := List.getElem?_of_mem hsink
    obtain ⟨hlt, -⟩ := List.getElem?_eq_some_iff.mp hi
    have hnone := List.filter_eq_nil_iff.mp (h ⟨"", "", "", "", none, tag⟩ rfl) i
      (by simpa using hlt)
    simpa [hi, RoutedSink.accepts] using hnone
  · intro h event htag
    rw [List.filter_eq_nil_iff]
    intro i _
    rw [List.getElem?_map]
    cases hi : built[i]? with
    | none => simp
    | some sink => simp [RoutedSink.accepts, htag, h sink (List.mem_of_getElem? hi)]

/-- The tag of a watch is the one that the checks read. -/
theorem watch_tag {makers : Makers} {env vault : String → Option String} {source : SourceConfig}
    {watch : Watch}
    (h : watch_of makers env vault config.defaults (effective_source_presets config.presets)
      source = .ok watch) : watch.routing_tag = checked_tag config source := by
  obtain ⟨built, hbuilt, rfl⟩ := watch_of_ok_iff.mp h
  obtain ⟨_, hwatch⟩ := (into_watch_ok_iff _ _ _ _ _ _ _).mp hbuilt
  obtain ⟨resolved, _, _, hresolved, _, _, rfl⟩ := (build_watch_ok_iff _ _ _ _ _ _ _).mp hwatch
  have hagain := (with_preset_resolved_ok_iff _ _
    (source.explicit_id.getD (default_source_id source)) resolved).mpr
    ((with_preset_resolved_ok_iff _ _ _ _).mp hresolved)
  have hown : resolved.routing_tag = none → source.common.routing_tag = none := by
    intro hnone
    rcases (with_preset_resolved_ok_iff _ _ _ _).mp hresolved with
      ⟨-, rfl⟩ | ⟨name, preset, -, -, -, rfl⟩
    · exact hnone
    · exact (Option.or_eq_none_iff.mp hnone).1
  unfold checked_tag effective_tag
  rw [hagain]
  cases hr : resolved.routing_tag with
  | none => simp [Except.toOption, hr, hown hr]
  | some tag => simp [Except.toOption, hr]

/-! ## Where they agree -/

/-- No tag has blanks around it. -/
structure PlainTags (config : Config) : Prop where
  channels : ∀ n ∈ config.notifiers, ∀ u ∈ n.routing_tags, trim u = u
  sources : ∀ s ∈ config.sources, ∀ tag, checked_tag config s = some tag → trim tag = tag

/-- A plain tag is heard exactly if some notifier names it, or takes everything. -/
theorem heard_iff_named (hplain : PlainTags config) {tag : String} (hblank : blank tag = false)
    (htrim : trim tag = tag) :
    (∀ n ∈ config.notifiers, matches_routing_tags n.routing_tags (some tag) = false) ↔
      ¬ Named config tag := by
  have hnamed : named (some tag) = some tag := by
    simp [named, hblank, htrim]
  have hone : ∀ n ∈ config.notifiers, matches_routing_tags n.routing_tags (some tag) = true ↔
      n.routing_tags = [] ∨ tag ∈ n.routing_tags := by
    intro n hn
    by_cases hnil : n.routing_tags = []
    · simp [hnil, matches_routing_tags]
    · rw [matches_tagged_iff hnil, hnamed]
      constructor
      · rintro ⟨u, hu, he⟩
        rw [hplain.channels n hn u hu] at he
        rw [Option.some.inj he]
        exact Or.inr hu
      · rintro (h | h)
        · exact absurd h hnil
        · exact ⟨tag, h, by rw [htrim]⟩
  unfold Named routing_of
  constructor
  · rintro h (hwild | hmem)
    · obtain ⟨n, hn, hempty⟩ := List.any_eq_true.mp hwild
      have := (hone n hn).mpr (Or.inl (by simpa using hempty))
      rw [h n hn] at this
      exact absurd this (by decide)
    · obtain ⟨n, hn, hin⟩ := List.mem_flatMap.mp hmem
      have := (hone n hn).mpr (Or.inr hin)
      rw [h n hn] at this
      exact absurd this (by decide)
  · intro h n hn
    rw [Bool.eq_false_iff]
    intro hm
    rcases (hone n hn).mp hm with hnil | hin
    · exact h (Or.inl (List.any_eq_true.mpr ⟨n, hn, by simpa using hnil⟩))
    · exact h (Or.inr (List.mem_flatMap.mpr ⟨n, hn, hin⟩))

/-- The checks and the routing say the same, where the tags are plain and there is a channel. -/
structure RoutingAgrees (libs : notify.Libraries) (makers : Makers)
    (env vault : String → Option String) (config : Config) (watches : List Watch)
    (sinks : Notifier) : Prop where
  /-- A source without a tag or with one that is not blank. -/
  sources : ∀ (i : Nat) (source : SourceConfig) (watch : Watch),
    config.sources[i]? = some source → watches[i]? = some watch →
    (∀ tag, watch.routing_tag = some tag → blank tag = false) →
    (Reported config source ↔ Unheard sinks watch.routing_tag)
  alerts : ∀ tag, ops_tag config = some tag →
    (AlertsReported config ↔ Unheard sinks (some tag))
  accepted : (validate_full libs makers env vault config).valid = true →
    (∀ watch ∈ watches, ∀ tag, watch.routing_tag = some tag → blank tag = false →
      ¬ Unheard sinks (some tag)) ∧
    ∀ tag, ops_tag config = some tag → ¬ Unheard sinks (some tag)
  rejected : (∀ team ∈ config.teams, blank team.tag = false) →
    (∀ watch ∈ watches, ∀ tag, watch.routing_tag = some tag → blank tag = false →
      ¬ Unheard sinks (some tag)) →
    (∀ tag, ops_tag config = some tag → ¬ Unheard sinks (some tag)) →
    Clean (validate_team_routing config)

theorem clean_flatMap {α : Type} (l : List α) (f : α → List Finding) :
    Clean (l.flatMap f) ↔ ∀ a ∈ l, Clean (f a) := by
  unfold Clean
  constructor
  · intro h a ha finding hf
    exact h finding (List.mem_flatMap.mpr ⟨a, ha, hf⟩)
  · intro h finding hf
    obtain ⟨a, ha, hin⟩ := List.mem_flatMap.mp hf
    exact h a ha finding hin

theorem clean_unless (condition : Bool) (message : String) :
    Clean (if condition then [] else [.error message]) ↔ condition = true := by
  cases condition
  · simp [not_clean_error]
  · simp [clean_nil]

/-- The checks of a source are clean unless they call a tag unreachable. -/
theorem clean_source_iff (hchannel : config.notifiers ≠ []) (source : SourceConfig) :
    Clean (validate_source_routing (routing_of config) (source_label source)
        (checked_tag config source)) ↔
      ∀ tag, checked_tag config source = some tag → blank tag = false → Named config tag := by
  have hany : (routing_of config).has_any_channel = true := by
    simp [routing_of, hchannel]
  cases htag : checked_tag config source with
  | none => simp [validate_source_routing, clean_warn_if]
  | some tag =>
    simp only [validate_source_routing, Option.some.injEq, forall_eq']
    cases hb : blank tag with
    | true => simp [Clean, Finding.error_text]
    | false =>
      simp only [Bool.false_eq_true, if_false, clean_append, clean_warn_if, true_and,
        unmatched_error hany, forall_const]
      rw [← named_iff]
      exact clean_unless _ _

theorem clean_alerts_iff (hchannel : config.notifiers ≠ []) :
    Clean (validate_ops_routing (routing_of config) (ops_tag config)) ↔
      ∀ tag, ops_tag config = some tag → Named config tag := by
  have hany : (routing_of config).has_any_channel = true := by
    simp [routing_of, hchannel]
  cases htag : ops_tag config with
  | none => simp [validate_ops_routing, clean_nil]
  | some tag =>
    simp only [validate_ops_routing, clean_append, clean_warn_if, true_and, unmatched_error hany,
      Option.some.injEq, forall_eq']
    rw [← named_iff]
    exact clean_unless _ _

/-- With a channel, the routing checks find an error exactly for a blank team tag, a source or the
alerts with a tag that no notifier names. -/
theorem clean_routing_iff (hchannel : config.notifiers ≠ []) :
    Clean (validate_team_routing config) ↔
      (∀ team ∈ config.teams, blank team.tag = false) ∧
      (∀ source ∈ config.sources, ∀ tag, checked_tag config source = some tag →
        blank tag = false → Named config tag) ∧
      ∀ tag, ops_tag config = some tag → Named config tag := by
  unfold validate_team_routing
  simp only [clean_append, clean_flatMap, clean_error_if, clean_warn_if, implies_true, and_true]
  rw [and_assoc]
  refine and_congr Iff.rfl (and_congr ?_ (clean_alerts_iff hchannel))
  exact forall₂_congr fun source _ => clean_source_iff hchannel source

theorem routing_checks_agree (libs : notify.Libraries) {makers : Makers}
    {env vault : String → Option String} {config : Config} {watches : List Watch}
    {built : List BuiltSink} (hchannel : config.notifiers ≠ []) (hplain : PlainTags config)
    (hwatches : to_watches makers env vault config = .ok watches)
    (hbuilt : build_notifiers makers env vault config = .ok built)
    (view : NotifierConfig → Sink) :
    RoutingAgrees libs makers env vault config watches (as_engine view built) := by
  have hunheard : ∀ tag, blank tag = false → trim tag = tag →
      (Unheard (as_engine view built) (some tag) ↔ ¬ Named config tag) := by
    intro tag hb ht
    rw [unheard_iff hbuilt, heard_iff_named hplain hb ht]
  have hwatch : ∀ (i : Nat) (source : SourceConfig) (watch : Watch),
      config.sources[i]? = some source → watches[i]? = some watch →
      watch.routing_tag = checked_tag config source := by
    intro i source watch hs hw
    obtain ⟨other, hother, hmade⟩ := (mapM_getElem hwatches i).2 source hs
    rw [hw] at hother
    obtain rfl := Option.some.inj hother
    exact watch_tag hmade
  have hsource : ∀ watch ∈ watches, ∃ source ∈ config.sources,
      watch.routing_tag = checked_tag config source := by
    intro watch hmem
    obtain ⟨i, hi⟩ := List.getElem?_of_mem hmem
    obtain ⟨source, hs, _⟩ := (mapM_getElem hwatches i).1 watch hi
    exact ⟨source, List.mem_of_getElem? hs, hwatch i source watch hs hi⟩
  have hback : ∀ source ∈ config.sources, ∃ watch ∈ watches,
      watch.routing_tag = checked_tag config source := by
    intro source hmem
    obtain ⟨i, hi⟩ := List.getElem?_of_mem hmem
    obtain ⟨watch, hw, _⟩ := (mapM_getElem hwatches i).2 source hi
    exact ⟨watch, List.mem_of_getElem? hw, hwatch i source watch hi hw⟩
  refine ⟨?_, ?_, ?_, ?_⟩
  · intro i source watch hs hw hblank
    have htag := hwatch i source watch hs hw
    rw [htag] at hblank ⊢
    cases hc : checked_tag config source with
    | none =>
      rw [reported_iff_of_none hchannel hc, unheard_iff hbuilt]
      unfold routing_of
      rw [List.any_eq_false]
      refine forall₂_congr fun n _ => ?_
      by_cases hnil : n.routing_tags = [] <;> simp [hnil, matches_routing_tags]
    | some tag =>
      have hb := hblank tag hc
      rw [reported_iff_of_tag hchannel hc hb,
        hunheard tag hb (hplain.sources source (List.mem_of_getElem? hs) tag hc)]
  · intro tag htag
    obtain ⟨hb, ht⟩ := vaulted.named_eq_some htag
    rw [alerts_reported_iff hchannel htag, hunheard tag hb ht]
  · intro hvalid
    have hclean := (valid_iff _).mp hvalid
    simp only [clean_append] at hclean
    obtain ⟨-, hsources, halerts⟩ := (clean_routing_iff hchannel).mp hclean.1.1.1.2
    constructor
    · intro watch hmem tag htag hb
      obtain ⟨source, hs, heq⟩ := hsource watch hmem
      rw [htag] at heq
      rw [hunheard tag hb (hplain.sources source hs tag heq.symm), not_not]
      exact hsources source hs tag heq.symm hb
    · intro tag htag
      obtain ⟨hb, ht⟩ := vaulted.named_eq_some htag
      rw [hunheard tag hb ht, not_not]
      exact halerts tag htag
  · intro hteams hheard halerts
    refine (clean_routing_iff hchannel).mpr ⟨hteams, ?_, ?_⟩
    · intro source hs tag htag hb
      obtain ⟨watch, hmem, heq⟩ := hback source hs
      have hnot := hheard watch hmem tag (heq.trans htag) hb
      rwa [hunheard tag hb (hplain.sources source hs tag htag), not_not] at hnot
    · intro tag htag
      obtain ⟨hb, ht⟩ := vaulted.named_eq_some htag
      have hnot := halerts tag htag
      rwa [hunheard tag hb ht, not_not] at hnot

/-- One source with a tag, and these notifiers. -/
def tagged (notifiers : List NotifierConfig) : Config :=
  { (bench []).bootstrap with
    notifiers
    sources := [.Github { repo := "o/r", common := { routing_tag := some "team" } }] }

def team_bus : NotifierConfig := .Nats { url := "nats://n", subject := "s", tags := ["team"] }

theorem tagged_plain : PlainTags (tagged [team_bus]) where
  channels := by decide +kernel
  sources := by
    intro s hs tag htag
    obtain rfl := List.mem_singleton.mp hs
    have hteam : checked_tag (tagged [team_bus])
        (.Github { repo := "o/r", common := { routing_tag := some "team" } }) = some "team" := by
      decide +kernel
    rw [hteam] at htag
    obtain rfl := Option.some.inj htag
    decide

theorem routing_checks_agree_here : ∃ watches built,
    to_watches (desk none).makers (desk_env none) (fun _ => none) (tagged [team_bus]) =
      .ok watches ∧
    RoutingAgrees lenient (desk none).makers (desk_env none) (fun _ => none) (tagged [team_bus])
      watches (as_engine (fun _ => ⟨.nats, "", ""⟩) built) := by
  have hwatches : (to_watches (desk none).makers (desk_env none) (fun _ => none)
      (tagged [team_bus])).isOk = true := by
    decide +kernel
  have hbuilt : (build_notifiers (desk none).makers (desk_env none) (fun _ => none)
      (tagged [team_bus])).isOk = true := by
    decide +kernel
  cases hw : to_watches (desk none).makers (desk_env none) (fun _ => none) (tagged [team_bus]) with
  | error err =>
    rw [hw] at hwatches
    exact absurd hwatches (by simp [Except.isOk, Except.toBool])
  | ok watches =>
    cases hb : build_notifiers (desk none).makers (desk_env none) (fun _ => none)
        (tagged [team_bus]) with
    | error err =>
      rw [hb] at hbuilt
      exact absurd hbuilt (by simp [Except.isOk, Except.toBool])
    | ok built =>
      exact ⟨watches, built, rfl, routing_checks_agree lenient (by decide) tagged_plain hw hb _⟩

/-- Without any channel a document is accepted, for channels may come later, and no sink hears its
tagged source. -/
theorem an_idle_document_is_accepted :
    (validate_full lenient (desk none).makers (desk_env none) (fun _ => none)
        (tagged [])).valid = true ∧
      (build_notifiers (desk none).makers (desk_env none) (fun _ => none) (tagged [])).toOption =
        some [] ∧
      Unheard [] (some "team") := by
  refine ⟨by decide +kernel, by decide +kernel, ?_⟩
  intro event _
  rfl

end xrelease.reached
