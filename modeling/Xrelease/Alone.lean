-- An organization's document in the composition and on its own: which of its sources keep their
-- watch and their listeners, and where the defaults of the document, a preset or the first
-- organization get in the way.
import Xrelease.Isolated

namespace xrelease.alone

open xrelease.config xrelease.composed xrelease.isolated xrelease.engine text
open keyed.Table keyed.Sorted
open xrelease.pipeline (Filter)

/-! ## The order of names -/

theorem compare_chars_eq_iff (a b : List Char) : compare_chars a b = .eq ↔ a = b := by
  fun_induction compare_chars a b with
  | case1 => simp
  | case2 => simp
  | case3 => simp
  | case4 a as b bs hlt =>
    have hne : a ≠ b := by
      rintro rfl
      exact Nat.lt_irrefl _ hlt
    simp [hne]
  | case5 a as b bs hnlt hlt =>
    have hne : a ≠ b := by
      rintro rfl
      exact Nat.lt_irrefl _ hlt
    simp [hne]
  | case6 a as b bs hnlt hnlt' ih =>
    have hab : a = b := Char.toNat_inj.mp (by omega)
    simp [hab, ih]

theorem compare_chars_flip (a b : List Char) : compare_chars a b = .gt → compare_chars b a = .lt := by
  fun_induction compare_chars a b with
  | case1 => simp
  | case2 => simp
  | case3 => simp [compare_chars]
  | case4 a as b bs hlt => simp
  | case5 a as b bs hnlt hlt => simp [compare_chars, hlt]
  | case6 a as b bs hnlt hnlt' ih => simpa [compare_chars, hnlt, hnlt'] using ih

theorem compare_chars_trans (a b c : List Char) (h : compare_chars a b = .lt)
    (h' : compare_chars b c = .lt) : compare_chars a c = .lt := by
  induction a generalizing b c with
  | nil =>
    cases b with
    | nil => simp [compare_chars] at h
    | cons b bs =>
      cases c with
      | nil => simp [compare_chars] at h'
      | cons c cs => rfl
  | cons a as ih =>
    cases b with
    | nil => simp [compare_chars] at h
    | cons b bs =>
      cases c with
      | nil => simp [compare_chars] at h'
      | cons c cs =>
        unfold compare_chars at h h' ⊢
        split at h
        · rename_i hab
          split at h'
          · rename_i hbc
            rw [if_pos (hab.trans hbc)]
          · split at h'
            · simp at h'
            · rw [if_pos (by omega)]
        · split at h
          · simp at h
          · split at h'
            · rw [if_pos (by omega)]
            · split at h'
              · simp at h'
              · rw [if_neg (by omega), if_neg (by omega)]
                exact ih bs cs h h'

theorem compare_str_eq_iff (a b : String) : compare_str a b = .eq ↔ a = b := by
  rw [compare_str, compare_chars_eq_iff, String.toList_inj]

theorem look_reverse_presets (entries : List (String × SourcePreset)) (key : String) :
    look key (putAll compare_str entries []).reverse = look key entries.reverse := by
  have hordered : Ordered compare_str (putAll compare_str entries []) :=
    ordered_putAll compare_str_eq_iff (fun _ _ => compare_chars_flip _ _)
      (fun _ _ _ => compare_chars_trans _ _ _) entries List.Pairwise.nil
  rw [look_reverse compare_str_eq_iff hordered, look_putAll compare_str_eq_iff]
  simp [look]

/-! ## Presets -/

/-- The last preset that the documents declare under a prefixed name. -/
def last_preset (docs : List Document) (key : String) : Option SourcePreset :=
  look key (docs.flatMap (fun doc =>
    doc.2.presets.map (fun entry => (namespace_preset_name doc.1 entry.1, entry.2)))).reverse

theorem look_merged (docs : List Document) (key : String) :
    look key (putAll compare_str (docs.flatMap (fun doc => (namespaced doc).presets)) []).reverse =
      last_preset docs key := by
  rw [look_reverse_presets]
  unfold last_preset
  induction docs with
  | nil => rfl
  | cons doc rest ih =>
    simp only [List.flatMap_cons, List.reverse_append, look_append, ih]
    congr 1
    unfold namespaced namespace_organization_desired prepare_presets
    rw [look_reverse_presets]

/-- What the composed catalogue has under a name. -/
def catalogued (docs : List Document) (name : String) : Option SourcePreset :=
  (last_preset docs name).or (look name builtin_source_presets)

variable {docs : List Document} {a : Document} {s : SourceConfig}
  {env vault : String → Option String}

theorem look_catalogue {merged : Config} (h : Composed docs merged) (name : String) :
    look name (effective_source_presets merged.presets) = catalogued docs name := by
  rw [effective_source_presets, look_putAll compare_str_eq_iff, h.presets, look_merged, catalogued]

/-- The values that lie under a source's own ones; none where it names no preset. -/
def preset_in_force (find : String → Option SourcePreset) (name : Option String) : SourcePreset :=
  (name.bind (fun name => find (trim name))).getD {}

/-- The preset that a source names is there. -/
def Found (find : String → Option SourcePreset) (name : Option String) : Prop :=
  ∀ text, name = some text → trim text ≠ "" ∧ (find (trim text)).isSome

theorem resolved_ok_iff (common : SourceCommon) (presets : List (String × SourcePreset))
    (source_id : String) (resolved : SourceCommon) :
    with_preset_resolved common presets source_id = .ok resolved ↔
      Found (fun name => look name presets) common.preset ∧
        resolved = (preset_in_force (fun name => look name presets) common.preset).merge_into
          { common with preset := none } := by
  rw [with_preset_resolved_ok_iff]
  unfold Found preset_in_force
  cases hp : common.preset with
  | none =>
    have hsame : SourcePreset.merge_into {} { common with preset := none } = common := by
      obtain ⟨preset, _⟩ := common
      obtain rfl : preset = none := hp
      simp [SourcePreset.merge_into]
    simp [hsame]
  | some name =>
    simp only [reduceCtorEq, false_and, false_or, Option.some.injEq, forall_eq', Option.bind_some]
    constructor
    · rintro ⟨_, preset, rfl, hn, hl, rfl⟩
      simp [hn, hl]
    · rintro ⟨⟨hn, hl⟩, rfl⟩
      obtain ⟨preset, hl⟩ := Option.isSome_iff_exists.mp hl
      exact ⟨name, preset, rfl, hn, hl, by simp [hl]⟩

/-! ## Filter and schedule -/

theorem build_filter_ok_iff (readers : Readers) (common : SourceCommon) (source_id : String)
    (filter : Filter) :
    build_filter readers common source_id = .ok filter ↔
      ∃ pattern exclude_pattern, compile readers common.pattern = some pattern ∧
        compile readers common.exclude_pattern = some exclude_pattern ∧
        filter =
          { include_prerelease := common.include_prerelease.getD false
            prerelease_tags := common.prerelease_tags.filter (fun tags => tags ≠ [])
            pattern
            exclude_pattern
            exclude_updated := common.exclude_updated.getD false } := by
  unfold build_filter
  cases compile readers common.pattern with
  | none => simp
  | some pattern =>
    cases compile readers common.exclude_pattern with
    | none => simp
    | some exclude_pattern => simp [eq_comm]

/-- The schedule that a trimmed expression reads as. -/
def schedule_of (readers : Readers) : Option String → Option (Option NotifySchedule)
  | none => some none
  | some text =>
    (readers.cron (if count_words text = 5 then "0 " ++ text else text)).toOption.map
      (fun next_after => some ⟨text, next_after⟩)

theorem schedule_of_expr {readers : Readers} {text : Option String}
    {schedule : Option NotifySchedule} (h : schedule_of readers text = some schedule) :
    schedule.map (·.expr) = text := by
  unfold schedule_of at h
  split at h
  · obtain rfl := Option.some.inj h
    rfl
  · obtain ⟨next_after, -, rfl⟩ := Option.map_eq_some_iff.mp h
    rfl

/-- The first schedule that is written counts, and a blank one is none. -/
theorem resolve_schedule_ok_iff (readers : Readers) (common : SourceCommon) (defaults : Defaults)
    (schedule : Option NotifySchedule) :
    resolve_notify_schedule readers common defaults = .ok schedule ↔
      schedule_of readers (named (common.notify_schedule.or defaults.notify_schedule)) =
        some schedule := by
  have hexpr : (schedule_expr common defaults).map trim =
      named (common.notify_schedule.or defaults.notify_schedule) := by
    unfold schedule_expr named
    cases common.notify_schedule with
    | some text => by_cases hb : blank text = true <;> simp [hb]
    | none =>
      cases defaults.notify_schedule with
      | none => rfl
      | some text => by_cases hb : blank text = true <;> simp [hb, Option.filter]
  unfold resolve_notify_schedule
  rw [← hexpr]
  cases schedule_expr common defaults with
  | none => simp [schedule_of]
  | some text =>
    simp only [Option.map_some, schedule_of, NotifySchedule.parse]
    cases readers.cron (if count_words (trim text) = 5 then "0 " ++ trim text else trim text) with
    | error err => simp [Except.toOption]
    | ok next_after => simp [Except.toOption]

/-! ## Watches -/

/-- A watch, from what its source says and what lies under it. -/
theorem into_watch_parts (readers : Readers) (env vault : String → Option String)
    (source : SourceConfig) (defaults : Defaults) (presets : List (String × SourcePreset))
    (watch : Watch) :
    into_watch readers env vault source defaults presets = .ok watch ↔
      provider_error source (source.explicit_id.getD (built_id source)) = none ∧
      Found (fun name => look name presets) source.common.preset ∧
      ∃ preset, preset = preset_in_force (fun name => look name presets) source.common.preset ∧
      ∃ pattern exclude_pattern schedule,
        compile readers (source.common.pattern.or preset.pattern) = some pattern ∧
        compile readers (source.common.exclude_pattern.or preset.exclude_pattern) =
          some exclude_pattern ∧
        schedule_of readers
          (named ((source.common.notify_schedule.or preset.notify_schedule).or
            defaults.notify_schedule)) = some schedule ∧
        watch =
          { id := source.explicit_id.getD (built_id source)
            provider := provider_of env vault source
            interval :=
              (source.common.interval_secs.or preset.interval_secs).getD defaults.interval_secs
            jitter := (source.common.jitter_secs.or preset.jitter_secs).getD defaults.jitter_secs
            poll_on_startup := (source.common.poll_on_startup.or preset.poll_on_startup).getD
              defaults.poll_on_startup
            filter :=
              { include_prerelease :=
                  (source.common.include_prerelease.or preset.include_prerelease).getD false
                prerelease_tags := (source.common.prerelease_tags.or preset.prerelease_tags).filter
                  (fun tags => tags ≠ [])
                pattern
                exclude_pattern
                exclude_updated :=
                  (source.common.exclude_updated.or preset.exclude_updated).getD false }
            routing_tag := source.common.routing_tag.or preset.routing_tag
            notify_schedule := schedule
            organization_id := none } := by
  rw [into_watch_ok_iff, build_watch_ok_iff]
  constructor
  · rintro ⟨hprovider, resolved, filter, schedule, hp, hf, hs, rfl⟩
    obtain ⟨hfound, rfl⟩ := (resolved_ok_iff _ _ _ _).mp hp
    obtain ⟨pattern, exclude_pattern, hpattern, hexclude, rfl⟩ :=
      (build_filter_ok_iff _ _ _ _).mp hf
    rw [resolve_schedule_ok_iff] at hs
    exact ⟨hprovider, hfound, _, rfl, pattern, exclude_pattern, schedule, hpattern, hexclude, hs,
      rfl⟩
  · rintro ⟨hprovider, hfound, _, rfl, pattern, exclude_pattern, schedule, hpattern, hexclude, hs,
      rfl⟩
    refine ⟨hprovider, _, _, schedule, (resolved_ok_iff _ _ _ _).mpr ⟨hfound, rfl⟩,
      (build_filter_ok_iff _ _ _ _).mpr ⟨pattern, exclude_pattern, hpattern, hexclude, rfl⟩,
      (resolve_schedule_ok_iff _ _ _ _).mpr hs, rfl⟩

/-! ## What is kept -/

/-- The source as the composition has it. -/
def prepared (a : Document) (s : SourceConfig) : SourceConfig :=
  prepare_source a.1 (namespace_defaults a.1 a.2.defaults) (a.2.presets.map Prod.fst) s

/-- The preset that the source has in its own document. -/
def own_preset (a : Document) (s : SourceConfig) : SourcePreset :=
  preset_in_force (fun name => look name (effective_source_presets a.2.presets)) s.common.preset

/-- The preset that it has among all documents. -/
def composed_preset (docs : List Document) (a : Document) (s : SourceConfig) : SourcePreset :=
  preset_in_force (catalogued docs) (prepared a s).common.preset

/-- The watch of the source in its own document. -/
def alone_watch (readers : Readers) (env vault : String → Option String) (a : Document)
    (s : SourceConfig) : Except String Watch :=
  into_watch readers env vault s a.2.defaults (effective_source_presets a.2.presets)

/-- The values left open for the filter are the same under both presets. -/
structure SameScreen (readers : Readers) (common : SourceCommon) (own composed : SourcePreset) :
    Prop where
  include_prerelease : common.include_prerelease = none →
    composed.include_prerelease.getD false = own.include_prerelease.getD false
  prerelease_tags : common.prerelease_tags = none →
    composed.prerelease_tags.filter (fun tags => tags ≠ []) =
      own.prerelease_tags.filter (fun tags => tags ≠ [])
  exclude_updated : common.exclude_updated = none →
    composed.exclude_updated.getD false = own.exclude_updated.getD false
  pattern : common.pattern = none → compile readers composed.pattern = compile readers own.pattern
  exclude_pattern : common.exclude_pattern = none →
    compile readers composed.exclude_pattern = compile readers own.exclude_pattern

/-- The document's defaults, which go before the preset, do not overrule it, and the defaults of
the first organization, which come last, add no schedule. -/
structure KeptWatch (readers : Readers) (docs : List Document) (a : Document)
    (s : SourceConfig) : Prop where
  id : namespace_source_id a.1 (base_source_id s) =
    namespace_source_id a.1 (s.explicit_id.getD (built_id s))
  preset : ∀ name, (prepared a s).common.preset = some name →
    (catalogued docs (trim name)).isSome
  interval : s.common.interval_secs = none →
    ∀ secs, (own_preset a s).interval_secs = some secs → secs = a.2.defaults.interval_secs
  jitter : s.common.jitter_secs = none →
    ∀ secs, (own_preset a s).jitter_secs = some secs → secs = a.2.defaults.jitter_secs
  poll_on_startup : s.common.poll_on_startup = none →
    ∀ poll, (own_preset a s).poll_on_startup = some poll → poll = a.2.defaults.poll_on_startup
  schedule :
    named (((s.common.notify_schedule.or a.2.defaults.notify_schedule).or
      (composed_preset docs a s).notify_schedule).or (lead_defaults docs).notify_schedule) =
    named ((s.common.notify_schedule.or (own_preset a s).notify_schedule).or
      a.2.defaults.notify_schedule)
  filter : SameScreen readers s.common (own_preset a s) (composed_preset docs a s)

/-- The same watch, up to the prefix of the id. -/
structure SameWatch (id : String) (alone watch : Watch) : Prop where
  id : watch.id = namespace_source_id id alone.id
  provider : watch.provider = alone.provider
  interval : watch.interval = alone.interval
  jitter : watch.jitter = alone.jitter
  poll_on_startup : watch.poll_on_startup = alone.poll_on_startup
  notify_schedule : watch.notify_schedule = alone.notify_schedule
  filter : watch.filter = alone.filter

theorem getD_or_eq_iff {α : Type} (a b : Option α) (d : α) :
    a.getD d = (a.or b).getD d ↔ (a = none → ∀ v, b = some v → v = d) := by
  cases a with
  | some v => simp
  | none => cases b <;> simp [eq_comm]

theorem apply_or_eq_iff {α β : Type} (f : Option α → β) (a b c : Option α) :
    f (a.or b) = f (a.or c) ↔ (a = none → f b = f c) := by
  cases a <;> simp

theorem global_token_env_with (s : SourceConfig) (id : Option String) (common : SourceCommon) :
    global_token_env (s.with_id_common id common) = global_token_env s := by
  cases s with
  | Image r c => cases r <;> rfl
  | _ => rfl

theorem provider_of_prepared (env vault : String → Option String) (a : Document)
    (s : SourceConfig) : provider_of env vault (prepared a s) = provider_of env vault s := by
  unfold provider_of prepared prepare_source
  simp only [SourceConfig.token_refs_with_id_common, SourceConfig.with_id_common_twice,
    global_token_env_with]

theorem provider_error_prepared (a : Document) (s : SourceConfig) (id id' : String)
    (h : provider_error s id = none) : provider_error (prepared a s) id' = none := by
  unfold prepared prepare_source
  cases s with
  | Bitbucket c =>
    simp only [provider_error, SourceConfig.with_id_common, ite_eq_right_iff] at h ⊢
    exact fun hc => absurd (h hc) (by simp)
  | Artifacthub c =>
    simp only [provider_error, SourceConfig.with_id_common] at h ⊢
    split at h
    · split at h
      · simp at h
      · rename_i hparts
        rw [if_neg hparts]
    · simp at h
  | _ => rfl

theorem prepared_preset_not_blank {find : String → Option SourcePreset}
    (h : Found find s.common.preset) {name : String}
    (hname : (prepared a s).common.preset = some name) : trim name ≠ "" := by
  unfold prepared prepare_source at hname
  rw [SourceConfig.common_with_id_common] at hname
  unfold prepare_common at hname
  cases hp : s.common.preset with
  | none => simp [hp] at hname
  | some text =>
    simp only [hp] at hname
    split at hname
    · obtain rfl := Option.some.inj hname
      exact namespaced_not_blank _ _
    · obtain rfl := Option.some.inj hname
      exact (h _ hp).1

/-- Beside a watch of its own the source has the same watch in the composition exactly when
nothing overrules it there. -/
theorem composed_watch_iff {merged : Config} (h : Composed docs merged) {readers : Readers}
    {alone : Watch} (halone : alone_watch readers env vault a s = .ok alone) :
    (∃ watch, into_watch readers env vault (prepared a s) merged.defaults
        (effective_source_presets merged.presets) = .ok watch ∧ SameWatch a.1 alone watch) ↔
      KeptWatch readers docs a s := by
  unfold alone_watch at halone
  rw [into_watch_parts] at halone
  obtain ⟨hprovider, hfound, P, hP, pattern, exclude, schedule, hpattern, hexclude, hschedule,
    rfl⟩ := halone
  have hown : own_preset a s = P := hP.symm
  obtain ⟨rpm, hdefaults⟩ := h.defaults
  have hlead : merged.defaults.notify_schedule = (lead_defaults docs).notify_schedule := by
    rw [hdefaults]
  have hfind : (fun name => look name (effective_source_presets merged.presets)) =
      catalogued docs := funext (look_catalogue h)
  have hcommon : (prepared a s).common = prepare_common a.1 (namespace_defaults a.1 a.2.defaults)
      (a.2.presets.map Prod.fst) s.common := SourceConfig.common_with_id_common _ _ _
  have hid : (prepared a s).explicit_id = some (namespace_source_id a.1 (base_source_id s)) :=
    SourceConfig.explicit_id_with_id_common _ _ _
  have hinterval : (prepared a s).common.interval_secs =
      some (s.common.interval_secs.getD a.2.defaults.interval_secs) := by
    rw [hcommon]
    rfl
  have hjitter : (prepared a s).common.jitter_secs =
      some (s.common.jitter_secs.getD a.2.defaults.jitter_secs) := by
    rw [hcommon]
    rfl
  have hpoll : (prepared a s).common.poll_on_startup =
      some (s.common.poll_on_startup.getD a.2.defaults.poll_on_startup) := by
    rw [hcommon]
    rfl
  have hschedule_text : (prepared a s).common.notify_schedule =
      s.common.notify_schedule.or a.2.defaults.notify_schedule := by
    rw [hcommon]
    rfl
  have hscreen : (prepared a s).common.include_prerelease = s.common.include_prerelease ∧
      (prepared a s).common.prerelease_tags = s.common.prerelease_tags ∧
      (prepared a s).common.exclude_updated = s.common.exclude_updated ∧
      (prepared a s).common.pattern = s.common.pattern ∧
      (prepared a s).common.exclude_pattern = s.common.exclude_pattern := by
    rw [hcommon]
    exact ⟨rfl, rfl, rfl, rfl, rfl⟩
  obtain ⟨hprerelease, htags, hupdated, hpat, hexc⟩ := hscreen
  have hnone : ∀ id, provider_error (prepared a s) id = none :=
    fun id => provider_error_prepared a s _ id hprovider
  simp only [into_watch_parts, hfind, exists_eq_left, hnone, true_and, hinterval, hjitter, hpoll,
    hschedule_text, hprerelease, htags, hupdated, hpat, hexc, hlead, hid, Option.getD_some,
    Option.some_or, provider_of_prepared]
  constructor
  · rintro ⟨watch, ⟨hfound', pattern', exclude', schedule', hpattern', hexclude', hschedule',
      rfl⟩, hsame⟩
    have hfilter := hsame.filter
    simp only [pipeline.Filter.mk.injEq] at hfilter
    obtain ⟨hf1, hf2, rfl, rfl, hf5⟩ := hfilter
    have hs := hsame.notify_schedule
    simp only at hs
    subst hs
    refine ⟨hsame.id, ?_, ?_, ?_, ?_, ?_, ?_⟩
    · intro name hname
      exact (hfound' name hname).2
    · rw [hown]
      exact (getD_or_eq_iff _ _ _).mp hsame.interval
    · rw [hown]
      exact (getD_or_eq_iff _ _ _).mp hsame.jitter
    · rw [hown]
      exact (getD_or_eq_iff _ _ _).mp hsame.poll_on_startup
    · rw [hown]
      exact (schedule_of_expr hschedule').symm.trans (schedule_of_expr hschedule)
    · rw [hown]
      exact ⟨(apply_or_eq_iff (fun o : Option Bool => o.getD false) _ _ _).mp hf1,
        (apply_or_eq_iff (fun o : Option (List String) => o.filter (fun tags => tags ≠ []))
          _ _ _).mp hf2,
        (apply_or_eq_iff (fun o : Option Bool => o.getD false) _ _ _).mp hf5,
        (apply_or_eq_iff (compile readers) _ _ _).mp (hpattern'.trans hpattern.symm),
        (apply_or_eq_iff (compile readers) _ _ _).mp (hexclude'.trans hexclude.symm)⟩
  · intro hkept
    rw [← hown] at hpattern hexclude hschedule ⊢
    have hscreen := hkept.filter
    refine ⟨_, ⟨?_, pattern, exclude, schedule, ?_, ?_, ?_, rfl⟩, ?_⟩
    · intro name hname
      exact ⟨prepared_preset_not_blank hfound hname, hkept.preset name hname⟩
    · exact ((apply_or_eq_iff (compile readers) _ _ _).mpr hscreen.pattern).trans hpattern
    · exact ((apply_or_eq_iff (compile readers) _ _ _).mpr hscreen.exclude_pattern).trans hexclude
    · exact (congrArg (schedule_of readers) hkept.schedule).trans hschedule
    · refine ⟨hkept.id, rfl, (getD_or_eq_iff _ _ _).mpr hkept.interval,
        (getD_or_eq_iff _ _ _).mpr hkept.jitter, (getD_or_eq_iff _ _ _).mpr hkept.poll_on_startup,
        rfl, ?_⟩
      simp only [pipeline.Filter.mk.injEq, true_and]
      exact ⟨(apply_or_eq_iff (fun o : Option Bool => o.getD false) _ _ _).mpr
          hscreen.include_prerelease,
        (apply_or_eq_iff (fun o : Option (List String) => o.filter (fun tags => tags ≠ []))
          _ _ _).mpr hscreen.prerelease_tags,
        (apply_or_eq_iff (fun o : Option Bool => o.getD false) _ _ _).mpr
          hscreen.exclude_updated⟩

/-! ## Who listens -/

/-- The tag that a source's events carry in its own document. -/
def own_tag (a : Document) (s : SourceConfig) : Option String :=
  s.common.routing_tag.or (own_preset a s).routing_tag

/-- A notifier of its document that names tags names the source's own tag exactly when it names,
under the prefix, the one that the composition gives it; and no other organization names that. -/
structure KeptRouting (docs : List Document) (a : Document) (s : SourceConfig) : Prop where
  own : ∀ n ∈ a.2.notifiers, n.routing_tags ≠ [] →
    ((∃ u ∈ n.routing_tags,
        trim (namespace_routing_tag a.1 u) = trim (namespace_routing_tag a.1 (spoken s))) ↔
      ∃ u ∈ n.routing_tags, named (own_tag a s) = some (trim u))
  others : ∀ b ∈ docs, b.1 ≠ a.1 → ∀ n ∈ b.2.notifiers, ∀ u ∈ heard b.2 n,
    trim (namespace_routing_tag b.1 u) ≠ trim (namespace_routing_tag a.1 (spoken s))

theorem matches_tagged_iff {tags : List String} (h : tags ≠ []) (tag : Option String) :
    matches_routing_tags tags tag = true ↔ ∃ u ∈ tags, named tag = some (trim u) := by
  unfold matches_routing_tags named
  simp only [List.isEmpty_iff, h, if_false]
  cases tag with
  | none => simp
  | some text =>
    by_cases hb : blank text = true
    · have hblank : trim text = "" := by simpa [blank] using hb
      simp [hb, hblank, Option.filter]
    · have hblank : trim text ≠ "" := by simpa [blank] using hb
      simp only [Option.map_some, Option.filter_some, ne_eq, hblank, not_false_eq_true,
        decide_true, if_true, hb, Bool.false_eq_true, if_false, List.any_eq_true,
        decide_eq_true_eq, Option.some.injEq]
      exact ⟨fun ⟨u, hu, h⟩ => ⟨u, hu, h.symm⟩, fun ⟨u, hu, h⟩ => ⟨u, hu, h.symm⟩⟩

theorem spoken_mem_heard (hs : s ∈ a.2.sources) {n : NotifierConfig} (hn : n.routing_tags = []) :
    spoken s ∈ heard a.2 n := by
  unfold heard spoken
  rw [if_pos hn]
  cases ht : named s.common.routing_tag with
  | none => exact List.mem_append_left _ List.mem_cons_self
  | some tag =>
    refine List.mem_append_left _ (List.mem_cons_of_mem _ ?_)
    exact List.mem_filterMap.mpr ⟨s, hs, ht⟩

theorem same_document (h : (docs.map Prod.fst).Nodup) {b : Document} (ha : a ∈ docs) (hb : b ∈ docs)
    (hid : b.1 = a.1) : b = a :=
  List.inj_on_of_nodup_map h hb ha hid

/-- Two watches of a source are heard alike exactly when its tags are kept. -/
theorem heard_alike_iff (hdistinct : (docs.map Prod.fst).Nodup) (ha : a ∈ docs)
    (hs : s ∈ a.2.sources) :
    (∀ b ∈ docs, ∀ n ∈ b.2.notifiers,
      (matches_routing_tags (namespace_notifier b.1 (org_event_tags b.1 b.2) n).routing_tags
          (some (namespace_routing_tag a.1 (spoken s))) = true ↔
        b.1 = a.1 ∧ matches_routing_tags n.routing_tags (own_tag a s) = true)) ↔
      KeptRouting docs a s := by
  have hblank := namespaced_not_blank a.1 (spoken s)
  constructor
  · intro hall
    constructor
    · intro n hn htags
      have hone := hall a ha n hn
      rw [hears_iff _ _ _ hblank, matches_tagged_iff htags, heard, if_neg htags] at hone
      simpa using hone
    · intro b hb hne n hn u hu heq
      have hone := (hall b hb n hn).mp ((hears_iff _ _ _ hblank).mpr ⟨u, hu, heq⟩)
      exact hne hone.1
  · intro hkept b hb n hn
    rw [hears_iff _ _ _ hblank]
    by_cases hid : b.1 = a.1
    · obtain rfl := same_document hdistinct ha hb hid
      by_cases htags : n.routing_tags = []
      · constructor
        · intro _
          exact ⟨rfl, by simp [matches_routing_tags, htags]⟩
        · intro _
          exact ⟨spoken s, spoken_mem_heard hs htags, rfl⟩
      · rw [matches_tagged_iff htags, heard, if_neg htags]
        simpa using hkept.own n hn htags
    · constructor
      · rintro ⟨u, hu, heq⟩
        exact absurd heq (hkept.others b hb hid n hn u hu)
      · rintro ⟨h, -⟩
        exact absurd h hid

/-! ## The law -/

/-- Every source of the documents, and every notifier, in the order of the composition. -/
def placed_sources (docs : List Document) : List (Document × SourceConfig) :=
  docs.flatMap (fun doc => doc.2.sources.map (fun s => (doc, s)))

def placed_notifiers (docs : List Document) : List (Document × NotifierConfig) :=
  docs.flatMap (fun doc => doc.2.notifiers.map (fun n => (doc, n)))

theorem source_at {merged : Config} (h : Composed docs merged) (j : Nat) :
    merged.sources[j]? = (placed_sources docs)[j]?.map (fun placed => prepared placed.1 placed.2) := by
  rw [h.sources, ← List.getElem?_map, placed_sources, List.map_flatMap]
  simp only [List.map_map, Function.comp_def]
  rfl

theorem notifier_at {merged : Config} (h : Composed docs merged) (i : Nat) :
    merged.notifiers[i]? = (placed_notifiers docs)[i]?.map (fun placed =>
      namespace_notifier placed.1.1 (org_event_tags placed.1.1 placed.1.2) placed.2) := by
  rw [h.notifiers, ← List.getElem?_map, placed_notifiers, List.map_flatMap]
  simp only [List.map_map, Function.comp_def]
  rfl

theorem mem_placed_sources :
    (a, s) ∈ placed_sources docs ↔ a ∈ docs ∧ s ∈ a.2.sources := by
  unfold placed_sources
  simp only [List.mem_flatMap, List.mem_map, Prod.mk.injEq]
  constructor
  · rintro ⟨doc, hdoc, s', hs', rfl, rfl⟩
    exact ⟨hdoc, hs'⟩
  · rintro ⟨ha, hs⟩
    exact ⟨a, ha, s, hs, rfl, rfl⟩

theorem mem_placed_notifiers {b : Document} {n : NotifierConfig} :
    (b, n) ∈ placed_notifiers docs ↔ b ∈ docs ∧ n ∈ b.2.notifiers := by
  unfold placed_notifiers
  simp only [List.mem_flatMap, List.mem_map, Prod.mk.injEq]
  constructor
  · rintro ⟨doc, hdoc, n', hn', rfl, rfl⟩
    exact ⟨hdoc, hn'⟩
  · rintro ⟨hb, hn⟩
    exact ⟨b, hb, n, hn, rfl, rfl⟩

theorem composed_tag {readers : Readers} {defaults : Defaults}
    {presets : List (String × SourcePreset)} {watch : Watch}
    (h : into_watch readers env vault (prepared a s) defaults presets = .ok watch) :
    watch.routing_tag = some (namespace_routing_tag a.1 (spoken s)) :=
  into_watch_tag h (prepared_tag _ _ _ _)

theorem alone_tag {readers : Readers} {alone : Watch}
    (h : alone_watch readers env vault a s = .ok alone) :
    alone.routing_tag = own_tag a s := by
  rw [alone_watch, into_watch_parts] at h
  obtain ⟨-, -, _, rfl, _, _, _, -, -, -, rfl⟩ := h
  rfl

/-- What a source and its listeners are in the composition they are in its own document. -/
structure SameMeaning (docs : List Document) (merged : Config) (a : Document) (alone watch : Watch) :
    Prop where
  same : SameWatch a.1 alone watch
  heard : ∀ (i : Nat) (b : Document) (n : NotifierConfig),
    (placed_notifiers docs)[i]? = some (b, n) → ∃ notifier, merged.notifiers[i]? = some notifier ∧
      (matches_routing_tags notifier.routing_tags watch.routing_tag = true ↔
        b.1 = a.1 ∧ matches_routing_tags n.routing_tags alone.routing_tag = true)

/-- Every source that makes a watch in its own document makes one of the same meaning in the
composition. -/
def KeepsMeaning (readers : Readers) (env vault : String → Option String) (docs : List Document)
    (merged : Config) : Prop :=
  ∀ (j : Nat) (a : Document) (s : SourceConfig), (placed_sources docs)[j]? = some (a, s) →
    ∀ alone, alone_watch readers env vault a s = .ok alone →
      ∃ source watch, merged.sources[j]? = some source ∧
        into_watch readers env vault source merged.defaults
          (effective_source_presets merged.presets) = .ok watch ∧
        SameMeaning docs merged a alone watch

/-! ## A preset -/

/-- One source with a preset, and one sink. -/
def team (preset : SourcePreset) : DesiredWire where
  defaults := none
  notifiers := [.Kafka { brokers := ["k"], topic := "t", tags := ["x"] }]
  teams := []
  presets := [("p", preset)]
  sources := [.Github { repo := "o/r", common := { preset := some "p", routing_tag := some "x" } }]

def team_text (value : String) : String :=
  "notifiers:\n- type: kafka\n  brokers: [k]\n  topic: t\n  tags: [x]\npresets:\n  p:\n    " ++
    value ++ "\nsources:\n- type: github\n  repo: o/r\n  preset: p\n  routing_tag: x\n"

/-- The organization `a` with the document. -/
def team_setup (preset : SourcePreset) (value : String) : Setup where
  codec := Codec.samples [(.Yaml, team preset, team_text value)]
  env := fun _ => none
  files := { text := fun _ => some (team_text value) }
  sha256 := id

def team_bootstrap : Config := { organizations := [{ id := "a", app := some "a.yaml" }] }

theorem team_loaded (preset : SourcePreset) {value : String} (h : NoRemovedKey (team_text value)) :
    load_organization (team_setup preset value) "a" (team_text value) .AppFile =
      .ok (team preset).document := by
  have hread : (team_setup preset value).codec.read .Yaml (team_text value) =
      some (team preset).document := by
    simp [team_setup, Codec.samples]
  have hother : (team_setup preset value).codec.read .Toml (team_text value) = none := by
    simp [team_setup, Codec.samples]
  unfold load_organization parse_desired_document
  rw [parse_of_read h hread hother none]
  rfl

theorem team_chosen (preset : SourcePreset) (value : String) :
    chosen_document (team_setup preset value) [] team_bootstrap none
      { id := "a", app := some "a.yaml" } = .ok (team_text value, .AppFile) := rfl

theorem team_documents (preset : SourcePreset) {value : String}
    (h : NoRemovedKey (team_text value)) :
    documents (team_setup preset value) [] team_bootstrap none =
      .ok [("a", (team preset).document)] := by
  have hone : document_of (team_setup preset value) [] team_bootstrap none
      { id := "a", app := some "a.yaml" } = .ok ("a", (team preset).document) := by
    unfold document_of
    simp only [team_chosen, bind, Except.bind, team_loaded preset h]
    rfl
  unfold documents
  unfold team_bootstrap at hone ⊢
  simp only [List.mapM_cons, List.mapM_nil, hone]
  rfl

theorem team_composes (preset : SourcePreset) {value : String}
    (h : NoRemovedKey (team_text value)) :
    ∃ composed, compose_organizations (team_setup preset value) [] team_bootstrap none =
      .ok composed := by
  have hone : compose_one (team_setup preset value) [] team_bootstrap none
      { override_used := true } { id := "a", app := some "a.yaml" } =
      .ok (join_organization { override_used := true } "a" (team_text value) .AppFile
        (namespace_organization_desired "a" (team preset).document)) := by
    unfold compose_one
    simp only [team_chosen, bind, Except.bind, team_loaded preset h]
    rfl
  have hfold : team_bootstrap.organizations.foldlM
      (compose_one (team_setup preset value) [] team_bootstrap none) { override_used := true } =
      .ok (join_organization { override_used := true } "a" (team_text value) .AppFile
        (namespace_organization_desired "a" (team preset).document)) := by
    unfold team_bootstrap at hone ⊢
    rw [List.foldlM_cons, hone]
    rfl
  have hused : (none : Option (String × String)).isNone = true := rfl
  unfold compose_organizations
  simp only [hused, hfold, bind, Except.bind]
  exact ⟨_, rfl⟩

/-- No pattern and no schedule is read here. -/
def no_readers : Readers := ⟨fun _ => none, fun _ => .error "no schedule"⟩

/-- A document means in the composition what it means alone, for every source whose values are
not overruled there and whose tags are kept, and for no other one. -/
theorem a_document_keeps_its_meaning {setup : Setup} {ledger : List ConfigRevision}
    {bootstrap : Config} {override_document : Option (String × String)}
    {composed : ComposedOrganizations} {docs : List Document}
    (hcomposed : compose_organizations setup ledger bootstrap override_document = .ok composed)
    (hdocs : documents setup ledger bootstrap override_document = .ok docs)
    (readers : Readers) (vault : String → Option String) :
    KeepsMeaning readers setup.env vault docs composed.merged ↔
      ∀ a ∈ docs, ∀ s ∈ a.2.sources,
        (∃ alone, alone_watch readers setup.env vault a s = .ok alone) →
          KeptWatch readers docs a s ∧ KeptRouting docs a s := by
  obtain ⟨docs', hdocs', h⟩ := composed_of_ok hcomposed
  obtain rfl := Except.ok.inj (hdocs.symm.trans hdocs')
  constructor
  · rintro hall a ha s hs ⟨alone, halone⟩
    obtain ⟨j, hj⟩ := List.mem_iff_getElem?.mp (mem_placed_sources.mpr ⟨ha, hs⟩)
    obtain ⟨source, watch, hsource, hwatch, hmeaning⟩ := hall j a s hj alone halone
    rw [source_at h, hj] at hsource
    obtain rfl := Option.some.inj hsource
    refine ⟨(composed_watch_iff h halone).mp ⟨watch, hwatch, hmeaning.same⟩, ?_⟩
    refine (heard_alike_iff h.distinct ha hs).mp ?_
    intro b hb n hn
    obtain ⟨i, hi⟩ := List.mem_iff_getElem?.mp (mem_placed_notifiers.mpr ⟨hb, hn⟩)
    obtain ⟨notifier, hnotifier, hheard⟩ := hmeaning.heard i b n hi
    rw [notifier_at h, hi] at hnotifier
    obtain rfl := Option.some.inj hnotifier
    rwa [composed_tag hwatch, alone_tag halone] at hheard
  · intro hkept j a s hj alone halone
    obtain ⟨ha, hs⟩ := mem_placed_sources.mp (List.mem_of_getElem? hj)
    obtain ⟨hw, hr⟩ := hkept a ha s hs ⟨alone, halone⟩
    obtain ⟨watch, hwatch, hsame⟩ := (composed_watch_iff h halone).mpr hw
    refine ⟨prepared a s, watch, by rw [source_at h, hj]; rfl, hwatch, hsame, ?_⟩
    intro i b n hi
    obtain ⟨hb, hn⟩ := mem_placed_notifiers.mp (List.mem_of_getElem? hi)
    refine ⟨_, by rw [notifier_at h, hi]; rfl, ?_⟩
    rw [composed_tag hwatch, alone_tag halone]
    exact (heard_alike_iff h.distinct ha hs).mpr hr b hb n hn

theorem a_document_keeps_its_meaning_here :
    ∃ docs composed,
      documents (team_setup { include_prerelease := some true } "include_prerelease: true") []
        team_bootstrap none = .ok docs ∧ docs.length = 1 ∧
      compose_organizations (team_setup { include_prerelease := some true }
        "include_prerelease: true") [] team_bootstrap none = .ok composed ∧
      KeepsMeaning no_readers (fun _ => none) (fun _ => none) docs composed.merged := by
  have hchars : ∀ s : List Char, (String.ofList s).toList = s := fun _ => String.toList_ofList
  have hfree : NoRemovedKey (team_text "include_prerelease: true") := by
    apply noRemovedKey_of_chars
    · unfold team_text
      rw [String.toList_append, String.toList_append, hchars, hchars, hchars]
    · decide +kernel
  obtain ⟨composed, hc⟩ := team_composes { include_prerelease := some true } hfree
  have hdocs := team_documents { include_prerelease := some true } hfree
  refine ⟨_, composed, hdocs, rfl, hc, ?_⟩
  refine (a_document_keeps_its_meaning hc hdocs no_readers (fun _ => none)).mpr ?_
  intro a ha s hs _
  obtain rfl := List.mem_singleton.mp ha
  obtain rfl := List.mem_singleton.mp hs
  have hown : own_preset ("a", (team { include_prerelease := some true }).document)
      (.Github { repo := "o/r", common := { preset := some "p", routing_tag := some "x" } }) =
      { include_prerelease := some true } := by
    decide +kernel
  have hcomposed : composed_preset [("a", (team { include_prerelease := some true }).document)]
      ("a", (team { include_prerelease := some true }).document)
      (.Github { repo := "o/r", common := { preset := some "p", routing_tag := some "x" } }) =
      { include_prerelease := some true } := by
    decide +kernel
  constructor
  · refine ⟨by decide +kernel, ?_, ?_, ?_, ?_, by decide +kernel, ?_⟩
    · intro name hname
      have hnamed : name = "a::p" := by
        rw [← Option.some.injEq, ← hname]
        decide +kernel
      subst hnamed
      decide +kernel
    · rw [hown]
      intro _ _ h
      exact absurd h (by simp)
    · rw [hown]
      intro _ _ h
      exact absurd h (by simp)
    · rw [hown]
      intro _ _ h
      exact absurd h (by simp)
    · rw [hown, hcomposed]
      exact ⟨fun _ => rfl, fun _ => rfl, fun _ => rfl, fun _ => rfl, fun _ => rfl⟩
  · constructor
    · intro n hn _
      obtain rfl := List.mem_singleton.mp hn
      exact ⟨fun _ => ⟨"x", List.mem_singleton_self _, by decide +kernel⟩,
        fun _ => ⟨"x", List.mem_singleton_self _, by decide +kernel⟩⟩
    · intro b hb hne
      obtain rfl := List.mem_singleton.mp hb
      exact absurd rfl hne

/-- A preset's interval counts alone, and loses to the built-in default in the composition. -/
theorem a_preset_loses_its_interval :
    ∃ docs composed,
      documents (team_setup { interval_secs := some 60 } "interval_secs: 60") [] team_bootstrap
        none = .ok docs ∧
      compose_organizations (team_setup { interval_secs := some 60 } "interval_secs: 60") []
        team_bootstrap none = .ok composed ∧
      ¬ KeepsMeaning no_readers (fun _ => none) (fun _ => none) docs composed.merged := by
  have hchars : ∀ s : List Char, (String.ofList s).toList = s := fun _ => String.toList_ofList
  have hfree : NoRemovedKey (team_text "interval_secs: 60") := by
    apply noRemovedKey_of_chars
    · unfold team_text
      rw [String.toList_append, String.toList_append, hchars, hchars, hchars]
    · decide +kernel
  obtain ⟨composed, hc⟩ := team_composes { interval_secs := some 60 } hfree
  have hdocs := team_documents { interval_secs := some 60 } hfree
  refine ⟨_, composed, hdocs, hc, fun h => ?_⟩
  obtain ⟨docs, hdocs', hall⟩ := composed_of_ok hc
  obtain rfl := Except.ok.inj (hdocs.symm.trans hdocs')
  obtain ⟨alone, halone⟩ : ∃ alone, alone_watch no_readers (fun _ => none) (fun _ => none)
      ("a", (team { interval_secs := some 60 }).document)
      (.Github { repo := "o/r", common := { preset := some "p", routing_tag := some "x" } }) =
      .ok alone := of_isSome (by decide +kernel)
  obtain ⟨source, watch, hsource, hwatch, hmeaning⟩ := h 0 _ _ rfl alone halone
  rw [source_at hall] at hsource
  obtain rfl := Option.some.inj hsource
  have hkept := (composed_watch_iff hall halone).mp ⟨watch, hwatch, hmeaning.same⟩
  have hinterval := hkept.interval rfl 60 (by decide +kernel)
  exact absurd hinterval (by decide +kernel)

end xrelease.alone
