-- Who hears an organization's events when many run in one process: its own notifiers only, as
-- long as no prefixed tag of one organization reads like a prefixed tag of another.
import Mathlib.Data.List.Dedup
import Xrelease.Composed

namespace xrelease.isolated

open xrelease.config xrelease.composed xrelease.engine xrelease.store text

/-! ## Where an entry came from -/

/-- The notifiers of the composition with the organization of each. -/
def owned_notifiers (docs : List Document) : List (String × NotifierConfig) :=
  docs.flatMap (fun doc => (namespaced doc).notifiers.map (fun notifier => (doc.1, notifier)))

def owned_sources (docs : List Document) : List (String × SourceConfig) :=
  docs.flatMap (fun doc => (namespaced doc).sources.map (fun source => (doc.1, source)))

/-- The organization of the sink or the watch at an index. -/
def notifier_owner (docs : List Document) (index : Nat) : Option String :=
  (owned_notifiers docs)[index]?.map Prod.fst

def source_owner (docs : List Document) (index : Nat) : Option String :=
  (owned_sources docs)[index]?.map Prod.fst

variable {docs : List Document} {merged : Config} {makers : Makers}
  {env vault : String → Option String}

theorem owned_notifiers_snd (h : Composed docs merged) :
    (owned_notifiers docs).map Prod.snd = merged.notifiers := by
  rw [h.notifiers, owned_notifiers, List.map_flatMap]
  simp only [List.map_map, Function.comp_def, List.map_id']

theorem owned_sources_snd (h : Composed docs merged) :
    (owned_sources docs).map Prod.snd = merged.sources := by
  rw [h.sources, owned_sources, List.map_flatMap]
  simp only [List.map_map, Function.comp_def, List.map_id']

/-! ## Tags -/

/-- The tag that a source's events carry before the prefix. -/
def spoken (source : SourceConfig) : String := (named source.common.routing_tag).getD "__org__"

/-- The tags that a notifier of the document hears, before the prefix; one without tags hears
whatever its own organization says. -/
def heard (config : Config) (notifier : NotifierConfig) : List String :=
  if notifier.routing_tags = [] then
    "__org__" :: config.sources.filterMap (fun source => named source.common.routing_tag) ++
      (named config.defaults.ops_routing_tag).toList
  else notifier.routing_tags

theorem mem_tag_set (tags : List String) (tag : String) : tag ∈ tag_set tags ↔ tag ∈ tags := by
  unfold tag_set
  rw [List.mem_mergeSort, List.mem_dedup]

/-- The prefixed notifier listens to the prefixed tags. -/
theorem mem_namespaced_tags (id : String) (config : Config) (notifier : NotifierConfig)
    (tag : String) :
    tag ∈ (namespace_notifier id (org_event_tags id config) notifier).routing_tags ↔
      ∃ u ∈ heard config notifier, tag = namespace_routing_tag id u := by
  unfold namespace_notifier heard
  split
  · rw [NotifierConfig.routing_tags_with, org_event_tags, mem_tag_set]
    simp only [List.cons_append, List.mem_cons, List.mem_append, List.mem_map, broadcast_tag]
    constructor
    · rintro (rfl | ⟨u, hu, rfl⟩ | ⟨u, hu, rfl⟩)
      · exact ⟨"__org__", Or.inl rfl, rfl⟩
      · exact ⟨u, Or.inr (Or.inl hu), rfl⟩
      · exact ⟨u, Or.inr (Or.inr hu), rfl⟩
    · rintro ⟨u, rfl | hu | hu, rfl⟩
      · exact Or.inl rfl
      · exact Or.inr (Or.inl ⟨u, hu, rfl⟩)
      · exact Or.inr (Or.inr ⟨u, hu, rfl⟩)
  · rw [NotifierConfig.routing_tags_with]
    simp only [List.mem_map, eq_comm]

theorem namespaced_tags_ne_nil (id : String) (config : Config) (notifier : NotifierConfig) :
    (namespace_notifier id (org_event_tags id config) notifier).routing_tags ≠ [] := by
  have hsome : ∃ u, u ∈ heard config notifier := by
    unfold heard
    split
    · exact ⟨"__org__", by simp⟩
    · rename_i h
      exact List.exists_mem_of_ne_nil _ h
  obtain ⟨u, hu⟩ := hsome
  exact List.ne_nil_of_mem ((mem_namespaced_tags id config notifier _).mpr ⟨u, hu, rfl⟩)

theorem prepared_tag (id : String) (defaults : Defaults) (user_presets : List String)
    (source : SourceConfig) :
    (prepare_source id defaults user_presets source).common.routing_tag =
      some (namespace_routing_tag id (spoken source)) := by
  unfold prepare_source spoken
  rw [SourceConfig.common_with_id_common]
  unfold prepare_common named broadcast_tag
  cases source.common.routing_tag with
  | none => rfl
  | some tag =>
    simp only
    split
    · rfl
    · simp only [Option.getD_some, namespace_routing_tag, namespace_scoped, vaulted.trim_trim]

/-- What follows the prefix. -/
def bare (id value : String) : String :=
  if starts_with (id ++ ORGANIZATION_SEP) (trim value) then
    String.ofList ((trim value).toList.drop (id ++ ORGANIZATION_SEP).toList.length)
  else trim value

theorem namespace_scoped_eq (id value : String) :
    namespace_scoped id value = id ++ ORGANIZATION_SEP ++ bare id value := by
  unfold namespace_scoped bare
  simp only
  split
  · rename_i h
    unfold starts_with at h
    obtain ⟨rest, hrest⟩ := List.isPrefixOf_iff_prefix.mp h
    rw [← String.toList_inj, String.toList_append, String.toList_ofList, ← hrest,
      List.drop_left]
  · rfl

theorem trimmed_ne_nil {s : List Char} {c : Char} (hc : c ∈ s) (hw : is_whitespace c = false) :
    trimmed s ≠ [] := by
  unfold trimmed trim_end_matches trim_start_matches
  intro h
  rw [List.rdropWhile_eq_nil_iff] at h
  have hnil : s.dropWhile is_whitespace = [] := by
    by_contra hne
    have hhead := List.head_dropWhile_not is_whitespace hne
    have := h _ (List.head_mem hne)
    simp [this] at hhead
  rw [List.dropWhile_eq_nil_iff] at hnil
  simp [hnil c hc] at hw

/-- A prefixed tag is never blank. -/
theorem namespaced_not_blank (id tag : String) : trim (namespace_routing_tag id tag) ≠ "" := by
  have hcolon : ':' ∈ (namespace_routing_tag id tag).toList := by
    unfold namespace_routing_tag
    rw [namespace_scoped_eq]
    simp [ORGANIZATION_SEP]
  have hne := trimmed_ne_nil hcolon (by decide)
  unfold trim
  intro h
  rw [← String.toList_inj, String.toList_ofList] at h
  exact hne h

/-- A prefixed notifier takes an event exactly when one of its tags reads like that of the
event. -/
theorem hears_iff (id : String) (config : Config) (notifier : NotifierConfig) {tag : String}
    (htag : trim tag ≠ "") :
    matches_routing_tags
        (namespace_notifier id (org_event_tags id config) notifier).routing_tags (some tag) = true ↔
      ∃ u ∈ heard config notifier, trim (namespace_routing_tag id u) = trim tag := by
  have hne := namespaced_tags_ne_nil id config notifier
  unfold matches_routing_tags
  simp only [List.isEmpty_iff, hne, if_false, Option.map_some, Option.filter_some, ne_eq, htag,
    not_false_eq_true, decide_true, if_true, List.any_eq_true, decide_eq_true_eq]
  constructor
  · rintro ⟨t, ht, h⟩
    obtain ⟨u, hu, rfl⟩ := (mem_namespaced_tags id config notifier t).mp ht
    exact ⟨u, hu, h⟩
  · rintro ⟨u, hu, h⟩
    exact ⟨_, (mem_namespaced_tags id config notifier _).mpr ⟨u, hu, rfl⟩, h⟩

/-! ## What runs -/

theorem mem_owned_notifiers {id : String} {notifier : NotifierConfig} :
    (id, notifier) ∈ owned_notifiers docs ↔ ∃ doc ∈ docs, doc.1 = id ∧
      ∃ n ∈ doc.2.notifiers, notifier = namespace_notifier id (org_event_tags id doc.2) n := by
  unfold owned_notifiers namespaced namespace_organization_desired
  simp only [List.mem_flatMap, List.mem_map, Prod.mk.injEq]
  constructor
  · rintro ⟨doc, hdoc, _, ⟨n, hn, rfl⟩, rfl, rfl⟩
    exact ⟨doc, hdoc, rfl, n, hn, rfl⟩
  · rintro ⟨doc, hdoc, rfl, n, hn, rfl⟩
    exact ⟨doc, hdoc, _, ⟨n, hn, rfl⟩, rfl, rfl⟩

theorem mem_owned_sources {id : String} {source : SourceConfig} :
    (id, source) ∈ owned_sources docs ↔ ∃ doc ∈ docs, doc.1 = id ∧ ∃ s ∈ doc.2.sources,
      source = prepare_source id (namespace_defaults id doc.2.defaults)
        (doc.2.presets.map Prod.fst) s := by
  unfold owned_sources namespaced namespace_organization_desired
  simp only [List.mem_flatMap, List.mem_map, Prod.mk.injEq]
  constructor
  · rintro ⟨doc, hdoc, _, ⟨s, hs, rfl⟩, rfl, rfl⟩
    exact ⟨doc, hdoc, rfl, s, hs, rfl⟩
  · rintro ⟨doc, hdoc, rfl, s, hs, rfl⟩
    exact ⟨doc, hdoc, _, ⟨s, hs, rfl⟩, rfl, rfl⟩

/-- The sinks that take an event. -/
theorem mem_matching_iff (h : Composed docs merged) {built : List BuiltSink}
    (hbuilt : build_notifiers makers env vault merged = .ok built) (view : NotifierConfig → Sink)
    (event : Event) (index : Nat) :
    index ∈ matching_indices (as_engine view built) event ↔
      ∃ id notifier, (owned_notifiers docs)[index]? = some (id, notifier) ∧
        matches_routing_tags notifier.routing_tags event.routing_tag = true := by
  have htags := build_notifiers_tags hbuilt
  rw [← owned_notifiers_snd h, List.map_map] at htags
  have hat := congrArg (fun l : List (List String) => l[index]?) htags
  simp only [List.getElem?_map] at hat
  unfold matching_indices as_engine
  simp only [List.mem_filter, List.mem_range, List.length_map, List.getElem?_map]
  cases hb : built[index]? with
  | none =>
    rw [hb, Option.map_none, eq_comm, Option.map_eq_none_iff] at hat
    simp [hat]
  | some sink =>
    obtain ⟨hlt, -⟩ := List.getElem?_eq_some_iff.mp hb
    cases ho : (owned_notifiers docs)[index]? with
    | none => simp [hb, ho] at hat
    | some owned =>
      obtain ⟨id, notifier⟩ := owned
      simp only [hb, ho, Option.map_some, Option.some.injEq, Function.comp] at hat
      simp [hlt, hat, RoutedSink.accepts]

/-- What a loop that may fail makes of a list, entry by entry. -/
theorem mapM_getElem {α β ε : Type} {f : α → Except ε β} {l : List α} {out : List β}
    (h : l.mapM f = .ok out) (j : Nat) :
    (∀ b, out[j]? = some b → ∃ a, l[j]? = some a ∧ f a = .ok b) ∧
      ∀ a, l[j]? = some a → ∃ b, out[j]? = some b ∧ f a = .ok b := by
  induction l generalizing out j with
  | nil =>
    obtain rfl := Except.ok.inj h
    simp
  | cons a rest ih =>
    rw [List.mapM_cons] at h
    cases hf : f a with
    | error err => simp [hf, bind, Except.bind] at h
    | ok b =>
      cases hr : rest.mapM f with
      | error err => simp [hf, hr, bind, Except.bind] at h
      | ok bs =>
        simp only [hf, hr, bind, Except.bind, pure, Except.pure, Except.ok.injEq] at h
        subst h
        cases j with
        | zero => simp [hf]
        | succ j => simpa using ih hr j

/-- The watches in the order of the sources, each with the prefixed tag of its source. -/
theorem watch_at (h : Composed docs merged) {watches : List Watch}
    (hwatches : to_watches makers env vault merged = .ok watches) {j : Nat} {watch : Watch}
    (hw : watches[j]? = some watch) :
    ∃ doc ∈ docs, ∃ s ∈ doc.2.sources, source_owner docs j = some doc.1 ∧
      watch.routing_tag = some (namespace_routing_tag doc.1 (spoken s)) := by
  obtain ⟨source, hs, hbuild⟩ := (mapM_getElem hwatches j).1 watch hw
  rw [← owned_sources_snd h, List.getElem?_map] at hs
  cases ho : (owned_sources docs)[j]? with
  | none => simp [ho] at hs
  | some owned =>
    obtain ⟨id, source'⟩ := owned
    simp only [ho, Option.map_some, Option.some.injEq] at hs
    subst hs
    obtain ⟨doc, hdoc, rfl, s, hs, rfl⟩ := mem_owned_sources.mp (List.mem_of_getElem? ho)
    refine ⟨doc, hdoc, s, hs, by simp [source_owner, ho], ?_⟩
    exact watch_of_tag hbuild (prepared_tag _ _ _ _)

/-- The source of every organization runs as a watch. -/
theorem watch_of_source (h : Composed docs merged) {watches : List Watch}
    (hwatches : to_watches makers env vault merged = .ok watches) {doc : Document}
    (hdoc : doc ∈ docs) {s : SourceConfig} (hs : s ∈ doc.2.sources) :
    ∃ (j : Nat) (watch : Watch), watches[j]? = some watch ∧ source_owner docs j = some doc.1 ∧
      watch.routing_tag = some (namespace_routing_tag doc.1 (spoken s)) := by
  have hmem := mem_owned_sources.mpr ⟨doc, hdoc, rfl, s, hs, rfl⟩
  obtain ⟨j, hj⟩ := List.mem_iff_getElem?.mp hmem
  have hsource := congrArg (fun l : List SourceConfig => l[j]?) (owned_sources_snd h)
  simp only [List.getElem?_map, hj, Option.map_some] at hsource
  obtain ⟨watch, hw, hbuild⟩ := (mapM_getElem hwatches j).2 _ hsource.symm
  refine ⟨j, watch, hw, by simp [source_owner, hj], ?_⟩
  exact watch_of_tag hbuild (prepared_tag _ _ _ _)

/-! ## The law -/

/-- The events of an organization's sources, and the operational alerts about them, reach its own
notifiers only. -/
structure Isolated (docs : List Document) (sinks : Notifier) (watches : List Watch)
    (alerts : Option String) : Prop where
  events : ∀ (j : Nat) (watch : Watch), watches[j]? = some watch →
    ∀ event : Event, event.routing_tag = watch.routing_tag →
      ∀ i ∈ matching_indices sinks event, notifier_owner docs i = source_owner docs j
  alerts : ∀ tag, alerts = some tag → ∀ (j : Nat) (id : String), source_owner docs j = some id →
    ∀ event : Event, event.routing_tag = some tag →
      ∀ i ∈ matching_indices sinks event, notifier_owner docs i = some id

/-- No tag that one organization speaks reads, under its prefix, like a tag that another one
hears under its own. -/
def TagsApart (docs : List Document) : Prop :=
  ∀ a ∈ docs, ∀ b ∈ docs, a.1 ≠ b.1 → ∀ s ∈ a.2.sources, ∀ n ∈ b.2.notifiers,
    ∀ u ∈ heard b.2 n,
      trim (namespace_routing_tag b.1 u) ≠ trim (namespace_routing_tag a.1 (spoken s))

/-- The one alert tag of the process, that of the first organization, is heard by no notifier but
those of the only organization with sources. -/
def AlertsAtHome (docs : List Document) : Prop :=
  ∀ tag, named (lead_defaults docs).ops_routing_tag = some tag →
    ∀ a ∈ docs, a.2.sources ≠ [] → ∀ b ∈ docs, a.1 ≠ b.1 → ∀ n ∈ b.2.notifiers,
      ∀ u ∈ heard b.2 n, trim (namespace_routing_tag b.1 u) ≠ tag

/-- A slug that is trimmed at its start and has no separator in it. -/
def PlainId (id : String) : Prop :=
  ':' ∉ id.toList ∧ ∀ c, id.toList.head? = some c → is_whitespace c = false

/-- Under a plain id the prefix survives the trimming of the routing match. -/
theorem prefix_survives {id : String} (h : PlainId id) (tag : String) :
    ∃ rest, (trim (namespace_routing_tag id tag)).toList = id.toList ++ ':' :: rest := by
  obtain ⟨-, hhead⟩ := h
  have hstart : ∀ rest, trim_start_matches is_whitespace (id.toList ++ ':' :: rest) =
      id.toList ++ ':' :: rest := by
    intro rest
    unfold trim_start_matches
    cases hid : id.toList with
    | nil => exact List.dropWhile_cons_of_neg (by decide)
    | cons c cs => exact List.dropWhile_cons_of_neg (by simp [hhead c (by rw [hid]; rfl)])
  refine ⟨trim_end_matches is_whitespace (':' :: (bare id tag).toList), ?_⟩
  unfold trim namespace_routing_tag trimmed
  rw [namespace_scoped_eq, String.toList_ofList]
  have hparts : (id ++ ORGANIZATION_SEP ++ bare id tag).toList =
      id.toList ++ ':' :: ':' :: (bare id tag).toList := by
    simp [ORGANIZATION_SEP]
  rw [hparts, hstart]
  unfold trim_end_matches List.rdropWhile
  have hlater : ((':' :: (bare id tag).toList).reverse.dropWhile is_whitespace).isEmpty = false := by
    rw [List.isEmpty_eq_false_iff]
    intro hnil
    rw [List.dropWhile_eq_nil_iff] at hnil
    exact absurd (hnil ':' (by simp)) (by decide)
  have hsplit : (id.toList ++ ':' :: ':' :: (bare id tag).toList).reverse =
      (':' :: (bare id tag).toList).reverse ++ (':' :: id.toList.reverse) := by
    simp
  rw [hsplit, List.dropWhile_append, hlater]
  simp

/-- Plain slugs keep the tags apart, whatever the documents say. -/
theorem tags_apart_of_plain (h : ∀ doc ∈ docs, PlainId doc.1) :
    TagsApart docs := by
  intro a ha b hb hab s hs n hn u hu heq
  obtain ⟨ra, hra⟩ := prefix_survives (h a ha) (spoken s)
  obtain ⟨rb, hrb⟩ := prefix_survives (h b hb) u
  have hlists : b.1.toList ++ ':' :: rb = a.1.toList ++ ':' :: ra := by
    rw [← hra, ← hrb, heq]
  have hcut := congrArg (List.takeWhile (fun c => c != ':')) hlists
  have hid : ∀ doc ∈ docs, ∀ rest,
      (doc.1.toList ++ ':' :: rest).takeWhile (fun c => c != ':') = doc.1.toList := by
    intro doc hdoc rest
    rw [List.takeWhile_append_of_pos]
    · simp
    · intro c hc
      have hnot := (h doc hdoc).1
      have hne : c ≠ ':' := by
        rintro rfl
        exact hnot hc
      simpa using hne
  rw [hid b hb, hid a ha] at hcut
  exact hab (String.toList_inj.mp hcut).symm

/-- Who takes an event with a tag. -/
theorem taken_iff (h : Composed docs merged) {built : List BuiltSink}
    (hbuilt : build_notifiers makers env vault merged = .ok built) (view : NotifierConfig → Sink)
    {event : Event} {tag : String} (hevent : event.routing_tag = some tag) (htag : trim tag ≠ "")
    (id : String) :
    (∃ i ∈ matching_indices (as_engine view built) event, notifier_owner docs i = some id) ↔
      ∃ doc ∈ docs, doc.1 = id ∧ ∃ n ∈ doc.2.notifiers, ∃ u ∈ heard doc.2 n,
        trim (namespace_routing_tag id u) = trim tag := by
  simp only [mem_matching_iff h hbuilt, hevent]
  constructor
  · rintro ⟨i, ⟨id', notifier, ho, hm⟩, howner⟩
    simp only [notifier_owner, ho, Option.map_some, Option.some.injEq] at howner
    subst howner
    obtain ⟨doc, hdoc, hid, n, hn, rfl⟩ := mem_owned_notifiers.mp (List.mem_of_getElem? ho)
    exact ⟨doc, hdoc, hid, n, hn, (hears_iff _ _ _ htag).mp hm⟩
  · rintro ⟨doc, hdoc, hid, n, hn, hu⟩
    have hmem := mem_owned_notifiers.mpr ⟨doc, hdoc, hid, n, hn, rfl⟩
    obtain ⟨i, hi⟩ := List.mem_iff_getElem?.mp hmem
    exact ⟨i, ⟨id, _, hi, (hears_iff _ _ _ htag).mpr hu⟩, by simp [notifier_owner, hi]⟩

/-- Every sink that takes an event has an owner. -/
theorem owner_of_matching (h : Composed docs merged) {built : List BuiltSink}
    (hbuilt : build_notifiers makers env vault merged = .ok built) (view : NotifierConfig → Sink)
    {event : Event} {i : Nat} (hi : i ∈ matching_indices (as_engine view built) event) :
    ∃ id, notifier_owner docs i = some id := by
  obtain ⟨id, notifier, ho, -⟩ := (mem_matching_iff h hbuilt view event i).mp hi
  exact ⟨id, by simp [notifier_owner, ho]⟩

/-- Every organization with a source runs one of its sources at some index. -/
theorem owner_has_sources {j : Nat} {id : String} (h : source_owner docs j = some id) :
    ∃ doc ∈ docs, doc.1 = id ∧ doc.2.sources ≠ [] := by
  unfold source_owner at h
  obtain ⟨⟨id', source⟩, ho, rfl⟩ := Option.map_eq_some_iff.mp h
  obtain ⟨doc, hdoc, hid, s, hs, -⟩ := mem_owned_sources.mp (List.mem_of_getElem? ho)
  exact ⟨doc, hdoc, hid, List.ne_nil_of_mem hs⟩

theorem trim_of_named {raw : Option String} {tag : String} (h : named raw = some tag) :
    trim tag = tag ∧ trim tag ≠ "" := by
  unfold named at h
  split at h
  · simp at h
  · rename_i text
    split at h
    · simp at h
    · rename_i hb
      obtain rfl := Option.some.inj h
      rw [vaulted.trim_trim]
      exact ⟨rfl, by simpa [blank] using hb⟩

section Running

variable {docs : List Document} {merged : Config} {makers : Makers}
  {env vault : String → Option String} {built : List BuiltSink} {watches : List Watch}

theorem events_iff (h : Composed docs merged)
    (hbuilt : build_notifiers makers env vault merged = .ok built)
    (hwatches : to_watches makers env vault merged = .ok watches)
    (view : NotifierConfig → Sink) :
    (∀ (j : Nat) (watch : Watch), watches[j]? = some watch →
      ∀ event : Event, event.routing_tag = watch.routing_tag →
        ∀ i ∈ matching_indices (as_engine view built) event,
          notifier_owner docs i = source_owner docs j) ↔ TagsApart docs := by
  constructor
  · intro hall a ha b hb hab s hs n hn u hu heq
    obtain ⟨j, watch, hw, howner, htag⟩ := watch_of_source h hwatches ha hs
    let event : Event :=
      { source_id := "", source_kind := "", title := "", body := "", url := none,
        routing_tag := watch.routing_tag }
    have hevent : event.routing_tag = some (namespace_routing_tag a.1 (spoken s)) := htag
    have htaken := taken_iff h hbuilt view hevent (namespaced_not_blank _ _) b.1
    obtain ⟨i, hi, hio⟩ := htaken.mpr ⟨b, hb, rfl, n, hn, u, hu, heq⟩
    have hsame := hall j watch hw event rfl i hi
    rw [hio, howner] at hsame
    exact hab (Option.some.inj hsame).symm
  · intro hapart j watch hw event hevent i hi
    obtain ⟨a, ha, s, hs, howner, htag⟩ := watch_at h hwatches hw
    obtain ⟨id, hid⟩ := owner_of_matching h hbuilt view hi
    have htaken := taken_iff h hbuilt view (hevent.trans htag) (namespaced_not_blank _ _) id
    obtain ⟨b, hb, rfl, n, hn, u, hu, heq⟩ := htaken.mp ⟨i, hi, hid⟩
    rw [hid, howner]
    by_contra hne
    exact hapart a ha b hb (fun hab => hne (by rw [hab])) s hs n hn u hu heq

theorem alerts_iff (h : Composed docs merged)
    (hbuilt : build_notifiers makers env vault merged = .ok built)
    (hwatches : to_watches makers env vault merged = .ok watches)
    (view : NotifierConfig → Sink) :
    (∀ tag, ops_tag merged = some tag → ∀ (j : Nat) (id : String),
      source_owner docs j = some id → ∀ event : Event, event.routing_tag = some tag →
        ∀ i ∈ matching_indices (as_engine view built) event, notifier_owner docs i = some id) ↔
      AlertsAtHome docs := by
  have htag : ops_tag merged = named (lead_defaults docs).ops_routing_tag := by
    obtain ⟨rpm, hd⟩ := h.defaults
    rw [ops_tag, hd]
  rw [htag]
  constructor
  · intro hall tag ht a ha hsources b hb hab n hn u hu heq
    obtain ⟨htrim, hne⟩ := trim_of_named ht
    obtain ⟨s, hs⟩ := List.exists_mem_of_ne_nil _ hsources
    obtain ⟨j, -, -, howner, -⟩ := watch_of_source h hwatches ha hs
    let event : Event :=
      { source_id := "", source_kind := "", title := "", body := "", url := none,
        routing_tag := some tag }
    have htaken := taken_iff h hbuilt view (show event.routing_tag = some tag from rfl) hne b.1
    obtain ⟨i, hi, hio⟩ := htaken.mpr ⟨b, hb, rfl, n, hn, u, hu, heq.trans htrim.symm⟩
    have hsame := hall tag ht j a.1 howner event rfl i hi
    rw [hio] at hsame
    exact hab (Option.some.inj hsame).symm
  · intro hhome tag ht j id howner event hevent i hi
    obtain ⟨htrim, hne⟩ := trim_of_named ht
    obtain ⟨a, ha, rfl, hsources⟩ := owner_has_sources howner
    obtain ⟨id', hid⟩ := owner_of_matching h hbuilt view hi
    obtain ⟨b, hb, rfl, n, hn, u, hu, heq⟩ :=
      (taken_iff h hbuilt view hevent hne id').mp ⟨i, hi, hid⟩
    rw [hid]
    by_contra hab
    exact hhome tag ht a ha hsources b hb (fun he => hab (by rw [he])) n hn u hu
      (heq.trans htrim)

end Running

/-- In what the composer accepts and the process runs, organizations are isolated exactly when
their prefixed tags are apart and the one alert tag stays with the only organization that has
sources. -/
theorem organizations_hear_their_own {setup : Setup} {ledger : List ConfigRevision}
    {bootstrap : Config} {override_document : Option (String × String)}
    {composed : ComposedOrganizations} {makers : Makers} {vault : String → Option String}
    {built : List BuiltSink} {watches : List Watch} {docs : List Document}
    (hcomposed : compose_organizations setup ledger bootstrap override_document = .ok composed)
    (hdocs : documents setup ledger bootstrap override_document = .ok docs)
    (hbuilt : build_notifiers makers setup.env vault composed.merged = .ok built)
    (hwatches : to_watches makers setup.env vault composed.merged = .ok watches)
    (view : NotifierConfig → Sink) :
    Isolated docs (as_engine view built) watches (ops_tag composed.merged) ↔
      TagsApart docs ∧ AlertsAtHome docs := by
  obtain ⟨docs', hdocs', h⟩ := composed_of_ok hcomposed
  obtain rfl := Except.ok.inj (hdocs.symm.trans hdocs')
  rw [← events_iff h hbuilt hwatches view, ← alerts_iff h hbuilt hwatches view]
  exact ⟨fun hall => ⟨hall.events, hall.alerts⟩, fun hall => ⟨hall.1, hall.2⟩⟩

/-! ## Two organizations -/

/-- Catches everything that its organization says. -/
def bus_text : String := "notifiers:\n- type: kafka\n  brokers: [k]\n  topic: t\n"

def bus_wire : DesiredWire := ⟨none, [.Kafka { brokers := ["k"], topic := "t" }], [], [], []⟩

def alerting_text : String := bus_text ++ "defaults:\n  ops_routing_tag: ops\n"

def watching_text : String := "sources:\n- type: github\n  repo: o/r\n"

/-- The libraries on the three documents. -/
def two_codec : Codec :=
  Codec.samples
    [(.Yaml, bus_wire, bus_text),
      (.Yaml, { bus_wire with defaults := some { ops_routing_tag := some "ops" } }, alerting_text),
      (.Yaml, ⟨none, [], [], [], [.Github { repo := "o/r" }]⟩, watching_text)]

def two_setup (first : String) : Setup where
  codec := two_codec
  env := fun _ => none
  files := { text := fun path => if path = "a.yaml" then some first else some watching_text }
  sha256 := id

def two_bootstrap : Config :=
  { organizations :=
      [{ id := "a", app := some "a.yaml" }, { id := "b", app := some "b.yaml" }] }

def two_makers : Makers where
  readers := ⟨fun _ => none, fun _ => .error "no schedule"⟩
  json := ⟨fun _ => none, fun _ => none⟩
  construct := fun _ => .ok ()

theorem of_isSome {α : Type} {x : Except String α} (h : x.toOption.isSome) : ∃ a, x = .ok a := by
  cases x with
  | error err => simp [Except.toOption] at h
  | ok a => exact ⟨a, rfl⟩

/-- The two organizations, composed and started. -/
def two_started (first : String) :
    Except String (ComposedOrganizations × List BuiltSink × List Watch) := do
  let composed ← compose_organizations (two_setup first) [] two_bootstrap none
  let built ← build_notifiers two_makers (two_setup first).env (fun _ => none) composed.merged
  let watches ← to_watches two_makers (two_setup first).env (fun _ => none) composed.merged
  return (composed, built, watches)

theorem two_started_parts (first : String) (h : (two_started first).toOption.isSome) :
    ∃ composed built watches,
      compose_organizations (two_setup first) [] two_bootstrap none = .ok composed ∧
      build_notifiers two_makers (two_setup first).env (fun _ => none) composed.merged =
        .ok built ∧
      to_watches two_makers (two_setup first).env (fun _ => none) composed.merged =
        .ok watches := by
  unfold two_started at h
  cases hc : compose_organizations (two_setup first) [] two_bootstrap none with
  | error err => simp [hc, bind, Except.bind, Except.toOption] at h
  | ok composed =>
    simp only [hc, bind, Except.bind] at h
    split at h
    · simp [Except.toOption] at h
    · rename_i built hb
      split at h
      · simp [Except.toOption] at h
      · rename_i watches hw
        exact ⟨composed, built, watches, rfl, hb, hw⟩

theorem organizations_hear_their_own_here :
    ∃ (docs : List Document) (composed : ComposedOrganizations) (built : List BuiltSink)
        (watches : List Watch),
      documents (two_setup bus_text) [] two_bootstrap none = .ok docs ∧ docs.length = 2 ∧
      ∀ view, Isolated docs (as_engine view built) watches (ops_tag composed.merged) := by
  obtain ⟨composed, built, watches, hc, hb, hw⟩ := two_started_parts bus_text
    (by decide +kernel)
  have hdocs : documents (two_setup bus_text) [] two_bootstrap none =
      .ok [("a", bus_wire.document), ("b", { sources := [.Github { repo := "o/r" }] })] := by
    decide +kernel
  refine ⟨_, composed, built, watches, hdocs, rfl, fun view => ?_⟩
  refine (organizations_hear_their_own hc hdocs hb hw view).mpr ⟨?_, ?_⟩
  · apply tags_apart_of_plain
    intro doc hdoc
    simp only [List.mem_cons, List.not_mem_nil, or_false] at hdoc
    rcases hdoc with rfl | rfl <;>
      exact ⟨by decide, fun c hc => by obtain rfl := Option.some.inj hc; decide⟩
  · intro tag htag
    exact absurd htag (by simp [lead_defaults, namespaced, bus_wire, DesiredWire.document,
      namespace_organization_desired, namespace_defaults, named])

/-- The first organization's alert tag is that of the process: what is said about a row of the
second one is told to the first. -/
theorem the_first_organization_hears_every_alert :
    ∃ (docs : List Document) (composed : ComposedOrganizations) (built : List BuiltSink)
        (watches : List Watch),
      documents (two_setup alerting_text) [] two_bootstrap none = .ok docs ∧
      compose_organizations (two_setup alerting_text) [] two_bootstrap none = .ok composed ∧
      build_notifiers two_makers (two_setup alerting_text).env (fun _ => none) composed.merged =
        .ok built ∧
      to_watches two_makers (two_setup alerting_text).env (fun _ => none) composed.merged =
        .ok watches ∧
      ∀ view, ¬ Isolated docs (as_engine view built) watches (ops_tag composed.merged) := by
  obtain ⟨composed, built, watches, hc, hb, hw⟩ := two_started_parts
    alerting_text (by decide +kernel)
  have hdocs : documents (two_setup alerting_text) [] two_bootstrap none =
      .ok [("a", { bus_wire.document with defaults := { ops_routing_tag := some "ops" } }),
        ("b", { sources := [.Github { repo := "o/r" }] })] := by
    decide +kernel
  refine ⟨_, composed, built, watches, hdocs, hc, hb, hw, fun view h => ?_⟩
  obtain ⟨docs, hdocs', hall⟩ := composed_of_ok hc
  obtain rfl := Except.ok.inj (hdocs.symm.trans hdocs')
  have hhome := (alerts_iff hall hb hw view).mp h.alerts
  exact absurd rfl (hhome "a::ops" (by decide +kernel) _ (List.mem_cons_of_mem _ List.mem_cons_self)
    (by simp) _ List.mem_cons_self (by simp) _ List.mem_cons_self "ops" (by decide +kernel))

end xrelease.isolated
