-- The routing check of the form editor (`desired-validation.ts`) beside the one of the server
-- (`validate.rs`): which sources, and whether the operational alerts, are reported as heard by no
-- channel, of the drafts and of the document that is written from them.
import Xrelease.DesiredDocument
import Xrelease.Reached

namespace xrelease.orphans

open text keyed xrelease.desired_document
open xrelease.auth (Value)
open xrelease.auth_store (js_trim)
open xrelease.config (Config SourceConfig NotifierConfig SourcePreset blank named
  effective_source_presets with_preset_resolved)
open xrelease.validate (Finding Routing error_if routing_of unmatched validate_ops_routing
  validate_source_routing validate_team_routing warn_if effective_tag)
open xrelease.reached (Named checked_tag error_not_mem_warn_if named_iff)

/-! ## The channels of the drafts -/

/-- A notifier as the map shows it. -/
structure Channel where
  key : String
  type : String
  /-- Short human label. -/
  label : String
  /-- No tags = wildcard (all events). -/
  tags : List String
  wildcard : Bool
  /-- Whether the channel satisfies team routing. -/
  listens : Bool
deriving DecidableEq

/-- The first text that is not empty, or the last one. -/
def first_text (texts : List String) (last : String) : String :=
  (texts.find? (· ≠ "")).getD last

def config_key (draft : NotifierDraft) : String :=
  match row_get "config_key" draft.extra with
  | some (.Str s) => js_trim s
  | _ => ""

/-- Apprise listens once it has a target. -/
def apprise_draft_listens (draft : NotifierDraft) : Bool :=
  js_trim (text_of "urls" draft.fields) ≠ "" || js_trim (text_of "urls_env" draft.fields) ≠ "" ||
    config_key draft ≠ "" || draft.redacted.contains "urls"

/-- The tags of a draft, one by one. -/
def draft_tags (draft : NotifierDraft) : List String := split_commas draft.tags

/-- Whether the draft counts as a channel. -/
def draft_listens (draft : NotifierDraft) : Bool :=
  if draft.type = "apprise" then apprise_draft_listens draft else true

/-- What a channel is called. -/
def channel_label (draft : NotifierDraft) : String :=
  if draft.type = "apprise" ∧ js_trim draft.name = "" then first_text [config_key draft] "Apprise"
  else
    first_text
      [js_trim draft.name, js_trim (text_of "url" draft.fields),
        js_trim (text_of "workflow" draft.fields), js_trim (text_of "base_url" draft.fields),
        js_trim (text_of "endpoint" draft.fields)] draft.type

/-- Apprise without a target and without tags is not shown at all. -/
def channel_of (draft : NotifierDraft) (index : Nat) : Option Channel :=
  let tags := draft_tags draft
  let listens := draft_listens draft
  if draft.type = "apprise" ∧ listens = false ∧ tags = [] then none
  else
    some
      { key := "notifier-" ++ (if draft.key ≠ "" then draft.key else toString index)
        type := draft.type
        label := channel_label draft
        tags := tags
        wildcard := tags.isEmpty
        listens := listens }

/-- Channels from editor drafts. -/
def channels_from_notifier_drafts (drafts : List NotifierDraft) : List Channel :=
  drafts.zipIdx.filterMap (fun draft => channel_of draft.1 draft.2)

/-- Whether events with the tag reach the channel. -/
def Channel.takes (channel : Channel) (tag : String) : Bool :=
  channel.wildcard || channel.tags.contains tag

/-! ## The routing graph -/

/-- What the editor shows, row ids given out one by one. -/
structure Form where
  defaults : DefaultsDraft
  teams : List TeamDraft
  sources : List SourceDraft
  notifiers : List NotifierDraft
  distinct : (sources.map (·.key)).Nodup

/-- Where a source's events go. -/
structure RoutingEdge where
  source_key : String
  source_label : String
  source_type : String
  team_tag : Option String
  team_name : Option String
  channels : List Channel
  /-- A tag is set but no channel matches (and no wildcard). -/
  orphaned : Bool
deriving DecidableEq

/-- What a source is called. -/
def source_label (draft : SourceDraft) : String :=
  if js_trim draft.id ≠ "" then js_trim draft.id
  else
    first_text
      [text_of "repo" draft.fields, text_of "project" draft.fields, text_of "image" draft.fields,
        text_of "name" draft.fields, text_of "url" draft.fields, draft.type] "source"

/-- The name of a tag; the last team with it counts. -/
def team_name (teams : List TeamDraft) (tag : String) : Option String :=
  (teams.reverse.find? (fun team => js_trim team.tag = tag)).map (fun team => js_trim team.name)

/-- The channels that a source's tag reaches. -/
def edge_of (teams : List TeamDraft) (listening : List Channel) (source : SourceDraft) :
    RoutingEdge :=
  let tag := js_trim source.routing_tag
  let matching :=
    if tag ≠ "" then listening.filter (·.takes tag) else listening.filter (·.wildcard)
  { source_key := source.key
    source_label := source_label source
    source_type := source.type
    team_tag := if tag ≠ "" then some tag else none
    team_name := if tag ≠ "" then team_name teams tag else none
    channels := matching
    orphaned := tag ≠ "" && matching.isEmpty && !listening.isEmpty }

/-- The channels and the edges to them. -/
structure RoutingGraph where
  channels : List Channel
  edges : List RoutingEdge

/-- What the checks read of the graph; its counts are for display. -/
def build_routing_graph (form : Form) : RoutingGraph :=
  let channels := channels_from_notifier_drafts form.notifiers
  { channels := channels
    edges := form.sources.map (edge_of form.teams (channels.filter (·.listens))) }

/-! ## The findings of the editor -/

/-- An error blocks, a warning does not. -/
inductive FieldSeverity where
  | error
  | warning
deriving DecidableEq

/-- A finding at a field of the form. -/
structure FieldIssue where
  severity : FieldSeverity
  /-- Dot path. -/
  path : String
  message : String
deriving DecidableEq

/-- The path of a source's tag. -/
def source_path (index : Nat) : String := "sources." ++ toString index ++ ".routing_tag"

/-- The path of the tag of operational alerts. -/
def OPS_PATH : String := "defaults.ops_routing_tag"

def issue_if (condition : Bool) (severity : FieldSeverity) (path message : String) :
    List FieldIssue :=
  if condition then [⟨severity, path, message⟩] else []

/-- The tag of operational alerts, trimmed. -/
def ops_tag (form : Form) : String := js_trim form.defaults.ops_routing_tag

/-- The tags of the teams. -/
def catalog (form : Form) : List String :=
  (form.teams.map (fun team => js_trim team.tag)).filter (· ≠ "")

/-- A tag that the teams do not list. -/
def unlisted (form : Form) (tag : String) : Bool :=
  tag ≠ "" && !(catalog form).isEmpty && !(catalog form).contains tag

def catalog_issues (form : Form) : List FieldIssue :=
  issue_if (unlisted form (ops_tag form)) .warning OPS_PATH
      ("Ops routing tag “" ++ ops_tag form ++ "” is not listed in Teams") ++
    form.sources.zipIdx.flatMap (fun source =>
      let tag := js_trim source.1.routing_tag
      issue_if (unlisted form tag) .warning (source_path source.2)
        ("Routing tag “" ++ tag ++ "” is not listed in Teams"))

/-- Tagged sources need a matching channel once at least one listening channel exists. -/
def orphan_issues (form : Form) (graph : RoutingGraph) : List FieldIssue :=
  graph.edges.flatMap (fun edge =>
    issue_if edge.orphaned .error
      (source_path (form.sources.findIdx (fun source => source.key = edge.source_key)))
      ("No channel listens for “" ++ edge.team_tag.getD "null" ++
        "” — select that tag on a delivery channel, or leave a channel’s tags empty (wildcard)"))

def ops_issues (form : Form) (graph : RoutingGraph) : List FieldIssue :=
  let listening := graph.channels.filter (·.listens)
  if ops_tag form = "" then []
  else if listening = [] then
    [⟨.warning, OPS_PATH, "Ops tag “" ++ ops_tag form ++ "” has no delivery channel yet — set " ++
      "a matching channel before relying on ops alerts"⟩]
  else
    issue_if (!listening.any (·.takes (ops_tag form))) .error OPS_PATH
      ("No channel listens for ops tag “" ++ ops_tag form ++ "” — meta-alerts on dead outbox / " ++
        "tripped breakers will fail to deliver")

def channel_issues (form : Form) (graph : RoutingGraph) : List FieldIssue :=
  if graph.channels.filter (·.listens) = [] ∧ form.sources ≠ [] then
    [⟨.warning, "notifiers", "No delivery channels configured — teams and sources can be " ++
      "applied now; add a channel when you want notifications"⟩]
  else
    issue_if graph.channels.isEmpty .warning "notifiers"
      "No delivery channels configured — add one in Channels, or releases go nowhere"

/-- What `validateDesiredDrafts` finds about routing. -/
def routing_issues (form : Form) : List FieldIssue :=
  let graph := build_routing_graph form
  catalog_issues form ++ orphan_issues form graph ++ ops_issues form graph ++
    channel_issues form graph

/-- The editor reports an error at this path. -/
def ReportsAt (form : Form) (path : String) : Prop :=
  ∃ issue ∈ routing_issues form, issue.severity = .error ∧ issue.path = path

/-! ## What the editor reports -/

/-- The drafts that count as channels. -/
def listening (form : Form) : List NotifierDraft := form.notifiers.filter draft_listens

/-- The draft takes events with this tag. -/
def Takes (draft : NotifierDraft) (tag : String) : Prop :=
  draft_tags draft = [] ∨ tag ∈ draft_tags draft

/-- Some of the drafts takes events with this tag. -/
def Taken (drafts : List NotifierDraft) (tag : String) : Prop := ∃ draft ∈ drafts, Takes draft tag

instance (draft : NotifierDraft) (tag : String) : Decidable (Takes draft tag) :=
  inferInstanceAs (Decidable (_ ∨ _))

instance (drafts : List NotifierDraft) (tag : String) : Decidable (Taken drafts tag) :=
  inferInstanceAs (Decidable (∃ draft ∈ drafts, Takes draft tag))

theorem channel_takes {draft : NotifierDraft} {index : Nat} {channel : Channel}
    (h : channel_of draft index = some channel) :
    channel.listens = draft_listens draft ∧
      ∀ tag, channel.takes tag = true ↔ Takes draft tag := by
  unfold channel_of at h
  dsimp only at h
  split at h
  · exact absurd h (by simp)
  · obtain rfl := Option.some.inj h
    refine ⟨rfl, fun tag => ?_⟩
    simp [Channel.takes, Takes]

theorem channel_of_listening {draft : NotifierDraft} (h : draft_listens draft = true)
    (index : Nat) : ∃ channel, channel_of draft index = some channel := by
  unfold channel_of
  dsimp only
  rw [if_neg (by simp [h])]
  exact ⟨_, rfl⟩

theorem mem_channels {drafts : List NotifierDraft} {channel : Channel} :
    channel ∈ channels_from_notifier_drafts drafts ↔
      ∃ draft index, drafts[index]? = some draft ∧ channel_of draft index = some channel := by
  unfold channels_from_notifier_drafts
  rw [List.mem_filterMap]
  constructor
  · rintro ⟨⟨draft, index⟩, hmem, hchannel⟩
    exact ⟨draft, index, List.mem_zipIdx_iff_getElem?.mp hmem, hchannel⟩
  · rintro ⟨draft, index, hdraft, hchannel⟩
    exact ⟨(draft, index), List.mem_zipIdx_iff_getElem?.mpr hdraft, hchannel⟩

/-- The channels that listen, and the drafts they come from. -/
theorem exists_listening {form : Form} {P : Channel → Prop} {Q : NotifierDraft → Prop}
    (h : ∀ draft index channel, channel_of draft index = some channel → (P channel ↔ Q draft)) :
    (∃ channel ∈ (build_routing_graph form).channels.filter (·.listens), P channel) ↔
      ∃ draft ∈ listening form, Q draft := by
  constructor
  · rintro ⟨channel, hmem, hp⟩
    obtain ⟨hchannel, hlistens⟩ := List.mem_filter.mp hmem
    obtain ⟨draft, index, hdraft, hof⟩ := mem_channels.mp hchannel
    rw [(channel_takes hof).1] at hlistens
    exact ⟨draft, List.mem_filter.mpr ⟨List.mem_of_getElem? hdraft, hlistens⟩,
      (h draft index channel hof).mp hp⟩
  · rintro ⟨draft, hmem, hq⟩
    obtain ⟨hdraft, hlistens⟩ := List.mem_filter.mp hmem
    obtain ⟨index, hindex⟩ := List.mem_iff_getElem?.mp hdraft
    obtain ⟨channel, hof⟩ := channel_of_listening hlistens index
    refine ⟨channel, List.mem_filter.mpr ⟨mem_channels.mpr ⟨draft, index, hindex, hof⟩, ?_⟩,
      (h draft index channel hof).mpr hq⟩
    rw [(channel_takes hof).1]
    exact hlistens

theorem none_listens_iff (form : Form) :
    (build_routing_graph form).channels.filter (·.listens) = [] ↔ listening form = [] := by
  have h := @exists_listening form (fun _ => True) (fun _ => True) (fun _ _ _ _ => Iff.rfl)
  rw [List.eq_nil_iff_forall_not_mem, List.eq_nil_iff_forall_not_mem]
  constructor
  · intro hnone draft hdraft
    obtain ⟨channel, hmem, -⟩ := h.mpr ⟨draft, hdraft, trivial⟩
    exact hnone channel hmem
  · intro hnone channel hmem
    obtain ⟨draft, hdraft, -⟩ := h.mp ⟨channel, hmem, trivial⟩
    exact hnone draft hdraft

theorem any_takes_iff (form : Form) (tag : String) :
    ((build_routing_graph form).channels.filter (·.listens)).any (·.takes tag) = true ↔
      Taken (listening form) tag := by
  rw [List.any_eq_true]
  exact exists_listening (fun draft index channel hof => (channel_takes hof).2 tag)

/-- A tag that no channel takes, though one listens. -/
def Orphaned (form : Form) (tag : String) : Prop :=
  tag ≠ "" ∧ listening form ≠ [] ∧ ¬Taken (listening form) tag

theorem edge_orphaned_iff (form : Form) (source : SourceDraft) :
    (edge_of form.teams ((build_routing_graph form).channels.filter (·.listens))
      source).orphaned = true ↔ Orphaned form (js_trim source.routing_tag) := by
  unfold Orphaned
  rw [ne_eq (listening form), ← none_listens_iff, ← any_takes_iff]
  generalize (build_routing_graph form).channels.filter (·.listens) = channels
  unfold edge_of
  dsimp only
  generalize js_trim source.routing_tag = tag
  by_cases htag : tag = ""
  · simp only [htag, ne_eq, not_true_eq_false, decide_false, Bool.false_and, Bool.false_eq_true,
      false_and]
  · simp only [htag, ne_eq, not_false_eq_true, decide_true, Bool.true_and, if_true, true_and,
      Bool.and_eq_true, List.isEmpty_iff, List.filter_eq_nil_iff, Bool.not_eq_true',
      List.isEmpty_eq_false_iff, List.any_eq_true, not_exists, not_and]
    exact And.comm

theorem mem_issue_if {condition : Bool} {severity : FieldSeverity} {path message : String}
    {issue : FieldIssue} : issue ∈ issue_if condition severity path message ↔
      condition = true ∧ issue = ⟨severity, path, message⟩ := by
  unfold issue_if
  cases condition <;> simp

theorem catalog_warns {form : Form} {issue : FieldIssue} (h : issue ∈ catalog_issues form) :
    issue.severity = .warning := by
  rcases List.mem_append.mp h with h | h
  · rw [(mem_issue_if.mp h).2]
  · obtain ⟨source, -, hissue⟩ := List.mem_flatMap.mp h
    rw [(mem_issue_if.mp hissue).2]

theorem channels_warn {form : Form} {graph : RoutingGraph} {issue : FieldIssue}
    (h : issue ∈ channel_issues form graph) : issue.severity = .warning := by
  unfold channel_issues at h
  split at h
  · rw [List.mem_singleton.mp h]
  · rw [(mem_issue_if.mp h).2]

theorem orphan_error_iff (form : Form) (path : String) :
    (∃ issue ∈ orphan_issues form (build_routing_graph form),
      issue.severity = .error ∧ issue.path = path) ↔
      ∃ source ∈ form.sources, Orphaned form (js_trim source.routing_tag) ∧
        source_path (form.sources.findIdx (fun other => other.key = source.key)) = path := by
  unfold orphan_issues
  constructor
  · rintro ⟨issue, hmem, -, hpath⟩
    obtain ⟨edge, hedge, hissue⟩ := List.mem_flatMap.mp hmem
    obtain ⟨source, hsource, rfl⟩ := List.mem_map.mp hedge
    obtain ⟨horphaned, rfl⟩ := mem_issue_if.mp hissue
    exact ⟨source, hsource, (edge_orphaned_iff form source).mp horphaned, hpath⟩
  · rintro ⟨source, hsource, horphaned, hpath⟩
    exact ⟨_, List.mem_flatMap.mpr ⟨_, List.mem_map_of_mem hsource,
      mem_issue_if.mpr ⟨(edge_orphaned_iff form source).mpr horphaned, rfl⟩⟩, rfl, hpath⟩

theorem ops_error_iff (form : Form) (path : String) :
    (∃ issue ∈ ops_issues form (build_routing_graph form),
      issue.severity = .error ∧ issue.path = path) ↔
      Orphaned form (ops_tag form) ∧ OPS_PATH = path := by
  unfold ops_issues Orphaned
  dsimp only
  rw [ne_eq (listening form), ← none_listens_iff, ← any_takes_iff]
  split
  · rename_i htag
    simp [htag]
  · rename_i htag
    split
    · rename_i hnone
      simp [hnone]
    · rename_i hsome
      constructor
      · rintro ⟨issue, hmem, -, hpath⟩
        obtain ⟨hmissed, rfl⟩ := mem_issue_if.mp hmem
        exact ⟨⟨htag, hsome, by simpa using hmissed⟩, hpath⟩
      · rintro ⟨⟨-, -, hmissed⟩, hpath⟩
        exact ⟨_, mem_issue_if.mpr ⟨by simpa using hmissed, rfl⟩, rfl, hpath⟩

theorem reports_at_iff (form : Form) (path : String) :
    ReportsAt form path ↔
      (∃ source ∈ form.sources, Orphaned form (js_trim source.routing_tag) ∧
        source_path (form.sources.findIdx (fun other => other.key = source.key)) = path) ∨
      (Orphaned form (ops_tag form) ∧ OPS_PATH = path) := by
  rw [← orphan_error_iff, ← ops_error_iff]
  unfold ReportsAt routing_issues
  constructor
  · rintro ⟨issue, hmem, herror, hpath⟩
    rcases List.mem_append.mp hmem with hmem | hmem
    · rcases List.mem_append.mp hmem with hmem | hmem
      · rcases List.mem_append.mp hmem with hmem | hmem
        · exact absurd (herror.symm.trans (catalog_warns hmem)) (by decide)
        · exact Or.inl ⟨issue, hmem, herror, hpath⟩
      · exact Or.inr ⟨issue, hmem, herror, hpath⟩
    · exact absurd (herror.symm.trans (channels_warn hmem)) (by decide)
  · rintro (⟨issue, hmem, hissue⟩ | ⟨issue, hmem, hissue⟩)
    · exact ⟨issue, List.mem_append_left _ (List.mem_append_left _ (List.mem_append_right _ hmem)),
        hissue⟩
    · exact ⟨issue, List.mem_append_left _ (List.mem_append_right _ hmem), hissue⟩

theorem source_path_inj {i j : Nat} (h : source_path i = source_path j) : i = j := by
  have hlist := congrArg String.toList h
  unfold source_path at hlist
  rw [String.toList_append, String.toList_append, String.toList_append, String.toList_append,
    List.append_cancel_right_eq, List.append_cancel_left_eq] at hlist
  have hdigits : Nat.toDigits 10 i = Nat.toDigits 10 j := by
    rwa [← Nat.toList_repr, ← Nat.toList_repr]
  have hvalue := congrArg (fun digits => Nat.ofDigitChars 10 digits 0) hdigits
  simpa only [Nat.ofDigitChars_ten_toDigits] using hvalue

theorem source_path_ne (i : Nat) : source_path i ≠ OPS_PATH := by
  intro h
  have hlist := congrArg String.toList h
  unfold source_path OPS_PATH at hlist
  rw [String.toList_append, String.toList_append] at hlist
  have hhead := congrArg List.head? hlist
  exact absurd hhead (by simp)

/-- An id stands for its own row. -/
theorem row_of_key {form : Form} {i : Nat} {source : SourceDraft}
    (h : form.sources[i]? = some source) :
    form.sources.findIdx (fun other => other.key = source.key) = i := by
  obtain ⟨hlt, hsource⟩ := List.getElem?_eq_some_iff.mp h
  rw [List.findIdx_eq hlt]
  constructor
  · simp [hsource]
  · intro j hj
    have hne : form.sources[j].key ≠ form.sources[i].key := by
      intro heq
      have hkeys := List.nodup_iff_getElem?_ne_getElem?.mp form.distinct j i hj (by simpa using hlt)
      rw [List.getElem?_map, List.getElem?_map, List.getElem?_eq_getElem (hj.trans hlt),
        List.getElem?_eq_getElem hlt, Option.map_some, Option.map_some, heq] at hkeys
      exact hkeys rfl
    simpa [hsource] using hne

theorem reports_source_iff (form : Form) (i : Nat) :
    ReportsAt form (source_path i) ↔
      ∃ source, form.sources[i]? = some source ∧ Orphaned form (js_trim source.routing_tag) := by
  rw [reports_at_iff]
  constructor
  · rintro (⟨source, hsource, horphaned, hpath⟩ | ⟨-, hpath⟩)
    · obtain ⟨j, hj⟩ := List.mem_iff_getElem?.mp hsource
      rw [row_of_key hj] at hpath
      obtain rfl := source_path_inj hpath
      exact ⟨source, hj, horphaned⟩
    · exact absurd hpath.symm (source_path_ne i)
  · rintro ⟨source, hi, horphaned⟩
    exact Or.inl ⟨source, List.mem_of_getElem? hi, horphaned, by rw [row_of_key hi]⟩

theorem reports_ops_iff (form : Form) : ReportsAt form OPS_PATH ↔ Orphaned form (ops_tag form) := by
  rw [reports_at_iff]
  constructor
  · rintro (⟨source, -, -, hpath⟩ | ⟨horphaned, -⟩)
    · exact absurd hpath (source_path_ne _)
    · exact horphaned
  · intro horphaned
    exact Or.inr ⟨horphaned, rfl⟩

/-! ## The document -/

/-- The document is written section by section (`ConfigEditPanel.svelte`). -/
def document (finite : String → Bool) (data : Row) (form : Form) : Row :=
  write_notifiers finite
    (write_sources (write_teams (write_defaults finite data form.defaults) form.teams)
      form.sources) form.notifiers

/-- A text as it is written: trimmed, or not at all. -/
def written_text (value : String) : Option String :=
  if js_trim value ≠ "" then some (js_trim value) else none

/-- An optional text of a map. -/
def text_in (key : String) (row : Row) : Option String := (row_get key row).bind Value.as_str

/-- The texts of a list, none for an absent one. -/
def texts_in (key : String) (row : Row) : List String :=
  (as_array (row_get key row)).filterMap Value.as_str

/-- What the deserializer makes of a document, as far as routing goes. -/
structure Decodes (doc : Row) (config : Config) : Prop where
  sources : List.Forall₂
    (fun row source => source.common.routing_tag = text_in "routing_tag" (as_object (some row)) ∧
      source.common.preset = text_in "preset" (as_object (some row)))
    (as_array (row_get "sources" doc)) config.sources
  notifiers : List.Forall₂
    (fun row notifier => notifier.routing_tags = texts_in "tags" (as_object (some row)))
    (as_array (row_get "notifiers" doc)) config.notifiers
  ops_routing_tag : config.defaults.ops_routing_tag =
    text_in "ops_routing_tag" (as_object (row_get "defaults" doc))

theorem document_sources (finite : String → Bool) (data : Row) (form : Form) :
    as_array (row_get "sources" (document finite data form)) =
      form.sources.map (fun draft => Value.Object (write_source draft)) := by
  have hset : row_get "sources" (document finite data form) =
      some (.Items (form.sources.map (fun draft => Value.Object (write_source draft)))) := by
    unfold document write_notifiers
    dsimp only
    split
    · rw [row_get_delete_other (by decide), row_get_delete_other (by decide)]
      exact row_get_set_self _ _ _
    · rw [row_get_set_other (by decide), row_get_delete_other (by decide)]
      exact row_get_set_self _ _ _
  rw [hset, as_array]

theorem document_notifiers (finite : String → Bool) (data : Row) (form : Form) :
    as_array (row_get "notifiers" (document finite data form)) =
      form.notifiers.map (fun draft => Value.Object (write_notifier_row finite draft)) := by
  unfold document write_notifiers
  dsimp only
  split
  · rename_i hnone
    rw [row_get_delete_self, hnone, as_array]
    simp
  · rw [row_get_set_self, as_array]

theorem document_ops_routing_tag (finite : String → Bool) (data : Row) (form : Form) :
    text_in "ops_routing_tag" (as_object (row_get "defaults" (document finite data form))) =
      written_text form.defaults.ops_routing_tag := by
  have hbelow (row : Row) (sources : List SourceDraft) (notifiers : List NotifierDraft) :
      row_get "defaults" (write_notifiers finite (write_sources row sources) notifiers) =
        row_get "defaults" row := by
    unfold write_notifiers write_sources
    dsimp only
    split
    · rw [row_get_delete_other (by decide), row_get_delete_other (by decide),
        row_get_set_other (by decide)]
    · rw [row_get_set_other (by decide), row_get_delete_other (by decide),
        row_get_set_other (by decide)]
  unfold document
  rw [hbelow]
  unfold write_teams write_defaults
  dsimp only
  rw [row_get_set_other (by decide), row_get_set_self, as_object, text_in, row_get_put_text]
  unfold written_text
  split <;> rfl

theorem source_texts (draft : SourceDraft) :
    text_in "routing_tag" (write_source draft) = written_text draft.routing_tag ∧
      text_in "preset" (write_source draft) = written_text draft.preset := by
  unfold text_in written_text
  rw [write_source_routing_tag, write_source_preset]
  constructor
  · split <;> rfl
  · split <;> rfl

theorem notifier_texts (finite : String → Bool) (draft : NotifierDraft) :
    texts_in "tags" (write_notifier_row finite draft) = draft_tags draft := by
  unfold texts_in draft_tags
  rw [write_notifier_row_tags]
  split
  · rw [as_array, List.filterMap_map]
    exact List.filterMap_some
  · rename_i hnone
    rw [ne_eq, not_not] at hnone
    rw [hnone]
    rfl

/-- Reading back what was written gives the texts of the form. -/
theorem decodes_iff (finite : String → Bool) (data : Row) (form : Form) (config : Config) :
    Decodes (document finite data form) config ↔
      List.Forall₂ (fun draft source =>
        source.common.routing_tag = written_text draft.routing_tag ∧
          source.common.preset = written_text draft.preset) form.sources config.sources ∧
      List.Forall₂ (fun draft notifier => notifier.routing_tags = draft_tags draft)
        form.notifiers config.notifiers ∧
      config.defaults.ops_routing_tag = written_text form.defaults.ops_routing_tag := by
  have hsource (draft : SourceDraft) := source_texts draft
  have hnotifier (draft : NotifierDraft) := notifier_texts finite draft
  constructor
  · rintro ⟨hsources, hnotifiers, hops⟩
    rw [document_sources, List.forall₂_map_left_iff] at hsources
    rw [document_notifiers, List.forall₂_map_left_iff] at hnotifiers
    rw [document_ops_routing_tag] at hops
    simp only [as_object, hsource, hnotifier] at hsources hnotifiers
    exact ⟨hsources, hnotifiers, hops⟩
  · rintro ⟨hsources, hnotifiers, hops⟩
    refine ⟨?_, ?_, ?_⟩
    · rw [document_sources, List.forall₂_map_left_iff]
      simpa only [as_object, hsource] using hsources
    · rw [document_notifiers, List.forall₂_map_left_iff]
      simpa only [as_object, hnotifier] using hnotifiers
    · rw [document_ops_routing_tag]
      exact hops

/-! ## What the server reports -/

/-- The server reports an error for a source. -/
def ServerReports (config : Config) (i : Nat) : Prop :=
  ∃ source message, config.sources[i]? = some source ∧
    .error message ∈ validate_source_routing (routing_of config) (validate.source_label source)
      (checked_tag config source)

/-- The server reports an error for the operational alerts. -/
def ServerReportsOps (config : Config) : Prop :=
  ∃ message, .error message ∈
    validate_ops_routing (routing_of config) (named config.defaults.ops_routing_tag)

theorem error_of_unmatched (routing : Routing) (message hint : String) :
    (∃ text, unmatched routing message hint = .error text) ↔ routing.has_any_channel = true := by
  unfold unmatched
  split
  · rename_i hany
    simp [hany]
  · rename_i hnone
    simpa using hnone

theorem named_in_iff (config : Config) (tag : String) :
    Named config tag ↔
      ∃ notifier ∈ config.notifiers, notifier.routing_tags = [] ∨ tag ∈ notifier.routing_tags := by
  unfold Named routing_of
  simp only [List.any_eq_true, decide_eq_true_iff, List.mem_flatMap]
  constructor
  · rintro (⟨notifier, hmem, hnil⟩ | ⟨notifier, hmem, htag⟩)
    · exact ⟨notifier, hmem, Or.inl hnil⟩
    · exact ⟨notifier, hmem, Or.inr htag⟩
  · rintro ⟨notifier, hmem, hnil | htag⟩
    · exact Or.inl ⟨notifier, hmem, hnil⟩
    · exact Or.inr ⟨notifier, hmem, htag⟩

/-- The last step of both checks. -/
theorem unmatched_iff (config : Config) (warned : Bool) (tag warning message hint : String) :
    (∃ text, Finding.error text ∈ warn_if warned warning ++
      (if (routing_of config).wildcard_notifier || (routing_of config).notifier_tags.contains tag
        then [] else [unmatched (routing_of config) message hint])) ↔
      config.notifiers ≠ [] ∧ ¬Named config tag := by
  rw [← named_iff]
  have hany : (routing_of config).has_any_channel = true ↔ config.notifiers ≠ [] := by
    simp [routing_of]
  rw [← hany, ← error_of_unmatched (routing_of config) message hint]
  constructor
  · rintro ⟨text, htext⟩
    rcases List.mem_append.mp htext with htext | htext
    · exact absurd htext (error_not_mem_warn_if _ _ _)
    · split at htext
      · exact absurd htext List.not_mem_nil
      · rename_i hnamed
        exact ⟨⟨text, (List.mem_singleton.mp htext).symm⟩, hnamed⟩
  · rintro ⟨⟨text, htext⟩, hnamed⟩
    rw [if_neg hnamed, htext]
    exact ⟨text, List.mem_append_right _ (List.mem_singleton_self _)⟩

theorem source_error_iff (config : Config) (id : String) (tag : Option String) :
    (∃ message, Finding.error message ∈ validate_source_routing (routing_of config) id tag) ↔
      ∃ t, tag = some t ∧ blank t = false ∧ config.notifiers ≠ [] ∧ ¬Named config t := by
  cases tag with
  | none =>
    constructor
    · rintro ⟨message, hmem⟩
      exact absurd hmem (error_not_mem_warn_if _ _ _)
    · rintro ⟨t, ht, -⟩
      exact absurd ht (by simp)
  | some t =>
    unfold validate_source_routing
    dsimp only
    by_cases hblank : blank t = true
    · simp [hblank]
    · rw [if_neg hblank, unmatched_iff]
      simp [hblank]

theorem ops_report_iff (config : Config) :
    ServerReportsOps config ↔
      ∃ t, named config.defaults.ops_routing_tag = some t ∧ config.notifiers ≠ [] ∧
        ¬Named config t := by
  unfold ServerReportsOps
  cases named config.defaults.ops_routing_tag with
  | none => simp [validate_ops_routing]
  | some t =>
    unfold validate_ops_routing
    rw [unmatched_iff]
    simp

/-! ## Where they agree -/

/-- The tag of a preset that the source names. -/
def preset_tag (config : Config) (preset : Option String) : Option String :=
  preset.bind (fun name =>
    if trim name = "" then none
    else
      (Table.look (trim name) (effective_source_presets config.presets)).bind (·.routing_tag))

/-- The source's own tag comes first. -/
theorem checked_tag_eq (config : Config) (source : SourceConfig) :
    checked_tag config source =
      source.common.routing_tag.or (preset_tag config source.common.preset) := by
  unfold checked_tag effective_tag with_preset_resolved preset_tag
  cases source.common.preset with
  | none => cases htag : source.common.routing_tag <;> simp [Except.toOption, htag]
  | some name =>
    dsimp only [Option.bind_some]
    by_cases hname : trim name = ""
    · rw [if_pos hname, if_pos hname]
      simp [Except.toOption]
    · rw [if_neg hname, if_neg hname]
      cases Table.look (trim name) (effective_source_presets config.presets) with
      | none => simp [Except.toOption]
      | some preset =>
        cases source.common.routing_tag <;> simp [Except.toOption, SourcePreset.merge_into]

/-- Half-configured Apprise makes no difference to what the two sides say about a tag, and they mean
the same by it. -/
structure TagAgrees (form : Form) (own checked : String) : Prop where
  invisible : own ≠ "" → blank own = true → listening form = [] ∨ Taken (listening form) own
  unheard : blank own = false → listening form = [] →
    form.notifiers = [] ∨ Taken form.notifiers checked
  heard : blank own = false → listening form ≠ [] →
    (Taken form.notifiers checked ↔ Taken (listening form) own)

/-- And a preset gives a source without a tag of its own none that no channel takes. -/
structure SourceAgrees (form : Form) (config : Config) (draft : SourceDraft) : Prop where
  tagged : TagAgrees form (js_trim draft.routing_tag) (js_trim draft.routing_tag)
  untagged : js_trim draft.routing_tag = "" →
    ∀ tag, preset_tag config (written_text draft.preset) = some tag → blank tag = false →
      form.notifiers = [] ∨ Taken form.notifiers tag

theorem blank_empty : blank "" = true := by decide

theorem tag_agrees_iff (form : Form) (own checked : String) :
    (Orphaned form own ↔
      blank own = false ∧ form.notifiers ≠ [] ∧ ¬Taken form.notifiers checked) ↔
      TagAgrees form own checked := by
  have hany : listening form ≠ [] → form.notifiers ≠ [] := by
    intro hsome hnil
    exact hsome (by rw [listening, hnil, List.filter_nil])
  unfold Orphaned
  constructor
  · intro h
    refine ⟨fun hown hblank => ?_, fun hblank hnone => ?_, fun hblank hsome => ?_⟩
    · by_contra hnot
      rw [not_or] at hnot
      have hserver := (h.mp ⟨hown, hnot.1, hnot.2⟩).1
      rw [hblank] at hserver
      exact absurd hserver (by decide)
    · by_contra hnot
      rw [not_or] at hnot
      exact (h.mpr ⟨hblank, hnot.1, hnot.2⟩).2.1 hnone
    · have hown : own ≠ "" := by
        rintro rfl
        exact absurd (blank_empty.symm.trans hblank) (by decide)
      constructor
      · intro htaken
        by_contra hnot
        exact (h.mp ⟨hown, hsome, hnot⟩).2.2 htaken
      · intro htaken
        by_contra hnot
        exact (h.mpr ⟨hblank, hany hsome, hnot⟩).2.2 htaken
  · rintro ⟨hinvisible, hunheard, hheard⟩
    constructor
    · rintro ⟨hown, hsome, hnot⟩
      have hfull : blank own = false := by
        rw [← Bool.not_eq_true]
        intro htrue
        exact (hinvisible hown htrue).elim hsome hnot
      exact ⟨hfull, hany hsome, fun htaken => hnot ((hheard hfull hsome).mp htaken)⟩
    · rintro ⟨hfull, hchannel, hnot⟩
      have hown : own ≠ "" := by
        rintro rfl
        exact absurd (blank_empty.symm.trans hfull) (by decide)
      have hsome : listening form ≠ [] :=
        fun hnone => (hunheard hfull hnone).elim hchannel hnot
      exact ⟨hown, hsome, fun htaken => hnot ((hheard hfull hsome).mpr htaken)⟩

theorem source_agrees_iff (form : Form) (config : Config) (draft : SourceDraft) :
    (Orphaned form (js_trim draft.routing_tag) ↔
      ∃ tag, (written_text draft.routing_tag).or
          (preset_tag config (written_text draft.preset)) = some tag ∧
        blank tag = false ∧ form.notifiers ≠ [] ∧ ¬Taken form.notifiers tag) ↔
      SourceAgrees form config draft := by
  have hagrees := tag_agrees_iff form (js_trim draft.routing_tag) (js_trim draft.routing_tag)
  unfold written_text
  by_cases htag : js_trim draft.routing_tag = ""
  · rw [htag] at hagrees ⊢
    have hnot : ¬Orphaned form "" := fun h => h.1 rfl
    have hempty : TagAgrees form "" "" :=
      hagrees.mp (iff_of_false hnot (fun h => absurd (blank_empty.symm.trans h.1) (by decide)))
    rw [if_neg (not_not_intro rfl), Option.none_or]
    constructor
    · intro h
      refine ⟨by rw [htag]; exact hempty, fun _ tag hpreset hblank => ?_⟩
      by_contra hnever
      rw [not_or] at hnever
      exact hnot (h.mpr ⟨tag, hpreset, hblank, hnever.1, hnever.2⟩)
    · intro h
      refine iff_of_false hnot ?_
      rintro ⟨tag, hpreset, hblank, hchannel, hmissed⟩
      exact (h.untagged htag tag hpreset hblank).elim hchannel hmissed
  · rw [if_pos htag, Option.some_or]
    have hone : (∃ tag, some (js_trim draft.routing_tag) = some tag ∧ blank tag = false ∧
        form.notifiers ≠ [] ∧ ¬Taken form.notifiers tag) ↔
        blank (js_trim draft.routing_tag) = false ∧ form.notifiers ≠ [] ∧
          ¬Taken form.notifiers (js_trim draft.routing_tag) := by
      simp only [Option.some.injEq, exists_eq_left']
    rw [hone, hagrees]
    exact ⟨fun h => ⟨h, fun hnone => absurd hnone htag⟩, fun h => h.tagged⟩

theorem named_written (value : String) :
    named (written_text value) =
      if blank (js_trim value) then none else some (trim (js_trim value)) := by
  unfold written_text
  by_cases hvalue : js_trim value = ""
  · rw [hvalue, if_neg (not_not_intro rfl), blank_empty]
    rfl
  · rw [if_pos hvalue, named]

section
variable {finite : String → Bool} {data : Row} {form : Form} {config : Config}
  (h : Decodes (document finite data form) config)
include h

theorem some_channel_iff : config.notifiers ≠ [] ↔ form.notifiers ≠ [] := by
  have hlen := ((decodes_iff finite data form config).mp h).2.1.length_eq
  rw [← List.length_pos_iff, ← List.length_pos_iff, hlen]

theorem named_iff_taken (tag : String) : Named config tag ↔ Taken form.notifiers tag := by
  have hchannels := ((decodes_iff finite data form config).mp h).2.1
  rw [named_in_iff]
  unfold Taken Takes
  generalize form.notifiers = drafts, config.notifiers = channels at hchannels ⊢
  induction hchannels with
  | nil => simp
  | cons hhead _ ih => simp only [List.exists_mem_cons_iff, hhead, ih]

theorem server_reports_iff (i : Nat) :
    ServerReports config i ↔ ∃ draft, form.sources[i]? = some draft ∧
      ∃ tag, (written_text draft.routing_tag).or
          (preset_tag config (written_text draft.preset)) = some tag ∧
        blank tag = false ∧ form.notifiers ≠ [] ∧ ¬Taken form.notifiers tag := by
  have hsources := ((decodes_iff finite data form config).mp h).1
  have hreport (source : SourceConfig) :=
    source_error_iff config (validate.source_label source) (checked_tag config source)
  simp only [some_channel_iff h, named_iff_taken h] at hreport
  constructor
  · rintro ⟨source, message, hi, herror⟩
    obtain ⟨hlt, hsource⟩ := List.getElem?_eq_some_iff.mp hi
    have hlen : i < form.sources.length := hsources.length_eq ▸ hlt
    obtain ⟨htag, hpreset⟩ := List.Forall₂.get hsources hlen hlt
    rw [List.get_eq_getElem, hsource] at htag hpreset
    have hfound := (hreport source).mp ⟨message, herror⟩
    rw [checked_tag_eq, htag, hpreset] at hfound
    exact ⟨_, List.getElem?_eq_getElem hlen, hfound⟩
  · rintro ⟨draft, hi, hfound⟩
    obtain ⟨hlt, hdraft⟩ := List.getElem?_eq_some_iff.mp hi
    have hlen : i < config.sources.length := hsources.length_eq ▸ hlt
    obtain ⟨htag, hpreset⟩ := List.Forall₂.get hsources hlt hlen
    simp only [List.get_eq_getElem, hdraft] at htag hpreset
    obtain ⟨message, herror⟩ := (hreport config.sources[i]).mpr (by
      rw [checked_tag_eq, htag, hpreset]
      exact hfound)
    exact ⟨_, message, List.getElem?_eq_getElem hlen, herror⟩

theorem server_ops_iff :
    ServerReportsOps config ↔ blank (ops_tag form) = false ∧ form.notifiers ≠ [] ∧
      ¬Taken form.notifiers (trim (ops_tag form)) := by
  rw [ops_report_iff, ((decodes_iff finite data form config).mp h).2.2, named_written,
    some_channel_iff h]
  simp only [named_iff_taken h]
  unfold ops_tag
  cases blank (js_trim form.defaults.ops_routing_tag) with
  | true => simp
  | false => simp

end

/-- The two checks agree on every source and on the operational alerts exactly if half-configured
Apprise, presets and blanks that only one side trims make no difference. -/
theorem editor_and_server_agree_iff (finite : String → Bool) (data : Row) (form : Form)
    {config : Config} (h : Decodes (document finite data form) config) :
    ((∀ i, ReportsAt form (source_path i) ↔ ServerReports config i) ∧
      (ReportsAt form OPS_PATH ↔ ServerReportsOps config)) ↔
      (∀ draft ∈ form.sources, SourceAgrees form config draft) ∧
        TagAgrees form (ops_tag form) (trim (ops_tag form)) := by
  rw [reports_ops_iff, server_ops_iff h, tag_agrees_iff]
  refine and_congr_left (fun _ => ?_)
  constructor
  · intro hall draft hdraft
    obtain ⟨i, hi⟩ := List.mem_iff_getElem?.mp hdraft
    have hone := hall i
    rw [reports_source_iff, server_reports_iff h, hi] at hone
    simpa only [Option.some.injEq, exists_eq_left', source_agrees_iff] using hone
  · intro hall i
    rw [reports_source_iff, server_reports_iff h]
    refine exists_congr (fun draft => and_congr_right (fun hi => ?_))
    exact (source_agrees_iff form config draft).mpr (hall draft (List.mem_of_getElem? hi))

/-- One source for a tag, that only an Apprise channel without any target takes; the other channel
takes another tag. -/
def half_configured : Form where
  defaults := ⟨none, none, none, true, "", ""⟩
  teams := []
  sources :=
    [{ empty_source_draft "src-1" "github" with
      routing_tag := "a", fields := [("repo", "o/r")] }]
  notifiers :=
    [{ empty_notifier_draft "src-2" "apprise" with tags := "a" },
      { empty_notifier_draft "src-3" "webhook" with
        tags := "b", fields := [("url", "https://h")] }]
  distinct := List.nodup_singleton _

def half_configured_config : Config where
  sources := [.Github { repo := "o/r", common := { routing_tag := some "a" } }]
  notifiers :=
    [.Apprise { endpoint := "http://apprise:8000", tags := ["a"] },
      .Webhook { tags := ["b"], url := "https://h" }]

theorem half_configured_decodes :
    Decodes (document (fun _ => true) [] half_configured) half_configured_config := by
  rw [decodes_iff]
  refine ⟨.cons ⟨?_, ?_⟩ .nil, .cons ?_ (.cons ?_ .nil), ?_⟩
  all_goals decide +kernel

/-- The Apprise channel has its target; the second source and the alerts have tags that no channel
takes. -/
def fully_configured : Form :=
  { half_configured with
    defaults := { half_configured.defaults with ops_routing_tag := "ops" }
    sources :=
      half_configured.sources ++
        [{ empty_source_draft "src-4" "github" with
          routing_tag := "z", fields := [("repo", "o/s")] }]
    notifiers :=
      [{ empty_notifier_draft "src-2" "apprise" with
          tags := "a", fields := [("urls", "tgram://t")] },
        { empty_notifier_draft "src-3" "webhook" with
          tags := "b", fields := [("url", "https://h")] }]
    distinct := by decide }

def fully_configured_config : Config where
  defaults := { ops_routing_tag := some "ops" }
  sources :=
    [.Github { repo := "o/r", common := { routing_tag := some "a" } },
      .Github { repo := "o/s", common := { routing_tag := some "z" } }]
  notifiers :=
    [.Apprise { endpoint := "http://apprise:8000", urls := ["tgram://t"], tags := ["a"] },
      .Webhook { tags := ["b"], url := "https://h" }]

theorem editor_and_server_agree_here :
    (∀ i, ReportsAt fully_configured (source_path i) ↔ ServerReports fully_configured_config i) ∧
      (ReportsAt fully_configured OPS_PATH ↔ ServerReportsOps fully_configured_config) := by
  have hdecodes : Decodes (document (fun _ => true) [] fully_configured)
      fully_configured_config := by
    rw [decodes_iff]
    refine ⟨.cons ⟨?_, ?_⟩ (.cons ⟨?_, ?_⟩ .nil), .cons ?_ (.cons ?_ .nil), ?_⟩
    all_goals decide +kernel
  have hlisten : listening fully_configured ≠ [] := by
    rw [ne_eq, ← List.isEmpty_iff]
    decide +kernel
  have hagrees : ∀ tag ∈ ["a", "z", "ops"], blank tag = false ∧
      (Taken fully_configured.notifiers tag ↔ Taken (listening fully_configured) tag) := by
    decide +kernel
  have htag (tag : String) (h : tag ∈ ["a", "z", "ops"]) : TagAgrees fully_configured tag tag :=
    ⟨fun _ hblank => absurd ((hagrees tag h).1.symm.trans hblank) (by decide),
      fun _ hnone => absurd hnone hlisten, fun _ _ => (hagrees tag h).2⟩
  refine (editor_and_server_agree_iff _ _ _ hdecodes).mpr ⟨fun draft hdraft => ?_, ?_⟩
  · have htrim : ∀ draft ∈ fully_configured.sources,
        js_trim draft.routing_tag ∈ ["a", "z", "ops"] ∧ js_trim draft.routing_tag ≠ "" := by
      decide +kernel
    obtain ⟨hmem, htagged⟩ := htrim draft hdraft
    exact ⟨htag _ hmem, fun h => absurd h htagged⟩
  · have hops : ops_tag fully_configured = "ops" ∧ trim (ops_tag fully_configured) = "ops" := by
      decide +kernel
    rw [hops.2, hops.1]
    exact htag "ops" (by decide)

/-- The editor reports its source, the server does not. -/
theorem the_server_counts_half_configured : ¬∀ (finite : String → Bool) (data : Row) (form : Form)
    (config : Config), Decodes (document finite data form) config →
      (∀ i, ReportsAt form (source_path i) ↔ ServerReports config i) ∧
        (ReportsAt form OPS_PATH ↔ ServerReportsOps config) := by
  intro h
  have hone := (h _ _ _ _ half_configured_decodes).1 0
  rw [reports_source_iff, server_reports_iff half_configured_decodes] at hone
  have horphaned : Orphaned half_configured "a" := by
    refine ⟨by decide, ?_, ?_⟩
    · rw [ne_eq, ← List.isEmpty_iff]
      decide +kernel
    · decide +kernel
  obtain ⟨draft, hdraft, tag, htag, -, -, hmissed⟩ := hone.mp ⟨_, rfl, horphaned⟩
  obtain rfl := Option.some.inj hdraft
  obtain rfl := Option.some.inj htag
  exact hmissed (by decide +kernel)

end xrelease.orphans
