-- What the routing map shows: the chains of edges between its nodes, what a trace marks of them,
-- and that both agree with the channels that the routing graph lists for its sources.
import Xrelease.Places
import Xrelease.RoutingMap

namespace xrelease.routing_map

open xrelease.desired_document xrelease.orphans
open xrelease.auth_store (js_trim)

/-! ## What the map shows -/

/-- There is a chain of edges from the one node to the other. -/
def Linked (flow : RoutingFlow) : String → String → Prop :=
  Relation.ReflTransGen (fun u v => ∃ edge ∈ flow.edges, edge.from_id = u ∧ edge.to_id = v)

/-- The edge lies on a chain from the one node to the other. -/
def OnPath (flow : RoutingFlow) (start finish : String) (edge : FlowEdge) : Prop :=
  Linked flow start edge.from_id ∧ Linked flow edge.to_id finish

/-- The map has every link, and a node's connections are those of the delivery relation. -/
structure ShowsDelivery (graph : FlowGraph) (flow : RoutingFlow) : Prop where
  kept : flow.edges = graph.links.map edge_of_link
  ends : ∀ id, ∃ marked, ∀ turns, flow.edges.length + 1 < turns →
    trace_connections flow id turns = some marked
  from_source : ∀ edge ∈ graph.edges, ∀ turns marked,
    trace_connections flow (source_id edge.source_key) turns = some marked →
      ∀ channel ∈ graph.channels, channel_id channel.key ∈ marked.nodes ↔ channel ∈ edge.channels
  from_channel : ∀ channel ∈ graph.channels, ∀ turns marked,
    trace_connections flow (channel_id channel.key) turns = some marked →
      ∀ edge ∈ graph.edges, source_id edge.source_key ∈ marked.nodes ↔ channel ∈ edge.channels

/-- Every marked edge lies on a chain from a source to a channel of its list, but for the edges
that the exceptions name. -/
structure MarksPaths (graph : FlowGraph) (flow : RoutingFlow)
    (no_channel : RoutingEdge → FlowEdge → Prop)
    (no_source : FlowEdge → Prop) : Prop where
  from_source : ∀ edge ∈ graph.edges, ∀ turns marked,
    trace_connections flow (source_id edge.source_key) turns = some marked →
      ∀ drawn ∈ flow.edges, drawn.id ∈ marked.edges → no_channel edge drawn ∨
        ∃ channel ∈ edge.channels,
          OnPath flow (source_id edge.source_key) (channel_id channel.key) drawn
  from_channel : ∀ channel ∈ graph.channels, ∀ turns marked,
    trace_connections flow (channel_id channel.key) turns = some marked →
      ∀ drawn ∈ flow.edges, drawn.id ∈ marked.edges → no_source drawn ∨
        ∃ edge ∈ graph.edges, channel ∈ edge.channels ∧
          OnPath flow (source_id edge.source_key) (channel_id channel.key) drawn

/-- The edge leads from a source whose list is empty to the team of its tag. -/
def ToUnheardTeam (graph : FlowGraph) (edge : RoutingEdge) (drawn : FlowEdge) : Prop :=
  edge.channels = [] ∧ ∃ source ∈ graph.sources, source.key = edge.source_key ∧
    ∃ tag, source.routing_tag = some tag ∧ drawn.from_id = source_id source.key ∧
      drawn.to_id = team_id tag

/-- The edge comes from a team that no source is tagged with. -/
def FromIdleTeam (graph : FlowGraph) (drawn : FlowEdge) : Prop :=
  ∃ team ∈ graph.teams, team.source_count = 0 ∧ drawn.from_id = team_id team.tag

/-! ## The graph -/

/-- The channels that the graph lists for a source. -/
def FlowGraph.listed (graph : FlowGraph) (source : RoutingSource) : List Channel :=
  match source.routing_tag with
  | some tag => graph.listening.filter (·.takes tag)
  | none => graph.listening.filter (·.wildcard)

/-- Keys are those of one source or channel, without arrows; the edges list the channels of the
sources; and every tag that is used has its team. -/
structure Grounded (graph : FlowGraph) : Prop where
  source_of_key : ∀ source ∈ graph.sources, ∀ source' ∈ graph.sources,
    source.key = source'.key → source = source'
  channel_of_key : ∀ channel ∈ graph.channels, ∀ channel' ∈ graph.channels,
    channel.key = channel'.key → channel = channel'
  source_plain : ∀ source ∈ graph.sources, '→' ∉ source.key.toList
  channel_plain : ∀ channel ∈ graph.channels, '→' ∉ channel.key.toList
  source_of_edge : ∀ edge ∈ graph.edges, ∃ source ∈ graph.sources,
    source.key = edge.source_key ∧ edge.channels = graph.listed source
  edge_of_source : ∀ source ∈ graph.sources, ∃ edge ∈ graph.edges,
    edge.source_key = source.key ∧ edge.channels = graph.listed source
  team_of_tag : ∀ source ∈ graph.sources, ∀ tag, source.routing_tag = some tag →
    ∃ team ∈ graph.teams, team.tag = tag
  counted : ∀ team ∈ graph.teams, team.source_count =
    (graph.sources.filter (·.routing_tag = some team.tag)).length

/-! ### Ids -/

theorem source_id_inj {key key' : String} : source_id key = source_id key' ↔ key = key' :=
  String.append_right_inj "source:"

theorem team_id_inj {tag tag' : String} : team_id tag = team_id tag' ↔ tag = tag' :=
  String.append_right_inj "team:"

theorem channel_id_inj {key key' : String} : channel_id key = channel_id key' ↔ key = key' :=
  String.append_right_inj "channel:"

theorem source_ne_team (key tag : String) : source_id key ≠ team_id tag := by
  intro h
  have hchars := congrArg String.toList h
  simp [source_id, team_id] at hchars

theorem source_ne_channel (key key' : String) : source_id key ≠ channel_id key' := by
  intro h
  have hchars := congrArg String.toList h
  simp [source_id, channel_id] at hchars

theorem team_ne_channel (tag key : String) : team_id tag ≠ channel_id key := by
  intro h
  have hchars := congrArg String.toList h
  simp [team_id, channel_id] at hchars

/-! ### Links -/

section
variable {graph : FlowGraph}

theorem mem_links {link : Link} : link ∈ graph.links ↔
    (∃ source ∈ graph.sources, ∃ tag, source.routing_tag = some tag ∧
      link = ⟨source_id source.key, team_id tag, false⟩) ∨
    (∃ source ∈ graph.sources, source.routing_tag = none ∧ ∃ channel ∈ graph.listed source,
      link = ⟨source_id source.key, channel_id channel.key, true⟩) ∨
    ∃ team ∈ graph.teams, ∃ channel ∈ graph.listening, channel.takes team.tag = true ∧
      link = ⟨team_id team.tag, channel_id channel.key, channel.wildcard⟩ := by
  unfold FlowGraph.links
  rw [List.mem_append, List.mem_flatMap, List.mem_flatMap]
  constructor
  · rintro (⟨source, hsource, hlink⟩ | ⟨team, hteam, hlink⟩)
    · unfold FlowGraph.source_links at hlink
      split at hlink
      · rename_i tag htag
        exact Or.inl ⟨source, hsource, tag, htag, List.mem_singleton.mp hlink⟩
      · rename_i htag
        obtain ⟨channel, hchannel, rfl⟩ := List.mem_map.mp hlink
        refine Or.inr (Or.inl ⟨source, hsource, htag, channel, ?_, rfl⟩)
        unfold FlowGraph.listed
        rw [htag]
        exact hchannel
    · obtain ⟨channel, hchannel, rfl⟩ := List.mem_map.mp hlink
      obtain ⟨hlistening, htakes⟩ := List.mem_filter.mp hchannel
      exact Or.inr (Or.inr ⟨team, hteam, channel, hlistening, htakes, rfl⟩)
  · rintro (⟨source, hsource, tag, htag, rfl⟩ | ⟨source, hsource, htag, channel, hchannel, rfl⟩ |
      ⟨team, hteam, channel, hlistening, htakes, rfl⟩)
    · refine Or.inl ⟨source, hsource, ?_⟩
      unfold FlowGraph.source_links
      rw [htag]
      exact List.mem_singleton_self _
    · refine Or.inl ⟨source, hsource, ?_⟩
      unfold FlowGraph.listed at hchannel
      unfold FlowGraph.source_links
      rw [htag] at hchannel ⊢
      exact List.mem_map_of_mem hchannel
    · exact Or.inr ⟨team, hteam, List.mem_map_of_mem (List.mem_filter.mpr ⟨hlistening, htakes⟩)⟩

theorem listed_listening {source : RoutingSource} {channel : Channel}
    (h : channel ∈ graph.listed source) : channel ∈ graph.listening := by
  unfold FlowGraph.listed at h
  split at h
  · exact (List.mem_filter.mp h).1
  · exact (List.mem_filter.mp h).1

theorem mem_listed_tagged {source : RoutingSource} {tag : String}
    (htag : source.routing_tag = some tag) {channel : Channel} :
    channel ∈ graph.listed source ↔ channel ∈ graph.listening ∧ channel.takes tag = true := by
  unfold FlowGraph.listed
  rw [htag]
  exact List.mem_filter

/-- Nothing is dropped: both ends of a link are nodes. -/
theorem edges_of_links (h : Grounded graph) (sweep : graph.Sweep) :
    (build_routing_flow graph sweep).edges = graph.links.map edge_of_link := by
  have hsource : ∀ source ∈ graph.sources, (graph.sources.map graph.source_node ++
      sweep.teams.map FlowGraph.team_node ++ sweep.channels.map graph.channel_node).any
        (·.id = source_id source.key) = true := by
    intro source hmem
    refine List.any_eq_true.mpr ⟨graph.source_node source, ?_, by
      simp [FlowGraph.source_node]⟩
    exact List.mem_append_left _ (List.mem_append_left _ (List.mem_map_of_mem hmem))
  have hteam : ∀ team ∈ graph.teams, (graph.sources.map graph.source_node ++
      sweep.teams.map FlowGraph.team_node ++ sweep.channels.map graph.channel_node).any
        (·.id = team_id team.tag) = true := by
    intro team hmem
    have hsweep := sweep.teams_perm.mem_iff.mpr hmem
    refine List.any_eq_true.mpr ⟨FlowGraph.team_node team, ?_, by simp [FlowGraph.team_node]⟩
    exact List.mem_append_left _ (List.mem_append_right _ (List.mem_map_of_mem hsweep))
  have hchannel : ∀ channel ∈ graph.listening, (graph.sources.map graph.source_node ++
      sweep.teams.map FlowGraph.team_node ++ sweep.channels.map graph.channel_node).any
        (·.id = channel_id channel.key) = true := by
    intro channel hmem
    have hsweep := sweep.channels_perm.mem_iff.mpr (List.mem_filter.mp hmem).1
    refine List.any_eq_true.mpr ⟨graph.channel_node channel, ?_, by
      simp [FlowGraph.channel_node]⟩
    exact List.mem_append_right _ (List.mem_map_of_mem hsweep)
  unfold build_routing_flow
  dsimp only
  rw [List.filterMap_eq_map_iff_forall_eq_some]
  intro link hlink
  rw [if_pos]
  rcases mem_links.mp hlink with ⟨source, hs, tag, htag, rfl⟩ |
    ⟨source, hs, -, channel, hlisted, rfl⟩ | ⟨team, ht, channel, hlistening, -, rfl⟩
  · obtain ⟨team, ht, rfl⟩ := h.team_of_tag source hs tag htag
    rw [hsource source hs, hteam team ht]
    rfl
  · rw [hsource source hs, hchannel channel (listed_listening hlisted)]
    rfl
  · rw [hteam team ht, hchannel channel hlistening]
    rfl

/-! ### Ids of edges -/

theorem split_at_arrow {a b a' b' : List Char} (ha : '→' ∉ a) (ha' : '→' ∉ a')
    (h : a ++ '→' :: b = a' ++ '→' :: b') : a = a' ∧ b = b' := by
  have hfirst := text.split_once_at_char ha b
  rw [h, text.split_once_at_char ha' b'] at hfirst
  simp only [Option.some.injEq, Prod.mk.injEq] at hfirst
  exact ⟨hfirst.1.symm, hfirst.2.symm⟩

theorem split_at_last_arrow {a b a' b' : List Char} (hb : '→' ∉ b) (hb' : '→' ∉ b')
    (h : a ++ '→' :: b = a' ++ '→' :: b') : a = a' ∧ b = b' := by
  have hreverse := congrArg List.reverse h
  simp only [List.reverse_append, List.reverse_cons, List.append_assoc, List.cons_append,
    List.nil_append] at hreverse
  obtain ⟨hlast, hfront⟩ := split_at_arrow (by simpa using hb) (by simpa using hb') hreverse
  exact ⟨List.reverse_inj.mp hfront, List.reverse_inj.mp hlast⟩

theorem id_chars (link : Link) :
    (edge_of_link link).id.toList = link.from_id.toList ++ '→' :: link.to_id.toList := by
  unfold edge_of_link
  rw [String.toList_append, String.toList_append]
  simp

/-- An edge comes from a source, whose id has no arrow, or goes from a team to a channel. -/
theorem link_ends (h : Grounded graph) {link : Link} (hlink : link ∈ graph.links) :
    (∃ key, link.from_id = source_id key ∧ '→' ∉ link.from_id.toList) ∨
      ∃ tag, link.from_id = team_id tag ∧ '→' ∉ link.to_id.toList := by
  have hsource : ∀ source ∈ graph.sources, '→' ∉ (source_id source.key).toList := by
    intro source hs
    unfold source_id
    rw [String.toList_append]
    simpa using h.source_plain source hs
  rcases mem_links.mp hlink with ⟨source, hs, tag, -, rfl⟩ | ⟨source, hs, -, channel, -, rfl⟩ |
    ⟨team, -, channel, hlistening, -, rfl⟩
  · exact Or.inl ⟨source.key, rfl, hsource source hs⟩
  · exact Or.inl ⟨source.key, rfl, hsource source hs⟩
  · refine Or.inr ⟨team.tag, rfl, ?_⟩
    change '→' ∉ (channel_id channel.key).toList
    unfold channel_id
    rw [String.toList_append]
    simpa using h.channel_plain channel (List.mem_filter.mp hlistening).1

theorem ends_of_id (h : Grounded graph) {link link' : Link} (hlink : link ∈ graph.links)
    (hlink' : link' ∈ graph.links) (hid : (edge_of_link link).id = (edge_of_link link').id) :
    link.from_id = link'.from_id ∧ link.to_id = link'.to_id := by
  have hchars := congrArg String.toList hid
  rw [id_chars, id_chars] at hchars
  rcases link_ends h hlink with ⟨key, hkey, hplain⟩ | ⟨tag, htag, hplain⟩ <;>
    rcases link_ends h hlink' with ⟨key', hkey', hplain'⟩ | ⟨tag', htag', hplain'⟩
  · obtain ⟨hfrom, hto⟩ := split_at_arrow hplain hplain' hchars
    exact ⟨String.toList_inj.mp hfrom, String.toList_inj.mp hto⟩
  · rw [hkey, htag'] at hchars
    simp [source_id, team_id] at hchars
  · rw [htag, hkey'] at hchars
    simp [source_id, team_id] at hchars
  · obtain ⟨hfrom, hto⟩ := split_at_last_arrow hplain hplain' hchars
    exact ⟨String.toList_inj.mp hfrom, String.toList_inj.mp hto⟩

end

/-! ### Chains -/

section
variable {graph : FlowGraph} {flow : RoutingFlow} (hkept : flow.edges = graph.links.map edge_of_link)
include hkept

theorem mem_edges {drawn : FlowEdge} :
    drawn ∈ flow.edges ↔ ∃ link ∈ graph.links, edge_of_link link = drawn := by
  rw [hkept, List.mem_map]

theorem joined_iff {u v : String} : (∃ edge ∈ flow.edges, edge.from_id = u ∧ edge.to_id = v) ↔
    ∃ link ∈ graph.links, link.from_id = u ∧ link.to_id = v := by
  constructor
  · rintro ⟨edge, hedge, hfrom, hto⟩
    obtain ⟨link, hlink, rfl⟩ := (mem_edges hkept).mp hedge
    exact ⟨link, hlink, hfrom, hto⟩
  · rintro ⟨link, hlink, hfrom, hto⟩
    exact ⟨edge_of_link link, (mem_edges hkept).mpr ⟨link, hlink, rfl⟩, hfrom, hto⟩

theorem linked_of_link {link : Link} (hlink : link ∈ graph.links) :
    Linked flow link.from_id link.to_id :=
  Relation.ReflTransGen.single ((joined_iff hkept).mpr ⟨link, hlink, rfl, rfl⟩)

theorem not_to_source {drawn : FlowEdge} (hdrawn : drawn ∈ flow.edges) (key : String) :
    drawn.to_id ≠ source_id key := by
  obtain ⟨link, hlink, rfl⟩ := (mem_edges hkept).mp hdrawn
  rcases mem_links.mp hlink with ⟨source, -, tag, -, rfl⟩ | ⟨source, -, -, channel, -, rfl⟩ |
    ⟨team, -, channel, -, -, rfl⟩
  · exact (source_ne_team key tag).symm
  · exact (source_ne_channel key channel.key).symm
  · exact (source_ne_channel key channel.key).symm

theorem not_from_channel {drawn : FlowEdge} (hdrawn : drawn ∈ flow.edges) (key : String) :
    drawn.from_id ≠ channel_id key := by
  obtain ⟨link, hlink, rfl⟩ := (mem_edges hkept).mp hdrawn
  rcases mem_links.mp hlink with ⟨source, -, tag, -, rfl⟩ | ⟨source, -, -, channel, -, rfl⟩ |
    ⟨team, -, channel, -, -, rfl⟩
  · exact source_ne_channel source.key key
  · exact source_ne_channel source.key key
  · exact team_ne_channel team.tag key

theorem linked_to_source {u key : String} (h : Linked flow u (source_id key)) :
    u = source_id key := by
  rcases Relation.ReflTransGen.cases_tail h with heq | ⟨v, -, drawn, hdrawn, -, hto⟩
  · exact heq.symm
  · exact absurd hto (not_to_source hkept hdrawn key)

theorem linked_from_channel {v key : String} (h : Linked flow (channel_id key) v) :
    v = channel_id key := by
  rcases Relation.ReflTransGen.cases_head h with heq | ⟨u, ⟨drawn, hdrawn, hfrom, -⟩, -⟩
  · exact heq.symm
  · exact absurd hfrom (not_from_channel hkept hdrawn key)

/-- A team leads to the channels that take its tag. -/
theorem linked_from_team {tag : String} {channel : Channel} (h : Grounded graph)
    (hchannel : channel ∈ graph.channels)
    (hlinked : Linked flow (team_id tag) (channel_id channel.key)) :
    channel ∈ graph.listening ∧ channel.takes tag = true := by
  rcases Relation.ReflTransGen.cases_head hlinked with heq | ⟨u, hjoined, hrest⟩
  · exact absurd heq (team_ne_channel tag channel.key)
  · obtain ⟨link, hlink, hfrom, rfl⟩ := (joined_iff hkept).mp hjoined
    rcases mem_links.mp hlink with ⟨source, -, tag', -, rfl⟩ | ⟨source, -, -, channel', -, rfl⟩ |
      ⟨team, -, channel', hlistening, htakes, rfl⟩
    · exact absurd hfrom (source_ne_team source.key tag)
    · exact absurd hfrom (source_ne_team source.key tag)
    · have hsame := channel_id_inj.mp (linked_from_channel hkept hrest)
      obtain rfl := h.channel_of_key channel hchannel channel' (List.mem_filter.mp hlistening).1
        hsame
      rw [← team_id_inj.mp hfrom]
      exact ⟨hlistening, htakes⟩

theorem linked_team_channel {team : RoutingTeam} (hteam : team ∈ graph.teams) {channel : Channel}
    (hlistening : channel ∈ graph.listening) (htakes : channel.takes team.tag = true) :
    Linked flow (team_id team.tag) (channel_id channel.key) :=
  linked_of_link hkept (mem_links.mpr (Or.inr (Or.inr ⟨team, hteam, channel, hlistening, htakes,
    rfl⟩)))

/-- A source leads to the channels that the graph lists for it. -/
theorem linked_iff_listed (h : Grounded graph) {source : RoutingSource}
    (hsource : source ∈ graph.sources) {channel : Channel} (hchannel : channel ∈ graph.channels) :
    Linked flow (source_id source.key) (channel_id channel.key) ↔
      channel ∈ graph.listed source := by
  constructor
  · intro hlinked
    rcases Relation.ReflTransGen.cases_head hlinked with heq | ⟨u, hjoined, hrest⟩
    · exact absurd heq (source_ne_channel source.key channel.key)
    · obtain ⟨link, hlink, hfrom, rfl⟩ := (joined_iff hkept).mp hjoined
      rcases mem_links.mp hlink with ⟨source', hsource', tag, htag, rfl⟩ |
        ⟨source', hsource', -, channel', hlisted, rfl⟩ | ⟨team, -, channel', -, -, rfl⟩
      · obtain rfl := h.source_of_key source' hsource' source hsource (source_id_inj.mp hfrom)
        exact (mem_listed_tagged htag).mpr (linked_from_team hkept h hchannel hrest)
      · obtain rfl := h.source_of_key source' hsource' source hsource (source_id_inj.mp hfrom)
        have hsame := channel_id_inj.mp (linked_from_channel hkept hrest)
        obtain rfl := h.channel_of_key channel hchannel channel'
          (List.mem_filter.mp (listed_listening hlisted)).1 hsame
        exact hlisted
      · exact absurd hfrom.symm (source_ne_team source.key team.tag)
  · intro hlisted
    cases htag : source.routing_tag with
    | none =>
      exact linked_of_link hkept (mem_links.mpr (Or.inr (Or.inl ⟨source, hsource, htag, channel,
        hlisted, rfl⟩)))
    | some tag =>
      obtain ⟨hlistening, htakes⟩ := (mem_listed_tagged htag).mp hlisted
      obtain ⟨team, hteam, rfl⟩ := h.team_of_tag source hsource tag htag
      have hfirst : Linked flow (source_id source.key) (team_id team.tag) :=
        linked_of_link hkept (mem_links.mpr (Or.inl ⟨source, hsource, team.tag, htag, rfl⟩))
      exact hfirst.trans (linked_team_channel hkept hteam hlistening htakes)

end

/-! ### What a trace marks -/

section
variable {flow : RoutingFlow}

theorem walk_finds {id : String} {turns : Nat} {direction : Direction} {marked found : Connections}
    (hid : id ∈ marked.nodes) (h : walk flow id turns direction marked = some found) :
    (∀ v, v ∈ found.nodes ↔ v ∈ marked.nodes ∨
      Relation.ReflTransGen (breadth.Step flow.edges (FlowEdge.tail direction)
        (FlowEdge.head direction) marked.nodes) id v) ∧
    ∀ l, l ∈ found.edges ↔ l ∈ marked.edges ∨ ∃ edge ∈ flow.edges,
      Relation.ReflTransGen (breadth.Step flow.edges (FlowEdge.tail direction)
        (FlowEdge.head direction) marked.nodes) id (edge.tail direction) ∧ edge.id = l := by
  obtain ⟨search, hsearch, rfl⟩ := Option.map_eq_some_iff.mp h
  exact breadth.search_finds hid hsearch

theorem trace_eq_some {id : String} {turns : Nat} {marked : Connections}
    (h : trace_connections flow id turns = some marked) :
    ∃ ahead, walk flow id turns .forward ⟨[id], []⟩ = some ahead ∧
      walk flow id turns .backward ahead = some marked :=
  Option.bind_eq_some_iff.mp h

/-- The chains forward, for a node that no edge goes to. -/
theorem trace_forward {id : String} (hid : ∀ edge ∈ flow.edges, edge.to_id ≠ id) {turns : Nat}
    {marked : Connections} (h : trace_connections flow id turns = some marked) :
    (∀ v, v ∈ marked.nodes ↔ Linked flow id v) ∧
      ∀ l, l ∈ marked.edges ↔ ∃ edge ∈ flow.edges, Linked flow id edge.from_id ∧ edge.id = l := by
  obtain ⟨ahead, hahead, hback⟩ := trace_eq_some h
  obtain ⟨hnodes, hedges⟩ := walk_finds (List.mem_singleton_self id) hahead
  have hchain : ∀ v, Relation.ReflTransGen (breadth.Step flow.edges (FlowEdge.tail .forward)
      (FlowEdge.head .forward) [id]) id v ↔ Linked flow id v := by
    intro v
    constructor
    · apply Relation.ReflTransGen.mono
      rintro u w ⟨-, hedge⟩
      exact hedge
    · apply Relation.ReflTransGen.mono
      rintro u w ⟨edge, hedge, hfrom, rfl⟩
      exact ⟨fun hin => hid edge hedge (List.mem_singleton.mp hin), edge, hedge, hfrom, rfl⟩
  have hin : id ∈ ahead.nodes := (hnodes id).mpr (Or.inl (List.mem_singleton_self id))
  obtain ⟨hnodes', hedges'⟩ := walk_finds hin hback
  have halone : ∀ v, Relation.ReflTransGen (breadth.Step flow.edges (FlowEdge.tail .backward)
      (FlowEdge.head .backward) ahead.nodes) id v ↔ v = id :=
    fun v => breadth.reached_alone hid
  constructor
  · intro v
    rw [hnodes', hnodes, halone, hchain, List.mem_singleton]
    constructor
    · rintro ((rfl | hv) | rfl)
      · exact .refl
      · exact hv
      · exact .refl
    · exact fun hv => Or.inl (Or.inr hv)
  · intro l
    rw [hedges', hedges]
    simp only [halone, hchain, List.not_mem_nil, false_or]
    constructor
    · rintro (hl | ⟨edge, hedge, hto, -⟩)
      · exact hl
      · exact absurd hto (hid edge hedge)
    · exact Or.inl

/-- The chains backward, for a node that no edge comes from. -/
theorem trace_backward {id : String} (hid : ∀ edge ∈ flow.edges, edge.from_id ≠ id) {turns : Nat}
    {marked : Connections} (h : trace_connections flow id turns = some marked) :
    (∀ v, v ∈ marked.nodes ↔ Linked flow v id) ∧
      ∀ l, l ∈ marked.edges ↔ ∃ edge ∈ flow.edges, Linked flow edge.to_id id ∧ edge.id = l := by
  obtain ⟨ahead, hahead, hback⟩ := trace_eq_some h
  obtain ⟨hnodes, hedges⟩ := walk_finds (List.mem_singleton_self id) hahead
  have halone : ∀ v, Relation.ReflTransGen (breadth.Step flow.edges (FlowEdge.tail .forward)
      (FlowEdge.head .forward) [id]) id v ↔ v = id :=
    fun v => breadth.reached_alone hid
  simp only [halone, List.mem_singleton, or_self] at hnodes
  have hin : id ∈ ahead.nodes := (hnodes id).mpr rfl
  obtain ⟨hnodes', hedges'⟩ := walk_finds hin hback
  have hchain : ∀ v, Relation.ReflTransGen (breadth.Step flow.edges (FlowEdge.tail .backward)
      (FlowEdge.head .backward) ahead.nodes) id v ↔ Linked flow v id := by
    intro v
    unfold Linked
    rw [← Relation.reflTransGen_swap]
    constructor
    · apply Relation.ReflTransGen.mono
      rintro u w ⟨-, edge, hedge, hto, hfrom⟩
      exact ⟨edge, hedge, hfrom, hto⟩
    · apply Relation.ReflTransGen.mono
      rintro u w ⟨edge, hedge, rfl, hto⟩
      exact ⟨fun h => hid edge hedge ((hnodes _).mp h), edge, hedge, hto, rfl⟩
  constructor
  · intro v
    rw [hnodes', hnodes, hchain]
    constructor
    · rintro (rfl | hv)
      · exact .refl
      · exact hv
    · exact Or.inr
  · intro l
    rw [hedges', hedges]
    simp only [halone, hchain, List.not_mem_nil, false_or]
    constructor
    · rintro (⟨edge, hedge, hfrom, -⟩ | hl)
      · exact absurd hfrom (hid edge hedge)
      · exact hl
    · exact Or.inr

theorem walk_ends (id : String) (direction : Direction) (marked : Connections) :
    ∃ found, ∀ turns, flow.edges.length + 1 < turns →
      walk flow id turns direction marked = some found := by
  obtain ⟨search, hsearch⟩ := @breadth.search_ends _ _ _ _ _ flow.edges (FlowEdge.tail direction)
    (FlowEdge.head direction) FlowEdge.id (flow.edges.length + 2)
    ⟨[id], marked.nodes, marked.edges⟩ (Nat.lt_succ_self _)
  refine ⟨⟨search.seen, search.marks⟩, ?_⟩
  intro turns hturns
  unfold walk
  rw [breadth.search_mono hsearch hturns]
  rfl

theorem trace_ends (flow : RoutingFlow) (id : String) :
    ∃ marked, ∀ turns, flow.edges.length + 1 < turns →
      trace_connections flow id turns = some marked := by
  obtain ⟨ahead, hahead⟩ := @walk_ends flow id .forward ⟨[id], []⟩
  obtain ⟨marked, hmarked⟩ := @walk_ends flow id .backward ahead
  refine ⟨marked, ?_⟩
  intro turns hturns
  exact Option.bind_eq_some_iff.mpr ⟨ahead, hahead turns hturns, hmarked turns hturns⟩

end

/-! ### Marked edges -/

section
variable {graph : FlowGraph} (h : Grounded graph) (sweep : graph.Sweep)
include h

theorem shows_delivery : ShowsDelivery graph (build_routing_flow graph sweep) := by
  have hkept := edges_of_links h sweep
  generalize build_routing_flow graph sweep = flow at *
  refine ⟨hkept, trace_ends flow, ?_, ?_⟩
  · intro edge hedge turns marked htrace channel hchannel
    obtain ⟨source, hsource, hkey, hlisted⟩ := h.source_of_edge edge hedge
    rw [← hkey] at htrace
    have hmarked := (trace_forward (fun drawn hdrawn => not_to_source hkept hdrawn source.key)
      htrace).1
    rw [hmarked, linked_iff_listed hkept h hsource hchannel, hlisted]
  · intro channel hchannel turns marked htrace edge hedge
    obtain ⟨source, hsource, hkey, hlisted⟩ := h.source_of_edge edge hedge
    have hmarked := (trace_backward
      (fun drawn hdrawn => not_from_channel hkept hdrawn channel.key) htrace).1
    rw [hmarked, ← hkey, linked_iff_listed hkept h hsource hchannel, hlisted]

/-- A mark is that of the edge that was followed. -/
theorem marked_link {drawn edge : FlowEdge}
    (hdrawn : drawn ∈ (build_routing_flow graph sweep).edges)
    (hedge : edge ∈ (build_routing_flow graph sweep).edges) (hid : edge.id = drawn.id) :
    edge.from_id = drawn.from_id ∧ edge.to_id = drawn.to_id := by
  have hkept := edges_of_links h sweep
  obtain ⟨link, hlink, rfl⟩ := (mem_edges hkept).mp hedge
  obtain ⟨link', hlink', rfl⟩ := (mem_edges hkept).mp hdrawn
  exact ends_of_id h hlink hlink' hid

theorem marked_from_source {source : RoutingSource} (hsource : source ∈ graph.sources)
    {drawn : FlowEdge} (hdrawn : drawn ∈ (build_routing_flow graph sweep).edges)
    (hlinked : Linked (build_routing_flow graph sweep) (source_id source.key) drawn.from_id) :
    (graph.listed source = [] ∧ ∃ tag, source.routing_tag = some tag ∧
        drawn.from_id = source_id source.key ∧ drawn.to_id = team_id tag) ∨
      ∃ channel ∈ graph.listed source, OnPath (build_routing_flow graph sweep)
        (source_id source.key) (channel_id channel.key) drawn := by
  have hkept := edges_of_links h sweep
  generalize build_routing_flow graph sweep = flow at *
  obtain ⟨link, hlink, rfl⟩ := (mem_edges hkept).mp hdrawn
  rcases mem_links.mp hlink with ⟨source', hsource', tag, htag, rfl⟩ |
    ⟨source', hsource', -, channel, hlisted, rfl⟩ | ⟨team, hteam, channel, hlistening, htakes, rfl⟩
  · have hkey := source_id_inj.mp (linked_to_source hkept hlinked)
    obtain rfl := h.source_of_key source hsource source' hsource' hkey
    by_cases hnone : graph.listed source = []
    · exact Or.inl ⟨hnone, tag, htag, rfl, rfl⟩
    · obtain ⟨channel, hlisted⟩ := List.exists_mem_of_ne_nil _ hnone
      obtain ⟨hlistening, htakes⟩ := (mem_listed_tagged htag).mp hlisted
      obtain ⟨team, hteam, rfl⟩ := h.team_of_tag source hsource tag htag
      exact Or.inr ⟨channel, hlisted, hlinked,
        linked_team_channel hkept hteam hlistening htakes⟩
  · have hkey := source_id_inj.mp (linked_to_source hkept hlinked)
    obtain rfl := h.source_of_key source hsource source' hsource' hkey
    exact Or.inr ⟨channel, hlisted, hlinked, .refl⟩
  · have hwhole := hlinked.trans (linked_of_link hkept hlink)
    have hlisted := (linked_iff_listed hkept h hsource (List.mem_filter.mp hlistening).1).mp hwhole
    exact Or.inr ⟨channel, hlisted, hlinked, .refl⟩

theorem marked_from_channel {channel : Channel} (hchannel : channel ∈ graph.channels)
    {drawn : FlowEdge} (hdrawn : drawn ∈ (build_routing_flow graph sweep).edges)
    (hlinked : Linked (build_routing_flow graph sweep) drawn.to_id (channel_id channel.key)) :
    FromIdleTeam graph drawn ∨ ∃ source ∈ graph.sources, channel ∈ graph.listed source ∧
      OnPath (build_routing_flow graph sweep) (source_id source.key) (channel_id channel.key)
        drawn := by
  have hkept := edges_of_links h sweep
  generalize build_routing_flow graph sweep = flow at *
  obtain ⟨link, hlink, rfl⟩ := (mem_edges hkept).mp hdrawn
  rcases mem_links.mp hlink with ⟨source, hsource, tag, htag, rfl⟩ |
    ⟨source, hsource, -, channel', hlisted, rfl⟩ | ⟨team, hteam, channel', hlistening, htakes, rfl⟩
  · have hwhole := (linked_of_link hkept hlink).trans hlinked
    exact Or.inr ⟨source, hsource, (linked_iff_listed hkept h hsource hchannel).mp hwhole, .refl,
      hlinked⟩
  · have hkey := channel_id_inj.mp (linked_from_channel hkept hlinked)
    obtain rfl := h.channel_of_key channel hchannel channel'
      (List.mem_filter.mp (listed_listening hlisted)).1 hkey
    exact Or.inr ⟨source, hsource, hlisted, .refl, hlinked⟩
  · by_cases hidle : team.source_count = 0
    · exact Or.inl ⟨team, hteam, hidle, rfl⟩
    · rw [h.counted team hteam] at hidle
      obtain ⟨source, hmem⟩ := List.exists_mem_of_length_pos (Nat.pos_of_ne_zero hidle)
      obtain ⟨hsource, htag⟩ := List.mem_filter.mp hmem
      have hfirst : Linked flow (source_id source.key) (team_id team.tag) := linked_of_link hkept
        (mem_links.mpr (Or.inl ⟨source, hsource, team.tag, of_decide_eq_true htag, rfl⟩))
      have hwhole := (hfirst.trans (linked_of_link hkept hlink)).trans hlinked
      exact Or.inr ⟨source, hsource, (linked_iff_listed hkept h hsource hchannel).mp hwhole,
        hfirst, hlinked⟩

theorem marks_paths : MarksPaths graph (build_routing_flow graph sweep)
    (ToUnheardTeam graph) (FromIdleTeam graph) := by
  have hkept := edges_of_links h sweep
  refine ⟨?_, ?_⟩
  · intro edge hedge turns marked htrace drawn hdrawn hid
    obtain ⟨source, hsource, hkey, hlisted⟩ := h.source_of_edge edge hedge
    rw [← hkey] at htrace
    have hmarked := (trace_forward (fun drawn hdrawn => not_to_source hkept hdrawn source.key)
      htrace).2
    obtain ⟨followed, hfollowed, hlinked, hsame⟩ := (hmarked _).mp hid
    rw [(marked_link h sweep hdrawn hfollowed hsame).1] at hlinked
    unfold ToUnheardTeam
    rw [hlisted, ← hkey]
    refine (marked_from_source h sweep hsource hdrawn hlinked).imp_left ?_
    exact fun ⟨hnone, hteam⟩ => ⟨hnone, source, hsource, rfl, hteam⟩
  · intro channel hchannel turns marked htrace drawn hdrawn hid
    have hmarked := (trace_backward
      (fun drawn hdrawn => not_from_channel hkept hdrawn channel.key) htrace).2
    obtain ⟨followed, hfollowed, hlinked, hsame⟩ := (hmarked _).mp hid
    rw [(marked_link h sweep hdrawn hfollowed hsame).2] at hlinked
    rcases marked_from_channel h sweep hchannel hdrawn hlinked with
      hidle | ⟨source, hsource, hlisted, hpath⟩
    · exact Or.inl hidle
    · obtain ⟨edge, hedge, hkey, hchannels⟩ := h.edge_of_source source hsource
      rw [← hchannels] at hlisted
      rw [← hkey] at hpath
      exact Or.inr ⟨edge, hedge, hlisted, hpath⟩

end

/-! ## The graph of the drafts -/

/-- The drafts of an editor, whose rows were numbered one by one. -/
structure Drafts extends Form where
  numbered : ∀ key ∈ sources.map (·.key) ++ notifiers.map (·.key), ∃ n : Nat,
    key = "src-" ++ toString n
  distinct_notifiers : (notifiers.map (·.key)).Nodup

/-- A row id has no arrow. -/
theorem numbered_plain {key : String} (h : ∃ n : Nat, key = "src-" ++ toString n) :
    key ≠ "" ∧ '→' ∉ key.toList := by
  obtain ⟨n, rfl⟩ := h
  constructor
  · intro hempty
    have hchars := congrArg String.toList hempty
    simp at hchars
  · rw [String.toList_append, List.mem_append, not_or]
    refine ⟨by decide, ?_⟩
    intro hmem
    have hdigit := Nat.isDigit_of_mem_toDigits (by decide) (by decide) (Nat.toList_repr ▸ hmem)
    simp [Char.isDigit] at hdigit

theorem row_eq {β : Type} {key : β → String} {rows : List β} (h : (rows.map key).Nodup)
    {a b : β} (ha : a ∈ rows) (hb : b ∈ rows) (heq : key a = key b) : a = b :=
  List.inj_on_of_nodup_map h ha hb heq

section
variable (drafts : Drafts)

theorem key_of_channel {channel : Channel}
    (h : channel ∈ channels_from_notifier_drafts drafts.notifiers) :
    ∃ draft index, drafts.notifiers[index]? = some draft ∧ channel_of draft index = some channel ∧
      channel.key = "notifier-" ++ draft.key ∧ '→' ∉ draft.key.toList := by
  obtain ⟨draft, index, hdraft, hof⟩ := mem_channels.mp h
  have hmem := List.mem_of_getElem? hdraft
  obtain ⟨hne, hplain⟩ := numbered_plain
    (drafts.numbered draft.key (List.mem_append_right _ (List.mem_map_of_mem hmem)))
  refine ⟨draft, index, hdraft, hof, ?_, hplain⟩
  unfold channel_of at hof
  dsimp only at hof
  split at hof
  · simp at hof
  · rw [← Option.some.inj hof]

theorem add_missing_keeps (sources : List RoutingSource) (listening : List Channel)
    (teams : List RoutingTeam) (source : RoutingSource) :
    teams ⊆ add_missing sources listening teams source := by
  unfold add_missing
  split
  · exact fun _ h => h
  · split
    · exact fun _ h => h
    · exact List.subset_append_left _ _

theorem foldl_missing_keeps (sources : List RoutingSource) (listening : List Channel)
    (more : List RoutingSource) (teams : List RoutingTeam) :
    teams ⊆ more.foldl (add_missing sources listening) teams := by
  induction more generalizing teams with
  | nil => exact fun _ h => h
  | cons source more ih =>
    exact List.Subset.trans (add_missing_keeps sources listening teams source) (ih _)

/-- Every tag that is used gets its team. -/
theorem team_of_used (sources : List RoutingSource) (listening : List Channel)
    {more : List RoutingSource} (teams : List RoutingTeam) {source : RoutingSource}
    (h : source ∈ more) {tag : String} (htag : source.routing_tag = some tag) :
    ∃ team ∈ more.foldl (add_missing sources listening) teams, team.tag = tag := by
  induction more generalizing teams with
  | nil => simp at h
  | cons first more ih =>
    rcases List.mem_cons.mp h with rfl | h
    · have hhere : ∃ team ∈ add_missing sources listening teams source, team.tag = tag := by
        unfold add_missing
        rw [htag]
        dsimp only
        split
        · rename_i hany
          obtain ⟨team, hteam, heq⟩ := List.any_eq_true.mp hany
          exact ⟨team, hteam, of_decide_eq_true heq⟩
        · exact ⟨team_of sources listening tag "", by simp, rfl⟩
      obtain ⟨team, hteam, heq⟩ := hhere
      exact ⟨team, foldl_missing_keeps sources listening more _ hteam, heq⟩
    · exact ih _ h

theorem counted_missing (sources : List RoutingSource) (listening : List Channel)
    (more : List RoutingSource) (teams : List RoutingTeam)
    (h : ∀ team ∈ teams, ∃ tag name, team = team_of sources listening tag name) :
    ∀ team ∈ more.foldl (add_missing sources listening) teams,
      ∃ tag name, team = team_of sources listening tag name := by
  induction more generalizing teams with
  | nil => exact h
  | cons source more ih =>
    apply ih
    intro team hteam
    unfold add_missing at hteam
    split at hteam
    · exact h team hteam
    · rename_i tag _
      split at hteam
      · exact h team hteam
      · rcases List.mem_append.mp hteam with hteam | hteam
        · exact h team hteam
        · exact ⟨tag, "", List.mem_singleton.mp hteam⟩

theorem listed_of_draft (form : Form) (draft : SourceDraft) :
    (edge_of form.teams ((build_routing_graph form).channels.filter (·.listens)) draft).channels =
      (flow_graph form).listed (routing_source draft) := by
  unfold edge_of FlowGraph.listed routing_source
  dsimp only
  by_cases htag : js_trim draft.routing_tag = ""
  · simp only [htag, ne_eq, not_true_eq_false, if_false]
    rfl
  · simp only [htag, ne_eq, not_false_eq_true, if_true]
    rfl

theorem grounded_drafts : Grounded (flow_graph drafts.toForm) where
  source_of_key source hsource source' hsource' hkey := by
    obtain ⟨draft, hdraft, rfl⟩ := List.mem_map.mp hsource
    obtain ⟨draft', hdraft', rfl⟩ := List.mem_map.mp hsource'
    rw [row_eq drafts.distinct hdraft hdraft' hkey]
  channel_of_key channel hchannel channel' hchannel' hkey := by
    obtain ⟨draft, index, hdraft, hof, hname, -⟩ := key_of_channel drafts hchannel
    obtain ⟨draft', index', hdraft', hof', hname', -⟩ := key_of_channel drafts hchannel'
    rw [hname, hname', String.append_right_inj] at hkey
    have hindex : index = index' := by
      obtain ⟨hlt, hget⟩ := List.getElem?_eq_some_iff.mp hdraft
      have hkeys : (drafts.notifiers.map (·.key))[index]? =
          (drafts.notifiers.map (·.key))[index']? := by
        rw [List.getElem?_map, List.getElem?_map, hdraft, hdraft', Option.map_some, Option.map_some,
          hkey]
      exact (List.getElem?_inj (by simpa using hlt) drafts.distinct_notifiers).mp hkeys
    subst hindex
    obtain rfl := Option.some.inj (hdraft.symm.trans hdraft')
    exact Option.some.inj (hof.symm.trans hof')
  source_plain source hsource := by
    obtain ⟨draft, hdraft, rfl⟩ := List.mem_map.mp hsource
    exact (numbered_plain (drafts.numbered draft.key
      (List.mem_append_left _ (List.mem_map_of_mem hdraft)))).2
  channel_plain channel hchannel := by
    obtain ⟨draft, index, -, -, hname, hplain⟩ := key_of_channel drafts hchannel
    rw [hname, String.toList_append, List.mem_append, not_or]
    exact ⟨by decide, hplain⟩
  source_of_edge edge hedge := by
    obtain ⟨draft, hdraft, rfl⟩ := List.mem_map.mp hedge
    exact ⟨routing_source draft, List.mem_map_of_mem hdraft, rfl, listed_of_draft _ draft⟩
  edge_of_source source hsource := by
    obtain ⟨draft, hdraft, rfl⟩ := List.mem_map.mp hsource
    exact ⟨_, List.mem_map_of_mem hdraft, rfl, listed_of_draft _ draft⟩
  team_of_tag source hsource tag htag := team_of_used _ _ _ hsource htag
  counted team hteam := by
    have hstart : ∀ team ∈ (unique_teams drafts.teams).map (fun entry =>
        team_of (drafts.sources.map routing_source)
          ((build_routing_graph drafts.toForm).channels.filter (·.listens))
          (js_trim entry.2.tag) (js_trim entry.2.name)),
        ∃ tag name, team = team_of (drafts.sources.map routing_source)
          ((build_routing_graph drafts.toForm).channels.filter (·.listens)) tag name := by
      intro team hteam
      obtain ⟨entry, -, rfl⟩ := List.mem_map.mp hteam
      exact ⟨_, _, rfl⟩
    obtain ⟨tag, name, rfl⟩ := counted_missing _ _ _ _ hstart team hteam
    rfl

end

/-- The connections of a node are those of the delivery relation, and every marked edge lies on a
chain from a source to a channel of its list, but for the edge to the team of a source without
channels, and those from a team without sources. -/
theorem the_map_shows_the_deliveries (drafts : Drafts)
    (sweep : (flow_graph drafts.toForm).Sweep) :
    ShowsDelivery (flow_graph drafts.toForm) (build_routing_flow _ sweep) ∧
      MarksPaths (flow_graph drafts.toForm) (build_routing_flow _ sweep)
        (ToUnheardTeam (flow_graph drafts.toForm)) (FromIdleTeam (flow_graph drafts.toForm)) :=
  ⟨shows_delivery (grounded_drafts drafts) sweep, marks_paths (grounded_drafts drafts) sweep⟩

/-- A source with a tag that no channel takes, and a channel with a tag that no source has. -/
def unheard : Drafts where
  defaults := ⟨none, none, none, true, "", ""⟩
  teams := [⟨"src-1", "b", ""⟩]
  sources := [⟨"src-2", "github", "", "a", "", "", "", false, "", false, "", "", "", [], "", "", [],
    []⟩]
  notifiers := [⟨"src-3", "webhook", "", "b", [], [], []⟩]
  distinct := List.nodup_singleton _
  numbered := by
    intro key hkey
    rcases List.mem_cons.mp hkey with rfl | hkey
    · exact ⟨2, by decide +kernel⟩
    · rw [List.mem_singleton.mp hkey]
      exact ⟨3, by decide +kernel⟩
  distinct_notifiers := List.nodup_singleton _

/-- The edge to the source's team is marked and leads to no channel; that of the channel comes from
no source. -/
theorem an_unheard_source_marks_an_edge :
    (¬ ∀ (drafts : Drafts) (sweep : (flow_graph drafts.toForm).Sweep),
      ShowsDelivery (flow_graph drafts.toForm) (build_routing_flow _ sweep) ∧
        MarksPaths (flow_graph drafts.toForm) (build_routing_flow _ sweep) (fun _ _ => False)
          (fun _ => False)) ∧
    ¬ ∀ (drafts : Drafts) (sweep : (flow_graph drafts.toForm).Sweep),
      MarksPaths (flow_graph drafts.toForm) (build_routing_flow _ sweep)
        (ToUnheardTeam (flow_graph drafts.toForm)) (fun _ => False) := by
  have hlisted : ∀ edge ∈ (flow_graph unheard.toForm).edges, edge.channels = [] := by
    decide +kernel
  constructor
  · intro h
    obtain ⟨-, hpaths⟩ := h unheard ⟨_, _, .refl _, .refl _⟩
    have hmarked := hpaths.from_source _ (List.mem_singleton_self _) 4
      ⟨["source:src-2", "team:a"], ["source:src-2→team:a"]⟩ (by decide +kernel)
      ⟨"source:src-2→team:a", "source:src-2", "team:a", false⟩ (by decide +kernel) (by simp)
    rcases hmarked with hnone | ⟨channel, hchannel, -⟩
    · exact hnone
    · rw [hlisted _ (List.mem_singleton_self _)] at hchannel
      exact List.not_mem_nil hchannel
  · intro h
    have hpaths := h unheard ⟨_, _, .refl _, .refl _⟩
    have hmarked := hpaths.from_channel ⟨"notifier-src-3", "webhook", "webhook", ["b"], false, true⟩
      (by decide +kernel) 4
      ⟨["channel:notifier-src-3", "team:b"], ["team:b→channel:notifier-src-3"]⟩ (by decide +kernel)
      ⟨"team:b→channel:notifier-src-3", "team:b", "channel:notifier-src-3", false⟩
      (by decide +kernel) (by simp)
    rcases hmarked with hnone | ⟨edge, hedge, hchannel, -⟩
    · exact hnone
    · rw [hlisted edge hedge] at hchannel
      exact List.not_mem_nil hchannel

end xrelease.routing_map
