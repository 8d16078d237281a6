-- The map of the routing (`routing-flow.ts`): sources, teams and channels as nodes, the links between
-- them, and what is connected with a node. Where a node stands on the canvas, its badge and the
-- shape of an edge are left out.
import Xrelease.Breadth
import Xrelease.Orphans

namespace xrelease.routing_map

open xrelease.desired_document xrelease.orphans
open xrelease.auth_store (js_trim)

/-! ## The graph in full -/

/-- A source on the map. -/
structure RoutingSource where
  key : String
  label : String
  type : String
  routing_tag : Option String
deriving DecidableEq

/-- A team on the map. -/
structure RoutingTeam where
  tag : String
  name : String
  source_count : Nat
  channel_count : Nat
deriving DecidableEq

/-- What `buildRoutingGraph` returns. -/
structure FlowGraph extends RoutingGraph where
  sources : List RoutingSource
  teams : List RoutingTeam
  untagged_sources : Nat
  wildcard_channels : Nat

/-- A draft as the map shows it. -/
def routing_source (draft : SourceDraft) : RoutingSource :=
  let tag := js_trim draft.routing_tag
  ⟨draft.key, source_label draft, draft.type, if tag ≠ "" then some tag else none⟩

/-- `Map.set`. -/
def put_entry {β : Type} (entries : List (String × β)) (entry : String × β) :
    List (String × β) :=
  if entries.any (·.1 = entry.1) then
    entries.map (fun old => if old.1 = entry.1 then entry else old)
  else entries ++ [entry]

/-- Duplicate tags are collapsed. -/
def unique_teams (teams : List TeamDraft) : List (String × TeamDraft) :=
  ((teams.filter (fun team => js_trim team.tag ≠ "")).map
    (fun team => (js_trim team.tag, team))).foldl put_entry []

/-- The team of a tag. -/
def team_of (sources : List RoutingSource) (listening : List Channel) (tag name : String) :
    RoutingTeam :=
  ⟨tag, name, (sources.filter (·.routing_tag = some tag)).length,
    (listening.filter (·.takes tag)).length⟩

/-- A tag that a source uses and the catalogue lacks. -/
def add_missing (sources : List RoutingSource) (listening : List Channel)
    (teams : List RoutingTeam) (source : RoutingSource) : List RoutingTeam :=
  match source.routing_tag with
  | none => teams
  | some tag =>
    if teams.any (·.tag = tag) then teams else teams ++ [team_of sources listening tag ""]

/-- The graph of a form. -/
def flow_graph (form : Form) : FlowGraph :=
  let graph := build_routing_graph form
  let listening := graph.channels.filter (·.listens)
  let sources := form.sources.map routing_source
  let teams := (unique_teams form.teams).map (fun entry =>
    team_of sources listening (js_trim entry.2.tag) (js_trim entry.2.name))
  { graph with
    sources := sources
    teams := sources.foldl (add_missing sources listening) teams
    untagged_sources := (sources.filter (·.routing_tag = none)).length
    wildcard_channels := (listening.filter (·.wildcard)).length }

/-! ## The flow -/

/-- The three columns of the map. -/
inductive FlowNodeKind where
  | source
  | team
  | channel
deriving DecidableEq

/-- Why a node is flagged. -/
inductive FlowWarning where
  | no_target
  | no_channel
  | unused
  | not_listening
deriving DecidableEq

/-- A node of the drawing. -/
structure FlowNode where
  id : String
  kind : FlowNodeKind
  column : Nat
  label : String
  sublabel : String
  warning : Option FlowWarning
  /-- Key of the underlying draft or channel. -/
  ref : String
deriving DecidableEq

/-- A connection that is to be drawn. -/
structure Link where
  from_id : String
  to_id : String
  wildcard : Bool
deriving DecidableEq

/-- An edge of the drawing. -/
structure FlowEdge where
  id : String
  from_id : String
  to_id : String
  wildcard : Bool
deriving DecidableEq

/-- The drawing. -/
structure RoutingFlow where
  nodes : List FlowNode
  edges : List FlowEdge

def source_id (key : String) : String := "source:" ++ key

def team_id (tag : String) : String := "team:" ++ tag

def channel_id (key : String) : String := "channel:" ++ key

namespace FlowGraph

/-- The channels that listen. -/
def listening (graph : FlowGraph) : List Channel := graph.channels.filter (·.listens)

/-- A tagged source goes by its team, an untagged one straight to the wildcard channels. -/
def source_links (graph : FlowGraph) (source : RoutingSource) : List Link :=
  match source.routing_tag with
  | some tag => [⟨source_id source.key, team_id tag, false⟩]
  | none =>
    (graph.listening.filter (·.wildcard)).map (fun channel =>
      ⟨source_id source.key, channel_id channel.key, true⟩)

/-- From a team to the channels that take its tag. -/
def team_links (graph : FlowGraph) (team : RoutingTeam) : List Link :=
  (graph.listening.filter (·.takes team.tag)).map (fun channel =>
    ⟨team_id team.tag, channel_id channel.key, channel.wildcard⟩)

/-- Everything that is drawn. -/
def links (graph : FlowGraph) : List Link :=
  graph.sources.flatMap graph.source_links ++ graph.teams.flatMap graph.team_links

def source_node (graph : FlowGraph) (source : RoutingSource) : FlowNode :=
  { id := source_id source.key
    kind := .source
    column := 0
    label := source.label
    sublabel := source.routing_tag.getD ""
    warning :=
      if graph.links.any (·.from_id = source_id source.key) then none else some .no_target
    ref := source.key }

def team_node (team : RoutingTeam) : FlowNode :=
  { id := team_id team.tag
    kind := .team
    column := 1
    label := if team.name ≠ "" then team.name else team.tag
    sublabel := if team.name ≠ "" then team.tag else ""
    warning := if team.channel_count = 0 then some .no_channel else none
    ref := team.tag }

def channel_node (graph : FlowGraph) (channel : Channel) : FlowNode :=
  { id := channel_id channel.key
    kind := .channel
    column := 2
    label := channel.label
    sublabel :=
      if !channel.listens then "no targets"
      else if channel.wildcard then "" else ", ".intercalate channel.tags
    warning :=
      if !channel.listens then some .not_listening
      else if graph.links.any (·.to_id = channel_id channel.key) then none
      else some .unused
    ref := channel.key }

/-- The teams and the channels in the order of their columns, which damps crossings. -/
structure Sweep (graph : FlowGraph) where
  teams : List RoutingTeam
  channels : List Channel
  teams_perm : teams.Perm graph.teams
  channels_perm : channels.Perm graph.channels

end FlowGraph

/-- A connection as it is drawn. -/
def edge_of_link (link : Link) : FlowEdge :=
  ⟨link.from_id ++ "→" ++ link.to_id, link.from_id, link.to_id, link.wildcard⟩

/-- A link is drawn between two nodes that are there. -/
def build_routing_flow (graph : FlowGraph) (sweep : graph.Sweep) : RoutingFlow :=
  let nodes := graph.sources.map graph.source_node ++ sweep.teams.map FlowGraph.team_node ++
    sweep.channels.map graph.channel_node
  { nodes := nodes
    edges := graph.links.filterMap (fun link =>
      if nodes.any (·.id = link.from_id) && nodes.any (·.id = link.to_id) then
        some (edge_of_link link)
      else none) }

/-! ## Connections -/

/-- Downstream or upstream. -/
inductive Direction where
  | forward
  | backward
deriving DecidableEq

/-- Where an edge is entered. -/
def FlowEdge.tail (direction : Direction) (edge : FlowEdge) : String :=
  if direction = .forward then edge.from_id else edge.to_id

/-- Where an edge leads. -/
def FlowEdge.head (direction : Direction) (edge : FlowEdge) : String :=
  if direction = .forward then edge.to_id else edge.from_id

/-- The nodes and the edges that are marked. -/
structure Connections where
  nodes : List String
  edges : List String
deriving DecidableEq

/-- None if the loop takes more turns. -/
def walk (flow : RoutingFlow) (id : String) (turns : Nat) (direction : Direction)
    (marked : Connections) : Option Connections :=
  (breadth.search flow.edges (FlowEdge.tail direction) (FlowEdge.head direction) FlowEdge.id turns
    ⟨[id], marked.nodes, marked.edges⟩).map (fun found => ⟨found.seen, found.marks⟩)

/-- Everything a node reaches, in both directions. -/
def trace_connections (flow : RoutingFlow) (id : String) (turns : Nat) : Option Connections := do
  let forward ← walk flow id turns .forward ⟨[id], []⟩
  walk flow id turns .backward forward

end xrelease.routing_map
