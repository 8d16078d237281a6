-- The secrets that one organization's apply can touch are those that its document writes to and
-- those that it drops; the table is shared, so another organization's secret stands exactly when
-- its name is none of these.
import Xrelease.Atomic

namespace xrelease.tenants

open xrelease.config xrelease.config_apply xrelease.outcomes xrelease.brought xrelease.atomic
open xrelease.vaulted text

/-! ## The law -/

/-- The live document of another organization references the secret. -/
def OthersName (server : Server) (process : Process) (organization name : String) : Prop :=
  ∃ org ∈ server.bootstrap.organizations, org.id ≠ organization ∧
    ∃ document, LiveDocument server process org document ∧
      name ∈ collect_secret_env_refs document

/-- An apply for an organization leaves the secrets of the others. -/
def LeavesOthers (server : Server) (faults : Faults) (process : Process) (organization : String)
    (raw : String) (hint : Option DesiredFormat) : Prop :=
  ∀ name, OthersName server process organization name →
    (apply_document server faults process (.Organization organization) raw hint).2.secrets.app_secret
      name = process.secrets.app_secret name

/-- The document puts no other value under the name. -/
def NoRewrite (server : Server) (process : Process) (candidate : ScopedCandidate)
    (name : String) : Prop :=
  ∀ value, stored candidate.secret_writes name = some value →
    (process.secrets.app_secret name).map server.setup.sha256 = some (server.setup.sha256 value)

/-- Once a call gets as far as to keep secrets, and can seal those of its document, of every name
that another organization references: the last inline secret that the document has for it, as its
`*_env` name or as a name generated under the organization's prefix, is the one stored there; and
unless the pruning fails, the name is none of the organization's own that only its document before
refers to, or it is not stored. -/
def SparesOthers (server : Server) (faults : Faults) (process : Process) (organization : String)
    (raw : String) (hint : Option DesiredFormat) : Prop :=
  ∀ document, Asked server process raw hint (.Organization organization) document →
    (∃ candidate, Reaches server faults process (.Organization organization) raw hint candidate) →
    CanSeal server faults (.Organization organization) document →
    ∀ name, OthersName server process organization name →
      BringsNoNews server process (.Organization organization) document name ∧
      (CanPrune server faults process (.Organization organization) document →
        Stale server process (.Organization organization) document name →
        process.secrets.app_secret name = none)

theorem rewrite_free_iff {server : Server} {faults : Faults} {process : Process}
    {scope : ApplyScope} {raw : String} {hint : Option DesiredFormat} {candidate : ScopedCandidate}
    (h : Reaches server faults process scope raw hint candidate) (name : String) :
    (sealed server process candidate).app_secret name = process.secrets.app_secret name ↔
      NoRewrite server process candidate name := by
  obtain ⟨document, ha⟩ := asked_of_reaches h
  rw [sealed_same_iff h ha]
  unfold BringsNoNews NoRewrite
  simp only [stored_eq h ha]

/-- A call puts no other value under the name, and does not drop it. -/
def Spares (server : Server) (faults : Faults) (process : Process) (scope : ApplyScope)
    (raw : String) (hint : Option DesiredFormat) (name : String) : Prop :=
  ∀ candidate, Reaches server faults process scope raw hint candidate →
    Seals server faults candidate →
      ((∀ stale, ¬ Prunes server faults process scope candidate stale) →
        NoRewrite server process candidate name) ∧
      ∀ stale, Prunes server faults process scope candidate stale →
        (name ∈ stale → process.secrets.app_secret name = none) ∧
        (name ∉ stale → NoRewrite server process candidate name)

/-- The row of a name is what it was exactly when the call spares it. -/
theorem row_same_iff {server : Server} {faults : Faults} {process : Process}
    {scope : ApplyScope} {raw : String} {hint : Option DesiredFormat} (name : String) :
    (apply_document server faults process scope raw hint).2.secrets.app_secret name =
        process.secrets.app_secret name ↔
      Spares server faults process scope raw hint name := by
  have hout := table_of_outcome (apply_outcome server faults process scope raw hint)
  generalize (apply_document server faults process scope raw hint).2 = process' at hout ⊢
  rcases hout with ⟨hnone, htable⟩ | ⟨candidate, hreach, hseals, hno, htable⟩ |
    ⟨candidate, stale, hreach, hseals, hprunes, hsecrets⟩
  · rw [htable]
    exact ⟨fun _ c hc hs => absurd hs (hnone c hc), fun _ => rfl⟩
  · rw [htable, rewrite_free_iff hreach]
    constructor
    · intro hsame c hc _
      obtain rfl := reaches_unique hreach hc
      exact ⟨fun _ => hsame, fun stale hp => absurd hp (hno stale)⟩
    · intro hspares
      exact (hspares candidate hreach hseals).1 hno
  · have hat := (deleted_at (stale_trimmed hprunes.1) (sealed server process candidate) name).1
    rw [hsecrets, pruned, hat]
    constructor
    · intro hsame c hc _
      obtain rfl := reaches_unique hreach hc
      refine ⟨fun hno => absurd hprunes (hno stale), fun stale' hp => ?_⟩
      obtain rfl := prunes_unique hprunes hp
      refine ⟨fun hmem => ?_, fun hmem => (rewrite_free_iff hreach name).mp ?_⟩
      · rw [if_pos hmem] at hsame
        exact hsame.symm
      · rwa [if_neg hmem] at hsame
    · intro hspares
      obtain ⟨hdropped, hwritten⟩ := (hspares candidate hreach hseals).2 stale hprunes
      by_cases hmem : name ∈ stale
      · rw [if_pos hmem, hdropped hmem]
      · rw [if_neg hmem]
        exact (rewrite_free_iff hreach name).mpr (hwritten hmem)

theorem spares_iff {server : Server} {faults : Faults} {process : Process} {scope : ApplyScope}
    {raw : String} {hint : Option DesiredFormat} {document : Config} (name : String)
    (ha : Asked server process raw hint scope document) :
    Spares server faults process scope raw hint name ↔
      ((∃ candidate, Reaches server faults process scope raw hint candidate) →
        CanSeal server faults scope document →
        BringsNoNews server process scope document name ∧
        (CanPrune server faults process scope document →
          Stale server process scope document name → process.secrets.app_secret name = none)) := by
  constructor
  · rintro hspares ⟨candidate, hreach⟩ hseals
    obtain ⟨hno, hyes⟩ := hspares candidate hreach ((seals_iff hreach ha).mpr hseals)
    rw [← sealed_same_iff hreach ha, rewrite_free_iff hreach, ← prunes_iff hreach ha]
    by_cases hp : ∃ stale, Prunes server faults process scope candidate stale
    · obtain ⟨stale, hp⟩ := hp
      have hrow : (pruned server process candidate stale).app_secret name =
          process.secrets.app_secret name := by
        obtain ⟨hdropped, hkept⟩ := hyes stale hp
        rw [pruned, (deleted_at (stale_trimmed hp.1) _ name).1]
        by_cases hmem : name ∈ stale
        · rw [if_pos hmem, hdropped hmem]
        · rw [if_neg hmem]
          exact (rewrite_free_iff hreach name).mpr (hkept hmem)
      obtain ⟨hnews, hstale⟩ := (pruned_same_iff hreach ha hp name).mp hrow
      exact ⟨(rewrite_free_iff hreach name).mp ((sealed_same_iff hreach ha name).mpr hnews),
        fun _ => hstale⟩
    · exact ⟨hno (not_exists.mp hp), fun h => absurd h hp⟩
  · intro h candidate hreach hseals
    obtain ⟨hnews, hstale⟩ := h ⟨candidate, hreach⟩ ((seals_iff hreach ha).mp hseals)
    have hwrites := (rewrite_free_iff hreach name).mp ((sealed_same_iff hreach ha name).mpr hnews)
    refine ⟨fun _ => hwrites, fun stale hp => ⟨fun hmem => ?_, fun _ => hwrites⟩⟩
    exact hstale ((prunes_iff hreach ha).mp ⟨stale, hp⟩) ((stale_iff hreach ha hp.1 name).mp hmem)

/-- An apply for one organization leaves the secrets of the others exactly when its document
spares their names. -/
theorem an_organization_spares_what_it_does_not_name (server : Server) (faults : Faults)
    (process : Process) (organization raw : String) (hint : Option DesiredFormat) :
    LeavesOthers server faults process organization raw hint ↔
      SparesOthers server faults process organization raw hint := by
  unfold LeavesOthers
  simp only [row_same_iff]
  constructor
  · intro hspares document ha hreach hseals name hname
    exact (spares_iff name ha).mp (hspares name hname) hreach hseals
  · intro hspares name hname candidate hreach hseals
    obtain ⟨document, ha⟩ := asked_of_reaches hreach
    exact (spares_iff name ha).mpr (fun hr hs => hspares document ha hr hs name hname) candidate
      hreach hseals

/-! ## Two teams -/

/-- The name that both `team-a` and `team_a` store the URL of a NATS sink with the subject `new`
under. -/
def TEAM_BUS : String := "XRELEASE_UI_TEAM_A_N_NATS_NEW_NATS_URL"

def team_bus : DesiredWire :=
  ⟨none, [.Nats { url_env := some TEAM_BUS, subject := "new" }], [], [], []⟩

def team_bus_text : String :=
  "[[notifiers]]\ntype = \"nats\"\ntags = []\nurl = \"\"\nurl_env = \"" ++ TEAM_BUS ++
    "\"\nsubject = \"new\"\n"

def inline_bus : DesiredWire :=
  ⟨none, [.Nats { url := "nats://u:p@two", subject := "new" }], [], [], []⟩

def inline_bus_text : String :=
  "[[notifiers]]\ntype = \"nats\"\nurl = \"nats://u:p@two\"\nsubject = \"new\"\n"

def team_docs : List (DesiredFormat × DesiredWire × String) :=
  [(.Toml, team_bus, team_bus_text), (.Toml, inline_bus, inline_bus_text),
    (.Yaml, ⟨none, [], [], [], []⟩, EMPTY_ORGANIZATION_DOCUMENT)]

/-- A server for two organizations, the ids of which sanitize to the same name. -/
def team_server : Server :=
  { bench team_docs with
    bootstrap :=
      { (bench team_docs).bootstrap with
        organizations := [{ id := "team-a" }, { id := "team_a" }] } }

/-- The second team runs its sink; the first has applied nothing yet. -/
def team_process : Process where
  secrets :=
    { vault := set_name (fun _ => none) TEAM_BUS (some "nats://u:p@one")
      app_secret := set_name (fun _ => none) TEAM_BUS (some "nats://u:p@one") }
  ledger :=
    [{ id := 1, content := team_bus_text, content_sha256 := team_bus_text, status := .Applied,
       organization_id := some "team_a" }]
  effective := {}
  sinks := []
  watches := []

/-- The first team applies a sink of its own, and the second team's URL is overwritten. -/
theorem a_team_takes_the_other_ones_name :
    ¬ LeavesOthers team_server {} team_process "team-a" inline_bus_text none := by
  intro h
  have hlive : LiveDocument team_server team_process { id := "team_a" } team_bus.document :=
    ⟨team_bus_text, .Ledger, by decide +kernel, by decide +kernel⟩
  have hname : OthersName team_server team_process "team-a" TEAM_BUS :=
    ⟨{ id := "team_a" }, by decide +kernel, by decide, team_bus.document, hlive, by decide +kernel⟩
  have hsame := h TEAM_BUS hname
  have hnews : (apply_document team_server {} team_process (.Organization "team-a")
      inline_bus_text none).2.secrets.app_secret TEAM_BUS = some "nats://u:p@two" := by
    decide +kernel
  rw [hnews] at hsame
  exact absurd hsame (by decide +kernel)

end xrelease.tenants
