-- What an apply that fails has changed: nothing before its secrets are sealed, and after that
-- whatever sealing and pruning did, for only the runtime is put back.
import Xrelease.Brought

namespace xrelease.atomic

open xrelease.config xrelease.config_apply xrelease.outcomes xrelease.brought text

/-! ## The state of a stream -/

/-- The running configuration, the latest applied revision of the stream and the stored secrets
are what they were. -/
structure SameState (scope : ApplyScope) (process process' : Process) : Prop where
  running : process'.effective = process.effective
  latest : latest_applied_config_revision process'.ledger scope.ledger_stream =
    latest_applied_config_revision process.ledger scope.ledger_stream
  secrets : process'.secrets.app_secret = process.secrets.app_secret

theorem applied_revisions_rejected (ledger rows : List ConfigRevision)
    (h : ∀ row ∈ rows, row.status = .Rejected) (stream : Option String) :
    applied_revisions (ledger ++ rows) stream = applied_revisions ledger stream := by
  unfold applied_revisions
  have hnone : rows.filter (fun row => row.status = .Applied ∧ row.organization_id = stream) =
      [] := by
    rw [List.filter_eq_nil_iff]
    intro row hrow
    simp [h row hrow]
  rw [List.filter_append, hnone, List.append_nil]

variable {server : Server} {process : Process} {scope : ApplyScope} {hint : Option DesiredFormat}

/-- A swap looks at no more of a process than its vault. -/
theorem swaps_alike {other : Process} (h : process.secrets = other.secrets) (config : Config) :
    (∃ swapped, apply_runtime server process config = .ok swapped) ↔
      ∃ swapped, apply_runtime server other config = .ok swapped := by
  simp only [apply_runtime_ok_iff, h]
  constructor
  · rintro ⟨_, watches, sinks, hw, hs, -⟩
    exact ⟨_, watches, sinks, hw, hs, rfl⟩
  · rintro ⟨_, watches, sinks, hw, hs, -⟩
    exact ⟨_, watches, sinks, hw, hs, rfl⟩

/-! ## When an error leaves everything -/

/-- The process with the candidate's secrets kept. -/
def kept (server : Server) (process : Process) (candidate : ScopedCandidate)
    (stale : List String) : Process :=
  { process with secrets := pruned server process candidate stale }

/-- What is left on every way to fail is the state before, or the call gets through. -/
def Compensated (server : Server) (faults : Faults) (process : Process) (scope : ApplyScope)
    (raw : String) (hint : Option DesiredFormat) : Prop :=
  ∀ candidate, Reaches server faults process scope raw hint candidate →
    Seals server faults candidate →
    ((∀ stale, ¬ Prunes server faults process scope candidate stale) →
      (sealed server process candidate).app_secret = process.secrets.app_secret) ∧
    ∀ stale, Prunes server faults process scope candidate stale →
      ¬ IsCurrent process scope candidate.ledger_sha →
      ((∃ swapped, apply_runtime server (kept server process candidate stale) candidate.merged =
          .ok swapped) ∧ faults.insert = none) ∨
      ((pruned server process candidate stale).app_secret = process.secrets.app_secret ∧
        ((∃ swapped, apply_runtime server (kept server process candidate stale)
            candidate.merged = .ok swapped) →
          (∃ back, apply_runtime server (kept server process candidate stale)
            process.effective = .ok back) ∨ candidate.merged = process.effective))

/-- The call fails only in ways that change nothing. -/
def AtomicOnError (server : Server) (faults : Faults) (process : Process) (scope : ApplyScope)
    (raw : String) (hint : Option DesiredFormat) : Prop :=
  ∀ err, (apply_document server faults process scope raw hint).1 = .error err →
    SameState scope process (apply_document server faults process scope raw hint).2

theorem atomic_of_outcome {faults : Faults} {raw : String}
    {answer : Except ApplyError ApplyResponse} {process' : Process}
    (h : Outcome server faults process scope raw hint answer process') :
    (∀ err, answer = .error err → SameState scope process process') ↔
      Compensated server faults process scope raw hint := by
  cases h with
  | refused err rows unreached rejected =>
    constructor
    · intro _ c hc
      exact absurd hc (unreached c)
    · intro _ _ _
      refine ⟨rfl, ?_, rfl⟩
      simp only [latest_applied_config_revision, applied_revisions_rejected _ _ rejected]
  | unchanged response applied unreached =>
    constructor
    · intro _ c hc
      exact absurd hc (unreached c)
    · intro _ err herr
      exact absurd herr (by simp)
  | not_sealed candidate err vault reached unsealed =>
    constructor
    · intro _ c hc hseals
      obtain rfl := reaches_unique reached hc
      exact absurd hseals unsealed
    · intro _ _ _
      exact ⟨rfl, rfl, rfl⟩
  | not_pruned candidate err vault reached seals unpruned =>
    constructor
    · intro hsame c hc _
      obtain rfl := reaches_unique reached hc
      exact ⟨fun _ => (hsame _ rfl).secrets, fun stale hp => absurd hp (unpruned stale)⟩
    · intro hleft _ _
      exact ⟨rfl, rfl, (hleft candidate reached seals).1 unpruned⟩
  | rotated candidate stale response reached current seals prunes applied =>
    constructor
    · intro _ c hc _
      obtain rfl := reaches_unique reached hc
      exact ⟨fun hnone => absurd prunes (hnone stale), fun _ _ hnews => absurd current hnews⟩
    · intro _ err herr
      exact absurd herr (by simp)
  | not_swapped candidate stale err kept kept_eq reached news seals prunes unswapped =>
    subst kept_eq
    have hunswapped : ¬ ∃ swapped, apply_runtime server
        (atomic.kept server process candidate stale) candidate.merged = .ok swapped :=
      fun ⟨swapped, h⟩ => unswapped swapped h
    constructor
    · intro hsame c hc _
      obtain rfl := reaches_unique reached hc
      refine ⟨fun hnone => absurd prunes (hnone stale), fun stale' hp _ => ?_⟩
      obtain rfl := prunes_unique prunes hp
      exact Or.inr ⟨(hsame _ rfl).secrets, fun h => absurd h hunswapped⟩
    · intro hleft _ _
      rcases (hleft candidate reached seals).2 stale prunes news with h | h
      · exact absurd h.1 hunswapped
      · exact ⟨rfl, rfl, h.1⟩
  | swapped_back candidate stale err kept swapped back kept_eq reached news seals prunes swaps
      unrecorded swaps_back =>
    subst kept_eq
    obtain ⟨hsecrets, hledger, -⟩ := apply_runtime_keeps swaps
    obtain ⟨hsecrets', hledger', heffective⟩ := apply_runtime_keeps swaps_back
    have hback : ∃ back, apply_runtime server (atomic.kept server process candidate stale)
        process.effective = .ok back := (swaps_alike hsecrets process.effective).mp ⟨_, swaps_back⟩
    constructor
    · intro hsame c hc _
      obtain rfl := reaches_unique reached hc
      refine ⟨fun hnone => absurd prunes (hnone stale), fun stale' hp _ => ?_⟩
      obtain rfl := prunes_unique prunes hp
      have htable := (hsame _ rfl).secrets
      rw [hsecrets', hsecrets] at htable
      exact Or.inr ⟨htable, fun _ => Or.inl hback⟩
    · intro hleft _ _
      rcases (hleft candidate reached seals).2 stale prunes news with h | h
      · exact absurd h.2 unrecorded
      · refine ⟨heffective, by rw [hledger', hledger], ?_⟩
        rw [hsecrets', hsecrets]
        exact h.1
  | stuck candidate stale err kept swapped kept_eq reached news seals prunes swaps unrecorded
      stays =>
    subst kept_eq
    obtain ⟨hsecrets, hledger, heffective⟩ := apply_runtime_keeps swaps
    have hback : ¬ ∃ back, apply_runtime server (atomic.kept server process candidate stale)
        process.effective = .ok back := by
      intro h
      obtain ⟨back, h⟩ := (swaps_alike hsecrets process.effective).mpr h
      exact stays back h
    constructor
    · intro hsame c hc _
      obtain rfl := reaches_unique reached hc
      refine ⟨fun hnone => absurd prunes (hnone stale), fun stale' hp _ => ?_⟩
      obtain rfl := prunes_unique prunes hp
      have hstate := hsame _ rfl
      have htable := hstate.secrets
      rw [hsecrets] at htable
      exact Or.inr ⟨htable, fun _ => Or.inr (heffective.symm.trans hstate.running)⟩
    · intro hleft _ _
      rcases (hleft candidate reached seals).2 stale prunes news with h | h
      · exact absurd h.2 unrecorded
      · refine ⟨?_, by rw [hledger], by rw [hsecrets]; exact h.1⟩
        rcases h.2 ⟨_, swaps⟩ with h | h
        · exact absurd h hback
        · rw [heffective, h]
  | recorded candidate stale response kept swapped kept_eq reached news seals prunes swaps inserts
      applied =>
    subst kept_eq
    constructor
    · intro _ c hc _
      obtain rfl := reaches_unique reached hc
      refine ⟨fun hnone => absurd prunes (hnone stale), fun stale' hp _ => ?_⟩
      obtain rfl := prunes_unique prunes hp
      exact Or.inl ⟨⟨_, swaps⟩, inserts⟩
    · intro _ err herr
      exact absurd herr (by simp)

/-- The configuration can be built from this vault. -/
def Builds (server : Server) (vault : String → Option String) (config : Config) : Prop :=
  ∃ watches sinks, to_watches server.makers server.setup.env vault config = .ok watches ∧
    build_notifiers server.makers server.setup.env vault config = .ok sinks

/-- Every inline secret of the document is stored already under the name it goes by. -/
def NoNews (server : Server) (process : Process) (scope : ApplyScope) (document : Config) : Prop :=
  ∀ name, BringsNoNews server process scope document name

/-- No stale name is stored. -/
def NoLoss (server : Server) (process : Process) (scope : ApplyScope) (document : Config) : Prop :=
  ∀ name, Stale server process scope document name → process.secrets.app_secret name = none

/-- Once a call gets as far as to keep secrets, and can seal those of its document: where the
pruning fails, the document has no news; and where the document is not the one that runs, either
what it asks for can be built from its secrets and the append goes through, or the document has no
news and drops nothing, and what runs can be built again if what it asks for can, or is the
same. -/
def Harmless (server : Server) (faults : Faults) (process : Process) (scope : ApplyScope)
    (raw : String) (hint : Option DesiredFormat) : Prop :=
  ∀ document candidate, Asked server process raw hint scope document →
    Reaches server faults process scope raw hint candidate →
    CanSeal server faults scope document →
    (¬ CanPrune server faults process scope document → NoNews server process scope document) ∧
    (CanPrune server faults process scope document →
      ¬ IsCurrent process scope candidate.ledger_sha →
      Builds server (vault_then server process scope document) candidate.merged ∧
          faults.insert = none ∨
        NoNews server process scope document ∧ NoLoss server process scope document ∧
          (Builds server (vault_then server process scope document) candidate.merged →
            Builds server (vault_then server process scope document) process.effective ∨
              candidate.merged = process.effective))

theorem swaps_iff (server : Server) (process : Process) (config : Config) :
    (∃ swapped, apply_runtime server process config = .ok swapped) ↔
      Builds server process.secrets.vault config := by
  simp only [apply_runtime_ok_iff]
  constructor
  · rintro ⟨_, watches, sinks, hw, hs, -⟩
    exact ⟨watches, sinks, hw, hs⟩
  · rintro ⟨watches, sinks, hw, hs⟩
    exact ⟨_, watches, sinks, hw, hs, rfl⟩

theorem sealed_table_iff {faults : Faults} {raw : String} {candidate : ScopedCandidate}
    {document : Config} (h : Reaches server faults process scope raw hint candidate)
    (ha : Asked server process raw hint scope document) :
    (sealed server process candidate).app_secret = process.secrets.app_secret ↔
      NoNews server process scope document := by
  rw [funext_iff]
  exact forall_congr' (sealed_same_iff h ha)

theorem pruned_table_iff {faults : Faults} {raw : String} {candidate : ScopedCandidate}
    {document : Config} (h : Reaches server faults process scope raw hint candidate)
    (ha : Asked server process raw hint scope document) {stale : List String}
    (hp : Prunes server faults process scope candidate stale) :
    (pruned server process candidate stale).app_secret = process.secrets.app_secret ↔
      NoNews server process scope document ∧ NoLoss server process scope document := by
  unfold NoNews NoLoss
  rw [funext_iff, ← forall_and]
  exact forall_congr' (pruned_same_iff h ha hp)

theorem kept_swaps_iff {faults : Faults} {raw : String} {candidate : ScopedCandidate}
    {document : Config} (h : Reaches server faults process scope raw hint candidate)
    (ha : Asked server process raw hint scope document) {stale : List String}
    (hp : Prunes server faults process scope candidate stale) (config : Config) :
    (∃ swapped, apply_runtime server (kept server process candidate stale) config = .ok swapped) ↔
      Builds server (vault_then server process scope document) config := by
  rw [swaps_iff, ← pruned_vault h ha hp]
  rfl

theorem compensated_iff (server : Server) (faults : Faults) (process : Process)
    (scope : ApplyScope) (raw : String) (hint : Option DesiredFormat) :
    Compensated server faults process scope raw hint ↔
      Harmless server faults process scope raw hint := by
  constructor
  · intro h document candidate ha hreach hseals
    obtain ⟨hno, hyes⟩ := h candidate hreach ((seals_iff hreach ha).mpr hseals)
    rw [← prunes_iff hreach ha, not_exists]
    refine ⟨fun hp => (sealed_table_iff hreach ha).mp (hno hp), ?_⟩
    rintro ⟨stale, hp⟩ hnews
    simpa only [kept_swaps_iff hreach ha hp, pruned_table_iff hreach ha hp, and_assoc] using
      hyes stale hp hnews
  · intro h candidate hreach hseals
    obtain ⟨document, ha⟩ := asked_of_reaches hreach
    obtain ⟨hno, hyes⟩ := h document candidate ha hreach ((seals_iff hreach ha).mp hseals)
    rw [← prunes_iff hreach ha] at hno hyes
    refine ⟨fun hp => (sealed_table_iff hreach ha).mpr (hno (not_exists.mpr hp)), ?_⟩
    intro stale hp hnews
    simpa only [kept_swaps_iff hreach ha hp, pruned_table_iff hreach ha hp, and_assoc] using
      hyes ⟨stale, hp⟩ hnews

/-- An apply is atomic on error exactly when the errors after the writes come where these changed
nothing. -/
theorem an_apply_is_atomic_while_its_secrets_stand (server : Server) (faults : Faults)
    (process : Process) (scope : ApplyScope) (raw : String) (hint : Option DesiredFormat) :
    AtomicOnError server faults process scope raw hint ↔
      Harmless server faults process scope raw hint :=
  (atomic_of_outcome (apply_outcome server faults process scope raw hint)).trans
    (compensated_iff server faults process scope raw hint)

/-! ## A server -/

/-- The name that the URL of a NATS sink with the subject `new` is stored under. -/
def BUS : String := "XRELEASE_UI_N_NATS_NEW_NATS_URL"

def bus : DesiredWire := ⟨none, [.Nats { url_env := some BUS, subject := "new" }], [], [], []⟩

def bus_text : String :=
  "[[notifiers]]\ntype = \"nats\"\ntags = []\nurl = \"\"\nurl_env = \"" ++ BUS ++
    "\"\nsubject = \"new\"\n"

def bell : DesiredWire := ⟨none, [.Kafka { brokers := ["k"], topic := "t" }], [], [], []⟩

def bell_text : String :=
  "[[notifiers]]\ntype = \"kafka\"\ntags = []\nbrokers = [\"k\"]\ntopic = \"t\"\n"

/-- A server for one document, where these texts are known. -/
def bench (docs : List (DesiredFormat × DesiredWire × String)) : Server where
  setup :=
    { codec := Codec.samples docs
      env := fun _ => none
      files := {}
      sha256 := id }
  makers := ⟨⟨fun _ => none, fun _ => .error "no schedule"⟩, ⟨fun _ => none, fun _ => none⟩,
    fun _ => .ok ()⟩
  order := id
  sealable := true
  validate_full := fun _ _ => ⟨true, [], []⟩
  bootstrap :=
    { database := { postgres_url := "postgres://db" }
      config_api := { api_config := true, source := .Api } }

def bus_config : Config :=
  merge_bootstrap_over_desired (bench []).bootstrap bus.document

/-- The sink runs, with its URL out of the secret store. -/
def bus_process : Process where
  secrets :=
    { vault := set_name (fun _ => none) BUS (some "nats://u:p@one")
      app_secret := set_name (fun _ => none) BUS (some "nats://u:p@one") }
  ledger := [{ id := 1, content := bus_text, content_sha256 := bus_text, status := .Applied }]
  effective := bus_config
  sinks := [⟨.Nats { url := "nats://u:p@one", subject := "new" }, []⟩]
  watches := []

/-- The document without the sink is not recorded, the runtime goes back to the one with it, and
its URL is gone. -/
theorem a_failed_append_loses_a_secret :
    ¬ AtomicOnError (bench [(.Toml, bell, bell_text)]) { insert := some "connection closed" }
      bus_process .Whole bell_text none := by
  intro h
  have hfails : (apply_document (bench [(.Toml, bell, bell_text)])
      { insert := some "connection closed" } bus_process .Whole bell_text none).1 =
      .error (.Failed "recording config revision: connection closed") := by
    decide +kernel
  have hstate := congrFun (h _ hfails).secrets BUS
  have hlost : (apply_document (bench [(.Toml, bell, bell_text)])
      { insert := some "connection closed" } bus_process .Whole bell_text none).2.secrets.app_secret
      BUS = none := by
    decide +kernel
  rw [hlost] at hstate
  exact absurd hstate (by decide +kernel)

end xrelease.atomic
