-- Overrides out of the process environment and the ledger: an organization's body is the author's
-- document, whatever the environment; a whole document is merged under the environment first, and
-- the one override that reaches its own sections is recorded with it.
import Xrelease.Bootable
import Xrelease.Reapplied

namespace xrelease.overrides

open xrelease.config xrelease.config_apply xrelease.outcomes xrelease.atomic xrelease.bootable
  xrelease.reapplied xrelease.composed text keyed.Table keyed.Sorted

/-! ## What the author wrote -/

/-- The submitted document with its redacted secrets restored and its inline secrets turned into
references; nothing here reads the environment. -/
inductive Authored (server : Server) (process : Process) (raw : String)
    (hint : Option DesiredFormat) : ApplyScope → Config → Prop where
  | whole (parsed : Config)
      (parses : parse_desired_document_with_hint server.setup.codec raw hint = .ok parsed)
      (desired : ensure_desired_only parsed = .ok ()) :
      Authored server process raw hint .Whole
        (normalize_secrets_to_refs server.order
          (desired_state_for_ledger (restore_redacted_secrets process.effective parsed)) none).1
  | organization (organization : String) (parsed : Config) (org : OrganizationConfig)
      (previous_raw : String) (desired_source : DesiredSource)
      (parses : parse_desired_document_with_hint server.setup.codec raw hint = .ok parsed)
      (desired : ensure_desired_only parsed = .ok ())
      (stated : has_desired_state parsed = true)
      (found : find_organization server.bootstrap organization = .ok org)
      (previous : organization_desired_raw server.setup.files process.ledger server.bootstrap org =
        .ok (previous_raw, desired_source)) :
      Authored server process raw hint (.Organization organization)
        (normalize_secrets_to_refs server.order (restored_from server previous_raw parsed)
          (some organization)).1

/-- The body of the author's document; a text that is no document has the body that rejected texts
are recorded with. -/
def AuthorsBody (server : Server) (process : Process) (scope : ApplyScope) (raw : String)
    (hint : Option DesiredFormat) (body : String) : Prop :=
  (∃ document, Authored server process raw hint scope document ∧
    serialize_desired_only_strict server.setup.codec (hint.getD (detect_desired_format raw))
      document = .ok body) ∨
  (∀ document, ¬ Authored server process raw hint scope document) ∧
    body = (rejected_ledger_body server raw scope.ledger_stream).1

variable {server : Server} {process process' : Process} {raw : String} {hint : Option DesiredFormat}
  {scope : ApplyScope} {faults : Faults} {candidate : ScopedCandidate}

theorem authored_unique {document document' : Config}
    (h : Authored server process raw hint scope document)
    (h' : Authored server process raw hint scope document') : document = document' := by
  cases h with
  | whole parsed parses desired =>
    cases h' with
    | whole parsed' parses' desired' =>
      obtain rfl := Except.ok.inj (parses.symm.trans parses')
      rfl
  | organization organization parsed org previous_raw desired_source parses desired stated found
      previous =>
    cases h' with
    | organization _ parsed' org' previous_raw' desired_source' parses' desired' stated' found'
        previous' =>
      obtain rfl := Except.ok.inj (parses.symm.trans parses')
      obtain rfl := Except.ok.inj (found.symm.trans found')
      obtain ⟨rfl, rfl⟩ := Prod.mk.inj (Except.ok.inj (previous.symm.trans previous'))
      rfl

theorem authors_body_unique {body body' : String}
    (h : AuthorsBody server process scope raw hint body)
    (h' : AuthorsBody server process scope raw hint body') : body = body' := by
  rcases h with ⟨document, hd, hs⟩ | ⟨hnone, rfl⟩ <;>
    rcases h' with ⟨document', hd', hs'⟩ | ⟨hnone', rfl⟩
  · obtain rfl := authored_unique hd hd'
    exact Except.ok.inj (hs.symm.trans hs')
  · exact absurd hd (hnone' document)
  · exact absurd hd' (hnone document')
  · rfl

/-! ## Two environments -/

/-- The same file, ledger and running entries, under two environments, whichever these are. -/
structure Alike (server server' : Server) (process process' : Process) : Prop where
  codec : server'.setup.codec = server.setup.codec
  files : server'.setup.files = server.setup.files
  sha256 : server'.setup.sha256 = server.setup.sha256
  order : server'.order = server.order
  bootstrap : ∃ file, load_bootstrap server.setup.env file = .ok server.bootstrap ∧
    load_bootstrap server'.setup.env file = .ok server'.bootstrap
  ledger : process'.ledger = process.ledger
  sources : process'.effective.sources = process.effective.sources
  notifiers : process'.effective.notifiers = process.effective.notifiers

theorem Alike.symm {server' : Server} (h : Alike server server' process process') :
    Alike server' server process' process := by
  obtain ⟨file, hfile, hfile'⟩ := h.bootstrap
  exact ⟨h.codec.symm, h.files.symm, h.sha256.symm, h.order.symm, ⟨file, hfile', hfile⟩,
    h.ledger.symm, h.sources.symm, h.notifiers.symm⟩

theorem load_bootstrap_keeps {env : Env} {file bootstrap : Config}
    (h : load_bootstrap env file = .ok bootstrap) :
    bootstrap.organizations = file.organizations ∧
      bootstrap.config_api.ledger_is_bootable = file.config_api.ledger_is_bootable := by
  unfold load_bootstrap at h
  split at h
  · simp at h
  · rw [← Except.ok.inj h]
    exact ⟨rfl, rfl⟩

/-- No variable changes the catalogue, or where an organization's authority is. -/
theorem Alike.catalogue {server' : Server} (h : Alike server server' process process') :
    server'.bootstrap.organizations = server.bootstrap.organizations ∧
      server'.bootstrap.config_api.ledger_is_bootable =
        server.bootstrap.config_api.ledger_is_bootable := by
  obtain ⟨file, hfile, hfile'⟩ := h.bootstrap
  obtain ⟨h1, h2⟩ := load_bootstrap_keeps hfile
  obtain ⟨h1', h2'⟩ := load_bootstrap_keeps hfile'
  exact ⟨h1'.trans h1.symm, h2'.trans h2.symm⟩

theorem Alike.authored {server' : Server} (h : Alike server server' process process')
    {document : Config} (hd : Authored server process raw hint scope document) :
    Authored server' process' raw hint scope document := by
  obtain ⟨horgs, hbootable⟩ := h.catalogue
  cases hd with
  | whole parsed parses desired =>
    have hrestore : restore_redacted_secrets process.effective parsed =
        restore_redacted_secrets process'.effective parsed := by
      unfold restore_redacted_secrets
      rw [h.sources, h.notifiers]
    rw [hrestore, ← h.order]
    exact .whole parsed (by rw [h.codec]; exact parses) desired
  | organization organization parsed org previous_raw desired_source parses desired stated found
      previous =>
    have hrestored : restored_from server previous_raw parsed =
        restored_from server' previous_raw parsed := by
      unfold restored_from
      rw [h.codec]
    rw [hrestored, ← h.order]
    refine .organization organization parsed org previous_raw desired_source
      (by rw [h.codec]; exact parses) desired stated ?_ ?_
    · unfold find_organization at found ⊢
      rw [horgs]
      exact found
    · unfold organization_desired_raw at previous ⊢
      rw [h.files, h.ledger, hbootable]
      exact previous

theorem Alike.authors_body {server' : Server} (h : Alike server server' process process')
    {body : String} (hbody : AuthorsBody server process scope raw hint body) :
    AuthorsBody server' process' scope raw hint body := by
  rcases hbody with ⟨document, hd, hs⟩ | ⟨hnone, rfl⟩
  · exact Or.inl ⟨document, h.authored hd, by rw [h.codec]; exact hs⟩
  · refine Or.inr ⟨fun document hd => hnone document (h.symm.authored hd), ?_⟩
    unfold rejected_ledger_body normalize_document_for_storage
    rw [h.codec, h.order, h.sha256]

/-! ## What a call appends -/

/-- The call appends this row to the ledger. -/
def Appends (server : Server) (faults : Faults) (process : Process) (scope : ApplyScope)
    (raw : String) (hint : Option DesiredFormat) (row : ConfigRevision) : Prop :=
  (apply_document server faults process scope raw hint).2.ledger = process.ledger ++ [row]

/-- The candidate does not validate and is recorded as rejected. -/
structure Declines (server : Server) (faults : Faults) (process : Process) (scope : ApplyScope)
    (raw : String) (hint : Option DesiredFormat) (candidate : ScopedCandidate) : Prop where
  latest : faults.latest = none
  pushed : ¬ IsCurrent process scope (server.setup.sha256 raw)
  resolved : resolve_scoped_candidate server faults process scope raw hint = .ok candidate
  rotates : IsCurrent process scope candidate.ledger_sha →
    effective_secret_rotations process.secrets.vault candidate.secret_writes ≠ []
  invalid : (server.validate_full process.secrets.vault candidate.merged).valid = false
  inserts : faults.insert = none

/-- The candidate is recorded, as applied or as rejected. -/
def Books (server : Server) (faults : Faults) (process : Process) (scope : ApplyScope)
    (raw : String) (hint : Option DesiredFormat) (candidate : ScopedCandidate) : Prop :=
  Records server faults process scope raw hint candidate ∨
    Declines server faults process scope raw hint candidate

theorem Books.resolved (h : Books server faults process scope raw hint candidate) :
    resolve_scoped_candidate server faults process scope raw hint = .ok candidate := by
  rcases h with h | h
  · exact h.reached.resolved
  · exact h.resolved

/-- What a call leaves of the ledger that does not get as far as its secrets. -/
inductive Unreached (server : Server) (faults : Faults) (process : Process) (scope : ApplyScope)
    (raw : String) (hint : Option DesiredFormat) : List ConfigRevision → Prop where
  | declined (candidate : ScopedCandidate) (row : ConfigRevision)
      (declines : Declines server faults process scope raw hint candidate)
      (content : row.content = candidate.ledger_raw) (status : row.status = .Rejected) :
      Unreached server faults process scope raw hint (process.ledger ++ [row])
  | refused (err : String) (row : ConfigRevision)
      (refuses : resolve_scoped_candidate server faults process scope raw hint =
        .error (.DocumentRejected err))
      (content : row.content = (rejected_ledger_body server raw scope.ledger_stream).1)
      (status : row.status = .Rejected) :
      Unreached server faults process scope raw hint (process.ledger ++ [row])
  | nothing (undeclined : ∀ candidate,
        ¬ Declines server faults process scope raw hint candidate) :
      Unreached server faults process scope raw hint process.ledger

theorem unreached_of_invalid
    (h : faults.insert = none → Declines server faults process scope raw hint candidate) :
    Unreached server faults process scope raw hint (reject_invalid faults process scope candidate
      (server.validate_full process.secrets.vault candidate.merged)).2.ledger := by
  unfold reject_invalid record_attempt
  cases hinsert : faults.insert with
  | some fault => exact .nothing fun c hc => by simp [hc.inserts] at hinsert
  | none => exact .declined candidate _ (h hinsert) rfl rfl

theorem unreached_of_error {error : ApplyError}
    (h : resolve_scoped_candidate server faults process scope raw hint = .error error) :
    Unreached server faults process scope raw hint
      (reject_document server faults process scope raw error).2.ledger := by
  have hnone : ∀ c, ¬ Declines server faults process scope raw hint c :=
    fun c hc => by simp [hc.resolved] at h
  unfold reject_document record_attempt
  cases error with
  | DocumentRejected err =>
    cases faults.insert with
    | some fault => exact .nothing hnone
    | none => exact .refused err _ h rfl rfl
  | _ => exact .nothing hnone

theorem unreached_ledger
    (h : ∀ candidate, ¬ Reaches server faults process scope raw hint candidate) :
    Unreached server faults process scope raw hint
      (apply_document server faults process scope raw hint).2.ledger := by
  unfold apply_document
  cases hlatest : faults.latest with
  | some err => exact .nothing fun c hc => by simp [hc.latest] at hlatest
  | none =>
    simp only
    rcases current_filter process scope (server.setup.sha256 raw) with
      ⟨hpushed, current, hcurrent⟩ | ⟨hpushed, hcurrent⟩
    · rw [hcurrent]
      exact .nothing fun c hc => hc.pushed hpushed
    · rw [hcurrent]
      simp only
      cases hresolved : resolve_scoped_candidate server faults process scope raw hint with
      | error error => exact unreached_of_error hresolved
      | ok candidate =>
        simp only
        have hinvalid : (IsCurrent process scope candidate.ledger_sha →
            effective_secret_rotations process.secrets.vault candidate.secret_writes ≠ []) →
            (server.validate_full process.secrets.vault candidate.merged).valid = false := by
          intro hrotates
          by_contra hvalid
          exact h candidate ⟨hlatest, hpushed, hresolved, hrotates, by simpa using hvalid⟩
        rcases current_filter process scope candidate.ledger_sha with
          ⟨hnews, current, hcurrent'⟩ | ⟨hnews, hcurrent'⟩
        · rw [hcurrent']
          simp only
          by_cases hrotations :
              effective_secret_rotations process.secrets.vault candidate.secret_writes = []
          · rw [if_pos hrotations]
            refine .nothing fun c hc => ?_
            obtain rfl := Except.ok.inj (hc.resolved.symm.trans hresolved)
            exact hc.rotates hnews hrotations
          · rw [if_neg hrotations, if_pos (hinvalid fun _ => hrotations)]
            exact unreached_of_invalid fun hinsert => ⟨hlatest, hpushed, hresolved,
              fun _ => hrotations, hinvalid fun _ => hrotations, hinsert⟩
        · rw [hcurrent']
          simp only
          rw [if_pos (hinvalid fun hc => absurd hc hnews)]
          exact unreached_of_invalid fun hinsert => ⟨hlatest, hpushed, hresolved,
            fun hc => absurd hc hnews, hinvalid fun hc => absurd hc hnews, hinsert⟩

/-- A call that gets as far as its secrets records its candidate, or nothing. -/
theorem reached_ledger {answer : Except ApplyError ApplyResponse}
    (hr : Reaches server faults process scope raw hint candidate)
    (h : Outcome server faults process scope raw hint answer process') :
    process'.ledger = process.ledger ∨
      Records server faults process scope raw hint candidate ∧
        process'.ledger = process.ledger ++ [applied_row faults process scope candidate] := by
  cases h with
  | refused err rows unreached rejected => exact absurd hr (unreached candidate)
  | unchanged response applied unreached => exact absurd hr (unreached candidate)
  | not_sealed | not_pruned | rotated => exact Or.inl rfl
  | not_swapped _ _ _ _ kept_eq => exact Or.inl (by rw [kept_eq])
  | swapped_back _ _ _ kept swapped back kept_eq reached news seals prunes swaps unrecorded
      swaps_back =>
    left
    rw [(apply_runtime_keeps swaps_back).2.1, (apply_runtime_keeps swaps).2.1, kept_eq]
  | stuck _ _ _ kept swapped kept_eq reached news seals prunes swaps =>
    left
    rw [(apply_runtime_keeps swaps).2.1, kept_eq]
  | recorded c stale response kept swapped kept_eq reached news seals prunes swaps inserts =>
    right
    obtain rfl := reaches_unique hr reached
    subst kept_eq
    refine ⟨⟨reached, news, seals, ⟨stale, swapped, prunes, swaps⟩, inserts⟩, ?_⟩
    simp only [(apply_runtime_keeps swaps).2.1]

/-- A row that is appended is a recorded candidate, or an invalid one, or stands for a text that
is no document. -/
theorem appends_cases {row : ConfigRevision}
    (h : Appends server faults process scope raw hint row) :
    (∃ candidate, Records server faults process scope raw hint candidate ∧
        row = applied_row faults process scope candidate) ∨
      (∃ candidate, Declines server faults process scope raw hint candidate ∧
        row.content = candidate.ledger_raw ∧ row.status = .Rejected) ∨
      ∃ err, resolve_scoped_candidate server faults process scope raw hint =
          .error (.DocumentRejected err) ∧
        row.content = (rejected_ledger_body server raw scope.ledger_stream).1 ∧
        row.status = .Rejected := by
  unfold Appends at h
  by_cases hr : ∃ candidate, Reaches server faults process scope raw hint candidate
  · obtain ⟨candidate, hr⟩ := hr
    rcases reached_ledger hr (apply_outcome server faults process scope raw hint) with
      hsame | ⟨hrecords, hledger⟩
    · rw [hsame] at h
      simp at h
    · rw [hledger] at h
      exact Or.inl ⟨candidate, hrecords, by simpa using h.symm⟩
  · rw [not_exists] at hr
    have hleft := unreached_ledger hr
    generalize (apply_document server faults process scope raw hint).2.ledger = ledger at h hleft
    cases hleft with
    | declined candidate row' declines content status =>
      obtain rfl : row' = row := by simpa using h
      exact Or.inr (Or.inl ⟨candidate, declines, content, status⟩)
    | refused err row' refuses content status =>
      obtain rfl : row' = row := by simpa using h
      exact Or.inr (Or.inr ⟨err, refuses, content, status⟩)
    | nothing undeclined => simp at h

theorem appends_of_books (h : Books server faults process scope raw hint candidate) :
    ∃ row, Appends server faults process scope raw hint row ∧
      row.content = candidate.ledger_raw := by
  unfold Appends
  rcases h with h | h
  · rcases recorded_of_ok (apply_outcome server faults process scope raw hint) with
      ⟨c, response, hrecords, -, -, hledger⟩ | ⟨hnone, -⟩
    · obtain rfl := reaches_unique h.reached hrecords.reached
      exact ⟨_, hledger, rfl⟩
    · exact absurd h (hnone candidate)
  · have hsame : ∀ c, resolve_scoped_candidate server faults process scope raw hint = .ok c →
        c = candidate := fun c hc => Except.ok.inj (hc.symm.trans h.resolved)
    have hun : ∀ c, ¬ Reaches server faults process scope raw hint c := by
      intro c hc
      obtain rfl := hsame c hc.resolved
      exact absurd hc.valid (by simp [h.invalid])
    have hleft := unreached_ledger hun
    generalize (apply_document server faults process scope raw hint).2.ledger = ledger at hleft
    cases hleft with
    | declined c row declines content status =>
      obtain rfl := hsame c declines.resolved
      exact ⟨row, rfl, content⟩
    | refused err row refuses => simp [h.resolved] at refuses
    | nothing undeclined => exact absurd h (undeclined candidate)

/-! ## The body of a candidate -/

theorem bind_error_iff {ε α β : Type} (x : Except ε α) (f : α → Except ε β) (err : ε) :
    x >>= f = .error err ↔ x = .error err ∨ ∃ a, x = .ok a ∧ f a = .error err := by
  cases x <;> simp [bind, Except.bind]

theorem failing_not_rejected {α : Type} (x : Except String α) (err : String) :
    failing x ≠ .error (.DocumentRejected err) := by
  cases x <;> simp [failing]

theorem refusing_not_rejected (fault : Option String) (err : String) :
    refusing fault ≠ .error (.DocumentRejected err) := by
  cases fault <;> simp [refusing]

/-- An author's document is not refused as no document. -/
theorem authored_not_refused {document : Config}
    (h : Authored server process raw hint scope document) (faults : Faults) (err : String) :
    resolve_scoped_candidate server faults process scope raw hint ≠
      .error (.DocumentRejected err) := by
  intro hr
  unfold resolve_scoped_candidate at hr
  cases h with
  | whole parsed parses desired =>
    have hmerge : ∃ merged, rejecting (merge_pushed_document server.setup.codec server.setup.env
        server.bootstrap raw hint) = .ok merged := by
      simp [merge_pushed_document, parses, desired, rejecting, bind, Except.bind, pure,
        Except.pure]
    obtain ⟨merged, hmerge⟩ := hmerge
    simp only [hmerge, bind_error_iff] at hr
    rcases hr with hr | ⟨_, -, hr | ⟨_, -, hr⟩⟩
    · simp at hr
    · exact failing_not_rejected _ _ hr
    · simp [pure, Except.pure] at hr
  | organization organization parsed org previous_raw desired_source parses desired stated found
      previous =>
    have hrestore : ∀ err, restore_org_candidate server faults process organization raw hint ≠
        .error (.DocumentRejected err) := by
      intro err hr
      unfold restore_org_candidate at hr
      simp only [bind_error_iff] at hr
      rcases hr with hr | ⟨candidate, hcandidate, hr | ⟨_, -, hr⟩⟩
      · simp [parses, rejecting] at hr
      · obtain rfl := Except.ok.inj (parses.symm.trans ((rejecting_ok_iff _ _).mp hcandidate))
        simp [desired, rejecting] at hr
      · obtain rfl := Except.ok.inj (parses.symm.trans ((rejecting_ok_iff _ _).mp hcandidate))
        rw [if_neg (by simp [stated])] at hr
        simp only [bind_error_iff] at hr
        rcases hr with hr | ⟨_, -, hr | ⟨_, -, hr | ⟨_, -, hr | ⟨_, -, hr⟩⟩⟩⟩
        · simp [found] at hr
        · exact refusing_not_rejected _ _ hr
        · exact failing_not_rejected _ _ hr
        · exact failing_not_rejected _ _ hr
        · simp [pure, Except.pure] at hr
    simp only [bind_error_iff] at hr
    rcases hr with hr | ⟨_, -, hr | ⟨_, -, hr | ⟨_, -, hr | ⟨_, -, hr⟩⟩⟩⟩
    · exact hrestore err hr
    · exact failing_not_rejected _ _ hr
    · exact refusing_not_rejected _ _ hr
    · exact failing_not_rejected _ _ hr
    · simp [pure, Except.pure] at hr

/-- An organization's candidate comes from a document with desired state in it. -/
theorem resolved_stated {organization : String} {parsed : Config}
    (hparsed : parse_desired_document_with_hint server.setup.codec raw hint = .ok parsed)
    (h : resolve_scoped_candidate server faults process (.Organization organization) raw hint =
      .ok candidate) : has_desired_state parsed = true := by
  unfold resolve_scoped_candidate at h
  simp only [bind_ok_iff] at h
  obtain ⟨restored, hrestored, -⟩ := h
  unfold restore_org_candidate at hrestored
  simp only [bind_ok_iff, rejecting_ok_iff] at hrestored
  obtain ⟨parsed', hparsed', -, -, hrestored⟩ := hrestored
  obtain rfl := Except.ok.inj (hparsed.symm.trans hparsed')
  split at hrestored
  · simp at hrestored
  · rename_i hstated
    simpa using hstated

/-- The environment leaves the limit that a whole document asks for; an organization's document is
recorded as it is. -/
def LeavesLimit (server : Server) (scope : ApplyScope) (raw : String)
    (hint : Option DesiredFormat) : Prop :=
  scope = .Whole → ∀ parsed,
    parse_desired_document_with_hint server.setup.codec raw hint = .ok parsed →
    override_defaults server.setup.env parsed.defaults = parsed.defaults

/-- The merge of a whole document is the author's document but for the limit. -/
theorem whole_document (server : Server) (process : Process) (parsed : Config) :
    (normalize_secrets_to_refs server.order (whole_desired server process parsed) none).1 =
      { (normalize_secrets_to_refs server.order
          (desired_state_for_ledger (restore_redacted_secrets process.effective parsed)) none).1 with
        defaults := override_defaults server.setup.env parsed.defaults } := rfl

/-- The body of a candidate is the author's exactly where the environment leaves the limit. -/
theorem candidate_body (hcodec : server.setup.codec.Faithful)
    (h : resolve_scoped_candidate server faults process scope raw hint = .ok candidate) :
    AuthorsBody server process scope raw hint candidate.ledger_raw ↔
      LeavesLimit server scope raw hint := by
  cases scope with
  | Whole =>
    obtain ⟨parsed, desired, hparsed, hensure, hdesired, hbody, -⟩ := resolved_whole h
    have hd : Authored server process raw hint .Whole _ := .whole parsed hparsed hensure
    rw [whole_document] at hdesired
    constructor
    · rintro (⟨document, hdoc, hs⟩ | ⟨hnone, -⟩)
      · obtain rfl := authored_unique hd hdoc
        rintro - parsed' hparsed'
        obtain rfl := Except.ok.inj (hparsed.symm.trans hparsed')
        have hsame := (serialize_eq_iff hcodec hs).mp (hbody.trans hs.symm)
        rw [hdesired] at hsame
        exact congrArg Config.defaults hsame
      · exact absurd hd (hnone _)
    · intro hleaves
      refine Or.inl ⟨_, hd, ?_⟩
      rw [hdesired, hleaves rfl parsed hparsed] at hbody
      exact hbody
  | Organization organization =>
    obtain ⟨parsed, org, previous_raw, desired_source, desired, composed, hparsed, hensure, horg,
      hprevious, hdesired, hbody, -⟩ := resolved_organization h
    refine ⟨fun _ hwhole => by simp at hwhole, fun _ => Or.inl ⟨desired, ?_, hbody⟩⟩
    rw [hdesired]
    exact .organization organization parsed org previous_raw desired_source hparsed hensure
      (resolved_stated hparsed h) horg hprevious

/-! ## Falling back -/

/-- The limits that are asked for so far are none, or positive. -/
def Positive (st : Composing) : Prop := ∀ rpm, st.strictest_rpm = some rpm → 0 < rpm

/-- The limit of what is composed so far is at most this. -/
def Capped (cap : Nat) (st : Composing) : Prop := ∃ rpm, st.strictest_rpm = some rpm ∧ rpm ≤ cap

theorem stated_of_limit {config : Config}
    (h : 0 < config.defaults.upstream_requests_per_minute) : has_desired_state config = true := by
  rw [has_desired_state_iff]
  refine Or.inr (Or.inr (Or.inr (Or.inr fun hnone => ?_)))
  rw [hnone] at h
  exact absurd h (Nat.lt_irrefl 0)

theorem join_positive {st : Composing} (h : Positive st) (id raw : String)
    (desired_source : DesiredSource) (desired : Config) :
    Positive (join_organization st id raw desired_source desired) := by
  unfold Positive join_organization
  dsimp only
  split
  · rename_i hrpm
    cases hst : st.strictest_rpm with
    | none =>
      rintro rpm ⟨⟩
      exact hrpm.2
    | some current =>
      rintro rpm ⟨⟩
      exact Nat.lt_min.mpr ⟨h current hst, hrpm.2⟩
  · exact h

/-- A document keeps the limit down, and brings it down to its own. -/
theorem join_capped {cap : Nat} (st : Composing) (id raw : String) (desired_source : DesiredSource)
    (desired : Config)
    (h : Capped cap st ∨ 0 < desired.defaults.upstream_requests_per_minute ∧
      desired.defaults.upstream_requests_per_minute = cap) :
    Capped cap (join_organization st id raw desired_source desired) := by
  unfold Capped join_organization
  dsimp only
  split
  · refine ⟨_, rfl, ?_⟩
    rcases h with ⟨rpm, hsome, hle⟩ | ⟨-, hcap⟩
    · rw [hsome]
      exact (Nat.min_le_left _ _).trans hle
    · cases st.strictest_rpm with
      | none => exact hcap.le
      | some current => exact (Nat.min_le_right _ _).trans hcap.le
  · rename_i hrpm
    rcases h with h | ⟨hpos, -⟩
    · exact h
    · exact absurd ⟨stated_of_limit hpos, hpos⟩ hrpm

theorem fold_capped {setup : Setup} {ledger : List ConfigRevision} {bootstrap : Config}
    {cap : Nat} {orgs : List OrganizationConfig} {st st' : Composing} (hpos : Positive st)
    (h : Capped cap st ∨ ∃ org ∈ orgs, ∀ doc,
      document_of setup ledger bootstrap none org = .ok doc →
        0 < doc.2.defaults.upstream_requests_per_minute ∧
        doc.2.defaults.upstream_requests_per_minute = cap)
    (hfold : orgs.foldlM (compose_one setup ledger bootstrap none) st = .ok st') :
    Positive st' ∧ Capped cap st' := by
  induction orgs generalizing st with
  | nil =>
    obtain rfl := Except.ok.inj hfold
    rcases h with h | ⟨org, horg, -⟩
    · exact ⟨hpos, h⟩
    · simp at horg
  | cons org rest ih =>
    rw [List.foldlM_cons] at hfold
    cases hone : compose_one setup ledger bootstrap none st org with
    | error err => simp [hone, bind, Except.bind] at hfold
    | ok next =>
      simp only [hone, bind, Except.bind] at hfold
      obtain ⟨-, -, raw, desired_source, desired, used, hdoc, rfl⟩ := compose_one_ok hone
      refine ih (join_positive (by exact hpos) _ _ _ _) ?_ hfold
      rcases h with h | ⟨org', horg, hdocs⟩
      · exact Or.inl (join_capped _ _ _ _ _ (Or.inl h))
      · rcases List.mem_cons.mp horg with rfl | hrest
        · exact Or.inl (join_capped _ _ _ _ _ (Or.inr (hdocs _ hdoc)))
        · exact Or.inr ⟨org', hrest, hdocs⟩

theorem map_ok {ε α β : Type} {x : Except ε α} {f : α → β} {b : β} (h : x.map f = .ok b) :
    ∃ a, x = .ok a ∧ b = f a := by
  cases x with
  | error err => simp [Except.map] at h
  | ok a => exact ⟨a, rfl, (Except.ok.inj h).symm⟩

/-- A document in the composition that asks for a limit brings it down to its own. -/
theorem composed_capped {setup : Setup} {ledger : List ConfigRevision} {bootstrap : Config}
    {composed : ComposedOrganizations} {org : OrganizationConfig} {cap : Nat}
    (h : compose_organizations setup ledger bootstrap none = .ok composed)
    (hmem : org ∈ bootstrap.organizations)
    (hdoc : ∀ doc, document_of setup ledger bootstrap none org = .ok doc →
      0 < doc.2.defaults.upstream_requests_per_minute ∧
      doc.2.defaults.upstream_requests_per_minute = cap) :
    0 < composed.merged.defaults.upstream_requests_per_minute ∧
      composed.merged.defaults.upstream_requests_per_minute ≤ cap := by
  unfold compose_organizations at h
  rw [bind_ok_iff] at h
  obtain ⟨st, hfold, h⟩ := h
  have hstart : Positive { override_used := (none : Option (String × String)).isNone } := by
    rintro rpm ⟨⟩
  obtain ⟨hpos, rpm, hsome, hle⟩ := fold_capped hstart (Or.inr ⟨org, hmem, hdoc⟩) hfold
  split at h
  · simp at h
  · simp only at h
    split at h
    · simp at h
    · obtain rfl := Except.ok.inj h
      simp only [merge_bootstrap_over_desired, with_strictest, hsome, Option.getD_some]
      exact ⟨hpos rpm hsome, hle⟩

/-- The author's limit runs: as it is for a whole instance, and among the limits of the
organizations, of which the strictest runs, for one of these. -/
def RunsAuthorsLimit (scope : ApplyScope) (organizations : List OrganizationConfig)
    (limit running : Nat) : Prop :=
  match scope with
  | .Whole => organizations = [] → running = limit
  | .Organization _ => 0 < limit → 0 < running ∧ running ≤ limit

/-- Once no variable sets the limit, what boots from the ledger that the call leaves runs the
author's. -/
def FallsBack (server : Server) (faults : Faults) (process : Process) (scope : ApplyScope)
    (raw : String) (hint : Option DesiredFormat) : Prop :=
  ∀ row, Appends server faults process scope raw hint row → row.status = .Applied →
    ∀ (setup : Setup) (bootstrap config parsed : Config), setup.codec = server.setup.codec →
      setup.env "XRELEASE_UPSTREAM_RPM" = none →
      bootstrap.organizations = server.bootstrap.organizations →
      bootstrap.config_api.ledger_is_bootable = true →
      parse_desired_document_with_hint server.setup.codec raw hint = .ok parsed →
      resolve setup (process.ledger ++ [row]) bootstrap = .ok config →
      RunsAuthorsLimit scope bootstrap.organizations parsed.defaults.upstream_requests_per_minute
        config.defaults.upstream_requests_per_minute

theorem appends_body (hcodec : server.setup.codec.Faithful)
    (hleaves : ∀ candidate, Books server faults process scope raw hint candidate →
      LeavesLimit server scope raw hint) {row : ConfigRevision}
    (h : Appends server faults process scope raw hint row) :
    AuthorsBody server process scope raw hint row.content := by
  rcases appends_cases h with ⟨candidate, hc, rfl⟩ | ⟨candidate, hc, hcontent, -⟩ |
    ⟨err, hrefuses, hcontent, -⟩
  · exact (candidate_body hcodec hc.reached.resolved).mpr (hleaves candidate (Or.inl hc))
  · rw [hcontent]
    exact (candidate_body hcodec hc.resolved).mpr (hleaves candidate (Or.inr hc))
  · exact Or.inr ⟨fun document hd => authored_not_refused hd faults err hrefuses, hcontent⟩

theorem override_defaults_unset {env : Env} (h : env "XRELEASE_UPSTREAM_RPM" = none)
    (defaults : Defaults) : override_defaults env defaults = defaults := by
  unfold override_defaults
  rw [h]
  rfl

/-- An author's document has the author's defaults. -/
theorem authored_defaults {document parsed : Config}
    (h : Authored server process raw hint scope document)
    (hparsed : parse_desired_document_with_hint server.setup.codec raw hint = .ok parsed) :
    document.defaults = parsed.defaults := by
  cases h with
  | whole parsed' parses =>
    obtain rfl := Except.ok.inj (hparsed.symm.trans parses)
    rfl
  | organization organization parsed' org previous_raw desired_source parses =>
    obtain rfl := Except.ok.inj (hparsed.symm.trans parses)
    refine (normalize_keeps _ _ _).1.trans ?_
    unfold restored_from
    split <;> rfl

theorem resolved_authored
    (h : resolve_scoped_candidate server faults process scope raw hint = .ok candidate) :
    ∃ document, Authored server process raw hint scope document := by
  cases scope with
  | Whole =>
    obtain ⟨parsed, -, hparsed, hensure, -⟩ := resolved_whole h
    exact ⟨_, .whole parsed hparsed hensure⟩
  | Organization organization =>
    obtain ⟨parsed, org, previous_raw, desired_source, -, -, hparsed, hensure, horg, hprevious, -⟩ :=
      resolved_organization h
    exact ⟨_, .organization organization parsed org previous_raw desired_source hparsed hensure
      (resolved_stated hparsed h) horg hprevious⟩

/-- What boots from a recorded body that is the author's runs the author's limit. -/
theorem falls_back (hcodec : server.setup.codec.Faithful)
    (hbody : ∀ row, Appends server faults process scope raw hint row →
      AuthorsBody server process scope raw hint row.content) :
    FallsBack server faults process scope raw hint := by
  intro row hrow hstatus setup bootstrap config parsed hsame hunset horgs hbootable hparsed hresolve
  rcases appends_cases hrow with ⟨candidate, hc, rfl⟩ | ⟨-, -, -, hrejected⟩ | ⟨-, -, -, hrejected⟩
  · have hresolved := hc.reached.resolved
    obtain ⟨document, hd⟩ := resolved_authored hresolved
    rcases hbody _ hrow with ⟨document', hd', hs⟩ | ⟨hnone, -⟩
    · obtain rfl := authored_unique hd hd'
      rw [← hsame] at hs hcodec
      have hread : ∀ desired, parse_desired_document setup.codec
          (applied_row faults process scope candidate).content = .ok desired →
          (apply_env_overrides setup.env desired).defaults = parsed.defaults := by
        intro desired hdesired
        obtain ⟨-, rfl⟩ := (parse_serialized hcodec hs none desired).mp hdesired
        exact (override_defaults_unset hunset document.defaults).trans
          (authored_defaults hd hparsed)
      have hlatest := latest_applied_row faults process scope candidate process.ledger
      unfold resolve at hresolve
      cases scope with
      | Whole =>
        intro hmode
        rw [hmode] at hresolve
        simp only [ApplyScope.ledger_stream] at hlatest
        simp only [ne_eq, not_true_eq_false, if_false, hbootable, if_true, hlatest, bind_ok_iff,
          pure, Except.pure, Except.ok.injEq] at hresolve
        obtain ⟨desired, hdesired, -, -, rfl⟩ := hresolve
        exact congrArg Defaults.upstream_requests_per_minute (hread desired hdesired)
      | Organization organization =>
        intro hpos
        obtain ⟨_, org, _, _, _, _, -, -, hfound, -⟩ := resolved_organization hresolved
        obtain ⟨hmem, rfl⟩ := find_organization_ok hfound
        rw [← horgs] at hmem
        rw [if_pos (List.ne_nil_of_mem hmem)] at hresolve
        obtain ⟨composed, hcomposed, rfl⟩ := map_ok hresolve
        refine composed_capped hcomposed hmem fun doc hdoc => ?_
        unfold document_of chosen_document organization_desired_raw load_organization at hdoc
        simp only [ApplyScope.ledger_stream] at hlatest
        simp only [hbootable, if_true, hlatest, bind_ok_iff, pure, Except.pure,
          Except.ok.injEq] at hdoc
        obtain ⟨_, rfl, _, ⟨desired, hdesired, -, -, hloaded⟩, rfl⟩ := hdoc
        have hlimit := hread desired hdesired
        split at hloaded
        · simp at hloaded
        · obtain rfl := Except.ok.inj hloaded
          rw [hlimit]
          exact ⟨hpos, rfl⟩
    · exact absurd hd (hnone document)
  · exact absurd hstatus (by simp [hrejected])
  · exact absurd hstatus (by simp [hrejected])

/-! ## The law -/

/-- In both environments the row that a call appends has the author's body, so the two have the
same, and the limit falls back to the author's. -/
structure StaysOut (server server' : Server) (faults faults' : Faults)
    (process process' : Process) (scope : ApplyScope) (raw : String)
    (hint : Option DesiredFormat) : Prop where
  authored : ∀ row, Appends server faults process scope raw hint row →
    AuthorsBody server process scope raw hint row.content
  authored' : ∀ row, Appends server' faults' process' scope raw hint row →
    AuthorsBody server' process' scope raw hint row.content
  same : ∀ row row', Appends server faults process scope raw hint row →
    Appends server' faults' process' scope raw hint row' → row.content = row'.content
  falls_back : FallsBack server faults process scope raw hint
  falls_back' : FallsBack server' faults' process' scope raw hint

/-- Overrides stay out of the ledger exactly where, whenever a whole document is recorded, the
environment leaves the limit that the document asks for. -/
theorem overrides_stay_out_where_the_limit_is_left {server server' : Server}
    {process process' : Process} (hcodec : server.setup.codec.Faithful)
    (halike : Alike server server' process process') (faults faults' : Faults)
    (scope : ApplyScope) (raw : String) (hint : Option DesiredFormat) :
    StaysOut server server' faults faults' process process' scope raw hint ↔
      (∀ candidate, Books server faults process scope raw hint candidate →
        LeavesLimit server scope raw hint) ∧
      ∀ candidate, Books server' faults' process' scope raw hint candidate →
        LeavesLimit server' scope raw hint := by
  have hcodec' : server'.setup.codec.Faithful := by
    rw [halike.codec]
    exact hcodec
  constructor
  · intro h
    constructor
    · intro candidate hc
      obtain ⟨row, hrow, hcontent⟩ := appends_of_books hc
      have hbody := h.authored row hrow
      rw [hcontent] at hbody
      exact (candidate_body hcodec hc.resolved).mp hbody
    · intro candidate hc
      obtain ⟨row, hrow, hcontent⟩ := appends_of_books hc
      have hbody := h.authored' row hrow
      rw [hcontent] at hbody
      exact (candidate_body hcodec' hc.resolved).mp hbody
  · rintro ⟨hleaves, hleaves'⟩
    have hbody : ∀ row, Appends server faults process scope raw hint row →
        AuthorsBody server process scope raw hint row.content :=
      fun row hrow => appends_body hcodec hleaves hrow
    have hbody' : ∀ row, Appends server' faults' process' scope raw hint row →
        AuthorsBody server' process' scope raw hint row.content :=
      fun row hrow => appends_body hcodec' hleaves' hrow
    exact
      { authored := hbody
        authored' := hbody'
        same := fun row row' hrow hrow' => authors_body_unique
          (halike.authors_body (hbody row hrow)) (hbody' row' hrow')
        falls_back := falls_back hcodec hbody
        falls_back' := falls_back hcodec' hbody' }

/-! ## A limit out of the environment -/

/-- One team. -/
def crew : DesiredWire := ⟨none, [], [{ tag := "a" }], [], []⟩

def crew_text : String := "[[teams]]\ntag = \"a\"\n"

/-- The team, with a limit of five requests a minute. -/
def slow_crew : DesiredWire :=
  { crew with defaults := some { upstream_requests_per_minute := 5 } }

def slow_crew_text : String := "[defaults]\nupstream_requests_per_minute = 5\n\n" ++ crew_text

/-- A server for both documents, with this limit in its environment. -/
def limited (limit : Option String) : Server :=
  let server := bench [(.Toml, crew, crew_text), (.Toml, slow_crew, slow_crew_text)]
  { server with
    setup := { server.setup with
      env := fun name => if name = "XRELEASE_UPSTREAM_RPM" then limit else none } }

def fresh : Process where
  secrets := ⟨fun _ => none, fun _ => none⟩
  ledger := []
  effective := (bench []).bootstrap
  sinks := []
  watches := []

theorem limited_alike (limit limit' : Option String) :
    Alike (limited limit) (limited limit') fresh fresh where
  codec := rfl
  files := rfl
  sha256 := rfl
  order := rfl
  bootstrap := ⟨(bench []).bootstrap, rfl, rfl⟩
  ledger := rfl
  sources := rfl
  notifiers := rfl

/-- The team is applied under a limit and without one: the first ledger has the limit in it. -/
theorem the_limit_is_recorded :
    ¬ ∀ limit limit', StaysOut (limited limit) (limited limit') {} {} fresh fresh .Whole crew_text
      none := by
  intro h
  have hslow : Appends (limited (some "5")) {} fresh .Whole crew_text none
      { id := 1, content := slow_crew_text, content_sha256 := slow_crew_text,
        status := .Applied } := by
    unfold Appends
    decide +kernel
  have hplain : Appends (limited none) {} fresh .Whole crew_text none
      { id := 1, content := crew_text, content_sha256 := crew_text, status := .Applied } := by
    unfold Appends
    decide +kernel
  have hsame := (h (some "5") none).same _ _ hslow hplain
  exact absurd hsame (by decide +kernel)

theorem overrides_stay_out_where_the_limit_is_left_here :
    StaysOut (limited (some "5")) (limited none) {} {} fresh fresh .Whole slow_crew_text none := by
  have hcodec : (limited (some "5")).setup.codec.Faithful :=
    Codec.samples_faithful (by decide +kernel)
  refine (overrides_stay_out_where_the_limit_is_left hcodec (limited_alike _ _) {} {} .Whole
    slow_crew_text none).mpr ⟨fun _ _ _ parsed hparsed => ?_, fun _ _ _ parsed hparsed => ?_⟩
  · have hread : parse_desired_document_with_hint (limited (some "5")).setup.codec slow_crew_text
        none = .ok slow_crew.document := by
      decide +kernel
    obtain rfl := Except.ok.inj (hread.symm.trans hparsed)
    decide +kernel
  · exact override_defaults_unset rfl _

end xrelease.overrides
