-- Conditional applies: the digest that `If-Match` is compared with stands for the document of a
-- stream and not for its secrets, so an apply that only rotates them, or fails after it moved
-- them, does not show; every other change takes the digest away.
import Xrelease.Requests
import Xrelease.Rotated
import Xrelease.Tenants
import Xrelease.Trace

namespace xrelease.conditional

open xrelease.config xrelease.config_apply xrelease.outcomes xrelease.atomic xrelease.bootable
  xrelease.tenants xrelease.rotated xrelease.api xrelease.requests text

/-! ## The header -/

/-- The header names this digest and no other, and does not take whatever there is. -/
def Names (header sha : String) : Prop :=
  trim header ≠ "*" ∧ ∀ candidate ∈ if_match_candidates header, candidate = sha

variable {sha path : String} {server : Server} {w : World} {event : Event} {stream : ApplyScope}
  {fault : Option String}

theorem matched {header : String} (hnames : Names header sha) {current : Option String}
    {hint : String} (h : check_if_match (.Text header) current hint = .ok ()) :
    current = some sha := by
  unfold check_if_match at h
  simp only [if_neg hnames.1] at h
  split at h
  · rename_i hany
    obtain ⟨candidate, hmem, hcurrent⟩ := List.any_eq_true.mp hany
    rw [← hnames.2 candidate hmem]
    exact of_decide_eq_true hcurrent
  · simp at h

/-- What a client got as an `ETag` names its digest. -/
theorem names_etag (h : ∀ c ∈ sha.toList, is_ascii_alphanumeric c = true) :
    Names (etag sha) sha := by
  have htrim : trimmed ('"' :: (sha.toList ++ ['"'])) = '"' :: (sha.toList ++ ['"']) :=
    trim_quoted (by decide) sha.toList
  have hfree : ∀ c ∈ sha.toList, (c == '"') = false ∧ (c == ',') = false := by
    intro c hc
    have halnum := h c hc
    constructor <;> rw [beq_eq_false_iff_ne] <;> rintro rfl <;> exact absurd halnum (by decide)
  have hbare : trim_end_matches (· == '"') (trim_start_matches (· == '"')
      (without_weak ('"' :: (sha.toList ++ ['"'])))) = sha.toList := by
    have hstrong : without_weak ('"' :: (sha.toList ++ ['"'])) = '"' :: (sha.toList ++ ['"']) := rfl
    rw [hstrong]
    unfold trim_end_matches trim_start_matches
    rw [List.dropWhile_cons_of_pos (by decide)]
    cases hsha : sha.toList with
    | nil => rfl
    | cons c rest =>
      have hfirst := (hfree c (by simp [hsha])).1
      rw [List.cons_append, List.dropWhile_cons_of_neg (by simp [hfirst]), ← List.cons_append,
        List.rdropWhile_concat_pos _ _ _ (by decide), List.rdropWhile_eq_self_iff.mpr]
      intro hne hlast
      have hmem : (c :: rest).getLast hne ∈ sha.toList := by
        rw [hsha]
        exact List.getLast_mem hne
      rw [(hfree _ hmem).1] at hlast
      exact Bool.false_ne_true hlast
  constructor
  · intro hstar
    have hlist := congrArg String.toList hstar
    unfold trim at hlist
    rw [String.toList_ofList, etag_quoted, htrim] at hlist
    exact absurd (List.cons.inj hlist).1 (by decide)
  · have hsplit : split (· == ',') (etag sha).toList = [(etag sha).toList] := by
      apply split_alone
      rw [etag_quoted]
      intro c hc
      rcases List.mem_cons.mp hc with rfl | hc
      · decide
      · rcases List.mem_append.mp hc with hc | hc
        · exact (hfree c hc).2
        · rw [List.mem_singleton.mp hc]
          decide
    intro candidate hcandidate
    unfold if_match_candidates at hcandidate
    rw [hsplit, List.map_singleton, List.mem_singleton] at hcandidate
    rw [hcandidate, etag_quoted, htrim, hbare, String.ofList_toList]

/-! ## Streams -/

/-- What is wanted of a stream: the configuration that runs, or the text of an authority. -/
inductive Desired where
  | Running (config : Config)
  | Text (raw : String)

/-- The text that the authority of an organization has. -/
def authority (server : Server) (w : World) (organization : String) : Option String :=
  (server.bootstrap.organizations.find? (fun org => org.id = organization)).bind (fun org =>
    ((organization_desired_raw w.files w.state.process.ledger server.bootstrap org).toOption).map
      (·.1))

def desired (server : Server) (w : World) : ApplyScope → Option Desired
  | .Whole => some (.Running (desired_state_for_ledger w.state.process.effective))
  | .Organization organization => (authority server w organization).map .Text

/-- The digest that a conditional apply to the stream is compared with. -/
def current_sha (server : Server) (w : World) : ApplyScope → Option String
  | .Whole => w.state.effective_desired_sha
  | .Organization organization => (authority server w organization).map server.setup.sha256

/-- The secrets that are referenced. -/
def references (server : Server) : Desired → List String
  | .Running config => collect_secret_env_refs config
  | .Text raw =>
    match parse_desired_document server.setup.codec raw with
    | .ok config => collect_secret_env_refs config
    | .error _ => []

/-- The stream wants the document, and every secret that it references has the value that it had
in the first state. -/
structure Same (server : Server) (stream : ApplyScope) (document : Option Desired) (w w' : World) :
    Prop where
  desired : desired server w' stream = document
  secrets : ∀ d, document = some d → ∀ name ∈ references server d,
    w'.state.process.secrets.app_secret name = w.state.process.secrets.app_secret name

/-! ## When a change shows -/

/-- The call records this candidate on the stream. -/
def Renews (server : Server) (w : World) (stream : ApplyScope) (a : Attempt)
    (candidate : ScopedCandidate) : Prop :=
  a.scope = stream ∧ Records (at_files server w.files) a.faults w.state.process a.scope a.raw
    a.hint candidate

/-- What the call does shows in the digest: what it records on the stream has another one; and as
long as the digest stands, a call that records nothing there spares the secrets of the document,
and does not swap the running one for a time. -/
structure Shows (server : Server) (w : World) (stream : ApplyScope) (sha : String)
    (a : Attempt) : Prop where
  renamed : ∀ candidate, Renews server w stream a candidate → candidate.ledger_sha ≠ sha
  spared : current_sha server w stream = some sha → (∀ c, ¬ Renews server w stream a c) →
    ∀ d, desired server w stream = some d → ∀ name ∈ references server d,
      Spares (at_files server w.files) a.faults w.state.process a.scope a.raw a.hint name
  kept : current_sha server w stream = some sha → stream = .Whole →
    ¬ SwappedUnrecorded (at_files server w.files) a.faults w.state.process a.scope a.raw a.hint

/-- And no file brings the digest back, once it is gone. -/
structure Tells (server : Server) (stream : ApplyScope) (sha : String) (w : World)
    (event : Event) : Prop where
  shows : ∀ a, attempt server w event = some a → Shows server w stream sha a
  reloaded : ∀ index fault raw, event = .Reload index fault →
    w.waiting[index]? = some (.Document raw) → stream = .Whole →
    current_sha server w stream ≠ some sha → server.setup.sha256 raw ≠ sha
  edited : ∀ app text, event = .Edit app text → current_sha server w stream ≠ some sha →
    current_sha server { w with files := edited w.files app text } stream ≠ some sha

/-! ## The identity of a whole instance -/

/-- A revision in the ledger is the identity of a whole instance, and what waits for the lock fits
the instance. -/
structure Settled (server : Server) (w : World) : Prop where
  identity : server.bootstrap.config_api.ledger_is_bootable = true →
    server.bootstrap.organizations = [] → ∀ row,
      latest_applied_config_revision w.state.process.ledger none = some row →
        w.state.effective_desired_sha = some row.content_sha256
  waiting : ∀ reading ∈ w.waiting,
    (reading = .Organizations ↔ server.bootstrap.organizations ≠ [])

theorem reads_fit {reading : Reading} (h : reload_reads server path = .ok reading) :
    reading = .Organizations ↔ server.bootstrap.organizations ≠ [] := by
  unfold reload_reads at h
  split at h
  · rename_i hmode
    obtain rfl := Except.ok.inj h
    exact ⟨fun _ => hmode, fun _ => rfl⟩
  · rename_i hmode
    split at h
    · simp at h
    · simp at h
    · obtain rfl := Except.ok.inj h
      exact ⟨fun heq => by simp at heq, fun hmode' => absurd hmode' hmode⟩

/-- The identity that a call for the whole instance leaves is that of the latest revision. -/
theorem identity_next (h : Settled server w)
    (hbootable : server.bootstrap.config_api.ledger_is_bootable = true)
    (hmode : server.bootstrap.organizations = []) :
    ∀ row, latest_applied_config_revision (next server path w event).state.process.ledger none =
        some row →
      (next server path w event).state.effective_desired_sha = some row.content_sha256 := by
  intro row hrow
  have hbefore := h.identity hbootable hmode
  rcases event_cases server path w event with ⟨a, hmakes⟩ | hrests | ⟨app, text, rfl⟩ |
    ⟨index, fault, reading, rfl, hwaits⟩
  · rw [hmakes.process] at hrow
    rw [hmakes.identity]
    have hscope := whole_attempt hmakes.attempted hmode
    obtain ⟨faults, scope, raw, hint⟩ := a
    obtain rfl : scope = .Whole := hscope
    rcases called_cases (at_files server w.files) faults w.state.process .Whole raw hint with
      ⟨c, response, -, hanswer, happlied, hdigest, hledger, -⟩ | ⟨-, hlatest, hdigest, -⟩
    · unfold called at hrow ⊢
      rw [hledger] at hrow
      have hlast := latest_applied_row faults w.state.process .Whole c w.state.process.ledger
      obtain rfl := Option.some.inj (hrow.symm.trans hlast)
      simp only [hanswer, published, happlied, if_true, hdigest]
      rfl
    · unfold called at hrow ⊢
      rw [hlatest] at hrow
      cases hanswer : (apply_document (at_files server w.files) faults w.state.process .Whole raw
          hint).1 with
      | error err =>
        simp only [published]
        exact hbefore row hrow
      | ok response =>
        simp only [published]
        split
        · rename_i happlied
          obtain ⟨current, hcurrent, hsha⟩ := hdigest response hanswer happlied
          obtain rfl := Option.some.inj (hrow.symm.trans hcurrent)
          rw [hsha]
        · exact hbefore row hrow
  · rw [hrests.stays.process] at hrow
    rw [hrests.stays.identity]
    exact hbefore row hrow
  · exact hbefore row hrow
  · obtain ⟨hreloaded, -⟩ := reload_event server path fault hwaits
    generalize (step server path w (.Reload index fault)).1 = answer at hreloaded
    generalize (next server path w (.Reload index fault)).state = state at hreloaded hrow ⊢
    cases hreloaded with
    | refused | same_document | same_organizations => exact hbefore row hrow
    | document raw merged swapped unrecorded news merges valid swaps =>
      rw [(apply_runtime_keeps swaps).2.1, unrecorded hbootable] at hrow
      simp at hrow
    | organizations composed swapped composes news valid swaps =>
      have hfits := (h.waiting .Organizations (List.mem_of_getElem? hwaits)).mp rfl
      exact absurd hmode hfits

theorem settled_next (path : String) (w : World) (event : Event) (h : Settled server w) :
    Settled server (next server path w event) := by
  refine ⟨identity_next h, ?_⟩
  intro reading hreading
  rcases waiting_next hreading with hwaits | ⟨-, hreads⟩
  · exact h.waiting reading hwaits
  · have hfits := reads_fit hreads
    exact hfits

theorem settled_served (h : Served server w) :
    Settled server w := by
  obtain ⟨hwaiting, secrets, ledger, hserve⟩ := h
  constructor
  · intro hbootable hmode row hrow
    unfold serve at hserve
    simp only [bind_ok_iff, pure, Except.pure, Except.ok.injEq] at hserve
    obtain ⟨effective, -, process, hruns, hstate⟩ := hserve
    have hledger : w.state.process.ledger = ledger := by
      rw [← hstate]
      exact (apply_runtime_keeps hruns).2.1
    rw [hledger] at hrow
    rw [← hstate]
    simp only [AppState.new, at_files, hmode, hbootable, hrow, ne_eq, not_true_eq_false, if_false,
      and_self, if_true]
  · simp [hwaiting]

/-! ## What an event leaves of a stream -/

theorem authority_same {w' : World} {organization : String} (hfiles : w'.files = w.files)
    (hlatest : latest_applied_config_revision w'.state.process.ledger (some organization) =
      latest_applied_config_revision w.state.process.ledger (some organization)) :
    authority server w' organization = authority server w organization := by
  unfold authority
  cases hfound : server.bootstrap.organizations.find? (fun org => org.id = organization) with
  | none => rfl
  | some org =>
    obtain rfl : org.id = organization := by simpa using List.find?_some hfound
    simp only [Option.bind_some]
    unfold organization_desired_raw
    rw [hfiles, hlatest]

/-- A revision is the authority of its organization. -/
theorem authority_recorded {org : OrganizationConfig}
    (hbootable : server.bootstrap.config_api.ledger_is_bootable = true)
    (horg : org ∈ server.bootstrap.organizations) (row : ConfigRevision)
    (hlatest : latest_applied_config_revision w.state.process.ledger (some org.id) = some row) :
    authority server w org.id = some row.content := by
  unfold authority
  cases hfound : server.bootstrap.organizations.find? (fun o => o.id = org.id) with
  | none =>
    have hnone := List.find?_eq_none.mp hfound org horg
    simp at hnone
  | some found =>
    have hid : found.id = org.id := by simpa using List.find?_some hfound
    simp only [Option.bind_some]
    unfold organization_desired_raw
    rw [hid, hlatest, hbootable]
    rfl

/-- The mode of the instance fits the stream. -/
def Fits (server : Server) (stream : ApplyScope) : Prop :=
  stream = .Whole → server.bootstrap.config_api.ledger_is_bootable = true ∧
    server.bootstrap.organizations = []

theorem renewed_sha {a : Attempt} {candidate : ScopedCandidate}
    (hmakes : Makes server path w event a) (h : Renews server w stream a candidate) :
    current_sha server (next server path w event) stream = some candidate.ledger_sha := by
  obtain ⟨faults, scope, raw, hint⟩ := a
  obtain ⟨hscope, hrecords⟩ := h
  obtain rfl : scope = stream := hscope
  obtain ⟨hbootable, hcatalogue⟩ := attempt_scope hmakes.attempted
  rcases called_cases (at_files server w.files) faults w.state.process scope raw hint with
    ⟨c, response, hc, hanswer, happlied, hdigest, hledger, -⟩ | ⟨hnone, -⟩
  · obtain rfl := reaches_unique hrecords.reached hc.reached
    rcases hcatalogue with ⟨hwhole, -⟩ | ⟨org, horg, horganization⟩
    · obtain rfl : scope = .Whole := hwhole
      unfold current_sha
      rw [hmakes.identity]
      unfold called
      simp only [hanswer, published, happlied, if_true, hdigest]
    · obtain rfl : scope = .Organization org.id := horganization
      simp only [current_sha]
      have hlatest := latest_applied_row faults w.state.process (.Organization org.id) c
        w.state.process.ledger
      rw [authority_recorded hbootable horg (applied_row faults w.state.process
        (.Organization org.id) c)]
      · obtain ⟨_, _, _, _, _, _, -, -, -, -, -, -, hsha, -⟩ := resolved_organization
          hc.reached.resolved
        rw [hsha]
        rfl
      · rw [hmakes.process]
        unfold called
        rw [hledger]
        exact hlatest
  · exact absurd hrecords (hnone candidate)

theorem authority_unrenewed {organization : String} {a : Attempt}
    (hmakes : Makes server path w event a)
    (h : ∀ c, ¬ Renews server w (.Organization organization) a c) :
    authority server (next server path w event) organization =
      authority server w organization := by
  obtain ⟨faults, scope, raw, hint⟩ := a
  apply authority_same hmakes.files
  rw [hmakes.process]
  unfold called
  rcases called_cases (at_files server w.files) faults w.state.process scope raw hint with
    ⟨c, -, hc, -, -, -, hledger, -⟩ | ⟨-, hlatest, -⟩
  · rw [hledger]
    apply latest_other_stream
    intro hstream
    refine h c ⟨?_, hc⟩
    cases scope with
    | Whole => simp [applied_row, ApplyScope.ledger_stream] at hstream
    | Organization id =>
      have hid : id = organization := by
        simpa [applied_row, ApplyScope.ledger_stream] using hstream
      rw [hid]
  · exact hlatest (some organization)

theorem unrenewed_sha {a : Attempt} (hset : Settled server w) (hfits : Fits server stream)
    (hmakes : Makes server path w event a) (h : ∀ c, ¬ Renews server w stream a c) :
    current_sha server (next server path w event) stream = current_sha server w stream := by
  have hscope := whole_attempt hmakes.attempted
  obtain ⟨faults, scope, raw, hint⟩ := a
  have hcases := called_cases (at_files server w.files) faults w.state.process scope raw hint
  cases stream with
  | Whole =>
    obtain ⟨hbootable, hmode⟩ := hfits rfl
    obtain rfl : scope = .Whole := hscope hmode
    rcases hcases with ⟨c, -, hc, -⟩ | ⟨-, -, hdigest, -⟩
    · exact absurd ⟨rfl, hc⟩ (h c)
    · unfold current_sha
      rw [hmakes.identity]
      unfold called
      cases hanswer : (apply_document (at_files server w.files) faults w.state.process .Whole raw
          hint).1 with
      | error err => rfl
      | ok response =>
        simp only [published]
        split
        · rename_i happlied
          obtain ⟨current, hcurrent, hsha⟩ := hdigest response hanswer happlied
          rw [hset.identity hbootable hmode current hcurrent, hsha]
        · rfl
  | Organization organization =>
    simp only [current_sha]
    rw [authority_unrenewed hmakes h]

/-- As long as nothing is recorded on it, the document of the stream stays, but for a running one
that is swapped for a time. -/
theorem unrenewed_desired {a : Attempt} (hfits : Fits server stream)
    (hmakes : Makes server path w event a) (h : ∀ c, ¬ Renews server w stream a c)
    (hkept : stream = .Whole → ¬ SwappedUnrecorded (at_files server w.files) a.faults
      w.state.process a.scope a.raw a.hint) :
    desired server (next server path w event) stream = desired server w stream := by
  have hscope := whole_attempt hmakes.attempted
  obtain ⟨faults, scope, raw, hint⟩ := a
  have hcases := called_cases (at_files server w.files) faults w.state.process scope raw hint
  cases stream with
  | Whole =>
    obtain ⟨hbootable, hmode⟩ := hfits rfl
    obtain rfl : scope = .Whole := hscope hmode
    rcases hcases with ⟨c, -, hc, -⟩ | ⟨-, -, -, hruns | ⟨hswapped, -⟩⟩
    · exact absurd ⟨rfl, hc⟩ (h c)
    · unfold desired
      rw [hmakes.process]
      unfold called
      rw [hruns]
    · exact absurd hswapped (hkept rfl)
  | Organization organization =>
    simp only [desired]
    rw [authority_unrenewed hmakes h]

theorem desired_stays {w' : World} (h : Stays w w') (stream : ApplyScope) :
    desired server w' stream = desired server w stream := by
  cases stream with
  | Whole => simp only [desired, h.process]
  | Organization organization =>
    simp only [desired]
    rw [authority_same h.files (by rw [h.process])]

theorem current_sha_stays {w' : World} (h : Stays w w') (stream : ApplyScope) :
    current_sha server w' stream = current_sha server w stream := by
  cases stream with
  | Whole => simp only [current_sha, h.identity]
  | Organization organization =>
    simp only [current_sha]
    rw [authority_same h.files (by rw [h.process])]

theorem reloaded_keeps {state state' : AppState} {reading : Reading} {answer : Option ApiError}
    (h : Reloaded server state reading answer state') :
    state'.process.ledger = state.process.ledger ∧
      state'.process.secrets = state.process.secrets := by
  cases h with
  | refused | same_document | same_organizations => exact ⟨rfl, rfl⟩
  | document _ _ _ _ _ _ _ swaps | organizations _ _ _ _ _ swaps =>
    exact ⟨(apply_runtime_keeps swaps).2.1, (apply_runtime_keeps swaps).1⟩

/-- A reload of a whole instance leaves everything, or takes the digest of its text. -/
theorem reloaded_whole (path : String) {index : Nat} (fault : Option String) {reading : Reading}
    (hset : Settled server w) (hmode : server.bootstrap.organizations = [])
    (hwaits : w.waiting[index]? = some reading) :
    Stays w (next server path w (.Reload index fault)) ∨ ∃ raw, reading = .Document raw ∧
      w.state.effective_desired_sha ≠ some (server.setup.sha256 raw) ∧
      (next server path w (.Reload index fault)).state.effective_desired_sha =
        some (server.setup.sha256 raw) := by
  obtain ⟨hreloaded, hfiles⟩ := reload_event server path fault hwaits
  have hwait := hset.waiting reading (List.mem_of_getElem? hwaits)
  generalize next server path w (.Reload index fault) = w' at hreloaded hfiles ⊢
  generalize (step server path w (.Reload index fault)).1 = answer at hreloaded
  obtain ⟨state', files', waiting'⟩ := w'
  cases hreloaded with
  | refused | same_document | same_organizations => exact Or.inl ⟨rfl, rfl, hfiles⟩
  | document raw merged swapped unrecorded news => exact Or.inr ⟨raw, rfl, news, rfl⟩
  | organizations => exact absurd hmode (hwait.mp rfl)

theorem authority_reloaded {index : Nat} {reading : Reading}
    (hwaits : w.waiting[index]? = some reading) (organization : String) :
    authority server (next server path w (.Reload index fault)) organization =
      authority server w organization := by
  obtain ⟨hreloaded, hfiles⟩ := reload_event server path fault hwaits
  exact authority_same hfiles (by rw [(reloaded_keeps hreloaded).1])

/-- The digest tells the text that an edit leaves from the one before. -/
def Digested (server : Server) (w : World) (event : Event) : Prop :=
  ∀ app text, event = .Edit app text → ∀ organization raw raw',
    authority server w organization = some raw →
    authority server { w with files := edited w.files app text } organization = some raw' →
    server.setup.sha256 raw' = server.setup.sha256 raw → raw' = raw

theorem tells_keep {w₀ : World} {document : Option Desired} (hapart : Digested server w event)
    (hset : Settled server w) (hfits : Fits server stream)
    (htells : Tells server stream sha w event) (hmarked : current_sha server w stream = some sha)
    (hsame : Same server stream document w₀ w) :
    Same server stream document w₀ (next server path w event) ∨
      current_sha server (next server path w event) stream ≠ some sha := by
  rcases event_cases server path w event with ⟨a, hmakes⟩ | hrests | ⟨app, text, rfl⟩ |
    ⟨index, fault, reading, rfl, hwaits⟩
  · have hshows := htells.shows a hmakes.attempted
    by_cases hrenews : ∃ c, Renews server w stream a c
    · obtain ⟨c, hc⟩ := hrenews
      right
      rw [renewed_sha hmakes hc]
      intro h
      exact hshows.renamed c hc (Option.some.inj h)
    · rw [not_exists] at hrenews
      left
      constructor
      · rw [unrenewed_desired hfits hmakes hrenews (hshows.kept hmarked)]
        exact hsame.desired
      · intro d hd name hname
        rw [hmakes.process, ← hsame.secrets d hd name hname]
        exact (row_same_iff name).mpr
          (hshows.spared hmarked hrenews d (hsame.desired.trans hd) name hname)
  · left
    refine ⟨(desired_stays hrests.stays stream).trans hsame.desired, ?_⟩
    rw [hrests.stays.process]
    exact hsame.secrets
  · by_cases hnext : current_sha server (next server path w (.Edit app text)) stream = some sha
    · left
      refine ⟨?_, hsame.secrets⟩
      rw [← hsame.desired]
      cases stream with
      | Whole => rfl
      | Organization organization =>
        simp only [current_sha, Option.map_eq_some_iff] at hmarked hnext
        obtain ⟨raw, hraw, hsha⟩ := hmarked
        obtain ⟨raw', hraw', hsha'⟩ := hnext
        simp only [desired]
        rw [hraw, hraw', hapart app text rfl organization raw raw' hraw hraw'
          (hsha'.trans hsha.symm)]
    · exact Or.inr hnext
  · obtain ⟨hreloaded, -⟩ := reload_event server path fault hwaits
    have hsecrets := (reloaded_keeps hreloaded).2
    cases stream with
    | Whole =>
      rcases reloaded_whole path fault hset (hfits rfl).2 hwaits with
        hstays | ⟨raw, -, hnews, hidentity⟩
      · left
        refine ⟨(desired_stays hstays .Whole).trans hsame.desired, ?_⟩
        rw [hsecrets]
        exact hsame.secrets
      · right
        simp only [current_sha] at hmarked ⊢
        rw [hidentity, ← hmarked]
        exact hnews.symm
    | Organization organization =>
      left
      refine ⟨?_, ?_⟩
      · rw [← hsame.desired]
        simp only [desired]
        rw [authority_reloaded hwaits]
      · rw [hsecrets]
        exact hsame.secrets

theorem tells_back (hset : Settled server w) (hfits : Fits server stream)
    (htells : Tells server stream sha w event) (hgone : current_sha server w stream ≠ some sha) :
    current_sha server (next server path w event) stream ≠ some sha := by
  rcases event_cases server path w event with ⟨a, hmakes⟩ | hrests | ⟨app, text, rfl⟩ |
    ⟨index, fault, reading, rfl, hwaits⟩
  · by_cases hrenews : ∃ c, Renews server w stream a c
    · obtain ⟨c, hc⟩ := hrenews
      rw [renewed_sha hmakes hc]
      intro h
      exact (htells.shows a hmakes.attempted).renamed c hc (Option.some.inj h)
    · rw [not_exists] at hrenews
      rw [unrenewed_sha hset hfits hmakes hrenews]
      exact hgone
  · rw [current_sha_stays hrests.stays]
    exact hgone
  · have hedited := htells.edited app text rfl hgone
    cases stream <;> exact hedited
  · cases stream with
    | Whole =>
      rcases reloaded_whole path fault hset (hfits rfl).2 hwaits with
        hstays | ⟨raw, hraw, -, hidentity⟩
      · rw [current_sha_stays hstays]
        exact hgone
      · simp only [current_sha]
        rw [hidentity]
        intro h
        exact htells.reloaded index fault raw rfl (hraw ▸ hwaits) rfl hgone (Option.some.inj h)
    | Organization organization =>
      simp only [current_sha] at hgone ⊢
      rw [authority_reloaded hwaits]
      exact hgone

/-! ## A client -/

/-- A client gets this digest with the config of the stream. -/
inductive Got (server : Server) (w : World) : ApplyScope → String → Prop where
  | whole (fault : Option String) (ledger : List ConfigRevision) (view : ConfigView) (sha : String)
      (answers : get_config (at_files server w.files) fault w.state ledger = .ok view)
      (digest : view.content_sha256 = some sha) : Got server w .Whole sha
  | organization (fault : Option String) (org_id : String) (view : OrgConfigView)
      (answers : get_org_config (at_files server w.files) fault w.state org_id = .ok view) :
      Got server w (.Organization view.organization) view.content_sha256

/-- What runs while a call has swapped, and has not told the new identity yet. -/
inductive Midway (server : Server) (path : String) (w : World) (event : Event) : Process → Prop where
  | swapped : Midway server path w event (next server path w event).state.process
  | unrecorded (a : Attempt) (candidate : ScopedCandidate) (stale : List String)
      (swapped : Process) (attempted : attempt server w event = some a)
      (reaches : Reaches (at_files server w.files) a.faults w.state.process a.scope a.raw a.hint
        candidate)
      (news : ¬ IsCurrent w.state.process a.scope candidate.ledger_sha)
      (seals : Seals (at_files server w.files) a.faults candidate)
      (prunes : Prunes (at_files server w.files) a.faults w.state.process a.scope candidate stale)
      (swaps : apply_runtime (at_files server w.files)
        (kept (at_files server w.files) w.state.process candidate stale) candidate.merged =
          .ok swapped) :
      Midway server path w event swapped

/-- A client reads the config of a stream before the first of the events, or in the middle of it;
no lock is in its way. -/
inductive Reads (server : Server) (path : String) (w : World) :
    ApplyScope → List Event → String → Option Desired → Prop where
  | between (stream : ApplyScope) (events : List Event) (sha : String)
      (got : Got server w stream sha) :
      Reads server path w stream events sha (desired server w stream)
  | during (event : Event) (events : List Event) (process : Process) (fault : Option String)
      (ledger : List ConfigRevision) (view : ConfigView) (sha : String)
      (midway : Midway server path w event process)
      (answers : get_config (at_files server w.files) fault { w.state with process } ledger =
        .ok view)
      (digest : view.content_sha256 = some sha) :
      Reads server path w .Whole (event :: events) sha
        (some (.Running (desired_state_for_ledger process.effective)))

/-- A request that applies to the stream with a header. -/
inductive Conditional (header : String) : ApplyScope → Event → Prop where
  | whole (faults : RouteFaults) (raw : String) (hint : Option DesiredFormat) :
      Conditional header .Whole (.Apply faults (.Text header) raw hint)
  | organization (faults : RouteFaults) (org_id raw : String) (hint : Option DesiredFormat) :
      Conditional header (.Organization (trim org_id))
        (.OrgApply faults org_id (.Text header) raw hint)

theorem get_config_sha {state : AppState} {ledger : List ConfigRevision} {view : ConfigView}
    (h : get_config server fault state ledger = .ok view) :
    view.content_sha256 = state.effective_desired_sha ∧
      view.etag = state.effective_desired_sha.map etag := by
  unfold get_config at h
  simp only at h
  split at h
  · rw [← Except.ok.inj h]
    exact ⟨rfl, rfl⟩
  · split at h
    · split at h
      · simp at h
      · rw [← Except.ok.inj h]
        exact ⟨rfl, rfl⟩
    · rw [← Except.ok.inj h]
      exact ⟨rfl, rfl⟩

theorem org_authority_raw_ok {process : Process} {org : OrganizationConfig}
    {found : String × DesiredSource} (h : org_authority_raw server fault process org = .ok found) :
    organization_desired_raw server.setup.files process.ledger server.bootstrap org =
      .ok found := by
  unfold org_authority_raw at h
  split at h
  · simp at h
  · split at h
    · rename_i hfound
      rw [hfound, ← Except.ok.inj h]
    · simp at h

/-- What an organization's request finds is the authority of its stream. -/
theorem authority_found (server : Server) {org_id : String} {org : OrganizationConfig}
    {found : String × DesiredSource} (horg : require_organization server.bootstrap org_id = .ok org)
    (hraw : org_authority_raw (at_files server w.files) fault w.state.process org = .ok found) :
    org.id = trim org_id ∧ authority server w org.id = some found.1 := by
  have hfound := require_organization_ok horg
  have hid : org.id = trim org_id := by simpa using List.find?_some hfound
  refine ⟨hid, ?_⟩
  unfold authority
  rw [hid, hfound, Option.bind_some]
  have hdesired := org_authority_raw_ok hraw
  simp only [at_files] at hdesired
  rw [hdesired]
  rfl

/-- A conditional apply that answers ok has found its digest, and an instance that fits. -/
theorem conditional_found {header : String} (h : Conditional header stream event)
    (hnames : Names header sha) (hok : (step server path w event).1 = none) :
    current_sha server w stream = some sha ∧ Fits server stream := by
  cases h with
  | whole faults raw hint =>
    simp only [step, post_apply, checked] at hok
    split at hok
    · simp [refusal] at hok
    · rename_i hchecks
      unfold apply_checks at hchecks
      simp only [bind_ok_iff] at hchecks
      obtain ⟨_, hpush, _, hmatch, hmode⟩ := hchecks
      exact ⟨matched hnames hmatch,
        fun _ => ⟨require_config_apply_ok hpush, require_single_document_mode_ok hmode⟩⟩
  | organization faults org_id raw hint =>
    simp only [step, post_org_apply, checked] at hok
    split at hok
    · simp [refusal] at hok
    · rename_i hchecks
      unfold org_apply_checks at hchecks
      simp only [bind_ok_iff, pure, Except.pure, Except.ok.injEq] at hchecks
      obtain ⟨org, horg, found, hraw, _, hmatch, -⟩ := hchecks
      obtain ⟨hid, hauthority⟩ := authority_found server (org_rollback_checks_ok horg).1 hraw
      refine ⟨?_, fun hwhole => by simp at hwhole⟩
      simp only [current_sha]
      rw [← hid, hauthority]
      exact matched hnames hmatch

theorem marked_all_along {document : Option Desired} {events : List Event} (hset : Settled server w)
    (hfits : Fits server stream) (htells : trace.Along (next server path)
      (fun w event => Digested server w event ∧ Tells server stream sha w event) w events)
    (hsame : Same server stream document w w)
    (hend : current_sha server (trace.run (next server path) w events) stream = some sha) :
    ∀ w' ∈ trace.states (next server path) w events,
      Same server stream document w w' ∧ current_sha server w' stream = some sha :=
  trace.same_while_marked (Settled server)
    (fun w' => current_sha server w' stream = some sha) (Same server stream document w)
    (fun w e h => settled_next path w e h)
    (fun _ _ hset htells hmarked hsame =>
      tells_keep htells.1 hset hfits htells.2 hmarked hsame)
    (fun _ _ hset htells hgone => tells_back hset hfits htells.2 hgone) hset htells hsame hend

theorem makes_of_attempt (path : String) {a : Attempt} (h : attempt server w event = some a) :
    Makes server path w event a := by
  rcases event_cases server path w event with ⟨a', hmakes⟩ | hrests | ⟨app, text, rfl⟩ |
    ⟨index, fault, reading, rfl, -⟩
  · obtain rfl := Option.some.inj (hmakes.attempted.symm.trans h)
    exact hmakes
  · simp [hrests.unattempted] at h
  · simp [attempt] at h
  · simp [attempt] at h

/-! ## The law -/

/-- A conditional apply that answers ok, after the client has read the config and others have done
what they do, finds the document that the client has read and the secrets that it references, and
they have been there all along. -/
def ClobbersNothing (server : Server) (path : String) (w : World) (stream : ApplyScope)
    (events : List Event) (header : String) (event : Event) : Prop :=
  ∀ sha document, Reads server path w stream events sha document → Names header sha →
    Conditional header stream event →
    (step server path (trace.run (next server path) w events) event).1 = none →
      ∀ w' ∈ trace.states (next server path) w events, Same server stream document w w'

/-- Between a read and the apply that is conditional on it nothing has changed, in whatever order
calls and reloads come, when every change shows in the digest. -/
theorem conditional_applies_clobber_nothing_that_shows {server : Server} {path : String}
    {start : World} (hstart : Served server start) (earlier events : List Event)
    (stream : ApplyScope) (header : String) (event : Event)
    (htells : ∀ sha, Names header sha → trace.Along (next server path)
      (fun w event => Digested server w event ∧ Tells server stream sha w event)
      (trace.run (next server path) start earlier) events) :
    ClobbersNothing server path (trace.run (next server path) start earlier) stream events header
      event := by
  intro sha document hreads hnames hcond hok
  obtain ⟨hend, hfits⟩ := conditional_found hcond hnames hok
  have hset : Settled server (trace.run (next server path) start earlier) :=
    trace.run_keeps (fun w e h => settled_next path w e h) (settled_served hstart) earlier
  have htells := htells sha hnames
  generalize trace.run (next server path) start earlier = w at hreads hend hset htells ⊢
  have hall : ∀ w' ∈ trace.states (next server path) w events,
      Same server stream (desired server w stream) w w' ∧
        current_sha server w' stream = some sha :=
    marked_all_along hset hfits htells ⟨rfl, fun _ _ _ _ => rfl⟩ hend
  cases hreads with
  | between stream events sha got => exact fun w' hw' => (hall w' hw').1
  | during first rest process fault ledger view sha midway answers digest =>
    obtain ⟨hafter, hstands⟩ := hall (next server path w first)
      (List.mem_cons_of_mem _ (trace.head_mem_states _ _))
    have hcurrent := (hall w (trace.head_mem_states _ _)).2
    cases midway with
    | swapped =>
      have hdocument := hafter.desired
      simp only [desired, Option.some.injEq, Desired.Running.injEq] at hdocument
      rw [hdocument]
      exact fun w' hw' => (hall w' hw').1
    | unrecorded a candidate stale swapped attempted reaches news seals prunes swaps =>
      -- what is swapped in is recorded, so that the digest would be gone by now
      have hshows := htells.1.2.shows a attempted
      have hscope : a.scope = .Whole := by
        rcases (attempt_scope attempted).2 with ⟨hwhole, -⟩ | ⟨org, horg, -⟩
        · exact hwhole
        · rw [(hfits rfl).2] at horg
          simp at horg
      by_cases hinsert : a.faults.insert = none
      · have hrenews : Renews server w .Whole a candidate :=
          ⟨hscope, reaches, news, seals, ⟨stale, process, prunes, swaps⟩, hinsert⟩
        rw [renewed_sha (makes_of_attempt path attempted) hrenews] at hstands
        exact absurd (Option.some.inj hstands) (hshows.renamed candidate hrenews)
      · exact absurd ⟨hinsert, candidate, stale, process, reaches, news, seals, prunes, swaps⟩
          (hshows.kept hcurrent rfl)

/-! ## Documents of one topic -/

def topic (name : String) : DesiredWire :=
  ⟨none, [.Kafka { brokers := ["k"], topic := name }], [], [], []⟩

def topic_text (name : String) : String :=
  "[[notifiers]]\ntype = \"kafka\"\ntags = []\nbrokers = [\"k\"]\ntopic = \"" ++ name ++ "\"\n"

def topics (names : List String) : List (DesiredFormat × DesiredWire × String) :=
  names.map (fun name => (.Toml, topic name, topic_text name))

/-! ## A desk for two clients -/

/-- A server where three texts are known; the digests of two documents are short. -/
def desk : Server :=
  let docs := [(.Toml, bus, bus_text), (.Toml, bus_inline, bus_inline_text),
    (.Toml, bell, bell_text)]
  { bench docs with
    setup :=
      { (bench docs).setup with
        sha256 := fun text =>
          if text = bus_text then "b0" else if text = bell_text then "b1" else text } }

def desk_row : ConfigRevision :=
  { id := 1, content := bus_text, content_sha256 := "b0", status := .Applied }

/-- The instance has started from the ledger, and the sink runs. -/
def desk_start : World where
  state := ⟨{ bus_process with ledger := [desk_row] }, some desk_row, some "b0"⟩
  files := {}

theorem desk_served : Served desk desk_start :=
  ⟨rfl, bus_process.secrets, [desk_row], rfl⟩

theorem desk_header : Names (etag "b0") "b0" := names_etag (List.all_eq_true.mp (by decide))

/-- The other document is recorded with its own digest. -/
theorem desk_shows : Shows desk desk_start .Whole "b0" ⟨{}, .Whole, bell_text, none⟩ := by
  refine ⟨fun c hc hsha => ?_, fun _ hno => ?_, ?_⟩
  · have hresolved : (resolve_scoped_candidate (at_files desk {}) {} desk_start.state.process .Whole
        bell_text none).map (·.ledger_sha) = .ok "b1" := by
      decide +kernel
    have hreaches : Reaches (at_files desk {}) {} desk_start.state.process .Whole bell_text none c :=
      hc.2.reached
    rw [hreaches.resolved] at hresolved
    exact absurd ((Except.ok.inj hresolved).symm.trans hsha) (by decide)
  · rcases called_cases (at_files desk {}) {} desk_start.state.process .Whole bell_text none with
      ⟨c, -, hc, -⟩ | ⟨-, hstays, -⟩
    · exact absurd ⟨rfl, hc⟩ (hno c)
    · exact absurd (congrArg (Option.map (·.content_sha256)) (hstays none)) (by decide +kernel)
  · rintro _ _ ⟨hfails, -⟩
    exact hfails rfl

/-- Between the two an apply that changes nothing; or one that is recorded, and then the conditional
one does not pass. -/
theorem conditional_applies_clobber_nothing_that_shows_here :
    ClobbersNothing desk "app.toml" desk_start .Whole [.Apply {} .Absent bus_text none]
        (etag "b0") (.Apply {} (.Text (etag "b0")) bell_text none) ∧
      ClobbersNothing desk "app.toml" desk_start .Whole [.Apply {} .Absent bell_text none]
        (etag "b0") (.Apply {} (.Text (etag "b0")) bus_text none) ∧
      (step desk "app.toml" (next desk "app.toml" desk_start (.Apply {} .Absent bell_text none))
        (.Apply {} (.Text (etag "b0")) bus_text none)).1 ≠ none := by
  have htells : ∀ sha a, attempt desk desk_start (.Apply {} .Absent a.raw none) = some a →
      Shows desk desk_start .Whole sha a →
      Digested desk desk_start (.Apply {} .Absent a.raw none) ∧
        Tells desk .Whole sha desk_start (.Apply {} .Absent a.raw none) := by
    intro sha a hattempt hshows
    refine ⟨fun _ _ h => by simp at h, fun b hb => ?_, fun _ _ _ h => by simp at h,
      fun _ _ h => by simp at h⟩
    obtain rfl := Option.some.inj (hattempt.symm.trans hb)
    exact hshows
  refine ⟨?_, ?_, by decide +kernel⟩
  · refine conditional_applies_clobber_nothing_that_shows desk_served [] _ .Whole _ _ ?_
    intro sha _
    have hunreached : ∀ c, ¬ Reaches (at_files desk {}) {} desk_start.state.process .Whole bus_text
        none c := fun c hc => hc.pushed ⟨desk_row, rfl, by decide +kernel⟩
    refine ⟨htells sha ⟨{}, .Whole, bus_text, none⟩ rfl ⟨fun c hc => ?_, ?_, ?_⟩, trivial⟩
    · exact absurd hc.2.reached (hunreached c)
    · exact fun _ _ d _ name _ c hc => absurd hc (hunreached c)
    · rintro _ _ ⟨-, c, -, -, hc, -⟩
      exact hunreached c hc
  · refine conditional_applies_clobber_nothing_that_shows desk_served [] _ .Whole _ _ ?_
    rintro sha ⟨-, hsha⟩
    obtain rfl := hsha "b0" (by decide +kernel)
    exact ⟨htells _ _ rfl desk_shows, trivial⟩

/-- Another client gives the sink a new URL under the same body; the apply of the first passes, and
was made for a secret that is gone. -/
theorem a_rotation_does_not_show :
    ¬ ClobbersNothing desk "app.toml" desk_start .Whole [.Apply {} .Absent bus_inline_text none]
      (etag "b0") (.Apply {} (.Text (etag "b0")) bell_text none) := by
  intro h
  have hgot : Got desk desk_start .Whole "b0" := .whole none [desk_row] _ _ rfl rfl
  have hok : (step desk "app.toml" (trace.run (next desk "app.toml") desk_start
      [.Apply {} .Absent bus_inline_text none])
      (.Apply {} (.Text (etag "b0")) bell_text none)).1 = none := by
    decide +kernel
  have hsame := h "b0" _ (.between _ _ _ hgot) desk_header (.whole {} bell_text none) hok
    (next desk "app.toml" desk_start (.Apply {} .Absent bus_inline_text none))
    (List.mem_cons_of_mem _ (trace.head_mem_states _ _))
  have hkept := hsame.secrets _ rfl BUS (by decide +kernel)
  have hrotated : (next desk "app.toml" desk_start
      (.Apply {} .Absent bus_inline_text none)).state.process.secrets.app_secret BUS =
      some "nats://u:p@two" := by
    decide +kernel
  rw [hrotated] at hkept
  exact absurd hkept (by decide +kernel)

end xrelease.conditional
