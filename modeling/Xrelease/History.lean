-- The ledger of config revisions as a whole, and its history as the routes show it
-- (`store/postgres/config_revision.rs`, `api/config.rs`, `api/organizations.rs`): every event of a
-- run leaves the rows there are and adds one at most, and the history is read in windows, newest
-- first, while rows are added.
import Xrelease.Requests
import Xrelease.Trace
import Xrelease.Windows
import Mathlib.Data.List.Chain

namespace xrelease.history

open xrelease.config xrelease.config_apply xrelease.outcomes xrelease.requests xrelease.api reading
  trace

/-! ## What a call appends -/

/-- A row as a call in this scope appends it. -/
structure NextRow (sha256 : String → String) (scope : ApplyScope) (ledger : List ConfigRevision)
    (row : ConfigRevision) : Prop where
  /-- Above the ids there are, with a gap where inserts failed. -/
  id : ∀ last ∈ ledger.getLast?, last.id < row.id
  stream : row.organization_id = scope.ledger_stream
  sha : row.content_sha256 = sha256 row.content
  /-- What is applied is not what the stream has already. -/
  news : row.status = .Applied → ∀ current,
    latest_applied_config_revision ledger scope.ledger_stream = some current →
      current.content_sha256 ≠ row.content_sha256

/-- At most one row is added, at the end. -/
def Appends (sha256 : String → String) (scope : ApplyScope)
    (ledger ledger' : List ConfigRevision) : Prop :=
  ledger' = ledger ∨ ∃ row, ledger' = ledger ++ [row] ∧ NextRow sha256 scope ledger row

theorem last_lt_next_id (faults : Faults) (process : Process) :
    ∀ last ∈ process.ledger.getLast?, last.id < next_id faults process := by
  intro last hlast
  unfold next_id
  rw [Option.mem_def.mp hlast, Option.elim_some]
  omega

theorem appends_rejected (server : Server) (faults : Faults) (process : Process)
    (scope : ApplyScope) (raw : String) (error : Option String) :
    Appends server.setup.sha256 scope process.ledger (record_attempt faults process raw
      (server.setup.sha256 raw) .Rejected error scope.ledger_stream).2.ledger := by
  unfold record_attempt
  cases faults.insert with
  | some err => exact Or.inl rfl
  | none => exact Or.inr ⟨_, rfl, last_lt_next_id faults process, rfl, rfl, by simp⟩

theorem appends_reject_document (server : Server) (faults : Faults) (process : Process)
    (scope : ApplyScope) (raw : String) (error : ApplyError) :
    Appends server.setup.sha256 scope process.ledger
      (reject_document server faults process scope raw error).2.ledger := by
  unfold reject_document
  cases error with
  | DocumentRejected err =>
    have hsha : (rejected_ledger_body server raw scope.ledger_stream).2 =
        server.setup.sha256 (rejected_ledger_body server raw scope.ledger_stream).1 := by
      unfold rejected_ledger_body
      split <;> rfl
    have happends := appends_rejected server faults process scope
      (rejected_ledger_body server raw scope.ledger_stream).1 (some err)
    rw [← hsha] at happends
    dsimp only
    split <;> rename_i hrecord <;> rw [hrecord] at happends <;> exact happends
  | Failed err => exact Or.inl rfl
  | ValidationRejected revision report => exact Or.inl rfl
  | NothingToRollBackTo => exact Or.inl rfl

theorem resolved_sha {server : Server} {faults : Faults} {process : Process} {scope : ApplyScope}
    {raw : String} {hint : Option DesiredFormat} {candidate : ScopedCandidate}
    (h : resolve_scoped_candidate server faults process scope raw hint = .ok candidate) :
    candidate.ledger_sha = server.setup.sha256 candidate.ledger_raw := by
  cases scope with
  | Whole =>
    obtain ⟨_, _, -, -, -, -, hsha, -⟩ := resolved_whole h
    exact hsha
  | Organization organization =>
    obtain ⟨_, _, _, _, _, _, -, -, -, -, -, -, hsha, -⟩ := resolved_organization h
    exact hsha

theorem appends_reject_invalid {server : Server} (faults : Faults) (process : Process)
    (scope : ApplyScope) {candidate : ScopedCandidate} (report : ValidationReport)
    (hsha : candidate.ledger_sha = server.setup.sha256 candidate.ledger_raw) :
    Appends server.setup.sha256 scope process.ledger
      (reject_invalid faults process scope candidate report).2.ledger := by
  unfold reject_invalid
  have happends := appends_rejected server faults process scope candidate.ledger_raw
    (some (report.errors.head?.getD "validation failed"))
  rw [← hsha] at happends
  split <;> rename_i hrecord <;> rw [hrecord] at happends <;> exact happends

theorem keep_secrets_ledger (server : Server) (faults : Faults) (process : Process)
    (scope : ApplyScope) (candidate : ScopedCandidate) :
    (keep_secrets server faults process scope candidate).2.ledger = process.ledger := by
  rcases keep_secrets_cases server faults process scope candidate with
    ⟨_, _, hkeep, -⟩ | ⟨_, _, hkeep, -, -⟩ | ⟨_, hkeep, -, -⟩ <;> rw [hkeep]

theorem appends_swap {server : Server} (faults : Faults) (previous : Config)
    {process kept : Process} (scope : ApplyScope) {candidate : ScopedCandidate} (diff : ConfigDiff)
    (warnings : List String) (hkept : kept.ledger = process.ledger)
    (hsha : candidate.ledger_sha = server.setup.sha256 candidate.ledger_raw)
    (hnews : ¬ IsCurrent process scope candidate.ledger_sha) :
    Appends server.setup.sha256 scope process.ledger
      (swap_and_record server faults previous kept scope candidate diff warnings).2.ledger := by
  unfold swap_and_record
  cases hswap : apply_runtime server kept candidate.merged with
  | error err => exact Or.inl hkept
  | ok swapped =>
    have hledger : swapped.ledger = process.ledger := (apply_runtime_keeps hswap).2.1.trans hkept
    unfold record_attempt
    cases faults.insert with
    | none =>
      refine Or.inr ⟨_, congrArg (· ++ _) hledger, ?_, rfl, hsha, ?_⟩
      · rw [← hledger]
        exact last_lt_next_id faults swapped
      intro _ current hcurrent hsame
      exact hnews ⟨current, hcurrent, hsame⟩
    | some fault =>
      dsimp only
      cases hback : apply_runtime server swapped previous with
      | ok back => exact Or.inl ((apply_runtime_keeps hback).2.1.trans hledger)
      | error err => exact Or.inl hledger

/-- A call of `apply_document` adds a row to its own stream, or none. -/
theorem apply_appends (server : Server) (faults : Faults) (process : Process) (scope : ApplyScope)
    (raw : String) (hint : Option DesiredFormat) :
    Appends server.setup.sha256 scope process.ledger
      (apply_document server faults process scope raw hint).2.ledger := by
  unfold apply_document
  cases faults.latest with
  | some err => exact Or.inl rfl
  | none =>
    dsimp only
    cases (latest_applied_config_revision process.ledger scope.ledger_stream).filter
        (fun current => current.content_sha256 = server.setup.sha256 raw) with
    | some current => exact Or.inl rfl
    | none =>
      dsimp only
      cases hresolved : resolve_scoped_candidate server faults process scope raw hint with
      | error err => exact appends_reject_document server faults process scope raw err
      | ok candidate =>
        have hsha := resolved_sha hresolved
        have hkept := keep_secrets_ledger server faults process scope candidate
        have hinvalid := appends_reject_invalid faults process scope
          (server.validate_full process.secrets.vault candidate.merged) hsha
        dsimp only
        rcases current_filter process scope candidate.ledger_sha with
          ⟨-, current, hfilter⟩ | ⟨hnews, hfilter⟩
        · rw [hfilter]
          dsimp only
          split
          · exact Or.inl rfl
          · split
            · exact hinvalid
            · split <;> rename_i hkeep <;> rw [hkeep] at hkept <;> exact Or.inl hkept
        · rw [hfilter]
          dsimp only
          split
          · exact hinvalid
          · split <;> rename_i hkeep <;> rw [hkeep] at hkept
            · exact Or.inl hkept
            · exact appends_swap faults _ scope _ _ hkept hsha hnews

/-! ## What an event appends -/

/-- A row is added by a call that the event makes, to the stream of the call. -/
theorem next_row (server : Server) (path : String) (w : World) (event : Event) :
    (next server path w event).state.process.ledger = w.state.process.ledger ∨
    ∃ a row, attempt server w event = some a ∧
      (next server path w event).state.process.ledger = w.state.process.ledger ++ [row] ∧
      NextRow server.setup.sha256 a.scope w.state.process.ledger row := by
  rcases event_cases server path w event with
    ⟨a, hmakes⟩ | hrests | ⟨app, text, rfl⟩ | ⟨index, fault, reading, rfl, hwaits⟩
  · rw [hmakes.process]
    have happends := apply_appends (at_files server w.files) a.faults w.state.process a.scope a.raw
      a.hint
    exact happends.imp id fun ⟨row, hrow, hnext⟩ => ⟨a, row, hmakes.attempted, hrow, hnext⟩
  · exact Or.inl (congrArg Process.ledger hrests.stays.process)
  · exact Or.inl rfl
  · refine Or.inl ?_
    have hreload := (reload_event server path fault hwaits).1
    generalize (step server path w (.Reload index fault)).1 = answer,
      (next server path w (.Reload index fault)).state = state at hreload
    cases hreload with
    | refused => rfl
    | same_document => rfl
    | same_organizations => rfl
    | document raw merged swapped _ _ _ _ swaps => exact (apply_runtime_keeps swaps).2.1
    | organizations composed swapped _ _ _ swaps => exact (apply_runtime_keeps swaps).2.1

theorem next_appends (server : Server) (path : String) (w : World) (event : Event) :
    ∃ scope, Appends server.setup.sha256 scope w.state.process.ledger
      (next server path w event).state.process.ledger := by
  rcases next_row server path w event with hsame | ⟨a, row, -, hrow, hnext⟩
  · exact ⟨.Whole, Or.inl hsame⟩
  · exact ⟨a.scope, Or.inr ⟨row, hrow, hnext⟩⟩

/-! ## The ledger over a run -/

/-- A server with one document to apply, and one row in its ledger. -/
def reading_room : World := ⟨⟨atomic.bus_process, none, none⟩, {}, []⟩

def one_bell : Server := atomic.bench [(.Toml, atomic.bell, atomic.bell_text)]

/-- A row without its document. -/
structure ConfigRevisionSummary where
  id : Nat
  content_sha256 : String
  revision_label : Option String
  applied_at : String
  applied_by : Option String
  source_addr : Option String
  status : ConfigRevisionStatus
  error : Option String
  organization_id : Option String
deriving DecidableEq

def map_config_revision_summary (row : ConfigRevision) : ConfigRevisionSummary where
  id := row.id
  content_sha256 := row.content_sha256
  revision_label := row.revision_label
  applied_at := row.applied_at
  applied_by := row.applied_by
  source_addr := row.source_addr
  status := row.status
  error := row.error
  organization_id := row.organization_id

/-- The rows of one stream, or of all, newest first. -/
def newest_first (ledger : List ConfigRevision) (organization : Option String) :
    List ConfigRevision :=
  match organization with
  | none => ledger.reverse
  | some organization =>
    (ledger.filter (fun row => row.organization_id = some organization)).reverse

def list_config_revisions (ledger : List ConfigRevision) (limit offset : Int) :
    List ConfigRevisionSummary :=
  (window limit.toNat offset.toNat (newest_first ledger none)).map map_config_revision_summary

def count_config_revisions (ledger : List ConfigRevision) : Int := (newest_first ledger none).length

def list_config_revisions_for (ledger : List ConfigRevision) (organization : String)
    (limit offset : Int) : List ConfigRevisionSummary :=
  (window limit.toNat offset.toNat (newest_first ledger (some organization))).map
    map_config_revision_summary

def count_config_revisions_for (ledger : List ConfigRevision) (organization : String) : Int :=
  (newest_first ledger (some organization)).length

def REVISIONS_MAX_LIMIT : Int := 200

def REVISIONS_DEFAULT_LIMIT : Int := 10

structure RevisionsQuery where
  limit : Option Int := none
  offset : Option Int := none

/-- Clamped `(limit, offset)`. -/
def RevisionsQuery.window (query : RevisionsQuery) : Int × Int :=
  (max 1 (min (query.limit.getD REVISIONS_DEFAULT_LIMIT) REVISIONS_MAX_LIMIT),
    max (query.offset.getD 0) 0)

structure RevisionsPage where
  organization : Option String
  revisions : List ConfigRevisionSummary
  total : Int
  limit : Int
  offset : Int
deriving DecidableEq

/-- `GET /api/v1/config/revisions`: the rows and their count are two reads, and the ledger may have
grown between them. -/
def get_revisions (fault : Option String) (listed counted : List ConfigRevision)
    (query : RevisionsQuery) : Except ApiError RevisionsPage :=
  match fault with
  | some err => .error (.Internal err)
  | none => .ok {
      organization := none
      revisions := list_config_revisions listed query.window.1 query.window.2
      total := count_config_revisions counted
      limit := query.window.1
      offset := query.window.2 }

/-- `GET /api/v1/organizations/{id}/config/revisions`. -/
def get_org_revisions (server : Server) (fault : Option String)
    (listed counted : List ConfigRevision) (org_id : String) (query : RevisionsQuery) :
    Except ApiError RevisionsPage :=
  match require_organization server.bootstrap org_id with
  | .error err => .error err
  | .ok org =>
    match fault with
    | some err => .error (.Internal err)
    | none => .ok {
        organization := some org.id
        revisions := list_config_revisions_for listed org.id query.window.1 query.window.2
        total := count_config_revisions_for counted org.id
        limit := query.window.1
        offset := query.window.2 }

/-- Either route. -/
def page (server : Server) (org_id : Option String) (fault : Option String)
    (listed counted : List ConfigRevision) (query : RevisionsQuery) :
    Except ApiError RevisionsPage :=
  match org_id with
  | none => get_revisions fault listed counted query
  | some org_id => get_org_revisions server fault listed counted org_id query

/-! ## Reading the history while it grows -/

/-- What others do before a request, and between its two reads. -/
structure Turn where
  before : List Event
  between : List Event

/-- The query of the window `k`. -/
def nth (limit k : Nat) : RevisionsQuery := ⟨some limit, some ((k * limit : Nat) : Int)⟩

section

variable (server : Server) (path : String) (org_id : Option String) (limit : Nat)

/-- The answers to the requests for one window after another, from the window `k` on. -/
def read : World → Nat → List Turn → List (Except ApiError RevisionsPage)
  | _, _, [] => []
  | w, k, turn :: rest =>
    let listed := run (next server path) w turn.before
    let counted := run (next server path) listed turn.between
    page server org_id none listed.state.process.ledger counted.state.process.ledger
        (nth limit k) ::
      read counted (k + 1) rest

/-- The rows that each request finds. -/
def found (stream : Option String) : World → List Turn → List (List ConfigRevision)
  | _, [] => []
  | w, turn :: rest =>
    let listed := run (next server path) w turn.before
    newest_first listed.state.process.ledger stream ::
      found stream (run (next server path) listed turn.between) rest

end

variable {server : Server} {path : String} {org_id : Option String} {limit : Nat}

theorem read_cons (w : World) (k : Nat) (turn : Turn) (rest : List Turn) :
    read server path org_id limit w k (turn :: rest) =
      page server org_id none (run (next server path) w turn.before).state.process.ledger
          (run (next server path) (run (next server path) w turn.before)
            turn.between).state.process.ledger (nth limit k) ::
        read server path org_id limit (run (next server path)
          (run (next server path) w turn.before) turn.between) (k + 1) rest := rfl

theorem ledger_grows (server : Server) (path : String) (w : World) (events : List Event) :
    w.state.process.ledger <+: (run (next server path) w events).state.process.ledger := by
  induction events generalizing w with
  | nil => exact List.prefix_refl _
  | cons event rest ih =>
    refine List.IsPrefix.trans ?_ (ih (next server path w event))
    obtain ⟨scope, hsame | ⟨row, hrow, -⟩⟩ := next_appends server path w event
    · exact ⟨[], (List.append_nil _).trans hsame.symm⟩
    · exact ⟨[row], hrow.symm⟩

theorem newest_first_suffix {ledger ledger' : List ConfigRevision} (h : ledger <+: ledger')
    (stream : Option String) : newest_first ledger stream <:+ newest_first ledger' stream := by
  unfold newest_first
  cases stream with
  | none => exact List.reverse_suffix.mpr h
  | some organization => exact List.reverse_suffix.mpr (h.filter _)

theorem found_growing (stream : Option String) (w : World) (turns : List Turn) :
    Growing (newest_first w.state.process.ledger stream) (found server path stream w turns) := by
  induction turns generalizing w with
  | nil => trivial
  | cons turn rest ih =>
    refine ⟨newest_first_suffix (ledger_grows server path w turn.before) stream, ?_⟩
    exact (ih _).of_suffix (newest_first_suffix (ledger_grows server path _ turn.between) stream)

theorem found_length (stream : Option String) (w : World) (turns : List Turn) :
    (found server path stream w turns).length = turns.length := by
  induction turns generalizing w with
  | nil => rfl
  | cons turn rest ih => exact congrArg (· + 1) (ih _)

/-- The stream that a request is for, when its organization is known. -/
def Resolves (server : Server) (org_id stream : Option String) : Prop :=
  match org_id with
  | none => stream = none
  | some org_id =>
    ∃ org, require_organization server.bootstrap org_id = .ok org ∧ stream = some org.id

theorem page_of_resolves {stream : Option String} (h : Resolves server org_id stream)
    (listed counted : List ConfigRevision) (query : RevisionsQuery) :
    page server org_id none listed counted query = .ok {
      organization := stream
      revisions := (window query.window.1.toNat query.window.2.toNat
        (newest_first listed stream)).map map_config_revision_summary
      total := (newest_first counted stream).length
      limit := query.window.1
      offset := query.window.2 } := by
  cases org_id with
  | none =>
    obtain rfl : stream = none := h
    rfl
  | some org_id =>
    obtain ⟨org, horg, rfl⟩ := h
    unfold page get_org_revisions
    dsimp only
    rw [horg]
    rfl

theorem resolves_of_page {fault : Option String} {listed counted : List ConfigRevision}
    {query : RevisionsQuery} {shown : RevisionsPage}
    (h : page server org_id fault listed counted query = .ok shown) :
    Resolves server org_id shown.organization := by
  cases org_id with
  | none =>
    unfold page get_revisions at h
    dsimp only at h
    split at h
    · cases h
    · exact congrArg RevisionsPage.organization (Except.ok.inj h).symm
  | some org_id =>
    unfold page get_org_revisions at h
    dsimp only at h
    split at h
    · cases h
    · rename_i org horg
      split at h
      · cases h
      · exact ⟨org, horg, congrArg RevisionsPage.organization (Except.ok.inj h).symm⟩

theorem nth_window (hlimit : 1 ≤ limit) (hmax : (limit : Int) ≤ REVISIONS_MAX_LIMIT) (k : Nat) :
    (nth limit k).window = ((limit : Int), ((k * limit : Nat) : Int)) := by
  unfold nth RevisionsQuery.window
  rw [Option.getD_some, Option.getD_some, min_eq_left hmax, max_eq_right (by omega),
    max_eq_left (Int.natCast_nonneg _)]

/-- Every window of what the requests find is shown. -/
theorem shown_of_window {stream : Option String} (h : Resolves server org_id stream)
    (hlimit : 1 ≤ limit) (hmax : (limit : Int) ≤ REVISIONS_MAX_LIMIT) {w : World} {k : Nat}
    {turns : List Turn} {rows : List ConfigRevision}
    (hrows : rows ∈ windows limit k (found server path stream w turns)) :
    ∃ shown, .ok shown ∈ read server path org_id limit w k turns ∧
      shown.organization = stream ∧ shown.revisions = rows.map map_config_revision_summary := by
  induction turns generalizing w k with
  | nil => cases hrows
  | cons turn rest ih =>
    rcases List.mem_cons.mp hrows with rfl | hrest
    · refine ⟨_, List.mem_cons.mpr (Or.inl (page_of_resolves h ..).symm), rfl, ?_⟩
      dsimp only
      rw [nth_window hlimit hmax, Int.toNat_natCast, Int.toNat_natCast]
    · obtain ⟨shown, hshown, horg, hsame⟩ := ih hrest
      exact ⟨shown, List.mem_cons_of_mem _ hshown, horg, hsame⟩

/-- An answer that reaches the end of what is counted reaches the end of what was found. -/
theorem found_ends {stream : Option String} (h : Resolves server org_id stream)
    (hlimit : 1 ≤ limit) (hmax : (limit : Int) ≤ REVISIONS_MAX_LIMIT) {w : World} {k : Nat}
    {turns : List Turn} {last : RevisionsPage}
    (hlast : (read server path org_id limit w k turns).getLast? = some (.ok last))
    (hend : last.total ≤ last.offset + last.limit) (rows : List ConfigRevision) :
    ((found server path stream w turns).getLastD rows).length ≤ (k + turns.length) * limit := by
  induction turns generalizing w k rows with
  | nil => cases hlast
  | cons turn rest ih =>
    cases rest with
    | nil =>
      have hpage : page server org_id none
          (run (next server path) w turn.before).state.process.ledger
          (run (next server path) (run (next server path) w turn.before)
            turn.between).state.process.ledger (nth limit k) = .ok last :=
        Option.some.inj hlast
      rw [page_of_resolves h] at hpage
      obtain rfl := Except.ok.inj hpage
      have hgrown := (newest_first_suffix (ledger_grows server path
        (run (next server path) w turn.before) turn.between) stream).length_le
      rw [nth_window hlimit hmax] at hend
      dsimp only at hend
      have hcounted : (newest_first (run (next server path) (run (next server path) w turn.before)
          turn.between).state.process.ledger stream).length ≤ (k + 1) * limit := by
        rw [Nat.succ_mul]
        exact_mod_cast hend
      exact hgrown.trans hcounted
    | cons later rest =>
      have hcount : k + (turn :: later :: rest).length = k + 1 + (later :: rest).length := by
        simp only [List.length_cons]
        omega
      rw [read_cons, read_cons, List.getLast?_cons_cons, ← read_cons] at hlast
      rw [hcount]
      exact ih hlast (newest_first
        (run (next server path) w turn.before).state.process.ledger stream)

/-- An answer names the stream of the request, and shows rows of it that are in the ledger. -/
theorem shown_is_recorded {w : World} {k : Nat} {turns : List Turn} {shown : RevisionsPage}
    (h : .ok shown ∈ read server path org_id limit w k turns) :
    Resolves server org_id shown.organization ∧ ∀ summary ∈ shown.revisions,
      ∃ row ∈ newest_first (run (next server path) w
          (turns.flatMap (fun turn => turn.before ++ turn.between))).state.process.ledger
        shown.organization, map_config_revision_summary row = summary := by
  induction turns generalizing w k with
  | nil => cases h
  | cons turn rest ih =>
    rw [List.flatMap_cons, run_append, run_append]
    rw [read_cons] at h
    rcases List.mem_cons.mp h with hpage | hrest
    · have hstream := resolves_of_page hpage.symm
      refine ⟨hstream, fun summary hsummary => ?_⟩
      rw [page_of_resolves hstream] at hpage
      rw [congrArg RevisionsPage.revisions (Except.ok.inj hpage)] at hsummary
      obtain ⟨row, hrow, hshown⟩ := List.mem_map.mp hsummary
      refine ⟨row, ?_, hshown⟩
      refine (newest_first_suffix ?_ shown.organization).mem (mem_of_mem_window hrow)
      exact (ledger_grows server path _ turn.between).trans (ledger_grows server path _ _)
    · exact ih hrest

/-- Whatever is applied while a client asks for one window after another: when the last answer
reaches the end of what it counts, the answers together have shown every revision that the stream
had when the client began, and they show nothing but rows of that stream. -/
theorem reading_to_the_end_shows_every_revision (server : Server) (path : String)
    (org_id : Option String) (limit : Nat) (hlimit : 1 ≤ limit)
    (hmax : (limit : Int) ≤ REVISIONS_MAX_LIMIT) (w : World) (turns : List Turn)
    (last : RevisionsPage)
    (hlast : (read server path org_id limit w 0 turns).getLast? = some (.ok last))
    (hend : last.total ≤ last.offset + last.limit) :
    (∀ row ∈ newest_first w.state.process.ledger last.organization, ∃ shown,
      .ok shown ∈ read server path org_id limit w 0 turns ∧
        map_config_revision_summary row ∈ shown.revisions) ∧
    ∀ shown, .ok shown ∈ read server path org_id limit w 0 turns →
      shown.organization = last.organization ∧ ∀ summary ∈ shown.revisions,
        ∃ row ∈ newest_first (run (next server path) w
            (turns.flatMap (fun turn => turn.before ++ turn.between))).state.process.ledger
          last.organization, map_config_revision_summary row = summary := by
  have hstream := (shown_is_recorded (List.mem_of_getLast? hlast)).1
  constructor
  · intro row hrow
    have hne : found server path last.organization w turns ≠ [] := by
      cases turns with
      | nil => cases hlast
      | cons turn rest => exact List.cons_ne_nil _ _
    have hends := found_ends hstream hlimit hmax hlast hend
      (newest_first w.state.process.ledger last.organization)
    rw [Nat.zero_add, ← found_length] at hends
    obtain ⟨rows, hrows, hin⟩ := all_old_are_read (found_growing _ w turns) hrow hne hends
    obtain ⟨shown, hshown, -, hsame⟩ := shown_of_window hstream hlimit hmax hrows
    exact ⟨shown, hshown, hsame ▸ List.mem_map_of_mem hin⟩
  · intro shown hshown
    obtain ⟨hsame, hrows⟩ := shown_is_recorded hshown
    have horg : shown.organization = last.organization := by
      unfold Resolves at hsame hstream
      split at hsame
      · exact hsame.trans hstream.symm
      · obtain ⟨org, horg, hid⟩ := hsame
        obtain ⟨org', horg', hid'⟩ := hstream
        obtain rfl := Except.ok.inj (horg.symm.trans horg')
        exact hid.trans hid'.symm
    exact ⟨horg, horg ▸ hrows⟩

/-- Another document is applied between the two reads of the first request. -/
def two_turns : List Turn := [⟨[], [.Apply {} .Absent atomic.bell_text none]⟩, ⟨[], []⟩]

/-- The row that was there first is shown twice, and the new one not at all. -/
def second_answer : RevisionsPage where
  organization := none
  revisions := [⟨1, atomic.bus_text, none, "", none, none, .Applied, none, none⟩]
  total := 2
  limit := 1
  offset := 1

theorem reading_to_the_end_shows_every_revision_here :
    (∀ row ∈ newest_first reading_room.state.process.ledger none, ∃ shown,
      .ok shown ∈ read one_bell "app.toml" none 1 reading_room 0 two_turns ∧
        map_config_revision_summary row ∈ shown.revisions) ∧
    ∀ shown, .ok shown ∈ read one_bell "app.toml" none 1 reading_room 0 two_turns →
      shown.organization = none ∧ ∀ summary ∈ shown.revisions,
        ∃ row ∈ newest_first (run (next one_bell "app.toml") reading_room
            (two_turns.flatMap (fun turn => turn.before ++ turn.between))).state.process.ledger
          none, map_config_revision_summary row = summary :=
  reading_to_the_end_shows_every_revision one_bell "app.toml" none 1 (by decide) (by decide)
    reading_room two_turns second_answer (by decide +kernel) (by decide)

end xrelease.history
