-- The ways in which an apply ends, and what each of them leaves: nothing but a rejected attempt,
-- sealed secrets, pruned ones, a swapped runtime, a runtime swapped back, a new revision.
import Xrelease.Apply

namespace xrelease.outcomes

open xrelease.config xrelease.config_apply text

/-! ## The parts -/

theorem apply_runtime_ok_iff (server : Server) (process process' : Process) (config : Config) :
    apply_runtime server process config = .ok process' ↔
      ∃ watches sinks,
        to_watches server.makers server.setup.env process.secrets.vault config = .ok watches ∧
        build_notifiers server.makers server.setup.env process.secrets.vault config =
          .ok sinks ∧
        process' = { process with effective := config, sinks, watches } := by
  unfold apply_runtime
  cases to_watches server.makers server.setup.env process.secrets.vault config with
  | error err => simp [bind, Except.bind]
  | ok watches =>
    cases build_notifiers server.makers server.setup.env process.secrets.vault config with
    | error err => simp [bind, Except.bind]
    | ok sinks => simp [bind, Except.bind, pure, Except.pure, eq_comm]

/-- The secrets with the writes of the candidate sealed. -/
def sealed (server : Server) (process : Process) (candidate : ScopedCandidate) : SecretStore :=
  candidate.secret_writes.foldl (upsert_app_secret server.setup.sha256) process.secrets

/-- And the stale names dropped. -/
def pruned (server : Server) (process : Process) (candidate : ScopedCandidate)
    (stale : List String) : SecretStore :=
  stale.foldl delete_app_secret (sealed server process candidate)

/-- The writes go through. -/
def Seals (server : Server) (faults : Faults) (candidate : ScopedCandidate) : Prop :=
  candidate.secret_writes = [] ∨ server.sealable = true ∧ faults.upsert = none

/-- These names are found stale, and their rows go. -/
def Prunes (server : Server) (faults : Faults) (process : Process) (scope : ApplyScope)
    (candidate : ScopedCandidate) (stale : List String) : Prop :=
  stale_names server faults process scope candidate.secret_env_refs = .ok stale ∧
    (stale = [] ∨ faults.delete = none)

theorem stale_names_secrets (server : Server) (faults : Faults) (process : Process)
    (secrets : SecretStore) (scope : ApplyScope) (next_refs : List String) :
    stale_names server faults { process with secrets } scope next_refs =
      stale_names server faults process scope next_refs := by
  cases scope <;> rfl

variable {server : Server} {faults : Faults} {candidate : ScopedCandidate} {process : Process}
  {hint : Option DesiredFormat}

theorem upsert_of_seals (h : Seals server faults candidate) (process : Process) :
    upsert_app_secrets server faults.upsert process.secrets candidate.secret_writes =
      (.ok (), sealed server process candidate) := by
  unfold upsert_app_secrets sealed
  by_cases hnil : candidate.secret_writes = []
  · simp [hnil]
  · obtain ⟨hkey, hfault⟩ := h.resolve_left hnil
    simp [hnil, hkey, hfault]

theorem upsert_of_not_seals (h : ¬ Seals server faults candidate) (process : Process) :
    ∃ err vault, upsert_app_secrets server faults.upsert process.secrets candidate.secret_writes =
      (.error err, ⟨vault, process.secrets.app_secret⟩) := by
  unfold Seals at h
  rw [not_or, not_and_or] at h
  obtain ⟨hnil, h⟩ := h
  unfold upsert_app_secrets
  rw [if_neg hnil]
  by_cases hkey : server.sealable = true
  · obtain ⟨fault, hfault⟩ := Option.ne_none_iff_exists'.mp (h.resolve_left (not_not.mpr hkey))
    rw [hkey, hfault]
    exact ⟨_, _, rfl⟩
  · rw [Bool.not_eq_true] at hkey
    rw [hkey]
    exact ⟨_, process.secrets.vault, rfl⟩

theorem delete_cases (fault : Option (Nat × String)) (store : SecretStore) (names : List String) :
    (names = [] ∨ fault = none) ∧
        delete_app_secrets fault store names = (.ok (), names.foldl delete_app_secret store) ∨
      ¬ (names = [] ∨ fault = none) ∧
        ∃ err vault, delete_app_secrets fault store names =
          (.error err, ⟨vault, store.app_secret⟩) := by
  unfold delete_app_secrets
  by_cases hnil : names = []
  · subst hnil
    exact Or.inl ⟨Or.inl rfl, rfl⟩
  · cases fault with
    | none => exact Or.inl ⟨Or.inr rfl, by simp [hnil]⟩
    | some fault =>
      refine Or.inr ⟨by simp [hnil], ?_⟩
      rw [if_neg hnil]
      exact ⟨_, _, rfl⟩

/-- Of the secrets an apply keeps all, or fails before or after the writes. -/
theorem keep_secrets_cases (server : Server) (faults : Faults) (process : Process)
    (scope : ApplyScope) (candidate : ScopedCandidate) :
    (∃ err vault, keep_secrets server faults process scope candidate =
        (.error err, { process with secrets := ⟨vault, process.secrets.app_secret⟩ }) ∧
      ¬ Seals server faults candidate) ∨
    (∃ err vault, keep_secrets server faults process scope candidate =
        (.error err, { process with
          secrets := ⟨vault, (sealed server process candidate).app_secret⟩ }) ∧
      Seals server faults candidate ∧
      ∀ stale, ¬ Prunes server faults process scope candidate stale) ∨
    (∃ stale, keep_secrets server faults process scope candidate =
        (.ok (), { process with secrets := pruned server process candidate stale }) ∧
      Seals server faults candidate ∧ Prunes server faults process scope candidate stale) := by
  unfold keep_secrets
  by_cases hs : Seals server faults candidate
  · right
    rw [upsert_of_seals hs]
    simp only [prune_stale_app_secrets, stale_names_secrets]
    cases hstale : stale_names server faults process scope candidate.secret_env_refs with
    | error err =>
      refine Or.inl ⟨err, _, rfl, hs, ?_⟩
      rintro stale ⟨h, -⟩
      rw [hstale] at h
      simp at h
    | ok stale =>
      rcases delete_cases faults.delete (sealed server process candidate) stale with
        ⟨hp, hdelete⟩ | ⟨hp, err, vault, hdelete⟩
      · refine Or.inr ⟨stale, ?_, hs, hstale, hp⟩
        simp only [hdelete]
        rfl
      · refine Or.inl ⟨.Failed ("pruning stale app secrets: " ++ err), vault, by simp only [hdelete],
          hs, ?_⟩
        rintro stale' ⟨h, hp'⟩
        rw [hstale] at h
        obtain rfl := Except.ok.inj h
        exact hp hp'
  · obtain ⟨err, vault, hup⟩ := upsert_of_not_seals hs process
    rw [hup]
    exact Or.inl ⟨_, vault, rfl, hs⟩

/-! ## What a candidate is made of -/

theorem rejecting_ok_iff {α : Type} (x : Except String α) (a : α) :
    rejecting x = .ok a ↔ x = .ok a := by
  cases x <;> simp [rejecting]

theorem failing_ok_iff {α : Type} (x : Except String α) (a : α) :
    failing x = .ok a ↔ x = .ok a := by
  cases x <;> simp [failing]

theorem bind_ok_iff {ε α β : Type} (x : Except ε α) (f : α → Except ε β) (b : β) :
    x >>= f = .ok b ↔ ∃ a, x = .ok a ∧ f a = .ok b := by
  cases x <;> simp [bind, Except.bind]

theorem mapM_cons_ok_iff {ε α β : Type} {f : α → Except ε β} {a : α} {l : List α} {out : List β} :
    (a :: l).mapM f = .ok out ↔ ∃ b, f a = .ok b ∧ ∃ bs, l.mapM f = .ok bs ∧ b :: bs = out := by
  simp only [List.mapM_cons, bind_ok_iff, pure, Except.pure, Except.ok.injEq]

theorem mapM_each {α β ε : Type} {f : α → Except ε β} {l : List α} {out : List β}
    (h : l.mapM f = .ok out) : ∀ a ∈ l, ∃ b, f a = .ok b := by
  induction l generalizing out with
  | nil => simp
  | cons a rest ih =>
    obtain ⟨b, hf, bs, hr, -⟩ := mapM_cons_ok_iff.mp h
    exact List.forall_mem_cons.mpr ⟨⟨b, hf⟩, ih hr⟩

theorem refusing_ok_iff (fault : Option String) (u : Unit) :
    refusing fault = .ok u ↔ fault = none := by
  cases fault <;> simp [refusing]

/-- The document of a candidate for the whole instance, before its secrets move. -/
def whole_desired (server : Server) (process : Process) (parsed : Config) : Config :=
  desired_state_for_ledger (restore_redacted_secrets process.effective
    (apply_env_overrides server.setup.env
      (merge_bootstrap_over_desired server.bootstrap parsed)))

theorem resolved_whole {raw : String}
    (h : resolve_scoped_candidate server faults process .Whole raw hint = .ok candidate) :
    ∃ parsed desired,
      parse_desired_document_with_hint server.setup.codec raw hint = .ok parsed ∧
      ensure_desired_only parsed = .ok () ∧
      desired = (normalize_secrets_to_refs server.order
        (whole_desired server process parsed) none).1 ∧
      serialize_desired_only_strict server.setup.codec (hint.getD (detect_desired_format raw))
        desired = .ok candidate.ledger_raw ∧
      candidate.ledger_sha = server.setup.sha256 candidate.ledger_raw ∧
      candidate.merged =
        { apply_env_overrides server.setup.env
            (merge_bootstrap_over_desired server.bootstrap parsed) with
          defaults := desired.defaults
          notifiers := desired.notifiers
          teams := desired.teams
          presets := desired.presets
          sources := desired.sources } ∧
      candidate.secret_writes = (normalize_secrets_to_refs server.order
        (whole_desired server process parsed) none).2 ∧
      candidate.secret_env_refs = collect_secret_env_refs desired := by
  unfold resolve_scoped_candidate at h
  simp only [bind_ok_iff, rejecting_ok_iff, failing_ok_iff, pure, Except.pure,
    Except.ok.injEq] at h
  obtain ⟨merged, hmerged, body, hbody, rfl⟩ := h
  unfold merge_pushed_document at hmerged
  simp only [bind_ok_iff, pure, Except.pure, Except.ok.injEq] at hmerged
  obtain ⟨parsed, hparsed, ⟨⟩, hensure, rfl⟩ := hmerged
  exact ⟨parsed, _, hparsed, hensure, rfl, hbody, rfl, rfl, rfl, rfl⟩

/-- The document of an organization's candidate, before its secrets move. -/
def restored_from (server : Server) (previous_raw : String) (parsed : Config) : Config :=
  match parse_desired_document server.setup.codec previous_raw with
  | .ok previous => restore_redacted_secrets previous parsed
  | .error _ => parsed

theorem resolved_organization {organization raw : String}
    (h : resolve_scoped_candidate server faults process (.Organization organization) raw hint =
      .ok candidate) :
    ∃ parsed org previous_raw desired_source desired composed,
      parse_desired_document_with_hint server.setup.codec raw hint = .ok parsed ∧
      ensure_desired_only parsed = .ok () ∧
      find_organization server.bootstrap organization = .ok org ∧
      organization_desired_raw server.setup.files process.ledger server.bootstrap org =
        .ok (previous_raw, desired_source) ∧
      desired = (normalize_secrets_to_refs server.order
        (restored_from server previous_raw parsed) (some organization)).1 ∧
      serialize_desired_only_strict server.setup.codec (hint.getD (detect_desired_format raw))
        desired = .ok candidate.ledger_raw ∧
      candidate.ledger_sha = server.setup.sha256 candidate.ledger_raw ∧
      compose_organizations server.setup process.ledger server.bootstrap
        (some (organization, candidate.ledger_raw)) = .ok composed ∧
      candidate.merged = composed.merged ∧
      candidate.secret_writes = (normalize_secrets_to_refs server.order
        (restored_from server previous_raw parsed) (some organization)).2 ∧
      candidate.secret_env_refs = collect_secret_env_refs desired := by
  unfold resolve_scoped_candidate at h
  simp only [bind_ok_iff, failing_ok_iff, refusing_ok_iff, pure, Except.pure,
    Except.ok.injEq] at h
  obtain ⟨restored, hrestored, body, hbody, -, -, composed, hcomposed, rfl⟩ := h
  unfold restore_org_candidate at hrestored
  simp only [bind_ok_iff, rejecting_ok_iff] at hrestored
  obtain ⟨parsed, hparsed, ⟨⟩, hensure, hrestored⟩ := hrestored
  split at hrestored
  · simp at hrestored
  · simp only [bind_ok_iff, failing_ok_iff, refusing_ok_iff, pure, Except.pure,
      Except.ok.injEq] at hrestored
    obtain ⟨org, horg, -, -, ⟨previous_raw, desired_source⟩, hprevious, -, -, hrestored⟩ :=
      hrestored
    have hdocument : restored = restored_from server previous_raw parsed := hrestored.symm
    subst hdocument
    exact ⟨parsed, org, previous_raw, desired_source, _, composed, hparsed, hensure, horg,
      hprevious, rfl, hbody, rfl, hcomposed, rfl, rfl, rfl⟩

theorem find_organization_ok {bootstrap : Config} {organization : String}
    {org : OrganizationConfig} (h : find_organization bootstrap organization = .ok org) :
    org ∈ bootstrap.organizations ∧ org.id = organization := by
  unfold find_organization at h
  split at h
  · rename_i found hfound
    obtain rfl := Except.ok.inj h
    exact ⟨List.mem_of_find?_eq_some hfound, by simpa using List.find?_some hfound⟩
  · simp at h

/-! ## The outcomes -/

/-- The document that the stream runs has this digest. -/
def IsCurrent (process : Process) (scope : ApplyScope) (sha : String) : Prop :=
  ∃ current, latest_applied_config_revision process.ledger scope.ledger_stream = some current ∧
    current.content_sha256 = sha

/-- The call gets as far as to keep the secrets of this candidate. -/
structure Reaches (server : Server) (faults : Faults) (process : Process) (scope : ApplyScope)
    (raw : String) (hint : Option DesiredFormat) (candidate : ScopedCandidate) : Prop where
  latest : faults.latest = none
  pushed : ¬ IsCurrent process scope (server.setup.sha256 raw)
  resolved : resolve_scoped_candidate server faults process scope raw hint = .ok candidate
  rotates : IsCurrent process scope candidate.ledger_sha →
    effective_secret_rotations process.secrets.vault candidate.secret_writes ≠ []
  valid : (server.validate_full process.secrets.vault candidate.merged).valid = true

/-- The row of an applied revision. -/
def applied_row (faults : Faults) (process : Process) (scope : ApplyScope)
    (candidate : ScopedCandidate) : ConfigRevision where
  id := next_id faults process
  content := candidate.ledger_raw
  content_sha256 := candidate.ledger_sha
  status := .Applied
  organization_id := scope.ledger_stream
  revision_label := faults.origin.revision_label
  applied_by := faults.origin.applied_by
  source_addr := faults.origin.source_addr
  applied_at := faults.applied_at

/-- What a call answers and leaves. -/
inductive Outcome (server : Server) (faults : Faults) (process : Process) (scope : ApplyScope)
    (raw : String) (hint : Option DesiredFormat) :
    Except ApplyError ApplyResponse → Process → Prop where
  /-- An error before any write but that of a rejected attempt. -/
  | refused (err : ApplyError) (rows : List ConfigRevision)
      (unreached : ∀ candidate, ¬ Reaches server faults process scope raw hint candidate)
      (rejected : ∀ row ∈ rows, row.status = .Rejected) :
      Outcome server faults process scope raw hint (.error err)
        { process with ledger := process.ledger ++ rows }
  /-- The document is the one that is applied already. -/
  | unchanged (response : ApplyResponse) (applied : response.applied = false)
      (unreached : ∀ candidate, ¬ Reaches server faults process scope raw hint candidate) :
      Outcome server faults process scope raw hint (.ok response) process
  | not_sealed (candidate : ScopedCandidate) (err : ApplyError) (vault : String → Option String)
      (reached : Reaches server faults process scope raw hint candidate)
      (unsealed : ¬ Seals server faults candidate) :
      Outcome server faults process scope raw hint (.error err)
        { process with secrets := ⟨vault, process.secrets.app_secret⟩ }
  | not_pruned (candidate : ScopedCandidate) (err : ApplyError) (vault : String → Option String)
      (reached : Reaches server faults process scope raw hint candidate)
      (seals : Seals server faults candidate)
      (unpruned : ∀ stale, ¬ Prunes server faults process scope candidate stale) :
      Outcome server faults process scope raw hint (.error err)
        { process with secrets := ⟨vault, (sealed server process candidate).app_secret⟩ }
  /-- The body is the current one and only secrets were kept. -/
  | rotated (candidate : ScopedCandidate) (stale : List String) (response : ApplyResponse)
      (reached : Reaches server faults process scope raw hint candidate)
      (current : IsCurrent process scope candidate.ledger_sha)
      (seals : Seals server faults candidate)
      (prunes : Prunes server faults process scope candidate stale)
      (applied : response.applied = true) :
      Outcome server faults process scope raw hint (.ok response)
        { process with secrets := pruned server process candidate stale }
  | not_swapped (candidate : ScopedCandidate) (stale : List String) (err : ApplyError)
      (kept : Process) (kept_eq : kept =
        { process with secrets := pruned server process candidate stale })
      (reached : Reaches server faults process scope raw hint candidate)
      (news : ¬ IsCurrent process scope candidate.ledger_sha)
      (seals : Seals server faults candidate)
      (prunes : Prunes server faults process scope candidate stale)
      (unswapped : ∀ swapped, apply_runtime server kept candidate.merged ≠ .ok swapped) :
      Outcome server faults process scope raw hint (.error err) kept
  /-- The append failed, and the runtime was swapped back. -/
  | swapped_back (candidate : ScopedCandidate) (stale : List String) (err : ApplyError)
      (kept swapped back : Process) (kept_eq : kept =
        { process with secrets := pruned server process candidate stale })
      (reached : Reaches server faults process scope raw hint candidate)
      (news : ¬ IsCurrent process scope candidate.ledger_sha)
      (seals : Seals server faults candidate)
      (prunes : Prunes server faults process scope candidate stale)
      (swaps : apply_runtime server kept candidate.merged = .ok swapped)
      (unrecorded : faults.insert ≠ none)
      (swaps_back : apply_runtime server swapped process.effective = .ok back) :
      Outcome server faults process scope raw hint (.error err) back
  /-- The append failed, and so did swapping back. -/
  | stuck (candidate : ScopedCandidate) (stale : List String) (err : ApplyError)
      (kept swapped : Process) (kept_eq : kept =
        { process with secrets := pruned server process candidate stale })
      (reached : Reaches server faults process scope raw hint candidate)
      (news : ¬ IsCurrent process scope candidate.ledger_sha)
      (seals : Seals server faults candidate)
      (prunes : Prunes server faults process scope candidate stale)
      (swaps : apply_runtime server kept candidate.merged = .ok swapped)
      (unrecorded : faults.insert ≠ none)
      (stays : ∀ back, apply_runtime server swapped process.effective ≠ .ok back) :
      Outcome server faults process scope raw hint (.error err) swapped
  | recorded (candidate : ScopedCandidate) (stale : List String) (response : ApplyResponse)
      (kept swapped : Process) (kept_eq : kept =
        { process with secrets := pruned server process candidate stale })
      (reached : Reaches server faults process scope raw hint candidate)
      (news : ¬ IsCurrent process scope candidate.ledger_sha)
      (seals : Seals server faults candidate)
      (prunes : Prunes server faults process scope candidate stale)
      (swaps : apply_runtime server kept candidate.merged = .ok swapped)
      (inserts : faults.insert = none) (applied : response.applied = true) :
      Outcome server faults process scope raw hint (.ok response)
        { swapped with ledger := swapped.ledger ++ [applied_row faults process scope candidate] }

theorem current_filter (process : Process) (scope : ApplyScope) (sha : String) :
    (IsCurrent process scope sha ∧ ∃ current,
        (latest_applied_config_revision process.ledger scope.ledger_stream).filter
          (fun current => current.content_sha256 = sha) = some current) ∨
      (¬ IsCurrent process scope sha ∧
        (latest_applied_config_revision process.ledger scope.ledger_stream).filter
          (fun current => current.content_sha256 = sha) = none) := by
  unfold IsCurrent
  cases latest_applied_config_revision process.ledger scope.ledger_stream with
  | none => simp
  | some current =>
    by_cases h : current.content_sha256 = sha <;> simp [h, Option.filter]

/-- A rejection leaves a rejected row, or nothing where the append fails. -/
theorem reject_document_cases (server : Server) (faults : Faults) (process : Process)
    (scope : ApplyScope) (raw : String) (error : ApplyError) :
    ∃ err rows, reject_document server faults process scope raw error =
        (.error err, { process with ledger := process.ledger ++ rows }) ∧
      ∀ row ∈ rows, row.status = .Rejected := by
  unfold reject_document record_attempt
  cases error with
  | DocumentRejected err =>
    cases faults.insert with
    | some fault => exact ⟨_, [], by simp only [List.append_nil]; rfl, by simp⟩
    | none => exact ⟨_, _, rfl, by simp⟩
  | _ => exact ⟨_, [], by simp only [List.append_nil]; rfl, by simp⟩

theorem reject_invalid_cases (faults : Faults) (process : Process) (scope : ApplyScope)
    (candidate : ScopedCandidate) (report : ValidationReport) :
    ∃ err rows, reject_invalid faults process scope candidate report =
        (.error err, { process with ledger := process.ledger ++ rows }) ∧
      ∀ row ∈ rows, row.status = .Rejected := by
  unfold reject_invalid record_attempt
  cases faults.insert with
  | some fault => exact ⟨_, [], by simp only [List.append_nil]; rfl, by simp⟩
  | none => exact ⟨_, _, rfl, by simp⟩

theorem apply_runtime_keeps {process' : Process} {config : Config}
    (h : apply_runtime server process config = .ok process') :
    process'.secrets = process.secrets ∧ process'.ledger = process.ledger ∧
      process'.effective = config := by
  obtain ⟨_, _, -, -, rfl⟩ := (apply_runtime_ok_iff _ _ _ _).mp h
  exact ⟨rfl, rfl, rfl⟩

/-- A document that does not validate is refused. -/
theorem outcome_invalid (hresolved : resolve_scoped_candidate server faults process scope raw hint =
      .ok candidate)
    (hvalid : (server.validate_full process.secrets.vault candidate.merged).valid = false) :
    Outcome server faults process scope raw hint
      (reject_invalid faults process scope candidate
        (server.validate_full process.secrets.vault candidate.merged)).1
      (reject_invalid faults process scope candidate
        (server.validate_full process.secrets.vault candidate.merged)).2 := by
  obtain ⟨err, rows, hreject, hrows⟩ := reject_invalid_cases faults process scope candidate
    (server.validate_full process.secrets.vault candidate.merged)
  rw [hreject]
  refine .refused _ _ (fun c hc => ?_) hrows
  obtain rfl := Except.ok.inj (hc.resolved.symm.trans hresolved)
  simp [hc.valid] at hvalid

/-- Once the secrets are kept, the swap and the append decide. -/
theorem outcome_swapped {stale : List String}
    (hreach : Reaches server faults process scope raw hint candidate)
    (hnews : ¬ IsCurrent process scope candidate.ledger_sha)
    (hs : Seals server faults candidate) (hp : Prunes server faults process scope candidate stale)
    (diff : ConfigDiff) (warnings : List String) :
    Outcome server faults process scope raw hint
      (swap_and_record server faults process.effective
        { process with secrets := pruned server process candidate stale } scope candidate diff
        warnings).1
      (swap_and_record server faults process.effective
        { process with secrets := pruned server process candidate stale } scope candidate diff
        warnings).2 := by
  unfold swap_and_record
  cases hswap : apply_runtime server
      { process with secrets := pruned server process candidate stale } candidate.merged with
  | error err => exact .not_swapped candidate stale _ _ rfl hreach hnews hs hp (by simp [hswap])
  | ok swapped =>
    simp only
    obtain ⟨-, hledger, -⟩ := apply_runtime_keeps hswap
    unfold record_attempt
    cases hinsert : faults.insert with
    | none =>
      simp only
      have hrow : applied_row faults process scope candidate =
          { id := next_id faults swapped, content := candidate.ledger_raw,
            content_sha256 := candidate.ledger_sha, status := .Applied,
            organization_id := scope.ledger_stream,
            revision_label := faults.origin.revision_label,
            applied_by := faults.origin.applied_by,
            source_addr := faults.origin.source_addr,
            applied_at := faults.applied_at } := by
        unfold next_id
        rw [hledger]
        rfl
      rw [← hrow]
      exact .recorded candidate stale _ _ swapped rfl hreach hnews hs hp hswap hinsert rfl
    | some fault =>
      simp only
      cases hback : apply_runtime server swapped process.effective with
      | ok back =>
        exact .swapped_back candidate stale _ _ swapped back rfl hreach hnews hs hp hswap
          (by simp [hinsert]) hback
      | error err =>
        exact .stuck candidate stale _ _ swapped rfl hreach hnews hs hp hswap (by simp [hinsert])
          (by simp [hback])

/-- An apply has one of the outcomes. -/
theorem apply_outcome (server : Server) (faults : Faults) (process : Process) (scope : ApplyScope)
    (raw : String) (hint : Option DesiredFormat) :
    Outcome server faults process scope raw hint
      (apply_document server faults process scope raw hint).1
      (apply_document server faults process scope raw hint).2 := by
  unfold apply_document
  cases hlatest : faults.latest with
  | some err =>
    simp only
    have hout : Outcome server faults process scope raw hint (.error (.Failed err))
        { process with ledger := process.ledger ++ [] } :=
      .refused _ [] (fun c hc => by simp [hc.latest] at hlatest) (by simp)
    rwa [List.append_nil] at hout
  | none =>
    simp only
    rcases current_filter process scope (server.setup.sha256 raw) with
      ⟨hpushed, current, hcurrent⟩ | ⟨hpushed, hcurrent⟩
    · rw [hcurrent]
      exact .unchanged _ rfl (fun c hc => hc.pushed hpushed)
    · rw [hcurrent]
      simp only
      cases hresolved : resolve_scoped_candidate server faults process scope raw hint with
      | error error =>
        obtain ⟨err, rows, hreject, hrows⟩ :=
          reject_document_cases server faults process scope raw error
        simp only [hreject]
        exact .refused _ _ (fun c hc => by simp [hc.resolved] at hresolved) hrows
      | ok candidate =>
        simp only
        rcases current_filter process scope candidate.ledger_sha with
          ⟨hnews, current, hcurrent'⟩ | ⟨hnews, hcurrent'⟩
        · rw [hcurrent']
          simp only
          split
          · rename_i hrotations
            refine .unchanged _ rfl (fun c hc => ?_)
            obtain rfl := Except.ok.inj (hc.resolved.symm.trans hresolved)
            exact hc.rotates hnews hrotations
          · rename_i hrotations
            split
            · rename_i hvalid
              exact outcome_invalid hresolved hvalid
            · rename_i hvalid
              have hreach : Reaches server faults process scope raw hint candidate :=
                ⟨hlatest, hpushed, hresolved, fun _ => hrotations, by simpa using hvalid⟩
              rcases keep_secrets_cases server faults process scope candidate with
                ⟨err, vault, hkeep, hs⟩ | ⟨err, vault, hkeep, hs, hp⟩ | ⟨stale, hkeep, hs, hp⟩
              · rw [hkeep]
                exact .not_sealed candidate _ vault hreach hs
              · rw [hkeep]
                exact .not_pruned candidate _ vault hreach hs hp
              · rw [hkeep]
                exact .rotated candidate stale _ hreach hnews hs hp rfl
        · rw [hcurrent']
          simp only
          split
          · rename_i hvalid
            exact outcome_invalid hresolved hvalid
          · rename_i hvalid
            have hreach : Reaches server faults process scope raw hint candidate :=
              ⟨hlatest, hpushed, hresolved, fun h => absurd h hnews, by simpa using hvalid⟩
            rcases keep_secrets_cases server faults process scope candidate with
              ⟨err, vault, hkeep, hs⟩ | ⟨err, vault, hkeep, hs, hp⟩ | ⟨stale, hkeep, hs, hp⟩
            · rw [hkeep]
              exact .not_sealed candidate _ vault hreach hs
            · rw [hkeep]
              exact .not_pruned candidate _ vault hreach hs hp
            · rw [hkeep]
              exact outcome_swapped hreach hnews hs hp _ _

theorem reaches_unique {scope : ApplyScope} {raw : String} {candidate' : ScopedCandidate}
    (h : Reaches server faults process scope raw hint candidate)
    (h' : Reaches server faults process scope raw hint candidate') : candidate' = candidate :=
  Except.ok.inj (h'.resolved.symm.trans h.resolved)

theorem prunes_unique {scope : ApplyScope} {stale stale' : List String}
    (h : Prunes server faults process scope candidate stale)
    (h' : Prunes server faults process scope candidate stale') : stale' = stale :=
  Except.ok.inj (h'.1.symm.trans h.1)

/-- The table of secrets is as it was, or with the writes in it, or with the stale names out of it
as well. -/
theorem table_of_outcome {scope : ApplyScope} {raw : String}
    {answer : Except ApplyError ApplyResponse} {process' : Process}
    (h : Outcome server faults process scope raw hint answer process') :
    ((∀ candidate, Reaches server faults process scope raw hint candidate →
        ¬ Seals server faults candidate) ∧
      process'.secrets.app_secret = process.secrets.app_secret) ∨
    (∃ candidate, Reaches server faults process scope raw hint candidate ∧
      Seals server faults candidate ∧
      (∀ stale, ¬ Prunes server faults process scope candidate stale) ∧
      process'.secrets.app_secret = (sealed server process candidate).app_secret) ∨
    (∃ candidate stale, Reaches server faults process scope raw hint candidate ∧
      Seals server faults candidate ∧ Prunes server faults process scope candidate stale ∧
      process'.secrets = pruned server process candidate stale) := by
  cases h with
  | refused err rows unreached rejected =>
    exact Or.inl ⟨fun c hc => absurd hc (unreached c), rfl⟩
  | unchanged response applied unreached =>
    exact Or.inl ⟨fun c hc => absurd hc (unreached c), rfl⟩
  | not_sealed candidate err vault reached unsealed =>
    refine Or.inl ⟨fun c hc => ?_, rfl⟩
    obtain rfl := reaches_unique reached hc
    exact unsealed
  | not_pruned candidate err vault reached seals unpruned =>
    exact Or.inr (Or.inl ⟨candidate, reached, seals, unpruned, rfl⟩)
  | rotated candidate stale response reached current seals prunes applied =>
    exact Or.inr (Or.inr ⟨candidate, stale, reached, seals, prunes, rfl⟩)
  | not_swapped candidate stale err kept kept_eq reached news seals prunes unswapped =>
    subst kept_eq
    exact Or.inr (Or.inr ⟨candidate, stale, reached, seals, prunes, rfl⟩)
  | swapped_back candidate stale err kept swapped back kept_eq reached news seals prunes swaps
      unrecorded swaps_back =>
    subst kept_eq
    exact Or.inr (Or.inr ⟨candidate, stale, reached, seals, prunes,
      (apply_runtime_keeps swaps_back).1.trans (apply_runtime_keeps swaps).1⟩)
  | stuck candidate stale err kept swapped kept_eq reached news seals prunes swaps unrecorded
      stays =>
    subst kept_eq
    exact Or.inr (Or.inr ⟨candidate, stale, reached, seals, prunes,
      (apply_runtime_keeps swaps).1⟩)
  | recorded candidate stale response kept swapped kept_eq reached news seals prunes swaps inserts
      applied =>
    subst kept_eq
    exact Or.inr (Or.inr ⟨candidate, stale, reached, seals, prunes,
      (apply_runtime_keeps swaps).1⟩)

end xrelease.outcomes
