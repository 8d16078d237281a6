-- The answers of applies, rollbacks and reloads as a client follows them (`config_apply/diff.rs`,
-- `api/config.rs`): every answer names the sources that it adds, removes and changes, and whoever
-- carries these out on the ids that ran at first knows the ids that run.
import Xrelease.Requests
import Xrelease.Trace

namespace xrelease.diffs

open xrelease.config xrelease.config_apply xrelease.outcomes xrelease.requests xrelease.api keyed
  trace

/-! ## The ids of a configuration -/

variable {env vault : String → Option String} {server : Server} {process : Process}

/-- Ids come from the configuration, not from the secrets. -/
theorem watch_of_id {makers : Makers} {defaults : Defaults} {presets : List (String × SourcePreset)}
    {source : SourceConfig} {watch : Watch}
    (h : watch_of makers env vault defaults presets source = .ok watch)
    (vault' : String → Option String) :
    ∃ watch', watch_of makers env vault' defaults presets source = .ok watch' ∧
      watch'.id = watch.id := by
  obtain ⟨built, hbuilt, rfl⟩ := watch_of_ok_iff.mp h
  rw [into_watch_ok_iff, build_watch_ok_iff] at hbuilt
  obtain ⟨hprovider, common, filter, schedule, hcommon, hfilter, hschedule, rfl⟩ := hbuilt
  have hbuilt' := (into_watch_ok_iff makers.readers env vault' source defaults presets _).mpr
    ⟨hprovider, (build_watch_ok_iff ..).mpr ⟨common, filter, schedule, hcommon, hfilter,
      hschedule, rfl⟩⟩
  exact ⟨_, watch_of_ok_iff.mpr ⟨_, hbuilt', rfl⟩, rfl⟩

theorem mapM_ids {makers : Makers} {defaults : Defaults} {presets : List (String × SourcePreset)}
    {sources : List SourceConfig} {watches : List Watch}
    (h : sources.mapM (watch_of makers env vault defaults presets) = .ok watches)
    (vault' : String → Option String) :
    ∃ watches', sources.mapM (watch_of makers env vault' defaults presets) = .ok watches' ∧
      watches'.map (·.id) = watches.map (·.id) := by
  induction sources generalizing watches with
  | nil =>
    obtain rfl := Except.ok.inj h
    exact ⟨[], rfl, rfl⟩
  | cons source rest ih =>
    obtain ⟨watch, hwatch, others, hothers, rfl⟩ := mapM_cons_ok_iff.mp h
    obtain ⟨watch', hwatch', hid⟩ := watch_of_id hwatch vault'
    obtain ⟨others', hothers', hids⟩ := ih hothers
    exact ⟨watch' :: others', mapM_cons_ok_iff.mpr ⟨watch', hwatch', others', hothers', rfl⟩,
      by rw [List.map_cons, List.map_cons, hid, hids]⟩

theorem to_watches_ids {makers : Makers} {config : Config} {watches : List Watch}
    (h : to_watches makers env vault config = .ok watches) (vault' : String → Option String) :
    ∃ watches', to_watches makers env vault' config = .ok watches' ∧
      watches'.map (·.id) = watches.map (·.id) := mapM_ids h vault'

/-- What is compared does not depend on the secrets. -/
theorem source_content_vault (server : Server) (vault vault' : String → Option String)
    (config : Config) : source_content server vault config = source_content server vault' config := by
  unfold source_content
  cases h : to_watches server.makers server.setup.env vault config with
  | ok watches =>
    obtain ⟨watches', h', hids⟩ := to_watches_ids h vault'
    rw [h']
    dsimp only
    rw [hids]
  | error err =>
    cases h' : to_watches server.makers server.setup.env vault' config with
    | error err' => rfl
    | ok watches' =>
      obtain ⟨watches, hw, -⟩ := to_watches_ids h' vault
      rw [h] at hw
      cases hw

theorem mapM_length {ε α β : Type} {f : α → Except ε β} {l : List α} {out : List β}
    (h : l.mapM f = .ok out) : out.length = l.length := by
  induction l generalizing out with
  | nil =>
    obtain rfl := Except.ok.inj h
    rfl
  | cons a rest ih =>
    obtain ⟨b, -, more, hmore, rfl⟩ := mapM_cons_ok_iff.mp h
    rw [List.length_cons, List.length_cons, ih hmore]

/-- The ids that are compared are those of the watches. -/
theorem source_content_ids {config : Config} {watches : List Watch}
    (h : to_watches server.makers server.setup.env vault config = .ok watches) :
    (source_content server vault config).map Prod.fst = watches.map (·.id) := by
  have hlength : watches.length = config.sources.length := mapM_length h
  unfold source_content
  rw [h]
  exact List.map_fst_zip (by simp [hlength])

/-! ## One diff -/

/-- The entry of a source, as the diff looks it up. -/
def configured (server : Server) (vault : String → Option String) (config : Config)
    (id : String) : Option SourceConfig := Table.look id (source_content server vault config).reverse

/-- The diff says something about the source. -/
def Names (d : ConfigDiff) (id : String) : Prop :=
  id ∈ d.added ∨ id ∈ d.removed ∨ id ∈ d.changed

/-- The ids, after what the diff says is done to them. -/
def follow (ids : List String) (d : ConfigDiff) : List String :=
  ids.filter (fun id => id ∉ d.removed) ++ d.added

section

variable (server : Server) (vault : String → Option String) (current next : Config)

theorem configured_isSome_iff (config : Config) (id : String) :
    (configured server vault config id).isSome ↔
      id ∈ (source_content server vault config).map Prod.fst := by
  unfold configured
  rw [Table.look_isSome_iff, List.map_reverse, List.mem_reverse]

theorem mem_added_iff (id : String) :
    id ∈ (ConfigDiff.compute server vault current next).added ↔
      (configured server vault current id).isSome = false ∧
        (configured server vault next id).isSome = true := by
  rw [configured_isSome_iff]
  simp only [ConfigDiff.compute, List.mem_map, List.mem_filter, configured]
  constructor
  · rintro ⟨entry, ⟨hentry, hnone⟩, rfl⟩
    exact ⟨by simpa using hnone, entry, hentry, rfl⟩
  · rintro ⟨hnone, entry, hentry, rfl⟩
    exact ⟨entry, ⟨hentry, by simpa using hnone⟩, rfl⟩

theorem mem_removed_iff (id : String) :
    id ∈ (ConfigDiff.compute server vault current next).removed ↔
      (configured server vault current id).isSome = true ∧
        (configured server vault next id).isSome = false := by
  rw [← Bool.not_eq_true, configured_isSome_iff, configured_isSome_iff]
  simp only [ConfigDiff.compute, List.mem_map, List.mem_filter, Bool.not_eq_true',
    List.any_eq_false, beq_iff_eq]
  constructor
  · rintro ⟨entry, ⟨hentry, hnot⟩, rfl⟩
    refine ⟨⟨entry, hentry, rfl⟩, ?_⟩
    rintro ⟨other, hother, hsame⟩
    exact hnot other hother hsame
  · rintro ⟨⟨entry, hentry, rfl⟩, hnot⟩
    exact ⟨entry, ⟨hentry, fun other hother hsame => hnot ⟨other, hother, hsame⟩⟩, rfl⟩

/-- What the diff does not name is as it was. -/
theorem configured_of_not_named {id : String}
    (h : ¬ Names (ConfigDiff.compute server vault current next) id) :
    configured server vault next id = configured server vault current id := by
  have hadded : id ∉ (ConfigDiff.compute server vault current next).added :=
    fun hm => h (Or.inl hm)
  have hremoved : id ∉ (ConfigDiff.compute server vault current next).removed :=
    fun hm => h (Or.inr (Or.inl hm))
  have hchanged : id ∉ (ConfigDiff.compute server vault current next).changed :=
    fun hm => h (Or.inr (Or.inr hm))
  rw [mem_added_iff] at hadded
  rw [mem_removed_iff] at hremoved
  cases hnext : configured server vault next id with
  | none =>
    cases hcurrent : configured server vault current id with
    | none => rfl
    | some old => simp [hnext, hcurrent] at hremoved
  | some new =>
    cases hcurrent : configured server vault current id with
    | none => simp [hnext, hcurrent] at hadded
    | some old =>
      have hmem : (id, new) ∈ source_content server vault next :=
        List.mem_reverse.mp (Table.mem_of_look hnext)
      by_contra hdiffers
      refine hchanged (List.mem_map.mpr ⟨(id, new), List.mem_filter.mpr ⟨hmem, ?_⟩, rfl⟩)
      have hlook : Table.look id (source_content server vault current).reverse = some old :=
        hcurrent
      have hold : old ≠ new := fun hsame => hdiffers (by rw [hsame])
      dsimp only
      rw [hlook]
      simpa using hold

/-- Whoever knows the ids before knows them after. -/
theorem mem_follow_iff {ids : List String}
    (h : ∀ id, id ∈ ids ↔ (configured server vault current id).isSome = true) (id : String) :
    id ∈ follow ids (ConfigDiff.compute server vault current next) ↔
      (configured server vault next id).isSome = true := by
  unfold follow
  rw [List.mem_append, List.mem_filter, h, mem_added_iff, decide_eq_true_eq, mem_removed_iff]
  cases (configured server vault current id).isSome <;>
    cases (configured server vault next id).isSome <;> simp

end

/-! ## What an answer says -/

/-- What the answer of an apply says of the sources. -/
def applied_diff {ε : Type} : Except ε ApplyResponse → Option ConfigDiff
  | .ok response =>
    some ⟨response.sources_added, response.sources_removed, response.sources_changed⟩
  | .error _ => none

def reloaded_diff {ε : Type} : Except ε ReloadResponse → Option ConfigDiff
  | .ok response =>
    some ⟨response.sources_added, response.sources_removed, response.sources_changed⟩
  | .error _ => none

/-- What the answer to an event says of the sources. -/
def answered (server : Server) (path : String) (w : World) (event : Event) : Option ConfigDiff :=
  let server := at_files server w.files
  match event with
  | .Edit _ _ => none
  | .Read => none
  | .Reload index fault =>
    (w.waiting[index]?).bind (fun reading =>
      reloaded_diff (reload_locked server path fault w.state reading).1)
  | .Apply faults if_match raw hint =>
    applied_diff (post_apply server faults w.state if_match raw hint).1
  | .Rollback faults => applied_diff (post_rollback server faults w.state).1
  | .OrgApply faults org_id if_match raw hint =>
    applied_diff (post_org_apply server faults w.state org_id if_match raw hint).1
  | .OrgRollback faults org_id =>
    applied_diff (post_org_rollback server faults w.state org_id).1

/-- What is answered fits what happens to the configuration that runs. -/
inductive Follows (server : Server) : Option ConfigDiff → Process → Process → Prop where
  | stays {answer : Option ConfigDiff} {process process' : Process}
      (silent : ∀ d, answer = some d → d = ⟨[], [], []⟩)
      (effective : process'.effective = process.effective)
      (watches : process'.watches = process.watches) : Follows server answer process process'
  | swaps {process : Process} (process' : Process) (vault vault' : String → Option String)
      (builds : to_watches server.makers server.setup.env vault' process'.effective =
        .ok process'.watches) :
      Follows server (some (.compute server vault process.effective process'.effective)) process
        process'

theorem Follows.refused {process' : Process} (effective : process'.effective = process.effective)
    (watches : process'.watches = process.watches) : Follows server none process process' :=
  .stays (by simp) effective watches

theorem apply_runtime_builds {swapped : Process} {config : Config}
    (h : apply_runtime server process config = .ok swapped) :
    swapped.effective = config ∧
      to_watches server.makers server.setup.env process.secrets.vault config =
        .ok swapped.watches := by
  obtain ⟨_, _, hwatches, -, rfl⟩ := (apply_runtime_ok_iff _ _ _ _).mp h
  exact ⟨rfl, hwatches⟩

theorem keep_secrets_runs (server : Server) (faults : Faults) (process : Process)
    (scope : ApplyScope) (candidate : ScopedCandidate) :
    (keep_secrets server faults process scope candidate).2.effective = process.effective ∧
      (keep_secrets server faults process scope candidate).2.watches = process.watches := by
  rcases keep_secrets_cases server faults process scope candidate with
    ⟨_, _, hkeep, -⟩ | ⟨_, _, hkeep, -, -⟩ | ⟨_, hkeep, -, -⟩ <;> rw [hkeep] <;> exact ⟨rfl, rfl⟩

theorem reject_document_follows (server : Server) (faults : Faults) (process : Process)
    (scope : ApplyScope) (raw : String) (error : ApplyError) :
    Follows server (applied_diff (reject_document server faults process scope raw error).1) process
      (reject_document server faults process scope raw error).2 := by
  obtain ⟨err, rows, hreject, -⟩ := reject_document_cases server faults process scope raw error
  rw [hreject]
  exact .refused rfl rfl

theorem reject_invalid_follows (server : Server) (faults : Faults) (process : Process)
    (scope : ApplyScope) (candidate : ScopedCandidate) (report : ValidationReport) :
    Follows server (applied_diff (reject_invalid faults process scope candidate report).1) process
      (reject_invalid faults process scope candidate report).2 := by
  obtain ⟨err, rows, hreject, -⟩ := reject_invalid_cases faults process scope candidate report
  rw [hreject]
  exact .refused rfl rfl

theorem swap_and_record_follows {faults : Faults} {kept : Process} {scope : ApplyScope}
    {candidate : ScopedCandidate} (warnings : List String) (hinsert : faults.insert = none)
    (hkept : kept.effective = process.effective ∧ kept.watches = process.watches) :
    Follows server (applied_diff (swap_and_record server faults process.effective kept scope
        candidate (.compute server vault process.effective candidate.merged) warnings).1) process
      (swap_and_record server faults process.effective kept scope candidate
        (.compute server vault process.effective candidate.merged) warnings).2 := by
  unfold swap_and_record record_attempt
  rw [hinsert]
  cases hswap : apply_runtime server kept candidate.merged with
  | error err => exact .refused hkept.1 hkept.2
  | ok swapped =>
    obtain ⟨heffective, hbuilds⟩ := apply_runtime_builds hswap
    rw [← heffective] at hbuilds ⊢
    exact .swaps { swapped with ledger := swapped.ledger ++ [_] } vault _ hbuilds

theorem apply_follows (server : Server) (faults : Faults) (process : Process) (scope : ApplyScope)
    (raw : String) (hint : Option DesiredFormat) (hinsert : faults.insert = none) :
    Follows server (applied_diff (apply_document server faults process scope raw hint).1) process
      (apply_document server faults process scope raw hint).2 := by
  unfold apply_document
  cases faults.latest with
  | some err => exact .refused rfl rfl
  | none =>
    dsimp only
    cases (latest_applied_config_revision process.ledger scope.ledger_stream).filter
        (fun current => current.content_sha256 = server.setup.sha256 raw) with
    | some current => exact .stays (fun d hd => (Option.some.inj hd).symm) rfl rfl
    | none =>
      dsimp only
      cases resolve_scoped_candidate server faults process scope raw hint with
      | error err => exact reject_document_follows server faults process scope raw err
      | ok candidate =>
        have hkept := keep_secrets_runs server faults process scope candidate
        have hinvalid := reject_invalid_follows server faults process scope candidate
          (server.validate_full process.secrets.vault candidate.merged)
        dsimp only
        cases (latest_applied_config_revision process.ledger scope.ledger_stream).filter
            (fun current => current.content_sha256 = candidate.ledger_sha) with
        | some current =>
          dsimp only
          split
          · exact .stays (fun d hd => (Option.some.inj hd).symm) rfl rfl
          · split
            · exact hinvalid
            · split <;> rename_i hkeep <;> rw [hkeep] at hkept
              · exact .refused hkept.1 hkept.2
              · exact .stays (fun d hd => (Option.some.inj hd).symm) hkept.1 hkept.2
        | none =>
          dsimp only
          split
          · exact hinvalid
          · split <;> rename_i hkeep <;> rw [hkeep] at hkept
            · exact .refused hkept.1 hkept.2
            · exact swap_and_record_follows _ hinsert hkept

theorem rollback_follows (server : Server) (fault : Option String) (faults : Faults)
    (process : Process) (scope : ApplyScope) (hinsert : faults.insert = none) :
    Follows server (applied_diff (rollback server fault faults process scope).1) process
      (rollback server fault faults process scope).2 := by
  unfold rollback
  cases fault with
  | some err => exact .refused rfl rfl
  | none =>
    dsimp only
    cases previous_applied_config_revision process.ledger scope.ledger_stream with
    | none => exact .refused rfl rfl
    | some row => exact apply_follows server faults process scope row.content none hinsert

theorem swap_reloaded_follows (server : Server) (process : Process) (merged : Config)
    (sha source_path : String) :
    Follows server (reloaded_diff (swap_reloaded server process merged sha source_path).1) process
      (swap_reloaded server process merged sha source_path).2 := by
  unfold swap_reloaded
  dsimp only
  split
  · exact .refused rfl rfl
  · cases hswap : apply_runtime server process merged with
    | error err => exact .refused rfl rfl
    | ok swapped =>
      obtain ⟨rfl, hbuilds⟩ := apply_runtime_builds hswap
      exact .swaps swapped _ _ hbuilds

theorem finish_reload_follows {state : AppState} {result : Except ApiError ReloadResponse × Process}
    (h : Follows server (reloaded_diff result.1) state.process result.2) :
    Follows server (reloaded_diff (finish_reload state result).1) state.process
      (finish_reload state result).2.process := by
  obtain ⟨answer, process⟩ := result
  cases answer with
  | error err => exact h
  | ok response =>
    unfold finish_reload
    dsimp only
    split <;> exact h

theorem reload_follows (server : Server) (path : String) (fault : Option String)
    (state : AppState) (reading : Reading) :
    Follows server (reloaded_diff (reload_locked server path fault state reading).1) state.process
      (reload_locked server path fault state reading).2.process := by
  unfold reload_locked
  cases reading with
  | Organizations =>
    apply finish_reload_follows
    unfold reload_organizations
    cases fault with
    | some err => exact .refused rfl rfl
    | none =>
      dsimp only
      cases compose_organizations server.setup state.process.ledger server.bootstrap none with
      | error err => exact .refused rfl rfl
      | ok composed =>
        dsimp only
        split
        · exact .stays (fun d hd => (Option.some.inj hd).symm) rfl rfl
        · exact swap_reloaded_follows ..
  | Document raw =>
    dsimp only
    split
    · exact .refused rfl rfl
    · split
      · exact .refused rfl rfl
      · apply finish_reload_follows
        unfold reload_document
        dsimp only
        split
        · exact .stays (fun d hd => (Option.some.inj hd).symm) rfl rfl
        · split
          · exact .refused rfl rfl
          · exact swap_reloaded_follows ..

theorem finish_apply_follows {fault : Option String} {state : AppState}
    {result : Except ApplyError ApplyResponse × Process}
    (h : Follows server (applied_diff result.1) state.process result.2) :
    Follows server (applied_diff (finish_apply fault state result).1) state.process
      (finish_apply fault state result).2.process := by
  obtain ⟨answer, process⟩ := result
  cases answer with
  | error err => exact h
  | ok response =>
    unfold finish_apply commit_effective
    dsimp only
    split <;> exact h

theorem finish_org_apply_follows {state : AppState}
    {result : Except ApplyError ApplyResponse × Process}
    (h : Follows server (applied_diff result.1) state.process result.2) :
    Follows server (applied_diff (finish_org_apply state result).1) state.process
      (finish_org_apply state result).2.process := by
  obtain ⟨answer, process⟩ := result
  cases answer with
  | error err => exact h
  | ok response =>
    unfold finish_org_apply
    dsimp only
    split <;> exact h

theorem checked_follows {α : Type} {state : AppState} {checks : Except ApiError α}
    {go : α → Except ApiError ApplyResponse × AppState}
    (h : ∀ a, Follows server (applied_diff (go a).1) state.process (go a).2.process) :
    Follows server (applied_diff (checked checks state go).1) state.process
      (checked checks state go).2.process := by
  unfold checked
  cases checks with
  | error err => exact .refused rfl rfl
  | ok a => exact h a

/-- The append to the ledger does not fail. -/
def Records : Event → Prop
  | .Apply faults _ _ _ => faults.apply.insert = none
  | .Rollback faults => faults.apply.insert = none
  | .OrgApply faults _ _ _ _ => faults.apply.insert = none
  | .OrgRollback faults _ => faults.apply.insert = none
  | _ => True

theorem next_follows (server : Server) (path : String) (w : World) (event : Event)
    (h : Records event) :
    Follows (at_files server w.files) (answered server path w event) w.state.process
      (next server path w event).state.process := by
  cases event with
  | Edit app text => exact .refused rfl rfl
  | Read =>
    unfold next step
    dsimp only
    split <;> exact .refused rfl rfl
  | Reload index fault =>
    unfold next step answered
    dsimp only
    cases w.waiting[index]? with
    | none => exact .refused rfl rfl
    | some reading => exact reload_follows ..
  | Apply faults if_match raw hint =>
    exact checked_follows fun _ => finish_apply_follows (apply_follows _ _ _ _ _ _ h)
  | Rollback faults =>
    exact checked_follows fun _ => finish_apply_follows (rollback_follows _ _ _ _ _ h)
  | OrgApply faults org_id if_match raw hint =>
    exact checked_follows fun _ => finish_org_apply_follows (apply_follows _ _ _ _ _ _ h)
  | OrgRollback faults org_id =>
    exact checked_follows fun _ => finish_org_apply_follows (rollback_follows _ _ _ _ _ h)

/-! ## The law -/

/-- What runs was built from the configuration. -/
def Built (server : Server) (process : Process) : Prop :=
  ∃ vault, to_watches server.makers server.setup.env vault process.effective =
    .ok process.watches

/-- The ids of the sources that run. -/
def running (process : Process) : List String := process.watches.map (·.id)

/-- The entry of a source in the configuration that runs. -/
def entry (server : Server) (process : Process) (id : String) : Option SourceConfig :=
  configured server process.secrets.vault process.effective id

theorem configured_vault (server : Server) (vault vault' : String → Option String)
    (config : Config) (id : String) :
    configured server vault config id = configured server vault' config id := by
  unfold configured
  rw [source_content_vault server vault vault']

theorem mem_running_iff (h : Built server process) (vault : String → Option String) (id : String) :
    id ∈ running process ↔ (configured server vault process.effective id).isSome = true := by
  obtain ⟨built, hbuilt⟩ := h
  rw [configured_vault server vault built, configured_isSome_iff, source_content_ids hbuilt]
  rfl

/-- One answer: it takes the ids along, and what it does not name stays. -/
theorem follows_law {answer : Option ConfigDiff} {process' : Process}
    (h : Follows server answer process process') (hbuilt : Built server process) :
    Built server process' ∧
    (∀ ids, (∀ id, id ∈ ids ↔ id ∈ running process) →
      ∀ id, id ∈ answer.toList.foldl follow ids ↔ id ∈ running process') ∧
    ∀ id, (∀ d ∈ answer.toList, ¬ Names d id) →
      entry server process' id = entry server process id := by
  cases h with
  | stays silent effective watches =>
    refine ⟨?_, ?_, ?_⟩
    · unfold Built
      rw [effective, watches]
      exact hbuilt
    · intro ids hids id
      unfold running
      rw [watches]
      cases hanswer : answer with
      | none => exact hids id
      | some d =>
        obtain rfl := silent d hanswer
        have hempty : follow ids ⟨[], [], []⟩ = ids := by simp [follow]
        show id ∈ follow ids ⟨[], [], []⟩ ↔ _
        rw [hempty]
        exact hids id
    · intro id _
      unfold entry
      rw [effective]
      exact configured_vault ..
  | swaps process' vault vault' builds =>
    have hbuilt' : Built server process' := ⟨vault', builds⟩
    refine ⟨hbuilt', ?_, ?_⟩
    · intro ids hids id
      rw [mem_running_iff hbuilt' vault]
      exact mem_follow_iff server vault process.effective process'.effective
        (fun id => (hids id).trans (mem_running_iff hbuilt vault id)) id
    · intro id hnames
      unfold entry
      rw [configured_vault server process'.secrets.vault vault,
        configured_vault server process.secrets.vault vault]
      exact configured_of_not_named server vault process.effective process'.effective
        (hnames _ List.mem_cons_self)

/-- The server of an event has other files, and the same sources. -/
theorem Follows.at_files {files : Files} {answer : Option ConfigDiff} {process' : Process}
    (h : Follows (at_files server files) answer process process') :
    Follows server answer process process' := by
  cases h with
  | stays silent effective watches => exact .stays silent effective watches
  | swaps process' vault vault' builds => exact .swaps process' vault vault' builds

/-- The answers of a run, as they come. -/
def answers (server : Server) (path : String) : World → List Event → List ConfigDiff
  | _, [] => []
  | w, event :: rest =>
    (answered server path w event).toList ++ answers server path (next server path w event) rest

theorem built_served {w : World} (h : Served server w) :
    Built server w.state.process := by
  obtain ⟨-, secrets, ledger, hserve⟩ := h
  unfold serve at hserve
  simp only [bind_ok_iff, pure, Except.pure, Except.ok.injEq] at hserve
  obtain ⟨effective, -, process, hruns, hstate⟩ := hserve
  obtain ⟨heffective, hbuilds⟩ := apply_runtime_builds hruns
  rw [← hstate]
  exact ⟨secrets.vault, heffective ▸ hbuilds⟩

theorem built_run (path : String) {w : World} {events : List Event}
    (hrecords : ∀ event ∈ events, Records event) (h : Built server w.state.process) :
    Built server (run (next server path) w events).state.process := by
  induction events generalizing w with
  | nil => exact h
  | cons event rest ih =>
    obtain ⟨hevent, hrest⟩ := List.forall_mem_cons.mp hrecords
    exact ih hrest (follows_law (next_follows server path w event hevent).at_files h).1

theorem following_run (path : String) {w : World} {events : List Event}
    (hrecords : ∀ event ∈ events, Records event) (h : Built server w.state.process) :
    (∀ ids, (∀ id, id ∈ ids ↔ id ∈ running w.state.process) →
      ∀ id, id ∈ (answers server path w events).foldl follow ids ↔
        id ∈ running (run (next server path) w events).state.process) ∧
    ∀ id, (∀ d ∈ answers server path w events, ¬ Names d id) →
      entry server (run (next server path) w events).state.process id =
        entry server w.state.process id := by
  induction events generalizing w with
  | nil => exact ⟨fun ids hids id => hids id, fun _ _ => rfl⟩
  | cons event rest ih =>
    obtain ⟨hevent, hrest⟩ := List.forall_mem_cons.mp hrecords
    obtain ⟨hbuilt, hstep, hsame⟩ :=
      follows_law (next_follows server path w event hevent).at_files h
    obtain ⟨hids, hrun⟩ := ih hrest hbuilt
    constructor
    · intro ids hknown id
      unfold answers
      rw [List.foldl_append]
      exact hids _ (hstep ids hknown) id
    · intro id hnames
      unfold answers at hnames
      rw [run_cons, hrun id fun d hd => hnames d (List.mem_append_right _ hd)]
      exact hsame id fun d hd => hnames d (List.mem_append_left _ hd)

/-- A client that has listed the sources at some moment, and does with the list what the answers
say that follow, knows the ids that run; and a source that no answer names is configured as it was
then. -/
theorem following_the_answers_keeps_the_list (server : Server) (path : String) (start : World)
    (hstart : Served server start) (earlier later : List Event)
    (hrecords : ∀ event ∈ earlier ++ later, Records event) :
    (∀ id, id ∈ (answers server path (run (next server path) start earlier) later).foldl follow
        (running (run (next server path) start earlier).state.process) ↔
      id ∈ running (run (next server path) start (earlier ++ later)).state.process) ∧
    ∀ id, (∀ d ∈ answers server path (run (next server path) start earlier) later,
        ¬ Names d id) →
      entry server (run (next server path) start (earlier ++ later)).state.process id =
        entry server (run (next server path) start earlier).state.process id := by
  have hbuilt := built_run path (fun event he => hrecords event (List.mem_append_left _ he))
    (built_served hstart)
  obtain ⟨hids, hsame⟩ := following_run path
    (fun event he => hrecords event (List.mem_append_right _ he)) hbuilt
  rw [run_append]
  exact ⟨hids _ fun _ => Iff.rfl, hsame⟩

def repo (name : String) : SourceConfig := .Github { repo := name }

def repos (names : List String) : DesiredWire := ⟨none, [], [], [], names.map repo⟩

def repos_text (names : List String) : String :=
  String.join (names.map fun name => "[[sources]]\ntype = \"github\"\nrepo = \"" ++ name ++ "\"\n")

/-- A server where two lists of repositories are known. -/
def catalog : Server :=
  atomic.bench [(.Toml, repos ["o/a", "o/b"], repos_text ["o/a", "o/b"]),
    (.Toml, repos ["o/b", "o/c"], repos_text ["o/b", "o/c"])]

def catalog_start : World where
  state :=
    ⟨{ secrets := ⟨fun _ => none, fun _ => none⟩
       ledger := []
       effective := catalog.bootstrap
       sinks := []
       watches := [] }, none, none⟩
  files := {}

theorem catalog_served : Served catalog catalog_start :=
  ⟨rfl, ⟨fun _ => none, fun _ => none⟩, [], rfl⟩

def two_lists : List Event :=
  [.Apply {} .Absent (repos_text ["o/a", "o/b"]) none,
    .Apply {} .Absent (repos_text ["o/b", "o/c"]) none]

theorem following_the_answers_keeps_the_list_here :
    (∀ id, id ∈ (answers catalog "app.toml" (run (next catalog "app.toml") catalog_start
          (two_lists.take 1)) (two_lists.drop 1)).foldl follow
        (running (run (next catalog "app.toml") catalog_start
          (two_lists.take 1)).state.process) ↔
      id ∈ running (run (next catalog "app.toml") catalog_start two_lists).state.process) ∧
    ∀ id, (∀ d ∈ answers catalog "app.toml" (run (next catalog "app.toml") catalog_start
          (two_lists.take 1)) (two_lists.drop 1), ¬ Names d id) →
      entry catalog (run (next catalog "app.toml") catalog_start two_lists).state.process id =
        entry catalog (run (next catalog "app.toml") catalog_start
          (two_lists.take 1)).state.process id :=
  following_the_answers_keeps_the_list catalog "app.toml" catalog_start catalog_served
    (two_lists.take 1) (two_lists.drop 1) (fun event he => by
      rcases List.mem_cons.mp he with rfl | he
      · rfl
      · obtain rfl := List.mem_singleton.mp he
        rfl)

example : (answers catalog "app.toml" catalog_start two_lists).map
    (fun d => (d.added, d.removed, d.changed)) =
      [(["github:o/a", "github:o/b"], [], []), (["github:o/c"], ["github:o/a"], [])] := by
  decide +kernel

end xrelease.diffs
