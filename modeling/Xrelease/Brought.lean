-- What an apply brings to the stored secrets and what it drops of them, read off the document that
-- is pushed and the one before it.
import Mathlib.Data.List.Dedup
import Xrelease.Outcomes

namespace xrelease.brought

open xrelease.config xrelease.config_apply xrelease.outcomes xrelease.vaulted text

/-! ## What is written to a name -/

/-- The writes of a normalization: full, under trimmed names, each name once. -/
structure Written (writes : List SecretWrite) : Prop where
  full : ∀ write ∈ writes, Full write
  trimmed : ∀ write ∈ writes, trim write.name = write.name
  once : (writes.map (·.name)).Nodup

theorem written_push {writes : List SecretWrite} (h : Written writes) {write : SecretWrite}
    (hfull : Full write) (htrim : trim write.name = write.name) : Written (push writes write) := by
  unfold push push_write
  simp only [hfull.1, hfull.2, Bool.or_self, Bool.false_eq_true, if_false]
  split
  · have hnames : (writes.map (fun w => if w.name = write.name then
        { w with value := write.value } else w)).map (·.name) = writes.map (·.name) := by
      rw [List.map_map]
      apply List.map_congr_left
      intro w _
      simp only [Function.comp]
      split <;> rfl
    refine ⟨?_, ?_, hnames ▸ h.once⟩
    · intro w hw
      obtain ⟨w', hw', rfl⟩ := List.mem_map.mp hw
      split
      · exact ⟨(h.full w' hw').1, hfull.2⟩
      · exact h.full w' hw'
    · intro w hw
      obtain ⟨w', hw', rfl⟩ := List.mem_map.mp hw
      split <;> exact h.trimmed w' hw'
  · rename_i hnew
    refine ⟨?_, ?_, ?_⟩
    · intro w hw
      rcases List.mem_append.mp hw with hw | hw
      · exact h.full w hw
      · obtain rfl := List.mem_singleton.mp hw
        exact hfull
    · intro w hw
      rcases List.mem_append.mp hw with hw | hw
      · exact h.trimmed w hw
      · obtain rfl := List.mem_singleton.mp hw
        exact htrim
    · rw [List.map_append, List.nodup_append]
      refine ⟨h.once, List.nodup_singleton _, ?_⟩
      rintro a ha b hb rfl
      obtain ⟨w, hw, hwn⟩ := List.mem_map.mp ha
      simp only [List.map_cons, List.map_nil, List.mem_singleton] at hb
      exact hnew (List.any_eq_true.mpr ⟨w, hw, by simp [hwn, hb]⟩)

theorem written_normalized (order : Order) (config : Config) (organization : Option String) :
    Written (normalize_secrets_to_refs order config organization).2 := by
  rw [(normalizes_config order config organization).written]
  have hall : ∀ write ∈ (config_slots order organization config).flatMap (·.writes),
      Full write ∧ trim write.name = write.name := by
    intro write hw
    obtain ⟨slot, hs, hw⟩ := List.mem_flatMap.mp hw
    have hsound := config_slots_sound order organization config slot hs
    refine ⟨writes_full hsound write hw, ?_⟩
    unfold Slot.writes at hw
    cases hv : slot.value with
    | none => simp [hv] at hw
    | some value =>
      simp only [hv, List.mem_singleton] at hw
      subst hw
      exact (named_eq_some (named_settled hsound hv)).2
  have hfold : ∀ (pairs writes : List SecretWrite),
      (∀ write ∈ pairs, Full write ∧ trim write.name = write.name) → Written writes →
      Written (pairs.foldl push writes) := by
    intro pairs
    induction pairs with
    | nil => exact fun _ _ h => h
    | cons p rest ih =>
      intro writes hpairs h
      obtain ⟨hfull, htrim⟩ := hpairs p List.mem_cons_self
      exact ih _ (fun w hw => hpairs w (List.mem_cons_of_mem _ hw)) (written_push h hfull htrim)
  exact hfold _ _ hall ⟨by simp, by simp, List.nodup_nil⟩

/-! ## What the statements leave under a name -/

/-- The row of a name after a value is written to it. -/
def rewritten (sha256 : String → String) (row : Option String) (value : String) : Option String :=
  if row.map sha256 = some (sha256 value) then row else some value

theorem upsert_at (sha256 : String → String) (store : SecretStore) {write : SecretWrite}
    (hfull : Full write) (htrim : trim write.name = write.name) (name : String) :
    (upsert_app_secret sha256 store write).app_secret name =
        (if name = write.name then rewritten sha256 (store.app_secret name) write.value
          else store.app_secret name) ∧
      (upsert_app_secret sha256 store write).vault name =
        if name = write.name then some write.value else store.vault name := by
  have hname : write.name ≠ "" := by
    intro h
    have hblank := hfull.1
    rw [h] at hblank
    exact absurd hblank (by decide)
  unfold upsert_app_secret rewritten vault_upsert
  simp only [htrim, hname, hfull.1, hfull.2, decide_false, Bool.or_self, Bool.false_eq_true,
    if_false]
  refine ⟨?_, rfl⟩
  by_cases hn : name = write.name
  · subst hn
    rw [if_pos rfl]
    split
    · rfl
    · simp [set_name]
  · rw [if_neg hn]
    split
    · rfl
    · simp [set_name, hn]

/-- A normalization's writes leave at a name what they store there, and else what was there. -/
theorem sealed_at (sha256 : String → String) {writes : List SecretWrite} (h : Written writes)
    (store : SecretStore) (name : String) :
    (writes.foldl (upsert_app_secret sha256) store).app_secret name =
        (match stored writes name with
          | none => store.app_secret name
          | some value => rewritten sha256 (store.app_secret name) value) ∧
      (writes.foldl (upsert_app_secret sha256) store).vault name =
        (stored writes name).or (store.vault name) := by
  induction writes generalizing store with
  | nil => exact ⟨rfl, rfl⟩
  | cons write rest ih =>
    have hrest : Written rest :=
      ⟨fun w hw => h.full w (List.mem_cons_of_mem _ hw),
        fun w hw => h.trimmed w (List.mem_cons_of_mem _ hw), (List.nodup_cons.mp h.once).2⟩
    have hone := upsert_at sha256 store (h.full write List.mem_cons_self)
      (h.trimmed write List.mem_cons_self) name
    rw [List.foldl_cons, (ih hrest _).1, (ih hrest _).2, hone.1, hone.2]
    by_cases hn : name = write.name
    · subst hn
      have hnone : stored rest write.name = none := by
        unfold stored
        rw [Option.map_eq_none_iff, List.find?_eq_none]
        intro w hw hwn
        exact (List.nodup_cons.mp h.once).1 (List.mem_map.mpr ⟨w, hw, beq_iff_eq.mp hwn⟩)
      have hfirst : stored (write :: rest) write.name = some write.value := by simp [stored]
      rw [hnone, hfirst]
      simp
    · have hne : (write.name == name) = false := by simp [Ne.symm hn]
      simp [hn, stored, hne]

theorem rewritten_same_iff (sha256 : String → String) (row : Option String) (value : String) :
    rewritten sha256 row value = row ↔ row.map sha256 = some (sha256 value) := by
  unfold rewritten
  split
  · rename_i h
    simp [h]
  · rename_i h
    simp only [h, iff_false]
    rintro rfl
    exact h rfl

theorem delete_at (store : SecretStore) {dropped : String} (htrim : trim dropped = dropped)
    (hname : dropped ≠ "") (name : String) :
    (delete_app_secret store dropped).app_secret name =
        (if name = dropped then none else store.app_secret name) ∧
      (delete_app_secret store dropped).vault name =
        if name = dropped ∧ (store.app_secret name).isSome then none else store.vault name := by
  unfold delete_app_secret
  simp only [htrim, hname, if_false]
  by_cases hn : name = dropped
  · subst hn
    cases hrow : store.app_secret name <;> simp [hrow, set_name]
  · cases store.app_secret dropped <;> simp [set_name, hn]

theorem deleted_at {names : List String} (h : ∀ n ∈ names, trim n = n ∧ n ≠ "")
    (store : SecretStore) (name : String) :
    (names.foldl delete_app_secret store).app_secret name =
        (if name ∈ names then none else store.app_secret name) ∧
      (names.foldl delete_app_secret store).vault name =
        if name ∈ names ∧ (store.app_secret name).isSome then none else store.vault name := by
  induction names generalizing store with
  | nil => simp
  | cons n rest ih =>
    obtain ⟨htrim, hne⟩ := h n List.mem_cons_self
    obtain ⟨hrow, hvault⟩ := ih (fun m hm => h m (List.mem_cons_of_mem _ hm))
      (delete_app_secret store n)
    obtain ⟨hrow', hvault'⟩ := delete_at store htrim hne name
    rw [List.foldl_cons, hrow, hvault, hrow', hvault']
    by_cases hn : name = n
    · simp [hn]
    · simp [hn]

/-! ## Names of references -/

theorem named_mem {value : Option String} {name : String} (h : name ∈ (named value).toList) :
    trim name = name ∧ name ≠ "" := by
  rw [Option.mem_toList] at h
  obtain ⟨hblank, htrim⟩ := named_eq_some h
  refine ⟨htrim, ?_⟩
  rintro rfl
  exact absurd hblank (by decide)

theorem refs_trimmed {config : Config} {name : String}
    (h : name ∈ collect_secret_env_refs config) : trim name = name ∧ name ≠ "" := by
  unfold collect_secret_env_refs at h
  rcases List.mem_append.mp h with h | h
  · obtain ⟨source, -, h⟩ := List.mem_flatMap.mp h
    unfold source_env_refs at h
    split at h
    · exact named_mem h
    · simp at h
  · obtain ⟨notifier, -, h⟩ := List.mem_flatMap.mp h
    unfold notifier_env_refs at h
    cases notifier <;> simp only [List.mem_append, List.not_mem_nil] at h
    all_goals first
      | exact named_mem h
      | (rcases h with h | h
         · rcases h with h | h <;> exact named_mem h
         · exact named_mem h)
      | (rcases h with h | h <;> exact named_mem h)

theorem stale_trimmed {server : Server} {faults : Faults} {process : Process}
    {scope : ApplyScope} {next_refs stale : List String}
    (h : stale_names server faults process scope next_refs = .ok stale) :
    ∀ name ∈ stale, trim name = name ∧ name ≠ "" := by
  unfold stale_names at h
  simp only [bind_ok_iff, pure, Except.pure, Except.ok.injEq] at h
  obtain ⟨previous, hprevious, rfl⟩ := h
  intro name hname
  unfold stale_ui_managed_secrets at hname
  rw [List.mem_mergeSort, List.mem_filter, List.mem_dedup] at hname
  have hmem := hname.1
  cases scope with
  | Whole =>
    obtain rfl := Except.ok.inj hprevious
    exact refs_trimmed hmem
  | Organization organization =>
    unfold previous_secret_env_refs at hprevious
    simp only [bind_ok_iff, pure, Except.pure, Except.ok.injEq] at hprevious
    obtain ⟨org, -, -, -, found, -, rfl⟩ := hprevious
    split at hmem
    · exact refs_trimmed hmem
    · simp at hmem

/-! ## The document of a push -/

/-- The document that an organization runs on. -/
def LiveDocument (server : Server) (process : Process) (org : OrganizationConfig)
    (document : Config) : Prop :=
  ∃ raw desired_source,
    organization_desired_raw server.setup.files process.ledger server.bootstrap org =
      .ok (raw, desired_source) ∧
    parse_desired_document server.setup.codec raw = .ok document

/-- A pushed document as an apply takes it up, its placeholders filled in again. -/
inductive Asked (server : Server) (process : Process) (raw : String)
    (hint : Option DesiredFormat) : ApplyScope → Config → Prop where
  | whole {parsed : Config}
      (parses : parse_desired_document_with_hint server.setup.codec raw hint = .ok parsed) :
      Asked server process raw hint .Whole (whole_desired server process parsed)
  | organization {organization previous_raw : String} {parsed : Config}
      {org : OrganizationConfig} {desired_source : DesiredSource}
      (parses : parse_desired_document_with_hint server.setup.codec raw hint = .ok parsed)
      (found : find_organization server.bootstrap organization = .ok org)
      (previous : organization_desired_raw server.setup.files process.ledger server.bootstrap
        org = .ok (previous_raw, desired_source)) :
      Asked server process raw hint (.Organization organization)
        (restored_from server previous_raw parsed)

variable {server : Server} {faults : Faults} {process : Process} {scope : ApplyScope}
  {raw : String} {hint : Option DesiredFormat} {candidate : ScopedCandidate} {document : Config}

theorem asked_of_reaches (h : Reaches server faults process scope raw hint candidate) :
    ∃ document, Asked server process raw hint scope document := by
  cases scope with
  | Whole =>
    obtain ⟨parsed, _, hparsed, -⟩ := resolved_whole h.resolved
    exact ⟨_, .whole hparsed⟩
  | Organization organization =>
    obtain ⟨parsed, org, _, _, _, _, hparsed, -, horg, hprevious, -⟩ :=
      resolved_organization h.resolved
    exact ⟨_, .organization hparsed horg hprevious⟩

/-- The candidate of a call is the normalized document. -/
theorem candidate_of_asked (h : Reaches server faults process scope raw hint candidate)
    (ha : Asked server process raw hint scope document) :
    candidate.secret_writes =
        (normalize_secrets_to_refs server.order document scope.ledger_stream).2 ∧
      candidate.secret_env_refs = collect_secret_env_refs
        (normalize_secrets_to_refs server.order document scope.ledger_stream).1 := by
  cases ha with
  | whole parses =>
    obtain ⟨_, _, hparsed, -, rfl, -, -, -, hwrites, hrefs⟩ := resolved_whole h.resolved
    obtain rfl := Except.ok.inj (parses.symm.trans hparsed)
    exact ⟨hwrites, hrefs⟩
  | organization parses found previous =>
    obtain ⟨_, _, _, _, _, _, hparsed, -, hfound, hprevious, rfl, -, -, -, -, hwrites, hrefs⟩ :=
      resolved_organization h.resolved
    obtain rfl := Except.ok.inj (parses.symm.trans hparsed)
    obtain rfl := Except.ok.inj (found.symm.trans hfound)
    obtain ⟨rfl, rfl⟩ := Prod.mk.inj (Except.ok.inj (previous.symm.trans hprevious))
    exact ⟨hwrites, hrefs⟩

/-! ## What it brings and what it drops -/

/-- The inline secret that the document has for a name: that of the last place so called. -/
def last_inline (server : Server) (scope : ApplyScope) (document : Config) (name : String) :
    Option String :=
  ((config_places server.order document).reverse.find?
    (fun p => p.value.isSome && p.called scope.ledger_stream name)).bind (·.value)

/-- Some place of the document refers to the name: its `*_env` field has it, or it is the name
that belongs to the inline secret there. -/
def Refers (server : Server) (scope : ApplyScope) (document : Config) (name : String) : Prop :=
  ∃ p ∈ config_places server.order document,
    (p.value.isSome ∨ (named p.env).isSome) ∧ p.called scope.ledger_stream name = true

/-- The document that the scope runs on so far refers to the name. -/
def ReferredBefore (server : Server) (process : Process) (scope : ApplyScope) (name : String) :
    Prop :=
  match scope with
  | .Whole => name ∈ collect_secret_env_refs (desired_state_for_ledger process.effective)
  | .Organization organization =>
    ∃ org document, find_organization server.bootstrap organization = .ok org ∧
      LiveDocument server process org document ∧ name ∈ collect_secret_env_refs document

/-- A name generated for the scope that the document before refers to and this one does not. -/
def Stale (server : Server) (process : Process) (scope : ApplyScope) (document : Config)
    (name : String) : Prop :=
  is_ui_managed_secret_name name scope.ledger_stream = true ∧
    ReferredBefore server process scope name ∧ ¬ Refers server scope document name

/-- The document has no inline secret, or there is a key to seal with and the statement goes
through. -/
def CanSeal (server : Server) (faults : Faults) (scope : ApplyScope) (document : Config) : Prop :=
  (∀ name, last_inline server scope document name = none) ∨
    server.sealable = true ∧ faults.upsert = none

/-- The document before can be read, and there is no stale name or the statement goes through. -/
def CanPrune (server : Server) (faults : Faults) (process : Process) (scope : ApplyScope)
    (document : Config) : Prop :=
  (scope = .Whole ∨ faults.previous_refs = none) ∧
    ((∀ name, ¬ Stale server process scope document name) ∨ faults.delete = none)

/-- What the document has for the name is stored there already. -/
def BringsNoNews (server : Server) (process : Process) (scope : ApplyScope) (document : Config)
    (name : String) : Prop :=
  ∀ value, last_inline server scope document name = some value →
    (process.secrets.app_secret name).map server.setup.sha256 = some (server.setup.sha256 value)

/-! ## What it stores -/

theorem find_write (slots : List Slot) (name : String) :
    ((slots.flatMap (·.writes)).reverse.find? (·.name == name)).map (·.value) =
      (slots.reverse.find? (fun s => s.value.isSome && s.name == name)).bind (·.value) := by
  induction slots with
  | nil => rfl
  | cons s rest ih =>
    rw [List.flatMap_cons, List.reverse_append, List.reverse_cons, List.find?_append,
      List.find?_append, Option.map_or, ih]
    cases hf : rest.reverse.find? (fun s => s.value.isSome && s.name == name) with
    | some found =>
      have hfound := List.find?_some hf
      simp only [Bool.and_eq_true] at hfound
      obtain ⟨value, hv⟩ := Option.isSome_iff_exists.mp hfound.1
      simp [hv]
    | none =>
      unfold Slot.writes
      cases hv : s.value with
      | none => simp [hv]
      | some value => by_cases hn : s.name = name <;> simp [hv, hn]

section

variable (h : Reaches server faults process scope raw hint candidate)

include h

theorem stored_eq (ha : Asked server process raw hint scope document) (name : String) :
    stored candidate.secret_writes name = last_inline server scope document name := by
  have hsound := config_slots_sound server.order scope.ledger_stream document
  have hfull : ∀ w ∈ (config_slots server.order scope.ledger_stream document).flatMap (·.writes),
      Full w := by
    intro w hw
    obtain ⟨slot, hslot, hw⟩ := List.mem_flatMap.mp hw
    exact writes_full (hsound slot hslot) w hw
  rw [(candidate_of_asked h ha).1, (normalizes_config _ _ _).written, stored_fold hfull, find_write,
    config_slots_eq, ← List.map_reverse, List.find?_map]
  have hcalled : ((fun s : Slot => s.value.isSome && s.name == name) ∘
      Place.slot scope.ledger_stream) =
      fun p => p.value.isSome && p.called scope.ledger_stream name := by
    funext p
    have hname : ((p.slot scope.ledger_stream).name == name) =
        p.called scope.ledger_stream name := by
      rw [Bool.eq_iff_iff, beq_iff_eq, called_iff]
    exact congrArg (p.value.isSome && ·) hname
  rw [hcalled]
  unfold last_inline stored
  cases (config_places server.order document).reverse.find?
    (fun p => p.value.isSome && p.called scope.ledger_stream name) with
  | none => rfl
  | some p => simp [Place.slot]

theorem candidate_written :
    Written candidate.secret_writes := by
  obtain ⟨document, ha⟩ := asked_of_reaches h
  rw [(candidate_of_asked h ha).1]
  exact written_normalized _ _ _

theorem writes_nil_iff (ha : Asked server process raw hint scope document) :
    candidate.secret_writes = [] ↔ ∀ name, last_inline server scope document name = none := by
  simp only [← stored_eq h ha]
  constructor
  · intro hnil name
    rw [hnil]
    rfl
  · intro hnone
    rw [List.eq_nil_iff_forall_not_mem]
    intro w hw
    have hfind := Option.map_eq_none_iff.mp (hnone w.name)
    exact absurd (beq_self_eq_true w.name) (List.find?_eq_none.mp hfind w hw)

theorem seals_iff (ha : Asked server process raw hint scope document) :
    Seals server faults candidate ↔ CanSeal server faults scope document := by
  unfold Seals CanSeal
  rw [writes_nil_iff h ha]

theorem sealed_same_iff (ha : Asked server process raw hint scope document) (name : String) :
    (sealed server process candidate).app_secret name = process.secrets.app_secret name ↔
      BringsNoNews server process scope document name := by
  unfold sealed BringsNoNews
  rw [(sealed_at _ (candidate_written h) _ name).1, stored_eq h ha]
  cases last_inline server scope document name with
  | none => simp
  | some value => simp [rewritten_same_iff]

end

/-! ## What it refers to -/

theorem filterMap_toList {α : Type} (f : α → Option String) (a : α) (l : List α) :
    (a :: l).filterMap f = (f a).toList ++ l.filterMap f := by
  rw [List.filterMap_cons]
  cases f a <;> rfl

theorem flatMap_refs {α : Type} {refs : α → List String} {slots : α → Nat → List Slot}
    (h : ∀ a index, refs a = (slots a index).filterMap (fun s => named s.env)) (l : List α)
    (index : Nat) :
    l.flatMap refs = (slots_each slots l index).filterMap (fun s => named s.env) := by
  induction l generalizing index with
  | nil => rfl
  | cons a rest ih => rw [List.flatMap_cons, slots_each, List.filterMap_append, ← h, ← ih]

theorem refs_eq (order : Order) (organization : Option String) (config : Config) :
    collect_secret_env_refs config =
      (config_slots order organization config).filterMap (fun s => named s.env) := by
  unfold collect_secret_env_refs config_slots
  rw [List.filterMap_append]
  congr 1
  · refine flatMap_refs (fun source index => ?_) _ _
    unfold source_env_refs source_slots
    cases source.token_refs <;> simp [filterMap_toList]
  · refine flatMap_refs (fun notifier index => ?_) _ _
    cases notifier <;> simp [notifier_env_refs, notifier_slots, filterMap_toList]

section

variable (h : Reaches server faults process scope raw hint candidate)

include h

theorem mem_refs_iff (ha : Asked server process raw hint scope document) (name : String) :
    name ∈ candidate.secret_env_refs ↔ Refers server scope document name := by
  have hsound := config_slots_sound server.order scope.ledger_stream document
  have henvs := congrArg (fun l : List (Option String) => l.filterMap named)
    (normalizes_config server.order document scope.ledger_stream).envs
  simp only [List.filterMap_map] at henvs
  have hrefs : candidate.secret_env_refs = (config_slots server.order scope.ledger_stream
      document).filterMap (fun s => named s.settled) := by
    rw [(candidate_of_asked h ha).2, refs_eq server.order scope.ledger_stream]
    exact henvs
  rw [hrefs, config_slots_eq] at *
  simp only [List.filterMap_map, List.mem_filterMap, Function.comp, Refers]
  refine exists_congr fun p => and_congr_right fun hp => ?_
  rw [called_iff]
  cases hv : p.value with
  | some value =>
    have hfull : (p.slot scope.ledger_stream).value = some value := hv
    rw [named_settled (hsound _ (List.mem_map_of_mem hp)) hfull]
    simp
  | none =>
    have hsettled : (p.slot scope.ledger_stream).settled = p.env := by
      simp [Slot.settled, Place.slot, hv]
    rw [hsettled]
    cases hn : named p.env <;> simp [Slot.name, Place.slot, hn]

/-! ## What it drops -/

theorem stale_iff (ha : Asked server process raw hint scope document) {stale : List String}
    (hs : stale_names server faults process scope candidate.secret_env_refs = .ok stale)
    (name : String) : name ∈ stale ↔ Stale server process scope document name := by
  unfold stale_names at hs
  simp only [bind_ok_iff, pure, Except.pure, Except.ok.injEq] at hs
  obtain ⟨previous, hprevious, rfl⟩ := hs
  have hbefore : name ∈ previous ↔ ReferredBefore server process scope name := by
    cases scope with
    | Whole =>
      obtain rfl := Except.ok.inj hprevious
      rfl
    | Organization organization =>
      simp only [previous_secret_env_refs, bind_ok_iff, failing_ok_iff, pure, Except.pure,
        Except.ok.injEq] at hprevious
      obtain ⟨org, horg, _, -, ⟨raw, source⟩, hraw, rfl⟩ := hprevious
      simp only [ReferredBefore, LiveDocument, horg, Except.ok.injEq, exists_and_left,
        exists_eq_left', hraw, Prod.mk.injEq]
      cases hparse : parse_desired_document server.setup.codec raw with
      | ok config => simp [hparse]
      | error err => simp [hparse]
  unfold stale_ui_managed_secrets Stale
  rw [List.mem_mergeSort, List.mem_filter, List.mem_dedup, hbefore, ← mem_refs_iff h ha]
  simp
  tauto

theorem prunes_iff (ha : Asked server process raw hint scope document) :
    (∃ stale, Prunes server faults process scope candidate stale) ↔
      CanPrune server faults process scope document := by
  have hreads : (∃ stale, stale_names server faults process scope candidate.secret_env_refs =
      .ok stale) ↔ (scope = .Whole ∨ faults.previous_refs = none) := by
    cases ha with
    | whole => simp [stale_names, previous_secret_env_refs, bind_ok_iff, pure, Except.pure]
    | organization parses found previous =>
      simp only [stale_names, previous_secret_env_refs, bind_ok_iff, failing_ok_iff, pure,
        Except.pure, Except.ok.injEq, found, refusing_ok_iff]
      simp [previous]
  have hnil : ∀ stale, stale_names server faults process scope candidate.secret_env_refs =
      .ok stale → (stale = [] ↔ ∀ name, ¬ Stale server process scope document name) := by
    intro stale hs
    rw [List.eq_nil_iff_forall_not_mem]
    exact forall_congr' fun name => not_congr (stale_iff h ha hs name)
  unfold Prunes CanPrune
  rw [← hreads]
  constructor
  · rintro ⟨stale, hs, hd⟩
    exact ⟨⟨stale, hs⟩, hd.imp_left (hnil stale hs).mp⟩
  · rintro ⟨⟨stale, hs⟩, hd⟩
    exact ⟨stale, hs, hd.imp_left (hnil stale hs).mpr⟩

end

/-- What is dropped is not written. -/
theorem no_inline_of_stale {name : String} (h : Stale server process scope document name) :
    last_inline server scope document name = none := by
  unfold last_inline
  cases hf : (config_places server.order document).reverse.find?
    (fun p => p.value.isSome && p.called scope.ledger_stream name) with
  | none => rfl
  | some p =>
    have hfound := List.find?_some hf
    simp only [Bool.and_eq_true] at hfound
    exact absurd ⟨p, List.mem_reverse.mp (List.mem_of_find?_eq_some hf), Or.inl hfound.1, hfound.2⟩
      h.2.2

/-- Sealing and pruning leave the row of a name exactly when the document has no other text for
it, and does not drop it where it is stored. -/
theorem pruned_same_iff (h : Reaches server faults process scope raw hint candidate)
    (ha : Asked server process raw hint scope document) {stale : List String}
    (hp : Prunes server faults process scope candidate stale) (name : String) :
    (pruned server process candidate stale).app_secret name = process.secrets.app_secret name ↔
      BringsNoNews server process scope document name ∧
        (Stale server process scope document name → process.secrets.app_secret name = none) := by
  rw [pruned, (deleted_at (stale_trimmed hp.1) _ name).1, ← sealed_same_iff h ha,
    ← stale_iff h ha hp.1]
  by_cases hmem : name ∈ stale
  · have hsame : (sealed server process candidate).app_secret name =
        process.secrets.app_secret name := by
      rw [sealed_same_iff h ha]
      intro value hv
      rw [no_inline_of_stale ((stale_iff h ha hp.1 name).mp hmem)] at hv
      simp at hv
    simp [hmem, hsame, eq_comm]
  · simp [hmem]

open Classical in
/-- The vault once the secrets are kept. -/
noncomputable def vault_then (server : Server) (process : Process) (scope : ApplyScope)
    (document : Config) (name : String) : Option String :=
  (last_inline server scope document name).or
    (if Stale server process scope document name ∧ (process.secrets.app_secret name).isSome
      then none else process.secrets.vault name)

theorem pruned_vault (h : Reaches server faults process scope raw hint candidate)
    (ha : Asked server process raw hint scope document) {stale : List String}
    (hp : Prunes server faults process scope candidate stale) :
    (pruned server process candidate stale).vault = vault_then server process scope document := by
  funext name
  have hsealed := (sealed_at server.setup.sha256 (candidate_written h) process.secrets name).2
  rw [pruned, (deleted_at (stale_trimmed hp.1) _ name).2]
  unfold vault_then
  by_cases hstale : Stale server process scope document name
  · have hnone := no_inline_of_stale hstale
    have hsame : (sealed server process candidate).app_secret name =
        process.secrets.app_secret name := by
      rw [sealed_same_iff h ha]
      intro value hv
      rw [hnone] at hv
      simp at hv
    rw [sealed, hsealed, stored_eq h ha, hnone, ← sealed, hsame]
    simp [stale_iff h ha hp.1, hstale]
  · rw [sealed, hsealed, stored_eq h ha]
    simp [stale_iff h ha hp.1, hstale]

end xrelease.brought
