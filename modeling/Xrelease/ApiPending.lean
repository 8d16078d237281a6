-- An organization that waits for its first apply (`compose_organizations`): it has neither a
-- revision nor an app file, and what it changes of the composition when it joins the catalogue.
import Xrelease.Strictest

namespace xrelease.api_pending

open xrelease.config xrelease.composed xrelease.upstream_limit xrelease.outcomes
open xrelease.config_apply xrelease.atomic xrelease.overrides text keyed.Table
open xrelease.reapplied (ReadsEmpty parse_empty has_desired_state_iff)

/-! ## The law -/

/-- An organization that is authored in the API and has no document yet. -/
structure Pending (setup : Setup) (ledger : List ConfigRevision) (bootstrap : Config)
    (override_document : Option (String × String)) (org : OrganizationConfig) : Prop where
  authored : bootstrap.config_api.ledger_is_bootable = true
  unrecorded : latest_applied_config_revision ledger (some org.id) = none
  no_file : named org.app = none
  not_given : ∀ document ∈ override_document, document.1 ≠ org.id
  has_id : org.id ≠ ""

/-- The catalogue with the organization in it. -/
def joined_by (bootstrap : Config) (before after : List OrganizationConfig)
    (org : OrganizationConfig) : Config :=
  relisted bootstrap (before ++ org :: after)

/-- What is composed with the organization is what was composed without it, but for the catalogue
itself. -/
def ChangesNothing (setup : Setup) (ledger : List ConfigRevision) (bootstrap : Config)
    (override_document : Option (String × String)) (before after : List OrganizationConfig)
    (org : OrganizationConfig) (composed : ComposedOrganizations) : Prop :=
  ∃ composed', compose_organizations setup ledger (joined_by bootstrap before after org)
      override_document = .ok composed' ∧
    composed'.merged = relisted composed.merged (before ++ org :: after)

/-- Defaults but for the upstream limit. -/
def without_limit (defaults : Defaults) : Defaults :=
  { defaults with upstream_requests_per_minute := 0 }

/-- Of the process-wide defaults the document sets none but the upstream limit. -/
def SetsOnlyLimit (desired : Config) : Prop := without_limit desired.defaults = {}

/-- No process-wide default is lost: another organization goes before it, or the one that it is put
before sets none but the upstream limit. In an empty catalogue the environment must not set that
limit. -/
def Unnoticed (setup : Setup) (ledger : List ConfigRevision) (bootstrap : Config)
    (override_document : Option (String × String)) (before after : List OrganizationConfig) :
    Prop :=
  before = [] →
    match after with
    | [] => document_cap setup.env {} = 0
    | first :: _ => ∀ doc,
        document_of setup ledger bootstrap override_document first = .ok doc → SetsOnlyLimit doc.2

/-! ## Its document -/

/-- The cap that the environment sets. -/
def env_cap (env : Env) : Nat := document_cap env {}

section
variable {setup : Setup} {ledger : List ConfigRevision} {bootstrap : Config}
  {override_document : Option (String × String)}

theorem chosen_pending {org : OrganizationConfig}
    (h : Pending setup ledger bootstrap override_document org) :
    chosen_document setup ledger bootstrap override_document org =
      .ok (EMPTY_ORGANIZATION_DOCUMENT, .Empty) := by
  have hraw : organization_desired_raw setup.files ledger bootstrap org =
      .ok (EMPTY_ORGANIZATION_DOCUMENT, .Empty) := by
    unfold organization_desired_raw
    simp [h.authored, h.unrecorded, h.no_file]
  unfold chosen_document
  cases hgiven : override_document with
  | none => exact hraw
  | some document =>
    have hother := h.not_given document (by simp [hgiven])
    simp only [hother, if_false]
    exact hraw

theorem load_pending (hreads : ReadsEmpty setup.codec) (id : String) :
    load_organization setup id EMPTY_ORGANIZATION_DOCUMENT .Empty =
      .ok (apply_env_overrides setup.env {}) := by
  unfold load_organization parse_desired_document
  rw [parse_empty hreads]
  rfl

/-- It joins with no entry of its own, and asks for the cap of the environment. -/
theorem join_pending (st : Composing) (id raw : String) :
    join_organization st id raw .Empty
        (namespace_organization_desired id (apply_env_overrides setup.env {})) =
      { st with
        seen_ids := id :: st.seen_ids
        identity := st.identity ++ [(id, raw)]
        merged := { st.merged with
          defaults :=
            if st.sources = [] ∧ env_cap setup.env ≠ 0 then
              { upstream_requests_per_minute := env_cap setup.env }
            else st.merged.defaults }
        strictest_rpm := stricter st.strictest_rpm (env_cap setup.env)
        sources := st.sources ++ [(id, .Empty)] } := by
  have hdefaults : (namespace_organization_desired id
      (apply_env_overrides setup.env {})).defaults =
        { upstream_requests_per_minute := env_cap setup.env } := rfl
  have hstated : (has_desired_state (namespace_organization_desired id
      (apply_env_overrides setup.env {})) = true) ↔ env_cap setup.env ≠ 0 := by
    rw [has_desired_state_iff, hdefaults]
    simp [namespace_organization_desired, apply_env_overrides, prepare_presets,
      keyed.Sorted.putAll]
  have hlimit : (env_cap setup.env ≠ 0 ∧ 0 < env_cap setup.env) ↔ 0 < env_cap setup.env := by
    omega
  unfold join_organization stricter
  simp only [hdefaults, hstated, hlimit]
  cases st.strictest_rpm <;>
    simp only [namespace_organization_desired, apply_env_overrides, prepare_presets,
      keyed.Sorted.putAll, List.map_nil, List.append_nil, List.foldl_nil]

end

/-! ## Two runs of the loop, one with the organization -/

/-- The second run has visited the organization, too. -/
structure Beside (env : Env) (id : String) (st st' : Composing) : Prop where
  seen : ∀ other, other ∈ st'.seen_ids ↔ other = id ∨ other ∈ st.seen_ids
  merged : ∃ defaults, st'.merged = { st.merged with defaults }
  cap : st'.strictest_rpm = stricter st.strictest_rpm (env_cap env)
  visited : st'.sources ≠ []
  used : st'.override_used = st.override_used

/-- Both fail alike, or both go through. -/
def Alike (related : Composing → Composing → Prop) :
    Except String Composing → Except String Composing → Prop
  | .ok st, .ok st' => related st st'
  | .error err, .error err' => err = err'
  | _, _ => False

section
variable {setup : Setup} {ledger : List ConfigRevision} {bootstrap : Config}
  {override_document : Option (String × String)}

theorem beside_join {id : String} {st st' : Composing} (h : Beside setup.env id st st')
    (other raw : String) (desired_source : DesiredSource) (desired : Config) (used : Bool) :
    Beside setup.env id
      (join_organization { st with override_used := st.override_used || used } other raw
        desired_source desired)
      (join_organization { st' with override_used := st'.override_used || used } other raw
        desired_source desired) where
  seen := by
    intro any
    simp only [join_organization, List.mem_cons, h.seen]
    tauto
  merged := by
    obtain ⟨defaults, hmerged⟩ := h.merged
    simp only [join_organization, hmerged]
    exact ⟨_, rfl⟩
  cap := by
    rw [join_stricter, join_stricter, h.cap]
    exact stricter_comm _ _ _
  visited := by simp [join_organization]
  used := by simp only [join_organization, h.used]

theorem beside_one {id : String} {st st' : Composing} (h : Beside setup.env id st st')
    {org : OrganizationConfig} (hother : org.id ≠ id) :
    Alike (Beside setup.env id)
      (compose_one setup ledger bootstrap override_document st org)
      (compose_one setup ledger bootstrap override_document st' org) := by
  unfold compose_one
  by_cases hid : org.id = ""
  · simp [hid, Alike]
  · by_cases hseen : org.id ∈ st.seen_ids
    · have hseen' : org.id ∈ st'.seen_ids := (h.seen org.id).mpr (Or.inr hseen)
      simp [hid, hseen, hseen', Alike]
    · have hseen' : org.id ∉ st'.seen_ids := by
        rw [h.seen, not_or]
        exact ⟨hother, hseen⟩
      simp only [hid, hseen, hseen', if_false, bind, Except.bind, pure, Except.pure]
      cases hraw : chosen_document setup ledger bootstrap override_document org with
      | error err => rfl
      | ok found =>
        cases hload : load_organization setup org.id found.1 found.2 with
        | error err => simp only [hload, Alike]
        | ok desired =>
          simp only [hload, Alike]
          exact beside_join h _ _ _ _ _

theorem beside_fold {id : String} {orgs : List OrganizationConfig}
    (hothers : ∀ org ∈ orgs, org.id ≠ id) {st st' : Composing}
    (h : Beside setup.env id st st') :
    Alike (Beside setup.env id)
      (orgs.foldlM (compose_one setup ledger bootstrap override_document) st)
      (orgs.foldlM (compose_one setup ledger bootstrap override_document) st') := by
  induction orgs generalizing st st' with
  | nil => exact h
  | cons org rest ih =>
    obtain ⟨hother, hrest⟩ := List.forall_mem_cons.mp hothers
    have hone : Alike (Beside setup.env id)
        (compose_one setup ledger bootstrap override_document st org)
        (compose_one setup ledger bootstrap override_document st' org) := beside_one h hother
    simp only [List.foldlM_cons, bind, Except.bind]
    cases hst : compose_one setup ledger bootstrap override_document st org with
    | error err =>
      cases hst' : compose_one setup ledger bootstrap override_document st' org with
      | error err' =>
        rw [hst, hst'] at hone
        exact hone
      | ok next' => simp [hst, hst', Alike] at hone
    | ok next =>
      cases hst' : compose_one setup ledger bootstrap override_document st' org with
      | error err' => simp [hst, hst', Alike] at hone
      | ok next' =>
        rw [hst, hst'] at hone
        exact ih hrest hone

/-- The first organization settles the defaults. -/
theorem later_defaults {orgs : List OrganizationConfig} {st last : Composing}
    (hvisited : st.sources ≠ [])
    (h : orgs.foldlM (compose_one setup ledger bootstrap override_document) st = .ok last) :
    last.merged.defaults = st.merged.defaults := by
  induction orgs generalizing st with
  | nil =>
    obtain rfl := Except.ok.inj h
    rfl
  | cons org rest ih =>
    rw [List.foldlM_cons, bind_ok_iff] at h
    obtain ⟨next, hone, hrest⟩ := h
    obtain ⟨-, -, raw, desired_source, desired, -, -, rfl⟩ := compose_one_iff.mp hone
    have hnext := ih (by simp [join_organization]) hrest
    rw [hnext]
    simp [join_organization, hvisited]

/-- Every document asks for the cap of the environment, where that sets one. -/
theorem env_cap_absorbed (cap : Option Nat) (env : Env) (desired : Config) :
    stricter (stricter cap (document_cap env desired)) (env_cap env) =
      stricter cap (document_cap env desired) := by
  have hcap : env_cap env = 0 ∨ env_cap env = document_cap env desired := by
    unfold env_cap document_cap override_defaults
    cases (env "XRELEASE_UPSTREAM_RPM").bind (parse_unsigned 32) with
    | none => exact Or.inl rfl
    | some rpm => exact Or.inr rfl
  rcases hcap with hcap | hcap
  · rw [hcap]
    rfl
  · rw [hcap]
    unfold stricter
    split
    · cases cap <;> simp
    · rfl

theorem env_cap_kept {orgs : List OrganizationConfig} {st last : Composing} (hne : orgs ≠ [])
    (h : orgs.foldlM (compose_one setup ledger bootstrap override_document) st = .ok last) :
    stricter last.strictest_rpm (env_cap setup.env) = last.strictest_rpm := by
  induction orgs generalizing st with
  | nil => exact absurd rfl hne
  | cons org rest ih =>
    rw [List.foldlM_cons, bind_ok_iff] at h
    obtain ⟨next, hone, hrest⟩ := h
    by_cases hlast : rest = []
    · subst hlast
      obtain rfl := Except.ok.inj hrest
      obtain ⟨-, -, raw, desired_source, desired, -, hload, rfl⟩ := compose_one_iff.mp hone
      unfold load_organization at hload
      simp only [bind_ok_iff] at hload
      obtain ⟨parsed, -, -, -, hload⟩ := hload
      split at hload
      · simp at hload
      · obtain rfl := Except.ok.inj hload
        rw [join_stricter]
        exact env_cap_absorbed _ setup.env parsed
    · exact ih hlast hrest

end

/-! ## The composition with it -/

section
variable {setup : Setup} {ledger : List ConfigRevision} {bootstrap : Config}
  {override_document : Option (String × String)}

/-- Its own turn of the loop. -/
theorem one_pending (hreads : ReadsEmpty setup.codec) {org : OrganizationConfig}
    (h : Pending setup ledger bootstrap override_document org) {st : Composing}
    (hnew : org.id ∉ st.seen_ids) :
    ∃ st', compose_one setup ledger bootstrap override_document st org = .ok st' ∧
      Beside setup.env org.id st st' ∧
      st'.merged.defaults =
        if st.sources = [] ∧ env_cap setup.env ≠ 0 then
          { upstream_requests_per_minute := env_cap setup.env }
        else st.merged.defaults := by
  have hreplaces : replaces override_document org = false := by
    unfold replaces
    cases hgiven : override_document with
    | none => rfl
    | some document => simp [h.not_given document (by simp [hgiven])]
  refine ⟨_, compose_one_iff.mpr ⟨h.has_id, hnew, _, _, _, chosen_pending h,
    load_pending hreads org.id, rfl⟩, ?_, ?_⟩
  · rw [join_pending]
    exact
      { seen := fun other => List.mem_cons
        merged := ⟨_, rfl⟩
        cap := rfl
        visited := by simp
        used := by simp [hreplaces] }
  · rw [join_pending]

theorem fold_seen {orgs : List OrganizationConfig} {st last : Composing}
    (h : orgs.foldlM (compose_one setup ledger bootstrap override_document) st = .ok last) :
    (∀ id ∈ last.seen_ids, id ∈ st.seen_ids ∨ ∃ org ∈ orgs, org.id = id) ∧
      (st.sources ≠ [] ∨ orgs ≠ [] → last.sources ≠ []) := by
  induction orgs generalizing st with
  | nil =>
    obtain rfl := Except.ok.inj h
    simp
  | cons org rest ih =>
    rw [List.foldlM_cons, bind_ok_iff] at h
    obtain ⟨next, hone, hrest⟩ := h
    obtain ⟨-, -, raw, desired_source, desired, -, -, rfl⟩ := compose_one_iff.mp hone
    obtain ⟨hseen, hvisited⟩ := ih hrest
    refine ⟨?_, fun _ => hvisited (Or.inl (by simp [join_organization]))⟩
    intro id hid
    rcases hseen id hid with hid | ⟨other, hother, rfl⟩
    · rcases List.mem_cons.mp hid with rfl | hid
      · exact Or.inr ⟨org, List.mem_cons_self, rfl⟩
      · exact Or.inl hid
    · exact Or.inr ⟨other, List.mem_cons_of_mem _ hother, rfl⟩

/-- What the loop leaves with the organization and without it. -/
structure Apart (env : Env) (id : String) (first : Prop) (st st' : Composing) : Prop where
  beside : Beside env id st st'
  leads : first → st'.merged.defaults = { upstream_requests_per_minute := env_cap env }
  follows : ¬ first → st'.merged.defaults = st.merged.defaults

/-- Either way the loop fails alike, or it goes through. -/
theorem fold_pending (hreads : ReadsEmpty setup.codec) {org : OrganizationConfig}
    (h : Pending setup ledger bootstrap override_document org)
    {before after : List OrganizationConfig}
    (hothers : ∀ other ∈ before ++ after, other.id ≠ org.id) :
    Alike (Apart setup.env org.id (before = []))
      ((before ++ after).foldlM (compose_one setup ledger bootstrap override_document)
        (starting override_document))
      ((before ++ org :: after).foldlM (compose_one setup ledger bootstrap override_document)
        (starting override_document)) := by
  simp only [List.foldlM_append, List.foldlM_cons, bind, Except.bind]
  cases hbefore : before.foldlM (compose_one setup ledger bootstrap override_document)
      (starting override_document) with
  | error err => rfl
  | ok st =>
    obtain ⟨hseen, hvisited⟩ := fold_seen hbefore
    have hnew : org.id ∉ st.seen_ids := by
      intro hid
      rcases hseen org.id hid with hid | ⟨other, hother, he⟩
      · simp [starting] at hid
      · exact hothers other (List.mem_append_left _ hother) he
    obtain ⟨st', hone, hbeside, hdefaults⟩ := one_pending hreads h hnew
    have hafter : Alike (Beside setup.env org.id)
        (after.foldlM (compose_one setup ledger bootstrap override_document) st)
        (after.foldlM (compose_one setup ledger bootstrap override_document) st') :=
      beside_fold (fun other hother => hothers other (List.mem_append_right before hother))
        hbeside
    simp only [hone]
    cases hlast : after.foldlM (compose_one setup ledger bootstrap override_document) st with
    | error err =>
      cases hlast' : after.foldlM (compose_one setup ledger bootstrap override_document) st' with
      | error err' =>
        rw [hlast, hlast'] at hafter
        exact hafter
      | ok last' => simp [hlast, hlast', Alike] at hafter
    | ok last =>
      cases hlast' : after.foldlM (compose_one setup ledger bootstrap override_document) st' with
      | error err' => simp [hlast, hlast', Alike] at hafter
      | ok last' =>
        rw [hlast, hlast'] at hafter
        have hkept := later_defaults hbeside.visited hlast'
        refine ⟨hafter, ?_, ?_⟩
        · intro hfirst
          subst hfirst
          obtain rfl := Except.ok.inj hbefore
          rw [hkept, hdefaults]
          by_cases hcap : env_cap setup.env = 0
          · simp [hcap, starting]
          · simp [hcap, starting]
        · intro hlater
          have hst : st.sources ≠ [] := hvisited (Or.inr hlater)
          rw [hkept, hdefaults, later_defaults hst hlast]
          simp [hst]

theorem only_limit_iff (id : String) (desired : Config) (rest : List Document) :
    without_limit (lead_defaults ((id, desired) :: rest)) = {} ↔ SetsOnlyLimit desired := by
  have hplain : without_limit (namespaced (id, desired)).defaults = {} ↔
      SetsOnlyLimit desired := by
    unfold SetsOnlyLimit without_limit namespaced namespace_organization_desired
    simp only [namespace_defaults, Defaults.mk.injEq, Option.map_eq_none_iff]
  by_cases hstated : has_desired_state (namespaced (id, desired)) = true
  · simp only [lead_defaults, hstated, if_true]
    exact hplain
  · simp only [lead_defaults, hstated]
    rw [← hplain]
    rw [has_desired_state_iff] at hstated
    simp only [ne_eq, not_or, not_not] at hstated
    obtain ⟨-, -, -, -, hdefaults⟩ := hstated
    rw [hdefaults]
    rfl

/-- The defaults that run are the lead document's, under the strictest cap. -/
theorem capped_eq_iff {lead : Defaults} {cap : Option Nat} {env : Env}
    (hlead : cap = none → lead.upstream_requests_per_minute = 0)
    (henv : stricter cap (env_cap env) = cap) :
    ({ upstream_requests_per_minute := cap.getD (env_cap env) } : Defaults) =
        { lead with
          upstream_requests_per_minute := cap.getD lead.upstream_requests_per_minute } ↔
      without_limit lead = {} := by
  have hsame : cap.getD (env_cap env) = cap.getD lead.upstream_requests_per_minute := by
    cases cap with
    | some rpm => rfl
    | none =>
      have hzero : env_cap env = 0 := by
        by_contra hne
        have hpos : 0 < env_cap env := by omega
        simp [stricter, hpos] at henv
      rw [Option.getD_none, Option.getD_none, hlead rfl, hzero]
  rw [hsame]
  unfold without_limit
  simp only [Defaults.mk.injEq, true_and, eq_comm]

/-- Composed with it and without it. -/
theorem composed_pair {bootstrap' : Config} {st st' : Composing} {id : String} {first : Prop}
    (hmerge : ∀ config, merge_bootstrap_over_desired bootstrap' config =
      relisted (merge_bootstrap_over_desired bootstrap config) bootstrap'.organizations)
    (h : Apart setup.env id first st st') :
    merge_bootstrap_over_desired bootstrap' (with_strictest st'.merged st'.strictest_rpm) =
        relisted (merge_bootstrap_over_desired bootstrap
          (with_strictest st.merged st.strictest_rpm)) bootstrap'.organizations ↔
      (with_strictest st'.merged st'.strictest_rpm).defaults =
        (with_strictest st.merged st.strictest_rpm).defaults := by
  rw [hmerge]
  obtain ⟨defaults, hmerged⟩ := h.beside.merged
  rw [hmerged]
  simp only [relisted, merge_bootstrap_over_desired, with_strictest, Config.mk.injEq, and_true]

theorem unnoticed_iff {before after : List OrganizationConfig} {st st' : Composing} {id : String}
    (hfold : (before ++ after).foldlM (compose_one setup ledger bootstrap override_document)
      (starting override_document) = .ok st)
    (h : Apart setup.env id (before = []) st st') :
    (with_strictest st'.merged st'.strictest_rpm).defaults =
        (with_strictest st.merged st.strictest_rpm).defaults ↔
      Unnoticed setup ledger bootstrap override_document before after := by
  unfold Unnoticed
  by_cases hfirst : before = []
  · subst hfirst
    simp only [forall_const]
    obtain ⟨docs, hdocs, hjoined⟩ := joined_fold (joined_start override_document.isNone) hfold
    rw [List.nil_append] at hdocs hfold hjoined
    have hleads := h.leads rfl
    cases after with
    | nil =>
      obtain rfl := Except.ok.inj hfold
      have hcap : (stricter none (env_cap setup.env)).getD (env_cap setup.env) =
          env_cap setup.env := by
        unfold stricter
        split <;> rfl
      simp only [with_strictest, hleads, h.beside.cap, starting, hcap]
      simp only [Option.getD_none, Defaults.mk.injEq, true_and, and_true]
      rfl
    | cons first rest =>
      have hkept := env_cap_kept (by simp) hfold
      have hcap : st'.strictest_rpm = st.strictest_rpm := h.beside.cap.trans hkept
      simp only [with_strictest, hleads, hcap, hjoined.defaults]
      have hunlimited : st.strictest_rpm = none →
          (lead_defaults docs).upstream_requests_per_minute = 0 := by
        intro hnone
        exact lead_cap ((fold_stricter hdocs hfold).1.symm.trans hnone)
      rw [capped_eq_iff hunlimited hkept]
      obtain ⟨doc, hdoc, more, -, rfl⟩ := mapM_cons_ok_iff.mp hdocs
      rw [only_limit_iff doc.1 doc.2 more]
      constructor
      · intro hsets other hother
        obtain rfl := Except.ok.inj (hdoc.symm.trans hother)
        exact hsets
      · exact fun hall => hall doc hdoc
  · simp only [hfirst, false_implies, iff_true]
    have hkept := env_cap_kept (by simp [hfirst]) hfold
    simp only [with_strictest, h.follows hfirst, h.beside.cap, hkept]

/-- With sources of the API an idle catalogue composes, too. -/
theorem compose_authored (hauthored : bootstrap.config_api.ledger_is_bootable = true) :
    compose_organizations setup ledger bootstrap override_document =
      match bootstrap.organizations.foldlM (compose_one setup ledger bootstrap override_document)
        (starting override_document) with
      | .error err => .error err
      | .ok st =>
        if !st.override_used then
          .error ("unknown organization `" ++ (override_document.map (·.1)).getD "" ++
            "` (not in [[organizations]])")
        else
          .ok
            { merged := merge_bootstrap_over_desired bootstrap
                (with_strictest st.merged st.strictest_rpm)
              identity_sha256 := setup.sha256 (identity_bytes st.identity)
              sources := st.sources } := by
  unfold compose_organizations starting
  simp only [hauthored, Bool.true_eq_false, and_false, if_false, bind, Except.bind]
  cases bootstrap.organizations.foldlM (compose_one setup ledger bootstrap override_document)
    { override_used := override_document.isNone } <;> rfl

/-- A pending organization changes nothing of a catalogue that does not compose, and of one that
does exactly where no process-wide default is lost. -/
theorem a_pending_organization_changes_nothing_iff (hreads : ReadsEmpty setup.codec)
    {org : OrganizationConfig} (h : Pending setup ledger bootstrap override_document org)
    (before after : List OrganizationConfig) (hlisted : bootstrap.organizations = before ++ after)
    (hothers : ∀ other ∈ before ++ after, other.id ≠ org.id) :
    (∀ err, compose_organizations setup ledger bootstrap override_document = .error err →
      compose_organizations setup ledger (joined_by bootstrap before after org)
        override_document = .error err) ∧
    ∀ composed,
      compose_organizations setup ledger bootstrap override_document = .ok composed →
      (ChangesNothing setup ledger bootstrap override_document before after org composed ↔
        Unnoticed setup ledger bootstrap override_document before after) := by
  have hfold := fold_pending hreads h hothers
  have hauthored : (joined_by bootstrap before after org).config_api.ledger_is_bootable = true :=
    h.authored
  unfold ChangesNothing
  rw [compose_authored h.authored, hlisted, compose_authored hauthored]
  change Alike _ _ ((joined_by bootstrap before after org).organizations.foldlM
    (compose_one setup ledger (joined_by bootstrap before after org) override_document)
    (starting override_document)) at hfold
  cases hst : (before ++ after).foldlM (compose_one setup ledger bootstrap override_document)
      (starting override_document) with
  | error err =>
    cases hst' : (joined_by bootstrap before after org).organizations.foldlM
        (compose_one setup ledger (joined_by bootstrap before after org) override_document)
        (starting override_document) with
    | error err' =>
      rw [hst, hst'] at hfold
      obtain rfl := hfold
      simp
    | ok st' => simp [hst, hst', Alike] at hfold
  | ok st =>
    cases hst' : (joined_by bootstrap before after org).organizations.foldlM
        (compose_one setup ledger (joined_by bootstrap before after org) override_document)
        (starting override_document) with
    | error err' => simp [hst, hst', Alike] at hfold
    | ok st' =>
      rw [hst, hst'] at hfold
      have hused : st'.override_used = st.override_used := hfold.beside.used
      by_cases hgiven : st.override_used = true
      · simp only [hused, hgiven, Bool.not_true, Bool.false_eq_true, if_false, reduceCtorEq,
          false_implies, implies_true, Except.ok.injEq, true_and]
        rintro _ rfl
        rw [← unnoticed_iff hst hfold, ← composed_pair (fun _ => rfl) hfold]
        simp only [exists_eq_left']
        exact Iff.rfl
      · simp [hused, hgiven]

end

/-! ## A catalogue of one -/

/-- The team, with two deliveries at a time. -/
def careful_crew : DesiredWire :=
  { crew with defaults := some { outbox_flush_concurrency := 2 } }

def careful_crew_text : String := "[defaults]\noutbox_flush_concurrency = 2\n\n" ++ crew_text

def one_crew : Setup :=
  (bench [(.Toml, careful_crew, careful_crew_text),
    (.Yaml, ⟨none, [], [], [], []⟩, EMPTY_ORGANIZATION_DOCUMENT)]).setup

def crew_ledger : List ConfigRevision :=
  [{ id := 1, content := careful_crew_text, content_sha256 := "", status := .Applied,
     organization_id := some "a" }]

def crew_bootstrap : Config := relisted (bench []).bootstrap [{ id := "a" }]

theorem one_crew_reads : ReadsEmpty one_crew.codec where
  yaml := by decide +kernel
  toml := by decide +kernel

theorem b_is_pending : Pending one_crew crew_ledger crew_bootstrap none { id := "b" } where
  authored := rfl
  unrecorded := by decide
  no_file := rfl
  not_given := by simp
  has_id := by decide

theorem crew_composes :
    ∃ composed, compose_organizations one_crew crew_ledger crew_bootstrap none = .ok composed ∧
      composed.merged.defaults.outbox_flush_concurrency = 2 := by
  have hcomposed : (compose_organizations one_crew crew_ledger crew_bootstrap none).map
      (fun composed => composed.merged.defaults.outbox_flush_concurrency) = .ok 2 := by
    decide +kernel
  obtain ⟨composed, hcomposed, htwo⟩ := map_ok hcomposed
  exact ⟨composed, hcomposed, htwo.symm⟩

/-- Listed after the team that has a document, the new organization changes nothing. -/
theorem a_pending_organization_changes_nothing_here :
    ∃ composed, compose_organizations one_crew crew_ledger crew_bootstrap none = .ok composed ∧
      ChangesNothing one_crew crew_ledger crew_bootstrap none [{ id := "a" }] [] { id := "b" }
        composed := by
  obtain ⟨composed, hcomposed, -⟩ := crew_composes
  refine ⟨composed, hcomposed, ?_⟩
  have hothers : ∀ other ∈ ([{ id := "a" }] ++ [] : List OrganizationConfig),
      other.id ≠ "b" := by decide
  refine ((a_pending_organization_changes_nothing_iff one_crew_reads b_is_pending [{ id := "a" }]
    [] rfl hothers).2 composed hcomposed).mpr ?_
  intro hfirst
  simp at hfirst

/-- Listed before it, the new organization resets its process-wide defaults. -/
theorem a_pending_organization_resets_the_defaults :
    Pending one_crew crew_ledger crew_bootstrap none { id := "b" } ∧
    ∃ composed composed',
      compose_organizations one_crew crew_ledger crew_bootstrap none = .ok composed ∧
      composed.merged.defaults.outbox_flush_concurrency = 2 ∧
      compose_organizations one_crew crew_ledger
          (joined_by crew_bootstrap [] [{ id := "a" }] { id := "b" }) none = .ok composed' ∧
      composed'.merged.defaults.outbox_flush_concurrency = 8 ∧
      ¬ ChangesNothing one_crew crew_ledger crew_bootstrap none [] [{ id := "a" }] { id := "b" }
        composed := by
  obtain ⟨composed, hcomposed, htwo⟩ := crew_composes
  have hreset : (compose_organizations one_crew crew_ledger
      (joined_by crew_bootstrap [] [{ id := "a" }] { id := "b" }) none).map
      (fun composed => composed.merged.defaults.outbox_flush_concurrency) = .ok 8 := by
    decide +kernel
  obtain ⟨composed', hcomposed', height⟩ := map_ok hreset
  refine ⟨b_is_pending, composed, composed', hcomposed, htwo, hcomposed', height.symm, ?_⟩
  rintro ⟨other, hother, hsame⟩
  obtain rfl := Except.ok.inj (hcomposed'.symm.trans hother)
  rw [hsame] at height
  exact absurd (height.trans htwo) (by decide)

end xrelease.api_pending
