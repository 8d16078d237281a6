-- The strictest upstream limit wins: the limiter is process-wide, each organization asks for a cap
-- of its own, and what runs is the smallest of those that are not 0, in whichever order the
-- catalogue lists the organizations.
import Xrelease.Overrides

namespace xrelease.upstream_limit

open xrelease.config xrelease.config_apply xrelease.outcomes xrelease.atomic xrelease.composed
  xrelease.overrides text keyed.Table keyed.Sorted

/-! ## The smallest cap -/

/-- This is the smallest of the caps that are not 0, and 0 where none of them is a limit. -/
structure Strictest (caps : List Nat) (cap : Nat) : Prop where
  asked : cap ≠ 0 → cap ∈ caps
  least : ∀ rpm ∈ caps, rpm ≠ 0 → cap ≤ rpm
  unlimited : cap = 0 → ∀ rpm ∈ caps, rpm = 0

/-- One more cap, where none is no limit so far. -/
def stricter (strictest : Option Nat) (rpm : Nat) : Option Nat :=
  if 0 < rpm then
    some (match strictest with
      | none => rpm
      | some current => min current rpm)
  else strictest

theorem stricter_comm (strictest : Option Nat) (rpm rpm' : Nat) :
    stricter (stricter strictest rpm) rpm' = stricter (stricter strictest rpm') rpm := by
  unfold stricter
  by_cases h : 0 < rpm <;> by_cases h' : 0 < rpm' <;> simp only [h, h', if_true, if_false]
  cases strictest with
  | none => simp only [Nat.min_comm]
  | some current => simp only [Nat.min_assoc, Nat.min_comm rpm]

theorem fold_stricter_perm {caps caps' : List Nat} (h : caps.Perm caps')
    (strictest : Option Nat) :
    caps.foldl stricter strictest = caps'.foldl stricter strictest := by
  apply h.foldl_eq'
  intro rpm _ rpm' _ current
  exact stricter_comm current rpm rpm'

/-- What the caps so far come to. -/
def Smallest (caps : List Nat) : Option Nat → Prop
  | none => ∀ rpm ∈ caps, rpm = 0
  | some cap => 0 < cap ∧ cap ∈ caps ∧ ∀ rpm ∈ caps, rpm ≠ 0 → cap ≤ rpm

theorem smallest_stricter {caps : List Nat} {strictest : Option Nat} (h : Smallest caps strictest)
    (rpm : Nat) : Smallest (caps ++ [rpm]) (stricter strictest rpm) := by
  unfold stricter
  by_cases hrpm : 0 < rpm
  · rw [if_pos hrpm]
    cases strictest with
    | none =>
      refine ⟨hrpm, by simp, ?_⟩
      intro other hother hpos
      rcases List.mem_append.mp hother with hother | hother
      · exact absurd (h other hother) hpos
      · exact (List.mem_singleton.mp hother).ge
    | some current =>
      obtain ⟨hpos, hmem, hleast⟩ := h
      refine ⟨Nat.lt_min.mpr ⟨hpos, hrpm⟩, ?_, ?_⟩
      · rcases Nat.le_total current rpm with hle | hle
        · simp [Nat.min_eq_left hle, hmem]
        · simp [Nat.min_eq_right hle]
      · intro other hother hne
        rcases List.mem_append.mp hother with hother | hother
        · exact (Nat.min_le_left _ _).trans (hleast other hother hne)
        · rw [List.mem_singleton.mp hother]
          exact Nat.min_le_right _ _
  · rw [if_neg hrpm]
    have hzero : rpm = 0 := by omega
    subst hzero
    cases strictest with
    | none =>
      intro other hother
      rcases List.mem_append.mp hother with hother | hother
      · exact h other hother
      · exact List.mem_singleton.mp hother
    | some current =>
      obtain ⟨hpos, hmem, hleast⟩ := h
      refine ⟨hpos, List.mem_append_left _ hmem, ?_⟩
      intro other hother hne
      rcases List.mem_append.mp hother with hother | hother
      · exact hleast other hother hne
      · exact absurd (List.mem_singleton.mp hother) hne

theorem smallest_fold (caps : List Nat) {before : List Nat} {strictest : Option Nat}
    (h : Smallest before strictest) :
    Smallest (before ++ caps) (caps.foldl stricter strictest) := by
  induction caps generalizing before strictest with
  | nil => simpa using h
  | cons rpm rest ih => simpa using ih (smallest_stricter h rpm)

theorem Smallest.strictest {caps : List Nat} {strictest : Option Nat}
    (h : Smallest caps strictest) : Strictest caps (strictest.getD 0) := by
  cases strictest with
  | none => exact ⟨fun hne => absurd rfl hne, fun _ _ _ => Nat.zero_le _, fun _ => h⟩
  | some cap =>
    obtain ⟨hpos, hmem, hleast⟩ := h
    exact ⟨fun _ => hmem, hleast, fun hzero => absurd hzero hpos.ne'⟩

/-- The caps come to their smallest. -/
theorem strictest_fold (caps : List Nat) : Strictest caps ((caps.foldl stricter none).getD 0) := by
  have hnone : Smallest [] none := by
    intro rpm hrpm
    simp at hrpm
  have hsmallest := smallest_fold caps hnone
  rw [List.nil_append] at hsmallest
  exact hsmallest.strictest

/-! ## The loop over the catalogue -/

/-- The cap that a document asks for, with the environment over it. -/
def document_cap (env : Env) (desired : Config) : Nat :=
  (override_defaults env desired.defaults).upstream_requests_per_minute

/-- The cap of one organization's document. -/
def asked_cap (setup : Setup) (ledger : List ConfigRevision) (bootstrap : Config)
    (override_document : Option (String × String)) (org : OrganizationConfig) :
    Except String Nat := do
  let (raw, _) ← chosen_document setup ledger bootstrap override_document org
  let desired ← parse_desired_document setup.codec raw
  return document_cap setup.env desired

/-- The caps that the documents of the catalogue ask for. -/
def asked_caps (setup : Setup) (ledger : List ConfigRevision) (bootstrap : Config)
    (override_document : Option (String × String)) : Except String (List Nat) :=
  bootstrap.organizations.mapM (asked_cap setup ledger bootstrap override_document)

/-- The document given is that of this organization. -/
def replaces (override_document : Option (String × String)) (org : OrganizationConfig) : Bool :=
  override_document.any (fun document => document.1 = org.id)

section
variable {setup : Setup} {ledger : List ConfigRevision} {bootstrap : Config}
  {override_document : Option (String × String)}

theorem asked_of_document {org : OrganizationConfig} {doc : Document}
    (h : document_of setup ledger bootstrap override_document org = .ok doc) :
    asked_cap setup ledger bootstrap override_document org =
      .ok doc.2.defaults.upstream_requests_per_minute := by
  unfold document_of at h
  simp only [bind_ok_iff, pure, Except.pure, Except.ok.injEq] at h
  obtain ⟨found, hfound, desired, hload, rfl⟩ := h
  unfold load_organization at hload
  simp only [bind_ok_iff] at hload
  obtain ⟨parsed, hparsed, -, -, hload⟩ := hload
  split at hload
  · simp at hload
  · obtain rfl := Except.ok.inj hload
    simp only [asked_cap, hfound, hparsed, bind, Except.bind, pure, Except.pure]
    rfl

variable {orgs : List OrganizationConfig}

theorem asked_of_documents {docs : List Document}
    (h : orgs.mapM (document_of setup ledger bootstrap override_document) = .ok docs) :
    orgs.mapM (asked_cap setup ledger bootstrap override_document) =
      .ok (docs.map (fun doc => doc.2.defaults.upstream_requests_per_minute)) := by
  induction orgs generalizing docs with
  | nil =>
    obtain rfl := Except.ok.inj h
    rfl
  | cons org rest ih =>
    obtain ⟨doc, hdoc, more, hmore, rfl⟩ := mapM_cons_ok_iff.mp h
    exact mapM_cons_ok_iff.mpr ⟨_, asked_of_document hdoc, _, ih hmore, rfl⟩

/-- A document without a limit does not count, whether or not it has sections of its own. -/
theorem join_stricter (st : Composing) (id raw : String) (desired_source : DesiredSource)
    (desired : Config) :
    (join_organization st id raw desired_source desired).strictest_rpm =
      stricter st.strictest_rpm desired.defaults.upstream_requests_per_minute := by
  unfold join_organization stricter
  by_cases hpos : 0 < desired.defaults.upstream_requests_per_minute
  · cases st.strictest_rpm <;> simp [stated_of_limit hpos, hpos]
  · simp [hpos]

/-- A turn of the loop, where the id is new and the document can be had. -/
theorem compose_one_iff {st st' : Composing} {org : OrganizationConfig} :
    compose_one setup ledger bootstrap override_document st org = .ok st' ↔
      org.id ≠ "" ∧ org.id ∉ st.seen_ids ∧ ∃ raw desired_source desired,
        chosen_document setup ledger bootstrap override_document org = .ok (raw, desired_source) ∧
        load_organization setup org.id raw desired_source = .ok desired ∧
        st' = join_organization
          { st with override_used := st.override_used || replaces override_document org } org.id
          raw desired_source (namespace_organization_desired org.id desired) := by
  unfold compose_one
  by_cases hid : org.id = ""
  · simp [hid]
  · by_cases hseen : org.id ∈ st.seen_ids
    · simp [hid, hseen]
    · simp only [hid, hseen, if_false, bind_ok_iff, pure, Except.pure, Except.ok.injEq, ne_eq,
        not_false_eq_true, true_and, Prod.exists]
      constructor
      · rintro ⟨raw, desired_source, hraw, desired, hload, rfl⟩
        exact ⟨raw, desired_source, desired, hraw, hload, rfl⟩
      · rintro ⟨raw, desired_source, desired, hraw, hload, rfl⟩
        exact ⟨raw, desired_source, hraw, desired, hload, rfl⟩

/-- What the loop leaves of the cap, and of whether the document given was that of anyone. -/
theorem fold_stricter {st st' : Composing} {docs : List Document}
    (hdocs : orgs.mapM (document_of setup ledger bootstrap override_document) = .ok docs)
    (h : orgs.foldlM (compose_one setup ledger bootstrap override_document) st = .ok st') :
    st'.strictest_rpm =
        (docs.map (fun doc => doc.2.defaults.upstream_requests_per_minute)).foldl stricter
          st.strictest_rpm ∧
      st'.override_used = (st.override_used || orgs.any (replaces override_document)) := by
  induction orgs generalizing st docs with
  | nil =>
    obtain rfl := Except.ok.inj hdocs
    obtain rfl := Except.ok.inj h
    simp
  | cons org rest ih =>
    obtain ⟨doc, hdoc, more, hmore, rfl⟩ := mapM_cons_ok_iff.mp hdocs
    rw [List.foldlM_cons, bind_ok_iff] at h
    obtain ⟨next, hone, hrest⟩ := h
    obtain ⟨-, -, raw, desired_source, desired, hraw, hload, rfl⟩ := compose_one_iff.mp hone
    unfold document_of at hdoc
    simp only [hraw, hload, bind, Except.bind, pure, Except.pure, Except.ok.injEq] at hdoc
    obtain rfl := hdoc
    obtain ⟨hrpm, hused⟩ := ih hmore hrest
    rw [hrpm, hused]
    constructor
    · rw [join_stricter]
      rfl
    · simp only [join_organization, List.any_cons, Bool.or_assoc]

/-- The loop goes through where the ids are new and their own and every document can be had. -/
theorem fold_ok (st : Composing) {docs : List Document}
    (hdocs : orgs.mapM (document_of setup ledger bootstrap override_document) = .ok docs)
    (hids : ∀ org ∈ orgs, org.id ≠ "" ∧ org.id ∉ st.seen_ids)
    (hdistinct : (orgs.map (·.id)).Nodup) :
    ∃ st', orgs.foldlM (compose_one setup ledger bootstrap override_document) st = .ok st' := by
  induction orgs generalizing st docs with
  | nil => exact ⟨st, rfl⟩
  | cons org rest ih =>
    obtain ⟨doc, hdoc, more, hmore, -⟩ := mapM_cons_ok_iff.mp hdocs
    unfold document_of at hdoc
    simp only [bind_ok_iff] at hdoc
    obtain ⟨⟨raw, desired_source⟩, hraw, desired, hload, -⟩ := hdoc
    obtain ⟨⟨hid, hnew⟩, hrest⟩ := List.forall_mem_cons.mp hids
    obtain ⟨hapart, hdistinct⟩ := List.nodup_cons.mp hdistinct
    obtain ⟨next, hone, hnext⟩ : ∃ next,
        compose_one setup ledger bootstrap override_document st org = .ok next ∧
          next.seen_ids = org.id :: st.seen_ids :=
      ⟨_, compose_one_iff.mpr ⟨hid, hnew, raw, desired_source, desired, hraw, hload, rfl⟩, rfl⟩
    have hseen : ∀ other ∈ rest, other.id ≠ "" ∧ other.id ∉ next.seen_ids := by
      intro other hother
      rw [hnext]
      refine ⟨(hrest other hother).1, ?_⟩
      rw [List.mem_cons, not_or]
      refine ⟨?_, (hrest other hother).2⟩
      intro he
      exact hapart (List.mem_map.mpr ⟨other, hother, he⟩)
    obtain ⟨st', hst'⟩ := ih next hmore hseen hdistinct
    refine ⟨st', ?_⟩
    rw [List.foldlM_cons, hone]
    exact hst'

end

/-- What is found in one order is found in any other. -/
theorem mapM_perm {ε α β : Type} {f : α → Except ε β} {xs ys : List α} (h : xs.Perm ys)
    {as : List β} (hxs : xs.mapM f = .ok as) : ∃ bs, ys.mapM f = .ok bs ∧ as.Perm bs := by
  induction h generalizing as with
  | nil => exact ⟨as, hxs, List.Perm.refl _⟩
  | cons x _ ih =>
    obtain ⟨a, ha, rest, hrest, rfl⟩ := mapM_cons_ok_iff.mp hxs
    obtain ⟨bs, hbs, hperm⟩ := ih hrest
    exact ⟨a :: bs, mapM_cons_ok_iff.mpr ⟨a, ha, bs, hbs, rfl⟩, hperm.cons a⟩
  | swap x y zs =>
    simp only [mapM_cons_ok_iff] at hxs ⊢
    obtain ⟨a, ha, rest, ⟨b, hb, more, hmore, rfl⟩, rfl⟩ := hxs
    exact ⟨b :: a :: more, ⟨b, hb, a :: more, ⟨a, ha, more, hmore, rfl⟩, rfl⟩,
      List.Perm.swap b a more⟩
  | trans _ _ ih ih' =>
    obtain ⟨bs, hbs, hperm⟩ := ih hxs
    obtain ⟨cs, hcs, hperm'⟩ := ih' hbs
    exact ⟨cs, hcs, hperm.trans hperm'⟩

/-! ## The composition -/

/-- The catalogue in another order. -/
def relisted (bootstrap : Config) (listed : List OrganizationConfig) : Config :=
  { bootstrap with organizations := listed }

/-- The cap that is composed is the strictest that the documents ask for, and so it is whichever
organization comes first. -/
structure StrictestWins (setup : Setup) (ledger : List ConfigRevision) (bootstrap : Config)
    (override_document : Option (String × String)) (composed : ComposedOrganizations) : Prop where
  strictest : ∃ caps, asked_caps setup ledger bootstrap override_document = .ok caps ∧
    Strictest caps composed.merged.defaults.upstream_requests_per_minute
  reordered : ∀ listed, listed.Perm bootstrap.organizations →
    ∃ composed', compose_organizations setup ledger (relisted bootstrap listed)
        override_document = .ok composed' ∧
      composed'.merged.defaults.upstream_requests_per_minute =
        composed.merged.defaults.upstream_requests_per_minute

section
variable {setup : Setup} {ledger : List ConfigRevision} {bootstrap : Config}
  {override_document : Option (String × String)}

/-- Of the lead document's defaults the cap is the only one that is replaced, and where it is not
there is none. -/
theorem lead_cap {docs : List Document}
    (h : (docs.map (fun doc => doc.2.defaults.upstream_requests_per_minute)).foldl stricter none =
      none) : (lead_defaults docs).upstream_requests_per_minute = 0 := by
  cases docs with
  | nil => rfl
  | cons doc rest =>
    have hnone : Smallest [] none := by
      intro rpm hrpm
      simp at hrpm
    have hzero := smallest_fold
      ((doc :: rest).map (fun doc => doc.2.defaults.upstream_requests_per_minute)) hnone
    rw [h] at hzero
    simp only [lead_defaults]
    split
    · apply hzero
      exact List.mem_cons_self
    · rfl

/-- The state that the loop starts in. -/
def starting (override_document : Option (String × String)) : Composing :=
  { override_used := override_document.isNone }

variable {composed : ComposedOrganizations}

/-- The composition takes what the loop leaves, unless there is nothing to run. -/
theorem compose_iff :
    compose_organizations setup ledger bootstrap override_document = .ok composed ↔
      ∃ st, bootstrap.organizations.foldlM (compose_one setup ledger bootstrap override_document)
          (starting override_document) = .ok st ∧
        st.override_used = true ∧
        ¬ (st.merged.sources = [] ∧ st.merged.notifiers = [] ∧
          bootstrap.config_api.ledger_is_bootable = false) ∧
        composed =
          { merged := merge_bootstrap_over_desired bootstrap
              (with_strictest st.merged st.strictest_rpm)
            identity_sha256 := setup.sha256 (identity_bytes st.identity)
            sources := st.sources } := by
  unfold compose_organizations
  rw [bind_ok_iff]
  refine exists_congr fun st => and_congr_right fun _ => ?_
  by_cases hused : st.override_used = true
  · rw [if_neg (by simp [hused])]
    dsimp only
    by_cases hidle : (with_strictest st.merged st.strictest_rpm).sources = [] ∧
        (with_strictest st.merged st.strictest_rpm).notifiers = [] ∧
        bootstrap.config_api.ledger_is_bootable = false
    · rw [if_pos hidle]
      simp only [reduceCtorEq, false_iff]
      rintro ⟨-, hbusy, -⟩
      exact hbusy hidle
    · rw [if_neg hidle, Except.ok.injEq]
      constructor
      · rintro rfl
        exact ⟨hused, hidle, rfl⟩
      · rintro ⟨-, -, rfl⟩
        rfl
  · rw [if_pos (by simp [hused])]
    simp [hused]

/-- The cap of a composition, from the documents. -/
theorem composed_cap {docs : List Document}
    (hdocs : documents setup ledger bootstrap override_document = .ok docs)
    (h : compose_organizations setup ledger bootstrap override_document = .ok composed) :
    composed.merged.defaults.upstream_requests_per_minute =
      ((docs.map (fun doc => doc.2.defaults.upstream_requests_per_minute)).foldl stricter
        none).getD 0 := by
  obtain ⟨st, hfold, -, -, rfl⟩ := compose_iff.mp h
  obtain ⟨hrpm, -⟩ := fold_stricter hdocs hfold
  obtain ⟨docs', hdocs', hj⟩ := joined_fold (joined_start _) hfold
  obtain rfl := Except.ok.inj (hdocs.symm.trans hdocs')
  rw [List.nil_append] at hj
  simp only [merge_bootstrap_over_desired, with_strictest, hj.defaults]
  rw [hrpm]
  cases hcap : (docs.map (fun doc => doc.2.defaults.upstream_requests_per_minute)).foldl stricter
      none with
  | none =>
    simp only [starting, hcap, Option.getD_none]
    exact lead_cap hcap
  | some cap => simp only [starting, hcap, Option.getD_some]

theorem ids_of_documents {orgs : List OrganizationConfig} {docs : List Document}
    (h : orgs.mapM (document_of setup ledger bootstrap override_document) = .ok docs) :
    orgs.map (·.id) = docs.map Prod.fst := by
  induction orgs generalizing docs with
  | nil =>
    obtain rfl := Except.ok.inj h
    rfl
  | cons org rest ih =>
    obtain ⟨doc, hdoc, more, hmore, rfl⟩ := mapM_cons_ok_iff.mp h
    unfold document_of at hdoc
    simp only [bind_ok_iff, pure, Except.pure, Except.ok.injEq] at hdoc
    obtain ⟨found, -, desired, -, rfl⟩ := hdoc
    simp [ih hmore]

/-- A catalogue that composes does so in any order. -/
theorem relisted_composes {listed : List OrganizationConfig}
    (hperm : listed.Perm bootstrap.organizations)
    (h : compose_organizations setup ledger bootstrap override_document = .ok composed) :
    ∃ composed', compose_organizations setup ledger (relisted bootstrap listed)
      override_document = .ok composed' := by
  obtain ⟨st, hfold, hused, hbusy, -⟩ := compose_iff.mp h
  obtain ⟨docs, hdocs, hj⟩ := joined_fold (joined_start _) hfold
  rw [List.nil_append] at hj
  obtain ⟨listed_docs, hlisted, hdocs_perm⟩ := mapM_perm hperm.symm hdocs
  have hids := ids_of_documents hdocs
  obtain ⟨st', hfold'⟩ := fold_ok (starting override_document) hlisted
    (fun org horg => ⟨by
      have hmem : org.id ∈ bootstrap.organizations.map (·.id) :=
        List.mem_map.mpr ⟨org, hperm.mem_iff.mp horg, rfl⟩
      rw [hids] at hmem
      obtain ⟨doc, hdoc, hid⟩ := List.mem_map.mp hmem
      rw [← hid]
      exact hj.named doc hdoc, by simp [starting]⟩)
    ((hperm.map (·.id)).nodup_iff.mpr (by rw [hids]; exact hj.distinct))
  obtain ⟨-, hused_fold⟩ := fold_stricter hdocs hfold
  obtain ⟨-, hused'⟩ := fold_stricter hlisted hfold'
  obtain ⟨docs', hdocs', hj'⟩ := joined_fold (joined_start _) hfold'
  obtain rfl := Except.ok.inj (hlisted.symm.trans hdocs')
  rw [List.nil_append] at hj'
  refine ⟨_, compose_iff.mpr ⟨st', hfold', ?_, ?_, rfl⟩⟩
  · rw [hused', hperm.any_eq, ← hused_fold]
    exact hused
  · rintro ⟨hsources, hnotifiers, hlocal⟩
    refine hbusy ⟨?_, ?_, hlocal⟩
    · rw [hj.sources]
      rw [hj'.sources] at hsources
      exact ((hdocs_perm.flatMap_right _).trans (hsources ▸ List.Perm.refl _)).eq_nil
    · rw [hj.notifiers]
      rw [hj'.notifiers] at hnotifiers
      exact ((hdocs_perm.flatMap_right _).trans (hnotifiers ▸ List.Perm.refl _)).eq_nil

end

/-- The strictest limit wins, in any order of the catalogue. -/
theorem strictest_limit_wins {setup : Setup} {ledger : List ConfigRevision} {bootstrap : Config}
    {override_document : Option (String × String)} {composed : ComposedOrganizations}
    (h : compose_organizations setup ledger bootstrap override_document = .ok composed) :
    StrictestWins setup ledger bootstrap override_document composed := by
  obtain ⟨docs, hdocs, -⟩ := composed_of_ok h
  have hcap := composed_cap hdocs h
  constructor
  · refine ⟨_, asked_of_documents hdocs, ?_⟩
    rw [hcap]
    exact strictest_fold _
  · intro listed hperm
    obtain ⟨composed', h'⟩ := relisted_composes hperm h
    refine ⟨composed', h', ?_⟩
    obtain ⟨listed_docs, hlisted, hdocs_perm⟩ := mapM_perm hperm.symm hdocs
    have hlisted : documents setup ledger (relisted bootstrap listed) override_document =
        .ok listed_docs := hlisted
    rw [hcap, composed_cap hlisted h', fold_stricter_perm (hdocs_perm.map _)]

/-- The team, with a limit of three requests a minute. -/
def slower_crew : DesiredWire :=
  { crew with defaults := some { upstream_requests_per_minute := 3 } }

def slower_crew_text : String := "[defaults]\nupstream_requests_per_minute = 3\n\n" ++ crew_text

/-- Two organizations with a limit and, between them, one that does not ask for any. -/
def three_crews : Setup :=
  (bench [(.Toml, crew, crew_text), (.Toml, slow_crew, slow_crew_text),
    (.Toml, slower_crew, slower_crew_text)]).setup

def crews : List OrganizationConfig := [{ id := "a" }, { id := "b" }, { id := "c" }]

def crew_ledger : List ConfigRevision :=
  [{ id := 1, content := slow_crew_text, content_sha256 := "", status := .Applied,
     organization_id := some "a" },
   { id := 2, content := crew_text, content_sha256 := "", status := .Applied,
     organization_id := some "b" },
   { id := 3, content := slower_crew_text, content_sha256 := "", status := .Applied,
     organization_id := some "c" }]

theorem strictest_limit_wins_here :
    ∃ composed, compose_organizations three_crews crew_ledger
        (relisted (bench []).bootstrap crews) none = .ok composed ∧
      composed.merged.defaults.upstream_requests_per_minute = 3 ∧
      StrictestWins three_crews crew_ledger (relisted (bench []).bootstrap crews) none
        composed := by
  have hcap : (compose_organizations three_crews crew_ledger
      (relisted (bench []).bootstrap crews) none).map
      (fun composed => composed.merged.defaults.upstream_requests_per_minute) = .ok 3 := by
    decide +kernel
  obtain ⟨composed, hcomposed, hthree⟩ := map_ok hcap
  exact ⟨composed, hcomposed, hthree.symm, strictest_limit_wins hcomposed⟩

end xrelease.upstream_limit
