-- What the composition of many organizations consists of: the documents in the order of the
-- catalogue, each under its own id, and of every entry the organization that it came from.
import Xrelease.Boot
import Xrelease.Runtime

namespace xrelease.composed

open xrelease.config text keyed.Table keyed.Sorted

/-! ## The documents -/

/-- An organization's id and its document. -/
abbrev Document := String × Config

/-- The document as it is merged. -/
def namespaced (doc : Document) : Config := namespace_organization_desired doc.1 doc.2

/-- The defaults of the composition, but for the strictest cap. -/
def lead_defaults : List Document → Defaults
  | [] => {}
  | doc :: _ => if has_desired_state (namespaced doc) then (namespaced doc).defaults else {}

/-- The loop has gone through these documents. -/
structure Joined (docs : List Document) (st : Composing) : Prop where
  ids : st.seen_ids = (docs.map Prod.fst).reverse
  distinct : (docs.map Prod.fst).Nodup
  named : ∀ doc ∈ docs, doc.1 ≠ ""
  visited : st.sources.length = docs.length
  notifiers : st.merged.notifiers = docs.flatMap (fun doc => (namespaced doc).notifiers)
  sources : st.merged.sources = docs.flatMap (fun doc => (namespaced doc).sources)
  presets : st.merged.presets =
    putAll compare_str (docs.flatMap (fun doc => (namespaced doc).presets)) []
  defaults : st.merged.defaults = lead_defaults docs

theorem joined_start (override_used : Bool) : Joined [] { override_used } where
  ids := rfl
  distinct := List.nodup_nil
  named := by simp
  visited := rfl
  notifiers := rfl
  sources := rfl
  presets := rfl
  defaults := rfl

theorem lead_defaults_append {docs : List Document} (h : docs ≠ []) (doc : Document) :
    lead_defaults (docs ++ [doc]) = lead_defaults docs := by
  cases docs with
  | nil => exact absurd rfl h
  | cons first rest => rfl

/-- One more document. -/
theorem joined_join {docs : List Document} {st : Composing} (h : Joined docs st) {id : String}
    {desired : Config} (raw : String) (desired_source : DesiredSource) (used : Bool)
    (hid : id ≠ "") (hnew : id ∉ st.seen_ids) :
    Joined (docs ++ [(id, desired)])
      (join_organization { st with override_used := used } id raw desired_source
        (namespace_organization_desired id desired)) where
  ids := by simp [join_organization, h.ids]
  distinct := by
    rw [h.ids, List.mem_reverse] at hnew
    simp only [List.map_append, List.map_cons, List.map_nil]
    rw [List.nodup_append]
    refine ⟨h.distinct, List.nodup_singleton id, ?_⟩
    intro a ha b hb
    rw [List.mem_singleton.mp hb]
    rintro rfl
    exact hnew ha
  named := by
    intro doc hdoc
    rcases List.mem_append.mp hdoc with hdoc | hdoc
    · exact h.named doc hdoc
    · rw [List.mem_singleton.mp hdoc]
      exact hid
  visited := by simp [join_organization, h.visited]
  notifiers := by simp [join_organization, h.notifiers, namespaced]
  sources := by simp [join_organization, h.sources, namespaced]
  presets := by
    simp only [join_organization, List.flatMap_append, putAll_append, h.presets]
    simp [namespaced]
  defaults := by
    by_cases hd : docs = []
    · subst hd
      have hfirst : st.sources = [] := List.eq_nil_of_length_eq_zero h.visited
      have hnone := h.defaults
      simp only [lead_defaults] at hnone
      by_cases hs : has_desired_state (namespace_organization_desired id desired) = true <;>
        simp [join_organization, hfirst, lead_defaults, namespaced, hnone, hs]
    · have hlater : st.sources ≠ [] := by
        intro he
        have := h.visited
        rw [he] at this
        exact hd (List.eq_nil_of_length_eq_zero this.symm)
      rw [lead_defaults_append hd]
      simp [join_organization, hlater, h.defaults]

/-- The document of one organization of the catalogue, from its authority or as given. -/
def document_of (setup : Setup) (ledger : List ConfigRevision) (bootstrap : Config)
    (override_document : Option (String × String)) (org : OrganizationConfig) :
    Except String Document := do
  let (raw, desired_source) ← chosen_document setup ledger bootstrap override_document org
  let desired ← load_organization setup org.id raw desired_source
  return (org.id, desired)

/-- The documents that are composed. -/
def documents (setup : Setup) (ledger : List ConfigRevision) (bootstrap : Config)
    (override_document : Option (String × String)) : Except String (List Document) :=
  bootstrap.organizations.mapM (document_of setup ledger bootstrap override_document)

variable {ledger : List ConfigRevision} {override_document : Option (String × String)}

theorem compose_one_ok {setup : Setup} {bootstrap : Config} {st st' : Composing}
    {org : OrganizationConfig}
    (h : compose_one setup ledger bootstrap override_document st org = .ok st') :
    org.id ≠ "" ∧ org.id ∉ st.seen_ids ∧ ∃ raw desired_source desired used,
      document_of setup ledger bootstrap override_document org = .ok (org.id, desired) ∧
      st' = join_organization { st with override_used := used } org.id raw desired_source
        (namespace_organization_desired org.id desired) := by
  unfold compose_one at h
  split at h
  · simp at h
  · rename_i hid
    split at h
    · simp at h
    · rename_i hnew
      refine ⟨hid, hnew, ?_⟩
      cases hraw : chosen_document setup ledger bootstrap override_document org with
      | error err => simp [hraw, bind, Except.bind] at h
      | ok found =>
        cases hl : load_organization setup org.id found.1 found.2 with
        | error err => simp [hraw, hl, bind, Except.bind] at h
        | ok desired =>
          simp only [hraw, hl, bind, Except.bind, pure, Except.pure, Except.ok.injEq] at h
          refine ⟨found.1, found.2, desired, _, ?_, h.symm⟩
          simp only [document_of, hraw, hl, bind, Except.bind, pure, Except.pure]

/-- The loop over the catalogue. -/
theorem joined_fold {setup : Setup} {bootstrap : Config} {orgs : List OrganizationConfig}
    {docs : List Document} {st st' : Composing} (h : Joined docs st)
    (hfold : orgs.foldlM (compose_one setup ledger bootstrap override_document) st = .ok st') :
    ∃ more, orgs.mapM (document_of setup ledger bootstrap override_document) = .ok more ∧
      Joined (docs ++ more) st' := by
  induction orgs generalizing docs st with
  | nil =>
    obtain rfl := Except.ok.inj hfold
    exact ⟨[], rfl, by simpa using h⟩
  | cons org rest ih =>
    rw [List.foldlM_cons] at hfold
    cases hone : compose_one setup ledger bootstrap override_document st org with
    | error err => simp [hone, bind, Except.bind] at hfold
    | ok next =>
      simp only [hone, bind, Except.bind] at hfold
      obtain ⟨hid, hnew, raw, desired_source, desired, used, hdoc, rfl⟩ := compose_one_ok hone
      obtain ⟨more, hmore, hj⟩ :=
        ih (@joined_join _ _ h _ desired raw desired_source used hid hnew) hfold
      refine ⟨(org.id, desired) :: more, ?_, by simpa using hj⟩
      simp only [List.mapM_cons, hdoc, hmore, bind, Except.bind, pure, Except.pure]

/-- What runs is put together from these documents. -/
structure Composed (docs : List Document) (merged : Config) : Prop where
  distinct : (docs.map Prod.fst).Nodup
  named : ∀ doc ∈ docs, doc.1 ≠ ""
  notifiers : merged.notifiers = docs.flatMap (fun doc => (namespaced doc).notifiers)
  sources : merged.sources = docs.flatMap (fun doc => (namespaced doc).sources)
  presets : merged.presets =
    putAll compare_str (docs.flatMap (fun doc => (namespaced doc).presets)) []
  defaults : ∃ rpm, merged.defaults =
    { lead_defaults docs with upstream_requests_per_minute := rpm }

theorem composed_of_ok {setup : Setup} {bootstrap : Config} {composed : ComposedOrganizations}
    (h : compose_organizations setup ledger bootstrap override_document = .ok composed) :
    ∃ docs, documents setup ledger bootstrap override_document = .ok docs ∧
      Composed docs composed.merged := by
  unfold compose_organizations at h
  cases hfold : bootstrap.organizations.foldlM
      (compose_one setup ledger bootstrap override_document)
      { override_used := override_document.isNone } with
  | error err => simp [hfold, bind, Except.bind] at h
  | ok st =>
    obtain ⟨docs, hdocs, hj⟩ := joined_fold (joined_start _) hfold
    rw [List.nil_append] at hj
    refine ⟨docs, hdocs, ?_⟩
    simp only [hfold, bind, Except.bind] at h
    split at h
    · simp at h
    · split at h
      · simp at h
      · obtain rfl := Except.ok.inj h
        refine ⟨hj.distinct, hj.named, hj.notifiers, hj.sources, hj.presets, ?_⟩
        rw [← hj.defaults]
        exact ⟨_, rfl⟩

end xrelease.composed
