-- What the identity of a composition stands for: its bytes are those of one list of documents only,
-- as no text that parses has a NUL in it, and the documents settle what is composed.
import Xrelease.Composed
import Xrelease.Outcomes

namespace xrelease.identities

open xrelease.config xrelease.composed xrelease.outcomes text

/-! ## Bytes -/

def NulFree (s : String) : Prop := '\x00' ∉ s.toList

theorem cut_at_nul {s t rest rest' : List Char} (hs : '\x00' ∉ s) (ht : '\x00' ∉ t)
    (h : s ++ '\x00' :: rest = t ++ '\x00' :: rest') : s = t ∧ rest = rest' := by
  induction s generalizing t with
  | nil =>
    cases t with
    | nil => exact ⟨rfl, (List.cons.inj h).2⟩
    | cons c t =>
      rw [List.nil_append, List.cons_append] at h
      exact absurd (List.mem_cons.mpr (Or.inl (List.cons.inj h).1)) ht
  | cons c s ih =>
    cases t with
    | nil =>
      rw [List.nil_append, List.cons_append] at h
      exact absurd (List.mem_cons.mpr (Or.inl (List.cons.inj h).1.symm)) hs
    | cons d t =>
      rw [List.cons_append, List.cons_append] at h
      obtain ⟨rfl, htail⟩ := List.cons.inj h
      obtain ⟨rfl, hrest⟩ := ih (fun hc => hs (List.mem_cons_of_mem _ hc))
        (fun hc => ht (List.mem_cons_of_mem _ hc)) htail
      exact ⟨rfl, hrest⟩

theorem identity_bytes_cons (doc : String × String) (docs : List (String × String)) :
    (identity_bytes (doc :: docs)).toList =
      doc.1.toList ++ '\x00' :: (doc.2.toList ++ '\x00' :: (identity_bytes docs).toList) := by
  unfold identity_bytes
  rw [List.map_cons, String.join_cons]
  simp only [String.toList_append]
  have hnul : "\x00".toList = ['\x00'] := rfl
  rw [hnul]
  simp

/-- Texts without a NUL can be told from the bytes, under the same ids. -/
theorem identity_bytes_inj {docs docs' : List (String × String)}
    (hids : docs.map (·.1) = docs'.map (·.1)) (hfree : ∀ doc ∈ docs, NulFree doc.2)
    (hfree' : ∀ doc ∈ docs', NulFree doc.2) (h : identity_bytes docs = identity_bytes docs') :
    docs = docs' := by
  induction docs generalizing docs' with
  | nil =>
    cases docs' with
    | nil => rfl
    | cons doc rest => simp at hids
  | cons doc rest ih =>
    cases docs' with
    | nil => simp at hids
    | cons doc' rest' =>
      obtain ⟨id, raw⟩ := doc
      obtain ⟨id', raw'⟩ := doc'
      simp only [List.map_cons, List.cons.injEq] at hids
      obtain ⟨rfl, hids⟩ := hids
      obtain ⟨hraw, hrest⟩ := List.forall_mem_cons.mp hfree
      obtain ⟨hraw', hrest'⟩ := List.forall_mem_cons.mp hfree'
      have hbytes := congrArg String.toList h
      rw [identity_bytes_cons, identity_bytes_cons] at hbytes
      have hsame := (List.cons.inj (List.append_cancel_left hbytes)).2
      obtain ⟨hsame, hmore⟩ := cut_at_nul hraw hraw' hsame
      obtain rfl := String.toList_inj.mp hsame
      rw [ih hids hrest hrest' (String.toList_inj.mp hmore)]

/-! ## Two compositions -/

/-- The loops have come as far, but for where the documents were found. -/
structure Abreast (st st' : Composing) : Prop where
  seen_ids : st'.seen_ids = st.seen_ids
  merged : st'.merged = st.merged
  identity : st'.identity = st.identity
  strictest_rpm : st'.strictest_rpm = st.strictest_rpm
  started : st'.sources = [] ↔ st.sources = []

variable {setup : Setup} {ledger : List ConfigRevision} {bootstrap : Config}
  {composed : ComposedOrganizations}

theorem load_organization_alike {setup' : Setup} (hcodec : setup'.codec = setup.codec)
    (henv : setup'.env = setup.env) {id raw : String} {source source' : DesiredSource}
    {desired desired' : Config} (h : load_organization setup id raw source = .ok desired)
    (h' : load_organization setup' id raw source' = .ok desired') : desired' = desired := by
  unfold load_organization at h h'
  rw [hcodec, henv] at h'
  simp only [bind_ok_iff] at h h'
  obtain ⟨parsed, hparsed, _, -, h⟩ := h
  obtain ⟨parsed', hparsed', _, -, h'⟩ := h'
  obtain rfl := Except.ok.inj (hparsed.symm.trans hparsed')
  split at h
  · simp at h
  · split at h'
    · simp at h'
    · rw [← Except.ok.inj h, ← Except.ok.inj h']

/-- One turn adds a document that parses. -/
theorem compose_one_adds {override_document : Option (String × String)} {st st' : Composing}
    {org : OrganizationConfig}
    (h : compose_one setup ledger bootstrap override_document st org = .ok st') :
    ∃ raw desired_source desired used,
      load_organization setup org.id raw desired_source = .ok desired ∧
      st' = join_organization { st with override_used := used } org.id raw desired_source
        (namespace_organization_desired org.id desired) := by
  unfold compose_one at h
  split at h
  · simp at h
  · split at h
    · simp at h
    · simp only [bind_ok_iff, pure, Except.pure, Except.ok.injEq] at h
      obtain ⟨found, -, desired, hload, hst⟩ := h
      exact ⟨found.1, found.2, desired, _, hload, hst.symm⟩

theorem join_identity (st : Composing) (id raw : String) (desired_source : DesiredSource)
    (desired : Config) :
    (join_organization st id raw desired_source desired).identity = st.identity ++ [(id, raw)] :=
  rfl

/-- A text that parses is in the list of those that the library reads. -/
theorem load_free
    (hnul : ∀ format text config, setup.codec.read format text = some config → NulFree text)
    {id raw : String} {desired_source : DesiredSource} {desired : Config}
    (h : load_organization setup id raw desired_source = .ok desired) : NulFree raw := by
  have hparse : ∀ {format config}, parse_as setup.codec raw format = .ok config → NulFree raw := by
    intro format config hp
    unfold parse_as at hp
    split at hp
    · simp at hp
    · split at hp
      · rename_i hread
        exact hnul _ _ _ hread
      · cases format <;> simp at hp
  unfold load_organization at h
  simp only [bind_ok_iff] at h
  obtain ⟨parsed, hparsed, -⟩ := h
  unfold parse_desired_document parse_desired_document_with_hint at hparsed
  simp only at hparsed
  split at hparsed
  · rename_i hp
    exact hparse hp
  · split at hparsed
    · rename_i hp
      exact hparse hp
    · simp at hparsed

/-- What the loop adds to the identity: a text without a NUL for each organization. -/
theorem fold_adds
    (hnul : ∀ format text config, setup.codec.read format text = some config → NulFree text)
    {override_document : Option (String × String)} {orgs : List OrganizationConfig}
    {st st' : Composing}
    (h : orgs.foldlM (compose_one setup ledger bootstrap override_document) st = .ok st') :
    ∃ docs : List (String × String), st'.identity = st.identity ++ docs ∧
      docs.map (·.1) = orgs.map (·.id) ∧ ∀ doc ∈ docs, NulFree doc.2 := by
  induction orgs generalizing st with
  | nil =>
    obtain rfl := Except.ok.inj h
    exact ⟨[], by simp, rfl, by simp⟩
  | cons org rest ih =>
    rw [List.foldlM_cons, bind_ok_iff] at h
    obtain ⟨next, hone, hrest⟩ := h
    obtain ⟨raw, desired_source, desired, used, hload, rfl⟩ := compose_one_adds hone
    obtain ⟨docs, hdocs, hids, hfree⟩ := ih hrest
    refine ⟨(org.id, raw) :: docs, ?_, by simp [hids], ?_⟩
    · rw [hdocs, join_identity]
      simp
    · exact List.forall_mem_cons.mpr ⟨load_free hnul hload, hfree⟩

/-- Loops over the same documents end up the same. -/
theorem fold_abreast {setup' : Setup} (hcodec : setup'.codec = setup.codec)
    (henv : setup'.env = setup.env)
    (hnul : ∀ format text config, setup.codec.read format text = some config → NulFree text)
    {ledger' : List ConfigRevision} {orgs : List OrganizationConfig} {st st' t t' : Composing}
    (habreast : Abreast st st')
    (h : orgs.foldlM (compose_one setup ledger bootstrap none) st = .ok t)
    (h' : orgs.foldlM (compose_one setup' ledger' bootstrap none) st' = .ok t')
    (hidentity : t'.identity = t.identity) : Abreast t t' := by
  induction orgs generalizing st st' with
  | nil =>
    obtain rfl := Except.ok.inj h
    obtain rfl := Except.ok.inj h'
    exact habreast
  | cons org rest ih =>
    rw [List.foldlM_cons, bind_ok_iff] at h h'
    obtain ⟨next, hone, hrest⟩ := h
    obtain ⟨next', hone', hrest'⟩ := h'
    obtain ⟨raw, source, desired, used, hload, rfl⟩ := compose_one_adds hone
    obtain ⟨raw', source', desired', used', hload', rfl⟩ := compose_one_adds hone'
    obtain ⟨docs, hdocs, -⟩ := fold_adds hnul hrest
    obtain ⟨docs', hdocs', -⟩ := fold_adds (hcodec ▸ hnul) hrest'
    have hraw : raw' = raw := by
      rw [hdocs, hdocs', join_identity, join_identity, habreast.identity, List.append_assoc,
        List.append_assoc, List.append_cancel_left_eq] at hidentity
      exact (Prod.mk.inj (List.cons.inj hidentity).1).2
    subst hraw
    obtain rfl := load_organization_alike hcodec henv hload hload'
    refine ih ?_ hrest hrest'
    obtain ⟨hseen, hmerged, hid, hrpm, hstarted⟩ := habreast
    constructor
    · simp [join_organization, hseen]
    · simp [join_organization, hmerged, hstarted]
    · simp [join_organization, hid]
    · simp [join_organization, hrpm]
    · simp [join_organization]

/-- The documents of a composition, in the order of the catalogue. -/
def documents_read (setup : Setup) (ledger : List ConfigRevision) (bootstrap : Config) :
    List (String × String) :=
  match bootstrap.organizations.foldlM (compose_one setup ledger bootstrap none)
      { override_used := true } with
  | .ok st => st.identity
  | .error _ => []

theorem composed_fold (h : compose_organizations setup ledger bootstrap none = .ok composed) :
    ∃ st, bootstrap.organizations.foldlM (compose_one setup ledger bootstrap none)
        { override_used := true } = .ok st ∧
      composed.identity_sha256 = setup.sha256 (identity_bytes st.identity) ∧
      composed.merged =
        merge_bootstrap_over_desired bootstrap (with_strictest st.merged st.strictest_rpm) := by
  unfold compose_organizations at h
  rw [bind_ok_iff] at h
  obtain ⟨st, hfold, h⟩ := h
  refine ⟨st, hfold, ?_⟩
  split at h
  · simp at h
  · simp only at h
    split at h
    · simp at h
    · obtain rfl := Except.ok.inj h
      exact ⟨rfl, rfl⟩

theorem composed_identity (h : compose_organizations setup ledger bootstrap none = .ok composed) :
    composed.identity_sha256 =
      setup.sha256 (identity_bytes (documents_read setup ledger bootstrap)) := by
  obtain ⟨st, hfold, hidentity, -⟩ := composed_fold h
  unfold documents_read
  rw [hidentity, hfold]

/-- Compositions with the same bytes run the same. -/
theorem composed_alike {setup' : Setup} (hcodec : setup'.codec = setup.codec)
    (henv : setup'.env = setup.env)
    (hnul : ∀ format text config, setup.codec.read format text = some config → NulFree text)
    {ledger' : List ConfigRevision} {composed' : ComposedOrganizations}
    (h : compose_organizations setup ledger bootstrap none = .ok composed)
    (h' : compose_organizations setup' ledger' bootstrap none = .ok composed')
    (hbytes : identity_bytes (documents_read setup' ledger' bootstrap) =
      identity_bytes (documents_read setup ledger bootstrap)) :
    composed'.merged = composed.merged := by
  obtain ⟨st, hfold, -, hmerged⟩ := composed_fold h
  obtain ⟨st', hfold', -, hmerged'⟩ := composed_fold h'
  unfold documents_read at hbytes
  simp only [hfold, hfold'] at hbytes
  obtain ⟨docs, hdocs, hids, hfree⟩ := fold_adds hnul hfold
  obtain ⟨docs', hdocs', hids', hfree'⟩ := fold_adds (hcodec ▸ hnul) hfold'
  rw [List.nil_append] at hdocs hdocs'
  have hsame : st'.identity = st.identity := by
    apply identity_bytes_inj _ _ _ hbytes
    · rw [hdocs, hdocs', hids, hids']
    · rw [hdocs']
      exact hfree'
    · rw [hdocs]
      exact hfree
  have habreast := fold_abreast hcodec henv hnul ⟨rfl, rfl, rfl, rfl, Iff.rfl⟩ hfold hfold' hsame
  rw [hmerged, hmerged', habreast.merged, habreast.strictest_rpm]

end xrelease.identities
