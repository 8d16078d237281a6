-- The advisory coordinate of a source, as its four callers rebuild it (`advisory/mod.rs`,
-- `pipeline/outbox.rs`, `scheduler.rs`, `api/observability.rs`): what is read out of the id, what
-- of the kind and the title, and when that is the package the source watches.
import Xrelease.Findings
import Xrelease.Providers
import Xrelease.SourceIds

namespace xrelease.coordinates

open text xrelease.advisory xrelease.config xrelease.config_apply xrelease.isolated
  xrelease.model xrelease.notify xrelease.outbox xrelease.pipeline xrelease.predicted
  xrelease.validate
open keyed (Serial)
open store (Event Db OutboxRecord OutboxRow OutboxMeta insert_outbox outbox_record_from_row)

/-! ## What an id spells -/

/-- Behind its organization the id spells this package of this registry. -/
def Reads (id : String) (registry : PackageRegistry) (text : String) : Prop :=
  bare_id id = registry.config_prefix ++ ":" ++ text ∧ trim text ≠ ""

/-- Behind its organization the id is of the old shared form, with this name. -/
def Legacy (id text : String) : Prop := bare_id id = "package:" ++ text ∧ text ≠ ""

theorem from_kind_iff (kind : String) (registry : PackageRegistry) :
    from_kind kind = some registry ↔ kind = registry.config_prefix := by
  constructor
  · intro h
    have hfound := List.find?_some h
    simp only [decide_eq_true_eq] at hfound
    exact hfound.symm
  · rintro rfl
    cases registry <;> decide

/-- The kind has no colon of its own. -/
def Plain (kind : String) : Prop :=
  split_once_at [':'] (kind.toList ++ [':']) = some (kind.toList, [])

variable {kind id text name : String} {registry : PackageRegistry}

theorem split_at_colon (h : Plain kind) (text : String) :
    split_once ":" (kind ++ ":" ++ text) = some (kind, text) := by
  have hsplit := split_once_at_append (by simp) h text.toList
  unfold split_once
  rw [String.toList_append, String.toList_append]
  change Option.map _ (split_once_at [':'] (kind.toList ++ [':'] ++ text.toList)) = _
  rw [hsplit]
  simp

theorem registry_plain (registry : PackageRegistry) : Plain registry.config_prefix := by
  unfold Plain
  cases registry <;> decide

theorem read_iff (id : String) (registry : PackageRegistry) (name : String) :
    coordinate_from_source_id id = some (registry, name) ↔
      ∃ text, Reads id registry text ∧ name = trim text := by
  unfold coordinate_from_source_id
  constructor
  · intro h
    obtain ⟨⟨kind, text⟩, hsplit, h⟩ := Option.bind_eq_some_iff.mp h
    obtain ⟨found, hfound, h⟩ := Option.bind_eq_some_iff.mp h
    by_cases hblank : trim text ≠ ""
    · simp only [if_pos hblank, Option.some.injEq, Prod.mk.injEq] at h
      obtain ⟨rfl, rfl⟩ := h
      obtain rfl := (from_kind_iff kind found).mp hfound
      exact ⟨text, ⟨source_ids.split_once_eq hsplit, hblank⟩, rfl⟩
    · simp [hblank] at h
  · rintro ⟨text, ⟨hbare, hblank⟩, rfl⟩
    rw [hbare, split_at_colon (registry_plain registry)]
    have hkind := (from_kind_iff registry.config_prefix registry).mpr rfl
    simp [hkind, hblank]

theorem unread_iff (id : String) :
    coordinate_from_source_id id = none ↔ ∀ registry text, ¬ Reads id registry text := by
  constructor
  · intro h registry text hreads
    have := (read_iff id registry (trim text)).mpr ⟨text, hreads, rfl⟩
    rw [h] at this
    simp at this
  · intro h
    cases hread : coordinate_from_source_id id with
    | none => rfl
    | some found =>
      obtain ⟨text, hreads, -⟩ := (read_iff id found.1 found.2).mp hread
      exact absurd hreads (h _ _)

/-- An id spells one package. -/
theorem reads_once {other : PackageRegistry} {text' : String} (h : Reads id registry text)
    (h' : Reads id other text') :
    registry = other ∧ trim text = trim text' := by
  have hone := (read_iff id registry (trim text)).mpr ⟨text, h, rfl⟩
  have htwo := (read_iff id other (trim text')).mpr ⟨text', h', rfl⟩
  rw [hone] at htwo
  simpa using htwo

theorem legacy_iff (id text : String) :
    legacy_shared_package_name id = some text ↔ Legacy id text := by
  unfold legacy_shared_package_name strip_prefix_of Legacy
  rw [Option.filter_eq_some_iff]
  constructor
  · rintro ⟨h, hne⟩
    split at h
    · rename_i hpre
      obtain ⟨rest, hrest⟩ := List.isPrefixOf_iff_prefix.mp hpre
      rw [← hrest, List.drop_left] at h
      obtain rfl := Option.some.inj h
      refine ⟨?_, by simpa using hne⟩
      have hlist : (String.ofList rest).toList = rest := String.toList_ofList
      rw [← String.toList_inj, String.toList_append, hlist, hrest]
    · simp at h
  · rintro ⟨hbare, hne⟩
    rw [hbare, String.toList_append, if_pos (List.isPrefixOf_iff_prefix.mpr ⟨_, rfl⟩),
      List.drop_left, String.ofList_toList]
    exact ⟨rfl, by simpa using hne⟩

/-- What stands behind a kind that is no registry spells no package. -/
theorem unread_of_kind (hplain : Plain kind) (hkind : from_kind kind = none) {rest : String}
    (h : bare_id id = kind ++ ":" ++ rest) (registry : PackageRegistry) (text : String) :
    ¬ Reads id registry text := by
  rintro ⟨hbare, -⟩
  have hsplit := split_at_colon hplain rest
  rw [← h, hbare, split_at_colon (registry_plain registry)] at hsplit
  have heq := congrArg Prod.fst (Option.some.inj hsplit)
  rw [(from_kind_iff kind registry).mpr heq.symm] at hkind
  simp at hkind

theorem legacy_spells (h : Legacy id text) :
    bare_id id = "package" ++ ":" ++ text := h.1

/-- The old shared form spells no package of a registry. -/
theorem legacy_unread (h : Legacy id name) (registry : PackageRegistry) (text : String) :
    ¬ Reads id registry text :=
  unread_of_kind (by unfold Plain; decide) (by decide) (legacy_spells h) registry text

/-! ## The coordinate -/

/-- The registry of a kind, or of what a kind is called in a notification. -/
def registry_of (kind : String) : Option PackageRegistry :=
  (from_kind kind).or (from_kind_label kind)

theorem coordinate_of_reads (h : Reads id registry text) (kind hint : String) :
    coordinate_from_source id kind hint =
      some (registry, if trim hint = "" then trim text else trim hint) := by
  have hread := (read_iff id registry (trim text)).mpr ⟨text, h, rfl⟩
  unfold coordinate_from_source
  rw [hread]
  by_cases hblank : trim hint = ""
  · simp [hblank, h.2]
  · simp [hblank]

theorem coordinate_of_unread (h : ∀ registry text, ¬ Reads id registry text) (kind hint : String) :
    coordinate_from_source id kind hint =
      (registry_of kind).bind (fun registry =>
        if trim hint = "" then (legacy_shared_package_name id).map (registry, ·)
        else some (registry, trim hint)) := by
  have hread := (unread_iff id).mpr h
  unfold coordinate_from_source registry_of
  rw [hread]
  cases (from_kind kind).or (from_kind_label kind) with
  | none => simp
  | some registry =>
    by_cases hblank : trim hint = ""
    · cases hlegacy : legacy_shared_package_name id with
      | none => simp [hblank]
      | some name =>
        have hne := ((legacy_iff id name).mp hlegacy).2
        simp [hblank, hne]
    · simp [hblank]

/-- The id is not that of another registry. -/
def Unclaimed (id : String) (registry : PackageRegistry) : Prop :=
  ∀ other text, Reads id other text → other = registry

/-- When the coordinate of a package is that of its source, by the hint that came with it. -/
theorem coordinate_own_iff (hkind : registry_of kind = some registry) (id hint name : String) :
    coordinate_from_source id kind hint = some (registry, name) ↔
      Unclaimed id registry ∧
        (trim hint ≠ "" ∧ trim hint = name ∨
          trim hint = "" ∧ ((∃ text, Reads id registry text ∧ trim text = name) ∨
            Legacy id name)) := by
  by_cases hread : ∃ other text, Reads id other text
  · obtain ⟨other, text, hreads⟩ := hread
    have hno : ¬ Legacy id name := fun hlegacy => legacy_unread hlegacy other text hreads
    rw [coordinate_of_reads hreads]
    simp only [Option.some.injEq, Prod.mk.injEq]
    constructor
    · rintro ⟨rfl, hname⟩
      refine ⟨fun o t h => (reads_once h hreads).1, ?_⟩
      by_cases hblank : trim hint = ""
      · rw [if_pos hblank] at hname
        exact Or.inr ⟨hblank, Or.inl ⟨text, hreads, hname⟩⟩
      · rw [if_neg hblank] at hname
        exact Or.inl ⟨hblank, hname⟩
    · rintro ⟨hfree, hname⟩
      refine ⟨hfree other text hreads, ?_⟩
      rcases hname with ⟨hblank, hname⟩ | ⟨hblank, ⟨t, ht, hname⟩ | hlegacy⟩
      · rw [if_neg hblank, hname]
      · rw [if_pos hblank, ← hname]
        exact (reads_once hreads ht).2
      · exact absurd hlegacy hno
  · have hunread : ∀ other text, ¬ Reads id other text :=
      fun other text h => hread ⟨other, text, h⟩
    rw [coordinate_of_unread hunread, hkind, Option.bind_some]
    have hfree : Unclaimed id registry := fun other text h => absurd h (hunread other text)
    by_cases hblank : trim hint = ""
    · rw [if_pos hblank, Option.map_eq_some_iff]
      constructor
      · rintro ⟨found, hlegacy, hname⟩
        obtain rfl := congrArg Prod.snd hname
        exact ⟨hfree, Or.inr ⟨hblank, Or.inr ((legacy_iff id _).mp hlegacy)⟩⟩
      · rintro ⟨-, ⟨hne, -⟩ | ⟨-, ⟨t, ht, -⟩ | hlegacy⟩⟩
        · exact absurd hblank hne
        · exact absurd ht (hunread registry t)
        · exact ⟨name, (legacy_iff id name).mpr hlegacy, rfl⟩
    · rw [if_neg hblank]
      simp only [Option.some.injEq, Prod.mk.injEq, true_and]
      constructor
      · exact fun h => ⟨hfree, Or.inl ⟨hblank, h⟩⟩
      · rintro ⟨-, ⟨-, h⟩ | ⟨h, -⟩⟩
        · exact h
        · exact absurd h hblank

/-- A kind that is no registry has a coordinate exactly if its id spells one. -/
theorem coordinate_none_iff (hkind : registry_of kind = none) (id hint : String) :
    coordinate_from_source id kind hint = none ↔ ∀ registry text, ¬ Reads id registry text := by
  constructor
  · intro h registry text hreads
    rw [coordinate_of_reads hreads] at h
    simp at h
  · intro h
    rw [coordinate_of_unread h, hkind, Option.bind_none]

/-! ## The hint of a flush -/

/-- A separator whose first character does not come again in it starts inside of the text before
it, or behind all of that. -/
theorem split_before {c : Char} {tail : List Char} (hc : c ∉ tail) (s rest : List Char) :
    split_once_at (c :: tail) (s ++ (c :: tail) ++ rest) =
      some (match split_once_at (c :: tail) s with
        | some (before, after) => (before, after ++ (c :: tail) ++ rest)
        | none => (s, rest)) := by
  induction s with
  | nil =>
    unfold split_once_at
    simp
  | cons d s ih =>
    have hpre : (c :: tail).isPrefixOf (d :: (s ++ (c :: tail) ++ rest)) =
        (c :: tail).isPrefixOf (d :: s) := by
      rw [Bool.eq_iff_iff, List.isPrefixOf_iff_prefix, List.isPrefixOf_iff_prefix,
        List.cons_prefix_cons, List.cons_prefix_cons, and_congr_right_iff]
      rintro -
      constructor
      · intro h
        rcases Nat.lt_or_ge s.length tail.length with hlt | hge
        · exfalso
          rw [List.append_assoc] at h
          have hhead := h.getElem (i := s.length) hlt
          rw [List.getElem_append_right (Nat.le_refl _)] at hhead
          simp only [Nat.sub_self, List.cons_append, List.getElem_cons_zero] at hhead
          exact hc (hhead ▸ List.getElem_mem hlt)
        · exact List.prefix_of_prefix_length_le h ⟨(c :: tail) ++ rest, by simp⟩ hge
      · exact fun h => h.trans ⟨(c :: tail) ++ rest, by simp⟩
    rw [List.cons_append, List.cons_append]
    unfold split_once_at
    rw [hpre]
    split
    · rename_i hp
      obtain ⟨t, ht⟩ := List.isPrefixOf_iff_prefix.mp hp
      obtain ⟨rfl, rfl⟩ := List.cons.inj ht
      simp
    · rw [ih]
      cases split_once_at (c :: tail) s <;> rfl

def NEW_RELEASE : String := ": new release "

/-- The name up to the first place where it announces a release itself. -/
def cut_name (name : String) : String := ((split_once NEW_RELEASE name).map Prod.fst).getD name

/-- What a flush reads of its row: the old shared name in the id, else the title up to the first
place where a release is announced. -/
theorem hint_of_title (id name raw_tag : String) :
    package_name_hint_for_advisory id (name ++ NEW_RELEASE ++ raw_tag) =
      (legacy_shared_package_name id).getD (cut_name name) := by
  have hcut : ((split_once NEW_RELEASE (name ++ NEW_RELEASE ++ raw_tag)).map Prod.fst).getD "" =
      cut_name name := by
    unfold cut_name split_once
    rw [String.toList_append, String.toList_append]
    change ((Option.map _ (split_once_at (':' :: " new release ".toList)
      (name.toList ++ (':' :: " new release ".toList) ++ raw_tag.toList))).map Prod.fst).getD "" = _
    rw [split_before (by decide)]
    change _ = ((Option.map _
      (split_once_at (':' :: " new release ".toList) name.toList)).map Prod.fst).getD name
    cases split_once_at (':' :: " new release ".toList) name.toList <;> simp
  rw [← hcut]
  unfold package_name_hint_for_advisory legacy_shared_package_name bare_id
  dsimp only
  cases (strip_prefix_of "package:" _).filter _ <;> rfl

theorem not_blank_head {c : Char} {s : List Char} (h : trimmed (c :: s) = c :: s) :
    is_whitespace c = false := by
  by_contra hblank
  rw [Bool.not_eq_false] at hblank
  have hlen := congrArg List.length h
  have hsame : trimmed (c :: s) = trimmed s := by
    unfold trimmed trim_start_matches
    rw [List.dropWhile_cons_of_pos hblank]
  rw [hsame, List.length_cons] at hlen
  have := source_ids.length_trimmed_le s
  omega

/-- A trimmed text has no blank text before anything in it. -/
theorem blank_front {front rest : String} (h : trim name = name) (heq : name = front ++ rest)
    (hblank : trim front = "") : front = "" := by
  have hlist : trimmed name.toList = name.toList := by
    have := congrArg String.toList h
    rwa [trim, String.toList_ofList] at this
  rw [← String.toList_inj]
  cases hfront : front.toList with
  | nil => rfl
  | cons c tail =>
    rw [heq, String.toList_append, hfront, List.cons_append] at hlist
    have hc := not_blank_head hlist
    have hnil := congrArg String.toList hblank
    rw [trim, String.toList_ofList, hfront] at hnil
    exact absurd hnil (trimmed_ne_nil List.mem_cons_self hc)

theorem trim_shorter {front rest : String} (heq : name = front ++ NEW_RELEASE ++ rest) :
    trim front ≠ name := by
  intro h
  have hlen := congrArg (fun s : String => s.toList.length) h
  rw [heq] at hlen
  simp only [trim, String.toList_ofList, String.toList_append, List.length_append] at hlen
  have := source_ids.length_trimmed_le front.toList
  have hsep : 0 < NEW_RELEASE.toList.length := by decide
  omega

theorem split_at_start (h : starts_with NEW_RELEASE name = true) :
    ∃ rest, split_once NEW_RELEASE name = some ("", rest) := by
  unfold starts_with at h
  unfold split_once split_once_at
  cases hname : name.toList with
  | nil =>
    rw [hname] at h
    exact absurd h (by decide)
  | cons c tail =>
    rw [hname] at h
    simp only [if_pos h]
    exact ⟨_, rfl⟩

/-! ## What the coordinate of a package has to be -/

/-- Before the first place where the title announces a release stands the name; or nothing, but
then the id spells the name. -/
def TitleKeeps (id : String) (registry : PackageRegistry) (name : String) : Prop :=
  contains NEW_RELEASE name = false ∨
    starts_with NEW_RELEASE name = true ∧ ∃ text, Reads id registry text ∧ trim text = name

/-- The id and the name of a package that leave it its coordinate. -/
def KeepsPackage (id : String) (registry : PackageRegistry) (name : String) : Prop :=
  name ≠ "" ∧
    (trim name = name ∧ Unclaimed id registry ∧
        ((∃ text, Legacy id text ∧ trim text = name) ∨
          (∀ text, ¬ Legacy id text) ∧ TitleKeeps id registry name) ∨
      trim name = "" ∧ Legacy id name)

theorem inline_iff (hkind : registry_of kind = some registry) (id name : String) :
    coordinate_from_source id kind name = some (registry, name) ↔
      name ≠ "" ∧ Unclaimed id registry ∧
        (trim name = name ∨ trim name = "" ∧ Legacy id name) := by
  rw [coordinate_own_iff hkind]
  constructor
  · rintro ⟨hfree, ⟨hne, htrim⟩ | ⟨hblank, ⟨text, hreads, rfl⟩ | hlegacy⟩⟩
    · exact ⟨htrim ▸ hne, hfree, Or.inl htrim⟩
    · exact absurd (vaulted.trim_trim text ▸ hblank) hreads.2
    · exact ⟨hlegacy.2, hfree, Or.inr ⟨hblank, hlegacy⟩⟩
  · rintro ⟨hne, hfree, htrim | ⟨hblank, hlegacy⟩⟩
    · exact ⟨hfree, Or.inl ⟨htrim.symm ▸ hne, htrim⟩⟩
    · exact ⟨hfree, Or.inr ⟨hblank, Or.inr hlegacy⟩⟩

theorem legacy_once (h : Legacy id name) (h' : Legacy id text) :
    name = text := by
  have hone := (legacy_iff id name).mpr h
  rw [(legacy_iff id text).mpr h'] at hone
  exact (Option.some.inj hone).symm

/-- An id of the old shared form: the flush takes the name out of it. -/
theorem keeps_legacy_iff {label : String} (hkind : registry_of kind = some registry)
    (hlabel : registry_of label = some registry) (h : Legacy id text) (name : String) :
    coordinate_from_source id kind name = some (registry, name) ∧
        coordinate_from_source id label text = some (registry, name) ↔
      KeepsPackage id registry name := by
  have hunread := legacy_unread h
  have hfree : Unclaimed id registry := fun other t hreads => absurd hreads (hunread other t)
  rw [inline_iff hkind, coordinate_own_iff hlabel]
  constructor
  · rintro ⟨⟨hne, -, -⟩, -, ⟨-, htext⟩ | ⟨hblank, ⟨t, ht, -⟩ | hlegacy⟩⟩
    · refine ⟨hne, Or.inl ⟨?_, hfree, Or.inl ⟨text, h, htext⟩⟩⟩
      rw [← htext, vaulted.trim_trim]
    · exact absurd ht (hunread registry t)
    · obtain rfl := legacy_once h hlegacy
      exact ⟨hne, Or.inr ⟨hblank, hlegacy⟩⟩
  · rintro ⟨hne, ⟨htrim, -, ⟨t, ht, htext⟩ | ⟨hno, -⟩⟩ | ⟨hblank, hlegacy⟩⟩
    · obtain rfl := legacy_once h ht
      exact ⟨⟨hne, hfree, Or.inl htrim⟩, hfree, Or.inl ⟨htext ▸ hne, htext⟩⟩
    · exact absurd h (hno text)
    · obtain rfl := legacy_once h hlegacy
      exact ⟨⟨hne, hfree, Or.inr ⟨hblank, h⟩⟩, hfree, Or.inr ⟨hblank, Or.inr h⟩⟩

/-- Every other id: the flush takes the name out of the title. -/
theorem keeps_titled_iff {label : String} (hkind : registry_of kind = some registry)
    (hlabel : registry_of label = some registry) (h : ∀ text, ¬ Legacy id text) (name : String) :
    coordinate_from_source id kind name = some (registry, name) ∧
        coordinate_from_source id label (cut_name name) = some (registry, name) ↔
      KeepsPackage id registry name := by
  have hshape : KeepsPackage id registry name ↔
      name ≠ "" ∧ trim name = name ∧ Unclaimed id registry ∧ TitleKeeps id registry name := by
    constructor
    · rintro ⟨hne, ⟨htrim, hfree, ⟨t, ht, -⟩ | ⟨-, htitle⟩⟩ | ⟨-, hlegacy⟩⟩
      · exact absurd ht (h t)
      · exact ⟨hne, htrim, hfree, htitle⟩
      · exact absurd hlegacy (h name)
    · exact fun ⟨hne, htrim, hfree, htitle⟩ =>
        ⟨hne, Or.inl ⟨htrim, hfree, Or.inr ⟨h, htitle⟩⟩⟩
  have hinline : coordinate_from_source id kind name = some (registry, name) ↔
      name ≠ "" ∧ trim name = name ∧ Unclaimed id registry := by
    rw [inline_iff hkind]
    constructor
    · rintro ⟨hne, hfree, htrim | ⟨-, hlegacy⟩⟩
      · exact ⟨hne, htrim, hfree⟩
      · exact absurd hlegacy (h name)
    · exact fun ⟨hne, htrim, hfree⟩ => ⟨hne, hfree, Or.inl htrim⟩
  rw [hshape, hinline, coordinate_own_iff hlabel]
  unfold TitleKeeps contains cut_name
  cases hsplit : split_once NEW_RELEASE name with
  | none =>
    constructor
    · exact fun ⟨⟨hne, htrim, hfree⟩, _⟩ => ⟨hne, htrim, hfree, Or.inl rfl⟩
    · exact fun ⟨hne, htrim, hfree, _⟩ =>
        ⟨⟨hne, htrim, hfree⟩, hfree, Or.inl ⟨htrim.symm ▸ hne, htrim⟩⟩
  | some parts =>
    obtain ⟨front, rest⟩ := parts
    have heq := source_ids.split_once_eq hsplit
    constructor
    · rintro ⟨⟨hne, htrim, hfree⟩, -, ⟨-, hname⟩ | ⟨hblank, hreads | hlegacy⟩⟩
      · exact absurd hname (trim_shorter heq)
      · rw [String.append_assoc] at heq
        have hfront := blank_front htrim heq hblank
        refine ⟨hne, htrim, hfree, Or.inr ⟨?_, hreads⟩⟩
        unfold starts_with
        rw [heq, hfront, String.empty_append, String.toList_append]
        exact List.isPrefixOf_iff_prefix.mpr ⟨_, rfl⟩
      · exact absurd hlegacy (h name)
    · rintro ⟨hne, htrim, hfree, hno | ⟨hstart, hreads⟩⟩
      · simp at hno
      · obtain ⟨after, hafter⟩ := split_at_start hstart
        rw [hsplit] at hafter
        have hfront := congrArg Prod.fst (Option.some.inj hafter)
        simp only at hfront
        refine ⟨⟨hne, htrim, hfree⟩, hfree, Or.inr ⟨?_, Or.inl hreads⟩⟩
        rw [hfront]
        rfl

/-! ## The four callers -/

/-- What a delivery looks up (`enrich_with_advisories`). -/
def coordinate_of (context : DeliveryContext) : Option (PackageRegistry × String) :=
  coordinate_from_source context.source_id context.kind context.package_name

/-- What a flush knows of the release in a row. -/
def flush_context (row : OutboxRecord) : DeliveryContext where
  event := row.to_event
  source_id := row.source_id
  kind := row.source_kind
  package_name := package_name_hint_for_advisory row.source_id row.title
  seen := seen_upsert_for row

/-- What a detail page looks up (`backfill_advisories_for_detail`). -/
def detail_coordinate (watch : pipeline.Watch) : Option (PackageRegistry × String) :=
  coordinate_from_source watch.provider.id watch.provider.kind watch.provider.display_name

/-- The row carries this event. -/
def Carries (row : OutboxRecord) (event : Event) : Prop :=
  row.source_id = event.source_id ∧ row.source_kind = event.source_kind ∧
    row.title = event.title

/-! ## The law -/

/-- The package of a source, when it watches one. -/
def own_coordinate : SourceConfig → Option (PackageRegistry × String)
  | .Package registry c => some (registry, c.name)
  | _ => none

/-- Every caller asks about the source's own package, or about none. -/
structure OwnCoordinate (source : SourceConfig) (watch : pipeline.Watch) (release : Release) :
    Prop where
  inline : coordinate_of (context_of watch release) = own_coordinate source
  flush : ∀ row, Carries row (event_of watch release) →
    coordinate_of (flush_context row) = own_coordinate source
  sweep : sweep_target watch = (own_coordinate source).bind (fun own =>
    (Ecosystem.for_registry own.1).map (fun ecosystem =>
      ⟨watch.provider.id, own.1, ecosystem.as_str, own.2⟩))
  detail : detail_coordinate watch = own_coordinate source

/-- The id leaves a package its coordinate, and spells none for any other source. -/
def KeepsCoordinate (source : SourceConfig) (id : String) : Prop :=
  match source with
  | .Package registry c => KeepsPackage id registry c.name
  | _ => ∀ registry text, ¬ Reads id registry text

/-- The row of a release, as an insert or a reopen leaves it. -/
def sample_row (event : Event) : OutboxRecord where
  id := 0
  source_id := event.source_id
  identity := ""
  content_digest := none
  display_tag := none
  published_at := none
  title := event.title
  body := event.body
  url := event.url
  routing_tag := event.routing_tag
  source_kind := event.source_kind
  attempts := 0
  deliver_after := none

theorem title_of (watch : pipeline.Watch) (release : Release) :
    (event_of watch release).title =
      watch.provider.display_name ++ NEW_RELEASE ++ release.raw_tag := by
  unfold event_of build_event
  simp only [toString, NEW_RELEASE]

/-- All four ask with one of two coordinates. -/
theorem own_coordinate_of (source : SourceConfig) (watch : pipeline.Watch) (release : Release) :
    OwnCoordinate source watch release ↔
      coordinate_from_source watch.provider.id watch.provider.kind watch.provider.display_name =
          own_coordinate source ∧
        coordinate_from_source watch.provider.id watch.provider.kind_label
            ((legacy_shared_package_name watch.provider.id).getD
              (cut_name watch.provider.display_name)) =
          own_coordinate source := by
  have hflush : ∀ row, Carries row (event_of watch release) →
      coordinate_of (flush_context row) =
        coordinate_from_source watch.provider.id watch.provider.kind_label
          ((legacy_shared_package_name watch.provider.id).getD
            (cut_name watch.provider.display_name)) := by
    rintro row ⟨hid, hkind, htitle⟩
    rw [← hint_of_title watch.provider.id watch.provider.display_name release.raw_tag,
      ← title_of]
    unfold coordinate_of flush_context
    simp only
    rw [hid, hkind, htitle]
    rfl
  constructor
  · intro h
    refine ⟨h.inline, ?_⟩
    rw [← hflush (sample_row (event_of watch release)) ⟨rfl, rfl, rfl⟩]
    exact h.flush _ ⟨rfl, rfl, rfl⟩
  · rintro ⟨hinline, htitle⟩
    refine ⟨hinline, fun row hrow => (hflush row hrow).trans htitle, ?_, hinline⟩
    unfold sweep_target
    rw [hinline]
    cases own_coordinate source with
    | none => rfl
    | some own =>
      change (Ecosystem.for_registry own.1).bind _ = (Ecosystem.for_registry own.1).map _
      cases Ecosystem.for_registry own.1 <;> rfl

theorem registry_of_package (registry : PackageRegistry) :
    registry_of registry.config_prefix = some registry ∧
      registry_of (advisory.kind_label registry) = some registry := by
  cases registry <;> exact ⟨by decide, by decide⟩

/-- No other kind of source is called as a registry is, nor is its label. -/
theorem registry_of_other {source : SourceConfig} (h : own_coordinate source = none) :
    registry_of source.kind = none ∧ registry_of source.kind_label = none := by
  unfold SourceConfig.kind SourceConfig.kind_label
  cases source with
  | Package registry c => simp [own_coordinate] at h
  | Docker c =>
    simp only
    split <;> decide
  | Image registry c =>
    simp only
    cases registry <;> simp only <;> decide
  | _ => exact ⟨by simp only; decide, by simp only; decide⟩

theorem provider_of_same (env vault : String → Option String) (source : SourceConfig) :
    (provider_of env vault source).kind = source.kind ∧
      (provider_of env vault source).kind_label = source.kind_label ∧
      (provider_of env vault source).display_name = source.display_name := by
  cases source with
  | Image registry c => cases registry <;> exact ⟨rfl, rfl, rfl⟩
  | _ => exact ⟨rfl, rfl, rfl⟩

/-- The running provider of a configured source: its kind, its label and what it watches. -/
theorem configured {makers : Makers} {env vault : String → Option String} {defaults : Defaults}
    {presets : List (String × SourcePreset)} {source : SourceConfig} {watch : config.Watch}
    (h : watch_of makers env vault defaults presets source = .ok watch) :
    watch.running.provider.kind = source.kind ∧
      watch.running.provider.kind_label = source.kind_label ∧
      watch.running.provider.display_name = source.display_name := by
  obtain ⟨built, hbuilt, rfl⟩ := watch_of_ok_iff.mp h
  obtain ⟨_, hwatch⟩ := (into_watch_ok_iff _ _ _ _ _ _ _).mp hbuilt
  obtain ⟨_, _, _, _, _, _, rfl⟩ := (build_watch_ok_iff _ _ _ _ _ _ _).mp hwatch
  exact provider_of_same env vault source

theorem own_iff_keeps (source : SourceConfig) {watch : pipeline.Watch}
    (hkind : watch.provider.kind = source.kind)
    (hlabel : watch.provider.kind_label = source.kind_label)
    (hname : watch.provider.display_name = source.display_name) (release : Release) :
    OwnCoordinate source watch release ↔ KeepsCoordinate source watch.provider.id := by
  rw [own_coordinate_of, hkind, hlabel, hname]
  cases hown : own_coordinate source with
  | none =>
    obtain ⟨hk, hl⟩ := registry_of_other hown
    rw [coordinate_none_iff hk, coordinate_none_iff hl, and_self]
    cases source with
    | Package registry c => simp [own_coordinate] at hown
    | _ => exact Iff.rfl
  | some own =>
    cases source with
    | Package registry c =>
      obtain rfl := Option.some.inj hown
      obtain ⟨hk, hl⟩ := registry_of_package registry
      by_cases hlegacy : ∃ text, Legacy watch.provider.id text
      · obtain ⟨text, htext⟩ := hlegacy
        rw [(legacy_iff _ text).mpr htext]
        exact keeps_legacy_iff hk hl htext c.name
      · have hno : ∀ text, ¬ Legacy watch.provider.id text :=
          fun text h => hlegacy ⟨text, h⟩
        have hnone : legacy_shared_package_name watch.provider.id = none := by
          cases hread : legacy_shared_package_name watch.provider.id with
          | none => rfl
          | some text => exact absurd ((legacy_iff _ text).mp hread) (hno text)
        rw [hnone]
        exact keeps_titled_iff hk hl hno c.name
    | _ => simp [own_coordinate] at hown

/-- The coordinate of a configured source is its own exactly if its id and its name keep it. -/
theorem coordinate_is_own_iff {makers : Makers} {env vault : String → Option String}
    {desired : Config} {watches : List config.Watch}
    (h : to_watches makers env vault desired = .ok watches) {i : Nat} {source : SourceConfig}
    {watch : config.Watch} (hs : desired.sources[i]? = some source)
    (hw : watches[i]? = some watch) (release : Release) :
    OwnCoordinate source watch.running release ↔ KeepsCoordinate source watch.id := by
  obtain ⟨hback, -⟩ := mapM_getElem h i
  obtain ⟨found, hfound, hbuilt⟩ := hback watch hw
  rw [hs] at hfound
  obtain rfl := Option.some.inj hfound
  obtain ⟨hkind, hlabel, hname⟩ := configured hbuilt
  exact own_iff_keeps source hkind hlabel hname release

/-! ## A repository that is looked up as a package -/

/-- The id is free text, and this one is what a package of npm is called by default. -/
def called_a_package : SourceConfig := .Github { repo := "o/r", id := some "npm:left-pad" }

theorem a_repository_is_looked_up_as_a_package :
    (validate_full lenient (desk none).makers (desk_env none) (fun _ => none)
        (source_ids.watching called_a_package)).valid = true ∧
      ∃ watches watch, to_watches (desk none).makers (desk_env none) (fun _ => none)
          (source_ids.watching called_a_package) = .ok watches ∧ watches[0]? = some watch ∧
        coordinate_of (context_of watch.running (Release.new "v1.0.0")) = some (.Npm, "o/r") ∧
        ¬ OwnCoordinate called_a_package watch.running (Release.new "v1.0.0") := by
  have hvalid : (validate_full lenient (desk none).makers (desk_env none) (fun _ => none)
      (source_ids.watching called_a_package)).valid = true := by
    decide +kernel
  obtain ⟨watches, hwatches, -⟩ := source_ids.valid_watches hvalid
  obtain ⟨watch, hw, hid⟩ := Option.map_eq_some_iff.mp (source_ids.watch_ids hwatches 0)
  obtain ⟨found, hfound, hbuilt⟩ := (mapM_getElem hwatches 0).1 watch hw
  obtain rfl : called_a_package = found := Option.some.inj hfound
  obtain ⟨hkind, hlabel, hname⟩ := configured hbuilt
  have hid : watch.running.provider.id = "npm:left-pad" := hid
  have hreads : Reads watch.running.provider.id .Npm "left-pad" := by
    unfold Reads
    rw [hid]
    decide
  refine ⟨hvalid, watches, watch, hwatches, hw, ?_, ?_⟩
  · refine (coordinate_of_reads hreads _ _).trans ?_
    change some (PackageRegistry.Npm, if trim watch.running.provider.display_name = "" then _
      else trim watch.running.provider.display_name) = _
    rw [hname]
    decide
  · intro hown
    exact (own_iff_keeps _ hkind hlabel hname _).mp hown .Npm "left-pad" hreads

/-- A package that is called what it is called by default. -/
def left_pad : SourceConfig := .Package .Npm { name := "left-pad" }

theorem coordinate_is_own_here :
    ∃ watches watch, to_watches (desk none).makers (desk_env none) (fun _ => none)
        (source_ids.watching left_pad) = .ok watches ∧ watches[0]? = some watch ∧
      OwnCoordinate left_pad watch.running (Release.new "1.0.0") := by
  have hvalid : (validate_full lenient (desk none).makers (desk_env none) (fun _ => none)
      (source_ids.watching left_pad)).valid = true := by
    decide +kernel
  obtain ⟨watches, hwatches, -⟩ := source_ids.valid_watches hvalid
  obtain ⟨watch, hw, hid⟩ := Option.map_eq_some_iff.mp (source_ids.watch_ids hwatches 0)
  have hid : watch.id = "npm:left-pad" := hid
  have hreads : Reads "npm:left-pad" .Npm "left-pad" := by
    unfold Reads
    decide
  refine ⟨watches, watch, hwatches, hw, (coordinate_is_own_iff hwatches rfl hw _).mpr ?_⟩
  rw [hid]
  refine ⟨by decide, Or.inl ⟨by decide, fun other text h => (reads_once hreads h).1.symm,
    Or.inr ⟨fun text hlegacy => legacy_unread hlegacy .Npm "left-pad" hreads,
      Or.inl (by decide +kernel)⟩⟩⟩

end xrelease.coordinates
