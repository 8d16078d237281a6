-- The ids of sources: the one a source without its own is built with and the one that organizations
-- are composed with, and what can be read back of an id with the prefix of its organization.
import Xrelease.Isolated
import Xrelease.Predicted

namespace xrelease.source_ids

open xrelease.atomic xrelease.config xrelease.config_apply xrelease.isolated xrelease.notify
  xrelease.predicted xrelease.validate text

/-! ## The ids of the watches -/

variable {env vault : String → Option String}

theorem watch_of_id {makers : Makers} {defaults : Defaults} {presets : List (String × SourcePreset)}
    {source : SourceConfig} {watch : Watch}
    (h : watch_of makers env vault defaults presets source = .ok watch) :
    watch.id = source.explicit_id.getD (built_id source) ∧
      watch.organization_id = organization_id_from_source_id watch.id := by
  obtain ⟨built, hbuilt, rfl⟩ := watch_of_ok_iff.mp h
  obtain ⟨_, hwatch⟩ := (into_watch_ok_iff _ _ _ _ _ _ _).mp hbuilt
  obtain ⟨_, _, _, _, _, _, rfl⟩ := (build_watch_ok_iff _ _ _ _ _ _ _).mp hwatch
  exact ⟨rfl, rfl⟩

/-- One watch for each source, in their order. -/
theorem watch_ids {makers : Makers} {config : Config} {watches : List Watch}
    (h : to_watches makers env vault config = .ok watches) (i : Nat) :
    watches[i]?.map (·.id) = config.sources[i]?.map (fun s => s.explicit_id.getD (built_id s)) := by
  obtain ⟨hback, hforth⟩ := mapM_getElem h i
  cases hs : config.sources[i]? with
  | none =>
    cases hw : watches[i]? with
    | none => rfl
    | some watch =>
      obtain ⟨source, hsource, _⟩ := hback watch hw
      rw [hs] at hsource
      simp at hsource
  | some source =>
    obtain ⟨watch, hw, hbuilt⟩ := hforth source hs
    rw [hw, Option.map_some, Option.map_some, (watch_of_id hbuilt).1]

theorem watches_apart {watches : List Watch} {ids : List String}
    (h : Clean (validate_watches watches ids)) :
    (watches.map (·.id)).Nodup ∧ ∀ watch ∈ watches, watch.id ∉ ids := by
  induction watches generalizing ids with
  | nil => simp
  | cons watch rest ih =>
    unfold validate_watches at h
    rw [clean_append, clean_append, clean_error_if] at h
    obtain ⟨⟨hfresh, -⟩, hrest⟩ := h
    obtain ⟨hnodup, hother⟩ := ih hrest
    rw [List.contains_eq_mem, decide_eq_false_iff_not] at hfresh
    refine ⟨List.nodup_cons.mpr ⟨?_, hnodup⟩, ?_⟩
    · intro hmem
      obtain ⟨other, hin, heq⟩ := List.mem_map.mp hmem
      exact hother other hin (heq ▸ List.mem_cons_self)
    · intro other hin
      rcases List.mem_cons.mp hin with rfl | hin
      · exact hfresh
      · exact fun hmem => hother other hin (List.mem_cons_of_mem _ hmem)

/-- A valid configuration has its watches, and no two of them share an id. -/
theorem valid_watches {libs : Libraries} {makers : Makers} {config : Config}
    (h : (validate_full libs makers env vault config).valid = true) :
    ∃ watches, to_watches makers env vault config = .ok watches ∧
      (watches.map (·.id)).Nodup := by
  have hclean := (valid_iff _).mp h
  obtain ⟨-, hsources⟩ := (clean_append _ _).mp hclean
  obtain ⟨-, hwatches⟩ := (clean_append _ _).mp hsources
  cases hw : to_watches makers env vault config with
  | error err =>
    rw [hw] at hwatches
    exact absurd hwatches (not_clean_error _)
  | ok watches =>
    rw [hw] at hwatches
    exact ⟨watches, rfl, (watches_apart ((clean_append _ _).mp hwatches).1).1⟩

/-! ## Default ids -/

/-- The two computations of a default id differ for one kind. -/
theorem default_id_built_iff (source : SourceConfig) :
    default_source_id source = built_id source ↔ ∀ c, source ≠ .Codeberg c := by
  constructor
  · rintro h c rfl
    have hlists := congrArg String.toList h
    simp [default_source_id, built_id] at hlists
  · intro h
    cases source with
    | Codeberg c => exact absurd rfl (h c)
    | _ => rfl

/-- The default id of every source without an id of its own is the one it is built with, the
composition prefixes that one, and no two sources have the same. -/
structure DefaultIds (config : Config) (watches : List Watch) : Prop where
  agree : ∀ (i : Nat) (source : SourceConfig) (watch : Watch),
    config.sources[i]? = some source → watches[i]? = some watch →
    source.explicit_id = none → watch.id = default_source_id source
  kept : ∀ (i : Nat) (source : SourceConfig) (watch : Watch),
    config.sources[i]? = some source → watches[i]? = some watch →
    source.explicit_id = none → ∀ org defaults user_presets,
    (prepare_source org defaults user_presets source).explicit_id =
      some (namespace_source_id org watch.id)
  apart : ∀ (i j : Nat) (s t : SourceConfig), i ≠ j →
    config.sources[i]? = some s → config.sources[j]? = some t →
    source_label s ≠ source_label t

/-- A Codeberg repository is the one kind of source whose default id is that of another. -/
theorem default_ids_agree_iff (libs : Libraries) {makers : Makers}
    {env vault : String → Option String} {config : Config}
    (h : (validate_full libs makers env vault config).valid = true) :
    ∃ watches, to_watches makers env vault config = .ok watches ∧
      (DefaultIds config watches ↔ ∀ c, .Codeberg c ∈ config.sources → c.id ≠ none) := by
  obtain ⟨watches, hwatches, hnodup⟩ := valid_watches h
  refine ⟨watches, hwatches, ?_, ?_⟩
  · intro hids c hc hnone
    obtain ⟨i, hi⟩ := List.getElem?_of_mem hc
    have hid := watch_ids hwatches i
    rw [hi] at hid
    obtain ⟨watch, hw, hwid⟩ := Option.map_eq_some_iff.mp hid
    have hagree := hids.agree i _ watch hi hw hnone
    have hbuilt : watch.id = built_id (.Codeberg c) := by
      rw [hwid]
      exact congrArg (fun id => id.getD (built_id (.Codeberg c))) hnone
    exact (default_id_built_iff _).mp (hagree.symm.trans hbuilt) c rfl
  · intro hno
    have hdefault : ∀ source ∈ config.sources, source.explicit_id = none →
        default_source_id source = built_id source := by
      intro source hs hnone
      rw [default_id_built_iff]
      rintro c rfl
      exact hno c hs hnone
    have hlabel : ∀ source ∈ config.sources,
        source_label source = source.explicit_id.getD (built_id source) := by
      intro source hs
      unfold source_label
      cases hid : source.explicit_id with
      | none => exact hdefault source hs hid
      | some id => rfl
    have hagree : ∀ (i : Nat) (source : SourceConfig) (watch : Watch),
        config.sources[i]? = some source → watches[i]? = some watch →
        source.explicit_id = none → watch.id = default_source_id source := by
      intro i source watch hs hw hnone
      have hid := watch_ids hwatches i
      rw [hs, hw, Option.map_some, Option.map_some, hnone] at hid
      rw [hdefault source (List.mem_of_getElem? hs) hnone]
      exact Option.some.inj hid
    refine ⟨hagree, ?_, ?_⟩
    · intro i source watch hs hw hnone org defaults user_presets
      rw [hagree i source watch hs hw hnone]
      unfold prepare_source base_source_id
      rw [SourceConfig.explicit_id_with_id_common, hnone]
      rfl
    · intro i j s t hij hs ht heq
      rw [hlabel s (List.mem_of_getElem? hs), hlabel t (List.mem_of_getElem? ht)] at heq
      have hi := watch_ids hwatches i
      have hj := watch_ids hwatches j
      rw [hs, Option.map_some, ← List.getElem?_map] at hi
      rw [ht, Option.map_some, ← List.getElem?_map, ← heq] at hj
      obtain ⟨hlt, -⟩ := List.getElem?_eq_some_iff.mp hi
      exact hij ((List.getElem?_inj hlt hnodup).mp (hi.trans hj.symm))

/-- A bus that hears every event, and one source. -/
def watching (source : SourceConfig) : Config :=
  { (bench []).bootstrap with
    notifiers := [.Nats { url := "nats://n", subject := "s" }]
    sources := [source] }

/-- A Codeberg repository runs as one of Codeberg, and would be composed as one of GitHub. -/
theorem a_codeberg_source_is_renamed :
    (validate_full lenient (desk none).makers (desk_env none) (fun _ => none)
        (watching (.Codeberg { repo := "o/r" }))).valid = true ∧
      (to_watches (desk none).makers (desk_env none) (fun _ => none)
        (watching (.Codeberg { repo := "o/r" }))).map (List.map (·.id)) = .ok ["codeberg:o/r"] ∧
      default_source_id (.Codeberg { repo := "o/r" }) = "github:o/r" := by
  decide +kernel

/-- Three sources, one of them of Codeberg under an id of its own. -/
def three_sources : Config :=
  { watching (.Github { repo := "o/r" }) with
    sources := [.Github { repo := "o/r" }, .Codeberg { repo := "o/r", id := some "mirror" },
      .Package .Npm { name := "left-pad" }] }

theorem default_ids_agree_here :
    ∃ watches, to_watches (desk none).makers (desk_env none) (fun _ => none) three_sources =
      .ok watches ∧ DefaultIds three_sources watches := by
  have hvalid : (validate_full lenient (desk none).makers (desk_env none) (fun _ => none)
      three_sources).valid = true := by decide +kernel
  obtain ⟨watches, hwatches, hids⟩ := default_ids_agree_iff lenient hvalid
  refine ⟨watches, hwatches, hids.mpr fun c hc hnone => ?_⟩
  simp only [three_sources, List.mem_cons, List.not_mem_nil, or_false, reduceCtorEq, false_or]
    at hc
  cases hc
  cases hnone

/-! ## Reading an id back -/

theorem length_trimmed_le (s : List Char) : (trimmed s).length ≤ s.length := by
  unfold trimmed trim_end_matches trim_start_matches List.rdropWhile
  rw [List.length_reverse]
  have hend := (List.dropWhile_suffix is_whitespace
    (l := (s.dropWhile is_whitespace).reverse)).length_le
  have hstart := (List.dropWhile_suffix is_whitespace (l := s)).length_le
  rw [List.length_reverse] at hend
  omega

/-- What follows the prefix is the value itself, unless it is trimmed or has the prefix. -/
theorem bare_eq_iff (org value : String) :
    bare org value = value ↔
      trim value = value ∧ starts_with (org ++ ORGANIZATION_SEP) value = false := by
  unfold bare
  by_cases hstart : starts_with (org ++ ORGANIZATION_SEP) (trim value) = true
  · rw [if_pos hstart]
    constructor
    · intro h
      have hlen := congrArg (fun s : String => s.toList.length) h
      have hsep : 0 < (org ++ ORGANIZATION_SEP).toList.length := by
        simp [ORGANIZATION_SEP]
      have htrim : (trim value).toList.length ≤ value.toList.length := by
        rw [trim, String.toList_ofList]
        exact length_trimmed_le value.toList
      have hpre := (List.isPrefixOf_iff_prefix.mp hstart).length_le
      simp only [String.toList_ofList, List.length_drop] at hlen
      omega
    · rintro ⟨htrim, hno⟩
      rw [htrim, hno] at hstart
      simp at hstart
  · rw [if_neg hstart]
    constructor
    · intro h
      rw [h] at hstart
      exact ⟨h, by simpa using hstart⟩
    · exact fun h => h.1

/-- The first place of the separator, right behind a text where it would not stand earlier. -/
theorem split_once_sep {org : List Char} (h : split_once_at [':', ':'] (org ++ [':']) = none)
    (rest : List Char) :
    split_once_at [':', ':'] (org ++ ':' :: ':' :: rest) = some (org, rest) := by
  induction org with
  | nil => rfl
  | cons c org ih =>
    rw [List.cons_append] at h ⊢
    unfold split_once_at at h ⊢
    split at h
    · simp at h
    · rename_i hno
      have hnot : ¬ [':', ':'].isPrefixOf (c :: (org ++ ':' :: ':' :: rest)) = true := by
        intro hpre
        apply hno
        cases org with
        | nil => simpa [List.isPrefixOf] using hpre
        | cons d org => simpa [List.isPrefixOf] using hpre
      rw [if_neg hnot, ih (by simpa using h)]
      rfl

theorem split_once_sep_iff (org rest : List Char) :
    split_once_at [':', ':'] (org ++ ':' :: ':' :: rest) = some (org, rest) ↔
      split_once_at [':', ':'] (org ++ [':']) = none := by
  constructor
  · intro h
    cases hfirst : split_once_at [':', ':'] (org ++ [':']) with
    | none => rfl
    | some parts =>
      obtain ⟨before, after⟩ := parts
      have heq := split_once_at_eq hfirst
      have hlater := split_once_at_append (by simp) hfirst (after ++ ':' :: rest)
      have hwhole : before ++ [':', ':'] ++ (after ++ ':' :: rest) = org ++ ':' :: ':' :: rest := by
        rw [← List.append_assoc, ← heq]
        simp
      rw [hwhole, h] at hlater
      obtain ⟨rfl, -⟩ := Prod.mk.inj (Option.some.inj hlater)
      have hlen := congrArg List.length heq
      simp only [List.length_append, List.length_cons, List.length_nil] at hlen
      omega
  · exact fun h => split_once_sep h rest

/-- A slug in which the separator neither stands nor begins. -/
def PlainSlug (org : String) : Prop := contains ORGANIZATION_SEP (org ++ ":") = false

theorem plainSlug_iff (org : String) :
    PlainSlug org ↔ split_once_at [':', ':'] (org.toList ++ [':']) = none := by
  unfold PlainSlug contains split_once
  rw [String.toList_append]
  have hsep : ORGANIZATION_SEP.toList = [':', ':'] := rfl
  have hcolon : ":".toList = [':'] := rfl
  rw [hsep, hcolon, Option.isSome_map, Option.isSome_eq_false_iff, Option.isNone_iff_eq_none]

theorem namespaced_toList (org value : String) :
    (namespace_source_id org value).toList =
      org.toList ++ ':' :: ':' :: (bare org value).toList := by
  unfold namespace_source_id
  rw [namespace_scoped_eq]
  simp [ORGANIZATION_SEP]

theorem split_namespaced_iff (org value : String) :
    split_once ORGANIZATION_SEP (namespace_source_id org value) = some (org, bare org value) ↔
      PlainSlug org := by
  rw [plainSlug_iff, ← split_once_sep_iff _ (bare org value).toList, ← namespaced_toList]
  unfold split_once
  rw [Option.map_eq_some_iff]
  constructor
  · rintro ⟨⟨before, after⟩, hsplit, hparts⟩
    obtain ⟨hbefore, hafter⟩ := Prod.mk.inj hparts
    have horg : before = org.toList := by
      rw [← hbefore, String.toList_ofList]
    have hbare : after = (bare org value).toList := by
      rw [← hafter, String.toList_ofList]
    rw [← horg, ← hbare]
    exact hsplit
  · intro h
    exact ⟨_, h, by simp⟩

theorem split_none_iff (id : String) :
    split_once ORGANIZATION_SEP id = none ↔ contains ORGANIZATION_SEP id = false := by
  unfold contains
  rw [Option.isSome_eq_false_iff, Option.isNone_iff_eq_none]

/-- The parts that a split gives make up the text again. -/
theorem split_once_eq {sep value before after : String}
    (h : split_once sep value = some (before, after)) : value = before ++ sep ++ after := by
  obtain ⟨⟨b, a⟩, hsplit, hparts⟩ := Option.map_eq_some_iff.mp h
  obtain ⟨rfl, rfl⟩ := Prod.mk.inj hparts
  rw [← String.toList_inj, String.toList_append, String.toList_append, String.toList_ofList,
    String.toList_ofList]
  exact split_once_at_eq hsplit

/-- The slug is read back of a prefixed id exactly if it is plain. -/
theorem owner_of_namespaced_iff {org : String} (hne : org ≠ "") (value : String) :
    organization_id_from_source_id (namespace_source_id org value) = some org ↔
      PlainSlug org := by
  rw [← split_namespaced_iff org value]
  unfold organization_id_from_source_id
  constructor
  · intro h
    split at h
    · rename_i before after hsplit
      split at h
      · simp at h
      · obtain rfl := Option.some.inj h
        have heq := split_once_eq hsplit
        unfold namespace_source_id at heq
        rw [namespace_scoped_eq] at heq
        have hlists := congrArg String.toList heq
        rw [String.toList_append, String.toList_append (t := after)] at hlists
        rw [hsplit, String.toList_inj.mp (List.append_cancel_left hlists)]
    · simp at h
  · intro h
    rw [h]
    simp [hne]

theorem bare_of_namespaced {org : String} (hplain : PlainSlug org) (value : String) :
    bare_source_id (namespace_source_id org value) = bare org value := by
  unfold bare_source_id
  rw [(split_namespaced_iff org value).mpr hplain]

theorem unprefixed_iff (id : String) :
    organization_id_from_source_id id = none ∧ bare_source_id id = id ↔
      contains ORGANIZATION_SEP id = false := by
  rw [← split_none_iff]
  unfold organization_id_from_source_id bare_source_id
  cases hsplit : split_once ORGANIZATION_SEP id with
  | none => simp
  | some parts =>
    obtain ⟨before, after⟩ := parts
    simp only [reduceCtorEq, iff_false, not_and]
    intro _ heq
    have hlen := congrArg (fun s : String => s.toList.length) (split_once_eq hsplit)
    have hsep : ORGANIZATION_SEP.toList.length = 2 := rfl
    simp only [String.toList_append, List.length_append, hsep, heq] at hlen
    omega

/-- Which ids are read back as they were made. A prefixed id gives the slug and the inner id where
the slug is plain and the inner id is trimmed and not prefixed yet; an id of a single document is
left alone where it has no separator in it. -/
theorem ids_decode_iff {org : String} (hne : org ≠ "") (value : String) {makers : Makers}
    {env vault : String → Option String} {config : Config} {watches : List Watch}
    (hwatches : to_watches makers env vault config = .ok watches) :
    (organization_id_from_source_id (namespace_source_id org value) = some org ∧
        bare_source_id (namespace_source_id org value) = value ↔
      PlainSlug org ∧ trim value = value ∧
        starts_with (org ++ ORGANIZATION_SEP) value = false) ∧
    ∀ watch ∈ watches,
      (watch.organization_id = none ∧ bare_source_id watch.id = watch.id ↔
        contains ORGANIZATION_SEP watch.id = false) := by
  constructor
  · rw [owner_of_namespaced_iff hne, ← bare_eq_iff]
    constructor
    · rintro ⟨hplain, hbare⟩
      exact ⟨hplain, (bare_of_namespaced hplain value).symm.trans hbare⟩
    · rintro ⟨hplain, hbare⟩
      exact ⟨hplain, (bare_of_namespaced hplain value).trans hbare⟩
  · intro watch hmem
    obtain ⟨i, hi⟩ := List.getElem?_of_mem hmem
    obtain ⟨source, _, hbuilt⟩ := (mapM_getElem hwatches i).1 watch hi
    rw [(watch_of_id hbuilt).2]
    exact unprefixed_iff watch.id

/-- The name of a Perl package is taken for an organization and a slug with the separator is cut
short. -/
theorem an_id_read_wrongly :
    (validate_full lenient (desk none).makers (desk_env none) (fun _ => none)
        (watching (.Package .Cpan { name := "Moose::Util" }))).valid = true ∧
      (to_watches (desk none).makers (desk_env none) (fun _ => none)
        (watching (.Package .Cpan { name := "Moose::Util" }))).map
          (List.map (fun watch => (watch.organization_id, bare_source_id watch.id))) =
        .ok [(some "cpan:Moose", "Util")] ∧
      organization_id_from_source_id (namespace_source_id "a::b" "npm:x") = some "a" := by
  decide +kernel

theorem ids_decode_here :
    ∃ watches, to_watches (desk none).makers (desk_env none) (fun _ => none)
        (watching (.Package .Npm { name := "x" })) = .ok watches ∧
      (organization_id_from_source_id (namespace_source_id "platform" "npm:x") = some "platform" ∧
          bare_source_id (namespace_source_id "platform" "npm:x") = "npm:x" ↔
        PlainSlug "platform" ∧ trim "npm:x" = "npm:x" ∧
          starts_with ("platform" ++ ORGANIZATION_SEP) "npm:x" = false) ∧
      ∀ watch ∈ watches,
        (watch.organization_id = none ∧ bare_source_id watch.id = watch.id ↔
          contains ORGANIZATION_SEP watch.id = false) := by
  have hone : (to_watches (desk none).makers (desk_env none) (fun _ => none)
      (watching (.Package .Npm { name := "x" }))).map List.length = .ok 1 := by
    decide +kernel
  cases hwatches : to_watches (desk none).makers (desk_env none) (fun _ => none)
      (watching (.Package .Npm { name := "x" })) with
  | error err => simp [hwatches, Except.map] at hone
  | ok watches =>
    have hne : "platform" ≠ "" := by decide
    exact ⟨watches, rfl, ids_decode_iff hne "npm:x" hwatches⟩

end xrelease.source_ids
