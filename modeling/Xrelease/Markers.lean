-- Prerelease markers (`pipeline/filter.rs`): where the sub-channel gate looks for a marker in a tag,
-- and when that is the same as looking for it between two boundaries.
import Xrelease.Places
import Xrelease.Poll

namespace text

/-! ## Places in a mapped text -/

theorem ends_map {p q : Char → Bool} {f : Char → Char} (h : ∀ c, p (f c) = q c)
    (before : List Char) : Ends p (before.map f) ↔ Ends q before := by
  unfold Ends
  rw [List.getLast?_map]
  cases before.getLast? with
  | none => simp
  | some c => simp [h]

theorem starts_map {p q : Char → Bool} {f : Char → Char} (h : ∀ c, p (f c) = q c)
    (after : List Char) : Starts p (after.map f) ↔ Starts q after := by
  unfold Starts
  rw [List.head?_map]
  cases after.head? with
  | none => simp
  | some c => simp [h]

end text

namespace xrelease.markers

open xrelease.model xrelease.pipeline text

/-! ## Places -/

/-- The marker stands in the tag between the two, ignoring case. -/
def Stands (tag marker : String) (before after : List Char) : Prop :=
  ∃ word, tag.toList = before ++ word ++ after ∧
    word.map to_ascii_lowercase = marker.toList.map to_ascii_lowercase

/-- Neither preceded nor followed by an ASCII letter. -/
def Bounded (before after : List Char) : Prop :=
  Ends (fun c => !is_ascii_alphabetic c) before ∧ Starts (fun c => !is_ascii_alphabetic c) after

/-- Some marker stands between two boundaries. -/
def OnBoundaries (tag : String) (markers : List String) : Prop :=
  ∃ marker ∈ markers, ∃ before after, Stands tag marker before after ∧ Bounded before after

/-- Right after a `-`, a `_` or a `.`. -/
def AfterMark (before : List Char) : Prop :=
  ∃ c, before.getLast? = some c ∧ (c = '-' ∨ c = '_' ∨ c = '.')

/-- A whole part of the tag: letters and digits, with neither on either side. -/
def Whole (marker : String) (before after : List Char) : Prop :=
  (∀ c ∈ marker.toList, is_ascii_alphanumeric c = true) ∧
    Ends (fun c => !is_ascii_alphanumeric c) before ∧
    Starts (fun c => !is_ascii_alphanumeric c) after

/-- Some marker stands where the search looks. -/
def Found (tag : String) (markers : List String) : Prop :=
  ∃ marker ∈ markers, ∃ before after, Stands tag marker before after ∧
    (AfterMark before ∨ Whole marker before after)

/-! ## What the search finds -/

theorem stands_iff (tag marker : String) (before after : List Char) :
    Stands tag marker before after ↔
      (∃ word, tag.toList = before ++ word ++ after ∧
        word.map to_ascii_lowercase = (lower marker).toList) := by
  rw [toList_lower]
  rfl

variable {before after : List Char}

/-- A place in the lower-case tag is one in the tag. -/
theorem stands_of_lower {tag marker : String}
    (h : (lower tag).toList = before ++ (lower marker).toList ++ after) :
    ∃ b a, Stands tag marker b a ∧ before = b.map to_ascii_lowercase ∧
      after = a.map to_ascii_lowercase := by
  rw [toList_lower, List.map_eq_append_iff] at h
  obtain ⟨front, a, htag, hfront, rfl⟩ := h
  rw [List.map_eq_append_iff] at hfront
  obtain ⟨b, word, rfl, rfl, hword⟩ := hfront
  exact ⟨b, a, (stands_iff _ _ _ _).mpr ⟨word, htag, hword⟩, rfl, rfl⟩

theorem lower_of_stands {tag marker : String} (h : Stands tag marker before after) :
    (lower tag).toList = before.map to_ascii_lowercase ++ (lower marker).toList ++
      after.map to_ascii_lowercase := by
  obtain ⟨word, htag, hword⟩ := (stands_iff _ _ _ _).mp h
  rw [toList_lower, htag, List.map_append, List.map_append, hword]

theorem contains_after_iff {mark : Char} (hmark : is_ascii_alphabetic mark = false)
    (tag marker : String) :
    contains (String.ofList [mark] ++ lower marker) (lower tag) = true ↔
      ∃ before after, Stands tag marker before after ∧ before.getLast? = some mark := by
  rw [contains_iff]
  simp only [String.toList_append, String.toList_ofList]
  constructor
  · rintro ⟨before, after, h⟩
    have hplace : (lower tag).toList = (before ++ [mark]) ++ (lower marker).toList ++ after := by
      rw [h]
      simp
    obtain ⟨b, a, hstands, hb, -⟩ := stands_of_lower hplace
    refine ⟨b, a, hstands, ?_⟩
    have hlast : (b.map to_ascii_lowercase).getLast? = some mark := by
      rw [← hb]
      simp
    rw [List.getLast?_map, Option.map_eq_some_iff] at hlast
    obtain ⟨c, hc, hlower⟩ := hlast
    rw [hc, (lowercase_eq_iff hmark c).mp hlower]
  · rintro ⟨before, after, hstands, hlast⟩
    obtain ⟨start, rfl⟩ := List.getLast?_eq_some_iff.mp hlast
    refine ⟨start.map to_ascii_lowercase, after.map to_ascii_lowercase, ?_⟩
    rw [lower_of_stands hstands]
    simp [(lowercase_eq_iff hmark mark).mpr rfl]

theorem mem_parts_iff (tag marker : String) :
    (lower marker).toList ∈ split (fun c => !is_ascii_alphanumeric c) (lower tag).toList ↔
      ∃ before after, Stands tag marker before after ∧ Whole marker before after := by
  have hends := ends_map (p := fun c => !is_ascii_alphanumeric c)
    (q := fun c => !is_ascii_alphanumeric c) (f := to_ascii_lowercase) (fun c => by simp)
  have hstarts := starts_map (p := fun c => !is_ascii_alphanumeric c)
    (q := fun c => !is_ascii_alphanumeric c) (f := to_ascii_lowercase) (fun c => by simp)
  have hchars : (∀ c ∈ (lower marker).toList, (!is_ascii_alphanumeric c) = false) ↔
      ∀ c ∈ marker.toList, is_ascii_alphanumeric c = true := by
    simp
  rw [mem_split_iff, hchars]
  constructor
  · rintro ⟨before, after, h, hmarker, hbefore, hafter⟩
    obtain ⟨b, a, hstands, rfl, rfl⟩ := stands_of_lower h
    exact ⟨b, a, hstands, hmarker, (hends b).mp hbefore, (hstarts a).mp hafter⟩
  · rintro ⟨before, after, hstands, hmarker, hbefore, hafter⟩
    exact ⟨_, _, lower_of_stands hstands, hmarker, (hends before).mpr hbefore,
      (hstarts after).mpr hafter⟩

theorem matches_iff_found {markers : List String} (hne : ∀ marker ∈ markers, marker ≠ "")
    (tag : String) : matches_prerelease_marker tag markers = true ↔ Found tag markers := by
  unfold matches_prerelease_marker Found
  rw [List.any_eq_true]
  refine exists_congr (fun marker => and_congr_right (fun hmem => ?_))
  have hlower : lower marker ≠ "" := by
    intro h
    apply hne marker hmem
    have hnil : marker.toList.map to_ascii_lowercase = [] := by
      rw [← toList_lower, h]
      rfl
    exact String.toList_eq_nil_iff.mp (List.map_eq_nil_iff.mp hnil)
  have hparts : (split (fun c => !is_ascii_alphanumeric c) (lower tag).toList).any
      (fun part => decide (part = (lower marker).toList)) = true ↔
      ∃ before after, Stands tag marker before after ∧ Whole marker before after := by
    rw [← mem_parts_iff]
    simp [List.any_eq_true]
  simp only [if_neg hlower, Bool.or_eq_true]
  rw [hparts]
  rw [show contains ("-" ++ lower marker) (lower tag) = true ↔ _ from
    contains_after_iff (by decide) tag marker]
  rw [show contains ("_" ++ lower marker) (lower tag) = true ↔ _ from
    contains_after_iff (by decide) tag marker]
  rw [show contains ("." ++ lower marker) (lower tag) = true ↔ _ from
    contains_after_iff (by decide) tag marker]
  unfold AfterMark
  constructor
  · rintro (((⟨b, a, h, hw⟩ | ⟨b, a, h, hl⟩) | ⟨b, a, h, hl⟩) | ⟨b, a, h, hl⟩)
    · exact ⟨b, a, h, Or.inr hw⟩
    · exact ⟨b, a, h, Or.inl ⟨_, hl, Or.inl rfl⟩⟩
    · exact ⟨b, a, h, Or.inl ⟨_, hl, Or.inr (Or.inl rfl)⟩⟩
    · exact ⟨b, a, h, Or.inl ⟨_, hl, Or.inr (Or.inr rfl)⟩⟩
  · rintro ⟨b, a, h, ⟨c, hl, rfl | rfl | rfl⟩ | hw⟩
    · exact Or.inl (Or.inl (Or.inr ⟨b, a, h, hl⟩))
    · exact Or.inl (Or.inr ⟨b, a, h, hl⟩)
    · exact Or.inr ⟨b, a, h, hl⟩
    · exact Or.inl (Or.inl (Or.inl ⟨b, a, h, hw⟩))

/-! ## The gate -/

/-- The sub-channel gate of the filter. -/
def passes_sub_channels (f : Filter) (release : Release) : Bool :=
  f.prerelease_tags.all (fun tags => matches_prerelease_marker release.raw_tag tags)

/-- A marker after a `-`, a `_` or a `.` that a letter follows. -/
def Overrun (tag : String) (markers : List String) : Prop :=
  ∃ marker ∈ markers, ∃ before after, Stands tag marker before after ∧ AfterMark before ∧
    ∃ c, after.head? = some c ∧ is_ascii_alphabetic c = true

/-- A digit on either side. -/
def BesideDigit (before after : List Char) : Prop :=
  (∃ c, before.getLast? = some c ∧ is_ascii_digit c = true) ∨
    ∃ c, after.head? = some c ∧ is_ascii_digit c = true

/-- A marker on boundaries beside a digit, and not after a `-`, a `_` or a `.`; one that is not
ASCII is never a part. -/
def Overlooked (tag : String) (markers : List String) : Prop :=
  ∃ marker ∈ markers, ∃ before after, Stands tag marker before after ∧ Bounded before after ∧
    ¬AfterMark before ∧
      (BesideDigit before after ∨ ∃ c ∈ marker.toList, is_ascii_alphanumeric c = false)

/-- What runs on into a word also stands alone, and what is overlooked is found elsewhere. -/
structure Unambiguous (tag : String) (markers : List String) : Prop where
  overrun : Overrun tag markers → OnBoundaries tag markers
  overlooked : Overlooked tag markers → Found tag markers

theorem alphanumeric_eq (c : Char) :
    is_ascii_alphanumeric c = (is_ascii_alphabetic c || is_ascii_digit c) := rfl

theorem bounded_of_whole {marker : String} (h : Whole marker before after) :
    Bounded before after := by
  obtain ⟨-, hbefore, hafter⟩ := h
  constructor
  · intro c hc
    have : (!is_ascii_alphanumeric c) = true := hbefore c hc
    rw [alphanumeric_eq, Bool.not_or, Bool.and_eq_true] at this
    exact this.1
  · intro c hc
    have : (!is_ascii_alphanumeric c) = true := hafter c hc
    rw [alphanumeric_eq, Bool.not_or, Bool.and_eq_true] at this
    exact this.1

/-- A place on boundaries where the search does not look. -/
theorem overlooked_of_bounded {marker : String} (h : Bounded before after)
    (hnot : ¬Whole marker before after) :
    BesideDigit before after ∨ ∃ c ∈ marker.toList, is_ascii_alphanumeric c = false := by
  by_contra hno
  push Not at hno
  obtain ⟨hdigit, hmarker⟩ := hno
  apply hnot
  refine ⟨fun c hc => by simpa using hmarker c hc, ?_, ?_⟩
  · intro c hc
    have halpha := h.1 c hc
    have hno : is_ascii_digit c = false := by
      rw [Bool.eq_false_iff]
      exact fun hd => hdigit (Or.inl ⟨c, hc, hd⟩)
    show (!is_ascii_alphanumeric c) = true
    rw [alphanumeric_eq, hno, Bool.or_false]
    exact halpha
  · intro c hc
    have halpha := h.2 c hc
    have hno : is_ascii_digit c = false := by
      rw [Bool.eq_false_iff]
      exact fun hd => hdigit (Or.inr ⟨c, hc, hd⟩)
    show (!is_ascii_alphanumeric c) = true
    rw [alphanumeric_eq, hno, Bool.or_false]
    exact halpha

theorem bounded_of_after (hmark : AfterMark before)
    (hnot : ¬∃ c, after.head? = some c ∧ is_ascii_alphabetic c = true) : Bounded before after := by
  obtain ⟨d, hd, hmark⟩ := hmark
  constructor
  · intro c hc
    obtain rfl : d = c := by
      rw [hd] at hc
      exact Option.some.inj hc
    rcases hmark with rfl | rfl | rfl
    · decide
    · decide
    · decide
  · intro c hc
    by_contra hletter
    apply hnot
    exact ⟨c, hc, by simpa using hletter⟩

theorem boundaries_of_found {tag : String} {markers : List String} (h : Found tag markers)
    (hoverrun : Overrun tag markers → OnBoundaries tag markers) : OnBoundaries tag markers := by
  obtain ⟨marker, hmem, before, after, hstands, hmark | hwhole⟩ := h
  · by_cases hletter : ∃ c, after.head? = some c ∧ is_ascii_alphabetic c = true
    · exact hoverrun ⟨marker, hmem, before, after, hstands, hmark, hletter⟩
    · exact ⟨marker, hmem, before, after, hstands, bounded_of_after hmark hletter⟩
  · exact ⟨marker, hmem, before, after, hstands, bounded_of_whole hwhole⟩

theorem found_of_boundaries {tag : String} {markers : List String}
    (h : OnBoundaries tag markers)
    (hoverlooked : Overlooked tag markers → Found tag markers) : Found tag markers := by
  obtain ⟨marker, hmem, before, after, hstands, hbounded⟩ := h
  by_cases hmark : AfterMark before
  · exact ⟨marker, hmem, before, after, hstands, Or.inl hmark⟩
  · by_cases hwhole : Whole marker before after
    · exact ⟨marker, hmem, before, after, hstands, Or.inr hwhole⟩
    · apply hoverlooked
      exact ⟨marker, hmem, before, after, hstands, hbounded, hmark,
        overlooked_of_bounded hbounded hwhole⟩

/-- The gate lets a tag through for a marker on boundaries, and for nothing else, exactly when no
marker is ambiguous in the tag. -/
theorem markers_match_on_boundaries_iff {f : Filter} {markers : List String}
    (hf : f.prerelease_tags = some markers) (hne : ∀ marker ∈ markers, marker ≠ "")
    (release : Release) :
    (passes_sub_channels f release = true ↔ OnBoundaries release.raw_tag markers) ↔
      Unambiguous release.raw_tag markers := by
  have hgate : passes_sub_channels f release = true ↔ Found release.raw_tag markers := by
    unfold passes_sub_channels
    rw [hf, Option.all_some, matches_iff_found hne]
  rw [hgate]
  constructor
  · intro h
    constructor
    · rintro ⟨marker, hmem, before, after, hstands, hmark, -⟩
      exact h.mp ⟨marker, hmem, before, after, hstands, Or.inl hmark⟩
    · rintro ⟨marker, hmem, before, after, hstands, hbounded, -⟩
      exact h.mpr ⟨marker, hmem, before, after, hstands, hbounded⟩
  · intro h
    exact ⟨fun hfound => boundaries_of_found hfound h.overrun,
      fun hon => found_of_boundaries hon h.overlooked⟩

/-- Release candidates only. -/
def candidates : Filter where
  include_prerelease := true
  prerelease_tags := some ["rc"]
  pattern := none
  exclude_pattern := none
  exclude_updated := false

def tagged (tag : String) : Release := { Release.new tag with prerelease := true }

theorem markers_match_on_boundaries_here :
    passes_sub_channels candidates (tagged "1.0-rc.2") = true ↔
      OnBoundaries "1.0-rc.2" ["rc"] := by
  have hstands : Stands "1.0-rc.2" "rc" ['1', '.', '0', '-'] ['.', '2'] :=
    ⟨['r', 'c'], by decide, by decide⟩
  refine (markers_match_on_boundaries_iff (f := candidates) rfl (by decide)
    (tagged "1.0-rc.2")).mpr ⟨fun _ => ?_, fun _ => ?_⟩
  · exact ⟨"rc", List.mem_singleton_self _, _, _, hstands, by simp [Ends]; decide,
      by simp [Starts]; decide⟩
  · exact ⟨"rc", List.mem_singleton_self _, _, _, hstands,
      Or.inl ⟨'-', rfl, Or.inl rfl⟩⟩

/-- `1.0rc1` is no release candidate. -/
theorem a_digit_hides_a_marker :
    ¬(passes_sub_channels candidates (tagged "1.0rc1") = true ↔ OnBoundaries "1.0rc1" ["rc"]) := by
  intro h
  have hstands : Stands "1.0rc1" "rc" ['1', '.', '0'] ['1'] := ⟨['r', 'c'], by decide, by decide⟩
  have hon : OnBoundaries "1.0rc1" ["rc"] :=
    ⟨"rc", List.mem_singleton_self _, _, _, hstands, by simp [Ends]; decide,
      by simp [Starts]; decide⟩
  exact absurd (h.mpr hon) (by decide +kernel)

end xrelease.markers
