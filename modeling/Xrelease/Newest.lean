-- Which of two releases is the newer (`compare_releases`), and what sorting by it and picking the
-- latest yield: the version ranks them, the numbers of the tag decide among equal versions, and a
-- tag whose numbers `numeric_parts` does not read leaves it to the dates.
import Xrelease.Compared
import Xrelease.Release

namespace xrelease.model

open Std text compared

/-! ## The comparisons of the parts -/

theorem compare_chars_lex :
    compare_chars = List.compareLex (fun a b : Char => compare a.toNat b.toNat) := by
  funext a b
  fun_induction compare_chars a b with
  | case1 => rfl
  | case2 => rfl
  | case3 => rfl
  | case4 a as b bs hlt =>
    rw [List.compareLex_cons_cons, Nat.compare_eq_lt.mpr hlt]
    rfl
  | case5 a as b bs hnlt hlt =>
    rw [List.compareLex_cons_cons, Nat.compare_eq_gt.mpr hlt]
    rfl
  | case6 a as b bs hnlt hnlt' ih =>
    have heq : a.toNat = b.toNat := by omega
    rw [List.compareLex_cons_cons, Nat.compare_eq_eq.mpr heq, Ordering.eq_then]
    exact ih

instance : TransCmp compare_chars := by
  rw [compare_chars_lex]
  have := trans_on Char.toNat compare
  infer_instance

instance : TransCmp compare_str := trans_on String.toList compare_chars

theorem compare_nats_lex : compare_nats = List.compareLex compare := by
  funext a b
  fun_induction compare_nats a b with
  | case1 => rfl
  | case2 => rfl
  | case3 => rfl
  | case4 a as b bs ih =>
    rw [List.compareLex_cons_cons, ← ih]

instance : TransCmp compare_nats := by
  rw [compare_nats_lex]
  infer_instance

theorem compare_segments_lex (cmp : List Char → List Char → Ordering) :
    compare_segments cmp = List.compareLex cmp := by
  funext a b
  fun_induction compare_segments cmp a b with
  | case1 => rfl
  | case2 => rfl
  | case3 => rfl
  | case4 a as b bs ih =>
    rw [List.compareLex_cons_cons, ← ih]

instance (cmp : List Char → List Char → Ordering) [TransCmp cmp] :
    TransCmp (compare_segments cmp) := by
  rw [compare_segments_lex]
  infer_instance

/-- First by length, then by the characters: the order of numbers without leading zeros. -/
def by_length : List Char → List Char → Ordering :=
  compareLex (fun a b => compare a.length b.length) compare_chars

instance : TransCmp by_length := by
  have := trans_on (List.length (α := Char)) compare
  exact inferInstanceAs (TransCmp (compareLex _ _))

theorem compare_pre_segment_by_class :
    compare_pre_segment = by_class (fun a => !a.all is_ascii_digit) by_length compare_chars := by
  funext a b
  unfold compare_pre_segment by_class
  cases ha : a.all is_ascii_digit <;> cases hb : b.all is_ascii_digit <;>
    simp only [ha, hb, Bool.not_true, Bool.not_false]
  rfl

instance : TransCmp compare_pre_segment := by
  rw [compare_pre_segment_by_class]
  infer_instance

/-- A number with leading zeros: by its value, then by its length. -/
def by_value : List Char → List Char → Ordering :=
  compareLex
    (fun a b => by_length (trim_start_matches (· == '0') a) (trim_start_matches (· == '0') b))
    (fun a b => compare a.length b.length)

instance : TransCmp by_value := by
  have := trans_on (List.length (α := Char)) compare
  have := trans_on (trim_start_matches (· == '0')) by_length
  exact inferInstanceAs (TransCmp (compareLex _ _))

theorem compare_build_segment_by_class :
    compare_build_segment = by_class (fun a => !a.all is_ascii_digit) by_value compare_chars := by
  funext a b
  unfold compare_build_segment by_class
  cases ha : a.all is_ascii_digit <;> cases hb : b.all is_ascii_digit <;>
    simp only [ha, hb, Bool.not_true, Bool.not_false]
  rfl

instance : TransCmp compare_build_segment := by
  rw [compare_build_segment_by_class]
  infer_instance

def level (_ _ : List Char) : Ordering := .eq

instance : TransCmp level where
  eq_swap := rfl
  isLE_trans _ _ := rfl

theorem compare_pre_by_class :
    compare_pre = by_class (fun a => a.isEmpty)
      (fun a b => compare_segments compare_pre_segment (split (· == '.') a) (split (· == '.') b))
      level := by
  funext a b
  unfold compare_pre by_class
  cases a <;> cases b <;> rfl

instance : TransCmp compare_pre := by
  rw [compare_pre_by_class]
  have := trans_on (split (· == '.')) (compare_segments compare_pre_segment)
  infer_instance

instance : TransCmp compare_build :=
  trans_on (split (· == '.')) (compare_segments compare_build_segment)

theorem compare_version_lex :
    compare_version = compareLex (compareLex (compareLex (compareLex
      (fun a b => compare a.major b.major) (fun a b => compare a.minor b.minor))
      (fun a b => compare a.patch b.patch)) (fun a b => compare_pre a.pre b.pre))
      (fun a b => compare_build a.build b.build) := rfl

instance : TransCmp compare_version := by
  rw [compare_version_lex]
  have := trans_on Version.major compare
  have := trans_on Version.minor compare
  have := trans_on Version.patch compare
  have := trans_on Version.pre compare_pre
  have := trans_on Version.build compare_build
  infer_instance

/-! ## The comparison of releases -/

/-- The rank that the version gives: none at the bottom. -/
def by_version (a b : Release) : Ordering := compare_option compare_version a.version b.version

/-- The numbers that decide among releases of one version. -/
def nums (r : Release) : Option (List Nat) :=
  match r.version with
  | none => none
  | some _ => numeric_parts r.raw_tag.toList

theorem compare_option_trans {α : Type} (cmp : α → α → Ordering) [TransCmp cmp] :
    TransCmp (compare_option cmp) where
  eq_swap {a b} := by
    cases a with
    | none => cases b <;> rfl
    | some x =>
      cases b with
      | none => rfl
      | some y =>
        change cmp x y = (cmp y x).swap
        exact OrientedCmp.eq_swap
  isLE_trans {a b c} hab hbc := by
    cases a with
    | none => cases c <;> rfl
    | some x =>
      cases b with
      | none => exact absurd hab (by simp [compare_option])
      | some y =>
        cases c with
        | none => exact absurd hbc (by simp [compare_option])
        | some z =>
          change (cmp x y).isLE at hab
          change (cmp x z).isLE
          exact TransCmp.isLE_trans hab hbc

instance : TransCmp by_version := by
  have := compare_option_trans compare_version
  exact trans_on Release.version (compare_option compare_version)

theorem compare_published_by_class :
    compare_published = by_class (fun r => r.published_at.isSome)
      (fun a b => compare_str a.raw_tag b.raw_tag)
      (fun a b => compare (a.published_at.getD 0) (b.published_at.getD 0)) := by
  funext a b
  unfold compare_published by_class
  cases ha : a.published_at <;> cases hb : b.published_at <;>
    simp only [ha, hb, Option.isSome_none, Option.isSome_some, Option.getD_some]

instance : TransCmp compare_published := by
  rw [compare_published_by_class]
  have := trans_on Release.raw_tag compare_str
  have := trans_on (fun r : Release => r.published_at.getD 0) compare
  infer_instance

theorem compare_releases_tiebreak (a b : Release) :
    compare_releases a b =
      (by_version a b).then (tiebreak nums compare_nats compare_published a b) := by
  unfold compare_releases by_version tiebreak nums compare_option
  cases ha : a.version with
  | none => cases hb : b.version <;> rfl
  | some va =>
    cases hb : b.version with
    | none => rfl
    | some vb =>
      cases hv : compare_version va vb with
      | lt => simp [hv]
      | gt => simp [hv]
      | eq =>
        simp only [hv, ne_eq, not_true_eq_false, if_false, Ordering.eq_then]
        cases numeric_parts a.raw_tag.toList with
        | none => rfl
        | some na =>
          cases numeric_parts b.raw_tag.toList with
          | none => rfl
          | some nb =>
            cases hn : compare_nats na nb <;> simp [hn]

/-! ## Sorting and picking -/

/-- `sort_by` with the arguments exchanged: stable, the newest first. -/
def sort_releases_newest_first (l : List Release) : List Release :=
  l.insertionSort (fun a b => (compare_releases b a).isLE)

theorem pick_latest_cons (r : Release) (rest : List Release) :
    pick_latest (r :: rest) = some (max_from compare_releases r rest) := rfl

/-- A list in which the order of releases is one, with what sorting and picking make of it. -/
structure Ranked (l : List Release) : Prop where
  order : PreorderOn compare_releases l
  perm : (sort_releases_newest_first l).Perm l
  sorted : (sort_releases_newest_first l).Pairwise (fun a b => (compare_releases b a).isLE)
  latest : ∀ r rest, sort_releases_newest_first l = r :: rest →
    ∃ best, pick_latest l = some best ∧ best ∈ l ∧
      (∀ x ∈ l, (compare_releases x best).isLE) ∧ compare_releases best r = .eq

theorem ranked_of_preorder {l : List Release} (h : PreorderOn compare_releases l) : Ranked l where
  order := h
  perm := List.perm_insertionSort _ l
  sorted := sorted_insertionSort h.opposite
  latest := by
    intro r rest hsort
    cases l with
    | nil => simp [sort_releases_newest_first] at hsort
    | cons a others =>
      obtain ⟨hin, hle⟩ := max_from_spec h
      exact ⟨_, pick_latest_cons a others, hin, hle, max_from_eq_head h hsort⟩

/-- The list is ordered, sorted and picked from as one expects exactly when no release whose tag
has no numbers stands, by date or tag, between two of its version whose numbers are the other way
round. -/
theorem releases_are_ranked_iff (l : List Release) :
    Ranked l ↔ ∀ a ∈ l, ∀ b ∈ l, ∀ c ∈ l, by_version a b = .eq → by_version a c = .eq →
      ¬ Straddles nums compare_nats compare_published a b c := by
  have heq : compare_releases =
      fun a b => (by_version a b).then (tiebreak nums compare_nats compare_published a b) := by
    funext a b
    exact compare_releases_tiebreak a b
  rw [← tiebreak_preorderOn_iff, ← heq]
  exact ⟨Ranked.order, ranked_of_preorder⟩

/-- `numeric_parts` trims the tag once where `parse_version` trims it twice, so "v 1.2" has a
version and no numbers: by date it stands between two tags whose numbers are the other way round. -/
theorem three_releases_in_a_circle :
    let spaced := (Release.new "v 1.2").with_published (some 2)
    let short := (Release.new "1.2").with_published (some 3)
    let long := (Release.new "1.2.0").with_published (some 1)
    compare_releases short spaced = .gt ∧ compare_releases spaced long = .gt ∧
      compare_releases long short = .gt ∧ ¬ Ranked [spaced, short, long] := by
  intro spaced short long
  have hshort : compare_releases short spaced = .gt := by decide +kernel
  have hspaced : compare_releases spaced long = .gt := by decide +kernel
  have hlong : compare_releases long short = .gt := by decide +kernel
  refine ⟨hshort, hspaced, hlong, ?_⟩
  intro hranked
  have hmem : spaced ∈ [spaced, short, long] ∧ short ∈ [spaced, short, long] ∧
      long ∈ [spaced, short, long] := by
    simp
  have hle := hranked.order.trans long hmem.2.2 spaced hmem.1 short hmem.2.1
    (by rw [hranked.order.flip long hmem.2.2 spaced hmem.1, hspaced]; rfl)
    (by rw [hranked.order.flip spaced hmem.1 short hmem.2.1, hshort]; rfl)
  rw [hlong] at hle
  exact absurd hle (by decide)

end xrelease.model
