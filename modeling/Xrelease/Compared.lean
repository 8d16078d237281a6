-- Comparisons that answer with an `Ordering`: through a key, class by class, with a tie-break that
-- some elements lack; when such a one orders the elements of a list, and what sorting by it and
-- taking the largest yield there.
import Mathlib.Data.List.Sort

namespace compared

open Std

variable {α β : Type}

/-! ## Building comparisons -/

theorem trans_on (f : α → β) (cmp : β → β → Ordering) [TransCmp cmp] :
    TransCmp (fun a b => cmp (f a) (f b)) where
  eq_swap {a b} := by
    exact OrientedCmp.eq_swap
  isLE_trans {a b c} hab hbc := by
    change (cmp (f a) (f b)).isLE at hab
    exact TransCmp.isLE_trans hab hbc

/-- Two classes, the second above the first, and each with its own comparison. -/
def by_class (high : α → Bool) (below above : α → α → Ordering) (a b : α) : Ordering :=
  match high a, high b with
  | false, false => below a b
  | false, true => .lt
  | true, false => .gt
  | true, true => above a b

instance (high : α → Bool) (below above : α → α → Ordering) [TransCmp below] [TransCmp above] :
    TransCmp (by_class high below above) where
  eq_swap {a b} := by
    unfold by_class
    cases high a <;> cases high b <;> simp only [Ordering.swap]
    · exact OrientedCmp.eq_swap
    · exact OrientedCmp.eq_swap
  isLE_trans {a b c} hab hbc := by
    unfold by_class at *
    cases ha : high a <;> cases hb : high b <;> cases hc : high c <;>
      simp only [ha, hb, hc] at hab hbc ⊢
    all_goals first
      | exact TransCmp.isLE_trans hab hbc
      | exact absurd hab (by decide)
      | exact absurd hbc (by decide)
      | rfl

/-- A key that some elements lack decides between two that have it, and `after` decides the rest. -/
def tiebreak (key : α → Option β) (cmp : β → β → Ordering) (after : α → α → Ordering)
    (a b : α) : Ordering :=
  match key a, key b with
  | some x, some y => (cmp x y).then (after a b)
  | _, _ => after a b

theorem tiebreak_swap {key : α → Option β} {cmp : β → β → Ordering} {after : α → α → Ordering}
    [OrientedCmp cmp] [OrientedCmp after] (a b : α) :
    tiebreak key cmp after a b = (tiebreak key cmp after b a).swap := by
  unfold tiebreak
  cases key a <;> cases key b <;> simp only [Ordering.swap_then]
  · exact OrientedCmp.eq_swap
  · exact OrientedCmp.eq_swap
  · exact OrientedCmp.eq_swap
  · rw [← OrientedCmp.eq_swap, ← OrientedCmp.eq_swap]

/-! ## On the elements of a list -/

/-- The comparison is a total preorder of the elements of the list. -/
structure PreorderOn (cmp : α → α → Ordering) (l : List α) : Prop where
  flip : ∀ a ∈ l, ∀ b ∈ l, cmp a b = (cmp b a).swap
  trans : ∀ a ∈ l, ∀ b ∈ l, ∀ c ∈ l, (cmp a b).isLE → (cmp b c).isLE → (cmp a c).isLE

theorem PreorderOn.tail {cmp : α → α → Ordering} {a : α} {l : List α}
    (h : PreorderOn cmp (a :: l)) : PreorderOn cmp l where
  flip := fun a ha b hb => h.flip a (List.mem_cons_of_mem _ ha) b (List.mem_cons_of_mem _ hb)
  trans := fun a ha b hb c hc => h.trans a (List.mem_cons_of_mem _ ha) b
    (List.mem_cons_of_mem _ hb) c (List.mem_cons_of_mem _ hc)

theorem PreorderOn.opposite {cmp : α → α → Ordering} {l : List α} (h : PreorderOn cmp l) :
    PreorderOn (fun a b => cmp b a) l where
  flip := fun a ha b hb => h.flip b hb a ha
  trans := fun a ha b hb c hc hab hbc => h.trans c hc b hb a ha hbc hab

theorem PreorderOn.total {cmp : α → α → Ordering} {l : List α} (h : PreorderOn cmp l) {a b : α}
    (ha : a ∈ l) (hb : b ∈ l) (hno : ¬ (cmp a b).isLE) : (cmp b a).isLE := by
  rw [h.flip b hb a ha]
  cases hab : cmp a b <;> simp [hab] at hno ⊢

/-- An element without the key stands between two whose keys are the other way round. -/
structure Straddles (key : α → Option β) (cmp : β → β → Ordering) (after : α → α → Ordering)
    (a b c : α) : Prop where
  keyless : key a = none
  keys : ∃ x y, key b = some x ∧ key c = some y ∧ cmp x y = .lt
  below : (after c a).isLE
  above : (after a b).isLE

section Tiebreak

variable {key : α → Option β} {cmp : β → β → Ordering} {first after : α → α → Ordering}

theorem lt_of_not_isLE [OrientedCmp after] {a b : α} (h : ¬ (after a b).isLE) :
    after b a = .lt := by
  have hgt : after a b = .gt := by cases hab : after a b <;> simp [hab] at h ⊢
  exact OrientedCmp.lt_of_gt hgt

/-- Among elements of one rank, where no element straddles two others. -/
theorem tiebreak_trans [TransCmp cmp] [TransCmp after] {a b c : α}
    (hno : ¬ Straddles key cmp after c a b ∧ ¬ Straddles key cmp after b c a ∧
      ¬ Straddles key cmp after a b c)
    (hab : (tiebreak key cmp after a b).isLE) (hbc : (tiebreak key cmp after b c).isLE) :
    (tiebreak key cmp after a c).isLE := by
  unfold tiebreak at *
  cases ha : key a with
  | none =>
    cases hb : key b with
    | none =>
      simp only [ha, hb] at hab hbc ⊢
      exact TransCmp.isLE_trans hab hbc
    | some y =>
      cases hc : key c with
      | none =>
        simp only [ha, hb, hc] at hab hbc ⊢
        exact TransCmp.isLE_trans hab hbc
      | some z =>
        simp only [ha, hb, hc, Ordering.isLE_then_iff_and] at hab hbc ⊢
        rcases hbc.2 with hlt | hle
        · by_contra hac
          refine hno.2.2 ⟨ha, ⟨y, z, hb, hc, hlt⟩, ?_, hab⟩
          rw [lt_of_not_isLE hac]
          rfl
        · exact TransCmp.isLE_trans hab hle
  | some x =>
    cases hb : key b with
    | none =>
      cases hc : key c with
      | none =>
        simp only [ha, hb, hc] at hab hbc ⊢
        exact TransCmp.isLE_trans hab hbc
      | some z =>
        simp only [ha, hb, hc] at hab hbc ⊢
        have hac := TransCmp.isLE_trans hab hbc
        rw [Ordering.isLE_then_iff_and]
        by_cases hxz : (cmp x z).isLE
        · exact ⟨hxz, Or.inr hac⟩
        · exact False.elim (hno.2.1 ⟨hb, ⟨z, x, hc, ha, lt_of_not_isLE hxz⟩, hab, hbc⟩)
    | some y =>
      cases hc : key c with
      | none =>
        simp only [ha, hb, hc, Ordering.isLE_then_iff_and] at hab hbc ⊢
        rcases hab.2 with hlt | hle
        · by_contra hac
          refine hno.1 ⟨hc, ⟨x, y, ha, hb, hlt⟩, hbc, ?_⟩
          rw [lt_of_not_isLE hac]
          rfl
        · exact TransCmp.isLE_trans hle hbc
      | some z =>
        simp only [ha, hb, hc, Ordering.isLE_then_iff_and] at hab hbc ⊢
        refine ⟨TransCmp.isLE_trans hab.1 hbc.1, ?_⟩
        rcases hab.2 with hlt | hle
        · exact Or.inl (TransCmp.lt_of_lt_of_isLE hlt hbc.1)
        · rcases hbc.2 with hlt | hle'
          · exact Or.inl (TransCmp.lt_of_isLE_of_lt hab.1 hlt)
          · exact Or.inr (TransCmp.isLE_trans hle hle')

/-- Exactly when a rank with such a tie-break orders the elements of a list. -/
theorem tiebreak_preorderOn_iff [TransCmp first] [TransCmp cmp] [TransCmp after] {l : List α} :
    PreorderOn (fun a b => (first a b).then (tiebreak key cmp after a b)) l ↔
      ∀ a ∈ l, ∀ b ∈ l, ∀ c ∈ l, first a b = .eq → first a c = .eq →
        ¬ Straddles key cmp after a b c := by
  constructor
  · rintro h a ha b hb c hc hab hac ⟨hnone, ⟨x, y, hx, hy, hlt⟩, hbelow, habove⟩
    have hca : first c a = .eq := OrientedCmp.eq_symm hac
    have hcb : first c b = .eq := TransCmp.eq_trans hca hab
    have hle := h.trans c hc a ha b hb
      (by simp only [hca, Ordering.eq_then, tiebreak, hnone, hy]; exact hbelow)
      (by simp only [hab, Ordering.eq_then, tiebreak, hnone, hx]; exact habove)
    simp only [hcb, Ordering.eq_then, tiebreak, hx, hy, OrientedCmp.gt_of_lt hlt] at hle
    exact absurd hle (by simp)
  · intro hno
    refine ⟨?_, ?_⟩
    · intro a _ b _
      rw [Ordering.swap_then, ← OrientedCmp.eq_swap, ← tiebreak_swap]
    · intro a ha b hb c hc hab hbc
      simp only [Ordering.isLE_then_iff_and] at hab hbc ⊢
      refine ⟨TransCmp.isLE_trans hab.1 hbc.1, ?_⟩
      by_cases hlt : first a c = .lt
      · exact Or.inl hlt
      · have hac : first a c = .eq := by
          have hle := TransCmp.isLE_trans hab.1 hbc.1
          cases h : first a c <;> simp [h] at hlt hle ⊢
        have hne₁ : first a b ≠ .lt := fun h =>
          hlt (TransCmp.lt_of_lt_of_isLE h hbc.1)
        have hne₂ : first b c ≠ .lt := fun h =>
          hlt (TransCmp.lt_of_isLE_of_lt hab.1 h)
        have heq₁ : first a b = .eq := by
          have hle := hab.1
          cases h : first a b <;> simp [h] at hne₁ hle ⊢
        have heq₂ : first b c = .eq := by
          have hle := hbc.1
          cases h : first b c <;> simp [h] at hne₂ hle ⊢
        refine Or.inr (tiebreak_trans ⟨?_, ?_, ?_⟩ (hab.2.resolve_left hne₁)
          (hbc.2.resolve_left hne₂))
        · exact hno c hc a ha b hb (OrientedCmp.eq_symm hac) (OrientedCmp.eq_symm heq₂)
        · exact hno b hb c hc a ha heq₂ (OrientedCmp.eq_symm heq₁)
        · exact hno a ha b hb c hc heq₁ hac

end Tiebreak

/-! ## Sorting and the largest -/

section Sorting

variable {cmp : α → α → Ordering} {l : List α}

theorem sorted_orderedInsert {a : α} (h : PreorderOn cmp (a :: l))
    (hl : l.Pairwise (fun x y => (cmp x y).isLE)) :
    (l.orderedInsert (fun x y => (cmp x y).isLE) a).Pairwise (fun x y => (cmp x y).isLE) := by
  induction l with
  | nil => exact List.pairwise_singleton _ _
  | cons b rest ih =>
    obtain ⟨hb, hrest⟩ := List.pairwise_cons.mp hl
    have ha : a ∈ a :: b :: rest := List.mem_cons_self
    have hbm : b ∈ a :: b :: rest := List.mem_cons_of_mem _ List.mem_cons_self
    rw [List.orderedInsert_cons]
    split
    · rename_i hab
      refine List.pairwise_cons.mpr ⟨?_, hl⟩
      intro x hx
      rcases List.mem_cons.mp hx with rfl | hx
      · exact hab
      · exact h.trans a ha b hbm x (List.mem_cons_of_mem _ (List.mem_cons_of_mem _ hx)) hab
          (hb x hx)
    · rename_i hab
      have hsub : PreorderOn cmp (a :: rest) := by
        have hmem : ∀ x ∈ a :: rest, x ∈ a :: b :: rest := by
          intro x hx
          rcases List.mem_cons.mp hx with rfl | hx
          · exact ha
          · exact List.mem_cons_of_mem _ (List.mem_cons_of_mem _ hx)
        exact ⟨fun x hx y hy => h.flip x (hmem x hx) y (hmem y hy),
          fun x hx y hy z hz => h.trans x (hmem x hx) y (hmem y hy) z (hmem z hz)⟩
      refine List.pairwise_cons.mpr ⟨?_, ih hsub hrest⟩
      intro x hx
      rcases (List.mem_orderedInsert _).mp hx with rfl | hx
      · exact h.total ha hbm hab
      · exact hb x hx

theorem sorted_insertionSort (h : PreorderOn cmp l) :
    (l.insertionSort (fun x y => (cmp x y).isLE)).Pairwise (fun x y => (cmp x y).isLE) := by
  induction l with
  | nil => exact List.Pairwise.nil
  | cons a rest ih =>
    refine sorted_orderedInsert ?_ (ih h.tail)
    have hmem : ∀ x ∈ a :: rest.insertionSort (fun x y => (cmp x y).isLE), x ∈ a :: rest := by
      intro x hx
      rcases List.mem_cons.mp hx with rfl | hx
      · exact List.mem_cons_self
      · exact List.mem_cons_of_mem _ ((List.mem_insertionSort _).mp hx)
    exact ⟨fun x hx y hy => h.flip x (hmem x hx) y (hmem y hy),
      fun x hx y hy z hz => h.trans x (hmem x hx) y (hmem y hy) z (hmem z hz)⟩

/-- `Iterator::max_by` from an element on: of equals, the last. -/
def max_from (cmp : α → α → Ordering) (a : α) (l : List α) : α :=
  l.foldl (fun best x => if cmp best x = .gt then best else x) a

theorem max_from_spec {a : α} (h : PreorderOn cmp (a :: l)) :
    max_from cmp a l ∈ a :: l ∧ ∀ x ∈ a :: l, (cmp x (max_from cmp a l)).isLE := by
  induction l generalizing a with
  | nil =>
    refine ⟨List.mem_cons_self, ?_⟩
    intro x hx
    obtain rfl := List.mem_singleton.mp hx
    have hflip := h.flip x hx x hx
    change (cmp x x).isLE
    cases hxx : cmp x x <;> simp [hxx] at hflip ⊢
  | cons b rest ih =>
    have ha : a ∈ a :: b :: rest := List.mem_cons_self
    have hb : b ∈ a :: b :: rest := List.mem_cons_of_mem _ List.mem_cons_self
    have hstep : ∀ best, best = a ∨ best = b →
        max_from cmp best rest ∈ best :: rest ∧
          ∀ x ∈ best :: rest, (cmp x (max_from cmp best rest)).isLE := by
      intro best hbest
      refine ih ?_
      have hmem : ∀ x ∈ best :: rest, x ∈ a :: b :: rest := by
        intro x hx
        rcases List.mem_cons.mp hx with rfl | hx
        · rcases hbest with rfl | rfl
          · exact ha
          · exact hb
        · exact List.mem_cons_of_mem _ (List.mem_cons_of_mem _ hx)
      exact ⟨fun x hx y hy => h.flip x (hmem x hx) y (hmem y hy),
        fun x hx y hy z hz => h.trans x (hmem x hx) y (hmem y hy) z (hmem z hz)⟩
    have hmax : max_from cmp a (b :: rest) =
        max_from cmp (if cmp a b = .gt then a else b) rest := rfl
    rw [hmax]
    by_cases hgt : cmp a b = .gt
    · rw [if_pos hgt]
      obtain ⟨hin, hle⟩ := hstep a (Or.inl rfl)
      have hin' : max_from cmp a rest ∈ a :: b :: rest := by
        rcases List.mem_cons.mp hin with he | hin
        · rw [he]
          exact ha
        · exact List.mem_cons_of_mem _ (List.mem_cons_of_mem _ hin)
      refine ⟨hin', ?_⟩
      intro x hx
      rcases List.mem_cons.mp hx with rfl | hx
      · exact hle x List.mem_cons_self
      · rcases List.mem_cons.mp hx with rfl | hx
        · refine h.trans x hb a ha _ hin' ?_ (hle a List.mem_cons_self)
          rw [h.flip x hb a ha, hgt]
          rfl
        · exact hle x (List.mem_cons_of_mem _ hx)
    · rw [if_neg hgt]
      obtain ⟨hin, hle⟩ := hstep b (Or.inr rfl)
      have hin' : max_from cmp b rest ∈ a :: b :: rest := List.mem_cons_of_mem _ hin
      refine ⟨hin', ?_⟩
      intro x hx
      rcases List.mem_cons.mp hx with rfl | hx
      · refine h.trans x ha b hb _ hin' ?_ (hle b List.mem_cons_self)
        cases hxb : cmp x b <;> simp [hxb] at hgt ⊢
      · exact hle x hx

/-- The largest is on a level with what the sort by the opposite comparison puts first. -/
theorem max_from_eq_head {a head : α} {rest : List α} (h : PreorderOn cmp (a :: l))
    (hsort : (a :: l).insertionSort (fun x y => (cmp y x).isLE) = head :: rest) :
    cmp (max_from cmp a l) head = .eq := by
  obtain ⟨hin, hle⟩ := max_from_spec h
  have hmem : ∀ x, x ∈ a :: l ↔ x ∈ head :: rest := by
    intro x
    rw [← hsort, List.mem_insertionSort]
  have hhead : head ∈ a :: l := (hmem head).mpr List.mem_cons_self
  have hfirst : (cmp (max_from cmp a l) head).isLE := by
    rcases List.mem_cons.mp ((hmem _).mp hin) with he | hrest
    · have hself := hle head hhead
      rw [he] at hself ⊢
      exact hself
    · have hsorted := sorted_insertionSort h.opposite
      rw [hsort] at hsorted
      exact (List.pairwise_cons.mp hsorted).1 _ hrest
  have hlast := hle head hhead
  rw [h.flip head hhead _ hin] at hlast
  cases hc : cmp (max_from cmp a l) head <;> simp [hc] at hfirst hlast ⊢

end Sorting

end compared
