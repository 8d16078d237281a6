-- Contests of a list: each element challenges the best of those behind it, and takes its place
-- where it is at least as good. Where that is an order, the best of a list come out first.
import Mathlib.Data.List.Sort

namespace contest

variable {α : Type} (le : α → α → Prop) [DecidableRel le]

/-- The best of two: the challenger where it is at least as good. -/
def better (best challenger : α) : α := if le best challenger then challenger else best

/-- Who comes out first. -/
def first : List α → Option α
  | [] => none
  | a :: rest =>
    match first rest with
    | none => some a
    | some best => some (better le best a)

theorem first_isSome {l : List α} (h : l ≠ []) : (first le l).isSome := by
  cases l with
  | nil => exact absurd rfl h
  | cons a rest =>
    unfold first
    split <;> rfl

theorem mem_of_first {l : List α} {c : α} (h : first le l = some c) : c ∈ l := by
  induction l generalizing c with
  | nil => cases h
  | cons a rest ih =>
    unfold first at h
    split at h
    · obtain rfl := Option.some.inj h
      exact List.mem_cons_self
    · rename_i best hbest
      obtain rfl := Option.some.inj h
      unfold better
      split
      · exact List.mem_cons_self
      · exact List.mem_cons_of_mem _ (ih hbest)

/-- Who is first of the sorted list. -/
theorem head_insertionSort (l : List α) :
    (l.insertionSort (fun a b => le b a)).head? = first le l := by
  induction l with
  | nil => rfl
  | cons a rest ih =>
    rw [List.insertionSort_cons, first, ← ih]
    cases rest.insertionSort (fun a b => le b a) with
    | nil => rfl
    | cons b others =>
      by_cases hle : le b a
      · simp [better, hle]
      · simp [better, hle]

theorem first_map {β : Type} (f : β → α) (l : List β) :
    first le (l.map f) = (first (fun a b => le (f a) (f b)) l).map f := by
  induction l with
  | nil => rfl
  | cons a rest ih =>
    simp only [List.map_cons, first, ih]
    cases first (fun a b => le (f a) (f b)) rest with
    | none => rfl
    | some best =>
      simp only [Option.map_some, better]
      split <;> rfl

/-! ## Who can be first -/

/-- As good as an element is, two that beat one another in turn beat one another. -/
def TransOn (l : List α) : Prop :=
  ∀ a ∈ l, ∀ b ∈ l, ∀ c ∈ l, le a b → le b c → le a c

variable {le}

/-- Nobody is better than whoever comes out first. -/
theorem first_best (htotal : ∀ a b, le a b ∨ le b a) {l : List α} (htrans : TransOn le l) {c : α}
    (h : first le l = some c) : ∀ a ∈ l, le a c := by
  induction l generalizing c with
  | nil => cases h
  | cons a rest ih =>
    have hself : ∀ x, le x x := fun x => (htotal x x).elim id id
    have hrest : TransOn le rest := fun x hx y hy z hz =>
      htrans x (List.mem_cons_of_mem a hx) y (List.mem_cons_of_mem a hy) z
        (List.mem_cons_of_mem a hz)
    unfold first at h
    cases hfirst : first le rest with
    | none =>
      have hnil : rest = [] := by
        by_contra hne
        simpa [hfirst] using first_isSome le hne
      simp only [hfirst, Option.some.injEq] at h
      subst hnil h
      simpa using hself a
    | some best =>
      have hbest := ih hrest hfirst
      simp only [hfirst, Option.some.injEq] at h
      have hin := List.mem_cons_of_mem a (mem_of_first le hfirst)
      intro x hx
      unfold better at h
      split at h
      · rename_i hle
        subst h
        rcases List.mem_cons.mp hx with rfl | hx
        · exact hself x
        · exact htrans x (List.mem_cons_of_mem _ hx) best hin a List.mem_cons_self (hbest x hx) hle
      · rename_i hnot
        subst h
        rcases List.mem_cons.mp hx with rfl | hx
        · exact (htotal best x).resolve_left hnot
        · exact hbest x hx

/-- Whoever nobody is better than comes out first in some order of the list. -/
theorem exists_first {l : List α} {x : α} (hx : x ∈ l) (hbest : ∀ a ∈ l, le a x) :
    ∃ l' : List α, l'.Perm l ∧ first le l' = some x := by
  obtain ⟨before, after, rfl⟩ := List.append_of_mem hx
  refine ⟨x :: (before ++ after), List.perm_middle.symm, ?_⟩
  unfold first
  cases hfirst : first le (before ++ after) with
  | none => rfl
  | some best =>
    have hin : best ∈ before ++ x :: after := by
      have hmem := mem_of_first le hfirst
      simp only [List.mem_append, List.mem_cons] at hmem ⊢
      tauto
    simp [better, hbest best hin]

end contest
