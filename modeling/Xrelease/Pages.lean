-- Pages of a sorted list: the first elements, up to a limit, of what a filter leaves. What the
-- filter sees of a list that was cut off before it, and when that is the page itself.
import Mathlib.Data.List.Sort

namespace paging

section
variable {α : Type} (r : α → α → Prop) [DecidableRel r]

/-- Elements of the list that are each ahead of the other are one. -/
def Apart (l : List α) : Prop := ∀ a ∈ l, ∀ b ∈ l, r a b → r b a → a = b

/-- A shorter list of the same beginning has the same page where it has all that is on it. -/
theorem take_eq_iff {short long : List α} (hstart : short <+: long) (hnodup : long.Nodup)
    (limit : Nat) :
    short.take limit = long.take limit ↔ ∀ a ∈ long.take limit, a ∈ short := by
  constructor
  · intro h a ha
    rw [← h] at ha
    exact List.mem_of_mem_take ha
  · intro hall
    obtain ⟨rest, rfl⟩ := hstart
    rw [List.take_append]
    by_cases hlong : limit ≤ short.length
    · simp [Nat.sub_eq_zero_of_le hlong]
    · cases rest with
      | nil => simp
      | cons c more =>
        exfalso
        have hc : c ∈ (short ++ c :: more).take limit := by
          rw [List.take_append]
          apply List.mem_append_right
          obtain ⟨n, hn⟩ : ∃ n, limit - short.length = n + 1 :=
            ⟨limit - short.length - 1, by omega⟩
          rw [hn]
          exact List.mem_cons_self
        have hdisjoint := (List.nodup_append.mp hnodup).2.2
        exact hdisjoint c (hall c hc) c List.mem_cons_self rfl

variable [DecidableEq α]

/-- In a sorted list an element stands where as many are ahead of it. -/
theorem idxOf_eq_ahead {l : List α} (hsorted : l.Pairwise r) (hapart : Apart r l)
    (hnodup : l.Nodup) {a : α} (ha : a ∈ l) :
    l.idxOf a = (l.filter (fun b => b ≠ a ∧ r b a)).length := by
  induction l with
  | nil => simp at ha
  | cons b rest ih =>
    obtain ⟨hbefore, hsorted⟩ := List.pairwise_cons.mp hsorted
    obtain ⟨hnot, hnodup⟩ := List.nodup_cons.mp hnodup
    by_cases hb : b = a
    · subst hb
      have hnone : rest.filter (fun c => c ≠ b ∧ r c b) = [] := by
        rw [List.filter_eq_nil_iff]
        intro c hc hahead
        obtain ⟨hne, hcb⟩ := of_decide_eq_true hahead
        exact hne (hapart c (List.mem_cons_of_mem _ hc) b List.mem_cons_self hcb (hbefore c hc))
      rw [List.idxOf_cons_self, List.filter_cons_of_neg (by simp), hnone]
      rfl
    · have harest : a ∈ rest := (List.mem_cons.mp ha).resolve_left (Ne.symm hb)
      have hahead : b ≠ a ∧ r b a := ⟨hb, hbefore a harest⟩
      have hrest : Apart r rest := fun c hc d hd =>
        hapart c (List.mem_cons_of_mem _ hc) d (List.mem_cons_of_mem _ hd)
      rw [List.idxOf_cons_ne rest hb, List.filter_cons_of_pos (by simpa using hahead),
        List.length_cons, ih hsorted hrest hnodup harest]

variable [Std.Total r] [IsTrans α r]

omit [DecidableEq α] in
/-- There is one order that a list is sorted in. -/
theorem insertionSort_perm {l l' : List α} (hapart : Apart r l) (hperm : l'.Perm l) :
    l'.insertionSort r = l.insertionSort r := by
  have hperm' := List.perm_insertionSort r l
  have hboth := (List.perm_insertionSort r l').trans hperm
  have hone : ∀ a b, a ∈ l'.insertionSort r → b ∈ l.insertionSort r → r a b → r b a → a = b :=
    fun a b ha hb => hapart a (hboth.mem_iff.mp ha) b (hperm'.mem_iff.mp hb)
  exact List.Perm.eq_of_pairwise hone (List.pairwise_insertionSort r l')
    (List.pairwise_insertionSort r l) (hboth.trans hperm'.symm)

omit [DecidableEq α] in
/-- What is told apart after the sort could have been told apart before it. -/
theorem filter_insertionSort (p : α → Bool) {l : List α} (hapart : Apart r l) :
    (l.insertionSort r).filter p = (l.filter p).insertionSort r := by
  have hperm := (List.perm_insertionSort r l).filter p
  have hperm' := List.perm_insertionSort r (l.filter p)
  have hone : ∀ a b, a ∈ (l.insertionSort r).filter p → b ∈ (l.filter p).insertionSort r →
      r a b → r b a → a = b :=
    fun a b ha hb => hapart a (List.mem_filter.mp (hperm.mem_iff.mp ha)).1 b
      (List.mem_filter.mp (hperm'.mem_iff.mp hb)).1
  exact List.Perm.eq_of_pairwise hone ((List.pairwise_insertionSort r l).filter p)
    (List.pairwise_insertionSort r (l.filter p)) (hperm.trans hperm'.symm)

/-- A page cut off before the rows are told apart is the page of the rows told apart exactly where
the cut leaves all that belongs on it. -/
theorem page_iff (own : α → Bool) {l : List α} (hapart : Apart r l) (hnodup : l.Nodup)
    (window limit : Nat) :
    (((l.insertionSort r).take window).filter own).take limit =
        ((l.filter own).insertionSort r).take limit ↔
      ∀ a ∈ ((l.filter own).insertionSort r).take limit,
        (l.filter (fun b => b ≠ a ∧ r b a)).length < window := by
  have hsorted := List.pairwise_insertionSort r l
  have hperm := List.perm_insertionSort r l
  have hnodup' : (l.insertionSort r).Nodup := hperm.nodup_iff.mpr hnodup
  have hapart' : Apart r (l.insertionSort r) := fun a ha b hb =>
    hapart a (hperm.mem_iff.mp ha) b (hperm.mem_iff.mp hb)
  rw [← filter_insertionSort r own hapart,
    take_eq_iff (( List.take_prefix window _).filter own) (hnodup'.filter own)]
  refine forall_congr' fun a => imp_congr_right fun ha => ?_
  have hboth := List.mem_filter.mp (List.mem_of_mem_take ha)
  rw [List.mem_filter, and_iff_left hboth.2, List.mem_take_iff_idxOf_lt hboth.1,
    idxOf_eq_ahead r hsorted hapart' hnodup' hboth.1, (hperm.filter _).length_eq]

end

end paging
