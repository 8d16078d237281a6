-- Windows of a list that is read newest first, and grows at the front while somebody reads it one
-- window after another.
import Mathlib.Data.List.Basic

namespace reading

variable {α β : Type}

/-- At most `limit` elements, after the first `offset`. -/
def window (limit offset : Nat) (l : List α) : List α := (l.drop offset).take limit

@[simp] theorem getElem?_window (limit offset i : Nat) (l : List α) :
    (window limit offset l)[i]? = if i < limit then l[offset + i]? else none := by
  unfold window
  rw [List.getElem?_take, List.getElem?_drop]

theorem mem_window_iff {limit offset : Nat} {l : List α} {a : α} :
    a ∈ window limit offset l ↔
      ∃ i, offset ≤ i ∧ i < offset + limit ∧ l[i]? = some a := by
  rw [List.mem_iff_getElem?]
  constructor
  · rintro ⟨i, hi⟩
    rw [getElem?_window] at hi
    split at hi
    · exact ⟨offset + i, by omega, by omega, hi⟩
    · cases hi
  · rintro ⟨i, hle, hlt, hi⟩
    refine ⟨i - offset, ?_⟩
    rw [getElem?_window, if_pos (by omega), Nat.add_sub_cancel' hle, hi]

theorem mem_of_mem_window {limit offset : Nat} {l : List α} {a : α}
    (h : a ∈ window limit offset l) : a ∈ l := List.mem_of_mem_drop (List.mem_of_mem_take h)

/-- Each list has what the one before has, behind what was added. -/
def Growing : List α → List (List α) → Prop
  | _, [] => True
  | l, next :: rest => l <:+ next ∧ Growing next rest

theorem Growing.of_suffix {l l' : List α} {lists : List (List α)} (h : Growing l' lists)
    (hl : l <:+ l') : Growing l lists := by
  cases lists with
  | nil => trivial
  | cons next rest => exact ⟨hl.trans h.1, h.2⟩

/-- The windows of lists that are read one after another, from the window `k` on. -/
def windows (limit : Nat) : Nat → List (List α) → List (List α)
  | _, [] => []
  | k, l :: rest => window limit (k * limit) l :: windows limit (k + 1) rest

theorem suffix_getElem? {l next : List α} {i : Nat} {a : α} (h : l <:+ next)
    (hi : l[i]? = some a) : ∃ added, next[added + i]? = some a := by
  obtain ⟨front, rfl⟩ := h
  refine ⟨front.length, ?_⟩
  rw [List.getElem?_append_right (Nat.le_add_right ..), Nat.add_sub_cancel_left, hi]

/-- What is not in a window is behind it, and what is added moves it further back; so a later
window has it, if one ends at or behind the end of its list. -/
theorem read_of_position {limit : Nat} {lists : List (List α)} {l : List α} {k i : Nat} {a : α}
    (hgrow : Growing l lists) (hi : l[i]? = some a) (hk : k * limit ≤ i)
    (hend : (lists.getLastD l).length ≤ (k + lists.length) * limit) (hne : lists ≠ []) :
    ∃ w ∈ windows limit k lists, a ∈ w := by
  induction lists generalizing l k i with
  | nil => exact absurd rfl hne
  | cons next rest ih =>
    obtain ⟨hsuffix, hrest⟩ := hgrow
    obtain ⟨added, hadded⟩ := suffix_getElem? hsuffix hi
    by_cases hin : added + i < k * limit + limit
    · exact ⟨_, List.mem_cons_self .., mem_window_iff.mpr ⟨added + i, by omega, hin, hadded⟩⟩
    · have hbehind : (k + 1) * limit ≤ added + i := by
        rw [Nat.succ_mul]
        omega
      cases rest with
      | nil =>
        -- the last list ends in this window
        have hlt := (List.getElem?_eq_some_iff.mp hadded).1
        have hle : next.length ≤ (k + 1) * limit := hend
        omega
      | cons later rest =>
        have hlast : ((later :: rest).getLastD next).length ≤
            (k + 1 + (later :: rest).length) * limit := by
          have hcount : k + (next :: later :: rest).length =
              k + 1 + (later :: rest).length := by
            simp only [List.length_cons]
            omega
          rw [← hcount]
          exact hend
        obtain ⟨w, hw, ha⟩ := ih hrest hadded hbehind hlast (List.cons_ne_nil _ _)
        exact ⟨w, List.mem_cons_of_mem _ hw, ha⟩

/-- Reading window after window until one ends at or behind the end shows all that was there when
the reading began. -/
theorem all_old_are_read {limit : Nat} {lists : List (List α)} {l : List α} {a : α}
    (hgrow : Growing l lists) (ha : a ∈ l) (hne : lists ≠ [])
    (hend : (lists.getLastD l).length ≤ lists.length * limit) :
    ∃ w ∈ windows limit 0 lists, a ∈ w := by
  obtain ⟨i, hi⟩ := List.mem_iff_getElem?.mp ha
  refine read_of_position hgrow hi (by omega) ?_ hne
  rw [Nat.zero_add]
  exact hend

end reading
