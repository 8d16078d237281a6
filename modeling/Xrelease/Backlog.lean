-- A queue worked off in batches: each round takes the first `b` items still open, and closes
-- those of them that can be closed. What a round takes, in terms of what stands ahead of an
-- item; nothing here knows what the items are.
import Mathlib.Data.List.Basic
import Mathlib.Data.List.TakeWhile

namespace backlog

variable {α : Type}

/-- What one round takes: the first `b` open items. -/
def batch (l : List α) (isOpen : α → Bool) (b : Nat) : List α := (l.filter isOpen).take b

theorem mem_of_mem_batch {l : List α} {isOpen : α → Bool} {b : Nat} {x : α}
    (h : x ∈ batch l isOpen b) : x ∈ l ∧ isOpen x = true :=
  List.mem_filter.mp (List.mem_of_mem_take h)

/-- Fewer stand open once one of them is closed and none is opened. -/
theorem open_drops {l : List α} {before after : α → Bool}
    (hle : ∀ x, after x = true → before x = true) {x : α}
    (hx : x ∈ l) (hb : before x = true) (ha : after x = false) :
    (l.filter after).length < (l.filter before).length := by
  have hsub : (l.filter before).filter after = l.filter after := by
    rw [List.filter_filter]
    apply List.filter_congr
    intro y _
    cases hy : after y with
    | false => simp
    | true => simp [hle y hy]
  rw [← hsub, List.length_filter_lt_length_iff_exists]
  exact ⟨x, List.mem_filter.mpr ⟨hx, hb⟩, by simp [ha]⟩

theorem open_le {l : List α} {before after : α → Bool}
    (hle : ∀ x, after x = true → before x = true) :
    (l.filter after).length ≤ (l.filter before).length := by
  exact (List.monotone_filter_right l hle).length_le

/-! ## Ahead of an item -/

variable [DecidableEq α]

/-- What stands before an item in the queue. -/
def ahead (l : List α) (v : α) : List α := l.takeWhile (fun x => x ≠ v)

theorem not_mem_ahead (l : List α) (v : α) : v ∉ ahead l v := by
  intro h
  have := List.mem_takeWhile_imp h
  simp at this

/-- An item splits its queue. -/
theorem split_at {l : List α} {v : α} (h : v ∈ l) : ∃ rest, l = ahead l v ++ v :: rest := by
  unfold ahead
  induction l with
  | nil => simp at h
  | cons a l ih =>
    by_cases ha : a = v
    · subst ha
      exact ⟨l, by simp⟩
    · obtain ⟨rest, hr⟩ := ih ((List.mem_cons.mp h).resolve_left (Ne.symm ha))
      refine ⟨rest, ?_⟩
      rw [List.takeWhile_cons_of_pos (by simp [ha]), List.cons_append, ← hr]

/-- While a full batch of open items stands ahead of an item, the round takes only of those. -/
theorem batch_of_full {l : List α} {v : α} {isOpen : α → Bool} {b : Nat} (h : v ∈ l)
    (hfull : b ≤ ((ahead l v).filter isOpen).length) :
    batch l isOpen b = ((ahead l v).filter isOpen).take b := by
  obtain ⟨rest, hr⟩ := split_at h
  unfold batch
  conv_lhs => rw [hr]
  rw [List.filter_append, List.take_append_of_le_length hfull]

/-- An open item is taken exactly when fewer than a batch stand open ahead of it. -/
theorem mem_batch_iff {l : List α} {v : α} {isOpen : α → Bool} {b : Nat} (h : v ∈ l)
    (ho : isOpen v = true) : v ∈ batch l isOpen b ↔ ((ahead l v).filter isOpen).length < b := by
  constructor
  · intro hv
    by_contra hfull
    rw [batch_of_full h (by omega)] at hv
    exact not_mem_ahead l v (List.mem_filter.mp (List.mem_of_mem_take hv)).1
  · intro hlt
    obtain ⟨rest, hr⟩ := split_at h
    have hsplit : l.filter isOpen = (ahead l v).filter isOpen ++ v :: rest.filter isOpen := by
      conv_lhs => rw [hr]
      rw [List.filter_append, List.filter_cons_of_pos ho]
    unfold batch
    rw [hsplit, List.take_append, List.mem_append]
    right
    obtain ⟨k, hk⟩ : ∃ k, b - ((ahead l v).filter isOpen).length = k + 1 :=
      ⟨b - ((ahead l v).filter isOpen).length - 1, by omega⟩
    rw [hk, List.take_succ_cons]
    exact List.mem_cons_self

/-- The items ahead that are open and will never close. -/
def stuck (l : List α) (isOpen closes : α → Bool) (v : α) : List α :=
  (ahead l v).filter (fun x => isOpen x && !closes x)

/-- Where an item is passed over though fewer than a batch ahead of it are stuck, the round
takes one ahead of it that it closes. -/
theorem closes_one_ahead {l : List α} {v : α} {isOpen closes : α → Bool} {b : Nat} (h : v ∈ l)
    (ho : isOpen v = true) (hpass : v ∉ batch l isOpen b)
    (hstuck : (stuck l isOpen closes v).length < b) :
    ∃ x ∈ batch l isOpen b, x ∈ ahead l v ∧ isOpen x = true ∧ closes x = true := by
  have hfull : b ≤ ((ahead l v).filter isOpen).length := by
    have := mt (mem_batch_iff h ho).mpr hpass
    omega
  rw [batch_of_full h hfull]
  by_contra hnone
  push Not at hnone
  -- all `b` items taken are stuck
  have hall : ∀ x ∈ ((ahead l v).filter isOpen).take b, closes x = false := by
    intro x hx
    obtain ⟨hxa, hxo⟩ := List.mem_filter.mp (List.mem_of_mem_take hx)
    simpa using hnone x hx hxa hxo
  have hsub : (((ahead l v).filter isOpen).take b).filter (fun x => !closes x) =
      ((ahead l v).filter isOpen).take b := by
    rw [List.filter_eq_self]
    intro x hx
    simp [hall x hx]
  have hle : (((ahead l v).filter isOpen).take b).length ≤ (stuck l isOpen closes v).length := by
    rw [← hsub]
    unfold stuck
    have hs := (List.take_sublist b ((ahead l v).filter isOpen)).filter (fun x => !closes x)
    rw [List.filter_filter] at hs
    calc _ ≤ _ := hs.length_le
      _ = _ := by
        congr 1
        apply List.filter_congr
        intro x _
        exact Bool.and_comm _ _
  rw [List.length_take] at hle
  omega

end backlog
