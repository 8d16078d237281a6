-- A list under keys: a map from each key to the positions of the elements that have it, filled
-- one element after another, and what a look-up of the elements through it gives.
import Mathlib.Data.List.Basic
import Mathlib.Data.List.Induction
import Mathlib.Data.List.Perm.Basic

namespace indexed

variable {α κ σ : Type}

/-- The positions of the elements that have a property. -/
def positions (p : α → Bool) (l : List α) : List Nat :=
  (l.zipIdx.filter (fun x => p x.1)).map Prod.snd

/-- The elements at some positions. -/
def elements (l : List α) (places : List Nat) : List α := places.filterMap (fun i => l[i]?)

/-- One more position of a key (`entry(key).or_default().push(i)`). -/
def push [DecidableEq κ] (m : κ → Option (List Nat)) (key : κ) (i : Nat) :
    κ → Option (List Nat) :=
  fun k => if k = key then some ((m k).getD [] ++ [i]) else m k

theorem positions_snoc (p : α → Bool) (l : List α) (a : α) :
    positions p (l ++ [a]) = positions p l ++ (if p a then [l.length] else []) := by
  unfold positions
  rw [List.zipIdx_append, List.filter_append, List.map_append]
  by_cases h : p a <;> simp [h]

/-- No position is out of range, and none is left out. -/
theorem elements_positions (p : α → Bool) (l : List α) :
    elements l (positions p l) = l.filter p := by
  have hat : ∀ x ∈ l.zipIdx.filter (fun x => p x.1), l[x.2]? = some x.1 := by
    intro x hx
    have hx := (List.mem_filter.mp hx).1
    simpa [List.mem_zipIdx_iff_getElem?] using hx
  have hmap := List.filterMap_eq_map_iff_forall_eq_some.mpr hat
  unfold elements positions
  rw [List.filterMap_map]
  calc _ = (l.zipIdx.filter (fun x => p x.1)).map Prod.fst := hmap
    _ = (l.zipIdx.map Prod.fst).filter p := (List.filter_map).symm
    _ = l.filter p := by rw [List.zipIdx_map_fst]

theorem push_getD [DecidableEq κ] (m : κ → Option (List Nat)) (key k : κ) (i : Nat) :
    (push m key i k).getD [] = (m k).getD [] ++ (if k = key then [i] else []) := by
  unfold push
  split <;> simp

/-- What the start has of no element and each step keeps, one element further, the whole list
has. -/
theorem fold_keeps {f : σ → α × Nat → σ} {s : σ} (P : List α → σ → Prop) (h : P [] s)
    (hstep : ∀ l a s, P l s → P (l ++ [a]) (f s (a, l.length))) (l : List α) :
    P l (l.zipIdx.foldl f s) := by
  induction l using List.reverseRecOn with
  | nil => exact h
  | append_singleton l a ih =>
    rw [List.zipIdx_append, List.foldl_append]
    simpa using hstep l a _ ih

/-- The elements under each of some keys, one key after another, are those under any of them. -/
theorem flatMap_filter_perm [DecidableEq κ] (key : α → κ) (q : α → Bool) {keys : List κ}
    (h : keys.Nodup) (l : List α) :
    (keys.flatMap (fun k => l.filter (fun a => key a = k && q a))).Perm
      (l.filter (fun a => key a ∈ keys && q a)) := by
  induction keys with
  | nil => simp
  | cons k keys ih =>
    obtain ⟨hk, hkeys⟩ := List.nodup_cons.mp h
    have hsplit := List.filter_append_perm (fun a => key a = k)
      (l.filter (fun a => key a ∈ k :: keys && q a))
    rw [List.filter_filter, List.filter_filter] at hsplit
    have hfirst : (fun a => decide (key a = k) && (decide (key a ∈ k :: keys) && q a)) =
        fun a => key a = k && q a := by
      funext a
      by_cases ha : key a = k <;> simp [ha]
    have hothers : (fun a => !decide (key a = k) && (decide (key a ∈ k :: keys) && q a)) =
        fun a => key a ∈ keys && q a := by
      funext a
      by_cases ha : key a = k
      · simp [ha, hk]
      · simp [ha]
    rw [hfirst, hothers] at hsplit
    rw [List.flatMap_cons]
    exact ((List.Perm.refl _).append (ih hkeys)).trans hsplit

end indexed
