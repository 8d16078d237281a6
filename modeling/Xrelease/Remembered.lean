-- A cache of bounded size: what is put into it evicts other entries, in whatever way, and what it
-- still holds of a key is what was put last for it.
import Xrelease.Table

namespace remembered

open keyed

variable {κ ρ : Type} [DecidableEq κ]

/-- What the cache holds of a key is the newest of what was put for it; the history is newest
first. -/
def Remembers (cache : Table κ ρ) (history : List (κ × ρ)) : Prop :=
  ∀ k r, cache.get k = some r → Table.look k history = some r

/-- No entry is there that was not there before. -/
def Evicts (before after : Table κ ρ) : Prop :=
  ∀ k r, after.get k = some r → before.get k = some r

theorem evicts_refl (t : Table κ ρ) : Evicts t t := fun _ _ h => h

theorem evicts_empty (t : Table κ ρ) : Evicts t Table.empty := nofun

theorem evicts_keep (t : Table κ ρ) (p : κ → ρ → Bool) : Evicts t (t.keep p) := by
  intro k r h
  rw [Table.get_keep, Option.filter_eq_some_iff] at h
  exact h.1

theorem remembers_empty (history : List (κ × ρ)) :
    Remembers (Table.empty : Table κ ρ) history := nofun

/-- Room is made, and the entry is put in. -/
theorem remembers_put {before room : Table κ ρ} {history : List (κ × ρ)}
    (h : Remembers before history) (hroom : Evicts before room) (k : κ) (r : ρ) :
    Remembers (room.upsert k r (fun _ => r)) ((k, r) :: history) := by
  intro j s hs
  rw [Table.get_upsert] at hs
  unfold Table.look
  by_cases hj : j = k
  · rw [if_pos hj] at hs
    rw [if_pos hj.symm, ← hs]
    cases room.get k <;> rfl
  · rw [if_neg hj] at hs
    rw [if_neg (Ne.symm hj)]
    exact h j s (hroom j s hs)

/-! ## Size -/

theorem length_upsert_le (t : Table κ ρ) (k : κ) (fresh : ρ) (old : ρ → ρ) :
    (t.upsert k fresh old).rows.length ≤ t.rows.length + 1 := by
  unfold Table.upsert
  split
  · rename_i h
    unfold Table.add
    rw [dif_pos h]
    simp
  · unfold Table.mapRows
    simp

end remembered
