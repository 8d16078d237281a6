-- A lock of a database server, taken by a session: the session may take it more than once, and
-- holds it until it has released it as often, or has ended.
import Mathlib.Tactic.Common

namespace advisory_lock

structure Lock where
  /-- The session that holds it, and how often beyond the first time. -/
  holder : Option (Nat × Nat) := none
deriving DecidableEq

def Lock.HeldBy (lock : Lock) (session : Nat) : Prop := ∃ more, lock.holder = some (session, more)

/-- `pg_try_advisory_lock`: it never waits. -/
def Lock.try_lock (lock : Lock) (session : Nat) : Bool × Lock :=
  match lock.holder with
  | none => (true, ⟨some (session, 0)⟩)
  | some (holder, more) =>
    if holder = session then (true, ⟨some (session, more + 1)⟩) else (false, lock)

/-- `pg_advisory_unlock`: nothing happens to a lock that another session holds. -/
def Lock.unlock (lock : Lock) (session : Nat) : Lock :=
  match lock.holder with
  | none => lock
  | some (holder, more) =>
    if holder = session then ⟨if more = 0 then none else some (session, more - 1)⟩ else lock

/-- The server closes a session. -/
def Lock.ends (lock : Lock) (session : Nat) : Lock :=
  match lock.holder with
  | none => lock
  | some (holder, _) => if holder = session then ⟨none⟩ else lock

/-! ## Who holds it afterwards -/

variable {lock : Lock} {s t : Nat}

theorem heldBy_unique (hs : lock.HeldBy s) (ht : lock.HeldBy t) : s = t := by
  obtain ⟨m, hm⟩ := hs
  obtain ⟨n, hn⟩ := ht
  rw [hm] at hn
  exact congrArg (fun h => (h.getD (0, 0)).1) hn

/-- The lock is refused exactly where another session holds it. -/
theorem try_lock_iff : (lock.try_lock s).1 = true ↔ ∀ t, lock.HeldBy t → t = s := by
  unfold Lock.try_lock Lock.HeldBy
  cases lock.holder with
  | none => simp
  | some held =>
    obtain ⟨holder, more⟩ := held
    by_cases h : holder = s <;> simp [h]

theorem heldBy_of_try_lock (h : (lock.try_lock s).1 = true) : (lock.try_lock s).2.HeldBy s := by
  unfold Lock.try_lock at *
  unfold Lock.HeldBy
  cases hheld : lock.holder with
  | none => exact ⟨0, by simp⟩
  | some held =>
    obtain ⟨holder, more⟩ := held
    rw [hheld] at h
    by_cases hs : holder = s
    · exact ⟨more + 1, by simp [hs]⟩
    · simp [hs] at h

theorem heldBy_try_lock (h : lock.HeldBy t) : (lock.try_lock s).2.HeldBy t := by
  obtain ⟨more, hmore⟩ := h
  unfold Lock.try_lock Lock.HeldBy
  rw [hmore]
  by_cases hs : t = s
  · exact ⟨more + 1, by simp [hs]⟩
  · exact ⟨more, by simp [hs, hmore]⟩

theorem heldBy_try_lock_cases (h : (lock.try_lock s).2.HeldBy t) : lock.HeldBy t ∨ t = s := by
  by_cases htry : (lock.try_lock s).1 = true
  · exact Or.inr (heldBy_unique h (heldBy_of_try_lock htry))
  · left
    unfold Lock.try_lock at h htry
    cases hheld : lock.holder with
    | none =>
      rw [hheld] at htry
      exact absurd rfl htry
    | some held =>
      rw [hheld] at h htry
      dsimp only at h htry
      split at h
      · rename_i hs
        simp [hs] at htry
      · exact h

theorem heldBy_of_unlock (h : (lock.unlock s).HeldBy t) : lock.HeldBy t := by
  obtain ⟨more, hmore⟩ := h
  unfold Lock.unlock at hmore
  split at hmore
  · exact ⟨more, hmore⟩
  · rename_i holder n heq
    split at hmore
    · rename_i hs
      split at hmore
      · cases hmore
      · obtain ⟨rfl, -⟩ := Prod.mk.inj (Option.some.inj hmore)
        exact ⟨n, hs ▸ heq⟩
    · exact ⟨more, hmore⟩

theorem heldBy_unlock (h : lock.HeldBy t) (hne : t ≠ s) : (lock.unlock s).HeldBy t := by
  obtain ⟨more, hmore⟩ := h
  exact ⟨more, by simp [Lock.unlock, hmore, hne]⟩

theorem heldBy_ends : (lock.ends s).HeldBy t ↔ lock.HeldBy t ∧ t ≠ s := by
  unfold Lock.ends Lock.HeldBy
  cases hheld : lock.holder with
  | none => simp [hheld]
  | some held =>
    obtain ⟨holder, more⟩ := held
    by_cases hs : holder = s
    · subst hs
      simp [eq_comm]
    · simp only [hs, if_false, hheld, Option.some.injEq, Prod.mk.injEq]
      constructor
      · rintro ⟨m, rfl, rfl⟩
        exact ⟨⟨_, rfl, rfl⟩, hs⟩
      · exact fun h => h.1

/-! ## Locks that nobody takes twice -/

/-- The session that holds it has taken it once. -/
def Lock.Once (lock : Lock) : Prop := ∀ t more, lock.holder = some (t, more) → more = 0

theorem once_try_lock (h : lock.Once) (hnot : ¬ lock.HeldBy s) : (lock.try_lock s).2.Once := by
  intro t more ht
  unfold Lock.try_lock at ht
  split at ht
  · obtain ⟨-, rfl⟩ := Prod.mk.inj (Option.some.inj ht)
    rfl
  · rename_i holder n heq
    split at ht
    · rename_i hs
      exact (hnot ⟨n, hs ▸ heq⟩).elim
    · exact h t more ht

theorem once_unlock (h : lock.Once) : (lock.unlock s).Once := by
  intro t more ht
  unfold Lock.unlock at ht
  split at ht
  · exact h t more ht
  · rename_i holder n heq
    split at ht
    · rw [h holder n heq] at ht
      cases ht
    · exact h t more ht

theorem once_ends (h : lock.Once) : (lock.ends s).Once := by
  intro t more ht
  unfold Lock.ends at ht
  split at ht
  · exact h t more ht
  · split at ht
    · cases ht
    · exact h t more ht

/-- What was taken once is released at once. -/
theorem not_heldBy_unlock (h : lock.Once) : ¬ (lock.unlock s).HeldBy s := by
  rintro ⟨more, hmore⟩
  unfold Lock.unlock at hmore
  split at hmore
  · rename_i hnone
    rw [hnone] at hmore
    cases hmore
  · rename_i holder n heq
    split at hmore
    · rw [h holder n heq] at hmore
      cases hmore
    · rename_i hs
      rw [heq] at hmore
      exact hs (Prod.mk.inj (Option.some.inj hmore)).1

end advisory_lock
