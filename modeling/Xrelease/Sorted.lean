-- A map that hands out its entries in the order of the keys, as the list of its entries: putting
-- an entry takes the place of the one under the same key, and of several entries put one after
-- another under a key the last one stays.
import Xrelease.Table

namespace keyed.Sorted

open keyed.Table

variable {κ ρ : Type}

/-- `BTreeMap::insert`. -/
def put (cmp : κ → κ → Ordering) (k : κ) (r : ρ) : List (κ × ρ) → List (κ × ρ)
  | [] => [(k, r)]
  | entry :: rest =>
    match cmp k entry.1 with
    | .lt => (k, r) :: entry :: rest
    | .eq => (k, r) :: rest
    | .gt => entry :: put cmp k r rest

/-- The entries put one after another. -/
def putAll (cmp : κ → κ → Ordering) (entries map : List (κ × ρ)) : List (κ × ρ) :=
  entries.foldl (fun map entry => put cmp entry.1 entry.2 map) map

theorem putAll_append (cmp : κ → κ → Ordering) (entries entries' map : List (κ × ρ)) :
    putAll cmp (entries ++ entries') map = putAll cmp entries' (putAll cmp entries map) :=
  List.foldl_append

/-! ## The order of the keys -/

/-- The entries stand in the order of their keys, each key once. -/
def Ordered (cmp : κ → κ → Ordering) (map : List (κ × ρ)) : Prop :=
  map.Pairwise (fun a b => cmp a.1 b.1 = .lt)

variable {cmp : κ → κ → Ordering} {map : List (κ × ρ)}

theorem mem_put {k : κ} {r : ρ} {entry : κ × ρ} (h : entry ∈ put cmp k r map) :
    entry = (k, r) ∨ entry ∈ map := by
  induction map with
  | nil =>
    rw [put, List.mem_singleton] at h
    exact Or.inl h
  | cons first rest ih =>
    unfold put at h
    split at h <;> simp only [List.mem_cons] at h ⊢
    · tauto
    · tauto
    · rcases h with h | h
      · exact Or.inr (Or.inl h)
      · rcases ih h with h | h
        · exact Or.inl h
        · exact Or.inr (Or.inr h)

theorem ordered_put (hcmp : ∀ a b, cmp a b = .eq ↔ a = b)
    (hflip : ∀ a b, cmp a b = .gt → cmp b a = .lt)
    (htrans : ∀ a b c, cmp a b = .lt → cmp b c = .lt → cmp a c = .lt) (k : κ) (r : ρ)
    (h : Ordered cmp map) : Ordered cmp (put cmp k r map) := by
  induction map with
  | nil => exact List.pairwise_singleton _ _
  | cons first rest ih =>
    obtain ⟨hfirst, hrest⟩ := List.pairwise_cons.mp h
    unfold put
    split
    · rename_i hlt
      refine List.pairwise_cons.mpr ⟨?_, h⟩
      intro entry hentry
      rcases List.mem_cons.mp hentry with rfl | hentry
      · exact hlt
      · exact htrans _ _ _ hlt (hfirst entry hentry)
    · rename_i heq
      rw [hcmp] at heq
      subst heq
      exact List.pairwise_cons.mpr ⟨hfirst, hrest⟩
    · rename_i hgt
      refine List.pairwise_cons.mpr ⟨?_, ih hrest⟩
      intro entry hentry
      rcases mem_put hentry with rfl | hentry
      · exact hflip _ _ hgt
      · exact hfirst entry hentry

theorem ordered_putAll (hcmp : ∀ a b, cmp a b = .eq ↔ a = b)
    (hflip : ∀ a b, cmp a b = .gt → cmp b a = .lt)
    (htrans : ∀ a b c, cmp a b = .lt → cmp b c = .lt → cmp a c = .lt) (entries : List (κ × ρ))
    (h : Ordered cmp map) : Ordered cmp (putAll cmp entries map) := by
  unfold putAll
  induction entries generalizing map with
  | nil => exact h
  | cons entry rest ih => exact ih (ordered_put hcmp hflip htrans entry.1 entry.2 h)

/-! ## What is found -/

variable [DecidableEq κ]

theorem look_put (hcmp : ∀ a b, cmp a b = .eq ↔ a = b) (k j : κ) (r : ρ) (map : List (κ × ρ)) :
    look j (put cmp k r map) = if k = j then some r else look j map := by
  induction map with
  | nil => rfl
  | cons entry rest ih =>
    unfold put
    cases h : cmp k entry.1 with
    | lt => rfl
    | eq =>
      have hk := (hcmp k entry.1).mp h
      simp only [look]
      by_cases hj : k = j
      · simp [hj]
      · simp [hj, ← hk]
    | gt =>
      have hne : entry.1 ≠ k := by
        rintro rfl
        rw [(hcmp _ _).mpr rfl] at h
        exact absurd h (by decide)
      simp only [look, ih]
      by_cases hj : entry.1 = j
      · rw [if_pos hj, if_neg (fun hk => hne (hj.trans hk.symm)), if_pos hj]
      · rw [if_neg hj, if_neg hj]

/-- Of the entries under a key the last one counts. -/
theorem look_putAll (hcmp : ∀ a b, cmp a b = .eq ↔ a = b) (j : κ) (entries map : List (κ × ρ)) :
    look j (putAll cmp entries map) = (look j entries.reverse).or (look j map) := by
  unfold putAll
  induction entries generalizing map with
  | nil => rfl
  | cons entry rest ih =>
    rw [List.foldl_cons, ih, look_put hcmp, List.reverse_cons, look_append]
    cases look j rest.reverse with
    | some r => rfl
    | none =>
      simp only [Option.none_or, look]
      split <;> rfl

/-- With each key once it does not matter from which end a key is looked up. -/
theorem look_reverse (hcmp : ∀ a b, cmp a b = .eq ↔ a = b) (h : Ordered cmp map) (j : κ) :
    look j map.reverse = look j map := by
  induction map with
  | nil => rfl
  | cons first rest ih =>
    obtain ⟨hfirst, hrest⟩ := List.pairwise_cons.mp h
    rw [List.reverse_cons, look_append, ih hrest]
    simp only [look]
    by_cases hj : first.1 = j
    · have hnone : look j rest = none := by
        rw [look_eq_none_iff, List.mem_map]
        rintro ⟨entry, hentry, he⟩
        have hlt := hfirst entry hentry
        rw [hj, he, (hcmp j j).mpr rfl] at hlt
        exact absurd hlt (by decide)
      simp [hj, hnone]
    · simp [hj]

end keyed.Sorted
