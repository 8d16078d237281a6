-- A keyed table as a database keeps one: at most one row for a key, the statements that
-- change it (update where, insert unless present, upsert, delete where), and a table whose
-- keys are drawn from a sequence that never gives a number twice.
import Mathlib.Data.List.Nodup
import Mathlib.Data.List.Perm.Basic
import Mathlib.Data.List.Sort

namespace keyed

/-! ## Rows in any order -/

/-- A list in another order: the numbers say which of the rows left over comes next. What a
database returns without `ORDER BY` is `arrange ns` of the rows for some `ns`. -/
def arrange {α : Type} : List Nat → List α → List α
  | [], l => l
  | n :: ns, l =>
    match l[n % l.length]? with
    | none => l
    | some a => a :: arrange ns (l.eraseIdx (n % l.length))

theorem arrange_perm {α : Type} (ns : List Nat) (l : List α) : (arrange ns l).Perm l := by
  induction ns generalizing l with
  | nil => exact List.Perm.refl l
  | cons n ns ih =>
    unfold arrange
    split
    · exact List.Perm.refl l
    · rename_i a h
      obtain ⟨hlt, rfl⟩ := List.getElem?_eq_some_iff.mp h
      exact ((ih _).cons _).trans (List.getElem_cons_eraseIdx_perm hlt)

@[simp] theorem mem_arrange {α : Type} (ns : List Nat) (l : List α) (a : α) :
    a ∈ arrange ns l ↔ a ∈ l := (arrange_perm ns l).mem_iff

/-! ## Tables -/

/-- Rows by key; no key has two rows. -/
structure Table (κ ρ : Type) where
  rows : List (κ × ρ)
  nodup : (rows.map Prod.fst).Nodup

namespace Table

variable {κ ρ : Type}

def empty : Table κ ρ := ⟨[], List.nodup_nil⟩

instance : Inhabited (Table κ ρ) := ⟨empty⟩

/-- `UPDATE … SET`: every row is rewritten, none moves and none changes its key. -/
def mapRows (t : Table κ ρ) (f : κ → ρ → ρ) : Table κ ρ where
  rows := t.rows.map (fun kr => (kr.1, f kr.1 kr.2))
  nodup := by
    have h : (t.rows.map (fun kr => (kr.1, f kr.1 kr.2))).map Prod.fst = t.rows.map Prod.fst := by
      simp [Function.comp_def]
    rw [h]
    exact t.nodup

/-- `DELETE … WHERE NOT keep`. -/
def keep (t : Table κ ρ) (p : κ → ρ → Bool) : Table κ ρ where
  rows := t.rows.filter (fun kr => p kr.1 kr.2)
  nodup := t.nodup.sublist (List.filter_sublist.map _)

/-- `SELECT … WHERE`, in the table's own order. -/
def select (t : Table κ ρ) (p : κ → ρ → Bool) : List (κ × ρ) :=
  t.rows.filter (fun kr => p kr.1 kr.2)

/-- `EXISTS (SELECT … WHERE …)`. -/
def any (t : Table κ ρ) (p : κ → ρ → Bool) : Bool :=
  t.rows.any (fun kr => p kr.1 kr.2)

theorem select_nodup (t : Table κ ρ) (p : κ → ρ → Bool) :
    ((t.select p).map Prod.fst).Nodup :=
  t.nodup.sublist (List.filter_sublist.map _)

variable [DecidableEq κ]

def look (k : κ) : List (κ × ρ) → Option ρ
  | [] => none
  | kr :: rest => if kr.1 = k then some kr.2 else look k rest

/-- The row of a key. -/
def get (t : Table κ ρ) (k : κ) : Option ρ := look k t.rows

theorem look_isSome_iff (k : κ) (l : List (κ × ρ)) :
    (look k l).isSome ↔ k ∈ l.map Prod.fst := by
  induction l with
  | nil => simp [look]
  | cons kr rest ih =>
    simp only [look, List.map_cons, List.mem_cons]
    split
    · rename_i h
      simp [h]
    · rename_i h
      rw [ih]
      constructor
      · exact Or.inr
      · rintro (h' | h')
        · exact absurd h'.symm h
        · exact h'

theorem look_eq_none_iff (k : κ) (l : List (κ × ρ)) :
    look k l = none ↔ k ∉ l.map Prod.fst := by
  rw [← look_isSome_iff, Option.not_isSome_iff_eq_none]

theorem mem_of_look {k : κ} {r : ρ} {l : List (κ × ρ)} (h : look k l = some r) : (k, r) ∈ l := by
  induction l with
  | nil => simp [look] at h
  | cons kr rest ih =>
    simp only [look] at h
    split at h
    · rename_i hk
      obtain rfl := Option.some.inj h
      subst hk
      exact List.mem_cons_self
    · exact List.mem_cons_of_mem _ (ih h)

theorem look_of_mem {k : κ} {r : ρ} {l : List (κ × ρ)} (hn : (l.map Prod.fst).Nodup)
    (h : (k, r) ∈ l) : look k l = some r := by
  induction l with
  | nil => simp at h
  | cons kr rest ih =>
    rw [List.map_cons, List.nodup_cons] at hn
    rcases List.mem_cons.mp h with h | h
    · subst h
      simp [look]
    · have hne : kr.1 ≠ k := by
        intro he
        exact hn.1 (he ▸ List.mem_map_of_mem (f := Prod.fst) h)
      simp only [look, hne, if_false]
      exact ih hn.2 h

theorem look_append (k : κ) (l l' : List (κ × ρ)) :
    look k (l ++ l') = (look k l).or (look k l') := by
  induction l with
  | nil => simp [look]
  | cons kr rest ih =>
    simp only [List.cons_append, look]
    split
    · rfl
    · exact ih

/-- A key and a row are listed together exactly when the row is that key's row. -/
theorem mem_rows_iff (t : Table κ ρ) (k : κ) (r : ρ) : (k, r) ∈ t.rows ↔ t.get k = some r :=
  ⟨look_of_mem t.nodup, mem_of_look⟩

theorem mem_select (t : Table κ ρ) (p : κ → ρ → Bool) (k : κ) (r : ρ) :
    (k, r) ∈ t.select p ↔ t.get k = some r ∧ p k r = true := by
  simp [select, List.mem_filter, mem_rows_iff]

theorem any_iff (t : Table κ ρ) (p : κ → ρ → Bool) :
    t.any p = true ↔ ∃ k r, t.get k = some r ∧ p k r = true := by
  simp only [any, List.any_eq_true, Prod.exists]
  simp only [mem_rows_iff]

@[simp] theorem get_empty (k : κ) : (empty : Table κ ρ).get k = none := rfl

theorem look_map (f : κ → ρ → ρ) (k : κ) (l : List (κ × ρ)) :
    look k (l.map (fun kr => (kr.1, f kr.1 kr.2))) = (look k l).map (f k) := by
  induction l with
  | nil => rfl
  | cons kr rest ih =>
    simp only [List.map_cons, look]
    split
    · rename_i h
      subst h
      rfl
    · exact ih

@[simp] theorem get_mapRows (t : Table κ ρ) (f : κ → ρ → ρ) (k : κ) :
    (t.mapRows f).get k = (t.get k).map (f k) := look_map f k t.rows

theorem get_keep (t : Table κ ρ) (p : κ → ρ → Bool) (k : κ) :
    (t.keep p).get k = (t.get k).filter (p k) := by
  apply Option.ext
  intro r
  rw [Option.filter_eq_some_iff, ← mem_rows_iff, ← mem_rows_iff]
  simp [keep, List.mem_filter]

/-- `INSERT … ON CONFLICT DO NOTHING`. -/
def add (t : Table κ ρ) (k : κ) (r : ρ) : Table κ ρ :=
  if h : t.get k = none then
    { rows := t.rows ++ [(k, r)]
      nodup := by
        rw [List.map_append, List.nodup_append]
        refine ⟨t.nodup, by simp, ?_⟩
        intro a ha b hb hab
        simp only [List.map_cons, List.map_nil, List.mem_singleton] at hb
        subst hab
        subst hb
        exact (look_eq_none_iff _ _).mp h ha }
  else t

theorem get_add (t : Table κ ρ) (k : κ) (r : ρ) (j : κ) :
    (t.add k r).get j = if j = k then some ((t.get k).getD r) else t.get j := by
  unfold add
  split
  · rename_i h
    simp only [get] at h ⊢
    rw [look_append]
    by_cases hj : j = k
    · subst hj
      simp [h, look]
    · simp [look, hj, Ne.symm hj]
  · rename_i h
    split
    · rename_i hj
      subst hj
      obtain ⟨r', hr⟩ := Option.ne_none_iff_exists'.mp h
      simp [hr]
    · rfl

/-- `INSERT … ON CONFLICT DO UPDATE`: `fresh` when the key has no row, else `old` of its row. -/
def upsert (t : Table κ ρ) (k : κ) (fresh : ρ) (old : ρ → ρ) : Table κ ρ :=
  match t.get k with
  | none => t.add k fresh
  | some _ => t.mapRows (fun j r => if j = k then old r else r)

@[simp] theorem get_upsert (t : Table κ ρ) (k : κ) (fresh : ρ) (old : ρ → ρ) (j : κ) :
    (t.upsert k fresh old).get j = if j = k then some ((t.get k).elim fresh old) else t.get j := by
  unfold upsert
  split
  · rename_i h
    rw [get_add, h]
    rfl
  · rename_i r h
    rw [get_mapRows, h]
    split
    · rename_i hj
      subst hj
      simp [h]
    · simp

/-- Insert a list of rows one after another, each unless its key is taken. -/
def addAll (t : Table κ ρ) (l : List (κ × ρ)) : Table κ ρ :=
  l.foldl (fun t kr => t.add kr.1 kr.2) t

theorem get_addAll (t : Table κ ρ) (l : List (κ × ρ)) (j : κ) :
    (t.addAll l).get j = (t.get j).or (look j l) := by
  induction l generalizing t with
  | nil => simp [addAll, look]
  | cons kr rest ih =>
    have hstep : t.addAll (kr :: rest) = (t.add kr.1 kr.2).addAll rest := rfl
    rw [hstep, ih, get_add]
    by_cases hj : j = kr.1
    · subst hj
      cases h : t.get kr.1 <;> simp [look]
    · simp [look, hj, Ne.symm hj]

end Table

/-! ## Keys from a sequence -/

/-- A table keyed by a sequence: every key in use is below the next number. -/
structure Serial (ρ : Type) where
  table : Table Nat ρ
  next : Nat
  below : ∀ k r, table.get k = some r → k < next

namespace Serial

variable {ρ : Type}

def empty : Serial ρ := ⟨Table.empty, 1, by simp⟩

instance : Inhabited (Serial ρ) := ⟨empty⟩

def get (t : Serial ρ) (k : Nat) : Option ρ := t.table.get k

def select (t : Serial ρ) (p : Nat → ρ → Bool) : List (Nat × ρ) := t.table.select p

def any (t : Serial ρ) (p : Nat → ρ → Bool) : Bool := t.table.any p

/-- An insert that finds a conflict still takes a number from the sequence. -/
def skip (t : Serial ρ) : Serial ρ where
  table := t.table
  next := t.next + 1
  below := fun k r h => Nat.lt_succ_of_lt (t.below k r h)

def insert (t : Serial ρ) (r : ρ) : Serial ρ where
  table := t.table.add t.next r
  next := t.next + 1
  below := by
    intro k r' h
    rw [Table.get_add] at h
    split at h
    · omega
    · exact Nat.lt_succ_of_lt (t.below k r' h)

def mapRows (t : Serial ρ) (f : Nat → ρ → ρ) : Serial ρ where
  table := t.table.mapRows f
  next := t.next
  below := by
    intro k r h
    rw [Table.get_mapRows, Option.map_eq_some_iff] at h
    obtain ⟨r', hr, _⟩ := h
    exact t.below k r' hr

/-- `DELETE … WHERE NOT keep`. -/
def keep (t : Serial ρ) (p : Nat → ρ → Bool) : Serial ρ where
  table := t.table.keep p
  next := t.next
  below := by
    intro k r h
    rw [Table.get_keep, Option.filter_eq_some_iff] at h
    exact t.below k r h.1

@[simp] theorem get_next (t : Serial ρ) : t.get t.next = none := by
  unfold get
  cases h : t.table.get t.next with
  | none => rfl
  | some r => exact absurd (t.below _ r h) (lt_irrefl _)

@[simp] theorem get_skip (t : Serial ρ) (k : Nat) : t.skip.get k = t.get k := rfl

@[simp] theorem get_mapRows (t : Serial ρ) (f : Nat → ρ → ρ) (k : Nat) :
    (t.mapRows f).get k = (t.get k).map (f k) := Table.get_mapRows _ _ _

theorem get_insert (t : Serial ρ) (r : ρ) (k : Nat) :
    (t.insert r).get k = if k = t.next then some r else t.get k := by
  have h : t.table.get t.next = none := get_next t
  unfold get insert
  rw [Table.get_add, h]
  rfl

theorem mem_select (t : Serial ρ) (p : Nat → ρ → Bool) (k : Nat) (r : ρ) :
    (k, r) ∈ t.select p ↔ t.get k = some r ∧ p k r = true := Table.mem_select _ _ _ _

theorem select_nodup (t : Serial ρ) (p : Nat → ρ → Bool) :
    ((t.select p).map Prod.fst).Nodup := Table.select_nodup _ _

end Serial

end keyed
