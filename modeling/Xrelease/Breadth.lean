-- A search through a graph, breadth first: a queue, the nodes that were seen, which a search may
-- share with an earlier one, and a mark for every edge that was followed.
import Mathlib.Data.List.Induction
import Mathlib.Logic.Relation
import Mathlib.Tactic.Tauto

namespace breadth

/-! ## The search -/

section
variable {α : Type} [DecidableEq α]

/-- A set in the order of insertion. -/
def add (x : α) (l : List α) : List α := if x ∈ l then l else l ++ [x]

@[simp] theorem mem_add {x y : α} {l : List α} : y ∈ add x l ↔ y ∈ l ∨ y = x := by
  unfold add
  split
  · rename_i hx
    constructor
    · exact Or.inl
    · rintro (h | rfl)
      · exact h
      · exact hx
  · simp

end

structure Search (V L : Type) where
  queue : List V
  seen : List V
  marks : List L
deriving DecidableEq

variable {V E L : Type} [DecidableEq V] [DecidableEq L]
variable (edges : List E) (tail head : E → V) (label : E → L)

/-- An edge of the current node is marked, and its other end is queued unless it was seen. -/
def follow (current : V) (s : Search V L) (e : E) : Search V L :=
  if tail e ≠ current ∨ head e ∈ s.seen then
    if tail e = current then { s with marks := add (label e) s.marks } else s
  else ⟨s.queue ++ [head e], add (head e) s.seen, add (label e) s.marks⟩

def expand (current : V) (s : Search V L) : Search V L :=
  edges.foldl (follow tail head label current) s

/-- None when the fuel runs out. -/
def search : Nat → Search V L → Option (Search V L)
  | 0, _ => none
  | fuel + 1, s =>
    match s.queue with
    | [] => some s
    | current :: queue => search fuel (expand edges tail head label current { s with queue })

/-! ## It ends -/

variable {edges tail head label}

/-- What is queued, and what may still be. -/
def room (edges : List E) (head : E → V) (s : Search V L) : Nat :=
  s.queue.length + edges.countP (fun e => head e ∉ s.seen)

theorem room_follow (current : V) (s : Search V L) {e : E} (he : e ∈ edges) :
    room edges head (follow tail head label current s e) ≤ room edges head s := by
  unfold follow
  split
  · split <;> exact Nat.le_refl _
  · rename_i hnew
    rw [not_or] at hnew
    obtain ⟨before, after, rfl⟩ := List.append_of_mem he
    have hless : ∀ l : List E, l.countP (fun e' => head e' ∉ add (head e) s.seen) ≤
        l.countP (fun e' => head e' ∉ s.seen) := by
      intro l
      apply List.countP_mono_left
      intro e' _ hout
      simp only [mem_add, not_or, decide_eq_true_eq] at hout ⊢
      exact hout.1
    have hbefore := hless before
    have hafter := hless after
    have hin : decide (head e ∉ add (head e) s.seen) = false := by simp
    have hout : decide (head e ∉ s.seen) = true := decide_eq_true hnew.2
    unfold room
    simp only [List.length_append, List.length_singleton, List.countP_append, List.countP_cons,
      hin, hout, if_true, Bool.false_eq_true, if_false]
    omega

theorem room_expand (current : V) (s : Search V L) :
    room edges head (expand edges tail head label current s) ≤ room edges head s := by
  have hall : ∀ (l : List E) (s : Search V L), (∀ e ∈ l, e ∈ edges) →
      room edges head (l.foldl (follow tail head label current) s) ≤ room edges head s := by
    intro l
    induction l with
    | nil => exact fun _ _ => Nat.le_refl _
    | cons e rest ih =>
      intro s hl
      exact Nat.le_trans (ih _ fun e' he' => hl e' (List.mem_cons_of_mem _ he'))
        (room_follow current s (hl e (List.mem_cons_self ..)))
  exact hall edges s fun _ h => h

theorem search_of_room {fuel : Nat} {s : Search V L} (h : room edges head s < fuel) :
    ∃ found, search edges tail head label fuel s = some found := by
  induction fuel generalizing s with
  | zero => omega
  | succ fuel ih =>
    unfold search
    split
    · exact ⟨s, rfl⟩
    · rename_i current queue hqueue
      apply ih
      have hpop : room edges head { s with queue } + 1 = room edges head s := by
        simp only [room, hqueue, List.length_cons]
        omega
      have hexpand := @room_expand _ _ _ _ _ edges tail head label current { s with queue }
      omega

/-- A turn for every edge, and one for each node in the queue, are enough. -/
theorem search_ends {fuel : Nat} {s : Search V L} (h : edges.length + s.queue.length < fuel) :
    ∃ found, search edges tail head label fuel s = some found := by
  apply search_of_room
  have hcount : edges.countP (fun e => head e ∉ s.seen) ≤ edges.length := List.countP_le_length
  unfold room
  omega

/-- More fuel finds the same. -/
theorem search_mono {fuel : Nat} {s found : Search V L}
    (h : search edges tail head label fuel s = some found) {more : Nat} (hle : fuel ≤ more) :
    search edges tail head label more s = some found := by
  induction fuel generalizing s more with
  | zero => simp [search] at h
  | succ fuel ih =>
    obtain ⟨more, rfl⟩ : ∃ k, more = k + 1 := ⟨more - 1, by omega⟩
    unfold search at h ⊢
    split at h
    · exact h
    · exact ih h (by omega)

/-! ## What it finds -/

/-- The nodes that one turn adds are those at the other ends of the node's edges that were not seen;
it marks the node's edges. -/
structure Expanded (edges : List E) (tail head : E → V) (label : E → L) (current : V)
    (s s' : Search V L) : Prop where
  added : ∃ new, s'.queue = s.queue ++ new ∧ (∀ v, v ∈ s'.seen ↔ v ∈ s.seen ∨ v ∈ new) ∧
    ∀ v ∈ new, v ∉ s.seen ∧ ∃ e ∈ edges, tail e = current ∧ head e = v
  covered : ∀ e ∈ edges, tail e = current → head e ∈ s'.seen
  marked : ∀ l, l ∈ s'.marks ↔ l ∈ s.marks ∨ ∃ e ∈ edges, tail e = current ∧ label e = l

theorem expanded_snoc {current : V} {s s' : Search V L} {e : E}
    (h : Expanded edges tail head label current s s') :
    Expanded (edges ++ [e]) tail head label current s (follow tail head label current s' e) := by
  obtain ⟨⟨new, hqueue, hseen, hnew⟩, hcovered, hmarked⟩ := h
  have hkeep : ∀ v ∈ new, v ∉ s.seen ∧ ∃ e' ∈ edges ++ [e], tail e' = current ∧ head e' = v := by
    intro v hv
    obtain ⟨hout, e', he', hends⟩ := hnew v hv
    exact ⟨hout, e', List.mem_append_left _ he', hends⟩
  have hends : ∀ l, (∃ e' ∈ edges ++ [e], tail e' = current ∧ label e' = l) ↔
      (∃ e' ∈ edges, tail e' = current ∧ label e' = l) ∨ tail e = current ∧ label e = l := by
    intro l
    simp only [List.mem_append, List.mem_singleton, or_and_right, exists_or, exists_eq_left]
  have hadd : tail e = current → ∀ l, l ∈ add (label e) s'.marks ↔
      l ∈ s.marks ∨ ∃ e' ∈ edges ++ [e], tail e' = current ∧ label e' = l := by
    intro htail l
    rw [mem_add, hmarked, hends, or_assoc, and_iff_right htail, @eq_comm _ l]
  unfold follow
  split
  · rename_i hold
    split
    · rename_i htail
      have hin : head e ∈ s'.seen := hold.resolve_left (fun hne => hne htail)
      refine ⟨⟨new, hqueue, hseen, hkeep⟩, ?_, hadd htail⟩
      exact List.forall_mem_append.mpr ⟨hcovered, by simpa using fun _ => hin⟩
    · rename_i htail
      refine ⟨⟨new, hqueue, hseen, hkeep⟩, ?_, fun l => ?_⟩
      · exact List.forall_mem_append.mpr ⟨hcovered, by simp [htail]⟩
      · rw [hmarked, hends]
        simp only [htail, false_and, or_false]
  · rename_i hfresh
    rw [not_or, not_not] at hfresh
    obtain ⟨htail, hout⟩ := hfresh
    refine ⟨⟨new ++ [head e], by simp [hqueue], fun v => ?_, ?_⟩, ?_, hadd htail⟩
    · simp only [mem_add, hseen, List.mem_append, List.mem_singleton]
      rw [or_assoc]
    · refine List.forall_mem_append.mpr ⟨hkeep, List.forall_mem_singleton.mpr ⟨?_, ?_⟩⟩
      · exact fun h => hout ((hseen _).mpr (Or.inl h))
      · exact ⟨e, by simp, htail, rfl⟩
    · exact List.forall_mem_append.mpr
        ⟨fun e' he' h => mem_add.mpr (Or.inl (hcovered e' he' h)), by simp⟩

theorem expanded_expand (edges : List E) (current : V) (s : Search V L) :
    Expanded edges tail head label current s (expand edges tail head label current s) := by
  induction edges using List.reverseRecOn with
  | nil => exact ⟨⟨[], by simp [expand], by simp [expand], by simp⟩, by simp, by simp [expand]⟩
  | append_singleton edges e ih =>
    unfold expand at ih ⊢
    rw [List.foldl_append]
    exact expanded_snoc ih

/-- A step along an edge to a node that was not seen when the search began. -/
def Step (edges : List E) (tail head : E → V) (seen : List V) (u v : V) : Prop :=
  v ∉ seen ∧ ∃ e ∈ edges, tail e = u ∧ head e = v

/-- The search from `start`, the nodes of `done` being expanded. -/
structure Holds (edges : List E) (tail head : E → V) (label : E → L) (start : V) (seen : List V)
    (marks : List L) (done : List V) (s : Search V L) : Prop where
  begun : start ∈ done ∨ start ∈ s.queue
  seen_iff : ∀ v, v ∈ s.seen ↔ v ∈ seen ∨ v ∈ done ∨ v ∈ s.queue
  reached : ∀ v, v ∈ done ∨ v ∈ s.queue →
    Relation.ReflTransGen (Step edges tail head seen) start v
  closed : ∀ e ∈ edges, tail e ∈ done → head e ∈ s.seen
  marks_iff : ∀ l, l ∈ s.marks ↔ l ∈ marks ∨ ∃ e ∈ edges, tail e ∈ done ∧ label e = l

theorem holds_expand {start current : V} {seen done queue : List V} {marks : List L}
    {s : Search V L} (hqueue : s.queue = current :: queue)
    (h : Holds edges tail head label start seen marks done s) :
    Holds edges tail head label start seen marks (current :: done)
      (expand edges tail head label current { s with queue }) := by
  obtain ⟨hbegun, hseen, hreached, hclosed, hmarks⟩ := h
  obtain ⟨⟨new, hnewqueue, hnewseen, hnew⟩, hcovered, hmarked⟩ :=
    @expanded_expand _ _ _ _ _ tail head label edges current { s with queue }
  have hcurrent : Relation.ReflTransGen (Step edges tail head seen) start current :=
    hreached current (Or.inr (by simp [hqueue]))
  generalize expand edges tail head label current { s with queue } = s' at *
  refine ⟨?_, ?_, ?_, ?_, ?_⟩
  · rw [hnewqueue]
    rcases hbegun with h | h
    · exact Or.inl (List.mem_cons_of_mem _ h)
    · rw [hqueue] at h
      rcases List.mem_cons.mp h with rfl | h
      · exact Or.inl (List.mem_cons_self ..)
      · exact Or.inr (List.mem_append_left _ h)
  · intro v
    rw [hnewseen, hseen, hqueue, hnewqueue]
    simp only [List.mem_cons, List.mem_append]
    tauto
  · intro v hv
    rw [hnewqueue] at hv
    rcases hv with hv | hv
    · rcases List.mem_cons.mp hv with rfl | hv
      · exact hcurrent
      · exact hreached v (Or.inl hv)
    · rcases List.mem_append.mp hv with hv | hv
      · exact hreached v (Or.inr (by rw [hqueue]; exact List.mem_cons_of_mem _ hv))
      · obtain ⟨hout, e, he, htail, hhead⟩ := hnew v hv
        exact hcurrent.tail ⟨fun hin => hout ((hseen v).mpr (Or.inl hin)), e, he, htail, hhead⟩
  · intro e he hdone
    rcases List.mem_cons.mp hdone with htail | hdone
    · exact hcovered e he htail
    · exact (hnewseen _).mpr (Or.inl (hclosed e he hdone))
  · intro l
    rw [hmarked, hmarks]
    simp only [List.mem_cons]
    constructor
    · rintro ((hl | ⟨e, he, hdone, hlabel⟩) | ⟨e, he, htail, hlabel⟩)
      · exact Or.inl hl
      · exact Or.inr ⟨e, he, Or.inr hdone, hlabel⟩
      · exact Or.inr ⟨e, he, Or.inl htail, hlabel⟩
    · rintro (hl | ⟨e, he, htail | hdone, hlabel⟩)
      · exact Or.inl (Or.inl hl)
      · exact Or.inr ⟨e, he, htail, hlabel⟩
      · exact Or.inl (Or.inr ⟨e, he, hdone, hlabel⟩)

theorem holds_search {start : V} {seen done : List V} {marks : List L} {fuel : Nat}
    {s found : Search V L} (h : Holds edges tail head label start seen marks done s)
    (hfound : search edges tail head label fuel s = some found) :
    found.queue = [] ∧ ∃ done', Holds edges tail head label start seen marks done' found := by
  induction fuel generalizing s done with
  | zero => simp [search] at hfound
  | succ fuel ih =>
    unfold search at hfound
    split at hfound
    · rename_i hqueue
      obtain rfl := Option.some.inj hfound
      exact ⟨hqueue, done, h⟩
    · rename_i current queue hqueue
      exact ih (holds_expand hqueue h) hfound

/-- A search that starts at a seen node sees what can be reached by nodes that were not seen, and
marks the edges that go out from there. -/
theorem search_finds {start : V} {seen : List V} {marks : List L} {fuel : Nat}
    {found : Search V L} (hstart : start ∈ seen)
    (hfound : search edges tail head label fuel ⟨[start], seen, marks⟩ = some found) :
    (∀ v, v ∈ found.seen ↔
      v ∈ seen ∨ Relation.ReflTransGen (Step edges tail head seen) start v) ∧
    ∀ l, l ∈ found.marks ↔ l ∈ marks ∨ ∃ e ∈ edges,
      Relation.ReflTransGen (Step edges tail head seen) start (tail e) ∧ label e = l := by
  have hbegin : Holds edges tail head label start seen marks []
      ⟨[start], seen, marks⟩ := by
    refine ⟨by simp, ?_, ?_, by simp, by simp⟩
    · intro v
      simp only [List.not_mem_nil, false_or, List.mem_singleton]
      constructor
      · exact Or.inl
      · rintro (hv | rfl)
        · exact hv
        · exact hstart
    · rintro v (hv | hv)
      · exact absurd hv List.not_mem_nil
      · rw [List.mem_singleton.mp hv]
  obtain ⟨hqueue, done, hbegun, hseen, hreached, hclosed, hmarks⟩ := holds_search hbegin hfound
  have hdone : ∀ v, v ∈ done ↔ Relation.ReflTransGen (Step edges tail head seen) start v := by
    intro v
    constructor
    · exact fun hv => hreached v (Or.inl hv)
    · intro hv
      induction hv with
      | refl => exact hbegun.resolve_right (by simp [hqueue])
      | tail _ hstep ih =>
        obtain ⟨hout, e, he, htail, hhead⟩ := hstep
        have hin := (hseen _).mp (hclosed e he (htail ▸ ih))
        rw [hhead, hqueue] at hin
        rcases hin with hin | hin | hin
        · exact absurd hin hout
        · exact hin
        · exact absurd hin List.not_mem_nil
  constructor
  · intro v
    rw [hseen, hqueue, ← hdone]
    simp
  · intro l
    rw [hmarks]
    simp only [hdone]

omit [DecidableEq V] in
/-- A node without edges reaches itself. -/
theorem reached_alone {start v : V} {seen : List V} (h : ∀ e ∈ edges, tail e ≠ start) :
    Relation.ReflTransGen (Step edges tail head seen) start v ↔ v = start := by
  constructor
  · intro hv
    rcases Relation.ReflTransGen.cases_head hv with heq | ⟨u, ⟨-, e, he, htail, -⟩, -⟩
    · exact heq.symm
    · exact absurd htail (h e he)
  · rintro rfl
    exact .refl

end breadth
