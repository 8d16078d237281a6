-- Runs of a system that takes one step after another, with a condition on every step; and what a
-- mark says of a state when every change takes the mark away.
import Mathlib.Data.List.Basic
import Mathlib.Data.List.Induction

namespace trace

variable {S : Type*} {E : Type*} (step : S → E → S)

/-- The state after some events. -/
def run (s : S) (events : List E) : S := events.foldl step s

/-- The state before the first event, and that after each. -/
def states (s : S) : List E → List S
  | [] => [s]
  | e :: rest => s :: states (step s e) rest

/-- Every event meets the condition in the state that it finds. -/
def Along (ok : S → E → Prop) (s : S) : List E → Prop
  | [] => True
  | e :: rest => ok s e ∧ Along ok (step s e) rest

instance decidableAlong (ok : S → E → Prop) [∀ s e, Decidable (ok s e)] :
    ∀ (s : S) (events : List E), Decidable (Along step ok s events)
  | _, [] => inferInstanceAs (Decidable True)
  | s, e :: rest =>
    have := decidableAlong ok (step s e) rest
    inferInstanceAs (Decidable (ok s e ∧ Along step ok (step s e) rest))

variable {step}

theorem head_mem_states (s : S) (events : List E) : s ∈ states step s events := by
  cases events <;> simp [states]

@[simp] theorem run_nil (s : S) : run step s [] = s := rfl

@[simp] theorem run_cons (s : S) (e : E) (rest : List E) :
    run step s (e :: rest) = run step (step s e) rest := rfl

theorem run_mem_states (s : S) (events : List E) : run step s events ∈ states step s events := by
  induction events generalizing s with
  | nil => exact List.mem_singleton_self _
  | cons e rest ih => exact List.mem_cons_of_mem _ (ih (step s e))

theorem run_append (s : S) (events later : List E) :
    run step s (events ++ later) = run step (run step s events) later :=
  List.foldl_append

variable {ok : S → E → Prop} {events : List E}

theorem along_append {s : S} {later : List E} :
    Along step ok s (events ++ later) ↔
      Along step ok s events ∧ Along step ok (run step s events) later := by
  induction events generalizing s with
  | nil => exact ⟨fun h => ⟨trivial, h⟩, fun h => h.2⟩
  | cons e rest ih =>
    constructor
    · rintro ⟨hok, hrest⟩
      exact ⟨⟨hok, (ih.mp hrest).1⟩, (ih.mp hrest).2⟩
    · rintro ⟨⟨hok, hrest⟩, hlater⟩
      exact ⟨hok, ih.mpr ⟨hrest, hlater⟩⟩

/-- What every step keeps, every run keeps. -/
theorem run_keeps {inv : S → Prop} (hstep : ∀ s e, inv s → inv (step s e)) {s : S}
    (h : inv s) (events : List E) : inv (run step s events) := by
  induction events generalizing s with
  | nil => exact h
  | cons e rest ih => exact ih (hstep s e h)

/-- What every step keeps that meets the condition, every run of such steps keeps. -/
theorem along_keeps {inv : S → Prop} (hstep : ∀ s e, inv s → ok s e → inv (step s e)) {s : S}
    (h : inv s) (hok : Along step ok s events) : inv (run step s events) := by
  induction events generalizing s with
  | nil => exact h
  | cons e rest ih => exact ih (hstep s e h hok.1) hok.2

/-- The condition along a run, with what holds of each of its events. -/
theorem along_mem {s : S} (h : Along step ok s events) :
    Along step (fun s e => ok s e ∧ e ∈ events) s events := by
  have hall : ∀ (l : List E) (s : S), Along step ok s l → l ⊆ events →
      Along step (fun s e => ok s e ∧ e ∈ events) s l := by
    intro l
    induction l with
    | nil => exact fun _ _ _ => trivial
    | cons e rest ih =>
      intro s hl hsub
      exact ⟨⟨hl.1, hsub (List.mem_cons_self ..)⟩,
        ih _ hl.2 fun x hx => hsub (List.mem_cons_of_mem _ hx)⟩
  exact hall events s h (fun _ hx => hx)

/-- What every step keeps that meets the condition holds in every state of such a run. -/
theorem along_all {inv : S → Prop} (hstep : ∀ s e, inv s → ok s e → inv (step s e)) {s : S}
    (h : inv s) (hok : Along step ok s events) : ∀ s' ∈ states step s events, inv s' := by
  induction events generalizing s with
  | nil =>
    intro s' hs'
    rw [states, List.mem_singleton] at hs'
    exact hs' ▸ h
  | cons e rest ih =>
    intro s' hs'
    rcases List.mem_cons.mp hs' with rfl | hs'
    · exact h
    · exact ih (hstep s e h hok.1) hok.2 s' hs'

/-- Once gone, a mark that no step brings back stays away. -/
theorem unmarked_stays {inv marked : S → Prop} (hinv : ∀ s e, inv s → inv (step s e))
    (hback : ∀ s e, inv s → ok s e → ¬ marked s → ¬ marked (step s e)) {s : S} (hs : inv s)
    (hok : Along step ok s events) (hm : ¬ marked s) :
    ¬ marked (run step s events) := by
  induction events generalizing s with
  | nil => exact hm
  | cons e rest ih => exact ih (hinv s e hs) hok.2 (hback s e hs hok.1 hm)

/-- A run that ends with the mark has had it all along, and has been the same, when a step keeps
it the same or takes the mark away, and none brings the mark back. -/
theorem same_while_marked (inv marked same : S → Prop) (hinv : ∀ s e, inv s → inv (step s e))
    (hkeep : ∀ s e, inv s → ok s e → marked s → same s →
      same (step s e) ∨ ¬ marked (step s e))
    (hback : ∀ s e, inv s → ok s e → ¬ marked s → ¬ marked (step s e)) {s : S} (hs : inv s)
    (hok : Along step ok s events) (hsame : same s) (hend : marked (run step s events)) :
    ∀ s' ∈ states step s events, same s' ∧ marked s' := by
  induction events generalizing s with
  | nil =>
    intro s' hs'
    rw [states, List.mem_singleton] at hs'
    exact hs' ▸ ⟨hsame, hend⟩
  | cons e rest ih =>
    have hmarked : marked s := by
      by_contra hm
      exact unmarked_stays hinv hback hs hok hm hend
    intro s' hs'
    rcases List.mem_cons.mp hs' with rfl | hs'
    · exact ⟨hsame, hmarked⟩
    · rcases hkeep s e hs hok.1 hmarked hsame with hnext | hgone
      · exact ih (hinv s e hs) hok.2 hnext hend s' hs'
      · have haway : ¬ marked (run step (step s e) rest) :=
          unmarked_stays hinv hback (hinv s e hs) hok.2 hgone
        exact absurd hend haway

/-- What only some steps bring about and some take away holds after a run exactly where a step of
it brought it about and none since took it away. -/
theorem held_iff (step : S → E → S) (holds : S → Prop) {sets : S → E → Prop} {unsets : E → Prop}
    (hstep : ∀ s e, holds (step s e) ↔ (holds s ∧ ¬ unsets e) ∨ sets s e) {s : S}
    (hstart : ¬ holds s) (events : List E) :
    holds (run step s events) ↔
      ∃ earlier e later, events = earlier ++ e :: later ∧ sets (run step s earlier) e ∧
        ∀ e' ∈ later, ¬ unsets e' := by
  induction events using List.reverseRecOn with
  | nil =>
    constructor
    · intro h
      exact absurd h hstart
    · rintro ⟨earlier, e, later, heq, -⟩
      simp at heq
  | append_singleton events last ih =>
    rw [run_append, run_cons, run_nil, hstep, ih]
    constructor
    · rintro (⟨⟨earlier, e, later, rfl, hset, hkept⟩, hlast⟩ | hset)
      · refine ⟨earlier, e, later ++ [last], by simp, hset, ?_⟩
        intro e' he'
        rcases List.mem_append.mp he' with he' | he'
        · exact hkept e' he'
        · rwa [List.mem_singleton.mp he']
      · exact ⟨events, last, [], rfl, hset, by simp⟩
    · rintro ⟨earlier, e, later, heq, hset, hkept⟩
      rcases List.eq_nil_or_concat later with rfl | ⟨later, last', rfl⟩
      · obtain ⟨rfl, hlast⟩ := List.append_inj' heq rfl
        obtain rfl := List.singleton_inj.mp hlast
        exact Or.inr hset
      · have hsplit : events ++ [last] = (earlier ++ e :: later) ++ [last'] := by simpa using heq
        obtain ⟨rfl, hlast⟩ := List.append_inj' hsplit rfl
        obtain rfl := List.singleton_inj.mp hlast
        refine Or.inl ⟨⟨earlier, e, later, rfl, hset, ?_⟩, hkept _ (by simp)⟩
        intro e' he'
        exact hkept e' (by simp [he'])

end trace
