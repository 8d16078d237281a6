-- Programs that keep to a protocol: a ghost state, told by each call and its answer, says which
-- calls may come next. A program that follows its protocol follows it in every pool, whatever
-- the other workers and the world outside do.
import Xrelease.Calls

namespace calls

/-- Which calls a ghost state permits, and the ghost state after a call and its answer. -/
structure Protocol (F : Type → Type) (ε G : Type) where
  may : {β : Type} → G → F β → Prop
  after : {β : Type} → G → F β → Except ε β → G

namespace Prog

variable {F : Type → Type} {ε G α β : Type} {P : Protocol F ε G}

/-- From the ghost state, every call of the program is permitted, and it ends in `Q`. -/
def Follows (P : Protocol F ε G) (Q : G → Except ε α → Prop) : Prog F ε α → G → Prop
  | done a, g => Q g (.ok a)
  | fail e, g => Q g (.error e)
  | call op next, g => P.may g op ∧ ∀ r, Follows P Q (next r) (P.after g op r)

theorem follows_mono {Q Q' : G → Except ε α → Prop} {p : Prog F ε α} {g : G}
    (h : p.Follows P Q g) (hq : ∀ g r, Q g r → Q' g r) : p.Follows P Q' g := by
  induction p generalizing g with
  | done a => exact hq _ _ h
  | fail e => exact hq _ _ h
  | call op next ih => exact ⟨h.1, fun r => ih r (h.2 r)⟩

theorem follows_bind {Q : G → Except ε β → Prop} {p : Prog F ε α} {f : α → Prog F ε β} {g : G}
    (h : p.Follows P (fun g r => match r with
      | .ok a => (f a).Follows P Q g
      | .error e => Q g (.error e)) g) : (p.bind f).Follows P Q g := by
  induction p generalizing g with
  | done a => exact h
  | fail e => exact h
  | call op next ih => exact ⟨h.1, fun r => ih r (h.2 r)⟩

theorem follows_caught {Q : G → Except ε (Except ε α) → Prop} {p : Prog F ε α} {g : G}
    (h : p.Follows P (fun g r => Q g (.ok r)) g) : p.caught.Follows P Q g := by
  induction p generalizing g with
  | done a => exact h
  | fail e => exact h
  | call op next ih => exact ⟨h.1, fun r => ih r (h.2 r)⟩

theorem follows_perform {Q : G → Except ε α → Prop} {op : F α} {g : G} (hm : P.may g op)
    (hq : ∀ r, Q (P.after g op r) r) : (perform op : Prog F ε α).Follows P Q g := by
  refine ⟨hm, ?_⟩
  intro r
  cases r with
  | ok a => exact hq (.ok a)
  | error e => exact hq (.error e)

/-- Where every call is permitted and keeps `I`, any program ends in it. -/
theorem follows_all {I : G → Prop} {p : Prog F ε α} {g : G}
    (hmay : ∀ {γ : Type} (g : G) (op : F γ), I g → P.may g op)
    (hafter : ∀ {γ : Type} (g : G) (op : F γ) r, I g → I (P.after g op r)) (h : I g) :
    p.Follows P (fun g' _ => I g') g := by
  induction p generalizing g with
  | done a => exact h
  | fail e => exact h
  | call op next ih => exact ⟨hmay g op h, fun r => ih r (hafter g op r h)⟩

/-- A program none of whose calls matters to the protocol. -/
theorem follows_of_never {bad : {γ : Type} → F γ → Prop} {p : Prog F ε α} {g : G}
    (hp : p.Never bad) (hmay : ∀ {γ : Type} (op : F γ), ¬ bad op → P.may g op)
    (hafter : ∀ {γ : Type} (op : F γ) r, ¬ bad op → P.after g op r = g) :
    p.Follows P (fun g' _ => g' = g) g := by
  induction p with
  | done a => rfl
  | fail e => rfl
  | call op next ih =>
    refine ⟨hmay op hp.1, ?_⟩
    intro r
    rw [hafter op r hp.1]
    exact ih r (hp.2 r)

end Prog

/-! ## In a pool -/

variable {F : Type → Type} {ε S O E G : Type}

/-- A pool with the ghost state of each worker beside it. -/
structure Observed (F : Type → Type) (ε S G : Type) : Type 1 where
  pool : Pool F ε S
  ghost : Nat → G

namespace Observed

/-- A step of the pool; the ghost state of a worker that makes a call moves along. A worker that
vanishes keeps its last one. -/
def step (P : Protocol F ε G) (M : Machine F ε S O E) (p : Observed F ε S G) (m : Move O E) :
    Observed F ε S G where
  pool := p.pool.step M m
  ghost := fun v =>
    match m with
    | .work w o =>
      match p.pool.worker w with
      | .call op _ =>
        if v = w then P.after (p.ghost w) op (M.exec w op o p.pool.state).1 else p.ghost v
      | .done _ => p.ghost v
      | .fail _ => p.ghost v
    | .crash _ => p.ghost v
    | .outside _ => p.ghost v

def run (P : Protocol F ε G) (M : Machine F ε S O E) (p : Observed F ε S G)
    (moves : List (Move O E)) : Observed F ε S G := moves.foldl (step P M) p

@[simp] theorem run_nil (P : Protocol F ε G) (M : Machine F ε S O E) (p : Observed F ε S G) :
    p.run P M [] = p := rfl

@[simp] theorem run_cons (P : Protocol F ε G) (M : Machine F ε S O E) (p : Observed F ε S G)
    (m : Move O E) (ms : List (Move O E)) : p.run P M (m :: ms) = (p.step P M m).run P M ms := rfl

theorem run_append (P : Protocol F ε G) (M : Machine F ε S O E) (p : Observed F ε S G)
    (ms ns : List (Move O E)) : p.run P M (ms ++ ns) = (p.run P M ms).run P M ns :=
  List.foldl_append ..

/-- Watching a run does not change it. -/
theorem pool_run (P : Protocol F ε G) (M : Machine F ε S O E) (p : Observed F ε S G)
    (moves : List (Move O E)) : (p.run P M moves).pool = p.pool.run M moves := by
  induction moves generalizing p with
  | nil => rfl
  | cons m ms ih => exact ih (p.step P M m)

/-- Every worker keeps to the protocol from where it stands, and ends in `Q`. -/
def Keeps (P : Protocol F ε G) (Q : G → Prop) (p : Observed F ε S G) : Prop :=
  ∀ w, (p.pool.worker w).Follows P (fun g _ => Q g) (p.ghost w)

variable {P : Protocol F ε G} {Q : G → Prop} {M : Machine F ε S O E} {p : Observed F ε S G}

theorem ghost_call {w : Nat} {β : Type} {op : F β} {next : Except ε β → Prog F ε Unit} (o : O)
    (hw : p.pool.worker w = .call op next) (v : Nat) :
    (p.step P M (.work w o)).ghost v =
      if v = w then P.after (p.ghost w) op (M.exec w op o p.pool.state).1 else p.ghost v := by
  simp only [step, hw]

/-- A worker that makes no move keeps its ghost state. -/
theorem ghost_still {w : Nat} {moves : List (Move O E)} (h : ∀ o, Move.work w o ∉ moves) :
    (p.run P M moves).ghost w = p.ghost w := by
  induction moves generalizing p with
  | nil => rfl
  | cons m ms ih =>
    refine (ih (fun o ho => h o (List.mem_cons_of_mem _ ho))).trans ?_
    cases m with
    | work v o =>
      cases hv : p.pool.worker v with
      | call op next =>
        rw [ghost_call o hv, if_neg]
        rintro rfl
        exact h o List.mem_cons_self
      | done a => simp only [step, hv]
      | fail e => simp only [step, hv]
    | crash v => rfl
    | outside e => rfl

/-- The next call of a worker is one that its ghost state permits. -/
theorem Keeps.may (h : p.Keeps P Q) {w : Nat} {β : Type} {op : F β}
    {next : Except ε β → Prog F ε Unit} (hw : p.pool.worker w = .call op next) :
    P.may (p.ghost w) op := by
  have := h w
  rw [hw] at this
  exact this.1

/-- A worker keeps to the protocol, whatever the others do, until it vanishes. -/
theorem follows_step {v : Nat}
    (h : (p.pool.worker v).Follows P (fun g _ => Q g) (p.ghost v)) {m : Move O E}
    (hm : m ≠ .crash v) :
    ((p.step P M m).pool.worker v).Follows P (fun g _ => Q g) ((p.step P M m).ghost v) := by
  cases m with
  | work w o =>
    cases hw : p.pool.worker w with
    | call op next =>
      rw [ghost_call o hw v]
      simp only [Observed.step, Pool.step, hw, Pool.set]
      by_cases hvw : v = w
      · subst hvw
        rw [hw] at h
        rw [if_pos rfl, if_pos rfl]
        exact h.2 _
      · rw [if_neg hvw, if_neg hvw]
        exact h
    | done a =>
      simp only [Observed.step, Pool.step, hw]
      exact h
    | fail e =>
      simp only [Observed.step, Pool.step, hw]
      exact h
  | crash w =>
    have hvw : v ≠ w := fun he => hm (he ▸ rfl)
    simp only [Observed.step, Pool.step, Pool.set, if_neg hvw]
    exact h
  | outside e => exact h

theorem follows_run {v : Nat}
    (h : (p.pool.worker v).Follows P (fun g _ => Q g) (p.ghost v)) {moves : List (Move O E)}
    (hm : .crash v ∉ moves) :
    ((p.run P M moves).pool.worker v).Follows P (fun g _ => Q g) ((p.run P M moves).ghost v) := by
  induction moves generalizing p with
  | nil => exact h
  | cons m ms ih =>
    refine ih (follows_step h ?_) (fun hc => hm (List.mem_cons_of_mem m hc))
    rintro rfl
    exact hm List.mem_cons_self

/-- A worker that vanishes has to be one that may end. -/
theorem Keeps.step (h : p.Keeps P Q) (m : Move O E)
    (hcrash : ∀ w, m = .crash w → Q (p.ghost w)) : (p.step P M m).Keeps P Q := by
  intro v
  by_cases hv : m = .crash v
  · subst hv
    simp only [Observed.step, Pool.step, Pool.set, if_true]
    exact hcrash v rfl
  · exact follows_step (h v) hv

/-- What every step of a pool that keeps to the protocol keeps, holds after every run. -/
theorem Keeps.induction {inv : Observed F ε S G → Prop} (h : p.Keeps P (fun _ => True)) (h0 : inv p)
    (hstep : ∀ p : Observed F ε S G, p.Keeps P (fun _ => True) → inv p →
      ∀ m, inv (p.step P M m))
    (moves : List (Move O E)) : inv (p.run P M moves) := by
  induction moves generalizing p with
  | nil => exact h0
  | cons m ms ih => exact ih (h.step m (fun _ _ => trivial)) (hstep p h h0 m)

end Observed

end calls
