-- Programs that reach the world only through calls, and workers that run them side by side:
-- every interleaving of single calls, with an answer from outside for each, workers that
-- vanish half-way and changes nobody asked for. What a worker may rely on between two of its
-- calls carries a law of one program over to the whole pool.
import Mathlib.Logic.Function.Basic

namespace calls

/-- A program: it ends, it fails, or it makes a call and goes on with the answer. -/
inductive Prog (F : Type → Type) (ε α : Type) : Type 1 where
  | done (a : α)
  | fail (e : ε)
  | call {β : Type} (op : F β) (next : Except ε β → Prog F ε α)

namespace Prog

variable {F : Type → Type} {ε α β : Type}

def bind : Prog F ε α → (α → Prog F ε β) → Prog F ε β
  | done a, f => f a
  | fail e, _ => fail e
  | call op next, f => call op (fun r => (next r).bind f)

instance : Monad (Prog F ε) where
  pure := done
  bind := bind

/-- What follows a call whose failure ends the program (`?`). -/
def answered : Except ε β → Prog F ε β
  | .ok b => done b
  | .error e => fail e

/-- One call, failing with it. -/
def perform (op : F β) : Prog F ε β := call op answered

/-- Run to the end and hand the outcome on, a failure included. -/
def caught : Prog F ε α → Prog F ε (Except ε α)
  | done a => done (.ok a)
  | fail e => done (.error e)
  | call op next => call op (fun r => (next r).caught)

/-- Go on from an outcome that was held back. -/
def resume : Except ε α → Prog F ε α
  | .ok a => done a
  | .error e => fail e

/-- No call that the program can ever make is `bad`. -/
def Never (bad : {γ : Type} → F γ → Prop) : Prog F ε α → Prop
  | done _ => True
  | fail _ => True
  | call op next => ¬ bad op ∧ ∀ r, Never bad (next r)

/-- The program makes only calls in `A`, fails only after a call that failed, and ends in `Q`;
the flag says whether one has failed so far. -/
def Within (A : {γ : Type} → F γ → Prop) (Q : Bool → α → Prop) : Prog F ε α → Bool → Prop
  | done a, f => Q f a
  | fail _, f => f = true
  | call op next, f =>
    A op ∧ (∀ b, Within A Q (next (.ok b)) f) ∧ ∀ e, Within A Q (next (.error e)) true

@[simp] theorem pure_eq (a : α) : (pure a : Prog F ε α) = done a := rfl

@[simp] theorem bind_eq (p : Prog F ε α) (f : α → Prog F ε β) : p >>= f = p.bind f := rfl

@[simp] theorem done_bind (a : α) (f : α → Prog F ε β) : (done a).bind f = f a := rfl

@[simp] theorem fail_bind (e : ε) (f : α → Prog F ε β) : (fail e : Prog F ε α).bind f = fail e :=
  rfl

theorem bind_assoc {γ : Type} (p : Prog F ε α) (f : α → Prog F ε β) (g : β → Prog F ε γ) :
    (p.bind f).bind g = p.bind (fun a => (f a).bind g) := by
  induction p with
  | done a => rfl
  | fail e => rfl
  | call op next ih => exact congrArg (call op) (funext fun r => ih r)

variable {bad A : {γ : Type} → F γ → Prop} {p : Prog F ε α} {Q : Bool → α → Prop}

theorem never_bind {f : α → Prog F ε β} (hp : p.Never bad) (hf : ∀ a, (f a).Never bad) :
    (p.bind f).Never bad := by
  induction p with
  | done a => exact hf a
  | fail e => trivial
  | call op next ih => exact ⟨hp.1, fun r => ih r (hp.2 r)⟩

theorem never_perform {op : F α} (h : ¬ bad op) :
    (perform op : Prog F ε α).Never bad := by
  refine ⟨h, ?_⟩
  intro r
  cases r <;> trivial

theorem never_caught (hp : p.Never bad) :
    p.caught.Never bad := by
  induction p with
  | done a => trivial
  | fail e => trivial
  | call op next ih => exact ⟨hp.1, fun r => ih r (hp.2 r)⟩

/-- What is claimed of programs passes on to what is put in sequence from them, and holds of the
calls that fit. -/
structure Sequential (keeps : {α : Type} → Prog F ε α → Prop) (fit : {γ : Type} → F γ → Prop) :
    Prop where
  done : ∀ {α : Type} (a : α), keeps (Prog.done a)
  bind : ∀ {α β : Type} {p : Prog F ε α} {f : α → Prog F ε β},
    keeps p → (∀ a, keeps (f a)) → keeps (p.bind f)
  call : ∀ {γ : Type} {op : F γ}, fit op → keeps (perform op)

/-- It holds of what fails, and of what catches a failure, too. -/
structure Compositional (keeps : {α : Type} → Prog F ε α → Prop)
    (fit : {γ : Type} → F γ → Prop) : Prop extends Sequential keeps fit where
  fail : ∀ {α : Type} (e : ε), keeps (Prog.fail e : Prog F ε α)
  caught : ∀ {α : Type} {p : Prog F ε α}, keeps p → keeps p.caught

theorem compositional_never :
    Compositional (fun p : Prog F ε _ => p.Never bad) (fun op => ¬ bad op) where
  done := fun _ => trivial
  fail := fun _ => trivial
  bind := never_bind
  caught := never_caught
  call := never_perform

theorem never_resume (r : Except ε α) :
    (resume r : Prog F ε α).Never bad := by
  cases r <;> trivial

theorem within_perform {op : F α} {f : Bool} (h : A op) (hq : ∀ a, Q f a) :
    (perform op : Prog F ε α).Within A Q f :=
  ⟨h, hq, fun _ => rfl⟩

theorem within_mono {Q' : Bool → α → Prop} {f : Bool} (hp : p.Within A Q f)
    (hq : ∀ f a, Q f a → Q' f a) : p.Within A Q' f := by
  induction p generalizing f with
  | done a => exact hq f a hp
  | fail e => exact hp
  | call op next ih => exact ⟨hp.1, fun b => ih _ (hp.2.1 b), fun e => ih _ (hp.2.2 e)⟩

theorem within_bind {Q' : Bool → β → Prop} {g : α → Prog F ε β} {f : Bool} (hp : p.Within A Q f)
    (hg : ∀ f a, Q f a → (g a).Within A Q' f) : (p.bind g).Within A Q' f := by
  induction p generalizing f with
  | done a => exact hg f a hp
  | fail e => exact hp
  | call op next ih => exact ⟨hp.1, fun b => ih _ (hp.2.1 b), fun e => ih _ (hp.2.2 e)⟩

/-- The flag is never taken back. -/
theorem within_flag {f : Bool} (hp : p.Within A Q f) :
    p.Within A (fun f' a => Q f' a ∧ (f = true → f' = true)) f := by
  induction p generalizing f with
  | done a => exact ⟨hp, fun h => h⟩
  | fail e => exact hp
  | call op next ih =>
    refine ⟨hp.1, fun b => ih _ (hp.2.1 b), fun e => ?_⟩
    exact within_mono (ih _ (hp.2.2 e)) (fun _ _ h => ⟨h.1, fun _ => h.2 rfl⟩)

/-- What all the calls are not is never called. -/
theorem never_of_within {f : Bool} (hp : p.Within A Q f)
    (h : ∀ {γ : Type} (op : F γ), A op → ¬ bad op) : p.Never bad := by
  induction p generalizing f with
  | done a => trivial
  | fail e => trivial
  | call op next ih =>
    refine ⟨h op hp.1, ?_⟩
    intro r
    cases r with
    | ok b => exact ih _ (hp.2.1 b)
    | error e => exact ih _ (hp.2.2 e)

theorem within_caught {Q : Bool → Except ε α → Prop} {f : Bool}
    (hp : p.Within A (fun f a => Q f (.ok a)) f) (he : ∀ e, Q true (.error e)) :
    p.caught.Within A Q f := by
  induction p generalizing f with
  | done a => exact hp
  | fail e =>
    have hf : f = true := hp
    rw [hf]
    exact he e
  | call op next ih => exact ⟨hp.1, fun b => ih _ (hp.2.1 b), fun e => ih _ (hp.2.2 e)⟩

end Prog

/-! ## The machine and the pool -/

/-- What the calls mean: worker and call, the answer from outside, the state before. -/
structure Machine (F : Type → Type) (ε S O E : Type) where
  exec : {β : Type} → Nat → F β → O → S → Except ε β × S
  /-- What is forgotten when a worker vanishes. -/
  leave : Nat → S → S
  /-- A change of the world that no worker makes. -/
  outside : E → S → S

/-- The state and what each worker has left to do. -/
structure Pool (F : Type → Type) (ε S : Type) : Type 1 where
  state : S
  worker : Nat → Prog F ε Unit

inductive Move (O E : Type) where
  /-- The worker makes its next call. -/
  | work (w : Nat) (o : O)
  /-- The worker vanishes, whatever it was doing. -/
  | crash (w : Nat)
  | outside (e : E)

variable {F : Type → Type} {ε S O E : Type}

namespace Pool

def set (p : Pool F ε S) (s : S) (w : Nat) (rest : Prog F ε Unit) : Pool F ε S where
  state := s
  worker := fun v => if v = w then rest else p.worker v

def step (M : Machine F ε S O E) (p : Pool F ε S) : Move O E → Pool F ε S
  | .work w o =>
    match p.worker w with
    | .call op next =>
      let (r, s) := M.exec w op o p.state
      p.set s w (next r)
    | .done _ => p
    | .fail _ => p
  | .crash w => p.set (M.leave w p.state) w (.done ())
  | .outside e => { p with state := M.outside e p.state }

def run (M : Machine F ε S O E) (p : Pool F ε S) (moves : List (Move O E)) : Pool F ε S :=
  moves.foldl (step M) p

@[simp] theorem run_nil (M : Machine F ε S O E) (p : Pool F ε S) : p.run M [] = p := rfl

@[simp] theorem run_cons (M : Machine F ε S O E) (p : Pool F ε S) (m : Move O E)
    (ms : List (Move O E)) : p.run M (m :: ms) = (p.step M m).run M ms := rfl

theorem run_append (M : Machine F ε S O E) (p : Pool F ε S) (ms ns : List (Move O E)) :
    p.run M (ms ++ ns) = (p.run M ms).run M ns := List.foldl_append ..

theorem run_keeps {M : Machine F ε S O E} (inv : Pool F ε S → Prop)
    (hstep : ∀ p m, inv p → inv (p.step M m)) {p : Pool F ε S} {ms : List (Move O E)}
    (hp : inv p) : inv (p.run M ms) := by
  induction ms generalizing p with
  | nil => exact hp
  | cons m ms ih => exact ih (hstep p m hp)

end Pool

/-- Every step of the run is one that `ok` permits where it is taken. -/
def Along (M : Machine F ε S O E) (ok : Pool F ε S → Move O E → Prop) :
    Pool F ε S → List (Move O E) → Prop
  | _, [] => True
  | p, m :: ms => ok p m ∧ Along M ok (p.step M m) ms

variable {M : Machine F ε S O E} {ms : List (Move O E)} {ok : {β : Type} → F β → O → Prop}

theorem along_append {ok : Pool F ε S → Move O E → Prop} {p : Pool F ε S} {ns : List (Move O E)} :
    Along M ok p (ms ++ ns) ↔ Along M ok p ms ∧ Along M ok (p.run M ms) ns := by
  induction ms generalizing p with
  | nil => simp [Along]
  | cons m ms ih => simp only [List.cons_append, Along, ih, Pool.run_cons, and_assoc]

/-- What the permitted steps keep holds at the end of every permitted run. -/
theorem along_keeps {ok : Pool F ε S → Move O E → Prop} (inv : Pool F ε S → Prop)
    (hstep : ∀ p m, inv p → ok p m → inv (p.step M m)) {p : Pool F ε S} (hp : inv p)
    (h : Along M ok p ms) :
    inv (p.run M ms) := by
  induction ms generalizing p with
  | nil => exact hp
  | cons m ms ih => exact ih (hstep p m hp h.1) h.2

theorem along_mono {ok ok' : Pool F ε S → Move O E → Prop} (h : ∀ p m, ok p m → ok' p m)
    {p : Pool F ε S} (ha : Along M ok p ms) : Along M ok' p ms := by
  induction ms generalizing p with
  | nil => trivial
  | cons m ms ih => exact ⟨h p m ha.1, ih ha.2⟩

/-- Permitted step by step, wherever the run is cut. -/
theorem along_iff {ok : Pool F ε S → Move O E → Prop} {p : Pool F ε S} :
    Along M ok p ms ↔ ∀ before m after, ms = before ++ m :: after → ok (p.run M before) m := by
  induction ms generalizing p with
  | nil => simp [Along]
  | cons m ms ih =>
    simp only [Along, ih]
    constructor
    · rintro ⟨hm, hrest⟩ before m' after heq
      cases before with
      | nil =>
        obtain ⟨rfl, -⟩ := List.cons.inj heq
        exact hm
      | cons b before =>
        obtain ⟨rfl, hms⟩ := List.cons.inj heq
        exact hrest before m' after hms
    · intro h
      refine ⟨h [] m ms rfl, ?_⟩
      intro before m' after heq
      exact h (m :: before) m' after (by rw [heq, List.cons_append])

/-- When every permitted step from a state with the invariant keeps it and is `good`, every step
of a permitted run is. -/
theorem along_good {ok good : Pool F ε S → Move O E → Prop} (inv : Pool F ε S → Prop)
    (hstep : ∀ p m, inv p → ok p m → inv (p.step M m) ∧ good p m) {p : Pool F ε S} (hp : inv p)
    (h : Along M ok p ms) :
    Along M good p ms := by
  induction ms generalizing p with
  | nil => trivial
  | cons m ms ih =>
    obtain ⟨hi, hg⟩ := hstep p m hp h.1
    exact ⟨hg, ih hi h.2⟩

instance decidableAlong (M : Machine F ε S O E) (ok : Pool F ε S → Move O E → Prop)
    [∀ p m, Decidable (ok p m)] : ∀ p ms, Decidable (Along M ok p ms)
  | _, [] => isTrue trivial
  | p, m :: ms =>
    have := decidableAlong M ok (p.step M m) ms
    inferInstanceAs (Decidable (ok p m ∧ Along M ok (p.step M m) ms))

/-- A condition on single calls, as a condition on moves. -/
def onCalls (c : {β : Type} → Nat → F β → O → S → Prop) (p : Pool F ε S) : Move O E → Prop
  | .work w o =>
    match p.worker w with
    | .call op _ => c w op o p.state
    | .done _ => True
    | .fail _ => True
  | .crash _ => True
  | .outside _ => True

instance decidableOnCalls (c : {β : Type} → Nat → F β → O → S → Prop)
    [∀ {β : Type} (w : Nat) (op : F β) (o : O) (s : S), Decidable (c w op o s)]
    (p : Pool F ε S) (m : Move O E) : Decidable (onCalls c p m) := by
  unfold onCalls
  split
  · split <;> infer_instance
  · infer_instance
  · infer_instance

/-- The terms on which workers share the state. -/
structure Terms (F : Type → Type) (S O E : Type) where
  /-- Holds between any two calls. -/
  Inv : S → Prop
  /-- What a worker may count on while the others move. -/
  Rely : Nat → S → S → Prop
  /-- The calls that the runs in question make. -/
  May : {β : Type} → Nat → F β → O → S → Prop
  /-- What every such call does. -/
  Does : {β : Type} → Nat → F β → O → S → S → Prop
  /-- The changes from outside in the runs in question. -/
  MayOutside : E → S → Prop

namespace Terms

/-- The terms fit together: what one worker's calls do is what the others rely on. -/
structure Sound (L : Terms F S O E) (M : Machine F ε S O E) : Prop where
  refl : ∀ w s, L.Rely w s s
  trans : ∀ w s₁ s₂ s₃, L.Rely w s₁ s₂ → L.Rely w s₂ s₃ → L.Rely w s₁ s₃
  others : ∀ {β : Type} (w v : Nat) (op : F β) (o : O) (s s' : S), v ≠ w →
    L.Does w op o s s' → L.Rely v s s'
  outside : ∀ e s, L.Inv s → L.MayOutside e s →
    L.Inv (M.outside e s) ∧ ∀ v, L.Rely v s (M.outside e s)
  leave : ∀ w s, L.Inv s → L.Inv (M.leave w s) ∧ ∀ v, v ≠ w → L.Rely v s (M.leave w s)

/-- From here on, whatever the others do within the terms, each call of the program keeps the
invariant and its promise, and the program ends in `Q`. -/
def Safe {α : Type} (L : Terms F S O E) (M : Machine F ε S O E) (w : Nat)
    (Q : Except ε α → S → Prop) : Prog F ε α → S → Prop
  | .done a, s => Q (.ok a) s
  | .fail e, s => Q (.error e) s
  | .call op next, s => ∀ s₁, L.Rely w s s₁ → L.Inv s₁ → ∀ o, L.May w op o s₁ →
      L.Does w op o s₁ (M.exec w op o s₁).2 ∧ L.Inv (M.exec w op o s₁).2 ∧
        Safe L M w Q (next (M.exec w op o s₁).1) (M.exec w op o s₁).2

/-- What a pool keeps: the invariant, and every worker safe from where it stands. -/
structure Good (L : Terms F S O E) (M : Machine F ε S O E) (p : Pool F ε S) : Prop where
  inv : L.Inv p.state
  safe : ∀ w, L.Safe M w (fun _ _ => True) (p.worker w) p.state

/-- The moves of the runs in question. -/
def Permits (L : Terms F S O E) (p : Pool F ε S) : Move O E → Prop
  | .work w o =>
    match p.worker w with
    | .call op _ => L.May w op o p.state
    | .done _ => True
    | .fail _ => True
  | .crash _ => True
  | .outside e => L.MayOutside e p.state

variable {L : Terms F S O E} {M : Machine F ε S O E} {w : Nat} {α β : Type}

theorem safe_mono {Q Q' : Except ε α → S → Prop} {p : Prog F ε α} {s : S}
    (h : L.Safe M w Q p s) (hq : ∀ r s', Q r s' → Q' r s') : L.Safe M w Q' p s := by
  induction p generalizing s with
  | done a => exact hq _ _ h
  | fail e => exact hq _ _ h
  | call op next ih =>
    intro s₁ hr hi o hm
    obtain ⟨hd, hi', hn⟩ := h s₁ hr hi o hm
    exact ⟨hd, hi', ih _ hn⟩

/-- Sequencing: the rest is safe from wherever the first part ends well. -/
theorem safe_bind {Q : Except ε β → S → Prop} {p : Prog F ε α} {f : α → Prog F ε β} {s : S}
    (h : L.Safe M w (fun r s' => match r with
      | .ok a => L.Safe M w Q (f a) s'
      | .error e => Q (.error e) s') p s) : L.Safe M w Q (p.bind f) s := by
  induction p generalizing s with
  | done a => exact h
  | fail e => exact h
  | call op next ih =>
    intro s₁ hr hi o hm
    obtain ⟨hd, hi', hn⟩ := h s₁ hr hi o hm
    exact ⟨hd, hi', ih _ hn⟩

theorem safe_caught {Q : Except ε (Except ε α) → S → Prop} {p : Prog F ε α} {s : S}
    (h : L.Safe M w (fun r s' => Q (.ok r) s') p s) : L.Safe M w Q p.caught s := by
  induction p generalizing s with
  | done a => exact h
  | fail e => exact h
  | call op next ih =>
    intro s₁ hr hi o hm
    obtain ⟨hd, hi', hn⟩ := h s₁ hr hi o hm
    exact ⟨hd, hi', ih _ hn⟩

/-- One call, for a program that fails with it. -/
theorem safe_perform {Q : Except ε α → S → Prop} {op : F α} {s : S}
    (h : ∀ s₁, L.Rely w s s₁ → L.Inv s₁ → ∀ o, L.May w op o s₁ →
      L.Does w op o s₁ (M.exec w op o s₁).2 ∧ L.Inv (M.exec w op o s₁).2 ∧
        Q (M.exec w op o s₁).1 (M.exec w op o s₁).2) :
    L.Safe M w Q (Prog.perform op) s := by
  intro s₁ hr hi o hm
  obtain ⟨hd, hi', hq⟩ := h s₁ hr hi o hm
  refine ⟨hd, hi', ?_⟩
  cases hres : (M.exec w op o s₁).1 with
  | ok a => rw [hres] at hq; exact hq
  | error e => rw [hres] at hq; exact hq

/-- A worker stays safe while the others move. -/
theorem safe_stable (hs : L.Sound M) {Q : Except ε α → S → Prop} {p : Prog F ε α} {s s' : S}
    (hq : ∀ r s s', Q r s → L.Rely w s s' → Q r s') (h : L.Safe M w Q p s)
    (hr : L.Rely w s s') : L.Safe M w Q p s' := by
  cases p with
  | done a => exact hq _ _ _ h hr
  | fail e => exact hq _ _ _ h hr
  | call op next =>
    intro s₁ hr₁ hi o hm
    exact h s₁ (hs.trans w _ _ _ hr hr₁) hi o hm

/-- What a permitted call does, in a good pool. -/
theorem does_step (hs : L.Sound M) {p : Pool F ε S} (hg : L.Good M p) {o : O} {op : F β}
    {next : Except ε β → Prog F ε Unit} (hw : p.worker w = .call op next)
    (hm : L.May w op o p.state) :
    L.Does w op o p.state (M.exec w op o p.state).2 := by
  have h := hg.safe w
  rw [hw] at h
  exact (h p.state (hs.refl w _) hg.inv o hm).1

theorem good_step (hs : L.Sound M) {p : Pool F ε S} {m : Move O E} (hg : L.Good M p)
    (hm : L.Permits p m) : L.Good M (p.step M m) := by
  cases m with
  | outside e =>
    obtain ⟨hi, hr⟩ := hs.outside e p.state hg.inv hm
    exact ⟨hi, fun v => safe_stable hs (fun _ _ _ _ _ => trivial) (hg.safe v) (hr v)⟩
  | crash w =>
    obtain ⟨hi, hr⟩ := hs.leave w p.state hg.inv
    refine ⟨hi, ?_⟩
    intro v
    by_cases hv : v = w
    · simp [Pool.step, Pool.set, hv, Safe]
    · have h := safe_stable hs (fun _ _ _ _ _ => trivial) (hg.safe v) (hr v hv)
      simpa [Pool.step, Pool.set, hv] using h
  | work w o =>
    cases hw : p.worker w with
    | done a => simpa [Pool.step, hw] using hg
    | fail e => simpa [Pool.step, hw] using hg
    | @call β op next =>
      have hsafe := hg.safe w
      simp only [Permits, hw] at hm
      rw [hw] at hsafe
      obtain ⟨hd, hi, hn⟩ := hsafe p.state (hs.refl w _) hg.inv o hm
      simp only [Pool.step, hw]
      refine ⟨hi, ?_⟩
      intro v
      by_cases hv : v = w
      · subst hv
        simpa [Pool.set] using hn
      · have h := safe_stable hs (fun _ _ _ _ _ => trivial) (hg.safe v)
          (hs.others w v op o _ _ hv hd)
        simpa [Pool.set, hv] using h

/-- Every permitted run keeps a good pool good. -/
theorem good_run (hs : L.Sound M) {p : Pool F ε S} {ms : List (Move O E)} (hg : L.Good M p)
    (h : Along M L.Permits p ms) : L.Good M (p.run M ms) :=
  along_keeps (L.Good M) (fun _ _ hg hm => good_step hs hg hm) hg h

end Terms

/-! ## One program by itself -/

/-- A program run to its end with nobody else about; `os` are the answers from outside. What
comes back is its outcome, the state it leaves and the answers that it did not use. -/
def alone {α : Type} (M : Machine F ε S O E) (w : Nat) :
    Prog F ε α → (Nat → O) → S → Except ε α × S × (Nat → O)
  | .done a, os, s => (.ok a, s, os)
  | .fail e, os, s => (.error e, s, os)
  | .call op next, os, s =>
    alone M w (next (M.exec w op (os 0) s).1) (fun n => os (n + 1)) (M.exec w op (os 0) s).2

section Alone

variable {α β : Type} {M : Machine F ε S O E} {w : Nat}

theorem alone_bind (p : Prog F ε α) (f : α → Prog F ε β) (os : Nat → O) (s : S) :
    alone M w (p.bind f) os s =
      match alone M w p os s with
      | (.ok a, s', os') => alone M w (f a) os' s'
      | (.error e, s', os') => (.error e, s', os') := by
  induction p generalizing os s with
  | done a => rfl
  | fail e => rfl
  | call op next ih => exact ih _ _ _

theorem alone_caught (p : Prog F ε α) (os : Nat → O) (s : S) :
    alone M w p.caught os s =
      (.ok (alone M w p os s).1, (alone M w p os s).2.1, (alone M w p os s).2.2) := by
  induction p generalizing os s with
  | done a => rfl
  | fail e => rfl
  | call op next ih => exact ih _ _ _

theorem alone_perform (op : F α) (os : Nat → O) (s : S) :
    alone M w (Prog.perform op) os s =
      ((M.exec w op (os 0) s).1, (M.exec w op (os 0) s).2, fun n => os (n + 1)) := by
  simp only [Prog.perform, alone]
  cases (M.exec w op (os 0) s).1 <;> rfl

theorem alone_call_ok {op : F α} {f : α → Prog F ε β} (os : Nat → O) {s s' : S} {a : α}
    (h : M.exec w op (os 0) s = (.ok a, s')) :
    alone M w ((Prog.perform op).bind f) os s = alone M w (f a) (fun n => os (n + 1)) s' := by
  rw [alone_bind, alone_perform, h]

/-- A call whose outcome is held back. -/
theorem alone_caught_call (op : F α) (f : Except ε α → Prog F ε β) (os : Nat → O) (s : S) :
    alone M w ((Prog.perform op).caught.bind f) os s =
      alone M w (f (M.exec w op (os 0) s).1) (fun n => os (n + 1)) (M.exec w op (os 0) s).2 := by
  rw [alone_bind, alone_caught, alone_perform]

theorem alone_call_error {op : F α} {f : α → Prog F ε β} (os : Nat → O) {s s' : S} {e : ε}
    (h : M.exec w op (os 0) s = (.error e, s')) :
    alone M w ((Prog.perform op).bind f) os s = (.error e, s', fun n => os (n + 1)) := by
  rw [alone_bind, alone_perform, h]

/-- What every call keeps holds at the end of every program. -/
theorem alone_inv (I : S → Prop) (hstep : ∀ {β : Type} (op : F β) o s, I s → I (M.exec w op o s).2)
    (p : Prog F ε α) {os : Nat → O} {s : S} (hs : I s) : I (alone M w p os s).2.1 := by
  induction p generalizing os s with
  | done a => exact hs
  | fail e => exact hs
  | call op next ih => exact ih _ (hstep op (os 0) s hs)

/-- What every call of the program keeps, whatever the answers, holds at its end. -/
theorem alone_keeps (bad : {γ : Type} → F γ → Prop) (I : S → Prop) {p : Prog F ε α}
    (hp : p.Never bad)
    (hstep : ∀ {β : Type} (op : F β) o s, ¬ bad op → I s → I (M.exec w op o s).2)
    {os : Nat → O} {s : S} (hs : I s) : I (alone M w p os s).2.1 := by
  induction p generalizing os s with
  | done a => exact hs
  | fail e => exact hs
  | call op next ih => exact ih _ (hp.2 _) (hstep op (os 0) s hp.1 hs)

end Alone

/-- With nobody else about, nothing moves between two calls. -/
def solo (ok : {β : Type} → F β → O → Prop) : Terms F S O E where
  Inv := fun _ => True
  Rely := fun _ s s' => s = s'
  May := fun _ op o _ => ok op o
  Does := fun _ _ _ _ _ => True
  MayOutside := fun _ _ => False

/-- A program that is safe by itself ends as it promises, whatever the answers. -/
theorem alone_of_safe {α : Type} {w : Nat} {Q : Except ε α → S → Prop} {p : Prog F ε α}
    {os : Nat → O} {s : S} (hos : ∀ n, ∀ {β : Type} (op : F β), ok op (os n))
    (h : (solo (S := S) (E := E) ok).Safe M w Q p s) :
    Q (alone M w p os s).1 (alone M w p os s).2.1 := by
  induction p generalizing os s with
  | done a => exact h
  | fail e => exact h
  | call op next ih =>
    have hn := (h s rfl trivial (os 0) (hos 0 op)).2.2
    exact ih _ (fun n => hos (n + 1)) hn

theorem safe_any {α : Type} {w : Nat} (p : Prog F ε α) (s : S) :
    (solo (S := S) (E := E) ok).Safe M w (fun _ _ => True) p s := by
  induction p generalizing s with
  | done a => trivial
  | fail e => trivial
  | call op next ih => exact fun _ _ _ _ _ => ⟨trivial, trivial, ih _ _⟩

/-- What every call keeps holds at the end besides. -/
theorem safe_also {α : Type} {w : Nat} {Q : Except ε α → S → Prop} {p : Prog F ε α} {s : S}
    (K : S → Prop) (hstep : ∀ {β : Type} (op : F β) o s, K s → K (M.exec w op o s).2)
    (h : (solo (S := S) (E := E) ok).Safe M w Q p s) (hs : K s) :
    (solo (S := S) (E := E) ok).Safe M w (fun r s' => Q r s' ∧ K s') p s := by
  induction p generalizing s with
  | done a => exact ⟨h, hs⟩
  | fail e => exact ⟨h, hs⟩
  | call op next ih =>
    intro s₁ hr hi o hm
    obtain ⟨hd, hi', hn⟩ := h s₁ hr hi o hm
    have hs₁ : K s₁ := (show s = s₁ from hr) ▸ hs
    exact ⟨hd, hi', ih _ hn (hstep op o s₁ hs₁)⟩

/-- One call of a program by itself. -/
theorem safe_solo {α : Type} {w : Nat} {Q : Except ε α → S → Prop} {op : F α} {s : S}
    (h : ∀ o, ok op o → Q (M.exec w op o s).1 (M.exec w op o s).2) :
    (solo (S := S) (E := E) ok).Safe M w Q (Prog.perform op) s := by
  apply Terms.safe_perform
  rintro s₁ rfl _ o hm
  exact ⟨trivial, trivial, h o hm⟩

/-- One call of a program by itself, and what follows it. -/
theorem safe_solo_bind {α β : Type} {w : Nat} {ok : {β : Type} → F β → O → Prop}
    {Q : Except ε β → S → Prop} {op : F α} {f : α → Prog F ε β} {s : S}
    (hok : ∀ o a s', ok op o → M.exec w op o s = (.ok a, s') →
      (solo (S := S) (E := E) ok).Safe M w Q (f a) s')
    (herr : ∀ o e s', ok op o → M.exec w op o s = (.error e, s') → Q (.error e) s') :
    (solo (S := S) (E := E) ok).Safe M w Q ((Prog.perform op).bind f) s := by
  apply Terms.safe_bind
  apply safe_solo
  intro o hm
  cases hexec : M.exec w op o s with
  | mk r s' =>
    cases r with
    | ok a => exact hok o a s' hm hexec
    | error e => exact herr o e s' hm hexec

/-- What the calls of a program keep holds at its end; where no call fails, the program does not
either. -/
theorem safe_within {α : Type} {w : Nat} {A : {γ : Type} → F γ → Prop} {Q : Bool → α → Prop}
    {K : S → Prop} {smooth : Prop} {p : Prog F ε α} {f : Bool} {s : S}
    (hstep : ∀ {β : Type} (op : F β) o s, A op → ok op o → K s →
      K (M.exec w op o s).2 ∧ (smooth → ∃ b, (M.exec w op o s).1 = .ok b)) (hp : p.Within A Q f)
    (hf : smooth → f = false) (hs : K s) :
    (solo (S := S) (E := E) ok).Safe M w (fun r s' => K s' ∧ (smooth → ∃ a, r = .ok a)) p s := by
  induction p generalizing f s with
  | done a => exact ⟨hs, fun _ => ⟨a, rfl⟩⟩
  | fail e =>
    refine ⟨hs, ?_⟩
    intro h
    have hf' : f = true := hp
    rw [hf h] at hf'
    exact absurd hf' (by simp)
  | call op next ih =>
    rintro s₁ rfl _ o hm
    obtain ⟨hk, hok⟩ := hstep op o s hp.1 hm hs
    refine ⟨trivial, trivial, ?_⟩
    cases hres : (M.exec w op o s).1 with
    | ok b => exact ih _ (hp.2.1 b) hf hk
    | error e =>
      refine ih _ (hp.2.2 e) ?_ hk
      intro h
      obtain ⟨b, hb⟩ := hok h
      rw [hres] at hb
      exact absurd hb (by simp)

end calls
