-- Several processes on one database (`runtime.rs`, `api/mod.rs`, `store/postgres/mod.rs`): each
-- asks for the single-poller lease before its loops start, holds it on a session of its own, and
-- gives it back once they have been stopped.
import Xrelease.AdvisoryLock
import Xrelease.Supervised

namespace xrelease.sole_poller

open advisory_lock trace
open xrelease.scheduler (Supervisor Job)

/-! ## A process -/

/-- Where `Runtime::serve` stands; the lease is held on the session that is named. -/
inductive Stage where
  | absent
  /-- The store is open. -/
  | opened
  /-- The lease is there, the loops are not yet. -/
  | leased (session : Nat)
  | serving (session : Nat)
  /-- The HTTP server has failed: the lease is dropped, and nobody stops the loops. -/
  | failed
  /-- The HTTP server has stopped, and `stop_watchers` has begun; whether it has tasks to wait
  for. -/
  | draining (session : Nat) (waits : Bool)
  | leaving
  | gone
deriving DecidableEq

/-- The loops of the process may take a step. -/
def Stage.running : Stage → Bool
  | .serving _ | .failed | .draining _ _ | .leaving => true
  | .absent | .opened | .leased _ | .gone => false

/-- A list of watches is replaced by an apply or a reload, which end with the HTTP server. -/
def Stage.allows (stage : Stage) : scheduler.Event → Bool
  | .call none => false
  | .call (some _) =>
    match stage with
    | .serving _ | .failed => true
    | _ => false
  | _ => stage.running

def Stage.session : Stage → Option Nat
  | .leased session | .serving session | .draining session _ => some session
  | .absent | .opened | .failed | .leaving | .gone => none

structure Process where
  stage : Stage := .absent
  supervisor : Supervisor := {}

/-- The server with its open sessions, by the process that opened them, and the processes. -/
structure World where
  lock : Lock := {}
  opened : Nat := 0
  owner : Nat → Option Nat := fun _ => none
  procs : Nat → Process := fun _ => {}

/-- Where a statement can break off, `reached` says whether the server has carried it out and
`answered` whether the process has heard of it. -/
inductive Event where
  /-- `Runtime::new`. -/
  | boot (p : Nat)
  /-- The pool of the process opens a session. -/
  | connect (p : Nat)
  /-- `try_acquire_poller_lease`, on a session of the pool. -/
  | ask (p session : Nat) (reached answered : Bool)
  /-- `serve` fails before a loop is started. -/
  | bail (p : Nat) (reached : Bool)
  /-- The first `replace` begins. -/
  | start (p : Nat) (jobs : List Job)
  /-- The listener does not come up, or the HTTP server ends with an error. -/
  | serve_fails (p : Nat) (reached : Bool)
  /-- A step of the loops, or of a call that replaces them. -/
  | loops (p : Nat) (e : scheduler.Event)
  | stop (p : Nat)
  /-- The lease is dropped at the end of `serve`. -/
  | release (p : Nat) (reached : Bool)
  | exit (p : Nat)
  | killed (p : Nat)
  /-- The server closes a session, whatever the reason. -/
  | ends (session : Nat)

def World.on (w : World) (p : Nat) (process : Process) : World :=
  { w with procs := Function.update w.procs p process }

/-- `PollerLease::drop`. -/
def World.drop_lease (w : World) (session : Nat) (reached : Bool) : World :=
  { w with lock := if reached then w.lock.unlock session else w.lock }

/-- No call that replaces the loops, or stops them, is under way. -/
def at_rest (s : Supervisor) : Bool :=
  match s.caller with
  | .idle => true
  | .joining .. | .stopped _ | .starting .. => false

/-- `stop_watchers` does not wait for another call: it raises the flag and finds no handles. -/
def stop_watchers (s : Supervisor) : Supervisor :=
  if at_rest s then s.step (.call none) else { s with shutdown := true, watchers := [] }

/-- One event. What cannot come about in a state leaves it alone. -/
def step (w : World) : Event → World
  | .boot p =>
    match (w.procs p).stage with
    | .absent => w.on p { stage := .opened }
    | _ => w
  | .connect p =>
    match (w.procs p).stage with
    | .absent | .gone => w
    | _ =>
      { w with opened := w.opened + 1, owner := Function.update w.owner w.opened (some p) }
  | .ask p session reached answered =>
    match (w.procs p).stage with
    | .opened =>
      if w.owner session = some p then
        if reached then
          let (locked, lock) := w.lock.try_lock session
          { w with lock := lock }.on p
            { stage := if locked && answered then .leased session else .leaving }
        else w.on p { stage := .leaving }
      else w
    | _ => w
  | .bail p reached =>
    match (w.procs p).stage with
    | .opened => w.on p { stage := .leaving }
    | .leased session => (w.drop_lease session reached).on p { stage := .leaving }
    | _ => w
  | .start p jobs =>
    match (w.procs p).stage with
    | .leased session =>
      w.on p ⟨.serving session, (w.procs p).supervisor.step (.call (some jobs))⟩
    | _ => w
  | .serve_fails p reached =>
    match (w.procs p).stage with
    | .serving session =>
      (w.drop_lease session reached).on p ⟨.failed, (w.procs p).supervisor⟩
    | _ => w
  | .loops p e =>
    if (w.procs p).stage.allows e then
      w.on p ⟨(w.procs p).stage, (w.procs p).supervisor.step e⟩
    else w
  | .stop p =>
    match (w.procs p).stage with
    | .serving session =>
      let s := (w.procs p).supervisor
      w.on p ⟨.draining session (at_rest s), stop_watchers s⟩
    | _ => w
  | .release p reached =>
    match (w.procs p).stage with
    | .draining session waits =>
      if waits && !at_rest (w.procs p).supervisor then w
      else (w.drop_lease session reached).on p ⟨.leaving, (w.procs p).supervisor⟩
    | _ => w
  | .exit p =>
    match (w.procs p).stage with
    | .leaving | .failed => w.on p { stage := .gone }
    | _ => w
  | .killed p => w.on p { stage := .gone }
  | .ends session =>
    { w with lock := w.lock.ends session, owner := Function.update w.owner session none }

/-- The event has a loop of the process begin a turn. -/
def World.begins_turn (w : World) (e : Event) (p : Nat) : Prop :=
  ∃ inner id, e = .loops p inner ∧ (w.procs p).stage.running = true ∧
    (w.procs p).supervisor.begins_turn inner id

/-! ## Sessions and the lock -/

/-- The process has asked for the lease. -/
def Asked : Stage → Prop
  | .absent | .opened => False
  | _ => True

/-- The session of the lock is one of a process that has asked for it once, on that session. -/
structure HeldOnce (owner : Nat → Option Nat) (procs : Nat → Process) (lock : Lock) : Prop where
  once : lock.Once
  owned : ∀ t, lock.HeldBy t → ∃ q, owner t = some q ∧ Asked (procs q).stage ∧
    ∀ s, (procs q).stage.session = some s → s = t

/-- In every state: no session is one of two processes. -/
structure Orderly (w : World) : Prop where
  fresh : ∀ s q, w.owner s = some q → s < w.opened
  named : ∀ p s, (w.procs p).stage.session = some s →
    s < w.opened ∧ ∀ q, w.owner s = some q → q = p
  held : HeldOnce w.owner w.procs w.lock

theorem procs_on (w : World) (p q : Nat) (process : Process) :
    ((w.on p process).procs q) = if q = p then process else w.procs q := by
  unfold World.on
  exact Function.update_apply ..

variable {w : World} {p : Nat} {process : Process}

/-- A process goes on, and the lock with it. -/
theorem orderly_on {lock : Lock} (h : Orderly w) (hname : ∀ s, process.stage.session = some s →
      (w.procs p).stage.session = some s ∨ w.owner s = some p)
    (hheld : HeldOnce w.owner (Function.update w.procs p process) lock) :
    Orderly ({ w with lock }.on p process) := by
  refine ⟨h.fresh, ?_, hheld⟩
  intro q s hs
  rw [procs_on] at hs
  split at hs
  · rename_i hq
    subst hq
    rcases hname s hs with hold | hown
    · exact h.named q s hold
    · refine ⟨h.fresh s q hown, fun r hr => ?_⟩
      exact Option.some.inj (hr.symm.trans hown)
  · exact h.named q s hs

/-- The lock stays, and the process keeps its session or gives it up. -/
theorem heldOnce_same (h : Orderly w) (hasked : Asked (w.procs p).stage → Asked process.stage)
    (hname : ∀ s, process.stage.session = some s → (w.procs p).stage.session = some s) :
    HeldOnce w.owner (Function.update w.procs p process) w.lock := by
  refine ⟨h.held.once, ?_⟩
  intro t ht
  obtain ⟨q, hq, hask, hsession⟩ := h.held.owned t ht
  refine ⟨q, hq, ?_⟩
  rw [Function.update_apply]
  split
  · rename_i heq
    subst heq
    exact ⟨hasked hask, fun s hs => hsession s (hname s hs)⟩
  · exact ⟨hask, hsession⟩

theorem orderly_same (h : Orderly w) (hasked : Asked (w.procs p).stage → Asked process.stage)
    (hname : ∀ s, process.stage.session = some s → (w.procs p).stage.session = some s) :
    Orderly (w.on p process) :=
  orderly_on h (fun s hs => Or.inl (hname s hs)) (heldOnce_same h hasked hname)

theorem orderly_drop {s : Nat} (reached : Bool) (h : Orderly w) (hasked : Asked process.stage)
    (hleft : process.stage.session = none) :
    Orderly ((w.drop_lease s reached).on p process) := by
  have hname : ∀ t, process.stage.session = some t → (w.procs p).stage.session = some t := by
    intro t ht
    rw [hleft] at ht
    cases ht
  have hsame := heldOnce_same h (fun _ => hasked) hname
  refine orderly_on h (fun t ht => Or.inl (hname t ht)) ⟨?_, ?_⟩
  · cases reached with
    | true => exact once_unlock hsame.once
    | false => exact hsame.once
  · intro t ht
    refine hsame.owned t ?_
    cases reached with
    | true => exact heldBy_of_unlock ht
    | false => exact ht

/-- A process that asks for the lease has not held the lock before. -/
theorem orderly_ask {s : Nat} (answered : Bool) (h : Orderly w)
    (hstage : (w.procs p).stage = .opened) (hown : w.owner s = some p) :
    Orderly ({ w with lock := (w.lock.try_lock s).2 }.on p
      { stage := if (w.lock.try_lock s).1 && answered then .leased s else .leaving }) := by
  have hother : ∀ t q, w.lock.HeldBy t → w.owner t = some q → q ≠ p := by
    rintro t q ht hq rfl
    obtain ⟨r, hr, hask, -⟩ := h.held.owned t ht
    obtain rfl := Option.some.inj (hq.symm.trans hr)
    rw [hstage] at hask
    exact hask
  have hnot : ¬ w.lock.HeldBy s := fun hs => hother s p hs hown rfl
  have hsession : ∀ t, (if (w.lock.try_lock s).1 && answered then Stage.leased s
      else Stage.leaving).session = some t → t = s := by
    intro t ht
    split at ht
    · exact (Option.some.inj ht).symm
    · cases ht
  refine orderly_on h (fun t ht => Or.inr (hsession t ht ▸ hown)) ⟨once_try_lock h.held.once hnot, ?_⟩
  intro t ht
  rcases heldBy_try_lock_cases ht with hold | rfl
  · obtain ⟨q, hq, hask, hsame⟩ := h.held.owned t hold
    refine ⟨q, hq, ?_⟩
    rw [Function.update_of_ne (hother t q hold hq)]
    exact ⟨hask, hsame⟩
  · refine ⟨p, hown, ?_⟩
    rw [Function.update_self]
    refine ⟨?_, hsession⟩
    dsimp only
    split <;> trivial

/-- A new session has a number that no session had before. -/
theorem orderly_connect (h : Orderly w) :
    Orderly { w with
      opened := w.opened + 1, owner := Function.update w.owner w.opened (some p) } := by
  have hkept : ∀ s, s < w.opened → Function.update w.owner w.opened (some p) s = w.owner s :=
    fun s hs => Function.update_of_ne (Nat.ne_of_lt hs) ..
  refine ⟨?_, ?_, ⟨h.held.once, ?_⟩⟩
  · intro s q hs
    dsimp only at hs ⊢
    rw [Function.update_apply] at hs
    split at hs
    · omega
    · exact Nat.lt_succ_of_lt (h.fresh s q hs)
  · intro q s hs
    obtain ⟨hlt, honly⟩ := h.named q s hs
    refine ⟨Nat.lt_succ_of_lt hlt, fun r hr => honly r ((hkept s hlt).symm.trans hr)⟩
  · intro t ht
    obtain ⟨q, hq, hrest⟩ := h.held.owned t ht
    exact ⟨q, (hkept t (h.fresh t q hq)).trans hq, hrest⟩

theorem orderly_ends (s : Nat) (h : Orderly w) : Orderly (step w (.ends s)) := by
  have hkept : ∀ {t q}, Function.update w.owner s none t = some q → w.owner t = some q := by
    intro t q ht
    rw [Function.update_apply] at ht
    split at ht
    · cases ht
    · exact ht
  refine ⟨fun t q ht => h.fresh t q (hkept ht), ?_, ⟨once_ends h.held.once, ?_⟩⟩
  · intro p t ht
    obtain ⟨hlt, honly⟩ := h.named p t ht
    exact ⟨hlt, fun q hq => honly q (hkept hq)⟩
  · intro t ht
    obtain ⟨hheld, hne⟩ := heldBy_ends.mp ht
    obtain ⟨q, hq, hrest⟩ := h.held.owned t hheld
    exact ⟨q, (Function.update_of_ne hne ..).trans hq, hrest⟩

theorem orderly_step (e : Event) (h : Orderly w) : Orderly (step w e) := by
  cases e with
  | boot p =>
    unfold step
    dsimp only
    split
    · rename_i hstage
      exact orderly_same h (fun hask => by rw [hstage] at hask; exact hask) (fun s hs => by cases hs)
    · exact h
  | connect p =>
    unfold step
    dsimp only
    split
    · exact h
    · exact h
    · exact orderly_connect h
  | ask p s reached answered =>
    unfold step
    dsimp only
    split
    · rename_i hstage
      split
      · rename_i hown
        split
        · exact orderly_ask answered h hstage hown
        · exact orderly_same h (fun _ => trivial) (fun t ht => by cases ht)
      · exact h
    · exact h
  | bail p reached =>
    unfold step
    dsimp only
    split
    · exact orderly_same h (fun _ => trivial) (fun t ht => by cases ht)
    · exact orderly_drop reached h trivial rfl
    · exact h
  | start p jobs =>
    unfold step
    dsimp only
    split
    · rename_i hstage
      exact orderly_same h (fun _ => trivial) (fun t ht => by rw [hstage]; exact ht)
    · exact h
  | serve_fails p reached =>
    unfold step
    dsimp only
    split
    · exact orderly_drop reached h trivial rfl
    · exact h
  | loops p inner =>
    unfold step
    dsimp only
    split
    · exact @orderly_same w p ⟨_, _⟩ h id (fun t ht => ht)
    · exact h
  | stop p =>
    unfold step
    dsimp only
    split
    · rename_i hstage
      exact orderly_same h (fun _ => trivial) (fun t ht => by rw [hstage]; exact ht)
    · exact h
  | release p reached =>
    unfold step
    dsimp only
    split
    · split
      · exact h
      · exact orderly_drop reached h trivial rfl
    · exact h
  | exit p =>
    unfold step
    dsimp only
    split
    · exact orderly_same h (fun _ => trivial) (fun t ht => by cases ht)
    · exact orderly_same h (fun _ => trivial) (fun t ht => by cases ht)
    · exact h
  | killed p => exact orderly_same h (fun _ => trivial) (fun t ht => by cases ht)
  | ends s => exact orderly_ends s h

/-! ## Processes that do not poll any more -/

/-- The call starts no loops. -/
def Ends : scheduler.Caller → Prop
  | .idle | .joining _ none | .stopped none => True
  | .joining _ (some _) | .stopped (some _) | .starting .. => False

/-- No loop is there, or the flag is up for good. -/
def Still (s : Supervisor) : Prop :=
  (s.tasks = [] ∧ at_rest s = true) ∨ (s.shutdown = true ∧ Ends s.caller)

theorem still_on_task {s : Supervisor} (id : Nat) (f : scheduler.LoopTask → scheduler.LoopTask)
    (h : Still s) : Still (s.on_task id f) := by
  rcases h with ⟨htasks, hrest⟩ | hup
  · refine Or.inl ⟨?_, hrest⟩
    exact (congrArg (fun tasks => List.modify tasks id f) htasks).trans
      (List.modify_nil ..)
  · exact Or.inr hup

theorem still_step {s : Supervisor} {e : scheduler.Event} (hcall : ∀ next, e ≠ .call next)
    (h : Still s) : Still (s.step e) := by
  unfold Supervisor.step
  cases e with
  | call next => exact (hcall next rfl).elim
  | joined =>
    cases hc : s.caller with
    | joining handles next =>
      dsimp only
      split
      · rcases h with ⟨-, hrest⟩ | ⟨hup, hends⟩
        · simp [at_rest, hc] at hrest
        · refine Or.inr ⟨hup, ?_⟩
          rw [hc] at hends
          cases next with
          | none => trivial
          | some jobs => exact hends
      · exact h
    | idle => exact h
    | stopped next => exact h
    | starting jobs spawned => exact h
  | timed_out =>
    cases hc : s.caller with
    | joining handles next =>
      rcases h with ⟨-, hrest⟩ | ⟨hup, hends⟩
      · simp [at_rest, hc] at hrest
      · refine Or.inr ⟨hup, ?_⟩
        rw [hc] at hends
        cases next with
        | none => trivial
        | some jobs => exact hends
    | idle => exact h
    | stopped next => exact h
    | starting jobs spawned => exact h
  | go_on =>
    cases hc : s.caller with
    | stopped next =>
      rcases h with ⟨-, hrest⟩ | ⟨hup, hends⟩
      · simp [at_rest, hc] at hrest
      · rw [hc] at hends
        cases next with
        | none => exact Or.inr ⟨hup, trivial⟩
        | some jobs => exact hends.elim
    | idle => exact h
    | joining handles next => exact h
    | starting jobs spawned => exact h
  | spawn =>
    cases hc : s.caller with
    | starting jobs spawned =>
      rcases h with ⟨-, hrest⟩ | ⟨-, hends⟩
      · simp [at_rest, hc] at hrest
      · rw [hc] at hends
        exact hends.elim
    | idle => exact h
    | joining handles next => exact h
    | stopped next => exact h
  | store =>
    cases hc : s.caller with
    | starting jobs spawned =>
      rcases h with ⟨-, hrest⟩ | ⟨-, hends⟩
      · simp [at_rest, hc] at hrest
      · rw [hc] at hends
        exact hends.elim
    | idle => exact h
    | joining handles next => exact h
    | stopped next => exact h
  | dropped =>
    cases hc : s.caller with
    | joining handles next =>
      rcases h with ⟨-, hrest⟩ | ⟨hup, -⟩
      · simp [at_rest, hc] at hrest
      · exact Or.inr ⟨hup, trivial⟩
    | idle => exact h
    | stopped next => exact h
    | starting jobs spawned => exact h
  | task id answer => exact still_on_task id _ h
  | taken id => exact still_on_task id _ h

theorem still_stop_watchers {s : Supervisor} (h : at_rest s = true) : Still (stop_watchers s) := by
  unfold stop_watchers
  rw [if_pos h]
  unfold at_rest at h
  unfold Supervisor.step
  cases hc : s.caller with
  | idle =>
    refine Or.inr ⟨rfl, ?_⟩
    dsimp only
    split <;> trivial
  | joining handles next =>
    rw [hc] at h
    cases h
  | stopped next =>
    rw [hc] at h
    cases h
  | starting jobs spawned =>
    rw [hc] at h
    cases h

theorem no_turn_of_still {s : Supervisor} (h : Still s) (e : scheduler.Event) (id : Nat) :
    ¬ s.begins_turn e id := by
  rintro ⟨answer, task, -, htask, -, hflag⟩
  rcases h with ⟨htasks, -⟩ | ⟨hup, -⟩
  · rw [htasks] at htask
    cases htask
  · rw [hup] at hflag
    cases hflag

/-! ## One process at a time -/

/-- No session ends while its process relies on the lease, no HTTP server fails, and no call that
replaces the loops is under way when they are stopped. -/
def Careful (w : World) : Event → Prop
  | .ends session => ∀ p, (w.procs p).stage ≠ .leased session ∧ (w.procs p).stage ≠ .serving session
  | .serve_fails _ _ => False
  | .stop p => at_rest (w.procs p).supervisor = true
  | _ => True

/-- The process relies on the lease of the session. -/
def Stage.Relies (stage : Stage) (session : Nat) : Prop :=
  stage = .leased session ∨ stage = .serving session

/-- Whoever relies on the lease has it, and the loops of the others are still. -/
structure Leased (w : World) : Prop where
  leased : ∀ p s, (w.procs p).stage.Relies s → w.lock.HeldBy s ∧ w.owner s = some p
  still : ∀ p, (∀ s, (w.procs p).stage ≠ .serving s) → Still (w.procs p).supervisor
  served : ∀ p, (w.procs p).stage ≠ .failed

theorem leased_on {lock : Lock} (h : Leased w)
    (hkept : ∀ q s, q ≠ p → w.owner s = some q → w.lock.HeldBy s → lock.HeldBy s)
    (hleased : ∀ s, process.stage.Relies s → lock.HeldBy s ∧ w.owner s = some p)
    (hstill : (∀ s, process.stage ≠ .serving s) → Still process.supervisor)
    (hserved : process.stage ≠ .failed) :
    Leased ({ w with lock }.on p process) := by
  refine ⟨?_, ?_, ?_⟩
  · intro q s hs
    rw [procs_on] at hs
    split at hs
    · rename_i hq
      subst hq
      exact hleased s hs
    · rename_i hq
      obtain ⟨hheld, hown⟩ := h.leased q s hs
      exact ⟨hkept q s hq hown hheld, hown⟩
  · intro q hq
    rw [procs_on] at hq ⊢
    split at hq
    · rename_i heq
      rw [if_pos heq]
      exact hstill hq
    · rename_i heq
      rw [if_neg heq]
      exact h.still q hq
  · intro q
    rw [procs_on]
    split
    · exact hserved
    · exact h.served q

/-- A process that does not rely on a lease changes nothing for the others. -/
theorem leased_out (h : Leased w) (hout : ∀ s, ¬ process.stage.Relies s)
    (hstill : Still process.supervisor) (hserved : process.stage ≠ .failed) :
    Leased (w.on p process) :=
  leased_on h (fun _ _ _ _ hheld => hheld) (fun s hs => (hout s hs).elim) (fun _ => hstill) hserved

theorem leased_drop {s : Nat} (reached : Bool) (ho : Orderly w) (h : Leased w)
    (hsession : (w.procs p).stage.session = some s) (hout : ∀ s, ¬ process.stage.Relies s)
    (hstill : Still process.supervisor) (hserved : process.stage ≠ .failed) :
    Leased ((w.drop_lease s reached).on p process) := by
  refine leased_on h ?_ (fun s hs => (hout s hs).elim) (fun _ => hstill) hserved
  intro q t hq hown hheld
  cases reached with
  | true =>
    refine heldBy_unlock hheld ?_
    rintro rfl
    exact hq ((ho.named p t hsession).2 q hown)
  | false => exact hheld

theorem still_new : Still {} := Or.inl ⟨rfl, rfl⟩

theorem not_relies {stage : Stage} (h : stage.session = none) (s : Nat) : ¬ stage.Relies s := by
  rintro (rfl | rfl) <;> cases h

/-- Where the HTTP server is gone, the loops are not replaced. -/
theorem calls_stop {stage : Stage} (hnot : ∀ s, stage ≠ .serving s) (hserved : stage ≠ .failed)
    (next : Option (List Job)) : ¬ stage.allows (.call next) = true := by
  cases next with
  | none => exact Bool.false_ne_true
  | some jobs =>
    cases stage with
    | serving s => exact (hnot s rfl).elim
    | failed => exact (hserved rfl).elim
    | absent => exact Bool.false_ne_true
    | opened => exact Bool.false_ne_true
    | leased s => exact Bool.false_ne_true
    | draining s waits => exact Bool.false_ne_true
    | leaving => exact Bool.false_ne_true
    | gone => exact Bool.false_ne_true

theorem leased_step {e : Event} (ho : Orderly w) (h : Leased w) (hok : Careful w e) :
    Leased (step w e) := by
  cases e with
  | boot p =>
    unfold step
    dsimp only
    split
    · exact leased_out h (not_relies rfl) still_new (by simp)
    · exact h
  | connect p =>
    unfold step
    dsimp only
    split
    · exact h
    · exact h
    · refine ⟨fun q s hs => ?_, h.still, h.served⟩
      obtain ⟨hheld, hown⟩ := h.leased q s hs
      exact ⟨hheld, (Function.update_of_ne (Nat.ne_of_lt (ho.fresh s q hown)) ..).trans hown⟩
  | ask p s reached answered =>
    unfold step
    dsimp only
    split
    · split
      · rename_i hown
        split
        · refine leased_on h (fun _ _ _ _ hheld => heldBy_try_lock hheld) ?_ ?_ ?_
          · intro t ht
            dsimp only at ht
            split at ht
            · rename_i hlocked
              rw [Bool.and_eq_true] at hlocked
              rcases ht with ht | ht
              · obtain rfl := Stage.leased.inj ht
                exact ⟨heldBy_of_try_lock hlocked.1, hown⟩
              · cases ht
            · rcases ht with ht | ht <;> cases ht
          · exact fun _ => still_new
          · dsimp only
            split <;> simp
        · exact leased_out h (not_relies rfl) still_new (by simp)
      · exact h
    · exact h
  | bail p reached =>
    unfold step
    dsimp only
    split
    · exact leased_out h (not_relies rfl) still_new (by simp)
    · rename_i hstage
      exact leased_drop reached ho h (by rw [hstage]; rfl) (not_relies rfl) still_new (by simp)
    · exact h
  | start p jobs =>
    unfold step
    dsimp only
    split
    · rename_i s hstage
      refine leased_on h (fun _ _ _ _ hheld => hheld) ?_ (fun hnot => (hnot s rfl).elim) (by simp)
      rintro t (ht | ht)
      · cases ht
      · obtain rfl := Stage.serving.inj ht
        exact h.leased p s (Or.inl hstage)
    · exact h
  | serve_fails p reached => exact hok.elim
  | loops p inner =>
    unfold step
    dsimp only
    split
    · rename_i hallowed
      refine leased_on h (fun _ _ _ _ hheld => hheld) (fun s hs => h.leased p s hs) ?_ (h.served p)
      intro hnot
      refine still_step ?_ (h.still p hnot)
      rintro next rfl
      exact calls_stop hnot (h.served p) next hallowed
    · exact h
  | stop p =>
    unfold step
    dsimp only
    split
    · exact leased_out h (by rintro s (hs | hs) <;> cases hs) (still_stop_watchers hok) (by simp)
    · exact h
  | release p reached =>
    unfold step
    dsimp only
    split
    · rename_i hstage
      split
      · exact h
      · refine leased_drop reached ho h (by rw [hstage]; rfl) (not_relies rfl) (h.still p ?_) (by simp)
        intro s hs
        rw [hstage] at hs
        cases hs
    · exact h
  | exit p =>
    unfold step
    dsimp only
    split
    · exact leased_out h (not_relies rfl) still_new (by simp)
    · exact leased_out h (not_relies rfl) still_new (by simp)
    · exact h
  | killed p => exact leased_out h (not_relies rfl) still_new (by simp)
  | ends s =>
    refine ⟨?_, h.still, h.served⟩
    intro p t ht
    obtain ⟨hheld, hown⟩ := h.leased p t ht
    have hne : t ≠ s := by
      rintro rfl
      rcases ht with ht | ht
      · exact (hok p).1 ht
      · exact (hok p).2 ht
    exact ⟨heldBy_ends.mpr ⟨hheld, hne⟩, (Function.update_of_ne hne ..).trans hown⟩

theorem orderly_start : Orderly {} := by
  refine ⟨?_, ?_, ⟨?_, ?_⟩⟩
  · intro s q h
    cases h
  · intro p s h
    cases h
  · intro t more h
    cases h
  · rintro t ⟨more, h⟩
    cases h

theorem leased_start : Leased {} := by
  refine ⟨?_, fun _ _ => still_new, ?_⟩
  · rintro p s (h | h) <;> cases h
  · intro p h
    cases h

/-- In every state of a careful run, a process in which a loop can begin a turn serves under the
lease, on an open session of its own that holds the lock, and the loops of every other process are
still. -/
theorem one_process_polls_at_a_time {events : List Event} (h : Along step Careful {} events)
    {e : Event} {p : Nat} (hturn : (run step {} events).begins_turn e p) :
    (∃ s, ((run step {} events).procs p).stage = .serving s ∧
      (run step {} events).lock.HeldBy s ∧ (run step {} events).owner s = some p) ∧
    ∀ q, q ≠ p → Still ((run step {} events).procs q).supervisor := by
  have hkeep : ∀ w e, Orderly w ∧ Leased w → Careful w e →
      Orderly (step w e) ∧ Leased (step w e) :=
    fun w e hw hok => ⟨orderly_step e hw.1, leased_step hw.1 hw.2 hok⟩
  have hleased : Leased (run step {} events) :=
    (along_keeps hkeep ⟨orderly_start, leased_start⟩ h).2
  obtain ⟨inner, id, -, -, hinner⟩ := hturn
  have hserves : ∃ s, ((run step {} events).procs p).stage = .serving s := by
    by_contra hnot
    rw [not_exists] at hnot
    exact no_turn_of_still (hleased.still p hnot) inner id hinner
  obtain ⟨s, hs⟩ := hserves
  obtain ⟨hheld, hown⟩ := hleased.leased p s (Or.inr hs)
  refine ⟨⟨s, hs, hheld, hown⟩, ?_⟩
  intro q hq
  refine hleased.still q ?_
  intro t ht
  obtain ⟨hheld', hown'⟩ := hleased.leased q t (Or.inr ht)
  obtain rfl := heldBy_unique hheld hheld'
  exact hq (Option.some.inj (hown'.symm.trans hown))

/-- A process gets the lease, and its one loop comes to the head of its first turn. -/
def polls (p session : Nat) : List Event :=
  [.boot p, .connect p, .ask p session true true, .start p [.poll Supervisor.every_second],
    .loops p .go_on, .loops p .spawn, .loops p .store, .loops p (.task 0 ⟨.ok, 0⟩)]

def turn (p : Nat) : Event := .loops p (.task 0 ⟨.ok, 0⟩)

/-- The loops that a process has, by where they are; none where they may not begin a turn. -/
def ready (w : World) (p : Nat) : List scheduler.Phase :=
  if (w.procs p).stage.running && !(w.procs p).supervisor.shutdown then
    (w.procs p).supervisor.tasks.map scheduler.LoopTask.phase
  else []

theorem begins_turn_of_ready (h : ready w p = [.head]) :
    w.begins_turn (turn p) p := by
  unfold ready at h
  split at h
  · rename_i hready
    rw [Bool.and_eq_true, Bool.not_eq_true'] at hready
    obtain ⟨task, htasks, hhead⟩ := List.map_eq_singleton_iff.mp h
    exact ⟨_, 0, rfl, hready.1, ⟨.ok, 0⟩, task, rfl, by rw [htasks]; rfl, hhead, hready.2⟩
  · cases h

/-- The first process polls, and the second is refused. -/
def refused : List Event := polls 0 0 ++ [.boot 1, .connect 1, .ask 1 1 true true]

theorem one_process_polls_at_a_time_here :
    (∃ s, ((run step {} refused).procs 0).stage = .serving s ∧
      (run step {} refused).lock.HeldBy s ∧ (run step {} refused).owner s = some 0) ∧
    ∀ q, q ≠ 0 → Still ((run step {} refused).procs q).supervisor :=
  one_process_polls_at_a_time (by repeat' constructor) (begins_turn_of_ready (by decide +kernel))

/-- What an attempt comes to where the server carries it out and the process hears of it. -/
theorem asked {s : Nat} (hstage : (w.procs p).stage = .opened) (hown : w.owner s = some p) :
    ((step w (.ask p s true true)).procs p).stage =
      if (w.lock.try_lock s).1 then .leased s else .leaving := by
  simp [step, hstage, hown, procs_on]

/-- In every state of every run: a process that asks for the lease and hears the answer gets it
exactly when no open session of another process holds the lock. -/
theorem the_lease_is_refused_for_another_process (events : List Event) {p s : Nat}
    (hstage : ((run step {} events).procs p).stage = .opened)
    (hown : (run step {} events).owner s = some p) :
    ((step (run step {} events) (.ask p s true true)).procs p).stage = .leased s ↔
      ∀ q t, q ≠ p → (run step {} events).owner t = some q →
        ¬ (run step {} events).lock.HeldBy t := by
  have ho : Orderly (run step {} events) :=
    run_keeps (fun w e => orderly_step e) orderly_start events
  have hlocked : ((step (run step {} events) (.ask p s true true)).procs p).stage = .leased s ↔
      ((run step {} events).lock.try_lock s).1 = true := by
    rw [asked hstage hown]
    split <;> simp_all
  rw [hlocked, try_lock_iff]
  constructor
  · intro h q t hq ht hheld
    obtain rfl := h t hheld
    exact hq (Option.some.inj (ht.symm.trans hown))
  · intro h t hheld
    obtain ⟨q, hq, hask, -⟩ := ho.held.owned t hheld
    refine (h q t ?_ hq hheld).elim
    rintro rfl
    rw [hstage] at hask
    exact hask

/-- The first process polls, and the second has not asked yet. -/
def before_asking : List Event := polls 0 0 ++ [.boot 1, .connect 1]

theorem the_lease_is_refused_for_another_process_here :
    ((step (run step {} before_asking) (.ask 1 1 true true)).procs 1).stage = .leased 1 ↔
      ∀ q t, q ≠ 1 → (run step {} before_asking).owner t = some q →
        ¬ (run step {} before_asking).lock.HeldBy t :=
  the_lease_is_refused_for_another_process before_asking (by decide +kernel) (by decide +kernel)

/-! ## Processes that are done with the lease -/

/-- What an event can change: one process and the lock, which is taken only on a session of a
process that asks; a session is opened, or ends. -/
inductive Changes (w : World) : World → Prop where
  | same : Changes w w
  | on (p : Nat) (process : Process) (lock : Lock)
      (hasked : Asked (w.procs p).stage → Asked process.stage)
      (htaken : ∀ t, lock.HeldBy t →
        w.lock.HeldBy t ∨ (w.procs p).stage = .opened ∧ w.owner t = some p) :
      Changes w ({ w with lock }.on p process)
  | opens (p : Nat) :
      Changes w { w with
        opened := w.opened + 1, owner := Function.update w.owner w.opened (some p) }
  | ends (s : Nat) :
      Changes w { w with lock := w.lock.ends s, owner := Function.update w.owner s none }

theorem changes_on (p : Nat) (hasked : Asked (w.procs p).stage → Asked process.stage) :
    Changes w (w.on p process) :=
  .on p process w.lock hasked (fun _ => Or.inl)

theorem changes_drop (p s : Nat) (reached : Bool) (hasked : Asked process.stage) :
    Changes w ((w.drop_lease s reached).on p process) := by
  refine .on p process _ (fun _ => hasked) (fun t ht => Or.inl ?_)
  cases reached with
  | true => exact heldBy_of_unlock ht
  | false => exact ht

theorem step_changes (w : World) (e : Event) : Changes w (step w e) := by
  cases e with
  | boot p =>
    unfold step
    dsimp only
    split
    · rename_i hstage
      exact changes_on p (fun hask => by rw [hstage] at hask; exact hask)
    · exact .same
  | connect p =>
    unfold step
    dsimp only
    split
    · exact .same
    · exact .same
    · exact .opens p
  | ask p s reached answered =>
    unfold step
    dsimp only
    split
    · rename_i hstage
      split
      · rename_i hown
        split
        · refine .on p _ _ (fun hask => by rw [hstage] at hask; exact hask.elim) (fun t ht => ?_)
          rcases heldBy_try_lock_cases ht with hold | rfl
          · exact Or.inl hold
          · exact Or.inr ⟨hstage, hown⟩
        · exact changes_on p (fun _ => trivial)
      · exact .same
    · exact .same
  | bail p reached =>
    unfold step
    dsimp only
    split
    · exact changes_on p (fun _ => trivial)
    · exact changes_drop p _ reached trivial
    · exact .same
  | start p jobs =>
    unfold step
    dsimp only
    split
    · exact changes_on p (fun _ => trivial)
    · exact .same
  | serve_fails p reached =>
    unfold step
    dsimp only
    split
    · exact changes_drop p _ reached trivial
    · exact .same
  | loops p inner =>
    unfold step
    dsimp only
    split
    · exact changes_on p id
    · exact .same
  | stop p =>
    unfold step
    dsimp only
    split
    · exact changes_on p (fun _ => trivial)
    · exact .same
  | release p reached =>
    unfold step
    dsimp only
    split
    · split
      · exact .same
      · exact changes_drop p _ reached trivial
    · exact .same
  | exit p =>
    unfold step
    dsimp only
    split
    · exact changes_on p (fun _ => trivial)
    · exact changes_on p (fun _ => trivial)
    · exact .same
  | killed p => exact changes_on p (fun _ => trivial)
  | ends s => exact .ends s

/-- The process has asked, and holds the lock on none of its sessions. -/
structure Done (w : World) (p : Nat) : Prop where
  asked : Asked (w.procs p).stage
  free : ∀ t, w.owner t = some p → ¬ w.lock.HeldBy t

theorem done_changes {w' : World} (ho : Orderly w) (h : Done w p) (hchange : Changes w w') :
    Done w' p := by
  cases hchange with
  | same => exact h
  | on q process lock hasked htaken =>
    refine ⟨?_, ?_⟩
    · rw [procs_on]
      split
      · rename_i heq
        subst heq
        exact hasked h.asked
      · exact h.asked
    · intro t ht hheld
      rcases htaken t hheld with hold | ⟨hstage, hown⟩
      · exact h.free t ht hold
      · obtain rfl := Option.some.inj (hown.symm.trans ht)
        have hask := h.asked
        rw [hstage] at hask
        exact hask
  | opens q =>
    refine ⟨h.asked, ?_⟩
    intro t ht hheld
    obtain ⟨r, hr, -⟩ := ho.held.owned t hheld
    have hne : t ≠ w.opened := Nat.ne_of_lt (ho.fresh t r hr)
    exact h.free t ((Function.update_of_ne hne ..).symm.trans ht) hheld
  | ends s =>
    refine ⟨h.asked, ?_⟩
    intro t ht hheld
    obtain ⟨hold, hne⟩ := heldBy_ends.mp hheld
    exact h.free t ((Function.update_of_ne hne ..).symm.trans ht) hold

/-- In every run: a process that drops its lease at the end of `serve`, and is heard by the server,
holds the lock on none of its sessions from then on. -/
theorem a_stopped_process_lets_go (events later : List Event) {p s : Nat} {waits : Bool}
    (hstage : ((run step {} events).procs p).stage = .draining s waits)
    (hreturned : waits = true → at_rest ((run step {} events).procs p).supervisor = true) :
    ∀ t, (run step {} (events ++ .release p true :: later)).owner t = some p →
      ¬ (run step {} (events ++ .release p true :: later)).lock.HeldBy t := by
  have ho : Orderly (run step {} events) :=
    run_keeps (fun w e => orderly_step e) orderly_start events
  have hrelease : step (run step {} events) (.release p true) =
      ((run step {} events).drop_lease s true).on p
        ⟨.leaving, ((run step {} events).procs p).supervisor⟩ := by
    simp only [step, hstage]
    cases waits with
    | true => rw [hreturned rfl]; rfl
    | false => rfl
  have hdone : Done (step (run step {} events) (.release p true)) p := by
    rw [hrelease]
    refine ⟨by rw [procs_on, if_pos rfl]; trivial, ?_⟩
    intro t ht hheld
    have hold : (run step {} events).lock.HeldBy t := heldBy_of_unlock hheld
    obtain ⟨q, hq, -, hsession⟩ := ho.held.owned t hold
    obtain rfl := Option.some.inj (hq.symm.trans ht)
    obtain rfl := hsession s (by rw [hstage]; rfl)
    exact not_heldBy_unlock ho.held.once hheld
  have hkeep : ∀ w e, Orderly w ∧ Done w p → Orderly (step w e) ∧ Done (step w e) p :=
    fun w e hw => ⟨orderly_step e hw.1, done_changes hw.1 hw.2 (step_changes w e)⟩
  rw [run_append, run_cons]
  exact (run_keeps hkeep ⟨orderly_step _ ho, hdone⟩ later).2.free

/-- The first process stops, and gives up waiting for its loop. -/
def drained : List Event := polls 0 0 ++ [.stop 0, .loops 0 .timed_out, .loops 0 .go_on]

/-- The next process takes over. -/
theorem a_stopped_process_lets_go_here :
    (run step {} (drained ++ .release 0 true :: polls 1 1)).begins_turn (turn 1) 1 ∧
      ¬ (run step {} (drained ++ .release 0 true :: polls 1 1)).lock.HeldBy 0 :=
  ⟨begins_turn_of_ready (by decide +kernel),
    a_stopped_process_lets_go drained (polls 1 1) (show _ = Stage.draining 0 true by decide +kernel)
      (fun _ => by decide +kernel) 0 (by decide +kernel)⟩

end xrelease.sole_poller
