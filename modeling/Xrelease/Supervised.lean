-- The laws of the polling loops: who may begin a turn while lists of watches are replaced, how
-- soon a stop is noticed, and how long a loop rests between its turns.
import Xrelease.Loops

namespace xrelease.scheduler

open trace xrelease.config

/-! ## Tasks that are done with -/

/-- Every pause of the job is one. -/
def Job.Paced : Job → Prop
  | .poll watch => 0 < watch.interval
  | .sweep interval => 0 < interval

structure LoopTask.Paced (task : LoopTask) : Prop where
  job : task.job.Paced
  backoff : INITIAL_BACKOFF ≤ task.backoff

/-- An aborted task that does not come to the head of its loop again. -/
def Caught : Phase → Prop
  | .spawned | .asleep .. | .turn => True
  | .check left _ => 0 < left
  | .head | .ended => False

/-- The task begins no turn any more, whatever the flag reads. -/
def Spent (task : LoopTask) : Prop :=
  task.phase = .ended ∨ task.aborted = true ∧ Caught task.phase

theorem pause_pos {job : Job} {backoff : Nat} (answer : Answer) (hjob : job.Paced)
    (hback : INITIAL_BACKOFF ≤ backoff) : 0 < (pause job backoff answer).1 := by
  have hpos : 0 < INITIAL_BACKOFF := by decide
  cases job with
  | poll watch =>
    have : 0 < watch.interval := hjob
    unfold pause
    dsimp only
    split
    · exact lt_of_lt_of_le hpos hback
    · dsimp only
      omega
  | sweep interval =>
    have : 0 < interval := hjob
    unfold pause
    dsimp only
    omega

theorem paced_step {task : LoopTask} (stop : Bool) (answer : Answer) (h : task.Paced) :
    (task.step stop answer).Paced := by
  obtain ⟨hjob, hback⟩ := h
  have hmax : INITIAL_BACKOFF ≤ MAX_BACKOFF := by decide
  unfold LoopTask.step
  split
  · split
    · exact ⟨hjob, hback⟩
    · split <;> exact ⟨hjob, hback⟩
  · split
    · exact ⟨hjob, hback⟩
    · split
      · exact ⟨hjob, hback⟩
      · split
        · exact ⟨hjob, le_min (by omega) hmax⟩
        · exact ⟨hjob, hback⟩
  · split <;> exact ⟨hjob, hback⟩
  · exact ⟨hjob, hback⟩
  · split
    · exact ⟨hjob, hback⟩
    · refine ⟨hjob, ?_⟩
      dsimp only
      split
      · exact hback
      · exact le_refl _
  · exact ⟨hjob, hback⟩

@[simp] theorem job_step (task : LoopTask) (stop : Bool) (answer : Answer) :
    (task.step stop answer).job = task.job := by
  unfold LoopTask.step
  split <;> (try split) <;> (try split) <;> (try split) <;> rfl

theorem spent_step {task : LoopTask} (stop : Bool) (answer : Answer) (hpaced : task.Paced)
    (h : Spent task) : Spent (task.step stop answer) := by
  rcases h with hend | ⟨habort, hcaught⟩
  · left
    simp [LoopTask.step, hend]
  · unfold LoopTask.step
    cases hphase : task.phase with
    | spawned => left; simp [habort]
    | check left after =>
      rw [hphase] at hcaught
      have hleft : 0 < left := hcaught
      dsimp only
      split
      · left; rfl
      · exact Or.inr ⟨habort, trivial⟩
    | asleep left after => left; simp [habort]
    | head => rw [hphase] at hcaught; exact hcaught.elim
    | turn =>
      dsimp only
      split
      · left; rfl
      · exact Or.inr ⟨habort, pause_pos answer hpaced.job hpaced.backoff⟩
    | ended => rw [hphase] at hcaught; exact hcaught.elim

theorem spent_take {task : LoopTask} (h : Spent task) : Spent (Supervisor.take task) := by
  unfold Supervisor.take
  split
  · left; rfl
  · exact h

theorem not_head_of_spent {task : LoopTask} (h : Spent task) : task.phase ≠ .head := by
  intro hhead
  rcases h with hend | ⟨-, hcaught⟩
  · rw [hhead] at hend
    cases hend
  · rw [hhead] at hcaught
    exact hcaught

/-! ## What every careful event keeps -/

namespace Supervisor

/-- The supervisor holds the handle of the task, or a call of it waits for the task or has just
spawned it. -/
def Watched (s : Supervisor) (id : Nat) : Prop :=
  id ∈ s.watchers ∨ id ∈ s.caller.handles ∨ id ∈ s.caller.spawned

/-- No call is dropped while it waits. Whatever outlasts the drain does so where it is suspended,
as in a turn: no task is, for all that time, between two awaits. The loops have pauses. -/
def Careful (s : Supervisor) : Event → Prop
  | .dropped => False
  | .timed_out => ∀ id ∈ s.caller.handles, ∀ task, s.tasks[id]? = some task →
      task.phase = .ended ∨ task.phase.suspended = true
  | .call next => ∀ job ∈ next.getD [], job.Paced
  | _ => True

/-- A task that is not watched is done with, and the flag is up while a call waits for tasks. -/
structure Orderly (s : Supervisor) : Prop where
  spent : ∀ id task, s.tasks[id]? = some task → ¬ s.Watched id → Spent task
  paced : ∀ task ∈ s.tasks, task.Paced
  flagged : s.caller.handles ≠ [] → s.shutdown = true
  given_up : s.caller ≠ .idle → s.watchers = []
  pending : ∀ job ∈ s.caller.next, job.Paced

theorem caught_of_suspended {phase : Phase} (h : phase.suspended = true) : Caught phase := by
  cases phase <;> first | exact trivial | cases h

variable {s : Supervisor}

theorem orderly_on_task (id : Nat) {f : LoopTask → LoopTask}
    (hspent : ∀ task, task.Paced → Spent task → Spent (f task))
    (hpaced : ∀ task : LoopTask, task.Paced → (f task).Paced) (h : Orderly s) :
    Orderly (s.on_task id f) := by
  refine ⟨?_, ?_, h.flagged, h.given_up, h.pending⟩
  · intro j task hj hnot
    rw [on_task, List.getElem?_modify] at hj
    obtain ⟨old, hold, rfl⟩ := Option.map_eq_some_iff.mp hj
    have hsp := h.spent j old hold hnot
    split
    · exact hspent old (h.paced old (List.mem_of_getElem? hold)) hsp
    · exact hsp
  · intro task htask
    obtain ⟨j, hj⟩ := List.mem_iff_getElem?.mp htask
    rw [on_task, List.getElem?_modify] at hj
    obtain ⟨old, hold, rfl⟩ := Option.map_eq_some_iff.mp hj
    have hp := h.paced old (List.mem_of_getElem? hold)
    split
    · exact hpaced old hp
    · exact hp

theorem paced_take {task : LoopTask} (h : task.Paced) : (take task).Paced := by
  unfold take
  split
  · exact ⟨h.job, h.backoff⟩
  · exact h

/-- Tasks that have ended, or are aborted where they are suspended, need no watching. -/
theorem orderly_stopped {tasks : List LoopTask} {handles : List Nat} {next : Option (List Job)}
    (hc : s.caller = .joining handles next)
    (hgone : ∀ id ∈ handles, ∀ task, tasks[id]? = some task → Spent task)
    (hother : ∀ id, id ∉ handles → tasks[id]? = s.tasks[id]?) (hpaced : ∀ task ∈ tasks, task.Paced)
    (h : Orderly s) :
    Orderly { s with tasks := tasks, caller := .stopped next } := by
  have hwatchers : s.watchers = [] := h.given_up (by rw [hc]; exact Caller.noConfusion)
  refine ⟨?_, hpaced, fun hne => absurd rfl hne, fun _ => hwatchers, ?_⟩
  · intro id task htask _
    by_cases hid : id ∈ handles
    · exact hgone id hid task htask
    · refine h.spent id task ((hother id hid).symm.trans htask) ?_
      rintro (hin | hin | hin)
      · rw [hwatchers] at hin
        cases hin
      · rw [hc] at hin
        exact hid hin
      · rw [hc] at hin
        cases hin
  · have hp := h.pending
    rw [hc] at hp
    exact hp

theorem getElem?_abort (handles : List Nat) (tasks : List LoopTask) (id : Nat) :
    (abort handles tasks)[id]? =
      tasks[id]?.map (fun task => if id ∈ handles then { task with aborted := true } else task) :=
  List.getElem?_mapIdx ..

theorem orderly_step {e : Event} (h : Orderly s) (hcareful : Careful s e) :
    Orderly (s.step e) := by
  cases e with
  | call next =>
    unfold step
    cases hc : s.caller with
    | idle =>
      dsimp only
      refine ⟨?_, h.paced, fun _ => rfl, fun _ => rfl, ?_⟩
      · intro id task htask hnot
        refine h.spent id task htask ?_
        rintro (hin | hin | hin)
        · apply hnot
          right
          left
          dsimp only
          rw [if_neg (List.ne_nil_of_mem hin)]
          exact hin
        · rw [hc] at hin
          cases hin
        · rw [hc] at hin
          cases hin
      · dsimp only
        split <;> exact hcareful
    | joining handles next' => exact h
    | stopped next' => exact h
    | starting jobs spawned => exact h
  | joined =>
    unfold step
    cases hc : s.caller with
    | joining handles next =>
      dsimp only
      split
      · rename_i hall
        refine orderly_stopped hc ?_ (fun _ _ => rfl) h.paced h
        intro id hid task htask
        have hid' := List.all_eq_true.mp hall id hid
        rw [htask] at hid'
        exact Or.inl (by simpa using hid')
      · exact h
    | idle => exact h
    | stopped next => exact h
    | starting jobs spawned => exact h
  | timed_out =>
    unfold step
    cases hc : s.caller with
    | joining handles next =>
      dsimp only
      refine orderly_stopped hc ?_ ?_ ?_ h
      · intro id hid task htask
        rw [getElem?_abort] at htask
        obtain ⟨old, hold, rfl⟩ := Option.map_eq_some_iff.mp htask
        rw [if_pos hid]
        have hin : id ∈ s.caller.handles := by rw [hc]; exact hid
        rcases hcareful id hin old hold with hend | hsus
        · exact Or.inl hend
        · exact Or.inr ⟨rfl, caught_of_suspended hsus⟩
      · intro id hid
        rw [getElem?_abort]
        simp [hid]
      · intro task htask
        obtain ⟨j, hj⟩ := List.mem_iff_getElem?.mp htask
        rw [getElem?_abort] at hj
        obtain ⟨old, hold, rfl⟩ := Option.map_eq_some_iff.mp hj
        have hp := h.paced old (List.mem_of_getElem? hold)
        split
        · exact ⟨hp.job, hp.backoff⟩
        · exact hp
    | idle => exact h
    | stopped next => exact h
    | starting jobs spawned => exact h
  | go_on =>
    unfold step
    have hp := h.pending
    have hg := h.given_up
    cases hc : s.caller with
    | stopped next =>
      rw [hc] at hp
      have hwatchers := hg (by rw [hc]; exact Caller.noConfusion)
      have hspent : ∀ (id : Nat) task, s.tasks[id]? = some task → Spent task := by
        intro id task htask
        refine h.spent id task htask ?_
        rintro (hin | hin | hin)
        · rw [hwatchers] at hin
          cases hin
        · rw [hc] at hin
          cases hin
        · rw [hc] at hin
          cases hin
      cases next with
      | none =>
        exact ⟨fun id task ht _ => hspent id task ht, h.paced, fun hne => absurd rfl hne,
          fun hne => absurd rfl hne, fun job hj => (by cases hj)⟩
      | some jobs =>
        exact ⟨fun id task ht _ => hspent id task ht, h.paced, fun hne => absurd rfl hne,
          fun _ => hwatchers, hp⟩
    | idle => exact h
    | joining handles next => exact h
    | starting jobs spawned => exact h
  | spawn =>
    unfold step
    have hp := h.pending
    have hg := h.given_up
    cases hc : s.caller with
    | starting jobs spawned =>
      rw [hc] at hp
      have hwatchers := hg (by rw [hc]; exact Caller.noConfusion)
      cases jobs with
      | nil => exact h
      | cons job rest =>
        refine ⟨?_, ?_, fun hne => absurd rfl hne, fun _ => hwatchers,
          fun other hother => hp other (List.mem_cons_of_mem _ hother)⟩
        · intro id task htask hnot
          -- the new task is among those that the call has spawned
          have hnew : id ≠ s.tasks.length := by
            rintro rfl
            exact hnot (Or.inr (Or.inr (List.mem_append_right _ (List.mem_singleton_self _))))
          have hlt := (List.getElem?_eq_some_iff.mp htask).1
          rw [List.length_append, List.length_singleton] at hlt
          rw [List.getElem?_append_left (by omega)] at htask
          refine h.spent id task htask ?_
          rintro (hin | hin | hin)
          · rw [hwatchers] at hin
            cases hin
          · rw [hc] at hin
            cases hin
          · rw [hc] at hin
            exact hnot (Or.inr (Or.inr (List.mem_append_left _ hin)))
        · intro task htask
          rcases List.mem_append.mp htask with hin | hin
          · exact h.paced task hin
          · rw [List.mem_singleton.mp hin]
            exact ⟨hp job List.mem_cons_self, le_refl _⟩
    | idle => exact h
    | joining handles next => exact h
    | stopped next => exact h
  | store =>
    unfold step
    cases hc : s.caller with
    | starting jobs spawned =>
      cases jobs with
      | nil =>
        refine ⟨?_, h.paced, fun hne => absurd rfl hne, fun hne => absurd rfl hne,
          fun job hj => (by cases hj)⟩
        intro id task htask hnot
        refine h.spent id task htask ?_
        have hwatchers := h.given_up (by rw [hc]; exact Caller.noConfusion)
        rintro (hin | hin | hin)
        · rw [hwatchers] at hin
          cases hin
        · rw [hc] at hin
          cases hin
        · rw [hc] at hin
          exact hnot (Or.inl hin)
      | cons job rest => exact h
    | idle => exact h
    | joining handles next => exact h
    | stopped next => exact h
  | dropped => exact hcareful.elim
  | task id answer =>
    exact orderly_on_task id (fun task hp hs => spent_step _ _ hp hs)
      (fun task hp => paced_step _ _ hp) h
  | taken id =>
    exact orderly_on_task id (fun task _ hs => spent_take hs) (fun task hp => paced_take hp) h

theorem orderly_start : Orderly {} := by
  refine ⟨?_, ?_, fun h => absurd rfl h, fun h => absurd rfl h, ?_⟩
  · intro id task h
    simp at h
  · intro task h
    cases h
  · intro job h
    cases h

/-! ## The loops of the list that was started last -/

/-- The supervisor, with the list that it began to start last. -/
def observe (p : Supervisor × List Job) (e : Event) : Supervisor × List Job :=
  (p.1.step e, match e, p.1.caller with
    | .go_on, .stopped (some jobs) => jobs
    | _, _ => p.2)

/-- The handles that the supervisor holds, and those that a call is about to give it. -/
def held (s : Supervisor) : List Nat := s.watchers ++ s.caller.spawned

/-- The jobs of the tasks whose handles are held. -/
def held_jobs (s : Supervisor) : List (Option Job) :=
  s.held.map (fun id => s.tasks[id]?.map LoopTask.job)

/-- The handles held are those of the list that was started last, one for each of its loops, as
far as they are spawned. -/
def HoldsLast (p : Supervisor × List Job) : Prop :=
  p.1.held = [] ∨ p.1.held.Nodup ∧
    held_jobs p.1 ++ p.1.caller.next.map some = p.2.map some

theorem held_jobs_on_task (s : Supervisor) (id : Nat) {f : LoopTask → LoopTask}
    (hf : ∀ task, (f task).job = task.job) : held_jobs (s.on_task id f) = held_jobs s := by
  unfold held_jobs on_task
  apply List.map_congr_left
  intro j _
  rw [List.getElem?_modify]
  cases s.tasks[j]? with
  | none => rfl
  | some task =>
    split
    · exact congrArg some (hf task)
    · rfl

theorem job_take (task : LoopTask) : (take task).job = task.job := by
  unfold take
  split <;> rfl

/-- What the record of the list relies on: the tasks of the handles are there, a call under way
has taken the handles over, and the loops of the list are spawned or to be spawned. -/
structure InStep (p : Supervisor × List Job) : Prop where
  there : ∀ id ∈ p.1.held, id < p.1.tasks.length
  given_up : p.1.caller ≠ .idle → p.1.watchers = []
  distinct : p.1.held.Nodup
  starting : ∀ jobs spawned, p.1.caller = .starting jobs spawned →
    held_jobs p.1 ++ jobs.map some = p.2.map some
  idle : p.1.caller = .idle → p.1.held = [] ∨ held_jobs p.1 = p.2.map some

theorem holdsLast_of_inStep {p : Supervisor × List Job} (h : InStep p) : HoldsLast p := by
  unfold HoldsLast
  cases hc : p.1.caller with
  | starting jobs spawned => exact Or.inr ⟨h.distinct, h.starting jobs spawned hc⟩
  | idle =>
    refine (h.idle hc).imp_right fun hjobs => ⟨h.distinct, ?_⟩
    exact (List.append_nil _).trans hjobs
  | joining handles next =>
    left
    unfold held
    rw [h.given_up (by rw [hc]; exact Caller.noConfusion), hc]
    rfl
  | stopped next =>
    left
    unfold held
    rw [h.given_up (by rw [hc]; exact Caller.noConfusion), hc]
    rfl

/-- The tasks keep their places and jobs, and the call goes on with its handles. -/
theorem inStep_tasks {p : Supervisor × List Job} (h : InStep p)
    (hwatchers : s.watchers = p.1.watchers) (hcaller : s.caller = p.1.caller)
    (hlength : s.tasks.length = p.1.tasks.length) (hjobs : held_jobs s = held_jobs p.1) :
    InStep (s, p.2) := by
  have hheld : s.held = p.1.held := by unfold held; rw [hwatchers, hcaller]
  refine ⟨?_, ?_, ?_, ?_, ?_⟩
  · intro id hid
    rw [hheld] at hid
    exact hlength ▸ h.there id hid
  · rw [hcaller, hwatchers]
    exact h.given_up
  · rw [hheld]
    exact h.distinct
  · intro jobs spawned hc
    rw [hjobs]
    exact h.starting jobs spawned (hcaller ▸ hc)
  · intro hc
    rw [hheld, hjobs]
    exact h.idle (hcaller ▸ hc)

/-- A call that has the handles, and starts nothing yet, leaves the supervisor without any. -/
theorem inStep_bare {last : List Job} (hwatchers : s.watchers = [])
    (hspawned : s.caller.spawned = []) (hcalm : ∀ jobs spawned, s.caller = .starting jobs spawned →
      jobs = last) : InStep (s, last) := by
  have hheld : s.held = [] := by unfold held; rw [hwatchers, hspawned]; rfl
  refine ⟨?_, fun _ => hwatchers, ?_, ?_, fun _ => Or.inl hheld⟩
  · intro id hid
    rw [hheld] at hid
    cases hid
  · rw [hheld]
    exact List.nodup_nil
  · intro jobs spawned hc
    unfold held_jobs
    rw [hheld, hcalm jobs spawned hc]
    rfl

theorem inStep_step {p : Supervisor × List Job} (e : Event) (h : InStep p) :
    InStep (observe p e) := by
  obtain ⟨s, last⟩ := p
  cases e with
  | call next =>
    unfold observe step
    dsimp only
    cases hc : s.caller with
    | idle =>
      refine inStep_bare rfl ?_ ?_
      · dsimp only
        split <;> rfl
      · intro jobs spawned hstart
        dsimp only at hstart
        split at hstart <;> cases hstart
    | _ => exact h
  | joined =>
    unfold observe step
    dsimp only
    cases hc : s.caller with
    | joining handles next =>
      have hwatchers := h.given_up (by rw [hc]; exact Caller.noConfusion)
      dsimp only
      split
      · exact inStep_bare hwatchers rfl (fun _ _ hstart => by cases hstart)
      · exact h
    | _ => exact h
  | timed_out =>
    unfold observe step
    dsimp only
    cases hc : s.caller with
    | joining handles next =>
      have hwatchers := h.given_up (by rw [hc]; exact Caller.noConfusion)
      exact inStep_bare hwatchers rfl (fun _ _ hstart => by cases hstart)
    | _ => exact h
  | go_on =>
    unfold observe step
    dsimp only
    cases hc : s.caller with
    | stopped next =>
      have hwatchers := h.given_up (by rw [hc]; exact Caller.noConfusion)
      cases next with
      | none => exact inStep_bare hwatchers rfl (fun _ _ hstart => by cases hstart)
      | some jobs => exact inStep_bare hwatchers rfl (fun _ _ hstart => by cases hstart; rfl)
    | _ => exact h
  | spawn =>
    unfold observe step
    dsimp only
    cases hc : s.caller with
    | starting jobs spawned =>
      cases jobs with
      | nil => exact h
      | cons job rest =>
        have hwatchers : s.watchers = [] := h.given_up (by rw [hc]; exact Caller.noConfusion)
        have hheld : s.held = spawned := by unfold held; rw [hwatchers, hc]; rfl
        have hthere : ∀ id ∈ spawned, id < s.tasks.length := fun id hid =>
          h.there id (by dsimp only; rw [hheld]; exact hid)
        have hjobs : held_jobs s ++ (job :: rest).map some = last.map some :=
          h.starting _ _ hc
        have hlast : held_jobs { s with
            tasks := s.tasks ++ [{ job }]
            caller := .starting rest (spawned ++ [s.tasks.length]) } =
            held_jobs s ++ [some job] := by
          unfold held_jobs
          rw [hheld]
          unfold held
          rw [hwatchers]
          simp only [Caller.spawned, List.nil_append, List.map_append, List.map_cons,
            List.map_nil, List.getElem?_concat_length, Option.map_some]
          congr 1
          apply List.map_congr_left
          intro id hid
          rw [List.getElem?_append_left (hthere id hid)]
        refine ⟨?_, fun _ => hwatchers, ?_, ?_, fun hidle => by cases hidle⟩
        · intro id hid
          unfold held at hid
          dsimp only [Caller.spawned] at hid ⊢
          rw [hwatchers, List.nil_append] at hid
          rw [List.length_append, List.length_singleton]
          rcases List.mem_append.mp hid with hin | hin
          · have := hthere id hin
            omega
          · rw [List.mem_singleton.mp hin]
            omega
        · unfold held
          dsimp only [Caller.spawned]
          rw [hwatchers, List.nil_append]
          have hdistinct : s.held.Nodup := h.distinct
          rw [hheld] at hdistinct
          refine List.Nodup.append hdistinct (List.nodup_singleton _) ?_
          intro id hin hnew
          rw [List.mem_singleton.mp hnew] at hin
          exact absurd (hthere _ hin) (lt_irrefl _)
        · intro jobs' spawned' hstart
          cases hstart
          rw [hlast, List.append_assoc]
          exact hjobs
    | _ => exact h
  | store =>
    unfold observe step
    dsimp only
    cases hc : s.caller with
    | starting jobs spawned =>
      cases jobs with
      | nil =>
        have hwatchers : s.watchers = [] := h.given_up (by rw [hc]; exact Caller.noConfusion)
        have hheld : s.held = spawned := by unfold held; rw [hwatchers, hc]; rfl
        have hsame : held { s with watchers := spawned, caller := .idle } = s.held := by
          rw [hheld]
          exact List.append_nil _
        have hjobs : held_jobs { s with watchers := spawned, caller := .idle } = held_jobs s := by
          unfold held_jobs
          rw [hsame]
        refine ⟨?_, fun hne => absurd rfl hne, ?_, fun _ _ hstart => (by cases hstart), ?_⟩
        · intro id hid
          rw [hsame] at hid
          exact h.there id hid
        · rw [hsame]
          exact h.distinct
        · intro _
          right
          rw [hjobs]
          exact (List.append_nil _).symm.trans (h.starting _ _ hc)
      | cons job rest => exact h
    | _ => exact h
  | dropped =>
    unfold observe step
    dsimp only
    cases hc : s.caller with
    | joining handles next =>
      have hwatchers := h.given_up (by rw [hc]; exact Caller.noConfusion)
      exact inStep_bare hwatchers rfl (fun _ _ hstart => by cases hstart)
    | _ => exact h
  | task id answer =>
    exact inStep_tasks h rfl rfl (List.length_modify ..)
      (held_jobs_on_task s id (fun task => job_step ..))
  | taken id =>
    exact inStep_tasks h rfl rfl (List.length_modify ..) (held_jobs_on_task s id job_take)

theorem inStep_start : InStep ({}, []) :=
  inStep_bare rfl rfl (fun _ _ hstart => by cases hstart)

/-- In every careful run: a turn begins only in a loop whose handle is held, by the supervisor
while no call is under way or by the call that has spawned the loop; and the handles held are
those of the list that was started last, each of its loops once, as far as they are spawned. -/
theorem only_the_last_list_takes_turns {events : List Event}
    (h : Along observe (fun p e => Careful p.1 e) ({}, []) events) :
    HoldsLast (run observe ({}, []) events) ∧
    ∀ e id, (run observe ({}, []) events).1.begins_turn e id →
      id ∈ (run observe ({}, []) events).1.watchers ∧
          (run observe ({}, []) events).1.caller = .idle ∨
        id ∈ (run observe ({}, []) events).1.caller.spawned := by
  have hkeep : ∀ (p : Supervisor × List Job) (e : Event), Orderly p.1 ∧ InStep p →
      Careful p.1 e → Orderly (observe p e).1 ∧ InStep (observe p e) :=
    fun p e hinv hok => ⟨orderly_step hinv.1 hok, inStep_step e hinv.2⟩
  have hboth : Orderly (run observe ({}, []) events).1 ∧ InStep (run observe ({}, []) events) :=
    along_keeps hkeep ⟨orderly_start, inStep_start⟩ h
  generalize run observe ({}, []) events = p at hboth
  obtain ⟨horderly, hinstep⟩ := hboth
  refine ⟨holdsLast_of_inStep hinstep, ?_⟩
  rintro e id ⟨answer, task, rfl, htask, hhead, hflag⟩
  have hwatched : p.1.Watched id := by
    by_contra hnot
    exact not_head_of_spent (horderly.spent id task htask hnot) hhead
  rcases hwatched with hin | hin | hin
  · refine Or.inl ⟨hin, ?_⟩
    by_contra hbusy
    rw [horderly.given_up hbusy] at hin
    cases hin
  · have hup := horderly.flagged (List.ne_nil_of_mem hin)
    rw [hflag] at hup
    cases hup
  · exact Or.inr hin

/-- A watch that polls as soon as it is spawned, and every second from then on. -/
def every_second : Watch where
  id := "ghcr:o/r"
  provider := .Image .Ghcr { image := "o/r" }
  interval := 1
  jitter := 0
  poll_on_startup := true
  filter := ⟨false, none, none, none, false⟩
  routing_tag := none
  notify_schedule := none
  organization_id := none

/-- The instance starts its one loop, which takes up a turn. -/
def started : List Event :=
  [.call (some [.poll every_second]), .go_on, .spawn, .store, .task 0 ⟨.ok, 0⟩,
    .task 0 ⟨.ok, 0⟩]

/-- A call puts a list of two in its place; the first loop of it is at the head of a turn when the
second is still to be spawned. -/
def replaced : List Event :=
  started ++ [.call (some [.poll every_second, .sweep 60]), .task 0 ⟨.ok, 0⟩, .task 0 ⟨.ok, 0⟩,
    .joined, .go_on, .spawn, .task 1 ⟨.ok, 0⟩]

theorem replaced_careful : Along observe (fun p e => Careful p.1 e) ({}, []) replaced := by
  have hpaced : (Job.poll every_second).Paced := (by decide : 0 < 1)
  refine ⟨?_, trivial, trivial, trivial, trivial, trivial, ?_, trivial, trivial, trivial, trivial,
    trivial, trivial, trivial⟩
  · intro job hjob
    obtain rfl := List.mem_singleton.mp hjob
    exact hpaced
  · rintro job (_ | ⟨_, hjob⟩)
    · exact hpaced
    · obtain rfl := List.mem_singleton.mp hjob
      exact (by decide : 0 < 60)

theorem only_the_last_list_takes_turns_here :
    (run observe ({}, []) replaced).1.begins_turn (.task 1 ⟨.ok, 0⟩) 1 ∧
    (run observe ({}, []) replaced).1.watchers = [] ∧
    HoldsLast (run observe ({}, []) replaced) ∧
    ∀ e id, (run observe ({}, []) replaced).1.begins_turn e id →
      id ∈ (run observe ({}, []) replaced).1.watchers ∧
          (run observe ({}, []) replaced).1.caller = .idle ∨
        id ∈ (run observe ({}, []) replaced).1.caller.spawned :=
  ⟨⟨⟨.ok, 0⟩, _, rfl, rfl, rfl, rfl⟩, rfl, only_the_last_list_takes_turns replaced_careful⟩

/-! ## A stop, and a call that is dropped -/

/-- The call has raised the flag and not lowered it. -/
def raised : Caller → Bool
  | .joining _ _ | .stopped _ => true
  | .idle | .starting _ _ => false

/-- What a call did to the flag is what it reads. -/
def Raised (s : Supervisor) : Prop := raised s.caller = true → s.shutdown = true

theorem raised_step {e : Event} (h : Raised s) : Raised (s.step e) := by
  intro hup
  cases e with
  | call next =>
    unfold step at hup ⊢
    cases hc : s.caller with
    | idle => rfl
    | _ => rw [hc] at hup; exact h hup
  | joined =>
    unfold step at hup ⊢
    cases hc : s.caller with
    | joining handles next =>
      have hflag : s.shutdown = true := h (by rw [hc]; rfl)
      dsimp only
      split <;> exact hflag
    | _ => rw [hc] at hup; exact h hup
  | timed_out =>
    unfold step at hup ⊢
    cases hc : s.caller with
    | joining handles next => exact h (by rw [hc]; rfl)
    | _ => rw [hc] at hup; exact h hup
  | go_on =>
    unfold step at hup ⊢
    cases hc : s.caller with
    | stopped next => rw [hc] at hup; cases next <;> cases hup
    | _ => rw [hc] at hup; exact h hup
  | spawn =>
    unfold step at hup ⊢
    cases hc : s.caller with
    | starting jobs spawned => cases jobs <;> (rw [hc] at hup; first | cases hup | exact h hup)
    | _ => rw [hc] at hup; exact h hup
  | store =>
    unfold step at hup ⊢
    cases hc : s.caller with
    | starting jobs spawned => cases jobs <;> (rw [hc] at hup; first | cases hup | exact h hup)
    | _ => rw [hc] at hup; exact h hup
  | dropped =>
    unfold step at hup ⊢
    cases hc : s.caller with
    | joining handles next => rw [hc] at hup; cases hup
    | _ => rw [hc] at hup; exact h hup
  | task id answer => exact h hup
  | taken id => exact h hup

/-- The flag is up and no call is under way. -/
def Still (s : Supervisor) : Prop := s.caller = .idle ∧ s.shutdown = true

theorem still_step {e : Event} (h : Still s) (hno : ∀ next, e ≠ .call next) :
    Still (s.step e) := by
  cases e with
  | call next => exact absurd rfl (hno next)
  | task id answer => exact h
  | taken id => exact h
  | _ =>
    unfold step
    rw [h.1]
    exact h

/-- How many steps a task takes at most until it has ended, while the flag is up. -/
def steps_left : Phase → Nat
  | .ended => 0
  | .check _ _ | .head => 1
  | .spawned | .asleep _ _ | .turn => 2

theorem steps_left_step (task : LoopTask) (answer : Answer) :
    steps_left (task.step true answer).phase ≤ steps_left task.phase - 1 := by
  unfold LoopTask.step
  cases hphase : task.phase with
  | spawned =>
    dsimp only
    split
    · exact Nat.zero_le _
    · split <;> exact le_refl _
  | check left after => exact le_refl _
  | asleep left after =>
    dsimp only
    split
    · exact Nat.zero_le _
    · exact le_refl _
  | head => exact le_refl _
  | turn =>
    dsimp only
    split
    · exact Nat.zero_le _
    · exact le_refl _
  | ended => simp [steps_left, hphase]

theorem steps_left_take (task : LoopTask) :
    steps_left (take task).phase ≤ steps_left task.phase := by
  unfold take
  split
  · exact Nat.zero_le _
  · exact le_refl _

/-- The steps that a task takes in some events. -/
def steps_of (id : Nat) (events : List Event) : Nat :=
  events.countP (fun e => match e with
    | .task j _ => j = id
    | _ => false)

theorem tasks_of_still {e : Event} (h : Still s) (hno : ∀ next, e ≠ .call next) {id : Nat}
    {task : LoopTask} (ht : s.tasks[id]? = some task) :
    ∃ task', (s.step e).tasks[id]? = some task' ∧
      steps_left task'.phase ≤ steps_left task.phase - steps_of id [e] := by
  cases e with
  | call next => exact absurd rfl (hno next)
  | task j answer =>
    simp only [step, on_task, List.getElem?_modify, ht]
    refine ⟨_, rfl, ?_⟩
    beta_reduce
    by_cases hj : j = id
    · rw [if_pos hj, h.2]
      simpa [steps_of, hj] using steps_left_step task answer
    · rw [if_neg hj]
      simp [steps_of, hj]
  | taken j =>
    simp only [step, on_task, List.getElem?_modify, ht]
    refine ⟨_, rfl, ?_⟩
    beta_reduce
    by_cases hj : j = id
    · rw [if_pos hj]
      simpa [steps_of] using steps_left_take task
    · rw [if_neg hj]
      simp [steps_of]
  | _ =>
    unfold step
    rw [h.1]
    exact ⟨task, ht, by simp [steps_of]⟩

theorem still_run {later : List Event} (h : Still s) (hno : ∀ e ∈ later, ∀ next, e ≠ .call next) :
    Still (run step s later) ∧ ∀ id task, s.tasks[id]? = some task →
      ∃ task', (run step s later).tasks[id]? = some task' ∧
        steps_left task'.phase ≤ steps_left task.phase - steps_of id later := by
  induction later generalizing s with
  | nil => exact ⟨h, fun id task ht => ⟨task, ht, by simp [steps_of]⟩⟩
  | cons e rest ih =>
    have hhead := hno e List.mem_cons_self
    obtain ⟨hstill, hrest⟩ := ih (still_step h hhead)
      (fun e' he' => hno e' (List.mem_cons_of_mem _ he'))
    refine ⟨hstill, ?_⟩
    intro id task ht
    obtain ⟨task₁, h₁, hle₁⟩ := tasks_of_still h hhead ht
    obtain ⟨task₂, h₂, hle₂⟩ := hrest id task₁ h₁
    refine ⟨task₂, h₂, ?_⟩
    have hsum : steps_of id (e :: rest) = steps_of id [e] + steps_of id rest := by
      simp only [steps_of, List.countP_cons, List.countP_nil]
      omega
    omega

/-- In every run: once a call that waits for tasks is dropped, and until the next call, no turn
begins, and a task that has taken two more steps has ended. -/
theorem a_dropped_call_ends_all_loops (events later : List Event)
    (hwaits : (run step {} events).caller.handles ≠ [])
    (hno : ∀ e ∈ later, ∀ next, e ≠ .call next) :
    (∀ e id, ¬ (run step {} (events ++ .dropped :: later)).begins_turn e id) ∧
    ∀ id task, (run step {} events).tasks[id]? = some task → 2 ≤ steps_of id later →
      ∃ task', (run step {} (events ++ .dropped :: later)).tasks[id]? = some task' ∧
        task'.phase = .ended := by
  have hraised : Raised (run step {} events) :=
    run_keeps (fun _ _ h => raised_step h) (fun h => by cases h) events
  rw [run_append, run_cons]
  generalize run step {} events = s at hwaits hraised
  obtain ⟨handles, next, hc⟩ : ∃ handles next, s.caller = .joining handles next := by
    cases hc : s.caller with
    | joining handles next => exact ⟨handles, next, rfl⟩
    | idle => rw [hc] at hwaits; exact absurd rfl hwaits
    | stopped next => rw [hc] at hwaits; exact absurd rfl hwaits
    | starting jobs spawned => rw [hc] at hwaits; exact absurd rfl hwaits
  have hdrop : s.step .dropped = { s with caller := .idle } := by
    unfold step
    rw [hc]
  have hflag : s.shutdown = true := hraised (by rw [hc]; rfl)
  rw [hdrop]
  obtain ⟨hstill, htasks⟩ := still_run (s := { s with caller := .idle }) ⟨rfl, hflag⟩ hno
  refine ⟨?_, ?_⟩
  · rintro e id ⟨answer, task, -, -, -, hdown⟩
    rw [hstill.2] at hdown
    cases hdown
  · intro id task ht htwo
    obtain ⟨task', ht', hle⟩ := htasks id task ht
    refine ⟨task', ht', ?_⟩
    have hmost : steps_left task.phase ≤ 2 := by cases task.phase <;> simp [steps_left]
    have hzero : steps_left task'.phase = 0 := by omega
    cases hphase : task'.phase with
    | ended => rfl
    | _ => rw [hphase] at hzero; cases hzero

theorem a_dropped_call_ends_all_loops_here :
    ∃ task', (run step {} ((started ++ [.call (some [.poll every_second])]) ++
      .dropped :: [.task 0 ⟨.failed, 0⟩, .task 0 ⟨.ok, 0⟩])).tasks[0]? = some task' ∧
        task'.phase = .ended := by
  have hthere : (run step {}
      (started ++ [.call (some [.poll every_second])])).tasks[0]?.isSome = true := by
    decide +kernel
  obtain ⟨task, htask⟩ := Option.isSome_iff_exists.mp hthere
  exact (a_dropped_call_ends_all_loops (started ++ [Event.call (some [.poll every_second])])
    [.task 0 ⟨.failed, 0⟩, .task 0 ⟨.ok, 0⟩] (by decide +kernel) (by simp)).2 0 task htask (by decide)

end Supervisor

/-! ## How long a loop rests -/

/-- A loop that is not stopped, with the milliseconds that it has slept, the first sleep that it
took, and the turns that have ended. -/
structure Rested where
  task : LoopTask
  first : Nat := 0
  slept : Nat := 0
  turns : List Answer := []

/-- One step of the loop, with what it sleeps in it. -/
def Rested.step (r : Rested) (answer : Answer) : Rested :=
  { task := r.task.step false answer
    first := match r.task.phase with
      | .spawned => (first_sleep r.task.job answer).getD 0
      | _ => r.first
    slept := match r.task.phase with
      | .asleep left _ => r.slept + chunk left
      | _ => r.slept
    turns := match r.task.phase with
      | .turn => r.turns ++ [answer]
      | _ => r.turns }

/-- The pause after a turn that comes after so many failures in a row. -/
def pause_after (watch : Watch) (failures : Nat) (answer : Answer) : Nat :=
  if answer.outcome = .failed then min (INITIAL_BACKOFF * 2 ^ failures) MAX_BACKOFF
  else watch.interval * 1000 + jitter_duration watch.jitter answer.drawn

/-- The failures in a row behind some turns. -/
def streak (failures : Nat) : List Answer → Nat
  | [] => failures
  | answer :: rest => streak (if answer.outcome = .failed then failures + 1 else 0) rest

/-- All pauses after some turns. -/
def pauses (watch : Watch) (failures : Nat) : List Answer → Nat
  | [] => 0
  | answer :: rest =>
    pause_after watch failures answer +
      pauses watch (if answer.outcome = .failed then failures + 1 else 0) rest

theorem streak_snoc (failures : Nat) (turns : List Answer) (answer : Answer) :
    streak failures (turns ++ [answer]) =
      if answer.outcome = .failed then streak failures turns + 1 else 0 := by
  induction turns generalizing failures with
  | nil => rfl
  | cons turn rest ih => exact ih _

theorem pauses_snoc (watch : Watch) (failures : Nat) (turns : List Answer) (answer : Answer) :
    pauses watch failures (turns ++ [answer]) =
      pauses watch failures turns + pause_after watch (streak failures turns) answer := by
  induction turns generalizing failures with
  | nil => simp [pauses, streak]
  | cons turn rest ih =>
    simp only [List.cons_append, pauses, ih, streak]
    omega

/-- What is left of the sleep that a task is in. -/
def left_to_sleep : Phase → Nat
  | .check left _ | .asleep left _ => left
  | .spawned | .head | .turn | .ended => 0

/-- Where the backoff stands: it is doubled behind the sleep that it was used for. -/
def BackoffIs (task : LoopTask) (failures : Nat) : Prop :=
  match task.phase with
  | .check _ .retry | .asleep _ .retry =>
    ∃ n, failures = n + 1 ∧ task.backoff = min (INITIAL_BACKOFF * 2 ^ n) MAX_BACKOFF
  | .ended => True
  | _ => task.backoff = min (INITIAL_BACKOFF * 2 ^ failures) MAX_BACKOFF

/-- What a loop has slept and what is left of its sleep are the pauses that it was to take. -/
structure OnTime (watch : Watch) (r : Rested) : Prop where
  job : r.task.job = .poll watch
  kept : r.task.aborted = false
  sum : r.task.phase ≠ .ended →
    r.slept + left_to_sleep r.task.phase = r.first + pauses watch 0 r.turns
  backoff : BackoffIs r.task (streak 0 r.turns)
  fresh : r.task.phase = .spawned → r.turns = [] ∧ r.slept = 0

theorem min_doubled (a : Nat) :
    min (min (INITIAL_BACKOFF * 2 ^ a) MAX_BACKOFF * 2) MAX_BACKOFF =
      min (INITIAL_BACKOFF * 2 ^ (a + 1)) MAX_BACKOFF := by
  have hpow : INITIAL_BACKOFF * 2 ^ (a + 1) = INITIAL_BACKOFF * 2 ^ a * 2 := by
    rw [pow_succ, Nat.mul_assoc]
  rw [hpow]
  omega

theorem onTime_step {watch : Watch} {r : Rested} (answer : Answer) (h : OnTime watch r) :
    OnTime watch (r.step answer) := by
  obtain ⟨⟨job, phase, backoff, aborted⟩, first, slept, turns⟩ := r
  obtain ⟨hjob, hkept, hsum, hback, hfresh⟩ := h
  dsimp only at hjob hkept hsum hback hfresh
  subst hjob hkept
  cases phase with
  | spawned =>
    obtain ⟨rfl, rfl⟩ := hfresh rfl
    unfold Rested.step LoopTask.step
    dsimp only
    cases hfirst : first_sleep (.poll watch) answer with
    | none =>
      exact ⟨rfl, rfl, fun _ => rfl, hback, fun h => by cases h⟩
    | some duration =>
      refine ⟨rfl, rfl, fun _ => ?_, hback, fun h => by cases h⟩
      simp [left_to_sleep, pauses]
  | check left after =>
    have hsum' := hsum (by simp)
    unfold Rested.step LoopTask.step
    dsimp only [left_to_sleep] at hsum' ⊢
    by_cases hleft : 0 < left
    · rw [if_neg (by simp), if_pos hleft]
      refine ⟨rfl, rfl, fun _ => hsum', ?_, fun h => by cases h⟩
      cases after <;> exact hback
    · obtain rfl : left = 0 := by omega
      rw [if_neg (by simp), if_neg hleft]
      cases after with
      | retry =>
        obtain ⟨n, hn, hbk⟩ := hback
        refine ⟨rfl, rfl, fun _ => hsum', ?_, fun h => by cases h⟩
        change min (backoff * 2) MAX_BACKOFF = _
        dsimp only at hbk
        rw [hn, hbk, min_doubled]
      | first_turn => exact ⟨rfl, rfl, fun _ => hsum', hback, fun h => by cases h⟩
      | next_turn => exact ⟨rfl, rfl, fun _ => hsum', hback, fun h => by cases h⟩
  | asleep left after =>
    have hsum' := hsum (by simp)
    unfold Rested.step LoopTask.step
    dsimp only [left_to_sleep] at hsum' ⊢
    refine ⟨rfl, rfl, fun _ => ?_, ?_, fun h => by cases h⟩
    · have hle : chunk left ≤ left := Nat.min_le_left ..
      change slept + chunk left + (left - chunk left) = first + pauses watch 0 turns
      omega
    · cases after <;> exact hback
  | head =>
    exact ⟨rfl, rfl, fun _ => hsum (by simp), hback, fun h => by cases h⟩
  | turn =>
    have hsum' := hsum (by simp)
    have hbk : backoff = min (INITIAL_BACKOFF * 2 ^ streak 0 turns) MAX_BACKOFF := hback
    unfold Rested.step LoopTask.step
    dsimp only [left_to_sleep] at hsum' ⊢
    cases hout : answer.outcome with
    | panicked =>
      exact ⟨rfl, rfl, fun h => absurd rfl h, trivial, fun h => by cases h⟩
    | failed =>
      refine ⟨rfl, rfl, fun _ => ?_, ?_, fun h => by cases h⟩
      · simp [pause, hout, left_to_sleep, pauses_snoc, pause_after, hbk]
        omega
      · simp [BackoffIs, pause, hout, streak_snoc, hbk]
    | ok =>
      refine ⟨rfl, rfl, fun _ => ?_, ?_, fun h => by cases h⟩
      · simp [pause, hout, left_to_sleep, pauses_snoc, pause_after]
        omega
      · simp [BackoffIs, pause, hout, streak_snoc]
        decide
  | ended =>
    exact ⟨rfl, rfl, fun h => absurd rfl h, trivial, fun h => by cases h⟩

/-- Every turn is followed by a pause of five seconds or of the interval, whichever is less. -/
theorem pauses_ge (watch : Watch) (failures : Nat) (turns : List Answer) :
    turns.length * min INITIAL_BACKOFF (watch.interval * 1000) ≤ pauses watch failures turns := by
  induction turns generalizing failures with
  | nil => simp [pauses]
  | cons turn rest ih =>
    have hone : min INITIAL_BACKOFF (watch.interval * 1000) ≤ pause_after watch failures turn := by
      unfold pause_after
      split
      · have hpos : 0 < 2 ^ failures := Nat.two_pow_pos failures
        have hle : INITIAL_BACKOFF ≤ INITIAL_BACKOFF * 2 ^ failures := Nat.le_mul_of_pos_right _ hpos
        have hmax : INITIAL_BACKOFF ≤ MAX_BACKOFF := by decide
        omega
      · omega
    have hrest := ih (if turn.outcome = .failed then failures + 1 else 0)
    rw [List.length_cons, Nat.succ_mul]
    unfold pauses
    omega

/-- A polling loop after some of its steps. -/
def loop_after (watch : Watch) (answers : List Answer) : Rested :=
  run Rested.step { task := { job := .poll watch } } answers

/-- In every run of a polling loop that nobody stops: when it stands at a turn, it has slept its
first sleep and, for every turn that ended, the pause after it: no less than five seconds or the
interval each time. -/
theorem a_loop_rests_between_turns (watch : Watch) (answers : List Answer)
    (h : (loop_after watch answers).task.phase = .turn) :
    (loop_after watch answers).slept =
      (loop_after watch answers).first + pauses watch 0 (loop_after watch answers).turns ∧
    (loop_after watch answers).turns.length * min INITIAL_BACKOFF (watch.interval * 1000) ≤
      (loop_after watch answers).slept := by
  have hstart : OnTime watch { task := { job := .poll watch } } :=
    ⟨rfl, rfl, fun _ => rfl,
      (by decide : INITIAL_BACKOFF = min (INITIAL_BACKOFF * 2 ^ 0) MAX_BACKOFF),
      fun _ => ⟨rfl, rfl⟩⟩
  have htime : OnTime watch (loop_after watch answers) :=
    run_keeps (fun r answer hr => onTime_step answer hr) hstart answers
  generalize loop_after watch answers = r at h htime
  have hsum := htime.sum (by rw [h]; simp)
  rw [h] at hsum
  have hge := pauses_ge watch 0 r.turns
  change r.slept = _ at hsum
  exact ⟨hsum, by omega⟩

/-- The first turn fails, and the others do not. -/
def fails_once : List Answer :=
  List.replicate 2 ⟨.ok, 0⟩ ++ ⟨.failed, 0⟩ :: List.replicate 53 ⟨.ok, 0⟩

theorem a_loop_rests_between_turns_here :
    (loop_after Supervisor.every_second fails_once).turns.map (·.outcome) = [.failed, .ok] ∧
    (loop_after Supervisor.every_second fails_once).slept = 0 + (5000 + (1000 + 0)) ∧
    2 * min INITIAL_BACKOFF 1000 ≤ (loop_after Supervisor.every_second fails_once).slept :=
  ⟨by decide +kernel, a_loop_rests_between_turns Supervisor.every_second fails_once
    (by decide +kernel)⟩

end xrelease.scheduler
