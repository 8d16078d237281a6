-- The polling loops (`scheduler.rs`): one task for every watch and one for the advisory sweep,
-- which sleep in short chunks so that a stop is noticed; and the supervisor that stops the tasks
-- of one list of watches before it starts those of the next. Durations are in milliseconds; what
-- a turn does, and how long it takes, is left open.
import Xrelease.Trace
import Xrelease.Watches

namespace xrelease.scheduler

open xrelease.config

def INITIAL_BACKOFF : Nat := 5000

def MAX_BACKOFF : Nat := 300000

def SHUTDOWN_POLL_CHUNK : Nat := 250

def SWEEP_START_DELAY : Nat := 60000

/-! ## One loop -/

/-- What a task is spawned for. -/
inductive Job where
  /-- `watch_loop`. -/
  | poll (watch : Watch)
  /-- The loop of `spawn_advisory_sweep`, with its interval in seconds. -/
  | sweep (interval : Nat)

/-- Where `sleep_interruptible` returns to. -/
inductive After where
  | first_turn | next_turn | retry
deriving DecidableEq

/-- A task between two of its steps. It is suspended where it sleeps, and now and then in a turn;
everywhere else it runs on. -/
inductive Phase where
  | spawned
  /-- The head of the chunk loop, with what is left to sleep. -/
  | check (left : Nat) (after : After)
  /-- Waiting for the timer of one chunk. -/
  | asleep (left : Nat) (after : After)
  /-- The head of the loop, before the flag is read. -/
  | head
  /-- A poll, or a round of the sweep, is under way. -/
  | turn
  | ended
deriving DecidableEq

/-- Where the runtime can take an aborted task; one that has not run yet it takes as well. -/
def Phase.suspended : Phase → Bool
  | .spawned | .asleep _ _ | .turn => true
  | .check _ _ | .head | .ended => false

structure LoopTask where
  job : Job
  phase : Phase := .spawned
  backoff : Nat := INITIAL_BACKOFF
  /-- `AbortHandle::abort` was called. -/
  aborted : Bool := false

/-- How a turn ends. A panic takes the task with it. -/
inductive Outcome where
  | ok | failed | panicked
deriving DecidableEq

/-- What comes from outside: how the turn ended, and the number drawn for the jitter. -/
structure Answer where
  outcome : Outcome
  drawn : Nat

/-- A random number of seconds up to the maximum, in milliseconds. -/
def jitter_duration (max drawn : Nat) : Nat := drawn % (max + 1) * 1000

/-- The sleep before the first turn; none where the first turn comes at once. -/
def first_sleep (job : Job) (answer : Answer) : Option Nat :=
  match job with
  | .poll watch =>
    if watch.poll_on_startup then none
    else some (watch.interval * 1000 + jitter_duration watch.jitter answer.drawn)
  | .sweep _ => some SWEEP_START_DELAY

/-- The sleep after a turn, and what it returns to. A sweep has no turn that fails. -/
def pause (job : Job) (backoff : Nat) (answer : Answer) : Nat × After :=
  match job with
  | .poll watch =>
    if answer.outcome = .failed then (backoff, .retry)
    else (watch.interval * 1000 + jitter_duration watch.jitter answer.drawn, .next_turn)
  | .sweep interval => (interval * 1000, .next_turn)

/-- A chunk of the sleep. -/
def chunk (left : Nat) : Nat := min left SHUTDOWN_POLL_CHUNK

/-- One step of a task, given what the flag reads. -/
def LoopTask.step (task : LoopTask) (stop : Bool) (answer : Answer) : LoopTask :=
  match task.phase with
  | .spawned =>
    if task.aborted then { task with phase := .ended }
    else
      match first_sleep task.job answer with
      | none => { task with phase := .head }
      | some duration => { task with phase := .check duration .first_turn }
  | .check left after =>
    if stop then { task with phase := .ended }
    else if 0 < left then { task with phase := .asleep left after }
    else if after = .retry then
      { task with phase := .head, backoff := min (task.backoff * 2) MAX_BACKOFF }
    else { task with phase := .head }
  | .asleep left after =>
    if task.aborted then { task with phase := .ended }
    else { task with phase := .check (left - chunk left) after }
  | .head => { task with phase := if stop then .ended else .turn }
  | .turn =>
    if answer.outcome = .panicked then { task with phase := .ended }
    else
      let (duration, after) := pause task.job task.backoff answer
      { task with
        phase := .check duration after
        backoff := if after = .retry then task.backoff else INITIAL_BACKOFF }
  | .ended => task

/-! ## The supervisor -/

/-- Where a call of `replace` or of `stop_watchers` stands; the apply lock lets in one at a time.
`next` is what is to be started, if anything is. -/
inductive Caller where
  | idle
  /-- Waiting for the tasks of the handles, for `SHUTDOWN_DRAIN_TIMEOUT` at most. -/
  | joining (handles : List Nat) (next : Option (List Job))
  | stopped (next : Option (List Job))
  /-- The flag is lowered; these loops are to be spawned, and those of the handles are. -/
  | starting (jobs : List Job) (spawned : List Nat)

/-- The handles that a call waits for. -/
def Caller.handles : Caller → List Nat
  | .joining handles _ => handles
  | .idle | .stopped _ | .starting _ _ => []

/-- The handles of the loops that a call has spawned, before it stores them. -/
def Caller.spawned : Caller → List Nat
  | .starting _ spawned => spawned
  | .idle | .joining _ _ | .stopped _ => []

/-- The loops that a call is to start. -/
def Caller.next : Caller → List Job
  | .joining _ next | .stopped next => next.getD []
  | .starting jobs _ => jobs
  | .idle => []

/-- The supervisor, and every task that it ever spawned, by the order of spawning. -/
structure Supervisor where
  shutdown : Bool := false
  watchers : List Nat := []
  tasks : List LoopTask := []
  caller : Caller := .idle

inductive Event where
  /-- `replace` begins, or `stop_watchers` on its own. -/
  | call (next : Option (List Job))
  | joined
  | timed_out
  /-- `replace` goes on behind `stop_watchers`. -/
  | go_on
  /-- `tokio::spawn` of the next loop; from then on it runs beside the call. -/
  | spawn
  /-- `*self.watchers.lock().await = handles`. -/
  | store
  /-- The future of the call is dropped where it is suspended: the client of the request has
  gone. The handles that it waits for go with it. -/
  | dropped
  | task (id : Nat) (answer : Answer)
  /-- The runtime takes an aborted task where it is suspended. -/
  | taken (id : Nat)

namespace Supervisor

/-- Change one task. -/
def on_task (s : Supervisor) (id : Nat) (f : LoopTask → LoopTask) : Supervisor :=
  { s with tasks := s.tasks.modify id f }

def abort (handles : List Nat) (tasks : List LoopTask) : List LoopTask :=
  tasks.mapIdx (fun id task => if id ∈ handles then { task with aborted := true } else task)

def take (task : LoopTask) : LoopTask :=
  if task.aborted && task.phase.suspended then { task with phase := .ended } else task

/-- Whether the tasks of the handles have come to their end. -/
def all_ended (s : Supervisor) (handles : List Nat) : Bool :=
  handles.all (fun id => s.tasks[id]?.all (fun task => task.phase = .ended))

/-- One event. What cannot come about in a state leaves it alone. -/
def step (s : Supervisor) : Event → Supervisor
  | .call next =>
    match s.caller with
    | .idle =>
      { s with
        shutdown := true
        watchers := []
        caller := if s.watchers = [] then .stopped next else .joining s.watchers next }
    | _ => s
  | .joined =>
    match s.caller with
    | .joining handles next => if s.all_ended handles then { s with caller := .stopped next } else s
    | _ => s
  | .timed_out =>
    match s.caller with
    | .joining handles next =>
      { s with tasks := abort handles s.tasks, caller := .stopped next }
    | _ => s
  | .go_on =>
    match s.caller with
    | .stopped (some jobs) => { s with shutdown := false, caller := .starting jobs [] }
    | .stopped none => { s with caller := .idle }
    | _ => s
  | .spawn =>
    match s.caller with
    | .starting (job :: rest) spawned =>
      { s with
        tasks := s.tasks ++ [{ job }]
        caller := .starting rest (spawned ++ [s.tasks.length]) }
    | _ => s
  | .store =>
    match s.caller with
    | .starting [] spawned => { s with watchers := spawned, caller := .idle }
    | _ => s
  | .dropped =>
    match s.caller with
    | .joining _ _ => { s with caller := .idle }
    | _ => s
  | .task id answer => s.on_task id (fun task => task.step s.shutdown answer)
  | .taken id => s.on_task id take

/-- The event has a task begin a turn. -/
def begins_turn (s : Supervisor) (e : Event) (id : Nat) : Prop :=
  ∃ answer task, e = .task id answer ∧ s.tasks[id]? = some task ∧ task.phase = .head ∧
    s.shutdown = false

end Supervisor

end xrelease.scheduler
