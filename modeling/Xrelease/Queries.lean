-- The queries of the dashboard and their refresh: `createQuery` (`lib/data/query.svelte.ts`), the
-- stores that wrap one (`lib/data/resource.svelte.ts`), and the scheduler that refreshes all that
-- are registered (`lib/data/refresh-scheduler.ts`).
import Mathlib.Data.List.Basic

namespace xrelease.dashboard

/-! ## A query -/

/-- What is done to a query. Nothing reads these: they say which run is the newest. -/
inductive Entry where
  | Started
  | Stopped
  | Reset
  | Began (fetch : Nat)
deriving DecidableEq

/-- `is_enabled` is none where the query has no such condition; `unregister_refresh` holds the
number of the task it takes back. -/
structure Query (T : Type) where
  auto_refresh : Bool
  is_enabled : Option Bool
  data : Option T
  error : Option String
  is_loading : Bool
  is_refreshing : Bool
  last_updated : Option Int
  started : Bool
  in_flight : Bool
  has_loaded : Bool
  generation : Nat
  unregister_refresh : Option Nat
  journal : List Entry

/-- What an error of a fetch is to `execute`, with the text `resolveApiError` makes of it. -/
inductive Failure where
  | Unauthorized
  | RateLimited (message : String)
  | Other (message : String)
deriving DecidableEq

section
variable {T : Type}

/-- A query that has not run. -/
def create_query (auto_refresh : Bool) (is_enabled : Option Bool) : Query T :=
  ⟨auto_refresh, is_enabled, none, none, false, false, none, false, false, false, 0, none, []⟩

namespace Query

/-- The run that began last, if the query was not stopped or reset since. -/
def newest_run (q : Query T) : Option Nat :=
  match q.journal.find? (fun e => e != .Started) with
  | some (.Began fetch) => some fetch
  | _ => none

/-- Stopped or reset, and not started since. -/
def is_stopped (q : Query T) : Bool :=
  match q.journal.find? (fun e => e == .Started || e == .Stopped || e == .Reset) with
  | some .Started => false
  | _ => true

/-- The part of `execute` before the fetch. -/
def begin_run (q : Query T) (silent : Bool) (fetch : Nat) : Query T :=
  { q with
    generation := q.generation + 1
    in_flight := true
    is_refreshing := if silent then true else q.is_refreshing
    is_loading := if !silent && !q.has_loaded then true else q.is_loading
    error := none
    journal := .Began fetch :: q.journal }

/-- The `finally` of the newest run. -/
def finish_run (q : Query T) : Query T :=
  { q with is_loading := false, is_refreshing := false, in_flight := false }

/-- A run begins. -/
def noted (q : Query T) : Query T := { q with journal := .Started :: q.journal }

/-- The query no longer waits for its run. -/
def stopped (q : Query T) : Query T :=
  { q with
    started := false, has_loaded := false, is_loading := false, is_refreshing := false
    in_flight := false, generation := q.generation + 1, unregister_refresh := none
    journal := .Stopped :: q.journal }

/-- The query forgets what it had. -/
def cleared (q : Query T) : Query T :=
  { q with
    generation := q.generation + 1, started := false, in_flight := false, has_loaded := false
    data := none, error := none, is_loading := false, is_refreshing := false, last_updated := none
    unregister_refresh := none, journal := .Reset :: q.journal }

end Query

/-! ## The scheduler, and all that shares it -/

/-- The refresh of a query; each registration is a closure of its own. -/
structure RefreshTask where
  query : Nat
  handle : Nat
deriving DecidableEq

/-- A call of `fetcher` that is not settled. -/
structure Fetch where
  id : Nat
  query : Nat
  run : Nat
deriving DecidableEq

/-- What the loop over the tasks waits for. -/
inductive Waiting where
  | Task (fetch : Nat)
  | Sleep
deriving DecidableEq

/-- `createResourceStore`: its query is made when it is first needed. -/
structure ResourceStore where
  auto_refresh : Bool
  query : Option Nat
deriving DecidableEq

/-- The tasks stand in the order in which they were added. A loop over them has visited those whose
handle is below its own number. -/
structure World (T : Type) where
  now : Int
  is_authenticated : Bool
  is_hidden : Bool
  queries : List (Query T)
  stores : List ResourceStore
  fetches : List Fetch
  next_fetch : Nat
  tasks : List RefreshTask
  next_task : Nat
  interval_id : Option Int
  running : Option (Nat × Waiting)
  paused_until : Int
  missed_while_hidden : Bool

/-- How long a rate limit pauses the refresh. -/
def RATE_LIMIT_PAUSE_MS : Int := 60000

/-- A page that was just loaded, with a store for each of these settings of `autoRefresh`. -/
def World.new (stores : List Bool) : World T :=
  ⟨0, false, false, [], stores.map (fun auto_refresh => ⟨auto_refresh, none⟩), [], 0, [], 0, none,
    none, 0, false⟩

namespace World

def put (w : World T) (i : Nat) (q : Query T) : World T := { w with queries := w.queries.set i q }

def add_query (w : World T) (auto_refresh : Bool) (is_enabled : Option Bool) : World T :=
  { w with queries := w.queries ++ [create_query auto_refresh is_enabled] }

def register_refresh_task (w : World T) (i : Nat) : World T :=
  { w with tasks := w.tasks ++ [⟨i, w.next_task⟩], next_task := w.next_task + 1 }

/-- What `registerRefreshTask` returns, called if there is one. -/
def unregister (w : World T) (handle : Option Nat) : World T :=
  { w with tasks := w.tasks.filter (fun task => some task.handle ≠ handle) }

def pause_refresh (w : World T) : World T := { w with paused_until := w.now + RATE_LIMIT_PAUSE_MS }

/-- A request goes out. -/
def open_fetch (w : World T) (i run : Nat) : World T :=
  { w with fetches := w.fetches ++ [⟨w.next_fetch, i, run⟩], next_fetch := w.next_fetch + 1 }

/-- A request is answered. -/
def close_fetch (w : World T) (id : Nat) : World T :=
  { w with fetches := w.fetches.filter (fun fetch => fetch.id ≠ id) }

/-- With the fetch that it begins, if it begins one. -/
def execute (w : World T) (i : Nat) (silent : Bool) : World T × Option Nat :=
  match w.queries[i]? with
  | none => (w, none)
  | some q =>
    if q.is_enabled = some false then (w, none)
    else if !w.is_authenticated then
      (if silent then w else w.put i { q with started := false }, none)
    else if q.in_flight && silent then (w, none)
    else
      ((w.put i (q.begin_run silent w.next_fetch)).open_fetch i (q.generation + 1),
        some w.next_fetch)

/-- The rest of `execute`, when the fetch comes back. A session that ended is left to `logout`,
whose changes are events of their own. -/
def finish (w : World T) (fetch : Fetch) (result : Except Failure T) : World T :=
  match w.queries[fetch.query]? with
  | none => w
  | some q =>
    if fetch.run ≠ q.generation then w
    else
      match result with
      | .ok data =>
        let q' := { q with data := some data, has_loaded := true, last_updated := some w.now }
        w.put fetch.query q'.finish_run
      | .error .Unauthorized => w.put fetch.query q.finish_run
      | .error (.RateLimited message) =>
        (w.put fetch.query { q with error := some message }.finish_run).pause_refresh
      | .error (.Other message) => w.put fetch.query { q with error := some message }.finish_run

/-- A start of a query that is not started, up to its first fetch. -/
def enter (w : World T) (i : Nat) (q : Query T) : World T :=
  if q.auto_refresh then
    (w.put i { q.noted with
      started := true
      unregister_refresh := some w.next_task }).register_refresh_task i
  else w.put i { q.noted with started := true }

/-- The query is mounted. -/
def start (w : World T) (i : Nat) : World T :=
  match w.queries[i]? with
  | none => w
  | some q =>
    if q.started then
      let w := w.put i q.noted
      if !q.has_loaded && !q.in_flight then (w.execute i false).1 else w
    else ((w.enter i q).execute i false).1

/-- The query is unmounted. -/
def stop (w : World T) (i : Nat) : World T :=
  match w.queries[i]? with
  | none => w
  | some q => (w.put i q.stopped).unregister q.unregister_refresh

/-- The query starts over. -/
def reset (w : World T) (i : Nat) : World T :=
  match w.queries[i]? with
  | none => w
  | some q => (w.put i q.cleared).unregister q.unregister_refresh

/-! ### The loop over the tasks -/

/-- The loop goes on to the first task it has not visited. One that was taken out is not visited,
one that was added meanwhile is. -/
def run_next (w : World T) (visited : Nat) : World T :=
  match w.tasks.find? (fun task => visited ≤ task.handle) with
  | none => { w with running := none }
  | some task =>
    let ran := w.execute task.query true
    { ran.1 with running := some (task.handle + 1, (ran.2.map Waiting.Task).getD .Sleep) }

/-- A round of the scheduler begins, unless one is under way. -/
def run_all_tasks (w : World T) : World T :=
  if w.running.isSome || w.now < w.paused_until then w
  else if w.is_hidden then { w with missed_while_hidden := true }
  else w.run_next 0

/-- No more ticks. -/
def stop_refresh_scheduler (w : World T) : World T :=
  { w with interval_id := none, missed_while_hidden := false }

/-- Ticks from here on. -/
def start_refresh_scheduler (w : World T) (interval_ms : Int) : World T :=
  if interval_ms ≤ 0 then w.stop_refresh_scheduler
  else { w.stop_refresh_scheduler with interval_id := some interval_ms }

/-- The handler is attached while the scheduler runs. -/
def on_visibility_change (w : World T) (is_hidden : Bool) : World T :=
  let w := { w with is_hidden }
  if w.interval_id.isNone || w.is_hidden || !w.missed_while_hidden then w
  else { w with missed_while_hidden := false }.run_all_tasks

/-- The loop goes to sleep if it waited for the fetch. -/
def resume (w : World T) (id : Nat) : World T :=
  { w with running := w.running.map (fun loop =>
      (loop.1, if loop.2 = .Task id then .Sleep else loop.2)) }

/-- The answer of a request is taken. -/
def settled (w : World T) (id : Nat) (result : Except Failure T) : World T :=
  match w.fetches.find? (fun fetch => fetch.id = id) with
  | none => w
  | some fetch => ((w.close_fetch id).finish fetch result).resume id

/-! ### Stores -/

/-- The store's query, made if it has none. -/
def ensure (w : World T) (s : Nat) : World T × Option Nat :=
  match w.stores[s]? with
  | none => (w, none)
  | some store =>
    match store.query with
    | some i => (w, some i)
    | none =>
      ({ w.add_query store.auto_refresh none with
        stores := w.stores.set s { store with query := some w.queries.length } },
        some w.queries.length)

def drop_query (w : World T) (s : Nat) : World T :=
  { w with stores := w.stores.modify s (fun store => { store with query := none }) }

end World

/-! ## What can happen -/

/-- Calls of queries and of stores, by their place; conditions that change; the browser's timers and
its tab; and fetches that come back. A logout is a session that ends and stores that are reset. -/
inductive Event (T : Type) where
  | Created (auto_refresh : Bool) (is_enabled : Option Bool)
  | Start (i : Nat)
  | Stop (i : Nat)
  | Reset (i : Nat)
  | Reload (i : Nat)
  | Refresh (i : Nat)
  | StoreStart (s : Nat)
  | StoreStop (s : Nat)
  | StoreReset (s : Nat)
  | StoreReload (s : Nat)
  | StoreRefresh (s : Nat)
  | Enabled (i : Nat) (is_enabled : Bool)
  | Authenticated (is_authenticated : Bool)
  | Clock (now : Int)
  | Scheduled (interval_ms : Int)
  | Unscheduled
  | Tick
  | Visibility (is_hidden : Bool)
  | Woke
  | Settled (fetch : Nat) (result : Except Failure T)

/-- A call of the query of a store. -/
def World.on_store (w : World T) (s : Nat) (call : World T → Nat → World T) : World T :=
  match w.ensure s with
  | (w, some i) => call w i
  | (w, none) => w

/-- A call of the query of a store, if there is one. -/
def World.on_query_of (w : World T) (s : Nat) (call : World T → Nat → World T) : World T :=
  match w.stores[s]?.bind ResourceStore.query with
  | some i => call w i
  | none => w

def World.enabled (w : World T) (i : Nat) (is_enabled : Bool) : World T :=
  match w.queries[i]? with
  | none => w
  | some q => w.put i { q with is_enabled := q.is_enabled.map (fun _ => is_enabled) }

/-- The timer fires. -/
def World.tick (w : World T) : World T := if w.interval_id.isSome then w.run_all_tasks else w

/-- The pause between two tasks is over. -/
def World.woke (w : World T) : World T :=
  match w.running with
  | some (visited, .Sleep) => w.run_next visited
  | _ => w

/-- What each event does. -/
def step (w : World T) : Event T → World T
  | .Created auto_refresh is_enabled => w.add_query auto_refresh is_enabled
  | .Start i => w.start i
  | .Stop i => w.stop i
  | .Reset i => w.reset i
  | .Reload i => (w.execute i false).1
  | .Refresh i => (w.execute i true).1
  | .StoreStart s => w.on_store s World.start
  | .StoreStop s => w.on_query_of s World.stop
  | .StoreReset s => (w.on_query_of s World.stop).drop_query s
  | .StoreReload s => w.on_store s (fun w i => (w.execute i false).1)
  | .StoreRefresh s => w.on_store s (fun w i => (w.execute i true).1)
  | .Enabled i is_enabled => w.enabled i is_enabled
  | .Authenticated is_authenticated => { w with is_authenticated }
  | .Clock now => { w with now }
  | .Scheduled interval_ms => w.start_refresh_scheduler interval_ms
  | .Unscheduled => w.stop_refresh_scheduler
  | .Tick => w.tick
  | .Visibility is_hidden => w.on_visibility_change is_hidden
  | .Woke => w.woke
  | .Settled fetch result => w.settled fetch result

end

end xrelease.dashboard
