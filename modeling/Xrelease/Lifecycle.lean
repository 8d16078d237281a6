-- The life of a query between its starts and stops: which run may change what it shows, how many
-- tasks refresh it, and that none does once it is stopped.
import Mathlib.Data.List.Nodup
import Xrelease.Queries
import Xrelease.Trace

namespace xrelease.dashboard

open trace

section
variable {T : Type}

/-! ## What is promised of a query -/

/-- What the scheduler does by itself. -/
def IsTick : Event T → Prop
  | .Tick | .Visibility _ | .Woke => True
  | _ => False

structure Sound (w : World T) (i : Nat) (q : Query T) : Prop where
  /-- Only the newest run, since the last stop or reset, changes what is shown. -/
  newest : ∀ fetch result q', (step w (.Settled fetch result)).queries[i]? = some q' →
    q'.data ≠ q.data ∨ q'.error ≠ q.error → q.newest_run = some fetch
  once : (w.tasks.filter (fun task => task.query = i)).length ≤ 1
  unregistered : q.is_stopped = true → ∀ task ∈ w.tasks, task.query ≠ i
  not_fetched : q.is_stopped = true → ∀ e, IsTick e →
    ∀ fetch ∈ (step w e).fetches, fetch.query = i → fetch ∈ w.fetches

def AllSound (w : World T) : Prop := ∀ i q, w.queries[i]? = some q → Sound w i q

/-- A start that registers the query once more, its earlier task being there. -/
def registers_again (q : Query T) : Bool :=
  q.auto_refresh && !q.started && q.unregister_refresh.isSome

def RegistersAgain (w : World T) (e : Event T) : Prop :=
  ∃ i q, w.queries[i]? = some q ∧ registers_again q = true ∧
    match e with
    | .Start j => i = j
    | .StoreStart s => w.stores[s]?.bind ResourceStore.query = some i
    | _ => False

/-! ## The tasks that are registered -/

def handle_of (w : World T) (i : Nat) : Option Nat := w.queries[i]?.bind Query.unregister_refresh

/-- A query that can take a task back has that task, and no two tasks have one handle. -/
structure Registered (w : World T) : Prop where
  held : ∀ i h, handle_of w i = some h → ⟨i, h⟩ ∈ w.tasks
  distinct : (w.tasks.map (·.handle)).Nodup
  below : ∀ task ∈ w.tasks, task.handle < w.next_task

/-- Every task can be taken back. -/
def Tidy (w : World T) : Prop := ∀ task ∈ w.tasks, handle_of w task.query = some task.handle

/-- Nothing is registered or taken back. -/
structure SameTasks (w w' : World T) : Prop where
  tasks : w'.tasks = w.tasks
  next : w'.next_task = w.next_task
  handles : ∀ i, handle_of w' i = handle_of w i

theorem SameTasks.refl (w : World T) : SameTasks w w := ⟨rfl, rfl, fun _ => rfl⟩

theorem SameTasks.trans {a b c : World T} (h : SameTasks a b) (h' : SameTasks b c) :
    SameTasks a c :=
  ⟨h'.tasks.trans h.tasks, h'.next.trans h.next, fun i => (h'.handles i).trans (h.handles i)⟩

variable {w : World T} {i : Nat} {q : Query T}

theorem SameTasks.registered {w' : World T} (h : SameTasks w w') (hw : Registered w) :
    Registered w' := by
  obtain ⟨htasks, hnext, hhandles⟩ := h
  refine ⟨?_, htasks ▸ hw.distinct, ?_⟩
  · intro i n hn
    rw [htasks]
    exact hw.held i n (hhandles i ▸ hn)
  · rw [htasks, hnext]
    exact hw.below

theorem SameTasks.tidy {w' : World T} (h : SameTasks w w') (hw : Tidy w) : Tidy w' := by
  intro task htask
  rw [h.tasks] at htask
  rw [h.handles]
  exact hw task htask

theorem same_of {w' : World T} (hqueries : w'.queries = w.queries) (htasks : w'.tasks = w.tasks)
    (hnext : w'.next_task = w.next_task) : SameTasks w w' := by
  refine ⟨htasks, hnext, ?_⟩
  intro i
  unfold handle_of
  rw [hqueries]

theorem get_put (hq : w.queries[i]? = some q) (q' : Query T) (j : Nat) :
    (w.put i q').queries[j]? = if i = j then some q' else w.queries[j]? := by
  have hlt : i < w.queries.length := (List.getElem?_eq_some_iff.mp hq).1
  change (w.queries.set i q')[j]? = _
  rw [List.getElem?_set, if_pos hlt]

theorem handle_put (hq : w.queries[i]? = some q) (q' : Query T) (j : Nat) :
    handle_of (w.put i q') j = if i = j then q'.unregister_refresh else handle_of w j := by
  unfold handle_of
  rw [get_put hq]
  split <;> rfl

theorem same_put {q' : Query T} (hq : w.queries[i]? = some q)
    (h : q'.unregister_refresh = q.unregister_refresh) : SameTasks w (w.put i q') := by
  refine ⟨rfl, rfl, ?_⟩
  intro j
  rw [handle_put hq]
  split
  · rename_i hij
    subst hij
    unfold handle_of
    rw [hq, h]
    rfl
  · rfl

theorem same_execute (w : World T) (i : Nat) (silent : Bool) :
    SameTasks w (w.execute i silent).1 := by
  unfold World.execute
  split
  · exact .refl w
  · rename_i q hq
    split
    · exact .refl w
    · split
      · cases silent
        · exact same_put hq rfl
        · exact .refl w
      · split
        · exact .refl w
        · exact (@same_put _ w i q (q.begin_run silent w.next_fetch) hq rfl).trans
            (same_of rfl rfl rfl)

theorem same_finish (w : World T) (fetch : Fetch) (result : Except Failure T) :
    SameTasks w (w.finish fetch result) := by
  unfold World.finish
  split
  · exact .refl w
  · rename_i q hq
    split
    · exact .refl w
    · split
      · exact same_put hq rfl
      · exact same_put hq rfl
      · rename_i message
        exact (@same_put _ w fetch.query q { q with error := some message }.finish_run hq rfl).trans
          (same_of rfl rfl rfl)
      · exact same_put hq rfl

theorem same_add (w : World T) (auto_refresh : Bool) (is_enabled : Option Bool) :
    SameTasks w (w.add_query auto_refresh is_enabled) := by
  refine ⟨rfl, rfl, ?_⟩
  intro i
  change ((w.queries ++ [create_query auto_refresh is_enabled])[i]?).bind _ = _
  rw [List.getElem?_append]
  split
  · rfl
  · rename_i hle
    unfold handle_of
    rw [List.getElem?_eq_none (Nat.le_of_not_lt hle)]
    rcases Nat.eq_zero_or_pos (i - w.queries.length) with hzero | hpos
    · rw [hzero]
      rfl
    · rw [List.getElem?_eq_none hpos]

theorem same_enabled (w : World T) (i : Nat) (is_enabled : Bool) :
    SameTasks w (w.enabled i is_enabled) := by
  unfold World.enabled
  split
  · exact .refl w
  · rename_i q hq
    exact same_put hq rfl

/-! ### A task that is registered or taken back -/

section

variable (hq : w.queries[i]? = some q)

include hq

theorem handle_of_get :
    handle_of w i = q.unregister_refresh := by
  unfold handle_of
  rw [hq]
  rfl

theorem same_enter (h : q.auto_refresh = false) :
    SameTasks w (w.enter i q) := by
  unfold World.enter
  simp only [h, Bool.false_eq_true, if_false]
  exact same_put hq rfl

theorem enter_tasks (h : q.auto_refresh = true) :
    (w.enter i q).tasks = w.tasks ++ [⟨i, w.next_task⟩] ∧
      (w.enter i q).next_task = w.next_task + 1 ∧
      ∀ j, handle_of (w.enter i q) j = if i = j then some w.next_task else handle_of w j := by
  unfold World.enter
  rw [if_pos h]
  refine ⟨rfl, rfl, ?_⟩
  intro j
  exact handle_put hq _ j

theorem registered_enter (hw : Registered w) :
    Registered (w.enter i q) := by
  rcases Bool.eq_false_or_eq_true q.auto_refresh with h | h
  · obtain ⟨htasks, hnext, hhandle⟩ := enter_tasks hq h
    refine ⟨?_, ?_, ?_⟩
    · intro j n hn
      rw [hhandle] at hn
      rw [htasks]
      split at hn
      · rename_i hij
        simp only [Option.some.injEq] at hn
        simp [hij, hn]
      · exact List.mem_append_left _ (hw.held j n hn)
    · rw [htasks, List.map_append, List.nodup_append]
      refine ⟨hw.distinct, List.nodup_singleton _, ?_⟩
      intro a ha b hb heq
      obtain ⟨task, htask, rfl⟩ := List.mem_map.mp ha
      have hlt := hw.below task htask
      rw [List.map_singleton, List.mem_singleton] at hb
      exact Nat.ne_of_lt hlt (heq.trans hb)
    · intro task htask
      rw [htasks] at htask
      rw [hnext]
      rcases List.mem_append.mp htask with htask | htask
      · have hlt := hw.below task htask
        omega
      · rw [List.mem_singleton.mp htask]
        exact Nat.lt_succ_self _
  · exact (same_enter hq h).registered hw

/-- A query that holds no task gets one that it can take back. -/
theorem tidy_enter (hnone : q.auto_refresh = true → q.unregister_refresh = none) (hw : Tidy w) :
    Tidy (w.enter i q) := by
  rcases Bool.eq_false_or_eq_true q.auto_refresh with h | h
  · obtain ⟨htasks, -, hhandle⟩ := enter_tasks hq h
    intro task htask
    rw [htasks] at htask
    rw [hhandle]
    rcases List.mem_append.mp htask with htask | htask
    · have hheld := hw task htask
      have hne : i ≠ task.query := by
        intro heq
        rw [← heq, handle_of_get hq, hnone h] at hheld
        simp at hheld
      rw [if_neg hne, hheld]
    · rw [List.mem_singleton.mp htask, if_pos rfl]
  · exact (same_enter hq h).tidy hw

/-- One that holds a task has two then. -/
theorem twice_enter (h : q.auto_refresh = true)
    (hheld : q.unregister_refresh.isSome = true) (hw : Registered w) :
    1 < ((w.enter i q).tasks.filter (fun task => task.query = i)).length := by
  obtain ⟨n, hn⟩ := Option.isSome_iff_exists.mp hheld
  have hmem := hw.held i n ((handle_of_get hq).trans hn)
  have hold : 0 < (w.tasks.filter (fun task => task.query = i)).length :=
    List.length_pos_of_mem (List.mem_filter.mpr ⟨hmem, by simp⟩)
  rw [(enter_tasks hq h).1, List.filter_append, List.length_append]
  have hnew : ([⟨i, w.next_task⟩] : List RefreshTask).filter (fun task => task.query = i) =
      [⟨i, w.next_task⟩] := by simp
  rw [hnew, List.length_singleton]
  omega

theorem registered_drop {q' : Query T}
    (hnone : q'.unregister_refresh = none) (hw : Registered w) :
    Registered ((w.put i q').unregister q.unregister_refresh) := by
  refine ⟨?_, hw.distinct.sublist (List.filter_sublist.map _), ?_⟩
  · intro j n hn
    change handle_of (w.put i q') j = some n at hn
    rw [handle_put hq, hnone] at hn
    split at hn
    · simp at hn
    · rename_i hij
      have hmem := hw.held j n hn
      refine List.mem_filter.mpr ⟨hmem, decide_eq_true ?_⟩
      intro heq
      have hmine := hw.held i n ((handle_of_get hq).trans heq.symm)
      have hsame := List.inj_on_of_nodup_map hw.distinct hmine hmem rfl
      exact hij (RefreshTask.mk.inj hsame).1
  · intro task htask
    exact hw.below task (List.mem_filter.mp htask).1

theorem tidy_drop {q' : Query T} (hw : Tidy w) :
    Tidy ((w.put i q').unregister q.unregister_refresh) := by
  intro task htask
  obtain ⟨htask, hkept⟩ := List.mem_filter.mp htask
  have hheld := hw task htask
  change handle_of (w.put i q') task.query = _
  rw [handle_put hq]
  split
  · rename_i hi
    rw [← hi, handle_of_get hq] at hheld
    exact absurd hheld.symm (of_decide_eq_true hkept)
  · exact hheld

end

theorem once_of_tidy (hw : Registered w) (htidy : Tidy w) (i : Nat) :
    (w.tasks.filter (fun task => task.query = i)).length ≤ 1 := by
  have hsame : ∀ a ∈ w.tasks.filter (fun task => task.query = i),
      ∀ b ∈ w.tasks.filter (fun task => task.query = i), a.handle = b.handle := by
    intro a ha b hb
    obtain ⟨ha, hai⟩ := List.mem_filter.mp ha
    obtain ⟨hb, hbi⟩ := List.mem_filter.mp hb
    have hhandle := htidy a ha
    rw [of_decide_eq_true hai, ← of_decide_eq_true hbi, htidy b hb] at hhandle
    simpa using hhandle.symm
  have hdistinct := hw.distinct.sublist
    ((List.filter_sublist (p := fun task : RefreshTask => decide (task.query = i))).map
      RefreshTask.handle)
  match hl : w.tasks.filter (fun task => task.query = i) with
  | [] => simp [hl]
  | [a] => simp [hl]
  | a :: b :: rest =>
    rw [hl] at hsame hdistinct
    have heq := hsame a (by simp) b (by simp)
    simp [heq] at hdistinct

/-! ### Every step -/

theorem registered_start (i : Nat) (hw : Registered w) : Registered (w.start i) := by
  unfold World.start
  split
  · exact hw
  · rename_i q hq
    split
    · have hnoted : SameTasks w (w.put i q.noted) := same_put hq rfl
      dsimp only
      split
      · exact (hnoted.trans (same_execute _ i false)).registered hw
      · exact hnoted.registered hw
    · exact (same_execute _ i false).registered (registered_enter hq hw)

theorem tidy_start (hw : Tidy w) (h : ∀ q, w.queries[i]? = some q → registers_again q = false) :
    Tidy (w.start i) := by
  unfold World.start
  split
  · exact hw
  · rename_i q hq
    split
    · have hnoted : SameTasks w (w.put i q.noted) := same_put hq rfl
      dsimp only
      split
      · exact (hnoted.trans (same_execute _ i false)).tidy hw
      · exact hnoted.tidy hw
    · rename_i hstarted
      refine (same_execute _ i false).tidy (tidy_enter hq ?_ hw)
      intro hauto
      have hnot := h q hq
      unfold registers_again at hnot
      simpa [hauto, hstarted] using hnot

theorem registered_stop (i : Nat) (hw : Registered w) : Registered (w.stop i) := by
  unfold World.stop
  split
  · exact hw
  · rename_i q hq
    exact registered_drop hq rfl hw

theorem tidy_stop (i : Nat) (hw : Tidy w) : Tidy (w.stop i) := by
  unfold World.stop
  split
  · exact hw
  · rename_i q hq
    exact tidy_drop hq hw

theorem registered_reset (i : Nat) (hw : Registered w) : Registered (w.reset i) := by
  unfold World.reset
  split
  · exact hw
  · rename_i q hq
    exact registered_drop hq rfl hw

theorem tidy_reset (i : Nat) (hw : Tidy w) : Tidy (w.reset i) := by
  unfold World.reset
  split
  · exact hw
  · rename_i q hq
    exact tidy_drop hq hw

/-- The query of a store is the one it had, or was just made. -/
theorem ensured {s : Nat} (hi : (w.ensure s).2 = some i)
    (hq : (w.ensure s).1.queries[i]? = some q) :
    (w.stores[s]?.bind ResourceStore.query = some i ∧ w.queries[i]? = some q) ∨
      ∃ auto_refresh, q = create_query auto_refresh none := by
  unfold World.ensure at hi hq
  split at hi
  · simp at hi
  · rename_i store hstore
    rw [hstore] at hq
    dsimp only at hq
    split at hi
    · rename_i j hj
      rw [hj] at hq
      simp only [Option.some.injEq] at hi
      subst hi
      rw [hstore, Option.bind_some]
      exact Or.inl ⟨hj, hq⟩
    · rename_i hj
      rw [hj] at hq
      simp only [Option.some.injEq] at hi
      subst hi
      right
      change (w.queries ++ [create_query store.auto_refresh none])[w.queries.length]? = _ at hq
      exact ⟨store.auto_refresh, by simpa using hq.symm⟩

/-! ## What every step keeps -/

/-- Nothing changes that a query or its refresh is made of. -/
structure SameQueries (w w' : World T) : Prop where
  queries : w'.queries = w.queries
  tasks : w'.tasks = w.tasks
  next_task : w'.next_task = w.next_task
  fetches : w'.fetches = w.fetches

/-- Each of the calls keeps it; a start does for a query that meets the condition. -/
structure Keeps (inv : World T → Prop) (ok : Query T → Prop) : Prop where
  same : ∀ w w', SameQueries w w' → inv w → inv w'
  added : ∀ w auto_refresh is_enabled, inv w → inv (w.add_query auto_refresh is_enabled)
  enabled : ∀ w i is_enabled, inv w → inv (w.enabled i is_enabled)
  executed : ∀ w i silent, inv w → inv (w.execute i silent).1
  closed : ∀ w id, inv w → inv (w.close_fetch id)
  finished : ∀ w fetch result, inv w → inv (w.finish fetch result)
  started : ∀ w i, (∀ q, w.queries[i]? = some q → ok q) → inv w → inv (w.start i)
  stopped : ∀ w i, inv w → inv (w.stop i)
  reset : ∀ w i, inv w → inv (w.reset i)

section
variable {inv : World T → Prop} {ok : Query T → Prop} (h : Keeps inv ok)
include h

theorem keeps_ensure {w : World T} (s : Nat) (hw : inv w) : inv (w.ensure s).1 := by
  unfold World.ensure
  split
  · exact hw
  · rename_i store _
    split
    · exact hw
    · exact h.same (w.add_query store.auto_refresh none) _ ⟨rfl, rfl, rfl, rfl⟩
        (h.added w store.auto_refresh none hw)

theorem keeps_on_store {w : World T} {s : Nat} {call : World T → Nat → World T} (hw : inv w)
    (hcall : ∀ i, (w.ensure s).2 = some i → inv (w.ensure s).1 → inv (call (w.ensure s).1 i)) :
    inv (w.on_store s call) := by
  have hensure := keeps_ensure h s hw
  unfold World.on_store
  split
  · rename_i w' i heq
    rw [heq] at hcall hensure
    exact hcall i rfl hensure
  · rename_i w' heq
    rw [heq] at hensure
    exact hensure

theorem keeps_stop_of {w : World T} (s : Nat) (hw : inv w) : inv (w.on_query_of s World.stop) := by
  unfold World.on_query_of
  split
  · exact h.stopped w _ hw
  · exact hw

theorem keeps_next {w : World T} (visited : Nat) (hw : inv w) : inv (w.run_next visited) := by
  unfold World.run_next
  split
  · exact h.same w _ ⟨rfl, rfl, rfl, rfl⟩ hw
  · rename_i task _
    exact h.same (w.execute task.query true).1 _ ⟨rfl, rfl, rfl, rfl⟩
      (h.executed w task.query true hw)

theorem keeps_all {w : World T} (hw : inv w) : inv w.run_all_tasks := by
  unfold World.run_all_tasks
  split
  · exact hw
  · split
    · exact h.same w _ ⟨rfl, rfl, rfl, rfl⟩ hw
    · exact keeps_next h 0 hw

theorem keeps_tick {w : World T} (hw : inv w) : inv w.tick := by
  unfold World.tick
  split
  · exact keeps_all h hw
  · exact hw

theorem keeps_woke {w : World T} (hw : inv w) : inv w.woke := by
  unfold World.woke
  split
  · exact keeps_next h _ hw
  · exact hw

theorem keeps_visibility {w : World T} (is_hidden : Bool) (hw : inv w) :
    inv (w.on_visibility_change is_hidden) := by
  unfold World.on_visibility_change
  dsimp only
  split
  · exact h.same w _ ⟨rfl, rfl, rfl, rfl⟩ hw
  · have hseen : inv { w with is_hidden, missed_while_hidden := false } :=
      h.same w _ ⟨rfl, rfl, rfl, rfl⟩ hw
    exact keeps_all h hseen

theorem keeps_settled {w : World T} (id : Nat) (result : Except Failure T) (hw : inv w) :
    inv (w.settled id result) := by
  unfold World.settled
  split
  · exact hw
  · rename_i fetch _
    exact h.same ((w.close_fetch id).finish fetch result) _ ⟨rfl, rfl, rfl, rfl⟩
      (h.finished _ fetch result (h.closed w id hw))

theorem keeps_scheduled {w : World T} (interval_ms : Int) (hw : inv w) :
    inv (w.start_refresh_scheduler interval_ms) := by
  unfold World.start_refresh_scheduler
  split
  · exact h.same w _ ⟨rfl, rfl, rfl, rfl⟩ hw
  · exact h.same w _ ⟨rfl, rfl, rfl, rfl⟩ hw

/-- What every call keeps, a step keeps that starts no query but those that meet the condition. -/
theorem keeps_step {w : World T} {e : Event T} (hw : inv w)
    (hok : ∀ i q, w.queries[i]? = some q →
      (e = .Start i ∨ ∃ s, e = .StoreStart s ∧ w.stores[s]?.bind ResourceStore.query = some i) →
      ok q)
    (hnew : ∀ auto_refresh, ok (create_query auto_refresh none)) : inv (step w e) := by
  cases e with
  | Created auto_refresh is_enabled => exact h.added w auto_refresh is_enabled hw
  | Start i => exact h.started w i (fun q hq => hok i q hq (Or.inl rfl)) hw
  | Stop i => exact h.stopped w i hw
  | Reset i => exact h.reset w i hw
  | Reload i => exact h.executed w i false hw
  | Refresh i => exact h.executed w i true hw
  | StoreStart s =>
    refine keeps_on_store h hw fun i hi hensure => h.started _ i ?_ hensure
    intro q hq
    rcases ensured hi hq with ⟨hstore, hold⟩ | ⟨auto_refresh, rfl⟩
    · exact hok i q hold (Or.inr ⟨s, rfl, hstore⟩)
    · exact hnew auto_refresh
  | StoreStop s => exact keeps_stop_of h s hw
  | StoreReset s =>
    exact h.same (w.on_query_of s World.stop) _ ⟨rfl, rfl, rfl, rfl⟩ (keeps_stop_of h s hw)
  | StoreReload s => exact keeps_on_store h hw fun i _ hensure => h.executed _ i false hensure
  | StoreRefresh s => exact keeps_on_store h hw fun i _ hensure => h.executed _ i true hensure
  | Enabled i is_enabled => exact h.enabled w i is_enabled hw
  | Authenticated is_authenticated => exact h.same w _ ⟨rfl, rfl, rfl, rfl⟩ hw
  | Clock now => exact h.same w _ ⟨rfl, rfl, rfl, rfl⟩ hw
  | Scheduled interval_ms => exact keeps_scheduled h interval_ms hw
  | Unscheduled => exact h.same w _ ⟨rfl, rfl, rfl, rfl⟩ hw
  | Tick => exact keeps_tick h hw
  | Visibility is_hidden => exact keeps_visibility h is_hidden hw
  | Woke => exact keeps_woke h hw
  | Settled fetch result => exact keeps_settled h fetch result hw

end

theorem keeps_registered : Keeps (T := T) Registered (fun _ => True) where
  same _ _ h hw := (same_of h.queries h.tasks h.next_task).registered hw
  added w auto_refresh is_enabled hw := (same_add w auto_refresh is_enabled).registered hw
  enabled w i is_enabled hw := (same_enabled w i is_enabled).registered hw
  executed w i silent hw := (same_execute w i silent).registered hw
  closed w id hw := (same_of rfl rfl rfl : SameTasks w (w.close_fetch id)).registered hw
  finished w fetch result hw := (same_finish w fetch result).registered hw
  started _ i _ hw := registered_start i hw
  stopped _ i hw := registered_stop i hw
  reset _ i hw := registered_reset i hw

theorem keeps_tidy : Keeps (T := T) Tidy (fun q => registers_again q = false) where
  same _ _ h hw := (same_of h.queries h.tasks h.next_task).tidy hw
  added w auto_refresh is_enabled hw := (same_add w auto_refresh is_enabled).tidy hw
  enabled w i is_enabled hw := (same_enabled w i is_enabled).tidy hw
  executed w i silent hw := (same_execute w i silent).tidy hw
  closed w id hw := (same_of rfl rfl rfl : SameTasks w (w.close_fetch id)).tidy hw
  finished w fetch result hw := (same_finish w fetch result).tidy hw
  started _ _ hok hw := tidy_start hw hok
  stopped _ i hw := tidy_stop i hw
  reset _ i hw := tidy_reset i hw

/-! ## Runs -/

/-- No run is ahead of its query, and the one that is level with it is the newest; a query that is
stopped has taken its task back. -/
structure Journaled (w : World T) : Prop where
  known : ∀ fetch ∈ w.fetches, fetch.query < w.queries.length
  newest : ∀ fetch ∈ w.fetches, ∀ q, w.queries[fetch.query]? = some q →
    fetch.run ≤ q.generation ∧ (fetch.run = q.generation → q.newest_run = some fetch.id)
  quiet : ∀ (i : Nat) (q : Query T), w.queries[i]? = some q → q.is_stopped = true →
    q.unregister_refresh = none

/-- The query goes on with the same run, or leaves all of its runs behind. -/
def GoesOn (q q' : Query T) : Prop :=
  (q'.generation = q.generation ∧ q'.newest_run = q.newest_run) ∨ q.generation < q'.generation

theorem journaled_put {q' : Query T} (hq : w.queries[i]? = some q) (hruns : GoesOn q q')
    (hquiet : q'.is_stopped = true → q'.unregister_refresh = none) (hw : Journaled w) :
    Journaled (w.put i q') := by
  refine ⟨?_, ?_, ?_⟩
  · intro fetch hfetch
    change fetch.query < (w.queries.set i q').length
    rw [List.length_set]
    exact hw.known fetch hfetch
  · intro fetch hfetch p hp
    rw [get_put hq] at hp
    split at hp
    · rename_i hi
      obtain rfl := Option.some.inj hp
      obtain ⟨hle, hlevel⟩ := hw.newest fetch hfetch q (hi ▸ hq)
      rcases hruns with ⟨hgeneration, hrun⟩ | hlt
      · rw [hgeneration, hrun]
        exact ⟨hle, hlevel⟩
      · refine ⟨by omega, ?_⟩
        intro heq
        omega
    · exact hw.newest fetch hfetch p hp
  · intro j p hp
    rw [get_put hq] at hp
    split at hp
    · obtain rfl := Option.some.inj hp
      exact hquiet
    · exact hw.quiet j p hp

theorem journaled_open (hq : w.queries[i]? = some q) (hrun : q.newest_run = some w.next_fetch)
    (hw : Journaled w) :
    Journaled (w.open_fetch i q.generation) := by
  refine ⟨?_, ?_, hw.quiet⟩
  · intro fetch hfetch
    rcases List.mem_append.mp hfetch with hfetch | hfetch
    · exact hw.known fetch hfetch
    · rw [List.mem_singleton.mp hfetch]
      exact (List.getElem?_eq_some_iff.mp hq).1
  · intro fetch hfetch p hp
    rcases List.mem_append.mp hfetch with hfetch | hfetch
    · exact hw.newest fetch hfetch p hp
    · rw [List.mem_singleton.mp hfetch] at hp ⊢
      obtain rfl := Option.some.inj (hq.symm.trans hp)
      exact ⟨Nat.le_refl _, fun _ => hrun⟩

theorem journaled_execute (i : Nat) (silent : Bool) (hw : Journaled w) :
    Journaled (w.execute i silent).1 := by
  unfold World.execute
  split
  · exact hw
  · rename_i q hq
    split
    · exact hw
    · split
      · cases silent
        · exact journaled_put hq (Or.inl ⟨rfl, rfl⟩) (hw.quiet i q hq) hw
        · exact hw
      · split
        · exact hw
        · have hput : Journaled (w.put i (q.begin_run silent w.next_fetch)) :=
            journaled_put hq (Or.inr (Nat.lt_succ_self _)) (hw.quiet i q hq) hw
          have hget := get_put hq (q.begin_run silent w.next_fetch) i
          rw [if_pos rfl] at hget
          exact journaled_open hget rfl hput

theorem journaled_finish (fetch : Fetch) (result : Except Failure T) (hw : Journaled w) :
    Journaled (w.finish fetch result) := by
  unfold World.finish
  split
  · exact hw
  · rename_i q hq
    have hquiet := hw.quiet fetch.query q hq
    split
    · exact hw
    · split
      · exact journaled_put hq (Or.inl ⟨rfl, rfl⟩) hquiet hw
      · exact journaled_put hq (Or.inl ⟨rfl, rfl⟩) hquiet hw
      · rename_i message
        have hput := @journaled_put _ w fetch.query q { q with error := some message }.finish_run
          hq (Or.inl ⟨rfl, rfl⟩) hquiet hw
        exact ⟨hput.known, hput.newest, hput.quiet⟩
      · exact journaled_put hq (Or.inl ⟨rfl, rfl⟩) hquiet hw

theorem journaled_enter (hq : w.queries[i]? = some q) (hw : Journaled w) :
    Journaled (w.enter i q) := by
  unfold World.enter
  split
  · have hput := @journaled_put _ w i q
      { q.noted with started := true, unregister_refresh := some w.next_task } hq
      (Or.inl ⟨rfl, rfl⟩) (fun h => by simp [Query.noted, Query.is_stopped] at h) hw
    exact ⟨hput.known, hput.newest, hput.quiet⟩
  · exact journaled_put hq (Or.inl ⟨rfl, rfl⟩)
      (fun h => by simp [Query.noted, Query.is_stopped] at h) hw

theorem journaled_start (i : Nat) (hw : Journaled w) : Journaled (w.start i) := by
  unfold World.start
  split
  · exact hw
  · rename_i q hq
    split
    · have hnoted : Journaled (w.put i q.noted) := journaled_put hq (Or.inl ⟨rfl, rfl⟩)
        (fun h => by simp [Query.noted, Query.is_stopped] at h) hw
      dsimp only
      split
      · exact journaled_execute i false hnoted
      · exact hnoted
    · exact journaled_execute i false (journaled_enter hq hw)

theorem journaled_stop (i : Nat) (hw : Journaled w) : Journaled (w.stop i) := by
  unfold World.stop
  split
  · exact hw
  · rename_i q hq
    have hput := @journaled_put _ w i q q.stopped hq (Or.inr (Nat.lt_succ_self _)) (fun _ => rfl) hw
    exact ⟨hput.known, hput.newest, hput.quiet⟩

theorem journaled_reset (i : Nat) (hw : Journaled w) : Journaled (w.reset i) := by
  unfold World.reset
  split
  · exact hw
  · rename_i q hq
    have hput := @journaled_put _ w i q q.cleared hq (Or.inr (Nat.lt_succ_self _)) (fun _ => rfl) hw
    exact ⟨hput.known, hput.newest, hput.quiet⟩

theorem journaled_add (auto_refresh : Bool) (is_enabled : Option Bool) (hw : Journaled w) :
    Journaled (w.add_query auto_refresh is_enabled) := by
  refine ⟨?_, ?_, ?_⟩
  · intro fetch hfetch
    have hlt := hw.known fetch hfetch
    change fetch.query < (w.queries ++ [_]).length
    rw [List.length_append]
    omega
  · intro fetch hfetch p hp
    change (w.queries ++ [_])[fetch.query]? = _ at hp
    rw [List.getElem?_append_left (hw.known fetch hfetch)] at hp
    exact hw.newest fetch hfetch p hp
  · intro i p hp
    change (w.queries ++ [_])[i]? = _ at hp
    rcases Nat.lt_or_ge i w.queries.length with hlt | hge
    · rw [List.getElem?_append_left hlt] at hp
      exact hw.quiet i p hp
    · rw [List.getElem?_append_right hge] at hp
      rw [List.mem_singleton.mp (List.mem_of_getElem? hp)]
      exact fun _ => rfl

theorem journaled_enabled (i : Nat) (is_enabled : Bool) (hw : Journaled w) :
    Journaled (w.enabled i is_enabled) := by
  unfold World.enabled
  split
  · exact hw
  · rename_i q hq
    exact journaled_put hq (Or.inl ⟨rfl, rfl⟩) (hw.quiet i q hq) hw

theorem keeps_journaled : Keeps (T := T) Journaled (fun _ => True) where
  same w w' h hw := by
    obtain ⟨hqueries, -, -, hfetches⟩ := h
    refine ⟨?_, ?_, ?_⟩
    · rw [hfetches, hqueries]
      exact hw.known
    · rw [hfetches, hqueries]
      exact hw.newest
    · rw [hqueries]
      exact hw.quiet
  added _ auto_refresh is_enabled hw := journaled_add auto_refresh is_enabled hw
  enabled _ i is_enabled hw := journaled_enabled i is_enabled hw
  executed _ i silent hw := journaled_execute i silent hw
  closed _ _ hw :=
    ⟨fun fetch h => hw.known fetch (List.mem_filter.mp h).1,
      fun fetch h => hw.newest fetch (List.mem_filter.mp h).1, hw.quiet⟩
  finished _ fetch result hw := journaled_finish fetch result hw
  started _ i _ hw := journaled_start i hw
  stopped _ i hw := journaled_stop i hw
  reset _ i hw := journaled_reset i hw

/-! ## What is promised -/

theorem registered_step (e : Event T) (hw : Registered w) : Registered (step w e) :=
  keeps_step keeps_registered hw (fun _ _ _ _ => trivial) fun _ => trivial

theorem journaled_step (e : Event T) (hw : Journaled w) : Journaled (step w e) :=
  keeps_step keeps_journaled hw (fun _ _ _ _ => trivial) fun _ => trivial

theorem tidy_step {e : Event T} (h : ¬ RegistersAgain w e) (hw : Tidy w) :
    Tidy (step w e) := by
  refine keeps_step keeps_tidy hw ?_ fun auto_refresh => by
    simp [registers_again, create_query]
  intro i q hq hstart
  by_contra hagain
  refine h ⟨i, q, hq, by simpa using hagain, ?_⟩
  rcases hstart with rfl | ⟨s, rfl, hstore⟩
  · rfl
  · exact hstore

/-- A fetch that comes back leaves every query alone but its own, and that one too unless its run
is the newest. -/
theorem settled_newest (hw : Journaled w) {q' : Query T} (hq : w.queries[i]? = some q) {id : Nat}
    {result : Except Failure T} (hq' : (w.settled id result).queries[i]? = some q') :
    q' = q ∨ q.newest_run = some id := by
  unfold World.settled at hq'
  split at hq'
  · exact Or.inl (Option.some.inj (hq'.symm.trans hq))
  · rename_i fetch hfetch
    have hid : fetch.id = id := by simpa using List.find?_some hfetch
    have hmem := List.mem_of_find?_eq_some hfetch
    change ((w.close_fetch id).finish fetch result).queries[i]? = some q' at hq'
    unfold World.finish at hq'
    split at hq'
    · exact Or.inl (Option.some.inj (hq'.symm.trans hq))
    · rename_i p hp
      split at hq'
      · exact Or.inl (Option.some.inj (hq'.symm.trans hq))
      · rename_i hlevel
        by_cases hi : fetch.query = i
        · subst hi
          obtain rfl := Option.some.inj (hp.symm.trans hq)
          right
          rw [← hid]
          exact (hw.newest fetch hmem p hq).2 (not_not.mp hlevel)
        · left
          have hother : ∀ p', ((w.close_fetch id).put fetch.query p').queries[i]? = some q := by
            intro p'
            rw [get_put hp, if_neg hi]
            exact hq
          split at hq'
          · exact Option.some.inj (hq'.symm.trans (hother _))
          · exact Option.some.inj (hq'.symm.trans (hother _))
          · exact Option.some.inj (hq'.symm.trans (hother _))
          · exact Option.some.inj (hq'.symm.trans (hother _))

theorem execute_fetches (w : World T) (i : Nat) (silent : Bool) :
    ∀ fetch ∈ (w.execute i silent).1.fetches, fetch ∈ w.fetches ∨ fetch.query = i := by
  unfold World.execute
  split
  · exact fun _ h => Or.inl h
  · rename_i q _
    split
    · exact fun _ h => Or.inl h
    · split
      · cases silent <;> exact fun _ h => Or.inl h
      · split
        · exact fun _ h => Or.inl h
        · intro fetch hfetch
          rcases List.mem_append.mp hfetch with hold | hnew
          · exact Or.inl hold
          · rw [List.mem_singleton.mp hnew]
            exact Or.inr rfl

/-- The loop fetches for a query that has a task. -/
theorem next_fetches (w : World T) (visited : Nat) :
    ∀ fetch ∈ (w.run_next visited).fetches,
      fetch ∈ w.fetches ∨ ∃ task ∈ w.tasks, task.query = fetch.query := by
  unfold World.run_next
  split
  · exact fun _ h => Or.inl h
  · rename_i task htask
    intro fetch hfetch
    rcases execute_fetches w task.query true fetch hfetch with hold | hnew
    · exact Or.inl hold
    · exact Or.inr ⟨task, List.mem_of_find?_eq_some htask, hnew.symm⟩

theorem all_fetches (w : World T) : ∀ fetch ∈ w.run_all_tasks.fetches,
    fetch ∈ w.fetches ∨ ∃ task ∈ w.tasks, task.query = fetch.query := by
  unfold World.run_all_tasks
  split
  · exact fun _ h => Or.inl h
  · split
    · exact fun _ h => Or.inl h
    · exact next_fetches w 0

theorem tick_fetches (w : World T) {e : Event T} (h : IsTick e) :
    ∀ fetch ∈ (step w e).fetches,
      fetch ∈ w.fetches ∨ ∃ task ∈ w.tasks, task.query = fetch.query := by
  cases e with
  | Tick =>
    change ∀ fetch ∈ w.tick.fetches, _
    unfold World.tick
    split
    · exact all_fetches w
    · exact fun _ h => Or.inl h
  | Visibility is_hidden =>
    change ∀ fetch ∈ (w.on_visibility_change is_hidden).fetches, _
    unfold World.on_visibility_change
    dsimp only
    split
    · exact fun _ h => Or.inl h
    · exact all_fetches { w with is_hidden, missed_while_hidden := false }
  | Woke =>
    change ∀ fetch ∈ w.woke.fetches, _
    unfold World.woke
    split
    · exact next_fetches w _
    · exact fun _ h => Or.inl h
  | _ => exact absurd h id

/-- A query whose tasks can all be taken back keeps its promise. -/
theorem sound_of_tidy (hregistered : Registered w) (hjournaled : Journaled w) (htidy : Tidy w) :
    AllSound w := by
  intro i q hq
  have hnone : q.is_stopped = true → ∀ task ∈ w.tasks, task.query ≠ i := by
    intro hstopped task htask heq
    have hheld := htidy task htask
    rw [heq, handle_of_get hq, hjournaled.quiet i q hq hstopped] at hheld
    simp at hheld
  refine ⟨?_, once_of_tidy hregistered htidy i, hnone, ?_⟩
  · intro fetch result q' hq' hchange
    rcases settled_newest hjournaled hq hq' with rfl | hrun
    · simp at hchange
    · exact hrun
  · intro hstopped e he fetch hfetch hquery
    rcases tick_fetches w he fetch hfetch with hold | ⟨task, htask, heq⟩
    · exact hold
    · exact absurd (heq.trans hquery) (hnone hstopped task htask)

/-- A start that registers once more breaks it. -/
theorem unsound_start (hq : w.queries[i]? = some q) (h : registers_again q = true)
    (hw : Registered w) : ¬ AllSound (w.start i) := by
  unfold registers_again at h
  simp only [Bool.and_eq_true, Bool.not_eq_true'] at h
  obtain ⟨⟨hauto, hstarted⟩, hheld⟩ := h
  have htwice := twice_enter hq hauto hheld hw
  have hsame := same_execute (w.enter i q) i false
  have hstart : w.start i = ((w.enter i q).execute i false).1 := by
    unfold World.start
    rw [hq]
    simp [hstarted]
  have hhandle : handle_of (w.start i) i = some w.next_task := by
    rw [hstart, hsame.handles, (enter_tasks hq hauto).2.2, if_pos rfl]
  obtain ⟨q', hq', -⟩ := Option.bind_eq_some_iff.mp hhandle
  intro hsound
  have honce := (hsound i q' hq').once
  rw [hstart, hsame.tasks] at honce
  omega

theorem unsound_of_again {e : Event T} (hw : Registered w) (h : RegistersAgain w e) :
    ¬ AllSound (step w e) := by
  obtain ⟨i, q, hq, hagain, he⟩ := h
  cases e with
  | Start j =>
    subst he
    exact unsound_start hq hagain hw
  | StoreStart s =>
    have hcall : w.on_store s World.start = w.start i := by
      obtain ⟨store, hstore, hi⟩ := Option.bind_eq_some_iff.mp he
      unfold World.on_store World.ensure
      simp only [hstore, hi]
    change ¬ AllSound (w.on_store s World.start)
    rw [hcall]
    exact unsound_start hq hagain hw
  | _ => exact absurd he id

theorem new_registered (stores : List Bool) : Registered (World.new (T := T) stores) :=
  ⟨fun i n h => by simp [handle_of, World.new] at h, List.nodup_nil, by simp [World.new]⟩

theorem new_journaled (stores : List Bool) : Journaled (World.new (T := T) stores) :=
  ⟨by simp [World.new], by simp [World.new], by simp [World.new]⟩

theorem new_tidy (stores : List Bool) : Tidy (World.new (T := T) stores) := by
  simp [Tidy, World.new]

theorem sound_along_iff (hregistered : Registered w) (hjournaled : Journaled w) (htidy : Tidy w)
    (events : List (Event T)) :
    (∀ w' ∈ states step w events, AllSound w') ↔
      Along step (fun w e => ¬ RegistersAgain w e) w events := by
  induction events generalizing w with
  | nil =>
    refine ⟨fun _ => trivial, ?_⟩
    intro _ w' hw'
    rw [states, List.mem_singleton] at hw'
    exact hw' ▸ sound_of_tidy hregistered hjournaled htidy
  | cons e rest ih =>
    have hnext := registered_step e hregistered
    have hnext' := journaled_step e hjournaled
    constructor
    · intro h
      have hok : ¬ RegistersAgain w e := by
        intro hagain
        exact unsound_of_again hregistered hagain
          (h _ (List.mem_cons_of_mem _ (head_mem_states _ _)))
      exact ⟨hok, (ih hnext hnext' (tidy_step hok htidy)).mp fun w' hw' =>
        h w' (List.mem_cons_of_mem _ hw')⟩
    · rintro ⟨hok, hrest⟩ w' hw'
      rcases List.mem_cons.mp hw' with rfl | hw'
      · exact sound_of_tidy hregistered hjournaled htidy
      · exact (ih hnext hnext' (tidy_step hok htidy)).mpr hrest w' hw'

/-- In every state of a run a query is fetched for by one task at most, by none once it is stopped,
and shows what its newest run brought, if and only if no start of the run finds the query's earlier
task still registered. -/
theorem queries_are_sound_iff (stores : List Bool) (events : List (Event T)) :
    (∀ w ∈ states step (World.new stores) events, AllSound w) ↔
      Along step (fun w e => ¬ RegistersAgain w e) (World.new stores) events :=
  sound_along_iff (new_registered stores) (new_journaled stores) (new_tidy stores) events

end

/-- Started before the session is there and again after, stopped, and fetched for ever after. -/
theorem a_stopped_query_is_refreshed :
    ¬ ∀ (stores : List Bool) (events : List (Event Unit)),
      ∀ w ∈ states step (World.new stores) events, AllSound w := by
  intro h
  have hend := h [true] [.StoreStart 0, .Authenticated true, .StoreStart 0, .StoreStop 0] _
    (run_mem_states _ _)
  exact (hend 0 _ rfl).unregistered rfl ⟨0, 0⟩ (by decide) rfl

end xrelease.dashboard
