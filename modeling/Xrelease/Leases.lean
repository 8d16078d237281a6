-- The laws of the delivery lease: while a claim's lease runs, nobody else's claim gets the row and
-- no backoff cuts the lease short, as long as every worker is done with a row before its own lease
-- on it runs out.
import Xrelease.Footprint
import Xrelease.Poll
import Xrelease.Trace

namespace xrelease.leases

open xrelease.model xrelease.store xrelease.engine xrelease.outbox xrelease.pipeline keyed calls

/-! ## What a claim takes, and what a backoff gives up -/

/-- The rows that a call leases. -/
def takes {β : Type} (op : Call β) (o : Oracle) (s : World) : List Nat :=
  if o.fails.isSome then []
  else
    match op with
    | .claim_outbox_batch limit _ =>
      claim_batch_ids s.db (s.tick o).now o.order o.back o.locked limit
    | .claim_outbox_row id _ => if claim_row_hit s.db (s.tick o).now id then [id] else []
    | _ => []

/-- A call leases no row on which the lease of another worker still runs. -/
def Excludes {β : Type} (w : Nat) (op : Call β) (o : Oracle) (s : World) : Prop :=
  ∀ id ∈ takes op o s, ∀ l ∈ s.book.lease id, l.1 ≠ w → l.2 < (s.tick o).now

/-- A call does not cut the running lease of another worker short: a backoff or a deferral of the
row ends no sooner than that lease, the row is not released, and no requeue hits any lease. -/
def Respects {β : Type} (w : Nat) (op : Call β) (o : Oracle) (s : World) : Prop :=
  match op with
  | .apply_delivery_backoff id backoff_secs | .defer_delivery id backoff_secs =>
    ∀ l ∈ s.book.lease id, l.1 ≠ w → l.2 ≤ (s.tick o).now + secs backoff_secs ∨
      l.2 < (s.tick o).now
  | .release_outbox_lease id => ∀ l ∈ s.book.lease id, l.1 ≠ w → l.2 < (s.tick o).now
  | .requeue_dead_outbox =>
    ∀ kr ∈ s.db.notification_outbox.select (fun _ r => r.status = .dead),
      ∀ l ∈ s.book.lease kr.1, l.2 < (s.tick o).now
  | _ => True

instance {β : Type} (w : Nat) (op : Call β) (o : Oracle) (s : World) :
    Decidable (Excludes w op o s) := by
  unfold Excludes
  infer_instance

instance {β : Type} (w : Nat) (op : Call β) (o : Oracle) (s : World) :
    Decidable (Respects w op o s) := by
  unfold Respects
  split <;> infer_instance

/-- How long the leases of a call are. -/
def lease_of {β : Type} : Call β → Nat
  | .claim_outbox_batch _ lease_secs => lease_secs
  | .claim_outbox_row _ lease_secs => lease_secs
  | _ => 0

/-- The row whose lease a worker gives up by the call. -/
def gives_up {β : Type} (op : Call β) (o : Oracle) : Option Nat :=
  if o.fails.isSome then none
  else
    match op with
    | .release_outbox_lease id => some id
    | .apply_delivery_backoff id _ => some id
    | .defer_delivery id _ => some id
    | _ => none

/-- A lease that a worker took and has not given up, with its own end. -/
structure OwnLease where
  worker : Nat
  row : Nat
  until_ : DateTime
deriving DecidableEq

/-- A worker's leases after a call: the new ones take the place of its older ones of the row. -/
def own_after {β : Type} (w : Nat) (op : Call β) (o : Oracle) (s : World) (own : List OwnLease) :
    List OwnLease :=
  (takes op o s).map (fun id => ⟨w, id, (s.tick o).now + secs (lease_of op)⟩) ++
    own.filter (fun l =>
      ¬(l.worker = w ∧ (l.row ∈ takes op o s ∨ gives_up op o = some l.row)))

/-- The workers, with the leases that each of them took. -/
def tracked (q : Workers × List OwnLease) (m : Move Oracle Outside) : Workers × List OwnLease :=
  (q.1.step machine m, match m with
    | .work w o =>
      match q.1.worker w with
      | .call op _ => own_after w op o q.1.state q.2
      | .done _ => q.2
      | .fail _ => q.2
    | .crash _ => q.2
    | .outside _ => q.2)

/-- A worker backs off, defers or releases a row while its own lease on it runs, and dead rows are
requeued when no lease on them runs. -/
def InTime {β : Type} (own : List OwnLease) (w : Nat) (op : Call β) (o : Oracle) (s : World) :
    Prop :=
  match op with
  | .apply_delivery_backoff id _ | .defer_delivery id _ | .release_outbox_lease id =>
    ∃ l ∈ own, l.worker = w ∧ l.row = id ∧ (s.tick o).now ≤ l.until_
  | .requeue_dead_outbox =>
    ∀ kr ∈ s.db.notification_outbox.select (fun _ r => r.status = .dead),
      ∀ l ∈ own, l.row = kr.1 → l.until_ < (s.tick o).now
  | _ => True

/-- No worker outlives its lease on a row that it is still to back off. -/
def Punctual (q : Workers × List OwnLease) (m : Move Oracle Outside) : Prop :=
  onCalls (fun w op o s => InTime q.2 w op o s) q.1 m

instance {β : Type} (own : List OwnLease) (w : Nat) (op : Call β) (o : Oracle) (s : World) :
    Decidable (InTime own w op o s) := by
  unfold InTime
  split <;> infer_instance

instance (q : Workers × List OwnLease) (m : Move Oracle Outside) : Decidable (Punctual q m) :=
  inferInstanceAs (Decidable (onCalls (fun w op o s => InTime q.2 w op o s) q.1 m))

/-! ## The invariant -/

/-- A lease that runs is backed by the lock of its row. -/
def Backed (s : World) : Prop :=
  ∀ id l, s.book.lease id = some l → s.now ≤ l.2 →
    ∃ r t, s.db.parent id = some r ∧ r.locked_until = some t ∧ l.2 ≤ t

/-- Every row that is there stays, with its lock. -/
def SameLocks (db db' : Db) : Prop :=
  ∀ id r, db.parent id = some r → ∃ r', db'.parent id = some r' ∧ r'.locked_until = r.locked_until

theorem sameLocks_of_parent {db db' : Db} (h : ∀ id, db'.parent id = db.parent id) :
    SameLocks db db' := fun id r hr => ⟨r, (h id).trans hr, rfl⟩

variable {s : World} {β : Type} {op : Call β}

/-- The calls that write the lock of a row. -/
def relocks {γ : Type} (op : Call γ) : Bool :=
  match op with
  | .claim_outbox_batch _ _ | .claim_outbox_row _ _ | .release_outbox_lease _
  | .apply_delivery_backoff _ _ | .defer_delivery _ _ | .requeue_dead_outbox => true
  | _ => false

theorem sameLocks_exec (h : relocks op = false) (w : Nat) (o : Oracle) (s : World) :
    SameLocks s.db (exec w op o s).2.db := by
  intro id r hr
  rcases row_exec hr with hsame | ⟨-, -, hnew⟩
  · exact ⟨r, hsame, rfl⟩
  · exact ⟨_, hnew, by cases op <;> first | rfl | cases h⟩

theorem lease_quiet (h : relocks op = false) (w : Nat) (o : Oracle) (s : World) :
    (exec w op o s).2.book.lease = s.book.lease := by
  cases hfail : o.fails <;> cases op <;> simp only [exec, stored, hfail]
  all_goals first
    | rfl
    | (split <;> rfl)
    | cases h

theorem now_exec (w : Nat) (op : Call β) (o : Oracle) (s : World) :
    (exec w op o s).2.now = (s.tick o).now := by
  cases hfail : o.fails <;> cases op <;> simp only [exec, stored, hfail]
  all_goals first
    | rfl
    | (split <;> rfl)

/-- A step that keeps the locks and makes no lease keeps them backed. -/
theorem backed_of_sameLocks {s' : World} (h : Backed s)
    (hlease : ∀ id l, s'.book.lease id = some l → s.book.lease id = some l) (hnow : s.now ≤ s'.now)
    (hdb : SameLocks s.db s'.db) : Backed s' := by
  intro id l hl hrun
  obtain ⟨r, t, hr, ht, hle⟩ := h id l (hlease id l hl) (le_trans hnow hrun)
  obtain ⟨r', hr', hlock⟩ := hdb id r hr
  exact ⟨r', t, hr', hlock.trans ht, hle⟩

theorem now_le_tick (s : World) (o : Oracle) : s.now ≤ (s.tick o).now := by
  exact Int.le_add_of_nonneg_right (Int.natCast_nonneg _)

theorem backed_tick (h : Backed s) (o : Oracle) : Backed (s.tick o) :=
  backed_of_sameLocks h (fun _ _ hl => hl) (now_le_tick s o) (sameLocks_of_parent (fun _ => rfl))

/-- New leases on rows that are locked just as long, the other rows as they were. -/
theorem backed_claimed (h : Backed s) (w : Nat) (ids : List Nat) (until_ : DateTime) {db : Db}
    (hin : ∀ id ∈ ids, ∃ r, db.parent id = some r ∧ r.locked_until = some until_)
    (hout : ∀ id, id ∉ ids → db.parent id = s.db.parent id) :
    Backed ((s.wrote db).claimed w ids until_) := by
  intro id l hl hrun
  by_cases hid : id ∈ ids
  · obtain ⟨r, hr, ht⟩ := hin id hid
    simp only [World.claimed, World.wrote, if_pos hid, Option.some.injEq] at hl
    subst hl
    exact ⟨r, until_, hr, ht, le_refl _⟩
  · simp only [World.claimed, World.wrote, if_neg hid] at hl
    obtain ⟨r, t, hr, ht, hle⟩ := h id l hl hrun
    exact ⟨r, t, (hout id hid).trans hr, ht, hle⟩

theorem backed_claim_batch (h : Backed s) (w : Nat) (order back locked : List Nat)
    (limit lease_secs : Nat) :
    Backed ((s.wrote (claim_outbox_batch s.db s.now order back locked limit lease_secs).2).claimed w
      (claim_batch_ids s.db s.now order back locked limit) (s.now + secs lease_secs)) := by
  apply backed_claimed h
  · intro id hid
    obtain ⟨r, hr, _⟩ := mem_claim_batch_ids s.db s.now id hid
    exact ⟨r.leased (s.now + secs lease_secs), by simp [claim_outbox_batch, hr, hid], rfl⟩
  · intro id hid
    simp [claim_outbox_batch, hid]

theorem backed_claim_row (h : Backed s) (w id lease_secs : Nat)
    (hit : claim_row_hit s.db s.now id = true) :
    Backed ((s.wrote (claim_outbox_row s.db s.now id lease_secs).2).claimed w [id]
      (s.now + secs lease_secs)) := by
  apply backed_claimed h
  · intro j hj
    obtain rfl := List.mem_singleton.mp hj
    obtain ⟨r, hr, hl⟩ := (Option.any_eq_true _ _).mp hit
    exact ⟨r.leased (s.now + secs lease_secs), by simp [claim_outbox_row, hr, hl], rfl⟩
  · intro j hj
    have hne : j ≠ id := fun he => hj (he ▸ List.mem_singleton_self _)
    simp [claim_outbox_row, hne]

/-- A write to the lock of one row by its holder, or one that reaches as far as the lease. -/
theorem backed_relock (h : Backed s) (w id : Nat) (f : OutboxRow → OutboxRow) (t : Option DateTime)
    (hf : ∀ r, (f r).locked_until = t)
    (hl : ∀ l ∈ s.book.lease id, l.1 ≠ w → s.now ≤ l.2 → ∃ u, t = some u ∧ l.2 ≤ u) :
    Backed ((s.wrote (s.db.updateOutbox (fun j _ => j = id) f)).given_up w id) := by
  intro j l hlease hrun
  change (if j = id ∧ (s.book.lease j).map Prod.fst = some w then none
    else s.book.lease j) = some l at hlease
  by_cases hkeep : j = id ∧ (s.book.lease j).map Prod.fst = some w
  · rw [if_pos hkeep] at hlease
    exact absurd hlease (by simp)
  · rw [if_neg hkeep] at hlease
    obtain ⟨r, u, hr, hu, hle⟩ := h j l hlease hrun
    by_cases hj : j = id
    · subst hj
      have hne : l.1 ≠ w := by
        intro he
        exact hkeep ⟨rfl, by simp [hlease, he]⟩
      obtain ⟨u', ht, hle'⟩ := hl l hlease hne hrun
      exact ⟨f r, u', by simp [World.given_up, World.wrote, hr], (hf r).trans ht, hle'⟩
    · exact ⟨r, u, by simp [World.given_up, World.wrote, hr, hj], hu, hle⟩

theorem backed_requeue (h : Backed s)
    (hl : ∀ kr ∈ s.db.notification_outbox.select (fun _ r => r.status = .dead),
      ∀ l ∈ s.book.lease kr.1, l.2 < s.now) :
    Backed (s.wrote (requeue_dead_outbox s.db).2) := by
  intro id l hlease hrun
  obtain ⟨r, t, hr, ht, hle⟩ := h id l hlease hrun
  have hlive : r.status ≠ .dead := by
    intro hd
    have hmem : (id, r) ∈ s.db.notification_outbox.select (fun _ r => r.status = .dead) := by
      rw [Serial.mem_select]
      exact ⟨hr, by simp [hd]⟩
    have hlt : l.2 < s.now := hl _ hmem l hlease
    exact absurd hrun (not_le.mpr hlt)
  exact ⟨r, t, by simp [World.wrote, requeue_dead_outbox, hr, hlive], ht, hle⟩

/-- Every call that respects the leases keeps them backed. -/
theorem backed_exec (w : Nat) (op : Call β) (o : Oracle) (h : Backed s) (hr : Respects w op o s) :
    Backed (exec w op o s).2 := by
  have ht : Backed (s.tick o) := backed_tick h o
  cases hlock : relocks op with
  | false =>
    refine backed_of_sameLocks ht (fun id l hl => ?_) (le_of_eq (now_exec w op o s).symm)
      (sameLocks_exec hlock w o s)
    rwa [lease_quiet hlock] at hl
  | true =>
    cases hfail : o.fails with
    | some e =>
      cases op <;> simp only [exec, stored, hfail]
      all_goals first
        | exact ht
        | cases hlock
    | none =>
      cases op <;> simp only [exec, stored, hfail]
      case claim_outbox_batch limit lease_secs => exact backed_claim_batch ht w _ _ _ _ _
      case claim_outbox_row id lease_secs =>
        split
        · rename_i hit
          exact backed_claim_row ht w id lease_secs hit
        · rename_i hit
          exact backed_of_sameLocks ht (fun _ _ hl => hl) (le_refl _) (sameLocks_of_parent (fun j =>
            parent_claim_miss s.db _ id lease_secs (Bool.eq_false_iff.mpr hit)))
      case release_outbox_lease id =>
        exact backed_relock ht w id _ none (fun _ => rfl)
          (fun l hl hne hrun => absurd hrun (not_le.mpr (hr l hl hne)))
      case apply_delivery_backoff id backoff_secs =>
        refine backed_relock ht w id _ (some ((s.tick o).now + secs backoff_secs)) (fun _ => rfl) ?_
        intro l hl hne hrun
        rcases hr l hl hne with hle | hlt
        · exact ⟨_, rfl, hle⟩
        · exact absurd hrun (not_le.mpr hlt)
      case defer_delivery id backoff_secs =>
        refine backed_relock ht w id _ (some ((s.tick o).now + secs backoff_secs)) (fun _ => rfl) ?_
        intro l hl hne hrun
        rcases hr l hl hne with hle | hlt
        · exact ⟨_, rfl, hle⟩
        · exact absurd hrun (not_le.mpr hlt)
      case requeue_dead_outbox => exact backed_requeue ht hr
      all_goals cases hlock

/-- Where the leases are backed, a claim takes only rows whose last lease has run out. -/
theorem excludes_of_backed (w : Nat) (op : Call β) (o : Oracle) (h : Backed s) :
    Excludes w op o s := by
  intro id hid l hl _
  have hrow : ∃ r, s.db.parent id = some r ∧ r.unlocked (s.tick o).now = true := by
    unfold takes at hid
    split at hid
    · exact absurd hid (by simp)
    · split at hid
      · obtain ⟨r, hr, hc⟩ := mem_claim_batch_ids _ _ id hid
        simp only [OutboxRow.claimable, Bool.and_eq_true] at hc
        exact ⟨r, hr, hc.1.2⟩
      · split at hid
        · rename_i j _ hit
          obtain rfl := List.mem_singleton.mp hid
          obtain ⟨r, hr, hc⟩ := (Option.any_eq_true _ _).mp hit
          simp only [OutboxRow.leasable, Bool.and_eq_true] at hc
          exact ⟨r, hr, hc.1.2⟩
        · exact absurd hid (by simp)
      · exact absurd hid (by simp)
  obtain ⟨r, hr, hfree⟩ := hrow
  by_contra hrun
  obtain ⟨r', t, hr', ht, hle⟩ := backed_tick h o id l hl (not_lt.mp hrun)
  obtain rfl : r = r' := Option.some.inj (hr.symm.trans hr')
  rw [OutboxRow.unlocked, ht, Option.all_some, decide_eq_true_eq] at hfree
  exact hrun (lt_of_le_of_lt hle hfree)

/-! ## Whose leases the record holds -/

/-- What a call does to the record of the leases. -/
theorem lease_exec (w : Nat) (op : Call β) (o : Oracle) (s : World) (id : Nat) :
    (exec w op o s).2.book.lease id =
      if id ∈ takes op o s then some (w, (s.tick o).now + secs (lease_of op))
      else if gives_up op o = some id ∧ (s.book.lease id).map Prod.fst = some w then none
      else s.book.lease id := by
  cases hfail : o.fails with
  | some e =>
    have htakes : takes op o s = [] := by unfold takes; rw [hfail]; rfl
    have hgives : gives_up op o = none := by unfold gives_up; rw [hfail]; rfl
    rw [htakes, hgives, if_neg (by simp), if_neg (by simp)]
    cases op <;> simp only [exec, stored, hfail]
    all_goals first
      | rfl
      | (split <;> rfl)
  | none =>
    have hgives : gives_up op o = match op with
        | .release_outbox_lease id => some id
        | .apply_delivery_backoff id _ => some id
        | .defer_delivery id _ => some id
        | _ => none := by
      unfold gives_up
      rw [hfail]
      rfl
    rw [hgives]
    have hno : ¬(none = some id ∧ (s.book.lease id).map Prod.fst = some w) := by simp
    cases op <;> simp only [exec, stored, takes, hfail, Option.isSome_none, Bool.false_eq_true,
      if_false, List.not_mem_nil]
    case claim_outbox_batch limit lease_secs =>
      rw [if_neg hno]
      rfl
    case claim_outbox_row j lease_secs =>
      rw [if_neg hno]
      have hclaims : (claim_outbox_row (s.tick o).db (s.tick o).now j lease_secs).1 =
          claim_row_hit s.db (s.tick o).now j := rfl
      rw [hclaims]
      cases claim_row_hit s.db (s.tick o).now j <;> rfl
    case release_outbox_lease j =>
      simp only [Option.some.injEq, eq_comm (a := j)]
      rfl
    case apply_delivery_backoff j backoff_secs =>
      simp only [Option.some.injEq, eq_comm (a := j)]
      rfl
    case defer_delivery j backoff_secs =>
      simp only [Option.some.injEq, eq_comm (a := j)]
      rfl
    all_goals
      rw [if_neg hno]
      first
        | rfl
        | (split <;> rfl)

/-- The record holds only leases that their workers have not given up, and of these every one that
runs. -/
structure Tracked (s : World) (own : List OwnLease) : Prop where
  owned : ∀ id l, s.book.lease id = some l → ⟨l.1, id, l.2⟩ ∈ own
  recorded : ∀ l ∈ own, s.now ≤ l.until_ → s.book.lease l.row = some (l.worker, l.until_)

theorem mem_own_after {w : Nat} {op : Call β} {o : Oracle} {own : List OwnLease} {l : OwnLease} :
    l ∈ own_after w op o s own ↔
      (l.worker = w ∧ l.row ∈ takes op o s ∧ l.until_ = (s.tick o).now + secs (lease_of op)) ∨
      (l ∈ own ∧ ¬(l.worker = w ∧ (l.row ∈ takes op o s ∨ gives_up op o = some l.row))) := by
  unfold own_after
  rw [List.mem_append, List.mem_map, List.mem_filter, decide_eq_true_eq]
  refine or_congr_left ?_
  constructor
  · rintro ⟨id, hid, rfl⟩
    exact ⟨rfl, hid, rfl⟩
  · rintro ⟨hworker, hrow, huntil⟩
    obtain ⟨worker, row, until_⟩ := l
    dsimp only at hworker huntil
    exact ⟨row, hrow, by rw [hworker, huntil]⟩

theorem tracked_exec {w : Nat} {op : Call β} {o : Oracle} {own : List OwnLease} (h : Tracked s own)
    (hexcludes : Excludes w op o s) :
    Tracked (exec w op o s).2 (own_after w op o s own) where
  owned := by
    intro id l hl
    rw [lease_exec] at hl
    split at hl
    · rename_i htaken
      obtain rfl := Option.some.inj hl
      exact mem_own_after.mpr (Or.inl ⟨rfl, htaken, rfl⟩)
    · rename_i htaken
      split at hl
      · cases hl
      · rename_i hgives
        refine mem_own_after.mpr (Or.inr ⟨h.owned id l hl, ?_⟩)
        rintro ⟨hw, htakes | hup⟩
        · exact htaken htakes
        · exact hgives ⟨hup, by rw [hl, Option.map_some, show l.1 = w from hw]⟩
  recorded := by
    intro l hl hrun
    rw [now_exec] at hrun
    rw [lease_exec]
    rcases mem_own_after.mp hl with ⟨hworker, hrow, huntil⟩ | ⟨hold, hkept⟩
    · rw [if_pos hrow, hworker, huntil]
    · have hlease := h.recorded l hold (le_trans (now_le_tick s o) hrun)
      by_cases hworker : l.worker = w
      · rw [if_neg (fun ht => hkept ⟨hworker, Or.inl ht⟩),
          if_neg (fun hg => hkept ⟨hworker, Or.inr hg.1⟩)]
        exact hlease
      · have hfree : l.row ∉ takes op o s := fun ht =>
          absurd hrun (not_le.mpr (hexcludes l.row ht _ hlease hworker))
        rw [if_neg hfree, if_neg]
        · exact hlease
        · rintro ⟨-, howner⟩
          rw [hlease] at howner
          exact hworker (Option.some.inj howner)

/-- A worker that is in time cuts no lease of another one short. -/
theorem respects_of_inTime {w : Nat} {op : Call β} {o : Oracle} {own : List OwnLease}
    (h : Tracked s own) (htime : InTime own w op o s) :
    Respects w op o s := by
  have hown : ∀ id, (∃ l ∈ own, l.worker = w ∧ l.row = id ∧ (s.tick o).now ≤ l.until_) →
      ∀ l ∈ s.book.lease id, l.1 = w := by
    rintro id ⟨l, hl, hworker, rfl, hrun⟩ l' hl'
    have hlease := h.recorded l hl (le_trans (now_le_tick s o) hrun)
    obtain rfl := Option.some.inj (hlease.symm.trans hl')
    exact hworker
  cases op with
  | apply_delivery_backoff id backoff_secs =>
    exact fun l hl hne => absurd (hown id htime l hl) hne
  | defer_delivery id backoff_secs => exact fun l hl hne => absurd (hown id htime l hl) hne
  | release_outbox_lease id => exact fun l hl hne => absurd (hown id htime l hl) hne
  | requeue_dead_outbox => exact fun kr hkr l hl => htime kr hkr _ (h.owned kr.1 l hl) rfl
  | _ => trivial

/-- What holds between two steps: leases are locks, and the record is that of the workers. -/
structure Orderly (q : Workers × List OwnLease) : Prop where
  backed : Backed q.1.state
  tracked : Tracked q.1.state q.2

theorem orderly_step {q : Workers × List OwnLease} {m : Move Oracle Outside} (h : Orderly q)
    (hm : Punctual q m) :
    Orderly (tracked q m) ∧ onCalls Excludes q.1 m ∧ onCalls Respects q.1 m := by
  unfold Punctual at hm
  unfold tracked
  cases m with
  | work w o =>
    simp only [onCalls] at hm ⊢
    simp only [Pool.step]
    cases hw : q.1.worker w with
    | call op next =>
      simp only [hw] at hm
      have hrespects := respects_of_inTime h.tracked hm
      have hexcludes := excludes_of_backed w op o h.backed
      exact ⟨⟨backed_exec w op o h.backed hrespects, tracked_exec h.tracked hexcludes⟩, hexcludes,
        hrespects⟩
    | done a => exact ⟨h, trivial, trivial⟩
    | fail e => exact ⟨h, trivial, trivial⟩
  | crash w => exact ⟨⟨h.backed, ⟨h.tracked.owned, h.tracked.recorded⟩⟩, trivial, trivial⟩
  | outside e =>
    cases e
    exact ⟨⟨h.backed, ⟨h.tracked.owned, h.tracked.recorded⟩⟩, trivial, trivial⟩

/-! ## The laws -/

theorem along_of_punctual {q : Workers × List OwnLease} {moves : List (Move Oracle Outside)}
    (h : Orderly q) (hrun : trace.Along tracked Punctual q moves) :
    Along machine (fun p m => onCalls Excludes p m ∧ onCalls Respects p m) q.1 moves := by
  induction moves generalizing q with
  | nil => trivial
  | cons m rest ih =>
    obtain ⟨hkept, hlaws⟩ := orderly_step h hrun.1
    exact ⟨hlaws, ih hkept hrun.2⟩

/-- In every interleaving of workers, whatever they run, in which each of them backs off, defers
or releases a row before its own lease on it has run out, and no requeue finds a lease on a dead
row: no claim takes a row on which another worker's lease runs, and no call cuts one short. -/
theorem a_running_lease_keeps_the_row (work : Nat → Work Unit) (db : Db) (now : DateTime)
    (notifiers : Notifier) (moves : List (Move Oracle Outside))
    (h : trace.Along tracked Punctual (⟨World.start db now notifiers, work⟩, []) moves) :
    Along machine (fun p m => onCalls Excludes p m ∧ onCalls Respects p m)
      ⟨World.start db now notifiers, work⟩ moves := by
  have hnone : ∀ id, (World.start db now notifiers).book.lease id = none := fun _ => rfl
  refine along_of_punctual ⟨?_, ?_, ?_⟩ h
  · intro id l hl
    rw [hnone] at hl
    cases hl
  · intro id l hl
    exact absurd ((hnone id).symm.trans hl) (by simp)
  · intro l hl
    cases hl

/-! ## A slow worker that outlives its lease -/

/-- One row waits for one sink. -/
def one_row : Db :=
  (insert_outbox Db.empty 0 ⟨"github:o/r", "GitHub", "r: new release v1", "", none, none⟩ "v1"
    ⟨some "d", none, none, none⟩).2

def one_hook : Notifier := [⟨⟨.webhook, "hook", "https://example.test/hook"⟩, []⟩]

def three_flushes : Workers :=
  starting (fun w => if w < 3 then .flush 1 else .idle) (World.start one_row 0 one_hook)

/-- The first flush claims the row and its send takes longer than the lease; the second flush
claims the row again; the late failure of the first sets its own backoff; the third flush
claims the row 61 seconds into a lease of 300. -/
def slow_send : List (Move Oracle Outside) :=
  List.replicate 8 (.work 0 {}) ++
    [.work 0 { elapsed := 301000000, notify := .error (.http "timeout") }] ++
    List.replicate 2 (.work 1 {}) ++ List.replicate 6 (.work 0 {}) ++
    [.work 2 {}, .work 2 { elapsed := 61000000 }]

theorem a_late_backoff_ends_anothers_lease :
    ¬ Along machine (onCalls Excludes) three_flushes slow_send := by
  decide +kernel

/-- The send of the first flush fails in time and is backed off; a minute later the second flush
gets the row, holds it against the third, and backs it off in turn. -/
def prompt_sends : List (Move Oracle Outside) :=
  List.replicate 8 (.work 0 {}) ++
    [.work 0 { elapsed := 10000000, notify := .error (.http "timeout") }] ++
    List.replicate 6 (.work 0 {}) ++ [.work 1 {}, .work 1 { elapsed := 61000000 }, .work 2 {},
      .work 2 {}] ++ List.replicate 6 (.work 1 {}) ++
    [.work 1 { elapsed := 10000000, notify := .error (.http "timeout") }] ++
    List.replicate 6 (.work 1 {})

theorem a_running_lease_keeps_the_row_here :
    Along machine (fun p m => onCalls Excludes p m ∧ onCalls Respects p m) three_flushes
      prompt_sends :=
  a_running_lease_keeps_the_row _ one_row 0 one_hook _ (by decide +kernel)

end xrelease.leases
