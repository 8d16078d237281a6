-- The law of the stored ETag: which releases a poll hides when it leaves the ETag of an answer
-- behind. It stores the ETag before it puts the answer on record, so a release that a failing
-- store call cuts off is one of them.
import Xrelease.Polled
import Xrelease.Walks

namespace xrelease.etag

open xrelease.model xrelease.store xrelease.engine xrelease.outbox xrelease.pipeline
open xrelease.recorded xrelease.polled xrelease.pieces xrelease.walks
open keyed calls calls.Prog calls.Terms

/-! ## Which ETag a poll leaves behind -/

/-- A call that stores an ETag. -/
def stamps {γ : Type} (op : Call γ) : Prop :=
  match op with
  | .set_etag _ _ => True
  | _ => False

theorem etag_from_exec {β : Type} {w : Nat} {op : Call β} {o : Oracle} {s : World}
    (h : ¬ stamps op) : (exec w op o s).2.book.etag_from = s.book.etag_from := by
  cases hfail : o.fails with
  | some e =>
    cases op <;> simp only [exec, stored, hfail]
    all_goals first
      | rfl
      | (split <;> rfl)
  | none =>
    cases op <;> simp only [exec, stored, hfail]
    case set_etag => exact absurd trivial h
    all_goals first
      | rfl
      | (split <;> rfl)

theorem not_stamps_of_delivers {γ : Type} (op : Call γ) (h : delivers op) : ¬ stamps op := by
  cases op <;> first | exact fun hs => hs | exact fun _ => h.elim (fun _ h => h.elim fun _ h =>
    h.elim fun _ h => h)

theorem not_stamps_of_selects {γ : Type} (op : Call γ) (h : selects op) : ¬ stamps op := by
  cases op <;> first | exact fun hs => hs | exact h.elim

theorem stamps_deliver_new_releases (watch : Watch) (releases : List Release) :
    (deliver_new_releases watch releases).Never stamps := by
  rw [deliver_new_releases_eq]
  refine never_bind (keeps_note_latest compositional_never (fun _ _ h => h)) (fun _ => ?_)
  exact keeps_after_note compositional_never not_stamps_of_selects
    (never_deliver_release not_stamps_of_delivers watch) (fun _ _ h => h)

/-- The answer whose ETag a poll stores when no store call fails. -/
structure Kept where
  answer : FetchOutcome
  /-- The number of the call that stores it. -/
  call : Nat
  /-- It is the answer that the poll goes on to put on record, not that of the refresh. -/
  diffed : Bool

/-- The refresh of a 304: it fetches in call 3 of those from the first fetch on, and stores the
ETag in call 5. -/
def kept_of_refresh (os : Nat → Oracle) : Option Kept :=
  match (os 3).fetch with
  | .error _ => none
  | .ok answer =>
    if answer.not_modified || answer.etag.isNone then none else some ⟨answer, 5, false⟩

/-- From the fetch on, which is call 0. -/
def kept_of_fetch (db : Db) (watch : Watch) (force_fetch : Bool) (os : Nat → Oracle) :
    Option Kept :=
  match (os 0).fetch with
  | .error _ => none
  | .ok answer =>
    if answer.not_modified then
      if force_fetch || !has_seen_missing_published_at db watch.provider.id then none
      else kept_of_refresh os
    else if answer.etag.isNone then none else some ⟨answer, 2, true⟩

/-- A poll that is not forced asks for the stored ETag first. -/
def kept_answer (db : Db) (watch : Watch) (force_fetch : Bool) (os : Nat → Oracle) :
    Option Kept :=
  if force_fetch then kept_of_fetch db watch force_fetch os
  else
    (kept_of_fetch db watch force_fetch (fun n => os (n + 1))).map
      (fun k => { k with call := k.call + 1 })

/-- How a poll ends: it has stored no ETag, and then there was none to store or a store call
failed first; or it has, and then it went on to put the answer on record or it is over. -/
def Ends (watch : Watch) (w : Nat) (kept : Option Kept) (os : Nat → Oracle) (s t : World) :
    Prop :=
  (t.book.etag_from watch.provider.id = s.book.etag_from watch.provider.id ∧
    ∀ k, kept = some k → ∃ n ≤ k.call, (os n).fails ≠ none) ∨
  ∃ k, kept = some k ∧ t.book.etag_from watch.provider.id = some k.answer ∧
    if k.diffed then
      ∃ s₁, Quiet watch.provider.id s.db s₁.db ∧
        t = (alone machine w (deliver_new_releases watch k.answer.releases)
          (fun n => os (n + (k.call + 1))) s₁).2.1
    else Quiet watch.provider.id s.db t.db

theorem etag_from_alone {α : Type} {p : Work α} (hp : p.Never stamps) (w : Nat)
    (os : Nat → Oracle) (s : World) :
    (alone machine w p os s).2.1.book.etag_from = s.book.etag_from := by
  refine alone_keeps stamps (fun (t : World) => t.book.etag_from = s.book.etag_from) hp ?_ rfl
  intro β op o t hop ht
  exact (etag_from_exec (w := w) hop).trans ht

/-- The poll once the ETag to send along is known. -/
def from_fetch (watch : Watch) (force_fetch : Bool) (etag : Option String) : Work Nat :=
  (fetch_or_touch watch.provider.id etag).bind (fun outcome =>
    (perform (.touch_polled watch.provider.id)).bind (fun _ =>
      if outcome.not_modified then
        (poll_not_modified watch force_fetch).bind (fun _ => done 0)
      else
        (store_etag watch.provider.id outcome.etag).bind (fun _ =>
          deliver_new_releases watch outcome.releases)))

theorem poll_eq (watch : Watch) (force_fetch : Bool) :
    poll_once_inner watch force_fetch =
      (stored_etag watch.provider.id force_fetch).bind (from_fetch watch force_fetch) := rfl

section Ends

variable {watch : Watch} {w : Nat} {os : Nat → Oracle} {s : World}

/-- The full answer: its ETag first, then its releases. -/
theorem ends_full {answer : FetchOutcome} {kept : Option Kept} {t : World}
    (hq : Quiet watch.provider.id s.db t.db) (hetag : t.book.etag_from = s.book.etag_from)
    (hfetched : t.book.fetched w = some answer)
    (hkept : kept = if answer.etag.isNone then none else some ⟨answer, 2, true⟩) :
    Ends watch w kept os s
      (alone machine w ((store_etag watch.provider.id answer.etag).bind (fun _ =>
        deliver_new_releases watch answer.releases)) (fun n => os (n + 2)) t).2.1 := by
  cases he : answer.etag with
  | none =>
    left
    refine ⟨?_, fun k hk => by simp [hkept, he] at hk⟩
    exact (congrFun (etag_from_alone (stamps_deliver_new_releases watch answer.releases) w _ t)
      _).trans (congrFun hetag _)
  | some etag =>
    simp only [store_etag]
    cases hexec : machine.exec w (.set_etag watch.provider.id (some etag)) (os 2) t with
    | mk r t' =>
    cases r with
    | error e =>
      left
      rw [alone_call_error (fun n => os (n + 2)) hexec]
      obtain ⟨hfail, rfl⟩ := stored_error hexec
      refine ⟨congrFun hetag _, ?_⟩
      intro k hk
      rw [hkept, he] at hk
      obtain rfl := Option.some.inj hk
      exact ⟨2, Nat.le_refl 2, hfail⟩
    | ok _ =>
      right
      rw [alone_call_ok (fun n => os (n + 2)) hexec]
      obtain ⟨_, heq⟩ := stored_ok hexec
      obtain ⟨_, rfl⟩ := Prod.mk.inj heq
      refine ⟨⟨answer, 2, true⟩, by rw [hkept, he]; rfl, ?_, ?_⟩
      · rw [etag_from_alone (stamps_deliver_new_releases watch answer.releases)]
        simp only [World.stamped, if_true]
        exact hfetched
      · refine ⟨_, hq.trans ?_, rfl⟩
        exact quiet_state t.db _ (fun st => { st with etag := some etag }) (fun _ => rfl)

theorem quiet_alone {α : Type} {p : Work α} {Q : Bool → α → Prop} (hp : p.Within quiet Q false)
    (source_id : String) (w : Nat) (os : Nat → Oracle) (s : World) :
    Quiet source_id s.db (alone machine w p os s).2.1.db :=
  (alone_by_itself os (fun h => absurd h id) (safe_quiet False source_id hp)).1

theorem not_stamps_of_quiet {γ : Type} {op : Call γ} (h : quiet op) : ¬ stamps op := by
  cases op <;> first | exact fun h => h | exact False.elim h

/-- What is left of a 304 whose refresh is over or was not needed. -/
abbrev after_refresh (watch : Watch) : Work Nat :=
  (backfill_latest_release_tag_if_missing watch.provider.id).bind (fun _ => done 0)

theorem quiet_after_refresh (watch : Watch) :
    (after_refresh watch).Within quiet (fun _ _ => True) false :=
  within_bind (quiet_backfill watch.provider.id) (fun _ _ _ => trivial)

theorem etag_from_after_refresh (watch : Watch) (w : Nat) (os : Nat → Oracle) (t : World) :
    (alone machine w (after_refresh watch) os t).2.1.book.etag_from = t.book.etag_from :=
  etag_from_alone (never_of_within (quiet_after_refresh watch) (fun _ => not_stamps_of_quiet)) w os t

theorem call_of_kept_of_refresh {k : Kept} (h : kept_of_refresh os = some k) : k.call = 5 := by
  unfold kept_of_refresh at h
  split at h
  · exact absurd h (by simp)
  · split at h
    · exact absurd h (by simp)
    · obtain rfl := Option.some.inj h
      rfl

/-- The refresh stores its ETag last, and nothing of its answer is put on record. -/
theorem ends_refresh {t : World} (hq : Quiet watch.provider.id s.db t.db)
    (hetag : t.book.etag_from = s.book.etag_from) :
    Ends watch w (kept_of_refresh os) os s
      (alone machine w ((refresh_seen_metadata watch).bind (fun _ => after_refresh watch))
        (fun n => os (n + 3)) t).2.1 := by
  have cut : ∀ t' : World, t'.book.etag_from = s.book.etag_from →
      (∃ n ≤ 5, (os n).fails ≠ none) → Ends watch w (kept_of_refresh os) os s t' := by
    intro t' ht' hfail
    refine Or.inl ⟨congrFun ht' _, ?_⟩
    intro k hk
    rw [call_of_kept_of_refresh hk]
    exact hfail
  have done_with : ∀ (os' : Nat → Oracle) (t' : World), t'.book.etag_from = s.book.etag_from →
      kept_of_refresh os = none →
      Ends watch w (kept_of_refresh os) os s (alone machine w (after_refresh watch) os' t').2.1 := by
    intro os' t' ht' hk
    refine Or.inl ⟨congrFun ((etag_from_after_refresh watch w os' t').trans ht') _, ?_⟩
    rw [hk]
    exact fun k h => absurd h (by simp)
  unfold refresh_seen_metadata
  simp only [bind_eq, bind_assoc]
  cases hfetch : (os 3).fetch with
  | error e =>
    have hexec : machine.exec w (.fetch none) (os 3) t = (.error (.source e), t.tick (os 3)) := by
      simp [machine, exec, hfetch]
    rw [alone_call_error (fun n => os (n + 3)) hexec]
    refine Or.inl ⟨congrFun hetag _, fun k hk => ?_⟩
    exact absurd hk (by simp [kept_of_refresh, hfetch])
  | ok answer =>
    have hexec : machine.exec w (.fetch none) (os 3) t =
        (.ok answer, (t.tick (os 3)).got w answer) := by
      simp [machine, exec, hfetch]
    rw [alone_call_ok (fun n => os (n + 3)) hexec]
    split
    · rename_i hnot
      exact done_with _ _ hetag (by simp [kept_of_refresh, hfetch, hnot])
    · rename_i hnot
      simp only [bind_assoc]
      cases henrich : machine.exec w (.enrich_seen_metadata watch.provider.id
          (answer.releases.filter watch.filter.accepts)) (os 4) ((t.tick (os 3)).got w answer) with
      | mk r t₁ =>
      cases r with
      | error e =>
        rw [alone_call_error (fun n => os (n + 1 + 3)) henrich]
        obtain ⟨hfail, rfl⟩ := stored_error henrich
        exact cut _ hetag ⟨4, by omega, hfail⟩
      | ok _ =>
        rw [alone_call_ok (fun n => os (n + 1 + 3)) henrich]
        have hq₁ : Quiet watch.provider.id t.db t₁.db :=
          quiet_of_exec (s := (t.tick (os 3)).got w answer) henrich trivial
        obtain ⟨_, heq⟩ := stored_ok henrich
        obtain ⟨_, rfl⟩ := Prod.mk.inj heq
        cases he : answer.etag with
        | none => exact done_with _ _ hetag (by simp [kept_of_refresh, hfetch, he])
        | some etag =>
        cases hset : machine.exec w (.set_etag watch.provider.id (some etag)) (os 5) _ with
        | mk r t₂ =>
        cases r with
        | error e =>
          simp only [store_etag]
          rw [alone_call_error (fun n => os (n + 1 + 1 + 3)) hset]
          obtain ⟨hfail, rfl⟩ := stored_error hset
          exact cut _ hetag ⟨5, by omega, hfail⟩
        | ok _ =>
          simp only [store_etag]
          rw [alone_call_ok (fun n => os (n + 1 + 1 + 3)) hset]
          obtain ⟨_, heq₂⟩ := stored_ok hset
          obtain ⟨_, rfl⟩ := Prod.mk.inj heq₂
          right
          refine ⟨⟨answer, 5, false⟩, by simp [kept_of_refresh, hfetch, hnot, he], ?_, ?_⟩
          · rw [etag_from_after_refresh]
            simp [World.stamped, World.got, World.wrote, World.tick]
          · refine (hq.trans hq₁).trans
              (Quiet.trans ?_ (quiet_alone (quiet_after_refresh watch) _ _ _ _))
            exact quiet_state _ _ (fun st => { st with etag := some etag }) (fun _ => rfl)

/-- A 304: no ETag of its own, and that of the refresh where one is made. -/
theorem ends_not_modified (force_fetch : Bool) {t : World}
    (hq : Quiet watch.provider.id s.db t.db) (hetag : t.book.etag_from = s.book.etag_from) :
    Ends watch w
      (if force_fetch || !has_seen_missing_published_at t.db watch.provider.id then none
        else kept_of_refresh os) os s
      (alone machine w ((poll_not_modified watch force_fetch).bind (fun _ => done 0))
        (fun n => os (n + 2)) t).2.1 := by
  have done_with : ∀ (os' : Nat → Oracle) (t' : World), t'.book.etag_from = s.book.etag_from →
      Ends watch w none os s (alone machine w (after_refresh watch) os' t').2.1 := by
    intro os' t' ht'
    refine Or.inl ⟨congrFun ((etag_from_after_refresh watch w os' t').trans ht') _, ?_⟩
    exact fun k h => absurd h (by simp)
  unfold poll_not_modified refresh_if_missing
  simp only [bind_eq, bind_assoc]
  cases force_fetch with
  | true => exact done_with _ _ hetag
  | false =>
    simp only [Bool.false_or, Bool.not_eq_true', Bool.false_eq_true, if_false, bind_assoc]
    cases hexec : machine.exec w (.has_seen_missing_published_at watch.provider.id) (os 2) t with
    | mk r t₁ =>
    cases r with
    | error e =>
      rw [alone_call_error (fun n => os (n + 2)) hexec]
      obtain ⟨hfail, rfl⟩ := stored_error hexec
      refine Or.inl ⟨congrFun hetag _, fun k hk => ?_⟩
      split at hk
      · exact absurd hk (by simp)
      · rw [call_of_kept_of_refresh hk]
        exact ⟨2, by omega, hfail⟩
    | ok missing =>
      rw [alone_call_ok (fun n => os (n + 2)) hexec]
      obtain ⟨_, heq⟩ := stored_ok hexec
      obtain ⟨rfl, rfl⟩ := Prod.mk.inj heq
      change Ends watch w (if has_seen_missing_published_at t.db watch.provider.id = false then none
        else kept_of_refresh os) os s (alone machine w
        ((if has_seen_missing_published_at t.db watch.provider.id = true then
          refresh_seen_metadata watch else done ()).bind _) _ _).2.1
      cases has_seen_missing_published_at t.db watch.provider.id with
      | false => exact done_with _ _ hetag
      | true => exact ends_refresh hq hetag

theorem call_of_kept_of_fetch {db : Db} {force_fetch : Bool} {k : Kept}
    (h : kept_of_fetch db watch force_fetch os = some k) : 2 ≤ k.call := by
  unfold kept_of_fetch at h
  split at h
  · exact absurd h (by simp)
  · split at h
    · split at h
      · exact absurd h (by simp)
      · rw [call_of_kept_of_refresh h]
        omega
    · split at h
      · exact absurd h (by simp)
      · obtain rfl := Option.some.inj h
        exact Nat.le_refl 2

/-- The poll from its first fetch on. -/
theorem ends_from_fetch (os : Nat → Oracle) (s : World) (force_fetch : Bool)
    (etag : Option String) :
    Ends watch w (kept_of_fetch s.db watch force_fetch os) os s
      (alone machine w (from_fetch watch force_fetch etag) os s).2.1 := by
  unfold from_fetch fetch_or_touch
  simp only [bind_eq, bind_assoc]
  rw [alone_caught_call]
  cases hfetch : (os 0).fetch with
  | error e =>
    have hexec : machine.exec w (.fetch etag) (os 0) s = (.error (.source e), s.tick (os 0)) := by
      simp [machine, exec, hfetch]
    rw [hexec]
    simp only [bind_assoc]
    have hnever : ((perform (.touch_polled watch.provider.id)).caught.bind
        (fun _ => (fail (.source e) : Work Nat))).Never stamps :=
      never_bind (never_caught (never_perform (fun h => h))) (fun _ => trivial)
    refine Or.inl ⟨?_, fun k hk => absurd hk (by simp [kept_of_fetch, hfetch])⟩
    exact congrFun (etag_from_alone hnever w _ (s.tick (os 0))) _
  | ok answer =>
    have hexec : machine.exec w (.fetch etag) (os 0) s =
        (.ok answer, (s.tick (os 0)).got w answer) := by
      simp [machine, exec, hfetch]
    rw [hexec]
    simp only [pure_eq, done_bind]
    cases htouch : machine.exec w (.touch_polled watch.provider.id) (os 1)
        ((s.tick (os 0)).got w answer) with
    | mk r t =>
    cases r with
    | error e =>
      rw [alone_call_error (fun n => os (n + 1)) htouch]
      obtain ⟨hfail, rfl⟩ := stored_error htouch
      exact Or.inl ⟨rfl, fun k hk => ⟨1, le_trans (by omega) (call_of_kept_of_fetch hk), hfail⟩⟩
    | ok _ =>
      rw [alone_call_ok (fun n => os (n + 1)) htouch]
      have hq : Quiet watch.provider.id s.db t.db :=
        quiet_of_exec (s := (s.tick (os 0)).got w answer) htouch trivial
      obtain ⟨_, heq⟩ := stored_ok htouch
      obtain ⟨_, rfl⟩ := Prod.mk.inj heq
      split
      · rename_i hnot
        have hkept : kept_of_fetch s.db watch force_fetch os =
            if force_fetch || !has_seen_missing_published_at s.db watch.provider.id then none
            else kept_of_refresh os := by
          simp [kept_of_fetch, hfetch, hnot]
        rw [hkept]
        exact ends_not_modified force_fetch hq rfl
      · rename_i hnot
        refine ends_full hq rfl ?_ ?_
        · simp [World.wrote, World.tick, World.got]
        · simp [kept_of_fetch, hfetch, hnot]

/-- Every poll ends so. -/
theorem poll_ends (watch : Watch) (force_fetch : Bool) (w : Nat) (os : Nat → Oracle) (s : World) :
    Ends watch w (kept_answer s.db watch force_fetch os) os s
      (alone machine w (poll_once_inner watch force_fetch) os s).2.1 := by
  rw [poll_eq]
  unfold stored_etag
  cases force_fetch with
  | true => exact ends_from_fetch os s true none
  | false =>
    simp only [Bool.false_eq_true, if_false]
    cases hexec : machine.exec w (.get_etag watch.provider.id) (os 0) s with
    | mk r s₁ =>
    cases r with
    | error e =>
      rw [alone_call_error os hexec]
      obtain ⟨hfail, rfl⟩ := stored_error hexec
      exact Or.inl ⟨rfl, fun k _ => ⟨0, Nat.zero_le _, hfail⟩⟩
    | ok etag =>
      rw [alone_call_ok os hexec]
      obtain ⟨_, heq⟩ := stored_ok hexec
      obtain ⟨_, rfl⟩ := Prod.mk.inj heq
      rcases ends_from_fetch (fun n => os (n + 1)) (s.tick (os 0)) false etag with
        ⟨hetag, hnone⟩ | ⟨k, hk, hetag, hrest⟩
      · refine Or.inl ⟨hetag, ?_⟩
        intro k hk
        simp only [kept_answer, Bool.false_eq_true, if_false] at hk
        obtain ⟨k', hk', rfl⟩ := Option.map_eq_some_iff.mp hk
        obtain ⟨n, hn, hfail⟩ := hnone k' hk'
        exact ⟨n + 1, Nat.succ_le_succ hn, hfail⟩
      · refine Or.inr ⟨{ k with call := k.call + 1 }, ?_, hetag, hrest⟩
        simp only [kept_answer, Bool.false_eq_true, if_false]
        exact Option.map_eq_some_iff.mpr ⟨k, hk, rfl⟩

end Ends

/-! ## What an ETag hides -/

/-- No accepted release of the answer is hidden behind its ETag. -/
def NothingHidden (watch : Watch) (answer : FetchOutcome) (db : Db) : Prop :=
  ∀ r ∈ accepted watch answer, OnRecord watch answer db r.id

/-- The answers of a poll in which no store call fails. -/
def smooth (os : Nat → Oracle) : Nat → Oracle := fun n => { os n with fails := none }

/-- The answers of a poll in which call number `k` fails, if it is a store call. -/
def failing (os : Nat → Oracle) (k : Nat) (error : String) : Nat → Oracle :=
  fun n => { os n with fails := if n = k then some error else none }

/-- A poll by itself, from these tables: whatever answer its stored ETag is of, no accepted
release of that answer is hidden. -/
def HidesNothing (watch : Watch) (force_fetch : Bool) (os : Nat → Oracle) (db : Db)
    (now : DateTime) (notifiers : Notifier) (w : Nat) : Prop :=
  let t := (alone machine w (poll_once_inner watch force_fetch) os
    (World.start db now notifiers)).2.1
  ∀ answer, t.book.etag_from watch.provider.id = some answer → NothingHidden watch answer t.db

section Law

variable {watch : Watch} {force_fetch : Bool} {os : Nat → Oracle} {db : Db} {now : DateTime}
  {notifiers : Notifier} {w : Nat}

theorem kept_answer_smooth :
    kept_answer db watch force_fetch (smooth os) = kept_answer db watch force_fetch os := by
  cases force_fetch <;> rfl

theorem kept_answer_failing (k : Nat) (error : String) :
    kept_answer db watch force_fetch (failing os k error) =
      kept_answer db watch force_fetch os := by
  cases force_fetch <;> rfl

theorem NothingHidden.quiet {answer : FetchOutcome} {db db' : Db}
    (hq : Quiet watch.provider.id db db') (h : NothingHidden watch answer db) :
    NothingHidden watch answer db' :=
  fun r hr => (hq.untouched r.id).still_recorded (h r hr)

theorem polled_alone (smooth : Prop) (watch : Watch) (answer : FetchOutcome) (w : Nat)
    (os : Nat → Oracle) (hos : smooth → ∀ n, (os n).fails = none) (s : World) :
    Polled smooth watch answer s.db
      (alone machine w (deliver_new_releases watch answer.releases) os s).1
      (alone machine w (deliver_new_releases watch answer.releases) os s).2.1.db :=
  alone_by_itself os hos (safe_deliver_new_releases answer)

/-- When the first store call after the ETag fails, nothing of the answer is put on record. -/
theorem deliver_new_cut (answer : FetchOutcome) {os : Nat → Oracle} (error : String)
    (hfail : (os 0).fails = some error) (s : World) :
    (alone machine w (deliver_new_releases watch answer.releases) os s).2.1.db = s.db := by
  unfold deliver_new_releases note_latest
  dsimp only
  split
  · rename_i latest _
    have hexec : machine.exec w (.set_latest_release_tag watch.provider.id latest.raw_tag) (os 0) s =
        (.error (.store error), s.tick (os 0)) := by
      simp [machine, exec, stored, hfail]
    rw [bind_eq, alone_call_error os hexec]
    rfl
  · have hexec : machine.exec w (.enrich_seen_metadata watch.provider.id
        (accepted watch answer)) (os 0) s = (.error (.store error), s.tick (os 0)) := by
      simp [machine, exec, stored, hfail]
    simp only [pure_eq, bind_eq, done_bind]
    rw [alone_call_error os hexec]
    rfl

/-- Whichever store call fails, what was on record before the poll stays so. -/
theorem hides_nothing_of_on_record
    (h : ∀ kept, kept_answer db watch force_fetch os = some kept →
      NothingHidden watch kept.answer db) : HidesNothing watch force_fetch os db now notifiers w := by
  intro answer hanswer
  rcases poll_ends watch force_fetch w os (World.start db now notifiers) with
    ⟨hnone, _⟩ | ⟨kept, hk, hetag, hrest⟩
  · exact absurd (hanswer.symm.trans hnone) (by simp [World.start, Book.empty])
  · obtain rfl := Option.some.inj (hetag.symm.trans hanswer)
    split at hrest
    · obtain ⟨s₁, hq, ht⟩ := hrest
      have hpolled := polled_alone False watch kept.answer w (fun n => os (n + (kept.call + 1)))
        (fun h => absurd h id) s₁
      rw [← ht] at hpolled
      intro r hr
      exact hpolled.kept r.id ((h kept hk).quiet hq r hr)
    · exact (h kept hk).quiet hrest

/-- When the call after the one that stores the ETag fails, only what was on record before is. -/
theorem on_record_of_cut {kept : Kept} {error : String}
    (hk : kept_answer db watch force_fetch os = some kept)
    (h : HidesNothing watch force_fetch (failing os (kept.call + 1) error) db now notifiers w) :
    NothingHidden watch kept.answer db := by
  rcases poll_ends watch force_fetch w (failing os (kept.call + 1) error)
      (World.start db now notifiers) with ⟨_, hcut⟩ | ⟨kept', hk', hetag, hrest⟩
  · obtain ⟨n, hn, hfail⟩ := hcut kept ((kept_answer_failing _ _).trans hk)
    have hne : n ≠ kept.call + 1 := by omega
    simp [failing, hne] at hfail
  · obtain rfl := Option.some.inj (hk.symm.trans ((kept_answer_failing _ _).symm.trans hk'))
    have hall := h kept.answer hetag
    split at hrest
    · obtain ⟨s₁, hq, ht⟩ := hrest
      rw [ht, deliver_new_cut kept.answer error (by simp [failing])] at hall
      exact hall.quiet hq.symm
    · exact hall.quiet hrest.symm

theorem hides_nothing_smooth (hone : OneRow db) :
    HidesNothing watch force_fetch (smooth os) db now notifiers w ↔
      ∀ kept, kept_answer db watch force_fetch os = some kept →
        ∀ r ∈ accepted watch kept.answer, OnRecord watch kept.answer db r.id ∨
          (kept.diffed = true ∧ Settles watch db r.id) := by
  have hends := poll_ends watch force_fetch w (smooth os) (World.start db now notifiers)
  rw [kept_answer_smooth] at hends
  constructor
  · intro h kept hk r hr
    rcases hends with ⟨_, hcut⟩ | ⟨kept', hk', hetag, hrest⟩
    · obtain ⟨n, _, hfail⟩ := hcut kept hk
      exact absurd rfl hfail
    · obtain rfl := Option.some.inj (hk.symm.trans hk')
      have hall := h kept.answer hetag
      split at hrest
      · rename_i hdiff
        obtain ⟨s₁, hq, ht⟩ := hrest
        by_cases hset : Settles watch db r.id
        · exact Or.inr ⟨hdiff, hset⟩
        · have hpolled := (polled_alone True watch kept.answer w
            (fun n => smooth os (n + (kept.call + 1))) (fun _ _ => rfl) s₁).after hq
          rw [← ht] at hpolled
          exact Or.inl (hpolled.unsettled hone r.id hset (hall r hr))
      · exact Or.inl (hall.quiet hrest.symm r hr)
  · intro h answer hanswer
    rcases hends with ⟨hnone, _⟩ | ⟨kept, hk, hetag, hrest⟩
    · exact absurd (hanswer.symm.trans hnone) (by simp [World.start, Book.empty])
    · obtain rfl := Option.some.inj (hetag.symm.trans hanswer)
      intro r hr
      split at hrest
      · obtain ⟨s₁, hq, ht⟩ := hrest
        have hpolled := (polled_alone True watch kept.answer w
          (fun n => smooth os (n + (kept.call + 1))) (fun _ _ => rfl) s₁).after hq
        rw [← ht] at hpolled
        rcases h kept hk r hr with hrec | ⟨_, hset⟩
        · exact hpolled.kept r.id hrec
        · exact hpolled.settled trivial r hr hset
      · rename_i hdiff
        rcases h kept hk r hr with hrec | ⟨hdiff', _⟩
        · exact (hrest.untouched r.id).still_recorded hrec
        · exact absurd hdiff' hdiff

/-- From any tables: whichever one store call fails, the poll hides nothing exactly when all the
accepted releases of the answer whose ETag it keeps were on record before it; and a poll in which
no store call fails hides nothing exactly when each of them was, or the poll goes on to put it on
record. -/
theorem an_etag_hides_what_was_not_on_record (watch : Watch) (force_fetch : Bool)
    (os : Nat → Oracle) (db : Db) (hone : OneRow db) (now : DateTime) (notifiers : Notifier)
    (w : Nat) (error : String) :
    ((∀ k, HidesNothing watch force_fetch (failing os k error) db now notifiers w) ↔
      ∀ kept, kept_answer db watch force_fetch os = some kept →
        NothingHidden watch kept.answer db) ∧
    (HidesNothing watch force_fetch (smooth os) db now notifiers w ↔
      ∀ kept, kept_answer db watch force_fetch os = some kept →
        ∀ r ∈ accepted watch kept.answer, OnRecord watch kept.answer db r.id ∨
          (kept.diffed = true ∧ Settles watch db r.id)) := by
  refine ⟨⟨fun h kept hk => on_record_of_cut hk (h (kept.call + 1)), fun h k => ?_⟩,
    hides_nothing_smooth hone⟩
  refine hides_nothing_of_on_record ?_
  intro kept hk
  rw [kept_answer_failing] at hk
  exact h kept hk

end Law

/-! ### The store keeps one row for a release -/

theorem oneRow_of_keys {db db' : Db} (h : OneRow db)
    (hkeys : ∀ j r', db'.parent j = some r' → ∃ r, db.parent j = some r ∧
      r.source_id = r'.source_id ∧ r.identity = r'.identity) : OneRow db' := by
  intro i j r r' hr hr' hsrc hid
  obtain ⟨r₁, hr₁, hs₁, hi₁⟩ := hkeys i r hr
  obtain ⟨r₂, hr₂, hs₂, hi₂⟩ := hkeys j r' hr'
  exact h i j r₁ r₂ hr₁ hr₂ (hs₁.trans (hsrc.trans hs₂.symm)) (hi₁.trans (hid.trans hi₂.symm))

theorem oneRow_insert {db : Db} (h : OneRow db) (now : DateTime) (event : Event)
    (identity : String) (om : OutboxMeta) :
    OneRow (insert_outbox db now event identity om).2 := by
  unfold insert_outbox
  split
  · exact oneRow_of_keys h (fun j r hr => ⟨r, hr, rfl, rfl⟩)
  · rename_i hnone
    -- no row in the outbox has the key of the new one
    have hnew : ∀ j r, db.parent j = some r → r.source_id = event.source_id →
        r.identity ≠ identity := by
      intro j r hr hsrc hid
      exact hnone ((Table.any_iff _ _).mpr ⟨j, r, hr, by simp [hsrc, hid]⟩)
    intro i j r r' hr hr' hsrc hid
    unfold Db.parent at hr hr'
    rw [Serial.get_insert] at hr hr'
    split at hr <;> split at hr'
    · rename_i hi hj
      rw [hi, hj]
    · obtain rfl := Option.some.inj hr
      exact absurd hid.symm (hnew j r' hr' hsrc.symm)
    · obtain rfl := Option.some.inj hr'
      exact absurd hid (hnew i r hr hsrc)
    · exact h i j r r' hr hr' hsrc hid

theorem oneRow_exec {β : Type} {w : Nat} {op : Call β} {o : Oracle} {s : World}
    (h : OneRow s.db) : OneRow (exec w op o s).2.db := by
  cases hfail : o.fails with
  | some e => rwa [failed_exec hfail]
  | none =>
    cases hins : inserts op with
    | true =>
      cases op
      case insert_outbox event identity om =>
        have hnew := oneRow_insert h (s.tick o).now event identity om
        simp only [exec, stored, hfail]
        split <;> exact hnew
      all_goals cases hins
    | false =>
      refine oneRow_of_keys h (fun j r' hr' => ?_)
      rw [parent_exec hins hfail] at hr'
      obtain ⟨r, hr, rfl⟩ := Option.map_eq_some_iff.mp hr'
      refine ⟨r, hr, ?_⟩
      split
      · cases op <;> exact ⟨rfl, rfl⟩
      · exact ⟨rfl, rfl⟩

theorem oneRow_step {p : Workers} (m : Move Oracle Outside) (h : OneRow p.state.db) :
    OneRow (p.step machine m).state.db := by
  cases m with
  | crash w => exact h
  | outside e =>
    cases e
    exact h
  | work w o =>
    simp only [Pool.step]
    split
    · exact oneRow_exec h
    · exact h
    · exact h

/-- Every store that a run from an empty one reaches has one row for a release. -/
theorem oneRow_run (jobs : Nat → Job) (now : DateTime) (notifiers : Notifier)
    (moves : List (Move Oracle Outside)) :
    OneRow ((delivered.fresh jobs now notifiers).run machine moves).state.db := by
  refine Pool.run_keeps (fun (p : Workers) => OneRow p.state.db) (fun p m h => oneRow_step m h) ?_
  intro i j r r' hr
  exact absurd hr (by simp [delivered.fresh, starting, World.start, Db.parent, Db.empty,
    Serial.get, Serial.empty])

/-! ### A first poll -/

/-- Upstream answers with an ETag and one release. -/
def tagged : Nat → Oracle :=
  fun _ => { fetch := .ok ⟨false, some "etag-1", [Release.new "v1"]⟩ }

/-- The first poll stores the ETag, and then the store is gone: the release is not on record. -/
theorem a_failing_store_hides_a_release :
    ¬ HidesNothing delivered.watch false (failing tagged 4 "connection closed") Db.empty 0 [] 0 := by
  intro h
  have hetag : ((alone machine 0 (poll_once_inner delivered.watch false)
      (failing tagged 4 "connection closed") (World.start Db.empty 0 [])).2.1.book.etag_from
        delivered.watch.provider.id) =
      some ⟨false, some "etag-1", [Release.new "v1"]⟩ := by
    decide +kernel
  have hseen : (alone machine 0 (poll_once_inner delivered.watch false)
      (failing tagged 4 "connection closed") (World.start Db.empty 0 [])).2.1.db.seen_release.rows =
      [] := by
    decide +kernel
  have houtbox : (alone machine 0 (poll_once_inner delivered.watch false)
      (failing tagged 4 "connection closed")
        (World.start Db.empty 0 [])).2.1.db.notification_outbox.table.rows = [] := by
    decide +kernel
  rcases h _ hetag (Release.new "v1") List.mem_cons_self with ⟨k, hk, _⟩ | ⟨id, r, hr, _⟩
  · unfold Db.seen Table.get at hk
    rw [hseen] at hk
    exact absurd hk (by simp [Table.look])
  · unfold Db.parent Serial.get Table.get at hr
    rw [houtbox] at hr
    exact absurd hr (by simp [Table.look])

/-- The law for that poll: it hides nothing as long as no store call fails. -/
theorem an_etag_hides_what_was_not_on_record_here :
    HidesNothing delivered.watch false (smooth tagged) Db.empty 0 [] 0 := by
  refine (an_etag_hides_what_was_not_on_record delivered.watch false tagged Db.empty
    (oneRow_run (fun _ => .idle) 0 [] []) 0 [] 0 "connection closed").2.mpr ?_
  intro kept hk r _
  obtain rfl := Option.some.inj hk
  exact Or.inr ⟨rfl, Or.inl rfl⟩

end xrelease.etag
