-- Pushes and polls of one source, one after the other: where all that arrives gives a release one
-- content, the release is put into the outbox at most once, in whatever order it arrives and
-- whatever the store and the sinks answer.
import Xrelease.Updates

namespace xrelease.arrivals

open xrelease.model xrelease.store xrelease.engine xrelease.outbox xrelease.pipeline
open xrelease.ledger xrelease.recorded xrelease.polled xrelease.etag xrelease.updates
  xrelease.pieces xrelease.walks
open keyed calls calls.Prog calls.Terms

/-! ## What arrives -/

/-- The calls that put a release into the outbox. -/
def enqueues {β : Type} (op : Call β) : Prop :=
  match op with
  | .insert_outbox _ _ _ | .reopen_outbox _ _ _ => True
  | _ => False

/-- A push or a poll by itself, or a call of another worker between two of them. -/
inductive Arrival where
  | push (w : Nat) (watches : List Watch) (release : Release) (os : Nat → Oracle)
  | poll (w : Nat) (watch : Watch) (force_fetch : Bool) (os : Nat → Oracle)
  | other {β : Type} (w : Nat) (op : Call β) (o : Oracle) (h : ¬ enqueues op)

def arrive (s : World) : Arrival → World
  | .push w watches release os => (alone machine w (process_pushed_release release watches 0) os s).2.1
  | .poll w watch force_fetch os => (alone machine w (poll_once_inner watch force_fetch) os s).2.1
  | .other w op o _ => (exec w op o s).2

/-- The releases of an answer give the identity no other content. -/
def Gives (identity digest : String) (o : Oracle) : Prop :=
  ∀ outcome, o.fetch = .ok outcome →
    ∀ r ∈ outcome.releases, r.id = identity → r.content_fingerprint = digest

/-- What arrives gives the identity no other content. -/
def Arrival.gives (identity digest : String) : Arrival → Prop
  | .push _ _ release _ => release.id = identity → release.content_fingerprint = digest
  | .poll _ _ _ os => ∀ n, Gives identity digest (os n)
  | .other _ _ _ _ => True

/-- How often the release of a source was put into the outbox. -/
def times_enqueued (source_id identity : String) (s : World) : Nat :=
  s.book.notes.countP (fun n =>
    match n with
    | .enqueued _ a x => a = source_id && x = identity
    | _ => false)

/-! ## Calls -/

section

variable {a x d : String} {n w : Nat} {s s' : World}

/-- The release was put into the outbox once more than before at most, and if so its row has the
content. -/
structure Once (a x d : String) (n : Nat) (s : World) : Prop where
  oneRow : OneRow s.db
  once : times_enqueued a x s = n ∨ (times_enqueued a x s = n + 1 ∧ Held s.db a x d)

theorem held_of_contents {db db' : Db} (hsame : SameContents db db') (h : Held db a x d) :
    Held db' a x d := by
  obtain ⟨j, r, hr, hsrc, hid, hd⟩ := h
  obtain ⟨r', hr', hsrc', hid', hd'⟩ := hsame j r hr
  exact ⟨j, r', hr', hsrc'.trans hsrc, hid'.trans hid, hd'.trans hd⟩

theorem times_exec {β : Type} {op : Call β} (o : Oracle) (hop : ¬ enqueues op) :
    times_enqueued a x (exec w op o s).2 = times_enqueued a x s := by
  have none_ : ∀ {t : World}, t.book.notes = s.book.notes →
      times_enqueued a x t = times_enqueued a x s := by
    intro t h
    unfold times_enqueued
    rw [h]
  cases hfail : o.fails <;> cases op <;> simp only [exec, stored, hfail]
  all_goals first
    | exact none_ rfl
    | exact absurd trivial hop
    | (split <;> exact none_ rfl)
    | simp [times_enqueued, World.note, World.tick, World.wrote]

theorem once_exec {β : Type} {op : Call β} (o : Oracle) (hop : ¬ enqueues op)
    (h : Once a x d n s) : Once a x d n (exec w op o s).2 := by
  refine ⟨oneRow_exec h.oneRow, ?_⟩
  rw [times_exec o hop]
  refine h.once.imp_right (fun h => ⟨h.1, held_of_contents (contents_exec w ?_ o s) h.2⟩)
  intro id
  cases op <;> first | rfl | exact absurd trivial hop

theorem once_of_exec {β : Type} {op : Call β} {o : Oracle} {r : Except PipelineError β}
    (h : machine.exec w op o s = (r, s')) (hop : ¬ enqueues op) (hs : Once a x d n s) :
    Once a x d n s' := by
  have heq : (exec w op o s).2 = s' := congrArg Prod.snd h
  rw [← heq]
  exact once_exec o hop hs

/-- By itself, with such answers. -/
abbrev answered (good : Oracle → Prop) : Terms Call World Oracle Outside :=
  solo (fun _ o => good o)

variable {good : Oracle → Prop}

/-- Calls that put nothing into the outbox. -/
theorem safe_others {α : Type} {p : Work α} (hp : p.Never enqueues) (hs : Once a x d n s) :
    (answered good).Safe machine w (fun _ s' => Once a x d n s') p s := by
  induction p generalizing s with
  | done a => exact hs
  | fail e => exact hs
  | call op next ih =>
    rintro s₁ rfl _ o _
    exact ⟨trivial, trivial, ih _ (hp.2 _) (once_exec o hp.1 hs)⟩

/-! ## An enqueue -/

/-- One more note counts where it is about the release. -/
theorem times_noted {b y : String} {t : World}
    (h : t.book.notes = s.book.notes ++ [.enqueued w b y]) :
    times_enqueued a x t = times_enqueued a x s + (if b = a ∧ y = x then 1 else 0) := by
  unfold times_enqueued
  rw [h, List.countP_append]
  by_cases hax : b = a ∧ y = x
  · simp [hax]
  · simp only [if_neg hax, Nat.add_zero, Nat.add_eq_left]
    rw [List.countP_eq_zero]
    simpa using hax

/-- A row that is made or reopened for another release. -/
theorem once_aside {t : World} {b y : String} (hs : Once a x d n s) (hone : OneRow t.db)
    (hnotes : t.book.notes = s.book.notes ++ [.enqueued w b y]) (hax : ¬ (b = a ∧ y = x))
    (hheld : Held s.db a x d → Held t.db a x d) : Once a x d n t := by
  refine ⟨hone, ?_⟩
  rw [times_noted hnotes, if_neg hax]
  exact hs.once.imp_right (fun h => ⟨h.1, hheld h.2⟩)

/-- A row that is made or reopened for the release, which no row had the content of. -/
theorem once_put {t : World} (hs : Once a x d n s) (hone : OneRow t.db)
    (hnotes : t.book.notes = s.book.notes ++ [.enqueued w a x]) (hnot : ¬ Held s.db a x d)
    (hheld : Held t.db a x d) : Once a x d n t := by
  refine ⟨hone, ?_⟩
  rw [times_noted hnotes, if_pos ⟨rfl, rfl⟩]
  rcases hs.once with hn | ⟨-, h⟩
  · exact Or.inr ⟨by omega, hheld⟩
  · exact absurd h hnot

theorem once_insert {event : Event} {identity : String} {om : OutboxMeta} {o : Oracle}
    {r : Except PipelineError (Option Nat)} (hs : Once a x d n s)
    (hd : identity = x → om.content_digest = some d)
    (h : machine.exec w (.insert_outbox event identity om) o s = (r, s')) :
    Once a x d n s' := by
  have hone : OneRow s'.db := by
    have heq : (exec w (.insert_outbox event identity om) o s).2 = s' := congrArg Prod.snd h
    rw [← heq]
    exact oneRow_exec hs.oneRow
  cases r with
  | error e =>
    obtain ⟨-, rfl⟩ := stored_error h
    exact ⟨hone, hs.once⟩
  | ok inserted =>
    obtain ⟨-, heq⟩ := stored_ok h
    obtain ⟨hin, hworld⟩ := Prod.mk.inj heq
    rw [hin] at hworld
    have hkept : Held s.db a x d →
        Held (insert_outbox s.db (s.tick o).now event identity om).2 a x d :=
      held_of_contents (sameContents_insert s.db (s.tick o).now event identity om)
    cases inserted with
    | none =>
      subst hworld
      exact ⟨hone, hs.once.imp_right (fun h => ⟨h.1, hkept h.2⟩)⟩
    | some id =>
      subst hworld
      by_cases hax : event.source_id = a ∧ identity = x
      · obtain ⟨rfl, rfl⟩ := hax
        refine once_put hs hone rfl ?_ (held_of_insert hin (hd rfl))
        -- a row of the release would have been found
        rintro ⟨j, row, hrow, hsrc, hid, -⟩
        have hnone := insert_of_row ⟨row, hrow, hsrc, hid⟩ (s.tick o).now om
        exact absurd (hnone.symm.trans hin) (by simp)
      · exact once_aside hs hone rfl hax hkept

/-- The row is reopened for a content that it does not have. -/
theorem once_reopen {event : Event} {om : OutboxMeta} {o : Oracle} {id : Nat} {row : OutboxRow}
    {r : Except PipelineError Bool} (hs : Once a x d n s) (hrow : s.db.parent id = some row)
    (hsrc : row.source_id = event.source_id) (hne : row.content_digest ≠ om.content_digest)
    (hd : row.identity = x → om.content_digest = some d)
    (h : machine.exec w (.reopen_outbox event om id) o s = (r, s')) : Once a x d n s' := by
  have hone : OneRow s'.db := by
    have heq : (exec w (.reopen_outbox event om id) o s).2 = s' := congrArg Prod.snd h
    rw [← heq]
    exact oneRow_exec hs.oneRow
  cases r with
  | error e =>
    obtain ⟨-, rfl⟩ := stored_error h
    exact ⟨hone, hs.once⟩
  | ok updated =>
    obtain ⟨-, heq⟩ := stored_ok h
    obtain ⟨hre, hworld⟩ := Prod.mk.inj heq
    rw [hre] at hworld
    cases updated with
    | false =>
      have hsame : (reopen_outbox (s.tick o).db event om id).2 = s.db := by
        unfold reopen_outbox at hre ⊢
        split at hre
        · exact absurd hre (by simp)
        · rename_i hnot
          rw [if_neg hnot]
          rfl
      subst hworld
      refine ⟨hone, ?_⟩
      simp only [Bool.false_eq_true, if_false, World.wrote, hsame]
      exact hs.once
    | true =>
      have hidentity : ((s.tick o).db.parent id).elim "" (·.identity) = row.identity := by
        have hrow' : (s.tick o).db.parent id = some row := hrow
        rw [hrow']
        rfl
      rw [if_pos rfl, hidentity] at hworld
      subst hworld
      by_cases hax : event.source_id = a ∧ row.identity = x
      · obtain ⟨rfl, rfl⟩ := hax
        refine once_put hs hone rfl ?_ (held_of_reopen ⟨row, hrow, hsrc, rfl⟩ (hd rfl) hre)
        rintro ⟨j, row', hrow', hsrc', hid', hd'⟩
        obtain rfl := hs.oneRow j id row' row hrow' hrow (hsrc'.trans hsrc.symm) hid'
        obtain rfl := Option.some.inj (hrow.symm.trans hrow')
        exact hne (hd'.trans (hd rfl).symm)
      · refine once_aside hs hone rfl hax ?_
        rintro ⟨j, row', hrow', hsrc', hid', hd'⟩
        have hj : j ≠ id := by
          rintro rfl
          obtain rfl := Option.some.inj (hrow.symm.trans hrow')
          exact hax ⟨hsrc.symm.trans hsrc', hid'⟩
        refine ⟨j, row', ?_, hsrc', hid', hd'⟩
        exact (parent_reopen s.db event om hj).trans hrow'

theorem safe_enqueue {event : Event} {identity : String} {om : OutboxMeta} (hs : Once a x d n s)
    (hd : identity = x → om.content_digest = some d) :
    (answered good).Safe machine w (fun _ s' => Once a x d n s')
      (try_enqueue_notification event identity om) s := by
  refine safe_solo_bind ?_ (fun o e s₀ _ h₀ => once_of_exec h₀ (fun h => h) hs)
  intro o now s₀ _ h₀
  have hs₀ := once_of_exec h₀ (fun h => h) hs
  refine safe_solo_bind ?_ (fun o e s₁ _ h₁ => once_insert hs₀ hd h₁)
  intro o₁ inserted s₁ _ h₁
  have hs₁ := once_insert hs₀ hd h₁
  cases inserted with
  | some id => exact hs₁
  | none =>
    refine safe_solo_bind ?_ (fun o e s₂ _ h₂ => once_of_exec h₂ (fun h => h) hs₁)
    intro o₂ existing s₂ _ h₂
    have hs₂ := once_of_exec h₂ (fun h => h) hs₁
    obtain ⟨-, heq⟩ := stored_ok h₂
    obtain ⟨hsel, hworld⟩ := Prod.mk.inj heq
    cases existing with
    | none => exact hs₂
    | some hit =>
      obtain ⟨id, status, stored_digest⟩ := hit
      obtain ⟨row, hrow, hsrc, hid, -, hdigest⟩ := select_some hsel
      have hrow₂ : s₂.db.parent id = some row := by
        rw [← hworld]
        exact hrow
      cases status with
      | pending => exact hs₂
      | failed => exact hs₂
      | dead => exact hs₂
      | sent =>
        dsimp only
        split
        · exact hs₂
        · rename_i hne
          have hreopened : ∀ {o : Oracle} {r : Except PipelineError Bool} {s₃ : World},
              machine.exec w (.reopen_outbox event om id) o s₂ = (r, s₃) → Once a x d n s₃ :=
            once_reopen hs₂ hrow₂ hsrc (by rw [hdigest]; exact hne)
              (fun h => hd (hid.symm.trans h))
          refine safe_solo_bind ?_ (fun o e s₃ _ h₃ => hreopened h₃)
          intro o₃ updated s₃ _ h₃
          cases updated with
          | true => exact hreopened h₃
          | false => exact hreopened h₃

/-! ## A push, a poll -/

theorem not_enqueues_of_leases {γ : Type} (op : Call γ) (h : leases op) : ¬ enqueues op := by
  cases op <;> first | exact fun hs => hs | exact fun _ => h.elim (fun _ h => h.elim fun _ h =>
    h.elim fun _ h => h)

theorem safe_release {watch : Watch} {release : Release} (hs : Once a x d n s)
    (hd : release.id = x → release.content_fingerprint = d) :
    (answered good).Safe machine w (fun _ s' => Once a x d n s') (deliver_release watch release) s := by
  have hplaced : ∀ deliver_after, ∀ t : World, Once a x d n t →
      (answered good).Safe machine w (fun _ s' => Once a x d n s')
        (deliver_deferred watch release deliver_after) t := by
    intro deliver_after t ht
    refine safe_bind (safe_mono (safe_enqueue ht (fun h => congrArg some (hd h))) ?_)
    intro r s₁ hs₁
    cases r with
    | error e => exact hs₁
    | ok out =>
      cases out with
      | none => exact hs₁
      | some enqueued =>
        refine safe_others (never_bind (never_perform (fun h => h)) (fun _ => ?_)) hs₁
        exact never_deliver_inline not_enqueues_of_leases watch release enqueued
  rw [deliver_release_eq]
  unfold deliver_after_of
  cases watch.notify_schedule with
  | none => exact hplaced none s hs
  | some next_after =>
    refine safe_bind (safe_solo_bind ?_ (fun o e s₀ _ h₀ => once_of_exec h₀ (fun h => h) hs))
    intro o now s₀ _ h₀
    exact hplaced (next_after now) s₀ (once_of_exec h₀ (fun h => h) hs)

theorem safe_each {watch : Watch} {releases : List Release} (sent : Nat) (hs : Once a x d n s)
    (hd : ∀ r ∈ releases, r.id = x → r.content_fingerprint = d) :
    (answered good).Safe machine w (fun _ s' => Once a x d n s') (deliver_each watch releases sent)
      s := by
  induction releases generalizing sent s with
  | nil => exact hs
  | cons release rest ih =>
    refine safe_bind (safe_mono (safe_release hs (hd release List.mem_cons_self)) ?_)
    intro r s₁ hs₁
    cases r with
    | error e => exact hs₁
    | ok delivered => exact ih _ hs₁ (fun r hr => hd r (List.mem_cons_of_mem _ hr))

/-- What is selected is of the list. -/
theorem safe_select {source_id : String} {releases : List Release} (exclude_updated : Bool)
    (hs : Once a x d n s) :
    (answered good).Safe machine w
      (fun r s' => Once a x d n s' ∧ ∀ rs, r = .ok rs → ∀ r ∈ rs, r ∈ releases)
      (select_for_delivery source_id releases exclude_updated) s := by
  have hfailed : ∀ {e : PipelineError} {t : World}, Once a x d n t →
      Once a x d n t ∧ ∀ rs, (.error e : Except PipelineError (List Release)) = .ok rs →
        ∀ r ∈ rs, r ∈ releases := fun ht => ⟨ht, fun _ h => absurd h (by simp)⟩
  refine safe_solo_bind ?_ (fun o e s₀ _ h₀ => hfailed (once_of_exec h₀ (fun h => h) hs))
  intro o initialized s₀ _ h₀
  have hs₀ := once_of_exec h₀ (fun h => h) hs
  cases initialized with
  | false =>
    refine safe_solo_bind ?_ (fun o e s₁ _ h₁ => hfailed (once_of_exec h₁ (fun h => h) hs₀))
    intro o₁ _ s₁ _ h₁
    refine safe_bind (safe_mono (safe_others (keeps_note_latest compositional_never (fun _ _ h => h))
      (once_of_exec h₁ (fun h => h) hs₀)) ?_)
    intro r s₂ hs₂
    cases r with
    | error e => exact hfailed hs₂
    | ok _ =>
      refine ⟨hs₂, ?_⟩
      rintro _ ⟨⟩ r hr
      exact absurd hr List.not_mem_nil
  | true =>
    refine safe_solo_bind ?_ (fun o e s₁ _ h₁ => hfailed (once_of_exec h₁ (fun h => h) hs₀))
    intro o₁ seen s₁ _ h₁
    refine ⟨once_of_exec h₁ (fun h => h) hs₀, ?_⟩
    rintro _ ⟨⟩ r hr
    exact (List.mem_filter.mp ((mem_sort_for_delivery _ r).mp hr)).1

theorem safe_new_releases {watch : Watch} {releases : List Release} (hs : Once a x d n s)
    (hd : ∀ r ∈ releases, r.id = x → r.content_fingerprint = d) :
    (answered good).Safe machine w (fun _ s' => Once a x d n s')
      (deliver_new_releases watch releases) s := by
  refine safe_bind (safe_mono
    (safe_others (keeps_note_latest compositional_never (fun _ _ h => h)) hs) ?_)
  intro r s₁ hs₁
  cases r with
  | error e => exact hs₁
  | ok _ =>
  refine safe_solo_bind ?_ (fun o e s₂ _ h₂ => once_of_exec h₂ (fun h => h) hs₁)
  intro o _ s₂ _ h₂
  refine safe_bind (safe_mono (safe_select watch.filter.exclude_updated
    (once_of_exec h₂ (fun h => h) hs₁)) ?_)
  rintro r s₃ ⟨hs₃, hof⟩
  cases r with
  | error e => exact hs₃
  | ok deliverable =>
    refine safe_each 0 hs₃ ?_
    intro r hr
    exact hd r (List.mem_filter.mp (hof deliverable rfl r hr)).1

theorem safe_push {release : Release} (watches : List Watch) (sent : Nat) (hs : Once a x d n s)
    (hd : release.id = x → release.content_fingerprint = d) :
    (answered good).Safe machine w (fun _ s' => Once a x d n s')
      (process_pushed_release release watches sent) s := by
  induction watches generalizing sent s with
  | nil => exact hs
  | cons watch rest ih =>
    refine safe_bind (safe_mono (safe_new_releases hs ?_) ?_)
    · intro r hr
      obtain rfl := List.mem_singleton.mp hr
      exact hd
    · intro r s₁ hs₁
      cases r with
      | error e => exact hs₁
      | ok delivered => exact ih _ hs₁

theorem not_enqueues_of_polls {γ : Type} (op : Call γ) (h : polls op) : ¬ enqueues op := by
  cases op <;> first | exact fun hs => hs | exact (h.elim id (Or.elim · id id)).elim

/-- What is fetched is what the answers give. -/
theorem safe_fetch (source_id : String) (etag : Option String) (hs : Once a x d n s) :
    (answered (Gives x d)).Safe machine w
      (fun r s' => Once a x d n s' ∧ ∀ outcome, r = .ok outcome →
        ∀ r ∈ outcome.releases, r.id = x → r.content_fingerprint = d)
      (fetch_or_touch source_id etag) s := by
  refine safe_bind (safe_caught (safe_solo ?_))
  intro o ho
  cases hexec : machine.exec w (.fetch etag) o s with
  | mk r s₁ =>
  have hs₁ := once_of_exec hexec (fun h => h) hs
  cases r with
  | error err =>
    refine safe_bind (safe_caught (safe_solo ?_))
    intro o₂ _
    cases hexec₂ : machine.exec w (.touch_polled source_id) o₂ s₁ with
    | mk r₂ s₂ =>
      exact ⟨once_of_exec hexec₂ (fun h => h) hs₁, fun _ h => absurd h (by simp)⟩
  | ok outcome =>
    refine ⟨hs₁, ?_⟩
    rintro _ ⟨⟩
    apply ho
    cases hfetch : o.fetch with
    | error e => simp [machine, exec, hfetch] at hexec
    | ok found =>
      simp only [machine, exec, hfetch, Prod.mk.injEq, Except.ok.injEq] at hexec
      rw [hexec.1]

theorem safe_poll (watch : Watch) (force_fetch : Bool) (hs : Once a x d n s) :
    (answered (Gives x d)).Safe machine w (fun _ s' => Once a x d n s')
      (poll_once_inner watch force_fetch) s := by
  have hfetches : ∀ {γ : Type} (op : Call γ), fetches op → ¬ enqueues op :=
    fun op hop => not_enqueues_of_polls op (Or.inr (Or.inl hop))
  refine safe_bind (safe_mono (safe_others (keeps_stored_etag compositional_never hfetches _ _)
    hs) ?_)
  intro r s₁ hs₁
  cases r with
  | error e => exact hs₁
  | ok etag =>
  refine safe_bind (safe_mono (safe_fetch watch.provider.id etag hs₁) ?_)
  rintro r s₂ ⟨hs₂, hgives⟩
  cases r with
  | error e => exact hs₂
  | ok outcome =>
  refine safe_solo_bind ?_ (fun o e s₃ _ h₃ => once_of_exec h₃ (fun h => h) hs₂)
  intro o _ s₃ _ h₃
  have hs₃ := once_of_exec h₃ (fun h => h) hs₂
  split
  · refine safe_others (never_bind (keeps_poll_not_modified compositional_never hfetches
      (fun op hop => not_enqueues_of_polls op (Or.inr (Or.inr hop))) watch force_fetch) ?_) hs₃
    exact fun _ => trivial
  · refine safe_bind (safe_mono (safe_others (keeps_store_etag compositional_never
      hfetches _ _) hs₃) ?_)
    intro r s₄ hs₄
    cases r with
    | error e => exact hs₄
    | ok _ => exact safe_new_releases hs₄ (hgives outcome rfl)

/-! ## Runs -/

theorem once_arrive {arrival : Arrival} (h : arrival.gives x d) (hs : Once a x d n s) :
    Once a x d n (arrive s arrival) := by
  cases arrival with
  | push w watches release os =>
    have hsafe : (answered (fun _ => True)).Safe machine w (fun _ s' => Once a x d n s')
        (process_pushed_release release watches 0) s := safe_push watches 0 hs h
    exact alone_of_safe (fun _ _ _ => trivial) hsafe
  | poll w watch force_fetch os =>
    exact alone_of_safe (fun n _ _ => h n) (safe_poll watch force_fetch hs)
  | other w op o hop => exact once_exec o hop hs

theorem once_run {arrivals : List Arrival} (h : ∀ arrival ∈ arrivals, arrival.gives x d)
    (hs : Once a x d n s) : Once a x d n (arrivals.foldl arrive s) := by
  induction arrivals generalizing s with
  | nil => exact hs
  | cons arrival rest ih =>
    exact ih (fun b hb => h b (List.mem_cons_of_mem _ hb))
      (once_arrive (h arrival List.mem_cons_self) hs)

end

/-- A release of one content is put into the outbox at most once. -/
theorem enqueued_at_most_once {identity digest : String} (source_id : String) {s : World}
    {arrivals : List Arrival} (hone : OneRow s.db)
    (h : ∀ arrival ∈ arrivals, arrival.gives identity digest) :
    times_enqueued source_id identity (arrivals.foldl arrive s) ≤
      times_enqueued source_id identity s + 1 := by
  have hrun : Once source_id identity digest (times_enqueued source_id identity s)
      (arrivals.foldl arrive s) := once_run h ⟨hone, Or.inl rfl⟩
  rcases hrun.once with heq | ⟨heq, -⟩
  · omega
  · omega

end xrelease.arrivals
