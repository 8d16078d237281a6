-- The law of a repeated poll: polling the same list again after a poll that ended well puts
-- nothing into the outbox and sends nothing, exactly for the lists that give no identity two
-- contents and for the watches that ignore updates.
import Xrelease.Etag

namespace xrelease.repeated

open xrelease.model xrelease.store xrelease.engine xrelease.outbox xrelease.pipeline
open xrelease.recorded xrelease.polled xrelease.etag keyed calls calls.Prog calls.Terms

/-! ## The law -/

def is_enqueued : Note → Bool
  | .enqueued _ _ _ => true
  | .asked _ _ _ => false
  | .baselined _ _ => false

/-- Nothing was put into the outbox and nothing was sent. -/
structure Silent (s t : World) : Prop where
  sends : t.book.sends = s.book.sends
  enqueued : t.book.notes.filter is_enqueued = s.book.notes.filter is_enqueued

/-- Upstream answers every fetch with this list. -/
def Lists (releases : List Release) (os : Nat → Oracle) : Prop :=
  ∀ n, ∃ etag, (os n).fetch = .ok ⟨false, etag, releases⟩

/-- A poll by itself. -/
abbrev poll (w : Nat) (watch : Watch) (force_fetch : Bool) (os : Nat → Oracle) (s : World) :
    Except PipelineError Nat × World × (Nat → Oracle) :=
  alone machine w (poll_once_inner watch force_fetch) os s

/-- Two polls of one list, the first of which ended well: the second is silent. -/
def SecondIsSilent (watch : Watch) (releases : List Release) : Prop :=
  ∀ (s : World) (w w' : Nat) (force_fetch force_fetch' : Bool) (os os' : Nat → Oracle),
    OneRow s.db → Lists releases os → Lists releases os' →
    (∃ n, (poll w watch force_fetch os s).1 = .ok n) →
    Silent (poll w watch force_fetch os s).2.1
      (poll w' watch force_fetch' os' (poll w watch force_fetch os s).2.1).2.1

/-! ## Calls that leave outbox and sinks alone -/

/-- The rows of the outbox are as they were, and nothing was put there or sent. -/
structure Hushed (s t : World) : Prop where
  rows : ∀ j, t.db.parent j = s.db.parent j
  silent : Silent s t

theorem Hushed.refl (s : World) : Hushed s s := ⟨fun _ => rfl, rfl, rfl⟩

theorem Hushed.trans {s₁ s₂ s₃ : World} (h : Hushed s₁ s₂) (h' : Hushed s₂ s₃) : Hushed s₁ s₃ :=
  ⟨fun j => (h'.rows j).trans (h.rows j), h'.silent.sends.trans h.silent.sends,
    h'.silent.enqueued.trans h.silent.enqueued⟩

theorem Hushed.oneRow {s t : World} (h : Hushed s t) (hone : OneRow s.db) : OneRow t.db := by
  intro i j r r' hr hr'
  rw [h.rows] at hr hr'
  exact hone i j r r' hr hr'

/-- The outbox has a row of the identity that an enqueue of this content does not reopen. -/
def Blocked (db : Db) (source_id identity digest : String) : Prop :=
  ∃ j r, db.parent j = some r ∧ r.source_id = source_id ∧ r.identity = identity ∧
    (r.status ≠ .sent ∨ r.content_digest = some digest)

theorem blocked_of_mute {db : Db} {a x d : String} (h : Mute db a x d) : Blocked db a x d := by
  obtain ⟨j, r, hr, hsrc, hid, hdead | hd⟩ := h
  · exact ⟨j, r, hr, hsrc, hid, Or.inl (by simp [hdead])⟩
  · exact ⟨j, r, hr, hsrc, hid, Or.inr hd⟩

theorem Hushed.blocked {s t : World} {a x d : String} (h : Hushed s t)
    (hm : Blocked s.db a x d) : Blocked t.db a x d := by
  obtain ⟨j, r, hr, hrest⟩ := hm
  exact ⟨j, r, (h.rows j).trans hr, hrest⟩

/-- Calls of a poll that neither enqueue nor deliver. -/
def still {γ : Type} (op : Call γ) : Prop :=
  match op with
  | .is_initialized _ | .touch_polled _ | .set_latest_release_tag _ _ | .source_state_row _
  | .get_etag _ | .set_etag _ _ | .has_seen_missing_published_at _ | .enrich_seen_metadata _ _
  | .load_seen_index _ | .best_seen_identity _ | .record_seen _ _ | .record_seen_batch _ _
  | .select_outbox _ _ | .utc_now | .fetch _ => True
  | _ => False

theorem hushed_exec {w : Nat} {β : Type} {op : Call β} {o : Oracle} {s : World} (h : still op) :
    Hushed s (exec w op o s).2 := by
  cases hfail : o.fails with
  | some e =>
    cases op <;> simp only [exec, stored, hfail]
    all_goals first
      | exact ⟨fun _ => rfl, rfl, rfl⟩
      | exact False.elim h
      | (split <;> exact ⟨fun _ => rfl, rfl, rfl⟩)
  | none =>
    cases op <;> simp only [exec, stored, hfail]
    case is_initialized a =>
      refine ⟨fun _ => rfl, rfl, ?_⟩
      simp [World.note, World.tick, is_enqueued]
    case record_seen_batch a items =>
      refine ⟨fun j => parent_record_seen_batch s.db _ a j o.order items, rfl, ?_⟩
      simp [World.note, World.wrote, World.tick, is_enqueued]
    all_goals first
      | exact ⟨fun _ => rfl, rfl, rfl⟩
      | exact False.elim h
      | (split <;> exact ⟨fun _ => rfl, rfl, rfl⟩)

theorem hushed_of_exec {w : Nat} {β : Type} {op : Call β} {o : Oracle} {s s' : World}
    {r : Except PipelineError β} (h : machine.exec w op o s = (r, s')) (hop : still op) :
    Hushed s s' := by
  have hs : (exec w op o s).2 = s' := congrArg Prod.snd h
  exact hs ▸ hushed_exec hop

theorem still_of_quiet {γ : Type} {op : Call γ} (h : quiet op) : still op := by
  cases op <;> trivial

section Repeat

variable {smooth : Prop} {w : Nat} {s : World} {watch : Watch} {answer : FetchOutcome}

theorem safe_hushed {α : Type} {Q : Bool → α → Prop} (smooth : Prop) (source_id : String)
    {p : Work α} (hp : p.Within quiet Q false) :
    (by_itself smooth).Safe machine w
      (fun r s' => (Quiet source_id s.db s'.db ∧ Hushed s s') ∧ (smooth → ∃ b, r = .ok b)) p s := by
  refine safe_within (K := fun (s' : World) => Quiet source_id s.db s'.db ∧ Hushed s s') ?_ hp
    (fun _ => rfl) ⟨Quiet.refl source_id s.db, Hushed.refl s⟩
  intro β op o s₁ hop hok hk
  obtain ⟨hq, hans⟩ := quiet_exec source_id (w := w) (o := o) (s := s₁) hop
  exact ⟨⟨hk.1.trans hq, hk.2.trans (hushed_exec (still_of_quiet hop))⟩, fun h => hans (hok h)⟩

/-! ## The poll up to its list -/

variable {releases : List Release}

theorem ends_list {os : Nat → Oracle} (hos : Lists releases os) (force_fetch : Bool)
    (etag : Option String) (s : World) :
    (∃ e, (alone machine w (from_fetch watch force_fetch etag) os s).1 = .error e ∧
        Hushed s (alone machine w (from_fetch watch force_fetch etag) os s).2.1 ∧
        ∃ n, (os n).fails ≠ none) ∨
      ∃ k s₁, Quiet watch.provider.id s.db s₁.db ∧ Hushed s s₁ ∧
        alone machine w (from_fetch watch force_fetch etag) os s =
          alone machine w (deliver_new_releases watch releases) (fun n => os (n + k)) s₁ := by
  obtain ⟨etag', hfetch⟩ := hos 0
  unfold from_fetch fetch_or_touch
  simp only [bind_eq, bind_assoc]
  rw [alone_caught_call]
  have hexec : machine.exec w (.fetch etag) (os 0) s =
      (.ok ⟨false, etag', releases⟩, (s.tick (os 0)).got w ⟨false, etag', releases⟩) := by
    simp [machine, exec, hfetch]
  have h₀ : Hushed s ((s.tick (os 0)).got w ⟨false, etag', releases⟩) := hushed_of_exec hexec trivial
  rw [hexec]
  simp only [pure_eq, done_bind]
  cases htouch : machine.exec w (.touch_polled watch.provider.id) (os 1)
      ((s.tick (os 0)).got w ⟨false, etag', releases⟩) with
  | mk r t =>
  have h₁ := h₀.trans (hushed_of_exec htouch trivial)
  cases r with
  | error e =>
    rw [alone_call_error (fun n => os (n + 1)) htouch]
    exact Or.inl ⟨e, rfl, h₁, 1, (stored_error htouch).1⟩
  | ok _ =>
    rw [alone_call_ok (fun n => os (n + 1)) htouch]
    have hq : Quiet watch.provider.id s.db t.db :=
      quiet_of_exec (s := (s.tick (os 0)).got w _) htouch trivial
    simp only [Bool.false_eq_true, if_false]
    cases etag' with
    | none => exact Or.inr ⟨2, t, hq, h₁, rfl⟩
    | some etag' =>
      simp only [store_etag]
      cases hset : machine.exec w (.set_etag watch.provider.id (some etag')) (os 2) t with
      | mk r t₂ =>
      have h₂ := h₁.trans (hushed_of_exec hset trivial)
      cases r with
      | error e =>
        rw [alone_call_error (fun n => os (n + 1 + 1)) hset]
        exact Or.inl ⟨e, rfl, h₂, 2, (stored_error hset).1⟩
      | ok _ =>
        rw [alone_call_ok (fun n => os (n + 1 + 1)) hset]
        obtain ⟨_, heq⟩ := stored_ok hset
        obtain ⟨_, rfl⟩ := Prod.mk.inj heq
        refine Or.inr ⟨3, _, hq.trans ?_, h₂, rfl⟩
        exact quiet_state t.db _ (fun st => { st with etag := some etag' }) (fun _ => rfl)

/-- A poll of a list fails before it looks at the list, or goes on to process it. -/
theorem poll_list {os : Nat → Oracle} (hos : Lists releases os) (w : Nat) (watch : Watch)
    (force_fetch : Bool) (s : World) :
    (∃ e, (poll w watch force_fetch os s).1 = .error e ∧
        Hushed s (poll w watch force_fetch os s).2.1 ∧ ∃ n, (os n).fails ≠ none) ∨
      ∃ k s₁, Quiet watch.provider.id s.db s₁.db ∧ Hushed s s₁ ∧
        poll w watch force_fetch os s =
          alone machine w (deliver_new_releases watch releases) (fun n => os (n + k)) s₁ := by
  unfold poll
  rw [poll_eq]
  unfold stored_etag
  cases force_fetch with
  | true => exact ends_list hos true none s
  | false =>
    simp only [Bool.false_eq_true, if_false]
    cases hexec : machine.exec w (.get_etag watch.provider.id) (os 0) s with
    | mk r s₁ =>
    have h₀ : Hushed s s₁ := hushed_of_exec hexec trivial
    cases r with
    | error e =>
      rw [alone_call_error os hexec]
      exact Or.inl ⟨e, rfl, h₀, 0, (stored_error hexec).1⟩
    | ok etag =>
      rw [alone_call_ok os hexec]
      have hq : Quiet watch.provider.id s.db s₁.db := quiet_of_exec hexec trivial
      rcases @ends_list w watch _ _ (fun n => hos (n + 1)) false etag s₁ with
        ⟨e, he, hh, n, hn⟩ | ⟨k, s₂, hq₂, hh, heq⟩
      · exact Or.inl ⟨e, he, h₀.trans hh, n + 1, hn⟩
      · exact Or.inr ⟨k + 1, s₂, hq.trans hq₂, h₀.trans hh, heq⟩

/-! ## The second poll -/

theorem hushed_of_stored {β : Type} {o : Oracle} {s' t : World} {r : β} {x : Except PipelineError β}
    (h : stored o s (r, t) = (x, s')) (ht : Hushed s t) :
    Hushed s s' := by
  cases x with
  | ok b =>
    obtain ⟨_, heq⟩ := stored_ok h
    obtain ⟨_, rfl⟩ := Prod.mk.inj heq
    exact ht
  | error e =>
    obtain ⟨_, rfl⟩ := stored_error h
    exact Hushed.refl _

/-- An insert that finds a row is silent. -/
theorem hushed_insert {event : Event} {identity : String} {om : OutboxMeta} {id : Nat} {o : Oracle}
    {s' : World} {x : Except PipelineError (Option Nat)}
    (hrow : RowOf s.db event.source_id identity id)
    (h : machine.exec w (.insert_outbox event identity om) o s = (x, s')) :
    Hushed s s' ∧ ∀ out, x = .ok out → out = none := by
  have hnone := insert_of_row hrow (s.tick o).now om
  have hkept : ∀ j, (insert_outbox s.db (s.tick o).now event identity om).2.parent j =
      s.db.parent j := by
    intro j
    apply Option.ext
    intro r
    exact (insert_untouched hnone event.source_id r.identity).rows j r rfl
  have htick : Hushed s (s.tick o) := ⟨fun _ => rfl, rfl, rfl⟩
  have hquiet : Hushed (s.tick o)
      (((s.tick o).wrote (insert_outbox s.db (s.tick o).now event identity om).2).offer w
        om.content_digest) :=
    ⟨hkept, rfl, rfl⟩
  change stored o (s.tick o) ((insert_outbox s.db (s.tick o).now event identity om).1,
    if (insert_outbox s.db (s.tick o).now event identity om).1.isSome then _
    else ((s.tick o).wrote (insert_outbox s.db (s.tick o).now event identity om).2).offer w
      om.content_digest) = _ at h
  rw [hnone] at h
  refine ⟨htick.trans (hushed_of_stored h hquiet), ?_⟩
  rintro out rfl
  obtain ⟨_, heq⟩ := stored_ok h
  exact (Prod.mk.inj heq).1.symm

/-- A row that is not reopened is left alone, and nothing is to be delivered now. -/
theorem safe_blocked_enqueue {event : Event} {identity digest : String} {om : OutboxMeta}
    (hone : OneRow s.db) (hm : Blocked s.db event.source_id identity digest)
    (hd : om.content_digest = some digest) :
    (by_itself smooth).Safe machine w
      (fun r s' => Hushed s s' ∧ ∀ e, r = .ok (some e) → e.deliver_now = false)
      (try_enqueue_notification event identity om) s := by
  obtain ⟨j, row, hrow, hsrc, hid, hcase⟩ := hm
  refine safe_solo_bind ?_ ?_
  · intro o now s₀ _ h₀
    have hh₀ := hushed_of_exec h₀ trivial
    have hrow₀ : RowOf s₀.db event.source_id identity j := ⟨row, (hh₀.rows j).trans hrow, hsrc, hid⟩
    refine safe_solo_bind ?_ ?_
    · intro o₁ inserted s₁ _ h₁
      obtain ⟨hh₁, hnone⟩ := hushed_insert hrow₀ h₁
      obtain rfl := hnone inserted rfl
      refine safe_solo_bind ?_ ?_
      · intro o₂ existing s₂ _ h₂
        have hh₂ := (hh₀.trans hh₁).trans (hushed_of_exec h₂ trivial)
        obtain ⟨_, heq⟩ := stored_ok h₂
        obtain ⟨hsel, _⟩ := Prod.mk.inj heq
        cases existing with
        | none => exact ⟨hh₂, fun e h => absurd h (by simp)⟩
        | some hit =>
          obtain ⟨id, status, digest'⟩ := hit
          obtain ⟨r, hr, hrsrc, hrid, rfl, rfl⟩ := select_some hsel
          -- the row found is that row
          have hr₀ : s.db.parent id = some r := ((hh₀.trans hh₁).rows id).symm.trans hr
          obtain rfl := hone id j r row hr₀ hrow (hrsrc.trans hsrc.symm) (hrid.trans hid.symm)
          obtain rfl := Option.some.inj (hr₀.symm.trans hrow)
          cases hst : r.status with
          | pending =>
            refine ⟨hh₂, ?_⟩
            rintro _ ⟨⟩
            rfl
          | failed =>
            refine ⟨hh₂, ?_⟩
            rintro _ ⟨⟩
            rfl
          | dead => exact ⟨hh₂, fun e h => absurd h (by simp)⟩
          | sent =>
            have hsame : r.content_digest = om.content_digest := by
              rcases hcase with hnot | hdig
              · exact absurd hst hnot
              · exact hdig.trans hd.symm
            dsimp only
            rw [if_pos hsame]
            exact ⟨hh₂, fun e h => absurd h (by simp)⟩
      · intro o₂ e s₂ _ h₂
        exact ⟨(hh₀.trans hh₁).trans (hushed_of_exec h₂ trivial), fun e h => absurd h (by simp)⟩
    · intro o₁ e s₁ _ h₁
      exact ⟨hh₀.trans (hushed_insert hrow₀ h₁).1, fun e h => absurd h (by simp)⟩
  · intro o e s₀ _ h₀
    exact ⟨hushed_of_exec h₀ trivial, fun e h => absurd h (by simp)⟩

theorem safe_blocked_release {release : Release} (hone : OneRow s.db)
    (hm : Blocked s.db watch.provider.id release.id release.content_fingerprint) :
    (by_itself smooth).Safe machine w (fun _ s' => Hushed s s') (deliver_release watch release) s := by
  have henqueue : ∀ deliver_after, ∀ t : World, Hushed s t →
      (by_itself smooth).Safe machine w (fun _ s' => Hushed s s')
        (deliver_deferred watch release deliver_after) t := by
    intro deliver_after t ht
    refine safe_bind (safe_mono (safe_blocked_enqueue (ht.oneRow hone) (ht.blocked hm) rfl) ?_)
    rintro r s₁ ⟨hh, hlater⟩
    cases r with
    | error e => exact ht.trans hh
    | ok out =>
      cases out with
      | none => exact ht.trans hh
      | some enqueued =>
        have hnot := hlater enqueued rfl
        refine safe_solo_bind ?_ ?_
        · intro o _ s₂ _ h₂
          unfold deliver_inline
          rw [hnot]
          exact (ht.trans hh).trans (hushed_of_exec h₂ trivial)
        · intro o e s₂ _ h₂
          exact (ht.trans hh).trans (hushed_of_exec h₂ trivial)
  rw [deliver_release_eq]
  unfold deliver_after_of
  cases watch.notify_schedule with
  | none => exact henqueue none s (Hushed.refl s)
  | some next_after =>
    refine safe_bind (safe_solo_bind ?_ ?_)
    · intro o now s₀ _ h₀
      exact henqueue (next_after now) s₀ (hushed_of_exec h₀ trivial)
    · intro o e s₀ _ h₀
      exact hushed_of_exec h₀ trivial

theorem safe_blocked_each (hone : OneRow s.db)
    (hm : ∀ r ∈ releases, Blocked s.db watch.provider.id r.id r.content_fingerprint) (sent : Nat) :
    (by_itself smooth).Safe machine w (fun _ s' => Hushed s s') (deliver_each watch releases sent)
      s := by
  induction releases generalizing sent s with
  | nil => exact Hushed.refl s
  | cons release rest ih =>
    refine safe_bind (safe_mono (safe_blocked_release hone (hm release List.mem_cons_self)) ?_)
    intro r s₁ hh
    cases r with
    | error e => exact hh
    | ok delivered =>
      refine safe_mono (ih (hh.oneRow hone)
        (fun r hr => hh.blocked (hm r (List.mem_cons_of_mem _ hr))) _) ?_
      exact fun _ _ hh' => hh.trans hh'

/-- Processing a list, as far as the outbox and the sinks go: it is cut off before it delivers, or
takes the baseline, or delivers what is deliverable. -/
theorem safe_list {Q : Except PipelineError Nat → World → Prop} (answer : FetchOutcome)
    (hcut : ¬smooth → ∀ e s', Hushed s s' → Q (.error e) s')
    (hnew : is_initialized s.db watch.provider.id = false → ∀ s', Hushed s s' →
      is_initialized s'.db watch.provider.id = true →
      (∀ r ∈ accepted watch answer, ∃ r' ∈ accepted watch answer,
        Marked s'.db watch.provider.id r.id r'.content_fingerprint) → Q (.ok 0) s')
    (hknown : is_initialized s.db watch.provider.id = true → ∀ db s',
      Quiet watch.provider.id s.db db → Hushed s s' →
      (by_itself smooth).Safe machine w Q (deliver_each watch (deliverable watch answer db) 0) s') :
    (by_itself smooth).Safe machine w Q (deliver_new_releases watch answer.releases) s := by
  have hstop : ∀ {β : Type} {r : Except PipelineError β} {e : PipelineError} {s' : World},
      (smooth → ∃ b, r = .ok b) → r = .error e → Hushed s s' → Q (.error e) s' := by
    rintro β _ e s' hok rfl hh
    refine hcut (fun hsmooth => ?_) e s' hh
    obtain ⟨_, hb⟩ := hok hsmooth
    exact absurd hb (by simp)
  refine safe_bind (safe_mono (safe_hushed smooth watch.provider.id
    (quiet_note_latest watch.provider.id (accepted watch answer))) ?_)
  rintro r s₁ ⟨⟨hq₁, hh₁⟩, hok₁⟩
  cases r with
  | error e => exact hstop hok₁ rfl hh₁
  | ok _ =>
  refine safe_bind (safe_mono (safe_hushed smooth watch.provider.id (within_perform
    (Q := fun _ _ => True) (f := false) trivial (fun _ => trivial))) ?_)
  rintro r s₂ ⟨⟨hq₂, hh₂⟩, hok₂⟩
  have hq := hq₁.trans hq₂
  have hh := hh₁.trans hh₂
  cases r with
  | error e => exact hstop hok₂ rfl hh
  | ok _ =>
  refine safe_bind (safe_solo_bind ?_ ?_)
  · intro o initialized s₃ _ h₃
    have hh₃ := hh.trans (hushed_of_exec h₃ trivial)
    obtain ⟨_, heq⟩ := stored_ok h₃
    obtain ⟨hinit, rfl⟩ := Prod.mk.inj heq
    have hbefore : is_initialized s.db watch.provider.id = initialized :=
      hq.contact.symm.trans hinit
    cases initialized with
    | false =>
      refine safe_solo_bind ?_ ?_
      · intro o₄ _ s₄ _ h₄
        have hh₄ := hh₃.trans (hushed_of_exec h₄ trivial)
        obtain ⟨_, heq₄⟩ := stored_ok h₄
        obtain ⟨_, rfl⟩ := Prod.mk.inj heq₄
        refine safe_bind (safe_mono (safe_hushed smooth watch.provider.id
          (quiet_note_latest watch.provider.id (accepted watch answer))) ?_)
        rintro r s₅ ⟨⟨hq₅, hh₅⟩, hok₅⟩
        cases r with
        | error e => exact hstop hok₅ rfl (hh₄.trans hh₅)
        | ok _ =>
        refine hnew hbefore s₅ (hh₄.trans hh₅)
          (hq₅.contact.trans (initialized_of_batch _ _ _ _ _)) (fun r hr => ?_)
        obtain ⟨item, hitem, _, hd⟩ := seen_batch s₂.db ((s₂.tick o).tick o₄).now o₄.order
          watch.provider.id (List.mem_map_of_mem (f := baseline_item) hr)
        obtain ⟨r', hr', rfl⟩ := List.mem_map.mp hitem
        exact ⟨r', hr', (hq₅.untouched r.id).seen.trans hd⟩
      · intro o₄ e s₄ hok₄ h₄
        exact hcut (fun hsmooth => (stored_error h₄).1 (hok₄ hsmooth)) e s₄
          (hh₃.trans (hushed_of_exec h₄ trivial))
    | true =>
      refine safe_solo_bind ?_ ?_
      · intro o₄ _ s₄ _ h₄
        have hh₄ := hh₃.trans (hushed_of_exec h₄ trivial)
        obtain ⟨_, heq₄⟩ := stored_ok h₄
        obtain ⟨rfl, rfl⟩ := Prod.mk.inj heq₄
        exact hknown hbefore s₂.db _ hq hh₄
      · intro o₄ e s₄ hok₄ h₄
        exact hcut (fun hsmooth => (stored_error h₄).1 (hok₄ hsmooth)) e s₄
          (hh₃.trans (hushed_of_exec h₄ trivial))
  · intro o e s₃ hok₃ h₃
    exact hcut (fun hsmooth => (stored_error h₃).1 (hok₃ hsmooth)) e s₃
      (hh.trans (hushed_of_exec h₃ trivial))

/-- Processing a list is silent, whatever fails, where the source is new or what is deliverable is
blocked. -/
theorem safe_blocked (answer : FetchOutcome) (hone : OneRow s.db)
    (hm : is_initialized s.db watch.provider.id = true →
      ∀ r ∈ deliverable watch answer s.db,
        Blocked s.db watch.provider.id r.id r.content_fingerprint) :
    (by_itself smooth).Safe machine w (fun _ s' => Hushed s s')
      (deliver_new_releases watch answer.releases) s := by
  refine safe_list answer (fun _ _ _ hh => hh) (fun _ _ hh _ _ => hh) ?_
  intro hinit db s' hq hh
  refine safe_mono (safe_blocked_each (hh.oneRow hone) ?_ 0) (fun _ _ hh' => hh.trans hh')
  intro r hr
  exact hh.blocked (hm hinit r (hq.deliverable.mp hr))

/-- Processing a list of which nothing is left is silent, whatever fails. -/
theorem safe_second (answer : FetchOutcome) (hone : OneRow s.db) (hrest : AtRest watch answer s.db) :
    (by_itself smooth).Safe machine w (fun _ s' => Hushed s s')
      (deliver_new_releases watch answer.releases) s :=
  safe_blocked answer hone (fun _ r hr => blocked_of_mute (hrest.2 r hr))

theorem silent_of_rests
    (hcond : watch.filter.exclude_updated = true ∨ OneContent watch ⟨false, none, releases⟩) :
    SecondIsSilent watch releases := by
  intro s w w' force_fetch force_fetch' os os' hone hos hos' ⟨n, hok⟩
  have hone₁ : OneRow (poll w watch force_fetch os s).2.1.db :=
    alone_inv (fun (t : World) => OneRow t.db) (fun _ _ _ h => oneRow_exec h) _ hone
  have hrest : AtRest watch ⟨false, none, releases⟩ (poll w watch force_fetch os s).2.1.db := by
    rcases poll_list hos w watch force_fetch s with ⟨e, he, _⟩ | ⟨k, s₁, _, _, heq⟩
    · exact absurd (hok.symm.trans he) (by simp)
    · rw [heq] at hok ⊢
      exact (polled_alone False watch ⟨false, none, releases⟩ w _ (fun h => absurd h id) s₁).rests
        n hok hcond
  generalize (poll w watch force_fetch os s).2.1 = t at hone₁ hrest
  rcases poll_list hos' w' watch force_fetch' t with ⟨_, _, hh, _⟩ | ⟨k, s₁, hq, hh, heq⟩
  · exact hh.silent
  · rw [heq]
    refine (hh.trans ?_).silent
    have hsecond : (by_itself False).Safe machine w' (fun _ s' => Hushed s₁ s')
        (deliver_new_releases watch releases) s₁ :=
      safe_second ⟨false, none, releases⟩ (hh.oneRow hone₁) (hrest.quiet hq)
    exact alone_by_itself _ (fun h => absurd h id) hsecond

/-! ## Two contents for one identity -/

/-- A first contact takes the baseline and nothing else. -/
theorem safe_first (answer : FetchOutcome) (hnew : is_initialized s.db watch.provider.id = false) :
    (by_itself True).Safe machine w
      (fun r s' => (∃ n, r = .ok n) ∧ Hushed s s' ∧
        is_initialized s'.db watch.provider.id = true ∧
        ∀ r ∈ accepted watch answer, ∃ r' ∈ accepted watch answer,
          Marked s'.db watch.provider.id r.id r'.content_fingerprint)
      (deliver_new_releases watch answer.releases) s := by
  refine safe_list answer (fun hnot => absurd trivial hnot) ?_ ?_
  · intro _ s' hh hinit hmarked
    exact ⟨⟨0, rfl⟩, hh, hinit, hmarked⟩
  · intro hknown
    rw [hnew] at hknown
    exact absurd hknown (by decide)

/-- Two promises of one program. -/
theorem safe_both {α : Type} {Q Q' : Except PipelineError α → World → Prop} {p : Work α}
    (h : (by_itself smooth).Safe machine w Q p s) (h' : (by_itself smooth).Safe machine w Q' p s) :
    (by_itself smooth).Safe machine w (fun r s' => Q r s' ∧ Q' r s') p s := by
  induction p generalizing s with
  | done a => exact ⟨h, h'⟩
  | fail e => exact ⟨h, h'⟩
  | call op next ih =>
    intro s₁ hr hi o hm
    obtain ⟨hd, hi', hn⟩ := h s₁ hr hi o hm
    exact ⟨hd, hi', ih _ hn (h' s₁ hr hi o hm).2.2⟩

/-- More was put into the outbox than so much. -/
def Loud (n : Nat) (t : World) : Prop := n < (t.book.notes.filter is_enqueued).length

theorem loud_exec {n : Nat} {β : Type} {op : Call β} {o : Oracle} (h : Loud n s) :
    Loud n (exec w op o s).2 := by
  obtain ⟨l, hl, _⟩ := baseline.notes_exec w op o s
  unfold Loud at h ⊢
  rw [hl, List.filter_append, List.length_append]
  omega

theorem safe_stays_loud {n : Nat} {α : Type} (p : Work α) (hs : Loud n s) :
    (by_itself smooth).Safe machine w (fun _ s' => Loud n s') p s :=
  safe_mono (safe_also (Loud n) (fun _ _ _ h => loud_exec h) (safe_any p s) hs) (fun _ _ h => h.2)

theorem loud_of_note {t : World} {a x : String}
    (h : t.book.notes = s.book.notes ++ [.enqueued w a x]) :
    Loud (s.book.notes.filter is_enqueued).length t := by
  unfold Loud
  rw [h, List.filter_append, List.length_append]
  simp [is_enqueued]

/-- What is not blocked is put into the outbox. -/
theorem safe_loud_enqueue {event : Event} {identity digest : String} {om : OutboxMeta}
    (hm : ¬ Blocked s.db event.source_id identity digest) (hd : om.content_digest = some digest) :
    (by_itself True).Safe machine w
      (fun _ s' => Loud (s.book.notes.filter is_enqueued).length s')
      (try_enqueue_notification event identity om) s := by
  refine safe_solo_bind ?_ (fun o e s₀ _ h₀ => absurd h₀ (by simp [machine, exec]))
  intro o now s₀ _ h₀
  have hh₀ := hushed_of_exec h₀ trivial
  refine safe_solo_bind ?_ (fun o₁ e s₁ hok₁ h₁ => absurd (hok₁ trivial) (stored_error h₁).1)
  intro o₁ inserted s₁ _ h₁
  rw [← hh₀.silent.enqueued]
  obtain ⟨-, heq⟩ := stored_ok h₁
  obtain ⟨hin, hworld⟩ := Prod.mk.inj heq
  rw [hin] at hworld
  cases inserted with
  | some id =>
    refine safe_stays_loud _ ?_
    subst hworld
    exact loud_of_note (w := w) (a := event.source_id) (x := identity) rfl
  | none =>
    have hrows : ∀ j, s₁.db.parent j = s.db.parent j := by
      intro j
      subst hworld
      have hkept : (insert_outbox (s₀.tick o₁).db (s₀.tick o₁).now event identity om).2.parent j =
          s₀.db.parent j := by
        apply Option.ext
        intro r
        exact (insert_untouched hin event.source_id r.identity).rows j r rfl
      exact hkept.trans (hh₀.rows j)
    have hnotes : s₁.book.notes = s₀.book.notes := by
      subst hworld
      rfl
    have hhit : ∃ hit, select_outbox s₁.db event.source_id identity = some hit := by
      subst hworld
      exact insert_none hin
    refine safe_solo_bind ?_ (fun o₂ e s₂ hok₂ h₂ => absurd (hok₂ trivial) (stored_error h₂).1)
    intro o₂ existing s₂ _ h₂
    obtain ⟨-, heq₂⟩ := stored_ok h₂
    obtain ⟨hsel, rfl⟩ := Prod.mk.inj heq₂
    obtain ⟨hit, hhit⟩ := hhit
    obtain rfl : some hit = existing := hhit.symm.trans hsel
    obtain ⟨id, status, stored_digest⟩ := hit
    obtain ⟨row, hrow, hsrc, hid, hst, hdigest⟩ := select_some hhit
    -- the row found does not block, so it is sent, and with another content
    have hsent : row.status = .sent := by
      by_contra hne
      exact hm ⟨id, row, (hrows id).symm.trans hrow, hsrc, hid, Or.inl hne⟩
    have hother : stored_digest ≠ om.content_digest := by
      rintro rfl
      exact hm ⟨id, row, (hrows id).symm.trans hrow, hsrc, hid, Or.inr (hdigest.trans hd)⟩
    obtain rfl : status = .sent := hst.symm.trans hsent
    dsimp only
    rw [if_neg hother]
    refine safe_solo_bind ?_ (fun o₃ e s₃ hok₃ h₃ => absurd (hok₃ trivial) (stored_error h₃).1)
    intro o₃ updated s₃ _ h₃
    refine safe_stays_loud _ ?_
    obtain ⟨-, heq₃⟩ := stored_ok h₃
    obtain ⟨hre, hworld₃⟩ := Prod.mk.inj heq₃
    have hreopens : (reopen_outbox ((s₁.tick o₂).tick o₃).db event om id).1 = true := by
      have hfound : reopens ((s₁.tick o₂).tick o₃).db id = true := by
        have hrow' : ((s₁.tick o₂).tick o₃).db.parent id = some row := hrow
        unfold reopens
        rw [hrow']
        simp [hsent]
      unfold reopen_outbox
      rw [if_pos hfound]
    rw [if_pos hreopens] at hworld₃
    subst hworld₃
    rw [← hnotes]
    exact loud_of_note (s := s₁) (w := w) rfl

theorem safe_loud_release {release : Release}
    (hm : ¬ Blocked s.db watch.provider.id release.id release.content_fingerprint) :
    (by_itself True).Safe machine w
      (fun _ s' => Loud (s.book.notes.filter is_enqueued).length s')
      (deliver_release watch release) s := by
  have hafter : ∀ deliver_after, ∀ t : World, Hushed s t → (by_itself True).Safe machine w
      (fun _ s' => Loud (s.book.notes.filter is_enqueued).length s')
      (deliver_deferred watch release deliver_after) t := by
    intro deliver_after t ht
    have hm' : ¬ Blocked t.db watch.provider.id release.id release.content_fingerprint := by
      rintro ⟨j, r, hr, hrest⟩
      exact hm ⟨j, r, (ht.rows j).symm.trans hr, hrest⟩
    refine safe_bind (safe_mono (safe_loud_enqueue hm' rfl) ?_)
    intro r t' hl
    rw [ht.silent.enqueued] at hl
    cases r with
    | error e => exact hl
    | ok out => exact safe_stays_loud _ hl
  rw [deliver_release_eq]
  unfold deliver_after_of
  cases watch.notify_schedule with
  | none => exact hafter none s (Hushed.refl s)
  | some next_after =>
    refine safe_bind (safe_solo_bind ?_ ?_)
    · intro o now s₀ _ h₀
      exact hafter (next_after now) s₀ (hushed_of_exec h₀ trivial)
    · intro o e s₀ _ h₀
      exact absurd h₀ (by simp [machine, exec])

/-- The first release of a list that is not blocked is put into the outbox. -/
theorem safe_loud_each (hone : OneRow s.db)
    (hm : ∃ r ∈ releases, ¬ Blocked s.db watch.provider.id r.id r.content_fingerprint)
    (sent : Nat) :
    (by_itself True).Safe machine w
      (fun _ s' => Loud (s.book.notes.filter is_enqueued).length s')
      (deliver_each watch releases sent) s := by
  induction releases generalizing sent s with
  | nil => simp at hm
  | cons release rest ih =>
    by_cases hhead : Blocked s.db watch.provider.id release.id release.content_fingerprint
    · refine safe_bind (safe_mono (safe_both (safe_blocked_release hone hhead)
        (safe_deliver_release release)) ?_)
      rintro r s₁ ⟨hh, hhandled⟩
      obtain ⟨delivered, rfl⟩ := hhandled.smooth trivial
      rw [← hh.silent.enqueued]
      refine ih (hh.oneRow hone) ?_ _
      obtain ⟨r, hr, hnot⟩ := hm
      rcases List.mem_cons.mp hr with rfl | hr
      · exact absurd hhead hnot
      · refine ⟨r, hr, ?_⟩
        rintro ⟨j, row, hrow, hrest⟩
        exact hnot ⟨j, row, (hh.rows j).symm.trans hrow, hrest⟩
    · refine safe_bind (safe_mono (safe_loud_release hhead) ?_)
      intro r s' hl
      cases r with
      | error e => exact hl
      | ok delivered => exact safe_stays_loud _ hl

theorem safe_loud {r : Release} (hone : OneRow s.db)
    (hknown : is_initialized s.db watch.provider.id = true) (hr : r ∈ deliverable watch answer s.db)
    (hm : ¬ Blocked s.db watch.provider.id r.id r.content_fingerprint) :
    (by_itself True).Safe machine w
      (fun _ s' => Loud (s.book.notes.filter is_enqueued).length s')
      (deliver_new_releases watch answer.releases) s := by
  refine safe_list answer (fun hnot => absurd trivial hnot) ?_ ?_
  · intro hnew
    rw [hknown] at hnew
    exact absurd hnew (by decide)
  · intro _ db s' hq hh
    rw [← hh.silent.enqueued]
    refine safe_loud_each (hh.oneRow hone) ⟨r, hq.deliverable.mpr hr, ?_⟩ 0
    rintro ⟨j, row, hrow, hrest⟩
    exact hm ⟨j, row, (hh.rows j).symm.trans hrow, hrest⟩

/-- Of two contents one is not the one that is seen, and is delivered. -/
theorem deliverable_of_two {db : Db} {r r' : Release} {d : String}
    (hex : watch.filter.exclude_updated = false) (hr : r ∈ accepted watch answer)
    (hr' : r' ∈ accepted watch answer) (hid : r.id = r'.id)
    (hne : r.content_fingerprint ≠ r'.content_fingerprint)
    (hm : Marked db watch.provider.id r.id d) :
    ∃ r'' , r'' ∈ deliverable watch answer db := by
  have hshould : ∀ x : Release, x.id = r.id → d ≠ x.content_fingerprint →
      should_deliver_cached x watch.filter.exclude_updated
        (load_seen_index db watch.provider.id) = true := by
    intro x hx hdx
    unfold should_deliver_cached load_seen_index
    rw [hx, hm]
    simpa [hex] using hdx
  by_cases hd : d = r.content_fingerprint
  · exact ⟨r', mem_deliverable.mpr ⟨hr', hshould r' hid.symm (fun h => hne (hd.symm.trans h))⟩⟩
  · exact ⟨r, mem_deliverable.mpr ⟨hr, hshould r rfl hd⟩⟩

theorem rests_of_silent (h : SecondIsSilent watch releases) :
    watch.filter.exclude_updated = true ∨ OneContent watch ⟨false, none, releases⟩ := by
  cases hex : watch.filter.exclude_updated with
  | true => exact Or.inl rfl
  | false =>
  refine Or.inr ?_
  intro r hr r' hr' hid
  by_contra hne
  -- from an empty store: the baseline, and then the content that it did not keep
  let os : Nat → Oracle := fun _ => { fetch := .ok ⟨false, none, releases⟩ }
  have hos : Lists releases os := fun _ => ⟨none, rfl⟩
  have hone : OneRow (World.start Db.empty 0 []).db := by
    intro i j r r' hr
    exact absurd hr (by simp [World.start, Db.parent, Db.empty, Serial.get, Serial.empty])
  have hpoll := poll_list hos 0 watch false (World.start Db.empty 0 [])
  rcases hpoll with ⟨_, _, _, n, hn⟩ | ⟨k, s₁, hq, hh, heq⟩
  · exact hn rfl
  have hfirst := safe_first (w := 0) ⟨false, none, releases⟩ (hq.contact.trans rfl)
  obtain ⟨hok, hh₁, hknown, hmarks⟩ := alone_by_itself (fun n => os (n + k))
    (fun _ _ => rfl) hfirst
  rw [← heq] at hok hh₁ hknown hmarks
  have hsilent := h (World.start Db.empty 0 []) 0 0 false false os os hone hos hos hok
  generalize (poll 0 watch false os (World.start Db.empty 0 [])).2.1 = t at *
  have hbefore := hh.trans hh₁
  rcases poll_list hos 0 watch false t with ⟨_, _, _, n, hn⟩ | ⟨k', t₁, hq', hh', heq'⟩
  · exact hn rfl
  obtain ⟨r'', hr'', hm⟩ := hmarks r hr
  obtain ⟨r₃, hr₃⟩ := deliverable_of_two hex hr hr' hid hne hm
  have hempty : ∀ j, t₁.db.parent j = none := by
    intro j
    rw [hh'.rows, hbefore.rows]
    rfl
  have hone₁ : OneRow t₁.db := by
    intro i j row row' hrow
    exact absurd ((hempty i).symm.trans hrow) (by simp)
  have hfree : ¬ Blocked t₁.db watch.provider.id r₃.id r₃.content_fingerprint := by
    rintro ⟨j, row, hrow, -⟩
    exact absurd ((hempty j).symm.trans hrow) (by simp)
  have hloud := alone_by_itself (fun n => os (n + k')) (fun _ _ => rfl)
    (safe_loud (w := 0) hone₁ (hq'.contact.trans hknown) (hq'.deliverable.mpr hr₃) hfree)
  rw [← heq'] at hloud
  unfold Loud at hloud
  rw [hsilent.enqueued, hh'.silent.enqueued] at hloud
  exact absurd hloud (lt_irrefl _)

/-- Polling a list again after a poll that ended well is silent, from every store and whatever
is answered, exactly when the watch ignores updates or the list gives no accepted identity two
contents. -/
theorem a_repeated_poll_is_silent_without_two_contents (watch : Watch) (releases : List Release) :
    SecondIsSilent watch releases ↔
      watch.filter.exclude_updated = true ∨ OneContent watch ⟨false, none, releases⟩ :=
  ⟨rests_of_silent, silent_of_rests⟩

/-- One tag, listed twice with different notes. -/
def listed_twice : List Release :=
  [(Release.new "v1").with_body (some "first notes"),
    (Release.new "v1").with_body (some "other notes")]

/-- The baseline keeps one of the two contents, and the next poll delivers the other. -/
theorem a_list_with_two_contents_is_not_silent : ¬ SecondIsSilent delivered.watch listed_twice := by
  intro h
  rcases rests_of_silent h with hex | hone
  · exact absurd hex (by decide)
  · have hsame := hone ((Release.new "v1").with_body (some "first notes")) List.mem_cons_self
      ((Release.new "v1").with_body (some "other notes"))
      (List.mem_cons_of_mem _ List.mem_cons_self) rfl
    exact absurd hsame (by decide +kernel)

end Repeat

end xrelease.repeated
