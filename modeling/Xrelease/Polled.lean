-- What a full poll leaves behind, from any tables and whatever the store and the sinks answer:
-- which releases of the fetched list are on record, which are not, and what of the list is still
-- to deliver when the poll has ended well.
import Xrelease.Baseline
import Xrelease.Recorded

namespace xrelease.polled

open xrelease.model xrelease.store xrelease.engine xrelease.outbox xrelease.pipeline
open xrelease.recorded keyed calls calls.Prog calls.Terms

/-! ## The answer of a poll -/

/-- The contents that a list of releases gives an identity. -/
def contents (releases : List Release) (identity : String) (digest : String) : Prop :=
  ∃ r ∈ releases, r.id = identity ∧ r.content_fingerprint = digest

/-- The releases of an answer that the source's filter accepts. -/
abbrev accepted (watch : Watch) (answer : FetchOutcome) : List Release :=
  answer.releases.filter watch.filter.accepts

/-- The identity is on record with the content that the answer gives it. -/
abbrev OnRecord (watch : Watch) (answer : FetchOutcome) (db : Db) (identity : String) : Prop :=
  Recorded db watch.provider.id identity (contents (accepted watch answer) identity)

/-- A full poll puts the identity on record: at first contact, and later unless a dead row of it
stands in the outbox or the watch ignores updates of what it has seen. -/
def Settles (watch : Watch) (db : Db) (identity : String) : Prop :=
  is_initialized db watch.provider.id = false ∨
    (¬ DeadRow db watch.provider.id identity ∧
      ¬ (watch.filter.exclude_updated = true ∧ (db.seen watch.provider.id identity).isSome))

/-! ## Steps that only keep the state of the source -/

/-- Nothing but `source_state` and the dates of what is seen, and no first contact. -/
structure Quiet (source_id : String) (db db' : Db) : Prop where
  untouched : ∀ x, Untouched source_id x db db'
  contact : is_initialized db' source_id = is_initialized db source_id

theorem Quiet.refl (source_id : String) (db : Db) : Quiet source_id db db :=
  ⟨fun _ => Untouched.refl db, rfl⟩

variable {source_id : String}

theorem Quiet.trans {db₁ db₂ db₃ : Db} (h : Quiet source_id db₁ db₂)
    (h' : Quiet source_id db₂ db₃) : Quiet source_id db₁ db₃ :=
  ⟨fun x => (h.untouched x).trans (h'.untouched x), h'.contact.trans h.contact⟩

theorem Quiet.symm {db db' : Db} (h : Quiet source_id db db') :
    Quiet source_id db' db :=
  ⟨fun x => (h.untouched x).symm, h.contact.symm⟩

def quiet {γ : Type} (op : Call γ) : Prop :=
  match op with
  | .is_initialized _ | .touch_polled _ | .set_latest_release_tag _ _ | .source_state_row _
  | .get_etag _ | .has_seen_missing_published_at _ | .enrich_seen_metadata _ _
  | .load_seen_index _ | .best_seen_identity _ => True
  | _ => False

theorem quiet_state {a : String} (db : Db) (now : DateTime) (set : SourceState → SourceState)
    (hset : ∀ st, (set st).initialized = st.initialized) :
    Quiet source_id db (upsert_state db now a set) :=
  ⟨fun _ => untouched_of_state rfl rfl, baseline.initialized_upsert set hset source_id⟩

theorem quiet_exec (source_id : String) {w : Nat} {β : Type} {op : Call β} {o : Oracle}
    {s : World} (h : quiet op) : Quiet source_id s.db (exec w op o s).2.db ∧
      (o.fails = none → ∃ b, (exec w op o s).1 = .ok b) := by
  cases hfail : o.fails with
  | some e =>
    refine ⟨?_, fun h => absurd h (by simp)⟩
    cases op <;> simp only [exec, stored, hfail]
    all_goals first
      | exact Quiet.refl _ _
      | exact False.elim h
  | none =>
    refine ⟨?_, fun _ => ?_⟩
    · cases op <;> simp only [exec, stored, hfail]
      case touch_polled a =>
        exact quiet_state s.db _ (fun st => { st with last_polled_at := _ }) (fun _ => rfl)
      case set_latest_release_tag a tag =>
        exact quiet_state s.db _ (fun st => { st with latest_release_tag := some tag })
          (fun _ => rfl)
      case enrich_seen_metadata a releases =>
        exact ⟨fun x => ⟨digest_enrich s.db o.order a releases, fun _ _ _ => Iff.rfl⟩, rfl⟩
      all_goals first
        | exact Quiet.refl _ _
        | exact False.elim h
    · cases op <;> simp only [exec, stored, hfail]
      all_goals first
        | exact ⟨(), trivial⟩
        | exact ⟨_, rfl⟩
        | exact False.elim h

theorem quiet_of_exec {w : Nat} {β : Type} {op : Call β} {o : Oracle} {s s' : World}
    {r : Except PipelineError β} (h : machine.exec w op o s = (r, s')) (hop : quiet op) :
    Quiet source_id s.db s'.db := by
  have hs : (exec w op o s).2 = s' := congrArg Prod.snd h
  exact hs ▸ (quiet_exec source_id hop).1

section Poll

variable {smooth : Prop} {w : Nat} {s : World} {watch : Watch}

/-- A piece of such calls. -/
theorem safe_quiet {α : Type} {Q : Bool → α → Prop} (smooth : Prop) (source_id : String) {p : Work α}
    (hp : p.Within quiet Q false) :
    (by_itself smooth).Safe machine w
      (fun r s' => Quiet source_id s.db s'.db ∧ (smooth → ∃ b, r = .ok b)) p s := by
  refine safe_within (K := fun (s' : World) => Quiet source_id s.db s'.db) ?_ hp (fun _ => rfl)
    (Quiet.refl source_id s.db)
  intro β op o s₁ hop hok hk
  obtain ⟨hq, hans⟩ := quiet_exec source_id (w := w) (o := o) (s := s₁) hop
  exact ⟨hk.trans hq, fun h => hans (hok h)⟩

theorem quiet_note_latest (source_id : String) (releases : List Release) :
    (note_latest source_id releases).Within quiet (fun _ _ => True) false := by
  unfold note_latest
  split
  · exact within_perform trivial (fun _ => trivial)
  · trivial

theorem quiet_backfill (source_id : String) :
    (backfill_latest_release_tag_if_missing source_id).Within quiet (fun _ _ => True) false := by
  refine within_bind (Q := fun _ _ => True) (within_perform trivial (fun _ => trivial)) ?_
  intro f row _
  split
  · trivial
  · refine within_bind (Q := fun _ _ => True) (within_perform trivial (fun _ => trivial)) ?_
    intro f best _
    split
    · exact within_perform trivial (fun _ => trivial)
    · trivial

/-! ## A full poll -/

/-- The accepted releases of one identity have one content. -/
def OneContent (watch : Watch) (answer : FetchOutcome) : Prop :=
  ∀ r ∈ accepted watch answer, ∀ r' ∈ accepted watch answer, r.id = r'.id →
    r.content_fingerprint = r'.content_fingerprint

/-- The releases that a source already known delivers. -/
abbrev deliverable (watch : Watch) (answer : FetchOutcome) (db : Db) : List Release :=
  sort_for_delivery ((accepted watch answer).filter (fun r =>
    should_deliver_cached r watch.filter.exclude_updated (load_seen_index db watch.provider.id)))

variable {answer : FetchOutcome} {db db' : Db} {r : Release}

theorem mem_deliverable :
    r ∈ deliverable watch answer db ↔ r ∈ accepted watch answer ∧
      should_deliver_cached r watch.filter.exclude_updated
        (load_seen_index db watch.provider.id) = true := by
  rw [deliverable, mem_sort_for_delivery, List.mem_filter]

/-- The source is known, and what is left to deliver of the answer no enqueue would touch. -/
def AtRest (watch : Watch) (answer : FetchOutcome) (db : Db) : Prop :=
  is_initialized db watch.provider.id = true ∧
    ∀ r ∈ deliverable watch answer db, Mute db watch.provider.id r.id r.content_fingerprint

/-- What a list of fetched releases leaves on record. -/
structure Polled (smooth : Prop) (watch : Watch) (answer : FetchOutcome) (db : Db)
    (r : Except PipelineError Nat) (db' : Db) : Prop where
  kept : ∀ x, OnRecord watch answer db x → OnRecord watch answer db' x
  settled : smooth → ∀ r ∈ accepted watch answer, Settles watch db r.id →
    OnRecord watch answer db' r.id
  unsettled : OneRow db → ∀ x, ¬ Settles watch db x → OnRecord watch answer db' x →
    OnRecord watch answer db x
  rests : ∀ n, r = .ok n → watch.filter.exclude_updated = true ∨ OneContent watch answer →
    AtRest watch answer db'

/-- Where a store failure has ended the poll before it recorded anything. -/
theorem polled_cut (e : PipelineError) (h : Quiet watch.provider.id db db') (hno : ¬ smooth) :
    Polled smooth watch answer db (.error e) db' :=
  ⟨fun x hx => (h.untouched x).still_recorded hx, fun hsm => absurd hsm hno,
    fun _ x _ hx => (h.untouched x).symm.still_recorded hx, fun _ h => absurd h (by simp)⟩

theorem Quiet.parent {source_id : String} (h : Quiet source_id db db') (j : Nat) :
    db'.parent j = db.parent j := by
  apply Option.ext
  intro r
  exact (h.untouched r.identity).rows j r rfl

theorem Quiet.oneRow {source_id : String} (h : Quiet source_id db db') (hone : OneRow db) :
    OneRow db' := by
  intro i j r r' hr hr'
  rw [h.parent] at hr hr'
  exact hone i j r r' hr hr'

theorem Quiet.settles (h : Quiet watch.provider.id db db') (x : String) :
    Settles watch db' x ↔ Settles watch db x := by
  have hdead : DeadRow db' watch.provider.id x ↔ DeadRow db watch.provider.id x :=
    ⟨(h.untouched x).symm.deadRow, (h.untouched x).deadRow⟩
  have hseen : (db'.seen watch.provider.id x).isSome = (db.seen watch.provider.id x).isSome := by
    simpa using congrArg Option.isSome (h.untouched x).seen
  unfold Settles
  rw [h.contact, hdead, hseen]

/-- What decides a delivery reads nothing of a release but its id and its content. -/
theorem should_deliver_congr (h : (db'.seen watch.provider.id r.id).map (·.content_digest) =
      (db.seen watch.provider.id r.id).map (·.content_digest)) :
    should_deliver_cached r watch.filter.exclude_updated (load_seen_index db' watch.provider.id) =
      should_deliver_cached r watch.filter.exclude_updated
        (load_seen_index db watch.provider.id) := by
  unfold should_deliver_cached load_seen_index
  rw [h]

theorem Quiet.deliverable (h : Quiet watch.provider.id db db') :
    r ∈ deliverable watch answer db' ↔ r ∈ deliverable watch answer db := by
  rw [mem_deliverable, mem_deliverable, should_deliver_congr (h.untouched r.id).seen]

theorem AtRest.quiet (hq : Quiet watch.provider.id db db') (h : AtRest watch answer db) :
    AtRest watch answer db' :=
  ⟨hq.contact.trans h.1, fun r hr => (hq.untouched r.id).mute (h.2 r (hq.deliverable.mp hr))⟩

theorem Polled.after {db₁ : Db} {r : Except PipelineError Nat} (hq : Quiet watch.provider.id db db₁)
    (h : Polled smooth watch answer db₁ r db') :
    Polled smooth watch answer db r db' := by
  refine ⟨?_, ?_, ?_, h.rests⟩
  · intro x hx
    exact h.kept x ((hq.untouched x).still_recorded hx)
  · intro hsm r hr hset
    exact h.settled hsm r hr ((hq.settles r.id).mpr hset)
  · intro hone x hset hx
    refine (hq.untouched x).symm.still_recorded (h.unsettled (hq.oneRow hone) x ?_ hx)
    exact fun hset' => hset ((hq.settles x).mp hset')

theorem Polled.before {db₁ : Db} {r r' : Except PipelineError Nat}
    (h : Polled smooth watch answer db r db₁) (hq : Quiet watch.provider.id db₁ db')
    (hr : ∀ n, r' = .ok n → ∃ m, r = .ok m) : Polled smooth watch answer db r' db' := by
  refine ⟨?_, ?_, ?_, ?_⟩
  · intro x hx
    exact (hq.untouched x).still_recorded (h.kept x hx)
  · intro hsm r hr hset
    exact (hq.untouched r.id).still_recorded (h.settled hsm r hr hset)
  · intro hone x hset hx
    exact h.unsettled hone x hset ((hq.untouched x).symm.still_recorded hx)
  · intro n hn hcond
    obtain ⟨m, hm⟩ := hr n hn
    exact (h.rests m hm hcond).quiet hq

theorem initialized_of_batch (db : Db) (now : DateTime) (order : List Nat) (source_id : String)
    (items : List SeenUpsert) :
    is_initialized (record_seen_batch db now order source_id items) source_id = true := by
  have hmark : ∀ db', is_initialized (mark_initialized db' now source_id) source_id = true := by
    intro db'
    simp only [is_initialized, mark_initialized, upsert_state, Table.get_upsert, if_true]
    cases db'.source_state.get source_id <;> rfl
  unfold record_seen_batch
  split
  · exact hmark db
  · exact hmark _

/-- A release whose identity is seen with its content, or seen where updates are ignored, is not
delivered again. -/
theorem not_deliverable_of_marked {r' : Release}
    (hcond : watch.filter.exclude_updated = true ∨ OneContent watch answer)
    (hr : r ∈ accepted watch answer) (hr' : r' ∈ accepted watch answer) (hid : r'.id = r.id)
    (hm : Marked db watch.provider.id r.id r'.content_fingerprint) :
    r ∉ deliverable watch answer db := by
  intro hdel
  have hshould := (mem_deliverable.mp hdel).2
  unfold should_deliver_cached load_seen_index at hshould
  rw [hm] at hshould
  rcases hcond with hex | hone
  · simp [hex] at hshould
  · rw [hone r' hr' r hr hid] at hshould
    simp at hshould

/-- First contact: the whole list becomes the baseline. -/
theorem polled_baseline (smooth : Prop) (answer : FetchOutcome) (now : DateTime) (order : List Nat)
    (hfirst : is_initialized db watch.provider.id = false) :
    Polled smooth watch answer db (.ok 0)
      (record_seen_batch db now order watch.provider.id
        ((accepted watch answer).map baseline_item)) := by
  have hall : ∀ x, ∀ item ∈ (accepted watch answer).map baseline_item, item.identity = x →
      Among (contents (accepted watch answer) x) item.content_digest := by
    intro x item hitem hid
    obtain ⟨r, hr, rfl⟩ := List.mem_map.mp hitem
    exact ⟨r.content_fingerprint, rfl, r, hr, hid, rfl⟩
  refine ⟨?_, ?_, ?_, ?_⟩
  · intro x hx
    exact recorded_batch now order (fun _ => hall x) hx
  · intro _ r hr _
    exact recorded_of_batch db now order (baseline_item r) (List.mem_map_of_mem hr) (hall r.id)
  · intro _ x hset
    exact absurd (Or.inl hfirst) hset
  · intro _ _ hcond
    refine ⟨initialized_of_batch db now order _ _, ?_⟩
    intro r hdel
    have hr := (mem_deliverable.mp hdel).1
    obtain ⟨item, hitem, hid, hd⟩ := seen_batch db now order watch.provider.id
      (List.mem_map_of_mem (f := baseline_item) hr)
    obtain ⟨r', hr', rfl⟩ := List.mem_map.mp hitem
    exact absurd hdel (not_deliverable_of_marked hcond hr hr' hid hd)

/-- A release that is not to be delivered is seen with its content, or its updates are ignored. -/
theorem seen_of_not_deliverable (h : should_deliver_cached r watch.filter.exclude_updated
      (load_seen_index db watch.provider.id) = false) :
    (watch.filter.exclude_updated = true ∧ (db.seen watch.provider.id r.id).isSome) ∨
      Marked db watch.provider.id r.id r.content_fingerprint := by
  unfold should_deliver_cached load_seen_index at h
  cases hk : db.seen watch.provider.id r.id with
  | none => simp [hk] at h
  | some k =>
    rw [hk] at h
    cases hex : watch.filter.exclude_updated with
    | true => exact Or.inl ⟨rfl, rfl⟩
    | false =>
      right
      unfold Marked
      rw [hk]
      simpa [hex] using h

/-- Nor is one that is only seen, where updates are ignored. -/
theorem not_deliverable_of_seen (hex : watch.filter.exclude_updated = true)
    (hseen : (db.seen watch.provider.id r.id).isSome) : r ∉ deliverable watch answer db := by
  intro hdel
  have hshould := (mem_deliverable.mp hdel).2
  obtain ⟨k, hk⟩ := Option.isSome_iff_exists.mp hseen
  unfold should_deliver_cached load_seen_index at hshould
  simp [hk, hex] at hshould

/-- After a list that was delivered to its end, nothing of it is left but what no enqueue would
touch. -/
theorem rests_steady {n : Nat} (hknown : is_initialized db' watch.provider.id = true)
    (h : HandledAll smooth watch.provider.id (deliverable watch answer db) db (.ok n) db')
    (hcond : watch.filter.exclude_updated = true ∨ OneContent watch answer) :
    AtRest watch answer db' := by
  refine ⟨hknown, ?_⟩
  intro r hdel
  have hr := (mem_deliverable.mp hdel).1
  by_cases hbefore : r ∈ deliverable watch answer db
  · rcases h.answered n rfl r hbefore with ⟨r', hr', hid, hm⟩ | ⟨hun, hmute⟩
    · have hr'' := (mem_deliverable.mp hr').1
      exact absurd hdel (not_deliverable_of_marked hcond hr hr'' hid hm)
    · exact hun.mute hmute
  · -- it was seen before, and still is
    exfalso
    have hshould : should_deliver_cached r watch.filter.exclude_updated
        (load_seen_index db watch.provider.id) = false := by
      cases hs : should_deliver_cached r watch.filter.exclude_updated
        (load_seen_index db watch.provider.id) with
      | false => rfl
      | true => exact absurd (mem_deliverable.mpr ⟨hr, hs⟩) hbefore
    rcases h.marks r.id with hsame | ⟨r', hr', hid, hm⟩
    · rcases seen_of_not_deliverable hshould with ⟨hex, hseen⟩ | hm
      · refine not_deliverable_of_seen hex ?_ hdel
        have hsome := congrArg Option.isSome hsame
        simp only [Option.isSome_map] at hsome
        exact hsome.trans hseen
      · exact not_deliverable_of_marked hcond hr hr rfl (hsame.trans hm) hdel
    · exact not_deliverable_of_marked hcond hr (mem_deliverable.mp hr').1 hid hm hdel

theorem polled_steady {r : Except PipelineError Nat}
    (hknown : is_initialized db watch.provider.id = true)
    (hknown' : is_initialized db' watch.provider.id = true)
    (h : HandledAll smooth watch.provider.id (deliverable watch answer db) db r db') :
    Polled smooth watch answer db r db' := by
  have hin : ∀ x, ∀ r ∈ deliverable watch answer db, r.id = x →
      contents (accepted watch answer) x r.content_fingerprint :=
    fun x r hr hid => ⟨r, (mem_deliverable.mp hr).1, hid, rfl⟩
  refine ⟨?_, ?_, ?_, ?_⟩
  · intro x hx
    exact h.kept x _ (hin x) hx
  · intro hsm r hr hset
    obtain ⟨hdead, hex⟩ := hset.resolve_left (by simp [hknown])
    cases hdel : should_deliver_cached r watch.filter.exclude_updated
        (load_seen_index db watch.provider.id) with
    | true =>
      have hmem : r ∈ deliverable watch answer db := mem_deliverable.mpr ⟨hr, hdel⟩
      exact (h.on_record hsm r.id _ (hin r.id) ⟨r, hmem, rfl⟩).resolve_right hdead
    | false =>
      have hm := (seen_of_not_deliverable hdel).resolve_left hex
      obtain ⟨k, hk, hd⟩ := Option.map_eq_some_iff.mp hm
      exact h.kept r.id _ (hin r.id) (Or.inl ⟨k, hk, _, hd, r, hr, rfl, rfl⟩)
  · intro hone x hset hx
    refine (h.untouched x ?_).symm.still_recorded hx
    by_cases hdead : DeadRow db watch.provider.id x
    · exact Or.inr (allDead_of_oneRow hone hdead)
    · left
      rintro r hr rfl
      -- the identity is seen and its updates are ignored, so it is not in the list
      have hex : watch.filter.exclude_updated = true ∧
          (db.seen watch.provider.id r.id).isSome := by
        by_contra hno
        exact hset (Or.inr ⟨hdead, hno⟩)
      exact not_deliverable_of_seen hex.1 hex.2 hr
  · intro n hn hcond
    subst hn
    exact rests_steady hknown' h hcond

/-- No call makes a source unknown again. -/
theorem initialized_stays {source_id : String} {β : Type} {op : Call β} {o : Oracle}
    (h : is_initialized s.db source_id = true) :
    is_initialized (exec w op o s).2.db source_id = true := by
  by_cases hb : baseline.baselines op = some source_id
  · cases hfail : o.fails with
    | some e => rwa [failed_exec hfail]
    | none =>
      cases op <;> simp only [baseline.baselines, reduceCtorEq, Option.some.injEq] at hb
      case record_seen_batch a items =>
        simp only [exec, stored, hfail, hb]
        exact initialized_of_batch s.db _ o.order source_id items
  · rwa [baseline.initialized_same hb]

theorem safe_deliver_new_releases (answer : FetchOutcome) :
    (by_itself smooth).Safe machine w
      (fun r s' => Polled smooth watch answer s.db r s'.db)
      (deliver_new_releases watch answer.releases) s := by
  have hcut : ∀ {β : Type} {r : Except PipelineError β} {e : PipelineError} {db : Db},
      (smooth → ∃ b, r = .ok b) → r = .error e → Quiet watch.provider.id s.db db →
      Polled smooth watch answer s.db (.error e) db := by
    rintro β _ e db hok rfl hq
    refine polled_cut e hq (fun hsm => ?_)
    obtain ⟨_, hb⟩ := hok hsm
    exact absurd hb (by simp)
  refine safe_bind (safe_mono (safe_quiet smooth watch.provider.id
    (quiet_note_latest watch.provider.id (accepted watch answer))) ?_)
  rintro r s₁ ⟨hq₁, hok₁⟩
  cases r with
  | error e => exact hcut hok₁ rfl hq₁
  | ok _ =>
  refine safe_bind (safe_mono (safe_quiet smooth watch.provider.id (within_perform
    (Q := fun _ _ => True) (f := false) trivial (fun _ => trivial))) ?_)
  rintro r s₂ ⟨hq₂, hok₂⟩
  have hq := hq₁.trans hq₂
  cases r with
  | error e => exact hcut hok₂ rfl hq
  | ok _ =>
  refine safe_bind (safe_solo_bind ?_ ?_)
  · intro o initialized s₃ _ h₃
    obtain ⟨_, heq⟩ := stored_ok h₃
    obtain ⟨hinit, rfl⟩ := Prod.mk.inj heq
    cases initialized with
    | false =>
      refine safe_solo_bind ?_ ?_
      · intro o₄ _ s₄ _ h₄
        obtain ⟨_, heq₄⟩ := stored_ok h₄
        obtain ⟨_, rfl⟩ := Prod.mk.inj heq₄
        have hbase := polled_baseline smooth answer ((s₂.tick o).tick o₄).now o₄.order hinit
        refine safe_bind (safe_mono (safe_quiet smooth watch.provider.id
          (quiet_note_latest watch.provider.id (accepted watch answer))) ?_)
        rintro r s₅ ⟨hq₅, _⟩
        cases r with
        | error e => exact (hbase.before hq₅ (fun _ h => absurd h (by simp))).after hq
        | ok _ => exact (hbase.before hq₅ (fun _ _ => ⟨0, rfl⟩)).after hq
      · intro o₄ e s₄ hok₄ h₄
        obtain ⟨hfail, rfl⟩ := stored_error h₄
        exact polled_cut e hq (fun hsm => hfail (hok₄ hsm))
    | true =>
      refine safe_solo_bind ?_ ?_
      · intro o₄ _ s₄ _ h₄
        obtain ⟨_, heq₄⟩ := stored_ok h₄
        obtain ⟨rfl, rfl⟩ := Prod.mk.inj heq₄
        change (by_itself smooth).Safe machine w _
          (deliver_each watch (deliverable watch answer s₂.db) 0) _
        refine safe_mono (safe_also (fun (t : World) => is_initialized t.db watch.provider.id = true)
          (fun _ _ _ h => initialized_stays h) (safe_deliver_each _ 0) hinit) ?_
        rintro r s' ⟨hall, hstays⟩
        exact (polled_steady hinit hstays hall).after hq
      · intro o₄ e s₄ hok₄ h₄
        obtain ⟨hfail, rfl⟩ := stored_error h₄
        exact polled_cut e hq (fun hsm => hfail (hok₄ hsm))
  · intro o e s₃ hok₃ h₃
    obtain ⟨hfail, rfl⟩ := stored_error h₃
    exact polled_cut e hq (fun hsm => hfail (hok₃ hsm))

end Poll

end xrelease.polled
