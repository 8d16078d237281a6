-- The law of the silent baseline: where no push takes it away from them, the polls of a source
-- record what they find until one of them has taken the baseline, whatever else is running.
import Xrelease.Delivered

namespace xrelease.baseline

open xrelease.model xrelease.store xrelease.engine xrelease.outbox xrelease.pipeline
open xrelease.delivered xrelease.pieces keyed calls calls.Prog calls.Terms

/-! ## Who took the baseline -/

/-- The job is a poll of the source. -/
def polls (job : Job) (source_id : String) : Prop :=
  match job with
  | .poll watch _ => watch.provider.id = source_id
  | _ => False

/-- Whose note it is. -/
def by_whom : Note → Nat
  | .asked w _ _ => w
  | .baselined w _ => w
  | .enqueued w _ _ => w

/-- The source of which a call takes the baseline. -/
def baselines {β : Type} (op : Call β) : Option String :=
  match op with
  | .record_seen_batch source_id _ => some source_id
  | _ => none

/-- Calls that put a release into the outbox or take one to a sink. -/
def delivers {β : Type} (op : Call β) : Bool :=
  match op with
  | .insert_outbox _ _ _ | .reopen_outbox _ _ _ | .claim_outbox_row _ _
  | .claim_outbox_batch _ _ | .notify _ _ _ _ => true
  | _ => false

/-- Worker `v` took the baseline of the source before worker `w` noted anything. -/
def BaselinedBefore (notes : List Note) (v w : Nat) (source_id : String) : Prop :=
  ∃ before after, notes = before ++ after ∧ .baselined v source_id ∈ before ∧
    ∀ n ∈ before, by_whom n ≠ w

/-- A poll that delivers has the baseline of another poll of the same source before it. -/
def OnlyLaterPollsDeliver (jobs : Nat → Job) {β : Type} (w : Nat) (op : Call β) (s : World) :
    Prop :=
  delivers op = true → ∀ source_id, polls (jobs w) source_id →
    ∃ v, polls (jobs v) source_id ∧ BaselinedBefore s.book.notes v w source_id

/-- What is no poll of a source records a baseline only where the source has one. -/
def PollsComeFirst (jobs : Nat → Job) {β : Type} (w : Nat) (op : Call β) (o : Oracle) (s : World) :
    Prop :=
  ∀ source_id ∈ baselines op, o.fails = none →
    polls (jobs w) source_id ∨ is_initialized s.db source_id = true

/-! ## The invariant -/

/-- The notes grow by notes of others. -/
def Overheard (w : Nat) (s s' : World) : Prop :=
  ∃ l, s'.book.notes = s.book.notes ++ l ∧ ∀ n ∈ l, by_whom n ≠ w

variable {jobs : Nat → Job} {w v : Nat} {s s' s₁ s₂ : World}

theorem Overheard.refl (w : Nat) (s : World) : Overheard w s s :=
  ⟨[], by simp, fun _ h => absurd h List.not_mem_nil⟩

theorem Overheard.trans (h : Overheard w s₁ s₂) (h' : Overheard w s₂ s) : Overheard w s₁ s := by
  obtain ⟨l, hl, hw⟩ := h
  obtain ⟨l', hl', hw'⟩ := h'
  refine ⟨l ++ l', by rw [hl', hl, List.append_assoc], ?_⟩
  intro n hn
  rcases List.mem_append.mp hn with hn | hn
  · exact hw n hn
  · exact hw' n hn

theorem baselinedBefore_append {notes : List Note} {source_id : String}
    (h : BaselinedBefore notes v w source_id) (l : List Note) :
    BaselinedBefore (notes ++ l) v w source_id := by
  obtain ⟨before, after, hn, hrest⟩ := h
  exact ⟨before, after ++ l, by rw [hn, List.append_assoc], hrest⟩

/-! ## What a call notes -/

/-- A call notes only what its own worker does. -/
theorem notes_exec {β : Type} (w : Nat) (op : Call β) (o : Oracle) (s : World) :
    ∃ l, (exec w op o s).2.book.notes = s.book.notes ++ l ∧ ∀ n ∈ l, by_whom n = w := by
  have none_ : ∀ {s' : World}, s'.book.notes = s.book.notes →
      ∃ l, s'.book.notes = s.book.notes ++ l ∧ ∀ n ∈ l, by_whom n = w :=
    fun h => ⟨[], by simp [h], fun _ h => absurd h List.not_mem_nil⟩
  have one : ∀ {s' : World} {n : Note}, s'.book.notes = s.book.notes ++ [n] → by_whom n = w →
      ∃ l, s'.book.notes = s.book.notes ++ l ∧ ∀ n ∈ l, by_whom n = w := by
    intro s' n h hn
    refine ⟨[n], h, ?_⟩
    intro m hm
    rw [List.mem_singleton.mp hm]
    exact hn
  cases hfail : o.fails <;> cases op <;> simp only [exec, stored, hfail]
  all_goals first
    | exact none_ rfl
    | exact one rfl rfl
    | (split <;> first | exact none_ rfl | exact one rfl rfl)

theorem initialized_upsert {db : Db} {now : DateTime} {a : String}
    (set : SourceState → SourceState) (hset : ∀ st, (set st).initialized = st.initialized)
    (b : String) : is_initialized (upsert_state db now a set) b = is_initialized db b := by
  unfold is_initialized upsert_state
  rw [Table.get_upsert]
  split
  · rename_i ha
    subst ha
    cases db.source_state.get b with
    | none => exact hset _
    | some st => exact hset st
  · rfl

theorem state_foldl_write (db : Db) (now : DateTime) (source_id : String)
    (items : List SeenUpsert) :
    (items.foldl (fun db item => write_seen_row db now source_id item) db).source_state =
      db.source_state := by
  induction items generalizing db with
  | nil => rfl
  | cons item rest ih => exact ih (write_seen_row db now source_id item)

theorem initialized_batch {db : Db} {now : DateTime} {order : List Nat} {a b : String}
    {items : List SeenUpsert} (hb : b ≠ a) :
    is_initialized (record_seen_batch db now order a items) b = is_initialized db b := by
  have hmark : ∀ db', is_initialized (mark_initialized db' now a) b = is_initialized db' b := by
    intro db'
    simp [is_initialized, mark_initialized, upsert_state, hb]
  unfold record_seen_batch
  split
  · exact hmark db
  · rw [hmark]
    unfold is_initialized
    rw [state_foldl_write]

/-- A call makes no source known or unknown but the one it takes the baseline of. -/
theorem initialized_same {β : Type} {w : Nat} {op : Call β} {o : Oracle} {source_id : String}
    (h : baselines op ≠ some source_id) :
    is_initialized (exec w op o s).2.db source_id = is_initialized s.db source_id := by
  cases hfail : o.fails with
  | some e => rw [failed_exec hfail]
  | none =>
    cases hstate : writes_state op with
    | false =>
      unfold is_initialized
      rw [state_exec hstate]
    | true =>
      cases op <;> simp only [exec, stored, hfail]
      case touch_polled a =>
        exact initialized_upsert (fun st => { st with last_polled_at := some (s.tick o).now })
          (fun _ => rfl) source_id
      case set_latest_release_tag a tag =>
        exact initialized_upsert (fun st => { st with latest_release_tag := some tag })
          (fun _ => rfl) source_id
      case set_etag a etag =>
        exact initialized_upsert (fun st => { st with etag := etag }) (fun _ => rfl) source_id
      case record_seen_batch a items =>
        exact initialized_batch (fun he => h (congrArg some he.symm))
      all_goals cases hstate

/-- A call initializes no source but the one it takes the baseline of. -/
theorem initialized_exec {β : Type} {w : Nat} {op : Call β} {o : Oracle} {source_id : String}
    (h : is_initialized (exec w op o s).2.db source_id = true) :
    is_initialized s.db source_id = true ∨
      o.fails = none ∧ baselines op = some source_id ∧
        .baselined w source_id ∈ (exec w op o s).2.book.notes := by
  by_cases hb : baselines op = some source_id
  · cases hfail : o.fails with
    | some e =>
      rw [failed_exec hfail] at h
      exact Or.inl h
    | none =>
      refine Or.inr ⟨rfl, hb, ?_⟩
      cases op <;> simp only [baselines, reduceCtorEq, Option.some.injEq] at hb
      case record_seen_batch a items =>
        simp only [exec, stored, hfail, ← hb]
        exact List.mem_append_right _ (List.mem_singleton_self _)
  · rw [initialized_same hb] at h
    exact Or.inl h

/-! ## The terms -/

/-- A source that is initialized has a poll that took its baseline. -/
def Contacts (jobs : Nat → Job) (s : World) : Prop :=
  ∀ source_id, is_initialized s.db source_id = true →
    ∃ v, polls (jobs v) source_id ∧ .baselined v source_id ∈ s.book.notes

def terms (jobs : Nat → Job) : Terms Call World Oracle Outside where
  Inv := Contacts jobs
  Rely := Overheard
  May := fun w op o s => PollsComeFirst jobs w op o s
  Does := fun w op _ s s' =>
    (∀ v, v ≠ w → Overheard v s s') ∧ OnlyLaterPollsDeliver jobs w op s
  MayOutside := fun _ _ => True

theorem terms_sound (jobs : Nat → Job) : (terms jobs).Sound machine where
  refl := fun w s => Overheard.refl w s
  trans := fun _ _ _ _ h h' => h.trans h'
  others := fun _ v _ _ _ _ hv hd => hd.1 v hv
  outside := by
    rintro ⟨notifiers⟩ s hi _
    exact ⟨hi, fun v => Overheard.refl v s⟩
  leave := fun _ s hi => ⟨hi, fun v _ => Overheard.refl v s⟩

/-- Another poll of the worker's source took the baseline before the worker noted anything. -/
def Later (jobs : Nat → Job) (w : Nat) (s : World) : Prop :=
  ∀ source_id, polls (jobs w) source_id →
    ∃ v, polls (jobs v) source_id ∧ BaselinedBefore s.book.notes v w source_id

theorem contacts_exec {β : Type} {op : Call β} {o : Oracle} (h : Contacts jobs s)
    (hp : PollsComeFirst jobs w op o s) : Contacts jobs (exec w op o s).2 := by
  obtain ⟨l, hl, _⟩ := notes_exec w op o s
  have hold : ∀ source_id, is_initialized s.db source_id = true →
      ∃ v, polls (jobs v) source_id ∧ .baselined v source_id ∈ (exec w op o s).2.book.notes := by
    intro source_id hi
    obtain ⟨v, hv, hn⟩ := h source_id hi
    exact ⟨v, hv, by rw [hl]; exact List.mem_append_left _ hn⟩
  intro source_id hi
  rcases initialized_exec hi with hi | ⟨hfail, hb, hn⟩
  · exact hold source_id hi
  · rcases hp source_id hb hfail with hpoll | hbefore
    · exact ⟨w, hpoll, hn⟩
    · exact hold source_id hbefore

/-! ## The walk of a poll -/

theorem overheard_exec {β : Type} (op : Call β) (o : Oracle) (s : World) (hv : v ≠ w) :
    Overheard v s (exec w op o s).2 := by
  obtain ⟨l, hl, hw⟩ := notes_exec w op o s
  exact ⟨l, hl, fun n hn he => hv (he.symm.trans (hw n hn))⟩

/-- What a worker knows stays true while it and the others go on. -/
theorem later_append {l : List Note} (hl : s'.book.notes = s.book.notes ++ l)
    (h : Later jobs w s) : Later jobs w s' := by
  intro source_id hp
  obtain ⟨v, hv, ha⟩ := h source_id hp
  exact ⟨v, hv, by rw [hl]; exact baselinedBefore_append ha l⟩

/-- Whoever knows of a baseline before its own first note may do anything. -/
theorem safe_later {α : Type} {p : Work α} (hl : Later jobs w s) :
    (terms jobs).Safe machine w (fun _ _ => True) p s := by
  induction p generalizing s with
  | done a => trivial
  | fail e => trivial
  | call op next ih =>
    rintro s₁ ⟨l, hs₁, _⟩ hinv o hmay
    have hl₁ := later_append hs₁ hl
    obtain ⟨l', hs₂, _⟩ := notes_exec w op o s₁
    exact ⟨⟨fun v hv => overheard_exec op o s₁ hv, fun _ => hl₁⟩, contacts_exec hinv hmay,
      ih _ (later_append hs₂ hl₁)⟩

/-- A worker that polls no source may do anything, too. -/
theorem safe_no_poll {α : Type} {p : Work α} (h : ∀ source_id, ¬ polls (jobs w) source_id) :
    (terms jobs).Safe machine w (fun _ _ => True) p s :=
  safe_later (fun source_id hp => absurd hp (h source_id))

/-- The calls that do not matter to a first contact. -/
def minor {β : Type} (op : Call β) : Bool :=
  match op with
  | .is_initialized _ | .record_seen_batch _ _ | .insert_outbox _ _ _ | .reopen_outbox _ _ _
  | .claim_outbox_row _ _ | .claim_outbox_batch _ _ | .notify _ _ _ _ => false
  | _ => true

def matters {γ : Type} (op : Call γ) : Prop := minor op = false

theorem notes_of_minor {β : Type} {op : Call β} (h : minor op = true) (w : Nat) (o : Oracle)
    (s : World) : (exec w op o s).2.book.notes = s.book.notes := by
  cases hfail : o.fails <;> cases op <;> simp only [exec, stored, hfail]
  all_goals first
    | rfl
    | (split <;> rfl)
    | exact absurd h (by simp [minor])

theorem not_delivers_of_minor {β : Type} {op : Call β} (h : minor op = true) :
    delivers op = false := by
  cases op <;> trivial

theorem safe_minor {α : Type} {p : Work α} (hp : p.Never matters) :
    (terms jobs).Safe machine w (fun _ s' => Overheard w s s') p s := by
  suffices h : ∀ s₀, Overheard w s₀ s →
      (terms jobs).Safe machine w (fun _ s' => Overheard w s₀ s') p s from
    h s (Overheard.refl w s)
  induction p generalizing s with
  | done a => exact fun _ h => h
  | fail e => exact fun _ h => h
  | call op next ih =>
    intro s₀ h₀ s₁ hrely hinv o hmay
    have hminor : minor op = true := by simpa [matters] using hp.1
    have hkeep : Overheard w s₁ (exec w op o s₁).2 :=
      ⟨[], by simp [notes_of_minor hminor], fun _ h => absurd h List.not_mem_nil⟩
    refine ⟨⟨fun v hv => overheard_exec op o s₁ hv, ?_⟩, contacts_exec hinv hmay,
      ih _ (hp.2 _) s₀ ((h₀.trans hrely).trans hkeep)⟩
    intro hd
    rw [not_delivers_of_minor hminor] at hd
    exact absurd hd (by simp)

theorem minor_of_fetches {γ : Type} (op : Call γ) (h : fetches op) : ¬ matters op := by
  cases op <;> first | exact h.elim | simp [matters, minor]

theorem minor_of_backfills {γ : Type} (op : Call γ) (h : backfills op) : ¬ matters op := by
  cases op <;> first | exact h.elim | simp [matters, minor]

theorem minor_note_latest (source_id : String) (releases : List Release) :
    (note_latest source_id releases).Never matters :=
  keeps_note_latest compositional_never (fun _ _ => minor_of_backfills _ trivial)

/-- The worker has noted nothing yet. -/
def Silent (w : Nat) (s : World) : Prop := ∀ n ∈ s.book.notes, by_whom n ≠ w

theorem Silent.overheard (h : Silent w s) (ho : Overheard w s s') : Silent w s' := by
  obtain ⟨l, hl, hw⟩ := ho
  intro n hn
  rw [hl] at hn
  rcases List.mem_append.mp hn with hn | hn
  · exact h n hn
  · exact hw n hn

/-- The first contact: a poll that is told `true` knows of a poll before its own, and one that is
told `false` has nothing to deliver. -/
theorem safe_select {source_id : String} (releases : List Release) (exclude_updated : Bool)
    (hjob : ∀ a, polls (jobs w) a → a = source_id) (h : Silent w s) :
    (terms jobs).Safe machine w
      (fun r s' => ∀ l, r = .ok l → l = [] ∨ Later jobs w s')
      (select_for_delivery source_id releases exclude_updated) s := by
  apply safe_bind
  apply safe_perform
  intro s₁ hrely hinv o hmay
  have h₁ : Silent w s₁ := h.overheard hrely
  refine ⟨⟨fun v hv => overheard_exec _ o s₁ hv, fun hd => absurd hd (by simp [delivers])⟩,
    contacts_exec hinv hmay, ?_⟩
  cases hfail : o.fails with
  | some e =>
    simp only [machine, exec, stored, hfail]
    exact fun _ hl => absurd hl (by simp)
  | none =>
    simp only [machine, exec, stored, hfail]
    set s₂ := (s₁.tick o).note (.asked w source_id (is_initialized (s₁.tick o).db source_id))
    have hnotes : s₂.book.notes = s₁.book.notes ++
        [.asked w source_id (is_initialized (s₁.tick o).db source_id)] := rfl
    cases hinit : is_initialized (s₁.tick o).db source_id with
    | false =>
      apply safe_bind
      apply safe_perform
      intro s₃ _ hinv₃ o₃ hmay₃
      refine ⟨⟨fun v hv => overheard_exec _ o₃ s₃ hv, fun hd => absurd hd (by simp [delivers])⟩,
        contacts_exec hinv₃ hmay₃, ?_⟩
      cases (exec w (.record_seen_batch source_id (releases.map baseline_item)) o₃ s₃).1 with
      | error e => exact fun _ hl => absurd hl (by simp)
      | ok _ =>
        apply safe_bind
        refine safe_mono (safe_minor (minor_note_latest source_id releases)) ?_
        intro r s₄ _
        cases r with
        | error e => exact fun _ hl => absurd hl (by simp)
        | ok _ => exact fun l hl => Or.inl (Except.ok.inj hl).symm
    | true =>
      have hlater : Later jobs w s₂ := by
        intro a ha
        obtain ⟨v, hv, hn⟩ := hinv source_id hinit
        rw [hjob a ha]
        exact ⟨v, hv, s₁.book.notes, _, hnotes, hn, h₁⟩
      refine safe_bind (safe_perform ?_)
      intro s₃ hrely₃ hinv₃ o₃ hmay₃
      obtain ⟨l, hl, _⟩ := hrely₃
      have hlater₃ := later_append hl hlater
      obtain ⟨l', hl', _⟩ := notes_exec w (.load_seen_index source_id) o₃ s₃
      refine ⟨⟨fun v hv => overheard_exec _ o₃ s₃ hv, fun _ => hlater₃⟩,
        contacts_exec hinv₃ hmay₃, ?_⟩
      cases (exec w (.load_seen_index source_id) o₃ s₃).1 with
      | error e => exact fun _ hl => absurd hl (by simp)
      | ok _ => exact fun _ _ => Or.inr (later_append hl' hlater₃)

theorem safe_deliver_new_releases {watch : Watch} (releases : List Release)
    (hjob : ∀ a, polls (jobs w) a → a = watch.provider.id) (h : Silent w s) :
    (terms jobs).Safe machine w (fun _ _ => True) (deliver_new_releases watch releases) s := by
  apply safe_bind
  refine safe_mono (safe_minor (minor_note_latest _ _)) ?_
  intro r s₁ h₁
  cases r with
  | error e => trivial
  | ok _ =>
    apply safe_bind
    refine safe_mono (safe_minor (never_perform (by simp [matters, minor]))) ?_
    intro r s₂ h₂
    cases r with
    | error e => trivial
    | ok _ =>
      apply safe_bind
      refine safe_mono (safe_select _ _ hjob ((h.overheard h₁).overheard h₂)) ?_
      intro r s₃ h₃
      cases r with
      | error e => trivial
      | ok deliverable =>
        rcases h₃ deliverable rfl with rfl | hl
        · trivial
        · exact safe_later hl

theorem safe_poll {watch : Watch} (force_fetch : Bool)
    (hjob : ∀ a, polls (jobs w) a → a = watch.provider.id) (h : Silent w s) :
    (terms jobs).Safe machine w (fun _ _ => True) (poll_once_inner watch force_fetch) s := by
  apply safe_bind
  refine safe_mono (safe_minor (keeps_stored_etag compositional_never minor_of_fetches _ _)) ?_
  intro r s₁ h₁
  cases r with
  | error e => trivial
  | ok etag =>
    apply safe_bind
    refine safe_mono (safe_minor (keeps_fetch_or_touch compositional_never minor_of_fetches
      _ _)) ?_
    intro r s₂ h₂
    cases r with
    | error e => trivial
    | ok outcome =>
      apply safe_bind
      refine safe_mono (safe_minor (never_perform (by simp [matters, minor]))) ?_
      intro r s₃ h₃
      have hs₃ := (h₁.trans h₂).trans h₃
      cases r with
      | error e => trivial
      | ok _ =>
        dsimp only
        split
        · refine safe_mono (safe_minor (never_bind (keeps_poll_not_modified
            compositional_never minor_of_fetches minor_of_backfills watch force_fetch)
            (fun _ => trivial))) ?_
          exact fun _ _ _ => trivial
        · apply safe_bind
          refine safe_mono (safe_minor (keeps_store_etag compositional_never
            minor_of_fetches _ _)) ?_
          intro r s₄ h₄
          cases r with
          | error e => trivial
          | ok _ => exact safe_deliver_new_releases _ hjob (h.overheard (hs₃.trans h₄))

/-- Every job starts with nothing noted. -/
theorem safe_work (h : Silent w s) :
    (terms jobs).Safe machine w (fun _ _ => True) (jobs w).work s := by
  cases hj : jobs w with
  | poll watch force_fetch =>
    apply safe_bind
    refine safe_mono (safe_poll force_fetch ?_ h) ?_
    · intro a ha
      rw [hj] at ha
      exact ha.symm
    · intro r _ _
      cases r <;> trivial
  | push watches release => exact safe_no_poll (fun _ hp => by rw [hj] at hp; exact hp)
  | flush limit => exact safe_no_poll (fun _ hp => by rw [hj] at hp; exact hp)
  | sweep => exact safe_no_poll (fun _ hp => by rw [hj] at hp; exact hp)
  | requeue => exact safe_no_poll (fun _ hp => by rw [hj] at hp; exact hp)
  | idle => exact safe_no_poll (fun _ hp => by rw [hj] at hp; exact hp)

/-! ## The law -/

/-- The runs in which the first baseline of every source that is polled is that of a poll. -/
def FirstContactIsPoll (jobs : Nat → Job) : Workers → Move Oracle Outside → Prop :=
  onCalls (fun w op o s => PollsComeFirst jobs w op o s)

/-- In every such run, a poll delivers only where another poll of its source took the baseline
before it. -/
theorem the_first_poll_only_records (jobs : Nat → Job) (now : DateTime) (notifiers : Notifier)
    (moves : List (Move Oracle Outside))
    (h : Along machine (FirstContactIsPoll jobs) (fresh jobs now notifiers) moves) :
    Along machine (onCalls (fun w op _ s => OnlyLaterPollsDeliver jobs w op s))
      (fresh jobs now notifiers) moves := by
  have hpermits : ∀ p m, FirstContactIsPoll jobs p m → (terms jobs).Permits p m := by
    intro p m hm
    cases m with
    | work w o => exact hm
    | crash w => trivial
    | outside e => trivial
  have hgood : (terms jobs).Good machine (fresh jobs now notifiers) := by
    refine ⟨?_, fun w => safe_work ?_⟩
    · intro source_id hi
      simp [fresh, starting, World.start, is_initialized, Db.empty] at hi
    · exact fun n hn => absurd hn List.not_mem_nil
  refine along_good ((terms jobs).Good machine) ?_ hgood (along_mono hpermits h)
  intro p m hg hm
  refine ⟨good_step (terms_sound jobs) hg hm, ?_⟩
  cases m with
  | crash w => trivial
  | outside e => trivial
  | work w o =>
    simp only [onCalls]
    split
    · rename_i op next hw
      simp only [Permits, hw] at hm
      exact (does_step (terms_sound jobs) hg hw hm).2
    · trivial
    · trivial

/-! ## A push before the first poll -/

/-- Worker 0 gets a push of the newest release, worker 1 is the first poll. -/
def push_then_poll : Nat → Job
  | 0 => .push [watch] (Release.new "v2")
  | 1 => .poll watch false
  | _ => .idle

/-- The upstream list of that poll. -/
def two_releases : Oracle :=
  { fetch := .ok ⟨false, none, [Release.new "v1", Release.new "v2"]⟩ }

/-- The push takes the baseline of one release; the poll reads a list of two. -/
def push_wins : List (Move Oracle Outside) :=
  turns 0 5 ++ turns 1 1 ++ [.work 1 two_releases] ++ turns 1 6

/-- Whether the next call of a worker delivers. -/
def about_to_deliver (p : Workers) (w : Nat) : Bool :=
  match p.worker w with
  | .call op _ => delivers op
  | _ => false

theorem earlier_poll_of_delivery {p : Workers} {o : Oracle} {source_id : String}
    (hd : about_to_deliver p w = true)
    (h : onCalls (fun w op _ s => OnlyLaterPollsDeliver jobs w op s) p
      (.work w o : Move Oracle Outside)) (hp : polls (jobs w) source_id) :
    ∃ v, polls (jobs v) source_id ∧ BaselinedBefore p.state.book.notes v w source_id := by
  unfold about_to_deliver at hd
  simp only [onCalls] at h
  split at hd
  · rename_i hw
    rw [hw] at h
    exact h hd source_id hp
  · exact absurd hd (by simp)

/-- The first poll enqueues the release that the push did not bring. -/
theorem a_push_makes_the_first_poll_deliver :
    ¬ Along machine (onCalls (fun w op _ s => OnlyLaterPollsDeliver push_then_poll w op s))
      (fresh push_then_poll 0 [hook]) (push_wins ++ turns 1 1) := by
  have hnext : about_to_deliver ((fresh push_then_poll 0 [hook]).run machine push_wins) 1 = true := by
    decide +kernel
  intro h
  obtain ⟨v, hv, before, after, hnotes, hb, hne⟩ :=
    earlier_poll_of_delivery hnext (along_append.mp h).2.1 rfl
  -- worker 1 is the only poll
  have hv1 : v = 1 := by
    match v, hv with
    | 1, _ => rfl
  exact hne _ hb hv1

/-! ## A poll before the push -/

instance (job : Job) (source_id : String) : Decidable (polls job source_id) := by
  unfold polls
  split <;> infer_instance

instance (jobs : Nat → Job) {β : Type} (w : Nat) (op : Call β) (o : Oracle) (s : World) :
    Decidable (PollsComeFirst jobs w op o s) :=
  inferInstanceAs (Decidable (∀ source_id ∈ baselines op, o.fails = none →
    polls (jobs w) source_id ∨ is_initialized s.db source_id = true))

instance (jobs : Nat → Job) (p : Workers) (m : Move Oracle Outside) :
    Decidable (FirstContactIsPoll jobs p m) :=
  inferInstanceAs (Decidable (onCalls (fun w op o s => PollsComeFirst jobs w op o s) p m))

/-- Two polls with pushes between them. -/
def polls_and_pushes : Nat → Job
  | 0 => .poll watch false
  | 1 => .push [watch] (Release.new "v2")
  | 2 => .push [watch] (Release.new "v3")
  | 3 => .poll watch false
  | _ => .idle

/-- The first push has asked before the first poll takes the baseline, and records its release on
top of it; the second push delivers that release. -/
def poll_wins : List (Move Oracle Outside) :=
  turns 1 3 ++ [.work 0 {}, .work 0 { fetch := .ok ⟨false, none, [Release.new "v1"]⟩ }] ++
    turns 0 6 ++ turns 1 2 ++ turns 2 20

/-- The second poll finds one release more, and delivers it. -/
def four_releases : Oracle :=
  { fetch := .ok ⟨false, none, ["v1", "v2", "v3", "v4"].map Release.new⟩ }

theorem the_first_poll_only_records_here :
    Along machine (onCalls (fun w op _ s => OnlyLaterPollsDeliver polls_and_pushes w op s))
      (fresh polls_and_pushes 0 [hook])
      (poll_wins ++ [.work 3 {}, .work 3 four_releases] ++ turns 3 20) :=
  the_first_poll_only_records polls_and_pushes 0 [hook] _ (by decide +kernel)

end xrelease.baseline
