-- The stored latest tag of a source (`set_latest_release_tag`), over polls and pushes of it and
-- whatever else goes on: each list that is taken overwrites it with the newest tag of its own,
-- be it the whole list of a poll or the one release of a push.
import Xrelease.Baseline
import Xrelease.Newest
import Xrelease.Walks

namespace xrelease.tagged

open text compared xrelease.model xrelease.store xrelease.engine xrelease.outbox xrelease.pipeline
open xrelease.pieces xrelease.walks keyed calls calls.Prog calls.Terms

/-! ## The calls that write the tag -/

def latest_tag (s : World) (source_id : String) : Option String :=
  (s.db.source_state.get source_id).bind (·.latest_release_tag)

/-- The source gets another tag. -/
def retags (source_id tag : String) {γ : Type} (op : Call γ) : Prop :=
  match op with
  | .set_latest_release_tag a t => a = source_id ∧ t ≠ tag
  | _ => False

theorem delivers_not_retags {a t : String} {γ : Type} (op : Call γ) (h : delivers op) :
    ¬ retags a t op := by
  cases op <;> first | exact fun h => h | (obtain ⟨_, _, _, hb⟩ := h; exact hb.elim)

theorem selects_not_retags {a t : String} {γ : Type} (op : Call γ) (h : selects op) :
    ¬ retags a t op := by
  cases op <;> first | exact fun h => h | exact h.elim

theorem fetches_not_retags {a t : String} {γ : Type} (op : Call γ) (h : fetches op) :
    ¬ retags a t op := by
  cases op <;> first | exact fun h => h | exact h.elim

section
variable {a t : String} {w : Nat} {s : World}

theorem tag_upsert {db : Db} {now : DateTime} {b : String} {set : SourceState → SourceState}
    (hset : ∀ st, (set st).latest_release_tag = st.latest_release_tag)
    (h : (db.source_state.get a).bind (·.latest_release_tag) = some t) :
    ((upsert_state db now b set).source_state.get a).bind (·.latest_release_tag) = some t := by
  rw [upsert_state, Table.get_upsert]
  split
  · rename_i hb
    subst hb
    cases hst : db.source_state.get a with
    | none => simp [hst] at h
    | some st => simpa [hst, hset] using h
  · exact h

theorem tag_batch {db : Db} {now : DateTime} {order : List Nat} {b : String}
    {items : List SeenUpsert}
    (h : (db.source_state.get a).bind (·.latest_release_tag) = some t) :
    ((record_seen_batch db now order b items).source_state.get a).bind
      (·.latest_release_tag) = some t := by
  unfold record_seen_batch
  split
  · exact tag_upsert (fun _ => rfl) h
  · refine tag_upsert (fun _ => rfl) ?_
    rwa [baseline.state_foldl_write]

/-- No other call touches the tag. -/
theorem tag_exec {β : Type} {op : Call β} (o : Oracle) (hop : ¬ retags a t op)
    (h : latest_tag s a = some t) : latest_tag (exec w op o s).2 a = some t := by
  unfold latest_tag at h ⊢
  cases hfail : o.fails with
  | some e => rwa [failed_exec hfail]
  | none =>
    cases hstate : writes_state op with
    | false => rwa [state_exec hstate]
    | true =>
      cases op <;> simp only [exec, stored, hfail]
      case touch_polled b => exact tag_upsert (fun _ => rfl) h
      case set_etag b etag => exact tag_upsert (fun _ => rfl) h
      case set_latest_release_tag b tag =>
        change ((upsert_state s.db (s.tick o).now b (fun st =>
          { st with latest_release_tag := some tag })).source_state.get a).bind
            (·.latest_release_tag) = some t
        rw [upsert_state, Table.get_upsert]
        split
        · rename_i hb
          have htag : tag = t := by
            by_contra hne
            exact hop ⟨hb.symm, hne⟩
          subst hb htag
          cases s.db.source_state.get a <;> rfl
        · exact h
      case record_seen_batch b items => exact tag_batch h
      all_goals cases hstate

/-- The statement itself. -/
theorem tag_set {tag : String} {o : Oracle} (h : o.fails = none) :
    latest_tag (exec w (.set_latest_release_tag a tag) o s).2 a = some tag := by
  unfold latest_tag
  simp only [exec, stored, h]
  change ((upsert_state s.db (s.tick o).now a (fun st =>
    { st with latest_release_tag := some tag })).source_state.get a).bind
      (·.latest_release_tag) = some tag
  rw [upsert_state, Table.get_upsert, if_pos rfl]
  cases s.db.source_state.get a <;> rfl

theorem tag_alone {α : Type} {p : Work α} (hp : p.Never (retags a t)) (os : Nat → Oracle)
    (h : latest_tag s a = some t) : latest_tag (alone machine w p os s).2.1 a = some t :=
  alone_keeps (retags a t) (fun s => latest_tag s a = some t) hp
    (fun _ o _ hop hs => tag_exec o hop hs) h

end

/-! ## A list that is taken -/

/-- The accepted releases of a list, once their newest tag is noted or there is none to note. -/
def noted (watch : Watch) (releases : List Release) (os : Nat → Oracle) : Option (List Release) :=
  let filtered := releases.filter watch.filter.accepts
  if filtered = [] ∨ (os 0).fails = none then some filtered else none

section
variable {a t : String} {w : Nat} {s : World}

/-- A list of another source, or whose newest tag the source has, keeps the tag. -/
theorem never_retags_deliver {watch : Watch} {releases : List Release}
    (h : watch.provider.id = a → ∀ latest,
      pick_latest (releases.filter watch.filter.accepts) = some latest → latest.raw_tag = t) :
    (deliver_new_releases watch releases).Never (retags a t) := by
  have hnote : ∀ latest, pick_latest (releases.filter watch.filter.accepts) = some latest →
      ¬ retags a t (Call.set_latest_release_tag watch.provider.id latest.raw_tag) := by
    rintro latest hlatest ⟨hid, hne⟩
    exact hne (h hid latest hlatest)
  rw [deliver_new_releases_eq]
  exact never_bind (keeps_note_latest compositional_never hnote)
    (fun _ => keeps_after_note compositional_never selects_not_retags
      (never_deliver_release delivers_not_retags watch) hnote)

/-- A list that is not noted leaves the tag as it is. -/
theorem tag_unnoted {watch : Watch} {releases : List Release} {os : Nat → Oracle}
    (h : noted watch releases os = none) (hs : latest_tag s a = some t) :
    latest_tag (alone machine w (deliver_new_releases watch releases) os s).2.1 a = some t := by
  unfold noted at h
  dsimp only at h
  split at h
  · cases h
  · rename_i hnot
    obtain ⟨hne, hfails⟩ := not_or.mp hnot
    obtain ⟨err, herr⟩ := Option.ne_none_iff_exists'.mp hfails
    obtain ⟨latest, hlatest⟩ : ∃ latest,
        pick_latest (releases.filter watch.filter.accepts) = some latest := by
      cases hl : releases.filter watch.filter.accepts with
      | nil => exact absurd hl hne
      | cons r rest => exact ⟨_, pick_latest_cons r rest⟩
    have hexec : machine.exec w (.set_latest_release_tag watch.provider.id latest.raw_tag) (os 0)
        s = (.error (.store err), s.tick (os 0)) := by
      simp [machine, exec, stored, herr]
    rw [deliver_new_releases_eq]
    simp only [note_latest, hlatest]
    rw [alone_call_error os hexec]
    exact hs

/-- A list that is noted leaves the tag of its newest release, and an empty one leaves the tag. -/
theorem tag_noted {watch : Watch} {releases l : List Release} {os : Nat → Oracle}
    (hid : watch.provider.id = a) (h : noted watch releases os = some l) {latest : Release}
    (hlatest : pick_latest l = some latest) :
    latest_tag (alone machine w (deliver_new_releases watch releases) os s).2.1 a =
      some latest.raw_tag := by
  unfold noted at h
  dsimp only at h
  split at h
  · rename_i hor
    obtain rfl := Option.some.inj h
    have hfails : (os 0).fails = none := by
      rcases hor with hnil | hfails
      · rw [hnil] at hlatest
        cases hlatest
      · exact hfails
    have hnote : ∀ latest', pick_latest (releases.filter watch.filter.accepts) = some latest' →
        ¬ retags a latest.raw_tag
          (Call.set_latest_release_tag watch.provider.id latest'.raw_tag) := by
      rintro latest' hlatest' ⟨-, hne⟩
      rw [hlatest] at hlatest'
      exact hne (congrArg Release.raw_tag (Option.some.inj hlatest').symm)
    have hset : latest_tag (machine.exec w (.set_latest_release_tag watch.provider.id
        latest.raw_tag) (os 0) s).2 a = some latest.raw_tag := by
      rw [hid]
      exact tag_set hfails
    have hok : (machine.exec w (.set_latest_release_tag watch.provider.id latest.raw_tag) (os 0)
        s).1 = .ok () := by
      simp [machine, exec, stored, hfails]
    rw [deliver_new_releases_eq]
    simp only [note_latest, hlatest]
    rw [alone_call_ok os (Prod.ext hok rfl)]
    exact tag_alone (keeps_after_note compositional_never selects_not_retags
      (never_deliver_release delivers_not_retags watch) hnote) _ hset
  · cases h

end

/-! ## A poll up to its list -/

/-- The poll up to the releases of a full answer; a 304 has none. -/
def poll_list (watch : Watch) (force_fetch : Bool) : Work (Option (List Release)) :=
  (stored_etag watch.provider.id force_fetch).bind fun etag =>
    (fetch_or_touch watch.provider.id etag).bind fun outcome =>
      (perform (.touch_polled watch.provider.id)).bind fun _ =>
        if outcome.not_modified then (poll_not_modified watch force_fetch).bind fun _ => done none
        else (store_etag watch.provider.id outcome.etag).bind fun _ =>
          done (some outcome.releases)

/-- What a poll does with its list. -/
def take_list (watch : Watch) : Option (List Release) → Work Nat
  | none => done 0
  | some releases => deliver_new_releases watch releases

theorem poll_eq_list (watch : Watch) (force_fetch : Bool) :
    poll_once_inner watch force_fetch =
      (poll_list watch force_fetch).bind (take_list watch) := by
  unfold poll_list
  simp only [bind_assoc]
  unfold poll_once_inner
  simp only [bind_eq]
  congr 1
  funext etag
  congr 1
  funext outcome
  congr 1
  funext _
  split <;> simp only [bind_assoc] <;> rfl

section
variable {a t : String} {w : Nat} {s : World}

/-- A tag that is there is not backfilled. -/
theorem tag_backfill (b : String) (os : Nat → Oracle) (h : latest_tag s a = some t) :
    latest_tag (alone machine w (backfill_latest_release_tag_if_missing b) os s).2.1 a =
      some t := by
  by_cases hb : b = a
  · subst hb
    unfold backfill_latest_release_tag_if_missing
    rw [bind_eq]
    cases hexec : machine.exec w (.source_state_row b) (os 0) s with
    | mk r s' =>
      cases r with
      | error e =>
        rw [alone_call_error os hexec]
        have hs' : (exec w (.source_state_row b) (os 0) s).2 = s' := congrArg Prod.snd hexec
        rw [← hs']
        exact tag_exec _ (fun h => h) h
      | ok row =>
        rw [alone_call_ok os hexec]
        obtain ⟨hfails, heq⟩ := recorded.stored_ok hexec
        obtain ⟨rfl, rfl⟩ := Prod.mk.inj heq
        have hrow : (source_state_row (s.tick (os 0)).db b).latest_release_tag = some t := by
          have htag : (s.db.source_state.get b).bind (·.latest_release_tag) = some t := h
          change (source_state_row s.db b).latest_release_tag = some t
          unfold source_state_row
          cases hst : s.db.source_state.get b with
          | none => simp [hst] at htag
          | some st => simpa [hst] using htag
        rw [hrow]
        exact h
  · refine tag_alone ?_ os h
    refine never_bind (never_perform (fun h => h)) (fun row => ?_)
    split
    · trivial
    · refine never_bind (never_perform (fun h => h)) (fun best => ?_)
      cases best with
      | none => trivial
      | some tag => exact never_perform (fun h => hb h.1)

/-- A poll up to its list keeps a tag that is there. -/
theorem tag_poll_list (watch : Watch) (force_fetch : Bool) (os : Nat → Oracle)
    (h : latest_tag s a = some t) :
    latest_tag (alone machine w (poll_list watch force_fetch) os s).2.1 a = some t := by
  have hfetches := @fetches_not_retags a t
  -- up to the answer no call writes the tag, and of what follows only the backfill
  have hkeep : ∀ {α β : Type} {p : Work α} {f : α → Work β} {os : Nat → Oracle} {s : World},
      p.Never (retags a t) → latest_tag s a = some t →
      (∀ x os' s', latest_tag s' a = some t →
        latest_tag (alone machine w (f x) os' s').2.1 a = some t) →
      latest_tag (alone machine w (p.bind f) os s).2.1 a = some t := by
    intro α β p f os s hp hs hf
    have hs' := tag_alone (w := w) hp os hs
    rw [alone_bind]
    split
    · rename_i x s' os' heq
      rw [heq] at hs'
      exact hf x os' s' hs'
    · rename_i e s' os' heq
      rw [heq] at hs'
      exact hs'
  refine hkeep (keeps_stored_etag compositional_never hfetches _ _) h (fun etag os₁ s₁ h₁ => ?_)
  refine hkeep (keeps_fetch_or_touch compositional_never hfetches _ _) h₁ (fun outcome os₂ s₂ h₂ => ?_)
  refine hkeep (never_perform (hfetches _ trivial)) h₂ (fun _ os₃ s₃ h₃ => ?_)
  split
  · rw [poll_not_modified, bind_eq, bind_assoc]
    refine hkeep (keeps_refresh_if_missing compositional_never hfetches _ _) h₃ (fun _ os₄ s₄ h₄ => ?_)
    have h₅ := tag_backfill (w := w) watch.provider.id os₄ h₄
    rw [alone_bind]
    split <;> (rename_i heq; rw [heq] at h₅; exact h₅)
  · exact hkeep (keeps_store_etag compositional_never hfetches _ _) h₃ (fun _ os₄ s₄ h₄ => h₄)

end

/-! ## A run -/

/-- A poll, a push to one watch, or a call of another worker that notes no tag. -/
inductive Event where
  | polled (w : Nat) (watch : Watch) (force_fetch : Bool) (os : Nat → Oracle)
  | pushed (w : Nat) (watch : Watch) (release : Release) (os : Nat → Oracle)
  | other {β : Type} (w : Nat) (op : Call β) (o : Oracle) (h : ∀ a t, ¬ retags a t op)

/-- The world, and of one source the accepted releases of the last full list and of the pushes
since. No step reads them. -/
structure Course where
  world : World
  known : List Release

/-- The accepted releases of the full list that a poll has taken. -/
def heard (w : Nat) (watch : Watch) (force_fetch : Bool) (os : Nat → Oracle) (s : World) :
    Option (List Release) :=
  match alone machine w (poll_list watch force_fetch) os s with
  | (.ok (some releases), _, os') => noted watch releases os'
  | _ => none

def step (source_id : String) (st : Course) : Event → Course
  | .polled w watch force_fetch os =>
    { world := (alone machine w (poll_once_inner watch force_fetch) os st.world).2.1
      known :=
        if watch.provider.id = source_id then
          (heard w watch force_fetch os st.world).getD st.known
        else st.known }
  | .pushed w watch release os =>
    { world := (alone machine w (deliver_new_releases watch [release]) os st.world).2.1
      known :=
        if watch.provider.id = source_id then st.known ++ (noted watch [release] os).getD []
        else st.known }
  | .other w op o _ => { st with world := (exec w op o st.world).2 }

/-- The stored tag is that of a known release that none of the known ones is newer than. -/
def NewestTag (source_id : String) (st : Course) : Prop :=
  st.known ≠ [] → ∃ r ∈ st.known, latest_tag st.world source_id = some r.raw_tag ∧
    ∀ x ∈ st.known, compare_releases x r ≠ .gt

/-- No known release is newer than the pushed one, or it has the tag of one that neither a known
release nor itself is newer than. -/
def UpToDate (known : List Release) (release : Release) : Prop :=
  (∀ x ∈ known, compare_releases x release ≠ .gt) ∨
  ∃ r ∈ known, r.raw_tag = release.raw_tag ∧
    ∀ x ∈ known ++ [release], compare_releases x r ≠ .gt

/-- The lists of polls are such that their order is one, and no push is of an older release. -/
def NoSetback (source_id : String) (st : Course) : Event → Prop
  | .polled w watch force_fetch os =>
    watch.provider.id = source_id → ∀ l, heard w watch force_fetch os st.world = some l →
      PreorderOn compare_releases l
  | .pushed _ watch release _ =>
    watch.provider.id = source_id → watch.filter.accepts release → UpToDate st.known release
  | .other _ _ _ _ => True

theorem compare_releases_self (r : Release) : compare_releases r r = .eq := by
  have hflip : compare_releases r r = (compare_releases r r).swap := by
    rw [compare_releases_tiebreak, Ordering.swap_then, ← tiebreak_swap]
    congr 1
    exact Std.OrientedCmp.eq_swap
  cases h : compare_releases r r with
  | eq => rfl
  | lt =>
    rw [h] at hflip
    cases hflip
  | gt =>
    rw [h] at hflip
    cases hflip

/-- The newest of a list whose order is one. -/
theorem newest_picked {l : List Release} (h : PreorderOn compare_releases l) (hne : l ≠ []) :
    ∃ best ∈ l, pick_latest l = some best ∧ ∀ x ∈ l, compare_releases x best ≠ .gt := by
  cases l with
  | nil => exact absurd rfl hne
  | cons r rest =>
    obtain ⟨hin, hle⟩ := max_from_spec h
    refine ⟨_, hin, pick_latest_cons r rest, ?_⟩
    intro x hx hgt
    have := hle x hx
    rw [hgt] at this
    cases this

section
variable {a : String} {st : Course}

/-- Where no release is got to know, a tag that is kept stays the newest. -/
theorem NewestTag.same {world : World} (h : NewestTag a st)
    (hkeep : ∀ t, latest_tag st.world a = some t → latest_tag world a = some t) :
    NewestTag a ⟨world, st.known⟩ := by
  intro hne
  obtain ⟨r, hr, htag, hmax⟩ := h hne
  exact ⟨r, hr, hkeep _ htag, hmax⟩

/-- A push of a release that is not out of date leaves its own tag, which is the newest. -/
theorem newest_pushed {w : Nat} {watch : Watch} {release : Release} {os : Nat → Oracle}
    (h : NewestTag a st) (hok : NoSetback a st (.pushed w watch release os)) :
    NewestTag a (step a st (.pushed w watch release os)) := by
  simp only [step]
  by_cases hid : watch.provider.id = a
  · rw [if_pos hid]
    by_cases haccepts : watch.filter.accepts release
    · have hfilter : [release].filter watch.filter.accepts = [release] := by simp [haccepts]
      cases hnoted : noted watch [release] os with
      | none =>
        rw [Option.getD_none, List.append_nil]
        exact h.same (fun t ht => tag_unnoted hnoted ht)
      | some l =>
        have hl : l = [release] := by
          unfold noted at hnoted
          rw [hfilter] at hnoted
          dsimp only at hnoted
          split at hnoted
          · exact (Option.some.inj hnoted).symm
          · cases hnoted
        subst hl
        have hpick : pick_latest [release] = some release := rfl
        have htag := tag_noted (w := w) (s := st.world) hid hnoted hpick
        rw [Option.getD_some]
        intro _
        rcases hok hid haccepts with hnew | ⟨r, hr, hraw, hmax⟩
        · refine ⟨release, by simp, htag, ?_⟩
          intro x hx
          rcases List.mem_append.mp hx with hx | hx
          · exact hnew x hx
          · rw [List.mem_singleton.mp hx, compare_releases_self]
            exact fun h => by cases h
        · exact ⟨r, List.mem_append_left _ hr, by rw [hraw]; exact htag, hmax⟩
    · have hfilter : [release].filter watch.filter.accepts = [] := by simp [haccepts]
      have hnoted : (noted watch [release] os).getD [] = [] := by simp [noted, hfilter]
      rw [hnoted, List.append_nil]
      refine h.same (fun t ht => tag_alone (never_retags_deliver ?_) os ht)
      intro _ latest hlatest
      rw [hfilter] at hlatest
      cases hlatest
  · rw [if_neg hid]
    exact h.same (fun t ht =>
      tag_alone (never_retags_deliver (fun h => absurd h hid)) os ht)

/-- A poll leaves the newest tag of its list, or the tag that was there. -/
theorem newest_polled {w : Nat} {watch : Watch} {force_fetch : Bool} {os : Nat → Oracle}
    (h : NewestTag a st) (hok : NoSetback a st (.polled w watch force_fetch os)) :
    NewestTag a (step a st (.polled w watch force_fetch os)) := by
  have hlist := fun t ht =>
    tag_poll_list (a := a) (t := t) (w := w) (s := st.world) watch force_fetch os ht
  simp only [NoSetback, heard] at hok
  simp only [step, heard, poll_eq_list]
  rw [alone_bind]
  generalize alone machine w (poll_list watch force_fetch) os st.world = r at hlist hok ⊢
  obtain ⟨r, s', os'⟩ := r
  cases r with
  | error e =>
    simp only [Option.getD_none, ite_self]
    exact h.same hlist
  | ok answer =>
    cases answer with
    | none =>
      simp only [Option.getD_none, ite_self]
      exact h.same hlist
    | some releases =>
      simp only [take_list]
      by_cases hid : watch.provider.id = a
      · rw [if_pos hid]
        cases hnoted : noted watch releases os' with
        | none => exact h.same (fun t ht => tag_unnoted hnoted (hlist t ht))
        | some l =>
          intro hne
          obtain ⟨best, hbest, hpick, hmax⟩ := newest_picked (hok hid l hnoted) hne
          exact ⟨best, hbest, tag_noted hid hnoted hpick, hmax⟩
      · rw [if_neg hid]
        exact h.same (fun t ht =>
          tag_alone (never_retags_deliver (fun h => absurd h hid)) os' (hlist t ht))

theorem newest_step {e : Event} (h : NewestTag a st) (hok : NoSetback a st e) :
    NewestTag a (step a st e) := by
  cases e with
  | polled w watch force_fetch os => exact newest_polled h hok
  | pushed w watch release os => exact newest_pushed h hok
  | other w op o hop => exact h.same (fun t ht => tag_exec o (hop a t) ht)

end

/-- What a run comes to whose polls and pushes are no setbacks. -/
inductive Reached (source_id : String) : Course → Prop where
  | start (world : World) : Reached source_id ⟨world, []⟩
  | next {st : Course} (e : Event) (h : Reached source_id st) (hok : NoSetback source_id st e) :
    Reached source_id (step source_id st e)

/-- In every run of polls and pushes none of which is a setback, the stored tag is in every state
that of a newest release of those known. -/
theorem tag_is_newest {source_id : String} {st : Course} (h : Reached source_id st) :
    NewestTag source_id st := by
  induction h with
  | start world => exact fun hne => absurd rfl hne
  | next e _ hok ih => exact newest_step ih hok

/-! ## A maintenance release -/

def tokio : Watch where
  provider := ⟨"github:tokio-rs/tokio", "github", "GitHub", "tokio-rs/tokio"⟩
  filter := ⟨false, none, none, none, false⟩
  routing_tag := none
  notify_schedule := none

/-- The upstream lists version 1.40.0 only. -/
def listing : Oracle := { fetch := .ok ⟨false, none, [Release.new "v1.40.0"]⟩ }

def polled_tokio : Event := .polled 0 tokio false (fun _ => listing)

def pushed_tokio (tag : String) : Event := .pushed 0 tokio (Release.new tag) (fun _ => listing)

def before_tokio : Course := ⟨World.start Db.empty 0 [], []⟩

def with_tokio : Course := step "github:tokio-rs/tokio" before_tokio polled_tokio

theorem known_tokio : with_tokio.known = [Release.new "v1.40.0"] := by decide +kernel

theorem reached_tokio : Reached "github:tokio-rs/tokio" with_tokio := by
  refine Reached.next polled_tokio (Reached.start _) ?_
  intro _ l hl
  have hknown : l = [Release.new "v1.40.0"] := by
    have hcourse : with_tokio.known = l := by
      simp only [with_tokio, step, polled_tokio, before_tokio] at hl ⊢
      rw [hl]
      rfl
    rw [← hcourse, known_tokio]
  subst hknown
  refine ⟨?_, ?_⟩ <;> simp [compare_releases_self]

theorem tag_is_newest_here : NewestTag "github:tokio-rs/tokio"
    (step "github:tokio-rs/tokio" with_tokio (pushed_tokio "v1.41.0")) := by
  refine tag_is_newest (Reached.next _ reached_tokio ?_)
  intro _ _
  left
  intro x hx
  rw [known_tokio, List.mem_singleton] at hx
  subst hx
  decide +kernel

/-- A push of an older release takes the tag back to it. -/
theorem a_maintenance_release_takes_the_tag_back :
    latest_tag with_tokio.world "github:tokio-rs/tokio" = some "v1.40.0" ∧
      ¬ NewestTag "github:tokio-rs/tokio"
        (step "github:tokio-rs/tokio" with_tokio (pushed_tokio "v1.38.2")) := by
  refine ⟨by decide +kernel, ?_⟩
  have hknown : (step "github:tokio-rs/tokio" with_tokio (pushed_tokio "v1.38.2")).known =
      [Release.new "v1.40.0", Release.new "v1.38.2"] := by
    decide +kernel
  have htag : latest_tag (step "github:tokio-rs/tokio" with_tokio
      (pushed_tokio "v1.38.2")).world "github:tokio-rs/tokio" = some "v1.38.2" := by
    decide +kernel
  intro h
  obtain ⟨r, hr, hraw, hmax⟩ := h (by simp [hknown])
  rw [hknown] at hr hmax
  have hold : compare_releases (Release.new "v1.40.0") (Release.new "v1.38.2") = .gt := by
    decide +kernel
  rw [htag] at hraw
  rcases List.mem_cons.mp hr with rfl | hr
  · exact absurd (Option.some.inj hraw) (by decide)
  · obtain rfl := List.mem_singleton.mp hr
    exact hmax _ List.mem_cons_self hold

end xrelease.tagged
