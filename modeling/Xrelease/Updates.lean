-- What is seen of a release and what was delivered of it. A content that is seen was the baseline,
-- stands in the outbox or was delivered, in every run in which no enqueue finds the row in flight
-- with another content: there the new content is marked seen, and the row keeps the old one.
import Xrelease.Etag

namespace xrelease.updates

open xrelease.model xrelease.store xrelease.engine xrelease.outbox xrelease.pipeline
open xrelease.ledger xrelease.recorded xrelease.delivered xrelease.pieces
open keyed calls calls.Prog calls.Terms

/-! ## Contents of rows -/

/-- The outbox has a row of the identity with this content. -/
def Held (db : Db) (source_id identity digest : String) : Prop :=
  ∃ id r, db.parent id = some r ∧ r.source_id = source_id ∧ r.identity = identity ∧
    r.content_digest = some digest

/-- The call takes a baseline that has this content. -/
def baselines_content {β : Type} (op : Call β) (o : Oracle) (source_id identity digest : String) :
    Prop :=
  match op with
  | .record_seen_batch b items =>
    o.fails = none ∧ b = source_id ∧
      ∃ item ∈ items, item.identity = identity ∧ item.content_digest = some digest
  | _ => False

/-- The call marks this content as seen. -/
def sees_content {β : Type} (op : Call β) (source_id identity digest : String) : Prop :=
  match op with
  | .record_seen b item =>
    b = source_id ∧ item.identity = identity ∧ item.content_digest = some digest
  | .complete_notification _ b item =>
    b = source_id ∧ item.identity = identity ∧ item.content_digest = some digest
  | _ => False

/-- The call may take this content out of its row, which is sent. -/
def closes_content {β : Type} (op : Call β) (s : World) (source_id identity digest : String) :
    Prop :=
  ∃ id r, reopened op id = true ∧ s.db.parent id = some r ∧ r.status = .sent ∧
    r.source_id = source_id ∧ r.identity = identity ∧ r.content_digest = some digest

variable {a x d : String} {w : Nat} {s s' s₁ s₂ s₃ : World}

variable {β : Type} {id : Nat} {now : DateTime} {o : Oracle} {event : Event} {identity : String}
  {om : OutboxMeta}

/-- A row stays, for its release, with its content unless that is sent and reopened. -/
theorem content_exec (w : Nat) (op : Call β) (o : Oracle) {r : OutboxRow}
    (hr : s.db.parent id = some r) :
    ∃ r', (exec w op o s).2.db.parent id = some r' ∧ r'.source_id = r.source_id ∧
      r'.identity = r.identity ∧
      (r'.content_digest = r.content_digest ∨ reopened op id = true ∧ r.status = .sent) := by
  rcases row_exec hr with hsame | ⟨-, hhit, hnew⟩
  · exact ⟨r, hsame, rfl, rfl, Or.inl rfl⟩
  · refine ⟨_, hnew, ?_⟩
    cases op
    case reopen_outbox event om j =>
      simp only [hits, Bool.and_eq_true, decide_eq_true_eq] at hhit
      exact ⟨rfl, rfl, Or.inr ⟨by simp [reopened, hhit.1], hhit.2⟩⟩
    all_goals exact ⟨rfl, rfl, Or.inl rfl⟩

/-! ## Contents that are seen -/

theorem marked_write {db : Db} {b : String} {item : SeenUpsert}
    (h : Marked (write_seen_row db now b item) a x d) :
    Marked db a x d ∨ b = a ∧ item.identity = x ∧ item.content_digest = some d := by
  unfold Marked at h ⊢
  rw [seen_write] at h
  split at h
  · rename_i hk
    obtain ⟨rfl, rfl⟩ := hk
    refine Or.inr ⟨rfl, rfl, ?_⟩
    cases hrow : db.seen a item.identity with
    | none => simpa [hrow] using h
    | some row => simpa [hrow, SeenRow.refreshed] using h
  · exact Or.inl h

theorem marked_foldl {db : Db} {b : String} (items : List SeenUpsert)
    (h : Marked (items.foldl (fun db item => write_seen_row db now b item) db) a x d) :
    Marked db a x d ∨
      b = a ∧ ∃ item ∈ items, item.identity = x ∧ item.content_digest = some d := by
  induction items generalizing db with
  | nil => exact Or.inl h
  | cons item rest ih =>
    rcases ih h with h | ⟨hb, i, hi, hid⟩
    · rcases marked_write h with h | ⟨hb, hid⟩
      · exact Or.inl h
      · exact Or.inr ⟨hb, item, List.mem_cons_self, hid⟩
    · exact Or.inr ⟨hb, i, List.mem_cons_of_mem item hi, hid⟩

theorem marked_batch {db : Db} {order : List Nat} {b : String} {items : List SeenUpsert}
    (h : Marked (record_seen_batch db now order b items) a x d) :
    Marked db a x d ∨
      b = a ∧ ∃ item ∈ items, item.identity = x ∧ item.content_digest = some d := by
  unfold record_seen_batch at h
  split at h
  · exact Or.inl h
  · rcases marked_foldl _ h with h | ⟨hb, i, hi, hid⟩
    · exact Or.inl h
    · exact Or.inr ⟨hb, i, (mem_arrange order items i).mp (mem_distinct_on hi), hid⟩

/-- What is seen was seen before, or the call marks it. -/
theorem marked_exec {op : Call β} (h : Marked (exec w op o s).2.db a x d) :
    Marked s.db a x d ∨ baselines_content op o a x d ∨ sees_content op a x d := by
  cases hfail : o.fails with
  | some e =>
    rw [failed_exec hfail] at h
    exact Or.inl h
  | none =>
    cases hseen : writes_seen op with
    | false =>
      left
      unfold Marked at h ⊢
      rwa [seen_of_exec hseen] at h
    | true =>
      cases op <;> simp only [exec, stored, hfail] at h
      case enrich_seen_metadata b releases =>
        left
        unfold Marked at h ⊢
        rwa [← digest_enrich s.db o.order b releases]
      case record_seen b item => exact (marked_write h).imp_right Or.inr
      case record_seen_batch b items =>
        exact (marked_batch h).imp_right (fun h => Or.inl ⟨hfail, h⟩)
      case complete_notification id b seen =>
        have hdone : Marked (complete_notification s.db (s.tick o).now id b seen).2 a x d := by
          split at h <;> exact h
        unfold complete_notification at hdone
        split at hdone
        · exact (marked_write hdone).imp_right Or.inr
        · exact Or.inl hdone
      all_goals cases hseen

/-! ## The terms -/

/-- Of a content it is on record that it was the baseline or was delivered, or it stands in the
outbox. -/
def Known (past : String → String → String → Prop) (db : Db) (source_id identity digest : String) :
    Prop :=
  past source_id identity digest ∨ Held db source_id identity digest

/-- What an enqueue finds in flight has the content that it brings. -/
def BringsWhatIsInFlight {β : Type} (w : Nat) (op : Call β) (s : World) : Prop :=
  match op with
  | .select_outbox source_id identity =>
    ∀ hit ∈ select_outbox s.db source_id identity, hit.2.1.retryable = true →
      s.book.offered w = some hit.2.2
  | _ => True

/-- What was known stays known, and rows stay. -/
structure Ahead (past : String → String → String → Prop) (s s' : World) : Prop where
  known : ∀ a x d, Known past s.db a x d → Known past s'.db a x d
  rows : ∀ a x id, RowOf s.db a x id → RowOf s'.db a x id

/-- What is seen is known. -/
def SeenIsKnown (past : String → String → String → Prop) (db : Db) : Prop :=
  ∀ a x d, Marked db a x d → Known past db a x d

/-- The past has what the call takes as a baseline, and what it takes out of a sent row. -/
structure Remembers (past : String → String → String → Prop) {β : Type} (op : Call β) (o : Oracle)
    (s : World) : Prop where
  baselines : ∀ a x d, baselines_content op o a x d → past a x d
  closes : ∀ a x d, closes_content op s a x d → past a x d

variable {past : String → String → String → Prop}

theorem Ahead.refl (s : World) : Ahead past s s := ⟨fun _ _ _ h => h, fun _ _ _ h => h⟩

theorem Ahead.trans (h : Ahead past s₁ s₂) (h' : Ahead past s₂ s₃) : Ahead past s₁ s₃ :=
  ⟨fun a x d hk => h'.known a x d (h.known a x d hk),
    fun a x id hr => h'.rows a x id (h.rows a x id hr)⟩

theorem ahead_exec {op : Call β} (h : Remembers past op o s) :
    Ahead past s (exec w op o s).2 := by
  constructor
  · rintro a x d (hp | ⟨id, r, hr, hsrc, hid, hd⟩)
    · exact Or.inl hp
    · obtain ⟨r', hr', hsrc', hid', hd' | ⟨hre, hsent⟩⟩ := content_exec w op o hr
      · exact Or.inr ⟨id, r', hr', hsrc'.trans hsrc, hid'.trans hid, hd'.trans hd⟩
      · exact Or.inl (h.closes a x d ⟨id, r, hre, hr, hsent, hsrc, hid, hd⟩)
  · rintro a x id ⟨r, hr, hsrc, hid⟩
    obtain ⟨r', hr', hsrc', hid', -⟩ := content_exec w op o hr
    exact ⟨r', hr', hsrc'.trans hsrc, hid'.trans hid⟩

theorem seen_is_known_exec {op : Call β} (hi : SeenIsKnown past s.db) (h : Remembers past op o s)
    (hsees : ∀ a x d, sees_content op a x d → Known past s.db a x d) :
    SeenIsKnown past (exec w op o s).2.db := by
  intro a x d hm
  rcases marked_exec hm with hm | hb | hs
  · exact (ahead_exec h).known a x d (hi a x d hm)
  · exact Or.inl (h.baselines a x d hb)
  · exact (ahead_exec h).known a x d (hsees a x d hs)

/-- What a worker offers is its own. -/
theorem offered_exec (op : Call β) (o : Oracle) (s : World) {v : Nat} (hv : v ≠ w) :
    (exec w op o s).2.book.offered v = s.book.offered v := by
  cases hfail : o.fails <;> cases op <;> simp only [exec, stored, hfail]
  case none.insert_outbox event identity om =>
    split
    · simp [World.offer, World.note, World.wrote, World.tick, hv]
    · simp [World.offer, World.wrote, World.tick, hv]
  all_goals first
    | rfl
    | (split <;> rfl)

def terms (past : String → String → String → Prop) : Terms Call World Oracle Outside where
  Inv := fun s => SeenIsKnown past s.db
  Rely := fun w s s' => Ahead past s s' ∧ s'.book.offered w = s.book.offered w
  May := fun w op o s => BringsWhatIsInFlight w op s ∧ Remembers past op o s
  Does := fun w _ _ s s' =>
    Ahead past s s' ∧ ∀ v, v ≠ w → s'.book.offered v = s.book.offered v
  MayOutside := fun _ _ => True

theorem terms_sound (past : String → String → String → Prop) : (terms past).Sound machine where
  refl := fun _ s => ⟨Ahead.refl s, rfl⟩
  trans := fun _ _ _ _ h h' => ⟨h.1.trans h'.1, h'.2.trans h.2⟩
  others := fun _ v _ _ _ _ hv hd => ⟨hd.1, hd.2 v hv⟩
  outside := by
    rintro ⟨notifiers⟩ s hi _
    exact ⟨hi, fun _ => ⟨⟨fun _ _ _ h => h, fun _ _ _ h => h⟩, rfl⟩⟩
  leave := fun _ s hi => ⟨hi, fun _ _ => ⟨⟨fun _ _ _ h => h, fun _ _ _ h => h⟩, rfl⟩⟩

/-! ## Calls and programs that mark only what is known -/

/-- One call that marks only what is known. -/
theorem safe_call {op : Call β} {Q : Except PipelineError β → World → Prop}
    (hsees : ∀ a x d, sees_content op a x d → Known past s.db a x d)
    (hq : ∀ s₁ o, Ahead past s s₁ → s₁.book.offered w = s.book.offered w →
      BringsWhatIsInFlight w op s₁ → Ahead past s₁ (exec w op o s₁).2 →
      Q (exec w op o s₁).1 (exec w op o s₁).2) :
    (terms past).Safe machine w Q (perform op) s := by
  apply safe_perform
  rintro s₁ ⟨hahead, hoffered⟩ hinv o ⟨hbrings, hremembers⟩
  have hgo : Ahead past s₁ (exec w op o s₁).2 := ahead_exec hremembers
  refine ⟨⟨hgo, fun v hv => offered_exec op o s₁ hv⟩, ?_, hq s₁ o hahead hoffered hbrings hgo⟩
  exact seen_is_known_exec hinv hremembers
    (fun a x d hs => hahead.known a x d (hsees a x d hs))

/-- The call marks something else as seen. -/
def strays (marks : String → SeenUpsert → Prop) {γ : Type} (op : Call γ) : Prop :=
  match op with
  | .record_seen b item => ¬ marks b item
  | .complete_notification _ b item => ¬ marks b item
  | _ => False

theorem safe_never {α : Type} {marks : String → SeenUpsert → Prop} {p : Work α}
    (hp : p.Never (strays marks))
    (h : ∀ b item d, marks b item → item.content_digest = some d →
      Known past s.db b item.identity d) :
    (terms past).Safe machine w (fun _ s' => Ahead past s s') p s := by
  suffices hall : ∀ s₁, Ahead past s s₁ →
      (terms past).Safe machine w (fun _ s' => Ahead past s s') p s₁ from
    hall s (Ahead.refl s)
  induction p with
  | done a => exact fun _ h => h
  | fail e => exact fun _ h => h
  | call op next ih =>
    rintro s₁ h₁ s₂ ⟨h₂, -⟩ hinv o ⟨-, hremembers⟩
    have hto := h₁.trans h₂
    have hgo : Ahead past s₂ (exec w op o s₂).2 := ahead_exec hremembers
    refine ⟨⟨hgo, fun v hv => offered_exec op o s₂ hv⟩, ?_, ih _ (hp.2 _) _ (hto.trans hgo)⟩
    refine seen_is_known_exec hinv hremembers (fun a x d hs => hto.known a x d ?_)
    have hmarks := hp.1
    cases op <;> simp only [sees_content] at hs
    case record_seen b item =>
      obtain ⟨rfl, rfl, hd⟩ := hs
      exact h b item d (not_not.mp hmarks) hd
    case complete_notification id b item =>
      obtain ⟨rfl, rfl, hd⟩ := hs
      exact h b item d (not_not.mp hmarks) hd

/-- Safe from any state. -/
def SafeAlways (past : String → String → String → Prop) (w : Nat) {α : Type} (p : Work α) : Prop :=
  ∀ s, (terms past).Safe machine w (fun _ _ => True) p s

section Always

variable {α β : Type}

theorem always_done (b : α) : SafeAlways past w (done b) := fun _ => trivial

theorem always_bind {p : Work α} {f : α → Work β} (hp : SafeAlways past w p)
    (hf : ∀ b, SafeAlways past w (f b)) : SafeAlways past w (p.bind f) := by
  intro s
  apply safe_bind
  refine safe_mono (hp s) ?_
  intro r s₁ _
  cases r with
  | error e => trivial
  | ok b => exact hf b s₁

theorem always_caught {p : Work α} (hp : SafeAlways past w p) : SafeAlways past w p.caught :=
  fun s => safe_caught (hp s)

theorem always_call {op : Call α} (h : ∀ a x d, ¬ sees_content op a x d) :
    SafeAlways past w (perform op) :=
  fun _ => safe_call (fun a x d hs => absurd hs (h a x d)) (fun _ _ _ _ _ _ => trivial)

theorem compositional_always :
    Compositional (SafeAlways past w) (fun op => ∀ a x d, ¬ sees_content op a x d) where
  done := always_done
  fail := fun _ _ => trivial
  bind := always_bind
  caught := always_caught
  call := always_call

end Always

/-! ## Into the outbox -/

theorem held_of_insert {db : Db} (h : (insert_outbox db now event identity om).1 = some id)
    (hd : om.content_digest = some d) :
    Held (insert_outbox db now event identity om).2 event.source_id identity d := by
  unfold insert_outbox at h ⊢
  split at h
  · exact absurd h (by simp)
  · rename_i hnone
    rw [if_neg hnone]
    obtain rfl := Option.some.inj h
    unfold Held Db.parent
    simp only [Serial.get_insert]
    exact ⟨db.notification_outbox.next, _, by rw [if_pos rfl], rfl, rfl, hd⟩

/-- An insert leaves the worker's offer behind, and the row where it makes one. -/
theorem inserted {out : Option Nat}
    (h : (exec w (.insert_outbox event identity om) o s).1 = .ok out) :
    (exec w (.insert_outbox event identity om) o s).2.book.offered w = some om.content_digest ∧
      ∀ d, om.content_digest = some d → out.isSome →
        Held (exec w (.insert_outbox event identity om) o s).2.db event.source_id identity d := by
  cases hfail : o.fails with
  | some e => simp [exec, stored, hfail] at h
  | none =>
    have hout : (insert_outbox s.db (s.tick o).now event identity om).1 = out := by
      simpa [exec, stored, hfail, World.tick] using h
    have hdb : (exec w (.insert_outbox event identity om) o s).2.db =
        (insert_outbox s.db (s.tick o).now event identity om).2 := by
      simp only [exec, stored, hfail]
      split <;> rfl
    constructor
    · simp only [exec, stored, hfail]
      split <;> simp [World.offer]
    · intro d hd hsome
      obtain ⟨id, hid⟩ := Option.isSome_iff_exists.mp hsome
      rw [hdb]
      exact held_of_insert (hout.trans hid) hd

theorem held_of_reopen {db : Db} (hrow : RowOf db a x id) (hd : om.content_digest = some d)
    (h : (reopen_outbox db event om id).1 = true) :
    Held (reopen_outbox db event om id).2 a x d := by
  obtain ⟨r, hr, hsrc, hid⟩ := hrow
  unfold reopen_outbox at h ⊢
  split at h
  · rename_i hre
    rw [if_pos hre]
    have hsent : r.status = .sent := by simpa [reopens, hr] using hre
    exact ⟨id, r.reopened event om, by simp [hr, hsent], hsrc, hid, hd⟩
  · exact absurd h (by simp)

theorem reopened_ok (hrow : RowOf s.db a x id) (hd : om.content_digest = some d)
    (h : (exec w (.reopen_outbox event om id) o s).1 = .ok true) :
    Held (exec w (.reopen_outbox event om id) o s).2.db a x d := by
  cases hfail : o.fails with
  | some e => simp [exec, stored, hfail] at h
  | none =>
    have hout : (reopen_outbox s.db event om id).1 = true := by
      simpa [exec, stored, hfail, World.tick] using h
    have hdb : (exec w (.reopen_outbox event om id) o s).2.db =
        (reopen_outbox s.db event om id).2 := by
      simp only [exec, stored, hfail]
      split <;> rfl
    rw [hdb]
    exact held_of_reopen hrow hd hout

theorem selected {source_id : String} {out : Option (Nat × Status × Option String)}
    (h : (exec w (.select_outbox source_id identity) o s).1 = .ok out) :
    select_outbox s.db source_id identity = out ∧
      (exec w (.select_outbox source_id identity) o s).2.db = s.db := by
  cases hfail : o.fails with
  | some e => simp [exec, stored, hfail] at h
  | none =>
    simp only [exec, stored, hfail, Except.ok.injEq] at h ⊢
    exact ⟨h, rfl⟩

/-- A row that an enqueue answers with has the content that it brought. -/
theorem safe_try_enqueue (hd : om.content_digest = some d) :
    (terms past).Safe machine w
      (fun r s' => ∀ e, r = .ok (some e) → Known past s'.db event.source_id identity d)
      (try_enqueue_notification event identity om) s := by
  have hno : ∀ {r : Except PipelineError (Option EnqueueOutcome)} {s' : World},
      (∀ e, r ≠ .ok (some e)) → ∀ e, r = .ok (some e) →
        Known past s'.db event.source_id identity d :=
    fun h e he => absurd he (h e)
  apply safe_bind
  refine safe_call (fun _ _ _ h => h.elim) ?_
  intro s₁ o₁ _ _ _ _
  cases (exec w .utc_now o₁ s₁).1 with
  | error e => exact hno (by simp)
  | ok now =>
    apply safe_bind
    refine safe_call (fun _ _ _ h => h.elim) ?_
    intro s₂ o₂ _ _ _ _
    cases hins : (exec w (.insert_outbox event identity om) o₂ s₂).1 with
    | error e => exact hno (by simp)
    | ok out =>
      obtain ⟨hoffered, hheld⟩ := inserted hins
      cases out with
      | some id => exact fun _ _ => Or.inr (hheld d hd rfl)
      | none =>
        apply safe_bind
        refine safe_call (fun _ _ _ h => h.elim) ?_
        intro s₃ o₃ _ hkept hbrings hgo
        cases hsel : (exec w (.select_outbox event.source_id identity) o₃ s₃).1 with
        | error e => exact hno (by simp)
        | ok hit =>
          obtain ⟨hhit, hdb⟩ := selected hsel
          -- a row in flight has what was offered
          have hflight : ∀ id status digest, hit = some (id, status, digest) →
              status.retryable = true →
              Known past (exec w (.select_outbox event.source_id identity) o₃ s₃).2.db
                event.source_id identity d := by
            intro id status digest heq hst
            rw [heq] at hhit
            obtain ⟨r, hr, hsrc, hid, -, hdig⟩ := select_some hhit
            have hsame := hbrings (id, status, digest) hhit hst
            rw [hkept, hoffered, hd] at hsame
            rw [hdb]
            exact Or.inr ⟨id, r, hr, hsrc, hid, hdig.trans (Option.some.inj hsame).symm⟩
          match hit, hhit, hflight with
          | none, _, _ => exact hno (by simp)
          | some (id, .pending, digest), _, hf => exact fun _ _ => hf id _ digest rfl rfl
          | some (id, .failed, digest), _, hf => exact fun _ _ => hf id _ digest rfl rfl
          | some (id, .dead, digest), _, _ => exact hno (by simp)
          | some (id, .sent, digest), hhit, _ =>
            obtain ⟨r, hr, hsrc, hid, -, -⟩ := select_some hhit
            dsimp only
            split
            · exact hno (by simp)
            · apply safe_bind
              refine safe_call (fun _ _ _ h => h.elim) ?_
              intro s₄ o₄ hahead _ _ _
              have hrow : RowOf s₄.db event.source_id identity id :=
                hahead.rows _ _ _ ⟨r, by rw [hdb]; exact hr, hsrc, hid⟩
              cases hre : (exec w (.reopen_outbox event om id) o₄ s₄).1 with
              | error e => exact hno (by simp)
              | ok updated =>
                cases updated with
                | false => exact hno (by simp)
                | true => exact fun _ _ => Or.inr (reopened_ok hrow hd hre)

/-! ## Out to the sinks -/

section Marks

variable {marks : String → SeenUpsert → Prop} {α : Type}

/-- A delivery marks no release but its own. -/
theorem never_of_piece {id : Nat} {source_id : String} {seen : SeenUpsert} {p : Work α}
    (hp : Piece id source_id seen p) (h : marks source_id seen) : p.Never (strays marks) := by
  refine never_of_within (hp false) ?_
  intro γ op hb hs
  cases op <;> simp only [strays] at hs
  case complete_notification j b item =>
    obtain ⟨-, rfl, rfl⟩ := hb
    exact hs h
  case record_seen b item => exact hb

theorem never_call {op : Call α} (h : ¬ strays marks op) :
    (perform op : Work α).Never (strays marks) := never_perform h

theorem never_attempt {id attempts_before : Nat} {context : DeliveryContext}
    (h : marks context.source_id context.seen) :
    (attempt_notification_delivery id attempts_before context).Never (strays marks) :=
  never_of_piece (piece_attempt attempts_before context) h

/-- The row's release is one that may be marked. -/
def MayMark (marks : String → SeenUpsert → Prop) (row : OutboxRecord) : Prop :=
  marks row.source_id (seen_upsert_for row)

variable {group : List OutboxRecord}

theorem settles_row {row : OutboxRecord} (h : MayMark marks row) :
    SettlesRow (fun p => p.Never (strays marks)) (fun op => ¬ strays marks op) row := by
  refine settles_of_calls compositional_never.toSequential (fun op hop => ?_) (fun op hop => ?_)
    (fun hs => hs h)
  · cases op <;> first | exact id | exact hop.elim
  · cases op <;> first | exact id | exact hop.elim

theorem never_deliver_digest (event : Event) (h : ∀ row ∈ group, MayMark marks row) :
    (deliver_digest_to_pending_sinks event group).Never (strays marks) :=
  keeps_deliver_digest compositional_never.toSequential id (fun row hr => settles_row (h row hr))
    (fun _ => keeps_round compositional_never.toSequential (fun _ => id)
      (fun _ _ => never_call id))
    (keeps_breaker_alerts compositional_never.toSequential id (fun _ _ => id))

theorem never_backoff_group {pairs : List (OutboxRecord × DeliveryAttempt)}
    (h : ∀ pair ∈ pairs, MayMark marks pair.1) :
    (backoff_group pairs).Never (strays marks) :=
  keeps_backoff_group compositional_never.toSequential
    (fun pair hp _ => never_of_piece (piece_backoff_after _ _) (h pair hp))

theorem never_deliver_unit {unit : DeliveryUnit} (h : ∀ row ∈ unit.rows, MayMark marks row) :
    (deliver_unit unit).Never (strays marks) := by
  cases unit with
  | single row =>
    have hrow : MayMark marks row := h row (List.mem_singleton_self row)
    exact never_bind (never_attempt hrow) (fun _ => trivial)
  | digest group =>
    refine never_bind (never_caught ?_) (fun outcome => ?_)
    · refine never_bind (never_deliver_digest _ h) (fun outcomes => ?_)
      exact never_backoff_group (fun pair hp => h _ (List.of_mem_zip hp).1)
    · exact never_bind (never_call (fun h => h)) (fun _ => never_resume outcome)

theorem never_deliver_wave {units : List DeliveryUnit} (st : FlushState)
    (h : ∀ row ∈ units.flatMap (·.rows), MayMark marks row) :
    (deliver_wave st units).Never (strays marks) := by
  induction units generalizing st with
  | nil => trivial
  | cons unit rest ih =>
    rw [List.flatMap_cons] at h
    refine never_bind (never_caught (never_deliver_unit
      (fun row hr => h row (List.mem_append_left _ hr)))) (fun result => ?_)
    have hrest := fun st => ih st (fun row hr => h row (List.mem_append_right _ hr))
    cases result with
    | ok rows => exact hrest _
    | error err => exact hrest _

end Marks

/-! ## Every job -/

theorem always_deliver_release (watch : Watch) (release : Release) :
    SafeAlways past w (deliver_release watch release) := by
  refine always_bind ?_ (fun deliver_after s => ?_)
  · unfold deliver_after_of
    split
    · exact always_done none
    · exact always_bind (always_call (fun _ _ _ h => h)) (fun now => always_done _)
  · apply safe_bind
    refine safe_mono (safe_try_enqueue (d := release.content_fingerprint) rfl) ?_
    intro r s₁ hknown
    cases r with
    | error e => trivial
    | ok out =>
      cases out with
      | none => trivial
      | some enqueued =>
        have hseen := hknown enqueued rfl
        apply safe_bind
        refine safe_call ?_ ?_
        · rintro a x d ⟨rfl, rfl, hd⟩
          obtain rfl := Option.some.inj hd
          exact hseen
        · intro s₂ o h₁₂ _ _ hgo
          cases (exec w (.record_seen watch.provider.id (baseline_item release)) o s₂).1 with
          | error e => trivial
          | ok _ =>
            have hfar := (h₁₂.trans hgo).known _ _ _ hseen
            have hnever : (deliver_inline watch release enqueued).Never
                (strays (fun b item => b = watch.provider.id ∧ item = baseline_item release)) := by
              unfold deliver_inline
              split
              · trivial
              · refine never_bind (never_call (fun h => h)) (fun claimed => ?_)
                split
                · trivial
                · exact never_attempt ⟨rfl, rfl⟩
            refine safe_mono (safe_never hnever ?_) (fun _ _ _ => trivial)
            rintro b item d ⟨rfl, rfl⟩ hd
            obtain rfl := Option.some.inj hd
            exact hfar

/-- A batch claim hands out rows as they stand. -/
theorem held_of_batch {limit lease_secs : Nat} {wave : List OutboxRecord}
    (h : (exec w (.claim_outbox_batch limit lease_secs) o s).1 = .ok wave) :
    ∀ row ∈ wave, ∀ d, row.content_digest = some d →
      Held (exec w (.claim_outbox_batch limit lease_secs) o s).2.db row.source_id row.identity
        d := by
  cases hfail : o.fails with
  | some e => simp [exec, stored, hfail] at h
  | none =>
    simp only [exec, stored, hfail, Except.ok.injEq] at h ⊢
    subst h
    intro row hrow d hd
    obtain ⟨id, -, hmap⟩ := List.mem_filterMap.mp hrow
    obtain ⟨r, hr, rfl⟩ := Option.map_eq_some_iff.mp hmap
    exact ⟨id, r, hr, rfl, rfl, hd⟩

theorem always_flush_waves (concurrency fuel left : Nat) (st : FlushState) :
    SafeAlways past w (flush_waves concurrency fuel left st) := by
  induction fuel generalizing left st with
  | zero => exact always_done st
  | succ fuel ih =>
    unfold flush_waves
    split
    · exact always_done st
    · intro s
      apply safe_bind
      refine safe_call (fun _ _ _ h => h.elim) ?_
      intro s₁ o _ _ _ _
      cases hwave : (exec w (.claim_outbox_batch (min concurrency left) OUTBOX_LEASE_SECS) o
          s₁).1 with
      | error e => trivial
      | ok wave =>
        have hheld := held_of_batch hwave
        dsimp only
        split
        · trivial
        · apply safe_bind
          refine safe_call (fun _ _ _ h => h.elim) ?_
          intro s₂ o' h₂ _ _ hgo
          cases (exec w .hash_order o' s₂).1 with
          | error e => trivial
          | ok order =>
            have hperm := attempts.rows_partition_for_digest order wave
            have hnever : (deliver_wave st (partition_for_digest order wave)).Never
                (strays (fun b item =>
                  ∃ row ∈ wave, b = row.source_id ∧ item = seen_upsert_for row)) :=
              never_deliver_wave st (fun row hr => ⟨row, hperm.mem_iff.mp hr, rfl, rfl⟩)
            apply safe_bind
            refine safe_mono (safe_never hnever ?_) ?_
            · rintro b item d ⟨row, hrow, rfl, rfl⟩ hd
              exact (h₂.trans hgo).known _ _ _ (Or.inr (hheld row hrow d hd))
            · intro r s₃ _
              cases r with
              | error e => trivial
              | ok st' =>
                dsimp only
                split
                · trivial
                · exact ih _ _ s₃

theorem not_sees_of_polls {γ : Type} (op : Call γ) (h : polls op) :
    ∀ a x d, ¬ sees_content op a x d := by
  cases op <;> first | exact fun _ _ _ hs => hs | exact (h.elim id (Or.elim · id id)).elim

theorem always_work (job : Job) : SafeAlways past w job.work :=
  keeps_work compositional_always not_sees_of_polls always_deliver_release
    (keeps_flush compositional_always (fun _ _ _ h => h) always_flush_waves)
    (keeps_reconcile compositional_always (fun _ _ _ h => h) (fun _ _ _ _ _ h => h))
    (always_bind (always_call (fun _ _ _ h => h)) (fun _ => always_done ())) job

/-! ## A change that is noticed while its row is dead or sent -/

theorem contents_alone {α : Type} {p : Work α} {os : Nat → Oracle}
    (hp : p.Never (fun op => ∃ id, reopened op id = true)) (h : Held s.db a x d) :
    Held (alone machine w p os s).2.1.db a x d := by
  refine alone_keeps _ (fun t : World => Held t.db a x d) hp ?_ h
  rintro β op o t hop ⟨id, r, hr, hsrc, hid, hd⟩
  obtain ⟨r', hr', hsrc', hid', hd' | ⟨hre, -⟩⟩ := content_exec w op o hr
  · exact ⟨id, r', hr', hsrc'.trans hsrc, hid'.trans hid, hd'.trans hd⟩
  · exact absurd ⟨id, hre⟩ hop

/-- From an outbox where the release's row is sent, an enqueue leaves the new content in it. -/
theorem enqueued_once_sent {os : Nat → Oracle} (hos : ∀ n, (os n).fails = none) (hone : OneRow s.db)
    {r : OutboxRow} (hr : s.db.parent id = some r) (hsrc : r.source_id = event.source_id)
    (hid : r.identity = identity) (hst : r.status = .sent) (hd : om.content_digest = some d) :
    Held (alone machine w (try_enqueue_notification event identity om) os s).2.1.db
      event.source_id identity d := by
  have hnow : machine.exec w .utc_now (os 0) s = (.ok (os 0).utc_now, s.tick (os 0)) := rfl
  unfold try_enqueue_notification
  simp only [bind_eq]
  rw [alone_call_ok os hnow]
  set s₁ := s.tick (os 0)
  have hr₁ : s₁.db.parent id = some r := hr
  have hnone : (insert_outbox s₁.db (s₁.tick (os 1)).now event identity om).1 = none :=
    insert_of_row ⟨r, hr₁, hsrc, hid⟩ _ om
  have hparent : ∀ j, (insert_outbox s₁.db (s₁.tick (os 1)).now event identity om).2.parent j =
      s₁.db.parent j := by
    intro j
    unfold insert_outbox at hnone ⊢
    split at hnone
    · rename_i hany
      rw [if_pos hany]
      rfl
    · exact absurd hnone (by simp)
  obtain ⟨s₂, hs₂, hins⟩ : ∃ s₂, s₂.db = (insert_outbox s₁.db (s₁.tick (os 1)).now event identity
      om).2 ∧ machine.exec w (.insert_outbox event identity om) (os 1) s₁ = (.ok none, s₂) := by
    refine ⟨_, ?_, Prod.ext (by simp only [machine, exec, stored, hos 1]; exact congrArg _ hnone)
      rfl⟩
    simp only [machine, exec, stored, hos 1]
    split <;> rfl
  rw [alone_call_ok _ hins]
  obtain ⟨⟨id', status, digest⟩, hhit⟩ := insert_none hnone
  obtain ⟨r', hr', hsrc', hid', hstatus, hdigest⟩ := select_some hhit
  rw [hparent] at hr'
  obtain rfl := hone id' id r' r hr' hr (hsrc'.trans hsrc.symm) (hid'.trans hid.symm)
  obtain rfl := Option.some.inj (hr'.symm.trans hr)
  obtain rfl : status = .sent := hstatus.symm.trans hst
  have hr₂ : s₂.db.parent id' = some r' := by
    rw [hs₂, hparent]
    exact hr
  have hsel : machine.exec w (.select_outbox event.source_id identity) (os 2) s₂ =
      (.ok (some (id', .sent, digest)), s₂.tick (os 2)) := by
    simp only [machine, exec, stored, hos 2]
    refine Prod.ext (congrArg _ ?_) rfl
    rw [← hhit, ← hs₂]
    rfl
  rw [alone_call_ok _ hsel]
  dsimp only
  split
  · rename_i hsame
    exact ⟨id', r', hr₂, hsrc, hid, hdigest.trans (hsame.trans hd)⟩
  · set s₃ := s₂.tick (os 2)
    have hr₃ : s₃.db.parent id' = some r' := hr₂
    have hre : (reopen_outbox s₃.db event om id').1 = true := by
      unfold reopen_outbox
      rw [if_pos (by simp [reopens, hr₃, hst])]
    cases hexec : machine.exec w (.reopen_outbox event om id') (os 3) s₃ with
    | mk res s₄ =>
      have hok : res = .ok true := by
        simp only [machine, exec, stored, hos 3] at hexec
        rw [← (Prod.mk.inj hexec).1]
        exact congrArg _ hre
      subst hok
      rw [alone_call_ok _ hexec]
      have hheld : Held (exec w (.reopen_outbox event om id') (os 3) s₃).2.db event.source_id
          identity d :=
        reopened_ok ⟨r', hr₃, hsrc, hid⟩ hd (congrArg Prod.fst hexec)
      have hs₄ : (exec w (.reopen_outbox event om id') (os 3) s₃).2 = s₄ := congrArg Prod.snd hexec
      rw [hs₄] at hheld
      exact hheld

theorem not_reopened_of_leases {γ : Type} (op : Call γ) (h : walks.leases op) :
    ¬ ∃ id, reopened op id = true := by
  rintro ⟨id, hre⟩
  cases op <;> first
    | exact Bool.false_ne_true hre
    | exact h.elim (fun _ h => h.elim fun _ h => h.elim fun _ h => h)

/-- A change that is noticed while its row is dead is not marked seen, and the row stays. -/
theorem waits_while_dead (watch : Watch) (release : Release) (os : Nat → Oracle)
    (hone : OneRow s.db) (h : DeadRow s.db watch.provider.id release.id) (y : String) :
    Untouched watch.provider.id y s.db
      (alone machine w (deliver_release watch release) os s).2.1.db := by
  have hhandled : Handled False watch.provider.id release s.db
      (alone machine w (deliver_release watch release) os s).1
      (alone machine w (deliver_release watch release) os s).2.1.db :=
    alone_by_itself os (fun h => h.elim) (safe_deliver_release release)
  exact hhandled.dead (allDead_of_oneRow hone h) y

/-- A change that is noticed once its row is sent is enqueued. -/
theorem goes_out_once_sent (watch : Watch) (release : Release) {os : Nat → Oracle}
    (hos : ∀ n, (os n).fails = none) (hone : OneRow s.db) {r : OutboxRow}
    (hr : s.db.parent id = some r) (hsrc : r.source_id = watch.provider.id)
    (hid : r.identity = release.id) (hst : r.status = .sent) :
    Held (alone machine w (deliver_release watch release) os s).2.1.db watch.provider.id
      release.id release.content_fingerprint := by
  have henqueue : ∀ (deliver_after : Option DateTime) (os : Nat → Oracle) (t : World),
      (∀ n, (os n).fails = none) → t.db = s.db →
      Held (alone machine w (deliver_deferred watch release deliver_after) os t).2.1.db
        watch.provider.id release.id release.content_fingerprint := by
    intro deliver_after os t hos ht
    have hheld : Held (alone machine w (try_enqueue_notification (event_of watch release)
        release.id (meta_of release deliver_after)) os t).2.1.db watch.provider.id release.id
        release.content_fingerprint := by
      have hr' : t.db.parent id = some r := by rw [ht, hr]
      exact enqueued_once_sent hos (by rw [ht]; exact hone) hr' hsrc hid hst rfl
    simp only [deliver_deferred, bind_eq]
    rw [alone_bind]
    rcases hout : alone machine w (try_enqueue_notification (event_of watch release) release.id
      (meta_of release deliver_after)) os t with ⟨res, t', os'⟩
    rw [hout] at hheld
    cases res with
    | error e => exact hheld
    | ok enqueued =>
      cases enqueued with
      | none => exact hheld
      | some enqueued =>
        refine contents_alone (never_bind (never_perform (by simp [reopened])) (fun _ => ?_)) hheld
        exact walks.never_deliver_inline not_reopened_of_leases watch release enqueued
  rw [deliver_release_eq]
  unfold deliver_after_of
  cases watch.notify_schedule with
  | none => exact henqueue none os s hos rfl
  | some next_after =>
    have hnow : machine.exec w .utc_now (os 0) s = (.ok (os 0).utc_now, s.tick (os 0)) := rfl
    simp only [bind_eq, Prog.bind_assoc]
    rw [alone_call_ok os hnow]
    exact henqueue _ _ _ (fun n => hos (n + 1)) rfl

/-! ## The law -/

/-- The row of the content is sent, and so is its whole ledger. -/
def SentWhole (db : Db) (source_id identity digest : String) : Prop :=
  ∃ id r, db.parent id = some r ∧ r.source_id = source_id ∧ r.identity = identity ∧
    r.content_digest = some digest ∧ r.status = .sent ∧
    ∀ i k, db.sink id i = some k → k.status = .sent

/-- At some moment of the run the content was delivered. -/
def Delivered (p : Workers) (moves : List (Move Oracle Outside))
    (source_id identity digest : String) : Prop :=
  ∃ before after, moves = before ++ after ∧
    SentWhole (p.run machine before).state.db source_id identity digest

/-- The move takes a baseline that has this content. -/
def TakesBaseline (p : Workers) (m : Move Oracle Outside) (source_id identity digest : String) :
    Prop :=
  match m with
  | .work w o =>
    match p.worker w with
    | .call op _ => baselines_content op o source_id identity digest
    | .done _ => False
    | .fail _ => False
  | .crash _ => False
  | .outside _ => False

/-- At some moment of the run the content was recorded by a baseline. -/
def WasBaseline (p : Workers) (moves : List (Move Oracle Outside))
    (source_id identity digest : String) : Prop :=
  ∃ before m after, moves = before ++ m :: after ∧
    TakesBaseline (p.run machine before) m source_id identity digest

/-- The content stands in a row that is in flight, or that was given up. -/
def InFlightOrDead (db : Db) (source_id identity digest : String) : Prop :=
  ∃ id r, db.parent id = some r ∧ r.source_id = source_id ∧ r.identity = identity ∧
    r.content_digest = some digest ∧ (r.status.retryable = true ∨ r.status = .dead)

/-- No claim takes a row on which an attempt is under way, and no enqueue finds the row in flight
with another content. -/
def Orderly (p : Workers) (m : Move Oracle Outside) : Prop :=
  NoOverlap p m ∧ onCalls (fun w op _ s => BringsWhatIsInFlight w op s) p m

/-- What is seen was delivered, stands in the outbox or was a baseline. -/
def SeenIsAccountedFor (p : Workers) (moves : List (Move Oracle Outside)) : Prop :=
  ∀ a x d, Marked (p.run machine moves).state.db a x d →
    Delivered p moves a x d ∨ InFlightOrDead (p.run machine moves).state.db a x d ∨
      WasBaseline p moves a x d

/-- A change that is noticed while its row is dead is not marked seen and leaves the row, so that
it is noticed again; and one that is noticed once the row is sent is enqueued. -/
structure ChangesGoOut (s : World) : Prop where
  while_dead : ∀ w watch release os, DeadRow s.db watch.provider.id release.id → ∀ y,
    Untouched watch.provider.id y s.db
      (alone machine w (deliver_release watch release) os s).2.1.db
  once_sent : ∀ w watch release (os : Nat → Oracle), (∀ n, (os n).fails = none) →
    ∀ id r, s.db.parent id = some r → r.source_id = watch.provider.id →
      r.identity = release.id → r.status = .sent →
      Held (alone machine w (deliver_release watch release) os s).2.1.db watch.provider.id
        release.id release.content_fingerprint

theorem sent_is_complete_run {jobs : Nat → Job} {notifiers : Notifier}
    {moves : List (Move Oracle Outside)}
    (h : Along machine Orderly (fresh jobs now notifiers) moves) :
    SentIsComplete ((fresh jobs now notifiers).run machine moves).state.db :=
  complete_of_kept (kept_run (along_mono (fun _ _ hm => permits_of_noOverlap hm.1) h))

theorem what_is_seen_is_accounted_for (jobs : Nat → Job) (now : DateTime) (notifiers : Notifier)
    (moves : List (Move Oracle Outside))
    (h : Along machine Orderly (fresh jobs now notifiers) moves) :
    SeenIsAccountedFor (fresh jobs now notifiers) moves ∧
      ChangesGoOut ((fresh jobs now notifiers).run machine moves).state := by
  set p := fresh jobs now notifiers with hp
  set past : String → String → String → Prop := fun a x d =>
    Delivered p moves a x d ∨ WasBaseline p moves a x d with hpast
  -- wherever a sent row is reopened or a baseline is taken, the run remembers it
  have hpermits : Along machine (terms past).Permits p moves := by
    rw [along_iff]
    intro before m after heq
    have hbefore : Along machine Orderly p before := by
      rw [heq] at h
      exact (along_append.mp h).1
    have hm : Orderly (p.run machine before) m := by
      rw [heq] at h
      exact (along_append.mp h).2.1
    have hcomplete := sent_is_complete_run hbefore
    cases m with
    | crash w => trivial
    | outside e => trivial
    | work w o =>
      have hbrings := hm.2
      simp only [onCalls] at hbrings
      simp only [Permits]
      split
      · rename_i op next hw
        rw [hw] at hbrings
        refine ⟨hbrings, fun a x d hb => Or.inr ⟨before, _, after, heq, ?_⟩, ?_⟩
        · simp only [TakesBaseline, hw]
          exact hb
        · rintro a x d ⟨id, r, -, hr, hst, hsrc, hid, hd⟩
          exact Or.inl ⟨before, _, heq, id, r, hr, hsrc, hid, hd, hst, hcomplete id r hr hst⟩
      · trivial
      · trivial
  have hgood : (terms past).Good machine p := by
    refine ⟨?_, fun w => always_work (jobs w) _⟩
    intro a x d hm
    simp [hp, fresh, starting, World.start, Marked, Db.seen, Db.empty] at hm
  have hinv := (good_run (terms_sound past) hgood hpermits).inv
  constructor
  · intro a x d hm
    rcases hinv a x d hm with (hdelivered | hbaseline) | ⟨id, r, hr, hsrc, hid, hd⟩
    · exact Or.inl hdelivered
    · exact Or.inr (Or.inr hbaseline)
    · cases hst : r.status with
      | pending => exact Or.inr (Or.inl ⟨id, r, hr, hsrc, hid, hd, Or.inl (by rw [hst]; rfl)⟩)
      | failed => exact Or.inr (Or.inl ⟨id, r, hr, hsrc, hid, hd, Or.inl (by rw [hst]; rfl)⟩)
      | dead => exact Or.inr (Or.inl ⟨id, r, hr, hsrc, hid, hd, Or.inr hst⟩)
      | sent =>
        exact Or.inl ⟨moves, [], (List.append_nil _).symm, id, r, hr, hsrc, hid, hd, hst,
          sent_is_complete_run h id r hr hst⟩
  · have hone := etag.oneRow_run jobs now notifiers moves
    exact ⟨fun w watch release os hdead y => waits_while_dead watch release os hone hdead y,
      fun w watch release os hos id r hr hsrc hid hst =>
        goes_out_once_sent watch release hos hone hr hsrc hid hst⟩

instance {β : Type} (w : Nat) (op : Call β) (s : World) :
    Decidable (BringsWhatIsInFlight w op s) := by
  apply Call.casesOn (motive := fun _ op => Decidable (BringsWhatIsInFlight w op s)) op <;>
    intros <;> dsimp only [BringsWhatIsInFlight] <;> infer_instance

instance {β : Type} (op : Call β) (o : Oracle) (a x d : String) :
    Decidable (baselines_content op o a x d) := by
  apply Call.casesOn (motive := fun _ op => Decidable (baselines_content op o a x d)) op <;>
    intros <;> dsimp only [baselines_content] <;> infer_instance

instance (p : Workers) (m : Move Oracle Outside) (a x d : String) :
    Decidable (TakesBaseline p m a x d) := by
  apply Move.casesOn (motive := fun m => Decidable (TakesBaseline p m a x d)) m
  · intro w o
    dsimp only [TakesBaseline]
    apply Prog.casesOn (motive := fun program => Decidable (match program with
      | .call op _ => baselines_content op o a x d
      | .done _ => False
      | .fail _ => False)) (p.worker w) <;> intros <;> dsimp only <;> infer_instance
  · intro w
    dsimp only [TakesBaseline]
    infer_instance
  · intro e
    dsimp only [TakesBaseline]
    infer_instance

instance (p : Workers) (m : Move Oracle Outside) : Decidable (Orderly p m) :=
  inferInstanceAs (Decidable (NoOverlap p m ∧
    onCalls (fun w op _ s => BringsWhatIsInFlight w op s) p m))

/-! ### A row that is given up -/

/-- What was delivered, what is in flight or what a baseline recorded: nothing else is seen. -/
def NoUpdateIsLost (p : Workers) (moves : List (Move Oracle Outside)) : Prop :=
  ∀ a x d, Marked (p.run machine moves).state.db a x d →
    Delivered p moves a x d ∨
      (∃ id r, (p.run machine moves).state.db.parent id = some r ∧ r.source_id = a ∧
        r.identity = x ∧ r.content_digest = some d ∧ r.status.retryable = true) ∨
      WasBaseline p moves a x d

/-- A release with these notes. -/
def noted (notes : String) : Release := (Release.new "v2").with_body (some notes)

/-- Worker 0 takes the baseline, worker 1 gets the release, the flushes follow, and worker 2 sweeps
up what is exhausted. -/
def flushed_often : Nat → Job
  | 0 => .push [watch] (Release.new "v1")
  | 1 => .push [watch] (noted "first notes")
  | 2 => .sweep
  | _ => .flush 1

/-- Two hours later, the row is due again. -/
def two_hours_on (w : Nat) : List (Move Oracle Outside) :=
  .work w { elapsed := 7200000000 } :: turns w 7

/-- No sink takes the release; a failed attempt without a sink counts twice. -/
def given_up : List (Move Oracle Outside) :=
  turns 0 5 ++ turns 1 20 ++ (List.range 24).flatMap (fun i => two_hours_on (i + 3)) ++ turns 2 1

/-- No row has the status. -/
def none_is (db : Db) (status : Status) : Bool :=
  !db.notification_outbox.any (fun _ r => r.status = status)

theorem not_of_none_is {db : Db} {status : Status} (h : none_is db status = true) {r : OutboxRow}
    (hr : db.parent id = some r) : r.status ≠ status := by
  intro hstatus
  have hany : db.notification_outbox.any (fun _ r => r.status = status) = true :=
    (Table.any_iff _ _).mpr ⟨id, r, hr, by simp [hstatus]⟩
  simp [none_is, hany] at h

/-- The content is seen, and its row is kept as a dead letter for the operator. -/
theorem a_given_up_row_is_not_pending : ¬ NoUpdateIsLost (fresh flushed_often 0 []) given_up := by
  intro h
  have hseen : (((fresh flushed_often 0 []).run machine given_up).state.db.seen
      repo.id "v2").map (·.content_digest) =
      some (some (noted "first notes").content_fingerprint) := by
    decide +kernel
  have hsteps : Along machine (fun p m => none_is p.state.db .sent = true ∧
        ¬ TakesBaseline p m repo.id "v2" (noted "first notes").content_fingerprint)
      (fresh flushed_often 0 []) given_up := by
    decide +kernel
  have hend : none_is ((fresh flushed_often 0 []).run machine given_up).state.db .sent = true ∧
      none_is ((fresh flushed_often 0 []).run machine given_up).state.db .pending = true ∧
      none_is ((fresh flushed_often 0 []).run machine given_up).state.db .failed = true := by
    decide +kernel
  rw [along_iff] at hsteps
  rcases h repo.id "v2" _ hseen with ⟨before, after, heq, id, r, hr, -, -, -, hsent, -⟩ |
    ⟨id, r, hr, -, -, -, hopen⟩ | ⟨before, m, after, heq, hbaseline⟩
  · cases after with
    | nil =>
      rw [List.append_nil] at heq
      rw [← heq] at hr
      exact not_of_none_is hend.1 hr hsent
    | cons m after => exact not_of_none_is (hsteps before m after heq).1 hr hsent
  · cases hstatus : r.status with
    | pending => exact not_of_none_is hend.2.1 hr hstatus
    | failed => exact not_of_none_is hend.2.2 hr hstatus
    | sent => exact not_of_none_is hend.1 hr hstatus
    | dead => simp [hstatus, Status.retryable] at hopen
  · exact (hsteps before m after heq).2 hbaseline

/-- Worker 0 takes the baseline, the others get the release with two contents. -/
def noted_twice : Nat → Job
  | 0 => .push [watch] (Release.new "v1")
  | 1 => .push [watch] (noted "first notes")
  | 2 => .push [watch] (noted "other notes")
  | _ => .idle

/-- With the change after the delivery, the run is orderly. -/
theorem what_is_seen_is_accounted_for_here :
    SeenIsAccountedFor (fresh noted_twice 0 [hook]) (turns 0 5 ++ turns 1 20 ++ turns 2 22) ∧
      ChangesGoOut ((fresh noted_twice 0 [hook]).run machine
        (turns 0 5 ++ turns 1 20 ++ turns 2 22)).state :=
  what_is_seen_is_accounted_for noted_twice 0 [hook] _ (by decide +kernel)

end xrelease.updates
