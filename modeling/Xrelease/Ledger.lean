-- What every store call keeps of the outbox and its sink ledger, when no claim takes a row on
-- which an attempt is under way: a sent parent has only sent sinks, a retryable sink has a
-- parent that can still be claimed, and a ledger row means one notifier.
import Xrelease.Leases

namespace xrelease.ledger

open xrelease.model xrelease.store xrelease.engine xrelease.outbox xrelease.pipeline
open xrelease.leases keyed calls

/-! ## The invariant -/

def sentAt (db : Db) (id i : Nat) : Bool := (db.sink id i).any (fun k => k.status = .sent)

/-- The ledger still wants the sink to have the row. -/
def wantedAt (db : Db) (id i : Nat) : Bool := (db.sink id i).any (fun k => k.status.retryable)

def hasAt (db : Db) (id i : Nat) : Bool := (db.sink id i).isSome

/-- The parent is not sent, and dead only when its own attempts are used up. -/
def Alive (db : Db) (id : Nat) : Prop :=
  ∃ r, db.parent id = some r ∧ r.status ≠ .sent ∧
    (r.status = .dead → OUTBOX_MAX_ATTEMPTS ≤ r.attempts)

/-- A ledger row made for `n` stands at an index where the list has `n` or nothing. -/
def Fits (n : Option Sink) (l : Notifier) (i : Nat) : Prop :=
  n.isSome ∧ ∀ r, l[i]? = some r → n = some r.inner

/-- Two lists have the same notifier wherever both have one. -/
def Agree (l l' : Notifier) : Prop :=
  ∀ (i : Nat) (a c : RoutedSink), l[i]? = some a → l'[i]? = some c → a.inner = c.inner

/-- A list that deliveries go by: the live one, or one that an attempt holds. -/
def InForce (b : Book) (live l : Notifier) : Prop := l = live ∨ ∃ v, b.snapshot v = some l

/-- A successful send of the row to the notifier that its ledger row was made for. -/
def Acked (b : Book) (id i : Nat) : Prop :=
  ∃ x ∈ b.sends, id ∈ x.rows ∧ x.ok = true ∧ b.made_for id i = some x.sink.inner

/-- The ledger goes by the notifiers it was made for. -/
structure Meaning (db : Db) (b : Book) (live : Notifier) : Prop where
  fits : ∀ id i, hasAt db id i = true → sentAt db id i = false →
    ∀ l, InForce b live l → Fits (b.made_for id i) l i
  agree : ∀ l l', InForce b live l → InForce b live l' → Agree l l'
  acked : ∀ id i, sentAt db id i = true → Acked b id i
  retried : ∀ x ∈ b.sends, ∀ id ∈ x.open_rows,
    hasAt db id x.index = true ∧ b.made_for id x.index = some x.sink.inner

/-- What holds between any two calls. `calm` runs have no requeue in the middle of an attempt,
and in `fixed` runs no config apply moves a notifier that the ledger refers to. -/
structure Kept (calm fixed : Prop) (db : Db) (b : Book) (live : Notifier) : Prop where
  attempt_open : ∀ id w, b.attempt id = some w → ∃ r, db.parent id = some r ∧ r.status ≠ .sent
  sent_all : ∀ id r, db.parent id = some r → r.status = .sent →
    ∀ i, hasAt db id i = true → sentAt db id i = true
  not_stranded : calm → ∀ id i, wantedAt db id i = true → Alive db id
  sends_open : ∀ x ∈ b.sends, x.open_rows ≠ []
  meaning : fixed → Meaning db b live

/-- What a worker counts on for a row of its own while others move. -/
structure RowKept (calm : Prop) (v j : Nat) (db : Db) (b : Book) (db' : Db) (b' : Book) : Prop where
  own : b'.attempt j = some v
  has : ∀ i, hasAt db' j i = hasAt db j i
  sent : ∀ i, sentAt db' j i = sentAt db j i
  wanted : calm → ∀ i, wantedAt db' j i = true → wantedAt db j i = true
  alive : Alive db j → Alive db' j
  made : ∀ i, hasAt db j i = true → b'.made_for j i = b.made_for j i

/-- The rows of a worker are kept, but for the listed ones, and no send is forgotten. -/
structure Others (calm : Prop) (v : Nat) (ids : List Nat) (db : Db) (b : Book) (db' : Db)
    (b' : Book) : Prop where
  rows : ∀ j, j ∉ ids → b.attempt j = some v → RowKept calm v j db b db' b'
  sends : ∀ x ∈ b.sends, x ∈ b'.sends

/-- Sent is final but for a reopen of the row. -/
structure Final (reopened : Nat → Bool) (db db' : Db) : Prop where
  parent : ∀ id r, db.parent id = some r → r.status = .sent → reopened id = false →
    ∃ r', db'.parent id = some r' ∧ r'.status = .sent
  sink : ∀ id i, sentAt db id i = true → reopened id = false → sentAt db' id i = true

variable {calm fixed : Prop}

theorem RowKept.refl {v j : Nat} {db : Db} {b : Book} (h : b.attempt j = some v) :
    RowKept calm v j db b db b :=
  ⟨h, fun _ => rfl, fun _ => rfl, fun _ _ h => h, fun h => h, fun _ _ => rfl⟩

theorem RowKept.trans {v j : Nat} {db₁ db₂ db₃ : Db} {b₁ b₂ b₃ : Book}
    (h : RowKept calm v j db₁ b₁ db₂ b₂) (h' : RowKept calm v j db₂ b₂ db₃ b₃) :
    RowKept calm v j db₁ b₁ db₃ b₃ where
  own := h'.own
  has := fun i => (h'.has i).trans (h.has i)
  sent := fun i => (h'.sent i).trans (h.sent i)
  wanted := fun hc i hw => h.wanted hc i (h'.wanted hc i hw)
  alive := fun ha => h'.alive (h.alive ha)
  made := fun i hi => (h'.made i ((h.has i).trans hi)).trans (h.made i hi)

theorem Others.refl (v : Nat) (ids : List Nat) (db : Db) (b : Book) :
    Others calm v ids db b db b :=
  ⟨fun _ _ h => RowKept.refl h, fun _ h => h⟩

theorem Others.trans {v : Nat} {ids : List Nat} {db₁ db₂ db₃ : Db} {b₁ b₂ b₃ : Book}
    (h : Others calm v ids db₁ b₁ db₂ b₂) (h' : Others calm v ids db₂ b₂ db₃ b₃) :
    Others calm v ids db₁ b₁ db₃ b₃ where
  rows := fun j hj ho => (h.rows j hj ho).trans (h'.rows j hj (h.rows j hj ho).own)
  sends := fun x hx => h'.sends x (h.sends x hx)

theorem Others.mono {v : Nat} {ids ids' : List Nat} {db db' : Db} {b b' : Book}
    (h : Others calm v ids db b db' b') (hs : ∀ j ∈ ids, j ∈ ids') :
    Others calm v ids' db b db' b' :=
  ⟨fun j hj ho => h.rows j (fun hm => hj (hs j hm)) ho, h.sends⟩

/-- A row whose parent and ledger a step does not touch. -/
theorem rowKept_of_same {v j : Nat} {db db' : Db} {b b' : Book} (ho : b'.attempt j = some v)
    (hp : db'.parent j = db.parent j) (hs : ∀ i, db'.sink j i = db.sink j i)
    (hm : ∀ i, hasAt db j i = true → b'.made_for j i = b.made_for j i) :
    RowKept calm v j db b db' b' where
  own := ho
  has := fun i => by simp [hasAt, hs i]
  sent := fun i => by simp [sentAt, hs i]
  wanted := fun _ i hw => by simpa [wantedAt, hs i] using hw
  alive := fun ha => by simpa [Alive, hp] using ha
  made := hm

/-- A row of which a step touches the parent only, and not so that it dies early. -/
theorem rowKept_of_parent {v j : Nat} {db db' : Db} {b b' : Book} (ho : b'.attempt j = some v)
    (ha : Alive db j → Alive db' j) (hs : ∀ i, db'.sink j i = db.sink j i)
    (hm : b'.made_for = b.made_for) : RowKept calm v j db b db' b' where
  own := ho
  has := fun i => by simp [hasAt, hs i]
  sent := fun i => by simp [sentAt, hs i]
  wanted := fun _ i hw => by simpa [wantedAt, hs i] using hw
  alive := ha
  made := fun i _ => by rw [hm]

/-! ## What a call needs -/

/-- What a worker must know to make a call: it may settle only rows whose attempt is its own,
fail only what is not sent, complete only what was acknowledged. -/
def Ready (calm fixed : Prop) {β : Type} (w : Nat) (op : Call β) (db : Db) (b : Book) : Prop :=
  match op with
  | .fail_notification id _ => b.attempt id = some w
  | .ensure_sink_deliveries id sinks =>
    b.attempt id = some w ∧ Alive db id ∧
      ∃ l, b.snapshot w = some l ∧ ∀ x ∈ sinks, x.1 < l.length
  | .complete_sink_delivery id i => b.attempt id = some w ∧ (fixed → Acked b id i)
  | .fail_sink_delivery id i _ => b.attempt id = some w ∧ sentAt db id i = false ∧ Alive db id
  | .abandon_retryable_sinks id _ _ => b.attempt id = some w
  | .mark_outbox_dead id =>
    b.attempt id = some w ∧ (calm → ∀ i, wantedAt db id i = false)
  | .complete_notification id _ _ =>
    b.attempt id = some w ∧ ∀ i, hasAt db id i = true → sentAt db id i = true
  | .notify rows i sink _ =>
    (∃ id ∈ rows, sentAt db id i = false) ∧ (∀ id ∈ rows, hasAt db id i = true) ∧
      ∃ l, b.snapshot w = some l ∧ l[i]? = some sink
  | _ => True

/-- What the run grants: no claim of a row on which an attempt is under way. -/
def Apart {β : Type} (op : Call β) (o : Oracle) (s : World) : Prop :=
  ∀ id ∈ takes op o s, s.book.attempt id = none

/-- No requeue of a row on which an attempt is under way. -/
def Calm {β : Type} (op : Call β) (s : World) : Prop :=
  match op with
  | .requeue_dead_outbox =>
    ∀ kr ∈ s.db.notification_outbox.select (fun _ r => r.status = .dead),
      s.book.attempt kr.1 = none
  | _ => True

/-- The ledger rows of a row that is reopened mean the notifiers in force. -/
def ReopenFits {β : Type} (op : Call β) (s : World) : Prop :=
  match op with
  | .reopen_outbox _ _ id =>
    ∀ i, hasAt s.db id i = true → ∀ l, InForce s.book s.notifiers l →
      Fits (s.book.made_for id i) l i
  | _ => True

/-- A config apply puts no other notifier where a ledger row that is not sent, or an attempt
under way, refers to one. -/
def SwapFits (notifiers : Notifier) (s : World) : Prop :=
  (∀ v l, s.book.snapshot v = some l → Agree notifiers l) ∧
    ∀ id i, hasAt s.db id i = true → sentAt s.db id i = false →
      Fits (s.book.made_for id i) notifiers i

/-- The rows that a call reopens. -/
def reopened {β : Type} (op : Call β) (id : Nat) : Bool :=
  match op with
  | .reopen_outbox _ _ j => id = j
  | _ => false

/-! ## Views of the statements -/

section Views

variable (db : Db) (now : DateTime) (id j i : Nat)

theorem parent_other {p : Nat → OutboxRow → Bool} {f : OutboxRow → OutboxRow}
    (hp : ∀ r, p j r = false) : (db.updateOutbox p f).parent j = db.parent j := by
  rw [Db.parent_updateOutbox]
  cases db.parent j with
  | none => rfl
  | some r => simp [hp r]

theorem sink_other {p : Nat → Nat → SinkRow → Bool} {f : SinkRow → SinkRow}
    (hp : ∀ k, p j i k = false) : (db.updateSinks p f).sink j i = db.sink j i := by
  rw [Db.sink_updateSinks]
  cases db.sink j i with
  | none => rfl
  | some k => simp [hp k]

theorem hasAt_updateSinks (p : Nat → Nat → SinkRow → Bool) (f : SinkRow → SinkRow) :
    hasAt (db.updateSinks p f) j i = hasAt db j i := by
  simp [hasAt]

theorem hasAt_of_sentAt {db : Db} {j i : Nat} (h : sentAt db j i = true) : hasAt db j i = true := by
  unfold sentAt at h
  unfold hasAt
  cases hk : db.sink j i with
  | none => simp [hk] at h
  | some k => rfl

theorem not_wanted_of_sent {db : Db} {j i : Nat} (h : sentAt db j i = true) :
    wantedAt db j i = false := by
  unfold sentAt at h
  unfold wantedAt
  cases hk : db.sink j i with
  | none => rfl
  | some k =>
    rw [hk, Option.any_some, decide_eq_true_eq] at h
    simp [h, Status.retryable]

theorem parent_insert_eq (event : Event) (identity : String) (om : OutboxMeta) {r : OutboxRow}
    (h : (insert_outbox db now event identity om).2.parent j = some r) :
    db.parent j = some r ∨ db.parent j = none ∧ r.status = .pending ∧ r.attempts = 0 := by
  unfold insert_outbox at h
  split at h
  · exact Or.inl h
  · simp only [Db.parent] at h ⊢
    rw [Serial.get_insert] at h
    split at h
    · rename_i hj
      obtain rfl := Option.some.inj h
      exact Or.inr ⟨by rw [hj]; exact Serial.get_next _, rfl, rfl⟩
    · exact Or.inl h

theorem alive_insert (event : Event) (identity : String) (om : OutboxMeta) (h : Alive db j) :
    Alive (insert_outbox db now event identity om).2 j := by
  obtain ⟨r, hr, h⟩ := h
  exact ⟨r, parent_insert_outbox db now j event identity om hr, h⟩

end Views

/-! ## What a step keeps -/

/-- One step of worker `w`, which settles at most the rows `ids` and reopens the rows `re`. -/
structure Step (calm fixed : Prop) (w : Nat) (ids : List Nat) (re : Nat → Bool) (db : Db)
    (b : Book) (live : Notifier) (db' : Db) (b' : Book) : Prop where
  kept : Kept calm fixed db' b' live
  others : ∀ v, v ≠ w → Others calm v [] db b db' b'
  own : Others calm w ids db b db' b'
  final : Final re db db'
  snapshot : ∀ v, v ≠ w → b'.snapshot v = b.snapshot v

variable {w : Nat} {ids : List Nat} {re : Nat → Bool} {db db' : Db} {b b' : Book}
  {live : Notifier}

theorem meaning_of_same (h : Meaning db b live) (hs : ∀ id i, db'.sink id i = db.sink id i)
    (hmade : b'.made_for = b.made_for) (hsends : b'.sends = b.sends)
    (hsnap : ∀ l, InForce b' live l → InForce b live l) : Meaning db' b' live where
  fits := by
    intro id i hhas hsent l hl
    rw [hmade]
    exact h.fits id i (by simpa [hasAt, hs] using hhas) (by simpa [sentAt, hs] using hsent) l
      (hsnap l hl)
  agree := fun l l' hl hl' => h.agree l l' (hsnap l hl) (hsnap l' hl')
  acked := by
    intro id i hsent
    obtain ⟨x, hx, hrow, hok, hm⟩ := h.acked id i (by simpa [sentAt, hs] using hsent)
    exact ⟨x, hsends ▸ hx, hrow, hok, hmade ▸ hm⟩
  retried := by
    intro x hx id hid
    obtain ⟨hh, hm⟩ := h.retried x (hsends ▸ hx) id hid
    exact ⟨by simpa [hasAt, hs] using hh, hmade ▸ hm⟩

/-- A step that writes parents only. -/
theorem step_parent (h : Kept calm fixed db b live) (hs : ∀ id i, db'.sink id i = db.sink id i)
    (hmade : b'.made_for = b.made_for) (hsnap : b'.snapshot = b.snapshot)
    (hsends : b'.sends = b.sends)
    (hopen : ∀ id v, b'.attempt id = some v → ∃ r, db'.parent id = some r ∧ r.status ≠ .sent)
    (hsent : ∀ id r, db'.parent id = some r → r.status = .sent →
      ∀ i, hasAt db id i = true → sentAt db id i = true)
    (halive : calm → ∀ id i, wantedAt db id i = true → Alive db' id)
    (hrows : ∀ v j, b.attempt j = some v → (v = w → j ∉ ids) →
      b'.attempt j = some v ∧ (Alive db j → Alive db' j))
    (hfinal : ∀ id r, db.parent id = some r → r.status = .sent →
      ∃ r', db'.parent id = some r' ∧ r'.status = .sent) :
    Step calm fixed w ids re db b live db' b' where
  kept := {
    attempt_open := hopen
    sent_all := by
      intro id r hr hst i hi
      have h' := hsent id r hr hst i (by simpa [hasAt, hs] using hi)
      simpa [sentAt, hs] using h'
    not_stranded := fun hc id i hw => halive hc id i (by simpa [wantedAt, hs] using hw)
    sends_open := fun x hx => h.sends_open x (hsends ▸ hx)
    meaning := fun hf => meaning_of_same (h.meaning hf) hs hmade hsends
      (fun l hl => by simpa [InForce, hsnap] using hl) }
  others := by
    intro v hv
    refine ⟨?_, fun x hx => hsends ▸ hx⟩
    intro j _ ho
    obtain ⟨ho', ha⟩ := hrows v j ho (fun he => absurd he hv)
    exact rowKept_of_parent ho' ha (hs j) hmade
  own := by
    refine ⟨?_, fun x hx => hsends ▸ hx⟩
    intro j hj ho
    obtain ⟨ho', ha⟩ := hrows w j ho (fun _ => hj)
    exact rowKept_of_parent ho' ha (hs j) hmade
  final := {
    parent := fun id r hr hst _ => hfinal id r hr hst
    sink := fun id i hi _ => by simpa [sentAt, hs] using hi }
  snapshot := fun v _ => by rw [hsnap]

/-- A step that leaves parents and ledger alone. -/
theorem step_quiet (h : Kept calm fixed db b live) (hp : ∀ id, db'.parent id = db.parent id)
    (hs : ∀ id i, db'.sink id i = db.sink id i) (hatt : b'.attempt = b.attempt)
    (hmade : b'.made_for = b.made_for) (hsnap : b'.snapshot = b.snapshot)
    (hsends : b'.sends = b.sends) : Step calm fixed w ids re db b live db' b' := by
  have halive : ∀ j, Alive db j → Alive db' j := by
    intro j ha
    simpa [Alive, hp] using ha
  refine step_parent h hs hmade hsnap hsends ?_ ?_ ?_ ?_ ?_
  · intro id v hv
    obtain ⟨r, hr, hst⟩ := h.attempt_open id v (hatt ▸ hv)
    exact ⟨r, (hp id).trans hr, hst⟩
  · intro id r hr hst
    exact h.sent_all id r ((hp id).symm.trans hr) hst
  · intro hc id i hw
    exact halive id (h.not_stranded hc id i hw)
  · intro v j ho _
    exact ⟨hatt ▸ ho, halive j⟩
  · intro id r hr hst
    exact ⟨r, (hp id).trans hr, hst⟩

/-- An update of parents that neither sends a row nor takes `sent` away, and kills only rows
whose attempts are used up. -/
def Mild (db : Db) (p : Nat → OutboxRow → Bool) (f : OutboxRow → OutboxRow) : Prop :=
  ∀ id r, db.parent id = some r → p id r = true →
    ((f r).status = .sent ↔ r.status = .sent) ∧
      ((f r).status = .dead → (r.status = .dead → OUTBOX_MAX_ATTEMPTS ≤ r.attempts) →
        OUTBOX_MAX_ATTEMPTS ≤ (f r).attempts)

variable {p : Nat → OutboxRow → Bool} {f : OutboxRow → OutboxRow} {id : Nat} {s : World}

theorem status_mild (hm : Mild db p f) {r : OutboxRow} (hr : db.parent id = some r) :
    ∃ r', (db.updateOutbox p f).parent id = some r' ∧ (r'.status = .sent ↔ r.status = .sent) := by
  refine ⟨if p id r then f r else r, by simp [hr], ?_⟩
  by_cases hp : p id r = true
  · simpa [hp] using (hm id r hr hp).1
  · simp [hp]

theorem alive_mild (hm : Mild db p f) (h : Alive db id) : Alive (db.updateOutbox p f) id := by
  obtain ⟨r, hr, hs, hd⟩ := h
  refine ⟨if p id r then f r else r, by simp [hr], ?_⟩
  by_cases hp : p id r = true
  · obtain ⟨hst, hdead⟩ := hm id r hr hp
    simp only [hp, if_true]
    exact ⟨fun he => hs (hst.mp he), fun hf => hdead hf hd⟩
  · simp only [hp]
    exact ⟨hs, hd⟩

/-- A mild update; new attempts begin only on rows that are not sent. -/
theorem step_mild (h : Kept calm fixed db b live) (hm : Mild db p f)
    (hmade : b'.made_for = b.made_for) (hsnap : b'.snapshot = b.snapshot)
    (hsends : b'.sends = b.sends) (hnew : ∀ id v, b'.attempt id = some v →
      b.attempt id = some v ∨ ∃ r, db.parent id = some r ∧ r.status ≠ .sent)
    (hold : ∀ id v, b.attempt id = some v → b'.attempt id = some v) :
    Step calm fixed w ids re db b live (db.updateOutbox p f) b' := by
  refine step_parent h (fun _ _ => rfl) hmade hsnap hsends ?_ ?_ ?_ ?_ ?_
  · intro id v hv
    have hopen : ∃ r, db.parent id = some r ∧ r.status ≠ .sent := by
      rcases hnew id v hv with ho | ho
      · exact h.attempt_open id v ho
      · exact ho
    obtain ⟨r, hr, hst⟩ := hopen
    obtain ⟨r', hr', hst'⟩ := status_mild hm hr
    exact ⟨r', hr', fun he => hst (hst'.mp he)⟩
  · intro id r' hr' hst'
    rw [Db.parent_updateOutbox, Option.map_eq_some_iff] at hr'
    obtain ⟨r, hr, hrr⟩ := hr'
    obtain ⟨r'', hr'', hst⟩ := status_mild hm hr
    rw [Db.parent_updateOutbox, hr, Option.map_some, hrr] at hr''
    obtain rfl := Option.some.inj hr''
    exact h.sent_all id r hr (hst.mp hst')
  · intro hc id i hw
    exact alive_mild hm (h.not_stranded hc id i hw)
  · intro v j ho _
    exact ⟨hold j v ho, alive_mild hm⟩
  · intro id r hr hst
    obtain ⟨r', hr', hst'⟩ := status_mild hm hr
    exact ⟨r', hr', hst'.mpr hst⟩

/-! ## Steps on the parent -/

theorem mild_of_status (hst : ∀ r, (f r).status = r.status)
    (hatt : ∀ r, r.attempts ≤ (f r).attempts) :
    Mild db p f := by
  intro id r _ _
  rw [hst]
  exact ⟨Iff.rfl, fun hd hcap => le_trans (hcap hd) (hatt r)⟩

section

variable (h : Kept calm fixed db b live)

include h

theorem step_fail_notification (error : String)
    (ho : b.attempt id = some w) :
    Step calm fixed w ids re db b live (fail_notification db id error).2 b := by
  refine step_mild h ?_ rfl rfl rfl (fun _ _ hv => Or.inl hv) (fun _ _ hv => hv)
  intro j r hr hj
  obtain rfl : j = id := by simpa using hj
  obtain ⟨r', hr', hst⟩ := h.attempt_open j w ho
  obtain rfl := Option.some.inj (hr.symm.trans hr')
  by_cases hcap : r.attempts + 1 ≥ OUTBOX_MAX_ATTEMPTS
  · simp only [OutboxRow.spent, if_pos hcap, hst, iff_false]
    exact ⟨by simp, fun _ _ => hcap⟩
  · simp only [OutboxRow.spent, if_neg hcap, hst, iff_false]
    exact ⟨by simp, fun hd => absurd hd (by simp)⟩

theorem step_mark_failed (id : Nat) :
    Step calm fixed w ids re db b live (mark_outbox_failed db id) b := by
  refine step_mild h ?_ rfl rfl rfl (fun _ _ hv => Or.inl hv) (fun _ _ hv => hv)
  intro j r _ hj
  have hret : r.status.retryable = true := by simpa using (Bool.and_eq_true _ _ ▸ hj).2
  have hst : r.status ≠ .sent := by
    intro he
    simp [he, Status.retryable] at hret
  simp [hst]

theorem step_finalize :
    Step calm fixed w ids re db b live (finalize_exhausted_outbox db).2 b := by
  refine step_mild h ?_ rfl rfl rfl (fun _ _ hv => Or.inl hv) (fun _ _ hv => hv)
  intro j r _ hj
  simp only [Bool.and_eq_true, decide_eq_true_eq] at hj
  have hst : r.status ≠ .sent := by
    intro he
    simp [he, Status.retryable] at hj
  simp only [hst, iff_false]
  exact ⟨by simp, fun _ _ => hj.2⟩

/-- A write to the lock of rows, with or without one more attempt counted. -/
theorem step_lock (hst : ∀ r, (f r).status = r.status)
    (hatt : ∀ r, r.attempts ≤ (f r).attempts) (hb : b'.attempt = b.attempt)
    (hmade : b'.made_for = b.made_for) (hsnap : b'.snapshot = b.snapshot)
    (hsends : b'.sends = b.sends) :
    Step calm fixed w ids re db b live (db.updateOutbox p f) b' :=
  step_mild h (mild_of_status hst hatt) hmade hsnap hsends (fun _ _ hv => Or.inl (hb ▸ hv))
    (fun _ _ hv => hb ▸ hv)

end

/-- A claim of rows on which no attempt is under way. -/
theorem step_claim (h : Kept calm fixed s.db s.book live) (taken : List Nat) (until_ : DateTime)
    (hrows : ∀ id ∈ taken, ∃ r, s.db.parent id = some r ∧ r.status.retryable = true)
    (hfree : ∀ id ∈ taken, s.book.attempt id = none) :
    Step calm fixed w ids re s.db s.book live (s.db.updateOutbox p (·.leased until_))
      (s.claimed w taken until_).book := by
  refine step_mild h (mild_of_status (fun _ => rfl) (fun _ => le_refl _)) rfl rfl rfl ?_ ?_
  · intro id v hv
    by_cases hid : id ∈ taken
    · obtain ⟨r, hr, hret⟩ := hrows id hid
      refine Or.inr ⟨r, hr, ?_⟩
      intro he
      simp [he, Status.retryable] at hret
    · exact Or.inl (by simpa [World.claimed, hid] using hv)
  · intro id v hv
    have hid : id ∉ taken := by
      intro hid
      rw [hfree id hid] at hv
      exact absurd hv (by simp)
    simpa [World.claimed, hid] using hv

theorem step_mark_dead (h : Kept calm fixed db b live) (ho : b.attempt id = some w)
    (hnone : calm → ∀ i, wantedAt db id i = false) :
    Step calm fixed w [id] re db b live (mark_outbox_dead db id).2 b := by
  have hother : ∀ j, j ≠ id → (mark_outbox_dead db id).2.parent j = db.parent j :=
    fun j hj => parent_other db j (fun r => by simp [hj])
  have halive : ∀ j, j ≠ id → Alive db j → Alive (mark_outbox_dead db id).2 j := by
    intro j hj ha
    simpa [Alive, hother j hj] using ha
  have hst : ∀ j r', (mark_outbox_dead db id).2.parent j = some r' →
      ∃ r, db.parent j = some r ∧ (r'.status = .sent → j ≠ id ∧ r' = r) := by
    intro j r' hr'
    by_cases hj : j = id
    · simp only [mark_outbox_dead, Db.parent_updateOutbox, Option.map_eq_some_iff] at hr'
      obtain ⟨r, hr, hrr⟩ := hr'
      refine ⟨r, hr, ?_⟩
      intro he
      exfalso
      subst hrr
      by_cases hd : r.status = .dead
      · simp [hd] at he
      · simp [hj, hd] at he
    · exact ⟨r', (hother j hj).symm.trans hr', fun _ => ⟨hj, rfl⟩⟩
  refine step_parent h (fun _ _ => rfl) rfl rfl rfl ?_ ?_ ?_ ?_ ?_
  · intro j v hv
    obtain ⟨r, hr, hne⟩ := h.attempt_open j v hv
    by_cases hj : j = id
    · subst hj
      refine ⟨if r.status ≠ .dead then { r with status := .dead } else r, ?_, ?_⟩
      · simp [mark_outbox_dead, hr]
      · by_cases hd : r.status = .dead <;> simp [hd]
    · exact ⟨r, (hother j hj).trans hr, hne⟩
  · intro j r' hr' hsent
    obtain ⟨r, hr, hkeep⟩ := hst j r' hr'
    obtain ⟨_, rfl⟩ := hkeep hsent
    exact h.sent_all j r' hr hsent
  · intro hc j i hw
    have hj : j ≠ id := by
      intro he
      rw [he, hnone hc i] at hw
      exact absurd hw (by simp)
    exact halive j hj (h.not_stranded hc j i hw)
  · intro v j hv hout
    have hj : j ≠ id := by
      intro he
      subst he
      have hvw : v = w := Option.some.inj (hv.symm.trans ho)
      exact hout hvw (List.mem_singleton_self j)
    exact ⟨hv, halive j hj⟩
  · intro j r hr hsent
    have hj : j ≠ id := by
      intro he
      subst he
      obtain ⟨r', hr', hne⟩ := h.attempt_open j w ho
      obtain rfl := Option.some.inj (hr.symm.trans hr')
      exact hne hsent
    exact ⟨r, (hother j hj).trans hr, hsent⟩

theorem step_complete (h : Kept calm fixed s.db s.book live) (now : DateTime) (source_id : String)
    (seen : SeenUpsert) (ho : s.book.attempt id = some w)
    (hall : ∀ i, hasAt s.db id i = true → sentAt s.db id i = true) (hc : completes s.db id = true) :
    Step calm fixed w [id] re s.db s.book live
      (complete_notification s.db now id source_id seen).2 (s.through w [id]).book := by
  have hdb : (complete_notification s.db now id source_id seen).2 =
      write_seen_row (s.db.updateOutbox (fun j r => j = id && r.status.retryable) (·.completed now))
        now source_id seen := by
    simp [complete_notification, hc]
  rw [hdb]
  have hother : ∀ j, j ≠ id → (write_seen_row (s.db.updateOutbox
      (fun j r => j = id && r.status.retryable) (·.completed now)) now source_id seen).parent j =
        s.db.parent j := by
    intro j hj
    rw [parent_write_seen_row]
    exact parent_other s.db j (fun r => by simp [hj])
  have hatt : ∀ j v, (s.through w [id]).book.attempt j = some v →
      j ≠ id ∧ s.book.attempt j = some v := by
    intro j v hv
    by_cases hj : j = id
    · subst hj
      simp [World.through, ho] at hv
    · exact ⟨hj, by simpa [World.through, hj] using hv⟩
  refine step_parent h (fun _ _ => rfl) rfl rfl rfl ?_ ?_ ?_ ?_ ?_
  · intro j v hv
    obtain ⟨hj, hv⟩ := hatt j v hv
    obtain ⟨r, hr, hne⟩ := h.attempt_open j v hv
    exact ⟨r, (hother j hj).trans hr, hne⟩
  · intro j r hr hsent
    by_cases hj : j = id
    · subst hj
      exact hall
    · exact h.sent_all j r ((hother j hj).symm.trans hr) hsent
  · intro hcalm j i hw
    have hj : j ≠ id := by
      intro he
      subst he
      have hhas : hasAt s.db j i = true := by
        unfold wantedAt at hw
        unfold hasAt
        cases hk : s.db.sink j i with
        | none => simp [hk] at hw
        | some k => rfl
      rw [not_wanted_of_sent (hall i hhas)] at hw
      exact absurd hw (by simp)
    simpa [Alive, hother j hj] using h.not_stranded hcalm j i hw
  · intro v j hv hout
    have hj : j ≠ id := by
      intro he
      subst he
      have hvw : v = w := Option.some.inj (hv.symm.trans ho)
      exact hout hvw (List.mem_singleton_self j)
    refine ⟨by simpa [World.through, hj] using hv, ?_⟩
    intro ha
    simpa [Alive, hother j hj] using ha
  · intro j r hr hsent
    have hj : j ≠ id := by
      intro he
      subst he
      obtain ⟨r', hr', hne⟩ := h.attempt_open j w ho
      obtain rfl := Option.some.inj (hr.symm.trans hr')
      exact hne hsent
    exact ⟨r, (hother j hj).trans hr, hsent⟩

/-! ## Steps on the ledger of a row -/

section

variable (h : Kept calm fixed db b live)

include h

/-- A step that writes ledger rows of one row only, whose attempt is the worker's own. -/
theorem step_sinks (ho : b.attempt id = some w)
    (hp : ∀ j, db'.parent j = db.parent j) (hs : ∀ j i, j ≠ id → db'.sink j i = db.sink j i)
    (hatt : b'.attempt = b.attempt) (hsnap : b'.snapshot = b.snapshot) (hsends : b'.sends = b.sends)
    (hmade : ∀ j i, hasAt db j i = true → b'.made_for j i = b.made_for j i)
    (hgrow : ∀ i, hasAt db id i = true → hasAt db' id i = true)
    (hkeep : ∀ i, sentAt db id i = true → sentAt db' id i = true)
    (hwanted : calm → ∀ i, wantedAt db' id i = true → wantedAt db id i = true ∨ Alive db id)
    (hfits : fixed → ∀ i, hasAt db' id i = true → hasAt db id i = false →
      ∀ l, InForce b live l → Fits (b'.made_for id i) l i)
    (hacked : fixed → ∀ i, sentAt db' id i = true → sentAt db id i = false →
      hasAt db id i = true ∧ Acked b id i) :
    Step calm fixed w [id] re db b live db' b' := by
  have hforce : ∀ l, InForce b' live l → InForce b live l := by
    intro l hl
    simpa [InForce, hsnap] using hl
  have hhas : ∀ j i, j ≠ id → hasAt db' j i = hasAt db j i := by
    intro j i hj
    simp [hasAt, hs j i hj]
  have hsent : ∀ j i, j ≠ id → sentAt db' j i = sentAt db j i := by
    intro j i hj
    simp [sentAt, hs j i hj]
  have halive : ∀ j, Alive db j → Alive db' j := by
    intro j ha
    simpa [Alive, hp] using ha
  have hack : ∀ j i, hasAt db j i = true → Acked b j i → Acked b' j i := by
    intro j i hj ⟨x, hx, hrow, hok, hm⟩
    exact ⟨x, hsends ▸ hx, hrow, hok, (hmade j i hj).trans hm⟩
  obtain ⟨r₀, hr₀, hne₀⟩ := h.attempt_open id w ho
  have hrows : ∀ v j, b.attempt j = some v → j ≠ id → RowKept calm v j db b db' b' := by
    intro v j hv hj
    exact rowKept_of_same (hatt ▸ hv) (hp j) (fun i => hs j i hj) (hmade j)
  refine ⟨⟨?_, ?_, ?_, ?_, ?_⟩, ?_, ?_, ⟨?_, ?_⟩, fun v _ => by rw [hsnap]⟩
  · intro j v hv
    obtain ⟨r, hr, hne⟩ := h.attempt_open j v (hatt ▸ hv)
    exact ⟨r, (hp j).trans hr, hne⟩
  · intro j r hr hst i hi
    have hr' := (hp j).symm.trans hr
    have hj : j ≠ id := by
      intro he
      subst he
      obtain rfl := Option.some.inj (hr₀.symm.trans hr')
      exact hne₀ hst
    rw [hsent j i hj]
    exact h.sent_all j r hr' hst i ((hhas j i hj).symm.trans hi)
  · intro hc j i hw
    by_cases hj : j = id
    · subst hj
      rcases hwanted hc i hw with hw | ha
      · exact halive j (h.not_stranded hc j i hw)
      · exact halive j ha
    · exact halive j (h.not_stranded hc j i (by simpa [wantedAt, hs j i hj] using hw))
  · exact fun x hx => h.sends_open x (hsends ▸ hx)
  · intro hf
    have hm := h.meaning hf
    refine ⟨?_, fun l l' hl hl' => hm.agree l l' (hforce l hl) (hforce l' hl'), ?_, ?_⟩
    · intro j i hhas' hsent' l hl
      cases hold : hasAt db j i with
      | true =>
        rw [hmade j i hold]
        refine hm.fits j i hold ?_ l (hforce l hl)
        by_cases hj : j = id
        · subst hj
          by_contra hs'
          rw [hkeep i (by simpa using hs')] at hsent'
          exact absurd hsent' (by simp)
        · exact (hsent j i hj).symm.trans hsent'
      | false =>
        have hj : j = id := by
          by_contra hj
          rw [hhas j i hj, hold] at hhas'
          exact absurd hhas' (by simp)
        subst hj
        exact hfits hf i hhas' hold l (hforce l hl)
    · intro j i hsent'
      cases hold : sentAt db j i with
      | true => exact hack j i (hasAt_of_sentAt hold) (hm.acked j i hold)
      | false =>
        have hj : j = id := by
          by_contra hj
          rw [hsent j i hj, hold] at hsent'
          exact absurd hsent' (by simp)
        subst hj
        obtain ⟨hh, ha⟩ := hacked hf i hsent' hold
        exact hack j i hh ha
    · intro x hx j hj
      obtain ⟨hh, hn⟩ := hm.retried x (hsends ▸ hx) j hj
      refine ⟨?_, (hmade j x.index hh).trans hn⟩
      by_cases he : j = id
      · subst he
        exact hgrow _ hh
      · exact (hhas j _ he).trans hh
  · intro v hv
    refine ⟨?_, fun x hx => hsends ▸ hx⟩
    intro j _ hj
    refine hrows v j hj ?_
    intro he
    subst he
    exact hv (Option.some.inj (hj.symm.trans ho))
  · refine ⟨?_, fun x hx => hsends ▸ hx⟩
    intro j hout hj
    exact hrows w j hj (fun he => hout (he ▸ List.mem_singleton_self j))
  · intro j r hr hst _
    exact ⟨r, (hp j).trans hr, hst⟩
  · intro j i hst _
    by_cases hj : j = id
    · subst hj
      exact hkeep i hst
    · exact (hsent j i hj).trans hst

/-- An update of ledger rows of one row that takes `sent` from none. -/
theorem step_updateSinks (ho : b.attempt id = some w)
    {p : Nat → Nat → SinkRow → Bool} {f : SinkRow → SinkRow}
    (hp : ∀ j i k, j ≠ id → p j i k = false)
    (hkeep : ∀ i k, db.sink id i = some k → p id i k = true → k.status = .sent →
      (f k).status = .sent) (hwanted : calm → ∀ i k, db.sink id i = some k → p id i k = true →
      (f k).status.retryable = true → k.status.retryable = true ∨ Alive db id)
    (hacked : fixed → ∀ i k, db.sink id i = some k → p id i k = true → (f k).status = .sent →
      Acked b id i) :
    Step calm fixed w [id] re db b live (db.updateSinks p f) b := by
  refine step_sinks h ho (fun _ => rfl) (fun j i hj => sink_other db j i (fun k => hp j i k hj))
    rfl rfl rfl (fun _ _ _ => rfl) ?_ ?_ ?_ ?_ ?_
  · intro i hi
    rw [hasAt_updateSinks]
    exact hi
  · intro i hi
    unfold sentAt at hi ⊢
    rw [Db.sink_updateSinks]
    cases hk : db.sink id i with
    | none => simp [hk] at hi
    | some k =>
      rw [hk, Option.any_some, decide_eq_true_eq] at hi
      by_cases hpk : p id i k = true
      · simpa [hpk] using hkeep i k hk hpk hi
      · simpa [hpk] using hi
  · intro hc i hi
    unfold wantedAt at hi ⊢
    rw [Db.sink_updateSinks] at hi
    cases hk : db.sink id i with
    | none => simp [hk] at hi
    | some k =>
      rw [hk, Option.map_some, Option.any_some] at hi
      by_cases hpk : p id i k = true
      · simpa using hwanted hc i k hk hpk (by simpa [hpk] using hi)
      · exact Or.inl (by simpa [hpk] using hi)
  · intro _ i hi hno
    rw [hasAt_updateSinks, hno] at hi
    exact absurd hi (by simp)
  · intro hf i hi hno
    unfold sentAt at hi hno
    rw [Db.sink_updateSinks] at hi
    cases hk : db.sink id i with
    | none => simp [hk] at hi
    | some k =>
      refine ⟨by simp [hasAt, hk], ?_⟩
      rw [hk, Option.map_some, Option.any_some, decide_eq_true_eq] at hi
      rw [hk, Option.any_some, decide_eq_false_iff_not] at hno
      by_cases hpk : p id i k = true
      · exact hacked hf i k hk hpk (by simpa [hpk] using hi)
      · exact absurd (by simpa [hpk] using hi) hno

theorem step_complete_sink {i : Nat} (now : DateTime)
    (ho : b.attempt id = some w) (hack : fixed → Acked b id i) :
    Step calm fixed w [id] re db b live (complete_sink_delivery db now id i) b := by
  refine step_updateSinks h ho (fun j i k hj => by simp [hj]) (fun _ _ _ _ _ => rfl) ?_ ?_
  · intro _ j k _ _ hret
    exact absurd hret (by simp [Status.retryable])
  · intro hf j k _ hp _
    obtain rfl : j = i := by simpa using hp
    exact hack hf

theorem step_fail_sink {i : Nat} (error : String)
    (ho : b.attempt id = some w) (hns : sentAt db id i = false) (ha : Alive db id) :
    Step calm fixed w [id] re db b live (fail_sink_delivery db id i error) b := by
  refine step_updateSinks h ho (fun j i k hj => by simp [hj]) ?_ (fun _ _ _ _ _ _ => Or.inr ha) ?_
  · intro j k hk hp hst
    obtain rfl : j = i := by simpa using hp
    simp [sentAt, hk, hst] at hns
  · intro _ j k _ _ hst
    by_cases hcap : k.attempts + 1 ≥ OUTBOX_MAX_ATTEMPTS
    · simp [SinkRow.spent, hcap] at hst
    · simp [SinkRow.spent, hcap] at hst

theorem step_abandon (indices : List Nat) (error : String)
    (ho : b.attempt id = some w) :
    Step calm fixed w [id] re db b live (abandon_retryable_sinks db id indices error).2 b := by
  change Step calm fixed w [id] re db b live (db.updateSinks (fun j i r =>
    j = id && (indices.isEmpty || indices.contains i) && r.status.retryable) (·.abandoned error)) b
  refine step_updateSinks h ho (fun j i k hj => by simp [hj]) ?_ ?_ ?_
  · intro i k _ hp hst
    simp [hst, Status.retryable] at hp
  · intro _ i k _ _ hret
    simp [SinkRow.abandoned, Status.retryable] at hret
  · intro _ i k _ _ hst
    simp [SinkRow.abandoned] at hst

end

/-- What opening the ledger of a row does to it. -/
theorem sink_ensure {sinks : List (Nat × String)}
    (he : ensure_sink_deliveries db id sinks = some db') (j i : Nat) :
    db'.parent j = db.parent j ∧
      db'.sink j i = (db.sink j i).or
        (if j = id then (sinks.find? (fun s => s.1 = i)).map (fun s => new_sink_row s.2)
          else none) := by
  unfold ensure_sink_deliveries at he
  split at he
  · rename_i hnil
    obtain rfl := Option.some.inj he
    simp [hnil]
  · split at he
    · exact absurd he (by simp)
    · obtain rfl := Option.some.inj he
      refine ⟨rfl, ?_⟩
      simp only [Db.sink]
      rw [Table.get_addAll]
      congr 1
      clear * -
      induction sinks with
      | nil => simp [Table.look]
      | cons x rest ih =>
        simp only [List.map_cons, Table.look, List.find?_cons, Prod.mk.injEq]
        by_cases hj : j = id
        · subst hj
          by_cases hi : x.1 = i
          · simp [hi]
          · simpa [hi] using ih
        · have hj' : id ≠ j := fun he => hj he.symm
          simpa [hj, hj'] using ih

theorem step_ensure (h : Kept calm fixed s.db s.book live) {sinks : List (Nat × String)}
    (he : ensure_sink_deliveries s.db id sinks = some db') (ho : s.book.attempt id = some w)
    (ha : Alive s.db id) {l : Notifier} (hl : s.book.snapshot w = some l)
    (hin : ∀ x ∈ sinks, x.1 < l.length) :
    Step calm fixed w [id] re s.db s.book live db' (s.made w id sinks).book := by
  have hsink := sink_ensure he
  have hold : ∀ j i, hasAt s.db j i = true → db'.sink j i = s.db.sink j i := by
    intro j i hh
    rw [(hsink j i).2]
    unfold hasAt at hh
    cases hk : s.db.sink j i with
    | none => simp [hk] at hh
    | some k => rfl
  have hnew : ∀ i, hasAt s.db id i = false → hasAt db' id i = true →
      i ∈ sinks.map Prod.fst ∧ sentAt db' id i = false := by
    intro i hno hyes
    have hnone : s.db.sink id i = none := by simpa [hasAt] using hno
    unfold hasAt at hyes
    unfold sentAt
    rw [(hsink id i).2, hnone, Option.none_or, if_pos rfl] at hyes ⊢
    cases hf : sinks.find? (fun s => s.1 = i) with
    | none => simp [hf] at hyes
    | some x =>
      have hx := List.find?_some hf
      rw [decide_eq_true_eq] at hx
      exact ⟨List.mem_map.mpr ⟨x, List.mem_of_find?_eq_some hf, hx⟩, by simp [new_sink_row]⟩
  refine step_sinks h ho (fun j => (hsink j 0).1) ?_ rfl rfl rfl ?_ ?_ ?_ ?_ ?_ ?_
  · intro j i hj
    rw [(hsink j i).2, if_neg hj]
    cases s.db.sink j i <;> rfl
  · intro j i hh
    have hne : s.db.sink j i ≠ none := by
      intro hn
      simp [hasAt, hn] at hh
    simp [World.made, hne]
  · intro i hh
    unfold hasAt at hh ⊢
    rw [hold id i hh]
    exact hh
  · intro i hst
    unfold sentAt at hst ⊢
    rw [hold id i (hasAt_of_sentAt hst)]
    exact hst
  · exact fun _ _ _ => Or.inr ha
  · intro hf i hyes hno l' hl'
    have hi := (hnew i hno hyes).1
    have hnone : s.db.sink id i = none := by simpa [hasAt] using hno
    obtain ⟨x, hx, rfl⟩ := List.mem_map.mp hi
    have hlt := hin x hx
    have hmade : (s.made w id sinks).book.made_for id x.1 = some (l[x.1]).inner := by
      simp [World.made, hnone, hl, hi, hlt]
    rw [hmade]
    refine ⟨rfl, ?_⟩
    intro r hr
    rw [(h.meaning hf).agree l l' (Or.inr ⟨w, hl⟩) hl' x.1 _ r
      (List.getElem?_eq_getElem hlt) hr]
  · intro _ i hst hno
    have hhas : hasAt s.db id i = true := by
      by_contra hh
      have hno' : hasAt s.db id i = false := by simpa using hh
      rw [(hnew i hno' (hasAt_of_sentAt hst)).2] at hst
      exact absurd hst (by simp)
    unfold sentAt at hst hno
    rw [hold id i hhas, hno] at hst
    exact absurd hst (by simp)

/-! ## Steps on many rows -/

theorem step_insert (h : Kept calm fixed db b live) (now : DateTime) (event : Event)
    (identity : String) (om : OutboxMeta) (hatt : b'.attempt = b.attempt)
    (hmade : b'.made_for = b.made_for) (hsnap : b'.snapshot = b.snapshot)
    (hsends : b'.sends = b.sends) :
    Step calm fixed w ids re db b live (insert_outbox db now event identity om).2 b' := by
  have hkeep : ∀ j r, db.parent j = some r →
      (insert_outbox db now event identity om).2.parent j = some r :=
    fun j r hr => parent_insert_outbox db now j event identity om hr
  refine step_parent h (fun j i => sink_insert_outbox db now j i event identity om) hmade hsnap
    hsends ?_ ?_ ?_ ?_ ?_
  · intro j v hv
    obtain ⟨r, hr, hne⟩ := h.attempt_open j v (hatt ▸ hv)
    exact ⟨r, hkeep j r hr, hne⟩
  · intro j r hr hst
    rcases parent_insert_eq db now j event identity om hr with hold | ⟨_, hp, _⟩
    · exact h.sent_all j r hold hst
    · rw [hst] at hp
      exact absurd hp (by simp)
  · intro hc j i hw
    exact alive_insert db now j event identity om (h.not_stranded hc j i hw)
  · intro v j hv _
    exact ⟨hatt ▸ hv, alive_insert db now j event identity om⟩
  · intro j r hr hst
    exact ⟨r, hkeep j r hr, hst⟩

theorem step_reopen (h : Kept calm fixed db b live) (event : Event) (om : OutboxMeta)
    (hsent : reopens db id = true)
    (hfit : fixed → ∀ i, hasAt db id i = true → ∀ l, InForce b live l → Fits (b.made_for id i) l i)
    (hatt : b'.attempt = b.attempt) (hmade : b'.made_for = b.made_for)
    (hsnap : b'.snapshot = b.snapshot) (hsends : b'.sends = b.sends) :
    Step calm fixed w ids (fun j => j = id) db b live (reopen_outbox db event om id).2 b' := by
  obtain ⟨r₀, hr₀, hst₀⟩ := (Option.any_eq_true _ _).mp hsent
  rw [decide_eq_true_eq] at hst₀
  have hdb : (reopen_outbox db event om id).2 =
      (db.updateOutbox (fun j r => j = id && r.status = .sent)
        (fun r => r.reopened event om)).updateSinks (fun j _ _ => j = id) SinkRow.reset := by
    simp [reopen_outbox, hsent]
  rw [hdb]
  set db' := (db.updateOutbox (fun j r => j = id && r.status = .sent)
    (fun r => r.reopened event om)).updateSinks (fun j _ _ => j = id) SinkRow.reset with hdb'
  have hp : ∀ j, j ≠ id → db'.parent j = db.parent j := by
    intro j hj
    rw [hdb', Db.parent_updateSinks]
    exact parent_other db j (fun r => by simp [hj])
  have hpid : db'.parent id = some (r₀.reopened event om) := by
    simp [hdb', hr₀, hst₀]
  have hs : ∀ j i, j ≠ id → db'.sink j i = db.sink j i := by
    intro j i hj
    rw [hdb']
    exact sink_other _ j i (fun k => by simp [hj])
  have hhas : ∀ j i, hasAt db' j i = hasAt db j i := by
    intro j i
    rw [hdb', hasAt_updateSinks]
    rfl
  have hnot : ∀ i, sentAt db' id i = false := by
    intro i
    unfold sentAt
    rw [hdb', Db.sink_updateSinks, Db.sink_updateOutbox]
    cases db.sink id i <;> simp [SinkRow.reset]
  have hsentAt : ∀ j i, j ≠ id → sentAt db' j i = sentAt db j i := by
    intro j i hj
    simp [sentAt, hs j i hj]
  have hown : ∀ v j, b.attempt j = some v → j ≠ id := by
    intro v j hv he
    subst he
    obtain ⟨r, hr, hne⟩ := h.attempt_open j v hv
    obtain rfl := Option.some.inj (hr₀.symm.trans hr)
    exact hne hst₀
  have halive : ∀ j, j ≠ id → Alive db j → Alive db' j := by
    intro j hj ha
    simpa [Alive, hp j hj] using ha
  have hrow : ∀ v j, b.attempt j = some v → RowKept calm v j db b db' b' := by
    intro v j hv
    have hj := hown v j hv
    exact rowKept_of_same (hatt ▸ hv) (hp j hj) (fun i => hs j i hj) (fun i _ => by rw [hmade])
  have hforce : ∀ l, InForce b' live l → InForce b live l := by
    intro l hl
    simpa [InForce, hsnap] using hl
  refine ⟨⟨?_, ?_, ?_, ?_, ?_⟩, ?_, ?_, ⟨?_, ?_⟩, fun v _ => by rw [hsnap]⟩
  · intro j v hv
    rw [hatt] at hv
    obtain ⟨r, hr, hne⟩ := h.attempt_open j v hv
    exact ⟨r, (hp j (hown v j hv)).trans hr, hne⟩
  · intro j r hr hst i hi
    have hj : j ≠ id := by
      intro he
      subst he
      obtain rfl := Option.some.inj (hpid.symm.trans hr)
      simp [OutboxRow.reopened] at hst
    rw [hsentAt j i hj]
    exact h.sent_all j r ((hp j hj).symm.trans hr) hst i ((hhas j i).symm.trans hi)
  · intro hc j i hw
    by_cases hj : j = id
    · subst hj
      exact ⟨_, hpid, by simp [OutboxRow.reopened]⟩
    · exact halive j hj (h.not_stranded hc j i (by simpa [wantedAt, hs j i hj] using hw))
  · exact fun x hx => h.sends_open x (hsends ▸ hx)
  · intro hf
    have hm := h.meaning hf
    refine ⟨?_, fun l l' hl hl' => hm.agree l l' (hforce l hl) (hforce l' hl'), ?_, ?_⟩
    · intro j i hh hns l hl
      rw [hhas] at hh
      rw [hmade]
      by_cases hj : j = id
      · subst hj
        exact hfit hf i hh l (hforce l hl)
      · exact hm.fits j i hh ((hsentAt j i hj).symm.trans hns) l (hforce l hl)
    · intro j i hst
      have hj : j ≠ id := by
        intro he
        subst he
        rw [hnot i] at hst
        exact absurd hst (by simp)
      obtain ⟨x, hx, hrest⟩ := hm.acked j i ((hsentAt j i hj).symm.trans hst)
      exact ⟨x, hsends ▸ hx, by rw [hmade]; exact hrest⟩
    · intro x hx j hj
      obtain ⟨hh, hn⟩ := hm.retried x (hsends ▸ hx) j hj
      exact ⟨(hhas _ _).trans hh, hmade ▸ hn⟩
  · exact fun v _ => ⟨fun j _ hj => hrow v j hj, fun x hx => hsends ▸ hx⟩
  · exact ⟨fun j _ hj => hrow w j hj, fun x hx => hsends ▸ hx⟩
  · intro j r hr hst hre
    exact ⟨r, (hp j (by simpa using hre)).trans hr, hst⟩
  · intro j i hst hre
    exact (hsentAt j i (by simpa using hre)).trans hst

/-- A requeue revives dead rows and what their ledgers have not sent. -/
theorem step_requeue (h : Kept calm fixed db b live)
    (hfree : calm → ∀ kr ∈ db.notification_outbox.select (fun _ r => r.status = .dead),
      b.attempt kr.1 = none) :
    Step calm fixed w ids re db b live (requeue_dead_outbox db).2 b := by
  set dead := fun (id : Nat) => (db.parent id).any (fun r => r.status = .dead) with hdead
  set db' := (db.updateOutbox (fun id _ => dead id) OutboxRow.requeued).updateSinks
    (fun id _ r => dead id && r.status ≠ .sent) SinkRow.reset with hdb'
  change Step calm fixed w ids re db b live db' b
  have hdd : ∀ j r, db.parent j = some r → (dead j = true ↔ r.status = .dead) := by
    intro j r hr
    simp [hdead, hr]
  have hp : ∀ j r, db.parent j = some r →
      db'.parent j = some (if r.status = .dead then r.requeued else r) := by
    intro j r hr
    simp [hdb', hr, hdd j r hr]
  have hpn : ∀ j, db.parent j = none → db'.parent j = none := by
    intro j hj
    simp [hdb', hj]
  have hhas : ∀ j i, hasAt db' j i = hasAt db j i := by
    intro j i
    rw [hdb', hasAt_updateSinks]
    rfl
  have hsent : ∀ j i, sentAt db' j i = sentAt db j i := by
    intro j i
    unfold sentAt
    rw [hdb', Db.sink_updateSinks, Db.sink_updateOutbox]
    cases db.sink j i with
    | none => rfl
    | some k =>
      by_cases hk : dead j = true ∧ k.status ≠ .sent
      · simp [hk.1, hk.2, SinkRow.reset]
      · by_cases hd : dead j = true
        · have hst : k.status = .sent := by simpa [hd] using hk
          simp [hst]
        · simp [hd]
  have hwanted : ∀ j i, dead j = false → wantedAt db' j i = wantedAt db j i := by
    intro j i hd
    unfold wantedAt
    rw [hdb', Db.sink_updateSinks, Db.sink_updateOutbox]
    cases db.sink j i <;> simp [hd]
  have halive : ∀ j, Alive db j → Alive db' j := by
    rintro j ⟨r, hr, hns, hcap⟩
    refine ⟨_, hp j r hr, ?_⟩
    by_cases hd : r.status = .dead
    · simp [hd, OutboxRow.requeued]
    · rw [if_neg hd]
      exact ⟨hns, fun he => absurd he hd⟩
  have hrow : ∀ v j, b.attempt j = some v → RowKept calm v j db b db' b := by
    intro v j hv
    refine ⟨hv, hhas j, hsent j, ?_, halive j, fun _ _ => rfl⟩
    intro hc i hw
    have hd : dead j = false := by
      by_contra hd
      have hd' : dead j = true := by simpa using hd
      obtain ⟨r, hr, hst⟩ := (Option.any_eq_true _ _).mp hd'
      have hmem : (j, r) ∈ db.notification_outbox.select (fun _ r => r.status = .dead) := by
        rw [Serial.mem_select]
        exact ⟨hr, hst⟩
      rw [hfree hc _ hmem] at hv
      exact absurd hv (by simp)
    rw [hwanted j i hd] at hw
    exact hw
  refine ⟨⟨?_, ?_, ?_, h.sends_open, ?_⟩, ?_, ?_, ⟨?_, ?_⟩, fun _ _ => rfl⟩
  · intro j v hv
    obtain ⟨r, hr, hne⟩ := h.attempt_open j v hv
    refine ⟨_, hp j r hr, ?_⟩
    by_cases hd : r.status = .dead <;> simp [hd, hne, OutboxRow.requeued]
  · intro j r' hr' hst i hi
    rw [hsent]
    cases hj : db.parent j with
    | none =>
      rw [hpn j hj] at hr'
      exact absurd hr' (by simp)
    | some r =>
      rw [hp j r hj] at hr'
      obtain rfl := Option.some.inj hr'
      by_cases hd : r.status = .dead
      · simp [hd, OutboxRow.requeued] at hst
      · simp only [hd, if_false] at hst
        exact h.sent_all j r hj hst i ((hhas j i).symm.trans hi)
  · intro hc j i hw
    by_cases hd : dead j = true
    · obtain ⟨r, hr, hst⟩ := (Option.any_eq_true _ _).mp hd
      rw [decide_eq_true_eq] at hst
      exact ⟨_, hp j r hr, by simp [hst, OutboxRow.requeued]⟩
    · have hd' : dead j = false := by simpa using hd
      rw [hwanted j i hd'] at hw
      exact halive j (h.not_stranded hc j i hw)
  · intro hf
    have hm := h.meaning hf
    refine ⟨?_, hm.agree, ?_, ?_⟩
    · intro j i hh hns l hl
      rw [hhas] at hh
      rw [hsent] at hns
      exact hm.fits j i hh hns l hl
    · intro j i hst
      rw [hsent] at hst
      exact hm.acked j i hst
    · intro x hx j hj
      obtain ⟨hh, hn⟩ := hm.retried x hx j hj
      exact ⟨(hhas _ _).trans hh, hn⟩
  · exact fun v _ => ⟨fun j _ hj => hrow v j hj, fun _ hx => hx⟩
  · exact ⟨fun j _ hj => hrow w j hj, fun _ hx => hx⟩
  · intro j r hr hst _
    refine ⟨_, hp j r hr, ?_⟩
    simp [hst]
  · intro j i hst _
    rw [hsent]
    exact hst

/-! ## Steps on the record -/

theorem step_notify (h : Kept calm fixed s.db s.book live) {rows : List Nat} {i : Nat}
    {sink : RoutedSink} (event : Event) (ok : Bool) (hopen : ∃ id ∈ rows, sentAt s.db id i = false)
    (hhas : ∀ id ∈ rows, hasAt s.db id i = true) {l : Notifier} (hl : s.book.snapshot w = some l)
    (hi : l[i]? = some sink) :
    Step calm fixed w ids re s.db s.book live s.db (s.sent_to rows i sink event ok).book := by
  have hfilter : ∀ id, (s.db.sink id i).all (fun r => decide (r.status ≠ .sent)) = true ↔
      sentAt s.db id i = false := by
    intro id
    unfold sentAt
    cases s.db.sink id i <;> simp
  have hsub : ∀ x ∈ s.book.sends, x ∈ (s.sent_to rows i sink event ok).book.sends :=
    fun x hx => List.mem_append_left _ hx
  have hrow : ∀ v j, s.book.attempt j = some v →
      RowKept calm v j s.db s.book s.db (s.sent_to rows i sink event ok).book :=
    fun v j hv => rowKept_of_same hv rfl (fun _ => rfl) (fun _ _ => rfl)
  refine ⟨⟨h.attempt_open, h.sent_all, h.not_stranded, ?_, ?_⟩,
    fun v _ => ⟨fun j _ hj => hrow v j hj, hsub⟩, ⟨fun j _ hj => hrow w j hj, hsub⟩,
    ⟨fun j r hr hst _ => ⟨r, hr, hst⟩, fun j i hst _ => hst⟩, fun _ _ => rfl⟩
  · intro x hx
    rcases List.mem_append.mp hx with hx | hx
    · exact h.sends_open x hx
    · obtain rfl := List.mem_singleton.mp hx
      obtain ⟨id, hid, hns⟩ := hopen
      exact List.ne_nil_of_mem (List.mem_filter.mpr ⟨hid, (hfilter id).mpr hns⟩)
  · intro hf
    have hm := h.meaning hf
    refine ⟨hm.fits, hm.agree, ?_, ?_⟩
    · intro j k hst
      obtain ⟨x, hx, hrest⟩ := hm.acked j k hst
      exact ⟨x, hsub x hx, hrest⟩
    · intro x hx j hj
      rcases List.mem_append.mp hx with hx | hx
      · exact hm.retried x hx j hj
      · obtain rfl := List.mem_singleton.mp hx
        obtain ⟨hjr, hjs⟩ := List.mem_filter.mp hj
        have hh := hhas j hjr
        have hns := (hfilter j).mp hjs
        exact ⟨hh, (hm.fits j i hh hns l (Or.inr ⟨w, hl⟩)).2 sink hi⟩

theorem step_snapshot (h : Kept calm fixed s.db s.book live) (l : Option Notifier)
    (hl : ∀ n, l = some n → n = live)
    (hb : b' = { s.book with snapshot := fun v => if v = w then l else s.book.snapshot v }) :
    Step calm fixed w ids re s.db s.book live s.db b' := by
  subst hb
  have hforce : ∀ n, InForce
      { s.book with snapshot := fun v => if v = w then l else s.book.snapshot v } live n →
      InForce s.book live n := by
    rintro n (hn | ⟨v, hv⟩)
    · exact Or.inl hn
    · by_cases hvw : v = w
      · simp only [hvw, if_true] at hv
        exact Or.inl (hl n hv)
      · simp only [hvw, if_false] at hv
        exact Or.inr ⟨v, hv⟩
  refine ⟨⟨h.attempt_open, h.sent_all, h.not_stranded, h.sends_open, ?_⟩,
    fun v _ => ⟨fun j _ hj => rowKept_of_same hj rfl (fun _ => rfl) (fun _ _ => rfl),
      fun _ hx => hx⟩,
    ⟨fun j _ hj => rowKept_of_same hj rfl (fun _ => rfl) (fun _ _ => rfl), fun _ hx => hx⟩,
    ⟨fun j r hr hst _ => ⟨r, hr, hst⟩, fun j i hst _ => hst⟩, ?_⟩
  · intro hf
    have hm := h.meaning hf
    exact ⟨fun j i hh hns n hn => hm.fits j i hh hns n (hforce n hn),
      fun n n' hn hn' => hm.agree n n' (hforce n hn) (hforce n' hn'), hm.acked, hm.retried⟩
  · intro v hv
    simp [hv]

theorem step_through (h : Kept calm fixed s.db s.book live) (done : List Nat) :
    Step calm fixed w done re s.db s.book live s.db ((s.through w done).let_go w).book := by
  have hmid : Step calm fixed w done re s.db s.book live s.db (s.through w done).book := by
    have hatt : ∀ j v, (s.through w done).book.attempt j = some v → s.book.attempt j = some v := by
      intro j v hv
      by_cases hj : j ∈ done ∧ s.book.attempt j = some w
      · simp [World.through, hj] at hv
      · simpa [World.through, hj] using hv
    refine step_parent h (fun _ _ => rfl) rfl rfl rfl
      (fun j v hv => h.attempt_open j v (hatt j v hv)) h.sent_all h.not_stranded ?_
      (fun j r hr hst => ⟨r, hr, hst⟩)
    intro v j hv hout
    refine ⟨?_, fun ha => ha⟩
    have hj : ¬ (j ∈ done ∧ s.book.attempt j = some w) := by
      rintro ⟨hjd, hjw⟩
      exact hout (Option.some.inj (hv.symm.trans hjw)) hjd
    simpa [World.through, hj] using hv
  have hlast : Step calm fixed w done re (s.through w done).db (s.through w done).book live
      (s.through w done).db ((s.through w done).let_go w).book :=
    step_snapshot hmid.kept none (fun n hn => absurd hn (by simp)) rfl
  exact ⟨hlast.kept, fun v hv => (hmid.others v hv).trans (hlast.others v hv),
    hmid.own.trans hlast.own,
    ⟨fun j r hr hst hre => ⟨r, hr, hst⟩, fun j i hst _ => hst⟩,
    fun v hv => (hlast.snapshot v hv).trans (hmid.snapshot v hv)⟩

/-! ## Every call -/

/-- The rows of its own that a call settles. -/
def settles {β : Type} (op : Call β) : List Nat :=
  match op with
  | .ensure_sink_deliveries id _ => [id]
  | .complete_sink_delivery id _ => [id]
  | .fail_sink_delivery id _ _ => [id]
  | .abandon_retryable_sinks id _ _ => [id]
  | .mark_outbox_dead id => [id]
  | .complete_notification id _ _ => [id]
  | .through ids => ids
  | _ => []

theorem step_exec {β : Type} {op : Call β} {o : Oracle}
    (h : Kept calm fixed s.db s.book s.notifiers) (hr : Ready calm fixed w op s.db s.book)
    (hapart : Apart op o s) (hcalm : calm → Calm op s) (hfit : fixed → ReopenFits op s) :
    Step calm fixed w (settles op) (reopened op) s.db s.book s.notifiers (exec w op o s).2.db
      (exec w op o s).2.book := by
  have quiet : ∀ {s' : World}, s'.db = s.db → s'.book.attempt = s.book.attempt →
      s'.book.made_for = s.book.made_for → s'.book.snapshot = s.book.snapshot →
      s'.book.sends = s.book.sends →
      Step calm fixed w (settles op) (reopened op) s.db s.book s.notifiers s'.db s'.book := by
    intro s' hdb hatt hmade hsnap hsends
    exact step_quiet h (fun _ => by rw [hdb]) (fun _ _ => by rw [hdb]) hatt hmade hsnap hsends
  cases hfail : o.fails with
  | some e =>
    cases op <;> simp only [exec, stored, hfail]
    case notifier_snapshot =>
      exact step_snapshot h (some s.notifiers) (fun n hn => (Option.some.inj hn).symm) rfl
    case notify rows i sink event =>
      obtain ⟨hopen, hhas, l, hl, hi⟩ := hr
      exact step_notify h event _ hopen hhas hl hi
    case through done => exact step_through h done
    all_goals first
      | exact quiet rfl rfl rfl rfl rfl
      | (split <;> exact quiet rfl rfl rfl rfl rfl)
  | none =>
    cases op <;> simp only [exec, stored, hfail]
    case record_seen_batch source_id items =>
      exact step_quiet h (fun id => parent_record_seen_batch _ _ _ _ _ _)
        (fun id i => sink_record_seen_batch _ _ _ _ _ _ _) rfl rfl rfl rfl
    case insert_outbox event identity om =>
      split <;> exact step_insert h _ event identity om rfl rfl rfl rfl
    case reopen_outbox event om id =>
      split
      · rename_i hre
        have hsent : reopens s.db id = true := by
          cases hsent : reopens s.db id with
          | true => rfl
          | false => simp [reopen_outbox, World.tick, hsent] at hre
        refine step_reopen h event om hsent (fun hf => hfit hf) ?_ ?_ ?_ ?_ <;> rfl
      · rename_i hre
        have hsent : reopens s.db id = false := by
          cases hsent : reopens s.db id with
          | true => simp [reopen_outbox, World.tick, hsent] at hre
          | false => rfl
        have hdb : (reopen_outbox s.db event om id).2 = s.db := by simp [reopen_outbox, hsent]
        exact quiet hdb rfl rfl rfl rfl
    case claim_outbox_batch limit lease_secs =>
      have htakes : takes (.claim_outbox_batch limit lease_secs) o s =
          claim_batch_ids s.db (s.tick o).now o.order o.back o.locked limit := by
        simp [takes, hfail]
      refine step_claim (s := s.tick o) h _ _ ?_ ?_
      · intro id hid
        obtain ⟨r, hrow, hc⟩ := mem_claim_batch_ids _ _ id hid
        simp only [OutboxRow.claimable, Bool.and_eq_true] at hc
        exact ⟨r, hrow, hc.1.1.1⟩
      · intro id hid
        exact hapart id (htakes ▸ hid)
    case claim_outbox_row id lease_secs =>
      split
      · rename_i hit
        have htakes : takes (.claim_outbox_row id lease_secs) o s = [id] := by
          have hit' : claim_row_hit s.db (s.tick o).now id = true := hit
          simp [takes, hfail, hit']
        refine step_claim (s := s.tick o) h [id] _ ?_ ?_
        · intro j hj
          obtain rfl := List.mem_singleton.mp hj
          obtain ⟨r, hrow, hc⟩ := (Option.any_eq_true _ _).mp hit
          simp only [OutboxRow.leasable, Bool.and_eq_true] at hc
          exact ⟨r, hrow, hc.1.1⟩
        · intro j hj
          exact hapart j (htakes ▸ hj)
      · exact step_lock h (fun _ => rfl) (fun _ => le_refl _) rfl rfl rfl rfl
    case release_outbox_lease id =>
      exact step_lock h (fun _ => rfl) (fun _ => le_refl _) rfl rfl rfl rfl
    case apply_delivery_backoff id backoff_secs =>
      exact step_lock h (fun _ => rfl) (fun _ => Nat.le_succ _) rfl rfl rfl rfl
    case defer_delivery id backoff_secs =>
      exact step_lock h (fun _ => rfl) (fun _ => le_refl _) rfl rfl rfl rfl
    case complete_notification id source_id seen =>
      split
      · rename_i hone
        have hc : completes s.db id = true := by
          cases hc : completes s.db id with
          | true => rfl
          | false => simp [complete_notification, World.tick, hc] at hone
        exact step_complete (s := s) h _ source_id seen hr.1 hr.2 hc
      · rename_i hone
        have hc : completes s.db id = false := by
          cases hc : completes s.db id with
          | true => simp [complete_notification, World.tick, hc] at hone
          | false => rfl
        have hdb : ∀ now, (complete_notification s.db now id source_id seen).2 = s.db := by
          simp [complete_notification, hc]
        exact quiet (hdb _) rfl rfl rfl rfl
    case fail_notification id error => exact step_fail_notification h error hr
    case ensure_sink_deliveries id sinks =>
      obtain ⟨ho, ha, l, hl, hin⟩ := hr
      split
      · exact quiet rfl rfl rfl rfl rfl
      · rename_i db he
        exact step_ensure (s := s) h he ho ha hl hin
    case complete_sink_delivery id i => exact step_complete_sink h _ hr.1 hr.2
    case fail_sink_delivery id i error => exact step_fail_sink h error hr.1 hr.2.1 hr.2.2
    case abandon_retryable_sinks id indices error => exact step_abandon h indices error hr
    case mark_outbox_dead id => exact step_mark_dead h hr.1 hr.2
    case mark_outbox_failed id => exact step_mark_failed h id
    case requeue_dead_outbox => exact step_requeue h hcalm
    case finalize_exhausted_outbox => exact step_finalize h
    case notifier_snapshot =>
      exact step_snapshot h (some s.notifiers) (fun n hn => (Option.some.inj hn).symm) rfl
    case notify rows i sink event =>
      obtain ⟨hopen, hhas, l, hl, hi⟩ := hr
      exact step_notify h event _ hopen hhas hl hi
    case through done => exact step_through h done
    all_goals first
      | exact quiet rfl rfl rfl rfl rfl
      | exact step_quiet h (fun _ => rfl) (fun _ _ => rfl) rfl rfl rfl rfl
      | (split <;> exact quiet rfl rfl rfl rfl rfl)

@[simp] theorem notifiers_exec {β : Type} (w : Nat) (op : Call β) (o : Oracle) (s : World) :
    (exec w op o s).2.notifiers = s.notifiers := by
  cases hfail : o.fails <;> cases op <;> simp only [exec, stored, hfail]
  all_goals first
    | rfl
    | (split <;> rfl)

end xrelease.ledger
