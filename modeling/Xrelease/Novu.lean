-- The idempotency key of the Novu sink (`notify/novu.rs`): it is made of the source id, the title
-- and the link of an event, and over every run it tells apart the things that are delivered
-- exactly as far as these three do.
import Mathlib.Tactic.IntervalCases
import Xrelease.Spoken

namespace xrelease.novu

open xrelease.store xrelease.engine xrelease.outbox xrelease.pipeline xrelease.spoken
open calls calls.Prog text

/-! ## The key -/

/-- What is hashed: source id, title and link, a NUL after each of the first two. -/
def key_text (event : Event) : String :=
  event.source_id ++ "\x00" ++ event.title ++ "\x00" ++ event.url.getD ""

/-- Stable id for `transactionId` and `Idempotency-Key`; `sha256_hex` is the digest in hex. -/
def transaction_id (sha256_hex : String → String) (event : Event) : String :=
  "xr-" ++ sha256_hex (key_text event)

def NoNul (s : String) : Prop := Char.ofNat 0 ∉ s.toList

theorem cut_at {α : Type} {x : α} {a a' b b' : List α} (ha : x ∉ a) (ha' : x ∉ a')
    (h : a ++ x :: b = a' ++ x :: b') : a = a' ∧ b = b' := by
  induction a generalizing a' with
  | nil =>
    cases a' with
    | nil => exact ⟨rfl, (List.cons.inj h).2⟩
    | cons y rest =>
      obtain ⟨rfl, -⟩ := List.cons.inj h
      exact absurd List.mem_cons_self ha'
  | cons y rest ih =>
    cases a' with
    | nil =>
      obtain ⟨rfl, -⟩ := List.cons.inj h
      exact absurd List.mem_cons_self ha
    | cons z rest' =>
      obtain ⟨rfl, hrest⟩ := List.cons.inj h
      obtain ⟨rfl, hb⟩ := ih (fun hm => ha (List.mem_cons_of_mem _ hm))
        (fun hm => ha' (List.mem_cons_of_mem _ hm)) hrest
      exact ⟨rfl, hb⟩

/-- No NUL in source id and title, and the three fields can be read back from the text. -/
theorem key_text_inj {e e' : Event} (hs : NoNul e.source_id) (ht : NoNul e.title)
    (hs' : NoNul e'.source_id) (ht' : NoNul e'.title) :
    key_text e = key_text e' ↔
      e.source_id = e'.source_id ∧ e.title = e'.title ∧ e.url.getD "" = e'.url.getD "" := by
  constructor
  · intro h
    have hl := congrArg String.toList h
    unfold key_text at hl
    simp only [String.toList_append, List.append_assoc] at hl
    obtain ⟨h1, hrest⟩ := cut_at (x := Char.ofNat 0) hs hs' hl
    obtain ⟨h2, h3⟩ := cut_at (x := Char.ofNat 0) ht ht' hrest
    exact ⟨String.toList_injective h1, String.toList_injective h2, String.toList_injective h3⟩
  · rintro ⟨h1, h2, h3⟩
    unfold key_text
    rw [h1, h2, h3]

/-! ## Numbers in titles -/

theorem digits_value_append (l : List Char) (c : Char) :
    digits_value (l ++ [c]) = digits_value l * 10 + digit_value c := by
  unfold digits_value
  rw [List.foldl_append]
  rfl

theorem digit_value_digitChar {n : Nat} (h : n < 10) : digit_value n.digitChar = n := by
  interval_cases n <;> rfl

theorem digits_value_toDigits (n : Nat) : digits_value (Nat.toDigits 10 n) = n := by
  induction n using Nat.strongRecOn with
  | ind n ih =>
    by_cases h : n < 10
    · rw [Nat.toDigits_of_lt_base h]
      exact (digits_value_append [] _).trans (by rw [digit_value_digitChar h]; simp [digits_value])
    · rw [Nat.toDigits_of_base_le (by omega) (by omega), digits_value_append,
        ih (n / 10) (by omega), digit_value_digitChar (by omega)]
      omega

theorem toString_nat (n : Nat) : (toString n).toList = Nat.toDigits 10 n := Nat.toList_repr

theorem count_title_inj {m n : Nat} (h : s!"{m} new releases" = s!"{n} new releases") : m = n := by
  have hl := congrArg String.toList h
  simp only [String.toList_append] at hl
  have hd := List.append_cancel_right hl
  have hv := congrArg digits_value hd
  rwa [toString_nat, toString_nat, digits_value_toDigits, digits_value_toDigits] at hv

theorem count_title_noNul (n : Nat) : NoNul s!"{n} new releases" := by
  unfold NoNul
  rw [String.toList_append, List.mem_append, toString_nat]
  rintro (h | h)
  · have := Nat.isDigit_of_mem_toDigits (by omega) (by omega) h
    exact absurd this (by decide)
  · exact absurd h (by decide +kernel)

/-! ## Things and their keys -/

/-- The same thing: a row with its content, or a digest of the same rows with theirs. -/
def Same : Thing → Thing → Prop
  | .row id event om, .row id' event' om' => id = id' ∧ event = event' ∧ om = om'
  | .digest rows, .digest rows' =>
    (rows.map (fun r => thing_of (.single r))).Perm (rows'.map (fun r => thing_of (.single r)))
  | _, _ => False

/-- Two things that the key does not tell apart: rows with one source, title and link (no link is
as good as an empty one), digests of as many rows, or a row that looks like a digest. -/
def Alike : Thing → Thing → Prop
  | .row _ e _, .row _ e' _ =>
    e.source_id = e'.source_id ∧ e.title = e'.title ∧ e.url.getD "" = e'.url.getD ""
  | .digest rows, .digest rows' => rows.length = rows'.length
  | .row _ e _, .digest rows =>
    e.source_id = "digest" ∧ e.title = s!"{rows.length} new releases" ∧ e.url.getD "" = ""
  | .digest rows, .row _ e _ =>
    e.source_id = "digest" ∧ e.title = s!"{rows.length} new releases" ∧ e.url.getD "" = ""

/-- The texts of a row are such as a PostgreSQL column holds: no NUL in them. -/
def Storable : Thing → Prop
  | .row _ event _ => NoNul event.source_id ∧ NoNul event.title
  | .digest _ => True

theorem Same.alike {t t' : Thing} (h : Same t t') : Alike t t' := by
  cases t with
  | row id e om =>
    cases t' with
    | row id' e' om' =>
      obtain ⟨-, rfl, -⟩ := h
      exact ⟨rfl, rfl, rfl⟩
    | digest rows' => exact False.elim h
  | digest rows =>
    cases t' with
    | row id' e' om' => exact False.elim h
    | digest rows' =>
      have := List.Perm.length_eq h
      rwa [List.length_map, List.length_map] at this

theorem storable_event {t : Thing} (h : Storable t) :
    NoNul t.event.source_id ∧ NoNul t.event.title := by
  cases t with
  | row id e om => exact h
  | digest rows =>
    have hdigest : NoNul "digest" := by
      unfold NoNul
      decide +kernel
    exact ⟨hdigest, count_title_noNul rows.length⟩

theorem key_text_alike {t t' : Thing} (h : Storable t) (h' : Storable t') :
    key_text t.event = key_text t'.event ↔ Alike t t' := by
  rw [key_text_inj (storable_event h).1 (storable_event h).2 (storable_event h').1
    (storable_event h').2]
  cases t with
  | row id e om =>
    cases t' with
    | row id' e' om' => exact Iff.rfl
    | digest rows' => exact Iff.rfl
  | digest rows =>
    cases t' with
    | row id' e' om' =>
      constructor
      · rintro ⟨h1, h2, h3⟩
        exact ⟨h1.symm, h2.symm, h3.symm⟩
      · rintro ⟨h1, h2, h3⟩
        exact ⟨h1.symm, h2.symm, h3.symm⟩
    | digest rows' =>
      constructor
      · rintro ⟨-, h2, -⟩
        exact count_title_inj h2
      · intro hlen
        refine ⟨rfl, ?_, rfl⟩
        have hsame : rows.length = rows'.length := hlen
        change (build_digest_event rows).title = (build_digest_event rows').title
        unfold build_digest_event
        rw [hsame]

/-- Advisories are attached to the body only. -/
theorem key_text_of_speaks {t : Thing} {ids : List Nat} {event : Event} (h : SpeaksFor t ids event) :
    key_text event = key_text t.event := by
  rcases h.2 with rfl | ⟨text, rfl⟩
  · rfl
  · rfl

/-! ## Every send is for a thing taken up -/

/-- Some worker took the thing up: with the lease of its row, or with the claim of its wave. -/
def TakenUp (p : Observed Call PipelineError World Hand) (thing : Thing) : Prop :=
  ∃ w, thing ∈ (p.ghost w).up

/-- A send, and the thing it is for. -/
def SendsFor (p : Observed Call PipelineError World Hand) (x : Send) (thing : Thing) : Prop :=
  x ∈ p.pool.state.book.sends ∧ TakenUp p thing ∧ SpeaksFor thing x.rows x.event

/-- The rows and the event of a send, for the call that makes it. -/
def sent_by {β : Type} (op : Call β) : Option (List Nat × Event) :=
  match op with
  | .notify rows _ _ event => some (rows, event)
  | _ => none

theorem sends_exec {β : Type} (w : Nat) (op : Call β) (o : Oracle) (s : World) :
    ∀ x ∈ (exec w op o s).2.book.sends,
      x ∈ s.book.sends ∨ sent_by op = some (x.rows, x.event) := by
  intro x hx
  cases op
  case notify rows index sink event =>
    rcases List.mem_append.mp hx with hx | hx
    · exact Or.inl hx
    · rw [List.mem_singleton.mp hx]
      exact Or.inr rfl
  all_goals
    left
    simp only [exec, stored] at hx
    repeat' split at hx
    all_goals exact hx

theorem up_after {β : Type} (g : Hand) (op : Call β) (r : Except PipelineError β) :
    ∀ t ∈ g.up, t ∈ (after g op r).up := by
  intro t ht
  cases op
  all_goals
    simp only [after]
    repeat' split
    all_goals first
      | exact ht
      | exact List.mem_append_left _ ht

theorem spoken_of_may {β : Type} {g : Hand} {op : Call β} {rows : List Nat} {event : Event}
    (h : may g op) (hs : sent_by op = some (rows, event)) :
    ∃ thing ∈ g.up, SpeaksFor thing rows event := by
  unfold may at h
  split at h
  · cases op <;> first | exact absurd h id | cases hs
  · cases op <;> first | cases hs
    exact h

theorem takenUp_step {p : Observed Call PipelineError World Hand} {thing : Thing}
    (h : TakenUp p thing) (m : Move Oracle Outside) : TakenUp (p.step protocol machine m) thing := by
  obtain ⟨v, hv⟩ := h
  refine ⟨v, ?_⟩
  cases m with
  | work w o =>
    cases hw : p.pool.worker w with
    | call op next =>
      rw [Observed.ghost_call o hw v]
      split
      · rename_i hvw
        exact up_after _ op _ thing (hvw ▸ hv)
      · exact hv
    | done a => simpa only [Observed.step, hw] using hv
    | fail e => simpa only [Observed.step, hw] using hv
  | crash w => exact hv
  | outside e => exact hv

/-- Every send so far is for a thing taken up. -/
def Accounted (p : Observed Call PipelineError World Hand) : Prop :=
  ∀ x ∈ p.pool.state.book.sends, ∃ thing, TakenUp p thing ∧ SpeaksFor thing x.rows x.event

theorem accounted_step (p : Observed Call PipelineError World Hand)
    (hk : p.Keeps protocol (fun _ => True))
    (h : Accounted p) (m : Move Oracle Outside) : Accounted (p.step protocol machine m) := by
  have hold {x : Send} (hx : x ∈ p.pool.state.book.sends) :
      ∃ thing, TakenUp (p.step protocol machine m) thing ∧ SpeaksFor thing x.rows x.event := by
    obtain ⟨thing, ht, hs⟩ := h x hx
    exact ⟨thing, takenUp_step ht m, hs⟩
  intro x hx
  cases m with
  | work w o =>
    cases hw : p.pool.worker w with
    | call op next =>
      simp only [Observed.step, Pool.step, hw, Pool.set] at hx
      rcases sends_exec w op o p.pool.state x hx with hx | hx
      · exact hold hx
      · obtain ⟨thing, ht, hs⟩ := spoken_of_may (hk.may hw) hx
        exact ⟨thing, takenUp_step ⟨w, ht⟩ _, hs⟩
    | done a =>
      simp only [Observed.step, Pool.step, hw] at hx
      exact hold hx
    | fail e =>
      simp only [Observed.step, Pool.step, hw] at hx
      exact hold hx
  | crash w => exact hold hx
  | outside e => exact hold hx

/-- Every send of a run is for a thing that was taken up before. -/
theorem every_send_is_accounted {jobs : Nat → Job} {s : World} (hs : s.book.sends = [])
    (moves : List (Move Oracle Outside)) :
    Accounted ((watched jobs s).run protocol machine moves) := by
  have hkeeps : (watched jobs s).Keeps protocol (fun _ => True) :=
    fun w => follows_mono (watched_keeps jobs s w) (fun _ _ _ => trivial)
  refine hkeeps.induction ?_ accounted_step moves
  intro x hx
  change x ∈ s.book.sends at hx
  rw [hs] at hx
  exact absurd hx List.not_mem_nil

/-! ## The law -/

/-- A thing that went to a Novu sink. -/
def Handed (p : Observed Call PipelineError World Hand) (thing : Thing) : Prop :=
  ∃ x, x.sink.inner.kind = .novu ∧ SendsFor p x thing

/-- Two sends to Novu sinks carry one key exactly when they are for the same thing. -/
def KeyIdentifies (sha256_hex : String → String) (p : Observed Call PipelineError World Hand) :
    Prop :=
  ∀ x y t u, x.sink.inner.kind = .novu → y.sink.inner.kind = .novu → SendsFor p x t →
    SendsFor p y u →
    (transaction_id sha256_hex x.event = transaction_id sha256_hex y.event ↔ Same t u)

theorem transaction_id_eq_iff {sha256_hex : String → String}
    (hsha : Function.Injective sha256_hex) (e e' : Event) :
    transaction_id sha256_hex e = transaction_id sha256_hex e' ↔ key_text e = key_text e' := by
  unfold transaction_id
  constructor
  · intro h
    have hl := congrArg String.toList h
    rw [String.toList_append, String.toList_append] at hl
    exact hsha (String.toList_injective (List.append_cancel_left hl))
  · intro h
    rw [h]

/-- Over every run, every event that goes to a sink is for a thing that was taken up; and the keys
of the Novu sinks identify the things exactly when no two different ones that went there share
source, title and link, are digests of one size, or are a digest and a row that looks like it. -/
theorem the_key_identifies_iff (sha256_hex : String → String)
    (hsha : Function.Injective sha256_hex) (jobs : Nat → Job) (db : Db) (now : model.DateTime)
    (notifiers : Notifier) (moves : List (Move Oracle Outside))
    (hstored : ∀ t, TakenUp ((watched jobs (World.start db now notifiers)).run protocol machine
      moves) t → Storable t) :
    (∀ x ∈ ((starting jobs (World.start db now notifiers)).run machine moves).state.book.sends,
      ∃ t, SendsFor ((watched jobs (World.start db now notifiers)).run protocol machine moves)
        x t) ∧
    (KeyIdentifies sha256_hex
        ((watched jobs (World.start db now notifiers)).run protocol machine moves) ↔
      ∀ t u, Handed ((watched jobs (World.start db now notifiers)).run protocol machine moves) t →
        Handed ((watched jobs (World.start db now notifiers)).run protocol machine moves) u →
        Alike t u → Same t u) := by
  set p := (watched jobs (World.start db now notifiers)).run protocol machine moves with hp
  have hkeys {x y : Send} {t u : Thing} (hx : SendsFor p x t) (hy : SendsFor p y u) :
      transaction_id sha256_hex x.event = transaction_id sha256_hex y.event ↔ Alike t u := by
    rw [transaction_id_eq_iff hsha, key_text_of_speaks hx.2.2, key_text_of_speaks hy.2.2,
      key_text_alike (hstored t hx.2.1) (hstored u hy.2.1)]
  refine ⟨?_, ?_, ?_⟩
  · intro x hx
    have hx' : x ∈ p.pool.state.book.sends := by
      rw [hp, Observed.pool_run]
      exact hx
    obtain ⟨t, ht, hs⟩ := every_send_is_accounted (s := World.start db now notifiers) rfl moves x
      (hp ▸ hx')
    exact ⟨t, hx', ht, hs⟩
  · rintro h t u ⟨x, hxn, hx⟩ ⟨y, hyn, hy⟩ halike
    exact (h x y t u hxn hyn hx hy).mp ((hkeys hx hy).mpr halike)
  · intro h x y t u hxn hyn hx hy
    rw [hkeys hx hy]
    exact ⟨h t u ⟨x, hxn, hx⟩ ⟨y, hyn, hy⟩, Same.alike⟩

/-! ## Two digests of one size -/

def repo : Provider := ⟨"github:o/r", "github", "GitHub", "r"⟩

def held_until (moment : Option model.DateTime) : Watch :=
  ⟨repo, ⟨true, none, none, none, false⟩, none, moment.map (fun at_ _ => some at_)⟩

def bell : RoutedSink := ⟨⟨.novu, "bell", "https://api.novu.co"⟩, []⟩

def turns (w n : Nat) : List (Move Oracle Outside) := List.replicate n (.work w {})

/-- Four releases after the baseline, held back until two moments, and a flush. -/
def four_releases : Nat → Job
  | 0 => .push [held_until (some 1)] (model.Release.new "v1")
  | 1 => .push [held_until (some 1)] (model.Release.new "v2")
  | 2 => .push [held_until (some 1)] (model.Release.new "v3")
  | 3 => .push [held_until (some 2)] (model.Release.new "v4")
  | 4 => .push [held_until (some 2)] (model.Release.new "v5")
  | 5 => .flush 4
  | _ => .idle

def two_digests : List (Move Oracle Outside) :=
  turns 0 5 ++ turns 1 8 ++ turns 2 8 ++ turns 3 8 ++ turns 4 8 ++
    [.work 5 { outbox_flush_concurrency := 4, elapsed := 2 }] ++ turns 5 40

def after_two_digests : Observed Call PipelineError World Hand :=
  (watched four_releases (World.start Db.empty 0 [bell])).run protocol machine two_digests

theorem Same.ids {t u : Thing} (h : Same t u) : t.ids.Perm u.ids := by
  cases t with
  | row id e om =>
    cases u with
    | row id' e' om' =>
      obtain ⟨rfl, -, -⟩ := h
      exact List.Perm.refl _
    | digest rows' => exact False.elim h
  | digest rows =>
    cases u with
    | row id' e' om' => exact False.elim h
    | digest rows' =>
      have hids : ∀ l : List OutboxRecord,
          (l.map (fun r => thing_of (.single r))).flatMap Thing.ids = l.map (·.id) := by
        intro l
        induction l with
        | nil => rfl
        | cons r rest ih => simpa [thing_of, Thing.ids] using ih
      have := List.Perm.flatMap_right Thing.ids h
      rwa [hids, hids] at this

/-- Two digests of two rows each go out with one key: the second one is taken for a repetition. -/
theorem digests_of_one_size_share_a_key :
    ¬ ∀ (sha256_hex : String → String), Function.Injective sha256_hex →
      ∀ (jobs : Nat → Job) (db : Db) (now : model.DateTime) (notifiers : Notifier)
        (moves : List (Move Oracle Outside)),
      KeyIdentifies sha256_hex
        ((watched jobs (World.start db now notifiers)).run protocol machine moves) := by
  intro h
  have hlaw : KeyIdentifies id after_two_digests :=
    h id Function.injective_id four_releases Db.empty 0 [bell] two_digests
  have hsends : after_two_digests.pool.state.book.sends.map
      (fun x => (x.rows, x.sink.inner.kind, x.event.source_id, x.event.title, x.event.url)) =
      [([1, 2], .novu, "digest", "2 new releases", none),
        ([3, 4], .novu, "digest", "2 new releases", none)] := by
    decide +kernel
  obtain ⟨x, rest, hall, hx, hrest⟩ := List.map_eq_cons_iff.mp hsends
  obtain ⟨y, nothing, rfl, hy, -⟩ := List.map_eq_cons_iff.mp hrest
  simp only [Prod.mk.injEq] at hx hy
  have haccounted : Accounted after_two_digests := every_send_is_accounted rfl two_digests
  have hxm : x ∈ after_two_digests.pool.state.book.sends := by
    rw [hall]
    exact List.mem_cons_self
  have hym : y ∈ after_two_digests.pool.state.book.sends := by
    rw [hall]
    exact List.mem_cons_of_mem _ List.mem_cons_self
  obtain ⟨t, ht, hst⟩ := haccounted x hxm
  obtain ⟨u, hu, hsu⟩ := haccounted y hym
  have hkey : transaction_id id x.event = transaction_id id y.event := by
    unfold transaction_id key_text
    rw [hx.2.2.1, hx.2.2.2.1, hx.2.2.2.2, hy.2.2.1, hy.2.2.2.1, hy.2.2.2.2]
  have hsame := (hlaw x y t u hx.2.1 hy.2.1 ⟨hxm, ht, hst⟩ ⟨hym, hu, hsu⟩).mp hkey
  have hids := hsame.ids
  rw [← hst.1, ← hsu.1, hx.1, hy.1] at hids
  exact absurd hids (by decide)

/-! ## Two rows and a digest -/

/-- Two releases at once after the baseline, two held back, and a flush. -/
def mixed_releases : Nat → Job
  | 0 => .push [held_until none] (model.Release.new "v1")
  | 1 => .push [held_until none] (model.Release.new "v2")
  | 2 => .push [held_until (some 1)] (model.Release.new "v3")
  | 3 => .push [held_until (some 1)] (model.Release.new "v4")
  | 4 => .push [held_until none] (model.Release.new "v5")
  | 5 => .flush 4
  | _ => .idle

def mixed_moves : List (Move Oracle Outside) :=
  turns 0 5 ++ turns 1 20 ++ turns 2 8 ++ turns 3 8 ++ turns 4 20 ++
    [.work 5 { outbox_flush_concurrency := 4, elapsed := 2 }] ++ turns 5 30

def after_mixed : Observed Call PipelineError World Hand :=
  (watched mixed_releases (World.start Db.empty 0 [bell])).run protocol machine mixed_moves

/-- SHA-256 of the three key texts of the run. -/
def hashed : List (String × String) :=
  [("github:o/r\x00r: new release v2\x00",
      "65e126e54487be7da2c294a5f7d9b6f89cdf522c1c0c8fcce45fcaaa032216dc"),
    ("github:o/r\x00r: new release v5\x00",
      "24b63fb04830155db162ca9a059af778607b5b3950f7bb621438f948ff4f47ef"),
    ("digest\x002 new releases\x00",
      "7cbd03ed5a35ec61b3969dd010368f57bb5270c8b3cd91d1bebfc48b890bf25a")]

def digest_of (text : String) : String := (hashed.lookup text).getD ("x" ++ text)

theorem mem_of_lookup {text hex : String} (h : hashed.lookup text = some hex) :
    (text, hex) ∈ hashed := by
  obtain ⟨before, after, heq, -⟩ := List.lookup_eq_some_iff.mp h
  rw [heq]
  exact List.mem_append_right _ List.mem_cons_self

theorem digest_of_injective : Function.Injective digest_of := by
  have hother : ∀ row ∈ hashed, row.2.toList.head? ≠ some 'x' := by decide +kernel
  have hne {text hex : String} (hlook : hashed.lookup text = some hex) (s : String) :
      hex ≠ "x" ++ s := by
    rintro rfl
    apply hother _ (mem_of_lookup hlook)
    rw [String.toList_append]
    rfl
  intro a b h
  unfold digest_of at h
  cases ha : hashed.lookup a with
  | none =>
    cases hb : hashed.lookup b with
    | none =>
      rw [ha, hb] at h
      have hl := congrArg String.toList h
      simp only [Option.getD_none, String.toList_append] at hl
      exact String.toList_injective (List.append_cancel_left hl)
    | some hex =>
      rw [ha, hb] at h
      exact absurd h.symm (hne hb a)
  | some hex =>
    cases hb : hashed.lookup b with
    | none =>
      rw [ha, hb] at h
      exact absurd h (hne ha b)
    | some hex' =>
      rw [ha, hb] at h
      have hone : ∀ row ∈ hashed, ∀ row' ∈ hashed, row.2 = row'.2 → row.1 = row'.1 := by
        decide +kernel
      exact hone _ (mem_of_lookup ha) _ (mem_of_lookup hb) h

instance (s : String) : Decidable (NoNul s) := inferInstanceAs (Decidable (¬ _))

instance : (t : Thing) → Decidable (Storable t)
  | .row _ event _ => inferInstanceAs (Decidable (NoNul event.source_id ∧ NoNul event.title))
  | .digest _ => inferInstanceAs (Decidable True)

instance : (t u : Thing) → Decidable (Alike t u)
  | .row _ e _, .row _ e' _ => inferInstanceAs (Decidable (e.source_id = e'.source_id ∧
      e.title = e'.title ∧ e.url.getD "" = e'.url.getD ""))
  | .digest rows, .digest rows' => inferInstanceAs (Decidable (rows.length = rows'.length))
  | .row _ e _, .digest rows => inferInstanceAs (Decidable (e.source_id = "digest" ∧
      e.title = s!"{rows.length} new releases" ∧ e.url.getD "" = ""))
  | .digest rows, .row _ e _ => inferInstanceAs (Decidable (e.source_id = "digest" ∧
      e.title = s!"{rows.length} new releases" ∧ e.url.getD "" = ""))

/-- All that the workers take up. -/
theorem mixed_taken {t : Thing} (h : TakenUp after_mixed t) :
    t ∈ (List.range 6).flatMap (fun w => (after_mixed.ghost w).up) := by
  obtain ⟨w, hw⟩ := h
  by_cases hlt : w < 6
  · exact List.mem_flatMap.mpr ⟨w, List.mem_range.mpr hlt, hw⟩
  · have hstill : (after_mixed.ghost w).up = [] := by
      unfold after_mixed
      rw [Observed.ghost_still]
      · rfl
      · intro o ho
        simp only [mixed_moves, turns, List.mem_append, List.mem_replicate, List.mem_singleton,
          Move.work.injEq] at ho
        omega
    rw [hstill] at hw
    exact absurd hw List.not_mem_nil

/-- Two rows and a digest go out, and the keys identify them. -/
theorem the_key_identifies_iff_here :
    after_mixed.pool.state.book.sends.map Send.rows = [[1], [4], [2, 3]] ∧
      KeyIdentifies digest_of after_mixed := by
  have hstorable : ∀ t ∈ (List.range 6).flatMap (fun w => (after_mixed.ghost w).up),
      Storable t := by decide +kernel
  have hapart : ∀ t ∈ (List.range 6).flatMap (fun w => (after_mixed.ghost w).up),
      ∀ u ∈ (List.range 6).flatMap (fun w => (after_mixed.ghost w).up), Alike t u → t = u := by
    decide +kernel
  have hsame : ∀ t : Thing, Same t t := by
    rintro (⟨id, event, om⟩ | rows)
    · exact ⟨rfl, rfl, rfl⟩
    · exact List.Perm.refl _
  refine ⟨by decide +kernel, ((the_key_identifies_iff digest_of digest_of_injective mixed_releases
    Db.empty 0 [bell] mixed_moves fun t ht => hstorable t (mixed_taken ht)).2).mpr ?_⟩
  rintro t u ⟨x, -, -, ht, -⟩ ⟨y, -, -, hu, -⟩ halike
  obtain rfl := hapart t (mixed_taken ht) u (mixed_taken hu) halike
  exact hsame t

end xrelease.novu
