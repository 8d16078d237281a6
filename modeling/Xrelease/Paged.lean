-- The outbox page (`api/observability.rs`, `store/postgres/outbox.rs`): the rows that the work
-- queue still has and those sent of late, in the order of the list, and what of them the page of
-- one organization shows when the statement is limited before the rows are told apart.
import Xrelease.Organizations
import Xrelease.Pages

namespace xrelease.paged

open text keyed xrelease.model xrelease.store
open xrelease.config (organization_id_from_source_id)

/-! ## The list -/

/-- A row with its number. -/
abbrev Numbered := Nat × OutboxRow

/-- Where in the list a status stands. -/
def status_rank : Status → Nat
  | .failed => 0
  | .dead => 1
  | .pending => 2
  | .sent => 3

def SEVEN_DAYS : DateTime := secs (7 * 86400)

/-- The live queue, and what was sent in the last seven days. -/
def listed (now : DateTime) (row : OutboxRow) : Bool :=
  row.status ≠ .sent || decide (now - SEVEN_DAYS < row.sent_at.getD row.created_at)

/-- Which of two rows of one rank and moment the statement returns first, by their numbers. -/
structure Tie where
  le : Nat → Nat → Bool
  total : ∀ a b, le a b = true ∨ le b a = true
  trans : ∀ a b c, le a b = true → le b c = true → le a c = true
  antisymm : ∀ a b, le a b = true → le b a = true → a = b

/-- `ORDER BY CASE status …, created_at DESC`. -/
def Lists (tie : Tie) (a b : Numbered) : Prop :=
  status_rank a.2.status < status_rank b.2.status ∨
    (status_rank a.2.status = status_rank b.2.status ∧
      (b.2.created_at < a.2.created_at ∨
        (a.2.created_at = b.2.created_at ∧ tie.le a.1 b.1 = true)))

instance (tie : Tie) : DecidableRel (Lists tie) := fun a b =>
  inferInstanceAs (Decidable (status_rank a.2.status < status_rank b.2.status ∨
    (status_rank a.2.status = status_rank b.2.status ∧
      (b.2.created_at < a.2.created_at ∨
        (a.2.created_at = b.2.created_at ∧ tie.le a.1 b.1 = true)))))

instance (tie : Tie) : Std.Total (Lists tie) where
  total a b := by
    unfold Lists
    rcases Nat.lt_trichotomy (status_rank a.2.status) (status_rank b.2.status) with h | h | h
    · exact .inl (.inl h)
    · rcases lt_trichotomy a.2.created_at b.2.created_at with ht | ht | ht
      · exact .inr (.inr ⟨h.symm, .inl ht⟩)
      · rcases tie.total a.1 b.1 with hle | hle
        · exact .inl (.inr ⟨h, .inr ⟨ht, hle⟩⟩)
        · exact .inr (.inr ⟨h.symm, .inr ⟨ht.symm, hle⟩⟩)
      · exact .inl (.inr ⟨h, .inl ht⟩)
    · exact .inr (.inl h)

instance (tie : Tie) : IsTrans Numbered (Lists tie) where
  trans a b c := by
    unfold Lists
    rintro (hab | ⟨hab, htab⟩) (hbc | ⟨hbc, htbc⟩)
    · exact .inl (hab.trans hbc)
    · exact .inl (hbc ▸ hab)
    · exact .inl (hab ▸ hbc)
    · refine .inr ⟨hab.trans hbc, ?_⟩
      rcases htab with hlt | ⟨heq, hle⟩
      · rcases htbc with hlt' | ⟨heq', -⟩
        · exact .inl (hlt'.trans hlt)
        · exact .inl (heq' ▸ hlt)
      · rcases htbc with hlt' | ⟨heq', hle'⟩
        · exact .inl (heq ▸ hlt')
        · exact .inr ⟨heq.trans heq', tie.trans a.1 b.1 c.1 hle hle'⟩

theorem eq_of_lists {tie : Tie} {a b : Numbered} (hab : Lists tie a b) (hba : Lists tie b a) :
    a.1 = b.1 := by
  unfold Lists at hab hba
  rcases hab with hab | ⟨hab, htab⟩
  · omega
  · rcases hba with hba | ⟨-, htba⟩
    · omega
    · rcases htab with hlt | ⟨heq, hle⟩
      · rcases htba with hlt' | ⟨heq', -⟩
        · exact absurd (hlt.trans hlt') (lt_irrefl _)
        · exact absurd (heq' ▸ hlt) (lt_irrefl _)
      · rcases htba with hlt' | ⟨-, hle'⟩
        · exact absurd (heq ▸ hlt') (lt_irrefl _)
        · exact tie.antisymm a.1 b.1 hle hle'

/-- A row as the page shows it, without the message. -/
structure OutboxEntry where
  id : Nat
  source_id : String
  identity : String
  status : Status
  attempts : Nat
  last_error : Option String
  created_at : DateTime
  title : String
  url : Option String
  routing_tag : Option String
  deliver_after : Option DateTime
  organization_id : Option String
deriving DecidableEq

def entry_of (row : Numbered) : OutboxEntry where
  id := row.1
  source_id := row.2.source_id
  identity := row.2.identity
  status := row.2.status
  attempts := row.2.attempts
  last_error := row.2.last_error
  created_at := row.2.created_at
  title := row.2.title
  url := row.2.url
  routing_tag := row.2.routing_tag
  deliver_after := row.2.deliver_after
  organization_id := organization_id_from_source_id row.2.source_id

def list_outbox_entries (tie : Tie) (now : DateTime) (db : Db) (limit : Nat) : List OutboxEntry :=
  (((db.notification_outbox.select (fun _ row => listed now row)).insertionSort (Lists tie)).take
    limit).map entry_of

structure OutboxQuery where
  limit : Nat := 50
  organization : Option String := none

def namespaced_belongs_to_org (namespaced : String) (organization : Option String) : Bool :=
  match organization with
  | none => true
  | some org => organization_id_from_source_id namespaced = some org

/-- `clamp(1, 200)`. -/
def clamped (limit : Nat) : Nat := max 1 (min limit 200)

/-- The scope that the caller asks for. -/
def OutboxQuery.scope (query : OutboxQuery) : Option String :=
  (query.organization.map trim).filter (fun org => org ≠ "")

/-- `GET /api/v1/outbox`, for a caller who may see it. -/
def list_outbox (tie : Tie) (now : DateTime) (db : Db) (query : OutboxQuery) : List OutboxEntry :=
  let fetch_limit := if query.scope.isSome then 200 else clamped query.limit
  ((list_outbox_entries tie now db fetch_limit).filter
    (fun entry => namespaced_belongs_to_org entry.source_id query.scope)).take
      (clamped query.limit)

/-! ## The law -/

def own (org : String) (row : Numbered) : Bool :=
  namespaced_belongs_to_org row.2.source_id (some org)

/-- The rows that the list is about, of all organizations. -/
def listed_rows (now : DateTime) (db : Db) : List Numbered :=
  db.notification_outbox.select (fun _ row => listed now row)

/-- The first of the organization's own listed rows, in the order of the list. -/
def own_rows (tie : Tie) (now : DateTime) (db : Db) (org : String) (limit : Nat) :
    List Numbered :=
  (((listed_rows now db).filter (own org)).insertionSort (Lists tie)).take (clamped limit)

/-- Two outboxes that differ in rows of other organizations only. -/
def SameOwn (org : String) (db db' : Db) : Prop :=
  (db.notification_outbox.select (fun id row => own org (id, row))).Perm
    (db'.notification_outbox.select (fun id row => own org (id, row)))

/-- The page shows the organization's own rows, and the same whatever the others have. -/
structure Independent (tie : Tie) (now : DateTime) (db db' : Db) (org : String)
    (query : OutboxQuery) : Prop where
  own : list_outbox tie now db query = (own_rows tie now db org query.limit).map entry_of
  same : list_outbox tie now db' query = list_outbox tie now db query

/-- Fewer than two hundred listed rows of all organizations are ahead of each of these rows. -/
def InReach (tie : Tie) (now : DateTime) (db : Db) (org : String) (limit : Nat) : Prop :=
  ∀ row ∈ own_rows tie now db org limit,
    ((listed_rows now db).filter (fun other => other ≠ row ∧ Lists tie other row)).length < 200

/-! ## When the page is the organization's own -/

section
variable {tie : Tie} {now : DateTime} {org : String}

theorem map_inj_on {α β : Type} {f : α → β} {as bs : List α}
    (hinj : ∀ a ∈ as, ∀ b ∈ bs, f a = f b → a = b) (h : as.map f = bs.map f) : as = bs := by
  induction as generalizing bs with
  | nil => exact (List.map_eq_nil_iff.mp h.symm).symm
  | cons a as ih =>
    cases bs with
    | nil => simp at h
    | cons b bs =>
      obtain ⟨hhead, htail⟩ := List.cons.inj h
      have hrest := ih (fun a' ha' b' hb' => hinj a' (List.mem_cons_of_mem _ ha') b'
        (List.mem_cons_of_mem _ hb')) htail
      rw [hinj a List.mem_cons_self b List.mem_cons_self hhead, hrest]

theorem listed_nodup (db : Db) : ((listed_rows now db).map Prod.fst).Nodup :=
  db.notification_outbox.table.select_nodup (fun _ row => listed now row)

/-- The list has its rows in one order. -/
theorem listed_apart (db : Db) : paging.Apart (Lists tie) (listed_rows now db) :=
  fun _ ha _ hb hab hba => List.inj_on_of_nodup_map (listed_nodup db) ha hb (eq_of_lists hab hba)

/-- A listed entry is that of one row. -/
theorem entry_of_inj {db : Db} {a b : Numbered} (ha : a ∈ listed_rows now db)
    (hb : b ∈ listed_rows now db) (h : entry_of a = entry_of b) : a = b := by
  have hid : a.1 = b.1 := congrArg OutboxEntry.id h
  exact List.inj_on_of_nodup_map (listed_nodup db) ha hb hid

theorem list_outbox_scoped {query : OutboxQuery} (hscope : query.scope = some org) (db : Db) :
    list_outbox tie now db query =
      (((((listed_rows now db).insertionSort (Lists tie)).take 200).filter (own org)).take
        (clamped query.limit)).map entry_of := by
  unfold list_outbox list_outbox_entries
  simp only [hscope, Option.isSome_some, if_true]
  rw [List.filter_map, ← List.map_take]
  rfl

/-- The page of one state. -/
theorem page_own_iff {query : OutboxQuery} (hscope : query.scope = some org) (db : Db) :
    list_outbox tie now db query = (own_rows tie now db org query.limit).map entry_of ↔
      InReach tie now db org query.limit := by
  have hnodup : (listed_rows now db).Nodup := (listed_nodup db).of_map _
  have hlisted : ∀ row ∈ (((listed_rows now db).insertionSort (Lists tie)).take 200).filter
      (own org), row ∈ listed_rows now db := by
    intro row hrow
    exact (List.mem_insertionSort _).mp (List.mem_of_mem_take (List.mem_filter.mp hrow).1)
  have hown : ∀ row ∈ own_rows tie now db org query.limit, row ∈ listed_rows now db := by
    intro row hrow
    exact (List.mem_filter.mp ((List.mem_insertionSort _).mp (List.mem_of_mem_take hrow))).1
  unfold InReach
  rw [list_outbox_scoped hscope]
  refine Iff.trans ?_ (paging.page_iff (Lists tie) (own org) (listed_apart db) hnodup 200
    (clamped query.limit))
  constructor
  · intro h
    exact map_inj_on (fun a ha b hb => entry_of_inj (hlisted a (List.mem_of_mem_take ha))
      (hown b hb)) h
  · exact fun h => congrArg (List.map entry_of) h

/-- What the organization has of its own is the same in both. -/
theorem own_rows_same {db db' : Db} (h : SameOwn org db db') (limit : Nat) :
    own_rows tie now db' org limit = own_rows tie now db org limit := by
  have hswap : ∀ db : Db, (listed_rows now db).filter (own org) =
      (db.notification_outbox.select (fun id row => own org (id, row))).filter
        (fun row => listed now row.2) := by
    intro db
    unfold listed_rows Serial.select Table.select
    rw [List.filter_comm]
  unfold own_rows
  rw [hswap, hswap]
  have hapart : paging.Apart (Lists tie)
      ((db.notification_outbox.select (fun id row => own org (id, row))).filter
        (fun row => listed now row.2)) := by
    rw [← hswap]
    intro a ha b hb
    exact listed_apart db a (List.mem_filter.mp ha).1 b (List.mem_filter.mp hb).1
  rw [paging.insertionSort_perm (Lists tie) hapart (h.symm.filter _)]

/-- The page is the organization's own, whatever rows the others have, exactly where in both
states none of the rows that belong on it is out of reach. -/
theorem page_is_independent_iff (tie : Tie) (now : DateTime) {db db' : Db} {org : String}
    {query : OutboxQuery} (hscope : query.scope = some org) (hsame : SameOwn org db db') :
    Independent tie now db db' org query ↔
      InReach tie now db org query.limit ∧ InReach tie now db' org query.limit := by
  rw [← page_own_iff hscope db, ← page_own_iff hscope db', own_rows_same hsame]
  constructor
  · rintro ⟨hown, heq⟩
    exact ⟨hown, heq.trans hown⟩
  · rintro ⟨hown, hown'⟩
    exact ⟨hown, hown'.trans hown.symm⟩

end

/-! ## A crowded outbox -/

def by_number : Tie where
  le a b := a ≤ b
  total a b := by simp [Nat.le_total]
  trans a b c := by
    simp only [decide_eq_true_eq]
    exact Nat.le_trans
  antisymm a b := by
    simp only [decide_eq_true_eq]
    exact Nat.le_antisymm

def row_of (source_id : String) (status : Status) : OutboxRow where
  source_id := source_id
  identity := "1.0.0"
  content_digest := none
  display_tag := none
  published_at := none
  title := "new release"
  body := ""
  url := none
  routing_tag := none
  source_kind := "GitHub"
  status := status
  attempts := 0
  last_error := none
  created_at := 0
  sent_at := none
  locked_until := none
  deliver_after := none

def row_a : OutboxRow := row_of "a::github:o/r" .pending

def row_b : OutboxRow := row_of "b::github:o/r" .failed

/-- One organization's row that waits, and the failed rows of another. -/
def crowd : Nat → Serial OutboxRow
  | 0 => Serial.empty.insert row_a
  | n + 1 => (crowd n).insert row_b

def crowded (others : Nat) : Db := { Db.empty with notification_outbox := crowd others }

def query_a : OutboxQuery where
  organization := some "a"

theorem crowd_rows (n : Nat) :
    (crowd n).table.rows = (1, row_a) :: (List.range n).map (fun i => (i + 2, row_b)) ∧
      (crowd n).next = n + 2 := by
  induction n with
  | zero => exact ⟨rfl, rfl⟩
  | succ n ih =>
    obtain ⟨hrows, hnext⟩ := ih
    have hfree : (crowd n).table.get (crowd n).next = none := (crowd n).get_next
    refine ⟨?_, ?_⟩
    · have hadd : (crowd (n + 1)).table.rows =
          (crowd n).table.rows ++ [((crowd n).next, row_b)] := by
        change ((crowd n).table.add (crowd n).next row_b).rows = _
        unfold Table.add
        rw [dif_pos hfree]
      rw [hadd, List.range_succ, List.map_append, hrows, hnext]
      rfl
    · change (crowd n).next + 1 = _
      rw [hnext]

theorem crowd_own (n : Nat) :
    (crowd n).table.rows.filter (own "a") = [(1, row_a)] := by
  have ha : own "a" (1, row_a) = true := by decide +kernel
  have hb : ∀ i, own "a" (i, row_b) = false := by
    intro i
    change namespaced_belongs_to_org row_b.source_id (some "a") = false
    decide +kernel
  rw [(crowd_rows n).1, List.filter_cons_of_pos ha, List.filter_map]
  simp [Function.comp_def, hb]

theorem crowd_same (n : Nat) : SameOwn "a" (crowded 0) (crowded n) := by
  change ((crowd 0).table.rows.filter (own "a")).Perm ((crowd n).table.rows.filter (own "a"))
  rw [crowd_own, crowd_own]

theorem crowd_listed (n : Nat) :
    listed_rows 0 (crowded n) = (crowd n).table.rows := by
  change (crowd n).table.rows.filter _ = _
  rw [List.filter_eq_self, (crowd_rows n).1]
  intro row hrow
  rcases List.mem_cons.mp hrow with rfl | hrow
  · rfl
  · obtain ⟨i, -, rfl⟩ := List.mem_map.mp hrow
    rfl

theorem crowd_page (n : Nat) (limit : Nat) :
    own_rows by_number 0 (crowded n) "a" limit = [(1, row_a)] := by
  obtain ⟨m, hm⟩ : ∃ m, clamped limit = m + 1 := ⟨clamped limit - 1, by unfold clamped; omega⟩
  unfold own_rows
  rw [crowd_listed, crowd_own, hm]
  simp

/-- As many are ahead of the row as the other organization has. -/
theorem crowd_reach_iff (n : Nat) (limit : Nat) :
    InReach by_number 0 (crowded n) "a" limit ↔ n < 200 := by
  have hahead : (crowd n).table.rows.filter
      (fun other => other ≠ (1, row_a) ∧ Lists by_number other (1, row_a)) =
        (List.range n).map (fun i => (i + 2, row_b)) := by
    rw [(crowd_rows n).1, List.filter_cons_of_neg (by simp), List.filter_eq_self]
    intro other hother
    obtain ⟨i, -, rfl⟩ := List.mem_map.mp hother
    have hrank : status_rank row_b.status < status_rank row_a.status := by decide
    exact decide_eq_true ⟨by simp, .inl hrank⟩
  unfold InReach
  rw [crowd_page, crowd_listed]
  simp only [List.mem_singleton, forall_eq, hahead, List.length_map, List.length_range]

/-- Two failed rows of another organization leave the page as it is. -/
theorem page_is_independent_here :
    Independent by_number 0 (crowded 0) (crowded 2) "a" query_a :=
  (page_is_independent_iff by_number 0 (by decide +kernel) (crowd_same 2)).mpr
    ⟨(crowd_reach_iff 0 50).mpr (by omega), (crowd_reach_iff 2 50).mpr (by omega)⟩

/-- Two hundred of them do not. -/
theorem a_crowd_empties_the_page :
    SameOwn "a" (crowded 0) (crowded 200) ∧
      list_outbox by_number 0 (crowded 0) query_a = [entry_of (1, row_a)] ∧
      list_outbox by_number 0 (crowded 200) query_a ≠ [entry_of (1, row_a)] ∧
      ¬ Independent by_number 0 (crowded 0) (crowded 200) "a" query_a := by
  have hscope : query_a.scope = some "a" := by decide +kernel
  have hfew := (page_own_iff hscope (crowded 0)).mpr ((crowd_reach_iff 0 50).mpr (by omega))
  have hmany : list_outbox by_number 0 (crowded 200) query_a ≠ [entry_of (1, row_a)] := by
    intro h
    rw [← List.map_singleton, ← crowd_page 200 query_a.limit] at h
    have hreach := (page_own_iff hscope (crowded 200)).mp h
    have hlt := (crowd_reach_iff 200 50).mp hreach
    omega
  rw [crowd_page] at hfew
  refine ⟨crowd_same 200, hfew, hmany, ?_⟩
  intro h
  exact hmany (h.same.trans hfew)

end xrelease.paged
