-- The latest release of a source as the two pages show it (`api/observability.rs`,
-- `store/postgres/mod.rs`): the list takes one row a source, by date; the detail page takes the
-- first of a list that is ordered by version. Where a statement leaves the order of rows open, the
-- numbers of `arrange` pick it; what `sort_by` makes of a list that its comparison does not order
-- is open altogether.
import Xrelease.Contests
import Xrelease.Newest
import Xrelease.Store

namespace xrelease.listed

open text keyed compared contest xrelease.model xrelease.store

/-! ## The two pages -/

/-- A row of `seen_release`: its source and identity, and the rest. -/
abbrev Row := (String × String) × SeenRow

structure SeenReleaseEntry where
  identity : String
  tag : String
  published_at : Option DateTime
  url : Option String
  first_seen_at : Option DateTime
deriving DecidableEq

/-- `COALESCE(display_tag, identity)`. -/
def tag_of (row : Row) : String := row.2.display_tag.getD row.1.2

def seen_rows (db : Db) (order : List Nat) (source_id : String) : List Row :=
  arrange order (db.seen_release.select (fun k _ => k.1 = source_id))

def stored_tag (db : Db) (source_id : String) : Option String :=
  (source_state_row db source_id).latest_release_tag

/-- `published_at … NULLS LAST, first_seen_at`, upwards. -/
def compare_dates (a b : Row) : Ordering :=
  (compare_option compare a.2.published_at b.2.published_at).then
    (compare a.2.first_seen_at b.2.first_seen_at)

/-- The tag-matching row above the others, then by date. -/
def compare_listed (stored : Option String) (a b : Row) : Ordering :=
  (compare (decide (stored = some (tag_of a))) (decide (stored = some (tag_of b)))).then
    (compare_dates a b)

/-- `SELECT DISTINCT ON (source_id)`: the first row of each source. -/
def latest_seen_by_source (db : Db) (order : List Nat) (source_id : String) :
    Option SeenReleaseEntry :=
  let rows := (seen_rows db order source_id).insertionSort
    (fun a b => (compare_listed (stored_tag db source_id) b a).isLE)
  rows.head?.map (fun row =>
    ⟨row.1.2, tag_of row, row.2.published_at, row.2.url, some row.2.first_seen_at⟩)

/-- A row as the release that it is ordered as. -/
def release_of (row : Row) : Release :=
  ((Release.new row.1.2).display (tag_of row)).with_published row.2.published_at

/-- What the page shows of a release, by the row of its identity. -/
def entry_of (rows : List Row) (release : Release) : SeenReleaseEntry :=
  match rows.find? (fun row => row.1.2 = release.id) with
  | some row =>
    ⟨release.id, row.2.display_tag.getD release.raw_tag, row.2.published_at, row.2.url,
      some row.2.first_seen_at⟩
  | none => ⟨release.id, release.raw_tag, none, none, none⟩

/-- `slice::sort_by` under `compare_releases`: the list that it leaves, nothing where it panics. -/
abbrev SortBy := List Release → Option (List Release)

/-- What is documented of it: where the comparison is an order on the list, the list comes back in
that order, equals as they stood. Where it is none, any order may come back, or a panic. -/
def Sorts (sort_by : SortBy) : Prop :=
  ∀ l, TransOn (fun a b => (compare_releases a b).isLE = true) l →
    sort_by l = some (sort_releases_newest_first l)

/-- Newest version first. -/
def list_seen_releases (sort_by : SortBy) (db : Db) (order : List Nat) (source_id : String)
    (limit : Nat) : Option (List SeenReleaseEntry) :=
  let rows := seen_rows db order source_id
  (sort_by (rows.map release_of)).map (fun sorted => (sorted.take limit).map (entry_of rows))

/-- The stored tag, else that of the first entry in hand. -/
def effective_latest_release_tag (stored : Option String) (seen : List SeenReleaseEntry) :
    Option String := stored.or (seen.head?.map SeenReleaseEntry.tag)

/-- The latest release of a source in the list of all sources. -/
def listed_tag (db : Db) (order : List Nat) (source_id : String) : Option String :=
  effective_latest_release_tag (stored_tag db source_id)
    (latest_seen_by_source db order source_id).toList

/-- The latest release of a source on its own page, if there is a page. -/
def detailed_tag (sort_by : SortBy) (db : Db) (order : List Nat) (source_id : String) :
    Option (Option String) :=
  (list_seen_releases sort_by db order source_id 200).map
    (effective_latest_release_tag (stored_tag db source_id))

/-- The tag of the entry that `pick_latest` chooses. -/
def picked_tag (db : Db) (order : List Nat) (source_id : String) : Option String :=
  (pick_latest ((seen_rows db order source_id).map release_of)).map Release.raw_tag

/-! ## The orders of a table -/

/-- Every order of the rows is one that they may come in. -/
theorem exists_arrange {α : Type} {l l' : List α} (h : l'.Perm l) :
    ∃ order, arrange order l = l' := by
  induction l' generalizing l with
  | nil =>
    obtain rfl := List.nil_perm.mp h
    exact ⟨[], rfl⟩
  | cons a rest ih =>
    obtain ⟨i, hi, hget⟩ := List.getElem_of_mem (h.mem_iff.mp List.mem_cons_self)
    have hrest : rest.Perm (l.eraseIdx i) := by
      have hback := List.getElem_cons_eraseIdx_perm hi
      rw [hget] at hback
      exact (List.perm_cons a).mp (h.trans hback.symm)
    obtain ⟨order, horder⟩ := ih hrest
    refine ⟨i :: order, ?_⟩
    simp only [arrange, Nat.mod_eq_of_lt hi, List.getElem?_eq_getElem hi, hget, horder]

/-- The row of an identity is found by it. -/
theorem find_row {rows : List Row} {source_id : String} (hnodup : (rows.map Prod.fst).Nodup)
    (hsource : ∀ row ∈ rows, row.1.1 = source_id) {row : Row} (h : row ∈ rows) :
    rows.find? (fun other => other.1.2 = row.1.2) = some row := by
  cases hfind : rows.find? (fun other => other.1.2 = row.1.2) with
  | none =>
    have hnone := List.find?_eq_none.mp hfind row h
    simp at hnone
  | some other =>
    have hin := List.mem_of_find?_eq_some hfind
    have hid : other.1.2 = row.1.2 := by simpa using List.find?_some hfind
    have hkey : other.1 = row.1 := Prod.ext ((hsource other hin).trans (hsource row h).symm) hid
    rw [List.inj_on_of_nodup_map hnodup hin h hkey]

section
variable {db : Db} {source_id : String}

theorem seen_rows_perm (db : Db) (source_id : String) (order : List Nat) :
    (seen_rows db order source_id).Perm (seen_rows db [] source_id) :=
  arrange_perm order _

theorem tag_of_entry {order : List Nat} {row : Row} (h : row ∈ seen_rows db order source_id) :
    (entry_of (seen_rows db order source_id) (release_of row)).tag = tag_of row := by
  have hperm := seen_rows_perm db source_id order
  have hnodup : ((seen_rows db order source_id).map Prod.fst).Nodup :=
    (hperm.map Prod.fst).nodup_iff.mpr
      (Table.select_nodup db.seen_release (fun k _ => k.1 = source_id))
  have hsource : ∀ row ∈ seen_rows db order source_id, row.1.1 = source_id := by
    intro row hrow
    have hin := List.mem_filter.mp (hperm.mem_iff.mp hrow)
    simpa using hin.2
  have hfind := find_row hnodup hsource h
  have hid : (release_of row).id = row.1.2 := rfl
  have hraw : (release_of row).raw_tag = tag_of row := rfl
  unfold entry_of
  rw [hid, hfind]
  change row.2.display_tag.getD (release_of row).raw_tag = tag_of row
  rw [hraw]
  unfold tag_of
  cases row.2.display_tag <;> rfl

/-! ## What each page takes -/

/-- At least as late. -/
abbrev Later (a b : Row) : Prop := (compare_dates a b).isLE

/-- At least as new. -/
abbrev Newer (a b : Row) : Prop := (compare_releases (release_of a) (release_of b)).isLE

theorem compare_listed_none (a b : Row) : compare_listed none a b = compare_dates a b := rfl

theorem listed_first (h : stored_tag db source_id = none) (order : List Nat) :
    listed_tag db order source_id =
      (first Later (seen_rows db order source_id)).map tag_of := by
  have hhead := head_insertionSort Later (seen_rows db order source_id)
  unfold listed_tag effective_latest_release_tag latest_seen_by_source
  simp only [h, Option.none_or, compare_listed_none]
  rw [hhead]
  cases first Later (seen_rows db order source_id) <;> rfl

theorem head?_take_succ {α : Type} (l : List α) (n : Nat) : (l.take (n + 1)).head? = l.head? := by
  cases l <;> rfl

theorem detailed_some {sort_by : SortBy} {order : List Nat}
    (hsort : sort_by ((seen_rows db order source_id).map release_of) =
      some (sort_releases_newest_first ((seen_rows db order source_id).map release_of))) :
    detailed_tag sort_by db order source_id = some ((stored_tag db source_id).or
      ((first Newer (seen_rows db order source_id)).map tag_of)) := by
  have hhead := head_insertionSort (fun a b => (compare_releases a b).isLE = true)
    ((seen_rows db order source_id).map release_of)
  unfold detailed_tag list_seen_releases effective_latest_release_tag
  simp only [hsort, Option.map_some, List.head?_map, head?_take_succ]
  rw [sort_releases_newest_first, hhead, first_map]
  cases hfirst : first Newer (seen_rows db order source_id) with
  | none => rfl
  | some row =>
    have htag := tag_of_entry (mem_of_first _ hfirst)
    simp only [Option.map_some, htag]

/-- The last of equals, from the front, is the first of equals, from the end. -/
theorem pick_latest_first (l : List Release) :
    pick_latest l = first (fun a b => (compare_releases a b).isLE = true) l.reverse := by
  induction l using List.reverseRecOn with
  | nil => rfl
  | append_singleton l a ih =>
    rw [List.reverse_append, List.reverse_singleton, List.singleton_append, first, ← ih]
    cases l with
    | nil => rfl
    | cons r rest =>
      simp only [List.cons_append, pick_latest, List.foldl_append, List.foldl_cons, List.foldl_nil]
      congr 1
      unfold better
      generalize rest.foldl _ r = best
      cases hcmp : compare_releases best a <;> simp [hcmp]

theorem picked_first (order : List Nat) :
    picked_tag db order source_id =
      (first Newer (seen_rows db order source_id).reverse).map tag_of := by
  unfold picked_tag
  rw [pick_latest_first, ← List.map_reverse, first_map, Option.map_map]
  rfl

theorem compare_releases_flip (a b : Release) :
    compare_releases a b = (compare_releases b a).swap := by
  rw [compare_releases_tiebreak, compare_releases_tiebreak b a, Ordering.swap_then,
    ← tiebreak_swap]
  congr 1
  exact Std.OrientedCmp.eq_swap

instance : Std.TransCmp compare_dates := by
  have hoption := compare_option_trans (compare : DateTime → DateTime → Ordering)
  have hpublished := trans_on (fun row : Row => row.2.published_at)
    (compare_option (compare : DateTime → DateTime → Ordering))
  have hseen := trans_on (fun row : Row => row.2.first_seen_at)
    (compare : DateTime → DateTime → Ordering)
  have hlex : compare_dates = compareLex
      (fun a b : Row => compare_option compare a.2.published_at b.2.published_at)
      (fun a b : Row => compare a.2.first_seen_at b.2.first_seen_at) := rfl
  rw [hlex]
  infer_instance

theorem total_of_flip {o o' : Ordering} (h : o = o'.swap) : o.isLE ∨ o'.isLE := by
  subst h
  cases o' <;> simp [Ordering.swap]

theorem later_total (a b : Row) : Later a b ∨ Later b a :=
  total_of_flip Std.OrientedCmp.eq_swap

theorem newer_total (a b : Row) : Newer a b ∨ Newer b a :=
  total_of_flip (compare_releases_flip _ _)

/-! ## The law -/

/-- For whatever order the rows come in, the two pages show one latest release; where no tag is
stored, it is that of the entry that `pick_latest` chooses. -/
def PagesAgree (sort_by : SortBy) (db : Db) (source_id : String) : Prop :=
  ∀ order order' order'',
    detailed_tag sort_by db order' source_id = some (listed_tag db order source_id) ∧
    (stored_tag db source_id = none →
      detailed_tag sort_by db order' source_id = some (picked_tag db order'' source_id))

/-- The versions of the source's rows are in an order; and a tag is stored, or one tag is that of
each row that no other is later than and of each row that no other is newer than. -/
structure OneLatest (db : Db) (source_id : String) : Prop where
  ordered : TransOn Newer (seen_rows db [] source_id)
  latest : stored_tag db source_id ≠ none ∨
    ∃ tag, ∀ row ∈ seen_rows db [] source_id,
      (∀ other ∈ seen_rows db [] source_id, Later other row) ∨
        (∀ other ∈ seen_rows db [] source_id, Newer other row) → tag_of row = tag

theorem transOn_perm {α : Type} {le : α → α → Prop} {l l' : List α} (hperm : l'.Perm l)
    (h : TransOn le l) : TransOn le l' :=
  fun a ha b hb c hc =>
    h a (hperm.mem_iff.mp ha) b (hperm.mem_iff.mp hb) c (hperm.mem_iff.mp hc)

theorem later_transOn (l : List Row) : TransOn Later l :=
  fun _ _ _ _ _ _ hab hbc => Std.TransCmp.isLE_trans hab hbc

theorem releases_transOn_iff (l : List Row) :
    TransOn (fun a b => (compare_releases a b).isLE = true) (l.map release_of) ↔
      TransOn Newer l := by
  unfold TransOn
  simp only [List.forall_mem_map]

/-- Whichever row comes first, it has the tag exactly where all have it that no other beats. -/
theorem firsts_have_tag {le : Row → Row → Prop} [DecidableRel le]
    (htotal : ∀ a b, le a b ∨ le b a) (htrans : TransOn le (seen_rows db [] source_id))
    (tag : String) :
    (∀ row ∈ seen_rows db [] source_id, (∀ other ∈ seen_rows db [] source_id, le other row) →
        tag_of row = tag) ↔
      ∀ order, ∀ row, first le (seen_rows db order source_id) = some row → tag_of row = tag := by
  constructor
  · intro hall order row hrow
    have hperm := seen_rows_perm db source_id order
    have hbest := first_best htotal (transOn_perm hperm htrans) hrow
    exact hall row (hperm.mem_iff.mp (mem_of_first le hrow))
      fun other hother => hbest other (hperm.mem_iff.mpr hother)
  · intro hall row hin hbest
    obtain ⟨rows', hperm, hrow⟩ := exists_first hin hbest
    obtain ⟨order, rfl⟩ := exists_arrange hperm
    exact hall order row hrow

theorem first_has_tag {le : Row → Row → Prop} [DecidableRel le] {rows : List Row} {tag : String}
    (hne : rows ≠ []) (hall : ∀ row, first le rows = some row → tag_of row = tag) :
    (first le rows).map tag_of = some tag := by
  obtain ⟨row, hrow⟩ := Option.isSome_iff_exists.mp (first_isSome le hne)
  rw [hrow]
  exact congrArg some (hall row hrow)

/-- A comparison that does not order the rows may end in a panic. -/
theorem ordered_of_agree (h : ∀ sort_by, Sorts sort_by → PagesAgree sort_by db source_id) :
    TransOn Newer (seen_rows db [] source_id) := by
  classical
  by_contra hno
  let strict : SortBy := fun l =>
    if TransOn (fun a b => (compare_releases a b).isLE = true) l then
      some (sort_releases_newest_first l) else none
  have hpage := (h strict (fun l hl => if_pos hl) [] [] []).1
  have hpanics : strict ((seen_rows db [] source_id).map release_of) = none :=
    if_neg (fun ht => hno ((releases_transOn_iff _).mp ht))
  simp [detailed_tag, list_seen_releases, hpanics] at hpage

/-- Where the rows are in an order and no tag is stored, the pages agree exactly where one tag is
that of all rows that are latest by date and of all that are newest by version. -/
theorem unstored_agree_iff {sort_by : SortBy} (hsort : Sorts sort_by)
    (hordered : TransOn Newer (seen_rows db [] source_id))
    (hstored : stored_tag db source_id = none) :
    PagesAgree sort_by db source_id ↔ ∃ tag,
      (∀ order, ∀ row, first Later (seen_rows db order source_id) = some row → tag_of row = tag) ∧
      ∀ order, ∀ row, first Newer (seen_rows db order source_id) = some row →
        tag_of row = tag := by
  have hdetailed : ∀ order, detailed_tag sort_by db order source_id =
      some ((first Newer (seen_rows db order source_id)).map tag_of) := by
    intro order
    rw [detailed_some (hsort _ ((releases_transOn_iff _).mpr
      (transOn_perm (seen_rows_perm db source_id order) hordered))), hstored, Option.none_or]
  unfold PagesAgree
  simp only [hstored, forall_const, hdetailed, listed_first hstored, picked_first,
    Option.some.injEq]
  by_cases hne : seen_rows db [] source_id = []
  · have hnil : ∀ order, seen_rows db order source_id = [] := by
      intro order
      have hperm := seen_rows_perm db source_id order
      rw [hne] at hperm
      exact hperm.eq_nil
    exact iff_of_true (by simp [hnil, first]) ⟨"", by simp [hnil, first]⟩
  · have hrows : ∀ {rows : List Row}, rows.Perm (seen_rows db [] source_id) → rows ≠ [] := by
      rintro rows hperm rfl
      exact hne hperm.symm.eq_nil
    constructor
    · intro hagree
      obtain ⟨head, hhead⟩ := Option.isSome_iff_exists.mp (first_isSome Newer hne)
      have hlisted : ∀ order, (first Later (seen_rows db order source_id)).map tag_of =
          some (tag_of head) := by
        intro order
        rw [← (hagree order [] []).1, hhead]
        rfl
      refine ⟨tag_of head, fun order row hrow => ?_, fun order row hrow => ?_⟩
      · have htag := hlisted order
        rw [hrow] at htag
        exact Option.some.inj htag
      · have htag := (hagree [] order []).1
        rw [hlisted, hrow] at htag
        exact Option.some.inj htag
    · rintro ⟨tag, hlater, hnewer⟩ order order' order''
      have hperm'' := (List.reverse_perm _).trans (seen_rows_perm db source_id order'')
      obtain ⟨order₃, horder₃⟩ := exists_arrange hperm''
      have horder₃ : seen_rows db order₃ source_id = (seen_rows db order'' source_id).reverse :=
        horder₃
      rw [first_has_tag (hrows (seen_rows_perm db source_id order)) (hlater order),
        first_has_tag (hrows (seen_rows_perm db source_id order')) (hnewer order'), ← horder₃,
        first_has_tag (hrows (seen_rows_perm db source_id order₃)) (hnewer order₃)]
      exact ⟨rfl, rfl⟩

/-- The pages agree under every sort exactly where the rows are in an order, and a tag is stored or
one tag is that of all rows that are latest by date and of all that are newest by version. -/
theorem pages_agree_iff (db : Db) (source_id : String) :
    (∀ sort_by, Sorts sort_by → PagesAgree sort_by db source_id) ↔ OneLatest db source_id := by
  by_cases hordered : TransOn Newer (seen_rows db [] source_id)
  · cases hstored : stored_tag db source_id with
    | some tag =>
      refine iff_of_true ?_ ⟨hordered, Or.inl (by simp [hstored])⟩
      intro sort_by hsort order order' order''
      refine ⟨?_, fun h => ?_⟩
      · rw [detailed_some (hsort _ ((releases_transOn_iff _).mpr
          (transOn_perm (seen_rows_perm db source_id order') hordered)))]
        simp [listed_tag, effective_latest_release_tag, hstored]
      · rw [hstored] at h
        cases h
    | none =>
      have hsplit : OneLatest db source_id ↔ ∃ tag,
          (∀ order, ∀ row, first Later (seen_rows db order source_id) = some row →
            tag_of row = tag) ∧
          ∀ order, ∀ row, first Newer (seen_rows db order source_id) = some row →
            tag_of row = tag := by
        simp only [← firsts_have_tag later_total (later_transOn _),
          ← firsts_have_tag newer_total hordered]
        constructor
        · intro h
          obtain ⟨tag, hall⟩ := h.latest.resolve_left (fun hno => hno hstored)
          exact ⟨tag, fun row hrow htop => hall row hrow (Or.inl htop),
            fun row hrow htop => hall row hrow (Or.inr htop)⟩
        · rintro ⟨tag, hlater, hnewer⟩
          exact ⟨hordered, Or.inr ⟨tag, fun row hrow => Or.rec (hlater row hrow)
            (hnewer row hrow)⟩⟩
      rw [hsplit]
      constructor
      · intro h
        have hsorts : Sorts (fun l => some (sort_releases_newest_first l)) := fun _ _ => rfl
        exact (unstored_agree_iff hsorts hordered hstored).mp (h _ hsorts)
      · intro h sort_by hsort
        exact (unstored_agree_iff hsort hordered hstored).mpr h
  · exact iff_of_false (fun h => hordered (ordered_of_agree h)) (fun h => hordered h.ordered)

end

/-! ## A maintenance release that came later -/

def seen_at (published_at : DateTime) : SeenRow := ⟨none, 0, none, some published_at, none⟩

/-- Version 2.0.0, and after it 1.9.1; no tag is stored. -/
def two_lines : Db :=
  { Db.empty with
    seen_release := (Table.empty.add ("github:acme/app", "v2.0.0") (seen_at 1)).add
      ("github:acme/app", "v1.9.1") (seen_at 2) }

/-- The list shows what was published last, the detail page what is newest. -/
theorem a_maintenance_release_divides_the_pages :
    ¬∀ db source_id sort_by, Sorts sort_by → PagesAgree sort_by db source_id := by
  intro h
  have hpages := (h two_lines "github:acme/app" (fun l => some (sort_releases_newest_first l))
    (fun _ _ => rfl) [] [] []).1
  exact absurd hpages (by decide +kernel)

end xrelease.listed
