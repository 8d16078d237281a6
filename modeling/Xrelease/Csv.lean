-- Tables as CSV (`front/src/lib/core/csv.ts`): what an export holds is what the table shows.
import Mathlib.Data.List.Forall2
import Xrelease.Rfc4180

namespace xrelease.csv

open rfc4180

/-- A cell; a number comes with what `String` makes of it. -/
inductive Cell where
  | absent
  | text (value : String)
  | number (shown : String)
  | flag (value : Bool)
deriving DecidableEq

/-- What the cell shows. -/
def Cell.shown : Cell → String
  | .absent => ""
  | .text value => value
  | .number shown => shown
  | .flag value => if value then "true" else "false"

def csvEscape (value : Cell) : String :=
  match value with
  | .absent => ""
  | value =>
    if value.shown.toList.any special then
      String.ofList ('"' :: doubled value.shown.toList ++ ['"'])
    else value.shown

def toCsv (headers : List String) (rows : List (List Cell)) : String :=
  let lines := ",".intercalate (headers.map (fun header => csvEscape (.text header))) ::
    rows.map (fun row => ",".intercalate (row.map csvEscape))
  "\r\n".intercalate lines ++ "\r\n"

theorem spells_shown (value : String) :
    Spells (if value.toList.any special then String.ofList ('"' :: doubled value.toList ++ ['"'])
      else value).toList value.toList := by
  split
  · rw [String.toList_ofList]
    exact .quoted _
  · rename_i hplain
    refine .bare fun c hc => ?_
    rw [Bool.not_eq_true, List.any_eq_false] at hplain
    simpa using hplain c hc

theorem spells_escape (cell : Cell) : Spells (csvEscape cell).toList cell.shown.toList := by
  cases cell with
  | absent => exact .bare (fun c hc => by cases hc)
  | text value => exact spells_shown _
  | number shown => exact spells_shown _
  | flag value => exact spells_shown _

/-- What a row is written as; a row without cells is written as one empty cell. -/
def spellings (row : List Cell) : List (List Char) :=
  if row = [] then [[]] else row.map (fun cell => (csvEscape cell).toList)

/-- What a row reads as. -/
def fields (row : List Cell) : List (List Char) :=
  if row = [] then [[]] else row.map (fun cell => cell.shown.toList)

theorem spells_row (row : List Cell) : List.Forall₂ Spells (spellings row) (fields row) := by
  unfold spellings fields
  split
  · exact .cons (.bare (fun c hc => by cases hc)) .nil
  · rw [List.forall₂_map_left_iff, List.forall₂_map_right_iff, List.forall₂_same]
    exact fun cell _ => spells_escape cell

theorem fields_ne_nil (row : List Cell) : fields row ≠ [] := by
  unfold fields
  split
  · exact List.cons_ne_nil _ _
  · rename_i hne
    exact fun h => hne (List.map_eq_nil_iff.mp h)

theorem line_toList (row : List Cell) :
    (",".intercalate (row.map csvEscape)).toList = record (spellings row) := by
  rw [String.toList_intercalate]
  unfold record spellings
  split
  · rename_i h
    subst h
    rfl
  · rw [List.map_map]
    rfl

/-- Lines with a break between them and one at the end are lines with a break each. -/
theorem intercalate_ended (sep first : List Char) (rest : List (List Char)) :
    sep.intercalate (first :: rest) ++ sep = (first :: rest).flatMap (· ++ sep) := by
  induction rest generalizing first with
  | nil => simp
  | cons second rest ih =>
    rw [List.intercalate_cons_cons, List.append_assoc, List.append_assoc, ih second]
    simp

theorem toCsv_toList (headers : List String) (rows : List (List Cell)) :
    (toCsv headers rows).toList = ((headers.map .text :: rows).map spellings).flatMap
      (fun line => record line ++ ['\r', '\n']) := by
  unfold toCsv
  have hlines : (",".intercalate (headers.map (fun header => csvEscape (.text header))) ::
      rows.map (fun row => ",".intercalate (row.map csvEscape))).map String.toList =
        (headers.map .text :: rows).map (fun row => record (spellings row)) := by
    rw [List.map_cons, List.map_map, List.map_cons, ← line_toList, List.map_map]
    simp only [Function.comp_def, line_toList]
  rw [String.toList_append, String.toList_intercalate, hlines, List.map_cons, intercalate_ended,
    ← List.map_cons (f := fun row => record (spellings row)), List.flatMap_map, List.flatMap_map]
  rfl

/-- An exported table reads back as its headers and its rows, cell by cell, whatever is in them. -/
theorem an_export_reads_back (headers : List String) (rows : List (List Cell)) :
    read (toCsv headers rows).toList = some ((headers.map .text :: rows).map fields) := by
  rw [toCsv_toList]
  refine read_records ?_ ?_
  · rw [List.forall₂_map_left_iff, List.forall₂_map_right_iff, List.forall₂_same]
    exact fun row _ => spells_row row
  · intro record hrecord
    obtain ⟨row, -, rfl⟩ := List.mem_map.mp hrecord
    exact fields_ne_nil row

end xrelease.csv
