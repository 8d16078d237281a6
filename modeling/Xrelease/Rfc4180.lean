-- Comma-separated values as RFC 4180 has them: a reader, character by character, and what it makes
-- of records whose fields are spelled bare or in quotes.
import Mathlib.Data.List.Basic

namespace rfc4180

/-! ## The reader -/

inductive Mode where
  /-- At the beginning of a field. -/
  | opens
  | bare
  | quoted
  /-- Behind a quote in a quoted field: the end of the field, or the first of two quotes. -/
  | closing
  /-- Behind a carriage return. -/
  | returned
deriving DecidableEq

structure Reader where
  records : List (List (List Char)) := []
  fields : List (List Char) := []
  field : List Char := []
  mode : Mode := .opens
deriving DecidableEq

/-- A comma ends the field, and a carriage return begins the end of the record. -/
def ends (r : Reader) (c : Char) : Option Reader :=
  if c = ',' then some { r with fields := r.fields ++ [r.field], field := [], mode := .opens }
  else if c = '\r' then some { r with mode := .returned }
  else none

def bare (r : Reader) (c : Char) : Option Reader :=
  if c = ',' ∨ c = '\r' then ends r c
  else if c = '"' ∨ c = '\n' then none
  else some { r with field := r.field ++ [c], mode := .bare }

def step (r : Reader) (c : Char) : Option Reader :=
  match r.mode with
  | .opens => if c = '"' then some { r with mode := .quoted } else bare r c
  | .bare => bare r c
  | .quoted =>
    if c = '"' then some { r with mode := .closing } else some { r with field := r.field ++ [c] }
  | .closing =>
    if c = '"' then some { r with field := r.field ++ [c], mode := .quoted } else ends r c
  | .returned =>
    if c = '\n' then some { records := r.records ++ [r.fields ++ [r.field]] } else none

/-- The records read so far; the last one may go without a line break. -/
def finish (r : Reader) : Option (List (List (List Char))) :=
  match r.mode with
  | .quoted | .returned => none
  | .opens | .bare | .closing =>
    if r.fields = [] ∧ r.field = [] ∧ r.mode = .opens then some r.records
    else some (r.records ++ [r.fields ++ [r.field]])

def read (text : List Char) : Option (List (List (List Char))) :=
  (text.foldlM step {}).bind finish

/-! ## Fields -/

def special (c : Char) : Bool := c = '"' || c = ',' || c = '\r' || c = '\n'

/-- Every quote is doubled. -/
def doubled (text : List Char) : List Char :=
  text.flatMap (fun c => if c = '"' then ['"', '"'] else [c])

/-- The spellings of a field: bare, where nothing in it is special, or in quotes. -/
inductive Spells : List Char → List Char → Prop where
  | bare {text : List Char} (h : ∀ c ∈ text, special c = false) : Spells text text
  | quoted (text : List Char) : Spells ('"' :: doubled text ++ ['"']) text

/-- A field is read as a whole, and a comma or a carriage return would end it. -/
structure ReadField (r r' : Reader) (text : List Char) : Prop where
  records : r'.records = r.records
  fields : r'.fields = r.fields
  field : r'.field = text
  complete : ∀ c, c = ',' ∨ c = '\r' → step r' c = ends r' c

theorem read_doubled (text : List Char) {r : Reader} (h : r.mode = .quoted) :
    (doubled text).foldlM step r = some { r with field := r.field ++ text } := by
  induction text generalizing r with
  | nil => simp [doubled]
  | cons c rest ih =>
    have hone : (if c = '"' then ['"', '"'] else [c]).foldlM step r =
        some { r with field := r.field ++ [c] } := by
      split
      · rename_i hc
        subst hc
        simp [List.foldlM_cons, step, h]
      · rename_i hc
        simp [List.foldlM_cons, step, h, hc]
    have hrest := @ih { r with field := r.field ++ [c] } h
    unfold doubled at hrest ⊢
    rw [List.flatMap_cons, List.foldlM_append, hone]
    simpa using hrest

theorem step_plain {c : Char} (h : special c = false) {r : Reader}
    (hmode : r.mode = .opens ∨ r.mode = .bare) :
    step r c = some { r with field := r.field ++ [c], mode := .bare } := by
  simp only [special, Bool.or_eq_false_iff, decide_eq_false_iff_not] at h
  obtain ⟨⟨⟨hquote, hcomma⟩, hreturn⟩, hfeed⟩ := h
  unfold step
  rcases hmode with hmode | hmode <;> simp [hmode, bare, hquote, hcomma, hreturn, hfeed]

theorem read_bare {text : List Char} (h : ∀ c ∈ text, special c = false) {r : Reader}
    (hmode : r.mode = .bare) :
    text.foldlM step r = some { r with field := r.field ++ text } := by
  induction text generalizing r with
  | nil => simp
  | cons c rest ih =>
    rw [List.foldlM_cons, step_plain (h c (List.mem_cons_self ..)) (Or.inr hmode)]
    have hrest := @ih (fun d hd => h d (List.mem_cons_of_mem _ hd))
      { r with field := r.field ++ [c], mode := .bare } rfl
    simp only [Option.bind_eq_bind, Option.bind_some, hrest, List.append_assoc, List.cons_append,
      List.nil_append, hmode]

theorem complete_bare {r : Reader} (h : r.mode = .opens ∨ r.mode = .bare) (c : Char)
    (hc : c = ',' ∨ c = '\r') : step r c = ends r c := by
  have hquote : c ≠ '"' := by
    rintro rfl
    rcases hc with hc | hc <;> cases hc
  unfold step
  rcases h with h | h <;> simp [h, bare, hc, hquote]

theorem read_field {spelling text : List Char} (h : Spells spelling text) {r : Reader}
    (hmode : r.mode = .opens) (hfield : r.field = []) :
    ∃ r', spelling.foldlM step r = some r' ∧ ReadField r r' text := by
  cases h with
  | bare hplain =>
    cases spelling with
    | nil => exact ⟨r, rfl, rfl, rfl, hfield, complete_bare (Or.inl hmode)⟩
    | cons c rest =>
      refine ⟨{ r with field := c :: rest, mode := .bare }, ?_, rfl, rfl, rfl,
        complete_bare (Or.inr rfl)⟩
      rw [List.foldlM_cons, step_plain (hplain c (List.mem_cons_self ..)) (Or.inl hmode), hfield]
      exact read_bare (fun d hd => hplain d (List.mem_cons_of_mem _ hd)) rfl
  | quoted text =>
    refine ⟨{ r with field := text, mode := .closing }, ?_, rfl, rfl, rfl, ?_⟩
    · have hopen : step r '"' = some { r with mode := .quoted } := by simp [step, hmode]
      rw [List.cons_append, List.foldlM_cons, hopen]
      simp only [Option.bind_eq_bind, Option.bind_some]
      rw [List.foldlM_append, read_doubled text rfl, hfield]
      rfl
    · intro c hc
      have hquote : c ≠ '"' := by
        rintro rfl
        rcases hc with hc | hc <;> cases hc
      simp [step, hquote]

/-! ## Records -/

/-- The fields of a record, spelled one by one; a record has at least one. -/
def record (spellings : List (List Char)) : List Char := [','].intercalate spellings

theorem read_record {spellings texts : List (List Char)}
    (h : List.Forall₂ Spells spellings texts) (hne : texts ≠ []) {r : Reader}
    (hmode : r.mode = .opens) (hfield : r.field = []) :
    (record spellings ++ ['\r', '\n']).foldlM step r =
      some { records := r.records ++ [r.fields ++ texts] } := by
  induction h generalizing r with
  | nil => exact (hne rfl).elim
  | @cons spelling text spellings texts hhere hrest ih =>
    obtain ⟨r', hread, hr'⟩ := read_field hhere hmode hfield
    cases hrest with
    | nil =>
      have hreturn : step r' '\r' = some { r' with mode := .returned } :=
        (hr'.complete _ (Or.inr rfl)).trans rfl
      rw [record, List.intercalate_singleton, List.foldlM_append, hread]
      simp only [List.foldlM_cons, List.foldlM_nil, Option.bind_eq_bind, Option.bind_some, hreturn,
        hr'.records, hr'.fields, hr'.field]
      rfl
    | @cons next _ more _ hnext hmore =>
      have hcomma : step r' ',' =
          some { r' with fields := r'.fields ++ [r'.field], field := [], mode := .opens } :=
        (hr'.complete _ (Or.inl rfl)).trans rfl
      have hrecord : record (spelling :: next :: more) =
          spelling ++ ',' :: record (next :: more) := by
        rw [record, List.intercalate_cons_cons, List.append_assoc, record]
        rfl
      have hgoes := @ih (List.cons_ne_nil _ _)
        { r' with fields := r'.fields ++ [r'.field], field := [], mode := .opens } rfl rfl
      rw [hrecord, List.append_assoc, List.foldlM_append, hread]
      simp only [List.cons_append, List.foldlM_cons, Option.bind_eq_bind, Option.bind_some, hcomma]
      rw [hgoes]
      simp [hr'.records, hr'.fields, hr'.field]

/-- Records with their line breaks read back as they are. -/
theorem read_records {rows texts : List (List (List Char))}
    (h : List.Forall₂ (List.Forall₂ Spells) rows texts) (hne : ∀ record ∈ texts, record ≠ []) :
    read (rows.flatMap (fun spellings => record spellings ++ ['\r', '\n'])) = some texts := by
  have hall : ∀ before, (rows.flatMap (fun spellings => record spellings ++ ['\r', '\n'])).foldlM
      step { records := before } = some { records := before ++ texts } := by
    induction h with
    | nil => exact fun before => by simp
    | @cons spellings fields rows texts hhere hrest ih =>
      intro before
      have hone := @read_record spellings fields hhere (hne _ (List.mem_cons_self ..))
        { records := before } rfl rfl
      rw [List.flatMap_cons, List.foldlM_append, hone]
      have hmore := ih (fun r hr => hne r (List.mem_cons_of_mem _ hr)) (before ++ [fields])
      simpa using hmore
  unfold read
  rw [hall []]
  rfl

end rfc4180
