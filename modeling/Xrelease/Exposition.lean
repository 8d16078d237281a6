-- The text format in which metrics are exposed: the lines of a page, how a reader takes them
-- apart, and a printer that the reader undoes. How a label's value is escaped is a parameter
-- of the printer.
import Mathlib.Data.List.Basic
import Mathlib.Data.List.Nodup
import Mathlib.Data.List.TakeDrop

namespace exposition

/-! ## The lines of a page -/

/-- One sample: the labels as they are after unescaping, the value as it is spelled. -/
structure Sample where
  name : List Char
  labels : List (List Char × List Char)
  value : List Char
  stamp : Option (List Char)
deriving DecidableEq

inductive Line where
  | blank
  | comment
  | help (name text : List Char)
  | type (name kind : List Char)
  | sample (s : Sample)
deriving DecidableEq

/-! ## Reading a line -/

def is_blank (c : Char) : Bool := c == ' ' || c == '\t'

def skip (s : List Char) : List Char := s.dropWhile is_blank

/-- The token at the head, and what follows it. -/
def word (s : List Char) : List Char × List Char := s.span (fun c => !is_blank c)

def label_start (c : Char) : Bool := c.isAlpha || c == '_'

def label_char (c : Char) : Bool := label_start c || c.isDigit

def name_start (c : Char) : Bool := label_start c || c == ':'

def name_char (c : Char) : Bool := name_start c || c.isDigit

def is_label : List Char → Bool
  | [] => false
  | c :: s => label_start c && s.all label_char

def is_name : List Char → Bool
  | [] => false
  | c :: s => name_start c && s.all name_char

def kinds : List (List Char) :=
  [['c', 'o', 'u', 'n', 't', 'e', 'r'], ['g', 'a', 'u', 'g', 'e'],
    ['h', 'i', 's', 't', 'o', 'g', 'r', 'a', 'm'], ['s', 'u', 'm', 'm', 'a', 'r', 'y'],
    ['u', 'n', 't', 'y', 'p', 'e', 'd']]

def read_fraction : List Char → List Char × List Char
  | '.' :: s => s.span Char.isDigit
  | s => ([], s)

/-- After the sign: digits, and an exponent if there is one. -/
def is_decimal (s : List Char) : Bool :=
  let (whole, s) := s.span Char.isDigit
  let (fraction, s) := read_fraction s
  !(whole ++ fraction).isEmpty && match s with
    | [] => true
    | c :: s => (c == 'e' || c == 'E') && match s with
      | '+' :: s => !s.isEmpty && s.all Char.isDigit
      | '-' :: s => !s.isEmpty && s.all Char.isDigit
      | s => !s.isEmpty && s.all Char.isDigit

def is_special (s : List Char) : Bool :=
  [['n', 'a', 'n'], ['i', 'n', 'f'], ['i', 'n', 'f', 'i', 'n', 'i', 't', 'y']].contains
    (s.map Char.toLower)

def is_float : List Char → Bool
  | '+' :: s => is_decimal s || is_special s
  | '-' :: s => is_decimal s || is_special s
  | s => is_decimal s || is_special s

def is_integer : List Char → Bool
  | '-' :: s => !s.isEmpty && s.all Char.isDigit
  | s => !s.isEmpty && s.all Char.isDigit

/-- The text of a `HELP` line: a backslash and a line feed come escaped. -/
def unescape : List Char → Option (List Char)
  | [] => some []
  | '\\' :: '\\' :: s => (unescape s).map ('\\' :: ·)
  | '\\' :: 'n' :: s => (unescape s).map ('\n' :: ·)
  | '\\' :: _ => none
  | c :: s => (unescape s).map (c :: ·)

/-- The value of a label behind its opening quote: there the quote is escaped too. -/
def read_quoted : List Char → Option (List Char × List Char)
  | [] => none
  | '"' :: s => some ([], s)
  | '\\' :: '\\' :: s => (read_quoted s).map (fun (v, s) => ('\\' :: v, s))
  | '\\' :: '"' :: s => (read_quoted s).map (fun (v, s) => ('"' :: v, s))
  | '\\' :: 'n' :: s => (read_quoted s).map (fun (v, s) => ('\n' :: v, s))
  | '\\' :: _ => none
  | c :: s => (read_quoted s).map (fun (v, s) => (c :: v, s))

/-- The character, after any blanks. -/
def expect (c : Char) (s : List Char) : Option (List Char) :=
  match skip s with
  | [] => none
  | d :: s => if d = c then some s else none

/-- The labels behind the opening brace; a comma may stand before the closing one. -/
def read_labels : Nat → List Char → Option (List (List Char × List Char) × List Char)
  | 0, _ => none
  | fuel + 1, s =>
    match expect '}' s with
    | some s => some ([], s)
    | none =>
      let (name, s) := (skip s).span label_char
      if is_label name then
        match ((expect '=' s).bind (expect '"')).bind read_quoted with
        | none => none
        | some (value, s) =>
          match expect '}' s with
          | some s => some ([(name, value)], s)
          | none =>
            ((expect ',' s).bind (read_labels fuel)).map (fun (ls, s) => ((name, value) :: ls, s))
      else none

def read_sample (s : List Char) : Option Line :=
  let (name, s) := s.span name_char
  let labels := match expect '{' s with
    | some s => read_labels (s.length + 1) s
    | none => some ([], s)
  match labels with
  | none => none
  | some (labels, s) =>
    let (value, s) := word (skip s)
    let (stamp, s) := word (skip s)
    if is_name name && decide (labels.map Prod.fst).Nodup && is_float value &&
        (stamp.isEmpty || is_integer stamp) && (skip s).isEmpty then
      some (.sample ⟨name, labels, value, if stamp.isEmpty then none else some stamp⟩)
    else none

/-- A line behind its `#`: a comment unless its first token is `HELP` or `TYPE`. -/
def read_comment (s : List Char) : Option Line :=
  let (key, s) := word (skip s)
  if key = ['H', 'E', 'L', 'P'] then
    let (name, s) := word (skip s)
    if is_name name then (unescape (skip s)).map (.help name) else none
  else if key = ['T', 'Y', 'P', 'E'] then
    let (name, s) := word (skip s)
    let (kind, s) := word (skip s)
    if is_name name && kinds.contains kind && (skip s).isEmpty then some (.type name kind) else none
  else some .comment

def read_line (s : List Char) : Option Line :=
  match expect '#' s with
  | some s => read_comment s
  | none => if (skip s).isEmpty then some .blank else read_sample (skip s)

/-! ## Reading a page -/

/-- The lines that a line feed ends, and what stands behind the last one. -/
def cut : List Char → List (List Char) × List Char
  | [] => ([], [])
  | c :: s =>
    let (ls, tail) := cut s
    if c = '\n' then ([] :: ls, tail)
    else match ls with
      | [] => ([], c :: tail)
      | l :: ls => ((c :: l) :: ls, tail)

/-- Every line is read, and the last one has to be ended too. -/
def parse (s : List Char) : Option (List Line) :=
  let (ls, tail) := cut s
  if tail = [] then ls.mapM read_line else none

theorem cut_line {l : List Char} (h : '\n' ∉ l) (s : List Char) :
    cut (l ++ '\n' :: s) = (l :: (cut s).1, (cut s).2) := by
  induction l with
  | nil => simp [cut]
  | cons c l ih =>
    have hc : c ≠ '\n' := fun he => h (he ▸ List.mem_cons_self)
    rw [List.cons_append, cut, ih (fun hm => h (List.mem_cons_of_mem _ hm))]
    simp [hc]

/-- A page is its first line and the rest of it. -/
theorem parse_line {l : List Char} (h : '\n' ∉ l) (s : List Char) :
    parse (l ++ '\n' :: s) =
      (read_line l).bind (fun line => (parse s).map (line :: ·)) := by
  unfold parse
  rw [cut_line h]
  obtain ⟨ls, tail⟩ := cut s
  dsimp only
  by_cases htail : tail = []
  · rw [if_pos htail, if_pos htail, List.mapM_cons]
    cases read_line l <;> cases List.mapM read_line ls <;> rfl
  · rw [if_neg htail, if_neg htail]
    cases read_line l <;> rfl

/-! ## Tokens -/

theorem skip_cons {c : Char} (h : is_blank c = false) (s : List Char) : skip (c :: s) = c :: s := by
  simp [skip, h]

theorem skip_blank (s : List Char) : skip (' ' :: s) = skip s := by
  simp [skip, is_blank]

theorem expect_cons {c : Char} (h : is_blank c = false) (s : List Char) :
    expect c (c :: s) = some s := by
  rw [expect, skip_cons h]
  exact if_pos rfl

theorem expect_other {c d : Char} (h : is_blank d = false) (hne : d ≠ c) (s : List Char) :
    expect c (d :: s) = none := by
  rw [expect, skip_cons h]
  exact if_neg hne

/-- The text of a token has no blank and no line feed. -/
def Solid (s : List Char) : Prop := ∀ c ∈ s, is_blank c = false ∧ c ≠ '\n'

theorem Solid.skip {s : List Char} (h : Solid s) (hne : s ≠ []) (rest : List Char) :
    exposition.skip (s ++ rest) = s ++ rest := by
  cases s with
  | nil => exact absurd rfl hne
  | cons c s => exact skip_cons (h c List.mem_cons_self).1 (s ++ rest)

theorem span_append {p : Char → Bool} {s : List Char} (h : ∀ c ∈ s, p c = true) {rest : List Char}
    (hrest : ∀ c ∈ rest.head?, p c = false) : (s ++ rest).span p = (s, rest) := by
  rw [List.span_eq_takeWhile_dropWhile, List.takeWhile_append_of_pos h,
    List.dropWhile_append_of_pos h]
  cases rest with
  | nil => simp
  | cons c rest => simp [hrest c rfl]

theorem Solid.word {s : List Char} (h : Solid s) {rest : List Char}
    (hrest : ∀ c ∈ rest.head?, is_blank c = true) : exposition.word (s ++ rest) = (s, rest) := by
  refine span_append (fun c hc => ?_) (fun c hc => ?_)
  · simp [(h c hc).1]
  · simp [hrest c hc]

theorem solid_of_all {p : Char → Bool} (hspace : p ' ' = false) (htab : p '\t' = false)
    (hfeed : p '\n' = false) {s : List Char} (h : ∀ c ∈ s, p c = true) : Solid s := by
  intro c hc
  have hp := h c hc
  refine ⟨?_, ?_⟩
  · unfold is_blank
    by_cases hs : c = ' '
    · rw [hs, hspace] at hp
      cases hp
    · by_cases ht : c = '\t'
      · rw [ht, htab] at hp
        cases hp
      · simp [hs, ht]
  · rintro rfl
    rw [hfeed] at hp
    cases hp

theorem chars_of_name {s : List Char} (h : is_name s = true) :
    s ≠ [] ∧ ∀ c ∈ s, name_char c = true := by
  cases s with
  | nil => cases h
  | cons c s =>
    unfold is_name at h
    rw [Bool.and_eq_true, List.all_eq_true] at h
    refine ⟨List.cons_ne_nil c s, fun d hd => ?_⟩
    rcases List.mem_cons.mp hd with rfl | hd
    · unfold name_char
      rw [h.1, Bool.true_or]
    · exact h.2 d hd

theorem chars_of_label {s : List Char} (h : is_label s = true) :
    s ≠ [] ∧ ∀ c ∈ s, label_char c = true := by
  cases s with
  | nil => cases h
  | cons c s =>
    unfold is_label at h
    rw [Bool.and_eq_true, List.all_eq_true] at h
    refine ⟨List.cons_ne_nil c s, fun d hd => ?_⟩
    rcases List.mem_cons.mp hd with rfl | hd
    · unfold label_char
      rw [h.1, Bool.true_or]
    · exact h.2 d hd

theorem solid_of_name {s : List Char} (h : is_name s = true) : Solid s :=
  solid_of_all (by decide) (by decide) (by decide) (chars_of_name h).2

theorem solid_of_label {s : List Char} (h : is_label s = true) : Solid s :=
  solid_of_all (by decide) (by decide) (by decide) (chars_of_label h).2

theorem Solid.append {s t : List Char} (hs : Solid s) (ht : Solid t) : Solid (s ++ t) := by
  intro c hc
  rcases List.mem_append.mp hc with hc | hc
  · exact hs c hc
  · exact ht c hc

theorem is_name_append {name rest : List Char} (hname : is_name name = true)
    (hrest : ∀ c ∈ rest, name_char c = true) : is_name (name ++ rest) = true := by
  cases name with
  | nil => cases hname
  | cons c name =>
    unfold is_name at hname
    rw [Bool.and_eq_true] at hname
    rw [List.cons_append, is_name, List.all_append, Bool.and_eq_true, Bool.and_eq_true]
    exact ⟨hname.1, hname.2, List.all_eq_true.mpr hrest⟩

theorem solid_of_digits {s : List Char} (h : ∀ c ∈ s, c.isDigit = true) : Solid s :=
  solid_of_all (by decide) (by decide) (by decide) h

/-- Digits, with a point and more digits behind them or not, are a float. -/
theorem float_of_digits {whole : List Char} (hne : whole ≠ [])
    (hwhole : ∀ c ∈ whole, c.isDigit = true) {rest : List Char}
    (hrest : rest = [] ∨ ∃ fraction, rest = '.' :: fraction ∧
      ∀ c ∈ fraction, c.isDigit = true) : is_float (whole ++ rest) = true := by
  have hdecimal : is_decimal (whole ++ rest) = true := by
    unfold is_decimal
    rcases hrest with rfl | ⟨fraction, rfl, hfraction⟩
    · rw [span_append hwhole (by simp)]
      simp [read_fraction, hne]
    · have hspan := @span_append Char.isDigit fraction hfraction [] (by simp)
      rw [List.append_nil] at hspan
      have hread : read_fraction ('.' :: fraction) = (fraction, []) := hspan
      rw [span_append hwhole (by simp)]
      dsimp only
      rw [hread]
      simp [hne]
  cases whole with
  | nil => exact absurd rfl hne
  | cons c whole =>
    have hc := hwhole c List.mem_cons_self
    rw [List.cons_append] at hdecimal ⊢
    rw [is_float, hdecimal, Bool.true_or]
    · rintro s he
      cases he
      exact absurd hc (by decide)
    · rintro s he
      cases he
      exact absurd hc (by decide)

/-! ## Printing -/

/-- How the values of labels are escaped: a value on one line reads back, and one that has a line
feed is cut inside its quotes. -/
structure Escapes (escape : List Char → List Char) : Prop where
  reads : ∀ v, '\n' ∉ v → ∀ s, read_quoted (escape v ++ '"' :: s) = some (v, s)
  one_line : ∀ v, '\n' ∉ v → '\n' ∉ escape v
  cuts : ∀ v, '\n' ∈ v → ∃ before after, escape v = before ++ '\n' :: after ∧ '\n' ∉ before ∧
    read_quoted before = none

section
variable (escape : List Char → List Char)

def print_label (l : List Char × List Char) : List Char :=
  l.1 ++ '=' :: '"' :: (escape l.2 ++ ['"'])

/-- The labels behind the opening brace. -/
def print_labels : List (List Char × List Char) → List Char
  | [] => ['}']
  | [l] => print_label escape l ++ ['}']
  | l :: l' :: ls => print_label escape l ++ ',' :: print_labels (l' :: ls)

def print_sample (s : Sample) : List Char :=
  s.name ++ (if s.labels = [] then [] else '{' :: print_labels escape s.labels) ++
    ' ' :: (s.value ++ s.stamp.elim [] (' ' :: ·))

def print_line : Line → List Char
  | .blank => []
  | .comment => ['#']
  | .help name text => ['#', ' ', 'H', 'E', 'L', 'P', ' '] ++ name ++ ' ' :: text
  | .type name kind => ['#', ' ', 'T', 'Y', 'P', 'E', ' '] ++ name ++ ' ' :: kind
  | .sample s => print_sample escape s

def print (lines : List Line) : List Char :=
  lines.flatMap (fun line => print_line escape line ++ ['\n'])

end

/-- A sample whose parts are what the format asks for, the values of its labels apart. -/
structure Sample.Plain (s : Sample) : Prop where
  name : is_name s.name = true
  labels : ∀ l ∈ s.labels, is_label l.1 = true
  distinct : (s.labels.map Prod.fst).Nodup
  value : is_float s.value = true ∧ Solid s.value
  stamp : ∀ t ∈ s.stamp, is_integer t = true ∧ Solid t

/-- A line that the printer spells as it stands. -/
def Line.Plain : Line → Prop
  | .blank => True
  | .comment => True
  | .help name text => is_name name = true ∧ skip text = text ∧ ∀ c ∈ text, c ≠ '\\' ∧ c ≠ '\n'
  | .type name kind => is_name name = true ∧ kind ∈ kinds
  | .sample s => s.Plain

def Sample.OneLine (s : Sample) : Prop := ∀ l ∈ s.labels, '\n' ∉ l.2

/-- The values of a line's labels have no line feed. -/
def Line.OneLine : Line → Prop
  | .sample s => s.OneLine
  | _ => True

/-! ## Reading what was printed -/

theorem unescape_plain {s : List Char} (h : ∀ c ∈ s, c ≠ '\\' ∧ c ≠ '\n') :
    unescape s = some s := by
  induction s with
  | nil => rfl
  | cons c s ih =>
    have hc := (h c List.mem_cons_self).1
    have hs := ih (fun d hd => h d (List.mem_cons_of_mem _ hd))
    rw [unescape, hs]
    · rfl
    · exact fun _ he _ => hc he
    · exact fun _ he _ => hc he
    · exact hc

/-- One label is read: its name, and behind the quote whatever the quoted text says. -/
theorem read_label {name : List Char} (hname : is_label name = true) (fuel : Nat) (s : List Char) :
    read_labels (fuel + 1) (name ++ '=' :: '"' :: s) =
      match read_quoted s with
      | none => none
      | some (value, s) =>
        match expect '}' s with
        | some s => some ([(name, value)], s)
        | none =>
          ((expect ',' s).bind (read_labels fuel)).map
            (fun (ls, s) => ((name, value) :: ls, s)) := by
  obtain ⟨hne, hchars⟩ := chars_of_label hname
  have hspan : (name ++ '=' :: '"' :: s).span label_char = (name, '=' :: '"' :: s) := by
    refine span_append hchars (fun c hc => ?_)
    cases hc
    decide
  have hbrace : expect '}' (name ++ '=' :: '"' :: s) = none := by
    cases name with
    | nil => exact absurd rfl hne
    | cons c name =>
      refine expect_other ((solid_of_label hname) c List.mem_cons_self).1 ?_ _
      rintro rfl
      exact absurd (hchars _ List.mem_cons_self) (by decide)
  rw [read_labels, hbrace]
  dsimp only
  rw [(solid_of_label hname).skip hne, hspan]
  dsimp only
  rw [if_pos hname, expect_cons (by decide), Option.bind_some, expect_cons (by decide),
    Option.bind_some]

theorem print_label_append (escape : List Char → List Char) (l : List Char × List Char)
    (rest : List Char) :
    print_label escape l ++ rest = l.1 ++ '=' :: '"' :: (escape l.2 ++ '"' :: rest) := by
  simp [print_label]

/-- The labels read back, whatever follows the closing brace. -/
theorem read_print_labels {escape : List Char → List Char} (hesc : Escapes escape)
    {labels : List (List Char × List Char)} (hplain : ∀ l ∈ labels, is_label l.1 = true)
    (hline : ∀ l ∈ labels, '\n' ∉ l.2) (rest : List Char) {fuel : Nat}
    (hfuel : labels.length < fuel) :
    read_labels fuel (print_labels escape labels ++ rest) = some (labels, rest) := by
  induction labels generalizing fuel with
  | nil =>
    obtain ⟨fuel, rfl⟩ := Nat.exists_eq_add_of_lt hfuel
    rfl
  | cons l labels ih =>
    obtain ⟨fuel, rfl⟩ : ∃ n, fuel = n + 1 := ⟨fuel - 1, by omega⟩
    have hname := hplain l List.mem_cons_self
    have hreads := hesc.reads l.2 (hline l List.mem_cons_self)
    cases labels with
    | nil =>
      rw [print_labels, List.append_assoc, print_label_append, read_label hname, hreads]
      rfl
    | cons l' ls =>
      have hrest := @ih (fun m hm => hplain m (List.mem_cons_of_mem _ hm))
        (fun m hm => hline m (List.mem_cons_of_mem _ hm)) fuel (by simpa using hfuel)
      rw [print_labels, List.append_assoc, print_label_append, read_label hname, hreads]
      dsimp only
      rw [List.cons_append, expect_other (by decide) (by decide), expect_cons (by decide)]
      dsimp only
      rw [Option.bind_some, hrest]
      rfl

/-- A line feed in the value of a label cuts the labels behind the opening brace. -/
theorem print_labels_cut {escape : List Char → List Char} (hesc : Escapes escape)
    {labels : List (List Char × List Char)} (hplain : ∀ l ∈ labels, is_label l.1 = true)
    (hfeed : ∃ l ∈ labels, '\n' ∈ l.2) (rest : List Char) :
    ∃ before after, print_labels escape labels ++ rest = before ++ '\n' :: after ∧
      '\n' ∉ before ∧ ∀ fuel, read_labels fuel before = none := by
  induction labels with
  | nil =>
    obtain ⟨l, hl, -⟩ := hfeed
    cases hl
  | cons l labels ih =>
    have hname := hplain l List.mem_cons_self
    have hsolid : '\n' ∉ l.1 := fun hm => (solid_of_label hname _ hm).2 rfl
    by_cases hl : '\n' ∈ l.2
    · obtain ⟨before, after, heq, hbefore, hnone⟩ := hesc.cuts l.2 hl
      refine ⟨l.1 ++ '=' :: '"' :: before, ?_⟩
      have hread : ∀ fuel, read_labels fuel (l.1 ++ '=' :: '"' :: before) = none := by
        intro fuel
        cases fuel with
        | zero => rfl
        | succ fuel => rw [read_label hname, hnone]
      have hno : '\n' ∉ l.1 ++ '=' :: '"' :: before := by simp [hsolid, hbefore]
      cases labels with
      | nil =>
        refine ⟨after ++ '"' :: '}' :: rest, ?_, hno, hread⟩
        rw [print_labels, List.append_assoc, print_label_append, heq]
        simp
      | cons l' ls =>
        refine ⟨after ++ '"' :: ',' :: (print_labels escape (l' :: ls) ++ rest), ?_, hno, hread⟩
        rw [print_labels, List.append_assoc, print_label_append, heq]
        simp
    · obtain ⟨l', hl', hfeed'⟩ := hfeed
      have hmem : l' ∈ labels := by
        rcases List.mem_cons.mp hl' with rfl | hm
        · exact absurd hfeed' hl
        · exact hm
      obtain ⟨before, after, heq, hbefore, hnone⟩ :=
        ih (fun m hm => hplain m (List.mem_cons_of_mem _ hm)) ⟨l', hmem, hfeed'⟩
      have hone := hesc.one_line l.2 hl
      refine ⟨l.1 ++ '=' :: '"' :: (escape l.2 ++ '"' :: ',' :: before), after, ?_, ?_, ?_⟩
      · cases labels with
        | nil => cases hmem
        | cons l'' ls =>
          rw [print_labels, List.append_assoc, print_label_append, List.cons_append, heq]
          simp
      · simp [hsolid, hone, hbefore]
      · intro fuel
        cases fuel with
        | zero => rfl
        | succ fuel =>
          rw [read_label hname, hesc.reads l.2 hl]
          dsimp only
          rw [expect_other (by decide) (by decide), expect_cons (by decide)]
          dsimp only
          rw [Option.bind_some, hnone]
          rfl

theorem float_head {s : List Char} (h : is_float s = true) : ∃ c t, s = c :: t ∧ c ≠ '{' := by
  cases s with
  | nil => exact absurd h (by decide)
  | cons c t =>
    refine ⟨c, t, rfl, ?_⟩
    rintro rfl
    have hd : is_decimal ('{' :: t) = false := by
      unfold is_decimal
      rw [List.span_eq_takeWhile_dropWhile]
      rfl
    have hs : is_special ('{' :: t) = false := by
      unfold is_special
      simp
    rw [is_float, hd, hs] at h
    · cases h
    · rintro s he
      cases he
    · rintro s he
      cases he

/-- A sample's line is its name and what comes behind it. -/
theorem read_name {name : List Char} (hname : is_name name = true) {rest : List Char}
    (hrest : ∀ c ∈ rest.head?, name_char c = false) :
    read_line (name ++ rest) = read_sample (name ++ rest) ∧
      (name ++ rest).span name_char = (name, rest) := by
  obtain ⟨hne, hchars⟩ := chars_of_name hname
  refine ⟨?_, span_append hchars hrest⟩
  have hskip := (solid_of_name hname).skip hne rest
  cases name with
  | nil => exact absurd rfl hne
  | cons c name =>
    have hc : c ≠ '#' := by
      rintro rfl
      exact absurd (hchars _ List.mem_cons_self) (by decide)
    rw [List.cons_append] at hskip ⊢
    rw [read_line, expect_other ((solid_of_name hname) c List.mem_cons_self).1 hc]
    dsimp only
    rw [hskip]
    rfl

theorem print_labels_length (escape : List Char → List Char)
    (labels : List (List Char × List Char)) :
    labels.length ≤ (print_labels escape labels).length := by
  induction labels with
  | nil => exact Nat.zero_le _
  | cons l labels ih =>
    cases labels with
    | nil => simp [print_labels]
    | cons l' ls =>
      rw [print_labels, List.length_append, List.length_cons, List.length_cons]
      exact Nat.le_trans (Nat.succ_le_succ ih) (Nat.le_add_left _ _)

/-- What stands behind the labels: the value, and the time if there is one. -/
theorem read_value {s : Sample} (h : s.Plain) :
    let rest := ' ' :: (s.value ++ s.stamp.elim [] (' ' :: ·))
    ∃ after, word (skip rest) = (s.value, after) ∧
      word (skip after) = (s.stamp.getD [], []) := by
  obtain ⟨c, t, hvalue, -⟩ := float_head h.value.1
  have hne : s.value ≠ [] := by simp [hvalue]
  dsimp only
  refine ⟨s.stamp.elim [] (' ' :: ·), ?_, ?_⟩
  · rw [skip_blank, h.value.2.skip hne, h.value.2.word]
    intro d hd
    cases hs : s.stamp with
    | none =>
      rw [hs] at hd
      cases hd
    | some stamp =>
      rw [hs] at hd
      cases hd
      rfl
  · cases hs : s.stamp with
    | none => rfl
    | some stamp =>
      have hstamp := h.stamp stamp (by simp [hs])
      have hne : stamp ≠ [] := by
        rintro rfl
        exact absurd hstamp.1 (by decide)
      have hsolid := hstamp.2.skip hne []
      have hword := @Solid.word stamp hstamp.2 [] (by simp)
      rw [List.append_nil] at hsolid hword
      change word (skip (' ' :: stamp)) = (stamp, [])
      rw [skip_blank, hsolid, hword]

theorem read_print_sample {escape : List Char → List Char} (hesc : Escapes escape) {s : Sample}
    (h : s.Plain) (hline : s.OneLine) : read_line (print_sample escape s) = some (.sample s) := by
  obtain ⟨after, hvalue, hstamp⟩ := read_value h
  have hempty : (s.stamp.getD []).isEmpty || is_integer (s.stamp.getD []) := by
    cases hs : s.stamp with
    | none => rfl
    | some stamp =>
      have hint := (h.stamp stamp (by simp [hs])).1
      simp [hint]
  have hback : (if (s.stamp.getD []).isEmpty then none else some (s.stamp.getD [])) = s.stamp := by
    cases hs : s.stamp with
    | none => rfl
    | some stamp =>
      have hint := (h.stamp stamp (by simp [hs])).1
      cases stamp with
      | nil => exact absurd hint (by decide)
      | cons c t => rfl
  have hend : (skip ([] : List Char)).isEmpty = true := rfl
  have htail : ∀ c ∈ ((if s.labels = [] then [] else '{' :: print_labels escape s.labels) ++
      ' ' :: (s.value ++ s.stamp.elim [] (' ' :: ·))).head?, name_char c = false := by
    intro c hc
    split at hc
    · cases hc
      decide
    · cases hc
      decide
  have hname := read_name h.name htail
  rw [print_sample, List.append_assoc, hname.1, read_sample, hname.2]
  by_cases hlabels : s.labels = []
  · obtain ⟨c, t, hc, hbrace⟩ := float_head h.value.1
    have hopen : expect '{' (' ' :: (s.value ++ s.stamp.elim [] (' ' :: ·))) = none := by
      have hblank := (h.value.2 c (by simp [hc])).1
      rw [expect, skip_blank, hc, List.cons_append, skip_cons hblank]
      exact if_neg hbrace
    rw [if_pos hlabels, List.nil_append]
    dsimp only
    rw [hopen]
    dsimp only
    rw [hvalue]
    dsimp only
    rw [hstamp]
    dsimp only
    rw [h.name, h.value.1, hempty, hend, hback]
    simp [← hlabels, h.distinct]
  · have hopen := @expect_cons '{' (by decide)
      (print_labels escape s.labels ++ ' ' :: (s.value ++ s.stamp.elim [] (' ' :: ·)))
    rw [if_neg hlabels, List.cons_append]
    dsimp only
    rw [hopen]
    dsimp only
    rw [read_print_labels hesc h.labels hline]
    · dsimp only
      rw [hvalue]
      dsimp only
      rw [hstamp]
      dsimp only
      rw [h.name, h.value.1, hempty, hend, hback]
      simp [h.distinct]
    · have hlen := print_labels_length escape s.labels
      rw [List.length_append]
      omega

/-- A line that the reader sees behind its `#` and a blank. -/
theorem read_keyword {key : List Char} (hkey : Solid key) (hne : key ≠ []) {name : List Char}
    (hname : is_name name = true) (rest : List Char) :
    read_line ('#' :: ' ' :: (key ++ ' ' :: (name ++ ' ' :: rest))) =
        read_comment (' ' :: (key ++ ' ' :: (name ++ ' ' :: rest))) ∧
      word (skip (' ' :: (key ++ ' ' :: (name ++ ' ' :: rest)))) =
        (key, ' ' :: (name ++ ' ' :: rest)) ∧
      word (skip (' ' :: (name ++ ' ' :: rest))) = (name, ' ' :: rest) := by
  refine ⟨?_, ?_, ?_⟩
  · rw [read_line, expect_cons (by decide)]
  · rw [skip_blank, hkey.skip hne, hkey.word]
    intro c hc
    cases hc
    rfl
  · have hsolid := solid_of_name hname
    rw [skip_blank, hsolid.skip (chars_of_name hname).1, hsolid.word]
    intro c hc
    cases hc
    rfl

/-- Every line of the printer reads back. -/
theorem read_print_line {escape : List Char → List Char} (hesc : Escapes escape) {line : Line}
    (h : line.Plain) (hline : line.OneLine) : read_line (print_line escape line) = some line := by
  cases line with
  | blank => rfl
  | comment => rfl
  | help name text =>
    obtain ⟨hname, hskip, htext⟩ := h
    have hread := @read_keyword ['H', 'E', 'L', 'P'] (solid_of_name (by decide)) (by decide) name
      hname text
    change read_line ('#' :: ' ' :: (['H', 'E', 'L', 'P'] ++ ' ' :: (name ++ ' ' :: text))) = _
    rw [hread.1, read_comment, hread.2.1]
    dsimp only
    rw [if_pos rfl, hread.2.2]
    dsimp only
    rw [if_pos hname, skip_blank, hskip, unescape_plain htext]
    rfl
  | type name kind =>
    obtain ⟨hname, hkind⟩ := h
    have hread := @read_keyword ['T', 'Y', 'P', 'E'] (solid_of_name (by decide)) (by decide) name
      hname kind
    have hword : word (skip (' ' :: kind)) = (kind, []) ∧ kinds.contains kind = true := by
      simp only [kinds, List.mem_cons, List.not_mem_nil, or_false] at hkind
      rcases hkind with rfl | rfl | rfl | rfl | rfl <;> exact ⟨by decide, by decide⟩
    change read_line ('#' :: ' ' :: (['T', 'Y', 'P', 'E'] ++ ' ' :: (name ++ ' ' :: kind))) = _
    rw [hread.1, read_comment, hread.2.1]
    dsimp only
    rw [if_neg (by decide), if_pos rfl, hread.2.2]
    dsimp only
    rw [hword.1, hname, hword.2]
    rfl
  | sample s => exact read_print_sample hesc h hline

theorem print_labels_one_line {escape : List Char → List Char} (hesc : Escapes escape)
    {labels : List (List Char × List Char)} (hplain : ∀ l ∈ labels, is_label l.1 = true)
    (hline : ∀ l ∈ labels, '\n' ∉ l.2) : '\n' ∉ print_labels escape labels := by
  have hlabel : ∀ l ∈ labels, '\n' ∉ print_label escape l := by
    intro l hl
    have hname : '\n' ∉ l.1 := fun hm => (solid_of_label (hplain l hl) _ hm).2 rfl
    simp [print_label, hname, hesc.one_line l.2 (hline l hl)]
  clear hplain hline
  induction labels with
  | nil => simp [print_labels]
  | cons l labels ih =>
    have hl := hlabel l List.mem_cons_self
    have hrest := ih (fun m hm => hlabel m (List.mem_cons_of_mem _ hm))
    cases labels with
    | nil => simp [print_labels, hl]
    | cons l' ls => simp [print_labels, hl, hrest]

/-- What is printed for a line stands on one line. -/
theorem print_one_line {escape : List Char → List Char} (hesc : Escapes escape) {line : Line}
    (h : line.Plain) (hline : line.OneLine) : '\n' ∉ print_line escape line := by
  cases line with
  | blank => simp [print_line]
  | comment => simp [print_line]
  | help name text =>
    have hname : '\n' ∉ name := fun hm => (solid_of_name h.1 _ hm).2 rfl
    have htext : '\n' ∉ text := fun hm => (h.2.2 _ hm).2 rfl
    simp [print_line, hname, htext]
  | type name kind =>
    have hname : '\n' ∉ name := fun hm => (solid_of_name h.1 _ hm).2 rfl
    have hkind : '\n' ∉ kind := by
      have hall : ∀ k ∈ kinds, '\n' ∉ k := by decide
      exact hall kind h.2
    simp [print_line, hname, hkind]
  | sample s =>
    have hname : '\n' ∉ s.name := fun hm => (solid_of_name h.name _ hm).2 rfl
    have hvalue : '\n' ∉ s.value := fun hm => (h.value.2 _ hm).2 rfl
    have hstamp : '\n' ∉ s.stamp.elim [] (' ' :: ·) := by
      cases hs : s.stamp with
      | none => simp
      | some stamp =>
        have hsolid := (h.stamp stamp (by simp [hs])).2
        have hno : '\n' ∉ stamp := fun hm => (hsolid _ hm).2 rfl
        simp [hno]
    have hlabels := print_labels_one_line hesc h.labels hline
    rw [print_line, print_sample]
    split
    · simp [hname, hvalue, hstamp]
    · simp [hname, hvalue, hstamp, hlabels]

/-! ## Reading a printed page -/

/-- A page of plain lines reads back as these lines. -/
theorem parse_print {escape : List Char → List Char} (hesc : Escapes escape) {lines : List Line}
    (hplain : ∀ line ∈ lines, line.Plain) (hline : ∀ line ∈ lines, line.OneLine) :
    parse (print escape lines) = some lines := by
  induction lines with
  | nil => rfl
  | cons line lines ih =>
    have hp := hplain line List.mem_cons_self
    have hl := hline line List.mem_cons_self
    have hrest := ih (fun m hm => hplain m (List.mem_cons_of_mem _ hm))
      (fun m hm => hline m (List.mem_cons_of_mem _ hm))
    rw [print, List.flatMap_cons, List.append_assoc, List.singleton_append,
      parse_line (print_one_line hesc hp hl), read_print_line hesc hp hl]
    change ((parse (print escape lines)).map (line :: ·)) = some (line :: lines)
    rw [hrest]
    rfl

/-- A page with a line feed in the value of a label does not read at all. -/
theorem parse_cut {escape : List Char → List Char} (hesc : Escapes escape) {lines : List Line}
    (hplain : ∀ line ∈ lines, line.Plain) (hfeed : ∃ line ∈ lines, ¬ line.OneLine) :
    parse (print escape lines) = none := by
  induction lines with
  | nil =>
    obtain ⟨line, hl, -⟩ := hfeed
    cases hl
  | cons line lines ih =>
    have hp := hplain line List.mem_cons_self
    rw [print, List.flatMap_cons, List.append_assoc, List.singleton_append]
    by_cases hl : line.OneLine
    · obtain ⟨line', hl', hfeed'⟩ := hfeed
      have hmem : line' ∈ lines := by
        rcases List.mem_cons.mp hl' with rfl | hm
        · exact absurd hl hfeed'
        · exact hm
      have hrest := ih (fun m hm => hplain m (List.mem_cons_of_mem _ hm)) ⟨line', hmem, hfeed'⟩
      rw [parse_line (print_one_line hesc hp hl), read_print_line hesc hp hl]
      change ((parse (print escape lines)).map (line :: ·)) = none
      rw [hrest]
      rfl
    · cases line with
      | sample s =>
        have hbad : ∃ l ∈ s.labels, '\n' ∈ l.2 := by
          by_contra hno
          refine hl (fun l hm hc => hno ⟨l, hm, hc⟩)
        have hne : s.labels ≠ [] := by
          obtain ⟨l, hm, -⟩ := hbad
          exact List.ne_nil_of_mem hm
        obtain ⟨before, after, heq, hbefore, hnone⟩ := print_labels_cut hesc hp.labels hbad
          (' ' :: (s.value ++ s.stamp.elim [] (' ' :: ·)) ++ '\n' :: print escape lines)
        have hhead : ∀ c ∈ ('{' :: before).head?, name_char c = false := by
          intro c hc
          cases hc
          decide
        have hname := read_name hp.name hhead
        have hno : '\n' ∉ s.name ++ '{' :: before := by
          have hn : '\n' ∉ s.name := fun hm => (solid_of_name hp.name _ hm).2 rfl
          simp [hn, hbefore]
        have htext : print_line escape (.sample s) ++ '\n' :: print escape lines =
            (s.name ++ '{' :: before) ++ '\n' :: after := by
          rw [print_line, print_sample, if_neg hne]
          simp only [List.append_assoc, List.cons_append] at heq ⊢
          rw [heq]
        change parse (print_line escape (.sample s) ++ '\n' :: print escape lines) = none
        rw [htext, parse_line hno, hname.1, read_sample, hname.2]
        dsimp only
        rw [expect_cons (by decide)]
        dsimp only
        rw [hnone]
        rfl
      | blank => exact absurd trivial hl
      | comment => exact absurd trivial hl
      | help name text => exact absurd trivial hl
      | type name kind => exact absurd trivial hl

end exposition
