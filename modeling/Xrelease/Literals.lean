-- JSON texts as their grammar has them: what a string literal means in UTF-16 units, what stands
-- outside of literals, and which sequences of the two are a value. Then what becomes of a literal
-- when raw text is put between its characters.
import Mathlib.Data.List.Basic

namespace json

/-! ## Literals -/

def QUOTE : Nat := 0x22

def BACKSLASH : Nat := 0x5C

/-- The UTF-16 units of a character. -/
def utf16 (c : Char) : List Nat :=
  if c.toNat < 0x10000 then [c.toNat]
  else [0xD800 + (c.toNat - 0x10000) / 0x400, 0xDC00 + (c.toNat - 0x10000) % 0x400]

/-- A character that stands for itself between quotes. -/
def ordinary (c : Char) : Bool := 0x20 ≤ c.toNat && c != '"' && c != '\\'

/-- The unit of a backslash and one character. -/
def simple_unit (c : Char) : Option Nat :=
  match c with
  | '"' => some 0x22
  | '\\' => some 0x5C
  | '/' => some 0x2F
  | 'b' => some 0x08
  | 'f' => some 0x0C
  | 'n' => some 0x0A
  | 'r' => some 0x0D
  | 't' => some 0x09
  | _ => none

def hex_value (c : Char) : Option Nat :=
  if '0'.toNat ≤ c.toNat ∧ c.toNat ≤ '9'.toNat then some (c.toNat - '0'.toNat)
  else if 'a'.toNat ≤ c.toNat ∧ c.toNat ≤ 'f'.toNat then some (c.toNat - 'a'.toNat + 10)
  else if 'A'.toNat ≤ c.toNat ∧ c.toNat ≤ 'F'.toNat then some (c.toNat - 'A'.toNat + 10)
  else none

def hex_unit (a b c d : Char) : Option Nat :=
  match hex_value a, hex_value b, hex_value c, hex_value d with
  | some w, some x, some y, some z => some (4096 * w + 256 * x + 16 * y + z)
  | _, _, _, _ => none

/-- The text after an opening quote: the units of the literal, and the text after its closing
quote. -/
inductive Reads : List Char → List Nat → List Char → Prop where
  | stop (rest : List Char) : Reads ('"' :: rest) [] rest
  | plain {c : Char} {s : List Char} {units : List Nat} {rest : List Char}
      (h : ordinary c = true) : Reads s units rest → Reads (c :: s) (utf16 c ++ units) rest
  | simple {e : Char} {n : Nat} {s : List Char} {units : List Nat} {rest : List Char}
      (h : simple_unit e = some n) : Reads s units rest → Reads ('\\' :: e :: s) (n :: units) rest
  | unicode {a b c d : Char} {n : Nat} {s : List Char} {units : List Nat} {rest : List Char}
      (h : hex_unit a b c d = some n) :
      Reads s units rest → Reads ('\\' :: 'u' :: a :: b :: c :: d :: s) (n :: units) rest

/-! ## Texts -/

inductive Token where
  /-- A character outside of literals. -/
  | sym (c : Char)
  | lit (units : List Nat)
deriving DecidableEq

def is_ws (c : Char) : Bool := c == ' ' || c == '\t' || c == '\n' || c == '\r'

/-- White space, punctuation, or a character of a number or of one of the three words. -/
def outside (c : Char) : Bool :=
  is_ws c || ['\x7b', '\x7d', '[', ']', ',', ':', '+', '-', '.'].contains c ||
    c.isAlphanum

inductive Lexes : List Char → List Token → Prop where
  | done : Lexes [] []
  | sym {c : Char} {s : List Char} {tokens : List Token} (h : outside c = true) :
      Lexes s tokens → Lexes (c :: s) (.sym c :: tokens)
  | lit {s : List Char} {units : List Nat} {rest : List Char} {tokens : List Token} :
      Reads s units rest → Lexes rest tokens → Lexes ('"' :: s) (.lit units :: tokens)

/-- A token without what a literal says. -/
inductive Kind where
  | sym (c : Char)
  | lit
deriving DecidableEq

def Token.kind : Token → Kind
  | sym c => .sym c
  | lit _ => .lit

def Token.units : Token → Option (List Nat)
  | sym _ => none
  | lit units => some units

def syms (s : List Char) : List Kind := s.map Kind.sym

def Blank (l : List Kind) : Prop := ∃ s : List Char, l = syms s ∧ s.all is_ws = true

def digits (s : List Char) : Bool := !s.isEmpty && s.all Char.isDigit

/-- `int`, `frac` and `exp` of a number. -/
structure IsNumber (s : List Char) : Prop where
  parts : ∃ sign whole frac exp : List Char, s = sign ++ whole ++ frac ++ exp ∧
    (sign = [] ∨ sign = ['-']) ∧ (whole = ['0'] ∨ digits whole = true ∧ whole.head? ≠ some '0') ∧
      (frac = [] ∨ ∃ f, frac = '.' :: f ∧ digits f = true) ∧
        (exp = [] ∨ ∃ e mark f, exp = e :: mark ++ f ∧ (e = 'e' ∨ e = 'E') ∧
          (mark = [] ∨ mark = ['+'] ∨ mark = ['-']) ∧ digits f = true)

mutual
/-- The sequences that are a value, without blanks around it. -/
inductive Value : List Kind → Prop where
  | lit : Value [.lit]
  | word {s : List Char} (h : s = ['t', 'r', 'u', 'e'] ∨ s = ['f', 'a', 'l', 's', 'e'] ∨
      s = ['n', 'u', 'l', 'l']) : Value (syms s)
  | number {s : List Char} (h : IsNumber s) : Value (syms s)
  | empty_array {w : List Kind} (h : Blank w) : Value (syms ['['] ++ w ++ syms [']'])
  | array {l : List Kind} : Elements l → Value (syms ['['] ++ l ++ syms [']'])
  | empty_object {w : List Kind} (h : Blank w) : Value (syms ['\x7b'] ++ w ++ syms ['\x7d'])
  | object {l : List Kind} : Members l → Value (syms ['\x7b'] ++ l ++ syms ['\x7d'])

inductive Elements : List Kind → Prop where
  | one {before v after : List Kind} (hbefore : Blank before) (hafter : Blank after) :
      Value v → Elements (before ++ v ++ after)
  | more {before v after rest : List Kind} (hbefore : Blank before) (hafter : Blank after) :
      Value v → Elements rest → Elements (before ++ v ++ after ++ syms [','] ++ rest)

inductive Members : List Kind → Prop where
  | one {before gap lead v after : List Kind} (hbefore : Blank before) (hgap : Blank gap)
      (hlead : Blank lead) (hafter : Blank after) :
      Value v → Members (before ++ [.lit] ++ gap ++ syms [':'] ++ lead ++ v ++ after)
  | more {before gap lead v after rest : List Kind} (hbefore : Blank before) (hgap : Blank gap)
      (hlead : Blank lead) (hafter : Blank after) :
      Value v → Members rest →
        Members (before ++ [.lit] ++ gap ++ syms [':'] ++ lead ++ v ++ after ++ syms [','] ++ rest)
end

/-! ## The ends of a value -/

/-- Printable ASCII, without the space. -/
def visible (c : Char) : Bool := 0x20 < c.toNat && c.toNat < 0x7F

/-- What a value may begin and end with. -/
def Kind.Edge (k : Kind) : Prop := ∀ c, k = .sym c → visible c

structure Edges (l : List Kind) : Prop where
  first : ∃ k rest, l = k :: rest ∧ k.Edge
  last : ∃ front k, l = front ++ [k] ∧ k.Edge

theorem edge_sym {c : Char} (h : visible c) : (Kind.sym c).Edge := by
  rintro d ⟨⟩
  exact h

theorem digit_visible {c : Char} (h : c.isDigit = true) : visible c := by
  unfold Char.isDigit at h
  simp only [ge_iff_le, Bool.and_eq_true, decide_eq_true_eq] at h
  obtain ⟨hlow, hhigh⟩ := h
  rw [UInt32.le_iff_toNat_le] at hlow hhigh
  have hlow' : 48 ≤ c.toNat := hlow
  have hhigh' : c.toNat ≤ 57 := hhigh
  simp only [visible, Bool.and_eq_true, decide_eq_true_eq]
  omega

theorem digits_ends {s : List Char} (h : digits s = true) :
    (∃ c rest, s = c :: rest ∧ visible c) ∧ ∃ front c, s = front ++ [c] ∧ visible c := by
  unfold digits at h
  simp only [Bool.and_eq_true, Bool.not_eq_true', List.isEmpty_eq_false_iff, List.all_eq_true] at h
  obtain ⟨hne, hall⟩ := h
  obtain ⟨c, rest, rfl⟩ := List.exists_cons_of_ne_nil hne
  refine ⟨⟨c, rest, rfl, digit_visible (hall c List.mem_cons_self)⟩, ?_⟩
  refine ⟨_, _, (List.dropLast_append_getLast hne).symm, ?_⟩
  exact digit_visible (hall _ (List.getLast_mem hne))

theorem number_ends {s : List Char} (h : IsNumber s) :
    (∃ c rest, s = c :: rest ∧ visible c) ∧ ∃ front c, s = front ++ [c] ∧ visible c := by
  obtain ⟨sign, whole, frac, exp, rfl, hsign, hwhole, hfrac, hexp⟩ := h.parts
  have hends : (∃ c rest, whole = c :: rest ∧ visible c) ∧
      ∃ front c, whole = front ++ [c] ∧ visible c := by
    rcases hwhole with rfl | ⟨hdigits, -⟩
    · exact ⟨⟨'0', [], rfl, by decide⟩, [], '0', rfl, by decide⟩
    · exact digits_ends hdigits
  constructor
  · rcases hsign with rfl | rfl
    · obtain ⟨c, rest, rfl, hc⟩ := hends.1
      exact ⟨c, _, rfl, hc⟩
    · exact ⟨'-', _, rfl, by decide⟩
  · rcases hexp with rfl | ⟨e, mark, f, rfl, -, -, hf⟩
    · rcases hfrac with rfl | ⟨f, rfl, hf⟩
      · obtain ⟨front, c, rfl, hc⟩ := hends.2
        exact ⟨sign ++ front, c, by simp, hc⟩
      · obtain ⟨front, c, rfl, hc⟩ := (digits_ends hf).2
        exact ⟨sign ++ whole ++ '.' :: front, c, by simp, hc⟩
    · obtain ⟨front, c, rfl, hc⟩ := (digits_ends hf).2
      exact ⟨sign ++ whole ++ frac ++ e :: mark ++ front, c, by simp, hc⟩

theorem edges_syms {s : List Char}
    (h : (∃ c rest, s = c :: rest ∧ visible c) ∧ ∃ front c, s = front ++ [c] ∧ visible c) :
    Edges (syms s) := by
  obtain ⟨⟨c, rest, hfirst, hc⟩, front, d, hlast, hd⟩ := h
  refine ⟨⟨.sym c, syms rest, by rw [hfirst]; rfl, edge_sym hc⟩, syms front, .sym d, ?_,
    edge_sym hd⟩
  rw [hlast]
  exact List.map_append

theorem edges_between {c d : Char} (hc : visible c) (hd : visible d) (l : List Kind) :
    Edges (syms [c] ++ l ++ syms [d]) :=
  ⟨⟨.sym c, _, rfl, edge_sym hc⟩, _, .sym d, rfl, edge_sym hd⟩

/-- A value begins and ends with a literal or with a visible character. -/
theorem value_edges {l : List Kind} (h : Value l) : Edges l := by
  cases h with
  | lit => exact ⟨⟨.lit, [], rfl, fun c hc => by cases hc⟩, [], .lit, rfl, fun c hc => by cases hc⟩
  | word h =>
    refine edges_syms ?_
    rcases h with rfl | rfl | rfl
    · exact ⟨⟨'t', _, rfl, by decide⟩, ['t', 'r', 'u'], 'e', rfl, by decide⟩
    · exact ⟨⟨'f', _, rfl, by decide⟩, ['f', 'a', 'l', 's'], 'e', rfl, by decide⟩
    · exact ⟨⟨'n', _, rfl, by decide⟩, ['n', 'u', 'l'], 'l', rfl, by decide⟩
  | number h => exact edges_syms (number_ends h)
  | empty_array | array => exact edges_between (by decide) (by decide) _
  | empty_object | object => exact edges_between (by decide) (by decide) _

/-! ## What one character reads as -/

theorem utf16_ne_nil (c : Char) : utf16 c ≠ [] := by
  unfold utf16
  split <;> simp

theorem ordinary_not_quote {c : Char} (h : ordinary c = true) : c ≠ '"' := by
  rintro rfl
  exact absurd h (by decide)

theorem ordinary_not_backslash {c : Char} (h : ordinary c = true) : c ≠ '\\' := by
  rintro rfl
  exact absurd h (by decide)

/-- No unit of another character is a quote or a backslash. -/
theorem unit_of_char {c : Char} {n : Nat} (hn : n ∈ utf16 c) (hsmall : n < 0x100) :
    n = c.toNat := by
  unfold utf16 at hn
  split at hn
  · exact List.mem_singleton.mp hn
  · simp only [List.mem_cons, List.not_mem_nil, or_false] at hn
    omega

theorem char_eq {c d : Char} (h : c.toNat = d.toNat) : c = d :=
  Char.ext (UInt32.toNat_inj.mp h)

theorem backslash_mem {c : Char} : BACKSLASH ∈ utf16 c ↔ c = '\\' := by
  constructor
  · intro h
    exact char_eq (unit_of_char h (by decide)).symm
  · rintro rfl
    decide

theorem quote_mem {c : Char} : QUOTE ∈ utf16 c ↔ c = '"' := by
  constructor
  · intro h
    exact char_eq (unit_of_char h (by decide)).symm
  · rintro rfl
    decide

theorem hex_ordinary {c : Char} {n : Nat} (h : hex_value c = some n) :
    ordinary c = true ∧ c ≠ '\\' ∧ c ≠ '"' := by
  have hrange : 48 ≤ c.toNat ∧ c.toNat ≤ 57 ∨ 97 ≤ c.toNat ∧ c.toNat ≤ 102 ∨
      65 ≤ c.toNat ∧ c.toNat ≤ 70 := by
    unfold hex_value at h
    split at h
    · rename_i hdigit
      exact Or.inl hdigit
    · split at h
      · rename_i hlower
        exact Or.inr (Or.inl hlower)
      · split at h
        · rename_i hupper
          exact Or.inr (Or.inr hupper)
        · simp at h
  have hslash : c ≠ '\\' := by
    rintro rfl
    exact absurd hrange (by decide)
  have hquote : c ≠ '"' := by
    rintro rfl
    exact absurd hrange (by decide)
  refine ⟨?_, hslash, hquote⟩
  unfold ordinary
  simp only [Bool.and_eq_true, decide_eq_true_eq, bne_iff_ne]
  exact ⟨⟨by omega, hquote⟩, hslash⟩

theorem hex_unit_parts {a b c d : Char} {n : Nat} (h : hex_unit a b c d = some n) :
    (∃ w, hex_value a = some w) ∧ (∃ x, hex_value b = some x) ∧ (∃ y, hex_value c = some y) ∧
      ∃ z, hex_value d = some z := by
  unfold hex_unit at h
  split at h
  · rename_i w x y z ha hb hc hd
    exact ⟨⟨w, ha⟩, ⟨x, hb⟩, ⟨y, hc⟩, ⟨z, hd⟩⟩
  · simp at h

/-- Besides the quote, the backslash and the slash, what an escape is spelled with is not what it
stands for. -/
theorem simple_cases {e : Char} {n : Nat} (h : simple_unit e = some n) :
    e = '"' ∧ n = QUOTE ∨ e = '\\' ∧ n = BACKSLASH ∨
      ordinary e = true ∧ n ≠ BACKSLASH ∧ (utf16 e).length = 1 ∧ (utf16 e = [n] → e = '/') := by
  unfold simple_unit at h
  split at h
  · exact Or.inl ⟨rfl, (Option.some.inj h).symm⟩
  · exact Or.inr (Or.inl ⟨rfl, (Option.some.inj h).symm⟩)
  all_goals (cases h <;> exact Or.inr (Or.inr (by decide)))

/-! ## One step of a reading -/

theorem reads_quote {s : List Char} {units : List Nat} {rest : List Char}
    (h : Reads ('"' :: s) units rest) : units = [] ∧ rest = s := by
  cases h with
  | stop => exact ⟨rfl, rfl⟩
  | plain hc _ => exact absurd hc (by decide)

theorem reads_plain {c : Char} {s : List Char} {units : List Nat} {rest : List Char}
    (hslash : c ≠ '\\') (hquote : c ≠ '"') (h : Reads (c :: s) units rest) :
    ordinary c = true ∧ ∃ units', units = utf16 c ++ units' ∧ Reads s units' rest := by
  cases h with
  | stop => exact absurd rfl hquote
  | plain hc hs => exact ⟨hc, _, rfl, hs⟩
  | simple => exact absurd rfl hslash
  | unicode => exact absurd rfl hslash

/-- A backslash is followed by one character or by `u` and four digits. -/
theorem reads_escape {s : List Char} {units : List Nat} {rest : List Char}
    (h : Reads ('\\' :: s) units rest) :
    (∃ e n s' units', s = e :: s' ∧ units = n :: units' ∧ simple_unit e = some n ∧
      Reads s' units' rest) ∨
      ∃ a b c d n s' units', s = 'u' :: a :: b :: c :: d :: s' ∧ units = n :: units' ∧
        hex_unit a b c d = some n ∧ Reads s' units' rest := by
  cases h with
  | plain hc _ => exact absurd hc (by decide)
  | simple he hs => exact Or.inl ⟨_, _, _, _, rfl, rfl, he, hs⟩
  | unicode hn hs => exact Or.inr ⟨_, _, _, _, _, _, _, rfl, rfl, hn, hs⟩

/-! ## Literals with raw text put in -/

/-- One character of a literal as it is spelled. -/
inductive Written where
  | plain (c : Char) (h : ordinary c = true)
  | simple (e : Char) (n : Nat) (h : simple_unit e = some n)
  | unicode (a b c d : Char) (n : Nat) (h : hex_unit a b c d = some n)

def Written.raw : Written → List Char
  | plain c _ => [c]
  | simple e _ _ => ['\\', e]
  | unicode a b c d _ _ => ['\\', 'u', a, b, c, d]

def Written.units : Written → List Nat
  | plain c _ => utf16 c
  | simple _ n _ => [n]
  | unicode _ _ _ _ n _ => [n]

/-- A spelled character, or a character that was put in as it is. -/
inductive Cell where
  | written (w : Written)
  | value (c : Char)

def Cell.raw : Cell → List Char
  | written w => w.raw
  | value c => [c]

/-- What the cell is meant to say. -/
def Cell.units : Cell → List Nat
  | written w => w.units
  | value c => utf16 c

def raw (cells : List Cell) : List Char := cells.flatMap Cell.raw

def meant (cells : List Cell) : List Nat := cells.flatMap Cell.units

/-- Escaped backslashes, and then an escaped slash. -/
def covered : List Cell → Bool
  | .written (.simple e _ _) :: cells => e == '/' || (e == '\\' && covered cells)
  | _ => false

/-- Every character that was put in is ordinary, or a backslash that what is spelled behind it
happens to cover. -/
def harmless : List Cell → Bool
  | [] => true
  | .written _ :: cells => harmless cells
  | .value c :: cells => (ordinary c || (c == '\\' && covered cells)) && harmless cells

theorem raw_cons (cell : Cell) (cells : List Cell) (tail : List Char) :
    raw (cell :: cells) ++ tail = cell.raw ++ (raw cells ++ tail) := by
  unfold raw
  rw [List.flatMap_cons, List.append_assoc]

theorem meant_cons (cell : Cell) (cells : List Cell) :
    meant (cell :: cells) = cell.units ++ meant cells := List.flatMap_cons

/-- A cell of one character that is ordinary. -/
def Cell.Single (cell : Cell) (c : Char) : Prop := cell.raw = [c] ∧ cell.units = utf16 c

/-- Text that begins with neither a backslash nor a quote begins with a cell of one character. -/
theorem single_of_raw {cells : List Cell} {tail s : List Char} {c : Char}
    (h : raw cells ++ '"' :: tail = c :: s) (hslash : c ≠ '\\') (hquote : c ≠ '"') :
    ∃ cell cells', cells = cell :: cells' ∧ cell.Single c ∧ s = raw cells' ++ '"' :: tail := by
  cases cells with
  | nil => exact absurd (List.cons.inj h).1.symm hquote
  | cons cell cells =>
    rw [raw_cons] at h
    cases cell with
    | value d =>
      obtain ⟨rfl, rfl⟩ := List.cons.inj h
      exact ⟨_, cells, rfl, ⟨rfl, rfl⟩, rfl⟩
    | written w =>
      cases w with
      | plain d hd =>
        obtain ⟨rfl, rfl⟩ := List.cons.inj h
        exact ⟨_, cells, rfl, ⟨rfl, rfl⟩, rfl⟩
      | simple e n he => exact absurd (List.cons.inj h).1.symm hslash
      | unicode a b c d n hn => exact absurd (List.cons.inj h).1.symm hslash

/-! ## One cell of a reading -/

theorem reads_written {w : Written} {s : List Char} {read : List Nat} {rest : List Char}
    (h : Reads (w.raw ++ s) read rest) :
    ∃ read', read = w.units ++ read' ∧ Reads s read' rest := by
  cases w with
  | plain c hc =>
    exact (reads_plain (ordinary_not_backslash hc) (ordinary_not_quote hc) h).2
  | simple e n he =>
    rcases reads_escape h with ⟨e', n', s', read', hs, rfl, he', hrest⟩ |
      ⟨a, b, c, d, n', s', read', hs, rfl, -, -⟩
    · obtain ⟨rfl, rfl⟩ := List.cons.inj hs
      obtain rfl : n = n' := Option.some.inj (he.symm.trans he')
      exact ⟨read', rfl, hrest⟩
    · obtain ⟨rfl, -⟩ := List.cons.inj hs
      exact absurd he (by simp [simple_unit])
  | unicode a b c d n hn =>
    rcases reads_escape h with ⟨e', n', s', read', hs, rfl, he', -⟩ |
      ⟨a', b', c', d', n', s', read', hs, rfl, hn', hrest⟩
    · obtain ⟨rfl, -⟩ := List.cons.inj hs
      exact absurd he' (by simp [simple_unit])
    · obtain ⟨rfl, rfl, rfl, rfl, rfl⟩ : a = a' ∧ b = b' ∧ c = c' ∧ d = d' ∧ s = s' := by
        simpa using hs
      obtain rfl : n = n' := Option.some.inj (hn.symm.trans hn')
      exact ⟨read', rfl, hrest⟩

/-- Units that go out at the front and come in behind a queue. -/
theorem rotate {u queue m r : List Nat} (h : u ++ m = queue ++ (u ++ r)) :
    ∃ queue', m = queue' ++ r ∧ queue'.length = queue.length ∧
      ∀ n ∈ queue', n ∈ queue ∨ n ∈ u := by
  refine ⟨(queue ++ u).drop u.length, ?_, by simp, ?_⟩
  · have hdrop := congrArg (List.drop u.length) h
    rwa [List.drop_left, ← List.append_assoc, List.drop_append_of_le_length (by simp)] at hdrop
  · intro n hn
    exact List.mem_append.mp (List.mem_of_mem_drop hn)

theorem ne_nil_of_length {l l' : List Nat} (h : l'.length = l.length) (hne : l ≠ []) :
    l' ≠ [] := by
  rw [← List.length_pos_iff] at hne ⊢
  omega

/-! ## Reading ahead -/

/-- A reading that is ahead of what is meant, by units that are no quote and no backslash, does not
come to the same end. -/
theorem not_ahead {cells : List Cell} {tail rest : List Char} {read ahead : List Nat}
    (hreads : Reads (raw cells ++ '"' :: tail) read rest) (hne : ahead ≠ [])
    (hslash : BACKSLASH ∉ ahead) (hquote : QUOTE ∉ ahead) : meant cells ≠ ahead ++ read := by
  induction cells generalizing read ahead with
  | nil =>
    intro hmeant
    exact hne (List.append_eq_nil_iff.mp hmeant.symm).1
  | cons cell cells ih =>
    rw [raw_cons] at hreads
    rw [meant_cons]
    intro hmeant
    -- what goes out at the front of the queue is neither a quote nor a backslash
    have hfront : ∀ n ∈ cell.units.head?, n ≠ BACKSLASH ∧ n ≠ QUOTE := by
      intro n hn
      obtain ⟨first, ahead', rfl⟩ := List.exists_cons_of_ne_nil hne
      obtain ⟨units, hunits⟩ := List.head?_eq_some_iff.mp hn
      rw [hunits, List.cons_append, List.cons_append, List.cons.injEq] at hmeant
      rw [hmeant.1]
      constructor
      · rintro rfl
        exact hslash List.mem_cons_self
      · rintro rfl
        exact hquote List.mem_cons_self
    have hstep : ∀ read', read = cell.units ++ read' → Reads (raw cells ++ '"' :: tail) read' rest →
        BACKSLASH ∉ cell.units → QUOTE ∉ cell.units → False := by
      rintro read' rfl hrest hs hq
      obtain ⟨queue, hqueue, hlength, hmem⟩ := rotate hmeant
      refine ih hrest (ne_nil_of_length hlength hne) ?_ ?_ hqueue
      · exact fun h => (hmem _ h).elim hslash hs
      · exact fun h => (hmem _ h).elim hquote hq
    cases cell with
    | written w =>
      obtain ⟨read', hread, hrest⟩ := reads_written hreads
      cases w with
      | plain c hc =>
        exact hstep read' hread hrest (fun h => ordinary_not_backslash hc (backslash_mem.mp h))
          (fun h => ordinary_not_quote hc (quote_mem.mp h))
      | simple e n he =>
        obtain ⟨hs, hq⟩ := hfront n rfl
        exact hstep read' hread hrest (fun h => hs (List.mem_singleton.mp h).symm)
          (fun h => hq (List.mem_singleton.mp h).symm)
      | unicode a b c d n hn =>
        obtain ⟨hs, hq⟩ := hfront n rfl
        exact hstep read' hread hrest (fun h => hs (List.mem_singleton.mp h).symm)
          (fun h => hq (List.mem_singleton.mp h).symm)
    | value c =>
      have hs : c ≠ '\\' := by
        rintro rfl
        exact (hfront BACKSLASH rfl).1 rfl
      have hq : c ≠ '"' := by
        rintro rfl
        exact (hfront QUOTE rfl).2 rfl
      obtain ⟨-, read', hread, hrest⟩ := reads_plain hs hq hreads
      exact hstep read' hread hrest (fun h => hs (backslash_mem.mp h))
        (fun h => hq (quote_mem.mp h))

/-! ## Reading behind -/

/-- No backslash before the next quote. -/
def Quiet (tail : List Char) : Prop :=
  ∃ out more, tail = out ++ more ∧ '\\' ∉ out ∧ (more = [] ∨ ∃ s, more = '"' :: s)

/-- A literal that runs on over such a text gets no backslash. -/
theorem no_backslash_of_quiet {tail rest : List Char} {read : List Nat} (h : Quiet tail)
    (hreads : Reads tail read rest) : BACKSLASH ∉ read := by
  obtain ⟨out, more, rfl, hout, hmore⟩ := h
  induction out generalizing read with
  | nil =>
    rcases hmore with rfl | ⟨s, rfl⟩
    · cases hreads
    · rw [(reads_quote hreads).1]
      exact List.not_mem_nil
  | cons c out ih =>
    rw [List.mem_cons, not_or] at hout
    by_cases hquote : c = '"'
    · subst hquote
      rw [(reads_quote hreads).1]
      exact List.not_mem_nil
    · obtain ⟨-, read', rfl, hrest⟩ := reads_plain (Ne.symm hout.1) hquote hreads
      rw [List.mem_append, not_or]
      exact ⟨fun h => hout.1 (backslash_mem.mp h).symm, ih hrest hout.2⟩

theorem single_of_hex {cells : List Cell} {tail s : List Char} {c : Char} {n : Nat}
    (h : raw cells ++ '"' :: tail = c :: s) (hhex : hex_value c = some n) :
    ∃ cell cells', cells = cell :: cells' ∧ cell.Single c ∧ s = raw cells' ++ '"' :: tail :=
  single_of_raw h (hex_ordinary hhex).2.1 (hex_ordinary hhex).2.2

/-- The four digits of an escape are cells of one character each. -/
theorem digits_of_raw {cells : List Cell} {tail s : List Char} {a b c d : Char} {n : Nat}
    (h : raw cells ++ '"' :: tail = a :: b :: c :: d :: s) (hn : hex_unit a b c d = some n) :
    ∃ cells', meant cells = utf16 a ++ utf16 b ++ utf16 c ++ utf16 d ++ meant cells' ∧
      cells'.length < cells.length ∧ s = raw cells' ++ '"' :: tail := by
  obtain ⟨⟨w, ha⟩, ⟨x, hb⟩, ⟨y, hc⟩, ⟨z, hd⟩⟩ := hex_unit_parts hn
  obtain ⟨ca, cells₁, rfl, ⟨-, hua⟩, h₁⟩ := single_of_hex h ha
  obtain ⟨cb, cells₂, rfl, ⟨-, hub⟩, h₂⟩ := single_of_hex h₁.symm hb
  obtain ⟨cc, cells₃, rfl, ⟨-, huc⟩, h₃⟩ := single_of_hex h₂.symm hc
  obtain ⟨cd, cells₄, rfl, ⟨-, hud⟩, h₄⟩ := single_of_hex h₃.symm hd
  refine ⟨cells₄, ?_, by simp only [List.length_cons]; omega, h₄⟩
  rw [meant_cons, meant_cons, meant_cons, meant_cons, hua, hub, huc, hud]
  simp only [List.append_assoc]

/-- The characters of a broken escape: none of them is a backslash or a quote. -/
theorem plain_digits {a b c d : Char} {n : Nat} (hn : hex_unit a b c d = some n) :
    BACKSLASH ∉ utf16 'u' ++ utf16 a ++ utf16 b ++ utf16 c ++ utf16 d ∧
      QUOTE ∉ utf16 'u' ++ utf16 a ++ utf16 b ++ utf16 c ++ utf16 d := by
  obtain ⟨⟨w, ha⟩, ⟨x, hb⟩, ⟨y, hc⟩, ⟨z, hd⟩⟩ := hex_unit_parts hn
  have hslash : ∀ {c : Char} {n : Nat}, hex_value c = some n → BACKSLASH ∉ utf16 c :=
    fun hhex hmem => (hex_ordinary hhex).2.1 (backslash_mem.mp hmem)
  have hquote : ∀ {c : Char} {n : Nat}, hex_value c = some n → QUOTE ∉ utf16 c :=
    fun hhex hmem => (hex_ordinary hhex).2.2 (quote_mem.mp hmem)
  simp only [List.mem_append, not_or]
  exact ⟨⟨⟨⟨⟨by decide, hslash ha⟩, hslash hb⟩, hslash hc⟩, hslash hd⟩,
    ⟨⟨⟨by decide, hquote ha⟩, hquote hb⟩, hquote hc⟩, hquote hd⟩

theorem reads_digits {a b c d : Char} {n : Nat} {s rest : List Char} {read : List Nat}
    (hn : hex_unit a b c d = some n) (h : Reads ('u' :: a :: b :: c :: d :: s) read rest) :
    ∃ read', read = utf16 'u' ++ utf16 a ++ utf16 b ++ utf16 c ++ utf16 d ++ read' ∧
      Reads s read' rest := by
  obtain ⟨⟨w, ha⟩, ⟨x, hb⟩, ⟨y, hc⟩, ⟨z, hd⟩⟩ := hex_unit_parts hn
  have hstep : ∀ {c : Char} {n : Nat} {s : List Char} {read : List Nat}, hex_value c = some n →
      Reads (c :: s) read rest → ∃ read', read = utf16 c ++ read' ∧ Reads s read' rest :=
    fun hhex h => (reads_plain (hex_ordinary hhex).2.1 (hex_ordinary hhex).2.2 h).2
  obtain ⟨-, r₀, rfl, h₀⟩ := reads_plain (by decide) (by decide) h
  obtain ⟨r₁, rfl, h₁⟩ := hstep ha h₀
  obtain ⟨r₂, rfl, h₂⟩ := hstep hb h₁
  obtain ⟨r₃, rfl, h₃⟩ := hstep hc h₂
  obtain ⟨r₄, rfl, h₄⟩ := hstep hd h₃
  exact ⟨r₄, by simp only [List.append_assoc], h₄⟩

/-- A queue with a backslash in it outlives what has none. -/
theorem queue_outlives {queue u m r : List Nat} (h : u ++ r = queue ++ m)
    (hmem : BACKSLASH ∈ queue) (hu : BACKSLASH ∉ u) :
    ∃ queue', queue' ≠ [] ∧ r = queue' ++ m := by
  rcases List.append_eq_append_iff.mp h with ⟨more, rfl, hr⟩ | ⟨more, rfl, -⟩
  · refine ⟨more, ?_, hr⟩
    rintro rfl
    rw [List.append_nil] at hmem
    exact hu hmem
  · exact absurd (List.mem_append_left _ hmem) hu

theorem backslash_units : Cell.units (.value '\\') = [BACKSLASH] := by decide

/-- After a backslash that was read with the character behind it, while a backslash is due: the
reading goes on at a cell, and something is still due there. -/
theorem still_due {cells : List Cell} {tail rest s : List Char} {e : Char} {queue read : List Nat}
    (htail : Quiet tail) (hs : raw cells ++ '"' :: tail = e :: s) (hreads : Reads s read rest)
    (hdue : read = queue ++ BACKSLASH :: meant cells) :
    ∃ cells' queue' read', cells'.length ≤ cells.length ∧ queue' ≠ [] ∧
      Reads (raw cells' ++ '"' :: tail) read' rest ∧ read' = queue' ++ meant cells' := by
  cases cells with
  | nil =>
    -- the closing quote is read over
    obtain ⟨rfl, rfl⟩ := List.cons.inj hs
    have hmem : BACKSLASH ∈ read := by
      rw [hdue]
      simp
    exact absurd hmem (no_backslash_of_quiet htail hreads)
  | cons cell cells =>
    have hlen : cells.length ≤ (cell :: cells).length := Nat.le_succ _
    rw [raw_cons] at hs
    rw [meant_cons] at hdue
    have hsingle : ∀ c, cell.Single c →
        ∃ cells' queue' read', cells'.length ≤ (cell :: cells).length ∧ queue' ≠ [] ∧
          Reads (raw cells' ++ '"' :: tail) read' rest ∧ read' = queue' ++ meant cells' := by
      rintro c ⟨hraw, hunits⟩
      rw [hraw] at hs
      obtain ⟨rfl, rfl⟩ := List.cons.inj hs
      refine ⟨cells, queue ++ BACKSLASH :: cell.units, read, hlen, by simp, hreads, ?_⟩
      rw [hdue]
      simp
    cases cell with
    | value c => exact hsingle c ⟨rfl, rfl⟩
    | written w =>
      cases w with
      | plain c hc => exact hsingle c ⟨rfl, rfl⟩
      | simple e' n' he' =>
        obtain ⟨rfl, rfl⟩ := List.cons.inj hs
        have hdue' : read = queue ++ [BACKSLASH, n'] ++ meant cells := by
          rw [hdue]
          simp [Cell.units, Written.units]
        rcases simple_cases he' with ⟨rfl, -⟩ | ⟨rfl, rfl⟩ | ⟨hordinary, -⟩
        · rw [(reads_quote hreads).1] at hdue
          simp at hdue
        · refine ⟨.value '\\' :: cells, queue ++ [BACKSLASH], read, Nat.le_refl _, by simp, ?_, ?_⟩
          · rw [raw_cons]
            exact hreads
          · rw [hdue', meant_cons, backslash_units]
            simp
        · have hslash := ordinary_not_backslash hordinary
          obtain ⟨-, read', rfl, hrest⟩ :=
            reads_plain hslash (ordinary_not_quote hordinary) hreads
          obtain ⟨queue', hne, hread'⟩ := queue_outlives hdue' (by simp)
            (fun hmem => hslash (backslash_mem.mp hmem))
          exact ⟨cells, queue', read', hlen, hne, hrest, hread'⟩
      | unicode a b c d n' hn' =>
        obtain ⟨rfl, rfl⟩ := List.cons.inj hs
        have hdue' : read = queue ++ [BACKSLASH, n'] ++ meant cells := by
          rw [hdue]
          simp [Cell.units, Written.units]
        obtain ⟨read', rfl, hrest⟩ := reads_digits hn' hreads
        obtain ⟨queue', hne, hread'⟩ := queue_outlives hdue' (by simp)
          (plain_digits hn').1
        exact ⟨cells, queue', read', hlen, hne, hrest, hread'⟩

/-- A reading that is behind what is meant does not come to the same end: a unit that is still due
when a backslash is read stays due, for nothing but a backslash pays for it. -/
theorem not_behind {cells : List Cell} {tail rest : List Char} {read queue : List Nat}
    (htail : Quiet tail) (hreads : Reads (raw cells ++ '"' :: tail) read rest)
    (hne : queue ≠ []) : read ≠ queue ++ meant cells := by
  induction hlength : cells.length using Nat.strongRecOn generalizing cells read queue with
  | ind k ih =>
  subst hlength
  intro hread
  obtain ⟨first, queue, rfl⟩ := List.exists_cons_of_ne_nil hne
  cases cells with
  | nil =>
    rw [(reads_quote hreads).1] at hread
    exact absurd hread.symm (List.cons_ne_nil _ _)
  | cons cell cells =>
    rw [raw_cons] at hreads
    rw [meant_cons] at hread
    -- what is read as it is meant only turns the queue
    have hstep : ∀ read', read = cell.units ++ read' →
        Reads (raw cells ++ '"' :: tail) read' rest → False := by
      rintro read' rfl hrest
      obtain ⟨queue', hqueue, hlen, -⟩ := rotate hread
      exact ih cells.length (by simp) hrest (ne_nil_of_length hlen hne) rfl hqueue
    cases cell with
    | written w =>
      obtain ⟨read', hread', hrest⟩ := reads_written hreads
      exact hstep read' hread' hrest
    | value c =>
      by_cases hquote : c = '"'
      · subst hquote
        rw [(reads_quote hreads).1] at hread
        exact absurd hread.symm (List.cons_ne_nil _ _)
      · by_cases hslash : c = '\\'
        · subst hslash
          rw [backslash_units] at hread
          rcases reads_escape hreads with ⟨e, n, s, read', hs, rfl, he, hrest⟩ |
            ⟨a, b, c, d, n, s, read', hs, rfl, hn, hrest⟩
          · have hdue : read' = queue ++ BACKSLASH :: meant cells := (List.cons.inj hread).2
            obtain ⟨cells', queue', read'', hlen, hne', hreads', hread'⟩ :=
              still_due htail hs hrest hdue
            exact ih cells'.length (by simp only [List.length_cons]; omega) hreads' hne' rfl hread'
          · have hdue : read' = queue ++ BACKSLASH :: meant cells := (List.cons.inj hread).2
            obtain ⟨cell, cells₀, rfl, ⟨-, hu⟩, h₀⟩ := single_of_raw hs (by decide) (by decide)
            obtain ⟨cells₁, hmeant, hshort, rfl⟩ := digits_of_raw h₀.symm hn
            rw [meant_cons, hu, hmeant] at hdue
            have hdue' : read' = queue ++ BACKSLASH :: (utf16 'u' ++ utf16 a ++ utf16 b ++
                utf16 c ++ utf16 d) ++ meant cells₁ := by
              rw [hdue]
              simp only [List.append_assoc, List.cons_append]
            exact ih cells₁.length (by simp only [List.length_cons]; omega) hrest (by simp) rfl
              hdue'
        · obtain ⟨-, read', hread', hrest⟩ := reads_plain hslash hquote hreads
          exact hstep read' hread' hrest

/-! ## Reading what is meant -/

theorem simple_backslash {e : Char} (h : simple_unit e = some BACKSLASH) : e = '\\' := by
  rcases simple_cases h with ⟨-, hn⟩ | ⟨he, -⟩ | ⟨-, hn, -⟩
  · exact absurd hn (by decide)
  · exact he
  · exact absurd rfl hn

/-- An escape whose backslash is taken away reads as more than it means. -/
theorem broken_escape_overruns {cells : List Cell} {tail rest : List Char} {a b c d : Char}
    {n : Nat} (hn : hex_unit a b c d = some n)
    (h : Reads ('u' :: a :: b :: c :: d :: (raw cells ++ '"' :: tail)) (n :: meant cells) rest) :
    False := by
  obtain ⟨read, hread, hrest⟩ := reads_digits hn h
  obtain ⟨hslash, hquote⟩ := plain_digits hn
  obtain ⟨first, hu⟩ : ∃ first, utf16 'u' = [first] := ⟨_, rfl⟩
  generalize utf16 'u' = u at hu hread hslash hquote
  subst hu
  simp only [List.cons_append, List.nil_append, List.cons.injEq] at hread
  simp only [List.cons_append, List.nil_append, List.mem_cons, not_or] at hslash hquote
  exact not_ahead hrest (by simp [utf16_ne_nil]) hslash.2 hquote.2 hread.2

/-- After a backslash that was put in, what is read is meant only where what is spelled behind it
covers it. -/
theorem covered_of_reads {cells : List Cell} {tail rest : List Char} (htail : Quiet tail)
    (hreads : Reads ('\\' :: (raw cells ++ '"' :: tail)) (BACKSLASH :: meant cells) rest)
    (ih : ∀ cells' : List Cell, cells'.length ≤ cells.length →
      Reads (raw cells' ++ '"' :: tail) (meant cells') rest →
        harmless cells' = true ∧ rest = tail) :
    covered cells = true ∧ harmless cells = true ∧ rest = tail := by
  rcases reads_escape hreads with ⟨e, n, s, read, hs, hread, he, hrest⟩ |
    ⟨a, b, c, d, n, s, read, hs, hread, hn, hrest⟩
  · obtain ⟨rfl, rfl⟩ := List.cons.inj hread
    obtain rfl := simple_backslash he
    cases cells with
    | nil => exact absurd (List.cons.inj hs).1 (by decide)
    | cons cell cells =>
      rw [raw_cons] at hs
      rw [meant_cons] at hrest
      cases cell with
      | value c =>
        -- two backslashes that were put in read as one
        obtain ⟨rfl, rfl⟩ := List.cons.inj hs
        exact absurd rfl (not_behind htail hrest (by simp [Cell.units, utf16_ne_nil]))
      | written w =>
        cases w with
        | plain c hc => exact absurd (List.cons.inj hs).1 (ordinary_not_backslash hc)
        | simple e' n' he' =>
          obtain ⟨-, rfl⟩ := List.cons.inj hs
          rcases simple_cases he' with ⟨rfl, -⟩ | ⟨rfl, rfl⟩ | ⟨hordinary, -, hlength, hsame⟩
          · exact absurd (reads_quote hrest).1 (by simp [Cell.units, Written.units])
          · have hbackslash : Cell.units (.value '\\') = [BACKSLASH] := backslash_units
            have hagain : Reads (raw (.value '\\' :: cells) ++ '"' :: tail)
                (meant (.value '\\' :: cells)) rest := by
              rw [raw_cons, meant_cons, hbackslash]
              exact hrest
            obtain ⟨hharmless, htailed⟩ := ih (.value '\\' :: cells) (by simp) hagain
            simp only [harmless, Bool.and_eq_true, Bool.or_eq_true] at hharmless
            refine ⟨?_, hharmless.2, htailed⟩
            unfold covered
            rcases hharmless.1 with hno | hyes
            · exact absurd hno (by decide)
            · simp [hyes.2]
          · obtain ⟨-, read', hread', hrest'⟩ := reads_plain (ordinary_not_backslash hordinary)
              (ordinary_not_quote hordinary) hrest
            obtain ⟨hunits, hmeant⟩ := List.append_inj hread' hlength.symm
            obtain rfl := hsame hunits.symm
            rw [← hmeant] at hrest'
            obtain ⟨hharmless, htailed⟩ := ih cells (Nat.le_succ _) hrest'
            exact ⟨by simp [covered], hharmless, htailed⟩
        | unicode a b c d n' hn' =>
          obtain ⟨-, rfl⟩ := List.cons.inj hs
          exact (broken_escape_overruns hn' hrest).elim
  · -- an escape out of what was put in reads as less than it means
    obtain ⟨rfl, rfl⟩ := List.cons.inj hread
    obtain ⟨cell, cells₀, rfl, ⟨-, hu⟩, h₀⟩ := single_of_raw hs (by decide) (by decide)
    obtain ⟨cells₁, hmeant, -, rfl⟩ := digits_of_raw h₀.symm hn
    rw [meant_cons, hu, hmeant, ← List.append_assoc] at hrest
    exact absurd rfl (not_behind htail hrest (by simp [utf16_ne_nil]))

/-- A literal with raw text in it is read to its own end as what is meant only where the text is
harmless. -/
theorem harmless_of_reads {cells : List Cell} {tail rest : List Char} (htail : Quiet tail)
    (hreads : Reads (raw cells ++ '"' :: tail) (meant cells) rest) :
    harmless cells = true ∧ rest = tail := by
  induction hlength : cells.length using Nat.strongRecOn generalizing cells with
  | ind k ih =>
  subst hlength
  cases cells with
  | nil => exact ⟨rfl, (reads_quote hreads).2⟩
  | cons cell cells =>
    rw [raw_cons, meant_cons] at hreads
    have hrec : ∀ cells' : List Cell, cells'.length ≤ cells.length →
        Reads (raw cells' ++ '"' :: tail) (meant cells') rest →
          harmless cells' = true ∧ rest = tail :=
      fun cells' hle hcells => ih cells'.length (Nat.lt_succ_of_le hle) hcells rfl
    cases cell with
    | written w =>
      obtain ⟨read', hread', hrest⟩ := reads_written hreads
      rw [← List.append_cancel_left hread'] at hrest
      exact hrec cells (Nat.le_refl _) hrest
    | value c =>
      by_cases hquote : c = '"'
      · subst hquote
        exact absurd (reads_quote hreads).1 (by simp [Cell.units, utf16_ne_nil])
      · by_cases hslash : c = '\\'
        · subst hslash
          rw [backslash_units] at hreads
          obtain ⟨hcovered, hharmless, htailed⟩ := covered_of_reads htail hreads hrec
          exact ⟨by simp [harmless, hcovered, hharmless], htailed⟩
        · obtain ⟨hordinary, read', hread', hrest⟩ := reads_plain hslash hquote hreads
          rw [← List.append_cancel_left hread'] at hrest
          obtain ⟨hharmless, htailed⟩ := hrec cells (Nat.le_refl _) hrest
          exact ⟨by simp [harmless, hordinary, hharmless], htailed⟩

theorem reads_written_of {w : Written} {s rest : List Char} {read : List Nat}
    (h : Reads s read rest) : Reads (w.raw ++ s) (w.units ++ read) rest := by
  cases w with
  | plain c hc => exact Reads.plain hc h
  | simple e n he => exact Reads.simple he h
  | unicode a b c d n hn => exact Reads.unicode hn h

/-- And there it is. -/
theorem reads_of_harmless {cells : List Cell} (tail : List Char) (h : harmless cells = true) :
    Reads (raw cells ++ '"' :: tail) (meant cells) tail := by
  have hcovered : ∀ cells : List Cell, covered cells = true →
      Reads (raw cells ++ '"' :: tail) (meant cells) tail →
        Reads ('\\' :: (raw cells ++ '"' :: tail)) (BACKSLASH :: meant cells) tail := by
    intro cells
    induction cells with
    | nil => simp [covered]
    | cons cell cells ih =>
      intro hyes hreads
      rw [raw_cons, meant_cons] at hreads ⊢
      unfold covered at hyes
      split at hyes
      · rename_i e n he cells' heq
        obtain ⟨rfl, rfl⟩ := List.cons.inj heq
        obtain ⟨read', hread', hrest⟩ := reads_written (w := .simple e n he) hreads
        rw [← List.append_cancel_left hread'] at hrest
        rw [Bool.or_eq_true, Bool.and_eq_true, beq_iff_eq, beq_iff_eq] at hyes
        rcases hyes with rfl | ⟨rfl, hyes⟩
        · obtain rfl : n = 0x2F := (Option.some.inj he).symm
          exact Reads.simple rfl (Reads.plain (c := '/') (by decide) hrest)
        · obtain rfl : n = BACKSLASH := (Option.some.inj he).symm
          exact Reads.simple rfl (ih hyes hrest)
      · simp at hyes
  induction cells with
  | nil => exact Reads.stop tail
  | cons cell cells ih =>
    cases cell with
    | written w =>
      rw [raw_cons, meant_cons]
      exact reads_written_of (ih h)
    | value c =>
      simp only [harmless, Bool.and_eq_true, Bool.or_eq_true, beq_iff_eq] at h
      obtain ⟨hc, hcells⟩ := h
      rw [raw_cons, meant_cons]
      rcases hc with hordinary | ⟨rfl, hyes⟩
      · exact Reads.plain hordinary (ih hcells)
      · rw [backslash_units]
        exact hcovered cells hyes (ih hcells)

end json
