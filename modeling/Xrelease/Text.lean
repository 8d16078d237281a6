-- The parts of Rust's string library that the program leans on, over lists of characters:
-- trimming by Unicode whitespace, splitting, ASCII case, byte order and decimal numbers.
import Mathlib.Algebra.GroupWithZero.Nat
import Mathlib.Data.List.DropRight

namespace text

/-! ## Characters -/

/-- `char::is_whitespace`: the code points with the White_Space property. -/
def is_whitespace (c : Char) : Bool :=
  let n := c.toNat
  (9 ≤ n && n ≤ 13) || n == 0x20 || n == 0x85 || n == 0xA0 || n == 0x1680 ||
    (0x2000 ≤ n && n ≤ 0x200A) || n == 0x2028 || n == 0x2029 || n == 0x202F || n == 0x205F ||
    n == 0x3000

def is_ascii_digit (c : Char) : Bool := '0' ≤ c && c ≤ '9'

def is_ascii_lowercase (c : Char) : Bool := 'a' ≤ c && c ≤ 'z'

def is_ascii_uppercase (c : Char) : Bool := 'A' ≤ c && c ≤ 'Z'

def is_ascii_alphabetic (c : Char) : Bool := is_ascii_lowercase c || is_ascii_uppercase c

def is_ascii_alphanumeric (c : Char) : Bool := is_ascii_alphabetic c || is_ascii_digit c

def to_ascii_uppercase (c : Char) : Char :=
  if is_ascii_lowercase c then Char.ofNat (c.toNat - 32) else c

def to_ascii_lowercase (c : Char) : Char :=
  if is_ascii_uppercase c then Char.ofNat (c.toNat + 32) else c

/-! ## Slices -/

def trim_start_matches (p : Char → Bool) (s : List Char) : List Char := s.dropWhile p

def trim_end_matches (p : Char → Bool) (s : List Char) : List Char := s.rdropWhile p

def trimmed (s : List Char) : List Char :=
  trim_end_matches is_whitespace (trim_start_matches is_whitespace s)

/-- `str::trim`. -/
def trim (s : String) : String := String.ofList (trimmed s.toList)

theorem rdropWhile_append_cons {p : Char → Bool} {c : Char} (hc : p c = false)
    (before after : List Char) :
    (before ++ c :: after).rdropWhile p = before ++ c :: after.rdropWhile p := by
  unfold List.rdropWhile
  rw [List.reverse_append, List.reverse_cons, List.append_assoc, List.dropWhile_append]
  by_cases hnil : (after.reverse.dropWhile p).isEmpty = true
  · rw [if_pos hnil, List.isEmpty_iff.mp hnil]
    simp [hc]
  · rw [if_neg hnil]
    simp

/-- `str::split` on a character predicate: the pieces between the separators, empty ones too. -/
def split (p : Char → Bool) : List Char → List (List Char)
  | [] => [[]]
  | c :: rest =>
    if p c then [] :: split p rest
    else
      match split p rest with
      | [] => [[c]]
      | piece :: pieces => (c :: piece) :: pieces

/-- `str::split_once`: the text before and after the first place where `sep` stands. -/
def split_once_at (sep : List Char) : List Char → Option (List Char × List Char)
  | [] => if sep = [] then some ([], []) else none
  | c :: rest =>
    if sep.isPrefixOf (c :: rest) then some ([], (c :: rest).drop sep.length)
    else (split_once_at sep rest).map (fun ab => (c :: ab.1, ab.2))

theorem split_once_at_eq {sep s before after : List Char}
    (h : split_once_at sep s = some (before, after)) : s = before ++ sep ++ after := by
  induction s generalizing before with
  | nil =>
    unfold split_once_at at h
    split at h
    · rename_i hsep
      simp only [Option.some.injEq, Prod.mk.injEq] at h
      simp [hsep, ← h.1, ← h.2]
    · simp at h
  | cons c rest ih =>
    unfold split_once_at at h
    split at h
    · rename_i hpre
      simp only [Option.some.injEq, Prod.mk.injEq] at h
      obtain ⟨t, ht⟩ := List.isPrefixOf_iff_prefix.mp hpre
      rw [← h.1, ← h.2, ← ht]
      simp
    · simp only [Option.map_eq_some_iff, Prod.mk.injEq, Prod.exists] at h
      obtain ⟨b, a, hs, rfl, rfl⟩ := h
      rw [ih hs]
      simp

/-- Where the separator stands first does not depend on what comes after it. -/
theorem split_once_at_append {sep s before after : List Char} (hne : sep ≠ [])
    (h : split_once_at sep s = some (before, after)) (after' : List Char) :
    split_once_at sep (before ++ sep ++ after') = some (before, after') := by
  induction s generalizing before with
  | nil =>
    unfold split_once_at at h
    simp [hne] at h
  | cons c rest ih =>
    have heq := split_once_at_eq h
    unfold split_once_at at h
    split at h
    · simp only [Option.some.injEq, Prod.mk.injEq] at h
      obtain ⟨d, seps, rfl⟩ := List.exists_cons_of_ne_nil hne
      rw [← h.1]
      simp [split_once_at]
    · rename_i hpre
      simp only [Option.map_eq_some_iff, Prod.mk.injEq, Prod.exists] at h
      obtain ⟨b, a, hs, rfl, rfl⟩ := h
      have hnot : sep.isPrefixOf (c :: (b ++ sep ++ after')) = false := by
        rw [Bool.eq_false_iff]
        intro hp
        apply hpre
        rw [List.isPrefixOf_iff_prefix] at hp ⊢
        have hlen : sep.length ≤ (c :: b ++ sep).length := by
          simp only [List.length_append, List.length_cons]
          omega
        have hmid : sep <+: c :: b ++ sep :=
          List.prefix_of_prefix_length_le hp ⟨after', by simp⟩ hlen
        rw [heq]
        exact hmid.trans ⟨a, rfl⟩
      simp only [List.cons_append]
      unfold split_once_at
      rw [hnot, ih hs]
      rfl

def split_once (sep s : String) : Option (String × String) :=
  (split_once_at sep.toList s.toList).map (fun ab => (String.ofList ab.1, String.ofList ab.2))

/-- `str::strip_prefix`. -/
def strip_prefix_of (pre s : String) : Option String :=
  if pre.toList.isPrefixOf s.toList then some (String.ofList (s.toList.drop pre.toList.length))
  else none

/-- `str::contains`. -/
def contains (needle s : String) : Bool := (split_once needle s).isSome

def lower (s : String) : String := String.ofList (s.toList.map to_ascii_lowercase)

/-! ## Order -/

/-- `str::cmp`: byte order, which for UTF-8 is the order of the code points. -/
def compare_chars : List Char → List Char → Ordering
  | [], [] => .eq
  | [], _ :: _ => .lt
  | _ :: _, [] => .gt
  | a :: as, b :: bs =>
    if a.toNat < b.toNat then .lt else if b.toNat < a.toNat then .gt else compare_chars as bs

def compare_str (a b : String) : Ordering := compare_chars a.toList b.toList

/-- `Ord` of an `Option`: `None` first. -/
def compare_option {α : Type} (cmp : α → α → Ordering) : Option α → Option α → Ordering
  | none, none => .eq
  | none, some _ => .lt
  | some _, none => .gt
  | some a, some b => cmp a b

/-! ## Numbers -/

def digit_value (c : Char) : Nat := c.toNat - '0'.toNat

/-- The value of a run of decimal digits. -/
def digits_value (s : List Char) : Nat := s.foldl (fun n c => n * 10 + digit_value c) 0

/-- `u64::from_str` on digits: the value when it fits. -/
def parse_u64 (s : List Char) : Option Nat :=
  if s ≠ [] ∧ s.all is_ascii_digit ∧ digits_value s < 2 ^ 64 then some (digits_value s) else none

/-- At least `n` characters, filled up on the left. -/
def padLeft (n : Nat) (c : Char) (s : List Char) : List Char :=
  List.replicate (n - s.length) c ++ s

/-- `{:016x}`. -/
def hex16 (n : Nat) : String := String.ofList (padLeft 16 '0' (Nat.toDigits 16 n))

theorem toString_inj {a b : Nat} (h : toString a = toString b) : a = b := by
  have hl := congrArg String.toList h
  have hdigits : Nat.toDigits 10 a = Nat.toDigits 10 b := by
    rw [← Nat.toList_repr, ← Nat.toList_repr]
    exact hl
  have hvalue := congrArg (fun digits => Nat.ofDigitChars 10 digits 0) hdigits
  simpa only [Nat.ofDigitChars_ten_toDigits] using hvalue

end text
