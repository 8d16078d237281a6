-- A plain version and the same version with a pre-release suffix: a tag that is semantic keeps its
-- suffix, any other is read for its numbers alone, and the dates then decide.
import Xrelease.Newest

namespace text

/-! ## A number and its text -/

theorem digits_value_eq (s : List Char) : digits_value s = Nat.ofDigitChars 10 s 0 := by
  unfold digits_value Nat.ofDigitChars
  congr
  funext n c
  rw [digit_value, Nat.mul_comm]

theorem digits_all (n : Nat) : (Nat.toDigits 10 n).all is_ascii_digit = true := by
  rw [List.all_eq_true]
  intro c hc
  exact Nat.isDigit_of_mem_toDigits (by decide) (by decide) hc

theorem parse_u64_digits {n : Nat} (h : n < 2 ^ 64) : parse_u64 (Nat.toDigits 10 n) = some n := by
  have hvalue : digits_value (Nat.toDigits 10 n) = n := by
    rw [digits_value_eq, Nat.ofDigitChars_ten_toDigits]
  unfold parse_u64
  rw [hvalue, if_pos ⟨Nat.toDigits_ne_nil, digits_all n, h⟩]

theorem parse_u64_lt {s : List Char} {n : Nat} (h : parse_u64 s = some n) : n < 2 ^ 64 := by
  unfold parse_u64 at h
  split at h
  · rename_i hs
    obtain rfl := Option.some.inj h
    exact hs.2.2
  · simp at h

/-- No number is printed with a leading zero. -/
theorem head_digits {n : Nat} (h : 1 < (Nat.toDigits 10 n).length) :
    (Nat.toDigits 10 n).head? ≠ some '0' := by
  induction n using Nat.strongRecOn with
  | ind n ih =>
    by_cases hn : n < 10
    · rw [Nat.toDigits_of_lt_base hn] at h
      simp at h
    · have hge : 10 ≤ n := by omega
      rw [Nat.toDigits_of_base_le (by decide) hge]
      by_cases hsmall : n / 10 < 10
      · rw [Nat.toDigits_of_lt_base hsmall]
        have hpos : 0 < n / 10 := by omega
        have hall : ∀ d : Nat, d < 10 → 0 < d → d.digitChar ≠ '0' := by decide
        simpa using hall _ hsmall hpos
      · have hlen : 1 < (Nat.toDigits 10 (n / 10)).length := by
          have := (Nat.length_toDigits_le_iff (b := 10) (n := n / 10) (k := 1) (by decide)
            (by decide)).not
          omega
        have hhead := ih (n / 10) (by omega) hlen
        rw [List.head?_append_of_ne_nil _ Nat.toDigits_ne_nil]
        exact hhead

end text

namespace xrelease.model

open Std text compared

/-! ## Dotted numbers -/

def is_dotted_char (c : Char) : Bool := is_ascii_digit c || c == '.'

/-- Digits and dots alone. -/
def Dotted (s : List Char) : Prop := ∀ c ∈ s, is_dotted_char c = true

theorem dotted_char {c : Char} (h : is_dotted_char c = true) :
    is_whitespace c = false ∧ (c == 'v' || c == 'V') = false ∧ (c != '-' && c != '+') = true := by
  rw [is_dotted_char, Bool.or_eq_true, is_ascii_digit, Bool.and_eq_true, decide_eq_true_iff,
    decide_eq_true_iff] at h
  have hrange : c = '.' ∨ (48 ≤ c.toNat ∧ c.toNat ≤ 57) := by
    rcases h with h | h
    · exact Or.inr h
    · exact Or.inl (beq_iff_eq.mp h)
  have hne : ∀ d : Char, d.toNat ≠ 46 → ¬ (48 ≤ d.toNat ∧ d.toNat ≤ 57) → c ≠ d := by
    rintro d hdot hdigit rfl
    rcases hrange with rfl | hd
    · exact hdot rfl
    · exact hdigit hd
  refine ⟨?_, ?_, ?_⟩
  · unfold is_whitespace
    rcases hrange with rfl | hd
    · decide
    · simp only [Bool.or_eq_false_iff, Bool.and_eq_false_iff, decide_eq_false_iff_not,
        beq_eq_false_iff_ne]
      omega
  · simp [hne 'v' (by decide) (by decide), hne 'V' (by decide) (by decide)]
  · simp [hne '-' (by decide) (by decide), hne '+' (by decide) (by decide)]

variable {core r : List Char}

theorem trim_start_dotted {p : Char → Bool} (rest : List Char) (hp : ∀ c ∈ core, p c = false)
    (hrest : ∀ c ∈ rest.head?, p c = false) :
    trim_start_matches p (core ++ rest) = core ++ rest := by
  rw [trim_start_matches, List.dropWhile_eq_self_iff]
  intro hlen
  cases core with
  | nil =>
    cases rest with
    | nil => simp at hlen
    | cons c rest => simpa using hrest c
  | cons c core => simpa using hp c List.mem_cons_self

theorem core_of_suffixed (hdot : Dotted core) (suffix : List Char) :
    ∃ suffix', core_of (core ++ '-' :: suffix) = core ++ '-' :: suffix' := by
  refine ⟨suffix.rdropWhile is_whitespace, ?_⟩
  unfold core_of trimmed trim_end_matches
  rw [trim_start_dotted _ (fun c hc => (dotted_char (hdot c hc)).1) (by simp; decide),
    rdropWhile_append_cons (by decide),
    trim_start_dotted _ (fun c hc => (dotted_char (hdot c hc)).2.1) (by simp)]

theorem core_of_dotted (hdot : Dotted core) : core_of core = core := by
  have hstart : trim_start_matches is_whitespace core = core := by
    simpa using trim_start_dotted [] (fun c hc => (dotted_char (hdot c hc)).1) (by simp)
  have hend : trim_end_matches is_whitespace core = core := by
    rw [trim_end_matches, List.rdropWhile_eq_self_iff]
    intro hne
    rw [(dotted_char (hdot _ (List.getLast_mem hne))).1]
    decide
  rw [core_of, trimmed, hstart, hend]
  simpa using trim_start_dotted [] (fun c hc => (dotted_char (hdot c hc)).2.1) (by simp)

/-- The part of `numeric_parts` after the trimming. -/
def numbers (core : List Char) : Option (List Nat) :=
  let parts := split (· == '.') core
  if parts.all (fun p => p ≠ [] && p.all is_ascii_digit) then
    let nums := parts.filterMap parse_u64
    if nums.length = parts.length then some nums else none
  else none

theorem numeric_parts_of_core {tag : List Char} (hdot : Dotted core)
    (h : core_of tag = core ∨ ∃ suffix, core_of tag = core ++ '-' :: suffix) :
    numeric_parts tag = numbers core := by
  have htake : (core_of tag).takeWhile (fun c => c != '-' && c != '+') = core := by
    have hall : ∀ c ∈ core, (c != '-' && c != '+') = true :=
      fun c hc => (dotted_char (hdot c hc)).2.2
    rcases h with h | ⟨suffix, h⟩
    · rw [h, List.takeWhile_eq_self_iff]
      exact hall
    · rw [h, List.takeWhile_append_of_pos hall]
      simp
  unfold numeric_parts numbers
  rw [htake]

/-! ## The three numbers of a version -/

def three (s : List Char) : Option (Nat × Nat × Nat × List Char) := do
  let (major, s) ← numeric_identifier s
  let s ← expect_dot s
  let (minor, s) ← numeric_identifier s
  let s ← expect_dot s
  let (patch, s) ← numeric_identifier s
  some (major, minor, patch, s)

def ends (major minor patch : Nat) (s : List Char) : Option Version := do
  let (pre, s) ← identifier_part '-' true s
  let (build, s) ← identifier_part '+' false s
  if s = [] then some ⟨major, minor, patch, pre, build⟩ else none

theorem parse_semver_eq (s : List Char) :
    parse_semver s = (three s).bind fun p => ends p.1 p.2.1 p.2.2.1 p.2.2.2 := by
  unfold parse_semver three
  cases numeric_identifier s with
  | none => rfl
  | some p =>
    cases h₁ : expect_dot p.2 with
    | none => simp [h₁]
    | some s₁ =>
      cases h₂ : numeric_identifier s₁ with
      | none => simp [h₁, h₂]
      | some q =>
        cases h₃ : expect_dot q.2 with
        | none => simp [h₁, h₂, h₃]
        | some s₂ =>
          cases h₄ : numeric_identifier s₂ with
          | none => simp [h₁, h₂, h₃, h₄]
          | some r =>
            simp [h₁, h₂, h₃, h₄, ends]

theorem takeWhile_digits_append {c : Char} (hc : is_ascii_digit c = false) (s t : List Char) :
    (s ++ c :: t).takeWhile is_ascii_digit = s.takeWhile is_ascii_digit := by
  rw [List.takeWhile_append]
  split
  · rename_i hlen
    rw [List.takeWhile_cons_of_neg (by simp [hc]), List.append_nil]
    exact ((List.takeWhile_prefix is_ascii_digit).eq_of_length hlen).symm
  · rfl

theorem dropWhile_digits_append {c : Char} (hc : is_ascii_digit c = false) (s t : List Char) :
    (s ++ c :: t).dropWhile is_ascii_digit = s.dropWhile is_ascii_digit ++ c :: t := by
  rw [List.dropWhile_append]
  split
  · rename_i hnil
    rw [List.isEmpty_iff.mp hnil, List.dropWhile_cons_of_neg (by simp [hc]), List.nil_append]
  · rfl

theorem numeric_identifier_append {c : Char} (hc : is_ascii_digit c = false) (s t : List Char) :
    numeric_identifier (s ++ c :: t) =
      (numeric_identifier s).map (fun p => (p.1, p.2 ++ c :: t)) := by
  unfold numeric_identifier
  rw [takeWhile_digits_append hc, dropWhile_digits_append hc]
  dsimp only
  split
  · rfl
  · rw [Option.map_map]
    rfl

theorem expect_dot_append (s t : List Char) :
    expect_dot (s ++ '-' :: t) = (expect_dot s).map (fun r => r ++ '-' :: t) := by
  cases s with
  | nil => rfl
  | cons c rest =>
    by_cases hc : c = '.'
    · subst hc
      rfl
    · unfold expect_dot
      simp [hc]

/-- The three numbers do not depend on the suffix. -/
theorem three_append (s t : List Char) :
    three (s ++ '-' :: t) =
      (three s).map (fun p => (p.1, p.2.1, p.2.2.1, p.2.2.2 ++ '-' :: t)) := by
  have hnumber := numeric_identifier_append (c := '-') (by decide)
  unfold three
  rw [hnumber]
  cases numeric_identifier s with
  | none => rfl
  | some p =>
    simp only [Option.map_some, Option.bind_eq_bind, Option.bind_some, expect_dot_append]
    cases expect_dot p.2 with
    | none => rfl
    | some s₁ =>
      simp only [Option.map_some, Option.bind_some, hnumber]
      cases numeric_identifier s₁ with
      | none => rfl
      | some q =>
        simp only [Option.map_some, Option.bind_some, expect_dot_append]
        cases expect_dot q.2 with
        | none => rfl
        | some s₂ =>
          simp only [Option.map_some, Option.bind_some, hnumber]
          cases numeric_identifier s₂ with
          | none => rfl
          | some r => rfl

/-! ## Reading the three numbers -/

/-- A run of digits that fits 64 bits. -/
def Reads (digits : List Char) (n : Nat) : Prop :=
  digits.all is_ascii_digit = true ∧ digits ≠ [] ∧ parse_u64 digits = some n

theorem numeric_identifier_reads {s : List Char} {n : Nat}
    (h : numeric_identifier s = some (n, r)) : ∃ d, s = d ++ r ∧ Reads d n := by
  unfold numeric_identifier at h
  dsimp only at h
  split at h
  · simp at h
  · obtain ⟨m, hm, heq⟩ := Option.map_eq_some_iff.mp h
    obtain ⟨rfl, rfl⟩ := Prod.mk.inj heq
    refine ⟨s.takeWhile is_ascii_digit, List.takeWhile_append_dropWhile.symm, ?_, ?_, hm⟩
    · exact List.all_takeWhile
    · intro hnil
      rw [hnil] at hm
      simp [parse_u64] at hm

theorem expect_dot_eq {s : List Char} (h : expect_dot s = some r) : s = '.' :: r := by
  unfold expect_dot at h
  split at h
  · obtain rfl := Option.some.inj h
    rfl
  · simp at h

theorem three_reads {s : List Char} {a b c : Nat} (h : three s = some (a, b, c, r)) :
    ∃ d₁ d₂ d₃, s = d₁ ++ '.' :: (d₂ ++ '.' :: (d₃ ++ r)) ∧
      Reads d₁ a ∧ Reads d₂ b ∧ Reads d₃ c := by
  unfold three at h
  simp only [Option.bind_eq_bind, Option.bind_eq_some_iff, Prod.exists, Option.some.injEq,
    Prod.mk.injEq] at h
  obtain ⟨_, s₁, h₁, s₂, h₂, _, s₃, h₃, s₄, h₄, _, s₅, h₅, rfl, rfl, rfl, rfl⟩ := h
  obtain ⟨d₁, hs, hd₁⟩ := numeric_identifier_reads h₁
  obtain ⟨d₂, hs₂, hd₂⟩ := numeric_identifier_reads h₃
  obtain ⟨d₃, hs₄, hd₃⟩ := numeric_identifier_reads h₅
  refine ⟨d₁, d₂, d₃, ?_, hd₁, hd₂, hd₃⟩
  rw [hs, expect_dot_eq h₂, hs₂, expect_dot_eq h₄, hs₄]

theorem digit_not_dot {c : Char} (hc : is_ascii_digit c = true) : (c == '.') = false := by
  rw [beq_eq_false_iff_ne]
  rintro rfl
  exact absurd hc (by decide)

theorem split_dot {d : List Char} (hd : d.all is_ascii_digit = true) (t : List Char) :
    split (· == '.') (d ++ '.' :: t) = d :: split (· == '.') t := by
  induction d with
  | nil => rfl
  | cons c d ih =>
    rw [List.all_cons, Bool.and_eq_true] at hd
    simp only [List.cons_append, split, digit_not_dot hd.1, Bool.false_eq_true, if_false, ih hd.2]

theorem split_digits {d : List Char} (hd : d.all is_ascii_digit = true) :
    split (· == '.') d = [d] := by
  induction d with
  | nil => rfl
  | cons c d ih =>
    rw [List.all_cons, Bool.and_eq_true] at hd
    simp only [split, digit_not_dot hd.1, Bool.false_eq_true, if_false, ih hd.2]

theorem numbers_of_three {d₁ d₂ d₃ : List Char} {a b c : Nat} (h₁ : Reads d₁ a) (h₂ : Reads d₂ b)
    (h₃ : Reads d₃ c) : numbers (d₁ ++ '.' :: (d₂ ++ '.' :: d₃)) = some [a, b, c] := by
  unfold numbers
  rw [split_dot h₁.1, split_dot h₂.1, split_digits h₃.1]
  simp [h₁.1, h₂.1, h₃.1, h₁.2.1, h₂.2.1, h₃.2.1, h₁.2.2, h₂.2.2, h₃.2.2]

theorem numbers_lt {l : List Nat} (h : numbers core = some l) :
    ∀ n ∈ l, n < 2 ^ 64 := by
  unfold numbers at h
  dsimp only at h
  split at h
  · split at h
    · obtain rfl := Option.some.inj h
      intro n hn
      obtain ⟨d, _, hd⟩ := List.mem_filterMap.mp hn
      exact parse_u64_lt hd
    · simp at h
  · simp at h

/-! ## The lenient reading -/

theorem numeric_identifier_digits {n : Nat} (h : n < 2 ^ 64) (rest : List Char)
    (hrest : ∀ c ∈ rest.head?, is_ascii_digit c = false) :
    numeric_identifier (Nat.toDigits 10 n ++ rest) = some (n, rest) := by
  have hdigits := List.all_eq_true.mp (digits_all n)
  have htake : (Nat.toDigits 10 n ++ rest).takeWhile is_ascii_digit = Nat.toDigits 10 n := by
    rw [List.takeWhile_append_of_pos hdigits]
    cases rest with
    | nil => simp
    | cons c rest => simp [hrest c (by simp)]
  have hdrop : (Nat.toDigits 10 n ++ rest).dropWhile is_ascii_digit = rest := by
    rw [List.dropWhile_append_of_pos hdigits]
    cases rest with
    | nil => rfl
    | cons c rest => simp [hrest c (by simp)]
  unfold numeric_identifier
  rw [htake, hdrop]
  dsimp only
  rw [if_neg (fun h => head_digits h.1 h.2), parse_u64_digits h]
  rfl

/-- The version that the numbers of a tag are padded to. -/
def padded (l : List Nat) : Version := ⟨l.getD 0 0, l.getD 1 0, l.getD 2 0, [], []⟩

theorem getD_padded (l : List Nat) (i : Nat) :
    (l ++ List.replicate (3 - l.length) 0).getD i 0 = l.getD i 0 := by
  rw [List.getD_eq_getElem?_getD, List.getD_eq_getElem?_getD, List.getElem?_append]
  by_cases hi : i < l.length
  · rw [if_pos hi]
  · rw [if_neg hi, List.getElem?_eq_none (Nat.le_of_not_lt hi), List.getElem?_replicate]
    split
    · rfl
    · rfl

theorem getD_lt {l : List Nat} (h : ∀ n ∈ l, n < 2 ^ 64) (i : Nat) : l.getD i 0 < 2 ^ 64 := by
  rw [List.getD_eq_getElem?_getD]
  cases hi : l[i]? with
  | none => decide
  | some n => exact h n (List.mem_of_getElem? hi)

theorem parse_padded {a b c : Nat} (ha : a < 2 ^ 64) (hb : b < 2 ^ 64) (hc : c < 2 ^ 64) :
    parse_semver s!"{a}.{b}.{c}".toList = some ⟨a, b, c, [], []⟩ := by
  have htext : s!"{a}.{b}.{c}".toList =
      Nat.toDigits 10 a ++ '.' :: (Nat.toDigits 10 b ++ '.' :: (Nat.toDigits 10 c ++ [])) := by
    have hdot : (toString ".").toList = ['.'] := rfl
    simp [hdot]
  have hthree : three s!"{a}.{b}.{c}".toList = some (a, b, c, []) := by
    rw [htext]
    unfold three
    rw [numeric_identifier_digits ha _ (by simp; decide)]
    simp only [Option.bind_eq_bind, Option.bind_some, expect_dot]
    rw [numeric_identifier_digits hb _ (by simp; decide)]
    simp only [Option.bind_some]
    rw [numeric_identifier_digits hc [] (by simp)]
    rfl
  rw [parse_semver_eq, hthree]
  rfl

theorem lenient_parse_eq {tag : List Char} (h : numeric_parts tag = numbers core) :
    lenient_parse tag = (numbers core).map padded := by
  unfold lenient_parse
  rw [h]
  cases hn : numbers core with
  | none => rfl
  | some l =>
    have hlt := numbers_lt hn
    simp only [getD_padded, Option.map_some]
    exact parse_padded (getD_lt hlt 0) (getD_lt hlt 1) (getD_lt hlt 2)

/-! ## With and without the suffix -/

theorem ends_plain {a b c : Nat} (hdot : Dotted r) {v : Version} (h : ends a b c r = some v) :
    r = [] ∧ v = ⟨a, b, c, [], []⟩ := by
  cases r with
  | nil => exact ⟨rfl, (Option.some.inj h).symm⟩
  | cons x r =>
    have hx := (dotted_char (hdot x List.mem_cons_self)).2.2
    rw [Bool.and_eq_true, bne_iff_ne, bne_iff_ne] at hx
    simp [ends, identifier_part, hx.1, hx.2] at h

/-- No suffix is empty. -/
theorem identifier_part_ne_nil {suffix pre rest : List Char}
    (h : identifier_part '-' true ('-' :: suffix) = some (pre, rest)) : pre ≠ [] := by
  simp only [identifier_part, if_true] at h
  split at h
  · rename_i hids
    obtain ⟨rfl, rfl⟩ := Prod.mk.inj (Option.some.inj h)
    intro hnil
    rw [hnil] at hids
    exact absurd hids (by decide)
  · simp at h

theorem ends_suffixed {a b c : Nat} {suffix : List Char} (hdot : Dotted r) {v : Version}
    (h : ends a b c (r ++ '-' :: suffix) = some v) :
    r = [] ∧ ∃ pre build, pre ≠ [] ∧ v = ⟨a, b, c, pre, build⟩ := by
  cases r with
  | nil =>
    refine ⟨rfl, ?_⟩
    obtain ⟨⟨pre, rest⟩, hpre, hrest⟩ := Option.bind_eq_some_iff.mp h
    obtain ⟨⟨build, rest'⟩, hbuild, hv⟩ := Option.bind_eq_some_iff.mp hrest
    refine ⟨pre, build, identifier_part_ne_nil hpre, ?_⟩
    dsimp only at hv
    split at hv
    · exact (Option.some.inj hv).symm
    · simp at hv
  | cons x r =>
    have hx := (dotted_char (hdot x List.mem_cons_self)).2.2
    rw [Bool.and_eq_true, bne_iff_ne, bne_iff_ne] at hx
    simp [ends, identifier_part, hx.1, hx.2] at h

theorem dotted_rest {d₁ d₂ d₃ : List Char} (hdot : Dotted core)
    (h : core = d₁ ++ '.' :: (d₂ ++ '.' :: (d₃ ++ r))) : Dotted r := by
  intro x hx
  apply hdot
  rw [h]
  simp [hx]

/-- Where the plain text is a semantic version, its numbers are the ones it is padded to. -/
theorem parse_dotted (hdot : Dotted core) :
    (parse_semver core).orElse (fun _ => lenient_parse core) = (numbers core).map padded := by
  have hlenient := lenient_parse_eq (numeric_parts_of_core hdot (Or.inl (core_of_dotted hdot)))
  cases hv : parse_semver core with
  | none => exact hlenient
  | some v =>
    rw [parse_semver_eq] at hv
    obtain ⟨⟨a, b, c, r⟩, hthree, hends⟩ := Option.bind_eq_some_iff.mp hv
    obtain ⟨d₁, d₂, d₃, hcore, h₁, h₂, h₃⟩ := three_reads hthree
    obtain ⟨rfl, rfl⟩ := ends_plain (dotted_rest hdot hcore) hends
    rw [List.append_nil] at hcore
    rw [hcore, numbers_of_three h₁ h₂ h₃]
    rfl

/-- A suffixed text that is a semantic version has the numbers of the plain one. -/
theorem parse_suffixed {suffix : List Char} (hdot : Dotted core) {v : Version}
    (h : parse_semver (core ++ '-' :: suffix) = some v) :
    ∃ a b c pre build, pre ≠ [] ∧ v = ⟨a, b, c, pre, build⟩ ∧
      (numbers core).map padded = some ⟨a, b, c, [], []⟩ := by
  rw [parse_semver_eq, three_append] at h
  obtain ⟨p, hp, hends⟩ := Option.bind_eq_some_iff.mp h
  obtain ⟨⟨a, b, c, r⟩, hthree, rfl⟩ := Option.map_eq_some_iff.mp hp
  obtain ⟨d₁, d₂, d₃, hcore, h₁, h₂, h₃⟩ := three_reads hthree
  obtain ⟨rfl, pre, build, hpre, hv⟩ := ends_suffixed (dotted_rest hdot hcore) hends
  refine ⟨a, b, c, pre, build, hpre, hv, ?_⟩
  rw [List.append_nil] at hcore
  rw [hcore, numbers_of_three h₁ h₂ h₃]
  rfl

/-- A release as every source builds it: the version is read out of the tag. -/
def Parsed (r : Release) : Prop := r.version = parse_version r.raw_tag

/-- The one with the later date is the newer; without dates, the one whose tag comes later. -/
def PublishedAfter (a b : Release) : Prop :=
  match a.published_at, b.published_at with
  | some pa, some pb => pb < pa
  | some _, none => True
  | none, some _ => False
  | none, none => compare_str b.raw_tag a.raw_tag = .lt

theorem compare_published_gt_iff (a b : Release) :
    compare_published a b = .gt ↔ PublishedAfter a b := by
  unfold compare_published PublishedAfter
  cases a.published_at with
  | none =>
    cases b.published_at with
    | none => exact OrientedCmp.gt_iff_lt
    | some pb => simp
  | some pa =>
    cases b.published_at with
    | none => simp
    | some pb => exact compare_gt_iff_gt

theorem compare_version_pre {a b c : Nat} {pre build : List Char} (hpre : pre ≠ []) :
    compare_version ⟨a, b, c, [], []⟩ ⟨a, b, c, pre, build⟩ = .gt := by
  cases pre with
  | nil => exact absurd rfl hpre
  | cons x pre => simp [compare_version, compare_pre]

/-- The plain version is the newer exactly where the suffixed tag is a semantic version, suffix and
all, or the plain one was published after it. -/
theorem plain_is_newer_iff (core suffix : List Char) (hdot : Dotted core) {a b : Release}
    (ha : Parsed a) (hb : Parsed b) (hplain : core_of a.raw_tag.toList = core)
    (hsuffixed : core_of b.raw_tag.toList = core ++ '-' :: suffix) (hread : a.version.isSome) :
    compare_releases a b = .gt ↔
      (parse_semver (core ++ '-' :: suffix)).isSome = true ∨ PublishedAfter a b := by
  have hva : a.version = (numbers core).map padded := by
    rw [ha, parse_version, hplain]
    exact parse_dotted hdot
  obtain ⟨l, hl⟩ : ∃ l, numbers core = some l := by
    rw [hva, Option.isSome_map] at hread
    exact Option.isSome_iff_exists.mp hread
  have hna : numeric_parts a.raw_tag.toList = some l := by
    rw [numeric_parts_of_core hdot (Or.inl hplain), hl]
  have hnb : numeric_parts b.raw_tag.toList = some l := by
    rw [numeric_parts_of_core hdot (Or.inr ⟨suffix, hsuffixed⟩), hl]
  rw [hl, Option.map_some] at hva
  cases hsemver : parse_semver (core ++ '-' :: suffix) with
  | some v =>
    obtain ⟨x, y, z, pre, build, hpre, rfl, hpadded⟩ := parse_suffixed hdot hsemver
    have hvb : b.version = some ⟨x, y, z, pre, build⟩ := by
      rw [hb, parse_version, hsuffixed, hsemver]
      rfl
    rw [hl, Option.map_some] at hpadded
    have hgt : compare_releases a b = .gt := by
      unfold compare_releases
      rw [hva, hvb, Option.some.inj hpadded]
      simp [compare_version_pre hpre]
    simp [hgt]
  | none =>
    have hvb : b.version = some (padded l) := by
      rw [hb, parse_version, hsuffixed, hsemver]
      change lenient_parse _ = _
      rw [lenient_parse_eq (numeric_parts_of_core hdot (Or.inr (core_of_suffixed hdot suffix))),
        hl]
      rfl
    have hlevel : compare_releases a b = compare_published a b := by
      unfold compare_releases
      rw [hva, hvb, hna, hnb]
      simp [ReflCmp.compare_self]
    rw [hlevel, compare_published_gt_iff]
    simp

/-- The witness of the law: a semantic pair, whatever the dates. -/
theorem plain_is_newer_here :
    (compare_releases (Release.new "v1.2.3") (Release.new "1.2.3-rc1") = .gt ↔
      (parse_semver "1.2.3-rc1".toList).isSome = true ∨
        PublishedAfter (Release.new "v1.2.3") (Release.new "1.2.3-rc1")) :=
  plain_is_newer_iff "1.2.3".toList "rc1".toList (List.all_eq_true.mp (by decide)) rfl rfl
    (by decide) (by decide) (by decide)

/-- Two components are no semantic version: both are read as 1.2.0, and the longer tag wins. -/
theorem a_candidate_above_its_release :
    compare_releases (Release.new "1.2") (Release.new "1.2-rc1") = .lt ∧
      (Release.new "1.2-rc1").prerelease = true := by
  decide +kernel

end xrelease.model
