-- Where one text stands in another: what `str::contains` finds, which stretches of a text
-- `str::split` cuts out of it, what trimming leaves, and what ASCII case and UTF-8 do to a
-- character.
import Xrelease.Text

namespace text

/-! ## A text inside a text -/

theorem split_once_at_isSome_iff (needle s : List Char) :
    (split_once_at needle s).isSome = true ↔ ∃ before after, s = before ++ needle ++ after := by
  induction s with
  | nil =>
    unfold split_once_at
    split
    · rename_i hneedle
      exact ⟨fun _ => ⟨[], [], by simp [hneedle]⟩, fun _ => rfl⟩
    · rename_i hneedle
      simp [eq_comm, hneedle]
  | cons c rest ih =>
    unfold split_once_at
    split
    · rename_i hpre
      obtain ⟨after, hafter⟩ := List.isPrefixOf_iff_prefix.mp hpre
      exact ⟨fun _ => ⟨[], after, by simp [hafter]⟩, fun _ => rfl⟩
    · rename_i hpre
      rw [Option.isSome_map, ih]
      constructor
      · rintro ⟨before, after, rfl⟩
        exact ⟨c :: before, after, rfl⟩
      · rintro ⟨before, after, h⟩
        cases before with
        | nil =>
          exact absurd (List.isPrefixOf_iff_prefix.mpr ⟨after, h.symm⟩) hpre
        | cons b before =>
          simp only [List.cons_append, List.cons.injEq] at h
          exact ⟨before, after, h.2⟩

theorem contains_iff (needle s : String) :
    contains needle s = true ↔ ∃ before after, s.toList = before ++ needle.toList ++ after := by
  unfold contains split_once
  rw [Option.isSome_map, split_once_at_isSome_iff]

variable {before : List Char} {p : Char → Bool} {c : Char}

/-- A single character cuts where it first stands. -/
theorem split_once_at_char {sep : Char} (h : sep ∉ before) (after : List Char) :
    split_once_at [sep] (before ++ sep :: after) = some (before, after) := by
  induction before with
  | nil =>
    unfold split_once_at
    simp
  | cons c before ih =>
    rw [List.mem_cons, not_or] at h
    have hc : [sep].isPrefixOf (c :: (before ++ sep :: after)) = false := by
      simp [List.isPrefixOf, h.1]
    rw [List.cons_append]
    unfold split_once_at
    rw [hc, ih h.2]
    rfl

/-- Nothing is found after the place where it stands. -/
theorem split_once_at_first {sep after before' after' : List Char} (hne : sep ≠ [])
    (h : split_once_at sep (before' ++ sep ++ after') = some (before, after)) :
    before.length ≤ before'.length := by
  induction before' generalizing before after with
  | nil =>
    obtain ⟨c, rest, rfl⟩ := List.exists_cons_of_ne_nil hne
    have hstart : (c :: rest).isPrefixOf (c :: (rest ++ after')) = true :=
      List.isPrefixOf_iff_prefix.mpr (List.prefix_append (c :: rest) after')
    rw [List.nil_append, List.cons_append] at h
    unfold split_once_at at h
    rw [if_pos hstart] at h
    simp only [Option.some.injEq, Prod.mk.injEq] at h
    simp [← h.1]
  | cons c before' ih =>
    rw [List.cons_append, List.cons_append] at h
    unfold split_once_at at h
    split at h
    · simp only [Option.some.injEq, Prod.mk.injEq] at h
      simp [← h.1]
    · obtain ⟨⟨b, a⟩, hrest, heq⟩ := Option.map_eq_some_iff.mp h
      simp only [Prod.mk.injEq] at heq
      have hshort := ih hrest
      simp only [← heq.1, List.length_cons]
      omega

/-- What is found whole is found when white space around it is trimmed. -/
theorem infix_trim {needle : List Char} (h : ∀ c ∈ needle, p c = false) (s : List Char) :
    needle <:+: trim_end_matches p (trim_start_matches p s) ↔ needle <:+: s := by
  have hdrop : ∀ needle : List Char, (∀ c ∈ needle, p c = false) → ∀ s : List Char,
      needle <:+: s.dropWhile p ↔ needle <:+: s := by
    intro needle h s
    induction s with
    | nil => rfl
    | cons c s ih =>
      by_cases hc : p c = true
      · rw [List.dropWhile_cons_of_pos hc, ih, List.infix_cons_iff]
        constructor
        · exact Or.inr
        · rintro (hpre | hin)
          · cases needle with
            | nil => exact List.nil_infix
            | cons d needle =>
              obtain ⟨rfl, -⟩ := List.cons_prefix_cons.mp hpre
              rw [h d List.mem_cons_self] at hc
              exact absurd hc (by simp)
          · exact hin
      · rw [List.dropWhile_cons_of_neg hc]
  have hend : needle <:+: (s.dropWhile p).rdropWhile p ↔ needle <:+: s.dropWhile p := by
    unfold List.rdropWhile
    rw [← List.reverse_infix, List.reverse_reverse,
      hdrop needle.reverse (fun c hc => h c (List.mem_reverse.mp hc)), List.reverse_infix]
  unfold trim_end_matches trim_start_matches
  rw [hend, hdrop needle h]

/-! ## A piece between separators -/

/-- Nothing but a separator, or the start, comes right before. -/
def Ends (p : Char → Bool) (before : List Char) : Prop := ∀ c ∈ before.getLast?, p c = true

/-- Nothing but a separator, or the end, comes right after. -/
def Starts (p : Char → Bool) (after : List Char) : Prop := ∀ c ∈ after.head?, p c = true

theorem ends_append_cons {tail : List Char} :
    Ends p (before ++ c :: tail) ↔ Ends p (c :: tail) := by
  unfold Ends
  rw [List.getLast?_append_of_ne_nil _ (List.cons_ne_nil _ _)]

/-- The first piece is what stands before the first separator; the others are the pieces of what
comes after it. -/
theorem split_eq (p : Char → Bool) (s : List Char) :
    ∃ piece, (∀ c ∈ piece, p c = false) ∧
      ((s = piece ∧ split p s = [piece]) ∨
        ∃ sep rest, s = piece ++ sep :: rest ∧ p sep = true ∧
          split p s = piece :: split p rest) := by
  induction s with
  | nil => exact ⟨[], by simp, Or.inl ⟨rfl, rfl⟩⟩
  | cons c s ih =>
    by_cases hc : p c = true
    · exact ⟨[], by simp, Or.inr ⟨c, s, rfl, hc, by simp [split, hc]⟩⟩
    · obtain ⟨piece, hpiece, hs⟩ := ih
      refine ⟨c :: piece, by simpa [hc] using hpiece, ?_⟩
      rcases hs with ⟨rfl, hsplit⟩ | ⟨sep, rest, rfl, hsep, hsplit⟩
      · exact Or.inl ⟨rfl, by simp [split, hc, hsplit]⟩
      · exact Or.inr ⟨sep, rest, rfl, hsep, by simp [split, hc, hsplit]⟩

/-- What has no separator is its own only piece. -/
theorem split_alone {piece : List Char} (h : ∀ c ∈ piece, p c = false) :
    split p piece = [piece] := by
  induction piece with
  | nil => rfl
  | cons c piece ih =>
    have hc := h c List.mem_cons_self
    have htail := ih (fun d hd => h d (List.mem_cons_of_mem _ hd))
    simp [split, hc, htail]

/-- A separator cuts: the pieces before it, then the pieces after it. -/
theorem split_at_sep {sep : Char} (hsep : p sep = true) (s rest : List Char) :
    split p (s ++ sep :: rest) = split p s ++ split p rest := by
  induction s with
  | nil => simp [split, hsep]
  | cons c s ih =>
    by_cases hc : p c = true
    · simp [split, hc, ih]
    · obtain ⟨piece, _, hs⟩ := split_eq p s
      rcases hs with ⟨-, hsplit⟩ | ⟨_, _, -, -, hsplit⟩ <;>
        simp [split, hc, ih, hsplit]

/-- Texts joined by a separator are cut into the pieces of each. -/
theorem split_joined {sep : Char} (hsep : p sep = true) {texts : List (List Char)}
    (hne : texts ≠ []) :
    split p ([sep].intercalate texts) = texts.flatMap (split p) := by
  obtain ⟨first, others, rfl⟩ := List.exists_cons_of_ne_nil hne
  clear hne
  induction others generalizing first with
  | nil => simp
  | cons next others ih =>
    have hjoin : [sep].intercalate (first :: next :: others) =
        first ++ sep :: [sep].intercalate (next :: others) := by simp
    rw [hjoin, split_at_sep hsep, ih next]
    rfl

/-- The pieces are the stretches without separators between two separators or ends. -/
theorem mem_split_iff (p : Char → Bool) (s piece : List Char) :
    piece ∈ split p s ↔ ∃ before after, s = before ++ piece ++ after ∧
      (∀ c ∈ piece, p c = false) ∧ Ends p before ∧ Starts p after := by
  constructor
  · induction hlen : s.length using Nat.strongRecOn generalizing s with
    | ind n ih =>
      subst hlen
      intro h
      obtain ⟨first, hfirst, ⟨rfl, hsplit⟩ | ⟨sep, rest, rfl, hsep, hsplit⟩⟩ := split_eq p s
      · rw [hsplit, List.mem_singleton] at h
        subst h
        exact ⟨[], [], by simp, hfirst, by simp [Ends], by simp [Starts]⟩
      · rw [hsplit] at h
        rcases List.mem_cons.mp h with rfl | h
        · exact ⟨[], sep :: rest, rfl, hfirst, by simp [Ends], by simpa [Starts] using hsep⟩
        · obtain ⟨before, after, rfl, hpiece, hbefore, hafter⟩ :=
            ih rest.length (by simp; omega) rest rfl h
          refine ⟨first ++ sep :: before, after, by simp, hpiece, ?_, hafter⟩
          rw [ends_append_cons]
          rcases before.eq_nil_or_concat with rfl | ⟨start, last, rfl⟩
          · simpa [Ends] using hsep
          · rw [List.concat_eq_append, ends_append_cons] at hbefore
            rw [List.concat_eq_append, ← List.cons_append, ends_append_cons]
            exact hbefore
  · rintro ⟨before, after, rfl, hpiece, hbefore, hafter⟩
    have hmem : piece ∈ split p (piece ++ after) := by
      cases after with
      | nil =>
        rw [List.append_nil, split_alone hpiece]
        exact List.mem_singleton_self _
      | cons sep rest =>
        rw [split_at_sep (hafter sep rfl), split_alone hpiece]
        exact List.mem_cons_self
    rcases before.eq_nil_or_concat with rfl | ⟨start, sep, rfl⟩
    · exact hmem
    · have hsep : p sep = true := hbefore sep (by simp)
      rw [List.concat_eq_append, List.append_assoc, List.append_assoc, List.singleton_append,
        split_at_sep hsep]
      exact List.mem_append_right _ hmem

/-! ## Trimming -/

/-- Nothing is trimmed from the end of a text whose last character stays. -/
theorem rdropWhile_last (hc : p c = false) (before : List Char) :
    (before ++ [c]).rdropWhile p = before ++ [c] :=
  List.rdropWhile_concat_neg _ _ _ (by simp [hc])

/-- Nothing is trimmed from between two quotes that stay. -/
theorem trim_quoted (hc : p c = false) (s : List Char) :
    trim_end_matches p (trim_start_matches p (c :: (s ++ [c]))) = c :: (s ++ [c]) := by
  unfold trim_end_matches trim_start_matches
  rw [List.dropWhile_cons_of_neg (by simp [hc]), ← List.cons_append]
  exact rdropWhile_last hc (c :: s)

/-- White space around a text without white space at its ends is trimmed. -/
theorem trimmed_between {middle after : List Char} (hbefore : ∀ c ∈ before, is_whitespace c = true)
    (hafter : ∀ c ∈ after, is_whitespace c = true)
    (hhead : ∀ c ∈ middle.head?, is_whitespace c = false)
    (hlast : ∀ c ∈ middle.getLast?, is_whitespace c = false) :
    trimmed (before ++ middle ++ after) = middle := by
  unfold trimmed trim_end_matches trim_start_matches
  rw [List.append_assoc, List.dropWhile_append_of_pos hbefore]
  cases middle with
  | nil => rw [List.nil_append, List.dropWhile_eq_nil_iff.mpr hafter, List.rdropWhile_nil]
  | cons first middle =>
    rw [List.cons_append, List.dropWhile_cons_of_neg (by simp [hhead first rfl])]
    obtain ⟨front, last, hmiddle⟩ := List.eq_nil_or_concat (first :: middle) |>.resolve_left
      (List.cons_ne_nil _ _)
    rw [List.concat_eq_append] at hmiddle
    have hlast' : is_whitespace last = false := hlast last (by rw [hmiddle]; simp)
    rw [← List.cons_append, hmiddle, List.append_assoc, List.singleton_append,
      rdropWhile_append_cons hlast', List.rdropWhile_eq_nil_iff.mpr hafter]

/-- A character that is not trimmed is there as often as before. -/
theorem count_trim (hc : p c = false) (s : List Char) :
    (trim_end_matches p (trim_start_matches p s)).count c = s.count c := by
  have hnone : ∀ l : List Char, (∀ d ∈ l, p d = true) → l.count c = 0 := by
    intro l hl
    rw [List.count_eq_zero]
    intro hmem
    rw [hl c hmem] at hc
    exact absurd hc (by simp)
  have hstart : (s.dropWhile p).count c = s.count c := by
    have hsplit := congrArg (List.count c) (List.takeWhile_append_dropWhile (p := p) (l := s))
    rw [List.count_append, hnone _ (fun d hd => List.mem_takeWhile_imp hd)] at hsplit
    omega
  have hend : ((s.dropWhile p).rdropWhile p).count c = (s.dropWhile p).count c := by
    have hsplit := congrArg (List.count c) (List.rdropWhile_append_rtakeWhile
      (p := p) (l := s.dropWhile p))
    rw [List.count_append, hnone _ (fun d hd => List.mem_rtakeWhile_imp hd)] at hsplit
    omega
  unfold trim_end_matches trim_start_matches
  rw [hend, hstart]

/-! ## ASCII case -/

theorem to_ascii_lowercase_of_upper (h : is_ascii_uppercase c = true) :
    is_ascii_lowercase (to_ascii_lowercase c) = true := by
  have hall : ∀ n : Nat, n < 26 → is_ascii_lowercase (Char.ofNat (65 + n + 32)) = true := by
    decide +kernel
  unfold is_ascii_uppercase at h
  simp only [Bool.and_eq_true, decide_eq_true_eq, Char.le_def, UInt32.le_iff_toNat_le] at h
  have hlow : 65 ≤ c.toNat := h.1
  have hhigh : c.toNat ≤ 90 := h.2
  have hupper : is_ascii_uppercase c = true := by
    unfold is_ascii_uppercase
    simp only [Bool.and_eq_true, decide_eq_true_eq, Char.le_def, UInt32.le_iff_toNat_le]
    exact h
  unfold to_ascii_lowercase
  rw [if_pos hupper]
  have := hall (c.toNat - 65) (by omega)
  rwa [show 65 + (c.toNat - 65) + 32 = c.toNat + 32 by omega] at this

/-- Lower case takes a letter to a letter, and leaves everything else. -/
theorem lowercase_cases (c : Char) :
    is_ascii_alphabetic c = true ∧ is_ascii_alphabetic (to_ascii_lowercase c) = true ∨
      to_ascii_lowercase c = c := by
  by_cases h : is_ascii_uppercase c = true
  · refine Or.inl ⟨?_, ?_⟩
    · simp [is_ascii_alphabetic, h]
    · simp [is_ascii_alphabetic, to_ascii_lowercase_of_upper h]
  · exact Or.inr (if_neg h)

@[simp] theorem alphabetic_lowercase (c : Char) :
    is_ascii_alphabetic (to_ascii_lowercase c) = is_ascii_alphabetic c := by
  rcases lowercase_cases c with ⟨hc, hlower⟩ | h
  · rw [hc, hlower]
  · rw [h]

@[simp] theorem alphanumeric_lowercase (c : Char) :
    is_ascii_alphanumeric (to_ascii_lowercase c) = is_ascii_alphanumeric c := by
  rcases lowercase_cases c with ⟨hc, hlower⟩ | h
  · simp [is_ascii_alphanumeric, hc, hlower]
  · rw [h]

/-- What is no letter is the lower case of itself alone. -/
theorem lowercase_eq_iff {d : Char} (hd : is_ascii_alphabetic d = false) (c : Char) :
    to_ascii_lowercase c = d ↔ c = d := by
  rcases lowercase_cases c with ⟨hc, hlower⟩ | h
  · constructor
    · rintro rfl
      rw [hlower] at hd
      exact absurd hd (by simp)
    · rintro rfl
      rw [hc] at hd
      exact absurd hd (by simp)
  · rw [h]

@[simp] theorem toList_lower (s : String) : (lower s).toList = s.toList.map to_ascii_lowercase :=
  String.toList_ofList

/-! ## Bytes -/

theorem utf8_ascii (h : c.toNat < 128) :
    String.utf8EncodeChar c = [UInt8.ofNat c.toNat] := by
  unfold String.utf8EncodeChar
  exact if_pos (by have : c.val.toNat = c.toNat := rfl; omega)

end text
