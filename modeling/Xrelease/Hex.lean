-- Bytes in hex: two digits a byte. Digits of either case are read, and nothing else.
import Mathlib.Tactic.IntervalCases
import Xrelease.Text

namespace hex

open text (to_ascii_lowercase is_ascii_uppercase)

/-! ## Digits -/

/-- The digit of a number below 16. -/
def digit (n : Nat) : Char := if n < 10 then Char.ofNat (n + 48) else Char.ofNat (n + 87)

def value (c : Char) : Option Nat :=
  if 48 ≤ c.toNat ∧ c.toNat ≤ 57 then some (c.toNat - 48)
  else if 97 ≤ c.toNat ∧ c.toNat ≤ 102 then some (c.toNat - 87)
  else if 65 ≤ c.toNat ∧ c.toNat ≤ 70 then some (c.toNat - 55) else none

theorem digit_toNat {n : Nat} (h : n < 16) :
    (digit n).toNat = if n < 10 then n + 48 else n + 87 := by
  interval_cases n <;> rfl

theorem is_uppercase_iff (c : Char) :
    is_ascii_uppercase c = true ↔ 65 ≤ c.toNat ∧ c.toNat ≤ 90 := by
  simp only [is_ascii_uppercase, Bool.and_eq_true, decide_eq_true_eq, Char.le_def,
    UInt32.le_iff_toNat_le]
  exact Iff.rfl

theorem lowercase_toNat (c : Char) :
    (to_ascii_lowercase c).toNat =
      if 65 ≤ c.toNat ∧ c.toNat ≤ 90 then c.toNat + 32 else c.toNat := by
  unfold to_ascii_lowercase
  by_cases h : 65 ≤ c.toNat ∧ c.toNat ≤ 90
  · rw [if_pos ((is_uppercase_iff c).mpr h), if_pos h]
    generalize c.toNat = n at h
    obtain ⟨hlow, hhigh⟩ := h
    interval_cases n <;> rfl
  · rw [if_neg (fun hc => h ((is_uppercase_iff c).mp hc)), if_neg h]

theorem value_iff {c : Char} {n : Nat} :
    value c = some n ↔ n < 16 ∧ to_ascii_lowercase c = digit n := by
  have hlower := lowercase_toNat c
  constructor
  · intro h
    have hn : n < 16 := by
      unfold value at h
      grind
    refine ⟨hn, ?_⟩
    rw [← Char.toNat_inj, hlower, digit_toNat hn]
    unfold value at h
    grind
  · rintro ⟨hn, heq⟩
    rw [heq, digit_toNat hn] at hlower
    unfold value
    grind

/-! ## Bytes -/

def encode : List UInt8 → List Char
  | [] => []
  | b :: rest => digit (b.toNat / 16) :: digit (b.toNat % 16) :: encode rest

def decode : List Char → Option (List UInt8)
  | [] => some []
  | c :: d :: rest =>
    match value c, value d with
    | some high, some low => (decode rest).map (UInt8.ofNat (high * 16 + low) :: ·)
    | _, _ => none
  | _ => none

theorem decode_iff {text : List Char} {bytes : List UInt8} :
    decode text = some bytes ↔ text.map to_ascii_lowercase = encode bytes := by
  induction text using decode.induct generalizing bytes with
  | case1 => cases bytes <;> simp [decode, encode]
  | case2 c d rest high low hlow hhigh ih =>
    obtain ⟨hc, hhigh'⟩ := value_iff.mp hhigh
    obtain ⟨hd, hlow'⟩ := value_iff.mp hlow
    have hbyte : (UInt8.ofNat (high * 16 + low)).toNat = high * 16 + low :=
      UInt8.toNat_ofNat_of_lt' (show high * 16 + low < 256 by omega)
    simp only [decode, hhigh, hlow, Option.map_eq_some_iff, List.map_cons]
    constructor
    · rintro ⟨more, hmore, rfl⟩
      rw [encode, hbyte, ih.mp hmore, hhigh', hlow', show (high * 16 + low) / 16 = high by omega,
        show (high * 16 + low) % 16 = low by omega]
    · intro h
      cases bytes with
      | nil => cases h
      | cons b more =>
        have hb := b.toNat_lt
        rw [encode, List.cons.injEq, List.cons.injEq] at h
        have hhigh'' := value_iff.mpr ⟨by omega, h.1⟩
        have hlow'' := value_iff.mpr ⟨by omega, h.2.1⟩
        rw [hhigh, Option.some.injEq] at hhigh''
        rw [hlow, Option.some.injEq] at hlow''
        refine ⟨more, ih.mpr h.2.2, ?_⟩
        rw [show high * 16 + low = b.toNat by omega, UInt8.ofNat_toNat]
  | case3 c d rest hvalues =>
    have hnone : decode (c :: d :: rest) = none := by
      rw [decode]
      split
      · rename_i high low hhigh hlow
        exact (hvalues high low hhigh hlow).elim
      · rfl
    rw [hnone]
    refine ⟨fun h => (by cases h), fun h => ?_⟩
    cases bytes with
    | nil => cases h
    | cons b more =>
      have hb := b.toNat_lt
      rw [encode, List.map_cons, List.map_cons, List.cons.injEq, List.cons.injEq] at h
      exact (hvalues _ _ (value_iff.mpr ⟨by omega, h.1⟩) (value_iff.mpr ⟨by omega, h.2.1⟩)).elim
  | case4 text hnil hlong =>
    cases text with
    | nil => exact (hnil rfl).elim
    | cons c rest =>
      cases rest with
      | nil => cases bytes <;> simp [decode, encode]
      | cons d rest => exact (hlong c d rest rfl).elim

/-- What is read is of hex digits only, two a byte. -/
theorem of_decode {text : List Char} {bytes : List UInt8} (h : decode text = some bytes) :
    text.length = 2 * bytes.length ∧ ∀ c ∈ text, (value c).isSome := by
  induction text using decode.induct generalizing bytes with
  | case1 =>
    obtain rfl := Option.some.inj h
    simp
  | case2 c d rest high low hlow hhigh ih =>
    simp only [decode, hhigh, hlow, Option.map_eq_some_iff] at h
    obtain ⟨more, hmore, rfl⟩ := h
    obtain ⟨hlength, hdigits⟩ := ih hmore
    refine ⟨by simp only [List.length_cons, hlength]; omega, ?_⟩
    simpa [hhigh, hlow] using hdigits
  | case3 c d rest hvalues =>
    rw [decode] at h
    split at h
    · rename_i high low hhigh hlow
      exact (hvalues high low hhigh hlow).elim
    · cases h
  | case4 text hnil hlong =>
    rw [decode.eq_3 text hnil hlong] at h
    cases h

end hex
