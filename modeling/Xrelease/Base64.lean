-- Base64 with the standard alphabet and padding: what is encoded decodes to itself, and only what
-- is encoded decodes.
import Mathlib.Tactic.Common
import Mathlib.Tactic.IntervalCases

namespace base64

/-! ## Symbols -/

/-- The symbol of a number below 64. -/
def symbol (n : Nat) : Char :=
  if n < 26 then Char.ofNat (n + 65)
  else if n < 52 then Char.ofNat (n + 71)
  else if n < 62 then Char.ofNat (n - 4)
  else if n = 62 then '+' else '/'

def value (c : Char) : Option Nat :=
  if 65 ≤ c.toNat ∧ c.toNat ≤ 90 then some (c.toNat - 65)
  else if 97 ≤ c.toNat ∧ c.toNat ≤ 122 then some (c.toNat - 71)
  else if 48 ≤ c.toNat ∧ c.toNat ≤ 57 then some (c.toNat + 4)
  else if c = '+' then some 62
  else if c = '/' then some 63 else none

theorem value_symbol {n : Nat} (h : n < 64) : value (symbol n) = some n := by
  interval_cases n <;> rfl

theorem value_pad : value '=' = none := rfl

theorem symbol_ne_pad {n : Nat} (h : n < 64) : symbol n ≠ '=' := by
  intro hpad
  have hvalue := value_symbol h
  rw [hpad, value_pad] at hvalue
  cases hvalue

theorem of_value {c : Char} {n : Nat} (h : value c = some n) : n < 64 ∧ symbol n = c := by
  unfold value at h
  have hback : Char.ofNat c.toNat = c := Char.ofNat_toNat c
  split at h
  · obtain rfl := Option.some.inj h
    refine ⟨by omega, ?_⟩
    rw [symbol, if_pos (by omega), show c.toNat - 65 + 65 = c.toNat by omega, hback]
  · split at h
    · obtain rfl := Option.some.inj h
      refine ⟨by omega, ?_⟩
      rw [symbol, if_neg (by omega), if_pos (by omega), show c.toNat - 71 + 71 = c.toNat by omega,
        hback]
    · split at h
      · obtain rfl := Option.some.inj h
        refine ⟨by omega, ?_⟩
        rw [symbol, if_neg (by omega), if_neg (by omega), if_pos (by omega),
          show c.toNat + 4 - 4 = c.toNat by omega, hback]
      · split at h
        · rename_i hplus
          obtain rfl := Option.some.inj h
          exact ⟨by omega, hplus.symm⟩
        · split at h
          · rename_i hslash
            obtain rfl := Option.some.inj h
            exact ⟨by omega, hslash.symm⟩
          · cases h

/-! ## Groups -/

def encode : List UInt8 → List Char
  | [] => []
  | [a] => [symbol (a.toNat / 4), symbol (a.toNat % 4 * 16), '=', '=']
  | [a, b] =>
    [symbol (a.toNat / 4), symbol (a.toNat % 4 * 16 + b.toNat / 16), symbol (b.toNat % 16 * 4), '=']
  | a :: b :: c :: rest =>
    symbol (a.toNat / 4) :: symbol (a.toNat % 4 * 16 + b.toNat / 16) ::
      symbol (b.toNat % 16 * 4 + c.toNat / 64) :: symbol (c.toNat % 64) :: encode rest

/-- Two symbols for one byte; the bits that are left over are 0. -/
def one (w x : Char) : Option (List UInt8) := do
  let w ← value w
  let x ← value x
  if x % 16 = 0 then some [UInt8.ofNat (w * 4 + x / 16)] else none

/-- Three symbols for two bytes. -/
def two (w x y : Char) : Option (List UInt8) := do
  let w ← value w
  let x ← value x
  let y ← value y
  if y % 4 = 0 then some [UInt8.ofNat (w * 4 + x / 16), UInt8.ofNat (x % 16 * 16 + y / 4)]
  else none

def three (w x y z : Char) : Option (List UInt8) := do
  let w ← value w
  let x ← value x
  let y ← value y
  let z ← value z
  some [UInt8.ofNat (w * 4 + x / 16), UInt8.ofNat (x % 16 * 16 + y / 4), UInt8.ofNat (y % 4 * 64 + z)]

/-- Padding ends the text, and pads it to groups of four. -/
def decode : List Char → Option (List UInt8)
  | [] => some []
  | w :: x :: y :: z :: rest =>
    if rest = [] ∧ z = '=' then if y = '=' then one w x else two w x y
    else (three w x y z).bind (fun bytes => (decode rest).map (bytes ++ ·))
  | _ => none

theorem toNat_ofNat {n : Nat} (h : n < 256) : (UInt8.ofNat n).toNat = n :=
  UInt8.toNat_ofNat_of_lt' h

/-- A byte is put together from its parts. -/
theorem ofNat_eq {n : Nat} (a : UInt8) (h : n = a.toNat) : UInt8.ofNat n = a := by
  rw [h, UInt8.ofNat_toNat]

theorem one_symbols (a : UInt8) :
    one (symbol (a.toNat / 4)) (symbol (a.toNat % 4 * 16)) = some [a] := by
  have ha := a.toNat_lt
  unfold one
  rw [value_symbol (by omega), value_symbol (by omega)]
  simp only [Option.bind_eq_bind, Option.bind_some]
  rw [if_pos (by omega), ofNat_eq a (by omega)]

theorem two_symbols (a b : UInt8) :
    two (symbol (a.toNat / 4)) (symbol (a.toNat % 4 * 16 + b.toNat / 16))
      (symbol (b.toNat % 16 * 4)) = some [a, b] := by
  have ha := a.toNat_lt
  have hb := b.toNat_lt
  unfold two
  rw [value_symbol (by omega), value_symbol (by omega), value_symbol (by omega)]
  simp only [Option.bind_eq_bind, Option.bind_some]
  rw [if_pos (by omega), ofNat_eq a (by omega), ofNat_eq b (by omega)]

theorem three_symbols (a b c : UInt8) :
    three (symbol (a.toNat / 4)) (symbol (a.toNat % 4 * 16 + b.toNat / 16))
      (symbol (b.toNat % 16 * 4 + c.toNat / 64)) (symbol (c.toNat % 64)) = some [a, b, c] := by
  have ha := a.toNat_lt
  have hb := b.toNat_lt
  have hc := c.toNat_lt
  unfold three
  rw [value_symbol (by omega), value_symbol (by omega), value_symbol (by omega),
    value_symbol (by omega)]
  simp only [Option.bind_eq_bind, Option.bind_some]
  rw [ofNat_eq a (by omega), ofNat_eq b (by omega), ofNat_eq c (by omega)]

theorem decode_encode (bytes : List UInt8) : decode (encode bytes) = some bytes := by
  induction bytes using encode.induct with
  | case1 => rfl
  | case2 a =>
    rw [encode, decode, if_pos ⟨rfl, rfl⟩, if_pos rfl, one_symbols]
  | case3 a b =>
    rw [encode, decode, if_pos ⟨rfl, rfl⟩, if_neg (symbol_ne_pad (by omega)), two_symbols]
  | case4 a b c rest ih =>
    rw [encode, decode, if_neg (fun h => symbol_ne_pad (by omega) h.2), three_symbols, ih]
    rfl

variable {bytes : List UInt8}

theorem encode_of_one {w x : Char} (h : one w x = some bytes) :
    encode bytes = [w, x, '=', '='] := by
  unfold one at h
  simp only [Option.bind_eq_bind, Option.bind_eq_some_iff] at h
  obtain ⟨m, hm, n, hn, h⟩ := h
  obtain ⟨hm64, rfl⟩ := of_value hm
  obtain ⟨hn64, rfl⟩ := of_value hn
  split at h
  · obtain rfl := Option.some.inj h
    have hfirst : (m * 4 + n / 16) / 4 = m := by omega
    have hsecond : (m * 4 + n / 16) % 4 * 16 = n := by omega
    rw [encode, toNat_ofNat (by omega), hfirst, hsecond]
  · cases h

theorem encode_of_two {w x y : Char} (h : two w x y = some bytes) :
    encode bytes = [w, x, y, '='] := by
  unfold two at h
  simp only [Option.bind_eq_bind, Option.bind_eq_some_iff] at h
  obtain ⟨k, hk, m, hm, n, hn, h⟩ := h
  obtain ⟨hk64, rfl⟩ := of_value hk
  obtain ⟨hm64, rfl⟩ := of_value hm
  obtain ⟨hn64, rfl⟩ := of_value hn
  split at h
  · obtain rfl := Option.some.inj h
    have hfirst : (k * 4 + m / 16) / 4 = k := by omega
    have hsecond : (k * 4 + m / 16) % 4 * 16 + (m % 16 * 16 + n / 4) / 16 = m := by omega
    have hthird : (m % 16 * 16 + n / 4) % 16 * 4 = n := by omega
    rw [encode, toNat_ofNat (by omega), toNat_ofNat (by omega), hfirst, hsecond, hthird]
  · cases h

theorem encode_of_three {w x y z : Char} (h : three w x y z = some bytes) (rest : List UInt8) :
    encode (bytes ++ rest) = w :: x :: y :: z :: encode rest := by
  unfold three at h
  simp only [Option.bind_eq_bind, Option.bind_eq_some_iff] at h
  obtain ⟨k, hk, m, hm, n, hn, l, hl, h⟩ := h
  obtain ⟨hk64, rfl⟩ := of_value hk
  obtain ⟨hm64, rfl⟩ := of_value hm
  obtain ⟨hn64, rfl⟩ := of_value hn
  obtain ⟨hl64, rfl⟩ := of_value hl
  obtain rfl := Option.some.inj h
  have hfirst : (k * 4 + m / 16) / 4 = k := by omega
  have hsecond : (k * 4 + m / 16) % 4 * 16 + (m % 16 * 16 + n / 4) / 16 = m := by omega
  have hthird : (m % 16 * 16 + n / 4) % 16 * 4 + (n % 4 * 64 + l) / 64 = n := by omega
  have hfourth : (n % 4 * 64 + l) % 64 = l := by omega
  rw [List.cons_append, List.cons_append, List.cons_append, List.nil_append, encode,
    toNat_ofNat (by omega), toNat_ofNat (by omega), toNat_ofNat (by omega), hfirst, hsecond,
    hthird, hfourth]

/-- Only the encoding of some bytes decodes, and to these bytes. -/
theorem encode_of_decode {text : List Char} (h : decode text = some bytes) :
    encode bytes = text := by
  induction text using decode.induct generalizing bytes with
  | case1 =>
    obtain rfl := Option.some.inj h
    rfl
  | case2 w x z rest hend =>
    obtain ⟨rfl, rfl⟩ := hend
    rw [decode, if_pos ⟨rfl, rfl⟩, if_pos rfl] at h
    exact encode_of_one h
  | case3 w x y z rest hend hpad =>
    obtain ⟨rfl, rfl⟩ := hend
    rw [decode, if_pos ⟨rfl, rfl⟩, if_neg hpad] at h
    exact encode_of_two h
  | case4 w x y z rest hgoes ih =>
    rw [decode, if_neg hgoes] at h
    obtain ⟨group, hgroup, hrest⟩ := Option.bind_eq_some_iff.mp h
    obtain ⟨more, hmore, rfl⟩ := Option.map_eq_some_iff.mp hrest
    rw [encode_of_three hgroup, ih hmore]
  | case5 text hnil hlong =>
    rw [decode.eq_3 text hnil hlong] at h
    cases h

theorem decode_iff {text : List Char} :
    decode text = some bytes ↔ text = encode bytes :=
  ⟨fun h => (encode_of_decode h).symm, fun h => h ▸ decode_encode bytes⟩

/-- Every symbol is an ASCII character other than white space. -/
theorem mem_encode {c : Char} (h : c ∈ encode bytes) :
    c = '=' ∨ ∃ n < 64, c = symbol n := by
  induction bytes using encode.induct with
  | case1 => cases h
  | case2 a =>
    have ha := a.toNat_lt
    simp only [encode, List.mem_cons, List.not_mem_nil, or_false, or_self] at h
    rcases h with h | h | h
    · exact .inr ⟨_, by omega, h⟩
    · exact .inr ⟨_, by omega, h⟩
    · exact .inl h
  | case3 a b =>
    have ha := a.toNat_lt
    have hb := b.toNat_lt
    simp only [encode, List.mem_cons, List.not_mem_nil, or_false] at h
    rcases h with h | h | h | h
    · exact .inr ⟨_, by omega, h⟩
    · exact .inr ⟨_, by omega, h⟩
    · exact .inr ⟨_, by omega, h⟩
    · exact .inl h
  | case4 a b c' rest ih =>
    have ha := a.toNat_lt
    have hb := b.toNat_lt
    have hc := c'.toNat_lt
    simp only [encode, List.mem_cons] at h
    rcases h with h | h | h | h | h
    · exact .inr ⟨_, by omega, h⟩
    · exact .inr ⟨_, by omega, h⟩
    · exact .inr ⟨_, by omega, h⟩
    · exact .inr ⟨_, by omega, h⟩
    · exact ih h

/-- Bytes that do not fill their last group leave padding. -/
theorem pad_mem (h : bytes.length % 3 ≠ 0) : '=' ∈ encode bytes := by
  induction bytes using encode.induct with
  | case1 => exact (h rfl).elim
  | case2 a => simp [encode]
  | case3 a b => simp [encode]
  | case4 a b c rest ih =>
    have hrest : rest.length % 3 ≠ 0 := by
      simp only [List.length_cons] at h
      omega
    simp [encode, ih hrest]

end base64
