/-
Digits of numbers in a base, as characters.

* `exists_digit_of_mem`: the characters of a number are digits of the base;
* `not_mem_toString_nat`, `not_mem_toString_int`: a decimal number has no
  character besides digits and a sign;
* `hexValue`: the number a hexadecimal text stands for;
* `octets`: the hexadecimal text of a number with two digits for every octet,
  which is the shortest one when that has evenly many digits
  (`octets_eq_toDigits_iff`);
* `int`: Python's `int` of a text, which holds no other characters than the ones
  `int` reads (`not_mem_of_int`).
-/
import Mathlib.Tactic
import AdcsConnector.Library.Text

namespace Digits

variable {b n : ℕ}

/-- The characters of a number are digits of the base. -/
lemma exists_digit_of_mem (hb : 1 < b) {c : Char} (h : c ∈ Nat.toDigits b n) :
    ∃ d < b, c = Nat.digitChar d := by
  induction n using Nat.base_induction b hb with
  | single m hm =>
      rw [Nat.toDigits_of_lt_base hm, List.mem_singleton] at h
      exact ⟨m, hm, h⟩
  | digit m k hk hm ih =>
      rw [← Nat.toDigits_append_toDigits hb hm hk, List.mem_append,
        Nat.toDigits_of_lt_base hk, List.mem_singleton] at h
      rcases h with h | h
      · exact ih h
      · exact ⟨k, hk, h⟩

/-- A character that is no digit does not occur in a decimal number. -/
lemma not_mem_toString_nat {c : Char} (hc : ¬ c.isDigit) (n : ℕ) : c ∉ (toString n).toList := by
  intro h
  rw [Nat.toString_eq_repr, Nat.toList_repr] at h
  exact hc (Nat.isDigit_of_mem_toDigits (by omega) le_rfl h)

lemma not_mem_toString_int {c : Char} (hc : ¬ c.isDigit) (hsign : c ≠ '-') (n : ℤ) :
    c ∉ (toString n).toList := by
  intro h
  cases n with
  | ofNat n => exact not_mem_toString_nat hc n h
  | negSucc n =>
      have heq : toString (Int.negSucc n) = "-" ++ toString (n + 1) := rfl
      rw [heq, String.toList_append, List.mem_append] at h
      rcases h with h | h
      · exact hsign (List.mem_singleton.mp h)
      · exact not_mem_toString_nat hc (n + 1) h

/-- The digits up to base 16 are digits and small letters. -/
lemma digitChar_ne {d : ℕ} {c : Char} (hc : ¬ c.isDigit ∧ ¬ c.isLower) (hd : d < 16) :
    Nat.digitChar d ≠ c := by
  rintro rfl
  interval_cases d <;> revert hc <;> decide

/-! ### Hexadecimal texts -/

/-- The value of a hexadecimal digit. -/
def hexDigit (c : Char) : ℕ := if c.isDigit then c.toNat - 48 else c.toNat - 87

/-- The number a hexadecimal text stands for. -/
def hexValue (text : List Char) : ℕ := text.foldl (fun v c => 16 * v + hexDigit c) 0

lemma hexDigit_digitChar {d : ℕ} (hd : d < 16) : hexDigit (Nat.digitChar d) = d := by
  interval_cases d <;> decide

lemma hexValue_append_singleton (text : List Char) (c : Char) :
    hexValue (text ++ [c]) = 16 * hexValue text + hexDigit c := by
  rw [hexValue, hexValue, List.foldl_append, List.foldl_cons, List.foldl_nil]

/-- A leading zero does not count. -/
lemma hexValue_zero_cons (text : List Char) : hexValue ('0' :: text) = hexValue text := rfl

lemma hexValue_toDigits (n : ℕ) : hexValue (Nat.toDigits 16 n) = n := by
  induction n using Nat.base_induction 16 (by omega) with
  | single m hm =>
      rw [Nat.toDigits_of_lt_base hm, ← List.nil_append [_], hexValue_append_singleton,
        hexDigit_digitChar hm]
      exact Nat.zero_add m
  | digit m k hk hm ih =>
      rw [← Nat.toDigits_append_toDigits (by omega) hm hk, Nat.toDigits_of_lt_base hk,
        hexValue_append_singleton, ih, hexDigit_digitChar hk]

/-- The hexadecimal text with two digits for every octet. -/
def octets (n : ℕ) : List Char :=
  if Even (Nat.toDigits 16 n).length then Nat.toDigits 16 n else '0' :: Nat.toDigits 16 n

lemma hexValue_octets (n : ℕ) : hexValue (octets n) = n := by
  rw [octets]
  split_ifs
  · exact hexValue_toDigits n
  · rw [hexValue_zero_cons, hexValue_toDigits]

lemma even_length_octets (n : ℕ) : Even (octets n).length := by
  rw [octets]
  split_ifs with heven
  · exact heven
  · rw [List.length_cons]
    exact (Nat.not_even_iff_odd.mp heven).add_one

/-- The text with two digits for every octet is the shortest one when that has
evenly many digits. -/
lemma octets_eq_toDigits_iff {m n : ℕ} :
    octets m = Nat.toDigits 16 n ↔ m = n ∧ Even (Nat.toDigits 16 n).length := by
  constructor
  · intro h
    refine ⟨?_, h ▸ even_length_octets m⟩
    calc m = hexValue (octets m) := (hexValue_octets m).symm
      _ = hexValue (Nat.toDigits 16 n) := by rw [h]
      _ = n := hexValue_toDigits n
  · rintro ⟨rfl, heven⟩
    rw [octets, if_pos heven]

/-! ### `int` of a text -/

/-- The decimal zeros of Unicode 15.1; the other digits follow each. -/
def decimalZeros : List ℕ :=
  [0x30, 0x660, 0x6F0, 0x7C0, 0x966, 0x9E6, 0xA66, 0xAE6, 0xB66, 0xBE6, 0xC66, 0xCE6, 0xD66,
    0xDE6, 0xE50, 0xED0, 0xF20, 0x1040, 0x1090, 0x17E0, 0x1810, 0x1946, 0x19D0, 0x1A80, 0x1A90,
    0x1B50, 0x1BB0, 0x1C40, 0x1C50, 0xA620, 0xA8D0, 0xA900, 0xA9D0, 0xA9F0, 0xAA50, 0xABF0,
    0xFF10, 0x104A0, 0x10D30, 0x11066, 0x110F0, 0x11136, 0x111D0, 0x112F0, 0x11450, 0x114D0,
    0x11650, 0x116C0, 0x11730, 0x118E0, 0x11950, 0x11C50, 0x11D50, 0x11DA0, 0x11F50, 0x16A60,
    0x16AC0, 0x16B50, 0x1D7CE, 0x1D7D8, 0x1D7E2, 0x1D7EC, 0x1D7F6, 0x1E140, 0x1E2F0, 0x1E4F0,
    0x1E950, 0x1FBF0]

/-- `unicodedata.decimal`. -/
def decimalValue (c : Char) : Option ℕ :=
  (decimalZeros.find? fun z => z ≤ c.toNat && c.toNat < z + 10).map (c.toNat - ·)

/-- The whitespace around a number: the separators that `str.isspace` counts are
not stripped. -/
def isIntSpace (c : Char) : Bool := Text.isSpace c && ! (28 ≤ c.toNat && c.toNat ≤ 31)

/-- Digits with single underscores between them; `v` is the number before. -/
def readDecimal (afterDigit : Bool) (v : ℕ) : List Char → Option ℕ
  | [] => if afterDigit then some v else none
  | c :: cs =>
      if c = '_' then if afterDigit then readDecimal false v cs else none
      else (decimalValue c).bind fun k => readDecimal true (10 * v + k) cs

/-- The sign of a number, and what follows it. -/
def sign : List Char → ℤ × List Char
  | [] => (1, [])
  | c :: cs => if c = '-' then (-1, cs) else if c = '+' then (1, cs) else (1, c :: cs)

/-- `int(text)`, with the limit on the number of digits at its default. -/
def int (text : List Char) : Option ℤ :=
  let number := sign ((text.dropWhile isIntSpace).rdropWhile isIntSpace)
  if 4300 < (number.2.filter (· ≠ '_')).length then none
  else (readDecimal false 0 number.2).map fun v : ℕ => number.1 * v

section

variable {c : Char}

lemma not_mem_of_readDecimal (hunderscore : c ≠ '_') (hdigit : decimalValue c = none)
    {afterDigit : Bool} {v n : ℕ} {text : List Char}
    (h : readDecimal afterDigit v text = some n) : c ∉ text := by
  induction text generalizing afterDigit v with
  | nil => exact List.not_mem_nil
  | cons d text ih =>
      rw [readDecimal] at h
      split_ifs at h with hd hafter
      · rw [List.mem_cons, not_or]
        exact ⟨fun heq => hunderscore (heq.trans hd), ih h⟩
      · obtain ⟨k, hk, h⟩ := Option.bind_eq_some_iff.mp h
        rw [List.mem_cons, not_or]
        refine ⟨?_, ih h⟩
        rintro rfl
        rw [hdigit] at hk
        cases hk

lemma mem_sign (hminus : c ≠ '-') (hplus : c ≠ '+') {text : List Char} (h : c ∈ text) :
    c ∈ (sign text).2 := by
  cases text with
  | nil => exact h
  | cons d text =>
      rw [sign]
      split_ifs with hd hd'
      · exact (List.mem_cons.mp h).resolve_left fun heq => hminus (heq.trans hd)
      · exact (List.mem_cons.mp h).resolve_left fun heq => hplus (heq.trans hd')
      · exact h

lemma mem_dropWhile {p : Char → Bool} (hp : ¬ p c) {text : List Char} (h : c ∈ text) :
    c ∈ text.dropWhile p := by
  induction text with
  | nil => exact h
  | cons d text ih =>
      rw [List.dropWhile_cons]
      split_ifs with hd
      · rcases List.mem_cons.mp h with rfl | h
        · exact absurd hd hp
        · exact ih h
      · exact h

/-- A text that `int` reads holds whitespace, a sign, underscores and digits. -/
lemma not_mem_of_int (hspace : ¬ isIntSpace c) (hminus : c ≠ '-') (hplus : c ≠ '+')
    (hunderscore : c ≠ '_') (hdigit : decimalValue c = none) {text : List Char} {n : ℤ}
    (h : int text = some n) : c ∉ text := by
  intro hc
  have hstripped : c ∈ (text.dropWhile isIntSpace).rdropWhile isIntSpace := by
    rw [List.rdropWhile, List.mem_reverse]
    exact mem_dropWhile hspace (List.mem_reverse.mpr (mem_dropWhile hspace hc))
  simp only [int] at h
  split_ifs at h
  obtain ⟨v, hv, -⟩ := Option.map_eq_some_iff.mp h
  exact not_mem_of_readDecimal hunderscore hdigit hv (mem_sign hminus hplus hstripped)

end

/-- Python's documentation of `int` shows such texts. -/
example : int " -12_345\n".toList = some (-12345) ∧ int "010".toList = some 10 ∧
    int "1.5".toList = none := by decide

end Digits
