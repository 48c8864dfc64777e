/-
UTF-16 in little-endian byte order, as Python's codec `utf_16_le` has it.

* `units`: a character is one code unit, or a pair of surrogates;
* `ofUnits`: the strict reading, which refuses a surrogate without its partner;
* `encode`, `decode`: the same on bytes, the low byte of a unit first;
* `decode_encode`: what is encoded is decoded again.
-/
import Mathlib.Tactic

namespace Utf16

/-! ### Code units -/

/-- The code units of a character. -/
def units (c : Char) : List ℕ :=
  if c.toNat < 0x10000 then [c.toNat]
  else [0xD800 + (c.toNat - 0x10000) / 0x400, 0xDC00 + (c.toNat - 0x10000) % 0x400]

/-- A code unit that stands for itself. -/
def IsScalar (n : ℕ) : Prop := n < 0xD800 ∨ 0xE000 ≤ n

/-- A high surrogate and a low one. -/
def IsPair (m n : ℕ) : Prop := (0xD800 ≤ m ∧ m < 0xDC00) ∧ 0xDC00 ≤ n ∧ n < 0xE000

instance (n : ℕ) : Decidable (IsScalar n) := inferInstanceAs (Decidable (_ ∨ _))

instance (m n : ℕ) : Decidable (IsPair m n) := inferInstanceAs (Decidable (_ ∧ _))

/-- The characters of code units. -/
def ofUnits : List ℕ → Option (List Char)
  | [] => some []
  | [n] => if IsScalar n then some [Char.ofNat n] else none
  | m :: n :: ns =>
      if IsScalar m then (ofUnits (n :: ns)).map (Char.ofNat m :: ·)
      else if IsPair m n then
        (ofUnits ns).map (Char.ofNat (0x10000 + (m - 0xD800) * 0x400 + (n - 0xDC00)) :: ·)
      else none

lemma ofUnits_scalar {n : ℕ} (hn : IsScalar n) (ns : List ℕ) :
    ofUnits (n :: ns) = (ofUnits ns).map (Char.ofNat n :: ·) := by
  cases ns with
  | nil => exact if_pos hn
  | cons n' ns => rw [ofUnits, if_pos hn]

lemma ofUnits_pair {m n : ℕ} (h : IsPair m n) (ns : List ℕ) :
    ofUnits (m :: n :: ns) =
      (ofUnits ns).map (Char.ofNat (0x10000 + (m - 0xD800) * 0x400 + (n - 0xDC00)) :: ·) := by
  have hm : ¬ IsScalar m := by
    obtain ⟨hm, -⟩ := h
    rintro (hlow | hhigh) <;> omega
  rw [ofUnits, if_neg hm, if_pos h]

/-- A character is read from its units. -/
lemma ofUnits_units (c : Char) (ns : List ℕ) :
    ofUnits (units c ++ ns) = (ofUnits ns).map (c :: ·) := by
  have hvalid : c.toNat < 0xD800 ∨ 0xDFFF < c.toNat ∧ c.toNat < 0x110000 := c.valid
  rw [units]
  split_ifs with hsmall
  · have hscalar : IsScalar c.toNat := hvalid.imp_right fun h => h.1
    rw [List.singleton_append, ofUnits_scalar hscalar, Char.ofNat_toNat]
  · have hpair : IsPair (0xD800 + (c.toNat - 0x10000) / 0x400)
        (0xDC00 + (c.toNat - 0x10000) % 0x400) := by
      constructor <;> omega
    have hcode : 0x10000 + (0xD800 + (c.toNat - 0x10000) / 0x400 - 0xD800) * 0x400 +
        (0xDC00 + (c.toNat - 0x10000) % 0x400 - 0xDC00) = c.toNat := by omega
    rw [List.cons_append, List.singleton_append, ofUnits_pair hpair, hcode, Char.ofNat_toNat]

lemma ofUnits_flatMap_units (s : List Char) : ofUnits (s.flatMap units) = some s := by
  induction s with
  | nil => rfl
  | cons c s ih => rw [List.flatMap_cons, ofUnits_units, ih, Option.map_some]

/-- A unit fits two bytes. -/
lemma units_lt {c : Char} {n : ℕ} (hn : n ∈ units c) : n < 0x10000 := by
  have hvalid : c.toNat < 0xD800 ∨ 0xDFFF < c.toNat ∧ c.toNat < 0x110000 := c.valid
  rw [units] at hn
  split_ifs at hn with hsmall
  · rwa [List.mem_singleton.mp hn]
  · simp only [List.mem_cons, List.not_mem_nil, or_false] at hn
    omega

/-! ### Bytes -/

/-- A code unit, low byte first. -/
def unitBytes (n : ℕ) : List UInt8 := [UInt8.ofNat (n % 256), UInt8.ofNat (n / 256)]

/-- The code units of bytes. -/
def unitsOf : List UInt8 → Option (List ℕ)
  | [] => some []
  | [_] => none
  | a :: b :: bytes => (unitsOf bytes).map fun ns => (a.toNat + 256 * b.toNat) :: ns

/-- `str.encode('utf_16_le')`. -/
def encode (s : List Char) : List UInt8 := (s.flatMap units).flatMap unitBytes

/-- `bytes.decode('utf_16_le')`. -/
def decode (bytes : List UInt8) : Option (List Char) := (unitsOf bytes).bind ofUnits

lemma unitsOf_flatMap_unitBytes {ns : List ℕ} (h : ∀ n ∈ ns, n < 0x10000) :
    unitsOf (ns.flatMap unitBytes) = some ns := by
  induction ns with
  | nil => rfl
  | cons n ns ih =>
      have hn : n < 0x10000 := h n List.mem_cons_self
      have hvalue : (UInt8.ofNat (n % 256)).toNat + 256 * (UInt8.ofNat (n / 256)).toNat = n := by
        rw [UInt8.toNat_ofNat', UInt8.toNat_ofNat']
        omega
      have hbytes : (n :: ns).flatMap unitBytes =
          UInt8.ofNat (n % 256) :: UInt8.ofNat (n / 256) :: ns.flatMap unitBytes := rfl
      rw [hbytes, unitsOf, hvalue, ih fun n' hn' => h n' (List.mem_cons_of_mem _ hn'),
        Option.map_some]

/-- Every text is decoded from its encoding. -/
theorem decode_encode (s : List Char) : decode (encode s) = some s := by
  have hlt : ∀ n ∈ s.flatMap units, n < 0x10000 := by
    intro n hn
    obtain ⟨c, -, hc⟩ := List.mem_flatMap.mp hn
    exact units_lt hc
  rw [decode, encode, unitsOf_flatMap_unitBytes hlt, Option.bind_some, ofUnits_flatMap_units]

/-- A character outside the basic plane, and half of it. -/
example : encode [Char.ofNat 0x1F511] = [0x3D, 0xD8, 0x11, 0xDD] ∧
    decode [0x3D, 0xD8, 0x61, 0x00] = none := by decide

end Utf16
