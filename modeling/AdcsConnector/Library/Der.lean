/-
The distinguished encoding rules of ASN.1, as codecs that read back what they
write.

* `Contents`, `Codec`: the octets inside an element, and the octets of a value
  that others may follow; both carry the law of their round trip;
* `Element.codec`: a tag, the length and the contents;
* `Contents.nil`, `Contents.cons`, `Contents.optional`: the fields of a
  sequence; `Contents.sequenceOf`, `Contents.setOf`: equal ones, in their order
  and in the order of their octets;
* `Contents.bool`, `Contents.int`, `Contents.oid`, `Contents.bmp` and others:
  the primitive types.
-/
import Mathlib.Data.Multiset.Sort
import Mathlib.Data.Nat.Digits.Defs
import Mathlib.Data.List.Lex
import Mathlib.Tactic
import AdcsConnector.Library.Digits

namespace Der

variable {α β : Type}

/-! ### Numbers -/

/-- The octets of a number, the highest first. -/
def octetsOf (n : ℕ) : List UInt8 := ((Nat.digits 256 n).map UInt8.ofNat).reverse

/-- The number of some octets. -/
def valueOf (octets : List UInt8) : ℕ := octets.foldl (fun v b => 256 * v + b.toNat) 0

lemma valueOf_append_singleton (octets : List UInt8) (b : UInt8) :
    valueOf (octets ++ [b]) = 256 * valueOf octets + b.toNat := by
  rw [valueOf, valueOf, List.foldl_append, List.foldl_cons, List.foldl_nil]

lemma valueOf_zero_cons (octets : List UInt8) : valueOf (0 :: octets) = valueOf octets := rfl

lemma valueOf_reverse_map_ofNat {digits : List ℕ} (h : ∀ d ∈ digits, d < 256) :
    valueOf (digits.map UInt8.ofNat).reverse = Nat.ofDigits 256 digits := by
  induction digits with
  | nil => rfl
  | cons d digits ih =>
      have hd : (UInt8.ofNat d).toNat = d := UInt8.toNat_ofNat_of_lt' (h d List.mem_cons_self)
      rw [List.map_cons, List.reverse_cons, valueOf_append_singleton,
        ih fun d' hd' => h d' (List.mem_cons_of_mem d hd'), hd, Nat.ofDigits_cons]
      omega

lemma valueOf_octetsOf (n : ℕ) : valueOf (octetsOf n) = n := by
  rw [octetsOf, valueOf_reverse_map_ofNat fun d hd => Nat.digits_lt_base (by omega) hd,
    Nat.ofDigits_digits]

/-! ### Lengths -/

/-- The length octets: one below 128, else the octets of the length after their
count. A first octet of 255, which is reserved, here stands for 127 more octets
of length, so that no length is left out. -/
def lengthOctets (n : ℕ) : List UInt8 :=
  if n < 128 then [UInt8.ofNat n]
  else List.replicate ((octetsOf n).length / 127) 255 ++
    UInt8.ofNat (128 + (octetsOf n).length % 127) :: octetsOf n

/-- The number of length octets that follow. -/
def readCount : List UInt8 → Option (ℕ × List UInt8)
  | [] => none
  | c :: rest =>
      if c = 255 then (readCount rest).map fun p => (127 + p.1, p.2)
      else some (c.toNat - 128, rest)

/-- Reads length octets. -/
def readLength : List UInt8 → Option (ℕ × List UInt8)
  | [] => none
  | c :: rest =>
      if c < 128 then some (c.toNat, rest)
      else do
        let (k, rest) ← readCount (c :: rest)
        if rest.length < k then none else some (valueOf (rest.take k), rest.drop k)

lemma readCount_replicate (k : ℕ) {m : ℕ} (hm : m < 127) (rest : List UInt8) :
    readCount (List.replicate k 255 ++ UInt8.ofNat (128 + m) :: rest) =
      some (127 * k + m, rest) := by
  have hnat : (UInt8.ofNat (128 + m)).toNat = 128 + m :=
    UInt8.toNat_ofNat_of_lt' (show 128 + m < 256 by omega)
  induction k with
  | zero =>
      have hne : UInt8.ofNat (128 + m) ≠ 255 := by
        intro h
        rw [h] at hnat
        simp at hnat
        omega
      rw [List.replicate_zero, List.nil_append, readCount, if_neg hne, hnat]
      simp
  | succ k ih =>
      rw [List.replicate_succ, List.cons_append, readCount, if_pos rfl, ih, Option.map_some,
        Option.some_inj, Prod.mk.injEq]
      exact ⟨by ring, rfl⟩

lemma readLength_of_not_lt {c : UInt8} (hc : ¬ c < 128) {k : ℕ} {cs octets rest : List UInt8}
    (h : readCount (c :: cs) = some (k, octets ++ rest)) (hk : octets.length = k) :
    readLength (c :: cs) = some (valueOf octets, rest) := by
  rw [readLength, if_neg hc, h]
  simp [hk]

/-- A length is read back. -/
lemma readLength_lengthOctets (n : ℕ) (rest : List UInt8) :
    readLength (lengthOctets n ++ rest) = some (n, rest) := by
  rw [lengthOctets]
  split_ifs with hn
  · have hsize : n < UInt8.size := show n < 256 by omega
    have hlt : UInt8.ofNat n < 128 := (UInt8.ofNat_lt_iff hsize).mpr hn
    rw [List.singleton_append, readLength, if_pos hlt, UInt8.toNat_ofNat_of_lt' hsize]
  · have hmod := Nat.mod_lt (octetsOf n).length (show 0 < 127 by omega)
    have hcount := readCount_replicate ((octetsOf n).length / 127) hmod (octetsOf n ++ rest)
    rw [Nat.div_add_mod] at hcount
    conv_rhs => rw [← valueOf_octetsOf n]
    rw [List.append_assoc, List.cons_append]
    rcases hk : (octetsOf n).length / 127 with _ | k
    · rw [hk, List.replicate_zero, List.nil_append] at hcount
      rw [List.replicate_zero, List.nil_append]
      refine readLength_of_not_lt ?_ hcount rfl
      rw [UInt8.ofNat_lt_iff (show _ < 256 by omega)]
      simp
    · rw [hk, List.replicate_succ, List.cons_append] at hcount
      rw [List.replicate_succ, List.cons_append]
      exact readLength_of_not_lt (by decide) hcount rfl

/-! ### Codecs -/

/-- The octets of a value that nothing follows. -/
structure Contents (α : Type) where
  encode : α → List UInt8
  decode : List UInt8 → Option α
  decode_encode : ∀ a, decode (encode a) = some a

/-- The octets of a value that others may follow. -/
structure Codec (α : Type) where
  write : α → List UInt8
  read : List UInt8 → Option (α × List UInt8)
  write_ne_nil : ∀ a, write a ≠ []
  read_write : ∀ a rest, read (write a ++ rest) = some (a, rest)

namespace Codec

variable (c : Codec α)

lemma write_injective : Function.Injective c.write := by
  intro a b h
  have ha := c.read_write a []
  rw [h, c.read_write b []] at ha
  exact (Prod.mk.inj (Option.some.inj ha)).1.symm

/-- The values, in the order of their octets. -/
abbrev linearOrder : LinearOrder α :=
  LinearOrder.lift' (fun a => (c.write a).map UInt8.toNat)
    ((List.map_injective_iff.mpr fun _ _ => UInt8.toNat_inj.mp).comp c.write_injective)

/-- The values of a set, in the order of their octets. -/
def sort (s : Multiset α) : List α :=
  letI := c.linearOrder
  s.sort (· ≤ ·)

lemma coe_sort (s : Multiset α) : (c.sort s : Multiset α) = s :=
  letI := c.linearOrder
  s.sort_eq (· ≤ ·)

/-- Reads values to the end; a value takes an octet at least, so that as many
turns as there are octets are enough. -/
def readAll : ℕ → List UInt8 → Option (List α)
  | _, [] => some []
  | 0, _ :: _ => none
  | fuel + 1, b :: bs => do
      let (a, rest) ← c.read (b :: bs)
      let l ← readAll fuel rest
      return a :: l

lemma readAll_flatMap_write {l : List α} {fuel : ℕ} (h : (l.flatMap c.write).length ≤ fuel) :
    c.readAll fuel (l.flatMap c.write) = some l := by
  induction l generalizing fuel with
  | nil => cases fuel <;> rfl
  | cons a l ih =>
      rw [List.flatMap_cons, List.length_append] at h
      have hpos := List.length_pos_of_ne_nil (c.write_ne_nil a)
      obtain ⟨fuel, rfl⟩ : ∃ k, fuel = k + 1 := ⟨fuel - 1, by omega⟩
      obtain ⟨b, bs, hb⟩ := List.exists_cons_of_ne_nil (c.write_ne_nil a)
      have hread := c.read_write a (l.flatMap c.write)
      rw [hb, List.cons_append] at hread
      rw [List.flatMap_cons, hb, List.cons_append, readAll, hread]
      simp only [Option.bind_eq_bind, Option.bind_some]
      rw [ih (by omega)]
      rfl

end Codec

/-! ### Elements -/

/-- An element of any tag that takes one octet, with its contents as they are. -/
structure Any where
  tag : UInt8
  contents : List UInt8

/-- The octets of an element. -/
def Any.write (a : Any) : List UInt8 :=
  a.tag :: (lengthOctets a.contents.length ++ a.contents)

/-- Reads one element. -/
def Any.read : List UInt8 → Option (Any × List UInt8)
  | [] => none
  | tag :: rest => do
      let (n, rest) ← readLength rest
      if rest.length < n then none else some (⟨tag, rest.take n⟩, rest.drop n)

lemma Any.read_write (a : Any) (rest : List UInt8) :
    Any.read (a.write ++ rest) = some (a, rest) := by
  rw [Any.write, List.cons_append, List.append_assoc, Any.read, readLength_lengthOctets]
  simp

/-- Elements of any tag. -/
def Codec.any : Codec Any where
  write := Any.write
  read := Any.read
  write_ne_nil _ := List.cons_ne_nil _ _
  read_write := Any.read_write

/-- Elements of one tag. -/
structure Element (α : Type) where
  tag : UInt8
  contents : Contents α

namespace Element

variable (e : Element α)

/-- The octets of an element. -/
def write (a : α) : List UInt8 := Any.write ⟨e.tag, e.contents.encode a⟩

/-- Reads an element, if it has the tag. -/
def read (octets : List UInt8) : Option (α × List UInt8) := do
  let (a, rest) ← Any.read octets
  if a.tag = e.tag then (e.contents.decode a.contents).map (·, rest) else none

lemma read_write (a : α) (rest : List UInt8) : e.read (e.write a ++ rest) = some (a, rest) := by
  simp [read, write, Any.read_write, e.contents.decode_encode]

/-- An element does not read another tag. -/
lemma read_of_head?_ne {octets : List UInt8} (h : octets.head? ≠ some e.tag) :
    e.read octets = none := by
  cases octets with
  | nil => rfl
  | cons tag octets =>
      have hne : tag ≠ e.tag := fun heq => h (by rw [List.head?_cons, heq])
      rcases hread : Any.read (tag :: octets) with _ | ⟨a, rest⟩
      · simp [read, hread]
      · have htag : a.tag = tag := by
          simp only [Any.read, Option.bind_eq_bind, Option.bind_eq_some_iff] at hread
          obtain ⟨_, _, hread⟩ := hread
          split_ifs at hread
          cases hread
          rfl
        simp [read, hread, htag, hne]

/-- The elements of one tag. -/
def codec : Codec α where
  write := e.write
  read := e.read
  write_ne_nil _ := List.cons_ne_nil _ _
  read_write := e.read_write

end Element

/-! ### The fields of a sequence -/

namespace Contents

/-- Values that are written as others. -/
def ofPartial (c : Contents α) (g : β → α) (f : α → Option β) (h : ∀ b, f (g b) = some b) :
    Contents β where
  encode b := c.encode (g b)
  decode octets := (c.decode octets).bind f
  decode_encode b := by rw [c.decode_encode, Option.bind_some, h]

/-- Values that stand for others. -/
def iso (c : Contents α) (g : β → α) (f : α → β) (h : ∀ b, f (g b) = b) : Contents β :=
  c.ofPartial g (fun a => some (f a)) fun b => congrArg some (h b)

/-- No octets. -/
def nil : Contents Unit where
  encode _ := []
  decode octets := if octets = [] then some () else none
  decode_encode _ := rfl

/-- A field before others. -/
def cons (c : Codec α) (fields : Contents β) : Contents (α × β) where
  encode p := c.write p.1 ++ fields.encode p.2
  decode octets := do
    let (a, rest) ← c.read octets
    return (a, ← fields.decode rest)
  decode_encode p := by simp [c.read_write, fields.decode_encode]

/-- A single field. -/
def single (c : Codec α) : Contents α := (cons c nil).iso (·, ()) Prod.fst fun _ => rfl

/-- No value starts with the tag. -/
def Avoids (tag : UInt8) (c : Contents α) : Prop := ∀ a, (c.encode a).head? ≠ some tag

lemma avoids_nil (tag : UInt8) : Avoids tag nil := by
  intro a h
  cases h

lemma avoids_cons {tag : UInt8} {e : Element α} (h : e.tag ≠ tag) (fields : Contents β) :
    Avoids tag (cons e.codec fields) := fun _ heq => h (Option.some.inj heq)

/-- An element that may be left out before other fields. -/
def optional (e : Element α) (fields : Contents β) (h : Avoids e.tag fields) :
    Contents (Option α × β) where
  encode p := (p.1.map e.write).getD [] ++ fields.encode p.2
  decode octets :=
    match e.read octets with
    | some (a, rest) => (fields.decode rest).map (some a, ·)
    | none => (fields.decode octets).map (none, ·)
  decode_encode p := by
    rcases p with ⟨_ | a, b⟩
    · simp [e.read_of_head?_ne (h b), fields.decode_encode]
    · simp [e.read_write, fields.decode_encode]

/-- Any number of values. -/
def sequenceOf (c : Codec α) : Contents (List α) where
  encode l := l.flatMap c.write
  decode octets := c.readAll octets.length octets
  decode_encode _ := c.readAll_flatMap_write le_rfl

/-- Any number of values, in the order of their octets. -/
def setOf (c : Codec α) : Contents (Multiset α) :=
  (sequenceOf c).iso c.sort (↑·) c.coe_sort

/-! ### Primitive types -/

/-- `OCTET STRING`. -/
def octets : Contents (List UInt8) where
  encode s := s
  decode s := some s
  decode_encode _ := rfl

/-- `BIT STRING` of whole octets. -/
def bits : Contents (List UInt8) where
  encode s := 0 :: s
  decode
    | 0 :: s => some s
    | _ => none
  decode_encode _ := rfl

/-- `BOOLEAN`. -/
def bool : Contents Bool where
  encode b := [if b then 255 else 0]
  decode
    | [b] => some (b != 0)
    | _ => none
  decode_encode b := by cases b <;> rfl

/-- The octets of a natural number, with the sign bit clear. -/
def unsigned (n : ℕ) : List UInt8 :=
  match octetsOf n with
  | [] => [0]
  | b :: bs => if b < 128 then b :: bs else 0 :: b :: bs

/-- The sign bit is clear, and the number is read back. -/
lemma exists_unsigned (n : ℕ) :
    ∃ b bs, unsigned n = b :: bs ∧ b < 128 ∧ valueOf (b :: bs) = n := by
  have hvalue := valueOf_octetsOf n
  rw [unsigned]
  rcases hn : octetsOf n with _ | ⟨b, bs⟩ <;> rw [hn] at hvalue
  · exact ⟨0, [], rfl, by decide, hvalue⟩
  · by_cases hb : b < 128
    · exact ⟨b, bs, if_pos hb, hb, hvalue⟩
    · exact ⟨0, b :: bs, if_neg hb, by decide, (valueOf_zero_cons _).trans hvalue⟩

lemma not_complement_lt {b : UInt8} (h : b < 128) : ¬ ~~~b < 128 := by
  rw [UInt8.lt_iff_toNat_lt] at h ⊢
  rw [UInt8.toNat_not]
  have h128 : (128 : UInt8).toNat = 128 := rfl
  have hsize : UInt8.size = 256 := rfl
  omega

lemma map_complement (s : List UInt8) : (s.map (~~~·)).map (~~~·) = s := by
  rw [List.map_map]
  exact (List.map_congr_left fun b _ => UInt8.not_not).trans (List.map_id s)

/-- `INTEGER`, in two's complement: the octets of `-n - 1` are the complement of
those of `n`. -/
def int : Contents ℤ where
  encode
    | .ofNat n => unsigned n
    | .negSucc n => (unsigned n).map (~~~·)
  decode
    | [] => none
    | b :: bs =>
        if b < 128 then some (.ofNat (valueOf (b :: bs)))
        else some (.negSucc (valueOf ((b :: bs).map (~~~·))))
  decode_encode k := by
    cases k with
    | ofNat n =>
        obtain ⟨b, bs, hn, hb, hvalue⟩ := exists_unsigned n
        simp only [hn, if_pos hb, hvalue]
    | negSucc n =>
        obtain ⟨b, bs, hn, hb, hvalue⟩ := exists_unsigned n
        simp only [hn, List.map_cons, if_neg (not_complement_lt hb)]
        rw [← List.map_cons, ← List.map_cons, map_complement, hvalue]

end Contents

/-! ### Object identifiers -/

/-- An object identifier: the first arc is at most 2, and the second one is below
40 under 0 and 1. -/
structure Oid where
  first : ℕ
  second : ℕ
  rest : List ℕ
  first_le : first ≤ 2
  second_lt : first < 2 → second < 40
  deriving DecidableEq

namespace Oid

/-- The arcs, as decimal numbers between dots. -/
def dotted (o : Oid) : String := ".".intercalate ((o.first :: o.second :: o.rest).map toString)

/-- A dotted text holds digits and dots only. -/
lemma not_mem_dotted {c : Char} (hc : ¬ c.isDigit) (hdot : c ≠ '.') (o : Oid) :
    c ∉ o.dotted.toList := by
  rw [dotted]
  generalize o.first :: o.second :: o.rest = arcs
  induction arcs with
  | nil => simp
  | cons n arcs ih =>
      have hn := Digits.not_mem_toString_nat hc n
      cases arcs with
      | nil => simpa using hn
      | cons m arcs =>
          rw [List.map_cons, List.map_cons, String.intercalate_cons_cons, String.toList_append,
            String.toList_append, List.mem_append, List.mem_append, ← List.map_cons]
          rintro ((h | h) | h)
          · exact hn h
          · exact hdot (List.mem_singleton.mp h)
          · exact ih h

/-- The numbers that are encoded: the first two arcs are one of them. -/
def subidentifiers (o : Oid) : List ℕ := (40 * o.first + o.second) :: o.rest

/-- The identifier of some encoded numbers. -/
def ofSubidentifiers : List ℕ → Option Oid
  | [] => none
  | n :: rest =>
      if h : n < 40 then some ⟨0, n, rest, by omega, fun _ => h⟩
      else if h' : n < 80 then some ⟨1, n - 40, rest, by omega, fun _ => by omega⟩
      else some ⟨2, n - 80, rest, by omega, by omega⟩

lemma ofSubidentifiers_subidentifiers (o : Oid) :
    ofSubidentifiers o.subidentifiers = some o := by
  obtain ⟨first, second, rest, hfirst, hsecond⟩ := o
  rw [subidentifiers, ofSubidentifiers]
  interval_cases first
  · have h := hsecond (by omega)
    simp [h]
  · have h := hsecond (by omega)
    simp [show 40 + second < 80 by omega]
  · simp [show ¬ 80 + second < 40 by omega]

end Oid

/-- An encoded number of an identifier, by octets of seven bits with the high bit
set on all but the last. -/
def arcOctets (n : ℕ) : List UInt8 :=
  ((Nat.digits 128 (n / 128)).map fun d => UInt8.ofNat (128 + d)).reverse ++
    [UInt8.ofNat (n % 128)]

/-- Reads encoded numbers; `n` is what is read of the one at hand. -/
def readArcs (n : ℕ) : List UInt8 → Option (List ℕ)
  | [] => if n = 0 then some [] else none
  | b :: bs =>
      if b < 128 then (readArcs 0 bs).map ((128 * n + b.toNat) :: ·)
      else readArcs (128 * n + (b.toNat - 128)) bs

lemma readArcs_reverse {digits : List ℕ} (h : ∀ d ∈ digits, d < 128) (rest : List UInt8) :
    readArcs 0 ((digits.map fun d => UInt8.ofNat (128 + d)).reverse ++ rest) =
      readArcs (Nat.ofDigits 128 digits) rest := by
  induction digits generalizing rest with
  | nil => rfl
  | cons d digits ih =>
      have hd := h d List.mem_cons_self
      have hsize : 128 + d < UInt8.size := show 128 + d < 256 by omega
      have hnot : ¬ UInt8.ofNat (128 + d) < 128 := by
        rw [UInt8.ofNat_lt_iff hsize]
        simp
      have hvalue : 128 * Nat.ofDigits 128 digits + (128 + d - 128) =
          Nat.ofDigits 128 (d :: digits) := by
        rw [Nat.ofDigits_cons]
        omega
      rw [List.map_cons, List.reverse_cons, List.append_assoc, List.singleton_append,
        ih fun d' hd' => h d' (List.mem_cons_of_mem d hd'), readArcs, if_neg hnot,
        UInt8.toNat_ofNat_of_lt' hsize, hvalue]

lemma readArcs_arcOctets (n : ℕ) (rest : List UInt8) :
    readArcs 0 (arcOctets n ++ rest) = (readArcs 0 rest).map (n :: ·) := by
  have hlt := Nat.mod_lt n (show 0 < 128 by omega)
  have hsize : n % 128 < UInt8.size := show n % 128 < 256 by omega
  have hb : UInt8.ofNat (n % 128) < 128 := (UInt8.ofNat_lt_iff hsize).mpr hlt
  rw [arcOctets, List.append_assoc,
    readArcs_reverse (fun d hd => Nat.digits_lt_base (by omega) hd), Nat.ofDigits_digits,
    List.singleton_append, readArcs, if_pos hb, UInt8.toNat_ofNat_of_lt' hsize, Nat.div_add_mod]

lemma readArcs_flatMap (l : List ℕ) : readArcs 0 (l.flatMap arcOctets) = some l := by
  induction l with
  | nil => rfl
  | cons n l ih => rw [List.flatMap_cons, readArcs_arcOctets, ih, Option.map_some]

/-- `OBJECT IDENTIFIER`. -/
def Contents.oid : Contents Oid :=
  ofPartial ⟨fun l => l.flatMap arcOctets, readArcs 0, readArcs_flatMap⟩ Oid.subidentifiers
    Oid.ofSubidentifiers Oid.ofSubidentifiers_subidentifiers

/-! ### Texts -/

/-- The two octets of a code unit. -/
def unitOctets (u : ℕ) : List UInt8 := [UInt8.ofNat (u / 256), UInt8.ofNat (u % 256)]

/-- Reads code units. -/
def readUnits : List UInt8 → Option (List ℕ)
  | [] => some []
  | [_] => none
  | a :: b :: rest => (readUnits rest).map ((256 * a.toNat + b.toNat) :: ·)

/-- The code units of a character in UTF-16. -/
def codeUnits (c : Char) : List ℕ :=
  if c.toNat < 0x10000 then [c.toNat]
  else [0xD800 + (c.toNat - 0x10000) / 0x400, 0xDC00 + (c.toNat - 0x10000) % 0x400]

/-- The characters of some code units; a surrogate stands with its partner only. -/
def readChars : List ℕ → Option (List Char)
  | [] => some []
  | u :: us =>
      if u < 0xD800 ∨ 0xE000 ≤ u then (readChars us).map (Char.ofNat u :: ·)
      else
        match us with
        | [] => none
        | v :: us =>
            if u < 0xDC00 ∧ 0xDC00 ≤ v ∧ v < 0xE000 then
              (readChars us).map
                (Char.ofNat (0x10000 + 0x400 * (u - 0xD800) + (v - 0xDC00)) :: ·)
            else none

lemma readUnits_flatMap {us : List ℕ} (h : ∀ u ∈ us, u < 0x10000) :
    readUnits (us.flatMap unitOctets) = some us := by
  induction us with
  | nil => rfl
  | cons u us ih =>
      have hu := h u List.mem_cons_self
      have hvalue : 256 * (UInt8.ofNat (u / 256)).toNat + (UInt8.ofNat (u % 256)).toNat = u := by
        rw [UInt8.toNat_ofNat', UInt8.toNat_ofNat']
        omega
      rw [List.flatMap_cons, unitOctets, List.cons_append, List.cons_append, List.nil_append,
        readUnits, ih fun v hv => h v (List.mem_cons_of_mem u hv), hvalue, Option.map_some]

lemma toNat_lt_of_char (c : Char) : c.toNat < 0x110000 := by
  rcases c.valid with h | h
  · exact lt_trans h (by decide)
  · exact h.2

lemma lt_of_mem_codeUnits {c : Char} {u : ℕ} (h : u ∈ codeUnits c) : u < 0x10000 := by
  have hc := toNat_lt_of_char c
  rw [codeUnits] at h
  split_ifs at h with hsmall
  · rw [List.mem_singleton.mp h]
    exact hsmall
  · rcases List.mem_cons.mp h with rfl | h
    · omega
    · rw [List.mem_singleton.mp h]
      omega

lemma readChars_codeUnits (c : Char) (us : List ℕ) :
    readChars (codeUnits c ++ us) = (readChars us).map (c :: ·) := by
  rw [codeUnits]
  split_ifs with hsmall
  · have hrange : c.toNat < 0xD800 ∨ 0xE000 ≤ c.toNat := by
      rcases c.valid with h | h
      · exact Or.inl h
      · exact Or.inr h.1
    rw [List.singleton_append, readChars.eq_def]
    simp only
    rw [if_pos hrange, Char.ofNat_toNat]
  · have hc := toNat_lt_of_char c
    have hvalue : 0x10000 + 0x400 * (0xD800 + (c.toNat - 0x10000) / 0x400 - 0xD800) +
        (0xDC00 + (c.toNat - 0x10000) % 0x400 - 0xDC00) = c.toNat := by omega
    rw [List.cons_append, List.singleton_append, readChars, if_neg (by omega), if_pos (by omega),
      hvalue, Char.ofNat_toNat]

lemma readChars_flatMap (l : List Char) : readChars (l.flatMap codeUnits) = some l := by
  induction l with
  | nil => rfl
  | cons c l ih => rw [List.flatMap_cons, readChars_codeUnits, ih, Option.map_some]

/-- `BMPString`, whose characters are written in UTF-16. -/
def Contents.bmp : Contents String where
  encode s := (s.toList.flatMap codeUnits).flatMap unitOctets
  decode octets := ((readUnits octets).bind readChars).map String.ofList
  decode_encode s := by
    have hunits : ∀ u ∈ s.toList.flatMap codeUnits, u < 0x10000 := by
      intro u hu
      obtain ⟨c, -, hu⟩ := List.mem_flatMap.mp hu
      exact lt_of_mem_codeUnits hu
    rw [readUnits_flatMap hunits, Option.bind_some, readChars_flatMap, Option.map_some,
      String.ofList_toList]

/-! ### Tags -/

namespace Element

def boolean : Element Bool := ⟨0x01, Contents.bool⟩

def integer : Element ℤ := ⟨0x02, Contents.int⟩

def bitString : Element (List UInt8) := ⟨0x03, Contents.bits⟩

def octetString : Element (List UInt8) := ⟨0x04, Contents.octets⟩

def null : Element Unit := ⟨0x05, Contents.nil⟩

def oid : Element Oid := ⟨0x06, Contents.oid⟩

def bmpString : Element String := ⟨0x1E, Contents.bmp⟩

/-- `SEQUENCE`, with its fields. -/
def sequence (fields : Contents α) : Element α := ⟨0x30, fields⟩

/-- `SET`, with its values. -/
def set (values : Contents α) : Element α := ⟨0x31, values⟩

/-- The constructed context-specific tag of a number below 31. -/
def context (n : ℕ) (contents : Contents α) : Element α := ⟨UInt8.ofNat (0xA0 + n), contents⟩

end Element

end Der
