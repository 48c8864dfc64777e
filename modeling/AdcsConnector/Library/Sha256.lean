/-
SHA-256 over byte strings (`hashlib.sha256`, and PostgreSQL's `sha256`), and
the lower-case hexadecimal form of a digest.

* `sha256`: padding, the message schedule and the compression function, block
  by block, all by structural recursion, so that a digest can be computed;
* `sha256_length`: a digest has 32 bytes, whatever the message;
* `hexdigest_length`, `hexdigest_injective`: the hexadecimal form has two
  digits per byte and determines the bytes, so two digests collide exactly
  when their printed forms do.
-/
import Mathlib.Tactic

namespace Sha256

/-! ### Words -/

/-- Rotation of a word to the right by `n` bits, `0 < n < 32`. -/
def rotr (x n : UInt32) : UInt32 := (x >>> n) ||| (x <<< (32 - n))

/-- The round constants: the fractional parts of the cube roots of the first
64 primes. -/
def roundConstants : List UInt32 :=
  [0x428a2f98, 0x71374491, 0xb5c0fbcf, 0xe9b5dba5, 0x3956c25b, 0x59f111f1, 0x923f82a4, 0xab1c5ed5,
   0xd807aa98, 0x12835b01, 0x243185be, 0x550c7dc3, 0x72be5d74, 0x80deb1fe, 0x9bdc06a7, 0xc19bf174,
   0xe49b69c1, 0xefbe4786, 0x0fc19dc6, 0x240ca1cc, 0x2de92c6f, 0x4a7484aa, 0x5cb0a9dc, 0x76f988da,
   0x983e5152, 0xa831c66d, 0xb00327c8, 0xbf597fc7, 0xc6e00bf3, 0xd5a79147, 0x06ca6351, 0x14292967,
   0x27b70a85, 0x2e1b2138, 0x4d2c6dfc, 0x53380d13, 0x650a7354, 0x766a0abb, 0x81c2c92e, 0x92722c85,
   0xa2bfe8a1, 0xa81a664b, 0xc24b8b70, 0xc76c51a3, 0xd192e819, 0xd6990624, 0xf40e3585, 0x106aa070,
   0x19a4c116, 0x1e376c08, 0x2748774c, 0x34b0bcb5, 0x391c0cb3, 0x4ed8aa4a, 0x5b9cca4f, 0x682e6ff3,
   0x748f82ee, 0x78a5636f, 0x84c87814, 0x8cc70208, 0x90befffa, 0xa4506ceb, 0xbef9a3f7, 0xc67178f2]

/-- The eight working variables. -/
structure Working where
  a : UInt32
  b : UInt32
  c : UInt32
  d : UInt32
  e : UInt32
  f : UInt32
  g : UInt32
  h : UInt32
  deriving DecidableEq

/-- The initial hash value: the fractional parts of the square roots of the
first eight primes. -/
def initial : Working :=
  ⟨0x6a09e667, 0xbb67ae85, 0x3c6ef372, 0xa54ff53a, 0x510e527f, 0x9b05688c, 0x1f83d9ab, 0x5be0cd19⟩

/-! ### Padding and blocks -/

/-- The `n` low bytes of a number, most significant first. -/
def bigEndian : ℕ → ℕ → List UInt8
  | 0, _ => []
  | n + 1, x => UInt8.ofNat (x / 256 ^ n) :: bigEndian n x

/-- The padded message: a one bit, zeros, and the length in bits in the last
eight bytes of a block. -/
def pad (message : List UInt8) : List UInt8 :=
  message ++ 0x80 :: List.replicate ((119 - message.length % 64) % 64) 0
    ++ bigEndian 8 (8 * message.length)

/-- The words of a byte string, four bytes each; an incomplete tail is
dropped. -/
def words : List UInt8 → List UInt32
  | w :: x :: y :: z :: rest =>
      ((w.toUInt32 <<< 24) ||| (x.toUInt32 <<< 16) ||| (y.toUInt32 <<< 8) ||| z.toUInt32)
        :: words rest
  | _ => []

/-- One more word of the message schedule; `ws` holds the words so far, the
latest first. -/
def scheduleWord (ws : List UInt32) : UInt32 :=
  let s0 := ws.getD 14 0
  let s1 := ws.getD 1 0
  ((rotr s1 17) ^^^ (rotr s1 19) ^^^ (s1 >>> 10)) + ws.getD 6 0
    + ((rotr s0 7) ^^^ (rotr s0 18) ^^^ (s0 >>> 3)) + ws.getD 15 0

/-- The message schedule, `n` words beyond the given ones, the latest first. -/
def extend : ℕ → List UInt32 → List UInt32
  | 0, ws => ws
  | n + 1, ws => extend n (scheduleWord ws :: ws)

/-- One round of the compression function. -/
def round (v : Working) (kw : UInt32 × UInt32) : Working :=
  let t1 := v.h + ((rotr v.e 6) ^^^ (rotr v.e 11) ^^^ (rotr v.e 25))
    + ((v.e &&& v.f) ^^^ (~~~v.e &&& v.g)) + kw.1 + kw.2
  let t2 := ((rotr v.a 2) ^^^ (rotr v.a 13) ^^^ (rotr v.a 22))
    + ((v.a &&& v.b) ^^^ (v.a &&& v.c) ^^^ (v.b &&& v.c))
  ⟨t1 + t2, v.a, v.b, v.c, v.d + t1, v.e, v.f, v.g⟩

/-- The compression of one block of sixteen words. -/
def compress (v : Working) (block : List UInt32) : Working :=
  let w := (roundConstants.zip (extend 48 block.reverse).reverse).foldl round v
  ⟨v.a + w.a, v.b + w.b, v.c + w.c, v.d + w.d, v.e + w.e, v.f + w.f, v.g + w.g, v.h + w.h⟩

/-- The compression of `n` successive blocks. -/
def compressAll : ℕ → Working → List UInt32 → Working
  | 0, v, _ => v
  | n + 1, v, ws => compressAll n (compress v (ws.take 16)) (ws.drop 16)

/-- The digest of the working variables, big-endian. -/
def digest (v : Working) : List UInt8 :=
  [v.a, v.b, v.c, v.d, v.e, v.f, v.g, v.h].flatMap fun x => bigEndian 4 x.toNat

/-- **SHA-256** of a byte string. -/
def sha256 (message : List UInt8) : List UInt8 :=
  let ws := words (pad message)
  digest (compressAll (ws.length / 16) initial ws)

lemma bigEndian_length (n x : ℕ) : (bigEndian n x).length = n := by
  induction n with
  | zero => rfl
  | succ n ih => rw [bigEndian, List.length_cons, ih]

/-- A digest has 32 bytes. -/
theorem sha256_length (message : List UInt8) : (sha256 message).length = 32 := by
  simp [sha256, digest, bigEndian_length]

/-! ### The hexadecimal form -/

/-- The lower-case hexadecimal digit of a number below sixteen. -/
def hexDigit (n : ℕ) : Char := "0123456789abcdef".toList.getD n '0'

/-- The two hexadecimal digits of a byte. -/
def hexByte (b : UInt8) : List Char := [hexDigit (b.toNat / 16), hexDigit (b.toNat % 16)]

/-- `hexdigest()`: the bytes printed in hexadecimal. -/
def hexdigest (bytes : List UInt8) : String := String.ofList (bytes.flatMap hexByte)

/-- The sixteen digits are distinct. -/
lemma hexDigit_injOn : ∀ m < 16, ∀ n < 16, hexDigit m = hexDigit n → m = n := by
  decide

/-- The digits of a byte determine it. -/
lemma hexByte_injective : Function.Injective hexByte := by
  intro b c h
  simp only [hexByte, List.cons.injEq, and_true] at h
  have hb := b.toNat_lt
  have hc := c.toNat_lt
  have hdiv := hexDigit_injOn _ (by omega) _ (by omega) h.1
  have hmod := hexDigit_injOn _ (by omega) _ (by omega) h.2
  exact UInt8.toNat_inj.mp (by omega)

lemma hexdigest_length (bytes : List UInt8) : (hexdigest bytes).length = 2 * bytes.length := by
  induction bytes with
  | nil => rfl
  | cons b bytes ih =>
      simp only [hexdigest, String.length_ofList, List.flatMap_cons, List.length_append,
        List.length_cons] at ih ⊢
      simp only [hexByte, List.length_cons, List.length_nil]
      omega

/-- The hexadecimal form determines the bytes. -/
theorem hexdigest_injective : Function.Injective hexdigest := by
  intro bs cs h
  have h' : bs.flatMap hexByte = cs.flatMap hexByte := String.ofList_injective h
  clear h
  induction bs generalizing cs with
  | nil =>
      cases cs with
      | nil => rfl
      | cons c cs => simp [hexByte] at h'
  | cons b bs ih =>
      cases cs with
      | nil => simp [hexByte] at h'
      | cons c cs =>
          simp only [List.flatMap_cons] at h'
          obtain ⟨hbc, htail⟩ := List.append_inj h' (by simp [hexByte])
          rw [hexByte_injective hbc, ih htail]

end Sha256
