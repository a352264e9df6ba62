import Mathlib.Data.Nat.Find
import Mathlib.Data.Nat.NthRoot.Defs
import Mathlib.Data.Nat.Prime.Defs
import MsgRiver.Lib.Chunks

/-!
# The secure hash standard

SHA-256 as FIPS 180-4 defines it, for messages that are strings of bits, and the keyed hash of
RFC 2104 over an arbitrary hash function.  The definitions follow the text of the standards and are
not meant to be run.

* `Fips180.pad`, `Fips180.schedule`, `Fips180.compress`, `Fips180.sha256`;
* `Fips180.sha256Bytes`, the same for byte strings;
* `Rfc2104.hmac`.

The standard defines the digest of messages of fewer than `2 ^ 64` bits; the length block of a
longer message is here the low 64 bits of its length.
-/

/-! ### Bit strings -/

namespace Fips180

/-- The last `w` binary digits of a number, the most significant first. -/
def binary (w n : ℕ) : List Bool := (List.range w).map fun i => n.testBit (w - 1 - i)

/-- The number with the given binary digits. -/
def number (bits : List Bool) : ℕ := bits.foldl (fun n bit => 2 * n + bit.toNat) 0

/-- The bits of a byte string. -/
def bits (bytes : List UInt8) : List Bool := bytes.flatMap fun byte => binary 8 byte.toNat

/-- The byte string with the given bits. -/
def bytes (bits : List Bool) : List UInt8 :=
  (Chunks.chunks 8 bits).map fun byte => UInt8.ofNat (number byte)

@[simp] theorem length_binary (w n : ℕ) : (binary w n).length = w := by
  simp [binary]

/-- The leading digits are those of the quotient. -/
theorem binary_add (v w n : ℕ) : binary (v + w) n = binary v (n / 2 ^ w) ++ binary w n := by
  unfold binary
  rw [List.range_add, List.map_append, List.map_map]
  congr 1
  · apply List.map_congr_left
    intro i hi
    have hi' := List.mem_range.1 hi
    rw [Nat.testBit_div_two_pow, show v + w - 1 - i = v - 1 - i + w by omega]
  · apply List.map_congr_left
    intro i _
    show n.testBit (v + w - 1 - (v + i)) = _
    congr 1
    omega

theorem binary_mod (w n : ℕ) : binary w (n % 2 ^ w) = binary w n := by
  apply List.map_congr_left
  intro i hi
  have hi' := List.mem_range.1 hi
  have hlt : w - 1 - i < w := by omega
  simp [Nat.testBit_mod_two_pow, hlt]

theorem number_binary (w n : ℕ) : number (binary w n) = n % 2 ^ w := by
  induction w generalizing n with
  | zero => rw [pow_zero, Nat.mod_one]; rfl
  | succ w ih =>
    have hlast : binary 1 n = [n.testBit 0] := rfl
    have hdigit : (n.testBit 0).toNat = n % 2 := by
      rw [Nat.testBit_zero]
      rcases Nat.mod_two_eq_zero_or_one n with h | h <;> rw [h] <;> rfl
    rw [binary_add, hlast, number, List.foldl_append, ← number, ih, pow_one]
    show 2 * (n / 2 % 2 ^ w) + (n.testBit 0).toNat = _
    rw [hdigit, pow_succ', Nat.mod_mul]
    exact Nat.add_comm _ _

@[simp] theorem bits_append (xs ys : List UInt8) : bits (xs ++ ys) = bits xs ++ bits ys :=
  List.flatMap_append

theorem length_bits (xs : List UInt8) : (bits xs).length = 8 * xs.length := by
  induction xs with
  | nil => rfl
  | cons x xs ih =>
    rw [bits, List.flatMap_cons, List.length_append, length_binary, ← bits, ih, List.length_cons]
    omega

/-! ### Functions and constants -/

/-- The words of SHA-256. -/
abbrev Word := BitVec 32

/-- The shift to the right. -/
def shr (n : ℕ) (x : Word) : Word := x >>> n

/-- The rotation to the right. -/
def rotr (n : ℕ) (x : Word) : Word := (x >>> n) ||| (x <<< (32 - n))

/-- The choice between two words. -/
def ch (x y z : Word) : Word := (x &&& y) ^^^ (~~~x &&& z)

/-- The majority of three words. -/
def maj (x y z : Word) : Word := (x &&& y) ^^^ (x &&& z) ^^^ (y &&& z)

/-- `Σ₀`. -/
def bigSigma0 (x : Word) : Word := rotr 2 x ^^^ rotr 13 x ^^^ rotr 22 x

/-- `Σ₁`. -/
def bigSigma1 (x : Word) : Word := rotr 6 x ^^^ rotr 11 x ^^^ rotr 25 x

/-- `σ₀`. -/
def smallSigma0 (x : Word) : Word := rotr 7 x ^^^ rotr 18 x ^^^ shr 3 x

/-- `σ₁`. -/
def smallSigma1 (x : Word) : Word := rotr 17 x ^^^ rotr 19 x ^^^ shr 10 x

/-- The first 64 prime numbers. -/
def primes : List ℕ := (List.range 312).filter fun p => p.Prime

/-- Trial division by every smaller number. -/
def indivisible (p : ℕ) : Bool := 2 ≤ p && (List.range p).all fun d => d < 2 || p % d != 0

theorem prime_iff_indivisible (p : ℕ) : p.Prime ↔ indivisible p = true := by
  rw [Nat.prime_def_lt', indivisible, Bool.and_eq_true, decide_eq_true_iff, List.all_eq_true]
  apply and_congr_right
  intro _
  constructor
  · intro h d hd
    have hnot := h d
    have hlt := List.mem_range.1 hd
    by_cases hsmall : d < 2
    · simp [hsmall]
    · have hdvd := hnot (by omega) hlt
      rw [Nat.dvd_iff_mod_eq_zero] at hdvd
      simp [hdvd]
  · intro h d h2 hlt
    have hd := h d (List.mem_range.2 hlt)
    rw [Nat.dvd_iff_mod_eq_zero]
    have hsmall : ¬ d < 2 := by omega
    simpa [hsmall] using hd

/-- The prime numbers, found by trial division. -/
theorem primes_eq : primes = (List.range 312).filter indivisible := by
  apply List.filter_congr
  intro p _
  simp [prime_iff_indivisible]

/-- The constants `K`: the first 32 bits of the fractional parts of the cube roots of the first 64
prime numbers. -/
def constants : List Word := primes.map fun p => BitVec.ofNat 32 (Nat.nthRoot 3 (p * 2 ^ 96))

/-- The initial hash value: the first 32 bits of the fractional parts of the square roots of the
first eight prime numbers. -/
def initial : Vector Word 8 :=
  #v[2, 3, 5, 7, 11, 13, 17, 19].map fun p => BitVec.ofNat 32 (Nat.nthRoot 2 (p * 2 ^ 64))

/-! ### Preprocessing -/

theorem exists_zeros (length : ℕ) : ∃ k, (length + 1 + k) % 512 = 448 :=
  ⟨(960 - (length + 1) % 512) % 512, by omega⟩

/-- The least number of zero bits that make the length 448 modulo 512. -/
def zeros (length : ℕ) : ℕ := Nat.find (exists_zeros length)

/-- The padded message: a one bit, zero bits, and the length in 64 bits. -/
def pad (message : List Bool) : List Bool :=
  message ++ true :: (List.replicate (zeros message.length) false ++ binary 64 message.length)

theorem length_pad (message : List Bool) : (pad message).length % 512 = 0 := by
  have hzeros : (message.length + 1 + zeros message.length) % 512 = 448 :=
    Nat.find_spec (exists_zeros message.length)
  rw [pad, List.length_append, List.length_cons, List.length_append, List.length_replicate,
    length_binary]
  omega

/-- A number of zeros of the right residue is the least one, when it is below the modulus. -/
theorem zeros_eq {length k : ℕ} (h : (length + 1 + k) % 512 = 448) (hlt : k < 512) :
    zeros length = k := by
  have hle : zeros length ≤ k := Nat.find_min' _ h
  have hspec : (length + 1 + zeros length) % 512 = 448 := Nat.find_spec (exists_zeros length)
  omega

/-- The words of a block. -/
def words (block : List Bool) : List Word :=
  (Chunks.chunks 32 block).map fun word => BitVec.ofNat 32 (number word)

/-! ### Hash computation -/

/-- The message schedule over the words of a block. -/
def schedule (block : List Word) (t : ℕ) : Word :=
  if t < 16 then block.getD t 0
  else
    smallSigma1 (schedule block (t - 2)) + schedule block (t - 7) +
      smallSigma0 (schedule block (t - 15)) + schedule block (t - 16)

/-- The working variables. -/
structure Working where
  (a b c d e f g h : Word)

/-- One round with constant `k` and schedule word `w`. -/
def round (s : Working) (k w : Word) : Working :=
  let t₁ := s.h + bigSigma1 s.e + ch s.e s.f s.g + k + w
  let t₂ := bigSigma0 s.a + maj s.a s.b s.c
  ⟨t₁ + t₂, s.a, s.b, s.c, s.d + t₁, s.e, s.f, s.g⟩

/-- The working variables after so many rounds. -/
def rounds (block : List Word) (s : Working) : ℕ → Working
  | 0 => s
  | t + 1 => round (rounds block s t) (constants.getD t 0) (schedule block t)

/-- The working variables before the rounds. -/
def Working.ofHash (hash : Vector Word 8) : Working :=
  ⟨hash[0], hash[1], hash[2], hash[3], hash[4], hash[5], hash[6], hash[7]⟩

/-- The hash value that the working variables are added to. -/
def Working.addTo (s : Working) (hash : Vector Word 8) : Vector Word 8 :=
  #v[s.a + hash[0], s.b + hash[1], s.c + hash[2], s.d + hash[3], s.e + hash[4], s.f + hash[5],
    s.g + hash[6], s.h + hash[7]]

/-- The next intermediate hash value. -/
def compress (hash : Vector Word 8) (block : List Bool) : Vector Word 8 :=
  (rounds (words block) (Working.ofHash hash) 64).addTo hash

/-- The last intermediate hash value. -/
def hash (message : List Bool) : Vector Word 8 :=
  (Chunks.chunks 512 (pad message)).foldl compress initial

/-- SHA-256. -/
def sha256 (message : List Bool) : List Bool :=
  (hash message).toList.flatMap fun word => binary 32 word.toNat

/-- SHA-256 of byte strings. -/
def sha256Bytes (message : List UInt8) : List UInt8 := bytes (sha256 (bits message))

end Fips180

namespace Rfc2104

variable (H : List UInt8 → List UInt8) (B : ℕ)

/-- The key, brought to the length `B` of a block. -/
def blockKey (key : List UInt8) : List UInt8 :=
  let k := if B < key.length then H key else key
  k ++ List.replicate (B - k.length) 0

/-- The keyed hash. -/
def hmac (key text : List UInt8) : List UInt8 :=
  H ((blockKey H B key).map (· ^^^ 0x5c) ++ H ((blockKey H B key).map (· ^^^ 0x36) ++ text))

end Rfc2104
