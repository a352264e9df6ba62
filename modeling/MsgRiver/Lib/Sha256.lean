import Mathlib.Data.List.Basic
import Mathlib.Data.Vector.Basic

/-!
# SHA-256 and HMAC-SHA-256

The hash function of FIPS 180-4 and the keyed hash of RFC 2104 over it, on byte lists.  Words are
natural numbers below `2 ^ 32`, so that the kernel evaluates them with its own arithmetic; every
operation that can leave that range is reduced with `% 2 ^ 32`.

* `sha256 message`, a vector of 32 bytes;
* `hmacSha256 key message`.
-/

namespace Sha256

/-- The round constants of FIPS 180-4, §4.2.2. -/
def roundConstants : List ℕ :=
  [0x428a2f98, 0x71374491, 0xb5c0fbcf, 0xe9b5dba5, 0x3956c25b, 0x59f111f1, 0x923f82a4, 0xab1c5ed5,
   0xd807aa98, 0x12835b01, 0x243185be, 0x550c7dc3, 0x72be5d74, 0x80deb1fe, 0x9bdc06a7, 0xc19bf174,
   0xe49b69c1, 0xefbe4786, 0x0fc19dc6, 0x240ca1cc, 0x2de92c6f, 0x4a7484aa, 0x5cb0a9dc, 0x76f988da,
   0x983e5152, 0xa831c66d, 0xb00327c8, 0xbf597fc7, 0xc6e00bf3, 0xd5a79147, 0x06ca6351, 0x14292967,
   0x27b70a85, 0x2e1b2138, 0x4d2c6dfc, 0x53380d13, 0x650a7354, 0x766a0abb, 0x81c2c92e, 0x92722c85,
   0xa2bfe8a1, 0xa81a664b, 0xc24b8b70, 0xc76c51a3, 0xd192e819, 0xd6990624, 0xf40e3585, 0x106aa070,
   0x19a4c116, 0x1e376c08, 0x2748774c, 0x34b0bcb5, 0x391c0cb3, 0x4ed8aa4a, 0x5b9cca4f, 0x682e6ff3,
   0x748f82ee, 0x78a5636f, 0x84c87814, 0x8cc70208, 0x90befffa, 0xa4506ceb, 0xbef9a3f7, 0xc67178f2]

/-- Rotation of a 32-bit word to the right. -/
def rotr (n x : ℕ) : ℕ := (x >>> n) ||| ((x <<< (32 - n)) % 2 ^ 32)

/-- `σ₀` of the message schedule. -/
def smallSigma0 (x : ℕ) : ℕ := rotr 7 x ^^^ rotr 18 x ^^^ (x >>> 3)

/-- `σ₁` of the message schedule. -/
def smallSigma1 (x : ℕ) : ℕ := rotr 17 x ^^^ rotr 19 x ^^^ (x >>> 10)

/-- `Σ₀` of the compression function. -/
def bigSigma0 (x : ℕ) : ℕ := rotr 2 x ^^^ rotr 13 x ^^^ rotr 22 x

/-- `Σ₁` of the compression function. -/
def bigSigma1 (x : ℕ) : ℕ := rotr 6 x ^^^ rotr 11 x ^^^ rotr 25 x

/-- The choice function. -/
def ch (x y z : ℕ) : ℕ := (x &&& y) ^^^ ((2 ^ 32 - 1 - x) &&& z)

/-- The majority function. -/
def maj (x y z : ℕ) : ℕ := (x &&& y) ^^^ (x &&& z) ^^^ (y &&& z)

/-- The eight working words. -/
structure Words where
  (a b c d e f g h : ℕ)

/-- The initial hash value, §5.3.3. -/
def initial : Words :=
  ⟨0x6a09e667, 0xbb67ae85, 0x3c6ef372, 0xa54ff53a, 0x510e527f, 0x9b05688c, 0x1f83d9ab, 0x5be0cd19⟩

/-- One round with constant `k` and schedule word `w`. -/
def round (s : Words) (k w : ℕ) : Words :=
  let t₁ := s.h + bigSigma1 s.e + ch s.e s.f s.g + k + w
  let t₂ := bigSigma0 s.a + maj s.a s.b s.c
  ⟨(t₁ + t₂) % 2 ^ 32, s.a, s.b, s.c, (s.d + t₁) % 2 ^ 32, s.e, s.f, s.g⟩

/-- The rounds for the remaining constants; the list `ws` is the next sixteen words of the
message schedule, extended by one word in each round. -/
def rounds : List ℕ → List ℕ → Words → Words
  | k :: ks, w :: ws, s =>
    let next := (smallSigma1 (ws.getD 13 0) + ws.getD 8 0 + smallSigma0 (ws.getD 0 0) + w) % 2 ^ 32
    rounds ks (ws ++ [next]) (round s k w)
  | _, _, s => s

/-- Big-endian words of a block. -/
def blockWords : List UInt8 → List ℕ
  | a :: b :: c :: d :: rest =>
    (((a.toNat * 256 + b.toNat) * 256 + c.toNat) * 256 + d.toNat) :: blockWords rest
  | _ => []

/-- The compression of one 64-byte block. -/
def compress (s : Words) (block : List UInt8) : Words :=
  let r := rounds roundConstants (blockWords block) s
  ⟨(s.a + r.a) % 2 ^ 32, (s.b + r.b) % 2 ^ 32, (s.c + r.c) % 2 ^ 32, (s.d + r.d) % 2 ^ 32,
   (s.e + r.e) % 2 ^ 32, (s.f + r.f) % 2 ^ 32, (s.g + r.g) % 2 ^ 32, (s.h + r.h) % 2 ^ 32⟩

/-- The first `n` blocks of a padded message. -/
def blocks : ℕ → List UInt8 → Words → Words
  | 0, _, s => s
  | n + 1, m, s => blocks n (m.drop 64) (compress s (m.take 64))

/-- `0x80`, the least number of zero bytes, and the bit length in eight bytes. -/
def padding (length : ℕ) : List UInt8 :=
  (0x80 : UInt8) :: List.replicate ((119 - length % 64) % 64) (0 : UInt8) ++
    (List.range 8).map fun i => UInt8.ofNat ((length * 8) >>> (56 - 8 * i))

/-- The four big-endian bytes of a word. -/
def wordBytes (w : ℕ) : List UInt8 :=
  [UInt8.ofNat (w >>> 24), UInt8.ofNat (w >>> 16), UInt8.ofNat (w >>> 8), UInt8.ofNat w]

/-- SHA-256. -/
def sha256 (message : List UInt8) : List.Vector UInt8 32 :=
  let s := blocks ((message.length + 72) / 64) (message ++ padding message.length) initial
  ⟨wordBytes s.a ++ wordBytes s.b ++ wordBytes s.c ++ wordBytes s.d ++
    wordBytes s.e ++ wordBytes s.f ++ wordBytes s.g ++ wordBytes s.h, rfl⟩

/-- The key of RFC 2104 brought to the length of a block. -/
def blockKey (key : List UInt8) : List UInt8 :=
  let k := if key.length ≤ 64 then key else (sha256 key).toList
  k ++ List.replicate (64 - k.length) (0 : UInt8)

/-- HMAC-SHA-256. -/
def hmacSha256 (key message : List UInt8) : List.Vector UInt8 32 :=
  let k := blockKey key
  sha256 (k.map (· ^^^ 0x5c) ++ (sha256 (k.map (· ^^^ 0x36) ++ message)).toList)

example : (sha256 [0x61, 0x62, 0x63]).toList.take 4 = [0xba, 0x78, 0x16, 0xbf] := by
  decide +kernel

end Sha256
