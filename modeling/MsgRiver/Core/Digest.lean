import MsgRiver.Lib.Bytes
import MsgRiver.Lib.Fips180
import MsgRiver.Lib.Loops

/-!
# The digests of the core

The core has no dependency and hashes with code of its own: `sha256` over a padded copy of the data,
and `hmac_sha256` over a key and the parts of a message.

`sha256_standard` compares them with the standards.  The digest and the schedule are arrays that
loops fill in place.
-/

namespace MsgRiver.Core.Canon

open Bytes Chunks Loops

/-- The rotation of a word to the right. -/
def rotateRight (x : UInt32) (n : ℕ) : UInt32 := ⟨x.toBitVec.rotateRight n⟩

/-- The round constants. -/
def sha256K : List UInt32 :=
  [0x428a2f98, 0x71374491, 0xb5c0fbcf, 0xe9b5dba5, 0x3956c25b, 0x59f111f1, 0x923f82a4, 0xab1c5ed5,
   0xd807aa98, 0x12835b01, 0x243185be, 0x550c7dc3, 0x72be5d74, 0x80deb1fe, 0x9bdc06a7, 0xc19bf174,
   0xe49b69c1, 0xefbe4786, 0x0fc19dc6, 0x240ca1cc, 0x2de92c6f, 0x4a7484aa, 0x5cb0a9dc, 0x76f988da,
   0x983e5152, 0xa831c66d, 0xb00327c8, 0xbf597fc7, 0xc6e00bf3, 0xd5a79147, 0x06ca6351, 0x14292967,
   0x27b70a85, 0x2e1b2138, 0x4d2c6dfc, 0x53380d13, 0x650a7354, 0x766a0abb, 0x81c2c92e, 0x92722c85,
   0xa2bfe8a1, 0xa81a664b, 0xc24b8b70, 0xc76c51a3, 0xd192e819, 0xd6990624, 0xf40e3585, 0x106aa070,
   0x19a4c116, 0x1e376c08, 0x2748774c, 0x34b0bcb5, 0x391c0cb3, 0x4ed8aa4a, 0x5b9cca4f, 0x682e6ff3,
   0x748f82ee, 0x78a5636f, 0x84c87814, 0x8cc70208, 0x90befffa, 0xa4506ceb, 0xbef9a3f7, 0xc67178f2]

/-- The initial hash value. -/
def initialState : Vector UInt32 8 :=
  #v[0x6a09e667, 0xbb67ae85, 0x3c6ef372, 0xa54ff53a, 0x510e527f, 0x9b05688c, 0x1f83d9ab, 0x5be0cd19]

/-- The loop that pads with zeros. -/
def padZeros (message : List UInt8) : List UInt8 :=
  if message.length % 64 ≠ 56 then padZeros (message ++ [0]) else message
termination_by (120 - message.length % 64) % 64
decreasing_by
  simp only [List.length_append, List.length_singleton]
  omega

/-! ### One block -/

/-- The pass of the first loop that reads `words[index]`. -/
def readWord (words : List UInt32) (p : List UInt8 × ℕ) : List UInt32 :=
  words.set p.2 (unwire p.1)

/-- The pass of the second loop that computes `words[index]`. -/
def extendWord (words : List UInt32) (index : ℕ) : List UInt32 :=
  let s0 := rotateRight (words.getD (index - 15) 0) 7 ^^^
    rotateRight (words.getD (index - 15) 0) 18 ^^^ (words.getD (index - 15) 0 >>> 3)
  let s1 := rotateRight (words.getD (index - 2) 0) 17 ^^^
    rotateRight (words.getD (index - 2) 0) 19 ^^^ (words.getD (index - 2) 0 >>> 10)
  words.set index (words.getD (index - 16) 0 + s0 + words.getD (index - 7) 0 + s1)

/-- The array `words` after both loops. -/
def wordsOf (chunk : List UInt8) : List UInt32 :=
  (List.range' 16 48).foldl extendWord
    ((chunksExact 4 chunk).zipIdx.foldl readWord (List.replicate 64 0))

/-- The variables of the rounds. -/
structure Registers where
  (a b c d e f g h : UInt32)

/-- One round, with its constant and index. -/
def round (words : List UInt32) (r : Registers) (p : UInt32 × ℕ) : Registers :=
  let s1 := rotateRight r.e 6 ^^^ rotateRight r.e 11 ^^^ rotateRight r.e 25
  let choice := (r.e &&& r.f) ^^^ (~~~r.e &&& r.g)
  let temp1 := r.h + s1 + choice + p.1 + words.getD p.2 0
  let s0 := rotateRight r.a 2 ^^^ rotateRight r.a 13 ^^^ rotateRight r.a 22
  let majority := (r.a &&& r.b) ^^^ (r.a &&& r.c) ^^^ (r.b &&& r.c)
  let temp2 := s0 + majority
  ⟨temp1 + temp2, r.a, r.b, r.c, r.d + temp1, r.e, r.f, r.g⟩

/-- The variables before the rounds. -/
def Registers.ofState (state : Vector UInt32 8) : Registers :=
  ⟨state[0]!, state[1]!, state[2]!, state[3]!, state[4]!, state[5]!, state[6]!, state[7]!⟩

/-- The state after the rounds. -/
def Registers.addTo (r : Registers) (state : Vector UInt32 8) : Vector UInt32 8 :=
  #v[state[0]! + r.a, state[1]! + r.b, state[2]! + r.c, state[3]! + r.d, state[4]! + r.e,
    state[5]! + r.f, state[6]! + r.g, state[7]! + r.h]

/-- The body of the loop over the blocks. -/
def absorb (state : Vector UInt32 8) (chunk : List UInt8) : Vector UInt32 8 :=
  (sha256K.zipIdx.foldl (round (wordsOf chunk)) (Registers.ofState state)).addTo state

/-- The pass of the last loop that writes a word of the state. -/
def writeWord (digest : List UInt8) (p : UInt32 × ℕ) : List UInt8 :=
  digest.take (p.2 * 4) ++ wire p.1 ++ digest.drop (p.2 * 4 + 4)

/-- The digest of the padded message, block after block. -/
def sha256 (data : List UInt8) : List UInt8 :=
  let bitLen : UInt64 := UInt64.ofNat data.length * 8
  let message := padZeros (data ++ [0x80]) ++ wire bitLen
  let state := (chunksExact 64 message).foldl absorb initialState
  state.toList.zipIdx.foldl writeWord (List.replicate 32 0)

/-- The pass of the loop that brings a byte of the key into both pads. -/
def mixKey (pads : List UInt8 × List UInt8) (p : UInt8 × ℕ) : List UInt8 × List UInt8 :=
  (pads.1.modify p.2 (· ^^^ p.1), pads.2.modify p.2 (· ^^^ p.1))

/-- The tag of the parts one after the other; a key longer than a block is hashed first. -/
def hmacSha256 (key : List UInt8) (parts : List (List UInt8)) : List UInt8 :=
  let normalizedKey := if 64 < key.length then sha256 key else key
  let pads := normalizedKey.zipIdx.foldl mixKey (List.replicate 64 0x36, List.replicate 64 0x5c)
  let innerDigest := sha256 (parts.foldl (· ++ ·) pads.1)
  sha256 (pads.2 ++ innerDigest)

/-! ### Bits -/

/-- The bits of a big-endian integer are its binary digits. -/
theorem bits_digits (w n : ℕ) : Fips180.bits (digits w n) = Fips180.binary (8 * w) n := by
  induction w generalizing n with
  | zero => rfl
  | succ w ih =>
    have hlast : Fips180.bits [UInt8.ofNat n] = Fips180.binary 8 n := by
      rw [Fips180.bits, List.flatMap_singleton, UInt8.toNat_ofNat', Fips180.binary_mod]
    rw [digits, Fips180.bits_append, ih, hlast, Nat.mul_succ, Fips180.binary_add]
    norm_num

/-- The word that four bytes hold. -/
theorem toBitVec_unwire {word : List UInt8} (h : word.length = 4) :
    (unwire word : UInt32).toBitVec = BitVec.ofNat 32 (Fips180.number (Fips180.bits word)) := by
  have hbits : Fips180.bits word = Fips180.binary 32 (value word) := by
    rw [← bits_digits 4, ← h, digits_value]
  rw [hbits, Fips180.number_binary]
  apply BitVec.eq_of_toNat_eq
  rw [BitVec.toNat_ofNat, Nat.mod_mod]
  rfl

theorem bytes_bits (xs : List UInt8) : Fips180.bytes (Fips180.bits xs) = xs := by
  induction xs with
  | nil => rfl
  | cons x xs ih =>
    have hbyte : UInt8.ofNat (Fips180.number (Fips180.binary 8 x.toNat)) = x := by
      rw [Fips180.number_binary, Nat.mod_eq_of_lt x.toNat_lt, UInt8.ofNat_toNat]
    rw [Fips180.bytes, Fips180.bits, List.flatMap_cons,
      chunks_append (by omega) (Fips180.length_binary 8 _), List.map_cons, hbyte]
    exact congrArg (x :: ·) ih

/-! ### Padding -/

/-- The loop stops after the least number of zeros that reaches 56 modulo 64. -/
theorem padZeros_eq (message : List UInt8) :
    ∃ k < 64, padZeros message = message ++ List.replicate k 0 ∧
      (message.length + k) % 64 = 56 ∧ ∀ j < k, (message.length + j) % 64 ≠ 56 := by
  induction message using padZeros.induct with
  | case1 message hmore ih =>
    obtain ⟨k, hlt, heq, hlength, hleast⟩ := ih
    rw [List.length_append, List.length_singleton] at hlength hleast
    refine ⟨k + 1, ?_, ?_, ?_, ?_⟩
    · by_contra hge
      obtain rfl : k = 63 := by omega
      omega
    · rw [padZeros, if_pos hmore, heq, List.append_assoc, List.singleton_append,
        ← List.replicate_succ]
    · omega
    · intro j hj
      cases j with
      | zero => exact hmore
      | succ j =>
        have hj' := hleast j (by omega)
        omega
  | case2 message hdone =>
    refine ⟨0, by omega, ?_, by omega, by omega⟩
    rw [padZeros, if_neg hdone, List.replicate_zero, List.append_nil]

theorem bits_replicate_zero (k : ℕ) :
    Fips180.bits (List.replicate k 0) = List.replicate (8 * k) false := by
  induction k with
  | zero => rfl
  | succ k ih =>
    rw [List.replicate_succ', Fips180.bits_append, ih, Nat.mul_succ, List.replicate_add]
    rfl

theorem bits_message (data : List UInt8) :
    Fips180.bits (padZeros (data ++ [0x80]) ++ wire (UInt64.ofNat data.length * 8)) =
      Fips180.pad (Fips180.bits data) := by
  obtain ⟨k, hlt, heq, hlength, -⟩ := padZeros_eq (data ++ [0x80])
  rw [List.length_append, List.length_singleton] at hlength
  have hone : Fips180.bits [0x80] = true :: List.replicate 7 false := by decide
  have hbitLen : Fips180.bits (wire (UInt64.ofNat data.length * 8)) =
      Fips180.binary 64 (8 * data.length) := by
    have hmod : (UInt64.ofNat data.length * 8).toNat = 8 * data.length % 2 ^ 64 := by
      rw [UInt64.toNat_mul, UInt64.toNat_ofNat', Nat.mod_mul_mod, Nat.mul_comm]
      rfl
    rw [← Fips180.binary_mod 64 (8 * data.length), ← hmod]
    exact bits_digits 8 _
  have hzeros : Fips180.zeros (8 * data.length) = 7 + 8 * k :=
    Fips180.zeros_eq (by omega) (by omega)
  rw [heq, Fips180.bits_append, Fips180.bits_append, Fips180.bits_append, hone, hbitLen,
    bits_replicate_zero, Fips180.pad, Fips180.length_bits, hzeros, List.replicate_add]
  simp only [List.append_assoc, List.cons_append]

/-! ### The schedule -/

theorem toBitVec_rotateRight (x : UInt32) {n : ℕ} (h : n < 32) :
    (rotateRight x n).toBitVec = Fips180.rotr n x.toBitVec := by
  show x.toBitVec.rotateRight n = _
  rw [BitVec.rotateRight_def, Nat.mod_eq_of_lt h]
  rfl

theorem toBitVec_s0 (x : UInt32) :
    (rotateRight x 7 ^^^ rotateRight x 18 ^^^ (x >>> 3)).toBitVec =
      Fips180.smallSigma0 x.toBitVec := by
  rw [UInt32.toBitVec_xor, UInt32.toBitVec_xor, toBitVec_rotateRight x (by omega),
    toBitVec_rotateRight x (by omega)]
  rfl

theorem toBitVec_s1 (x : UInt32) :
    (rotateRight x 17 ^^^ rotateRight x 19 ^^^ (x >>> 10)).toBitVec =
      Fips180.smallSigma1 x.toBitVec := by
  rw [UInt32.toBitVec_xor, UInt32.toBitVec_xor, toBitVec_rotateRight x (by omega),
    toBitVec_rotateRight x (by omega)]
  rfl

/-- The words of a block, as the first loop cuts them. -/
theorem chunksExact_block {chunk : List UInt8} (h : chunk.length = 64) :
    chunksExact 4 chunk = chunks 4 chunk ∧ (chunksExact 4 chunk).length = 16 := by
  have hdvd : 4 ∣ chunk.length := by omega
  have hexact := chunksExact_eq_chunks (by omega) hdvd
  have hlength := mul_length_chunks (by omega) hdvd
  rw [hexact]
  exact ⟨rfl, by omega⟩

theorem words_bits {chunk : List UInt8} (h : chunk.length = 64) :
    Fips180.words (Fips180.bits chunk) =
      (chunksExact 4 chunk).map fun word => (unwire word : UInt32).toBitVec := by
  have hbyte : ∀ byte : UInt8, (Fips180.binary 8 byte.toNat).length = 8 := by
    intro byte
    exact Fips180.length_binary 8 _
  rw [Fips180.words, Fips180.bits, chunks_flatMap (n := 4) (by omega) hbyte (by omega),
    List.map_map, ← (chunksExact_block h).1]
  apply List.map_congr_left
  intro word hword
  have hlength : word.length = 4 := by simpa using (List.mem_filter.1 hword).2
  exact (toBitVec_unwire hlength).symm

theorem getD_set {words : List UInt32} {i : ℕ} (h : i < words.length) (word : UInt32) (t : ℕ) :
    (words.set i word).getD t 0 = if t = i then word else words.getD t 0 := by
  by_cases hti : t = i
  · subst hti
    simp [List.getD, h]
  · have hit : ¬ i = t := fun heq => hti heq.symm
    simp [List.getD, hti, hit]

/-- The words below an index are those of the message schedule. -/
def Scheduled (block : List Fips180.Word) (i : ℕ) (words : List UInt32) : Prop :=
  words.length = 64 ∧ ∀ t < i, (words.getD t 0).toBitVec = Fips180.schedule block t

/-- A pass that writes the next word of the schedule. -/
theorem Scheduled.set {block : List Fips180.Word} {i : ℕ} {words : List UInt32} {word : UInt32}
    (h : Scheduled block i words) (hi : i < 64) (hword : word.toBitVec = Fips180.schedule block i) :
    Scheduled block (i + 1) (words.set i word) := by
  obtain ⟨hlength, hbelow⟩ := h
  refine ⟨by rw [List.length_set, hlength], ?_⟩
  intro t ht
  rw [getD_set (by omega)]
  by_cases hti : t = i
  · rw [if_pos hti, hti, hword]
  · rw [if_neg hti]
    exact hbelow t (by omega)

/-- The first loop reads the words of the block. -/
theorem scheduled_readWord {chunk : List UInt8} (h : chunk.length = 64) :
    Scheduled (Fips180.words (Fips180.bits chunk)) 16
      ((chunksExact 4 chunk).zipIdx.foldl readWord (List.replicate 64 0)) := by
  have hcount := (chunksExact_block h).2
  have hloop : Scheduled (Fips180.words (Fips180.bits chunk)) (chunksExact 4 chunk).length
      ((chunksExact 4 chunk).zipIdx.foldl readWord (List.replicate 64 0)) := by
    apply enumerate_induct
    · intro i hi words hwords
      apply hwords.set (by omega)
      rw [Fips180.schedule, if_pos (by omega), words_bits h]
      simp [List.getD, hi]
    · exact ⟨List.length_replicate, fun t ht => absurd ht (Nat.not_lt_zero t)⟩
  rwa [hcount] at hloop

/-- The second loop computes the others. -/
theorem scheduled_wordsOf {chunk : List UInt8} (h : chunk.length = 64) :
    Scheduled (Fips180.words (Fips180.bits chunk)) 64 (wordsOf chunk) := by
  refine range_induct (?_ : ∀ i words, 16 ≤ i → i < 16 + 48 → _ → _) (scheduled_readWord h)
  intro i words hfirst hlast hwords
  apply hwords.set hlast
  obtain ⟨-, hbelow⟩ := hwords
  rw [Fips180.schedule, if_neg (by omega), ← hbelow (i - 2) (by omega),
    ← hbelow (i - 7) (by omega), ← hbelow (i - 15) (by omega), ← hbelow (i - 16) (by omega),
    ← toBitVec_s0, ← toBitVec_s1]
  simp only [UInt32.toBitVec_add]
  -- The source adds the four terms in another order.
  ac_rfl

/-! ### The rounds -/

/-- The working variables that the registers hold. -/
def Registers.working (r : Registers) : Fips180.Working :=
  ⟨r.a.toBitVec, r.b.toBitVec, r.c.toBitVec, r.d.toBitVec, r.e.toBitVec, r.f.toBitVec,
    r.g.toBitVec, r.h.toBitVec⟩

theorem working_round (words : List UInt32) (r : Registers) (k : UInt32) (i : ℕ) :
    (round words r (k, i)).working =
      Fips180.round r.working k.toBitVec (words.getD i 0).toBitVec := by
  simp only [round, Registers.working, Fips180.round, UInt32.toBitVec_add, UInt32.toBitVec_xor,
    UInt32.toBitVec_and, UInt32.toBitVec_not, Fips180.bigSigma0, Fips180.bigSigma1, Fips180.ch,
    Fips180.maj, toBitVec_rotateRight _ (show 6 < 32 by omega),
    toBitVec_rotateRight _ (show 11 < 32 by omega), toBitVec_rotateRight _ (show 25 < 32 by omega),
    toBitVec_rotateRight _ (show 2 < 32 by omega), toBitVec_rotateRight _ (show 13 < 32 by omega),
    toBitVec_rotateRight _ (show 22 < 32 by omega)]

theorem sha256K_eq : sha256K.map UInt32.toBitVec = Fips180.constants := by
  rw [Fips180.constants, Fips180.primes_eq]
  decide +kernel

theorem working_rounds {chunk : List UInt8} (h : chunk.length = 64) (r : Registers) :
    (sha256K.zipIdx.foldl (round (wordsOf chunk)) r).working =
      Fips180.rounds (Fips180.words (Fips180.bits chunk)) r.working 64 := by
  obtain ⟨-, hwords⟩ := scheduled_wordsOf h
  refine enumerate_induct (I := fun i (s : Registers) => s.working = Fips180.rounds _ r.working i)
    ?_ rfl
  intro i hi s hs
  have hk : (sha256K[i]).toBitVec = Fips180.constants.getD i 0 := by
    rw [← sha256K_eq]
    simp [List.getD, hi]
  rw [working_round, hs, hk, hwords i hi, Fips180.rounds]

theorem initialState_eq : initialState.map UInt32.toBitVec = Fips180.initial := by decide +kernel

theorem map_addTo (r : Registers) (state : Vector UInt32 8) :
    (r.addTo state).map UInt32.toBitVec = r.working.addTo (state.map UInt32.toBitVec) := by
  simp [Registers.addTo, Fips180.Working.addTo, Registers.working, BitVec.add_comm]

theorem working_ofState (state : Vector UInt32 8) :
    (Registers.ofState state).working =
      Fips180.Working.ofHash (state.map UInt32.toBitVec) := by
  simp [Registers.ofState, Fips180.Working.ofHash, Registers.working]

/-- One block. -/
theorem absorb_eq {chunk : List UInt8} (h : chunk.length = 64) (state : Vector UInt32 8) :
    (absorb state chunk).map UInt32.toBitVec =
      Fips180.compress (state.map UInt32.toBitVec) (Fips180.bits chunk) := by
  rw [absorb, map_addTo, working_rounds h, working_ofState, Fips180.compress]

/-- All blocks. -/
theorem foldl_absorb_eq {chunks : List (List UInt8)} (h : ∀ chunk ∈ chunks, chunk.length = 64)
    (state : Vector UInt32 8) :
    (chunks.foldl absorb state).map UInt32.toBitVec =
      (chunks.map Fips180.bits).foldl Fips180.compress (state.map UInt32.toBitVec) := by
  induction chunks generalizing state with
  | nil => rfl
  | cons chunk chunks ih =>
    have hrest := ih (fun c hc => h c (List.mem_cons_of_mem _ hc)) (absorb state chunk)
    rw [List.foldl_cons, hrest, absorb_eq (h chunk List.mem_cons_self), List.map_cons,
      List.foldl_cons]

/-! ### The digest -/

theorem length_flatMap_wire (words : List UInt32) :
    (words.flatMap wire).length = words.length * 4 := by
  induction words with
  | nil => rfl
  | cons word words ih =>
    rw [List.flatMap_cons, List.length_append, ih, length_wire_u32, List.length_cons]
    omega

theorem bits_flatMap_wire (words : List UInt32) :
    Fips180.bits (words.flatMap wire) =
      (words.map UInt32.toBitVec).flatMap fun word => Fips180.binary 32 word.toNat := by
  induction words with
  | nil => rfl
  | cons word words ih =>
    rw [List.flatMap_cons, Fips180.bits_append, ih, List.map_cons, List.flatMap_cons]
    exact congrArg (· ++ _) (bits_digits 4 word.toNat)

/-- The last loop writes the words behind one another. -/
theorem writeWords_eq {words : List UInt32} (h : words.length = 8) :
    words.zipIdx.foldl writeWord (List.replicate 32 0) = words.flatMap wire := by
  have hloop : words.zipIdx.foldl writeWord (List.replicate 32 0) =
      (words.take words.length).flatMap wire ++ List.replicate (32 - 4 * words.length) 0 := by
    refine enumerate_induct (I := fun i digest =>
      digest = (words.take i).flatMap wire ++ List.replicate (32 - 4 * i) 0) ?_ rfl
    intro i hi digest hdigest
    have hfront : ((words.take i).flatMap wire).length = i * 4 := by
      rw [length_flatMap_wire, List.length_take, Nat.min_eq_left (Nat.le_of_lt hi)]
    rw [writeWord, hdigest, List.take_left' hfront, List.drop_append, hfront,
      List.drop_of_length_le (by omega), List.drop_replicate, List.nil_append,
      ← List.take_concat_get' words i hi, List.flatMap_append, List.flatMap_singleton]
    congr 2
    omega
  rw [hloop, List.take_length, h]
  exact List.append_nil _

/-- The in-house SHA-256 is that of the standard. -/
theorem sha256_eq (data : List UInt8) : sha256 data = Fips180.sha256Bytes data := by
  have hbyte : ∀ byte : UInt8, (Fips180.binary 8 byte.toNat).length = 8 := by
    intro byte
    exact Fips180.length_binary 8 _
  have hmessage := bits_message data
  generalize hm : padZeros (data ++ [0x80]) ++ wire (UInt64.ofNat data.length * 8) = message
    at hmessage
  have hdvd : 64 ∣ message.length := by
    have hpad := Fips180.length_pad (Fips180.bits data)
    rw [← hmessage, Fips180.length_bits] at hpad
    omega
  have hblocks : chunks 512 (Fips180.bits message) = (chunksExact 64 message).map Fips180.bits := by
    rw [chunksExact_eq_chunks (by omega) hdvd]
    exact chunks_flatMap (k := 8) (n := 64) (by omega) hbyte (by omega) message
  have hall : ∀ chunk ∈ chunksExact 64 message, chunk.length = 64 := by
    intro chunk hchunk
    simpa using (List.mem_filter.1 hchunk).2
  have hstate := foldl_absorb_eq hall initialState
  rw [initialState_eq, ← hblocks, hmessage, ← Fips180.hash] at hstate
  have hlength : ((chunksExact 64 message).foldl absorb initialState).toList.length = 8 := by simp
  have hdigest := writeWords_eq hlength
  rw [sha256, hm, hdigest, Fips180.sha256Bytes, Fips180.sha256, ← hstate, Vector.toList_map,
    ← bits_flatMap_wire, bytes_bits]

theorem length_sha256 (data : List UInt8) : (sha256 data).length = 32 := by
  rw [sha256, writeWords_eq (by simp), length_flatMap_wire, Vector.length_toList]

/-! ### The keyed digest -/

theorem modify_append_cons {α : Type} (front : List α) (x : α) (rest : List α) (f : α → α) :
    (front ++ x :: rest).modify front.length f = front ++ f x :: rest := by
  induction front with
  | nil => rfl
  | cons y front ih => rw [List.cons_append, List.length_cons, List.modify_succ_cons, ih]; rfl

/-- A pad after so many bytes of the key. -/
def mixed (pad : UInt8) (key : List UInt8) (i : ℕ) : List UInt8 :=
  (key.take i).map (· ^^^ pad) ++ List.replicate (64 - i) pad

theorem modify_mixed (pad : UInt8) {key : List UInt8} {i : ℕ} (hi : i < key.length)
    (h : key.length ≤ 64) : (mixed pad key i).modify i (· ^^^ key[i]) = mixed pad key (i + 1) := by
  have hfront : ((key.take i).map (· ^^^ pad)).length = i := by
    rw [List.length_map, List.length_take, Nat.min_eq_left (Nat.le_of_lt hi)]
  have hrest : List.replicate (64 - i) pad = pad :: List.replicate (64 - (i + 1)) pad := by
    rw [← List.replicate_succ]
    congr 1
    omega
  have hmodify := modify_append_cons ((key.take i).map (· ^^^ pad)) pad
    (List.replicate (64 - (i + 1)) pad) (· ^^^ key[i])
  rw [hfront] at hmodify
  rw [mixed, hrest, hmodify, mixed, ← List.take_concat_get' key i hi, List.map_append,
    List.append_assoc, UInt8.xor_comm]
  rfl

/-- The loop over the key makes both pads of the standard. -/
theorem mixKey_eq {key : List UInt8} (h : key.length ≤ 64) :
    key.zipIdx.foldl mixKey (List.replicate 64 0x36, List.replicate 64 0x5c) =
      (mixed 0x36 key key.length, mixed 0x5c key key.length) := by
  refine enumerate_induct (I := fun i pads => pads = (mixed 0x36 key i, mixed 0x5c key i)) ?_ rfl
  intro i hi pads hpads
  rw [mixKey, hpads, modify_mixed _ hi h, modify_mixed _ hi h]

theorem mixed_length (pad : UInt8) (key : List UInt8) :
    mixed pad key key.length =
      (key ++ List.replicate (64 - key.length) 0).map (· ^^^ pad) := by
  rw [mixed, List.take_length, List.map_append, List.map_replicate, UInt8.zero_xor]

/-- The in-house HMAC-SHA-256 is that of RFC 2104, for every key and every cut of the message. -/
theorem hmacSha256_eq (key : List UInt8) (parts : List (List UInt8)) :
    hmacSha256 key parts = Rfc2104.hmac Fips180.sha256Bytes 64 key parts.flatten := by
  have hkey : (if 64 < key.length then sha256 key else key).length ≤ 64 := by
    by_cases hlong : 64 < key.length
    · rw [if_pos hlong, length_sha256]
      omega
    · rw [if_neg hlong]
      omega
  simp only [hmacSha256, mixKey_eq hkey, mixed_length, foldl_append_eq_flatten]
  simp only [sha256_eq, Rfc2104.hmac, Rfc2104.blockKey]

/-- The digests of the core are those of the standards, and the padding loop stops. -/
theorem digests_standard :
    (∀ data, sha256 data = Fips180.sha256Bytes data) ∧
    (∀ message, ∃ k < 64, padZeros message = message ++ List.replicate k 0 ∧
      (message.length + k) % 64 = 56 ∧ ∀ j < k, (message.length + j) % 64 ≠ 56) ∧
    ∀ key parts, hmacSha256 key parts = Rfc2104.hmac Fips180.sha256Bytes 64 key parts.flatten :=
  ⟨sha256_eq, padZeros_eq, hmacSha256_eq⟩

end MsgRiver.Core.Canon
