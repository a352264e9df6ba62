import MsgRiver.Core.Jitter
import Mathlib.Data.Set.Card

/-!
# The retry jitter has no bias

The loop of `derive_retry_jitter` takes the first prefix below `REJECTION_LIMIT`, reduced modulo
1001.

* `rejectionLimit_isGreatest`: the limit is the greatest multiple of 1001 up to 2^32;
* `accepted_ncard`: each multiplier has the same number of accepted prefixes;
* `retryJitter_uniform`: with `deriveFrom_run`, what `derive_retry_jitter` does for a valid request.
-/

namespace MsgRiver.Core

open Bytes

/-- The condition of a request that is not refused. -/
structure JitterSourceRequest.Valid (request : JitterSourceRequest) : Prop where
  version : request.derivationVersion = 1
  ordinal : 1 ≤ request.completedAttemptOrdinal ∧ request.completedAttemptOrdinal ≤ 1023
  purpose : request.keyReference.purpose = .retryJitterV1
  message : isUuidV7 request.messageId = true

theorem deriveRetryJitter_of_valid {provider : MacProvider} {request : JitterSourceRequest}
    (h : request.Valid) (calls : List MacCall) :
    deriveRetryJitter provider request calls = deriveFrom provider request counters calls := by
  apply if_neg
  rintro (hversion | hordinal | hpurpose | hmessage)
  · exact hversion h.version
  · exact hordinal h.ordinal
  · exact hpurpose h.purpose
  · rw [h.message] at hmessage
    cases hmessage

theorem length_counters : counters.length = 256 := by
  rw [counters, List.length_map, List.length_range]

/-- The counters go up, and none comes twice. -/
theorem counters_increase : counters.Pairwise (· < ·) := by
  rw [counters, List.pairwise_map]
  refine List.Pairwise.imp_of_mem ?_ List.pairwise_lt_range
  intro i j hi hj hlt
  have hi' := List.mem_range.1 hi
  have hj' := List.mem_range.1 hj
  rw [UInt8.lt_iff_toNat_lt, UInt8.toNat_ofNat_of_lt' hi', UInt8.toNat_ofNat_of_lt' hj']
  exact hlt

/-! ### Residues -/

/-- Below a multiple of the modulus, each residue comes equally often. -/
theorem ncard_residue {n r : ℕ} (k : ℕ) (h : r < n) : {c | c < n * k ∧ c % n = r}.ncard = k := by
  have hset : {c | c < n * k ∧ c % n = r} = (fun j => r + n * j) '' (Finset.range k : Set ℕ) := by
    ext c
    constructor
    · rintro ⟨hlt, rfl⟩
      exact ⟨c / n, Finset.mem_coe.2 (Finset.mem_range.2 (Nat.div_lt_of_lt_mul hlt)),
        Nat.mod_add_div c n⟩
    · rintro ⟨j, hj, rfl⟩
      have hj := Finset.mem_range.1 (Finset.mem_coe.1 hj)
      refine ⟨?_, by rw [Nat.add_mul_mod_self_left, Nat.mod_eq_of_lt h]⟩
      calc r + n * j < n + n * j := by omega
        _ = n * (j + 1) := by ring
        _ ≤ n * k := Nat.mul_le_mul_left n hj
  have hinjective : Function.Injective fun j => r + n * j := by
    intro i j hij
    exact Nat.eq_of_mul_eq_mul_left (by omega) (Nat.add_left_cancel hij)
  rw [hset, Set.ncard_image_of_injective _ hinjective, Set.ncard_coe_finset, Finset.card_range]

theorem rejectionLimit_eq : rejectionLimit = 1001 * 4290676 := by decide

/-- The limit is the greatest multiple of 1001 up to 2^32. -/
theorem rejectionLimit_isGreatest : IsGreatest {n | 1001 ∣ n ∧ n ≤ 2 ^ 32} rejectionLimit := by
  refine ⟨⟨⟨4290676, rejectionLimit_eq⟩, by decide⟩, ?_⟩
  rintro n ⟨⟨k, rfl⟩, hle⟩
  rw [rejectionLimit_eq]
  omega

/-! ### Prefixes -/

/-- The prefix with the given value. -/
def fourBytes (n : ℕ) : ByteVec 4 := ⟨digits 4 n, length_digits 4 n⟩

theorem value_fourBytes {n : ℕ} (h : n < 2 ^ 32) : value (fourBytes n).toList = n := by
  have hvalue : value (fourBytes n).toList = n % 256 ^ 4 := value_digits 4 n
  rw [hvalue]
  exact Nat.mod_eq_of_lt h

theorem fourBytes_value (p : ByteVec 4) : fourBytes (value p.toList) = p := by
  apply List.Vector.toList_injective
  have hdigits := digits_value p.toList
  rwa [p.toList_length] at hdigits

/-- The prefixes that are accepted and give the multiplier. -/
def acceptedFor (multiplier : ℕ) : Set (ByteVec 4) :=
  {p | value p.toList < rejectionLimit ∧ 500 + value p.toList % 1001 = multiplier}

/-- Each of the 1001 multipliers is given by 4290676 prefixes. -/
theorem accepted_ncard {multiplier : ℕ} (h : 500 ≤ multiplier ∧ multiplier ≤ 1500) :
    (acceptedFor multiplier).ncard = 4290676 := by
  have hlimit : rejectionLimit ≤ 2 ^ 32 := rejectionLimit_isGreatest.1.2
  have hset : acceptedFor multiplier =
      fourBytes '' {c | c < 1001 * 4290676 ∧ c % 1001 = multiplier - 500} := by
    ext p
    constructor
    · rintro ⟨hlt, hvalue⟩
      rw [rejectionLimit_eq] at hlt
      exact ⟨value p.toList, ⟨hlt, by omega⟩, fourBytes_value p⟩
    · rintro ⟨c, ⟨hlt, hmod⟩, rfl⟩
      have hvalue : value (fourBytes c).toList = c := by
        apply value_fourBytes
        omega
      refine ⟨?_, ?_⟩
      · rw [hvalue, rejectionLimit_eq]
        exact hlt
      · rw [hvalue, hmod]
        omega
  have hinjective : Set.InjOn fourBytes {c | c < 1001 * 4290676 ∧ c % 1001 = multiplier - 500} := by
    rintro c ⟨hc, -⟩ c' ⟨hc', -⟩ heq
    have hvalue := congrArg (fun p : ByteVec 4 => value p.toList) heq
    rwa [value_fourBytes (by omega), value_fourBytes (by omega)] at hvalue
  rw [hset, hinjective.ncard_image, ncard_residue _ (by omega)]

theorem multiplier_toNat (c : ℕ) : (UInt16.ofNat (500 + c % 1001)).toNat = 500 + c % 1001 := by
  apply UInt16.toNat_ofNat_of_lt'
  have hmod : c % 1001 < 1001 := Nat.mod_lt _ (by decide)
  have hsize : UInt16.size = 65536 := rfl
  omega

/-! ### The multiplier -/

/-- What a valid request gets: calls with the first counters in their order, 256 at most; a
multiplier from the first answer that decides, or nothing when an answer before it fails or all 256
are undecided. -/
theorem retryJitter_uniform :
    (∀ (provider : MacProvider) (request : JitterSourceRequest) (calls : List MacCall),
      request.Valid →
        ∃ new, (deriveRetryJitter provider request calls).2 = calls ++ new ∧
          Asked provider request counters calls new ∧ new.length ≤ 256 ∧
          Ends request 256 new (deriveRetryJitter provider request calls).1) ∧
    counters.Pairwise (· < ·) ∧
    (∀ request multiplier made, Decides request multiplier made → ∃ tag, made.answer = .ok tag ∧
      tag.key = request.keyReference ∧ candidateOf tag < rejectionLimit ∧
      multiplier.toNat = 500 + candidateOf tag % 1001 ∧
      500 ≤ multiplier.toNat ∧ multiplier.toNat ≤ 1500) ∧
    IsGreatest {n | 1001 ∣ n ∧ n ≤ 2 ^ 32} rejectionLimit ∧
    ∀ multiplier, 500 ≤ multiplier ∧ multiplier ≤ 1500 →
      (acceptedFor multiplier).ncard = 4290676 := by
  refine ⟨?_, counters_increase, ?_, rejectionLimit_isGreatest, fun _ h => accepted_ncard h⟩
  · intro provider request calls hvalid
    obtain ⟨new, hnew, hasked, hlength, hends⟩ := deriveFrom_run provider request counters calls
    rw [length_counters] at hlength hends
    rw [deriveRetryJitter_of_valid hvalid]
    exact ⟨new, hnew, hasked, hlength, hends⟩
  · rintro request multiplier made ⟨tag, hanswer, hkey, hbelow, rfl⟩
    have hmod : candidateOf tag % 1001 < 1001 := Nat.mod_lt _ (by decide)
    refine ⟨tag, hanswer, hkey, hbelow, ?_⟩
    rw [multiplier_toNat]
    omega

/-- A provider that answers the first call with a tag above the limit. -/
def lateProvider : MacProvider := fun calls key _ =>
  .ok ⟨key, List.Vector.replicate 32 (if calls.isEmpty then 0xff else 0)⟩

/-- A request that is not refused. -/
def lateRequest : JitterSourceRequest where
  derivationVersion := 1
  keyReference := ⟨.retryJitterV1, ByteVec.zero 40⟩
  messageId := ⟨[0, 0, 0, 0, 0, 0, 0x70, 0, 0x80, 0, 0, 0, 0, 0, 0, 0], rfl⟩
  completedAttemptOrdinal := 1

theorem lateRequest_valid : lateRequest.Valid := by
  constructor <;> decide

/-- Its second tag decides. -/
theorem retryJitter_late : (deriveRetryJitter lateProvider lateRequest []).1 =
      .multiplierMilli 500 ∧
    ∃ new, (deriveRetryJitter lateProvider lateRequest []).2 = [] ++ new ∧
      Asked lateProvider lateRequest counters [] new ∧ new.length ≤ 256 ∧
      Ends lateRequest 256 new (deriveRetryJitter lateProvider lateRequest []).1 :=
  ⟨by decide +kernel, retryJitter_uniform.1 lateProvider lateRequest [] lateRequest_valid⟩

end MsgRiver.Core
