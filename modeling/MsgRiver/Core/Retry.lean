import Mathlib.Algebra.Group.Nat.Defs
import Mathlib.Order.Iterate
import Mathlib.Order.MinMax
import Mathlib.Tactic.Common
import MsgRiver.Lib.Result

/-!
# Retry delay

`retry_delay_v1` computes the delay before the next attempt from scalars that it checks first: an
exponential, a jitter multiplier and the delay that the provider asked for.

The loop stops early at the cap.  `retryDelayV1_spec` compares it with a recurrence that runs to the
end (`growStep`), and says that no product overflows.
-/

namespace MsgRiver.Core

open Result

/-- The reason that a refused input carries. -/
inductive RejectClass
  | retryDelayInputInvalid
  deriving DecidableEq

/-- A rejection of the core, or a product that does not fit its type. -/
inductive RetryDelayError
  | reject (rejection : RejectClass)
  | multiplyOverflow
  deriving DecidableEq

/-- The policy, the finished attempt and what the provider asked for. -/
structure RetryDelayV1Input where
  baseDelayMs : UInt32
  factorMilli : UInt32
  maxDelayMs : UInt32
  completedAttemptOrdinal : UInt16
  multiplierMilli : UInt16
  validatedRetryAfterMs : Option UInt32

/-- The bounds of the policy and of the attempt. -/
def retryDelayInputIsValid (input : RetryDelayV1Input) : Bool :=
  (1000 ≤ input.baseDelayMs && input.baseDelayMs ≤ 3600000)
    && (1001 ≤ input.factorMilli && input.factorMilli ≤ 16000)
    && (input.baseDelayMs ≤ input.maxDelayMs && input.maxDelayMs ≤ 3600000)
    && (1 ≤ input.completedAttemptOrdinal && input.completedAttemptOrdinal ≤ 1023)
    && (500 ≤ input.multiplierMilli && input.multiplierMilli ≤ 1500)
    && input.validatedRetryAfterMs.all fun retryAfter => 1000 ≤ retryAfter && retryAfter ≤ 3600000

/-- The product of two unsigned integers of the given width. -/
def multiply (width a b : ℕ) : Except RetryDelayError ℕ :=
  if a * b < 2 ^ width then .ok (a * b) else .error .multiplyOverflow

/-- The loop, with so many passes left. -/
def grow (factor cap : ℕ) : ℕ → ℕ → Except RetryDelayError ℕ
  | 0, exponential => .ok exponential
  | passes + 1, exponential => do
    let product ← multiply 64 exponential factor
    -- The break of the source.
    bif min (product / 1000) cap == cap then pure (min (product / 1000) cap)
    else grow factor cap passes (min (product / 1000) cap)

/-- The delay before the next attempt. -/
def retryDelayV1 (input : RetryDelayV1Input) : Except RetryDelayError UInt32 := do
  reject (!retryDelayInputIsValid input) (.reject .retryDelayInputInvalid)
  let cap := input.maxDelayMs.toNat
  let exponential ← grow input.factorMilli.toNat cap (input.completedAttemptOrdinal.toNat - 1)
    (min input.baseDelayMs.toNat cap)
  let product ← multiply 128 exponential input.multiplierMilli.toNat
  let jittered := UInt32.ofNat (max (min (product / 1000) cap) 1)
  return max jittered (input.validatedRetryAfterMs.getD 0)

/-! ### The recurrence -/

/-- One step of the recurrence. -/
def growStep (factor cap e : ℕ) : ℕ := min cap (e * factor / 1000)

/-- The exponential of an attempt: the base for the first one, and a step for each later one. -/
def exponentialAt (input : RetryDelayV1Input) (ordinal : ℕ) : ℕ :=
  (growStep input.factorMilli.toNat input.maxDelayMs.toNat)^[ordinal - 1] input.baseDelayMs.toNat

/-- The exponential with the jitter, between 1 and the cap. -/
def jitteredAt (input : RetryDelayV1Input) (ordinal : ℕ) : ℕ :=
  max 1 (min input.maxDelayMs.toNat
    (exponentialAt input ordinal * input.multiplierMilli.toNat / 1000))

/-- The delay that the provider asked for, zero where it did not. -/
def requestedDelay (input : RetryDelayV1Input) : ℕ := (input.validatedRetryAfterMs.getD 0).toNat

section Recurrence

variable {factor cap : ℕ}

theorem growStep_monotone : Monotone (growStep factor cap) := by
  intro e e' h
  exact min_le_min_left cap (Nat.div_le_div_right (Nat.mul_le_mul_right factor h))

theorem growStep_le (e : ℕ) : growStep factor cap e ≤ cap := min_le_left _ _

theorem le_growStep (hfactor : 1000 ≤ factor) {e : ℕ} (h : e ≤ cap) :
    e ≤ growStep factor cap e := by
  refine le_min h ?_
  rw [Nat.le_div_iff_mul_le (by omega)]
  exact Nat.mul_le_mul_left e hfactor

theorem growStep_cap (hfactor : 1000 ≤ factor) : growStep factor cap cap = cap :=
  le_antisymm (growStep_le cap) (le_growStep hfactor le_rfl)

theorem iterate_le {e : ℕ} (h : e ≤ cap) (n : ℕ) : (growStep factor cap)^[n] e ≤ cap := by
  cases n with
  | zero => exact h
  | succ n =>
    rw [Function.iterate_succ_apply']
    exact growStep_le _

/-- The break changes nothing: the cap is a fixed point of the recurrence. -/
theorem grow_eq (hfactor : 1000 ≤ factor) (hfits : cap * factor < 2 ^ 64) (passes : ℕ) {e : ℕ}
    (h : e ≤ cap) : grow factor cap passes e = .ok ((growStep factor cap)^[passes] e) := by
  induction passes generalizing e with
  | zero => rfl
  | succ passes ih =>
    have hproduct : multiply 64 e factor = .ok (e * factor) :=
      if_pos (lt_of_le_of_lt (Nat.mul_le_mul_right factor h) hfits)
    have hstep : min (e * factor / 1000) cap = growStep factor cap e := min_comm _ _
    rw [grow, hproduct, Function.iterate_succ_apply]
    simp only [bind, Except.bind, hstep]
    by_cases hcap : growStep factor cap e = cap
    · rw [hcap, Function.iterate_fixed (growStep_cap hfactor), beq_self_eq_true, cond_true]
      rfl
    · rw [beq_false_of_ne hcap, cond_false]
      exact ih (growStep_le e)

end Recurrence

/-! ### The delay -/

/-- What the check says about the scalars. -/
theorem valid_bounds {input : RetryDelayV1Input} (h : retryDelayInputIsValid input = true) :
    (1000 ≤ input.baseDelayMs.toNat ∧ input.baseDelayMs.toNat ≤ input.maxDelayMs.toNat) ∧
      (1000 < input.factorMilli.toNat ∧ input.factorMilli.toNat ≤ 16000) ∧
      input.maxDelayMs.toNat ≤ 3600000 ∧
      (1 ≤ input.completedAttemptOrdinal.toNat ∧ input.completedAttemptOrdinal.toNat ≤ 1023) ∧
      (500 ≤ input.multiplierMilli.toNat ∧ input.multiplierMilli.toNat ≤ 1500) := by
  simp only [retryDelayInputIsValid, Bool.and_eq_true, decide_eq_true_eq, UInt32.le_iff_toNat_le,
    UInt16.le_iff_toNat_le] at h
  obtain ⟨⟨⟨⟨⟨hbase, hfactor⟩, hcap⟩, hordinal⟩, hmultiplier⟩, -⟩ := h
  exact ⟨⟨hbase.1, hcap.1⟩, hfactor, hcap.2, hordinal, hmultiplier⟩

/-- The exponential stays between the base and the cap, and does not decrease. -/
theorem exponentialAt_bounds {input : RetryDelayV1Input} (h : retryDelayInputIsValid input = true)
    (ordinal : ℕ) : input.baseDelayMs.toNat ≤ exponentialAt input ordinal ∧
      exponentialAt input ordinal ≤ input.maxDelayMs.toNat := by
  obtain ⟨hbase, hfactor, -⟩ := valid_bounds h
  have hgrows := growStep_monotone.monotone_iterate_of_le_map
    (le_growStep hfactor.1.le hbase.2)
  exact ⟨hgrows (Nat.zero_le (ordinal - 1)), iterate_le hbase.2 _⟩

theorem exponentialAt_monotone {input : RetryDelayV1Input}
    (h : retryDelayInputIsValid input = true) : Monotone (exponentialAt input) := by
  obtain ⟨hbase, hfactor, -⟩ := valid_bounds h
  intro n n' hn
  exact growStep_monotone.monotone_iterate_of_le_map (le_growStep hfactor.1.le hbase.2)
    (Nat.sub_le_sub_right hn 1)

theorem jitteredAt_bounds {input : RetryDelayV1Input} (h : retryDelayInputIsValid input = true)
    (ordinal : ℕ) : 1 ≤ jitteredAt input ordinal ∧
      jitteredAt input ordinal ≤ input.maxDelayMs.toNat := by
  obtain ⟨hbase, -⟩ := valid_bounds h
  exact ⟨le_max_left _ _, max_le (by omega) (min_le_left _ _)⟩

/-- Every product that the calculation makes fits its type. -/
def ProductsFit (input : RetryDelayV1Input) : Prop :=
  (∀ ordinal, exponentialAt input ordinal * input.factorMilli.toNat < 2 ^ 64) ∧
    (∀ ordinal, exponentialAt input ordinal * input.multiplierMilli.toNat < 2 ^ 128) ∧
    ∀ ordinal, jitteredAt input ordinal < 2 ^ 32

theorem productsFit {input : RetryDelayV1Input} (h : retryDelayInputIsValid input = true) :
    ProductsFit input := by
  obtain ⟨-, hfactor, hcap, -, hmultiplier⟩ := valid_bounds h
  refine ⟨fun ordinal => ?_, fun ordinal => ?_, fun ordinal => ?_⟩
  · have hle := Nat.mul_le_mul (exponentialAt_bounds h ordinal).2 hfactor.2
    omega
  · have hle := Nat.mul_le_mul (exponentialAt_bounds h ordinal).2 hmultiplier.2
    omega
  · have hle := (jitteredAt_bounds h ordinal).2
    omega

/-- The delay of a valid input. -/
theorem retryDelayV1_of_valid {input : RetryDelayV1Input}
    (h : retryDelayInputIsValid input = true) :
    ∃ delay, retryDelayV1 input = .ok delay ∧
      delay.toNat = max (jitteredAt input input.completedAttemptOrdinal.toNat)
        (requestedDelay input) := by
  obtain ⟨hbase, hfactor, hcap, -, -⟩ := valid_bounds h
  obtain ⟨-, hproduct, hresult⟩ := productsFit h
  have hfits : input.maxDelayMs.toNat * input.factorMilli.toNat < 2 ^ 64 := by
    have hle := Nat.mul_le_mul hcap hfactor.2
    omega
  have hgrow : grow input.factorMilli.toNat input.maxDelayMs.toNat
      (input.completedAttemptOrdinal.toNat - 1) input.baseDelayMs.toNat =
      .ok (exponentialAt input input.completedAttemptOrdinal.toNat) :=
    grow_eq hfactor.1.le hfits _ hbase.2
  have hjitter := hproduct input.completedAttemptOrdinal.toNat
  have hcast := hresult input.completedAttemptOrdinal.toNat
  refine ⟨max (UInt32.ofNat (jitteredAt input input.completedAttemptOrdinal.toNat))
    (input.validatedRetryAfterMs.getD 0), ?_, ?_⟩
  · have hjittered : max (min (exponentialAt input input.completedAttemptOrdinal.toNat *
          input.multiplierMilli.toNat / 1000) input.maxDelayMs.toNat) 1 =
        jitteredAt input input.completedAttemptOrdinal.toNat := by
      rw [min_comm, max_comm]
      rfl
    simp only [retryDelayV1, min_eq_left hbase.2]
    refine bind_eq_ok.2 ⟨(), reject_eq_ok.2 (by rw [h]; rfl), bind_eq_ok.2 ⟨_, hgrow,
      bind_eq_ok.2 ⟨_, if_pos hjitter, ?_⟩⟩⟩
    rw [hjittered]
    rfl
  · rw [UInt32.toNat_max, UInt32.toNat_ofNat_of_lt' hcast]
    rfl

/-- Two inputs with one policy, the second with a later attempt, a greater multiplier and a longer
requested delay (or equal ones). -/
def Grows (input input' : RetryDelayV1Input) : Prop :=
  input'.baseDelayMs = input.baseDelayMs ∧ input'.factorMilli = input.factorMilli ∧
    input'.maxDelayMs = input.maxDelayMs ∧
    input.completedAttemptOrdinal ≤ input'.completedAttemptOrdinal ∧
    input.multiplierMilli ≤ input'.multiplierMilli ∧
    requestedDelay input ≤ requestedDelay input'

theorem jitteredAt_le {input input' : RetryDelayV1Input} (h : retryDelayInputIsValid input = true)
    (hgrows : Grows input input') : jitteredAt input input.completedAttemptOrdinal.toNat ≤
      jitteredAt input' input'.completedAttemptOrdinal.toNat := by
  obtain ⟨hbase, hfactor, hcap, hordinal, hmultiplier, -⟩ := hgrows
  have hsame : exponentialAt input' = exponentialAt input := by
    funext ordinal
    rw [exponentialAt, exponentialAt, hbase, hfactor, hcap]
  have hexponential := exponentialAt_monotone h (UInt16.le_iff_toNat_le.1 hordinal)
  unfold jitteredAt
  rw [hsame, hcap]
  apply max_le_max_left
  apply min_le_min_left
  exact Nat.div_le_div_right
    (Nat.mul_le_mul hexponential (UInt16.le_iff_toNat_le.1 hmultiplier))

/-- The delay of every valid input is that of the recurrence run to the end; no product overflows;
the delay is bounded, and grows with the attempt, the multiplier and the requested delay.  Other
inputs are rejected. -/
theorem retryDelayV1_spec (input : RetryDelayV1Input) :
    (retryDelayInputIsValid input = true →
      ∃ delay, retryDelayV1 input = .ok delay ∧
        delay.toNat = max (jitteredAt input input.completedAttemptOrdinal.toNat)
          (requestedDelay input) ∧
        ProductsFit input ∧
        1 ≤ delay.toNat ∧ delay.toNat ≤ max input.maxDelayMs.toNat (requestedDelay input) ∧
        ∀ input', retryDelayInputIsValid input' = true → Grows input input' →
          ∃ delay', retryDelayV1 input' = .ok delay' ∧ delay ≤ delay') ∧
    (retryDelayInputIsValid input = false →
      retryDelayV1 input = .error (.reject .retryDelayInputInvalid)) := by
  constructor
  · intro h
    obtain ⟨delay, hdelay, hvalue⟩ := retryDelayV1_of_valid h
    obtain ⟨hlow, hhigh⟩ := jitteredAt_bounds h input.completedAttemptOrdinal.toNat
    refine ⟨delay, hdelay, hvalue, productsFit h, ?_, ?_, ?_⟩
    · rw [hvalue]
      exact hlow.trans (le_max_left _ _)
    · rw [hvalue]
      exact max_le_max_right _ hhigh
    · intro input' h' hgrows
      obtain ⟨delay', hdelay', hvalue'⟩ := retryDelayV1_of_valid h'
      refine ⟨delay', hdelay', ?_⟩
      rw [UInt32.le_iff_toNat_le, hvalue, hvalue']
      exact max_le_max (jitteredAt_le h hgrows) hgrows.2.2.2.2.2
  · intro h
    rw [retryDelayV1, h]
    rfl

/-- A third attempt with the default policy. -/
def thirdAttempt : RetryDelayV1Input := ⟨1000, 2000, 900000, 3, 1250, none⟩

theorem retryDelayV1_thirdAttempt :
    (∃ delay, retryDelayV1 thirdAttempt = .ok delay ∧ delay.toNat = 5000 ∧
      ∃ delay', retryDelayV1 { thirdAttempt with validatedRetryAfterMs := some 30000 } =
        .ok delay' ∧ delay ≤ delay') ∧
    retryDelayV1 { thirdAttempt with factorMilli := 1000 } =
      .error (.reject .retryDelayInputInvalid) := by
  obtain ⟨delay, hdelay, hvalue, -, -, -, hgrows⟩ :=
    (retryDelayV1_spec thirdAttempt).1 (by decide)
  refine ⟨⟨delay, hdelay, hvalue.trans (by decide), hgrows _ (by decide) ?_⟩,
    (retryDelayV1_spec _).2 (by decide)⟩
  exact ⟨rfl, rfl, rfl, by decide, by decide, by decide⟩

end MsgRiver.Core
