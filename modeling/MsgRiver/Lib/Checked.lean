import Mathlib.Tactic.Common
import Mathlib.Tactic.NormNum

/-!
# Checked arithmetic on signed 64-bit integers

`checkedAdd` and `checkedSub` give the exact sum or difference when it is a signed 64-bit integer
and nothing otherwise.  Statements about them are made over `ℤ`, through `Int64.toInt`.
-/

namespace Checked

/-- The 64-bit integer with value `n`, when there is one. -/
def ofInt? (n : ℤ) : Option Int64 :=
  if -2 ^ 63 ≤ n ∧ n < 2 ^ 63 then some (Int64.ofInt n) else none

/-- Exact addition. -/
def checkedAdd (a b : Int64) : Option Int64 := ofInt? (a.toInt + b.toInt)

/-- Exact subtraction. -/
def checkedSub (a b : Int64) : Option Int64 := ofInt? (a.toInt - b.toInt)

theorem toInt_bounds (a : Int64) : -2 ^ 63 ≤ a.toInt ∧ a.toInt < 2 ^ 63 :=
  ⟨a.le_toInt, a.toInt_lt⟩

theorem ofInt?_eq_some {n : ℤ} {x : Int64} : ofInt? n = some x ↔ x.toInt = n := by
  unfold ofInt?
  constructor
  · intro h
    split_ifs at h with hn
    cases h
    exact Int64.toInt_ofInt_of_le hn.1 hn.2
  · rintro rfl
    rw [if_pos (toInt_bounds x), Int64.ofInt_toInt]

theorem ofInt?_eq_none {n : ℤ} : ofInt? n = none ↔ n < -2 ^ 63 ∨ 2 ^ 63 ≤ n := by
  unfold ofInt?
  split_ifs with h
  · simp only [false_iff]; omega
  · simp only [true_iff]; omega

end Checked
