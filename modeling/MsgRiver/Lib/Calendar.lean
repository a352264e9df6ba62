import Mathlib.Logic.Function.Iterate
import Mathlib.Tactic.Common
import Mathlib.Tactic.IntervalCases

/-!
# The Gregorian calendar

The proleptic calendar from 1 January of the year 0.  A date is one that exists; `Date.next` is the
day after it.

* `Date.count`: the days before a date, as a sum of the lengths of years and months;
* `Date.next_iterate_count`: the sum counts the days of the calendar one by one;
* `Date.after_iff`: so the distance of two dates is a difference of counts;
* `daysBeforeYear_eq`, `daysOfMonths_eq`: the sums in closed form.
-/

namespace Calendar

/-- The Gregorian rule. -/
def IsLeap (year : ℕ) : Prop := year % 4 = 0 ∧ (year % 100 ≠ 0 ∨ year % 400 = 0)

instance : DecidablePred IsLeap := fun year =>
  inferInstanceAs (Decidable (year % 4 = 0 ∧ (year % 100 ≠ 0 ∨ year % 400 = 0)))

/-- The days of a year. -/
def yearLength (year : ℕ) : ℕ := if IsLeap year then 366 else 365

/-- The length of a month, numbered from 1. -/
def monthLength (year month : ℕ) : ℕ :=
  if month = 2 then if IsLeap year then 29 else 28
  else if month = 4 ∨ month = 6 ∨ month = 9 ∨ month = 11 then 30
  else 31

/-- A date that exists. -/
@[ext] structure Date where
  year : ℕ
  month : ℕ
  day : ℕ
  month_bounds : 1 ≤ month ∧ month ≤ 12
  day_bounds : 1 ≤ day ∧ day ≤ monthLength year month

theorem monthLength_pos (year month : ℕ) : 1 ≤ monthLength year month := by
  unfold monthLength
  split_ifs <;> omega

theorem monthLength_le (year month : ℕ) : monthLength year month ≤ 31 := by
  unfold monthLength
  split_ifs <;> omega

/-- The first day of a month. -/
def monthStart (year month : ℕ) (h : 1 ≤ month ∧ month ≤ 12) : Date :=
  ⟨year, month, 1, h, le_rfl, monthLength_pos year month⟩

namespace Date

/-- The day after. -/
def next (d : Date) : Date :=
  if h : d.day < monthLength d.year d.month then
    ⟨d.year, d.month, d.day + 1, d.month_bounds, by omega, h⟩
  else if h : d.month < 12 then monthStart d.year (d.month + 1) (by omega)
  else monthStart (d.year + 1) 1 (by omega)

/-- 1 January of the year 0. -/
def first : Date := monthStart 0 1 (by omega)

/-- `b` is `n` days after `a`; the days in between are counted one by one. -/
def After (a b : Date) (n : ℤ) : Prop :=
  0 ≤ n ∧ next^[n.toNat] a = b ∨ n ≤ 0 ∧ next^[(-n).toNat] b = a

end Date

/-! ### Sums of lengths -/

/-- The days before a year. -/
def daysBeforeYear : ℕ → ℕ
  | 0 => 0
  | year + 1 => daysBeforeYear year + yearLength year

/-- The days of the first months of a year. -/
def daysOfMonths (year : ℕ) : ℕ → ℕ
  | 0 => 0
  | months + 1 => daysOfMonths year months + monthLength year (months + 1)

/-- The days before a date. -/
def Date.count (d : Date) : ℕ :=
  daysBeforeYear d.year + daysOfMonths d.year (d.month - 1) + (d.day - 1)

theorem daysOfMonths_twelve (year : ℕ) : daysOfMonths year 12 = yearLength year := by
  by_cases h : IsLeap year <;> simp [daysOfMonths, monthLength, yearLength, h]

theorem daysBeforeYear_eq (year : ℕ) :
    (daysBeforeYear year : ℤ) =
      365 * year + (year + 3) / 4 - (year + 99) / 100 + (year + 399) / 400 := by
  induction year with
  | zero => rfl
  | succ year ih =>
    rw [daysBeforeYear, Nat.cast_add, ih]
    by_cases h : IsLeap year
    · rw [yearLength, if_pos h]
      obtain ⟨hfour, hcentury⟩ := h
      push_cast
      omega
    · rw [yearLength, if_neg h]
      unfold IsLeap at h
      push_cast
      omega

/-- The days before a month: 153 days in five months from March on, as 31, 30, 31, 30 and 31. -/
theorem daysOfMonths_eq (year : ℕ) {month : ℕ} (h : 1 ≤ month ∧ month ≤ 12) :
    daysOfMonths year (month - 1) =
      if month ≤ 2 then (153 * (month + 9) + 2) / 5 - 306
      else (153 * (month - 3) + 2) / 5 + (if IsLeap year then 60 else 59) := by
  obtain ⟨hlow, hhigh⟩ := h
  by_cases hleap : IsLeap year <;> interval_cases month <;>
    simp [daysOfMonths, monthLength, hleap]

/-! ### Counting -/

namespace Date

theorem next_of_lt {d : Date} (h : d.day < monthLength d.year d.month) :
    d.next = ⟨d.year, d.month, d.day + 1, d.month_bounds, by omega, h⟩ := dif_pos h

theorem next_of_month {d : Date} (h : ¬ d.day < monthLength d.year d.month) (hm : d.month < 12) :
    d.next = monthStart d.year (d.month + 1) (by omega) := by
  rw [next, dif_neg h, dif_pos hm]

theorem next_of_year {d : Date} (h : ¬ d.day < monthLength d.year d.month) (hm : ¬ d.month < 12) :
    d.next = monthStart (d.year + 1) 1 (by omega) := by
  rw [next, dif_neg h, dif_neg hm]

/-- Later days of the same month. -/
theorem next_iterate_day {year month : ℕ} (hmonth : 1 ≤ month ∧ month ≤ 12) (k : ℕ)
    (h : k < monthLength year month) :
    next^[k] (monthStart year month hmonth) = ⟨year, month, k + 1, hmonth, by omega, h⟩ := by
  induction k with
  | zero => rfl
  | succ k ih =>
    rw [Function.iterate_succ_apply', ih (by omega)]
    exact next_of_lt h

theorem next_iterate_month {year month : ℕ} (hlow : 1 ≤ month) (hhigh : month < 12) :
    next^[monthLength year month] (monthStart year month (by omega)) =
      monthStart year (month + 1) (by omega) := by
  obtain ⟨k, hk⟩ := Nat.exists_eq_add_one_of_ne_zero (Nat.ne_of_gt (monthLength_pos year month))
  rw [hk, Function.iterate_succ_apply', next_iterate_day _ k (by omega)]
  exact next_of_month (by simp only; omega) hhigh

theorem next_iterate_december (year : ℕ) :
    next^[monthLength year 12] (monthStart year 12 (by omega)) =
      monthStart (year + 1) 1 (by omega) := by
  rw [show monthLength year 12 = 30 + 1 from rfl, Function.iterate_succ_apply',
    next_iterate_day _ 30 (by simp [monthLength])]
  exact next_of_year (by simp [monthLength]) (by simp)

theorem next_iterate_months (year : ℕ) {months : ℕ} (h : months < 12) :
    next^[daysOfMonths year months] (monthStart year 1 (by omega)) =
      monthStart year (months + 1) (by omega) := by
  induction months with
  | zero => rfl
  | succ months ih =>
    rw [daysOfMonths, Nat.add_comm, Function.iterate_add_apply, ih (by omega)]
    exact next_iterate_month (by omega) h

theorem next_iterate_years (year : ℕ) :
    next^[daysBeforeYear year] first = monthStart year 1 (by omega) := by
  induction year with
  | zero => rfl
  | succ year ih =>
    have hyear : yearLength year = monthLength year 12 + daysOfMonths year 11 := by
      rw [← daysOfMonths_twelve, daysOfMonths, Nat.add_comm]
    rw [daysBeforeYear, Nat.add_comm, Function.iterate_add_apply, ih, hyear,
      Function.iterate_add_apply, next_iterate_months year (by omega)]
    exact next_iterate_december year

/-- Every date is reached from the first one, after so many days. -/
theorem next_iterate_count (d : Date) : next^[d.count] first = d := by
  obtain ⟨year, month, day, hmonth, hday⟩ := d
  obtain ⟨m, rfl⟩ : ∃ m, month = m + 1 := ⟨month - 1, by omega⟩
  obtain ⟨k, rfl⟩ : ∃ k, day = k + 1 := ⟨day - 1, by omega⟩
  have hcount : count ⟨year, m + 1, k + 1, hmonth, hday⟩ =
      k + (daysOfMonths year m + daysBeforeYear year) := by
    simp only [count, Nat.add_sub_cancel]
    omega
  rw [hcount, Function.iterate_add_apply, Function.iterate_add_apply, next_iterate_years,
    next_iterate_months year (by omega)]
  exact next_iterate_day hmonth k (by omega)

/-- The day after is one more. -/
theorem count_next (d : Date) : d.next.count = d.count + 1 := by
  obtain ⟨year, month, day, hmonth, hday⟩ := d
  obtain ⟨m, rfl⟩ : ∃ m, month = m + 1 := ⟨month - 1, by omega⟩
  by_cases h : day < monthLength year (m + 1)
  · rw [next_of_lt h]
    simp only [count]
    omega
  have hlast : day = monthLength year (m + 1) := by omega
  by_cases hm : m + 1 < 12
  · rw [next_of_month h hm]
    simp only [count, monthStart, Nat.add_sub_cancel, daysOfMonths]
    omega
  · obtain rfl : m = 11 := by omega
    have hyear := daysOfMonths_twelve year
    rw [daysOfMonths] at hyear
    rw [next_of_year h hm]
    simp only [count, monthStart, Nat.sub_self, daysBeforeYear, daysOfMonths, Nat.add_sub_cancel]
      at hyear ⊢
    omega

theorem count_next_iterate (d : Date) (n : ℕ) : (next^[n] d).count = d.count + n := by
  induction n with
  | zero => rfl
  | succ n ih => rw [Function.iterate_succ_apply', count_next, ih, Nat.add_assoc]

theorem next_iterate_sub {a b : Date} (h : a.count ≤ b.count) : next^[b.count - a.count] a = b := by
  have hsum : b.count = (b.count - a.count) + a.count := by omega
  have hb := next_iterate_count b
  rw [hsum, Function.iterate_add_apply, next_iterate_count] at hb
  exact hb

/-- Two dates are as many days apart as their counts. -/
theorem after_iff {a b : Date} {n : ℤ} : After a b n ↔ n = b.count - a.count := by
  constructor
  · rintro (⟨hn, rfl⟩ | ⟨hn, rfl⟩) <;>
    · rw [count_next_iterate]
      omega
  · rintro rfl
    rcases Nat.le_total a.count b.count with h | h
    · refine Or.inl ⟨by omega, ?_⟩
      rw [show ((b.count : ℤ) - a.count).toNat = b.count - a.count by omega]
      exact next_iterate_sub h
    · refine Or.inr ⟨by omega, ?_⟩
      rw [show (-((b.count : ℤ) - a.count)).toNat = a.count - b.count by omega]
      exact next_iterate_sub h

end Date

end Calendar
