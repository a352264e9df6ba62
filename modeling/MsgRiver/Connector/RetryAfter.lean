import Mathlib.Tactic.LinearCombination
import MsgRiver.Lib.Bytes
import MsgRiver.Lib.Calendar
import MsgRiver.Lib.Checked
import MsgRiver.Lib.Decimal
import MsgRiver.Lib.Result

/-!
# Retry-After

`parse_retry_after` reads a delay in seconds, or a date of the form `Sun, 06 Nov 1994 08:49:37 GMT`.

An `Except Stop` computation stops where the source returns `None` (`ignored`) or would panic: at a
slice out of bounds, or at an unchecked operation whose value is no 64-bit integer.

* `epochMillis_of_date`: the days of a date are those that the calendar counts from 1 January 1970;
* `dateFields_eq_ok_iff`: the fields are those of the one text that has them;
* `parseRetryAfter_spec`: which texts give which delay.
-/

namespace MsgRiver.Connector.RetryAfter

open Ascii Bytes Result Calendar

/-- Why the reading of a header ends without a delay: it is ignored, or the code panics. -/
inductive Stop
  | ignored
  | arithmeticOverflow
  | outOfBounds
  deriving DecidableEq

/-- A checked operation with this exact value. -/
def checked (n : ℤ) : Except Stop ℤ :=
  if -2 ^ 63 ≤ n ∧ n < 2 ^ 63 then .ok n else .error .ignored

/-- Unchecked operations with these exact values. -/
def computed (values : List ℤ) : Except Stop Unit :=
  reject (!values.all fun n => -2 ^ 63 ≤ n && n < 2 ^ 63) .arithmeticOverflow

/-- `&bytes[a..b]`. -/
def sliceOf (bytes : List UInt8) (a b : ℕ) : Except Stop (List UInt8) :=
  if b ≤ bytes.length then .ok (slice bytes a b) else .error .outOfBounds

/-- A digit behind the value so far, which is not negative. -/
def addDigit (value : ℕ) (byte : UInt8) : Except Stop ℕ := do
  reject (byte < 0x30) .arithmeticOverflow
  reject (2 ^ 63 ≤ value * 10) .ignored
  reject (2 ^ 63 ≤ value * 10 + (byte - 0x30).toNat) .ignored
  return value * 10 + (byte - 0x30).toNat

/-- The value of a nonempty run of digits. -/
def digitsValue (bytes : List UInt8) : Except Stop ℕ := do
  reject (bytes.isEmpty || !bytes.all isDigit) .ignored
  bytes.foldlM addDigit 0

/-- The names of the days, from Monday on. -/
def weekdayNames : List (List UInt8) :=
  ["Mon", "Tue", "Wed", "Thu", "Fri", "Sat", "Sun"].map fun name => codes name.toList

/-- The names of the months. -/
def monthNames : List (List UInt8) :=
  ["Jan", "Feb", "Mar", "Apr", "May", "Jun", "Jul", "Aug", "Sep", "Oct", "Nov", "Dec"].map
    fun name => codes name.toList

/-- The arms of a match are numbered from 0. -/
def weekdayIndex (bytes : List UInt8) : Except Stop ℕ :=
  orError .ignored (weekdayNames.idxOf? bytes)

/-- The arms of a match are numbered from 1. -/
def monthNumber (bytes : List UInt8) : Except Stop ℕ :=
  orError .ignored ((monthNames.idxOf? bytes).map (· + 1))

/-- The Gregorian rule, on the truncated remainders of the source. -/
def isLeapYear (year : ℤ) : Bool :=
  year.tmod 4 == 0 && (year.tmod 100 != 0 || year.tmod 400 == 0)

/-- The days of a month, none for a number that names no month. -/
def daysInMonth (year month : ℤ) : ℤ :=
  if month ∈ [1, 3, 5, 7, 8, 10, 12] then 31
  else if month ∈ [4, 6, 9, 11] then 30
  else if month = 2 then if isLeapYear year then 29 else 28
  else 0

/-- The days since 1 January 1970, in the source a part of `epoch_millis`. -/
def civilDays (year month day : ℤ) : Except Stop ℤ := do
  let y := year - if month ≤ 2 then 1 else 0
  let shifted := if 0 ≤ y then y else y - 399
  let era := shifted.tdiv 400
  let yearOfEra := y - era * 400
  let monthFromMarch := if 2 < month then month - 3 else month + 9
  let monthDays := (153 * monthFromMarch + 2).tdiv 5
  let dayOfYear := monthDays + day - 1
  let yearDays := yearOfEra * 365 + yearOfEra.tdiv 4 - yearOfEra.tdiv 100
  let dayOfEra := yearDays + dayOfYear
  let days := era * 146097 + dayOfEra - 719468
  computed [y, shifted, era * 400, yearOfEra, monthFromMarch, 153 * monthFromMarch,
    153 * monthFromMarch + 2, monthDays + day, dayOfYear, yearOfEra * 365,
    yearOfEra * 365 + yearOfEra.tdiv 4, yearDays, dayOfEra, era * 146097,
    era * 146097 + dayOfEra, days, days + 3]
  return days

/-- The instant of a date in milliseconds, where the weekday agrees with the date. -/
def epochMillis (year month day hour minute second expectedWeekday : ℤ) : Except Stop ℤ := do
  let days ← civilDays year month day
  reject ((days + 3) % 7 != expectedWeekday) .ignored
  let midnight ← checked (days * 86400)
  computed [hour * 3600, minute * 60, hour * 3600 + minute * 60,
    hour * 3600 + minute * 60 + second]
  let seconds ← checked (midnight + (hour * 3600 + minute * 60 + second))
  checked (seconds * 1000)

/-- What the bytes of a date say; none of the numbers is negative. -/
structure DateFields where
  weekday : ℕ
  day : ℕ
  month : ℕ
  year : ℕ
  hour : ℕ
  minute : ℕ
  second : ℕ

/-- A part of the bytes, read in one of the ways below. -/
def part {α : Type} (read : List UInt8 → Except Stop α) (bytes : List UInt8) (a b : ℕ) :
    Except Stop α := do
  let bytes ← sliceOf bytes a b
  read bytes

/-- A fixed piece of text. -/
def expect (text : List Char) (bytes : List UInt8) : Except Stop Unit :=
  reject (bytes != codes text) .ignored

/-- The fields of a date, and then the bytes between them. -/
def dateFields (bytes : List UInt8) : Except Stop DateFields := do
  reject (bytes.length != 29) .ignored
  part (expect [',', ' ']) bytes 3 5
  let weekday ← part weekdayIndex bytes 0 3
  let day ← part digitsValue bytes 5 7
  let month ← part monthNumber bytes 8 11
  let year ← part digitsValue bytes 12 16
  let hour ← part digitsValue bytes 17 19
  let minute ← part digitsValue bytes 20 22
  let second ← part digitsValue bytes 23 25
  part (expect [' ']) bytes 7 8
  part (expect [' ']) bytes 11 12
  part (expect [' ']) bytes 16 17
  part (expect [':']) bytes 19 20
  part (expect [':']) bytes 22 23
  part (expect [' ']) bytes 25 26
  part (expect ['G', 'M', 'T']) bytes 26 bytes.length
  return ⟨weekday, day, month, year, hour, minute, second⟩

/-- `instant.checked_sub(now).filter(|delta| *delta > 0)`. -/
def strictlyLater (instant now : ℤ) : Except Stop ℤ := do
  let delta ← checked (instant - now)
  reject (delta ≤ 0) .ignored
  return delta

/-- The delay up to a date, which must lie in the future. -/
def futureDateMillis (bytes : List UInt8) (safeNowMillis : ℤ) : Except Stop ℤ := do
  let f ← dateFields bytes
  reject (23 < f.hour || 59 < f.minute || 60 < f.second || daysInMonth f.year f.month < f.day
    || f.day == 0) .ignored
  let instant ← epochMillis f.year f.month f.day f.hour f.minute f.second f.weekday
  strictlyLater instant safeNowMillis

/-- The delay of a number of seconds. -/
def deltaMillis (bytes : List UInt8) : Except Stop ℤ := do
  let seconds ← digitsValue bytes
  checked (seconds * 1000)

/-- `delay.clamp(1_000, 3_600_000) as u32`. -/
def clamped (delay : ℤ) : UInt32 := UInt32.ofNat (max 1000 (min delay 3600000)).toNat

/-- The delay, or none; the error of the source is never used. -/
def parseRetryAfter (headerValue : String) (safeNowMillis : Int64) : Except Stop (Option UInt32) :=
  let millis := match deltaMillis (utf8Bytes headerValue) with
    | .error .ignored => futureDateMillis (utf8Bytes headerValue) safeNowMillis.toInt
    | other => other
  match millis with
  | .ok delay => .ok (some (clamped delay))
  | .error .ignored => .ok none
  | .error fault => .error fault

/-! ### Digits and names -/

theorem addDigit_eq {b : UInt8} (h : isDigit b = true) (value : ℕ) :
    addDigit value b = if 10 * value + (b.toNat - 48) < 2 ^ 63
      then .ok (10 * value + (b.toNat - 48)) else .error .ignored := by
  rw [isDigit_iff] at h
  have hle : (0x30 : UInt8) ≤ b := UInt8.le_iff_toNat_le.2 h.1
  have hlow : ¬ b < 0x30 := by
    rw [UInt8.lt_iff_toNat_lt]
    exact Nat.not_lt.2 h.1
  have hdigit : (b - 0x30).toNat = b.toNat - 48 := UInt8.toNat_sub_of_le _ _ hle
  rw [addDigit, hdigit, decide_eq_false hlow, Nat.mul_comm value 10]
  by_cases hsum : 10 * value + (b.toNat - 48) < 2 ^ 63
  · rw [if_pos hsum, decide_eq_false (by omega), decide_eq_false (Nat.not_le.2 hsum)]
    rfl
  · rw [if_neg hsum, decide_eq_true (Nat.not_lt.1 hsum)]
    by_cases htens : 2 ^ 63 ≤ 10 * value
    · rw [decide_eq_true htens]
      rfl
    · rw [decide_eq_false htens]
      rfl

theorem le_foldl_digits (bs : List UInt8) (value : ℕ) :
    value ≤ bs.foldl (fun n b => 10 * n + (b.toNat - 48)) value := by
  induction bs generalizing value with
  | nil => exact le_rfl
  | cons b bs ih =>
    have hle := ih (10 * value + (b.toNat - 48))
    rw [List.foldl_cons]
    omega

/-- The value so far fits when the whole value does. -/
theorem foldlM_addDigit {bs : List UInt8} (h : bs.all isDigit = true) {value : ℕ}
    (hvalue : value < 2 ^ 63) :
    bs.foldlM addDigit value =
      if bs.foldl (fun n b => 10 * n + (b.toNat - 48)) value < 2 ^ 63
      then .ok (bs.foldl (fun n b => 10 * n + (b.toNat - 48)) value) else .error .ignored := by
  induction bs generalizing value with
  | nil => exact (if_pos hvalue).symm
  | cons b bs ih =>
    rw [List.all_cons, Bool.and_eq_true] at h
    rw [List.foldlM_cons, addDigit_eq h.1, List.foldl_cons]
    have hle := le_foldl_digits bs (10 * value + (b.toNat - 48))
    by_cases hfits : 10 * value + (b.toNat - 48) < 2 ^ 63
    · rw [if_pos hfits]
      exact ih h.2 hfits
    · rw [if_neg hfits, if_neg (by omega)]
      rfl

theorem digitsValue_eq (bs : List UInt8) :
    digitsValue bs = if bs ≠ [] ∧ bs.all isDigit = true ∧ decimalValue bs < 2 ^ 63
      then .ok (decimalValue bs) else .error .ignored := by
  unfold digitsValue
  by_cases hguard : (bs.isEmpty || !bs.all isDigit) = true
  · rw [hguard, if_neg]
    · rfl
    · rintro ⟨hne, hall, -⟩
      simp [hne, hall] at hguard
  · rw [Bool.not_eq_true] at hguard
    obtain ⟨hne, hall⟩ : bs ≠ [] ∧ bs.all isDigit = true := by
      simpa only [Bool.or_eq_false_iff, List.isEmpty_eq_false_iff, Bool.not_eq_false'] using hguard
    have hread : bs.foldlM addDigit 0 = if decimalValue bs < 2 ^ 63
        then .ok (decimalValue bs) else .error .ignored := foldlM_addDigit hall (by decide)
    rw [hguard]
    refine Eq.trans hread ?_
    by_cases hfits : decimalValue bs < 2 ^ 63
    · rw [if_pos hfits, if_pos ⟨hne, hall, hfits⟩]
    · rw [if_neg hfits, if_neg fun h => hfits h.2.2]

/-- So many digits, at most 18. -/
theorem digitsValue_eq_ok_iff {bs : List UInt8} {w n : ℕ} (hlength : bs.length = w)
    (hw : 0 < w ∧ w ≤ 18) :
    digitsValue bs = .ok n ↔ n < 10 ^ w ∧ bs = decimalDigits w n := by
  rw [digitsValue_eq]
  constructor
  · intro h
    split_ifs at h with hfits
    cases h
    subst hlength
    exact ⟨decimalValue_lt hfits.2.1, (decimalDigits_decimalValue hfits.2.1).symm⟩
  · rintro ⟨hn, rfl⟩
    have hvalue : decimalValue (decimalDigits w n) = n := by
      rw [decimalValue_decimalDigits, Nat.mod_eq_of_lt hn]
    have hne : decimalDigits w n ≠ [] := by
      intro hnil
      rw [hnil] at hlength
      exact hw.1.ne hlength
    have hpow : 10 ^ w ≤ 10 ^ 18 := Nat.pow_le_pow_right (by decide) hw.2
    rw [hvalue, if_pos ⟨hne, all_isDigit_decimalDigits w n, by omega⟩]

theorem idxOf?_eq_some {names : List (List UInt8)} (h : names.Nodup) {name : List UInt8} {i : ℕ} :
    names.idxOf? name = some i ↔ i < names.length ∧ name = names.getD i [] := by
  have hget : ∀ hi : i < names.length, names.getD i [] = names[i] := by
    intro hi
    rw [List.getD_eq_getElem?_getD, List.getElem?_eq_getElem hi]
    rfl
  rw [List.idxOf?_eq_some_iff]
  constructor
  · rintro ⟨hi, rfl, -⟩
    exact ⟨hi, (hget hi).symm⟩
  · rintro ⟨hi, rfl⟩
    rw [hget hi]
    refine ⟨hi, rfl, ?_⟩
    intro j hj heq
    have hsame := (List.Nodup.getElem_inj_iff h).1 heq
    omega

theorem weekdayNames_nodup : weekdayNames.Nodup := by decide +kernel

theorem monthNames_nodup : monthNames.Nodup := by decide +kernel

theorem weekdayIndex_eq_ok_iff {bs : List UInt8} {i : ℕ} :
    weekdayIndex bs = .ok i ↔ i < 7 ∧ bs = weekdayNames.getD i [] := by
  rw [weekdayIndex, orError_eq_ok, idxOf?_eq_some weekdayNames_nodup]
  rfl

theorem monthNumber_eq_ok_iff {bs : List UInt8} {month : ℕ} :
    monthNumber bs = .ok month ↔
      (1 ≤ month ∧ month ≤ 12) ∧ bs = monthNames.getD (month - 1) [] := by
  rw [monthNumber, orError_eq_ok, Option.map_eq_some_iff]
  constructor
  · rintro ⟨i, hi, rfl⟩
    obtain ⟨hlt, rfl⟩ := (idxOf?_eq_some monthNames_nodup).1 hi
    exact ⟨⟨by omega, hlt⟩, rfl⟩
  · rintro ⟨hmonth, rfl⟩
    refine ⟨month - 1, (idxOf?_eq_some monthNames_nodup).2 ⟨?_, rfl⟩, by omega⟩
    have hlength : monthNames.length = 12 := rfl
    omega

/-! ### Days -/

theorem isLeapYear_iff (year : ℕ) : isLeapYear year = true ↔ IsLeap year := by
  simp only [isLeapYear, IsLeap, Int.tmod_eq_emod_of_nonneg (Int.natCast_nonneg year),
    Bool.and_eq_true, Bool.or_eq_true, beq_iff_eq, bne_iff_ne]
  omega

theorem daysInMonth_eq (year : ℕ) {month : ℕ} (h : 1 ≤ month ∧ month ≤ 12) :
    daysInMonth year month = monthLength year month := by
  obtain ⟨hlow, hhigh⟩ := h
  by_cases hleap : IsLeap year
  · have hcode := (isLeapYear_iff year).2 hleap
    interval_cases month <;> simp [daysInMonth, monthLength, hcode, hleap]
  · have hcode : isLeapYear year = false := by
      rw [Bool.eq_false_iff]
      exact fun h => hleap ((isLeapYear_iff year).1 h)
    interval_cases month <;> simp [daysInMonth, monthLength, hcode, hleap]

theorem january_isMonth : 1 ≤ 1 ∧ 1 ≤ 12 := by omega

/-- 1 January 1970. -/
def epoch : Date := monthStart 1970 1 january_isMonth

/-- The days from 1 January 1970 to a date. -/
def daysSinceEpoch (d : Date) : ℤ := d.count - epoch.count

theorem count_epoch : epoch.count = 719528 := by
  have hyear := daysBeforeYear_eq 1970
  have hmonths : daysOfMonths 1970 (1 - 1) = 0 := rfl
  simp only [epoch, Date.count, monthStart]
  omega

theorem computed_ok {values : List ℤ} (h : ∀ n ∈ values, -2 ^ 63 ≤ n ∧ n < 2 ^ 63) :
    computed values = .ok () := by
  have hall : (values.all fun n => -2 ^ 63 ≤ n && n < 2 ^ 63) = true := by
    rw [List.all_eq_true]
    intro n hn
    simpa using h n hn
  rw [computed, hall]
  rfl

/-- The quotient of the source, which rounds to zero, is the greatest integer below. -/
theorem era_eq {y : ℤ} : (if 0 ≤ y then y else y - 399).tdiv 400 = y / 400 := by
  by_cases h : 0 ≤ y
  · rw [if_pos h, Int.tdiv_eq_ediv_of_nonneg h]
  · have hsign : Int.sign 400 = 1 := rfl
    rw [if_neg h, Int.tdiv_eq_ediv, hsign]
    split_ifs <;> omega

/-- The days before the years of an era and the years in it. -/
theorem era_days (y : ℤ) : y / 400 * 146097 + (y % 400 * 365 + y % 400 / 4 - y % 400 / 100) =
    365 * y + y / 4 - y / 100 + y / 400 := by
  omega

/-- The year of a date, when years begin in March. -/
def marchYear (d : Date) : ℤ := (d.year : ℤ) - if (d.month : ℤ) ≤ 2 then 1 else 0

/-- The number of a month in a year that starts with March. -/
def marchMonth (d : Date) : ℤ := if 2 < (d.month : ℤ) then (d.month : ℤ) - 3 else (d.month : ℤ) + 9

/-- The leap day of a year comes before March, or not at all. -/
theorem leap_days (year : ℕ) : ((year : ℤ) + 3) / 4 - (year + 99) / 100 + (year + 399) / 400 +
    (if IsLeap year then 60 else 59) = year / 4 - year / 100 + year / 400 + 60 := by
  have hfour : ((year : ℤ) + 3) / 4 = year / 4 + if year % 4 = 0 then 0 else 1 := by
    split_ifs <;> omega
  have hcentury : ((year : ℤ) + 99) / 100 = year / 100 + if year % 100 = 0 then 0 else 1 := by
    split_ifs <;> omega
  have hera : ((year : ℤ) + 399) / 400 = year / 400 + if year % 400 = 0 then 0 else 1 := by
    split_ifs <;> omega
  have hfour_of : year % 100 = 0 → year % 4 = 0 := by omega
  have hcentury_of : year % 400 = 0 → year % 100 = 0 := by omega
  rw [hfour, hcentury, hera]
  unfold IsLeap
  generalize (year : ℤ) / 4 = a
  generalize (year : ℤ) / 100 = b
  generalize (year : ℤ) / 400 = c
  by_cases h4 : year % 4 = 0 <;> by_cases h100 : year % 100 = 0 <;>
    by_cases h400 : year % 400 = 0 <;> simp [h4, h100, h400] at hfour_of hcentury_of ⊢ <;> ring

theorem count_cast (d : Date) : (d.count : ℤ) =
    daysBeforeYear d.year + daysOfMonths d.year (d.month - 1) + (d.day - 1) := by
  have hday := d.day_bounds.1
  rw [Date.count]
  push_cast [Nat.cast_sub hday]
  ring

/-- The days of the calendar, with years that begin in March. -/
theorem count_eq (d : Date) : (d.count : ℤ) - 719528 =
    365 * marchYear d + marchYear d / 4 - marchYear d / 100 + marchYear d / 400 +
      ((153 * marchMonth d + 2) / 5 + d.day - 1) - 719468 := by
  have hmonth := daysOfMonths_eq d.year d.month_bounds
  have hbounds := d.month_bounds
  rw [count_cast, daysBeforeYear_eq]
  unfold marchYear marchMonth
  by_cases hlow : d.month ≤ 2
  · have hmonths : (daysOfMonths d.year (d.month - 1) : ℤ) =
      (153 * (d.month + 9) + 2) / 5 - 306 := by
      rw [if_pos hlow] at hmonth
      omega
    have hfour : ((d.year : ℤ) + 3) / 4 = (d.year - 1) / 4 + 1 := by omega
    have hcentury : ((d.year : ℤ) + 99) / 100 = (d.year - 1) / 100 + 1 := by omega
    have hera : ((d.year : ℤ) + 399) / 400 = (d.year - 1) / 400 + 1 := by omega
    rw [if_pos (by omega), if_neg (by omega), hmonths, hfour, hcentury, hera]
    ring
  · have hmonths : (daysOfMonths d.year (d.month - 1) : ℤ) =
        (153 * (d.month - 3) + 2) / 5 + if IsLeap d.year then 60 else 59 := by
      rw [hmonth, if_neg hlow]
      split_ifs <;> omega
    have hleap := leap_days d.year
    rw [if_neg (by omega), if_pos (by omega), hmonths, sub_zero]
    linear_combination hleap

/-- Numbers of moderate size. -/
theorem computed_of_small {values : List ℤ} (h : ∀ n ∈ values, -10 ^ 9 ≤ n ∧ n ≤ 10 ^ 9) :
    computed values = .ok () := by
  apply computed_ok
  intro n hn
  have hsmall := h n hn
  omega

theorem marchYear_bounds {d : Date} (h : d.year ≤ 9999) :
    -1 ≤ marchYear d ∧ marchYear d ≤ 9999 := by
  unfold marchYear
  split_ifs <;> omega

theorem marchMonth_bounds (d : Date) : 0 ≤ marchMonth d ∧ marchMonth d ≤ 11 := by
  have hmonth := d.month_bounds
  unfold marchMonth
  split_ifs <;> omega

/-- The values on the way, from the year and the month that begin in March. -/
theorem civil_fits {y m day : ℤ} (hy : -1 ≤ y ∧ y ≤ 9999) (hm : 0 ≤ m ∧ m ≤ 11)
    (hday : 1 ≤ day ∧ day ≤ 31) :
    computed [y, if 0 ≤ y then y else y - 399, y / 400 * 400, y % 400, m, 153 * m, 153 * m + 2,
      (153 * m + 2) / 5 + day, (153 * m + 2) / 5 + day - 1, y % 400 * 365,
      y % 400 * 365 + y % 400 / 4, y % 400 * 365 + y % 400 / 4 - y % 400 / 100,
      y % 400 * 365 + y % 400 / 4 - y % 400 / 100 + ((153 * m + 2) / 5 + day - 1),
      y / 400 * 146097,
      y / 400 * 146097 +
        (y % 400 * 365 + y % 400 / 4 - y % 400 / 100 + ((153 * m + 2) / 5 + day - 1)),
      y / 400 * 146097 +
        (y % 400 * 365 + y % 400 / 4 - y % 400 / 100 + ((153 * m + 2) / 5 + day - 1)) - 719468,
      y / 400 * 146097 +
        (y % 400 * 365 + y % 400 / 4 - y % 400 / 100 + ((153 * m + 2) / 5 + day - 1)) - 719468 + 3] =
      .ok () := by
  have hshifted : -400 ≤ (if 0 ≤ y then y else y - 399) ∧
      (if 0 ≤ y then y else y - 399) ≤ 9999 := by
    split_ifs <;> omega
  have hera : -1 ≤ y / 400 ∧ y / 400 ≤ 24 := by omega
  have hage : 0 ≤ y % 400 ∧ y % 400 ≤ 399 := by omega
  have hfour : 0 ≤ y % 400 / 4 ∧ y % 400 / 4 ≤ 99 := by omega
  have hcentury : 0 ≤ y % 400 / 100 ∧ y % 400 / 100 ≤ 3 := by omega
  have hdays : 0 ≤ (153 * m + 2) / 5 ∧ (153 * m + 2) / 5 ≤ 337 := by omega
  generalize (if 0 ≤ y then y else y - 399) = shifted at *
  generalize y % 400 / 4 = four at *
  generalize y % 400 / 100 = century at *
  generalize y % 400 = age at *
  generalize y / 400 = era at *
  generalize (153 * m + 2) / 5 = days at *
  apply computed_of_small
  simp only [List.forall_mem_cons, List.not_mem_nil, false_implies, implies_true, and_true]
  omega

/-- **The days of a date**: what the source computes is what the calendar counts. -/
theorem civilDays_of_date {d : Date} (h : d.year ≤ 9999) :
    civilDays d.year d.month d.day = .ok (daysSinceEpoch d) := by
  have hday := d.day_bounds
  have hlength := monthLength_le d.year d.month
  have hyear := marchYear_bounds h
  have hmonth := marchMonth_bounds d
  have hfits := @civil_fits (marchYear d) (marchMonth d) d.day hyear hmonth (by omega)
  have hage : marchYear d - marchYear d / 400 * 400 = marchYear d % 400 := by
    clear hfits
    omega
  have hnonneg : 0 ≤ marchYear d % 400 := Int.emod_nonneg _ (by decide)
  have hsum : 0 ≤ 153 * marchMonth d + 2 := by
    clear hfits
    omega
  have hdays : marchYear d / 400 * 146097 + (marchYear d % 400 * 365 + marchYear d % 400 / 4 -
      marchYear d % 400 / 100 + ((153 * marchMonth d + 2) / 5 + d.day - 1)) - 719468 =
      daysSinceEpoch d := by
    have hera := era_days (marchYear d)
    have hcount := count_eq d
    rw [daysSinceEpoch, count_epoch]
    clear hfits
    omega
  have hy : ((d.year : ℤ) - if (d.month : ℤ) ≤ 2 then 1 else 0) = marchYear d := rfl
  have hm : (if 2 < (d.month : ℤ) then (d.month : ℤ) - 3 else (d.month : ℤ) + 9) = marchMonth d :=
      rfl
  unfold civilDays
  simp only [hy, hm, era_eq, hage, Int.tdiv_eq_ediv_of_nonneg hnonneg,
    Int.tdiv_eq_ediv_of_nonneg hsum]
  rw [hfits]
  exact congrArg Except.ok hdays

/-- The day of the week, numbered from 0 for Monday; 1 January 1970 was a Thursday. -/
def weekday (d : Date) : ℕ := (d.count + 5) % 7

theorem weekday_epoch : weekday epoch = 3 := by
  rw [weekday, count_epoch]

theorem weekday_next (d : Date) : weekday d.next = (weekday d + 1) % 7 := by
  rw [weekday, weekday, Date.count_next]
  omega

/-- The instant of a time of day, in milliseconds since 1 January 1970. -/
def instant (d : Date) (hour minute second : ℕ) : ℤ :=
  daysSinceEpoch d * 86400000 + (hour * 3600 + minute * 60 + second) * 1000

theorem checked_ok {n : ℤ} (h : -2 ^ 63 ≤ n ∧ n < 2 ^ 63) : checked n = .ok n := if_pos h

theorem daysSinceEpoch_bounds {d : Date} (h : d.year ≤ 9999) :
    -10 ^ 7 ≤ daysSinceEpoch d ∧ daysSinceEpoch d ≤ 10 ^ 7 := by
  have hyear : (daysBeforeYear d.year : ℤ) ≤ 366 * 10000 := by
    rw [daysBeforeYear_eq]
    omega
  have hmonth := daysOfMonths_eq d.year d.month_bounds
  have hbounds := d.month_bounds
  have hday := d.day_bounds
  have hlength := monthLength_le d.year d.month
  have hcast := count_cast d
  rw [daysSinceEpoch, count_epoch]
  split_ifs at hmonth <;> omega

/-- **The instant of a date**, when its day of the week is the given one. -/
theorem epochMillis_of_date {d : Date} (h : d.year ≤ 9999) {hour minute second : ℕ}
    (hhour : hour ≤ 23) (hminute : minute ≤ 59) (hsecond : second ≤ 60) (expected : ℕ) :
    epochMillis d.year d.month d.day hour minute second expected =
      if weekday d = expected then .ok (instant d hour minute second) else .error .ignored := by
  have hbounds := daysSinceEpoch_bounds h
  have hweekday : (daysSinceEpoch d + 3) % 7 = (weekday d : ℤ) := by
    rw [daysSinceEpoch, count_epoch, weekday]
    omega
  by_cases hsame : weekday d = expected
  · have hguard : ((daysSinceEpoch d + 3) % 7 != (expected : ℤ)) = false := by
      rw [hweekday, hsame, bne_self_eq_false]
    have hmidnight := @checked_ok (daysSinceEpoch d * 86400) (by omega)
    have htime : computed [(hour : ℤ) * 3600, minute * 60, hour * 3600 + minute * 60,
        hour * 3600 + minute * 60 + second] = .ok () := by
      apply computed_of_small
      simp only [List.forall_mem_cons, List.not_mem_nil, false_implies, implies_true, and_true]
      omega
    have hseconds := @checked_ok
      (daysSinceEpoch d * 86400 + (hour * 3600 + minute * 60 + second)) (by omega)
    have hmillis := @checked_ok
      ((daysSinceEpoch d * 86400 + (hour * 3600 + minute * 60 + second)) * 1000) (by omega)
    have hinstant : instant d hour minute second =
        (daysSinceEpoch d * 86400 + (hour * 3600 + minute * 60 + second)) * 1000 := by
      rw [instant]
      ring
    rw [if_pos hsame, hinstant]
    exact bind_eq_ok.2 ⟨_, civilDays_of_date h, bind_eq_ok.2 ⟨(), reject_eq_ok.2 hguard,
      bind_eq_ok.2 ⟨_, hmidnight, bind_eq_ok.2 ⟨(), htime, bind_eq_ok.2 ⟨_, hseconds, hmillis⟩⟩⟩⟩⟩
  · have hguard : ((daysSinceEpoch d + 3) % 7 != (expected : ℤ)) = true := by
      rw [hweekday, bne_iff_ne]
      exact fun heq => hsame (Int.ofNat_inj.1 heq)
    rw [epochMillis, civilDays_of_date h, if_neg hsame]
    simp only [bind, Except.bind, hguard]
    rfl

/-! ### The text of a date -/

/-- The pieces of an IMF-fixdate, in order. -/
def fixdateParts (f : DateFields) : List (List UInt8) :=
  [weekdayNames.getD f.weekday [], codes [',', ' '], decimalDigits 2 f.day, codes [' '],
    monthNames.getD (f.month - 1) [], codes [' '], decimalDigits 4 f.year, codes [' '],
    decimalDigits 2 f.hour, codes [':'], decimalDigits 2 f.minute, codes [':'],
    decimalDigits 2 f.second, codes [' '], codes ['G', 'M', 'T']]

/-- The text with the given fields: `Www, DD Mmm YYYY HH:MM:SS GMT`. -/
def fixdate (f : DateFields) : List UInt8 := (fixdateParts f).flatten

/-- The lengths of these pieces. -/
def fixdateWidths : List ℕ := [3, 2, 2, 1, 3, 1, 4, 1, 2, 1, 2, 1, 2, 1, 3]

/-- Numbers that their places in the text can hold. -/
structure DateFields.Small (f : DateFields) : Prop where
  weekday : f.weekday < 7
  day : f.day < 100
  month : 1 ≤ f.month ∧ f.month ≤ 12
  year : f.year < 10000
  hour : f.hour < 100
  minute : f.minute < 100
  second : f.second < 100

theorem length_weekdayName : ∀ i < 7, (weekdayNames.getD i []).length = 3 := by decide +kernel

theorem length_monthName : ∀ i < 12, (monthNames.getD i []).length = 3 := by decide +kernel

theorem length_fixdateParts {f : DateFields} (h : f.Small) :
    (fixdateParts f).map List.length = fixdateWidths := by
  have hmonth := h.month
  simp only [fixdateParts, List.map_cons, List.map_nil, length_weekdayName _ h.weekday,
    length_monthName (f.month - 1) (by omega), length_decimalDigits, length_codes]
  rfl

theorem length_fixdate {f : DateFields} (h : f.Small) : (fixdate f).length = 29 := by
  rw [fixdate, List.length_flatten, length_fixdateParts h]
  rfl

/-- A part of the text, found by the widths of the parts before it. -/
theorem slice_fixdate {f : DateFields} (h : f.Small) {i a b : ℕ} {field : List UInt8}
    (hfield : (fixdateParts f)[i]? = some field) (ha : a = (fixdateWidths.take i).sum)
    (hb : b = a + fixdateWidths.getD i 0) : slice (fixdate f) a b = field := by
  refine slice_flatten hfield ?_ ?_
  · rw [ha, List.length_flatten, List.map_take, length_fixdateParts h]
  · have hwidth : fixdateWidths[i]? = some field.length := by
      rw [← length_fixdateParts h, List.getElem?_map, hfield]
      rfl
    rw [hb, List.getD_eq_getElem?_getD, hwidth]
    rfl

theorem part_eq_ok_iff {α : Type} {read : List UInt8 → Except Stop α} {bytes : List UInt8}
    {a b : ℕ} {x : α} :
    part read bytes a b = .ok x ↔ b ≤ bytes.length ∧ read (slice bytes a b) = .ok x := by
  unfold part sliceOf
  by_cases h : b ≤ bytes.length
  · simp [h, bind, Except.bind]
  · simp [h, bind, Except.bind]

theorem expect_eq_ok_iff {text : List Char} {bytes : List UInt8} {u : Unit} :
    expect text bytes = .ok u ↔ bytes = codes text := by
  rw [expect, reject_eq_ok, bne_eq_false_iff_eq]

/-- **The fields of a text** are those of the one text that has them. -/
theorem dateFields_eq_ok_iff {bytes : List UInt8} {f : DateFields} :
    dateFields bytes = .ok f ↔ f.Small ∧ bytes = fixdate f := by
  unfold dateFields
  simp only [bind_eq_ok, reject_eq_ok, part_eq_ok_iff, expect_eq_ok_iff, pure_eq_ok,
    bne_eq_false_iff_eq, weekdayIndex_eq_ok_iff, monthNumber_eq_ok_iff]
  constructor
  · rintro ⟨-, hlength, -, ⟨-, hcomma⟩, weekday, ⟨-, hweekday, hname⟩, day, ⟨-, hday⟩, month,
      ⟨-, hmonth, hmonthName⟩, year, ⟨-, hyear⟩, hour, ⟨-, hhour⟩, minute, ⟨-, hminute⟩, second,
      ⟨-, hsecond⟩, -, ⟨-, hgap⟩, -, ⟨-, hgap'⟩, -, ⟨-, hgap''⟩, -, ⟨-, hcolon⟩, -, ⟨-, hcolon'⟩, -,
      ⟨-, hlast⟩, -, ⟨-, hzone⟩, rfl⟩
    have hwidth : ∀ {a b : ℕ}, b ≤ 29 → (slice bytes a b).length = b - a := by
      intro a b hb
      exact length_slice (by omega)
    rw [digitsValue_eq_ok_iff (hwidth (by decide)) (by decide)] at hday hyear hhour hminute hsecond
    have hwhole := flatten_cutAt bytes 0 [3, 5, 7, 8, 11, 12, 16, 17, 19, 20, 22, 23, 25, 26]
      (by decide)
    simp only [cutAt, List.drop_zero, drop_eq_slice bytes 26] at hwhole
    refine ⟨⟨hweekday, hday.1, hmonth, hyear.1, hhour.1, hminute.1, hsecond.1⟩, ?_⟩
    rw [← hwhole, hname, hcomma, hday.2, hgap, hmonthName, hgap', hyear.2, hgap'', hhour.2, hcolon,
      hminute.2, hcolon', hsecond.2, hlast, hzone]
    rfl
  · rintro ⟨hsmall, rfl⟩
    have hfit : ∀ {b : ℕ}, b ≤ 29 → b ≤ (fixdate f).length := by
      intro b hb
      rw [length_fixdate hsmall]
      exact hb
    -- The part `i` of the text is its slice from `a` to `b`, by the widths alone.
    have hname : ∀ {i a b : ℕ} {name : List UInt8}, b ≤ 29 → (fixdateParts f)[i]? = some name →
        a = (fixdateWidths.take i).sum → b = a + fixdateWidths.getD i 0 →
        b ≤ (fixdate f).length ∧ slice (fixdate f) a b = name :=
      fun hb hi ha hwidth => ⟨hfit hb, slice_fixdate hsmall hi ha hwidth⟩
    have hnumber : ∀ {i w n a b : ℕ}, b ≤ 29 → (fixdateParts f)[i]? = some (decimalDigits w n) →
        a = (fixdateWidths.take i).sum → b = a + fixdateWidths.getD i 0 → 0 < w ∧ w ≤ 18 →
        n < 10 ^ w → b ≤ (fixdate f).length ∧ digitsValue (slice (fixdate f) a b) = .ok n := by
      intro i w n a b hb hi ha hwidth hw hn
      obtain ⟨hle, hslice⟩ := hname hb hi ha hwidth
      rw [hslice]
      exact ⟨hle, (digitsValue_eq_ok_iff (length_decimalDigits w n) hw).2 ⟨hn, rfl⟩⟩
    obtain ⟨hle, hweekday⟩ := @hname 0 0 3 _ (by decide) rfl rfl rfl
    obtain ⟨hle', hmonth⟩ := @hname 4 8 11 _ (by decide) rfl rfl rfl
    refine ⟨(), length_fixdate hsmall, (), @hname 1 3 5 _ (by decide) rfl rfl rfl,
      f.weekday, ⟨hle, hsmall.weekday, hweekday⟩,
      f.day, @hnumber 2 2 _ 5 7 (by decide) rfl rfl rfl (by decide) hsmall.day,
      f.month, ⟨hle', hsmall.month, hmonth⟩,
      f.year, @hnumber 6 4 _ 12 16 (by decide) rfl rfl rfl (by decide) hsmall.year,
      f.hour, @hnumber 8 2 _ 17 19 (by decide) rfl rfl rfl (by decide) hsmall.hour,
      f.minute, @hnumber 10 2 _ 20 22 (by decide) rfl rfl rfl (by decide) hsmall.minute,
      f.second, @hnumber 12 2 _ 23 25 (by decide) rfl rfl rfl (by decide) hsmall.second,
      (), @hname 3 7 8 _ (by decide) rfl rfl rfl, (), @hname 5 11 12 _ (by decide) rfl rfl rfl,
      (), @hname 7 16 17 _ (by decide) rfl rfl rfl, (), @hname 9 19 20 _ (by decide) rfl rfl rfl,
      (), @hname 11 22 23 _ (by decide) rfl rfl rfl, (), @hname 13 25 26 _ (by decide) rfl rfl rfl,
      (), ?_, rfl⟩
    rw [length_fixdate hsmall]
    exact ⟨le_rfl, (@hname 14 26 29 _ (by decide) rfl rfl rfl).2⟩

/-! ### What the source returns -/

/-- Neither a value nor a panic but `None`, if it is not a value. -/
def Settles {α : Type} (x : Except Stop α) : Prop := ∀ stop, x = .error stop → stop = .ignored

theorem Settles.bind {α β : Type} {x : Except Stop α} {f : α → Except Stop β} (hx : Settles x)
    (hf : ∀ a, x = .ok a → Settles (f a)) : Settles (x >>= f) := by
  intro stop h
  cases hcase : x with
  | error e =>
    rw [hcase] at h
    cases h
    exact hx _ hcase
  | ok a =>
    rw [hcase] at h
    exact hf a hcase stop h

theorem settles_ok {α : Type} (a : α) : Settles (.ok a) := by
  intro stop h
  cases h

theorem settles_ignored {α : Type} : Settles (.error .ignored : Except Stop α) := by
  intro stop h
  cases h
  rfl

theorem settles_reject (bad : Bool) : Settles (reject bad .ignored) := by
  cases bad
  · exact settles_ok ()
  · exact settles_ignored

theorem settles_orError {α : Type} (x : Option α) : Settles (orError .ignored x) := by
  cases x
  · exact settles_ignored
  · exact settles_ok _

theorem settles_checked (n : ℤ) : Settles (checked n) := by
  unfold checked
  split_ifs
  · exact settles_ok n
  · exact settles_ignored

theorem settles_digitsValue (bs : List UInt8) : Settles (digitsValue bs) := by
  rw [digitsValue_eq]
  split_ifs
  · exact settles_ok _
  · exact settles_ignored

theorem settles_part {α : Type} {read : List UInt8 → Except Stop α} (h : ∀ bs, Settles (read bs))
    {bytes : List UInt8} {a b : ℕ} (hb : b ≤ bytes.length) : Settles (part read bytes a b) := by
  rw [part, sliceOf, if_pos hb]
  exact h _

theorem settles_dateFields (bytes : List UInt8) : Settles (dateFields bytes) := by
  refine (settles_reject _).bind fun _ hlength => ?_
  rw [reject_eq_ok, bne_eq_false_iff_eq] at hlength
  have hexpect : ∀ (text : List Char) (bs : List UInt8), Settles (expect text bs) :=
    fun _ _ => settles_reject _
  have hfit : ∀ {b : ℕ}, b ≤ 29 → b ≤ bytes.length := by
    intro b hb
    omega
  refine (settles_part (hexpect _) (hfit (by decide))).bind fun _ _ => ?_
  refine (settles_part (fun _ => settles_orError _) (hfit (by decide))).bind fun _ _ => ?_
  refine (settles_part settles_digitsValue (hfit (by decide))).bind fun _ _ => ?_
  refine (settles_part (fun _ => settles_orError _) (hfit (by decide))).bind fun _ _ => ?_
  iterate 4 refine (settles_part settles_digitsValue (hfit (by decide))).bind fun _ _ => ?_
  iterate 6 refine (settles_part (hexpect _) (hfit (by decide))).bind fun _ _ => ?_
  refine (settles_part (hexpect _) le_rfl).bind fun _ _ => ?_
  exact settles_ok _

/-- The guard on the fields is that the date exists and the time of day is in range. -/
theorem guard_eq_false_iff {f : DateFields} (h : f.Small) :
    (23 < f.hour || 59 < f.minute || 60 < f.second || daysInMonth f.year f.month < f.day
      || f.day == 0) = false ↔
      f.hour ≤ 23 ∧ f.minute ≤ 59 ∧ f.second ≤ 60 ∧ 1 ≤ f.day ∧
        f.day ≤ monthLength f.year f.month := by
  rw [daysInMonth_eq f.year h.month]
  simp only [Bool.or_eq_false_iff, decide_eq_false_iff_not, beq_eq_false_iff_ne]
  omega

/-- The text of a date and a time of day. -/
def fixdateOf (d : Date) (hour minute second : ℕ) : List UInt8 :=
  fixdate ⟨weekday d, d.day, d.month, d.year, hour, minute, second⟩

theorem small_of_date {d : Date} (h : d.year ≤ 9999) {hour minute second : ℕ} (hhour : hour ≤ 23)
    (hminute : minute ≤ 59) (hsecond : second ≤ 60) :
    DateFields.Small ⟨weekday d, d.day, d.month, d.year, hour, minute, second⟩ := by
  have hday := d.day_bounds
  have hlength := monthLength_le d.year d.month
  refine ⟨Nat.mod_lt _ (by decide), ?_, d.month_bounds, ?_, ?_, ?_, ?_⟩ <;> simp only <;> omega

/-- A time of day; a minute may have a leap second. -/
structure TimeOfDay where
  hour : ℕ
  minute : ℕ
  second : ℕ
  hour_le : hour ≤ 23
  minute_le : minute ≤ 59
  second_le : second ≤ 60

/-- The text denotes the instant `t`. -/
def Denotes (bytes : List UInt8) (t : ℤ) : Prop :=
  ∃ (d : Date) (time : TimeOfDay), d.year ≤ 9999 ∧
    bytes = fixdateOf d time.hour time.minute time.second ∧
    t = instant d time.hour time.minute time.second

/-- Only a date that is later, by a 64-bit number, is not ignored. -/
theorem strictlyLater_eq (t now : ℤ) : strictlyLater t now =
      if now < t ∧ t - now < 2 ^ 63 then .ok (t - now) else .error .ignored := by
  unfold strictlyLater checked
  by_cases hlate : now < t
  · by_cases hfits : t - now < 2 ^ 63
    · rw [if_pos ⟨by omega, hfits⟩, if_pos ⟨hlate, hfits⟩]
      have hpos : ¬ t - now ≤ 0 := by omega
      simp [bind, Except.bind, reject, hpos, pure, Except.pure]
    · rw [if_neg (by omega), if_neg (by omega)]
      rfl
  · rw [if_neg (show ¬ (now < t ∧ t - now < 2 ^ 63) by omega)]
    have hpos : t - now ≤ 0 := by omega
    split_ifs
    · simp [bind, Except.bind, reject, hpos]
    · rfl

/-- The text of a date that exists. -/
theorem futureDateMillis_of_date {d : Date} (h : d.year ≤ 9999) (time : TimeOfDay) (now : ℤ) :
    futureDateMillis (fixdateOf d time.hour time.minute time.second) now =
      if now < instant d time.hour time.minute time.second ∧
          instant d time.hour time.minute time.second - now < 2 ^ 63
        then .ok (instant d time.hour time.minute time.second - now) else .error .ignored := by
  have hsmall := small_of_date h time.hour_le time.minute_le time.second_le
  have hfields := dateFields_eq_ok_iff.2 ⟨hsmall, rfl⟩
  have hguard := (guard_eq_false_iff hsmall).2
    ⟨time.hour_le, time.minute_le, time.second_le, d.day_bounds⟩
  have hinstant := epochMillis_of_date h time.hour_le time.minute_le time.second_le (weekday d)
  rw [if_pos rfl] at hinstant
  rw [futureDateMillis, fixdateOf, hfields]
  simp only [bind, Except.bind, hguard]
  rw [show reject false Stop.ignored = .ok () from rfl]
  simp only [hinstant]
  exact strictlyLater_eq _ _

/-- Other texts denote no date. -/
theorem futureDateMillis_of_not_denotes {bytes : List UInt8} (h : ∀ t, ¬ Denotes bytes t)
    (now : ℤ) :
    futureDateMillis bytes now = .error .ignored := by
  cases hfields : dateFields bytes with
  | error stop =>
    rw [settles_dateFields bytes stop hfields] at hfields
    rw [futureDateMillis, hfields]
    rfl
  | ok f =>
    obtain ⟨hsmall, rfl⟩ := dateFields_eq_ok_iff.1 hfields
    rw [futureDateMillis, hfields]
    simp only [bind, Except.bind]
    by_cases hguard : (23 < f.hour || 59 < f.minute || 60 < f.second ||
        daysInMonth f.year f.month < f.day || f.day == 0) = true
    · rw [hguard]
      rfl
    rw [Bool.not_eq_true] at hguard
    obtain ⟨hhour, hminute, hsecond, hday⟩ := (guard_eq_false_iff hsmall).1 hguard
    have hyear : f.year ≤ 9999 := Nat.le_of_lt_succ hsmall.year
    have hinstant := @epochMillis_of_date ⟨f.year, f.month, f.day, hsmall.month, hday⟩ hyear
      f.hour f.minute f.second hhour hminute hsecond f.weekday
    have hweekday : weekday ⟨f.year, f.month, f.day, hsmall.month, hday⟩ ≠ f.weekday := by
      intro heq
      refine h _ ⟨⟨f.year, f.month, f.day, hsmall.month, hday⟩,
        ⟨f.hour, f.minute, f.second, hhour, hminute, hsecond⟩, hyear, ?_, rfl⟩
      rw [fixdateOf, heq]
    rw [if_neg hweekday] at hinstant
    rw [hguard, show reject false Stop.ignored = .ok () from rfl]
    simp only [hinstant]

theorem futureDateMillis_eq_ok_iff {bytes : List UInt8} {now delay : ℤ} :
    futureDateMillis bytes now = .ok delay ↔
      ∃ t, Denotes bytes t ∧ now < t ∧ t - now < 2 ^ 63 ∧ delay = t - now := by
  constructor
  · intro hok
    by_cases hdate : ∃ t, Denotes bytes t
    · obtain ⟨-, d, time, hyear, hbytes, -⟩ := hdate
      rw [hbytes, futureDateMillis_of_date hyear] at hok
      split_ifs at hok with hlate
      exact ⟨_, ⟨d, time, hyear, hbytes, rfl⟩, hlate.1, hlate.2, (Except.ok.inj hok).symm⟩
    · rw [futureDateMillis_of_not_denotes (not_exists.1 hdate)] at hok
      cases hok
  · rintro ⟨t, ⟨d, time, hyear, hbytes, ht⟩, hlate, hfits, hdelay⟩
    rw [hbytes, futureDateMillis_of_date hyear, ← ht, if_pos ⟨hlate, hfits⟩, hdelay]

theorem settles_futureDateMillis (bytes : List UInt8) (now : ℤ) :
    Settles (futureDateMillis bytes now) := by
  by_cases hdate : ∃ t, Denotes bytes t
  · obtain ⟨-, d, time, hyear, hbytes, -⟩ := hdate
    rw [hbytes, futureDateMillis_of_date hyear]
    split_ifs
    · exact settles_ok _
    · exact settles_ignored
  · rw [futureDateMillis_of_not_denotes (not_exists.1 hdate)]
    exact settles_ignored

/-- A run of digits whose value, in milliseconds, is a 64-bit number. -/
def DeltaSeconds (bytes : List UInt8) (delay : ℤ) : Prop :=
  bytes ≠ [] ∧ bytes.all isDigit = true ∧ delay = decimalValue bytes * 1000 ∧ delay < 2 ^ 63

theorem deltaMillis_eq_ok_iff {bytes : List UInt8} {delay : ℤ} :
    deltaMillis bytes = .ok delay ↔ DeltaSeconds bytes delay := by
  rw [deltaMillis, digitsValue_eq, bind_eq_ok]
  constructor
  · rintro ⟨seconds, hseconds, hchecked⟩
    split_ifs at hseconds with h
    cases hseconds
    unfold checked at hchecked
    split_ifs at hchecked with hfits
    cases hchecked
    exact ⟨h.1, h.2.1, rfl, hfits.2⟩
  · rintro ⟨hne, hall, rfl, hfits⟩
    refine ⟨decimalValue bytes, if_pos ⟨hne, hall, by omega⟩, checked_ok ⟨by omega, hfits⟩⟩

theorem settles_deltaMillis (bytes : List UInt8) : Settles (deltaMillis bytes) :=
  (settles_digitsValue bytes).bind fun _ _ => settles_checked _

/-- A date is no run of digits. -/
theorem not_deltaSeconds_of_denotes {bytes : List UInt8} {t delay : ℤ} (h : Denotes bytes t) :
    ¬ DeltaSeconds bytes delay := by
  rintro ⟨-, hall, -⟩
  obtain ⟨d, time, hyear, rfl, -⟩ := h
  have hsmall := small_of_date hyear time.hour_le time.minute_le time.second_le
  have hcomma := @slice_fixdate _ hsmall 1 3 5 _ rfl rfl rfl
  have hmem : 0x2c ∈ slice (fixdateOf d time.hour time.minute time.second) 3 5 := by
    rw [fixdateOf, hcomma]
    exact List.mem_cons_self
  have hdigit := List.all_eq_true.1 hall _ (List.mem_of_mem_drop (List.mem_of_mem_take hmem))
  revert hdigit
  decide

/-- The delay that a header asks for. -/
def Asks (bytes : List UInt8) (now delay : ℤ) : Prop :=
  DeltaSeconds bytes delay ∨
    ∃ t, Denotes bytes t ∧ now < t ∧ t - now < 2 ^ 63 ∧ delay = t - now

theorem clamped_toNat (delay : ℤ) : ((clamped delay).toNat : ℤ) = max 1000 (min delay 3600000) := by
  have hbounds : 1000 ≤ max 1000 (min delay 3600000) ∧ max 1000 (min delay 3600000) ≤ 3600000 := by
    omega
  have hsize : UInt32.size = 4294967296 := rfl
  rw [clamped, UInt32.toNat_ofNat_of_lt' (by omega)]
  omega

theorem parseRetryAfter_cases (header : String) (now : Int64) :
    (∃ delay, Asks (utf8Bytes header) now.toInt delay ∧
      (∀ delay', Asks (utf8Bytes header) now.toInt delay' → delay' = delay) ∧
      parseRetryAfter header now = .ok (some (clamped delay))) ∨
    (∀ delay, ¬ Asks (utf8Bytes header) now.toInt delay) ∧
      parseRetryAfter header now = .ok none := by
  unfold parseRetryAfter
  cases hseconds : deltaMillis (utf8Bytes header) with
  | ok delay =>
    have hdelta := deltaMillis_eq_ok_iff.1 hseconds
    refine Or.inl ⟨delay, Or.inl hdelta, ?_, rfl⟩
    rintro delay' (hdelta' | ⟨t, hdenotes, -⟩)
    · rw [hdelta.2.2.1, hdelta'.2.2.1]
    · exact absurd hdelta (not_deltaSeconds_of_denotes hdenotes)
  | error stop =>
    obtain rfl := settles_deltaMillis _ stop hseconds
    have hdelta : ∀ delay, ¬ DeltaSeconds (utf8Bytes header) delay := by
      intro delay h
      rw [deltaMillis_eq_ok_iff.2 h] at hseconds
      cases hseconds
    simp only
    cases hdate : futureDateMillis (utf8Bytes header) now.toInt with
    | ok delay =>
      refine Or.inl ⟨delay, Or.inr (futureDateMillis_eq_ok_iff.1 hdate), ?_, rfl⟩
      rintro delay' (hdelta' | h)
      · exact absurd hdelta' (hdelta delay')
      · rw [futureDateMillis_eq_ok_iff.2 h] at hdate
        exact Except.ok.inj hdate
    | error stop =>
      obtain rfl := settles_futureDateMillis _ _ stop hdate
      refine Or.inr ⟨?_, rfl⟩
      rintro delay (h | h)
      · exact hdelta delay h
      · rw [futureDateMillis_eq_ok_iff.2 h] at hdate
        cases hdate

/-- A header yields a delay exactly when it asks for one; the source never panics.  The instant of
a date counts the days of the calendar from 1 January 1970, a Thursday. -/
theorem parseRetryAfter_spec :
    (∀ (header : String) (now : Int64), ∃ result, parseRetryAfter header now = .ok result ∧
      ∀ d : UInt32, result = some d ↔ ∃ delay, Asks (utf8Bytes header) now.toInt delay ∧
        (d.toNat : ℤ) = max 1000 (min delay 3600000)) ∧
    (∀ (d : Date) (time : TimeOfDay), d.year ≤ 9999 → ∃ days, Date.After epoch d days ∧
      epochMillis d.year d.month d.day time.hour time.minute time.second (weekday d) =
        .ok (days * 86400000 + (time.hour * 3600 + time.minute * 60 + time.second) * 1000)) ∧
    weekday epoch = 3 ∧ ∀ d : Date, weekday d.next = (weekday d + 1) % 7 := by
  refine ⟨?_, ?_, weekday_epoch, weekday_next⟩
  · intro header now
    rcases parseRetryAfter_cases header now with ⟨delay, hasks, hunique, hresult⟩ | ⟨hnone, hresult⟩
    · refine ⟨_, hresult, ?_⟩
      intro d
      constructor
      · intro hd
        cases hd
        exact ⟨delay, hasks, clamped_toNat delay⟩
      · rintro ⟨delay', hasks', hd⟩
        rw [hunique delay' hasks', ← clamped_toNat] at hd
        rw [UInt32.toNat_inj.1 (Int.ofNat_inj.1 hd)]
    · refine ⟨_, hresult, ?_⟩
      intro d
      constructor
      · intro hd
        cases hd
      · rintro ⟨delay, hasks, -⟩
        exact absurd hasks (hnone delay)
  · intro d time hyear
    have hmillis := epochMillis_of_date hyear time.hour_le time.minute_le time.second_le (weekday d)
    rw [if_pos rfl] at hmillis
    exact ⟨daysSinceEpoch d, Date.after_iff.2 rfl, hmillis⟩

/-- 29 February of a leap century, a Tuesday. -/
def leapCentury : Date := ⟨2000, 2, 29, by decide, by decide⟩

theorem epochMillis_leapCentury : ∃ days, Date.After epoch leapCentury days ∧
    epochMillis 2000 2 29 12 0 0 (weekday leapCentury) =
      .ok (days * 86400000 + ((12 : ℕ) * 3600 + (0 : ℕ) * 60 + (0 : ℕ)) * 1000) :=
  parseRetryAfter_spec.2.1 leapCentury ⟨12, 0, 0, by decide, by decide, by decide⟩ (by decide)

end MsgRiver.Connector.RetryAfter