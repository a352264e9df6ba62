import Mathlib.Data.List.Induction
import Mathlib.Tactic.Ring
import MsgRiver.Lib.Ascii

/-!
# Decimal digits

The value of a run of ASCII digits (`decimalValue`), and a number written with so many digits
(`decimalDigits`).  Each is the inverse of the other, on runs of one length.
-/

namespace Ascii

/-- The value of a run of digits. -/
def decimalValue (bs : List UInt8) : ℕ := bs.foldl (fun n b => 10 * n + (b.toNat - 48)) 0

/-- The last `w` decimal digits of `n`. -/
def decimalDigits : ℕ → ℕ → List UInt8
  | 0, _ => []
  | w + 1, n => decimalDigits w (n / 10) ++ [UInt8.ofNat (48 + n % 10)]

theorem isDigit_iff {b : UInt8} : isDigit b = true ↔ 48 ≤ b.toNat ∧ b.toNat ≤ 57 := by
  simp [isDigit, UInt8.le_iff_toNat_le]

theorem decimalValue_concat (bs : List UInt8) (b : UInt8) :
    decimalValue (bs ++ [b]) = 10 * decimalValue bs + (b.toNat - 48) := by
  rw [decimalValue, List.foldl_append]
  rfl

@[simp] theorem length_decimalDigits (w n : ℕ) : (decimalDigits w n).length = w := by
  induction w generalizing n with
  | zero => rfl
  | succ w ih => rw [decimalDigits, List.length_append, ih, List.length_singleton]

theorem digit_toNat (n : ℕ) : (UInt8.ofNat (48 + n % 10)).toNat = 48 + n % 10 := by
  rw [UInt8.toNat_ofNat']
  omega

theorem all_isDigit_decimalDigits (w n : ℕ) : (decimalDigits w n).all isDigit = true := by
  induction w generalizing n with
  | zero => rfl
  | succ w ih =>
    rw [decimalDigits, List.all_append, ih, Bool.true_and, List.all_cons, List.all_nil,
      Bool.and_true, isDigit_iff, digit_toNat]
    omega

theorem decimalValue_decimalDigits (w n : ℕ) : decimalValue (decimalDigits w n) = n % 10 ^ w := by
  induction w generalizing n with
  | zero => simp [decimalDigits, decimalValue, Nat.mod_one]
  | succ w ih =>
    rw [decimalDigits, decimalValue_concat, ih, digit_toNat, Nat.add_sub_cancel_left, pow_succ',
      Nat.mod_mul]
    ring

theorem decimalDigits_decimalValue {bs : List UInt8} (h : bs.all isDigit = true) :
    decimalDigits bs.length (decimalValue bs) = bs := by
  induction bs using List.reverseRecOn with
  | nil => rfl
  | append_singleton bs b ih =>
    rw [List.all_append, Bool.and_eq_true] at h
    obtain ⟨hbs, hb⟩ := h
    rw [List.all_cons, List.all_nil, Bool.and_true, isDigit_iff] at hb
    have hdiv : (10 * decimalValue bs + (b.toNat - 48)) / 10 = decimalValue bs := by omega
    have hlast : UInt8.ofNat (48 + (10 * decimalValue bs + (b.toNat - 48)) % 10) = b := by
      apply UInt8.toNat_inj.1
      rw [digit_toNat]
      omega
    rw [List.length_append, List.length_singleton, decimalDigits, decimalValue_concat, hdiv, hlast,
      ih hbs]

theorem decimalValue_lt {bs : List UInt8} (h : bs.all isDigit = true) :
    decimalValue bs < 10 ^ bs.length := by
  have hmod := decimalValue_decimalDigits bs.length (decimalValue bs)
  rw [decimalDigits_decimalValue h] at hmod
  rw [hmod]
  exact Nat.mod_lt _ (Nat.pow_pos (by decide))

end Ascii
