import Mathlib.Data.List.Basic
import Mathlib.Tactic.Common

/-!
# Chunks of a list

`chunks n xs` cuts a list into pieces of `n`, the last of which may be shorter; `chunksExact n xs`
leaves a shorter last piece out.
-/

namespace Chunks

variable {α : Type*}

/-- At most `count` chunks. -/
def chunksFrom (n : ℕ) : ℕ → List α → List (List α)
  | 0, _ => []
  | count + 1, xs => if xs.isEmpty then [] else xs.take n :: chunksFrom n count (xs.drop n)

/-- `chunks(n)`. -/
def chunks (n : ℕ) (xs : List α) : List (List α) := chunksFrom n xs.length xs

/-- `chunks_exact(n)`. -/
def chunksExact (n : ℕ) (xs : List α) : List (List α) :=
  (chunks n xs).filter fun chunk => chunk.length = n

theorem chunksFrom_nil (n count : ℕ) : chunksFrom n count ([] : List α) = [] := by
  cases count <;> rfl

/-- Every sufficient count gives the same chunks. -/
theorem chunksFrom_congr {n : ℕ} (hn : 0 < n) {count count' : ℕ} {xs : List α}
    (h : xs.length ≤ count) (h' : xs.length ≤ count') :
    chunksFrom n count xs = chunksFrom n count' xs := by
  induction count generalizing count' xs with
  | zero =>
    obtain rfl := List.length_eq_zero_iff.1 (Nat.le_zero.1 h)
    rw [chunksFrom_nil, chunksFrom_nil]
  | succ count ih =>
    cases xs with
    | nil => rw [chunksFrom_nil, chunksFrom_nil]
    | cons x xs =>
      rw [List.length_cons] at h h'
      obtain ⟨count', rfl⟩ : ∃ m, count' = m + 1 := ⟨count' - 1, by omega⟩
      have hdrop : ((x :: xs).drop n).length ≤ xs.length := by
        rw [List.length_drop, List.length_cons]
        omega
      have hrest := @ih count' ((x :: xs).drop n) (by omega) (by omega)
      rw [chunksFrom, chunksFrom, hrest]

@[simp] theorem chunks_nil (n : ℕ) : chunks n ([] : List α) = [] := rfl

/-- The first chunk, and the chunks of the rest. -/
theorem chunks_of_ne_nil {n : ℕ} (hn : 0 < n) {xs : List α} (h : xs ≠ []) :
    chunks n xs = xs.take n :: chunks n (xs.drop n) := by
  cases xs with
  | nil => exact absurd rfl h
  | cons x xs =>
    have hdrop : ((x :: xs).drop n).length ≤ xs.length := by
      rw [List.length_drop, List.length_cons]
      omega
    rw [chunks, chunks, List.length_cons, chunksFrom]
    simp only [List.isEmpty_cons, Bool.false_eq_true, if_false]
    rw [chunksFrom_congr hn hdrop (Nat.le_refl _)]

/-- A full chunk stands in front. -/
theorem chunks_append {n : ℕ} {block : List α} (hn : 0 < n) (h : block.length = n)
    (rest : List α) : chunks n (block ++ rest) = block :: chunks n rest := by
  have hne : block ++ rest ≠ [] := by
    intro hnil
    rw [List.append_eq_nil_iff] at hnil
    rw [hnil.1, List.length_nil] at h
    omega
  rw [chunks_of_ne_nil hn hne, List.take_left' h, List.drop_left' h]

theorem chunksExact_append {n : ℕ} {block : List α} (hn : 0 < n) (h : block.length = n)
    (rest : List α) : chunksExact n (block ++ rest) = block :: chunksExact n rest := by
  rw [chunksExact, chunks_append hn h, List.filter_cons_of_pos (by simpa using h), chunksExact]

/-- **Induction along the chunks.** -/
theorem chunks_induct {n : ℕ} (hn : 0 < n) {P : List α → Prop} (hnil : P [])
    (hstep : ∀ xs, xs ≠ [] → P (xs.drop n) → P xs) (xs : List α) : P xs := by
  induction hlength : xs.length using Nat.strongRecOn generalizing xs with
  | ind length ih =>
    by_cases hne : xs = []
    · rwa [hne]
    · have hpos := List.length_pos_iff.2 hne
      apply hstep xs hne
      apply ih (xs.drop n).length _ _ rfl
      rw [List.length_drop]
      omega

/-- A list of whole chunks has no shorter last piece. -/
theorem chunksExact_eq_chunks {n : ℕ} (hn : 0 < n) {xs : List α} (h : n ∣ xs.length) :
    chunksExact n xs = chunks n xs := by
  induction xs using chunks_induct hn with
  | hnil => rfl
  | hstep xs hne ih =>
    have hle : n ≤ xs.length := Nat.le_of_dvd (List.length_pos_iff.2 hne) h
    have hfront : (xs.take n).length = n := List.length_take_of_le hle
    have hrest : n ∣ (xs.drop n).length := by
      rw [List.length_drop]
      exact Nat.dvd_sub h (Nat.dvd_refl n)
    conv_lhs => rw [← List.take_append_drop n xs]
    rw [chunksExact_append hn hfront, ih hrest, ← chunks_of_ne_nil hn hne]

theorem mul_length_chunks {n : ℕ} (hn : 0 < n) {xs : List α} (h : n ∣ xs.length) :
    n * (chunks n xs).length = xs.length := by
  induction xs using chunks_induct hn with
  | hnil => rfl
  | hstep xs hne ih =>
    have hle : n ≤ xs.length := Nat.le_of_dvd (List.length_pos_iff.2 hne) h
    have hrest := ih (by
      rw [List.length_drop]
      exact Nat.dvd_sub h (Nat.dvd_refl n))
    rw [List.length_drop] at hrest
    rw [chunks_of_ne_nil hn hne, List.length_cons, Nat.mul_succ, hrest]
    omega

/-! ### Chunks of a concatenation -/

section FlatMap

variable {β : Type*} {g : α → List β} {k : ℕ}

theorem take_flatMap (hg : ∀ x, (g x).length = k) (n : ℕ) (xs : List α) :
    (xs.flatMap g).take (k * n) = (xs.take n).flatMap g := by
  induction xs generalizing n with
  | nil => simp
  | cons x xs ih =>
    cases n with
    | zero => simp
    | succ n =>
      have hle : (g x).length ≤ k * (n + 1) := by
        rw [hg]
        exact Nat.le_mul_of_pos_right k n.succ_pos
      have hrest : k * (n + 1) - (g x).length = k * n := by
        rw [hg, Nat.mul_succ, Nat.add_sub_cancel]
      rw [List.flatMap_cons, List.take_append, List.take_of_length_le hle, hrest, ih,
        List.take_succ_cons, List.flatMap_cons]

theorem drop_flatMap (hg : ∀ x, (g x).length = k) (n : ℕ) (xs : List α) :
    (xs.flatMap g).drop (k * n) = (xs.drop n).flatMap g := by
  have hfront := take_flatMap hg n xs
  have hall : xs.flatMap g = (xs.take n).flatMap g ++ (xs.drop n).flatMap g := by
    rw [← List.flatMap_append, List.take_append_drop]
  have hsplit := List.take_append_drop (k * n) (xs.flatMap g)
  rw [hfront] at hsplit
  exact List.append_cancel_left (hsplit.trans hall)

/-- When every element becomes `k` elements, the chunks grow by that factor. -/
theorem chunks_flatMap (hk : 0 < k) (hg : ∀ x, (g x).length = k) {n : ℕ} (hn : 0 < n)
    (xs : List α) :
    chunks (k * n) (xs.flatMap g) = (chunks n xs).map fun chunk => chunk.flatMap g := by
  induction xs using chunks_induct hn with
  | hnil => rfl
  | hstep xs hne ih =>
    have hne' : xs.flatMap g ≠ [] := by
      cases xs with
      | nil => exact absurd rfl hne
      | cons x xs =>
        intro hnil
        rw [List.flatMap_cons, List.append_eq_nil_iff] at hnil
        have hlength := hg x
        rw [hnil.1, List.length_nil] at hlength
        omega
    rw [chunks_of_ne_nil (Nat.mul_pos hk hn) hne', chunks_of_ne_nil hn hne, List.map_cons,
      take_flatMap hg, drop_flatMap hg, ih]

end FlatMap

end Chunks
