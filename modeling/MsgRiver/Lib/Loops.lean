import Mathlib.Data.List.Basic
import Mathlib.Tactic.Common

/-!
# Counted loops

A loop over the entries of a list with their indices, `for (index, x) in xs.iter().enumerate()`, is
a fold over `xs.zipIdx`, and a loop `for index in first..first + n` a fold over `List.range' first
n`.

* `enumerate_induct`, `range_induct`: the invariant rules, where the invariant may name the index;
* `foldl_append_eq_flatten`: the loop that only appends.
-/

namespace Loops

variable {α σ : Type*}

/-- The invariant rule from an index on. -/
theorem enumerateFrom_induct {I : ℕ → σ → Prop} {f : σ → α × ℕ → σ} {xs : List α} (first : ℕ)
    (hstep : ∀ (i : ℕ) (hi : i < xs.length) (s : σ),
      I (first + i) s → I (first + i + 1) (f s (xs[i], first + i)))
    {s : σ} (hs : I first s) : I (first + xs.length) ((xs.zipIdx first).foldl f s) := by
  induction xs generalizing first s with
  | nil => exact hs
  | cons x xs ih =>
    rw [List.zipIdx_cons, List.foldl_cons, List.length_cons, Nat.add_comm xs.length,
      ← Nat.add_assoc]
    apply ih
    · intro i hi s hI
      have hnext := hstep (i + 1) (Nat.succ_lt_succ hi) s
      rw [← Nat.add_assoc, Nat.add_right_comm, List.getElem_cons_succ] at hnext
      exact hnext hI
    · exact hstep 0 (Nat.zero_lt_succ _) s hs

/-- **Invariant rule** for a loop over the entries of a list. -/
theorem enumerate_induct {I : ℕ → σ → Prop} {f : σ → α × ℕ → σ} {xs : List α}
    (hstep : ∀ (i : ℕ) (hi : i < xs.length) (s : σ), I i s → I (i + 1) (f s (xs[i], i)))
    {s : σ} (hs : I 0 s) : I xs.length (xs.zipIdx.foldl f s) := by
  have hrule : I (0 + xs.length) (xs.zipIdx.foldl f s) := by
    apply enumerateFrom_induct 0 ?_ hs
    simpa only [Nat.zero_add] using hstep
  rwa [Nat.zero_add] at hrule

/-- **Invariant rule** for a loop over a range. -/
theorem range_induct {I : ℕ → σ → Prop} {f : σ → ℕ → σ} {first n : ℕ}
    (hstep : ∀ i s, first ≤ i → i < first + n → I i s → I (i + 1) (f s i))
    {s : σ} (hs : I first s) : I (first + n) ((List.range' first n).foldl f s) := by
  induction n generalizing first s with
  | zero => exact hs
  | succ n ih =>
    rw [List.range'_succ, List.foldl_cons, Nat.add_comm n, ← Nat.add_assoc]
    apply ih
    · intro i s hle hlt
      exact hstep i s (by omega) (by omega)
    · exact hstep first s (Nat.le_refl _) (by omega) hs

theorem foldl_append_eq_flatten (parts : List (List α)) (front : List α) :
    parts.foldl (· ++ ·) front = front ++ parts.flatten := by
  induction parts generalizing front with
  | nil => rw [List.foldl_nil, List.flatten_nil, List.append_nil]
  | cons part parts ih => rw [List.foldl_cons, ih, List.flatten_cons, List.append_assoc]

end Loops
