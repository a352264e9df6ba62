import Mathlib.Data.List.Sort

/-!
# Sorted lists without repetition

`sort` followed by `dedup`, which removes all but the first of equal neighbours, makes of a list a
normal form that depends on its members only: `sortDedup_eq_iff`.
-/

namespace SortDedup

section Dedup

variable {α : Type*} [DecidableEq α]

/-- The rest of the list behind an element that is kept. -/
def dedupFrom (kept : α) : List α → List α
  | [] => []
  | x :: rest => if kept = x then dedupFrom kept rest else x :: dedupFrom x rest

/-- Remove all but the first of equal neighbours. -/
def dedup : List α → List α
  | [] => []
  | x :: rest => x :: dedupFrom x rest

theorem mem_dedupFrom {x kept : α} {xs : List α} :
    x ∈ kept :: dedupFrom kept xs ↔ x ∈ kept :: xs := by
  induction xs generalizing kept with
  | nil => exact Iff.rfl
  | cons y rest ih =>
    rw [dedupFrom]
    by_cases h : kept = y
    · subst h
      rw [if_pos rfl, ih]
      simp
    · rw [if_neg h, List.mem_cons, ih]
      exact List.mem_cons.symm

theorem mem_dedup {x : α} {xs : List α} : x ∈ dedup xs ↔ x ∈ xs := by
  cases xs with
  | nil => exact Iff.rfl
  | cons y rest => exact mem_dedupFrom

/-- In what is left of a sorted list nothing is repeated. -/
theorem pairwise_dedupFrom [LE α] [Std.IsLinearOrder α] {kept : α} {xs : List α}
    (h : (kept :: xs).Pairwise (· ≤ ·)) :
    (kept :: dedupFrom kept xs).Pairwise fun x y => x ≤ y ∧ x ≠ y := by
  induction xs generalizing kept with
  | nil => exact List.pairwise_singleton _ _
  | cons y rest ih =>
    obtain ⟨hkept, hrest⟩ := List.pairwise_cons.1 h
    rw [dedupFrom]
    by_cases heq : kept = y
    · subst heq
      rw [if_pos rfl]
      exact ih hrest
    · rw [if_neg heq, List.pairwise_cons]
      refine ⟨?_, ih hrest⟩
      intro x hx
      have hx' := mem_dedupFrom.1 hx
      refine ⟨hkept x hx', ?_⟩
      -- A second copy of the first element would squeeze the elements between the two.
      intro hcopy
      subst hcopy
      rcases List.mem_cons.1 hx' with hsame | hlater
      · exact heq hsame
      · have hge := (List.pairwise_cons.1 hrest).1 _ hlater
        exact heq (Std.le_antisymm (hkept y List.mem_cons_self) hge)

end Dedup

section Sorting

variable {α : Type*} [DecidableEq α] [LE α] [DecidableLE α]

/-- Sort, then remove repetitions. -/
def sortDedup (xs : List α) : List α := dedup (xs.mergeSort fun x y => decide (x ≤ y))

@[simp] theorem mem_sortDedup {x : α} {xs : List α} : x ∈ sortDedup xs ↔ x ∈ xs := by
  rw [sortDedup, mem_dedup]
  exact (List.mergeSort_perm xs _).mem_iff

variable [Std.IsLinearOrder α]

theorem pairwise_sortDedup (xs : List α) :
    (sortDedup xs).Pairwise fun x y => x ≤ y ∧ x ≠ y := by
  have htrans : ∀ x y z : α, decide (x ≤ y) = true → decide (y ≤ z) = true →
      decide (x ≤ z) = true := by
    intro x y z hxy hyz
    rw [decide_eq_true_iff] at hxy hyz ⊢
    exact Std.le_trans hxy hyz
  have htotal : ∀ x y : α, (decide (x ≤ y) || decide (y ≤ x)) = true := by
    intro x y
    simpa using Std.le_total
  have hsorted := List.pairwise_mergeSort htrans htotal xs
  simp only [decide_eq_true_iff] at hsorted
  unfold sortDedup dedup
  split
  · exact List.Pairwise.nil
  · rename_i x rest heq
    rw [heq] at hsorted
    exact pairwise_dedupFrom hsorted

/-- The normal form is the same exactly for lists with the same members. -/
theorem sortDedup_eq_iff {xs ys : List α} :
    sortDedup xs = sortDedup ys ↔ ∀ x, x ∈ xs ↔ x ∈ ys := by
  constructor
  · intro h x
    rw [← mem_sortDedup, h, mem_sortDedup]
  · intro h
    have hanti : Std.Antisymm fun x y : α => x ≤ y ∧ x ≠ y :=
      ⟨fun _ _ hxy hyx => Std.le_antisymm hxy.1 hyx.1⟩
    have hirrefl : Std.Irrefl fun x y : α => x ≤ y ∧ x ≠ y := ⟨fun _ hxx => hxx.2 rfl⟩
    apply (pairwise_sortDedup xs).eq_of_mem_iff (pairwise_sortDedup ys)
    intro x
    rw [mem_sortDedup, mem_sortDedup, h x]

end Sorting

end SortDedup
