import Mathlib.Data.List.Basic
import Mathlib.Data.List.Induction
import Mathlib.Tactic.Common

/-!
# Histories

A history is a list that only grows at its end.  `Everywhere P log` says that each of its entries
was allowed by what stood before it.  What every allowed entry keeps holds of the whole history
(`Everywhere.induct`), and what every allowed entry only moves forward is moved forward by all of
them (`Everywhere.forward`).

`Grows R xs ys` says that the entries of a list kept their places and changed by `R`.
-/

namespace History

variable {α : Type*}

/-- Each entry is allowed by those before it. -/
def Everywhere (P : List α → α → Prop) (log : List α) : Prop :=
  ∀ front e back, log = front ++ e :: back → P front e

namespace Everywhere

variable {P : List α → α → Prop} {log : List α}

theorem nil : Everywhere P [] := by
  intro front e back h
  cases front <;> cases h

theorem front {front back : List α} (h : Everywhere P (front ++ back)) : Everywhere P front := by
  rintro first e rest rfl
  exact h first e (rest ++ back) (by rw [List.append_assoc, List.cons_append])

theorem last {e : α} (h : Everywhere P (log ++ [e])) : P log e := h log e [] rfl

theorem concat {e : α} (h : Everywhere P log) (he : P log e) : Everywhere P (log ++ [e]) := by
  intro front x back heq
  rcases List.eq_nil_or_concat back with rfl | ⟨back, y, rfl⟩
  · obtain ⟨rfl, hx⟩ := List.append_inj' heq rfl
    cases hx
    exact he
  · rw [List.concat_eq_append, ← List.cons_append, ← List.append_assoc] at heq
    obtain ⟨rfl, -⟩ := List.append_inj' heq rfl
    exact h front x back rfl

/-- **What every allowed entry keeps.** -/
theorem induct {I : List α → Prop} (hnil : I [])
    (hstep : ∀ log e, Everywhere P log → P log e → I log → I (log ++ [e]))
    (h : Everywhere P log) : I log := by
  induction log using List.reverseRecOn with
  | nil => exact hnil
  | append_singleton log e ih => exact hstep log e h.front h.last (ih h.front)

theorem mono {Q : List α → α → Prop} (h : Everywhere P log)
    (hPQ : ∀ front e, Everywhere P front → P front e → Q front e) : Everywhere Q log := by
  rintro front e back rfl
  exact hPQ front e h.front (h front e back rfl)

theorem forward {β : Type*} (f : List α → β) {R : β → β → Prop} (hrefl : ∀ b, R b b)
    (htrans : ∀ a b c, R a b → R b c → R a c)
    (hstep : ∀ log e, Everywhere P log → P log e → R (f log) (f (log ++ [e])))
    {front back : List α} (h : Everywhere P (front ++ back)) : R (f front) (f (front ++ back)) := by
  induction back using List.reverseRecOn with
  | nil =>
    rw [List.append_nil]
    exact hrefl _
  | append_singleton back e ih =>
    rw [← List.append_assoc] at h ⊢
    exact htrans _ _ _ (ih h.front) (hstep _ e h.front h.last)

end Everywhere

/-- The entries of `xs` are still in their places, each changed by `R`. -/
def Grows (R : α → α → Prop) (xs ys : List α) : Prop :=
  ∀ (i : ℕ) (x : α), xs[i]? = some x → ∃ y, ys[i]? = some y ∧ R x y

namespace Grows

variable {R : α → α → Prop} {xs ys zs : List α}

theorem refl (hrefl : ∀ a, R a a) (xs : List α) : Grows R xs xs :=
  fun _ x hx => ⟨x, hx, hrefl x⟩

theorem trans (htrans : ∀ a b c, R a b → R b c → R a c) (h : Grows R xs ys) (h' : Grows R ys zs) :
    Grows R xs zs := by
  intro i x hx
  obtain ⟨y, hy, hxy⟩ := h i x hx
  obtain ⟨z, hz, hyz⟩ := h' i y hy
  exact ⟨z, hz, htrans x y z hxy hyz⟩

/-- Entries come at the end. -/
theorem append (hrefl : ∀ a, R a a) (xs more : List α) : Grows R xs (xs ++ more) := by
  intro i x hx
  obtain ⟨hi, -⟩ := List.getElem?_eq_some_iff.1 hx
  exact ⟨x, by rw [List.getElem?_append_left hi, hx], hrefl x⟩

/-- One entry changes in its place. -/
theorem replace (hrefl : ∀ a, R a a) (front back : List α) {x y : α} (h : R x y) :
    Grows R (front ++ x :: back) (front ++ y :: back) := by
  intro i z hz
  rcases Nat.lt_or_ge i front.length with hi | hi
  · rw [List.getElem?_append_left hi] at hz ⊢
    exact ⟨z, hz, hrefl z⟩
  · rw [List.getElem?_append_right hi] at hz ⊢
    cases hj : i - front.length with
    | zero =>
      rw [hj] at hz
      cases hz
      exact ⟨y, rfl, h⟩
    | succ j =>
      rw [hj] at hz
      exact ⟨z, hz, hrefl z⟩

/-- An entry is found again. -/
theorem exists_mem (h : Grows R xs ys) {x : α} (hx : x ∈ xs) : ∃ y ∈ ys, R x y := by
  obtain ⟨i, hi⟩ := List.mem_iff_getElem?.1 hx
  obtain ⟨y, hy, hxy⟩ := h i x hi
  exact ⟨y, List.mem_of_getElem? hy, hxy⟩

theorem countP_le {p : α → Bool} (h : Grows R xs ys) (hp : ∀ x y, R x y → p x = true → p y = true) :
    xs.countP p ≤ ys.countP p := by
  induction xs generalizing ys with
  | nil => exact Nat.zero_le _
  | cons x xs ih =>
    cases ys with
    | nil =>
      obtain ⟨y, hy, -⟩ := h 0 x rfl
      cases hy
    | cons y ys =>
      obtain ⟨y', hy', hxy⟩ := h 0 x rfl
      cases hy'
      have htail : xs.countP p ≤ ys.countP p := ih fun i z hz => h (i + 1) z hz
      rw [List.countP_cons, List.countP_cons]
      have hhead := hp x y hxy
      split_ifs with hx hy
      · omega
      · exact absurd (hhead hx) hy
      · omega
      · omega

end Grows

end History
