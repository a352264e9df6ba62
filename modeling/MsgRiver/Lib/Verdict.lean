import Mathlib.Data.List.Forall2
import Mathlib.Data.List.Induction
import MsgRiver.Lib.Result

/-!
# Computations that decide

`Decides R ok post x` says when a fallible computation succeeds: exactly when `ok` holds, and then
its value satisfies `post`; otherwise it stops with an error that satisfies `R`.  One rule for each
way of composing computations carries both halves at once, so that what a chain of checks accepts is
read off by following it.

`Decides.foldlM` is the rule of a loop with a state: `stateOf xs` is what the loop has computed from
the elements `xs`, and `admitted xs` is what it has checked about them.
-/

namespace Verdict

open Result

variable {ε α β σ : Type} {R : ε → Prop}

/-- The computation succeeds exactly when `ok` holds. -/
def Decides (R : ε → Prop) (ok : Prop) (post : α → Prop) (x : Except ε α) : Prop :=
  (ok ∧ ∃ a, x = .ok a ∧ post a) ∨ (¬ ok ∧ ∃ e, R e ∧ x = .error e)

namespace Decides

variable {ok ok' : Prop} {post : α → Prop} {post' : β → Prop} {x : Except ε α}

theorem accepts_iff (h : Decides R ok post x) : (∃ a, x = .ok a) ↔ ok := by
  rcases h with ⟨hok, a, rfl, -⟩ | ⟨hno, e, -, rfl⟩
  · exact ⟨fun _ => hok, fun _ => ⟨a, rfl⟩⟩
  · refine ⟨fun ⟨a, ha⟩ => ?_, fun hok => absurd hok hno⟩
    cases ha

theorem post_of_eq_ok (h : Decides R ok post x) {a : α} (ha : x = .ok a) : post a := by
  rcases h with ⟨-, b, hb, hpost⟩ | ⟨-, e, -, he⟩
  · rw [hb] at ha
    cases ha
    exact hpost
  · rw [he] at ha
    cases ha

theorem of_eq_error (h : Decides R ok post x) {e : ε} (he : x = .error e) : R e := by
  rcases h with ⟨-, b, hb, -⟩ | ⟨-, e', hR, he'⟩
  · rw [hb] at he
    cases he
  · rw [he'] at he
    cases he
    exact hR

/-- The same condition in other words. -/
theorem congr (h : Decides R ok post x) (hok : ok ↔ ok') : Decides R ok' post x := by
  rwa [propext hok] at h

theorem weaken (h : Decides R ok post x) {post'' : α → Prop} (hpost : ∀ a, ok → post a → post'' a) :
    Decides R ok post'' x := by
  rcases h with ⟨hok, a, ha, h⟩ | hno
  · exact .inl ⟨hok, a, ha, hpost a hok h⟩
  · exact .inr hno

theorem bind {f : α → Except ε β} (h : Decides R ok post x)
    (hf : ∀ a, ok → post a → Decides R ok' post' (f a)) : Decides R (ok ∧ ok') post' (x >>= f) := by
  rcases h with ⟨hok, a, rfl, hpost⟩ | ⟨hno, e, hR, rfl⟩
  · rcases hf a hok hpost with ⟨hok', hb⟩ | ⟨hno', he⟩
    · exact .inl ⟨⟨hok, hok'⟩, hb⟩
    · exact .inr ⟨fun h => hno' h.2, he⟩
  · exact .inr ⟨fun h => hno h.1, e, hR, rfl⟩

theorem mapError {ε' : Type} {R' : ε' → Prop} {f : ε → ε'} (h : Decides R ok post x)
    (hf : ∀ e, R e → R' (f e)) : Decides R' ok post (x.mapError f) := by
  rcases h with ⟨hok, a, rfl, hpost⟩ | ⟨hno, e, hR, rfl⟩
  · exact .inl ⟨hok, a, rfl, hpost⟩
  · exact .inr ⟨hno, f e, hf e hR, rfl⟩

end Decides

theorem decides_ok {post : α → Prop} {a : α} (h : post a) : Decides R True post (.ok a) :=
  .inl ⟨trivial, a, rfl, h⟩

theorem decides_reject {bad : Bool} {e : ε} (he : R e) :
    Decides R (bad = false) (fun _ => True) (reject bad e) := by
  cases bad
  · exact .inl ⟨rfl, (), rfl, trivial⟩
  · exact .inr ⟨Bool.noConfusion, e, he, rfl⟩

theorem decides_orError {x : Option α} {e : ε} (he : R e) :
    Decides R (x.isSome = true) (fun a => x = some a) (orError e x) := by
  cases x with
  | none => exact .inr ⟨Bool.noConfusion, e, he, rfl⟩
  | some a => exact .inl ⟨rfl, a, rfl, rfl⟩

/-- A computation for each element. -/
theorem decides_mapM {xs : List α} {f : α → Except ε β} {ok : α → Prop} {post : α → β → Prop}
    (h : ∀ x, Decides R (ok x) (post x) (f x)) :
    Decides R (∀ x ∈ xs, ok x) (List.Forall₂ post xs) (xs.mapM f) := by
  induction xs with
  | nil => exact .inl ⟨List.forall_mem_nil _, [], rfl, .nil⟩
  | cons x xs ih =>
    rw [List.mapM_cons]
    refine ((h x).bind fun y _ hy => ih.bind fun ys _ hys => decides_ok ?_).congr ?_
    · exact List.Forall₂.cons hy hys
    · rw [List.forall_mem_cons, and_true]

/-- A check of each element. -/
theorem decides_forM {xs : List α} {f : α → Except ε Unit} {ok : α → Prop}
    (h : ∀ x, Decides R (ok x) (fun _ => True) (f x)) :
    Decides R (∀ x ∈ xs, ok x) (fun _ => True) (xs.forM f) := by
  induction xs with
  | nil => exact .inl ⟨List.forall_mem_nil _, (), rfl, trivial⟩
  | cons x xs ih => exact ((h x).bind fun _ _ _ => ih).congr List.forall_mem_cons.symm

/-- A loop with a state. -/
theorem decides_foldlM {step : σ → α → Except ε σ} {start : σ} {admitted : List α → Prop}
    {stateOf : List α → σ} (hstart : stateOf [] = start) (hnil : admitted [])
    (hstep : ∀ xs x, admitted xs →
      Decides R (admitted (xs ++ [x])) (fun s => s = stateOf (xs ++ [x])) (step (stateOf xs) x))
    (hmono : ∀ xs x, admitted (xs ++ [x]) → admitted xs) (xs : List α) :
    Decides R (admitted xs) (fun s => s = stateOf xs) (xs.foldlM step start) := by
  induction xs using List.reverseRecOn with
  | nil => exact .inl ⟨hnil, start, rfl, hstart.symm⟩
  | append_singleton xs x ih =>
    have hloop : (xs ++ [x]).foldlM step start = (xs.foldlM step start >>= fun s => step s x) := by
      rw [List.foldlM_append]
      congr 1
      funext s
      rw [List.foldlM_cons]
      exact bind_pure _
    rw [hloop]
    refine (ih.bind fun s hadmitted hs => ?_).congr
      ⟨And.right, fun h => ⟨hmono xs x h, h⟩⟩
    rw [hs]
    exact hstep xs x hadmitted

end Verdict
