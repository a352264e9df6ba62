import Mathlib.Tactic.Common

/-!
# Fallible computations

Inversion lemmas for `Except`: what a computation that answered `ok` did on the way.  `reject` is
the guard `if bad { return Err(e) }`, and `orError` turns a missing value into an error.
-/

namespace Result

variable {ε α β : Type}

/-- `if bad { return Err(e) }`. -/
def reject (bad : Bool) (e : ε) : Except ε Unit := if bad then .error e else .ok ()

/-- `.ok_or(e)`. -/
def orError (e : ε) : Option α → Except ε α
  | some a => .ok a
  | none => .error e

@[simp] theorem reject_eq_ok {bad : Bool} {e : ε} {u : Unit} :
    reject bad e = .ok u ↔ bad = false := by
  cases bad <;> simp [reject]

@[simp] theorem orError_eq_ok {e : ε} {x : Option α} {a : α} :
    orError e x = .ok a ↔ x = some a := by
  cases x <;> simp [orError]

theorem bind_eq_ok {x : Except ε α} {f : α → Except ε β} {b : β} :
    (x >>= f) = .ok b ↔ ∃ a, x = .ok a ∧ f a = .ok b := by
  cases x <;> simp [bind, Except.bind]

theorem reject_bind_eq_ok {bad : Bool} {e : ε} {f : Unit → Except ε β} {b : β} :
    (reject bad e >>= f) = .ok b ↔ bad = false ∧ f () = .ok b := by
  cases bad <;> simp [reject, bind, Except.bind]

theorem orError_bind_eq_ok {e : ε} {x : Option α} {f : α → Except ε β} {b : β} :
    (orError e x >>= f) = .ok b ↔ ∃ a, x = some a ∧ f a = .ok b := by
  rw [bind_eq_ok]
  simp

theorem map_eq_ok {f : α → β} {x : Except ε α} {b : β} :
    f <$> x = .ok b ↔ ∃ a, x = .ok a ∧ f a = b := by
  cases x <;> simp [Functor.map, Except.map]

theorem mapError_eq_ok {ε' : Type} {f : ε → ε'} {x : Except ε α} {a : α} :
    x.mapError f = .ok a ↔ x = .ok a := by
  cases x <;> simp [Except.mapError]

/-! ### Where a computation stopped -/

theorem reject_eq_error {bad : Bool} {e e' : ε} :
    reject bad e = .error e' ↔ bad = true ∧ e = e' := by
  cases bad <;> simp [reject]

theorem orError_eq_error {e e' : ε} {x : Option α} :
    orError e x = .error e' ↔ x = none ∧ e = e' := by
  cases x <;> simp [orError]

theorem mapError_eq_error {ε' : Type} {f : ε → ε'} {x : Except ε α} {e' : ε'} :
    x.mapError f = .error e' ↔ ∃ e, x = .error e ∧ f e = e' := by
  cases x <;> simp [Except.mapError]

theorem bind_eq_error {x : Except ε α} {f : α → Except ε β} {e : ε} :
    (x >>= f) = .error e ↔ x = .error e ∨ ∃ a, x = .ok a ∧ f a = .error e := by
  cases x <;> simp [bind, Except.bind]

theorem pure_ne_error {a : α} {e : ε} : (pure a : Except ε α) ≠ .error e := nofun

/-! ### Loops -/

/-- A loop that checks each element. -/
theorem forM_eq_ok {xs : List α} {f : α → Except ε Unit} {u : Unit} :
    xs.forM f = .ok u ↔ ∀ x ∈ xs, f x = .ok () := by
  induction xs with
  | nil => simp [List.forM, pure, Except.pure]
  | cons x xs ih =>
    show (f x >>= fun _ => xs.forM f) = .ok u ↔ _
    rw [bind_eq_ok, List.forall_mem_cons, ← ih]
    exact ⟨fun ⟨_, h⟩ => h, fun h => ⟨(), h⟩⟩

/-- A loop that computes one value for each element succeeds when it does for every element. -/
theorem exists_mapM {xs : List α} {f : α → Except ε β} (h : ∀ x ∈ xs, ∃ y, f x = .ok y) :
    ∃ ys, xs.mapM f = .ok ys := by
  induction xs with
  | nil => exact ⟨[], rfl⟩
  | cons x xs ih =>
    obtain ⟨⟨y, hy⟩, hxs⟩ := List.forall_mem_cons.1 h
    obtain ⟨ys, hys⟩ := ih hxs
    rw [List.mapM_cons]
    exact ⟨y :: ys, bind_eq_ok.2 ⟨y, hy, bind_eq_ok.2 ⟨ys, hys, rfl⟩⟩⟩

@[simp] theorem pure_eq_ok {a b : α} : (pure a : Except ε α) = .ok b ↔ a = b := by
  simp [pure, Except.pure]

@[simp] theorem throw_ne_ok {e : ε} {b : α} : (throw e : Except ε α) ≠ .ok b := by
  simp [throw, throwThe, MonadExceptOf.throw]

end Result
