import Mathlib.Data.List.Basic
import Mathlib.Logic.Relation

/-!
# Runs of a deterministic machine

A machine answers a call `a : α` in a state `s : σ` with a reply `b : β` and a next state,
`step s a : β × σ`.  This file fixes the vocabulary for statements over whole runs:

* `run step s as`, the state after the calls `as`;
* `events step s as`, the run as a list of `Event`s (state before, call, reply, state after);
* the induction rules `run_induct` (an invariant) and `run_induct_of` (an invariant whose step needs
  a condition that every event of the run meets);
* `mem_events_iff`, which cuts a run at one of its events.
-/

namespace StepRun

variable {σ α β : Type*}

/-- One answered call of a run. -/
structure Event (σ α β : Type*) where
  before : σ
  call : α
  reply : β
  after : σ

variable (step : σ → α → β × σ)

/-- The event of calling `a` in state `s`. -/
def event (s : σ) (a : α) : Event σ α β := ⟨s, a, (step s a).1, (step s a).2⟩

/-- The state after a list of calls. -/
def run (s : σ) : List α → σ
  | [] => s
  | a :: as => run (step s a).2 as

/-- The events of a list of calls, in order. -/
def events (s : σ) : List α → List (Event σ α β)
  | [] => []
  | a :: as => event step s a :: events (step s a).2 as

@[simp] theorem run_nil (s : σ) : run step s [] = s := rfl

@[simp] theorem run_cons (s : σ) (a : α) (as : List α) :
    run step s (a :: as) = run step (step s a).2 as := rfl

@[simp] theorem events_nil (s : σ) : events step s [] = [] := rfl

@[simp] theorem events_cons (s : σ) (a : α) (as : List α) :
    events step s (a :: as) = event step s a :: events step (step s a).2 as := rfl

theorem run_append (s : σ) (as bs : List α) :
    run step s (as ++ bs) = run step (run step s as) bs := by
  induction as generalizing s with
  | nil => rfl
  | cons a as ih => exact ih (step s a).2

theorem run_snoc (s : σ) (as : List α) (a : α) :
    run step s (as ++ [a]) = (step (run step s as) a).2 := by
  rw [run_append]; rfl

theorem events_snoc (s : σ) (as : List α) (a : α) :
    events step s (as ++ [a]) = events step s as ++ [event step (run step s as) a] := by
  induction as generalizing s with
  | nil => rfl
  | cons b as ih => exact congrArg (event step s b :: ·) (ih (step s b).2)

variable {step}

/-- An event of a run is a call made after a prefix of the run. -/
theorem mem_events_iff {s : σ} {as : List α} {e : Event σ α β} :
    e ∈ events step s as ↔
      ∃ pre a post, as = pre ++ a :: post ∧ e = event step (run step s pre) a := by
  induction as generalizing s with
  | nil => simp
  | cons a as ih =>
    rw [events_cons, List.mem_cons, ih]
    constructor
    · rintro (rfl | ⟨pre, b, post, rfl, rfl⟩)
      · exact ⟨[], a, as, rfl, rfl⟩
      · exact ⟨a :: pre, b, post, rfl, rfl⟩
    · rintro ⟨pre, b, post, heq, rfl⟩
      cases pre with
      | nil =>
        obtain ⟨rfl, -⟩ := List.cons.inj heq
        exact Or.inl rfl
      | cons c pre =>
        obtain ⟨rfl, rfl⟩ := List.cons.inj heq
        exact Or.inr ⟨pre, b, post, rfl, rfl⟩

/-- A split of the event list at one event is a split of the calls. -/
theorem events_eq_append_cons {s : σ} {as : List α} {l r : List (Event σ α β)}
    {e : Event σ α β} (h : events step s as = l ++ e :: r) :
    ∃ pre a post, as = pre ++ a :: post ∧ l = events step s pre ∧
      e = event step (run step s pre) a ∧
      r = events step (step (run step s pre) a).2 post := by
  induction as generalizing s l with
  | nil => simp at h
  | cons a as ih =>
    cases l with
    | nil =>
      obtain ⟨rfl, rfl⟩ := List.cons.inj h
      exact ⟨[], a, as, rfl, rfl, rfl, rfl⟩
    | cons f l =>
      obtain ⟨rfl, hl⟩ := List.cons.inj h
      obtain ⟨pre, b, post, rfl, rfl, rfl, rfl⟩ := ih hl
      exact ⟨a :: pre, b, post, rfl, rfl, rfl, rfl⟩

/-- **Invariant rule.** -/
theorem run_induct {I : σ → Prop} (hstep : ∀ s a, I s → I (step s a).2) {s : σ} (hs : I s)
    (as : List α) : I (run step s as) := by
  induction as generalizing s with
  | nil => exact hs
  | cons a as ih => exact ih (hstep s a hs)

/-- **Invariant rule under a condition on the events.**  The step may use `C` of the event. -/
theorem run_induct_of {I : σ → Prop} {C : Event σ α β → Prop}
    (hstep : ∀ s a, I s → C (event step s a) → I (step s a).2) {s : σ} (hs : I s)
    {as : List α} (hC : ∀ e ∈ events step s as, C e) : I (run step s as) := by
  induction as generalizing s with
  | nil => exact hs
  | cons a as ih =>
    rw [events_cons] at hC
    exact ih (hstep s a hs (hC _ List.mem_cons_self))
      (fun e he => hC e (List.mem_cons_of_mem _ he))

end StepRun
