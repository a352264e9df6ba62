import Mathlib.Tactic.Common
import Mathlib.Logic.Function.Basic

/-!
# Processes that call a system

A process works on a state that outlives it, and it reaches that state through calls.  The system
answers each call with an outcome; where the outcomes end, the process has stopped, and whatever it
has done to the state by then remains.  So a statement about every list of outcomes covers every
point at which a call fails or the process stops.

* `Triple pre x post`: from a state with `pre`, the process ends with `post`, also when it stops;
* `Succeeds pre x calls post`: when no call fails, the process answers after at most `calls` calls;
* `Refuses x state calls e`: when no call fails, the process ends with the error `e`.
-/

namespace MsgRiver

/-- How the system answers a call; a transfer reports how far it went. -/
inductive Outcome
  | done (count : ℕ)
  | interrupted
  | failed
  deriving DecidableEq

/-- How a process ends. -/
inductive Answer (ε α : Type)
  | ok (a : α)
  | error (e : ε)
  | stopped
  deriving DecidableEq

/-- A process on states of type `σ`. -/
def Process (σ ε α : Type) : Type := σ → List Outcome → Answer ε α × σ × List Outcome

/-- How a turn of a loop ends. -/
inductive Turn (ε β α : Type)
  | again (b : β)
  | ok (a : α)
  | error (e : ε)

namespace Process

variable {σ ε α β : Type}

instance : Monad (Process σ ε) where
  pure a := fun state outcomes => (.ok a, state, outcomes)
  bind x f := fun state outcomes =>
    match x state outcomes with
    | (.ok a, state, outcomes) => f a state outcomes
    | (.error e, state, outcomes) => (.error e, state, outcomes)
    | (.stopped, state, outcomes) => (.stopped, state, outcomes)

/-- A computation that does not call the system. -/
def lift : Except ε α → Process σ ε α
  | .ok a => fun state outcomes => (.ok a, state, outcomes)
  | .error e => fun state outcomes => (.error e, state, outcomes)

/-- `if let Err(error) = x { cleanup(error) }`. -/
def onError (x : Process σ ε α) (cleanup : ε → Process σ ε α) : Process σ ε α :=
  fun state outcomes =>
    match x state outcomes with
    | (.error e, state, outcomes) => cleanup e state outcomes
    | other => other

/-- `.map_err(f)`. -/
def mapError {δ : Type} (f : ε → δ) (x : Process σ ε α) : Process σ δ α :=
  fun state outcomes =>
    match x state outcomes with
    | (.ok a, state, outcomes) => (.ok a, state, outcomes)
    | (.error e, state, outcomes) => (.error (f e), state, outcomes)
    | (.stopped, state, outcomes) => (.stopped, state, outcomes)

/-- A loop that makes one call in each turn. -/
def loop (body : β → Outcome → σ → Turn ε β α × σ) (b : β) : Process σ ε α :=
  fun state outcomes => go outcomes b state
where
  go : List Outcome → β → σ → Answer ε α × σ × List Outcome
    | [], _, state => (.stopped, state, [])
    | outcome :: outcomes, b, state =>
      match body b outcome state with
      | (.again b, state) => go outcomes b state
      | (.ok a, state) => (.ok a, state, outcomes)
      | (.error e, state) => (.error e, state, outcomes)

/-- One call. -/
def call (body : Outcome → σ → Except ε α × σ) : Process σ ε α
  | state, [] => (.stopped, state, [])
  | state, outcome :: outcomes =>
    match body outcome state with
    | (.ok a, state) => (.ok a, state, outcomes)
    | (.error e, state) => (.error e, state, outcomes)

/-! ### Triples -/

/-- From a state with `pre` the process ends with `post`, whatever the outcomes are. -/
def Triple (pre : σ → Prop) (x : Process σ ε α) (post : Answer ε α → σ → Prop) : Prop :=
  ∀ state outcomes, pre state → post (x state outcomes).1 (x state outcomes).2.1

section Triple

variable {pre : σ → Prop} {post : Answer ε β → σ → Prop}

theorem Triple.pure {a : α} {post : Answer ε α → σ → Prop}
    (h : ∀ state, pre state → post (.ok a) state) : Triple pre (Pure.pure a) post :=
  fun state _ hpre => h state hpre

theorem Triple.lift {x : Except ε α} {post : Answer ε α → σ → Prop}
    (hok : ∀ a, x = .ok a → ∀ state, pre state → post (.ok a) state)
    (herror : ∀ e, x = .error e → ∀ state, pre state → post (.error e) state) :
    Triple pre (Process.lift x) post := by
  intro state outcomes hpre
  cases x with
  | ok a => exact hok a rfl state hpre
  | error e => exact herror e rfl state hpre

/-- The rule of composition: an error and a stop of the first part are those of the whole. -/
theorem Triple.bind {x : Process σ ε α} {f : α → Process σ ε β} (mid : α → σ → Prop)
    (hx : Triple pre x fun
      | .ok a => mid a
      | .error e => post (.error e)
      | .stopped => post .stopped)
    (hf : ∀ a, Triple (mid a) (f a) post) : Triple pre (x >>= f) post := by
  intro state outcomes hpre
  have h := hx state outcomes hpre
  simp only [Bind.bind]
  generalize x state outcomes = run at h ⊢
  obtain ⟨answer, state', outcomes'⟩ := run
  cases answer with
  | ok a => exact hf a state' outcomes' h
  | error e => exact h
  | stopped => exact h

theorem Triple.onError {x : Process σ ε α} {cleanup : ε → Process σ ε α}
    {post : Answer ε α → σ → Prop} (failed : ε → σ → Prop)
    (hx : Triple pre x fun
      | .ok a => post (.ok a)
      | .error e => failed e
      | .stopped => post .stopped)
    (hcleanup : ∀ e, Triple (failed e) (cleanup e) post) :
    Triple pre (x.onError cleanup) post := by
  intro state outcomes hpre
  have h := hx state outcomes hpre
  unfold Process.onError
  generalize x state outcomes = run at h ⊢
  obtain ⟨answer, state', outcomes'⟩ := run
  cases answer with
  | ok a => exact h
  | error e => exact hcleanup e state' outcomes' h
  | stopped => exact h

theorem Triple.mapError {δ : Type} {f : ε → δ} {x : Process σ ε α} {post : Answer δ α → σ → Prop}
    (hx : Triple pre x fun
      | .ok a => post (.ok a)
      | .error e => post (.error (f e))
      | .stopped => post .stopped) :
    Triple pre (x.mapError f) post := by
  intro state outcomes hpre
  have h := hx state outcomes hpre
  unfold Process.mapError
  generalize x state outcomes = run at h ⊢
  obtain ⟨answer, state', outcomes'⟩ := run
  cases answer <;> exact h

theorem Triple.call {body : Outcome → σ → Except ε α × σ} {post : Answer ε α → σ → Prop}
    (hstopped : ∀ state, pre state → post .stopped state)
    (hbody : ∀ outcome state, pre state →
      post (match (body outcome state).1 with
        | .ok a => .ok a
        | .error e => .error e) (body outcome state).2) :
    Triple pre (Process.call body) post := by
  intro state outcomes hpre
  cases outcomes with
  | nil => exact hstopped state hpre
  | cons outcome outcomes =>
    have h := hbody outcome state hpre
    simp only [Process.call]
    generalize body outcome state = turn at h ⊢
    obtain ⟨answer, state'⟩ := turn
    cases answer <;> exact h

/-- The rule of loops: `inv` holds between the turns. -/
theorem Triple.loop {body : β → Outcome → σ → Turn ε β α × σ} (inv : β → σ → Prop)
    {post : Answer ε α → σ → Prop} (hstopped : ∀ b state, inv b state → post .stopped state)
    (hbody : ∀ b outcome state, inv b state →
      match body b outcome state with
      | (.again b, state) => inv b state
      | (.ok a, state) => post (.ok a) state
      | (.error e, state) => post (.error e) state) (b : β) :
    Triple (inv b) (Process.loop body b) post := by
  intro state outcomes hinv
  show post (loop.go body outcomes b state).1 (loop.go body outcomes b state).2.1
  induction outcomes generalizing b state with
  | nil => exact hstopped b state hinv
  | cons outcome outcomes ih =>
    have h := hbody b outcome state hinv
    rw [loop.go]
    generalize body b outcome state = turned at h ⊢
    obtain ⟨turn, state'⟩ := turned
    cases turn with
    | again b' => exact ih b' state' h
    | ok a => exact h
    | error e => exact h

theorem Triple.mono {x : Process σ ε β} {pre' : σ → Prop} {post' : Answer ε β → σ → Prop}
    (h : Triple pre x post) (hpre : ∀ state, pre' state → pre state)
    (hpost : ∀ answer state, post answer state → post' answer state) : Triple pre' x post' :=
  fun state outcomes hstate => hpost _ _ (h state outcomes (hpre state hstate))

/-- A triple can be shown for one starting state at a time. -/
theorem Triple.of_start {x : Process σ ε β}
    (h : ∀ start, pre start → Triple (· = start) x post) : Triple pre x post :=
  fun state outcomes hpre => h state hpre state outcomes rfl

/-- The first part leaves the state as it is. -/
theorem Triple.bind_start {x : Process σ ε α} {f : α → Process σ ε β} {start : σ} (good : α → Prop)
    (hx : Triple (· = start) x fun answer state => state = start ∧
      match answer with
      | .ok a => good a
      | .error e => post (.error e) start
      | .stopped => post .stopped start)
    (hf : ∀ a, good a → Triple (· = start) (f a) post) : Triple (· = start) (x >>= f) post := by
  refine .bind (fun a state => state = start ∧ good a) (hx.mono (fun _ h => h) ?_) fun a => ?_
  · rintro (a | e | _) state ⟨rfl, h⟩
    · exact ⟨rfl, h⟩
    · exact h
    · exact h
  · rintro state outcomes ⟨hstate, hgood⟩
    exact hf a hgood state outcomes hstate

/-- The first part makes no call. -/
theorem Triple.lift_bind {x : Except ε α} {f : α → Process σ ε β} {start : σ}
    (herror : ∀ e, x = .error e → post (.error e) start)
    (hok : ∀ a, x = .ok a → Triple (· = start) (f a) post) :
    Triple (· = start) (Process.lift x >>= f) post := by
  refine .bind_start (fun a => x = .ok a) (.lift ?_ ?_) hok
  · exact fun a ha _ h => ⟨h, ha⟩
  · exact fun e he _ h => ⟨h, herror e he⟩

end Triple

/-! ### Calls that do not fail -/

/-- Outcomes of calls that all go through; a transfer gets somewhere. -/
def through (counts : List ℕ) : List Outcome := counts.map fun count => .done (count + 1)

/-- When no call fails, the process answers after at most `calls` calls, with `post`. -/
def Succeeds (pre : σ → Prop) (x : Process σ ε α) (calls : ℕ) (post : α → σ → Prop) : Prop :=
  ∀ state (counts : List ℕ), pre state → calls ≤ counts.length →
    ∃ a state' rest, counts.length ≤ rest.length + calls ∧
      x state (through counts) = (.ok a, state', through rest) ∧ post a state'

section Succeeds

variable {pre : σ → Prop}

theorem Succeeds.pure {a : α} {post : α → σ → Prop} (h : ∀ state, pre state → post a state) :
    Succeeds pre (Pure.pure a : Process σ ε α) 0 post :=
  fun state counts hpre _ => ⟨a, state, counts, Nat.le_refl _, rfl, h state hpre⟩

theorem Succeeds.lift {x : Except ε α} {a : α} {post : α → σ → Prop} (hx : x = .ok a)
    (h : ∀ state, pre state → post a state) : Succeeds pre (Process.lift x) 0 post := by
  subst hx
  exact fun state counts hpre _ => ⟨a, state, counts, Nat.le_refl _, rfl, h state hpre⟩

theorem Succeeds.bind {x : Process σ ε α} {f : α → Process σ ε β} {calls calls' : ℕ}
    (mid : α → σ → Prop) {post : β → σ → Prop} (hx : Succeeds pre x calls mid)
    (hf : ∀ a, Succeeds (mid a) (f a) calls' post) :
    Succeeds pre (x >>= f) (calls + calls') post := by
  intro state counts hpre hlength
  obtain ⟨a, state', rest, hrest, hrun, hmid⟩ := hx state counts hpre (by omega)
  obtain ⟨b, state'', rest', hrest', hrun', hpost⟩ := hf a state' rest hmid (by omega)
  refine ⟨b, state'', rest', by omega, ?_, hpost⟩
  simp only [Bind.bind]
  rw [hrun]
  exact hrun'

theorem Succeeds.onError {x : Process σ ε α} {calls : ℕ} {post : α → σ → Prop}
    (hx : Succeeds pre x calls post) (cleanup : ε → Process σ ε α) :
    Succeeds pre (x.onError cleanup) calls post := by
  intro state counts hpre hlength
  obtain ⟨a, state', rest, hrest, hrun, hpost⟩ := hx state counts hpre hlength
  refine ⟨a, state', rest, hrest, ?_, hpost⟩
  unfold Process.onError
  rw [hrun]

theorem Succeeds.mapError {δ : Type} {x : Process σ ε α} {calls : ℕ} {post : α → σ → Prop}
    (hx : Succeeds pre x calls post) (f : ε → δ) : Succeeds pre (x.mapError f) calls post := by
  intro state counts hpre hlength
  obtain ⟨a, state', rest, hrest, hrun, hpost⟩ := hx state counts hpre hlength
  refine ⟨a, state', rest, hrest, ?_, hpost⟩
  unfold Process.mapError
  rw [hrun]

theorem Succeeds.call {body : Outcome → σ → Except ε α × σ} {post : α → σ → Prop}
    (h : ∀ state count, pre state →
      ∃ a state', body (.done (count + 1)) state = (.ok a, state') ∧ post a state') :
    Succeeds pre (Process.call body) 1 post := by
  intro state counts hpre hlength
  cases counts with
  | nil => cases hlength
  | cons count counts =>
    obtain ⟨a, state', hbody, hpost⟩ := h state count hpre
    refine ⟨a, state', counts, Nat.le_refl _, ?_, hpost⟩
    rw [through, List.map_cons, Process.call, hbody]
    rfl

/-- A loop that gets closer to its end in every turn. -/
theorem Succeeds.loop {body : β → Outcome → σ → Turn ε β α × σ} {post : α → σ → Prop}
    (inv : β → σ → Prop) (remaining : β → ℕ)
    (hbody : ∀ b count state, inv b state →
      (∃ b' state', body b (.done (count + 1)) state = (.again b', state') ∧ inv b' state' ∧
        remaining b' < remaining b) ∨
      ∃ a state', body b (.done (count + 1)) state = (.ok a, state') ∧ post a state')
    (b : β) : Succeeds (inv b) (Process.loop body b) (remaining b + 1) post := by
  intro state counts hinv hlength
  show ∃ a state' rest, _ ∧ loop.go body (through counts) b state = _ ∧ _
  induction counts generalizing b state with
  | nil => cases hlength
  | cons count counts ih =>
    rw [through, List.map_cons, loop.go]
    rcases hbody b count state hinv with ⟨b', state', hagain, hinv', hlt⟩ | ⟨a, state', hok, hpost⟩
    · rw [List.length_cons] at hlength
      obtain ⟨a, state'', rest, hrest, hrun, hpost⟩ := ih b' state' hinv' (by omega)
      refine ⟨a, state'', rest, by rw [List.length_cons]; omega, ?_, hpost⟩
      rw [hagain]
      exact hrun
    · refine ⟨a, state', counts, by rw [List.length_cons]; omega, ?_, hpost⟩
      rw [hok]
      rfl

theorem Succeeds.mono {x : Process σ ε α} {calls : ℕ} {pre' : σ → Prop} {post post' : α → σ → Prop}
    (h : Succeeds pre x calls post) (hpre : ∀ state, pre' state → pre state)
    (hpost : ∀ a state, post a state → post' a state) : Succeeds pre' x calls post' := by
  intro state counts hstate hlength
  obtain ⟨a, state', rest, hrest, hrun, ha⟩ := h state counts (hpre state hstate) hlength
  exact ⟨a, state', rest, hrest, hrun, hpost a state' ha⟩

theorem Succeeds.of_le {x : Process σ ε α} {calls calls' : ℕ} {post : α → σ → Prop}
    (h : Succeeds pre x calls post) (hle : calls ≤ calls') : Succeeds pre x calls' post := by
  intro state counts hstate hlength
  obtain ⟨a, state', rest, hrest, hrun, ha⟩ := h state counts hstate (by omega)
  exact ⟨a, state', rest, by omega, hrun, ha⟩

/-- When no call fails, the process answers `a` and leaves the state alone. -/
def Answers (x : Process σ ε α) (state : σ) (calls : ℕ) (a : α) : Prop :=
  Succeeds (· = state) x calls fun b state' => b = a ∧ state' = state

theorem Answers.bind {x : Process σ ε α} {f : α → Process σ ε β} {state : σ} {calls calls' : ℕ}
    {a : α}
    {post : β → σ → Prop} (hx : Answers x state calls a)
    (hf : Succeeds (· = state) (f a) calls' post) :
    Succeeds (· = state) (x >>= f) (calls + calls') post := by
  refine Succeeds.bind _ hx fun b state' counts => ?_
  rintro ⟨rfl, hstate⟩
  exact hf state' counts hstate

theorem answers_pure {state : σ} (a : α) : Answers (Pure.pure a : Process σ ε α) state 0 a :=
  .pure fun _ hstate => ⟨rfl, hstate⟩

theorem answers_lift {state : σ} {x : Except ε α} {a : α} (h : x = .ok a) :
    Answers (Process.lift x) state 0 a :=
  .lift h fun _ hstate => ⟨rfl, hstate⟩

/-- When no call fails, the process answers the error and leaves the state alone. -/
def Refuses (x : Process σ ε α) (state : σ) (calls : ℕ) (e : ε) : Prop :=
  ∀ counts : List ℕ, calls ≤ counts.length →
    ∃ rest, x state (through counts) = (.error e, state, rest)

theorem refuses_lift {state : σ} {x : Except ε α} {e : ε} (h : x = .error e) :
    Refuses (Process.lift x) state 0 e := by
  subst h
  exact fun counts _ => ⟨through counts, rfl⟩

theorem Refuses.bind {x : Process σ ε α} {state : σ} {calls : ℕ} {e : ε}
    (hx : Refuses x state calls e)
    (f : α → Process σ ε β) : Refuses (x >>= f) state calls e := by
  intro counts hlength
  obtain ⟨rest, hrun⟩ := hx counts hlength
  refine ⟨rest, ?_⟩
  simp only [Bind.bind]
  rw [hrun]

theorem Answers.refuses {x : Process σ ε α} {f : α → Process σ ε β} {state : σ} {calls calls' : ℕ}
    {a : α} {e : ε} (hx : Answers x state calls a) (hf : Refuses (f a) state calls' e) :
    Refuses (x >>= f) state (calls + calls') e := by
  intro counts hlength
  obtain ⟨_, _, rest, hrest, hrun, rfl, rfl⟩ := hx state counts rfl (by omega)
  obtain ⟨rest', hrun'⟩ := hf rest (by omega)
  refine ⟨rest', ?_⟩
  simp only [Bind.bind]
  rw [hrun]
  exact hrun'

end Succeeds

end Process

end MsgRiver
