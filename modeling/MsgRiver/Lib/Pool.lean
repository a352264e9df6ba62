import Mathlib.Data.List.Induction
import Mathlib.Logic.Function.Basic
import Mathlib.Logic.Relation
import MsgRiver.Lib.Run

/-!
# Pools of programs

A `Program` reaches a state that it shares with others through calls; the system answers one call
at a time.  A `Pool` is the shared state with any number of workers, each of them stopped, ready or
inside a program.  In a run of the pool the workers take turns in any order, and a worker can stop
at any point.

The rules are those of rely and guarantee.  A `Contract` says which transitions of the shared state
a worker may make.  `Keeps` says of a program that each of its calls is such a transition, whatever
the other workers do in between, and `Pool.run_holds` carries this to all runs of a pool.
`Pool.answerOf` is what a part of a worker's program has answered, and `Pool.answerOf_spec` is the
rule for its answers.
-/

namespace MsgRiver

/-- A program that makes calls and ends with an answer. -/
inductive Program (Call : Type) (Reply : Call → Type) (α : Type)
  | ret (a : α)
  | ask (call : Call) (next : Reply call → Program Call Reply α)

namespace Program

variable {Call : Type} {Reply : Call → Type} {α β : Type}

/-- One program, and what comes of its result. -/
def bind : Program Call Reply α → (α → Program Call Reply β) → Program Call Reply β
  | ret a, f => f a
  | ask call next, f => ask call fun reply => (next reply).bind f

instance : Monad (Program Call Reply) where
  pure := ret
  bind := bind

theorem bind_pure (p : Program Call Reply α) : p >>= pure = p := by
  induction p with
  | ret a => rfl
  | ask call next ih => exact congrArg (ask call) (funext ih)

theorem bind_assoc {γ : Type} (p : Program Call Reply α) (f : α → Program Call Reply β)
    (g : β → Program Call Reply γ) : p >>= f >>= g = p >>= fun a => f a >>= g := by
  induction p with
  | ret a => rfl
  | ask call next ih => exact congrArg (ask call) (funext ih)

/-- One call. -/
def call (c : Call) : Program Call Reply (Reply c) := ask c ret

end Program

/-- How a system answers a call of a worker, and what it does when a worker has stopped.  What the
worker cannot foresee of the answer is its `Fate`. -/
structure System (σ Call : Type) (Reply : Call → Type) (Fate : Type) where
  answer : ℕ → (call : Call) → Fate → σ → Reply call × σ
  release : ℕ → σ → σ

/-- What a worker does: the program of an operation, which leaves it with another kernel, and the
program that starts it again after a stop. -/
structure Duty (Call : Type) (Reply : Call → Type) (κ Op : Type) where
  work : κ → Op → Program Call Reply (Option κ)
  boot : Program Call Reply (Option κ)

/-- A worker: stopped, between two operations or inside of one. -/
inductive Worker (Call : Type) (Reply : Call → Type) (κ : Type)
  | stopped
  | ready (kernel : κ)
  | running (program : Program Call Reply (Option κ))

/-- The kernel of a worker that is ready. -/
def Worker.kernel {Call : Type} {Reply : Call → Type} {κ : Type} : Worker Call Reply κ → Option κ
  | .ready kernel => some kernel
  | .stopped | .running _ => none

theorem Worker.kernel_eq_some {Call : Type} {Reply : Call → Type} {κ : Type}
    {worker : Worker Call Reply κ} {kernel : κ} :
    worker.kernel = some kernel ↔ worker = .ready kernel := by
  cases worker <;> simp [Worker.kernel]

/-- A shared state and its workers. -/
structure Pool (σ Call : Type) (Reply : Call → Type) (κ : Type) where
  shared : σ
  workers : ℕ → Worker Call Reply κ

/-- A worker begins an operation, starts again, gets an answer or stops. -/
inductive Move (Op Fate : Type)
  | begin (worker : ℕ) (op : Op)
  | boot (worker : ℕ)
  | turn (worker : ℕ) (fate : Fate)
  | stop (worker : ℕ)

/-- The worker that moves. -/
def Move.worker {Op Fate : Type} : Move Op Fate → ℕ
  | .begin w _ | .boot w | .turn w _ | .stop w => w

namespace Pool

variable {σ Call : Type} {Reply : Call → Type} {κ Op Fate : Type}

/-- A worker goes on as another one. -/
def setWorker (p : Pool σ Call Reply κ) (w : ℕ) (worker : Worker Call Reply κ) :
    Pool σ Call Reply κ :=
  { p with workers := Function.update p.workers w worker }

/-- The worker that a finished program leaves. -/
def finished : Option κ → Worker Call Reply κ
  | none => .stopped
  | some kernel => .ready kernel

variable (S : System σ Call Reply Fate) (D : Duty Call Reply κ Op)

/-- One turn of a worker. -/
def turn (p : Pool σ Call Reply κ) (w : ℕ) (fate : Fate) : Pool σ Call Reply κ :=
  match p.workers w with
  | .running (.ask call next) =>
    { p.setWorker w (.running (next (S.answer w call fate p.shared).1)) with
      shared := (S.answer w call fate p.shared).2 }
  | .running (.ret a) => p.setWorker w (finished a)
  | .ready _ | .stopped => p

/-- One move. -/
def step (p : Pool σ Call Reply κ) : Move Op Fate → Pool σ Call Reply κ
  | .begin w op =>
    match p.workers w with
    | .ready kernel => p.setWorker w (.running (D.work kernel op))
    | .running _ | .stopped => p
  | .boot w =>
    match p.workers w with
    | .stopped => p.setWorker w (.running D.boot)
    | .ready _ | .running _ => p
  | .turn w fate => p.turn S w fate
  | .stop w => { p.setWorker w .stopped with shared := S.release w p.shared }

/-- A run of moves. -/
def run (p : Pool σ Call Reply κ) (moves : List (Move Op Fate)) : Pool σ Call Reply κ :=
  moves.foldl (step S D) p

@[simp] theorem run_nil (p : Pool σ Call Reply κ) : run S D p [] = p := rfl

theorem run_concat (p : Pool σ Call Reply κ) (moves : List (Move Op Fate)) (m : Move Op Fate) :
    run S D p (moves ++ [m]) = step S D (run S D p moves) m := by
  rw [run, List.foldl_append]
  rfl

theorem run_append (p : Pool σ Call Reply κ) (moves more : List (Move Op Fate)) :
    run S D p (moves ++ more) = run S D (run S D p moves) more :=
  List.foldl_append ..

theorem begin_workers {p : Pool σ Call Reply κ} {w : ℕ} {kernel : κ}
    (h : p.workers w = .ready kernel) (op : Op) :
    (step S D p (.begin w op)).workers w = .running (D.work kernel op) := by
  simp only [step, h]
  exact Function.update_self ..

/-- What the program answers with which a worker of the pool goes on, if the moves bring it to its
end before the worker stops. -/
def answerOf {α : Type} (w : ℕ) : Program Call Reply α → Pool σ Call Reply κ →
    List (Move Op Fate) → Option α
  | .ret a, _, _ => some a
  | .ask _ _, _, [] => none
  | .ask call next, p, m :: moves =>
    match m with
    | .turn v fate =>
      if v = w then answerOf w (next (S.answer w call fate p.shared).1) (p.turn S v fate) moves
      else answerOf w (.ask call next) (p.turn S v fate) moves
    | .stop v => if v = w then none else answerOf w (.ask call next) (step S D p (.stop v)) moves
    | .begin v op => answerOf w (.ask call next) (step S D p (.begin v op)) moves
    | .boot v => answerOf w (.ask call next) (step S D p (.boot v)) moves

end Pool

/-! ### Rely and guarantee -/

/-- What every worker may assume of the shared state and what it may do to it. -/
structure Contract (σ : Type) where
  inv : σ → Prop
  may : ℕ → σ → σ → Prop
  inv_may : ∀ {w s t}, inv s → may w s t → inv t

namespace Contract

variable {σ : Type} (C : Contract σ)

/-- The others have made transitions. -/
def Rely (w : ℕ) : σ → σ → Prop :=
  Relation.ReflTransGen fun s t => C.inv s ∧ ∃ v, v ≠ w ∧ C.may v s t

variable {C} {w : ℕ} {s t u : σ}

theorem Rely.refl : C.Rely w s s := Relation.ReflTransGen.refl

theorem Rely.trans (h : C.Rely w s t) (h' : C.Rely w t u) : C.Rely w s u :=
  Relation.ReflTransGen.trans h h'

theorem Rely.single {v : ℕ} (hinv : C.inv s) (hne : v ≠ w) (h : C.may v s t) : C.Rely w s t :=
  Relation.ReflTransGen.single ⟨hinv, v, hne, h⟩

variable (C) in
/-- The others keep the assertion. -/
def Stable (w : ℕ) (P : σ → Prop) : Prop :=
  ∀ v s t, C.inv s → v ≠ w → C.may v s t → P s → P t

theorem Stable.rely {P : σ → Prop} (hP : C.Stable w P) (h : C.Rely w s t) (hs : P s) : P t := by
  induction h with
  | refl => exact hs
  | tail _ hstep ih =>
    obtain ⟨hinv, v, hne, hmay⟩ := hstep
    exact hP v _ _ hinv hne hmay ih

end Contract

section Keeps

variable {σ Call : Type} {Reply : Call → Type} {κ Op Fate α β : Type}

/-- From the state on, each call of the program is a transition that the worker may make, and the
answer comes with `post`, whatever the others do in between. -/
def Keeps (S : System σ Call Reply Fate) (C : Contract σ) (w : ℕ) (post : α → σ → Prop) :
    Program Call Reply α → σ → Prop
  | .ret a, s => ∀ t, C.Rely w s t → C.inv t → post a t
  | .ask call next, s => ∀ t, C.Rely w s t → C.inv t → ∀ fate,
      C.may w t (S.answer w call fate t).2 ∧
        Keeps S C w post (next (S.answer w call fate t).1) (S.answer w call fate t).2

variable {S : System σ Call Reply Fate} {C : Contract σ} {w : ℕ} {post : α → σ → Prop} {s t : σ}

theorem Keeps.rely {p : Program Call Reply α} (h : Keeps S C w post p s) (hst : C.Rely w s t) :
    Keeps S C w post p t := by
  cases p with
  | ret a => exact fun u htu => h u (hst.trans htu)
  | ask call next => exact fun u htu => h u (hst.trans htu)

theorem Keeps.mono {p : Program Call Reply α} {post' : α → σ → Prop} (h : Keeps S C w post p s)
    (hpost : ∀ a t, C.inv t → post a t → post' a t) : Keeps S C w post' p s := by
  induction p generalizing s with
  | ret a => exact fun t hst hinv => hpost a t hinv (h t hst hinv)
  | ask call next ih =>
    intro t hst hinv fate
    exact ⟨(h t hst hinv fate).1, ih _ (h t hst hinv fate).2⟩

theorem Keeps.ret {a : α} (P : σ → Prop) (hP : C.Stable w P) (hs : P s)
    (h : ∀ t, C.inv t → P t → post a t) : Keeps S C w post (pure a : Program Call Reply α) s :=
  fun t hst hinv => h t hinv (hP.rely hst hs)

theorem Keeps.bind {p : Program Call Reply β} {f : β → Program Call Reply α} (mid : β → σ → Prop)
    (hp : Keeps S C w mid p s) (hf : ∀ b t, C.inv t → mid b t → Keeps S C w post (f b) t) :
    Keeps S C w post (p >>= f) s := by
  induction p generalizing s with
  | ret b =>
    show Keeps S C w post (f b) s
    have hb := fun t hst hinv => hf b t hinv (hp t hst hinv)
    cases hprogram : f b with
    | ret a =>
      rw [hprogram] at hb
      exact fun t hst hinv => hb t hst hinv t .refl hinv
    | ask call next =>
      rw [hprogram] at hb
      exact fun t hst hinv => hb t hst hinv t .refl hinv
  | ask call next ih =>
    intro t hst hinv fate
    exact ⟨(hp t hst hinv fate).1, ih _ (hp t hst hinv fate).2⟩

/-- A call under an assertion that the others keep. -/
theorem Keeps.call {c : Call} (post : Reply c → σ → Prop) (P : σ → Prop) (hP : C.Stable w P)
    (hs : P s)
    (h : ∀ t, C.inv t → P t → ∀ fate, C.may w t (S.answer w c fate t).2 ∧
      ∀ u, C.Rely w (S.answer w c fate t).2 u → C.inv u → post (S.answer w c fate t).1 u) :
    Keeps S C w post (Program.call c) s :=
  fun t hst hinv fate => h t hinv (hP.rely hst hs) fate

/-- What every answer keeps is kept by every program, under a contract that every answer is under. -/
theorem Keeps.always (hanswer : ∀ v call fate s, C.may v s (S.answer v call fate s).2) {P : σ → Prop}
    (hP : ∀ v s t, C.may v s t → P s → P t) (p : Program Call Reply α) (hs : P s) :
    Keeps S C w (fun _ => P) p s := by
  have hrely : ∀ {s t}, C.Rely w s t → P s → P t := fun h hs =>
    Contract.Stable.rely (fun v s t _ _ hmay => hP v s t hmay) h hs
  induction p generalizing s with
  | ret a => exact fun t hst _ => hrely hst hs
  | ask call next ih =>
    intro t hst _ fate
    exact ⟨hanswer w call fate t, ih _ (hP w _ _ (hanswer w call fate t) (hrely hst hs))⟩

end Keeps

section KeepsOk

variable {σ Call : Type} {Reply : Call → Type} {Fate ε δ α β : Type}

/-- From the state on, each call of a program that can fail is a transition that the worker may
make, and its value comes with `post`. -/
def KeepsOk (S : System σ Call Reply Fate) (C : Contract σ) (w : ℕ) (post : α → σ → Prop)
    (x : ExceptT ε (Program Call Reply) α) (s : σ) : Prop :=
  Keeps S C w (fun r t => ∀ a, r = .ok a → post a t) x.run s

variable {S : System σ Call Reply Fate} {C : Contract σ} {w : ℕ} {post : α → σ → Prop} {s : σ}

theorem KeepsOk.throw (e : ε) :
    KeepsOk S C w post (throw e : ExceptT ε (Program Call Reply) α) s :=
  Keeps.ret (fun _ => True) (fun _ _ _ _ _ _ _ => trivial) trivial fun _ _ _ _ ha => (nomatch ha)

theorem KeepsOk.pure (a : α) (P : σ → Prop) (hP : C.Stable w P) (hs : P s)
    (h : ∀ t, C.inv t → P t → post a t) :
    KeepsOk S C w post (pure a : ExceptT ε (Program Call Reply) α) s :=
  Keeps.ret P hP hs fun t hinv ht b hb => by cases hb; exact h t hinv ht

theorem KeepsOk.bind {x : ExceptT ε (Program Call Reply) β}
    {f : β → ExceptT ε (Program Call Reply) α} (mid : β → σ → Prop) (hx : KeepsOk S C w mid x s)
    (hf : ∀ b t, C.inv t → mid b t → KeepsOk S C w post (f b) t) :
    KeepsOk S C w post (x >>= f) s := by
  refine Keeps.bind _ hx ?_
  intro r t hinv hr
  cases r with
  | ok b => exact hf b t hinv (hr b rfl)
  | error e => exact KeepsOk.throw e

/-- The error is reported as another one. -/
theorem KeepsOk.adapt {x : ExceptT ε (Program Call Reply) α} {f : ε → δ}
    (hx : KeepsOk S C w post x s) (hpost : ∀ a, C.Stable w (post a)) :
    KeepsOk S C w post (x.adapt f) s := by
  refine Keeps.bind _ hx ?_
  intro r t _ hr
  cases r with
  | ok b => exact Keeps.ret (post b) (hpost b) (hr b rfl) fun u _ hu a ha => by cases ha; exact hu
  | error e =>
    exact Keeps.ret (fun _ => True) (fun _ _ _ _ _ _ _ => trivial) trivial
      fun _ _ _ _ ha => (nomatch ha)

/-- One call under an assertion that the others keep. -/
theorem KeepsOk.call {c : Call} (post : Reply c → σ → Prop) (P : σ → Prop) (hP : C.Stable w P)
    (hs : P s)
    (h : ∀ t, C.inv t → P t → ∀ fate, C.may w t (S.answer w c fate t).2 ∧
      ∀ u, C.Rely w (S.answer w c fate t).2 u → C.inv u → post (S.answer w c fate t).1 u) :
    KeepsOk S C w post (ExceptT.lift (Program.call c) : ExceptT ε (Program Call Reply) _) s := by
  intro t hst hinv fate
  obtain ⟨hmay, hpost⟩ := h t hinv (hP.rely hst hs) fate
  refine ⟨hmay, fun u htu hinvu a ha => ?_⟩
  cases ha
  exact hpost u htu hinvu

end KeepsOk

/-! ### Runs of a pool -/

namespace Pool

variable {σ Call : Type} {Reply : Call → Type} {κ Op Fate : Type}

/-- What holds of a worker between its turns. -/
def Sound (S : System σ Call Reply Fate) (C : Contract σ) (good : ℕ → κ → σ → Prop) (w : ℕ)
    (s : σ) : Worker Call Reply κ → Prop
  | .stopped => True
  | .ready kernel => good w kernel s
  | .running program =>
    Keeps S C w (fun a t => ∀ kernel, a = some kernel → good w kernel t) program s

/-- The contract holds of the shared state and of every worker. -/
structure Holds (S : System σ Call Reply Fate) (C : Contract σ) (good : ℕ → κ → σ → Prop)
    (p : Pool σ Call Reply κ) : Prop where
  inv : C.inv p.shared
  sound : ∀ w, Sound S C good w p.shared (p.workers w)

/-- The duty is one under the contract. -/
structure Fulfils (S : System σ Call Reply Fate) (D : Duty Call Reply κ Op) (C : Contract σ)
    (good : ℕ → κ → σ → Prop) : Prop where
  stable : ∀ w kernel, C.Stable w (good w kernel)
  work : ∀ w kernel op s, C.inv s → good w kernel s →
    Keeps S C w (fun a t => ∀ kernel, a = some kernel → good w kernel t) (D.work kernel op) s
  boot : ∀ w s, C.inv s →
    Keeps S C w (fun a t => ∀ kernel, a = some kernel → good w kernel t) D.boot s
  release : ∀ w s, C.inv s → C.may w s (S.release w s)

variable {S : System σ Call Reply Fate} {D : Duty Call Reply κ Op} {C : Contract σ}
  {good : ℕ → κ → σ → Prop}

/-- Every duty is one under a contract that every answer is under. -/
theorem Fulfils.always (hanswer : ∀ v call fate s, C.may v s (S.answer v call fate s).2)
    (hrelease : ∀ v s, C.may v s (S.release v s)) :
    Fulfils S D C fun _ _ _ => True where
  stable _ _ _ _ _ _ _ _ _ := trivial
  work _ _ _ _ _ _ :=
    (Keeps.always hanswer (fun _ _ _ _ _ => trivial) _ trivial).mono fun _ _ _ h _ _ => h
  boot _ _ _ :=
    (Keeps.always hanswer (fun _ _ _ _ _ => trivial) _ trivial).mono fun _ _ _ h _ _ => h
  release v s _ := hrelease v s

theorem Sound.rely (hstable : ∀ w kernel, C.Stable w (good w kernel)) {w : ℕ} {s t : σ}
    {worker : Worker Call Reply κ} (h : Sound S C good w s worker) (hst : C.Rely w s t) :
    Sound S C good w t worker := by
  cases worker with
  | stopped => trivial
  | ready kernel => exact (hstable w kernel).rely hst h
  | running program => exact Keeps.rely h hst

/-- A move of a worker that leaves the shared state as it is. -/
theorem Holds.setWorker {p : Pool σ Call Reply κ} (h : Holds S C good p) {w : ℕ}
    (worker : Worker Call Reply κ) (hworker : Sound S C good w p.shared worker) :
    Holds S C good (p.setWorker w worker) where
  inv := h.inv
  sound v := by
    by_cases hv : v = w
    · subst hv
      show Sound S C good v p.shared (Function.update p.workers v worker v)
      rw [Function.update_self]
      exact hworker
    · show Sound S C good v p.shared (Function.update p.workers w worker v)
      rw [Function.update_of_ne hv]
      exact h.sound v

/-- A move of a worker that it may make. -/
theorem Holds.transition (hD : Fulfils S D C good) {p : Pool σ Call Reply κ}
    (h : Holds S C good p) {w : ℕ} (worker : Worker Call Reply κ) {s : σ}
    (hmay : C.may w p.shared s) (hworker : Sound S C good w s worker) :
    Holds S C good { p.setWorker w worker with shared := s } where
  inv := C.inv_may h.inv hmay
  sound v := by
    by_cases hv : v = w
    · subst hv
      show Sound S C good v s (Function.update p.workers v worker v)
      rw [Function.update_self]
      exact hworker
    · show Sound S C good v s (Function.update p.workers w worker v)
      rw [Function.update_of_ne hv]
      exact (h.sound v).rely hD.stable (.single h.inv (Ne.symm hv) hmay)

/-- **One move.**  The shared state stays or changes as the contract allows. -/
theorem step_holds (hD : Fulfils S D C good) {p : Pool σ Call Reply κ} (h : Holds S C good p)
    (m : Move Op Fate) :
    Holds S C good (step S D p m) ∧ ((step S D p m).shared = p.shared ∨
      C.may m.worker p.shared (step S D p m).shared) := by
  cases m with
  | begin w op =>
    have hsound := h.sound w
    cases hworker : p.workers w with
    | ready kernel =>
      rw [hworker] at hsound
      simp only [step, hworker]
      exact ⟨h.setWorker (.running _) (hD.work w kernel op p.shared h.inv hsound),
        .inl rfl⟩
    | running program =>
      simp only [step, hworker]
      exact ⟨h, .inl trivial⟩
    | stopped =>
      simp only [step, hworker]
      exact ⟨h, .inl trivial⟩
  | boot w =>
    cases hworker : p.workers w with
    | stopped =>
      simp only [step, hworker]
      exact ⟨h.setWorker (.running _) (hD.boot w p.shared h.inv), .inl rfl⟩
    | ready kernel =>
      simp only [step, hworker]
      exact ⟨h, .inl trivial⟩
    | running program =>
      simp only [step, hworker]
      exact ⟨h, .inl trivial⟩
  | turn w fate =>
    have hsound := h.sound w
    cases hworker : p.workers w with
    | stopped =>
      simp only [step, turn, hworker]
      exact ⟨h, .inl trivial⟩
    | ready kernel =>
      simp only [step, turn, hworker]
      exact ⟨h, .inl trivial⟩
    | running program =>
      rw [hworker] at hsound
      cases program with
      | ret a =>
        simp only [step, turn, hworker]
        refine ⟨h.setWorker _ ?_, .inl rfl⟩
        cases a with
        | none => trivial
        | some kernel => exact hsound p.shared .refl h.inv kernel rfl
      | ask call next =>
        simp only [step, turn, hworker]
        obtain ⟨hmay, hnext⟩ := hsound p.shared .refl h.inv fate
        exact ⟨h.transition hD (.running _) hmay hnext, .inr hmay⟩
  | stop w =>
    have hmay := hD.release w p.shared h.inv
    exact ⟨h.transition hD .stopped hmay trivial, .inr hmay⟩

/-- **All runs.**  The contract holds after every run. -/
theorem run_holds (hD : Fulfils S D C good) {p : Pool σ Call Reply κ} (h : Holds S C good p)
    (moves : List (Move Op Fate)) : Holds S C good (run S D p moves) := by
  induction moves using List.reverseRecOn with
  | nil => exact h
  | append_singleton moves m ih =>
    rw [run_concat]
    exact (step_holds hD ih m).1

/-- What every transition under the contract keeps holds after every run. -/
theorem run_invariant (hD : Fulfils S D C good) {J : σ → Prop}
    (hstep : ∀ w s t, C.inv s → J s → C.may w s t → J t) {p : Pool σ Call Reply κ}
    (h : Holds S C good p) (hJ : J p.shared) (moves : List (Move Op Fate)) :
    J (run S D p moves).shared := by
  induction moves using List.reverseRecOn with
  | nil => exact hJ
  | append_singleton moves m ih =>
    rw [run_concat]
    have hall := run_holds hD h moves
    rcases (step_holds hD hall m).2 with hsame | hmay
    · rw [hsame]
      exact ih
    · exact hstep m.worker _ _ hall.inv ih hmay

/-- A move of another worker, or one that begins while the worker is inside a program. -/
theorem step_workers {p : Pool σ Call Reply κ} {w : ℕ} (m : Move Op Fate) (hne : m.worker ≠ w) :
    (step S D p m).workers w = p.workers w := by
  cases m with
  | begin v op =>
    simp only [step]
    split
    · exact Function.update_of_ne (Ne.symm hne) _ _
    · rfl
    · rfl
  | boot v =>
    simp only [step]
    split
    · exact Function.update_of_ne (Ne.symm hne) _ _
    · rfl
    · rfl
  | turn v fate =>
    simp only [step, turn]
    split
    · exact Function.update_of_ne (Ne.symm hne) _ _
    · exact Function.update_of_ne (Ne.symm hne) _ _
    · rfl
    · rfl
  | stop v => exact Function.update_of_ne (Ne.symm hne) _ _

theorem step_rely (hD : Fulfils S D C good) {p : Pool σ Call Reply κ} (h : Holds S C good p)
    {w : ℕ} (m : Move Op Fate) (hne : m.worker ≠ w) : C.Rely w p.shared (step S D p m).shared := by
  rcases (step_holds hD h m).2 with hsame | hmay
  · rw [hsame]
    exact .refl
  · exact .single h.inv hne hmay

/-- **The answers of a program.**  A worker goes on with a program that keeps the contract; when the
program has answered, `post` holds of the answer. -/
theorem answerOf_spec {α : Type} (hD : Fulfils S D C good) {w : ℕ} {post : α → σ → Prop}
    {f : α → Program Call Reply (Option κ)} {a : α} (moves : List (Move Op Fate))
    {q : Program Call Reply α} {p : Pool σ Call Reply κ} (h : Holds S C good p)
    (hworker : p.workers w = .running (q >>= f)) (hq : Keeps S C w post q p.shared)
    (hanswer : answerOf S D w q p moves = some a) :
    ∃ front back, moves = front ++ back ∧ post a (run S D p front).shared := by
  induction moves generalizing q p with
  | nil =>
    cases q with
    | ret b =>
      obtain rfl := Option.some.inj hanswer
      exact ⟨[], [], rfl, hq p.shared .refl h.inv⟩
    | ask call next => cases hanswer
  | cons m moves ih =>
    cases q with
    | ret b =>
      obtain rfl := Option.some.inj hanswer
      exact ⟨[], m :: moves, rfl, hq p.shared .refl h.inv⟩
    | ask call next =>
      -- after the first move the worker goes on with what is left of the program
      have hgoes : ∀ q', (step S D p m).workers w = .running (q' >>= f) →
          Keeps S C w post q' (step S D p m).shared →
          answerOf S D w q' (step S D p m) moves = some a →
          ∃ front back, m :: moves = front ++ back ∧ post a (run S D p front).shared := by
        intro q' hworker' hq' hanswer'
        obtain ⟨front, back, rfl, hpost⟩ := ih (step_holds hD h m).1 hworker' hq' hanswer'
        exact ⟨m :: front, back, rfl, hpost⟩
      have hother : m.worker ≠ w →
          answerOf S D w (.ask call next) (step S D p m) moves = some a →
          ∃ front back, m :: moves = front ++ back ∧ post a (run S D p front).shared :=
        fun hne => hgoes _ ((step_workers m hne).trans hworker) (hq.rely (step_rely hD h m hne))
      have hrunning : p.workers w = .running (.ask call fun reply => next reply >>= f) := hworker
      cases m with
      | turn v fate =>
        simp only [answerOf] at hanswer
        split_ifs at hanswer with hv
        · subst hv
          have hstep : step S D p (.turn v fate) =
              { p.setWorker v (.running (next (S.answer v call fate p.shared).1 >>= f)) with
                shared := (S.answer v call fate p.shared).2 } := by
            simp only [step, turn, hrunning]
          refine hgoes _ ?_ ?_ hanswer
          · rw [hstep]
            exact Function.update_self ..
          · rw [hstep]
            exact (hq p.shared .refl h.inv fate).2
        · exact hother hv hanswer
      | stop v =>
        simp only [answerOf] at hanswer
        split_ifs at hanswer with hv
        exact hother hv hanswer
      | begin v op =>
        simp only [answerOf] at hanswer
        by_cases hv : v = w
        · subst hv
          have hstep : step S D p (.begin v op : Move Op Fate) = p := by simp only [step, hrunning]
          refine hgoes _ ?_ ?_ hanswer <;> rw [hstep]
          · exact hworker
          · exact hq
        · exact hother hv hanswer
      | boot v =>
        simp only [answerOf] at hanswer
        by_cases hv : v = w
        · subst hv
          have hstep : step S D p (.boot v : Move Op Fate) = p := by simp only [step, hrunning]
          refine hgoes _ ?_ ?_ hanswer <;> rw [hstep]
          · exact hworker
          · exact hq
        · exact hother hv hanswer

end Pool

end MsgRiver
