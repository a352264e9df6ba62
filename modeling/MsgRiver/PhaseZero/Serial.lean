import Mathlib.Data.List.Infix
import MsgRiver.Lib.Sha256
import MsgRiver.PhaseZero.Ledger

/-!
# One history for all workers

The workers of a store take turns call by call and can stop at any point.  Here it is shown that
nevertheless only legal records enter the log, and that the snapshot file is the state that the log
has reached (`run_legal`): the workers together behave like one that runs their operations one after
the other.

What a worker is told has happened: `Recorded` says that an operation that answered with success has
its record in the log, from between its start and its answer.

The rules are those of `Contract` and `Keeps`, read for the methods of a kernel: `Triple` says what
a method does while its worker holds the lock or does not.  An assertion on the log has to be kept by
what the others may add meanwhile (`Kept`); under the lock they add nothing but provider captures.
-/

namespace MsgRiver.PhaseZero

open Ascii Bytes Result History
open Snapshot (encodeState decodeState)

namespace Serial

open Ledger Kernel

variable (hmac : List UInt8 → List UInt8 → ByteVec 32) (initial : LoopState)

/-! ### The contract -/

/-- What a worker may do to the store. -/
inductive May (w : ℕ) (s : Shared) : Shared → Prop
  | stay : May w s s
  | lock (hfree : s.lock = none) : May w s { s with lock := some w }
  | unlock : May w s (s.unlock w)
  | persist {bytes : List UInt8} {record : Record} {state : LoopState} (hlock : s.lock = some w)
      (hlegal : Legal hmac initial s.log (w, record)) (hstate : stateOf record = some state)
      (hbytes : encodeState state = .ok bytes) :
      May w s { s.note w record with snapshot := bytes }
  | alert {capture : AlertCapture} {leaseFence : UInt64} {observedAt : Int64}
      (hlock : s.lock = some w)
      (hlegal : Legal hmac initial s.log (w, .alerted capture leaseFence observedAt)) :
      May w s (s.note w (.alerted capture leaseFence observedAt))
  | provided {capture : ProviderCapture} : May w s (s.note w (.provided capture))

/-- The log is legal, and the file is the state that it has reached. -/
structure Inv (s : Shared) : Prop where
  snapshot : decodeState s.snapshot = .ok (currentOf initial s.log)
  legal : Everywhere (Legal hmac initial) s.log

variable {hmac initial}

theorem legal_provided (log : Log) (w : ℕ) (capture : ProviderCapture) :
    Legal hmac initial log (w, .provided capture) :=
  ⟨trivial, fun h => (nomatch h), fun _ _ _ h => (nomatch h)⟩

theorem inv_may {w : ℕ} {s t : Shared} (hs : Inv hmac initial s) (h : May hmac initial w s t) :
    Inv hmac initial t := by
  obtain ⟨hsnapshot, hlegal⟩ := hs
  cases h with
  | stay => exact ⟨hsnapshot, hlegal⟩
  | lock hfree => exact ⟨hsnapshot, hlegal⟩
  | unlock => exact ⟨hsnapshot, hlegal⟩
  | @persist bytes record state hlock hnew hstate hbytes =>
    refine ⟨?_, hlegal.concat hnew⟩
    show decodeState bytes = .ok (currentOf initial (s.log ++ [(w, record)]))
    rw [currentOf_concat, hstate, Option.getD_some]
    exact (Snapshot.encodeState_eq_ok_iff_decodeState_eq_ok state bytes).1 hbytes
  | @alert capture leaseFence observedAt hlock hnew =>
    refine ⟨?_, hlegal.concat hnew⟩
    show decodeState s.snapshot = .ok (currentOf initial (s.log ++ [_]))
    rw [currentOf_concat]
    exact hsnapshot
  | @provided capture =>
    refine ⟨?_, hlegal.concat (legal_provided s.log w capture)⟩
    show decodeState s.snapshot = .ok (currentOf initial (s.log ++ [_]))
    rw [currentOf_concat]
    exact hsnapshot

variable (hmac initial) in
/-- The invariant, and what a worker may do to the store. -/
def contract : Contract Shared := ⟨Inv hmac initial, May hmac initial, inv_may⟩

/-! ### Assertions on the log -/

/-- The worker holds the lock if it should, and the log is as asserted. -/
structure At (w : ℕ) (held : Bool) (P : Log → Prop) (s : Shared) : Prop where
  lock : held = true → s.lock = some w
  log : P s.log

/-- The others keep the assertion; under the lock they add only provider captures. -/
def Kept (w : ℕ) (held : Bool) (P : Log → Prop) : Prop :=
  ∀ log v record, v ≠ w → (held = true → ∃ capture, record = .provided capture) → P log →
    P (log ++ [(v, record)])

/-- Once asserted, always asserted. -/
def Lasting (P : Log → Prop) : Prop := ∀ log e, P log → P (log ++ [e])

section Kept

variable {w : ℕ} {held : Bool} {P Q : Log → Prop}

theorem Lasting.kept (h : Lasting P) : Kept w held P := fun log v record _ _ hP =>
  h log (v, record) hP

theorem kept_const (p : Prop) : Kept w held fun _ => p := fun _ _ _ _ _ h => h

theorem Kept.and (hP : Kept w held P) (hQ : Kept w held Q) :
    Kept w held fun log => P log ∧ Q log :=
  fun log v record hne hheld h =>
    ⟨hP log v record hne hheld h.1, hQ log v record hne hheld h.2⟩

theorem Kept.all {ι : Sort*} {P : ι → Log → Prop} (h : ∀ i, Kept w held (P i)) :
    Kept w held fun log => ∀ i, P i log :=
  fun log v record hne hheld hP i => h i log v record hne hheld (hP i)

theorem Kept.exists {ι : Sort*} {P : ι → Log → Prop} (h : ∀ i, Kept w held (P i)) :
    Kept w held fun log => ∃ i, P i log :=
  fun log v record hne hheld ⟨i, hP⟩ => ⟨i, h i log v record hne hheld hP⟩

theorem Kept.imp {p : Prop} (h : p → Kept w held P) : Kept w held fun log => p → P log :=
  fun log v record hne hheld hP hp => h hp log v record hne hheld (hP hp)

theorem lasting_known (state : LoopState) : Lasting fun log => Known initial log state :=
  fun _ e h => h.append [e]

theorem kept_lastDispatch (found : Option Record) :
    Kept w held fun log => lastDispatch w log = found := by
  intro log v record hne _ h
  rw [lastDispatch_concat, if_neg (fun hboth => hne hboth.1)]
  exact h

theorem kept_currentOf (state : LoopState) :
    Kept w true fun log => currentOf initial log = state := by
  intro log v record _ hheld h
  obtain ⟨capture, rfl⟩ := hheld rfl
  rw [currentOf_concat]
  exact h

theorem stable_at (h : Kept w held P) : (contract hmac initial).Stable w (At w held P) := by
  rintro v s t - hne hmay ⟨hlock, hlog⟩
  cases hmay with
  | stay => exact ⟨hlock, hlog⟩
  | lock hfree =>
    refine ⟨fun hheld => ?_, hlog⟩
    rw [hlock hheld] at hfree
    cases hfree
  | unlock =>
    refine ⟨fun hheld => ?_, hlog⟩
    show (if s.lock = some v then none else s.lock) = some w
    rw [hlock hheld, if_neg]
    exact fun heq => hne (Option.some.inj heq).symm
  | persist hother hlegal hstate hbytes =>
    have hfree : held = true → False := fun hheld =>
      hne (Option.some.inj (hother.symm.trans (hlock hheld)))
    exact ⟨fun hheld => (hfree hheld).elim, h _ v _ hne (fun hheld => (hfree hheld).elim) hlog⟩
  | alert hother hlegal =>
    have hfree : held = true → False := fun hheld =>
      hne (Option.some.inj (hother.symm.trans (hlock hheld)))
    exact ⟨fun hheld => (hfree hheld).elim, h _ v _ hne (fun hheld => (hfree hheld).elim) hlog⟩
  | provided => exact ⟨hlock, h _ v _ hne (fun _ => ⟨_, rfl⟩) hlog⟩

end Kept

/-! ### Rules for methods -/

section Triple

variable {α β : Type} {w : ℕ} {held m held' : Bool} {F G : Log → Prop} {k k' : Kernel}

variable (hmac initial) in
/-- The kernel holds a state that was in place, and `F` holds of the log.  From there on the method
does what its worker may do; the kernel that it leaves holds a state that was in place, and where it
answers, the answer comes with `Q`. -/
def Triple (w : ℕ) (held : Bool) (F : Log → Prop) (x : Method α) (k : Kernel) (held' : Bool)
    (Q : α → Kernel → Log → Prop) : Prop :=
  ∀ s, Inv hmac initial s → Known initial s.log k.durable → At w held F s →
    Keeps Shared.system (contract hmac initial) w (fun p t => Known initial t.log p.2.durable ∧
      ∀ a, p.1 = .ok a → At w held' (Q a p.2) t) (x k) s

variable {Q : α → Kernel → Log → Prop} {R : β → Kernel → Log → Prop}

theorem stable_known (state : LoopState) :
    (contract hmac initial).Stable w fun s => Known initial s.log state := by
  intro v s t hinv hne hmay h
  have hkept : Kept w false fun log => Known initial log state := (lasting_known state).kept
  exact (stable_at hkept v s t hinv hne hmay ⟨nofun, h⟩).log

theorem known_may {s t : Shared} (h : May hmac initial w s t) {state : LoopState}
    (hs : Known initial s.log state) : Known initial t.log state := by
  cases h with
  | stay | lock | unlock => exact hs
  | persist | alert | provided => exact hs.append [_]

/-- The method fails. -/
theorem Triple.error {x : Method α} {e : RuntimeError} (hx : x k = pure (.error e, k)) :
    Triple hmac initial w held F x k held' Q := by
  intro s _ hknown _
  rw [hx]
  exact .ret _ (stable_known _) hknown fun t _ ht => ⟨ht, nofun⟩

/-- The method answers. -/
theorem Triple.answer (a : α) (hQ : Kept w held (Q a k))
    (h : ∀ log, Known initial log k.durable → F log → Q a k log) :
    Triple hmac initial w held F (pure a) k held Q := by
  intro s _ hknown hs
  refine .ret (fun t => Known initial t.log k.durable ∧ At w held (Q a k) t) ?_
    ⟨hknown, hs.lock, h _ hknown hs.log⟩ fun t _ ht => ⟨ht.1, fun b hb => ?_⟩
  · exact fun v t u hinv hne hmay ht =>
      ⟨stable_known _ v t u hinv hne hmay ht.1, stable_at hQ v t u hinv hne hmay ht.2⟩
  · cases hb
    exact ht.2

theorem Triple.pre {x : Method α} (h : Triple hmac initial w held G x k held' Q)
    (hF : ∀ log, Everywhere (Legal hmac initial) log → Known initial log k.durable → F log →
      G log) :
    Triple hmac initial w held F x k held' Q :=
  fun s hinv hknown hs => h s hinv hknown ⟨hs.lock, hF _ hinv.legal hknown hs.log⟩

theorem Triple.given {p : Prop} {x : Method α} (h : p → Triple hmac initial w held F x k held' Q) :
    Triple hmac initial w held (fun log => p ∧ F log) x k held' Q :=
  fun s hinv hknown hs => h hs.log.1 s hinv hknown ⟨hs.lock, hs.log.2⟩

theorem Triple.exists {ι : Sort*} {F : ι → Log → Prop} {x : Method α}
    (h : ∀ i, Triple hmac initial w held (F i) x k held' Q) :
    Triple hmac initial w held (fun log => ∃ i, F i log) x k held' Q :=
  fun s hinv hknown ⟨hlock, i, hlog⟩ => h i s hinv hknown ⟨hlock, hlog⟩

theorem Triple.bind {x : Method α} {f : α → Method β}
    (hx : Triple hmac initial w held F x k m Q)
    (hf : ∀ a k', Triple hmac initial w m (Q a k') (f a) k' held' R) :
    Triple hmac initial w held F (x >>= f) k held' R := by
  intro s hinv hknown hs
  refine Keeps.bind _ (hx s hinv hknown hs) ?_
  rintro ⟨result, k'⟩ t hinv' ⟨hknown', ht⟩
  cases result with
  | ok a => exact hf a k' t hinv' hknown' (ht a rfl)
  | error e => exact .ret _ (stable_known _) hknown' fun u _ hu => ⟨hu, nofun⟩

/-- A first step that only looks at the kernel or changes what is lost with it. -/
theorem Triple.after {x : Method α} {f : α → Method β} {a : α} (hx : x k = pure (.ok a, k'))
    (hdurable : k'.durable = k.durable) (hf : Triple hmac initial w held F (f a) k' held' R) :
    Triple hmac initial w held F (x >>= f) k held' R := by
  intro s hinv hknown hs
  show Keeps _ _ _ _ (x k >>= fun p => ExceptT.bindCont f p.1 p.2) s
  rw [hx]
  exact hf s hinv (hdurable ▸ hknown) hs

theorem Triple.get {f : Kernel → Method β} (hf : Triple hmac initial w held F (f k) k held' R) :
    Triple hmac initial w held F (get >>= f) k held' R :=
  .after (a := k) rfl rfl hf

/-- The kernel takes over a state that was in place. -/
theorem Triple.modify {g : Kernel → Kernel} {f : PUnit → Method β}
    (hdurable : ∀ log, F log → Known initial log k.durable → Known initial log (g k).durable)
    (hf : Triple hmac initial w held F (f ⟨⟩) (g k) held' R) :
    Triple hmac initial w held F (modify g >>= f) k held' R :=
  fun s hinv hknown hs => hf s hinv (hdurable _ hs.log hknown) hs

theorem Triple.ofExcept {x : Except RuntimeError α} {f : α → Method β}
    (hf : ∀ a, x = .ok a → Triple hmac initial w held F (f a) k held' R) :
    Triple hmac initial w held F (Kernel.ofExcept x >>= f) k held' R := by
  cases x with
  | ok a => exact .after rfl rfl (hf a rfl)
  | error e => exact .error rfl

theorem Triple.observing {x : Method α} (hx : Triple hmac initial w held F x k held' Q)
    (hQ : ∀ a k', Kept w false (Q a k')) :
    Triple hmac initial w held F (Kernel.observing x) k false
      fun r k' log => ∀ a, r = .ok a → Q a k' log := by
  intro s hinv hknown hs
  refine Keeps.bind _ (hx s hinv hknown hs) ?_
  rintro ⟨result, k'⟩ t hinv' ⟨hknown', ht⟩
  have hlog : ∀ a, result = .ok a → Q a k' t.log := fun a ha => (ht a ha).log
  have hkept : Kept w false fun log => ∀ a, result = .ok a → Q a k' log :=
    .all fun a => .imp fun _ => hQ a k'
  exact Triple.answer (Q := fun r k' log => ∀ a, r = .ok a → Q a k' log) result hkept
    (fun _ _ h => h) t hinv' hknown' ⟨nofun, hlog⟩

/-- A method that ends with a step. -/
theorem Triple.last {x : Method α} (h : Triple hmac initial w held F (x >>= pure) k held' Q) :
    Triple hmac initial w held F x k held' Q := by
  intro s hinv hknown hs
  have hx : (x >>= pure) k = x k := by
    show (x k >>= fun p => ExceptT.bindCont (pure : α → Method α) p.1 p.2) = x k
    have hpure : (fun p : Except RuntimeError α × Kernel =>
        ExceptT.bindCont (pure : α → Method α) p.1 p.2) = pure := by
      funext p
      rcases p with ⟨_ | _, _⟩ <;> rfl
    rw [hpure, Program.bind_pure]
  rw [← hx]
  exact h s hinv hknown hs

/-- One call of the store. -/
theorem Triple.ask {call : StoreCall} {Q : StoreReply call → Kernel → Log → Prop}
    (hF : Kept w held F) (hQ : ∀ reply, Kept w held' (Q reply k))
    (h : ∀ t, Inv hmac initial t → Known initial t.log k.durable → At w held F t → ∀ fate,
      May hmac initial w t (Shared.answer w call fate t).2 ∧
        At w held' (Q (Shared.answer w call fate t).1 k) (Shared.answer w call fate t).2) :
    Triple hmac initial w held F (Kernel.ask call) k held' Q := by
  intro s hinv hknown hs t hst hinvt fate
  have hknownt := (stable_known k.durable).rely hst hknown
  obtain ⟨hmay, hnext⟩ := h t hinvt hknownt ((stable_at hF).rely hst hs) fate
  refine ⟨hmay, fun u htu _ => ⟨(stable_known _).rely htu (known_may hmay hknownt), ?_⟩⟩
  intro reply hreply
  cases hreply
  exact (stable_at (hQ _)).rely htu hnext

end Triple

/-! ### The store -/

section Store

variable {α : Type} {w : ℕ} {held : Bool} {F : Log → Prop} {k : Kernel}

/-- What is read was in place, and under the lock it still is. -/
theorem load_spec (hF : Kept w held F) :
    Triple hmac initial w held F load k held fun state k' log => k' = k ∧ F log ∧
      Known initial log state ∧ (held = true → currentOf initial log = state) := by
  refine .bind (m := held) (Q := fun bytes k' log => k' = k ∧ F log ∧
    ∀ found, bytes = some found → ∃ state, decodeState found = .ok state ∧
      Known initial log state ∧ (held = true → currentOf initial log = state)) (.ask hF ?_ ?_) ?_
  · intro reply
    refine .and (kept_const _) (.and hF (.all fun found => .imp fun _ => .exists fun state =>
      .and (kept_const _) (.and (lasting_known state).kept (.imp fun hheld => ?_))))
    subst hheld
    exact kept_currentOf state
  · intro s hinv _ hs fate
    cases fate with
    | done =>
      refine ⟨.stay, hs.lock, rfl, hs.log, ?_⟩
      rintro found ⟨⟩
      exact ⟨_, hinv.snapshot, known_currentOf, fun _ => rfl⟩
    | failed => exact ⟨.stay, hs.lock, rfl, hs.log, nofun⟩
    | failedLate => exact ⟨.stay, hs.lock, rfl, hs.log, nofun⟩
  · intro bytes k'
    cases bytes with
    | none => exact .error rfl
    | some found =>
      cases hdecode : decodeState found with
      | error e =>
        simp only [hdecode]
        exact .error rfl
      | ok state =>
        simp only [hdecode]
        refine .answer state ?_ ?_
        · refine .and (kept_const _) (.and hF (.and (lasting_known state).kept (.imp fun hheld => ?_)))
          subst hheld
          exact kept_currentOf state
        · rintro log - ⟨rfl, hlog, hfound⟩
          obtain ⟨state', hstate', hknown, hcurrent⟩ := hfound found rfl
          cases hdecode.symm.trans hstate'
          exact ⟨rfl, hlog, hknown, hcurrent⟩

theorem refreshFromStore_spec (hF : Kept w held F) :
    Triple hmac initial w held F refreshFromStore k held fun _ k' log =>
      (∃ durable, k' = { k with durable }) ∧ F log ∧
        (held = true → currentOf initial log = k'.durable) := by
  refine .bind (load_spec hF) fun state k' => ?_
  show Triple hmac initial w held _ (modify _ >>= pure) k' held _
  refine .modify (fun log hlog _ => hlog.2.2.1) (.answer _ ?_ ?_)
  · refine .and (kept_const _) (.and hF (.imp fun hheld => ?_))
    subst hheld
    exact kept_currentOf _
  · rintro log - ⟨rfl, hlog, -, hcurrent⟩
    exact ⟨⟨state, rfl⟩, hlog, hcurrent⟩

theorem Kept.weaken {P : Log → Prop} (h : Kept w false P) : Kept w held P :=
  fun log v record hne _ => h log v record hne nofun

theorem answer_tryLock (w : ℕ) (fate : StoreFate) (s : Shared) :
    (s.lock = none ∧ Shared.answer w .tryLock fate s = (.granted, { s with lock := some w })) ∨
      Shared.answer w .tryLock fate s = (.wouldBlock, s) ∨
      Shared.answer w .tryLock fate s = (.failed, s) := by
  cases fate with
  | done =>
    by_cases hfree : s.lock = none
    · exact .inl ⟨hfree, if_pos hfree⟩
    · exact .inr (.inl (if_neg hfree))
  | failed => exact .inr (.inr rfl)
  | failedLate => exact .inr (.inr rfl)

theorem acquireLock_spec (hF : Kept w false F) :
    Triple hmac initial w false F acquireLock k true fun _ k' log => k' = k ∧ F log := by
  intro s hinv hknown hs t hst hinvt fate
  have hknownt := (stable_known k.durable).rely hst hknown
  have ht := (stable_at hF).rely hst hs
  -- without the lock the method fails
  have hfails : ∀ e : RuntimeError, Triple hmac initial w false F
      (throw e : Method Unit) k true fun _ k' log => k' = k ∧ F log := fun e => .error rfl
  show May hmac initial w t (Shared.answer w .tryLock fate t).2 ∧
    Keeps _ _ _ _ _ (Shared.answer w .tryLock fate t).2
  rcases answer_tryLock w fate t with ⟨hfree, hanswer⟩ | hanswer | hanswer
  · refine ⟨by rw [hanswer]; exact .lock hfree, ?_⟩
    have hlocked : At w true F { t with lock := some w } := ⟨fun _ => rfl, ht.log⟩
    simp only [Shared.system, hanswer]
    exact Triple.answer (Q := fun _ k' log => k' = k ∧ F log) () (.and (kept_const _) hF.weaken)
      (fun _ _ h => ⟨rfl, h⟩) _ (inv_may hinvt (.lock hfree)) hknownt hlocked
  · refine ⟨by rw [hanswer]; exact .stay, ?_⟩
    simp only [Shared.system, hanswer]
    exact hfails .revisionConflict t hinvt hknownt ht
  · refine ⟨by rw [hanswer]; exact .stay, ?_⟩
    simp only [Shared.system, hanswer]
    exact hfails .invalidFixture t hinvt hknownt ht

/-- A critical section. -/
theorem withLock_spec {body : Method α} {Q : α → Kernel → Log → Prop} (hF : Kept w false F)
    (hQ : ∀ a k', Kept w false (Q a k'))
    (hbody : Triple hmac initial w true F body k true Q) :
    Triple hmac initial w false F (withLock body) k false Q := by
  refine .bind (acquireLock_spec hF) fun _ k₁ => ?_
  refine .bind (m := false) (Q := fun r k' log => ∀ a, r = .ok a → Q a k' log) ?_ fun r k₂ => ?_
  · exact .given fun hk => hk ▸ .observing hbody hQ
  · have hkept : Kept w false fun log => ∀ a, r = .ok a → Q a k₂ log :=
      .all fun a => .imp fun _ => hQ a k₂
    refine .bind (m := false) (Q := fun _ k' log => k' = k₂ ∧ ∀ a, r = .ok a → Q a k₂ log)
      (.ask hkept (fun _ => .and (kept_const _) hkept) ?_) ?_
    · intro s _ _ hs fate
      exact ⟨.unlock, nofun, rfl, hs.log⟩
    · intro _ k₃
      cases r with
      | error e => exact .error rfl
      | ok a =>
        refine .answer a (hQ a k₃) ?_
        rintro log - ⟨rfl, h⟩
        exact h a rfl

/-- A replacement that is legal now, under the lock. -/
theorem persist_spec {record : Record} {state : LoopState} {G : Log → Prop} (hF : Kept w true F)
    (hG : Kept w true G) (hstate : stateOf record = some state)
    (hlegal : ∀ log, Everywhere (Legal hmac initial) log → F log →
      Legal hmac initial log (w, record))
    (hnew : ∀ log, F log → G (log ++ [(w, record)])) :
    Triple hmac initial w true F (persist record state) k true fun _ k' log =>
      k' = k ∧ G log ∧ Known initial log state := by
  rw [persist]
  cases hbytes : encodeState state with
  | error e => exact .error rfl
  | ok bytes =>
    refine .bind (m := true) (Q := fun replaced k' log => replaced = true → k' = k ∧ G log ∧
      Known initial log state) (.ask hF ?_ ?_) ?_
    · exact fun reply => .imp fun _ => .and (kept_const _) (.and hG (lasting_known state).kept)
    · intro s hinv _ hs fate
      have hrecorded := hlegal s.log hinv.legal hs.log
      have hknown : Known initial (s.log ++ [(w, record)]) state := by
        have hcurrent : currentOf initial (s.log ++ [(w, record)]) = state := by
          rw [currentOf_concat, hstate, Option.getD_some]
        exact hcurrent ▸ known_currentOf
      cases fate with
      | done =>
        exact ⟨.persist (hs.lock rfl) hrecorded hstate hbytes, hs.lock,
          fun _ => ⟨rfl, hnew _ hs.log, hknown⟩⟩
      | failed => exact ⟨.stay, hs.lock, nofun⟩
      | failedLate => exact ⟨.persist (hs.lock rfl) hrecorded hstate hbytes, hs.lock, nofun⟩
    · intro replaced k'
      cases replaced with
      | false => exact .error rfl
      | true =>
        exact .answer () (.and (kept_const _) (.and hG (lasting_known state).kept))
          fun log _ h => h rfl

/-- **A replacement under a revision that was read.**  It has to be legal only where the state is
the one that was read. -/
theorem replaceIfRevision_spec {record : Record} {before after : LoopState} {G : Log → Prop}
    (hF : Kept w false F) (hG : Kept w false G) (hstate : stateOf record = some after)
    (hlegal : ∀ log, Everywhere (Legal hmac initial) log → F log → currentOf initial log = before →
      Legal hmac initial log (w, record))
    (hnew : ∀ log, F log → G (log ++ [(w, record)])) :
    Triple hmac initial w false (fun log => F log ∧ Known initial log before)
      (replaceIfRevision before.revision record after) k false fun _ k' log =>
        k' = k ∧ G log ∧ Known initial log after := by
  have hkept : Kept w false fun log => F log ∧ Known initial log before :=
    hF.and (lasting_known before).kept
  refine withLock_spec hkept
    (fun _ _ => .and (kept_const _) (.and hG (lasting_known after).kept)) ?_
  refine .bind (load_spec hkept.weaken) fun current k₁ => .given ?_
  rintro rfl
  refine .ofExcept fun _ hrevision => ?_
  rw [reject_eq_ok, bne_eq_false_iff_eq] at hrevision
  -- under the lock, the state is the one that was read before
  refine .pre (G := fun log => F log ∧ currentOf initial log = before) ?_ ?_
  · exact persist_spec (.and hF.weaken (kept_currentOf before)) hG.weaken hstate
      (fun log hall hlog => hlegal log hall hlog.1 hlog.2) fun log hlog => hnew log hlog.1
  · rintro log hall - ⟨⟨hlog, hbefore⟩, -, hcurrent⟩
    have hnow := hcurrent rfl
    exact ⟨hlog, currentOf_eq_of_revision hall hbefore (by rw [hnow, hrevision])⟩

end Store

/-! ### The operations of a kernel -/

section Operations

variable {β : Type} {w : ℕ} {held held' : Bool} {F : Log → Prop} {k : Kernel}
  {R : β → Kernel → Log → Prop}

theorem Triple.checkpoint {point : TransactionCheckpoint} {f : Unit → Method β}
    (hf : Triple hmac initial w held F (f ()) k held' R) :
    Triple hmac initial w held F (Kernel.checkpoint point >>= f) k held' R := by
  have hpoint : Kernel.checkpoint point k =
      (pure (reject (k.stopAt == some point) (.stop (stopFor point)), k) :
        Program StoreCall StoreReply _) := rfl
  cases hstop : k.stopAt == some point with
  | false =>
    rw [hstop] at hpoint
    exact .after hpoint rfl hf
  | true =>
    rw [hstop] at hpoint
    refine .error (e := .stop (stopFor point)) ?_
    show (Kernel.checkpoint point k >>= fun p => ExceptT.bindCont f p.1 p.2) = _
    rw [hpoint]
    rfl

theorem leaseAlert_spec (eventReference : SafeReference) (leasedAt : Int64) :
    Triple hmac initial w false (fun _ => True) (leaseAlert eventReference leasedAt) k false
      fun lease _ log => lease.eventReference = eventReference ∧
        ∃ state, lastDispatch w log = some (.leased lease state) := by
  refine .bind (refreshFromStore_spec (kept_const _)) fun _ k₁ => .get ?_
  cases hfind : splitFirst (leasable eventReference leasedAt) k₁.durable.outbox with
  | none =>
    exact .error rfl
  | some found =>
    obtain ⟨front, intent, back⟩ := found
    refine .checkpoint (.ofExcept fun lease hlease => .ofExcept fun after hafter => ?_)
    have hreplace : Triple hmac initial w false
        (fun log => True ∧ Known initial log k₁.durable)
        (replaceIfRevision k₁.durable.revision (.leased lease after) after) k₁ false
        fun _ k' log => k' = k₁ ∧ lastDispatch w log = some (.leased lease after) ∧
          Known initial log after := by
      refine replaceIfRevision_spec (kept_const _) (kept_lastDispatch _) rfl ?_ ?_
      · intro log _ _ hcurrent
        refine ⟨trivial, fun _ => ?_, nofun⟩
        show Atomic hmac (currentOf initial log) (.leased lease after)
        rw [hcurrent]
        exact .leased hfind hlease hafter
      · intro log _
        rw [lastDispatch_concat, if_pos ⟨rfl, rfl⟩]
    refine .bind (hreplace.pre fun log _ hknown _ => ⟨trivial, hknown⟩) fun _ k₂ => ?_
    refine .modify (fun log hlog _ => hlog.2.2) (.answer lease ?_ ?_)
    · exact .and (kept_const _) (.exists fun _ => kept_lastDispatch _)
    · rintro log - ⟨-, hlast, -⟩
      have hreference : intent.eventReference = eventReference :=
        eventReference_of_leasable (splitFirst_eq_some hfind).2
      obtain ⟨_, _, _, -, -, -, rfl⟩ := leaseIntent_eq_ok hlease
      exact ⟨hreference, after, hlast⟩

/-- A worker captures what it has just leased. -/
theorem captureAlert_spec (lease : AlertIntent) (state : LoopState) (observedAt : Int64) :
    Triple hmac initial w false (fun log => lastDispatch w log = some (.leased lease state))
      (captureAlert (captureOf lease) lease.leaseFence observedAt) k false fun _ _ log =>
        lastDispatch w log = some (.alerted (captureOf lease) lease.leaseFence observedAt) := by
  refine .modify (fun _ _ h => h) ?_
  refine withLock_spec (kept_lastDispatch _) (fun _ _ => kept_lastDispatch _) ?_
  refine .bind (refreshFromStore_spec (kept_lastDispatch _)) fun _ k₁ => .get ?_
  refine .ofExcept fun _ heligible => .ofExcept fun _ _ => ?_
  rw [reject_eq_ok, Bool.not_eq_false'] at heligible
  refine .bind (m := true) (Q := fun _ _ log =>
    lastDispatch w log = some (.alerted (captureOf lease) lease.leaseFence observedAt))
    (.ask (.and (kept_const _) (.and (kept_lastDispatch _) (.imp fun _ => kept_currentOf _)))
      (fun _ => kept_lastDispatch _) ?_) fun _ k₂ => ?_
  · rintro s - - ⟨hlock, -, hlast, hcurrent⟩ fate
    refine ⟨.alert (hlock rfl) ⟨⟨lease, state, hlast, rfl, rfl⟩, nofun, ?_⟩, hlock, ?_⟩
    · rintro capture leaseFence observed ⟨⟩
      rw [hcurrent rfl]
      exact heligible
    · show lastDispatch w (s.log ++ [(w, .alerted _ _ _)]) = _
      rw [lastDispatch_concat, if_pos ⟨rfl, rfl⟩]
  · exact .modify (fun _ _ h => h) (.last (.checkpoint
      (.answer _ (kept_lastDispatch _) fun _ _ h => h)))

/-- A worker settles what it has just captured. -/
theorem settleAlert_spec (capture : AlertCapture) (leaseFence : UInt64) (observedAt : Int64) :
    Triple hmac initial w false
      (fun log => lastDispatch w log = some (.alerted capture leaseFence observedAt))
      (settleAlert capture.eventReference leaseFence) k false fun _ _ _ => True := by
  refine .bind (refreshFromStore_spec (kept_lastDispatch _)) fun _ k₁ => .get ?_
  cases hfind : splitFirst (settleable capture.eventReference leaseFence) k₁.durable.outbox with
  | none => exact .error rfl
  | some found =>
    obtain ⟨front, intent, back⟩ := found
    refine .ofExcept fun after hafter => ?_
    have hreplace : Triple hmac initial w false
        (fun log => lastDispatch w log = some (.alerted capture leaseFence observedAt) ∧
          Known initial log k₁.durable)
        (replaceIfRevision k₁.durable.revision
          (.settled capture.eventReference leaseFence after) after) k₁ false
        fun _ k' log => k' = k₁ ∧ True ∧ Known initial log after := by
      refine replaceIfRevision_spec (kept_lastDispatch _) (kept_const _) rfl ?_ fun _ _ => trivial
      intro log _ hlast hcurrent
      refine ⟨⟨capture, observedAt, hlast, rfl⟩, fun _ => ?_, nofun⟩
      show Atomic hmac (currentOf initial log) (.settled capture.eventReference leaseFence after)
      rw [hcurrent]
      exact .settled hfind hafter
    refine .bind (hreplace.pre fun log _ hknown hlog => ⟨hlog.2.1, hknown⟩) fun _ k₂ => ?_
    exact .last (.modify (fun log hlog _ => hlog.2.2) (.answer _ (kept_const _) fun _ _ _ => trivial))

theorem Triple.whenStaged {k₁ : Kernel} {point : TransactionCheckpoint} {f : Unit → Method β}
    (hf : Triple hmac initial w held F (f ()) k held' R) :
    Triple hmac initial w held F (Kernel.whenStaged k₁ (Kernel.checkpoint point) >>= f) k held'
      R := by
  rw [Kernel.whenStaged]
  split_ifs
  · exact .checkpoint hf
  · exact hf

/-- A replacement by one of the operations. -/
theorem replaceDurableState_spec {before after : LoopState}
    (hreplaces : Replaces hmac before after) :
    Triple hmac initial w false (fun log => Known initial log before)
      (replaceDurableState before.revision (Loop.nextRevision before after)) k false
      fun _ _ _ => True := by
  have hkept : Kept w false fun log => Known initial log before := (lasting_known before).kept
  refine .bind (refreshFromStore_spec hkept) fun _ k₁ => .get (.ofExcept fun _ _ =>
    .ofExcept fun _ _ => .checkpoint (.whenStaged (.ofExcept fun revision hrevision => ?_)))
  rw [orError_eq_ok] at hrevision
  have hreplace : Triple hmac initial w false (fun log => True ∧ Known initial log before)
      (replaceIfRevision before.revision (.replaced { after with revision })
        { after with revision }) k₁ false
      fun _ k' log => k' = k₁ ∧ True ∧ Known initial log { after with revision } := by
    refine replaceIfRevision_spec (kept_const _) (kept_const _) rfl ?_ fun _ _ => trivial
    intro log _ _ hcurrent
    refine ⟨trivial, fun _ => ?_, nofun⟩
    show Atomic hmac (currentOf initial log) (.replaced { after with revision })
    rw [hcurrent]
    exact .replaced hreplaces hrevision
  refine .bind (hreplace.pre fun log _ _ hlog => ⟨trivial, hlog.2.1⟩) fun _ k₂ => ?_
  exact .modify (fun log hlog _ => hlog.2.2)
    (.last (.checkpoint (.answer _ (kept_const _) fun _ _ _ => trivial)))

theorem captureProvider_spec {capture : ProviderCapture} (hF : Lasting F) :
    Triple hmac initial w false F (captureProvider capture) k false fun _ _ log => F log := by
  refine .modify (fun _ _ h => h) ?_
  refine .bind (m := false) (Q := fun _ _ => F) (.ask hF.kept (fun _ => hF.kept) ?_) fun _ _ =>
    .last (.checkpoint (.answer _ hF.kept fun _ _ h => h))
  intro s _ _ hs fate
  exact ⟨.provided, nofun, hF _ _ hs.log⟩

end Operations

/-! ### The loop -/

section Loop

open Loop

variable {w : ℕ} {k : Kernel}

theorem commitAndAnswer_spec {before after : LoopState} {status : ℕ}
    (hreplaces : Replaces hmac before after) :
    Triple hmac initial w false (fun log => Known initial log before)
      (commitAndAnswer before after status) k false fun _ _ _ => True := by
  refine .bind (m := false) (Q := fun _ _ _ => True) ?_ fun _ _ =>
    .answer _ (kept_const _) fun _ _ _ => trivial
  refine .bind (.observing (replaceDurableState_spec hreplaces) fun _ _ => kept_const _) ?_
  intro result k'
  cases result with
  | ok _ => exact .answer _ (kept_const _) fun _ _ _ => trivial
  | error e =>
    cases e with
    | stop stop => exact .error rfl
    | _ => exact .answer _ (kept_const _) fun _ _ _ => trivial

/-- What a method promises when nothing but the kernel's own state is known before. -/
def Harmless (hmac : List UInt8 → List UInt8 → ByteVec 32) (initial : LoopState) (w : ℕ) {α : Type}
    (x : Method α) : Prop :=
  ∀ k, Triple hmac initial w false (fun _ => True) x k false fun _ _ _ => True

theorem harmless_answer {α : Type} (a : α) : Harmless hmac initial w (pure a) := fun _ =>
  .answer a (kept_const _) fun _ _ _ => trivial

theorem harmless_ofExcept {α : Type} (x : Except RuntimeError α) :
    Harmless hmac initial w (Kernel.ofExcept x) := by
  intro k
  cases x with
  | ok a => exact harmless_answer a k
  | error e => exact .error rfl

theorem harmless_registeredOutbound (configuration : ReferenceLoopConfiguration)
    (outbound : RegisteredOutbound) :
    Harmless hmac initial w (handleRegisteredOutbound configuration outbound) := by
  refine fun k => .get ?_
  cases hadmitted : admitOutbound configuration outbound k.durable with
  | error response =>
    simp only [hadmitted]
    exact harmless_answer response k
  | ok u =>
    simp only [hadmitted]
    refine .pre (G := fun log => Known initial log k.durable) ?_ fun _ _ hknown _ => hknown
    refine .bind (captureProvider_spec (lasting_known k.durable)) fun _ _ => ?_
    exact .ofExcept fun after hafter => commitAndAnswer_spec (.outbound hadmitted hafter)

theorem harmless_dispatch (eventReference : SafeReference) (receivedAt : Int64) :
    Harmless hmac initial w (handleDispatch eventReference receivedAt) := by
  intro k
  refine .bind (.observing (leaseAlert_spec eventReference receivedAt) fun _ _ =>
    .and (kept_const _) (.exists fun _ => kept_lastDispatch _)) fun result k₁ => ?_
  cases result with
  | error e =>
    cases e with
    | stop stop => exact .error rfl
    | _ => exact .answer _ (kept_const _) fun _ _ _ => trivial
  | ok lease =>
    refine .pre (G := fun log => lease.eventReference = eventReference ∧
      ∃ state, lastDispatch w log = some (.leased lease state)) (.given ?_) fun log _ _ h =>
        h lease rfl
    rintro rfl
    refine .exists fun state => ?_
    refine .bind (.observing (captureAlert_spec lease state receivedAt) fun _ _ =>
      kept_lastDispatch _) fun result k₂ => ?_
    cases result with
    | error e =>
      cases e with
      | alertUnavailable => exact .answer _ (kept_const _) fun _ _ _ => trivial
      | _ => exact .error rfl
    | ok u =>
      have hsettle : Triple hmac initial w false
          (fun log => ∀ a : Unit, (.ok u : Except RuntimeError Unit) = .ok a →
            lastDispatch w log = some (.alerted (captureOf lease) lease.leaseFence receivedAt))
          (settleAlert lease.eventReference lease.leaseFence) k₂ false fun _ _ _ => True :=
        (settleAlert_spec (captureOf lease) lease.leaseFence receivedAt).pre fun _ _ _ h => h u rfl
      refine .bind (.observing hsettle fun _ _ => kept_const _) fun result k₃ => ?_
      cases result with
      | ok _ => exact .answer _ (kept_const _) fun _ _ _ => trivial
      | error e =>
        cases e with
        | stop stop => exact .error rfl
        | _ => exact .answer _ (kept_const _) fun _ _ _ => trivial

theorem harmless_retention (configuration : ReferenceLoopConfiguration)
    (control : RetentionControl) (receivedAt : Int64) :
    Harmless hmac initial w (handleRetention configuration control receivedAt) := by
  intro k
  rw [handleRetention]
  split_ifs
  · exact harmless_answer _ k
  · refine .get ?_
    cases hafter : retentionAfter configuration control receivedAt k.durable with
    | error reply =>
      simp only [hafter]
      exact harmless_ofExcept reply k
    | ok after =>
      simp only [hafter]
      exact .pre (commitAndAnswer_spec (.retention hafter)) fun _ _ hknown _ => hknown

theorem harmless_serviceWindow (configuration : ReferenceLoopConfiguration)
    (eventReference priorEventReference : SafeReference) (state : ServiceWindowState)
    (receivedAt : Int64) :
    Harmless hmac initial w (handleServiceWindow configuration eventReference priorEventReference
      state receivedAt) := by
  refine fun k => .get ?_
  cases hafter : serviceWindowAfter configuration eventReference priorEventReference state
      receivedAt k.durable with
  | error reply =>
    simp only [hafter]
    exact harmless_ofExcept reply k
  | ok after =>
    simp only [hafter]
    exact .pre (commitAndAnswer_spec (.serviceWindow hafter)) fun _ _ hknown _ => hknown

theorem harmless_candidates (request : ReferenceLoopRequest)
    (candidates : List Callback.CallbackCandidate) :
    Harmless hmac initial w (handleCandidates hmac request candidates) := by
  refine fun k => .get ?_
  cases haccepted : Callback.acceptAll hmac k.durable.toDurableState
      request.callback.configuration candidates with
  | error reply =>
    simp only [haccepted]
    exact harmless_ofExcept reply k
  | ok accepted =>
    simp only [haccepted]
    split_ifs
    · exact harmless_answer _ k
    · refine .pre (G := fun log => Known initial log k.durable) ?_ fun _ _ hknown _ => hknown
      refine .bind (m := false) (Q := fun _ _ log => Known initial log k.durable) ?_ ?_
      · refine .ofExcept fun _ _ => .get (.ofExcept fun _ _ => .last (.modify (fun _ _ h => h) ?_))
        exact .answer _ (lasting_known _).kept fun _ _ h => h
      · intro _ k₁
        cases hadded : Callback.evidences request.callback k.durable.toDurableState accepted with
        | error reply => exact .pre (harmless_ofExcept reply k₁) fun _ _ _ _ => trivial
        | ok added => exact commitAndAnswer_spec (.callback haccepted hadded)

theorem harmless_handle (request : ReferenceLoopRequest) :
    Harmless hmac initial w (handle hmac request) := by
  rw [handle]
  cases request.operation with
  | callback ingress =>
    simp only
    split_ifs
    · exact harmless_answer _
    · rw [handleCallback]
      cases Callback.admittedCandidates hmac request.callback ingress with
      | error response => exact harmless_answer response
      | ok candidates => exact harmless_candidates request candidates
  | registeredOutbound outbound => exact harmless_registeredOutbound _ outbound
  | dispatchAlert eventReference => exact harmless_dispatch eventReference _
  | retention control => exact harmless_retention _ control _
  | correctServiceWindow eventReference priorEventReference state =>
    exact harmless_serviceWindow _ eventReference priorEventReference state _
  | clientCallback _ | clientApi | clientApiKey | cliCatalog => exact harmless_answer _

end Loop

/-! ### All runs -/

/-- What holds of a worker that is ready: its kernel holds a state that was in place. -/
def Good (initial : LoopState) (_ : ℕ) (kernel : Kernel) (s : Shared) : Prop :=
  Known initial s.log kernel.durable

theorem keeps_answer {w : ℕ} {s : Shared} {kernel : Kernel}
    (h : Known initial s.log kernel.durable) :
    Keeps Shared.system (contract hmac initial) w
      (fun a t => ∀ kernel, a = some kernel → Good initial w kernel t)
      (pure (some kernel) : Program StoreCall StoreReply (Option Kernel)) s := by
  refine .ret _ (stable_known kernel.durable) h fun t _ ht => ?_
  rintro _ ⟨⟩
  exact ht

/-- A worker that opens the store finds the state in place. -/
theorem keeps_reopenStore (w : ℕ) (s : Shared) :
    Keeps Shared.system (contract hmac initial) w
      (fun a t => ∀ kernel, a = some kernel → Good initial w kernel t) reopenStore s := by
  intro t _ hinv fate
  have hempty : Keeps Shared.system (contract hmac initial) w
      (fun a t => ∀ kernel, a = some kernel → Good initial w kernel t)
      (pure none : Program StoreCall StoreReply (Option Kernel)) t :=
    fun _ _ _ => nofun
  refine ⟨?_, ?_⟩
  · cases fate <;> exact .stay
  · cases fate with
    | done =>
      show Keeps _ _ _ _ (pure ((decodeState t.snapshot).toOption.map fun durable =>
        ({ durable } : Kernel)) : Program StoreCall StoreReply (Option Kernel)) t
      rw [hinv.snapshot]
      exact keeps_answer known_currentOf
    | failed => exact hempty
    | failedLate => exact hempty

/-- The workers of a store are under the contract. -/
theorem fulfils_duty :
    Pool.Fulfils Shared.system (Loop.duty hmac) (contract hmac initial) (Good initial) where
  stable _ kernel := stable_known kernel.durable
  release _ _ _ := .unlock
  boot w s _ := keeps_reopenStore w s
  work w kernel task s hinv hknown := by
    cases task with
    | handle request =>
      refine Keeps.bind _ (harmless_handle request kernel s hinv hknown ⟨nofun, trivial⟩) ?_
      rintro p t - ⟨hp, -⟩
      exact keeps_answer hp
    | injectStop checkpoint => exact keeps_answer hknown
    | injectAlertUnavailable => exact keeps_answer hknown
    | restart => exact keeps_answer hknown

/-- A store that was just set up, with all workers stopped. -/
def start (bytes : List UInt8) : Pool Shared StoreCall StoreReply Kernel where
  shared := ⟨bytes, none, []⟩
  workers _ := .stopped

theorem holds_start {bytes : List UInt8} (h : encodeState initial = .ok bytes) :
    Pool.Holds Shared.system (contract hmac initial) (Good initial) (start bytes) where
  inv := ⟨(Snapshot.encodeState_eq_ok_iff_decodeState_eq_ok initial bytes).1 h, .nil⟩
  sound _ := trivial

/-- What a run of the workers leaves in the store. -/
def outcome (hmac : List UInt8 → List UInt8 → ByteVec 32) (bytes : List UInt8)
    (moves : List (Move Loop.Task StoreFate)) : Shared :=
  (Pool.run Shared.system (Loop.duty hmac) (start bytes) moves).shared

theorem holds_run {bytes : List UInt8} (h : encodeState initial = .ok bytes)
    (moves : List (Move Loop.Task StoreFate)) :
    Pool.Holds Shared.system (contract hmac initial) (Good initial)
      (Pool.run Shared.system (Loop.duty hmac) (start bytes) moves) :=
  Pool.run_holds fulfils_duty (holds_start h) moves

/-- **All runs.**  The log is legal and the file is the state that it has reached. -/
theorem run_inv {bytes : List UInt8} (h : encodeState initial = .ok bytes)
    (moves : List (Move Loop.Task StoreFate)) : Inv hmac initial (outcome hmac bytes moves) :=
  (holds_run h moves).inv

/-! ### What is answered is recorded -/

/-- Nothing is taken out of the log. -/
def growing : Contract Shared := ⟨fun _ => True, fun _ s t => s.log <+: t.log, fun _ _ => trivial⟩

theorem prefix_answer (w : ℕ) (call : StoreCall) (fate : StoreFate) (s : Shared) :
    s.log <+: (Shared.answer w call fate s).2.log := by
  cases call with
  | load => cases fate <;> exact List.prefix_rfl
  | tryLock =>
    rcases answer_tryLock w fate s with ⟨-, h⟩ | h | h <;> rw [h]
  | unlock => exact List.prefix_rfl
  | persist bytes record =>
    cases fate with
    | done | failedLate => exact List.prefix_append ..
    | failed => exact List.prefix_rfl
  | capture record => exact List.prefix_append ..

theorem fulfils_growing :
    Pool.Fulfils Shared.system (Loop.duty hmac) growing fun _ _ _ => True :=
  .always prefix_answer fun _ _ => List.prefix_rfl

theorem holds_growing (hmac : List UInt8 → List UInt8 → ByteVec 32) (bytes : List UInt8)
    (moves : List (Move Loop.Task StoreFate)) :
    Pool.Holds Shared.system growing (fun _ _ _ => True)
      (Pool.run Shared.system (Loop.duty hmac) (start bytes) moves) :=
  have hstart : Pool.Holds Shared.system growing (fun _ _ _ => True) (start bytes) :=
    ⟨trivial, fun _ => trivial⟩
  Pool.run_holds fulfils_growing hstart moves

/-- The log only grows. -/
theorem prefix_outcome (hmac : List UInt8 → List UInt8 → ByteVec 32) (bytes : List UInt8)
    (moves more : List (Move Loop.Task StoreFate)) :
    (outcome hmac bytes moves).log <+: (outcome hmac bytes (moves ++ more)).log := by
  rw [outcome, outcome, Pool.run_append]
  exact Pool.run_invariant
    (J := fun s => (Pool.run Shared.system (Loop.duty hmac) (start bytes) moves).shared.log <+: s.log)
    fulfils_growing (fun _ _ _ _ hs hmay => hs.trans hmay) (holds_growing hmac bytes moves)
    List.prefix_rfl more

theorem lasting_const (p : Prop) : Lasting fun _ => p := fun _ _ h => h

theorem lasting_mem (e : ℕ × Record) : Lasting fun log => e ∈ log :=
  fun _ _ h => List.mem_append_left _ h

theorem Lasting.and {P Q : Log → Prop} (hP : Lasting P) (hQ : Lasting Q) :
    Lasting fun log => P log ∧ Q log :=
  fun log e h => ⟨hP log e h.1, hQ log e h.2⟩

theorem Lasting.exists {ι : Sort*} {P : ι → Log → Prop} (h : ∀ i, Lasting (P i)) :
    Lasting fun log => ∃ i, P i log :=
  fun log e ⟨i, hi⟩ => ⟨i, h i log e hi⟩

theorem Lasting.imp {p : Prop} {P : Log → Prop} (h : Lasting P) : Lasting fun log => p → P log :=
  fun log e hP hp => h log e (hP hp)

theorem Lasting.prefix {P : Log → Prop} (hP : Lasting P) {log more : Log} (h : log <+: more)
    (hlog : P log) : P more := by
  obtain ⟨back, rfl⟩ := h
  induction back using List.reverseRecOn with
  | nil => rwa [List.append_nil]
  | append_singleton back e ih =>
    rw [← List.append_assoc]
    exact hP _ e ih

section Yields

variable {α β : Type} {w n : ℕ} {F : Log → Prop}

/-- From a moment on at which there are `n` records, with `F` of those behind them: where the method
answers, the answer comes with `Q` of the records behind them. -/
def Yields (w n : ℕ) (F : Log → Prop) (x : Method α) (Q : α → Log → Prop) : Prop :=
  ∀ k s, n ≤ s.log.length → F (s.log.drop n) →
    Keeps Shared.system growing w (fun p t => n ≤ t.log.length ∧ ∀ a, p.1 = .ok a →
      Q a (t.log.drop n)) (x k) s

variable {Q : α → Log → Prop} {R : β → Log → Prop}

theorem grown {P : Log → Prop} (hP : Lasting P) (v : ℕ) (s t : Shared) (h : growing.may v s t)
    (hs : n ≤ s.log.length ∧ P (s.log.drop n)) : n ≤ t.log.length ∧ P (t.log.drop n) :=
  ⟨hs.1.trans (List.IsPrefix.length_le h), hP.prefix (List.IsPrefix.drop h n) hs.2⟩

theorem stable_grown {P : Log → Prop} (hP : Lasting P) :
    growing.Stable w fun s => n ≤ s.log.length ∧ P (s.log.drop n) :=
  fun v s t _ _ hmay => grown hP v s t hmay

theorem lasting_value (result : Except RuntimeError α) (hQ : ∀ a, Lasting (Q a)) :
    Lasting fun log => ∀ a, result = .ok a → Q a log :=
  fun log e h a ha => hQ a log e (h a ha)

theorem Yields.error {x : Method α} {e : RuntimeError} (hx : ∀ k, x k = pure (.error e, k)) :
    Yields w n F x Q := by
  intro k s hn _
  rw [hx]
  refine .ret _ (stable_grown (lasting_const True)) ⟨hn, trivial⟩ fun t _ ht => ⟨ht.1, fun a ha => ?_⟩
  cases ha

theorem Yields.answer (a : α) (hQ : Lasting (Q a)) (h : ∀ log, F log → Q a log) :
    Yields w n F (pure a) Q := by
  intro k s hn hF
  refine .ret _ (stable_grown hQ) ⟨hn, h _ hF⟩ fun t _ ht => ⟨ht.1, fun b hb => ?_⟩
  cases hb
  exact ht.2

theorem Yields.bind {x : Method α} {f : α → Method β} (hx : Yields w n F x Q)
    (hf : ∀ a, Yields w n (Q a) (f a) R) : Yields w n F (x >>= f) R := by
  intro k s hn hF
  refine Keeps.bind _ (hx k s hn hF) ?_
  rintro ⟨result, k'⟩ t - ⟨hn', ht⟩
  cases result with
  | ok a => exact hf a k' t hn' (ht a rfl)
  | error e =>
    refine .ret _ (stable_grown (lasting_const True)) ⟨hn', trivial⟩ fun u _ hu =>
      ⟨hu.1, fun a ha => ?_⟩
    cases ha

/-- No step undoes what is recorded. -/
theorem Yields.any (hF : Lasting F) (x : Method α) : Yields w n F x fun _ => F :=
  fun _ _ hn hs => (Keeps.always prefix_answer (grown hF) _ ⟨hn, hs⟩).mono
    fun _ _ _ ht => ⟨ht.1, fun _ _ => ht.2⟩

theorem Yields.mono {x : Method α} {Q' : α → Log → Prop} (hx : Yields w n F x Q)
    (h : ∀ a log, Q a log → Q' a log) : Yields w n F x Q' :=
  fun k s hn hs => (hx k s hn hs).mono fun _ _ _ ht => ⟨ht.1, fun a ha => h a _ (ht.2 a ha)⟩

theorem Yields.skip {x : Method α} {f : α → Method β} (hF : Lasting F)
    (hf : ∀ a, Yields w n F (f a) R) : Yields w n F (x >>= f) R :=
  .bind (.any hF x) hf

theorem Yields.ofExcept {x : Except RuntimeError α} {f : α → Method β}
    (hf : ∀ a, x = .ok a → Yields w n F (f a) R) :
    Yields w n F (Kernel.ofExcept x >>= f) R := by
  cases x with
  | ok a => exact hf a rfl
  | error e => exact .error fun _ => rfl

theorem Yields.observing {x : Method α} (hQ : ∀ a, Lasting (Q a)) (hx : Yields w n F x Q) :
    Yields w n F (Kernel.observing x) fun r log => ∀ a, r = .ok a → Q a log := by
  intro k s hn hF
  refine Keeps.bind _ (hx k s hn hF) ?_
  rintro ⟨result, k'⟩ t - ⟨hn', ht⟩
  have hlasting : Lasting fun log => ∀ a, result = .ok a → Q a log := lasting_value result hQ
  exact Yields.answer (F := fun log => ∀ a, result = .ok a → Q a log)
    (Q := fun r log => ∀ a, r = .ok a → Q a log) result hlasting (fun _ h => h) k' t hn' ht

/-- A file that was replaced has its record. -/
theorem yields_persist (record : Record) (state : LoopState) :
    Yields w n (fun _ => True) (persist record state) fun _ log => (w, record) ∈ log := by
  rw [persist]
  cases encodeState state with
  | error e => exact .error fun _ => rfl
  | ok bytes =>
    refine .bind (Q := fun replaced log => replaced = true → (w, record) ∈ log) ?_ fun replaced => ?_
    · intro k s hn _ t hst _ fate
      have ht := (stable_grown (lasting_const True)).rely hst ⟨hn, trivial⟩
      refine ⟨prefix_answer w _ fate t, fun u htu _ => ?_⟩
      have hlasting : Lasting fun log =>
          (Shared.answer w (.persist bytes record) fate t).1 = true → (w, record) ∈ log :=
        .imp (lasting_mem _)
      have hnew : n ≤ (Shared.answer w (.persist bytes record) fate t).2.log.length ∧
          ((Shared.answer w (.persist bytes record) fate t).1 = true →
            (w, record) ∈ (Shared.answer w (.persist bytes record) fate t).2.log.drop n) := by
        refine ⟨ht.1.trans (prefix_answer w _ fate t).length_le, fun htrue => ?_⟩
        cases fate with
        | done =>
          show (w, record) ∈ (t.log ++ [(w, record)]).drop n
          rw [List.drop_append_of_le_length ht.1]
          exact List.mem_append_right _ (List.mem_singleton_self _)
        | failed | failedLate => cases htrue
      have hu := (stable_grown hlasting).rely htu hnew
      refine ⟨hu.1, fun reply hreply => ?_⟩
      cases hreply
      exact hu.2
    · cases replaced with
      | false => exact .error fun _ => rfl
      | true => exact .answer () (lasting_mem _) fun _ h => h rfl

theorem yields_withLock {body : Method α} (hQ : ∀ a, Lasting (Q a))
    (hbody : Yields w n (fun _ => True) body Q) : Yields w n (fun _ => True) (withLock body) Q := by
  refine .skip (lasting_const True) fun _ => .bind (.observing hQ hbody) fun result => ?_
  refine .skip (lasting_value result hQ) fun _ => ?_
  cases result with
  | ok a => exact .answer a (hQ a) fun _ h => h a rfl
  | error e => exact .error fun _ => rfl

theorem yields_replaceIfRevision (expectedRevision : UInt64) (record : Record)
    (replacement : LoopState) :
    Yields w n (fun _ => True) (replaceIfRevision expectedRevision record replacement)
      fun _ log => (w, record) ∈ log :=
  yields_withLock (fun _ => lasting_mem _) (.skip (lasting_const True) fun _ =>
    .skip (lasting_const True) fun _ => yields_persist record replacement)

theorem lasting_commit (w : ℕ) (before replacement : LoopState) : Lasting fun log =>
    ∃ revision, checkedSucc before.revision = some revision ∧
      (w, Record.replaced { replacement with revision }) ∈ log :=
  .exists fun _ => .and (lasting_const _) (lasting_mem _)

theorem yields_replaceDurableState (before replacement : LoopState) :
    Yields w n (fun _ => True) (replaceDurableState before.revision replacement) fun _ log =>
      ∃ revision, checkedSucc before.revision = some revision ∧
        (w, .replaced { replacement with revision }) ∈ log := by
  have hstart : Lasting fun _ => True := lasting_const True
  refine .skip hstart fun _ => .skip hstart fun _ => .skip hstart fun _ => .skip hstart fun _ =>
    .skip hstart fun _ => .skip hstart fun _ => .ofExcept fun revision hrevision => ?_
  refine .bind (yields_replaceIfRevision _ _ _) fun _ => .skip (lasting_mem _) fun _ => ?_
  exact .mono (.any (lasting_mem _) _) fun _ _ hmem => ⟨revision, orError_eq_ok.1 hrevision, hmem⟩

theorem yields_commit (before replacement : LoopState) :
    Yields w n (fun _ => True) (Loop.commit before replacement) fun done log => done = true →
      ∃ revision, checkedSucc before.revision = some revision ∧
        (w, .replaced { replacement with revision }) ∈ log := by
  refine .bind (.observing (fun _ => lasting_commit w before replacement)
    (yields_replaceDurableState before replacement)) fun result => ?_
  cases result with
  | ok u => exact .answer true (.imp (lasting_commit w before replacement)) fun _ h _ => h u rfl
  | error e =>
    cases e with
    | stop stop => exact .error fun _ => rfl
    | _ =>
      exact .answer false (.imp (lasting_commit w before replacement)) fun _ _ hfalse => by
        cases hfalse

theorem yields_leaseAlert (eventReference : SafeReference) (leasedAt : Int64) :
    Yields w n (fun _ => True) (leaseAlert eventReference leasedAt) fun lease log =>
      lease.eventReference = eventReference ∧ ∃ state, (w, .leased lease state) ∈ log := by
  refine .skip (lasting_const True) fun _ => .skip (lasting_const True) fun k => ?_
  cases hfind : splitFirst (leasable eventReference leasedAt) k.durable.outbox with
  | none =>
    exact .error fun _ => rfl
  | some found =>
    obtain ⟨front, intent, back⟩ := found
    simp only
    refine .skip (lasting_const True) fun _ => .ofExcept fun lease hlease => ?_
    refine .skip (lasting_const True) fun after => .bind (yields_replaceIfRevision _ _ _) fun _ => ?_
    refine .skip (lasting_mem _) fun _ => .answer lease
      (.and (lasting_const _) (.exists fun _ => lasting_mem _)) fun log hmem => ⟨?_, after, hmem⟩
    have hreference := eventReference_of_leasable (splitFirst_eq_some hfind).2
    obtain ⟨_, _, _, -, -, -, rfl⟩ := leaseIntent_eq_ok hlease
    exact hreference

theorem yields_settleAlert (eventReference : SafeReference) (leaseFence : UInt64) :
    Yields w n (fun _ => True) (settleAlert eventReference leaseFence) fun _ log =>
      ∃ state, (w, .settled eventReference leaseFence state) ∈ log := by
  refine .skip (lasting_const True) fun _ => .skip (lasting_const True) fun k => ?_
  cases hfind : splitFirst (settleable eventReference leaseFence) k.durable.outbox with
  | none =>
    exact .error fun _ => rfl
  | some found =>
    obtain ⟨front, intent, back⟩ := found
    simp only
    refine .skip (lasting_const True) fun after => .bind (yields_replaceIfRevision _ _ _) fun _ => ?_
    exact .mono (.any (lasting_mem _) _) fun _ _ hmem => ⟨after, hmem⟩

end Yields

/-- After the earlier moves the worker goes on with the method, and in the later ones the method
answers with a value. -/
def Answered (hmac : List UInt8 → List UInt8 → ByteVec 32) (bytes : List UInt8)
    (earlier later : List (Move Loop.Task StoreFate)) (w : ℕ) {α : Type} (x : Method α) (a : α) :
    Prop :=
  ∃ k k' f,
    (Pool.run Shared.system (Loop.duty hmac) (start bytes) earlier).workers w =
      .running (x k >>= f) ∧
    Pool.answerOf Shared.system (Loop.duty hmac) w (x k)
      (Pool.run Shared.system (Loop.duty hmac) (start bytes) earlier) later = some (.ok a, k')

/-- What is recorded in the later moves. -/
def during (hmac : List UInt8 → List UInt8 → ByteVec 32) (bytes : List UInt8)
    (earlier later : List (Move Loop.Task StoreFate)) : Log :=
  (outcome hmac bytes (earlier ++ later)).log.drop (outcome hmac bytes earlier).log.length

theorem log_during (hmac : List UInt8 → List UInt8 → ByteVec 32) (bytes : List UInt8)
    (earlier later : List (Move Loop.Task StoreFate)) :
    (outcome hmac bytes (earlier ++ later)).log =
      (outcome hmac bytes earlier).log ++ during hmac bytes earlier later := by
  obtain ⟨more, hmore⟩ := prefix_outcome hmac bytes earlier later
  rw [during, ← hmore, List.drop_left]

theorem of_answered {α : Type} {bytes : List UInt8}
    {earlier later : List (Move Loop.Task StoreFate)} {w : ℕ} {x : Method α} {a : α}
    (h : Answered hmac bytes earlier later w x a) {Q : α → Log → Prop} (hQ : Lasting (Q a))
    (hx : ∀ n, Yields w n (fun _ => True) x Q) : Q a (during hmac bytes earlier later) := by
  obtain ⟨k, k', f, hworker, hanswer⟩ := h
  obtain ⟨front, back, rfl, -, hpost⟩ := Pool.answerOf_spec fulfils_growing later
    (holds_growing hmac bytes earlier) hworker
    (hx (outcome hmac bytes earlier).log.length k _ le_rfl trivial) hanswer
  refine hQ.prefix ?_ (hpost a rfl)
  rw [← Pool.run_append, during, ← List.append_assoc]
  exact List.IsPrefix.drop (prefix_outcome hmac bytes (earlier ++ front) back) _

/-- **No update is lost.**  A commit, a lease and a settlement that were answered with success have
their record, made by the worker before the answer and after the operation was begun. -/
structure Recorded (hmac : List UInt8 → List UInt8 → ByteVec 32) (bytes : List UInt8)
    (earlier later : List (Move Loop.Task StoreFate)) (w : ℕ) : Prop where
  commit : ∀ before replacement,
    Answered hmac bytes earlier later w (Loop.commit before replacement) true →
      ∃ revision, checkedSucc before.revision = some revision ∧
        (w, .replaced { replacement with revision }) ∈ during hmac bytes earlier later
  lease : ∀ eventReference leasedAt lease,
    Answered hmac bytes earlier later w (leaseAlert eventReference leasedAt) lease →
      lease.eventReference = eventReference ∧
        ∃ state, (w, .leased lease state) ∈ during hmac bytes earlier later
  settlement : ∀ eventReference leaseFence,
    Answered hmac bytes earlier later w (settleAlert eventReference leaseFence) () →
      ∃ state, (w, .settled eventReference leaseFence state) ∈ during hmac bytes earlier later

theorem recorded (hmac : List UInt8 → List UInt8 → ByteVec 32) (bytes : List UInt8)
    (earlier later : List (Move Loop.Task StoreFate)) (w : ℕ) :
    Recorded hmac bytes earlier later w where
  commit before replacement h :=
    of_answered h (.imp (lasting_commit w before replacement))
      (fun _ => yields_commit before replacement) rfl
  lease eventReference leasedAt _ h :=
    of_answered h (.and (lasting_const _) (.exists fun _ => lasting_mem _))
      fun _ => yields_leaseAlert eventReference leasedAt
  settlement eventReference leaseFence h :=
    of_answered h (.exists fun _ => lasting_mem _)
      fun _ => yields_settleAlert eventReference leaseFence

/-! A run in which a worker stops after it has captured an alert; another worker takes the event over
when the lease has run out, and sends a message afterwards. -/

/-- The event of the sample. -/
def sampleEvent : SafeReference := ⟨"event-7", by decide⟩

/-- Its alert, which was not leased yet. -/
def sampleIntent : AlertIntent := ⟨sampleEvent, false, 0, false, 0, none, 0, false, false⟩

/-- The state that the run begins with. -/
def sampleState : LoopState := { outbox := [sampleIntent] }

/-- Its snapshot. -/
def sampleBytes : List UInt8 := (encodeState sampleState).toOption.getD []

theorem encodeState_sampleState : encodeState sampleState = .ok sampleBytes := by decide +kernel

/-- A configuration whose provider leaves every outcome open. -/
def sampleConfiguration : Loop.ReferenceLoopConfiguration where
  appSecret := List.Vector.replicate 32 1
  activeDedupKeyGeneration := 1
  retainedDedupKeys := []
  senderGeneration := 1
  wabaId := utf8Bytes "waba"
  phoneNumberId := utf8Bytes "phone"
  verificationToken := utf8Bytes "token"
  endpointGeneration := 1
  credentialGeneration := 1
  templateAllowlistGeneration := 1
  fakeProviderOutcome := .classified .ambiguous

/-- A worker is to send the alert. -/
def sampleDispatch (receivedAt : Int64) : Loop.Task :=
  .handle ⟨.dispatchAlert sampleEvent, sampleConfiguration, receivedAt⟩

/-- A worker is to send a message. -/
def sampleOutbound : Loop.Task :=
  .handle ⟨.registeredOutbound ⟨sampleEvent, 1, .registered .phase0Notice,
    utf8Bytes "+5511999999999", utf8Bytes "pt_BR", [utf8Bytes "text"], none⟩,
    sampleConfiguration, 300⟩

/-- The moves of the run. -/
def takeover : List (Move Loop.Task StoreFate) :=
  [.boot 0, .turn 0 .done, .turn 0 .done, .begin 0 (sampleDispatch 100)] ++
    List.replicate 9 (.turn 0 .done) ++
  [.stop 0, .boot 1, .turn 1 .done, .turn 1 .done, .begin 1 (sampleDispatch 200)] ++
    List.replicate 20 (.turn 1 .done) ++
  [.begin 1 sampleOutbound] ++ List.replicate 7 (.turn 1 .done)

/-- The alert under a lease. -/
def sampleLease (leaseFence : UInt64) (leaseExpiresAt : ℤ) (dispatchAttempts : UInt32)
    (ambiguousDispatch : Bool) : AlertIntent :=
  { sampleIntent with
    leased := true
    leaseFence
    leaseExpiresAt := some leaseExpiresAt
    dispatchAttempts
    ambiguousDispatch }

/-- The states that the run reaches. -/
def sampleLeased : LoopState := { outbox := [sampleLease 1 160 1 false], revision := 1 }

/-- The second worker has leased the alert. -/
def sampleLeasedAgain : LoopState := { outbox := [sampleLease 2 260 2 true], revision := 2 }

/-- The second worker has settled it. -/
def sampleSettled : LoopState :=
  { outbox := [settleIntent (sampleLease 2 260 2 true)], revision := 3 }

/-- The message was sent, with an open outcome. -/
def takenOver : LoopState :=
  { sampleSettled with
    events := [⟨.outboundOutcome, ⟨"event-14", by decide⟩, 1, none, 1⟩]
    v1History := [.providerOutcome .ambiguous 1 true]
    revision := 4 }

/-- The log of the run. -/
def sampleHistory : Log :=
  [(0, .leased (sampleLease 1 160 1 false) sampleLeased),
    (0, .alerted (captureOf sampleIntent) 1 100),
    (1, .leased (sampleLease 2 260 2 true) sampleLeasedAgain),
    (1, .alerted (captureOf sampleIntent) 2 200),
    (1, .settled sampleEvent 2 sampleSettled),
    (1, .provided ⟨.phase0Notice, 1, none⟩),
    (1, .replaced takenOver)]

theorem log_takeover :
    (outcome Sha256.hmacSha256 sampleBytes takeover).log = sampleHistory := by
  decide +kernel

/-- **One history.**  After any run of any number of workers on a store, also of workers that stopped
or failed anywhere, the file holds the state that the log has reached; each replacement in the log is
one whole operation on the state that the replacement before it left, and takes its next revision;
and an operation that was answered with success in some of the moves has its record there. -/
theorem serial_history {bytes : List UInt8} (h : encodeState initial = .ok bytes)
    (moves : List (Move Loop.Task StoreFate)) :
    decodeState (outcome hmac bytes moves).snapshot =
        .ok (currentOf initial (outcome hmac bytes moves).log) ∧
      (currentOf initial (outcome hmac bytes moves).log).revision.toNat =
        initial.revision.toNat + replacements (outcome hmac bytes moves).log ∧
      (∀ front e back state, (outcome hmac bytes moves).log = front ++ e :: back →
        stateOf e.2 = some state → Atomic hmac (currentOf initial front) e.2 ∧
          state.revision.toNat = (currentOf initial front).revision.toNat + 1) ∧
      ∀ earlier later, earlier ++ later <+: moves →
        (outcome hmac bytes earlier).log ++ during hmac bytes earlier later <+:
          (outcome hmac bytes moves).log ∧
        ∀ w, Recorded hmac bytes earlier later w := by
  have hinv : Inv hmac initial _ := run_inv h moves
  refine ⟨hinv.snapshot, revision_currentOf hinv.legal, fun front e back state hlog hstate => ?_,
    fun earlier later hmoves => ⟨?_, recorded hmac bytes earlier later⟩⟩
  · have hatomic := (hinv.legal front e back hlog).atomic (by rw [hstate]; rfl)
    exact ⟨hatomic, hatomic.revision hstate⟩
  · obtain ⟨rest, rfl⟩ := hmoves
    rw [← log_during]
    exact prefix_outcome hmac bytes (earlier ++ later) rest

theorem snapshot_takeover :
    decodeState (outcome Sha256.hmacSha256 sampleBytes takeover).snapshot = .ok takenOver := by
  decide +kernel

/-- A dispatch starts with the lease. -/
theorem exists_work_dispatch (hmac : List UInt8 → List UInt8 → ByteVec 32) (kernel : Kernel)
    (eventReference : SafeReference) (configuration : Loop.ReferenceLoopConfiguration)
    (receivedAt : Int64) :
    ∃ f, (Loop.duty hmac).work kernel
        (.handle ⟨.dispatchAlert eventReference, configuration, receivedAt⟩) =
      leaseAlert eventReference receivedAt kernel >>= f := by
  obtain ⟨g, hg⟩ : ∃ g, Loop.handleDispatch eventReference receivedAt kernel =
      leaseAlert eventReference receivedAt kernel >>= g :=
    ⟨_, Program.bind_assoc (leaseAlert eventReference receivedAt kernel) _ _⟩
  refine ⟨fun p => g p >>= fun p => pure (some p.2), ?_⟩
  show (Loop.handleDispatch eventReference receivedAt kernel >>= fun p => pure (some p.2)) = _
  rw [hg, Program.bind_assoc]

theorem answered_sampleLease :
    Answered Sha256.hmacSha256 sampleBytes (takeover.take 4) (List.replicate 5 (.turn 0 .done)) 0
      (leaseAlert sampleEvent 100) (sampleLease 1 160 1 false) := by
  obtain ⟨f, hwork⟩ := exists_work_dispatch Sha256.hmacSha256 { durable := sampleState } sampleEvent
    sampleConfiguration 100
  have hready : (Pool.run Shared.system (Loop.duty Sha256.hmacSha256) (start sampleBytes)
      (takeover.take 3)).workers 0 = .ready { durable := sampleState } := by
    refine Worker.kernel_eq_some.1 ?_
    decide +kernel
  have htake : takeover.take 4 = takeover.take 3 ++ [.begin 0 (sampleDispatch 100)] := rfl
  refine ⟨{ durable := sampleState }, { durable := sampleLeased }, f, ?_, by decide +kernel⟩
  rw [htake, Pool.run_concat, Pool.begin_workers _ _ hready]
  exact congrArg Worker.running hwork

theorem serial_history_takeover :
    decodeState (outcome Sha256.hmacSha256 sampleBytes takeover).snapshot =
        .ok (currentOf sampleState (outcome Sha256.hmacSha256 sampleBytes takeover).log) ∧
      (currentOf sampleState (outcome Sha256.hmacSha256 sampleBytes takeover).log).revision.toNat =
        sampleState.revision.toNat +
          replacements (outcome Sha256.hmacSha256 sampleBytes takeover).log ∧
      (∀ front e back state, (outcome Sha256.hmacSha256 sampleBytes takeover).log =
          front ++ e :: back → stateOf e.2 = some state →
        Atomic Sha256.hmacSha256 (currentOf sampleState front) e.2 ∧
          state.revision.toNat = (currentOf sampleState front).revision.toNat + 1) ∧
      ∃ state, (0, .leased (sampleLease 1 160 1 false) state) ∈
        during Sha256.hmacSha256 sampleBytes (takeover.take 4) (List.replicate 5 (.turn 0 .done)) :=
  have hall := serial_history encodeState_sampleState takeover
  have hfirst : takeover.take 4 ++ List.replicate 5 (.turn 0 .done) <+: takeover :=
    ⟨takeover.drop 9, rfl⟩
  have hlease := ((hall.2.2.2 _ _ hfirst).2 0).lease sampleEvent 100 _ answered_sampleLease
  ⟨hall.1, hall.2.1, hall.2.2.1, hlease.2⟩

end Serial

end MsgRiver.PhaseZero
