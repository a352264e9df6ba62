import MsgRiver.Lib.History
import MsgRiver.Service.Processes

/-!
# One owner of a state directory

What a process is doing can be read off the log (`phaseOf`): it owns a directory, it serves a store,
it has claimed a message or attempted it.  `Allowed` says which calls are in place in which phase,
and `Legal` what the log may note after what it has noted.

The programs of the service make allowed calls only, whatever the other processes do in between, so
the log is legal after every run (`ran_holds`).  At most one process owns a directory at a time
(`owns_unique`): an owner holds the lock of the file that the directory names, and other programs do
not change the name in a private directory.
-/

namespace MsgRiver.Service.Processes

open History Store Connector StepRun OwnerLock Startup

/-! ### What a process is doing -/

/-- A round of dispatch.  `fresh` is before the recovery that a session begins with. -/
inductive Round
  | fresh
  | idle
  | claimed (delivery : M2Delivery)
  | attempted (config : Config) (delivery : M2Delivery) (peer : Peer)

/-- What the log shows of a process: nothing owned, a directory owned, or a store served. -/
inductive Phase
  | outside
  | owner (directory file : ℕ)
  | serving (directory file store : ℕ) (round : Round)

/-- The directory that is owned, and its lock file. -/
def Phase.owns : Phase → Option (ℕ × ℕ)
  | .outside => none
  | .owner d n | .serving d n _ _ => some (d, n)

/-- The round after a call that was answered. -/
def roundOf : Call → Reply → Round
  | .m2ClaimDue _, .claimed (some delivery) => .claimed delivery
  | _, _ => .idle

/-- The round after a transaction. -/
def Round.after (round : Round) (e : StoreEvent) : Round :=
  match e.reply with
  | .ok reply => roundOf e.call reply
  | .error _ => round

/-- The phase after a record. -/
def advance : Phase → Record → Phase
  | _, .ended => .outside
  | _, .locked d n => .owner d n
  | .owner d n, .opened store => .serving d n store .fresh
  | .serving d n store round, .stored _ e => .serving d n store (round.after e)
  | .serving d n store _, .attempted _ config delivery peer =>
    .serving d n store (.attempted config delivery peer)
  | p, _ => p

/-- Records with the processes that made them. -/
abbrev Log := List (ℕ × Record)

/-- The phase of a process. -/
def phaseOf (w : ℕ) (log : Log) : Phase :=
  log.foldl (fun p e => if e.1 = w then advance p e.2 else p) .outside

/-- The store as the log has left it. -/
def dbOf (store : ℕ) (log : Log) : Db :=
  log.foldl (fun db e =>
    match e.2 with
    | .stored at' event => if at' = store then event.after else db
    | _ => db) Db.migrated

/-- The calls that belong to a round. -/
inductive Fits : Round → Call → Prop
  | recover {now : Int64} : Fits .fresh (.m2RecoverInterrupted now)
  | client {c : Call} (h : isClientCall c = true) : Fits .idle c
  | claim {now : Int64} : Fits .idle (.m2ClaimDue now)
  | mark {config : Config} {delivery : M2Delivery} {peer : Peer} {now : Int64}
      {outcome : Except DriverError DeliveryOutcome}
      (h : (attempt config delivery peer).result = .ok outcome) :
      Fits (.attempted config delivery peer) (outcomeCall delivery.messageId now outcome)

/-- What the log may note next. -/
def Legal (sha256 : List UInt8 → List.Vector UInt8 32) (front : Log) : ℕ × Record → Prop
  | (w, .locked d _) =>
    phaseOf w front = .outside ∧ ∀ v n, (phaseOf v front).owns ≠ some (d, n)
  | (w, .opened _) => ∃ d n, phaseOf w front = .owner d n
  | (w, .stored store e) => ∃ d n round, phaseOf w front = .serving d n store round ∧
      Fits round e.call ∧ e = event (step sha256) (dbOf store front) e.call
  | (w, .attempted store _ delivery _) =>
    ∃ d n, phaseOf w front = .serving d n store (.claimed delivery)
  | (_, .ended) => True

/-- A store is opened in the directory that is owned. -/
def Settled (front : Log) : ℕ × Record → Prop
  | (w, .opened store) => ∃ n, phaseOf w front = .owner store n
  | _ => True

theorem roundOf_client {c : Call} (h : isClientCall c = true) (reply : Reply) :
    roundOf c reply = .idle := by
  cases c with
  | m2ClaimDue now => cases h
  | _ => rfl

theorem roundOf_outcomeCall (id : String) (now : Int64)
    (outcome : Except DriverError DeliveryOutcome) (reply : Reply) :
    roundOf (outcomeCall id now outcome) reply = .idle := by
  rcases outcome with _ | _ | _ | _ | _ | _ | _ <;> rfl

section Log

variable {w v store : ℕ}

theorem phaseOf_concat (w : ℕ) (log : Log) (e : ℕ × Record) :
    phaseOf w (log ++ [e]) = if e.1 = w then advance (phaseOf w log) e.2 else phaseOf w log := by
  rw [phaseOf, List.foldl_append]
  rfl

theorem phaseOf_same (w : ℕ) (log : Log) (record : Record) :
    phaseOf w (log ++ [(w, record)]) = advance (phaseOf w log) record := by
  rw [phaseOf_concat, if_pos rfl]

theorem phaseOf_other (h : v ≠ w) (log : Log) (record : Record) :
    phaseOf w (log ++ [(v, record)]) = phaseOf w log := by
  rw [phaseOf_concat, if_neg h]

theorem dbOf_stored (store : ℕ) (log : Log) (w : ℕ) (e : StoreEvent) :
    dbOf store (log ++ [(w, .stored store e)]) = e.after := by
  rw [dbOf, List.foldl_append]
  exact if_pos rfl

/-- Only its own transactions change a store. -/
theorem dbOf_concat (record : Record) (h : ∀ e, record ≠ .stored store e) (log : Log) (w : ℕ) :
    dbOf store (log ++ [(w, record)]) = dbOf store log := by
  rw [dbOf, List.foldl_append]
  cases record with
  | stored store' e =>
    refine if_neg ?_
    rintro rfl
    exact h e rfl
  | locked | opened | attempted | ended => rfl

theorem dbOf_stored_ne {store' : ℕ} (h : store' ≠ store) (log : Log) (w : ℕ) (e : StoreEvent) :
    dbOf store (log ++ [(w, .stored store' e)]) = dbOf store log := by
  refine dbOf_concat _ ?_ log w
  rintro _ ⟨⟩
  exact h rfl

variable {sha256 : List UInt8 → List.Vector UInt8 32} {log : Log}

/-- Only a lock gives a directory to a process. -/
theorem owns_of_concat {record : Record} (hlegal : Legal sha256 log (w, record))
    (hlock : ∀ d n, record ≠ .locked d n) {x : ℕ × ℕ}
    (h : (phaseOf v (log ++ [(w, record)])).owns = some x) : (phaseOf v log).owns = some x := by
  by_cases hv : w = v
  · subst hv
    rw [phaseOf_same] at h
    cases record with
    | locked d n => exact absurd rfl (hlock d n)
    | opened store =>
      obtain ⟨d, n, hphase⟩ := hlegal
      rw [hphase] at h ⊢
      exact h
    | stored store e =>
      obtain ⟨d, n, round, hphase, -⟩ := hlegal
      rw [hphase] at h ⊢
      exact h
    | attempted store config delivery peer =>
      obtain ⟨d, n, hphase⟩ := hlegal
      rw [hphase] at h ⊢
      exact h
    | ended => cases h
  · rwa [phaseOf_other hv] at h

/-- A directory has one owner. -/
theorem owns_unique (h : Everywhere (Legal sha256) log) {d n n' : ℕ}
    (hv : (phaseOf v log).owns = some (d, n)) (hw : (phaseOf w log).owns = some (d, n')) :
    v = w ∧ n = n' := by
  revert v w d n n'
  refine h.induct (I := fun log => ∀ {v w d n n'}, (phaseOf v log).owns = some (d, n) →
    (phaseOf w log).owns = some (d, n') → v = w ∧ n = n') (fun h => nomatch h) ?_
  rintro log ⟨u, record⟩ - hlegal ih v w d n n' hv hw
  by_cases hlock : ∃ d₀ n₀, record = .locked d₀ n₀
  · obtain ⟨d₀, n₀, rfl⟩ := hlock
    obtain ⟨hphase, hfree⟩ := hlegal
    have hnew : phaseOf u (log ++ [(u, .locked d₀ n₀)]) = .owner d₀ n₀ := by
      rw [phaseOf_same]
      rfl
    by_cases huv : u = v
    · subst huv
      rw [hnew] at hv
      cases hv
      by_cases huw : u = w
      · subst huw
        rw [hnew] at hw
        cases hw
        exact ⟨rfl, rfl⟩
      · rw [phaseOf_other huw] at hw
        exact absurd hw (hfree w n')
    · rw [phaseOf_other huv] at hv
      by_cases huw : u = w
      · subst huw
        rw [hnew] at hw
        cases hw
        exact absurd hv (hfree v n)
      · rw [phaseOf_other huw] at hw
        exact ih hv hw
  · have hkept : ∀ d n, record ≠ .locked d n := fun d n h => hlock ⟨d, n, h⟩
    exact ih (owns_of_concat hlegal hkept hv) (owns_of_concat hlegal hkept hw)

end Log

/-! ### The contract -/

section Contract

variable (sha256 : List UInt8 → List.Vector UInt8 32) (json : Json.Codec) (euid : ℕ)

/-- The log is legal, the stores are as it has left them, and owners hold their locks.  Stores are
opened in the directory that is owned as long as the path keeps its file. -/
structure Inv (s : World) : Prop where
  legal : Everywhere (Legal sha256) s.log
  db : ∀ store, s.db store = dbOf store s.log
  lock : ∀ w d n, (phaseOf w s.log).owns = some (d, n) →
    s.files.held n = some w ∧ s.files.isPrivate euid d = true ∧ s.files.entry d = some n
  settled : s.files.rebound = false → Everywhere Settled s.log

/-- The calls that are in place. -/
def Allowed (w : ℕ) (s : World) : SystemCall → Prop
  | .file (.flock d n) => phaseOf w s.log = .outside ∧ s.files.isPrivate euid d = true ∧
      s.files.entry d = some n
  | .openStore => ∃ d n, phaseOf w s.log = .owner d n ∧
      (s.files.rebound = false → s.files.root = some d)
  | .transact store c => ∃ d n round, phaseOf w s.log = .serving d n store round ∧ Fits round c
  | .answerLocal store _ | .answerWebhook store _ =>
    ∃ d n, phaseOf w s.log = .serving d n store .idle
  | .deliver store _ delivery => ∃ d n, phaseOf w s.log = .serving d n store (.claimed delivery)
  | _ => True

/-- What a process may do to the world: make an allowed call. -/
def May (w : ℕ) (s t : World) : Prop :=
  ∃ call fate, Allowed euid w s call ∧ t = (World.answer sha256 json euid w call fate s).2

variable {sha256 json euid} {w : ℕ} {s t : World}

/-- The file system changes. -/
theorem Inv.files (hs : Inv sha256 euid s) {files : Files} (hevolves : s.files.Evolves euid files)
    (hheld : ∀ n v, s.files.held n = some v → files.held n = some v) :
    Inv sha256 euid { s with files } where
  legal := hs.legal
  db := hs.db
  lock v d n h := by
    obtain ⟨hlock, hprivate, hentry⟩ := hs.lock v d n h
    obtain ⟨hprivate', hkept⟩ := hevolves.kept d hprivate
    exact ⟨hheld n v hlock, hprivate', hkept n hentry⟩
  settled h := hs.settled (hevolves.path h).1

/-- The log notes a record that leaves the owners as they are. -/
theorem Inv.note (hs : Inv sha256 euid s) {record : Record}
    (hlegal : Legal sha256 s.log (w, record))
    (hsettled : s.files.rebound = false → Settled s.log (w, record))
    (howns : (advance (phaseOf w s.log) record).owns = (phaseOf w s.log).owns) {db : ℕ → Db}
    (hdb : ∀ store, db store = dbOf store (s.log ++ [(w, record)])) :
    Inv sha256 euid { s.note w record with db } where
  legal := hs.legal.concat hlegal
  db := hdb
  lock v d n h := by
    refine hs.lock v d n (Eq.trans ?_ h)
    show _ = (phaseOf v (s.log ++ [(w, record)])).owns
    by_cases hv : w = v
    · subst hv
      rw [phaseOf_same, howns]
    · rw [phaseOf_other hv]
  settled h := (hs.settled h).concat (hsettled h)

theorem Inv.commit (hs : Inv sha256 euid s) {d n store : ℕ} {round : Round} {c : Call}
    (hphase : phaseOf w s.log = .serving d n store round) (hfits : Fits round c) :
    Inv sha256 euid (s.commit sha256 w store c) := by
  refine hs.note ?_ (fun _ => ?_) ?_ fun store' => ?_
  · exact ⟨d, n, round, hphase, hfits, by rw [hs.db]; rfl⟩
  · trivial
  · rw [hphase]
    rfl
  · by_cases hstore : store = store'
    · subst hstore
      rw [dbOf_stored, Function.update_self]
      rfl
    · rw [dbOf_stored_ne hstore, Function.update_of_ne (Ne.symm hstore), hs.db]

theorem Inv.serveClient (hs : Inv sha256 euid s) {d n store : ℕ} {call : Option Call}
    {answered refused : Except Fault (List UInt8)} {fate : StoreFate}
    (hphase : phaseOf w s.log = .serving d n store .idle)
    (hclient : ∀ c, call = some c → isClientCall c = true) :
    Inv sha256 euid (s.serveClient sha256 w store call answered refused fate).2 := by
  cases call with
  | none => exact hs
  | some c =>
    have hcommit := hs.commit hphase (.client (hclient c rfl))
    cases fate with
    | done => exact hcommit
    | refused => exact hs
    | lost => exact hcommit

theorem Inv.release (hs : Inv sha256 euid s) (w : ℕ) : Inv sha256 euid (s.release w) where
  legal := hs.legal.concat trivial
  db store := by
    show s.db store = dbOf store (s.log ++ [(w, .ended)])
    rw [dbOf_concat .ended (fun _ h => (nomatch h)), hs.db]
  lock v d n h := by
    have hphase : (phaseOf v (s.log ++ [(w, .ended)])).owns = some (d, n) := h
    by_cases hv : w = v
    · subst hv
      rw [phaseOf_same] at hphase
      cases hphase
    · rw [phaseOf_other hv] at hphase
      obtain ⟨hlock, hrest⟩ := hs.lock v d n hphase
      refine ⟨?_, hrest⟩
      show (if s.files.held n = some w then none else s.files.held n) = some v
      rw [hlock, if_neg fun heq => hv (Option.some.inj heq).symm]
  settled h := (hs.settled h).concat trivial

/-- The lock of a private directory is granted when nobody owns the directory. -/
theorem Inv.flock (hs : Inv sha256 euid s) {d n : ℕ}
    (hallowed : Allowed euid w s (.file (.flock d n))) (hfree : s.files.held n = none) :
    Inv sha256 euid
      { s.note w (.locked d n) with
        files := { s.files with held := Function.update s.files.held n (some w) } } := by
  obtain ⟨hphase, hprivate, hentry⟩ := hallowed
  have hnobody : ∀ v n', (phaseOf v s.log).owns ≠ some (d, n') := by
    intro v n' howns
    obtain ⟨hlock, -, hentry'⟩ := hs.lock v d n' howns
    cases hentry.symm.trans hentry'
    rw [hfree] at hlock
    cases hlock
  refine ⟨hs.legal.concat ⟨hphase, hnobody⟩, fun store => ?_, fun v d' n' h => ?_,
    fun h => (hs.settled h).concat trivial⟩
  · show s.db store = dbOf store (s.log ++ [(w, .locked d n)])
    rw [dbOf_concat (.locked d n) (fun _ h => (nomatch h)), hs.db]
  · have howns : (phaseOf v (s.log ++ [(w, .locked d n)])).owns = some (d', n') := h
    by_cases hv : w = v
    · subst hv
      rw [phaseOf_same] at howns
      cases howns
      exact ⟨Function.update_self .., hprivate, hentry⟩
    · rw [phaseOf_other hv] at howns
      obtain ⟨hlock, hrest⟩ := hs.lock v d' n' howns
      have hne : n' ≠ n := by
        rintro rfl
        rw [hfree] at hlock
        cases hlock
      exact ⟨(Function.update_of_ne hne ..).trans hlock, hrest⟩

/-- A call of the file system that is no granted lock leaves the log as it is. -/
theorem answer_file {call : FileCall} {fate : Fate}
    (h : ∀ d n u, call = .flock d n → (s.files.answer euid w call fate.file).1 ≠ .ok u) :
    (World.answer sha256 json euid w (.file call) fate s).2 =
      { s with files := (s.files.answer euid w call fate.file).2 } := by
  cases call with
  | flock d n =>
    simp only [World.answer]
    cases hreply : (s.files.answer euid w (.flock d n) fate.file).1 with
    | ok u => exact absurd hreply (h d n u rfl)
    | error e => rfl
  | _ => rfl

/-- **One allowed call.**  It keeps the invariant. -/
theorem inv_may (hs : Inv sha256 euid s) (h : May sha256 json euid w s t) :
    Inv sha256 euid t := by
  obtain ⟨call, fate, hallowed, rfl⟩ := h
  have hfile : ∀ call : FileCall, Inv sha256 euid
      { s with files := (s.files.answer euid w call fate.file).2 } := fun call =>
    hs.files (Files.evolves_answer call fate.file s.files)
      fun _ _ hheld => Files.held_answer call fate.file hheld
  cases call with
  | step | clock | accept => exact hs
  | spawn | exit => exact hs.release w
  | outside change =>
    refine hs.files (change.evolves s.files) fun n v hheld => ?_
    rw [change.held, hheld]
  | file call =>
    by_cases hgranted : ∃ d n u, call = .flock d n ∧
      (s.files.answer euid w call fate.file).1 = .ok u
    · obtain ⟨d, n, u, rfl, hreply⟩ := hgranted
      obtain ⟨hfree, hfiles⟩ := Files.flock_eq_ok hreply
      simp only [World.answer, hreply, hfiles]
      exact hs.flock hallowed hfree
    · rw [answer_file fun d n u hcall hreply => hgranted ⟨d, n, u, hcall, hreply⟩]
      exact hfile call
  | openStore =>
    obtain ⟨d, n, hphase, hpath⟩ := hallowed
    simp only [World.answer]
    split
    · rename_i store _ hroot
      have hlegal : Legal sha256 s.log (w, .opened store) := ⟨d, n, hphase⟩
      have hsettled : s.files.rebound = false → Settled s.log (w, .opened store) := by
        intro hrebound
        cases hroot.symm.trans (hpath hrebound)
        exact ⟨n, hphase⟩
      refine hs.note hlegal hsettled (by rw [hphase]; rfl) fun store' => ?_
      rw [dbOf_concat (.opened store) (fun _ h => by cases h), hs.db]
    · exact hs
  | transact store c =>
    obtain ⟨d, n, round, hphase, hfits⟩ := hallowed
    simp only [World.answer, World.transact]
    cases fate.store with
    | done => exact hs.commit hphase hfits
    | refused => exact hs
    | lost => exact hs.commit hphase hfits
  | answerLocal store config =>
    obtain ⟨d, n, hphase⟩ := hallowed
    exact hs.serveClient hphase fun c hc => isClientCall_localCall hc
  | answerWebhook store config =>
    obtain ⟨d, n, hphase⟩ := hallowed
    exact hs.serveClient hphase fun c hc => isClientCall_webhookCall hc
  | deliver store config delivery =>
    obtain ⟨d, n, hphase⟩ := hallowed
    have hlegal : Legal sha256 s.log (w, .attempted store config delivery fate.peer) :=
      ⟨d, n, hphase⟩
    refine hs.note hlegal (fun _ => trivial) (by rw [hphase]; rfl) fun store' => ?_
    rw [dbOf_concat (.attempted ..) (fun _ h => by cases h), hs.db]

variable (sha256 json euid) in
/-- What holds at every moment, and what a process may do. -/
def contract : Contract World := ⟨Inv sha256 euid, May sha256 json euid, inv_may⟩

/-! ### What the others keep -/

theorem serveClient_cases {store : ℕ} {call : Option Call}
    {answered refused : Except Fault (List UInt8)} {fate : StoreFate}
    (hclient : ∀ c, call = some c → isClientCall c = true) :
    (s.serveClient sha256 w store call answered refused fate).2 = s ∨
      ∃ c, isClientCall c = true ∧
        (s.serveClient sha256 w store call answered refused fate).2 =
          s.commit sha256 w store c := by
  cases call with
  | none => exact .inl rfl
  | some c =>
    cases fate with
    | done => exact .inr ⟨c, hclient c rfl, rfl⟩
    | refused => exact .inl rfl
    | lost => exact .inr ⟨c, hclient c rfl, rfl⟩

theorem serveClient_log {store : ℕ} {call : Option Call}
    {answered refused : Except Fault (List UInt8)} {fate : StoreFate} :
    ((s.serveClient sha256 w store call answered refused fate).2.log = s.log ∨
      ∃ record, (s.serveClient sha256 w store call answered refused fate).2.log =
        s.log ++ [(w, record)]) ∧
    s.files.Evolves euid (s.serveClient sha256 w store call answered refused fate).2.files := by
  cases call with
  | none => exact ⟨.inl rfl, .refl _⟩
  | some c =>
    cases fate with
    | done => exact ⟨.inr ⟨_, rfl⟩, .refl _⟩
    | refused => exact ⟨.inl rfl, .refl _⟩
    | lost => exact ⟨.inr ⟨_, rfl⟩, .refl _⟩

/-- A call writes into the log under the number of its process, and the files evolve. -/
theorem answer_log (w : ℕ) (call : SystemCall) (fate : Fate) (s : World) :
    ((World.answer sha256 json euid w call fate s).2.log = s.log ∨
      ∃ record, (World.answer sha256 json euid w call fate s).2.log = s.log ++ [(w, record)]) ∧
    s.files.Evolves euid (World.answer sha256 json euid w call fate s).2.files := by
  cases call with
  | step | clock | accept => exact ⟨.inl rfl, .refl _⟩
  | spawn | exit => exact ⟨.inr ⟨_, rfl⟩, .of_node rfl fun h => ⟨h, fun _ hd => hd⟩⟩
  | outside change => exact ⟨.inl rfl, change.evolves s.files⟩
  | file call =>
    have hevolves : s.files.Evolves euid (s.files.answer euid w call fate.file).2 :=
      Files.evolves_answer call fate.file s.files
    cases call with
    | flock d n =>
      simp only [World.answer]
      cases (s.files.answer euid w (.flock d n) fate.file).1 with
      | ok u => exact ⟨.inr ⟨_, rfl⟩, hevolves⟩
      | error e => exact ⟨.inl rfl, hevolves⟩
    | _ => exact ⟨.inl rfl, hevolves⟩
  | openStore =>
    simp only [World.answer]
    split
    · exact ⟨.inr ⟨_, rfl⟩, .refl _⟩
    · exact ⟨.inl rfl, .refl _⟩
  | transact store c =>
    simp only [World.answer, World.transact]
    cases fate.store with
    | done => exact ⟨.inr ⟨_, rfl⟩, .refl _⟩
    | refused => exact ⟨.inl rfl, .refl _⟩
    | lost => exact ⟨.inr ⟨_, rfl⟩, .refl _⟩
  | answerLocal store config => exact serveClient_log ..
  | answerWebhook store config => exact serveClient_log ..
  | deliver store config delivery => exact ⟨.inr ⟨_, rfl⟩, .refl _⟩

/-! ### Rules for the programs -/

variable (euid) in
/-- The assertion on the phase and the files is kept as the files evolve. -/
def Steady (A : Phase → Files → Prop) : Prop :=
  ∀ p s t, Files.Evolves euid s t → A p s → A p t

theorem Steady.answer {A : Phase → Files → Prop} (hA : Steady euid A) (w : ℕ) (c : FileCall)
    (fate : FileFate) {p : Phase} {s : Files} (hs : A p s) : A p (s.answer euid w c fate).2 :=
  hA p s _ (Files.evolves_answer c fate s) hs

/-- An assertion on the phase of a process and the files. -/
def At (w : ℕ) (A : Phase → Files → Prop) (s : World) : Prop := A (phaseOf w s.log) s.files

theorem stable_at {A : Phase → Files → Prop} (hA : Steady euid A) :
    (contract sha256 json euid).Stable w (At w A) := by
  rintro v s t - hne ⟨call, fate, -, rfl⟩ hs
  obtain ⟨hlog, hevolves⟩ : (_ ∨ _) ∧
      s.files.Evolves euid (World.answer sha256 json euid v call fate s).2.files :=
    answer_log v call fate s
  have hphase : phaseOf w (World.answer sha256 json euid v call fate s).2.log =
      phaseOf w s.log := by
    rcases hlog with hlog | ⟨record, hlog⟩
    · rw [hlog]
    · rw [hlog, phaseOf_other hne]
  unfold At at hs ⊢
  rw [hphase]
  exact hA _ _ _ hevolves hs

variable (sha256 json euid) in
/-- Where `A` holds, the program makes allowed calls only, and its value comes with `B`. -/
def Triple {ε α : Type} (w : ℕ) (A : Phase → Files → Prop)
    (x : ExceptT ε (Program SystemCall SystemReply) α) (B : α → Phase → Files → Prop) : Prop :=
  ∀ s, Inv sha256 euid s → At w A s →
    KeepsOk (World.system sha256 json euid) (contract sha256 json euid) w
      (fun a t => At w (B a) t) x s

section Triple

variable {ε δ α β : Type} {A A' : Phase → Files → Prop} {B : α → Phase → Files → Prop}
  {D : β → Phase → Files → Prop}

theorem Triple.pre {x : ExceptT ε (Program SystemCall SystemReply) α}
    (h : Triple sha256 json euid w A' x B) (hA : ∀ p s, A p s → A' p s) :
    Triple sha256 json euid w A x B :=
  fun s hinv hs => h s hinv (hA _ _ hs)

theorem Triple.throw (e : ε) :
    Triple sha256 json euid w A (throw e : ExceptT ε (Program SystemCall SystemReply) α) B :=
  fun _ _ _ => .throw e

theorem Triple.pure (a : α) (hB : Steady euid (B a)) (h : ∀ p s, A p s → B a p s) :
    Triple sha256 json euid w A (pure a : ExceptT ε (Program SystemCall SystemReply) α) B :=
  fun _ _ hs => .pure a _ (stable_at hB) (h _ _ hs) fun _ _ ht => ht

theorem Triple.bind {x : ExceptT ε (Program SystemCall SystemReply) β}
    {f : β → ExceptT ε (Program SystemCall SystemReply) α}
    (hx : Triple sha256 json euid w A x D) (hf : ∀ b, Triple sha256 json euid w (D b) (f b) B) :
    Triple sha256 json euid w A (x >>= f) B :=
  fun s hinv hs => .bind _ (hx s hinv hs) fun b t hinvt ht => hf b t hinvt ht

theorem Triple.adapt {x : ExceptT ε (Program SystemCall SystemReply) α} {f : ε → δ}
    (hx : Triple sha256 json euid w A x B) (hB : ∀ a, Steady euid (B a)) :
    Triple sha256 json euid w A (x.adapt f) B :=
  fun s hinv hs => (hx s hinv hs).adapt fun a => stable_at (hB a)

/-- A guard is passed, or the program fails. -/
theorem Triple.refuse {bad : Bool} {e : ε}
    {f : Unit → ExceptT ε (Program SystemCall SystemReply) α}
    (hf : bad = false → Triple sha256 json euid w A (f ()) B) :
    Triple sha256 json euid w A (refuse bad e >>= f) B := by
  cases bad with
  | true => exact .throw e
  | false => exact hf rfl

theorem Triple.require {e : String} {x : Option β} {f : β → Serving α}
    (hf : ∀ b, x = some b → Triple sha256 json euid w A (f b) B) :
    Triple sha256 json euid w A (require e x >>= f) B := by
  cases x with
  | none => exact .throw e
  | some b => exact hf b rfl

/-- One call. -/
theorem Triple.call {c : SystemCall} {B : SystemReply c → Phase → Files → Prop}
    (hA : Steady euid A) (hB : ∀ reply, Steady euid (B reply))
    (h : ∀ s fate, Inv sha256 euid s → At w A s → Allowed euid w s c ∧
      At w (B (World.answer sha256 json euid w c fate s).1)
        (World.answer sha256 json euid w c fate s).2) :
    Triple sha256 json euid w A
      (ExceptT.lift (Program.call c) : ExceptT ε (Program SystemCall SystemReply) _) B := by
  intro s hinv hs
  refine .call _ (At w A) (stable_at hA) hs fun t hinvt ht fate => ?_
  obtain ⟨hallowed, hreply⟩ := h t fate hinvt ht
  exact ⟨⟨c, fate, hallowed, rfl⟩, fun u htu _ => (stable_at (hB _)).rely htu hreply⟩

/-- A call that the log does not note. -/
theorem Triple.quiet {c : SystemCall} (hA : Steady euid A) (hallowed : ∀ s, Allowed euid w s c)
    (hlog : ∀ fate s, (World.answer sha256 json euid w c fate s).2.log = s.log) :
    Triple sha256 json euid w A
      (ExceptT.lift (Program.call c) : ExceptT ε (Program SystemCall SystemReply) _)
      fun _ => A := by
  refine .call hA (fun _ => hA) fun s fate _ hs => ⟨hallowed s, ?_⟩
  unfold At at hs ⊢
  rw [hlog]
  exact hA _ _ _ (answer_log w c fate s).2 hs

/-- A file call that takes no lock, by what its value says of the files. -/
theorem Triple.look {c : FileCall} {e : ε} {B : FileValue c → Phase → Files → Prop}
    (hc : ∀ d n, c ≠ .flock d n) (hA : Steady euid A) (hB : ∀ a, Steady euid (B a))
    (h : ∀ p s fate a, A p s → (Files.answer euid w c fate s).1 = .ok a →
      B a p (Files.answer euid w c fate s).2) :
    Triple sha256 json euid w A (ask file e c) B := by
  intro s hinv hs
  refine Keeps.bind (fun reply t => ∀ a, reply = .ok a → At w (B a) t) ?_ ?_
  · refine Keeps.call _ (At w A) (stable_at hA) hs fun t hinvt ht fate => ?_
    have hanswer : (World.answer sha256 json euid w (.file c) fate t).2 =
        { t with files := (t.files.answer euid w c fate.file).2 } :=
      answer_file fun d n _ hcall => absurd hcall (hc d n)
    have hallowed : Allowed euid w t (.file c) := by
      cases c with
      | flock d n => exact absurd rfl (hc d n)
      | _ => trivial
    refine ⟨⟨.file c, fate, hallowed, rfl⟩, fun u htu _ a ha => (stable_at (hB a)).rely htu ?_⟩
    show At w (B a) (World.answer sha256 json euid w (.file c) fate t).2
    rw [hanswer]
    exact h _ _ fate.file a ht ha
  · intro reply t _ hreply
    cases reply with
    | ok a =>
      refine .ret _ (stable_at (hB a)) (hreply a rfl) fun u _ hu b hb => ?_
      cases hb
      exact hu
    | error e' =>
      exact .ret (fun _ => True) (fun _ _ _ _ _ _ _ => trivial) trivial
        fun _ _ _ _ hb => (nomatch hb)

end Triple

/-! ### The lock -/

section Lock

variable {ε : Type} {A : Phase → Files → Prop}

/-- A file call that takes no lock, when its value does not matter. -/
theorem Triple.pass {c : FileCall} {e : ε} (hc : ∀ d n, c ≠ .flock d n) (hA : Steady euid A) :
    Triple sha256 json euid w A (ask file e c) fun _ => A :=
  .look hc hA (fun _ => hA) fun _ _ fate _ hs _ => hA.answer w c fate hs

theorem steady_private (d : ℕ) : Steady euid fun _ s => s.isPrivate euid d = true :=
  fun _ _ _ h hs => (h.kept d hs).1

theorem Steady.and {A' : Phase → Files → Prop} (hA : Steady euid A) (hA' : Steady euid A') :
    Steady euid fun p s => A p s ∧ A' p s :=
  fun p s t h hs => ⟨hA p s t h hs.1, hA' p s t h hs.2⟩

theorem Steady.imp {c : Prop} (hA : Steady euid A) : Steady euid fun p s => c → A p s :=
  fun p s t h hs hc => hA p s t h (hs hc)

/-- The entry of a private directory. -/
theorem steady_entry (d n : ℕ) :
    Steady euid fun _ s => s.isPrivate euid d = true ∧ s.entry d = some n :=
  fun _ _ _ h hs => ⟨(h.kept d hs.1).1, (h.kept d hs.1).2 n hs.2⟩

/-- The path still names the directory, or another program has intervened. -/
def Rooted (d : ℕ) (_ : Phase) (s : Files) : Prop := s.rebound = false → s.root = some d

theorem steady_rooted (d : ℕ) : Steady euid (Rooted d) :=
  fun _ _ _ h hs hrebound => (h.path hrebound).2 d (hs (h.path hrebound).1)

theorem prepareStateRoot_spec (hA : Steady euid A) :
    Triple sha256 json euid w A (prepareStateRoot file euid) fun _ => A := by
  have hrest : Triple sha256 json euid w A (do
      let metadata ← ask file "state directory inspection failed" .symlinkMetadata
      refuse (metadata.kind != .directory || metadata.uid != euid) "state directory is unsafe"
      let _ ← ask file "state directory permissions failed" .setPermissions) fun _ => A := by
    refine .bind (.pass nofun hA) fun metadata => .refuse fun _ => ?_
    exact .bind (.pass nofun hA) fun _ => .pure _ hA fun _ _ hs => hs
  refine .bind (.quiet hA (fun _ => trivial) fun _ _ => rfl) fun created => ?_
  rcases (created : Except Errno Unit) with e | _
  · cases e with
    | exist => exact hrest
    | again => exact .throw _
    | other => exact .throw _
  · exact hrest

theorem openPrivateRootReference_spec (hA : Steady euid A) :
    Triple sha256 json euid w A (openPrivateRootReference file euid)
      fun d p s => (A p s ∧ Rooted d p s) ∧ s.isPrivate euid d = true := by
  refine .bind (.pass nofun hA) fun metadata => .refuse fun _ => ?_
  have hrooted (d : ℕ) : Steady euid fun p s => A p s ∧ Rooted d p s := hA.and (steady_rooted d)
  refine .bind (D := fun d p s => A p s ∧ Rooted d p s) (.look nofun hA hrooted ?_) fun d => ?_
  · intro p s fate d hs hreply
    exact (hrooted d).answer w _ fate ⟨hs, fun _ => Files.openRoot_eq_ok hreply⟩
  -- what the descriptor shows is the directory that is locked later
  let shown (opened : Stat) : Prop :=
    opened.kind = .directory ∧ opened.mode = 0o700 ∧ opened.uid = euid
  refine .bind (D := fun opened p s =>
      (A p s ∧ Rooted d p s) ∧ (shown opened → s.isPrivate euid d = true))
    (.look nofun (hrooted d) (fun _ => (hrooted d).and (.imp (steady_private d))) ?_)
    fun opened => ?_
  · intro p s fate opened hs hreply
    have hkept := (hrooted d).answer w (.fstat d) fate hs
    refine ⟨hkept, fun hshown => (steady_private d).answer w _ fate (p := p) ?_⟩
    obtain ⟨node, hnode, rfl⟩ := Files.fstat_eq_ok hreply
    unfold Files.isPrivate
    rw [hnode]
    obtain ⟨hkind, hmode, huid⟩ := hshown
    simp only [Option.any_some, Bool.and_eq_true, beq_iff_eq]
    exact ⟨⟨hkind, hmode⟩, huid⟩
  · refine .refuse fun hfits =>
      .pure _ ((hrooted d).and (steady_private d)) fun p s hs => ⟨hs.1, hs.2 ?_⟩
    simp only [Bool.or_eq_false_iff, bne_eq_false_iff_eq] at hfits
    exact ⟨hfits.1.1.1, hfits.1.1.2, hfits.1.2⟩

theorem safeLockEntryMetadata_spec (hA : Steady euid A) (d : ℕ) :
    Triple sha256 json euid w A (safeLockEntryMetadata file euid d) fun _ => A :=
  .bind (.pass nofun hA) fun _ => .refuse fun _ => .pure _ hA fun _ _ hs => hs

theorem openExistingLockEntry_spec (hA : Steady euid A) (d : ℕ) :
    Triple sha256 json euid w (fun p s => A p s ∧ s.isPrivate euid d = true)
      (openExistingLockEntry file euid d)
      fun n p s => A p s ∧ s.isPrivate euid d = true ∧ s.entry d = some n := by
  have hprivate : Steady euid fun p s => A p s ∧ s.isPrivate euid d = true :=
    hA.and (steady_private d)
  have hfound (n : ℕ) : Steady euid fun p s =>
      A p s ∧ s.isPrivate euid d = true ∧ s.entry d = some n := hA.and (steady_entry d n)
  refine .bind (safeLockEntryMetadata_spec hprivate d) fun before => ?_
  refine .bind (D := fun n p s => A p s ∧ s.isPrivate euid d = true ∧ s.entry d = some n)
    (.look nofun hprivate hfound ?_) fun n => ?_
  · intro p s fate n hs hreply
    exact (hfound n).answer w _ fate ⟨hs.1, hs.2, Files.openEntry_eq_ok hreply⟩
  · refine .bind (.pass nofun (hfound n)) fun opened => .refuse fun _ => .refuse fun _ => ?_
    refine .bind (safeLockEntryMetadata_spec (hfound n) d) fun last => .refuse fun _ => ?_
    exact .pure _ (hfound n) fun _ _ hs => hs

theorem openLockEntry_spec (hA : Steady euid A) (d : ℕ) :
    Triple sha256 json euid w (fun p s => A p s ∧ s.isPrivate euid d = true)
      (openLockEntry file euid d)
      fun n p s => A p s ∧ s.isPrivate euid d = true ∧ s.entry d = some n := by
  have hprivate : Steady euid fun p s => A p s ∧ s.isPrivate euid d = true :=
    hA.and (steady_private d)
  have hfound (n : ℕ) : Steady euid fun p s =>
      A p s ∧ s.isPrivate euid d = true ∧ s.entry d = some n := hA.and (steady_entry d n)
  refine .bind (D := fun created p s => (A p s ∧ s.isPrivate euid d = true) ∧
    ∀ n, created = .ok n → s.isPrivate euid d = true ∧ s.entry d = some n)
    (.call hprivate (fun created => ?_) ?_) fun created => ?_
  · exact hprivate.and fun p s t h hs n hn => steady_entry d n p s t h (hs n hn)
  · intro s fate _ hs
    have hkept := hprivate.answer w (.createEntry d) fate.file hs
    exact ⟨trivial, hkept, fun n hn => ⟨hkept.2, Files.createEntry_eq_ok hn⟩⟩
  · rcases (created : Except Errno ℕ) with e | n
    · cases e with
      | exist => exact (openExistingLockEntry_spec hA d).pre fun p s hs => hs.1
      | again => exact .throw _
      | other => exact .throw _
    · have hcreated : Triple sha256 json euid w
          (fun p s => A p s ∧ s.isPrivate euid d = true ∧ s.entry d = some n) (do
            let _ ← ask file StateOwnerLockError.openFailed (.fchmod n)
            let metadata ← ask file StateOwnerLockError.openFailed (.fstat n)
            validateLockMetadata euid metadata
            return n) fun n p s => A p s ∧ s.isPrivate euid d = true ∧ s.entry d = some n :=
        .bind (.pass nofun (hfound n)) fun _ => .bind (.pass nofun (hfound n)) fun _ =>
          .refuse fun _ => .pure _ (hfound n) fun _ _ hs => hs
      exact hcreated.pre fun p s hs => ⟨hs.1.1, hs.2 n rfl⟩

/-- The phases of a process. -/
theorem steady_phase (P : Phase → Prop) : Steady euid fun p _ => P p := fun _ _ _ _ hs => hs

/-- The directory is owned, and its path is as it was. -/
def Owns (p : Phase) (s : Files) : Prop := ∃ d n, p = .owner d n ∧ Rooted d p s

theorem steady_owns : Steady euid Owns :=
  fun p s t h ⟨d, n, hp, hs⟩ => ⟨d, n, hp, steady_rooted d p s t h hs⟩

theorem acquireOwnerLock_spec (d : ℕ) :
    Triple sha256 json euid w
      (fun p s => (p = .outside ∧ Rooted d p s) ∧ s.isPrivate euid d = true)
      (acquireOwnerLock file euid d) fun _ => Owns := by
  have hstart : Steady euid fun p s => p = Phase.outside ∧ Rooted d p s :=
    (steady_phase _).and (steady_rooted d)
  refine .bind (openLockEntry_spec hstart d) fun n => ?_
  refine .bind (D := fun locked p s => locked = .ok () → Owns p s)
    (.call (hstart.and (steady_entry d n)) (fun _ => .imp steady_owns) ?_) fun locked => ?_
  · rintro s fate - ⟨⟨hphase, hrooted⟩, hentry⟩
    refine ⟨⟨hphase, hentry⟩, fun hreply => ⟨d, n, ?_, ?_⟩⟩
    · have hgranted : (s.files.answer euid w (.flock d n) fate.file).1 = .ok () := hreply
      simp only [World.answer, hgranted]
      exact phaseOf_same w s.log _
    · have hevolves : s.files.Evolves euid
          (World.answer sha256 json euid w (.file (.flock d n)) fate s).2.files :=
        (answer_log w (.file (.flock d n)) fate s).2
      exact steady_rooted d .outside _ _ hevolves hrooted
  · rcases (locked : Except Errno Unit) with e | u
    · cases e <;> exact .throw _
    · exact .pure _ steady_owns fun _ _ hs => hs rfl

theorem acquire_spec :
    Triple sha256 json euid w (fun p _ => p = .outside) (acquire file euid) fun _ => Owns :=
  .bind (openPrivateRootReference_spec (steady_phase _)) fun d =>
    .bind (acquireOwnerLock_spec d) fun _ => .pure _ steady_owns fun _ _ hs => hs

end Lock

/-! ### The programs of the service -/

section Programs

variable {A : Phase → Files → Prop} {store : ℕ}

theorem Triple.exists {ι ε α : Type} {A : ι → Phase → Files → Prop}
    {B : α → Phase → Files → Prop} {x : ExceptT ε (Program SystemCall SystemReply) α}
    (h : ∀ i, Triple sha256 json euid w (A i) x B) :
    Triple sha256 json euid w (fun p s => ∃ i, A i p s) x B :=
  fun s hinv ⟨i, hi⟩ => h i s hinv hi

theorem Triple.given {ε α : Type} {c : Prop} {B : α → Phase → Files → Prop}
    {x : ExceptT ε (Program SystemCall SystemReply) α}
    (h : c → Triple sha256 json euid w A x B) :
    Triple sha256 json euid w (fun p s => c ∧ A p s) x B :=
  fun s hinv hs => h hs.1 s hinv hs.2

theorem must_spec (hA : Steady euid A) : Triple sha256 json euid w A must fun _ => A := by
  refine .bind (.quiet hA (fun _ => trivial) fun _ _ => rfl) fun error => ?_
  cases (error : Option String) with
  | none => exact .pure _ hA fun _ _ hs => hs
  | some e => exact .throw e

theorem nowUnixMs_spec (hA : Steady euid A) :
    Triple sha256 json euid w A nowUnixMs fun _ => A := by
  refine .bind (.quiet hA (fun _ => trivial) fun _ _ => rfl) fun now => ?_
  cases (now : Option Int64) with
  | none => exact .throw _
  | some now => exact .pure _ hA fun _ _ hs => hs

/-- The store is served, in a round. -/
def Serves (store : ℕ) (round : Round) (p : Phase) (_ : Files) : Prop :=
  ∃ d n, p = .serving d n store round

theorem steady_serves (round : Round) : Steady euid (Serves store round) :=
  fun _ _ _ _ hs => hs

theorem transact_spec {e : String} {round : Round} {c : Call} (hfits : Fits round c) :
    Triple sha256 json euid w (Serves store round) (transact e store c)
      fun reply => Serves store (roundOf c reply) := by
  refine .bind (D := fun (answer : Store.Answer) p s =>
    ∀ reply, answer = .ok reply → Serves store (roundOf c reply) p s)
    (.call (steady_serves round) (fun _ _ _ _ _ hs => hs) ?_) fun answer => ?_
  · rintro s fate - ⟨d, n, hphase⟩
    refine ⟨⟨d, n, round, hphase, hfits⟩, fun reply hreply => ⟨d, n, ?_⟩⟩
    simp only [World.answer, World.transact] at hreply ⊢
    cases hfate : fate.store with
    | refused => rw [hfate] at hreply; cases hreply
    | lost => rw [hfate] at hreply; cases hreply
    | done =>
      rw [hfate] at hreply
      have hevent : round.after (event (step sha256) (s.db store) c) = roundOf c reply := by
        unfold Round.after
        exact congrArg (fun r : Store.Answer => match r with
          | .ok reply => roundOf c reply
          | .error _ => round) hreply
      refine (phaseOf_same w s.log _).trans ?_
      rw [hphase, ← hevent]
      rfl
  · rcases (answer : Store.Answer) with e' | reply
    · exact .throw e
    · exact .pure _ (steady_serves _) fun _ _ hs => hs reply rfl

theorem openStore_spec : Triple sha256 json euid w Owns (call .openStore)
    fun opened p s => ∀ store, opened = some store → Serves store .fresh p s := by
  refine .call steady_owns (fun _ _ _ _ _ hs => hs) ?_
  rintro s fate - ⟨d, n, hphase, hrooted⟩
  refine ⟨⟨d, n, hphase, hrooted⟩, fun store hstore => ⟨d, n, ?_⟩⟩
  simp only [World.answer] at hstore ⊢
  split at hstore
  · cases hstore
    refine (phaseOf_same w s.log _).trans ?_
    rw [hphase]
    rfl
  · cases hstore

theorem serve_spec (service : ServiceConfig) :
    Triple sha256 json euid w (fun p _ => p = .outside) (serve json euid service)
      fun session => Serves session.store .idle := by
  refine .bind (must_spec (steady_phase _)) fun _ => .bind (must_spec (steady_phase _)) fun _ => ?_
  refine .bind (prepareStateRoot_spec (steady_phase _)) fun _ => ?_
  refine .bind (.adapt acquire_spec fun _ => steady_owns) fun _ => ?_
  refine .bind openStore_spec fun opened => .require fun store hstore => ?_
  refine .pre ?_ fun p s hs => hs store hstore
  have hfresh : Steady euid (Serves store .fresh) := steady_serves .fresh
  refine .bind (nowUnixMs_spec hfresh) fun _ => .bind (must_spec hfresh) fun _ =>
    .bind (nowUnixMs_spec hfresh) fun now => ?_
  refine .bind (transact_spec .recover) fun reply => .require fun endpoint _ => ?_
  exact .bind (must_spec (steady_serves _)) fun _ => .pure _ (steady_serves _) fun _ _ hs => hs

theorem attemptDelivery_spec (session : Session) (delivery : M2Delivery) :
    Triple sha256 json euid w (Serves session.store (.claimed delivery))
      (attemptDelivery session delivery) fun _ => Serves session.store .idle := by
  refine .bind (D := fun result p s => ∃ peer,
      (attempt session.config delivery peer).result = result ∧
        Serves session.store (.attempted session.config delivery peer) p s)
    (.call (steady_serves _) (fun _ _ _ _ _ hs => hs) ?_) fun result => .exists fun peer =>
      .given fun hresult => ?_
  · rintro s fate - ⟨d, n, hphase⟩
    refine ⟨⟨d, n, hphase⟩, fate.peer, rfl, d, n, ?_⟩
    refine (phaseOf_same w s.log _).trans ?_
    rw [hphase]
    rfl
  · cases result with
    | error panic => exact .throw _
    | ok outcome =>
      refine .bind (nowUnixMs_spec (steady_serves _)) fun now => ?_
      refine .bind (transact_spec (.mark hresult)) fun reply => ?_
      rw [roundOf_outcomeCall]
      exact .pure _ (steady_serves _) fun _ _ hs => hs

theorem dispatch_spec (session : Session) :
    Triple sha256 json euid w (Serves session.store .idle) (dispatch session)
      fun _ => Serves session.store .idle := by
  refine .bind (nowUnixMs_spec (steady_serves _)) fun now => ?_
  refine .bind (transact_spec .claim) fun reply => ?_
  split
  · exact attemptDelivery_spec session _
  · rename_i hother
    refine .pure _ (steady_serves _) fun p s hs => ?_
    have hround : roundOf (.m2ClaimDue now) reply = .idle := by
      unfold roundOf
      split
      · rename_i delivery hcall
        exact absurd rfl (hother delivery)
      · rfl
    rwa [hround] at hs

theorem survive_spec (hA : Steady euid A) (response : Except Fault (List UInt8)) :
    Triple sha256 json euid w A (survive response) fun _ => A := by
  unfold survive
  split
  · exact .throw _
  · exact .pure _ hA fun _ _ hs => hs

theorem accepting_spec (hA : Steady euid A) {e : String} {handle : Serving Unit}
    (hhandle : Triple sha256 json euid w A handle fun _ => A) :
    Triple sha256 json euid w A (accepting e handle) fun _ => A := by
  refine .bind (.quiet hA (fun _ => trivial) fun _ _ => rfl) fun arrival => ?_
  cases (arrival : Arrival) with
  | connection => exact hhandle
  | wouldBlock => exact .pure _ hA fun _ _ hs => hs
  | failed => exact .throw e

/-- A client is served between two rounds. -/
theorem serveClient_spec {c : SystemCall}
    (hc : ∀ s, (∃ d n, phaseOf w s.log = .serving d n store .idle) → Allowed euid w s c)
    (hlog : ∀ fate s, (World.answer sha256 json euid w c fate s).2 = s ∨
      ∃ call, isClientCall call = true ∧
        (World.answer sha256 json euid w c fate s).2 = s.commit sha256 w store call) :
    Triple sha256 json euid w (Serves store .idle)
      (call c) fun _ => Serves store .idle := by
  refine .call (steady_serves _) (fun _ => steady_serves _) ?_
  rintro s fate - ⟨d, n, hphase⟩
  refine ⟨hc s ⟨d, n, hphase⟩, ?_⟩
  rcases hlog fate s with hsame | ⟨call, hclient, hcommit⟩
  · rw [hsame]
    exact ⟨d, n, hphase⟩
  · rw [hcommit]
    refine ⟨d, n, (phaseOf_same w s.log _).trans ?_⟩
    rw [hphase]
    refine congrArg (Phase.serving d n store) ?_
    unfold Round.after
    split
    · exact roundOf_client hclient _
    · rfl

theorem poll_spec (session : Session) :
    Triple sha256 json euid w (Serves session.store .idle) (poll session)
      fun _ => Serves session.store .idle := by
  have hidle : Steady euid (Serves session.store .idle) := steady_serves .idle
  refine .bind (accepting_spec hidle ?_) fun _ => ?_
  · refine .bind (serveClient_spec (fun _ h => h) fun fate s => ?_) fun response =>
      survive_spec hidle response
    exact serveClient_cases fun c hc => isClientCall_localCall hc
  have hwebhook : Triple sha256 json euid w (Serves session.store .idle)
      (accepting "webhook accept failed" do
        let response ← call (.answerWebhook session.store session.webhook)
        survive response) fun _ => Serves session.store .idle := by
    refine accepting_spec hidle (.bind (serveClient_spec (fun _ h => h) fun fate s => ?_)
      fun response => survive_spec hidle response)
    exact serveClient_cases fun c hc => isClientCall_webhookCall hc
  split
  · exact .bind hwebhook fun _ => dispatch_spec session
  · exact dispatch_spec session

end Programs

/-! ### The processes -/

/-- What holds of a process between its programs. -/
def good (w : ℕ) : Option Session → World → Prop
  | none => At w fun p _ => p = .outside
  | some session => At w (Serves session.store .idle)

theorem stable_good (w : ℕ) (kernel : Option Session) :
    (contract sha256 json euid).Stable w (good w kernel) := by
  cases kernel with
  | none => exact stable_at (A := fun p _ => p = .outside) (steady_phase _)
  | some session => exact stable_at (steady_serves .idle)

theorem finish_spec {A : Phase → Files → Prop} {x : Serving Session}
    (hx : Triple sha256 json euid w A x fun session => Serves session.store .idle)
    (hinv : Inv sha256 euid s) (hs : At w A s) :
    Keeps (World.system sha256 json euid) (contract sha256 json euid) w
      (fun a t => ∀ kernel, a = some kernel → good w kernel t) (finish x) s := by
  refine Keeps.bind _ (hx s hinv hs) fun result t hinvt ht => ?_
  cases result with
  | ok session =>
    refine .ret _ (stable_at (steady_serves _)) (ht session rfl) fun u _ hu kernel hkernel => ?_
    cases hkernel
    exact hu
  | error e =>
    refine Keeps.bind (fun _ _ => True) ?_ fun _ u _ _ => ?_
    · exact .call _ (fun _ => True) (fun _ _ _ _ _ _ _ => trivial) trivial fun u _ _ fate =>
        ⟨⟨.exit, fate, trivial, rfl⟩, fun _ _ _ => trivial⟩
    · exact .ret (fun _ => True) (fun _ _ _ _ _ _ _ => trivial) trivial
        fun _ _ _ _ hkernel => (nomatch hkernel)

/-- A process that leaves its phase as it is. -/
theorem rest_spec {kernel : Option Session} (hs : good w kernel s) :
    Keeps (World.system sha256 json euid) (contract sha256 json euid) w
      (fun a t => ∀ kernel, a = some kernel → good w kernel t)
      (pure (some kernel) : Program SystemCall SystemReply _) s :=
  .ret _ (stable_good w kernel) hs fun t _ ht kernel' hkernel => by cases hkernel; exact ht

theorem fulfils_duty : Pool.Fulfils (World.system sha256 json euid) (duty json euid)
    (contract sha256 json euid) good where
  stable := stable_good
  release w s _ := ⟨.exit, calm, trivial, rfl⟩
  boot w s _ := by
    refine Keeps.bind (fun _ t => good w none t) ?_ fun _ t _ ht => rest_spec ht
    refine .call _ (fun _ => True) (fun _ _ _ _ _ _ _ => trivial) trivial fun t _ _ fate =>
      ⟨⟨.spawn, fate, trivial, rfl⟩, fun u htu _ => (stable_good w none).rely htu ?_⟩
    exact phaseOf_same w t.log .ended
  work w kernel op s hinv hs := by
    cases kernel with
    | none =>
      cases op with
      | serve service => exact finish_spec (serve_spec service) hinv hs
      | poll => exact rest_spec hs
      | outside change =>
        refine Keeps.bind (fun _ t => good w none t) ?_ fun _ t _ ht => rest_spec ht
        exact .call _ (good w none) (stable_good w none) hs fun t _ ht fate =>
          ⟨⟨.outside change, fate, trivial, rfl⟩, fun u htu _ => (stable_good w none).rely htu ht⟩
    | some session =>
      cases op with
      | serve service => exact rest_spec hs
      | poll =>
        exact finish_spec (.bind (poll_spec session) fun _ => .pure _ (steady_serves _)
          fun _ _ hs => hs) hinv hs
      | outside change => exact rest_spec hs

variable (sha256 json euid) in
/-- A run in which no process has started yet. -/
def ran (files : Files) (moves : List (Move Op Fate)) :
    Pool World SystemCall SystemReply (Option Session) :=
  Pool.run (World.system sha256 json euid) (duty json euid)
    ⟨World.start files, fun _ => .stopped⟩ moves

/-- **All runs.**  However the processes take turns and wherever they stop, they make allowed calls
only. -/
theorem ran_holds (files : Files) (moves : List (Move Op Fate)) :
    Pool.Holds (World.system sha256 json euid) (contract sha256 json euid) good
      (ran sha256 json euid files moves) := by
  refine Pool.run_holds fulfils_duty ?_ moves
  exact ⟨⟨.nil, fun _ => rfl, fun _ _ _ h => (nomatch h), fun _ => .nil⟩, fun _ => trivial⟩

end Contract

end MsgRiver.Service.Processes
