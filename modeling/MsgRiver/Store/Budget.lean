import MsgRiver.Lib.Sha256
import MsgRiver.Store.Calls

/-!
# The attempt budget of a claim

`m2_claim_due` adds one to `attempts`, and the CHECK of the migration keeps that column in `0..5`.
A claim is refused exactly when the row it selects has spent its five attempts
(`claim_error_iff`).  `m2_mark_retry` turns a fifth attempt into `failed`, so the rows that wait
for an attempt have spent at most four (`BudgetLeft`); only `m6_requeue_failed`, which leaves the
counter as it is, can break this.
-/

namespace MsgRiver.Store

open RelTable Result StepRun

/-- Every waiting row has an attempt left. -/
def BudgetLeft (db : Db) : Prop :=
  ∀ m ∈ db.messages.rows, m.state.waiting = true → m.attempts ≤ 4

/-- The message a call asks to requeue. -/
def Call.requeues : Call → Option String
  | .m6RequeueFailed messageId _ => some messageId
  | _ => none

/-- The event is not a requeue of a failed row whose five attempts are spent. -/
def RequeueWithinBudget (e : StoreEvent) : Prop :=
  ∀ messageId ∈ e.call.requeues, ∀ m ∈ e.before.messages.rows,
    m.messageId = messageId → m.state = .failed → m.attempts ≤ 4

instance (e : StoreEvent) : Decidable (RequeueWithinBudget e) :=
  inferInstanceAs (Decidable (∀ messageId ∈ e.call.requeues, ∀ m ∈ e.before.messages.rows,
    m.messageId = messageId → m.state = .failed → m.attempts ≤ 4))

/-! ### One claim -/

/-- Claiming a waiting row keeps all its constraints but the upper bound of `attempts`. -/
theorem check_claim_iff {m : Message} (hm : m.check = true) (hw : m.state.waiting = true)
    (now : Int64) : (m.claim now).check = true ↔ m.attempts ≤ 4 := by
  rw [Message.check_iff] at hm ⊢
  obtain ⟨hid, hkey, htopic, hbody, hatt, -, hack, herr, hdriver⟩ := hm
  rw [(MessageState.of_waiting hw).1] at hack
  rw [(MessageState.of_waiting hw).2] at herr
  simp only [Message.claim, hid, hkey, htopic, hbody, hdriver, ← hack, ← herr, true_and, and_true]
  constructor
  · rintro ⟨⟨-, h⟩, -⟩
    omega
  · intro h
    exact ⟨by omega, rfl, rfl, rfl⟩

theorem dueCandidate_spec {db : Db} {now : Int64} {row : Message}
    (h : dueCandidate db now = some row) : row ∈ db.messages.rows ∧ row.due now = true :=
  List.mem_filter.1 (firstBy_mem h)

theorem waiting_of_due {m : Message} {now : Int64} (h : m.due now = true) :
    m.state.waiting = true := by
  simp only [Message.due, Bool.and_eq_true] at h
  exact h.1

theorem dueCandidate_eq_none {db : Db} {now : Int64} :
    dueCandidate db now = none ↔ ∀ m ∈ db.messages.rows, m.due now = false := by
  rw [dueCandidate, firstBy_eq_none, List.filter_eq_nil_iff]
  simp only [Bool.not_eq_true]

/-- A claim goes through when its candidate has an attempt left. -/
theorem m2ClaimDue_of_budget {db : Db} {now : Int64} {row : Message}
    (hrow : dueCandidate db now = some row) (hb : row.attempts ≤ 4) :
    ∃ attempt, (m2ClaimDue now db).1 = .ok (some (row.delivery attempt)) ∧
      row.claim now ∈ (m2ClaimDue now db).2.messages.rows := by
  obtain ⟨hmem, hdue⟩ := dueCandidate_spec hrow
  have hw := waiting_of_due hdue
  have hcheck := Db.check_of_mem hmem
  let sel : Message → Bool := fun m => decide (m.messageId = row.messageId) && m.state.waiting
  have hsome : (db.messages.update sel (Message.claim now)).isSome := by
    rw [Table.update_isSome_iff]
    · intro m hm hsel
      simp only [sel, Bool.and_eq_true, decide_eq_true_eq] at hsel
      obtain rfl := Table.eq_of_key messageId_mem_keys hm hmem hsel.1
      exact (check_claim_iff hcheck hw now).2 hb
    · exact messageSchema_keys_of (fun _ => rfl) (fun _ => rfl)
  obtain ⟨⟨messages, changed⟩, hupd⟩ := Option.isSome_iff_exists.1 hsome
  obtain ⟨hrows, hcount⟩ := Table.update_eq_some hupd
  -- the update selects by the key, so it changes this one row
  have hone : changed = 1 := by
    have hle : db.messages.rows.countP sel ≤ 1 :=
      Table.countP_key_le_one messageId_mem_keys row.messageId _
    have hpos : 0 < db.messages.rows.countP sel :=
      List.countP_pos_iff.2 ⟨row, hmem, by simp [sel, hw]⟩
    simp only at hcount
    omega
  have hatt : 0 ≤ row.attempts := ((Message.check_iff row).1 hcheck).2.2.2.2.1.1
  have hu8 : tryU8 (row.attempts + 1) = some (UInt8.ofNat (row.attempts + 1).toNat) := by
    rw [tryU8, if_pos (by omega)]
  have hclaim : m2ClaimDue now db = (.ok (some (row.delivery (UInt8.ofNat (row.attempts + 1).toNat))),
      { db with messages := messages }) := by
    subst hone
    simp only [m2ClaimDue, transaction, hrow]
    simp only [sel] at hupd
    simp [hupd, hu8, orError, reject, bind, Except.bind, pure, Except.pure]
  refine ⟨_, by rw [hclaim], ?_⟩
  rw [hclaim]
  show row.claim now ∈ messages.rows
  rw [hrows]
  exact List.mem_map.2 ⟨row, hmem, by simp [sel, hw]⟩

/-- **A claim is refused exactly when the selected row has spent its attempts.** -/
theorem claim_error_iff (db : Db) (now : Int64) :
    (∃ e, (m2ClaimDue now db).1 = .error e) ↔
      ∃ row, dueCandidate db now = some row ∧ row.attempts = 5 := by
  cases hrow : dueCandidate db now with
  | none => simp [m2ClaimDue, transaction, hrow]
  | some row =>
    obtain ⟨hmem, hdue⟩ := dueCandidate_spec hrow
    have hcheck := Db.check_of_mem hmem
    have hatt := ((Message.check_iff row).1 hcheck).2.2.2.2.1
    by_cases hb : row.attempts ≤ 4
    · obtain ⟨attempt, hok, -⟩ := m2ClaimDue_of_budget hrow hb
      simp only [hok, reduceCtorEq, exists_false, Option.some.injEq, exists_eq_left', false_iff]
      omega
    · have hnone : db.messages.update (fun m => decide (m.messageId = row.messageId)
          && m.state.waiting) (Message.claim now) = none := by
        rw [← Option.not_isSome_iff_eq_none, Table.update_isSome_iff]
        · intro hall
          have hw := waiting_of_due hdue
          exact hb ((check_claim_iff hcheck hw now).1 (hall row hmem (by simp [hw])))
        · exact messageSchema_keys_of (fun _ => rfl) (fun _ => rfl)
      have herr : (m2ClaimDue now db).1 = .error .delivery := by
        simp only [m2ClaimDue, transaction, hrow]
        simp [hnone, orError, bind, Except.bind]
      rw [herr]
      exact ⟨fun _ => ⟨row, rfl, by omega⟩, fun _ => ⟨_, rfl⟩⟩

/-! ### Runs -/

section Runs

variable {sha256 : List UInt8 → List.Vector UInt8 32}

theorem replaceRow_mem {rows : List Message} {m m' x : Message}
    (hx : x ∈ rows.map (replaceRow m m')) : x = m' ∨ x ∈ rows := by
  obtain ⟨y, hy, rfl⟩ := List.mem_map.1 hx
  unfold replaceRow
  split_ifs
  · exact Or.inl rfl
  · exact Or.inr hy

/-- A move leaves an attempt to a row that waits afterwards, unless it requeues a spent row. -/
theorem Moves.budgetLeft {c : Call} {r : Reply} {m m' : Message} (h : Moves c r m m')
    (hreq : ∀ now, c = .m6RequeueFailed m.messageId now → m.attempts ≤ 4)
    (hw : m'.state.waiting = true) : m'.attempts ≤ 4 := by
  cases h with
  | claim hdue => simp [Message.claim, MessageState.waiting] at hw
  | accept hs => simp [Message.accept, MessageState.waiting] at hw
  | schedule hs hbudget hnext => simp only [Message.schedule]; omega
  | exhaust hs hbudget => simp [Message.giveUp, MessageState.waiting] at hw
  | fail hs => simp [Message.giveUp, MessageState.waiting] at hw
  | doubt hs => simp [Message.giveUp, MessageState.waiting] at hw
  | requeue hs => exact hreq _ rfl

theorem budgetLeft_append {db : Db} {rows : List Message} {m : Message} (hb : BudgetLeft db)
    (hrows : rows = db.messages.rows ++ [m]) (hm : m.attempts = 0) :
    ∀ x ∈ rows, x.state.waiting = true → x.attempts ≤ 4 := by
  subst hrows
  intro x hx hw
  rcases List.mem_append.1 hx with hx | hx
  · exact hb x hx hw
  · rw [List.mem_singleton.1 hx, hm]
    decide

/-- One call keeps an attempt in every waiting row. -/
theorem budgetLeft_step (db : Db) (c : Call) (hb : BudgetLeft db)
    (hc : RequeueWithinBudget (event (step sha256) db c)) : BudgetLeft (step sha256 db c).2 := by
  have heff := step_effect sha256 db c
  unfold RequeueWithinBudget event at hc
  simp only at hc
  generalize step sha256 db c = p at heff
  obtain ⟨r, db'⟩ := p
  cases heff with
  | failure | m2Existing | m3Existing | inboundIdle | switched | nothingDue | notRequeued => exact hb
  | m2New hrows => exact budgetLeft_append hb hrows rfl
  | m3New _ hrows => exact budgetLeft_append hb hrows rfl
  | inboundAccepted _ _ hmessages => exact budgetLeft_append hb hmessages rfl
  | moved hm hmove hrows =>
    intro x hx hw
    rcases replaceRow_mem (hrows ▸ hx) with rfl | hx
    · refine hmove.budgetLeft (fun now hcall => ?_) hw
      cases hmove <;> cases hcall
      rename_i hs
      exact hc _ rfl _ hm rfl hs
    · exact hb x hx hw
  | recovered hrows =>
    intro x hx hw
    obtain ⟨y, hy, rfl⟩ := List.mem_map.1 (hrows ▸ hx)
    unfold recoverRow at hw ⊢
    split_ifs at hw ⊢ with hs
    · simp [Message.giveUp, MessageState.waiting] at hw
    · exact hb y hy hw

theorem budgetLeft_migrated : BudgetLeft Db.migrated := by
  intro m hm
  cases hm

end Runs

/-- **Claims never fail while no spent row is requeued.**  In every state reached by calls none of
which requeues a failed row with five attempts, `m2_claim_due` answers `Ok` at every time; it
answers with a message whenever one is due, and that message is then being sent. -/
theorem claimDue_ok_of_requeueWithinBudget (sha256 : List UInt8 → List.Vector UInt8 32)
    (calls : List Call)
    (h : ∀ e ∈ events (step sha256) Db.migrated calls, RequeueWithinBudget e) (now : Int64) :
    let db := run (step sha256) Db.migrated calls
    ((∀ m ∈ db.messages.rows, m.due now = false) → (m2ClaimDue now db).1 = .ok none) ∧
    ((∃ m ∈ db.messages.rows, m.due now = true) →
      ∃ row ∈ db.messages.rows, ∃ attempt, row.due now = true ∧
        (m2ClaimDue now db).1 = .ok (some (row.delivery attempt)) ∧
        row.claim now ∈ (m2ClaimDue now db).2.messages.rows) := by
  intro db
  have hb : BudgetLeft db := run_induct_of (fun s a => budgetLeft_step s a) budgetLeft_migrated h
  cases hrow : dueCandidate db now with
  | none =>
    have hno := dueCandidate_eq_none.1 hrow
    refine ⟨fun _ => by simp [m2ClaimDue, transaction, hrow], ?_⟩
    rintro ⟨m, hm, hdue⟩
    rw [hno m hm] at hdue
    cases hdue
  | some row =>
    obtain ⟨hmem, hdue⟩ := dueCandidate_spec hrow
    obtain ⟨attempt, hok, hafter⟩ :=
      m2ClaimDue_of_budget hrow (hb row hmem (waiting_of_due hdue))
    refine ⟨fun hno => ?_, fun _ => ⟨row, hmem, attempt, hdue, hok, hafter⟩⟩
    rw [hno row hmem] at hdue
    cases hdue

/-! ### A requeue that breaks every later claim -/

/-- A notice whose delivery keeps failing. -/
def nightlyNotice : M2Submission := ⟨"nightly-1", "alerts", none, "disk full"⟩

/-- The message id of that notice. -/
def nightlyId : String := "49eb352c523f72e59f7c6f17a5d674daf38341c310c6aa1fe0b2ba6481a85a48"

/-- One attempt, rejected and requeued. -/
def earlyRequeue : List Call :=
  [.m2Submit nightlyNotice 0, .m2ClaimDue 0, .m2MarkFailed nightlyId "ntfy rejected request" 10,
   .m6RequeueFailed nightlyId 20]

/-- Five attempts, each answered with a retry, and the operator's requeue of the failed row. -/
def spentRequeue : List Call :=
  [.m2Submit nightlyNotice 0,
   .m2ClaimDue 0, .m2MarkRetry nightlyId "ntfy temporary failure" 1000 0,
   .m2ClaimDue 1000, .m2MarkRetry nightlyId "ntfy temporary failure" 1000 1000,
   .m2ClaimDue 2000, .m2MarkRetry nightlyId "ntfy temporary failure" 1000 2000,
   .m2ClaimDue 3000, .m2MarkRetry nightlyId "ntfy temporary failure" 1000 3000,
   .m2ClaimDue 4000, .m2MarkRetry nightlyId "ntfy temporary failure" 1000 4000,
   .m6RequeueFailed nightlyId 5000]

/-- A row requeued within its budget is claimed again. -/
theorem claimDue_ok_after_earlyRequeue :
    let db := run (step Sha256.sha256) Db.migrated earlyRequeue
    ∃ row ∈ db.messages.rows, ∃ attempt, row.due 20 = true ∧
      (m2ClaimDue 20 db).1 = .ok (some (row.delivery attempt)) ∧
      row.claim 20 ∈ (m2ClaimDue 20 db).2.messages.rows :=
  (claimDue_ok_of_requeueWithinBudget Sha256.sha256 earlyRequeue (by decide +kernel) 20).2
    (by decide +kernel)

/-- After a requeue of a row with five attempts, a claim answers `Err`. -/
theorem claimDue_fails_after_spentRequeue :
    ¬ ∀ (calls : List Call) (now : Int64),
      ∃ r, (m2ClaimDue now (run (step Sha256.sha256) Db.migrated calls)).1 = .ok r := by
  intro h
  obtain ⟨r, hr⟩ := h spentRequeue 5000
  have hfail : (m2ClaimDue 5000 (run (step Sha256.sha256) Db.migrated spentRequeue)).1.isOk
      = false := by
    decide +kernel
  rw [hr] at hfail
  cases hfail

end MsgRiver.Store
