import MsgRiver.Store.Lifecycle

/-!
# Marks of a sending message

A row in `sending` has no next attempt, no acknowledgement and no error text.  So each of the marks
leaves a row that meets the constraints of the table, and a mark with a valid text of such a row
succeeds (`markSending_ok`, `m2MarkRetry_ok`).
-/

namespace MsgRiver.Store

open RelTable Checked Result StepRun

variable {db : Db} {m : Message}

/-- The nullable columns of a sending row. -/
theorem sending_columns (hm : m ∈ db.messages.rows) (hs : m.state = .sending) :
    m.nextAttemptAtUnixMs = none ∧ m.providerAck = none ∧ m.lastError = none := by
  obtain ⟨hnext, hack, herror⟩ := nullable_columns hm
  rw [hs] at hnext hack herror
  simp only [reduceCtorEq, or_self, iff_false, Bool.not_eq_true, Option.isSome_eq_false_iff,
    Option.isNone_iff_eq_none] at hnext hack herror
  exact ⟨hnext, hack, herror⟩

theorem accept_check (hm : m ∈ db.messages.rows) (hs : m.state = .sending) (ack : String)
    (now : Int64) : (m.accept ack now).check = true := by
  obtain ⟨hnext, -, herror⟩ := sending_columns hm hs
  obtain ⟨hid, hkey, htopic, hbody, hattempts, -, -, -, hdriver⟩ :=
    (Message.check_iff m).1 (Db.check_of_mem hm)
  exact (Message.check_iff _).2 ⟨hid, hkey, htopic, hbody, hattempts,
    by simp [Message.accept, hnext,
    MessageState.waiting], by simp [Message.accept], by simp [Message.accept, herror,
    MessageState.errored], hdriver⟩

theorem giveUp_check (hm : m ∈ db.messages.rows) (hs : m.state = .sending) {state : MessageState}
    (hstate : state.errored = true) (reason : String) (now : Int64) :
    (m.giveUp state reason now).check = true := by
  obtain ⟨hnext, hack, -⟩ := sending_columns hm hs
  obtain ⟨hid, hkey, htopic, hbody, hattempts, -, -, -, hdriver⟩ :=
    (Message.check_iff m).1 (Db.check_of_mem hm)
  refine (Message.check_iff _).2 ⟨hid, hkey, htopic, hbody, hattempts, ?_, ?_, ?_, hdriver⟩ <;>
    cases state <;> simp_all [Message.giveUp, MessageState.waiting, MessageState.errored]

theorem schedule_check (hm : m ∈ db.messages.rows) (hs : m.state = .sending) (next now : Int64) :
    (m.schedule next now).check = true := by
  obtain ⟨-, hack, -⟩ := sending_columns hm hs
  obtain ⟨hid, hkey, htopic, hbody, hattempts, -, -, -, hdriver⟩ :=
    (Message.check_iff m).1 (Db.check_of_mem hm)
  exact (Message.check_iff _).2 ⟨hid, hkey, htopic, hbody, hattempts, by simp [Message.schedule,
    MessageState.waiting], by simp [Message.schedule, hack], by simp [Message.schedule,
    MessageState.errored], hdriver⟩

/-- An assignment that keeps the keys and the constraints is carried out on the sending row. -/
theorem update_sending {set : Message → Message} (hm : m ∈ db.messages.rows)
    (hs : m.state = .sending) (hid : ∀ x, (set x).messageId = x.messageId)
    (hkey : ∀ x, (set x).idempotencyKey = x.idempotencyKey) (hcheck : (set m).check = true) :
    ∃ messages, db.messages.update (atState m.messageId .sending) set = some (messages, 1) ∧
      messages.rows = db.messages.rows.map (replaceRow m (set m)) := by
  have hsel : atState m.messageId .sending m = true := by simp [atState, hs]
  have hsome : (db.messages.update (atState m.messageId .sending) set).isSome := by
    refine (Table.update_isSome_iff (messageSchema_keys_of hid hkey)).2 ?_
    intro x hx hat
    simp only [atState, Bool.and_eq_true, decide_eq_true_eq] at hat
    obtain rfl := Table.eq_of_key messageId_mem_keys hx hm hat.1
    exact hcheck
  obtain ⟨⟨messages, changed⟩, hupdate⟩ := Option.isSome_iff_exists.1 hsome
  have hcount : changed = db.messages.rows.countP (atState m.messageId .sending) :=
    (Table.update_eq_some hupdate).2
  have hle : changed ≤ 1 := by
    rw [hcount]
    exact Table.countP_key_le_one messageId_mem_keys m.messageId _
  have hpos : 0 < changed := hcount ▸ List.countP_pos_iff.2 ⟨m, hm, hsel⟩
  obtain rfl : changed = 1 := by omega
  exact ⟨messages, hupdate,
    update_atState (fun x => x.state == .sending) hm rfl (by simp [hs]) hupdate⟩

/-- A mark of the sending row `m` that makes it `m'`. -/
def Marked (sha256 : List UInt8 → List.Vector UInt8 32) (db : Db) (c : Call) (m m' : Message) :
    Prop :=
  (step sha256 db c).1 = .ok .done ∧
    (step sha256 db c).2.messages.rows = db.messages.rows.map (replaceRow m m')

variable {sha256 : List UInt8 → List.Vector UInt8 32}

/-- A single-statement mark with a valid text succeeds on a sending row. -/
theorem markSending_ok {c : Call} {text : String} {set : Message → Message}
    (hm : m ∈ db.messages.rows) (hs : m.state = .sending)
    (hstep : step sha256 db c = answer (fun _ => .done) (markSending m.messageId text set db))
    (htext : validText text 256 = true) (hid : ∀ x, (set x).messageId = x.messageId)
    (hkey : ∀ x, (set x).idempotencyKey = x.idempotencyKey) (hcheck : (set m).check = true) :
    Marked sha256 db c m (set m) := by
  obtain ⟨messages, hupdate, hrows⟩ := update_sending hm hs hid hkey hcheck
  unfold Marked
  rw [hstep, markSending, htext, Bool.not_true, if_neg Bool.false_ne_true, m2TransitionSending,
    hupdate]
  exact ⟨rfl, hrows⟩

theorem select_sending (hm : m ∈ db.messages.rows) (hs : m.state = .sending) :
    db.messages.select (atState m.messageId .sending) = some m := by
  cases hselect : db.messages.select (atState m.messageId .sending) with
  | none =>
    have := Table.select_eq_none.1 hselect m hm
    simp [atState, hs] at this
  | some x =>
    have hx : x ∈ db.messages.rows := List.mem_of_find?_eq_some hselect
    have hat : atState m.messageId .sending x = true := List.find?_some hselect
    simp only [atState, Bool.and_eq_true, decide_eq_true_eq] at hat
    rw [Table.eq_of_key messageId_mem_keys hx hm hat.1]

/-- The assignment of a retry, as one of the budget. -/
theorem retryAssignment_ok {attempts : ℤ} {reason : String} {delayMs : UInt32} {next now : Int64}
    (hnext : ofInt? (now.toInt + delayMs.toNat) = some next) :
    retryAssignment attempts reason delayMs now = .ok
      (if attempts < 5 then Message.schedule next now else Message.giveUp .failed reason now) := by
  unfold retryAssignment
  by_cases hbudget : attempts < 5
  · rw [if_neg (by omega), if_pos hbudget, hnext]
    rfl
  · rw [if_pos (by omega), if_neg hbudget]

/-- A retry of a sending row succeeds, and schedules the next attempt while the budget lasts. -/
theorem m2MarkRetry_ok {reason : String} {delayMs : UInt32} {next now : Int64}
    (hm : m ∈ db.messages.rows) (hs : m.state = .sending) (hreason : validText reason 256 = true)
    (hdelay : 1000 ≤ delayMs.toNat ∧ delayMs.toNat ≤ 3600000)
    (hnext : ofInt? (now.toInt + delayMs.toNat) = some next) :
    Marked sha256 db (.m2MarkRetry m.messageId reason delayMs now) m
      (if m.attempts < 5 then m.schedule next now else m.giveUp .failed reason now) := by
  have hmark : ∀ set : Message → Message, retryAssignment m.attempts reason delayMs now = .ok set →
      (∀ x, (set x).messageId = x.messageId) → (∀ x, (set x).idempotencyKey = x.idempotencyKey) →
      (set m).check = true →
      Marked sha256 db (.m2MarkRetry m.messageId reason delayMs now) m (set m) := by
    intro set hset hid hkey hcheck
    obtain ⟨messages, hupdate, hrows⟩ := update_sending hm hs hid hkey hcheck
    have hstep : step sha256 db (.m2MarkRetry m.messageId reason delayMs now) =
        (.ok .done, { db with messages := messages }) := by
      simp [step, answer, m2MarkRetry, transaction, reject, hreason, hdelay, select_sending hm hs,
        orError, hset, hupdate, bind, Except.bind, pure, Except.pure, Except.map]
    unfold Marked
    rw [hstep]
    exact ⟨rfl, hrows⟩
  have hassign := @retryAssignment_ok m.attempts reason _ _ _ hnext
  by_cases hbudget : m.attempts < 5
  · rw [if_pos hbudget] at hassign ⊢
    exact hmark _ hassign (fun _ => rfl) (fun _ => rfl) (schedule_check hm hs next now)
  · rw [if_neg hbudget] at hassign ⊢
    exact hmark _ hassign (fun _ => rfl) (fun _ => rfl) (giveUp_check hm hs rfl reason now)

end MsgRiver.Store
