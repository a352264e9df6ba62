import MsgRiver.Store.Queue

/-!
# Status reads

What a local client may read of the queue: the number of messages in each state, and the state and
the attempts of one message.
-/

namespace MsgRiver.Store

/-- The text of the `state` column. -/
def MessageState.text : MessageState → String
  | .queued => "queued"
  | .sending => "sending"
  | .retryScheduled => "retry_scheduled"
  | .providerAccepted => "provider_accepted"
  | .ambiguous => "ambiguous"
  | .failed => "failed"

/-- How many messages are in each state. -/
structure M6QueueSummary where
  queued : ℕ
  retryScheduled : ℕ
  sending : ℕ
  providerAccepted : ℕ
  failed : ℕ
  ambiguous : ℕ
  deriving DecidableEq

/-- The state of a message and its attempts. -/
structure M6MessageStatus where
  state : String
  attempts : ℕ
  deriving DecidableEq

/-- The messages in one state. -/
def m6StateCount (db : Db) (state : MessageState) : ℕ :=
  db.messages.rows.countP fun m => decide (m.state = state)

/-- The summary that the status request returns. -/
def m6QueueSummary (db : Db) : M6QueueSummary :=
  { queued := m6StateCount db .queued
    retryScheduled := m6StateCount db .retryScheduled
    sending := m6StateCount db .sending
    providerAccepted := m6StateCount db .providerAccepted
    failed := m6StateCount db .failed
    ambiguous := m6StateCount db .ambiguous }

/-- The status of one message, where it exists. -/
def m6MessageStatus (messageId : String) (db : Db) : Except StoreError (Option M6MessageStatus) :=
  if !validMessageId messageId then .error .delivery
  else .ok ((db.messages.select fun m => decide (m.messageId = messageId)).map fun m =>
    ⟨m.state.text, m.attempts.toNat⟩)

/-- Every message is counted once. -/
theorem m6QueueSummary_total (db : Db) :
    let summary := m6QueueSummary db
    summary.queued + summary.retryScheduled + summary.sending + summary.providerAccepted +
      summary.failed + summary.ambiguous = db.messages.rows.length := by
  simp only [m6QueueSummary, m6StateCount]
  induction db.messages.rows with
  | nil => rfl
  | cons m rows ih =>
    simp only [List.countP_cons, List.length_cons]
    cases m.state <;> simp only [reduceCtorEq, decide_true, decide_false, Bool.false_eq_true,
      if_true, if_false] <;> omega

end MsgRiver.Store
