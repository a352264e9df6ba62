import MsgRiver.Lib.Table
import Mathlib.Data.Vector.Basic

/-!
# The product store: data model and schema

The tables that the migrations v3 to v5 leave behind, with their CHECK constraints and unique
keys:

* `m3_messages`, the durable queue (`m2_messages` of v3, renamed and widened by v4);
* `m4_inbound_control`, the one-row inbound switch;
* `m4_inbound_receipts` and `m4_notify_rate_events`, the replay and rate accounting of v5.

A `TEXT` value is a `String`; the state column is an enumeration, because every statement writes
one of the six literals of its CHECK.  Times are `Int64`, as in the callers.
-/

namespace MsgRiver.Store

open RelTable

/-- The states of a queued message. -/
inductive MessageState
  | queued
  | sending
  | retryScheduled
  | providerAccepted
  | ambiguous
  | failed
  deriving DecidableEq, Repr

/-- A row of `m3_messages`. -/
structure Message where
  messageId : String
  idempotencyKey : String
  topic : String
  title : Option String
  body : String
  state : MessageState
  attempts : ℤ
  nextAttemptAtUnixMs : Option Int64
  providerAck : Option String
  lastError : Option String
  createdAtUnixMs : Int64
  updatedAtUnixMs : Int64
  driver : String
  destination : String
  payload : String
  deriving DecidableEq

/-- A row of `m4_inbound_receipts`. -/
structure InboundReceipt where
  providerMessageId : String
  sender : String
  verb : String
  acceptedAtUnixMs : Int64
  deriving DecidableEq

/-- A row of `m4_notify_rate_events`. -/
structure NotifyRateEvent where
  sender : String
  acceptedAtUnixMs : Int64
  deriving DecidableEq

/-- SQLite's `length` of a text: the characters before the first NUL. -/
def sqlLength (s : String) : ℕ := (s.toList.takeWhile (· ≠ '\x00')).length

/-- `n BETWEEN low AND high`. -/
def between (low high n : ℕ) : Bool := low ≤ n && n ≤ high

/-- The states in which a message waits for its next attempt. -/
def MessageState.waiting : MessageState → Bool
  | .queued | .retryScheduled => true
  | _ => false

/-- The states that carry an error text. -/
def MessageState.errored : MessageState → Bool
  | .ambiguous | .failed => true
  | _ => false

/-- The CHECK constraints of `m3_messages`. -/
def Message.check (m : Message) : Bool :=
  sqlLength m.messageId == 64 &&
  between 1 128 (sqlLength m.idempotencyKey) &&
  between 1 64 (sqlLength m.topic) &&
  between 1 4096 (sqlLength m.body) &&
  (0 ≤ m.attempts && m.attempts ≤ 5) &&
  (m.state.waiting == m.nextAttemptAtUnixMs.isSome) &&
  ((m.state == .providerAccepted) == m.providerAck.isSome) &&
  (m.state.errored == m.lastError.isSome) &&
  (m.driver == "ntfy" || m.driver == "whatsapp")

/-- `m3_messages`: primary key `message_id`, unique `idempotency_key`. -/
def messageSchema : Schema Message String where
  check := Message.check
  keys := [Message.messageId, Message.idempotencyKey]

/-- `m4_inbound_receipts`: primary key `provider_message_id`. -/
def receiptSchema : Schema InboundReceipt String where
  check r := r.verb == "notify" || r.verb == "status"
  keys := [InboundReceipt.providerMessageId]

/-- `m4_notify_rate_events`: no constraint beyond NOT NULL. -/
def rateEventSchema : Schema NotifyRateEvent String where
  check _ := true
  keys := []

/-- The tables behind one open connection.  `inboundControl` is the `enabled` column of the row
`singleton = 1`. -/
structure Db where
  messages : Table messageSchema
  inboundControl : Option Bool
  receipts : Table receiptSchema
  rateEvents : Table rateEventSchema

/-- The empty store after the product migrations: v5 inserts the switch, disabled. -/
def Db.migrated : Db := ⟨.empty, some false, .empty, .empty⟩

/-! ### Reading the constraints back -/

theorem messageId_mem_keys : Message.messageId ∈ messageSchema.keys := by
  simp [messageSchema]

theorem idempotencyKey_mem_keys : Message.idempotencyKey ∈ messageSchema.keys := by
  simp [messageSchema]

/-- An assignment that keeps both key columns keeps every key of the schema. -/
theorem messageSchema_keys_of {set : Message → Message}
    (hid : ∀ m, (set m).messageId = m.messageId)
    (hkey : ∀ m, (set m).idempotencyKey = m.idempotencyKey) :
    ∀ k ∈ messageSchema.keys, ∀ m, k (set m) = k m := by
  intro k hk m
  simp only [messageSchema, List.mem_cons, List.not_mem_nil, or_false] at hk
  rcases hk with rfl | rfl
  · exact hid m
  · exact hkey m

theorem providerMessageId_mem_keys :
    InboundReceipt.providerMessageId ∈ receiptSchema.keys := by
  simp [receiptSchema]

/-- The CHECK constraints as a proposition. -/
theorem Message.check_iff (m : Message) :
    m.check = true ↔
      sqlLength m.messageId = 64 ∧
      (1 ≤ sqlLength m.idempotencyKey ∧ sqlLength m.idempotencyKey ≤ 128) ∧
      (1 ≤ sqlLength m.topic ∧ sqlLength m.topic ≤ 64) ∧
      (1 ≤ sqlLength m.body ∧ sqlLength m.body ≤ 4096) ∧
      (0 ≤ m.attempts ∧ m.attempts ≤ 5) ∧
      m.state.waiting = m.nextAttemptAtUnixMs.isSome ∧
      (m.state == .providerAccepted) = m.providerAck.isSome ∧
      m.state.errored = m.lastError.isSome ∧
      (m.driver = "ntfy" ∨ m.driver = "whatsapp") := by
  simp only [Message.check, between, Bool.and_eq_true, beq_iff_eq, decide_eq_true_eq,
    Bool.or_eq_true, and_assoc]

theorem MessageState.of_waiting {s : MessageState} (h : s.waiting = true) :
    (s == .providerAccepted) = false ∧ s.errored = false := by
  cases s <;> first | exact ⟨rfl, rfl⟩ | cases h

theorem Db.check_of_mem {db : Db} {m : Message} (h : m ∈ db.messages.rows) : m.check = true :=
  db.messages.checked m h

end MsgRiver.Store
