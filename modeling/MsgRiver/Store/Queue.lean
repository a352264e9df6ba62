import MsgRiver.Lib.Ascii
import MsgRiver.Lib.Checked
import MsgRiver.Lib.Result
import MsgRiver.Store.Schema

/-!
# The product store: operations

The message operations of `Store` on an open connection, statement by statement.  An operation
answers with an `Except` and leaves a next database.  `transaction` is `Transaction::new_unchecked`
with a commit on every `Ok` path: an error drops the transaction, which rolls it back.  The
operations without a transaction run one autocommit statement, whose effect stays even when the
operation answers `Err` afterwards.

The digest behind `m2_message_id` and `m3_message_id` is the parameter `sha256`.
-/

namespace MsgRiver.Store

open RelTable Checked Result Ascii

/-- The error of the message operations, `StoreError::Delivery`. -/
inductive StoreError
  | delivery
  deriving DecidableEq, Repr

/-- A service submission for the configured ntfy topic. -/
structure M2Submission where
  idempotencyKey : String
  topic : String
  title : Option String
  body : String
  deriving DecidableEq

/-- A provider-neutral submission. -/
structure M3Submission where
  idempotencyKey : String
  driver : String
  destination : String
  payload : String
  deriving DecidableEq

/-- An authenticated inbound effect. -/
structure M4InboundSubmission where
  providerMessageId : String
  sender : String
  verb : String
  driver : String
  destination : String
  payload : String
  deriving DecidableEq

/-- The answer to an authenticated callback. -/
inductive M4InboundDisposition
  | accepted
  | disabled
  | replayed
  | rateLimited
  deriving DecidableEq, Repr

/-- The result of durable admission. -/
inductive M2Accepted
  | new (messageId : String)
  | existing (messageId : String)
  deriving DecidableEq, Repr

/-- A work item that crossed the sending boundary. -/
structure M2Delivery where
  messageId : String
  driver : String
  destination : String
  payload : String
  topic : String
  title : Option String
  body : String
  attempt : UInt8
  deriving DecidableEq

/-! ### Field checks -/

/-- A nonempty text of bounded length without a NUL. -/
def validText (value : String) (maximum : ℕ) : Bool :=
  !value.isEmpty && value.utf8ByteSize ≤ maximum && !value.toList.contains '\x00'

/-- A key of at most 128 letters, digits, hyphens, underscores and dots. -/
def validIdempotencyKey (value : String) : Bool :=
  validText value 128 &&
    (utf8Bytes value).all fun byte =>
      isAlphanumeric byte || byte == 0x2d || byte == 0x5f || byte == 0x2e

/-- The hexadecimal text of a digest. -/
def validMessageId (value : String) : Bool :=
  value.utf8ByteSize == 64 &&
    (utf8Bytes value).all fun byte => isDigit byte || (0x61 ≤ byte && byte ≤ 0x66)

/-- A topic of at most 64 letters, digits, hyphens and underscores. -/
def validTopic (value : String) : Bool :=
  validText value 64 &&
    (utf8Bytes value).all fun byte => isAlphanumeric byte || byte == 0x2d || byte == 0x5f

/-- A sender of seven to twenty digits. -/
def validPhoneSender (value : String) : Bool :=
  (7 ≤ value.utf8ByteSize && value.utf8ByteSize ≤ 20) && (utf8Bytes value).all isDigit

/-- A driver that the service has. -/
def validDriver (value : String) : Bool := value == "ntfy" || value == "whatsapp"

/-- A verb that inbound commands have. -/
def validVerb (value : String) : Bool := value == "notify" || value == "status"

/-- The checks on a submission of the first kind. -/
def validateM2Submission (submission : M2Submission) : Except StoreError Unit :=
  reject (!validIdempotencyKey submission.idempotencyKey
    || !validTopic submission.topic
    || !validText submission.body 4096
    || submission.title.any (fun title => !validText title 256 ||
        title.toList.any (fun c => c == '\r' || c == '\n'))) .delivery

/-! ### Message ids -/

/-- Eight big-endian bytes of a length. -/
def lengthPrefix (n : ℕ) : List UInt8 :=
  (List.range 8).map fun i => UInt8.ofNat (n >>> (56 - 8 * i))

/-- Each field with its length in front. -/
def digestInput (fields : List String) : List UInt8 :=
  fields.flatMap fun field => lengthPrefix field.utf8ByteSize ++ utf8Bytes field

/-- The digit for a value below sixteen. -/
def hexDigit (n : ℕ) : Char := "0123456789abcdef".toList.getD n '0'

/-- Bytes in lower case hexadecimal. -/
def digestToHex (bytes : List UInt8) : String :=
  String.ofList (bytes.flatMap fun byte => [hexDigit (byte.toNat / 16), hexDigit (byte.toNat % 16)])

section Operations

variable (sha256 : List UInt8 → List.Vector UInt8 32)

/-- The id of a submission of the first kind: a digest of its fields. -/
def m2MessageId (submission : M2Submission) : String :=
  digestToHex (sha256 (digestInput [submission.idempotencyKey, submission.topic,
    submission.title.getD "", submission.body])).toList

/-- The id of a submission with a driver. -/
def m3MessageId (submission : M3Submission) : String :=
  digestToHex (sha256 (digestInput [submission.idempotencyKey, submission.driver,
    submission.destination, submission.payload])).toList

/-! ### Transactions and single statements -/

/-- A transaction whose body commits when it answers `Ok` and is rolled back otherwise. -/
def transaction {α : Type} (body : Db → Except StoreError (α × Db)) (db : Db) :
    Except StoreError α × Db :=
  match body db with
  | .ok (a, db') => (.ok a, db')
  | .error e => (.error e, db)

/-- A row as the three intakes insert it: queued, never attempted, due at once. -/
def freshMessage (messageId idempotencyKey driver destination payload topic : String)
    (title : Option String) (body : String) (now : Int64) : Message where
  messageId := messageId
  idempotencyKey := idempotencyKey
  topic := topic
  title := title
  body := body
  state := .queued
  attempts := 0
  nextAttemptAtUnixMs := some now
  providerAck := none
  lastError := none
  createdAtUnixMs := now
  updatedAtUnixMs := now
  driver := driver
  destination := destination
  payload := payload

/-! ### Intake -/

/-- The row `m2_submit` inserts: the driver column keeps its default `'ntfy'`, the destination
copies the topic and the payload is empty. -/
def m2Message (submission : M2Submission) (now : Int64) : Message :=
  freshMessage (m2MessageId sha256 submission) submission.idempotencyKey "ntfy" submission.topic ""
    submission.topic submission.title submission.body now

/-- An ntfy submission: a key that is taken answers with the stored row. -/
def m2Submit (submission : M2Submission) (now : Int64) : Db → Except StoreError M2Accepted × Db :=
  transaction fun db => do
    validateM2Submission submission
    match db.messages.select (fun m => decide (m.idempotencyKey = submission.idempotencyKey)) with
    | some row =>
      if row.topic == submission.topic && row.title == submission.title
          && row.body == submission.body then
        return (.existing row.messageId, db)
      else throw .delivery
    | none =>
      let row := m2Message sha256 submission now
      let messages ← orError .delivery (db.messages.insert row)
      return (.new row.messageId, { db with messages := messages })

/-- The row `m3_submit` inserts: the positional `VALUES` list gives the topic column the driver
parameter `?3`. -/
def m3Message (submission : M3Submission) (now : Int64) : Message :=
  freshMessage (m3MessageId sha256 submission) submission.idempotencyKey submission.driver
    submission.destination submission.payload submission.driver none submission.payload now

/-- A submission for any driver. -/
def m3Submit (submission : M3Submission) (now : Int64) : Db → Except StoreError M2Accepted × Db :=
  transaction fun db => do
    reject (!validIdempotencyKey submission.idempotencyKey
      || !validDriver submission.driver
      || !validText submission.destination 256
      || !validText submission.payload 4096) .delivery
    match db.messages.select (fun m => decide (m.idempotencyKey = submission.idempotencyKey)) with
    | some row =>
      if row.driver == submission.driver && row.destination == submission.destination
          && row.payload == submission.payload then
        return (.existing row.messageId, db)
      else throw .delivery
    | none =>
      let row := m3Message sha256 submission now
      let messages ← orError .delivery (db.messages.insert row)
      return (.new row.messageId, { db with messages := messages })

/-- The switch of inbound commands. -/
def m4SetInboundEnabled (enabled : Bool) (db : Db) : Except StoreError Unit × Db :=
  match db.inboundControl with
  | some _ => (.ok (), { db with inboundControl := some enabled })
  | none => (.error .delivery, db)

/-- The key under which an inbound effect is queued. -/
def m4Key (providerMessageId : String) : String := "m4-" ++ providerMessageId

/-- The provider-neutral form of an inbound effect. -/
def M4InboundSubmission.toM3 (submission : M4InboundSubmission) : M3Submission where
  idempotencyKey := m4Key submission.providerMessageId
  driver := submission.driver
  destination := submission.destination
  payload := submission.payload

/-- The row `m4_submit_inbound` inserts: here the topic column is the destination `?4`. -/
def m4Message (submission : M4InboundSubmission) (now : Int64) : Message :=
  freshMessage (m3MessageId sha256 submission.toM3) (m4Key submission.providerMessageId)
    submission.driver submission.destination submission.payload submission.destination none
    submission.payload now

/-- The receipt of an accepted inbound command. -/
def m4Receipt (submission : M4InboundSubmission) (now : Int64) : InboundReceipt where
  providerMessageId := submission.providerMessageId
  sender := submission.sender
  verb := submission.verb
  acceptedAtUnixMs := now

/-- What counts an accepted `notify` against the limit of its sender. -/
def m4RateEvent (submission : M4InboundSubmission) (now : Int64) : NotifyRateEvent where
  sender := submission.sender
  acceptedAtUnixMs := now

/-- The checks in front of the inbound transaction. -/
def M4InboundSubmission.valid (submission : M4InboundSubmission) : Bool :=
  validIdempotencyKey submission.providerMessageId
    && validPhoneSender submission.sender
    && validVerb submission.verb
    && validDriver submission.driver
    && validText submission.destination 256
    && validText submission.payload 4096

/-- `SELECT COUNT(*) … WHERE sender = ?1 AND accepted_at_unix_ms > ?2`. -/
def rateCount (db : Db) (sender : String) (start : Int64) : ℕ :=
  db.rateEvents.rows.countP fun e =>
    e.sender == sender && decide (start.toInt < e.acceptedAtUnixMs.toInt)

/-- The rate check of a notify callback: `true` when the sender is over its rate. -/
def rateLimited (submission : M4InboundSubmission) (now : Int64) (db : Db) :
    Except StoreError Bool :=
  if submission.verb == "notify" then do
    let start ← orError .delivery (checkedSub now 600000)
    return 4 ≤ rateCount db submission.sender start
  else return false

/-- The rate event of a notify callback. -/
def recordRateEvent (submission : M4InboundSubmission) (now : Int64) (db : Db) :
    Except StoreError (Table rateEventSchema) :=
  if submission.verb == "notify" then
    orError .delivery (db.rateEvents.insert (m4RateEvent submission now))
  else .ok db.rateEvents

/-- The inserts of an accepted callback. -/
def admitInbound (submission : M4InboundSubmission) (now : Int64) (db : Db) :
    Except StoreError (M4InboundDisposition × Db) := do
  reject (!validIdempotencyKey (m4Key submission.providerMessageId)) .delivery
  let messages ← orError .delivery (db.messages.insert (m4Message sha256 submission now))
  let receipts ← orError .delivery (db.receipts.insert (m4Receipt submission now))
  let rateEvents ← recordRateEvent submission now db
  return (.accepted, { db with messages := messages, receipts := receipts, rateEvents := rateEvents })

/-- One inbound command: the switch, a receipt and the rate are looked at before anything is
written. -/
def m4SubmitInbound (submission : M4InboundSubmission) (now : Int64) :
    Db → Except StoreError M4InboundDisposition × Db :=
  transaction fun db => do
    reject (!submission.valid) .delivery
    let enabled ← orError .delivery db.inboundControl
    if !enabled then
      return (.disabled, db)
    else if (db.receipts.select fun r =>
        decide (r.providerMessageId = submission.providerMessageId)).isSome then
      return (.replayed, db)
    else do
      let limited ← rateLimited submission now db
      if limited then
        return (.rateLimited, db)
      else
        admitInbound sha256 submission now db

/-! ### Dispatch -/

/-- `state IN ('queued', 'retry_scheduled') AND next_attempt_at_unix_ms <= ?1`. -/
def Message.due (now : Int64) (m : Message) : Bool :=
  m.state.waiting && m.nextAttemptAtUnixMs.any fun t => decide (t.toInt ≤ now.toInt)

/-- `ORDER BY created_at_unix_ms, message_id`. -/
def Message.before (a b : Message) : Bool :=
  decide (a.createdAtUnixMs.toInt < b.createdAtUnixMs.toInt) ||
    (a.createdAtUnixMs == b.createdAtUnixMs && decide (a.messageId < b.messageId))

/-- The row `m2_claim_due` selects. -/
def dueCandidate (db : Db) (now : Int64) : Option Message :=
  firstBy Message.before (db.messages.rows.filter (Message.due now))

/-- The assignment of the claiming `UPDATE`. -/
def Message.claim (now : Int64) (m : Message) : Message :=
  { m with
    state := .sending
    attempts := m.attempts + 1
    nextAttemptAtUnixMs := none
    updatedAtUnixMs := now }

/-- `u8::try_from`. -/
def tryU8 (n : ℤ) : Option UInt8 :=
  if 0 ≤ n ∧ n ≤ 255 then some (UInt8.ofNat n.toNat) else none

/-- The work item of a claimed row. -/
def Message.delivery (m : Message) (attempt : UInt8) : M2Delivery where
  messageId := m.messageId
  driver := m.driver
  destination := m.destination
  payload := m.payload
  topic := m.topic
  title := m.title
  body := m.body
  attempt := attempt

/-- The next due message goes to `sending`, with one more attempt counted. -/
def m2ClaimDue (now : Int64) : Db → Except StoreError (Option M2Delivery) × Db :=
  transaction fun db =>
    match dueCandidate db now with
    | none => .ok (none, db)
    | some row => do
      let (messages, changed) ← orError .delivery (db.messages.update
        (fun m => decide (m.messageId = row.messageId) && m.state.waiting) (Message.claim now))
      reject (changed != 1) .delivery
      let attempt ← orError .delivery (tryU8 (row.attempts + 1))
      return (some (row.delivery attempt), { db with messages := messages })

/-- `message_id = ?1 AND state = …`. -/
def atState (messageId : String) (state : MessageState) (m : Message) : Bool :=
  decide (m.messageId = messageId) && m.state == state

/-- One autocommit `UPDATE` of a sending row: the statement runs first, then its row count is
compared with one. -/
def m2TransitionSending (messageId : String) (set : Message → Message) (db : Db) :
    Except StoreError Unit × Db :=
  match db.messages.update (atState messageId .sending) set with
  | none => (.error .delivery, db)
  | some (messages, changed) =>
    (if changed == 1 then .ok () else .error .delivery, { db with messages := messages })

/-- The three single-statement marks: a text check, then the transition. -/
def markSending (messageId text : String) (set : Message → Message) (db : Db) :
    Except StoreError Unit × Db :=
  if !validText text 256 then (.error .delivery, db)
  else m2TransitionSending messageId set db

/-- The provider has acknowledged the message. -/
def Message.accept (providerAck : String) (now : Int64) (m : Message) : Message :=
  { m with
    state := .providerAccepted
    providerAck := some providerAck
    updatedAtUnixMs := now }

/-- The settlement of an acknowledged attempt. -/
def m2MarkAccepted (messageId providerAck : String) (now : Int64) :
    Db → Except StoreError Unit × Db :=
  markSending messageId providerAck (Message.accept providerAck now)

/-- The error-recording assignment of `m2_mark_failed`, `m2_mark_ambiguous` and the exhausted
branch of `m2_mark_retry`. -/
def Message.giveUp (state : MessageState) (reason : String) (now : Int64) (m : Message) : Message :=
  { m with
    state := state
    lastError := some reason
    updatedAtUnixMs := now }

/-- The next attempt is scheduled. -/
def Message.schedule (next now : Int64) (m : Message) : Message :=
  { m with
    state := .retryScheduled
    nextAttemptAtUnixMs := some next
    lastError := none
    updatedAtUnixMs := now }

/-- The two `UPDATE`s of `m2_mark_retry`: the budget of five attempts is spent, or the next one is
scheduled. -/
def retryAssignment (attempts : ℤ) (reason : String) (delayMs : UInt32) (now : Int64) :
    Except StoreError (Message → Message) :=
  if 5 ≤ attempts then .ok (Message.giveUp .failed reason now)
  else do
    let next ← orError .delivery (ofInt? (now.toInt + delayMs.toNat))
    return Message.schedule next now

/-- The settlement of an attempt that is to be made again. -/
def m2MarkRetry (messageId reason : String) (delayMs : UInt32) (now : Int64) :
    Db → Except StoreError Unit × Db :=
  transaction fun db => do
    reject (!validText reason 256 || !(1000 ≤ delayMs.toNat && delayMs.toNat ≤ 3600000)) .delivery
    let row ← orError .delivery (db.messages.select (atState messageId .sending))
    let set ← retryAssignment row.attempts reason delayMs now
    let (messages, changed) ← orError .delivery (db.messages.update (atState messageId .sending) set)
    reject (changed != 1) .delivery
    return ((), { db with messages := messages })

/-- The settlement of an attempt that failed for good. -/
def m2MarkFailed (messageId reason : String) (now : Int64) : Db → Except StoreError Unit × Db :=
  markSending messageId reason (Message.giveUp .failed reason now)

/-- The settlement of an attempt that may have been delivered. -/
def m2MarkAmbiguous (messageId reason : String) (now : Int64) : Db → Except StoreError Unit × Db :=
  markSending messageId reason (Message.giveUp .ambiguous reason now)

/-- What a recovered row gives as its last error. -/
def interruptedError : String := "interrupted external delivery may have occurred"

/-- Every row that an earlier process left in `sending` becomes ambiguous. -/
def m2RecoverInterrupted (now : Int64) (db : Db) : Except StoreError ℕ × Db :=
  match db.messages.update (fun m => m.state == .sending)
      (Message.giveUp .ambiguous interruptedError now) with
  | none => (.error .delivery, db)
  | some (messages, changed) => (.ok changed, { db with messages := messages })

/-- The assignment of `m6_requeue_failed`. -/
def Message.requeue (now : Int64) (m : Message) : Message :=
  { m with
    state := .queued
    nextAttemptAtUnixMs := some now
    lastError := none
    updatedAtUnixMs := now }

/-- The retry of a failed message on request; the attempts stay counted. -/
def m6RequeueFailed (messageId : String) (now : Int64) :
    Db → Except StoreError (Option Bool) × Db :=
  transaction fun db => do
    reject (!validMessageId messageId) .delivery
    match db.messages.select (fun m => decide (m.messageId = messageId)) with
    | none => return (none, db)
    | some row =>
      if row.state != .failed then
        return (some false, db)
      else do
        let (messages, changed) ←
          orError .delivery (db.messages.update (atState messageId .failed) (Message.requeue now))
        reject (changed != 1) .delivery
        return (some true, { db with messages := messages })

end Operations

end MsgRiver.Store
