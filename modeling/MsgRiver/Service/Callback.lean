import Mathlib.Data.List.TakeWhile
import Mathlib.Data.Option.Basic
import MsgRiver.Lib.Json
import MsgRiver.Lib.Text
import MsgRiver.Store.Inbound
import MsgRiver.Store.Intent

/-!
# Callback intents and the key space of the queue

`parse_callback` reads the one message of a signed callback.  What it accepts, with a driver, a
destination and a payload of the configuration, is a `CallbackIntent`.

`m4_submit_inbound` queues the intent with provider id `id` under the key `m4-id`, in the column
that `m2_submit` and `m3_submit` fill with the keys of local clients.  It inserts without looking
the key up, so a genuine callback is refused exactly when its key, or its message id, is taken
(`inbound_accepted_iff`).  A local client can take the key in advance (`squatted_callback`).
-/

namespace MsgRiver.Service

open MsgRiver.Store RelTable Checked Result StepRun Ascii Text

/-! ### Reading a callback -/

/-- An identifier of bounded length: letters, digits, hyphens, underscores and dots. -/
def validIdentifier (value : String) (maximum : ℕ) : Bool :=
  !value.isEmpty && value.utf8ByteSize ≤ maximum &&
    (utf8Bytes value).all fun byte =>
      isAlphanumeric byte || byte == 0x2d || byte == 0x5f || byte == 0x2e

/-- The inbound part of the service configuration; a policy is a set of sender and verb pairs. -/
structure InboundConfig where
  appSecret : List UInt8
  verifyToken : List UInt8
  policy : List (String × String)
  ntfyTopic : String
  wabaId : String
  phoneId : String

/-- A callback as `parse_callback` hands it out: sender, message id and verb. -/
structure ParsedCallback where
  sender : String
  messageId : String
  verb : String
  deriving DecidableEq

/-- The member of an object, as a text. -/
def memberString (key : String) (value : Json.Value) : Option String :=
  (value.get key).bind Json.Value.asString

/-- The one element of the array under a key. -/
def memberSingle (key : String) (value : Json.Value) : Option Json.Value := do
  match ← (value.get key).bind Json.Value.asArray with
  | [item] => some item
  | _ => none

/-- The one message of a callback for the configured account and phone. -/
def callbackMessage (config : InboundConfig) (value : Json.Value) : Option Json.Value := do
  let entry ← memberSingle "entry" value
  guard ((← memberString "id" entry) = config.wabaId)
  let change ← memberSingle "changes" entry
  guard ((← memberString "field" change) = "messages")
  let item ← change.get "value"
  guard ((← (← item.get "metadata").get "phone_number_id").asString = some config.phoneId)
  memberSingle "messages" item

/-- `str::parse::<i64>`. -/
def parseInt64 (value : String) : Option Int64 := (parseSigned value.toList).bind ofInt?

/-- `nowMs` is the reading of the clock, when there is one. -/
def parseCallback (json : Json.Codec) (nowMs : Option Int64) (body : List UInt8)
    (config : InboundConfig) : Option ParsedCallback := do
  let value ← json.fromSlice body
  let message ← callbackMessage config value
  let sender ← memberString "from" message
  let messageId ← memberString "id" message
  let verb ← memberString "body" (← message.get "text")
  let timestamp ← parseInt64 (← memberString "timestamp" message)
  let now := (← nowMs).toInt.tdiv 1000
  guard ((now - timestamp.toInt).natAbs ≤ 600)
  guard (validPhoneSender sender = true ∧ validIdentifier messageId 120 = true ∧
    validVerb verb = true)
  return ⟨sender, messageId, verb⟩

/-- What a callback has to say: one entry of the configured account with one change of messages, for
the configured phone, with one message, that is no more than ten minutes away. -/
structure CallbackShape (config : InboundConfig) (nowMs : Int64) (value : Json.Value)
    (callback : ParsedCallback) : Prop where
  message : ∃ entry change item message,
    value.get "entry" = some (.array [entry]) ∧ entry.get "id" = some (.string config.wabaId) ∧
    entry.get "changes" = some (.array [change]) ∧
    change.get "field" = some (.string "messages") ∧ change.get "value" = some item ∧
    (∃ metadata, item.get "metadata" = some metadata ∧
      metadata.get "phone_number_id" = some (.string config.phoneId)) ∧
    item.get "messages" = some (.array [message]) ∧
    message.get "from" = some (.string callback.sender) ∧
    message.get "id" = some (.string callback.messageId) ∧
    (∃ text, message.get "text" = some text ∧ text.get "body" = some (.string callback.verb)) ∧
    ∃ stamp timestamp, message.get "timestamp" = some (.string stamp) ∧
      parseInt64 stamp = some timestamp ∧
      (nowMs.toInt.tdiv 1000 - timestamp.toInt).natAbs ≤ 600
  sender : validPhoneSender callback.sender = true
  identifier : validIdentifier callback.messageId 120 = true
  verb : validVerb callback.verb = true

theorem memberString_eq_some {key s : String} {value : Json.Value} :
    memberString key value = some s ↔ value.get key = some (.string s) := by
  simp [memberString, Option.bind_eq_some_iff, Json.Value.asString_eq_some]

theorem memberSingle_eq_some {key : String} {value item : Json.Value} :
    memberSingle key value = some item ↔ value.get key = some (.array [item]) := by
  unfold memberSingle
  cases value.get key with
  | none => simp
  | some member =>
    cases member with
    | array items =>
      match items with
      | [] => simp [Json.Value.asArray]
      | [_] => simp [Json.Value.asArray]
      | _ :: _ :: _ => simp [Json.Value.asArray]
    | _ => simp [Json.Value.asArray]

/-- **What `parse_callback` accepts.** -/
theorem parseCallback_shape {json : Json.Codec} {nowMs : Option Int64} {body : List UInt8}
    {config : InboundConfig} {callback : ParsedCallback}
    (h : parseCallback json nowMs body config = some callback) :
    ∃ now value, nowMs = some now ∧ json.fromSlice body = some value ∧
      CallbackShape config now value callback := by
  simp only [parseCallback, callbackMessage, Option.bind_eq_bind, Option.bind_eq_some_iff,
    Option.pure_def, Option.some.injEq, Option.guard_eq_some', memberSingle_eq_some,
    memberString_eq_some, Json.Value.asString_eq_some] at h
  obtain ⟨value, hvalue, message, ⟨entry, hentry, _, hid, _, rfl, change, hchange, _, hfield, _,
    rfl, item, hitem, metadata, hmetadata, phone, hphone, _, rfl, hmessage⟩, sender, hsender,
    messageId, hmessageId, text, htext, verb, hverb, stamp, hstamp, timestamp, htimestamp, now,
    hnow, _, htime, _, ⟨hsenderOk, hidOk, hverbOk⟩, rfl⟩ := h
  exact ⟨now, value, hnow, hvalue,
    { message := ⟨entry, change, item, message, hentry, hid, hchange, hfield, hitem,
        ⟨metadata, hmetadata, hphone⟩, hmessage, hsender, hmessageId, ⟨text, htext, hverb⟩,
        stamp, timestamp, hstamp, htimestamp, htime⟩
      sender := hsenderOk
      identifier := hidOk
      verb := hverbOk }⟩

/-- An inbound effect of an accepted callback: the fields of the callback, and a driver, destination
and payload that the store has columns for. -/
structure CallbackIntent (s : M4InboundSubmission) : Prop where
  identifier : validIdentifier s.providerMessageId 120 = true
  sender : validPhoneSender s.sender = true
  verb : validVerb s.verb = true
  driver : validDriver s.driver = true
  destination : validText s.destination 256 = true
  topicLength : s.destination.toList.length ≤ 64
  payload : validText s.payload 4096 = true

/-- The sender has fewer than four notify events in the last ten minutes. -/
def UnderRate (db : Db) (s : M4InboundSubmission) (now : Int64) : Prop :=
  s.verb = "notify" → eventCount db s.sender (laterThan (now.toInt - 600000)) < 4

/-- The key and the message id of the intent are free in the queue. -/
def FreeInQueue (sha256 : List UInt8 → List.Vector UInt8 32) (db : Db) (s : M4InboundSubmission) :
    Prop :=
  ∀ m ∈ db.messages.rows,
    m.idempotencyKey ≠ m4Key s.providerMessageId ∧ m.messageId ≠ m3MessageId sha256 s.toM3

/-! ### The columns of the queued row -/

theorem sqlLength_of_validText {value : String} {maximum : ℕ} (h : validText value maximum = true) :
    sqlLength value = value.toList.length ∧ 1 ≤ value.toList.length ∧
      value.toList.length ≤ maximum := by
  simp only [validText, Bool.and_eq_true, Bool.not_eq_true', decide_eq_true_eq,
    List.contains_eq_mem, decide_eq_false_iff_not] at h
  obtain ⟨⟨hne, hle⟩, hnul⟩ := h
  refine ⟨?_, ?_, (length_toList_le value).trans hle⟩
  · rw [sqlLength, List.takeWhile_eq_self_iff.2]
    intro c hc
    simp only [ne_eq, decide_not, Bool.not_eq_true', decide_eq_false_iff_not]
    rintro rfl
    exact hnul hc
  · rw [Nat.one_le_iff_ne_zero, ne_eq, List.length_eq_zero_iff, String.toList_eq_nil_iff]
    rintro rfl
    simp at hne

/-- The bytes of a key hold no NUL. -/
theorem notNul_of_keyBytes {value : String}
    (h : (utf8Bytes value).all (fun byte =>
      isAlphanumeric byte || byte == 0x2d || byte == 0x5f || byte == 0x2e) = true) :
    value.toList.contains '\x00' = false := by
  simp only [List.contains_eq_mem, decide_eq_false_iff_not]
  intro hmem
  have hzero := List.all_eq_true.1 h _ (mem_utf8Bytes_of_ascii hmem (by decide))
  revert hzero
  decide

/-- The bytes of an identifier are not NUL, so an identifier is a key, also with the inbound tag in
front of it. -/
theorem validIdempotencyKey_of_identifier {value : String}
    (h : validIdentifier value 120 = true) :
    validIdempotencyKey value = true ∧ validIdempotencyKey (m4Key value) = true := by
  simp only [validIdentifier, Bool.and_eq_true, Bool.not_eq_true', decide_eq_true_eq] at h
  obtain ⟨⟨hne, hle⟩, hbytes⟩ := h
  have htag : (utf8Bytes "m4-").all (fun byte =>
      isAlphanumeric byte || byte == 0x2d || byte == 0x5f || byte == 0x2e) = true := by decide
  have hkey : (utf8Bytes (m4Key value)).all (fun byte =>
      isAlphanumeric byte || byte == 0x2d || byte == 0x5f || byte == 0x2e) = true := by
    rw [m4Key, utf8Bytes_append, List.all_append, htag, hbytes]
    rfl
  constructor
  · simp only [validIdempotencyKey, validText, hne, notNul_of_keyBytes hbytes, hbytes,
      Bool.not_false,
      Bool.true_and, Bool.and_true, decide_eq_true_eq]
    omega
  · have hsize : (m4Key value).utf8ByteSize = 3 + value.utf8ByteSize := by
      rw [m4Key, String.utf8ByteSize_append]
      rfl
    have hne' : (m4Key value).isEmpty = false := by
      rw [String.isEmpty_eq_false_iff]
      intro h0
      rw [h0] at hsize
      simp at hsize
      omega
    simp only [validIdempotencyKey, validText, hne', notNul_of_keyBytes hkey, hkey, Bool.not_false,
      Bool.true_and, Bool.and_true, decide_eq_true_eq]
    omega

theorem CallbackIntent.valid {s : M4InboundSubmission} (h : CallbackIntent s) : s.valid = true := by
  simp only [M4InboundSubmission.valid, (validIdempotencyKey_of_identifier h.identifier).1,
    h.sender, h.verb, h.driver, h.destination, h.payload, Bool.and_self]

theorem hexDigit_ne_nul (n : ℕ) : hexDigit n ≠ '\x00' := by
  have hall : ∀ c ∈ "0123456789abcdef".toList, c ≠ '\x00' :=
    forall_mem_of_all (by decide)
  unfold hexDigit
  rw [List.getD_eq_getElem?_getD]
  cases hget : "0123456789abcdef".toList[n]? with
  | none => decide
  | some c => exact hall c (List.mem_of_getElem? hget)

/-- A message id has 64 digits. -/
theorem sqlLength_digestToHex (digest : List.Vector UInt8 32) :
    sqlLength (digestToHex digest.toList) = 64 := by
  unfold sqlLength digestToHex
  rw [String.toList_ofList, List.takeWhile_eq_self_iff.2, List.length_flatMap]
  · simp
  · intro c hc
    obtain ⟨byte, -, hc⟩ := List.mem_flatMap.1 hc
    simp only [List.mem_cons, List.not_mem_nil, or_false] at hc
    rcases hc with rfl | rfl <;> simp [hexDigit_ne_nul]

section Admission

variable {sha256 : List UInt8 → List.Vector UInt8 32} {db : Db} {s : M4InboundSubmission}

/-- The row of a callback intent meets every CHECK of the queue. -/
theorem CallbackIntent.check (h : CallbackIntent s) (now : Int64) :
    (m4Message sha256 s now).check = true := by
  have hkey := (validIdempotencyKey_of_identifier h.identifier).2
  simp only [validIdempotencyKey, Bool.and_eq_true] at hkey
  obtain ⟨hkeyLength, hkeyLow, hkeyHigh⟩ := sqlLength_of_validText hkey.1
  obtain ⟨htopicLength, htopicLow, -⟩ := sqlLength_of_validText h.destination
  obtain ⟨hbodyLength, hbodyLow, hbodyHigh⟩ := sqlLength_of_validText h.payload
  have hdriver := h.driver
  simp only [validDriver, Bool.or_eq_true, beq_iff_eq] at hdriver
  rw [Message.check_iff]
  refine ⟨sqlLength_digestToHex _, ⟨?_, ?_⟩, ⟨?_, ?_⟩, ⟨?_, ?_⟩,
    ⟨le_refl (0 : ℤ), show (0 : ℤ) ≤ 5 by decide⟩, rfl, rfl, rfl, hdriver⟩
  · exact hkeyLength ▸ hkeyLow
  · exact hkeyLength ▸ hkeyHigh
  · exact htopicLength ▸ htopicLow
  · exact htopicLength ▸ h.topicLength
  · exact hbodyLength ▸ hbodyLow
  · exact hbodyLength ▸ hbodyHigh

/-- The inserts of a fresh intent succeed exactly when the queue has room for its row. -/
theorem admitInbound_accepts_iff (h : CallbackIntent s) (now : Int64)
    (hfresh : ∀ r ∈ db.receipts.rows, r.providerMessageId ≠ s.providerMessageId) :
    (∃ db', admitInbound sha256 s now db = .ok (.accepted, db')) ↔ FreeInQueue sha256 db s := by
  have hkey := (validIdempotencyKey_of_identifier h.identifier).2
  have hrow : (∃ messages, db.messages.insert (m4Message sha256 s now) = some messages) ↔
      FreeInQueue sha256 db s := by
    rw [Table.exists_insert_iff]
    simp only [messageSchema, List.forall_mem_cons, List.not_mem_nil, List.mem_map, not_exists,
      not_and, FreeInQueue]
    constructor
    · rintro ⟨-, hid, hkeys, -⟩ m hm
      exact ⟨hkeys m hm, hid m hm⟩
    · intro hfree
      exact ⟨h.check now, fun m hm => (hfree m hm).2, fun m hm => (hfree m hm).1,
        fun _ hk => hk.elim⟩
  -- the intent is fresh, so the receipt and the rate event always find room
  have hreceipt : ∃ receipts, db.receipts.insert (m4Receipt s now) = some receipts := by
    rw [Table.exists_insert_iff]
    refine ⟨h.verb, ?_⟩
    intro k hk hmem
    obtain rfl := List.mem_singleton.1 hk
    obtain ⟨r, hr, heq⟩ := List.mem_map.1 hmem
    exact hfresh r hr heq
  have hrate : ∃ rateEvents, recordRateEvent s now db = .ok rateEvents := by
    unfold recordRateEvent
    split_ifs with hnotify
    · obtain ⟨rateEvents, hinsert⟩ : ∃ t, db.rateEvents.insert (m4RateEvent s now) = some t :=
        Table.exists_insert_iff.2 ⟨rfl, fun _ hk => absurd hk List.not_mem_nil⟩
      exact ⟨rateEvents, orError_eq_ok.2 hinsert⟩
    · exact ⟨_, rfl⟩
  obtain ⟨receipts, hreceipts⟩ := hreceipt
  obtain ⟨rateEvents, hevents⟩ := hrate
  rw [← hrow]
  constructor
  · rintro ⟨db', hok⟩
    obtain ⟨-, hok⟩ := reject_bind_eq_ok.1 hok
    obtain ⟨messages, hmessages, -⟩ := orError_bind_eq_ok.1 hok
    exact ⟨messages, hmessages⟩
  · rintro ⟨messages, hmessages⟩
    refine ⟨_, reject_bind_eq_ok.2 ⟨by simpa using hkey, orError_bind_eq_ok.2 ⟨messages, hmessages,
      orError_bind_eq_ok.2 ⟨receipts, hreceipts, bind_eq_ok.2 ⟨rateEvents, hevents, rfl⟩⟩⟩⟩⟩

/-- **The answer to a genuine callback.**  It is accepted when its row is free and, for a notify,
the start of the rate window is a 64-bit time; otherwise it is refused. -/
theorem m4SubmitInbound_genuine (h : CallbackIntent s) (now : Int64)
    (henabled : db.inboundControl = some true)
    (hfresh : ∀ r ∈ db.receipts.rows, r.providerMessageId ≠ s.providerMessageId)
    (hrate : UnderRate db s now) :
    ((m4SubmitInbound sha256 s now db).1 = .ok .accepted ↔
      FreeInQueue sha256 db s ∧ (s.verb = "notify" → -2 ^ 63 + 600000 ≤ now.toInt)) ∧
    ((m4SubmitInbound sha256 s now db).1 = .ok .accepted ∨
      (m4SubmitInbound sha256 s now db).1 = .error .delivery) := by
  rw [m4SubmitInbound_fresh h.valid henabled hfresh, ← admitInbound_accepts_iff h now hfresh]
  unfold transaction
  by_cases hlow : s.verb = "notify" ∧ now.toInt < -2 ^ 63 + 600000
  · -- the start of the window underflows before the queue is looked at
    simp only [rateLimited_notify hlow.1, if_pos hlow.2]
    refine ⟨⟨fun hok => ?_, fun hok => ?_⟩, Or.inr rfl⟩
    · cases hok
    · have := hok.2 hlow.1
      omega
  · have hunder : rateLimited s now db = .ok false := by
      by_cases hverb : s.verb = "notify"
      · have hge : ¬ now.toInt < -2 ^ 63 + 600000 := fun hlt => hlow ⟨hverb, hlt⟩
        rw [rateLimited_notify hverb, if_neg hge]
        simpa using hrate hverb
      · unfold rateLimited
        rw [if_neg (by simpa using hverb)]
        rfl
    have htime : s.verb = "notify" → -2 ^ 63 + 600000 ≤ now.toInt := by
      intro hverb
      by_contra hlt
      exact hlow ⟨hverb, by omega⟩
    rw [and_iff_left htime]
    simp only [hunder]
    cases hadmitted : admitInbound sha256 s now db with
    | error e =>
      cases e
      exact ⟨⟨fun hok => (by cases hok), fun ⟨_, hok⟩ => (by cases hok)⟩, Or.inr rfl⟩
    | ok p =>
      obtain ⟨d, db'⟩ := p
      obtain rfl := (admitInbound_eq_ok hadmitted).1
      exact ⟨⟨fun _ => ⟨db', rfl⟩, fun _ => rfl⟩, Or.inl rfl⟩

end Admission

/-! ### Runs -/

/-- The submission that a call makes to the queue. -/
def intakeOf : Call → Option Intake
  | .m2Submit s _ => some (.m2 s)
  | .m3Submit s _ => some (.m3 s)
  | .m4SubmitInbound s _ => some (.m4 s)
  | _ => none

/-- The message id of a submission. -/
def intakeId (sha256 : List UInt8 → List.Vector UInt8 32) : Intake → String
  | .m2 s => m2MessageId sha256 s
  | .m3 s => m3MessageId sha256 s
  | .m4 s => m3MessageId sha256 s.toM3

/-- The call stays out of the way of the intent: a local submission is not made under its key, and
no submission under another key has the digest of the intent. -/
def KeepsClear (sha256 : List UInt8 → List.Vector UInt8 32) (s : M4InboundSubmission) (c : Call) :
    Prop :=
  (∀ i, c.submitted = some i → i.key ≠ m4Key s.providerMessageId) ∧
  (∀ i, intakeOf c = some i → i.key ≠ m4Key s.providerMessageId →
    intakeId sha256 i ≠ m3MessageId sha256 s.toM3)

theorem m4Key_injective {a b : String} (h : m4Key a = m4Key b) : a = b := by
  have hlist := congrArg String.toList h
  simp only [m4Key, String.toList_append, List.append_cancel_left_eq] at hlist
  exact String.toList_injective hlist

section Runs

variable {sha256 : List UInt8 → List.Vector UInt8 32}

/-- An admission is that of the submission its call makes. -/
theorem intakeOf_admission {e : StoreEvent} {p : Intake × Int64} (h : admission e = some p) :
    intakeOf e.call = some p.1 := by
  unfold admission at h
  split at h <;> cases h <;> rename_i hcall _ <;> rw [hcall] <;> rfl

/-- An admitted callback has left its receipt. -/
theorem receipt_of_admitted {calls : List Call} {s : M4InboundSubmission} {now : Int64}
    (h : (Intake.m4 s, now) ∈ admissions (events (step sha256) Db.migrated calls)) :
    m4Receipt s now ∈ (run (step sha256) Db.migrated calls).receipts.rows := by
  obtain ⟨e, he, hadmission⟩ := List.mem_filterMap.1 h
  have haccepted : acceptedCallback e = some (s, now) := by
    rw [acceptedCallback_eq_some]
    unfold admission at hadmission
    split at hadmission <;> cases hadmission
    rename_i hreply hcall
    exact ⟨hcall, hreply⟩
  rw [(inbound_tables_run sha256 Db.migrated calls).1]
  exact List.mem_append_right _ (List.mem_map_of_mem (f := fun p => m4Receipt p.1 p.2)
    (List.mem_filterMap.2 ⟨e, he, haccepted⟩))

/-- In a run that keeps clear of the intent its row is free, until its receipt is there. -/
theorem freeInQueue_run {calls : List Call} {s : M4InboundSubmission}
    (hclear : ∀ c ∈ calls, KeepsClear sha256 s c)
    (hfresh : ∀ r ∈ (run (step sha256) Db.migrated calls).receipts.rows,
      r.providerMessageId ≠ s.providerMessageId) :
    FreeInQueue sha256 (run (step sha256) Db.migrated calls) s := by
  intro m hm
  obtain ⟨⟨i, now⟩, hp, hid⟩ := admitted_of_row hm
  obtain ⟨e, he, hadmission⟩ := List.mem_filterMap.1 hp
  have hintake := intakeOf_admission hadmission
  obtain ⟨pre, c, post, rfl, rfl⟩ := mem_events_iff.1 he
  obtain ⟨hlocal, hdigest⟩ := hclear c (by simp)
  have hkey : i.key ≠ m4Key s.providerMessageId := by
    cases i with
    | m2 t =>
      apply hlocal
      cases c <;> cases hintake
      rfl
    | m3 t =>
      apply hlocal
      cases c <;> cases hintake
      rfl
    | m4 t =>
      intro heq
      exact hfresh _ (receipt_of_admitted hp) (m4Key_injective heq)
  have hrowId : (i.row sha256 now).messageId = intakeId sha256 i := by
    cases i <;> rfl
  rw [← key_of_identity hid, i.row_key, ← show (i.row sha256 now).messageId = m.messageId from
    congrArg Prod.fst hid, hrowId]
  exact ⟨hkey, hdigest i hintake hkey⟩

end Runs

/-- **Genuine callbacks in every reachable state.**  A callback intent that is enabled, without a
receipt and under its rate is accepted exactly when no row of the queue has its key or its message
id (and, for a notify, the start of the rate window is a 64-bit time); otherwise it is refused.  In
a run whose calls keep clear of the intent, no row has. -/
theorem inbound_accepted_iff (sha256 : List UInt8 → List.Vector UInt8 32) (calls : List Call)
    (s : M4InboundSubmission) (now : Int64) (hintent : CallbackIntent s)
    (henabled : (run (step sha256) Db.migrated calls).inboundControl = some true)
    (hfresh : ∀ r ∈ (run (step sha256) Db.migrated calls).receipts.rows,
      r.providerMessageId ≠ s.providerMessageId)
    (hrate : UnderRate (run (step sha256) Db.migrated calls) s now) :
    let db := run (step sha256) Db.migrated calls
    let reply := (m4SubmitInbound sha256 s now db).1
    (reply = .ok .accepted ↔
      FreeInQueue sha256 db s ∧ (s.verb = "notify" → -2 ^ 63 + 600000 ≤ now.toInt)) ∧
    (reply = .ok .accepted ∨ reply = .error .delivery) ∧
    ((∀ c ∈ calls, KeepsClear sha256 s c) → (s.verb = "notify" → -2 ^ 63 + 600000 ≤ now.toInt) →
      reply = .ok .accepted) := by
  intro db reply
  obtain ⟨hiff, hanswers⟩ := @m4SubmitInbound_genuine sha256 db s hintent now henabled hfresh hrate
  refine ⟨hiff, hanswers, ?_⟩
  intro hclear htime
  exact hiff.2 ⟨freeInQueue_run hclear hfresh, htime⟩

/-! ### A local client in front of a callback -/

/-- A notice under a key of its own. -/
def plainNotice : M2Submission := ⟨"job-7", "alerts", none, "disk full"⟩

/-- The same notice under the key of the callback `w1`. -/
def squattingNotice : M2Submission := ⟨"m4-w1", "alerts", none, "disk full"⟩

theorem callbackIntent_page : CallbackIntent (pageOnCall "w1") where
  identifier := by decide
  sender := by decide
  verb := by decide
  driver := by decide
  destination := by decide
  topicLength := by decide
  payload := by decide

/-- The store after one local notice, with the switch enabled. -/
def afterNotice (notice : M2Submission) : List Call :=
  [.m2Submit notice 0, .m4SetInboundEnabled true]

/-- After a notice under its own key the callback is accepted. -/
theorem inbound_accepted_after_plainNotice :
    (m4SubmitInbound Sha256.sha256 (pageOnCall "w1") 1000
      (run (step Sha256.sha256) Db.migrated (afterNotice plainNotice))).1 = .ok .accepted := by
  have hstate : let db := run (step Sha256.sha256) Db.migrated (afterNotice plainNotice)
      db.inboundControl = some true ∧
      (∀ r ∈ db.receipts.rows, r.providerMessageId ≠ "w1") ∧
      eventCount db "15550001111" (laterThan (1000 - 600000)) < 4 ∧
      m2MessageId Sha256.sha256 plainNotice ≠ m3MessageId Sha256.sha256 (pageOnCall "w1").toM3 := by
    decide +kernel
  obtain ⟨henabled, hfresh, hrate, hdigest⟩ := hstate
  refine (inbound_accepted_iff Sha256.sha256 (afterNotice plainNotice) (pageOnCall "w1") 1000
    callbackIntent_page henabled hfresh (fun _ => hrate)).2.2 ?_ (fun _ => by decide)
  intro c hc
  simp only [afterNotice, List.mem_cons, List.not_mem_nil, or_false] at hc
  rcases hc with rfl | rfl
  · refine ⟨?_, ?_⟩
    · rintro i ⟨⟩
      decide
    · rintro i ⟨⟩ -
      exact hdigest
  · refine ⟨?_, ?_⟩
    · rintro i ⟨⟩
    · rintro i ⟨⟩

/-- After the notice under the key `m4-w1` the genuine callback `w1` is refused. -/
theorem squatted_callback :
    ¬ ∀ (calls : List Call) (s : M4InboundSubmission) (now : Int64),
      let db := run (step Sha256.sha256) Db.migrated calls
      CallbackIntent s → db.inboundControl = some true →
      (∀ r ∈ db.receipts.rows, r.providerMessageId ≠ s.providerMessageId) →
      UnderRate db s now → (m4SubmitInbound Sha256.sha256 s now db).1 = .ok .accepted := by
  intro h
  have hstate : let db := run (step Sha256.sha256) Db.migrated (afterNotice squattingNotice)
      db.inboundControl = some true ∧
      (∀ r ∈ db.receipts.rows, r.providerMessageId ≠ "w1") ∧
      eventCount db "15550001111" (laterThan (1000 - 600000)) < 4 ∧
      (m4SubmitInbound Sha256.sha256 (pageOnCall "w1") 1000 db).1 = .error .delivery := by
    decide +kernel
  obtain ⟨henabled, hfresh, hrate, hrefused⟩ := hstate
  have haccepted := h (afterNotice squattingNotice) (pageOnCall "w1") 1000 callbackIntent_page
    henabled hfresh (fun _ => hrate)
  rw [hrefused] at haccepted
  cases haccepted

end MsgRiver.Service
