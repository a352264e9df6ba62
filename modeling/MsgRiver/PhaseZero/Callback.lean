import MsgRiver.Lib.Bytes
import MsgRiver.Lib.Netstring
import MsgRiver.PhaseZero.JsonParser

/-!
# The callback of the reference loop

`handleCallback` checks a provider's request and its signature, reads the candidates that it reports
(messages and statuses) and hands them to `handleCandidates`, which adds to the durable state what
the new ones yield and proposes the whole to the runtime.

* `DurableState`: what a callback reads and replaces;
* `admittedCandidates`: the checks on the request, up to its candidates;
* `acceptAll`: the candidates that are not duplicates, with their keys;
* `evidences`: what each of them adds.

The keyed digest is a parameter, and so is what the runtime does with a proposal.
-/

namespace MsgRiver.PhaseZero

open Ascii Result
open Bytes (ByteVec toVec?)
open Netstring (netstring)

/-! ### Durable state -/

/-- Where the runtime stopped. -/
inductive RuntimeStop
  | beforeCommit
  | afterReceiptInsert
  | afterCommitBeforeAck
  | beforeDispatchLease
  | afterDispatchSend
  deriving DecidableEq

/-- How a call of the runtime fails. -/
inductive RuntimeError
  | stop (stop : RuntimeStop)
  | revisionConflict
  | alertUnavailable
  | invalidFixture
  deriving DecidableEq

/-- One of the three prefixes, and digits behind it. -/
def isSafeReference (value : String) : Bool :=
  ["event-", "inbound-", "provider-message-"].any fun front =>
    front.toList.isPrefixOf value.toList && !(value.toList.drop front.length).isEmpty &&
      (value.toList.drop front.length).all Char.isDigit

/-- A reference without sensitive data. -/
structure SafeReference where
  value : String
  safe : isSafeReference value = true
  deriving DecidableEq

/-- A text that is no safe reference is refused. -/
def SafeReference.parse (value : String) : Except RuntimeError SafeReference :=
  if h : isSafeReference value = true then .ok ⟨value, h⟩ else .error .invalidFixture

/-- What a callback reports. -/
inductive CandidateKind
  | inboundMessage
  | outboundStatus
  deriving DecidableEq

/-- A candidate that was accepted.  The key stands for what the provider sent. -/
structure Receipt where
  callbackKey : ByteVec 32
  senderGeneration : UInt64
  kind : CandidateKind
  receivedAt : ℤ
  deriving DecidableEq

/-- A message of ours that the provider has given an identity. -/
structure ProviderBinding where
  senderGeneration : UInt64
  providerMessageId : SafeReference
  deriving DecidableEq

/-- The kinds of the events. -/
inductive EventKind
  | matchedReply
  | unmatchedReply
  | statusSent
  | statusDelivered
  | statusRead
  | statusFailed
  | retentionDisposition
  | serviceWindowDisposition
  | outboundOutcome
  deriving DecidableEq

/-- An event, which names what it is about by a reference alone. -/
structure EvidenceEvent where
  kind : EventKind
  reference : SafeReference
  senderGeneration : UInt64
  providerOccurredAt : Option ℤ
  receiptOrder : UInt64
  deriving DecidableEq

/-- An alert that is to be sent, with the lease under which a worker sends it. -/
structure AlertIntent where
  eventReference : SafeReference
  isMatched : Bool
  safeTimestamp : ℤ
  leased : Bool
  leaseFence : UInt64
  leaseExpiresAt : Option ℤ
  dispatchAttempts : UInt32
  delivered : Bool
  ambiguousDispatch : Bool
  deriving DecidableEq

/-- The key of a candidate that must not be accepted again. -/
structure Tombstone where
  callbackKey : ByteVec 32
  senderGeneration : UInt64
  keyGeneration : UInt64
  deriving DecidableEq

/-- How a provider failed. -/
inductive ProviderOutcomeClass
  | permanent
  | authOrConfig
  | rateLimited
  | transient
  | ambiguous
  deriving DecidableEq

/-- What is known of an earlier attempt. -/
inductive V1Fact
  | providerAccepted (attempts : UInt32) (uncertain : Bool)
  | providerOutcome (outcome : ProviderOutcomeClass) (attempts : UInt32) (uncertain : Bool)
  deriving DecidableEq

/-- The durable state, as far as callbacks read and change it. -/
structure DurableState where
  receipts : List Receipt := []
  bindings : List ProviderBinding := []
  events : List EvidenceEvent := []
  outbox : List AlertIntent := []
  tombstones : List Tombstone := []
  v1History : List V1Fact := []
  revision : UInt64 := 0
  deriving DecidableEq

/-- `saturating_add(1)` on what fits into 64 bits. -/
def saturatingSucc (n : ℕ) : UInt64 := UInt64.ofNat (min (n + 1) (UInt64.size - 1))

namespace Callback

/-! ### Requests -/

/-- A header of a request or a response. -/
structure Header where
  name : List UInt8
  value : List UInt8
  deriving DecidableEq

/-- A parameter of the query. -/
structure QueryParameter where
  name : List UInt8
  value : List UInt8
  deriving DecidableEq

/-- A request of the provider. -/
structure CallbackIngress where
  method : List UInt8
  query : List QueryParameter
  headers : List Header
  rawBody : List UInt8
  elapsedMillis : UInt64
  deriving DecidableEq

/-- A key that candidates are recognized by. -/
structure DedupKeyGeneration where
  generation : UInt64
  material : ByteVec 32
  deriving DecidableEq

/-- What a callback reads of the configuration. -/
structure ReferenceLoopConfiguration where
  appSecret : ByteVec 32
  activeDedupKeyGeneration : UInt64
  retainedDedupKeys : List DedupKeyGeneration
  senderGeneration : UInt64
  wabaId : List UInt8
  phoneNumberId : List UInt8
  deriving DecidableEq

/-- A callback request, with the time of its receipt. -/
structure ReferenceLoopRequest where
  configuration : ReferenceLoopConfiguration
  receivedAt : ℤ
  deriving DecidableEq

/-- What the provider is answered. -/
structure ReferenceLoopResponse where
  status : ℕ
  headers : List Header
  body : List UInt8
  deriving DecidableEq

/-- A response without a body. -/
def emptyResponse (status : ℕ) : ReferenceLoopResponse := ⟨status, [], []⟩

/-- What a call returns. -/
abbrev Reply := Except RuntimeError ReferenceLoopResponse

/-- A message or a status that a callback reports. -/
inductive CallbackCandidate
  | message (id : String) (context : Option String) (occurredAt : ℤ)
  | status (id status recipient : String) (occurredAt : ℤ)
  deriving DecidableEq

/-! ### Reading the candidates -/

/-- The members of an object. -/
def object : JsonValue → Except Unit (List (List Char × JsonValue))
  | .object members => .ok members
  | _ => .error ()

/-- The values of an array. -/
def array : JsonValue → Except Unit (List JsonValue)
  | .array values => .ok values
  | _ => .error ()

/-- The text of a string. -/
def string : JsonValue → Except Unit (List Char)
  | .string text => .ok text
  | _ => .error ()

/-- One turn of the loop of `object_member`. -/
def foundMember (name : String) (found : Option JsonValue) (p : List Char × JsonValue) :
    Except Unit (Option JsonValue) :=
  if p.1 = name.toList then (if found.isSome then .error () else .ok (some p.2)) else .ok found

/-- `object_member`: a member that stands twice is refused. -/
def objectMember (members : List (List Char × JsonValue)) (name : String) :
    Except Unit (Option JsonValue) :=
  members.foldlM (foundMember name) none

/-- `object_member(object, name)?.ok_or(())?`. -/
def member (members : List (List Char × JsonValue)) (name : String) : Except Unit JsonValue := do
  orError () (← objectMember members name)

/-- The bytes of a text. -/
def bytesOf (text : List Char) : List UInt8 := utf8Bytes (String.ofList text)

/-- `u8::is_ascii_graphic`. -/
def isAsciiGraphic (b : UInt8) : Bool := 0x21 ≤ b && b ≤ 0x7e

/-- An identifier of the provider: 1 to 512 visible bytes. -/
def validReferenceScalar (value : List Char) : Bool :=
  !value.isEmpty && (bytesOf value).length ≤ 512 &&
    (bytesOf value).all fun b => isAsciiGraphic b && !JsonParser.isAsciiWhitespace b

/-- 1 to 32 digits. -/
def validDigits (value : List Char) : Bool :=
  !value.isEmpty && (bytesOf value).length ≤ 32 && (bytesOf value).all JsonParser.isAsciiDigit

/-- A text of 1 to 4096 bytes without control bytes other than tab and newline. -/
def validTextBody (value : List Char) : Bool :=
  !value.isEmpty && (bytesOf value).length ≤ 4096 &&
    (bytesOf value).all fun b => 0x20 ≤ b || b == 0x0a || b == 0x09

/-- Seconds between the years 2000 and 2100. -/
def parseTimestamp (value : List Char) : Except Unit ℤ := do
  reject (value.isEmpty || !(bytesOf value).all JsonParser.isAsciiDigit) ()
  let timestamp ← orError () (Text.parseUnsigned (2 ^ 63 - 1) value)
  reject (!(946684800 ≤ timestamp && timestamp ≤ 4102444800)) ()
  return timestamp

/-- The identifier of the message that is replied to. -/
def contextOf : Option JsonValue → Except Unit (Option String)
  | none => .ok none
  | some context => do
    let id ← string (← member (← object context) "id")
    reject (!validReferenceScalar id) ()
    return some (String.ofList id)

/-- `normalize_message`; only texts are accepted. -/
def normalizeMessage (value : JsonValue) : Except Unit CallbackCandidate := do
  let value ← object value
  let id ← string (← member value "id")
  let sender ← string (← member value "from")
  let timestamp ← string (← member value "timestamp")
  reject (!validReferenceScalar id || !validDigits sender) ()
  let type ← string (← member value "type")
  reject (type != "text".toList) ()
  let text ← object (← member value "text")
  let body ← string (← member text "body")
  reject (!validTextBody body) ()
  let context ← contextOf (← objectMember value "context")
  return .message (String.ofList id) context (← parseTimestamp timestamp)

/-- `normalize_status`. -/
def normalizeStatus (value : JsonValue) : Except Unit CallbackCandidate := do
  let value ← object value
  let id ← string (← member value "id")
  let recipient ← string (← member value "recipient_id")
  let status ← string (← member value "status")
  let timestamp ← string (← member value "timestamp")
  reject (!validReferenceScalar id || !validDigits recipient ||
    !(["sent", "delivered", "read", "failed"].any fun name => name.toList == status)) ()
  return .status (String.ofList id) (String.ofList status) (String.ofList recipient)
    (← parseTimestamp timestamp)

/-- An array of candidates of one kind. -/
def normalizeMany (normalize : JsonValue → Except Unit CallbackCandidate) (value : JsonValue) :
    Except Unit (List CallbackCandidate) := do
  let values ← array value
  reject (values.isEmpty || 64 < values.length) ()
  values.mapM normalize

/-- Either messages or statuses. -/
def normalizeEither : Option JsonValue → Option JsonValue → Except Unit (List CallbackCandidate)
  | some messages, none => normalizeMany normalizeMessage messages
  | none, some statuses => normalizeMany normalizeStatus statuses
  | _, _ => .error ()

/-- A change reports messages or statuses of the phone that is configured. -/
def normalizeChange (configuration : ReferenceLoopConfiguration) (change : JsonValue) :
    Except Unit (List CallbackCandidate) := do
  let change ← object change
  let field ← string (← member change "field")
  reject (field != "messages".toList) ()
  let value ← object (← member change "value")
  let product ← string (← member value "messaging_product")
  reject (product != "whatsapp".toList) ()
  let metadata ← object (← member value "metadata")
  let phoneNumberId ← string (← member metadata "phone_number_id")
  reject (bytesOf phoneNumberId != configuration.phoneNumberId) ()
  let messages ← objectMember value "messages"
  let statuses ← objectMember value "statuses"
  normalizeEither messages statuses

/-- An entry of the account that is configured. -/
def normalizeEntry (configuration : ReferenceLoopConfiguration) (entry : JsonValue) :
    Except Unit (List CallbackCandidate) := do
  let entry ← object entry
  let id ← string (← member entry "id")
  reject (bytesOf id != configuration.wabaId) ()
  let changes ← array (← member entry "changes")
  reject (changes.isEmpty || 32 < changes.length) ()
  return (← changes.mapM (normalizeChange configuration)).flatten

/-- `normalize_callback`: the candidates of all entries, in their order. -/
def normalizeCallback (document : JsonValue) (configuration : ReferenceLoopConfiguration) :
    Except Unit (List CallbackCandidate) := do
  let root ← object document
  let kind ← string (← member root "object")
  reject (kind != "whatsapp_business_account".toList) ()
  let entries ← array (← member root "entry")
  reject (entries.isEmpty || 32 < entries.length) ()
  return (← entries.mapM (normalizeEntry configuration)).flatten

/-! ### Admission -/

/-- `u8::to_ascii_lowercase`. -/
def toAsciiLowercase (b : UInt8) : UInt8 := if isUppercase b then b + 0x20 else b

/-- `eq_ignore_ascii_case` on bytes. -/
def eqIgnoreAsciiCase (a b : List UInt8) : Bool :=
  a.map toAsciiLowercase == b.map toAsciiLowercase

/-- `is_ascii` on bytes. -/
def isAscii (bytes : List UInt8) : Bool := bytes.all fun b => b < 0x80

/-- One turn of the loop over the headers: the content type and the signature found so far. -/
def readHeader (found : Option (List UInt8) × Option (List UInt8)) (header : Header) :
    Except ReferenceLoopResponse (Option (List UInt8) × Option (List UInt8)) :=
  if !isAscii header.name || !isAscii header.value then .error (emptyResponse 400)
  else if eqIgnoreAsciiCase header.name (utf8Bytes "content-type") then
    (if found.1.isSome then .error (emptyResponse 400) else .ok (some header.value, found.2))
  else if eqIgnoreAsciiCase header.name (utf8Bytes "x-hub-signature-256") then
    (if found.2.isSome then .error (emptyResponse 401) else .ok (found.1, some header.value))
  else .ok found

/-- What may stand behind `application/json`. -/
def validParameters : List (List Char) → Bool
  | [] => true
  | [parameter] => Text.eqIgnoreAsciiCase parameter "charset=utf-8".toList
  | _ :: _ :: _ => false

/-- The media type, and what stands behind semicolons. -/
def validPieces : List (List Char) → Bool
  | [] => false
  | media :: parameters =>
    Text.eqIgnoreAsciiCase media "application/json".toList && validParameters parameters

/-- JSON, with no other charset than UTF-8. -/
def validContentType (value : List UInt8) : Bool :=
  match Text.decodeUtf8 value with
  | none => false
  | some text => validPieces ((Text.splitOn (· == ';') text).map Text.trim)

/-- Pairs of hexadecimal digits. -/
def decodePairs : List Char → Option (List UInt8)
  | [] => some []
  | [_] => none
  | high :: low :: digits => do
    let b := UInt8.ofNat ((← Text.hexValue high) * 16 + (← Text.hexValue low))
    return b :: (← decodePairs digits)

/-- A digit of a digest. -/
def isLowerHex (c : Char) : Bool := c.isDigit || ('a' ≤ c && c ≤ 'f')

/-- `strip_prefix("sha256=")`. -/
def stripSha256 (text : List Char) : Option (List Char) :=
  if "sha256=".toList.isPrefixOf text then some (text.drop 7) else none

/-- The 32 bytes of a digest in lower case. -/
def decodeDigest (digest : List Char) : Option (ByteVec 32) :=
  if (bytesOf digest).length = 64 ∧ digest.all isLowerHex then (decodePairs digest).bind (toVec? 32)
  else none

/-- The digest of a signature header. -/
def decodeSignature (value : List UInt8) : Option (ByteVec 32) := do
  let text ← Text.decodeUtf8 value
  decodeDigest (← stripSha256 text)

/-- `constant_time_equal`: all bytes are compared. -/
def constantTimeEqual (left right : List UInt8) : Bool :=
  left.length == right.length &&
    ((left.zip right).foldl (fun difference p => difference ||| (p.1 ^^^ p.2)) 0 : UInt8) == 0

/-- The candidates of a body. -/
def readBody (configuration : ReferenceLoopConfiguration) (body : List UInt8) :
    Except ReferenceLoopResponse (List CallbackCandidate) := do
  let document ← (JsonParser.parse body).mapError fun _ => emptyResponse 400
  (normalizeCallback document configuration).mapError fun _ => emptyResponse 400

section Digest

-- `hmac_sha256`
variable (hmac : List UInt8 → List UInt8 → ByteVec 32)

/-- What `handle_callback` checks, up to the candidates. -/
def admittedCandidates (request : ReferenceLoopRequest) (ingress : CallbackIngress) :
    Except ReferenceLoopResponse (List CallbackCandidate) := do
  reject (ingress.method != utf8Bytes "POST" || !ingress.query.isEmpty) (emptyResponse 400)
  reject (262144 < ingress.rawBody.length) (emptyResponse 413)
  reject (5000 < ingress.elapsedMillis) (emptyResponse 408)
  let found ← ingress.headers.foldlM readHeader (none, none)
  reject (!found.1.any validContentType) (emptyResponse 400)
  let signature ← orError (emptyResponse 401) found.2
  let actual ← orError (emptyResponse 401) (decodeSignature signature)
  let expected := hmac request.configuration.appSecret.toList ingress.rawBody
  reject (!constantTimeEqual actual.toList expected.toList) (emptyResponse 401)
  readBody request.configuration ingress.rawBody

/-! ### Keys -/

/-- The text that a key is a digest of. -/
def wac1 (fields : List (List UInt8)) : List UInt8 := utf8Bytes "WAC1" ++ fields.flatMap netstring

/-- The fields that a key is made of. -/
def CallbackCandidate.fields (configuration : ReferenceLoopConfiguration) :
    CallbackCandidate → List (List UInt8)
  | .message id _ _ => [utf8Bytes "message", utf8Bytes "7", configuration.wabaId,
      configuration.phoneNumberId, utf8Bytes id]
  | .status id kind recipient occurredAt => [utf8Bytes "status", utf8Bytes "7",
      configuration.wabaId, configuration.phoneNumberId, utf8Bytes id, utf8Bytes kind,
      utf8Bytes (Int.repr occurredAt), utf8Bytes recipient]

/-- The key of a candidate under every retained generation, of which exactly one is active. -/
def candidateKeys (candidate : CallbackCandidate) (configuration : ReferenceLoopConfiguration) :
    Except Unit (List (UInt64 × ByteVec 32)) := do
  reject ((configuration.retainedDedupKeys.filter fun key =>
    key.generation == configuration.activeDedupKeyGeneration).length != 1) ()
  return configuration.retainedDedupKeys.map fun key =>
    (key.generation, hmac key.material.toList (wac1 (candidate.fields configuration)))

/-- A key of the candidate is among the tombstones or the receipts. -/
def isDuplicate (state : DurableState) (senderGeneration : UInt64)
    (keys : List (UInt64 × ByteVec 32)) : Bool :=
  keys.any fun key =>
    (state.tombstones.any fun tombstone => tombstone.senderGeneration == senderGeneration &&
      tombstone.keyGeneration == key.1 && tombstone.callbackKey == key.2) ||
    (state.receipts.any fun receipt => receipt.senderGeneration == senderGeneration &&
      receipt.callbackKey == key.2)

/-! ### Candidates -/

/-- Exactly one binding names the message. -/
def isBound (state : DurableState) (senderGeneration : UInt64) (id : String) : Bool :=
  (state.bindings.filter fun binding => binding.senderGeneration == senderGeneration &&
    binding.providerMessageId.value == id).length == 1

/-- A status for a message that is not known. -/
def isUnbound (before : DurableState) (configuration : ReferenceLoopConfiguration) :
    CallbackCandidate → Bool
  | .message _ _ _ => false
  | .status id _ _ _ => !isBound before configuration.senderGeneration id

/-- What the first loop does with a candidate whose keys are known. -/
def acceptKeyed (before : DurableState) (configuration : ReferenceLoopConfiguration)
    (candidate : CallbackCandidate) (keys : List (UInt64 × ByteVec 32))
    (accepted : List (CallbackCandidate × ByteVec 32)) :
    Except Reply (List (CallbackCandidate × ByteVec 32)) :=
  if isDuplicate before configuration.senderGeneration keys then .ok accepted
  else if isUnbound before configuration candidate then .error (.ok (emptyResponse 503))
  else do
    let active ← orError (.error .invalidFixture) (keys.find? fun key =>
      key.1 == configuration.activeDedupKeyGeneration)
    return accepted ++ [(candidate, active.2)]

/-- One turn of the first loop. -/
def acceptOne (before : DurableState) (configuration : ReferenceLoopConfiguration)
    (accepted : List (CallbackCandidate × ByteVec 32)) (candidate : CallbackCandidate) :
    Except Reply (List (CallbackCandidate × ByteVec 32)) := do
  let keys ← (candidateKeys hmac candidate configuration).mapError fun _ =>
    Except.ok (emptyResponse 400)
  acceptKeyed before configuration candidate keys accepted

/-- The first loop: duplicates are left out. -/
def acceptAll (before : DurableState) (configuration : ReferenceLoopConfiguration)
    (candidates : List CallbackCandidate) : Except Reply (List (CallbackCandidate × ByteVec 32)) :=
  candidates.foldlM (acceptOne hmac before configuration) []

/-- What one accepted candidate adds to the durable state. -/
structure Evidence where
  receipt : Receipt
  tombstone : Tombstone
  event : EvidenceEvent
  alert : Option AlertIntent
  deriving DecidableEq

/-- The kind of a candidate. -/
def kindOf : CallbackCandidate → CandidateKind
  | .message _ _ _ => .inboundMessage
  | .status _ _ _ _ => .outboundStatus

/-- The receipt of a candidate. -/
def receiptOf (request : ReferenceLoopRequest) (p : CallbackCandidate × ByteVec 32) : Receipt where
  callbackKey := p.2
  senderGeneration := request.configuration.senderGeneration
  kind := kindOf p.1
  receivedAt := request.receivedAt

/-- The tombstone of a candidate, under the active generation. -/
def tombstoneOf (request : ReferenceLoopRequest) (key : ByteVec 32) : Tombstone where
  callbackKey := key
  senderGeneration := request.configuration.senderGeneration
  keyGeneration := request.configuration.activeDedupKeyGeneration

/-- The reference of an event with that number. -/
def safeEvent (number : ℕ) : Except RuntimeError SafeReference :=
  SafeReference.parse ("event-" ++ Nat.repr number)

/-- The number of the event of a status. -/
def statusEventNumber (after : DurableState) (id status : String) : ℕ :=
  if status = "read" then 15
  else if status = "failed" then 16
  else if status = "delivered" ∧ id = "provider-message-2" then 7
  else if status = "delivered" ∧ after.v1History ≠ [] then 12
  else 5

/-- The kind of the event of a status. -/
def statusEventKind (status : String) : Option EventKind :=
  if status = "sent" then some .statusSent
  else if status = "delivered" then some .statusDelivered
  else if status = "read" then some .statusRead
  else if status = "failed" then some .statusFailed
  else none

/-- The event and the alert of an accepted candidate. -/
def eventOf (request : ReferenceLoopRequest) (after : DurableState) :
    CallbackCandidate → Except Reply (EvidenceEvent × Option AlertIntent)
  | .message _ context occurredAt => do
    let isMatched := context.any (isBound after request.configuration.senderGeneration)
    let reference ← (safeEvent (if isMatched then 6 else 7)).mapError .error
    return ({ kind := if isMatched then .matchedReply else .unmatchedReply, reference,
              senderGeneration := request.configuration.senderGeneration,
              providerOccurredAt := some occurredAt,
              receiptOrder := saturatingSucc after.events.length },
            some { eventReference := reference, isMatched, safeTimestamp := occurredAt,
                   leased := false, leaseFence := 0, leaseExpiresAt := none, dispatchAttempts := 0,
                   delivered := false, ambiguousDispatch := false })
  | .status id status _ occurredAt => do
    let kind ← orError (.ok (emptyResponse 400)) (statusEventKind status)
    let reference ← (safeEvent (statusEventNumber after id status)).mapError .error
    return ({ kind, reference, senderGeneration := request.configuration.senderGeneration,
              providerOccurredAt := some occurredAt,
              receiptOrder := saturatingSucc after.events.length }, none)

/-- What an accepted candidate adds. -/
def evidenceOf (request : ReferenceLoopRequest) (after : DurableState)
    (p : CallbackCandidate × ByteVec 32) : Except Reply Evidence := do
  let pushed ← eventOf request after p.1
  return ⟨receiptOf request p, tombstoneOf request p.2, pushed.1, pushed.2⟩

/-- The state with what a candidate adds. -/
def addEvidence (state : DurableState) (evidence : Evidence) :
    DurableState :=
  { state with
    receipts := state.receipts ++ [evidence.receipt]
    tombstones := state.tombstones ++ [evidence.tombstone]
    events := state.events ++ [evidence.event]
    outbox := state.outbox ++ evidence.alert.toList }

/-- The second loop. -/
def evidences (request : ReferenceLoopRequest) :
    DurableState → List (CallbackCandidate × ByteVec 32) → Except Reply (List Evidence)
  | _, [] => .ok []
  | after, p :: accepted => do
    let evidence ← evidenceOf request after p
    return evidence :: (← evidences request (addEvidence after evidence) accepted)

/-! ### The runtime -/

/-- What becomes of a proposal: the state is replaced, or it is and the call stops, or it is not. -/
inductive Replaced
  | committed
  | stoppedAfter (stop : RuntimeStop)
  | failed (error : RuntimeError)
  deriving DecidableEq

/-- What the runtime does during one call. -/
structure Runtime where
  staged : Except RuntimeError Unit
  replaced : Replaced

/-- The state behind a proposal.  Only a stop is reported as an error. -/
def commit (runtime : Runtime) (before replacement : DurableState) :
    DurableState × Except RuntimeError Bool :=
  match runtime.replaced with
  | .committed => (replacement, .ok true)
  | .stoppedAfter stop => (replacement, .error (.stop stop))
  | .failed (.stop stop) => (before, .error (.stop stop))
  | .failed _ => (before, .ok false)

/-- What follows the staging. -/
def commitAll (request : ReferenceLoopRequest) (runtime : Runtime) (before : DurableState)
    (accepted : List (CallbackCandidate × ByteVec 32)) : DurableState × Reply :=
  match evidences request before accepted with
  | .error reply => (before, reply)
  | .ok added =>
    let after := { added.foldl addEvidence before with
      revision := saturatingSucc before.revision.toNat }
    ((commit runtime before after).1, (commit runtime before after).2.map fun done =>
      emptyResponse (if done then 200 else 503))

/-- The candidates are all taken into the state, or none of them is. -/
def handleCandidates (request : ReferenceLoopRequest) (candidates : List CallbackCandidate)
    (runtime : Runtime) (before : DurableState) : DurableState × Reply :=
  match acceptAll hmac before request.configuration candidates with
  | .error reply => (before, reply)
  | .ok accepted =>
    if accepted = [] then (before, .ok (emptyResponse 200))
    else
      match runtime.staged with
      | .error error => (before, .error error)
      | .ok () => commitAll request runtime before accepted

/-- `handle_callback`: what is not admitted changes nothing. -/
def handleCallback (request : ReferenceLoopRequest) (ingress : CallbackIngress) (runtime : Runtime)
    (before : DurableState) : DurableState × Reply :=
  match admittedCandidates hmac request ingress with
  | .error response => (before, .ok response)
  | .ok candidates => handleCandidates hmac request candidates runtime before

end Digest

end Callback

end MsgRiver.PhaseZero
