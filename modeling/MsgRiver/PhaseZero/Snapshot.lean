import MsgRiver.Lib.Checked
import MsgRiver.Lib.Quota
import MsgRiver.PhaseZero.Callback

/-!
# Snapshots of the durable state

The store of the reference loop keeps the durable state as one closed binary snapshot.  The encoder
writes it field by field under a limit on the bytes and on the items of all lists together; the
decoder reads it back under the same limits and accepts nothing behind it.

* `LoopState`: the durable state with the fields that a callback does not touch;
* `encodeState`, `decodeState`: the snapshot of a state and the state of a snapshot;
* `encodeState_eq_ok_iff_decodeState_eq_ok`: they are inverse to each other where they succeed.
-/

namespace MsgRiver.PhaseZero

open Bytes Ascii
open Wire (Refusal refuse)

/-! ### The whole durable state -/

/-- The configuration generations that were in force when an outbound request was accepted. -/
structure OutboundPin where
  attemptReference : SafeReference
  senderGeneration : UInt64
  endpointGeneration : UInt64
  credentialGeneration : UInt64
  templateAllowlistGeneration : UInt64
  deriving DecidableEq

/-- How long the text of a reply is kept. -/
structure SensitiveReplyState where
  retainedAt : Int64
  expiresAt : Int64
  localOnly : Bool
  deriving DecidableEq

/-- What is known of a service window. -/
inductive ServiceWindowState
  | active
  | unknown
  | expired
  deriving DecidableEq

/-- The state of a service window, or its correction. -/
structure ServiceWindowDisposition where
  eventReference : SafeReference
  priorEventReference : Option SafeReference
  state : ServiceWindowState
  deriving DecidableEq

/-- The durable state, with the fields that a callback does not touch. -/
structure LoopState extends DurableState where
  outboundPins : List OutboundPin := []
  sensitiveReply : Option SensitiveReplyState := none
  serviceWindowDispositions : List ServiceWindowDisposition := []
  deriving DecidableEq

namespace Snapshot

/-- The error of the codec. -/
inductive SnapshotError
  | invalid
  deriving DecidableEq

instance : Refusal SnapshotError := ⟨.invalid⟩

/-- The first bytes of a snapshot. -/
def snapshotMagic : List UInt8 := utf8Bytes "MSGRIV01"

/-- The longest reference. -/
def snapshotMaxReferenceBytes : ℕ := 256

/-- `SNAPSHOT_MAX_BYTES` and `SNAPSHOT_MAX_ITEMS`. -/
def limits : Quota.Limits := ⟨16 * 1024 * 1024, 65536⟩

/-- Writes within the limits of a snapshot. -/
abbrev Encoder (α : Type) := Quota.Writer limits SnapshotError α

/-- Reads within the limits of a snapshot. -/
abbrev Decoder (α : Type) := Quota.Reader limits SnapshotError α

open Quota (put announce giveUp int take counted fail readInt readMany)

/-! ### Primitives -/

/-- A length as a `u32`. -/
def putLength (n : ℕ) : Encoder Unit :=
  match (ofNat? n : Option UInt32) with
  | some n => int n
  | none => giveUp

/-- Reads a length. -/
def readLength : Decoder ℕ := do
  let n : UInt32 ← readInt
  return n.toNat

/-- A closed set of values, each with a tag of one byte. -/
def encodeTag {α : Type} (tagOf : α → UInt8) (value : α) : Encoder Unit := int (tagOf value)

/-- Reads a tag that has a meaning. -/
def decodeTag {α : Type} (ofTag : UInt8 → Option α) : Decoder α := do
  let tag : UInt8 ← readInt
  match ofTag tag with
  | some value => return value
  | none => fail

/-- The tag of a boolean. -/
def booleanTag (value : Bool) : UInt8 := if value then 1 else 0

/-- The boolean of a tag. -/
def booleanOf : UInt8 → Option Bool
  | 0 => some false
  | 1 => some true
  | _ => none

/-- Writes a boolean. -/
def boolean : Bool → Encoder Unit := encodeTag booleanTag

/-- Reads a boolean. -/
def readBoolean : Decoder Bool := decodeTag booleanOf

/-- An `i64`.  The instants of the state are integers here, so a value beyond an `i64` has no
snapshot. -/
def instant (value : ℤ) : Encoder Unit :=
  match Checked.ofInt? value with
  | some value => int value
  | none => giveUp

/-- Reads an instant. -/
def readInstant : Decoder ℤ := do
  let value : Int64 ← readInt
  return value.toInt

/-- A value behind a flag that says whether it is there. -/
def optional {α : Type} (encode : α → Encoder Unit) (value : Option α) : Encoder Unit := do
  boolean value.isSome
  match value with
  | none => pure ()
  | some value => encode value

/-- Reads a value that may be absent. -/
def readOptional {α : Type} (decode : Decoder α) : Decoder (Option α) := do
  let present ← readBoolean
  if present then (do let value ← decode; pure (some value)) else pure none

/-- Writes the number of values that follow, against the quota. -/
def count (n : ℕ) : Encoder Unit := do
  announce n
  putLength n

/-- Reads the number of values that follow, against the quota. -/
def readCount : Decoder ℕ := do
  let n ← readLength
  counted n
  return n

/-- Writes a list. -/
def values {α : Type} (encode : α → Encoder Unit) (values : List α) : Encoder Unit := do
  count values.length
  values.forM encode

/-- Reads a list. -/
def decodeValues {α : Type} (decode : Decoder α) : Decoder (List α) := do
  let n ← readCount
  readMany decode n

/-- Writes a key. -/
def key (value : ByteVec 32) : Encoder Unit := put value.toList

/-- Reads a key. -/
def readKey : Decoder (ByteVec 32) := do
  let bytes ← take 32
  match toVec? 32 bytes with
  | some value => return value
  | none => fail

/-- The text is parsed again before it is written. -/
def reference (value : SafeReference) : Encoder Unit :=
  let bytes := utf8Bytes value.value
  if bytes.isEmpty || snapshotMaxReferenceBytes < bytes.length then giveUp
  else
    match SafeReference.parse value.value with
    | .error _ => giveUp
    | .ok _ => do
      putLength bytes.length
      put bytes

/-- The reference of a text. -/
def referenceOf (bytes : List UInt8) : Option SafeReference :=
  match Text.decodeUtf8 bytes with
  | none => none
  | some text => (SafeReference.parse (String.ofList text)).toOption

/-- Reads a safe reference. -/
def readReference : Decoder SafeReference := do
  let n ← readLength
  if n = 0 ∨ snapshotMaxReferenceBytes < n then fail
  else do
    let bytes ← take n
    match referenceOf bytes with
    | some value => return value
    | none => fail

/-! ### Records -/

/-- The tag of a kind. -/
def candidateKindTag : CandidateKind → UInt8
  | .inboundMessage => 0
  | .outboundStatus => 1

/-- The kind of a tag. -/
def candidateKindOf : UInt8 → Option CandidateKind
  | 0 => some .inboundMessage
  | 1 => some .outboundStatus
  | _ => none

/-- Writes a kind. -/
def encodeCandidateKind : CandidateKind → Encoder Unit := encodeTag candidateKindTag

/-- Reads a kind. -/
def decodeCandidateKind : Decoder CandidateKind := decodeTag candidateKindOf

/-- Writes a receipt. -/
def encodeReceipt (value : Receipt) : Encoder Unit := do
  key value.callbackKey
  int value.senderGeneration
  encodeCandidateKind value.kind
  instant value.receivedAt

/-- Reads a receipt. -/
def decodeReceipt : Decoder Receipt := do
  let callbackKey ← readKey
  let senderGeneration ← readInt
  let kind ← decodeCandidateKind
  let receivedAt ← readInstant
  return { callbackKey, senderGeneration, kind, receivedAt }

/-- The tag of a kind. -/
def eventKindTag : EventKind → UInt8
  | .matchedReply => 0
  | .unmatchedReply => 1
  | .statusSent => 2
  | .statusDelivered => 3
  | .statusRead => 4
  | .statusFailed => 5
  | .retentionDisposition => 6
  | .serviceWindowDisposition => 7
  | .outboundOutcome => 8

/-- The kind of a tag. -/
def eventKindOf : UInt8 → Option EventKind
  | 0 => some .matchedReply
  | 1 => some .unmatchedReply
  | 2 => some .statusSent
  | 3 => some .statusDelivered
  | 4 => some .statusRead
  | 5 => some .statusFailed
  | 6 => some .retentionDisposition
  | 7 => some .serviceWindowDisposition
  | 8 => some .outboundOutcome
  | _ => none

/-- Writes a kind. -/
def encodeEventKind : EventKind → Encoder Unit := encodeTag eventKindTag

/-- Reads a kind. -/
def decodeEventKind : Decoder EventKind := decodeTag eventKindOf

/-- The tag of a state. -/
def serviceWindowStateTag : ServiceWindowState → UInt8
  | .active => 0
  | .unknown => 1
  | .expired => 2

/-- The state of a tag. -/
def serviceWindowStateOf : UInt8 → Option ServiceWindowState
  | 0 => some .active
  | 1 => some .unknown
  | 2 => some .expired
  | _ => none

/-- Writes a state. -/
def encodeServiceWindowState : ServiceWindowState → Encoder Unit := encodeTag serviceWindowStateTag

/-- Reads a state. -/
def decodeServiceWindowState : Decoder ServiceWindowState := decodeTag serviceWindowStateOf

/-- The tag of an outcome. -/
def providerOutcomeTag : ProviderOutcomeClass → UInt8
  | .permanent => 0
  | .authOrConfig => 1
  | .rateLimited => 2
  | .transient => 3
  | .ambiguous => 4

/-- The outcome of a tag. -/
def providerOutcomeOf : UInt8 → Option ProviderOutcomeClass
  | 0 => some .permanent
  | 1 => some .authOrConfig
  | 2 => some .rateLimited
  | 3 => some .transient
  | 4 => some .ambiguous
  | _ => none

/-- Writes an outcome. -/
def encodeProviderOutcome : ProviderOutcomeClass → Encoder Unit := encodeTag providerOutcomeTag

/-- Reads an outcome. -/
def decodeProviderOutcome : Decoder ProviderOutcomeClass := decodeTag providerOutcomeOf

/-- Writes a binding. -/
def encodeProviderBinding (value : ProviderBinding) : Encoder Unit := do
  int value.senderGeneration
  reference value.providerMessageId

/-- Reads a binding. -/
def decodeProviderBinding : Decoder ProviderBinding := do
  let senderGeneration ← readInt
  let providerMessageId ← readReference
  return { senderGeneration, providerMessageId }

/-- Writes a pin. -/
def encodeOutboundPin (value : OutboundPin) : Encoder Unit := do
  reference value.attemptReference
  int value.senderGeneration
  int value.endpointGeneration
  int value.credentialGeneration
  int value.templateAllowlistGeneration

/-- Reads a pin. -/
def decodeOutboundPin : Decoder OutboundPin := do
  let attemptReference ← readReference
  let senderGeneration ← readInt
  let endpointGeneration ← readInt
  let credentialGeneration ← readInt
  let templateAllowlistGeneration ← readInt
  return { attemptReference, senderGeneration, endpointGeneration, credentialGeneration,
           templateAllowlistGeneration }

/-- Writes an event. -/
def encodeEvent (value : EvidenceEvent) : Encoder Unit := do
  encodeEventKind value.kind
  reference value.reference
  int value.senderGeneration
  optional instant value.providerOccurredAt
  int value.receiptOrder

/-- Reads an event. -/
def decodeEvent : Decoder EvidenceEvent := do
  let kind ← decodeEventKind
  let reference ← readReference
  let senderGeneration ← readInt
  let providerOccurredAt ← readOptional readInstant
  let receiptOrder ← readInt
  return { kind, reference, senderGeneration, providerOccurredAt, receiptOrder }

/-- Writes an intent. -/
def encodeAlertIntent (value : AlertIntent) : Encoder Unit := do
  reference value.eventReference
  boolean value.isMatched
  instant value.safeTimestamp
  boolean value.leased
  int value.leaseFence
  optional instant value.leaseExpiresAt
  int value.dispatchAttempts
  boolean value.delivered
  boolean value.ambiguousDispatch

/-- Reads an intent. -/
def decodeAlertIntent : Decoder AlertIntent := do
  let eventReference ← readReference
  let isMatched ← readBoolean
  let safeTimestamp ← readInstant
  let leased ← readBoolean
  let leaseFence ← readInt
  let leaseExpiresAt ← readOptional readInstant
  let dispatchAttempts ← readInt
  let delivered ← readBoolean
  let ambiguousDispatch ← readBoolean
  return { eventReference, isMatched, safeTimestamp, leased, leaseFence, leaseExpiresAt,
           dispatchAttempts, delivered, ambiguousDispatch }

/-- Writes a tombstone. -/
def encodeTombstone (value : Tombstone) : Encoder Unit := do
  key value.callbackKey
  int value.senderGeneration
  int value.keyGeneration

/-- Reads a tombstone. -/
def decodeTombstone : Decoder Tombstone := do
  let callbackKey ← readKey
  let senderGeneration ← readInt
  let keyGeneration ← readInt
  return { callbackKey, senderGeneration, keyGeneration }

/-- Writes a fact, after a tag that says which one it is. -/
def encodeV1Fact : V1Fact → Encoder Unit
  | .providerAccepted attempts uncertain => do
    int (0 : UInt8)
    int attempts
    boolean uncertain
  | .providerOutcome outcome attempts uncertain => do
    int (1 : UInt8)
    encodeProviderOutcome outcome
    int attempts
    boolean uncertain

/-- Reads a fact. -/
def decodeV1Fact : Decoder V1Fact := do
  let tag : UInt8 ← readInt
  if tag = 0 then do
    let attempts ← readInt
    let uncertain ← readBoolean
    return .providerAccepted attempts uncertain
  else if tag = 1 then do
    let outcome ← decodeProviderOutcome
    let attempts ← readInt
    let uncertain ← readBoolean
    return .providerOutcome outcome attempts uncertain
  else fail

/-- Writes the retention of a reply. -/
def encodeSensitiveReply (value : SensitiveReplyState) : Encoder Unit := do
  int value.retainedAt
  int value.expiresAt
  boolean value.localOnly

/-- Reads the retention of a reply. -/
def decodeSensitiveReply : Decoder SensitiveReplyState := do
  let retainedAt ← readInt
  let expiresAt ← readInt
  let localOnly ← readBoolean
  return { retainedAt, expiresAt, localOnly }

/-- Writes a disposition. -/
def encodeServiceWindowDisposition (value : ServiceWindowDisposition) : Encoder Unit := do
  reference value.eventReference
  optional reference value.priorEventReference
  encodeServiceWindowState value.state

/-- Reads a disposition. -/
def decodeServiceWindowDisposition : Decoder ServiceWindowDisposition := do
  let eventReference ← readReference
  let priorEventReference ← readOptional readReference
  let state ← decodeServiceWindowState
  return { eventReference, priorEventReference, state }

/-! ### The state -/

/-- Writes the fields of a state in the order of the snapshot. -/
def encodeFields (state : LoopState) : Encoder Unit := do
  int state.revision
  values encodeReceipt state.receipts
  values encodeProviderBinding state.bindings
  values encodeOutboundPin state.outboundPins
  values encodeEvent state.events
  values encodeAlertIntent state.outbox
  values encodeTombstone state.tombstones
  values encodeV1Fact state.v1History
  optional encodeSensitiveReply state.sensitiveReply
  values encodeServiceWindowDisposition state.serviceWindowDispositions

/-- Reads the fields of a state in the order of the snapshot. -/
def decodeFields : Decoder LoopState := do
  let revision ← readInt
  let receipts ← decodeValues decodeReceipt
  let bindings ← decodeValues decodeProviderBinding
  let outboundPins ← decodeValues decodeOutboundPin
  let events ← decodeValues decodeEvent
  let outbox ← decodeValues decodeAlertIntent
  let tombstones ← decodeValues decodeTombstone
  let v1History ← decodeValues decodeV1Fact
  let sensitiveReply ← readOptional decodeSensitiveReply
  let serviceWindowDispositions ← decodeValues decodeServiceWindowDisposition
  return { receipts, bindings, outboundPins, events, outbox, tombstones, v1History, sensitiveReply,
           serviceWindowDispositions, revision }

theorem length_snapshotMagic : snapshotMagic.length = 8 := by decide +kernel

theorem length_snapshotMagic_le : snapshotMagic.length ≤ limits.bytes := by
  rw [length_snapshotMagic]
  decide

/-- `SnapshotEncoder::new`. -/
def newEncoder : Quota.Buffer limits := ⟨snapshotMagic, 0, length_snapshotMagic_le, Nat.zero_le _⟩

/-- The snapshot of a state. -/
def encodeState (state : LoopState) : Except SnapshotError (List UInt8) := do
  let p ← encodeFields state newEncoder
  return p.2.bytes

/-- `SnapshotDecoder::new`. -/
def newDecoder (bytes : List UInt8) : Except SnapshotError (Quota.Cursor limits) :=
  if h : bytes.length ≤ limits.bytes ∧ bytes.take 8 = snapshotMagic then
    .ok ⟨bytes.drop 8, 0, Quota.length_drop_le h.1, Nat.zero_le _⟩
  else .error .invalid

/-- Reads a snapshot; nothing may follow the state. -/
def decodeState (bytes : List UInt8) : Except SnapshotError LoopState := do
  let p ← decodeFields (← newDecoder bytes)
  if p.2.rest.isEmpty then return p.1 else .error .invalid

/-! ### The decoder undoes the encoder -/

open Quota (Undoes Inverts Written Consumes)

section Primitives

theorem inverts_putLength : Inverts putLength readLength :=
  Quota.inverts_partial Quota.inverts_int (fun _ _ => ofNat?_eq_some) fun n => by
    unfold putLength
    cases (ofNat? n : Option UInt32) <;> rfl

theorem inverts_tag {α : Type} {tagOf : α → UInt8} {ofTag : UInt8 → Option α}
    (h : ∀ tag value, ofTag tag = some value ↔ tagOf value = tag) :
    Inverts (encodeTag tagOf) (decodeTag ofTag) :=
  Undoes.checked Quota.inverts_int tagOf ofTag (fun _ => rfl) fun tag value => by
    rw [h, true_and]

theorem inverts_boolean : Inverts boolean readBoolean := by
  refine inverts_tag fun tag value => ?_
  unfold booleanOf booleanTag
  split <;> cases value <;> simp_all [eq_comm]

theorem inverts_instant : Inverts instant readInstant :=
  Quota.inverts_partial Quota.inverts_int (fun _ _ => Checked.ofInt?_eq_some) fun value => by
    unfold instant
    cases Checked.ofInt? value <;> rfl

theorem inverts_optional {α : Type} {encode : α → Encoder Unit} {decode : Decoder α}
    (h : Inverts encode decode) : Inverts (optional encode) (readOptional decode) :=
  .field inverts_boolean Option.isSome fun present =>
    Quota.undoes_optional h fun x => by rw [true_and]

theorem inverts_count : Inverts count readCount where
  definite n := (Quota.written_announce n).definite.bind (inverts_putLength.definite n)
  run_iff s n t := by
    unfold readCount
    rw [Quota.bind_run_eq_ok]
    constructor
    · rintro ⟨m, s', hread, hrun⟩
      obtain ⟨⟨⟩, s'', hcounted, hpure⟩ := Quota.bind_run_eq_ok.1 hrun
      obtain ⟨rfl, rfl⟩ := Quota.pure_run_eq_ok.1 hpure
      obtain ⟨hsame, hmore⟩ := Quota.counted_run_eq_ok.1 hcounted
      obtain ⟨-, bs, k, hbs, hrest, hitems⟩ := (inverts_putLength.run_iff s m s').1 hread
      refine ⟨trivial, bs, m + k, (Quota.written_announce m).bind hbs, ?_, by omega⟩
      rw [hrest, hsame]
    · rintro ⟨-, bs, k, hbs, hst⟩
      -- the encoder counts before it writes the length, the decoder after it has read it
      obtain ⟨cs, ds, i, j, t', hcs, hds, hfirst, hrest, hitems⟩ := hbs.split
        (Quota.written_announce n).definite (inverts_putLength.definite n) hst
      obtain ⟨rfl, rfl⟩ := (Quota.written_announce n).unique hcs hfirst
      obtain ⟨hsame, hmore⟩ := hfirst
      have hle := t.items_le
      refine ⟨n, ⟨t.rest, s.items + j, t.length_le, by omega⟩, ?_, ?_⟩
      · refine (inverts_putLength.run_iff ..).2 ⟨trivial, ds, j, hds, ?_, rfl⟩
        rw [hsame, hrest]
        rfl
      · refine Quota.bind_run_eq_ok.2 ⟨(), t, Quota.counted_run_eq_ok.2 ⟨rfl, ?_⟩, rfl⟩
        show t.items = s.items + j + n
        omega

theorem inverts_values {α : Type} {encode : α → Encoder Unit} {decode : Decoder α}
    (h : Inverts encode decode) : Inverts (values encode) (decodeValues decode) :=
  .field inverts_count List.length fun n => Quota.undoes_many h fun vs => by rw [true_and]

theorem inverts_key : Inverts key readKey := by
  refine Quota.inverts_of_written List.Vector.toList (fun k => Quota.written_put _) fun s k t => ?_
  unfold readKey
  rw [Quota.bind_run_eq_ok]
  constructor
  · rintro ⟨bytes, t', htake, hrun⟩
    obtain ⟨-, hst⟩ := Quota.take_run_eq_ok.1 htake
    cases hk : toVec? 32 bytes with
    | none =>
      rw [hk] at hrun
      cases hrun
    | some k' =>
      rw [hk] at hrun
      obtain ⟨rfl, rfl⟩ := Quota.pure_run_eq_ok.1 hrun
      rw [toVec?_eq_some.1 hk]
      exact hst
  · intro hst
    refine ⟨k.toList, t, Quota.take_run_eq_ok.2 ⟨k.toList_length, hst⟩, ?_⟩
    rw [toVec?_eq_some.2 rfl]
    rfl

/-- The reference of a text is the one that is written as this text. -/
theorem referenceOf_eq_some {bytes : List UInt8} {value : SafeReference} :
    referenceOf bytes = some value ↔ utf8Bytes value.value = bytes := by
  unfold referenceOf
  constructor
  · intro h
    split at h
    · cases h
    · rename_i text htext
      unfold SafeReference.parse at h
      split_ifs at h with hsafe
      · cases h
        exact Text.decodeUtf8_eq_some.1 htext
      · cases h
  · rintro rfl
    rw [Text.decodeUtf8_utf8Bytes]
    simp only [String.ofList_toList, SafeReference.parse, value.safe, dif_pos]
    rfl

theorem parse_value (value : SafeReference) : SafeReference.parse value.value = .ok value := by
  rw [SafeReference.parse, dif_pos value.safe]

/-- The writer of a reference that is not too long. -/
theorem reference_of_length {value : SafeReference} (h0 : (utf8Bytes value.value).length ≠ 0)
    (hle : (utf8Bytes value.value).length ≤ snapshotMaxReferenceBytes) :
    reference value =
      (putLength (utf8Bytes value.value).length >>= fun _ => put (utf8Bytes value.value)) := by
  unfold reference
  rw [parse_value]
  rw [if_neg]
  simp only [Bool.or_eq_true, List.isEmpty_iff_length_eq_zero, decide_eq_true_eq]
  omega

theorem reference_of_not_length {value : SafeReference}
    (h : ¬ ((utf8Bytes value.value).length ≠ 0 ∧
      (utf8Bytes value.value).length ≤ snapshotMaxReferenceBytes)) :
    reference value = giveUp := by
  unfold reference
  rw [if_pos]
  simp only [Bool.or_eq_true, List.isEmpty_iff_length_eq_zero, decide_eq_true_eq]
  omega

theorem inverts_reference : Inverts reference readReference where
  definite value := by
    by_cases hlength : (utf8Bytes value.value).length ≠ 0 ∧
        (utf8Bytes value.value).length ≤ snapshotMaxReferenceBytes
    · rw [reference_of_length hlength.1 hlength.2]
      exact (inverts_putLength.definite _).bind (Quota.written_put _).definite
    · rw [reference_of_not_length hlength]
      exact Quota.definite_giveUp
  run_iff s value u := by
    unfold readReference
    rw [Quota.bind_run_eq_ok]
    constructor
    · rintro ⟨n, t, hread, hrun⟩
      obtain ⟨-, bs, k, hbs, hst⟩ := (inverts_putLength.run_iff s n t).1 hread
      split_ifs at hrun with hlength
      · cases hrun
      · obtain ⟨bytes, u', htake, hparse⟩ := Quota.bind_run_eq_ok.1 hrun
        obtain ⟨hn, htu⟩ := Quota.take_run_eq_ok.1 htake
        cases hvalue : referenceOf bytes with
        | none =>
          rw [hvalue] at hparse
          cases hparse
        | some value' =>
          rw [hvalue] at hparse
          obtain ⟨rfl, rfl⟩ := Quota.pure_run_eq_ok.1 hparse
          rw [referenceOf_eq_some] at hvalue
          subst hvalue hn
          rw [reference_of_length (by omega) (by omega)]
          exact ⟨trivial, _, _, hbs.bind (Quota.written_put _), hst.trans htu⟩
    · rintro ⟨-, bs, n, hbs, hsu⟩
      by_cases hlength : (utf8Bytes value.value).length ≠ 0 ∧
          (utf8Bytes value.value).length ≤ snapshotMaxReferenceBytes
      · rw [reference_of_length hlength.1 hlength.2] at hbs
        obtain ⟨cs, ds, k, l, t, hcs, hds, hst, htu⟩ := hbs.split
          (inverts_putLength.definite _) (Quota.written_put _).definite hsu
        obtain ⟨rfl, rfl⟩ := (Quota.written_put _).unique hds htu
        refine ⟨_, t, (inverts_putLength.run_iff ..).2 ⟨trivial, cs, k, hcs, hst⟩, ?_⟩
        rw [if_neg (by omega), Quota.bind_run_eq_ok]
        refine ⟨_, u, Quota.take_run_eq_ok.2 ⟨rfl, htu⟩, ?_⟩
        rw [referenceOf_eq_some.2 rfl]
        rfl
      · rw [reference_of_not_length hlength] at hbs
        exact absurd (fun _ => rfl) (hbs.not_refused hsu)

end Primitives

section Records

theorem inverts_candidateKind : Inverts encodeCandidateKind decodeCandidateKind := by
  refine inverts_tag fun tag value => ?_
  unfold candidateKindOf candidateKindTag
  split <;> cases value <;> simp_all [eq_comm]

theorem inverts_eventKind : Inverts encodeEventKind decodeEventKind := by
  refine inverts_tag fun tag value => ?_
  unfold eventKindOf eventKindTag
  split <;> cases value <;> simp_all [eq_comm]

theorem inverts_serviceWindowState :
    Inverts encodeServiceWindowState decodeServiceWindowState := by
  refine inverts_tag fun tag value => ?_
  unfold serviceWindowStateOf serviceWindowStateTag
  split <;> cases value <;> simp_all [eq_comm]

theorem inverts_providerOutcome : Inverts encodeProviderOutcome decodeProviderOutcome := by
  refine inverts_tag fun tag value => ?_
  unfold providerOutcomeOf providerOutcomeTag
  split <;> cases value <;> simp_all [eq_comm]

theorem inverts_receipt : Inverts encodeReceipt decodeReceipt := by
  refine .field inverts_key Receipt.callbackKey fun _ => ?_
  refine .field Quota.inverts_int Receipt.senderGeneration fun _ => ?_
  refine .field inverts_candidateKind Receipt.kind fun _ => ?_
  exact .last inverts_instant Receipt.receivedAt fun _ r => by
    cases r
    simp [and_assoc]

theorem inverts_providerBinding : Inverts encodeProviderBinding decodeProviderBinding := by
  refine .field Quota.inverts_int ProviderBinding.senderGeneration fun _ => ?_
  exact .last inverts_reference ProviderBinding.providerMessageId fun _ r => by
    cases r
    simp

theorem inverts_outboundPin : Inverts encodeOutboundPin decodeOutboundPin := by
  refine .field inverts_reference OutboundPin.attemptReference fun _ => ?_
  refine .field Quota.inverts_int OutboundPin.senderGeneration fun _ => ?_
  refine .field Quota.inverts_int OutboundPin.endpointGeneration fun _ => ?_
  refine .field Quota.inverts_int OutboundPin.credentialGeneration fun _ => ?_
  exact .last Quota.inverts_int OutboundPin.templateAllowlistGeneration fun _ r => by
    cases r
    simp [and_assoc]

theorem inverts_event : Inverts encodeEvent decodeEvent := by
  refine .field inverts_eventKind EvidenceEvent.kind fun _ => ?_
  refine .field inverts_reference EvidenceEvent.reference fun _ => ?_
  refine .field Quota.inverts_int EvidenceEvent.senderGeneration fun _ => ?_
  refine .field (inverts_optional inverts_instant) EvidenceEvent.providerOccurredAt fun _ => ?_
  exact .last Quota.inverts_int EvidenceEvent.receiptOrder fun _ r => by
    cases r
    simp [and_assoc]

theorem inverts_alertIntent : Inverts encodeAlertIntent decodeAlertIntent := by
  refine .field inverts_reference AlertIntent.eventReference fun _ => ?_
  refine .field inverts_boolean AlertIntent.isMatched fun _ => ?_
  refine .field inverts_instant AlertIntent.safeTimestamp fun _ => ?_
  refine .field inverts_boolean AlertIntent.leased fun _ => ?_
  refine .field Quota.inverts_int AlertIntent.leaseFence fun _ => ?_
  refine .field (inverts_optional inverts_instant) AlertIntent.leaseExpiresAt fun _ => ?_
  refine .field Quota.inverts_int AlertIntent.dispatchAttempts fun _ => ?_
  refine .field inverts_boolean AlertIntent.delivered fun _ => ?_
  exact .last inverts_boolean AlertIntent.ambiguousDispatch fun _ r => by
    cases r
    simp [and_assoc]

theorem inverts_tombstone : Inverts encodeTombstone decodeTombstone := by
  refine .field inverts_key Tombstone.callbackKey fun _ => ?_
  refine .field Quota.inverts_int Tombstone.senderGeneration fun _ => ?_
  exact .last Quota.inverts_int Tombstone.keyGeneration fun _ r => by
    cases r
    simp [and_assoc]

theorem inverts_sensitiveReply : Inverts encodeSensitiveReply decodeSensitiveReply := by
  refine .field Quota.inverts_int SensitiveReplyState.retainedAt fun _ => ?_
  refine .field Quota.inverts_int SensitiveReplyState.expiresAt fun _ => ?_
  exact .last inverts_boolean SensitiveReplyState.localOnly fun _ r => by
    cases r
    simp [and_assoc]

theorem inverts_serviceWindowDisposition :
    Inverts encodeServiceWindowDisposition decodeServiceWindowDisposition := by
  refine .field inverts_reference ServiceWindowDisposition.eventReference fun _ => ?_
  refine .field (inverts_optional inverts_reference)
    ServiceWindowDisposition.priorEventReference fun _ => ?_
  exact .last inverts_serviceWindowState ServiceWindowDisposition.state fun _ r => by
    cases r
    simp [and_assoc]

/-- The tag of a fact. -/
def v1FactTag : V1Fact → UInt8
  | .providerAccepted .. => 0
  | .providerOutcome .. => 1

/-- What stands behind the tag. -/
def encodeV1Body : V1Fact → Encoder Unit
  | .providerAccepted attempts uncertain => do
    int attempts
    boolean uncertain
  | .providerOutcome outcome attempts uncertain => do
    encodeProviderOutcome outcome
    int attempts
    boolean uncertain

theorem encodeV1Fact_eq (value : V1Fact) :
    encodeV1Fact value = (int (v1FactTag value) >>= fun _ => encodeV1Body value) := by
  cases value <;> rfl

/-- The attempts of a fact. -/
def v1FactAttempts : V1Fact → UInt32
  | .providerAccepted attempts _ => attempts
  | .providerOutcome _ attempts _ => attempts

/-- Whether an attempt of a fact was left open. -/
def v1FactUncertain : V1Fact → Bool
  | .providerAccepted _ uncertain => uncertain
  | .providerOutcome _ _ uncertain => uncertain

/-- The class of an outcome; an acceptance has none. -/
def v1FactOutcome : V1Fact → ProviderOutcomeClass
  | .providerAccepted .. => .permanent
  | .providerOutcome outcome .. => outcome

theorem definite_encodeV1Body (value : V1Fact) : Quota.Definite (encodeV1Body value) := by
  cases value with
  | providerAccepted attempts uncertain =>
    exact (Quota.inverts_int.definite attempts).bind (inverts_boolean.definite uncertain)
  | providerOutcome outcome attempts uncertain =>
    exact (inverts_providerOutcome.definite outcome).bind
      ((Quota.inverts_int.definite attempts).bind (inverts_boolean.definite uncertain))

theorem inverts_v1Fact : Inverts encodeV1Fact decodeV1Fact := by
  rw [show encodeV1Fact = _ from funext encodeV1Fact_eq]
  refine .field Quota.inverts_int v1FactTag fun tag => ?_
  split_ifs with h0 h1
  · subst h0
    refine Undoes.congr (fun v => int (v1FactAttempts v) >>= fun _ =>
      boolean (v1FactUncertain v)) ?_ definite_encodeV1Body ?_
    · refine .field Quota.inverts_int v1FactAttempts fun _ => ?_
      exact .last inverts_boolean v1FactUncertain fun _ v => by
        cases v <;> simp [v1FactTag, v1FactAttempts, v1FactUncertain]
    · rintro (_ | _) ⟨-, h⟩
      · rfl
      · cases h
  · subst h1
    refine Undoes.congr (fun v => encodeProviderOutcome (v1FactOutcome v) >>= fun _ =>
      int (v1FactAttempts v) >>= fun _ => boolean (v1FactUncertain v)) ?_ definite_encodeV1Body ?_
    · refine .field inverts_providerOutcome v1FactOutcome fun _ => ?_
      refine .field Quota.inverts_int v1FactAttempts fun _ => ?_
      exact .last inverts_boolean v1FactUncertain fun _ v => by
        cases v <;> simp [v1FactTag, v1FactOutcome, v1FactAttempts, v1FactUncertain, and_assoc]
    · rintro (_ | _) ⟨-, h⟩
      · cases h
      · rfl
  · refine Quota.undoes_fail definite_encodeV1Body ?_
    rintro (_ | _) ⟨-, h⟩
    · exact h0 h.symm
    · exact h1 h.symm

theorem inverts_fields : Inverts encodeFields decodeFields := by
  refine .field Quota.inverts_int (fun s : LoopState => s.revision) fun _ => ?_
  refine .field (inverts_values inverts_receipt) (fun s : LoopState => s.receipts) fun _ => ?_
  refine .field (inverts_values inverts_providerBinding) (fun s : LoopState => s.bindings) fun _ => ?_
  refine .field (inverts_values inverts_outboundPin) LoopState.outboundPins fun _ => ?_
  refine .field (inverts_values inverts_event) (fun s : LoopState => s.events) fun _ => ?_
  refine .field (inverts_values inverts_alertIntent) (fun s : LoopState => s.outbox) fun _ => ?_
  refine .field (inverts_values inverts_tombstone) (fun s : LoopState => s.tombstones) fun _ => ?_
  refine .field (inverts_values inverts_v1Fact) (fun s : LoopState => s.v1History) fun _ => ?_
  refine .field (inverts_optional inverts_sensitiveReply) LoopState.sensitiveReply fun _ => ?_
  exact .last (inverts_values inverts_serviceWindowDisposition)
    LoopState.serviceWindowDispositions fun _ s => by
      obtain ⟨⟨_, _, _, _, _, _, _⟩, _, _, _⟩ := s
      simp only [true_and, LoopState.mk.injEq, DurableState.mk.injEq]
      tauto

end Records

theorem newDecoder_eq_ok {bytes : List UInt8} {s : Quota.Cursor limits} :
    newDecoder bytes = .ok s ↔
      bytes = snapshotMagic ++ s.rest ∧ s.items = 0 ∧ bytes.length ≤ limits.bytes := by
  unfold newDecoder
  constructor
  · intro h
    split_ifs at h with hopen
    cases h
    refine ⟨?_, rfl, hopen.1⟩
    rw [← hopen.2, List.take_append_drop]
  · rintro ⟨rfl, hitems, hlength⟩
    have htake : (snapshotMagic ++ s.rest).take 8 = snapshotMagic :=
      List.take_left' length_snapshotMagic
    rw [dif_pos ⟨hlength, htake⟩]
    congr 1
    refine Quota.Cursor.ext ?_ hitems.symm
    exact List.drop_left' length_snapshotMagic

/-- **Snapshots are canonical.**  The decoder accepts exactly the bytes that the encoder writes, and
answers the state that was encoded. -/
theorem encodeState_eq_ok_iff_decodeState_eq_ok (state : LoopState) (bytes : List UInt8) :
    encodeState state = .ok bytes ↔ decodeState bytes = .ok state := by
  unfold encodeState decodeState
  rw [Result.bind_eq_ok, Result.bind_eq_ok]
  constructor
  · rintro ⟨⟨⟨⟩, b⟩, hrun, hpure⟩
    cases hpure
    obtain ⟨bs, n, hbs⟩ := (inverts_fields.definite state).written hrun
    rw [hbs newEncoder] at hrun
    obtain ⟨hbytes, hitems⟩ := Quota.Buffer.extend_eq_ok.1 hrun
    have hlength := b.length_le
    have hle := b.items_le
    have hbytes' : b.bytes = snapshotMagic ++ bs := hbytes
    have hitems' : b.items = 0 + n := hitems
    rw [hbytes'] at hlength ⊢
    rw [hitems'] at hle
    have hbs_le : bs.length ≤ limits.bytes := by
      rw [List.length_append] at hlength
      omega
    let s : Quota.Cursor limits := ⟨bs, 0, hbs_le, Nat.zero_le _⟩
    refine ⟨s, newDecoder_eq_ok.2 ⟨rfl, rfl, hlength⟩, ?_⟩
    rw [Result.bind_eq_ok]
    refine ⟨(state, ⟨[], 0 + n, Nat.zero_le _, hle⟩), ?_, rfl⟩
    exact (inverts_fields.run_iff ..).2 ⟨trivial, bs, n, hbs, (List.append_nil bs).symm, rfl⟩
  · rintro ⟨s, hopen, hrun⟩
    obtain ⟨rfl, hitems, hlength⟩ := newDecoder_eq_ok.1 hopen
    obtain ⟨⟨state', t⟩, hfields, hend⟩ := Result.bind_eq_ok.1 hrun
    split_ifs at hend with hempty
    cases hend
    obtain ⟨-, bs, n, hbs, hrest, hcount⟩ := (inverts_fields.run_iff ..).1 hfields
    rw [List.isEmpty_iff.1 hempty, List.append_nil] at hrest
    refine ⟨((), ⟨snapshotMagic ++ bs, n, ?_, ?_⟩), ?_, ?_⟩
    · rw [← hrest]
      exact hlength
    · have hle := t.items_le
      omega
    · rw [hbs newEncoder]
      exact Quota.Buffer.extend_eq_ok.2 ⟨rfl, (Nat.zero_add n).symm⟩
    · exact congrArg (fun rest => Except.ok (snapshotMagic ++ rest)) hrest.symm

/-- What follows a snapshot is not part of another one. -/
theorem eq_nil_of_decodeState_append {bytes more : List UInt8} {state state' : LoopState}
    (h : decodeState bytes = .ok state) (h' : decodeState (bytes ++ more) = .ok state') :
    more = [] := by
  obtain ⟨s, hopen, hrun⟩ := Result.bind_eq_ok.1 h
  obtain ⟨s', hopen', hrun'⟩ := Result.bind_eq_ok.1 h'
  obtain ⟨rfl, hitems, -⟩ := newDecoder_eq_ok.1 hopen
  obtain ⟨hbytes', hitems', -⟩ := newDecoder_eq_ok.1 hopen'
  rw [List.append_assoc] at hbytes'
  have hrest' : s'.rest = s.rest ++ more := (List.append_cancel_left hbytes').symm
  obtain ⟨⟨_, t⟩, hfields, hend⟩ := Result.bind_eq_ok.1 hrun
  obtain ⟨⟨_, t'⟩, hfields', hend'⟩ := Result.bind_eq_ok.1 hrun'
  split_ifs at hend with hempty
  split_ifs at hend' with hempty'
  obtain ⟨-, bs, n, hbs, hrest, hcount⟩ := (inverts_fields.run_iff ..).1 hfields
  rw [List.isEmpty_iff.1 hempty, List.append_nil] at hrest
  -- the first decoder would have stopped before what follows
  have hmore : more.length ≤ limits.bytes := by
    have hlength := s'.length_le
    rw [hrest', List.length_append] at hlength
    omega
  have hagain : decodeFields s' = .ok (_, ⟨more, t.items, hmore, t.items_le⟩) :=
    (inverts_fields.run_iff ..).2 ⟨trivial, bs, n, hbs, by rw [hrest', hrest],
      by rw [hitems', hcount, hitems]⟩
  rw [hfields'] at hagain
  cases hagain
  exact List.isEmpty_iff.1 hempty'

/-- **Snapshots are canonical and complete.**  The decoder accepts exactly the bytes that the
encoder writes and answers the state that was encoded, and a snapshot that was cut off anywhere, or
that something follows, is refused. -/
theorem snapshots_canonical :
    (∀ state bytes, encodeState state = .ok bytes ↔ decodeState bytes = .ok state) ∧
    ∀ state bytes, encodeState state = .ok bytes → ∀ more, more ≠ [] →
      (∀ front, bytes = front ++ more → decodeState front = .error .invalid) ∧
        decodeState (bytes ++ more) = .error .invalid := by
  have hinvalid : ∀ x : Except SnapshotError LoopState, (∀ s, x ≠ .ok s) → x = .error .invalid := by
    rintro (⟨⟨⟩⟩ | s) h
    · rfl
    · exact absurd rfl (h s)
  refine ⟨encodeState_eq_ok_iff_decodeState_eq_ok, fun state bytes h more hmore => ⟨?_, ?_⟩⟩
  · rintro front rfl
    refine hinvalid _ fun s hs => hmore ?_
    exact eq_nil_of_decodeState_append hs ((encodeState_eq_ok_iff_decodeState_eq_ok ..).1 h)
  · refine hinvalid _ fun s hs => hmore ?_
    exact eq_nil_of_decodeState_append ((encodeState_eq_ok_iff_decodeState_eq_ok ..).1 h) hs

end Snapshot

end MsgRiver.PhaseZero
