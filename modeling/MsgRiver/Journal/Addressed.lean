import MsgRiver.Journal.Clock
import MsgRiver.Journal.Envelope
import MsgRiver.Lib.Checked
import MsgRiver.Lib.Wire

/-!
# Addressed operations

Two operations of the control journal are addressed: acknowledging a clock hold and stopping a
process.  A checkpoint keeps two cells for each, one for the obligation that is still pending and
one for the last completion, and a record of the journal moves the pending one a step forward.

The values are validated where they are encoded and where they are decoded.  A request is written
without its heads, which are those of the record that carries it; `decode_encodeAddressedValue` and
`decode_encodeAddressedAction` read every encoding back.
-/

namespace MsgRiver.Journal

open Bytes Result Wire Ascii

/-- Why an image is not accepted, not written or not published. -/
inductive ControlJournalImageError
  | invalidControlJournalImage
  | unsupportedConstruction
  | writeFailed
  | publishUncertain
  deriving DecidableEq, Repr

export ControlJournalImageError (invalidControlJournalImage unsupportedConstruction)

instance : Refusal ControlJournalImageError := ⟨invalidControlJournalImage⟩

/-- `.map_err(|_| INVALID)`. -/
def orInvalid {ε α : Type} : Except ε α → Except ControlJournalImageError α
  | .ok a => .ok a
  | .error _ => .error invalidControlJournalImage

@[simp] theorem orInvalid_eq_ok {ε α : Type} {x : Except ε α} {a : α} :
    orInvalid x = .ok a ↔ x = .ok a := by
  cases x <;> simp [orInvalid]

/-! ### Values -/

/-- The operations that a principal addresses to a clock hold or to a process. -/
inductive AddressedOperation
  | clockAcknowledge
  | systemShutdown
  deriving DecidableEq, Repr

/-- Who asked for the operation. -/
inductive AddressedActor
  | stateOwner
  | principal (bytes : List UInt8)
  deriving DecidableEq

/-- What the operation is addressed to. -/
inductive AddressedOperationAddress
  | clockHold (generation : UInt64) (observationDigest : ByteVec 32)
  | processInstance (process : ByteVec 16)
  deriving DecidableEq

/-- What the operation is to bring about. -/
inductive DesiredMonotonicTransition
  | settleHold (riskAcknowledged : Bool)
  | stopProcess (graceMs : UInt32)
  deriving DecidableEq

/-- What was measured when the request was accepted. -/
inductive AddressedEvidence
  | acknowledge (acceptedWallTime acceptedMonotonicTick priorFixedSafeTime : Int64)
      (priorSelectedSafeTime : Option Int64) (targetSafeTime : Int64)
  | shutdown (acceptedMonotonicTick graceDeadlineTick : Int64)
  deriving DecidableEq

/-- How the operation ended. -/
inductive AddressedResult
  | acknowledge (settledSafeTime : Int64) (settled : Bool)
  | shutdown (ungracefulReason : UInt8)
  deriving DecidableEq

/-- What is known of the copy of the operation in the journal of its origin. -/
inductive AddressedMirror
  | notApplicable
  | pending (origin : ByteVec 32) (pre : JournalHead) (policy : UInt8)
  | committed (origin : ByteVec 32) (pre : JournalHead) (policy : UInt8) (post : JournalHead)
  deriving DecidableEq

/-- The state of an addressed operation, from the request to its last phase. -/
structure AddressedStateValue where
  actor : AddressedActor
  address : AddressedOperationAddress
  desiredTransition : DesiredMonotonicTransition
  evidence : AddressedEvidence
  phase : UInt8
  safeResult : AddressedResult
  applicationHead : JournalHead
  publicationHead : JournalHead
  mirror : AddressedMirror
  deriving DecidableEq

/-- A step of an addressed operation, as a record of the tail holds it. -/
inductive AddressedAction
  | publishRequest (value : AddressedStateValue)
  | publishPhase (phase : UInt8) (result : AddressedResult)
  | commitMirror (post : JournalHead)
  deriving DecidableEq

/-- A cell is absent (`none`) or present. -/
structure AddressedCell where
  operation : AddressedOperation
  current : Bool
  state : Option AddressedStateValue
  deriving DecidableEq

/-- The number of the operation in an encoded request. -/
def AddressedOperation.code : AddressedOperation → UInt16
  | .clockAcknowledge => 2
  | .systemShutdown => 3

/-- The cells of a checkpoint are numbered from zero to three. -/
instance neZeroFour : NeZero 4 := ⟨by decide⟩

/-- The pending cell of an operation; the cell of its last completion follows. -/
def AddressedOperation.slot : AddressedOperation → Fin 4
  | .clockAcknowledge => 0
  | .systemShutdown => 2

/-- The kind of the records of the operation. -/
def AddressedOperation.kind : AddressedOperation → ControlJournalRecordKind
  | .clockAcknowledge => .clockAcknowledge
  | .systemShutdown => .systemShutdown

/-- The copy has been announced only. -/
def AddressedMirror.isPending : AddressedMirror → Bool
  | .pending .. => true
  | _ => false

/-- The copy has been written. -/
def AddressedMirror.isCommitted : AddressedMirror → Bool
  | .committed .. => true
  | _ => false

/-- The origin that a mirror names. -/
def AddressedMirror.origin : AddressedMirror → Option (ByteVec 32)
  | .notApplicable => none
  | .pending origin .. => some origin
  | .committed origin .. => some origin

/-- Nothing is left to be done for the operation. -/
def addressedComplete (value : AddressedStateValue) : Bool :=
  3 ≤ value.phase && !value.mirror.isPending

/-- The address is the hold that the clock is under. -/
def addressedHoldMatches (clock : ClockAuthorityProjection) (address : AddressedOperationAddress) :
    Bool :=
  clock.hold.any fun hold => address == .clockHold hold.generation hold.observationDigest

/-! ### Validation -/

/-- The text that names the state owner in an encoded actor. -/
def stateOwnerActor : List UInt8 := utf8Bytes "msgriver/state-owner/v1"

/-- The bytes of a principal's name. -/
def validIdentifierByte (byte : UInt8) : Bool :=
  isAlphanumeric byte || (utf8Bytes "._:/-").contains byte

/-- `check_identifier`, and the same grammar in `validate_addressed_actor`. -/
def checkIdentifier (bytes : List UInt8) : Bool :=
  decide (1 ≤ bytes.length ∧ bytes.length ≤ 128) && isAlphanumeric (byteAt bytes 0)
    && bytes.all validIdentifierByte

/-- The state owner, or a principal with an admissible name. -/
def validAddressedActor : AddressedActor → Bool
  | .stateOwner => true
  | .principal bytes => checkIdentifier bytes

/-- The least safe time that an acknowledgement can settle on. -/
def acknowledgeTarget (wall priorFixed : Int64) (priorSelected : Option Int64) : Int64 :=
  max (max priorFixed wall) (priorSelected.getD priorFixed)

/-- Address, transition, evidence, result and phase belong to the operation and to each other. -/
def validSubject (operation : AddressedOperation) (value : AddressedStateValue) : Bool :=
  match operation, value.address, value.desiredTransition, value.evidence, value.safeResult with
  | .clockAcknowledge, .clockHold generation digest, .settleHold true,
      .acknowledge wall tick priorFixed priorSelected target, .acknowledge settledTime settled =>
    !(generation == 0 || digest == ByteVec.zero 32 || decide (tick < 0)
      || target != acknowledgeTarget wall priorFixed priorSelected
      || settledTime != acknowledgeTarget wall priorFixed priorSelected
      || !(decide (1 ≤ value.phase ∧ value.phase ≤ 3))
      || settled != (value.phase == 3)
      || priorSelected.isNone != (value.mirror == .notApplicable))
  | .systemShutdown, .processInstance process, .stopProcess graceMs,
      .shutdown tick deadline, .shutdown reason =>
    !(process == ByteVec.zero 16 || graceMs == 0 || decide (tick < 0)
      || Checked.checkedAdd tick (Int64.ofNat graceMs.toNat) != some deadline
      || !(decide (1 ≤ value.phase ∧ value.phase ≤ 4))
      || (if value.phase == 4 then !(decide (1 ≤ reason ∧ reason ≤ 4)) else reason != 0))
  | _, _, _, _, _ => false

/-- Origin, predecessor and policy of a mirror. -/
def validMirrorBase (operation : AddressedOperation) (origin : ByteVec 32) (pre : JournalHead)
    (policy : UInt8) : Bool :=
  !(zeroSerial origin || pre.digest == ByteVec.zero 32
    || !(match operation with
      | .clockAcknowledge => policy == 1 || policy == 2
      | .systemShutdown => policy == 3))

/-- The mirror fits the operation, and its heads the ones of the value. -/
def validMirror (operation : AddressedOperation) (value : AddressedStateValue) : Bool :=
  match value.mirror with
  | .notApplicable => true
  | .pending origin pre policy =>
    validMirrorBase operation origin pre policy
      && !(operation == .clockAcknowledge && value.phase == 3)
  | .committed origin pre policy post =>
    validMirrorBase operation origin pre policy
      && !(decide (value.phase < 3) || decide (post.sequence ≤ pre.sequence)
        || post.digest == ByteVec.zero 32)

/-- The publication head is not before the application head, and only the receipt of a shutdown puts
it behind. -/
def validHeads (operation : AddressedOperation) (value : AddressedStateValue) : Bool :=
  let application := value.applicationHead
  let publication := value.publicationHead
  let receipt := operation == .systemShutdown && value.mirror.isCommitted
  !(application.sequence == 0 || application.digest == ByteVec.zero 32
    || publication.sequence == 0 || publication.digest == ByteVec.zero 32
    || decide (publication.sequence < application.sequence)
    || (application.sequence == publication.sequence && application.digest != publication.digest))
  && !((receipt && decide (publication.sequence ≤ application.sequence))
    || (!receipt && application != publication))

/-- All that `validate_addressed_value` checks. -/
def validAddressedValue (operation : AddressedOperation) (value : AddressedStateValue) : Bool :=
  validAddressedActor value.actor && validSubject operation value && validMirror operation value
    && validHeads operation value

/-- `validate_addressed_value`. -/
def validateAddressedValue (operation : AddressedOperation) (value : AddressedStateValue) :
    Except ControlJournalImageError Unit :=
  reject (!validAddressedValue operation value) invalidControlJournalImage

/-! ### Encoders -/

/-- The fields of a head. -/
def headFields (head : JournalHead) : List (List UInt8) :=
  [wire head.sequence, head.digest.toList]

/-- The fields of a result, under the number of its codec. -/
def encodeAddressedResult : AddressedResult → List (List UInt8)
  | .acknowledge settledSafeTime settled =>
    [wire (0x77 : UInt16), wire (1 : UInt16), wire (9 : UInt16), wire settledSafeTime,
      wire (presence settled)]
  | .shutdown ungracefulReason =>
    [wire (0x78 : UInt16), wire (1 : UInt16), wire (1 : UInt16), wire ungracefulReason]

/-- The kind and the bytes of an actor. -/
def actorParts : AddressedActor → UInt8 × List UInt8
  | .stateOwner => (2, stateOwnerActor)
  | .principal bytes => (1, bytes)

/-- The fields of an address. -/
def addressFields : AddressedOperationAddress → List (List UInt8)
  | .clockHold generation observationDigest => [wire generation, observationDigest.toList]
  | .processInstance process => [process.toList]

/-- The fields of a transition. -/
def transitionFields : DesiredMonotonicTransition → List (List UInt8)
  | .settleHold riskAcknowledged => [wire (presence riskAcknowledged)]
  | .stopProcess graceMs => [wire graceMs]

/-- The fields of the evidence. -/
def evidenceFields : AddressedEvidence → List (List UInt8)
  | .acknowledge acceptedWallTime acceptedMonotonicTick priorFixedSafeTime priorSelectedSafeTime
      targetSafeTime =>
    [wire acceptedWallTime, wire acceptedMonotonicTick, wire priorFixedSafeTime,
      wire (presence priorSelectedSafeTime.isSome)]
    ++ (priorSelectedSafeTime.map wire).toList ++ [wire targetSafeTime]
  | .shutdown acceptedMonotonicTick graceDeadlineTick =>
    [wire acceptedMonotonicTick, wire graceDeadlineTick]

/-- The fields of a mirror, after a byte that says which one it is. -/
def mirrorStateFields : AddressedMirror → List (List UInt8)
  | .notApplicable => [wire (0 : UInt8)]
  | .pending origin pre policy =>
    [wire (1 : UInt8), origin.toList] ++ headFields pre ++ [wire policy]
  | .committed origin pre policy post =>
    [wire (2 : UInt8), origin.toList] ++ headFields pre ++ [wire policy] ++ headFields post

/-- The fields of a value, in the order in which they are written. -/
def addressedFields (operation : AddressedOperation) (value : AddressedStateValue)
    (actorLength : UInt8) (withHeads : Bool) : List (List UInt8) :=
  [wire (1 : UInt8), wire operation.code, wire (actorParts value.actor).1, wire actorLength,
    (actorParts value.actor).2]
  ++ addressFields value.address ++ [wire (1 : UInt8)] ++ transitionFields value.desiredTransition
  ++ evidenceFields value.evidence ++ [wire value.phase] ++ encodeAddressedResult value.safeResult
  ++ (if withHeads then headFields value.applicationHead ++ headFields value.publicationHead else [])
  ++ mirrorStateFields value.mirror

/-- `encode_addressed_value`.  Without heads it is the text of a request. -/
def encodeAddressedValue (operation : AddressedOperation) (value : AddressedStateValue)
    (withHeads : Bool) : Except ControlJournalImageError (List UInt8) := do
  validateAddressedValue operation value
  let actorLength ←
    orError invalidControlJournalImage (ofNat? (actorParts value.actor).2.length)
  written 426 (addressedFields operation value actorLength withHeads)

/-- The tag and the fields of the payload of an action. -/
def actionPayload (operation : AddressedOperation) :
    AddressedAction → Except ControlJournalImageError (UInt8 × List (List UInt8))
  | .publishRequest value => do
    reject (value.phase != 1 || value.mirror.isCommitted) invalidControlJournalImage
    let bytes ← encodeAddressedValue operation value false
    return (1, [bytes])
  | .publishPhase phase result => .ok (2, wire phase :: encodeAddressedResult result)
  | .commitMirror post => .ok (3, headFields post)

/-- `encode_addressed_action`: a tag, the length of the payload, and the payload. -/
def encodeAddressedAction (operation : AddressedOperation) (action : AddressedAction) :
    Except ControlJournalImageError (List UInt8) := do
  let (tag, fields) ← actionPayload operation action
  let payload ← written 306 fields
  let length ← orError invalidControlJournalImage (ofNat? payload.length : Option UInt16)
  written 310 [wire (1 : UInt8), wire tag, wire length, payload]

/-! ### Decoders -/

/-- A decoder of the journal image. -/
abbrev ImageReader := Wire.Reader ControlJournalImageError

/-- Reads a head. -/
def decodeHead : ImageReader JournalHead := do
  let sequence ← int
  let digest ← array 32
  return ⟨sequence, digest⟩

/-- A presence byte. -/
def readPresence : ImageReader Bool := do
  let tag ← int
  liftM (presenceTag invalidControlJournalImage tag)

/-- Reads the result of an operation. -/
def decodeAddressedResult : AddressedOperation → ImageReader AddressedResult
  | .clockAcknowledge => do
    let codec : UInt16 ← int
    let version : UInt16 ← int
    let width : UInt16 ← int
    require (codec == 0x77 && version == 1 && width == 9)
    let settledSafeTime ← int
    let settled ← readPresence
    return .acknowledge settledSafeTime settled
  | .systemShutdown => do
    let codec : UInt16 ← int
    let version : UInt16 ← int
    let width : UInt16 ← int
    require (codec == 0x78 && version == 1 && width == 1)
    let ungracefulReason ← int
    return .shutdown ungracefulReason

/-- The actor with the given kind and bytes. -/
def actorOf (kind : UInt8) (bytes : List UInt8) : Except ControlJournalImageError AddressedActor :=
  if kind = 1 then .ok (.principal bytes)
  else if kind = 2 ∧ bytes = stateOwnerActor then .ok .stateOwner
  else .error invalidControlJournalImage

/-- Reads an actor, whose name has a length of 1 to 128. -/
def readActor : ImageReader AddressedActor := do
  let kind : UInt8 ← int
  let length : UInt8 ← int
  require (decide (1 ≤ length.toNat ∧ length.toNat ≤ 128))
  let bytes ← take length.toNat
  let actor ← actorOf kind bytes
  require (validAddressedActor actor)
  return actor

/-- Reads an address of the kind that the operation has. -/
def readAddress : AddressedOperation → ImageReader AddressedOperationAddress
  | .clockAcknowledge => do
    let generation ← int
    let observationDigest ← array 32
    return .clockHold generation observationDigest
  | .systemShutdown => do
    let process ← array 16
    return .processInstance process

/-- Reads a transition of the kind that the operation has. -/
def readTransition : AddressedOperation → ImageReader DesiredMonotonicTransition
  | .clockAcknowledge => do
    let risk : UInt8 ← int
    require (risk == 1)
    return .settleHold true
  | .systemShutdown => do
    let graceMs ← int
    return .stopProcess graceMs

/-- A value behind its presence byte. -/
def readOptional (present : Bool) : ImageReader (Option Int64) :=
  if present then do
    let time ← int
    return some time
  else pure none

/-- Reads the evidence of the kind that the operation has. -/
def readEvidence : AddressedOperation → ImageReader AddressedEvidence
  | .clockAcknowledge => do
    let acceptedWallTime ← int
    let acceptedMonotonicTick ← int
    let priorFixedSafeTime ← int
    let present ← readPresence
    let priorSelectedSafeTime ← readOptional present
    let targetSafeTime ← int
    return .acknowledge acceptedWallTime acceptedMonotonicTick priorFixedSafeTime
      priorSelectedSafeTime targetSafeTime
  | .systemShutdown => do
    let acceptedMonotonicTick ← int
    let graceDeadlineTick ← int
    return .shutdown acceptedMonotonicTick graceDeadlineTick

/-- The two heads: those of the record for a request, and on the wire otherwise. -/
def readHeads : Option JournalHead → ImageReader (JournalHead × JournalHead)
  | some head => pure (head, head)
  | none => do
    let application ← decodeHead
    let publication ← decodeHead
    return (application, publication)

/-- The mirror behind the given tag. -/
def mirrorBehind (tag : UInt8) : ImageReader AddressedMirror :=
  if tag = 0 then pure .notApplicable
  else if tag = 1 then do
    let origin ← array 32
    let pre ← decodeHead
    let policy ← int
    return .pending origin pre policy
  else if tag = 2 then do
    let origin ← array 32
    let pre ← decodeHead
    let policy ← int
    let post ← decodeHead
    return .committed origin pre policy post
  else fail

/-- Reads a mirror. -/
def readMirrorState : ImageReader AddressedMirror := do
  let tag ← int
  mirrorBehind tag

/-- The fields of a value, up to the end. -/
def readAddressedValue (operation : AddressedOperation) (requestHead : Option JournalHead) :
    ImageReader AddressedStateValue := do
  let version : UInt8 ← int
  require (version == 1)
  let code : UInt16 ← int
  require (code == operation.code)
  let actor ← readActor
  let address ← readAddress operation
  let transitionVersion : UInt8 ← int
  require (transitionVersion == 1)
  let desiredTransition ← readTransition operation
  let evidence ← readEvidence operation
  let phase ← int
  let safeResult ← decodeAddressedResult operation
  let heads ← readHeads requestHead
  let mirror ← readMirrorState
  return ⟨actor, address, desiredTransition, evidence, phase, safeResult, heads.1, heads.2, mirror⟩

/-- `decode_addressed_value`: at most 426 bytes, all of them read, and the value is checked again.
-/
def decodeAddressedValue (operation : AddressedOperation) (bytes : List UInt8)
    (requestHead : Option JournalHead) : Except ControlJournalImageError AddressedStateValue := do
  reject (decide (426 < bytes.length)) invalidControlJournalImage
  let value ← readAll (readAddressedValue operation requestHead) bytes
  validateAddressedValue operation value
  return value

/-- Tag and payload of an action. -/
def readAction : ImageReader (UInt8 × List UInt8) := do
  let version : UInt8 ← int
  require (version == 1)
  let tag ← int
  let length : UInt16 ← int
  let payload ← take length.toNat
  return (tag, payload)

/-- Reads the payload of a phase. -/
def readPhase (operation : AddressedOperation) : ImageReader AddressedAction := do
  let phase ← int
  let result ← decodeAddressedResult operation
  return .publishPhase phase result

/-- Reads the payload of a committed mirror. -/
def readCommit : ImageReader AddressedAction := do
  let post ← decodeHead
  return .commitMirror post

/-- The action with the given tag and payload. -/
def actionOf (operation : AddressedOperation) (head : JournalHead) (tag : UInt8)
    (payload : List UInt8) : Except ControlJournalImageError AddressedAction :=
  if tag = 1 then do
    let value ← decodeAddressedValue operation payload (some head)
    return .publishRequest value
  else if tag = 2 then readAll (readPhase operation) payload
  else if tag = 3 then readAll readCommit payload
  else .error invalidControlJournalImage

/-- `decode_addressed_action`: what was read has to be encoded as the same bytes. -/
def decodeAddressedAction (operation : AddressedOperation) (bytes : List UInt8)
    (head : JournalHead) : Except ControlJournalImageError AddressedAction := do
  let (tag, payload) ← readAll readAction bytes
  let action ← actionOf operation head tag payload
  let again ← encodeAddressedAction operation action
  reject (again != bytes) invalidControlJournalImage
  return action

/-! ### The operation of a component -/

/-- The operation that has such addresses. -/
def AddressedOperationAddress.operation : AddressedOperationAddress → AddressedOperation
  | .clockHold .. => .clockAcknowledge
  | .processInstance _ => .systemShutdown

/-- The operation that desires such transitions. -/
def DesiredMonotonicTransition.operation : DesiredMonotonicTransition → AddressedOperation
  | .settleHold _ => .clockAcknowledge
  | .stopProcess _ => .systemShutdown

/-- The operation that rests on such evidence. -/
def AddressedEvidence.operation : AddressedEvidence → AddressedOperation
  | .acknowledge .. => .clockAcknowledge
  | .shutdown .. => .systemShutdown

/-- The operation that has such results. -/
def AddressedResult.operation : AddressedResult → AddressedOperation
  | .acknowledge .. => .clockAcknowledge
  | .shutdown _ => .systemShutdown

/-- The parts of a value belong to one operation. -/
structure OfOperation (operation : AddressedOperation) (value : AddressedStateValue) : Prop where
  address : value.address.operation = operation
  transition : value.desiredTransition.operation = operation
  settles : value.desiredTransition ≠ .settleHold false
  evidence : value.evidence.operation = operation
  result : value.safeResult.operation = operation

theorem ofOperation_of_validSubject {operation : AddressedOperation} {value : AddressedStateValue}
    (h : validSubject operation value = true) : OfOperation operation value := by
  unfold validSubject at h
  split at h
  · constructor <;> simp_all [AddressedOperationAddress.operation,
      DesiredMonotonicTransition.operation, AddressedEvidence.operation, AddressedResult.operation]
  · constructor <;> simp_all [AddressedOperationAddress.operation,
      DesiredMonotonicTransition.operation, AddressedEvidence.operation, AddressedResult.operation]
  · cases h

/-- An acknowledgement has three phases and a shutdown has four. -/
def AddressedOperation.lastPhase : AddressedOperation → ℕ
  | .clockAcknowledge => 3
  | .systemShutdown => 4

theorem phase_le_of_validSubject {operation : AddressedOperation} {value : AddressedStateValue}
    (h : validSubject operation value = true) : value.phase.toNat ≤ operation.lastPhase := by
  unfold validSubject at h
  split at h
  · simp only [Bool.not_eq_true', Bool.or_eq_false_iff, Bool.not_eq_false', decide_eq_true_eq] at h
    exact UInt8.le_iff_toNat_le.1 h.1.1.2.2
  · simp only [Bool.not_eq_true', Bool.or_eq_false_iff, Bool.not_eq_false', decide_eq_true_eq] at h
    exact UInt8.le_iff_toNat_le.1 h.1.2.2
  · cases h

theorem validAddressedValue_iff {operation : AddressedOperation} {value : AddressedStateValue} :
    validAddressedValue operation value = true ↔ validAddressedActor value.actor = true ∧
      validSubject operation value = true ∧ validMirror operation value = true ∧
      validHeads operation value = true := by
  simp only [validAddressedValue, Bool.and_eq_true, and_assoc]

theorem validateAddressedValue_eq_ok {operation : AddressedOperation} {value : AddressedStateValue}
    {u : Unit} :
    validateAddressedValue operation value = .ok u ↔
      validAddressedValue operation value = true := by
  rw [validateAddressedValue, reject_eq_ok, Bool.not_eq_false']

/-! ### Reading values back -/

theorem parses_decodeHead (head : JournalHead) : Parses decodeHead (headFields head).flatten head :=
  (parses_int _).cons ((parses_array _).cons (parses_pure _))

theorem parses_readPresence (present : Bool) :
    Parses readPresence (wire (presence present)) present := by
  have h : Parses readPresence (wire (presence present) ++ []) present :=
    (parses_int _).bind (parses_lift (presenceTag_eq_ok.2 rfl))
  rwa [List.append_nil] at h

theorem parses_decodeAddressedResult (result : AddressedResult) :
    Parses (decodeAddressedResult result.operation) (encodeAddressedResult result).flatten
      result := by
  cases result with
  | acknowledge settledSafeTime settled =>
    exact (parses_int _).cons ((parses_int _).cons ((parses_int _).cons
      ((parses_require rfl).bind_nil ((parses_int _).cons
        ((parses_readPresence _).cons (parses_pure _))))))
  | shutdown ungracefulReason =>
    exact (parses_int _).cons ((parses_int _).cons ((parses_int _).cons
      ((parses_require rfl).bind_nil ((parses_int _).cons (parses_pure _)))))

theorem parses_readAddress (address : AddressedOperationAddress) :
    Parses (readAddress address.operation) (addressFields address).flatten address := by
  cases address with
  | clockHold generation observationDigest =>
    exact (parses_int _).cons ((parses_array _).cons (parses_pure _))
  | processInstance process => exact (parses_array _).cons (parses_pure _)

theorem parses_readTransition {transition : DesiredMonotonicTransition}
    (h : transition ≠ .settleHold false) :
    Parses (readTransition transition.operation) (transitionFields transition).flatten
      transition := by
  cases transition with
  | settleHold riskAcknowledged =>
    cases riskAcknowledged with
    | false => exact absurd rfl h
    | true => exact (parses_int _).cons ((parses_require rfl).bind_nil (parses_pure _))
  | stopProcess graceMs => exact (parses_int _).cons (parses_pure _)

theorem parses_readOptional (time : Option Int64) :
    Parses (readOptional time.isSome) (time.map wire).toList.flatten time := by
  cases time with
  | none => exact parses_pure _
  | some time => exact (parses_int _).cons (parses_pure _)

theorem parses_readEvidence (evidence : AddressedEvidence) :
    Parses (readEvidence evidence.operation) (evidenceFields evidence).flatten evidence := by
  cases evidence with
  | acknowledge acceptedWallTime acceptedMonotonicTick priorFixedSafeTime priorSelectedSafeTime
      targetSafeTime =>
    simp only [evidenceFields, List.cons_append, List.nil_append]
    exact (parses_int _).cons ((parses_int _).cons ((parses_int _).cons
      ((parses_readPresence _).cons ((parses_readOptional _).append
        ((parses_int _).cons (parses_pure _))))))
  | shutdown acceptedMonotonicTick graceDeadlineTick =>
    exact (parses_int _).cons ((parses_int _).cons (parses_pure _))

theorem parses_readMirrorState (mirror : AddressedMirror) :
    Parses readMirrorState (mirrorStateFields mirror).flatten mirror := by
  cases mirror with
  | notApplicable => exact (parses_int _).cons (parses_pure _)
  | pending origin pre policy =>
    simp only [mirrorStateFields, List.cons_append, List.nil_append]
    exact (parses_int _).cons ((parses_array _).cons ((parses_decodeHead _).append
      ((parses_int _).cons (parses_pure _))))
  | committed origin pre policy post =>
    simp only [mirrorStateFields, List.cons_append, List.nil_append, List.append_assoc]
    exact (parses_int _).cons ((parses_array _).cons ((parses_decodeHead _).append
      ((parses_int _).cons (parses_decodeHead _).map)))

theorem length_checkIdentifier {bytes : List UInt8} (h : checkIdentifier bytes = true) :
    1 ≤ bytes.length ∧ bytes.length ≤ 128 := by
  simp only [checkIdentifier, Bool.and_eq_true, decide_eq_true_eq] at h
  exact h.1.1

@[simp] theorem length_stateOwnerActor : stateOwnerActor.length = 23 := by decide +kernel

theorem length_actorParts {actor : AddressedActor} (h : validAddressedActor actor = true) :
    1 ≤ (actorParts actor).2.length ∧ (actorParts actor).2.length ≤ 128 := by
  cases actor with
  | stateOwner => simp [actorParts]
  | principal bytes => exact length_checkIdentifier h

theorem actorOf_actorParts (actor : AddressedActor) :
    actorOf (actorParts actor).1 (actorParts actor).2 = .ok actor := by
  cases actor with
  | stateOwner => simp [actorOf, actorParts]
  | principal bytes => rfl

theorem parses_readActor {actor : AddressedActor} {length : UInt8}
    (hvalid : validAddressedActor actor = true)
    (hlength : length.toNat = (actorParts actor).2.length) :
    Parses readActor
      [wire (actorParts actor).1, wire length, (actorParts actor).2].flatten actor := by
  have hbounds := length_actorParts hvalid
  refine (parses_int _).cons ((parses_int _).cons ((parses_require ?_).bind_nil
    ((parses_take hlength.symm).cons ((parses_lift (actorOf_actorParts actor)).bind_nil
      ((parses_require hvalid).bind_nil (parses_pure _))))))
  rw [decide_eq_true_eq, hlength]
  exact hbounds

/-- The heads that a reader answers: those of the request, or those on the wire. -/
def HeadsAgree (value : AddressedStateValue) : Option JournalHead → Prop
  | some head => value.applicationHead = head ∧ value.publicationHead = head
  | none => True

theorem parses_readHeads {value : AddressedStateValue} {requestHead : Option JournalHead}
    (h : HeadsAgree value requestHead) :
    Parses (readHeads requestHead)
      (if requestHead.isNone then
        headFields value.applicationHead ++ headFields value.publicationHead else []).flatten
      (value.applicationHead, value.publicationHead) := by
  cases requestHead with
  | none =>
    show Parses _ (headFields value.applicationHead ++ headFields value.publicationHead).flatten _
    exact (parses_decodeHead _).append (parses_decodeHead _).map
  | some head =>
    obtain ⟨h1, h2⟩ := h
    rw [h1, h2]
    exact parses_pure _

theorem parses_readAddressedValue {operation : AddressedOperation} {value : AddressedStateValue}
    {actorLength : UInt8} {requestHead : Option JournalHead}
    (hactor : validAddressedActor value.actor = true)
    (hlength : actorLength.toNat = (actorParts value.actor).2.length)
    (hof : OfOperation operation value) (hheads : HeadsAgree value requestHead) :
    Parses (readAddressedValue operation requestHead)
      (addressedFields operation value actorLength requestHead.isNone).flatten value := by
  have hsplit : addressedFields operation value actorLength requestHead.isNone =
      wire (1 : UInt8) :: wire operation.code ::
        ([wire (actorParts value.actor).1, wire actorLength, (actorParts value.actor).2] ++
        (addressFields value.address ++ (wire (1 : UInt8) ::
        (transitionFields value.desiredTransition ++ (evidenceFields value.evidence ++
        (wire value.phase :: (encodeAddressedResult value.safeResult ++
        ((if requestHead.isNone then
          headFields value.applicationHead ++ headFields value.publicationHead else []) ++
        mirrorStateFields value.mirror)))))))) := by
    simp only [addressedFields, List.cons_append, List.nil_append, List.append_assoc]
  have haddress := hof.address ▸ parses_readAddress value.address
  have htransition := hof.transition ▸ parses_readTransition hof.settles
  have hevidence := hof.evidence ▸ parses_readEvidence value.evidence
  have hresult := hof.result ▸ parses_decodeAddressedResult value.safeResult
  rw [hsplit]
  exact (parses_int _).cons ((parses_require rfl).bind_nil ((parses_int _).cons
    ((parses_require (by rw [beq_self_eq_true])).bind_nil ((parses_readActor hactor hlength).append
      (haddress.append ((parses_int _).cons ((parses_require rfl).bind_nil (htransition.append
        (hevidence.append ((parses_int _).cons (hresult.append ((parses_readHeads hheads).append
          (parses_readMirrorState _).map))))))))))))

theorem encodeAddressedValue_eq_ok {operation : AddressedOperation} {value : AddressedStateValue}
    {withHeads : Bool} {bytes : List UInt8} :
    encodeAddressedValue operation value withHeads = .ok bytes ↔
      validAddressedValue operation value = true ∧ ∃ actorLength : UInt8,
        actorLength.toNat = (actorParts value.actor).2.length ∧
        (addressedFields operation value actorLength withHeads).flatten = bytes ∧
        bytes.length ≤ 426 := by
  simp only [encodeAddressedValue, bind_eq_ok, validateAddressedValue_eq_ok, exists_const,
    orError_eq_ok, ofNat?_eq_some, written_eq_ok]
  constructor
  · rintro ⟨hvalid, length, hlength, rfl, hfit⟩
    exact ⟨hvalid, length, hlength, rfl, hfit⟩
  · rintro ⟨hvalid, length, hlength, rfl, hfit⟩
    exact ⟨hvalid, length, hlength, rfl, hfit⟩

/-- **Every encoding of a value is read back.** -/
theorem decode_encodeAddressedValue {operation : AddressedOperation} {value : AddressedStateValue}
    {requestHead : Option JournalHead} {bytes : List UInt8}
    (h : encodeAddressedValue operation value requestHead.isNone = .ok bytes)
    (hheads : HeadsAgree value requestHead) :
    decodeAddressedValue operation bytes requestHead = .ok value := by
  obtain ⟨hvalid, length, hlength, rfl, hfit⟩ := encodeAddressedValue_eq_ok.1 h
  obtain ⟨hactor, hsubject, -, -⟩ := validAddressedValue_iff.1 hvalid
  have hparses := parses_readAddressedValue hactor hlength (ofOperation_of_validSubject hsubject)
    hheads
  refine reject_bind_eq_ok.2 ⟨by rw [decide_eq_false_iff_not]; omega, ?_⟩
  refine bind_eq_ok.2 ⟨value, hparses.readAll, ?_⟩
  exact bind_eq_ok.2 ⟨(), validateAddressedValue_eq_ok.2 hvalid, rfl⟩

/-! ### Reading actions back -/

/-- An action as the record at `head` carries it: a request has that head, and a phase has a result
of the operation. -/
def ActionAgrees (operation : AddressedOperation) (head : JournalHead) : AddressedAction → Prop
  | .publishRequest value => value.applicationHead = head ∧ value.publicationHead = head
  | .publishPhase _ result => result.operation = operation
  | .commitMirror _ => True

theorem actionOf_payload {operation : AddressedOperation} {head : JournalHead}
    {action : AddressedAction} {tag : UInt8} {fields : List (List UInt8)}
    (hagrees : ActionAgrees operation head action)
    (h : actionPayload operation action = .ok (tag, fields)) :
    actionOf operation head tag fields.flatten = .ok action := by
  cases action with
  | publishRequest value =>
    obtain ⟨-, h⟩ := reject_bind_eq_ok.1 h
    obtain ⟨bytes, hbytes, h⟩ := bind_eq_ok.1 h
    cases h
    have hdecode : decodeAddressedValue operation bytes (some head) = .ok value :=
      decode_encodeAddressedValue hbytes hagrees
    rw [List.flatten_singleton]
    exact bind_eq_ok.2 ⟨value, hdecode, rfl⟩
  | publishPhase phase result =>
    cases h
    obtain rfl : result.operation = operation := hagrees
    have hparses : Parses (readPhase result.operation)
        (wire phase :: encodeAddressedResult result).flatten (.publishPhase phase result) :=
      (parses_int _).cons (parses_decodeAddressedResult result).map
    exact hparses.readAll
  | commitMirror post =>
    cases h
    have hparses : Parses readCommit (headFields post).flatten (.commitMirror post) :=
      (parses_decodeHead _).map
    exact hparses.readAll

/-- **Every encoding of an action is read back**, with the heads that the wire omits. -/
theorem decode_encodeAddressedAction {operation : AddressedOperation} {head : JournalHead}
    {action : AddressedAction} {bytes : List UInt8}
    (h : encodeAddressedAction operation action = .ok bytes)
    (hagrees : ActionAgrees operation head action) :
    decodeAddressedAction operation bytes head = .ok action := by
  have hencode := h
  obtain ⟨⟨tag, fields⟩, hpayload, h⟩ := bind_eq_ok.1 h
  obtain ⟨payload, hwritten, h⟩ := bind_eq_ok.1 h
  obtain ⟨length, hlength, h⟩ := orError_bind_eq_ok.1 h
  obtain ⟨rfl, -⟩ := written_eq_ok.1 hwritten
  obtain ⟨rfl, -⟩ := written_eq_ok.1 h
  have hparses : Parses readAction
      [wire (1 : UInt8), wire tag, wire length, fields.flatten].flatten (tag, fields.flatten) :=
    (parses_int _).cons ((parses_require rfl).bind_nil ((parses_int _).cons ((parses_int _).cons
      ((parses_take (ofNat?_eq_some.1 hlength).symm).cons (parses_pure _)))))
  refine bind_eq_ok.2 ⟨(tag, fields.flatten), hparses.readAll, ?_⟩
  refine bind_eq_ok.2 ⟨action, actionOf_payload hagrees hpayload, ?_⟩
  refine bind_eq_ok.2 ⟨_, hencode, ?_⟩
  exact reject_bind_eq_ok.2 ⟨bne_self_eq_false _, rfl⟩

/-- A decoded action encodes to the bytes it was read from. -/
theorem encode_of_decodeAddressedAction {operation : AddressedOperation} {head : JournalHead}
    {action : AddressedAction} {bytes : List UInt8}
    (h : decodeAddressedAction operation bytes head = .ok action) :
    encodeAddressedAction operation action = .ok bytes := by
  obtain ⟨⟨tag, payload⟩, -, h⟩ := bind_eq_ok.1 h
  obtain ⟨action', -, h⟩ := bind_eq_ok.1 h
  obtain ⟨again, hagain, h⟩ := bind_eq_ok.1 h
  obtain ⟨hsame, h⟩ := reject_bind_eq_ok.1 h
  obtain rfl := Except.ok.inj h
  rw [bne_eq_false_iff_eq] at hsame
  rw [← hsame]
  exact hagain

/-! ### The length of a value -/

@[simp] theorem sum_length_headFields (head : JournalHead) :
    ((headFields head).map List.length).sum = 40 := by
  simp [headFields]

theorem length_mirrorStateFields (mirror : AddressedMirror) :
    (mirrorStateFields mirror).flatten.length ≤ 114 := by
  cases mirror <;> simp [mirrorStateFields]

/-- The parts that depend on the operation. -/
theorem length_operationFields {operation : AddressedOperation} {value : AddressedStateValue}
    (h : OfOperation operation value) :
    (addressFields value.address).flatten.length +
      (transitionFields value.desiredTransition).flatten.length +
      (evidenceFields value.evidence).flatten.length +
      (encodeAddressedResult value.safeResult).flatten.length ≤ 97 := by
  obtain ⟨h1, h2, -, h3, h4⟩ := h
  subst h1
  cases haddress : value.address <;> cases htransition : value.desiredTransition <;>
    cases hevidence : value.evidence <;> cases hresult : value.safeResult <;>
    simp_all [AddressedOperationAddress.operation, DesiredMonotonicTransition.operation,
      AddressedEvidence.operation, AddressedResult.operation, addressFields, transitionFields,
      evidenceFields, encodeAddressedResult]
  rename_i selected _ _ _
  cases selected <;> simp

/-- The cap on values never binds: a valid value can be encoded. -/
theorem exists_encodeAddressedValue {operation : AddressedOperation} {value : AddressedStateValue}
    (hvalid : validAddressedValue operation value = true) (withHeads : Bool) :
    ∃ bytes, encodeAddressedValue operation value withHeads = .ok bytes := by
  obtain ⟨hactor, hsubject, -, -⟩ := validAddressedValue_iff.1 hvalid
  have hbounds := length_actorParts hactor
  have hparts := length_operationFields (ofOperation_of_validSubject hsubject)
  have hmirror := length_mirrorStateFields value.mirror
  have hlength : (UInt8.ofNat (actorParts value.actor).2.length).toNat =
      (actorParts value.actor).2.length := by
    rw [UInt8.toNat_ofNat']
    omega
  refine ⟨_, encodeAddressedValue_eq_ok.2 ⟨hvalid, _, hlength, rfl, ?_⟩⟩
  have hheads : (if withHeads then
      headFields value.applicationHead ++ headFields value.publicationHead else []).flatten.length
        ≤ 80 := by
    cases withHeads <;> simp
  simp only [addressedFields, List.flatten_append, List.length_append, List.flatten_cons,
    List.flatten_nil, length_wire_u8, length_wire_u16, List.length_nil]
  omega

end MsgRiver.Journal
