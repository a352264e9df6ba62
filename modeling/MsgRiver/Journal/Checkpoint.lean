import MsgRiver.Journal.Members
import Mathlib.Data.Fin.VecNotation
import Mathlib.Data.Fintype.Basic

/-!
# Checkpoints

A checkpoint is the complete projection of the journal at one head: thirteen tagged members, among
them the four addressed cells.  `validateCheckpoint` is the check that both codec directions and
every step of the replay make.

`decode_encodeCheckpoint` reads every encoding back, and `exists_encodeCheckpoint` says that none of
the caps on the members can bind: a valid checkpoint whose pointer, ring and commands have an
encoding has one as a whole.
-/

namespace MsgRiver.Journal

open Bytes Result Wire Ascii

/-! ### Commands -/

/-- What a key of the state is used for. -/
inductive MacPurpose
  | apiKeyVerifyV1
  | idempotencyLookupV1
  | idempotencyFingerprintV1
  | replayLookupV1
  | replayFingerprintV1
  | commandLookupV1
  | commandSemanticFingerprintV1
  | commandPhaseFingerprintV1
  | retryJitterV1
  | artifactInternalAuthV1
  | portableReservationV1
  deriving DecidableEq, Repr

/-- A key, under the purpose that it is used for. -/
structure MacKeyRef where
  purpose : MacPurpose
  keyId : ByteVec 40
  deriving DecidableEq

/-- A tag, and the key that made it. -/
structure CommandTag where
  key : MacKeyRef
  tag : ByteVec 32
  deriving DecidableEq

/-- The mode in which a command was accepted. -/
inductive CommandRuntime
  | normal
  | maintenance
  deriving DecidableEq, Repr

/-- Whether a command goes on, or has ended and is kept until a time. -/
inductive CommandRetention
  | continuation
  | terminal (terminalTime expiresAt : Int64)
  deriving DecidableEq

/-- The result that may be disclosed: its codec and its digest. -/
structure CommandSafeResult where
  codec : UInt16
  version : UInt16
  digest : ByteVec 32
  deriving DecidableEq

/-- The head of another journal, with the digest of its certificate. -/
structure CommandParentWitness where
  origin : ByteVec 32
  head : JournalHead
  certificateDigest : ByteVec 32
  deriving DecidableEq

/-- The two journals that a command connects. -/
structure CommandTargetBinding where
  source : ByteVec 32
  target : ByteVec 32
  sourceGeneration : Option UInt64
  targetGeneration : Option UInt64
  parentWitness : Option CommandParentWitness
  deriving DecidableEq

/-- The operations that a checkpoint keeps commands of. -/
inductive FixedRootOperation
  | configurationActivate
  | stateKeyRotate
  | stateKeyRetire
  | recoveryKeyGenerate
  | recoveryKeyImport
  | recoveryKeyRetire
  | bootstrapCreate
  | restoreCreate
  | stateGenerationDelete
  | upgradePrepare
  | upgradeMigrate
  | upgradeActivate
  | upgradeRollback
  deriving DecidableEq, Repr

/-- Whose command it is. -/
inductive StableActorNamespace
  | principal (bytes : List UInt8)
  | stateOwner
  deriving DecidableEq

/-- What a checkpoint keeps of a command. -/
structure FixedRootCommandProjection where
  operation : FixedRootOperation
  actor : StableActorNamespace
  lookup : CommandTag
  semanticFingerprint : CommandTag
  phaseFingerprint : CommandTag
  portableReservation : CommandTag
  runtime : CommandRuntime
  processInstance : ByteVec 16
  originalDeadline : Option Int64
  phase : UInt16
  retention : CommandRetention
  safeResult : Option CommandSafeResult
  targetBinding : Option CommandTargetBinding
  profile : RecoveryKeyGenerateProfile
  deriving DecidableEq

/-! ### Upgrade members -/

/-- The ends of one side of a diverged upgrade. -/
structure ProvenanceHeads where
  journal : JournalHead
  storeDigest : ByteVec 32
  certificateDigest : ByteVec 32
  deriving DecidableEq

/-- How a diverged upgrade was resolved, and until when that is kept for audits. -/
structure UpgradeDivergedResolution where
  poisonDigest : ByteVec 32
  repairCommandDigest : ByteVec 32
  resolvedSafeTime : Int64
  auditSupportedUntil : Int64
  deriving DecidableEq

/-- What is known of an upgrade whose two sides went apart. -/
structure UpgradeDivergedProvenance where
  upgradeId : ByteVec 32
  sourceGeneration : UInt64
  targetGeneration : UInt64
  detectingPhase : UInt16
  expected : ProvenanceHeads
  observed : ProvenanceHeads
  authenticatedRecordDigest : ByteVec 32
  resolution : Option UpgradeDivergedResolution
  deriving DecidableEq

/-- The phases of an upgrade. -/
inductive CoordinatorPhase
  | quiescing
  | prepared
  deriving DecidableEq, Repr

/-- The heads that a prepared upgrade has fixed. -/
structure CoordinatorPreparedHeads where
  source : JournalHead
  store : JournalHead
  effect : JournalHead
  comparison : JournalHead
  checkpoint : JournalHead
  tail : JournalHead
  deriving DecidableEq

/-- What has become of an upgrade. -/
inductive CoordinatorOutcome
  | pending
  | activated
  | repairRequired
  | repaired
  deriving DecidableEq, Repr

/-- The state of an upgrade. -/
structure FixedRootCoordinator where
  upgradeId : ByteVec 32
  sourceGeneration : UInt64
  targetGeneration : UInt64
  phase : CoordinatorPhase
  safeDeadline : Int64
  monotonicDeadline : UInt64
  preparedHeads : CoordinatorPreparedHeads
  lifecycleCommitment : ByteVec 32
  sourceSchema : UInt32
  targetSchema : UInt32
  certificateDigest : ByteVec 32
  rollbackEligible : Bool
  divergenceDigest : Option (ByteVec 32)
  activationOrRepair : CoordinatorOutcome
  deriving DecidableEq

/-- The authority that an upgrade carries over. -/
structure UpgradeAuthorityMirror where
  clock : ClockAuthorityProjection
  clockAcknowledge : Option AddressedStateValue
  systemShutdown : Option AddressedStateValue
  localCommandCount : UInt32
  deriving DecidableEq

/-- An upgrade that has not ended. -/
structure OpenUpgradeProjection where
  sourceHead : JournalHead
  targetHead : JournalHead
  certificateHead : JournalHead
  phase : CoordinatorPhase
  intervalStartHead : JournalHead
  allowedLifecycleCount : UInt64
  rollingTranscriptDigest : ByteVec 32
  lastCoveredHead : JournalHead
  capacityBinding : ByteVec 32
  mirror : UpgradeAuthorityMirror
  deriving DecidableEq

/-! ### Checkpoints and their validation -/

/-- The state that the records up to the covered head have led to. -/
structure CompleteCheckpoint where
  generation : UInt64
  coveredHead : JournalHead
  clockAuthority : ClockAuthorityProjection
  activePointer : Option ActiveStatePointer
  recoveryRing : List RecoveryRingEntry
  localCommands : List FixedRootCommandProjection
  addressed : Fin 4 → AddressedCell
  provenance : List UpgradeDivergedProvenance
  coordinator : Option FixedRootCoordinator
  openUpgrade : Option OpenUpgradeProjection
  deriving DecidableEq

/-- The most commands that a checkpoint keeps. -/
def ordinaryCommandEntryLimit : ℕ := 4032

/-- Only the head before the first record has the digest zero. -/
def validateHead (head : JournalHead) : Except ControlJournalImageError Unit :=
  reject ((head.sequence == 0) != (head.digest == ByteVec.zero 32)) invalidControlJournalImage

/-- A head does not lie beyond the covered one. -/
def headCovered (covered head : JournalHead) : Bool :=
  !(decide (covered.sequence < head.sequence)
    || (head.sequence == covered.sequence && head.digest != covered.digest))

/-- An acknowledgement fits the clock authority. -/
def acknowledgeFits (clock : ClockAuthorityProjection) (current : Bool)
    (value : AddressedStateValue) : Bool :=
  match value.evidence with
  | .shutdown .. => true
  | .acknowledge _ _ _ _ target =>
    !(decide (2 ≤ value.phase) && decide (clock.safeTime < target))
    && match clock.hold, value.address with
      | none, _ => true
      | some hold, .clockHold generation _ =>
        !(decide (hold.generation < generation)
          || ((!current || generation == hold.generation)
            && !addressedHoldMatches clock value.address))
      | some _, .processInstance _ => false

/-- Two values name a common sequence. -/
def shareSequence (value other : AddressedStateValue) : Bool :=
  [value.applicationHead, value.publicationHead].any fun head =>
    head.sequence == other.applicationHead.sequence
      || head.sequence == other.publicationHead.sequence

/-- One record does not serve two operations. -/
def disjointCells (cell : AddressedCell) (value : AddressedStateValue) (other : AddressedCell) :
    Bool :=
  other.state.all fun otherValue =>
    !(cell.operation != other.operation && shareSequence value otherValue)

/-- A value fits the cell of its operation, and the cell of completions if and only if it is
complete. -/
def validAddressedCell (checkpoint : CompleteCheckpoint) (index : Fin 4) : Bool :=
  let cell := checkpoint.addressed index
  cell.state.all fun value =>
    validAddressedValue cell.operation value
    && cell.current != addressedComplete value
    && headCovered checkpoint.coveredHead value.applicationHead
    && headCovered checkpoint.coveredHead value.publicationHead
    && ((List.finRange 4).filter (index < ·)).all
      (fun other => disjointCells cell value (checkpoint.addressed other))
    && acknowledgeFits checkpoint.clockAuthority cell.current value

/-- Every cell is valid, and the cells agree with each other and with the hold of the clock. -/
def validateAddressedCells (checkpoint : CompleteCheckpoint) :
    Except ControlJournalImageError Unit := do
  reject (!(List.finRange 4).all (validAddressedCell checkpoint)) invalidControlJournalImage
  reject (((checkpoint.addressed 0).state.isSome && (checkpoint.addressed 1).state.isSome)
    || ((checkpoint.addressed 2).state.isSome && (checkpoint.addressed 3).state.isSome))
    invalidControlJournalImage

/-- The kind and the bytes of an actor namespace. -/
def namespaceParts : StableActorNamespace → UInt8 × List UInt8
  | .principal bytes => (1, bytes)
  | .stateOwner => (2, stateOwnerActor)

/-- A principal with an admissible name, or the state owner. -/
def validNamespace : StableActorNamespace → Bool
  | .principal bytes => checkIdentifier bytes
  | .stateOwner => true

/-- The bytes by which the commands of a checkpoint are ordered: the actor and its tag of lookup. -/
def commandProjectionKey (command : FixedRootCommandProjection) :
    Except ControlJournalImageError (List UInt8) := do
  reject (!validNamespace command.actor) invalidControlJournalImage
  let length : UInt8 ←
    orError invalidControlJournalImage (ofNat? (namespaceParts command.actor).2.length)
  reject (command.lookup.key.purpose != .commandLookupV1) invalidControlJournalImage
  return [4, (namespaceParts command.actor).1, length] ++ (namespaceParts command.actor).2
    ++ command.lookup.key.keyId.toList ++ command.lookup.tag.toList

/-- The phase of a command fits its retention. -/
def phaseFits (phase : UInt16) : CommandRetention → Bool
  | .continuation => phase == 1 || phase == 2
  | .terminal .. => phase == 3 || phase == 4

/-- The checks of one command, and its key. -/
def validateCommand (command : FixedRootCommandProjection) :
    Except ControlJournalImageError (List UInt8) := do
  reject (command.operation != .recoveryKeyGenerate || command.targetBinding.isSome
    || !phaseFits command.phase command.retention) unsupportedConstruction
  reject (command.safeResult.any fun result => result.codec != 0x0076 || result.version != 1)
    invalidControlJournalImage
  reject (command.processInstance == ByteVec.zero 16) invalidControlJournalImage
  let _ ← orInvalid (decodeRecoveryKeyGenerateProfile
    (encodeRecoveryKeyGenerateProfile command.profile))
  commandProjectionKey command

/-- The commands come in increasing order of their keys. -/
def validateCommands : Option (List UInt8) → List FixedRootCommandProjection →
    Except ControlJournalImageError Unit
  | _, [] => .ok ()
  | previous, command :: commands => do
    let key ← validateCommand command
    reject (previous.any fun p => !decide (p < key)) invalidControlJournalImage
    validateCommands (some key) commands

/-- The cell at `index` with the given state. -/
def cellAt (index : Fin 4) (state : Option AddressedStateValue) : AddressedCell :=
  ⟨if index.val < 2 then .clockAcknowledge else .systemShutdown, index.val % 2 == 0, state⟩

/-- The cell at `index`, with nothing in it. -/
def emptyCell (index : Fin 4) : AddressedCell := cellAt index none

/-- `validate_checkpoint`. -/
def validateCheckpoint (checkpoint : CompleteCheckpoint) :
    Except ControlJournalImageError Unit := do
  reject (checkpoint.generation == 0) invalidControlJournalImage
  validateHead checkpoint.coveredHead
  let _ ← orInvalid (encodeClockAuthorityProjection checkpoint.clockAuthority)
  reject ((List.finRange 4).any fun index =>
    (checkpoint.addressed index).operation != (emptyCell index).operation
      || (checkpoint.addressed index).current != (emptyCell index).current)
    invalidControlJournalImage
  validateAddressedCells checkpoint
  reject (!checkpoint.provenance.isEmpty || checkpoint.coordinator.isSome
    || checkpoint.openUpgrade.isSome) unsupportedConstruction
  reject (decide (ordinaryCommandEntryLimit < checkpoint.localCommands.length))
    invalidControlJournalImage
  validateCommands none checkpoint.localCommands

/-! ### The command codec -/

/-- The origin of a command before any restart: the namespace of the owner and a serial of zero. -/
def expectedPrebootstrapOrigin (ownerNamespace : ByteVec 24) : List UInt8 :=
  ownerNamespace.toList ++ List.replicate 8 0

/-- The key of a tag has the purpose and the origin that are expected, and a serial. -/
def validateCommandTag (tag : CommandTag) (expectedPurpose : MacPurpose) (origin : List UInt8) :
    Except ControlJournalImageError Unit := do
  reject (tag.key.purpose != expectedPurpose) invalidControlJournalImage
  let key := tag.key.keyId.toList
  reject (key.drop 32 == List.replicate 8 0) invalidControlJournalImage
  reject (slice key 24 32 == List.replicate 8 0
    && (expectedPurpose != .portableReservationV1 || key.take 32 != origin))
    invalidControlJournalImage

/-- The tags of a command with the purpose that each must have. -/
def commandTags (command : FixedRootCommandProjection) : List (CommandTag × MacPurpose) :=
  [(command.lookup, .commandLookupV1), (command.semanticFingerprint, .commandSemanticFingerprintV1),
    (command.phaseFingerprint, .commandPhaseFingerprintV1),
    (command.portableReservation, .portableReservationV1)]

/-- Every tag is valid. -/
def validateCommandTags (ownerNamespace : ByteVec 24) (tags : List (CommandTag × MacPurpose)) :
    Except ControlJournalImageError Unit :=
  tags.forM fun p => validateCommandTag p.1 p.2 (expectedPrebootstrapOrigin ownerNamespace)

/-- The fields of a tag. -/
def tagFields (tag : CommandTag) : List (List UInt8) := [tag.key.keyId.toList, tag.tag.toList]

/-- The number of a mode. -/
def CommandRuntime.code : CommandRuntime → UInt8
  | .normal => 1
  | .maintenance => 2

/-- The fields of a deadline, after a byte that says whether there is one. -/
def deadlineFields : Option Int64 → List (List UInt8)
  | none => [wire (0 : UInt8)]
  | some value => [wire (1 : UInt8), wire value]

/-- The fields of a retention. -/
def retentionFields : CommandRetention → List (List UInt8)
  | .continuation => [wire (1 : UInt8), wire (0 : UInt8), wire (0 : UInt8)]
  | .terminal terminalTime expiresAt =>
    [wire (2 : UInt8), wire (1 : UInt8), wire terminalTime, wire (1 : UInt8), wire expiresAt]

/-- A terminal command has a result and expires after it ended. -/
def retentionEncodable (safeResult : Option CommandSafeResult) : CommandRetention → Bool
  | .continuation => true
  | .terminal terminalTime expiresAt => decide (terminalTime < expiresAt) && safeResult.isSome

/-- The fields of a result, after a byte that says whether there is one. -/
def safeResultFields : Option CommandSafeResult → List (List UInt8)
  | none => [wire (0 : UInt8)]
  | some result => [wire (1 : UInt8), wire result.codec, wire result.version, result.digest.toList]

/-- The fields of a command, in the order in which they are written. -/
def commandFields (command : FixedRootCommandProjection) (actorLength : UInt8)
    (profileLength : UInt16) : List (List UInt8) :=
  [wire (1 : UInt8), wire (4 : UInt8), wire (namespaceParts command.actor).1, wire actorLength,
    (namespaceParts command.actor).2]
  ++ tagFields command.lookup ++ tagFields command.semanticFingerprint
  ++ tagFields command.phaseFingerprint ++ tagFields command.portableReservation
  ++ [wire command.runtime.code, command.processInstance.toList]
  ++ deadlineFields command.originalDeadline ++ [wire command.phase]
  ++ retentionFields command.retention ++ safeResultFields command.safeResult
  ++ [wire (0 : UInt8), wire profileLength, encodeRecoveryKeyGenerateProfile command.profile]

/-- `encode_command_projection`; only the generation of a recovery key has an encoding. -/
def encodeCommandProjection (ownerNamespace : ByteVec 24) (command : FixedRootCommandProjection) :
    Except ControlJournalImageError (List UInt8) := do
  reject (command.operation != .recoveryKeyGenerate || command.targetBinding.isSome)
    unsupportedConstruction
  reject (!validNamespace command.actor) invalidControlJournalImage
  let actorLength : UInt8 ←
    orError invalidControlJournalImage (ofNat? (namespaceParts command.actor).2.length)
  validateCommandTags ownerNamespace (commandTags command)
  reject (!retentionEncodable command.safeResult command.retention) invalidControlJournalImage
  let profileLength : UInt16 ← orError invalidControlJournalImage
    (ofNat? (encodeRecoveryKeyGenerateProfile command.profile).length)
  let wire := (commandFields command actorLength profileLength).flatten
  reject (decide (16274 < wire.length)) invalidControlJournalImage
  return wire

/-- The actor namespace with the given kind and bytes. -/
def namespaceOf (kind : UInt8) (bytes : List UInt8) :
    Except ControlJournalImageError StableActorNamespace :=
  if kind = 1 then do
    reject (!checkIdentifier bytes) invalidControlJournalImage
    return .principal bytes
  else if kind = 2 ∧ bytes = stateOwnerActor then .ok .stateOwner
  else .error invalidControlJournalImage

/-- Reads whose command it is. -/
def readNamespace : ImageReader StableActorNamespace := do
  let kind : UInt8 ← int
  require (kind == 1 || kind == 2)
  let length : UInt8 ← int
  let bytes ← take length.toNat
  namespaceOf kind bytes

/-- Reads a tag, which has the purpose of its place. -/
def readTag (purpose : MacPurpose) : ImageReader CommandTag := do
  let keyId ← array 40
  let tag ← array 32
  return ⟨⟨purpose, keyId⟩, tag⟩

/-- The mode of a number. -/
def CommandRuntime.fromCode (code : UInt8) : Except ControlJournalImageError CommandRuntime :=
  if code = 1 then .ok .normal
  else if code = 2 then .ok .maintenance
  else .error invalidControlJournalImage

/-- Reads a deadline that may be absent. -/
def readDeadline : ImageReader (Option Int64) := do
  let present ← readPresence
  readOptional present

/-- The retention behind its first two bytes. -/
def retentionBehind (code present : UInt8) : ImageReader CommandRetention :=
  if code = 1 ∧ present = 0 then do
    let absent : UInt8 ← int
    require (absent == 0)
    return .continuation
  else if code = 2 ∧ present = 1 then do
    let terminalTime ← int
    let again : UInt8 ← int
    require (again == 1)
    let expiresAt ← int
    return .terminal terminalTime expiresAt
  else fail

/-- Reads a retention. -/
def readRetention : ImageReader CommandRetention := do
  let code : UInt8 ← int
  let present : UInt8 ← int
  retentionBehind code present

/-- A result behind its presence byte. -/
def safeResultBehind (present : Bool) : ImageReader (Option CommandSafeResult) :=
  if present then do
    let codec ← int
    let version ← int
    let digest ← array 32
    return some ⟨codec, version, digest⟩
  else pure none

/-- Reads a result that may be absent. -/
def readSafeResult : ImageReader (Option CommandSafeResult) := do
  let present ← readPresence
  safeResultBehind present

/-- The fields of a command, up to the end. -/
def readCommand (ownerNamespace : ByteVec 24) : ImageReader FixedRootCommandProjection := do
  let version : UInt8 ← int
  liftM (reject (version != 1) unsupportedConstruction)
  let operation : UInt8 ← int
  liftM (reject (operation != 4) unsupportedConstruction)
  let actor ← readNamespace
  let lookup ← readTag .commandLookupV1
  let semanticFingerprint ← readTag .commandSemanticFingerprintV1
  let phaseFingerprint ← readTag .commandPhaseFingerprintV1
  let portableReservation ← readTag .portableReservationV1
  liftM (validateCommandTags ownerNamespace [(lookup, .commandLookupV1),
    (semanticFingerprint, .commandSemanticFingerprintV1),
    (phaseFingerprint, .commandPhaseFingerprintV1), (portableReservation, .portableReservationV1)])
  let runtimeCode ← int
  let runtime ← CommandRuntime.fromCode runtimeCode
  let processInstance ← array 16
  let originalDeadline ← readDeadline
  let phase ← int
  let retention ← readRetention
  let safeResult ← readSafeResult
  let binding : UInt8 ← int
  liftM (reject (binding != 0) unsupportedConstruction)
  let profileLength : UInt16 ← int
  let profileBytes ← take profileLength.toNat
  let profile ← orInvalid (decodeRecoveryKeyGenerateProfile profileBytes)
  return ⟨.recoveryKeyGenerate, actor, lookup, semanticFingerprint, phaseFingerprint,
    portableReservation, runtime, processInstance, originalDeadline, phase, retention, safeResult,
    none, profile⟩

/-- The checkpoint in which a single command is validated. -/
def commandCheckpoint (command : FixedRootCommandProjection) : CompleteCheckpoint where
  generation := 1
  coveredHead := ⟨0, ByteVec.zero 32⟩
  clockAuthority := ⟨0, none, none⟩
  activePointer := none
  recoveryRing := []
  localCommands := [command]
  addressed := emptyCell
  provenance := []
  coordinator := none
  openUpgrade := none

/-- `decode_command_projection`: what was read is validated as the only command of a checkpoint. -/
def decodeCommandProjection (ownerNamespace : ByteVec 24) (wire : List UInt8) :
    Except ControlJournalImageError FixedRootCommandProjection := do
  let command ← readAll (readCommand ownerNamespace) wire
  validateCheckpoint (commandCheckpoint command)
  return command

/-- The most bytes of an image. -/
def imageLimit : ℕ := 8 * 1024 * 1024

/-- The most bytes of a checkpoint. -/
def checkpointLimit : ℕ := 6 * 1024 * 1024 - 16 * 1024

/-- The most bytes of the members that every checkpoint has. -/
def ordinaryLimit : ℕ := 4 * 1024 * 1024 - 16 * 1024

/-- The most bytes of the members that reconciliation adds. -/
def reconciliationLimit : ℕ := 2 * 1024 * 1024

/-- One command behind its length. -/
def commandEntryFields (ownerNamespace : ByteVec 24) (command : FixedRootCommandProjection) :
    Except ControlJournalImageError (List (List UInt8)) := do
  let bytes ← encodeCommandProjection ownerNamespace command
  let length : UInt16 ← orError invalidControlJournalImage (ofNat? bytes.length)
  return [wire length, bytes]

/-- The member of the commands: their number, then each one behind its length. -/
def encodeCommandMember (ownerNamespace : ByteVec 24) (commands : List FixedRootCommandProjection) :
    Except ControlJournalImageError (List UInt8) := do
  reject (decide (ordinaryCommandEntryLimit < commands.length)) invalidControlJournalImage
  let count : UInt32 ← orError invalidControlJournalImage (ofNat? commands.length)
  let entries ← commands.mapM (commandEntryFields ownerNamespace)
  written (ordinaryLimit - 72) (wire count :: entries.flatten)

/-- `count` commands, each behind its length. -/
def readCommands (ownerNamespace : ByteVec 24) :
    ℕ → ImageReader (List FixedRootCommandProjection)
  | 0 => pure []
  | count + 1 => do
    let length : UInt16 ← int
    let bytes ← take length.toNat
    let command ← decodeCommandProjection ownerNamespace bytes
    let commands ← readCommands ownerNamespace count
    return command :: commands

/-- The commands of a member of `size` bytes. -/
def readCommandMember (ownerNamespace : ByteVec 24) (size : ℕ) :
    ImageReader (List FixedRootCommandProjection) := do
  let count : UInt32 ← int
  require (decide (count.toNat ≤ ordinaryCommandEntryLimit ∧ count.toNat ≤ (size - 4) / 2))
  readCommands ownerNamespace count.toNat

/-- Reads the member of the commands, all of its bytes. -/
def decodeCommandMember (ownerNamespace : ByteVec 24) (bytes : List UInt8) :
    Except ControlJournalImageError (List FixedRootCommandProjection) :=
  readAll (readCommandMember ownerNamespace bytes.length) bytes

/-! ### The checkpoint codec -/

/-- A tagged member. -/
def memberFields (tag : UInt16) (bytes : List UInt8) :
    Except ControlJournalImageError (List (List UInt8)) := do
  let length : UInt32 ← orError invalidControlJournalImage (ofNat? bytes.length)
  return [wire tag, wire length, bytes]

/-- Reads a member with the tag that is expected. -/
def readMember (expected : UInt16) : ImageReader (List UInt8) := do
  let tag : UInt16 ← int
  require (tag == expected)
  let length : UInt32 ← int
  take length.toNat

/-- The member of the recovery keys, at most 16. -/
def encodeRing (key : JournalIntegrityKey) (entries : List RecoveryRingEntry) :
    Except ControlJournalImageError (List UInt8) := do
  reject (decide (16 < entries.length)) invalidControlJournalImage
  orInvalid (encodeRecoveryRingManifest key entries)

/-- The member of the active pointer, which may be absent. -/
def encodePointerMember (key : JournalIntegrityKey) :
    Option ActiveStatePointer → Except ControlJournalImageError (List UInt8)
  | none => written 625 [wire (0 : UInt8)]
  | some pointer => do
    let bytes ← orInvalid (encodeActiveStatePointer key pointer)
    written 625 [wire (1 : UInt8), bytes]

/-- The member of a cell; the byte zero says that the cell is empty. -/
def encodeCell (cell : AddressedCell) : Except ControlJournalImageError (List UInt8) :=
  match cell.state with
  | none => .ok [0]
  | some value => encodeAddressedValue cell.operation value true

/-- The members 1 to 6. -/
def ordinaryFields (key : JournalIntegrityKey) (ownerNamespace : ByteVec 24)
    (checkpoint : CompleteCheckpoint) : Except ControlJournalImageError (List (List UInt8)) := do
  let generation ← memberFields 1 (wire checkpoint.generation)
  let head ← written 40 (headFields checkpoint.coveredHead)
  let head ← memberFields 2 head
  let clock ← orInvalid (encodeClockAuthorityProjection checkpoint.clockAuthority)
  let clock ← memberFields 3 clock
  let pointer ← encodePointerMember key checkpoint.activePointer
  let pointer ← memberFields 4 pointer
  let ring ← encodeRing key checkpoint.recoveryRing
  let ring ← memberFields 5 ring
  let commands ← encodeCommandMember ownerNamespace checkpoint.localCommands
  let commands ← memberFields 6 commands
  return generation ++ (head ++ (clock ++ (pointer ++ (ring ++ commands))))

/-- The members 7 to 10. -/
def reconciliationFields (checkpoint : CompleteCheckpoint) :
    Except ControlJournalImageError (List (List UInt8)) := do
  let body ← encodeCell (checkpoint.addressed 0)
  let cell0 ← memberFields 7 body
  let body ← encodeCell (checkpoint.addressed 1)
  let cell1 ← memberFields 8 body
  let body ← encodeCell (checkpoint.addressed 2)
  let cell2 ← memberFields 9 body
  let body ← encodeCell (checkpoint.addressed 3)
  let cell3 ← memberFields 10 body
  return cell0 ++ (cell1 ++ (cell2 ++ cell3))

/-- The members 11 to 13, which are always absent. -/
def suffixFields : Except ControlJournalImageError (List (List UInt8)) := do
  let provenance ← memberFields 11 (wire (0 : UInt32))
  let coordinator ← memberFields 12 [0]
  let openUpgrade ← memberFields 13 [0]
  return provenance ++ (coordinator ++ openUpgrade)

/-- `encode_checkpoint`: the members in their order, within the limits. -/
def encodeCheckpoint (key : JournalIntegrityKey) (ownerNamespace : ByteVec 24)
    (checkpoint : CompleteCheckpoint) : Except ControlJournalImageError (List UInt8) := do
  validateCheckpoint checkpoint
  let fields ← ordinaryFields key ownerNamespace checkpoint
  let ordinary ← written (ordinaryLimit - 72) fields
  let fields ← reconciliationFields checkpoint
  let reconciliation ← written reconciliationLimit fields
  let fields ← suffixFields
  let suffix ← written ordinaryLimit fields
  reject (decide (ordinaryLimit < ordinary.length + suffix.length + 72)) invalidControlJournalImage
  written (checkpointLimit - 72) [ordinary, reconciliation, suffix]

/-- Reads the generation of a checkpoint. -/
def readGeneration : ImageReader UInt64 := int

/-- The pointer of a member. -/
def decodePointerMember (key : JournalIntegrityKey) (bytes : List UInt8) :
    Except ControlJournalImageError (Option ActiveStatePointer) :=
  match bytes with
  | [] => .error invalidControlJournalImage
  | tag :: rest =>
    if tag = 0 then (if rest = [] then .ok none else .error invalidControlJournalImage)
    else if tag = 1 then some <$> orInvalid (decodeActiveStatePointer key rest)
    else .error invalidControlJournalImage

/-- Reads the member of a cell. -/
def decodeCell (operation : AddressedOperation) (body : List UInt8) :
    Except ControlJournalImageError (Option AddressedStateValue) :=
  if body = [0] then .ok none else some <$> decodeAddressedValue operation body none

/-- What the members 1 to 6 hold. -/
structure OrdinaryMembers where
  generation : UInt64
  coveredHead : JournalHead
  clockAuthority : ClockAuthorityProjection
  activePointer : Option ActiveStatePointer
  recoveryRing : List RecoveryRingEntry
  localCommands : List FixedRootCommandProjection

/-- Reads the members that every checkpoint has. -/
def readOrdinary (key : JournalIntegrityKey) (ownerNamespace : ByteVec 24) :
    ImageReader OrdinaryMembers := do
  let bytes ← readMember 1
  let generation ← readAll readGeneration bytes
  let bytes ← readMember 2
  let coveredHead ← readAll decodeHead bytes
  let bytes ← readMember 3
  let clockAuthority ← orInvalid (decodeClockAuthorityProjection bytes)
  let bytes ← readMember 4
  let activePointer ← decodePointerMember key bytes
  let bytes ← readMember 5
  let recoveryRing ← orInvalid (decodeRecoveryRingManifest key bytes)
  let bytes ← readMember 6
  let localCommands ← decodeCommandMember ownerNamespace bytes
  return ⟨generation, coveredHead, clockAuthority, activePointer, recoveryRing, localCommands⟩

/-- The states of the cells, from the members 7 to 10. -/
def readCells : ImageReader (Fin 4 → Option AddressedStateValue) := do
  let bytes ← readMember 7
  let state0 ← decodeCell (emptyCell 0).operation bytes
  let bytes ← readMember 8
  let state1 ← decodeCell (emptyCell 1).operation bytes
  let bytes ← readMember 9
  let state2 ← decodeCell (emptyCell 2).operation bytes
  let bytes ← readMember 10
  let state3 ← decodeCell (emptyCell 3).operation bytes
  return ![state0, state1, state2, state3]

/-- The members 11 to 13, which must be absent. -/
def readSuffix : ImageReader Unit := do
  let bytes ← readMember 11
  require (bytes == wire (0 : UInt32))
  let bytes ← readMember 12
  require (bytes == [0])
  let bytes ← readMember 13
  require (bytes == [0])

/-- Reads the members in their order. -/
def readCheckpoint (key : JournalIntegrityKey) (ownerNamespace : ByteVec 24) :
    ImageReader CompleteCheckpoint := do
  let ordinary ← readOrdinary key ownerNamespace
  let states ← readCells
  readSuffix
  return ⟨ordinary.generation, ordinary.coveredHead, ordinary.clockAuthority,
    ordinary.activePointer, ordinary.recoveryRing, ordinary.localCommands,
    fun index => cellAt index (states index), [], none, none⟩

/-- `decode_checkpoint`: what was read has to be encoded as the same bytes. -/
def decodeCheckpoint (key : JournalIntegrityKey) (ownerNamespace : ByteVec 24)
    (bytes : List UInt8) : Except ControlJournalImageError CompleteCheckpoint := do
  let checkpoint ← readAll (readCheckpoint key ownerNamespace) bytes
  let again ← orInvalid (encodeCheckpoint key ownerNamespace checkpoint)
  reject (again != bytes) invalidControlJournalImage
  return checkpoint

/-! ### Reading commands back -/

theorem validateCommandTag_purpose {tag : CommandTag} {purpose : MacPurpose} {origin : List UInt8}
    {u : Unit} (h : validateCommandTag tag purpose origin = .ok u) : tag.key.purpose = purpose := by
  obtain ⟨hpurpose, -⟩ := reject_bind_eq_ok.1 h
  exact bne_eq_false_iff_eq.1 hpurpose

/-- The tags of a command that can be encoded have their purposes. -/
theorem validateCommandTags_purposes {ownerNamespace : ByteVec 24}
    {command : FixedRootCommandProjection} {u : Unit}
    (h : validateCommandTags ownerNamespace (commandTags command) = .ok u) :
    command.lookup.key.purpose = .commandLookupV1 ∧
      command.semanticFingerprint.key.purpose = .commandSemanticFingerprintV1 ∧
      command.phaseFingerprint.key.purpose = .commandPhaseFingerprintV1 ∧
      command.portableReservation.key.purpose = .portableReservationV1 := by
  have hpurpose : ∀ p ∈ commandTags command, p.1.key.purpose = p.2 :=
    fun p hp => validateCommandTag_purpose (forM_eq_ok.1 h p hp)
  simpa [commandTags] using hpurpose

theorem length_namespaceParts {actor : StableActorNamespace} (h : validNamespace actor = true) :
    (namespaceParts actor).2.length ≤ 128 := by
  cases actor with
  | principal bytes => exact (length_checkIdentifier h).2
  | stateOwner => simp [namespaceParts]

theorem namespaceOf_namespaceParts {actor : StableActorNamespace}
    (h : validNamespace actor = true) :
    namespaceOf (namespaceParts actor).1 (namespaceParts actor).2 = .ok actor := by
  cases actor with
  | principal bytes =>
    exact reject_bind_eq_ok.2 ⟨congrArg Bool.not h, rfl⟩
  | stateOwner => simp [namespaceOf, namespaceParts]

theorem parses_readNamespace {actor : StableActorNamespace} {length : UInt8}
    (hvalid : validNamespace actor = true)
    (hlength : length.toNat = (namespaceParts actor).2.length) :
    Parses readNamespace
      [wire (namespaceParts actor).1, wire length, (namespaceParts actor).2].flatten actor := by
  refine (parses_int _).cons ((parses_require ?_).bind_nil ((parses_int _).cons
    ((parses_take hlength.symm).cons (parses_lift (namespaceOf_namespaceParts hvalid)))))
  cases actor <;> rfl

theorem parses_readTag {tag : CommandTag} {purpose : MacPurpose} (h : tag.key.purpose = purpose) :
    Parses (readTag purpose) (tagFields tag).flatten tag := by
  subst h
  exact (parses_array _).cons ((parses_array _).cons (parses_pure _))

theorem CommandRuntime.fromCode_code (runtime : CommandRuntime) :
    CommandRuntime.fromCode runtime.code = .ok runtime := by
  cases runtime <;> rfl

theorem parses_readDeadline (deadline : Option Int64) :
    Parses readDeadline (deadlineFields deadline).flatten deadline := by
  cases deadline with
  | none => exact (parses_readPresence false).cons (parses_readOptional none)
  | some time => exact (parses_readPresence true).cons (parses_readOptional (some time))

theorem parses_readRetention (retention : CommandRetention) :
    Parses readRetention (retentionFields retention).flatten retention := by
  cases retention with
  | continuation =>
    exact (parses_int _).cons ((parses_int _).cons ((parses_int _).cons
      ((parses_require rfl).bind_nil (parses_pure _))))
  | terminal terminalTime expiresAt =>
    exact (parses_int _).cons ((parses_int _).cons ((parses_int _).cons ((parses_int _).cons
      ((parses_require rfl).bind_nil ((parses_int _).cons (parses_pure _))))))

theorem parses_readSafeResult (result : Option CommandSafeResult) :
    Parses readSafeResult (safeResultFields result).flatten result := by
  cases result with
  | none => exact (parses_readPresence false).cons (parses_pure _)
  | some result =>
    exact (parses_readPresence true).cons ((parses_int _).cons ((parses_int _).cons
      ((parses_array _).cons (parses_pure _))))

/-- What the encoder of a command has checked, and what it writes. -/
structure CommandEncoding (ownerNamespace : ByteVec 24) (command : FixedRootCommandProjection)
    (bytes : List UInt8) : Prop where
  operation : command.operation = .recoveryKeyGenerate
  unbound : command.targetBinding = none
  actor : validNamespace command.actor = true
  tags : validateCommandTags ownerNamespace (commandTags command) = .ok ()
  layout : ∃ (actorLength : UInt8) (profileLength : UInt16),
    actorLength.toNat = (namespaceParts command.actor).2.length ∧
    profileLength.toNat = (encodeRecoveryKeyGenerateProfile command.profile).length ∧
    bytes = (commandFields command actorLength profileLength).flatten

theorem commandEncoding_of_encode {ownerNamespace : ByteVec 24}
    {command : FixedRootCommandProjection} {bytes : List UInt8}
    (h : encodeCommandProjection ownerNamespace command = .ok bytes) :
    CommandEncoding ownerNamespace command bytes := by
  obtain ⟨hsupported, h⟩ := reject_bind_eq_ok.1 h
  obtain ⟨hactor, h⟩ := reject_bind_eq_ok.1 h
  obtain ⟨actorLength, hactorLength, h⟩ := orError_bind_eq_ok.1 h
  obtain ⟨⟨⟩, htags, h⟩ := bind_eq_ok.1 h
  obtain ⟨-, h⟩ := reject_bind_eq_ok.1 h
  obtain ⟨profileLength, hprofileLength, h⟩ := orError_bind_eq_ok.1 h
  obtain ⟨-, h⟩ := reject_bind_eq_ok.1 h
  rw [Bool.or_eq_false_iff, bne_eq_false_iff_eq, Option.isSome_eq_false_iff,
    Option.isNone_iff_eq_none] at hsupported
  exact ⟨hsupported.1, hsupported.2, by simpa using hactor, htags, actorLength, profileLength,
    ofNat?_eq_some.1 hactorLength, ofNat?_eq_some.1 hprofileLength, (Except.ok.inj h).symm⟩

theorem parses_readCommand {ownerNamespace : ByteVec 24} {command : FixedRootCommandProjection}
    {bytes : List UInt8} (h : CommandEncoding ownerNamespace command bytes) :
    Parses (readCommand ownerNamespace) bytes command := by
  obtain ⟨hoperation, hunbound, hactor, htags, actorLength, profileLength, hal, hpl, rfl⟩ := h
  obtain ⟨hlookup, hsemantic, hphase, hportable⟩ := validateCommandTags_purposes htags
  have hsplit : commandFields command actorLength profileLength =
      wire (1 : UInt8) :: wire (4 : UInt8) ::
        ([wire (namespaceParts command.actor).1, wire actorLength,
          (namespaceParts command.actor).2] ++ (tagFields command.lookup ++
        (tagFields command.semanticFingerprint ++ (tagFields command.phaseFingerprint ++
        (tagFields command.portableReservation ++ (wire command.runtime.code ::
        command.processInstance.toList :: (deadlineFields command.originalDeadline ++
        (wire command.phase :: (retentionFields command.retention ++
        (safeResultFields command.safeResult ++ [wire (0 : UInt8), wire profileLength,
          encodeRecoveryKeyGenerateProfile command.profile])))))))))) := by
    simp only [commandFields, List.cons_append, List.nil_append, List.append_assoc]
  have hprofile : orInvalid (decodeRecoveryKeyGenerateProfile
      (encodeRecoveryKeyGenerateProfile command.profile)) = .ok command.profile :=
    orInvalid_eq_ok.2 (decode_encodeRecoveryKeyGenerateProfile command.profile)
  have hcommand : command = ⟨.recoveryKeyGenerate, command.actor, command.lookup,
      command.semanticFingerprint, command.phaseFingerprint, command.portableReservation,
      command.runtime, command.processInstance, command.originalDeadline, command.phase,
      command.retention, command.safeResult, none, command.profile⟩ := by
    rw [← hoperation, ← hunbound]
  rw [hsplit]
  conv => arg 3; rw [hcommand]
  exact (parses_int _).cons ((parses_lift rfl).bind_nil ((parses_int _).cons
    ((parses_lift rfl).bind_nil ((parses_readNamespace hactor hal).append
      ((parses_readTag hlookup).append ((parses_readTag hsemantic).append ((parses_readTag hphase).append
        ((parses_readTag hportable).append ((parses_lift htags).bind_nil ((parses_int _).cons
          ((parses_lift (CommandRuntime.fromCode_code _)).bind_nil ((parses_array _).cons
            ((parses_readDeadline _).append ((parses_int _).cons ((parses_readRetention _).append
              ((parses_readSafeResult _).append ((parses_int _).cons ((parses_lift rfl).bind_nil
                ((parses_int _).cons ((parses_take hpl.symm).cons
                  ((parses_lift hprofile).bind_nil (parses_pure _))))))))))))))))))))))

theorem validateCheckpoint_commandCheckpoint {command : FixedRootCommandProjection}
    {key : List UInt8} (h : validateCommand command = .ok key) :
    validateCheckpoint (commandCheckpoint command) = .ok () := by
  have hcommands : validateCommands none [command] = .ok () :=
    bind_eq_ok.2 ⟨key, h, reject_bind_eq_ok.2 ⟨rfl, rfl⟩⟩
  refine reject_bind_eq_ok.2 ⟨rfl, ?_⟩
  refine bind_eq_ok.2 ⟨(), ?_, ?_⟩
  · show validateHead ⟨0, ByteVec.zero 32⟩ = .ok ()
    decide +kernel
  refine bind_eq_ok.2 ⟨_, rfl, ?_⟩
  refine reject_bind_eq_ok.2 ⟨by simp [commandCheckpoint], ?_⟩
  refine bind_eq_ok.2 ⟨(), ?_, ?_⟩
  · refine reject_bind_eq_ok.2 ⟨?_, rfl⟩
    simp [validAddressedCell, commandCheckpoint, emptyCell, cellAt]
  refine reject_bind_eq_ok.2 ⟨rfl, ?_⟩
  exact reject_bind_eq_ok.2 ⟨rfl, hcommands⟩

theorem validateCommand_of_mem {commands : List FixedRootCommandProjection}
    {previous : Option (List UInt8)} {u : Unit} (h : validateCommands previous commands = .ok u) :
    ∀ command ∈ commands, ∃ key, validateCommand command = .ok key := by
  induction commands generalizing previous with
  | nil => exact fun _ hmem => absurd hmem List.not_mem_nil
  | cons command commands ih =>
    obtain ⟨key, hkey, h⟩ := bind_eq_ok.1 h
    obtain ⟨-, h⟩ := reject_bind_eq_ok.1 h
    exact List.forall_mem_cons.2 ⟨⟨key, hkey⟩, ih h⟩

/-- The decoder reads every command back that the checkpoint admits. -/
theorem decode_encodeCommandProjection {ownerNamespace : ByteVec 24}
    {command : FixedRootCommandProjection} {key bytes : List UInt8}
    (hvalid : validateCommand command = .ok key)
    (h : encodeCommandProjection ownerNamespace command = .ok bytes) :
    decodeCommandProjection ownerNamespace bytes = .ok command := by
  have hparses := parses_readCommand (commandEncoding_of_encode h)
  refine bind_eq_ok.2 ⟨command, hparses.readAll, ?_⟩
  exact bind_eq_ok.2 ⟨(), validateCheckpoint_commandCheckpoint hvalid, rfl⟩

theorem sum_length_tagFields (tag : CommandTag) : ((tagFields tag).map List.length).sum = 72 := by
  simp [tagFields]

theorem length_encodeCommandProjection {ownerNamespace : ByteVec 24}
    {command : FixedRootCommandProjection} {bytes : List UInt8}
    (h : encodeCommandProjection ownerNamespace command = .ok bytes) : bytes.length ≤ 576 := by
  obtain ⟨-, -, hactor, -, actorLength, profileLength, -, -, rfl⟩ := commandEncoding_of_encode h
  have h1 := length_namespaceParts hactor
  have h2 := length_encodeRecoveryKeyGenerateProfile command.profile
  have h3 := length_profileEntries command.profile
  have h4 : ((deadlineFields command.originalDeadline).map List.length).sum ≤ 9 := by
    cases command.originalDeadline <;> simp [deadlineFields]
  have h5 : ((retentionFields command.retention).map List.length).sum ≤ 19 := by
    cases command.retention <;> simp [retentionFields]
  have h6 : ((safeResultFields command.safeResult).map List.length).sum ≤ 37 := by
    cases command.safeResult <;> simp [safeResultFields]
  simp only [commandFields, List.length_flatten, List.map_append, List.map_cons, List.map_nil,
    List.sum_append, List.sum_cons, List.sum_nil, sum_length_tagFields, length_wire_u8,
    length_wire_u16, List.Vector.toList_length]
  omega

/-- The entries of the commands, and what reads them back. -/
theorem commandEntries_spec {ownerNamespace : ByteVec 24}
    {commands : List FixedRootCommandProjection} {entries : List (List (List UInt8))}
    (h : commands.mapM (commandEntryFields ownerNamespace) = .ok entries)
    (hvalid : ∀ command ∈ commands, ∃ key, validateCommand command = .ok key) :
    Parses (readCommands ownerNamespace commands.length) entries.flatten.flatten commands ∧
      2 * commands.length ≤ entries.flatten.flatten.length ∧
      entries.flatten.flatten.length ≤ 578 * commands.length := by
  induction commands generalizing entries with
  | nil =>
    cases h
    exact ⟨parses_pure _, Nat.le_refl _, Nat.le_refl _⟩
  | cons command commands ih =>
    rw [List.mapM_cons] at h
    obtain ⟨fields, hfields, h⟩ := bind_eq_ok.1 h
    obtain ⟨rest, hrest, h⟩ := bind_eq_ok.1 h
    obtain rfl := Except.ok.inj h
    obtain ⟨bytes, hbytes, hfields⟩ := bind_eq_ok.1 hfields
    obtain ⟨length, hlength, hfields⟩ := orError_bind_eq_ok.1 hfields
    obtain rfl := Except.ok.inj hfields
    obtain ⟨⟨key, hkey⟩, hothers⟩ := List.forall_mem_cons.1 hvalid
    obtain ⟨hparses, hmin, hmax⟩ := ih hrest hothers
    have hle := length_encodeCommandProjection hbytes
    refine ⟨?_, ?_, ?_⟩
    · exact (parses_int _).cons ((parses_take (ofNat?_eq_some.1 hlength).symm).cons
        ((parses_lift (decode_encodeCommandProjection hkey hbytes)).bind_nil hparses.map))
    · simp only [List.flatten_cons, List.cons_append, List.nil_append, List.length_append,
        length_wire_u16, List.length_cons]
      omega
    · simp only [List.flatten_cons, List.cons_append, List.nil_append, List.length_append,
        length_wire_u16, List.length_cons]
      omega

/-- The decoder reads every command member back. -/
theorem decode_encodeCommandMember {ownerNamespace : ByteVec 24}
    {commands : List FixedRootCommandProjection} {bytes : List UInt8}
    (h : encodeCommandMember ownerNamespace commands = .ok bytes)
    (hvalid : ∀ command ∈ commands, ∃ key, validateCommand command = .ok key) :
    decodeCommandMember ownerNamespace bytes = .ok commands ∧ bytes.length ≤ 2330500 := by
  obtain ⟨hcount, h⟩ := reject_bind_eq_ok.1 h
  obtain ⟨count, hnat, h⟩ := orError_bind_eq_ok.1 h
  obtain ⟨entries, hentries, h⟩ := bind_eq_ok.1 h
  obtain ⟨rfl, -⟩ := written_eq_ok.1 h
  obtain ⟨hparses, hmin, hmax⟩ := commandEntries_spec hentries hvalid
  rw [decide_eq_false_iff_not, ordinaryCommandEntryLimit] at hcount
  have hnat : count.toNat = commands.length := ofNat?_eq_some.1 hnat
  have hlen : (wire count :: entries.flatten).flatten.length =
      4 + entries.flatten.flatten.length := by
    rw [List.flatten_cons, List.length_append, length_wire_u32]
  have hread : Parses (readCommandMember ownerNamespace (wire count :: entries.flatten).flatten.length)
      (wire count :: entries.flatten).flatten commands := by
    refine (parses_int _).cons ((parses_require ?_).bind_nil (hnat ▸ hparses))
    rw [decide_eq_true_eq, ordinaryCommandEntryLimit]
    omega
  exact ⟨hread.readAll, by omega⟩

/-- Commands that each have an encoding have one together: no cap of the member binds. -/
theorem exists_encodeCommandMember {ownerNamespace : ByteVec 24}
    {commands : List FixedRootCommandProjection}
    (hcount : commands.length ≤ ordinaryCommandEntryLimit)
    (hvalid : ∀ command ∈ commands, ∃ key, validateCommand command = .ok key)
    (hencoded : ∀ command ∈ commands, ∃ bytes,
      encodeCommandProjection ownerNamespace command = .ok bytes) :
    ∃ bytes, encodeCommandMember ownerNamespace commands = .ok bytes := by
  have hentry : ∀ command ∈ commands, ∃ fields,
      commandEntryFields ownerNamespace command = .ok fields := by
    intro command hmem
    obtain ⟨bytes, hbytes⟩ := hencoded command hmem
    have hlength : (UInt16.ofNat bytes.length).toNat = bytes.length := by
      have hle := length_encodeCommandProjection hbytes
      exact UInt16.toNat_ofNat_of_lt' (by show bytes.length < 2 ^ 16; omega)
    exact ⟨_, bind_eq_ok.2 ⟨bytes, hbytes, orError_bind_eq_ok.2 ⟨_, ofNat?_eq_some.2 hlength, rfl⟩⟩⟩
  obtain ⟨entries, hentries⟩ := exists_mapM hentry
  obtain ⟨-, -, hmax⟩ := commandEntries_spec hentries hvalid
  rw [ordinaryCommandEntryLimit] at hcount
  have hnat : (UInt32.ofNat commands.length).toNat = commands.length :=
    UInt32.toNat_ofNat_of_lt' (by show commands.length < 2 ^ 32; omega)
  refine ⟨_, reject_bind_eq_ok.2 ⟨?_, orError_bind_eq_ok.2 ⟨_, ofNat?_eq_some.2 hnat,
    bind_eq_ok.2 ⟨entries, hentries, written_eq_ok.2 ⟨rfl, ?_⟩⟩⟩⟩⟩
  · rw [decide_eq_false_iff_not, ordinaryCommandEntryLimit]
    omega
  · rw [List.flatten_cons, List.length_append, length_wire_u32, ordinaryLimit]
    omega

/-! ### Reading checkpoints back -/

theorem memberFields_eq_ok {tag : UInt16} {bytes : List UInt8} {fields : List (List UInt8)} :
    memberFields tag bytes = .ok fields ↔
      ∃ length : UInt32, length.toNat = bytes.length ∧ [wire tag, wire length, bytes] = fields := by
  simp only [memberFields, orError_bind_eq_ok, pure_eq_ok, ofNat?_eq_some]
  rfl

theorem parses_readMember {tag : UInt16} {bytes : List UInt8} {fields : List (List UInt8)}
    (h : memberFields tag bytes = .ok fields) : Parses (readMember tag) fields.flatten bytes := by
  obtain ⟨length, hlength, rfl⟩ := memberFields_eq_ok.1 h
  refine (parses_int _).cons ((parses_require (beq_self_eq_true _)).bind_nil ((parses_int _).cons ?_))
  rw [List.flatten_singleton]
  exact parses_take hlength.symm

theorem length_memberFields {tag : UInt16} {bytes : List UInt8} {fields : List (List UInt8)}
    (h : memberFields tag bytes = .ok fields) : fields.flatten.length = 6 + bytes.length := by
  obtain ⟨length, -, rfl⟩ := memberFields_eq_ok.1 h
  simp
  omega

theorem exists_memberFields (tag : UInt16) {bytes : List UInt8} (h : bytes.length < 2 ^ 32) :
    ∃ fields, memberFields tag bytes = .ok fields := by
  refine ⟨_, memberFields_eq_ok.2 ⟨UInt32.ofNat bytes.length, ?_, rfl⟩⟩
  exact UInt32.toNat_ofNat_of_lt' h

theorem decode_encodePointerMember {key : JournalIntegrityKey} {pointer : Option ActiveStatePointer}
    {bytes : List UInt8} (h : encodePointerMember key pointer = .ok bytes) :
    decodePointerMember key bytes = .ok pointer ∧ bytes.length ≤ 625 := by
  cases pointer with
  | none =>
    obtain ⟨rfl, hle⟩ := written_eq_ok.1 h
    exact ⟨rfl, hle⟩
  | some pointer =>
    obtain ⟨certificate, hcertificate, h⟩ := bind_eq_ok.1 h
    obtain ⟨rfl, hle⟩ := written_eq_ok.1 h
    rw [orInvalid_eq_ok] at hcertificate
    refine ⟨?_, hle⟩
    have hdecode := decode_encodeActiveStatePointer hcertificate
    have hbytes : [wire (1 : UInt8), certificate].flatten = 1 :: certificate := by
      rw [wire_u8]
      simp
    rw [hbytes]
    exact map_eq_ok.2 ⟨pointer, orInvalid_eq_ok.2 hdecode, rfl⟩

theorem decode_encodeCell {cell : AddressedCell} {body : List UInt8}
    (h : encodeCell cell = .ok body) : decodeCell cell.operation body = .ok cell.state := by
  unfold encodeCell at h
  cases hstate : cell.state with
  | none =>
    rw [hstate] at h
    obtain rfl := Except.ok.inj h
    rfl
  | some value =>
    rw [hstate] at h
    have hdecode : decodeAddressedValue cell.operation body none = .ok value :=
      decode_encodeAddressedValue h trivial
    -- a value starts with its version, so that it is not the byte of an absent cell
    have hne : body ≠ [0] := by
      rintro rfl
      obtain ⟨-, length, -, hbytes, -⟩ := encodeAddressedValue_eq_ok.1 h
      rw [addressedFields, wire_u8] at hbytes
      simp at hbytes
    rw [decodeCell, if_neg hne]
    exact map_eq_ok.2 ⟨value, hdecode, rfl⟩

/-- What `validateCheckpoint` checks. -/
structure ValidCheckpoint (checkpoint : CompleteCheckpoint) : Prop where
  generation : checkpoint.generation ≠ 0
  head : validateHead checkpoint.coveredHead = .ok ()
  clock : ∃ bytes, encodeClockAuthorityProjection checkpoint.clockAuthority = .ok bytes
  slots : ∀ index, (checkpoint.addressed index).operation = (emptyCell index).operation ∧
    (checkpoint.addressed index).current = (emptyCell index).current
  cells : validateAddressedCells checkpoint = .ok ()
  provenance : checkpoint.provenance = []
  coordinator : checkpoint.coordinator = none
  openUpgrade : checkpoint.openUpgrade = none
  count : checkpoint.localCommands.length ≤ ordinaryCommandEntryLimit
  commands : validateCommands none checkpoint.localCommands = .ok ()

theorem validateCheckpoint_eq_ok {checkpoint : CompleteCheckpoint} {u : Unit} :
    validateCheckpoint checkpoint = .ok u ↔ ValidCheckpoint checkpoint := by
  simp only [validateCheckpoint, bind_eq_ok, reject_eq_ok, orInvalid_eq_ok, exists_const,
    beq_eq_false_iff_ne, Bool.or_eq_false_iff, decide_eq_false_iff_not, not_lt,
    List.any_eq_false, List.mem_finRange, true_implies, Bool.or_eq_true, bne_iff_ne, not_or,
    not_not, Bool.not_eq_false', List.isEmpty_iff, Option.isSome_eq_false_iff,
    Option.isNone_iff_eq_none]
  constructor
  · rintro ⟨h1, ⟨⟩, h2, bytes, h3, h4, ⟨⟩, h5, ⟨⟨h6, h7⟩, h8⟩, h9, h10⟩
    exact ⟨h1, h2, ⟨bytes, h3⟩, h4, h5, h6, h7, h8, h9, h10⟩
  · rintro ⟨h1, h2, ⟨bytes, h3⟩, h4, h5, h6, h7, h8, h9, h10⟩
    exact ⟨h1, (), h2, bytes, h3, h4, (), h5, ⟨⟨h6, h7⟩, h8⟩, h9, h10⟩

/-- A valid checkpoint is the one that the decoder builds from its members. -/
theorem ValidCheckpoint.eq_rebuilt {checkpoint : CompleteCheckpoint}
    (h : ValidCheckpoint checkpoint) :
    checkpoint = ⟨checkpoint.generation, checkpoint.coveredHead, checkpoint.clockAuthority,
      checkpoint.activePointer, checkpoint.recoveryRing, checkpoint.localCommands,
      fun index => cellAt index (checkpoint.addressed index).state, [], none, none⟩ := by
  obtain ⟨generation, head, clock, pointer, ring, commands, addressed, provenance, coordinator,
    openUpgrade⟩ := checkpoint
  obtain ⟨-, -, -, hslots, -, rfl, rfl, rfl, -, -⟩ := h
  congr 1
  funext index
  show addressed index = ⟨(emptyCell index).operation, (emptyCell index).current, _⟩
  rw [← (hslots index).1, ← (hslots index).2]

theorem length_encodeClockAuthorityProjection {projection : ClockAuthorityProjection}
    {bytes : List UInt8} (h : encodeClockAuthorityProjection projection = .ok bytes) :
    bytes.length ≤ 59 := by
  obtain ⟨⟨⟩, -, h⟩ := bind_eq_ok.1 h
  obtain rfl := Except.ok.inj h
  rw [length_projectionFields, expectedLength]
  split_ifs <;> omega

section Members

variable {key : JournalIntegrityKey} {ownerNamespace : ByteVec 24} {checkpoint : CompleteCheckpoint}
  {fields : List (List UInt8)}

/-- The ordinary members are read back, and they are far from their cap. -/
theorem ordinaryFields_spec (hvalid : ValidCheckpoint checkpoint)
    (h : ordinaryFields key ownerNamespace checkpoint = .ok fields) :
    Parses (readOrdinary key ownerNamespace) fields.flatten
      ⟨checkpoint.generation, checkpoint.coveredHead, checkpoint.clockAuthority,
        checkpoint.activePointer, checkpoint.recoveryRing, checkpoint.localCommands⟩ ∧
      fields.flatten.length ≤ 2331446 := by
  obtain ⟨m1, hm1, h⟩ := bind_eq_ok.1 h
  obtain ⟨head, hhead, h⟩ := bind_eq_ok.1 h
  obtain ⟨m2, hm2, h⟩ := bind_eq_ok.1 h
  obtain ⟨clock, hclock, h⟩ := bind_eq_ok.1 h
  obtain ⟨m3, hm3, h⟩ := bind_eq_ok.1 h
  obtain ⟨pointer, hpointer, h⟩ := bind_eq_ok.1 h
  obtain ⟨m4, hm4, h⟩ := bind_eq_ok.1 h
  obtain ⟨ring, hring, h⟩ := bind_eq_ok.1 h
  obtain ⟨m5, hm5, h⟩ := bind_eq_ok.1 h
  obtain ⟨commands, hcommands, h⟩ := bind_eq_ok.1 h
  obtain ⟨m6, hm6, h⟩ := bind_eq_ok.1 h
  obtain rfl := Except.ok.inj h
  obtain ⟨rfl, hheadLength⟩ := written_eq_ok.1 hhead
  obtain ⟨-, hring⟩ := reject_bind_eq_ok.1 hring
  rw [orInvalid_eq_ok] at hclock hring
  obtain ⟨hpointerDecode, hpointerLength⟩ := decode_encodePointerMember hpointer
  obtain ⟨hcommandsDecode, hcommandsLength⟩ :=
    decode_encodeCommandMember hcommands (validateCommand_of_mem hvalid.commands)
  have hgeneration : Parses readGeneration (wire checkpoint.generation) checkpoint.generation :=
    parses_int _
  have hclockDecode := decode_encodeClockAuthorityProjection hclock
  have hringDecode := decode_encodeRecoveryRingManifest hring
  have hclockLength := length_encodeClockAuthorityProjection hclock
  have hringLength := length_encodeRecoveryRingManifest hring
  constructor
  · exact (parses_readMember hm1).append ((parses_lift hgeneration.readAll).bind_nil
      ((parses_readMember hm2).append ((parses_lift (parses_decodeHead _).readAll).bind_nil
      ((parses_readMember hm3).append ((parses_lift (orInvalid_eq_ok.2 hclockDecode)).bind_nil
      ((parses_readMember hm4).append ((parses_lift hpointerDecode).bind_nil
      ((parses_readMember hm5).append ((parses_lift (orInvalid_eq_ok.2 hringDecode)).bind_nil
      ((parses_readMember hm6).last ((parses_lift hcommandsDecode).bind_nil
        (parses_pure _))))))))))))
  · simp only [List.flatten_append, List.length_append, length_memberFields hm1,
      length_memberFields hm2, length_memberFields hm3, length_memberFields hm4,
      length_memberFields hm5, length_memberFields hm6, length_wire_u64]
    omega

/-- The ordinary members have an encoding when pointer, ring and commands have one. -/
theorem exists_ordinaryFields {pointer ring commands : List UInt8}
    (hvalid : ValidCheckpoint checkpoint)
    (hpointer : encodePointerMember key checkpoint.activePointer = .ok pointer)
    (hring : encodeRing key checkpoint.recoveryRing = .ok ring)
    (hcommands : encodeCommandMember ownerNamespace checkpoint.localCommands = .ok commands) :
    ∃ fields, ordinaryFields key ownerNamespace checkpoint = .ok fields := by
  obtain ⟨clock, hclock⟩ := hvalid.clock
  have hclockLength := length_encodeClockAuthorityProjection hclock
  have hpointerLength := (decode_encodePointerMember hpointer).2
  have hcommandsLength :=
    (decode_encodeCommandMember hcommands (validateCommand_of_mem hvalid.commands)).2
  have hringLength : ring.length ≤ 178 := by
    obtain ⟨-, hmanifest⟩ := reject_bind_eq_ok.1 hring
    exact length_encodeRecoveryRingManifest (orInvalid_eq_ok.1 hmanifest)
  have hhead : (written 40 (headFields checkpoint.coveredHead) :
      Except ControlJournalImageError _) = .ok (headFields checkpoint.coveredHead).flatten :=
    written_eq_ok.2 ⟨rfl, by simp⟩
  obtain ⟨m1, hm1⟩ := exists_memberFields 1
    (show (wire checkpoint.generation).length < 2 ^ 32 by simp)
  obtain ⟨m2, hm2⟩ := exists_memberFields 2
    (show (headFields checkpoint.coveredHead).flatten.length < 2 ^ 32 by simp)
  obtain ⟨m3, hm3⟩ := exists_memberFields 3 (show clock.length < 2 ^ 32 by omega)
  obtain ⟨m4, hm4⟩ := exists_memberFields 4 (show pointer.length < 2 ^ 32 by omega)
  obtain ⟨m5, hm5⟩ := exists_memberFields 5 (show ring.length < 2 ^ 32 by omega)
  obtain ⟨m6, hm6⟩ := exists_memberFields 6 (show commands.length < 2 ^ 32 by omega)
  exact ⟨_, bind_eq_ok.2 ⟨m1, hm1, bind_eq_ok.2 ⟨_, hhead, bind_eq_ok.2 ⟨m2, hm2,
    bind_eq_ok.2 ⟨clock, orInvalid_eq_ok.2 hclock, bind_eq_ok.2 ⟨m3, hm3, bind_eq_ok.2 ⟨_, hpointer,
    bind_eq_ok.2 ⟨m4, hm4, bind_eq_ok.2 ⟨_, hring, bind_eq_ok.2 ⟨m5, hm5, bind_eq_ok.2 ⟨_, hcommands,
    bind_eq_ok.2 ⟨m6, hm6, rfl⟩⟩⟩⟩⟩⟩⟩⟩⟩⟩⟩⟩

/-- The cells are read back. -/
theorem parses_readCells (hvalid : ValidCheckpoint checkpoint)
    (h : reconciliationFields checkpoint = .ok fields) :
    Parses readCells fields.flatten fun index => (checkpoint.addressed index).state := by
  obtain ⟨b0, hb0, h⟩ := bind_eq_ok.1 h
  obtain ⟨m7, hm7, h⟩ := bind_eq_ok.1 h
  obtain ⟨b1, hb1, h⟩ := bind_eq_ok.1 h
  obtain ⟨m8, hm8, h⟩ := bind_eq_ok.1 h
  obtain ⟨b2, hb2, h⟩ := bind_eq_ok.1 h
  obtain ⟨m9, hm9, h⟩ := bind_eq_ok.1 h
  obtain ⟨b3, hb3, h⟩ := bind_eq_ok.1 h
  obtain ⟨m10, hm10, h⟩ := bind_eq_ok.1 h
  obtain rfl := Except.ok.inj h
  have hcell : ∀ {index : Fin 4} {body : List UInt8},
      encodeCell (checkpoint.addressed index) = .ok body →
      decodeCell (emptyCell index).operation body = .ok (checkpoint.addressed index).state :=
    fun hbody => (hvalid.slots _).1 ▸ decode_encodeCell hbody
  have hstates : (fun index => (checkpoint.addressed index).state) =
      ![(checkpoint.addressed 0).state, (checkpoint.addressed 1).state,
        (checkpoint.addressed 2).state, (checkpoint.addressed 3).state] := by
    funext index
    match index with
    | 0 => rfl
    | 1 => rfl
    | 2 => rfl
    | 3 => rfl
  rw [hstates]
  exact (parses_readMember hm7).append ((parses_lift (hcell hb0)).bind_nil
    ((parses_readMember hm8).append ((parses_lift (hcell hb1)).bind_nil
    ((parses_readMember hm9).append ((parses_lift (hcell hb2)).bind_nil
    ((parses_readMember hm10).last ((parses_lift (hcell hb3)).bind_nil (parses_pure _))))))))

/-- The cell of a valid checkpoint has an encoding. -/
theorem exists_encodeCell (hvalid : ValidCheckpoint checkpoint) (index : Fin 4) :
    ∃ body, encodeCell (checkpoint.addressed index) = .ok body ∧ body.length ≤ 426 := by
  have hcell : validAddressedCell checkpoint index = true := by
    obtain ⟨hcells, -⟩ := reject_bind_eq_ok.1 hvalid.cells
    simp only [Bool.not_eq_false', List.all_eq_true] at hcells
    exact hcells index (List.mem_finRange index)
  unfold encodeCell
  cases hstate : (checkpoint.addressed index).state with
  | none => exact ⟨[0], rfl, by decide⟩
  | some value =>
    simp only [validAddressedCell, hstate, Option.all_some, Bool.and_eq_true, and_assoc] at hcell
    obtain ⟨body, hbody⟩ := exists_encodeAddressedValue hcell.1 true
    obtain ⟨-, -, -, -, hle⟩ := encodeAddressedValue_eq_ok.1 hbody
    exact ⟨body, hbody, hle⟩

theorem exists_reconciliationFields (hvalid : ValidCheckpoint checkpoint) :
    ∃ fields, reconciliationFields checkpoint = .ok fields ∧ fields.flatten.length ≤ 1728 := by
  obtain ⟨b0, hb0, hl0⟩ := exists_encodeCell hvalid 0
  obtain ⟨b1, hb1, hl1⟩ := exists_encodeCell hvalid 1
  obtain ⟨b2, hb2, hl2⟩ := exists_encodeCell hvalid 2
  obtain ⟨b3, hb3, hl3⟩ := exists_encodeCell hvalid 3
  obtain ⟨m7, hm7⟩ := exists_memberFields 7 (show b0.length < 2 ^ 32 by omega)
  obtain ⟨m8, hm8⟩ := exists_memberFields 8 (show b1.length < 2 ^ 32 by omega)
  obtain ⟨m9, hm9⟩ := exists_memberFields 9 (show b2.length < 2 ^ 32 by omega)
  obtain ⟨m10, hm10⟩ := exists_memberFields 10 (show b3.length < 2 ^ 32 by omega)
  refine ⟨_, bind_eq_ok.2 ⟨_, hb0, bind_eq_ok.2 ⟨m7, hm7, bind_eq_ok.2 ⟨_, hb1,
    bind_eq_ok.2 ⟨m8, hm8, bind_eq_ok.2 ⟨_, hb2, bind_eq_ok.2 ⟨m9, hm9, bind_eq_ok.2 ⟨_, hb3,
    bind_eq_ok.2 ⟨m10, hm10, rfl⟩⟩⟩⟩⟩⟩⟩⟩, ?_⟩
  simp only [List.flatten_append, List.length_append, length_memberFields hm7,
    length_memberFields hm8, length_memberFields hm9, length_memberFields hm10]
  omega

/-- The absent members are read back. -/
theorem parses_readSuffix (h : suffixFields = .ok fields) :
    Parses readSuffix fields.flatten () := by
  obtain ⟨m11, hm11, h⟩ := bind_eq_ok.1 h
  obtain ⟨m12, hm12, h⟩ := bind_eq_ok.1 h
  obtain ⟨m13, hm13, h⟩ := bind_eq_ok.1 h
  obtain rfl := Except.ok.inj h
  exact (parses_readMember hm11).append ((parses_require (beq_self_eq_true _)).bind_nil
    ((parses_readMember hm12).append ((parses_require (beq_self_eq_true _)).bind_nil
    ((parses_readMember hm13).last (parses_require (beq_self_eq_true _))))))

theorem exists_suffixFields : ∃ fields, suffixFields = .ok fields ∧ fields.flatten.length = 24 := by
  obtain ⟨m11, hm11⟩ := exists_memberFields 11 (show (wire (0 : UInt32)).length < 2 ^ 32 by simp)
  obtain ⟨m12, hm12⟩ := exists_memberFields 12 (show ([0] : List UInt8).length < 2 ^ 32 by simp)
  obtain ⟨m13, hm13⟩ := exists_memberFields 13 (show ([0] : List UInt8).length < 2 ^ 32 by simp)
  refine ⟨_, bind_eq_ok.2 ⟨m11, hm11, bind_eq_ok.2 ⟨m12, hm12, bind_eq_ok.2 ⟨m13, hm13, rfl⟩⟩⟩, ?_⟩
  simp only [List.flatten_append, List.length_append, length_memberFields hm11,
    length_memberFields hm12, length_memberFields hm13, length_wire_u32, List.length_singleton]

variable {bytes : List UInt8}

/-- **Every encoding of a checkpoint is read back.** -/
theorem decode_encodeCheckpoint (h : encodeCheckpoint key ownerNamespace checkpoint = .ok bytes) :
    decodeCheckpoint key ownerNamespace bytes = .ok checkpoint := by
  have hencode := h
  obtain ⟨⟨⟩, hvalid, h⟩ := bind_eq_ok.1 h
  rw [validateCheckpoint_eq_ok] at hvalid
  obtain ⟨ordinaryMembers, hordinary, h⟩ := bind_eq_ok.1 h
  obtain ⟨ordinary, hwritten1, h⟩ := bind_eq_ok.1 h
  obtain ⟨cellMembers, hcells, h⟩ := bind_eq_ok.1 h
  obtain ⟨reconciliation, hwritten2, h⟩ := bind_eq_ok.1 h
  obtain ⟨suffixMembers, hsuffix, h⟩ := bind_eq_ok.1 h
  obtain ⟨suffix, hwritten3, h⟩ := bind_eq_ok.1 h
  obtain ⟨-, h⟩ := reject_bind_eq_ok.1 h
  obtain ⟨rfl, -⟩ := written_eq_ok.1 hwritten1
  obtain ⟨rfl, -⟩ := written_eq_ok.1 hwritten2
  obtain ⟨rfl, -⟩ := written_eq_ok.1 hwritten3
  obtain ⟨rfl, -⟩ := written_eq_ok.1 h
  have hparses : Parses (readCheckpoint key ownerNamespace)
      [ordinaryMembers.flatten, cellMembers.flatten, suffixMembers.flatten].flatten checkpoint := by
    conv => arg 3; rw [hvalid.eq_rebuilt]
    exact (ordinaryFields_spec hvalid hordinary).1.cons ((parses_readCells hvalid hcells).cons
      ((parses_readSuffix hsuffix).cons (parses_pure _)))
  refine bind_eq_ok.2 ⟨checkpoint, hparses.readAll, ?_⟩
  refine bind_eq_ok.2 ⟨_, orInvalid_eq_ok.2 hencode, ?_⟩
  exact reject_bind_eq_ok.2 ⟨bne_self_eq_false _, rfl⟩

/-- A decoded checkpoint encodes to the bytes it was read from. -/
theorem encode_of_decodeCheckpoint
    (h : decodeCheckpoint key ownerNamespace bytes = .ok checkpoint) :
    encodeCheckpoint key ownerNamespace checkpoint = .ok bytes := by
  obtain ⟨checkpoint', -, h⟩ := bind_eq_ok.1 h
  obtain ⟨again, hagain, h⟩ := bind_eq_ok.1 h
  obtain ⟨hsame, h⟩ := reject_bind_eq_ok.1 h
  obtain rfl := Except.ok.inj h
  rw [bne_eq_false_iff_eq] at hsame
  rw [← hsame]
  exact orInvalid_eq_ok.1 hagain

/-- The parts of a checkpoint that no record of the journal changes have an encoding. -/
structure FixedParts (key : JournalIntegrityKey) (ownerNamespace : ByteVec 24)
    (checkpoint : CompleteCheckpoint) : Prop where
  pointer : ∃ bytes, encodePointerMember key checkpoint.activePointer = .ok bytes
  ring : ∃ bytes, encodeRing key checkpoint.recoveryRing = .ok bytes
  commands : ∃ bytes, encodeCommandMember ownerNamespace checkpoint.localCommands = .ok bytes

theorem fixedParts_of_ordinaryFields
    (h : ordinaryFields key ownerNamespace checkpoint = .ok fields) :
    FixedParts key ownerNamespace checkpoint := by
  obtain ⟨_, _, h⟩ := bind_eq_ok.1 h
  obtain ⟨_, _, h⟩ := bind_eq_ok.1 h
  obtain ⟨_, _, h⟩ := bind_eq_ok.1 h
  obtain ⟨_, _, h⟩ := bind_eq_ok.1 h
  obtain ⟨_, _, h⟩ := bind_eq_ok.1 h
  obtain ⟨pointer, hpointer, h⟩ := bind_eq_ok.1 h
  obtain ⟨_, _, h⟩ := bind_eq_ok.1 h
  obtain ⟨ring, hring, h⟩ := bind_eq_ok.1 h
  obtain ⟨_, _, h⟩ := bind_eq_ok.1 h
  obtain ⟨commands, hcommands, -⟩ := bind_eq_ok.1 h
  exact ⟨⟨pointer, hpointer⟩, ⟨ring, hring⟩, ⟨commands, hcommands⟩⟩

/-- **No cap of the checkpoint binds**: a valid checkpoint has an encoding exactly when its fixed
parts have one. -/
theorem exists_encodeCheckpoint :
    (∃ bytes, encodeCheckpoint key ownerNamespace checkpoint = .ok bytes) ↔
      ValidCheckpoint checkpoint ∧ FixedParts key ownerNamespace checkpoint := by
  constructor
  · rintro ⟨bytes, h⟩
    obtain ⟨⟨⟩, hvalid, h⟩ := bind_eq_ok.1 h
    obtain ⟨members, hmembers, -⟩ := bind_eq_ok.1 h
    exact ⟨validateCheckpoint_eq_ok.1 hvalid, fixedParts_of_ordinaryFields hmembers⟩
  · rintro ⟨hvalid, ⟨pointer, hpointer⟩, ⟨ring, hring⟩, ⟨commands, hcommands⟩⟩
    obtain ⟨ordinary, hordinary⟩ := exists_ordinaryFields hvalid hpointer hring hcommands
    obtain ⟨cells, hcells, hcellsLength⟩ := exists_reconciliationFields hvalid
    obtain ⟨suffix, hsuffix, hsuffixLength⟩ := exists_suffixFields
    have hordinaryLength := (ordinaryFields_spec hvalid hordinary).2
    refine ⟨[ordinary.flatten, cells.flatten, suffix.flatten].flatten, ?_⟩
    refine bind_eq_ok.2 ⟨(), validateCheckpoint_eq_ok.2 hvalid, ?_⟩
    refine bind_eq_ok.2 ⟨_, hordinary, bind_eq_ok.2 ⟨_, written_eq_ok.2 ⟨rfl, ?_⟩, ?_⟩⟩
    · rw [ordinaryLimit]
      omega
    refine bind_eq_ok.2 ⟨_, hcells, bind_eq_ok.2 ⟨_, written_eq_ok.2 ⟨rfl, ?_⟩, ?_⟩⟩
    · rw [reconciliationLimit]
      omega
    refine bind_eq_ok.2 ⟨_, hsuffix, bind_eq_ok.2 ⟨_, written_eq_ok.2 ⟨rfl, ?_⟩, ?_⟩⟩
    · rw [ordinaryLimit]
      omega
    refine reject_bind_eq_ok.2 ⟨?_, written_eq_ok.2 ⟨rfl, ?_⟩⟩
    · rw [decide_eq_false_iff_not, ordinaryLimit]
      omega
    · simp only [List.flatten_cons, List.flatten_nil, List.length_append, List.length_nil,
        checkpointLimit]
      omega

end Members

end MsgRiver.Journal
