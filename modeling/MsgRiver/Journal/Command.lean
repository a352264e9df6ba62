import MsgRiver.Journal.Checkpoint

/-!
# The body of a fixed-root command

`encode_fixed_root_command` writes a command with any of the thirteen operations; the journal record
around it authenticates the bytes.  Every part of the body has a writer and a reader, and the lemma
of a reader says that it consumes exactly what the writer of the answered value writes.  So the
codec is canonical (`decodeFixedRootCommand_eq_ok`): a body is accepted exactly when it is the
encoding of the command that is answered.
-/

namespace MsgRiver.Journal.FixedRoot

open Bytes Result Wire

/-- The first byte of a command. -/
def format : UInt8 := 1

/-- The most bytes of a command. -/
def maxCommandBodyBytes : ℕ := 16274

/-- The most bytes of a profile's body. -/
def maxProfileBodyBytes : ℕ := 15580

/-- The text that names the state owner. -/
def stateOwner : List UInt8 := Ascii.utf8Bytes "msgriver/state-owner/v1"

/-- The error of the codec. -/
inductive FixedRootCommandError
  | invalidFixedRootCommand
  deriving DecidableEq, Repr

open FixedRootCommandError (invalidFixedRootCommand)

instance : Refusal FixedRootCommandError := ⟨invalidFixedRootCommand⟩

/-- A decoder of a command body. -/
abbrev CommandReader := Wire.Reader FixedRootCommandError

/-! ### Commands -/

/-- The operations of the commands. -/
inductive FixedRootCommandOperation
  | configurationActivate
  | stateKeyRotate
  | stateKeyRetire
  | recoveryKeyGenerate
  | recoveryKeyImport
  | recoveryKeyRetire
  | bootstrapCreate
  | restoreCreate
  | stateGenerationDelete
  | upgradePrepare
  | upgradeMigrate
  | upgradeActivate
  | upgradeRollback
  deriving DecidableEq, Repr

/-- The number of an operation. -/
def FixedRootCommandOperation.code : FixedRootCommandOperation → UInt8
  | .configurationActivate => 0x01
  | .stateKeyRotate => 0x02
  | .stateKeyRetire => 0x03
  | .recoveryKeyGenerate => 0x04
  | .recoveryKeyImport => 0x05
  | .recoveryKeyRetire => 0x06
  | .bootstrapCreate => 0x07
  | .restoreCreate => 0x08
  | .stateGenerationDelete => 0x09
  | .upgradePrepare => 0x0a
  | .upgradeMigrate => 0x0b
  | .upgradeActivate => 0x0c
  | .upgradeRollback => 0x0d

/-- The operation of a number. -/
def FixedRootCommandOperation.fromCode (code : UInt8) :
    Except FixedRootCommandError FixedRootCommandOperation :=
  if code = 0x01 then .ok .configurationActivate
  else if code = 0x02 then .ok .stateKeyRotate
  else if code = 0x03 then .ok .stateKeyRetire
  else if code = 0x04 then .ok .recoveryKeyGenerate
  else if code = 0x05 then .ok .recoveryKeyImport
  else if code = 0x06 then .ok .recoveryKeyRetire
  else if code = 0x07 then .ok .bootstrapCreate
  else if code = 0x08 then .ok .restoreCreate
  else if code = 0x09 then .ok .stateGenerationDelete
  else if code = 0x0a then .ok .upgradePrepare
  else if code = 0x0b then .ok .upgradeMigrate
  else if code = 0x0c then .ok .upgradeActivate
  else if code = 0x0d then .ok .upgradeRollback
  else .error invalidFixedRootCommand

/-- Who gave the command. -/
inductive FixedRootCommandActor
  | principal (value : List UInt8)
  | stateOwner
  deriving DecidableEq

/-- The mode in which the command was accepted. -/
inductive FixedRootCommandRuntime
  | normal
  | maintenance
  deriving DecidableEq, Repr

/-- The number of a mode. -/
def FixedRootCommandRuntime.code : FixedRootCommandRuntime → UInt8
  | .normal => 1
  | .maintenance => 2

/-- The mode of a number. -/
def FixedRootCommandRuntime.fromCode (code : UInt8) :
    Except FixedRootCommandError FixedRootCommandRuntime :=
  if code = 1 then .ok .normal
  else if code = 2 then .ok .maintenance
  else .error invalidFixedRootCommand

/-- A tag, and the key that made it. -/
structure FixedRootCommandTag where
  key : MacKeyRef
  tag : ByteVec 32
  deriving DecidableEq

/-- Whether the command goes on, or has ended and is kept until a time. -/
inductive FixedRootCommandRetention
  | continuation
  | terminal (terminalTime expiresAt : Int64)
  deriving DecidableEq

/-- The result that may be disclosed: its codec and its digest. -/
structure FixedRootCommandSafeResult where
  codec : UInt16
  version : UInt16
  digest : ByteVec 32
  deriving DecidableEq

/-- Origin, head, digest of the head and digest of the certificate of a parent. -/
abbrev ParentWitness := ByteVec 32 × UInt64 × ByteVec 32 × ByteVec 32

/-- The two journals that the command connects. -/
structure FixedRootCommandTargetBinding where
  source : ByteVec 32
  target : ByteVec 32
  sourceGeneration : Option UInt64
  targetGeneration : Option UInt64
  parentWitness : Option ParentWitness
  deriving DecidableEq

/-- A command.  Its tags are in the order of `tagPurposes`. -/
structure FixedRootCommand where
  operation : FixedRootCommandOperation
  actor : FixedRootCommandActor
  tags : List.Vector FixedRootCommandTag 4
  runtime : FixedRootCommandRuntime
  processInstance : ByteVec 16
  originalDeadline : Option Int64
  phase : UInt16
  retention : FixedRootCommandRetention
  safeResult : Option FixedRootCommandSafeResult
  targetBinding : Option FixedRootCommandTargetBinding
  profileBody : List UInt8
  deriving DecidableEq

/-- The codec of a journal, which expects the origin of that journal. -/
structure FixedRootCommandCodec where
  expectedPrebootstrapOrigin : ByteVec 32
  deriving DecidableEq

/-! ### Validation -/

/-- The serial of an origin, its last eight bytes, is zero. -/
def originSerialIsZero (origin : ByteVec 32) : Bool := (origin.toList.drop 24).all (· == 0)

/-- The kind and the bytes of an actor. -/
def actorBytes : FixedRootCommandActor → Except FixedRootCommandError (UInt8 × List UInt8)
  | .principal value => do
    reject (!checkIdentifier value) invalidFixedRootCommand
    return (1, value)
  | .stateOwner => .ok (2, stateOwner)

/-- The key of a tag has the purpose and the origin that are expected, and a serial. -/
def validateTag (codec : FixedRootCommandCodec) (tag : FixedRootCommandTag)
    (expectedPurpose : MacPurpose) : Except FixedRootCommandError Unit := do
  reject (tag.key.purpose != expectedPurpose) invalidFixedRootCommand
  let key := tag.key.keyId.toList
  reject ((key.drop 32).all (· == 0)) invalidFixedRootCommand
  let serialIsZero := (slice key 24 32).all (· == 0)
  reject (serialIsZero && (expectedPurpose != .portableReservationV1
    || key.take 32 != codec.expectedPrebootstrapOrigin.toList)) invalidFixedRootCommand

/-- The binding fits the operation and the retention. -/
def validateTargetBinding (codec : FixedRootCommandCodec) (operation : FixedRootCommandOperation)
    (retention : FixedRootCommandRetention) (binding : FixedRootCommandTargetBinding) :
    Except FixedRootCommandError Unit := do
  reject (originSerialIsZero binding.target) invalidFixedRootCommand
  if operation = .bootstrapCreate then
    reject (binding.source != codec.expectedPrebootstrapOrigin) invalidFixedRootCommand
  else reject (originSerialIsZero binding.source) invalidFixedRootCommand
  reject (retention == .continuation && binding.source != binding.target) invalidFixedRootCommand

/-- The purposes of the four tags. -/
def tagPurposes : List MacPurpose :=
  [.commandLookupV1, .commandSemanticFingerprintV1, .commandPhaseFingerprintV1,
    .portableReservationV1]

/-- A terminal command expires after it ended and has a result. -/
def validateRetention (command : FixedRootCommand) : Except FixedRootCommandError Unit :=
  match command.retention with
  | .continuation => .ok ()
  | .terminal terminalTime expiresAt =>
    reject (!(decide (terminalTime < expiresAt) && command.safeResult.isSome))
      invalidFixedRootCommand

/-- `validate_command`. -/
def validateCommand (codec : FixedRootCommandCodec) (command : FixedRootCommand) :
    Except FixedRootCommandError Unit := do
  reject (!originSerialIsZero codec.expectedPrebootstrapOrigin) invalidFixedRootCommand
  let _ ← actorBytes command.actor
  reject (command.processInstance.toList.all (· == 0) || command.phase == 0
    || decide (maxProfileBodyBytes < command.profileBody.length)) invalidFixedRootCommand
  (command.tags.toList.zip tagPurposes).forM fun p => validateTag codec p.1 p.2
  validateRetention command
  match command.targetBinding with
  | none => .ok ()
  | some binding => validateTargetBinding codec command.operation command.retention binding

/-! ### Writing -/

/-- A signed number that may be absent. -/
def writeOptionalI64 : Option Int64 → List UInt8 := optionalBytes wire

/-- An unsigned number that may be absent. -/
def writeOptionalU64 : Option UInt64 → List UInt8 := optionalBytes wire

/-- The bytes of a tag. -/
def writeTag (tag : FixedRootCommandTag) : List UInt8 := tag.key.keyId.toList ++ tag.tag.toList

/-- The bytes of a retention. -/
def writeRetention : FixedRootCommandRetention → List UInt8
  | .continuation => [1, 0, 0]
  | .terminal terminalTime expiresAt => [2, 1] ++ wire terminalTime ++ [1] ++ wire expiresAt

/-- The bytes of a result behind its presence byte. -/
def safeResultBytes (result : FixedRootCommandSafeResult) : List UInt8 :=
  wire result.codec ++ wire result.version ++ result.digest.toList

/-- The bytes of a result that may be absent. -/
def writeSafeResult : Option FixedRootCommandSafeResult → List UInt8 :=
  optionalBytes safeResultBytes

/-- The bytes of a parent behind their presence byte. -/
def parentWitnessBytes (witness : ParentWitness) : List UInt8 :=
  witness.1.toList ++ wire witness.2.1 ++ witness.2.2.1.toList ++ witness.2.2.2.toList

/-- The bytes of a binding behind its presence byte. -/
def targetBindingBytes (binding : FixedRootCommandTargetBinding) : List UInt8 :=
  binding.source.toList ++ binding.target.toList ++ writeOptionalU64 binding.sourceGeneration
    ++ writeOptionalU64 binding.targetGeneration
    ++ optionalBytes parentWitnessBytes binding.parentWitness

/-- The bytes of a binding that may be absent. -/
def writeTargetBinding : Option FixedRootCommandTargetBinding → List UInt8 :=
  optionalBytes targetBindingBytes

/-- The bytes of a command, with the parts of its actor and the length of its profile. -/
def commandBytes (command : FixedRootCommand) (actor : UInt8 × List UInt8)
    (profileBodyLength : UInt16) : List UInt8 :=
  [format, command.operation.code, actor.1, UInt8.ofNat actor.2.length] ++ actor.2
    ++ (command.tags.toList.map writeTag).flatten
    ++ [command.runtime.code] ++ command.processInstance.toList
    ++ writeOptionalI64 command.originalDeadline ++ wire command.phase
    ++ writeRetention command.retention ++ writeSafeResult command.safeResult
    ++ writeTargetBinding command.targetBinding
    ++ wire profileBodyLength ++ command.profileBody

/-- `encode_fixed_root_command`. -/
def encodeFixedRootCommand (codec : FixedRootCommandCodec) (command : FixedRootCommand) :
    Except FixedRootCommandError (List UInt8) := do
  validateCommand codec command
  let actor ← actorBytes command.actor
  let profileBodyLength : UInt16 ←
    orError invalidFixedRootCommand (ofNat? command.profileBody.length)
  let wire := commandBytes command actor profileBodyLength
  reject (decide (maxCommandBodyBytes < wire.length)) invalidFixedRootCommand
  return wire

/-! ### Reading -/

/-- Reads a signed number that may be absent. -/
def optionalI64 : CommandReader (Option Int64) := optional int

/-- Reads an unsigned number that may be absent. -/
def optionalU64 : CommandReader (Option UInt64) := optional int

/-- The actor with the given kind and bytes. -/
def actorOf (kind : UInt8) (value : List UInt8) : CommandReader FixedRootCommandActor :=
  if kind = 1 then do
    require (checkIdentifier value)
    return .principal value
  else if kind = 2 ∧ value = stateOwner then return .stateOwner
  else fail

/-- Reads an actor, whose name is not empty. -/
def readActor : CommandReader FixedRootCommandActor := do
  let kind : UInt8 ← int
  let length : UInt8 ← int
  require (length != 0)
  let value ← take length.toNat
  actorOf kind value

/-- Reads a tag, which has the purpose of its place. -/
def readTag (purpose : MacPurpose) : CommandReader FixedRootCommandTag := do
  let keyId ← array 40
  let tag ← array 32
  return ⟨⟨purpose, keyId⟩, tag⟩

/-- Reads the four tags. -/
def readTags : CommandReader (List.Vector FixedRootCommandTag 4) := do
  let lookup ← readTag .commandLookupV1
  let semanticFingerprint ← readTag .commandSemanticFingerprintV1
  let phaseFingerprint ← readTag .commandPhaseFingerprintV1
  let portableReservation ← readTag .portableReservationV1
  return lookup ::ᵥ semanticFingerprint ::ᵥ phaseFingerprint ::ᵥ portableReservation ::ᵥ .nil

/-- The retention with the given parts. -/
def retentionOf (tag : UInt8) (terminalTime expiry : Option Int64) :
    CommandReader FixedRootCommandRetention :=
  match terminalTime, expiry with
  | none, none => if tag = 1 then return .continuation else fail
  | some terminalTime, some expiresAt =>
    if tag = 2 then return .terminal terminalTime expiresAt else fail
  | _, _ => fail

/-- Reads a retention. -/
def readRetention : CommandReader FixedRootCommandRetention := do
  let tag : UInt8 ← int
  let terminalTime ← optionalI64
  let expiry ← optionalI64
  retentionOf tag terminalTime expiry

/-- A result behind its presence byte. -/
def safeResult : CommandReader FixedRootCommandSafeResult := do
  let codec ← int
  let version ← int
  let digest ← array 32
  return ⟨codec, version, digest⟩

/-- Reads a result that may be absent. -/
def readSafeResult : CommandReader (Option FixedRootCommandSafeResult) := optional safeResult

/-- A parent behind its presence byte. -/
def parentWitness : CommandReader ParentWitness := do
  let origin ← array 32
  let head ← int
  let headDigest ← array 32
  let certificateDigest ← array 32
  return (origin, head, headDigest, certificateDigest)

/-- A binding behind its presence byte. -/
def targetBinding : CommandReader FixedRootCommandTargetBinding := do
  let source ← array 32
  let target ← array 32
  let sourceGeneration ← optionalU64
  let targetGeneration ← optionalU64
  let parentWitness ← optional parentWitness
  return ⟨source, target, sourceGeneration, targetGeneration, parentWitness⟩

/-- Reads a binding that may be absent. -/
def readTargetBinding : CommandReader (Option FixedRootCommandTargetBinding) :=
  optional targetBinding

/-- The fields of a command, up to the end. -/
def readCommand : CommandReader FixedRootCommand := do
  let version : UInt8 ← int
  require (version == format)
  let code : UInt8 ← int
  let operation ← FixedRootCommandOperation.fromCode code
  let actor ← readActor
  let tags ← readTags
  let runtimeCode : UInt8 ← int
  let runtime ← FixedRootCommandRuntime.fromCode runtimeCode
  let processInstance ← array 16
  let originalDeadline ← optionalI64
  let phase ← int
  let retention ← readRetention
  let safeResult ← readSafeResult
  let targetBinding ← readTargetBinding
  let profileLength : UInt16 ← int
  require (decide (profileLength.toNat ≤ maxProfileBodyBytes))
  let profileBody ← take profileLength.toNat
  return ⟨operation, actor, tags, runtime, processInstance, originalDeadline, phase, retention,
    safeResult, targetBinding, profileBody⟩

/-- `decode_fixed_root_command`: all bytes are read, and the command is validated. -/
def decodeFixedRootCommand (codec : FixedRootCommandCodec) (wire : List UInt8) :
    Except FixedRootCommandError FixedRootCommand := do
  reject (decide (maxCommandBodyBytes < wire.length)) invalidFixedRootCommand
  let command ← readAll readCommand wire
  validateCommand codec command
  return command

/-! ### What the readers consume -/

/-- One row of a table of codes. -/
theorem code_of_ite {α : Type} {codeOf : α → UInt8} {code row : UInt8} {value answer : α}
    {rest : Except FixedRootCommandError α} (hrow : row = codeOf value)
    (hrest : rest = .ok answer → code = codeOf answer)
    (h : (if code = row then .ok value else rest) = .ok answer) : code = codeOf answer := by
  by_cases hcode : code = row
  · rw [if_pos hcode] at h
    cases h
    rw [hcode, hrow]
  · rw [if_neg hcode] at h
    exact hrest h

theorem FixedRootCommandOperation.fromCode_eq_ok {code : UInt8}
    {operation : FixedRootCommandOperation} :
    FixedRootCommandOperation.fromCode code = .ok operation ↔ code = operation.code := by
  constructor
  · unfold FixedRootCommandOperation.fromCode
    iterate 13 refine code_of_ite rfl ?_
    intro h
    cases h
  · rintro rfl
    cases operation <;> rfl

theorem FixedRootCommandRuntime.fromCode_eq_ok {code : UInt8} {runtime : FixedRootCommandRuntime} :
    FixedRootCommandRuntime.fromCode code = .ok runtime ↔ code = runtime.code := by
  constructor
  · unfold FixedRootCommandRuntime.fromCode
    iterate 2 refine code_of_ite rfl ?_
    intro h
    cases h
  · rintro rfl
    cases runtime <;> rfl

/-- What is known of the parts of an actor. -/
theorem actorBytes_eq_ok {actor : FixedRootCommandActor} {parts : UInt8 × List UInt8}
    (h : actorBytes actor = .ok parts) :
    1 ≤ parts.2.length ∧ parts.2.length ≤ 128 ∧
      ∀ s, actorOf parts.1 parts.2 s = .ok (actor, s) := by
  cases actor with
  | principal value =>
    obtain ⟨hvalue, h⟩ := reject_bind_eq_ok.1 h
    rw [pure_eq_ok] at h
    subst h
    rw [Bool.not_eq_false'] at hvalue
    obtain ⟨hmin, hmax⟩ := length_checkIdentifier hvalue
    refine ⟨hmin, hmax, fun s => ?_⟩
    exact bind_run_eq_ok.2 ⟨(), s, require_run_eq_ok.2 ⟨hvalue, rfl⟩, rfl⟩
  | stateOwner =>
    cases h
    exact ⟨by decide +kernel, by decide +kernel, fun s => rfl⟩

theorem actorOf_run {kind : UInt8} {value s s' : List UInt8} {actor : FixedRootCommandActor}
    (h : actorOf kind value s = .ok (actor, s')) :
    actorBytes actor = .ok (kind, value) ∧ s = s' := by
  unfold actorOf at h
  split_ifs at h with h1 h2
  · obtain ⟨_, _, hrequire, hpure⟩ := bind_run_eq_ok.1 h
    obtain ⟨hvalue, rfl⟩ := require_run_eq_ok.1 hrequire
    obtain ⟨rfl, rfl⟩ := pure_run_eq_ok.1 hpure
    subst h1
    exact ⟨reject_bind_eq_ok.2 ⟨congrArg Bool.not hvalue, rfl⟩, rfl⟩
  · obtain ⟨rfl, rfl⟩ := pure_run_eq_ok.1 h
    obtain ⟨rfl, rfl⟩ := h2
    exact ⟨rfl, rfl⟩
  · cases h

/-- The bytes of an actor with the given parts. -/
def actorField (parts : UInt8 × List UInt8) : List UInt8 :=
  [parts.1, UInt8.ofNat parts.2.length] ++ parts.2

theorem readActor_run_eq_ok {actor : FixedRootCommandActor} {s s' : List UInt8} :
    readActor s = .ok (actor, s') ↔
      ∃ parts, actorBytes actor = .ok parts ∧ s = actorField parts ++ s' := by
  constructor
  · intro h
    simp only [readActor, bind_run_eq_ok, int_run_eq_ok, require_run_eq_ok, take_run_eq_ok] at h
    obtain ⟨kind, _, rfl, length, _, rfl, _, _, ⟨-, rfl⟩, value, _, ⟨rfl, hlength⟩, h⟩ := h
    obtain ⟨hparts, rfl⟩ := actorOf_run h
    refine ⟨(kind, value), hparts, ?_⟩
    have hbyte : UInt8.ofNat value.length = length := by rw [hlength, UInt8.ofNat_toNat]
    simp [actorField, hbyte, wire_u8]
  · rintro ⟨parts, hparts, rfl⟩
    obtain ⟨hmin, hmax, hrun⟩ := actorBytes_eq_ok hparts
    have hbyte : (UInt8.ofNat parts.2.length).toNat = parts.2.length := by
      rw [UInt8.toNat_ofNat']
      omega
    have hnonzero : (UInt8.ofNat parts.2.length != 0) = true := by
      rw [bne_iff_ne]
      intro hzero
      rw [hzero] at hbyte
      exact absurd hbyte (by simp; omega)
    simp only [readActor, bind_run_eq_ok, int_run_eq_ok, require_run_eq_ok, take_run_eq_ok]
    have hfield : actorField parts ++ s' =
        wire parts.1 ++ (wire (UInt8.ofNat parts.2.length) ++ (parts.2 ++ s')) := by
      simp [actorField, wire_u8]
    exact ⟨parts.1, _, hfield, UInt8.ofNat parts.2.length, _, rfl, (), _, ⟨hnonzero, rfl⟩, parts.2,
      s', ⟨rfl, hbyte.symm⟩, hrun s'⟩

theorem readTag_run_eq_ok {purpose : MacPurpose} {tag : FixedRootCommandTag} {s s' : List UInt8} :
    readTag purpose s = .ok (tag, s') ↔ tag.key.purpose = purpose ∧ s = writeTag tag ++ s' := by
  simp only [readTag, bind_run_eq_ok, array_run_eq_ok, pure_run_eq_ok]
  constructor
  · rintro ⟨keyId, _, rfl, digest, _, rfl, rfl, rfl⟩
    exact ⟨rfl, (List.append_assoc ..).symm⟩
  · rintro ⟨rfl, rfl⟩
    exact ⟨tag.key.keyId, _, List.append_assoc .., tag.tag, s', rfl, rfl, rfl⟩

/-- The tags have the purposes of their places. -/
def TagPurposes (tags : List.Vector FixedRootCommandTag 4) : Prop :=
  tags.toList.map (·.key.purpose) = tagPurposes

theorem readTags_run_eq_ok {tags : List.Vector FixedRootCommandTag 4} {s s' : List UInt8} :
    readTags s = .ok (tags, s') ↔
      TagPurposes tags ∧ s = (tags.toList.map writeTag).flatten ++ s' := by
  simp only [readTags, bind_run_eq_ok, readTag_run_eq_ok, pure_run_eq_ok]
  constructor
  · rintro ⟨a, _, ⟨ha, rfl⟩, b, _, ⟨hb, rfl⟩, c, _, ⟨hc, rfl⟩, d, _, ⟨hd, rfl⟩, rfl, rfl⟩
    constructor
    · simp [TagPurposes, tagPurposes, ha, hb, hc, hd]
    · simp
  · obtain ⟨tags, hlength⟩ := tags
    match tags, hlength with
    | [a, b, c, d], _ =>
      rintro ⟨hpurposes, rfl⟩
      simp only [TagPurposes, tagPurposes, List.Vector.toList_mk, List.map_cons, List.map_nil,
        List.cons.injEq, and_true] at hpurposes
      obtain ⟨ha, hb, hc, hd⟩ := hpurposes
      refine ⟨a, _, ⟨ha, ?_⟩, b, _, ⟨hb, rfl⟩, c, _, ⟨hc, rfl⟩, d, s', ⟨hd, rfl⟩, rfl, rfl⟩
      simp

theorem inverts_optionalI64 : Inverts optionalI64 writeOptionalI64 := inverts_int.optional

theorem inverts_optionalU64 : Inverts optionalU64 writeOptionalU64 := inverts_int.optional

theorem inverts_readRetention : Inverts readRetention writeRetention := by
  intro s retention s'
  simp only [readRetention, bind_run_eq_ok, int_run_eq_ok, inverts_optionalI64 _ _ _]
  constructor
  · rintro ⟨tag, _, rfl, terminalTime, _, rfl, expiry, _, rfl, h⟩
    unfold retentionOf at h
    split at h
    · split_ifs at h with htag
      · obtain ⟨rfl, rfl⟩ := pure_run_eq_ok.1 h
        subst htag
        rfl
      · cases h
    · split_ifs at h with htag
      · obtain ⟨rfl, rfl⟩ := pure_run_eq_ok.1 h
        subst htag
        simp [writeRetention, writeOptionalI64, optionalBytes]
        rfl
      · cases h
    · cases h
  · rintro rfl
    cases retention with
    | continuation => exact ⟨1, _, rfl, none, _, rfl, none, s', rfl, rfl⟩
    | terminal terminalTime expiresAt =>
      refine ⟨2, _, ?_, some terminalTime, _, rfl, some expiresAt, s', rfl, rfl⟩
      simp [writeRetention, writeOptionalI64, optionalBytes]
      rfl

theorem inverts_safeResult : Inverts safeResult safeResultBytes := by
  intro s result s'
  simp only [safeResult, bind_run_eq_ok, int_run_eq_ok, array_run_eq_ok, pure_run_eq_ok]
  constructor
  · rintro ⟨codec, _, rfl, version, _, rfl, digest, _, rfl, rfl, rfl⟩
    simp [safeResultBytes]
  · rintro rfl
    exact ⟨result.codec, _, by simp [safeResultBytes], result.version, _, rfl, result.digest, s', rfl,
      rfl, rfl⟩

theorem inverts_parentWitness : Inverts parentWitness parentWitnessBytes := by
  intro s witness s'
  simp only [parentWitness, bind_run_eq_ok, int_run_eq_ok, array_run_eq_ok, pure_run_eq_ok]
  constructor
  · rintro ⟨origin, _, rfl, head, _, rfl, headDigest, _, rfl, certificateDigest, _, rfl, rfl, rfl⟩
    simp [parentWitnessBytes]
  · rintro rfl
    exact ⟨witness.1, _, by simp [parentWitnessBytes], witness.2.1, _, rfl, witness.2.2.1, _, rfl,
      witness.2.2.2, s', rfl, rfl, rfl⟩

theorem inverts_targetBinding : Inverts targetBinding targetBindingBytes := by
  intro s binding s'
  simp only [targetBinding, bind_run_eq_ok, array_run_eq_ok, inverts_optionalU64 _ _ _,
    inverts_parentWitness.optional _ _ _, pure_run_eq_ok]
  constructor
  · rintro ⟨source, _, rfl, target, _, rfl, sourceGeneration, _, rfl, targetGeneration, _, rfl,
      witness, _, rfl, rfl, rfl⟩
    simp [targetBindingBytes]
  · rintro rfl
    exact ⟨binding.source, _, by simp [targetBindingBytes], binding.target, _, rfl,
      binding.sourceGeneration, _, rfl, binding.targetGeneration, _, rfl, binding.parentWitness, s',
      rfl, rfl, rfl⟩

/-! ### The codec is canonical -/

/-- What a body consists of. -/
structure Body (command : FixedRootCommand) (bytes : List UInt8) : Prop where
  purposes : TagPurposes command.tags
  profile : command.profileBody.length ≤ maxProfileBodyBytes
  layout : ∃ (actor : UInt8 × List UInt8) (profileBodyLength : UInt16),
    actorBytes command.actor = .ok actor ∧
    profileBodyLength.toNat = command.profileBody.length ∧
    bytes = commandBytes command actor profileBodyLength

theorem readCommand_eq_ok {command : FixedRootCommand} {bytes : List UInt8} :
    readAll readCommand bytes = .ok command ↔ Body command bytes := by
  simp only [readAll_eq_ok, readCommand, bind_run_eq_ok, int_run_eq_ok, require_run_eq_ok,
    lift_run_eq_ok, FixedRootCommandOperation.fromCode_eq_ok, readActor_run_eq_ok,
    readTags_run_eq_ok, FixedRootCommandRuntime.fromCode_eq_ok, array_run_eq_ok,
    inverts_optionalI64 _ _ _, inverts_readRetention _ _ _, readSafeResult,
    inverts_safeResult.optional _ _ _, readTargetBinding, inverts_targetBinding.optional _ _ _,
    take_run_eq_ok, pure_run_eq_ok, beq_iff_eq, decide_eq_true_eq]
  constructor
  · rintro ⟨version, _, rfl, _, _, ⟨rfl, rfl⟩, code, _, rfl, operation, _, ⟨rfl, rfl⟩, actor, _,
      ⟨parts, hparts, rfl⟩, tags, _, ⟨htags, rfl⟩, runtimeCode, _, rfl, runtime, _, ⟨rfl, rfl⟩,
      process, _, rfl, deadline, _, rfl, phase, _, rfl, retention, _, rfl, result, _, rfl, binding, _,
      rfl, profileLength, _, rfl, _, _, ⟨hprofile, rfl⟩, profile, _, ⟨rfl, hlength⟩, rfl, rfl⟩
    refine ⟨htags, hlength.trans_le hprofile, parts, profileLength, hparts, hlength.symm, ?_⟩
    simp [commandBytes, actorField, wire_u8, writeSafeResult, writeTargetBinding]
  · rintro ⟨htags, hprofile, parts, profileLength, hparts, hlength, rfl⟩
    refine ⟨format, _, ?_, (), _, ⟨rfl, rfl⟩, command.operation.code, _, rfl, command.operation, _,
      ⟨rfl, rfl⟩, command.actor, _, ⟨parts, hparts, rfl⟩, command.tags, _, ⟨htags, rfl⟩,
      command.runtime.code, _, rfl, command.runtime, _, ⟨rfl, rfl⟩, command.processInstance, _, rfl,
      command.originalDeadline, _, rfl, command.phase, _, rfl, command.retention, _, rfl,
      command.safeResult, _, rfl, command.targetBinding, _, rfl, profileLength, _, rfl, (), _,
      ⟨hlength ▸ hprofile, rfl⟩, command.profileBody, [], ⟨rfl, hlength.symm⟩, rfl, rfl⟩
    simp [commandBytes, actorField, wire_u8, writeSafeResult, writeTargetBinding]

theorem validateTag_purpose {codec : FixedRootCommandCodec} {tag : FixedRootCommandTag}
    {purpose : MacPurpose} {u : Unit} (h : validateTag codec tag purpose = .ok u) :
    tag.key.purpose = purpose := by
  obtain ⟨hpurpose, -⟩ := reject_bind_eq_ok.1 h
  exact bne_eq_false_iff_eq.1 hpurpose

/-- The tags of a valid command have their purposes. -/
theorem tagPurposes_of_forM {codec : FixedRootCommandCodec}
    {tags : List.Vector FixedRootCommandTag 4} {u : Unit}
    (h : ((tags.toList.zip tagPurposes).forM fun p => validateTag codec p.1 p.2) = .ok u) :
    TagPurposes tags := by
  obtain ⟨tags, hlength⟩ := tags
  match tags, hlength with
  | [a, b, c, d], _ =>
    have hpurpose : ∀ p ∈ [a, b, c, d].zip tagPurposes, p.1.key.purpose = p.2 :=
      fun p hp => validateTag_purpose (forM_eq_ok.1 h p hp)
    simpa [tagPurposes, TagPurposes] using hpurpose

/-- What the validation says of tags and profile. -/
theorem validateCommand_parts {codec : FixedRootCommandCodec} {command : FixedRootCommand}
    {u : Unit} (h : validateCommand codec command = .ok u) :
    TagPurposes command.tags ∧ command.profileBody.length ≤ maxProfileBodyBytes := by
  obtain ⟨-, h⟩ := reject_bind_eq_ok.1 h
  obtain ⟨actor, -, h⟩ := bind_eq_ok.1 h
  obtain ⟨hfields, h⟩ := reject_bind_eq_ok.1 h
  obtain ⟨⟨⟩, htags, -⟩ := bind_eq_ok.1 h
  rw [Bool.or_eq_false_iff, decide_eq_false_iff_not, Nat.not_lt] at hfields
  exact ⟨tagPurposes_of_forM htags, hfields.2⟩

/-- What the encoder checks, and what it writes. -/
theorem encodeFixedRootCommand_eq_ok {codec : FixedRootCommandCodec} {command : FixedRootCommand}
    {bytes : List UInt8} :
    encodeFixedRootCommand codec command = .ok bytes ↔
      validateCommand codec command = .ok () ∧ Body command bytes ∧
        bytes.length ≤ maxCommandBodyBytes := by
  simp only [encodeFixedRootCommand, bind_eq_ok, reject_eq_ok, orError_eq_ok, pure_eq_ok,
    ofNat?_eq_some, decide_eq_false_iff_not, Nat.not_lt]
  constructor
  · rintro ⟨_, hvalid, actor, hactor, profileLength, hlength, _, hfit, rfl⟩
    obtain ⟨hpurposes, hprofile⟩ := validateCommand_parts hvalid
    exact ⟨hvalid, ⟨hpurposes, hprofile, actor, profileLength, hactor, hlength, rfl⟩, hfit⟩
  · rintro ⟨hvalid, ⟨-, -, actor, profileLength, hactor, hlength, rfl⟩, hfit⟩
    exact ⟨(), hvalid, actor, hactor, profileLength, hlength, (), hfit, rfl⟩

/-- **A body is accepted exactly when it is the encoding of the command that is answered.** -/
theorem decodeFixedRootCommand_eq_ok {codec : FixedRootCommandCodec} {command : FixedRootCommand}
    {bytes : List UInt8} :
    decodeFixedRootCommand codec bytes = .ok command ↔
      encodeFixedRootCommand codec command = .ok bytes := by
  rw [encodeFixedRootCommand_eq_ok]
  simp only [decodeFixedRootCommand, bind_eq_ok, reject_eq_ok, pure_eq_ok, readCommand_eq_ok,
    decide_eq_false_iff_not, Nat.not_lt]
  constructor
  · rintro ⟨_, hfit, command, hbody, _, hvalid, rfl⟩
    exact ⟨hvalid, hbody, hfit⟩
  · rintro ⟨hvalid, hbody, hfit⟩
    exact ⟨(), hfit, command, hbody, (), hvalid, rfl⟩

end MsgRiver.Journal.FixedRoot
