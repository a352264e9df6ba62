import MsgRiver.Journal.Command

/-!
# The journal image and the command codec agree

The commands of a checkpoint and the standalone command codec are two implementations of one layout.
`commandOf` is the command that a projection of the image stands for.  The image checks less in one
place and more in another: an entry is read without looking at its retention, and a projection is
restricted to one operation by the checkpoint around it.

`commandCodecs_agree`: a command of a checkpoint that has an encoding is written by both codecs to
the same bytes, and every entry in the payload of an accepted checkpoint is read by both to the same
values.
-/

namespace MsgRiver.Journal

open Bytes Result Wire

open FixedRoot (FixedRootCommand FixedRootCommandCodec FixedRootCommandOperation
  FixedRootCommandActor FixedRootCommandTag FixedRootCommandRuntime FixedRootCommandRetention
  FixedRootCommandSafeResult FixedRootCommandTargetBinding ParentWitness encodeFixedRootCommand
  decodeFixedRootCommand)

/-! ### The command of a projection -/

/-- The codec of an owner namespace: its prebootstrap origin is the namespace with the serial zero.
-/
def commandCodec (ownerNamespace : ByteVec 24) : FixedRootCommandCodec :=
  ⟨ownerNamespace ++ ByteVec.zero 8⟩

/-- The operation of the command codec. -/
def FixedRootOperation.command : FixedRootOperation → FixedRootCommandOperation
  | .configurationActivate => .configurationActivate
  | .stateKeyRotate => .stateKeyRotate
  | .stateKeyRetire => .stateKeyRetire
  | .recoveryKeyGenerate => .recoveryKeyGenerate
  | .recoveryKeyImport => .recoveryKeyImport
  | .recoveryKeyRetire => .recoveryKeyRetire
  | .bootstrapCreate => .bootstrapCreate
  | .restoreCreate => .restoreCreate
  | .stateGenerationDelete => .stateGenerationDelete
  | .upgradePrepare => .upgradePrepare
  | .upgradeMigrate => .upgradeMigrate
  | .upgradeActivate => .upgradeActivate
  | .upgradeRollback => .upgradeRollback

/-- The actor of the command codec. -/
def StableActorNamespace.command : StableActorNamespace → FixedRootCommandActor
  | .principal bytes => .principal bytes
  | .stateOwner => .stateOwner

/-- The tag of the command codec. -/
def CommandTag.command (tag : CommandTag) : FixedRootCommandTag := ⟨tag.key, tag.tag⟩

/-- The mode of the command codec. -/
def CommandRuntime.command : CommandRuntime → FixedRootCommandRuntime
  | .normal => .normal
  | .maintenance => .maintenance

/-- The retention of the command codec. -/
def CommandRetention.command : CommandRetention → FixedRootCommandRetention
  | .continuation => .continuation
  | .terminal terminalTime expiresAt => .terminal terminalTime expiresAt

/-- The result of the command codec. -/
def CommandSafeResult.command (result : CommandSafeResult) : FixedRootCommandSafeResult :=
  ⟨result.codec, result.version, result.digest⟩

/-- The witness of the command codec. -/
def CommandParentWitness.command (witness : CommandParentWitness) : ParentWitness :=
  (witness.origin, witness.head.sequence, witness.head.digest, witness.certificateDigest)

/-- The binding of the command codec. -/
def CommandTargetBinding.command (binding : CommandTargetBinding) : FixedRootCommandTargetBinding :=
  ⟨binding.source, binding.target, binding.sourceGeneration, binding.targetGeneration,
    binding.parentWitness.map CommandParentWitness.command⟩

/-- The command with the fields of a projection and the bytes of its profile. -/
def commandOf (command : FixedRootCommandProjection) : FixedRootCommand where
  operation := command.operation.command
  actor := command.actor.command
  tags := command.lookup.command ::ᵥ command.semanticFingerprint.command
    ::ᵥ command.phaseFingerprint.command ::ᵥ command.portableReservation.command ::ᵥ .nil
  runtime := command.runtime.command
  processInstance := command.processInstance
  originalDeadline := command.originalDeadline
  phase := command.phase
  retention := command.retention.command
  safeResult := command.safeResult.map CommandSafeResult.command
  targetBinding := command.targetBinding.map CommandTargetBinding.command
  profileBody := encodeRecoveryKeyGenerateProfile command.profile

/-! ### Fields -/

theorem actorBytes_command {actor : StableActorNamespace} (h : validNamespace actor = true) :
    FixedRoot.actorBytes actor.command = .ok (namespaceParts actor) := by
  cases actor with
  | principal bytes => exact reject_bind_eq_ok.2 ⟨congrArg Bool.not h, rfl⟩
  | stateOwner => rfl

theorem code_command (runtime : CommandRuntime) : runtime.command.code = runtime.code := by
  cases runtime <;> rfl

theorem writeOptionalI64_eq (deadline : Option Int64) :
    FixedRoot.writeOptionalI64 deadline = (deadlineFields deadline).flatten := by
  cases deadline <;> simp [FixedRoot.writeOptionalI64, optionalBytes, deadlineFields]

theorem writeRetention_command (retention : CommandRetention) :
    FixedRoot.writeRetention retention.command = (retentionFields retention).flatten := by
  cases retention <;>
    simp [CommandRetention.command, FixedRoot.writeRetention, retentionFields, wire_u8]

theorem writeSafeResult_command (result : Option CommandSafeResult) :
    FixedRoot.writeSafeResult (result.map CommandSafeResult.command) =
      (safeResultFields result).flatten := by
  cases result <;> simp [CommandSafeResult.command, FixedRoot.writeSafeResult, optionalBytes,
    FixedRoot.safeResultBytes, safeResultFields]

/-- Both codecs lay the fields out alike. -/
theorem commandBytes_commandOf {command : FixedRootCommandProjection} {actorLength : UInt8}
    {profileLength : UInt16} (hoperation : command.operation = .recoveryKeyGenerate)
    (hunbound : command.targetBinding = none)
    (hactor : actorLength.toNat = (namespaceParts command.actor).2.length) :
    FixedRoot.commandBytes (commandOf command) (namespaceParts command.actor) profileLength =
      (commandFields command actorLength profileLength).flatten := by
  have hlength : UInt8.ofNat (namespaceParts command.actor).2.length = actorLength := by
    rw [← hactor, UInt8.ofNat_toNat]
  simp [FixedRoot.commandBytes, commandOf, commandFields, hoperation, hunbound, hlength,
    FixedRootOperation.command, FixedRootCommandOperation.code, FixedRoot.format, wire_u8,
    code_command, writeOptionalI64_eq, writeRetention_command, writeSafeResult_command,
    FixedRoot.writeTargetBinding, optionalBytes, FixedRoot.writeTag, CommandTag.command, tagFields]

/-! ### Validation -/

theorem all_zero {n : ℕ} {bytes : List UInt8} (h : bytes.length = n) :
    bytes.all (· == 0) = (bytes == List.replicate n 0) := by
  rw [Bool.eq_iff_iff, List.all_eq_true, beq_iff_eq, List.eq_replicate_iff]
  simp [h]

theorem origin_commandCodec (ownerNamespace : ByteVec 24) :
    (commandCodec ownerNamespace).expectedPrebootstrapOrigin.toList =
      expectedPrebootstrapOrigin ownerNamespace :=
  List.Vector.toList_append ..

theorem originSerialIsZero_commandCodec (ownerNamespace : ByteVec 24) :
    FixedRoot.originSerialIsZero (commandCodec ownerNamespace).expectedPrebootstrapOrigin = true := by
  rw [FixedRoot.originSerialIsZero, origin_commandCodec, expectedPrebootstrapOrigin,
    List.drop_left' ownerNamespace.toList_length]
  decide

theorem validateTag_command {ownerNamespace : ByteVec 24} {tag : CommandTag} {purpose : MacPurpose}
    {u : Unit}
    (h : validateCommandTag tag purpose (expectedPrebootstrapOrigin ownerNamespace) = .ok u) :
    FixedRoot.validateTag (commandCodec ownerNamespace) tag.command purpose = .ok () := by
  have hkey : tag.key.keyId.toList.length = 40 := List.Vector.toList_length _
  have hserial : (tag.key.keyId.toList.drop 32).length = 8 := by rw [List.length_drop, hkey]
  have horigin : (slice tag.key.keyId.toList 24 32).length = 8 := length_slice (by omega)
  simp only [validateCommandTag, ← all_zero hserial, ← all_zero horigin, reject_bind_eq_ok,
    reject_eq_ok] at h
  simp only [FixedRoot.validateTag, origin_commandCodec, reject_bind_eq_ok, reject_eq_ok]
  exact h

/-- What the image demands of a command, apart from what the encoder checks. -/
theorem validateCommand_fields {command : FixedRootCommandProjection} {key : List UInt8}
    (h : validateCommand command = .ok key) :
    command.phase ≠ 0 ∧ command.processInstance ≠ ByteVec.zero 16 := by
  obtain ⟨hphase, h⟩ := reject_bind_eq_ok.1 h
  obtain ⟨-, h⟩ := reject_bind_eq_ok.1 h
  obtain ⟨hprocess, -⟩ := reject_bind_eq_ok.1 h
  simp only [Bool.or_eq_false_iff, Bool.not_eq_false'] at hphase
  refine ⟨?_, by simpa using hprocess⟩
  intro hzero
  have hfits := hphase.2
  rw [hzero] at hfits
  cases hretention : command.retention <;> rw [hretention] at hfits <;> cases hfits

theorem retentionEncodable_of_encode {ownerNamespace : ByteVec 24}
    {command : FixedRootCommandProjection} {bytes : List UInt8}
    (h : encodeCommandProjection ownerNamespace command = .ok bytes) :
    retentionEncodable command.safeResult command.retention = true ∧ bytes.length ≤ 16274 := by
  obtain ⟨-, h⟩ := reject_bind_eq_ok.1 h
  obtain ⟨-, h⟩ := reject_bind_eq_ok.1 h
  obtain ⟨_, -, h⟩ := orError_bind_eq_ok.1 h
  obtain ⟨_, -, h⟩ := bind_eq_ok.1 h
  obtain ⟨hretention, h⟩ := reject_bind_eq_ok.1 h
  obtain ⟨_, -, h⟩ := orError_bind_eq_ok.1 h
  obtain ⟨hfit, h⟩ := reject_bind_eq_ok.1 h
  obtain rfl := Except.ok.inj h
  rw [decide_eq_false_iff_not, Nat.not_lt] at hfit
  exact ⟨by simpa using hretention, hfit⟩

theorem validateRetention_commandOf {command : FixedRootCommandProjection}
    (h : retentionEncodable command.safeResult command.retention = true) :
    FixedRoot.validateRetention (commandOf command) = .ok () := by
  cases hretention : command.retention with
  | continuation =>
    simp [FixedRoot.validateRetention, commandOf, hretention, CommandRetention.command]
  | terminal terminalTime expiresAt =>
    rw [hretention, retentionEncodable] at h
    simp only [FixedRoot.validateRetention, commandOf, hretention, CommandRetention.command,
      Option.isSome_map, h]
    rfl

section Commands

variable {ownerNamespace : ByteVec 24} {command : FixedRootCommandProjection} {key bytes : List UInt8}

/-- **A command that the image writes is valid for the command codec.** -/
theorem validateCommand_commandOf (hvalid : validateCommand command = .ok key)
    (h : encodeCommandProjection ownerNamespace command = .ok bytes) :
    FixedRoot.validateCommand (commandCodec ownerNamespace) (commandOf command) = .ok () := by
  obtain ⟨-, hunbound, hactor, htags, -⟩ := commandEncoding_of_encode h
  obtain ⟨hphase, hprocess⟩ := validateCommand_fields hvalid
  refine reject_bind_eq_ok.2 ⟨?_, bind_eq_ok.2 ⟨_, actorBytes_command hactor, ?_⟩⟩
  · rw [originSerialIsZero_commandCodec]
    rfl
  refine reject_bind_eq_ok.2 ⟨?_, bind_eq_ok.2 ⟨(), ?_, bind_eq_ok.2 ⟨(), ?_, ?_⟩⟩⟩
  · have hprofile := length_encodeRecoveryKeyGenerateProfile command.profile
    have hentries := length_profileEntries command.profile
    simp only [Bool.or_eq_false_iff, decide_eq_false_iff_not, Nat.not_lt, beq_eq_false_iff_ne]
    refine ⟨⟨?_, hphase⟩, ?_⟩
    · show command.processInstance.toList.all (· == 0) = false
      rw [all_zero (List.Vector.toList_length _), beq_eq_false_iff_ne]
      intro hzero
      exact hprocess (List.Vector.toList_injective hzero)
    · show (encodeRecoveryKeyGenerateProfile command.profile).length ≤ 15580
      omega
  · have htag : ∀ p ∈ commandTags command,
        FixedRoot.validateTag (commandCodec ownerNamespace) p.1.command p.2 = .ok () :=
      fun p hp => validateTag_command (forM_eq_ok.1 htags p hp)
    refine forM_eq_ok.2 ?_
    simpa [commandTags, commandOf, FixedRoot.tagPurposes] using htag
  · exact validateRetention_commandOf (retentionEncodable_of_encode h).1
  · simp [commandOf, hunbound]

/-- **A command of a checkpoint is written alike by both codecs.** -/
theorem encodeFixedRootCommand_commandOf (hvalid : validateCommand command = .ok key)
    (h : encodeCommandProjection ownerNamespace command = .ok bytes) :
    encodeFixedRootCommand (commandCodec ownerNamespace) (commandOf command) = .ok bytes := by
  have hcommand := validateCommand_commandOf hvalid h
  obtain ⟨hpurposes, hprofile⟩ := FixedRoot.validateCommand_parts hcommand
  obtain ⟨hoperation, hunbound, hactor, -, actorLength, profileLength, hal, hpl, hbytes⟩ :=
    commandEncoding_of_encode h
  refine FixedRoot.encodeFixedRootCommand_eq_ok.2 ⟨hcommand, ⟨hpurposes, hprofile, ?_⟩,
    (retentionEncodable_of_encode h).2⟩
  refine ⟨namespaceParts command.actor, profileLength, actorBytes_command hactor, hpl, ?_⟩
  rw [hbytes, commandBytes_commandOf hoperation hunbound hal]

end Commands

/-! ### The entries of a payload -/

/-- `count` entries, each behind its length. -/
def readEntries : ℕ → ImageReader (List (List UInt8))
  | 0 => pure []
  | count + 1 => do
    let length : UInt16 ← int
    let entry ← take length.toNat
    let entries ← readEntries count
    return entry :: entries

/-- The entries of a command member. -/
def readMemberEntries : ImageReader (List (List UInt8)) := do
  let count : UInt32 ← int
  readEntries count.toNat

/-- The command member behind the members before it. -/
def readToCommands : ImageReader (List UInt8) := do
  let _ ← readMember 1
  let _ ← readMember 2
  let _ ← readMember 3
  let _ ← readMember 4
  let _ ← readMember 5
  readMember 6

/-- The command entries inside the payload of a checkpoint, as bytes. -/
def commandEntries (payload : List UInt8) :
    Except ControlJournalImageError (List (List UInt8)) := do
  let member ← readToCommands payload
  readAll readMemberEntries member.1

theorem entries_of_mapM {ownerNamespace : ByteVec 24} {commands : List FixedRootCommandProjection}
    {fields : List (List (List UInt8))}
    (h : commands.mapM (commandEntryFields ownerNamespace) = .ok fields) :
    ∃ entries, Parses (readEntries commands.length) fields.flatten.flatten entries ∧
      List.Forall₂ (fun entry command => encodeCommandProjection ownerNamespace command = .ok entry)
        entries commands := by
  induction commands generalizing fields with
  | nil =>
    cases h
    exact ⟨[], parses_pure _, .nil⟩
  | cons command commands ih =>
    rw [List.mapM_cons] at h
    obtain ⟨first, hfirst, h⟩ := bind_eq_ok.1 h
    obtain ⟨rest, hrest, h⟩ := bind_eq_ok.1 h
    obtain rfl := Except.ok.inj h
    obtain ⟨bytes, hbytes, hfirst⟩ := bind_eq_ok.1 hfirst
    obtain ⟨length, hlength, hfirst⟩ := orError_bind_eq_ok.1 hfirst
    obtain rfl := Except.ok.inj hfirst
    obtain ⟨entries, hparses, hentries⟩ := ih hrest
    refine ⟨bytes :: entries, ?_, .cons hbytes hentries⟩
    exact (parses_int _).cons ((parses_take (ofNat?_eq_some.1 hlength).symm).cons hparses.map)

section Checkpoints

variable {key : JournalIntegrityKey} {ownerNamespace : ByteVec 24} {checkpoint : CompleteCheckpoint}
  {payload : List UInt8}

/-- The entries of a member are the encodings of its commands. -/
theorem readMemberEntries_of_encode {commands : List FixedRootCommandProjection}
    {bytes : List UInt8}
    (h : encodeCommandMember ownerNamespace commands = .ok bytes) :
    ∃ entries, readAll readMemberEntries bytes = .ok entries ∧
      List.Forall₂ (fun entry command => encodeCommandProjection ownerNamespace command = .ok entry)
        entries commands := by
  obtain ⟨-, h⟩ := reject_bind_eq_ok.1 h
  obtain ⟨count, hcount, h⟩ := orError_bind_eq_ok.1 h
  obtain ⟨fields, hfields, h⟩ := bind_eq_ok.1 h
  obtain ⟨rfl, -⟩ := written_eq_ok.1 h
  obtain ⟨entries, hparses, hentries⟩ := entries_of_mapM hfields
  rw [← ofNat?_eq_some.1 hcount] at hparses
  have hmember : Parses readMemberEntries (wire count :: fields.flatten).flatten entries :=
    (parses_int count).cons hparses
  exact ⟨entries, hmember.readAll, hentries⟩

/-- The entries inside a payload are the encodings of the commands of the checkpoint. -/
theorem commandEntries_of_encode
    (h : encodeCheckpoint key ownerNamespace checkpoint = .ok payload) :
    ∃ entries, commandEntries payload = .ok entries ∧
      List.Forall₂ (fun entry command => encodeCommandProjection ownerNamespace command = .ok entry)
        entries checkpoint.localCommands := by
  obtain ⟨⟨⟩, -, h⟩ := bind_eq_ok.1 h
  obtain ⟨fields, hfields, h⟩ := bind_eq_ok.1 h
  obtain ⟨ordinary, hordinary, h⟩ := bind_eq_ok.1 h
  obtain ⟨_, -, h⟩ := bind_eq_ok.1 h
  obtain ⟨reconciliation, -, h⟩ := bind_eq_ok.1 h
  obtain ⟨_, -, h⟩ := bind_eq_ok.1 h
  obtain ⟨suffix, -, h⟩ := bind_eq_ok.1 h
  obtain ⟨-, h⟩ := reject_bind_eq_ok.1 h
  obtain ⟨rfl, -⟩ := written_eq_ok.1 hordinary
  obtain ⟨rfl, -⟩ := written_eq_ok.1 h
  obtain ⟨m1, hm1, hfields⟩ := bind_eq_ok.1 hfields
  obtain ⟨_, -, hfields⟩ := bind_eq_ok.1 hfields
  obtain ⟨m2, hm2, hfields⟩ := bind_eq_ok.1 hfields
  obtain ⟨_, -, hfields⟩ := bind_eq_ok.1 hfields
  obtain ⟨m3, hm3, hfields⟩ := bind_eq_ok.1 hfields
  obtain ⟨_, -, hfields⟩ := bind_eq_ok.1 hfields
  obtain ⟨m4, hm4, hfields⟩ := bind_eq_ok.1 hfields
  obtain ⟨_, -, hfields⟩ := bind_eq_ok.1 hfields
  obtain ⟨m5, hm5, hfields⟩ := bind_eq_ok.1 hfields
  obtain ⟨member, hmember, hfields⟩ := bind_eq_ok.1 hfields
  obtain ⟨m6, hm6, hfields⟩ := bind_eq_ok.1 hfields
  obtain rfl := Except.ok.inj hfields
  have hread : Parses readToCommands (m1 ++ (m2 ++ (m3 ++ (m4 ++ (m5 ++ m6))))).flatten member :=
    (parses_readMember hm1).append ((parses_readMember hm2).append
      ((parses_readMember hm3).append ((parses_readMember hm4).append
        ((parses_readMember hm5).append (parses_readMember hm6)))))
  obtain ⟨entries, hentries, hencoded⟩ := readMemberEntries_of_encode hmember
  exact ⟨entries, bind_eq_ok.2 ⟨_, hread _, hentries⟩, hencoded⟩

/-- The commands of a checkpoint that has an encoding are valid. -/
theorem validateCommand_of_encodeCheckpoint
    (h : encodeCheckpoint key ownerNamespace checkpoint = .ok payload) :
    ∀ command ∈ checkpoint.localCommands, ∃ commandKey, validateCommand command = .ok commandKey := by
  obtain ⟨⟨⟩, hvalid, -⟩ := bind_eq_ok.1 h
  exact validateCommand_of_mem (validateCheckpoint_eq_ok.1 hvalid).commands

/-- What both codecs make of a command and of its entry. -/
structure Agree (ownerNamespace : ByteVec 24) (entry : List UInt8)
    (command : FixedRootCommandProjection) : Prop where
  encode : encodeCommandProjection ownerNamespace command = .ok entry
  encodeCommand : encodeFixedRootCommand (commandCodec ownerNamespace) (commandOf command) = .ok entry
  decode : decodeCommandProjection ownerNamespace entry = .ok command
  decodeCommand : decodeFixedRootCommand (commandCodec ownerNamespace) entry =
    .ok (commandOf command)

theorem agree_of_encode {command : FixedRootCommandProjection} {commandKey entry : List UInt8}
    (hvalid : validateCommand command = .ok commandKey)
    (h : encodeCommandProjection ownerNamespace command = .ok entry) :
    Agree ownerNamespace entry command :=
  have hencode := encodeFixedRootCommand_commandOf hvalid h
  ⟨h, hencode, decode_encodeCommandProjection hvalid h,
    FixedRoot.decodeFixedRootCommand_eq_ok.2 hencode⟩

theorem agree_of_forall₂ {entries : List (List UInt8)} {commands : List FixedRootCommandProjection}
    (hvalid : ∀ command ∈ commands, ∃ commandKey, validateCommand command = .ok commandKey)
    (h : List.Forall₂ (fun entry command =>
      encodeCommandProjection ownerNamespace command = .ok entry) entries commands) :
    List.Forall₂ (Agree ownerNamespace) entries commands := by
  induction h with
  | nil => exact .nil
  | cons hencode _ ih =>
    obtain ⟨⟨_, hcommand⟩, hothers⟩ := List.forall_mem_cons.1 hvalid
    exact .cons (agree_of_encode hcommand hencode) (ih hothers)

/-- Every command has its entry. -/
theorem exists_entry {entries : List (List UInt8)} {commands : List FixedRootCommandProjection}
    (h : List.Forall₂ (Agree ownerNamespace) entries commands) :
    ∀ command ∈ commands, ∃ entry, Agree ownerNamespace entry command := by
  induction h with
  | nil => exact fun _ hmem => absurd hmem List.not_mem_nil
  | cons hagree _ ih => exact List.forall_mem_cons.2 ⟨⟨_, hagree⟩, ih⟩

/-- **The image and the command codec agree on command bytes**: on every command of a checkpoint
that has an encoding, and on every entry in the payload of a checkpoint that is accepted. -/
theorem commandCodecs_agree (key : JournalIntegrityKey) (ownerNamespace : ByteVec 24)
    (checkpoint : CompleteCheckpoint) (payload : List UInt8) :
    (encodeCheckpoint key ownerNamespace checkpoint = .ok payload →
      ∀ command ∈ checkpoint.localCommands, ∃ bytes,
        encodeCommandProjection ownerNamespace command = .ok bytes ∧
        encodeFixedRootCommand (commandCodec ownerNamespace) (commandOf command) = .ok bytes) ∧
    (decodeCheckpoint key ownerNamespace payload = .ok checkpoint →
      ∃ entries, commandEntries payload = .ok entries ∧
        List.Forall₂ (fun entry command =>
          decodeCommandProjection ownerNamespace entry = .ok command ∧
          decodeFixedRootCommand (commandCodec ownerNamespace) entry = .ok (commandOf command))
          entries checkpoint.localCommands) := by
  have hagree : encodeCheckpoint key ownerNamespace checkpoint = .ok payload →
      ∃ entries, commandEntries payload = .ok entries ∧
        List.Forall₂ (Agree ownerNamespace) entries checkpoint.localCommands := by
    intro h
    obtain ⟨entries, hentries, hencoded⟩ := commandEntries_of_encode h
    exact ⟨entries, hentries, agree_of_forall₂ (validateCommand_of_encodeCheckpoint h) hencoded⟩
  constructor
  · intro h command hmem
    obtain ⟨entries, -, hentries⟩ := hagree h
    obtain ⟨entry, hentry⟩ := exists_entry hentries command hmem
    exact ⟨entry, hentry.encode, hentry.encodeCommand⟩
  · intro h
    obtain ⟨entries, hpayload, hentries⟩ := hagree (encode_of_decodeCheckpoint h)
    exact ⟨entries, hpayload, hentries.imp fun _ _ hentry => ⟨hentry.decode, hentry.decodeCommand⟩⟩

end Checkpoints

/-- The first phase of a generation, with one byte everywhere. -/
def sampleCommand : FixedRootCommandProjection where
  operation := .recoveryKeyGenerate
  actor := .stateOwner
  lookup := ⟨⟨.commandLookupV1, .replicate 40 1⟩, .replicate 32 1⟩
  semanticFingerprint := ⟨⟨.commandSemanticFingerprintV1, .replicate 40 1⟩, .replicate 32 1⟩
  phaseFingerprint := ⟨⟨.commandPhaseFingerprintV1, .replicate 40 1⟩, .replicate 32 1⟩
  portableReservation := ⟨⟨.portableReservationV1, .replicate 40 1⟩, .replicate 32 1⟩
  runtime := .maintenance
  processInstance := .replicate 16 1
  originalDeadline := none
  phase := 1
  retention := .continuation
  safeResult := none
  targetBinding := none
  profile := ⟨.generate, none, none⟩

theorem commandCodecs_agree_sample : ∃ payload entry,
    decodeCheckpoint ⟨ByteVec.zero 32⟩ (ByteVec.zero 24) payload =
      .ok (commandCheckpoint sampleCommand) ∧
    commandEntries payload = .ok [entry] ∧
    decodeFixedRootCommand (commandCodec (ByteVec.zero 24)) entry =
      .ok (commandOf sampleCommand) := by
  have hvalid : ValidCheckpoint (commandCheckpoint sampleCommand) :=
    validateCheckpoint_eq_ok.1 (validateCheckpoint_commandCheckpoint rfl)
  have hcommands : ∃ bytes, encodeCommandMember (ByteVec.zero 24) [sampleCommand] = .ok bytes := by
    have hok : (encodeCommandMember (ByteVec.zero 24) [sampleCommand]).isOk = true := by
      decide +kernel
    cases hmember : encodeCommandMember (ByteVec.zero 24) [sampleCommand] with
    | ok bytes => exact ⟨bytes, rfl⟩
    | error e =>
      rw [hmember] at hok
      cases hok
  have hfixed : FixedParts ⟨ByteVec.zero 32⟩ (ByteVec.zero 24) (commandCheckpoint sampleCommand) :=
    ⟨⟨_, rfl⟩, ⟨_, rfl⟩, hcommands⟩
  obtain ⟨payload, h⟩ := exists_encodeCheckpoint.2 ⟨hvalid, hfixed⟩
  have hdecode := decode_encodeCheckpoint h
  obtain ⟨entries, hpayload, hentries⟩ := (commandCodecs_agree _ _ _ _).2 hdecode
  obtain ⟨entry, rfl, hentry⟩ : ∃ entry, entries = [entry] ∧
      decodeFixedRootCommand (commandCodec (ByteVec.zero 24)) entry =
        .ok (commandOf sampleCommand) := by
    cases hentries with
    | cons hentry hrest =>
      cases hrest
      exact ⟨_, rfl, hentry.2⟩
  exact ⟨payload, entry, hdecode, hpayload, hentry⟩

end MsgRiver.Journal
