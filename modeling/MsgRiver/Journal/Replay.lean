import MsgRiver.Journal.Checkpoint

/-!
# The tail and its replay

An image is a checkpoint and a tail of frames behind it.  Each frame names the head before it and
the head it leads to, and its record changes the projection: a clock checkpoint moves the clock
authority, an addressed record moves one pending obligation a step forward.  `replayTail` validates
an image and computes the projection at its last head; `replayFrame` is one turn of its loop.
-/

namespace MsgRiver.Journal

open Bytes Result Ascii Sha256

/-- The record of a frame. -/
inductive TailRecord
  | clockCheckpointEvent (body : ClockCheckpointBody)
  | clockAcknowledge (action : AddressedAction)
  | systemShutdown (action : AddressedAction)
  deriving DecidableEq

/-- A record, between the head before it and the one behind it. -/
structure AuthenticatedTailFrame where
  priorHead : JournalHead
  resultingHead : JournalHead
  record : TailRecord
  deriving DecidableEq

/-- An image: its header, a checkpoint, and the records since. -/
structure CompleteControlJournalImage where
  header : ControlJournalHeader
  checkpoint : CompleteCheckpoint
  tail : List AuthenticatedTailFrame
  deriving DecidableEq

/-- The most bytes of a tail. -/
def tailLimit : ℕ := 2 * 1024 * 1024

/-- The most bytes of a frame. -/
def frameLimit : ℕ := 16 * 1024

/-- The most frames of a tail. -/
def tailCountLimit : ℕ := 128

/-- The record of an addressed action. -/
def AddressedOperation.record : AddressedOperation → AddressedAction → TailRecord
  | .clockAcknowledge, action => .clockAcknowledge action
  | .systemShutdown, action => .systemShutdown action

/-- The kind and the body of a record. -/
def encodeTailRecord : TailRecord →
    Except ControlJournalImageError (ControlJournalRecordKind × List UInt8)
  | .clockCheckpointEvent body => do
    let bytes ← orInvalid (encodeClockCheckpointBody body)
    return (.clockCheckpoint, bytes)
  | .clockAcknowledge action => do
    let bytes ← encodeAddressedAction .clockAcknowledge action
    return (AddressedOperation.clockAcknowledge.kind, bytes)
  | .systemShutdown action => do
    let bytes ← encodeAddressedAction .systemShutdown action
    return (AddressedOperation.systemShutdown.kind, bytes)

/-! ### Clock checkpoints -/

namespace CompleteCheckpoint

/-- The checkpoint with another state in one cell. -/
def setState (checkpoint : CompleteCheckpoint) (index : Fin 4)
    (state : Option AddressedStateValue) :
    CompleteCheckpoint :=
  { checkpoint with
    addressed := Function.update checkpoint.addressed index
      { checkpoint.addressed index with state } }

/-- The checkpoint with another clock authority. -/
def setClock (checkpoint : CompleteCheckpoint) (clockAuthority : ClockAuthorityProjection) :
    CompleteCheckpoint :=
  { checkpoint with clockAuthority }

/-- The checkpoint with another generation. -/
def setGeneration (checkpoint : CompleteCheckpoint) (generation : UInt64) : CompleteCheckpoint :=
  { checkpoint with generation }

/-- The checkpoint with another covered head. -/
def setHead (checkpoint : CompleteCheckpoint) (coveredHead : JournalHead) : CompleteCheckpoint :=
  { checkpoint with coveredHead }

section Fields

variable (checkpoint : CompleteCheckpoint)

@[simp] theorem setState_state_self (index : Fin 4) (state : Option AddressedStateValue) :
    ((checkpoint.setState index state).addressed index).state = state := by
  simp [setState]

@[simp] theorem setState_addressed_of_ne {index other : Fin 4} (h : other ≠ index)
    (state : Option AddressedStateValue) :
    (checkpoint.setState index state).addressed other = checkpoint.addressed other := by
  simp [setState, h]

@[simp] theorem setState_clockAuthority (index : Fin 4) (state : Option AddressedStateValue) :
    (checkpoint.setState index state).clockAuthority = checkpoint.clockAuthority := rfl

@[simp] theorem setClock_clockAuthority (clock : ClockAuthorityProjection) :
    (checkpoint.setClock clock).clockAuthority = clock := rfl

@[simp] theorem setClock_addressed (clock : ClockAuthorityProjection) :
    (checkpoint.setClock clock).addressed = checkpoint.addressed := rfl

@[simp] theorem setHead_clockAuthority (head : JournalHead) :
    (checkpoint.setHead head).clockAuthority = checkpoint.clockAuthority := rfl

@[simp] theorem setHead_addressed (head : JournalHead) :
    (checkpoint.setHead head).addressed = checkpoint.addressed := rfl

@[simp] theorem setGeneration_clockAuthority (generation : UInt64) :
    (checkpoint.setGeneration generation).clockAuthority = checkpoint.clockAuthority := rfl

@[simp] theorem setGeneration_addressed (generation : UInt64) :
    (checkpoint.setGeneration generation).addressed = checkpoint.addressed := rfl

end Fields

end CompleteCheckpoint

/-- An automatic settlement names the current hold, and any other checkpoint has none. -/
def clockHoldFits (reason : CheckpointReason) (current : Option ClockAuthorityHold)
    (named : Option NamedHold) : Bool :=
  match reason, current, named with
  | .automaticSettlement, some current, some named =>
    current.generation == named.generation && current.observationDigest == named.observationDigest
  | .automaticSettlement, _, _ => false
  | _, none, none => true
  | _, _, _ => false

/-- A pre-mirror witness names the selected origin. -/
def preMirrorFits (pointer : Option ActiveStatePointer) (mirror : Option PreMirrorWitness) : Bool :=
  match pointer, mirror with
  | _, none => true
  | some pointer, some mirror => pointer.targetHistoryEpoch == mirror.selectedOrigin
  | none, some _ => false

/-- The clock authority behind a clock checkpoint. -/
def clockAfter (clock : ClockAuthorityProjection) (body : ClockCheckpointBody) :
    ClockAuthorityProjection where
  safeTime := body.newSafeTime
  hold := if body.reason = .automaticSettlement then none else clock.hold
  lastShutdownObservation :=
    if body.reason = .cleanShutdown then some body.acceptedWallTime
    else clock.lastShutdownObservation

/-- A record of the clock starts at the safe time that is known and fits the hold. -/
def replayClock (checkpoint : CompleteCheckpoint) (body : ClockCheckpointBody) :
    Except ControlJournalImageError CompleteCheckpoint := do
  let _ ← orInvalid (encodeClockCheckpointBody body)
  reject (body.priorSafeTime != checkpoint.clockAuthority.safeTime) invalidControlJournalImage
  reject (!clockHoldFits body.reason checkpoint.clockAuthority.hold body.hold)
    invalidControlJournalImage
  reject (!preMirrorFits checkpoint.activePointer body.preMirror) invalidControlJournalImage
  return checkpoint.setClock (clockAfter checkpoint.clockAuthority body)

/-- An automatic settlement finishes the acknowledgement of the hold it names. -/
def settleAcknowledge (checkpoint : CompleteCheckpoint) (value : AddressedStateValue)
    (head : JournalHead) : Except ControlJournalImageError CompleteCheckpoint :=
  match value.evidence with
  | .shutdown .. => .error invalidControlJournalImage
  | .acknowledge _ _ _ _ targetSafeTime => do
    reject (value.mirror != .notApplicable || value.phase != 2
      || decide (checkpoint.clockAuthority.safeTime < targetSafeTime)) invalidControlJournalImage
    let settled := { value with
      phase := 3
      safeResult := .acknowledge targetSafeTime true
      applicationHead := head
      publicationHead := head }
    return (checkpoint.setState 0 none).setState 1 (some settled)

/-- The pending acknowledgement that a clock checkpoint settles, if there is one. -/
def settledBy (clock : ClockAuthorityProjection) (body : ClockCheckpointBody)
    (state : Option AddressedStateValue) : Option AddressedStateValue :=
  state.filter fun value =>
    body.reason == .automaticSettlement && addressedHoldMatches clock value.address

/-- A record of the clock at its head; one that settles the hold completes its acknowledgement. -/
def replayClockAt (checkpoint : CompleteCheckpoint) (body : ClockCheckpointBody)
    (head : JournalHead) : Except ControlJournalImageError CompleteCheckpoint := do
  let next ← replayClock checkpoint body
  match settledBy checkpoint.clockAuthority body (next.addressed 0).state with
  | none => return next
  | some value => settleAcknowledge next value head

/-! ### Addressed records -/

/-- A request is mirrored exactly when there is a selected state, and then at its origin. -/
def requestMirrorFits (pointer : Option ActiveStatePointer) (mirror : AddressedMirror) : Bool :=
  match pointer, mirror with
  | none, .notApplicable => true
  | some pointer, .pending origin _ _ => origin == pointer.targetHistoryEpoch
  | _, _ => false

/-- An acknowledgement is requested for the current hold at the current safe time. -/
def requestEvidenceFits (clock : ClockAuthorityProjection) (request : AddressedStateValue) : Bool :=
  match request.evidence with
  | .acknowledge _ _ priorFixedSafeTime _ _ =>
    addressedHoldMatches clock request.address && priorFixedSafeTime == clock.safeTime
  | .shutdown .. => true

/-- A request opens the cell of its operation. -/
def replayRequest (checkpoint : CompleteCheckpoint) (operation : AddressedOperation)
    (request : AddressedStateValue) (head : JournalHead) :
    Except ControlJournalImageError (CompleteCheckpoint × AddressedStateValue) := do
  let slot := operation.slot
  reject ((checkpoint.addressed slot).state.isSome || request.phase != 1
    || request.applicationHead != head || request.publicationHead != head)
    invalidControlJournalImage
  reject (!requestMirrorFits checkpoint.activePointer request.mirror) invalidControlJournalImage
  reject (!requestEvidenceFits checkpoint.clockAuthority request) invalidControlJournalImage
  reject ((checkpoint.addressed (slot + 1)).state.any fun last => last.address == request.address)
    invalidControlJournalImage
  return (if operation = .systemShutdown then checkpoint.setState (slot + 1) none else checkpoint,
    request)

/-- The phases that may follow each other. -/
def legalPhase (operation : AddressedOperation) (value : AddressedStateValue) (phase : UInt8) :
    Bool :=
  match operation with
  | .clockAcknowledge => (value.phase == 1 && phase == 2)
    || (value.phase == 2 && phase == 3 && value.mirror == .notApplicable)
  | .systemShutdown => (value.phase == 1 && (phase == 2 || phase == 4))
    || (value.phase == 2 && (phase == 3 || phase == 4))

/-- An acknowledgement that is applied moves the safe time. -/
def applyAcknowledge (checkpoint : CompleteCheckpoint) (value : AddressedStateValue) :
    Except ControlJournalImageError CompleteCheckpoint :=
  match value.evidence with
  | .shutdown .. => .error invalidControlJournalImage
  | .acknowledge _ _ _ _ targetSafeTime => do
    reject (!addressedHoldMatches checkpoint.clockAuthority value.address
      || decide (targetSafeTime < checkpoint.clockAuthority.safeTime)) invalidControlJournalImage
    return checkpoint.setClock { checkpoint.clockAuthority with safeTime := targetSafeTime }

/-- The checkpoint that a phase leaves: the second one applies an acknowledgement. -/
def checkpointAtPhase (checkpoint : CompleteCheckpoint) (operation : AddressedOperation)
    (value : AddressedStateValue) (phase : UInt8) :
    Except ControlJournalImageError CompleteCheckpoint :=
  if operation = .clockAcknowledge ∧ phase = 2 then applyAcknowledge checkpoint value
  else .ok checkpoint

/-- A later phase of the pending value. -/
def replayPhase (checkpoint : CompleteCheckpoint) (operation : AddressedOperation)
    (value : AddressedStateValue) (phase : UInt8) (result : AddressedResult) (head : JournalHead) :
    Except ControlJournalImageError (CompleteCheckpoint × AddressedStateValue) := do
  reject (!legalPhase operation value phase || value.mirror.isCommitted) invalidControlJournalImage
  let checkpoint ← checkpointAtPhase checkpoint operation value phase
  return (checkpoint, { value with
    phase
    safeResult := result
    applicationHead := head
    publicationHead := head })

/-- The commit of an acknowledgement also finishes it. -/
def finishCommit (operation : AddressedOperation) (value : AddressedStateValue)
    (head : JournalHead) : Except ControlJournalImageError AddressedStateValue :=
  match operation, value.evidence with
  | .systemShutdown, _ => .ok value
  | .clockAcknowledge, .shutdown .. => .error invalidControlJournalImage
  | .clockAcknowledge, .acknowledge _ _ _ _ targetSafeTime => .ok { value with
      phase := 3
      safeResult := .acknowledge targetSafeTime true
      applicationHead := head }

/-- The mirror of the value is committed. -/
def replayCommit (operation : AddressedOperation) (value : AddressedStateValue)
    (post head : JournalHead) : Except ControlJournalImageError AddressedStateValue :=
  match value.mirror with
  | .pending origin pre policy => do
    reject ((operation == .clockAcknowledge && value.phase != 2)
      || (operation == .systemShutdown && !(value.phase == 3 || value.phase == 4))
      || decide (post.sequence ≤ pre.sequence) || post.digest == ByteVec.zero 32)
      invalidControlJournalImage
    finishCommit operation { value with
      mirror := .committed origin pre policy post
      publicationHead := head } head
  | _ => .error invalidControlJournalImage

/-- The value behind an action, and the checkpoint it is stored in. -/
def replayAction (checkpoint : CompleteCheckpoint) (operation : AddressedOperation)
    (action : AddressedAction) (head : JournalHead) :
    Except ControlJournalImageError (CompleteCheckpoint × AddressedStateValue) :=
  match action with
  | .publishRequest request => replayRequest checkpoint operation request head
  | .publishPhase phase result => do
    let value ←
      orError invalidControlJournalImage (checkpoint.addressed operation.slot).state
    replayPhase checkpoint operation value phase result head
  | .commitMirror post => do
    let value ←
      orError invalidControlJournalImage (checkpoint.addressed operation.slot).state
    let value ← replayCommit operation value post head
    return (checkpoint, value)

/-- A completed acknowledgement is retained only if it names the hold that it clears. -/
def completeAcknowledge (checkpoint : CompleteCheckpoint) (value : AddressedStateValue) :
    CompleteCheckpoint :=
  if addressedHoldMatches checkpoint.clockAuthority value.address then
    ((checkpoint.setState 0 none).setClock { checkpoint.clockAuthority with hold := none }).setState 1
      (some value)
  else checkpoint.setState 0 none

/-- The value goes to the completion when it is complete, and stays pending otherwise. -/
def storeValue (checkpoint : CompleteCheckpoint) (operation : AddressedOperation)
    (value : AddressedStateValue) : CompleteCheckpoint :=
  if addressedComplete value then
    match operation with
    | .clockAcknowledge => completeAcknowledge checkpoint value
    | .systemShutdown =>
      (checkpoint.setState operation.slot none).setState (operation.slot + 1) (some value)
  else checkpoint.setState operation.slot (some value)

/-- `replay_addressed`: the value is valid behind the action as well. -/
def replayAddressed (checkpoint : CompleteCheckpoint) (operation : AddressedOperation)
    (action : AddressedAction) (head : JournalHead) :
    Except ControlJournalImageError CompleteCheckpoint := do
  let (checkpoint, value) ← replayAction checkpoint operation action head
  validateAddressedValue operation value
  return storeValue checkpoint operation value

/-- One record. -/
def replayRecord (checkpoint : CompleteCheckpoint) (record : TailRecord) (head : JournalHead) :
    Except ControlJournalImageError CompleteCheckpoint :=
  match record with
  | .clockCheckpointEvent body => replayClockAt checkpoint body head
  | .clockAcknowledge action => replayAddressed checkpoint .clockAcknowledge action head
  | .systemShutdown action => replayAddressed checkpoint .systemShutdown action head

/-! ### The whole tail -/

/-- The origins that a checkpoint names. -/
def boundOrigins (checkpoint : CompleteCheckpoint) : List (ByteVec 32) :=
  (checkpoint.activePointer.map (·.targetHistoryEpoch)).toList
  ++ (List.finRange 4).filterMap fun index =>
    (checkpoint.addressed index).state.bind (·.mirror.origin)

/-- An origin of this owner that has been allocated. -/
def originBound (header : ControlJournalHeader) (epoch : ByteVec 32) : Bool :=
  let serial : UInt64 := unwire (epoch.toList.drop 24)
  !(epoch.toList.take 24 != header.ownerNamespace.toList || serial == 0
    || decide (header.branchSerialHighWater < serial))

/-- The origins of the checkpoint are those of the header. -/
def validateImageBindings (image : CompleteControlJournalImage) :
    Except ControlJournalImageError Unit := do
  reject (!(boundOrigins image.checkpoint).all (originBound image.header))
    invalidControlJournalImage
  reject (image.checkpoint.generation == 1
    && (image.checkpoint.coveredHead.sequence != 0
      || image.checkpoint.clockAuthority.hold.isSome
      || image.checkpoint.clockAuthority.lastShutdownObservation.isSome
      || image.checkpoint.activePointer.isSome
      || !image.checkpoint.recoveryRing.isEmpty)) invalidControlJournalImage

/-- The digest that the record of a frame must have. -/
def replayDigest (kind : ControlJournalRecordKind) (body : List UInt8) (prior : JournalHead)
    (sequence : UInt64) : Except ControlJournalImageError (ByteVec 32) :=
  if kind = .clockCheckpoint then do
    let head ← orInvalid (controlJournalClockCheckpointHead body prior)
    return head.digest
  else
    let operation : AddressedOperation :=
      if kind = AddressedOperation.clockAcknowledge.kind then .clockAcknowledge else .systemShutdown
    .ok (sha256 (recordLabel ++ wire operation.code ++ wire sequence ++ prior.digest.toList ++ body))

/-- The projection so far, the head it stands at, and the bytes of the tail up to it. -/
structure ReplayState where
  checkpoint : CompleteCheckpoint
  prior : JournalHead
  bytes : ℕ

/-- The frame follows the head before it. -/
def frameFollows (prior : JournalHead) (frame : AuthenticatedTailFrame) : Bool :=
  frame.priorHead == prior && some frame.resultingHead.sequence == checkedSucc prior.sequence

/-- One turn of the loop over the tail. -/
def replayFrame (state : ReplayState) (frame : AuthenticatedTailFrame) :
    Except ControlJournalImageError ReplayState := do
  reject (!frameFollows state.prior frame) invalidControlJournalImage
  validateHead frame.resultingHead
  let (kind, body) ← encodeTailRecord frame.record
  let expected ← replayDigest kind body state.prior frame.resultingHead.sequence
  reject (expected != frame.resultingHead.digest) invalidControlJournalImage
  let bytes := state.bytes + (body.length + 110)
  reject (decide (frameLimit < body.length + 110) || decide (tailLimit < bytes))
    invalidControlJournalImage
  let checkpoint ← replayRecord state.checkpoint frame.record frame.resultingHead
  let checkpoint := checkpoint.setHead frame.resultingHead
  validateCheckpoint checkpoint
  return ⟨checkpoint, frame.resultingHead, bytes⟩

/-- `replay_tail`: the checkpoint behind all frames. -/
def replayTail (image : CompleteControlJournalImage) :
    Except ControlJournalImageError CompleteCheckpoint := do
  validateImageBindings image
  validateCheckpoint image.checkpoint
  reject (decide (tailCountLimit < image.tail.length)) invalidControlJournalImage
  let state ← image.tail.foldlM replayFrame ⟨image.checkpoint, image.checkpoint.coveredHead, 104⟩
  let checkpoint := state.checkpoint.setHead state.prior
  validateCheckpoint checkpoint
  return checkpoint

/-! ### One turn of the loop -/

theorem exists_recordPrefix (kind : ControlJournalRecordKind) {body : List UInt8}
    {prior : JournalHead} {sequence : UInt64} (hbody : body.length + 110 ≤ frameLimit)
    (hsequence : checkedSucc prior.sequence = some sequence) :
    ∃ pre, recordPrefix kind body prior = .ok pre := by
  rw [frameLimit] at hbody
  refine ⟨_, recordPrefix_eq_ok.2 ⟨UInt32.ofNat (minFrameBytes + body.length), sequence, ?_, ?_,
    hsequence, rfl⟩⟩
  · rw [maxBodyBytes, maxFrameBytes, minFrameBytes]
    omega
  · rw [minFrameBytes]
    exact UInt32.toNat_ofNat_of_lt' (by show 110 + body.length < 2 ^ 32; omega)

theorem length_le_of_recordPrefix {kind : ControlJournalRecordKind} {body pre : List UInt8}
    {prior : JournalHead} (h : recordPrefix kind body prior = .ok pre) :
    body.length + 110 ≤ frameLimit := by
  obtain ⟨_, _, hbody, -⟩ := recordPrefix_eq_ok.1 h
  rw [maxBodyBytes, maxFrameBytes, minFrameBytes] at hbody
  rw [frameLimit]
  omega

/-- The digest that the replay computes is the one in the frame of the record. -/
theorem replayDigest_eq {kind : ControlJournalRecordKind} {body pre : List UInt8}
    {prior : JournalHead} {sequence : UInt64}
    (hsequence : checkedSucc prior.sequence = some sequence)
    (hpre : recordPrefix kind body prior = .ok pre) :
    replayDigest kind body prior sequence = .ok (recordDigest pre) := by
  obtain ⟨length, sequence', -, -, hsequence', hfields⟩ := recordPrefix_eq_ok.1 hpre
  obtain rfl : sequence' = sequence := by
    rw [hsequence'] at hsequence
    exact Option.some.inj hsequence
  have haddressed : ∀ operation : AddressedOperation, operation.kind = kind →
      sha256 (recordLabel ++ wire operation.code ++ wire sequence' ++ prior.digest.toList ++ body) =
        recordDigest pre := by
    rintro operation rfl
    have hcode : operation.kind.code = operation.code := by cases operation <;> rfl
    have hdrop : pre.drop 4 =
        wire operation.code ++ (wire sequence' ++ (prior.digest.toList ++ body)) := by
      rw [hfields, recordFields, List.flatten_cons, List.drop_left' (length_wire_u32 _), hcode]
      simp
    rw [recordDigest, hdrop]
    simp only [List.append_assoc]
  cases kind with
  | clockCheckpoint =>
    refine bind_eq_ok.2 ⟨⟨sequence', recordDigest pre⟩, orInvalid_eq_ok.2 ?_, rfl⟩
    exact bind_eq_ok.2 ⟨pre, hpre, orError_bind_eq_ok.2 ⟨sequence', hsequence, rfl⟩⟩
  | clockAcknowledge => exact congrArg Except.ok (haddressed .clockAcknowledge rfl)
  | systemShutdown => exact congrArg Except.ok (haddressed .systemShutdown rfl)

theorem frameFollows_iff {prior : JournalHead} {frame : AuthenticatedTailFrame} :
    frameFollows prior frame = true ↔ frame.priorHead = prior ∧
      checkedSucc prior.sequence = some frame.resultingHead.sequence := by
  rw [frameFollows, Bool.and_eq_true, beq_iff_eq, beq_iff_eq, eq_comm (b := checkedSucc _)]

/-- The record of a frame, as it is sealed behind `prior`. -/
structure FrameRecord (prior : JournalHead) (frame : AuthenticatedTailFrame)
    (kind : ControlJournalRecordKind) (body pre : List UInt8) : Prop where
  encoded : encodeTailRecord frame.record = .ok (kind, body)
  framed : recordPrefix kind body prior = .ok pre
  digest : recordDigest pre = frame.resultingHead.digest

/-- What a record does to the projection: its frame follows and has the digest of its head, and the
record is replayed. -/
structure RecordStep (checkpoint : CompleteCheckpoint) (prior : JournalHead)
    (frame : AuthenticatedTailFrame) (size : ℕ) (next : CompleteCheckpoint) : Prop where
  follows : frameFollows prior frame = true
  record : ∃ kind body pre, FrameRecord prior frame kind body pre ∧ size = body.length + 110
  replay : ∃ replayed, replayRecord checkpoint frame.record frame.resultingHead = .ok replayed ∧
    next = replayed.setHead frame.resultingHead

/-- The head of the record with this body behind `prior`. -/
def sealedHead (prior : JournalHead) (kind : ControlJournalRecordKind) (body : List UInt8) :
    JournalHead :=
  ⟨prior.sequence + 1, recordDigest (recordFields (UInt32.ofNat (minFrameBytes + body.length)) kind
    (prior.sequence + 1) prior.digest body).flatten⟩

/-- The frame of a record behind `prior`. -/
def sealedFrame (prior : JournalHead) (kind : ControlJournalRecordKind) (body : List UInt8)
    (record : TailRecord) : AuthenticatedTailFrame :=
  ⟨prior, sealedHead prior kind body, record⟩

/-- Every record that is short enough has a frame, and takes a step if it can be replayed. -/
theorem recordStep_sealed {checkpoint replayed : CompleteCheckpoint} {prior : JournalHead}
    {record : TailRecord} {kind : ControlJournalRecordKind} {body : List UInt8}
    (hencoded : encodeTailRecord record = .ok (kind, body)) (hbody : body.length ≤ maxBodyBytes)
    (hsequence : prior.sequence.toNat + 1 < 2 ^ 64)
    (hreplayed : replayRecord checkpoint record (sealedHead prior kind body) = .ok replayed) :
    RecordStep checkpoint prior (sealedFrame prior kind body record) (body.length + 110)
      (replayed.setHead (sealedHead prior kind body)) := by
  have hsucc : checkedSucc prior.sequence = some (prior.sequence + 1) := by
    rw [checkedSucc_eq_some, UInt64.toNat_add]
    exact Nat.mod_eq_of_lt hsequence
  have hlength : (UInt32.ofNat (minFrameBytes + body.length)).toNat =
      minFrameBytes + body.length := by
    rw [maxBodyBytes, maxFrameBytes, minFrameBytes] at hbody
    rw [minFrameBytes]
    exact UInt32.toNat_ofNat_of_lt' (by show 110 + body.length < 2 ^ 32; omega)
  exact ⟨frameFollows_iff.2 ⟨rfl, hsucc⟩, ⟨kind, body, _, ⟨hencoded, recordPrefix_eq_ok.2
    ⟨_, _, hbody, hlength, hsucc, rfl⟩, rfl⟩, rfl⟩, replayed, hreplayed, rfl⟩

/-- What one turn of the loop does: the projection behind the record is also valid. -/
structure FrameStep (checkpoint : CompleteCheckpoint) (prior : JournalHead)
    (frame : AuthenticatedTailFrame) (size : ℕ) (next : CompleteCheckpoint) : Prop
    extends RecordStep checkpoint prior frame size next where
  valid : ValidCheckpoint next

theorem RecordStep.coveredHead {checkpoint next : CompleteCheckpoint} {prior : JournalHead}
    {frame : AuthenticatedTailFrame} {size : ℕ} (h : RecordStep checkpoint prior frame size next) :
    next.coveredHead = frame.resultingHead := by
  obtain ⟨_, _, rfl⟩ := h.replay
  rfl

/-- The loop also checks the head, but that is the covered head of the projection behind it. -/
theorem FrameStep.head {checkpoint next : CompleteCheckpoint} {prior : JournalHead}
    {frame : AuthenticatedTailFrame} {size : ℕ} (h : FrameStep checkpoint prior frame size next) :
    validateHead frame.resultingHead = .ok () := by
  rw [← h.coveredHead]
  exact h.valid.head

theorem replayFrame_eq_ok {state next : ReplayState} {frame : AuthenticatedTailFrame} :
    replayFrame state frame = .ok next ↔ ∃ size,
      FrameStep state.checkpoint state.prior frame size next.checkpoint ∧
      state.bytes + size ≤ tailLimit ∧ next.prior = frame.resultingHead ∧
      next.bytes = state.bytes + size := by
  constructor
  · intro h
    obtain ⟨hfollows, h⟩ := reject_bind_eq_ok.1 h
    obtain ⟨⟨⟩, -, h⟩ := bind_eq_ok.1 h
    obtain ⟨⟨kind, body⟩, hencoded, h⟩ := bind_eq_ok.1 h
    obtain ⟨expected, hexpected, h⟩ := bind_eq_ok.1 h
    obtain ⟨hdigest, h⟩ := reject_bind_eq_ok.1 h
    obtain ⟨hlimits, h⟩ := reject_bind_eq_ok.1 h
    obtain ⟨replayed, hreplayed, h⟩ := bind_eq_ok.1 h
    obtain ⟨⟨⟩, hvalid, h⟩ := bind_eq_ok.1 h
    obtain rfl := Except.ok.inj h
    rw [Bool.not_eq_false'] at hfollows
    simp only [Bool.or_eq_false_iff, decide_eq_false_iff_not, not_lt] at hlimits
    obtain ⟨-, hsequence⟩ := frameFollows_iff.1 hfollows
    -- within the limits the record has a prefix, so its digest is the recomputed one
    obtain ⟨pre, hpre⟩ := exists_recordPrefix kind hlimits.1 hsequence
    rw [replayDigest_eq hsequence hpre] at hexpected
    obtain rfl := Except.ok.inj hexpected
    exact ⟨body.length + 110, ⟨⟨hfollows, ⟨kind, body, pre, ⟨hencoded, hpre,
      bne_eq_false_iff_eq.1 hdigest⟩, rfl⟩, ⟨replayed, hreplayed, rfl⟩⟩,
      validateCheckpoint_eq_ok.1 hvalid⟩, hlimits.2, rfl, rfl⟩
  · rintro ⟨size, hstep, hlimit, hprior, hbytes⟩
    have hhead := hstep.head
    obtain ⟨⟨hfollows, ⟨kind, body, pre, ⟨hencoded, hpre, hdigest⟩, rfl⟩,
      ⟨replayed, hreplayed, hnext⟩⟩, hvalid⟩ := hstep
    obtain ⟨-, hsequence⟩ := frameFollows_iff.1 hfollows
    have hframe := length_le_of_recordPrefix hpre
    obtain ⟨checkpoint, prior, bytes⟩ := next
    subst hnext hprior hbytes
    refine reject_bind_eq_ok.2 ⟨by rw [hfollows]; rfl, bind_eq_ok.2 ⟨(), hhead, ?_⟩⟩
    refine bind_eq_ok.2 ⟨(kind, body), hencoded, ?_⟩
    refine bind_eq_ok.2 ⟨_, replayDigest_eq hsequence hpre, ?_⟩
    refine reject_bind_eq_ok.2 ⟨bne_eq_false_iff_eq.2 hdigest, reject_bind_eq_ok.2 ⟨?_, ?_⟩⟩
    · simp only [Bool.or_eq_false_iff, decide_eq_false_iff_not, not_lt]
      exact ⟨hframe, hlimit⟩
    · exact bind_eq_ok.2 ⟨replayed, hreplayed, bind_eq_ok.2 ⟨(),
        validateCheckpoint_eq_ok.2 hvalid, rfl⟩⟩

/-! ### The heads and results of a record that was replayed -/

/-- A record as the frame at `head` carries it. -/
def RecordAgrees (head : JournalHead) : TailRecord → Prop
  | .clockCheckpointEvent _ => True
  | .clockAcknowledge action => ActionAgrees .clockAcknowledge head action
  | .systemShutdown action => ActionAgrees .systemShutdown head action

theorem actionAgrees_of_replayAddressed {checkpoint next : CompleteCheckpoint}
    {operation : AddressedOperation} {action : AddressedAction} {head : JournalHead}
    (h : replayAddressed checkpoint operation action head = .ok next) :
    ActionAgrees operation head action := by
  obtain ⟨⟨stored, value⟩, haction, h⟩ := bind_eq_ok.1 h
  obtain ⟨⟨⟩, hvalid, -⟩ := bind_eq_ok.1 h
  cases action with
  | publishRequest request =>
    obtain ⟨hheads, -⟩ := reject_bind_eq_ok.1 haction
    simp only [Bool.or_eq_false_iff, bne_eq_false_iff_eq] at hheads
    exact ⟨hheads.1.2, hheads.2⟩
  | publishPhase phase result =>
    -- the result is stored in the value, which is validated
    obtain ⟨pending, -, haction⟩ := orError_bind_eq_ok.1 haction
    obtain ⟨-, haction⟩ := reject_bind_eq_ok.1 haction
    obtain ⟨_, -, haction⟩ := bind_eq_ok.1 haction
    obtain ⟨-, rfl⟩ := Prod.mk.inj (Except.ok.inj haction)
    have hsubject := (validAddressedValue_iff.1 (validateAddressedValue_eq_ok.1 hvalid)).2.1
    exact (ofOperation_of_validSubject hsubject).result
  | commitMirror post => trivial

theorem recordAgrees_of_replayRecord {checkpoint next : CompleteCheckpoint} {record : TailRecord}
    {head : JournalHead} (h : replayRecord checkpoint record head = .ok next) :
    RecordAgrees head record := by
  cases record with
  | clockCheckpointEvent body => trivial
  | clockAcknowledge action => exact actionAgrees_of_replayAddressed h
  | systemShutdown action => exact actionAgrees_of_replayAddressed h

/-! ### What no record changes -/

/-- The parts of a checkpoint that a record leaves alone, and the origins it names: the fixed parts
are those of `base`, and every origin was already named there. -/
structure Descends (base next : CompleteCheckpoint) : Prop where
  generation : next.generation = base.generation
  pointer : next.activePointer = base.activePointer
  ring : next.recoveryRing = base.recoveryRing
  commands : next.localCommands = base.localCommands
  origins : ∀ origin ∈ boundOrigins next, origin ∈ boundOrigins base

theorem mem_boundOrigins {checkpoint : CompleteCheckpoint} {origin : ByteVec 32} :
    origin ∈ boundOrigins checkpoint ↔
      (∃ pointer, checkpoint.activePointer = some pointer ∧ pointer.targetHistoryEpoch = origin) ∨
      ∃ index value, (checkpoint.addressed index).state = some value ∧
        value.mirror.origin = some origin := by
  simp only [boundOrigins, List.mem_append, Option.mem_toList, Option.map_eq_some_iff,
    List.mem_filterMap, List.mem_finRange, true_and, Option.bind_eq_some_iff]

namespace Descends

variable {base middle next : CompleteCheckpoint}

theorem refl (base : CompleteCheckpoint) : Descends base base :=
  ⟨rfl, rfl, rfl, rfl, fun _ h => h⟩

theorem trans (h : Descends base middle) (h' : Descends middle next) : Descends base next :=
  ⟨h'.generation.trans h.generation, h'.pointer.trans h.pointer, h'.ring.trans h.ring,
    h'.commands.trans h.commands, fun origin ho => h.origins origin (h'.origins origin ho)⟩

theorem setHead (h : Descends base next) (head : JournalHead) : Descends base (next.setHead head) :=
  ⟨h.generation, h.pointer, h.ring, h.commands, h.origins⟩

theorem setClock (h : Descends base next) (clock : ClockAuthorityProjection) :
    Descends base (next.setClock clock) :=
  ⟨h.generation, h.pointer, h.ring, h.commands, h.origins⟩

/-- Storing a state adds at most its own origin. -/
theorem setState (h : Descends base next) (index : Fin 4) {state : Option AddressedStateValue}
    (hstate : ∀ value ∈ state, ∀ origin ∈ value.mirror.origin, origin ∈ boundOrigins base) :
    Descends base (next.setState index state) := by
  refine ⟨h.generation, h.pointer, h.ring, h.commands, fun origin ho => ?_⟩
  rcases mem_boundOrigins.1 ho with hpointer | ⟨other, value, hvalue, horigin⟩
  · exact h.origins origin (mem_boundOrigins.2 (.inl hpointer))
  · by_cases hindex : other = index
    · subst hindex
      have hnew : state = some value := by
        simpa [CompleteCheckpoint.setState] using hvalue
      exact hstate value hnew origin horigin
    · have hold : (next.addressed other).state = some value := by
        simpa [CompleteCheckpoint.setState, hindex] using hvalue
      exact h.origins origin (mem_boundOrigins.2 (.inr ⟨other, value, hold, horigin⟩))

theorem clear (h : Descends base next) (index : Fin 4) : Descends base (next.setState index none) :=
  h.setState index fun _ hvalue => nomatch hvalue

end Descends

/-- The origin of a stored value is bound. -/
theorem origin_mem_boundOrigins {checkpoint : CompleteCheckpoint} {index : Fin 4}
    {value : AddressedStateValue} (h : (checkpoint.addressed index).state = some value) :
    ∀ origin ∈ value.mirror.origin, origin ∈ boundOrigins checkpoint :=
  fun _ horigin => mem_boundOrigins.2 (.inr ⟨index, value, h, horigin⟩)

theorem replayClock_descends {checkpoint next : CompleteCheckpoint} {body : ClockCheckpointBody}
    (h : replayClock checkpoint body = .ok next) :
    Descends checkpoint next ∧ next.addressed = checkpoint.addressed := by
  obtain ⟨_, -, h⟩ := bind_eq_ok.1 h
  obtain ⟨-, h⟩ := reject_bind_eq_ok.1 h
  obtain ⟨-, h⟩ := reject_bind_eq_ok.1 h
  obtain ⟨-, h⟩ := reject_bind_eq_ok.1 h
  obtain rfl := Except.ok.inj h
  exact ⟨(Descends.refl checkpoint).setClock _, rfl⟩

theorem replayClockAt_descends {checkpoint next : CompleteCheckpoint} {body : ClockCheckpointBody}
    {head : JournalHead} (h : replayClockAt checkpoint body head = .ok next) :
    Descends checkpoint next := by
  obtain ⟨clocked, hclocked, h⟩ := bind_eq_ok.1 h
  obtain ⟨hdescends, -⟩ := replayClock_descends hclocked
  split at h
  · obtain rfl := Except.ok.inj h
    exact hdescends
  · rename_i value _
    unfold settleAcknowledge at h
    split at h
    · cases h
    · obtain ⟨hpending, h⟩ := reject_bind_eq_ok.1 h
      obtain rfl := Except.ok.inj h
      simp only [Bool.or_eq_false_iff, bne_eq_false_iff_eq] at hpending
      refine (hdescends.clear 0).setState 1 fun settled hsettled origin horigin => ?_
      obtain rfl := Option.some.inj hsettled
      rw [hpending.1.1] at horigin
      cases horigin

/-- The value that an action leaves has an origin that is bound. -/
theorem replayAction_descends {checkpoint stored : CompleteCheckpoint}
    {operation : AddressedOperation} {action : AddressedAction} {head : JournalHead}
    {value : AddressedStateValue}
    (h : replayAction checkpoint operation action head = .ok (stored, value)) :
    Descends checkpoint stored ∧
      ∀ origin ∈ value.mirror.origin, origin ∈ boundOrigins checkpoint := by
  cases action with
  | publishRequest request =>
    obtain ⟨-, h⟩ := reject_bind_eq_ok.1 h
    obtain ⟨hmirror, h⟩ := reject_bind_eq_ok.1 h
    obtain ⟨-, h⟩ := reject_bind_eq_ok.1 h
    obtain ⟨-, h⟩ := reject_bind_eq_ok.1 h
    obtain ⟨rfl, rfl⟩ := Prod.mk.inj (Except.ok.inj h)
    constructor
    · split_ifs
      · exact (Descends.refl checkpoint).clear _
      · exact Descends.refl checkpoint
    · intro origin horigin
      rw [Bool.not_eq_false'] at hmirror
      unfold requestMirrorFits at hmirror
      split at hmirror
      · rename_i hnone
        rw [hnone] at horigin
        cases horigin
      · rename_i pointer epoch _ _ hpointer hpending
        rw [hpending] at horigin
        obtain rfl := Option.some.inj horigin
        exact mem_boundOrigins.2 (.inl ⟨pointer, hpointer, (beq_iff_eq.1 hmirror).symm⟩)
      · cases hmirror
  | publishPhase phase result =>
    obtain ⟨pending, hpending, h⟩ := orError_bind_eq_ok.1 h
    obtain ⟨-, h⟩ := reject_bind_eq_ok.1 h
    obtain ⟨applied, happlied, h⟩ := bind_eq_ok.1 h
    obtain ⟨rfl, rfl⟩ := Prod.mk.inj (Except.ok.inj h)
    refine ⟨?_, fun origin horigin => origin_mem_boundOrigins hpending origin horigin⟩
    unfold checkpointAtPhase at happlied
    split_ifs at happlied
    · unfold applyAcknowledge at happlied
      split at happlied
      · cases happlied
      · obtain ⟨-, happlied⟩ := reject_bind_eq_ok.1 happlied
        obtain rfl := Except.ok.inj happlied
        exact (Descends.refl checkpoint).setClock _
    · obtain rfl := Except.ok.inj happlied
      exact Descends.refl checkpoint
  | commitMirror post =>
    obtain ⟨pending, hpending, h⟩ := orError_bind_eq_ok.1 h
    obtain ⟨committed, hcommitted, h⟩ := bind_eq_ok.1 h
    obtain ⟨rfl, rfl⟩ := Prod.mk.inj (Except.ok.inj h)
    refine ⟨Descends.refl _, fun origin horigin => origin_mem_boundOrigins hpending origin ?_⟩
    unfold replayCommit at hcommitted
    split at hcommitted
    · rename_i epoch pre policy hmirror
      obtain ⟨-, hcommitted⟩ := reject_bind_eq_ok.1 hcommitted
      -- the commit keeps the origin of the pending mirror
      have hsame : committed.mirror.origin = some epoch := by
        unfold finishCommit at hcommitted
        split at hcommitted
        · obtain rfl := Except.ok.inj hcommitted
          rfl
        · cases hcommitted
        · obtain rfl := Except.ok.inj hcommitted
          rfl
      rw [hsame] at horigin
      rw [hmirror]
      exact horigin
    · cases hcommitted

theorem storeValue_descends {base checkpoint : CompleteCheckpoint} {operation : AddressedOperation}
    {value : AddressedStateValue} (h : Descends base checkpoint)
    (horigin : ∀ origin ∈ value.mirror.origin, origin ∈ boundOrigins base) :
    Descends base (storeValue checkpoint operation value) := by
  have hstate : ∀ stored ∈ some value, ∀ origin ∈ stored.mirror.origin,
      origin ∈ boundOrigins base := by
    rintro stored hstored
    obtain rfl := Option.some.inj hstored
    exact horigin
  unfold storeValue
  split_ifs
  · cases operation with
    | clockAcknowledge =>
      show Descends base (completeAcknowledge checkpoint value)
      unfold completeAcknowledge
      split_ifs
      · exact ((h.clear 0).setClock _).setState 1 hstate
      · exact h.clear 0
    | systemShutdown => exact (h.clear _).setState _ hstate
  · exact h.setState _ hstate

theorem replayRecord_descends {checkpoint next : CompleteCheckpoint} {record : TailRecord}
    {head : JournalHead} (h : replayRecord checkpoint record head = .ok next) :
    Descends checkpoint next := by
  have haddressed : ∀ {operation : AddressedOperation} {action : AddressedAction},
      replayAddressed checkpoint operation action head = .ok next → Descends checkpoint next := by
    intro operation action h
    obtain ⟨⟨stored, value⟩, haction, h⟩ := bind_eq_ok.1 h
    obtain ⟨_, -, h⟩ := bind_eq_ok.1 h
    obtain rfl := Except.ok.inj h
    obtain ⟨hdescends, horigin⟩ := replayAction_descends haction
    exact storeValue_descends hdescends horigin
  cases record with
  | clockCheckpointEvent body => exact replayClockAt_descends h
  | clockAcknowledge action => exact haddressed h
  | systemShutdown action => exact haddressed h

/-! ### The generation does not matter -/

section Generation

variable (generation : UInt64) (checkpoint : CompleteCheckpoint)

theorem replayClock_setGeneration (body : ClockCheckpointBody) :
    replayClock (checkpoint.setGeneration generation) body =
      (·.setGeneration generation) <$> replayClock checkpoint body := by
  simp only [replayClock, map_bind, map_pure]
  rfl

theorem settleAcknowledge_setGeneration (value : AddressedStateValue) (head : JournalHead) :
    settleAcknowledge (checkpoint.setGeneration generation) value head =
      (·.setGeneration generation) <$> settleAcknowledge checkpoint value head := by
  unfold settleAcknowledge
  cases value.evidence with
  | shutdown => rfl
  | acknowledge _ _ _ _ targetSafeTime =>
    simp only [map_bind, map_pure]
    rfl

theorem replayClockAt_setGeneration (body : ClockCheckpointBody) (head : JournalHead) :
    replayClockAt (checkpoint.setGeneration generation) body head =
      (·.setGeneration generation) <$> replayClockAt checkpoint body head := by
  simp only [replayClockAt, replayClock_setGeneration, bind_map_left, map_bind]
  congr 1
  funext next
  show (match settledBy checkpoint.clockAuthority body (next.addressed 0).state with
    | none => pure (next.setGeneration generation)
    | some value => settleAcknowledge (next.setGeneration generation) value head) = _
  cases settledBy checkpoint.clockAuthority body (next.addressed 0).state with
  | none => rfl
  | some value => exact settleAcknowledge_setGeneration generation next value head

theorem replayRequest_setGeneration (operation : AddressedOperation) (request : AddressedStateValue)
    (head : JournalHead) :
    replayRequest (checkpoint.setGeneration generation) operation request head =
      Prod.map (·.setGeneration generation) id <$>
        replayRequest checkpoint operation request head := by
  simp only [replayRequest, map_bind, map_pure]
  cases operation <;> rfl

theorem replayPhase_setGeneration (operation : AddressedOperation) (value : AddressedStateValue)
    (phase : UInt8) (result : AddressedResult) (head : JournalHead) :
    replayPhase (checkpoint.setGeneration generation) operation value phase result head =
      Prod.map (·.setGeneration generation) id <$>
        replayPhase checkpoint operation value phase result head := by
  have happlied : checkpointAtPhase (checkpoint.setGeneration generation) operation value phase =
      (·.setGeneration generation) <$> checkpointAtPhase checkpoint operation value phase := by
    unfold checkpointAtPhase applyAcknowledge
    split_ifs
    · cases value.evidence with
      | shutdown => rfl
      | acknowledge _ _ _ _ targetSafeTime =>
        simp only [map_bind, map_pure]
        rfl
    · rfl
  simp only [replayPhase, happlied, map_bind, map_pure, bind_map_left]
  rfl

theorem replayAction_setGeneration (operation : AddressedOperation) (action : AddressedAction)
    (head : JournalHead) :
    replayAction (checkpoint.setGeneration generation) operation action head =
      Prod.map (·.setGeneration generation) id <$>
        replayAction checkpoint operation action head := by
  cases action with
  | publishRequest request =>
    exact replayRequest_setGeneration generation checkpoint operation request head
  | publishPhase phase result =>
    simp only [replayAction, map_bind, replayPhase_setGeneration]
    rfl
  | commitMirror post =>
    simp only [replayAction, map_bind, map_pure]
    rfl

theorem storeValue_setGeneration (operation : AddressedOperation) (value : AddressedStateValue) :
    storeValue (checkpoint.setGeneration generation) operation value =
      (storeValue checkpoint operation value).setGeneration generation := by
  unfold storeValue
  split_ifs
  · cases operation with
    | clockAcknowledge =>
      show completeAcknowledge _ value = (completeAcknowledge checkpoint value).setGeneration _
      unfold completeAcknowledge
      by_cases hmatches : addressedHoldMatches checkpoint.clockAuthority value.address
      · rw [if_pos hmatches]
        exact if_pos hmatches
      · rw [if_neg hmatches]
        exact if_neg hmatches
    | systemShutdown => rfl
  · rfl

theorem replayAddressed_setGeneration (operation : AddressedOperation) (action : AddressedAction)
    (head : JournalHead) :
    replayAddressed (checkpoint.setGeneration generation) operation action head =
      (·.setGeneration generation) <$> replayAddressed checkpoint operation action head := by
  simp only [replayAddressed, replayAction_setGeneration, bind_map_left, map_bind, map_pure,
    storeValue_setGeneration, Prod.map, id]

/-- A record does the same in every generation. -/
theorem replayRecord_setGeneration (record : TailRecord) (head : JournalHead) :
    replayRecord (checkpoint.setGeneration generation) record head =
      (·.setGeneration generation) <$> replayRecord checkpoint record head := by
  cases record with
  | clockCheckpointEvent body => exact replayClockAt_setGeneration generation checkpoint body head
  | clockAcknowledge action =>
    exact replayAddressed_setGeneration generation checkpoint .clockAcknowledge action head
  | systemShutdown action =>
    exact replayAddressed_setGeneration generation checkpoint .systemShutdown action head

variable {generation checkpoint}

theorem ValidCheckpoint.setGeneration (h : ValidCheckpoint checkpoint) (hne : generation ≠ 0) :
    ValidCheckpoint (checkpoint.setGeneration generation) :=
  ⟨hne, h.head, h.clock, h.slots, h.cells, h.provenance, h.coordinator, h.openUpgrade, h.count,
    h.commands⟩

theorem RecordStep.setGeneration {next : CompleteCheckpoint} {prior : JournalHead}
    {frame : AuthenticatedTailFrame} {size : ℕ} (h : RecordStep checkpoint prior frame size next) :
    RecordStep (checkpoint.setGeneration generation) prior frame size
      (next.setGeneration generation) := by
  obtain ⟨hfollows, hrecord, replayed, hreplayed, rfl⟩ := h
  refine ⟨hfollows, hrecord, replayed.setGeneration generation, ?_, rfl⟩
  rw [replayRecord_setGeneration, hreplayed]
  rfl

end Generation

/-- The frame of a record, and what the record does, are determined by the body it is encoded to. -/
theorem RecordStep.resultingHead_unique {checkpoint checkpoint' next next' : CompleteCheckpoint}
    {prior : JournalHead} {frame frame' : AuthenticatedTailFrame} {size size' : ℕ}
    (h : RecordStep checkpoint prior frame size next)
    (h' : RecordStep checkpoint' prior frame' size' next')
    (hsame : encodeTailRecord frame.record = encodeTailRecord frame'.record) :
    frame.resultingHead = frame'.resultingHead := by
  obtain ⟨hfollows, ⟨kind, body, pre, hrecord, -⟩, -⟩ := h
  obtain ⟨hfollows', ⟨kind', body', pre', hrecord', -⟩, -⟩ := h'
  have hbody := hrecord.encoded
  rw [hsame, hrecord'.encoded] at hbody
  obtain ⟨rfl, rfl⟩ := Prod.mk.inj (Except.ok.inj hbody)
  have hpre := hrecord.framed
  rw [hrecord'.framed] at hpre
  obtain rfl := Except.ok.inj hpre
  obtain ⟨-, hsequence⟩ := frameFollows_iff.1 hfollows
  obtain ⟨-, hsequence'⟩ := frameFollows_iff.1 hfollows'
  rw [hsequence] at hsequence'
  have hsequences := Option.some.inj hsequence'
  have hdigests := hrecord.digest.symm.trans hrecord'.digest
  obtain ⟨_, ⟨_, _⟩, _⟩ := frame
  obtain ⟨_, ⟨_, _⟩, _⟩ := frame'
  exact congrArg₂ JournalHead.mk hsequences hdigests

theorem RecordStep.next_unique {checkpoint next next' : CompleteCheckpoint} {prior : JournalHead}
    {frame frame' : AuthenticatedTailFrame} {size size' : ℕ}
    (h : RecordStep checkpoint prior frame size next)
    (h' : RecordStep checkpoint prior frame' size' next')
    (hrecord : frame.record = frame'.record) (hhead : frame.resultingHead = frame'.resultingHead) :
    next = next' := by
  obtain ⟨-, -, replayed, hreplayed, rfl⟩ := h
  obtain ⟨-, -, replayed', hreplayed', rfl⟩ := h'
  rw [hrecord, hhead, hreplayed'] at hreplayed
  rw [Except.ok.inj hreplayed, hhead]

end MsgRiver.Journal
