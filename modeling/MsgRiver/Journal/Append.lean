import MsgRiver.Journal.Image

/-!
# Appending and folding

An append checks the old image, seals one more record behind its last head and checks the new image.
The record becomes a frame of the tail, or, when the tail is full, the tail and the record are
absorbed into a new checkpoint of the next generation.  An append that completes the shutdown of
another process also absorbs, and leaves the completion out.

`Stands key image projection` says that the image can be encoded and replays to `projection`.  Both
ways of an append are described by what its record does to the projection (`RecordStep`), and so an
image and its fold cannot be told apart by appends (`fold_invisible`).
-/

namespace MsgRiver.Journal

open Bytes Result

/-! ### The code -/

/-- Why an image is folded. -/
inductive FoldTrigger
  | tailFrameLimit
  | tailByteLimit
  deriving DecidableEq, Repr

/-- The image whose checkpoint is the given projection, in the next generation, with an empty tail.
-/
def absorb (image : CompleteControlJournalImage) (projection : CompleteCheckpoint) :
    Except ControlJournalImageError CompleteControlJournalImage := do
  let generation ← orError invalidControlJournalImage (checkedSucc projection.generation)
  return ⟨image.header, projection.setGeneration generation, []⟩

/-- `fold_control_journal_image`: the checkpoint takes in the whole tail. -/
def foldControlJournalImage (image : CompleteControlJournalImage) (_trigger : FoldTrigger) :
    Except ControlJournalImageError CompleteControlJournalImage := do
  let checkpoint ← replayTail image
  absorb image checkpoint

namespace CompleteControlJournalImage

/-- The image with one more frame. -/
def push (image : CompleteControlJournalImage) (frame : AuthenticatedTailFrame) :
    CompleteControlJournalImage :=
  { image with tail := image.tail ++ [frame] }

/-- The head of the last frame, or the covered head. -/
def lastHead (image : CompleteControlJournalImage) : JournalHead :=
  (image.tail.getLast?.map (·.resultingHead)).getD image.checkpoint.coveredHead

end CompleteControlJournalImage

/-- `start` and the bytes of the frames. -/
def frameBytes (key : JournalIntegrityKey) (start : ℕ) (tail : List AuthenticatedTailFrame) :
    Except ControlJournalImageError ℕ :=
  tail.foldlM (fun total frame => do
    let bytes ← encodeTailFrame key frame.priorHead frame
    return total + bytes.length) start

/-- The frame of a record behind `prior`, and the head that it leads to. -/
def sealRecord (key : JournalIntegrityKey) (kind : ControlJournalRecordKind) (body : List UInt8)
    (prior : JournalHead) : Except ControlJournalImageError (List UInt8 × JournalHead) := do
  let wire ← orInvalid (key.encodeControlJournalRecord kind body prior)
  let record ← orInvalid (key.decodeControlJournalRecord wire prior)
  return (wire, ⟨record.sequence, record.recordDigest⟩)

/-- The image that has absorbed the checkpoint, or has one more frame. -/
def appended (image : CompleteControlJournalImage) (mustFold : Bool)
    (checkpoint : CompleteCheckpoint)
    (frame : AuthenticatedTailFrame) :
    Except ControlJournalImageError CompleteControlJournalImage :=
  if mustFold then absorb image checkpoint else .ok (image.push frame)

/-- The image that has absorbed its tail and a clock checkpoint. -/
def absorbClock (image : CompleteControlJournalImage) (body : ClockCheckpointBody)
    (head : JournalHead) : Except ControlJournalImageError CompleteControlJournalImage := do
  let checkpoint ← replayTail image
  let checkpoint ← replayClockAt checkpoint body head
  absorb image (checkpoint.setHead head)

/-- The image behind a clock checkpoint. -/
def appendedClock (image : CompleteControlJournalImage) (mustFold : Bool)
    (body : ClockCheckpointBody)
    (prior head : JournalHead) : Except ControlJournalImageError CompleteControlJournalImage :=
  if mustFold then absorbClock image body head
  else .ok (image.push ⟨prior, head, .clockCheckpointEvent body⟩)

/-- `append_clock_checkpoint`: folds first where the frame would not fit. -/
def appendClockCheckpoint (key : JournalIntegrityKey) (image : CompleteControlJournalImage)
    (body : ClockCheckpointBody) : Except ControlJournalImageError CompleteControlJournalImage := do
  let _ ← encodeControlJournalImage key image
  let encodedBody ← orInvalid (encodeClockCheckpointBody body)
  let frameSize := 110 + encodedBody.length
  let frames ← frameBytes key 0 image.tail
  let mustFold := image.tail.length == tailCountLimit
    || decide (tailLimit < 104 + frames + frameSize)
  let prior := image.lastHead
  let (_, head) ← sealRecord key .clockCheckpoint encodedBody prior
  let next ← appendedClock image mustFold body prior head
  let _ ← encodeControlJournalImage key next
  return next

/-- The obligation that an action of a shutdown is about. -/
def shutdownSubject (projection : CompleteCheckpoint) : AddressedAction → Option AddressedStateValue
  | .publishRequest value => some value
  | _ => (projection.addressed 2).state

/-- The current process stops itself; under recovery it may also end what another process began. -/
def shutdownAuthorized (value : AddressedStateValue) (action : AddressedAction)
    (currentProcess : ByteVec 16) (recovery : Bool) : Bool :=
  let active := value.address == .processInstance currentProcess
  match action with
  | .publishRequest _ => active
  | .publishPhase phase _ => !(!(active || recovery && phase == 4)
      || (value.phase == 1 && phase == 4 && !recovery))
  | .commitMirror _ => active || recovery

/-- What an action needs beyond a fitting state; only a shutdown asks for the process that runs. -/
def authorize (projection : CompleteCheckpoint) (operation : AddressedOperation)
    (action : AddressedAction) (currentProcess : ByteVec 16) (recovery : Bool) :
    Except ControlJournalImageError Unit :=
  match operation with
  | .clockAcknowledge => .ok ()
  | .systemShutdown => do
    let value ← orError invalidControlJournalImage (shutdownSubject projection action)
    reject (!shutdownAuthorized value action currentProcess recovery) invalidControlJournalImage

/-- The shutdown of another process is complete. -/
def superseded (checkpoint : CompleteCheckpoint) (operation : AddressedOperation)
    (currentProcess : ByteVec 16) : Bool :=
  operation == .systemShutdown
    && (checkpoint.addressed 3).state.any (·.address != .processInstance currentProcess)

/-- The checkpoint without a completion that is superseded. -/
def withoutSuperseded (checkpoint : CompleteCheckpoint) (operation : AddressedOperation)
    (currentProcess : ByteVec 16) : CompleteCheckpoint :=
  if superseded checkpoint operation currentProcess then checkpoint.setState 3 none else checkpoint

/-- `append_addressed_action`: folds first where the frame would not fit. -/
def appendAddressedAction (key : JournalIntegrityKey) (image : CompleteControlJournalImage)
    (operation : AddressedOperation) (action : AddressedAction) (currentProcess : ByteVec 16)
    (recovery : Bool) : Except ControlJournalImageError CompleteControlJournalImage := do
  let _ ← encodeControlJournalImage key image
  let projection ← replayTail image
  reject (currentProcess == ByteVec.zero 16) invalidControlJournalImage
  authorize projection operation action currentProcess recovery
  let body ← encodeAddressedAction operation action
  let prior := projection.coveredHead
  let (wire, head) ← sealRecord key operation.kind body prior
  -- the heads of a request are those of its record, whatever the caller put there
  let action ← decodeAddressedAction operation body head
  let checkpoint ← replayAddressed projection operation action head
  let checkpoint := checkpoint.setHead head
  let bytes ← frameBytes key 104 image.tail
  let mustFold := superseded checkpoint operation currentProcess
    || image.tail.length == tailCountLimit || decide (tailLimit < bytes + wire.length)
  let next ← appended image mustFold (withoutSuperseded checkpoint operation currentProcess)
    ⟨prior, head, operation.record action⟩
  let _ ← encodeControlJournalImage key next
  return next

/-! ### Images that stand -/

/-- The image can be encoded, and replays to the projection. -/
structure Stands (key : JournalIntegrityKey) (image : CompleteControlJournalImage)
    (projection : CompleteCheckpoint) : Prop where
  ownerNamespace : image.header.ownerNamespace = key.deriveResourceIncarnationNamespaceV1
  fixed : FixedParts key image.header.ownerNamespace image.checkpoint
  replayed : replayTail image = .ok projection

/-- The loop over the tail, from its start. -/
def ReplayState.start (image : CompleteControlJournalImage) : ReplayState :=
  ⟨image.checkpoint, image.checkpoint.coveredHead, 104⟩

section Stands

variable {key : JournalIntegrityKey} {image : CompleteControlJournalImage}
  {projection : CompleteCheckpoint}

theorem exists_encode_iff_stands :
    (∃ bytes, encodeControlJournalImage key image = .ok bytes) ↔
      ∃ projection, Stands key image projection := by
  rw [exists_encodeImage, exists_encodeCheckpoint]
  constructor
  · rintro ⟨hnamespace, ⟨-, hfixed⟩, projection, hreplayed⟩
    exact ⟨projection, hnamespace, hfixed, hreplayed⟩
  · rintro ⟨projection, hnamespace, hfixed, hreplayed⟩
    exact ⟨hnamespace, ⟨(replayTail_eq_ok.1 hreplayed).valid, hfixed⟩, projection, hreplayed⟩

theorem Stands.encode (h : Stands key image projection) :
    ∃ bytes, encodeControlJournalImage key image = .ok bytes :=
  exists_encode_iff_stands.2 ⟨projection, h⟩

/-- What the loop over the tail keeps: it stands at the covered head of its projection, and the
projection descends from the checkpoint. -/
theorem replayFrames_invariant {frames : List AuthenticatedTailFrame} {state next : ReplayState}
    (h : frames.foldlM replayFrame state = .ok next)
    (hcovered : state.checkpoint.coveredHead = state.prior) :
    next.checkpoint.coveredHead = next.prior ∧ Descends state.checkpoint next.checkpoint ∧
      next.prior = (frames.getLast?.map (·.resultingHead)).getD state.prior := by
  induction frames generalizing state with
  | nil =>
    cases h
    exact ⟨hcovered, Descends.refl _, rfl⟩
  | cons frame frames ih =>
    rw [List.foldlM_cons] at h
    obtain ⟨middle, hstep, h⟩ := bind_eq_ok.1 h
    obtain ⟨size, hframe, -, hprior, -⟩ := replayFrame_eq_ok.1 hstep
    obtain ⟨hlast, hdescends, hhead⟩ := ih h (by rw [hframe.coveredHead, hprior])
    obtain ⟨replayed, hreplayed, hnext⟩ := hframe.replay
    have hfirst : Descends state.checkpoint middle.checkpoint := by
      rw [hnext]
      exact (replayRecord_descends hreplayed).setHead _
    refine ⟨hlast, hfirst.trans hdescends, ?_⟩
    rw [hhead, hprior, List.getLast?_cons]
    cases frames.getLast? <;> rfl

/-- The end of the loop of an image that stands. -/
theorem Stands.exists_state (h : Stands key image projection) :
    ∃ state, image.tail.foldlM replayFrame (ReplayState.start image) = .ok state ∧
      state.checkpoint = projection ∧ state.prior = projection.coveredHead ∧
      image.lastHead = projection.coveredHead ∧ Descends image.checkpoint projection := by
  obtain ⟨-, -, -, ⟨state, hstate, rfl⟩, -⟩ := replayTail_eq_ok.1 h.replayed
  obtain ⟨hcovered, hdescends, hlast⟩ := replayFrames_invariant hstate rfl
  refine ⟨state, hstate, ?_, rfl, hlast.symm, hdescends.setHead _⟩
  rw [CompleteCheckpoint.setHead, ← hcovered]

theorem Stands.valid (h : Stands key image projection) : ValidCheckpoint projection :=
  (replayTail_eq_ok.1 h.replayed).projected

theorem Stands.descends (h : Stands key image projection) :
    Descends image.checkpoint projection := by
  obtain ⟨_, -, -, -, -, hdescends⟩ := h.exists_state
  exact hdescends

theorem frameBytes_of_encodeTailFrames {frames : List AuthenticatedTailFrame} {prior : JournalHead}
    {wires : List (List UInt8)} (h : encodeTailFrames key prior frames = .ok wires) (start : ℕ) :
    frameBytes key start frames = .ok (start + wires.flatten.length) := by
  induction frames generalizing prior wires start with
  | nil =>
    cases h
    rfl
  | cons frame frames ih =>
    obtain ⟨bytes, hbytes, h⟩ := bind_eq_ok.1 h
    obtain ⟨rest, hrest, h⟩ := bind_eq_ok.1 h
    obtain rfl := Except.ok.inj h
    have hprior := (frameFollows_iff.1 (encodeTailFrame_eq_ok.1 hbytes).1).1
    rw [List.flatten_cons, List.length_append, ← Nat.add_assoc]
    rw [← hprior] at hbytes
    exact bind_eq_ok.2 ⟨start + bytes.length, bind_eq_ok.2 ⟨bytes, hbytes, rfl⟩, ih hrest _⟩

/-- One more frame: it takes a turn of the loop, and the room that is left. -/
theorem stands_push (h : Stands key image projection) {bytes : ℕ}
    (hbytes : frameBytes key 104 image.tail = .ok bytes) {frame : AuthenticatedTailFrame}
    {next : CompleteCheckpoint} :
    Stands key (image.push frame) next ↔ image.tail.length < tailCountLimit ∧
      ∃ size, FrameStep projection projection.coveredHead frame size next ∧
        bytes + size ≤ tailLimit := by
  obtain ⟨state, hstate, hcheckpoint, hprior, -, -⟩ := h.exists_state
  obtain ⟨hbindings, hvalid, -, -, -⟩ := replayTail_eq_ok.1 h.replayed
  obtain ⟨-, wires, hwires, hsize, -, -⟩ := encodeTailFrames_of_replay key hstate
  have hcount : state.bytes = bytes := by
    rw [frameBytes_of_encodeTailFrames hwires 104] at hbytes
    rw [hsize, ← Except.ok.inj hbytes]
    rfl
  -- the loop over the longer tail is one more turn behind the old one
  have hloop : ∀ last, (image.push frame).tail.foldlM replayFrame (ReplayState.start image) =
      .ok last ↔ replayFrame state frame = .ok last := by
    intro last
    rw [CompleteControlJournalImage.push, List.foldlM_append, hstate]
    show ([frame].foldlM replayFrame state) = .ok last ↔ _
    rw [List.foldlM_cons]
    simp only [List.foldlM_nil, bind_pure]
  constructor
  · rintro ⟨-, -, hreplayed⟩
    obtain ⟨-, -, hlength, ⟨last, hlast, rfl⟩, -⟩ := replayTail_eq_ok.1 hreplayed
    obtain ⟨size, hstep, hfit, hhead, -⟩ := replayFrame_eq_ok.1 ((hloop last).1 hlast)
    rw [hcheckpoint, hprior] at hstep
    rw [CompleteControlJournalImage.push, List.length_append, List.length_singleton] at hlength
    have hsame : last.checkpoint.setHead last.prior = last.checkpoint := by
      rw [hhead, ← hstep.coveredHead, CompleteCheckpoint.setHead]
    rw [hsame]
    exact ⟨by omega, size, hstep, by omega⟩
  · rintro ⟨hlength, size, hstep, hfit⟩
    refine ⟨h.ownerNamespace, h.fixed, replayTail_eq_ok.2 ⟨hbindings, hvalid, ?_,
      ⟨⟨next, frame.resultingHead, state.bytes + size⟩, (hloop _).2 ?_, ?_⟩, hstep.valid⟩⟩
    · rw [CompleteControlJournalImage.push, List.length_append, List.length_singleton]
      omega
    · rw [← hprior, ← hcheckpoint] at hstep
      exact replayFrame_eq_ok.2 ⟨size, hstep, by omega, rfl, rfl⟩
    · rw [← hstep.coveredHead, CompleteCheckpoint.setHead]

/-- A checkpoint that descends from that of an image stands in its place, in a later generation. -/
theorem stands_of_descends (h : Stands key image projection) {checkpoint : CompleteCheckpoint}
    (hdescends : Descends image.checkpoint checkpoint) (hvalid : ValidCheckpoint checkpoint)
    {generation : UInt64} (hzero : generation ≠ 0) (hone : generation ≠ 1) :
    Stands key ⟨image.header, checkpoint.setGeneration generation, []⟩
      (checkpoint.setGeneration generation) := by
  have hbound : (boundOrigins checkpoint).all (originBound image.header) = true := by
    obtain ⟨hall, -⟩ := reject_bind_eq_ok.1 (replayTail_eq_ok.1 h.replayed).bindings
    rw [Bool.not_eq_false', List.all_eq_true] at hall
    exact List.all_eq_true.2 fun origin horigin => hall origin (hdescends.origins origin horigin)
  refine ⟨h.ownerNamespace, ⟨?_, ?_, ?_⟩, replayTail_eq_ok.2 ⟨?_, hvalid.setGeneration hzero,
    Nat.zero_le _, ⟨_, rfl, rfl⟩, hvalid.setGeneration hzero⟩⟩
  · show ∃ bytes, encodePointerMember key checkpoint.activePointer = .ok bytes
    rw [hdescends.pointer]
    exact h.fixed.pointer
  · show ∃ bytes, encodeRing key checkpoint.recoveryRing = .ok bytes
    rw [hdescends.ring]
    exact h.fixed.ring
  · show ∃ bytes, encodeCommandMember _ checkpoint.localCommands = .ok bytes
    rw [hdescends.commands]
    exact h.fixed.commands
  · refine reject_bind_eq_ok.2 ⟨?_, reject_eq_ok.2 ?_⟩
    · rw [Bool.not_eq_false']
      exact hbound
    · show (generation == 1 && _) = false
      rw [beq_eq_false_iff_ne.2 hone, Bool.false_and]

theorem stands_nil {header : ControlJournalHeader} {checkpoint : CompleteCheckpoint}
    (h : Stands key ⟨header, checkpoint, []⟩ projection) :
    projection = checkpoint ∧ ValidCheckpoint checkpoint := by
  obtain ⟨-, hvalid, -, ⟨state, hstate, rfl⟩, -⟩ := replayTail_eq_ok.1 h.replayed
  cases hstate
  exact ⟨rfl, hvalid⟩

/-- There is room for one more generation. -/
def CompleteControlJournalImage.Room (image : CompleteControlJournalImage) : Prop :=
  image.checkpoint.generation.toNat + 1 < 2 ^ 64

/-- Absorbing a checkpoint: the image that results stands exactly when the checkpoint is valid, and
then replays to it. -/
theorem absorb_spec (h : Stands key image projection) {checkpoint : CompleteCheckpoint}
    (hdescends : Descends image.checkpoint checkpoint) {next : CompleteControlJournalImage}
    (hnext : absorb image checkpoint = .ok next) :
    ∃ generation, next.checkpoint.generation = generation ∧
      generation.toNat = image.checkpoint.generation.toNat + 1 ∧
      (ValidCheckpoint checkpoint → Stands key next (checkpoint.setGeneration generation)) ∧
      ∀ replayed, Stands key next replayed → ValidCheckpoint checkpoint ∧
        replayed = checkpoint.setGeneration generation := by
  have hne : image.checkpoint.generation ≠ 0 := (replayTail_eq_ok.1 h.replayed).valid.generation
  have hpos : image.checkpoint.generation.toNat ≠ 0 := fun hzero =>
    hne (UInt64.toNat_inj.1 hzero)
  obtain ⟨generation, hchecked, hnext⟩ := orError_bind_eq_ok.1 hnext
  obtain rfl := Except.ok.inj hnext
  have hsucc : generation.toNat = image.checkpoint.generation.toNat + 1 := by
    rw [← hdescends.generation]
    exact checkedSucc_eq_some.1 hchecked
  refine ⟨generation, rfl, hsucc, ?_, ?_⟩
  · intro hvalid
    refine stands_of_descends h hdescends hvalid ?_ ?_
    · rintro rfl
      simp at hsucc
    · rintro rfl
      simp at hsucc
      omega
  · intro replayed hreplayed
    obtain ⟨rfl, hvalid⟩ := stands_nil hreplayed
    have hback : ValidCheckpoint ((checkpoint.setGeneration generation).setGeneration
        checkpoint.generation) := hvalid.setGeneration (hdescends.generation ▸ hne)
    exact ⟨hback, rfl⟩

theorem exists_absorb (hroom : image.Room) {checkpoint : CompleteCheckpoint}
    (hdescends : Descends image.checkpoint checkpoint) :
    ∃ next, absorb image checkpoint = .ok next := by
  have hsucc : checkedSucc checkpoint.generation =
      some (UInt64.ofNat (image.checkpoint.generation.toNat + 1)) := by
    rw [hdescends.generation]
    exact checkedSucc_eq_some.2 (UInt64.toNat_ofNat_of_lt' hroom)
  exact ⟨_, orError_bind_eq_ok.2 ⟨_, hsucc, rfl⟩⟩

/-! ### One append -/

theorem sealRecord_eq_ok {kind : ControlJournalRecordKind} {body frame : List UInt8}
    {prior head : JournalHead} :
    sealRecord key kind body prior = .ok (frame, head) ↔ ∃ pre,
      recordPrefix kind body prior = .ok pre ∧ sealFrame key pre = frame ∧
      checkedSucc prior.sequence = some head.sequence ∧ recordDigest pre = head.digest := by
  constructor
  · intro h
    obtain ⟨_, hwire, h⟩ := bind_eq_ok.1 h
    obtain ⟨record, hrecord, h⟩ := bind_eq_ok.1 h
    obtain ⟨rfl, rfl⟩ := Prod.mk.inj (Except.ok.inj h)
    obtain ⟨pre, hpre, rfl⟩ := encodeControlJournalRecord_eq_ok.1 (orInvalid_eq_ok.1 hwire)
    obtain ⟨_, _, _, _, hsequence, _⟩ := recordPrefix_eq_ok.1 hpre
    have hsame : key.decodeControlJournalRecord (sealFrame key pre) prior =
        .ok ⟨kind, _, recordDigest pre, body⟩ :=
      decodeControlJournalRecord_eq_ok.2 ⟨pre, hpre, rfl, hsequence, rfl⟩
    rw [orInvalid_eq_ok, hsame] at hrecord
    obtain rfl := Except.ok.inj hrecord
    exact ⟨pre, hpre, rfl, hsequence, rfl⟩
  · rintro ⟨pre, hpre, rfl, hsequence, hdigest⟩
    refine bind_eq_ok.2 ⟨_, orInvalid_eq_ok.2
      (encodeControlJournalRecord_eq_ok.2 ⟨pre, hpre, rfl⟩), ?_⟩
    refine bind_eq_ok.2 ⟨⟨kind, head.sequence, recordDigest pre, body⟩, orInvalid_eq_ok.2
      (decodeControlJournalRecord_eq_ok.2 ⟨pre, hpre, rfl, hsequence, rfl⟩), ?_⟩
    rw [hdigest]
    rfl

/-- The frame of a record that is sealed takes a step, if the record can be replayed. -/
theorem recordStep_of_sealRecord {checkpoint replayed : CompleteCheckpoint} (record : TailRecord)
    {kind : ControlJournalRecordKind} {body frame : List UInt8} {prior head : JournalHead}
    (hencoded : encodeTailRecord record = .ok (kind, body))
    (hseal : sealRecord key kind body prior = .ok (frame, head))
    (hreplayed : replayRecord checkpoint record head = .ok replayed) :
    RecordStep checkpoint prior ⟨prior, head, record⟩ frame.length (replayed.setHead head) := by
  obtain ⟨pre, hpre, rfl, hsequence, hdigest⟩ := sealRecord_eq_ok.1 hseal
  exact ⟨frameFollows_iff.2 ⟨rfl, hsequence⟩, ⟨kind, body, pre, ⟨hencoded, hpre, hdigest⟩,
    length_sealFrame key hpre⟩, replayed, hreplayed, rfl⟩

/-- The frame of a step is the one that sealing its record gives. -/
theorem RecordStep.sealRecord {checkpoint next : CompleteCheckpoint} {prior : JournalHead}
    {frame : AuthenticatedTailFrame} {size : ℕ} (h : RecordStep checkpoint prior frame size next)
    (key : JournalIntegrityKey) {kind : ControlJournalRecordKind} {body : List UInt8}
    (hencoded : encodeTailRecord frame.record = .ok (kind, body)) :
    ∃ bytes, sealRecord key kind body prior = .ok (bytes, frame.resultingHead) ∧
      size = bytes.length := by
  obtain ⟨hfollows, ⟨kind', body', pre, hrecord, rfl⟩, -⟩ := h
  have hbody := hrecord.encoded
  rw [hencoded] at hbody
  obtain ⟨rfl, rfl⟩ := Prod.mk.inj (Except.ok.inj hbody)
  exact ⟨sealFrame key pre, sealRecord_eq_ok.2 ⟨pre, hrecord.framed, rfl,
    (frameFollows_iff.1 hfollows).2, hrecord.digest⟩, (length_sealFrame key hrecord.framed).symm⟩

/-- The two ways of an append: absorb `checkpoint`, or push the frame whose step leads to it. -/
theorem appended_spec (h : Stands key image projection) {bytes : ℕ}
    (hbytes : frameBytes key 104 image.tail = .ok bytes) {frame : AuthenticatedTailFrame} {size : ℕ}
    {extended checkpoint : CompleteCheckpoint}
    (hstep : RecordStep projection projection.coveredHead frame size extended)
    (hdescends : Descends image.checkpoint checkpoint) {mustFold : Bool}
    (hroom : mustFold = false → checkpoint = extended ∧ image.tail.length ≠ tailCountLimit ∧
      bytes + size ≤ tailLimit) {next : CompleteControlJournalImage}
    (hnext : appended image mustFold checkpoint frame = .ok next) :
    ∃ generation,
      (ValidCheckpoint checkpoint → Stands key next (checkpoint.setGeneration generation)) ∧
      ∀ replayed, Stands key next replayed → ValidCheckpoint checkpoint ∧
        replayed = checkpoint.setGeneration generation := by
  cases mustFold with
  | true =>
    obtain ⟨generation, -, -, hspec⟩ := absorb_spec h hdescends hnext
    exact ⟨generation, hspec⟩
  | false =>
    obtain ⟨rfl, hcount, hfit⟩ := hroom rfl
    obtain rfl := Except.ok.inj hnext
    have hle := (replayTail_eq_ok.1 h.replayed).count
    refine ⟨checkpoint.generation, ?_, ?_⟩
    · intro hvalid
      exact (stands_push h hbytes).2 ⟨by omega, size, ⟨hstep, hvalid⟩, hfit⟩
    · intro replayed hreplayed
      obtain ⟨-, size', hstep', -⟩ := (stands_push h hbytes).1 hreplayed
      obtain rfl := hstep.next_unique hstep'.toRecordStep rfl rfl
      exact ⟨hstep'.valid, rfl⟩

theorem exists_appended (hroom : image.Room) {checkpoint : CompleteCheckpoint}
    (hdescends : Descends image.checkpoint checkpoint) (mustFold : Bool)
    (frame : AuthenticatedTailFrame) :
    ∃ next, appended image mustFold checkpoint frame = .ok next := by
  cases mustFold with
  | true => exact exists_absorb hroom hdescends
  | false => exact ⟨_, rfl⟩

/-- An append takes a step: its image replays to the projection behind the step, in some generation.
When there is room for a generation, every step can be taken. -/
structure Appends (key : JournalIntegrityKey) (image : CompleteControlJournalImage)
    (answer : Except ControlJournalImageError CompleteControlJournalImage)
    (Step : CompleteCheckpoint → Prop) : Prop where
  sound : ∀ next, answer = .ok next → ∃ stepped generation, Step stepped ∧
    Stands key next (stepped.setGeneration generation)
  complete : image.Room → ∀ stepped, Step stepped → ∃ next, answer = .ok next

/-- One more turn of the loop, with a clock checkpoint. -/
def ClockStep (projection : CompleteCheckpoint) (body : ClockCheckpointBody)
    (stepped : CompleteCheckpoint) : Prop :=
  ∃ frame size, frame.record = .clockCheckpointEvent body ∧
    FrameStep projection projection.coveredHead frame size stepped

/-- If the replay admits the clock checkpoint, both ways are those of `appended`. -/
theorem appendedClock_eq (h : Stands key image projection) {body : ClockCheckpointBody}
    {prior head : JournalHead} {replayed : CompleteCheckpoint}
    (hreplayed : replayClockAt projection body head = .ok replayed) (mustFold : Bool) :
    appendedClock image mustFold body prior head =
      appended image mustFold (replayed.setHead head) ⟨prior, head, .clockCheckpointEvent body⟩ := by
  cases mustFold with
  | true =>
    show absorbClock image body head = absorb image (replayed.setHead head)
    rw [absorbClock, h.replayed]
    show (replayClockAt projection body head >>= _) = _
    rw [hreplayed]
    rfl
  | false => rfl

/-- The replay admits a clock checkpoint that was appended. -/
theorem exists_replayClockAt (h : Stands key image projection) {bytes : ℕ}
    (hbytes : frameBytes key 104 image.tail = .ok bytes) {body : ClockCheckpointBody}
    {prior head : JournalHead} {mustFold : Bool} {next : CompleteControlJournalImage}
    {replayed : CompleteCheckpoint}
    (hnext : appendedClock image mustFold body prior head = .ok next)
    (hstands : Stands key next replayed) :
    ∃ replayed, replayClockAt projection body head = .ok replayed := by
  cases mustFold with
  | true =>
    obtain ⟨checkpoint, hcheckpoint, hnext⟩ := bind_eq_ok.1 hnext
    obtain ⟨clocked, hclocked, -⟩ := bind_eq_ok.1 hnext
    rw [h.replayed] at hcheckpoint
    obtain rfl := Except.ok.inj hcheckpoint
    exact ⟨clocked, hclocked⟩
  | false =>
    obtain rfl := Except.ok.inj hnext
    obtain ⟨-, size, hstep, -⟩ := (stands_push h hbytes).1 hstands
    obtain ⟨clocked, hclocked, -⟩ := hstep.replay
    exact ⟨clocked, hclocked⟩

theorem appendClockCheckpoint_appends (h : Stands key image projection)
    (body : ClockCheckpointBody) :
    Appends key image (appendClockCheckpoint key image body) (ClockStep projection body) := by
  obtain ⟨wire, hwire⟩ := h.encode
  obtain ⟨state, hstate, -, -, hlast, hdescends⟩ := h.exists_state
  obtain ⟨-, wires, hwires, -, -, -⟩ := encodeTailFrames_of_replay key hstate
  have hframes := frameBytes_of_encodeTailFrames hwires 0
  have hbytes := frameBytes_of_encodeTailFrames hwires 104
  rw [Nat.zero_add] at hframes
  -- what both directions use: the record takes a step, and it is pushed only where there is room
  have hstep : ∀ {encoded frame : List UInt8} {head : JournalHead} {replayed : CompleteCheckpoint},
      encodeClockCheckpointBody body = .ok encoded →
      sealRecord key .clockCheckpoint encoded projection.coveredHead = .ok (frame, head) →
      replayClockAt projection body head = .ok replayed →
      RecordStep projection projection.coveredHead
        ⟨projection.coveredHead, head, .clockCheckpointEvent body⟩ frame.length
        (replayed.setHead head) := by
    intro encoded frame head replayed hencoded hseal hreplayed
    exact recordStep_of_sealRecord (.clockCheckpointEvent body)
      (bind_eq_ok.2 ⟨encoded, orInvalid_eq_ok.2 hencoded, rfl⟩) hseal hreplayed
  have hfits : ∀ {encoded frame : List UInt8} {head : JournalHead} {replayed : CompleteCheckpoint},
      sealRecord key .clockCheckpoint encoded projection.coveredHead = .ok (frame, head) →
      (image.tail.length == tailCountLimit
        || decide (tailLimit < 104 + wires.flatten.length + (110 + encoded.length))) = false →
      replayed.setHead head = replayed.setHead head ∧ image.tail.length ≠ tailCountLimit ∧
        104 + wires.flatten.length + frame.length ≤ tailLimit := by
    intro encoded frame head replayed hseal hroom
    obtain ⟨pre, hpre, rfl, -, -⟩ := sealRecord_eq_ok.1 hseal
    rw [Bool.or_eq_false_iff, beq_eq_false_iff_ne, decide_eq_false_iff_not, not_lt] at hroom
    refine ⟨rfl, hroom.1, ?_⟩
    rw [length_sealFrame key hpre]
    omega
  constructor
  · intro next hnext
    obtain ⟨_, -, hnext⟩ := bind_eq_ok.1 hnext
    obtain ⟨encoded, hencoded, hnext⟩ := bind_eq_ok.1 hnext
    obtain ⟨frames, hframes', hnext⟩ := bind_eq_ok.1 hnext
    obtain ⟨⟨frame, head⟩, hseal, hnext⟩ := bind_eq_ok.1 hnext
    obtain ⟨image', hbranch, hnext⟩ := bind_eq_ok.1 hnext
    obtain ⟨_, hencode, hnext⟩ := bind_eq_ok.1 hnext
    obtain rfl := Except.ok.inj hnext
    rw [hframes] at hframes'
    obtain rfl := Except.ok.inj hframes'
    rw [hlast] at hseal hbranch
    obtain ⟨again, hagain⟩ := exists_encode_iff_stands.1 ⟨_, hencode⟩
    obtain ⟨replayed, hreplayed⟩ := exists_replayClockAt h hbytes hbranch hagain
    have hrecord := hstep (orInvalid_eq_ok.1 hencoded) hseal hreplayed
    rw [appendedClock_eq h hreplayed] at hbranch
    obtain ⟨generation, -, hreplays⟩ := appended_spec h hbytes hrecord
      (hdescends.trans ((replayClockAt_descends hreplayed).setHead head)) (hfits hseal) hbranch
    obtain ⟨hvalid, rfl⟩ := hreplays again hagain
    exact ⟨_, generation, ⟨_, _, rfl, hrecord, hvalid⟩, hagain⟩
  · rintro hroom stepped ⟨frame, size, hrecord, hframe⟩
    obtain ⟨kind, body', pre, hsealed, -⟩ := hframe.record
    have hencoded := hsealed.encoded
    rw [hrecord] at hencoded
    obtain ⟨encoded, hbody, hpair⟩ := bind_eq_ok.1 hencoded
    obtain ⟨rfl, rfl⟩ := Prod.mk.inj (Except.ok.inj hpair)
    obtain ⟨sealed, hseal, -⟩ := hframe.toRecordStep.sealRecord key hsealed.encoded
    obtain ⟨replayed, hreplayed, rfl⟩ := hframe.replay
    rw [hrecord] at hreplayed
    have hdescends' : Descends image.checkpoint (replayed.setHead frame.resultingHead) :=
      hdescends.trans ((replayClockAt_descends hreplayed).setHead _)
    obtain ⟨next, hnext⟩ := exists_appended hroom hdescends' (image.tail.length == tailCountLimit
        || decide (tailLimit < 104 + wires.flatten.length + (110 + encoded.length)))
      ⟨projection.coveredHead, frame.resultingHead, .clockCheckpointEvent body⟩
    obtain ⟨generation, hstands, -⟩ := appended_spec h hbytes
      (hstep (orInvalid_eq_ok.1 hbody) hseal hreplayed) hdescends' (hfits hseal) hnext
    obtain ⟨bytes, hencode⟩ := (hstands hframe.valid).encode
    refine ⟨next, bind_eq_ok.2 ⟨wire, hwire, bind_eq_ok.2 ⟨encoded, hbody,
      bind_eq_ok.2 ⟨_, hframes, bind_eq_ok.2 ⟨(sealed, frame.resultingHead), ?_,
      bind_eq_ok.2 ⟨next, ?_, bind_eq_ok.2 ⟨bytes, hencode, rfl⟩⟩⟩⟩⟩⟩⟩
    · rw [hlast]
      exact hseal
    · rw [hlast, appendedClock_eq h hreplayed]
      exact hnext

/-- One more turn of the loop, with an addressed action that the process may take.  The heads of a
request are those of its record, and a superseded completion is left out. -/
structure AddressedStep (projection : CompleteCheckpoint) (operation : AddressedOperation)
    (action : AddressedAction) (currentProcess : ByteVec 16) (recovery : Bool)
    (stepped : CompleteCheckpoint) : Prop where
  process : currentProcess ≠ ByteVec.zero 16
  authorized : authorize projection operation action currentProcess recovery = .ok ()
  extended : ∃ body normal frame size extended,
    encodeAddressedAction operation action = .ok body ∧
    decodeAddressedAction operation body frame.resultingHead = .ok normal ∧
    frame.record = operation.record normal ∧
    RecordStep projection projection.coveredHead frame size extended ∧
    stepped = withoutSuperseded extended operation currentProcess
  valid : ValidCheckpoint stepped

theorem encodeTailRecord_record {operation : AddressedOperation} {action : AddressedAction}
    {body : List UInt8} (h : encodeAddressedAction operation action = .ok body) :
    encodeTailRecord (operation.record action) = .ok (operation.kind, body) := by
  cases operation <;> exact bind_eq_ok.2 ⟨body, h, rfl⟩

theorem replayRecord_record (checkpoint : CompleteCheckpoint) (operation : AddressedOperation)
    (action : AddressedAction) (head : JournalHead) :
    replayRecord checkpoint (operation.record action) head =
      replayAddressed checkpoint operation action head := by
  cases operation <;> rfl

theorem Descends.withoutSuperseded {base next : CompleteCheckpoint} (h : Descends base next)
    (operation : AddressedOperation) (currentProcess : ByteVec 16) :
    Descends base (withoutSuperseded next operation currentProcess) := by
  unfold Journal.withoutSuperseded
  split_ifs
  · exact h.clear 3
  · exact h

theorem appendAddressedAction_appends (h : Stands key image projection)
    (operation : AddressedOperation) (action : AddressedAction) (currentProcess : ByteVec 16)
    (recovery : Bool) :
    Appends key image (appendAddressedAction key image operation action currentProcess recovery)
      (AddressedStep projection operation action currentProcess recovery) := by
  obtain ⟨wire, hwire⟩ := h.encode
  obtain ⟨state, hstate, -, -, -, hdescends⟩ := h.exists_state
  obtain ⟨-, wires, hwires, -, -, -⟩ := encodeTailFrames_of_replay key hstate
  have hbytes := frameBytes_of_encodeTailFrames hwires 104
  -- what both directions use, as for clock checkpoints
  have hstep : ∀ {body frame : List UInt8} {normal : AddressedAction} {head : JournalHead}
      {replayed : CompleteCheckpoint},
      decodeAddressedAction operation body head = .ok normal →
      sealRecord key operation.kind body projection.coveredHead = .ok (frame, head) →
      replayAddressed projection operation normal head = .ok replayed →
      RecordStep projection projection.coveredHead
        ⟨projection.coveredHead, head, operation.record normal⟩ frame.length
        (replayed.setHead head) := by
    intro body frame normal head replayed hdecoded hseal hreplayed
    rw [← replayRecord_record] at hreplayed
    exact recordStep_of_sealRecord (operation.record normal)
      (encodeTailRecord_record (encode_of_decodeAddressedAction hdecoded)) hseal hreplayed
  have hfits : ∀ {frame : List UInt8} {checkpoint : CompleteCheckpoint},
      (superseded checkpoint operation currentProcess || image.tail.length == tailCountLimit
        || decide (tailLimit < 104 + wires.flatten.length + frame.length)) = false →
      withoutSuperseded checkpoint operation currentProcess = checkpoint ∧
        image.tail.length ≠ tailCountLimit ∧
        104 + wires.flatten.length + frame.length ≤ tailLimit := by
    intro frame checkpoint hroom
    simp only [Bool.or_eq_false_iff, beq_eq_false_iff_ne, decide_eq_false_iff_not, not_lt] at hroom
    refine ⟨?_, hroom.1.2, hroom.2⟩
    rw [withoutSuperseded, if_neg]
    rw [hroom.1.1]
    exact Bool.false_ne_true
  have hdescends' : ∀ {normal : AddressedAction} {head : JournalHead} {replayed : CompleteCheckpoint},
      replayAddressed projection operation normal head = .ok replayed →
      Descends image.checkpoint
        (withoutSuperseded (replayed.setHead head) operation currentProcess) := by
    intro normal head replayed hreplayed
    rw [← replayRecord_record] at hreplayed
    exact (hdescends.trans ((replayRecord_descends hreplayed).setHead head)).withoutSuperseded
      operation currentProcess
  constructor
  · intro next hnext
    obtain ⟨_, -, hnext⟩ := bind_eq_ok.1 hnext
    obtain ⟨checkpoint, hcheckpoint, hnext⟩ := bind_eq_ok.1 hnext
    obtain ⟨hprocess, hnext⟩ := reject_bind_eq_ok.1 hnext
    obtain ⟨⟨⟩, hauthorized, hnext⟩ := bind_eq_ok.1 hnext
    obtain ⟨body, hbody, hnext⟩ := bind_eq_ok.1 hnext
    obtain ⟨⟨frame, head⟩, hseal, hnext⟩ := bind_eq_ok.1 hnext
    obtain ⟨normal, hnormal, hnext⟩ := bind_eq_ok.1 hnext
    obtain ⟨replayed, hreplayed, hnext⟩ := bind_eq_ok.1 hnext
    obtain ⟨bytes, hbytes', hnext⟩ := bind_eq_ok.1 hnext
    obtain ⟨image', hbranch, hnext⟩ := bind_eq_ok.1 hnext
    obtain ⟨_, hencode, hnext⟩ := bind_eq_ok.1 hnext
    obtain rfl := Except.ok.inj hnext
    rw [h.replayed] at hcheckpoint
    obtain rfl := Except.ok.inj hcheckpoint
    rw [hbytes] at hbytes'
    obtain rfl := Except.ok.inj hbytes'
    obtain ⟨again, hagain⟩ := exists_encode_iff_stands.1 ⟨_, hencode⟩
    have hrecord := hstep hnormal hseal hreplayed
    obtain ⟨generation, -, hreplays⟩ :=
      appended_spec h hbytes hrecord (hdescends' hreplayed) hfits hbranch
    obtain ⟨hvalid, rfl⟩ := hreplays again hagain
    exact ⟨withoutSuperseded (replayed.setHead head) operation currentProcess, generation,
      ⟨beq_eq_false_iff_ne.1 hprocess, hauthorized,
        ⟨body, normal, ⟨projection.coveredHead, head, operation.record normal⟩, frame.length,
          replayed.setHead head, hbody, hnormal, rfl, hrecord, rfl⟩, hvalid⟩, hagain⟩
  · rintro hroom stepped ⟨hprocess, hauthorized, ⟨body, normal, frame, size, extended, hbody, hnormal,
      hrecord, hframe, rfl⟩, hvalid⟩
    have hencoded := encodeTailRecord_record (encode_of_decodeAddressedAction hnormal)
    rw [← hrecord] at hencoded
    obtain ⟨sealed, hseal, -⟩ := hframe.sealRecord key hencoded
    obtain ⟨replayed, hreplayed, rfl⟩ := hframe.replay
    rw [hrecord, replayRecord_record] at hreplayed
    obtain ⟨next, hnext⟩ := exists_appended hroom (hdescends' hreplayed)
      (superseded (replayed.setHead frame.resultingHead) operation currentProcess
        || image.tail.length == tailCountLimit
        || decide (tailLimit < 104 + wires.flatten.length + sealed.length))
      ⟨projection.coveredHead, frame.resultingHead, operation.record normal⟩
    obtain ⟨generation, hstands, -⟩ := appended_spec h hbytes (hstep hnormal hseal hreplayed)
      (hdescends' hreplayed) hfits hnext
    obtain ⟨bytes, hencode⟩ := (hstands hvalid).encode
    refine ⟨next, bind_eq_ok.2 ⟨wire, hwire, bind_eq_ok.2 ⟨projection, h.replayed, ?_⟩⟩⟩
    refine reject_bind_eq_ok.2 ⟨beq_eq_false_iff_ne.2 hprocess, ?_⟩
    refine bind_eq_ok.2 ⟨(), hauthorized, bind_eq_ok.2 ⟨body, hbody, ?_⟩⟩
    refine bind_eq_ok.2 ⟨(sealed, frame.resultingHead), hseal, ?_⟩
    refine bind_eq_ok.2 ⟨normal, hnormal, bind_eq_ok.2 ⟨replayed, hreplayed, ?_⟩⟩
    refine bind_eq_ok.2 ⟨_, hbytes, bind_eq_ok.2 ⟨next, hnext, ?_⟩⟩
    exact bind_eq_ok.2 ⟨bytes, hencode, rfl⟩

end Stands

/-! ### The first image -/

/-- The checkpoint of an owner with at most one pending shutdown. -/
def bareCheckpoint (generation : UInt64) (coveredHead : JournalHead)
    (shutdown : Option AddressedStateValue) : CompleteCheckpoint where
  generation := generation
  coveredHead := coveredHead
  clockAuthority := ⟨0, none, none⟩
  activePointer := none
  recoveryRing := []
  localCommands := []
  addressed := fun index => cellAt index (if index = 2 then shutdown else none)
  provenance := []
  coordinator := none
  openUpgrade := none

/-- The image of a checkpoint without a tail. -/
def bareImage (key : JournalIntegrityKey) (checkpoint : CompleteCheckpoint) :
    CompleteControlJournalImage :=
  ⟨⟨key.deriveResourceIncarnationNamespaceV1, 0⟩, checkpoint, []⟩

/-- The first image of an owner. -/
def completeGenesis (key : JournalIntegrityKey) : CompleteControlJournalImage :=
  bareImage key (bareCheckpoint 1 ⟨0, ByteVec.zero 32⟩ none)

theorem stands_bare (key : JournalIntegrityKey) {generation : UInt64} {head : JournalHead}
    {shutdown : Option AddressedStateValue}
    (hvalid : validateCheckpoint (bareCheckpoint generation head shutdown) = .ok ())
    (hbindings : validateImageBindings (bareImage key (bareCheckpoint generation head shutdown)) =
      .ok ()) :
    Stands key (bareImage key (bareCheckpoint generation head shutdown))
      (bareCheckpoint generation head shutdown) := by
  have hring : encodeRing key [] =
      .ok (manifestBytes [] ++ (recoveryRingManifestTag key (manifestBytes [])).toList) := rfl
  exact ⟨rfl, ⟨⟨_, rfl⟩, ⟨_, hring⟩, ⟨_, rfl⟩⟩, replayTail_eq_ok.2 ⟨hbindings,
    validateCheckpoint_eq_ok.1 hvalid, Nat.zero_le _, ⟨_, rfl, rfl⟩,
    validateCheckpoint_eq_ok.1 hvalid⟩⟩

theorem stands_completeGenesis (key : JournalIntegrityKey) :
    Stands key (completeGenesis key) (completeGenesis key).checkpoint :=
  stands_bare key (by decide) rfl

/-! ### An image with a tail -/

/-- A process whose identity repeats one byte. -/
def processOf (byte : UInt8) : ByteVec 16 := ⟨List.replicate 16 byte, List.length_replicate ..⟩

/-- A head whose digest repeats one byte. -/
def headOf (sequence : UInt64) (byte : UInt8) : JournalHead :=
  ⟨sequence, List.replicate 32 byte, List.length_replicate ..⟩

/-- A process has begun to stop. -/
def stoppingValue : AddressedStateValue where
  actor := .stateOwner
  address := .processInstance (processOf 1)
  desiredTransition := .stopProcess 1
  evidence := .shutdown 0 1
  phase := 2
  safeResult := .shutdown 0
  applicationHead := headOf 1 1
  publicationHead := headOf 1 1
  mirror := .notApplicable

/-- Another process ends the shutdown under recovery. -/
def endStopping : AddressedAction := .publishPhase 4 (.shutdown 1)

/-- A checkpoint in which a shutdown has been asked for. -/
def stoppingCheckpoint : CompleteCheckpoint := bareCheckpoint 2 (headOf 1 1) (some stoppingValue)

theorem stands_stopping (key : JournalIntegrityKey) :
    Stands key (bareImage key stoppingCheckpoint) stoppingCheckpoint :=
  stands_bare key (by decide) rfl

/-- The body of the record that ends the shutdown, and the frame before its digest. -/
def endBody : List UInt8 := [1, 2, 0, 8, 4, 0, 120, 0, 1, 0, 1, 1]

/-- The fields of the record that ends the shutdown. -/
def endFields : List UInt8 :=
  (recordFields 122 .systemShutdown 2 (headOf 1 1).digest endBody).flatten

/-- The head behind that record. -/
def endHead : JournalHead := ⟨2, recordDigest endFields⟩

/-- The record that ends the shutdown, as a frame of the tail. -/
def endFrame : AuthenticatedTailFrame := ⟨headOf 1 1, endHead, .systemShutdown endStopping⟩

/-- The completion, at the head of its record. -/
def stoppedValue (head : JournalHead) : AddressedStateValue :=
  { stoppingValue with
    phase := 4, safeResult := .shutdown 1, applicationHead := head, publicationHead := head }

/-- The checkpoint after the shutdown, with its result in the place of the completed one. -/
def stoppedCheckpoint (head : JournalHead) : CompleteCheckpoint :=
  ((stoppingCheckpoint.setState 2 none).setState 3 (some (stoppedValue head))).setHead head

theorem recordStep_end :
    RecordStep stoppingCheckpoint (headOf 1 1) endFrame 122 (stoppedCheckpoint endHead) := by
  have hvalid : validAddressedValue .systemShutdown (stoppedValue endHead) = true := by
    decide +kernel
  refine ⟨frameFollows_iff.2 ⟨rfl, rfl⟩, ⟨.systemShutdown, endBody, endFields,
    ⟨by decide, recordPrefix_eq_ok.2 ⟨122, 2, by decide, rfl, rfl, rfl⟩, rfl⟩, rfl⟩, ?_⟩
  refine ⟨(stoppingCheckpoint.setState 2 none).setState 3 (some (stoppedValue endHead)), ?_, rfl⟩
  refine bind_eq_ok.2 ⟨(stoppingCheckpoint, stoppedValue endHead), rfl, bind_eq_ok.2 ⟨(), ?_, rfl⟩⟩
  exact validateAddressedValue_eq_ok.2 hvalid

theorem stands_end (key : JournalIntegrityKey) :
    Stands key ((bareImage key stoppingCheckpoint).push endFrame) (stoppedCheckpoint endHead) := by
  have hvalid : ValidCheckpoint (stoppedCheckpoint endHead) :=
    validateCheckpoint_eq_ok.1 (show validateCheckpoint _ = .ok () by decide +kernel)
  exact (stands_push (stands_stopping key) rfl).2
    ⟨show 0 < tailCountLimit by decide, 122, ⟨recordStep_end, hvalid⟩, by decide⟩

/-! ### Folding -/

/-- Two projections that differ in their generation only. -/
def SameButGeneration (projection other : CompleteCheckpoint) : Prop :=
  projection.setGeneration 0 = other.setGeneration 0

/-- Two answers succeed together, and their images replay to the same up to the generation. -/
def SameOutcome (answer other : Except ControlJournalImageError CompleteControlJournalImage) :
    Prop :=
  ((∃ next, answer = .ok next) ↔ ∃ next, other = .ok next) ∧
  ∀ next next', answer = .ok next → other = .ok next' → ∃ projection projection',
    replayTail next = .ok projection ∧ replayTail next' = .ok projection' ∧
    SameButGeneration projection projection'

section Fold

variable {key : JournalIntegrityKey} {image : CompleteControlJournalImage}
  {projection stepped stepped' : CompleteCheckpoint} {generation : UInt64}

theorem ClockStep.setGeneration {body : ClockCheckpointBody} (h : ClockStep projection body stepped)
    (hne : generation ≠ 0) :
    ClockStep (projection.setGeneration generation) body (stepped.setGeneration generation) := by
  obtain ⟨frame, size, hrecord, hstep⟩ := h
  exact ⟨frame, size, hrecord, hstep.toRecordStep.setGeneration, hstep.valid.setGeneration hne⟩

theorem ClockStep.unique {body : ClockCheckpointBody} (h : ClockStep projection body stepped)
    (h' : ClockStep projection body stepped') : stepped = stepped' := by
  obtain ⟨frame, size, hrecord, hstep⟩ := h
  obtain ⟨frame', size', hrecord', hstep'⟩ := h'
  have hsame : frame.record = frame'.record := hrecord.trans hrecord'.symm
  exact hstep.toRecordStep.next_unique hstep'.toRecordStep hsame
    (hstep.toRecordStep.resultingHead_unique hstep'.toRecordStep (by rw [hsame]))

section Addressed

variable {operation : AddressedOperation} {action : AddressedAction} {currentProcess : ByteVec 16}
  {recovery : Bool}

theorem withoutSuperseded_setGeneration (checkpoint : CompleteCheckpoint) :
    withoutSuperseded (checkpoint.setGeneration generation) operation currentProcess =
      (withoutSuperseded checkpoint operation currentProcess).setGeneration generation := by
  unfold withoutSuperseded
  by_cases hold : superseded checkpoint operation currentProcess
  · rw [if_pos hold]
    exact if_pos hold
  · rw [if_neg hold]
    exact if_neg hold

theorem AddressedStep.setGeneration
    (h : AddressedStep projection operation action currentProcess recovery stepped)
    (hne : generation ≠ 0) :
    AddressedStep (projection.setGeneration generation) operation action currentProcess recovery
      (stepped.setGeneration generation) := by
  obtain ⟨hprocess, hauthorized, ⟨body, normal, frame, size, extended, hbody, hnormal, hrecord, hstep,
    rfl⟩, hvalid⟩ := h
  exact ⟨hprocess, hauthorized, ⟨body, normal, frame, size, extended.setGeneration generation, hbody,
    hnormal, hrecord, hstep.setGeneration, (withoutSuperseded_setGeneration extended).symm⟩,
    hvalid.setGeneration hne⟩

theorem AddressedStep.unique
    (h : AddressedStep projection operation action currentProcess recovery stepped)
    (h' : AddressedStep projection operation action currentProcess recovery stepped') :
    stepped = stepped' := by
  obtain ⟨-, -, ⟨body, normal, frame, size, extended, hbody, hnormal, hrecord, hstep, rfl⟩, -⟩ := h
  obtain ⟨-, -, ⟨body', normal', frame', size', extended', hbody', hnormal', hrecord', hstep', rfl⟩,
    -⟩ := h'
  rw [hbody] at hbody'
  obtain rfl := Except.ok.inj hbody'
  have hencoded := encodeTailRecord_record (encode_of_decodeAddressedAction hnormal)
  have hencoded' := encodeTailRecord_record (encode_of_decodeAddressedAction hnormal')
  have hhead : frame.resultingHead = frame'.resultingHead :=
    hstep.resultingHead_unique hstep' (by rw [hrecord, hrecord', hencoded, hencoded'])
  rw [hhead, hnormal'] at hnormal
  obtain rfl := Except.ok.inj hnormal
  rw [hstep.next_unique hstep' (hrecord.trans hrecord'.symm) hhead]

end Addressed

/-- Appends whose steps correspond up to the generation have the same outcome. -/
theorem sameOutcome_of_appends
    {answer other : Except ControlJournalImageError CompleteControlJournalImage}
    {Step Step' : CompleteCheckpoint → Prop} {generation' : UInt64}
    {image' : CompleteControlJournalImage} (h : Appends key image answer Step)
    (h' : Appends key image' other Step') (hroom : image.Room) (hroom' : image'.Room)
    (hto : ∀ stepped, Step stepped → Step' (stepped.setGeneration generation'))
    (hback : ∀ stepped, Step' stepped → Step (stepped.setGeneration generation))
    (hunique : ∀ stepped stepped', Step' stepped → Step' stepped' → stepped = stepped') :
    SameOutcome answer other := by
  refine ⟨⟨?_, ?_⟩, ?_⟩
  · rintro ⟨next, hnext⟩
    obtain ⟨stepped, _, hstep, -⟩ := h.sound next hnext
    exact h'.complete hroom' _ (hto stepped hstep)
  · rintro ⟨next, hnext⟩
    obtain ⟨stepped, _, hstep, -⟩ := h'.sound next hnext
    exact h.complete hroom _ (hback stepped hstep)
  · intro next next' hnext hnext'
    obtain ⟨stepped, _, hstep, hstands⟩ := h.sound next hnext
    obtain ⟨stepped', _, hstep', hstands'⟩ := h'.sound next' hnext'
    refine ⟨_, _, hstands.replayed, hstands'.replayed, ?_⟩
    rw [hunique stepped' _ hstep' (hto stepped hstep)]
    rfl

/-- **Folding is invisible to the projection.**  The fold of an image stands one generation later
and replays to the same projection; every clock checkpoint and every addressed action is appended to
both or to neither, with the same projection behind it up to the generation.  Whether an append
extends the tail or absorbs it, the projection behind it is the one that a turn of the replay loop
computes, except that a completed shutdown of another process is left out. -/
theorem fold_invisible (key : JournalIntegrityKey) (image : CompleteControlJournalImage)
    (hencodable : ∃ bytes, encodeControlJournalImage key image = .ok bytes)
    (hgeneration : image.checkpoint.generation.toNat < 2 ^ 64 - 2) (trigger : FoldTrigger) :
    ∃ projection folded generation, replayTail image = .ok projection ∧
      foldControlJournalImage image trigger = .ok folded ∧
      replayTail folded = .ok (projection.setGeneration generation) ∧
      generation.toNat = projection.generation.toNat + 1 ∧
      (∀ body, SameOutcome (appendClockCheckpoint key image body)
        (appendClockCheckpoint key folded body)) ∧
      (∀ operation action currentProcess recovery, SameOutcome
        (appendAddressedAction key image operation action currentProcess recovery)
        (appendAddressedAction key folded operation action currentProcess recovery)) ∧
      (∀ body next, appendClockCheckpoint key image body = .ok next →
        ∃ replayed stepped, replayTail next = .ok replayed ∧ ClockStep projection body stepped ∧
          SameButGeneration replayed stepped) ∧
      (∀ operation action currentProcess recovery next,
        appendAddressedAction key image operation action currentProcess recovery = .ok next →
        ∃ replayed stepped, replayTail next = .ok replayed ∧
          AddressedStep projection operation action currentProcess recovery stepped ∧
          SameButGeneration replayed stepped) := by
  obtain ⟨projection, h⟩ := exists_encode_iff_stands.1 hencodable
  have hsame := h.descends.generation
  have hroom : image.Room := by
    rw [CompleteControlJournalImage.Room]
    omega
  obtain ⟨folded, hfolded⟩ := exists_absorb hroom h.descends
  obtain ⟨generation, hgenerations, hsucc, hstands, -⟩ := absorb_spec h h.descends hfolded
  -- the folded image stands for the same projection, with another generation
  have hfold := hstands h.valid
  have hroom' : folded.Room := by
    rw [CompleteControlJournalImage.Room, hgenerations, hsucc]
    omega
  have hne : generation ≠ 0 := hfold.valid.generation
  have hne' : projection.generation ≠ 0 := h.valid.generation
  refine ⟨projection, folded, generation, h.replayed, bind_eq_ok.2 ⟨projection, h.replayed, hfolded⟩,
    hfold.replayed, by rw [hsame, hsucc], ?_, ?_, ?_, ?_⟩
  · intro body
    exact sameOutcome_of_appends (appendClockCheckpoint_appends h body)
      (appendClockCheckpoint_appends hfold body) hroom hroom' (fun _ hstep => hstep.setGeneration hne)
      (fun _ hstep => hstep.setGeneration hne') (fun _ _ hstep hstep' => hstep.unique hstep')
  · intro operation action currentProcess recovery
    exact sameOutcome_of_appends
      (appendAddressedAction_appends h operation action currentProcess recovery)
      (appendAddressedAction_appends hfold operation action currentProcess recovery) hroom hroom'
      (fun _ hstep => hstep.setGeneration hne) (fun _ hstep => hstep.setGeneration hne')
      (fun _ _ hstep hstep' => hstep.unique hstep')
  · intro body next hnext
    obtain ⟨stepped, _, hstep, hnextStands⟩ :=
      (appendClockCheckpoint_appends h body).sound next hnext
    exact ⟨_, stepped, hnextStands.replayed, hstep, rfl⟩
  · intro operation action currentProcess recovery next hnext
    obtain ⟨stepped, _, hstep, hnextStands⟩ := (appendAddressedAction_appends h operation action
      currentProcess recovery).sound next hnext
    exact ⟨_, stepped, hnextStands.replayed, hstep, rfl⟩

/-- The fold of an image that ends in a shutdown. -/
theorem fold_invisible_end :
    let key : JournalIntegrityKey := ⟨ByteVec.zero 32⟩
    let image := (bareImage key stoppingCheckpoint).push endFrame
    ∃ projection folded generation, replayTail image = .ok projection ∧
      foldControlJournalImage image .tailFrameLimit = .ok folded ∧
      replayTail folded = .ok (projection.setGeneration generation) ∧
      generation.toNat = projection.generation.toNat + 1 := by
  intro key image
  obtain ⟨projection, folded, generation, hreplayed, hfolded, hagain, hsucc, -⟩ :=
    fold_invisible key image (stands_end key).encode (show (2 : UInt64).toNat < 2 ^ 64 - 2 by decide)
      .tailFrameLimit
  exact ⟨projection, folded, generation, hreplayed, hfolded, hagain, hsucc⟩

/-- **The journal never gets stuck for lack of space.**  The fold of an image that can be encoded
can be encoded, and every record that the replay admits behind the image can be appended, however
full the tail is.  No limit of a region or a member adds to the validators: a checkpoint with a
pointer, a ring and commands that each have an encoding has one. -/
theorem fold_never_stuck (key : JournalIntegrityKey) (image : CompleteControlJournalImage)
    (hencodable : ∃ bytes, encodeControlJournalImage key image = .ok bytes)
    (hgeneration : image.checkpoint.generation.toNat < 2 ^ 64 - 1) :
    (∀ trigger, ∃ folded, foldControlJournalImage image trigger = .ok folded ∧ folded.tail = [] ∧
      ∃ bytes, encodeControlJournalImage key folded = .ok bytes) ∧
    (∀ projection, replayTail image = .ok projection →
      (∀ body stepped, ClockStep projection body stepped →
        ∃ next, appendClockCheckpoint key image body = .ok next) ∧
      ∀ operation action currentProcess recovery stepped,
        AddressedStep projection operation action currentProcess recovery stepped →
        ∃ next, appendAddressedAction key image operation action currentProcess recovery =
          .ok next) ∧
    ∀ ownerNamespace checkpoint, ValidCheckpoint checkpoint →
      (∃ bytes, encodePointerMember key checkpoint.activePointer = .ok bytes) →
      (∃ bytes, encodeRing key checkpoint.recoveryRing = .ok bytes) →
      (∀ command ∈ checkpoint.localCommands, ∃ bytes,
        encodeCommandProjection ownerNamespace command = .ok bytes) →
      ∃ bytes, encodeCheckpoint key ownerNamespace checkpoint = .ok bytes := by
  obtain ⟨projection, h⟩ := exists_encode_iff_stands.1 hencodable
  have hroom : image.Room := by
    rw [CompleteControlJournalImage.Room]
    omega
  refine ⟨fun trigger => ?_, fun projection' hprojection' => ?_, ?_⟩
  · obtain ⟨folded, hfolded⟩ := exists_absorb hroom h.descends
    obtain ⟨generation, -, -, hstands, -⟩ := absorb_spec h h.descends hfolded
    refine ⟨folded, bind_eq_ok.2 ⟨projection, h.replayed, hfolded⟩, ?_, (hstands h.valid).encode⟩
    obtain ⟨_, -, hfolded⟩ := orError_bind_eq_ok.1 hfolded
    obtain rfl := Except.ok.inj hfolded
    rfl
  · rw [h.replayed] at hprojection'
    obtain rfl := Except.ok.inj hprojection'
    exact ⟨fun body => (appendClockCheckpoint_appends h body).complete hroom,
      fun operation action currentProcess recovery =>
        (appendAddressedAction_appends h operation action currentProcess recovery).complete hroom⟩
  · intro ownerNamespace checkpoint hvalid hpointer hring hcommands
    exact exists_encodeCheckpoint.2 ⟨hvalid, hpointer, hring,
      exists_encodeCommandMember hvalid.count
      (validateCommand_of_mem hvalid.commands) hcommands⟩

theorem fold_never_stuck_end :
    let key : JournalIntegrityKey := ⟨ByteVec.zero 32⟩
    let image := (bareImage key stoppingCheckpoint).push endFrame
    ∃ folded, foldControlJournalImage image .tailByteLimit = .ok folded ∧ folded.tail = [] ∧
      ∃ bytes, encodeControlJournalImage key folded = .ok bytes := by
  intro key image
  exact (fold_never_stuck key image (stands_end key).encode
    (show (2 : UInt64).toNat < 2 ^ 64 - 1 by decide)).1 .tailByteLimit

end Fold

/-! ### A superseded completion -/

/-- Another process ends the shutdown, and its completion is left out. -/
theorem addressedStep_end :
    AddressedStep stoppingCheckpoint .systemShutdown endStopping (processOf 2) true
      ((stoppedCheckpoint endHead).setState 3 none) := by
  refine ⟨by decide, rfl, ⟨endBody, endStopping, endFrame, 122, stoppedCheckpoint endHead,
    by decide, by decide, rfl, recordStep_end, rfl⟩, ?_⟩
  exact validateCheckpoint_eq_ok.1 (show validateCheckpoint _ = .ok () by decide +kernel)

/-- **The fold for a superseded completion is visible**: the image that extends the tail replays to
a projection that retains the completion, and the image that is appended replays to one without it.
-/
theorem superseded_fold_visible :
    let key : JournalIntegrityKey := ⟨ByteVec.zero 32⟩
    let image := bareImage key stoppingCheckpoint
    (∃ bytes, encodeControlJournalImage key image = .ok bytes) ∧
    image.checkpoint.generation.toNat < 2 ^ 64 - 2 ∧
    (∃ bytes, encodeControlJournalImage key (image.push endFrame) = .ok bytes) ∧
    endFrame.record = .systemShutdown endStopping ∧
    ∃ next projection extended,
      appendAddressedAction key image .systemShutdown endStopping (processOf 2) true = .ok next ∧
      replayTail next = .ok projection ∧ replayTail (image.push endFrame) = .ok extended ∧
      ¬ SameButGeneration projection extended := by
  intro key image
  have h : Stands key image stoppingCheckpoint := stands_stopping key
  have hpushed : Stands key (image.push endFrame) (stoppedCheckpoint endHead) := stands_end key
  have hstep := addressedStep_end
  have happends := appendAddressedAction_appends h .systemShutdown endStopping (processOf 2) true
  obtain ⟨next, hnext⟩ := happends.complete (show 2 + 1 < 2 ^ 64 by decide) _ hstep
  obtain ⟨stepped, generation, hstep', hstands⟩ := happends.sound next hnext
  obtain rfl := hstep.unique hstep'
  refine ⟨h.encode, by decide, hpushed.encode, rfl, next, _, _, hnext, hstands.replayed,
    hpushed.replayed, fun hsame => ?_⟩
  have hcell := congrArg (fun checkpoint => (checkpoint.addressed 3).state) hsame
  cases hcell

end MsgRiver.Journal
