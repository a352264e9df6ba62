import MsgRiver.Journal.Replay

/-!
# The wire form of an image

An image is a header, an authenticated checkpoint region and an authenticated tail region; the
checkpoint region names the header by its digest, and the tail region names both.

The two directions are inverse to each other (`imageCodec_inverse`).  From the value to the wire
this is the round trip of every member; the heads of a request, which the wire omits, come back
because the replay only admits a request with the head of its own frame.  From the wire to the value
it is canonicity: checkpoints and addressed actions are encoded again by their decoders, and for the
header, the regions, the record frames and the clock bodies a decoder accepts nothing but the
encoding.
-/

namespace MsgRiver.Journal

open Bytes Result Wire Ascii Sha256

/-! ### Encoding -/

/-- The regions of an image behind its header. -/
inductive ImageRegion
  | checkpoint
  | tail
  deriving DecidableEq, Repr

/-- The label of a region's tags. -/
def ImageRegion.label : ImageRegion → List UInt8
  | .checkpoint => utf8Bytes "msgriver/control-journal-checkpoint/v1"
  | .tail => utf8Bytes "msgriver/control-journal-tail/v1"

/-- The tag at the end of a region. -/
def regionTag (key : JournalIntegrityKey) (region : ImageRegion) (bytes : List UInt8) :
    ByteVec 32 :=
  key.tag region.label bytes

/-- The digest of a region. -/
def regionDigest (bytes : List UInt8) : ByteVec 32 := sha256 bytes

/-- The limit of a region and its length without a payload. -/
def regionBounds (region : ImageRegion) (checkpointDigest : Option (ByteVec 32)) :
    Except ControlJournalImageError (ℕ × ℕ) :=
  match region, checkpointDigest with
  | .checkpoint, none => .ok (checkpointLimit, 72)
  | .tail, some _ => .ok (tailLimit, 104)
  | _, _ => .error invalidControlJournalImage

/-- The fields of a region before its tag. -/
def regionFields (length : UInt32) (count : UInt16) (headerDigest : ByteVec 32)
    (checkpointDigest : Option (ByteVec 32)) (payload : List UInt8) : List (List UInt8) :=
  [wire length, wire (1 : UInt16), wire count, headerDigest.toList]
  ++ (checkpointDigest.map List.Vector.toList).toList ++ [payload]

/-- A region: length, count and digests before the payload, the tag behind it. -/
def sealRegion (key : JournalIntegrityKey) (region : ImageRegion) (count : UInt16)
    (headerDigest : ByteVec 32) (checkpointDigest : Option (ByteVec 32)) (payload : List UInt8) :
    Except ControlJournalImageError (List UInt8) := do
  let (limit, overhead) ← regionBounds region checkpointDigest
  let length : UInt32 ← orError invalidControlJournalImage (ofNat? (payload.length + overhead))
  let bytes ← written limit (regionFields length count headerDigest checkpointDigest payload)
  extend limit bytes (regionTag key region bytes).toList

/-- The header of an image, which has to be one of the key. -/
def encodeImageHeader (key : JournalIntegrityKey) (header : ControlJournalHeader) :
    Except ControlJournalImageError (List UInt8) := do
  let component := key.controlJournalHeaderWithBranchHighWater header.branchSerialHighWater
  reject (component.ownerNamespace != header.ownerNamespace) invalidControlJournalImage
  orInvalid (key.encodeControlJournalHeader component)

/-- A frame that follows the prior head and whose digest is the one it states. -/
def encodeTailFrame (key : JournalIntegrityKey) (prior : JournalHead)
    (frame : AuthenticatedTailFrame) : Except ControlJournalImageError (List UInt8) := do
  reject (!frameFollows prior frame) invalidControlJournalImage
  let (kind, body) ← encodeTailRecord frame.record
  let wire ← orInvalid (key.encodeControlJournalRecord kind body prior)
  let authenticated ← orInvalid (key.decodeControlJournalRecord wire prior)
  reject (authenticated.recordDigest != frame.resultingHead.digest) invalidControlJournalImage
  return wire

/-- The frames of a tail behind the given head. -/
def encodeTailFrames (key : JournalIntegrityKey) :
    JournalHead → List AuthenticatedTailFrame → Except ControlJournalImageError (List (List UInt8))
  | _, [] => .ok []
  | prior, frame :: frames => do
    let wire ← encodeTailFrame key prior frame
    let wires ← encodeTailFrames key frame.resultingHead frames
    return wire :: wires

/-- The number of members that a checkpoint region states. -/
def checkpointMembers : UInt16 := 13

/-- `encode_control_journal_image`: the header, the checkpoint and the tail, once the tail was
replayed. -/
def encodeControlJournalImage (key : JournalIntegrityKey) (image : CompleteControlJournalImage) :
    Except ControlJournalImageError (List UInt8) := do
  let header ← encodeImageHeader key image.header
  let checkpointPayload ← encodeCheckpoint key image.header.ownerNamespace image.checkpoint
  let _ ← replayTail image
  let headerDigest := regionDigest header
  let checkpoint ←
    sealRegion key .checkpoint checkpointMembers headerDigest none checkpointPayload
  let frames ← encodeTailFrames key image.checkpoint.coveredHead image.tail
  let payload ← written (tailLimit - 104) frames
  let count : UInt16 ← orError invalidControlJournalImage (ofNat? image.tail.length)
  let tail ← sealRegion key .tail count headerDigest (some (regionDigest checkpoint)) payload
  written imageLimit [header, checkpoint, tail]

/-! ### Decoding -/

/-- A region that was read. -/
structure OpenRegion where
  exactWire : List UInt8
  payload : List UInt8
  count : UInt16

/-- A digest that must have a given value. -/
def readDigest (expected : ByteVec 32) : ImageReader Unit := do
  let digest ← array 32
  require (digest == expected)

/-- The digest of the checkpoint, which only the tail region carries. -/
def readCheckpointDigest : Option (ByteVec 32) → ImageReader Unit
  | none => pure ()
  | some expected => readDigest expected

/-- The fields of a region between its length and its tag. -/
def readRegion (headerDigest : ByteVec 32) (checkpointDigest : Option (ByteVec 32)) :
    ImageReader (UInt16 × List UInt8) := do
  let version : UInt16 ← int
  require (version == 1)
  let count ← int
  readDigest headerDigest
  readCheckpointDigest checkpointDigest
  let payload ← remaining
  return (count, payload)

/-- Reads a region and checks its bounds, its digests and its tag. -/
def openRegion (key : JournalIntegrityKey) (region : ImageRegion) (headerDigest : ByteVec 32)
    (checkpointDigest : Option (ByteVec 32)) : ImageReader OpenRegion := do
  let bounds ← regionBounds region checkpointDigest
  let lengthBytes ← take 4
  let length := (unwire lengthBytes : UInt32).toNat
  require (decide (bounds.2 ≤ length ∧ length ≤ bounds.1))
  let body ← take (length - 4)
  let exactWire := lengthBytes ++ body
  let tagStart := length - 32
  require (exactWire.drop tagStart == (regionTag key region (exactWire.take tagStart)).toList)
  let parts ← readAll (readRegion headerDigest checkpointDigest) (slice exactWire 4 tagStart)
  return ⟨exactWire, parts.2, parts.1⟩

/-- Reads the body of a record. -/
def decodeTailRecord (kind : ControlJournalRecordKind) (body : List UInt8) (head : JournalHead) :
    Except ControlJournalImageError TailRecord :=
  match kind with
  | .clockCheckpoint => .clockCheckpointEvent <$> orInvalid (decodeClockCheckpointBody body)
  | .clockAcknowledge => .clockAcknowledge <$> decodeAddressedAction .clockAcknowledge body head
  | .systemShutdown => .systemShutdown <$> decodeAddressedAction .systemShutdown body head

/-- One frame behind the given head. -/
def readTailFrame (key : JournalIntegrityKey) (prior : JournalHead) :
    ImageReader AuthenticatedTailFrame := do
  let lengthBytes ← take 4
  let length := (unwire lengthBytes : UInt32).toNat
  require (decide (110 ≤ length ∧ length ≤ frameLimit))
  let body ← take (length - 4)
  let frame ← orInvalid (key.decodeControlJournalRecord (lengthBytes ++ body) prior)
  let resultingHead : JournalHead := ⟨frame.sequence, frame.recordDigest⟩
  let record ← decodeTailRecord frame.kind frame.body resultingHead
  return ⟨prior, resultingHead, record⟩

/-- `count` frames behind the given head. -/
def readTailFrames (key : JournalIntegrityKey) :
    ℕ → JournalHead → ImageReader (List AuthenticatedTailFrame)
  | 0, _ => pure []
  | count + 1, prior => do
    let frame ← readTailFrame key prior
    let frames ← readTailFrames key count frame.resultingHead
    return frame :: frames

/-- The header, the checkpoint and the tail region. -/
def readRegions (key : JournalIntegrityKey) :
    ImageReader (ControlJournalHeader × CompleteCheckpoint × OpenRegion) := do
  let headerWire ← take 120
  let header ← orInvalid (key.decodeControlJournalHeader headerWire)
  let headerDigest := regionDigest headerWire
  let checkpointRegion ← openRegion key .checkpoint headerDigest none
  require (checkpointRegion.count == checkpointMembers)
  let checkpoint ← decodeCheckpoint key header.ownerNamespace checkpointRegion.payload
  let tailRegion ←
    openRegion key .tail headerDigest (some (regionDigest checkpointRegion.exactWire))
  return (header, checkpoint, tailRegion)

/-- `decode_control_journal_image`: what was read has to be encoded as the same bytes. -/
def decodeControlJournalImage (key : JournalIntegrityKey) (wire : List UInt8) :
    Except ControlJournalImageError CompleteControlJournalImage := do
  reject (decide (imageLimit < wire.length)) invalidControlJournalImage
  let (header, checkpoint, tailRegion) ← readAll (readRegions key) wire
  let count := tailRegion.count.toNat
  reject (decide (tailCountLimit < count) || decide (tailRegion.payload.length / 110 < count))
    invalidControlJournalImage
  let tail ← readAll (readTailFrames key count checkpoint.coveredHead) tailRegion.payload
  let image : CompleteControlJournalImage := ⟨header, checkpoint, tail⟩
  let _ ← orInvalid (replayTail image)
  return image

/-! ### Header and regions -/

theorem encodeImageHeader_eq_ok {key : JournalIntegrityKey} {header : ControlJournalHeader}
    {bytes : List UInt8} :
    encodeImageHeader key header = .ok bytes ↔
      key.encodeControlJournalHeader header = .ok bytes := by
  have hcomponent : key.deriveResourceIncarnationNamespaceV1 = header.ownerNamespace →
      key.controlJournalHeaderWithBranchHighWater header.branchSerialHighWater = header := by
    intro h
    show (⟨key.deriveResourceIncarnationNamespaceV1, header.branchSerialHighWater⟩ :
      ControlJournalHeader) = header
    rw [h]
  unfold encodeImageHeader
  rw [reject_bind_eq_ok, orInvalid_eq_ok, bne_eq_false_iff_eq]
  constructor
  · rintro ⟨hnamespace, h⟩
    rwa [hcomponent hnamespace] at h
  · intro h
    obtain ⟨hnamespace, -⟩ := reject_bind_eq_ok.1 h
    have heq := (bne_eq_false_iff_eq.1 hnamespace).symm
    exact ⟨heq, by rwa [hcomponent heq]⟩

theorem exists_encodeImageHeader {key : JournalIntegrityKey} {header : ControlJournalHeader} :
    (∃ bytes, encodeImageHeader key header = .ok bytes) ↔
      header.ownerNamespace = key.deriveResourceIncarnationNamespaceV1 := by
  simp only [encodeImageHeader_eq_ok, JournalIntegrityKey.encodeControlJournalHeader,
    reject_bind_eq_ok, bne_eq_false_iff_eq, pure_eq_ok, exists_and_left, exists_eq', and_true]
  rfl

theorem length_encodeImageHeader {key : JournalIntegrityKey} {header : ControlJournalHeader}
    {bytes : List UInt8} (h : encodeImageHeader key header = .ok bytes) : bytes.length = 120 := by
  obtain ⟨-, h⟩ := reject_bind_eq_ok.1 (encodeImageHeader_eq_ok.1 h)
  obtain rfl := Except.ok.inj h
  rw [List.length_append, length_headerFields, List.Vector.toList_length]

section Regions

variable {key : JournalIntegrityKey} {region : ImageRegion} {headerDigest : ByteVec 32}
  {checkpointDigest : Option (ByteVec 32)}

/-- The bytes of the checkpoint digest. -/
def digestBytes (checkpointDigest : Option (ByteVec 32)) : List UInt8 :=
  (checkpointDigest.map List.Vector.toList).toList.flatten

theorem readDigest_run_eq_ok {expected : ByteVec 32} {u : Unit} {s s' : List UInt8} :
    readDigest expected s = .ok (u, s') ↔ s = expected.toList ++ s' := by
  simp only [readDigest, bind_run_eq_ok, array_run_eq_ok, require_run_eq_ok, beq_iff_eq]
  constructor
  · rintro ⟨digest, _, rfl, rfl, rfl⟩
    rfl
  · rintro rfl
    exact ⟨expected, s', rfl, rfl, rfl⟩

theorem readCheckpointDigest_run_eq_ok {u : Unit} {s s' : List UInt8} :
    readCheckpointDigest checkpointDigest s = .ok (u, s') ↔
      s = digestBytes checkpointDigest ++ s' := by
  cases checkpointDigest with
  | none => simp [readCheckpointDigest, pure_run_eq_ok, digestBytes]
  | some expected => simp [readCheckpointDigest, readDigest_run_eq_ok, digestBytes]

theorem readRegion_eq_ok {bytes payload : List UInt8} {count : UInt16} :
    readAll (readRegion headerDigest checkpointDigest) bytes = .ok (count, payload) ↔
      bytes = wire (1 : UInt16) ++ (wire count ++ (headerDigest.toList ++
        (digestBytes checkpointDigest ++ payload))) := by
  simp only [readAll_eq_ok, readRegion, bind_run_eq_ok, int_run_eq_ok, require_run_eq_ok,
    beq_iff_eq, readDigest_run_eq_ok, readCheckpointDigest_run_eq_ok, remaining_run_eq_ok,
    pure_run_eq_ok, Prod.mk.injEq]
  constructor
  · rintro ⟨_, _, rfl, _, _, ⟨rfl, rfl⟩, _, _, rfl, _, _, rfl, _, _, rfl, _, _, ⟨rfl, rfl⟩,
      ⟨rfl, rfl⟩, -⟩
    rfl
  · rintro rfl
    exact ⟨1, _, rfl, (), _, ⟨rfl, rfl⟩, count, _, rfl, (), _, rfl, (), _, rfl, payload, [],
      ⟨rfl, rfl⟩, ⟨rfl, rfl⟩, rfl⟩

theorem length_regionFields (length : UInt32) (count : UInt16) (headerDigest : ByteVec 32)
    (payload : List UInt8) {limit overhead : ℕ}
    (hbounds : regionBounds region checkpointDigest = .ok (limit, overhead)) :
    (regionFields length count headerDigest checkpointDigest payload).flatten.length + 32 =
      payload.length + overhead := by
  unfold regionBounds at hbounds
  split at hbounds <;> cases hbounds <;> simp [regionFields] <;> omega

/-- What a sealed region consists of. -/
theorem sealRegion_eq_ok {count : UInt16} {payload bytes : List UInt8} :
    sealRegion key region count headerDigest checkpointDigest payload = .ok bytes ↔
      ∃ (limit overhead : ℕ) (length : UInt32),
        regionBounds region checkpointDigest = .ok (limit, overhead) ∧
        length.toNat = payload.length + overhead ∧ payload.length + overhead ≤ limit ∧
        bytes = (regionFields length count headerDigest checkpointDigest payload).flatten ++
          (regionTag key region
            (regionFields length count headerDigest checkpointDigest payload).flatten).toList := by
  constructor
  · intro h
    obtain ⟨⟨limit, overhead⟩, hbounds, h⟩ := bind_eq_ok.1 h
    obtain ⟨length, hlength, h⟩ := orError_bind_eq_ok.1 h
    obtain ⟨_, hwritten, h⟩ := bind_eq_ok.1 h
    obtain ⟨rfl, -⟩ := written_eq_ok.1 hwritten
    have htotal := length_regionFields length count headerDigest payload hbounds
    unfold extend at h
    split_ifs at h with hfit
    · rw [List.Vector.toList_length, htotal] at hfit
      exact ⟨limit, overhead, length, hbounds, ofNat?_eq_some.1 hlength, hfit,
        (Except.ok.inj h).symm⟩
    · cases h
  · rintro ⟨limit, overhead, length, hbounds, hlength, hfit, rfl⟩
    have htotal := length_regionFields length count headerDigest payload hbounds
    refine bind_eq_ok.2 ⟨(limit, overhead), hbounds, orError_bind_eq_ok.2 ⟨length,
      ofNat?_eq_some.2 hlength, bind_eq_ok.2 ⟨_, written_eq_ok.2 ⟨rfl, by omega⟩, ?_⟩⟩⟩
    exact if_pos (by rw [List.Vector.toList_length, htotal]; exact hfit)

/-- **A region is opened exactly when it is sealed.** -/
theorem openRegion_run_eq_ok {opened : OpenRegion} {s s' : List UInt8} :
    openRegion key region headerDigest checkpointDigest s = .ok (opened, s') ↔
      s = opened.exactWire ++ s' ∧
      sealRegion key region opened.count headerDigest checkpointDigest opened.payload =
        .ok opened.exactWire := by
  have hbytes : ∀ (length : UInt32) (count : UInt16) (payload : List UInt8),
      (regionFields length count headerDigest checkpointDigest payload).flatten =
        wire length ++ (wire (1 : UInt16) ++ (wire count ++ (headerDigest.toList ++
          (digestBytes checkpointDigest ++ payload)))) := by
    intro length count payload
    simp only [regionFields, digestBytes, List.flatten_append, List.flatten_cons, List.flatten_nil,
      List.append_nil, List.append_assoc]
  obtain ⟨exactWire, payload, count⟩ := opened
  simp only [openRegion, bind_run_eq_ok, lift_run_eq_ok, take_run_eq_ok, require_run_eq_ok,
    pure_run_eq_ok, beq_iff_eq, decide_eq_true_eq, OpenRegion.mk.injEq]
  constructor
  · rintro ⟨⟨limit, overhead⟩, _, ⟨hbounds, rfl⟩, lengthBytes, _, ⟨rfl, hlengthBytes⟩, _, _,
      ⟨⟨hmin, hmax⟩, rfl⟩, body, _, ⟨rfl, hbody⟩, _, _, ⟨htag, rfl⟩, ⟨count', payload'⟩, _,
      ⟨hparts, rfl⟩, ⟨rfl, rfl, rfl⟩, rfl⟩
    -- what was read is put together again, up to the tag that was compared
    have htotal := length_regionFields (unwire lengthBytes) count' headerDigest payload' hbounds
    have hoverhead : 72 ≤ overhead := by
      unfold regionBounds at hbounds
      split at hbounds <;> cases hbounds <;> omega
    generalize hn : (unwire lengthBytes : UInt32).toNat = n at *
    have hlen : (lengthBytes ++ body).length = n := by
      rw [List.length_append]
      omega
    have hfields : (lengthBytes ++ body).take (n - 32) =
        (regionFields (unwire lengthBytes) count' headerDigest checkpointDigest payload').flatten := by
      have hfirst : slice (lengthBytes ++ body) 0 4 = lengthBytes := by
        rw [← take_eq_slice, List.take_left' hlengthBytes]
      have hsplit : slice (lengthBytes ++ body) 0 4 ++ slice (lengthBytes ++ body) 4 (n - 32) =
          slice (lengthBytes ++ body) 0 (n - 32) := slice_append_slice (by omega) (by omega)
      rw [hbytes, wire_unwire hlengthBytes, ← readRegion_eq_ok.1 hparts, take_eq_slice, ← hsplit,
        hfirst]
    have hpayload : n = payload'.length + overhead := by
      rw [← htotal, ← hfields, List.length_take, hlen]
      omega
    refine ⟨(List.append_assoc _ _ _).symm, sealRegion_eq_ok.2 ⟨limit, overhead, unwire lengthBytes,
      hbounds, hn.trans hpayload, hpayload ▸ hmax, ?_⟩⟩
    rw [← hfields, ← htag, List.take_append_drop]
  · rintro ⟨rfl, hseal⟩
    -- a sealed region passes each check of the reader
    obtain ⟨limit, overhead, length, hbounds, hlength, hfit, rfl⟩ := sealRegion_eq_ok.1 hseal
    have htotal := length_regionFields length count headerDigest payload hbounds
    generalize hfields : (regionFields length count headerDigest checkpointDigest payload).flatten =
      fields at *
    generalize htag : (regionTag key region fields).toList = tag at *
    have htagLength : tag.length = 32 := htag ▸ List.Vector.toList_length _
    rw [hbytes] at hfields
    generalize hinner : wire (1 : UInt16) ++ (wire count ++ (headerDigest.toList ++
      (digestBytes checkpointDigest ++ payload))) = inner at *
    subst hfields
    rw [List.length_append, length_wire_u32] at htotal
    have hstart : (wire length ++ inner).length = length.toNat - 32 := by
      rw [List.length_append, length_wire_u32]
      omega
    refine ⟨(limit, overhead), _, ⟨hbounds, rfl⟩, wire length, inner ++ tag ++ s',
      ⟨by simp only [List.append_assoc], length_wire_u32 _⟩, (), _, ⟨?_, rfl⟩, inner ++ tag, s',
      ⟨rfl, ?_⟩, (), _, ⟨?_, rfl⟩, (count, payload), _, ⟨?_, rfl⟩, ⟨?_, rfl, rfl⟩, rfl⟩
    · rw [unwire_wire]
      omega
    · rw [unwire_wire, List.length_append]
      omega
    · rw [unwire_wire, ← List.append_assoc, List.drop_left' hstart, List.take_left' hstart, htag]
    · refine readRegion_eq_ok.2 (Eq.trans ?_ hinner.symm)
      rw [unwire_wire, ← List.append_assoc, slice, List.append_assoc,
        List.drop_left' (length_wire_u32 _), List.take_left' (by rw [← hstart]; simp)]
    · rw [List.append_assoc]

end Regions

/-! ### Frames -/

theorem decodeTailRecord_of_encode {record : TailRecord} {kind : ControlJournalRecordKind}
    {body : List UInt8} {head : JournalHead} (h : encodeTailRecord record = .ok (kind, body))
    (hagrees : RecordAgrees head record) : decodeTailRecord kind body head = .ok record := by
  cases record with
  | clockCheckpointEvent event =>
    obtain ⟨bytes, hbytes, h⟩ := bind_eq_ok.1 h
    obtain ⟨rfl, rfl⟩ := Prod.mk.inj (Except.ok.inj h)
    have hdecode := decodeClockCheckpointBody_eq_ok.2 (orInvalid_eq_ok.1 hbytes)
    exact map_eq_ok.2 ⟨event, orInvalid_eq_ok.2 hdecode, rfl⟩
  | clockAcknowledge action =>
    obtain ⟨bytes, hbytes, h⟩ := bind_eq_ok.1 h
    obtain ⟨rfl, rfl⟩ := Prod.mk.inj (Except.ok.inj h)
    exact map_eq_ok.2 ⟨action, decode_encodeAddressedAction hbytes hagrees, rfl⟩
  | systemShutdown action =>
    obtain ⟨bytes, hbytes, h⟩ := bind_eq_ok.1 h
    obtain ⟨rfl, rfl⟩ := Prod.mk.inj (Except.ok.inj h)
    exact map_eq_ok.2 ⟨action, decode_encodeAddressedAction hbytes hagrees, rfl⟩

theorem encodeTailRecord_of_decode {record : TailRecord} {kind : ControlJournalRecordKind}
    {body : List UInt8} {head : JournalHead} (h : decodeTailRecord kind body head = .ok record) :
    encodeTailRecord record = .ok (kind, body) := by
  cases kind with
  | clockCheckpoint =>
    obtain ⟨event, hevent, rfl⟩ := map_eq_ok.1 h
    have hencode := decodeClockCheckpointBody_eq_ok.1 (orInvalid_eq_ok.1 hevent)
    exact bind_eq_ok.2 ⟨body, orInvalid_eq_ok.2 hencode, rfl⟩
  | clockAcknowledge =>
    obtain ⟨action, haction, rfl⟩ := map_eq_ok.1 h
    exact bind_eq_ok.2 ⟨body, encode_of_decodeAddressedAction haction, rfl⟩
  | systemShutdown =>
    obtain ⟨action, haction, rfl⟩ := map_eq_ok.1 h
    exact bind_eq_ok.2 ⟨body, encode_of_decodeAddressedAction haction, rfl⟩

section Frames

variable {key : JournalIntegrityKey}

theorem encodeTailFrame_eq_ok {prior : JournalHead} {frame : AuthenticatedTailFrame}
    {bytes : List UInt8} :
    encodeTailFrame key prior frame = .ok bytes ↔ frameFollows prior frame = true ∧
      ∃ kind body pre, FrameRecord prior frame kind body pre ∧ bytes = sealFrame key pre := by
  constructor
  · intro h
    obtain ⟨hfollows, h⟩ := reject_bind_eq_ok.1 h
    obtain ⟨⟨kind, body⟩, hencoded, h⟩ := bind_eq_ok.1 h
    obtain ⟨_, hwire, h⟩ := bind_eq_ok.1 h
    obtain ⟨pre, hpre, rfl⟩ := encodeControlJournalRecord_eq_ok.1 (orInvalid_eq_ok.1 hwire)
    obtain ⟨record, hrecord, h⟩ := bind_eq_ok.1 h
    obtain ⟨hdigest, h⟩ := reject_bind_eq_ok.1 h
    obtain rfl := Except.ok.inj h
    rw [Bool.not_eq_false'] at hfollows
    obtain ⟨-, hsequence⟩ := frameFollows_iff.1 hfollows
    have hsame : key.decodeControlJournalRecord (sealFrame key pre) prior =
        .ok ⟨kind, frame.resultingHead.sequence, recordDigest pre, body⟩ :=
      decodeControlJournalRecord_eq_ok.2 ⟨pre, hpre, rfl, hsequence, rfl⟩
    rw [orInvalid_eq_ok, hsame] at hrecord
    obtain rfl := Except.ok.inj hrecord
    exact ⟨hfollows, kind, body, pre, ⟨hencoded, hpre, bne_eq_false_iff_eq.1 hdigest⟩, rfl⟩
  · rintro ⟨hfollows, kind, body, pre, ⟨hencoded, hpre, hdigest⟩, rfl⟩
    obtain ⟨-, hsequence⟩ := frameFollows_iff.1 hfollows
    refine reject_bind_eq_ok.2 ⟨by rw [hfollows]; rfl, bind_eq_ok.2 ⟨(kind, body), hencoded, ?_⟩⟩
    refine bind_eq_ok.2 ⟨_, orInvalid_eq_ok.2
      (encodeControlJournalRecord_eq_ok.2 ⟨pre, hpre, rfl⟩), ?_⟩
    refine bind_eq_ok.2 ⟨⟨kind, frame.resultingHead.sequence, recordDigest pre, body⟩,
      orInvalid_eq_ok.2 (decodeControlJournalRecord_eq_ok.2 ⟨pre, hpre, rfl, hsequence, rfl⟩), ?_⟩
    exact reject_bind_eq_ok.2 ⟨bne_eq_false_iff_eq.2 hdigest, rfl⟩

/-- A sealed frame starts with its length. -/
theorem sealFrame_eq (key : JournalIntegrityKey) {kind : ControlJournalRecordKind}
    {body pre : List UInt8} {prior : JournalHead}
    (h : recordPrefix kind body prior = .ok pre) :
    ∃ (length : UInt32) (rest : List UInt8), sealFrame key pre = wire length ++ rest ∧
      length.toNat = body.length + 110 ∧ rest.length = body.length + 106 := by
  have hlen := length_recordPrefix h
  obtain ⟨length, sequence, -, hlength, -, hfields⟩ := recordPrefix_eq_ok.1 h
  have hsplit : sealFrame key pre = wire length ++ ((recordFields length kind sequence prior.digest
      body).tail.flatten ++ (recordDigest pre).toList ++
      (key.recordTag (pre ++ (recordDigest pre).toList)).toList) := by
    rw [sealFrame]
    generalize (key.recordTag (pre ++ (recordDigest pre).toList)).toList = tag
    generalize (recordDigest pre).toList = digest
    rw [hfields]
    simp only [recordFields, List.flatten_cons, List.tail_cons, List.append_assoc]
  have htotal : (sealFrame key pre).length = body.length + 110 := by
    simp [sealFrame, hlen]
    omega
  refine ⟨length, _, hsplit, by rw [hlength, minFrameBytes]; omega, ?_⟩
  rw [hsplit, List.length_append, length_wire_u32] at htotal
  omega

theorem length_sealFrame (key : JournalIntegrityKey) {kind : ControlJournalRecordKind}
    {body pre : List UInt8}
    {prior : JournalHead} (h : recordPrefix kind body prior = .ok pre) :
    (sealFrame key pre).length = body.length + 110 := by
  obtain ⟨length, rest, hseal, -, hrest⟩ := sealFrame_eq key h
  rw [hseal, List.length_append, length_wire_u32]
  omega

/-- An encoded frame is read back. -/
theorem parses_readTailFrame {prior : JournalHead} {frame : AuthenticatedTailFrame}
    {bytes : List UInt8} (h : encodeTailFrame key prior frame = .ok bytes)
    (hagrees : RecordAgrees frame.resultingHead frame.record) :
    Parses (readTailFrame key prior) bytes frame := by
  obtain ⟨hfollows, kind, body, pre, ⟨hencoded, hpre, hdigest⟩, rfl⟩ := encodeTailFrame_eq_ok.1 h
  obtain ⟨hprior, hsequence⟩ := frameFollows_iff.1 hfollows
  obtain ⟨length, rest, hseal, hlength, hrest⟩ := sealFrame_eq key hpre
  have hlimit := length_le_of_recordPrefix hpre
  have hdecode : key.decodeControlJournalRecord (wire length ++ rest) prior =
      .ok ⟨kind, frame.resultingHead.sequence, frame.resultingHead.digest, body⟩ :=
    decodeControlJournalRecord_eq_ok.2 ⟨pre, hpre, hseal, hsequence, hdigest.symm⟩
  have hrecord := decodeTailRecord_of_encode hencoded hagrees
  have hframe : frame = ⟨prior, frame.resultingHead, frame.record⟩ := by rw [← hprior]
  rw [hseal]
  conv => arg 3; rw [hframe]
  refine (parses_take (length_wire_u32 _)).bind ((parses_require ?_).bind_nil ((parses_take ?_).last
    ((parses_lift (orInvalid_eq_ok.2 hdecode)).bind_nil ((parses_lift hrecord).bind_nil
      (parses_pure _)))))
  · rw [unwire_wire, decide_eq_true_eq, hlength]
    omega
  · rw [unwire_wire, hlength]
    omega

/-- A frame that was read is encoded to the bytes it was read from. -/
theorem readTailFrame_run {prior : JournalHead} {frame : AuthenticatedTailFrame}
    {s s' : List UInt8} (h : readTailFrame key prior s = .ok (frame, s')) :
    ∃ bytes, encodeTailFrame key prior frame = .ok bytes ∧ s = bytes ++ s' := by
  simp only [readTailFrame, bind_run_eq_ok, lift_run_eq_ok, take_run_eq_ok, require_run_eq_ok,
    pure_run_eq_ok, orInvalid_eq_ok] at h
  obtain ⟨lengthBytes, _, ⟨rfl, -⟩, _, _, ⟨-, rfl⟩, body, _, ⟨rfl, -⟩, record, _, ⟨hrecord, rfl⟩,
    tailRecord, _, ⟨htail, rfl⟩, rfl, rfl⟩ := h
  obtain ⟨pre, hpre, hseal, hsequence, hdigest⟩ := decodeControlJournalRecord_eq_ok.1 hrecord
  refine ⟨lengthBytes ++ body, encodeTailFrame_eq_ok.2 ⟨frameFollows_iff.2 ⟨rfl, hsequence⟩,
    record.kind, record.body, pre, ⟨encodeTailRecord_of_decode htail, hpre, hdigest.symm⟩,
    hseal.symm⟩, ?_⟩
  rw [List.append_assoc]

/-- The frames of a tail are read back. -/
theorem parses_readTailFrames {frames : List AuthenticatedTailFrame} {prior : JournalHead}
    {wires : List (List UInt8)} (h : encodeTailFrames key prior frames = .ok wires)
    (hagrees : ∀ frame ∈ frames, RecordAgrees frame.resultingHead frame.record) :
    Parses (readTailFrames key frames.length prior) wires.flatten frames := by
  induction frames generalizing prior wires with
  | nil =>
    cases h
    exact parses_pure _
  | cons frame frames ih =>
    obtain ⟨bytes, hbytes, h⟩ := bind_eq_ok.1 h
    obtain ⟨rest, hrest, h⟩ := bind_eq_ok.1 h
    obtain rfl := Except.ok.inj h
    obtain ⟨hfirst, hothers⟩ := List.forall_mem_cons.1 hagrees
    exact (parses_readTailFrame hbytes hfirst).cons (ih hrest hothers).map

/-- Frames that were read are encoded to the bytes they were read from. -/
theorem readTailFrames_run {count : ℕ} {prior : JournalHead} {frames : List AuthenticatedTailFrame}
    {s s' : List UInt8} (h : readTailFrames key count prior s = .ok (frames, s')) :
    frames.length = count ∧ ∃ wires, encodeTailFrames key prior frames = .ok wires ∧
      s = wires.flatten ++ s' := by
  induction count generalizing prior frames s with
  | zero =>
    obtain ⟨rfl, rfl⟩ := pure_run_eq_ok.1 h
    exact ⟨rfl, [], rfl, rfl⟩
  | succ count ih =>
    simp only [readTailFrames, bind_run_eq_ok, pure_run_eq_ok] at h
    obtain ⟨frame, _, hframe, rest, _, hrest, rfl, rfl⟩ := h
    obtain ⟨bytes, hbytes, rfl⟩ := readTailFrame_run hframe
    obtain ⟨hcount, wires, hwires, rfl⟩ := ih hrest
    refine ⟨by rw [List.length_cons, hcount], bytes :: wires, ?_, ?_⟩
    · exact bind_eq_ok.2 ⟨bytes, hbytes, bind_eq_ok.2 ⟨wires, hwires, rfl⟩⟩
    · rw [List.flatten_cons, List.append_assoc]

/-- A tail that is replayed can be encoded, in the bytes that the replay counts. -/
theorem encodeTailFrames_of_replay (key : JournalIntegrityKey)
    {frames : List AuthenticatedTailFrame} {state next : ReplayState}
    (h : frames.foldlM replayFrame state = .ok next) :
    (∀ frame ∈ frames, RecordAgrees frame.resultingHead frame.record) ∧
      ∃ wires, encodeTailFrames key state.prior frames = .ok wires ∧
        next.bytes = state.bytes + wires.flatten.length ∧
        110 * frames.length ≤ wires.flatten.length ∧
        (state.bytes ≤ tailLimit → next.bytes ≤ tailLimit) := by
  induction frames generalizing state with
  | nil =>
    cases h
    exact ⟨fun _ hmem => absurd hmem List.not_mem_nil, [], rfl, rfl, Nat.le_refl _, id⟩
  | cons frame frames ih =>
    rw [List.foldlM_cons] at h
    obtain ⟨middle, hstep, h⟩ := bind_eq_ok.1 h
    obtain ⟨hothers, wires, hwires, hbytes, hmin, hmax⟩ := ih h
    obtain ⟨size, hframe, hfit, hprior, hsize⟩ := replayFrame_eq_ok.1 hstep
    obtain ⟨kind, body, pre, hrecord, rfl⟩ := hframe.record
    obtain ⟨replayed, hreplayed, -⟩ := hframe.replay
    have hlength := length_sealFrame key hrecord.framed
    refine ⟨List.forall_mem_cons.2 ⟨recordAgrees_of_replayRecord hreplayed, hothers⟩,
      sealFrame key pre :: wires, ?_, ?_, ?_, ?_⟩
    · refine bind_eq_ok.2 ⟨_, encodeTailFrame_eq_ok.2 ⟨hframe.follows, kind, body, pre, hrecord,
        rfl⟩, ?_⟩
      rw [hprior] at hwires
      exact bind_eq_ok.2 ⟨wires, hwires, rfl⟩
    · rw [List.flatten_cons, List.length_append, hbytes, hsize, hlength]
      omega
    · rw [List.flatten_cons, List.length_append, List.length_cons, hlength]
      omega
    · intro _
      exact hmax (by omega)

end Frames

/-! ### Images -/

/-- What `replayTail` does. -/
structure Replayed (image : CompleteControlJournalImage) (projection : CompleteCheckpoint) :
    Prop where
  bindings : validateImageBindings image = .ok ()
  valid : ValidCheckpoint image.checkpoint
  count : image.tail.length ≤ tailCountLimit
  tail : ∃ state, image.tail.foldlM replayFrame ⟨image.checkpoint, image.checkpoint.coveredHead, 104⟩
    = .ok state ∧ projection = state.checkpoint.setHead state.prior
  projected : ValidCheckpoint projection

theorem replayTail_eq_ok {image : CompleteControlJournalImage} {projection : CompleteCheckpoint} :
    replayTail image = .ok projection ↔ Replayed image projection := by
  constructor
  · intro h
    obtain ⟨⟨⟩, hbindings, h⟩ := bind_eq_ok.1 h
    obtain ⟨⟨⟩, hvalid, h⟩ := bind_eq_ok.1 h
    obtain ⟨hcount, h⟩ := reject_bind_eq_ok.1 h
    obtain ⟨state, hstate, h⟩ := bind_eq_ok.1 h
    obtain ⟨⟨⟩, hprojected, h⟩ := bind_eq_ok.1 h
    obtain rfl := Except.ok.inj h
    rw [decide_eq_false_iff_not, not_lt] at hcount
    exact ⟨hbindings, validateCheckpoint_eq_ok.1 hvalid, hcount, ⟨state, hstate, rfl⟩,
      validateCheckpoint_eq_ok.1 hprojected⟩
  · rintro ⟨hbindings, hvalid, hcount, ⟨state, hstate, rfl⟩, hprojected⟩
    refine bind_eq_ok.2 ⟨(), hbindings, bind_eq_ok.2 ⟨(), validateCheckpoint_eq_ok.2 hvalid, ?_⟩⟩
    refine reject_bind_eq_ok.2 ⟨by rw [decide_eq_false_iff_not, not_lt]; exact hcount, ?_⟩
    exact bind_eq_ok.2 ⟨state, hstate, bind_eq_ok.2 ⟨(), validateCheckpoint_eq_ok.2 hprojected,
      rfl⟩⟩

section Image

variable {key : JournalIntegrityKey}

theorem length_encodeCheckpoint {ownerNamespace : ByteVec 24} {checkpoint : CompleteCheckpoint}
    {bytes : List UInt8} (h : encodeCheckpoint key ownerNamespace checkpoint = .ok bytes) :
    bytes.length ≤ checkpointLimit - 72 := by
  obtain ⟨_, _, h⟩ := bind_eq_ok.1 h
  obtain ⟨_, _, h⟩ := bind_eq_ok.1 h
  obtain ⟨_, _, h⟩ := bind_eq_ok.1 h
  obtain ⟨_, _, h⟩ := bind_eq_ok.1 h
  obtain ⟨_, _, h⟩ := bind_eq_ok.1 h
  obtain ⟨_, _, h⟩ := bind_eq_ok.1 h
  obtain ⟨_, _, h⟩ := bind_eq_ok.1 h
  obtain ⟨-, h⟩ := reject_bind_eq_ok.1 h
  obtain ⟨rfl, hle⟩ := written_eq_ok.1 h
  exact hle

theorem exists_sealRegion (key : JournalIntegrityKey) (region : ImageRegion) (count : UInt16)
    (headerDigest : ByteVec 32) (checkpointDigest : Option (ByteVec 32)) {payload : List UInt8}
    {limit overhead : ℕ}
    (hbounds : regionBounds region checkpointDigest = .ok (limit, overhead))
    (hfit : payload.length + overhead ≤ limit) :
    ∃ bytes, sealRegion key region count headerDigest checkpointDigest payload = .ok bytes ∧
      bytes.length ≤ limit := by
  have hlimit : limit < 2 ^ 32 := by
    unfold regionBounds at hbounds
    split at hbounds <;> cases hbounds <;> simp [checkpointLimit, tailLimit]
  refine ⟨_, sealRegion_eq_ok.2 ⟨limit, overhead, UInt32.ofNat (payload.length + overhead), hbounds,
    UInt32.toNat_ofNat_of_lt' (by show payload.length + overhead < 2 ^ 32; omega), hfit, rfl⟩, ?_⟩
  have htotal := length_regionFields (UInt32.ofNat (payload.length + overhead)) count headerDigest
    payload hbounds
  rw [List.length_append, List.Vector.toList_length, htotal]
  exact hfit

/-- **An image can be encoded exactly when it carries the namespace of the key, its checkpoint can
be encoded and its tail can be replayed.**  No cap of the wire form adds to this. -/
theorem exists_encodeImage {image : CompleteControlJournalImage} :
    (∃ bytes, encodeControlJournalImage key image = .ok bytes) ↔
      image.header.ownerNamespace = key.deriveResourceIncarnationNamespaceV1 ∧
      (∃ bytes, encodeCheckpoint key image.header.ownerNamespace image.checkpoint = .ok bytes) ∧
      ∃ projection, replayTail image = .ok projection := by
  constructor
  · rintro ⟨bytes, h⟩
    obtain ⟨header, hheader, h⟩ := bind_eq_ok.1 h
    obtain ⟨payload, hpayload, h⟩ := bind_eq_ok.1 h
    obtain ⟨projection, hprojection, -⟩ := bind_eq_ok.1 h
    exact ⟨exists_encodeImageHeader.1 ⟨header, hheader⟩, ⟨payload, hpayload⟩,
      ⟨projection, hprojection⟩⟩
  · rintro ⟨hnamespace, ⟨payload, hpayload⟩, ⟨projection, hprojection⟩⟩
    obtain ⟨header, hheader⟩ := exists_encodeImageHeader.2 hnamespace
    have hheaderLength := length_encodeImageHeader hheader
    have hpayloadLength := length_encodeCheckpoint hpayload
    -- the members are below their own caps, which leaves room in the region
    obtain ⟨checkpoint, hcheckpoint, hcheckpointLength⟩ :=
      exists_sealRegion key .checkpoint checkpointMembers (regionDigest header) none rfl
        (show payload.length + 72 ≤ checkpointLimit by
          rw [checkpointLimit] at hpayloadLength ⊢
          omega)
    obtain ⟨-, -, hcount, ⟨state, hstate, -⟩, -⟩ := replayTail_eq_ok.1 hprojection
    obtain ⟨-, wires, hwires, hbytes, -, hmax⟩ := encodeTailFrames_of_replay key hstate
    -- the replay counts the bytes of the frames, so the tail region has room for them
    have hwiresLength : 104 + wires.flatten.length ≤ tailLimit := by
      have hnext := hmax (by show 104 ≤ tailLimit; rw [tailLimit]; omega)
      rw [hbytes] at hnext
      exact hnext
    have htailCount : (UInt16.ofNat image.tail.length).toNat = image.tail.length := by
      rw [tailCountLimit] at hcount
      exact UInt16.toNat_ofNat_of_lt' (by show image.tail.length < 2 ^ 16; omega)
    obtain ⟨tail, htail, htailLength⟩ :=
      exists_sealRegion key .tail (UInt16.ofNat image.tail.length) (regionDigest header)
        (some (regionDigest checkpoint)) rfl
        (show wires.flatten.length + 104 ≤ tailLimit by omega)
    refine ⟨[header, checkpoint, tail].flatten, ?_⟩
    refine bind_eq_ok.2 ⟨header, hheader, bind_eq_ok.2 ⟨payload, hpayload,
      bind_eq_ok.2 ⟨projection, hprojection, bind_eq_ok.2 ⟨checkpoint, hcheckpoint,
      bind_eq_ok.2 ⟨wires, hwires, bind_eq_ok.2 ⟨_, written_eq_ok.2 ⟨rfl, by omega⟩,
      orError_bind_eq_ok.2 ⟨_, ofNat?_eq_some.2 htailCount, bind_eq_ok.2 ⟨tail, htail,
      written_eq_ok.2 ⟨rfl, ?_⟩⟩⟩⟩⟩⟩⟩⟩⟩
    simp only [List.flatten_cons, List.flatten_nil, List.length_append, List.length_nil, imageLimit]
    rw [checkpointLimit] at hcheckpointLength
    rw [tailLimit] at htailLength
    omega

/-- An encoded image is read back. -/
theorem decode_encodeImage {image : CompleteControlJournalImage} {bytes : List UInt8}
    (h : encodeControlJournalImage key image = .ok bytes) :
    decodeControlJournalImage key bytes = .ok image ∧ bytes.length ≤ imageLimit := by
  obtain ⟨header, hheader, h⟩ := bind_eq_ok.1 h
  obtain ⟨payload, hpayload, h⟩ := bind_eq_ok.1 h
  obtain ⟨projection, hprojection, h⟩ := bind_eq_ok.1 h
  obtain ⟨checkpoint, hcheckpoint, h⟩ := bind_eq_ok.1 h
  obtain ⟨wires, hwires, h⟩ := bind_eq_ok.1 h
  obtain ⟨frames, hframes, h⟩ := bind_eq_ok.1 h
  obtain ⟨count, hcount, h⟩ := orError_bind_eq_ok.1 h
  obtain ⟨tail, htail, hwire⟩ := bind_eq_ok.1 h
  obtain ⟨rfl, -⟩ := written_eq_ok.1 hframes
  obtain ⟨rfl, hlimit⟩ := written_eq_ok.1 hwire
  obtain ⟨-, -, hmax, ⟨state, hstate, -⟩, -⟩ := replayTail_eq_ok.1 hprojection
  obtain ⟨hagrees, wires', hwires', -, hmin, -⟩ := encodeTailFrames_of_replay key hstate
  obtain rfl : wires' = wires := by
    rw [hwires] at hwires'
    exact (Except.ok.inj hwires').symm
  have hcountNat : count.toNat = image.tail.length := ofNat?_eq_some.1 hcount
  -- the regions are read one after the other, each with the digest of the ones before
  have hregions : readAll (readRegions key) [header, checkpoint, tail].flatten =
      .ok (image.header, image.checkpoint, ⟨tail, wires'.flatten, count⟩) := by
    simp only [readAll_eq_ok, readRegions, bind_run_eq_ok, lift_run_eq_ok, take_run_eq_ok,
      require_run_eq_ok, pure_run_eq_ok, orInvalid_eq_ok, openRegion_run_eq_ok]
    refine ⟨header, _, ⟨rfl, length_encodeImageHeader hheader⟩, image.header, _,
      ⟨decodeControlJournalHeader_eq_ok.2 (encodeImageHeader_eq_ok.1 hheader), rfl⟩,
      ⟨checkpoint, payload, checkpointMembers⟩, _, ⟨rfl, hcheckpoint⟩, (), _,
      ⟨beq_self_eq_true _, rfl⟩, image.checkpoint, _, ⟨decode_encodeCheckpoint hpayload, rfl⟩,
      ⟨tail, wires'.flatten, count⟩, [], ⟨?_, htail⟩, rfl, rfl⟩
    rw [List.flatten_singleton, List.append_nil]
  have htailRead : readAll (readTailFrames key count.toNat image.checkpoint.coveredHead)
      wires'.flatten = .ok image.tail := by
    rw [hcountNat]
    exact (parses_readTailFrames hwires hagrees).readAll
  refine ⟨?_, hlimit⟩
  refine reject_bind_eq_ok.2 ⟨by rw [decide_eq_false_iff_not, not_lt]; exact hlimit, ?_⟩
  refine bind_eq_ok.2 ⟨_, hregions, reject_bind_eq_ok.2 ⟨?_, ?_⟩⟩
  · rw [Bool.or_eq_false_iff, decide_eq_false_iff_not, decide_eq_false_iff_not]
    constructor
    · show ¬ tailCountLimit < count.toNat
      omega
    · show ¬ wires'.flatten.length / 110 < count.toNat
      omega
  · refine bind_eq_ok.2 ⟨image.tail, htailRead, ?_⟩
    exact bind_eq_ok.2 ⟨projection, orInvalid_eq_ok.2 hprojection, rfl⟩

/-- A decoded image encodes to the bytes it was read from. -/
theorem encode_of_decodeImage {image : CompleteControlJournalImage} {bytes : List UInt8}
    (h : decodeControlJournalImage key bytes = .ok image) :
    encodeControlJournalImage key image = .ok bytes := by
  obtain ⟨hlimit, h⟩ := reject_bind_eq_ok.1 h
  obtain ⟨⟨header, checkpoint, region⟩, hregions, h⟩ := bind_eq_ok.1 h
  obtain ⟨hcount, h⟩ := reject_bind_eq_ok.1 h
  obtain ⟨tail, htail, h⟩ := bind_eq_ok.1 h
  obtain ⟨projection, hprojection, h⟩ := bind_eq_ok.1 h
  obtain rfl := Except.ok.inj h
  rw [decide_eq_false_iff_not, not_lt] at hlimit
  simp only [readAll_eq_ok, readRegions, bind_run_eq_ok, lift_run_eq_ok, take_run_eq_ok,
    require_run_eq_ok, pure_run_eq_ok, orInvalid_eq_ok, openRegion_run_eq_ok] at hregions
  obtain ⟨headerWire, _, ⟨rfl, -⟩, _, _, ⟨hheader, rfl⟩, checkpointRegion, _, ⟨rfl, hcheckpoint⟩, _,
    _, ⟨hmembers, rfl⟩, _, _, ⟨hpayload, rfl⟩, tailRegion, _, ⟨rfl, hseal⟩, heq, rfl⟩ := hregions
  obtain ⟨rfl, rfl, rfl⟩ : _ ∧ _ ∧ _ := by simpa using heq
  obtain ⟨hlength, wires, hwires, hpayloadTail⟩ := readTailFrames_run (readAll_eq_ok.1 htail)
  rw [List.append_nil] at hpayloadTail
  rw [beq_iff_eq.1 hmembers] at hcheckpoint
  refine bind_eq_ok.2 ⟨headerWire, encodeImageHeader_eq_ok.2
    (decodeControlJournalHeader_eq_ok.1 hheader), ?_⟩
  refine bind_eq_ok.2 ⟨_, encode_of_decodeCheckpoint hpayload, ?_⟩
  refine bind_eq_ok.2 ⟨projection, orInvalid_eq_ok.1 hprojection, ?_⟩
  refine bind_eq_ok.2 ⟨checkpointRegion.exactWire, hcheckpoint, bind_eq_ok.2 ⟨wires, hwires, ?_⟩⟩
  have hfit : wires.flatten.length ≤ tailLimit - 104 := by
    obtain ⟨limit, overhead, _, hbounds, -, hfit, -⟩ := sealRegion_eq_ok.1 hseal
    obtain ⟨rfl, rfl⟩ := Prod.mk.inj (Except.ok.inj hbounds)
    rw [← hpayloadTail]
    omega
  refine bind_eq_ok.2 ⟨_, written_eq_ok.2 ⟨rfl, hfit⟩, ?_⟩
  refine orError_bind_eq_ok.2 ⟨tailRegion.count, ofNat?_eq_some.2 hlength.symm, ?_⟩
  rw [← hpayloadTail]
  refine bind_eq_ok.2 ⟨tailRegion.exactWire, hseal, written_eq_ok.2 ⟨?_, ?_⟩⟩
  · simp
  · simpa using hlimit

/-- **Encoding and decoding of images are inverse to each other**, for every key: every image that
has a wire form is read back from it, within eight mebibytes, and every wire that is accepted is the
wire form of the image that is read. -/
theorem imageCodec_inverse (key : JournalIntegrityKey) (image : CompleteControlJournalImage)
    (bytes : List UInt8) :
    (encodeControlJournalImage key image = .ok bytes ↔
      decodeControlJournalImage key bytes = .ok image) ∧
    (encodeControlJournalImage key image = .ok bytes → bytes.length ≤ 8 * 1024 * 1024) :=
  ⟨⟨fun h => (decode_encodeImage h).1, encode_of_decodeImage⟩, fun h => (decode_encodeImage h).2⟩

end Image

end MsgRiver.Journal
