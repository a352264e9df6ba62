import MsgRiver.Lib.Ascii
import MsgRiver.Lib.Bytes
import MsgRiver.Lib.Result
import MsgRiver.Lib.Sha256

/-!
# The journal key, its header and its record frames

A control journal is authenticated under one 32-byte key.  The key determines the owner namespace
that every header carries; header and record frames end in an HMAC-SHA-256 tag over a domain label
and the bytes before it, and a record frame also names the digest of the record before it.

Both codecs are canonical: `decodeControlJournalHeader_eq_ok` and `decodeControlJournalRecord_eq_ok`
say that a decoder accepts exactly the frames of the value it answers.
-/

namespace MsgRiver.Journal

open Bytes Result Sha256 Ascii

/-- The key that authenticates the control journal. -/
structure JournalIntegrityKey where
  bytes : ByteVec 32
  deriving DecidableEq

namespace JournalIntegrityKey

/-- HMAC-SHA-256 under the key, over a domain label and a message.  The constructor of the keyed
hash accepts keys of every length, so there is no error to report. -/
def tag (key : JournalIntegrityKey) (label message : List UInt8) : ByteVec 32 :=
  hmacSha256 key.bytes.toList (label ++ message)

/-- The label of the namespace. -/
def resourceIncarnationNamespaceLabel : List UInt8 :=
  utf8Bytes "msgriver/resource-incarnation-namespace/v1"

/-- The namespace of the journals under the key, the first 24 bytes of a tag. -/
def deriveResourceIncarnationNamespaceV1 (key : JournalIntegrityKey) : ByteVec 24 :=
  ⟨(key.tag resourceIncarnationNamespaceLabel []).toList.take 24, by
    rw [List.length_take, List.Vector.toList_length]
    rfl⟩

end JournalIntegrityKey

/-! ### The header -/

/-- The header of a journal: its namespace, and the largest serial of a branch. -/
structure ControlJournalHeader where
  ownerNamespace : ByteVec 24
  branchSerialHighWater : UInt64
  deriving DecidableEq

/-- The error of the header's codec. -/
inductive ControlJournalHeaderError
  | invalidHeader
  deriving DecidableEq, Repr

/-- The first bytes of a header. -/
def magic : List UInt8 := utf8Bytes "MSGRIVER-CJH" ++ [0, 0, 0, 0]

/-- The version of the format. -/
def formatVersion : UInt16 := 1

/-- The version of the key's format. -/
def keyFormatVersion : UInt16 := 1

/-- The limits of the layout, as every header repeats them. -/
def layout : List UInt32 :=
  [8 * 1024 * 1024, 16 * 1024, 6 * 1024 * 1024 - 16 * 1024, 4 * 1024 * 1024 - 16 * 1024,
    2 * 1024 * 1024, 4096, 2 * 1024 * 1024, 128, 16 * 1024]

/-- The label of header tags. -/
def headerAuthLabel : List UInt8 := utf8Bytes "msgriver/control-journal-header/v1"

/-- The fields of a header before its tag. -/
def headerFields (header : ControlJournalHeader) : List (List UInt8) :=
  [magic, wire formatVersion, wire keyFormatVersion] ++ layout.map wire
  ++ [header.ownerNamespace.toList, wire header.branchSerialHighWater]

namespace JournalIntegrityKey

/-- The header of a journal without a branch. -/
def freshControlJournalHeader (key : JournalIntegrityKey) : ControlJournalHeader :=
  ⟨key.deriveResourceIncarnationNamespaceV1, 0⟩

/-- The header of a journal with branches. -/
def controlJournalHeaderWithBranchHighWater (key : JournalIntegrityKey)
    (branchSerialHighWater : UInt64) : ControlJournalHeader :=
  { key.freshControlJournalHeader with branchSerialHighWater }

/-- The tag behind the 88 bytes of a header. -/
def headerTag (key : JournalIntegrityKey) (bytes : List UInt8) : ByteVec 32 :=
  key.tag headerAuthLabel bytes

/-- A header of another namespace has no encoding. -/
def encodeControlJournalHeader (key : JournalIntegrityKey) (header : ControlJournalHeader) :
    Except ControlJournalHeaderError (List UInt8) := do
  reject (header.ownerNamespace != key.freshControlJournalHeader.ownerNamespace) .invalidHeader
  let bytes := (headerFields header).flatten
  return bytes ++ (key.headerTag bytes).toList

/-- The tag is checked before anything is read. -/
def decodeControlJournalHeader (key : JournalIntegrityKey) (wire : List UInt8) :
    Except ControlJournalHeaderError ControlJournalHeader := do
  reject (wire.length != 120) .invalidHeader
  let bytes := wire.take 88
  reject (wire.drop 88 != (key.headerTag bytes).toList) .invalidHeader
  reject (slice bytes 0 16 != magic || (unwire (slice bytes 16 18) : UInt16) != formatVersion
    || (unwire (slice bytes 18 20) : UInt16) != keyFormatVersion) .invalidHeader
  reject (layout.zipIdx.any fun p =>
    (unwire (slice bytes (20 + 4 * p.2) (24 + 4 * p.2)) : UInt32) != p.1) .invalidHeader
  let ownerNamespace ← orError .invalidHeader (toVec? 24 (slice bytes 56 80))
  reject (ownerNamespace != key.freshControlJournalHeader.ownerNamespace) .invalidHeader
  return ⟨ownerNamespace, unwire (slice bytes 80 88)⟩

end JournalIntegrityKey

@[simp] theorem length_magic : magic.length = 16 := by decide +kernel

theorem length_headerFields (header : ControlJournalHeader) :
    (headerFields header).flatten.length = 88 := by
  simp [headerFields, layout]

theorem unwire_slice {α : Type} [FixedWidth α] {bs : List UInt8} {a b : ℕ} {x : α}
    (hb : b ≤ bs.length) (hw : b - a = FixedWidth.width α) :
    unwire (slice bs a b) = x ↔ slice bs a b = wire x := by
  constructor
  · rintro rfl
    rw [wire_unwire]
    rw [length_slice hb, hw]
  · intro h
    rw [h, unwire_wire]

/-- The constants that every header repeats. -/
def HeaderConstants (bytes : List UInt8) : Prop :=
  (slice bytes 0 16 != magic || (unwire (slice bytes 16 18) : UInt16) != formatVersion
    || (unwire (slice bytes 18 20) : UInt16) != keyFormatVersion) = false ∧
  (layout.zipIdx.any fun p =>
    (unwire (slice bytes (20 + 4 * p.2) (24 + 4 * p.2)) : UInt32) != p.1) = false

theorem headerConstants_iff {bytes : List UInt8} (hlen : bytes.length = 88) :
    HeaderConstants bytes ↔ slice bytes 0 16 = magic ∧ slice bytes 16 18 = wire formatVersion ∧
      slice bytes 18 20 = wire keyFormatVersion ∧
      [slice bytes 20 24, slice bytes 24 28, slice bytes 28 32, slice bytes 32 36,
        slice bytes 36 40, slice bytes 40 44, slice bytes 44 48, slice bytes 48 52,
        slice bytes 52 56] = layout.map wire := by
  have hword : ∀ (a : ℕ) (x : UInt16), a + 2 ≤ 88 →
      (unwire (slice bytes a (a + 2)) = x ↔ slice bytes a (a + 2) = wire x) :=
    fun a x ha => unwire_slice (by omega) (Nat.add_sub_cancel_left a 2)
  have hlong : ∀ (a : ℕ) (x : UInt32), a + 4 ≤ 88 →
      (unwire (slice bytes a (a + 4)) = x ↔ slice bytes a (a + 4) = wire x) :=
    fun a x ha => unwire_slice (by omega) (Nat.add_sub_cancel_left a 4)
  unfold HeaderConstants
  simp only [Bool.or_eq_false_iff, bne_eq_false_iff_eq, layout, List.zipIdx_cons, List.zipIdx_nil,
    List.any_cons, List.any_nil, List.map_cons, List.map_nil, List.cons.injEq, and_true, and_assoc,
    hword 16 _ (by omega), hword 18 _ (by omega), hlong 20 _ (by omega), hlong 24 _ (by omega),
    hlong 28 _ (by omega), hlong 32 _ (by omega), hlong 36 _ (by omega), hlong 40 _ (by omega),
    hlong 44 _ (by omega), hlong 48 _ (by omega), hlong 52 _ (by omega)]

/-- Eighty-eight bytes with the constants of a header are its fields. -/
theorem headerFields_eq (header : ControlJournalHeader) {bytes : List UInt8}
    (hlen : bytes.length = 88) :
    (headerFields header).flatten = bytes ↔ HeaderConstants bytes ∧
      header.ownerNamespace.toList = slice bytes 56 80 ∧
      wire header.branchSerialHighWater = slice bytes 80 88 := by
  rw [headerConstants_iff hlen]
  constructor
  · rintro rfl
    have hfield : ∀ {i a b : ℕ} {field : List UInt8}, (headerFields header)[i]? = some field →
        a = ((headerFields header).take i).flatten.length → b = a + field.length →
        slice (headerFields header).flatten a b = field := slice_flatten
    refine ⟨⟨?_, ?_, ?_, ?_⟩, ?_, ?_⟩
    · exact hfield (i := 0) rfl rfl (by simp)
    · exact hfield (i := 1) rfl (by simp [headerFields]) rfl
    · exact hfield (i := 2) rfl (by simp [headerFields]) rfl
    · simp only [layout, List.map_cons, List.map_nil, List.cons.injEq, and_true]
      have hlimit : ∀ {i a : ℕ} {x : UInt32}, (headerFields header)[i]? = some (wire x) →
          a = ((headerFields header).take i).flatten.length →
          slice (headerFields header).flatten a (a + 4) = wire x :=
        fun hi ha => hfield hi ha rfl
      exact ⟨hlimit (i := 3) rfl (by simp [headerFields]),
        hlimit (i := 4) rfl (by simp [headerFields, layout]),
        hlimit (i := 5) rfl (by simp [headerFields, layout]),
        hlimit (i := 6) rfl (by simp [headerFields, layout]),
        hlimit (i := 7) rfl (by simp [headerFields, layout]),
        hlimit (i := 8) rfl (by simp [headerFields, layout]),
        hlimit (i := 9) rfl (by simp [headerFields, layout]),
        hlimit (i := 10) rfl (by simp [headerFields, layout]),
        hlimit (i := 11) rfl (by simp [headerFields, layout])⟩
    · exact (hfield (i := 12) rfl (by simp [headerFields, layout]) (by simp)).symm
    · exact (hfield (i := 13) rfl (by simp [headerFields, layout]) rfl).symm
  · rintro ⟨⟨hmagic, hformat, hkey, hlayout⟩, howner, hwater⟩
    have hwhole := flatten_cutAt bytes 0
      [16, 18, 20, 24, 28, 32, 36, 40, 44, 48, 52, 56, 80] (by decide)
    have hlast : bytes.drop 80 = slice bytes 80 88 := by rw [drop_eq_slice, hlen]
    rw [headerFields, ← hmagic, ← hformat, ← hkey, ← hlayout, howner, hwater]
    simpa [cutAt, hlast] using hwhole

/-- **The header decoder accepts exactly the encodings.** -/
theorem decodeControlJournalHeader_eq_ok {key : JournalIntegrityKey} {bytes : List UInt8}
    {header : ControlJournalHeader} :
    key.decodeControlJournalHeader bytes = .ok header ↔
      key.encodeControlJournalHeader header = .ok bytes := by
  unfold JournalIntegrityKey.decodeControlJournalHeader
    JournalIntegrityKey.encodeControlJournalHeader
  simp only [reject_bind_eq_ok, orError_bind_eq_ok, bne_eq_false_iff_eq, pure_eq_ok]
  constructor
  · rintro ⟨hlen, htag, hversion, hlayout, owner, howner, hfresh, rfl⟩
    have hbytes : (bytes.take 88).length = 88 := by rw [List.length_take, hlen]; rfl
    have hfields := (headerFields_eq ⟨owner, unwire (slice (bytes.take 88) 80 88)⟩
      hbytes).2 ⟨⟨hversion, hlayout⟩, toVec?_eq_some.1 howner,
        wire_unwire (length_slice (by omega))⟩
    refine ⟨hfresh, ?_⟩
    rw [hfields, ← htag, List.take_append_drop]
  · rintro ⟨hfresh, rfl⟩
    have hlen := length_headerFields header
    obtain ⟨⟨hversion, hlayout⟩, howner, hwater⟩ := (headerFields_eq header hlen).1 rfl
    rw [List.take_left' hlen, List.drop_left' hlen]
    refine ⟨?_, rfl, hversion, hlayout, header.ownerNamespace, toVec?_eq_some.2 howner, hfresh, ?_⟩
    · rw [List.length_append, hlen, List.Vector.toList_length]
    · rw [← hwater, unwire_wire]

/-! ### Record frames -/

/-- A position in the chain of records: the last sequence number and the digest of its record. -/
structure JournalHead where
  sequence : UInt64
  digest : ByteVec 32
  deriving DecidableEq

/-- The kinds of the records. -/
inductive ControlJournalRecordKind
  | clockCheckpoint
  | clockAcknowledge
  | systemShutdown
  deriving DecidableEq, Repr

/-- A record that was read. -/
structure ControlJournalRecord where
  kind : ControlJournalRecordKind
  sequence : UInt64
  recordDigest : ByteVec 32
  body : List UInt8
  deriving DecidableEq

/-- Why a record is not written or not read. -/
inductive ControlJournalRecordError
  | invalidRecord
  | sequenceExhausted
  deriving DecidableEq, Repr

/-- The number of a kind. -/
def ControlJournalRecordKind.code : ControlJournalRecordKind → UInt16
  | .clockCheckpoint => 1
  | .clockAcknowledge => 2
  | .systemShutdown => 3

/-- The kind of a number. -/
def ControlJournalRecordKind.fromCode (code : UInt16) :
    Except ControlJournalRecordError ControlJournalRecordKind :=
  if code = 1 then .ok .clockCheckpoint
  else if code = 2 then .ok .clockAcknowledge
  else if code = 3 then .ok .systemShutdown
  else .error .invalidRecord

/-- The bytes of a frame without a body. -/
def minFrameBytes : ℕ := 110

/-- The most bytes of a frame. -/
def maxFrameBytes : ℕ := 16 * 1024

/-- The most bytes of a body. -/
def maxBodyBytes : ℕ := maxFrameBytes - minFrameBytes

/-- The label of record digests. -/
def recordLabel : List UInt8 := utf8Bytes "msgriver/control-journal-record/v1"

/-- The label of record tags. -/
def recordAuthLabel : List UInt8 := utf8Bytes "msgriver/control-journal-record-auth/v1"

/-- The fields of a frame before its digest and its tag. -/
def recordFields (length : UInt32) (kind : ControlJournalRecordKind) (sequence : UInt64)
    (priorDigest : ByteVec 32) (body : List UInt8) : List (List UInt8) :=
  [wire length, wire kind.code, wire sequence, priorDigest.toList, body]

/-- A frame up to its digest; its sequence is the one after the prior head. -/
def recordPrefix (kind : ControlJournalRecordKind) (body : List UInt8) (prior : JournalHead) :
    Except ControlJournalRecordError (List UInt8) := do
  reject (decide (maxBodyBytes < body.length)) .invalidRecord
  let sequence ← orError .sequenceExhausted (checkedSucc prior.sequence)
  let length ← orError .invalidRecord (ofNat? (minFrameBytes + body.length))
  return (recordFields length kind sequence prior.digest body).flatten

/-- The digest of a frame, which leaves its length out. -/
def recordDigest (frame : List UInt8) : ByteVec 32 := sha256 (recordLabel ++ frame.drop 4)

/-- The head of a clock checkpoint record, without the frame. -/
def controlJournalClockCheckpointHead (body : List UInt8) (prior : JournalHead) :
    Except ControlJournalRecordError JournalHead := do
  let frame ← recordPrefix .clockCheckpoint body prior
  let sequence ← orError .sequenceExhausted (checkedSucc prior.sequence)
  return ⟨sequence, recordDigest frame⟩

namespace JournalIntegrityKey

/-- The tag behind a frame. -/
def recordTag (key : JournalIntegrityKey) (frame : List UInt8) : ByteVec 32 :=
  key.tag recordAuthLabel frame

/-- The frame, its digest and its tag. -/
def encodeControlJournalRecord (key : JournalIntegrityKey) (kind : ControlJournalRecordKind)
    (body : List UInt8) (prior : JournalHead) : Except ControlJournalRecordError (List UInt8) := do
  let frame ← recordPrefix kind body prior
  let frame := frame ++ (recordDigest frame).toList
  return frame ++ (key.recordTag frame).toList

/-- Reads the frame that follows the prior head. -/
def decodeControlJournalRecord (key : JournalIntegrityKey) (frame : List UInt8)
    (prior : JournalHead) : Except ControlJournalRecordError ControlJournalRecord := do
  reject (decide (frame.length < 4)) .invalidRecord
  let length := (unwire (slice frame 0 4) : UInt32).toNat
  reject (!(decide (minFrameBytes ≤ length ∧ length ≤ maxFrameBytes)) || frame.length != length)
    .invalidRecord
  let tagStart := length - 32
  reject (frame.drop tagStart != (key.recordTag (frame.take tagStart)).toList) .invalidRecord
  let digestStart := length - 64
  let expectedDigest := recordDigest (frame.take digestStart)
  reject (slice frame digestStart tagStart != expectedDigest.toList) .invalidRecord
  let kind ← ControlJournalRecordKind.fromCode (unwire (slice frame 4 6))
  let sequence : UInt64 := unwire (slice frame 6 14)
  let expectedSequence ← orError .sequenceExhausted (checkedSucc prior.sequence)
  reject (sequence != expectedSequence || slice frame 14 46 != prior.digest.toList) .invalidRecord
  return ⟨kind, sequence, expectedDigest, slice frame 46 digestStart⟩

end JournalIntegrityKey

theorem ControlJournalRecordKind.fromCode_eq_ok {code : UInt16} {kind : ControlJournalRecordKind} :
    ControlJournalRecordKind.fromCode code = .ok kind ↔ code = kind.code := by
  unfold ControlJournalRecordKind.fromCode
  split_ifs with h1 h2 h3
  · subst h1; cases kind <;> decide
  · subst h2; cases kind <;> decide
  · subst h3; cases kind <;> decide
  · cases kind <;> simp [ControlJournalRecordKind.code, h1, h2, h3]

/-- What a frame before its digest consists of. -/
theorem recordPrefix_eq_ok {kind : ControlJournalRecordKind} {body frame : List UInt8}
    {prior : JournalHead} :
    recordPrefix kind body prior = .ok frame ↔
      ∃ (length : UInt32) (sequence : UInt64), body.length ≤ maxBodyBytes ∧
        length.toNat = minFrameBytes + body.length ∧ checkedSucc prior.sequence = some sequence ∧
        frame = (recordFields length kind sequence prior.digest body).flatten := by
  simp only [recordPrefix, reject_bind_eq_ok, orError_bind_eq_ok, pure_eq_ok, ofNat?_eq_some,
    decide_eq_false_iff_not, not_lt]
  constructor
  · rintro ⟨hbody, sequence, hsequence, length, hlength, rfl⟩
    exact ⟨length, sequence, hbody, hlength, hsequence, rfl⟩
  · rintro ⟨length, sequence, hbody, hlength, hsequence, rfl⟩
    exact ⟨hbody, sequence, hsequence, length, hlength, rfl⟩

theorem length_recordPrefix {kind : ControlJournalRecordKind} {body frame : List UInt8}
    {prior : JournalHead} (h : recordPrefix kind body prior = .ok frame) :
    frame.length = 46 + body.length := by
  obtain ⟨length, sequence, -, -, -, rfl⟩ := recordPrefix_eq_ok.1 h
  simp [recordFields]
  omega

/-- The frame is complete: digest and tag. -/
def sealFrame (key : JournalIntegrityKey) (frame : List UInt8) : List UInt8 :=
  frame ++ (recordDigest frame).toList
    ++ (key.recordTag (frame ++ (recordDigest frame).toList)).toList

theorem encodeControlJournalRecord_eq_ok {key : JournalIntegrityKey}
    {kind : ControlJournalRecordKind} {body frame : List UInt8} {prior : JournalHead} :
    key.encodeControlJournalRecord kind body prior = .ok frame ↔
      ∃ pre, recordPrefix kind body prior = .ok pre ∧ sealFrame key pre = frame := by
  simp only [JournalIntegrityKey.encodeControlJournalRecord, bind_eq_ok, pure_eq_ok, sealFrame]

/-! ### Opening a frame -/

/-- The length that a frame announces. -/
def announced (frame : List UInt8) : ℕ := (unwire (slice frame 0 4) : UInt32).toNat

/-- The frame has the length that it announces, and its own digest and tag. -/
structure Intact (key : JournalIntegrityKey) (frame : List UInt8) : Prop where
  bounds : minFrameBytes ≤ announced frame ∧ announced frame ≤ maxFrameBytes
  length : frame.length = announced frame
  tag : frame.drop (announced frame - 32) =
    (key.recordTag (frame.take (announced frame - 32))).toList
  digest : slice frame (announced frame - 64) (announced frame - 32) =
    (recordDigest (frame.take (announced frame - 64))).toList

/-- The fields of a frame of any kind before its digest and its tag. -/
def frameFields (length : UInt32) (code : UInt16) (sequence : UInt64) (priorDigest : ByteVec 32)
    (body : List UInt8) : List (List UInt8) :=
  [wire length, wire code, wire sequence, priorDigest.toList, body]

/-- What stands between the length of a frame and its digest. -/
structure Holds (frame : List UInt8) (code : UInt16) (sequence : UInt64) (priorDigest : ByteVec 32)
    (body : List UInt8) : Prop where
  code : slice frame 4 6 = wire code
  sequence : slice frame 6 14 = wire sequence
  prior : slice frame 14 46 = priorDigest.toList
  body : slice frame 46 (announced frame - 64) = body

section Frames

variable {key : JournalIntegrityKey} {frame body : List UInt8} {code : UInt16} {sequence : UInt64}
  {priorDigest : ByteVec 32}

/-- An intact frame is the sealed form of what it holds. -/
theorem Intact.sealed (h : Intact key frame)
    (hholds : Holds frame code sequence priorDigest body) :
    body.length ≤ maxBodyBytes ∧ ∃ length : UInt32, length.toNat = minFrameBytes + body.length ∧
      (frameFields length code sequence priorDigest body).flatten =
        frame.take (announced frame - 64) ∧
      sealFrame key (frameFields length code sequence priorDigest body).flatten = frame := by
  obtain ⟨hbounds, hlen, htag, hdigest⟩ := h
  obtain ⟨hcode, hsequence, hprior, hbody⟩ := hholds
  have hread : announced frame = (unwire (slice frame 0 4) : UInt32).toNat := rfl
  generalize announced frame = n at *
  simp only [minFrameBytes, maxFrameBytes] at hbounds
  have hbodyLength : body.length = n - 110 := by
    rw [← hbody, length_slice (by omega)]
    omega
  have hlength : wire (unwire (slice frame 0 4) : UInt32) = slice frame 0 4 :=
    wire_unwire (length_slice (by omega))
  have hfields : (frameFields (unwire (slice frame 0 4)) code sequence priorDigest body).flatten =
      frame.take (n - 64) := by
    simp only [frameFields, hlength, ← hcode, ← hsequence, ← hprior, ← hbody, List.flatten_cons,
      List.flatten_nil, List.append_nil]
    rw [slice_append_slice (by omega) (by omega), slice_append_slice (by omega) (by omega),
      slice_append_slice (by omega) (by omega), slice_append_slice (by omega) (by omega),
      take_eq_slice]
  have hmiddle : frame.take (n - 64) ++ slice frame (n - 64) (n - 32) = frame.take (n - 32) := by
    rw [take_eq_slice, take_eq_slice, slice_append_slice (by omega) (by omega)]
  refine ⟨?_, unwire (slice frame 0 4), ?_, hfields, ?_⟩
  · rw [hbodyLength, maxBodyBytes, maxFrameBytes, minFrameBytes]
    omega
  · rw [← hread, hbodyLength, minFrameBytes]
    omega
  · rw [hfields, sealFrame, ← hdigest, hmiddle, ← htag, List.take_append_drop]

/-- A sealed frame is intact and holds what was sealed. -/
theorem intact_sealFrame {length : UInt32} (hbody : body.length ≤ maxBodyBytes)
    (hlength : length.toNat = minFrameBytes + body.length)
    (hframe : sealFrame key (frameFields length code sequence priorDigest body).flatten = frame) :
    Intact key frame ∧ Holds frame code sequence priorDigest body ∧
      frame.take (announced frame - 64) =
        (frameFields length code sequence priorDigest body).flatten := by
  set pre := (frameFields length code sequence priorDigest body).flatten with hpre
  set fields := frameFields length code sequence priorDigest body ++
    [(recordDigest pre).toList, (key.recordTag (pre ++ (recordDigest pre).toList)).toList]
    with hall
  have hseal : frame = fields.flatten := by
    rw [← hframe, sealFrame, hall, List.flatten_append, ← hpre]
    simp
  have hprelen : pre.length = 46 + body.length := by
    simp [hpre, frameFields]
    omega
  -- the sealed frame is these fields, and each slice is one of them
  have hfield : ∀ {i a b : ℕ} {field : List UInt8}, fields[i]? = some field →
      a = (fields.take i).flatten.length → b = a + field.length → slice frame a b = field :=
    fun hi ha hb => hseal ▸ slice_flatten hi ha hb
  have htotal : frame.length = length.toNat := by
    rw [← hframe]
    simp [sealFrame, hprelen, hlength, minFrameBytes]
    omega
  have h0 : slice frame 0 4 = wire length := hfield (i := 0) rfl rfl rfl
  have hread : announced frame = length.toNat := by
    rw [announced, h0, unwire_wire]
  have h46 : slice frame 46 (length.toNat - 64) = body :=
    hfield (i := 4) rfl (by simp [hall, frameFields]) (by rw [hlength, minFrameBytes]; omega)
  have hdigest : slice frame (length.toNat - 64) (length.toNat - 32) =
      (recordDigest pre).toList :=
    hfield (i := 5) rfl (by simp [hall, frameFields, hlength, minFrameBytes]; omega)
      (by simp [hlength, minFrameBytes]; omega)
  have htagStart : (pre ++ (recordDigest pre).toList).length = length.toNat - 32 := by
    simp [hprelen, hlength, minFrameBytes]
    omega
  have hdigestStart : frame.take (length.toNat - 64) = pre := by
    rw [← hframe, sealFrame, List.append_assoc]
    exact List.take_left' (by rw [hprelen, hlength, minFrameBytes]; omega)
  refine ⟨⟨?_, ?_, ?_, ?_⟩, ⟨?_, ?_, ?_, ?_⟩, ?_⟩
  · rw [hread, hlength, minFrameBytes, maxFrameBytes]
    rw [maxBodyBytes, maxFrameBytes, minFrameBytes] at hbody
    omega
  · rw [hread, htotal]
  · rw [hread, ← hframe, sealFrame, List.take_left' htagStart, List.drop_left' htagStart]
  · rw [hread, hdigest, hdigestStart]
  · exact hfield (i := 1) rfl rfl rfl
  · exact hfield (i := 2) rfl rfl rfl
  · exact hfield (i := 3) rfl rfl (by simp)
  · rw [hread, h46]
  · rw [hread, hdigestStart]

end Frames

/-- **The record decoder accepts exactly the frames of the record it answers**, in the place of the
chain that it is given. -/
theorem decodeControlJournalRecord_eq_ok {key : JournalIntegrityKey} {frame : List UInt8}
    {prior : JournalHead} {record : ControlJournalRecord} :
    key.decodeControlJournalRecord frame prior = .ok record ↔
      ∃ pre, recordPrefix record.kind record.body prior = .ok pre ∧ sealFrame key pre = frame ∧
        checkedSucc prior.sequence = some record.sequence ∧
        record.recordDigest = recordDigest pre := by
  unfold JournalIntegrityKey.decodeControlJournalRecord
  simp only [bind_eq_ok, reject_eq_ok, exists_const, orError_eq_ok, pure_eq_ok, bne_eq_false_iff_eq,
    Bool.or_eq_false_iff, ControlJournalRecordKind.fromCode_eq_ok, decide_eq_false_iff_not,
    Bool.not_eq_false', decide_eq_true_eq]
  constructor
  · rintro ⟨-, ⟨hbounds, hlen⟩, htag, hdigest, kind, hkind, expected, hexpected,
      ⟨hsequence, hprior⟩, rfl⟩
    have hintact : Intact key frame := ⟨hbounds, hlen, htag, hdigest⟩
    have hlong : 110 ≤ frame.length := hlen ▸ hbounds.1
    have hholds : Holds frame kind.code expected prior.digest
        (slice frame 46 (announced frame - 64)) :=
      ⟨(unwire_slice (by omega) rfl).1 hkind, (unwire_slice (by omega) rfl).1 hsequence, hprior, rfl⟩
    obtain ⟨hbody, length, hlength, hfields, hframe⟩ := hintact.sealed hholds
    exact ⟨_, recordPrefix_eq_ok.2 ⟨length, expected, hbody, hlength, hexpected, rfl⟩, hframe,
      hsequence ▸ hexpected, congrArg recordDigest hfields.symm⟩
  · rintro ⟨pre, hpre, hframe, hsequence, hdigest⟩
    obtain ⟨length, sequence, hbody, hlength, hnext, rfl⟩ := recordPrefix_eq_ok.1 hpre
    obtain rfl : sequence = record.sequence := by
      rw [hnext] at hsequence
      exact Option.some.inj hsequence
    obtain ⟨hintact, hholds, hfields⟩ := intact_sealFrame hbody hlength hframe
    have hlong : 110 ≤ frame.length := hintact.length ▸ hintact.bounds.1
    refine ⟨by omega, ⟨hintact.bounds, hintact.length⟩, hintact.tag, hintact.digest, record.kind,
      ?_, record.sequence, hsequence, ⟨?_, hholds.prior⟩, ?_⟩
    · rw [hholds.code, unwire_wire]
    · rw [hholds.sequence, unwire_wire]
    · rw [hholds.sequence, unwire_wire, ← announced, hfields, hholds.body]
      exact congrArg (fun digest => (⟨_, _, digest, _⟩ : ControlJournalRecord)) hdigest.symm

end MsgRiver.Journal
