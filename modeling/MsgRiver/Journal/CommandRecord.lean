import MsgRiver.Journal.Command
import MsgRiver.Journal.Envelope

/-!
# The envelope of a fixed-root command

A command travels in a record of kind `0x0020`, in the same frame and under the same labels as the
records of the control journal.  The authenticated codec is the composition of envelope and body:
the body stays opaque until its frame has been found intact.

What keeps the two families of records apart is the kind alone: an intact frame holds one kind, and
no kind of the control journal has the code of a command (`not_both_records`).
-/

namespace MsgRiver.Journal.FixedRoot

open Bytes Result Sha256

/-- The kind of a command record. -/
def fixedRootCommandKind : UInt16 := 0x0020

/-- The bytes of a frame without a body. -/
def minFrameBytes : ℕ := 110

/-- The most bytes of a frame. -/
def maxFrameBytes : ℕ := 16 * 1024

/-- The most bytes of a body. -/
def maxBodyBytes : ℕ := maxFrameBytes - minFrameBytes

/-- The label of record digests. -/
def recordLabel : List UInt8 := Ascii.utf8Bytes "msgriver/control-journal-record/v1"

/-- The label of record tags. -/
def authLabel : List UInt8 := Ascii.utf8Bytes "msgriver/control-journal-record-auth/v1"

/-- The end of the journal before a record. -/
structure FixedRootCommandJournalHead where
  sequence : UInt64
  recordDigest : ByteVec 32
  deriving DecidableEq

/-- A record that was read. -/
structure FixedRootCommandRecord where
  sequence : UInt64
  recordDigest : ByteVec 32
  body : List UInt8
  deriving DecidableEq

/-- Why a record is not written or not read. -/
inductive FixedRootCommandRecordError
  | invalidRecord
  | sequenceExhausted
  deriving DecidableEq, Repr

/-- The digest of a frame, which leaves its length out. -/
def fixedRootCommandRecordDigest (framePrefix : List UInt8) : ByteVec 32 :=
  sha256 (recordLabel ++ framePrefix.drop 4)

/-- The tag behind a frame. -/
def fixedRootCommandRecordTag (key : JournalIntegrityKey) (frameWithoutTag : List UInt8) :
    ByteVec 32 :=
  key.tag authLabel frameWithoutTag

/-- `encode_fixed_root_command_record`. -/
def encodeFixedRootCommandRecord (key : JournalIntegrityKey) (body : List UInt8)
    (prior : FixedRootCommandJournalHead) :
    Except FixedRootCommandRecordError (List UInt8) := do
  reject (decide (maxBodyBytes < body.length)) .invalidRecord
  let sequence ← orError .sequenceExhausted (checkedSucc prior.sequence)
  let length : UInt32 ← orError .invalidRecord (ofNat? (minFrameBytes + body.length))
  let frame := wire length ++ wire fixedRootCommandKind ++ wire sequence
    ++ prior.recordDigest.toList ++ body
  let frame := frame ++ (fixedRootCommandRecordDigest frame).toList
  return frame ++ (fixedRootCommandRecordTag key frame).toList

/-- `decode_fixed_root_command_record`. -/
def decodeFixedRootCommandRecord (key : JournalIntegrityKey) (frame : List UInt8)
    (prior : FixedRootCommandJournalHead) :
    Except FixedRootCommandRecordError FixedRootCommandRecord := do
  reject (decide (frame.length < 4)) .invalidRecord
  let length := (unwire (slice frame 0 4) : UInt32).toNat
  reject (!(decide (minFrameBytes ≤ length ∧ length ≤ maxFrameBytes)) || frame.length != length)
    .invalidRecord
  let tagStart := length - 32
  reject (frame.drop tagStart != (fixedRootCommandRecordTag key (frame.take tagStart)).toList)
    .invalidRecord
  let digestStart := length - 64
  let expectedDigest := fixedRootCommandRecordDigest (frame.take digestStart)
  reject (slice frame digestStart tagStart != expectedDigest.toList) .invalidRecord
  let kind : UInt16 := unwire (slice frame 4 6)
  reject (kind != fixedRootCommandKind) .invalidRecord
  let sequence : UInt64 := unwire (slice frame 6 14)
  let expectedSequence ← orError .sequenceExhausted (checkedSucc prior.sequence)
  reject (sequence != expectedSequence || slice frame 14 46 != prior.recordDigest.toList)
    .invalidRecord
  return ⟨sequence, expectedDigest, slice frame 46 digestStart⟩

/-! ### The authenticated composition -/

/-- A record that was read, with its command. -/
structure FixedRootCommandAuthenticatedRecord where
  sequence : UInt64
  recordDigest : ByteVec 32
  command : FixedRootCommand
  deriving DecidableEq

/-- Why a command is not written or not read. -/
inductive FixedRootCommandAuthenticatedError
  | invalidCommand
  | sequenceExhausted
  deriving DecidableEq, Repr

/-- The error of the composition. -/
def mapRecordError : FixedRootCommandRecordError → FixedRootCommandAuthenticatedError
  | .invalidRecord => .invalidCommand
  | .sequenceExhausted => .sequenceExhausted

/-- The record of a command. -/
def encodeFixedRootCommandAuthenticated (key : JournalIntegrityKey)
    (bodyCodec : FixedRootCommandCodec) (command : FixedRootCommand)
    (prior : FixedRootCommandJournalHead) :
    Except FixedRootCommandAuthenticatedError (List UInt8) := do
  let body ← (encodeFixedRootCommand bodyCodec command).mapError fun _ => .invalidCommand
  (encodeFixedRootCommandRecord key body prior).mapError mapRecordError

/-- The command of a record. -/
def decodeFixedRootCommandAuthenticated (key : JournalIntegrityKey)
    (bodyCodec : FixedRootCommandCodec) (frame : List UInt8) (prior : FixedRootCommandJournalHead) :
    Except FixedRootCommandAuthenticatedError FixedRootCommandAuthenticatedRecord := do
  let record ← (decodeFixedRootCommandRecord key frame prior).mapError mapRecordError
  let command ← (decodeFixedRootCommand bodyCodec record.body).mapError fun _ => .invalidCommand
  return ⟨record.sequence, record.recordDigest, command⟩

/-! ### The frame of a command record -/

section Records

variable {key : JournalIntegrityKey} {body frame : List UInt8}
  {prior : FixedRootCommandJournalHead} {record : FixedRootCommandRecord}

/-- The labels are those of the control journal, so its frames are sealed and opened alike. -/
theorem seal_commandRecord (key : JournalIntegrityKey) (frame : List UInt8) :
    frame ++ (fixedRootCommandRecordDigest frame).toList ++ (fixedRootCommandRecordTag key
      (frame ++ (fixedRootCommandRecordDigest frame).toList)).toList = sealFrame key frame :=
  rfl

theorem encodeFixedRootCommandRecord_eq_ok :
    encodeFixedRootCommandRecord key body prior = .ok frame ↔
      ∃ (length : UInt32) (sequence : UInt64), body.length ≤ maxBodyBytes ∧
        length.toNat = minFrameBytes + body.length ∧ checkedSucc prior.sequence = some sequence ∧
        sealFrame key (frameFields length fixedRootCommandKind sequence prior.recordDigest
          body).flatten = frame := by
  have hflatten : ∀ (length : UInt32) (sequence : UInt64),
      wire length ++ wire fixedRootCommandKind ++ wire sequence ++ prior.recordDigest.toList ++ body
        = (frameFields length fixedRootCommandKind sequence prior.recordDigest body).flatten := by
    intro length sequence
    simp [frameFields]
  simp only [encodeFixedRootCommandRecord, reject_bind_eq_ok, orError_bind_eq_ok, pure_eq_ok,
    ofNat?_eq_some, decide_eq_false_iff_not, Nat.not_lt, seal_commandRecord, hflatten]
  constructor
  · rintro ⟨hbody, sequence, hsequence, length, hlength, hframe⟩
    exact ⟨length, sequence, hbody, hlength, hsequence, hframe⟩
  · rintro ⟨length, sequence, hbody, hlength, hsequence, hframe⟩
    exact ⟨hbody, sequence, hsequence, length, hlength, hframe⟩

theorem decodeFixedRootCommandRecord_eq_ok :
    decodeFixedRootCommandRecord key frame prior = .ok record ↔
      Intact key frame ∧ checkedSucc prior.sequence = some record.sequence ∧
        Holds frame fixedRootCommandKind record.sequence prior.recordDigest record.body ∧
        record.recordDigest = recordDigest (frame.take (announced frame - 64)) := by
  simp only [decodeFixedRootCommandRecord, reject_bind_eq_ok, orError_bind_eq_ok, pure_eq_ok,
    bne_eq_false_iff_eq, Bool.or_eq_false_iff, decide_eq_false_iff_not, Bool.not_eq_false',
    decide_eq_true_eq]
  constructor
  · rintro ⟨-, ⟨hbounds, hlen⟩, htag, hdigest, hkind, expected, hexpected, ⟨hsequence, hprior⟩, rfl⟩
    have hlong : 110 ≤ frame.length := hlen ▸ hbounds.1
    refine ⟨⟨hbounds, hlen, htag, hdigest⟩, hsequence ▸ hexpected, ⟨?_, ?_, hprior, rfl⟩, rfl⟩
    · exact (unwire_slice (by omega) rfl).1 hkind
    · exact (unwire_slice (by omega) rfl).1 rfl
  · rintro ⟨hintact, hnext, hholds, hdigest⟩
    have hlong : 110 ≤ frame.length := hintact.length ▸ hintact.bounds.1
    refine ⟨by omega, ⟨hintact.bounds, hintact.length⟩, hintact.tag, hintact.digest, ?_,
      record.sequence, hnext, ⟨?_, hholds.prior⟩, ?_⟩
    · rw [hholds.code, unwire_wire]
    · rw [hholds.sequence, unwire_wire]
    · rw [hholds.sequence, unwire_wire, ← announced, hholds.body]
      exact congrArg (fun digest => (⟨_, digest, _⟩ : FixedRootCommandRecord)) hdigest.symm

/-- **A record is decoded exactly from the frame that its body is encoded to.** -/
theorem decodeFixedRootCommandRecord_iff {sequence : UInt64} :
    (∃ digest, decodeFixedRootCommandRecord key frame prior = .ok ⟨sequence, digest, body⟩) ↔
      checkedSucc prior.sequence = some sequence ∧
        encodeFixedRootCommandRecord key body prior = .ok frame := by
  simp only [decodeFixedRootCommandRecord_eq_ok, encodeFixedRootCommandRecord_eq_ok]
  constructor
  · rintro ⟨digest, hintact, hnext, hholds, -⟩
    obtain ⟨hbody, length, hlength, -, hframe⟩ := hintact.sealed hholds
    exact ⟨hnext, length, sequence, hbody, hlength, hnext, hframe⟩
  · rintro ⟨hnext, length, next, hbody, hlength, hnext', hframe⟩
    obtain rfl : next = sequence := Option.some.inj (hnext'.symm.trans hnext)
    obtain ⟨hintact, hholds, -⟩ := intact_sealFrame hbody hlength hframe
    exact ⟨_, hintact, hnext, hholds, rfl⟩

theorem encodeFixedRootCommandRecord_exhausted :
    encodeFixedRootCommandRecord key body prior = .error .sequenceExhausted ↔
      body.length ≤ maxBodyBytes ∧ checkedSucc prior.sequence = none := by
  simp only [encodeFixedRootCommandRecord, bind_eq_error, reject_eq_error, reject_eq_ok,
    orError_eq_error, orError_eq_ok, pure_ne_error, decide_eq_false_iff_not, Nat.not_lt,
    reduceCtorEq, and_false, and_true, false_or, or_false, exists_const]

/-- The sequence is looked at once the frame is known to be intact and to hold a command. -/
theorem decodeFixedRootCommandRecord_exhausted :
    decodeFixedRootCommandRecord key frame prior = .error .sequenceExhausted ↔
      Intact key frame ∧ slice frame 4 6 = wire fixedRootCommandKind ∧
        checkedSucc prior.sequence = none := by
  simp only [decodeFixedRootCommandRecord, bind_eq_error, reject_eq_error, reject_eq_ok,
    orError_eq_error, orError_eq_ok, pure_ne_error, reduceCtorEq, and_false, and_true, false_or,
    or_false, exists_const, bne_eq_false_iff_eq, Bool.or_eq_false_iff, decide_eq_false_iff_not,
    Bool.not_eq_false', decide_eq_true_eq]
  constructor
  · rintro ⟨-, ⟨hbounds, hlen⟩, htag, hdigest, hkind, hnext⟩
    have hlong : 110 ≤ frame.length := hlen ▸ hbounds.1
    exact ⟨⟨hbounds, hlen, htag, hdigest⟩, (unwire_slice (by omega) rfl).1 hkind, hnext⟩
  · rintro ⟨⟨hbounds, hlen, htag, hdigest⟩, hkind, hnext⟩
    have hlong : 110 ≤ frame.length := hlen ▸ hbounds.1
    exact ⟨by omega, ⟨hbounds, hlen⟩, htag, hdigest, by rw [hkind, unwire_wire], hnext⟩

/-- **No frame is a command record and a record of the control journal**, under any two keys and
behind any two heads. -/
theorem not_both_records {key' : JournalIntegrityKey} {prior' : JournalHead}
    {record' : ControlJournalRecord}
    (h : decodeFixedRootCommandRecord key frame prior = .ok record) :
    key'.decodeControlJournalRecord frame prior' ≠ .ok record' := by
  intro h'
  obtain ⟨-, -, hholds, -⟩ := decodeFixedRootCommandRecord_eq_ok.1 h
  obtain ⟨pre, hpre, hframe, -, -⟩ := decodeControlJournalRecord_eq_ok.1 h'
  obtain ⟨length, sequence, hbody, hlength, -, rfl⟩ := recordPrefix_eq_ok.1 hpre
  obtain ⟨-, hholds', -⟩ := intact_sealFrame hbody hlength hframe
  have hkind : fixedRootCommandKind = record'.kind.code :=
    wire_injective (hholds.code.symm.trans hholds'.code)
  cases hcode : record'.kind <;> rw [hcode] at hkind <;> exact absurd hkind (by decide)

end Records

theorem checkedSucc_eq_none {x : UInt64} : checkedSucc x = none ↔ x.toNat = 2 ^ 64 - 1 := by
  rw [Option.eq_none_iff_forall_ne_some]
  constructor
  · intro h
    by_contra hne
    have hlt := x.toNat_lt
    exact h (x + 1) (checkedSucc_eq_some.2 (by rw [UInt64.toNat_add]; simp; omega))
  · intro h y hy
    have hnext := checkedSucc_eq_some.1 hy
    have hlt := y.toNat_lt
    omega

/-! ### The authenticated codec -/

section Authenticated

variable {key : JournalIntegrityKey} {codec : FixedRootCommandCodec} {command : FixedRootCommand}
  {frame : List UInt8} {prior : FixedRootCommandJournalHead}

theorem mapRecordError_eq_exhausted {error : FixedRootCommandRecordError} :
    mapRecordError error = .sequenceExhausted ↔ error = .sequenceExhausted := by
  cases error <;> simp [mapRecordError]

theorem decodeFixedRootCommandAuthenticated_iff {sequence : UInt64} :
    (∃ digest, decodeFixedRootCommandAuthenticated key codec frame prior =
      .ok ⟨sequence, digest, command⟩) ↔
      checkedSucc prior.sequence = some sequence ∧
        encodeFixedRootCommandAuthenticated key codec command prior = .ok frame := by
  simp only [decodeFixedRootCommandAuthenticated, encodeFixedRootCommandAuthenticated, bind_eq_ok,
    mapError_eq_ok, pure_eq_ok, FixedRootCommandAuthenticatedRecord.mk.injEq,
    decodeFixedRootCommand_eq_ok]
  constructor
  · rintro ⟨_, ⟨sequence, digest, body⟩, hrecord, _, hcommand, rfl, rfl, rfl⟩
    obtain ⟨hnext, hencode⟩ := decodeFixedRootCommandRecord_iff.1 ⟨digest, hrecord⟩
    exact ⟨hnext, body, hcommand, hencode⟩
  · rintro ⟨hnext, body, hcommand, hencode⟩
    obtain ⟨digest, hrecord⟩ := decodeFixedRootCommandRecord_iff.2 ⟨hnext, hencode⟩
    exact ⟨digest, _, hrecord, command, hcommand, rfl, rfl, rfl⟩

/-- A body is short enough for the frame. -/
theorem length_encodeFixedRootCommand {body : List UInt8}
    (h : encodeFixedRootCommand codec command = .ok body) : body.length ≤ maxBodyBytes :=
  (encodeFixedRootCommand_eq_ok.1 h).2.2

theorem encodeFixedRootCommandAuthenticated_exhausted :
    encodeFixedRootCommandAuthenticated key codec command prior = .error .sequenceExhausted ↔
      (∃ body, encodeFixedRootCommand codec command = .ok body) ∧
        prior.sequence.toNat = 2 ^ 64 - 1 := by
  simp only [encodeFixedRootCommandAuthenticated, bind_eq_error, mapError_eq_error, mapError_eq_ok,
    mapRecordError_eq_exhausted, exists_eq_right, encodeFixedRootCommandRecord_exhausted,
    checkedSucc_eq_none, reduceCtorEq, and_false, exists_false, false_or]
  constructor
  · rintro ⟨body, hbody, -, hlast⟩
    exact ⟨⟨body, hbody⟩, hlast⟩
  · rintro ⟨⟨body, hbody⟩, hlast⟩
    exact ⟨body, hbody, length_encodeFixedRootCommand hbody, hlast⟩

theorem decodeFixedRootCommandAuthenticated_exhausted :
    decodeFixedRootCommandAuthenticated key codec frame prior = .error .sequenceExhausted ↔
      Intact key frame ∧ slice frame 4 6 = wire fixedRootCommandKind ∧
        prior.sequence.toNat = 2 ^ 64 - 1 := by
  simp only [decodeFixedRootCommandAuthenticated, bind_eq_error, mapError_eq_error, pure_ne_error,
    mapRecordError_eq_exhausted, exists_eq_right, decodeFixedRootCommandRecord_exhausted,
    checkedSucc_eq_none, reduceCtorEq, and_false, exists_false, or_false]

end Authenticated

/-- **The formats of a fixed-root command are canonical and apart from the journal records.**  Body
and envelope are read back exactly from what is written, the envelope with the next sequence number;
it is exhausted exactly when a command that has a body, or an intact frame of a command, meets the
last sequence number. -/
theorem fixedRootCommand_formats (key : JournalIntegrityKey) (codec : FixedRootCommandCodec)
    (prior : FixedRootCommandJournalHead) :
    (∀ command body, encodeFixedRootCommand codec command = .ok body ↔
      decodeFixedRootCommand codec body = .ok command) ∧
    (∀ command frame, encodeFixedRootCommandAuthenticated key codec command prior = .ok frame ↔
      ∃ sequence digest, decodeFixedRootCommandAuthenticated key codec frame prior =
        .ok ⟨sequence, digest, command⟩) ∧
    (∀ frame record, decodeFixedRootCommandAuthenticated key codec frame prior = .ok record →
      record.sequence.toNat = prior.sequence.toNat + 1) ∧
    (∀ command,
      encodeFixedRootCommandAuthenticated key codec command prior = .error .sequenceExhausted ↔
        (∃ body, encodeFixedRootCommand codec command = .ok body) ∧
          prior.sequence.toNat = 2 ^ 64 - 1) ∧
    (∀ frame,
      decodeFixedRootCommandAuthenticated key codec frame prior = .error .sequenceExhausted ↔
        Intact key frame ∧ slice frame 4 6 = wire fixedRootCommandKind ∧
          prior.sequence.toNat = 2 ^ 64 - 1) ∧
    (∀ command body, encodeFixedRootCommand codec command = .ok body → body.length ≤ 16274 ∧
      (prior.sequence.toNat ≠ 2 ^ 64 - 1 →
        ∃ frame, encodeFixedRootCommandRecord key body prior = .ok frame)) ∧
    ∀ frame key' prior', ¬ ((∃ record, decodeFixedRootCommandRecord key frame prior = .ok record) ∧
      ∃ record, JournalIntegrityKey.decodeControlJournalRecord key' frame prior' = .ok record) := by
  have hnext : ∀ {sequence : UInt64}, checkedSucc prior.sequence = some sequence →
      sequence.toNat = prior.sequence.toNat + 1 := checkedSucc_eq_some.1
  refine ⟨fun command body => decodeFixedRootCommand_eq_ok.symm, fun command frame => ⟨?_, ?_⟩,
    fun frame record h => ?_, fun command => encodeFixedRootCommandAuthenticated_exhausted,
    fun frame => decodeFixedRootCommandAuthenticated_exhausted, fun command body h => ⟨?_, ?_⟩, ?_⟩
  · intro h
    obtain ⟨body, -, hrecord⟩ := bind_eq_ok.1 h
    obtain ⟨_, sequence, -, -, hsequence, -⟩ :=
      encodeFixedRootCommandRecord_eq_ok.1 (mapError_eq_ok.1 hrecord)
    exact ⟨sequence, decodeFixedRootCommandAuthenticated_iff.2 ⟨hsequence, h⟩⟩
  · rintro ⟨sequence, h⟩
    exact (decodeFixedRootCommandAuthenticated_iff.1 h).2
  · exact hnext (decodeFixedRootCommandAuthenticated_iff.1 ⟨record.recordDigest, h⟩).1
  · exact (encodeFixedRootCommand_eq_ok.1 h).2.2
  · intro hlast
    have hbody := length_encodeFixedRootCommand h
    cases hsequence : checkedSucc prior.sequence with
    | none => exact absurd (checkedSucc_eq_none.1 hsequence) hlast
    | some sequence =>
      -- the longest body still leaves room in the length field
      have hlength : (UInt32.ofNat (minFrameBytes + body.length)).toNat =
          minFrameBytes + body.length := by
        rw [maxBodyBytes, maxFrameBytes, minFrameBytes] at hbody
        rw [minFrameBytes]
        exact UInt32.toNat_ofNat_of_lt' (by show 110 + body.length < 2 ^ 32; omega)
      exact ⟨_, encodeFixedRootCommandRecord_eq_ok.2
        ⟨_, sequence, hbody, hlength, hsequence, rfl⟩⟩
  · rintro frame key' prior' ⟨⟨record, h⟩, record', h'⟩
    exact not_both_records h h'

/-- The frame of an empty clock checkpoint behind genesis, under the key of zeros. -/
def checkpointFrame : List UInt8 :=
  sealFrame ⟨ByteVec.zero 32⟩
    (frameFields 110 ControlJournalRecordKind.clockCheckpoint.code 1 (ByteVec.zero 32) []).flatten

/-- **A correct tag is not enough**: a record of another kind is refused as such before its sequence
number is looked at. -/
theorem checkpointFrame_not_exhausted :
    Intact ⟨ByteVec.zero 32⟩ checkpointFrame ∧
      decodeFixedRootCommandAuthenticated ⟨ByteVec.zero 32⟩ ⟨ByteVec.zero 32⟩ checkpointFrame
        ⟨0xffffffffffffffff, ByteVec.zero 32⟩ = .error .invalidCommand := by
  have hempty : ([] : List UInt8).length ≤ Journal.maxBodyBytes := by decide
  have hlength : (110 : UInt32).toNat = Journal.minFrameBytes + ([] : List UInt8).length := rfl
  have hframe : sealFrame ⟨ByteVec.zero 32⟩ (frameFields 110
      ControlJournalRecordKind.clockCheckpoint.code 1 (ByteVec.zero 32) []).flatten =
        checkpointFrame := rfl
  obtain ⟨hintact, hholds, -⟩ := intact_sealFrame hempty hlength hframe
  refine ⟨hintact, ?_⟩
  cases h : decodeFixedRootCommandAuthenticated ⟨ByteVec.zero 32⟩ ⟨ByteVec.zero 32⟩ checkpointFrame
      ⟨0xffffffffffffffff, ByteVec.zero 32⟩ with
  | ok record =>
    have hnext := (decodeFixedRootCommandAuthenticated_iff.1 ⟨record.recordDigest, h⟩).1
    have hnone : checkedSucc (0xffffffffffffffff : UInt64) = none := checkedSucc_eq_none.2 rfl
    rw [hnone] at hnext
    cases hnext
  | error error =>
    cases error with
    | invalidCommand => rfl
    | sequenceExhausted =>
      obtain ⟨-, hkind, -⟩ := decodeFixedRootCommandAuthenticated_exhausted.1 h
      exact absurd (wire_injective (hholds.code.symm.trans hkind)) (by decide)

end MsgRiver.Journal.FixedRoot
