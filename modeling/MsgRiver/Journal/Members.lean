import MsgRiver.Journal.Addressed

/-!
# Members of a checkpoint with a codec of their own

* the profile of a `recovery_key.generate` command;
* the recovery ring, a list of key generations with at most one active and one pending entry;
* the active state pointer, a certificate with two identifiers of variable length.

Ring and pointer carry a tag of the journal key.  Each decoder reads every encoding back.
-/

namespace MsgRiver.Journal

open Bytes Result Ascii

/-! ### The profile of `recovery_key.generate` -/

/-- The two steps of a generation. -/
inductive RecoveryKeyGenerateVariant
  | generate
  | acknowledge
  deriving DecidableEq, Repr

/-- The profile of a generation: which step it is, and its digests. -/
structure RecoveryKeyGenerateProfile where
  variant : RecoveryKeyGenerateVariant
  issuanceDigest : Option (ByteVec 32)
  confirmationDigest : Option (ByteVec 32)
  deriving DecidableEq

/-- The error of the profile's codec. -/
inductive RecoveryKeyGenerateProfileError
  | invalidProfile
  deriving DecidableEq, Repr

/-- The number of a variant. -/
def RecoveryKeyGenerateVariant.code : RecoveryKeyGenerateVariant → UInt8
  | .generate => 1
  | .acknowledge => 2

/-- The variant of a number. -/
def RecoveryKeyGenerateVariant.decode (code : UInt8) :
    Except RecoveryKeyGenerateProfileError RecoveryKeyGenerateVariant :=
  if code = 1 then .ok .generate
  else if code = 2 then .ok .acknowledge
  else .error .invalidProfile

/-- The entries of a profile: a kind and a digest. -/
def profileEntries (profile : RecoveryKeyGenerateProfile) : List (UInt8 × ByteVec 32) :=
  (profile.issuanceDigest.map fun digest => (1, digest)).toList
  ++ (profile.confirmationDigest.map fun digest => (2, digest)).toList

/-- The profile: the version, the variant, and the digests under their tags. -/
def encodeRecoveryKeyGenerateProfile (profile : RecoveryKeyGenerateProfile) : List UInt8 :=
  let entries := profileEntries profile
  [1, profile.variant.code, UInt8.ofNat entries.length]
  ++ (entries.map fun entry => entry.1 :: entry.2.toList).flatten

/-- What the loop over the entries has read. -/
structure ProfileLoop where
  issuanceDigest : Option (ByteVec 32)
  confirmationDigest : Option (ByteVec 32)
  previousKind : UInt8

/-- One entry, in increasing order of the kinds. -/
def readProfileEntry (loop : ProfileLoop) (entry : List UInt8) :
    Except RecoveryKeyGenerateProfileError ProfileLoop := do
  let kind := byteAt entry 0
  reject (decide (kind ≤ loop.previousKind)) .invalidProfile
  let digest ← orError .invalidProfile (toVec? 32 (entry.drop 1))
  if kind = 1 then return ⟨some digest, loop.confirmationDigest, kind⟩
  else if kind = 2 then return ⟨loop.issuanceDigest, some digest, kind⟩
  else .error .invalidProfile

/-- `chunks_exact(n)` of a byte string of `count * n` bytes. -/
def chunksExact (n count : ℕ) (bytes : List UInt8) : List (List UInt8) :=
  (List.range count).map fun index => slice bytes (n * index) (n * index + n)

/-- Reads a profile; its entries are in the order of the encoder. -/
def decodeRecoveryKeyGenerateProfile (wire : List UInt8) :
    Except RecoveryKeyGenerateProfileError RecoveryKeyGenerateProfile := do
  reject (decide (wire.length < 3) || byteAt wire 0 != 1) .invalidProfile
  let variant ← RecoveryKeyGenerateVariant.decode (byteAt wire 1)
  let count := (byteAt wire 2).toNat
  reject (decide (2 < count) || wire.length != 3 + 33 * count) .invalidProfile
  let loop ← (chunksExact 33 count (wire.drop 3)).foldlM readProfileEntry ⟨none, none, 0⟩
  return ⟨variant, loop.issuanceDigest, loop.confirmationDigest⟩

theorem RecoveryKeyGenerateVariant.decode_code (variant : RecoveryKeyGenerateVariant) :
    RecoveryKeyGenerateVariant.decode variant.code = .ok variant := by
  cases variant <;> rfl

theorem chunksExact_flatten {n : ℕ} (pieces : List (List UInt8))
    (h : ∀ piece ∈ pieces, piece.length = n) :
    chunksExact n pieces.length pieces.flatten = pieces := by
  have htake : ∀ i ≤ pieces.length, (pieces.take i).flatten.length = n * i := by
    intro i hi
    rw [List.length_flatten, List.map_congr_left (g := fun _ => n)
      fun piece hp => h piece (List.mem_of_mem_take hp)]
    simp [Nat.min_eq_left hi, Nat.mul_comm]
  refine List.ext_getElem (by simp [chunksExact]) fun i hi hi' => ?_
  simp only [chunksExact, List.getElem_map, List.getElem_range]
  exact slice_flatten (List.getElem?_eq_getElem hi') (htake i (by omega)).symm
    (by rw [h _ (List.getElem_mem hi')])

/-- The loop reads the entries of a profile back. -/
theorem foldlM_profileEntries (profile : RecoveryKeyGenerateProfile) :
    ∃ kind, ((profileEntries profile).map fun entry => entry.1 :: entry.2.toList).foldlM
      readProfileEntry ⟨none, none, 0⟩ =
        .ok ⟨profile.issuanceDigest, profile.confirmationDigest, kind⟩ := by
  obtain ⟨variant, issuance, confirmation⟩ := profile
  cases issuance <;> cases confirmation <;>
    simp [profileEntries, readProfileEntry, reject, orError, byteAt, bind, Except.bind, pure,
      Except.pure]

theorem length_profileEntries (profile : RecoveryKeyGenerateProfile) :
    (profileEntries profile).length ≤ 2 := by
  obtain ⟨variant, issuance, confirmation⟩ := profile
  cases issuance <;> cases confirmation <;> simp [profileEntries]

theorem length_encodeRecoveryKeyGenerateProfile (profile : RecoveryKeyGenerateProfile) :
    (encodeRecoveryKeyGenerateProfile profile).length =
      3 + 33 * (profileEntries profile).length := by
  simp [encodeRecoveryKeyGenerateProfile, Function.comp_def]
  omega

/-- The decoder reads every profile back. -/
theorem decode_encodeRecoveryKeyGenerateProfile (profile : RecoveryKeyGenerateProfile) :
    decodeRecoveryKeyGenerateProfile (encodeRecoveryKeyGenerateProfile profile) = .ok profile := by
  have hcount := length_profileEntries profile
  have hlen := length_encodeRecoveryKeyGenerateProfile profile
  have hentries : chunksExact 33 (profileEntries profile).length
      ((encodeRecoveryKeyGenerateProfile profile).drop 3) =
        (profileEntries profile).map fun entry => entry.1 :: entry.2.toList := by
    have hchunks := chunksExact_flatten (n := 33)
      ((profileEntries profile).map fun entry => entry.1 :: entry.2.toList) (by
        intro piece hp
        obtain ⟨entry, -, rfl⟩ := List.mem_map.1 hp
        simp)
    rw [List.length_map] at hchunks
    exact hchunks
  have hbyte : (byteAt (encodeRecoveryKeyGenerateProfile profile) 2).toNat =
      (profileEntries profile).length := by
    show (UInt8.ofNat (profileEntries profile).length).toNat = _
    rw [UInt8.toNat_ofNat']
    omega
  obtain ⟨kind, hloop⟩ := foldlM_profileEntries profile
  unfold decodeRecoveryKeyGenerateProfile
  refine reject_bind_eq_ok.2 ⟨?_, ?_⟩
  · rw [Bool.or_eq_false_iff, decide_eq_false_iff_not, bne_eq_false_iff_eq]
    exact ⟨by omega, rfl⟩
  refine bind_eq_ok.2 ⟨_, RecoveryKeyGenerateVariant.decode_code profile.variant, ?_⟩
  rw [hbyte]
  refine reject_bind_eq_ok.2 ⟨?_, ?_⟩
  · rw [Bool.or_eq_false_iff, decide_eq_false_iff_not, bne_eq_false_iff_eq]
    exact ⟨by omega, hlen⟩
  rw [hentries]
  exact bind_eq_ok.2 ⟨_, hloop, rfl⟩

/-! ### The recovery ring -/

/-- The phases of a recovery key. -/
inductive RecoveryRingPhase
  | retained
  | active
  | pendingEscrow
  deriving DecidableEq, Repr

/-- A recovery key. -/
structure RecoveryRingEntry where
  generation : UInt64
  phase : RecoveryRingPhase
  deriving DecidableEq

/-- The error of the manifest's codec. -/
inductive RecoveryRingManifestError
  | invalidRecoveryRingManifest
  deriving DecidableEq, Repr

/-- The number of a phase. -/
def RecoveryRingPhase.code : RecoveryRingPhase → UInt8
  | .retained => 1
  | .active => 2
  | .pendingEscrow => 3

/-- The phase of a number. -/
def RecoveryRingPhase.fromCode (code : UInt8) :
    Except RecoveryRingManifestError RecoveryRingPhase :=
  if code = 1 then .ok .retained
  else if code = 2 then .ok .active
  else if code = 3 then .ok .pendingEscrow
  else .error .invalidRecoveryRingManifest

/-- The label of manifest tags. -/
def recoveryRingDomain : List UInt8 := utf8Bytes "msgriver/recovery-ring/v1"

/-- The tag behind a manifest. -/
def recoveryRingManifestTag (key : JournalIntegrityKey) (bytes : List UInt8) : ByteVec 32 :=
  key.tag recoveryRingDomain bytes

/-- The generations are positive and increase. -/
def ringIncreases : Option UInt64 → List RecoveryRingEntry → Bool
  | _, [] => true
  | previous, entry :: entries =>
    !(entry.generation == 0 || previous.any fun p => entry.generation ≤ p)
      && ringIncreases (some entry.generation) entries

/-- At most 16 entries with increasing generations, of which one may be active and one pending. -/
def validateManifest (entries : List RecoveryRingEntry) :
    Except RecoveryRingManifestError Unit := do
  reject (decide (16 < entries.length)) .invalidRecoveryRingManifest
  reject (!ringIncreases none entries) .invalidRecoveryRingManifest
  reject (decide (1 < entries.countP (·.phase == .active))
    || decide (1 < entries.countP (·.phase == .pendingEscrow))) .invalidRecoveryRingManifest

/-- The bytes of one entry. -/
def ringEntryBytes (entry : RecoveryRingEntry) : List UInt8 :=
  wire entry.generation ++ [entry.phase.code]

/-- The bytes of a manifest before its tag. -/
def manifestBytes (entries : List RecoveryRingEntry) : List UInt8 :=
  [1, UInt8.ofNat entries.length] ++ (entries.map ringEntryBytes).flatten

/-- The manifest and its tag. -/
def encodeRecoveryRingManifest (key : JournalIntegrityKey) (entries : List RecoveryRingEntry) :
    Except RecoveryRingManifestError (List UInt8) := do
  validateManifest entries
  let bytes := manifestBytes entries
  return bytes ++ (recoveryRingManifestTag key bytes).toList

/-- Reads an entry of nine bytes. -/
def readRingEntry (bytes : List UInt8) : Except RecoveryRingManifestError RecoveryRingEntry := do
  let generation ← orError .invalidRecoveryRingManifest (unwire? (slice bytes 0 8))
  let phase ← RecoveryRingPhase.fromCode (byteAt bytes 8)
  return ⟨generation, phase⟩

/-- Reads a manifest; its number of entries fixes its length. -/
def decodeRecoveryRingManifest (key : JournalIntegrityKey) (wire : List UInt8) :
    Except RecoveryRingManifestError (List RecoveryRingEntry) := do
  reject (decide (wire.length < 2)) .invalidRecoveryRingManifest
  let entryCount := (byteAt wire 1).toNat
  reject (decide (16 < entryCount)) .invalidRecoveryRingManifest
  reject (wire.length != 34 + 9 * entryCount) .invalidRecoveryRingManifest
  let tagStart := wire.length - 32
  reject (wire.drop tagStart != (recoveryRingManifestTag key (wire.take tagStart)).toList)
    .invalidRecoveryRingManifest
  reject (byteAt wire 0 != 1) .invalidRecoveryRingManifest
  let entries ← (chunksExact 9 entryCount (slice wire 2 tagStart)).mapM readRingEntry
  validateManifest entries
  return entries

theorem RecoveryRingPhase.fromCode_code (phase : RecoveryRingPhase) :
    RecoveryRingPhase.fromCode phase.code = .ok phase := by
  cases phase <;> rfl

@[simp] theorem length_ringEntryBytes (entry : RecoveryRingEntry) :
    (ringEntryBytes entry).length = 9 := by
  simp [ringEntryBytes]

theorem length_manifestBytes (entries : List RecoveryRingEntry) :
    (manifestBytes entries).length = 2 + 9 * entries.length := by
  simp [manifestBytes, Function.comp_def]
  omega

theorem readRingEntry_bytes (entry : RecoveryRingEntry) :
    readRingEntry (ringEntryBytes entry) = .ok entry := by
  have hgeneration : slice (ringEntryBytes entry) 0 8 = wire entry.generation := by
    rw [← take_eq_slice]
    exact List.take_left' (length_wire_u64 _)
  have hphase : byteAt (ringEntryBytes entry) 8 = entry.phase.code := by
    rw [byteAt, List.getD_eq_getElem?_getD, ringEntryBytes,
      List.getElem?_append_right (by rw [length_wire_u64]), length_wire_u64]
    rfl
  refine orError_bind_eq_ok.2 ⟨entry.generation, unwire?_eq_some.2 hgeneration.symm, ?_⟩
  rw [hphase]
  exact bind_eq_ok.2 ⟨entry.phase, RecoveryRingPhase.fromCode_code _, rfl⟩

theorem mapM_readRingEntry (entries : List RecoveryRingEntry) :
    (entries.map ringEntryBytes).mapM readRingEntry = .ok entries := by
  induction entries with
  | nil => rfl
  | cons entry entries ih =>
    rw [List.map_cons, List.mapM_cons, readRingEntry_bytes]
    exact bind_eq_ok.2 ⟨entry, rfl, bind_eq_ok.2 ⟨entries, ih, rfl⟩⟩

/-- The decoder reads every ring back. -/
theorem decode_encodeRecoveryRingManifest {key : JournalIntegrityKey}
    {entries : List RecoveryRingEntry} {bytes : List UInt8}
    (h : encodeRecoveryRingManifest key entries = .ok bytes) :
    decodeRecoveryRingManifest key bytes = .ok entries := by
  obtain ⟨⟨⟩, hvalid, h⟩ := bind_eq_ok.1 h
  obtain rfl := Except.ok.inj h
  have hsixteen : entries.length ≤ 16 := by
    obtain ⟨hcount, -⟩ := reject_bind_eq_ok.1 hvalid
    rw [decide_eq_false_iff_not] at hcount
    omega
  have hmanifest := length_manifestBytes entries
  set tag := (recoveryRingManifestTag key (manifestBytes entries)).toList with htag
  have htagLength : tag.length = 32 := List.Vector.toList_length _
  have hlen : (manifestBytes entries ++ tag).length = 34 + 9 * entries.length := by
    rw [List.length_append, hmanifest, htagLength]
    omega
  have hstart : (manifestBytes entries ++ tag).length - 32 = (manifestBytes entries).length := by
    omega
  have hcount : (byteAt (manifestBytes entries ++ tag) 1).toNat = entries.length := by
    show (UInt8.ofNat entries.length).toNat = _
    rw [UInt8.toNat_ofNat']
    omega
  have hbody : slice (manifestBytes entries ++ tag) 2 (manifestBytes entries).length =
      (entries.map ringEntryBytes).flatten := by
    show ((entries.map ringEntryBytes).flatten ++ tag).take _ = _
    refine List.take_left' ?_
    show (entries.map ringEntryBytes).flatten.length =
      (entries.map ringEntryBytes).flatten.length + 2 - 2
    omega
  have hchunks := chunksExact_flatten (n := 9) (entries.map ringEntryBytes) (by simp)
  rw [List.length_map] at hchunks
  unfold decodeRecoveryRingManifest
  simp only [hstart, hcount, hbody, List.drop_left, List.take_left, hchunks]
  refine reject_bind_eq_ok.2 ⟨by rw [decide_eq_false_iff_not]; omega, ?_⟩
  refine reject_bind_eq_ok.2 ⟨by rw [decide_eq_false_iff_not]; omega, ?_⟩
  refine reject_bind_eq_ok.2 ⟨by rw [bne_eq_false_iff_eq, hlen], ?_⟩
  refine reject_bind_eq_ok.2 ⟨by rw [bne_eq_false_iff_eq], ?_⟩
  refine reject_bind_eq_ok.2 ⟨rfl, ?_⟩
  refine bind_eq_ok.2 ⟨entries, mapM_readRingEntry entries, ?_⟩
  exact bind_eq_ok.2 ⟨(), hvalid, rfl⟩

theorem length_encodeRecoveryRingManifest {key : JournalIntegrityKey}
    {entries : List RecoveryRingEntry} {bytes : List UInt8}
    (h : encodeRecoveryRingManifest key entries = .ok bytes) : bytes.length ≤ 178 := by
  obtain ⟨⟨⟩, hvalid, h⟩ := bind_eq_ok.1 h
  obtain rfl := Except.ok.inj h
  obtain ⟨hcount, -⟩ := reject_bind_eq_ok.1 hvalid
  rw [decide_eq_false_iff_not] at hcount
  rw [List.length_append, length_manifestBytes, List.Vector.toList_length]
  omega

/-! ### The active state pointer -/

/-- How the generation came to be the active one. -/
inductive PointerOrigin
  | bootstrap
  | restore
  | rollback
  deriving DecidableEq, Repr

/-- The certificate of the generation that is active. -/
structure ActiveStatePointer where
  protocolVersion : UInt32
  transitionId : String
  finalGeneration : UInt64
  lineageId : String
  targetHistoryEpoch : ByteVec 32
  origin : PointerOrigin
  databaseCertificateDigest : ByteVec 32
  deriving DecidableEq

/-- The error of the pointer's codec. -/
inductive ActiveStatePointerError
  | invalidActiveStatePointer
  deriving DecidableEq, Repr

/-- The number of an origin. -/
def PointerOrigin.code : PointerOrigin → UInt8
  | .bootstrap => 1
  | .restore => 2
  | .rollback => 3

/-- The origin of a number. -/
def PointerOrigin.fromCode (code : UInt8) : Except ActiveStatePointerError PointerOrigin :=
  if code = 1 then .ok .bootstrap
  else if code = 2 then .ok .restore
  else if code = 3 then .ok .rollback
  else .error .invalidActiveStatePointer

/-- The label of pointer tags. -/
def activeStatePointerDomain : List UInt8 := utf8Bytes "msgriver/active-state-pointer/v1"

/-- The tag behind a pointer. -/
def activeStatePointerTag (key : JournalIntegrityKey) (bytes : List UInt8) : ByteVec 32 :=
  key.tag activeStatePointerDomain bytes

/-- The length of a certificate with identifiers of the given lengths. -/
def pointerLength (transitionLength lineageLength : ℕ) : Except ActiveStatePointerError ℕ :=
  if (1 ≤ transitionLength ∧ transitionLength ≤ 255) ∧ (1 ≤ lineageLength ∧ lineageLength ≤ 255)
  then .ok (114 + transitionLength + lineageLength)
  else .error .invalidActiveStatePointer

/-- Both identifiers have 1 to 255 bytes and no NUL, and the numbers are not zero. -/
def validatePointer (pointer : ActiveStatePointer) : Except ActiveStatePointerError Unit := do
  let _ ← pointerLength (utf8Bytes pointer.transitionId).length (utf8Bytes pointer.lineageId).length
  reject (pointer.transitionId.toList.contains '\x00' || pointer.lineageId.toList.contains '\x00'
    || pointer.finalGeneration == 0 || pointer.databaseCertificateDigest == ByteVec.zero 32)
    .invalidActiveStatePointer

/-- The fields of a certificate before its tag. -/
def pointerFields (pointer : ActiveStatePointer) : List (List UInt8) :=
  let transition := utf8Bytes pointer.transitionId
  let lineage := utf8Bytes pointer.lineageId
  [[1], wire pointer.protocolVersion, wire (UInt16.ofNat transition.length), transition,
    wire pointer.finalGeneration, wire (UInt16.ofNat lineage.length), lineage,
    pointer.targetHistoryEpoch.toList, [pointer.origin.code],
    pointer.databaseCertificateDigest.toList]

/-- The pointer and its tag. -/
def encodeActiveStatePointer (key : JournalIntegrityKey) (pointer : ActiveStatePointer) :
    Except ActiveStatePointerError (List UInt8) := do
  validatePointer pointer
  let bytes := (pointerFields pointer).flatten
  return bytes ++ (activeStatePointerTag key bytes).toList

/-- Reads a length from 1 to 255. -/
def readLength (bytes : List UInt8) : Except ActiveStatePointerError ℕ := do
  let length : UInt16 ← orError .invalidActiveStatePointer (unwire? bytes)
  reject (!(decide (1 ≤ length.toNat ∧ length.toNat ≤ 255))) .invalidActiveStatePointer
  return length.toNat

/-- An identifier is UTF-8 without NUL. -/
def validatedIdentifier (bytes : List UInt8) : Except ActiveStatePointerError String := do
  let identifier ← orError .invalidActiveStatePointer (String.fromUTF8? ⟨bytes.toArray⟩)
  reject (identifier.toList.contains '\x00') .invalidActiveStatePointer
  return identifier

/-- Reads a pointer; the lengths of its identifiers fix its own. -/
def decodeActiveStatePointer (key : JournalIntegrityKey) (wire : List UInt8) :
    Except ActiveStatePointerError ActiveStatePointer := do
  reject (!(decide (116 ≤ wire.length ∧ wire.length ≤ 624)) || decide (wire.length < 7))
    .invalidActiveStatePointer
  let transitionLength ← readLength (slice wire 5 7)
  reject (decide (wire.length < 17 + transitionLength)) .invalidActiveStatePointer
  let lineageLengthStart := 15 + transitionLength
  let lineageLength ← readLength (slice wire lineageLengthStart (lineageLengthStart + 2))
  let totalLength ← pointerLength transitionLength lineageLength
  reject (wire.length != totalLength) .invalidActiveStatePointer
  let tagStart := wire.length - 32
  reject (wire.drop tagStart != (activeStatePointerTag key (wire.take tagStart)).toList)
    .invalidActiveStatePointer
  reject (byteAt wire 0 != 1) .invalidActiveStatePointer
  let generationStart := 7 + transitionLength
  let lineageStart := lineageLengthStart + 2
  let epochStart := lineageStart + lineageLength
  let originStart := epochStart + 32
  let digestStart := originStart + 1
  let protocolVersion ← orError .invalidActiveStatePointer (unwire? (slice wire 1 5))
  let transitionId ← validatedIdentifier (slice wire 7 generationStart)
  let finalGeneration ←
    orError .invalidActiveStatePointer (unwire? (slice wire generationStart lineageLengthStart))
  let lineageId ← validatedIdentifier (slice wire lineageStart epochStart)
  let targetHistoryEpoch ←
    orError .invalidActiveStatePointer (toVec? 32 (slice wire epochStart originStart))
  let origin ← PointerOrigin.fromCode (byteAt wire originStart)
  let databaseCertificateDigest ←
    orError .invalidActiveStatePointer (toVec? 32 (slice wire digestStart tagStart))
  let pointer : ActiveStatePointer :=
    ⟨protocolVersion, transitionId, finalGeneration, lineageId, targetHistoryEpoch, origin,
      databaseCertificateDigest⟩
  validatePointer pointer
  return pointer

theorem PointerOrigin.fromCode_code (origin : PointerOrigin) :
    PointerOrigin.fromCode origin.code = .ok origin := by
  cases origin <;> rfl

theorem fromUTF8?_utf8Bytes (s : String) : String.fromUTF8? ⟨(utf8Bytes s).toArray⟩ = some s := by
  have hbytes : (⟨(utf8Bytes s).toArray⟩ : ByteArray) = s.toByteArray := by
    rw [utf8Bytes, Array.toArray_toList]
  rw [hbytes, String.fromUTF8?, dif_pos s.isValidUTF8]
  rfl

theorem validatedIdentifier_utf8Bytes {s : String} (h : s.toList.contains '\x00' = false) :
    validatedIdentifier (utf8Bytes s) = .ok s :=
  orError_bind_eq_ok.2 ⟨s, fromUTF8?_utf8Bytes s, reject_bind_eq_ok.2 ⟨h, rfl⟩⟩

theorem readLength_wire {n : ℕ} (h1 : 1 ≤ n) (h255 : n ≤ 255) :
    readLength (wire (UInt16.ofNat n)) = .ok n := by
  have hn : (UInt16.ofNat n).toNat = n := by
    rw [UInt16.toNat_ofNat']
    omega
  refine orError_bind_eq_ok.2 ⟨UInt16.ofNat n, unwire?_eq_some.2 rfl, ?_⟩
  rw [hn]
  exact reject_bind_eq_ok.2 ⟨by simp [h1, h255], rfl⟩

/-- What a valid certificate satisfies. -/
theorem validatePointer_eq_ok {pointer : ActiveStatePointer} {u : Unit}
    (h : validatePointer pointer = .ok u) :
    ((1 ≤ (utf8Bytes pointer.transitionId).length ∧ (utf8Bytes pointer.transitionId).length ≤ 255) ∧
      (1 ≤ (utf8Bytes pointer.lineageId).length ∧ (utf8Bytes pointer.lineageId).length ≤ 255)) ∧
      pointer.transitionId.toList.contains '\x00' = false ∧
      pointer.lineageId.toList.contains '\x00' = false := by
  obtain ⟨total, htotal, h⟩ := bind_eq_ok.1 h
  rw [reject_eq_ok] at h
  simp only [Bool.or_eq_false_iff] at h
  unfold pointerLength at htotal
  split_ifs at htotal with hlengths
  exact ⟨hlengths, h.1.1.1, h.1.1.2⟩

theorem length_pointerFields (pointer : ActiveStatePointer) :
    (pointerFields pointer).flatten.length =
      82 + (utf8Bytes pointer.transitionId).length + (utf8Bytes pointer.lineageId).length := by
  simp [pointerFields]
  omega

theorem length_encodeActiveStatePointer {key : JournalIntegrityKey} {pointer : ActiveStatePointer}
    {bytes : List UInt8} (h : encodeActiveStatePointer key pointer = .ok bytes) :
    bytes.length ≤ 624 := by
  obtain ⟨⟨⟩, hvalid, h⟩ := bind_eq_ok.1 h
  obtain rfl := Except.ok.inj h
  have hlengths := (validatePointer_eq_ok hvalid).1
  rw [List.length_append, length_pointerFields, List.Vector.toList_length]
  omega

/-- The decoder reads every certificate back. -/
theorem decode_encodeActiveStatePointer {key : JournalIntegrityKey} {pointer : ActiveStatePointer}
    {bytes : List UInt8} (h : encodeActiveStatePointer key pointer = .ok bytes) :
    decodeActiveStatePointer key bytes = .ok pointer := by
  have hmax := length_encodeActiveStatePointer h
  obtain ⟨⟨⟩, hvalid, h⟩ := bind_eq_ok.1 h
  obtain ⟨⟨htransition, hlineage⟩, hzero, hzero'⟩ := validatePointer_eq_ok hvalid
  have hfields := length_pointerFields pointer
  obtain rfl := Except.ok.inj h
  set tag := (activeStatePointerTag key (pointerFields pointer).flatten).toList with htag
  have htagLength : tag.length = 32 := List.Vector.toList_length _
  generalize htl : (utf8Bytes pointer.transitionId).length = tl at *
  generalize hll : (utf8Bytes pointer.lineageId).length = ll at *
  have hlen : ((pointerFields pointer).flatten ++ tag).length = 114 + tl + ll := by
    rw [List.length_append, hfields, htagLength]
    omega
  have hstart : ((pointerFields pointer).flatten ++ tag).length - 32 =
      (pointerFields pointer).flatten.length := by omega
  -- each field is a slice of the wire that starts where the ones before it end
  have hfield : ∀ {i a b : ℕ} {field : List UInt8},
      (pointerFields pointer ++ [tag])[i]? = some field →
      a = ((pointerFields pointer ++ [tag]).take i).flatten.length → b = a + field.length →
      slice ((pointerFields pointer).flatten ++ tag) a b = field := by
    intro i a b field hi ha hb
    have hslice := slice_flatten hi ha hb
    rwa [List.flatten_append, List.flatten_singleton] at hslice
  have h0 : byteAt ((pointerFields pointer).flatten ++ tag) 0 = 1 := rfl
  have h5 : slice ((pointerFields pointer).flatten ++ tag) 5 7 = wire (UInt16.ofNat tl) :=
    hfield (i := 2) (by rw [← htl]; rfl) (by simp [pointerFields]) (by simp)
  have h15 : slice ((pointerFields pointer).flatten ++ tag) (15 + tl) (15 + tl + 2) =
      wire (UInt16.ofNat ll) :=
    hfield (i := 5) (by rw [← hll]; rfl) (by simp [pointerFields, htl]; omega) (by simp)
  have horigin : byteAt ((pointerFields pointer).flatten ++ tag) (15 + tl + 2 + ll + 32) =
      pointer.origin.code :=
    byteAt_of_slice (hfield (i := 8) rfl (by simp [pointerFields, htl, hll]; omega) (by simp))
  unfold decodeActiveStatePointer
  simp only [hstart, List.drop_left, List.take_left]
  refine reject_bind_eq_ok.2 ⟨?_, ?_⟩
  · simp only [Bool.or_eq_false_iff, Bool.not_eq_false', decide_eq_true_eq, decide_eq_false_iff_not]
    omega
  rw [h5]
  refine bind_eq_ok.2 ⟨tl, readLength_wire htransition.1 htransition.2, ?_⟩
  refine reject_bind_eq_ok.2 ⟨by rw [decide_eq_false_iff_not]; omega, ?_⟩
  rw [h15]
  refine bind_eq_ok.2 ⟨ll, readLength_wire hlineage.1 hlineage.2, ?_⟩
  refine bind_eq_ok.2 ⟨114 + tl + ll, if_pos ⟨htransition, hlineage⟩, ?_⟩
  refine reject_bind_eq_ok.2 ⟨by rw [bne_eq_false_iff_eq, hlen], ?_⟩
  refine reject_bind_eq_ok.2 ⟨bne_self_eq_false _, ?_⟩
  refine reject_bind_eq_ok.2 ⟨by rw [bne_eq_false_iff_eq, h0], ?_⟩
  refine orError_bind_eq_ok.2 ⟨pointer.protocolVersion, unwire?_eq_some.2
    (hfield (i := 1) rfl rfl rfl).symm, ?_⟩
  refine bind_eq_ok.2 ⟨pointer.transitionId, ?_, ?_⟩
  · rw [hfield (i := 3) rfl (by simp [pointerFields]) (by rw [htl])]
    exact validatedIdentifier_utf8Bytes hzero
  refine orError_bind_eq_ok.2 ⟨pointer.finalGeneration, unwire?_eq_some.2
    (hfield (i := 4) rfl (by simp [pointerFields, htl]; omega) (by simp; omega)).symm, ?_⟩
  refine bind_eq_ok.2 ⟨pointer.lineageId, ?_, ?_⟩
  · rw [hfield (i := 6) rfl (by simp [pointerFields, htl]; omega) (by rw [hll])]
    exact validatedIdentifier_utf8Bytes hzero'
  refine orError_bind_eq_ok.2 ⟨pointer.targetHistoryEpoch, toVec?_eq_some.2
    (hfield (i := 7) rfl (by simp [pointerFields, htl, hll]; omega) (by simp)).symm, ?_⟩
  rw [horigin]
  refine bind_eq_ok.2 ⟨pointer.origin, PointerOrigin.fromCode_code _, ?_⟩
  refine orError_bind_eq_ok.2 ⟨pointer.databaseCertificateDigest, toVec?_eq_some.2
    (hfield (i := 9) rfl (by simp [pointerFields, htl, hll]; omega)
      (by rw [hfields, List.Vector.toList_length]; omega)).symm, ?_⟩
  exact bind_eq_ok.2 ⟨(), hvalid, rfl⟩

end MsgRiver.Journal
