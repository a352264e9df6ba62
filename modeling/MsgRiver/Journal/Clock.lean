import MsgRiver.Lib.Bytes
import MsgRiver.Lib.Result

/-!
# Clock checkpoint bodies and the clock authority

The two clock codecs of the control journal: the body of a clock checkpoint record, and the clock
authority member of a checkpoint.  Both decoders read fixed positions of the wire.  The body decoder
accepts a wire exactly when it is the encoding of the value it answers
(`decodeClockCheckpointBody_eq_ok`), and the authority decoder reads every encoding back
(`decode_encodeClockAuthorityProjection`).
-/

namespace MsgRiver.Journal

open Bytes Result

/-- The mode in which the process ran. -/
inductive RuntimeMode
  | normal
  | maintenance
  deriving DecidableEq, Repr

/-- Why the clock was recorded. -/
inductive CheckpointReason
  | periodic
  | automaticSettlement
  | cleanShutdown
  | expiryProof
  deriving DecidableEq, Repr

/-- The hold that a record of the clock is about. -/
structure NamedHold where
  generation : UInt64
  observationDigest : ByteVec 32
  deriving DecidableEq

/-- The transaction that a record of the clock was copied for. -/
structure PreMirrorWitness where
  selectedOrigin : ByteVec 32
  transactionSequence : UInt64
  transactionDigest : ByteVec 32
  deriving DecidableEq

/-- The body of a record of the clock. -/
structure ClockCheckpointBody where
  runtimeMode : RuntimeMode
  processInstance : ByteVec 16
  acceptedWallTime : Int64
  acceptedMonotonicTick : Int64
  priorSafeTime : Int64
  newSafeTime : Int64
  reason : CheckpointReason
  hold : Option NamedHold
  preMirror : Option PreMirrorWitness
  deriving DecidableEq

/-- The error of the body's codec. -/
inductive ClockCheckpointBodyError
  | invalidBody
  deriving DecidableEq, Repr

/-- The number of a mode. -/
def RuntimeMode.code : RuntimeMode → UInt8
  | .normal => 1
  | .maintenance => 2

/-- The mode of a number. -/
def RuntimeMode.fromCode (code : UInt8) : Except ClockCheckpointBodyError RuntimeMode :=
  if code = 1 then .ok .normal
  else if code = 2 then .ok .maintenance
  else .error .invalidBody

/-- The number of a reason. -/
def CheckpointReason.code : CheckpointReason → UInt8
  | .periodic => 1
  | .automaticSettlement => 2
  | .cleanShutdown => 3
  | .expiryProof => 4

/-- The reason of a number. -/
def CheckpointReason.fromCode (code : UInt8) : Except ClockCheckpointBodyError CheckpointReason :=
  if code = 1 then .ok .periodic
  else if code = 2 then .ok .automaticSettlement
  else if code = 3 then .ok .cleanShutdown
  else if code = 4 then .ok .expiryProof
  else .error .invalidBody

/-- The last eight bytes of an origin, its branch serial, are zero. -/
def zeroSerial (origin : ByteVec 32) : Bool := origin.toList.drop 24 == List.replicate 8 0

/-- The hold that a body names fits its reason. -/
def holdFits (reason : CheckpointReason) (hold : Option NamedHold) : Bool :=
  match reason, hold with
  | .automaticSettlement, some hold =>
    !(hold.generation == 0 || hold.observationDigest == ByteVec.zero 32)
  | .automaticSettlement, none => false
  | _, some _ => false
  | _, none => true

/-- The safe time moves to the larger of the prior one and the accepted one, and the hold fits the
reason. -/
def validateBody (body : ClockCheckpointBody) : Except ClockCheckpointBodyError Unit := do
  reject (body.processInstance == ByteVec.zero 16
    || decide (body.acceptedMonotonicTick < 0)
    || body.newSafeTime != max body.priorSafeTime body.acceptedWallTime) .invalidBody
  reject (!holdFits body.reason body.hold) .invalidBody
  reject (body.preMirror.any fun mirror =>
    zeroSerial mirror.selectedOrigin || mirror.transactionDigest == ByteVec.zero 32) .invalidBody

/-- `u8::from` of a presence. -/
def presence (present : Bool) : UInt8 := if present then 1 else 0

/-- A byte that says whether something follows. -/
def presenceTag {ε : Type} (e : ε) (tag : UInt8) : Except ε Bool :=
  if tag = 0 then .ok false
  else if tag = 1 then .ok true
  else .error e

/-- The fields of a named hold on the wire. -/
def holdFields : Option NamedHold → List (List UInt8)
  | some hold => [wire hold.generation, hold.observationDigest.toList]
  | none => []

/-- The fields of a pre-mirror witness on the wire. -/
def mirrorFields : Option PreMirrorWitness → List (List UInt8)
  | some mirror => [mirror.selectedOrigin.toList, wire mirror.transactionSequence,
      mirror.transactionDigest.toList]
  | none => []

/-- The fields of a body, in the order in which they are written. -/
def bodyFields (body : ClockCheckpointBody) : List (List UInt8) :=
  [[1], [body.runtimeMode.code], body.processInstance.toList, wire body.acceptedWallTime,
    wire body.acceptedMonotonicTick, wire body.priorSafeTime, wire body.newSafeTime,
    [body.reason.code], [presence body.hold.isSome], [presence body.preMirror.isSome]]
  ++ (holdFields body.hold ++ mirrorFields body.preMirror)

/-- `encode_clock_checkpoint_body`. -/
def encodeClockCheckpointBody (body : ClockCheckpointBody) :
    Except ClockCheckpointBodyError (List UInt8) := do
  validateBody body
  return (bodyFields body).flatten

/-- The length of a body on the wire. -/
def bodyLength (hold mirror : Bool) : ℕ :=
  53 + (if hold then 40 else 0) + (if mirror then 72 else 0)

/-- The hold at `offset`. -/
def readHold (present : Bool) (bytes : List UInt8) (offset : ℕ) :
    Except ClockCheckpointBodyError (Option NamedHold) :=
  if present then do
    let generation ← orError .invalidBody (unwire? (slice bytes offset (offset + 8)))
    let observationDigest ← orError .invalidBody (toVec? 32 (slice bytes (offset + 8) (offset + 40)))
    return some ⟨generation, observationDigest⟩
  else .ok none

/-- The pre-mirror witness at `offset`. -/
def readMirror (present : Bool) (bytes : List UInt8) (offset : ℕ) :
    Except ClockCheckpointBodyError (Option PreMirrorWitness) :=
  if present then do
    let selectedOrigin ← orError .invalidBody (toVec? 32 (slice bytes offset (offset + 32)))
    let transactionSequence ←
      orError .invalidBody (unwire? (slice bytes (offset + 32) (offset + 40)))
    let transactionDigest ←
      orError .invalidBody (toVec? 32 (slice bytes (offset + 40) (offset + 72)))
    return some ⟨selectedOrigin, transactionSequence, transactionDigest⟩
  else .ok none

/-- `decode_clock_checkpoint_body`: the tags of presence fix the length. -/
def decodeClockCheckpointBody (bytes : List UInt8) :
    Except ClockCheckpointBodyError ClockCheckpointBody := do
  reject (decide (bytes.length < 53) || byteAt bytes 0 != 1) .invalidBody
  let holdPresent ← presenceTag .invalidBody (byteAt bytes 51)
  let mirrorPresent ← presenceTag .invalidBody (byteAt bytes 52)
  reject (bytes.length != bodyLength holdPresent mirrorPresent) .invalidBody
  let runtimeMode ← RuntimeMode.fromCode (byteAt bytes 1)
  let processInstance ← orError .invalidBody (toVec? 16 (slice bytes 2 18))
  let acceptedWallTime ← orError .invalidBody (unwire? (slice bytes 18 26))
  let acceptedMonotonicTick ← orError .invalidBody (unwire? (slice bytes 26 34))
  let priorSafeTime ← orError .invalidBody (unwire? (slice bytes 34 42))
  let newSafeTime ← orError .invalidBody (unwire? (slice bytes 42 50))
  let reason ← CheckpointReason.fromCode (byteAt bytes 50)
  let hold ← readHold holdPresent bytes 53
  let preMirror ← readMirror mirrorPresent bytes (53 + if holdPresent then 40 else 0)
  let body : ClockCheckpointBody :=
    ⟨runtimeMode, processInstance, acceptedWallTime, acceptedMonotonicTick, priorSafeTime,
      newSafeTime, reason, hold, preMirror⟩
  validateBody body
  return body

/-! ### Codes and presence tags -/

theorem RuntimeMode.fromCode_eq_ok {code : UInt8} {mode : RuntimeMode} :
    RuntimeMode.fromCode code = .ok mode ↔ code = mode.code := by
  unfold RuntimeMode.fromCode
  split_ifs with h1 h2
  · subst h1; cases mode <;> decide
  · subst h2; cases mode <;> decide
  · cases mode <;> simp [RuntimeMode.code, h1, h2]

theorem CheckpointReason.fromCode_eq_ok {code : UInt8} {reason : CheckpointReason} :
    CheckpointReason.fromCode code = .ok reason ↔ code = reason.code := by
  unfold CheckpointReason.fromCode
  split_ifs with h1 h2 h3 h4
  · subst h1; cases reason <;> decide
  · subst h2; cases reason <;> decide
  · subst h3; cases reason <;> decide
  · subst h4; cases reason <;> decide
  · cases reason <;> simp [CheckpointReason.code, h1, h2, h3, h4]

theorem presenceTag_eq_ok {ε : Type} {e : ε} {tag : UInt8} {present : Bool} :
    presenceTag e tag = .ok present ↔ tag = presence present := by
  unfold presenceTag
  split_ifs with h0 h1
  · subst h0; cases present <;> simp [presence]
  · subst h1; cases present <;> simp [presence]
  · cases present <;> simp [presence, h0, h1]

theorem readHold_eq_ok {present : Bool} {bytes : List UInt8} {offset : ℕ}
    {hold : Option NamedHold} :
    readHold present bytes offset = .ok hold ↔ present = hold.isSome ∧
      ∀ h ∈ hold, wire h.generation = slice bytes offset (offset + 8) ∧
        h.observationDigest.toList = slice bytes (offset + 8) (offset + 40) := by
  cases present with
  | false => cases hold <;> simp [readHold]
  | true =>
    simp only [readHold, if_true, orError_bind_eq_ok, unwire?_eq_some, toVec?_eq_some, pure_eq_ok]
    constructor
    · rintro ⟨generation, hgen, digest, hdigest, rfl⟩
      simp [hgen, hdigest]
    · rintro ⟨hsome, hfields⟩
      obtain ⟨h, rfl⟩ := Option.isSome_iff_exists.1 hsome.symm
      exact ⟨h.generation, (hfields h rfl).1, h.observationDigest, (hfields h rfl).2, rfl⟩

theorem readMirror_eq_ok {present : Bool} {bytes : List UInt8} {offset : ℕ}
    {mirror : Option PreMirrorWitness} :
    readMirror present bytes offset = .ok mirror ↔ present = mirror.isSome ∧
      ∀ m ∈ mirror, m.selectedOrigin.toList = slice bytes offset (offset + 32) ∧
        wire m.transactionSequence = slice bytes (offset + 32) (offset + 40) ∧
        m.transactionDigest.toList = slice bytes (offset + 40) (offset + 72) := by
  cases present with
  | false => cases mirror <;> simp [readMirror]
  | true =>
    simp only [readMirror, if_true, orError_bind_eq_ok, unwire?_eq_some, toVec?_eq_some, pure_eq_ok]
    constructor
    · rintro ⟨origin, horigin, sequence, hsequence, digest, hdigest, rfl⟩
      simp [horigin, hsequence, hdigest]
    · rintro ⟨hsome, hfields⟩
      obtain ⟨m, rfl⟩ := Option.isSome_iff_exists.1 hsome.symm
      exact ⟨_, (hfields m rfl).1, _, (hfields m rfl).2.1, _, (hfields m rfl).2.2, rfl⟩

/-! ### The body codec -/

theorem length_bodyFields (body : ClockCheckpointBody) :
    (bodyFields body).flatten.length = bodyLength body.hold.isSome body.preMirror.isSome := by
  cases hh : body.hold <;> cases hm : body.preMirror <;>
    simp [bodyFields, holdFields, mirrorFields, bodyLength, hh, hm]

/-- One field of the encoding of a body, by its position. -/
theorem slice_bodyFields {body : ClockCheckpointBody} {i a b : ℕ} {field : List UInt8}
    (hfield : (bodyFields body)[i]? = some field)
    (ha : a = ((bodyFields body).take i).flatten.length) (hb : b = a + field.length) :
    slice (bodyFields body).flatten a b = field :=
  slice_flatten hfield ha hb

/-- The decoder reads a valid body back. -/
theorem decode_bodyFields {body : ClockCheckpointBody} (hvalid : validateBody body = .ok ()) :
    decodeClockCheckpointBody (bodyFields body).flatten = .ok body := by
  have hlen := length_bodyFields body
  have h0 : byteAt (bodyFields body).flatten 0 = 1 :=
    byteAt_of_slice (slice_bodyFields (i := 0) rfl rfl rfl)
  have h1 : byteAt (bodyFields body).flatten 1 = body.runtimeMode.code :=
    byteAt_of_slice (slice_bodyFields (i := 1) rfl (by simp [bodyFields]) rfl)
  have h50 : byteAt (bodyFields body).flatten 50 = body.reason.code :=
    byteAt_of_slice (slice_bodyFields (i := 7) rfl (by simp [bodyFields]) rfl)
  have h51 : byteAt (bodyFields body).flatten 51 = presence body.hold.isSome :=
    byteAt_of_slice (slice_bodyFields (i := 8) rfl (by simp [bodyFields]) rfl)
  have h52 : byteAt (bodyFields body).flatten 52 = presence body.preMirror.isSome :=
    byteAt_of_slice (slice_bodyFields (i := 9) rfl (by simp [bodyFields]) rfl)
  unfold decodeClockCheckpointBody
  refine reject_bind_eq_ok.2 ⟨by simp [hlen, bodyLength, h0]; omega, ?_⟩
  refine bind_eq_ok.2 ⟨_, presenceTag_eq_ok.2 h51, ?_⟩
  refine bind_eq_ok.2 ⟨_, presenceTag_eq_ok.2 h52, ?_⟩
  refine reject_bind_eq_ok.2 ⟨by simp [hlen], ?_⟩
  refine bind_eq_ok.2 ⟨_, RuntimeMode.fromCode_eq_ok.2 h1, ?_⟩
  refine orError_bind_eq_ok.2 ⟨body.processInstance, toVec?_eq_some.2
    (slice_bodyFields (i := 2) rfl (by simp [bodyFields]) (by simp)).symm, ?_⟩
  refine orError_bind_eq_ok.2 ⟨body.acceptedWallTime, unwire?_eq_some.2
    (slice_bodyFields (i := 3) rfl (by simp [bodyFields]) (by simp)).symm, ?_⟩
  refine orError_bind_eq_ok.2 ⟨body.acceptedMonotonicTick, unwire?_eq_some.2
    (slice_bodyFields (i := 4) rfl (by simp [bodyFields]) (by simp)).symm, ?_⟩
  refine orError_bind_eq_ok.2 ⟨body.priorSafeTime, unwire?_eq_some.2
    (slice_bodyFields (i := 5) rfl (by simp [bodyFields]) (by simp)).symm, ?_⟩
  refine orError_bind_eq_ok.2 ⟨body.newSafeTime, unwire?_eq_some.2
    (slice_bodyFields (i := 6) rfl (by simp [bodyFields]) (by simp)).symm, ?_⟩
  refine bind_eq_ok.2 ⟨_, CheckpointReason.fromCode_eq_ok.2 h50, ?_⟩
  refine bind_eq_ok.2 ⟨body.hold, readHold_eq_ok.2 ⟨rfl, ?_⟩, ?_⟩
  · rintro h (hh : body.hold = some h)
    constructor
    · exact (slice_bodyFields (i := 10) (by simp [bodyFields, holdFields, hh])
        (by simp [bodyFields]) (by simp)).symm
    · exact (slice_bodyFields (i := 11) (by simp [bodyFields, holdFields, hh])
        (by simp [bodyFields, holdFields, hh]) (by simp)).symm
  refine bind_eq_ok.2 ⟨body.preMirror, readMirror_eq_ok.2 ⟨rfl, ?_⟩, ?_⟩
  · rintro m (hm : body.preMirror = some m)
    -- the witness follows the hold, whose fields shift it by two places and forty bytes
    cases hh : body.hold with
    | none =>
      refine ⟨?_, ?_, ?_⟩
      · exact (slice_bodyFields (i := 10) (by simp [bodyFields, holdFields, mirrorFields, hh, hm])
          (by simp [bodyFields]) (by simp)).symm
      · exact (slice_bodyFields (i := 11) (by simp [bodyFields, holdFields, mirrorFields, hh, hm])
          (by simp [bodyFields, holdFields, mirrorFields, hh, hm]) (by simp)).symm
      · exact (slice_bodyFields (i := 12) (by simp [bodyFields, holdFields, mirrorFields, hh, hm])
          (by simp [bodyFields, holdFields, mirrorFields, hh, hm]) (by simp)).symm
    | some h =>
      refine ⟨?_, ?_, ?_⟩
      · exact (slice_bodyFields (i := 12) (by simp [bodyFields, holdFields, mirrorFields, hh, hm])
          (by simp [bodyFields, holdFields, hh]) (by simp)).symm
      · exact (slice_bodyFields (i := 13) (by simp [bodyFields, holdFields, mirrorFields, hh, hm])
          (by simp [bodyFields, holdFields, mirrorFields, hh, hm]) (by simp)).symm
      · exact (slice_bodyFields (i := 14) (by simp [bodyFields, holdFields, mirrorFields, hh, hm])
          (by simp [bodyFields, holdFields, mirrorFields, hh, hm]) (by simp)).symm
  exact bind_eq_ok.2 ⟨(), hvalid, rfl⟩

/-- The fields of the optional parts, as pieces of the wire they were read from. -/
theorem optionalFields_eq {bytes : List UInt8} {hold : Option NamedHold}
    {mirror : Option PreMirrorWitness} (hlen : bytes.length = bodyLength hold.isSome mirror.isSome)
    (hhold : ∀ h ∈ hold, wire h.generation = slice bytes 53 61 ∧
      h.observationDigest.toList = slice bytes 61 93)
    (hmirror : ∀ m ∈ mirror,
      let offset := 53 + if hold.isSome then 40 else 0
      m.selectedOrigin.toList = slice bytes offset (offset + 32) ∧
        wire m.transactionSequence = slice bytes (offset + 32) (offset + 40) ∧
        m.transactionDigest.toList = slice bytes (offset + 40) (offset + 72)) :
    (holdFields hold ++ mirrorFields mirror).flatten = bytes.drop 53 := by
  -- each presence moves the cut points of the rest
  cases hold with
  | none =>
    cases mirror with
    | none =>
      have hend : bytes.length ≤ 53 := by rw [hlen]; decide
      rw [List.drop_eq_nil_of_le hend]
      rfl
    | some m =>
      obtain ⟨h1, h2, h3⟩ := hmirror m rfl
      have hend : bytes.drop 93 = slice bytes 93 125 := by
        rw [drop_eq_slice, hlen]
        rfl
      simp only [holdFields, mirrorFields, h1, h2, h3, List.nil_append]
      rw [← flatten_cutAt bytes 53 [85, 93] (by decide)]
      simp only [cutAt, hend]
      rfl
  | some h =>
    obtain ⟨h1, h2⟩ := hhold h rfl
    cases mirror with
    | none =>
      have hend : bytes.drop 61 = slice bytes 61 93 := by
        rw [drop_eq_slice, hlen]
        rfl
      simp only [holdFields, mirrorFields, h1, h2, List.append_nil]
      rw [← flatten_cutAt bytes 53 [61] (by decide)]
      simp only [cutAt, hend]
    | some m =>
      obtain ⟨h3, h4, h5⟩ := hmirror m rfl
      have hend : bytes.drop 133 = slice bytes 133 165 := by
        rw [drop_eq_slice, hlen]
        rfl
      simp only [holdFields, mirrorFields, h1, h2, h3, h4, h5]
      rw [← flatten_cutAt bytes 53 [61, 93, 125, 133] (by decide)]
      simp only [cutAt, hend]
      rfl

/-- **The body decoder accepts exactly the encodings.** -/
theorem decodeClockCheckpointBody_eq_ok {bytes : List UInt8} {body : ClockCheckpointBody} :
    decodeClockCheckpointBody bytes = .ok body ↔ encodeClockCheckpointBody body = .ok bytes := by
  constructor
  · intro h
    obtain ⟨hmin, h⟩ := reject_bind_eq_ok.1 h
    simp only [Bool.or_eq_false_iff, decide_eq_false_iff_not, not_lt, bne_eq_false_iff_eq] at hmin
    obtain ⟨holdPresent, hhp, h⟩ := bind_eq_ok.1 h
    obtain ⟨mirrorPresent, hmp, h⟩ := bind_eq_ok.1 h
    obtain ⟨hlen, h⟩ := reject_bind_eq_ok.1 h
    obtain ⟨mode, hmode, h⟩ := bind_eq_ok.1 h
    obtain ⟨process, hprocess, h⟩ := orError_bind_eq_ok.1 h
    obtain ⟨wall, hwall, h⟩ := orError_bind_eq_ok.1 h
    obtain ⟨tick, htick, h⟩ := orError_bind_eq_ok.1 h
    obtain ⟨prior, hprior, h⟩ := orError_bind_eq_ok.1 h
    obtain ⟨next, hnext, h⟩ := orError_bind_eq_ok.1 h
    obtain ⟨reason, hreason, h⟩ := bind_eq_ok.1 h
    obtain ⟨hold, hhold, h⟩ := bind_eq_ok.1 h
    obtain ⟨mirror, hmirror, h⟩ := bind_eq_ok.1 h
    obtain ⟨⟨⟩, hvalid, h⟩ := bind_eq_ok.1 h
    obtain rfl := Except.ok.inj h
    rw [presenceTag_eq_ok] at hhp hmp
    rw [RuntimeMode.fromCode_eq_ok] at hmode
    rw [CheckpointReason.fromCode_eq_ok] at hreason
    rw [toVec?_eq_some] at hprocess
    rw [unwire?_eq_some] at hwall htick hprior hnext
    obtain ⟨rfl, hholdAt⟩ := readHold_eq_ok.1 hhold
    obtain ⟨rfl, hmirrorAt⟩ := readMirror_eq_ok.1 hmirror
    rw [bne_eq_false_iff_eq] at hlen
    refine bind_eq_ok.2 ⟨(), hvalid, congrArg Except.ok ?_⟩
    have hbyte : ∀ i, i < 53 → slice bytes i (i + 1) = [byteAt bytes i] :=
      fun i hi => slice_of_byteAt (by omega)
    have hrest := optionalFields_eq hlen hholdAt hmirrorAt
    rw [bodyFields, List.flatten_append, hrest, hprocess, hwall, htick, hprior, hnext, ← hmin.2,
      ← hmode, ← hreason, ← hhp, ← hmp, ← hbyte 0 (by omega), ← hbyte 1 (by omega),
      ← hbyte 50 (by omega), ← hbyte 51 (by omega), ← hbyte 52 (by omega)]
    -- the pieces between the cut points make up the body
    have hwhole := flatten_cutAt bytes 0 [1, 2, 18, 26, 34, 42, 50, 51, 52, 53] (by decide)
    simpa [cutAt] using hwhole
  · intro h
    obtain ⟨⟨⟩, hvalid, h⟩ := bind_eq_ok.1 h
    obtain rfl := Except.ok.inj h
    exact decode_bodyFields hvalid

/-! ### The clock authority -/

/-- The hold that the clock is under. -/
structure ClockAuthorityHold where
  generation : UInt64
  observationDigest : ByteVec 32
  deriving DecidableEq

/-- What is known of the clock: the safe time, the hold, and the last shutdown. -/
structure ClockAuthorityProjection where
  safeTime : Int64
  hold : Option ClockAuthorityHold
  lastShutdownObservation : Option Int64
  deriving DecidableEq

/-- The error of the projection's codec. -/
inductive ClockAuthorityProjectionError
  | invalidClockAuthorityProjection
  deriving DecidableEq, Repr

/-- A hold has a generation and a digest. -/
def validateProjection (projection : ClockAuthorityProjection) :
    Except ClockAuthorityProjectionError Unit :=
  reject (projection.hold.any fun hold =>
    hold.generation == 0 || hold.observationDigest == ByteVec.zero 32)
    .invalidClockAuthorityProjection

/-- The fields of an authority hold on the wire. -/
def authorityHoldFields : Option ClockAuthorityHold → List (List UInt8)
  | some hold => [wire hold.generation, hold.observationDigest.toList]
  | none => []

/-- The fields of an authority, in the order in which they are written. -/
def projectionFields (projection : ClockAuthorityProjection) : List (List UInt8) :=
  [[1], wire projection.safeTime, [presence projection.hold.isSome]]
  ++ authorityHoldFields projection.hold
  ++ [presence projection.lastShutdownObservation.isSome]
    :: (projection.lastShutdownObservation.map wire).toList

/-- `encode_clock_authority_projection`. -/
def encodeClockAuthorityProjection (projection : ClockAuthorityProjection) :
    Except ClockAuthorityProjectionError (List UInt8) := do
  validateProjection projection
  return (projectionFields projection).flatten

/-- The length that the tags of presence lead to. -/
def expectedLength (hold shutdown : Bool) : ℕ :=
  11 + (if hold then 40 else 0) + (if shutdown then 8 else 0)

/-- The position of the shutdown tag, behind the hold. -/
def shutdownTagOffset (hold : Bool) : ℕ := if hold then 50 else 10

/-- The authority hold, at its fixed position. -/
def readAuthorityHold (present : Bool) (wire : List UInt8) :
    Except ClockAuthorityProjectionError (Option ClockAuthorityHold) :=
  if present then do
    let generation ← orError .invalidClockAuthorityProjection (unwire? (slice wire 10 18))
    let observationDigest ← orError .invalidClockAuthorityProjection (toVec? 32 (slice wire 18 50))
    return some ⟨generation, observationDigest⟩
  else .ok none

/-- The shutdown observation behind its tag. -/
def readShutdownObservation (present : Bool) (wire : List UInt8) (offset : ℕ) :
    Except ClockAuthorityProjectionError (Option Int64) :=
  if present then do
    let observation ←
      orError .invalidClockAuthorityProjection (unwire? (slice wire (offset + 1) (offset + 9)))
    return some observation
  else .ok none

/-- `decode_clock_authority_projection`. -/
def decodeClockAuthorityProjection (wire : List UInt8) :
    Except ClockAuthorityProjectionError ClockAuthorityProjection := do
  reject (decide (wire.length < 11) || byteAt wire 0 != 1) .invalidClockAuthorityProjection
  let holdPresent ← presenceTag .invalidClockAuthorityProjection (byteAt wire 9)
  reject (holdPresent && decide (wire.length < 51)) .invalidClockAuthorityProjection
  let offset := shutdownTagOffset holdPresent
  let shutdownPresent ← presenceTag .invalidClockAuthorityProjection (byteAt wire offset)
  reject (wire.length != expectedLength holdPresent shutdownPresent)
    .invalidClockAuthorityProjection
  let safeTime ← orError .invalidClockAuthorityProjection (unwire? (slice wire 1 9))
  let hold ← readAuthorityHold holdPresent wire
  let lastShutdownObservation ← readShutdownObservation shutdownPresent wire offset
  let projection : ClockAuthorityProjection := ⟨safeTime, hold, lastShutdownObservation⟩
  validateProjection projection
  return projection

theorem length_projectionFields (projection : ClockAuthorityProjection) :
    (projectionFields projection).flatten.length =
      expectedLength projection.hold.isSome projection.lastShutdownObservation.isSome := by
  cases hh : projection.hold <;> cases hs : projection.lastShutdownObservation <;>
    simp [projectionFields, authorityHoldFields, expectedLength, hh, hs]

/-- One field of the encoding of an authority, by its position. -/
theorem slice_projectionFields {projection : ClockAuthorityProjection} {i a b : ℕ}
    {field : List UInt8} (hfield : (projectionFields projection)[i]? = some field)
    (ha : a = ((projectionFields projection).take i).flatten.length) (hb : b = a + field.length) :
    slice (projectionFields projection).flatten a b = field :=
  slice_flatten hfield ha hb

/-- The place of the shutdown tag among the fields. -/
def shutdownTagIndex (hold : Bool) : ℕ := if hold then 5 else 3

theorem shutdownTag_projectionFields (projection : ClockAuthorityProjection) :
    byteAt (projectionFields projection).flatten (shutdownTagOffset projection.hold.isSome) =
      presence projection.lastShutdownObservation.isSome := by
  refine byteAt_of_slice
    (slice_projectionFields (i := shutdownTagIndex projection.hold.isSome) ?_ ?_ rfl)
  · cases hh : projection.hold <;>
      simp [projectionFields, authorityHoldFields, shutdownTagIndex, hh]
  · cases hh : projection.hold <;>
      simp [projectionFields, authorityHoldFields, shutdownTagIndex, shutdownTagOffset, hh]

theorem readAuthorityHold_projectionFields (projection : ClockAuthorityProjection) :
    readAuthorityHold projection.hold.isSome (projectionFields projection).flatten =
      .ok projection.hold := by
  cases hh : projection.hold with
  | none => rfl
  | some hold =>
    refine orError_bind_eq_ok.2 ⟨hold.generation, unwire?_eq_some.2 ?_,
      orError_bind_eq_ok.2 ⟨hold.observationDigest, toVec?_eq_some.2 ?_, rfl⟩⟩
    · exact (slice_projectionFields (i := 3) (by simp [projectionFields, authorityHoldFields, hh])
        (by simp [projectionFields, authorityHoldFields, hh]) (by simp)).symm
    · exact (slice_projectionFields (i := 4) (by simp [projectionFields, authorityHoldFields, hh])
        (by simp [projectionFields, authorityHoldFields, hh]) (by simp)).symm

theorem readShutdownObservation_projectionFields (projection : ClockAuthorityProjection) :
    readShutdownObservation projection.lastShutdownObservation.isSome
      (projectionFields projection).flatten (shutdownTagOffset projection.hold.isSome) =
      .ok projection.lastShutdownObservation := by
  cases hs : projection.lastShutdownObservation with
  | none => rfl
  | some observation =>
    refine orError_bind_eq_ok.2 ⟨observation, unwire?_eq_some.2 ?_, rfl⟩
    refine (slice_projectionFields (i := shutdownTagIndex projection.hold.isSome + 1) ?_ ?_ ?_).symm
    · cases hh : projection.hold <;>
        simp [projectionFields, authorityHoldFields, shutdownTagIndex, hh, hs]
    · cases hh : projection.hold <;>
        simp [projectionFields, authorityHoldFields, shutdownTagIndex, shutdownTagOffset, hh]
    · simp

/-- **The authority decoder reads every encoding back.** -/
theorem decode_encodeClockAuthorityProjection {projection : ClockAuthorityProjection}
    {wire : List UInt8} (h : encodeClockAuthorityProjection projection = .ok wire) :
    decodeClockAuthorityProjection wire = .ok projection := by
  obtain ⟨⟨⟩, hvalid, h⟩ := bind_eq_ok.1 h
  obtain rfl := Except.ok.inj h
  have hlen := length_projectionFields projection
  have h0 : byteAt (projectionFields projection).flatten 0 = 1 :=
    byteAt_of_slice (slice_projectionFields (i := 0) rfl rfl rfl)
  have h9 : byteAt (projectionFields projection).flatten 9 = presence projection.hold.isSome :=
    byteAt_of_slice (slice_projectionFields (i := 2) rfl (by simp [projectionFields]) rfl)
  unfold decodeClockAuthorityProjection
  refine reject_bind_eq_ok.2 ⟨by simp [hlen, expectedLength, h0]; omega, ?_⟩
  refine bind_eq_ok.2 ⟨_, presenceTag_eq_ok.2 h9, ?_⟩
  refine reject_bind_eq_ok.2 ⟨?_, ?_⟩
  · cases hh : projection.hold with
    | none => rfl
    | some hold => simp [hlen, expectedLength, hh]
  refine bind_eq_ok.2 ⟨_, presenceTag_eq_ok.2 (shutdownTag_projectionFields projection), ?_⟩
  refine reject_bind_eq_ok.2 ⟨by simp [hlen], ?_⟩
  refine orError_bind_eq_ok.2 ⟨projection.safeTime, unwire?_eq_some.2
    (slice_projectionFields (i := 1) rfl (by simp [projectionFields]) (by simp)).symm, ?_⟩
  refine bind_eq_ok.2 ⟨_, readAuthorityHold_projectionFields projection, ?_⟩
  refine bind_eq_ok.2 ⟨_, readShutdownObservation_projectionFields projection, ?_⟩
  exact bind_eq_ok.2 ⟨(), hvalid, rfl⟩

end MsgRiver.Journal
