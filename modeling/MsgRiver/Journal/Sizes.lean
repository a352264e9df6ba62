import Mathlib.Order.Bounds.Defs
import MsgRiver.Journal.Image

/-!
# Sizes

The replay of a tail has no key.  It computes the digest and the size of a frame without encoding
it, and must agree with the encoder, which has one: `frameChecks_iff_encodeTailFrame` says that the
two accept the same frames, and that the size that the replay counts is that of the encoding.

The writers of addressed values and actions have fixed capacities.  They are the greatest lengths of
what they are used for (`addressed_capacities`), so that no valid obligation is refused for its
size.
-/

namespace MsgRiver.Journal

open Bytes Result Wire

/-! ### Frames -/

/-- What the loop over the tail checks of a frame itself, and the bytes that it counts for it. -/
def frameChecks (prior : JournalHead) (frame : AuthenticatedTailFrame) :
    Except ControlJournalImageError ℕ := do
  reject (!frameFollows prior frame) invalidControlJournalImage
  let (kind, body) ← encodeTailRecord frame.record
  let expected ← replayDigest kind body prior frame.resultingHead.sequence
  reject (expected != frame.resultingHead.digest) invalidControlJournalImage
  reject (decide (frameLimit < body.length + 110)) invalidControlJournalImage
  return body.length + 110

theorem frameChecks_eq_ok {prior : JournalHead} {frame : AuthenticatedTailFrame} {size : ℕ} :
    frameChecks prior frame = .ok size ↔ frameFollows prior frame = true ∧
      ∃ kind body pre, FrameRecord prior frame kind body pre ∧ size = body.length + 110 := by
  constructor
  · intro h
    obtain ⟨hfollows, h⟩ := reject_bind_eq_ok.1 h
    obtain ⟨⟨kind, body⟩, hencoded, h⟩ := bind_eq_ok.1 h
    obtain ⟨expected, hexpected, h⟩ := bind_eq_ok.1 h
    obtain ⟨hdigest, h⟩ := reject_bind_eq_ok.1 h
    obtain ⟨hlimit, h⟩ := reject_bind_eq_ok.1 h
    obtain rfl := Except.ok.inj h
    rw [Bool.not_eq_false'] at hfollows
    rw [decide_eq_false_iff_not, not_lt] at hlimit
    -- Within the limit there is a frame, and its digest is the one computed without it.
    obtain ⟨-, hsequence⟩ := frameFollows_iff.1 hfollows
    obtain ⟨pre, hpre⟩ := exists_recordPrefix kind hlimit hsequence
    rw [replayDigest_eq hsequence hpre] at hexpected
    obtain rfl := Except.ok.inj hexpected
    exact ⟨hfollows, kind, body, pre, ⟨hencoded, hpre, bne_eq_false_iff_eq.1 hdigest⟩, rfl⟩
  · rintro ⟨hfollows, kind, body, pre, ⟨hencoded, hpre, hdigest⟩, rfl⟩
    obtain ⟨-, hsequence⟩ := frameFollows_iff.1 hfollows
    have hlimit := length_le_of_recordPrefix hpre
    refine reject_bind_eq_ok.2 ⟨by rw [hfollows]; rfl, ?_⟩
    refine bind_eq_ok.2 ⟨(kind, body), hencoded, ?_⟩
    refine bind_eq_ok.2 ⟨_, replayDigest_eq hsequence hpre, ?_⟩
    refine reject_bind_eq_ok.2 ⟨bne_eq_false_iff_eq.2 hdigest, reject_bind_eq_ok.2 ⟨?_, rfl⟩⟩
    rw [decide_eq_false_iff_not, not_lt]
    exact hlimit

/-- The loop makes these checks, and adds the size to its count. -/
theorem frameChecks_of_replayFrame {state next : ReplayState} {frame : AuthenticatedTailFrame}
    (h : replayFrame state frame = .ok next) :
    ∃ size, frameChecks state.prior frame = .ok size ∧ next.bytes = state.bytes + size := by
  obtain ⟨size, hstep, -, -, hbytes⟩ := replayFrame_eq_ok.1 h
  exact ⟨size, frameChecks_eq_ok.2 ⟨hstep.follows, hstep.record⟩, hbytes⟩

/-- A frame that passes has an encoding, of the size that is counted. -/
theorem frameChecks_eq_ok_iff_encode (key : JournalIntegrityKey) {prior : JournalHead}
    {frame : AuthenticatedTailFrame} {size : ℕ} :
    frameChecks prior frame = .ok size ↔
      ∃ bytes, encodeTailFrame key prior frame = .ok bytes ∧ bytes.length = size := by
  rw [frameChecks_eq_ok]
  constructor
  · rintro ⟨hfollows, kind, body, pre, hrecord, rfl⟩
    exact ⟨sealFrame key pre, encodeTailFrame_eq_ok.2 ⟨hfollows, kind, body, pre, hrecord, rfl⟩,
      length_sealFrame key hrecord.framed⟩
  · rintro ⟨bytes, hbytes, rfl⟩
    obtain ⟨hfollows, kind, body, pre, hrecord, rfl⟩ := encodeTailFrame_eq_ok.1 hbytes
    exact ⟨hfollows, kind, body, pre, hrecord, length_sealFrame key hrecord.framed⟩

/-- The head of a frame that follows another one is valid unless its digest is zero. -/
theorem validateHead_of_follows {prior : JournalHead} {frame : AuthenticatedTailFrame}
    (h : frameFollows prior frame = true) : validateHead frame.resultingHead =
      reject (frame.resultingHead.digest == ByteVec.zero 32) invalidControlJournalImage := by
  obtain ⟨-, hsequence⟩ := frameFollows_iff.1 h
  have hpos : frame.resultingHead.sequence ≠ 0 := by
    intro hzero
    rw [hzero, checkedSucc_eq_some] at hsequence
    cases hsequence
  rw [validateHead, beq_eq_false_iff_ne.2 hpos, Bool.false_bne]

/-- What the loop still does with a frame that has passed the checks of the encoder. -/
def replayBehind (state : ReplayState) (frame : AuthenticatedTailFrame) (size : ℕ) :
    Except ControlJournalImageError ReplayState := do
  reject (frame.resultingHead.digest == ByteVec.zero 32) invalidControlJournalImage
  reject (decide (tailLimit < state.bytes + size)) invalidControlJournalImage
  let checkpoint ← replayRecord state.checkpoint frame.record frame.resultingHead
  let checkpoint := checkpoint.setHead frame.resultingHead
  validateCheckpoint checkpoint
  return ⟨checkpoint, frame.resultingHead, state.bytes + size⟩

theorem replayFrame_of_frameChecks {state : ReplayState} {frame : AuthenticatedTailFrame} {size : ℕ}
    (h : frameChecks state.prior frame = .ok size) :
    replayFrame state frame = replayBehind state frame size := by
  obtain ⟨hfollows, kind, body, pre, ⟨hencoded, hpre, hdigest⟩, rfl⟩ := frameChecks_eq_ok.1 h
  obtain ⟨-, hsequence⟩ := frameFollows_iff.1 hfollows
  have hlimit : ¬ frameLimit < body.length + 110 := Nat.not_lt.2 (length_le_of_recordPrefix hpre)
  simp only [replayFrame, replayBehind, hfollows, validateHead_of_follows hfollows, hencoded,
    replayDigest_eq hsequence hpre, hdigest, hlimit, bne_self_eq_false, Bool.not_true, reject,
    Bool.false_eq_true, if_false, decide_false, Bool.false_or, bind, Except.bind]

/-- **The keyless replay and the keyed encoder accept the same frames**, and the bytes that the
replay counts are those of the encoding.  Of a frame that the encoder accepts, the replay itself
checks no more than that its digest is not zero and that the tail does not become too long. -/
theorem frameChecks_iff_encodeTailFrame (key : JournalIntegrityKey) (prior : JournalHead)
    (frame : AuthenticatedTailFrame) :
    ((∃ size, frameChecks prior frame = .ok size) ↔
      ∃ bytes, encodeTailFrame key prior frame = .ok bytes) ∧
    (∀ bytes, encodeTailFrame key prior frame = .ok bytes →
      frameChecks prior frame = .ok bytes.length ∧
      ∃ kind body, encodeTailRecord frame.record = .ok (kind, body) ∧
        bytes.length = body.length + 110) ∧
    (∀ state next, state.prior = prior → replayFrame state frame = .ok next →
      ∃ bytes, encodeTailFrame key prior frame = .ok bytes ∧
        next.bytes = state.bytes + bytes.length) ∧
    ∀ state bytes, state.prior = prior → encodeTailFrame key prior frame = .ok bytes →
      replayFrame state frame = replayBehind state frame bytes.length := by
  refine ⟨⟨?_, ?_⟩, ?_, ?_, ?_⟩
  · rintro ⟨size, hsize⟩
    obtain ⟨bytes, hbytes, -⟩ := (frameChecks_eq_ok_iff_encode key).1 hsize
    exact ⟨bytes, hbytes⟩
  · rintro ⟨bytes, hbytes⟩
    exact ⟨bytes.length, (frameChecks_eq_ok_iff_encode key).2 ⟨bytes, hbytes, rfl⟩⟩
  · intro bytes hbytes
    obtain ⟨-, kind, body, pre, hrecord, rfl⟩ := encodeTailFrame_eq_ok.1 hbytes
    exact ⟨(frameChecks_eq_ok_iff_encode key).2 ⟨_, hbytes, rfl⟩, kind, body, hrecord.encoded,
      length_sealFrame key hrecord.framed⟩
  · rintro state next rfl hnext
    obtain ⟨size, hsize, hcount⟩ := frameChecks_of_replayFrame hnext
    obtain ⟨bytes, hbytes, rfl⟩ := (frameChecks_eq_ok_iff_encode key).1 hsize
    exact ⟨bytes, hbytes, hcount⟩
  · rintro state bytes rfl hbytes
    exact replayFrame_of_frameChecks ((frameChecks_eq_ok_iff_encode key).2 ⟨bytes, hbytes, rfl⟩)

/-! ### Addressed values -/

/-- The lengths of valid values with their heads. -/
def valueLengths : Set ℕ :=
  {length | ∃ operation value bytes, encodeAddressedValue operation value true = .ok bytes ∧
    bytes.length = length}

/-- The first phase of an obligation whose mirror is not committed can be requested. -/
def Requestable (operation : AddressedOperation) (value : AddressedStateValue) : Prop :=
  validateAddressedValue operation value = .ok () ∧ value.phase = 1 ∧
    value.mirror.isCommitted = false

/-- The lengths of requests, which have no heads. -/
def requestLengths : Set ℕ :=
  {length | ∃ operation value bytes, Requestable operation value ∧
    encodeAddressedValue operation value false = .ok bytes ∧ bytes.length = length}

/-- The lengths of requests as framed actions. -/
def framedLengths : Set ℕ :=
  {length | ∃ operation value bytes, Requestable operation value ∧
    encodeAddressedAction operation (.publishRequest value) = .ok bytes ∧ bytes.length = length}

theorem length_addressedFields (operation : AddressedOperation) (value : AddressedStateValue)
    (actorLength : UInt8) (withHeads : Bool) :
    (addressedFields operation value actorLength withHeads).flatten.length =
      7 + (actorParts value.actor).2.length +
      ((addressFields value.address).flatten.length +
        (transitionFields value.desiredTransition).flatten.length +
        (evidenceFields value.evidence).flatten.length +
        (encodeAddressedResult value.safeResult).flatten.length) +
      (if withHeads then 80 else 0) + (mirrorStateFields value.mirror).flatten.length := by
  have hheads : (if withHeads then
      headFields value.applicationHead ++ headFields value.publicationHead else []).flatten.length
        = if withHeads then 80 else 0 := by
    cases withHeads <;> simp
  simp only [addressedFields, List.flatten_append, List.length_append, List.flatten_cons,
    List.flatten_nil, length_wire_u8, length_wire_u16, List.length_nil, hheads]
  omega

theorem length_mirrorStateFields_of_not_committed {mirror : AddressedMirror}
    (h : mirror.isCommitted = false) : (mirrorStateFields mirror).flatten.length ≤ 74 := by
  cases mirror with
  | notApplicable => simp [mirrorStateFields]
  | pending origin pre policy => simp [mirrorStateFields]
  | committed origin pre policy post => cases h

section Values

variable {operation : AddressedOperation} {value : AddressedStateValue}

theorem length_encodeAddressedValue {withHeads : Bool} {bytes : List UInt8}
    (h : encodeAddressedValue operation value withHeads = .ok bytes) :
    bytes.length ≤ 232 + (if withHeads then 80 else 0) +
      (mirrorStateFields value.mirror).flatten.length := by
  obtain ⟨hvalid, actorLength, -, rfl, -⟩ := encodeAddressedValue_eq_ok.1 h
  obtain ⟨hactor, hsubject, -, -⟩ := validAddressedValue_iff.1 hvalid
  have hbounds := length_actorParts hactor
  have hparts := length_operationFields (ofOperation_of_validSubject hsubject)
  rw [length_addressedFields]
  omega

/-- A request can be framed, in four more bytes. -/
theorem encodeAddressedAction_of_requestable (h : Requestable operation value) :
    ∃ payload action, encodeAddressedValue operation value false = .ok payload ∧
      encodeAddressedAction operation (.publishRequest value) = .ok action ∧
      payload.length ≤ 306 ∧ action.length = payload.length + 4 := by
  obtain ⟨hvalid, hphase, hmirror⟩ := h
  obtain ⟨payload, hpayload⟩ := exists_encodeAddressedValue (validateAddressedValue_eq_ok.1 hvalid)
    false
  have hvalue := length_encodeAddressedValue hpayload
  have hpending := length_mirrorStateFields_of_not_committed hmirror
  have hlength : payload.length ≤ 306 := by
    simp only [Bool.false_eq_true, if_false] at hvalue
    omega
  have hframe : [wire (1 : UInt8), wire (1 : UInt8), wire (UInt16.ofNat payload.length),
      payload].flatten.length = payload.length + 4 := by
    simp
    omega
  refine ⟨payload, _, hpayload, ?_, hlength, hframe⟩
  refine bind_eq_ok.2 ⟨(1, [payload]), ?_, ?_⟩
  · refine reject_bind_eq_ok.2 ⟨?_, bind_eq_ok.2 ⟨payload, hpayload, rfl⟩⟩
    rw [hphase, hmirror]
    rfl
  · refine bind_eq_ok.2 ⟨payload, written_eq_ok.2 ⟨List.flatten_singleton, ?_⟩, ?_⟩
    · rw [List.flatten_singleton]
      exact hlength
    · refine orError_bind_eq_ok.2 ⟨UInt16.ofNat payload.length, ofNat?_eq_some.2 ?_,
        written_eq_ok.2 ⟨rfl, by rw [hframe]; omega⟩⟩
      exact UInt16.toNat_ofNat_of_lt' (by show payload.length < 2 ^ 16; omega)

end Values

/-! ### The widest values -/

/-- The longest name of a principal. -/
def fullActor : List UInt8 := List.replicate 128 97

/-- A digest that is not zero. -/
def fullDigest : ByteVec 32 := List.Vector.replicate 32 1

/-- An acknowledgement of a selected hold by an actor with the longest name. -/
def fullAcknowledgement (phase : UInt8) (mirror : AddressedMirror) : AddressedStateValue where
  actor := .principal fullActor
  address := .clockHold 1 fullDigest
  desiredTransition := .settleHold true
  evidence := .acknowledge 0 0 0 (some 0) 0
  phase
  safeResult := .acknowledge 0 (phase == 3)
  applicationHead := ⟨1, fullDigest⟩
  publicationHead := ⟨1, fullDigest⟩
  mirror

/-- The acknowledgement when it is requested, and when it is complete. -/
def fullRequest : AddressedStateValue :=
  fullAcknowledgement 1 (.pending fullDigest ⟨1, fullDigest⟩ 1)

/-- The longest completed value. -/
def fullCompletion : AddressedStateValue :=
  fullAcknowledgement 3 (.committed fullDigest ⟨1, fullDigest⟩ 1 ⟨2, fullDigest⟩)

theorem validate_fullRequest : validateAddressedValue .clockAcknowledge fullRequest = .ok () := by
  decide +kernel

theorem validate_fullCompletion :
    validateAddressedValue .clockAcknowledge fullCompletion = .ok () := by
  decide +kernel

theorem length_encode_fullAcknowledgement {phase : UInt8} {mirror : AddressedMirror}
    {withHeads : Bool} {bytes : List UInt8}
    (h : encodeAddressedValue .clockAcknowledge (fullAcknowledgement phase mirror) withHeads =
      .ok bytes) :
    bytes.length = 232 + (if withHeads then 80 else 0) +
      (mirrorStateFields mirror).flatten.length := by
  obtain ⟨-, actorLength, -, rfl, -⟩ := encodeAddressedValue_eq_ok.1 h
  rw [length_addressedFields]
  simp [fullAcknowledgement, actorParts, fullActor, addressFields, transitionFields, evidenceFields,
    encodeAddressedResult]

/-- **The capacities are exact.**  Every valid value can be encoded, every request can be framed,
and the capacities of the writers are the greatest lengths that occur. -/
theorem addressed_capacities :
    (∀ operation value, validateAddressedValue operation value = .ok () →
      ∃ bytes, encodeAddressedValue operation value true = .ok bytes) ∧
    (∀ operation value, Requestable operation value →
      ∃ payload action, encodeAddressedValue operation value false = .ok payload ∧
        encodeAddressedAction operation (.publishRequest value) = .ok action) ∧
    IsGreatest valueLengths 426 ∧ IsGreatest requestLengths 306 ∧
      IsGreatest framedLengths 310 := by
  have hrequest : Requestable .clockAcknowledge fullRequest := ⟨validate_fullRequest, rfl, rfl⟩
  obtain ⟨payload, action, hpayload, haction, -, hframed⟩ :=
    encodeAddressedAction_of_requestable hrequest
  -- the widest request has a pending mirror
  have hwidest : payload.length = 306 := by
    rw [length_encode_fullAcknowledgement hpayload]
    simp [mirrorStateFields]
  refine ⟨?_, ?_, ⟨?_, ?_⟩, ⟨?_, ?_⟩, ⟨?_, ?_⟩⟩
  · intro operation value hvalid
    exact exists_encodeAddressedValue (validateAddressedValue_eq_ok.1 hvalid) true
  · intro operation value hrequestable
    obtain ⟨payload, action, hpayload, haction, -, -⟩ :=
      encodeAddressedAction_of_requestable hrequestable
    exact ⟨payload, action, hpayload, haction⟩
  · obtain ⟨bytes, hbytes⟩ := exists_encodeAddressedValue
      (validateAddressedValue_eq_ok.1 validate_fullCompletion) true
    refine ⟨.clockAcknowledge, fullCompletion, bytes, hbytes, ?_⟩
    rw [length_encode_fullAcknowledgement hbytes]
    simp [mirrorStateFields]
  · rintro _ ⟨operation, value, bytes, hbytes, rfl⟩
    have hlength := length_encodeAddressedValue hbytes
    have hmirror := length_mirrorStateFields value.mirror
    simp only [if_true] at hlength
    omega
  · exact ⟨.clockAcknowledge, fullRequest, payload, hrequest, hpayload, hwidest⟩
  · rintro _ ⟨operation, value, bytes, hrequestable, hbytes, rfl⟩
    obtain ⟨payload, -, hencoded, -, hlength, -⟩ :=
      encodeAddressedAction_of_requestable hrequestable
    rw [hencoded] at hbytes
    obtain rfl := Except.ok.inj hbytes
    exact hlength
  · refine ⟨.clockAcknowledge, fullRequest, action, hrequest, haction, ?_⟩
    rw [hframed, hwidest]
  · rintro _ ⟨operation, value, bytes, hrequestable, hbytes, rfl⟩
    obtain ⟨payload, action, -, hencoded, hlength, hframed⟩ :=
      encodeAddressedAction_of_requestable hrequestable
    rw [hencoded] at hbytes
    obtain rfl := Except.ok.inj hbytes
    omega

end MsgRiver.Journal
