import MsgRiver.Lib.Bytes
import MsgRiver.Lib.Result

/-!
# Recovery key events

The body of a recovery key event is a head of 140 bytes, a presence byte with the digest that
confirms the key, and a presence byte with the instant at which the event may be dropped.  The
second presence byte stands behind the first digest, so its place depends on the first.

* `decodeRecoveryKeyEvent_eq_ok`: the decoder accepts exactly the encodings of valid events;
* `Canonical`: the accepted byte strings, described without the decoder; shape and phase table are
  not enough (`blankEvent_rejected`);
* `recoveryKeyEvent_canonical`: the round trips, and that no access is out of range.
-/

namespace MsgRiver.Journal.Recovery

open Bytes Result

/-- An access out of range stops the process; everything else is the error of the codec. -/
inductive Stop
  | panic
  | invalidRecoveryKeyEvent
  deriving DecidableEq

/-- The version of the encoding. -/
def version : UInt8 := 1

/-- The number of the operation. -/
def recoveryKeyGenerateOperation : UInt8 := 1

/-- The number of the actor. -/
def fixedStateOwnerActor : UInt8 := 1

/-- The phases of a generation. -/
inductive RecoveryKeyEventPhase
  | intentGenerate
  | keyDurable
  | secretConsumed
  | pendingEscrow
  | activated
  | terminalFailed
  deriving DecidableEq

/-- Until when the event is kept. -/
inductive RecoveryKeyEventRetention
  | null
  | terminal (expiresAt : Int64)
  deriving DecidableEq

/-- A step in the generation of a recovery key. -/
structure RecoveryKeyEvent where
  generation : UInt64
  commandDigest : ByteVec 32
  semanticFingerprint : ByteVec 32
  phaseFingerprint : ByteVec 32
  portableReservationDigest : ByteVec 32
  keyConfirmationDigest : Option (ByteVec 32)
  phase : RecoveryKeyEventPhase
  retention : RecoveryKeyEventRetention
  deriving DecidableEq

namespace RecoveryKeyEventPhase

/-- The number of a phase. -/
def code : RecoveryKeyEventPhase → UInt8
  | .intentGenerate => 1
  | .keyDurable => 2
  | .secretConsumed => 3
  | .pendingEscrow => 4
  | .activated => 5
  | .terminalFailed => 6

/-- The phase of a number. -/
def fromCode (code : UInt8) : Except Stop RecoveryKeyEventPhase :=
  if code = 1 then .ok .intentGenerate
  else if code = 2 then .ok .keyDurable
  else if code = 3 then .ok .secretConsumed
  else if code = 4 then .ok .pendingEscrow
  else if code = 5 then .ok .activated
  else if code = 6 then .ok .terminalFailed
  else .error .invalidRecoveryKeyEvent

theorem fromCode_eq_ok {byte : UInt8} {phase : RecoveryKeyEventPhase} :
    fromCode byte = .ok phase ↔ byte = phase.code := by
  unfold fromCode
  split_ifs with h1 h2 h3 h4 h5 h6
  · subst h1; cases phase <;> decide
  · subst h2; cases phase <;> decide
  · subst h3; cases phase <;> decide
  · subst h4; cases phase <;> decide
  · subst h5; cases phase <;> decide
  · subst h6; cases phase <;> decide
  · cases phase <;> simp [code, h1, h2, h3, h4, h5, h6]

end RecoveryKeyEventPhase

/-- The retention is that of an event that ends its key. -/
def RecoveryKeyEventRetention.isTerminal : RecoveryKeyEventRetention → Bool
  | .null => false
  | .terminal _ => true

/-- All bytes of the digest are zero. -/
def digestIsZero (digest : List UInt8) : Bool := digest.all (· == 0)

/-- The phase table: whether a phase goes with a confirmation and with an end. -/
def phaseAllows (phase : RecoveryKeyEventPhase) (confirmed terminal : Bool) : Bool :=
  match phase with
  | .intentGenerate => !confirmed && !terminal
  | .terminalFailed => !confirmed && terminal
  | .keyDurable | .secretConsumed | .pendingEscrow | .activated => confirmed && !terminal

/-- No number and no digest is zero, and the confirmation and the retention fit the phase. -/
def validateEvent (event : RecoveryKeyEvent) : Except Stop Unit := do
  reject (event.generation == 0
    || digestIsZero event.commandDigest.toList
    || digestIsZero event.semanticFingerprint.toList
    || digestIsZero event.phaseFingerprint.toList
    || digestIsZero event.portableReservationDigest.toList
    || event.keyConfirmationDigest.any fun digest => digestIsZero digest.toList)
    .invalidRecoveryKeyEvent
  reject (!phaseAllows event.phase event.keyConfirmationDigest.isSome event.retention.isTerminal)
    .invalidRecoveryKeyEvent

/-! ### The codec -/

/-- The fields in front of the presence bytes. -/
def headFields (event : RecoveryKeyEvent) : List (List UInt8) :=
  [[version], [recoveryKeyGenerateOperation], [fixedStateOwnerActor], [event.phase.code],
    wire event.generation, event.commandDigest.toList, event.semanticFingerprint.toList,
    event.phaseFingerprint.toList, event.portableReservationDigest.toList]

/-- The fields of a confirmation, after a byte that says whether there is one. -/
def confirmationFields : Option (ByteVec 32) → List (List UInt8)
  | none => [[0]]
  | some digest => [[1], digest.toList]

/-- The fields of a retention, after a byte that says whether there is one. -/
def retentionFields : RecoveryKeyEventRetention → List (List UInt8)
  | .null => [[0]]
  | .terminal expiresAt => [[1], wire expiresAt]

/-- The bytes of an event. -/
def encoding (event : RecoveryKeyEvent) : List UInt8 :=
  (headFields event ++ confirmationFields event.keyConfirmationDigest
    ++ retentionFields event.retention).flatten

/-- `encode_recovery_key_event`. -/
def encodeRecoveryKeyEvent (event : RecoveryKeyEvent) : Except Stop (List UInt8) := do
  validateEvent event
  return encoding event

/-- `wire[i]`. -/
def index (wire : List UInt8) (i : ℕ) : Except Stop UInt8 := orError .panic wire[i]?

/-- `wire.get(start..end)`. -/
def getRange (wire : List UInt8) (a b : ℕ) : Option (List UInt8) :=
  if a ≤ b ∧ b ≤ wire.length then some (slice wire a b) else none

/-- The 32 bytes from an offset on. -/
def digestAt (wire : List UInt8) (offset : ℕ) : Except Stop (ByteVec 32) := do
  let bytes ← orError .invalidRecoveryKeyEvent (getRange wire offset (offset + 32))
  orError .invalidRecoveryKeyEvent (toVec? 32 bytes)

/-- An integer of the wire. -/
def intAt {α : Type} [FixedWidth α] (wire : List UInt8) (a b : ℕ) : Except Stop α := do
  let bytes ← orError .invalidRecoveryKeyEvent (getRange wire a b)
  orError .invalidRecoveryKeyEvent (unwire? bytes)

/-- The number of bytes that the presence byte of the confirmation announces. -/
def confirmationLength (present : UInt8) : Except Stop ℕ :=
  if present = 0 then .ok 0 else if present = 1 then .ok 32 else .error .invalidRecoveryKeyEvent

/-- Reads the retention at its offset. -/
def retentionAt (wire : List UInt8) (offset : ℕ) : Except Stop RecoveryKeyEventRetention := do
  let present ← index wire offset
  if present = 0 then return .null
  else if present = 1 then return .terminal (← intAt wire (offset + 1) (offset + 9))
  else throw .invalidRecoveryKeyEvent

/-- The length that the bytes of presence lead to. -/
def expectedLength (present : UInt8) (retention : RecoveryKeyEventRetention) : Except Stop ℕ :=
  match retention with
  | .null =>
    if present = 0 then .ok 142 else if present = 1 then .ok 174
    else .error .invalidRecoveryKeyEvent
  | .terminal _ =>
    if present = 0 then .ok 150 else if present = 1 then .ok 182
    else .error .invalidRecoveryKeyEvent

/-- Reads a confirmation that may be absent. -/
def confirmationAt (wire : List UInt8) (present : UInt8) : Except Stop (Option (ByteVec 32)) :=
  if present = 0 then .ok none
  else if present = 1 then some <$> digestAt wire 141
  else .error .invalidRecoveryKeyEvent

/-- `decode_recovery_key_event`: reads by offsets, and validates what was read. -/
def decodeRecoveryKeyEvent (wire : List UInt8) : Except Stop RecoveryKeyEvent := do
  reject (decide (wire.length < 141)) .invalidRecoveryKeyEvent
  let present ← index wire 140
  let retentionOffset := 141 + (← confirmationLength present)
  reject (decide (wire.length ≤ retentionOffset)) .invalidRecoveryKeyEvent
  let retention ← retentionAt wire retentionOffset
  let expected ← expectedLength present retention
  reject (wire.length != expected) .invalidRecoveryKeyEvent
  let generation ← intAt wire 4 12
  let commandDigest ← digestAt wire 12
  let semanticFingerprint ← digestAt wire 44
  let phaseFingerprint ← digestAt wire 76
  let portableReservationDigest ← digestAt wire 108
  let keyConfirmationDigest ← confirmationAt wire present
  let phase ← RecoveryKeyEventPhase.fromCode (← index wire 3)
  let event : RecoveryKeyEvent := ⟨generation, commandDigest, semanticFingerprint, phaseFingerprint,
    portableReservationDigest, keyConfirmationDigest, phase, retention⟩
  reject ((← index wire 0) != version || (← index wire 1) != recoveryKeyGenerateOperation
    || (← index wire 2) != fixedStateOwnerActor) .invalidRecoveryKeyEvent
  validateEvent event
  return event

/-! ### What the accesses find -/

section Accesses

variable {bytes : List UInt8}

theorem index_eq_ok {i : ℕ} {b : UInt8} : index bytes i = .ok b ↔ slice bytes i (i + 1) = [b] := by
  rw [index, orError_eq_ok, slice, Nat.add_sub_cancel_left, ← List.head?_drop]
  cases bytes.drop i with
  | nil => simp
  | cons c cs => simp

theorem getRange_eq_some {a w : ℕ} (hw : 0 < w) {part : List UInt8} :
    getRange bytes a (a + w) = some part ↔ slice bytes a (a + w) = part ∧ part.length = w := by
  unfold getRange
  have hlength : (slice bytes a (a + w)).length = min w (bytes.length - a) := by
    rw [slice, Nat.add_sub_cancel_left, List.length_take, List.length_drop]
  constructor
  · intro h
    split_ifs at h with hrange
    cases h
    exact ⟨rfl, by omega⟩
  · rintro ⟨rfl, hpart⟩
    rw [if_pos (by omega)]

theorem digestAt_eq_ok {offset : ℕ} {digest : ByteVec 32} :
    digestAt bytes offset = .ok digest ↔ slice bytes offset (offset + 32) = digest.toList := by
  simp only [digestAt, orError_bind_eq_ok, orError_eq_ok, getRange_eq_some (show 0 < 32 by decide),
    toVec?_eq_some]
  constructor
  · rintro ⟨part, ⟨rfl, -⟩, hdigest⟩
    exact hdigest.symm
  · intro h
    exact ⟨digest.toList, ⟨h, digest.toList_length⟩, rfl⟩

theorem intAt_eq_ok {α : Type} [FixedWidth α] (offset : ℕ) {w : ℕ} (hw : 0 < w)
    (hwidth : FixedWidth.width α = w) {x : α} :
    intAt bytes offset (offset + w) = .ok x ↔ slice bytes offset (offset + w) = wire x := by
  simp only [intAt, orError_bind_eq_ok, orError_eq_ok, getRange_eq_some hw, unwire?_eq_some]
  constructor
  · rintro ⟨part, ⟨rfl, -⟩, hx⟩
    exact hx.symm
  · intro h
    exact ⟨wire x, ⟨h, (length_wire x).trans hwidth⟩, rfl⟩

end Accesses

/-! ### The layout -/

/-- The presence byte. -/
def tag (present : Bool) : UInt8 := if present then 1 else 0

/-- Where the second presence byte stands. -/
def retentionOffset (confirmed : Bool) : ℕ := if confirmed then 173 else 141

/-- The number of bytes of an event. -/
def encodedLength (confirmed terminal : Bool) : ℕ :=
  retentionOffset confirmed + if terminal then 9 else 1

/-- The presence bytes and the length agree. -/
structure Shaped (bytes : List UInt8) (confirmed terminal : Bool) : Prop where
  length : bytes.length = encodedLength confirmed terminal
  confirmation : slice bytes 140 141 = [tag confirmed]
  retention : slice bytes (retentionOffset confirmed) (retentionOffset confirmed + 1) =
    [tag terminal]

/-- The fields in front of the presence bytes are those of the event. -/
structure Head (bytes : List UInt8) (event : RecoveryKeyEvent) : Prop where
  version : slice bytes 0 1 = [version]
  operation : slice bytes 1 2 = [recoveryKeyGenerateOperation]
  actor : slice bytes 2 3 = [fixedStateOwnerActor]
  phase : slice bytes 3 4 = [event.phase.code]
  generation : slice bytes 4 12 = wire event.generation
  command : slice bytes 12 44 = event.commandDigest.toList
  semantic : slice bytes 44 76 = event.semanticFingerprint.toList
  fingerprint : slice bytes 76 108 = event.phaseFingerprint.toList
  reservation : slice bytes 108 140 = event.portableReservationDigest.toList

/-- The optional fields are those of the event. -/
structure Tail (bytes : List UInt8) (event : RecoveryKeyEvent) : Prop where
  shaped : Shaped bytes event.keyConfirmationDigest.isSome event.retention.isTerminal
  digest : ∀ digest ∈ event.keyConfirmationDigest, slice bytes 141 173 = digest.toList
  expires : ∀ expiresAt, event.retention = .terminal expiresAt →
    slice bytes (retentionOffset event.keyConfirmationDigest.isSome + 1)
      (retentionOffset event.keyConfirmationDigest.isSome + 9) = wire expiresAt

/-- A last field reaches to the end. -/
theorem drop_eq_iff {bytes last : List UInt8} {n : ℕ} (hlast : last ≠ []) :
    bytes.drop n = last ↔ slice bytes n (n + last.length) = last ∧
      bytes.length = n + last.length := by
  have hpos := List.length_pos_of_ne_nil hlast
  rw [slice, Nat.add_sub_cancel_left]
  constructor
  · intro h
    have hlen := congrArg List.length h
    rw [List.length_drop] at hlen
    rw [h, List.take_length]
    exact ⟨rfl, by omega⟩
  · rintro ⟨h, hlen⟩
    rw [← h, List.take_of_length_le]
    rw [List.length_drop]
    omega

/-- The fields behind the head. -/
def tailFields (event : RecoveryKeyEvent) : List (List UInt8) :=
  confirmationFields event.keyConfirmationDigest ++ retentionFields event.retention

theorem head_iff {bytes : List UInt8} {event : RecoveryKeyEvent} :
    encoding event = bytes ↔ Head bytes event ∧ bytes.drop 140 = (tailFields event).flatten := by
  have hcuts : positions 0 (headFields event ++ [(tailFields event).flatten]) =
      [1, 2, 3, 4, 12, 44, 76, 108, 140] := by
    simp [headFields, positions]
  have hsplit : encoding event = (headFields event ++ [(tailFields event).flatten]).flatten := by
    rw [encoding, List.append_assoc, List.flatten_append, ← tailFields, List.flatten_append,
      List.flatten_singleton]
  rw [hsplit,
    flatten_eq_iff_cutAt (List.append_ne_nil_of_right_ne_nil _ (List.cons_ne_nil _ _)) hcuts]
  simp only [headFields, cutAt, List.cons_append, List.nil_append, List.cons.injEq, and_true]
  constructor
  · rintro ⟨h0, h1, h2, h3, h4, h12, h44, h76, h108, htail⟩
    exact ⟨⟨h0, h1, h2, h3, h4, h12, h44, h76, h108⟩, htail⟩
  · rintro ⟨⟨h0, h1, h2, h3, h4, h12, h44, h76, h108⟩, htail⟩
    exact ⟨h0, h1, h2, h3, h4, h12, h44, h76, h108, htail⟩

theorem tail_iff {bytes : List UInt8} {event : RecoveryKeyEvent} :
    bytes.drop 140 = (tailFields event).flatten ↔ Tail bytes event := by
  have hslice : ∀ a b, slice (bytes.drop 140) a b = slice bytes (140 + a) (140 + b) := by
    intro a b
    rw [slice, slice, List.drop_drop, Nat.add_sub_add_left]
  have hdrop : ∀ n, (bytes.drop 140).drop n = bytes.drop (140 + n) := fun n => List.drop_drop
  have hne : tailFields event ≠ [] := by
    unfold tailFields
    cases event.keyConfirmationDigest <;> exact List.cons_ne_nil _ _
  obtain ⟨generation, command, semantic, fingerprint, reservation, confirmation, phase,
    retention⟩ := event
  have hzero : ([0] : List UInt8) ≠ [] := List.cons_ne_nil _ _
  have hwire : ∀ expiresAt : Int64, wire expiresAt ≠ [] := by
    intro expiresAt h
    have hlen := congrArg List.length h
    rw [length_wire_i64] at hlen
    cases hlen
  rw [eq_comm]
  -- the two options decide where the tail is cut
  rcases confirmation with _ | digest <;> rcases retention with _ | expiresAt
  · rw [@flatten_eq_iff_cutAt _ _ _ hne [1] rfl]
    simp only [tailFields, confirmationFields, retentionFields, cutAt, List.cons_append,
      List.nil_append, List.cons.injEq, and_true, hslice, hdrop, drop_eq_iff hzero]
    constructor
    · rintro ⟨h140, h141, hlen⟩
      refine ⟨⟨hlen, h140, h141⟩, fun d hd => ?_, fun e he => ?_⟩
      · cases hd
      · cases he
    · rintro ⟨⟨hlen, h140, h141⟩, -, -⟩
      exact ⟨h140, h141, hlen⟩
  · rw [@flatten_eq_iff_cutAt _ _ _ hne [1, 2] rfl]
    simp only [tailFields, confirmationFields, retentionFields, cutAt, List.cons_append,
      List.nil_append, List.cons.injEq, and_true, hslice, hdrop, drop_eq_iff (hwire expiresAt)]
    constructor
    · rintro ⟨h140, h141, h142, hlen⟩
      refine ⟨⟨hlen, h140, h141⟩, fun d hd => ?_, fun e he => ?_⟩
      · cases hd
      · cases he
        exact h142
    · rintro ⟨⟨hlen, h140, h141⟩, -, h142⟩
      exact ⟨h140, h141, h142 expiresAt rfl, hlen⟩
  · rw [@flatten_eq_iff_cutAt _ _ _ hne [1, 33] (by simp [tailFields, positions, confirmationFields,
      retentionFields])]
    simp only [tailFields, confirmationFields, retentionFields, cutAt, List.cons_append,
      List.nil_append, List.cons.injEq, and_true, hslice, hdrop, drop_eq_iff hzero]
    constructor
    · rintro ⟨h140, h141, h173, hlen⟩
      refine ⟨⟨hlen, h140, h173⟩, fun d hd => ?_, fun e he => ?_⟩
      · cases hd
        exact h141
      · cases he
    · rintro ⟨⟨hlen, h140, h173⟩, h141, -⟩
      exact ⟨h140, h141 digest rfl, h173, hlen⟩
  · rw [@flatten_eq_iff_cutAt _ _ _ hne [1, 33, 34] (by simp [tailFields, positions,
      confirmationFields, retentionFields])]
    simp only [tailFields, confirmationFields, retentionFields, cutAt, List.cons_append,
      List.nil_append, List.cons.injEq, and_true, hslice, hdrop, drop_eq_iff (hwire expiresAt)]
    constructor
    · rintro ⟨h140, h141, h173, h174, hlen⟩
      refine ⟨⟨hlen, h140, h173⟩, fun d hd => ?_, fun e he => ?_⟩
      · cases hd
        exact h141
      · cases he
        exact h174
    · rintro ⟨⟨hlen, h140, h173⟩, h141, h174⟩
      exact ⟨h140, h141 digest rfl, h173, h174 expiresAt rfl, hlen⟩

/-- **The encoding of an event, field by field.** -/
theorem encoding_eq_iff {bytes : List UInt8} {event : RecoveryKeyEvent} :
    encoding event = bytes ↔ Head bytes event ∧ Tail bytes event := by
  rw [head_iff, tail_iff]

/-! ### The decoder -/

section Decoder

variable {bytes : List UInt8}

theorem confirmationLength_eq_ok {present : UInt8} {n : ℕ} :
    confirmationLength present = .ok n ↔
      ∃ confirmed, present = tag confirmed ∧ 141 + n = retentionOffset confirmed := by
  unfold confirmationLength
  rw [Bool.exists_bool]
  split_ifs with h0 h1
  · subst h0
    have hne : (0 : UInt8) ≠ 1 := by decide
    simp only [tag, retentionOffset, Except.ok.injEq, Bool.false_eq_true, if_false, if_true,
      true_and, hne, false_and, or_false]
    omega
  · subst h1
    simp only [tag, retentionOffset, Except.ok.injEq, Bool.false_eq_true, if_false, if_true, h0,
      false_and, true_and, false_or]
    omega
  · simp [tag, h0, h1]

theorem retentionAt_eq_ok {offset : ℕ} {retention : RecoveryKeyEventRetention} :
    retentionAt bytes offset = .ok retention ↔
      slice bytes offset (offset + 1) = [tag retention.isTerminal] ∧
      ∀ expiresAt, retention = .terminal expiresAt →
        slice bytes (offset + 1) (offset + 9) = wire expiresAt := by
  have hexpires : ∀ expiresAt : Int64, intAt bytes (offset + 1) (offset + 9) = .ok expiresAt ↔
      slice bytes (offset + 1) (offset + 9) = wire expiresAt :=
    fun expiresAt => intAt_eq_ok (offset + 1) (show 0 < 8 by decide) rfl
  rw [retentionAt, bind_eq_ok]
  simp only [index_eq_ok]
  constructor
  · rintro ⟨present, hpresent, h⟩
    split_ifs at h with h0 h1
    · cases h
      subst h0
      refine ⟨hpresent, fun e he => ?_⟩
      cases he
    · subst h1
      obtain ⟨e, he, hretention⟩ := bind_eq_ok.1 h
      cases hretention
      refine ⟨hpresent, fun e' he' => ?_⟩
      cases he'
      exact (hexpires e).1 he
  · rintro ⟨hpresent, h⟩
    refine ⟨_, hpresent, ?_⟩
    cases retention with
    | null => rfl
    | terminal e => exact bind_eq_ok.2 ⟨e, (hexpires e).2 (h e rfl), rfl⟩

theorem expectedLength_eq_ok {confirmed : Bool} {retention : RecoveryKeyEventRetention} {n : ℕ} :
    expectedLength (tag confirmed) retention = .ok n ↔
      n = encodedLength confirmed retention.isTerminal := by
  have hlength : expectedLength (tag confirmed) retention =
      .ok (encodedLength confirmed retention.isTerminal) := by
    cases confirmed <;> cases retention <;> rfl
  rw [hlength, Except.ok.injEq, eq_comm]

theorem confirmationAt_eq_ok {confirmed : Bool} {confirmation : Option (ByteVec 32)} :
    confirmationAt bytes (tag confirmed) = .ok confirmation ↔
      confirmed = confirmation.isSome ∧
        ∀ digest ∈ confirmation, slice bytes 141 173 = digest.toList := by
  cases confirmed with
  | false =>
    show Except.ok none = .ok confirmation ↔ _
    cases confirmation <;> simp
  | true =>
    show some <$> digestAt bytes 141 = .ok confirmation ↔ _
    simp only [map_eq_ok, digestAt_eq_ok]
    cases confirmation <;> simp

/-- **The decoder accepts exactly the encodings of valid events.** -/
theorem decodeRecoveryKeyEvent_eq_ok {event : RecoveryKeyEvent} :
    decodeRecoveryKeyEvent bytes = .ok event ↔
      encoding event = bytes ∧ validateEvent event = .ok () := by
  have hint : ∀ generation : UInt64, intAt bytes 4 12 = .ok generation ↔
      slice bytes 4 12 = wire generation :=
    fun generation => intAt_eq_ok 4 (show 0 < 8 by decide) rfl
  rw [encoding_eq_iff]
  simp only [decodeRecoveryKeyEvent, bind_eq_ok, pure_eq_ok, index_eq_ok, reject_eq_ok,
    confirmationLength_eq_ok, retentionAt_eq_ok, digestAt_eq_ok, hint,
    RecoveryKeyEventPhase.fromCode_eq_ok, Bool.or_eq_false_iff, bne_eq_false_iff_eq,
    decide_eq_false_iff_not]
  constructor
  · rintro ⟨-, -, present, hpresent, n, ⟨confirmed, rfl, hn⟩, -, -, retention,
      ⟨hretention, hexpires⟩, expected, hexpected, -, hlength, generation, hgeneration, command,
      hcommand, semantic, hsemantic, fingerprint, hfingerprint, reservation, hreservation,
      confirmation, hconfirmation, code, hcode, phase, rfl, v, hv, o, ho, a, ha, -,
      ⟨⟨rfl, rfl⟩, rfl⟩, u, hvalid, rfl⟩
    obtain ⟨rfl, hdigest⟩ := confirmationAt_eq_ok.1 hconfirmation
    obtain rfl := expectedLength_eq_ok.1 hexpected
    rw [hn] at hretention hexpires
    exact ⟨⟨⟨hv, ho, ha, hcode, hgeneration, hcommand, hsemantic, hfingerprint, hreservation⟩,
      ⟨hlength, hpresent, hretention⟩, hdigest, hexpires⟩, hvalid⟩
  · rintro ⟨⟨hhead, hshaped, hdigest, hexpires⟩, hvalid⟩
    have hlong : retentionOffset event.keyConfirmationDigest.isSome < bytes.length := by
      rw [hshaped.length, encodedLength]
      split_ifs <;> omega
    obtain ⟨n, hn⟩ : ∃ n, 141 + n = retentionOffset event.keyConfirmationDigest.isSome := by
      unfold retentionOffset
      split_ifs
      · exact ⟨32, rfl⟩
      · exact ⟨0, rfl⟩
    refine ⟨(), by omega, _, hshaped.confirmation, n, ⟨_, rfl, hn⟩, (), by omega, event.retention,
      ?_, _, expectedLength_eq_ok.2 rfl, (), hshaped.length, _, hhead.generation, _, hhead.command,
      _, hhead.semantic, _, hhead.fingerprint, _, hhead.reservation, _,
      confirmationAt_eq_ok.2 ⟨rfl, hdigest⟩, _, hhead.phase, _, rfl, _, hhead.version, _,
      hhead.operation, _, hhead.actor, (), ⟨⟨rfl, rfl⟩, rfl⟩, (), hvalid, rfl⟩
    rw [hn]
    exact ⟨hshaped.retention, hexpires⟩

end Decoder

/-! ### The accepted byte strings -/

/-- No access of the computation is out of range. -/
def Safe {α : Type} (x : Except Stop α) : Prop := x ≠ .error .panic

section Safety

variable {α β : Type} {bytes : List UInt8}

theorem Safe.bind {x : Except Stop α} {f : α → Except Stop β} (h : Safe x)
    (hf : ∀ a, x = .ok a → Safe (f a)) : Safe (x >>= f) := by
  cases x with
  | ok a => exact hf a rfl
  | error e => exact fun he => h (congrArg Except.error (Except.error.inj he))

theorem safe_ok (a : α) : Safe (.ok a) := by
  intro h
  cases h

theorem safe_invalid : Safe (.error .invalidRecoveryKeyEvent : Except Stop α) := by
  intro h
  cases h

theorem safe_reject (bad : Bool) : Safe (reject bad .invalidRecoveryKeyEvent) := by
  cases bad
  · exact safe_ok ()
  · exact safe_invalid

theorem safe_orError (x : Option α) : Safe (orError .invalidRecoveryKeyEvent x) := by
  cases x
  · exact safe_invalid
  · exact safe_ok _

theorem safe_index {i : ℕ} (h : i < bytes.length) : Safe (index bytes i) := by
  rw [index, List.getElem?_eq_getElem h]
  exact safe_ok _

theorem safe_digestAt (offset : ℕ) : Safe (digestAt bytes offset) :=
  (safe_orError _).bind fun _ _ => safe_orError _

theorem safe_intAt [FixedWidth α] (a b : ℕ) : Safe (intAt bytes a b : Except Stop α) :=
  (safe_orError _).bind fun _ _ => safe_orError _

theorem safe_retentionAt {offset : ℕ} (h : offset < bytes.length) :
    Safe (retentionAt bytes offset) := by
  refine (safe_index h).bind fun present _ => ?_
  split_ifs
  · exact safe_ok _
  · exact (safe_intAt _ _).bind fun _ _ => safe_ok _
  · exact safe_invalid

theorem safe_validateEvent (event : RecoveryKeyEvent) : Safe (validateEvent event) :=
  (safe_reject _).bind fun _ _ => safe_reject _

/-- The checks of the length come before the accesses. -/
theorem safe_decodeRecoveryKeyEvent (bytes : List UInt8) : Safe (decodeRecoveryKeyEvent bytes) := by
  refine (safe_reject _).bind fun _ hlong => ?_
  rw [reject_eq_ok, decide_eq_false_iff_not] at hlong
  refine (safe_index (by omega)).bind fun present _ => ?_
  refine Safe.bind ?_ fun n _ => ?_
  · unfold confirmationLength
    split_ifs
    · exact safe_ok _
    · exact safe_ok _
    · exact safe_invalid
  refine (safe_reject _).bind fun _ hoffset => ?_
  rw [reject_eq_ok, decide_eq_false_iff_not] at hoffset
  refine (safe_retentionAt (by omega)).bind fun retention _ => ?_
  refine Safe.bind ?_ fun expected _ => ?_
  · unfold expectedLength
    cases retention <;> simp only <;> split_ifs <;> first | exact safe_ok _ | exact safe_invalid
  refine (safe_reject _).bind fun _ _ => (safe_intAt _ _).bind fun _ _ =>
    (safe_digestAt _).bind fun _ _ => (safe_digestAt _).bind fun _ _ =>
    (safe_digestAt _).bind fun _ _ => (safe_digestAt _).bind fun _ _ => ?_
  refine Safe.bind ?_ fun confirmation _ => ?_
  · unfold confirmationAt
    split_ifs
    · exact safe_ok _
    · exact (safe_digestAt _).bind fun _ _ => safe_ok _
    · exact safe_invalid
  refine (safe_index (by omega)).bind fun code _ => ?_
  refine Safe.bind ?_ fun phase _ => ?_
  · unfold RecoveryKeyEventPhase.fromCode
    split_ifs <;> first | exact safe_ok _ | exact safe_invalid
  exact (safe_index (by omega)).bind fun _ _ => (safe_index (by omega)).bind fun _ _ =>
    (safe_index (by omega)).bind fun _ _ => (safe_reject _).bind fun _ _ =>
    (safe_validateEvent _).bind fun _ _ => safe_ok _

end Safety

/-- Phase, confirmation and retention form a combination of the phase table. -/
def Tabled (bytes : List UInt8) (confirmed terminal : Bool) : Prop :=
  ∃ phase : RecoveryKeyEventPhase, slice bytes 3 4 = [phase.code] ∧
    phaseAllows phase confirmed terminal = true

/-- Where the fields stand that are not zero. -/
def requiredFields (confirmed : Bool) : List (ℕ × ℕ) :=
  [(4, 12), (12, 44), (44, 76), (76, 108), (108, 140)] ++ if confirmed then [(141, 173)] else []

/-- The accepted byte strings. -/
structure Canonical (bytes : List UInt8) (confirmed terminal : Bool) : Prop where
  shaped : Shaped bytes confirmed terminal
  tabled : Tabled bytes confirmed terminal
  constants : slice bytes 0 3 = [version, recoveryKeyGenerateOperation, fixedStateOwnerActor]
  nonzero : ∀ field ∈ requiredFields confirmed, digestIsZero (slice bytes field.1 field.2) = false

theorem digestIsZero_wire {generation : UInt64} :
    digestIsZero (wire generation) = (generation == 0) := by
  rw [Bool.eq_iff_iff, beq_iff_eq, digestIsZero, List.all_eq_true]
  have hzero : wire (0 : UInt64) = List.replicate 8 0 := by decide +kernel
  constructor
  · intro h
    apply wire_injective
    rw [hzero, List.eq_replicate_iff]
    exact ⟨length_wire_u64 _, fun b hb => eq_of_beq (h b hb)⟩
  · rintro rfl b hb
    rw [hzero] at hb
    rw [List.eq_of_mem_replicate hb]
    rfl

theorem validateEvent_eq_ok {event : RecoveryKeyEvent} {bytes : List UInt8}
    (hhead : Head bytes event) (htail : Tail bytes event) :
    validateEvent event = .ok () ↔
      (∀ field ∈ requiredFields event.keyConfirmationDigest.isSome,
        digestIsZero (slice bytes field.1 field.2) = false) ∧
      phaseAllows event.phase event.keyConfirmationDigest.isSome event.retention.isTerminal =
        true := by
  have hdigest := htail.digest
  unfold validateEvent
  cases hconfirmation : event.keyConfirmationDigest with
  | none =>
    simp [reject_bind_eq_ok, requiredFields, hhead.generation, digestIsZero_wire, hhead.command,
      hhead.semantic, hhead.fingerprint, hhead.reservation, and_assoc]
  | some digest =>
    rw [hconfirmation] at hdigest
    simp [reject_bind_eq_ok, requiredFields, hhead.generation, digestIsZero_wire, hhead.command,
      hhead.semantic, hhead.fingerprint, hhead.reservation, hdigest digest rfl, and_assoc]

theorem constants_iff {bytes : List UInt8} : slice bytes 0 3 =
    [version, recoveryKeyGenerateOperation, fixedStateOwnerActor] ↔
    slice bytes 0 1 = [version] ∧ slice bytes 1 2 = [recoveryKeyGenerateOperation] ∧
      slice bytes 2 3 = [fixedStateOwnerActor] := by
  rcases bytes with _ | ⟨a, _ | ⟨b, _ | ⟨c, rest⟩⟩⟩ <;> simp [slice]

/-- The digest at an offset of a byte string that is long enough. -/
theorem exists_digest {bytes : List UInt8} (offset : ℕ) (h : offset + 32 ≤ bytes.length) :
    ∃ digest : ByteVec 32, slice bytes offset (offset + 32) = digest.toList :=
  ⟨⟨slice bytes offset (offset + 32), by rw [length_slice h, Nat.add_sub_cancel_left]⟩, rfl⟩

/-- A byte string of the right shape has fields. -/
theorem Shaped.exists_fields {bytes : List UInt8} {confirmed terminal : Bool}
    (h : Shaped bytes confirmed terminal) (phase : RecoveryKeyEventPhase)
    (hconstants : slice bytes 0 3 = [version, recoveryKeyGenerateOperation, fixedStateOwnerActor])
    (hphase : slice bytes 3 4 = [phase.code]) :
    ∃ event : RecoveryKeyEvent, event.phase = phase ∧
      event.keyConfirmationDigest.isSome = confirmed ∧ event.retention.isTerminal = terminal ∧
      Head bytes event ∧ Tail bytes event := by
  have hlength := h.length
  have hlong : 142 ≤ bytes.length := by
    rw [hlength, encodedLength, retentionOffset]
    split_ifs <;> omega
  obtain ⟨command, hcommand⟩ := exists_digest 12 (show 12 + 32 ≤ bytes.length by omega)
  obtain ⟨semantic, hsemantic⟩ := exists_digest 44 (show 44 + 32 ≤ bytes.length by omega)
  obtain ⟨fingerprint, hfingerprint⟩ := exists_digest 76 (show 76 + 32 ≤ bytes.length by omega)
  obtain ⟨reservation, hreservation⟩ := exists_digest 108 (show 108 + 32 ≤ bytes.length by omega)
  -- the digest is there exactly if its flag is set
  obtain ⟨confirmation, hsome, hdigest⟩ : ∃ confirmation : Option (ByteVec 32),
      confirmation.isSome = confirmed ∧
        ∀ digest ∈ confirmation, slice bytes 141 173 = digest.toList := by
    cases confirmed with
    | false =>
      refine ⟨none, rfl, fun digest hdigest => ?_⟩
      cases hdigest
    | true =>
      have h173 : 173 ≤ bytes.length := by
        rw [hlength, encodedLength, retentionOffset, if_pos rfl]
        omega
      obtain ⟨digest, hdigest⟩ := exists_digest 141 h173
      refine ⟨some digest, rfl, fun digest' hdigest' => ?_⟩
      cases hdigest'
      exact hdigest
  -- and so is the instant
  obtain ⟨retention, hterminal, hexpires⟩ : ∃ retention : RecoveryKeyEventRetention,
      retention.isTerminal = terminal ∧ ∀ expiresAt, retention = .terminal expiresAt →
        slice bytes (retentionOffset confirmed + 1) (retentionOffset confirmed + 9) =
          wire expiresAt := by
    cases terminal with
    | false =>
      refine ⟨.null, rfl, fun expiresAt hexpires => ?_⟩
      cases hexpires
    | true =>
      have hwidth : (slice bytes (retentionOffset confirmed + 1)
          (retentionOffset confirmed + 9)).length = 8 := by
        rw [length_slice (by rw [hlength, encodedLength, if_pos rfl]), Nat.add_sub_add_left]
      obtain ⟨instant, hend⟩ : ∃ instant : Int64, wire instant =
          slice bytes (retentionOffset confirmed + 1) (retentionOffset confirmed + 9) :=
        ⟨unwire _, wire_unwire hwidth⟩
      refine ⟨.terminal instant, rfl, fun expiresAt hexpires => ?_⟩
      cases hexpires
      exact hend.symm
  obtain ⟨hversion, hoperation, hactor⟩ := constants_iff.1 hconstants
  have hgeneration : slice bytes 4 12 = wire (unwire (slice bytes 4 12) : UInt64) := by
    rw [wire_unwire]
    exact length_slice (by omega)
  subst hsome hterminal
  exact ⟨⟨_, command, semantic, fingerprint, reservation, confirmation, phase, retention⟩, rfl, rfl,
    rfl, ⟨hversion, hoperation, hactor, hphase, hgeneration, hcommand, hsemantic, hfingerprint,
    hreservation⟩, ⟨h, hdigest, hexpires⟩⟩

theorem decodeRecoveryKeyEvent_accepts_iff {bytes : List UInt8} :
    (∃ event, decodeRecoveryKeyEvent bytes = .ok event) ↔
      ∃ confirmed terminal, Canonical bytes confirmed terminal := by
  simp only [decodeRecoveryKeyEvent_eq_ok, encoding_eq_iff]
  constructor
  · rintro ⟨event, ⟨hhead, htail⟩, hvalid⟩
    obtain ⟨hnonzero, hallows⟩ := (validateEvent_eq_ok hhead htail).1 hvalid
    exact ⟨_, _, htail.shaped, ⟨event.phase, hhead.phase, hallows⟩,
      constants_iff.2 ⟨hhead.version, hhead.operation, hhead.actor⟩, hnonzero⟩
  · rintro ⟨confirmed, terminal, hshaped, ⟨phase, hphase, hallows⟩, hconstants, hnonzero⟩
    obtain ⟨event, rfl, rfl, rfl, hhead, htail⟩ := hshaped.exists_fields phase hconstants hphase
    exact ⟨event, ⟨hhead, htail⟩, (validateEvent_eq_ok hhead htail).2 ⟨hnonzero, hallows⟩⟩

/-- **The codec is canonical**: it inverts itself in both directions, the accepted byte strings are
the canonical ones, and no access is out of range. -/
theorem recoveryKeyEvent_canonical :
    (∀ event, validateEvent event = .ok () →
      ∃ bytes, encodeRecoveryKeyEvent event = .ok bytes ∧
        decodeRecoveryKeyEvent bytes = .ok event) ∧
    (∀ bytes event, decodeRecoveryKeyEvent bytes = .ok event →
      encodeRecoveryKeyEvent event = .ok bytes) ∧
    (∀ bytes, (∃ event, decodeRecoveryKeyEvent bytes = .ok event) ↔
      ∃ confirmed terminal, Canonical bytes confirmed terminal) ∧
    ∀ bytes, decodeRecoveryKeyEvent bytes ≠ .error .panic := by
  have hencode : ∀ event, validateEvent event = .ok () →
      encodeRecoveryKeyEvent event = .ok (encoding event) := by
    intro event hvalid
    exact bind_eq_ok.2 ⟨(), hvalid, rfl⟩
  refine ⟨fun event hvalid => ?_, fun bytes event h => ?_,
    fun _ => decodeRecoveryKeyEvent_accepts_iff, safe_decodeRecoveryKeyEvent⟩
  · exact ⟨_, hencode event hvalid, decodeRecoveryKeyEvent_eq_ok.2 ⟨rfl, hvalid⟩⟩
  · obtain ⟨rfl, hvalid⟩ := decodeRecoveryKeyEvent_eq_ok.1 h
    exact hencode event hvalid

/-- An event of zeros, but for its phase. -/
def blankEvent : List UInt8 := [0, 0, 0, 1] ++ List.replicate 138 0

/-- Shape and phase table alone do not make an event. -/
theorem blankEvent_rejected :
    (∃ confirmed terminal, Shaped blankEvent confirmed terminal ∧
      Tabled blankEvent confirmed terminal) ∧
    ¬ ∃ event, decodeRecoveryKeyEvent blankEvent = .ok event := by
  constructor
  · exact ⟨false, false, ⟨by decide +kernel, by decide +kernel, by decide +kernel⟩, .intentGenerate,
      rfl, rfl⟩
  · rintro ⟨event, h⟩
    have hversion := (encoding_eq_iff.1 (decodeRecoveryKeyEvent_eq_ok.1 h).1).1.version
    exact absurd hversion (by decide)

end MsgRiver.Journal.Recovery
