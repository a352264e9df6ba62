import MsgRiver.Journal.Cells
import MsgRiver.Journal.Course

/-!
# The way out of a pending acknowledgement

A pending acknowledgement is finished from its second phase in one record.  From its first phase it
is first applied, which takes the hold that it names and a safe time that has not passed its target:
a newer hold is settled and the hold is entered again, but a safe time that has passed the target
does not come back.  An acknowledgement that is overtaken in this way stays pending for ever, and
every other one has a way out (`acknowledgement_exits`).
-/

namespace MsgRiver.Journal

open Bytes Result Wire

/-! ### Records of acknowledgements -/

/-- The body of an action of an acknowledgement. -/
def actionBody (action : AddressedAction) : List UInt8 :=
  (encodeAddressedAction .clockAcknowledge action).toOption.getD []

/-- The head of the record of an action. -/
def actionHead (projection : CompleteCheckpoint) (action : AddressedAction) : JournalHead :=
  sealedHead projection.coveredHead .clockAcknowledge (actionBody action)

theorem encode_actionBody {action : AddressedAction} {tag : UInt8} {fields : List (List UInt8)}
    (hpayload : actionPayload .clockAcknowledge action = .ok (tag, fields))
    (hlength : fields.flatten.length ≤ 306) :
    encodeAddressedAction .clockAcknowledge action = .ok (actionBody action) := by
  have hshort : fields.flatten.length < 2 ^ 16 := by omega
  have hencode : ∃ body, encodeAddressedAction .clockAcknowledge action = .ok body := by
    refine ⟨_, bind_eq_ok.2 ⟨(tag, fields), hpayload, bind_eq_ok.2 ⟨fields.flatten,
      written_eq_ok.2 ⟨rfl, hlength⟩, orError_bind_eq_ok.2 ⟨UInt16.ofNat fields.flatten.length,
        ofNat?_eq_some.2 (UInt16.toNat_ofNat_of_lt' hshort), written_eq_ok.2 ⟨rfl, ?_⟩⟩⟩⟩⟩
    simp [-List.length_flatten]
    omega
  obtain ⟨body, hbody⟩ := hencode
  rw [actionBody, hbody]
  rfl

theorem length_le_of_encodeAddressedAction {operation : AddressedOperation}
    {action : AddressedAction}
    {body : List UInt8} (h : encodeAddressedAction operation action = .ok body) :
    body.length ≤ maxBodyBytes := by
  obtain ⟨⟨tag, fields⟩, -, h⟩ := bind_eq_ok.1 h
  obtain ⟨payload, -, h⟩ := bind_eq_ok.1 h
  obtain ⟨length, -, h⟩ := orError_bind_eq_ok.1 h
  obtain ⟨rfl, hlength⟩ := written_eq_ok.1 h
  rw [maxBodyBytes, maxFrameBytes, minFrameBytes]
  omega

/-- The tag of an action. -/
def AddressedAction.tag : AddressedAction → UInt8
  | .publishRequest _ => 1
  | .publishPhase .. => 2
  | .commitMirror _ => 3

theorem tag_of_encodeAddressedAction {operation : AddressedOperation} {action : AddressedAction}
    {body : List UInt8} (h : encodeAddressedAction operation action = .ok body) :
    byteAt body 1 = action.tag := by
  obtain ⟨⟨tag, fields⟩, hpayload, h⟩ := bind_eq_ok.1 h
  obtain ⟨payload, -, h⟩ := bind_eq_ok.1 h
  obtain ⟨length, -, h⟩ := orError_bind_eq_ok.1 h
  obtain ⟨rfl, -⟩ := written_eq_ok.1 h
  have htag : tag = action.tag := by
    cases action with
    | publishRequest value =>
      obtain ⟨-, hpayload⟩ := reject_bind_eq_ok.1 hpayload
      obtain ⟨bytes, -, hpayload⟩ := bind_eq_ok.1 hpayload
      cases hpayload
      rfl
    | publishPhase phase result =>
      cases hpayload
      rfl
    | commitMirror post =>
      cases hpayload
      rfl
  rw [← htag, wire_u8, wire_u8]
  rfl

section Steps

variable {projection stored : CompleteCheckpoint} {action normal : AddressedAction}
  {value : AddressedStateValue} {head : JournalHead} {body : List UInt8}

/-- An action of an acknowledgement can be taken, if it can be replayed and leaves a valid
projection. The record carries the action with its own head. -/
theorem stepped_acknowledge (hbody : encodeAddressedAction .clockAcknowledge action = .ok body)
    (hnormal : encodeAddressedAction .clockAcknowledge normal = .ok body)
    (hhead : sealedHead projection.coveredHead .clockAcknowledge body = head)
    (hagrees : ActionAgrees .clockAcknowledge head normal)
    (hsequence : projection.coveredHead.sequence.toNat + 1 < 2 ^ 64)
    (hacted : Acted projection .clockAcknowledge head normal stored value)
    (hvalue : validAddressedValue .clockAcknowledge value = true)
    (hvalid : ValidCheckpoint ((storeValue stored .clockAcknowledge value).setHead head)) :
    (JournalStep.addressed .clockAcknowledge action (processOf 1) false).Stepped projection
      ((storeValue stored .clockAcknowledge value).setHead head) := by
  subst hhead
  have hreplayed : replayRecord projection (AddressedOperation.clockAcknowledge.record normal)
      (sealedHead projection.coveredHead .clockAcknowledge body) =
        .ok (storeValue stored .clockAcknowledge value) :=
    bind_eq_ok.2 ⟨(stored, value), replayAction_eq_ok.2 hacted,
      bind_eq_ok.2 ⟨(), validateAddressedValue_eq_ok.2 hvalue, rfl⟩⟩
  refine ⟨by decide, rfl, ⟨body, normal, _, _, _, hbody,
    decode_encodeAddressedAction hnormal hagrees, rfl, recordStep_sealed
      (encodeTailRecord_record hnormal) (length_le_of_encodeAddressedAction hnormal) hsequence
      hreplayed, rfl⟩, hvalid⟩

theorem toNat_succ_of_room {sequence : UInt64} (h : sequence.toNat + 1 < 2 ^ 64) :
    (sequence + 1).toNat = sequence.toNat + 1 := by
  rw [UInt64.toNat_add]
  exact Nat.mod_eq_of_lt h

theorem lt_succ_of_room {sequence : UInt64} (h : sequence.toNat + 1 < 2 ^ 64) :
    sequence < sequence + 1 := by
  rw [UInt64.lt_iff_toNat_lt, toNat_succ_of_room h]
  exact Nat.lt_succ_self _

/-- The head of a record lies beyond the head before it. -/
theorem lt_sealedHead {prior : JournalHead} {kind : ControlJournalRecordKind} {body : List UInt8}
    (hsequence : prior.sequence.toNat + 1 < 2 ^ 64) :
    prior.sequence < (sealedHead prior kind body).sequence := lt_succ_of_room hsequence

theorem sequence_sealedHead_ne {prior : JournalHead} {kind : ControlJournalRecordKind}
    {body : List UInt8} (hsequence : prior.sequence.toNat + 1 < 2 ^ 64) :
    (sealedHead prior kind body).sequence ≠ 0 := by
  intro hzero
  have hlt : prior.sequence < (sealedHead prior kind body).sequence := lt_sealedHead hsequence
  rw [hzero] at hlt
  exact absurd hlt (UInt64.not_lt.2 (UInt64.le_iff_toNat_le.2 (Nat.zero_le _)))

theorem validateHead_eq_ok {head : JournalHead} (hsequence : head.sequence ≠ 0)
    (hdigest : head.digest ≠ ByteVec.zero 32) : validateHead head = .ok () := by
  rw [validateHead, reject_eq_ok, beq_eq_false_iff_ne.2 hsequence, beq_eq_false_iff_ne.2 hdigest]
  rfl

end Steps

/-! ### The clock of an acknowledgement -/

section Fits

variable {projection next : CompleteCheckpoint} {value : AddressedStateValue}

/-- Without a hold, an acknowledgement fits if its target is reached once it is applied. -/
theorem acknowledgeFits_of_none {clock : ClockAuthorityProjection} {current : Bool}
    (hhold : clock.hold = none) (htarget : 2 ≤ value.phase → value.target ≤ clock.safeTime) :
    acknowledgeFits clock current value = true := by
  unfold acknowledgeFits
  unfold AddressedStateValue.target at htarget
  cases hevidence : value.evidence with
  | shutdown => rfl
  | acknowledge wall tick prior selected target =>
    simp only [hevidence, hhold] at htarget ⊢
    rw [Bool.and_true, Bool.not_eq_true', Bool.and_eq_false_iff, decide_eq_false_iff_not,
      decide_eq_false_iff_not, Int64.not_lt]
    by_cases hphase : 2 ≤ value.phase
    · exact .inr (htarget hphase)
    · exact .inl hphase

/-- An acknowledgement fits its own hold. -/
theorem acknowledgeFits_of_matches {clock : ClockAuthorityProjection} {current : Bool}
    (hmatches : addressedHoldMatches clock value.address = true)
    (htarget : 2 ≤ value.phase → value.target ≤ clock.safeTime) :
    acknowledgeFits clock current value = true := by
  have hnone : acknowledgeFits { clock with hold := none } current value = true :=
    acknowledgeFits_of_none rfl htarget
  unfold acknowledgeFits at hnone ⊢
  cases hevidence : value.evidence with
  | shutdown => rfl
  | acknowledge wall tick prior selected target =>
    simp only [hevidence, Bool.and_true] at hnone ⊢
    rw [hnone, Bool.true_and]
    cases hhold : clock.hold with
    | none => rfl
    | some hold =>
      have haddress := (addressedHoldMatches_iff hhold).1 hmatches
      rw [haddress] at hmatches
      simp [haddress, hmatches, UInt64.lt_irrefl]

/-- An acknowledgement that is applied has reached its target. -/
theorem target_le_of_acknowledgeFits {clock : ClockAuthorityProjection} {current : Bool}
    {wall tick prior : Int64} {selected : Option Int64}
    (hevidence : value.evidence = .acknowledge wall tick prior selected value.target)
    (h : acknowledgeFits clock current value = true) (hphase : 2 ≤ value.phase) :
    value.target ≤ clock.safeTime := by
  unfold acknowledgeFits at h
  rw [hevidence] at h
  simp only [Bool.and_eq_true, Bool.not_eq_true', Bool.and_eq_false_iff, decide_eq_false_iff_not,
    Int64.not_lt] at h
  exact h.1.resolve_left (fun hnot => hnot hphase)

/-- The cells of a shutdown have nothing to do with the clock. -/
theorem fits_of_acknowledge (hvalid : ValidCheckpoint projection) {index : Fin 4}
    (hmoved : Moved projection next index) (hindex : index = 0 ∨ index = 1)
    (hpending : ∀ value, (next.addressed 0).state = some value →
      acknowledgeFits next.clockAuthority (next.addressed 0).current value = true)
    (hlast : ∀ value, (next.addressed 1).state = some value →
      acknowledgeFits next.clockAuthority (next.addressed 1).current value = true) :
    ∀ cell value, (next.addressed cell).state = some value →
      acknowledgeFits next.clockAuthority (next.addressed cell).current value = true := by
  have hshutdown : ∀ cell value, (next.addressed cell).state = some value → cell ≠ index →
      (emptyCell cell).operation = .systemShutdown →
      acknowledgeFits next.clockAuthority (next.addressed cell).current value = true := by
    intro cell value hvalue hne hoperation
    rcases hmoved.cells cell value hvalue with hold | ⟨hsame, -⟩
    · have hsubject := (validAddressedValue_iff.1 (hvalid.cellFits hold).valid).2.1
      have hevidence := (ofOperation_of_validSubject hsubject).evidence
      rw [(hvalid.slots cell).1, hoperation] at hevidence
      unfold acknowledgeFits
      cases hshutdown : value.evidence with
      | shutdown => rfl
      | acknowledge =>
        rw [hshutdown] at hevidence
        cases hevidence
    · exact absurd hsame hne
  intro cell value hvalue
  match cell with
  | 0 => exact hpending value hvalue
  | 1 => exact hlast value hvalue
  | 2 => exact hshutdown 2 value hvalue (by rcases hindex with rfl | rfl <;> decide) rfl
  | 3 => exact hshutdown 3 value hvalue (by rcases hindex with rfl | rfl <;> decide) rfl

end Fits

/-! ### The steps out -/

/-- A pending acknowledgement. -/
structure Pending (projection : CompleteCheckpoint) (value : AddressedStateValue) : Prop where
  valid : ValidCheckpoint projection
  state : (projection.addressed 0).state = some value

section Pending

variable {projection next : CompleteCheckpoint} {value : AddressedStateValue}

theorem Pending.last (h : Pending projection value) : (projection.addressed 1).state = none := by
  rcases h.valid.oneCellEach .clockAcknowledge with hnone | hnone
  · cases hnone.symm.trans h.state
  · exact hnone

theorem Pending.validValue (h : Pending projection value) :
    validAddressedValue .clockAcknowledge value = true := by
  have hvalid := (h.valid.cellFits h.state).valid
  rw [(h.valid.slots 0).1] at hvalid
  exact hvalid

theorem Pending.parts (h : Pending projection value) :
    ∃ generation digest wall tick prior selected,
      AcknowledgeParts value generation digest wall tick prior selected :=
  validSubject_acknowledge_iff.1 (validAddressedValue_iff.1 h.validValue).2.1

/-- The target is reached once the acknowledgement is applied. -/
theorem Pending.target_le (h : Pending projection value) (hphase : 2 ≤ value.phase) :
    value.target ≤ projection.clockAuthority.safeTime := by
  obtain ⟨generation, digest, wall, tick, prior, selected, hparts⟩ := h.parts
  exact target_le_of_acknowledgeFits hparts.evidence (h.valid.cellFits h.state).clock hphase

/-- It is in its first phase or in its second one. -/
theorem Pending.phase (h : Pending projection value) : value.phase = 1 ∨ value.phase = 2 := by
  obtain ⟨_, _, _, _, _, _, hparts⟩ := h.parts
  have hge : 1 ≤ value.phase.toNat := UInt8.le_iff_toNat_le.1 hparts.phase.1
  have hle : value.phase.toNat ≤ 3 := UInt8.le_iff_toNat_le.1 hparts.phase.2
  have hcurrent := (h.valid.cellFits h.state).current
  rw [(h.valid.slots 0).2] at hcurrent
  by_cases hthree : value.phase.toNat = 3
  · -- in the third phase it would be complete, or its mirror could not be pending
    have hphase : value.phase = 3 := UInt8.toNat_inj.1 hthree
    have hmirror := (validAddressedValue_iff.1 h.validValue).2.2.1
    rw [validMirror] at hmirror
    cases hpending : value.mirror with
    | pending origin pre policy =>
      rw [hpending, hphase] at hmirror
      simp at hmirror
    | notApplicable =>
      rw [addressedComplete, hphase, hpending] at hcurrent
      exact absurd rfl hcurrent
    | committed =>
      rw [addressedComplete, hphase, hpending] at hcurrent
      exact absurd rfl hcurrent
  · by_cases hone : value.phase.toNat = 1
    · exact .inl (UInt8.toNat_inj.1 hone)
    · exact .inr (UInt8.toNat_inj.1 (show value.phase.toNat = 2 by omega))

/-- The mirror of an acknowledgement in its first two phases is not committed. -/
theorem Pending.not_committed (h : Pending projection value) :
    value.mirror = .notApplicable ∨ ∃ origin pre policy, value.mirror = .pending origin pre policy ∧
      validMirrorBase .clockAcknowledge origin pre policy = true := by
  have hmirror := (validAddressedValue_iff.1 h.validValue).2.2.1
  rw [validMirror] at hmirror
  cases hcase : value.mirror with
  | notApplicable => exact .inl rfl
  | pending origin pre policy =>
    rw [hcase] at hmirror
    exact .inr ⟨origin, pre, policy, rfl, (Bool.and_eq_true_iff.1 hmirror).1⟩
  | committed origin pre policy post =>
    rw [hcase] at hmirror
    rcases h.phase with hphase | hphase
    · rw [hphase] at hmirror
      simp at hmirror
    · rw [hphase] at hmirror
      simp at hmirror

/-- The action that applies an acknowledgement. -/
def raiseAction (value : AddressedStateValue) : AddressedAction :=
  .publishPhase 2 (.acknowledge value.target false)

/-- The acknowledgement behind it. -/
def raisedValue (projection : CompleteCheckpoint) (value : AddressedStateValue) :
    AddressedStateValue :=
  value.atPhase 2 value.mirror (actionHead projection (raiseAction value))

/-- The acknowledgement has raised the safe time. -/
def raised (projection : CompleteCheckpoint) (value : AddressedStateValue) : CompleteCheckpoint :=
  ((projection.setClock { projection.clockAuthority with safeTime := value.target }).setState 0
    (some (raisedValue projection value))).setHead (actionHead projection (raiseAction value))

theorem length_phaseFields (phase : UInt8) (time : Int64) (settled : Bool) :
    (wire phase :: encodeAddressedResult (.acknowledge time settled)).flatten.length ≤ 306 := by
  simp [encodeAddressedResult]

/-- **An acknowledgement of the hold that stands is applied**, if its target is not passed. -/
theorem Pending.raise (h : Pending projection value) (hphase : value.phase = 1)
    (hmatches : addressedHoldMatches projection.clockAuthority value.address = true)
    (hsafe : projection.clockAuthority.safeTime ≤ value.target)
    (hsequence : projection.coveredHead.sequence.toNat + 1 < 2 ^ 64)
    (hdigest : (actionHead projection (raiseAction value)).digest ≠ ByteVec.zero 32) :
    (JournalStep.addressed .clockAcknowledge (raiseAction value) (processOf 1) false).Stepped
      projection
      (raised projection value) ∧
    Pending (raised projection value) (raisedValue projection value) := by
  obtain ⟨generation, digest, wall, tick, prior, selected, hparts⟩ := h.parts
  have hbody : encodeAddressedAction .clockAcknowledge (raiseAction value) =
      .ok (actionBody (raiseAction value)) := encode_actionBody rfl (length_phaseFields _ _ _)
  have hne : (actionHead projection (raiseAction value)).sequence ≠ 0 :=
      sequence_sealedHead_ne hsequence
  have hlt : projection.coveredHead.sequence < (actionHead projection (raiseAction value)).sequence :=
    lt_sealedHead hsequence
  have hmirror : validMirror .clockAcknowledge (raisedValue projection value) = true := by
    have hsame : (raisedValue projection value).mirror = value.mirror := rfl
    rw [validMirror, hsame]
    rcases h.not_committed with hnone | ⟨origin, pre, policy, hpending, hbase⟩
    · rw [hnone]
    · rw [hpending]
      exact Bool.and_eq_true_iff.2 ⟨hbase, rfl⟩
  have hvalue : validAddressedValue .clockAcknowledge (raisedValue projection value) = true :=
    validAcknowledge h.validValue (by decide) rfl hmirror hne hdigest
  -- the safe time is raised to the target of the evidence
  have hacted : Acted projection .clockAcknowledge (actionHead projection (raiseAction value))
      (raiseAction value)
      (projection.setClock { projection.clockAuthority with safeTime := value.target })
      (raisedValue projection value) := by
    refine .phase h.state ?_ ?_ ?_
    · rw [legalPhase, hphase]
      rfl
    · rcases h.not_committed with hnone | ⟨origin, pre, policy, hpending, -⟩
      · rw [hnone]
        rfl
      · rw [hpending]
        rfl
    · show applyAcknowledge projection value = _
      unfold applyAcknowledge
      rw [hparts.evidence]
      refine reject_bind_eq_ok.2 ⟨?_, rfl⟩
      rw [hmatches, Bool.not_true, Bool.false_or, decide_eq_false_iff_not, Int64.not_lt]
      exact hsafe
  have hmoved : Moved projection (raised projection value) 0 :=
    moved_store h.valid _ 0 hvalue (show true ≠ false by decide) rfl rfl hlt
  -- the named hold stands, and the raised safe time reaches the target
  have hfits := fits_of_acknowledge h.valid hmoved (.inl rfl)
    (fun other hother => by
      obtain rfl := Option.some.inj hother
      exact acknowledgeFits_of_matches hmatches fun _ => Int64.le_refl _)
    (fun other hother => by cases h.last.symm.trans hother)
  have hvalid : ValidCheckpoint (raised projection value) := by
    refine h.valid.moved hmoved (validateHead_eq_ok hne hdigest) ?_ (fun operation => ?_) hfits
    · obtain ⟨bytes, hbytes⟩ := h.valid.clock
      obtain ⟨⟨⟩, hclock, -⟩ := bind_eq_ok.1 hbytes
      exact ⟨_, bind_eq_ok.2 ⟨(), hclock, rfl⟩⟩
    · cases operation with
      | clockAcknowledge => exact .inr h.last
      | systemShutdown => exact h.valid.oneCellEach .systemShutdown
  exact ⟨stepped_acknowledge hbody hbody rfl rfl hsequence hacted hvalue hvalid, hvalid, rfl⟩

/-- The action that finishes an acknowledgement; a mirror is committed at the next sequence. -/
def finishAction (value : AddressedStateValue) : AddressedAction :=
  match value.mirror with
  | .pending _ pre _ => .commitMirror ⟨pre.sequence + 1, pre.digest⟩
  | _ => .publishPhase 3 (.acknowledge value.target true)

/-- The mirror behind it. -/
def finishMirror (value : AddressedStateValue) : AddressedMirror :=
  match value.mirror with
  | .pending origin pre policy => .committed origin pre policy ⟨pre.sequence + 1, pre.digest⟩
  | mirror => mirror

/-- The acknowledgement behind it. -/
def finishedValue (projection : CompleteCheckpoint) (value : AddressedStateValue) :
    AddressedStateValue :=
  value.atPhase 3 (finishMirror value) (actionHead projection (finishAction value))

/-- The acknowledgement is complete, and its value in the cell of completions. -/
def finished (projection : CompleteCheckpoint) (value : AddressedStateValue) : CompleteCheckpoint :=
  (storeValue projection .clockAcknowledge (finishedValue projection value)).setHead
    (actionHead projection (finishAction value))

/-- The mirror of the acknowledgement has room for one more sequence. -/
def MirrorRoom (value : AddressedStateValue) : Prop :=
  ∀ origin pre policy, value.mirror = .pending origin pre policy → pre.sequence.toNat + 1 < 2 ^ 64

/-- What the end of an acknowledgement writes, by its mirror. -/
theorem Pending.finish_acted (h : Pending projection value) (hphase : value.phase = 2)
    (hroom : MirrorRoom value) :
    encodeAddressedAction .clockAcknowledge (finishAction value) =
      .ok (actionBody (finishAction value)) ∧
    (∀ head, ActionAgrees .clockAcknowledge head (finishAction value)) ∧
    (∀ head, Acted projection .clockAcknowledge head (finishAction value) projection
      (value.atPhase 3 (finishMirror value) head)) ∧
    (∀ head, validMirror .clockAcknowledge (value.atPhase 3 (finishMirror value) head) = true) ∧
    (finishMirror value == .notApplicable) = (value.mirror == .notApplicable) ∧
    (finishMirror value).isPending = false := by
  obtain ⟨generation, digest, wall, tick, prior, selected, hparts⟩ := h.parts
  unfold finishAction finishMirror
  -- without a mirror the last phase is published, with one it is committed
  rcases h.not_committed with hnone | ⟨origin, pre, policy, hpending, hbase⟩
  · simp only [hnone]
    refine ⟨encode_actionBody rfl (length_phaseFields _ _ _), fun _ => rfl, fun head => ?_,
      fun _ => rfl, trivial, rfl⟩
    have hlegal : legalPhase .clockAcknowledge value 3 = true := by
      rw [legalPhase, hphase, hnone]
      rfl
    have hacted : Acted projection .clockAcknowledge head
        (.publishPhase 3 (.acknowledge value.target true)) projection
        (value.atPhase 3 value.mirror head) :=
      .phase h.state hlegal (by rw [hnone]; rfl) rfl
    rw [hnone] at hacted
    exact hacted
  · simp only [hpending]
    have hpost : pre.sequence < pre.sequence + 1 :=
        lt_succ_of_room (hroom origin pre policy hpending)
    have hdigest : pre.digest ≠ ByteVec.zero 32 := by
      rw [validMirrorBase, Bool.not_eq_true', Bool.or_eq_false_iff, Bool.or_eq_false_iff,
        beq_eq_false_iff_ne] at hbase
      exact hbase.1.2
    refine ⟨encode_actionBody rfl (by simp [headFields]), fun _ => trivial, fun head => ?_,
      fun _ => ?_, rfl, rfl⟩
    · refine .commit h.state hpending hphase hpost hdigest ?_
      simp only [finishCommit, hparts.evidence]
      rw [← hparts.evidence]
      rfl
    · refine Bool.and_eq_true_iff.2 ⟨hbase, ?_⟩
      rw [Bool.not_eq_true', Bool.or_eq_false_iff, Bool.or_eq_false_iff, decide_eq_false_iff_not,
        decide_eq_false_iff_not, UInt64.not_le, beq_eq_false_iff_ne]
      exact ⟨⟨(by decide : ¬ (3 : UInt8) < 3), hpost⟩, hdigest⟩

/-- The projection without the pending acknowledgement is valid, if a completion fits the clock. -/
theorem Pending.valid_without (h : Pending projection value) (hmoved : Moved projection next 1)
    (hhead : validateHead next.coveredHead = .ok ())
    (hclock : next.clockAuthority = projection.clockAuthority ∨ next.clockAuthority.hold = none)
    (hnone : (next.addressed 0).state = none)
    (hshutdown : next.addressed 2 = projection.addressed 2 ∧
      next.addressed 3 = projection.addressed 3)
    (hlast : ∀ value, (next.addressed 1).state = some value →
      acknowledgeFits next.clockAuthority (next.addressed 1).current value = true) :
    ValidCheckpoint next := by
  refine h.valid.moved hmoved hhead ?_ (fun operation => ?_) (fits_of_acknowledge h.valid hmoved
    (.inr rfl) (fun other hother => by cases hnone.symm.trans hother) hlast)
  · rcases hclock with hsame | hhold
    · rw [hsame]
      exact h.valid.clock
    · refine ⟨_, bind_eq_ok.2 ⟨(), ?_, rfl⟩⟩
      rw [validateProjection, reject_eq_ok, hhold]
      rfl
  · cases operation with
    | clockAcknowledge => exact .inl hnone
    | systemShutdown =>
      have hone : (projection.addressed 2).state = none ∨ (projection.addressed 3).state = none :=
        h.valid.oneCellEach .systemShutdown
      rw [← hshutdown.1, ← hshutdown.2] at hone
      exact hone

/-- **An acknowledgement in its second phase is finished.** -/
theorem Pending.finish (h : Pending projection value) (hphase : value.phase = 2)
    (hroom : MirrorRoom value) (hsequence : projection.coveredHead.sequence.toNat + 1 < 2 ^ 64)
    (hdigest : (actionHead projection (finishAction value)).digest ≠ ByteVec.zero 32) :
    (JournalStep.addressed .clockAcknowledge (finishAction value) (processOf 1) false).Stepped
      projection (finished projection value) ∧
    ((finished projection value).addressed 0).state = none := by
  obtain ⟨hbody, hagrees, hacted, hmirror, hnone, hdone⟩ := h.finish_acted hphase hroom
  have hne : (actionHead projection (finishAction value)).sequence ≠ 0 :=
      sequence_sealedHead_ne hsequence
  have hlt : projection.coveredHead.sequence < (actionHead projection (finishAction value)).sequence :=
    lt_sealedHead hsequence
  have hvalue : validAddressedValue .clockAcknowledge (finishedValue projection value) = true :=
    validAcknowledge h.validValue (by decide) hnone (hmirror _) hne hdigest
  have hcomplete : addressedComplete (finishedValue projection value) = true := by
    rw [addressedComplete]
    show (decide ((3 : UInt8) ≤ 3) && !(finishMirror value).isPending) = true
    rw [hdone]
    rfl
  have hreached : value.target ≤ projection.clockAuthority.safeTime :=
    h.target_le (by rw [hphase]; decide)
  -- with a matching hold the completion is retained and the hold cleared, otherwise it is dropped
  have hvalid : ValidCheckpoint (finished projection value) := by
    have hstored : storeValue projection .clockAcknowledge (finishedValue projection value) =
        completeAcknowledge projection (finishedValue projection value) := by
      rw [storeValue, if_pos hcomplete]
    rw [finished, hstored]
    unfold completeAcknowledge
    split_ifs with hmatches
    · have hmoved := (moved_store h.valid { projection.clockAuthority with hold := none } 1 hvalue
        (by rw [hcomplete]; decide) rfl rfl hlt).clear 0
      show ValidCheckpoint
        ((((projection.setClock { projection.clockAuthority with hold := none }).setState 0
          none).setState 1 (some (finishedValue projection value))).setHead _)
      rw [CompleteCheckpoint.setState_comm _ _ (show (0 : Fin 4) ≠ 1 by decide)]
      refine h.valid_without hmoved (validateHead_eq_ok hne hdigest) (.inr rfl)
        (CompleteCheckpoint.setState_state_self _ _ _) ⟨rfl, rfl⟩ fun other hother => ?_
      obtain rfl := Option.some.inj hother
      exact acknowledgeFits_of_none rfl fun _ => hreached
    · have hmoved := (moved_clock projection projection.clockAuthority 1 (.inr hlt)).clear 0
      refine h.valid_without hmoved (validateHead_eq_ok hne hdigest) (.inl rfl)
        (CompleteCheckpoint.setState_state_self _ _ _) ⟨rfl, rfl⟩ fun other hother => ?_
      cases h.last.symm.trans hother
  refine ⟨stepped_acknowledge hbody hbody rfl (hagrees _) hsequence (hacted _) hvalue hvalid, ?_⟩
  rw [finished, CompleteCheckpoint.setHead_addressed]
  have hstate := storeValue_state projection .clockAcknowledge (finishedValue projection value)
  rw [if_pos hcomplete] at hstate
  exact hstate

/-- **A hold that the acknowledgement does not name is settled**, and the acknowledgement stays. -/
theorem Pending.settle (h : Pending projection value) {hold : ClockAuthorityHold}
    (hhold : projection.clockAuthority.hold = some hold)
    (hother : addressedHoldMatches projection.clockAuthority value.address = false)
    (hsequence : projection.coveredHead.sequence.toNat + 1 < 2 ^ 64)
    (hdigest : (settlementHead projection hold).digest ≠ ByteVec.zero 32) :
    (JournalStep.clock (settlementBody hold projection.clockAuthority.safeTime)).Stepped projection
      (withoutHold projection hold) ∧ Pending (withoutHold projection hold) value := by
  have hne : (settlementHead projection hold).sequence ≠ 0 := sequence_sealedHead_ne hsequence
  have hlt : projection.coveredHead.sequence < (settlementHead projection hold).sequence :=
    lt_sealedHead hsequence
  have hmoved : Moved projection (withoutHold projection hold) 0 := moved_clock _ _ 0 (.inr hlt)
  have hvalid : ValidCheckpoint (withoutHold projection hold) := by
    refine h.valid.moved hmoved (validateHead_eq_ok hne hdigest) ⟨_, bind_eq_ok.2 ⟨(), rfl, rfl⟩⟩
      h.valid.oneCellEach (fits_of_acknowledge h.valid hmoved (.inl rfl) (fun other hstate => ?_)
        (fun other hstate => ?_))
    · obtain rfl := Option.some.inj (h.state.symm.trans hstate)
      exact acknowledgeFits_of_none rfl fun hphase => h.target_le hphase
    · cases h.last.symm.trans hstate
  refine ⟨stepped_settlement hhold hsequence (fun other hstate => ?_) h.valid hvalid, hvalid,
    h.state⟩
  obtain rfl := Option.some.inj (h.state.symm.trans hstate)
  exact hother

/-- The hold that an acknowledgement names. -/
def namedHold (value : AddressedStateValue) : ClockAuthorityHold :=
  match value.address with
  | .clockHold generation digest => ⟨generation, digest⟩
  | .processInstance _ => ⟨0, ByteVec.zero 32⟩

/-- **The hold of the acknowledgement is entered** if none stands. -/
theorem Pending.enter (h : Pending projection value)
    (hhold : projection.clockAuthority.hold = none) :
    (enterHold projection (namedHold value)).Stepped projection
      (withHold projection (namedHold value)) ∧
    Pending (withHold projection (namedHold value)) value ∧
    addressedHoldMatches (withHold projection (namedHold value)).clockAuthority value.address =
      true := by
  obtain ⟨generation, digest, wall, tick, prior, selected, hparts⟩ := h.parts
  have hnamed : namedHold value = ⟨generation, digest⟩ := by
    rw [namedHold, hparts.address]
  have hmatches : addressedHoldMatches (withHold projection (namedHold value)).clockAuthority
      value.address = true := by
    have hhold : (withHold projection (namedHold value)).clockAuthority.hold =
        some (namedHold value) := rfl
    refine (addressedHoldMatches_iff hhold).2 ?_
    rw [hnamed, hparts.address]
  have hclock : (withHold projection (namedHold value)).clockAuthority =
      { projection.clockAuthority with hold := some (namedHold value) } := rfl
  have hstate : ((withHold projection (namedHold value)).addressed 0).state = some value := by
    rw [withHold, CompleteCheckpoint.setClock_addressed,
      withoutSuperseded_addressed_of_ne _ _ _ (by decide), h.state]
  have hlast : ((withHold projection (namedHold value)).addressed 1).state = none := by
    rw [withHold, CompleteCheckpoint.setClock_addressed,
      withoutSuperseded_addressed_of_ne _ _ _ (by decide), h.last]
  -- a completed shutdown of another process may be left out
  have hmoved : Moved projection (withHold projection (namedHold value)) 0 := by
    have hkept := moved_clock projection
      { projection.clockAuthority with hold := some (namedHold value) }
      0 (.inl rfl)
    unfold withHold withoutSuperseded
    split_ifs
    · exact hkept.clear 3
    · exact hkept
  have hvalid : ValidCheckpoint (withHold projection (namedHold value)) := by
    refine h.valid.moved hmoved ?_ ?_ (fun operation => ?_)
      (fits_of_acknowledge h.valid hmoved (.inl rfl)
      (fun other hother => ?_) (fun other hother => ?_))
    · unfold withHold withoutSuperseded
      split_ifs <;> exact h.valid.head
    · refine ⟨_, bind_eq_ok.2 ⟨(), ?_, rfl⟩⟩
      rw [hclock, validateProjection, reject_eq_ok, Option.any_some, hnamed, Bool.or_eq_false_iff,
        beq_eq_false_iff_ne, beq_eq_false_iff_ne]
      exact ⟨hparts.generation_ne, hparts.digest_ne⟩
    · cases operation with
      | clockAcknowledge => exact .inr hlast
      | systemShutdown =>
        unfold withHold withoutSuperseded
        split_ifs
        · exact .inr (CompleteCheckpoint.setState_state_self projection 3 none)
        · exact h.valid.oneCellEach .systemShutdown
    · obtain rfl := Option.some.inj (hstate.symm.trans hother)
      exact acknowledgeFits_of_matches hmatches fun hphase => h.target_le hphase
    · cases hlast.symm.trans hother
  exact ⟨stepped_enterHold hhold h.last hvalid, ⟨hvalid, hstate⟩, hmatches⟩

end Pending

/-! ### What a step does to the acknowledgement -/

/-- The safe time that a step asks for. -/
def JournalStep.newSafeTime : JournalStep → Option Int64
  | .clock body => some body.newSafeTime
  | .addressed .. => none
  | .authority next _ => some next.safeTime
  | .fold _ => none

/-- What a step can do to the pending acknowledgement, and the safe time behind it. -/
inductive AcknowledgeChange (projection : CompleteCheckpoint) (step : JournalStep) (time : Int64) :
    Option AddressedStateValue → Prop
  | kept (htime : time = projection.clockAuthority.safeTime ∨ step.newSafeTime = some time) :
      AcknowledgeChange projection step time (projection.addressed 0).state
  | requested {request : AddressedStateValue} (hnone : (projection.addressed 0).state = none)
      (hphase : request.phase = 1) (htime : time ≤ request.target) :
      AcknowledgeChange projection step time (some request)
  | applied {value next : AddressedStateValue} (hpending : (projection.addressed 0).state = some value)
      (hsafe : projection.clockAuthority.safeTime ≤ value.target) (hphase : next.phase = 2) :
      AcknowledgeChange projection step time (some next)
  | ended {value : AddressedStateValue} (hpending : (projection.addressed 0).state = some value)
      (hphase : value.phase = 2) : AcknowledgeChange projection step time none

theorem le_acknowledgeTarget (wall prior : Int64) (selected : Option Int64) :
    prior ≤ acknowledgeTarget wall prior selected := by
  have hmax : ∀ a b : Int64, a ≤ max a b := by
    intro a b
    show a ≤ if a ≤ b then b else a
    split_ifs with hle
    · exact hle
    · exact Int64.le_refl a
  exact Int64.le_trans (hmax prior wall) (hmax _ _)

section Changes

variable {projection stepped : CompleteCheckpoint} {step : JournalStep}

theorem AddressedStep.acknowledgeChange {action : AddressedAction} {currentProcess : ByteVec 16}
    {recovery : Bool}
    (h : AddressedStep projection .clockAcknowledge action currentProcess recovery stepped) :
    AcknowledgeChange projection (.addressed .clockAcknowledge action currentProcess recovery)
      stepped.clockAuthority.safeTime (stepped.addressed 0).state := by
  obtain ⟨normal, head, stored, value, -, hacted, hvalid, rfl⟩ := h.acted
  have hparts := validSubject_acknowledge_iff.1 (validAddressedValue_iff.1 hvalid).2.1
  rw [withoutSuperseded_addressed_of_ne _ _ _ (by decide), withoutSuperseded_clockAuthority,
    CompleteCheckpoint.setHead_addressed, CompleteCheckpoint.setHead_clockAuthority]
  have hstate : ((storeValue stored .clockAcknowledge value).addressed 0).state =
      if addressedComplete value then none else some value :=
    storeValue_state stored .clockAcknowledge value
  rw [hstate]
  -- of a request, a phase and a commit, the second phase is what raises the safe time
  cases hacted with
  | request hnone hphase _ _ _ hevidence =>
    obtain ⟨generation, digest, wall, tick, prior, selected, hparts⟩ := hparts
    have hcomplete : addressedComplete value = false := by
      rw [addressedComplete, hphase]
      rfl
    rw [requestEvidenceFits, hparts.evidence, Bool.and_eq_true, beq_iff_eq] at hevidence
    have htime :
        (storeValue projection .clockAcknowledge value).clockAuthority.safeTime ≤ value.target := by
      rw [storeValue, if_neg (by rw [hcomplete]; decide), CompleteCheckpoint.setState_clockAuthority,
        ← hevidence.2, hparts.target]
      exact le_acknowledgeTarget wall prior selected
    rw [show (if addressedComplete value = true then none else some value) = some value from
      if_neg (by rw [hcomplete]; decide)]
    exact .requested hnone hphase htime
  | @phase pending phase result applied hpending hlegal huncommitted happlied =>
    simp only [legalPhase, Bool.or_eq_true, Bool.and_eq_true, beq_iff_eq] at hlegal
    rcases hlegal with ⟨hone, rfl⟩ | ⟨⟨htwo, rfl⟩, hmirror⟩
    · refine .applied hpending ?_ rfl
      obtain ⟨generation, digest, wall, tick, prior, selected, hparts⟩ := hparts
      have hevidence : pending.evidence = .acknowledge wall tick prior selected pending.target :=
        hparts.evidence
      change applyAcknowledge projection pending = .ok stored at happlied
      rw [applyAcknowledge, hevidence] at happlied
      obtain ⟨hfits, -⟩ := reject_bind_eq_ok.1 happlied
      rw [Bool.or_eq_false_iff, decide_eq_false_iff_not, Int64.not_lt] at hfits
      exact hfits.2
    · rw [if_pos]
      · exact .ended hpending htwo
      · rw [addressedComplete, hmirror]
        rfl
  | @commit pending committed origin pre post policy hpending hmirror hphase hpost hdigest hfinish =>
    have hcomplete : addressedComplete value = true := by
      unfold finishCommit at hfinish
      split at hfinish
      · cases ‹AddressedOperation.clockAcknowledge = _›
      · cases hfinish
      · obtain rfl := Except.ok.inj hfinish
        rfl
    rw [if_pos hcomplete]
    exact .ended hpending hphase

theorem JournalStep.Stepped.acknowledgeChange (h : step.Stepped projection stepped) :
    AcknowledgeChange projection step stepped.clockAuthority.safeTime (stepped.addressed 0).state := by
  cases step with
  | clock body =>
    obtain ⟨head, clocked, -, hclocked, rfl⟩ := ClockStep.clocked h
    cases hclocked with
    | plain => exact .kept (.inr rfl)
    | settled hpending hreason hmatches hevidence hmirror hphase =>
      rw [CompleteCheckpoint.setHead_addressed,
        CompleteCheckpoint.setState_addressed_of_ne _ (by decide),
        CompleteCheckpoint.setState_state_self]
      exact .ended hpending hphase
  | addressed operation action currentProcess recovery =>
    cases operation with
    | clockAcknowledge => exact AddressedStep.acknowledgeChange h
    | systemShutdown =>
      rw [AddressedStep.addressed_of_ne h (by decide) (by decide) (by decide)]
      exact .kept (.inl (congrArg _ (AddressedStep.clockChange h).of_shutdown))
  | authority clock currentProcess =>
    obtain ⟨evicted, hevicted, rfl⟩ := AuthorityStep.evicted h
    rw [CompleteCheckpoint.setClock_addressed, withoutSuperseded_addressed_of_ne _ _ _ (by decide)]
    rcases evictAcknowledge_cases hevicted with ⟨rfl, -⟩ | ⟨_, _, _, _, -, -, -, -, rfl⟩
    · exact .kept (.inr rfl)
    · rw [CompleteCheckpoint.setState_addressed_of_ne _ (by decide)]
      exact .kept (.inr rfl)
  | fold trigger =>
    obtain rfl : stepped = projection := h
    exact .kept (.inl rfl)

/-- The safe time has passed the target of an acknowledgement that is not applied. -/
def Overtaken (projection : CompleteCheckpoint) : Prop :=
  ∃ value, (projection.addressed 0).state = some value ∧ value.phase = 1 ∧
    value.target < projection.clockAuthority.safeTime

/-- The step asks for a safe time beyond the target of an acknowledgement that is not applied. -/
def Overtakes (projection : CompleteCheckpoint) (step : JournalStep) : Prop :=
  ∃ value time, (projection.addressed 0).state = some value ∧ value.phase = 1 ∧
    step.newSafeTime = some time ∧ value.target < time

/-- **An acknowledgement that is overtaken stays so.** -/
theorem JournalStep.Stepped.overtaken (h : step.Stepped projection stepped)
    (hovertaken : Overtaken projection) : Overtaken stepped := by
  obtain ⟨value, hpending, hphase, hlt⟩ := hovertaken
  have hle := h.clockChange.safeTime_le
  have hchange := h.acknowledgeChange
  generalize hstate : (stepped.addressed 0).state = state at hchange
  cases hchange with
  | kept => exact ⟨value, hstate.trans hpending, hphase, Int64.lt_of_lt_of_le hlt hle⟩
  | requested hnone => cases hnone.symm.trans hpending
  | applied hpending' hsafe =>
    obtain rfl := Option.some.inj (hpending.symm.trans hpending')
    exact absurd hlt (Int64.not_lt.2 hsafe)
  | ended hpending' hphase' =>
    obtain rfl := Option.some.inj (hpending.symm.trans hpending')
    cases hphase.symm.trans hphase'

/-- A step that does not overtake an acknowledgement leaves it in time. -/
theorem JournalStep.Stepped.not_overtaken (h : step.Stepped projection stepped)
    (hstep : ¬ Overtakes projection step) (hprojection : ¬ Overtaken projection) :
    ¬ Overtaken stepped := by
  rintro ⟨value, hpending, hphase, hlt⟩
  have hchange := h.acknowledgeChange
  rw [hpending] at hchange
  generalize hstate : some value = state at hchange
  cases hchange with
  | kept htime =>
    rcases htime with htime | htime
    · rw [htime] at hlt
      exact hprojection ⟨value, hstate.symm, hphase, hlt⟩
    · exact hstep ⟨value, _, hstate.symm, hphase, htime, hlt⟩
  | requested hnone hphase' htime =>
    obtain rfl := Option.some.inj hstate
    exact absurd hlt (Int64.not_lt.2 htime)
  | applied _ _ hphase' =>
    obtain rfl := Option.some.inj hstate
    cases hphase.symm.trans hphase'
  | ended => cases hstate

end Changes

/-! ### The way out -/

/-- Calls that all succeed lead to an image without a pending acknowledgement. -/
def Exits (key : JournalIntegrityKey) (image : CompleteControlJournalImage) : Prop :=
  ∃ (steps : List JournalStep) (final : CompleteControlJournalImage) (projection : CompleteCheckpoint),
    (∀ step ∈ steps, ∀ trigger, step ≠ .fold trigger) ∧ applyAll key image steps = .ok final ∧
    replayTail final = .ok projection ∧ (projection.addressed 0).state = none

/-- The records of the way out: the settlement of another hold, the acknowledgement, and its end. -/
def exitRecords (clock : ClockAuthorityProjection) (value : AddressedStateValue) :
    List (ControlJournalRecordKind × List UInt8) :=
  if value.phase = 1 then
    ((clock.hold.filter fun _ => !addressedHoldMatches clock value.address).map fun hold =>
      (ControlJournalRecordKind.clockCheckpoint,
        (bodyFields (settlementBody hold clock.safeTime)).flatten)).toList
    ++ [(.clockAcknowledge, actionBody (raiseAction value)),
      (.clockAcknowledge, actionBody (finishAction value))]
  else [(.clockAcknowledge, actionBody (finishAction value))]

/-- The heads of records behind each other. -/
def sealedHeads (prior : JournalHead) : List (ControlJournalRecordKind × List UInt8) →
    List JournalHead
  | [] => []
  | (kind, body) :: rest => sealedHead prior kind body :: sealedHeads (sealedHead prior kind body) rest

section Exits

variable {key : JournalIntegrityKey} {image next : CompleteControlJournalImage}
  {projection stepped : CompleteCheckpoint} {value : AddressedStateValue} {step : JournalStep}

theorem Exits.cons (hstep : step.apply key image = .ok next)
    (hfold : ∀ trigger, step ≠ .fold trigger)
    (h : Exits key next) : Exits key image := by
  obtain ⟨steps, final, projection, hsteps, hrun, hreplayed, hnone⟩ := h
  refine ⟨step :: steps, final, projection, ?_, ?_, hreplayed, hnone⟩
  · intro other hother
    rcases List.mem_cons.1 hother with rfl | hother
    · exact hfold
    · exact hsteps other hother
  · rw [applyAll, List.foldlM_cons, hstep]
    exact hrun

/-- A step that the projection admits leads out if what follows does. -/
theorem Spare.exits_step {room : ℕ} (h : Spare key image projection (room + 1))
    (hstep : step.Stepped projection stepped) (hfold : ∀ trigger, step ≠ .fold trigger)
    (hnext : ∀ next, Spare key next stepped room → Exits key next) : Exits key image := by
  obtain ⟨next, hnext', hspare⟩ := h.apply hstep
  exact Exits.cons hnext' hfold (hnext next hspare)

theorem Spare.exits_nil {room : ℕ} (h : Spare key image projection room)
    (hnone : (projection.addressed 0).state = none) : Exits key image := by
  obtain ⟨generation, hstands, -⟩ := h
  exact ⟨[], image, _, by simp, rfl, hstands.replayed, hnone⟩

/-- The second phase has a way out. -/
theorem Spare.exits_finish {room : ℕ} (h : Spare key image projection (room + 1))
    (hpending : Pending projection value) (hphase : value.phase = 2) (hmirror : MirrorRoom value)
    (hsequence : projection.coveredHead.sequence.toNat + 1 < 2 ^ 64)
    (hdigest : (actionHead projection (finishAction value)).digest ≠ ByteVec.zero 32) :
    Exits key image := by
  obtain ⟨hstep, hnone⟩ := hpending.finish hphase hmirror hsequence hdigest
  exact h.exits_step hstep (fun _ => by simp) fun next hnext => hnext.exits_nil hnone

/-- The first phase has one, under the hold that the acknowledgement names. -/
theorem Spare.exits_raise {room : ℕ} (h : Spare key image projection (room + 2))
    (hpending : Pending projection value) (hphase : value.phase = 1) (hmirror : MirrorRoom value)
    (hmatches : addressedHoldMatches projection.clockAuthority value.address = true)
    (hsafe : projection.clockAuthority.safeTime ≤ value.target)
    (hsequence : projection.coveredHead.sequence.toNat + 2 < 2 ^ 64)
    (hdigests : ∀ head ∈ sealedHeads projection.coveredHead
      [(.clockAcknowledge, actionBody (raiseAction value)),
        (.clockAcknowledge, actionBody (finishAction value))], head.digest ≠ ByteVec.zero 32) :
    Exits key image := by
  obtain ⟨hstep, hraised⟩ := hpending.raise hphase hmatches hsafe (by omega)
    (hdigests _ (.head _))
  refine h.exits_step hstep (fun _ => by simp) fun next hnext => ?_
  refine hnext.exits_finish hraised rfl hmirror ?_ (hdigests _ (.tail _ (.head _)))
  show (projection.coveredHead.sequence + 1).toNat + 1 < 2 ^ 64
  rw [toNat_succ_of_room (by omega)]
  omega

/-- It has one without a hold. -/
theorem Spare.exits_enter {room : ℕ} (h : Spare key image projection (room + 3))
    (hpending : Pending projection value) (hphase : value.phase = 1) (hmirror : MirrorRoom value)
    (hhold : projection.clockAuthority.hold = none)
    (hsafe : projection.clockAuthority.safeTime ≤ value.target)
    (hsequence : projection.coveredHead.sequence.toNat + 2 < 2 ^ 64)
    (hdigests : ∀ head ∈ sealedHeads projection.coveredHead
      [(.clockAcknowledge, actionBody (raiseAction value)),
        (.clockAcknowledge, actionBody (finishAction value))], head.digest ≠ ByteVec.zero 32) :
    Exits key image := by
  obtain ⟨hstep, hentered, hmatches⟩ := hpending.enter hhold
  have hhead : (withHold projection (namedHold value)).coveredHead = projection.coveredHead := by
    unfold withHold withoutSuperseded
    split_ifs <;> rfl
  refine h.exits_step hstep (fun _ => by simp [enterHold]) fun next hnext => ?_
  exact hnext.exits_raise hentered hphase hmirror hmatches hsafe (by rw [hhead]; exact hsequence)
    (by rw [hhead]; exact hdigests)

/-- **An acknowledgement that is not overtaken has a way out.** -/
theorem Spare.exits (h : Spare key image projection 4) (hpending : Pending projection value)
    (hsafe : value.phase = 1 → projection.clockAuthority.safeTime ≤ value.target)
    (hmirror : MirrorRoom value) (hsequence : projection.coveredHead.sequence.toNat + 3 < 2 ^ 64)
    (hdigests : ∀ head ∈ sealedHeads projection.coveredHead
      (exitRecords projection.clockAuthority value), head.digest ≠ ByteVec.zero 32) :
    Exits key image := by
  unfold exitRecords at hdigests
  rcases hpending.phase with hphase | hphase
  · rw [if_pos hphase] at hdigests
    cases hhold : projection.clockAuthority.hold with
    | none =>
      rw [hhold] at hdigests
      exact (show Spare key image projection (1 + 3) from h).exits_enter hpending hphase hmirror hhold
        (hsafe hphase) (by omega) hdigests
    | some hold =>
      by_cases hmatches : addressedHoldMatches projection.clockAuthority value.address = true
      · rw [hhold, Option.filter_some, hmatches] at hdigests
        exact (show Spare key image projection (2 + 2) from h).exits_raise hpending hphase hmirror
          hmatches (hsafe hphase) (by omega) hdigests
      · rw [Bool.not_eq_true] at hmatches
        rw [hhold, Option.filter_some, hmatches] at hdigests
        obtain ⟨hstep, hsettled⟩ := hpending.settle hhold hmatches (by omega) (hdigests _ (.head _))
        refine Spare.exits_step h hstep (fun _ => by simp) fun next hnext => ?_
        refine hnext.exits_enter hsettled hphase hmirror rfl (hsafe hphase) ?_
          fun head hhead => hdigests head (.tail _ hhead)
        show (projection.coveredHead.sequence + 1).toNat + 2 < 2 ^ 64
        rw [toNat_succ_of_room (by omega)]
        omega
  · rw [if_neg (by rw [hphase]; decide)] at hdigests
    exact (show Spare key image projection (3 + 1) from h).exits_finish hpending hphase hmirror
      (by omega) (hdigests _ (.head _))

/-- **An acknowledgement that is overtaken has none.** -/
theorem Stands.not_exits (h : Stands key image projection) (hovertaken : Overtaken projection) :
    ¬ Exits key image := by
  rintro ⟨steps, final, last, -, hrun, hlast, hnone⟩
  obtain ⟨reached, hreached, value, hpending, -⟩ := applyAll_induct h hovertaken
    (fun _ _ hovertaken => hovertaken)
    (fun _ _ _ _ _ _ _ _ _ hstep hovertaken => hstep.overtaken hovertaken) hrun
  obtain rfl := Except.ok.inj (hreached.replayed.symm.trans hlast)
  cases hnone.symm.trans hpending

/-- A request is in time. -/
theorem AddressedStep.request_not_overtaken {request : AddressedStateValue}
    {currentProcess : ByteVec 16} {recovery : Bool}
    (h : AddressedStep projection .clockAcknowledge (.publishRequest request) currentProcess recovery
      stepped) : ¬ Overtaken stepped := by
  rintro ⟨value, hpending, hphase, hlt⟩
  obtain ⟨normal, head, stored, stepped', hencode, hacted, -, -⟩ := h.acted
  -- the record carries a request, so nothing was pending
  have htag : normal.tag = 1 := by
    obtain ⟨body, -, -, -, -, hbody, -⟩ := h.extended
    rw [← tag_of_encodeAddressedAction (hencode.trans hbody), tag_of_encodeAddressedAction hbody]
    rfl
  have hnone : (projection.addressed 0).state = none := by
    cases hacted with
    | request hnone => exact hnone
    | phase => cases htag
    | commit => cases htag
  have hchange := AddressedStep.acknowledgeChange h
  rw [hpending] at hchange
  generalize hstate : some value = state at hchange
  cases hchange with
  | kept => cases hstate.trans hnone
  | requested _ _ htime =>
    obtain rfl := Option.some.inj hstate
    exact absurd hlt (Int64.not_lt.2 htime)
  | applied hpending' => cases hnone.symm.trans hpending'
  | ended => cases hstate

/-- **The way out of a pending acknowledgement.**  It exists exactly when the acknowledgement is
applied or its target is not passed, and it stays open in every run whose steps do not ask for a
safe time beyond the target of an acknowledgement that is not applied. -/
theorem acknowledgement_exits (key : JournalIntegrityKey)
    (start installed image : CompleteControlJournalImage) (request : AddressedStateValue)
    (currentProcess : ByteVec 16) (recovery : Bool) (steps : List JournalStep)
    (projection : CompleteCheckpoint) (value : AddressedStateValue)
    (hencodable : ∃ bytes, encodeControlJournalImage key start = .ok bytes)
    (hinstalled : appendAddressedAction key start .clockAcknowledge (.publishRequest request)
      currentProcess recovery = .ok installed)
    (hrun : applyAll key installed steps = .ok image)
    (hprojection : replayTail image = .ok projection)
    (hpending : (projection.addressed 0).state = some value)
    (hgeneration : image.checkpoint.generation.toNat + 4 < 2 ^ 64)
    (hsequence : projection.coveredHead.sequence.toNat + 3 < 2 ^ 64) (hmirror : MirrorRoom value)
    (hdigests : ∀ head ∈ sealedHeads projection.coveredHead
      (exitRecords projection.clockAuthority value), head.digest ≠ ByteVec.zero 32) :
    (Exits key image ↔
      (value.phase = 1 → projection.clockAuthority.safeTime ≤ value.target)) ∧
    ((∀ pre step post mid before, steps = pre ++ step :: post →
      applyAll key installed pre = .ok mid → replayTail mid = .ok before →
        ¬ Overtakes before step) →
      Exits key image) := by
  obtain ⟨first, hstart⟩ := exists_encode_iff_stands.1 hencodable
  obtain ⟨requested, generation, hrequested, hfirst⟩ :=
    (apply_appends hstart (.addressed .clockAcknowledge (.publishRequest request) currentProcess
      recovery)).sound installed hinstalled
  have hreached : ∃ reached, Stands key image reached ∧ True :=
    applyAll_induct hfirst trivial (fun _ _ _ => trivial) (fun _ _ _ _ _ _ _ _ _ _ _ => trivial) hrun
  obtain ⟨reached, hstands, -⟩ := hreached
  obtain rfl := Except.ok.inj (hstands.replayed.symm.trans hprojection)
  have hexits : (value.phase = 1 → reached.clockAuthority.safeTime ≤ value.target) →
    Exits key image :=
    fun hsafe => (hstands.spare hgeneration).exits ⟨hstands.valid, hpending⟩ hsafe hmirror hsequence
      hdigests
  refine ⟨⟨fun h hphase => ?_, hexits⟩, fun hsteps => hexits fun hphase => ?_⟩
  · rw [← Int64.not_lt]
    intro hlt
    exact hstands.not_exits ⟨value, hpending, hphase, hlt⟩ h
  · -- the request is in time, and so is every acknowledgement behind it
    have hintime : ¬ Overtaken requested := AddressedStep.request_not_overtaken hrequested
    obtain ⟨last, hlast, hnot⟩ := applyAll_induct hfirst hintime (fun _ _ hnot => hnot)
      (fun pre step post mid before after hsplit hmid hbefore hstep hnot =>
        hstep.not_overtaken (hsteps pre step post mid before hsplit hmid hbefore) hnot) hrun
    obtain rfl := Except.ok.inj (hstands.replayed.symm.trans hlast.replayed)
    rw [← Int64.not_lt]
    intro hlt
    exact hnot ⟨value, hpending, hphase, hlt⟩

end Exits

/-! ### An acknowledgement that is overtaken -/

/-- The request of an acknowledgement at the first safe time. -/
def requestOf (head : JournalHead) : AddressedStateValue where
  actor := .stateOwner
  address := .clockHold (holdOfGeneration 5).generation (holdOfGeneration 5).observationDigest
  desiredTransition := .settleHold true
  evidence := .acknowledge 0 0 0 none 0
  phase := 1
  safeResult := .acknowledge 0 false
  applicationHead := head
  publicationHead := head
  mirror := .notApplicable

/-- The head behind the request. -/
def requestHead : JournalHead := actionHead heldCheckpoint (.publishRequest (requestOf (headOf 1 1)))

/-- The request is pending. -/
def requestedCheckpoint : CompleteCheckpoint :=
  (heldCheckpoint.setState 0 (some (requestOf requestHead))).setHead requestHead

theorem stepped_request :
    (JournalStep.addressed .clockAcknowledge (.publishRequest (requestOf (headOf 1 1))) (processOf 1)
      false).Stepped heldCheckpoint requestedCheckpoint := by
  have hbody : encodeAddressedAction .clockAcknowledge (.publishRequest (requestOf (headOf 1 1))) =
      .ok (actionBody (.publishRequest (requestOf (headOf 1 1)))) := by decide +kernel
  have hnormal : encodeAddressedAction .clockAcknowledge (.publishRequest (requestOf requestHead)) =
      .ok (actionBody (.publishRequest (requestOf (headOf 1 1)))) := by decide +kernel
  have hvalue : validAddressedValue .clockAcknowledge (requestOf requestHead) = true := by
    decide +kernel
  have hlast : (heldCheckpoint.addressed 1).state = none := rfl
  have hacted : Acted heldCheckpoint .clockAcknowledge requestHead
      (.publishRequest (requestOf requestHead)) heldCheckpoint (requestOf requestHead) :=
    .request rfl rfl rfl rfl rfl rfl fun last hstate => by cases hlast.symm.trans hstate
  have hvalid : ValidCheckpoint requestedCheckpoint :=
    validateCheckpoint_eq_ok.1 (show validateCheckpoint _ = .ok () by decide +kernel)
  exact stepped_acknowledge hbody hnormal rfl ⟨rfl, rfl⟩ (by decide) hacted hvalue hvalid

/-- An image with a pending acknowledgement. -/
theorem exists_requested (key : JournalIntegrityKey) : ∃ start installed,
    (∃ bytes, encodeControlJournalImage key start = .ok bytes) ∧
    appendAddressedAction key start .clockAcknowledge (.publishRequest (requestOf (headOf 1 1)))
      (processOf 1) false = .ok installed ∧
    Spare key installed requestedCheckpoint 5 := by
  have hgenesis : Spare key (completeGenesis key) (bareCheckpoint 1 ⟨0, ByteVec.zero 32⟩ none) 7 :=
    (stands_completeGenesis key).spare (show (1 : ℕ) + 7 < 2 ^ 64 by decide)
  obtain ⟨start, -, hstart⟩ := hgenesis.apply stepped_enterFive
  obtain ⟨installed, hinstalled, hspare⟩ := hstart.apply stepped_request
  obtain ⟨_, hstands, -⟩ := hstart
  exact ⟨start, installed, hstands.encode, hinstalled, hspare⟩

/-- The acknowledgement has a way out. -/
theorem acknowledgement_exits_request :
    let key : JournalIntegrityKey := ⟨ByteVec.zero 32⟩
    ∃ start installed, appendAddressedAction key start .clockAcknowledge
      (.publishRequest (requestOf (headOf 1 1))) (processOf 1) false = .ok installed ∧
      Exits key installed := by
  intro key
  obtain ⟨start, installed, hencodable, hinstalled, generation, hstands, hroom⟩ :=
    exists_requested key
  have hdigests : ∀ head ∈ sealedHeads requestedCheckpoint.coveredHead
      (exitRecords requestedCheckpoint.clockAuthority (requestOf requestHead)),
      head.digest ≠ ByteVec.zero 32 := by decide +kernel
  have hmirror : MirrorRoom (requestOf requestHead) := by
    intro origin pre policy hmirror
    cases hmirror
  refine ⟨start, installed, hinstalled, (acknowledgement_exits key start installed installed _ _ _ []
    _ (requestOf requestHead) hencodable hinstalled rfl hstands.replayed rfl ?_
    (show (1 : ℕ) + 3 < 2 ^ 64 by decide) hmirror hdigests).2 fun pre step post _ _ hsplit => ?_⟩
  · rw [← hstands.descends.generation]
    show generation.toNat + 4 < 2 ^ 64
    omega
  · cases pre <;> cases hsplit

/-- The authority keeps the hold and raises the safe time. -/
def overtakeStep : JournalStep := .authority ⟨1, some (holdOfGeneration 5), none⟩ (processOf 1)

/-- The checkpoint behind that step. -/
def overtakenCheckpoint : CompleteCheckpoint :=
  requestedCheckpoint.setClock ⟨1, some (holdOfGeneration 5), none⟩

theorem stepped_overtake : overtakeStep.Stepped requestedCheckpoint overtakenCheckpoint := by
  have hvalid : ValidCheckpoint overtakenCheckpoint :=
    validateCheckpoint_eq_ok.1 (show validateCheckpoint _ = .ok () by decide +kernel)
  exact ⟨by decide, by decide, by decide, ⟨requestedCheckpoint, rfl, rfl⟩, hvalid⟩

/-- **A publication leaves an acknowledgement without a way out.** -/
theorem overtaken_without_exit :
    let key : JournalIntegrityKey := ⟨ByteVec.zero 32⟩
    ∃ start installed image projection, (∃ bytes, encodeControlJournalImage key start = .ok bytes) ∧
      appendAddressedAction key start .clockAcknowledge (.publishRequest (requestOf (headOf 1 1)))
        (processOf 1) false = .ok installed ∧
      applyAll key installed [overtakeStep] = .ok image ∧ replayTail image = .ok projection ∧
      (projection.addressed 0).state = some (requestOf requestHead) ∧
      projection.generation.toNat + 4 < 2 ^ 64 ∧
        projection.coveredHead.sequence.toNat + 3 < 2 ^ 64 ∧
      MirrorRoom (requestOf requestHead) ∧ ¬ Exits key image := by
  intro key
  obtain ⟨start, installed, hencodable, hinstalled, hspare⟩ := exists_requested key
  obtain ⟨image, himage, generation, hstands, hroom⟩ := hspare.apply stepped_overtake
  refine ⟨start, installed, image, _, hencodable, hinstalled, ?_, hstands.replayed, rfl, hroom,
    show (1 : ℕ) + 3 < 2 ^ 64 by decide, ?_,
    hstands.not_exits ⟨requestOf requestHead, rfl, rfl, show (0 : Int64) < 1 by decide⟩⟩
  · exact bind_eq_ok.2 ⟨image, himage, rfl⟩
  · intro origin pre policy hmirror
    cases hmirror

end MsgRiver.Journal
