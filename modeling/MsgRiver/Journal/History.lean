import MsgRiver.Journal.Obligations
import MsgRiver.Lib.Chain

/-!
# The head commits to the history

Every record is hashed with the digest of the head before it.  If no two records of two tails
collide, two tails behind one covered head that end in one head are the same tail
(`tail_eq_of_head_eq`): the hashed text of a record is read backwards into the head before it, the
kind and the body, and the body into the record, whose own heads are those of its frame.
-/

namespace MsgRiver.Journal

open Bytes Result Sha256 Chain

/-- The text that is hashed for a frame: the domain label and the record behind its length. -/
def hashedText (frame : AuthenticatedTailFrame) : List UInt8 :=
  match encodeTailRecord frame.record with
  | .ok (kind, body) => recordLabel ++ (wire kind.code ++ (wire frame.resultingHead.sequence
      ++ (frame.priorHead.digest.toList ++ body)))
  | .error _ => []

/-- SHA-256 does not collide on the records of two tails. -/
def NoCollision (tail tail' : List AuthenticatedTailFrame) : Prop :=
  ∀ frame ∈ tail, ∀ frame' ∈ tail', sha256 (hashedText frame) = sha256 (hashedText frame') →
    hashedText frame = hashedText frame'

/-- The frame leads from one head to the next. -/
structure FrameLink (prior : JournalHead) (frame : AuthenticatedTailFrame) (next : JournalHead) :
    Prop where
  follows : frameFollows prior frame = true
  result : frame.resultingHead = next
  record : ∃ kind body pre, FrameRecord prior frame kind body pre
  agrees : RecordAgrees frame.resultingHead frame.record

theorem RecordStep.frameLink {checkpoint next : CompleteCheckpoint} {prior : JournalHead}
    {frame : AuthenticatedTailFrame} {size : ℕ} (h : RecordStep checkpoint prior frame size next) :
    FrameLink prior frame frame.resultingHead := by
  obtain ⟨hfollows, ⟨kind, body, pre, hrecord, -⟩, replayed, hreplayed, -⟩ := h
  exact ⟨hfollows, rfl, ⟨kind, body, pre, hrecord⟩, recordAgrees_of_replayRecord hreplayed⟩

theorem FrameLink.sequence_eq {prior next : JournalHead} {frame : AuthenticatedTailFrame}
    (h : FrameLink prior frame next) : next.sequence.toNat = prior.sequence.toNat + 1 := by
  rw [← h.result]
  exact checkedSucc_eq_some.1 (frameFollows_iff.1 h.follows).2

/-- The digest of a link is that of its text. -/
theorem FrameLink.digest_eq {prior next : JournalHead} {frame : AuthenticatedTailFrame}
    (h : FrameLink prior frame next) : next.digest = sha256 (hashedText frame) := by
  obtain ⟨hprior, hsequence⟩ := frameFollows_iff.1 h.follows
  obtain ⟨kind, body, pre, hrecord⟩ := h.record
  obtain ⟨length, sequence, -, -, hsucc, hpre⟩ := recordPrefix_eq_ok.1 hrecord.framed
  rw [hsequence] at hsucc
  obtain rfl := Option.some.inj hsucc
  have hdrop : pre.drop 4 = wire kind.code ++ (wire frame.resultingHead.sequence ++
      (prior.digest.toList ++ body)) := by
    rw [hpre, recordFields, List.flatten_cons, List.drop_left' (length_wire_u32 _)]
    simp
  have htext : hashedText frame = recordLabel ++ pre.drop 4 := by
    rw [hashedText, hrecord.encoded, hdrop, hprior]
  rw [← h.result, ← hrecord.digest, htext]
  rfl

theorem ControlJournalRecordKind.code_injective :
    Function.Injective ControlJournalRecordKind.code := by
  intro kind kind' h
  cases kind <;> cases kind' <;> first | rfl | cases h

/-- **A link is read backwards**: the head it leads to determines the head before it and the frame.
-/
theorem FrameLink.back {prior prior' next : JournalHead} {frame frame' : AuthenticatedTailFrame}
    (hcollision : sha256 (hashedText frame) = sha256 (hashedText frame') →
      hashedText frame = hashedText frame')
    (h : FrameLink prior frame next) (h' : FrameLink prior' frame' next) :
    prior = prior' ∧ frame = frame' := by
  have htext := hcollision (h.digest_eq.symm.trans h'.digest_eq)
  obtain ⟨kind, body, pre, hrecord⟩ := h.record
  obtain ⟨kind', body', pre', hrecord'⟩ := h'.record
  obtain ⟨hprior, -⟩ := frameFollows_iff.1 h.follows
  obtain ⟨hprior', -⟩ := frameFollows_iff.1 h'.follows
  rw [hashedText, hashedText, hrecord.encoded, hrecord'.encoded, hprior, hprior'] at htext
  replace htext := List.append_cancel_left htext
  -- the fields before the body have fixed lengths
  obtain ⟨hkind, htext⟩ := List.append_inj htext (by simp)
  obtain ⟨-, htext⟩ := List.append_inj htext (by simp)
  obtain ⟨hdigest, rfl⟩ := List.append_inj htext (by simp)
  obtain rfl := ControlJournalRecordKind.code_injective (wire_injective hkind)
  have hsequence : prior.sequence = prior'.sequence := by
    have hlast := h.sequence_eq.symm.trans h'.sequence_eq
    exact UInt64.toNat_inj.1 (by omega)
  have hpriors : prior = prior' := by
    obtain ⟨_, _⟩ := prior
    obtain ⟨_, _⟩ := prior'
    exact congrArg₂ JournalHead.mk hsequence (List.Vector.toList_injective hdigest)
  have hdecode := decodeTailRecord_of_encode hrecord.encoded h.agrees
  have hdecode' := decodeTailRecord_of_encode hrecord'.encoded h'.agrees
  rw [h.result] at hdecode
  rw [h'.result, hdecode] at hdecode'
  have hframe : frame = ⟨prior, next, frame.record⟩ := by rw [← hprior, ← h.result]
  have hframe' : frame' = ⟨prior', next, frame'.record⟩ := by rw [← hprior', ← h'.result]
  exact ⟨hpriors, by rw [hframe, hframe', hpriors, Except.ok.inj hdecode']⟩

/-- The frames of a replay are a chain of links. -/
theorem leads_of_replayFrames {frames : List AuthenticatedTailFrame} {state next : ReplayState}
    (h : frames.foldlM replayFrame state = .ok next) :
    Leads FrameLink state.prior frames next.prior := by
  induction frames generalizing state with
  | nil =>
    cases h
    exact .nil
  | cons frame frames ih =>
    rw [List.foldlM_cons] at h
    obtain ⟨middle, hstep, h⟩ := bind_eq_ok.1 h
    obtain ⟨size, hframe, -, hprior, -⟩ := replayFrame_eq_ok.1 hstep
    refine .cons hframe.toRecordStep.frameLink ?_
    rw [← hprior]
    exact ih h

theorem leads_of_replayTail {image : CompleteControlJournalImage} {projection : CompleteCheckpoint}
    (h : replayTail image = .ok projection) :
    Leads FrameLink image.checkpoint.coveredHead image.tail projection.coveredHead := by
  obtain ⟨-, -, -, ⟨state, hstate, rfl⟩, -⟩ := replayTail_eq_ok.1 h
  exact leads_of_replayFrames hstate

theorem coveredHead_of_replayTail {image : CompleteControlJournalImage}
    {projection : CompleteCheckpoint} (h : replayTail image = .ok projection) :
    projection.coveredHead =
      (image.tail.getLast?.map (·.resultingHead)).getD image.checkpoint.coveredHead := by
  obtain ⟨-, -, -, ⟨state, hstate, rfl⟩, -⟩ := replayTail_eq_ok.1 h
  exact (replayFrames_invariant hstate rfl).2.2

/-- **The head commits to the history.**  Behind one covered head, two tails that are replayed end
in one head exactly when they are the same tail, if SHA-256 does not collide on their records. -/
theorem tail_eq_iff_head_eq (image image' : CompleteControlJournalImage)
    (projection projection' : CompleteCheckpoint) (h : replayTail image = .ok projection)
    (h' : replayTail image' = .ok projection')
    (hcovered : image.checkpoint.coveredHead = image'.checkpoint.coveredHead)
    (hcollision : NoCollision image.tail image'.tail) :
    projection.coveredHead = projection'.coveredHead ↔ image.tail = image'.tail := by
  have hleads := leads_of_replayTail h
  have hleads' := leads_of_replayTail h'
  rw [← hcovered] at hleads'
  constructor
  · intro hhead
    rw [← hhead] at hleads'
    exact hleads.eq_of_end (fun _ _ _ hlink => hlink.sequence_eq)
      (fun frame hframe frame' hframe' _ _ _ hlink hlink' =>
        hlink.back (hcollision frame hframe frame' hframe') hlink') hleads'
  · intro htail
    have hlast := coveredHead_of_replayTail h
    have hlast' := coveredHead_of_replayTail h'
    rw [hlast, hlast', htail, hcovered]

/-- Two clock checkpoints behind the first image. -/
theorem tail_eq_iff_head_eq_moved :
    let key : JournalIntegrityKey := ⟨ByteVec.zero 32⟩
    NoCollision (movedImage key 1).tail (movedImage key 2).tail ∧
      ((movedCheckpoint 1).coveredHead = (movedCheckpoint 2).coveredHead ↔
        (movedImage key 1).tail = (movedImage key 2).tail) ∧
      (movedCheckpoint 1).coveredHead ≠ (movedCheckpoint 2).coveredHead := by
  intro key
  have hdiffers : sha256 (hashedText (periodicFrame ⟨0, ByteVec.zero 32⟩ 0 1)) ≠
      sha256 (hashedText (periodicFrame ⟨0, ByteVec.zero 32⟩ 0 2)) := by
    decide +kernel
  have hcollision : NoCollision (movedImage key 1).tail (movedImage key 2).tail := by
    intro frame hframe frame' hframe' hsame
    rw [List.mem_singleton.1 hframe, List.mem_singleton.1 hframe'] at hsame
    exact absurd hsame hdiffers
  have hhead : (movedCheckpoint 1).coveredHead ≠ (movedCheckpoint 2).coveredHead := by
    decide +kernel
  exact ⟨hcollision, tail_eq_iff_head_eq _ _ _ _ (stands_moved key rfl (by decide +kernel)).replayed
    (stands_moved key rfl (by decide +kernel)).replayed rfl hcollision, hhead⟩

end MsgRiver.Journal
