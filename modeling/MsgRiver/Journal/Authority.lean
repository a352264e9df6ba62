import MsgRiver.Journal.Append

/-!
# Publishing the clock authority, and runs of the journal

A hold is entered, and a start is recorded, by publishing a whole clock authority over the fold of
an image.  Pending obligations stay as they are; a completed acknowledgement of an older hold and a
completed shutdown of another process are evicted.

The four ways to change an image are the steps of a run (`JournalStep`).  `apply_appends` describes
each of them by what it does to the projection.
-/

namespace MsgRiver.Journal

open Bytes Result

/-! ### The code -/

/-- A hold is cleared by its settlement only, and replaced by a newer one only. -/
def holdAdvances (prior next : Option ClockAuthorityHold) : Bool :=
  match prior, next with
  | none, _ => true
  | some _, none => false
  | some old, some new => !(decide (new.generation < old.generation)
      || (new.generation == old.generation && new != old))

/-- A completed acknowledgement does not outlive the entry of a newer hold. -/
def evictAcknowledge (checkpoint : CompleteCheckpoint) (clock : ClockAuthorityProjection) :
    Except ControlJournalImageError CompleteCheckpoint :=
  match (checkpoint.addressed 1).state with
  | none => .ok checkpoint
  | some last =>
    if clock.hold.isSome && !addressedHoldMatches clock last.address then
      match last.address with
      | .processInstance _ => .error invalidControlJournalImage
      | .clockHold generation _ => do
        reject (clock.hold.any fun hold => decide (hold.generation ≤ generation))
          invalidControlJournalImage
        return checkpoint.setState 1 none
    else .ok checkpoint

/-- `publish_addressed_authority`: a new clock projection enters the checkpoint of a folded image.
-/
def publishAddressedAuthority (key : JournalIntegrityKey) (image : CompleteControlJournalImage)
    (clock : ClockAuthorityProjection) (currentProcess : ByteVec 16) :
    Except ControlJournalImageError CompleteControlJournalImage := do
  let _ ← encodeControlJournalImage key image
  let next ← foldControlJournalImage image .tailFrameLimit
  let prior := next.checkpoint.clockAuthority
  reject (currentProcess == ByteVec.zero 16 || decide (clock.safeTime < prior.safeTime))
    invalidControlJournalImage
  reject (!holdAdvances prior.hold clock.hold) invalidControlJournalImage
  let checkpoint ← evictAcknowledge next.checkpoint clock
  let checkpoint := (withoutSuperseded checkpoint .systemShutdown currentProcess).setClock clock
  let next := { next with checkpoint }
  let _ ← encodeControlJournalImage key next
  return next

/-- An address for which a completion may be disclosed. -/
def completionEligible (clock : ClockAuthorityProjection) (operation : AddressedOperation)
    (address : AddressedOperationAddress) (currentProcess : ByteVec 16) : Bool :=
  match operation, address with
  | .clockAcknowledge, .clockHold .. => clock.hold.isNone || addressedHoldMatches clock address
  | .systemShutdown, .processInstance process =>
    process != ByteVec.zero 16 && process == currentProcess
  | _, _ => false

/-- `addressed_completion`: the result of a completed operation at its own address. -/
def addressedCompletion (image : CompleteControlJournalImage) (operation : AddressedOperation)
    (address : AddressedOperationAddress) (currentProcess : ByteVec 16) :
    Except ControlJournalImageError (Option AddressedResult) := do
  let checkpoint ← replayTail image
  return ((checkpoint.addressed (operation.slot + 1)).state.filter fun value =>
    completionEligible checkpoint.clockAuthority operation address currentProcess
      && value.address == address && addressedComplete value).map (·.safeResult)

/-- The ways to change an image. -/
inductive JournalStep
  | clock (body : ClockCheckpointBody)
  | addressed (operation : AddressedOperation) (action : AddressedAction)
      (currentProcess : ByteVec 16) (recovery : Bool)
  | authority (next : ClockAuthorityProjection) (currentProcess : ByteVec 16)
  | fold (trigger : FoldTrigger)

/-- One step of a journal. -/
def JournalStep.apply (key : JournalIntegrityKey) (image : CompleteControlJournalImage) :
    JournalStep → Except ControlJournalImageError CompleteControlJournalImage
  | .clock body => appendClockCheckpoint key image body
  | .addressed operation action currentProcess recovery =>
    appendAddressedAction key image operation action currentProcess recovery
  | .authority next currentProcess => publishAddressedAuthority key image next currentProcess
  | .fold trigger => foldControlJournalImage image trigger

/-! ### What a publication does -/

/-- The publication of a clock authority, seen on the projection. -/
structure AuthorityStep (projection : CompleteCheckpoint) (clock : ClockAuthorityProjection)
    (currentProcess : ByteVec 16) (stepped : CompleteCheckpoint) : Prop where
  process : currentProcess ≠ ByteVec.zero 16
  safeTime : projection.clockAuthority.safeTime ≤ clock.safeTime
  hold : holdAdvances projection.clockAuthority.hold clock.hold = true
  evicted : ∃ evicted, evictAcknowledge projection clock = .ok evicted ∧
    stepped = (withoutSuperseded evicted .systemShutdown currentProcess).setClock clock
  valid : ValidCheckpoint stepped

theorem evictAcknowledge_setGeneration (checkpoint : CompleteCheckpoint)
    (clock : ClockAuthorityProjection) (generation : UInt64) :
    evictAcknowledge (checkpoint.setGeneration generation) clock =
      (·.setGeneration generation) <$> evictAcknowledge checkpoint clock := by
  unfold evictAcknowledge
  show (match (checkpoint.addressed 1).state with
    | none => _
    | some last => _) = _
  cases (checkpoint.addressed 1).state with
  | none => rfl
  | some last =>
    dsimp only
    split_ifs
    · cases last.address with
      | processInstance _ => rfl
      | clockHold generation' _ =>
        simp only [map_bind, map_pure]
        rfl
    · rfl

/-- Evicting clears the cell of the last acknowledgement, or nothing. -/
theorem evictAcknowledge_cases {checkpoint evicted : CompleteCheckpoint}
    {clock : ClockAuthorityProjection} (h : evictAcknowledge checkpoint clock = .ok evicted) :
    (evicted = checkpoint ∧ ∀ last, (checkpoint.addressed 1).state = some last →
      clock.hold = none ∨ addressedHoldMatches clock last.address = true) ∨
    ∃ last generation digest hold, (checkpoint.addressed 1).state = some last ∧
      last.address = .clockHold generation digest ∧ clock.hold = some hold ∧
      generation < hold.generation ∧ evicted = checkpoint.setState 1 none := by
  unfold evictAcknowledge at h
  split at h
  · rename_i hnone
    refine .inl ⟨(Except.ok.inj h).symm, fun last hlast => ?_⟩
    rw [hnone] at hlast
    cases hlast
  · rename_i last hlast
    split_ifs at h with hnewer
    · rw [Bool.and_eq_true, Option.isSome_iff_exists] at hnewer
      obtain ⟨⟨hold, hhold⟩, -⟩ := hnewer
      split at h
      · cases h
      · rename_i generation digest haddress
        obtain ⟨hle, h⟩ := reject_bind_eq_ok.1 h
        rw [hhold, Option.any_some, decide_eq_false_iff_not, UInt64.not_le] at hle
        exact .inr ⟨last, generation, digest, hold, hlast, haddress, hhold, hle,
          (Except.ok.inj h).symm⟩
    · refine .inl ⟨(Except.ok.inj h).symm, fun last' hlast' => ?_⟩
      obtain rfl := Option.some.inj (hlast.symm.trans hlast')
      rw [Bool.and_eq_true, not_and, Bool.not_eq_true, Bool.not_eq_false'] at hnewer
      by_cases hhold : clock.hold = none
      · exact .inl hhold
      · exact .inr (hnewer (Option.isSome_iff_ne_none.2 hhold))

theorem evictAcknowledge_descends {checkpoint evicted : CompleteCheckpoint}
    {clock : ClockAuthorityProjection} (h : evictAcknowledge checkpoint clock = .ok evicted) :
    Descends checkpoint evicted := by
  rcases evictAcknowledge_cases h with ⟨rfl, -⟩ | ⟨_, _, _, _, -, -, -, -, rfl⟩
  · exact Descends.refl _
  · exact (Descends.refl _).clear 1

section Stands

variable {key : JournalIntegrityKey} {image : CompleteControlJournalImage}
  {projection : CompleteCheckpoint}

theorem publishAddressedAuthority_appends (h : Stands key image projection)
    (clock : ClockAuthorityProjection) (currentProcess : ByteVec 16) :
    Appends key image (publishAddressedAuthority key image clock currentProcess)
      (AuthorityStep projection clock currentProcess) := by
  obtain ⟨wire, hwire⟩ := h.encode
  have hdescends : ∀ {evicted : CompleteCheckpoint}, evictAcknowledge projection clock = .ok evicted →
      Descends image.checkpoint
        ((withoutSuperseded evicted .systemShutdown currentProcess).setClock clock) := fun hevicted =>
    ((h.descends.trans (evictAcknowledge_descends hevicted)).withoutSuperseded .systemShutdown
      currentProcess).setClock clock
  constructor
  · intro next hnext
    obtain ⟨_, -, hnext⟩ := bind_eq_ok.1 hnext
    obtain ⟨folded, hfolded, hnext⟩ := bind_eq_ok.1 hnext
    obtain ⟨hrefused, hnext⟩ := reject_bind_eq_ok.1 hnext
    obtain ⟨hhold, hnext⟩ := reject_bind_eq_ok.1 hnext
    obtain ⟨evicted', hevicted', hnext⟩ := bind_eq_ok.1 hnext
    obtain ⟨_, hencode, hnext⟩ := bind_eq_ok.1 hnext
    obtain rfl := Except.ok.inj hnext
    obtain ⟨checkpoint, hcheckpoint, hfolded⟩ := bind_eq_ok.1 hfolded
    rw [h.replayed] at hcheckpoint
    obtain rfl := Except.ok.inj hcheckpoint
    obtain ⟨generation, hgeneration, hfolded⟩ := orError_bind_eq_ok.1 hfolded
    obtain rfl := Except.ok.inj hfolded
    -- the eviction does not look at the generation, so it commutes with the fold before it
    rw [evictAcknowledge_setGeneration] at hevicted'
    obtain ⟨evicted, hevicted, rfl⟩ := map_eq_ok.1 hevicted'
    have habsorb : absorb image
        ((withoutSuperseded evicted .systemShutdown currentProcess).setClock clock) =
        .ok ⟨image.header, (withoutSuperseded (evicted.setGeneration generation) .systemShutdown
          currentProcess).setClock clock, []⟩ := by
      rw [withoutSuperseded_setGeneration]
      refine orError_bind_eq_ok.2 ⟨generation, ?_, rfl⟩
      rw [(hdescends hevicted).generation, ← h.descends.generation]
      exact hgeneration
    obtain ⟨generation', -, -, -, hreplays⟩ := absorb_spec h (hdescends hevicted) habsorb
    obtain ⟨again, hagain⟩ := exists_encode_iff_stands.1 ⟨_, hencode⟩
    obtain ⟨hvalid, rfl⟩ := hreplays again hagain
    rw [Bool.or_eq_false_iff, beq_eq_false_iff_ne, decide_eq_false_iff_not] at hrefused
    rw [Bool.not_eq_false'] at hhold
    exact ⟨_, generation', ⟨hrefused.1, Int64.not_lt.1 hrefused.2, hhold, ⟨evicted, hevicted, rfl⟩,
      hvalid⟩, hagain⟩
  · rintro hroom stepped ⟨hprocess, hsafe, hhold, ⟨evicted, hevicted, rfl⟩, hvalid⟩
    obtain ⟨folded, hfolded⟩ := exists_absorb hroom h.descends
    obtain ⟨next, hnext⟩ := exists_absorb hroom (hdescends hevicted)
    obtain ⟨_, -, -, hstands, -⟩ := absorb_spec h (hdescends hevicted) hnext
    obtain ⟨bytes, hencode⟩ := (hstands hvalid).encode
    refine ⟨next, bind_eq_ok.2 ⟨wire, hwire, bind_eq_ok.2 ⟨folded, bind_eq_ok.2 ⟨projection,
      h.replayed, hfolded⟩, ?_⟩⟩⟩
    obtain ⟨generation, hgeneration, hfolded⟩ := orError_bind_eq_ok.1 hfolded
    obtain rfl := Except.ok.inj hfolded
    -- both folds take the generation behind that of the image
    obtain ⟨generation', hgeneration', hnext⟩ := orError_bind_eq_ok.1 hnext
    obtain rfl := Except.ok.inj hnext
    rw [(hdescends hevicted).generation, ← h.descends.generation, hgeneration] at hgeneration'
    obtain rfl := Option.some.inj hgeneration'
    refine reject_bind_eq_ok.2 ⟨?_, reject_bind_eq_ok.2 ⟨?_, bind_eq_ok.2
      ⟨evicted.setGeneration generation, ?_, ?_⟩⟩⟩
    · rw [Bool.or_eq_false_iff, beq_eq_false_iff_ne, decide_eq_false_iff_not]
      exact ⟨hprocess, Int64.not_lt.2 hsafe⟩
    · rw [Bool.not_eq_false']
      exact hhold
    · rw [evictAcknowledge_setGeneration, hevicted]
      rfl
    · rw [withoutSuperseded_setGeneration]
      exact bind_eq_ok.2 ⟨bytes, hencode, rfl⟩

/-- What a step does to the projection. -/
def JournalStep.Stepped (projection : CompleteCheckpoint) : JournalStep → CompleteCheckpoint → Prop
  | .clock body => ClockStep projection body
  | .addressed operation action currentProcess recovery =>
    AddressedStep projection operation action currentProcess recovery
  | .authority next currentProcess => AuthorityStep projection next currentProcess
  | .fold _ => fun stepped => stepped = projection

theorem apply_appends (h : Stands key image projection) (step : JournalStep) :
    Appends key image (step.apply key image) (step.Stepped projection) := by
  cases step with
  | clock body => exact appendClockCheckpoint_appends h body
  | addressed operation action currentProcess recovery =>
    exact appendAddressedAction_appends h operation action currentProcess recovery
  | authority next currentProcess =>
    exact publishAddressedAuthority_appends h next currentProcess
  | fold trigger =>
    constructor
    · intro next hnext
      obtain ⟨checkpoint, hcheckpoint, hnext⟩ := bind_eq_ok.1 hnext
      rw [h.replayed] at hcheckpoint
      obtain rfl := Except.ok.inj hcheckpoint
      obtain ⟨generation, -, -, hstands, -⟩ := absorb_spec h h.descends hnext
      exact ⟨projection, generation, rfl, hstands h.valid⟩
    · rintro hroom stepped rfl
      obtain ⟨next, hnext⟩ := exists_absorb hroom h.descends
      exact ⟨next, bind_eq_ok.2 ⟨stepped, h.replayed, hnext⟩⟩

end Stands

end MsgRiver.Journal
