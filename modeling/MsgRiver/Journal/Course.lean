import MsgRiver.Lib.Run
import MsgRiver.Journal.Obligations

/-!
# Courses of steps

A course takes steps one after the other, and a step that is refused changes nothing.  Every step
that the projection admits can be taken while there is room for a generation (`Spare.advance`), and
every state of a course is one that an admitted step leads to (`Stands.advance`).
-/

namespace MsgRiver.Journal

open Bytes Result StepRun

/-- A step on an image; a refused step leaves the image as it is. -/
def advance (key : JournalIntegrityKey) (image : CompleteControlJournalImage) (step : JournalStep) :
    Except ControlJournalImageError Unit × CompleteControlJournalImage :=
  match step.apply key image with
  | .ok next => (.ok (), next)
  | .error e => (.error e, image)

/-- Steps one behind the other, all of which succeed. -/
def applyAll (key : JournalIntegrityKey) (image : CompleteControlJournalImage)
    (steps : List JournalStep) : Except ControlJournalImageError CompleteControlJournalImage :=
  steps.foldlM (fun image step => step.apply key image) image

section Steps

variable {key : JournalIntegrityKey} {image next : CompleteControlJournalImage}
  {projection stepped stepped' : CompleteCheckpoint} {step : JournalStep}

theorem JournalStep.Stepped.setGeneration (h : step.Stepped projection stepped)
    {generation : UInt64}
    (hne : generation ≠ 0) :
    step.Stepped (projection.setGeneration generation) (stepped.setGeneration generation) := by
  cases step with
  | clock body => exact ClockStep.setGeneration h hne
  | addressed => exact AddressedStep.setGeneration h hne
  | authority clock currentProcess =>
    obtain ⟨hprocess, hsafe, hhold, ⟨evicted, hevicted, rfl⟩, hvalid⟩ := h
    refine ⟨hprocess, hsafe, hhold, ⟨evicted.setGeneration generation, ?_, ?_⟩,
      hvalid.setGeneration hne⟩
    · rw [evictAcknowledge_setGeneration, hevicted]
      rfl
    · rw [withoutSuperseded_setGeneration]
      rfl
  | fold trigger =>
    obtain rfl : stepped = projection := h
    rfl

theorem JournalStep.Stepped.unique (h : step.Stepped projection stepped)
    (h' : step.Stepped projection stepped') : stepped = stepped' := by
  cases step with
  | clock body => exact ClockStep.unique h h'
  | addressed => exact AddressedStep.unique h h'
  | authority clock currentProcess =>
    obtain ⟨evicted, hevicted, rfl⟩ := AuthorityStep.evicted h
    obtain ⟨evicted', hevicted', rfl⟩ := AuthorityStep.evicted h'
    obtain rfl := Except.ok.inj (hevicted.symm.trans hevicted')
    rfl
  | fold trigger => exact Eq.trans h (Eq.symm h')

/-- A step of the journal. -/
theorem Stands.advance (h : Stands key image projection) (step : JournalStep) :
    (∃ stepped generation, step.Stepped projection stepped ∧
      Stands key (advance key image step).2 (stepped.setGeneration generation)) ∨
    (Journal.advance key image step).2 = image := by
  unfold Journal.advance
  cases hnext : step.apply key image with
  | error => exact .inr rfl
  | ok next => exact .inl ((apply_appends h step).sound next hnext)

/-! ### Generations -/

theorem generation_of_absorb {checkpoint : CompleteCheckpoint}
    (hdescends : Descends image.checkpoint checkpoint) (h : absorb image checkpoint = .ok next) :
    next.checkpoint.generation.toNat = image.checkpoint.generation.toNat + 1 := by
  obtain ⟨generation, hsucc, h⟩ := orError_bind_eq_ok.1 h
  obtain rfl := Except.ok.inj h
  rw [← hdescends.generation]
  exact checkedSucc_eq_some.1 hsucc

/-- A step takes at most one generation. -/
theorem generation_of_apply (h : Stands key image projection)
    (hnext : step.apply key image = .ok next) :
    next.checkpoint.generation.toNat ≤ image.checkpoint.generation.toNat + 1 := by
  -- each operation extends the tail, which keeps the generation, or absorbs it once
  cases step with
  | clock body =>
    obtain ⟨_, -, hnext⟩ := bind_eq_ok.1 hnext
    obtain ⟨encoded, -, hnext⟩ := bind_eq_ok.1 hnext
    obtain ⟨frames, -, hnext⟩ := bind_eq_ok.1 hnext
    obtain ⟨⟨_, head⟩, -, hnext⟩ := bind_eq_ok.1 hnext
    obtain ⟨next', hnext', hnext⟩ := bind_eq_ok.1 hnext
    obtain ⟨_, -, hnext⟩ := bind_eq_ok.1 hnext
    obtain rfl := Except.ok.inj hnext
    unfold appendedClock at hnext'
    split_ifs at hnext'
    · obtain ⟨checkpoint, hcheckpoint, hnext'⟩ := bind_eq_ok.1 hnext'
      obtain rfl := Except.ok.inj (h.replayed.symm.trans hcheckpoint)
      obtain ⟨clocked, hclocked, hnext'⟩ := bind_eq_ok.1 hnext'
      have hdescends := (h.descends.trans (replayClockAt_descends hclocked)).setHead head
      exact Nat.le_of_eq (generation_of_absorb hdescends hnext')
    · obtain rfl := Except.ok.inj hnext'
      exact Nat.le_succ _
  | addressed operation action currentProcess recovery =>
    obtain ⟨_, -, hnext⟩ := bind_eq_ok.1 hnext
    obtain ⟨checkpoint, hcheckpoint, hnext⟩ := bind_eq_ok.1 hnext
    obtain rfl := Except.ok.inj (h.replayed.symm.trans hcheckpoint)
    obtain ⟨-, hnext⟩ := reject_bind_eq_ok.1 hnext
    obtain ⟨_, -, hnext⟩ := bind_eq_ok.1 hnext
    obtain ⟨body, -, hnext⟩ := bind_eq_ok.1 hnext
    obtain ⟨⟨_, head⟩, -, hnext⟩ := bind_eq_ok.1 hnext
    obtain ⟨normal, -, hnext⟩ := bind_eq_ok.1 hnext
    obtain ⟨acted, hacted, hnext⟩ := bind_eq_ok.1 hnext
    obtain ⟨bytes, -, hnext⟩ := bind_eq_ok.1 hnext
    obtain ⟨next', hnext', hnext⟩ := bind_eq_ok.1 hnext
    obtain ⟨_, -, hnext⟩ := bind_eq_ok.1 hnext
    obtain rfl := Except.ok.inj hnext
    unfold appended at hnext'
    split_ifs at hnext'
    · have hrecord : replayRecord projection (operation.record normal) head = .ok acted := by
        rw [replayRecord_record]
        exact hacted
      have hdescends := ((h.descends.trans (replayRecord_descends hrecord)).setHead
        head).withoutSuperseded operation currentProcess
      exact Nat.le_of_eq (generation_of_absorb hdescends hnext')
    · obtain rfl := Except.ok.inj hnext'
      exact Nat.le_succ _
  | authority clock currentProcess =>
    obtain ⟨_, -, hnext⟩ := bind_eq_ok.1 hnext
    obtain ⟨folded, hfolded, hnext⟩ := bind_eq_ok.1 hnext
    obtain ⟨-, hnext⟩ := reject_bind_eq_ok.1 hnext
    obtain ⟨-, hnext⟩ := reject_bind_eq_ok.1 hnext
    obtain ⟨evicted, hevicted, hnext⟩ := bind_eq_ok.1 hnext
    obtain ⟨_, -, hnext⟩ := bind_eq_ok.1 hnext
    obtain rfl := Except.ok.inj hnext
    obtain ⟨checkpoint, hcheckpoint, hfolded⟩ := bind_eq_ok.1 hfolded
    obtain rfl := Except.ok.inj (h.replayed.symm.trans hcheckpoint)
    have hdescends := ((evictAcknowledge_descends hevicted).withoutSuperseded .systemShutdown
      currentProcess).setClock clock
    show UInt64.toNat (CompleteCheckpoint.generation _) ≤ _
    rw [hdescends.generation]
    exact Nat.le_of_eq (generation_of_absorb h.descends hfolded)
  | fold trigger =>
    obtain ⟨checkpoint, hcheckpoint, hnext⟩ := bind_eq_ok.1 hnext
    obtain rfl := Except.ok.inj (h.replayed.symm.trans hcheckpoint)
    exact Nat.le_of_eq (generation_of_absorb h.descends hnext)

/-- The image stands at the projection, in some generation that leaves room for as many more. -/
def Spare (key : JournalIntegrityKey) (image : CompleteControlJournalImage)
    (projection : CompleteCheckpoint) (room : ℕ) : Prop :=
  ∃ generation : UInt64, Stands key image (projection.setGeneration generation) ∧
    generation.toNat + room < 2 ^ 64

/-- **A step that the projection admits is taken.** -/
theorem Spare.apply {room : ℕ} (h : Spare key image projection (room + 1))
    (hstep : step.Stepped projection stepped) :
    ∃ next, step.apply key image = .ok next ∧ Spare key next stepped room := by
  obtain ⟨generation, hstands, hroom⟩ := h
  have hgeneration : image.checkpoint.generation = generation :=
    hstands.descends.generation.symm
  have hne : generation ≠ 0 := hstands.valid.generation
  have hsame := hstep.setGeneration hne
  obtain ⟨next, hnext⟩ := (apply_appends hstands step).complete
    (by rw [CompleteControlJournalImage.Room, hgeneration]; omega) _ hsame
  obtain ⟨stepped', generation', hstep', hstands'⟩ := (apply_appends hstands step).sound next hnext
  obtain rfl := hsame.unique hstep'
  have hle := generation_of_apply hstands hnext
  have hgeneration' : next.checkpoint.generation = generation' :=
    hstands'.descends.generation.symm
  rw [hgeneration, hgeneration'] at hle
  exact ⟨next, hnext, generation', hstands', by omega⟩

theorem Spare.advance {room : ℕ} (h : Spare key image projection (room + 1))
    (hstep : step.Stepped projection stepped) :
    Spare key (advance key image step).2 stepped room := by
  obtain ⟨next, hnext, hspare⟩ := h.apply hstep
  unfold Journal.advance
  rw [hnext]
  exact hspare

theorem Stands.spare (h : Stands key image projection) {room : ℕ}
    (hroom : image.checkpoint.generation.toNat + room < 2 ^ 64) : Spare key image projection room :=
  ⟨projection.generation, h, by rwa [h.descends.generation]⟩

/-! ### Runs -/

theorem applyAll_snoc (steps : List JournalStep) (step : JournalStep) :
    applyAll key image (steps ++ [step]) = applyAll key image steps >>= (step.apply key ·) := by
  rw [applyAll, List.foldlM_append]
  congr 1
  funext mid
  rw [List.foldlM_cons]
  exact bind_pure _

/-- **Invariants of successful runs.** -/
theorem applyAll_induct {I : CompleteCheckpoint → Prop} {steps : List JournalStep}
    {final : CompleteControlJournalImage} (h : Stands key image projection) (hI : I projection)
    (hgeneration : ∀ projection generation, I projection → I (projection.setGeneration generation))
    (hstep : ∀ pre step post mid before after, steps = pre ++ step :: post →
      applyAll key image pre = .ok mid → replayTail mid = .ok before →
      step.Stepped before after → I before → I after)
    (hrun : applyAll key image steps = .ok final) :
    ∃ projection, Stands key final projection ∧ I projection := by
  induction steps using List.reverseRecOn generalizing final with
  | nil =>
    obtain rfl := Except.ok.inj hrun
    exact ⟨projection, h, hI⟩
  | append_singleton steps step ih =>
    rw [applyAll_snoc] at hrun
    obtain ⟨mid, hmid, hlast⟩ := bind_eq_ok.1 hrun
    obtain ⟨before, hbefore, hIbefore⟩ := ih
      (fun pre other post mid before after hsplit => hstep pre other (post ++ [step]) mid before after
        (by rw [hsplit, List.append_assoc, List.cons_append])) hmid
    obtain ⟨after, generation, hafter, hstands⟩ := (apply_appends hbefore step).sound final hlast
    exact ⟨_, hstands, hgeneration _ _ (hstep steps step [] mid before after rfl hmid hbefore.replayed
      hafter hIbefore)⟩

/-! ### Holds that are entered and settled -/

/-- The publication of a hold, at the safe time that stands. -/
def enterHold (projection : CompleteCheckpoint) (hold : ClockAuthorityHold) : JournalStep :=
  .authority { projection.clockAuthority with hold := some hold } (processOf 1)

/-- The projection behind the publication of a hold that evicts no acknowledgement. -/
def withHold (projection : CompleteCheckpoint) (hold : ClockAuthorityHold) : CompleteCheckpoint :=
  (withoutSuperseded projection .systemShutdown (processOf 1)).setClock
    { projection.clockAuthority with hold := some hold }

/-- **A hold can be entered** if none stands and no acknowledgement is retained. -/
theorem stepped_enterHold {hold : ClockAuthorityHold}
    (hhold : projection.clockAuthority.hold = none)
    (hlast : (projection.addressed 1).state = none)
    (hvalid : ValidCheckpoint (withHold projection hold)) :
    (enterHold projection hold).Stepped projection (withHold projection hold) := by
  refine ⟨by decide, Int64.le_refl _, by rw [hhold]; rfl, ⟨projection, ?_, rfl⟩, hvalid⟩
  rw [evictAcknowledge, hlast]

/-- The automatic settlement of a hold, at the safe time that stands. -/
def settlementBody (hold : ClockAuthorityHold) (safeTime : Int64) : ClockCheckpointBody where
  runtimeMode := .normal
  processInstance := processOf 1
  acceptedWallTime := safeTime
  acceptedMonotonicTick := 0
  priorSafeTime := safeTime
  newSafeTime := safeTime
  reason := .automaticSettlement
  hold := some ⟨hold.generation, hold.observationDigest⟩
  preMirror := none

/-- The head of the record of a settlement. -/
def settlementHead (projection : CompleteCheckpoint) (hold : ClockAuthorityHold) : JournalHead :=
  sealedHead projection.coveredHead .clockCheckpoint
    (bodyFields (settlementBody hold projection.clockAuthority.safeTime)).flatten

/-- The projection behind a settlement that finishes no acknowledgement. -/
def withoutHold (projection : CompleteCheckpoint) (hold : ClockAuthorityHold) :
    CompleteCheckpoint :=
  (projection.setClock { projection.clockAuthority with hold := none }).setHead
    (settlementHead projection hold)

/-- **A hold can be settled** if its acknowledgement is not pending. -/
theorem stepped_settlement {hold : ClockAuthorityHold}
    (hhold : projection.clockAuthority.hold = some hold)
    (hsequence : projection.coveredHead.sequence.toNat + 1 < 2 ^ 64)
    (hpending : ∀ value, (projection.addressed 0).state = some value →
      addressedHoldMatches projection.clockAuthority value.address = false)
    (hprojection : ValidCheckpoint projection)
    (hvalid : ValidCheckpoint (withoutHold projection hold)) :
    (JournalStep.clock (settlementBody hold projection.clockAuthority.safeTime)).Stepped projection
      (withoutHold projection hold) := by
  have hfits : BodyFits projection (settlementBody hold projection.clockAuthority.safeTime) := by
    refine ⟨⟨_, bind_eq_ok.2 ⟨(), ?_, rfl⟩⟩, rfl, ?_, ?_⟩
    · obtain ⟨bytes, hclock⟩ := hprojection.clock
      obtain ⟨⟨⟩, hclock, -⟩ := bind_eq_ok.1 hclock
      rw [validateProjection, reject_eq_ok, hhold, Option.any_some] at hclock
      have hnew : max projection.clockAuthority.safeTime projection.clockAuthority.safeTime =
          projection.clockAuthority.safeTime := by
        show (if _ ≤ _ then _ else _) = _
        split_ifs <;> rfl
      refine reject_bind_eq_ok.2 ⟨?_, reject_bind_eq_ok.2 ⟨?_, rfl⟩⟩
      · show (false || false || projection.clockAuthority.safeTime !=
          max projection.clockAuthority.safeTime projection.clockAuthority.safeTime) = false
        rw [hnew, bne_self_eq_false]
        rfl
      · show (!(!(_ || _))) = false
        rw [Bool.not_not]
        exact hclock
    · rw [hhold]
      simp [settlementBody, clockHoldFits]
    · cases projection.activePointer <;> rfl
  have hsettled : settledBy projection.clockAuthority
      (settlementBody hold projection.clockAuthority.safeTime) (projection.addressed 0).state =
        none := by
    rw [Option.eq_none_iff_forall_ne_some]
    intro value hvalue
    obtain ⟨hvalue, -, hmatches⟩ := settledBy_eq_some.1 hvalue
    rw [hpending value hvalue] at hmatches
    cases hmatches
  exact ⟨_, _, rfl, frameStep_clock rfl hsequence hfits (.plain hsettled) hvalid⟩

end Steps

/-! ### The first hold -/

/-- A hold of that generation. -/
def holdOfGeneration (generation : UInt64) : ClockAuthorityHold :=
  ⟨generation, (headOf 1 1).digest⟩

/-- The first projection, behind the entry of a hold. -/
def heldCheckpoint : CompleteCheckpoint :=
  withHold (bareCheckpoint 1 ⟨0, ByteVec.zero 32⟩ none) (holdOfGeneration 5)

/-- The hold 5 is entered. -/
def enterFive : JournalStep :=
  enterHold (bareCheckpoint 1 ⟨0, ByteVec.zero 32⟩ none) (holdOfGeneration 5)

theorem validCheckpoint_held : ValidCheckpoint heldCheckpoint :=
  validateCheckpoint_eq_ok.1 (show validateCheckpoint _ = .ok () by decide)

theorem stepped_enterFive :
    enterFive.Stepped (bareCheckpoint 1 ⟨0, ByteVec.zero 32⟩ none) heldCheckpoint :=
  stepped_enterHold rfl rfl validCheckpoint_held

end MsgRiver.Journal
