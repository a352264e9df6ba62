import MsgRiver.Journal.Course

/-!
# Holds

Only a publication of the clock authority makes a hold present, and the journal compares its
generation with the hold that stands and with the last acknowledgement that it retains.  It has no
fence for addresses: once a hold is settled and its completion evicted, nothing of it is left.  That
generations increase over the whole course is the promise of the authority (`IncreasingHolds`);
under it an address is settled at most once, and a completion that a newer hold has evicted never
comes back (`holds_increase`).
-/

namespace MsgRiver.Journal

open Bytes Result StepRun

/-- The image behind a course of steps from the first image. -/
def course (key : JournalIntegrityKey) (steps : List JournalStep) : CompleteControlJournalImage :=
  run (advance key) (completeGenesis key) steps

/-- The hold of the projection. -/
def holdOf (image : CompleteControlJournalImage) : Option ClockAuthorityHold :=
  match replayTail image with
  | .ok projection => projection.clockAuthority.hold
  | .error _ => none

/-- The hold is present behind the step and was not present before it. -/
def Enters (before after : CompleteControlJournalImage) (hold : ClockAuthorityHold) : Prop :=
  holdOf after = some hold ∧ holdOf before ≠ some hold

/-- The promise of the authority: it enters generations in increasing order. -/
def IncreasingHolds (key : JournalIntegrityKey) (steps : List JournalStep) : Prop :=
  ∀ pre clock currentProcess post hold, steps = pre ++ .authority clock currentProcess :: post →
    Enters (course key pre) (course key (pre ++ [.authority clock currentProcess])) hold →
    ∀ early earlier, early <+: pre → holdOf (course key early) = some earlier →
      earlier.generation < hold.generation

/-- The address of a hold. -/
def ClockAuthorityHold.address (hold : ClockAuthorityHold) : AddressedOperationAddress :=
  .clockHold hold.generation hold.observationDigest

/-- A completed acknowledgement of the address appears. -/
def Settles (before after : CompleteControlJournalImage) (address : AddressedOperationAddress) :
    Prop :=
  ∃ old new value, replayTail before = .ok old ∧ replayTail after = .ok new ∧
    (old.addressed 1).state = none ∧ (new.addressed 1).state = some value ∧ value.address = address

/-! ### Steps -/

section Steps

variable {projection stepped : CompleteCheckpoint} {step : JournalStep}

/-- The cell of the last acknowledgement is kept or cleared, or an acknowledgement of the hold is
completed and the hold is cleared. -/
def LastChange (projection stepped : CompleteCheckpoint) : Prop :=
  (stepped.addressed 1).state = (projection.addressed 1).state ∨
  (stepped.addressed 1).state = none ∨
  ∃ value, (stepped.addressed 1).state = some value ∧
    addressedHoldMatches projection.clockAuthority value.address = true ∧
    stepped.clockAuthority.hold = none

theorem storeValue_last {checkpoint stored : CompleteCheckpoint} {value : AddressedStateValue}
    (hsame : (stored.addressed 1).state = (checkpoint.addressed 1).state)
    (hclock : addressedComplete value = true → stored.clockAuthority = checkpoint.clockAuthority) :
    LastChange checkpoint (storeValue stored .clockAcknowledge value) := by
  unfold storeValue
  split_ifs with hcomplete
  · show LastChange checkpoint (completeAcknowledge stored value)
    unfold completeAcknowledge
    split_ifs with hmatches
    · rw [hclock hcomplete] at hmatches
      exact .inr (.inr ⟨value, CompleteCheckpoint.setState_state_self _ _ _, hmatches, rfl⟩)
    · refine .inl ?_
      rw [CompleteCheckpoint.setState_addressed_of_ne _ (by decide), hsame]
  · refine .inl ?_
    rw [CompleteCheckpoint.setState_addressed_of_ne _ (by decide), hsame]

theorem AddressedStep.lastChange {operation : AddressedOperation} {action : AddressedAction}
    {currentProcess : ByteVec 16} {recovery : Bool}
    (h : AddressedStep projection operation action currentProcess recovery stepped) :
    LastChange projection stepped := by
  cases operation with
  | systemShutdown =>
    refine .inl ?_
    rw [h.addressed_of_ne (by decide) (by decide) (by decide)]
  | clockAcknowledge =>
    obtain ⟨normal, head, stored, value, -, hacted, -, rfl⟩ := h.acted
    have hstored : (stored.addressed 1).state = (projection.addressed 1).state := by
      cases hacted with
      | request => rfl
      | phase _ _ _ happlied =>
        unfold checkpointAtPhase at happlied
        split_ifs at happlied
        · unfold applyAcknowledge at happlied
          split at happlied
          · cases happlied
          · obtain ⟨-, happlied⟩ := reject_bind_eq_ok.1 happlied
            obtain rfl := Except.ok.inj happlied
            rfl
        · obtain rfl := Except.ok.inj happlied
          rfl
      | commit => rfl
    have hclock : addressedComplete value = true →
        stored.clockAuthority = projection.clockAuthority := by
      intro hcomplete
      rcases hacted.clockAuthority with hclock | ⟨-, hphase, -⟩
      · exact hclock
      · rw [addressedComplete, hphase] at hcomplete
        cases hcomplete
    have hlast := storeValue_last hstored hclock
    unfold LastChange
    rw [withoutSuperseded_addressed_of_ne _ _ _ (by decide), withoutSuperseded_clockAuthority]
    exact hlast

theorem JournalStep.Stepped.lastChange (h : step.Stepped projection stepped) :
    LastChange projection stepped := by
  cases step with
  | clock body =>
    obtain ⟨head, clocked, -, hclocked, rfl⟩ := ClockStep.clocked h
    cases hclocked with
    | plain => exact .inl rfl
    | settled hpending hreason hmatches =>
      refine .inr (.inr ⟨_, CompleteCheckpoint.setState_state_self _ _ _, hmatches, ?_⟩)
      exact if_pos hreason
  | addressed => exact AddressedStep.lastChange h
  | authority clock currentProcess =>
    obtain ⟨evicted, hevicted, rfl⟩ := AuthorityStep.evicted h
    unfold LastChange
    rw [CompleteCheckpoint.setClock_addressed, withoutSuperseded_addressed_of_ne _ _ _ (by decide)]
    rcases evictAcknowledge_cases hevicted with ⟨rfl, -⟩ | ⟨_, _, _, _, -, -, -, -, rfl⟩
    · exact .inl rfl
    · exact .inr (.inl (CompleteCheckpoint.setState_state_self _ _ _))
  | fold trigger =>
    obtain rfl : stepped = projection := h
    exact .inl rfl

/-- **Only a publication enters a hold**, and its generation is compared with the hold that stands
and with the last acknowledgement. -/
theorem JournalStep.Stepped.enters (h : step.Stepped projection stepped) {hold : ClockAuthorityHold}
    (hnew : stepped.clockAuthority.hold = some hold)
    (hold' : projection.clockAuthority.hold ≠ some hold) :
    (∃ clock currentProcess, step = .authority clock currentProcess) ∧
    (∀ earlier, projection.clockAuthority.hold = some earlier →
      earlier.generation < hold.generation) ∧
    ∀ last generation digest, (projection.addressed 1).state = some last →
      last.address = .clockHold generation digest →
      last.address = hold.address ∧ stepped.addressed 1 = projection.addressed 1 ∨
        generation < hold.generation ∧ (stepped.addressed 1).state = none := by
  have hauthority : ∃ clock currentProcess, step = .authority clock currentProcess := by
    -- the other changes of the clock keep the hold or clear it
    have hclock := h.clockChange
    generalize stepped.clockAuthority = clock at hclock hnew
    cases hclock with
    | kept => exact absurd hnew hold'
    | @body body hfits =>
      have hhold : (if body.reason = .automaticSettlement then none
        else projection.clockAuthority.hold) = some hold := hnew
      split_ifs at hhold
      exact absurd hhold hold'
    | applied => exact absurd hnew hold'
    | completed => cases hnew
    | authority => exact ⟨_, _, rfl⟩
  refine ⟨hauthority, fun earlier hearlier => ?_, fun last generation digest hlast haddress => ?_⟩
  · rcases h.clockChange.hold hearlier with hkept | ⟨hnone, -⟩ | ⟨_, _, newer, -, hnewer, hlt⟩
    · exact absurd (hearlier.trans (hkept.symm.trans hnew)) hold'
    · cases hnew.symm.trans hnone
    · obtain rfl := Option.some.inj (hnew.symm.trans hnewer)
      exact hlt
  · obtain ⟨clock, currentProcess, rfl⟩ := hauthority
    obtain ⟨evicted, hevicted, rfl⟩ := AuthorityStep.evicted h
    rw [CompleteCheckpoint.setClock_addressed, withoutSuperseded_addressed_of_ne _ _ _ (by decide)]
    have hclock : clock.hold = some hold := hnew
    rcases evictAcknowledge_cases hevicted with ⟨rfl, hkept⟩ | ⟨_, _, _, _, hlast', haddress', hhold,
      hlt, rfl⟩
    · refine .inl ⟨?_, rfl⟩
      rcases hkept last hlast with hnone | hmatches
      · cases hclock.symm.trans hnone
      · exact (addressedHoldMatches_iff hclock).1 hmatches
    · obtain rfl := Option.some.inj (hlast.symm.trans hlast')
      obtain rfl := Option.some.inj (hclock.symm.trans hhold)
      obtain ⟨rfl, rfl⟩ := AddressedOperationAddress.clockHold.inj (haddress.symm.trans haddress')
      exact .inr ⟨hlt, CompleteCheckpoint.setState_state_self _ _ _⟩

end Steps

/-! ### Courses -/

section Courses

variable {key : JournalIntegrityKey} {steps : List JournalStep}

theorem course_snoc (pre : List JournalStep) (step : JournalStep) :
    course key (pre ++ [step]) = (advance key (course key pre) step).2 :=
  run_snoc (advance key) (completeGenesis key) pre step

theorem exists_stands_course (key : JournalIntegrityKey) (steps : List JournalStep) :
    ∃ projection, Stands key (course key steps) projection := by
  induction steps using List.reverseRecOn with
  | nil => exact ⟨_, stands_completeGenesis key⟩
  | append_singleton steps step ih =>
    obtain ⟨projection, h⟩ := ih
    rw [course_snoc]
    rcases h.advance step with ⟨stepped, generation, -, hnext⟩ | hsame
    · exact ⟨_, hnext⟩
    · exact ⟨projection, by rw [hsame]; exact h⟩

/-- A step that the projection admits is taken at the end of a course. -/
theorem Spare.course_snoc {pre : List JournalStep} {step : JournalStep}
    {projection stepped : CompleteCheckpoint} {room : ℕ}
    (h : Spare key (course key pre) projection (room + 1))
    (hstep : step.Stepped projection stepped) :
    Spare key (course key (pre ++ [step])) stepped room := by
  rw [Journal.course_snoc]
  exact h.advance hstep

theorem holdOf_eq {image : CompleteControlJournalImage} {projection : CompleteCheckpoint}
    (h : replayTail image = .ok projection) : holdOf image = projection.clockAuthority.hold := by
  rw [holdOf, h]

theorem Spare.holdOf {image : CompleteControlJournalImage} {projection : CompleteCheckpoint}
    {room : ℕ}
    (h : Spare key image projection room) :
    holdOf image = projection.clockAuthority.hold := by
  obtain ⟨generation, hstands, -⟩ := h
  rw [holdOf_eq hstands.replayed]
  rfl

/-- A step of a course is one of the projection, up to the generation, or changes nothing. -/
theorem course_step {pre : List JournalStep} {step : JournalStep}
    {before after : CompleteCheckpoint}
    (hbefore : replayTail (course key pre) = .ok before)
    (hafter : replayTail (course key (pre ++ [step])) = .ok after) :
    (∃ stepped generation, step.Stepped before stepped ∧ after = stepped.setGeneration generation) ∨
    after = before := by
  obtain ⟨projection, h⟩ := exists_stands_course key pre
  obtain rfl := Except.ok.inj (h.replayed.symm.trans hbefore)
  rw [course_snoc] at hafter
  rcases h.advance step with ⟨stepped, generation, hstep, hnext⟩ | hsame
  · exact .inl ⟨stepped, generation, hstep, Except.ok.inj (hafter.symm.trans hnext.replayed)⟩
  · rw [hsame] at hafter
    exact .inr (Except.ok.inj (hafter.symm.trans hbefore))

/-- **Invariants of the rest of a course.** -/
theorem course_induct {I : CompleteCheckpoint → Prop} {pre : List JournalStep}
    (hgeneration : ∀ projection generation, I projection → I (projection.setGeneration generation))
    (hbase : ∀ projection, replayTail (course key pre) = .ok projection → I projection)
    (hstep : ∀ mid step before stepped, pre ++ mid ++ [step] <+: steps →
      replayTail (course key (pre ++ mid)) = .ok before →
      (∃ after generation, replayTail (course key (pre ++ mid ++ [step])) = .ok after ∧
        after = stepped.setGeneration generation) →
      step.Stepped before stepped → I before → I stepped)
    (later : List JournalStep) (hinitial : pre ++ later <+: steps) :
    ∀ projection, replayTail (course key (pre ++ later)) = .ok projection → I projection := by
  induction later using List.reverseRecOn with
  | nil =>
    rw [List.append_nil]
    exact hbase
  | append_singleton mid step ih =>
    rw [← List.append_assoc] at hinitial ⊢
    intro after hafter
    obtain ⟨before, h⟩ := exists_stands_course key (pre ++ mid)
    have hbefore := ih ((List.prefix_append _ [step]).trans hinitial) before h.replayed
    rcases course_step h.replayed hafter with ⟨stepped, generation, hstepped, rfl⟩ | rfl
    · exact hgeneration _ _ (hstep mid step before stepped hinitial h.replayed
        ⟨_, generation, hafter, rfl⟩ hstepped hbefore)
    · exact hbefore

/-- The promise, at a step of the projection. -/
theorem IncreasingHolds.lt (h : IncreasingHolds key steps) {pre : List JournalStep}
    {step : JournalStep} (hinitial : pre ++ [step] <+: steps)
    {before stepped after : CompleteCheckpoint}
    {generation : UInt64} (hbefore : replayTail (course key pre) = .ok before)
    (hafter : replayTail (course key (pre ++ [step])) = .ok after)
    (hgeneration : after = stepped.setGeneration generation) (hstep : step.Stepped before stepped)
    {hold : ClockAuthorityHold} (hnew : stepped.clockAuthority.hold = some hold)
    (hold' : before.clockAuthority.hold ≠ some hold) {early : List JournalStep}
    {earlier : ClockAuthorityHold} (hearly : early <+: pre)
    (hearlier : holdOf (course key early) = some earlier) :
    earlier.generation < hold.generation := by
  obtain ⟨⟨clock, currentProcess, rfl⟩, -⟩ := hstep.enters hnew hold'
  obtain ⟨post, rfl⟩ := hinitial
  refine h pre clock currentProcess post hold (by simp) ⟨?_, ?_⟩ early earlier hearly hearlier
  · rw [holdOf_eq hafter, hgeneration]
    exact hnew
  · rw [holdOf_eq hbefore]
    exact hold'

theorem exists_hold_of_matches {clock : ClockAuthorityProjection}
    {address : AddressedOperationAddress}
    (h : addressedHoldMatches clock address = true) :
    ∃ hold, clock.hold = some hold ∧ address = hold.address := by
  cases hhold : clock.hold with
  | none =>
    rw [addressedHoldMatches, hhold] at h
    cases h
  | some hold => exact ⟨hold, rfl, (addressedHoldMatches_iff hhold).1 h⟩

/-- A settlement names the hold that stands, and clears it. -/
theorem Settles.hold {pre : List JournalStep} {step : JournalStep}
    {address : AddressedOperationAddress}
    (h : Settles (course key pre) (course key (pre ++ [step])) address) :
    ∃ hold, address = hold.address ∧ holdOf (course key pre) = some hold ∧
      holdOf (course key (pre ++ [step])) = none := by
  obtain ⟨old, new, value, hbefore, hafter, hnone, hsome, rfl⟩ := h
  rw [holdOf_eq hbefore, holdOf_eq hafter]
  rcases course_step hbefore hafter with ⟨stepped, generation, hstep, rfl⟩ | rfl
  · rcases hstep.lastChange with hkept | hcleared | ⟨value', hvalue', hmatches, hgone⟩
    · cases hsome.symm.trans (hkept.trans hnone)
    · cases hsome.symm.trans hcleared
    · obtain rfl := Option.some.inj (hsome.symm.trans hvalue')
      obtain ⟨hold, hhold, haddress⟩ := exists_hold_of_matches hmatches
      exact ⟨hold, haddress, hhold, hgone⟩
  · cases hsome.symm.trans hnone

/-- A hold that is gone does not come back. -/
theorem IncreasingHolds.not_reentered (h : IncreasingHolds key steps) {pre later : List JournalStep}
    {step : JournalStep} (hinitial : pre ++ [step] ++ later <+: steps) {hold : ClockAuthorityHold}
    (hpresent : holdOf (course key pre) = some hold)
    (hgone : holdOf (course key (pre ++ [step])) ≠ some hold) :
    holdOf (course key (pre ++ [step] ++ later)) ≠ some hold := by
  obtain ⟨projection, hprojection⟩ := exists_stands_course key (pre ++ [step] ++ later)
  rw [holdOf_eq hprojection.replayed]
  refine course_induct (I := fun projection => projection.clockAuthority.hold ≠ some hold)
    (fun _ _ hne => hne) (fun base hbase => ?_)
    (fun mid next before stepped hmid hbefore hafter hstep
      hne hnew => ?_) later hinitial projection hprojection.replayed
  · rwa [holdOf_eq hbase] at hgone
  · obtain ⟨after, generation, hafter, rfl⟩ := hafter
    have hearly : pre <+: pre ++ [step] ++ mid := by
      rw [List.append_assoc]
      exact List.prefix_append _ _
    have hlt := h.lt hmid hbefore hafter rfl hstep hnew hne hearly hpresent
    exact absurd hlt (UInt64.lt_irrefl _)

/-- What a newer hold leaves of the holds before it: nothing. -/
structure Above (generation : UInt64) (projection : CompleteCheckpoint) : Prop where
  hold : ∀ hold, projection.clockAuthority.hold = some hold → generation ≤ hold.generation
  last : ∀ value older digest, (projection.addressed 1).state = some value →
    value.address = .clockHold older digest → generation ≤ older

theorem IncreasingHolds.above (h : IncreasingHolds key steps) {pre later : List JournalStep}
    (hinitial : pre ++ later <+: steps) {hold : ClockAuthorityHold}
    (hpresent : holdOf (course key pre) = some hold)
    (hbase : ∀ base, replayTail (course key pre) = .ok base → (base.addressed 1).state = none) :
    ∀ projection, replayTail (course key (pre ++ later)) = .ok projection →
      Above hold.generation projection := by
  refine course_induct (fun _ _ habove => ⟨habove.hold, habove.last⟩) (fun base hbase' => ?_)
    (fun mid next before stepped hmid hbefore hafter hstep habove => ?_) later hinitial
  · constructor
    · intro present hpresent'
      rw [holdOf_eq hbase', hpresent'] at hpresent
      obtain rfl := Option.some.inj hpresent
      exact UInt64.le_refl _
    · intro value older digest hvalue
      cases (hbase base hbase').symm.trans hvalue
  · obtain ⟨after, generation, hafter, rfl⟩ := hafter
    constructor
    · intro present hpresent'
      by_cases hold' : before.clockAuthority.hold = some present
      · exact habove.hold present hold'
      · exact UInt64.le_of_lt (h.lt hmid hbefore hafter rfl hstep hpresent' hold'
          (List.prefix_append pre mid) hpresent)
    · intro value older digest hvalue haddress
      rcases hstep.lastChange with hkept | hcleared | ⟨value', hvalue', hmatches, -⟩
      · exact habove.last value older digest (hkept.symm.trans hvalue) haddress
      · cases hvalue.symm.trans hcleared
      · obtain rfl := Option.some.inj (hvalue.symm.trans hvalue')
        obtain ⟨present, hpresent', haddress'⟩ := exists_hold_of_matches hmatches
        obtain ⟨rfl, -⟩ := AddressedOperationAddress.clockHold.inj (haddress.symm.trans haddress')
        exact habove.hold present hpresent'

theorem addressedCompletion_eq_some {image : CompleteControlJournalImage}
    {address : AddressedOperationAddress} {currentProcess : ByteVec 16} {result : AddressedResult}
    (h : addressedCompletion image .clockAcknowledge address currentProcess = .ok (some result)) :
    ∃ projection value, replayTail image = .ok projection ∧
      (projection.addressed 1).state = some value ∧ value.address = address ∧
      addressedComplete value = true ∧ ∃ generation digest, address =
        .clockHold generation digest := by
  obtain ⟨projection, hprojection, h⟩ := bind_eq_ok.1 h
  obtain ⟨value, hvalue, -⟩ := Option.map_eq_some_iff.1 (Except.ok.inj h)
  obtain ⟨hstate, hfilter⟩ := Option.filter_eq_some_iff.1 hvalue
  rw [Bool.and_eq_true, Bool.and_eq_true, beq_iff_eq] at hfilter
  obtain ⟨⟨heligible, haddress⟩, hcomplete⟩ := hfilter
  refine ⟨projection, value, hprojection, hstate, haddress, hcomplete, ?_⟩
  cases address with
  | clockHold generation digest => exact ⟨generation, digest, rfl⟩
  | processInstance => cases heligible

/-- A completion of the hold that stands is disclosed. -/
theorem addressedCompletion_of_matches {image : CompleteControlJournalImage}
    {projection : CompleteCheckpoint} (hprojection : replayTail image = .ok projection)
    {value : AddressedStateValue} (hvalue : (projection.addressed 1).state = some value)
    (hcomplete : addressedComplete value = true) {hold : ClockAuthorityHold}
    (hhold : projection.clockAuthority.hold = some hold) (haddress : value.address = hold.address)
    (currentProcess : ByteVec 16) :
    addressedCompletion image .clockAcknowledge value.address currentProcess =
      .ok (some value.safeResult) := by
  refine bind_eq_ok.2 ⟨projection, hprojection, congrArg Except.ok (Option.map_eq_some_iff.2
    ⟨value, Option.filter_eq_some_iff.2 ⟨hvalue, ?_⟩, rfl⟩)⟩
  have hmatches := (addressedHoldMatches_iff hhold).2 haddress
  have heligible : completionEligible projection.clockAuthority .clockAcknowledge value.address
      currentProcess = true := by
    rw [haddress] at hmatches ⊢
    show (projection.clockAuthority.hold.isNone ||
      addressedHoldMatches projection.clockAuthority hold.address) = true
    rw [hmatches, Bool.or_true]
  rw [heligible, beq_self_eq_true, hcomplete]
  rfl

/-- **Holds never regress, if the authority numbers them in increasing order.**  The journal itself
compares a hold that is entered with the hold that stands and with the last acknowledgement that it
retains.  Under the promise of the authority, a hold that is entered has a greater generation than
every hold before it, an address is settled at most once, and a completion that was evicted by a
newer hold is not disclosed again. -/
theorem holds_increase (key : JournalIntegrityKey) (steps : List JournalStep) :
    (∀ pre step before after hold, pre ++ [step] <+: steps →
      replayTail (course key pre) = .ok before →
      replayTail (course key (pre ++ [step])) = .ok after →
      after.clockAuthority.hold = some hold → before.clockAuthority.hold ≠ some hold →
      (∃ clock currentProcess, step = .authority clock currentProcess) ∧
      (∀ earlier, before.clockAuthority.hold = some earlier →
        earlier.generation < hold.generation) ∧
      ∀ last generation digest, (before.addressed 1).state = some last →
        last.address = .clockHold generation digest →
        last.address = hold.address ∨ generation < hold.generation) ∧
    (IncreasingHolds key steps →
      (∀ pre step hold, pre ++ [step] <+: steps →
        Enters (course key pre) (course key (pre ++ [step])) hold →
        ∀ early earlier, early <+: pre → holdOf (course key early) = some earlier →
          earlier.generation < hold.generation) ∧
      (∀ pre step mid step' address, pre ++ [step] ++ mid ++ [step'] <+: steps →
        Settles (course key pre) (course key (pre ++ [step])) address →
        ¬ Settles (course key (pre ++ [step] ++ mid)) (course key (pre ++ [step] ++ mid ++ [step']))
          address) ∧
      ∀ pre step later hold address result currentProcess laterProcess,
        pre ++ [step] ++ later <+: steps →
        addressedCompletion (course key pre) .clockAcknowledge address currentProcess =
          .ok (some result) →
        Enters (course key pre) (course key (pre ++ [step])) hold →
        addressedCompletion (course key (pre ++ [step])) .clockAcknowledge address currentProcess =
          .ok none →
        addressedCompletion (course key (pre ++ [step] ++ later)) .clockAcknowledge address
          laterProcess = .ok none) := by
  refine ⟨?_, fun hpromise => ⟨?_, ?_, ?_⟩⟩
  · intro pre step before after hold _ hbefore hafter hnew hold'
    rcases course_step hbefore hafter with ⟨stepped, generation, hstep, rfl⟩ | rfl
    · obtain ⟨hauthority, hlt, hlast⟩ := hstep.enters hnew hold'
      exact ⟨hauthority, hlt, fun last older digest hstate haddress =>
        (hlast last older digest hstate haddress).imp And.left And.left⟩
    · exact absurd hnew hold'
  · intro pre step hold hinitial hentered early earlier hearly hearlier
    obtain ⟨hnew, hold'⟩ := hentered
    obtain ⟨before, hbefore⟩ := exists_stands_course key pre
    obtain ⟨after, hafter⟩ := exists_stands_course key (pre ++ [step])
    rw [holdOf_eq hafter.replayed] at hnew
    rw [holdOf_eq hbefore.replayed] at hold'
    rcases course_step hbefore.replayed hafter.replayed with ⟨stepped, generation, hstep, rfl⟩ | rfl
    · exact hpromise.lt hinitial hbefore.replayed hafter.replayed rfl hstep hnew hold' hearly hearlier
    · exact absurd hnew hold'
  · intro pre step mid step' address hinitial hsettles hsettles'
    obtain ⟨hold, haddress, hpresent, hgone⟩ := hsettles.hold
    obtain ⟨hold', haddress', hpresent', -⟩ := hsettles'.hold
    obtain ⟨hgeneration, hdigest⟩ :=
      AddressedOperationAddress.clockHold.inj (haddress.symm.trans haddress')
    obtain rfl : hold = hold' := congrArg₂ ClockAuthorityHold.mk hgeneration hdigest
    exact hpromise.not_reentered ((List.prefix_append _ _).trans hinitial) hpresent
      (by rw [hgone]; nofun)
      hpresent'
  · intro pre step later hold address result currentProcess laterProcess hinitial hdisclosed hentered
      hevicted
    obtain ⟨before, last, hbefore, hstate, rfl, hcomplete, generation, digest, haddress⟩ :=
      addressedCompletion_eq_some hdisclosed
    obtain ⟨hnew, hold'⟩ := hentered
    obtain ⟨after, hafter⟩ := exists_stands_course key (pre ++ [step])
    have hpresent := hnew
    rw [holdOf_eq hafter.replayed] at hnew
    rw [holdOf_eq hbefore] at hold'
    -- the newer hold has evicted the completion
    have hnone : (after.addressed 1).state = none ∧ generation < hold.generation := by
      rcases course_step hbefore hafter.replayed with ⟨stepped, number, hstep, rfl⟩ | rfl
      · rcases (hstep.enters hnew hold').2.2 last generation digest hstate haddress with
          ⟨hsame, hkept⟩ | ⟨hlt, hcleared⟩
        · have hagain := addressedCompletion_of_matches hafter.replayed
            (show ((stepped.setGeneration number).addressed 1).state = some last by
              rw [CompleteCheckpoint.setGeneration_addressed, hkept, hstate])
            hcomplete hnew hsame currentProcess
          cases hevicted.symm.trans hagain
        · exact ⟨hcleared, hlt⟩
      · exact absurd hnew hold'
    obtain ⟨final, hfinal⟩ := exists_stands_course key (pre ++ [step] ++ later)
    have habove := hpromise.above hinitial hpresent (fun base hbase => by
      obtain rfl := Except.ok.inj (hafter.replayed.symm.trans hbase)
      exact hnone.1) final hfinal.replayed
    cases hanswer : addressedCompletion (course key (pre ++ [step] ++ later)) .clockAcknowledge
      last.address laterProcess with
    | error e =>
      rw [addressedCompletion, hfinal.replayed] at hanswer
      cases hanswer
    | ok disclosed =>
      cases disclosed with
      | none => rfl
      | some result' =>
        obtain ⟨final', value, hfinal', hvalue, hsame, -⟩ := addressedCompletion_eq_some hanswer
        obtain rfl := Except.ok.inj (hfinal.replayed.symm.trans hfinal')
        have hle := habove.last value generation digest hvalue (hsame.trans haddress)
        exact absurd hnone.2 (UInt64.not_lt.2 hle)

end Courses

/-! ### A hold that is settled, and what is entered behind it -/

/-- Behind the settlement of the hold. -/
def settledCheckpoint : CompleteCheckpoint := withoutHold heldCheckpoint (holdOfGeneration 5)

/-- The clock settles the hold 5 by itself. -/
def settleFive : JournalStep :=
  .clock (settlementBody (holdOfGeneration 5) heldCheckpoint.clockAuthority.safeTime)

/-- A hold with a greater generation is entered. -/
def enterSix : JournalStep := enterHold settledCheckpoint (holdOfGeneration 6)

/-- A hold with a smaller generation is entered. -/
def enterThree : JournalStep := enterHold settledCheckpoint (holdOfGeneration 3)

theorem holdOf_genesis (key : JournalIntegrityKey) : holdOf (course key []) = none :=
  holdOf_eq (stands_completeGenesis key).replayed

theorem spare_held (key : JournalIntegrityKey) :
    Spare key (course key [enterFive]) heldCheckpoint 2 := by
  have hroom : (1 : UInt64).toNat + 3 < 2 ^ 64 := by decide
  have hgenesis : Spare key (course key []) (bareCheckpoint 1 ⟨0, ByteVec.zero 32⟩ none) 3 :=
    (stands_completeGenesis key).spare hroom
  exact hgenesis.course_snoc stepped_enterFive

theorem spare_settled (key : JournalIntegrityKey) :
    Spare key (course key [enterFive, settleFive]) settledCheckpoint 1 := by
  have hvalid : ValidCheckpoint settledCheckpoint :=
    validateCheckpoint_eq_ok.1 (show validateCheckpoint _ = .ok () by decide +kernel)
  have hpending : (heldCheckpoint.addressed 0).state = none := rfl
  refine (spare_held key).course_snoc (stepped_settlement rfl (by decide) ?_ validCheckpoint_held
    hvalid)
  intro value hvalue
  cases hpending.symm.trans hvalue

/-- Behind the settlement, a hold of every generation can be entered. -/
theorem enters_settled (key : JournalIntegrityKey) {hold : ClockAuthorityHold}
    (hvalid : ValidCheckpoint (withHold settledCheckpoint hold)) :
    Enters (course key [enterFive, settleFive])
      (course key [enterFive, settleFive, enterHold settledCheckpoint hold]) hold := by
  have hentered : Spare key (course key [enterFive, settleFive, enterHold settledCheckpoint hold])
      (withHold settledCheckpoint hold) 0 :=
    (spare_settled key).course_snoc (stepped_enterHold rfl rfl hvalid)
  have hnone : holdOf (course key [enterFive, settleFive]) = none := (spare_settled key).holdOf
  refine ⟨hentered.holdOf, ?_⟩
  rw [hnone]
  exact nofun

/-- Up to the settlement, the only hold is the first one. -/
theorem holdOf_early (key : JournalIntegrityKey) {early : List JournalStep}
    {earlier : ClockAuthorityHold} (hearly : early <+: [enterFive, settleFive])
    (hearlier : holdOf (course key early) = some earlier) : earlier = holdOfGeneration 5 := by
  rw [List.prefix_cons_iff] at hearly
  rcases hearly with rfl | ⟨rest, rfl, hrest⟩
  · cases (holdOf_genesis key).symm.trans hearlier
  rw [List.prefix_cons_iff] at hrest
  rcases hrest with rfl | ⟨rest, rfl, hrest⟩
  · exact Option.some.inj (hearlier.symm.trans (spare_held key).holdOf)
  · obtain rfl := List.prefix_nil.1 hrest
    cases (spare_settled key).holdOf.symm.trans hearlier

/-- A hold is entered, settled, and followed by a greater one. -/
theorem holds_increase_enter :
    let key : JournalIntegrityKey := ⟨ByteVec.zero 32⟩
    let steps := [enterFive, settleFive, enterSix]
    IncreasingHolds key steps ∧ holdOf (course key [enterFive]) = some (holdOfGeneration 5) ∧
    Enters (course key [enterFive, settleFive]) (course key steps) (holdOfGeneration 6) ∧
    ∀ early earlier, early <+: [enterFive, settleFive] →
      holdOf (course key early) = some earlier →
      earlier.generation < (holdOfGeneration 6).generation := by
  intro key steps
  have hvalid : ValidCheckpoint (withHold settledCheckpoint (holdOfGeneration 6)) :=
    validateCheckpoint_eq_ok.1 (show validateCheckpoint _ = .ok () by decide +kernel)
  have hentered := enters_settled key hvalid
  have hpromise : IncreasingHolds key steps := by
    intro pre clock currentProcess post hold hsteps hnew early earlier hearly hearlier
    -- the hold is entered by the first step or by the last one
    rcases pre with _ | ⟨first, _ | ⟨second, _ | ⟨third, pre⟩⟩⟩
    · obtain rfl := List.prefix_nil.1 hearly
      cases (holdOf_genesis key).symm.trans hearlier
    · simp [steps, settleFive] at hsteps
    · obtain ⟨rfl, rfl, hsix, rfl⟩ : enterFive = first ∧ settleFive = second ∧
          enterSix = .authority clock currentProcess ∧ [] = post := by simpa [steps] using hsteps
      rw [← hsix] at hnew
      obtain rfl := holdOf_early key hearly hearlier
      obtain rfl := Option.some.inj (hnew.1.symm.trans hentered.1)
      decide
    · have hlength := congrArg List.length hsteps
      simp [steps] at hlength
  exact ⟨hpromise, (spare_held key).holdOf, hentered,
    ((holds_increase key steps).2 hpromise).1 [enterFive, settleFive] enterSix _
      List.prefix_rfl hentered⟩

/-- **The journal alone does not keep holds from regressing.** -/
theorem hold_regresses :
    let key : JournalIntegrityKey := ⟨ByteVec.zero 32⟩
    holdOf (course key [enterFive]) = some (holdOfGeneration 5) ∧
    Enters (course key [enterFive, settleFive]) (course key [enterFive, settleFive, enterThree])
      (holdOfGeneration 3) ∧
    (holdOfGeneration 3).generation < (holdOfGeneration 5).generation := by
  intro key
  have hvalid : ValidCheckpoint (withHold settledCheckpoint (holdOfGeneration 3)) :=
    validateCheckpoint_eq_ok.1 (show validateCheckpoint _ = .ok () by decide +kernel)
  exact ⟨(spare_held key).holdOf, enters_settled key hvalid, by decide⟩

end MsgRiver.Journal
