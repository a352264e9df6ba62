import MsgRiver.Journal.Obligations

/-!
# Checkpoints that stay valid

The checks of a checkpoint, cell by cell.  A checkpoint stays valid when its head moves on, its
clock changes, and at most one cell is given a value at the new head, as long as the
acknowledgements fit the clock (`ValidCheckpoint.moved`).  An acknowledgement stays valid from phase
to phase (`validAcknowledge`).
-/

namespace MsgRiver.Journal

open Bytes Result

/-! ### Cells -/

namespace CompleteCheckpoint

variable (checkpoint : CompleteCheckpoint) (index cell : Fin 4) (state : Option AddressedStateValue)

theorem setState_state : ((checkpoint.setState index state).addressed cell).state =
    if cell = index then state else (checkpoint.addressed cell).state := by
  split_ifs with hcell
  · rw [hcell, setState_state_self]
  · rw [setState_addressed_of_ne _ hcell]

theorem setState_addressed_self : (checkpoint.setState cell state).addressed cell =
    { checkpoint.addressed cell with state } := Function.update_self ..

theorem setState_slot :
    ((checkpoint.setState index state).addressed cell).operation =
      (checkpoint.addressed cell).operation ∧
    ((checkpoint.setState index state).addressed cell).current =
      (checkpoint.addressed cell).current := by
  by_cases hcell : cell = index
  · subst hcell
    rw [setState_addressed_self]
    exact ⟨rfl, rfl⟩
  · rw [setState_addressed_of_ne _ hcell]
    exact ⟨rfl, rfl⟩

variable {index cell} in
theorem setState_comm (h : index ≠ cell) (state' : Option AddressedStateValue) :
    (checkpoint.setState index state).setState cell state' =
      (checkpoint.setState cell state').setState index state := by
  have haddressed : ((checkpoint.setState index state).setState cell state').addressed =
      ((checkpoint.setState cell state').setState index state).addressed := by
    funext other
    by_cases hcell : other = cell
    · subst hcell
      rw [setState_addressed_self, setState_addressed_of_ne _ h.symm,
        setState_addressed_of_ne _ h.symm,
        setState_addressed_self]
    · by_cases hindex : other = index
      · subst hindex
        rw [setState_addressed_of_ne _ h, setState_addressed_self, setState_addressed_self,
          setState_addressed_of_ne _ h]
      · rw [setState_addressed_of_ne _ hcell, setState_addressed_of_ne _ hindex,
          setState_addressed_of_ne _ hindex, setState_addressed_of_ne _ hcell]
  exact congrArg (fun addressed => { checkpoint with addressed }) haddressed

end CompleteCheckpoint

/-- A value fits its cell. -/
structure CellFits (checkpoint : CompleteCheckpoint) (index : Fin 4) (value : AddressedStateValue) :
    Prop where
  valid : validAddressedValue (checkpoint.addressed index).operation value = true
  current : (checkpoint.addressed index).current ≠ addressedComplete value
  application : headCovered checkpoint.coveredHead value.applicationHead = true
  publication : headCovered checkpoint.coveredHead value.publicationHead = true
  disjoint : ∀ other, index < other →
    disjointCells (checkpoint.addressed index) value (checkpoint.addressed other) = true
  clock : acknowledgeFits checkpoint.clockAuthority (checkpoint.addressed index).current value = true

theorem validAddressedCell_iff {checkpoint : CompleteCheckpoint} {index : Fin 4} :
    validAddressedCell checkpoint index = true ↔
      ∀ value, (checkpoint.addressed index).state = some value →
        CellFits checkpoint index value := by
  rw [validAddressedCell]
  cases (checkpoint.addressed index).state with
  | none =>
    refine ⟨fun _ value hvalue => ?_, fun _ => rfl⟩
    cases hvalue
  | some value =>
    simp only [Option.all_some, Bool.and_eq_true, bne_iff_ne, List.all_eq_true, List.mem_filter,
      List.mem_finRange, true_and, decide_eq_true_eq, Option.some.injEq, forall_eq']
    constructor
    · rintro ⟨⟨⟨⟨⟨hvalue, hcurrent⟩, happlication⟩, hpublication⟩, hdisjoint⟩, hclock⟩
      exact ⟨hvalue, hcurrent, happlication, hpublication, hdisjoint, hclock⟩
    · rintro ⟨hvalue, hcurrent, happlication, hpublication, hdisjoint, hclock⟩
      exact ⟨⟨⟨⟨⟨hvalue, hcurrent⟩, happlication⟩, hpublication⟩, hdisjoint⟩, hclock⟩

theorem validateAddressedCells_eq_ok {checkpoint : CompleteCheckpoint} :
    validateAddressedCells checkpoint = .ok () ↔
      (∀ index value, (checkpoint.addressed index).state = some value →
        CellFits checkpoint index value) ∧ OneCellEach checkpoint := by
  simp only [validateAddressedCells, reject_bind_eq_ok, reject_eq_ok, Bool.not_eq_false',
    List.all_eq_true, List.mem_finRange, true_implies, validAddressedCell_iff, Bool.or_eq_false_iff,
    Bool.and_eq_false_iff, Option.isSome_eq_false_iff, Option.isNone_iff_eq_none]
  refine and_congr_right fun _ => ⟨fun h operation => ?_, fun h => ?_⟩
  · cases operation with
    | clockAcknowledge => exact h.1
    | systemShutdown => exact h.2
  · exact ⟨h .clockAcknowledge, h .systemShutdown⟩

theorem ValidCheckpoint.cellFits {checkpoint : CompleteCheckpoint} (h : ValidCheckpoint checkpoint)
    {index : Fin 4} {value : AddressedStateValue}
    (hvalue : (checkpoint.addressed index).state = some value) : CellFits checkpoint index value :=
  (validateAddressedCells_eq_ok.1 h.cells).1 index value hvalue

/-! ### Heads -/

theorem sequence_le_of_headCovered {covered head : JournalHead}
    (h : headCovered covered head = true) :
    head.sequence ≤ covered.sequence := by
  simp only [headCovered, Bool.not_eq_true', Bool.or_eq_false_iff, decide_eq_false_iff_not,
    UInt64.not_lt] at h
  exact h.1

theorem headCovered_self (head : JournalHead) : headCovered head head = true := by
  simp only [headCovered, Bool.not_eq_true', Bool.or_eq_false_iff, decide_eq_false_iff_not,
    UInt64.lt_irrefl, not_false_eq_true, bne_self_eq_false, Bool.and_false, and_self]

/-- The head that follows covers more. -/
theorem headCovered_of_lt {covered next head : JournalHead} (h : headCovered covered head = true)
    (hlt : covered.sequence < next.sequence) : headCovered next head = true := by
  have hle := sequence_le_of_headCovered h
  have hhead : head.sequence < next.sequence := UInt64.lt_of_le_of_lt hle hlt
  simp only [headCovered, Bool.not_eq_true', Bool.or_eq_false_iff, decide_eq_false_iff_not,
    UInt64.not_lt, Bool.and_eq_false_iff, beq_eq_false_iff_ne]
  exact ⟨UInt64.le_of_lt hhead, .inl (UInt64.ne_of_lt hhead)⟩

/-! ### Checkpoints -/

/-- A value at the head of the checkpoint. -/
structure FreshValue (checkpoint : CompleteCheckpoint) (index : Fin 4)
    (value : AddressedStateValue) :
    Prop where
  valid : validAddressedValue (checkpoint.addressed index).operation value = true
  current : (checkpoint.addressed index).current ≠ addressedComplete value
  application : value.applicationHead = checkpoint.coveredHead
  publication : value.publicationHead = checkpoint.coveredHead

/-- A checkpoint that differs from a valid one in its head, its clock and its cells. -/
structure Moved (checkpoint next : CompleteCheckpoint) (index : Fin 4) : Prop where
  generation : next.generation = checkpoint.generation
  commands : next.localCommands = checkpoint.localCommands
  provenance : next.provenance = checkpoint.provenance
  coordinator : next.coordinator = checkpoint.coordinator
  openUpgrade : next.openUpgrade = checkpoint.openUpgrade
  slots : ∀ cell, (next.addressed cell).operation = (checkpoint.addressed cell).operation ∧
    (next.addressed cell).current = (checkpoint.addressed cell).current
  cells : ∀ cell value, (next.addressed cell).state = some value →
    (checkpoint.addressed cell).state = some value ∨
    cell = index ∧ FreshValue next cell value ∧
      checkpoint.coveredHead.sequence < next.coveredHead.sequence
  head : next.coveredHead = checkpoint.coveredHead ∨
    checkpoint.coveredHead.sequence < next.coveredHead.sequence

section Moved

variable {checkpoint next : CompleteCheckpoint} {index : Fin 4}

theorem Moved.headCovered (h : Moved checkpoint next index) {head : JournalHead}
    (hcovered : headCovered checkpoint.coveredHead head = true) :
    headCovered next.coveredHead head = true := by
  rcases h.head with hsame | hlt
  · rw [hsame]
    exact hcovered
  · exact headCovered_of_lt hcovered hlt

/-- The checkpoint with another clock, perhaps at the next head. -/
theorem moved_clock (checkpoint : CompleteCheckpoint) (clock : ClockAuthorityProjection)
    {head : JournalHead} (index : Fin 4)
    (hhead : head = checkpoint.coveredHead ∨ checkpoint.coveredHead.sequence < head.sequence) :
    Moved checkpoint ((checkpoint.setClock clock).setHead head) index :=
  ⟨rfl, rfl, rfl, rfl, rfl, fun _ => ⟨rfl, rfl⟩, fun _ _ hvalue => .inl hvalue, hhead⟩

/-- The checkpoint with another clock, at the next head, with a value at that head in one cell. -/
theorem moved_store (hvalid : ValidCheckpoint checkpoint) (clock : ClockAuthorityProjection)
    (index : Fin 4) {head : JournalHead} {value : AddressedStateValue}
    (hvalue : validAddressedValue (emptyCell index).operation value = true)
    (hcurrent : (emptyCell index).current ≠ addressedComplete value)
    (happlication : value.applicationHead = head) (hpublication : value.publicationHead = head)
    (hlt : checkpoint.coveredHead.sequence < head.sequence) :
    Moved checkpoint (((checkpoint.setClock clock).setState index (some value)).setHead head)
      index where
  generation := rfl
  commands := rfl
  provenance := rfl
  coordinator := rfl
  openUpgrade := rfl
  slots cell := CompleteCheckpoint.setState_slot _ _ _ _
  cells cell other hother := by
    rw [CompleteCheckpoint.setHead_addressed, CompleteCheckpoint.setState_state] at hother
    split_ifs at hother with hcell
    · obtain rfl := Option.some.inj hother
      subst hcell
      have hslot := CompleteCheckpoint.setState_slot (checkpoint.setClock clock) cell cell (some value)
      refine .inr ⟨rfl, ⟨?_, ?_, happlication, hpublication⟩, hlt⟩
      · rw [CompleteCheckpoint.setHead_addressed, hslot.1]
        exact (hvalid.slots cell).1 ▸ hvalue
      · rw [CompleteCheckpoint.setHead_addressed, hslot.2]
        exact (hvalid.slots cell).2 ▸ hcurrent
    · exact .inl hother
  head := .inr hlt

/-- A cell may be cleared as well. -/
theorem Moved.clear (h : Moved checkpoint next index) (cell : Fin 4) :
    Moved checkpoint (next.setState cell none) index where
  generation := h.generation
  commands := h.commands
  provenance := h.provenance
  coordinator := h.coordinator
  openUpgrade := h.openUpgrade
  slots other := by
    rw [(CompleteCheckpoint.setState_slot _ _ _ _).1, (CompleteCheckpoint.setState_slot _ _ _ _).2]
    exact h.slots other
  cells other value hvalue := by
    rw [CompleteCheckpoint.setState_state] at hvalue
    split_ifs at hvalue with hcell
    rcases h.cells other value hvalue with hold | ⟨hindex, hfresh, hlt⟩
    · exact .inl hold
    · have hslot := CompleteCheckpoint.setState_slot next cell other none
      exact .inr ⟨hindex, ⟨hslot.1 ▸ hfresh.valid, hslot.2 ▸ hfresh.current, hfresh.application,
        hfresh.publication⟩, hlt⟩
  head := h.head

/-- A fresh value and one that was there before name different sequences. -/
theorem not_shareSequence {covered head : JournalHead} {value fresh : AddressedStateValue}
    (happlication : Journal.headCovered covered value.applicationHead = true)
    (hpublication : Journal.headCovered covered value.publicationHead = true)
    (hfresh : fresh.applicationHead = head) (hfresh' : fresh.publicationHead = head)
    (hlt : covered.sequence < head.sequence) :
    shareSequence value fresh = false ∧ shareSequence fresh value = false := by
  have h1 := UInt64.ne_of_lt (UInt64.lt_of_le_of_lt (sequence_le_of_headCovered happlication) hlt)
  have h2 := UInt64.ne_of_lt (UInt64.lt_of_le_of_lt (sequence_le_of_headCovered hpublication) hlt)
  simp only [shareSequence, hfresh, hfresh', List.any_cons, List.any_nil, Bool.or_false,
    Bool.or_eq_false_iff, beq_eq_false_iff_ne]
  exact ⟨⟨⟨h1, h1⟩, h2, h2⟩, ⟨h1.symm, h2.symm⟩, h1.symm, h2.symm⟩

theorem Moved.disjoint (h : Moved checkpoint next index) (hvalid : ValidCheckpoint checkpoint)
    {cell other : Fin 4} (hlt : cell < other) {value : AddressedStateValue}
    (hvalue : (next.addressed cell).state = some value) :
    disjointCells (next.addressed cell) value (next.addressed other) = true := by
  rw [disjointCells]
  cases hother : (next.addressed other).state with
  | none => rfl
  | some otherValue =>
    rw [Option.all_some, Bool.not_eq_true', Bool.and_eq_false_iff]
    rcases h.cells cell value hvalue with hold | ⟨rfl, hfresh, hsequence⟩
    · have hfits := hvalid.cellFits hold
      rcases h.cells other otherValue hother with hold' | ⟨rfl, hfresh, hsequence⟩
      · have hdisjoint := hfits.disjoint other hlt
        rw [disjointCells, hold', Option.all_some, Bool.not_eq_true', Bool.and_eq_false_iff,
          ← (h.slots cell).1, ← (h.slots other).1] at hdisjoint
        exact hdisjoint
      · exact .inr (not_shareSequence hfits.application hfits.publication hfresh.application
          hfresh.publication hsequence).1
    · rcases h.cells other otherValue hother with hold' | ⟨rfl, -, -⟩
      · have hfits := hvalid.cellFits hold'
        exact .inr (not_shareSequence hfits.application hfits.publication hfresh.application
          hfresh.publication hsequence).2
      · exact absurd hlt (lt_irrefl _)

/-- **A checkpoint that moves stays valid**, if its clock and its acknowledgements are. -/
theorem ValidCheckpoint.moved (hvalid : ValidCheckpoint checkpoint)
    (h : Moved checkpoint next index)
    (hhead : validateHead next.coveredHead = .ok ())
    (hclock : ∃ bytes, encodeClockAuthorityProjection next.clockAuthority = .ok bytes)
    (hone : OneCellEach next)
    (hfits : ∀ cell value, (next.addressed cell).state = some value →
      acknowledgeFits next.clockAuthority (next.addressed cell).current value = true) :
    ValidCheckpoint next where
  generation := by rw [h.generation]; exact hvalid.generation
  head := hhead
  clock := hclock
  slots cell := by rw [(h.slots cell).1, (h.slots cell).2]; exact hvalid.slots cell
  cells := by
    refine validateAddressedCells_eq_ok.2 ⟨fun cell value hvalue => ?_, hone⟩
    have hdisjoint : ∀ other, cell < other →
        disjointCells (next.addressed cell) value (next.addressed other) = true :=
      fun other hlt => h.disjoint hvalid hlt hvalue
    rcases h.cells cell value hvalue with hold | ⟨-, hfresh, -⟩
    · have hcell := hvalid.cellFits hold
      exact ⟨by rw [(h.slots cell).1]; exact hcell.valid,
        by rw [(h.slots cell).2]; exact hcell.current,
        h.headCovered hcell.application, h.headCovered hcell.publication, hdisjoint,
        hfits cell value hvalue⟩
    · refine ⟨hfresh.valid, hfresh.current, ?_, ?_, hdisjoint, hfits cell value hvalue⟩
      · rw [hfresh.application]
        exact headCovered_self _
      · rw [hfresh.publication]
        exact headCovered_self _
  provenance := h.provenance.trans hvalid.provenance
  coordinator := h.coordinator.trans hvalid.coordinator
  openUpgrade := h.openUpgrade.trans hvalid.openUpgrade
  count := by rw [h.commands]; exact hvalid.count
  commands := by rw [h.commands]; exact hvalid.commands

end Moved

/-! ### Acknowledgements -/

/-- The safe time that an acknowledgement settles on. -/
def AddressedStateValue.target (value : AddressedStateValue) : Int64 :=
  match value.evidence with
  | .acknowledge _ _ _ _ targetSafeTime => targetSafeTime
  | .shutdown .. => 0

/-- The acknowledgement in another phase, at the head of its record. -/
def AddressedStateValue.atPhase (value : AddressedStateValue) (phase : UInt8)
    (mirror : AddressedMirror) (head : JournalHead) : AddressedStateValue :=
  { value with
    phase
    safeResult := .acknowledge value.target (phase == 3)
    applicationHead := head
    publicationHead := head
    mirror }

/-- The parts of an acknowledgement belong to each other. -/
structure AcknowledgeParts (value : AddressedStateValue) (generation : UInt64) (digest : ByteVec 32)
    (wall tick prior : Int64) (selected : Option Int64) : Prop where
  address : value.address = .clockHold generation digest
  transition : value.desiredTransition = .settleHold true
  evidence : value.evidence = .acknowledge wall tick prior selected value.target
  target : value.target = acknowledgeTarget wall prior selected
  result : value.safeResult = .acknowledge value.target (value.phase == 3)
  generation_ne : generation ≠ 0
  digest_ne : digest ≠ ByteVec.zero 32
  tick : ¬ tick < 0
  phase : 1 ≤ value.phase ∧ value.phase ≤ 3
  selected : selected.isNone = (value.mirror == .notApplicable)

theorem validSubject_acknowledge_iff {value : AddressedStateValue} :
    validSubject .clockAcknowledge value = true ↔
      ∃ generation digest wall tick prior selected,
        AcknowledgeParts value generation digest wall tick prior selected := by
  constructor
  · intro h
    unfold validSubject at h
    split at h
    · rename_i generation digest wall tick prior selected target time settled _ haddress htransition
        hevidence hresult
      simp only [Bool.not_eq_true', Bool.or_eq_false_iff, beq_eq_false_iff_ne, bne_eq_false_iff_eq,
        Bool.not_eq_false', decide_eq_true_eq, decide_eq_false_iff_not] at h
      obtain ⟨⟨⟨⟨⟨⟨⟨hgeneration, hdigest⟩, htick⟩, rfl⟩, rfl⟩, hphase⟩, rfl⟩, hselected⟩ := h
      have htarget : value.target = acknowledgeTarget wall prior selected := by
        rw [AddressedStateValue.target, hevidence]
      exact ⟨generation, digest, wall, tick, prior, selected, haddress, htransition,
        by rw [htarget, hevidence], htarget, by rw [htarget, hresult], hgeneration, hdigest, htick,
        hphase, hselected⟩
    · cases ‹AddressedOperation.clockAcknowledge = _›
    · cases h
  · rintro ⟨generation, digest, wall, tick, prior, selected, h⟩
    simp only [validSubject, h.address, h.transition, h.evidence, h.result, Bool.not_eq_true',
      Bool.or_eq_false_iff, beq_eq_false_iff_ne, bne_eq_false_iff_eq, Bool.not_eq_false',
      decide_eq_false_iff_not]
    exact ⟨⟨⟨⟨⟨⟨⟨h.generation_ne, h.digest_ne⟩, h.tick⟩, h.target⟩, h.target⟩,
      decide_eq_true h.phase⟩, trivial⟩, h.selected⟩

/-- **An acknowledgement stays valid from phase to phase.** -/
theorem validAcknowledge {value : AddressedStateValue} {phase : UInt8} {mirror : AddressedMirror}
    {head : JournalHead} (h : validAddressedValue .clockAcknowledge value = true)
    (hphase : 1 ≤ phase ∧ phase ≤ 3)
    (hnone : (mirror == .notApplicable) = (value.mirror == .notApplicable))
    (hmirror : validMirror .clockAcknowledge (value.atPhase phase mirror head) = true)
    (hsequence : head.sequence ≠ 0) (hdigest : head.digest ≠ ByteVec.zero 32) :
    validAddressedValue .clockAcknowledge (value.atPhase phase mirror head) = true := by
  obtain ⟨hactor, hsubject, -, -⟩ := validAddressedValue_iff.1 h
  refine validAddressedValue_iff.2 ⟨hactor, ?_, hmirror, ?_⟩
  · obtain ⟨generation, digest, wall, tick, prior, selected, hparts⟩ :=
      validSubject_acknowledge_iff.1 hsubject
    exact validSubject_acknowledge_iff.2 ⟨generation, digest, wall, tick, prior, selected,
      hparts.address, hparts.transition, hparts.evidence, hparts.target, rfl, hparts.generation_ne,
      hparts.digest_ne, hparts.tick, hphase, hparts.selected.trans hnone.symm⟩
  · simp only [AddressedStateValue.atPhase, validHeads, Bool.and_eq_true, Bool.not_eq_true',
      Bool.or_eq_false_iff, beq_eq_false_iff_ne, decide_eq_false_iff_not, UInt64.lt_irrefl,
      not_false_eq_true, bne_self_eq_false, Bool.and_false, and_true]
    exact ⟨⟨⟨⟨hsequence, hdigest⟩, hsequence⟩, hdigest⟩, by simp⟩

end MsgRiver.Journal
