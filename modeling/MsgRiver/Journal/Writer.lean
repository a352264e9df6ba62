import MsgRiver.Journal.Course
import MsgRiver.Journal.History
import MsgRiver.Journal.Publish

/-!
# Writers

A writer holds an image, changes it by the steps of the journal and publishes it in the owner's
directory.  Over every run of a writer the safe time does not go back, in the image it holds and in
the image that the directory selects (`safeTime_monotone`).

A publication compares the final sequences and not the histories, so the selected image can be
replaced by a longer fork of it.  `publish_keeps_head_iff` says when the last record of the selected
image is also a record of the published one.
-/

namespace MsgRiver.Journal

open Bytes Result Process Disk StepRun Chain

/-! ### Runs -/

/-- A program that keeps an image, and the directory that it publishes to. -/
structure Writer where
  image : CompleteControlJournalImage
  directory : Directory

/-- What a writer does: it changes its image, or it publishes it. -/
inductive WriterCall
  | step (step : JournalStep)
  | publish (fault : Option PublicationFault) (process : ℕ) (serial : UInt64)
      (outcomes : List Outcome)

/-- What a call does; a publication leaves whatever it leaves in the directory. -/
def Writer.act (key : JournalIntegrityKey) (writer : Writer) : WriterCall → Unit × Writer
  | .step step => ((), { writer with image := (advance key writer.image step).2 })
  | .publish fault process serial outcomes =>
    ((), { writer with
      directory :=
        (publishImage key writer.image fault process serial writer.directory outcomes).2.1 })

/-- The image can be encoded, and the directory selects nothing or an image. -/
structure Writer.Sound (key : JournalIntegrityKey) (writer : Writer) : Prop where
  image : ∃ projection, Stands key writer.image projection
  wellFormed : writer.directory.WellFormed
  selected : ∃ selected, selectedImage key writer.directory = .ok selected

/-! ### The selected image behind a publication -/

section Selected

variable {key : JournalIntegrityKey} {start directory : Directory} {bytes : List UInt8}
  {image : CompleteControlJournalImage}

theorem Kept.selectedImage_eq (h : Kept start directory) (hstart : start.WellFormed) :
    selectedImage key directory = selectedImage key start := by
  unfold selectedImage
  rw [h.entry]
  cases hentry : start.entries journalName with
  | none => rfl
  | some file =>
    dsimp only
    rw [h.files file (hstart _ _ (.inl hentry))]

theorem Replaced.selectedImage_eq (h : Replaced start bytes directory)
    (hencode : encodeControlJournalImage key image = .ok bytes) :
    selectedImage key directory = .ok (some image) := by
  obtain ⟨file, -, hentry, hcontent⟩ := h.entry
  refine Journal.selectedImage_eq hentry ?_ ?_
  · rw [hcontent]
    exact metadataFits_ofOwner hencode true
  · rw [hcontent]
    exact (decode_encodeImage hencode).1

/-- **A publication leaves the selected image or selects a new one that fits.** -/
theorem selectedImage_of_publish {previous : Option CompleteControlJournalImage}
    (hstart : start.WellFormed) (hencode : encodeControlJournalImage key image = .ok bytes)
    (hselected : selectedImage key start = .ok previous) (fault : Option PublicationFault)
    (process : ℕ) (serial : UInt64) (outcomes : List Outcome) :
    let left := (publishImage key image fault process serial start outcomes).2.1
    left.WellFormed ∧ (selectedImage key left = .ok previous ∨
      selectedImage key left = .ok (some image) ∧ publicationFits image previous = .ok ()) := by
  intro left
  have hspec : PublishAnswer start bytes _ _ left :=
    publishImage_spec hstart hencode hselected fault process serial start outcomes rfl
  have hcases : Kept start left ∨
      publicationFits image previous = .ok () ∧ Replaced start bytes left := by
    generalize (publishImage key image fault process serial start outcomes).1 = answer at hspec
    cases answer with
    | ok => exact .inr ⟨hspec.1, hspec.2.1⟩
    | error =>
      rcases hspec with ⟨-, hnew⟩ | ⟨-, hold⟩
      · exact .inr hnew
      · exact .inl hold
    | stopped => exact hspec
  rcases hcases with hold | ⟨hfits, hnew⟩
  · exact ⟨hold.wellFormed, .inl ((hold.selectedImage_eq hstart).trans hselected)⟩
  · exact ⟨hnew.wellFormed, .inr ⟨hnew.selectedImage_eq hencode, hfits⟩⟩

end Selected

/-! ### The safe time -/

/-- The target of an acknowledgement that has been applied is reached. -/
def TargetsReached (projection : CompleteCheckpoint) : Prop :=
  ∀ index value wall tick prior selected target, (projection.addressed index).state = some value →
    value.evidence = .acknowledge wall tick prior selected target → 2 ≤ value.phase →
    target ≤ projection.clockAuthority.safeTime

theorem ValidCheckpoint.targetsReached {projection : CompleteCheckpoint}
    (h : ValidCheckpoint projection) : TargetsReached projection := by
  intro index value wall tick prior selected target hstate hevidence hphase
  obtain ⟨hcells, -⟩ := reject_bind_eq_ok.1 h.cells
  rw [Bool.not_eq_false', List.all_eq_true] at hcells
  have hcell := hcells index (List.mem_finRange index)
  rw [validAddressedCell, hstate, Option.all_some, Bool.and_eq_true] at hcell
  have hfits := hcell.2
  simp only [acknowledgeFits, hevidence, Bool.and_eq_true, Bool.not_eq_true', Bool.and_eq_false_iff,
    decide_eq_false_iff_not, Int64.not_lt] at hfits
  exact hfits.1.resolve_left (fun hnot => hnot hphase)

/-- The second image replays to a safe time that is not before that of the first. -/
def NotBefore (image next : CompleteControlJournalImage) : Prop :=
  ∃ before after, replayTail image = .ok before ∧ replayTail next = .ok after ∧
    before.clockAuthority.safeTime ≤ after.clockAuthority.safeTime

theorem NotBefore.trans {image middle next : CompleteControlJournalImage}
    (h : NotBefore image middle) (h' : NotBefore middle next) : NotBefore image next := by
  obtain ⟨before, during, hbefore, hduring, hle⟩ := h
  obtain ⟨during', after, hduring', hafter, hle'⟩ := h'
  obtain rfl := Except.ok.inj (hduring.symm.trans hduring')
  exact ⟨before, after, hbefore, hafter, Int64.le_trans hle hle'⟩

theorem Stands.notBefore_refl {key : JournalIntegrityKey} {image : CompleteControlJournalImage}
    {projection : CompleteCheckpoint} (h : Stands key image projection) : NotBefore image image :=
  ⟨projection, projection, h.replayed, h.replayed, Int64.le_refl _⟩

/-- A publication that fits is not before the selected image. -/
theorem notBefore_of_publicationFits {image previous : CompleteControlJournalImage}
    (h : publicationFits image (some previous) = .ok ()) : NotBefore previous image := by
  obtain ⟨old, hold, h⟩ := bind_eq_ok.1 h
  obtain ⟨new, hnew, h⟩ := bind_eq_ok.1 h
  rw [reject_eq_ok, Bool.or_eq_false_iff, decide_eq_false_iff_not, Int64.not_lt] at h
  exact ⟨old, new, hold, hnew, h.2⟩

/-- Both images of a writer move on. -/
structure Writer.MovesOn (key : JournalIntegrityKey) (writer later : Writer) : Prop where
  image : NotBefore writer.image later.image
  selected : ∀ image, selectedImage key writer.directory = .ok (some image) →
    ∃ next, selectedImage key later.directory = .ok (some next) ∧ NotBefore image next

section Runs

variable {key : JournalIntegrityKey}

theorem Writer.Sound.movesOn_refl {writer : Writer} (h : writer.Sound key) :
    writer.MovesOn key writer := by
  obtain ⟨projection, hstands⟩ := h.image
  refine ⟨hstands.notBefore_refl, fun image himage => ⟨image, himage, ?_⟩⟩
  obtain ⟨projection', hstands'⟩ := exists_stands_of_selected himage
  exact hstands'.notBefore_refl

theorem Writer.MovesOn.trans {writer middle later : Writer} (h : writer.MovesOn key middle)
    (h' : middle.MovesOn key later) : writer.MovesOn key later := by
  refine ⟨h.image.trans h'.image, fun image himage => ?_⟩
  obtain ⟨next, hnext, hle⟩ := h.selected image himage
  obtain ⟨last, hlast, hle'⟩ := h'.selected next hnext
  exact ⟨last, hlast, hle.trans hle'⟩

/-- **One call of a writer.** -/
theorem Writer.Sound.act {writer : Writer} (h : writer.Sound key) (call : WriterCall) :
    (writer.act key call).2.Sound key ∧ writer.MovesOn key (writer.act key call).2 := by
  obtain ⟨projection, hstands⟩ := h.image
  obtain ⟨selected, hselected⟩ := h.selected
  cases call with
  | step step =>
    rcases hstands.advance step with ⟨stepped, generation, hstep, hnext⟩ | hsame
    · refine ⟨⟨⟨_, hnext⟩, h.wellFormed, selected, hselected⟩, ⟨?_, h.movesOn_refl.selected⟩⟩
      exact ⟨projection, _, hstands.replayed, hnext.replayed, hstep.clockChange.safeTime_le⟩
    · have hwriter : (writer.act key (.step step)).2 = writer := by
        show ({ writer with image := _ } : Writer) = writer
        rw [hsame]
      rw [hwriter]
      exact ⟨h, h.movesOn_refl⟩
  | publish fault process serial outcomes =>
    obtain ⟨bytes, hencode⟩ := hstands.encode
    obtain ⟨hwellFormed, hleft⟩ := selectedImage_of_publish h.wellFormed hencode hselected fault
      process serial outcomes
    rcases hleft with hleft | ⟨hleft, hfits⟩
    · refine ⟨⟨h.image, hwellFormed, selected, hleft⟩, hstands.notBefore_refl,
        fun image himage => ?_⟩
      obtain ⟨_, hstands'⟩ := exists_stands_of_selected himage
      exact ⟨image, by rw [← himage, hselected]; exact hleft, hstands'.notBefore_refl⟩
    · refine ⟨⟨h.image, hwellFormed, _, hleft⟩, hstands.notBefore_refl, fun image himage => ?_⟩
      obtain rfl := Except.ok.inj (hselected.symm.trans himage)
      exact ⟨_, hleft, notBefore_of_publicationFits hfits⟩

theorem Writer.Sound.run {writer : Writer} (h : writer.Sound key) (calls : List WriterCall) :
    (run (Writer.act key) writer calls).Sound key ∧
      writer.MovesOn key (run (Writer.act key) writer calls) := by
  induction calls generalizing writer with
  | nil => exact ⟨h, h.movesOn_refl⟩
  | cons call calls ih =>
    obtain ⟨hnext, hmoves⟩ := h.act call
    obtain ⟨hlast, hmoves'⟩ := ih hnext
    exact ⟨hlast, hmoves.trans hmoves'⟩

/-- **The safe time is monotone.**  From every image that can be encoded and every directory that
selects nothing or an image, in every run: the safe time of the image that the writer holds and the
safe time of the selected image do not go back, and every acknowledgement that has been applied has
its target at most at the safe time. -/
theorem safeTime_monotone (key : JournalIntegrityKey) (writer : Writer)
    (hencodable : ∃ bytes, encodeControlJournalImage key writer.image = .ok bytes)
    (hdirectory : writer.directory.WellFormed)
    (hselected : ∃ selected, selectedImage key writer.directory = .ok selected)
    (earlier later : List WriterCall) :
    let before := run (Writer.act key) writer earlier
    let after := run (Writer.act key) writer (earlier ++ later)
    NotBefore before.image after.image ∧
    (∀ image, selectedImage key before.directory = .ok (some image) →
      ∃ next, selectedImage key after.directory = .ok (some next) ∧ NotBefore image next) ∧
    (∀ projection, replayTail after.image = .ok projection → TargetsReached projection) ∧
    ∀ image projection, selectedImage key after.directory = .ok (some image) →
      replayTail image = .ok projection → TargetsReached projection := by
  intro before after
  have hsound : writer.Sound key :=
    ⟨exists_encode_iff_stands.1 hencodable, hdirectory, hselected⟩
  obtain ⟨hbefore, -⟩ := hsound.run earlier
  obtain ⟨hafter, hmoves⟩ := hbefore.run later
  rw [← run_append] at hafter hmoves
  refine ⟨hmoves.image, hmoves.selected, fun projection hprojection => ?_,
    fun image projection himage hprojection => ?_⟩
  · obtain ⟨projection', hstands⟩ := hafter.image
    obtain rfl := Except.ok.inj (hstands.replayed.symm.trans hprojection)
    exact hstands.valid.targetsReached
  · obtain ⟨projection', hstands⟩ := exists_stands_of_selected himage
    obtain rfl := Except.ok.inj (hstands.replayed.symm.trans hprojection)
    exact hstands.valid.targetsReached

theorem safeTime_monotone_genesis :
    let key : JournalIntegrityKey := ⟨ByteVec.zero 32⟩
    ∃ bytes, encodeControlJournalImage key (completeGenesis key) = .ok bytes ∧
      ∀ calls, NotBefore (completeGenesis key)
        (run (Writer.act key) ⟨completeGenesis key, directoryOf bytes⟩ calls).image := by
  intro key
  obtain ⟨bytes, hbytes⟩ := (stands_completeGenesis key).encode
  have hselected := selected_directoryOf hbytes
  obtain ⟨file, hfile, hfits, hdecode⟩ := hselected.file
  exact ⟨bytes, hbytes, fun calls => (safeTime_monotone key ⟨completeGenesis key, directoryOf bytes⟩
    ⟨bytes, hbytes⟩ hselected.wellFormed ⟨_, selectedImage_eq hfile hfits hdecode⟩ [] calls).1⟩

end Runs

/-! ### Forks -/

/-- The head that an image assigns to a sequence: its covered head, or the head that a frame of its
tail leads to. -/
def headAt (image : CompleteControlJournalImage) (sequence : UInt64) : Option JournalHead :=
  pointAt (·.sequence.toNat) (·.resultingHead) image.checkpoint.coveredHead image.tail sequence.toNat

theorem numbered_frameLink : Numbered FrameLink (·.sequence.toNat)
    AuthenticatedTailFrame.priorHead AuthenticatedTailFrame.resultingHead :=
  ⟨fun _ _ _ h => h.sequence_eq, fun _ _ _ h => (frameFollows_iff.1 h.follows).1,
    fun _ _ _ h => h.result⟩

/-- A publication that fits does not end before the selected image, and ends in its last head if it
ends at the same sequence. -/
theorem heads_of_publicationFits {image previous : CompleteControlJournalImage}
    {old new : CompleteCheckpoint} (hold : replayTail previous = .ok old)
    (hnew : replayTail image = .ok new) (h : publicationFits image (some previous) = .ok ()) :
    old.coveredHead.sequence ≤ new.coveredHead.sequence ∧
      (new.coveredHead.sequence = old.coveredHead.sequence → new.coveredHead = old.coveredHead) := by
  rw [publicationFits, hold, hnew] at h
  have hfits := reject_eq_ok.1 h
  simp only [Bool.or_eq_false_iff, decide_eq_false_iff_not, UInt64.not_lt, Bool.and_eq_false_iff,
    beq_eq_false_iff_ne, bne_eq_false_iff_eq] at hfits
  refine ⟨hfits.1.1.2, fun hsame => ?_⟩
  have hdigest := hfits.1.2.resolve_left (fun hne => hne hsame)
  generalize new.coveredHead = head at hsame hdigest
  generalize old.coveredHead = head' at hsame hdigest
  obtain ⟨sequence, digest⟩ := head
  obtain ⟨sequence', digest'⟩ := head'
  exact congrArg₂ JournalHead.mk hsame hdigest

/-- A successful publication has passed the comparison with the selected image. -/
theorem publicationFits_of_publish {key : JournalIntegrityKey} {directory : Directory}
    {image previous : CompleteControlJournalImage} (hselected : Selected key directory previous)
    (hencodable : ∃ bytes, encodeControlJournalImage key image = .ok bytes)
    {fault : Option PublicationFault} {process : ℕ} {serial : UInt64} {outcomes : List Outcome}
    (h : (publishImage key image fault process serial directory outcomes).1 = .ok ()) :
    publicationFits image (some previous) = .ok () := by
  obtain ⟨bytes, hencode⟩ := hencodable
  obtain ⟨file, hfile, hfits, hdecode⟩ := hselected.file
  have hspec := publishImage_spec hselected.wellFormed hencode (selectedImage_eq hfile hfits hdecode)
    fault process serial directory outcomes rfl
  rw [h] at hspec
  exact hspec.1

/-- **When a publication keeps the last record of the selected image.**  If the published image
covers the final sequence of the selected one, it has the selected final head there exactly when it
ends there, or its next record was appended to that head. -/
theorem publish_keeps_head_iff (key : JournalIntegrityKey) (directory : Directory)
    (previous image : CompleteControlJournalImage) (old new : CompleteCheckpoint)
    (hselected : Selected key directory previous)
    (hencodable : ∃ bytes, encodeControlJournalImage key image = .ok bytes)
    (hold : replayTail previous = .ok old) (hnew : replayTail image = .ok new)
    (fault : Option PublicationFault) (process : ℕ) (serial : UInt64) (outcomes : List Outcome)
    (hpublished : (publishImage key image fault process serial directory outcomes).1 = .ok ())
    (hcovers : image.checkpoint.coveredHead.sequence ≤ old.coveredHead.sequence) :
    headAt image old.coveredHead.sequence = some old.coveredHead ↔
      new.coveredHead.sequence = old.coveredHead.sequence ∨
      ∃ frame ∈ image.tail,
        frame.resultingHead.sequence.toNat = old.coveredHead.sequence.toNat + 1 ∧
        frame.priorHead = old.coveredHead := by
  obtain ⟨hle, hsame⟩ := heads_of_publicationFits hold hnew
    (publicationFits_of_publish hselected hencodable hpublished)
  have hleads := leads_of_replayTail hnew
  constructor
  · intro hhead
    by_cases hend : new.coveredHead.sequence = old.coveredHead.sequence
    · exact .inl hend
    · have hlt : old.coveredHead.sequence.toNat < new.coveredHead.sequence.toNat := by
        rw [UInt64.le_iff_toNat_le] at hle
        rw [← UInt64.toNat_inj] at hend
        omega
      -- the tail passes the old sequence, so a frame follows it
      obtain ⟨frame, hframe, hsequence⟩ := hleads.exists_entry numbered_frameLink
        (UInt64.le_iff_toNat_le.1 hcovers) hlt
      have hprior := hleads.pointAt_prior numbered_frameLink hframe hsequence
      exact .inr ⟨frame, hframe, hsequence, Option.some.inj (hprior.symm.trans hhead)⟩
  · rintro (hend | ⟨frame, hframe, hsequence, hprior⟩)
    · have hlast := hleads.pointAt_end numbered_frameLink
      rw [headAt, ← hend]
      rw [hlast, hsame hend]
    · rw [← hprior]
      rw [← hprior] at hsequence
      exact hleads.pointAt_prior numbered_frameLink hframe hsequence

/-- A publication over a directory with nothing but the selected file. -/
theorem exists_publish_directoryOf {key : JournalIntegrityKey}
    {previous image : CompleteControlJournalImage} {bytes bytes' : List UInt8}
    (hprevious : encodeControlJournalImage key previous = .ok bytes)
    (himage : encodeControlJournalImage key image = .ok bytes')
    (hfits : publicationFits image (some previous) = .ok ()) :
    ∃ counts, (publishImage key image none 1 0 (directoryOf bytes) (through counts)).1 = .ok () := by
  have hselected := selected_directoryOf hprevious
  obtain ⟨file, hfile, hmetadata, hdecode⟩ := hselected.file
  have hunused : (if temporaryName 1 0 = journalName then some 0 else none) = none :=
    if_neg (temporaryName_ne 1 0)
  have hserial : checkedSucc 0 = some 1 := by decide
  exact exists_publishImage hselected.wellFormed rfl rfl himage
    (selectedImage_eq hfile hmetadata hdecode) hfits hserial hunused

/-- A checkpoint, published over the first image. -/
theorem publish_keeps_head_iff_moved :
    let key : JournalIntegrityKey := ⟨ByteVec.zero 32⟩
    let genesis := completeGenesis key
    let image := movedImage key 1
    ∃ directory counts, Selected key directory genesis ∧
      (publishImage key image none 1 0 directory (through counts)).1 = .ok () ∧
      (headAt image 0 = some genesis.checkpoint.coveredHead ↔
        (movedCheckpoint 1).coveredHead.sequence = 0 ∨
        ∃ frame ∈ image.tail, frame.resultingHead.sequence.toNat = 0 + 1 ∧
          frame.priorHead = genesis.checkpoint.coveredHead) := by
  intro key genesis image
  have h : Stands key genesis genesis.checkpoint := stands_completeGenesis key
  have hmoved : Stands key image (movedCheckpoint 1) := stands_moved key rfl (by decide +kernel)
  obtain ⟨bytes, hbytes⟩ := h.encode
  obtain ⟨bytes', hbytes'⟩ := hmoved.encode
  have hfits : publicationFits image (some genesis) = .ok () := by
    rw [publicationFits, h.replayed, hmoved.replayed]
    rfl
  obtain ⟨counts, hpublished⟩ := exists_publish_directoryOf hbytes hbytes' hfits
  have hselected := selected_directoryOf hbytes
  exact ⟨directoryOf bytes, counts, hselected, hpublished,
    publish_keeps_head_iff key _ genesis image _ _ hselected ⟨bytes', hbytes'⟩ h.replayed
      hmoved.replayed none 1 0 _ hpublished (by decide)⟩

/-! ### Two writers -/

/-- The image of another writer: it has appended another checkpoint, folded, and appended again. -/
def forkedImage (key : JournalIntegrityKey) : CompleteControlJournalImage :=
  { completeGenesis key with
    checkpoint := (movedCheckpoint 2).setGeneration 2
    tail := [periodicFrame (movedCheckpoint 2).coveredHead 2 3] }

/-- The checkpoint that the records of that writer lead to. -/
def forkedCheckpoint : CompleteCheckpoint :=
  periodicCheckpoint ((movedCheckpoint 2).setGeneration 2) 2 3

theorem stands_forked (key : JournalIntegrityKey) :
    Stands key (forkedImage key) forkedCheckpoint := by
  have hmoved : Stands key (movedImage key 2) (movedCheckpoint 2) :=
    stands_moved key rfl (by decide +kernel)
  have hfolded := @stands_of_descends key _ _ hmoved _ hmoved.descends hmoved.valid 2 (by decide)
    (by decide)
  exact stands_periodic hfolded rfl (by decide) rfl rfl (by decide +kernel)

/-- **A fork is published**: the last record of the selected image is not among the records of the
image that replaces it, although that image covers its sequence. -/
theorem fork_published :
    let key : JournalIntegrityKey := ⟨ByteVec.zero 32⟩
    ∃ directory counts, Selected key directory (movedImage key 1) ∧ OnDisk directory ∧
      (∃ bytes, encodeControlJournalImage key (forkedImage key) = .ok bytes) ∧
      replayTail (movedImage key 1) = .ok (movedCheckpoint 1) ∧
      (publishImage key (forkedImage key) none 1 0 directory (through counts)).1 = .ok () ∧
      (forkedImage key).checkpoint.coveredHead.sequence ≤ (movedCheckpoint 1).coveredHead.sequence ∧
      headAt (forkedImage key) (movedCheckpoint 1).coveredHead.sequence ≠
        some (movedCheckpoint 1).coveredHead := by
  intro key
  have hmoved : Stands key (movedImage key 1) (movedCheckpoint 1) :=
    stands_moved key rfl (by decide +kernel)
  have hforked := stands_forked key
  obtain ⟨bytes, hbytes⟩ := hmoved.encode
  obtain ⟨bytes', hbytes'⟩ := hforked.encode
  have hselected := selected_directoryOf hbytes
  have hfits : publicationFits (forkedImage key) (some (movedImage key 1)) = .ok () := by
    rw [publicationFits, hmoved.replayed, hforked.replayed]
    rfl
  obtain ⟨counts, hpublished⟩ := exists_publish_directoryOf hbytes hbytes' hfits
  refine ⟨directoryOf bytes, counts, hselected, onDisk_directoryOf bytes, ⟨bytes', hbytes'⟩,
    hmoved.replayed, hpublished, by decide, fun hhead => ?_⟩
  have hdigest : (movedCheckpoint 2).coveredHead.digest ≠ (movedCheckpoint 1).coveredHead.digest := by
    decide +kernel
  exact hdigest (congrArg JournalHead.digest (Option.some.inj hhead))

end MsgRiver.Journal
