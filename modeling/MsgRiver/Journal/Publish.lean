import MsgRiver.Lib.Disk
import MsgRiver.Journal.Obligations

/-!
# Publishing an image

The selected image is the file `control-journal` of the owner's directory.  A publication encodes
the image, compares it with the selected one, writes it to a temporary file of its own, syncs that
file and renames it over the selected name; then it syncs the directory and reads the selected image
back.

`publishImage_spec` says what a publication leaves behind, for every outcome of every call.  From it
follow that a publication is atomic (`publish_crash_atomic`), what it protects of the history that
was selected before (`publish_keeps_head_iff`), and that the selected safe time does not go back
(`safeTime_monotone`).
-/

namespace MsgRiver.Journal

open Bytes Result Process Disk
open ControlJournalImageError (writeFailed publishUncertain)

/-! ### The code -/

/-- The points at which a publication can be made to fail. -/
inductive PublicationFault
  | uniqueTemporaryCreate
  | temporaryWrite
  | fileSync
  | replacementRename
  | directorySync
  deriving DecidableEq, Repr

/-- The name of the image. -/
def journalName : String := "control-journal"

/-- Work in the directory of the owner. -/
abbrev OwnerProcess := Process Directory ControlJournalImageError

/-- The lock, a descriptor of the directory, and its identity. -/
def acquire : OwnerProcess Unit := do
  -- `StateOwnerLock::acquire_with_private_root_reference`
  ask writeFailed fun _ => ()
  -- `openat`
  ask writeFailed fun _ => ()
  let actual ← ask writeFailed fun directory => (directory.mode, directory.owned)
  -- `fstat` of the reference; a directory that has been rebound counts as a failure
  ask writeFailed fun _ => ()
  lift (reject (actual.1 != 0o700 || !actual.2) writeFailed)

/-- A regular file of this user, closed to others, under one name and within the limit. -/
def metadataFits (file : File) : Bool :=
  !(!file.regular || file.mode != 0o600 || !file.owned || file.links != 1
    || decide (imageLimit < file.bytes.length))

/-- One read into a buffer of 8192 bytes. -/
def readTurn (file : ℕ) (bytes : List UInt8) (outcome : Outcome) (directory : Directory) :
    Turn ControlJournalImageError (List UInt8) (List UInt8) × Directory :=
  match outcome with
  | .done count =>
    let chunk := (directory.files file).chunk bytes.length 8192 count
    (if chunk.isEmpty then .ok bytes
      else if imageLimit < bytes.length + chunk.length then .error invalidControlJournalImage
      else .again (bytes ++ chunk), directory)
  | .interrupted => (.again bytes, directory)
  | .failed => (.error invalidControlJournalImage, directory)

/-- Reads the file and decodes it. -/
def readImage (key : JournalIntegrityKey) (file : ℕ) :
    OwnerProcess (Option CompleteControlJournalImage) := do
  let metadata ← fstat invalidControlJournalImage file
  lift (reject (!metadataFits metadata) invalidControlJournalImage)
  let bytes ← loop (readTurn file) []
  lift (reject (bytes.length != metadata.bytes.length) invalidControlJournalImage)
  lift (some <$> decodeControlJournalImage key bytes)

/-- The image behind an entry of the directory. -/
def readEntry (key : JournalIntegrityKey) :
    Option ℕ → OwnerProcess (Option CompleteControlJournalImage)
  | none => pure none
  | some file => readImage key file

/-- Reads the image under its name, where there is one. -/
def read (key : JournalIntegrityKey) : OwnerProcess (Option CompleteControlJournalImage) := do
  let entry ← openFile invalidControlJournalImage journalName
  readEntry key entry

/-- Only a failed sync of the directory leaves it open whether the image was replaced. -/
def publicationBarrier (injected : Option PublicationFault) (barrier : PublicationFault) :
    Except ControlJournalImageError Unit :=
  reject (injected == some barrier)
    (if barrier = .directorySync then publishUncertain else writeFailed)

/-- The selected image does not go back; a missing journal can only be initialized. -/
def publicationFits (image : CompleteControlJournalImage) :
    Option CompleteControlJournalImage → Except ControlJournalImageError Unit
  | some previous => do
    let old ← replayTail previous
    let new ← replayTail image
    reject (decide (image.header.branchSerialHighWater < previous.header.branchSerialHighWater)
      || decide (image.checkpoint.generation < previous.checkpoint.generation)
      || decide (new.coveredHead.sequence < old.coveredHead.sequence)
      || (new.coveredHead.sequence == old.coveredHead.sequence
        && new.coveredHead.digest != old.coveredHead.digest)
      || decide (new.clockAuthority.safeTime < old.clockAuthority.safeTime))
      invalidControlJournalImage
  | none =>
    reject (image.header.branchSerialHighWater != 0 || image.checkpoint.generation != 1
      || image.checkpoint.coveredHead.sequence != 0 || !image.tail.isEmpty)
      invalidControlJournalImage

/-- The name of a temporary file of this process. -/
def temporaryName (process : ℕ) (serial : UInt64) : String :=
  ".control-journal-" ++ toString process ++ "-" ++ toString serial.toNat ++ ".tmp"

/-- A short write, for the fault in the middle of one. -/
def writeHalf (fault : Option PublicationFault) (file : ℕ) (bytes : List UInt8) :
    OwnerProcess Unit :=
  if fault = some .temporaryWrite then writeAll writeFailed file (bytes.take (bytes.length / 2))
  else pure ()

/-- The steps up to the rename. -/
def replaceSelected (fault : Option PublicationFault) (name : String) (file : ℕ)
    (bytes : List UInt8) : OwnerProcess Unit := do
  writeHalf fault file bytes
  lift (publicationBarrier fault .temporaryWrite)
  writeAll writeFailed file bytes
  lift (publicationBarrier fault .fileSync)
  fsync writeFailed file
  lift (publicationBarrier fault .replacementRename)
  rename writeFailed name journalName

/-- The steps behind the rename. -/
def confirmSelected (key : JournalIntegrityKey) (image : CompleteControlJournalImage)
    (fault : Option PublicationFault) : OwnerProcess Unit := do
  lift (publicationBarrier fault .directorySync)
  fsyncDirectory publishUncertain
  let selected ← (read key).mapError fun _ => publishUncertain
  lift (reject (selected != some image) publishUncertain)

/-- `publish_image`, in a process that has drawn `serial` before. -/
def publishImage (key : JournalIntegrityKey) (image : CompleteControlJournalImage)
    (fault : Option PublicationFault) (process : ℕ) (serial : UInt64) : OwnerProcess Unit := do
  let bytes ← lift (encodeControlJournalImage key image)
  acquire
  let previous ← read key
  lift (publicationFits image previous)
  lift (publicationBarrier fault .uniqueTemporaryCreate)
  let _ ← lift (orError writeFailed (checkedSucc serial))
  let file ← createFile writeFailed (temporaryName process serial)
  (replaceSelected fault (temporaryName process serial) file bytes).onError fun error => do
    unlink (temporaryName process serial)
    lift (.error error)
  confirmSelected key image fault

/-- Takes the lock and reads the image, which has to be there. -/
def reopenControlJournalImage (key : JournalIntegrityKey) :
    OwnerProcess CompleteControlJournalImage := do
  acquire
  let image ← read key
  lift (orError invalidControlJournalImage image)

/-! ### Reading the selected image -/

/-- The image that the directory selects. -/
def selectedImage (key : JournalIntegrityKey) (directory : Directory) :
    Except ControlJournalImageError (Option CompleteControlJournalImage) :=
  match directory.entries journalName with
  | none => .ok none
  | some file => do
    reject (!metadataFits (directory.files file)) invalidControlJournalImage
    some <$> decodeControlJournalImage key (directory.files file).bytes

theorem length_le_of_metadataFits {file : File} (h : metadataFits file = true) :
    file.bytes.length ≤ imageLimit := by
  rw [metadataFits, Bool.not_eq_true', Bool.or_eq_false_iff, decide_eq_false_iff_not, not_lt] at h
  exact h.2

section Read

variable {key : JournalIntegrityKey} {start : Directory}

/-- What is left to read. -/
theorem readTurn_done {file : ℕ} {bytes : List UInt8} (count : ℕ)
    (hlimit : (start.files file).bytes.length ≤ imageLimit)
    (hbytes : bytes = (start.files file).bytes.take bytes.length) :
    ((start.files file).bytes.length ≤ bytes.length ∧
      readTurn file bytes (.done count) start = (.ok (start.files file).bytes, start)) ∨
    ∃ next, readTurn file bytes (.done count) start = (.again next, start) ∧
      next = (start.files file).bytes.take next.length ∧ bytes.length < next.length ∧
      next.length ≤ (start.files file).bytes.length := by
  set content := (start.files file).bytes with hcontent
  set chunk := (start.files file).chunk bytes.length 8192 count with hchunk
  have happend : bytes ++ chunk = content.take (bytes.length + max 1 (min count 8192)) := by
    rw [← File.take_append_chunk, ← hbytes]
  have hlength : (bytes ++ chunk).length ≤ content.length := by
    rw [happend]
    exact List.length_take_le' _ _
  have hturn : readTurn file bytes (.done count) start =
      (if chunk.isEmpty then .ok bytes
        else if imageLimit < bytes.length + chunk.length then .error invalidControlJournalImage
        else .again (bytes ++ chunk), start) := rfl
  rw [hturn]
  by_cases hend : chunk = []
  · have hle : content.length ≤ bytes.length := File.chunk_eq_nil.1 hend
    refine .inl ⟨hle, ?_⟩
    rw [hend, List.isEmpty_nil, if_pos rfl, hbytes, List.take_of_length_le hle]
  · have hpos : 0 < chunk.length := List.length_pos_iff.2 hend
    rw [List.length_append] at hlength
    refine .inr ⟨bytes ++ chunk, ?_, ?_, ?_, ?_⟩
    · rw [if_neg (by rwa [List.isEmpty_iff]), if_neg (by omega)]
    · rw [happend, List.length_take, List.take_eq_take_min]
    · rw [List.length_append]
      omega
    · rw [List.length_append]
      omega

/-- How a read of the selected image ends. -/
def ReadAnswer (key : JournalIntegrityKey) (start : Directory) :
    Answer ControlJournalImageError (Option CompleteControlJournalImage) → Prop
  | .ok image => selectedImage key start = .ok image
  | .error e => e = invalidControlJournalImage ∨ selectedImage key start = .error e
  | .stopped => True

theorem error_of_reject {bad : Bool} {e e' : ControlJournalImageError}
    (h : reject bad e = .error e') : e' = e :=
  (reject_eq_error.1 h).2.symm

theorem triple_readImage {file : ℕ} (hentry : start.entries journalName = some file) :
    Triple (· = start) (readImage key file) fun answer directory =>
      directory = start ∧ ReadAnswer key start answer := by
  refine triple_ask_bind ⟨rfl, trivial⟩ ⟨rfl, .inl rfl⟩ (.lift_bind ?_ fun _ hfits => ?_)
  · exact fun e herror => ⟨rfl, .inl (error_of_reject herror)⟩
  rw [reject_eq_ok, Bool.not_eq_false'] at hfits
  have hselected : selectedImage key start =
      some <$> decodeControlJournalImage key (start.files file).bytes := by
    rw [selectedImage, hentry]
    dsimp only
    rw [hfits]
    rfl
  refine .bind_start (· = (start.files file).bytes) ?_ ?_
  · -- between the reads, the bytes so far are the first ones of the file
    refine (Triple.loop (fun bytes directory => directory = start ∧
      bytes = (start.files file).bytes.take bytes.length) ?_ ?_ []).mono ?_ fun _ _ h => h
    · exact fun _ _ h => ⟨h.1, rfl, trivial⟩
    · rintro bytes outcome _ ⟨rfl, hbytes⟩
      cases outcome with
      | interrupted => exact ⟨rfl, hbytes⟩
      | failed => exact ⟨rfl, rfl, .inl rfl⟩
      | done count =>
        rcases readTurn_done count (length_le_of_metadataFits hfits) hbytes with
          ⟨-, hturn⟩ | ⟨next, hturn, hnext, -, -⟩
        · rw [hturn]
          exact ⟨rfl, rfl⟩
        · rw [hturn]
          exact ⟨rfl, hnext⟩
    · exact fun _ h => ⟨h, rfl⟩
  rintro _ rfl
  refine .lift_bind ?_ fun _ _ => .lift ?_ ?_
  · exact fun e herror => ⟨rfl, .inl (error_of_reject herror)⟩
  · exact fun image himage _ h => ⟨h, hselected.trans himage⟩
  · exact fun e herror _ h => ⟨h, .inr (hselected.trans herror)⟩

/-- A read answers the selected image or fails, and changes nothing. -/
theorem triple_read : Triple (· = start) (read key) fun answer directory =>
    directory = start ∧ ReadAnswer key start answer := by
  refine triple_ask_bind ⟨rfl, trivial⟩ ⟨rfl, .inl rfl⟩ ?_
  cases hentry : start.entries journalName with
  | none =>
    refine .pure fun _ h => ⟨h, ?_⟩
    show selectedImage key start = _
    rw [selectedImage, hentry]
  | some file => exact triple_readImage hentry

theorem answers_readTurns {file : ℕ} (hfits : metadataFits (start.files file) = true) :
    Answers (loop (readTurn file) []) start ((start.files file).bytes.length - 0 + 1)
      (start.files file).bytes := by
  refine (Succeeds.loop (fun bytes directory => directory = start ∧
    bytes = (start.files file).bytes.take bytes.length)
    (fun bytes => (start.files file).bytes.length - bytes.length) ?_ []).mono ?_ fun _ _ h => h
  · rintro bytes count _ ⟨rfl, hbytes⟩
    rcases readTurn_done (count + 1) (length_le_of_metadataFits hfits) hbytes with
      ⟨-, hturn⟩ | ⟨next, hturn, hnext, hlt, hle⟩
    · exact .inr ⟨_, _, hturn, rfl, rfl⟩
    · exact .inl ⟨next, _, hturn, ⟨rfl, hnext⟩, by omega⟩
  · exact fun _ hstart => ⟨hstart, rfl⟩

/-- The calls of a read of these bytes. -/
def readCalls (bytes : List UInt8) : ℕ := 1 + (1 + (0 + (bytes.length - 0 + 1 + (0 + 0))))

/-- When no call fails, the selected image is read. -/
theorem answers_readEntry {file : ℕ} {image : Option CompleteControlJournalImage}
    (hentry : start.entries journalName = some file)
    (hfits : metadataFits (start.files file) = true)
    (hdecode : some <$> decodeControlJournalImage key (start.files file).bytes = .ok image) :
    Answers (read key) start (readCalls (start.files file).bytes) image := by
  have hmetadata : reject (!metadataFits (start.files file)) invalidControlJournalImage = .ok () := by
    rw [hfits]
    rfl
  have hlength : reject ((start.files file).bytes.length != (start.files file).bytes.length)
      invalidControlJournalImage = .ok () := by
    rw [reject_eq_ok, bne_self_eq_false]
  refine (answers_ask _ _).bind ?_
  rw [hentry]
  exact (answers_ask _ _).bind ((answers_lift hmetadata).bind ((answers_readTurns hfits).bind
    ((answers_lift hlength).bind (answers_lift hdecode))))

theorem answers_read {image : Option CompleteControlJournalImage}
    (h : selectedImage key start = .ok image) : ∃ calls, Answers (read key) start calls image := by
  unfold selectedImage at h
  cases hentry : start.entries journalName with
  | none =>
    rw [hentry] at h
    obtain rfl := Except.ok.inj h
    refine ⟨1 + 0, (answers_ask _ _).bind ?_⟩
    rw [hentry]
    exact answers_pure none
  | some file =>
    rw [hentry] at h
    obtain ⟨hfits, hdecode⟩ := reject_bind_eq_ok.1 h
    rw [Bool.not_eq_false'] at hfits
    exact ⟨_, answers_readEntry hentry hfits hdecode⟩

end Read

/-! ### What a publication leaves -/

/-- The selected name and every file from before `start` are as they were. -/
structure Kept (start directory : Directory) : Prop where
  entry : directory.entries journalName = start.entries journalName
  settled : directory.settled = start.settled
  files : ∀ file < start.fresh, directory.files file = start.files file
  fresh : start.fresh ≤ directory.fresh
  mode : directory.mode = start.mode
  owned : directory.owned = start.owned
  wellFormed : directory.WellFormed

/-- A new file waits under a name of its own. -/
structure Waiting (start : Directory) (name : String) (file : ℕ) (content : File)
    (directory : Directory) : Prop extends Kept start directory where
  isNew : start.fresh ≤ file
  inUse : file < directory.fresh
  entryNew : directory.entries name = some file
  content : directory.files file = content

/-- The selected name points at a new file with these bytes, which are synced. -/
structure Replaced (start : Directory) (bytes : List UInt8) (directory : Directory) : Prop where
  entry : ∃ file, start.fresh ≤ file ∧ directory.entries journalName = some file ∧
    directory.files file = .ofOwner bytes true
  settled : directory.settled = start.settled ∨ directory.settled = directory.entries
  files : ∀ file < start.fresh, directory.files file = start.files file
  fresh : start.fresh ≤ directory.fresh
  mode : directory.mode = start.mode
  owned : directory.owned = start.owned
  wellFormed : directory.WellFormed

section Kept

variable {start directory : Directory} {name : String} {file : ℕ} {content : File}

theorem Kept.refl (h : start.WellFormed) : Kept start start :=
  ⟨rfl, rfl, fun _ _ => rfl, Nat.le_refl _, rfl, rfl, h⟩

theorem head_dot : ".control-journal-".toList.head? = some '.' := by decide +kernel

theorem head_journalName : journalName.toList.head? = some 'c' := by decide +kernel

theorem head_temporaryName (process : ℕ) (serial : UInt64) :
    (temporaryName process serial).toList.head? = some '.' := by
  unfold temporaryName
  simp only [String.toList_append, List.head?_append, head_dot, Option.some_or]

theorem temporaryName_ne (process : ℕ) (serial : UInt64) :
    temporaryName process serial ≠ journalName := by
  intro h
  have hhead := head_temporaryName process serial
  rw [h, head_journalName] at hhead
  cases hhead

theorem waiting_create (h : start.WellFormed) (hname : name ≠ journalName) :
    Waiting start name start.fresh (.ofOwner [] false) (start.create name) := by
  refine ⟨⟨?_, rfl, fun file hfile => ?_, Nat.le_succ _, rfl, rfl, h.create name⟩,
    Nat.le_refl _, Nat.lt_succ_self _, start.create_entries_self name, start.create_files_self name⟩
  · exact Directory.setEntry_entries_of_ne _ hname.symm _
  · exact Directory.setFile_files_of_ne _ (Nat.ne_of_lt hfile) _

/-- The new file can be changed freely. -/
theorem Waiting.setFile (h : Waiting start name file content directory) (next : File) :
    Waiting start name file next (directory.setFile file next) := by
  refine ⟨⟨h.entry, h.settled, fun other hother => ?_, h.fresh, h.mode, h.owned, h.wellFormed⟩,
    h.isNew, h.inUse, h.entryNew, directory.setFile_files_self file next⟩
  have hne : other ≠ file := Nat.ne_of_lt (Nat.lt_of_lt_of_le hother h.isNew)
  exact (directory.setFile_files_of_ne hne next).trans (h.files other hother)

theorem Waiting.append {written : List UInt8}
    (h : Waiting start name file (.ofOwner written false) directory) (bytes : List UInt8) :
    Waiting start name file (.ofOwner (written ++ bytes) false) (directory.append file bytes) := by
  have hnext := h.setFile (.ofOwner (written ++ bytes) false)
  rw [Directory.append, h.content]
  exact hnext

theorem Waiting.syncFile {bytes : List UInt8}
    (h : Waiting start name file (.ofOwner bytes false) directory) :
    Waiting start name file (.ofOwner bytes true) (directory.syncFile file) := by
  have hnext := h.setFile (.ofOwner bytes true)
  rw [Directory.syncFile, h.content]
  exact hnext

theorem Waiting.unlink (h : Waiting start name file content directory)
    (hname : name ≠ journalName) :
    Kept start (directory.setEntry name none) :=
  ⟨(directory.setEntry_entries_of_ne hname.symm none).trans h.entry, h.settled, h.files, h.fresh,
    h.mode, h.owned, h.wellFormed.setEntry nofun⟩

/-- The rename selects the new file. -/
theorem Waiting.rename {bytes : List UInt8}
    (h : Waiting start name file (.ofOwner bytes true) directory) (hname : name ≠ journalName) :
    Replaced start bytes (directory.rename name journalName) :=
  ⟨⟨file, h.isNew, (directory.rename_entries_target hname).trans h.entryNew, h.content⟩,
    .inl h.settled, h.files, h.fresh, h.mode, h.owned, h.wellFormed.rename name journalName⟩

theorem Replaced.sync {bytes : List UInt8} (h : Replaced start bytes directory) :
    Replaced start bytes directory.sync :=
  ⟨h.entry, .inr rfl, h.files, h.fresh, h.mode, h.owned, h.wellFormed.sync⟩

end Kept

/-! ### The calls of a publication -/

section Publish

variable {key : JournalIntegrityKey} {start : Directory} {name : String} {file : ℕ}
  {fault : Option PublicationFault} {barrier : PublicationFault} {bytes : List UInt8}

theorem publicationBarrier_eq_ok {u : Unit} :
    publicationBarrier fault barrier = .ok u ↔ fault ≠ some barrier := by
  rw [publicationBarrier, reject_eq_ok, beq_eq_false_iff_ne]

theorem error_of_publicationBarrier {e : ControlJournalImageError}
    (h : publicationBarrier fault barrier = .error e) (hbarrier : barrier ≠ .directorySync) :
    e = writeFailed := by
  rw [publicationBarrier, if_neg hbarrier, reject] at h
  split_ifs at h
  exact (Except.error.inj h).symm

/-- How the steps up to the rename end. -/
def ReplaceAnswer (start : Directory) (name : String) (file : ℕ) (bytes : List UInt8) :
    Answer ControlJournalImageError Unit → Directory → Prop
  | .ok _, directory => Replaced start bytes directory
  | .error e, directory => e = writeFailed ∧ ∃ content, Waiting start name file content directory
  | .stopped, directory => Kept start directory

/-- The bytes go to the waiting file one write after the other. -/
theorem triple_write (written : List UInt8)
    (post : Answer ControlJournalImageError Unit → Directory → Prop)
    (hstopped : ∀ directory, Kept start directory → post .stopped directory)
    (herror : ∀ directory, (∃ content, Waiting start name file content directory) →
      post (.error writeFailed) directory)
    (hok : ∀ directory, Waiting start name file (.ofOwner written false) directory →
      post (.ok ()) directory) :
    Triple (Waiting start name file (.ofOwner [] false)) (writeAll writeFailed file written) post := by
  refine (triple_writeAll (fun rest directory => ∃ before, before ++ rest = written ∧
    Waiting start name file (.ofOwner before false) directory) ?_ ?_ ?_ ?_ written).mono ?_
    fun _ _ h => h
  · rintro _ directory ⟨before, -, hwaiting⟩
    exact hstopped directory hwaiting.toKept
  · rintro _ directory ⟨before, -, hwaiting⟩
    exact herror directory ⟨_, hwaiting⟩
  · rintro rest count directory ⟨before, rfl, hwaiting⟩
    refine ⟨before ++ rest.take count, ?_, hwaiting.append _⟩
    rw [List.append_assoc, List.take_append_drop]
  · rintro directory ⟨before, rfl, hwaiting⟩
    rw [List.append_nil] at hok
    exact hok directory hwaiting
  · exact fun directory hwaiting => ⟨[], rfl, hwaiting⟩

theorem triple_replaceSelected (hname : name ≠ journalName) :
    Triple (Waiting start name file (.ofOwner [] false)) (replaceSelected fault name file bytes)
      (ReplaceAnswer start name file bytes) := by
  -- a half has been written only if the next barrier fails
  refine .bind (fun _ directory => (∃ content, Waiting start name file content directory) ∧
    (fault ≠ some .temporaryWrite → Waiting start name file (.ofOwner [] false) directory)) ?_
    fun _ => ?_
  · unfold writeHalf
    split_ifs with hfault
    · refine triple_write _ _ ?_ ?_ ?_
      · exact fun _ h => h
      · exact fun _ h => ⟨rfl, h⟩
      · exact fun _ h => ⟨⟨_, h⟩, fun hne => absurd hfault hne⟩
    · exact .pure fun _ h => ⟨⟨_, h⟩, fun _ => h⟩
  refine .bind (fun _ => Waiting start name file (.ofOwner [] false)) (.lift ?_ ?_) fun _ => ?_
  · exact fun _ hbarrier _ h => h.2 (publicationBarrier_eq_ok.1 hbarrier)
  · exact fun _ herror _ h => ⟨error_of_publicationBarrier herror (by decide), h.1⟩
  refine .bind (fun _ => Waiting start name file (.ofOwner bytes false)) (triple_write _ _ ?_ ?_ ?_)
    fun _ => ?_
  · exact fun _ h => h
  · exact fun _ h => ⟨rfl, h⟩
  · exact fun _ h => h
  refine .bind (fun _ => Waiting start name file (.ofOwner bytes false)) (.lift ?_ ?_) fun _ => ?_
  · exact fun _ _ _ h => h
  · exact fun _ herror _ h => ⟨error_of_publicationBarrier herror (by decide), _, h⟩
  refine .bind (fun _ => Waiting start name file (.ofOwner bytes true)) (triple_change ?_ ?_ ?_)
    fun _ => ?_
  · exact fun _ h => h.toKept
  · exact fun _ h => ⟨rfl, _, h⟩
  · exact fun _ h => h.syncFile
  refine .bind (fun _ => Waiting start name file (.ofOwner bytes true)) (.lift ?_ ?_) fun _ => ?_
  · exact fun _ _ _ h => h
  · exact fun _ herror _ h => ⟨error_of_publicationBarrier herror (by decide), _, h⟩
  refine triple_change ?_ ?_ ?_
  · exact fun _ h => h.toKept
  · exact fun _ h => ⟨rfl, _, h⟩
  · exact fun _ h => h.rename hname

/-- How the steps behind the rename end. -/
def ConfirmAnswer (start : Directory) (bytes : List UInt8) :
    Answer ControlJournalImageError Unit → Directory → Prop
  | .ok _, directory => Replaced start bytes directory ∧ directory.settled = directory.entries
  | .error e, directory => e = publishUncertain ∧ Replaced start bytes directory
  | .stopped, directory => Replaced start bytes directory

theorem triple_confirmSelected (image : CompleteControlJournalImage) :
    Triple (Replaced start bytes) (confirmSelected key image fault) (ConfirmAnswer start bytes) := by
  refine .bind (fun _ => Replaced start bytes) (.lift ?_ ?_) fun _ => ?_
  · exact fun _ _ _ h => h
  · exact fun _ herror _ h => ⟨error_of_reject herror, h⟩
  refine .bind (fun _ directory => Replaced start bytes directory ∧
    directory.settled = directory.entries) (triple_change ?_ ?_ ?_) fun _ => ?_
  · exact fun _ h => h
  · exact fun _ h => ⟨rfl, h⟩
  · exact fun _ h => ⟨h.sync, rfl⟩
  refine .bind (fun _ directory => Replaced start bytes directory ∧
    directory.settled = directory.entries) (.mapError ?_) fun _ => ?_
  · intro directory outcomes h
    have hread : (read key directory outcomes).2.1 = directory :=
      (@triple_read key directory directory outcomes rfl).1
    rw [hread]
    generalize (read key directory outcomes).1 = answer
    cases answer with
    | ok => exact h
    | error => exact ⟨rfl, h.1⟩
    | stopped => exact h.1
  refine .lift ?_ ?_
  · exact fun _ _ _ h => h
  · exact fun _ herror _ h => ⟨error_of_reject herror, h.1⟩

theorem triple_acquire : Triple (· = start) acquire fun answer directory => directory = start ∧
    match answer with
    | .ok _ => True
    | .error e => e = writeFailed
    | .stopped => True := by
  -- lock, `openat`, permissions of the directory, `fstat` of the reference
  refine triple_ask_bind ⟨rfl, trivial⟩ ⟨rfl, rfl⟩ (triple_ask_bind ⟨rfl, trivial⟩ ⟨rfl, rfl⟩
    (triple_ask_bind ⟨rfl, trivial⟩ ⟨rfl, rfl⟩ (triple_ask_bind ⟨rfl, trivial⟩ ⟨rfl, rfl⟩
      (.lift ?_ ?_))))
  · exact fun _ _ _ h => ⟨h, trivial⟩
  · exact fun _ herror _ h => ⟨h, error_of_reject herror⟩

/-- A selected image replays. -/
theorem exists_stands_of_selected {image : CompleteControlJournalImage}
    (h : selectedImage key start = .ok (some image)) :
    ∃ projection, Stands key image projection := by
  unfold selectedImage at h
  split at h
  · cases h
  · obtain ⟨-, h⟩ := reject_bind_eq_ok.1 h
    obtain ⟨image', hdecode, himage⟩ := map_eq_ok.1 h
    obtain rfl := Option.some.inj himage
    exact exists_encode_iff_stands.1 ⟨_, encode_of_decodeImage hdecode⟩

theorem error_of_publicationFits {image : CompleteControlJournalImage}
    {previous : Option CompleteControlJournalImage} {e : ControlJournalImageError}
    (hencode : encodeControlJournalImage key image = .ok bytes)
    (hselected : selectedImage key start = .ok previous)
    (h : publicationFits image previous = .error e) : e = invalidControlJournalImage := by
  cases previous with
  | none => exact error_of_reject h
  | some previous =>
    obtain ⟨old, hold⟩ := exists_stands_of_selected hselected
    obtain ⟨new, hnew⟩ := exists_encode_iff_stands.1 ⟨bytes, hencode⟩
    rw [publicationFits, hold.replayed, hnew.replayed] at h
    exact error_of_reject h

/-- How a publication ends; `fits` says that the comparison with the selected image has passed. -/
def PublishAnswer (start : Directory) (bytes : List UInt8) (fits : Prop) :
    Answer ControlJournalImageError Unit → Directory → Prop
  | .ok _, directory =>
    fits ∧ Replaced start bytes directory ∧ directory.settled = directory.entries
  | .error e, directory =>
    (e = publishUncertain ∧ fits ∧ Replaced start bytes directory) ∨
    (e = invalidControlJournalImage ∨ e = writeFailed) ∧ Kept start directory
  | .stopped, directory => Kept start directory ∨ fits ∧ Replaced start bytes directory

/-- **What a publication leaves behind**, whatever its calls answer and wherever it stops. -/
theorem publishImage_spec {image : CompleteControlJournalImage}
    {previous : Option CompleteControlJournalImage} (hstart : start.WellFormed)
    (hencode : encodeControlJournalImage key image = .ok bytes)
    (hselected : selectedImage key start = .ok previous) (fault : Option PublicationFault)
    (process : ℕ) (serial : UInt64) :
    Triple (· = start) (publishImage key image fault process serial)
      (PublishAnswer start bytes (publicationFits image previous = .ok ())) := by
  have hkept := Kept.refl hstart
  have hname := temporaryName_ne process serial
  -- the wire form of the image
  refine .lift_bind (fun e herror => ?_) fun wire hwire => ?_
  · cases hencode.symm.trans herror
  obtain rfl := Except.ok.inj (hencode.symm.trans hwire)
  -- the lock and the directory
  refine .bind_start (fun _ => True) (triple_acquire.mono (fun _ h => h) ?_) fun _ _ => ?_
  · rintro (_ | e | _) directory ⟨rfl, h⟩
    · exact ⟨rfl, trivial⟩
    · exact ⟨rfl, .inr ⟨.inr h, hkept⟩⟩
    · exact ⟨rfl, .inl hkept⟩
  -- the selected image, and whether the new one may replace it
  refine .bind_start (· = previous) (triple_read.mono (fun _ h => h) ?_) ?_
  · rintro (selected | e | _) directory ⟨rfl, h⟩
    · exact ⟨rfl, Except.ok.inj (h.symm.trans hselected)⟩
    · rcases h with rfl | h
      · exact ⟨rfl, .inr ⟨.inl rfl, hkept⟩⟩
      · cases hselected.symm.trans h
    · exact ⟨rfl, .inl hkept⟩
  rintro _ rfl
  refine .lift_bind (fun e herror => ?_) fun _ hfits => ?_
  · exact .inr ⟨.inl (error_of_publicationFits hencode hselected herror), hkept⟩
  -- the first barrier, and the serial number of the next temporary file
  refine .lift_bind (fun e herror => ?_) fun _ _ => .lift_bind (fun e herror => ?_) fun _ _ => ?_
  · exact .inr ⟨.inr (error_of_publicationBarrier herror (by decide)), hkept⟩
  · exact .inr ⟨.inr (orError_eq_error.1 herror).2.symm, hkept⟩
  -- from here on there is a temporary file, and a failure removes it again
  refine .bind (fun file directory =>
    Waiting start (temporaryName process serial) file (.ofOwner [] false) directory)
    (triple_createFile ?_ ?_ ?_) fun file => ?_
  · rintro _ rfl
    exact .inl hkept
  · rintro _ rfl
    exact .inr ⟨.inr rfl, hkept⟩
  · rintro _ rfl -
    exact waiting_create hstart hname
  refine .bind (fun _ directory => Replaced start bytes directory) (.onError (fun e directory =>
    e = writeFailed ∧
      ∃ content, Waiting start (temporaryName process serial) file content directory)
    ((triple_replaceSelected hname).mono (fun _ h => h) ?_) fun e => ?_) fun _ => ?_
  · rintro (_ | e | _) directory h
    · exact h
    · exact h
    · exact .inl h
  · refine .bind (fun _ directory => e = writeFailed ∧ Kept start directory)
      (triple_unlink ?_ ?_ ?_)
      fun _ => .lift ?_ ?_
    · rintro _ ⟨-, _, hwaiting⟩
      exact .inl hwaiting.toKept
    · rintro _ ⟨he, _, hwaiting⟩
      exact ⟨he, hwaiting.toKept⟩
    · rintro _ ⟨he, _, hwaiting⟩
      exact ⟨he, hwaiting.unlink hname⟩
    · exact fun _ hok => nomatch hok
    · rintro e' herror _ ⟨rfl, hkept⟩
      exact .inr ⟨.inr (Except.error.inj herror).symm, hkept⟩
  -- the image is selected: whatever fails now leaves it so
  refine (triple_confirmSelected image).mono (fun _ h => h) ?_
  rintro (_ | e | _) directory h
  · exact ⟨hfits, h⟩
  · exact .inl ⟨h.1, hfits, h.2⟩
  · exact .inr ⟨hfits, h⟩

/-! ### Atomicity -/

/-- When no call fails, reopening the directory answers the image. -/
def Yields (key : JournalIntegrityKey) (directory : Directory)
    (image : CompleteControlJournalImage) :
    Prop :=
  ∃ calls, Answers (reopenControlJournalImage key) directory calls image

/-- The owner's directory selects the image. -/
structure Selected (key : JournalIntegrityKey) (directory : Directory)
    (image : CompleteControlJournalImage) : Prop where
  wellFormed : directory.WellFormed
  mode : directory.mode = 0o700
  owned : directory.owned = true
  file : ∃ file, directory.entries journalName = some file ∧
    metadataFits (directory.files file) = true ∧
    decodeControlJournalImage key (directory.files file).bytes = .ok image

/-- The disk has the file that is selected. -/
def OnDisk (directory : Directory) : Prop :=
  ∃ file, directory.entries journalName = some file ∧ directory.settled journalName = some file ∧
    (directory.files file).synced = true

theorem answers_acquire (hmode : start.mode = 0o700) (howned : start.owned = true) :
    ∃ calls, Answers acquire start calls () := by
  have hroot : reject (start.mode != 0o700 || !start.owned) writeFailed = .ok () := by
    rw [hmode, howned]
    rfl
  exact ⟨_, (answers_ask _ _).bind ((answers_ask _ _).bind ((answers_ask _ _).bind
    ((answers_ask _ _).bind (answers_lift hroot))))⟩

theorem selectedImage_eq {image : CompleteControlJournalImage}
    (hentry : start.entries journalName = some file)
    (hfits : metadataFits (start.files file) = true)
    (hdecode : decodeControlJournalImage key (start.files file).bytes = .ok image) :
    selectedImage key start = .ok (some image) := by
  rw [selectedImage, hentry]
  show (reject _ _ >>= fun _ => _) = _
  rw [hfits, hdecode]
  rfl

theorem yields_of_entry {image : CompleteControlJournalImage} (hmode : start.mode = 0o700)
    (howned : start.owned = true) (hentry : start.entries journalName = some file)
    (hfits : metadataFits (start.files file) = true)
    (hdecode : decodeControlJournalImage key (start.files file).bytes = .ok image) :
    Yields key start image := by
  obtain ⟨calls, hacquire⟩ := answers_acquire hmode howned
  obtain ⟨calls', hread⟩ := answers_read (selectedImage_eq hentry hfits hdecode)
  exact ⟨_, hacquire.bind (hread.bind (answers_lift rfl))⟩

section Selected

variable {image next : CompleteControlJournalImage} {directory restarted : Directory}

theorem metadataFits_ofOwner (h : encodeControlJournalImage key next = .ok bytes) (synced : Bool) :
    metadataFits (.ofOwner bytes synced) = true := by
  have hlimit : ¬ imageLimit < bytes.length := Nat.not_lt.2 (decode_encodeImage h).2
  simp [metadataFits, File.ofOwner, hlimit]

/-- A directory that has kept the selected file yields its image. -/
theorem Selected.yields (h : Selected key start image) (hfresh : ∀ file < start.fresh,
      directory.files file = start.files file)
    (hentry : directory.entries journalName = start.entries journalName)
    (hmode : directory.mode = start.mode) (howned : directory.owned = start.owned) :
    Yields key directory image := by
  obtain ⟨file, hfile, hfits, hdecode⟩ := h.file
  have hsame := hfresh file (h.wellFormed _ _ (.inl hfile))
  refine yields_of_entry (hmode.trans h.mode) (howned.trans h.owned) (hentry.trans hfile) ?_ ?_
  · rw [hsame]
    exact hfits
  · rw [hsame]
    exact hdecode

theorem Kept.yields (hkept : Kept start directory) (h : Selected key start image) :
    Yields key directory image :=
  h.yields hkept.files hkept.entry hkept.mode hkept.owned

theorem Replaced.yields (hreplaced : Replaced start bytes directory) (h : Selected key start image)
    (hencode : encodeControlJournalImage key next = .ok bytes) : Yields key directory next := by
  obtain ⟨file, -, hentry, hcontent⟩ := hreplaced.entry
  refine yields_of_entry (hreplaced.mode.trans h.mode) (hreplaced.owned.trans h.owned) hentry ?_ ?_
  · rw [hcontent]
    exact metadataFits_ofOwner hencode true
  · rw [hcontent]
    exact (decode_encodeImage hencode).1

/-- The old file is on the disk when the machine comes back under its name. -/
theorem Selected.yields_restarted (h : Selected key start image) (hdisk : OnDisk start)
    (hfresh : ∀ file < start.fresh, directory.files file = start.files file)
    (hentry : restarted.entries journalName = start.entries journalName)
    (hmode : directory.mode = start.mode) (howned : directory.owned = start.owned)
    (hstop : directory.MachineStop restarted) : Yields key restarted image := by
  obtain ⟨file, hfile, hfits, hdecode⟩ := h.file
  obtain ⟨file', hfile', -, hsynced⟩ := hdisk
  obtain rfl := Option.some.inj (hfile.symm.trans hfile')
  have hsame := hfresh file (h.wellFormed _ _ (.inl hfile))
  have hback := hstop.files file (by rw [hsame]; exact hsynced)
  refine yields_of_entry (hstop.mode.trans (hmode.trans h.mode))
    (hstop.owned.trans (howned.trans h.owned)) (hentry.trans hfile) ?_ ?_
  · rw [hback, hsame]
    exact hfits
  · rw [hback, hsame]
    exact hdecode

theorem Kept.yields_restarted (hkept : Kept start directory) (h : Selected key start image)
    (hdisk : OnDisk start) (hstop : directory.MachineStop restarted) :
    Yields key restarted image := by
  obtain ⟨file, hfile, hsettled, hsynced⟩ := hdisk
  refine h.yields_restarted ⟨file, hfile, hsettled, hsynced⟩ hkept.files ?_ hkept.mode hkept.owned
    hstop
  rcases hstop.entries journalName with hentry | hentry
  · exact hentry.trans hkept.entry
  · rw [hentry, hkept.settled, hsettled, hfile]

/-- The new file is on the disk when the machine comes back under its name. -/
theorem Replaced.yields_restarted (hreplaced : Replaced start bytes directory)
    (h : Selected key start image) (hencode : encodeControlJournalImage key next = .ok bytes)
    (hstop : directory.MachineStop restarted)
    (hentry : restarted.entries journalName = directory.entries journalName) :
    Yields key restarted next := by
  obtain ⟨file, -, hfile, hcontent⟩ := hreplaced.entry
  have hback := hstop.files file (by rw [hcontent]; rfl)
  refine yields_of_entry (hstop.mode.trans (hreplaced.mode.trans h.mode))
    (hstop.owned.trans (hreplaced.owned.trans h.owned)) (hentry.trans hfile) ?_ ?_
  · rw [hback, hcontent]
    exact metadataFits_ofOwner hencode true
  · rw [hback, hcontent]
    exact (decode_encodeImage hencode).1

theorem Replaced.yields_either (hreplaced : Replaced start bytes directory)
    (h : Selected key start image) (hdisk : OnDisk start)
    (hencode : encodeControlJournalImage key next = .ok bytes)
    (hstop : directory.MachineStop restarted) :
    Yields key restarted image ∨ Yields key restarted next := by
  obtain ⟨file, hfile, hsettled, hsynced⟩ := hdisk
  rcases hstop.entries journalName with hentry | hentry
  · exact .inr (hreplaced.yields_restarted h hencode hstop hentry)
  · rcases hreplaced.settled with hold | hnew
    · refine .inl (h.yields_restarted ⟨file, hfile, hsettled, hsynced⟩ hreplaced.files ?_
        hreplaced.mode hreplaced.owned hstop)
      rw [hentry, hold, hsettled, hfile]
    · refine .inr (hreplaced.yields_restarted h hencode hstop ?_)
      rw [hentry, hnew]

theorem Yields.unique (h : Yields key start image) (h' : Yields key start next) : image = next := by
  obtain ⟨calls, hanswers⟩ := h
  obtain ⟨calls', hanswers'⟩ := h'
  obtain ⟨_, _, _, -, hrun, rfl, -⟩ :=
    hanswers start (List.replicate (calls + calls') 0) rfl (by simp)
  obtain ⟨_, _, _, -, hrun', rfl, -⟩ :=
    hanswers' start (List.replicate (calls + calls') 0) rfl (by simp)
  exact Answer.ok.inj (congrArg Prod.fst (hrun.symm.trans hrun'))

end Selected

/-! ### A publication that goes through -/

theorem succeeds_write (written : List UInt8) :
    Succeeds (Waiting start name file (.ofOwner [] false)) (writeAll writeFailed file written)
      (written.length + 1) fun _ => Waiting start name file (.ofOwner written false) := by
  refine (succeeds_writeAll (fun rest directory => ∃ before, before ++ rest = written ∧
    Waiting start name file (.ofOwner before false) directory) ?_ ?_ written).mono
    (fun _ hwaiting => ⟨[], rfl, hwaiting⟩) fun _ _ h => h
  · rintro rest count directory ⟨before, rfl, hwaiting⟩
    refine ⟨before ++ rest.take count, ?_, hwaiting.append _⟩
    rw [List.append_assoc, List.take_append_drop]
  · rintro directory ⟨before, rfl, hwaiting⟩
    rw [List.append_nil]
    exact hwaiting

/-- A computation without calls that cannot fail here. -/
theorem succeeds_check {pre : Directory → Prop} {x : Except ControlJournalImageError Unit}
    (h : x = .ok ()) : Succeeds pre (lift x) 0 fun _ => pre :=
  .lift h fun _ hpre => hpre

theorem succeeds_replaceSelected (hname : name ≠ journalName) :
    Succeeds (Waiting start name file (.ofOwner [] false)) (replaceSelected none name file bytes)
      (0 + (0 + (bytes.length + 1 + (0 + (1 + (0 + 1)))))) fun _ => Replaced start bytes := by
  refine .bind (fun _ => Waiting start name file (.ofOwner [] false)) (.pure fun _ h => h) fun _ =>
    .bind _ (succeeds_check rfl) fun _ => ?_
  refine .bind _ (succeeds_write bytes) fun _ => .bind _ (succeeds_check rfl) fun _ => ?_
  refine .bind (fun _ => Waiting start name file (.ofOwner bytes true))
    (succeeds_change fun _ h => h.syncFile) fun _ => .bind _ (succeeds_check rfl) fun _ => ?_
  exact succeeds_change fun _ h => h.rename hname

theorem succeeds_confirmSelected {image : CompleteControlJournalImage}
    (hencode : encodeControlJournalImage key image = .ok bytes) :
    Succeeds (Replaced start bytes) (confirmSelected key image none)
      (0 + (1 + (readCalls bytes + 0))) fun _ => Replaced start bytes := by
  have hread : Succeeds (Replaced start bytes) (read key) (readCalls bytes) fun selected directory =>
      selected = some image ∧ Replaced start bytes directory := by
    intro directory counts hreplaced hlength
    obtain ⟨file, -, hentry, hcontent⟩ := hreplaced.entry
    have hanswers : Answers (read key) directory (readCalls bytes) (some image) := by
      have h := @answers_readEntry key directory file (some image) hentry
        (by rw [hcontent]; exact metadataFits_ofOwner hencode true)
        (by rw [hcontent]; exact map_eq_ok.2 ⟨image, (decode_encodeImage hencode).1, rfl⟩)
      rw [hcontent] at h
      exact h
    obtain ⟨_, _, rest, hrest, hrun, rfl, rfl⟩ := hanswers directory counts rfl hlength
    exact ⟨_, _, rest, hrest, hrun, rfl, hreplaced⟩
  refine .bind _ (succeeds_check rfl) fun _ => .bind (fun _ => Replaced start bytes)
    (succeeds_change fun _ h => h.sync) fun _ => .bind _ (hread.mapError _) fun selected => ?_
  rintro directory counts ⟨rfl, hreplaced⟩ -
  refine ⟨(), directory, counts, Nat.le_refl _, ?_, hreplaced⟩
  rw [bne_self_eq_false]
  rfl

/-- **A publication that fits goes through when no call fails.** -/
theorem exists_publishImage {image : CompleteControlJournalImage}
    {previous : Option CompleteControlJournalImage} (hstart : start.WellFormed)
    (hmode : start.mode = 0o700) (howned : start.owned = true)
    (hencode : encodeControlJournalImage key image = .ok bytes)
    (hselected : selectedImage key start = .ok previous)
    (hfits : publicationFits image previous = .ok ()) {process : ℕ} {serial successor : UInt64}
    (hserial : checkedSucc serial = some successor)
    (hunused : start.entries (temporaryName process serial) = none) :
    ∃ counts, (publishImage key image none process serial start (through counts)).1 = .ok () := by
  have hname := temporaryName_ne process serial
  obtain ⟨calls, hacquire⟩ := answers_acquire hmode howned
  obtain ⟨calls', hread⟩ := answers_read hselected
  have hcreate : Succeeds (· = start) (createFile writeFailed (temporaryName process serial)) 1
      fun file => Waiting start (temporaryName process serial) file (.ofOwner [] false) := by
    refine succeeds_createFile ?_
    rintro _ rfl
    exact ⟨hunused, waiting_create hstart hname⟩
  have hsucceeds : ∃ calls, Succeeds (· = start) (publishImage key image none process serial) calls
      fun _ => Replaced start bytes :=
    ⟨_, (answers_lift hencode).bind (hacquire.bind (hread.bind ((answers_lift hfits).bind
      ((answers_lift (a := ()) rfl).bind ((answers_lift (orError_eq_ok.2 hserial)).bind
        (hcreate.bind _ fun file => ((succeeds_replaceSelected hname).onError _).bind _ fun _ =>
          succeeds_confirmSelected hencode))))))⟩
  obtain ⟨calls'', h⟩ := hsucceeds
  obtain ⟨_, _, _, -, hrun, -⟩ := h start (List.replicate calls'' 0) rfl
    (Nat.le_of_eq List.length_replicate.symm)
  exact ⟨_, congrArg Prod.fst hrun⟩

/-- **Publication is atomic.**  Whatever the calls of a publication answer and wherever it stops,
reopening the directory yields the image that was selected before or the published one, also when
the machine stops too and the disk had the old file.  An error other than an uncertain publication
leaves the old image, an uncertain publication has renamed the new one over it, and a success leaves
the new one. -/
theorem publish_crash_atomic (key : JournalIntegrityKey) (directory : Directory)
    (image next : CompleteControlJournalImage) (hselected : Selected key directory image)
    (hencodable : ∃ bytes, encodeControlJournalImage key next = .ok bytes)
    (fault : Option PublicationFault) (process : ℕ) (serial : UInt64) (outcomes : List Outcome) :
    let answer := (publishImage key next fault process serial directory outcomes).1
    let left := (publishImage key next fault process serial directory outcomes).2.1
    (Yields key left image ∨ Yields key left next) ∧
    (OnDisk directory → ∀ restarted, left.MachineStop restarted →
      Yields key restarted image ∨ Yields key restarted next) ∧
    (∀ e, answer = .error e → e ≠ publishUncertain → Yields key left image ∧
      (OnDisk directory → ∀ restarted, left.MachineStop restarted → Yields key restarted image)) ∧
    (answer = .error publishUncertain →
      left.entries journalName ≠ directory.entries journalName ∧ Yields key left next) ∧
    (answer = .ok () → Yields key left next ∧
      ∀ restarted, left.MachineStop restarted → Yields key restarted next) := by
  intro answer left
  obtain ⟨bytes, hencode⟩ := hencodable
  obtain ⟨file, hfile, hfits, hdecode⟩ := hselected.file
  have hspec : PublishAnswer directory bytes _ answer left :=
    publishImage_spec hselected.wellFormed hencode (selectedImage_eq hfile hfits hdecode) fault process
      serial directory outcomes rfl
  -- the directory is as before up to new files, or the rename has happened
  have hkept : Kept directory left → Yields key left image ∧
      (OnDisk directory → ∀ restarted, left.MachineStop restarted → Yields key restarted image) :=
    fun hkept => ⟨hkept.yields hselected,
      fun hdisk _ hstop => hkept.yields_restarted hselected hdisk hstop⟩
  have hreplaced : Replaced directory bytes left → Yields key left next ∧
      (OnDisk directory → ∀ restarted, left.MachineStop restarted →
        Yields key restarted image ∨ Yields key restarted next) :=
    fun hreplaced => ⟨hreplaced.yields hselected hencode,
      fun hdisk _ hstop => hreplaced.yields_either hselected hdisk hencode hstop⟩
  cases hanswer : answer with
  | ok =>
    rw [hanswer] at hspec
    obtain ⟨-, hnew, hsettled⟩ := hspec
    refine ⟨.inr (hreplaced hnew).1, (hreplaced hnew).2, nofun, nofun, fun _ =>
      ⟨(hreplaced hnew).1, fun restarted hstop => ?_⟩⟩
    refine hnew.yields_restarted hselected hencode hstop ?_
    -- the directory was synced, so both possible entries are the new one
    rcases hstop.entries journalName with hentry | hentry
    · exact hentry
    · rw [hentry, hsettled]
  | error e =>
    rw [hanswer] at hspec
    rcases hspec with ⟨rfl, -, hnew⟩ | ⟨he, hold⟩
    · refine ⟨.inr (hreplaced hnew).1, (hreplaced hnew).2, fun e he hne => ?_, fun _ => ⟨?_, ?_⟩,
        nofun⟩
      · exact absurd (Answer.error.inj he).symm hne
      · obtain ⟨new, hisNew, hentry, -⟩ := hnew.entry
        have hlt := hselected.wellFormed _ _ (.inl hfile)
        rw [hentry, hfile]
        exact fun hsame => absurd (Option.some.inj hsame)
          (Nat.ne_of_gt (Nat.lt_of_lt_of_le hlt hisNew))
      · exact (hreplaced hnew).1
    · refine ⟨.inl (hkept hold).1, fun hdisk restarted hstop =>
        .inl ((hkept hold).2 hdisk restarted hstop),
        fun _ _ _ => hkept hold, fun hsame => ?_, nofun⟩
      rcases he with rfl | rfl <;> cases hsame
  | stopped =>
    rw [hanswer] at hspec
    refine ⟨?_, fun hdisk restarted hstop => ?_, nofun, nofun, nofun⟩
    · exact hspec.elim (fun hold => .inl (hkept hold).1) fun hnew => .inr (hreplaced hnew.2).1
    · exact hspec.elim (fun hold => .inl ((hkept hold).2 hdisk restarted hstop)) fun hnew =>
        (hreplaced hnew.2).2 hdisk restarted hstop

/-- A directory with nothing but a selected file. -/
def directoryOf (bytes : List UInt8) : Directory where
  files _ := .ofOwner bytes true
  entries name := if name = journalName then some 0 else none
  settled name := if name = journalName then some 0 else none
  fresh := 1
  mode := 0o700
  owned := true

theorem selected_directoryOf {image : CompleteControlJournalImage}
    (h : encodeControlJournalImage key image = .ok bytes) :
    Selected key (directoryOf bytes) image := by
  have hentry : (if journalName = journalName then some 0 else none) = some 0 := if_pos rfl
  refine ⟨fun name file hfile => ?_, rfl, rfl, 0, hentry, metadataFits_ofOwner h true,
    (decode_encodeImage h).1⟩
  have hzero : (if name = journalName then some 0 else none) = some file := hfile.elim id id
  split_ifs at hzero
  obtain rfl := Option.some.inj hzero
  exact Nat.zero_lt_one

theorem onDisk_directoryOf (bytes : List UInt8) : OnDisk (directoryOf bytes) := by
  have hentry : (if journalName = journalName then some 0 else none) = some 0 := if_pos rfl
  exact ⟨0, hentry, hentry, rfl⟩

/-- A checkpoint, published over the first image. -/
theorem publish_crash_atomic_moved :
    let key : JournalIntegrityKey := ⟨ByteVec.zero 32⟩
    ∃ bytes, encodeControlJournalImage key (completeGenesis key) = .ok bytes ∧
      ∀ outcomes restarted, (publishImage key (movedImage key 1) none 1 0 (directoryOf bytes)
          outcomes).2.1.MachineStop restarted →
        Yields key restarted (completeGenesis key) ∨ Yields key restarted (movedImage key 1) := by
  intro key
  obtain ⟨bytes, hbytes⟩ := (stands_completeGenesis key).encode
  have hmoved : Stands key (movedImage key 1) (movedCheckpoint 1) :=
    stands_moved key rfl (by decide +kernel)
  exact ⟨bytes, hbytes, fun outcomes => (publish_crash_atomic key _ _ _ (selected_directoryOf hbytes)
    hmoved.encode none 1 0 outcomes).2.1 (onDisk_directoryOf bytes)⟩

end Publish

end MsgRiver.Journal
